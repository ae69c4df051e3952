import PlexManager.Core.RequestStatus
import PlexManager.Core.SourceMapping

/-!
# What a release covers

A release of a show covers an episode or some of a season, a whole season, or
several seasons. A pack of several is only worth a download if the seasons it is
wanted for outnumber the ones that are installed already, and if none of its
seasons is being downloaded on its own.
-/

namespace PlexManager

namespace SeasonPack

open Quality SourceMapping

inductive ReleaseScope where
  | singleEpisode
  | seasonPack
  | multiSeasonPack
  | unknown
  deriving DecidableEq, Repr

def singleSeason : Numbering → Option Int
  | .none => none
  | .one n => some n
  | .many ns => ns.head?

def classifyReleaseScope (parsed : ParsedRelease) : ReleaseScope :=
  match parsed.season with
  | .many (_ :: _ :: _) => .multiSeasonPack
  | season =>
      if (singleSeason season).isNone then .unknown
      else if parsed.episode = .none then .seasonPack
      else .singleEpisode

def insertSet (n : Int) : List Int → List Int
  | [] => [n]
  | m :: rest =>
      if n < m then n :: m :: rest
      else if n = m then m :: rest
      else m :: insertSet n rest

/-- `sorted(set(...))`. -/
def sortedSet (ns : List Int) : List Int := ns.foldr insertSet []

def episodeNumbers : Numbering → List Int
  | .none => []
  | .one n => [n]
  | .many ns => sortedSet ns

inductive MultiSeasonRequestMode where
  | wholeShow
  | explicitSeasons
  deriving DecidableEq, Repr

structure SeasonPackSeasonState where
  seasonNumber : Int
  status : RequestStatus
  installedQualityId : Option Nat := none
  installedProfileIndex : Option Nat := none
  deriving DecidableEq, Repr

structure MultiSeasonRequestIntent where
  mode : MultiSeasonRequestMode
  requestedSeasons : List Int
  seasons : List SeasonPackSeasonState
  deriving DecidableEq, Repr

inductive PackReason where
  | explicitSeasonSetMismatch
  | coveredSeasonInFlight
  | noUsefulSeasons
  | usefulSeasonsNotMajority
  deriving DecidableEq, Repr

structure MultiSeasonPackPlan where
  accepted : Bool
  reason : Option PackReason
  coveredSeasons : List Int
  targetSeasons : List Int := []
  upgradeSeasons : List Int := []
  wasteSeasons : List Int := []
  ignoredSeasons : List Int := []
  inFlightSeasons : List Int := []
  deriving DecidableEq, Repr

/-- `_INSTALLED_STATUSES`. -/
def installedStatus : RequestStatus → Bool
  | .completed | .available => true
  | _ => false

/-- `_SEARCHABLE_STATUSES`. -/
def searchableStatus : RequestStatus → Bool
  | .pending | .searching | .noAcceptableRelease | .failed => true
  | _ => false

/-- `_IN_FLIGHT_STATUSES`. -/
def inFlightStatus : RequestStatus → Bool
  | .downloading | .importBlocked => true
  | _ => false

/-- What a covered season counts as. -/
inductive Coverage where
  | target
  | inFlight
  | waste
  | ignored
  deriving DecidableEq, Repr

/-- What a tracked season counts as. An installed one is waste whether or not
    the pack would be an upgrade: replacement does not exist yet, and so the
    source's comparison of the two profile indices has one outcome. -/
def SeasonPackSeasonState.coverage (state : SeasonPackSeasonState) : Coverage :=
  if searchableStatus state.status then .target
  else if inFlightStatus state.status then .inFlight
  else if !installedStatus state.status then .ignored
  else .waste

variable (intent : MultiSeasonRequestIntent) (seasonNumber : Int)

/-- The row of a season. The source builds a dictionary, so of several rows for
    one season the last counts. -/
def stateOf :
    Option SeasonPackSeasonState :=
  intent.seasons.reverse.find? fun state => state.seasonNumber == seasonNumber

def eligible : Bool :=
  (stateOf intent seasonNumber).isSome &&
    (intent.requestedSeasons.isEmpty || intent.requestedSeasons.contains seasonNumber)

/-- What a season of a pack counts as: nothing, where the request is not about
    it. -/
def coverageOf : Coverage :=
  if eligible intent seasonNumber then
    ((stateOf intent seasonNumber).map SeasonPackSeasonState.coverage).getD .ignored
  else .ignored

def planMultiSeasonPack (packSeasons : List Int) (intent : MultiSeasonRequestIntent) :
    MultiSeasonPackPlan :=
  let covered := sortedSet packSeasons
  if intent.mode = .explicitSeasons ∧ covered ≠ sortedSet intent.requestedSeasons then
    { accepted := false
      reason := some .explicitSeasonSetMismatch
      coveredSeasons := covered
      ignoredSeasons := covered.filter fun n => !intent.requestedSeasons.contains n }
  else
    let counted (coverage : Coverage) := covered.filter fun n => coverageOf intent n = coverage
    let target := counted .target
    let waste := counted .waste
    let inFlight := counted .inFlight
    let reason : Option PackReason :=
      if inFlight ≠ [] then some .coveredSeasonInFlight
      else if target = [] then some .noUsefulSeasons
      else if waste ≠ [] ∧ target.length ≤ waste.length then some .usefulSeasonsNotMajority
      else none
    { accepted := reason.isNone
      reason := reason
      coveredSeasons := covered
      targetSeasons := target
      wasteSeasons := waste
      ignoredSeasons := counted .ignored
      inFlightSeasons := inFlight }

end SeasonPack

end PlexManager
