import PlexManager.Core.SeasonPack

/-!
# The decision engine

`decide` parses each candidate, takes it through the gates in a fixed order, and
ranks what is left. A candidate that fails a gate is rejected for good and is
recorded under the gate's reason. The parser, the identity of the wanted media
and the blocklist come in as functions.

The survivors are sorted by a comparator, and each then gets a score that only
shows its rank. Python's sort is stable, also when it is reversed, and so is the
merge sort that stands for it.
-/

namespace PlexManager

namespace DecisionEngine

open Quality SourceMapping SeasonPack

inductive Protocol where
  | torrent
  | usenet
  deriving DecidableEq, Repr

structure CandidateRelease where
  guid : String
  title : String
  sizeBytes : Int
  downloadUrl : Option String := none
  magnetUrl : Option String := none
  infoHash : Option String := none
  seeders : Option Int := none
  leechers : Option Int := none
  indexerId : Int
  indexerName : String
  indexerPriority : Int := 25
  publishDate : Int
  imdbId : Int := 0
  tmdbId : Int := 0
  categories : List Int := []
  protocol : Protocol := .torrent
  deriving DecidableEq, Repr

structure ScoredRelease where
  candidate : CandidateRelease
  parsed : ParsedRelease
  quality : Quality
  profileIndex : Int
  score : Nat
  coveredSeasons : List Int := []
  targetSeasons : List Int := []
  upgradeSeasons : List Int := []
  wasteSeasons : List Int := []
  ignoredSeasons : List Int := []
  skippedSeasons : List Int := []
  deriving DecidableEq, Repr

structure DecisionResult where
  accepted : List ScoredRelease
  rejected : List (CandidateRelease × RejectionReason)
  noAcceptableRelease : Bool
  deriving DecidableEq, Repr

/-- The arguments of `decide` besides the candidates. -/
structure Criteria where
  parser : String → ParsedRelease
  profile : QualityProfile
  mediaMatch : CandidateRelease → ParsedRelease → Bool
  isBlocklisted : CandidateRelease → ParsedRelease → Bool
  preferSeasonPack : Bool := false
  multiSeasonIntent : Option MultiSeasonRequestIntent := none
  episodeSubset : Option (List Int) := none

/-- `_PACK_SCOPES`. -/
def packScope (scope : ReleaseScope) : Bool := scope == .seasonPack

def seasonNumbers : Numbering → List Int
  | .many ns => ns
  | _ => []

def qualityOf (parsed : ParsedRelease) : Quality :=
  resolveQuality parsed.source parsed.resolution parsed.modifier

variable (q : Criteria) (candidates : List CandidateRelease)

def multiSeasonPlan (parsed : ParsedRelease) : Option MultiSeasonPackPlan :=
  if classifyReleaseScope parsed = .multiSeasonPack then
    q.multiSeasonIntent.map (planMultiSeasonPack (seasonNumbers parsed.season))
  else none

/-- The release names no episode, or one that is not needed. -/
def outsideSubset (subset : Option (List Int)) (parsed : ParsedRelease) : Bool :=
  match subset with
  | none => false
  | some needed =>
      let eps := episodeNumbers parsed.episode
      eps.isEmpty || !eps.all needed.contains

/-- The survivor of the gates. -/
def scoredRelease (candidate : CandidateRelease) (parsed : ParsedRelease) :
    ScoredRelease :=
  let plan := multiSeasonPlan q parsed
  let seasons (f : MultiSeasonPackPlan → List Int) := (plan.map f).getD []
  { candidate := candidate
    parsed := parsed
    quality := qualityOf parsed
    profileIndex := ((q.profile.getIndex (qualityOf parsed).id).map Int.ofNat).getD (-1)
    score := 0
    coveredSeasons := seasons (·.coveredSeasons)
    targetSeasons := seasons (·.targetSeasons)
    upgradeSeasons := seasons (·.upgradeSeasons)
    wasteSeasons := seasons (·.wasteSeasons)
    ignoredSeasons := seasons (·.ignoredSeasons)
    skippedSeasons := seasons fun plan => plan.wasteSeasons ++ plan.ignoredSeasons }

/-- The body of the loop of `decide`: a candidate is taken through the gates. -/
def judge (candidate : CandidateRelease) : Except RejectionReason ScoredRelease :=
  let parsed := q.parser candidate.title
  if !q.mediaMatch candidate parsed then .error .wrongMedia
  else
    let scope := classifyReleaseScope parsed
    if scope = .multiSeasonPack ∧ q.multiSeasonIntent = none then .error .multiSeasonPack
    else
      let multiSeasonWithIntent := scope = .multiSeasonPack ∧ q.multiSeasonIntent ≠ none
      if q.preferSeasonPack = true ∧ packScope scope = false ∧ ¬ multiSeasonWithIntent then
        .error .notSeasonPack
      else if outsideSubset q.episodeSubset parsed then .error .episodeNotNeeded
      else
        let verdict := checkQuality (qualityOf parsed) q.profile
        if !verdict.accepted then .error (verdict.reason.getD .qualityNotWanted)
        else if (multiSeasonPlan q parsed).any fun plan => !plan.accepted then
          .error .multiSeasonPack
        else if q.isBlocklisted candidate parsed then .error .blocklisted
        else .ok (scoredRelease q candidate parsed)

def compare (left right : ScoredRelease) : Int :=
  let byQuality := compareByProfile left.quality right.quality q.profile
  if byQuality ≠ 0 then byQuality
  else
    let leftPack := packScope (classifyReleaseScope left.parsed)
    let rightPack := packScope (classifyReleaseScope right.parsed)
    if q.preferSeasonPack = true ∧ leftPack ≠ rightPack then if leftPack then 1 else -1
    else
      let leftSeeders := left.candidate.seeders.getD 0
      let rightSeeders := right.candidate.seeders.getD 0
      if leftSeeders ≠ rightSeeders then compareInt leftSeeders rightSeeders
      else compareInt left.candidate.sizeBytes right.candidate.sizeBytes

/-- `sort(key=cmp_to_key(_compare), reverse=True)`. -/
def sortReverse (accepted : List ScoredRelease) : List ScoredRelease :=
  accepted.mergeSort fun left right => decide (0 ≤ compare q left right)

def rank (accepted : List ScoredRelease) : List ScoredRelease :=
  accepted.mapIdx fun position scored => { scored with score := accepted.length - position }

/-- The two lists of the loop after a candidate. -/
def collect (lists : List ScoredRelease × List (CandidateRelease × RejectionReason))
    (candidate : CandidateRelease) :
    List ScoredRelease × List (CandidateRelease × RejectionReason) :=
  match judge q candidate with
  | .ok scored => (lists.1 ++ [scored], lists.2)
  | .error reason => (lists.1, lists.2 ++ [(candidate, reason)])

def decide : DecisionResult :=
  let lists := candidates.foldl (collect q) ([], [])
  let ranked := rank (sortReverse q lists.1)
  { accepted := ranked, rejected := lists.2, noAcceptableRelease := ranked.isEmpty }

/-! ### The loop -/

def survivors : List ScoredRelease :=
  candidates.filterMap fun candidate => (judge q candidate).toOption

/-- The candidates that did not survive, each with its reason. -/
def rejections :
    List (CandidateRelease × RejectionReason) :=
  candidates.filterMap fun candidate => match judge q candidate with
    | .ok _ => none
    | .error reason => some (candidate, reason)

theorem foldl_collect (lists : List ScoredRelease × List (CandidateRelease × RejectionReason)) :
    candidates.foldl (collect q) lists =
      (lists.1 ++ survivors q candidates, lists.2 ++ rejections q candidates) := by
  induction candidates generalizing lists with
  | nil => simp [survivors, rejections]
  | cons candidate others ih =>
    rw [List.foldl_cons, ih]
    cases hjud : judge q candidate with
    | ok scored | error reason => simp [collect, survivors, rejections, hjud, Except.toOption]

/-- No candidate's fate depends on another candidate. -/
theorem decide_eq :
    decide q candidates =
      { accepted := rank (sortReverse q (survivors q candidates))
        rejected := rejections q candidates
        noAcceptableRelease := (rank (sortReverse q (survivors q candidates))).isEmpty } := by
  simp only [decide, foldl_collect, List.nil_append]

end DecisionEngine

end PlexManager
