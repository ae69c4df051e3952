import PlexManager.Core.EpisodeStates
import PlexManager.Core.SeasonPlan

/-!
# The life of a season

One season of a request with everything that is kept about it: its row, the rows
of its episodes, its downloads, and the directory in the library that its files
are in. The services move it along: it is requested, searched for, grabbed,
imported and confirmed; a user reports it, or disk pressure evicts it, and the
directory is deleted; and the cycle that grabs looks again at a season that may
have grown.

Each verb is one step, as its writes are committed together. A deletion is a
step of its own, since the claim for it is committed before. Where a service
refuses to act, the step is refused. A grab is allowed in more statuses than the
service allows.

What the library has of the season is a list of episodes: those imported into
its directory, or adopted as owned, since the directory was last deleted.
-/

namespace PlexManager

namespace Seasons

open KeyedTable Episodes SeasonPack

inductive DownloadPhase where
  | active
  | imported
  | dead
  deriving DecidableEq, Repr

/-- A download for the season. One that only covers it was grabbed for others. -/
structure SeasonDownload where
  id : Nat
  phase : DownloadPhase := .active
  episodes : Option (List Int) := none
  rideAlong : Bool := false
  /-- What the release title says that it covers, if it is known. -/
  scope : Option ReleaseScope := none
  addedOn : Int := 0
  deriving DecidableEq, Repr

/-- Who holds the claim to delete the directory. -/
inductive Purger where
  | report
  | eviction
  deriving DecidableEq, Repr

inductive PurgeOutcome where
  | deleted
  | partialDelete (eaten : List Int)
  /-- Refused, failed or deferred, with the directory intact. -/
  | kept
  deriving DecidableEq, Repr

structure Lifecycle where
  db : Show
  states : States
  downloads : List SeasonDownload
  /-- A grab cycle has the season among the ones it is going to search for. -/
  collected : Bool
  purging : Option Purger
  /-- The episodes that the library has. -/
  library : List Int
  deriving DecidableEq

/-! ### Statuses -/

def dueSearchStatuses : List RequestStatus := [.pending, .noAcceptableRelease, .searching]

def preGrabStatuses : List RequestStatus := [.pending, .searching, .noAcceptableRelease]

def parkableStatuses : List RequestStatus := [.pending, .searching, .noAcceptableRelease]

def reportableStatuses : List RequestStatus := [.completed, .available]

/-- `_STALE_SEASON_BREADCRUMB_CLEAR_STATUSES`. -/
def breadcrumbClearStatuses : List RequestStatus :=
  [.pending, .searching, .noAcceptableRelease, .downloading, .failed, .cancelled, .evicted,
    .importBlocked]

/-- `season_request_service.set_status_if_in`, or `none` where it raises. -/
def setSeasonStatusIfIn (now : Int) (mediaRequestId : Nat) (seasonNumber : Int)
    (status : RequestStatus) (allowedFrom : List RequestStatus) (db : Show) :
    Option (Bool × Show) :=
  match db.setStatusIfIn now mediaRequestId seasonNumber status allowedFrom with
  | (true, db) => (recomputeParent db mediaRequestId).map fun db => (true, db)
  | (false, db) => some (false, db)

namespace Lifecycle

/-! ### Reads -/

/-- `find_active_for_request`. -/
def active (w : Lifecycle) : Option SeasonDownload :=
  w.downloads.find? fun d => d.phase = .active ∧ d.rideAlong = false

/-- `find_active_for_request_or_coverage`, as a test. -/
def covered (w : Lifecycle) : Bool := w.downloads.any fun d => d.phase = .active

/-- The download failed, or it is gone. -/
def dead (w : Lifecycle) (downloadId : Nat) : Bool :=
  w.downloads.any fun d => d.id = downloadId ∧ d.phase = .dead

def setPhase (w : Lifecycle) (downloadId : Nat) (phase : DownloadPhase) : Lifecycle :=
  { w with
    downloads := w.downloads.map fun d => if d.id = downloadId then { d with phase } else d }

variable (id : Nat) (n : Int)

def libraryPath (w : Lifecycle) : Option String := (w.db.season id n).bind (·.libraryPath)

/-- The episodes of the season that the request names, if it names any. -/
def scopedEpisodes (w : Lifecycle) : List Int :=
  ((w.db.requests.find id).bind fun r => r.requestedEpisodes.lookup n).getD []

/-! ### Requests and the search -/

def request (now : Int) (plex : Option Crawl) (plan : TvSeasonPlan) (present : Option (List Int))
    (w : Lifecycle) : Option Lifecycle :=
  (ensureTvSeasonPlan now plex id plan present w.db).map fun db => { w with db }

/-- `wake_waiting_for_air_date`, for a show that has the season by now. -/
def wake (now : Int) (plex : Option Crawl) (seasons : List Int) (w : Lifecycle) :
    Option Lifecycle :=
  if w.db.status id n = some .waitingForAirDate then
    (ensureSeasons now plex id seasons (!(w.scopedEpisodes id n).isEmpty) none w.db).map fun db =>
      { w with db }
  else none

/-- The season is among the due scopes of a cycle, and its packs are searched. A
    directory that a report is deleting keeps it out. -/
def collect (w : Lifecycle) : Option Lifecycle :=
  match w.db.status id n with
  | some status =>
      if status ∈ dueSearchStatuses ∧ w.active.isNone ∧
          !(w.purging = some .report ∧ (w.libraryPath id n).isSome) ∧
          (w.scopedEpisodes id n).isEmpty then
        some { w with collected := true }
      else none
  | none => none

inductive FallbackOutcome where
  | targetUnknown
  /-- The target is imported, and the season was completed for it. -/
  | completed (target : List Int)
  /-- The target is imported, but the season is not due any more. -/
  | superseded
  | nothingToDo
  | search (missing : List Int)
  deriving DecidableEq, Repr

/-- `_attempt_episode_fallback`, up to its search: the target is refreshed, and
    if nothing of it is missing the season is completed. -/
def attemptEpisodeFallback (now : Int) (answer : Option SeasonAnswer) (today : Int)
    (w : Lifecycle) : Option (FallbackOutcome × Lifecycle) :=
  if w.collected then
    match answer with
    | none => some (.targetUnknown, { w with collected := false })
    | some answer =>
        let (target, states) := refreshTarget w.states answer today
        let w := { w with states, collected := false }
        let missing := computeMissing states (w.active.map (·.episodes)) target
        if missing.isEmpty then
          if !target.isEmpty && !w.covered then
            match setSeasonStatusIfIn now id n .completed dueSearchStatuses w.db with
            | some (true, db) => some (.completed target, { w with db })
            | some (false, _) => some (.superseded, w)
            | none => none
          else some (.nothingToDo, w)
        else some (.search missing, w)
  else none

def park (now : Int) (searchAttempts : Nat) (nextSearchAt : Int) (w : Lifecycle) :
    Option Lifecycle :=
  if w.covered then none
  else match setSeasonStatusIfIn now id n .noAcceptableRelease parkableStatuses w.db with
  | some (true, db) => some { w with db := db.scheduleSearch id n searchAttempts nextSearchAt }
  | _ => none

/-! ### Downloads -/

/-- A grab for the season. One of the fallback marks the episodes it covers. -/
def grab (now : Int) (d : SeasonDownload) (marked : List Int) (w : Lifecycle) :
    Option Lifecycle :=
  if w.active.isNone ∧ d.phase = .active ∧ d.rideAlong = false ∧ ∀ d' ∈ w.downloads, d'.id ≠ d.id
  then
    (setSeasonStatus now id n .downloading false w.db).map fun db =>
      { w with db, downloads := w.downloads ++ [d], states := markGrabbed w.states marked d.id }
  else none

def cover (d : SeasonDownload) (w : Lifecycle) : Option Lifecycle :=
  if d.phase = .active ∧ d.rideAlong = true ∧ ∀ d' ∈ w.downloads, d'.id ≠ d.id then
    some { w with downloads := w.downloads ++ [d] }
  else none

def fail (now : Int) (downloadId : Nat) (w : Lifecycle) : Option Lifecycle :=
  if ∃ d ∈ w.downloads, d.id = downloadId ∧ d.phase = .active then
    (setSeasonStatus now id n .searching true w.db).map fun db =>
      { w.setPhase downloadId .dead with db }
  else none

/-- The status of a season after an import: completed, or searched for again.
    With `late` another season was attached meanwhile, and the status is left to
    the next cycle. -/
def settleImport (now : Int) (late complete : Bool) (db : Show) : Option Show :=
  if late then some db
  else if complete then setSeasonStatus now id n .completed false db
  else (setSeasonStatus now id n .searching false db).map (·.scheduleSearch id n 0 none)

/-- `_import_tv_locked`, from the placed files on. Nothing is placed into a
    directory that is being deleted, and a download for some episodes has to
    have them. -/
def importSeason (now : Int) (downloadId : Nat) (seasonDir : String) (accepted : List Int)
    (late : Bool) (w : Lifecycle) : Option Lifecycle :=
  match w.downloads.find? fun d => d.id = downloadId ∧ d.phase = .active with
  | none => none
  | some d =>
      if w.purging.isNone ∧ accepted ≠ [] ∧ ∀ e ∈ d.episodes.getD [], e ∈ accepted then
        let target := (w.states.rows.map (·.episodeNumber)).filter
          (· ∉ staleGrabbedEpisodes w.states w.dead)
        let (complete, states) := applyImport w.states accepted downloadId target
        let placed := w.db.setLibraryPath id n (some seasonDir)
        (settleImport id n now late complete placed).map fun db =>
          { w.setPhase downloadId .imported with db, states, library := w.library ++ accepted }
      else none

/-- `run_availability_cycle`: Plex has the season. -/
def confirm (now : Int) (w : Lifecycle) : Option Lifecycle :=
  match setSeasonStatusIfIn now id n .available realDoneStatuses w.db with
  | some (true, db) => some { w with db }
  | _ => none

/-! ### The airing refresh -/

def packDay (w : Lifecycle) : Option Int :=
  ((w.downloads.filter fun d =>
    d.phase = .imported ∧ d.episodes = none ∧ d.rideAlong = false ∧
      (d.scope = some .seasonPack ∨ d.scope = some .multiSeasonPack)).map (·.addedOn)).max?

/-- Adopt episodes as owned: those that are pending, or those of them named. -/
def adopt (episodes : Option (List Int)) (w : Lifecycle) : Lifecycle :=
  { w with
    states := adoptBaseline w.states episodes
    library := w.library ++ adoptable w.states episodes }

/-- The pending episodes of a target that aired before a day. -/
def packOwned (states : States) (target : List Int) (cutoff : Int) : List Int :=
  (states.rows.filter fun row =>
    row.status = .pending ∧ row.episodeNumber ∈ target ∧ row.airDate.any (· < cutoff)).map
      (·.episodeNumber)

def adoptPack (target : List Int) (w : Lifecycle) : Lifecycle :=
  match w.packDay with
  | none => w
  | some cutoff => w.adopt (some (packOwned w.states target cutoff))

/-- Search again for a season that has grown. With `conflict` a newer request
    holds the show, and the re-arm is rolled back. -/
def rearmGrown (now : Int) (conflict : Bool) (w : Lifecycle) : Option Lifecycle :=
  if conflict then some w
  else match setSeasonStatusIfIn now id n .searching realDoneStatuses w.db with
  | some (true, db) => some { w with db := db.scheduleSearch id n 0 none }
  | some (false, _) => some w
  | none => none

/-- The body of the loop of `reconcile_airing`, for a season that is done. One
    without any rows was there before they were, and is owned as it is. -/
def reconcileAiring (now : Int) (answer : Option SeasonAnswer) (today : Int) (conflict : Bool)
    (w : Lifecycle) : Option Lifecycle :=
  match w.db.status id n with
  | some status =>
      if status ∈ realDoneStatuses then
        if !(w.scopedEpisodes id n).isEmpty then some w
        else match answer with
        | none => some w
        | some answer =>
            let hadBaseline := !w.states.rows.isEmpty
            let (target, states) := refreshTarget w.states answer today
            let refreshed := { w with states }
            if !hadBaseline && !target.isEmpty then some (refreshed.adopt none)
            else if ∀ e ∈ target, e ∈ importedEpisodes states then some refreshed
            else
              let adopted := if hadBaseline then refreshed.adoptPack target else refreshed
              if ∀ e ∈ target, e ∈ importedEpisodes adopted.states then some adopted
              else adopted.rearmGrown id n now conflict
      else none
  | none => none

/-! ### Deletions -/

/-- `report_issue`, up to its purge: `reset_for_research`, with the claim taken
    before it is committed. -/
def reportIssue (now : Int) (w : Lifecycle) : Option Lifecycle :=
  match w.db.status id n with
  | some status =>
      if status ∈ reportableStatuses ∧ w.purging.isNone then
        (setSeasonStatus now id n .searching false w.db).map fun db =>
          { w with
            db := db.scheduleSearch id n 0 none
            purging := if (w.libraryPath id n).isSome then some .report else none }
      else none
  | none => none

/-- `_evict_one`, up to its delete. -/
def evict (now : Int) (w : Lifecycle) : Option Lifecycle :=
  if (w.libraryPath id n).isSome ∧ w.purging.isNone ∧ w.covered = false then
    match setSeasonStatusIfIn now id n .evicted [.available] w.db with
    | some (true, db) => some { w with db, purging := some .eviction }
    | _ => none
  else none

/-- An eviction or a correction that was interrupted is taken up again. -/
def recover (w : Lifecycle) : Option Lifecycle :=
  match w.db.status id n with
  | some status =>
      if status ∈ breadcrumbClearStatuses ∧ (w.libraryPath id n).isSome ∧ w.purging.isNone then
        some { w with purging := some .eviction }
      else none
  | none => none

/-- `_restore_after_failed_delete`: the season is there after all, also where a
    request re-armed it meanwhile. -/
def restore (now : Int) (db : Show) : Option Show :=
  match setSeasonStatusIfIn now id n .available [.evicted] db with
  | some (true, db) => some db
  | some (false, db) =>
      (setSeasonStatusIfIn now id n .available preGrabStatuses db).map (·.2)
  | none => none

/-- The directory is deleted, and what follows. -/
def purge (now : Int) (outcome : PurgeOutcome) (w : Lifecycle) : Option Lifecycle :=
  match w.purging, outcome with
  | none, _ => none
  | some .report, .deleted =>
      some { w with db := w.db.setLibraryPath id n none, purging := none, library := [] }
  | some .eviction, .deleted =>
      match w.db.status id n with
      | some status =>
          some { w with
            db := if status ∈ breadcrumbClearStatuses then w.db.setLibraryPath id n none else w.db
            purging := none
            library := [] }
      | none => none
  | some _, .partialDelete eaten =>
      some { w with purging := none, library := w.library.filter (· ∉ eaten) }
  | some .report, .kept => some { w with purging := none }
  | some .eviction, .kept =>
      (restore id n now w.db).map fun db => { w with db, purging := none }

end Lifecycle

/-! ### The system -/

inductive SeasonAction where
  | request (plex : Option Crawl) (plan : TvSeasonPlan) (present : Option (List Int))
  | wake (plex : Option Crawl) (seasons : List Int)
  | collect
  | fallback (answer : Option SeasonAnswer) (today : Int)
  | park (searchAttempts : Nat) (nextSearchAt : Int)
  | grab (d : SeasonDownload) (marked : List Int)
  | cover (d : SeasonDownload)
  | fail (downloadId : Nat)
  | importSeason (downloadId : Nat) (seasonDir : String) (accepted : List Int) (late : Bool)
  | confirm
  | reconcile (answer : Option SeasonAnswer) (today : Int) (conflict : Bool)
  | reportIssue
  | evict
  | recover
  | purge (outcome : PurgeOutcome)

/-- One verb on season `n` of request `id`, at a time. -/
def lifecycleStep (id : Nat) (n : Int) (w : Lifecycle) : Int × SeasonAction → Option Lifecycle
  | (now, .request plex plan present) => w.request id now plex plan present
  | (now, .wake plex seasons) => w.wake id n now plex seasons
  | (_, .collect) => w.collect id n
  | (now, .fallback answer today) => (w.attemptEpisodeFallback id n now answer today).map (·.2)
  | (now, .park searchAttempts nextSearchAt) => w.park id n now searchAttempts nextSearchAt
  | (now, .grab d marked) => w.grab id n now d marked
  | (_, .cover d) => w.cover d
  | (now, .fail downloadId) => w.fail id n now downloadId
  | (now, .importSeason downloadId seasonDir accepted late) =>
      w.importSeason id n now downloadId seasonDir accepted late
  | (now, .confirm) => w.confirm id n now
  | (now, .reconcile answer today conflict) => w.reconcileAiring id n now answer today conflict
  | (now, .reportIssue) => w.reportIssue id n now
  | (now, .evict) => w.evict id n now
  | (_, .recover) => w.recover id n
  | (now, .purge outcome) => w.purge id n now outcome

end Seasons

end PlexManager
