import Mathlib.Data.List.Dedup
import Mathlib.Data.List.Sort
import PlexManager.Core.SeasonRequests

/-!
# Applying a season plan

A request for a show names seasons, or episodes, or nothing at all, and TMDB
says how many seasons the show has. Both are resolved into a plan: the seasons
to track, and those of them to park until they air. A request for a show that
already has one is joined to it, and the plan is then applied to the request
that is there, in two passes. The first creates the seasons that are not
tracked, and re-arms some of those that are. The second parks.

The repair of the parent's `completed_at` after a re-arm is left out. It writes
no status.
-/

namespace PlexManager

namespace Seasons

open KeyedTable

def sortedSet (xs : List Int) : List Int := xs.dedup.insertionSort (· ≤ ·)

@[simp] theorem mem_sortedSet {xs : List Int} {n : Int} : n ∈ sortedSet xs ↔ n ∈ xs := by
  simp only [sortedSet, List.mem_insertionSort, List.mem_dedup]

/-! ### The plan -/

structure TvSeasonPlan where
  seasonNumbers : List Int
  waitingSeasons : List Int
  episodeScoped : Bool := false
  deriving DecidableEq, Repr

/-- The seasons `1..seasonCount`. -/
def airedSeasons (seasonCount : Int) : List Int :=
  (List.range seasonCount.toNat).map fun i => (i : Int) + 1

variable (seasons : List Int) (episodes : List (Int × List Int)) (now : Int)
  (library : Option Crawl) (mediaRequestId : Nat)

/-- `_season_numbers`: the seasons that were named, or else the whole aired
    series without its specials. -/
def seasonNumbers (seasonCount : Int) : List Int :=
  if seasons.isEmpty then airedSeasons seasonCount else seasons

def resolveTvSeasonPlan (seasonCount : Int) (seasons : List Int)
    (episodes : List (Int × List Int)) (defaultWaitingFirstSeason : Bool) : TvSeasonPlan :=
  let numbers :=
    if episodes.isEmpty then seasonNumbers seasons seasonCount
    else sortedSet (episodes.map (·.1))
  if numbers.isEmpty && defaultWaitingFirstSeason then
    { seasonNumbers := [1], waitingSeasons := [1], episodeScoped := !episodes.isEmpty }
  else
    { seasonNumbers := numbers
      waitingSeasons :=
        if seasons.isEmpty && episodes.isEmpty then []
        else numbers.filter fun season => season > seasonCount
      episodeScoped := !episodes.isEmpty }

variable (seasonCount : Int)

theorem waiting_subset (seasons : List Int) (episodes : List (Int × List Int))
    (defaultWaitingFirstSeason : Bool) :
    ∀ n ∈ (resolveTvSeasonPlan seasonCount seasons episodes
        defaultWaitingFirstSeason).waitingSeasons,
      n ∈ (resolveTvSeasonPlan seasonCount seasons episodes
        defaultWaitingFirstSeason).seasonNumbers := by
  intro n hn
  unfold resolveTvSeasonPlan at hn ⊢
  generalize (if episodes.isEmpty then seasonNumbers seasons seasonCount
    else sortedSet (episodes.map (·.1))) = numbers at hn ⊢
  by_cases hdef : (numbers.isEmpty && defaultWaitingFirstSeason) = true
  · rw [if_pos hdef] at hn ⊢
    exact hn
  · rw [if_neg hdef] at hn ⊢
    split at hn
    · simp at hn
    exact (List.mem_filter.mp hn).1

/-- A call names a season ahead of what TMDB has: one of the seasons or of the
    episodes it lists, or the first season of a show that has none. -/
def NamedAhead (seasonCount : Int) (seasons : List Int) (episodes : List (Int × List Int))
    (defaultWaitingFirstSeason : Bool) (n : Int) : Prop :=
  if episodes ≠ [] then n ∈ episodes.map (·.1) ∧ seasonCount < n
  else if seasons ≠ [] then n ∈ seasons ∧ seasonCount < n
  else defaultWaitingFirstSeason = true ∧ seasonCount ≤ 0 ∧ n = 1

theorem airedSeasons_isEmpty : (airedSeasons seasonCount).isEmpty = true ↔ seasonCount ≤ 0 := by
  have hlen : (airedSeasons seasonCount).length = seasonCount.toNat := by simp [airedSeasons]
  rw [List.isEmpty_iff, ← List.length_eq_zero_iff, hlen]
  omega

theorem mem_waiting_iff (seasons : List Int)
    (episodes : List (Int × List Int)) (defaultWaitingFirstSeason : Bool) (n : Int) :
    n ∈ (resolveTvSeasonPlan seasonCount seasons episodes
        defaultWaitingFirstSeason).waitingSeasons ↔
      NamedAhead seasonCount seasons episodes defaultWaitingFirstSeason n := by
  unfold resolveTvSeasonPlan NamedAhead
  cases episodes with
  | cons entry rest =>
    have hmem : entry.1 ∈ sortedSet ((entry :: rest).map (·.1)) := by simp
    have hkeys : (sortedSet ((entry :: rest).map (·.1))).isEmpty = false :=
      List.isEmpty_eq_false_iff_exists_mem.mpr ⟨_, hmem⟩
    have hne : entry :: rest ≠ [] := by simp
    rw [if_pos hne]
    simp only [List.isEmpty_cons, Bool.false_eq_true, if_false, hkeys, Bool.false_and,
      Bool.and_false, List.mem_filter, mem_sortedSet, decide_eq_true_eq, gt_iff_lt]
  | nil =>
    cases seasons with
    | cons season rest => simp [seasonNumbers]
    | nil =>
      by_cases hcnt : seasonCount ≤ 0
      · have hnil := (airedSeasons_isEmpty seasonCount).mpr hcnt
        cases defaultWaitingFirstSeason with
        | true => simp [seasonNumbers, hnil, hcnt]
        | false => simp [seasonNumbers]
      · have hnil : (airedSeasons seasonCount).isEmpty = false := by
          rw [Bool.eq_false_iff]
          exact fun h => hcnt ((airedSeasons_isEmpty seasonCount).mp h)
        simp [seasonNumbers, hnil, hcnt]

/-! ### The two passes -/

/-- What a crawl of Plex answers: the seasons it has, or an error. -/
abbrev Crawl := Option (List Int)

/-- `_present_seasons`: an error proves nothing to be there. -/
def presentSeasons (crawl : Crawl) : List Int := crawl.getD []

def realDoneStatuses : List RequestStatus := [.completed, .available]

def terminalSeasonStatuses : List RequestStatus :=
  [.completed, .available, .failed, .evicted, .cancelled]

/-- Move a tracked season back to where a new one starts, with its search
    backoff reset, unless the swap is lost. -/
def rearm (db : Show) (now : Int) (mediaRequestId : Nat) (seasonNumber : Int)
    (status : RequestStatus) (allowedFrom : List RequestStatus) : Show :=
  match db.setStatusIfIn now mediaRequestId seasonNumber status allowedFrom with
  | (true, db) => db.scheduleSearch mediaRequestId seasonNumber 0 none
  | (false, db) => db

/-- The body of the loop of `ensure_seasons`. Which seasons were evicted is read
    before the loop. -/
def ensureSeason (evicted : Int → Bool) (present : List Int) (now : Int) (mediaRequestId : Nat)
    (forcePending : Bool) (db : Show) (seasonNumber : Int) : Show :=
  let initialStatus :=
    if seasonNumber ∈ present ∧ !evicted seasonNumber then RequestStatus.available
    else RequestStatus.pending
  let db := db.ensure mediaRequestId seasonNumber initialStatus (evicted seasonNumber)
  match db.status mediaRequestId seasonNumber with
  | some .evicted => rearm db now mediaRequestId seasonNumber initialStatus [.evicted]
  | some .waitingForAirDate =>
      rearm db now mediaRequestId seasonNumber initialStatus [.waitingForAirDate]
  | some status =>
      if forcePending ∧ status ∈ realDoneStatuses then
        rearm db now mediaRequestId seasonNumber .pending realDoneStatuses
      else db
  | none => db

/-- `ensure_seasons`, or `none` where it raises. Plex is crawled only when no
    snapshot was taken before, and not at all for episodes. -/
def ensureSeasons (seasons : List Int) (forcePending : Bool) (present : Option (List Int))
    (db : Show) : Option Show :=
  let present :=
    match present, library with
    | some present, _ => present
    | none, some crawl => if forcePending then [] else presentSeasons crawl
    | none, none => []
  recomputeParent
    (seasons.foldl (ensureSeason db.evictedSeason present now mediaRequestId forcePending) db)
    mediaRequestId

/-- `season_request_service.set_status`. -/
def setSeasonStatus (seasonNumber : Int)
    (status : RequestStatus) (skipIfTerminal : Bool) (db : Show) : Option Show :=
  let db := db.ensure mediaRequestId seasonNumber .pending false
  if skipIfTerminal ∧ ∃ s ∈ terminalSeasonStatuses,
      db.status mediaRequestId seasonNumber = some s then some db
  else recomputeParent (db.setStatus now mediaRequestId seasonNumber status) mediaRequestId

/-- `_ensure_tv_season_plan`: track the seasons of the plan, then park those
    that have not aired. -/
def ensureTvSeasonPlan (plan : TvSeasonPlan) (present : Option (List Int)) (db : Show) :
    Option Show := do
  let db ← ensureSeasons now library mediaRequestId plan.seasonNumbers plan.episodeScoped
    present db
  (sortedSet plan.waitingSeasons).foldlM
    (fun db waitingSeason =>
      setSeasonStatus now mediaRequestId waitingSeason .waitingForAirDate false db) db

/-! ### The intent -/

structure TvRequestIntent where
  mode : TvRequestMode
  requestedSeasons : Option (List Int)
  requestedEpisodes : List (Int × List Int)
  deriving DecidableEq, Repr

def tvRequestIntent : TvRequestIntent :=
  if !episodes.isEmpty then
    { mode := .explicitEpisodes
      requestedSeasons := some (sortedSet (episodes.map (·.1)))
      requestedEpisodes := episodes.map fun entry => (entry.1, sortedSet entry.2) }
  else if !seasons.isEmpty then
    { mode := .explicitSeasons
      requestedSeasons := some (sortedSet seasons)
      requestedEpisodes := [] }
  else { mode := .wholeShow, requestedSeasons := none, requestedEpisodes := [] }

def addEpisodes (season : Int) (values : List Int) :
    List (Int × List Int) :=
  if season ∈ episodes.map (·.1) then
    episodes.map fun entry =>
      if entry.1 = season then (season, sortedSet (entry.2 ++ values)) else entry
  else episodes ++ [(season, sortedSet values)]

/-- One season of an episode request, over the seasons and the episodes asked
    for so far: a season asked for as a whole is not narrowed. -/
def mergeEpisodes (merged : List Int × List (Int × List Int)) (entry : Int × List Int) :
    List Int × List (Int × List Int) :=
  if entry.1 ∈ merged.1 ∧ entry.1 ∉ merged.2.map (·.1) then merged
  else (entry.1 :: merged.1, addEpisodes merged.2 entry.1 entry.2)

/-- `_merge_tv_request_intent`, on the intent of the record: nothing is wider
    than the whole show. -/
def mergeTvRequestIntent (record incoming : TvRequestIntent) : TvRequestIntent :=
  let merged := record.requestedSeasons.getD [] ++ record.requestedEpisodes.map (·.1)
  let explicit (seasons : List Int) (episodes : List (Int × List Int)) : TvRequestIntent :=
    { mode := if episodes.isEmpty then .explicitSeasons else .explicitEpisodes
      requestedSeasons := some (sortedSet seasons)
      requestedEpisodes := episodes }
  match record.mode, incoming.mode with
  | .wholeShow, _ => record
  | _, .explicitEpisodes =>
      let result := incoming.requestedEpisodes.foldl mergeEpisodes
        (merged, record.requestedEpisodes)
      explicit result.1 result.2
  | _, .wholeShow => incoming
  | _, .explicitSeasons =>
      let wholeSeasons := incoming.requestedSeasons.getD []
      explicit (merged ++ wholeSeasons)
        (record.requestedEpisodes.filter fun entry => entry.1 ∉ wholeSeasons)

def MediaRequest.intent (r : MediaRequest) : TvRequestIntent :=
  { mode := r.tvRequestMode
    requestedSeasons := r.requestedSeasons
    requestedEpisodes := r.requestedEpisodes }

/-- `set_tv_request_intent`. -/
def MediaRequest.withIntent (intent : TvRequestIntent) (r : MediaRequest) : MediaRequest :=
  { r with
    tvRequestMode := intent.mode
    requestedSeasons := intent.requestedSeasons
    requestedEpisodes := intent.requestedEpisodes }

def Show.mergeIntent (db : Show) (record : MediaRequest) (seasons : List Int)
    (episodes : List (Int × List Int)) : Show :=
  { db with
    requests := db.requests.modify record.id
      (·.withIntent (mergeTvRequestIntent record.intent (tvRequestIntent seasons episodes)))
      fun _ => rfl }

/-! ### One request, called for again and again -/

/-- What a call asks for. The episodes are a mapping, so no season is in it twice. -/
structure TvAsk where
  seasons : List Int := []
  episodes : List (Int × List Int) := []
  distinct : (episodes.map (·.1)).Nodup := by decide

def TvAsk.intent (ask : TvAsk) : TvRequestIntent := tvRequestIntent ask.seasons ask.episodes

/-- The columns as they are read back: `_season_json` and `_episode_json` write sorted
    sets, and `_season_tuple` and `_episode_map` read them as such. -/
def TvRequestIntent.stored (i : TvRequestIntent) : TvRequestIntent :=
  { i with
    requestedSeasons := i.requestedSeasons.map sortedSet
    requestedEpisodes := i.requestedEpisodes.map fun entry => (entry.1, sortedSet entry.2) }

def TvRequestIntent.join (i : TvRequestIntent) (ask : TvAsk) : TvRequestIntent :=
  (mergeTvRequestIntent i ask.intent).stored

/-- The intent of a request that was created by one call and joined by others. -/
def intentAfter (first : TvAsk) (more : List TvAsk) : TvRequestIntent :=
  more.foldl TvRequestIntent.join first.intent.stored

/-! ### The joins -/

def settledRequestStatuses : List RequestStatus := [.available, .failed, .evicted, .cancelled]

/-- `_grow_tv_dedup_join`, from the crawl on, or `none` where it raises. The
    request is read again under the lock of its show, and one that settled in
    the gap is left alone: the call then answers `False` and starts over. -/
def growTvDedupJoin (plan : TvSeasonPlan) (seasons : List Int)
    (episodes : List (Int × List Int)) (db : Show) : Option (Bool × Show) :=
  let present :=
    match library with
    | some crawl => if plan.episodeScoped then none else some (presentSeasons crawl)
    | none => none
  match db.requests.find mediaRequestId with
  | none => some (false, db)
  | some fresh =>
      if fresh.status ∈ settledRequestStatuses then some (false, db)
      else (ensureTvSeasonPlan now library mediaRequestId plan present db).map fun db =>
        (true, db.mergeIntent fresh seasons episodes)

/-- The join onto a request that is in the library already, or that won a race
    for it: the same writes, on whatever its status is. -/
def joinSettled (record : MediaRequest)
    (plan : TvSeasonPlan) (seasons : List Int) (episodes : List (Int × List Int)) (db : Show) :
    Option Show :=
  (ensureTvSeasonPlan now library record.id plan none db).map fun db =>
    db.mergeIntent record seasons episodes

end Seasons

end PlexManager
