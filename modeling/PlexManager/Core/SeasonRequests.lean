import PlexManager.Core.RequestStatus
import PlexManager.Lib.KeyedTable

/-!
# The seasons of a show

A television request is tracked season by season, and its own status is only
what its seasons sum up to. This module has the season rows with the writes the
services make to them: finding a season or creating it, moving it with or
without a condition on where it is, scheduling its search, and summing up the
seasons of a request after a change.

The rows are those of every request of one show, in the order of their ids.
-/

namespace PlexManager

namespace Seasons

open KeyedTable

structure SeasonRequest where
  mediaRequestId : Nat
  seasonNumber : Int
  status : RequestStatus
  libraryPath : Option String := none
  searchAttempts : Nat := 0
  nextSearchAt : Option Int := none
  completedAt : Option Int := none
  /-- The number of completions so far. It is never reset. -/
  completionGeneration : Option Nat := none
  evictionRegrab : Bool := false
  deriving DecidableEq, Repr

/-- `uq_season_requests_media_season`. -/
def SeasonRequest.key (row : SeasonRequest) : Nat × Int := (row.mediaRequestId, row.seasonNumber)

inductive TvRequestMode where
  | wholeShow
  | explicitSeasons
  | explicitEpisodes
  deriving DecidableEq, Repr

structure MediaRequest where
  id : Nat
  status : RequestStatus
  tvRequestMode : TvRequestMode := .wholeShow
  requestedSeasons : Option (List Int) := none
  requestedEpisodes : List (Int × List Int) := []
  deriving DecidableEq, Repr

/-- The requests of one show and their seasons. -/
structure Show where
  requests : Table MediaRequest.id
  seasons : Table SeasonRequest.key
  deriving DecidableEq

/-! ### The repository -/

/-- `_completion_write_values`: completing counts and stamps, and any other move
    but the promotion drops the stamp. -/
def SeasonRequest.moved (now : Int) (status : RequestStatus) (row : SeasonRequest) :
    SeasonRequest :=
  match status with
  | .completed =>
      { row with
        status := .completed
        completedAt := some now
        completionGeneration := some (row.completionGeneration.getD 0 + 1) }
  | .available => { row with status := .available }
  | status => { row with status := status, completedAt := none }

theorem SeasonRequest.key_moved (now : Int) (status : RequestStatus) (row : SeasonRequest) :
    (row.moved now status).key = row.key := by
  unfold moved
  split
  · rfl
  · rfl
  · rfl

@[simp] theorem SeasonRequest.status_moved (now : Int) (status : RequestStatus)
    (row : SeasonRequest) : (row.moved now status).status = status := by
  unfold moved
  split
  · rfl
  · rfl
  · rfl

def SeasonRequest.scheduled (searchAttempts : Nat) (nextSearchAt : Option Int)
    (row : SeasonRequest) : SeasonRequest :=
  { row with searchAttempts, nextSearchAt }

variable (db : Show) (mediaRequestId searchAttempts : Nat) (nextSearchAt : Option Int) (n : Int)

theorem SeasonRequest.key_scheduled
    (row : SeasonRequest) : (row.scheduled searchAttempts nextSearchAt).key = row.key := rfl

@[simp] theorem SeasonRequest.status_scheduled
    (row : SeasonRequest) : (row.scheduled searchAttempts nextSearchAt).status = row.status := rfl

/-- The season with another directory in the library, or with none. -/
def SeasonRequest.placed (libraryPath : Option String) (row : SeasonRequest) : SeasonRequest :=
  { row with libraryPath }

theorem SeasonRequest.key_placed (libraryPath : Option String) (row : SeasonRequest) :
    (row.placed libraryPath).key = row.key := rfl

@[simp] theorem SeasonRequest.status_placed (libraryPath : Option String) (row : SeasonRequest) :
    (row.placed libraryPath).status = row.status := rfl

namespace Show

def season (db : Show) (mediaRequestId : Nat) (seasonNumber : Int) : Option SeasonRequest :=
  db.seasons.find (mediaRequestId, seasonNumber)

def status (db : Show) (mediaRequestId : Nat) (seasonNumber : Int) : Option RequestStatus :=
  (db.season mediaRequestId seasonNumber).map (·.status)

def ensure (db : Show) (mediaRequestId : Nat) (seasonNumber : Int) (status : RequestStatus)
    (evictionRegrab : Bool) : Show :=
  { db with
    seasons := db.seasons.insert
      { mediaRequestId, seasonNumber, status, evictionRegrab } }

def setStatus (db : Show) (now : Int) (mediaRequestId : Nat) (seasonNumber : Int)
    (status : RequestStatus) : Show :=
  { db with
    seasons := db.seasons.modify (mediaRequestId, seasonNumber) (·.moved now status)
      (SeasonRequest.key_moved now status) }

def setStatusIfIn (db : Show) (now : Int) (mediaRequestId : Nat) (seasonNumber : Int)
    (status : RequestStatus) (allowedFrom : List RequestStatus) : Bool × Show :=
  match db.status mediaRequestId seasonNumber with
  | some current =>
      if current ∈ allowedFrom then (true, db.setStatus now mediaRequestId seasonNumber status)
      else (false, db)
  | none => (false, db)

def scheduleSearch (db : Show) (mediaRequestId : Nat) (seasonNumber : Int) (searchAttempts : Nat)
    (nextSearchAt : Option Int) : Show :=
  { db with
    seasons := db.seasons.modify (mediaRequestId, seasonNumber)
      (·.scheduled searchAttempts nextSearchAt)
      (SeasonRequest.key_scheduled searchAttempts nextSearchAt) }

/-- `set_library_path`, and `clear_library_path` for none. -/
def setLibraryPath (db : Show) (mediaRequestId : Nat) (seasonNumber : Int)
    (libraryPath : Option String) : Show :=
  { db with
    seasons := db.seasons.modify (mediaRequestId, seasonNumber) (·.placed libraryPath)
      (SeasonRequest.key_placed libraryPath) }

def newestStatus (db : Show) (seasonNumber : Int) : Option RequestStatus :=
  (db.seasons.rows.reverse.find? fun row =>
    row.seasonNumber = seasonNumber ∧ row.status ≠ .cancelled).map (·.status)

/-- `evicted_seasons`, as a test. -/
def evictedSeason (db : Show) (seasonNumber : Int) : Bool :=
  db.newestStatus seasonNumber = some .evicted

variable (seasonNumber : Int)

theorem status_ensure (status : RequestStatus) (evictionRegrab : Bool) (id : Nat) (n : Int) :
    (db.ensure mediaRequestId seasonNumber status evictionRegrab).status id n = (db.status id n).or
        (if id = mediaRequestId ∧ n = seasonNumber then some status else none) := by
  have hkey : (⟨mediaRequestId, seasonNumber, status, none, 0, none, none, none,
      evictionRegrab⟩ : SeasonRequest).key = (id, n) ↔ id = mediaRequestId ∧ n = seasonNumber := by
    simp only [SeasonRequest.key, Prod.mk.injEq]
    exact ⟨fun h => ⟨h.1.symm, h.2.symm⟩, fun h => ⟨h.1.symm, h.2.symm⟩⟩
  simp only [Show.status, season, ensure, Table.find_insert, hkey]
  cases db.seasons.find (id, n) with
  | some row => rfl
  | none =>
    by_cases h : id = mediaRequestId ∧ n = seasonNumber
    · simp [h]
    · simp [h]

theorem status_setStatus (now : Int) (mediaRequestId : Nat) (seasonNumber : Int)
    (status : RequestStatus) (id : Nat) (n : Int) :
    (db.setStatus now mediaRequestId seasonNumber status).status id n =
      (db.status id n).map fun s =>
        if id = mediaRequestId ∧ n = seasonNumber then status else s := by
  simp only [Show.status, season, setStatus, Table.find_modify, Option.map_map, Prod.mk.injEq]
  by_cases h : id = mediaRequestId ∧ n = seasonNumber
  · simp [h, Function.comp_def]
  · simp [h, Function.comp_def]

theorem status_setStatusIfIn (now : Int) (mediaRequestId : Nat) (seasonNumber : Int)
    (status : RequestStatus) (allowedFrom : List RequestStatus) (id : Nat) (n : Int) :
    (db.setStatusIfIn now mediaRequestId seasonNumber status allowedFrom).2.status id n =
      (db.status id n).map fun s =>
        if (id = mediaRequestId ∧ n = seasonNumber) ∧ s ∈ allowedFrom then status else s := by
  unfold setStatusIfIn
  cases hcur : db.status mediaRequestId seasonNumber with
  | none =>
    by_cases h : id = mediaRequestId ∧ n = seasonNumber
    · rw [h.1, h.2, hcur]
      rfl
    · simp [h]
  | some current =>
    dsimp only
    by_cases hin : current ∈ allowedFrom
    · rw [if_pos hin, status_setStatus]
      by_cases h : id = mediaRequestId ∧ n = seasonNumber
      · rw [h.1, h.2, hcur]
        simp [hin]
      · simp [h]
    · rw [if_neg hin]
      by_cases h : id = mediaRequestId ∧ n = seasonNumber
      · rw [h.1, h.2, hcur]
        simp [hin]
      · simp [h]

@[simp] theorem status_scheduleSearch (searchAttempts : Nat)
    (nextSearchAt : Option Int) (id : Nat) (n : Int) :
    (db.scheduleSearch mediaRequestId seasonNumber searchAttempts nextSearchAt).status id n =
      db.status id n := by
  simp only [Show.status, season, scheduleSearch, Table.find_modify, Option.map_map]
  by_cases h : (id, n) = (mediaRequestId, seasonNumber)
  · simp [h, Function.comp_def]
  · simp [h, Function.comp_def]

@[simp] theorem status_setLibraryPath (libraryPath : Option String) (id : Nat) (n : Int) :
    (db.setLibraryPath mediaRequestId seasonNumber libraryPath).status id n =
      db.status id n := by
  simp only [Show.status, season, setLibraryPath, Table.find_modify, Option.map_map]
  by_cases h : (id, n) = (mediaRequestId, seasonNumber)
  · simp [h, Function.comp_def]
  · simp [h, Function.comp_def]

end Show

/-! ### The parent -/

def precedenceStatuses : List RequestStatus :=
  [.importBlocked, .downloading, .searching, .noAcceptableRelease, .completed]

/-- `rollup_status`, or `none` where it raises: for no season at all, and for a
    status that no season can have. -/
def rollupStatus (statuses : List RequestStatus) : Option RequestStatus :=
  if statuses.isEmpty then none
  else if statuses.contains .partiallyAvailable then none
  else match precedenceStatuses.find? statuses.contains with
  | some status => some status
  | none =>
      if statuses.all (· == .evicted) then some .evicted
      else if statuses.all (· == .cancelled) then some .cancelled
      else if statuses.all (· == .waitingForAirDate) then some .waitingForAirDate
      else if statuses.contains .available then
        if statuses.all (· == .available) then some .available else some .partiallyAvailable
      else if statuses.contains .pending then some .pending
      else if statuses.contains .waitingForAirDate then some .waitingForAirDate
      else some .failed

/-- `_recompute_parent` after an ordinary change, or `none` where it raises. A
    request without seasons is left alone. -/
def recomputeParent (db : Show) (mediaRequestId : Nat) : Option Show :=
  let rows := db.seasons.rows.filter fun row => row.mediaRequestId = mediaRequestId
  if rows.isEmpty then some db
  else (rollupStatus (rows.map (·.status))).map fun status =>
    { db with
      requests := db.requests.modify mediaRequestId (fun r => { r with status := status })
        fun _ => rfl }

theorem seasons_recomputeParent {db db' : Show} {mediaRequestId : Nat}
    (h : recomputeParent db mediaRequestId = some db') : db'.seasons = db.seasons := by
  unfold recomputeParent at h
  dsimp only at h
  split at h
  · rw [← Option.some.inj h]
  · rcases Option.map_eq_some_iff.mp h with ⟨status, -, rfl⟩
    rfl

theorem status_recomputeParent {db db' : Show} {mediaRequestId : Nat}
    (h : recomputeParent db mediaRequestId = some db') (id : Nat) (n : Int) :
    db'.status id n = db.status id n := by
  simp only [Show.status, Show.season, seasons_recomputeParent h]

end Seasons

end PlexManager
