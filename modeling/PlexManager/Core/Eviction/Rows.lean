import PlexManager.Core.DownloadState
import PlexManager.Core.RequestStatus
import PlexManager.Lib.KeyedTable

/-!
# The rows an eviction works on

A movie has its files under a path that is kept in the row of its request, and
so has a season in its own row. The path is a breadcrumb: an eviction deletes
what is under it, and clears it when that is done. While a delete is under way
the row also has a marker, the path of the delete, and the marker stays where
the delete stopped halfway.

What protects a title is in other tables. A request can be pinned, a title can
be on a watchlist, and a download can fetch a season that it does not import.

The rows of movies and of seasons are in one table here, since every statement
below is made for both, with the twins of the repositories side by side. A row
has the title it belongs to, which the queries join.
-/

namespace PlexManager

namespace Eviction

open KeyedTable

/-! ### Rows -/

inductive MediaType where
  | movie
  | tv
  deriving DecidableEq, Repr

/-- The row of a movie in `media_requests`, or a row of `season_requests`. -/
inductive RowKey where
  | movie (id : Nat)
  | season (mediaRequestId : Nat) (seasonNumber : Int)
  deriving DecidableEq, Repr

namespace RowKey

def mediaType : RowKey → MediaType
  | movie _ => .movie
  | season _ _ => .tv

def requestId : RowKey → Nat
  | movie id => id
  | season id _ => id

def seasonNumber : RowKey → Option Int
  | movie _ => none
  | season _ n => some n

end RowKey

abbrev Path := String

structure Row where
  key : RowKey
  status : RequestStatus
  libraryPath : Option Path := none
  partialDeletePath : Option Path := none
  evictionRegrab : Bool := false
  deriving DecidableEq, Repr

structure Scope where
  mediaRequestId : Nat
  season : Option Int
  unresolved : Bool
  deriving DecidableEq, Repr

structure Claim where
  mediaRequestId : Nat
  season : Int
  active : Bool
  deriving DecidableEq, Repr

structure Download where
  status : DownloadState
  mediaRequestId : Option Nat
  season : Option Int
  scopes : List Scope := []
  claims : List Claim := []
  deriving DecidableEq, Repr

/-- Not in one of `_TERMINAL_DOWNLOAD_STATUSES`. -/
def Download.active (d : Download) : Bool := !d.status.terminalState

def Scope.names (mediaRequestId : Nat) (season : Option Int) (s : Scope) : Bool :=
  s.mediaRequestId = mediaRequestId ∧ s.season = season

/-- The download is unfinished and is for a season of a request. Its own columns
    count only where it has no scope for the season. -/
def Download.owns (mediaRequestId : Nat) (season : Option Int) (d : Download) : Bool :=
  d.active &&
    ((d.mediaRequestId = some mediaRequestId && d.season = season &&
        d.scopes.all fun s => !s.names mediaRequestId season) ||
      d.scopes.any fun s => s.names mediaRequestId season && s.unresolved)

/-- The downloads in the order of their ids. Two unfinished ones are not for the
    same request and season (`uq_downloads_active_request`), a scope is for a
    season, and whoever fetches a season to import it has a claim for it. -/
structure Downloads where
  rows : List Download
  slots : rows.Pairwise fun d e => d.active = true → e.active = true →
    d.mediaRequestId.isSome = true → d.mediaRequestId = e.mediaRequestId → d.season ≠ e.season
  seasonal : ∀ d ∈ rows, ∀ s ∈ d.scopes, s.season.isSome = true
  claimed : ∀ d ∈ rows, d.active = true → ∀ s ∈ d.scopes, s.unresolved = true → ∀ n,
    s.season = some n → ∃ c ∈ d.claims, c.mediaRequestId = s.mediaRequestId ∧ c.season = n ∧
      c.active = true

theorem Downloads.slots_nil : ([] : List Download).Pairwise fun d e => d.active = true →
    e.active = true → d.mediaRequestId.isSome = true → d.mediaRequestId = e.mediaRequestId →
      d.season ≠ e.season :=
  List.Pairwise.nil

theorem Downloads.seasonal_nil : ∀ d ∈ ([] : List Download), ∀ s ∈ d.scopes,
    s.season.isSome = true := by
  simp

theorem Downloads.claimed_nil : ∀ d ∈ ([] : List Download), d.active = true → ∀ s ∈ d.scopes,
    s.unresolved = true → ∀ n, s.season = some n → ∃ c ∈ d.claims,
      c.mediaRequestId = s.mediaRequestId ∧ c.season = n ∧ c.active = true := by
  simp

structure HistoryRow where
  key : RowKey
  libraryPath : Path
  deriving DecidableEq, Repr

structure Db where
  rows : Table Row.key
  /-- The title of a request, a column that is not rewritten. -/
  tmdbId : Nat → Nat
  /-- The requests with `keep_forever`. -/
  keepForever : List Nat
  watchlist : List (MediaType × Nat)
  downloads : Downloads
  history : List HistoryRow

/-! ### Statuses -/

def preGrabStatuses : List RequestStatus := [.pending, .searching, .noAcceptableRelease]

def markerOwnedAdvancedStatuses : List RequestStatus := [.downloading, .failed]

def rearmedRecoveryStatuses : List RequestStatus :=
  preGrabStatuses ++ markerOwnedAdvancedStatuses ++ [.cancelled]

def rearmedOrBlockedStatuses : List RequestStatus := rearmedRecoveryStatuses ++ [.importBlocked]

/-- `_STALE_SEASON_BREADCRUMB_CLEAR_STATUSES` and
    `_STALE_MOVIE_BREADCRUMB_CLEAR_STATUSES`, which are the same. -/
def staleBreadcrumbClearStatuses : List RequestStatus := .evicted :: rearmedOrBlockedStatuses

def transferActiveDownloadStates : List DownloadState :=
  [.downloading, .metadataFetching, .failedPending, .clientMissing]

def partialDeleteOutstanding (partialDeletePath : Option Path) (libraryPath : Path) : Bool :=
  partialDeletePath = some libraryPath

/-- A row that is neither evicted nor cancelled has the path. -/
def Row.claims (path : Path) (r : Row) : Bool :=
  r.libraryPath = some path && r.status ≠ .evicted && r.status ≠ .cancelled

namespace Db

/-! ### Reads -/

variable (db : Db) (key : RowKey) (path : Path)

def row : Option Row := db.rows.find key

def pinned : Bool := key.requestId ∈ db.keepForever

def title : MediaType × Nat :=
  (key.mediaType, db.tmdbId key.requestId)

/-- `is_watchlisted`, for the title of a row. -/
def watchlisted : Bool := db.title key ∈ db.watchlist

/-- `other_row_claims_path` on one of the two tables, with the row itself left
    out. -/
def claimsPath (mediaType : MediaType) (path : Path) (exclude : RowKey) : Bool :=
  db.rows.rows.any fun r =>
    r.key.mediaType = mediaType && r.key ≠ exclude && r.claims path

def findActiveForRequest (mediaRequestId : Nat) (season : Option Int) :
    Option Download :=
  db.downloads.rows.find? (·.owns mediaRequestId season)

/-- The download is unfinished and fetches a season of the title. -/
def covers (tmdbId : Nat) (season : Int) (d : Download) : Bool :=
  d.active && d.claims.any fun c =>
    c.active && db.tmdbId c.mediaRequestId = tmdbId && c.season = season

def coverageClaimActive : Bool :=
  match key with
  | .movie _ => false
  | .season id n => db.downloads.rows.any (db.covers (db.tmdbId id) n)

def competingActiveTransfer : Bool :=
  (db.findActiveForRequest key.requestId key.seasonNumber).any fun d =>
    d.status ∈ transferActiveDownloadStates

def partialDeleteStillArmed : Bool :=
  (db.row key).any fun r =>
    r.libraryPath = some path && partialDeleteOutstanding r.partialDeletePath path

/-! ### Statements -/

def modify (db : Db) (key : RowKey) (f : Row → Row) (hf : ∀ r, (f r).key = r.key) : Db :=
  { db with rows := db.rows.modify key f hf }

def setStatus (status : RequestStatus) : Db :=
  db.modify key (fun r => { r with status := status }) fun _ => rfl

def setStatusIfIn (status : RequestStatus) (allowedFrom : List RequestStatus) : Bool × Db :=
  match db.row key with
  | some r => if r.status ∈ allowedFrom then (true, db.setStatus key status) else (false, db)
  | none => (false, db)

/-- `set_status_if_in` as the claim of an eviction: the row is available, not
    pinned and not on a watchlist. -/
def claimForEviction : Bool × Db :=
  if db.pinned key || db.watchlisted key then (false, db)
  else db.setStatusIfIn key .evicted [.available]

/-- `set_partial_delete_path`. -/
def armPartialDelete : Db :=
  db.modify key (fun r => { r with partialDeletePath := some path }) fun _ => rfl

/-- `clear_partial_delete_path`. -/
def disarmPartialDelete : Db :=
  db.modify key (fun r => { r with partialDeletePath := none }) fun _ => rfl

/-- `clear_library_path`, which takes the marker along. -/
def clearLibraryPath : Db :=
  db.modify key (fun r => { r with libraryPath := none, partialDeletePath := none }) fun _ => rfl

def clearLibraryPathIfSet (expectedStatuses : List RequestStatus) : Bool × Db :=
  match db.row key with
  | some r =>
      if r.libraryPath = some path ∧ r.status ∈ expectedStatuses then
        (true, db.clearLibraryPath key)
      else (false, db)
  | none => (false, db)

def confirmPartialDeleteMarker (honorKeepForever : Bool) :
    Bool :=
  ((db.row key).any fun r => r.libraryPath = some path && r.partialDeletePath = some path) &&
    !(honorKeepForever && db.pinned key)

/-- `set_library_path` of an import, and `mark_completed`. -/
def stamp (db : Db) (key : RowKey) (path : Path) : Db :=
  db.modify key
    (fun r => { r with libraryPath := some path, partialDeletePath := none, status := .completed })
    fun _ => rfl

def addHistory : Db :=
  { db with history := db.history ++ [⟨key, path⟩] }

/-! ### Transactions -/

/-- `_cancel_redundant_movie_regrabs` and `_cancel_redundant_season_regrabs`: the
    other rows for the same media, if they were created to replace what was
    evicted and nothing was grabbed for them. -/
def cancelRedundantRegrabs : Db :=
  { db with
    rows := db.rows.rewrite
      (fun r =>
        if r.key ≠ key ∧ db.title r.key = db.title key ∧
            r.key.seasonNumber = key.seasonNumber ∧ r.status ∈ preGrabStatuses ∧
            r.evictionRegrab = true then
          { r with status := .cancelled }
        else r)
      fun r => by split <;> rfl }

/-- `_restore_after_failed_delete`. A season that was requested again meanwhile
    is folded back. -/
def restoreAfterFailedDelete : Db :=
  match (db.disarmPartialDelete key).setStatusIfIn key .available [.evicted] with
  | (true, db) => db.cancelRedundantRegrabs key
  | (false, db) =>
      match key with
      | .movie _ => db
      | .season _ _ => (db.setStatusIfIn key .available preGrabStatuses).2

/-- The statuses from which a finalized row is flipped to `evicted`. -/
def flippedStatuses : RowKey → List RequestStatus
  | .movie _ => [.cancelled, .failed]
  | .season _ _ => [.cancelled]

/-- The finalize of `_evict_one`. A movie is not flipped there. -/
def finalizeEvicted : Db :=
  let db := ((db.addHistory key path).clearLibraryPathIfSet key path
    staleBreadcrumbClearStatuses).2
  let db := match key with
    | .movie _ => db
    | .season _ _ => (db.setStatusIfIn key .evicted [.cancelled]).2
  db.disarmPartialDelete key

/-- The finalize of `_resume_one_claimed` and `_finalize_gone_rearmed_season`, or
    `none` where it is rolled back. -/
def finalizeResumed : Option Db :=
  match db.clearLibraryPathIfSet key path staleBreadcrumbClearStatuses with
  | (true, db) =>
      some (((db.setStatusIfIn key .evicted (flippedStatuses key)).2.addHistory key path
        ).disarmPartialDelete key)
  | (false, _) => none

end Db

end Eviction

end PlexManager
