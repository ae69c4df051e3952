import PlexManager.Core.Eviction.Rows
import PlexManager.Lib.IdentityMap
import PlexManager.Lib.Transition

/-!
# The breadcrumb of a row, between sessions

The path that an import has placed files under is kept in the row of the movie or
the season, and so is the mark of a delete that is under way there. Imports,
evictions, reports and new requests of the same title each have a session of their
own. Some of what they write is a statement with a test, and some is assigned to the
row as the session has it.

A step is a transaction of one session, or a session reads rows or lets go of
them. Rows are those of the evictions, with movies and seasons side by side. The
status of a movie is assigned by a report, while that of a season is always
written by a statement.
-/

namespace PlexManager

namespace Reclaim

open KeyedTable IdentityMap
open Eviction (Row RowKey Path staleBreadcrumbClearStatuses preGrabStatuses)
open Eviction.Db (flippedStatuses)

theorem key_setStatus (status : RequestStatus) (r : Row) :
    { r with status := status }.key = r.key := rfl

def status : Column Row.key RequestStatus where
  get r := r.status
  set status r := { r with status := status }
  get_set _ _ := rfl
  key_set := key_setStatus

def libraryPath : Column Row.key (Option Path) where
  get r := r.libraryPath
  set path r := { r with libraryPath := path }
  get_set _ _ := rfl
  key_set _ _ := rfl

def partialDeletePath : Column Row.key (Option Path) where
  get r := r.partialDeletePath
  set path r := { r with partialDeletePath := path }
  get_set _ _ := rfl
  key_set _ _ := rfl

abbrev Rows := View Row.key

/-! ### Repositories -/

variable (v : Rows) (key : RowKey) (path : Path)

/-- An `UPDATE` of the row of a key, if it passes a test, and whether it did. -/
def updateRow (p : Row → Bool) (f : Row → Row) (hf : ∀ r, (f r).key = r.key) : Bool × Rows :=
  let p := fun r : Row => r.key = key && p r
  (v.table.rows.any p, v.update p f hf)

def setStatusIfIn (target : RequestStatus)
    (allowedFrom : List RequestStatus) (conditions : Bool) : Bool × Rows :=
  updateRow v key (fun r => r.status ∈ allowedFrom && conditions) (status.set target)
    (status.key_set target)

def markCompleted : Option Rows :=
  match updateRow v key (fun _ => true) (status.set .completed) (status.key_set .completed) with
  | (true, v) => some v
  | (false, _) => none

def setLibraryPath : Option Rows :=
  (v.assign libraryPath key (some path)).bind (·.assign partialDeletePath key none)

def setPartialDeletePath : Option Rows :=
  v.assign partialDeletePath key (some path)

def clearPartialDeletePath : Option Rows :=
  v.assign partialDeletePath key none

def clearLibraryPath : Option Rows :=
  (v.assign libraryPath key none).bind (·.assign partialDeletePath key none)

/-- A row without a breadcrumb has no marker either. -/
def cleared (r : Row) : Row := { r with libraryPath := none, partialDeletePath := none }

theorem key_cleared (r : Row) : (cleared r).key = r.key := rfl

def clearLibraryPathIfSet (expectedStatuses : List RequestStatus) : Bool × Rows :=
  updateRow v key (fun r => r.libraryPath = some path && r.status ∈ expectedStatuses) cleared
    key_cleared

/-! ### Transactions -/

/-- How an import leaves its row: a season of which episodes are missing is
    searched for again, and one that is still being fetched keeps its status. -/
inductive ImportResult where
  | complete
  | incomplete
  | late
  deriving DecidableEq, Repr

/-- The last transaction of an import, as far as it is about the row. It is rolled back where
    there is no row. The source gives a season a new one with `ensure`, which is a `created`
    of the same session before it. -/
def importFinalize (result : ImportResult) : Option Rows :=
  (setLibraryPath v key path).bind fun v => match result with
    | .complete => markCompleted v key
    | .incomplete => some (updateRow v key (fun _ => true) (status.set .searching)
        (status.key_set .searching)).2
    | .late => some v

/-- The claim of `_evict_one`, with the marker. -/
def claimForEviction (conditions : Bool) : Option Rows :=
  match setStatusIfIn v key .evicted [.available] conditions with
  | (true, v) => setPartialDeletePath v key path
  | (false, _) => none

/-- The finalize of `_evict_one`. -/
def finalizeEvicted : Option Rows :=
  let v := (clearLibraryPathIfSet v key path staleBreadcrumbClearStatuses).2
  let v := match key with
    | .movie _ => v
    | .season _ _ => (setStatusIfIn v key .evicted [.cancelled] true).2
  clearPartialDeletePath v key

/-- The finalize of `_resume_one_claimed` and `_finalize_gone_rearmed_season`. -/
def finalizeResumed : Option Rows :=
  match clearLibraryPathIfSet v key path staleBreadcrumbClearStatuses with
  | (true, v) =>
      clearPartialDeletePath (setStatusIfIn v key .evicted (flippedStatuses key) true).2 key
  | (false, _) => none

/-- `_release_stale_breadcrumb`. -/
def releaseBreadcrumb (expectedStatuses : List RequestStatus) : Option Rows :=
  match clearLibraryPathIfSet v key path expectedStatuses with
  | (true, v) => some v
  | (false, _) => none

/-- `_restore_after_failed_delete`, for the row itself. -/
def restore : Option Rows :=
  (clearPartialDeletePath v key).map fun v =>
    match setStatusIfIn v key .available [.evicted] true, key with
    | (true, v), _ => v
    | (false, v), .movie _ => v
    | (false, v), .season _ _ => (setStatusIfIn v key .available preGrabStatuses true).2

/-- The first transaction of `report_issue`, which searches again and has the
    marker if there is a breadcrumb. -/
def reportClaim (path : Option Path) : Option Rows :=
  let searching := match key with
    | .movie _ => v.assign status key .searching
    | .season _ _ => some (updateRow v key (fun _ => true) (status.set .searching)
        (status.key_set .searching)).2
  searching.bind fun v => match path with
    | some path => setPartialDeletePath v key path
    | none => some v

/-- What came of the delete of a report. -/
inductive PurgeOutcome where
  | removed
  | incomplete
  | failed
  deriving DecidableEq, Repr

/-- The last transaction of `report_issue`. -/
def reportPurged (outcome : PurgeOutcome) : Option Rows :=
  match outcome with
  | .removed => (clearPartialDeletePath v key).bind fun v => clearLibraryPath v key
  | .incomplete => some v
  | .failed => clearPartialDeletePath v key

/-- `ensure_seasons` for a season that was evicted. The breadcrumb stays. -/
def rearm : Rows := (setStatusIfIn v key .pending [.evicted] true).2

/-! ### Sessions -/

inductive Transaction where
  /-- A new row: a movie that is requested, or a season. -/
  | created (row : Row)
  | imported (key : RowKey) (path : Path) (result : ImportResult)
  | claimedForEviction (key : RowKey) (path : Path) (conditions : Bool)
  | evicted (key : RowKey) (path : Path)
  | resumed (key : RowKey) (path : Path)
  | released (key : RowKey) (path : Path) (expectedStatuses : List RequestStatus)
  | restored (key : RowKey)
  | reported (key : RowKey) (path : Option Path)
  | reportPurged (key : RowKey) (outcome : PurgeOutcome)
  | rearmed (key : RowKey)
  /-- Another move of the status: a grab, a park, a promotion, a cancel. -/
  | moved (key : RowKey) (target : RequestStatus) (allowedFrom : List RequestStatus)
  deriving DecidableEq

/-- What a transaction does in a session, or `none` where it is rolled back. -/
def perform : Transaction → Option Rows
  | .created row =>
      if (v.table.find row.key).isSome || row.libraryPath.isSome || row.partialDeletePath.isSome
      then none
      else some (v.insert row)
  | .imported key path result => importFinalize v key path result
  | .claimedForEviction key path conditions => claimForEviction v key path conditions
  | .evicted key path => finalizeEvicted v key path
  | .resumed key path => finalizeResumed v key path
  | .released key path expectedStatuses => releaseBreadcrumb v key path expectedStatuses
  | .restored key => restore v key
  | .reported key path => reportClaim v key path
  | .reportPurged key outcome => Reclaim.reportPurged v key outcome
  | .rearmed key => some (rearm v key)
  | .moved key target allowedFrom => some (setStatusIfIn v key target allowedFrom true).2

structure World where
  rows : Table Row.key
  held : Nat → RowKey → Option Row

/-- What a session works on when its transaction begins. -/
def World.view (w : World) (session : Nat) : Rows := ⟨w.rows, w.held session⟩

def World.commit (w : World) (session : Nat) (v : Rows) : World where
  rows := v.table
  held := Function.update w.held session v.held

inductive Action where
  | read (session : Nat) (keys : List RowKey)
  | refresh (session : Nat) (key : RowKey)
  | forget (session : Nat) (keys : List RowKey)
  | transact (session : Nat) (transaction : Transaction)
  deriving DecidableEq

def step (w : World) : Action → Option World
  | .read session keys => some (w.commit session (keys.foldl View.hold (w.view session)))
  | .refresh session key => some (w.commit session ((w.view session).refresh key))
  | .forget session keys => some (w.commit session (keys.foldl View.forget (w.view session)))
  | .transact session transaction =>
      some <| w.commit session <| match perform (w.view session) transaction with
        | some v => v
        | none => (w.view session).expire

end Reclaim

end PlexManager
