import PlexManager.Core.DownloadRows
import PlexManager.Lib.IdentityMap
import PlexManager.Lib.Transition

/-!
# The status of a show, between sessions

Whatever moves a season of a request also sums up the seasons into the status of
the request, in the same transaction. The sum is taken over the rows as the
session of the service has them, and it is stored by assigning it to the row of
the request that the session has.

Sessions live longer than transactions, and committing does not make them let go
of their rows. Here a session holds whatever it has read or written until it
lets go of it, and transactions run one after another, each undone as a whole
where it raises. What the writes do to the columns that hold a season's next
search and its place in the library is left out, as are the completion stamps of
the request: no decision below reads them.
-/

namespace PlexManager

namespace Rollup

open KeyedTable IdentityMap
open Seasons (MediaRequest SeasonRequest rollupStatus)

theorem id_setStatus (status : RequestStatus) (r : MediaRequest) :
    { r with status := status }.id = r.id := rfl

def requestStatus : Column MediaRequest.id RequestStatus where
  get r := r.status
  set status r := { r with status := status }
  get_set _ _ := rfl
  key_set := id_setStatus

def seasonStatus : Column SeasonRequest.key RequestStatus where
  get row := row.status
  set status row := { row with status := status }
  get_set _ _ := rfl
  key_set _ _ := rfl

/-- The two tables, with what one session holds of them. -/
structure Desk where
  requests : View MediaRequest.id
  seasons : View SeasonRequest.key
  /-- The requests that kept their status because another one of the same title was
      active when an eviction summed them up. No code reads it. -/
  kept : Nat → Bool

/-! ### Statuses -/

/-- `_TERMINAL_SEASON_STATUS_VALUES`. -/
def terminalSeasonStatuses : List RequestStatus :=
  [.completed, .available, .failed, .evicted, .cancelled]

/-- `_REAL_DONE_SEASON_STATUS_VALUES`. -/
def realDoneSeasonStatuses : List RequestStatus := [.completed, .available]

/-! ### Statements -/

def find (d : Desk) (mediaRequestId : Nat) (seasonNumber : Int) : Option SeasonRequest × Desk :=
  let found := d.seasons.select fun row => row.key = (mediaRequestId, seasonNumber)
  (found.1.head?, { d with seasons := found.2 })

def ensure (d : Desk) (mediaRequestId : Nat) (seasonNumber : Int) (status : RequestStatus)
    (evictionRegrab : Bool) : SeasonRequest × Desk :=
  match find d mediaRequestId seasonNumber with
  | (some row, d) => (row, d)
  | (none, d) =>
      let row : SeasonRequest := { mediaRequestId, seasonNumber, status, evictionRegrab }
      (row, { d with seasons := d.seasons.insert row })

/-- An `UPDATE` of the row of a season, if it passes a test, and whether it did. -/
def updateSeason (d : Desk) (mediaRequestId : Nat) (seasonNumber : Int)
    (p : SeasonRequest → Bool) (f : SeasonRequest → SeasonRequest)
    (hf : ∀ row, (f row).key = row.key) : Bool × Desk :=
  let p := fun row : SeasonRequest => row.key = (mediaRequestId, seasonNumber) && p row
  (d.seasons.table.rows.any p, { d with seasons := d.seasons.update p f hf })

variable (now : Int)

/-- `SqlSeasonRequestRepository.set_status_if_in`. The further conditions it may be
    given are read from other tables. -/
def setRowStatusIfIn (d : Desk) (mediaRequestId : Nat) (seasonNumber : Int)
    (status : RequestStatus) (allowedFrom : List RequestStatus) (conditions : Bool) :
    Bool × Desk :=
  updateSeason d mediaRequestId seasonNumber
    (fun row => row.status ∈ allowedFrom && conditions)
    (SeasonRequest.moved now status) (SeasonRequest.key_moved now status)

/-- `SqlSeasonRequestRepository.set_status`. -/
def setRowStatus (d : Desk) (mediaRequestId : Nat) (seasonNumber : Int)
    (status : RequestStatus) : Bool × Desk :=
  updateSeason d mediaRequestId seasonNumber (fun _ => true) (SeasonRequest.moved now status)
    (SeasonRequest.key_moved now status)

def promoted (row : SeasonRequest) : SeasonRequest :=
  { row with status := .available, evictionRegrab := false }

theorem key_promoted (row : SeasonRequest) : (promoted row).key = row.key := rfl

/-- `SqlSeasonRequestRepository.mark_available`. -/
def markRowAvailable (d : Desk) (mediaRequestId : Nat) (seasonNumber : Int)
    (expectedCompletionGeneration : Option Nat) : Bool × Desk :=
  updateSeason d mediaRequestId seasonNumber
    (fun row => row.status ∈ realDoneSeasonStatuses &&
      row.completionGeneration = expectedCompletionGeneration)
    promoted key_promoted

/-! ### Services -/

variable (titles : Grab.Titles)

/-- The row of a request breaks `uq_media_requests_active`. -/
def slotTaken (d : Desk) (mediaRequestId : Nat) : Bool :=
  Grab.Database.titleTaken titles ⟨d.requests.table, d.seasons.table⟩ mediaRequestId

/-- `_recompute_parent`, or `none` where it raises. -/
def recomputeParent (d : Desk) (mediaRequestId : Nat) (tolerateActiveConflict : Bool) :
    Option Desk :=
  let found := d.seasons.select fun row => row.mediaRequestId = mediaRequestId
  let d := { d with seasons := found.2 }
  if found.1.isEmpty then some d
  else match rollupStatus (found.1.map (·.status)) with
    | none => none
    | some status =>
        match d.requests.assign requestStatus mediaRequestId status with
        | none => none
        | some requests =>
            let sent := (d.requests.seen mediaRequestId).map (·.status) ≠ some status
            let stored := { d with requests, kept := Function.update d.kept mediaRequestId false }
            if sent && slotTaken titles stored mediaRequestId then
              if tolerateActiveConflict then
                -- The savepoint is undone, and the row is read again when it is needed.
                some
                  { d with
                    requests := d.requests.forget mediaRequestId
                    kept := Function.update d.kept mediaRequestId true }
              else none
            else some stored

def setStatus (d : Desk) (mediaRequestId : Nat) (seasonNumber : Int) (status : RequestStatus)
    (skipIfTerminal : Bool) : Option Desk :=
  let (row, d) := ensure d mediaRequestId seasonNumber .pending false
  if skipIfTerminal && row.status ∈ terminalSeasonStatuses then some d
  else match setRowStatus now d mediaRequestId seasonNumber status with
    | (true, d) => recomputeParent titles d mediaRequestId false
    | (false, _) => none

def recomputeIf (moved : Bool × Desk) (mediaRequestId : Nat) (tolerateActiveConflict : Bool) :
    Option Desk :=
  match moved with
  | (true, d) => recomputeParent titles d mediaRequestId tolerateActiveConflict
  | (false, d) => some d

def setStatusIfIn (d : Desk) (mediaRequestId : Nat) (seasonNumber : Int)
    (status : RequestStatus) (allowedFrom : List RequestStatus) (conditions : Bool)
    (tolerateActiveConflict : Bool) : Option Desk :=
  recomputeIf titles
    (setRowStatusIfIn now d mediaRequestId seasonNumber status allowedFrom conditions)
    mediaRequestId tolerateActiveConflict

/-- One season of `ensure_seasons`. -/
def ensureSeason (mediaRequestId : Nat) (trustedPresent evictedSeasons : List Int)
    (forcePending : Bool) (d : Desk) (seasonNumber : Int) : Desk :=
  let initial : RequestStatus := if seasonNumber ∈ trustedPresent then .available else .pending
  let (row, d) := ensure d mediaRequestId seasonNumber initial
    (Decidable.decide (seasonNumber ∈ evictedSeasons))
  if row.status = .evicted then
    (setRowStatusIfIn now d mediaRequestId seasonNumber initial [.evicted] true).2
  else if row.status = .waitingForAirDate then
    (setRowStatusIfIn now d mediaRequestId seasonNumber initial [.waitingForAirDate] true).2
  else if forcePending && row.status ∈ realDoneSeasonStatuses then
    (setRowStatusIfIn now d mediaRequestId seasonNumber .pending realDoneSeasonStatuses true).2
  else d

def ensureSeasons (d : Desk) (mediaRequestId : Nat) (seasons trustedPresent : List Int)
    (evictedSeasons : List Int) (forcePending : Bool) : Option Desk :=
  recomputeParent titles
    (seasons.foldl (ensureSeason now mediaRequestId trustedPresent evictedSeasons forcePending) d)
    mediaRequestId false

def markCompleted (d : Desk) (mediaRequestId : Nat) (seasonNumber : Int) : Option Desk :=
  let (_, d) := ensure d mediaRequestId seasonNumber .pending false
  match setRowStatus now d mediaRequestId seasonNumber .completed with
  | (true, d) => recomputeParent titles d mediaRequestId false
  | (false, _) => none

def markCompletedIfIn (d : Desk) (mediaRequestId : Nat) (seasonNumber : Int)
    (allowedFrom : List RequestStatus) (conditions : Bool) : Option Desk :=
  let (_, d) := ensure d mediaRequestId seasonNumber .pending false
  recomputeIf titles
    (setRowStatusIfIn now d mediaRequestId seasonNumber .completed allowedFrom conditions)
    mediaRequestId false

def markAvailable (d : Desk) (mediaRequestId : Nat) (seasonNumber : Int)
    (expectedCompletionGeneration : Option Nat) : Option Desk :=
  let (_, d) := ensure d mediaRequestId seasonNumber .pending false
  recomputeIf titles (markRowAvailable d mediaRequestId seasonNumber expectedCompletionGeneration)
    mediaRequestId false

def markNoAcceptableRelease (d : Desk) (mediaRequestId : Nat) (seasonNumber : Int)
    (conditions : Bool) : Option Desk :=
  let (_, d) := ensure d mediaRequestId seasonNumber .pending false
  setStatusIfIn now titles d mediaRequestId seasonNumber .noAcceptableRelease
    Seasons.parkableStatuses conditions false

def resetForResearch (d : Desk) (mediaRequestId : Nat) (seasonNumber : Int) : Option Desk :=
  let (_, d) := ensure d mediaRequestId seasonNumber .pending false
  match setRowStatus now d mediaRequestId seasonNumber .searching with
  | (true, d) => recomputeParent titles d mediaRequestId false
  | (false, _) => none

/-- The seasons of a request in `_cancel_request_locked`, which reads the request
    with `get_fresh`. -/
def cancelSeasons (d : Desk) (mediaRequestId : Nat) : Option Desk :=
  let found := d.seasons.select fun row => row.mediaRequestId = mediaRequestId
  found.1.foldlM
    (fun d row => setStatus now titles d mediaRequestId row.seasonNumber .cancelled false)
    { d with requests := d.requests.refresh mediaRequestId, seasons := found.2 }

def createRequest (d : Desk) (request : MediaRequest) (seasons trustedPresent : List Int)
    (evictedSeasons : List Int) (forcePending : Bool) : Option Desk :=
  if (d.requests.table.find request.id).isSome then none
  else
    let d := { d with requests := d.requests.insert request }
    if slotTaken titles d request.id then none
    else ensureSeasons now titles d request.id seasons trustedPresent evictedSeasons forcePending

/-! ### Sessions -/

inductive Call where
  | createRequest (request : MediaRequest) (seasons trustedPresent evictedSeasons : List Int)
      (forcePending : Bool)
  | ensureSeasons (mediaRequestId : Nat) (seasons trustedPresent evictedSeasons : List Int)
      (forcePending : Bool)
  | setStatus (mediaRequestId : Nat) (seasonNumber : Int) (status : RequestStatus)
      (skipIfTerminal : Bool)
  /-- The claim of an eviction and its restore are calls of this kind. -/
  | setStatusIfIn (mediaRequestId : Nat) (seasonNumber : Int) (status : RequestStatus)
      (allowedFrom : List RequestStatus) (conditions : Bool) (tolerateActiveConflict : Bool)
  | markCompleted (mediaRequestId : Nat) (seasonNumber : Int)
  | markCompletedIfIn (mediaRequestId : Nat) (seasonNumber : Int)
      (allowedFrom : List RequestStatus) (conditions : Bool)
  | markAvailable (mediaRequestId : Nat) (seasonNumber : Int)
      (expectedCompletionGeneration : Option Nat)
  | markNoAcceptableRelease (mediaRequestId : Nat) (seasonNumber : Int) (conditions : Bool)
  | resetForResearch (mediaRequestId : Nat) (seasonNumber : Int)
  | cancelSeasons (mediaRequestId : Nat)
  deriving DecidableEq

def Call.request : Call → Nat
  | createRequest request _ _ _ _ => request.id
  | ensureSeasons id _ _ _ _ | setStatus id _ _ _ | setStatusIfIn id _ _ _ _ _
  | markCompleted id _ | markCompletedIfIn id _ _ _ | markAvailable id _ _
  | markNoAcceptableRelease id _ _ | resetForResearch id _ | cancelSeasons id => id

/-- The season of the call is one that is tracked. The availability pass and the
    fallback have it from its row, and rows of seasons are not deleted. -/
def Call.tracked (d : Desk) : Call → Bool
  | .markAvailable id n _ | .markCompletedIfIn id n _ _ | .markNoAcceptableRelease id n _ =>
      (d.seasons.table.find (id, n)).isSome
  | _ => true

/-- What a call does in a session, or `none` where it raises. -/
def perform (d : Desk) : Call → Option Desk
  | .createRequest request seasons trustedPresent evictedSeasons forcePending =>
      createRequest now titles d request seasons trustedPresent evictedSeasons forcePending
  | .ensureSeasons id seasons trustedPresent evictedSeasons forcePending =>
      ensureSeasons now titles d id seasons trustedPresent evictedSeasons forcePending
  | .setStatus id n status skipIfTerminal => setStatus now titles d id n status skipIfTerminal
  | .setStatusIfIn id n status allowedFrom conditions tolerateActiveConflict =>
      setStatusIfIn now titles d id n status allowedFrom conditions tolerateActiveConflict
  | .markCompleted id n => markCompleted now titles d id n
  | .markCompletedIfIn id n allowedFrom conditions =>
      markCompletedIfIn now titles d id n allowedFrom conditions
  | .markAvailable id n generation => markAvailable titles d id n generation
  | .markNoAcceptableRelease id n conditions =>
      markNoAcceptableRelease now titles d id n conditions
  | .resetForResearch id n => resetForResearch now titles d id n
  | .cancelSeasons id => cancelSeasons now titles d id

structure World where
  requests : Table MediaRequest.id
  seasons : Table SeasonRequest.key
  kept : Nat → Bool
  heldRequests : Nat → Nat → Option MediaRequest
  heldSeasons : Nat → Nat × Int → Option SeasonRequest

def World.desk (w : World) (session : Nat) : Desk where
  requests := ⟨w.requests, w.heldRequests session⟩
  seasons := ⟨w.seasons, w.heldSeasons session⟩
  kept := w.kept

def World.commit (w : World) (session : Nat) (d : Desk) : World where
  requests := d.requests.table
  seasons := d.seasons.table
  kept := d.kept
  heldRequests := Function.update w.heldRequests session d.requests.held
  heldSeasons := Function.update w.heldSeasons session d.seasons.held

inductive Action where
  | read (session : Nat) (requests : List Nat) (seasons : List (Nat × Int))
  | forget (session : Nat) (requests : List Nat) (seasons : List (Nat × Int))
  /-- A session makes some calls and commits. -/
  | transact (session : Nat) (now : Int) (calls : List Call)
  deriving DecidableEq

/-- The calls of a transaction, each for a season that its caller may name. -/
def transact (d : Desk) (calls : List Call) : Option Desk :=
  calls.foldlM (fun d call => perform now titles d call) d

def tracked (d : Desk) : List Call → Bool
  | [] => true
  | call :: calls => call.tracked d && (perform now titles d call).all fun d => tracked d calls

def step (w : World) : Action → Option World
  | .read session requests seasons =>
      let d := w.desk session
      some <| w.commit session
        { d with
          requests := requests.foldl View.hold d.requests
          seasons := seasons.foldl View.hold d.seasons }
  | .forget session requests seasons =>
      let d := w.desk session
      some <| w.commit session
        { d with
          requests := requests.foldl View.forget d.requests
          seasons := seasons.foldl View.forget d.seasons }
  | .transact session now calls =>
      let d := w.desk session
      if tracked now titles d calls then
        some <| w.commit session <| match transact now titles d calls with
          | some d => d
          | none => { d with requests := d.requests.expire, seasons := d.seasons.expire }
      else none

end Rollup

end PlexManager
