import PlexManager.Core.Reconciler

/-!
# Payload holds and the reconcile cycle of one row

A grabbed torrent may be held until its file list has been inspected. While a
row is held, a reconcile cycle that finds its torrent present does not hand it
to the pure reconciler: it tries to validate the payload instead, and the row
sits the cycle out.

Validation talks to the client at several points and each answer can send it
down another path, so the answers are gathered in `HoldAnswers` and
`validateHeldPayload` is a function of them. Statements that compare and swap
on the row carry a flag that says whether they landed: a swap misses when
another writer moved the row in between. What `inspect_payload` says of the
file names and how the operator's failure path ends are answers too; neither
is decided here.

`reconcileCycle` is what one cycle does to one row up to the commit of its
moves. It returns the move that was applied along with the row.
-/

namespace PlexManager

namespace Reconciler

open DownloadState

/-- How the failure path ends that a hold can send a row down: it is refused,
    it crashes between its two commits, or it completes. -/
inductive FailOutcome where
  | refused
  | pending
  | failed
  deriving DecidableEq, Repr

/-- Where a validation ended: it left the row waiting, it sent it down the
    failure path, or it completed. -/
inductive HoldEnd where
  | waiting
  | failing
  | completed
  deriving DecidableEq, Repr

/-- Send a row down the failure path. A refused attempt leaves it waiting. -/
def FailOutcome.apply (outcome : FailOutcome) (row : DownloadRecord) :
    DownloadRecord × HoldEnd :=
  match outcome with
  | refused => (row, .waiting)
  | pending => ({ row with status := .failedPending }, .failing)
  | failed => ({ row with status := .failed }, .failing)

structure PayloadFile where
  name : String
  index : Option Nat
  priority : Option Nat
  deriving DecidableEq, Repr

/-- The answers one validation can meet. An `error` is the text of a client
    error. -/
structure HoldAnswers where
  status : Except String (Option DownloadStatus)
  restartLands : Bool
  files : Except String (List PayloadFile)
  resumeLands : Bool
  pause : Except String Unit
  statusAfterPause : Except String (Option DownloadStatus)
  filesAfterPause : Except String (List PayloadFile)
  /-- The verdict of the payload inspection, `some` for a rejection. -/
  rejection : Option String
  rejectionLands : Bool
  selectFiles : Except String Unit
  /-- The row is still there, in the same status and claimed by nobody. -/
  rowUnchanged : Bool
  start : Except String Unit
  completeLands : Bool
  claimed : Bool
  failing : FailOutcome

def waitingReason : String := "payload validation pending: waiting for complete metadata"

def legacyMetadataRestart : String :=
  "payload validation pending: restarting legacy metadata with a download hold"

/-- Raw states that hide whether the torrent was running. -/
def unsettledState : RawState → Bool
  | .metaDL | .forcedMetaDL | .checkingResumeData | .moving => true
  | .other name => name == "allocating" || name == "unknown"
  | _ => false

def stoppedMagnet : RawState → Bool
  | .stoppedDL | .pausedDL => true
  | .other name => name == "stoppedMetaDL"
  | _ => false

def runningState : RawState → Bool
  | .downloading | .forcedDL | .stalledDL | .queuedDL | .checkingDL | .uploading | .forcedUP
  | .stalledUP | .queuedUP | .checkingUP => true
  | _ => false

def stoppedState : RawState → Bool
  | .stoppedDL | .pausedDL | .stoppedUP | .pausedUP => true
  | _ => false

variable (a : HoldAnswers) (row : DownloadRecord)

/-- `_restart_legacy_metadata`: stamp the restart, stop the torrent and send the
    row down the failure path without a blocklist entry. -/
def restartLegacyMetadata :
    DownloadRecord × String × HoldEnd :=
  if !startsWith (row.failedReason.getD "") legacyMetadataRestart && !a.restartLands then
    (row, legacyMetadataRestart, .waiting)
  else
    let row := { row with
      failedReason :=
        if startsWith (row.failedReason.getD "") legacyMetadataRestart then row.failedReason
        else some legacyMetadataRestart }
    match a.pause with
    | .error e => (row, legacyMetadataRestart ++ ": " ++ e, .waiting)
    | .ok () =>
        if a.claimed then (row, legacyMetadataRestart, .waiting)
        else ((a.failing.apply row).1, legacyMetadataRestart, (a.failing.apply row).2)

/-- `reject_payload`: persist the verdict, then the failure path. -/
def rejectPayload (reason : String) :
    DownloadRecord × HoldEnd :=
  if a.claimed then (row, .waiting)
  else if (row.payloadRejection.getD "").isEmpty || row.status = .importing then
    if a.rejectionLands then
      a.failing.apply
        { row with
          status := if row.status = .importing then .importBlocked else row.status
          payloadRejection := some reason
          failedReason := some reason }
    else (row, .waiting)
  else a.failing.apply row

/-- The states in which a validated row goes back to downloading, under a fresh
    grace window. -/
def downloadingLike : DownloadState → Bool
  | .downloading | .metadataFetching | .clientMissing => true
  | _ => false

/-- The last swap of a validation. -/
def completeHold : DownloadRecord :=
  { row with
    status := if downloadingLike row.status then .downloading else row.status
    payloadPending := false
    failedReason :=
      if startsWith (row.failedReason.getD "") "payload validation pending:" then none
      else row.failedReason
    firstSeenAt := if downloadingLike row.status then none else row.firstSeenAt }

/-- A validation from the point where the torrent is to be stopped. -/
def settleHeldPayload :
    DownloadRecord × String × HoldEnd :=
  match a.pause, a.statusAfterPause, a.filesAfterPause with
  | .error e, _, _ => (row, waitingReason ++ ": " ++ e, .waiting)
  | .ok (), .error e, _ => (row, waitingReason ++ ": " ++ e, .waiting)
  | .ok (), .ok none, _ => (row, waitingReason, .waiting)
  | .ok (), .ok (some status), files =>
      if !stoppedState status.rawState then (row, waitingReason, .waiting)
      else match files with
        | .error e => (row, waitingReason ++ ": " ++ e, .waiting)
        | .ok files =>
            if files.isEmpty || files.any (fun f =>
                f.name.isEmpty || f.index.isNone || f.priority.isNone) then
              (row, waitingReason, .waiting)
            else match a.rejection with
              | some reason =>
                  ((rejectPayload a row reason).1, waitingReason, (rejectPayload a row reason).2)
              | none =>
                  match a.selectFiles with
                  | .error e => (row, waitingReason ++ ": " ++ e, .waiting)
                  | .ok () =>
                      if !a.rowUnchanged then (row, waitingReason, .waiting)
                      else match a.start with
                        | .error e =>
                            if row.payloadResume then (row, waitingReason ++ ": " ++ e, .waiting)
                            else if a.completeLands then
                              (completeHold row, waitingReason, .completed)
                            else (row, waitingReason, .waiting)
                        | .ok () =>
                            if a.completeLands then (completeHold row, waitingReason, .completed)
                            else (row, waitingReason, .waiting)

/-- The body of `_validate_held_payload`: the row as its committed writes left
    it, the reason an unresolved hold shows, and where it ended. -/
def holdBody : DownloadRecord × String × HoldEnd :=
  match a.status with
  | .error e => (row, waitingReason ++ ": " ++ e, .waiting)
  | .ok status =>
      let restarting := startsWith (row.failedReason.getD "") legacyMetadataRestart
      let fetching := status.any fun s =>
        (s.rawState = .metaDL || s.rawState = .forcedMetaDL) && !row.payloadResume
      if restarting || fetching then restartLegacyMetadata a row
      else match status with
        | none => (row, waitingReason, .waiting)
        | some status =>
            if unsettledState status.rawState then (row, waitingReason, .waiting)
            else match a.files with
              | .error e => (row, waitingReason ++ ": " ++ e, .waiting)
              | .ok [] =>
                  if stoppedMagnet status.rawState then restartLegacyMetadata a row
                  else (row, waitingReason, .waiting)
              | .ok _ =>
                  let running := !row.payloadResume &&
                    (status.forceStart || runningState status.rawState)
                  if running && !a.resumeLands then (row, waitingReason, .waiting)
                  else if running then
                    -- The running intent is saved before the torrent is stopped.
                    settleHeldPayload a
                      { row with payloadResume := true, payloadForceStart := status.forceStart }
                  else settleHeldPayload a row

/-- `_validate_held_payload` with its `finally`: an unresolved hold is made
    visible in the row's reason. -/
def validateHeldPayload : DownloadRecord :=
  let (fresh, reason, _) := holdBody a row
  if fresh.payloadPending && (fresh.payloadRejection.getD "").isEmpty &&
      fresh.status = row.status &&
      (row.status ≠ .importBlocked || (row.failedReason.getD "").isEmpty) && !a.claimed then
    { fresh with failedReason := some reason }
  else fresh

/-- Everything one cycle meets on its way over one row. -/
structure CycleInput where
  now : Int
  client : List DownloadStatus
  claimedAtHold : Bool
  hold : HoldAnswers
  releaseLands : Bool
  claimedAtTransition : Bool
  swapLands : Bool
  /-- Whether the commit of the cycle's moves took effect. -/
  committed : Bool

/-- The states a held row is validated in. -/
def holdableState : DownloadState → Bool
  | .downloading | .metadataFetching | .importPending | .importBlocked | .importing
  | .clientMissing => true
  | _ => false

/-- The states whose hold ends when the torrent leaves the client. -/
def importState : DownloadState → Bool
  | .importPending | .importBlocked | .importing => true
  | _ => false

/-- Whether the cycle validates the row's payload instead of reconciling it. -/
def heldForPayload (client : List DownloadStatus) (row : DownloadRecord) : Bool :=
  row.payloadPending && holdableState row.status &&
    match lookup client row.torrentHash with
    | some status => status.rawState ≠ .error && status.rawState ≠ .missingFiles
    | none => false

/-- A rejected payload that has not reached the failure path yet. -/
def heldForRejection : Bool :=
  !(row.payloadRejection.getD "").isEmpty && row.status ≠ .failedPending

/-- The writes of a move that landed. -/
def applyTransition (now : Int) (transition : StateTransition) (row : DownloadRecord) :
    DownloadRecord :=
  { row with
    status := transition.toState
    firstSeenAt :=
      if transition.clearFirstSeenAt then none
      else if transition.setFirstSeenAt then some now
      else row.firstSeenAt }

/-- The moves of a cycle for a row that is not held: the one decided from the
    row as it was listed, if nobody claims it and the swap finds it there. -/
def applyReconcile (missingGrace : Int) (input : CycleInput) (listed row : DownloadRecord) :
    DownloadRecord × Option StateTransition :=
  match reconcileRow input.client input.now missingGrace listed with
  | none => (row, none)
  | some transition =>
      if input.claimedAtTransition || !input.swapLands || !input.committed then (row, none)
      else (applyTransition input.now transition row, some transition)

def reconcileCycle (missingGrace : Int) (input : CycleInput) (row : DownloadRecord) :
    DownloadRecord × Option StateTransition :=
  if row.status.terminalState then (row, none)
  else if !input.claimedAtHold && heldForRejection row then
    ((rejectPayload input.hold row (row.payloadRejection.getD "")).1, none)
  else if !input.claimedAtHold && heldForPayload input.client row then
    (validateHeldPayload input.hold row, none)
  else if !input.claimedAtHold && row.payloadPending && importState row.status &&
      (lookup input.client row.torrentHash).isNone && input.releaseLands then
    applyReconcile missingGrace input row { row with payloadPending := false }
  else applyReconcile missingGrace input row row

end Reconciler

end PlexManager
