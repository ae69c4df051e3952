/-!
# The updater recovery matrix

The coordinator row stores its phase and its queued action as plain strings,
so that a newer release may write values an older one does not know. The two
enumerations here keep the values this release knows as constructors and carry
everything else as `other`, which is what every membership test of the source
against its `frozenset`s amounts to.

`decideRecovery` is the pure decision an administrator's force-reset rests on.
It looks at two signals only that a polling sidecar cannot refresh: a live
drain lease, and the age of the phase's start anchor. Times are integers and
durations are their differences.

## Theorems

* `decideRecovery_of_busy`: What the matrix answers on an undrained busy row.
* `decideRecovery_of_settled`: What it answers on a known row that is not busy.
* `decideRecovery_of_live_drain`: A live drain is never recovered from.
* `decideRecovery_actionOnly`: A reset of the action alone needs a settled
  phase.
-/

namespace PlexManager

namespace UpdateRecovery

/-- The phase column of the coordinator row. `other` is any string this
    release does not know. -/
inductive CoordinatorPhase where
  | idle
  | checking
  | available
  | draining
  | installing
  | rollback
  | succeeded
  | failed
  | rolledBack
  | other (name : String)
  deriving DecidableEq, Repr

/-- The queued operator intent of the coordinator row. -/
inductive RequestedAction where
  | none
  | check
  | install
  | other (name : String)
  deriving DecidableEq, Repr

/-- `KNOWN_COORDINATOR_PHASES`. -/
def knownCoordinatorPhase : CoordinatorPhase → Bool
  | .other _ => false
  | _ => true

/-- `BUSY_COORDINATOR_PHASES`. -/
def busyCoordinatorPhase : CoordinatorPhase → Bool
  | .checking | .draining | .installing | .rollback => true
  | _ => false

/-- `KNOWN_REQUESTED_ACTIONS`. -/
def knownRequestedAction : RequestedAction → Bool
  | .other _ => false
  | _ => true

theorem known_of_busy {p : CoordinatorPhase} (h : busyCoordinatorPhase p = true) :
    knownCoordinatorPhase p = true := by
  cases p with
  | other name => simp [busyCoordinatorPhase] at h
  | _ => rfl

inductive RecoveryAction where
  | noop
  | wait
  | liveDrain
  | actionOnly
  | reanchor
  deriving DecidableEq, Repr

structure RecoveryDecision where
  action : RecoveryAction
  reason : String
  clearUnknownAction : Bool
  preserveKnownAction : Bool
  /-- Whether carrying the recovery out must bump the action generation, so
      that a worker declared abandoned can no longer report. -/
  fenceGeneration : Bool
  deriving DecidableEq, Repr

/-- Whether the sidecar starts work for this handout: an install with any
    blocker is advisory, a check always starts. -/
def dispatchStartsWork (action : RequestedAction) (blocker : Option String) : Bool :=
  if action = .none then false
  else !(action = .install && blocker.isSome)

def oldEnough (anchor : Option Int) (now maxAge : Int) : Bool :=
  match anchor with
  | none => false
  | some anchor => 0 ≤ now - anchor && maxAge ≤ now - anchor

def decideRecovery (phase : CoordinatorPhase) (requestedAction : RequestedAction)
    (liveDrain : Bool) (phaseStartedAt : Option Int) (now maxAge : Int) : RecoveryDecision :=
  let knownAction := knownRequestedAction requestedAction
  let unknownAction := !knownAction
  -- A reanchor without a real queued action declares the worker abandoned.
  let reanchorFences := unknownAction || requestedAction == .none
  if !knownCoordinatorPhase phase then
    if liveDrain then
      ⟨.liveDrain, "live drain lease", unknownAction, knownAction, false⟩
    else
      ⟨.reanchor, "unrecognized phase", unknownAction, knownAction, reanchorFences⟩
  else if liveDrain then
    ⟨.liveDrain, "live drain lease", unknownAction, knownAction, false⟩
  else if !busyCoordinatorPhase phase then
    if unknownAction then
      ⟨.actionOnly, "unrecognized action", true, false, true⟩
    else
      ⟨.noop, "recognized state", false, true, false⟩
  else if !oldEnough phaseStartedAt now maxAge then
    ⟨.wait, "busy phase lacks bounded stale evidence", false, knownAction, false⟩
  else
    ⟨.reanchor, "busy phase is stale and old", unknownAction, knownAction, reanchorFences⟩

/-- Whether the row holds no real action to hand back to a reconnecting
    sidecar: it is `none`, or this release does not know it. -/
def noQueuedWork (action : RequestedAction) : Bool :=
  !knownRequestedAction action || action == .none

theorem oldEnough_iff (anchor now maxAge : Int) (hmax : 0 ≤ maxAge) :
    oldEnough (some anchor) now maxAge = true ↔ anchor + maxAge ≤ now := by
  simp only [oldEnough, Bool.and_eq_true, decide_eq_true_eq]
  omega

variable (phase : CoordinatorPhase) (action : RequestedAction) (maxAge : Int)

variable (anchor : Option Int)

/-- The matrix on a busy row without a drain: it waits until the anchor is old
    enough and reanchors then, fencing unless a real action is queued. -/
theorem decideRecovery_of_busy (now maxAge : Int) (hbusy : busyCoordinatorPhase phase = true) :
    decideRecovery phase action false anchor now maxAge =
      if oldEnough anchor now maxAge then
        ⟨.reanchor, "busy phase is stale and old", !knownRequestedAction action,
          knownRequestedAction action, noQueuedWork action⟩
      else
        ⟨.wait, "busy phase lacks bounded stale evidence", false,
          knownRequestedAction action, false⟩ := by
  simp only [decideRecovery, known_of_busy hbusy, hbusy, Bool.not_true, Bool.false_eq_true,
    if_false, noQueuedWork]
  cases oldEnough anchor now maxAge with
  | false | true => simp

theorem decideRecovery_of_settled (now maxAge : Int)
    (hknown : knownCoordinatorPhase phase = true) (hbusy : busyCoordinatorPhase phase = false) :
    decideRecovery phase action false anchor now maxAge =
      if knownRequestedAction action then ⟨.noop, "recognized state", false, true, false⟩
      else ⟨.actionOnly, "unrecognized action", true, false, true⟩ := by
  simp only [decideRecovery, hknown, hbusy, Bool.not_true, Bool.not_false, Bool.false_eq_true,
    if_false, if_true]
  cases knownRequestedAction action with
  | false | true => simp

theorem decideRecovery_of_live_drain (now maxAge : Int) :
    (decideRecovery phase action true anchor now maxAge).action = .liveDrain := by
  simp only [decideRecovery]
  cases knownCoordinatorPhase phase with
  | false | true => simp

theorem decideRecovery_actionOnly (liveDrain : Bool) (anchor : Option Int) (now maxAge : Int)
    (h : (decideRecovery phase action liveDrain anchor now maxAge).action = .actionOnly) :
    liveDrain = false ∧ busyCoordinatorPhase phase = false := by
  cases hdr : liveDrain with
  | true =>
    rw [hdr, decideRecovery_of_live_drain] at h
    simp at h
  | false =>
    refine ⟨rfl, ?_⟩
    cases hbusy : busyCoordinatorPhase phase with
    | false => rfl
    | true =>
      rw [hdr, decideRecovery_of_busy phase action anchor now maxAge hbusy] at h
      cases hold : oldEnough anchor now maxAge with
      | false | true => simp [hold] at h

end UpdateRecovery

end PlexManager
