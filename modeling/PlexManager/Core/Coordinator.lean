import PlexManager.Core.UpdateRecovery

/-!
# The update coordinator

The application and the updater sidecar meet in one database row and one
table: the singleton `update_coordinator_state` row, and the maintenance
leases that critical work and the updater's drain hold. Every operation runs
in one transaction that first takes the row lock, so operations are serialized
and each is a function on the two tables; what is concurrent is only their
order.

The operations below follow `SqlUpdateCoordinationRepository` method by
method. Those that can refuse by raising return in `Except`, and `answered` is
the service around them: it commits what a method that returns has written and
rolls back what a method that raises has. Only `forceResetPhase` differs,
because the service commits the observations of a refused reset too, so it
returns the tables with its error.

Times are integers on one clock. Tokens are compared only through their
digest, and a digest is a number here; the fingerprint of an outcome is the
tuple the source hashes.
-/

namespace PlexManager

namespace Coordinator

open UpdateRecovery

abbrev TokenHash := Nat

/-- The bounded terminal outcomes of `UpdateResult`. -/
inductive UpdateResult where
  | noUpdate
  | updateAvailable
  | success
  | failed
  | rolledBack
  | cancelled
  deriving DecidableEq, Repr

/-- The payload `_outcome_fingerprint` serialises and hashes. -/
structure OutcomeFingerprint where
  expectedGeneration : Option Nat
  result : UpdateResult
  errorCode : Option String
  fromBuild : Option String
  toBuild : Option String
  currentBuild : Option String
  currentDigest : Option String
  availableBuild : Option String
  availableDigest : Option String
  deriving DecidableEq, Repr

/-- The singleton row, with the column defaults of a fresh database. -/
structure UpdateCoordinatorState where
  requestedAction : RequestedAction := .none
  actionGeneration : Nat := 0
  acknowledgedGeneration : Nat := 0
  phase : CoordinatorPhase := .idle
  currentBuild : Option String := none
  currentDigest : Option String := none
  availableBuild : Option String := none
  availableDigest : Option String := none
  updaterLastSeenAt : Option Int := none
  updaterObservedBuild : Option String := none
  updaterObservedDigest : Option String := none
  lastRefreshResult : Option String := none
  lastRefreshDetailCode : Option String := none
  lastRefreshFromBuild : Option String := none
  lastRefreshToBuild : Option String := none
  lastRefreshAt : Option Int := none
  requestedAt : Option Int := none
  lastCheckedAt : Option Int := none
  lastStartedAt : Option Int := none
  lastCompletedAt : Option Int := none
  lastOperation : Option String := none
  lastResult : Option UpdateResult := none
  lastErrorCode : Option String := none
  lastFromBuild : Option String := none
  lastToBuild : Option String := none
  lastOutcomeTokenHash : Option TokenHash := none
  lastOutcomeFingerprint : Option OutcomeFingerprint := none
  updatedAt : Int := 0
  deriving DecidableEq, Repr

inductive LeaseKind where
  | critical
  | drain
  deriving DecidableEq, Repr

structure MaintenanceLease where
  tokenHash : TokenHash
  kind : LeaseKind
  owner : String
  operation : Option String
  actionGeneration : Option Nat
  createdAt : Int
  renewedAt : Int
  expiresAt : Int
  deriving DecidableEq, Repr

structure CoordinatorDb where
  state : UpdateCoordinatorState
  leases : List MaintenanceLease
  deriving DecidableEq, Repr

/-- What an operation can raise. -/
inductive CoordinationError where
  | unknownCoordinatorPhase (phase : CoordinatorPhase)
  | drainLeaseActive (phase : CoordinatorPhase)
  | recoveryNotReady (reason : String)
  | updateOperationInProgress
  /-- `IntegrityError`: a unique index of the lease table refused an insert. -/
  | integrity
  /-- `ValueError` of `_positive_ttl`. -/
  | durationNotPositive
  deriving DecidableEq, Repr

namespace CoordinatorDb

def updateState (db : CoordinatorDb) (f : UpdateCoordinatorState → UpdateCoordinatorState) :
    CoordinatorDb :=
  { db with state := f db.state }

end CoordinatorDb

variable (now : Int) (db : CoordinatorDb) (tokenHash : TokenHash) (lease : MaintenanceLease)
  (ttl : Int) (phase : Option CoordinatorPhase)

def isDrain : Bool := lease.kind == .drain

def isCritical : Bool := lease.kind == .critical

def activeDrain : Option MaintenanceLease :=
  db.leases.find? isDrain

def criticalCount : Nat :=
  (db.leases.filter isCritical).length

def leaseForToken (kind : Option LeaseKind) :
    Option MaintenanceLease :=
  db.leases.find? fun lease =>
    lease.tokenHash == tokenHash && (kind.isNone || kind == some lease.kind)

/-- The phases `_cleanup_expired` resets. -/
def drainPhase : CoordinatorPhase → Bool
  | .draining | .installing | .rollback => true
  | _ => false

/-- Drop every expired lease. Where a drain was among them, a phase that drain
    owned returns to idle; a queued action is kept for a retry. -/
def cleanupExpired : CoordinatorDb :=
  let expiredDrain := db.leases.any fun lease => isDrain lease && decide (lease.expiresAt ≤ now)
  { leases := db.leases.filter fun lease => decide (now < lease.expiresAt)
    state :=
      if expiredDrain && drainPhase db.state.phase then
        { db.state with phase := .idle, lastStartedAt := none, updatedAt := now }
      else db.state }

/-- Give a busy row without any anchor one durable recovery clock: its last
    heartbeat, unless that lies in the future. -/
def backfillLegacyBusyAnchor : CoordinatorDb :=
  if !busyCoordinatorPhase db.state.phase || db.state.lastStartedAt.isSome ||
      db.state.requestedAt.isSome then
    db
  else
    let anchor := match db.state.updaterLastSeenAt with
      | some heartbeat => if heartbeat ≤ now then heartbeat else now
      | none => now
    db.updateState fun s => { s with lastStartedAt := some anchor, updatedAt := now }

/-- `_phase_timestamp_values`: the age anchor after a transition between two
    phases. A busy phase keeps its anchor only while it stays the same. -/
def phaseTimestamp (priorPhase resultingPhase : CoordinatorPhase) (now : Int)
    (lastStartedAt : Option Int) : Option Int :=
  if !busyCoordinatorPhase resultingPhase then none
  else if priorPhase ≠ resultingPhase then some now
  else lastStartedAt

/-- Insert a lease row. The token digest is unique, and a partial unique index
    admits one drain row. -/
def insertLease :
    Except CoordinationError CoordinatorDb :=
  if db.leases.any fun l => l.tokenHash == lease.tokenHash || (isDrain l && isDrain lease) then
    .error .integrity
  else
    .ok { db with leases := db.leases ++ [lease] }

def deleteLease : CoordinatorDb :=
  { db with leases := db.leases.filter fun l => l.tokenHash != lease.tokenHash }

/-- The durable status and the lease summary `snapshot` returns. -/
structure CoordinatorSnapshot where
  state : UpdateCoordinatorState
  activeCriticalOperations : Nat
  drainOwner : Option String
  drainExpiresAt : Option Int
  deriving DecidableEq, Repr

/-- What every snapshot does to the tables before it reads them. -/
def observe : CoordinatorDb :=
  backfillLegacyBusyAnchor now (cleanupExpired now db)

def snapshot : CoordinatorDb × CoordinatorSnapshot :=
  let db := observe now db
  let drain := activeDrain db
  (db,
    { state := db.state
      activeCriticalOperations := criticalCount db
      drainOwner := drain.map (·.owner)
      drainExpiresAt := drain.map (·.expiresAt) })

/-- The guard of every locked write that rewrites the row: an unrecognized
    phase is refused. -/
def requireKnownPhase : Except CoordinationError Unit :=
  if knownCoordinatorPhase db.state.phase then .ok ()
  else .error (.unknownCoordinatorPhase db.state.phase)

def recordUpdaterIdentity (observedBuild observedDigest : Option String)
    (db : CoordinatorDb) : Except CoordinationError (CoordinatorDb × Unit) := do
  requireKnownPhase db
  return (db.updateState fun s =>
    { s with
      updaterObservedBuild := observedBuild
      updaterObservedDigest := observedDigest
      updatedAt := now }, ())

def recordRefreshOutcome (result : String)
    (detailCode fromBuild toBuild : Option String) (db : CoordinatorDb) :
    Except CoordinationError (CoordinatorDb × Unit) := do
  requireKnownPhase db
  return (db.updateState fun s =>
    { s with
      lastRefreshResult := some result
      lastRefreshDetailCode := detailCode
      lastRefreshFromBuild := fromBuild
      lastRefreshToBuild := toBuild
      lastRefreshAt := some now
      updatedAt := now }, ())

/-- Restart the recovery clock of a busy row: real work was handed out. -/
def markBusyWorkDispatched : CoordinatorDb × Bool :=
  if !busyCoordinatorPhase db.state.phase then (db, false)
  else (db.updateState fun s => { s with lastStartedAt := some now, updatedAt := now }, true)

/-- Refresh the sidecar's liveness, and its phase where the call names one.
    The anchor is backfilled first, from the heartbeat this call replaces. With
    an expected generation the write is a compare-and-swap. -/
def touchUpdater (expectedGeneration : Option Nat) (db : CoordinatorDb) :
    Except CoordinationError (CoordinatorDb × Bool) := do
  requireKnownPhase db
  let db := backfillLegacyBusyAnchor now db
  let resultingPhase := phase.getD db.state.phase
  if expectedGeneration.isSome && expectedGeneration != some db.state.actionGeneration then
    return (db, false)
  return (db.updateState fun s =>
    { s with
      updaterLastSeenAt := some now
      updatedAt := now
      lastStartedAt := phaseTimestamp s.phase resultingPhase now s.lastStartedAt
      phase := resultingPhase }, true)

/-- Queue an operator intent under a new generation, or refuse with `none`
    while an operation is in flight or another intent waits. -/
def requestAction (action : RequestedAction) (db : CoordinatorDb) :
    Except CoordinationError (CoordinatorDb × Option Nat) := do
  requireKnownPhase db
  if busyCoordinatorPhase db.state.phase then
    return (db, none)
  if db.state.requestedAction ≠ .none then
    return (db, none)
  let generation := db.state.actionGeneration + 1
  return (db.updateState fun s =>
    { s with
      requestedAction := action
      actionGeneration := generation
      requestedAt := some now
      updatedAt := now }, some generation)

def acquireCritical (owner operation : String) (ttl : Int)
    (db : CoordinatorDb) : Except CoordinationError (CoordinatorDb × Option MaintenanceLease) := do
  let db := cleanupExpired now db
  if (activeDrain db).isSome then
    return (db, none)
  let row : MaintenanceLease :=
    { tokenHash, kind := .critical, owner, operation := some operation,
      actionGeneration := none, createdAt := now, renewedAt := now, expiresAt := now + ttl }
  let db ← insertLease db row
  return (db, some row)

def materializeInstall : CoordinatorDb :=
  db.updateState fun s =>
    { s with
      requestedAction := .install
      actionGeneration := s.actionGeneration + 1
      requestedAt := some now
      updatedAt := now }

/-- Take the exclusive drain for one generation. The answer says whether the
    critical work has already left. -/
def claimDrain (owner : String)
    (actionGeneration : Option Nat) (materialize requireIdle : Bool) (ttl : Int)
    (db : CoordinatorDb) :
    Except CoordinationError (CoordinatorDb × Option (MaintenanceLease × Bool)) := do
  let db := cleanupExpired now db
  requireKnownPhase db
  if (activeDrain db).isSome then
    return (db, none)
  if actionGeneration.isSome && actionGeneration != some db.state.actionGeneration then
    return (db, none)
  if requireIdle && criticalCount db != 0 then
    return (db, none)
  if materialize && db.state.requestedAction != .none then
    return (db, none)
  let db := if materialize then materializeInstall now db else db
  let row : MaintenanceLease :=
    { tokenHash, kind := .drain, owner, operation := some "container_update",
      actionGeneration := some db.state.actionGeneration,
      createdAt := now, renewedAt := now, expiresAt := now + ttl }
  let db ← insertLease db row
  let db := db.updateState fun s =>
    { s with
      phase := .draining
      updatedAt := now
      lastStartedAt := phaseTimestamp s.phase .draining now s.lastStartedAt }
  return (db, some (row, criticalCount db == 0))

def renewRows (tokenHash : TokenHash) (leases : List MaintenanceLease) :
    List MaintenanceLease :=
  leases.map fun lease =>
    if lease.tokenHash = tokenHash then
      { lease with renewedAt := now, expiresAt := now + ttl }
    else lease

def renew (db : CoordinatorDb) :
    CoordinatorDb × Bool :=
  let db := cleanupExpired now db
  let renewed := (db.leases.filter fun lease => lease.tokenHash == tokenHash).length
  ({ db with leases := renewRows now ttl tokenHash db.leases }, renewed == 1)

/-- The phase a renewed drain ends in. A named phase is taken only when the
    critical work has left; without one, a drain phase is kept. -/
def drainProgressPhase (ready : Bool) (current : CoordinatorPhase) : CoordinatorPhase :=
  match phase with
  | some phase => if ready then phase else .draining
  | none => if drainPhase current then current else .draining

def renewDrainProgress (db : CoordinatorDb) :
    Except CoordinationError (CoordinatorDb × Option Bool) := do
  let db := cleanupExpired now db
  requireKnownPhase db
  match leaseForToken db tokenHash (some .drain) with
  | none => return (db, none)
  | some drain =>
      let ready := criticalCount db == 0
      let resultingPhase := drainProgressPhase phase ready db.state.phase
      let db := { db with leases := renewRows now ttl drain.tokenHash db.leases }
      return (db.updateState fun s =>
        { s with
          phase := resultingPhase
          updaterLastSeenAt := some now
          updatedAt := now
          lastStartedAt := phaseTimestamp s.phase resultingPhase now s.lastStartedAt },
        some ready)

/-- Give a lease up. A critical release never looks at the phase; a drain
    release rewrites it and so refuses an unrecognized one. -/
def release (now : Int) (tokenHash : TokenHash) (db : CoordinatorDb) :
    Except CoordinationError (CoordinatorDb × Bool) := do
  let db := cleanupExpired now db
  match leaseForToken db tokenHash none with
  | none => return (db, false)
  | some lease =>
      if lease.kind ≠ .drain then
        return (deleteLease db lease, true)
      requireKnownPhase db
      return ((deleteLease db lease).updateState fun s =>
        { s with phase := .idle, lastStartedAt := none, updatedAt := now }, true)

structure ForceResetResult where
  oldPhase : Option CoordinatorPhase
  clearedRequestedAction : Option RequestedAction
  oldActionGeneration : Option Nat
  newActionGeneration : Option Nat
  deriving DecidableEq, Repr

/-- The anchor a recovery decision reads: the start of the phase, or else the
    time the action was requested. -/
def phaseStartedAt (s : UpdateCoordinatorState) : Option Int :=
  if busyCoordinatorPhase s.phase then s.lastStartedAt.or s.requestedAt else none

/-- The writes of a reset the matrix has decided on. -/
def applyRecovery (decision : RecoveryDecision) (s : UpdateCoordinatorState) :
    UpdateCoordinatorState :=
  { s with
    updatedAt := now
    phase := if decision.action = .reanchor then .idle else s.phase
    lastStartedAt := if decision.action = .reanchor then none else s.lastStartedAt
    requestedAction :=
      if decision.fenceGeneration && decision.clearUnknownAction then .none
      else s.requestedAction
    actionGeneration :=
      if decision.fenceGeneration then s.actionGeneration + 1 else s.actionGeneration }

/-- Apply the recovery matrix. The tables come back with a refusal too: the
    service commits the observations a refused reset has made. -/
def forceResetPhase (recoveryMaxAge : Int) (db : CoordinatorDb) :
    CoordinatorDb × Except CoordinationError (Option ForceResetResult) :=
  let db := observe now db
  let decision := decideRecovery db.state.phase db.state.requestedAction (activeDrain db).isSome
    (phaseStartedAt db.state) now recoveryMaxAge
  match decision.action with
  | .liveDrain => (db, .error (.drainLeaseActive db.state.phase))
  | .wait => (db, .error (.recoveryNotReady decision.reason))
  | .noop => (db, .ok none)
  | .actionOnly | .reanchor =>
      (db.updateState (applyRecovery now decision),
        .ok (some
          { oldPhase := if decision.action = .reanchor then some db.state.phase else none
            clearedRequestedAction :=
              if decision.fenceGeneration && decision.clearUnknownAction then
                some db.state.requestedAction
              else none
            oldActionGeneration :=
              if decision.fenceGeneration then some db.state.actionGeneration else none
            newActionGeneration :=
              if decision.fenceGeneration then some (db.state.actionGeneration + 1) else none }))

def phaseForResult : UpdateResult → CoordinatorPhase
  | .updateAvailable => .available
  | .noUpdate | .cancelled => .idle
  | .success => .succeeded
  | .rolledBack => .rolledBack
  | .failed => .failed

/-- The image columns a check outcome may carry; an absent one is left as it
    is, a present one may clear the column. -/
structure ImageValues where
  currentBuild : Option (Option String) := none
  currentDigest : Option (Option String) := none
  availableBuild : Option (Option String) := none
  availableDigest : Option (Option String) := none
  deriving DecidableEq, Repr

/-- Record a check outcome by compare-and-swap on the generation. There is no
    lease in this exchange, and the live drain is not consulted. -/
def acknowledgeAction (expectedGeneration : Nat) (phase : CoordinatorPhase)
    (result : UpdateResult) (errorCode : Option String) (imageValues : ImageValues)
    (preserveAction : Bool) (db : CoordinatorDb) :
    Except CoordinationError (CoordinatorDb × Bool) := do
  requireKnownPhase db
  if db.state.actionGeneration ≠ expectedGeneration then
    return (db, false)
  return (db.updateState fun s =>
    { s with
      phase := phase
      lastOperation := some "check"
      lastResult := some result
      lastErrorCode := errorCode
      lastFromBuild := none
      lastToBuild := none
      lastOutcomeTokenHash := none
      lastOutcomeFingerprint := none
      lastCompletedAt := some now
      lastCheckedAt := some now
      updaterLastSeenAt := some now
      updatedAt := now
      lastStartedAt := phaseTimestamp s.phase phase now s.lastStartedAt
      requestedAction := if preserveAction then s.requestedAction else .none
      acknowledgedGeneration :=
        if preserveAction then s.acknowledgedGeneration else expectedGeneration
      currentBuild := imageValues.currentBuild.getD s.currentBuild
      currentDigest := imageValues.currentDigest.getD s.currentDigest
      availableBuild := imageValues.availableBuild.getD s.availableBuild
      availableDigest := imageValues.availableDigest.getD s.availableDigest }, true)

def recordInstallOutcome (phase : CoordinatorPhase)
    (fingerprint : OutcomeFingerprint) (generation : Option Nat) (s : UpdateCoordinatorState) :
    UpdateCoordinatorState :=
  { s with
    phase := phase
    lastOperation := some "install"
    lastResult := some fingerprint.result
    lastErrorCode := fingerprint.errorCode
    lastFromBuild := fingerprint.fromBuild
    lastToBuild := fingerprint.toBuild
    lastOutcomeTokenHash := some tokenHash
    lastOutcomeFingerprint := some fingerprint
    lastCompletedAt := some now
    availableBuild := none
    availableDigest := none
    updaterLastSeenAt := some now
    updatedAt := now
    lastStartedAt := phaseTimestamp s.phase phase now s.lastStartedAt
    currentBuild := fingerprint.currentBuild.or s.currentBuild
    currentDigest := fingerprint.currentDigest.or s.currentDigest
    requestedAction := if generation = some s.actionGeneration then .none else s.requestedAction
    acknowledgedGeneration :=
      if generation = some s.actionGeneration then s.actionGeneration
      else s.acknowledgedGeneration }

/-- Whether the row holds the receipt of exactly this outcome, so that a retry
    whose first answer was lost is answered the same way. -/
def receiptMatches (fingerprint : OutcomeFingerprint) (s : UpdateCoordinatorState) : Bool :=
  (fingerprint.expectedGeneration.isNone ||
      fingerprint.expectedGeneration == some s.acknowledgedGeneration) &&
    s.lastOutcomeTokenHash == some tokenHash &&
    s.lastOutcomeFingerprint == some fingerprint &&
    s.lastResult == some fingerprint.result

/-- Record an install outcome for the holder of the drain and release the
    drain with it. -/
def acknowledgeOutcome (phase : CoordinatorPhase)
    (fingerprint : OutcomeFingerprint) (db : CoordinatorDb) :
    Except CoordinationError (CoordinatorDb × Bool) := do
  let db := cleanupExpired now db
  requireKnownPhase db
  match leaseForToken db tokenHash (some .drain) with
  | none => return (db, receiptMatches tokenHash fingerprint db.state)
  | some drain =>
      if fingerprint.expectedGeneration.isSome &&
          (drain.actionGeneration != fingerprint.expectedGeneration ||
            some db.state.actionGeneration != fingerprint.expectedGeneration) then
        return (db, false)
      return ((deleteLease db drain).updateState
        (recordInstallOutcome now tokenHash phase fingerprint drain.actionGeneration), true)

inductive HeartbeatPhase where
  | checking
  deriving DecidableEq, Repr

def HeartbeatPhase.toPhase : HeartbeatPhase → CoordinatorPhase
  | .checking => .checking

inductive RenewPhase where
  | installing
  | rollback
  deriving DecidableEq, Repr

def RenewPhase.toPhase : RenewPhase → CoordinatorPhase
  | .installing => .installing
  | .rollback => .rollback

inductive UpdateAction where
  | check
  | install
  deriving DecidableEq, Repr

def UpdateAction.toRequested : UpdateAction → RequestedAction
  | .check => .check
  | .install => .install

/-- One operation as its callers can make it: the phases of a heartbeat and of
    a renewal are those the request schemas admit, and the phase of an outcome
    is the one its result stands for. -/
inductive CoordinatorOp where
  | snapshot
  | recordUpdaterIdentity (observedBuild observedDigest : Option String)
  | recordRefreshOutcome (result : String) (detailCode fromBuild toBuild : Option String)
  | markBusyWorkDispatched
  | touchUpdater (phase : Option HeartbeatPhase) (expectedGeneration : Option Nat)
  | requestAction (action : UpdateAction)
  | acquireCritical (tokenHash : TokenHash) (owner operation : String) (ttl : Int)
  | claimDrain (tokenHash : TokenHash) (owner : String) (actionGeneration : Option Nat)
      (materialize requireIdle : Bool) (ttl : Int)
  | renew (tokenHash : TokenHash) (ttl : Int)
  | renewDrainProgress (tokenHash : TokenHash) (ttl : Int) (phase : Option RenewPhase)
  | release (tokenHash : TokenHash)
  | forceResetPhase (recoveryMaxAge : Int)
  | acknowledgeAction (expectedGeneration : Nat) (result : UpdateResult)
      (errorCode : Option String) (imageValues : ImageValues) (preserveAction : Bool)
  | acknowledgeOutcome (tokenHash : TokenHash) (fingerprint : OutcomeFingerprint)
  deriving DecidableEq, Repr

inductive CoordinatorAnswer where
  | snapshot (status : CoordinatorSnapshot)
  | recorded
  | flag (done : Bool)
  | generation (generation : Nat)
  | critical (lease : Option MaintenanceLease)
  | drain (claim : Option (MaintenanceLease × Bool))
  | progress (ready : Option Bool)
  | reset (result : Option ForceResetResult)
  | raised (e : CoordinationError)
  deriving DecidableEq, Repr

/-- The service around a method that commits or rolls back. -/
def answered {α : Type} (answer : α → CoordinatorAnswer) (db : CoordinatorDb)
    (body : CoordinatorDb → Except CoordinationError (CoordinatorDb × α)) :
    CoordinatorDb × CoordinatorAnswer :=
  match body db with
  | .ok (db', a) => (db', answer a)
  | .error e => (db, .raised e)

/-- The service around a method that takes a lease duration. -/
def withPositiveTtl (db : CoordinatorDb)
    (call : CoordinatorDb × CoordinatorAnswer) : CoordinatorDb × CoordinatorAnswer :=
  if ttl ≤ 0 then (db, .raised .durationNotPositive) else call

/-- Carry one operation out at a time and answer its caller. -/
def perform (op : CoordinatorOp) (now : Int) (db : CoordinatorDb) :
    CoordinatorDb × CoordinatorAnswer :=
  match op with
  | .snapshot => ((snapshot now db).1, .snapshot (snapshot now db).2)
  | .recordUpdaterIdentity build digest =>
      answered (fun _ => .recorded) db (recordUpdaterIdentity now build digest)
  | .recordRefreshOutcome result detailCode fromBuild toBuild =>
      answered (fun _ => .recorded) db
        (recordRefreshOutcome now result detailCode fromBuild toBuild)
  | .markBusyWorkDispatched =>
      ((markBusyWorkDispatched now db).1, .flag (markBusyWorkDispatched now db).2)
  | .touchUpdater phase expectedGeneration =>
      answered .flag db (touchUpdater now (phase.map (·.toPhase)) expectedGeneration)
  | .requestAction action =>
      answered (fun | some g => .generation g | none => .raised .updateOperationInProgress) db
        (requestAction now action.toRequested)
  | .acquireCritical tokenHash owner operation ttl =>
      withPositiveTtl ttl db
        (answered .critical db (acquireCritical now tokenHash owner operation ttl))
  | .claimDrain tokenHash owner actionGeneration materialize requireIdle ttl =>
      withPositiveTtl ttl db
        (answered .drain db
          (claimDrain now tokenHash owner actionGeneration materialize requireIdle ttl))
  | .renew tokenHash ttl =>
      withPositiveTtl ttl db ((renew now tokenHash ttl db).1, .flag (renew now tokenHash ttl db).2)
  | .renewDrainProgress tokenHash ttl phase =>
      withPositiveTtl ttl db
        (answered .progress db (renewDrainProgress now tokenHash ttl (phase.map (·.toPhase))))
  | .release tokenHash => answered .flag db (release now tokenHash)
  | .forceResetPhase recoveryMaxAge =>
      withPositiveTtl recoveryMaxAge db
        (match forceResetPhase now recoveryMaxAge db with
          | (db', .ok result) => (db', .reset result)
          | (db', .error e) => (db', .raised e))
  | .acknowledgeAction expectedGeneration result errorCode imageValues preserveAction =>
      answered .flag db
        (acknowledgeAction now expectedGeneration (phaseForResult result) result errorCode
          imageValues preserveAction)
  | .acknowledgeOutcome tokenHash fingerprint =>
      answered .flag db
        (acknowledgeOutcome now tokenHash (phaseForResult fingerprint.result) fingerprint)

/-- The tables and the time of the last operation. -/
structure CoordinatorWorld where
  db : CoordinatorDb
  clock : Int
  deriving DecidableEq, Repr

/-- The operations reach the lock one after another, at times that do not
    decrease. -/
def step (w : CoordinatorWorld) (call : Int × CoordinatorOp) : Option CoordinatorWorld :=
  if call.1 < w.clock then none
  else some { db := (perform call.2 call.1 w.db).1, clock := call.1 }

end Coordinator

end PlexManager
