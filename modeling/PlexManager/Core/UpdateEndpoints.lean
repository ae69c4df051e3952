import PlexManager.Core.Coordinator

/-!
# The endpoints of the update coordinator

The sidecar reaches the coordinator through six internal endpoints of the
application. Each is a short sequence of transactions on the coordinator
tables, with decisions in between that rest on what the first of them read, so
other requests can slip in before the last. A `Visit` carries what the
surroundings decide about one request: the times of its transactions, what
slips in, the token a claim would draw, and the operator's policy.

An endpoint that refuses does so with a 409 and a code; what its earlier
transactions wrote stays written. Tokens are drawn at random, so a token that
is drawn was never drawn before, and the service keeps the drawn ones.
-/

namespace PlexManager

namespace Coordinator

open UpdateRecovery

/-- The coordinator as its endpoints find it. -/
structure Service where
  db : CoordinatorDb
  clock : Int
  /-- Every token drawn so far. -/
  issued : List TokenHash
  deriving DecidableEq, Repr

def drawnToken : CoordinatorOp → Option TokenHash
  | .acquireCritical tokenHash _ _ _ => some tokenHash
  | .claimDrain tokenHash _ _ _ _ _ => some tokenHash
  | _ => none

/-- The code of a 409 answer. -/
abbrev Refusal := String

/-- What an endpoint does to the service and how it answers, where its
    transactions can happen as the visit says. -/
def Endpoint (α : Type) : Type := Service → Option (Except Refusal α × Service)

namespace Endpoint

variable {α β : Type}

instance : Monad Endpoint where
  pure a := fun s => some (.ok a, s)
  bind x f := fun s => match x s with
    | none => none
    | some (.ok a, s') => f a s'
    | some (.error e, s') => some (.error e, s')

def refuse (code : Refusal) : Endpoint α := fun s => some (.error code, s)

/-- A reply no transaction gives: such a visit does not happen. -/
def impossible : Endpoint α := fun _ => none

end Endpoint

open Endpoint

variable (visit : Visit) (body : UpdateOutcomeRequest) (now : Int)

/-- One transaction, not before the last one and with a fresh token. -/
def transact (op : CoordinatorOp) : Endpoint CoordinatorAnswer := fun s =>
  if now < s.clock || (drawnToken op).any s.issued.contains then none
  else some (.ok (perform op now s.db).2,
    { db := (perform op now s.db).1
      clock := now
      issued := (drawnToken op).toList ++ s.issued })

/-- The transactions of everyone but the sidecar. Outcomes of an install are
    the sidecar's alone. -/
def ofOthers : CoordinatorOp → Bool
  | .acknowledgeOutcome _ _ => false
  | _ => true

/-- Transactions of other requests, one after another. -/
def meanwhile : List (Int × CoordinatorOp) → Endpoint Unit
  | [] => pure ()
  | call :: calls => do
      if ofOthers call.2 then
        let _ ← transact call.1 call.2
        meanwhile calls
      else impossible

structure UpdatePolicy where
  scheduleEnabled : Bool
  windowOpen : Bool
  idleOnly : Bool
  deriving DecidableEq, Repr

/-- What its surroundings decide about one request. -/
structure Visit where
  /-- The time of the transactions up to the endpoint's decision. -/
  now : Int
  /-- What others do between the decision and the transaction it leads to. -/
  between : List (Int × CoordinatorOp) := []
  /-- The time of the transactions from there on. -/
  later : Int := now
  token : TokenHash := 0
  policy : UpdatePolicy := ⟨false, false, false⟩
  /-- `current_build_id()` of the application that answers. -/
  appBuild : String := ""
  deriving DecidableEq, Repr

/-- `_DRAIN_TTL`, in seconds. -/
def drainTtl : Int := 600

/-- `_AUTOMATIC_CHECK_INTERVAL`, in seconds. -/
def automaticCheckInterval : Int := 900

def sidecarPollSeconds : Nat := 30

def readSnapshot : Endpoint CoordinatorSnapshot := do
  match ← transact now .snapshot with
  | .snapshot status => pure status
  | _ => impossible

/-- `_guard_unknown_phase`: the refusal of a locked write is a 409. -/
def guardUnknownPhase (op : CoordinatorOp) : Endpoint CoordinatorAnswer := do
  match ← transact now op with
  | .raised (.unknownCoordinatorPhase _) => refuse "coordinator_state_unknown"
  | answer => pure answer

/-- The snapshot an endpoint starts from, or its refusal of an unknown phase. -/
def knownSnapshot : Endpoint CoordinatorSnapshot := do
  let snapshot ← readSnapshot now
  if knownCoordinatorPhase snapshot.state.phase then pure snapshot
  else refuse "coordinator_state_unknown"

structure UpdateEligibilityResponse where
  action : RequestedAction
  actionGeneration : Nat
  automaticEnabled : Bool
  windowOpen : Bool
  idleOnly : Bool
  blocker : Option String
  pollAfterSeconds : Nat
  deriving DecidableEq, Repr

def UpdatePolicy.response (policy : UpdatePolicy) (action : RequestedAction) (generation : Nat)
    (blocker : Option String) : UpdateEligibilityResponse where
  action := action
  actionGeneration := generation
  automaticEnabled := policy.scheduleEnabled
  windowOpen := policy.windowOpen
  idleOnly := policy.idleOnly
  blocker := blocker
  pollAfterSeconds := sidecarPollSeconds

/-- The action `_eligibility` hands out for a row it recognizes, before the
    critical work is looked at. -/
def eligibleAction (policy : UpdatePolicy) (snapshot : CoordinatorSnapshot) :
    RequestedAction × Option String :=
  let s := snapshot.state
  if s.requestedAction = .check then (.check, none)
  else if s.requestedAction = .install then
    if s.availableDigest.isSome then (.install, none)
    else (.check, some "checking_for_update")
  else if policy.scheduleEnabled then
    -- Automatic work only ever starts from a phase that is not busy.
    if busyCoordinatorPhase s.phase then (.none, some "coordinator_phase_busy")
    else if s.availableDigest.isSome then
      if policy.windowOpen then (.install, none) else (.none, some "outside_update_window")
    else match s.lastCheckedAt with
      | none => (.check, none)
      | some checked =>
          if automaticCheckInterval ≤ now - checked then (.check, none) else (.none, none)
  else (.none, none)

/-- `_eligibility` with `touch`, as both its callers run it: clear the reported
    identity, record the contact, and decide what to hand out. -/
def eligibility : Endpoint (UpdateEligibilityResponse × CoordinatorSnapshot) := do
  let _ ← transact visit.now (.recordUpdaterIdentity none none)
  let _ ← transact visit.now (.touchUpdater none none)
  let snapshot ← readSnapshot visit.now
  let generation := snapshot.state.actionGeneration
  if !knownCoordinatorPhase snapshot.state.phase then
    pure (visit.policy.response .none generation (some "coordinator_state_unknown"), snapshot)
  else if !knownRequestedAction snapshot.state.requestedAction then
    pure (visit.policy.response .none generation (some "requested_action_unknown"), snapshot)
  else
    let handout := eligibleAction visit.now visit.policy snapshot
    let blocker :=
      if handout.1 = .install && visit.policy.idleOnly &&
          snapshot.activeCriticalOperations != 0 then
        some "active_critical_work"
      else handout.2
    let response := visit.policy.response handout.1 generation blocker
    if dispatchStartsWork handout.1 blocker && busyCoordinatorPhase snapshot.state.phase then
      let _ ← transact visit.now .markBusyWorkDispatched
      pure (response, snapshot)
    else pure (response, snapshot)

def eligibilityEndpoint : Endpoint UpdateEligibilityResponse := do
  let answer ← eligibility visit
  pure answer.1

structure UpdateLeaseResponse where
  ready : Bool
  leaseSeconds : Int
  blocker : Option String
  deriving DecidableEq, Repr

/-- The `checking` heartbeat of the sidecar, which carries no identity. -/
def heartbeatEndpoint (actionGeneration : Nat) :
    Endpoint UpdateLeaseResponse := do
  let _ ← knownSnapshot visit.now
  meanwhile visit.between
  let _ ← guardUnknownPhase visit.later (.recordUpdaterIdentity none none)
  match ← guardUnknownPhase visit.later
      (.touchUpdater (some .checking) (some actionGeneration)) with
  | .flag true => do
      let _ ← readSnapshot visit.later
      pure { ready := false, leaseSeconds := drainTtl, blocker := none }
  | .flag false => refuse "update_action_generation_mismatch"
  | _ => impossible

structure UpdateClaimResponse where
  leaseToken : Option TokenHash
  actionGeneration : Option Nat
  ready : Bool
  leaseSeconds : Int
  blocker : Option String
  deriving DecidableEq, Repr

/-- Whom a claim is for: a fresh install of the generation the sidecar was
    handed, or the recovery of an interrupted one. -/
structure UpdateClaimRequest where
  recovery : Bool
  expectedGeneration : Option Nat
  deriving DecidableEq, Repr

/-- The first half of `claim_endpoint`: what may be claimed, and the snapshot
    that was decided on. -/
def claimEligibility (body : UpdateClaimRequest) :
    Endpoint (UpdateEligibilityResponse × CoordinatorSnapshot) := do
  if body.recovery then
    let snapshot ← knownSnapshot visit.now
    if snapshot.state.requestedAction = .install ∧
        some snapshot.state.actionGeneration = body.expectedGeneration then
      pure (visit.policy.response .install snapshot.state.actionGeneration none, snapshot)
    else refuse "update_recovery_generation_mismatch"
  else
    let answer ← eligibility visit
    if body.expectedGeneration.isSome &&
        body.expectedGeneration != some answer.2.state.actionGeneration then
      refuse "update_action_generation_mismatch"
    else pure answer

/-- The drain was not granted: say what stands in the way. -/
def claimDeferred (idleOnly : Bool) : Endpoint UpdateClaimResponse := do
  let latest ← readSnapshot now
  pure
    { leaseToken := none
      actionGeneration := some latest.state.actionGeneration
      ready := false
      leaseSeconds := drainTtl
      blocker := some (if idleOnly && latest.activeCriticalOperations != 0 then
        "active_critical_work" else "concurrent_update_claim") }

def claimEndpoint (body : UpdateClaimRequest) :
    Endpoint UpdateClaimResponse := do
  let eligible ← claimEligibility visit body
  let snapshot := eligible.2
  if eligible.1.action ≠ .install then refuse "update_not_eligible"
  else if eligible.1.idleOnly && snapshot.activeCriticalOperations != 0 then
    pure
      { leaseToken := none
        actionGeneration := some snapshot.state.actionGeneration
        ready := false
        leaseSeconds := drainTtl
        blocker := some "active_critical_work" }
  else do
    meanwhile visit.between
    match ← guardUnknownPhase visit.later
        (.claimDrain visit.token "container-updater" (some snapshot.state.actionGeneration)
          (!body.recovery && snapshot.state.requestedAction == .none) eligible.1.idleOnly
          drainTtl) with
    | .drain none => claimDeferred visit.later eligible.1.idleOnly
    | .drain (some (lease, ready)) =>
        pure
          { leaseToken := some lease.tokenHash
            actionGeneration := lease.actionGeneration
            ready := ready
            leaseSeconds := drainTtl
            blocker := if ready then none else some "critical_work_draining" }
    | _ => impossible

def renewEndpoint (leaseToken : TokenHash) (phase : Option RenewPhase) :
    Endpoint UpdateLeaseResponse := do
  let _ ← knownSnapshot visit.now
  meanwhile visit.between
  match ← guardUnknownPhase visit.later (.renewDrainProgress leaseToken drainTtl phase) with
  | .progress none => refuse "update_lease_expired"
  | .progress (some ready) =>
      let response : UpdateLeaseResponse :=
        { ready := ready
          leaseSeconds := drainTtl
          blocker := if ready then none else some "critical_work_draining" }
      -- A renewal that names a phase looks at the row once more.
      if phase.isSome then do
        let _ ← readSnapshot visit.later
        pure response
      else pure response
  | _ => impossible

def releaseEndpoint (leaseToken : TokenHash) : Endpoint UpdateLeaseResponse := do
  let _ ← knownSnapshot visit.now
  meanwhile visit.between
  match ← guardUnknownPhase visit.later (.release leaseToken) with
  | .flag released =>
      pure
        { ready := false
          leaseSeconds := drainTtl
          blocker := if released then none else some "lease_not_found" }
  | _ => impossible

/-- The outcomes the sidecar reports, under the names of the wire. -/
inductive Outcome where
  | noUpdate
  | updateAvailable
  | succeeded
  | failed
  | rolledBack
  deriving DecidableEq, Repr

def serviceResult : Outcome → UpdateResult
  | .noUpdate => .noUpdate
  | .updateAvailable => .updateAvailable
  | .succeeded => .success
  | .failed => .failed
  | .rolledBack => .rolledBack

/-- `UpdateOutcomeRequest`. A check carries no lease and an install does, so
    the token tells the operations apart. -/
structure UpdateOutcomeRequest where
  outcome : Outcome
  actionGeneration : Nat
  leaseToken : Option TokenHash := none
  currentDigest : Option String := none
  availableDigest : Option String := none
  currentBuild : Option String := none
  availableBuild : Option String := none
  fromBuild : Option String := none
  toBuild : Option String := none
  detailCode : Option String := none
  deriving DecidableEq, Repr

def UpdateOutcomeRequest.fingerprint : OutcomeFingerprint where
  expectedGeneration := some body.actionGeneration
  result := serviceResult body.outcome
  errorCode := body.detailCode
  fromBuild := body.fromBuild
  toBuild := body.toBuild
  currentBuild := body.currentBuild
  currentDigest := body.currentDigest
  availableBuild := body.availableBuild
  availableDigest := body.availableDigest

/-- What `or` keeps of a text: an empty one counts as absent. -/
def nonEmpty (text : Option String) : Option String := text.filter (· != "")

def checkImageValues (s : UpdateCoordinatorState) : ImageValues :=
  let hasUpdate := body.outcome = .updateAvailable
  { currentBuild := some
      (((nonEmpty body.currentBuild).or (nonEmpty s.currentBuild)).or (some visit.appBuild))
    currentDigest := some (body.currentDigest.or s.currentDigest)
    availableBuild := some (if hasUpdate then body.availableBuild else none)
    availableDigest := some (if hasUpdate then body.availableDigest else none) }

def drainHeld (tokenHash : TokenHash) (db : CoordinatorDb) : Bool :=
  (leaseForToken (cleanupExpired now db) tokenHash (some .drain)).isSome

/-- The answer to an install outcome, and whether it was accepted from the
    holder of the drain rather than recognized by its receipt. -/
def acknowledgeInstall (token : TokenHash) (body : UpdateOutcomeRequest) :
    Endpoint Bool := fun s =>
  match guardUnknownPhase visit.later (.acknowledgeOutcome token body.fingerprint) s with
  | some (.ok (.flag true), s') => some (.ok (drainHeld visit.later token s.db), s')
  | some (.ok (.flag false), s') => some (.error "update_lease_expired", s')
  | some (.ok _, _) => none
  | some (.error e, s') => some (.error e, s')
  | none => none

def acknowledgeCheck (snapshot : CoordinatorSnapshot)
    (body : UpdateOutcomeRequest) : Endpoint Bool := do
  match ← guardUnknownPhase visit.later
      (.acknowledgeAction body.actionGeneration (serviceResult body.outcome) body.detailCode
        (checkImageValues visit body snapshot.state)
        (snapshot.state.requestedAction == .install && body.outcome == .updateAvailable)) with
  | .flag true => pure false
  | .flag false => refuse "update_action_generation_mismatch"
  | _ => impossible

/-- Record an outcome. No client is told what the answer says. -/
def outcomeEndpoint : Endpoint Bool := do
  let snapshot ← knownSnapshot visit.now
  meanwhile visit.between
  match body.leaseToken with
  | none => acknowledgeCheck visit snapshot body
  | some token => acknowledgeInstall visit token body

end Coordinator

end PlexManager
