import PlexManager.Core.UpdaterHost

/-!
# The update runner

`UpdaterRunner.run_once`, method by method: a fresh iteration that checks for
an update and may install it, and the resumption of one that was interrupted.
Everything works on one `UpdateState` that the methods rewrite and save as they
go; it survives an exception, and the handlers look at it.

Where a method of the source is long it is cut into named parts here, in its
order. Its two polling loops run for as many rounds as their time allows, and
ask in each whether the deadline has passed. The task that renews the lease
beside the work is not part of the program: its renewals are transactions like
those of any other request, and where it gives the lease up it cancels the
work, which ends the iteration as a crash does.
-/

namespace PlexManager

namespace Updater

open Coordinator Effects UpdateRecovery

/-- The configuration, with its timeouts as numbers of polls. -/
structure UpdaterConfig where
  imageRef : String
  healthRounds : Nat
  drainRounds : Nat
  deriving DecidableEq, Repr

/-- Programs of the updater with a record of type `σ`. -/
abbrev UpdaterM (σ α : Type) := Run UpdaterOp UpdaterOp.Answer Failure σ α

section Requests

variable {σ : Type}

/-- An operation whose answer may be an exception. -/
def request {α : Type} (op : UpdaterOp) (h : op.Answer = Except Failure α) : UpdaterM σ α := do
  let answer ← Run.perform op
  Run.ofExcept (h ▸ answer)

def inspectContainer (ref : ContainerRef) : UpdaterM σ Inspection :=
  request (.inspectContainer ref) rfl

def inspectImage (image : ImageId) : UpdaterM σ Image := request (.inspectImage image) rfl

def createContainer (name : ContainerName) (spec : ContainerSpec) : UpdaterM σ ContainerId :=
  request (.createContainer name spec) rfl

def stopContainer (id : ContainerId) : UpdaterM σ Unit := request (.stopContainer id) rfl

def removeContainer (id : ContainerId) (force : Bool) : UpdaterM σ Unit :=
  request (.removeContainer id force) rfl

def disconnectNetwork (network : String) (id : ContainerId) : UpdaterM σ Unit :=
  request (.disconnectNetwork network id) rfl

def connectNetwork (network : String) (id : ContainerId) (endpoint : NetworkEndpoint) :
    UpdaterM σ Unit :=
  request (.connectNetwork network id endpoint) rfl

def multiNetworkCreate : UpdaterM σ Bool := request .multiNetworkCreate rfl

def renew (leaseToken : TokenHash) (phase : Option RenewPhase) : UpdaterM σ LeaseStatus :=
  request (.renew leaseToken phase) rfl

def outcome (body : UpdateOutcomeRequest) : UpdaterM σ Unit := request (.outcome body) rfl

def save (st : UpdateState) : UpdaterM σ Unit := Run.perform (UpdaterOp.save st)

def clear : UpdaterM σ Unit := Run.perform UpdaterOp.clear

/-- `loop.time() >= deadline`. -/
def deadlinePassed : UpdaterM σ Bool := Run.perform UpdaterOp.deadlinePassed

def uuid4 : UpdaterM σ OperationId := Run.perform UpdaterOp.uuid4

def raise {α : Type} (code : String) : UpdaterM σ α := Run.raise (.updater code)

/-- `with suppress(DockerError)`. -/
def suppressDocker (x : UpdaterM σ Unit) : UpdaterM σ Unit :=
  Run.tryCatch x fun e => if e.isDocker then pure () else Run.raise e

/-- Whether a body went through, where some of its exceptions are passed over. -/
def attempt (x : UpdaterM σ Unit) (tolerated : Failure → Bool) : UpdaterM σ Bool :=
  Run.tryCatch (do x; pure true) fun e => if tolerated e then pure false else Run.raise e

/-- `exists`. -/
def containerExists (id : ContainerId) : UpdaterM σ Bool :=
  Run.tryCatch (do let _ ← inspectContainer (.id id); pure true)
    fun e => if e = .dockerNotFound then pure false else Run.raise e

def waitHealthy : Nat → ContainerId → UpdaterM σ Unit
  | 0, _ => Run.raise (.docker "replacement_health_timeout")
  | rounds + 1, id => do
      let seen ← inspectContainer (.id id)
      if seen.health = .missing then Run.raise (.docker "target_healthcheck_missing")
      else if seen.health = .healthy then pure ()
      else if seen.halted || seen.health = .unhealthy then
        Run.raise (.docker "replacement_unhealthy")
      else if ← deadlinePassed then
        Run.raise (.docker "replacement_health_timeout")
      else waitHealthy rounds id

/-- The polling of `_claim_ready` until the critical work has left. -/
def awaitDrained : Nat → TokenHash → LeaseStatus → UpdaterM σ LeaseStatus
  | 0, token, lease =>
      if lease.ready then pure lease
      else do
        request (.release token) rfl
        raise "maintenance_drain_timeout"
  | rounds + 1, token, lease =>
      if lease.ready then pure lease
      else do
        if ← deadlinePassed then
          request (.release token) rfl
          raise "maintenance_drain_timeout"
        else
          let lease ← renew token none
          awaitDrained rounds token lease

def claimReady (config : UpdaterConfig) (body : UpdateClaimRequest) :
    UpdaterM σ (Option LeaseStatus) := do
  let lease ← request (.claim body) rfl
  match lease.leaseToken with
  -- Busy, or someone else's drain: a deferral, not a failure.
  | none => pure none
  | some token => do
      let lease ← awaitDrained config.drainRounds token lease
      pure (some lease)

end Requests

/-! ### The record -/

variable (config : UpdaterConfig) (id : ContainerId) (st : UpdateState)

def progressPhase : RenewPhase :=
  if st.stage.isRollback then .rollback else .installing

def candidateName : ContainerName := .candidate st.operationId.head

def previousName : ContainerName := .previous st.operationId.head

/-- Save the record as it is. -/
def persist : UpdaterM UpdateState Unit := do
  let st ← Run.record
  save st

/-- `_stage`. -/
def setStage (stage : UpdateStage) : UpdaterM UpdateState Unit := do
  Run.modifyRecord fun st => { st with stage := stage }
  persist

/-- Save the reason of a failure, unless there is one already. -/
def rememberDetail (code : String) : UpdaterM UpdateState Unit := do
  let st ← Run.record
  if st.detailCode.isNone then
    Run.modifyRecord fun st => { st with detailCode := some code }
    persist
  else pure ()

def installOutcome (outcome : Outcome) (currentDigest : Option String)
    (currentBuild : Option String) (detailCode : Option String) : UpdateOutcomeRequest where
  outcome := outcome
  actionGeneration := st.actionGeneration
  leaseToken := some st.leaseToken
  currentDigest := currentDigest
  availableDigest := some st.desiredDigest
  currentBuild := currentBuild
  availableBuild := st.desiredBuild
  fromBuild := st.oldBuild
  toBuild := st.desiredBuild
  detailCode := detailCode

/-! ### The checks -/

def validateOperationContainer (role : Role)
    (expectedImage : ImageId) (allowedNames : List ContainerName) :
    UpdaterM UpdateState Container := do
  let st ← Run.record
  let named := match role with
    | .candidate => "candidate"
    | .rollback => "rollback"
  let seen ← Run.tryCatch (inspectContainer (.id id)) fun e =>
    if e = .dockerNotFound then raise (named ++ "_missing_during_recovery") else Run.raise e
  let c := seen.container
  if c.id ≠ id ∨ c.image ≠ expectedImage then raise (named ++ "_identity_mismatch")
  else if c.name ∉ allowedNames then raise (named ++ "_name_mismatch")
  else if c.labels ≠ operationLabels config.imageRef st.operationId role then
    raise (named ++ "_label_mismatch")
  else pure c

/-- `_validate_candidate`, with the id it has found recorded. -/
def validateCandidate : UpdaterM UpdateState ContainerId := do
  let st ← Run.record
  match st.candidateId with
  | none => raise "candidate_missing_during_recovery"
  | some id => do
      let names :=
        if st.stage = .candidateRenamed ∨ st.stage = .outcomeAcknowledged then
          [ContainerName.configured]
        else [.configured, candidateName st]
      let _ ← validateOperationContainer config id .candidate st.desiredImageId names
      pure id

def validateRollback : UpdaterM UpdateState Container := do
  let st ← Run.record
  match st.rollbackId with
  | none => raise "rollback_missing_during_recovery"
  | some id => validateOperationContainer config id .rollback st.oldImageId [.configured]

def validatePrevious (allowedNames : List ContainerName) :
    UpdaterM UpdateState Container := do
  let st ← Run.record
  let seen ← Run.tryCatch (inspectContainer (.id st.targetId)) fun e =>
    if e = .dockerNotFound then raise "previous_container_missing" else Run.raise e
  let c := seen.container
  if c.id ≠ st.targetId ∨ c.image ≠ st.oldImageId then
    raise "previous_container_identity_mismatch"
  else if c.name ∉ allowedNames then raise "previous_container_name_mismatch"
  else if c.labels.target ≠ some "true" ∨ c.labels.imageRef ≠ some config.imageRef then
    raise "previous_container_label_mismatch"
  else pure c

def validateNetworkFidelity (c : Container) : UpdaterM UpdateState Unit := do
  let st ← Run.record
  let current := c.networks.map (·.1)
  let expected := st.networks.map (·.1)
  if !(current.all expected.contains && expected.all current.contains) then
    raise "rollback_network_mismatch"
  else if st.networks.any fun entry =>
      entry.2.macAddress.isSome &&
        c.networks.lookup entry.1 != some entry.2 then
    raise "rollback_network_mac_mismatch"
  else pure ()

def findOperationContainer (role : Role) : UpdaterM UpdateState (Option ContainerId) := do
  let st ← Run.record
  let found ← request (.containersByLabels st.operationId role) rfl
  match found with
  | [] => pure none
  | [c] => pure (some c.id)
  | _ => raise "ambiguous_operation_containers"

def ensureName (expected allowedCurrent : ContainerName) :
    UpdaterM UpdateState Unit := do
  let seen ← inspectContainer (.id id)
  if seen.container.name = expected then pure ()
  else if seen.container.name ≠ allowedCurrent then raise "operation_container_name_mismatch"
  else request (.renameContainer id expected) rfl

/-! ### Success -/

/-- Remove the previous container and the record, once an outcome has been
    acknowledged and its replacement is healthy. -/
def discardPrevious (replacement : ContainerId) :
    UpdaterM UpdateState Unit := do
  waitHealthy config.healthRounds replacement
  let st ← Run.record
  if ← containerExists st.targetId then
    let _ ← validatePrevious config [previousName st]
    removeContainer st.targetId false
    clear
  else clear

def cleanupSuccess : UpdaterM UpdateState Unit := do
  let candidate ← validateCandidate config
  discardPrevious config candidate

def retireTarget : UpdaterM UpdateState Unit := do
  let st ← Run.record
  if st.stage = .oldRenamed ∨ st.stage = .candidateRenamed ∨ st.stage = .outcomeAcknowledged then
    pure ()
  else do
    ensureName st.targetId (previousName st) .configured
    setStage .oldRenamed

def promoteCandidate (candidate : ContainerId) : UpdaterM UpdateState Unit := do
  let st ← Run.record
  if st.stage = .oldRenamed then
    ensureName candidate .configured (candidateName st)
    setStage .candidateRenamed
  else pure ()

def reportSuccess : UpdaterM UpdateState Unit := do
  let st ← Run.record
  if st.stage = .candidateRenamed then
    outcome (installOutcome st .succeeded (some st.desiredDigest) st.desiredBuild none)
    setStage .outcomeAcknowledged
  else pure ()

def finishSuccess : UpdaterM UpdateState Unit := do
  let candidate ← validateCandidate config
  waitHealthy config.healthRounds candidate
  retireTarget
  promoteCandidate candidate
  reportSuccess
  cleanupSuccess config

/-! ### Rollback -/

def cleanupRollback : UpdaterM UpdateState Unit := do
  let rollback ← validateRollback config
  validateNetworkFidelity rollback
  discardPrevious config rollback.id

def finishRollbackOutcome : UpdaterM UpdateState Unit := do
  let rollback ← validateRollback config
  validateNetworkFidelity rollback
  waitHealthy config.healthRounds rollback.id
  let st ← Run.record
  outcome (installOutcome st .rolledBack st.oldDigest st.oldBuild
    (some (st.detailCode.getD "update_interrupted")))
  setStage .rollbackAcknowledged
  cleanupRollback config

def enterRollback : UpdaterM UpdateState Unit := do
  let st ← Run.record
  if st.stage.isRollback then pure () else setStage .rollbackRequested

/-- Show the rollback to the coordinator, which may be out of reach but must not
    have taken the drain away. -/
def announceRollback : UpdaterM UpdateState Unit := do
  let st ← Run.record
  Run.tryCatch
    (do
      let progress ← renew st.leaseToken (some .rollback)
      if progress.ready then pure () else raise "maintenance_drain_lost")
    fun e => if e = .coordinator .unavailable then pure () else Run.raise e

/-- Look for the candidate of a crash between its creation and its record. -/
def adoptCandidate : UpdaterM UpdateState Unit := do
  let st ← Run.record
  if st.candidateId.isNone then
    let found ← findOperationContainer .candidate
    match found with
    | none => pure ()
    | some id => do
        Run.modifyRecord fun st => { st with candidateId := some id }
        persist
  else pure ()

def discardCandidate : UpdaterM UpdateState Unit := do
  let st ← Run.record
  match st.candidateId with
  | none => pure ()
  | some id => do
      if ← containerExists id then
        let _ ← validateOperationContainer config id .candidate st.desiredImageId
          [.configured, candidateName st]
        suppressDocker (stopContainer id)
        removeContainer id true
      else pure ()

/-- Stop the retained container, take its name away and detach it, so that its
    clone can have all of it. -/
def setPreviousAside : UpdaterM UpdateState Container := do
  let st ← Run.record
  let _ ← validatePrevious config [.configured, previousName st]
  suppressDocker (stopContainer st.targetId)
  ensureName st.targetId (previousName st) .configured
  let previous ← validatePrevious config [previousName st]
  st.networks.forM fun entry => suppressDocker (disconnectNetwork entry.1 st.targetId)
  pure previous

/-- Look for the clone of a crash between its creation and its record. -/
def adoptRollback : UpdaterM UpdateState Unit := do
  let st ← Run.record
  if st.rollbackId.isNone then
    let found ← findOperationContainer .rollback
    match found with
    | none => pure ()
    | some id => do
        Run.modifyRecord fun st => { st with rollbackId := some id }
        setStage .rollbackCreated
  else pure ()

def forgetRollback : UpdaterM UpdateState Unit := do
  Run.modifyRecord fun st => { st with rollbackId := none }
  setStage .rollbackRequested

def dropMissingRollback : UpdaterM UpdateState Unit := do
  let st ← Run.record
  match st.rollbackId with
  | none => pure ()
  | some id => do
      if ← containerExists id then pure () else forgetRollback

/-- A clone that was healthy once and is not any more is made anew. -/
def recheckRollback : UpdaterM UpdateState Unit := do
  let st ← Run.record
  match st.rollbackId with
  | none => pure ()
  | some id => do
      let _ ← validateRollback config
      if st.stage = .rollbackHealthy then
        if ← attempt (waitHealthy config.healthRounds id) Failure.isDocker then pure ()
        else do
          suppressDocker (stopContainer id)
          removeContainer id true
          forgetRollback
      else pure ()

def ensureRollback (previous : Container) :
    UpdaterM UpdateState ContainerId := do
  let st ← Run.record
  match st.rollbackId with
  | some id => pure id
  | none => do
      let oldImage ← inspectImage st.oldImageId
      let multi ← multiNetworkCreate
      match buildRollbackSpec previous oldImage config.imageRef st.operationId st.networks
          multi with
      | .error code => Run.raise (.docker code)
      | .ok (spec, _) => do
          let id ← createContainer .configured spec
          Run.modifyRecord fun st => { st with rollbackId := some id }
          setStage .rollbackCreated
          pure id

def ensureRollbackNetworks :
    UpdaterM UpdateState Unit := do
  let rollback ← validateRollback config
  let st ← Run.record
  let current := rollback.networks.map (·.1)
  if !(current.all fun name => (st.networks.map (·.1)).contains name) then
    raise "rollback_network_mismatch"
  else
    (st.networks.filter fun entry => !current.contains entry.1).forM fun entry =>
      connectNetwork entry.1 id entry.2

def connectRollback : UpdaterM UpdateState Unit := do
  let st ← Run.record
  if st.stage = .rollbackCreated then
    ensureRollbackNetworks config id
    setStage .rollbackNetworked
  else pure ()

def startRollback : UpdaterM UpdateState Unit := do
  let st ← Run.record
  if st.stage = .rollbackNetworked then
    request (.startContainer id) rfl
    setStage .rollbackStarted
  else pure ()

def rollback (detailCode : String) (acknowledge : Bool) :
    UpdaterM UpdateState Unit := do
  rememberDetail detailCode
  enterRollback
  announceRollback
  adoptCandidate
  discardCandidate config
  let previous ← setPreviousAside config
  adoptRollback
  dropMissingRollback
  recheckRollback config
  let id ← ensureRollback config previous
  connectRollback config id
  startRollback id
  waitHealthy config.healthRounds id
  setStage .rollbackHealthy
  if acknowledge then finishRollbackOutcome config else pure ()

/-! ### Install and recovery -/

def ackPreCutoverFailure (detailCode : String) : UpdaterM UpdateState Unit := do
  rememberDetail detailCode
  let st ← Run.record
  outcome (installOutcome st .failed st.oldDigest st.oldBuild st.detailCode)
  clear

def install (target : Container) (oldImage desired : Image) :
    UpdaterM UpdateState Unit := do
  let st ← Run.record
  setStage .stopRequested
  stopContainer st.targetId
  setStage .oldStopped
  st.networks.forM fun entry => disconnectNetwork entry.1 st.targetId
  setStage .oldDisconnected
  let multi ← multiNetworkCreate
  match buildCandidateSpec target oldImage desired config.imageRef st.operationId st.networks
      multi with
  | .error code => Run.raise (.docker code)
  | .ok (spec, created) => do
      let id ← createContainer (candidateName st) spec
      Run.modifyRecord fun st => { st with candidateId := some id }
      setStage .candidateCreated
      (remainingNetworks st.networks created).forM fun entry =>
        connectNetwork entry.1 id entry.2
      request (.startContainer id) rfl
      setStage .candidateStarted
      waitHealthy config.healthRounds id
      setStage .candidateHealthy
      finishSuccess config

/-- The stages from which a failed install is left to a retry: once the
    replacement is healthy, its success may have been acknowledged. -/
def UpdateStage.retried : UpdateStage → Bool
  | .candidateHealthy | .oldRenamed | .candidateRenamed | .outcomeAcknowledged => true
  | _ => false

def executeInstall (target : Container) (oldImage desired : Image) :
    UpdaterM UpdateState Unit :=
  Run.tryCatch (install config target oldImage desired) fun e => do
    if e = .state then Run.raise e
    else
      let st ← Run.record
      if st.stage = .prepared then ackPreCutoverFailure e.code
      else if st.stage.retried then Run.raise e
      else rollback config e.code true

def presentCandidate : UpdaterM UpdateState (Option ContainerId) := do
  let st ← Run.record
  match st.candidateId with
  | none => pure none
  | some id => do
      let there ← containerExists id
      pure (if there then some id else none)

def candidateFailure :
    UpdaterM UpdateState (Option String) :=
  Run.tryCatch (do waitHealthy config.healthRounds id; pure none)
    fun e => if e.isDocker then pure (some e.code) else Run.raise e

def recover : UpdaterM UpdateState Unit := do
  let st ← Run.record
  if st.stage = .outcomeAcknowledged then cleanupSuccess config
  else if st.stage = .rollbackAcknowledged then cleanupRollback config
  else if st.stage.isRollback then rollback config "update_interrupted" true
  else do
    match ← presentCandidate with
    | some id => do
        let _ ← validateCandidate config
        match ← candidateFailure config id with
        | some code => rollback config code true
        | none => finishSuccess config
    | none =>
        if st.stage = .prepared then ackPreCutoverFailure "update_interrupted"
        else rollback config "update_interrupted" true

/-- The polling of `_ensure_recovery_lease` until the critical work has left. -/
def awaitRenewed : Nat → LeaseStatus → UpdaterM UpdateState (Option LeaseStatus)
  | 0, renewed => pure (if renewed.ready then some renewed else none)
  | rounds + 1, renewed =>
      if renewed.ready then pure (some renewed)
      else do
        if ← deadlinePassed then pure none
        else
          let st ← Run.record
          let renewed ← renew st.leaseToken (some (progressPhase st))
          awaitRenewed rounds renewed

def ensureRecoveryLease :
    UpdaterM UpdateState (Option LeaseStatus) := do
  let st ← Run.record
  let renewed ← Run.tryCatch
    (do
      let renewed ← renew st.leaseToken (some (progressPhase st))
      pure (some renewed))
    fun e => if e = .coordinator .conflict then pure none else Run.raise e
  match renewed with
  | some renewed => awaitRenewed config.drainRounds renewed
  | none => do
      let replacement ← claimReady config ⟨true, some st.actionGeneration⟩
      match replacement with
      | none => pure none
      | some lease =>
          match lease.leaseToken with
          | none => pure none
          | some token => do
              Run.modifyRecord fun st => { st with leaseToken := token }
              persist
              pure (some lease)

/-! ### One iteration -/

def resumePrepared : UpdaterM UpdateState Bool := do
  let st ← Run.record
  if st.stage = .prepared then
    rememberDetail "update_interrupted"
    let st ← Run.record
    attempt (ackPreCutoverFailure (st.detailCode.getD "update_interrupted"))
      (· = .coordinator .conflict)
  else pure false

def resumeRenamed : UpdaterM UpdateState Bool := do
  let st ← Run.record
  if st.stage = .candidateRenamed then
    attempt (finishSuccess config) fun e =>
      e = .coordinator .conflict || e = .updater "candidate_missing_during_recovery" || e.isDocker
  else pure false

def resumeRolledBack : UpdaterM UpdateState Bool := do
  let st ← Run.record
  if st.stage = .rollbackHealthy then
    attempt (finishRollbackOutcome config) fun e =>
      e = .coordinator .conflict || e = .updater "rollback_missing_during_recovery" || e.isDocker
  else pure false

/-- What the attempt to hold the drain again leads to. -/
inductive RecoveryLease where
  | held
  | deferred
  | offline
  deriving DecidableEq, Repr

def recoveryLease : UpdaterM UpdateState RecoveryLease :=
  Run.tryCatch
    (do
      let lease ← ensureRecoveryLease config
      pure (if lease.isSome then .held else .deferred))
    fun e => do
      let st ← Run.record
      if e = .coordinator .unavailable && st.stage.offlineRollback then pure .offline
      else Run.raise e

def resumeUnderLease : UpdaterM UpdateState Unit := do
  match ← recoveryLease config with
  | .offline => do
      let st ← Run.record
      rollback config (st.detailCode.getD "coordinator_unavailable") false
  | .deferred => pure ()
  | .held => recover config

/-- `run_once` with a record on file. -/
def resume : UpdaterM UpdateState Unit := do
  let st ← Run.record
  if st.stage = .outcomeAcknowledged ∨ st.stage = .rollbackAcknowledged then recover config
  else do
    if ← resumePrepared then pure ()
    else if ← resumeRenamed config then pure ()
    else if ← resumeRolledBack config then pure ()
    else resumeUnderLease config

def target (config : UpdaterConfig) : UpdaterM Unit (Container × Image) := do
  let seen ← Run.tryCatch (inspectContainer (.name .configured)) fun e =>
    if e = .dockerNotFound then raise "configured_target_missing" else Run.raise e
  let c := seen.container
  if c.name ≠ .configured then raise "configured_target_mismatch"
  else if c.labels.target ≠ some "true" then raise "configured_target_label_missing"
  else if c.labels.imageRef ≠ some config.imageRef then raise "configured_image_label_mismatch"
  else do
    let oldImage ← inspectImage c.image
    if !enabledHealthcheck c.config.healthcheck then raise "target_healthcheck_missing"
    else pure (c, oldImage)

/-- `_run_with_check_heartbeat` around `_preflight`. -/
def preflight (actionGeneration : Nat) :
    UpdaterM Unit (Container × Image × Image) := do
  request (.heartbeat actionGeneration) rfl
  let found ← target config
  let desired ← request .pull rfl
  pure (found.1, found.2, desired)

/-- A body whose failures are the failure of the check, and `none` then. -/
def reportingFailure {α : Type} (body : UpdateOutcomeRequest) (x : UpdaterM Unit α) :
    UpdaterM Unit (Option α) :=
  Run.tryCatch (do let a ← x; pure (some a)) fun e =>
    if e.isDocker || e.isUpdater then do
      outcome { body with outcome := .failed, detailCode := some e.code }
      pure none
    else Run.raise e

/-- `_stop_timeout`, raised to the floor of the recreated container. -/
def stopTimeout (c : Container) : Except Failure Int :=
  let value := c.config.stopTimeout.getD 10
  if 0 ≤ value ∧ value ≤ 300 then .ok (max value minimumStopTimeout)
  else .error (.updater "target_stop_timeout_unsupported")

/-- The specification is tried out before anything is claimed or stopped. -/
def planInstall (target : Container) (oldImage desired : Image) :
    UpdaterM Unit Int := do
  let timeout ← Run.ofExcept (stopTimeout target)
  let multi ← multiNetworkCreate
  match buildCandidateSpec target oldImage desired config.imageRef ⟨0, 0⟩ target.networks
      multi with
  | .error code => Run.raise (.docker code)
  | .ok _ => pure timeout

/-- The last part of `run_once`: claim the drain, record the operation and carry
    it out. -/
def beginInstall (generation : Nat) (target : Container)
    (oldImage desired : Image) (timeout : Int) : UpdaterM Unit Unit := do
  let claimed ← claimReady config ⟨false, some generation⟩
  match claimed with
  | none => pure ()
  | some lease =>
      match lease.leaseToken, lease.actionGeneration with
      | none, _ => raise "maintenance_claim_missing"
      | some _, none => raise "maintenance_generation_missing"
      | some token, some leaseGeneration => do
          let operation ← uuid4
          let st : UpdateState :=
            { operationId := operation
              stage := .prepared
              leaseToken := token
              actionGeneration := leaseGeneration
              targetId := target.id
              oldImageId := target.image
              oldDigest := some oldImage.digest
              oldBuild := oldImage.build
              desiredImageId := desired.id
              desiredDigest := desired.digest
              desiredBuild := desired.build
              networks := target.networks
              stopTimeoutSeconds := timeout }
          save st
          let renewed ← renew token (some .installing)
          if renewed.ready then
            Run.within st (executeInstall config target oldImage desired)
          else raise "maintenance_drain_lost"

/-- `run_once` without a record: check for an update, and install it where that
    is what was asked for. -/
def checkAndInstall : UpdaterM Unit Unit := do
  let eligibility ← request .eligibility rfl
  let generation := eligibility.actionGeneration
  if !dispatchStartsWork eligibility.action eligibility.blocker then pure ()
  else do
    let found ← reportingFailure { outcome := .failed, actionGeneration := generation }
      (preflight config generation)
    match found with
    | none => pure ()
    | some (target, oldImage, desired) =>
        if target.image = desired.id then
          outcome { outcome := .noUpdate, actionGeneration := generation,
                    currentDigest := some oldImage.digest, currentBuild := oldImage.build }
        else do
          outcome { outcome := .updateAvailable, actionGeneration := generation,
                    currentDigest := some oldImage.digest, availableDigest := some desired.digest,
                    currentBuild := oldImage.build, availableBuild := desired.build }
          if eligibility.action = .check then pure ()
          else do
            let planned ← reportingFailure
              { outcome := .failed, actionGeneration := generation,
                currentDigest := some oldImage.digest, currentBuild := oldImage.build }
              (planInstall config target oldImage desired)
            match planned with
            | none => pure ()
            | some timeout => beginInstall config generation target oldImage desired timeout

def runOnce : UpdaterM Unit Unit := do
  let pending ← request .load rfl
  match pending with
  | some st => Run.within st (resume config)
  | none => checkAndInstall config

def iteration : Program UpdaterOp UpdaterOp.Answer Unit :=
  (runOnce config ()).bind fun _ => .ret ()

/-- The updater and its surroundings: the requests of others come between any
    two of its operations, and each iteration looks at health anew. -/
def machine :
    Machine UpdaterOp UpdaterOp.Answer World Choice (Int × CoordinatorOp) where
  exec := exec
  event call w := (meanwhile [call] w.service).map fun r => { w with service := r.2 }
  boot w := { w with host := { w.host with observed := [] } }
  main := iteration config

end Updater

end PlexManager
