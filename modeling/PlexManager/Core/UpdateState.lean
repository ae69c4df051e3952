import PlexManager.Core.Coordinator

/-!
# The updater's record and what it is about

The sidecar replaces one container by another, and while it does so it keeps a
record of how far it has got in a file of its own: it is all that a restarted
sidecar knows. This module has the record with the check its loading makes, and
the Docker objects it speaks of, as far as the updater looks at them.

A container's name is one the updater forms or any other; the names it forms
carry the first twelve digits of the operation. Of the labels the four of the
updater are kept, and of the rest of a container's configuration what the
specification builders can refuse to copy. The two builders give the container
that takes over the target's place: with the new image as the candidate of an
operation, or with the old one as its rollback clone.
-/

namespace PlexManager

namespace Updater

open Coordinator (TokenHash)

/-- `uuid.uuid4().hex`: the first twelve digits, which container names carry,
    and the rest. -/
structure OperationId where
  head : Nat
  tail : Nat
  deriving DecidableEq, Repr

abbrev ContainerId := Nat

abbrev ImageId := Nat

/-- The configured name, the two names the updater forms from it for an
    operation, and every other name. -/
inductive ContainerName where
  | configured
  | candidate (head : Nat)
  | previous (head : Nat)
  | other (n : Nat)
  deriving DecidableEq, Repr

inductive Role where
  | candidate
  | rollback
  deriving DecidableEq, Repr

/-- The labels the updater reads. A text that is no operation or no role is as
    good as none. -/
structure Labels where
  target : Option String := none
  imageRef : Option String := none
  operation : Option OperationId := none
  role : Option Role := none
  deriving DecidableEq, Repr

/-- An endpoint as it is captured and asked for again. -/
structure NetworkEndpoint where
  macAddress : Option String := none
  deriving DecidableEq, Repr

/-- The rest of a container's configuration, as far as it decides whether it can
    be copied. -/
structure ContainerConfig where
  /-- The command of an enabled health check. -/
  healthcheck : Option String
  stopTimeout : Option Int := none
  autoRemove : Bool := false
  networkMode : String := "bridge"
  /-- The code with which the copying of some other part of it, its environment
      or labels or mounts or ports or endpoints, is refused. -/
  refusal : Option String := none
  deriving DecidableEq, Repr

structure Container where
  id : ContainerId
  name : ContainerName
  image : ImageId
  labels : Labels
  networks : List (String × NetworkEndpoint)
  /-- Whether the engine was last told to run it. -/
  running : Bool
  config : ContainerConfig
  deriving DecidableEq, Repr

structure Image where
  id : ImageId
  digest : String := ""
  build : Option String := none
  healthcheck : Option String := none
  deriving DecidableEq, Repr

inductive UpdateStage where
  | prepared
  | stopRequested
  | oldStopped
  | oldDisconnected
  | candidateCreated
  | candidateStarted
  | candidateHealthy
  | oldRenamed
  | candidateRenamed
  | outcomeAcknowledged
  | rollbackRequested
  | rollbackCreated
  | rollbackNetworked
  | rollbackStarted
  | rollbackHealthy
  | rollbackAcknowledged
  deriving DecidableEq, Repr

/-- `_CANDIDATE_STAGES`. -/
def UpdateStage.needsCandidate : UpdateStage → Bool
  | .candidateCreated | .candidateStarted | .candidateHealthy | .oldRenamed
  | .candidateRenamed | .outcomeAcknowledged => true
  | _ => false

/-- `_ROLLBACK_STAGES`. -/
def UpdateStage.needsRollback : UpdateStage → Bool
  | .rollbackCreated | .rollbackNetworked | .rollbackStarted | .rollbackHealthy
  | .rollbackAcknowledged => true
  | _ => false

/-- `stage.startswith("rollback_")`. -/
def UpdateStage.isRollback : UpdateStage → Bool
  | .rollbackRequested => true
  | stage => stage.needsRollback

/-- `_OFFLINE_ROLLBACK_STAGES`. -/
def UpdateStage.offlineRollback : UpdateStage → Bool
  | .stopRequested | .oldStopped | .oldDisconnected | .candidateCreated | .candidateStarted
  | .rollbackRequested | .rollbackCreated | .rollbackNetworked | .rollbackStarted => true
  | _ => false

/-- The write-ahead record of one install attempt. -/
structure UpdateState where
  operationId : OperationId
  stage : UpdateStage
  leaseToken : TokenHash
  actionGeneration : Nat
  targetId : ContainerId
  oldImageId : ImageId
  oldDigest : Option String
  oldBuild : Option String
  desiredImageId : ImageId
  desiredDigest : String
  desiredBuild : Option String
  networks : List (String × NetworkEndpoint)
  stopTimeoutSeconds : Int
  candidateId : Option ContainerId := none
  rollbackId : Option ContainerId := none
  detailCode : Option String := none
  deriving DecidableEq, Repr

/-- What `from_json` still checks of a record the updater itself has written. -/
def UpdateState.fromJson (st : UpdateState) : Option UpdateState :=
  if !(decide (0 ≤ st.stopTimeoutSeconds) && decide (st.stopTimeoutSeconds ≤ 300)) then none
  else if st.stage.needsCandidate && st.candidateId.isNone then none
  else if st.stage.needsRollback && st.rollbackId.isNone then none
  else some st

/-! ### Recreation -/

/-- The payload of `create_container`. -/
structure ContainerSpec where
  image : ImageId
  labels : Labels
  networks : List (String × NetworkEndpoint)
  config : ContainerConfig
  deriving DecidableEq, Repr

def minimumStopTimeout : Int := 75

def enabledHealthcheck (healthcheck : Option String) : Bool := healthcheck.isSome

/-- `_base_config`: the copied configuration, with a longer stop timeout where
    it was short. -/
def baseConfig (config : ContainerConfig) : ContainerConfig :=
  { config with stopTimeout := some (max (config.stopTimeout.getD 10) minimumStopTimeout) }

/-- The updater's labels on a container it creates. -/
def operationLabels (imageRef : String) (operation : OperationId) (role : Role) : Labels where
  target := some "true"
  imageRef := some imageRef
  operation := some operation
  role := some role

def primaryNetwork (networkMode : String) (networks : List (String × NetworkEndpoint)) :
    Option String :=
  let known (name : String) := (networks.any (·.1 == name))
  if networkMode = "host" ∨ networkMode = "none" then none
  else if networkMode = "" ∨ networkMode = "default" ∨ networkMode = "bridge" then
    if known "bridge" then some "bridge" else none
  else if known networkMode then some networkMode
  else none

/-- `_with_networking`: the endpoints the container is created with. The others
    are connected afterwards, which cannot be done with an address of their
    own. -/
def withNetworking (networkMode : String) (networks : List (String × NetworkEndpoint))
    (multiNetworkCreate : Bool) : Except String (List (String × NetworkEndpoint)) :=
  if multiNetworkCreate && !networks.isEmpty then .ok networks
  else
    let primary := primaryNetwork networkMode networks
    if networks.any fun entry => some entry.1 != primary && entry.2.macAddress.isSome then
      .error "docker_secondary_mac_unsupported"
    else .ok (networks.filter fun entry => some entry.1 == primary)

/-- `_host_config`, and whatever else of the configuration has to be copied. -/
def copyConfig (config : ContainerConfig) : Except String Unit :=
  if let some code := config.refusal then .error code
  else if config.autoRemove then .error "target_auto_remove_unsupported"
  else .ok ()

/-- The container that takes the target's place with the new image. A health
    check that came from the old image is replaced by that of the new one. -/
def buildCandidateSpec (container : Container) (oldImage newImage : Image) (imageRef : String)
    (operation : OperationId) (networks : List (String × NetworkEndpoint))
    (multiNetworkCreate : Bool) : Except String (ContainerSpec × List String) := do
  let healthcheck :=
    if container.config.healthcheck = oldImage.healthcheck then newImage.healthcheck
    else container.config.healthcheck
  if !enabledHealthcheck healthcheck then
    throw "target_healthcheck_missing"
  copyConfig container.config
  let created ← withNetworking container.config.networkMode networks multiNetworkCreate
  return (
    { image := newImage.id
      labels := operationLabels imageRef operation .candidate
      networks := created
      config := { baseConfig container.config with healthcheck := healthcheck } },
    created.map (·.1))

variable {container : Container} {oldImage : Image} {imageRef : String} {operation : OperationId}
  {networks : List (String × NetworkEndpoint)} {spec : ContainerSpec} {created : List String}

theorem buildCandidateSpec_eq_ok {newImage : Image} {multi : Bool}
    (h : buildCandidateSpec container oldImage newImage imageRef operation networks multi =
      .ok (spec, created)) :
    spec.image = newImage.id ∧ spec.labels = operationLabels imageRef operation .candidate := by
  unfold buildCandidateSpec at h
  dsimp only [bind, Except.bind, pure, Except.pure, throw, throwThe, MonadExceptOf.throw] at h
  generalize (if container.config.healthcheck = oldImage.healthcheck then newImage.healthcheck
    else container.config.healthcheck) = healthcheck at h
  split at h
  · exact nomatch h
  split at h
  · exact nomatch h
  split at h
  · exact nomatch h
  simp only [Except.ok.injEq, Prod.mk.injEq] at h
  rw [← h.1]
  exact ⟨rfl, rfl⟩

/-- The container that takes the target's place with the old image again. -/
def buildRollbackSpec (container : Container) (oldImage : Image) (imageRef : String)
    (operation : OperationId) (networks : List (String × NetworkEndpoint))
    (multiNetworkCreate : Bool) : Except String (ContainerSpec × List String) := do
  if !enabledHealthcheck container.config.healthcheck then
    throw "target_healthcheck_missing"
  copyConfig container.config
  let created ← withNetworking container.config.networkMode networks multiNetworkCreate
  return (
    { image := oldImage.id
      labels := operationLabels imageRef operation .rollback
      networks := created
      config := baseConfig container.config },
    created.map (·.1))

theorem buildRollbackSpec_eq_ok {multi : Bool}
    (h : buildRollbackSpec container oldImage imageRef operation networks multi =
      .ok (spec, created)) :
    spec.image = oldImage.id ∧ spec.labels = operationLabels imageRef operation .rollback := by
  unfold buildRollbackSpec at h
  dsimp only [bind, Except.bind, pure, Except.pure, throw, throwThe, MonadExceptOf.throw] at h
  split at h
  · exact nomatch h
  split at h
  · exact nomatch h
  split at h
  · exact nomatch h
  simp only [Except.ok.injEq, Prod.mk.injEq] at h
  rw [← h.1]
  exact ⟨rfl, rfl⟩

def remainingNetworks (networks : List (String × NetworkEndpoint)) (created : List String) :
    List (String × NetworkEndpoint) :=
  networks.filter fun entry => !created.contains entry.1

end Updater

end PlexManager
