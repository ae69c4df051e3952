import PlexManager.Core.UpdateEndpoints
import PlexManager.Core.UpdateState
import PlexManager.Lib.Program

/-!
# The world of the updater

The sidecar acts on three things: the state file on its private volume, the
containers of the Docker daemon, and the coordinator behind its endpoints. This
module says what each operation does there and how it can go wrong.

A request to the daemon or to the coordinator may fail before it has had any
effect, or have its effect while the answer is lost or cannot be read. That a call
that has failed has no effect later is assumed: a daemon that goes on with a request
after the client has given it up is left out. Writing and removing the state file are
atomic and do not fail: where they do, the iteration ends there, and that is a
crash on one side of the operation or the other. Health is the daemon's to say:
each inspection is answered with any.

Besides what is really there the `Host` keeps a few things no code reads: the
containers as they were when an operation was first recorded, those an
inspection of the current run found healthy, and the outcomes the coordinator
has acknowledged, each under the operation whose record was on file.
-/

namespace PlexManager

namespace Updater

open Coordinator

/-! ### Failures -/

/-- The codes of a `CoordinatorError`. -/
inductive CoordinatorErrorCode where
  | conflict
  | unavailable
  | invalidResponse
  | invalidRecoveryGeneration
  deriving DecidableEq, Repr

inductive Failure where
  | coordinator (code : CoordinatorErrorCode)
  | docker (code : String)
  /-- `DockerNotFound`, a `DockerError` too. -/
  | dockerNotFound
  | updater (code : String)
  /-- `StateError`. -/
  | state
  deriving DecidableEq, Repr

def Failure.isDocker : Failure → Bool
  | .docker _ | .dockerNotFound => true
  | _ => false

def Failure.isUpdater : Failure → Bool
  | .updater _ => true
  | _ => false

def Failure.code : Failure → String
  | .coordinator .conflict => "coordinator_conflict"
  | .coordinator .unavailable => "coordinator_unavailable"
  | .coordinator .invalidResponse => "coordinator_invalid_response"
  | .coordinator .invalidRecoveryGeneration => "coordinator_invalid_recovery_generation"
  | .docker code => code
  | .dockerNotFound => "docker_object_not_found"
  | .updater code => code
  | .state => "updater_state_invalid"

/-! ### The world -/

/-- An outcome of an operation that the coordinator has acknowledged, and
    whether it was accepted from the holder of the drain. -/
structure OutcomeRecord where
  operation : OperationId
  outcome : Outcome
  accepted : Bool
  deriving DecidableEq, Repr

structure Host where
  containers : List Container
  /-- The daemon gives every container an id of its own. -/
  nextContainer : Nat
  file : Option UpdateState
  /-- The operation ids drawn so far. -/
  operations : List OperationId
  /-- The containers as they were when the operation on file was first recorded. -/
  baseline : List Container := []
  /-- The containers an inspection of this run found healthy. -/
  observed : List ContainerId := []
  outcomes : List OutcomeRecord := []
  deriving DecidableEq, Repr

structure World where
  host : Host
  service : Service
  deriving DecidableEq, Repr

/-! ### Operations -/

inductive ContainerRef where
  | name (name : ContainerName)
  | id (id : ContainerId)
  deriving DecidableEq, Repr

inductive Health where
  | missing
  | starting
  | healthy
  | unhealthy
  deriving DecidableEq, Repr

structure Inspection where
  container : Container
  /-- The status is `dead`, `exited` or `removing`. -/
  halted : Bool
  health : Health
  deriving DecidableEq, Repr

structure Eligibility where
  action : UpdateRecovery.RequestedAction
  actionGeneration : Nat
  blocker : Option String
  deriving DecidableEq, Repr

structure LeaseStatus where
  leaseToken : Option TokenHash
  ready : Bool
  leaseSeconds : Int
  blocker : Option String
  actionGeneration : Option Nat := none
  deriving DecidableEq, Repr

inductive UpdaterOp where
  | load
  | save (st : UpdateState)
  | clear
  | inspectContainer (ref : ContainerRef)
  | inspectImage (image : ImageId)
  | containersByLabels (operation : OperationId) (role : Role)
  | pull
  | createContainer (name : ContainerName) (spec : ContainerSpec)
  | stopContainer (id : ContainerId)
  | startContainer (id : ContainerId)
  | removeContainer (id : ContainerId) (force : Bool)
  | renameContainer (id : ContainerId) (name : ContainerName)
  | disconnectNetwork (network : String) (id : ContainerId)
  | connectNetwork (network : String) (id : ContainerId) (endpoint : NetworkEndpoint)
  /-- Whether the daemon's API can create with several networks. -/
  | multiNetworkCreate
  | eligibility
  | heartbeat (actionGeneration : Nat)
  | claim (body : UpdateClaimRequest)
  | renew (leaseToken : TokenHash) (phase : Option RenewPhase)
  | release (leaseToken : TokenHash)
  | outcome (body : UpdateOutcomeRequest)
  /-- Whether `loop.time()` has reached a deadline. -/
  | deadlinePassed
  | uuid4
  deriving DecidableEq, Repr

def UpdaterOp.Answer : UpdaterOp → Type
  | .load => Except Failure (Option UpdateState)
  | .save _ | .clear => Unit
  | .inspectContainer _ => Except Failure Inspection
  | .inspectImage _ | .pull => Except Failure Image
  | .containersByLabels _ _ => Except Failure (List Container)
  | .createContainer _ _ => Except Failure ContainerId
  | .stopContainer _ | .startContainer _ | .removeContainer _ _ | .renameContainer _ _
  | .disconnectNetwork _ _ | .connectNetwork _ _ _ => Except Failure Unit
  | .multiNetworkCreate => Except Failure Bool
  | .eligibility => Except Failure Eligibility
  | .claim _ | .renew _ _ => Except Failure LeaseStatus
  | .heartbeat _ | .release _ | .outcome _ => Except Failure Unit
  | .deadlinePassed => Bool
  | .uuid4 => OperationId

inductive Fault where
  | none
  /-- It fails before it has any effect. -/
  | lost
  /-- It takes effect and its answer is lost. -/
  | late
  /-- It takes effect and its answer cannot be read. -/
  | garbled
  deriving DecidableEq, Repr

/-- What the surroundings decide about one operation. -/
structure Choice where
  fault : Fault := .none
  /-- The code a failed request to the daemon is reported under. -/
  code : String := "docker_unavailable"
  visit : Visit := { now := 0 }
  image : Image := { id := 0 }
  health : Health := .healthy
  halted : Bool := false
  /-- The networks the daemon gives a container nobody asked for. -/
  attached : List (String × NetworkEndpoint) := []
  multiNetwork : Bool := true
  deadlinePassed : Bool := false
  operation : OperationId := ⟨0, 0⟩
  deriving DecidableEq, Repr

/-! ### The daemon -/

def findContainer (containers : List Container) : ContainerRef → Option Container
  | .name name => containers.find? fun c => c.name == name
  | .id id => containers.find? fun c => c.id == id

def updateContainer (containers : List Container) (id : ContainerId)
    (f : Container → Container) : List Container :=
  containers.map fun c => if c.id = id then f c else c

/-- A request to the daemon: its effect, unless it fails before. -/
def engineCall {α : Type} (choice : Choice) (h : Host)
    (effect : Host → Except Failure (α × Host)) : Except Failure α × Host :=
  match choice.fault, effect h with
  | .lost, _ => (.error (.docker choice.code), h)
  | _, .error e => (.error e, h)
  | .none, .ok (a, h') => (.ok a, h')
  | _, .ok (_, h') => (.error (.docker choice.code), h')

variable (id : ContainerId)

def onContainer (f : Container → Container) (h : Host) :
    Except Failure (Unit × Host) :=
  match findContainer h.containers (.id id) with
  | some _ => .ok ((), { h with containers := updateContainer h.containers id f })
  | none => .error .dockerNotFound

def inspectEffect (ref : ContainerRef) (choice : Choice) (h : Host) :
    Except Failure (Inspection × Host) :=
  match findContainer h.containers ref with
  | some c => .ok (⟨c, choice.halted, choice.health⟩, h)
  | none => .error .dockerNotFound

def noteHealth : Except Failure Inspection × Host → Except Failure Inspection × Host
  | (.ok seen, h) =>
      (.ok seen, if seen.health = .healthy then
        { h with observed := seen.container.id :: h.observed } else h)
  | (.error e, h) => (.error e, h)

def nameTaken (h : Host) (name : ContainerName) : Bool := h.containers.any (·.name == name)

def createEffect (name : ContainerName) (spec : ContainerSpec) (choice : Choice) (h : Host) :
    Except Failure (ContainerId × Host) :=
  if nameTaken h name then .error (.docker "docker_api_error")
  else .ok (h.nextContainer,
    { h with
      containers := h.containers ++ [
        { id := h.nextContainer
          name := name
          image := spec.image
          labels := spec.labels
          networks := spec.networks ++ choice.attached
          running := false
          config := spec.config }]
      nextContainer := h.nextContainer + 1 })

/-- Removal. A daemon that refuses, because the container runs and force is not
    asked for, is one of the faults. -/
def removeEffect (h : Host) : Except Failure (Unit × Host) :=
  match findContainer h.containers (.id id) with
  | some _ => .ok ((), { h with containers := h.containers.filter fun c => c.id != id })
  | none => .error .dockerNotFound

def renameEffect (name : ContainerName) (h : Host) :
    Except Failure (Unit × Host) :=
  if nameTaken h name then .error (.docker "docker_api_error")
  else onContainer id (fun c => { c with name := name }) h

/-! ### The coordinator -/

/-- What the client makes of an endpoint's answer: a 409 is a conflict, any
    other failure leaves it without an answer. -/
def clientAnswer {α : Type} (fault : Fault) (answer : Except Refusal α) : Except Failure α :=
  match fault, answer with
  | .none, .ok a => .ok a
  | .none, .error _ => .error (.coordinator .conflict)
  | .garbled, .ok _ => .error (.coordinator .invalidResponse)
  | _, _ => .error (.coordinator .unavailable)

/-- A request to the coordinator: what the endpoint does, unless the request
    never gets there. -/
def coordinatorCall {α : Type} (choice : Choice) (s : Service) (endpoint : Endpoint α) :
    Option (Except Failure α × Service) :=
  if choice.fault = .lost then some (.error (.coordinator .unavailable), s)
  else (endpoint s).map fun r => (clientAnswer choice.fault r.1, r.2)

def readClaim (response : UpdateClaimResponse) : Except Failure LeaseStatus :=
  if response.actionGeneration.isNone || (response.leaseToken.isNone && response.ready) then
    .error (.coordinator .invalidResponse)
  else .ok ⟨response.leaseToken, response.ready, response.leaseSeconds, response.blocker,
    response.actionGeneration⟩

/-- The outcomes on record after one was acknowledged: those of an install are
    noted under the operation on file. -/
def noteOutcome (body : UpdateOutcomeRequest) (accepted : Bool) (h : Host) : Host :=
  match body.leaseToken, h.file with
  | some _, some st =>
      { h with outcomes := ⟨st.operationId, body.outcome, accepted⟩ :: h.outcomes }
  | _, _ => h

/-- Report an outcome. What the coordinator acknowledges is on record, whether
    or not the sidecar learns of it. -/
def reportOutcome (choice : Choice) (body : UpdateOutcomeRequest) (w : World) :
    Option (Except Failure Unit × World) :=
  if choice.fault = .lost then some (.error (.coordinator .unavailable), w)
  else match outcomeEndpoint choice.visit body w.service with
    | none => none
    | some (.error e, s) =>
        some (clientAnswer choice.fault (.error e), { w with service := s })
    | some (.ok accepted, s) =>
        some (clientAnswer choice.fault (.ok ()),
          { host := noteOutcome body accepted w.host, service := s })

/-! ### Operations on the world -/

def onHost {α : Type} (w : World) (r : α × Host) : Option (α × World) :=
  some (r.1, { w with host := r.2 })

def onService {α : Type} (w : World) (r : Option (α × Service)) : Option (α × World) :=
  r.map fun r => (r.1, { w with service := r.2 })

/-- Replace the record. The first of an operation marks its baseline. -/
def saveRecord (st : UpdateState) (h : Host) : Host :=
  { h with
    file := some st
    baseline := if h.file.isNone then h.containers else h.baseline }

def loadRecord (h : Host) : Except Failure (Option UpdateState) :=
  match h.file with
  | none => .ok none
  | some st => match st.fromJson with
    | some st => .ok (some st)
    | none => .error .state

/-- One operation, as its surroundings decide. There is no successor where what
    they decide cannot happen. -/
def exec : (op : UpdaterOp) → Choice → World → Option (op.Answer × World)
  | .load, _, w => some (loadRecord w.host, w)
  | .save st, _, w => onHost w ((), saveRecord st w.host)
  | .clear, _, w => onHost w ((), { w.host with file := none })
  | .inspectContainer ref, choice, w =>
      onHost w (noteHealth (engineCall choice w.host (inspectEffect ref choice)))
  | .inspectImage image, choice, w =>
      onHost w (engineCall choice w.host fun h => .ok ({ choice.image with id := image }, h))
  | .containersByLabels operation role, choice, w =>
      onHost w (engineCall choice w.host fun h =>
        .ok (h.containers.filter fun c =>
          c.labels.operation == some operation && c.labels.role == some role, h))
  | .pull, choice, w => onHost w (engineCall choice w.host fun h => .ok (choice.image, h))
  | .createContainer name spec, choice, w =>
      onHost w (engineCall choice w.host (createEffect name spec choice))
  | .stopContainer id, choice, w =>
      onHost w (engineCall choice w.host (onContainer id fun c => { c with running := false }))
  | .startContainer id, choice, w =>
      onHost w (engineCall choice w.host (onContainer id fun c => { c with running := true }))
  | .removeContainer id _, choice, w =>
      onHost w (engineCall choice w.host (removeEffect id))
  | .renameContainer id name, choice, w =>
      onHost w (engineCall choice w.host (renameEffect id name))
  | .disconnectNetwork network id, choice, w =>
      onHost w (engineCall choice w.host (onContainer id fun c =>
        { c with networks := c.networks.filter fun entry => entry.1 != network }))
  | .connectNetwork network id endpoint, choice, w =>
      onHost w (engineCall choice w.host (onContainer id fun c =>
        { c with networks := c.networks ++ [(network, endpoint)] }))
  | .multiNetworkCreate, choice, w =>
      onHost w (engineCall choice w.host fun h => .ok (choice.multiNetwork, h))
  | .eligibility, choice, w =>
      onService w ((coordinatorCall choice w.service (eligibilityEndpoint choice.visit)).map
        fun r => (r.1.map fun e => ⟨e.action, e.actionGeneration, e.blocker⟩, r.2))
  | .heartbeat generation, choice, w =>
      onService w ((coordinatorCall choice w.service
        (heartbeatEndpoint choice.visit generation)).map fun r => (r.1.map fun _ => (), r.2))
  | .claim body, choice, w =>
      onService w ((coordinatorCall choice w.service (claimEndpoint choice.visit body)).map
        fun r => (r.1.bind readClaim, r.2))
  | .renew leaseToken phase, choice, w =>
      onService w ((coordinatorCall choice w.service
        (renewEndpoint choice.visit leaseToken phase)).map fun r =>
          (r.1.map fun l => ⟨some leaseToken, l.ready, l.leaseSeconds, l.blocker, none⟩, r.2))
  | .release leaseToken, choice, w =>
      onService w ((coordinatorCall choice w.service
        (releaseEndpoint choice.visit leaseToken)).map fun r => (r.1.map fun _ => (), r.2))
  | .outcome body, choice, w => reportOutcome choice body w
  | .deadlinePassed, choice, w => some (choice.deadlinePassed, w)
  | .uuid4, choice, w =>
      if w.host.operations.contains choice.operation then none
      else onHost w (choice.operation,
        { w.host with operations := choice.operation :: w.host.operations })

end Updater

end PlexManager
