import PlexManager.Core.UpdateState
import PlexManager.Lib.Json

/-!
# The state file

What `StateStore` writes is a JSON object, and `UpdateState.from_json` takes nothing for
granted when it is read: it checks the kind of every field and whether the stage has the
containers it needs.

`StateRecord` is the dataclass as it is in the file, with texts for identifiers. The
updater's own record keeps numbers for them, and `Spelling` says which texts they stand
for. None of the texts is empty: a container without an id is refused, an image id has a
prefix, what is read for a digest is one of the two, a lease token has a length, and an
operation is drawn as 32 digits. The ports a container had are kept with the operation,
since nothing looks at them in between. Names and settings of networks are put into a
dictionary one by one, as they are when they are captured.

Numbers with a fraction are left out of what an engine may say of a network.
-/

namespace PlexManager

namespace Updater

open Coordinator (TokenHash)
open JsonText

def UpdateStage.text : UpdateStage → String
  | .prepared => "prepared"
  | .stopRequested => "stop_requested"
  | .oldStopped => "old_stopped"
  | .oldDisconnected => "old_disconnected"
  | .candidateCreated => "candidate_created"
  | .candidateStarted => "candidate_started"
  | .candidateHealthy => "candidate_healthy"
  | .oldRenamed => "old_renamed"
  | .candidateRenamed => "candidate_renamed"
  | .outcomeAcknowledged => "outcome_acknowledged"
  | .rollbackRequested => "rollback_requested"
  | .rollbackCreated => "rollback_created"
  | .rollbackNetworked => "rollback_networked"
  | .rollbackStarted => "rollback_started"
  | .rollbackHealthy => "rollback_healthy"
  | .rollbackAcknowledged => "rollback_acknowledged"

def stages : List UpdateStage :=
  [.prepared, .stopRequested, .oldStopped, .oldDisconnected, .candidateCreated,
    .candidateStarted, .candidateHealthy, .oldRenamed, .candidateRenamed,
    .outcomeAcknowledged, .rollbackRequested, .rollbackCreated, .rollbackNetworked,
    .rollbackStarted, .rollbackHealthy, .rollbackAcknowledged]

def stageOfText (text : String) : Option UpdateStage := stages.find? fun stage => stage.text = text

abbrev Fields := List (String × Json)

structure StateRecord where
  version : Int
  operationId : String
  operation : String
  stage : UpdateStage
  leaseToken : String
  actionGeneration : Int
  targetId : String
  oldImageId : String
  oldDigest : Option String
  oldBuild : Option String
  desiredImageId : String
  desiredDigest : String
  desiredBuild : Option String
  networks : Fields
  portBindings : Fields
  stopTimeoutSeconds : Int := 10
  candidateId : Option String := none
  rollbackId : Option String := none
  detailCode : Option String := none

/-- `str | None`. -/
def optional : Option String → Json
  | none => .null
  | some text => .str text

def StateRecord.asdict (r : StateRecord) : Fields :=
  [("version", .int r.version), ("operation_id", .str r.operationId),
    ("operation", .str r.operation), ("stage", .str r.stage.text),
    ("lease_token", .str r.leaseToken), ("action_generation", .int r.actionGeneration),
    ("target_id", .str r.targetId), ("old_image_id", .str r.oldImageId),
    ("old_digest", optional r.oldDigest), ("old_build", optional r.oldBuild),
    ("desired_image_id", .str r.desiredImageId), ("desired_digest", .str r.desiredDigest),
    ("desired_build", optional r.desiredBuild), ("networks", .obj r.networks),
    ("port_bindings", .obj r.portBindings), ("stop_timeout_seconds", .int r.stopTimeoutSeconds),
    ("candidate_id", optional r.candidateId), ("rollback_id", optional r.rollbackId),
    ("detail_code", optional r.detailCode)]

/-! ### The checks -/

def lookup (data : Fields) (key : String) : Option Json :=
  (data.find? fun m => m.1 = key).map Prod.snd

def textOf : Json → Option String
  | .str text => some text
  | _ => none

/-- A number that is no truth value. -/
def intOf : Json → Option Int
  | .int n => some n
  | _ => none

def dictOf : Json → Option Fields
  | .obj members => some members
  | _ => none

variable (get : String → Option Json)

def requiredText (key : String) : Option String :=
  ((get key).bind textOf).filter fun text => text ≠ ""

def optionalText (key : String) : Option (Option String) :=
  match get key with
  | none | some .null => some none
  | some (.str text) => some (some text)
  | some _ => none

/-- `value == 1`, which `True` is too. -/
def isOne : Json → Bool
  | .int n => n = 1
  | .bool b => b
  | _ => false

def requiredStrings : List String :=
  ["operation_id", "stage", "lease_token", "target_id", "old_image_id", "desired_image_id",
    "desired_digest"]

def optionalStrings : List String :=
  ["old_digest", "old_build", "desired_build", "candidate_id", "rollback_id", "detail_code"]

def recordOf (stage : UpdateStage) (networks portBindings : Fields)
    (generation stopTimeout : Int) : StateRecord where
  version := 1
  operationId := (requiredText get "operation_id").getD ""
  operation := "install"
  stage := stage
  leaseToken := (requiredText get "lease_token").getD ""
  actionGeneration := generation
  targetId := (requiredText get "target_id").getD ""
  oldImageId := (requiredText get "old_image_id").getD ""
  oldDigest := (optionalText get "old_digest").getD none
  oldBuild := (optionalText get "old_build").getD none
  desiredImageId := (requiredText get "desired_image_id").getD ""
  desiredDigest := (requiredText get "desired_digest").getD ""
  desiredBuild := (optionalText get "desired_build").getD none
  networks := networks
  portBindings := portBindings
  stopTimeoutSeconds := stopTimeout
  candidateId := (optionalText get "candidate_id").getD none
  rollbackId := (optionalText get "rollback_id").getD none
  detailCode := (optionalText get "detail_code").getD none

def checkStage (networks portBindings : Fields)
    (generation stopTimeout : Int) : Except String StateRecord :=
  match (requiredText get "stage").bind stageOfText with
  | none => .error "updater state has an unknown stage"
  | some stage =>
      match optionalStrings.find? fun key => (optionalText get key).isNone with
      | some key => .error ("updater state field " ++ key ++ " is invalid")
      | none =>
          if stage.needsCandidate && ((get "candidate_id").bind textOf).isNone then
            .error "updater state stage requires a candidate container"
          else if stage.needsRollback && ((get "rollback_id").bind textOf).isNone then
            .error "updater state stage requires a rollback container"
          else .ok (recordOf get stage networks portBindings generation stopTimeout)

/-- `from_json` of the fields of an object. -/
def fromData : Except String StateRecord :=
  if ¬(((get "version").any isOne) = true ∧ (get "operation").bind textOf = some "install") then
    .error "unsupported updater state version or operation"
  else if requiredStrings.any fun key => (requiredText get key).isNone then
    .error "updater state is missing required identifiers"
  else
    match (get "networks").bind dictOf with
    | none => .error "updater state has invalid network data"
    | some networks =>
        match ((get "action_generation").bind intOf).filter (0 ≤ ·) with
        | none => .error "updater state has invalid action generation"
        | some generation =>
            match (get "port_bindings").bind dictOf with
            | none => .error "updater state has invalid port bindings"
            | some portBindings =>
                match (intOf ((get "stop_timeout_seconds").getD (.int 10))).filter
                    fun n => 0 ≤ n ∧ n ≤ 300 with
                | none => .error "updater state has invalid stop timeout"
                | some stopTimeout =>
                    checkStage get networks portBindings generation stopTimeout

def StateRecord.fromJson : Json → Except String StateRecord
  | .obj data => fromData (lookup data)
  | _ => .error "updater state must be a JSON object"

/-! ### The file -/

/-- The payload of `StateStore.save`. -/
def saveText (r : StateRecord) : List Char := render (sortKeys (.obj r.asdict)) ++ ['\n']

/-- `StateStore.load` of what it has read. -/
def loadText (raw : List Char) : Except String StateRecord :=
  match loads raw with
  | none => .error "updater state is corrupt"
  | some value => StateRecord.fromJson value

/-! ### The updater's record -/

abbrev Text := { text : String // text ≠ "" }

/-- The texts that stand for what the updater's record has. -/
structure Spelling where
  operation : OperationId → Text
  token : TokenHash → Text
  container : ContainerId → Text
  image : ImageId → Text
  digest : String → Text
  endpoint : NetworkEndpoint → { settings : Json // WellFormed settings }
  portBindings : OperationId → { ports : Fields // WellFormed (.obj ports) }

/-- `capture_networks`: one name after another is put in. -/
def Spelling.networks (spelling : Spelling) (networks : List (String × NetworkEndpoint)) :
    Fields :=
  ofPairs (networks.map fun entry => (entry.1, (spelling.endpoint entry.2).val))

def Spelling.record (spelling : Spelling) (st : UpdateState) : StateRecord where
  version := 1
  operationId := (spelling.operation st.operationId).val
  operation := "install"
  stage := st.stage
  leaseToken := (spelling.token st.leaseToken).val
  actionGeneration := st.actionGeneration
  targetId := (spelling.container st.targetId).val
  oldImageId := (spelling.image st.oldImageId).val
  oldDigest := st.oldDigest.map fun digest => (spelling.digest digest).val
  oldBuild := st.oldBuild
  desiredImageId := (spelling.image st.desiredImageId).val
  desiredDigest := (spelling.digest st.desiredDigest).val
  desiredBuild := st.desiredBuild
  networks := spelling.networks st.networks
  portBindings := (spelling.portBindings st.operationId).val
  stopTimeoutSeconds := st.stopTimeoutSeconds
  candidateId := st.candidateId.map fun id => (spelling.container id).val
  rollbackId := st.rollbackId.map fun id => (spelling.container id).val
  detailCode := st.detailCode

end Updater

end PlexManager
