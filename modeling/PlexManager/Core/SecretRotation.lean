import Mathlib.Data.Finset.Basic
import PlexManager.Lib.Program

/-!
# The secret rotation boundary

Whoever replaces a stored secret does so inside one boundary. It waits for a lock, says to
the handler that captures logs which values are about to be replaced, rewrites the history
of the log, lets the caller write, and commits. While it is under way the handler masks
more than is stored. When the boundary is left it masks what is stored again: after the
commit what is stored then, and where nothing has been committed what was stored before.

A request may be cancelled wherever it waits, and any step may fail. A rollback and the
commit run as tasks of their own, which nothing cancels. The request waits for such a task
until it is done, remembers the last cancellation that comes meanwhile, and raises it
afterwards.

What the boundary asks for is given by its `Parts`, so that the boundary is one program
for all who use it. The machine below runs the boundary by itself, one request after
another. Its `Choice` says for each step whether it fails or is cancelled there, what is
read, and which cancellations come while a task is waited for. What others have published
to the handler is seen when the lock is taken. A program that is cancelled in its own part
lets the cancellation through.
-/

namespace PlexManager

namespace SecretRotation

open Effects

/-! ### What is raised -/

/-- An exception of some step, an answer of an endpoint, `_PostCommitSweepError`, or a
    cancellation of the request. Exceptions and cancellations are told apart by numbers. -/
inductive Kind where
  | failure (id : Nat)
  | http (statusCode : Nat) (detail : String)
  | postCommitSweep
  | cancelled (id : Nat)
  deriving DecidableEq, Repr

structure Raised where
  kind : Kind
  causes : List Kind := []
  deriving DecidableEq, Repr

/-- `raise e from cause`. -/
def Raised.chained (e cause : Raised) : Raised :=
  { kind := e.kind, causes := cause.kind :: cause.causes }

/-- `asyncio.CancelledError`. -/
def Raised.cancelled (id : Nat) : Raised := { kind := .cancelled id }

def Raised.isCancelled (e : Raised) : Bool :=
  match e.kind with
  | .cancelled _ => true
  | .failure _ | .http _ _ | .postCommitSweep => false

/-! ### The boundary -/

inductive Work where
  | rollback
  | commitUnit
  deriving DecidableEq, Repr

/-- A `frozenset` of secrets. -/
abbrev Values := Finset String

section Boundary

variable {Op : Type} {Ans : Op → Type} {σ : Type}

abbrev Routine (Op : Type) (Ans : Op → Type) (σ A : Type) : Type := Run Op Ans Raised σ A

/-- What the boundary asks for: the session, the lock, the handler, the hooks of the
    caller and its body, and what tells of the tasks. -/
structure Parts (Op : Type) (Ans : Op → Type) (σ : Type) where
  launch : Work → Routine Op Ans σ Unit
  /-- The cancellations that have come before the task was done. -/
  settled : Routine Op Ans σ (List Nat)
  rollback : Routine Op Ans σ Unit
  commit : Routine Op Ans σ Unit
  acquire : Routine Op Ans σ Unit
  release : Routine Op Ans σ Unit
  preRewrite : Option (Routine Op Ans σ Unit)
  rereadRetiring : Option (Routine Op Ans σ Values)
  secretValues : Routine Op Ans σ Values
  /-- The same read, inside the task that commits. -/
  currentValues : Routine Op Ans σ Values
  beginSecretRotation : Values → Values → Routine Op Ans σ Values
  abortSecretRotation : Values → Routine Op Ans σ Unit
  completeSecretRotation : Values → Values → Values → Routine Op Ans σ Unit
  rewriteRedactableFields : Values → Routine Op Ans σ Unit
  body : Routine Op Ans σ Unit
  cancellationCheckpoint : Routine Op Ans σ Unit
  onCommitted : Option (Routine Op Ans σ Unit)

variable (P : Parts Op Ans σ)

open Run

/-- `_drive_to_completion`. The loop comes round once for each cancellation, and remembers
    the last one. -/
def driveToCompletion (work : Work) (operation : Routine Op Ans σ Unit) :
    Routine Op Ans σ (Option Raised × Option Raised) := do
  P.launch work
  let outcome ← attempt operation
  let delivered ← P.settled
  let operationError := match outcome with
    | .ok () => none
    | .error e => some e
  pure (operationError, delivered.getLast?.map Raised.cancelled)

/-- What is raised after a rollback. -/
def honor : Option Raised × Option Raised → Except Raised Unit
  | (some rollbackError, some pendingCancel) => .error (pendingCancel.chained rollbackError)
  | (some rollbackError, none) => .error rollbackError
  | (none, some pendingCancel) => .error pendingCancel
  | (none, none) => .ok ()

def rollbackToCompletion : Routine Op Ans σ Unit := do
  let outcome ← driveToCompletion P .rollback P.rollback
  ofExcept (honor outcome)

variable (retiringValues : Values) (previousValues : Option Values) (incomingValues : Values)

def commitAndComplete : Option Values → Routine Op Ans σ Unit
  | none => P.commit
  | some previousValues => do
      let currentValues ← P.currentValues
      P.commit
      tryCatch (P.completeSecretRotation previousValues currentValues retiringValues) fun e =>
        raise (Raised.chained { kind := .postCommitSweep } e)

def hook : Option (Routine Op Ans σ Unit) → Routine Op Ans σ Unit
  | none => pure ()
  | some routine => routine

/-- The values that retire, read again where the caller asks for it. -/
def retiring : Routine Op Ans σ Values :=
  match P.rereadRetiring with
  | none => pure retiringValues
  | some reread => reread

def widen : Routine Op Ans σ (Option Values) :=
  if retiringValues = ∅ ∧ incomingValues = ∅ then pure none
  else do
    let secretValues ← P.secretValues
    let previousValues ← P.beginSecretRotation (secretValues ∪ retiringValues ∪ incomingValues)
      retiringValues
    pure (some previousValues)

def restore : Option Values → Routine Op Ans σ Unit
  | none => pure ()
  | some previousValues => P.abortSecretRotation previousValues

def rewriteBeforeSecretReplacement (oldValues : Values) : Routine Op Ans σ Unit :=
  if oldValues = ∅ then pure () else P.rewriteRedactableFields oldValues

def redactHistory : Option Values → Routine Op Ans σ Unit
  | none => pure ()
  | some _ => rewriteBeforeSecretReplacement P retiringValues

def beforeCommit :
    Routine Op Ans σ Unit :=
  tryCatch
    (do redactHistory P retiringValues previousValues
        P.body
        P.cancellationCheckpoint)
    fun e => do
      restore P previousValues
      rollbackToCompletion P
      raise e

def notCommitted (unitError : Raised) (pendingCancel : Option Raised) :
    Routine Op Ans σ Unit := do
  restore P previousValues
  match pendingCancel with
  | none => do
      tryCatch (rollbackToCompletion P) fun e =>
        if e.isCancelled then raise (e.chained unitError) else raise (unitError.chained e)
      raise unitError
  | some cancel => do
      rollbackToCompletion P
      raise (cancel.chained unitError)

/-- `on_committed`, with what it raises. -/
def callback : Routine Op Ans σ (Option Raised) :=
  match P.onCommitted with
  | none => pure none
  | some onCommitted => do
      match ← attempt onCommitted with
      | .ok () => pure none
      | .error e => pure (some e)

def precedence (pendingCancel unitError callbackError : Option Raised) : Except Raised Unit :=
  match pendingCancel with
  | some cancel => match unitError.or callbackError with
    | some committedError => .error (cancel.chained committedError)
    | none => .error cancel
  | none => match unitError, callbackError with
    | some e, some cause => .error (e.chained cause)
    | some e, none => .error e
    | none, some e => .error e
    | none, none => .ok ()

def committed (unitError pendingCancel : Option Raised) : Routine Op Ans σ Unit := do
  let callbackError ← callback P
  ofExcept (precedence pendingCancel unitError callbackError)

def afterCommit :
    Option Raised × Option Raised → Routine Op Ans σ Unit
  | (some unitError, pendingCancel) =>
      if unitError.kind = .postCommitSweep then committed P (some unitError) pendingCancel
      else notCommitted P previousValues unitError pendingCancel
  | (none, pendingCancel) => committed P none pendingCancel

/-- What `secret_rotation` does while it has the lock. -/
def underLock : Routine Op Ans σ Unit := do
  rollbackToCompletion P
  hook P.preRewrite
  let retiringValues ← retiring P retiringValues
  let previousValues ← widen P retiringValues incomingValues
  beforeCommit P retiringValues previousValues
  let outcome ← driveToCompletion P .commitUnit (commitAndComplete P retiringValues previousValues)
  afterCommit P previousValues outcome

def secretRotation : Routine Op Ans σ Unit := do
  rollbackToCompletion P
  P.acquire
  andFinally (underLock P retiringValues incomingValues) P.release

end Boundary

/-! ### The handler -/

structure RedactionSnapshot where
  secretValues : Values := ∅
  retiringValues : Values := ∅
  deriving DecidableEq

/-- `begin_secret_rotation`, with the values to restore. -/
def RedactionSnapshot.beginSecretRotation (s : RedactionSnapshot)
    (secretValues retiringValues : Values) :
    Values × RedactionSnapshot :=
  (s.secretValues, { secretValues := s.secretValues ∪ secretValues, retiringValues })

def abortSecretRotation (previousValues : Values) : RedactionSnapshot :=
  { secretValues := previousValues }

/-- What `complete_secret_rotation` leaves. -/
def completeSecretRotation (currentValues : Values) : RedactionSnapshot :=
  { secretValues := currentValues }

/-! ### The boundary by itself -/

/-- The arguments of a caller, and which hooks it gives. -/
structure Request where
  retiringValues : Values := ∅
  incomingValues : Values := ∅
  preRewrite : Bool := false
  rereadRetiring : Bool := false
  onCommitted : Bool := false
  deriving DecidableEq

/-- What the handler masks, and what is on record of the last request: what the handler
    masked when the lock was taken, whether it holds the lock and has held it, which task
    is under way and whether it has failed, whether the commit has landed, how often the
    callback has run, whether the snapshot was restored, the cancellations, and how the
    boundary was left. -/
structure World where
  redaction : RedactionSnapshot
  request : Request := {}
  entry : RedactionSnapshot := {}
  holds : Bool := false
  taken : Bool := false
  inFlight : Option Work := none
  failed : Bool := false
  landed : Bool := false
  callbacks : Nat := 0
  restored : Bool := false
  delivered : List Nat := []
  exited : Option (Except Raised Unit) := none

inductive Op where
  | enter
  | launch (work : Work)
  | settled
  | rollback
  | commit
  | acquire
  | release
  | preRewrite
  | rereadRetiring
  | secretValues
  | currentValues
  | beginSecretRotation (secretValues retiringValues : Values)
  | abortSecretRotation (previousValues : Values)
  | completeSecretRotation (previousValues currentValues retiredValues : Values)
  | rewriteRedactableFields (oldValues : Values)
  | body
  | cancellationCheckpoint
  | onCommitted
  | exit (outcome : Except Raised Unit)

abbrev Op.Answer : Op → Type
  | .enter => Request
  | .settled => List Nat
  | .beginSecretRotation _ _ => Values
  | .rereadRetiring | .secretValues | .currentValues => Except Raised Values
  | .launch _ | .release | .abortSecretRotation _ | .exit _ => Unit
  | .rollback | .commit | .acquire | .preRewrite | .completeSecretRotation _ _ _
  | .rewriteRedactableFields _ | .body | .cancellationCheckpoint | .onCommitted =>
    Except Raised Unit

inductive Outcome where
  | done
  | fails (id : Nat)
  | cancelled (id : Nat)
  deriving DecidableEq, Repr

/-- What is decided about a step: how it ends, what is read, which cancellations come while
    a task is waited for, what others have published, and who comes next. -/
structure Choice where
  outcome : Outcome := .done
  values : Values := ∅
  delivered : List Nat := []
  others : RedactionSnapshot := {}
  request : Request := {}
  deriving DecidableEq

/-- A step that the request waits for itself. -/
def awaited {A : Type} (c : Choice) (w : World) (a : A) : Option (Except Raised A × World) :=
  match c.outcome with
  | .done => some (.ok a, w)
  | .fails id => some (.error { kind := .failure id }, w)
  | .cancelled id =>
      some (.error (Raised.cancelled id), { w with delivered := w.delivered ++ [id] })

def waited (c : Choice) (w w' : World) : Option (Except Raised Unit × World) :=
  match c.outcome with
  | .done => some (.ok (), w')
  | .fails _ => none
  | .cancelled id =>
      some (.error (Raised.cancelled id), { w with delivered := w.delivered ++ [id] })

def undisturbed {A : Type} (c : Choice) (w : World) (a : A) (w' : World) :
    Option (Except Raised A × World) :=
  match c.outcome with
  | .done => some (.ok a, w')
  | .fails id => some (.error { kind := .failure id }, { w with failed := true })
  | .cancelled _ => none

/-- A call, which is not waited for. It has been made also where it fails. -/
def called (c : Choice) (w' : World) : Option (Except Raised Unit × World) :=
  match c.outcome with
  | .done => some (.ok (), w')
  | .fails id => some (.error { kind := .failure id }, w')
  | .cancelled _ => none

def exec : (op : Op) → Choice → World → Option (op.Answer × World)
  | .enter, c, w =>
      some (c.request, { redaction := w.redaction, request := c.request, entry := w.redaction })
  | .launch work, _, w => some ((), { w with inFlight := some work, failed := false })
  | .settled, c, w =>
      some (c.delivered, { w with inFlight := none, delivered := w.delivered ++ c.delivered })
  | .rollback, c, w => undisturbed c w () w
  | .commit, c, w => undisturbed c w () { w with landed := true }
  | .acquire, c, w =>
      waited c w { w with holds := true, taken := true, redaction := c.others, entry := c.others }
  | .release, _, w => some ((), { w with holds := false })
  | .preRewrite, c, w => awaited c w ()
  | .rereadRetiring, c, w => awaited c w c.values
  | .secretValues, c, w => awaited c w c.values
  | .currentValues, c, w => undisturbed c w c.values w
  | .beginSecretRotation secretValues retiringValues, _, w =>
      let r := w.redaction.beginSecretRotation secretValues retiringValues
      some (r.1, { w with redaction := r.2 })
  | .abortSecretRotation previousValues, _, w =>
      some ((), { w with redaction := abortSecretRotation previousValues, restored := true })
  | .completeSecretRotation _ currentValues _, c, w =>
      undisturbed c w () { w with redaction := completeSecretRotation currentValues }
  | .rewriteRedactableFields _, c, w => awaited c w ()
  | .body, c, w => awaited c w ()
  | .cancellationCheckpoint, c, w => waited c w w
  | .onCommitted, c, w => called c { w with callbacks := w.callbacks + 1 }
  | .exit outcome, _, w => some ((), { w with exited := some outcome })

abbrev Step := Routine Op Op.Answer Unit

def orRaise {A : Type} (step : Step (Except Raised A)) : Step A := step >>= Run.ofExcept

def parts (q : Request) : Parts Op Op.Answer Unit where
  launch work := Run.perform (Op.launch work)
  settled := Run.perform Op.settled
  rollback := orRaise (Run.perform Op.rollback)
  commit := orRaise (Run.perform Op.commit)
  acquire := orRaise (Run.perform Op.acquire)
  release := Run.perform Op.release
  preRewrite := if q.preRewrite then some (orRaise (Run.perform Op.preRewrite)) else none
  rereadRetiring := if q.rereadRetiring then some (orRaise (Run.perform Op.rereadRetiring))
    else none
  secretValues := orRaise (Run.perform Op.secretValues)
  currentValues := orRaise (Run.perform Op.currentValues)
  beginSecretRotation secretValues retiringValues :=
    Run.perform (Op.beginSecretRotation secretValues retiringValues)
  abortSecretRotation previousValues := Run.perform (Op.abortSecretRotation previousValues)
  completeSecretRotation previousValues currentValues retiredValues :=
    orRaise (Run.perform (Op.completeSecretRotation previousValues currentValues retiredValues))
  rewriteRedactableFields oldValues := orRaise (Run.perform (Op.rewriteRedactableFields oldValues))
  body := orRaise (Run.perform Op.body)
  cancellationCheckpoint := orRaise (Run.perform Op.cancellationCheckpoint)
  onCommitted := if q.onCommitted then some (orRaise (Run.perform Op.onCommitted)) else none

def serve : Step Unit := do
  let q ← (Run.perform Op.enter : Step Request)
  let outcome ← Run.attempt (secretRotation (parts q) q.retiringValues q.incomingValues)
  Run.perform (Op.exit outcome)

def machine : Machine Op Op.Answer World Choice Empty where
  exec := exec
  event e := nomatch e
  boot w := w
  main := (serve ()).bind fun _ => .ret ()

abbrev Server := System Op Op.Answer World

end SecretRotation

end PlexManager
