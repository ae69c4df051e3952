import Mathlib.Logic.Function.Basic
import PlexManager.Core.SecretRotation

/-!
# Log capture

A thread that logs hands the record to the event loop. The loop puts it into a queue, and a
tick of the drain loop takes all that is queued, inserts it and commits. What cannot be put
or stored is counted. A rotation of secrets rewrites what is queued.

The tail of the log that is shown live is kept by itself, and left out here.
-/

namespace PlexManager

namespace LogCapture

open SecretRotation

/-- What a drain writes of it are the same fields. -/
structure CapturedLogRecord (κ : Type) where
  createdAt : Int
  level : String
  logger : String
  message : String
  context : κ
  deriving DecidableEq, Repr

/-- A captured record, with its thread and the number it has there. -/
structure Emission (κ : Type) where
  thread : Nat
  index : Nat
  record : CapturedLogRecord κ
  deriving DecidableEq, Repr

def Emission.key {κ : Type} (e : Emission κ) : Nat × Nat := (e.thread, e.index)

/-- A handler for the records of a logger, with contexts of one type. -/
structure Capturing (ρ κ : Type) where
  levelno : ρ → Int
  /-- `_capture`, or `none` where it raises. -/
  capture : ρ → RedactionSnapshot → Option (CapturedLogRecord κ)
  redactRetiredLogMessage : String → Values → Values → String
  redactRetiredLogContext : κ → Values → Values → κ
  queueMaxsize : Nat

/-- The batch of a tick, while it is inserted and while it is committed. -/
inductive Tick (κ : Type) where
  | waiting
  | inserting (batch : List (Emission κ))
  | committing (batch : List (Emission κ))
  | ended

def Tick.held {κ : Type} : Tick κ → List (Emission κ)
  | waiting | ended => []
  | inserting batch | committing batch => batch

/-- What a thread is about to hand over, the callbacks of the loop, the queue, the tick, and
    the rows. On record is what was handed over, and what was counted. -/
structure World (κ : Type) where
  redaction : RedactionSnapshot := {}
  count : Nat → Nat := fun _ => 0
  pending : Nat → Option (Emission κ) := fun _ => none
  scheduled : List (Emission κ) := []
  queue : List (Emission κ) := []
  tick : Tick κ := .waiting
  rows : List (Emission κ) := []
  droppedCount : Nat := 0
  handed : List (Nat × Nat) := []
  counted : List (Nat × Nat) := []

inductive Outcome where
  | done
  | failed
  | cancelled
  deriving DecidableEq, Repr

inductive Action (ρ : Type) where
  | emit (thread : Nat) (record : ρ)
  | callSoonThreadsafe (thread : Nat) (closed : Bool)
  | enqueue
  | beginSecretRotation (secretValues retiringValues : Values)
  | abortSecretRotation (previousValues : Values)
  | completeSecretRotation (previousValues currentValues retiredValues : Values)
  | refresh (secretValues : Values)
  | drainOnce
  | createMany (outcome : Outcome)
  /-- A commit that is cancelled may have landed. -/
  | commit (outcome : Outcome) (landed : Bool)

section

variable {ρ κ : Type} (c : Capturing ρ κ) (w : World κ)

def info : Int := 20

/-- `emit`, until the record is handed over. -/
def emit (thread : Nat) (record : ρ) : World κ :=
  match c.capture record w.redaction with
  | none => w
  | some captured =>
      if c.levelno record < info then w
      else
        { w with
          pending := Function.update w.pending thread (some ⟨thread, w.count thread, captured⟩) }

/-- The rest of `emit`. A loop that is closed takes nothing. -/
def handOver (thread : Nat) (closed : Bool) (e : Emission κ) : World κ :=
  let w :=
    { w with
      pending := Function.update w.pending thread none
      count := Function.update w.count thread (w.count thread + 1) }
  if closed then w else { w with scheduled := w.scheduled ++ [e], handed := w.handed ++ [e.key] }

def drop (lost : List (Emission κ)) : World κ :=
  { w with
    droppedCount := w.droppedCount + lost.length
    counted := w.counted ++ lost.map Emission.key }

/-- `_enqueue`, of the first callback. -/
def enqueue (e : Emission κ) (rest : List (Emission κ)) : World κ :=
  let w := { w with scheduled := rest }
  if 0 < c.queueMaxsize ∧ c.queueMaxsize ≤ w.queue.length then drop w [e]
  else { w with queue := w.queue ++ [e] }

/-- What `complete_secret_rotation` makes of a queued record. -/
def Emission.redacted (retiredValues union : Values) (e : Emission κ) : Emission κ :=
  { e with
    record :=
      { e.record with
        message := c.redactRetiredLogMessage e.record.message retiredValues union
        context := c.redactRetiredLogContext e.record.context retiredValues union } }

/-- `drain_once`, until the insert, which an empty batch is spared. -/
def drainOnce : World κ :=
  { w with queue := [], tick := if w.queue = [] then .committing [] else .inserting w.queue }

/-- The insert of `drain_once`. A cancellation is no `Exception`. -/
def createMany (batch : List (Emission κ)) : Outcome → World κ
  | .done => { w with tick := .committing batch }
  | .failed => drop { w with tick := .waiting } batch
  | .cancelled => { w with tick := .ended }

/-- The commit in `_log_drain_loop`. -/
def commit (batch : List (Emission κ)) (landed : Bool) : Outcome → World κ
  | .done => { w with tick := .waiting, rows := w.rows ++ batch }
  | .failed => drop { w with tick := .waiting } batch
  | .cancelled => { w with tick := .ended, rows := if landed then w.rows ++ batch else w.rows }

def step : Action ρ → Option (World κ)
  | .emit thread record =>
      match w.pending thread with
      | none => some (emit c w thread record)
      | some _ => none
  | .callSoonThreadsafe thread closed => (w.pending thread).map (handOver w thread closed)
  | .enqueue =>
      match w.scheduled with
      | [] => none
      | e :: rest => some (enqueue c w e rest)
  | .beginSecretRotation secretValues retiringValues =>
      some { w with redaction := (w.redaction.beginSecretRotation secretValues retiringValues).2 }
  | .abortSecretRotation previousValues =>
      some { w with redaction := SecretRotation.abortSecretRotation previousValues }
  | .completeSecretRotation previousValues currentValues retiredValues =>
      some
        { w with
          queue := w.queue.map
            (Emission.redacted c retiredValues (previousValues ∪ currentValues ∪ retiredValues))
          redaction := SecretRotation.completeSecretRotation currentValues }
  | .refresh secretValues => some { w with redaction := { w.redaction with secretValues } }
  | .drainOnce =>
      match w.tick with
      | .waiting => some (drainOnce w)
      | _ => none
  | .createMany outcome =>
      match w.tick with
      | .inserting batch => some (createMany w batch outcome)
      | _ => none
  | .commit outcome landed =>
      match w.tick with
      | .committing batch => some (commit w batch landed outcome)
      | _ => none

end

end LogCapture

end PlexManager
