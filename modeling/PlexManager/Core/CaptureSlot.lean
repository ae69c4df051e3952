import PlexManager.Lib.FairLock
import PlexManager.Lib.Transition
import PlexManager.Core.ShareSweep

/-!
# Capture slots

Which sections a user can see is captured by two kinds of tasks: by the sweep, for
each user it finds authorized, and by a task of its own after a sign-in. Both read the
sections over the network, ask the server who it is, and write what they read. A task
holds the slot of its user from before it reads until it has written. After a sign-in
a task waits for the slot. The sweep goes on without a capture if somebody holds or
awaits it.

A slot is a lock with a count of the tasks that hold or await it. It is found in a
registry that does not keep it alive, so it is gone when the last task has left.

Between the steps of these tasks others sign in, repoint the server, and write
verdicts. A verdict loads the row of its user, and writes later what it assigned. The
process may be restarted.
-/

namespace PlexManager

namespace CaptureSlots

open KeyedTable FairLock Sessions ShareSweep

/-- `_CaptureSlot`, with an identity. -/
structure Slot where
  serial : Nat
  lock : Lock Nat := {}
  occupants : Nat := 0
  deriving DecidableEq, Repr

/-- An entry of `_capture_slots`. -/
structure Entry where
  userId : Nat
  serial : Nat
  deriving DecidableEq, Repr

/-- `entitlement_capture_slot` or `try_entitlement_capture_slot`. -/
inductive Form where
  | waits
  | tries
  deriving DecidableEq, Repr

/-- How far a capture is. The read has a number, by the order in which reads end. -/
inductive Phase where
  | pending
  | waiting
  | inside
  | read (number : Nat) (capture : EntitlementCapture)
  | wrote
  | ended
  deriving DecidableEq, Repr

def Phase.holds : Phase → Bool
  | inside => true
  | read _ _ => true
  | wrote => true
  | _ => false

/-- The task holds its slot or awaits it. -/
def Phase.occupies (p : Phase) : Bool := p.holds || p = .waiting

structure Task where
  id : Nat
  form : Form
  userId : Nat
  token : String
  tokenCiphertext : Option String
  machineIdentifier : String
  phase : Phase := .pending
  serial : Nat := 0
  deriving DecidableEq, Repr

/-- A row that a verdict has loaded. -/
structure Loaded where
  key : Nat
  account : Account
  deriving DecidableEq, Repr

/-- A capture that was written: with which token it was read, what the tables had at
    the write, and the number of the read. -/
structure Stored where
  userId : Nat
  token : String
  storedCiphertext : Option String
  configured : Option String
  capture : EntitlementCapture
  readNumber : Nat
  deriving DecidableEq, Repr

structure World where
  db : Db
  registry : Table Entry.userId := Table.empty
  slots : Table Slot.serial := Table.empty
  nextSerial : Nat := 0
  tasks : Table Task.id := Table.empty
  loaded : Table Loaded.key := Table.empty
  reads : Nat := 0
  stored : List Stored := []

variable (w : World)

def World.setTask (id : Nat) (f : Task → Task) (hf : ∀ t, (f t).id = t.id) : World :=
  { w with tasks := w.tasks.modify id f hf }

def World.setSlot (serial : Nat) (lock : Lock Nat) (occupants : Nat) : World :=
  { w with slots := w.slots.modify serial (fun s => { s with lock, occupants }) (fun _ => rfl) }

def captureSlot (userId : Nat) : Nat × World :=
  match w.registry.find userId with
  | some entry => (entry.serial, w)
  | none =>
      (w.nextSerial,
        { w with
          registry := w.registry.insert { userId, serial := w.nextSerial }
          slots := w.slots.insert { serial := w.nextSerial }
          nextSerial := w.nextSerial + 1 })

def enter (task : Task) : Option World :=
  let slotted := captureSlot w task.userId
  match slotted.2.slots.find slotted.1 with
  | none => none
  | some slot =>
      if task.form = .tries ∧ slot.occupants ≠ 0 then
        some (slotted.2.setTask task.id (fun t => { t with phase := .ended }) (fun _ => rfl))
      else
        let got := slot.lock.acquire task.id
        some ((slotted.2.setSlot slotted.1 got.2 (slot.occupants + 1)).setTask task.id
          (fun t => { t with
            phase := if got.1 then .inside else .waiting
            serial := slotted.1 })
          (fun _ => rfl))

def resume (w : World) (task : Task) : Option World :=
  match w.slots.find task.serial with
  | none => none
  | some slot => match slot.lock.resume task.id with
    | none => none
    | some (true, lock) =>
        some ((w.setSlot task.serial lock slot.occupants).setTask task.id
          (fun t => { t with phase := .inside }) (fun _ => rfl))
    | some (false, lock) =>
        some ((w.setSlot task.serial lock (slot.occupants - 1)).setTask task.id
          (fun t => { t with phase := .ended }) (fun _ => rfl))

def leave (task : Task) : Option World :=
  match w.slots.find task.serial with
  | none => none
  | some slot =>
      some ((w.setSlot task.serial slot.lock.release (slot.occupants - 1)).setTask task.id
        (fun t => { t with phase := .ended }) (fun _ => rfl))

/-- What happens next. Whoever leaves a slot early has failed or was cancelled. -/
inductive Action where
  | others (e : ShareSweep.Event)
  | signIn (id : Nat) (inserted : Int) (user : User) (token ciphertext tokenHash : String)
      (machineIdentifier : String)
  | select (id userId : Nat) (machineIdentifier : String)
  | enter (id : Nat)
  | resume (id : Nat)
  | cancel (id : Nat)
  | read (id : Nat) (sectionKeys : List String) (capturedAt : Int)
  | store (id : Nat)
  | leave (id : Nat)
  | collect (userId : Nat)
  | load (key userId : Nat)
  | verdict (key : Nat) (verdict : ShareVerdict) (now : Int)
  | restart
  deriving DecidableEq, Repr

section
variable (decrypt : String → String)

/-- A task with the token and the ciphertext of one row. -/
def spawn (w : World) (id userId : Nat) (form : Form) (machineIdentifier : String) :
    Option World :=
  match w.db.account userId with
  | none => none
  | some row => match row.token decrypt with
    | none => none
    | some token =>
        let task : Task :=
          { id, form, userId, token, tokenCiphertext := row.encryptedPlexToken
            machineIdentifier }
        if (w.tasks.find id).isSome then none
        else some { w with tasks := w.tasks.insert task }

/-- The write of a capture. -/
def store (w : World) (task : Task) (number : Nat) (capture : EntitlementCapture) : World :=
  let stored := storeEntitlements w.db task.userId capture task.tokenCiphertext
  { w.setTask task.id (fun t => { t with phase := .wrote }) (fun _ => rfl) with
    db := stored.2
    stored := if stored.1 then w.stored ++
        [{ userId := task.userId, token := task.token
           storedCiphertext := (w.db.account task.userId).bind Account.encryptedPlexToken
           configured := w.db.machineIdentifier, capture, readNumber := number }]
      else w.stored }

def step (w : World) : Action → Option World
  | .others e => some { w with db := w.db.after decrypt e }
  | .signIn id inserted user token ciphertext tokenHash machineIdentifier =>
      let db := w.db.after decrypt (.signIn inserted user token ciphertext tokenHash)
      if (db.account user.id).bind (Account.token decrypt) = some token
      then spawn decrypt { w with db } id user.id .waits machineIdentifier
      else none
  | .select id userId machineIdentifier => spawn decrypt w id userId .tries machineIdentifier
  | .enter id => match w.tasks.find id with
    | none => none
    | some task => if task.phase = .pending then enter w task else none
  | .resume id => match w.tasks.find id with
    | none => none
    | some task => if task.phase = .waiting then resume w task else none
  | .cancel id => match w.tasks.find id with
    | none => none
    | some task =>
        if task.phase = .waiting then
          (w.slots.find task.serial).map fun slot =>
            w.setSlot task.serial (slot.lock.cancel id) slot.occupants
        else none
  | .read id sectionKeys capturedAt => match w.tasks.find id with
    | none => none
    | some task =>
        if task.phase = .inside then
          some { w.setTask id (fun t => { t with
              phase := .read w.reads
                { sectionKeys, machineIdentifier := task.machineIdentifier, capturedAt } })
              (fun _ => rfl) with
            reads := w.reads + 1 }
        else none
  | .store id => match w.tasks.find id with
    | none => none
    | some task => match task.phase with
      | .read number capture => some (store w task number capture)
      | _ => none
  | .leave id => match w.tasks.find id with
    | none => none
    | some task => if task.phase.holds then leave w task else none
  | .collect userId => match w.registry.find userId with
    | none => none
    | some entry =>
        if ∀ task ∈ w.tasks.rows, task.phase.occupies = true → task.serial ≠ entry.serial then
          some { w with
            registry := w.registry.erase userId
            slots := w.slots.erase entry.serial }
        else none
  | .load key userId => match w.db.account userId with
    | none => none
    | some account =>
        if (w.loaded.find key).isSome then none
        else some { w with loaded := w.loaded.insert { key, account } }
  | .verdict key verdict now => match w.loaded.find key with
    | none => none
    | some row =>
        some { w with
          loaded := w.loaded.erase key
          db := w.db.update row.account.userId
            (Account.flush row.account (stamped row.account verdict now)) (fun _ => rfl) }
  -- The tables are all that is left of a process.
  | .restart =>
      some { w with
        registry := Table.empty
        slots := Table.empty
        tasks := Table.empty
        loaded := Table.empty }

end

end CaptureSlots

end PlexManager
