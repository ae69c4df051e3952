import PlexManager.Lib.Interleaving

/-!
# The publish lock

Whoever publishes a file into the library, or takes a published one back, does
so under a lock file next to the destination. The file is created exclusively
and then locked with `flock`, which belongs to the inode and not to the name. So
the creator writes its pid and proves that the name still leads to its inode
before it enters. Whoever finds the name taken may reclaim a stale lock. It
locks the inode it opened, judges it between two such proofs, and unlinks it.

Every call to the file system is a step, and any of them may fail, other than the
blocking `flock` of a creator. Actors are threads of processes. When a process dies its
descriptors are closed and its locks with them. The number of an inode is given out again
only when nobody has it open. The clock of the system may be set at any time. Whether the
destination exists is up to the environment.
-/

namespace PlexManager

namespace PublishLock

open Interleaving

/-! ### The file system -/

inductive Content where
  | empty
  | pid (n : Int)
  | unparseable
  deriving DecidableEq, Repr

structure Owner where
  pid : Nat
  thread : Nat
  deriving DecidableEq, Repr

/-- The name of the lock, the inodes, who has which of them open and locked, the
    processes that are alive, and the clock. -/
structure Fs where
  entry : Option Nat
  regular : Nat → Bool
  content : Nat → Content
  mtime : Nat → Int
  opened : List (Owner × Nat) := []
  flock : Nat → Option Owner := fun _ => none
  running : List Nat := []
  now : Int := 0

/-- What the environment decides about a call: whether it fails, the number of a
    new inode, and whether the destination exists. -/
structure Choice where
  fails : Bool := false
  ino : Nat := 0
  entryExists : Bool := false

variable (s : Fs) (o : Owner) (ino : Nat) (c : Choice)

def Fs.pinned : Bool := s.opened.any fun e => e.2 = ino

/-- `os.open` with `O_CREAT | O_EXCL`, where the name is free. -/
def Fs.create : Fs :=
  { s with
    entry := some ino
    regular := fun k => if k = ino then true else s.regular k
    content := fun k => if k = ino then .empty else s.content k
    mtime := fun k => if k = ino then s.now else s.mtime k
    opened := (o, ino) :: s.opened }

/-- `os.open` of the inode the name leads to. -/
def Fs.open : Fs := { s with opened := (o, ino) :: s.opened }

/-- `fcntl.flock`, where the lock is free. -/
def Fs.lock : Fs :=
  { s with flock := fun k => if k = ino then some o else s.flock k }

/-- `os.write` of the pid. -/
def Fs.write : Fs :=
  { s with
    content := fun k => if k = ino then .pid o.pid else s.content k
    mtime := fun k => if k = ino then s.now else s.mtime k }

/-- `os.unlink` of the name, whatever it leads to. -/
def Fs.unlink : Fs := { s with entry := none }

/-- `os.close`, which gives the lock back. -/
def Fs.close : Fs :=
  { s with
    opened := s.opened.filter (· ≠ (o, ino))
    flock := fun k => if k = ino ∧ s.flock k = some o then none else s.flock k }

/-! ### Judging a lock -/

def emptyLockStaleSeconds : Int := 60

/-- The largest `pid_t`. -/
def maxPid : Int := 2147483647

def pidIsRunning (pid : Int) : Option Bool :=
  if pid ≤ 0 then none
  else if pid > maxPid then none
  else some (pid.toNat ∈ s.running)

def lockPathMatchesFd (s : Fs) (ino : Nat) : Bool :=
  !c.fails && s.regular ino && s.entry = some ino

def lockIsExpired (s : Fs) (ino : Nat) : Bool :=
  !c.fails && s.now - s.mtime ino > emptyLockStaleSeconds

/-- `_lock_is_stale`, from what was read on. -/
def lockIsStale (s : Fs) (ino : Nat) : Content → Bool
  | .empty | .unparseable => lockIsExpired c s ino
  | .pid pid => pidIsRunning s pid = some false

/-! ### The lock -/

/-- What comes of a lock that was found: `_reclaim_lock_if_stale` is true, is false, or
    raises. -/
inductive Found where
  | reclaimed
  | kept
  | failed
  deriving DecidableEq, Repr

/-- The call an actor makes next. From `relocking` to `closing` it reclaims a
    lock that it found, and from `locking` on it has a lock of its own. `judged`
    is when it judged the one it found. It is `refused` when it has raised
    `FileExistsError` for a lock that it found. -/
inductive Pc where
  | creating
  | contended
  | reopening
  | relocking (ino : Nat)
  | firstProof (ino : Nat)
  | reading (ino : Nat)
  | judging (ino : Nat) (raw : Content)
  | lastProof (ino : Nat) (judged : Int)
  | reclaiming (ino : Nat) (judged : Int)
  | closing (ino : Nat) (found : Found)
  | locking (ino : Nat)
  | writing (ino : Nat)
  | proving (ino : Nat)
  | inside (ino : Nat)
  | releasing (ino : Nat)
  | unlinking (ino : Nat)
  | leaving (ino : Nat)
  | refused
  | ended
  deriving DecidableEq, Repr

/-- `_publish_lock`, call by call. `force` is `reclaim_stale_with_existing_entry`.
    A body ends when its turn comes. In `locking` the call waits, and does not
    fail: where it does, the `finally` of the source takes the name away, if it
    still leads to the file, without the lock. -/
def turn (s : Fs) (o : Owner) (force : Bool) : Pc → Fs × Pc
  | .creating =>
      if c.fails then (s, .ended)
      else match s.entry with
        | some _ => (s, .contended)
        | none =>
            if s.pinned c.ino then (s, .creating) else (s.create o c.ino, .locking c.ino)
  | .contended => if c.entryExists && !force then (s, .refused) else (s, .reopening)
  | .reopening => match s.entry with
      | none => (s, .refused)
      | some ino => if c.fails then (s, .refused) else (s.open o ino, .relocking ino)
  | .relocking ino =>
      if c.fails then (s, .closing ino .failed)
      else match s.flock ino with
        | some _ => (s, .closing ino .kept)
        | none => (s.lock o ino, .firstProof ino)
  | .firstProof ino =>
      (s, if lockPathMatchesFd c s ino then .reading ino else .closing ino .kept)
  | .reading ino =>
      (s, if !c.fails && s.regular ino then .judging ino (s.content ino)
        else .closing ino .kept)
  | .judging ino raw =>
      (s, if lockIsStale c s ino raw then .lastProof ino s.now else .closing ino .kept)
  | .lastProof ino judged =>
      (s, if lockPathMatchesFd c s ino then .reclaiming ino judged else .closing ino .kept)
  | .reclaiming ino _ =>
      if c.fails || s.entry.isNone then (s, .closing ino .kept)
      else (s.unlink, .closing ino .reclaimed)
  | .closing ino .reclaimed => (s.close o ino, .creating)
  | .closing ino .kept => (s.close o ino, .refused)
  | .closing ino .failed => (s.close o ino, .ended)
  | .locking ino => match s.flock ino with
      | some _ => (s, .locking ino)
      | none => (s.lock o ino, .writing ino)
  | .writing ino => if c.fails then (s, .releasing ino) else (s.write o ino, .proving ino)
  | .proving ino =>
      (s, if lockPathMatchesFd c s ino then .inside ino else .releasing ino)
  | .inside ino => (s, .releasing ino)
  | .releasing ino =>
      (s, if lockPathMatchesFd c s ino then .unlinking ino else .leaving ino)
  | .unlinking ino => (if c.fails then s else s.unlink, .leaving ino)
  | .leaving ino => (s.close o ino, .ended)
  | .refused => (s, .refused)
  | .ended => (s, .ended)

structure Actor where
  owner : Owner
  force : Bool
  pc : Pc
  deriving DecidableEq, Repr

def Actor.next (c : Choice) (s : Fs) (a : Actor) : Fs × Actor :=
  ((turn c s a.owner a.force a.pc).1, { a with pc := (turn c s a.owner a.force a.pc).2 })

/-! ### The world -/

abbrev World := Interleaving.World Fs Actor

/-- A directory before anybody comes, perhaps with a lock that was left behind. -/
def World.quiet : World :=
  { shared := { s with opened := [], flock := fun _ => none }, actors := [] }

/-- What the death of a process leaves behind. -/
def Fs.bury (pid : Nat) : Fs :=
  { s with
    opened := s.opened.filter fun e => e.1.pid ≠ pid
    flock := fun k => (s.flock k).filter fun o => o.pid ≠ pid
    running := s.running.filter (· ≠ pid) }

def Actor.bury (pid : Nat) (a : Actor) : Actor :=
  if a.owner.pid = pid then { a with pc := .ended } else a

inductive Action where
  | arrive (o : Owner) (force : Bool)
  | act (i : Nat) (c : Choice)
  | crash (pid : Nat)
  | clock (now : Int)

/-- One step. A thread publishes or rolls back once. -/
def step (w : World) : Action → Option World
  | .arrive o force =>
      if w.actors.any fun a => a.owner = o then none
      else some
        { shared := { w.shared with running := w.shared.running.insert o.pid }
          actors := w.actors ++ [⟨o, force, .creating⟩] }
  | .act i c => w.act Actor.next i c
  | .crash pid => some { shared := w.shared.bury pid, actors := w.actors.map (Actor.bury pid) }
  | .clock now => some { w with shared := { w.shared with now } }

end PublishLock

end PlexManager
