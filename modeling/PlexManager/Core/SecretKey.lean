import PlexManager.Lib.Concurrent

/-!
# The first key

Secrets are encrypted under a key that is kept in a file. Before there is anything to
encrypt, any number of processes may find that there is no key, and each of them mints
one. What they publish has to be one key. Where the file system has hard links, a key is
written to a file of its own, which is then linked to the name. Where it has none, the
file is created exclusively under its name and written there, under a directory that
serves as a lock. A process that dies over it leaves a file that is no key, and a lock,
and both are removed when they are old enough.

Every call to the file system is an operation, and any of them may fail. Between two of
them a process may be paused for any time, or die, which is a pause without an end. A
name leads to a file, and a process that has opened a file keeps it when the name is
removed or given to another file. The names of temporary files are drawn at random, and
none is drawn twice. One clock stands for all. The modes of the files are left out, and
so is what only reports.
-/

namespace PlexManager

namespace SecretKey

open Effects

abbrev Bytes := List UInt8

/-! ### Keys -/

/-- The part of `cryptography` that judges a key. -/
structure Fernet where
  accepts : Bytes → Bool

/-- `bytes.isspace` of one byte. -/
def isSpace (b : UInt8) : Bool := b == 32 || (9 ≤ b && b ≤ 13)

def strip (raw : Bytes) : Bytes := ((raw.dropWhile isSpace).reverse.dropWhile isSpace).reverse

def fernetKeyLength : Nat := 44

def isValidFernetKey (F : Fernet) (raw : Bytes) : Bool :=
  (strip raw).length == fernetKeyLength && F.accepts (strip raw)

/-- What `Fernet.generate_key` may give. -/
def Fernet.Mints (F : Fernet) (key : Bytes) : Prop :=
  key.length = fernetKeyLength ∧ (∀ b ∈ key, isSpace b = false) ∧ F.accepts key = true

instance (F : Fernet) (key : Bytes) : Decidable (F.Mints key) :=
  inferInstanceAs (Decidable (_ ∧ _ ∧ _))

/-! ### The data directory -/

/-- `secret.key`, the temporary files, and the probes that are named after them. -/
inductive Name where
  | final
  | temp (n : Nat)
  | probe (n : Nat)
  deriving DecidableEq, Repr

/-- A file, and which process has created it, if it was one of them. -/
structure Inode where
  content : Bytes
  mtime : Int
  maker : Option Nat
  deriving DecidableEq, Repr

/-- What is at `secret.key.lock`. -/
structure LockEntry where
  mtime : Int
  directory : Bool
  deriving DecidableEq, Repr

/-- The names and what they lead to. Files are told apart by numbers, and so are the
    temporary names. -/
structure Fs where
  entries : Name → Option Nat
  inodes : Nat → Inode
  lock : Option LockEntry
  nextInode : Nat
  nextTemp : Nat
  now : Int

/-- The files and the names that there are come before those that are made next. -/
structure Fs.Sound (s : Fs) : Prop where
  entries : ∀ name i, s.entries name = some i → i < s.nextInode
  temps : ∀ n, s.nextTemp ≤ n → s.entries (.temp n) = none

def Fs.enter (s : Fs) (name : Name) (entry : Option Nat) : Fs :=
  { s with entries := fun m => if m = name then entry else s.entries m }

def Fs.create (s : Fs) (maker : Nat) (name : Name) : Fs :=
  { s.enter name (some s.nextInode) with
    inodes := fun i =>
      if i = s.nextInode then { content := [], mtime := s.now, maker := some maker }
      else s.inodes i
    nextInode := s.nextInode + 1 }

def Fs.append (s : Fs) (ino : Nat) (bytes : Bytes) : Fs :=
  { s with
    inodes := fun i =>
      if i = ino then
        { s.inodes i with content := (s.inodes i).content ++ bytes, mtime := s.now }
      else s.inodes i }

/-! ### Operations -/

/-- How a call to the system fails: the name is taken, or leads nowhere, or the call is
    not supported, for which `_KEY_LINK_FALLBACK_ERRNOS` are taken, or else. -/
inductive OsError where
  | taken
  | missing
  | unsupported
  | other
  deriving DecidableEq, Repr

inductive Op where
  | generateKey
  | clock
  | makeParents
  | globTemps
  | mkstemp
  | stat (name : Name)
  | openFile (name : Name)
  | read (ino : Nat)
  | createExclusive
  | write (ino : Nat) (bytes : Bytes)
  | fsync (ino : Nat)
  | close (ino : Nat)
  | link (source : Nat) (target : Name)
  | unlink (name : Name)
  | mkdirLock
  | statLock
  | rmdirLock
  deriving DecidableEq, Repr

abbrev Op.Answer : Op → Type
  | .generateKey => Bytes
  | .clock => Int
  | .globTemps => Except OsError (List Nat)
  | .mkstemp => Except OsError (Nat × Nat)
  | .stat _ | .statLock => Except OsError Int
  | .openFile _ | .createExclusive | .write _ _ => Except OsError Nat
  | .read _ => Except OsError Bytes
  | .makeParents | .fsync _ | .close _ | .link _ _ | .unlink _ | .mkdirLock | .rmdirLock =>
      Except OsError Unit

/-- What is decided about a call: whether it fails, the key that is minted, the order in
    which names are listed, and how many bytes are written. -/
structure Choice where
  fails : Bool := false
  key : Bytes := []
  listed : List Nat := []
  written : Nat := 0
  deriving DecidableEq, Repr

/-- The file and its bytes as a process has last read them, which nothing in the program
    asks for. -/
structure Process where
  seen : Option (Nat × Bytes) := none
  deriving DecidableEq, Repr

def exec (F : Fernet) (hardlinks : Bool) (pid : Nat) :
    (op : Op) → Choice → Fs × Process → Option (op.Answer × Fs × Process)
  | .generateKey, c, (s, p) => if F.Mints c.key then some (c.key, s, p) else none
  | .clock, _, (s, p) => some (s.now, s, p)
  | .makeParents, c, (s, p) => some (if c.fails then .error .other else .ok (), s, p)
  | .globTemps, c, (s, p) =>
      if c.fails then some (.error .other, s, p)
      else some (.ok (c.listed.filter fun n => (s.entries (.temp n)).isSome), s, p)
  | .mkstemp, c, (s, p) =>
      if c.fails then some (.error .other, s, p)
      else some (.ok (s.nextTemp, s.nextInode),
        { s.create pid (.temp s.nextTemp) with nextTemp := s.nextTemp + 1 }, p)
  | .stat name, c, (s, p) =>
      if c.fails then some (.error .other, s, p)
      else match s.entries name with
        | none => some (.error .missing, s, p)
        | some i => some (.ok (s.inodes i).mtime, s, p)
  | .openFile name, c, (s, p) =>
      if c.fails then some (.error .other, s, p)
      else match s.entries name with
        | none => some (.error .missing, s, p)
        | some i => some (.ok i, s, p)
  | .read ino, c, (s, p) =>
      if c.fails then some (.error .other, s, p)
      else some (.ok (s.inodes ino).content, s,
        { p with seen := some (ino, (s.inodes ino).content) })
  | .createExclusive, c, (s, p) =>
      if (s.entries .final).isSome then some (.error .taken, s, p)
      else if c.fails then some (.error .other, s, p)
      else some (.ok s.nextInode, s.create pid .final, p)
  | .write ino bytes, c, (s, p) =>
      if c.fails then some (.error .other, s, p)
      else if 0 < c.written ∧ c.written ≤ bytes.length then
        some (.ok c.written, s.append ino (bytes.take c.written), p)
      else none
  | .fsync _, c, (s, p) => some (if c.fails then .error .other else .ok (), s, p)
  | .close _, c, (s, p) => some (if c.fails then .error .other else .ok (), s, p)
  | .link source target, c, (s, p) =>
      if c.fails then some (.error .other, s, p)
      else match s.entries (.temp source) with
        | none => some (.error .missing, s, p)
        | some i =>
            if (s.entries target).isSome then some (.error .taken, s, p)
            else if hardlinks then some (.ok (), s.enter target (some i), p)
            else some (.error .unsupported, s, p)
  | .unlink name, c, (s, p) =>
      if c.fails then some (.error .other, s, p)
      else if (s.entries name).isSome then some (.ok (), s.enter name none, p)
      else some (.error .missing, s, p)
  | .mkdirLock, c, (s, p) =>
      if s.lock.isSome then some (.error .taken, s, p)
      else if c.fails then some (.error .other, s, p)
      else some (.ok (), { s with lock := some { mtime := s.now, directory := true } }, p)
  | .statLock, c, (s, p) =>
      if c.fails then some (.error .other, s, p)
      else match s.lock with
        | none => some (.error .missing, s, p)
        | some entry => some (.ok entry.mtime, s, p)
  | .rmdirLock, c, (s, p) =>
      if c.fails then some (.error .other, s, p)
      else match s.lock with
        | none => some (.error .missing, s, p)
        | some entry =>
            if entry.directory then some (.ok (), { s with lock := none }, p)
            else some (.error .other, s, p)

/-! ### The program -/

/-- What is raised. `unfinished` stands for a loop that has not come to its end. -/
inductive KeyError where
  | os (e : OsError)
  | corruptKey
  | unbreakablePublishLock
  | unfinished
  deriving DecidableEq, Repr

def KeyError.text (keyPath lockDir : String) : KeyError → Option String
  | .corruptKey => some <|
      "Encryption key at " ++ keyPath ++ " is present but is not a valid Fernet key " ++
      "(it may be truncated or corrupt). A replacement is NOT minted automatically, to " ++
      "avoid orphaning data encrypted under the original key; restore the original key file."
  | .unbreakablePublishLock => some <|
      "Could not create the encryption key at " ++ keyPath ++ ": the publish lock " ++
      lockDir ++ " could not be acquired and would not clear. Remove it " ++
      "(it should be an empty directory) and restart; if a valid secret.key " ++
      "already exists it is used as-is and this lock is irrelevant."
  | .os _ | .unfinished => none

abbrev Step := Run Op Op.Answer KeyError Unit

open Run

def generateKey : Step Bytes := perform Op.generateKey

def clock : Step Int := perform Op.clock

def makeParents : Step (Except OsError Unit) := perform Op.makeParents

def globTemps : Step (Except OsError (List Nat)) := perform Op.globTemps

def mkstemp : Step (Except OsError (Nat × Nat)) := perform Op.mkstemp

def stat (name : Name) : Step (Except OsError Int) := perform (Op.stat name)

def openFile (name : Name) : Step (Except OsError Nat) := perform (Op.openFile name)

def readFile (ino : Nat) : Step (Except OsError Bytes) := perform (Op.read ino)

def createExclusive : Step (Except OsError Nat) := perform Op.createExclusive

def write (ino : Nat) (bytes : Bytes) : Step (Except OsError Nat) := perform (Op.write ino bytes)

def fsync (ino : Nat) : Step (Except OsError Unit) := perform (Op.fsync ino)

def close (ino : Nat) : Step (Except OsError Unit) := perform (Op.close ino)

def link (source : Nat) (target : Name) : Step (Except OsError Unit) :=
  perform (Op.link source target)

def unlink (name : Name) : Step (Except OsError Unit) := perform (Op.unlink name)

def mkdirLock : Step (Except OsError Unit) := perform Op.mkdirLock

def statLock : Step (Except OsError Int) := perform Op.statLock

def rmdirLock : Step (Except OsError Unit) := perform Op.rmdirLock

def orRaise {A : Type} : Except OsError A → Step A
  | .ok a => pure a
  | .error e => raise (.os e)

variable (F : Fernet)

def keyReadAttempts : Nat := 50

def stalePublishLockSeconds : Int := 30

def staleKeyTempfileSeconds : Int := 60

def stalePartialFinalSeconds : Int := 30

def publishLockAcquireTimeoutSeconds : Int := 120

def readValidKeyOnce : Step (Option Bytes) := do
  match ← openFile .final with
  | .error .missing => pure none
  | .error e => raise (.os e)
  | .ok ino => do
      let raw ← orRaise (← readFile ino)
      pure (if isValidFernetKey F raw then some (strip raw) else none)

/-- `_read_valid_key`. -/
def readValidKeyWithin : Nat → Step (Option Bytes)
  | 0 => pure none
  | n + 1 => do
      match ← readValidKeyOnce F with
      | some key => pure (some key)
      | none => readValidKeyWithin n

def readValidKey : Step (Option Bytes) := readValidKeyWithin F keyReadAttempts

/-- A round of the loop of `_reap_stale_key_tempfiles`. -/
def reapKeyTempfile (now : Int) (n : Nat) : Step Unit := do
  match ← stat (.temp n) with
  | .error _ => pure ()
  | .ok mtime =>
      if now - mtime ≤ staleKeyTempfileSeconds then pure ()
      else discard (unlink (.temp n))

def reapStaleKeyTempfiles : Step Unit := do
  let now ← clock
  match ← globTemps with
  | .error _ => pure ()
  | .ok candidates => candidates.forM (reapKeyTempfile now)

def reapStalePublishLock : Step Unit := do
  let now ← clock
  match ← statLock with
  | .error _ => pure ()
  | .ok mtime =>
      if now - mtime ≤ stalePublishLockSeconds then pure ()
      else discard rmdirLock

/-- The loop that writes a key. Something is written each time, so there are no more
    rounds than bytes. -/
def writeAll (ino : Nat) : Nat → Bytes → Step Unit
  | _, [] => pure ()
  | 0, _ :: _ => raise .unfinished
  | n + 1, b :: rest => do
      let written ← orRaise (← write ino (b :: rest))
      writeAll ino n ((b :: rest).drop written)

/-- A whole key is written and synced, and the file is closed in any case. -/
def writeKey (ino : Nat) (key : Bytes) : Step Unit :=
  andFinally
    (do writeAll ino key.length key
        orRaise (← fsync ino))
    (do orRaise (← close ino))

variable (rounds tmp : Nat) (key : Bytes)

def commitKeyExclusive : Step Bool := do
  match ← createExclusive with
  | .error .taken => pure false
  | .error e => raise (.os e)
  | .ok ino => do
      writeKey ino key
      pure true

def reapStalePartialFinal : Step Unit := do
  let now ← clock
  match ← stat .final with
  | .error _ => pure ()
  | .ok mtime =>
      if now - mtime ≤ stalePartialFinalSeconds then pure ()
      else do
        match ← openFile .final with
        | .error _ => pure ()
        | .ok ino => do
            match ← readFile ino with
            | .error _ => pure ()
            | .ok raw =>
                if isValidFernetKey F raw then pure ()
                else discard (unlink .final)

/-- The loop of `_publish_key_no_hardlink`, for a number of rounds. -/
def publishRounds (key : Bytes) (deadline : Int) : Nat → Step Bytes
  | 0 => raise .unfinished
  | n + 1 => do
      match ← readValidKeyOnce F with
      | some existing => pure existing
      | none => do
          match ← mkdirLock with
          | .error .taken => do
              match ← readValidKey F with
              | some adopted => pure adopted
              | none => do
                  reapStalePublishLock
                  let now ← clock
                  if deadline ≤ now then raise .unbreakablePublishLock
                  else publishRounds key deadline n
          | .error e => raise (.os e)
          | .ok () => do
              andFinally
                (do reapStalePartialFinal F
                    discard (commitKeyExclusive key))
                (discard rmdirLock)
              match ← readValidKey F with
              | some committed => pure committed
              | none => do
                  let now ← clock
                  if deadline ≤ now then raise .corruptKey
                  else publishRounds key deadline n

def publishKeyNoHardlink : Step Bytes := do
  let start ← clock
  publishRounds F key (start + publishLockAcquireTimeoutSeconds) rounds

def probeHardlinkCapability : Step Bool := do
  match ← link tmp (.probe tmp) with
  | .error .unsupported => pure false
  | .error e => raise (.os e)
  | .ok () => do
      discard (unlink (.probe tmp))
      pure true

/-- The loop of `_recover_invalid_final_after_link_exists`: a key that was found
    meanwhile, or the lock. -/
def acquirePublishLock (deadline : Int) : Nat → Step (Option Bytes)
  | 0 => raise .unfinished
  | n + 1 => do
      match ← mkdirLock with
      | .ok () => pure none
      | .error .taken => do
          match ← readValidKey F with
          | some adopted => pure (some adopted)
          | none => do
              reapStalePublishLock
              let now ← clock
              if deadline ≤ now then raise .unbreakablePublishLock
              else acquirePublishLock deadline n
      | .error e => raise (.os e)

def adoptKey : Step Bytes := do
  match ← readValidKey F with
  | some existing => pure existing
  | none => raise .corruptKey

/-- What is done with the lock: a key is found, or the file in the way may be gone. -/
def recoverUnderLock : Step (Option Bytes) := do
  if ← probeHardlinkCapability tmp then some <$> adoptKey F
  else do
    reapStalePartialFinal F
    pure none

/-- `os.link` of the temporary file to the name, and `taken` where the name is taken. -/
def linkKey (taken : Step Bytes) : Step Bytes := do
  match ← link tmp .final with
  | .ok () => pure key
  | .error .taken => taken
  | .error .unsupported => publishKeyNoHardlink F rounds key
  | .error e => raise (.os e)

def recoverInvalidFinalAfterLinkExists : Step Bytes := do
  let start ← clock
  match ← acquirePublishLock F (start + publishLockAcquireTimeoutSeconds) rounds with
  | some adopted => pure adopted
  | none => do
      match ← andFinally (recoverUnderLock F tmp) (discard rmdirLock) with
      | some existing => pure existing
      | none => linkKey F rounds tmp key (adoptKey F)

/-- `_generate_key_file`, from the temporary file on. -/
def publishKeyFile (ino : Nat) (key : Bytes) : Step Bytes := do
  writeKey ino key
  linkKey F rounds tmp key do
    match ← readValidKey F with
    | some existing => pure existing
    | none => recoverInvalidFinalAfterLinkExists F rounds tmp key

def generateKeyFile : Step Bytes := do
  let key ← generateKey
  orRaise (← makeParents)
  reapStaleKeyTempfiles
  let (tmp, ino) ← orRaise (← mkstemp)
  andFinally (publishKeyFile F rounds tmp ino key) (discard (unlink (.temp tmp)))

/-- `ensure_secret_key`, where there is no override and nothing is cached yet. -/
def ensureSecretKey : Step Bytes := do
  match ← readValidKeyOnce F with
  | some existing => pure existing
  | none => generateKeyFile F rounds

/-! ### The processes -/

abbrev Call := Task Op Op.Answer Process (Except KeyError Bytes × Unit)

abbrev World := Interleaving.World Fs Call

inductive Action where
  /-- A process calls `ensure_secret_key`, whose loops may take as many rounds. -/
  | arrive (pid rounds : Nat)
  | act (i : Nat) (c : Choice)
  | tick (seconds : Nat)
  deriving DecidableEq, Repr

/-- One step. Processes are told apart by their ids. -/
def step (hardlinks : Bool) (w : World) : Action → Option World
  | .arrive pid rounds =>
      if w.actors.any fun t => t.id = pid then none
      else some (w.spawn { id := pid, own := {}, program := ensureSecretKey F rounds () })
  | .act i c => w.act (Task.next (exec F hardlinks)) i c
  | .tick seconds => some { w with shared := { w.shared with now := w.shared.now + seconds } }

def keyReturned (t : Call) : Option Bytes :=
  match t.outcome with
  | some (.ok key, _) => some key
  | _ => none

end SecretKey

end PlexManager
