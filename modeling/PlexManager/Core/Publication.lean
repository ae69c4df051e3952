import PlexManager.Lib.KeyedTable
import PlexManager.Lib.PosixPath
import PlexManager.Lib.Program

/-!
# Publishing a file into the library

An import puts a file into the library under a path that others can meddle with
while it does. So the directories on the way are opened one from another, without
following links, and the file is linked, or copied under another name and then
linked or renamed, in the directory that is held at the end. Then the path is walked
again, and unless it leads to the very inode that was published the call raises.

Every call to the file system is an operation, and before any of them somebody else
may create, link, rename or unlink whatever they like. An inode keeps its number
while it has a name or is held, and the number is free again after that. The path of
the source is resolved by the system, which may find any inode there that has a name.
A name in a directory that is held is found if and only if it is there, and any other
call may fail.

Beside the file system there is a record of what the call has found and made, which
nothing in the program reads.
-/

namespace PlexManager

namespace Publication

open Effects KeyedTable PosixPath

/-! ### The file system -/

/-- A component of a path. -/
abbrev Name := List Char

/-- The number of a device with the number of an inode on it. -/
abbrev Ino := Nat

abbrev Bytes := List UInt8

inductive Node where
  | directory
  | file (bytes : Bytes)
  | symlink
  /-- A pipe, a socket or a device. -/
  | special
  deriving DecidableEq, Repr

/-- `stat.S_ISREG`. -/
def Node.isRegular : Node → Bool
  | file _ => true
  | directory | symlink | special => false

def Node.size : Node → Nat
  | file bytes => bytes.length
  | directory | symlink | special => 0

abbrev Place := Ino × Name

/-- A name in a directory, and whether the call has made it. -/
structure Entry where
  dir : Ino
  name : Name
  ino : Ino
  mine : Bool
  deriving DecidableEq, Repr

def Entry.place (e : Entry) : Place := (e.dir, e.name)

/-- The directories, the inodes, and those that the call has open. -/
structure Fs where
  root : Ino
  entries : Table Entry.place
  node : Ino → Node
  opened : List Ino

/-- The inode that a name leads to. -/
def Fs.lookup (s : Fs) (p : Place) : Option Ino := (s.entries.find p).map (·.ino)

def Fs.free (s : Fs) (ino : Ino) : Bool :=
  ino ≠ s.root && ino ∉ s.opened && s.entries.rows.all fun e => e.ino ≠ ino && e.dir ≠ ino

def Fs.named (s : Fs) (ino : Ino) : Bool := s.entries.rows.any fun e => e.ino = ino

inductive Errno where
  | exdev
  | eperm
  | emlink
  | eopnotsupp
  | eacces
  | eexist
  | enoent
  | eloop
  | enotdir
  | enxio
  | eagain
  | other
  deriving DecidableEq, Repr

/-- What a `LocalFileSystemError` is about. -/
inductive Refusal where
  | unsupported
  | outside
  | ancestor (component : Name)
  | notRegular
  | changedIdentity
  | moved (rolledBack : Bool)
  deriving DecidableEq, Repr

/-- What the call raises. A `FileExistsError` is raised for `EEXIST` and by hand, and
    two errors of the copy have no number. -/
inductive Exc where
  | fileExists
  | os (errno : Errno)
  | insufficientSpace
  | incomplete
  | refused (refusal : Refusal)
  /-- A loop has not ended in the rounds that it is given here. -/
  | unfinished
  deriving DecidableEq, Repr

/-- What Python raises for a number. -/
def Exc.ofErrno (e : Errno) : Exc := if e = .eexist then .fileExists else .os e

structure Stat where
  ino : Ino
  node : Node
  deriving DecidableEq, Repr

structure FilePublication where
  placed : Bool
  identity : Ino
  deriving DecidableEq, Repr

/-! ### The record -/

/-- A name that was followed to an inode. -/
structure Sighting where
  dir : Ino
  name : Name
  ino : Ino
  node : Node
  deriving DecidableEq, Repr

/-- An entry that the call has unlinked or renamed something over: whether the call
    had made it, what the call had last found at the place, and whether somebody else
    has changed the place since. -/
structure Loss where
  place : Place
  ino : Ino
  mine : Bool
  look : Option (Option Ino)
  touched : Bool
  deriving DecidableEq, Repr

/-- What a call has found and made. -/
structure Record where
  looks : Place → Option (Option Ino) := fun _ => none
  seen : List Sighting := []
  source : List Stat := []
  /-- Where it has linked or renamed a file to. -/
  made : List Place := []
  /-- The source, the copy, the lock and new directories. -/
  own : List Ino := []
  stale : List Ino := []
  losses : List Loss := []

structure World where
  fs : Fs
  /-- Somebody else has changed what is there since the call has last looked. -/
  touched : Place → Bool := fun _ => false
  record : Record := {}
  /-- What the last call has ended with, and its record at that time. -/
  returned : Option (Except Exc FilePublication × Record) := none

variable (w : World) (p : Place) (ino dir : Ino) (component : Name)

/-- The call finds something at a place, or puts it there. -/
def World.look (found : Option Ino) : World :=
  { w with
    touched := Function.update w.touched p false
    record := { w.record with looks := Function.update w.record.looks p (some found) } }

def World.see (name : Name) (ino : Ino) : World :=
  { w with record := { w.record with
      seen := w.record.seen ++ [⟨dir, name, ino, w.fs.node ino⟩] } }

def World.hold : World :=
  { w with fs := { w.fs with opened := ino :: w.fs.opened } }

def World.owns : World :=
  { w with record := { w.record with own := ino :: w.record.own } }

def World.makes : World :=
  { w with record := { w.record with made := p :: w.record.made } }

/-- A new entry of the call. -/
def World.enter : World :=
  { w with
    fs := { w.fs with entries := w.fs.entries.insert ⟨p.1, p.2, ino, true⟩ } }.look p (some ino)

def World.setNode (node : Node) : World :=
  { w with fs := { w.fs with node := Function.update w.fs.node ino node } }

/-- What is at a place is lost by what the call does. -/
def World.lose : World :=
  match w.fs.entries.find p with
  | none => w
  | some e =>
      { w with
        fs := { w.fs with entries := w.fs.entries.erase p }
        record := { w.record with
          losses := ⟨p, e.ino, e.mine, w.record.looks p, w.touched p⟩ :: w.record.losses } }.look p
        none

/-! ### Operations -/

inductive Op where
  | openRoot
  /-- With `O_DIRECTORY | O_NOFOLLOW`, from a directory. -/
  | openDir (dir : Ino) (name : Name)
  | mkdir (dir : Ino) (name : Name)
  /-- With `O_NOFOLLOW | O_NONBLOCK`, by the path of the source. -/
  | openSource
  /-- With `O_NOFOLLOW | O_NONBLOCK`, from a directory. -/
  | openFile (dir : Ino) (name : Name)
  /-- With `O_CREAT | O_EXCL`, from a directory. -/
  | create (dir : Ino) (name : Name)
  | stat (dir : Ino) (name : Name)
  | fstat (fd : Ino)
  | read (fd : Ino) (offset : Nat)
  /-- All of a file, for its digest. -/
  | contents (fd : Ino)
  | write (fd : Ino) (bytes : Bytes)
  | flock (fd : Ino)
  /-- `_lock_is_stale`: what the lock says, and whether its process is alive. -/
  | judge (fd : Ino)
  /-- `os.link` by the path of the source. -/
  | linkSource (dir : Ino) (name : Name)
  /-- `os.link` within a directory. A symlink that somebody has put at the name of the copy
      is followed by `os.link`; here it is linked itself. -/
  | link (dir : Ino) (source name : Name)
  | rename (dir : Ino) (source name : Name)
  | unlink (dir : Ino) (name : Name)
  | close (fd : Ino)
  | availableBytes
  /-- Extended attributes, mode and times. -/
  | copyMetadata (source target : Ino)
  | urandom
  | finish (result : Except Exc FilePublication)
  deriving DecidableEq

def Ans : Op → Type
  | .openRoot | .openDir .. | .openSource | .openFile .. | .create .. => Except Errno Ino
  | .mkdir .. | .write .. | .flock _ | .linkSource .. | .link .. | .rename .. | .unlink ..
  | .copyMetadata .. => Except Errno Unit
  | .stat .. | .fstat _ => Except Errno Stat
  | .read .. | .contents _ => Except Errno Bytes
  | .availableBytes => Except Errno Nat
  | .judge _ => Bool
  | .urandom => Name
  | .close _ | .finish _ => Unit

structure Choice where
  errno : Option Errno := none
  ino : Ino := 0
  amount : Nat := 0
  flag : Bool := false
  name : Name := []

/-- A call that may fail, and then does nothing. -/
def fallible {α : Type} (c : Choice) (w : World) (r : Except Errno (α × World)) :
    Option (Except Errno α × World) :=
  match c.errno, r with
  | some e, _ => some (.error e, w)
  | none, .error e => some (.error e, w)
  | none, .ok (a, w') => some (.ok a, w')

def World.create (node : Node) : Except Errno World :=
  if (w.fs.lookup p).isSome then .error .eexist
  else if w.fs.free ino then .ok ((w.setNode ino node).enter p ino)
  else .error .other

def World.linkTo : Except Errno World :=
  if (w.fs.lookup p).isSome then .error .eexist
  else if w.fs.node ino = .directory then .error .eperm
  else .ok ((w.enter p ino).makes p)

/-- Another name for what has a name. If both lead to one inode, nothing is done. -/
def World.renameTo (source p : Place) : Except Errno World :=
  match w.fs.lookup source, w.fs.lookup p with
  | none, _ => .error .enoent
  | some ino, found =>
      if found = some ino then .ok (w.makes p)
      else if found.any fun target => w.fs.node target = .directory then .error .other
      else .ok ((((w.lose source).lose p).enter p ino).makes p)

def exec : (op : Op) → Choice → World → Option (Ans op × World)
  | .openRoot, c, w => fallible c w (.ok (w.fs.root, w.hold w.fs.root))
  | .openDir dir name, c, w => fallible c w <| match w.fs.lookup (dir, name) with
      | none => .error .enoent
      | some ino =>
          if w.fs.node ino = .directory then .ok (ino, (w.see dir name ino).hold ino)
          else .error .enotdir
  | .mkdir dir name, c, w =>
      fallible c w ((w.create (dir, name) c.ino .directory).map fun w => ((), w.owns c.ino))
  | .openSource, c, w => fallible c w <|
      if w.fs.named c.ino then
        if w.fs.node c.ino = .symlink then .error .eloop
        else .ok (c.ino, { w.owns c.ino with record := { (w.owns c.ino).record with
          source := ⟨c.ino, w.fs.node c.ino⟩ :: w.record.source } }.hold c.ino)
      else .error .enoent
  | .openFile dir name, c, w => fallible c w <| match w.fs.lookup (dir, name) with
      | none => .error .enoent
      | some ino =>
          if w.fs.node ino = .symlink then .error .eloop
          else .ok (ino, (w.look (dir, name) (some ino)).hold ino)
  | .create dir name, c, w =>
      fallible c w ((w.create (dir, name) c.ino (.file [])).map fun w =>
        (c.ino, (w.owns c.ino).hold c.ino))
  | .stat dir name, _, w => match w.fs.lookup (dir, name) with
      | none => some (.error .enoent, w.look (dir, name) none)
      | some ino =>
          some (.ok ⟨ino, w.fs.node ino⟩, (w.look (dir, name) (some ino)).see dir name ino)
  | .fstat fd, c, w => fallible c w (.ok (⟨fd, w.fs.node fd⟩, w))
  | .read fd offset, c, w => fallible c w <| match w.fs.node fd with
      | .file bytes => .ok ((bytes.drop offset).take (c.amount + 1), w)
      | .directory | .symlink | .special => .error .other
  | .contents fd, c, w => fallible c w <| match w.fs.node fd with
      | .file bytes => .ok (bytes, w)
      | .directory | .symlink | .special => .error .other
  | .write fd bytes, c, w => fallible c w <| match w.fs.node fd with
      | .file written => .ok ((), w.setNode fd (.file (written ++ bytes)))
      | .directory | .symlink | .special => .error .other
  | .flock _, c, w => fallible c w (.ok ((), w))
  | .judge fd, c, w => some (c.flag,
      if c.flag then { w with record := { w.record with stale := fd :: w.record.stale } } else w)
  | .linkSource dir name, c, w => fallible c w <|
      if w.fs.named c.ino then (w.linkTo (dir, name) c.ino).map fun w => ((), w)
      else .error .enoent
  | .link dir source name, c, w => fallible c w <| match w.fs.lookup (dir, source) with
      | none => .error .enoent
      | some ino => (w.linkTo (dir, name) ino).map fun w => ((), w)
  | .rename dir source name, c, w =>
      fallible c w ((w.renameTo (dir, source) (dir, name)).map fun w => ((), w))
  | .unlink dir name, c, w => fallible c w <| match w.fs.lookup (dir, name) with
      | none => .error .enoent
      | some ino =>
          if w.fs.node ino = .directory then .error .other
          else .ok ((), w.lose (dir, name))
  | .close fd, _, w => some ((), { w with fs := { w.fs with opened := w.fs.opened.erase fd } })
  | .availableBytes, c, w => fallible c w (.ok (c.amount, w))
  | .copyMetadata _ _, c, w => fallible c w (.ok ((), w))
  | .urandom, c, w => some (c.name, w)
  | .finish result, _, w => some ((), { w with returned := some (result, w.record) })

/-! ### The others -/

inductive Event where
  | create (place : Place) (ino : Ino) (node : Node)
  | link (place : Place) (ino : Ino)
  | rename (source target : Place)
  | unlink (place : Place)
  deriving DecidableEq

/-- Somebody else puts an inode at a place, or takes what is there away. -/
def World.meddle (found : Option Ino) : World :=
  let entries := w.fs.entries.erase p
  { w with
    fs := { w.fs with entries := match found with
      | none => entries
      | some ino => entries.insert ⟨p.1, p.2, ino, false⟩ }
    touched := Function.update w.touched p true }

/-- What somebody else does. A name is created or linked where there is none, and a
    rename replaces what there is. -/
def World.suffer : Event → Option World
  | .create p ino node =>
      if (w.fs.lookup p).isNone && w.fs.free ino then
        some ((w.setNode ino node).meddle p (some ino))
      else none
  | .link p ino =>
      if (w.fs.lookup p).isNone && w.fs.named ino then some (w.meddle p (some ino)) else none
  | .rename source target => match w.fs.lookup source with
      | none => none
      | some ino => some ((w.meddle source none).meddle target (some ino))
  | .unlink p => if (w.fs.lookup p).isSome then some (w.meddle p none) else none

/-! ### Parts of the call -/

abbrev Call := Run Op Ans Exc Unit

namespace Os

def openRoot : Call (Except Errno Ino) := Run.perform Op.openRoot

def openDir (dir : Ino) (name : Name) : Call (Except Errno Ino) :=
  Run.perform (Op.openDir dir name)

def mkdir (dir : Ino) (name : Name) : Call (Except Errno Unit) := Run.perform (Op.mkdir dir name)

def openSource : Call (Except Errno Ino) := Run.perform Op.openSource

def openFile (dir : Ino) (name : Name) : Call (Except Errno Ino) :=
  Run.perform (Op.openFile dir name)

def create (dir : Ino) (name : Name) : Call (Except Errno Ino) := Run.perform (Op.create dir name)

def stat (dir : Ino) (name : Name) : Call (Except Errno Stat) := Run.perform (Op.stat dir name)

def fstat (fd : Ino) : Call (Except Errno Stat) := Run.perform (Op.fstat fd)

def read (fd : Ino) (offset : Nat) : Call (Except Errno Bytes) :=
  Run.perform (Op.read fd offset)

def contents (fd : Ino) : Call (Except Errno Bytes) := Run.perform (Op.contents fd)

def write (fd : Ino) (bytes : Bytes) : Call (Except Errno Unit) := Run.perform (Op.write fd bytes)

def flock (fd : Ino) : Call (Except Errno Unit) := Run.perform (Op.flock fd)

def judge (fd : Ino) : Call Bool := Run.perform (Op.judge fd)

def linkSource (dir : Ino) (name : Name) : Call (Except Errno Unit) :=
  Run.perform (Op.linkSource dir name)

def link (dir : Ino) (source name : Name) : Call (Except Errno Unit) :=
  Run.perform (Op.link dir source name)

def rename (dir : Ino) (source name : Name) : Call (Except Errno Unit) :=
  Run.perform (Op.rename dir source name)

def unlink (dir : Ino) (name : Name) : Call (Except Errno Unit) := Run.perform (Op.unlink dir name)

def close (fd : Ino) : Call Unit := Run.perform (Op.close fd)

def availableBytes : Call (Except Errno Nat) := Run.perform Op.availableBytes

def copyMetadata (source target : Ino) : Call (Except Errno Unit) :=
  Run.perform (Op.copyMetadata source target)

def urandom : Call Name := Run.perform Op.urandom

end Os

def orRaise {α : Type} (r : Except Errno α) : Call α :=
  match r with
  | .ok a => pure a
  | .error e => Run.raise (.ofErrno e)

open Os (close)

def entryExists (name : Name) : Call Bool := do
  match ← Os.stat dir name with
  | .ok _ => pure true
  | .error _ => pure false

def entryIdentity (name : Name) : Call (Option Ino) := do
  match ← Os.stat dir name with
  | .ok info => pure (some info.ino)
  | .error _ => pure none

/-! ### The walk -/

/-- `_reraise_ancestor_failure`. -/
def ancestorFailure (e : Errno) : Exc :=
  if e ∈ [.eloop, .enotdir] then .refused (.ancestor component) else .ofErrno e

/-- The end of `_open_or_create_child_dir`. -/
def createChildDir : Call Ino := do
  match ← Os.mkdir dir component with
  | .ok () | .error .eexist =>
      match ← Os.openDir dir component with
      | .ok fd => pure fd
      | .error e => Run.raise (ancestorFailure component e)
  | .error e => Run.raise (.os e)

def openOrCreateChildDir (createMissing : Bool) : Call Ino := do
  match ← Os.openDir dir component with
  | .ok fd => pure fd
  | .error .enoent =>
      if createMissing then createChildDir dir component else Run.raise (.os .enoent)
  | .error e => Run.raise (ancestorFailure component e)

/-- The loop of `_anchored_publication`, which closes each directory for the next. -/
def walk (createMissing : Bool) : Ino → List Name → Call Ino
  | dir, [] => pure dir
  | dir, component :: components => do
      let next ← Run.andFinally (openOrCreateChildDir dir component createMissing) (close dir)
      walk createMissing next components

/-- `os.path.relpath`, split at the separators. -/
def relComponents (cwd path start : List Char) : List Name :=
  let startList := location (abspath cwd start)
  let pathList := location (abspath cwd path)
  let common := ((startList.zip pathList).takeWhile fun e => e.1 = e.2).length
  let components := List.replicate (startList.length - common) ['.', '.'] ++ pathList.drop common
  if components = [] then [['.']] else components

/-- What a call is made with, and the system it is made on. -/
structure Setup where
  /-- `_PUBLICATION_CONTAINMENT_SUPPORTED`. -/
  supported : Bool := true
  cwd : List Char
  root : List Char
  dst : List Char
  pid : Bytes
  digest : Bytes → Bytes
  /-- How often a loop goes round at most. -/
  rounds : Nat

section Call

variable (setup : Setup)

/-- The directories and the name that a destination is taken into. -/
def Setup.components : List Name := relComponents setup.cwd setup.dst setup.root

/-- `_anchored_publication`, around what is done in the directory. -/
def anchoredPublication {α : Type} (createMissing : Bool) (body : Ino → Name → Call α) :
    Call α := do
  if !setup.supported then Run.raise (.refused .unsupported)
  else if setup.components.contains ['.', '.'] || setup.components = [['.']] then
    Run.raise (.refused .outside)
  else do
    let root ← orRaise (← Os.openRoot)
    let dir ← walk createMissing root setup.components.dropLast
    Run.andFinally (body dir (setup.components.getLastD [])) (close dir)

/-! ### The lock -/

variable (source dir : Ino) (name lock : Name) (fd : Ino)

def lockName : Name := '.' :: name ++ ".publish.lock".toList

def lockPathMatchesFd : Call Bool := do
  match ← Os.fstat fd with
  | .error _ => pure false
  | .ok lockInfo =>
      match ← Os.stat dir lock with
      | .error _ => pure false
      | .ok pathInfo =>
          pure (lockInfo.node.isRegular && pathInfo.node.isRegular && lockInfo.ino = pathInfo.ino)

/-- The body of `_reclaim_lock_if_stale`. -/
def reclaimOpened : Call Bool := do
  match ← Os.flock fd with
  | .error .eagain => pure false
  | .error e => Run.raise (.ofErrno e)
  | .ok () =>
      if !(← lockPathMatchesFd dir lock fd) then pure false
      else if !(← Os.judge fd) then pure false
      else if !(← lockPathMatchesFd dir lock fd) then pure false
      else match ← Os.unlink dir lock with
        | .error _ => pure false
        | .ok () => pure true

def reclaimLockIfStale : Call Bool := do
  match ← Os.openFile dir lock with
  | .error _ => pure false
  | .ok fd => Run.andFinally (reclaimOpened dir lock fd) (close fd)

/-- The loop at the start of `_publish_lock`. -/
def acquireLock (dir : Ino) (name : Name) : Nat → Call Ino
  | 0 => Run.raise .unfinished
  | rounds + 1 => do
      match ← Os.create dir (lockName name) with
      | .ok fd => pure fd
      | .error .eexist =>
          if ← entryExists dir name then Run.raise .fileExists
          else if ← reclaimLockIfStale dir (lockName name) then acquireLock dir name rounds
          else Run.raise .fileExists
      | .error e => Run.raise (.os e)

/-- The end of `_publish_lock`. -/
def releaseLock : Call Unit := do
  if ← lockPathMatchesFd dir lock fd then
    discard (Os.unlink dir lock)
  close fd

/-- `_publish_lock`, around what is done under it. -/
def publishLock {α : Type} (dir : Ino) (name : Name) (body : Call α) : Call α := do
  let fd ← acquireLock dir name setup.rounds
  Run.andFinally (do
    orRaise (← Os.flock fd)
    orRaise (← Os.write fd setup.pid)
    if ← lockPathMatchesFd dir (lockName name) fd then body else Run.raise .fileExists)
    (releaseLock dir (lockName name) fd)

/-! ### The source -/

def openRegularSource : Call Ino := do
  match ← Os.openSource with
  | .error e =>
      Run.raise (if e ∈ [.eloop, .enxio] then .refused .notRegular else .ofErrno e)
  | .ok fd =>
      match ← Os.fstat fd with
      | .error e => do
          close fd
          Run.raise (.ofErrno e)
      | .ok info =>
          if info.node.isRegular then pure fd
          else do
            close fd
            Run.raise (.refused .notRegular)

/-! ### Publishing -/

def copyFallbackErrnos : List Errno := [.exdev, .eperm, .emlink, .eopnotsupp, .eacces]

def publishLinkNoOverwrite : Call Ino := do
  let info ← orRaise (← Os.fstat source)
  let same ← publishLock setup dir name do
    orRaise (← Os.linkSource dir name)
    let found ← entryIdentity dir name
    pure (decide (found = some info.ino))
  if same then pure info.ino else Run.raise (.refused .changedIdentity)

def publishTempNoOverwrite (temp name : Name) : Call Unit :=
  publishLock setup dir name do
    if ← entryExists dir name then Run.raise .fileExists
    else match ← Os.link dir temp name with
      | .ok () => discard (Os.unlink dir temp)
      | .error e =>
          if e ∈ copyFallbackErrnos then orRaise (← Os.rename dir temp name)
          else Run.raise (.ofErrno e)

/-- The loop of `shutil.copyfileobj`. -/
def copyBytes (source target : Ino) : Nat → Nat → Call Unit
  | 0, _ => Run.raise .unfinished
  | rounds + 1, offset => do
      let chunk ← orRaise (← Os.read source offset)
      if chunk = [] then pure ()
      else do
        orRaise (← Os.write target chunk)
        copyBytes source target rounds (offset + chunk.length)

def copyContents (target : Ino) : Call Unit := do
  copyBytes source target setup.rounds 0
  discard (orRaise (← Os.fstat source))
  orRaise (← Os.copyMetadata source target)

def tempName (random : Name) : Name := '.' :: name ++ '.' :: random ++ ".tmp".toList

/-- What `_copy_no_overwrite` does with the copy. -/
def publishCopy (temp name : Name) (size : Nat) (fd : Ino) : Call Ino := do
  copyContents setup source fd
  let info ← orRaise (← Os.fstat fd)
  let copied ← orRaise (← Os.fstat fd)
  if copied.node.size ≠ size then Run.raise .incomplete
  else do
    publishTempNoOverwrite setup dir temp name
    pure info.ino

def copyNoOverwrite : Call (Ino × Ino) := do
  let info ← orRaise (← Os.fstat source)
  let free ← orRaise (← Os.availableBytes)
  if free < info.node.size then Run.raise .insufficientSpace
  else do
    let random ← Os.urandom
    let temp := tempName name random
    let fd ← orRaise (← Os.create dir temp)
    match ← Run.attempt (publishCopy setup source dir temp name info.node.size fd) with
    | .ok identity => pure (identity, fd)
    | .error e => do
        close fd
        discard (Os.unlink dir temp)
        Run.raise e

/-! ### What is there already -/

/-- The descriptors of `_entry_matches_source` compared. -/
def sameContents : Call (Option Ino) := do
  let entryStat ← orRaise (← Os.fstat fd)
  let sourceStat ← orRaise (← Os.fstat source)
  if !entryStat.node.isRegular then pure none
  else if entryStat.ino = sourceStat.ino then pure (some entryStat.ino)
  else if entryStat.node.size ≠ sourceStat.node.size then pure none
  else do
    let found ← orRaise (← Os.contents fd)
    let expected ← orRaise (← Os.contents source)
    pure (if setup.digest found = setup.digest expected then some entryStat.ino else none)

/-- `_entry_matches_source`. The descriptor stays open where it matches. -/
def entryMatchesSource : Call (Option (Ino × Ino)) := do
  match ← Os.stat dir name with
  | .error _ => pure none
  | .ok info =>
      if !info.node.isRegular then pure none
      else match ← Os.openFile dir name with
        | .error _ => pure none
        | .ok fd =>
            match ← Run.attempt (sameContents setup source fd) with
            | .ok (some identity) => pure (some (identity, fd))
            | .ok none | .error _ => do
                close fd
                pure none

def idempotentOrConflict : Call (Ino × Ino) := do
  match ← entryMatchesSource setup source dir name with
  | some found => pure found
  | none => Run.raise .fileExists

/-! ### The walk afterwards -/

def verifyLexicalPublication (identity : Ino) (placed : Bool) :
    Call Unit := do
  let lexical ← Run.attempt (anchoredPublication setup false entryIdentity)
  if lexical = .ok (some identity) then pure ()
  else if placed then do
    if (← entryIdentity dir name) = some identity then
      match ← Os.unlink dir name with
      | .ok () => Run.raise (.refused (.moved true))
      | .error _ => Run.raise (.refused (.moved false))
    else Run.raise (.refused (.moved false))
  else Run.raise (.refused (.moved false))

/-! ### The call -/

structure Published where
  identity : Ino
  held : Option Ino
  placed : Bool
  deriving DecidableEq, Repr

/-- The three ways of `hardlink_or_copy`, and the fallback of two of them. -/
def publish : Call Published := do
  match ← Run.attempt (publishLinkNoOverwrite setup source dir name) with
  | .ok identity => pure ⟨identity, none, true⟩
  | .error .fileExists => do
      let found ← idempotentOrConflict setup source dir name
      pure ⟨found.1, some found.2, false⟩
  | .error (.os e) =>
      if e ∈ copyFallbackErrnos then do
        match ← Run.attempt (copyNoOverwrite setup source dir name) with
        | .ok copied => pure ⟨copied.1, some copied.2, true⟩
        | .error .fileExists => do
            let found ← idempotentOrConflict setup source dir name
            pure ⟨found.1, some found.2, false⟩
        | .error e => Run.raise e
      else Run.raise (.os e)
  | .error e => Run.raise e

/-- What `hardlink_or_copy` does in the directory of the destination. -/
def publishInto : Call FilePublication := do
  let source ← openRegularSource
  Run.andFinally (do
    let published ← publish setup source dir name
    Run.andFinally (do
      verifyLexicalPublication setup dir name published.identity published.placed
      pure ⟨published.placed, published.identity⟩)
      (match published.held with
        | some fd => close fd
        | none => pure ()))
    (close source)

def hardlinkOrCopy : Call FilePublication := anchoredPublication setup true (publishInto setup)

def call : Program Op Ans Unit :=
  (hardlinkOrCopy setup ()).bind fun r => .call (.finish r.1) .ret

/-- The process has nothing open when a call begins, and what is there is not its. -/
def World.begin (w : World) : World where
  fs := { w.fs with
    entries := w.fs.entries.rewrite (fun e => { e with mine := false }) fun _ => rfl
    opened := [] }
  returned := none

/-- The system that calls are made on, one after another, and any of them may be cut
    off. -/
def machine : Machine Op Ans World Choice Event where
  exec := exec
  event e w := w.suffer e
  boot := World.begin
  main := call setup

end Call

end Publication

end PlexManager
