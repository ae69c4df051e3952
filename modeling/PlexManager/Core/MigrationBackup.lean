import Mathlib.Data.List.Sort
import PlexManager.Lib.KeyedTable
import PlexManager.Lib.Program

/-!
# The backup before a migration

A container first runs a hook and then the migrations of its image. If the database is
behind the image, the hook takes a copy of the database with the key it is encrypted
under, and publishes both as a directory named after the revision the database is at.
The copy is put together under another name and then renamed. What raises on the way is
caught, and the migrations are run without a copy. They are stamped one by one, so a
migration that fails leaves the database at a revision on the way, with a part of the
next migration in it, and the container is started again.

Whether the database is as the last migration has left it is not asked of the database.
It is told by the directories there are and by a marker, which names the last directory
and the head the database was on its way to.

Every call to the file system, to the database and to the scripts is an operation. It
may be refused, and a process may die before any of them. A question whether something
is there is answered as it is. A file that is written may be cut off, and a tree that is
removed may be left with some of its files. The names of directories are kept in parts:
no revision has a hyphen in it, so no two of them are spelled alike. The modes of the
files are left out.

What an operator does, and the next image, is there when the next container starts.
Beside the volume there is a record of what a start has found and written, which nothing
in the program reads.
-/

namespace PlexManager

namespace MigrationBackup

open Effects KeyedTable

/-! ### Migrations -/

/-- The migrations there are in any image, each after those that come before it. -/
structure History (Rev : Type) where
  lineage : Rev → List Rev
  ends : ∀ r, ∃ before, lineage r = before ++ [r]
  closed : ∀ r, ∀ p ∈ lineage r, lineage p <+: lineage r
  nodup : ∀ r, (lineage r).Nodup

variable {Rev : Type}

def History.upTo (H : History Rev) : Option Rev → List Rev
  | none => []
  | some r => H.lineage r

/-- A database, with the row of `alembic_version` and the migrations that have applied
    anything to it. -/
structure Database (Rev : Type) where
  stamp : Option Rev
  touched : List Rev
  deriving DecidableEq, Repr

/-- What a head is compared with: `_UNKNOWN_HEAD`, or a revision. -/
inductive Head (Rev : Type) where
  | unknown
  | revision (r : Rev)
  deriving DecidableEq, Repr

/-- The scripts of an image, and whether their head can be told. -/
structure Image (Rev : Type) where
  head : Option Rev
  determinable : Bool
  deriving DecidableEq, Repr

def Image.headRevision (image : Image Rev) : Option (Head Rev) :=
  if image.determinable then image.head.map .revision else some .unknown

variable [DecidableEq Rev]

def revisionInGraph (H : History Rev) (image : Image Rev) (r : Rev) : Bool :=
  image.determinable && decide (r ∈ H.upTo image.head)

/-- What `alembic upgrade head` has to run, if it can tell. -/
def History.pending (H : History Rev) (image : Image Rev) : Option Rev → Option (List Rev)
  | none => some (H.upTo image.head)
  | some r =>
      if r ∈ H.upTo image.head then some ((H.upTo image.head).drop (H.lineage r).length) else none

/-- Some of them are run and stamped, and some of the next one may be run. -/
def Database.upgraded (db : Database Rev) (pending : List Rev) (stamped : Nat) (half : Bool) :
    Database Rev where
  stamp := (pending.take stamped).getLast?.or db.stamp
  touched := db.touched ++ pending.take (stamped + half.toNat)

/-! ### The volume -/

abbrev Bytes := List UInt8

/-- `pre-migrate-<from-rev>-<timestamp>`, where `base` is written for no revision. -/
structure Name (Rev : Type) where
  fromRev : Option Rev
  timestamp : Int
  deriving DecidableEq, Repr

structure UpgradeMarker (Rev : Type) where
  fromRev : Option Rev
  head : Head Rev
  backup : Name Rev
  created : Int
  deriving DecidableEq, Repr

/-- `.upgrade-in-progress.json`. -/
inductive MarkerFile (Rev : Type) where
  | absent
  /-- It cannot be read, or what it says cannot be understood. -/
  | corrupt
  | holds (marker : UpgradeMarker Rev)
  deriving DecidableEq, Repr

inductive KeyDisposition where
  | fileIncluded
  | envOverride
  | missing
  deriving DecidableEq, Repr

/-- What `MANIFEST.txt` says that depends on the backup. -/
structure Manifest (Rev : Type) where
  fromRev : Option Rev
  key : KeyDisposition
  deriving DecidableEq, Repr

inductive Content (α : Type) where
  | cut
  | whole (a : α)
  deriving DecidableEq, Repr

inductive File where
  | database
  | key
  | manifest
  deriving DecidableEq, Repr

structure Contents (Rev : Type) where
  database : Option (Content (Database Rev)) := none
  key : Option (Content Bytes) := none
  manifest : Option (Content (Manifest Rev)) := none
  mtime : Int
  deriving DecidableEq, Repr

/-- A directory, and whether an operator has put it there. -/
structure Dir (Rev : Type) where
  name : Name Rev
  contents : Contents Rev
  archived : Bool := false
  deriving DecidableEq, Repr

/-- Directories under their names. -/
abbrev Dirs (Rev : Type) := Table (Dir.name : Dir Rev → Name Rev)

structure Settings where
  /-- `_sqlite_file_path` gives a path. -/
  sqliteFile : Bool := true
  /-- `PLEX_MANAGER_FERNET_KEY`. -/
  fernetKey : Option Bytes := none
  deriving DecidableEq, Repr

/-- What a start has come across and done. -/
structure Record (Rev : Type) where
  /-- The database was at the head of the image, or at that of the marker. -/
  ended : Bool := false
  /-- The marker could not be read. -/
  misread : Bool := false
  /-- The marker could not be written. -/
  unmarked : Bool := false
  /-- There was a directory under the other name already. -/
  reused : Bool := false
  written : Option (Dir Rev) := none
  deriving DecidableEq, Repr

/-- The data directory, and what a container is started with. -/
structure Volume (Rev : Type) where
  database : Option (Database Rev)
  /-- `secret.key`. -/
  keyFile : Option Bytes
  units : Dirs Rev
  staged : Dirs Rev
  marker : MarkerFile Rev
  image : Image Rev
  settings : Settings
  record : Record Rev

structure Next (Rev : Type) where
  image : Image Rev
  settings : Settings
  keyFile : Option Bytes
  /-- Directories that are copied back. -/
  archives : List (Dir Rev) := []
  deriving DecidableEq, Repr

structure World (Rev : Type) where
  here : Volume Rev
  next : Next Rev

/-- The row of `alembic_version`, as a head. -/
def Database.head (db : Database Rev) : Option (Head Rev) := db.stamp.map .revision

def MarkerFile.reached (file : MarkerFile Rev) (db : Database Rev) : Bool :=
  match file with
  | .holds marker => some marker.head = db.head
  | .absent | .corrupt => false

/-- A start finds the database at the head of its image. -/
def Volume.atHead (v : Volume Rev) : Bool :=
  v.database.any fun db => v.image.headRevision = db.head

/-- A start finds the database at the head of its image, or at that of the marker. -/
def Volume.ended (v : Volume Rev) : Bool :=
  v.atHead || v.database.any fun db => v.marker.reached db

/-! ### Operations -/

inductive Op (Rev : Type) where
  | settings
  /-- `db_path.exists()`. -/
  | databaseExists
  | currentRevision
  /-- The scripts directory is read. -/
  | scripts
  | now
  /-- The directories `pre-migrate-*`. -/
  | units
  | mtimes
  | isDir (name : Name Rev)
  | readMarker
  | openMarker
  | fillMarker (marker : UpgradeMarker Rev)
  | unlinkMarker
  | mkdirStaging (name : Name Rev)
  /-- `_snapshot_sqlite`. -/
  | snapshot (name : Name Rev)
  | keyExists
  /-- `shutil.copy2`. -/
  | copyKey (name : Name Rev)
  | chmodKey (name : Name Rev)
  | writeManifest (name : Name Rev) (manifest : Manifest Rev)
  /-- `os.replace`. -/
  | publish (name : Name Rev)
  /-- The directories `.tmp-pre-migrate-*`. -/
  | staged
  /-- `shutil.rmtree` of a directory that is not published. -/
  | removeStaged (name : Name Rev)
  /-- `shutil.rmtree` of one that is. -/
  | removeUnit (name : Name Rev)
  /-- `alembic upgrade head`. -/
  | upgrade
  deriving DecidableEq

inductive Exc where
  | os
  | sqlite
  deriving DecidableEq, Repr

def Ans : Op Rev → Type
  | .settings => Settings
  | .databaseExists | .isDir _ | .keyExists => Bool
  | .currentRevision => Except Exc (Option Rev)
  | .scripts => Image Rev
  | .now => Int
  | .units | .staged => List (Name Rev)
  | .mtimes => Except Exc (Name Rev → Int)
  | .readMarker => MarkerFile Rev
  | .openMarker | .fillMarker _ | .unlinkMarker | .mkdirStaging _ | .snapshot _ | .copyKey _
  | .chmodKey _ | .writeManifest .. | .publish _ | .removeStaged _ | .removeUnit _ =>
      Except Exc Unit
  | .upgrade => Unit

inductive Choice (Rev : Type) where
  | done (now : Int)
  /-- It is refused. The files are those that are cut off, or removed already. -/
  | fault (files : List File)
  /-- In which order a directory lists its entries. -/
  | order (names : List (Name Rev))
  /-- How many migrations are stamped, and whether something of the next one is run. -/
  | upgraded (stamped : Nat) (half : Bool)
  deriving DecidableEq

def Contents.cut (contents : Contents Rev) : File → Contents Rev
  | .database => { contents with database := some .cut }
  | .key => { contents with key := some .cut }
  | .manifest => { contents with manifest := some .cut }

def Contents.without (contents : Contents Rev) (files : List File) : Contents Rev where
  database := if .database ∈ files then none else contents.database
  key := if .key ∈ files then none else contents.key
  manifest := if .manifest ∈ files then none else contents.manifest
  mtime := contents.mtime

variable (H : History Rev) (dirs : Dirs Rev) (c : Choice Rev) (name : Name Rev)

def rewriteContents (f : Contents Rev → Contents Rev) : Dirs Rev :=
  dirs.modify name (fun d => { d with contents := f d.contents }) fun _ => rfl

def listing : Option (List (Name Rev)) :=
  match c with
  | .order names => if names.Perm (dirs.rows.map Dir.name) then some names else none
  | .done _ | .fault _ | .upgraded .. => some (dirs.rows.map Dir.name)

def Volume.write (v : Volume Rev) (c : Choice Rev) (name : Name Rev) (file : File)
    (f : Contents Rev → Contents Rev) : Except Exc Unit × Volume Rev :=
  match c with
  | .done now =>
      if (v.staged.find name).isSome then
        (.ok (), { v with
          staged := rewriteContents v.staged name fun k => { f k with mtime := now } })
      else (.error .os, v)
  | .fault files =>
      (.error .os, if file ∈ files then
        { v with staged := rewriteContents v.staged name fun k => k.cut file } else v)
  | .order _ | .upgraded .. => (.error .os, v)

def removal :
    Except Exc Unit × Dirs Rev :=
  match c with
  | .done _ => (.ok (), dirs.erase name)
  | .fault files => (.error .os, rewriteContents dirs name fun k => k.without files)
  | .order _ | .upgraded .. => (.error .os, dirs)

/-- Alembic runs on the database, and makes one if there is none. -/
def Volume.upgrade (v : Volume Rev) (H : History Rev) (stamped : Nat) (half : Bool) : Volume Rev :=
  if v.settings.sqliteFile then
    let db := v.database.getD ⟨none, []⟩
    match H.pending v.image db.stamp with
    | none => v
    | some pending => { v with database := some (db.upgraded pending stamped half) }
  else v

/-- Whether a choice lets an operation through that changes nothing but what it says. -/
def Choice.granted : Choice Rev → Bool
  | .done _ => true
  | .fault _ | .order _ | .upgraded .. => false

def exec (H : History Rev) : (op : Op Rev) → Choice Rev → Volume Rev → Option (Ans op × Volume Rev)
  | .settings, _, v => some (v.settings, v)
  | .databaseExists, _, v => some (v.database.isSome, v)
  | .currentRevision, c, v => match v.database with
      | none => some (.error .sqlite, v)
      | some db => some (if c.granted then .ok db.stamp else .error .sqlite, v)
  | .scripts, _, v => some (v.image, v)
  | .now, c, v => match c with
      | .done now => some (now, v)
      | .fault _ | .order _ | .upgraded .. => none
  | .units, c, v => (listing v.units c).map fun names => (names, v)
  | .mtimes, c, v =>
      some (if c.granted then .ok fun name => ((v.units.find name).map (·.contents.mtime)).getD 0
        else .error .os, v)
  | .isDir name, _, v => some ((v.units.find name).isSome, v)
  | .readMarker, c, v =>
      if c.granted then some (v.marker, v)
      else some (.corrupt, { v with record := { v.record with misread := true } })
  | .openMarker, c, v =>
      if c.granted then some (.ok (), { v with marker := .corrupt })
      else some (.error .os, { v with record := { v.record with unmarked := true } })
  | .fillMarker marker, c, v =>
      if c.granted then some (.ok (), { v with marker := .holds marker })
      else some (.error .os, { v with record := { v.record with unmarked := true } })
  | .unlinkMarker, c, v =>
      if c.granted then some (.ok (), { v with marker := .absent }) else some (.error .os, v)
  | .mkdirStaging name, c, v => match c with
      | .done now => some (.ok (), { v with
          staged := v.staged.insert { name := name, contents := { mtime := now } }
          record := { v.record with reused := (v.staged.find name).isSome } })
      | .fault _ | .order _ | .upgraded .. => some (.error .os, v)
  | .snapshot name, c, v => match v.database with
      | none => some (.error .sqlite, v)
      | some db => some (v.write c name .database fun k => { k with database := some (.whole db) })
  | .keyExists, _, v => some (v.keyFile.isSome, v)
  | .copyKey name, c, v => match v.keyFile with
      | none => some (.error .os, v)
      | some key => some (v.write c name .key fun k => { k with key := some (.whole key) })
  | .chmodKey _, c, v => some (if c.granted then .ok () else .error .os, v)
  | .writeManifest name manifest, c, v =>
      some (v.write c name .manifest fun k => { k with manifest := some (.whole manifest) })
  | .publish name, c, v => match v.staged.find name, v.units.find name with
      | some d, none =>
          if c.granted then some (.ok (), { v with
            units := v.units.insert d
            staged := v.staged.erase name
            record := { v.record with written := some d } })
          else some (.error .os, v)
      | some _, some _ | none, _ => some (.error .os, v)
  | .staged, c, v => (listing v.staged c).map fun names => (names, v)
  | .removeStaged name, c, v =>
      some ((removal v.staged c name).1, { v with staged := (removal v.staged c name).2 })
  | .removeUnit name, c, v =>
      some ((removal v.units c name).1, { v with units := (removal v.units c name).2 })
  | .upgrade, c, v => match c with
      | .upgraded stamped half => some ((), v.upgrade H stamped half)
      | .done _ | .fault _ | .order _ => some ((), v)

abbrev Hook (Rev : Type) := Run (Op Rev) Ans Exc Unit

namespace Os

def settings : Hook Rev Settings := Run.perform Op.settings

def databaseExists : Hook Rev Bool := Run.perform Op.databaseExists

def currentRevision : Hook Rev (Except Exc (Option Rev)) := Run.perform Op.currentRevision

def scripts : Hook Rev (Image Rev) := Run.perform Op.scripts

def now : Hook Rev Int := Run.perform Op.now

def units : Hook Rev (List (Name Rev)) := Run.perform Op.units

def mtimes : Hook Rev (Except Exc (Name Rev → Int)) := Run.perform Op.mtimes

def isDir (name : Name Rev) : Hook Rev Bool := Run.perform (Op.isDir name)

def readMarker : Hook Rev (MarkerFile Rev) := Run.perform Op.readMarker

def openMarker : Hook Rev (Except Exc Unit) := Run.perform Op.openMarker

def fillMarker (marker : UpgradeMarker Rev) : Hook Rev (Except Exc Unit) :=
  Run.perform (Op.fillMarker marker)

def unlinkMarker : Hook Rev (Except Exc Unit) := Run.perform Op.unlinkMarker

def mkdirStaging (name : Name Rev) : Hook Rev (Except Exc Unit) :=
  Run.perform (Op.mkdirStaging name)

def snapshot (name : Name Rev) : Hook Rev (Except Exc Unit) := Run.perform (Op.snapshot name)

def keyExists : Hook Rev Bool := Run.perform Op.keyExists

def copyKey (name : Name Rev) : Hook Rev (Except Exc Unit) := Run.perform (Op.copyKey name)

def chmodKey (name : Name Rev) : Hook Rev (Except Exc Unit) := Run.perform (Op.chmodKey name)

def writeManifest (name : Name Rev) (manifest : Manifest Rev) : Hook Rev (Except Exc Unit) :=
  Run.perform (Op.writeManifest name manifest)

def publish (name : Name Rev) : Hook Rev (Except Exc Unit) := Run.perform (Op.publish name)

def staged : Hook Rev (List (Name Rev)) := Run.perform Op.staged

def removeStaged (name : Name Rev) : Hook Rev (Except Exc Unit) :=
  Run.perform (Op.removeStaged name)

def removeUnit (name : Name Rev) : Hook Rev (Except Exc Unit) := Run.perform (Op.removeUnit name)

end Os

/-- A call that raises where it is refused. -/
def orRaise {α : Type} (r : Except Exc α) : Hook Rev α := Run.ofExcept r

/-! ### The marker -/

/-- `except OSError`, which logs and goes on. -/
def ignoringOs (x : Hook Rev Unit) : Hook Rev Unit :=
  Run.tryCatch x fun e => match e with
    | .os => pure ()
    | .sqlite => Run.raise e

def readMarker : Hook Rev (Option (UpgradeMarker Rev)) := do
  match ← Os.readMarker with
  | .absent | .corrupt => pure none
  | .holds marker => pure (some marker)

def writeMarker (marker : UpgradeMarker Rev) : Hook Rev Unit :=
  ignoringOs do
    orRaise (← Os.openMarker)
    orRaise (← Os.fillMarker marker)

def clearMarker : Hook Rev Unit := ignoringOs do orRaise (← Os.unlinkMarker)

/-! ### The backup -/

def fernetEnvOverrideConfigured (settings : Settings) : Bool :=
  match settings.fernetKey with
  | none => false
  | some key => !key.isEmpty

def copyKey (settings : Settings) (name : Name Rev) : Hook Rev KeyDisposition := do
  if fernetEnvOverrideConfigured settings then pure .envOverride
  else if !(← Os.keyExists) then pure .missing
  else do
    orRaise (← Os.copyKey name)
    orRaise (← Os.chmodKey name)
    pure .fileIncluded

/-- What is tried in `create_pre_migration_backup`: the database, the key and
    `_write_manifest`. -/
def stage (settings : Settings) (current : Option Rev) (name : Name Rev) : Hook Rev Unit := do
  orRaise (← Os.snapshot name)
  let disposition ← copyKey settings name
  orRaise (← Os.writeManifest name ⟨current, disposition⟩)

def stageOrRemove (settings : Settings) (current : Option Rev) (name : Name Rev) :
    Hook Rev Unit := do
  match ← Run.attempt (stage settings current name) with
  | .ok () => pure ()
  | .error e => do
      discard (Os.removeStaged name)
      Run.raise e

def keepCount : Nat := 5

def stale (names : List (Name Rev)) (mtime : Name Rev → Int) (keep : Nat)
    (spared : Option (Name Rev)) : List (Name Rev) :=
  let candidates := (names.filter fun name => some name ≠ spared).insertionSort fun a b =>
    mtime a ≤ mtime b
  candidates.take (candidates.length - (keep - if spared.isSome then 1 else 0))

def prune (keep : Nat) (protect : Name Rev) : Hook Rev Unit := do
  let partials ← Os.staged
  partials.forM fun name => discard (Os.removeStaged name)
  let present ← Os.isDir protect
  let names ← Os.units
  let mtime ← orRaise (← Os.mtimes)
  (stale names mtime keep (if present then some protect else none)).forM fun name =>
    discard (Os.removeUnit name)

def backUp (settings : Settings) (current : Option Rev) (head : Option (Head Rev))
    (name : Name Rev) : Hook Rev (Option (Name Rev)) := do
  orRaise (← Os.mkdirStaging name)
  let created ← Os.now
  writeMarker ⟨current, head.getD .unknown, name, created⟩
  stageOrRemove settings current name
  orRaise (← Os.publish name)
  if head = some .unknown then pure (some name)
  else do
    prune keepCount name
    pure (some name)

/-- What `create_pre_migration_backup` asks of the marker. -/
def upgradeInFlight (current : Option Rev) : Hook Rev Bool := do
  match ← readMarker with
  | none => pure false
  | some marker =>
      if some marker.head = current.map .revision then do
        clearMarker
        pure false
      else if ← Os.isDir marker.backup then pure true
      else do
        clearMarker
        pure false

/-- The database is stamped at a revision that the image does not know. -/
def foreign (image : Image Rev) (current : Option Rev) : Bool :=
  match current with
  | none => false
  | some r => decide (image.headRevision ≠ some .unknown) && !revisionInGraph H image r

def createPreMigrationBackup : Hook Rev (Option (Name Rev)) := do
  let settings ← Os.settings
  if !settings.sqliteFile then pure none
  else if !(← Os.databaseExists) then pure none
  else do
    let current ← orRaise (← Os.currentRevision)
    let image ← Os.scripts
    if image.headRevision = current.map .revision then do
      clearMarker
      pure none
    else if foreign H image current then pure none
    else do
      let timestamp ← Os.now
      let names ← Os.units
      if names.any fun name => name.fromRev = current then pure none
      else if ← upgradeInFlight current then pure none
      else backUp settings current image.headRevision ⟨current, timestamp⟩

/-- `main`, which logs what is raised. -/
def main : Hook Rev Unit :=
  Run.tryCatch (discard (createPreMigrationBackup H)) fun _ => pure ()

/-! ### The container -/

def entrypoint : Program (Op Rev) Ans Unit :=
  (main H ()).bind fun r => match r.1 with
    | .ok () => .call .upgrade .ret
    | .error _ => .ret ()

/-- What an operator does for the next start, and the application with its key. -/
inductive Event (Rev : Type) where
  | deploy (image : Image Rev)
  | configure (settings : Settings)
  | setKey (key : Option Bytes)
  | copyBack (name : Name Rev) (contents : Contents Rev)
  deriving DecidableEq

def Next.after (next : Next Rev) : Event Rev → Next Rev
  | .deploy image => { next with image := image }
  | .configure settings => { next with settings := settings }
  | .setKey key => { next with keyFile := key }
  | .copyBack name contents =>
      { next with archives := next.archives ++ [⟨name, contents, true⟩] }

/-- What a start finds. What is copied back does not replace what is there. -/
def World.found (w : World Rev) : Volume Rev :=
  { w.here with
    image := w.next.image
    settings := w.next.settings
    keyFile := w.next.keyFile
    units := w.next.archives.foldl Table.insert w.here.units }

def World.boot (w : World Rev) : World Rev where
  here := { w.found with record := { ended := w.found.ended } }
  next := { w.next with archives := [] }

/-- The container, which is started again and again. -/
def machine : Machine (Op Rev) Ans (World Rev) (Choice Rev) (Event Rev) where
  exec op c w := (exec H op c w.here).map fun r => (r.1, { w with here := r.2 })
  event e w := some { w with next := w.next.after e }
  boot := World.boot
  main := entrypoint H

abbrev Container (Rev : Type) := System (Op Rev) Ans (World Rev)

end MigrationBackup

end PlexManager
