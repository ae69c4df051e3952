import Mathlib.Algebra.BigOperators.Group.Finset.Basic

/-!
# Bytes that a removal gives back

`reclaimable_bytes` of `adapters/filesystem/local.py` over the entry that a path names,
and what `delete` does to the volume when no call fails. Of a file only the inode it
links to counts; names and the order of a listing do not matter to either function.
-/

namespace PlexManager

namespace Filesystem

inductive Listing
  | nil
  | file (ino : Nat) (rest : Listing)
  | link (rest : Listing)
  | dir (children rest : Listing)

/-- The inode behind each file of the tree, once for each of its links there. -/
def Listing.inodes : Listing → List Nat
  | nil => []
  | file ino rest => ino :: rest.inodes
  | link rest => rest.inodes
  | dir children rest => children.inodes ++ rest.inodes

/-- What a path names, its last component not followed. -/
inductive Entry
  | missing
  | link
  | file (ino : Nat)
  | dir (children : Listing)

def Entry.inodes : Entry → List Nat
  | missing | link => []
  | file ino => [ino]
  | dir children => children.inodes

structure Volume where
  entry : Entry
  size : Nat → Nat
  /-- The links to an inode from outside the entry. -/
  elsewhere : Nat → Nat

namespace Volume

variable (v : Volume)

def nlink (ino : Nat) : Nat := v.entry.inodes.count ino + v.elsewhere ino

/-- What one file adds: `stat.st_size` when `stat.st_nlink <= 1`. -/
def own (ino : Nat) : Nat := if v.nlink ino ≤ 1 then v.size ino else 0

/-- The `os.walk` loop. -/
def walk (v : Volume) : Listing → Nat
  | .nil => 0
  | .file ino rest => v.own ino + v.walk rest
  -- `os.path.islink(full)`, or a linked directory, which `os.walk` does not enter.
  | .link rest => v.walk rest
  | .dir children rest => v.walk children + v.walk rest

def reclaimableBytes : Nat :=
  match v.entry with
  | .missing | .link => 0
  | .file ino => v.own ino
  | .dir children => v.walk children

/-- Every branch of `delete` takes the whole entry: a link or a file is unlinked, a
    directory goes with `shutil.rmtree`, which unlinks a link and does not enter it. -/
def delete : Volume := { v with entry := .missing }

/-- The bytes that the inodes of `table` occupy: those with a link left. -/
def used (table : Finset Nat) : Nat :=
  ∑ ino ∈ table with 0 < v.nlink ino, v.size ino

/-- The total size of the inodes whose every link lies in the entry. -/
def freed : Nat :=
  ∑ ino ∈ v.entry.inodes.toFinset with v.nlink ino = v.entry.inodes.count ino, v.size ino

end Volume

end Filesystem

end PlexManager
