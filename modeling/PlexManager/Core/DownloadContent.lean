import Mathlib.Data.List.Infix
import PlexManager.Lib.PosixPath

/-!
# Where the content of a download is seen

A download client names a path of its own host, and inside the container the same content
lies under a mount. `services/path_visibility.py` looks for it there: it remaps the save
directory once, and takes the place of the content only when the files that the client
lists are there with their sizes. The paths are texts, and the file system answers a
`stat` of them; what fails with an `OSError` is not there.
-/

namespace PlexManager

namespace PathVisibility

open PosixPath

abbrev Text := List Char

/-- `os.path.join(directory, *components)`. -/
def joinAll (directory : Text) (components : List Text) : Text :=
  components.foldl pathJoin directory

/-- A file system as it is found: nothing lies under a path that is not there. -/
structure FileSystem where
  /-- Whether the path is a directory, and its size. -/
  stat : Text → Option (Bool × Nat)
  ismount : Text → Bool
  cwd : Text
  absolute : cwd.head? = some '/'
  above : ∀ path component, path ≠ [] → (stat (pathJoin path component)).isSome →
    (stat path).isSome

def FileSystem.exists (fs : FileSystem) (path : Text) : Bool := (fs.stat path).isSome

def FileSystem.isdir (fs : FileSystem) (path : Text) : Bool := (fs.stat path).any (·.1)

def FileSystem.getsize (fs : FileSystem) (path : Text) : Option Nat := (fs.stat path).map (·.2)

/-- A path of `KNOWN_DOWNLOAD_MOUNTS`: absolute and normalized. -/
structure DownloadMount where
  path : Text
  absolute : path.head? = some '/'
  normal : normpath path = path

variable (fs : FileSystem)

variable (path : Text) (mounts : List DownloadMount) (predicate : Text → Bool)

def isLiveMount : Bool := fs.isdir path && fs.ismount path

def isUnder (normPath mount : Text) : Bool :=
  decide (normPath = normpath mount) || (normpath mount ++ ['/']).isPrefixOf normPath

/-- The mounts that are live, by the path given for each. -/
def liveMounts : List Text :=
  (mounts.map (·.path)).filter fun mount => mount ≠ [] && isLiveMount fs mount

def contentIsMounted : Bool :=
  let live := (liveMounts fs mounts).map normpath
  if live = [] then true else live.any (isUnder (normpath path))

def named (components : List Text) : List Text :=
  components.filter fun c => c ≠ [] && c ≠ ['.'] && c ≠ ['.', '.']

/-- The first candidate that is accepted, the longest suffix of the path first. -/
def suffixSearch (live : List Text) (comps : List Text) : Option Text :=
  (comps.tails.filter (· ≠ [])).findSome? fun suffix =>
    (live.map fun mount => joinAll mount suffix).find? predicate

/-- The mount whose own name is the last one of the path. -/
def mountRoot (live : List Text) (comps : List Text) : Option Text :=
  live.find? fun mount => predicate mount && comps ≠ [] &&
    (split (mount.reverse.dropWhile (· = '/')).reverse).getLast? = comps.getLast?

def remapToVisible (probeOriginal allowMountRoot : Bool) : Option Text :=
  if path = [] then none
  else
    let live := liveMounts fs mounts
    let norm := normpath path
    if live.any (isUnder norm) then if predicate path then some path else none
    else
      let original := if probeOriginal && predicate path then some path else none
      let comps := named (split norm)
      if live = [] then original
      else
        ((suffixSearch predicate live comps).or
          (if allowMountRoot then mountRoot predicate live comps else none)).or original

/-- The components that `os.path.relpath` works on. -/
def place : List Text := location (abspath fs.cwd (normpath path))

def commonPrefix : List Text → List Text → Nat
  | a :: as, b :: bs => if a = b then commonPrefix as bs + 1 else 0
  | _, _ => 0

def relativeComponents (base : Text) : Option (List Text) :=
  let shared := commonPrefix (place fs base) (place fs path)
  let rel := List.replicate ((place fs base).length - shared) ['.', '.'] ++
    (place fs path).drop shared
  -- An empty `rel` is the text `.`.
  if rel = [] ∨ rel.head? = some ['.', '.'] then none else some (named rel)

/-- The loop of `_proves_content`. -/
def proves (anchorDir : Text) (remainder : List Text) : Bool → List (Text × Nat) → Bool
  | witnessed, [] => witnessed
  | witnessed, (name, size) :: files =>
      let comps := named (split name)
      if comps = [] ∨ comps.take remainder.length ≠ remainder then
        proves anchorDir remainder witnessed files
      else
        match fs.getsize (joinAll anchorDir comps) with
        | none => proves anchorDir remainder witnessed files
        | some actual =>
            if actual ≠ size then false else proves anchorDir remainder true files

def provesContent (anchorDir : Text) (remainder : List Text) (files : List (Text × Nat)) : Bool :=
  proves fs anchorDir remainder false files

/-- `remap_download_content`, without the verbatim path it falls back on. `inl` is an
    answer. -/
def remapSavePath (content savePath : Text) (files : List (Text × Nat))
    (mounts : List DownloadMount) : Option Text ⊕ Unit :=
  match relativeComponents fs content savePath with
  | none | some [] => .inr ()
  | some remainder =>
      match remapToVisible fs savePath mounts fs.isdir false false with
      | some saveDir =>
          .inl (if provesContent fs saveDir remainder files then some (joinAll saveDir remainder)
            else none)
      | none =>
          match (liveMounts fs mounts).find? fun mount =>
            provesContent fs mount remainder files with
          | some mount => .inl (some (joinAll mount remainder))
          | none => .inr ()

def remapDownloadContent (content savePath : Text) (files : List (Text × Nat))
    (mounts : List DownloadMount) : Option Text :=
  if content = [] then none
  else if fs.exists content && contentIsMounted fs content mounts then some content
  else
    let verbatim := if fs.exists content then some content else none
    -- A missing save path is the empty text.
    if savePath = [] then verbatim
    else
      match remapSavePath fs content savePath files mounts with
      | .inl answer => answer
      | .inr () => verbatim

end PathVisibility

end PlexManager
