import Mathlib.Data.List.DropRight
import PlexManager.Lib.PosixPath

/-!
# Names of files and folders

A title becomes a component of a path in five stages: colons are written as dashes, some
characters are replaced or dropped, a run of one separator becomes a single one, a device
name with a dot behind it is defused, and spaces and dots are trimmed from both ends. An
episode file is named after its season and its episodes: one episode, a range of them
without gaps, or an enumeration.
-/

namespace PlexManager

namespace Naming

abbrev Text := List Char

/-! ### Titles -/

/-- `name.replace(": ", " - ")`. -/
def spaceColons : Text → Text
  | ':' :: ' ' :: s => ' ' :: '-' :: ' ' :: spaceColons s
  | c :: s => c :: spaceColons s
  | [] => []

/-- `_BAD_CHARACTERS`, and the colon that is left. They are replaced one after the other,
    and no replacement is one of them. -/
def goodCharacters (c : Char) : Text :=
  match c with
  | ':' => ['-']
  | '\\' => ['+']
  | '/' => ['+']
  | '<' => []
  | '>' => []
  | '?' => []
  | '*' => ['!']
  | '|' => ['-']
  | '"' => []
  | c => [c]

def isSeparator (c : Char) : Bool := c == '-' || c == ' ' || c == '.' || c == '_'

/-- `_REPEATED_SEPARATOR_RE.sub`. -/
def collapse : Text → Text
  | a :: b :: s => if a = b ∧ isSeparator a then collapse (b :: s) else a :: collapse (b :: s)
  | s => s

/-- `aux|com[1-9]|con|lpt[1-9]|nul|prn`, in letters of either case. -/
def isDeviceName (name : Text) : Bool :=
  match name.map Char.toLower with
  | ['a', 'u', 'x'] | ['c', 'o', 'n'] | ['n', 'u', 'l'] | ['p', 'r', 'n'] => true
  | ['c', 'o', 'm', d] | ['l', 'p', 't', d] => decide ('1' ≤ d) && decide (d ≤ '9')
  | _ => false

/-- Whether a text starts with a device name and a dot. The names have no dot. -/
def startsReserved (s : Text) : Bool :=
  isDeviceName (s.takeWhile (· ≠ '.')) && !(s.dropWhile (· ≠ '.')).isEmpty

/-- `_RESERVED_DEVICE_NAME_RE.sub`. -/
def guardReserved (s : Text) : Text :=
  if startsReserved s then s.takeWhile (· ≠ '.') ++ '_' :: (s.dropWhile (· ≠ '.')).tail else s

def isTrimmed (c : Char) : Bool := c == ' ' || c == '.'

/-- `strip(" .")`. -/
def strip (s : Text) : Text := (s.dropWhile isTrimmed).rdropWhile isTrimmed

/-- The title when its characters are replaced and its runs collapsed. -/
def collapsed (name : Text) : Text := collapse ((spaceColons name).flatMap goodCharacters)

def cleanTitle (name : Text) : Text := strip (guardReserved (collapsed name))

/-! ### Episodes -/

/-- `f"{n:02d}"`. -/
def twoDigits (n : Nat) : Text := if n < 10 then '0' :: Nat.toDigits 10 n else Nat.toDigits 10 n

/-- The same of a number with a sign. -/
def twoPlaces (n : Int) : Text :=
  if n < 0 then '-' :: Nat.toDigits 10 n.natAbs else twoDigits n.natAbs

/-- `_episode_token`. Without an episode there is none. -/
def episodeToken (season : Int) (episodes : List Nat) : Option Text :=
  match episodes.mergeSort with
  | [] => none
  | [episode] => some ('S' :: twoPlaces season ++ 'E' :: twoDigits episode)
  | first :: second :: others =>
      let last := (second :: others).getLastD first
      if last - first = (second :: others).length then
        some ('S' :: twoPlaces season ++ 'E' :: twoDigits first ++ '-' :: 'E' :: twoDigits last)
      else
        some ('S' :: twoPlaces season ++
          (first :: second :: others).flatMap fun episode => 'E' :: twoDigits episode)

/-! ### Paths -/

/-- The components of a path that is put together of relative ones. -/
def parts (paths : List Text) : List Text :=
  (paths.flatMap PosixPath.split).filter fun part => part ≠ [] && part ≠ ['.']

variable (title : Text) (year : Option Int)

/-- `f"{title} ({year})"`. -/
def stem : Option Int → Text
  | none => title
  | some year => title ++ " (".toList ++ (toString year).toList ++ [')']

def plexMovieRelativePath (ext : Text) : List Text :=
  let cleaned := cleanTitle (stem title year)
  parts [cleaned, cleaned ++ '.' :: ext]

/-- `plex_tv_season_relative_dir`, as the paths that it is put together of. -/
def seasonDirs (season : Int) : List Text :=
  [cleanTitle (stem title year), "Season ".toList ++ twoPlaces season]

def episodeFilename (token ext : Text) : Text :=
  cleanTitle title ++ " - ".toList ++ token ++ '.' :: ext

def plexTvEpisodeRelativePath (season : Int)
    (episodes : List Nat) (ext : Text) : Option (List Text) := do
  let token ← episodeToken season episodes
  return parts (seasonDirs title year season ++ [episodeFilename title token ext])

end Naming

end PlexManager
