import Mathlib.Data.List.Dedup
import PlexManager.Lib.Numeral
import PlexManager.Lib.PosixPath

/-!
# What Plex answers

Plex answers with JSON, and nothing in it is taken for granted: a field that is missing or
of another type reads as absent, and a row that is not an object reads as one without
fields. Only the list of the sections is checked as a whole, because fewer sections than
there are would be taken for an answer.

An item carries the ids of its agents as texts. `int` does not read digits without end, and
raises on an item with an id that is too long, whatever else the item has. A section has
locations in the namespace of the host, which a path of the container is mapped to.
-/

namespace PlexManager

namespace PlexLibrary

inductive Json where
  | null
  | bool (b : Bool)
  | int (n : Int)
  | float
  | str (s : String)
  | arr (items : List Json)
  | obj (fields : List (String × Json))

abbrev Fields : Type := List (String × Json)

variable (payload fields item : Fields)

/-- `fields.get(key)`. -/
def field (key : String) : Json :=
  ((fields.find? fun f => f.1 = key).map Prod.snd).getD .null

def asMapping : Json → Fields
  | .obj fields => fields
  | _ => []

def asSequence : Json → List Json
  | .arr items => items
  | _ => []

def getStr (key : String) : Option String :=
  match field fields key with
  | .str s => if s = "" then none else some s
  | _ => none

def getInt (key : String) : Option Int :=
  match field fields key with
  | .int n => some n
  | _ => none

def mediaContainer : Fields := asMapping (field payload "MediaContainer")

def metadata : List Fields :=
  (asSequence (field (mediaContainer payload) "Metadata")).map asMapping

/-! ### Sections -/

inductive MediaType where
  | movie
  | tv
  deriving DecidableEq, Repr

inductive SectionType where
  | movie
  | show
  deriving DecidableEq, Repr

def MediaType.sectionType : MediaType → SectionType
  | movie => .movie
  | tv => .show

structure LibrarySection where
  key : String
  title : String
  type : SectionType
  locations : List String := []
  deriving DecidableEq, Repr

def parseSection (entry : Fields) : Option LibrarySection :=
  match getStr entry "key", getStr entry "title", getStr entry "type" with
  | some key, some title, some type =>
      let locations := (asSequence (field entry "Location")).filterMap fun location =>
        getStr (asMapping location) "path"
      if type = "movie" then some { key, title, type := .movie, locations }
      else if type = "show" then some { key, title, type := .show, locations }
      else none
  | _, _, _ => none

def identifies (row : Fields) : Bool :=
  (getStr row "key").isSome && (getStr row "title").isSome && (getStr row "type").isSome

/-- `_parse_sections_envelope`, or `none` where it raises. -/
def parseSectionsEnvelope : Option (List LibrarySection) :=
  match field payload "MediaContainer" with
  | .obj container => match field container "Directory" with
    | .null => if getInt container "size" = some 0 then some [] else none
    | .arr rows =>
        if (getInt container "size").all (fun size => size = (rows.length : Int)) = true ∧
            (rows.map asMapping).all identifies = true
        then some ((rows.map asMapping).filterMap parseSection)
        else none
    | _ => none
  | _ => none

/-! ### Ids -/

def isDigit (c : Char) : Bool := '0' ≤ c ∧ c ≤ '9'

def number (digits : List Char) : Nat :=
  digits.foldl (fun n c => 10 * n + (c.toNat - '0'.toNat)) 0

/-- The digits behind `tmdb://` or `themoviedb://`. -/
def digitsAt (text : List Char) : List Char :=
  if "tmdb://".toList.isPrefixOf text then (text.drop 7).takeWhile isDigit
  else if "themoviedb://".toList.isPrefixOf text then (text.drop 13).takeWhile isDigit
  else []

/-- The id that is named there, if one is. -/
def idAt (text : List Char) : Option Nat :=
  if digitsAt text = [] then none else some (number (digitsAt text))

/-- `_extract_tmdb_ids`, where it does not raise. No match begins within another. -/
def extractTmdbIds : List Char → List Nat
  | [] => []
  | c :: cs => (idAt (c :: cs)).toList ++ extractTmdbIds cs

/-- `_extract_tmdb_ids` does not raise: `int` takes the digits of every id. -/
def idsReadIn : List Char → Bool
  | [] => true
  | c :: cs => (digitsAt (c :: cs)).length ≤ TextCodec.maxStrDigits && idsReadIn cs

/-- The texts in which an item may name ids. -/
def guids : List String :=
  (getStr item "guid").toList ++
    (asSequence (field item "Guid")).filterMap fun entry => getStr (asMapping entry) "id"

/-- `_collect_item_tmdb_ids`, into an empty set, where it does not raise. -/
def collectItemTmdbIds : List Nat :=
  ((guids item).flatMap fun guid => extractTmdbIds guid.toList).dedup

/-- `_collect_item_tmdb_ids` does not raise. -/
def idsRead : Bool := (guids item).all fun guid => idsReadIn guid.toList

/-! ### Paths -/

/-- `text.rstrip('/')`. -/
def rstripSlash (text : List Char) : List Char := (text.reverse.dropWhile (· = '/')).reverse

def isPathPrefix (dir path : String) : Bool :=
  let norm := rstripSlash dir.toList
  path.toList = norm || (norm ++ ['/']).isPrefixOf path.toList

def knownContainerMounts : List String := ["/media", "/downloads"]

def components (path : String) : List (List Char) :=
  (PosixPath.split path.toList).filter (· ≠ [])

/-- The longest run, of at most `k` components, where the tail of a location meets the
    head of a path: how long it is. -/
def alignment (location below : List (List Char)) : Nat → Option Nat
  | 0 => none
  | k + 1 =>
      if location.drop (location.length - (k + 1)) = below.take (k + 1) then some (k + 1)
      else alignment location below k

def containerToHostScanPath (location path : String) : Option String :=
  let pathComps := components path
  let locComps := components location
  knownContainerMounts.findSome? fun mount =>
    let mountComps := components mount
    if mountComps = [] ∨ pathComps.take mountComps.length ≠ mountComps then none
    else
      let below := pathComps.drop mountComps.length
      (alignment locComps below (min locComps.length below.length)).map fun k =>
        String.ofList (PosixPath.join ([] :: locComps ++ below.drop k))

def sectionScanPath (librarySection : LibrarySection) (path : String) : Option String :=
  librarySection.locations.findSome? fun location =>
    if isPathPrefix location path then some path else containerToHostScanPath location path

def extractFilePaths : List String :=
  (asSequence (field item "Media")).flatMap fun media =>
    (asSequence (field (asMapping media) "Part")).filterMap fun part =>
      getStr (asMapping part) "file"

example : extractTmdbIds "com.plexapp.agents.themoviedb://12?tmdb://7x".toList = [12, 7] := by
  decide

example : containerToHostScanPath "/srv/media/Movies" "/media/Movies/Title (2001)" =
    some "/srv/media/Movies/Title (2001)" := by decide

end PlexLibrary

end PlexManager
