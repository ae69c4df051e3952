import Mathlib.Data.List.Infix
import PlexManager.Core.SourceMapping

/-!
# Markers in the names of downloaded files

A file that is one slice of a set cannot be imported as the whole. The set is
recognised by a marker in its path: `CD1`, `Disc 2`, `Part.1`, a word with a number
of one or two digits, between separators. A disk marker is decisive, while a part
marker can belong to the title, and then its number is in the expected title too.

`finditer` looks for a pattern from where its last match ended, and these patterns take
the separator behind the number along. The start of the text is as good as a separator,
and is given one here.

A file can also say that it is a sample or an extra. A word for that may belong to the
title as well, so it counts only where the name of the file has it more often.
-/

namespace PlexManager

namespace ImportValidation

open SourceMapping

variable (t : TextTables) (lower : List Char → List Char) (words : List String) (text : List Char)

/-- A separator of words or of a path. -/
def isBoundary (c : Char) : Bool := isSeparator t c || c == '/' || c == '\\'

/-- The end of the text or a boundary, with how many characters it takes. -/
def closing : List Char → Option Nat
  | [] => some 0
  | ['\n'] => some 0
  | c :: _ => if isBoundary t c then some 1 else none

/-- `(\d{1,2})` and what closes it, as `int` of the group and how many characters. -/
def number : List Char → Option (Nat × Nat)
  | [] => none
  | d :: rest =>
      let two := match rest with
        | [] => none
        | e :: rest => do return (10 * (← t.digit d) + (← t.digit e), (← closing t rest) + 2)
      two.orElse fun _ => do return (← t.digit d, (← closing t rest) + 1)

/-- One of the words, at most one separator, a number and what closes it. -/
def numbered : Option (Nat × Nat) :=
  words.findSome? fun word => do
    let rest ← dropWord t word.toList text
    let separated : Option (Nat × Nat) := match rest with
      | [] => none
      | c :: rest =>
          if isSeparator t c then (number t rest).map fun (n, taken) => (n, taken + 1)
          else none
    let (n, taken) ← separated.orElse fun _ => number t rest
    return (n, taken + word.length)

/-- The pattern at a character of a text. -/
def markerAt (c : Char) (rest : List Char) :
    Option (Nat × Nat) :=
  if isBoundary t c then numbered t words rest else none

def search (text : String) : Bool :=
  ('/' :: text.toList).tails.any fun
    | [] => false
    | c :: rest => (markerAt t words c rest).isSome

/-- `pattern.finditer`, while the characters of a match are passed over. -/
def finditerFrom (t : TextTables) (words : List String) : Nat → List Char → List Nat
  | _, [] => []
  | taken + 1, _ :: rest => finditerFrom t words taken rest
  | 0, c :: rest =>
      match markerAt t words c rest with
      | some (n, taken) => n :: finditerFrom t words taken rest
      | none => finditerFrom t words 0 rest

/-- The numbers of `pattern.finditer`. -/
def finditer (text : String) : List Nat :=
  finditerFrom t words 0 ('/' :: text.toList)

/-- The words of `_DISK_MARKER`. -/
def diskWords : List String := ["cd", "dvd", "disc", "disk"]

/-- The words of `_PART_MARKER`. -/
def partWords : List String := ["part", "pt"]

def isMultiPart (relativePath expectedTitle : String) : Bool :=
  if search t diskWords relativePath then true
  else
    let titlePartNumbers := finditer t partWords expectedTitle
    (finditer t partWords relativePath).any fun n => !titlePartNumbers.contains n

/-! ### Samples and extras -/

/-- The alternatives of `_SAMPLE_EXTRAS`, between whose words one separator may stand. -/
def sampleExtras : List (List String) :=
  [["sample"], ["trailer"], ["extras"], ["extra"], ["featurette"], ["behind", "the", "scenes"],
    ["deleted", "scene"], ["proof"], ["rarbg.com"]]

/-- The ways to match an alternative, each as what it leaves of a text. -/
def dropWords (t : TextTables) : List String → List Char → List (List Char)
  | [], text => [text]
  | word :: words, text =>
      match words, dropWord t word.toList text with
      | _, none => []
      | [], some rest => [rest]
      | _, some [] => []
      | words, some (c :: rest) =>
          (if isSeparator t c then dropWords t words rest else []) ++ dropWords t words (c :: rest)

/-- What an alternative leaves at the start of a text, with the end of it or a separator
    ahead, which is not taken along. -/
def dropMarker : Option (List Char) :=
  (sampleExtras.flatMap fun words => dropWords t words text).find? fun rest =>
    rest.head?.all (isSeparator t)

/-- The texts of `_SAMPLE_EXTRAS.finditer`, while the characters of a match are passed over. -/
def markersFrom (t : TextTables) : Nat → List Char → List (List Char)
  | _, [] => []
  | taken + 1, _ :: rest => markersFrom t taken rest
  | 0, c :: rest =>
      match if isSeparator t c then dropMarker t rest else none with
      | some after =>
          (c :: rest.take (rest.length - after.length)) ::
            markersFrom t (rest.length - after.length) rest
      | none => markersFrom t 0 rest

/-- `_marker_key`: lower case, with one blank for a run of separators and none at the ends. -/
def markerKey : List Char :=
  [' '].intercalate (((lower text).splitOnP (isSeparator t)).filter (· ≠ []))

def markerKeys (text : String) :
    List (List Char) :=
  (markersFrom t 0 ('.' :: text.toList)).map (markerKey t lower)

def looksLikeSampleName (name expectedTitle : String) : Bool :=
  (markerKeys t lower name).any fun key =>
    (markerKeys t lower expectedTitle).count key < (markerKeys t lower name).count key

end ImportValidation

end PlexManager
