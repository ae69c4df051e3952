import PlexManager.Core.DownloadState
import PlexManager.Core.Quality

/-!
# From parsed fields to a quality

The title parser hands over a mapping of fields, whose values are texts, numbers
or lists of these. Four mappers turn it into a source, a resolution, a modifier
and a revision, and `resolve_quality` names the quality these amount to.

Two of the mappers also look for keywords in the raw title. Such a keyword only
ever forces a release into a tier that the default profile rejects. The patterns
all have one shape: a word, or two with at most one separator between them, on
word boundaries and without regard to case. Their letters are word characters,
so a boundary is wherever the character on the other side is none.

Which characters are word characters, spaces or digits, when two letters differ
only in case, how a text is case-folded and which texts are numbers is Unicode's
business, and so a parameter.
-/

namespace PlexManager

namespace SourceMapping

open Quality

/-- What Python's string and pattern library takes from Unicode. -/
structure TextTables where
  casefold : String → String
  /-- `\w`. -/
  isWord : Char → Bool
  /-- `\s`. -/
  isSpace : Char → Bool
  /-- Equal under `re.IGNORECASE`. -/
  sameLetter : Char → Char → Bool
  /-- `\d`, with the value of the digit. -/
  digit : Char → Option Nat
  /-- `int` of a text, where it is one of a number. -/
  int : String → Option Int

/-! ### Fields -/

/-- A value that is no list. Of values that are neither texts nor numbers only
    their text matters. -/
inductive Scalar where
  | str (s : String)
  | bool (b : Bool)
  | int (n : Int)
  | other (text : String)
  deriving DecidableEq, Repr

inductive FieldValue where
  | none
  | scalar (value : Scalar)
  | list (items : List Scalar)
  deriving DecidableEq, Repr

abbrev Fields := List (String × FieldValue)

variable (t : TextTables) (fields : Fields) (title : String) (source : QualitySource)
  (resolution : Resolution)

def Fields.get (key : String) : FieldValue :=
  (fields.lookup key).getD .none

/-- `str(item)`. -/
def Scalar.text : Scalar → String
  | .str s => s
  | .bool true => "True"
  | .bool false => "False"
  | .int n => toString n
  | .other text => text

def asStrList : FieldValue → List String
  | .none => []
  | .scalar value => [value.text]
  | .list items => items.map Scalar.text

def coerceStr : FieldValue → Option String
  | .scalar (.str s) => some s
  | _ => none

/-- `_coerce_year`. A boolean is a number too. -/
def coerceYear : FieldValue → Option Int
  | .scalar (.int n) => some n
  | .scalar (.bool b) => some b.toNat
  | .scalar (.str s) => t.int s
  | _ => none

/-- A season or an episode: a number, several, or nothing. -/
inductive Numbering where
  | none
  | one (n : Int)
  | many (ns : List Int)
  deriving DecidableEq, Repr

def Scalar.asInt : Scalar → Option Int
  | .int n => some n
  | _ => none

/-- `_coerce_season`, and `_coerce_episode`, which mirrors it. -/
def coerceNumbering : FieldValue → Numbering
  | .scalar (.int n) => .one n
  | .list items =>
      let ns := items.filterMap Scalar.asInt
      if ns.isEmpty then .none else .many ns
  | _ => .none

/-! ### The nets -/

/-- A pattern: a word, or two with at most one separator between them. -/
structure Keyword where
  head : String
  tail : Option String := none
  deriving DecidableEq, Repr

def dropWord (t : TextTables) : List Char → List Char → Option (List Char)
  | [], rest => some rest
  | _ :: _, [] => none
  | p :: word, c :: rest => if t.sameLetter p c then dropWord t word rest else none

/-- `[\s._-]`. -/
def isSeparator (c : Char) : Bool :=
  t.isSpace c || c == '.' || c == '_' || c == '-'

def endsWord (word text : List Char) : Bool :=
  match dropWord t word text with
  | none => false
  | some [] => true
  | some (c :: _) => !t.isWord c

/-- The rest of a pattern after its first word. -/
def Keyword.finish (t : TextTables) (k : Keyword) (text : List Char) : Bool :=
  match k.tail with
  | none => match text with
    | [] => true
    | c :: _ => !t.isWord c
  | some tail =>
      (match text with
        | [] => false
        | c :: rest => isSeparator t c && endsWord t tail.toList rest) ||
      endsWord t tail.toList text

/-- Whether a pattern matches at some place of a text. The character before it
    decides whether there is a word boundary. -/
def Keyword.searchFrom (t : TextTables) (k : Keyword) : Bool → List Char → Bool
  | _, [] => false
  | afterWord, c :: rest =>
      (!afterWord && match dropWord t k.head.toList (c :: rest) with
        | some text => k.finish t text
        | none => false) || searchFrom t k (t.isWord c) rest

def Keyword.search (k : Keyword) (title : String) : Bool :=
  k.searchFrom t false title.toList

/-- `_REJECT_NET`. -/
def rejectNetTable : List (Keyword × QualitySource) :=
  [(⟨"HD", some "TS"⟩, .telesync),
    (⟨"TS", some "RIP"⟩, .telesync),
    (⟨"TELESYNC", none⟩, .telesync),
    (⟨"HD", some "TC"⟩, .telecine),
    (⟨"TC", some "RIP"⟩, .telecine),
    (⟨"TELECINE", none⟩, .telecine),
    (⟨"WORK", some "PRINT"⟩, .workprint),
    (⟨"HQ", some "CAM"⟩, .cam),
    (⟨"HD", some "CAM"⟩, .cam),
    (⟨"CAM", some "RIP"⟩, .cam),
    (⟨"PRE", some "DVD"⟩, .cam),
    (⟨"PDVD", none⟩, .cam),
    (⟨"CAMERA", none⟩, .cam)]

/-- `_REJECT_MODIFIER_NET`. -/
def rejectModifierNetTable : List (Keyword × Modifier) :=
  [(⟨"DVD", some "SCR"⟩, .screener),
    (⟨"BD", some "SCR"⟩, .screener),
    (⟨"SCREENER", none⟩, .screener),
    (⟨"SCR", none⟩, .screener),
    (⟨"R5", none⟩, .regional),
    (⟨"R6", none⟩, .regional)]

def firstMatch {α : Type} (t : TextTables) (table : List (Keyword × α)) (title : String) :
    Option α :=
  (table.find? fun entry => entry.1.search t title).map (·.2)

def rejectNet : Option QualitySource :=
  firstMatch t rejectNetTable title

def rejectModifierNet : Option Modifier :=
  firstMatch t rejectModifierNetTable title

/-! ### The mappers -/

def sourceMap : List (String × QualitySource) :=
  [("Camera", .cam),
    ("HD Camera", .cam),
    ("Telesync", .telesync),
    ("HD Telesync", .telesync),
    ("Telecine", .telecine),
    ("HD Telecine", .telecine),
    ("Workprint", .workprint),
    ("DVD", .dvd),
    ("HDTV", .tv),
    ("Analog HDTV", .tv),
    ("Satellite", .tv),
    ("Digital TV", .tv),
    ("Blu-ray", .bluray),
    ("Ultra HD Blu-ray", .bluray)]

/-- The case-folded markers of the `other` field. -/
def others : List String :=
  (asStrList (fields.get "other")).map t.casefold

/-- The source by the field alone. One that is no text is unknown. -/
def baseSource : QualitySource :=
  match fields.get "source" with
  | .scalar (.str source) =>
      if source = "Web" then
        if (others t fields).contains "rip" then .webrip else .webdl
      else (sourceMap.lookup source).getD .unknown
  | _ => .unknown

def mapSource : QualitySource :=
  (rejectNet t title).getD (baseSource t fields)

def resolutionByHeight : Nat → Resolution
  | 360 => .r360p
  | 480 => .r480p
  | 540 => .r540p
  | 576 => .r576p
  | 720 => .r720p
  | 1080 => .r1080p
  | 2160 => .r2160p
  | _ => .unknown

/-- The number of `\d{3,4}` at the beginning of a text. -/
def heightAt : List Char → Option Nat
  | a :: b :: c :: rest =>
      match t.digit a, t.digit b, t.digit c with
      | some x, some y, some z =>
          let three := (x * 10 + y) * 10 + z
          some (match (rest.head?.bind t.digit) with
            | some w => three * 10 + w
            | none => three)
      | _, _, _ => none
  | _ => none

def findHeight (t : TextTables) : List Char → Option Nat
  | [] => none
  | c :: rest => (heightAt t (c :: rest)).orElse fun _ => findHeight t rest

def mapResolution : Resolution :=
  match fields.get "screen_size" with
  | .scalar (.str screenSize) =>
      match findHeight t screenSize.toList with
      | some height => resolutionByHeight height
      | none => .unknown
  | _ => .unknown

/-- `map_modifier`: the two that are rejected come before the one that is not. -/
def mapModifier : Modifier :=
  let others := others t fields
  if others.contains "screener" then .screener
  else if others.any fun other => contains other "region" then .regional
  else match rejectModifierNet t title with
    | some forced => forced
    | none => if others.contains "remux" then .remux else .none

structure Revision where
  version : Int := 1
  isRepack : Bool := false
  real : Nat := 0
  deriving DecidableEq, Repr

def countWord (t : TextTables) (word : List Char) : Bool → List Char → Nat
  | _, [] => 0
  | afterWord, c :: rest =>
      (if !afterWord && endsWord t word (c :: rest) then 1 else 0) +
        countWord t word (t.isWord c) rest

def mapRevision : Revision where
  version := match fields.get "proper_count" with
    | .scalar (.str s) => (t.int s).elim 1 (· + 1)
    | .scalar (.int n) => n + 1
    | .scalar (.bool b) => b.toNat + 1
    | _ => 1
  isRepack := Keyword.search t ⟨"REPACK", none⟩ title
  real := countWord t "REAL".toList false title.toList

structure ParsedRelease where
  rawTitle : String
  cleanTitle : String
  year : Option Int := none
  season : Numbering := .none
  episode : Numbering := .none
  source : QualitySource := .unknown
  resolution : Resolution := .unknown
  modifier : Modifier := .none
  revision : Revision := {}
  releaseGroup : Option String := none
  languages : List String := []
  edition : Option String := none
  hardcodedSubs : Option String := none
  deriving DecidableEq, Repr

def toParsedRelease : ParsedRelease where
  rawTitle := title
  cleanTitle := match coerceStr (fields.get "title") with
    | some clean => if clean = "" then title else clean
    | none => title
  year := coerceYear t (fields.get "year")
  season := coerceNumbering (fields.get "season")
  episode := coerceNumbering (fields.get "episode")
  source := mapSource t fields title
  resolution := mapResolution t fields
  modifier := mapModifier t fields title
  revision := mapRevision t fields title
  releaseGroup := coerceStr (fields.get "release_group")
  languages := asStrList (fields.get "language")
  edition := coerceStr (fields.get "edition")

/-! ### The quality -/

def rejectQualityBySource : QualitySource → Option Quality
  | .cam => some cam
  | .telesync => some telesync
  | .telecine => some telecine
  | .workprint => some workprint
  | _ => none

/-- What a remux of a source is, where it is not what the source says alone. -/
def remuxQuality : Option Quality :=
  if source = .bluray ∨ source = .unknown then
    match resolution with
    | .r2160p => some remux2160p
    | .r1080p => some remux1080p
    | .r720p => some bluray720p
    | .r480p => some bluray480p
    | .unknown => if source = .bluray then some remux1080p else none
    | _ => none
  else if source = .dvd then some dvdr
  else none

def lightest : List Quality → Option Quality
  | [] => none
  | q :: others => some (others.foldl (fun best q => if q.weight < best.weight then q else best) q)

/-- The exact match of a source and a resolution, or the least of the source. -/
def plainQuality : Quality :=
  match allQualities.find? fun q =>
      q.source == source && q.resolution == resolution && q.modifier == .none with
  | some q => q
  | none =>
      (lightest (allQualities.filter fun q => q.source == source && q.modifier == .none)).getD
        Quality.unknown

def resolveQuality (modifier : Modifier) :
    Quality :=
  match rejectQualityBySource source with
  | some reject => reject
  | none =>
      if modifier = .screener then dvdscr
      else if modifier = .regional then regional
      else match (if modifier = .remux then remuxQuality source resolution else none) with
        | some remux => remux
        | none =>
            if modifier = .brdisk then brdisk
            else if modifier = .rawhd then rawhd
            else if source = .unknown then Quality.unknown
            else plainQuality source resolution

end SourceMapping

end PlexManager
