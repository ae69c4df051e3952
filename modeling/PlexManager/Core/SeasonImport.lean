import PlexManager.Core.ImportMarkers
import PlexManager.Core.SeasonPack
import PlexManager.Lib.PosixPath

/-!
# The files of a season download

Every file of a completed download is looked at on its own. One that is no video, or says
that it is a sample, is passed over. Every other one is parsed, folder and all, and what is
wrong with it is collected: another show or season, a pack of several seasons in which the
name of the file itself does not say the season, a quality that is not wanted, too few
bytes, a slice of a set, no episode. A file without any of it is accepted, or skipped where
only other episodes were requested.
-/

namespace PlexManager

namespace SeasonImport

open SourceMapping Quality SeasonPack ImportValidation

/-- What else is taken from Unicode, and how Python writes values in a text. -/
structure ImportTables extends TextTables where
  lower : List Char → List Char
  nfkd : List Char → List Char
  combining : Char → Bool
  /-- `repr` of a text. -/
  quoted : String → String
  /-- `repr` of a season. -/
  shown : Numbering → String

/-! ### Paths -/

def slashed (path : String) : List Char :=
  path.toList.map fun c => if c = '\\' then '/' else c

def basename (path : String) : String :=
  String.ofList ((PosixPath.split (slashed path)).getLastD [])

/-- `PurePosixPath.parts`, less the root. -/
def pathParts (path : String) : List (List Char) :=
  (PosixPath.split (slashed path)).filter fun part => part ≠ [] ∧ part ≠ ['.']

/-- `PurePosixPath.suffix`: from the last dot on, if more than dots stands before it. -/
def suffix (path : String) : String :=
  let name := (pathParts path).getLastD []
  let front := (name.reverse.dropWhile (· ≠ '.')).tail
  if front.any (· ≠ '.') then String.ofList (name.drop front.length) else ""

/-- The keys of `PLEX_VIDEO_FORMATS`. -/
def plexVideoExtensions : List String :=
  [".mkv", ".mp4", ".m4v", ".avi", ".mov", ".divx", ".wmv", ".mpg", ".mpeg", ".ts", ".m2ts",
    ".mts", ".webm", ".flv", ".ogv"]

def isPlexDiscStructurePath (t : TextTables) (path : String) : Bool :=
  (pathParts path).any fun part => t.casefold (String.ofList part) ∈ ["bdmv", "video_ts"]

def plexVideoExtension (t : TextTables) (path : String) : Option String :=
  if isPlexDiscStructurePath t path then none
  else if t.casefold (suffix path) ∈ plexVideoExtensions then some (t.casefold (suffix path))
  else none

def isVideo (t : TextTables) (path : String) : Bool := (plexVideoExtension t path).isSome

/-! ### Identity -/

def transliteration (c : Char) : List Char :=
  match c with
  | 'æ' => ['a', 'e']
  | 'ø' => ['o']
  | 'ł' => ['l']
  | 'đ' => ['d']
  | 'þ' => ['t', 'h']
  | 'œ' => ['o', 'e']
  | 'ð' => ['d']
  | 'ħ' => ['h']
  | 'ŋ' => ['n']
  | 'ŧ' => ['t']
  | 'ı' => ['i']
  | c => [c]

def normalizeTitle (t : ImportTables) (title : String) : List Char :=
  let folded := t.nfkd ((t.casefold title).toList.flatMap transliteration)
  (folded.filter fun c => !t.combining c).filter fun c =>
    ('a' ≤ c ∧ c ≤ 'z') ∨ ('0' ≤ c ∧ c ≤ '9')

def seasonCovers (parsedSeason : Numbering) (expectedSeason : Int) : Bool :=
  match parsedSeason with
  | .none => false
  | .one season => season = expectedSeason
  | .many seasons => seasons.contains expectedSeason

def matchesMedia (t : ImportTables) (parsed : ParsedRelease) (expectedTitle : String)
    (expectedYear : Option Int) (candidateTmdbId expectedTmdbId : Int)
    (expectedSeason : Option Int) : Bool :=
  if expectedSeason.any fun season => !seasonCovers parsed.season season then false
  else if candidateTmdbId ≠ 0 ∧ expectedTmdbId ≠ 0 then candidateTmdbId = expectedTmdbId
  else if normalizeTitle t expectedTitle = [] ∨
      normalizeTitle t parsed.cleanTitle ≠ normalizeTitle t expectedTitle then false
  else match expectedYear, parsed.year with
    | none, _ => true
    | some _, none => false
    | some expected, some year => (year - expected).natAbs ≤ 1

/-! ### Files -/

structure VideoFile where
  relativePath : String
  sizeBytes : Int
  deriving DecidableEq, Repr

inductive ImportRejectionReason where
  | wrongMedia
  | qualityNotWanted
  | sample
  | noVideoFile
  | multiPart
  | noEpisodeNumber
  deriving DecidableEq, Repr

structure EpisodeImportResult where
  video : VideoFile
  parsed : ParsedRelease
  episodes : List Int
  deriving DecidableEq, Repr

structure EpisodeImportRejection where
  relativePath : String
  reason : ImportRejectionReason
  detail : String
  deriving DecidableEq, Repr

structure SeasonImportValidation where
  accepted : List EpisodeImportResult := []
  rejected : List EpisodeImportRejection := []
  skippedNotRequested : List EpisodeImportResult := []
  deriving DecidableEq, Repr

def sampleFloorBytes : Int := 50 * 1024 * 1024

/-- What is expected of the files of a download. -/
structure Wanted where
  profile : QualityProfile
  expectedTitle : String
  expectedTmdbId : Int
  expectedSeason : Int
  requestedEpisodes : Option (List Int) := none

variable (t : ImportTables) (parse : String → ParsedRelease) (wanted : Wanted)

/-- What a reason says, where there is a case for it. -/
def reasonIf (unfit : Bool) (reason : ImportRejectionReason) (detail : String) :
    List (ImportRejectionReason × String) :=
  if unfit then [(reason, detail)] else []

variable (video : VideoFile)

/-- `parser.parse` of the path, folder included. -/
def parsePath : ParsedRelease := parse (String.ofList (slashed video.relativePath))

/-- The guard of a pack of several seasons: the own season of a file is the expected one. -/
def ownSeasonUnfit (parsed : ParsedRelease) (name : String) : Bool :=
  match parsed.season with
  | .many _ => (parse name).season ≠ .one wanted.expectedSeason
  | _ => false

/-- The reasons that are collected for a file. -/
def reasonsAgainst : List (ImportRejectionReason × String) :=
  let name := basename video.relativePath
  let file := "file " ++ t.quoted name
  let parsed := parsePath parse video
  let quality := resolveQuality parsed.source parsed.resolution parsed.modifier
  reasonIf (!matchesMedia t parsed wanted.expectedTitle none 0 wanted.expectedTmdbId
      (some wanted.expectedSeason)) .wrongMedia
    (file ++ " parsed as " ++ t.quoted parsed.cleanTitle ++ " (season=" ++ t.shown parsed.season ++
      "); expected " ++ t.quoted wanted.expectedTitle ++ " season " ++
      toString wanted.expectedSeason) ++
  reasonIf (ownSeasonUnfit parse wanted parsed name) .wrongMedia
    (file ++ " sits in a multi-season pack (parsed seasons " ++ t.shown parsed.season ++
      "); its own season " ++ t.shown (parse name).season ++
      " does not unambiguously match requested season " ++ toString wanted.expectedSeason) ++
  reasonIf (!(checkQuality quality wanted.profile).accepted) .qualityNotWanted
    (file ++ " resolved to quality " ++ t.quoted quality.name ++
      ", which the profile does not allow") ++
  reasonIf (video.sizeBytes < sampleFloorBytes) .sample
    (file ++ " is " ++ toString video.sizeBytes ++ " bytes, below the " ++
      toString sampleFloorBytes ++ "-byte sample floor (unknown size counts as sample)") ++
  reasonIf (isMultiPart t.toTextTables video.relativePath wanted.expectedTitle) .multiPart
    ("path " ++ t.quoted video.relativePath ++ " carries a multi-part / split-disk marker") ++
  reasonIf (episodeNumbers parsed.episode).isEmpty .noEpisodeNumber
    (file ++ " carries no parseable episode number")

/-- Episodes were requested, and none of these is among them. -/
def notRequested (episodes : List Int) : Bool :=
  match wanted.requestedEpisodes with
  | none | some [] => false
  | some requested => !requested.any episodes.contains

/-- A file that is looked at, and is not passed over. -/
def isCandidate : Bool :=
  isVideo t.toTextTables video.relativePath &&
    !looksLikeSampleName t.toTextTables t.lower (basename video.relativePath) wanted.expectedTitle

/-- The body of the loop. -/
def placeFile (done : SeasonImportValidation) (video : VideoFile) : SeasonImportValidation :=
  if !isCandidate t wanted video then done
  else
    let reasons := reasonsAgainst t parse wanted video
    if reasons ≠ [] then
      { done with
        rejected := done.rejected ++ reasons.map fun (reason, detail) =>
          ⟨video.relativePath, reason, detail⟩ }
    else
      let parsed := parsePath parse video
      let result : EpisodeImportResult := ⟨video, parsed, episodeNumbers parsed.episode⟩
      if notRequested wanted result.episodes then
        { done with skippedNotRequested := done.skippedNotRequested ++ [result] }
      else { done with accepted := done.accepted ++ [result] }

def validateSeasonImport (files : List VideoFile) : SeasonImportValidation :=
  files.foldl (placeFile t parse wanted) {}

end SeasonImport

end PlexManager
