/-!
# The lifecycle of a download

The states a tracked download is persisted in, and the graph of legal moves.
Writers do not all ask the graph: the operator's commands check it, while the
reconciler's own moves are decided by its policy alone.

The two string operations the queue code rests on are here as well, because
they decide things: torrent hashes are compared lower-cased, and a persisted
reason is recognised by its beginning. Hashes are hexadecimal and the patterns
compared against are ASCII, so lower-casing goes as far as letters of ASCII come of it.
-/

namespace PlexManager

/-- What `str.lower` makes of a character. Beyond ASCII there are two of which it makes a
    letter of ASCII, KELVIN SIGN and LATIN CAPITAL LETTER I WITH DOT ABOVE; the others are
    left as they are. -/
def lowerChar (c : Char) : List Char :=
  if c.toNat = 0x212A then ['k']
  else if c.toNat = 0x130 then ['i', Char.ofNat 0x307]
  else [c.toLower]

def lower (s : String) : String := String.ofList (s.toList.flatMap lowerChar)

def startsWith (s start : String) : Bool := start.toList.isPrefixOf s.toList

/-- Whether the pattern begins at some place of the text. -/
def occursIn (pattern : List Char) : List Char → Bool
  | [] => pattern.isEmpty
  | c :: rest => pattern.isPrefixOf (c :: rest) || occursIn pattern rest

/-- `pattern in s`. -/
def contains (s pattern : String) : Bool := occursIn pattern.toList s.toList

inductive DownloadState where
  | searching
  | downloading
  | metadataFetching
  | importPending
  | importBlocked
  | importing
  | imported
  | failedPending
  | failed
  | noAcceptableRelease
  | clientMissing
  deriving DecidableEq, Repr

namespace DownloadState

/-- `TRANSITIONS`: the legal moves out of a state. -/
def transitions : DownloadState → List DownloadState
  | searching => [downloading, noAcceptableRelease]
  | downloading => [metadataFetching, importPending, failedPending, clientMissing, downloading]
  | metadataFetching => [downloading, failedPending, clientMissing]
  | importPending => [importing, importBlocked, failedPending]
  | importing => [imported, importBlocked]
  | importBlocked => [importing, failedPending]
  | failedPending => [failed]
  | clientMissing => [downloading, failedPending]
  | failed => []
  | imported => []
  | noAcceptableRelease => []

def isLegalTransition (source target : DownloadState) : Bool :=
  source.transitions.contains target

/-- `TERMINAL_STATES`. -/
def terminalState : DownloadState → Bool
  | imported | failed | noAcceptableRelease => true
  | _ => false

/-- `ACTIVE_STATES`: what the reconciler polls and may move. -/
def activeState : DownloadState → Bool
  | downloading | metadataFetching | importPending | clientMissing => true
  | _ => false

end DownloadState

end PlexManager
