import PlexManager.Lib.Program
import PlexManager.Lib.Url

/-!
# Handing a torrent to the client

`QbittorrentClient.add` is given a source, a magnet link or a URL, and hands the
client a magnet or the body of a `.torrent` file. Before it does, it derives the
info-hash, by which alone the torrent can be found again later. The hash of a
magnet is in its `xt` parameters, in hexadecimal or in base32, and that of a body
is the SHA-1 of the bencoded `info` dictionary in it.

A URL is not handed on: it is walked to a magnet or a body first. Where the walk
ends is up to the environment here, and so is what the client answers.
-/

namespace PlexManager

namespace TorrentSource

open Effects TextCodec Url

/-! ### Errors -/

/-- What `add` raises: `QbittorrentSourceError`, `QbittorrentAuthError`,
    `QbittorrentVersionError`, and `QbittorrentError` itself. -/
inductive QbittorrentError where
  | source (message : String)
  | auth (message : String)
  | version (message : String)
  | client (message : String)
  deriving DecidableEq, Repr

/-! ### Magnets -/

/-- `str.upper` of a character, as far as it is ASCII. The few others whose upper
    case is ASCII are listed. All that remain stand for themselves, since their
    upper case is not ASCII either. -/
def upper (c : Char) : Text :=
  match c with
  | 'ß' => ['S', 'S']
  | 'ı' => ['I']
  | 'ſ' => ['S']
  | 'ﬀ' => ['F', 'F']
  | 'ﬁ' => ['F', 'I']
  | 'ﬂ' => ['F', 'L']
  | 'ﬃ' => ['F', 'F', 'I']
  | 'ﬄ' => ['F', 'F', 'L']
  | 'ﬅ' => ['S', 'T']
  | 'ﬆ' => ['S', 'T']
  | c => [c.toUpper]

/-- A hash as the client reports it: the bytes in lower-case hexadecimal. -/
abbrev Digest := Vector UInt8 20

def Digest.hex (digest : Digest) : Text := TextCodec.hex digest.toList

/-- `_HEX_BTIH_PATTERN`. -/
def isHexBtih (value : Text) : Bool := value.length = 40 && value.all fun c => (hexDigit c).isSome

def normalizeBtih (value : Text) : Except QbittorrentError Text :=
  if value.length = 32 then
    match b32decode (value.flatMap upper) with
    | none => .error (.source "invalid base32 btih in magnet source")
    | some decoded =>
        if decoded.length ≠ 20 then
          .error (.source "base32 btih decodes to a non-20-byte hash")
        else .ok (hex decoded)
  else if isHexBtih value then .ok (value.map Char.toLower)
  else .error (.source "btih is not a valid 40-char hex or 32-char base32 info-hash")

def btihStart : Text := "urn:btih:".toList

section Magnet

variable (netlocOk : Text → Bool)

/-- The values of a magnet's `xt=urn:btih:` parameters. What is no magnet, or
    cannot be taken apart, has none. -/
def btihValues (magnet : Text) : List Text :=
  match urlsplit netlocOk magnet with
  | none => []
  | some parsed =>
      if parsed.scheme ≠ "magnet".toList then []
      else (parseQs parsed.query "xt".toList).filterMap fun xt =>
        if btihStart.isPrefixOf xt then some (xt.drop btihStart.length) else none

def infoHashFromMagnet (magnet : Text) : Except QbittorrentError (Option Text) := do
  let hashes ← (btihValues netlocOk magnet).mapM normalizeBtih
  match hashes with
  | [] => pure none
  | hash :: rest =>
      if rest.any (· ≠ hash) then
        throw (.source ("magnet names conflicting btih values; qBittorrent may track a " ++
          "different one than any single value picked here"))
      else pure (some hash)

end Magnet

/-! ### Bodies -/

def isDigitByte (b : UInt8) : Bool := 0x30 ≤ b && b ≤ 0x39

/-- Stripped off by `int`. -/
def isBlankByte (b : UInt8) : Bool := (0x09 ≤ b && b ≤ 0x0D) || b = 0x20

/-- Digits with single underscores between them. -/
def digitGroups : Bytes → Option Bytes
  | [] => none
  | [b] => if isDigitByte b then some [b] else none
  | b :: 0x5F :: rest => if isDigitByte b then (digitGroups rest).map (b :: ·) else none
  | b :: rest => if isDigitByte b then (digitGroups rest).map (b :: ·) else none

/-- `int` on bytes that begin with a digit, or nothing where it raises. -/
def int (text : Bytes) : Option Nat :=
  match digitGroups (text.rdropWhile isBlankByte) with
  | none => none
  | some digits =>
      if 4300 < digits.length then none
      else some (digits.foldl (fun n b => 10 * n + (b.toNat - 0x30)) 0)

/-- `data.index(b, idx)`, or nothing where it raises. -/
def indexFrom (data : Bytes) (b : UInt8) (idx : Nat) : Option Nat :=
  ((data.drop idx).idxOf? b).map (idx + ·)

/-- `data[i:j]`. -/
def slice (data : Bytes) (i j : Nat) : Bytes := (data.drop i).take (j - i)

def bencodeString (data : Bytes) (idx : Nat) : Option (Bytes × Nat) := do
  let b ← data[idx]?
  if !isDigitByte b then none
  else do
    let colon ← indexFrom data 0x3A idx
    let length ← int (slice data idx colon)
    let finish := colon + 1 + length
    if data.length < finish then none else some (slice data (colon + 1) finish, finish)

/-- The loop of `_bencode_skip` over the elements of a list or a dictionary. An
    element has a byte at least, which bounds their number. -/
def bencodeSkipAll (data : Bytes) (skip : Nat → Option Nat) : Nat → Nat → Option Nat
  | 0, _ => none
  | bound + 1, idx => do
      let b ← data[idx]?
      if b = 0x65 then some (idx + 1)
      else do
        let next ← skip idx
        bencodeSkipAll data skip bound next

/-- `_bencode_skip`. It raises a `RecursionError` where it would go deeper than
    the stack allows. -/
def bencodeSkip (data : Bytes) : Nat → Nat → Option Nat
  | 0, _ => none
  | depth + 1, idx => do
      let ch ← data[idx]?
      if ch = 0x69 then do
        let finish ← indexFrom data 0x65 (idx + 1)
        let number := slice data (idx + 1) finish
        let digits := if number.head? = some 0x2D then number.tail else number
        if digits.isEmpty || !digits.all isDigitByte then none else some (finish + 1)
      else if ch = 0x6C ∨ ch = 0x64 then
        bencodeSkipAll data (bencodeSkip data depth) (data.length + 1) (idx + 1)
      else (bencodeString data idx).map Prod.snd

section Body

variable (sha1 : Bytes → Digest) (depth : Nat)

/-- The loop of `_info_hash_from_torrent` over the entries of the dictionary. -/
def infoHashFrom (data : Bytes) : Nat → Nat → Option Digest
  | 0, _ => none
  | bound + 1, idx => do
      let b ← data[idx]?
      if b = 0x65 then none
      else do
        let (key, valueStart) ← bencodeString data idx
        let valueEnd ← bencodeSkip data depth valueStart
        if key = [0x69, 0x6E, 0x66, 0x6F] then
          if data[valueStart]? = some 0x64 then some (sha1 (slice data valueStart valueEnd))
          else none
        else infoHashFrom data bound valueEnd

/-- `_info_hash_from_torrent`, apart from the spelling of the hash. -/
def infoHashFromTorrent (data : Bytes) : Option Digest :=
  if data.head? ≠ some 0x64 then none else infoHashFrom sha1 depth data (data.length + 1) 1

end Body

/-! ### Requests -/

/-- The form of `POST /torrents/add`, with the file beside it. -/
structure AddForm where
  savepath : Text
  category : Text
  stopCondition : Text := "MetadataReceived".toList
  stopped : Text := "false".toList
  autoTMM : Option Text
  urls : Option Text
  torrents : Option Bytes
  deriving DecidableEq

inductive ClientRequest where
  | webapiVersion
  | torrentsAdd (form : AddForm)
  deriving DecidableEq

/-- What `_is_add_success` reads of a JSON body. -/
structure AddJson where
  successCount : Int
  pendingCount : Int
  addedTorrentIds : Bool
  deriving DecidableEq, Repr

/-- A response. Its `json` is there if the body is a JSON object. -/
structure Response where
  statusCode : Nat
  text : Text
  json : Option AddJson := none
  deriving DecidableEq, Repr

inductive Op where
  | login
  | request (r : ClientRequest)
  deriving DecidableEq

/-- The answers. A login is granted or raises. A request is answered, unless the
    client cannot be reached. -/
abbrev Ans : Op → Type
  | .login => Except QbittorrentError Unit
  | .request _ => Option Response

/-- A run of a part of `add`. Its record is `_logged_in`. -/
abbrev AddRun (α : Type) := Run Op Ans QbittorrentError Bool α

def login : AddRun Unit := do
  Run.ofExcept (← Run.perform .login)
  Run.modifyRecord fun _ => true

def sent : Option Response → AddRun Response
  | none => Run.raise (.client "qBittorrent request failed")
  | some response => pure response

def send (r : ClientRequest) : AddRun Response := do
  let answer ← Run.perform (.request r)
  sent answer

/-- `_request`, which logs in anew once. -/
def request (r : ClientRequest) : AddRun Response := do
  let loggedIn ← Run.record
  if loggedIn then pure () else login
  let response ← send r
  if response.statusCode = 403 then do
    Run.modifyRecord fun _ => false
    login
    send r
  else pure response

def parseVersion (s : Text) : Option (Nat × Nat × Nat) :=
  match (s.splitOn '.').map decimal with
  | [some major, some minor, some patch] => some (major, minor, patch)
  | _ => none

def tooOld : Nat × Nat × Nat → Bool
  | (major, minor, _) => major < 2 || (major = 2 && minor < 11)

def requirePayloadValidationSupport : AddRun Unit := do
  let response ← request .webapiVersion
  if response.statusCode < 200 ∨ 300 ≤ response.statusCode then
    Run.raise (.client s!"qBittorrent request failed (HTTP {response.statusCode})")
  else match parseVersion (strip response.text) with
    | none => Run.raise unsupported
    | some version => if tooOld version then Run.raise unsupported else pure ()
where
  unsupported : QbittorrentError :=
    .version "payload validation requires qBittorrent 5.0 or newer; download not added"

def isAddSuccess (response : Response) : Bool :=
  if response.statusCode = 409 then true
  else if response.statusCode ≠ 200 ∧ response.statusCode ≠ 204 then false
  else
    let text := strip response.text
    if text = "Ok.".toList ∨ text = [] then true
    else if text.head? = some '{' then
      match response.json with
      | none => false
      | some data => 0 < data.successCount || 0 < data.pendingCount || data.addedTorrentIds
    else false

/-! ### The call -/

structure AddResult where
  torrentHash : Text
  created : Bool
  payloadPending : Bool := false
  deriving DecidableEq, Repr

/-- What is to be handed to the client, with its hash. -/
structure Submission where
  urls : Option Text
  torrents : Option Bytes
  infoHash : Option Text
  deriving DecidableEq

def unresolvable : QbittorrentError := .source "could not determine torrent hash for HTTP source"

def unsupportedUrl : QbittorrentError := .source "unsupported torrent source URL"

section Add

variable (netlocOk : Text → Bool) (sha1 : Bytes → Digest) (depth : Nat)

def submitText (text : Text) : AddRun Submission := do
  let infoHash ← Run.ofExcept (infoHashFromMagnet netlocOk text)
  pure { urls := some text, torrents := none, infoHash }

/-- The first half of `add`, up to the requests. The walk of a URL answers with a
    magnet, with a body, or with neither. -/
def readSource (resolveHttpSource : Text → AddRun (Option Text × Option Bytes))
    (magnetOrUrl : Text) : AddRun Submission :=
  match (urlsplit netlocOk magnetOrUrl).map SplitResult.scheme with
  | none => Run.raise unsupportedUrl
  | some scheme =>
      if scheme = "magnet".toList then submitText netlocOk magnetOrUrl
      else if scheme = "http".toList ∨ scheme = "https".toList then do
        match ← resolveHttpSource magnetOrUrl with
        | (some magnet, _) => submitText netlocOk magnet
        | (none, some body) =>
            match infoHashFromTorrent sha1 depth body with
            | none => Run.raise unresolvable
            | some digest =>
                pure { urls := none, torrents := some body, infoHash := some digest.hex }
        | (none, none) => Run.raise unresolvable
      else if scheme ≠ [] then Run.raise unsupportedUrl
      else submitText netlocOk magnetOrUrl

end Add

def Submission.form (s : Submission) (savePath category : Text) : AddForm :=
  { savepath := savePath
    category
    autoTMM := if savePath.isEmpty then none else some "false".toList
    urls := s.urls
    torrents := s.torrents }

/-- The second half of `add`. -/
def submit (savePath category : Text) (s : Submission) : AddRun AddResult := do
  requirePayloadValidationSupport
  let response ← request (.torrentsAdd (s.form savePath category))
  if !isAddSuccess response then
    Run.raise (.client s!"qBittorrent rejected the torrent (HTTP {response.statusCode})")
  else
    let created := response.statusCode ≠ 409
    match s.infoHash with
    | some infoHash =>
        pure { torrentHash := infoHash.map Char.toLower, created, payloadPending := true }
    | none => pure { torrentHash := [], created }

def add (netlocOk : Text → Bool) (sha1 : Bytes → Digest) (depth : Nat)
    (resolveHttpSource : Text → AddRun (Option Text × Option Bytes))
    (magnetOrUrl savePath category : Text) : AddRun AddResult := do
  let s ← readSource netlocOk sha1 depth resolveHttpSource magnetOrUrl
  submit savePath category s

end TorrentSource

end PlexManager
