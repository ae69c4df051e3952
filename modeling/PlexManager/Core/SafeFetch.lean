import PlexManager.Core.TorrentSource
import PlexManager.Lib.IpAddress

/-!
# Fetching a torrent source

The walk of a URL to a magnet or a body, on the client that `_resolve_http_source`
makes for it. At every hop three views of the URL meet. Whether it is beneath the
configured indexer is decided on the parts `urlparse` takes it into, the connection
is opened to the host and the port `httpx` takes it to have, and the addresses
behind it are vetted in the network backend, which knows neither and lets a private
one pass only for a grant that was noted just before.

What `httpx` makes of a text is a parameter, and so are the names that can be
resolved and everything a server answers. A network location is checked by
`urlsplit` for brackets here and for the rest by a parameter.
-/

namespace PlexManager

namespace SafeFetch

open Effects TextCodec Url Ip
open TorrentSource (QbittorrentError)

/-! ### Addresses -/

/-- In `_NAT64_WELL_KNOWN_PREFIX`. -/
def nat64WellKnownPrefix : Network 128 := ⟨0x0064FF9B000000000000000000000000#128, 96⟩

/-- The addresses of version 4 that are written into one of version 6. -/
def embeddedV4 (a : IPv6Address) : List IPv4Address :=
  a.ipv4Mapped.toList ++ a.sixtofour.toList ++
    (match a.teredo with
      | some (server, client) => [server, client]
      | none => []) ++
    (if nat64WellKnownPrefix.contains a then [a.truncate 32] else [])

def isBlockedIp : IpAddress → Bool
  | .v4 a => !a.isGlobal || a.isMulticast
  | .v6 a => !a.isGlobal || a.isMulticast ||
      (embeddedV4 a).any fun v4 => !v4.isGlobal || v4.isMulticast

def isBlockedAddress (address : Text) : Bool :=
  match ipAddress address with
  | none => false
  | some ip => isBlockedIp ip

/-! ### URLs -/

/-- A URL as `httpx` has it. The path is as it is sent, without the query. -/
structure HttpxUrl where
  scheme : Text
  userinfo : Text
  rawHost : Text
  port : Option Nat
  path : Text
  query : Text
  fragment : Text
  deriving DecidableEq

/-- `httpx`: a text as a URL, its host in letters again, a URL with another port
    as a text, and whether a request for it can be built. Nothing is where it
    raises `InvalidURL` or `IDNAError`. -/
structure Httpx where
  url : Text → Option HttpxUrl
  host : HttpxUrl → Option Text
  str : HttpxUrl → Option Nat → Text
  buildable : HttpxUrl → Bool

def http : Text := "http".toList

def https : Text := "https".toList

def defaultPort (scheme : Text) : Nat := if scheme = https then 443 else 80

/-- `port or default`. -/
def effectivePort (port : Option Nat) (scheme : Text) : Nat :=
  match port with
  | none | some 0 => defaultPort scheme
  | some port => port

structure Origin where
  scheme : Text
  host : Text
  port : Nat
  deriving DecidableEq, Repr

def unsupported : QbittorrentError := .source "unsupported torrent source URL"

def unsafeUrl : QbittorrentError := .source "unsafe torrent source URL"

def requestFailed : QbittorrentError := .source "torrent source request failed"

def tooLarge : QbittorrentError := .source "torrent file is too large"

section Urls

variable (httpx : Httpx) (netlocOk : Text → Bool)

variable (url : Text)

def sourceOriginTriple : Option Origin :=
  match urlsplit netlocOk url with
  | none => none
  | some parsed =>
      if (parsed.scheme ≠ http ∧ parsed.scheme ≠ https) ∨ parsed.hostname = none then none
      else match parsed.port, httpx.url url with
        | some port, some httpxUrl =>
            let host := httpxUrl.rawHost.map Char.toLower
            if host.isEmpty then none
            else some { scheme := parsed.scheme, host, port := effectivePort port parsed.scheme }
        | _, _ => none

/-- `str.casefold` of a character, as far as it is ASCII or has an `f` in it. -/
def casefold (c : Char) : Text :=
  match c with
  | 'ﬀ' => ['f', 'f']
  | 'ﬁ' => ['f', 'i']
  | 'ﬂ' => ['f', 'l']
  | 'ﬃ' => ['f', 'f', 'i']
  | 'ﬄ' => ['f', 'f', 'l']
  | c => [c.toLower]

def ambiguousPathSegmentForms : List Text :=
  [".", "..", "%2e", "%2e.", ".%2e", "%2e%2e"].map String.toList

/-- `_has_ambiguous_path_segment`, for one segment. -/
def isAmbiguous (part : Text) : Bool :=
  let folded := part.flatMap casefold
  ambiguousPathSegmentForms.contains folded || decide ("%2f".toList <:+: folded) ||
    decide ("%5c".toList <:+: folded) || part.contains '\\'

/-- The path of `urlparse`, which is without the parameters of the last segment. -/
def urlparsePath : Option Text :=
  (urlsplit netlocOk url).map fun parsed => (splitParams parsed.path).1

def sourceOriginAndPath : Option (Origin × List Text) :=
  match sourceOriginTriple httpx netlocOk url, urlparsePath netlocOk url with
  | some origin, some path =>
      let parts := segments path
      if parts.any isAmbiguous then none else some (origin, parts)
  | _, _ => none

/-! ### The configured indexer -/

/-- A character of a path in `_SERVICE_URL_PATTERN`. -/
def isPathChar (c : Char) : Bool :=
  isAscii c && (c.isAlphanum || c = '.' || c = '_' || c = '~' || c = '-')

def isPathSegment (s : Text) : Bool :=
  !s.isEmpty && s.all isPathChar && s ≠ ['.'] && s ≠ ['.', '.']

def isHostChar (c : Char) : Bool :=
  !"[]/:@%?#\\".toList.contains c && !isSpace c && 0x1F < c.toNat && c.toNat ≠ 0x7F

def isPortText (s : Text) : Bool :=
  !s.isEmpty && s.length ≤ 5 && s.all fun c => '0' ≤ c && c ≤ '9'

/-- The host and the port of `_SERVICE_URL_PATTERN`. -/
def isAuthority : Text → Bool
  | '[' :: rest =>
      let (host, after) := cut ']' rest
      !host.isEmpty && host.all (fun c => (hexDigit c).isSome || c = ':' || c = '.') &&
        match after with
        | some [] => true
        | some (':' :: port) => isPortText port
        | _ => false
  | s =>
      let (host, port) := cut ':' s
      !host.isEmpty && host.all isHostChar && port.all isPortText

/-- The path of `_SERVICE_URL_PATTERN`, from its first slash on. -/
def isServicePath (path : Text) : Bool :=
  let parts := (path.splitOn '/').tail
  parts.dropLast.all isPathSegment && parts.getLast?.all fun part =>
    part.isEmpty || isPathSegment part

/-- `_SERVICE_URL_PATTERN`. -/
def isServiceUrl (value : Text) : Bool :=
  match cut ':' value with
  | (scheme, some ('/' :: '/' :: rest)) =>
      (scheme.map Char.toLower = http || scheme.map Char.toLower = https) &&
        isAuthority (rest.takeWhile (· ≠ '/')) && isServicePath (rest.dropWhile (· ≠ '/'))
  | _ => false

theorem lawfulBEq_text : LawfulBEq Text := inferInstance

attribute [local instance] lawfulBEq_text in
/-- `ServiceUrl.parse`, of which the base is kept. -/
def ServiceUrl.parse (value : Text) : Option Text :=
  if !isServiceUrl value then none
  else match urlsplit netlocOk value, httpx.url value with
    | some split, some parsed =>
        match split.port, httpx.host parsed with
        | some splitPort, some host =>
            if (parsed.scheme ≠ http ∧ parsed.scheme ≠ https) ∨ host = [] ∨ splitPort = some 0 ∨
                parsed.userinfo ≠ [] ∨ parsed.query ≠ [] ∨ parsed.fragment ≠ [] then none
            else if "//".toList <:+: split.path ∨ ['.'] ∈ split.path.splitOn '/' ∨
                ['.', '.'] ∈ split.path.splitOn '/' then none
            else
              let normalizedPort :=
                if splitPort = some (defaultPort parsed.scheme) then none else splitPort
              some ((httpx.str parsed normalizedPort).rdropWhile (· = '/'))
        | _, _ => none
    | _, _ => none

/-- `_trusted_source_origin` and `_trusted_source_prefix`. -/
structure TrustedSource where
  origin : Origin
  pathPrefix : List Text
  deriving DecidableEq, Repr

/-- What the constructor makes of the configured URL of the indexer. -/
def trustedSource (base : Text) : Option TrustedSource :=
  if base.isEmpty then none
  else match ServiceUrl.parse httpx netlocOk base with
    | none => none
    | some service =>
        match sourceOriginTriple httpx netlocOk service, urlparsePath netlocOk service with
        | some origin, some path => some { origin, pathPrefix := segments path }
        | _, _ => none

def isTrustedSourceUrl (trusted : Option TrustedSource) (url : Text) : Bool :=
  match trusted, sourceOriginAndPath httpx netlocOk url with
  | some trusted, some (origin, parts) =>
      origin = trusted.origin && trusted.pathPrefix.isPrefixOf parts
  | _, _ => false

/-- `_safe_fetch_shape`, of which nothing is used but that it does not raise. -/
def safeFetchShape : Except QbittorrentError Unit :=
  match urlsplit netlocOk url with
  | none => .error unsupported
  | some parsed =>
      if (parsed.scheme ≠ http ∧ parsed.scheme ≠ https) ∨ parsed.hostname = none ∨
          parsed.port = none then .error unsupported
      else .ok ()

end Urls

/-! ### Requests -/

/-- What `httpcore` is handed: the URL the walk is at, and where `httpx` has it
    sent. The target of the request is its path, with the query behind it. -/
structure Request where
  url : Text
  host : Text
  port : Nat
  path : Text
  query : Text
  deriving DecidableEq, Repr

def buildRequest (httpx : Httpx) (url : Text) : Except QbittorrentError Request :=
  match httpx.url url with
  | none => .error unsupported
  | some u =>
      if !httpx.buildable u then .error unsupported
      else if u.scheme ≠ http ∧ u.scheme ≠ https then .error requestFailed
      else .ok { url, host := u.rawHost, port := u.port.getD (defaultPort u.scheme),
                 path := u.path, query := u.query }

inductive ConnectAnswer where
  | connected
  /-- `ConnectError` or `ConnectTimeout`. -/
  | refused
  | failed
  deriving DecidableEq, Repr

/-- A response. `declaredSize` is the number in its `Content-Length`, and there is
    no body if it breaks off. -/
structure Response where
  statusCode : Nat
  location : Text
  declaredSize : Option Int
  body : Option Bytes
  deriving DecidableEq, Repr

/-- Operations: a lookup of a name, a connection to an address, opened for a
    request, and the request itself. -/
inductive Op where
  | getaddrinfo (host : Text) (port : Nat)
  | connectTcp (address : IpAddress) (request : Request)
  | exchange (request : Request)
  deriving DecidableEq

abbrev Ans : Op → Type
  | .getaddrinfo _ _ => Option (List IpAddress)
  | .connectTcp _ _ => ConnectAnswer
  | .exchange _ => Option Response

/-- `_hop_trust` of the backend. -/
abbrev HopTrust := Option (Text × Nat)

def noteHopTrust (grant : HopTrust) (_ : HopTrust) : HopTrust := grant

/-- The first lines of `connect_tcp`: whether the grant is for this connection.
    None is left. -/
def takeHopTrust (hopTrust : HopTrust) (host : Text) (port : Nat) : Bool × HopTrust :=
  (hopTrust = some (host.map Char.toLower, port), none)

/-- A run on the backend. What is raised in it is raised as what it is when it
    leaves `_resolve_http_source`. -/
abbrev FetchRun (α : Type) := Run Op Ans QbittorrentError HopTrust α

/-- What is left of the addresses of a name. -/
def vetted (allowBlocked : Bool) : Option (List IpAddress) → FetchRun (List IpAddress)
  | none => Run.raise unsafeUrl
  | some addresses =>
      if addresses.isEmpty || (!allowBlocked && addresses.any isBlockedIp) then Run.raise unsafeUrl
      else pure addresses

def safeFetchAddresses (host : Text) (port : Nat) (allowBlocked : Bool) :
    FetchRun (List IpAddress) :=
  if !allowBlocked && isBlockedAddress host then Run.raise unsafeUrl
  else do
    let infos ← Run.perform (.getaddrinfo host port)
    vetted allowBlocked infos

/-- The loop of `connect_tcp` over the addresses. -/
def connectFirst (request : Request) : List IpAddress → FetchRun Unit
  | [] => Run.raise requestFailed
  | address :: rest => do
      let answer ← (Run.perform (Op.connectTcp address request) : FetchRun ConnectAnswer)
      match answer with
      | .connected => pure ()
      | .refused => connectFirst request rest
      | .failed => Run.raise requestFailed

def connectTcp (request : Request) : FetchRun Unit := do
  let hopTrust ← Run.record
  let (trusted, hopTrust) := takeHopTrust hopTrust request.host request.port
  Run.modifyRecord fun _ => hopTrust
  let addresses ← safeFetchAddresses request.host request.port trusted
  connectFirst request addresses

def answered : Option Response → FetchRun Response
  | none => Run.raise requestFailed
  | some response => pure response

/-- `client.stream`, for which the pool opens a connection each time. -/
def stream (httpx : Httpx) (url : Text) : FetchRun Response := do
  let request ← Run.ofExcept (buildRequest httpx url)
  connectTcp request
  let response ← Run.perform (.exchange request)
  answered response

/-! ### The walk -/

def redirectMaxDepth : Nat := 5

def maxTorrentBytes : Nat := 10 * 1024 * 1024

/-- Where the walk goes from a response. -/
inductive Next where
  | magnet (location : Text)
  | hop (url : Text)
  | body (data : Bytes)
  | nothing
  deriving DecidableEq, Repr

def nextOf (urljoin : Text → Text → Option Text) (current : Text) (response : Response) :
    Except QbittorrentError Next :=
  if 300 ≤ response.statusCode ∧ response.statusCode ≤ 399 then
    if response.location.isEmpty then .ok .nothing
    else if "magnet:".toList.isPrefixOf response.location then .ok (.magnet response.location)
    else match urljoin current response.location with
      | none => .error unsupported
      | some url => .ok (.hop url)
  else if response.statusCode = 200 then
    if response.declaredSize.any fun size => (maxTorrentBytes : Int) < size then .error tooLarge
    else match response.body with
      | none => .error requestFailed
      | some data =>
          if maxTorrentBytes < data.length then .error tooLarge
          else if data.head? = some 0x64 then .ok (.body data)
          else .ok .nothing
  else .ok .nothing

section Walk

variable (httpx : Httpx) (netlocOk : Text → Bool) (urljoin : Text → Text → Option Text)
variable (trusted : Option TrustedSource)

def enterHop (current : Text) : FetchRun Unit := do
  let isTrusted := isTrustedSourceUrl httpx netlocOk trusted current
  Run.modifyRecord (noteHopTrust (if isTrusted then
    trusted.map fun t => (t.origin.host, t.origin.port) else none))
  if isTrusted then pure () else Run.ofExcept (safeFetchShape netlocOk current)

/-- `_resolve_http_source_with_client` from a hop on. -/
def walk : Nat → Text → FetchRun (Option Text × Option Bytes)
  | 0, _ => pure (none, none)
  | hops + 1, current => do
      enterHop httpx netlocOk trusted current
      let response ← stream httpx current
      let next ← Run.ofExcept (nextOf urljoin current response)
      match next with
      | .magnet location => pure (some location, none)
      | .body data => pure (none, some data)
      | .nothing => pure (none, none)
      | .hop url => walk hops url

end Walk

def resolveHttpSource (httpx : Httpx) (netlocOk : Text → Bool)
    (urljoin : Text → Text → Option Text) (base url : Text) :
    FetchRun (Option Text × Option Bytes) :=
  walk httpx netlocOk urljoin (trustedSource httpx netlocOk base) redirectMaxDepth url

end SafeFetch

end PlexManager
