import PlexManager.Core.DownloadState
import PlexManager.Core.SeasonLifecycle

/-!
# Download rows and what they cover

A row of `downloads` is a torrent that was grabbed. Next to it stand its scopes,
the seasons of a request that are to be imported from it, and its coverage
claims, the seasons it fetches whether they are imported or not. Requests and
seasons are those of `Seasons`, with the requests of movies among them.

The hash of a torrent is unique, is never rewritten, and its row is never
deleted, so the hash stands for the id of the row here. Scopes and claims are
only ever inserted after a look for one with the same columns, and these columns
are their keys.

What a statement of the repository does to the rows is a function of them. Three
unique indexes cover only some of the rows, those that are unfinished, and a
statement that would break one raises.
-/

namespace PlexManager

namespace Grab

open KeyedTable
open Seasons (Show SeasonRequest MediaRequest sortedSet settledRequestStatuses)

/-! ### Rows -/

inductive MediaType where
  | movie
  | tv
  deriving DecidableEq, Repr

/-- The columns of a request that are fixed when it is created. -/
structure Titles where
  mediaType : Nat → MediaType
  tmdbId : Nat → Int

/-- The columns of a download that say what was grabbed. -/
structure GrabMetadata where
  magnetLink : String
  tmdbId : Option Int
  year : Option Int
  mediaType : Option MediaType
  releaseTitle : String
  payloadPending : Bool
  payloadResume : Bool
  payloadForceStart : Bool
  deriving DecidableEq, Repr

/-- The columns of a download in which its life so far leaves traces. -/
structure Traces where
  progress : Rat := 0
  seedRatio : Rat := 0
  failedReason : Option String := none
  firstSeenAt : Option Int := none
  downloadPath : Option String := none
  retryCount : Nat := 0
  payloadRejection : Option String := none
  addedAt : Int
  timeoutAt : Option Int
  deriving DecidableEq, Repr

structure Download where
  torrentHash : String
  status : DownloadState
  mediaRequestId : Option Nat
  season : Option Int
  episodes : Option (List Int)
  metadata : GrabMetadata
  traces : Traces
  deriving DecidableEq, Repr

/-- Not in one of `_TERMINAL_DOWNLOAD_STATUSES`. -/
def Download.active (d : Download) : Bool := !d.status.terminalState

/-- A finished row as a fresh grab takes it over: everything but the hash is
    rewritten, and the request where there is one. -/
def Download.reusedFor (d grabbed : Download) : Download :=
  { grabbed with
    torrentHash := d.torrentHash
    mediaRequestId := grabbed.mediaRequestId.or d.mediaRequestId }

@[simp] theorem Download.torrentHash_reusedFor (grabbed d : Download) :
    (d.reusedFor grabbed).torrentHash = d.torrentHash := rfl

inductive ScopeStatus where
  | active
  | importBlocked
  | imported
  | failed
  | noAcceptableRelease
  | cancelled
  deriving DecidableEq, Repr

/-- In one of `_ACTIVE_SCOPE_STATUSES`. -/
def ScopeStatus.unresolved : ScopeStatus → Bool
  | active | importBlocked => true
  | _ => false

def normalizeEpisodes (episodes : Option (List Int)) : Option (List Int) :=
  match sortedSet (episodes.getD []) with
  | [] => none
  | normalized => some normalized

structure DownloadScope where
  torrentHash : String
  mediaRequestId : Option Nat
  season : Option Int
  episodes : Option (List Int)
  status : ScopeStatus
  deriving DecidableEq, Repr

/-- `_scope_key`, which spells out the season and the normalized episodes. -/
def scopeKey (season : Option Int) (episodes : Option (List Int)) :
    Option Int × Option (List Int) :=
  (season, normalizeEpisodes episodes)

variable (s : DownloadScope) (c : CoverageClaim)

def DownloadScope.key :
    String × Option Nat × Option Int × Option (List Int) :=
  (s.torrentHash, s.mediaRequestId, scopeKey s.season s.episodes)

def DownloadScope.activated : DownloadScope := { s with status := .active }

@[simp] theorem DownloadScope.key_activated : s.activated.key = s.key := rfl

def DownloadScope.names (mediaRequestId : Nat) (season : Option Int) (s : DownloadScope) : Bool :=
  s.mediaRequestId = some mediaRequestId ∧ s.season = season

/-- A claim that is not active is released. -/
structure CoverageClaim where
  torrentHash : String
  mediaRequestId : Nat
  season : Int
  active : Bool
  deriving DecidableEq, Repr

def CoverageClaim.key : String × Nat × Int :=
  (c.torrentHash, c.mediaRequestId, c.season)

def CoverageClaim.activated : CoverageClaim := { c with active := true }

@[simp] theorem CoverageClaim.key_activated : c.activated.key = c.key := rfl

structure Database where
  library : Show
  downloads : Table Download.torrentHash
  scopes : Table DownloadScope.key
  claims : Table CoverageClaim.key
  deriving DecidableEq

/-- What a statement raises: an `IntegrityError`, or any other exception. -/
inductive StatementError where
  | integrity
  | other
  deriving DecidableEq, Repr

namespace Database

/-! ### Reads -/

variable (db : Database) (torrentHash : String) (mediaRequestId : Nat)

def getByHash : Option Download :=
  db.downloads.find torrentHash

def Tracked : Prop :=
  ∃ d, db.getByHash torrentHash = some d ∧ d.active = true

instance (db : Database) (torrentHash : String) : Decidable (db.Tracked torrentHash) :=
  decidable_of_iff ((db.getByHash torrentHash).any Download.active = true) (by
    unfold Tracked
    cases db.getByHash torrentHash <;> simp)

/-- `find_active_for_request`. The scalar columns of a row count only where the
    row has no scope for the same season. -/
def findActiveForRequest (season : Option Int) :
    Option Download :=
  db.downloads.rows.find? fun d =>
    let scopes := db.scopes.rows.filter fun s =>
      s.torrentHash = d.torrentHash ∧ s.names mediaRequestId season
    d.active &&
      ((d.mediaRequestId = some mediaRequestId && d.season = season && scopes.isEmpty) ||
        scopes.any fun s => s.status.unresolved)

def findActiveCoverageOwner (season : Option Int) :
    Option Download :=
  match season with
  | none => none
  | some season => db.downloads.rows.find? fun d =>
      d.active && db.claims.rows.any fun c =>
        c.torrentHash = d.torrentHash && c.mediaRequestId = mediaRequestId &&
          c.season = season && c.active

def listScopes : List DownloadScope :=
  db.scopes.rows.filter fun s => s.torrentHash = torrentHash

/-- `list_for_request` of the seasons. -/
def listSeasons : List SeasonRequest :=
  db.library.seasons.rows.filter fun row => row.mediaRequestId = mediaRequestId

/-! ### Writes -/

/-- Whether another unfinished row holds the slot of a row in
    `uq_downloads_active_request`. -/
def slotTaken (d : Download) : Bool :=
  d.mediaRequestId.isSome && d.active && db.downloads.rows.any fun e =>
    e.torrentHash ≠ d.torrentHash && e.active && e.mediaRequestId = d.mediaRequestId &&
      e.season.getD (-1) = d.season.getD (-1)

/-- Whether the scope of another row holds the slot of a scope in
    `uq_download_scopes_active_scope`. -/
def scopeTaken (s : DownloadScope) : Bool :=
  s.mediaRequestId.isSome && db.scopes.rows.any fun e =>
    e.torrentHash ≠ s.torrentHash && e.status.unresolved &&
      e.mediaRequestId = s.mediaRequestId &&
      scopeKey e.season e.episodes = scopeKey s.season s.episodes

/-- Whether the claim of another row holds a season in
    `uq_download_coverage_claims_active`. -/
def claimTaken (c : CoverageClaim) : Bool :=
  db.claims.rows.any fun e =>
    e.torrentHash ≠ c.torrentHash && e.active && e.mediaRequestId = c.mediaRequestId &&
      e.season = c.season

def ensureScope (mediaRequestId : Option Nat)
    (season : Option Int) (episodes : Option (List Int)) : Except StatementError Database :=
  let s : DownloadScope :=
    { torrentHash, mediaRequestId, season, episodes := normalizeEpisodes episodes
      status := .active }
  let key := (torrentHash, mediaRequestId, scopeKey season episodes)
  match db.scopes.find key with
  | some found =>
      if found.status.unresolved then .ok db
      else if db.scopeTaken s then .error .integrity
      else .ok { db with
        scopes := db.scopes.modify key DownloadScope.activated DownloadScope.key_activated }
  | none =>
      if db.scopeTaken s then .error .integrity
      else .ok { db with scopes := db.scopes.insert s }

def ensureCoverageClaim (season : Int) : Except StatementError Database :=
  let c : CoverageClaim := { torrentHash, mediaRequestId, season, active := true }
  match db.claims.find c.key with
  | some found =>
      if found.active then .ok db
      else if db.claimTaken c then .error .integrity
      else .ok { db with
        claims := db.claims.modify c.key CoverageClaim.activated CoverageClaim.key_activated }
  | none =>
      if db.claimTaken c then .error .integrity
      else .ok { db with claims := db.claims.insert c }

def ensureOwnScope (d : Download) : Except StatementError Database :=
  match d.mediaRequestId, d.season with
  | some mediaRequestId, some season =>
      db.ensureScope d.torrentHash (some mediaRequestId) (some season) d.episodes
  | _, _ => .ok db

def create (d : Download) : Except StatementError Database :=
  if (db.getByHash d.torrentHash).isSome then .error .integrity
  else if db.slotTaken d then .error .integrity
  else ensureOwnScope { db with downloads := db.downloads.insert d } d

/-- `update_status_if_in` as `_reuse_terminal_row` calls it: from a finished row
    to the one that is grabbed, with `_replace_scope_set`. It answers whether
    the row was still finished. -/
def reuse (grabbed : Download) : Except StatementError (Bool × Database) :=
  match db.getByHash grabbed.torrentHash with
  | none => .ok (false, db)
  | some d =>
      if d.active then .ok (false, db)
      else if db.slotTaken (d.reusedFor grabbed) then .error .integrity
      else
        (ensureOwnScope
          { db with
            downloads := db.downloads.modify d.torrentHash
              (fun d => d.reusedFor grabbed) (Download.torrentHash_reusedFor grabbed)
            scopes := db.scopes.filter fun s =>
              s.torrentHash ≠ d.torrentHash || s.status = .imported }
          grabbed).map fun db => (true, db)

/-- `ensure` of the seasons, as a grab calls it. -/
def ensureSeason (season : Int) : Database :=
  { db with library := db.library.ensure mediaRequestId season .pending false }

/-- Whether another active request for the same title holds the slot of a
    request in `uq_media_requests_active`. -/
def titleTaken (titles : Titles) (library : Show) (mediaRequestId : Nat) : Bool :=
  (library.requests.find mediaRequestId).any fun r =>
    r.status ∉ settledRequestStatuses && library.requests.rows.any fun other =>
      other.id ≠ mediaRequestId && other.status ∉ settledRequestStatuses &&
        titles.tmdbId other.id = titles.tmdbId mediaRequestId &&
        titles.mediaType other.id = titles.mediaType mediaRequestId

/-- `season_request_service.set_status_if_in` to `downloading`. -/
def setSeasonStatusIfIn (titles : Titles) (db : Database) (now : Int) (mediaRequestId : Nat)
    (season : Int) (allowedFrom : List RequestStatus) :
    Except StatementError (Bool × Database) :=
  match Seasons.setSeasonStatusIfIn now mediaRequestId season .downloading allowedFrom
      db.library with
  | none => .error .other
  | some (moved, library) =>
      if moved && titleTaken titles library mediaRequestId then .error .integrity
      else .ok (moved, { db with library })

/-- `set_status_if_in` of the requests to `downloading`. -/
def setRequestStatusIfIn (titles : Titles) (db : Database) (mediaRequestId : Nat)
    (allowedFrom : List RequestStatus) : Except StatementError (Bool × Database) :=
  match db.library.requests.find mediaRequestId with
  | none => .ok (false, db)
  | some r =>
      if r.status ∈ allowedFrom then
        let library : Show :=
          { db.library with
            requests := db.library.requests.modify mediaRequestId
              (fun r => { r with status := .downloading }) fun _ => rfl }
        if titleTaken titles library mediaRequestId then .error .integrity
        else .ok (true, { db with library })
      else .ok (false, db)

end Database

end Grab

end PlexManager
