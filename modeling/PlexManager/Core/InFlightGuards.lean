import Mathlib.Data.Finset.Basic
import PlexManager.Core.DownloadRows

/-!
# Guards over many keys at once

An eviction asks of every candidate whether a download is in flight for it, by
its request and season, and whether a pack that is being fetched covers it, by
its title and season. The repository answers each question in two ways: for one
key with a query of its own, and for a whole list of keys with one or two queries
for all of them, whose rows are then sorted out in Python.

A season of `none` stands for a movie. A comparison of a column with it is
rendered as `IS NULL`, and one of a column that is null with anything else is not
true, so both are the equality of options. The columns are those of the database,
where a request that was deleted leaves a null behind.
-/

namespace PlexManager

namespace InFlight

open Grab (MediaType ScopeStatus)

/-! ### Rows -/

structure Download where
  id : Nat
  torrentHash : String
  status : DownloadState
  mediaRequestId : Option Nat
  season : Option Int
  deriving DecidableEq, Repr

/-- Not in one of `_TERMINAL_DOWNLOAD_STATUSES`. -/
def Download.active (d : Download) : Bool := !d.status.terminalState

structure DownloadScope where
  id : Nat
  downloadId : Nat
  mediaRequestId : Option Nat
  seasonNumber : Option Int
  episodes : Option (List Int)
  status : ScopeStatus
  deriving DecidableEq, Repr

/-- A claim that is not active is released. -/
structure CoverageClaim where
  downloadId : Nat
  mediaRequestId : Option Nat
  seasonNumber : Option Int
  active : Bool
  deriving DecidableEq, Repr

structure MediaRequest where
  id : Nat
  tmdbId : Int
  mediaType : MediaType
  deriving DecidableEq, Repr

structure Database where
  downloads : List Download
  scopes : List DownloadScope
  claims : List CoverageClaim
  requests : List MediaRequest
  deriving DecidableEq, Repr

structure DownloadRecord where
  row : Download
  scopes : List DownloadScope
  deriving DecidableEq, Repr

abbrev RequestKey := Nat × Option Int

abbrev TitleKey := Int × Option Int

namespace Database

/-! ### Records -/

variable (db : Database)

/-- The scopes of a row in the order of their seasons, where nulls come first,
    and of their ids. -/
def scopesOf (downloadId : Nat) : List DownloadScope :=
  (db.scopes.filter (·.downloadId = downloadId)).mergeSort fun a b =>
    match a.seasonNumber, b.seasonNumber with
    | none, some _ => true
    | some _, none => false
    | none, none => a.id ≤ b.id
    | some m, some n => m < n || (m = n && a.id ≤ b.id)

def toRecordWithScopes (row : Download) : DownloadRecord :=
  { row, scopes := db.scopesOf row.id }

def firstRecord (rows : List Download) : Option DownloadRecord :=
  (rows.mergeSort fun a b => a.id ≤ b.id).head?.map db.toRecordWithScopes

/-! ### One key -/

/-- `find_active_for_request`. The scalar columns of a row count only where it
    has no scope for the same key, whatever the status of that scope. -/
def findActiveForRequest (mediaRequestId : Nat) (season : Option Int) :
    Option DownloadRecord :=
  db.firstRecord <| db.downloads.filter fun d =>
    let matchingScopes := db.scopes.filter fun s =>
      s.downloadId = d.id && s.mediaRequestId = some mediaRequestId && s.seasonNumber = season
    let scopedExists := matchingScopes.any fun s => s.status.unresolved
    let legacyScalarMatch :=
      d.mediaRequestId = some mediaRequestId && d.season = season && matchingScopes.isEmpty
    d.active && (legacyScalarMatch || scopedExists)

def claimsOfRequests : List (CoverageClaim × MediaRequest) :=
  db.claims.flatMap fun c =>
    (db.requests.filter fun r => c.mediaRequestId = some r.id).map fun r => (c, r)

/-- `find_active_coverage_title`. A movie has no claim. -/
def findActiveCoverageTitle (tmdbId : Int) (season : Option Int) :
    Option DownloadRecord :=
  match season with
  | none => none
  | some season => db.firstRecord <| db.downloads.flatMap fun d =>
      (db.claimsOfRequests.filter fun (c, r) =>
        c.downloadId = d.id && r.tmdbId = tmdbId && r.mediaType = .tv &&
          c.seasonNumber = some season && c.active && d.active).map fun _ => d

/-! ### Many keys -/

/-- The rows the first query of `find_active_for_requests` selects, which are
    more than those that match a key. -/
def worthExamining (requestIds : List Nat) : List Download :=
  db.downloads.filter fun d =>
    d.active &&
      (d.mediaRequestId.any (· ∈ requestIds) ||
        db.scopes.any fun s => s.downloadId = d.id && s.mediaRequestId.any (· ∈ requestIds))

def scopesWorthExamining (downloadIds requestIds : List Nat) :
    List DownloadScope :=
  db.scopes.filter fun s =>
    s.downloadId ∈ downloadIds && s.mediaRequestId.any (· ∈ requestIds)

end Database

variable (keySet : Finset RequestKey)

def addScalarKey (scopes : List DownloadScope) (row : Download)
    (active : Finset RequestKey) : Finset RequestKey :=
  match row.mediaRequestId with
  | none => active
  | some mediaRequestId =>
      let key := (mediaRequestId, row.season)
      let matchingScopeExists := scopes.any fun s =>
        s.mediaRequestId = some mediaRequestId && s.seasonNumber = row.season
      if key ∈ keySet ∧ !matchingScopeExists then insert key active else active

def addScopedKey (active : Finset RequestKey) (s : DownloadScope) : Finset RequestKey :=
  match s.mediaRequestId with
  | none => active
  | some mediaRequestId =>
      let scopedKey := (mediaRequestId, s.seasonNumber)
      if s.status.unresolved ∧ scopedKey ∈ keySet then insert scopedKey active else active

def addKeysOf (scopes : List DownloadScope)
    (active : Finset RequestKey) (row : Download) : Finset RequestKey :=
  let own := scopes.filter (·.downloadId = row.id)
  own.foldl (addScopedKey keySet) (addScalarKey keySet own row active)

namespace Database

def findActiveForRequests (db : Database) (keys : List RequestKey) : Finset RequestKey :=
  if keys.isEmpty then ∅
  else
    let keySet := keys.toFinset
    let requestIds := (keys.map Prod.fst).dedup
    let rows := db.worthExamining requestIds
    if rows.isEmpty then ∅
    else
      let scopes := db.scopesWorthExamining (rows.map (·.id)) requestIds
      rows.foldl (addKeysOf keySet scopes) ∅

def findActiveCoverageTitles (db : Database) (keys : List TitleKey) : Finset TitleKey :=
  if keys.isEmpty then ∅
  else
    let keySet := keys.toFinset
    let tmdbIds := (keys.map Prod.fst).dedup
    let rows := db.claimsOfRequests.flatMap fun (c, r) =>
      (db.downloads.filter fun d =>
        d.id = c.downloadId && r.tmdbId ∈ tmdbIds && r.mediaType = .tv && c.active &&
          c.seasonNumber.isSome && d.active).map fun _ => (r.tmdbId, c.seasonNumber)
    (rows.filter (· ∈ keySet)).toFinset

end Database

end InFlight

end PlexManager
