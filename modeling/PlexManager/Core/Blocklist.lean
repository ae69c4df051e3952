import PlexManager.Core.DecisionEngine
import PlexManager.Core.DownloadRows
import PlexManager.Lib.TextCodec
import PlexManager.Lib.Transition

/-!
# The blocklist

A release that failed, or that a user reported, gets a row in the blocklist, and
the decision engine rejects what the rows of the wanted media match. Two releases
are the same when their hashes are, or, where one of them has no hash, when title
and indexer are.

Title and indexer are not kept in the row of a download. Each of the four writers
takes them from the history, as the newest title and the newest indexer that were
written down for the hash. Most of what the services write to the history is about
a hash, and each entry may have a title of its own.

Downloads, their scopes and the requests are those of `Grab.Database`. A step here
is a transaction. A service that reads a row and writes later from what it read
has the row among the ones that were `seen`, and a report whose last transaction
is still to come is among the `audits`. The statuses of requests and seasons move
freely. An operator who takes a release off the blocklist is not modelled, and the
columns nothing here reads are left out: what the entries say, and their times.

Case folding comes from Unicode and is a parameter.
-/

namespace PlexManager

namespace Blocklist

open Grab DecisionEngine TextCodec

/-! ### The same release -/

structure BlocklistedRelease where
  sourceTitle : String
  infoHash : Option String := none
  indexer : Option String := none
  deriving DecidableEq, Repr

/-- `[\s._-]`. -/
def separator (c : Char) : Bool := isSpace c || c = '.' || c = '_' || c = '-'

/-- A row of separators becomes one blank. The flag says that one was just
    read. -/
def collapse : Bool → Text → Text
  | _, [] => []
  | inRow, c :: rest =>
      if separator c then if inRow then collapse true rest else ' ' :: collapse true rest
      else c :: collapse false rest

variable (casefold : String → String)

def normalizeTitle (title : String) : String :=
  casefold (String.ofList (strip (collapse false title.toList)))

def sameTitle (left right : String) : Bool :=
  normalizeTitle casefold left = normalizeTitle casefold right

def sameIndexer : Option String → Option String → Bool
  | some left, some right =>
      casefold (String.ofList (strip left.toList)) = casefold (String.ofList (strip right.toList))
  | none, none => true
  | _, _ => false

/-- A hash that counts as one: the empty one does not. -/
def truthy (infoHash : Option String) : Option String := infoHash.filter (· ≠ "")

/-- `_matches`. -/
def matchesEntry (entry : BlocklistedRelease) (infoHash : Option String) (sourceTitle : String)
    (indexer : Option String) : Bool :=
  match truthy infoHash, truthy entry.infoHash with
  | some hash, some listed => casefold listed = casefold hash
  | _, _ =>
      sameTitle casefold sourceTitle entry.sourceTitle && sameIndexer casefold indexer entry.indexer

def isBlocklisted (infoHash : Option String) (sourceTitle : String) (indexer : Option String)
    (entries : List BlocklistedRelease) : Bool :=
  entries.any fun entry => matchesEntry casefold entry infoHash sourceTitle indexer

/-! ### Rows -/

inductive BlocklistReason where
  | failed
  | badQuality
  | wrongMedia
  | userReported
  deriving DecidableEq, Repr

structure BlocklistRow where
  sourceTitle : String
  reason : BlocklistReason
  tmdbId : Option Int
  torrentHash : Option String
  indexer : Option String
  mediaType : Option MediaType
  deriving DecidableEq, Repr

def BlocklistRow.release (row : BlocklistRow) : BlocklistedRelease :=
  { sourceTitle := row.sourceTitle, infoHash := row.torrentHash, indexer := row.indexer }

inductive HistoryEvent where
  | grabbed
  | importStarted
  | imported
  | failed
  | evicted
  | reported
  | cancelled
  | stalled
  deriving DecidableEq, Repr

structure HistoryEntry where
  tmdbId : Option Int
  torrentHash : Option String
  eventType : HistoryEvent
  sourceTitle : Option String
  indexer : Option String := none
  deriving DecidableEq, Repr

/-- `_media_type_scope`. Rows without a type are from before there were shows. -/
def inMediaTypeScope (mediaType : MediaType) (row : BlocklistRow) : Bool :=
  match mediaType with
  | .movie => row.mediaType = some .movie || row.mediaType = none
  | .tv => row.mediaType = some .tv

def listForMedia (blocklist : List BlocklistRow) (tmdbId : Int) (mediaType : MediaType) :
    List BlocklistRow :=
  blocklist.filter fun row => row.tmdbId = some tmdbId && inMediaTypeScope mediaType row

def blocklistHook (blocklist : List BlocklistRow) (tmdbId : Int) (mediaType : MediaType) :
    CandidateRelease → SourceMapping.ParsedRelease → Bool :=
  let entries := (listForMedia blocklist tmdbId mediaType).map BlocklistRow.release
  fun candidate _ =>
    isBlocklisted casefold candidate.infoHash candidate.title (some candidate.indexerName) entries

def sourceTitleFor (history : List HistoryEntry) (torrentHash : String) : Option String :=
  (history.filterMap fun entry =>
    if entry.torrentHash = some torrentHash then entry.sourceTitle else none).getLast?

def indexerFor (history : List HistoryEntry) (torrentHash : String) : Option String :=
  (history.filterMap fun entry =>
    if entry.torrentHash = some torrentHash then entry.indexer else none).getLast?

/-- `or`, of a text that may be missing and one that is not. -/
def orText (text : Option String) (otherwise : String) : String :=
  match text with
  | some text => if text = "" then otherwise else text
  | none => otherwise

def mediaTypeForBlocklist (record : Option Download) (requestMediaType : Option MediaType) :
    Option MediaType :=
  match requestMediaType, record with
  | some mediaType, _ => some mediaType
  | none, none => none
  | none, some record =>
      match record.metadata.mediaType with
      | some mediaType => some mediaType
      | none => if record.season.isSome then some .tv else some .movie

/-! ### The tables -/

/-- What the columns of a request say that are fixed when it is created. -/
structure Naming extends Titles where
  title : Nat → String

/-- What is left to do of a report: an entry in the history. -/
structure Audit where
  tmdbId : Int
  torrentHash : Option String
  title : String
  deriving DecidableEq, Repr

/-- Title and indexer of a release that was grabbed. -/
structure Origin where
  title : String
  indexer : String
  deriving DecidableEq, Repr

structure World where
  db : Database
  history : List HistoryEntry
  blocklist : List BlocklistRow
  seen : List Download
  audits : List Audit
  /-- The release that the row of a hash was last grabbed from. No code reads it. -/
  origin : String → Option Origin

variable (db : Database) (torrentHash : String) (naming : Naming) (status : DownloadState)
  (failedReason : Option String)

/-- `find_latest_imported_for_request`. -/
def findLatestImported (mediaRequestId : Nat) (season : Option Int) :
    Option Download :=
  (db.downloads.rows.filter fun d =>
    (d.status = .imported && d.mediaRequestId = some mediaRequestId && d.season = season) ||
      db.scopes.rows.any fun s =>
        s.torrentHash = d.torrentHash && s.names mediaRequestId season &&
          s.status = .imported).getLast?

def findRequest (mediaRequestId : Option Nat) : Option Nat :=
  mediaRequestId.filter fun id => (db.library.requests.find id).isSome

/-- `_resolve_report_target`: the status of what is reported. -/
def reportTarget (db : Database) (mediaRequestId : Nat) (season : Option Int) :
    Option RequestStatus :=
  match naming.mediaType mediaRequestId, season with
  | .movie, _ => (db.library.requests.find mediaRequestId).map (·.status)
  | .tv, none => none
  | .tv, some season => db.library.status mediaRequestId season

/-- `find_active` finds another request. -/
def activeSibling (db : Database) (mediaRequestId : Nat) : Bool :=
  db.library.requests.rows.any fun r =>
    r.id ≠ mediaRequestId && r.status ∉ Seasons.settledRequestStatuses &&
      naming.tmdbId r.id = naming.tmdbId mediaRequestId &&
      naming.mediaType r.id = naming.mediaType mediaRequestId

def movedTo (d : Download) : Download :=
  { d with status, traces := { d.traces with failedReason } }

@[simp] theorem torrentHash_movedTo
    (d : Download) : (movedTo status failedReason d).torrentHash = d.torrentHash := rfl

def setStatus : Database :=
  let downloads := db.downloads.modify torrentHash (movedTo status failedReason)
    (torrentHash_movedTo status failedReason)
  { db with downloads }

def settled (p : DownloadScope → Bool) (status : ScopeStatus) (s : DownloadScope) :
    DownloadScope :=
  if p s && s.status.unresolved then { s with status } else s

theorem key_settled (p : DownloadScope → Bool) (status : ScopeStatus) (s : DownloadScope) :
    (settled p status s).key = s.key := by
  unfold settled
  split
  · rfl
  · rfl

/-- The unresolved scopes of a row that pass a test get a status. -/
def settleScopes (status : ScopeStatus) (p : DownloadScope → Bool) : Database :=
  let p := fun s : DownloadScope => s.torrentHash = torrentHash && p s
  { db with scopes := db.scopes.rewrite (settled p status) (key_settled p status) }

/-- `_mark_download_scopes_terminal`, after the row was failed. -/
def failRow (reason : String) : Database :=
  settleScopes (setStatus db torrentHash .failed (some reason)) torrentHash .failed fun _ => true

/-! ### Transactions -/

inductive Event where
  /-- `grab` with a new row. -/
  | grabbed (d : Download) (indexer : String)
  /-- `grab` with the row of a finished torrent. -/
  | regrabbed (d : Download) (indexer : String)
  /-- `grab` of a torrent that is already tracked. Nothing goes to the history. -/
  | attached (torrentHash : String) (mediaRequestId : Nat) (season : Option Int)
      (episodes : Option (List Int))
  /-- A legal move of a row, its failure without a place in the blocklist included. -/
  | moved (torrentHash : String) (status : DownloadState) (failedReason : Option String)
  /-- A pending failure gets the mark of an operator. -/
  | stamped (torrentHash : String) (marker : String)
  /-- The scopes of a row for a season of a request are imported, or given up. -/
  | scopesSettled (torrentHash : String) (mediaRequestId : Nat) (season : Option Int)
      (status : ScopeStatus)
  /-- Requests and seasons move, and new ones are made. -/
  | libraryMoved (library : Seasons.Show)
  | observed (torrentHash : String)
  /-- A service notes that a row it has read stalled, or failed. -/
  | noted (eventType : HistoryEvent) (row : Download)
  /-- An import notes that it started, or ended. -/
  | importNoted (eventType : HistoryEvent) (tmdbId : Int) (torrentHash : String)
  /-- A cancel or an eviction notes what it did, under no hash. -/
  | untiedNoted (eventType : HistoryEvent) (tmdbId : Int) (title : Option String)
  /-- `_handle_failed`. The completion was made from a row that was read. -/
  | failedHandled (record : Download) (observedFailedReason : Option String)
      (reason : String) (blocklistReason : BlocklistReason)
  /-- The last transaction of `mark_failed`, for a row that was read. -/
  | markedFailed (row : Download) (marker : String) (finalReason : String)
  /-- `_blocklist_incomplete_pack`, as the import ends or goes on with late seasons. -/
  | packRejected (torrentHash : String) (mediaRequestId : Nat) (finished : Bool)
  /-- The first transaction of `report_issue`. -/
  | reported (mediaRequestId : Nat) (season : Option Int) (reason : BlocklistReason)
  /-- The last transaction of `report_issue`. -/
  | audited (audit : Audit)

/-- What a writer hands to the blocklist, besides what it takes from the history. -/
structure Write where
  torrentHash : String
  tmdbId : Option Int
  mediaType : Option MediaType
  reason : BlocklistReason
  deriving DecidableEq, Repr

def Write.row (history : List HistoryEntry) (write : Write) : BlocklistRow :=
  { sourceTitle := orText (sourceTitleFor history write.torrentHash) write.torrentHash
    reason := write.reason
    tmdbId := write.tmdbId
    torrentHash := some write.torrentHash
    indexer := indexerFor history write.torrentHash
    mediaType := write.mediaType }

def Event.write (db : Database) : Event → Option Write
  | .failedHandled record _ _ reason =>
      let request := findRequest db record.mediaRequestId
      some
        { torrentHash := record.torrentHash
          tmdbId := match request with
            | some id => some (naming.tmdbId id)
            | none => record.metadata.tmdbId
          mediaType := mediaTypeForBlocklist (some record) (request.map naming.mediaType)
          reason }
  | .markedFailed row _ _ =>
      let request := findRequest db row.mediaRequestId
      some
        { torrentHash := row.torrentHash
          tmdbId := match request with
            | some id => some (naming.tmdbId id)
            | none => row.metadata.tmdbId
          mediaType := mediaTypeForBlocklist (db.getByHash row.torrentHash)
            (request.map naming.mediaType)
          reason := .userReported }
  | .packRejected torrentHash mediaRequestId _ =>
      some
        { torrentHash
          tmdbId := some (naming.tmdbId mediaRequestId)
          mediaType := some .tv
          reason := .failed }
  | .reported mediaRequestId season reason =>
      -- What Plex had without a download of ours is not blocklisted.
      let season := if naming.mediaType mediaRequestId = .tv then season else none
      (findLatestImported db mediaRequestId season).map fun culprit =>
        { torrentHash := culprit.torrentHash
          tmdbId := some (naming.tmdbId mediaRequestId)
          mediaType := some (if season.isSome then .tv else .movie)
          reason }
  | _ => none

def blocked (w : World) (e : Event) : List BlocklistRow :=
  w.blocklist ++ ((e.write naming w.db).map (Write.row w.history)).toList

/-- The entry `grab` makes for a row. -/
def grabEntry (d : Download) (indexer : String) : HistoryEntry :=
  { tmdbId := d.metadata.tmdbId
    torrentHash := some d.torrentHash
    eventType := .grabbed
    sourceTitle := some d.metadata.releaseTitle
    indexer := some indexer }

def regrab (w : World) (d : Download) (indexer : String) : String → Option Origin :=
  Function.update w.origin d.torrentHash (some ⟨d.metadata.releaseTitle, indexer⟩)

def rowAt (p : Download → Bool) : Bool :=
  (db.getByHash torrentHash).any p

/-- A transaction, or `none` where the services do not make it. -/
def step (w : World) (e : Event) : Option World :=
  match e with
  | .grabbed d indexer =>
      if d.status ≠ .downloading then none
      else match w.db.create d with
        | .error _ => none
        | .ok db => some
            { w with
              db
              history := w.history ++ [grabEntry d indexer]
              origin := regrab w d indexer }
  | .regrabbed d indexer =>
      if d.status ≠ .downloading then none
      else match w.db.reuse d with
        | .ok (true, db) => some
            { w with
              db
              history := w.history ++ [grabEntry d indexer]
              origin := regrab w d indexer }
        | _ => none
  | .attached torrentHash mediaRequestId season episodes =>
      if rowAt w.db torrentHash Download.active then
        match w.db.ensureScope torrentHash (some mediaRequestId) season episodes with
        | .error _ => none
        | .ok db => some { w with db }
      else none
  | .moved torrentHash status failedReason =>
      if rowAt w.db torrentHash fun d => d.status.isLegalTransition status then
        let db := setStatus w.db torrentHash status failedReason
        some { w with db := match status with
          | .failed => settleScopes db torrentHash .failed fun _ => true
          | .imported => settleScopes db torrentHash .imported fun _ => true
          | _ => db }
      else none
  | .stamped torrentHash marker =>
      if rowAt w.db torrentHash fun d => d.status = .failedPending then
        some { w with db := setStatus w.db torrentHash .failedPending (some marker) }
      else none
  | .scopesSettled torrentHash mediaRequestId season status =>
      some { w with db := settleScopes w.db torrentHash status (·.names mediaRequestId season) }
  | .libraryMoved library => some { w with db := { w.db with library } }
  | .observed torrentHash =>
      (w.db.getByHash torrentHash).map fun d => { w with seen := d :: w.seen }
  | .noted eventType row =>
      if row ∈ w.seen ∧ (eventType = .stalled ∨ eventType = .failed) then
        some { w with history := w.history ++
          [{ tmdbId := row.metadata.tmdbId
             torrentHash := some row.torrentHash
             eventType
             sourceTitle := some row.metadata.releaseTitle }] }
      else none
  | .importNoted eventType tmdbId torrentHash =>
      if (eventType = .importStarted ∨ eventType = .imported) ∧
          rowAt w.db torrentHash (fun d => d.status = .importing ∨ d.status = .imported) then
        -- The name of the imported file must not shadow the title of the release.
        some { w with history := w.history ++
          [{ tmdbId := some tmdbId
             torrentHash := some torrentHash
             eventType
             sourceTitle := none }] }
      else none
  | .untiedNoted eventType tmdbId title =>
      if eventType = .cancelled ∨ eventType = .evicted then
        some { w with history := w.history ++
          [{ tmdbId := some tmdbId, torrentHash := none, eventType, sourceTitle := title }] }
      else none
  | .failedHandled record observedFailedReason reason _ =>
      if record ∈ w.seen ∧ rowAt w.db record.torrentHash (fun d =>
          d.status = .failedPending && d.traces.failedReason = observedFailedReason) then
        some { w with
          db := failRow w.db record.torrentHash (orText record.traces.payloadRejection reason)
          blocklist := blocked naming w e }
      else none
  | .markedFailed row marker finalReason =>
      if row ∈ w.seen ∧ rowAt w.db row.torrentHash (fun d =>
          d.status = .failedPending && d.traces.failedReason = some marker) then
        some { w with
          db := failRow w.db row.torrentHash finalReason
          blocklist := blocked naming w e }
      else none
  | .packRejected torrentHash mediaRequestId finished =>
      if rowAt w.db torrentHash (fun d => d.status = .importing) ∧
          naming.mediaType mediaRequestId = .tv then
        some { w with
          db := setStatus w.db torrentHash (if finished then .imported else .importing) none
          blocklist := blocked naming w e }
      else none
  | .reported mediaRequestId season _ =>
      if (w.db.library.requests.find mediaRequestId).isSome = true ∧
          ((reportTarget naming w.db mediaRequestId season).any
            (· ∈ Seasons.reportableStatuses)) = true ∧
          activeSibling naming w.db mediaRequestId = false then
        some { w with
          blocklist := blocked naming w e
          audits :=
            { tmdbId := naming.tmdbId mediaRequestId
              torrentHash := (e.write naming w.db).map (·.torrentHash)
              title := naming.title mediaRequestId } :: w.audits }
      else none
  | .audited audit =>
      if audit ∈ w.audits then
        some { w with history := w.history ++
          [{ tmdbId := some audit.tmdbId
             torrentHash := audit.torrentHash
             eventType := .reported
             sourceTitle := some audit.title }] }
      else none

end Blocklist

end PlexManager
