import PlexManager.Core.DownloadRows
import PlexManager.Core.StallDetector
import PlexManager.Lib.Interleaving
import PlexManager.Lib.Program

/-!
# Sessions over the download rows

A grab works on three things that others work on too: the database, the
download client and the registry of removals in flight. Each of its `await`s is
one operation here, and so is each look at the registry, since any other call
may run at the `await` before it.

Nothing but the first write of a transaction waits. It takes the write lock of
the database, which its session holds until it commits or rolls back, and what
it has written is seen by nobody else before it commits. A read outside a
transaction sees what is committed at that time.

The client is a set of hashes. It reports a torrent as created if it did not
have it. What else it answers, whether it raises, and what the blocklist says
is up to the environment.

A session also keeps a history, which no operation looks at. It says how far
the call has come between the guard of a reuse and the end of its transaction,
or between the reservation of a removal and the removal, what the call last saw
of a row, and which committed rows it speaks of.
-/

namespace PlexManager

namespace Grab

open KeyedTable
open Seasons (SeasonRequest)
open Reconciler (DownloadStatus metadataStallWindow)

/-! ### Operations -/

/-- What a grab writes into a row, apart from the times. -/
structure Grabbed where
  torrentHash : String
  mediaRequestId : Option Nat
  season : Option Int
  episodes : Option (List Int)
  metadata : GrabMetadata
  deriving DecidableEq, Repr

def Grabbed.row (g : Grabbed) (now : Int) : Download :=
  { torrentHash := g.torrentHash
    status := .downloading
    mediaRequestId := g.mediaRequestId
    season := g.season
    episodes := g.episodes
    metadata := g.metadata
    traces := { addedAt := now, timeoutAt := some (now + metadataStallWindow) } }

structure RequestRecord where
  mediaType : MediaType
  status : RequestStatus
  deriving DecidableEq, Repr

structure AddResult where
  torrentHash : String
  created : Bool
  payloadPending : Bool
  deriving DecidableEq, Repr

inductive Op where
  | getRequest (mediaRequestId : Nat)
  | listSeasons (mediaRequestId : Nat)
  | getByHash (torrentHash : String)
  | findActiveForRequest (mediaRequestId : Nat) (season : Option Int)
  | findActiveCoverageOwner (mediaRequestId : Nat) (season : Option Int)
  | listScopes (torrentHash : String)
  | isBlocklisted
  | create (g : Grabbed)
  | reuse (g : Grabbed)
  | lockIfActive (torrentHash : String)
  | lockIfTerminal (torrentHash : String)
  | ensureScope (torrentHash : String) (mediaRequestId : Nat) (season : Int)
      (episodes : Option (List Int))
  | ensureCoverageClaim (torrentHash : String) (mediaRequestId : Nat) (season : Int)
  | ensureSeason (mediaRequestId : Nat) (season : Int)
  | setSeasonStatusIfIn (mediaRequestId : Nat) (season : Int) (allowedFrom : List RequestStatus)
  | setRequestStatusIfIn (mediaRequestId : Nat) (allowedFrom : List RequestStatus)
  | commit
  | rollback
  | add (source : String)
  | getStatus (torrentHash : String)
  | listFiles (torrentHash : String)
  | remove (torrentHash : String)
  | removalInFlight (torrentHash : String)
  | registerRemoval (torrentHash : String)
  | releaseRemoval (torrentHash : String)
  deriving DecidableEq

/-- The answers. Where the client is asked, `none` says that it raised. -/
abbrev Ans : Op → Type
  | .getRequest _ => Option RequestRecord
  | .listSeasons _ => List SeasonRequest
  | .getByHash _ | .findActiveForRequest _ _ | .findActiveCoverageOwner _ _ => Option Download
  | .listScopes _ => List DownloadScope
  | .isBlocklisted => Bool
  | .create _ => Except StatementError Download
  | .reuse _ => Except StatementError Bool
  | .lockIfActive _ | .lockIfTerminal _ => Bool
  | .ensureScope _ _ _ _ | .ensureCoverageClaim _ _ _ => Except StatementError Unit
  | .ensureSeason _ _ => Unit
  | .setSeasonStatusIfIn _ _ _ | .setRequestStatusIfIn _ _ => Except StatementError Bool
  | .commit | .rollback => Unit
  | .add _ => Option AddResult
  | .getStatus _ => Option (Option DownloadStatus)
  | .listFiles _ => Option Bool
  | .remove _ => Unit
  | .removalInFlight _ => Bool
  | .registerRemoval _ | .releaseRemoval _ => Unit

/-- What the environment decides about an operation: the time, the torrent that
    is behind a source and whether its hash can be derived, and the answers of
    the client and of the blocklist. -/
structure Choice where
  now : Int := 0
  torrentHash : String := ""
  derivable : Bool := true
  payloadPending : Bool := false
  status : DownloadStatus := { infoHash := "", rawState := .downloading }
  hasFiles : Bool := true
  raises : Bool := false
  blocklisted : Bool := false
  deriving DecidableEq, Repr

/-! ### State -/

/-- A committed state of the database, and the session that committed it if it
    was one of a grab. -/
structure Commit where
  author : Option Nat
  db : Database
  deriving DecidableEq

/-- What calls share. `held` are the removals that grabs have registered, by
    session, and `others` those of other calls. Of all that was committed,
    `log` has the states and `risen` each hash whose row came to be tracked by
    it, as often as it did. -/
structure Shared where
  db : Database
  writer : Option Nat := none
  client : List String := []
  held : List (Nat × String) := []
  others : List String := []
  log : List Commit := []
  risen : List String := []
  deriving DecidableEq

/-- How far a call has come with a reuse or with a removal. It is `poised` when
    it has passed the guard of a reuse, and `reviving` from the swap to the end
    of the transaction. It has `reserved` a removal when it has registered it,
    and the removal is `settled` when it has found the row finished since.
    A swap that no guard came before is `unguarded`. -/
inductive Phase where
  | free
  | poised (torrentHash : String)
  | reviving (torrentHash : String)
  | reserved (torrentHash : String)
  | settled (torrentHash : String)
  | unguarded
  deriving DecidableEq, Repr

/-- Whether a torrent was tracked when a call last touched its row, and how
    often it had come to be tracked by then. -/
structure Sighting where
  torrentHash : String
  tracked : Bool
  risen : Nat
  deriving DecidableEq, Repr

/-- A call's own state: the rows as its transaction has them, if it has written,
    and its history. `committed` and `reading` are the positions in the log, with
    the rows, of its last commit and of its last look at a row. -/
structure Session where
  id : Nat
  pending : Option Database := none
  phase : Phase := .free
  sighting : Option Sighting := none
  committed : Option (Nat × Database) := none
  reading : Option (Nat × Database) := none
  deriving DecidableEq

def Session.view (v : Session) (s : Shared) : Database := v.pending.getD s.db

/-! ### Writes -/

/-- A write, if the lock is free or the session's own. What raises writes
    nothing and leaves the transaction open. -/
def Session.write {α : Type} (v : Session) (s : Shared)
    (f : Database → Except StatementError (α × Database)) :
    Option (Except StatementError α × Shared × Session) :=
  if s.writer = none ∨ s.writer = some v.id then
    match f (v.view s) with
    | .ok (a, db) =>
        some (.ok a, { s with writer := some v.id }, { v with pending := some db })
    | .error e =>
        some (.error e, { s with writer := some v.id },
          { v with pending := some (v.view s) })
  else none

def Session.update {α : Type} (v : Session) (s : Shared) (f : Database → α × Database) :
    Option (α × Shared × Session) :=
  if s.writer = none ∨ s.writer = some v.id then
    some ((f (v.view s)).1, { s with writer := some v.id },
      { v with pending := some (f (v.view s)).2 })
  else none

/-- The hashes that are tracked after a commit and were not before. -/
def risings (db db' : Database) : List String :=
  (db'.downloads.rows.map Download.torrentHash).filter fun torrentHash =>
    db'.Tracked torrentHash ∧ ¬db.Tracked torrentHash

def Shared.advance (s : Shared) (author : Option Nat) (db : Database) : Shared :=
  { s with
    db := db
    log := s.log ++ [⟨author, db⟩]
    risen := s.risen ++ risings s.db db }

/-- `commit`, where a session that has written nothing commits nothing. -/
def Session.commit (v : Session) (s : Shared) : Shared × Session :=
  match v.pending with
  | none => (s, v)
  | some db =>
      ({ s.advance (some v.id) db with writer := none },
        { v with pending := none, committed := some (s.log.length, db) })

def Session.rollback (v : Session) (s : Shared) : Shared × Session :=
  match v.pending with
  | none => (s, v)
  | some _ => ({ s with writer := none }, { v with pending := none })

/-! ### What operations do -/

def Shared.removalInFlight (s : Shared) (torrentHash : String) : Bool :=
  torrentHash ∈ s.others ∨ torrentHash ∈ s.held.map Prod.snd

def Op.read (titles : Titles) (c : Choice) (db : Database) : (op : Op) → Option (Ans op)
  | .getRequest mediaRequestId => some <|
      (db.library.requests.find mediaRequestId).map fun r =>
        ⟨titles.mediaType mediaRequestId, r.status⟩
  | .listSeasons mediaRequestId => some (db.listSeasons mediaRequestId)
  | .getByHash torrentHash => some (db.getByHash torrentHash)
  | .findActiveForRequest mediaRequestId season =>
      some (db.findActiveForRequest mediaRequestId season)
  | .findActiveCoverageOwner mediaRequestId season =>
      some (db.findActiveCoverageOwner mediaRequestId season)
  | .listScopes torrentHash => some (db.listScopes torrentHash)
  | .isBlocklisted => some c.blocklisted
  | _ => none

/-- Carry out an operation, or `none` while it waits for the lock. -/
def Session.carryOut (titles : Titles) (c : Choice) (s : Shared) (v : Session) :
    (op : Op) → Option (Ans op × Shared × Session)
  | .create g => v.write s fun db =>
      (db.create (g.row c.now)).map fun db => (g.row c.now, db)
  | .reuse g => v.write s fun db => db.reuse (g.row c.now)
  | .lockIfActive torrentHash => v.update s fun db =>
      (decide (db.Tracked torrentHash), db)
  | .lockIfTerminal torrentHash => v.update s fun db =>
      ((db.getByHash torrentHash).any fun d => !d.active, db)
  | .ensureScope torrentHash mediaRequestId season episodes => v.write s fun db =>
      (db.ensureScope torrentHash (some mediaRequestId) (some season) episodes).map
        fun db => ((), db)
  | .ensureCoverageClaim torrentHash mediaRequestId season => v.write s fun db =>
      (db.ensureCoverageClaim torrentHash mediaRequestId season).map fun db => ((), db)
  | .ensureSeason mediaRequestId season => v.update s fun db =>
      ((), db.ensureSeason mediaRequestId season)
  | .setSeasonStatusIfIn mediaRequestId season allowedFrom => v.write s fun db =>
      db.setSeasonStatusIfIn titles c.now mediaRequestId season allowedFrom
  | .setRequestStatusIfIn mediaRequestId allowedFrom => v.write s fun db =>
      db.setRequestStatusIfIn titles mediaRequestId allowedFrom
  | .commit => some ((), v.commit s)
  | .rollback => some ((), v.rollback s)
  | .add _ =>
      if c.raises then some (none, s, v)
      else
        let torrentHash := lower c.torrentHash
        some (some
          { torrentHash := if c.derivable then torrentHash else ""
            created := torrentHash ∉ s.client
            payloadPending := c.payloadPending },
          { s with client := s.client.insert torrentHash }, v)
  | .getStatus torrentHash =>
      some (if c.raises then none
        else some (if torrentHash ∈ s.client then some c.status else none), s, v)
  | .listFiles _ => some (if c.raises then none else some c.hasFiles, s, v)
  | .remove torrentHash =>
      some ((), if c.raises then s else { s with client := s.client.filter (· ≠ torrentHash) }, v)
  | .removalInFlight torrentHash => some (s.removalInFlight torrentHash, s, v)
  | .registerRemoval torrentHash =>
      some ((), { s with held := (v.id, torrentHash) :: s.held }, v)
  | .releaseRemoval torrentHash =>
      some ((), { s with held := s.held.erase (v.id, torrentHash) }, v)
  | op => (op.read titles c (v.view s)).map fun a => (a, s, v)

/-! ### History -/

def Op.findsFinished (torrentHash : String) : (op : Op) → Ans op → Bool
  | .getByHash other, answer => other = torrentHash && answer.any fun d => !d.active
  | .lockIfTerminal other, answer => other = torrentHash && answer
  | _, _ => false

/-- The phase after an operation that is answered, in a transaction or outside
    of any. A call that revives a row is done with it when its transaction ends. -/
def Phase.after (op : Op) (answer : Ans op) (outside : Bool) (phase : Phase) : Phase :=
  match phase with
  | .unguarded => .unguarded
  | .reviving torrentHash =>
      match op with
      | .commit | .rollback => .free
      | .reuse _ => .unguarded
      | _ => .reviving torrentHash
  | phase =>
      match op, answer with
      | .reuse g, _ => if phase = .poised g.torrentHash then .reviving g.torrentHash else .unguarded
      | .removalInFlight torrentHash, inFlight => if inFlight then .free else .poised torrentHash
      | .registerRemoval torrentHash, _ => .reserved torrentHash
      | .releaseRemoval _, _ => .free
      | op, answer =>
          match phase with
          | .reserved torrentHash =>
              if outside && op.findsFinished torrentHash answer then .settled torrentHash
              else .reserved torrentHash
          | .settled torrentHash => .settled torrentHash
          | _ => .free

def Op.touches : Op → Option String
  | .getByHash torrentHash | .lockIfActive torrentHash | .lockIfTerminal torrentHash =>
      some torrentHash
  | .create g | .reuse g => some g.torrentHash
  | _ => none

/-- A session after an operation that was carried out in `s`. A look at a row
    and the looks at its scopes and seasons that follow it are one reading. -/
def Session.note (s : Shared) (op : Op) (answer : Ans op) (before after : Session) : Session :=
  { after with
    phase := before.phase.after op answer before.pending.isNone
    sighting := match op.touches with
      | some torrentHash =>
          some ⟨torrentHash, decide (s.db.Tracked torrentHash), s.risen.count torrentHash⟩
      | none => before.sighting
    reading := match op with
      | .getByHash _ => if before.pending.isSome then none else some (s.log.length - 1, s.db)
      | .listScopes _ | .listSeasons _ => before.reading
      | _ => none }

def exec (titles : Titles) (op : Op) (c : Choice) (w : Shared × Session) :
    Option (Ans op × (Shared × Session)) :=
  (w.2.carryOut titles c w.1 op).map fun r =>
    (r.1, r.2.1, w.2.note w.1 op r.1 r.2.2)

end Grab

end PlexManager
