import PlexManager.Core.Eviction.Rows

/-!
# One eviction

An eviction claims its row, looks whether anybody else has the path, and deletes
what is under it. The delete is the primitive that a correction uses as well: it
registers the path, probes it twice, waits for a permit, and starts a thread.
Just before, the eviction arms the marker of its row. How the thread ends
decides what becomes of the row.

A step is what happens between two `await`s, and a transaction is one step,
since it begins with a write and no other write comes between that and its
commit. At any step the call may be cancelled or an exception raised, and where
it commits, the commit may have gone through or not.

A delete takes entries from the rows that have its very path. A path within another is left
out: an import gives every title and every season a directory of its own.
-/

namespace PlexManager

namespace Eviction

/-! ### What is shared -/

/-- A `PressureExclusionLease`. -/
structure Lease where
  id : Nat
  ownsPath : Path → Bool
  revoked : Bool := false

/-- `trees` are the paths under which there is anything. `gutted` are the rows
    whose tree has lost an entry to a delete since an import stamped the path.
    `purges` and `placements` have a path once for each registration. -/
structure Shared where
  db : Db
  trees : List Path
  gutted : List RowKey
  purges : List Path
  placements : List Path
  leases : List Lease
  /-- `_sweep_latch`. -/
  busy : Bool
  nextSweep : Nat
  /-- The sweeps that have reported that they stand down, by their ids. -/
  stoodDown : List Nat

namespace Shared

variable (s : Shared) (path : Path)

def register : Shared := { s with purges := path :: s.purges }

/-- `end_purge`. -/
def unregister : Shared := { s with purges := s.purges.erase path }

def revoked (s : Shared) (lease : Option Nat) : Bool :=
  s.leases.any fun l => some l.id = lease && l.revoked

def revokePressureExclusions : Shared :=
  { s with
    leases := s.leases.map fun l => if l.ownsPath path then { l with revoked := true } else l }

/-- `acquire_pressure_exclusion`, with the id of the new lease. -/
def acquirePressureExclusion (id : Nat) (ownsPath : Path → Bool) :
    Option Nat × Shared :=
  if s.purges.any ownsPath then (none, s)
  else (some id, { s with leases := s.leases ++ [{ id, ownsPath }] })

def releasePressureExclusion (lease : Option Nat) : Shared :=
  { s with leases := s.leases.filter fun l => some l.id ≠ lease }

def named : List RowKey :=
  (s.db.rows.rows.filter fun r => r.libraryPath = some path).map Row.key

def removeEntry : Shared :=
  { s with gutted := s.named path ++ s.gutted }

/-- A thread ends with the tree gone. One that was gone already loses nothing. -/
def removeTree : Shared :=
  if path ∈ s.trees then { s.removeEntry path with trees := s.trees.filter (· ≠ path) } else s

end Shared

/-! ### What is chosen from outside -/

/-- `proceed` is the ordinary end of what is awaited and `refuse` its negative
    answer. `raise` is an exception and `cancel` a cancellation, each with
    whether a commit that was awaited has gone through. The others are turns of
    a thread that deletes: it takes an entry away, it ends, with the tree gone
    or with an error, or it is abandoned by the shutdown. -/
inductive Turn where
  | proceed
  | refuse
  | raise (committed : Bool)
  | cancel (committed : Bool)
  | removes
  | ends (success : Bool)
  | abandon
  deriving DecidableEq, Repr

/-- How a call goes on at a turn: it may be cut short there. -/
inductive Fate where
  | goes
  | raised
  | cancelled
  deriving DecidableEq, Repr

def Turn.fate : Turn → Fate
  | .raise _ => .raised
  | .cancel _ => .cancelled
  | _ => .goes

def Turn.commits : Turn → Bool
  | .raise committed | .cancel committed => committed
  | _ => true

def Shared.transact (s : Shared) (t : Turn) (db : Db) : Shared :=
  if t.commits then { s with db := db } else s

/-! ### The purge -/

inductive PurgeOutcome where
  | deleted
  | refused
  | deferred
  | error
  | partialDelete
  deriving DecidableEq, Repr

/-- The `await`s of a purge, but for the hook. A thread that deletes has taken
    an entry away or not, and the call that waits for it was cancelled or not. -/
inductive PurgePc where
  | entering
  | guard
  | reclaim
  | gate
  | deleting (removed wasCancelled : Bool)
  deriving DecidableEq, Repr

/-- Where a step of a purge leads to: on, to the hook with the permit held, to
    an outcome, out with an exception, or to a thread that nobody waits for. -/
inductive PurgeStep where
  | at (pc : PurgePc)
  | hook
  | outcome (o : PurgeOutcome)
  | left (fate : Fate)
  | abandoned (removed : Bool)
  deriving DecidableEq, Repr

/-- `purge_library_path`, with the registration held for the caller where the
    tree is gone. A probe that fails counts as nothing to reclaim. -/
def purgeNext (t : Turn) (s : Shared) (path : Path) : PurgePc → Shared × PurgeStep
  | .entering =>
      if path ∈ s.placements ∨ t = .refuse then (s, .outcome .deferred)
      else (s.register path, .at .guard)
  | .guard =>
      match t with
      | .refuse => (s.unregister path, .outcome .refused)
      | t => match t.fate with
        | .goes => (s, .at .reclaim)
        | fate => (s.unregister path, .left fate)
  | .reclaim =>
      match t.fate with
      | .goes => (s, .at .gate)
      | fate => (s.unregister path, .left fate)
  | .gate =>
      match t.fate with
      | .goes => (s, .hook)
      | fate => (s.unregister path, .left fate)
  | .deleting removed wasCancelled =>
      match t with
      | .removes =>
          if path ∈ s.trees then (s.removeEntry path, .at (.deleting true wasCancelled))
          else (s, .at (.deleting removed wasCancelled))
      | .cancel _ => (s, .at (.deleting removed true))
      | .abandon => (s, .abandoned removed)
      | .ends true =>
          if wasCancelled then ((s.removeTree path).unregister path, .left .cancelled)
          else (s.removeTree path, .outcome .deleted)
      | .ends false =>
          if wasCancelled then (s.unregister path, .left .cancelled)
          else if removed then (s.unregister path, .outcome .partialDelete)
          else (s.unregister path, .outcome .error)
      | _ => (s, .at (.deleting removed wasCancelled))

/-! ### The eviction -/

/-- What a read may find to speak against a delete. -/
inductive Check where
  | pin
  | status
  | inFlight
  | transfer
  | coverage
  | watchlist
  deriving DecidableEq, Repr

/-- `_still_evictable`, in the order of its reads. A movie has no coverage. -/
def stillEvictable : List Check := [.pin, .status, .inFlight, .coverage, .watchlist]

def Check.passes (db : Db) (key : RowKey) : Check → Bool
  | .pin => !db.pinned key
  | .status => (db.row key).any fun r => r.status = .available
  | .inFlight => (db.findActiveForRequest key.requestId key.seasonNumber).isNone
  | .transfer => !db.competingActiveTransfer key
  | .coverage => !db.coverageClaimActive key
  | .watchlist => !db.watchlisted key

/-- The `await`s of `_evict_one`. Once the marker is armed, the pc has the rows
    as they were committed with it. -/
inductive EvictPc where
  | filter (rest : List Check)
  | watchState
  | claim
  | twins (mediaType : MediaType) (last : Bool)
  | coverage
  | purging (pc : PurgePc)
  | arm
  | armed (rows : Db)
  | restore
  | disarm
  | disarmUnstarted
  | finalize
  | release
  | abandoned (removed : Bool)
  | ended (fate : Fate)

def MediaType.other : MediaType → MediaType
  | movie => tv
  | tv => movie

def EvictPc.commit (t : Turn) (s : Shared) (db : Db) (next : EvictPc) : Shared × EvictPc :=
  (s.transact t db, match t.fate with
    | .goes => next
    | fate => .ended fate)

def EvictPc.ofPurge : PurgeStep → EvictPc
  | .at pc => .purging pc
  | .hook => .arm
  | .outcome .deleted => .finalize
  | .outcome .deferred => .disarm
  | .outcome .partialDelete => .ended .goes
  | .outcome .refused | .outcome .error => .restore
  | .left fate => .ended fate
  | .abandoned removed => .abandoned removed

def evictNext (t : Turn) (s : Shared) (lease : Option Nat) (key : RowKey) (path : Path) :
    EvictPc → Shared × EvictPc
  | .filter [] => (s, .watchState)
  | .filter (check :: rest) =>
      match t.fate with
      | .goes => (s, if check.passes s.db key then .filter rest else .ended .goes)
      | fate => (s, .ended fate)
  | .watchState =>
      match t with
      | .proceed => (s, .claim)
      | .cancel _ => (s, .ended .cancelled)
      | _ => (s, .ended .goes)
  | .claim =>
      match s.db.claimForEviction key with
      | (true, db) => EvictPc.commit t s db (.twins key.mediaType false)
      | (false, _) => (s, .ended t.fate)
  | .twins mediaType last =>
      match t.fate with
      | .goes =>
          if s.db.claimsPath mediaType path key then (s, .restore)
          else if last then (s, .coverage)
          else (s, .twins mediaType.other true)
      | fate => (s, .ended fate)
  | .coverage =>
      match t.fate with
      | .goes => (s, if s.db.coverageClaimActive key then .restore else .purging .entering)
      | fate => (s, .ended fate)
  | .purging pc =>
      -- The first look at the lease, with the permit held.
      if (purgeNext t s path pc).2 = .hook ∧ s.revoked lease then (s.unregister path, .restore)
      else ((purgeNext t s path pc).1, EvictPc.ofPurge (purgeNext t s path pc).2)
  | .arm =>
      let db := s.db.armPartialDelete key path
      match t.fate with
      | .goes => ({ s with db := db }, .armed db)
      | fate => ((s.transact t db).unregister path, .ended fate)
  | .armed rows =>
      match t with
      | .cancel _ => (s.unregister path, .ended .cancelled)
      | t =>
          -- The second look, after which nothing is awaited until the thread starts.
          if s.revoked lease then (s.unregister path, .restore)
          else match t with
          | .refuse => (s.unregister path, .disarmUnstarted)
          | .proceed => (s, .purging (.deleting false false))
          | _ => (s, .armed rows)
  | .restore => EvictPc.commit t s (s.db.restoreAfterFailedDelete key) (.ended .goes)
  | .disarm => EvictPc.commit t s (s.db.disarmPartialDelete key) (.ended .goes)
  | .disarmUnstarted => EvictPc.commit t s (s.db.disarmPartialDelete key) (.ended .raised)
  | .finalize =>
      match t.fate with
      | .goes => ({ s with db := s.db.finalizeEvicted key path }, .release)
      | fate => ((s.transact t (s.db.finalizeEvicted key path)).unregister path, .ended fate)
  | .release =>
      (s.unregister path, .ended t.fate)
  | .abandoned removed => (s, .abandoned removed)
  | .ended fate => (s, .ended fate)

end Eviction

end PlexManager
