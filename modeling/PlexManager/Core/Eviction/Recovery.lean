import PlexManager.Core.Eviction.EvictOne

/-!
# Recovery of interrupted deletes

A sweep begins with the rows that an earlier one has left behind. They are read
first, with their paths and markers, and then taken up one after another. Where
the tree is still there, a row without a marker is taken back to `available`,
and one with a marker has its delete done again, after a last look at everything
that could speak against it. Where the tree is gone, the row is finalized.

The decision is made on the marker that was read at first. The look before the
delete is made in the transaction that confirms the marker, and its first write
takes the lock of the database.
-/

namespace PlexManager

namespace Eviction

structure Snapshot where
  key : RowKey
  libraryPath : Path
  partialDeletePath : Option Path
  status : RequestStatus
  deriving DecidableEq, Repr

namespace Snapshot

/-- `correction_recovery`: the delete is that of a reported movie. -/
def correction (r : Snapshot) : Bool := r.key.mediaType = .movie ∧ r.status ≠ .evicted

/-- The row goes through `_recover_rearmed_season`. -/
def rearmed (r : Snapshot) : Bool := r.key.mediaType = .tv ∧ r.status ≠ .evicted

/-- The marker that was read is over the path. -/
def outstanding (r : Snapshot) : Bool := partialDeleteOutstanding r.partialDeletePath r.libraryPath

end Snapshot

/-- `_recovery_delete_boundary`. A correction is not held up by a pin or a
    watchlist. -/
def Db.recoveryDeleteBoundary (db : Db) (key : RowKey) (path : Path) (correction : Bool) : Bool :=
  db.confirmPartialDeleteMarker key path (!correction) &&
    !db.competingActiveTransfer key && !db.coverageClaimActive key &&
    !db.claimsPath key.mediaType path key && !db.claimsPath key.mediaType.other path key &&
    (correction || (!db.watchlisted key && !db.pinned key))

/-- `_recovery_purge_blocked_reason`, in the order of its reads. -/
def recoveryPurgeBlocked (r : Snapshot) : List Check :=
  (if r.correction then [] else [.pin, .watchlist]) ++ [.transfer, .coverage]

/-- The `await`s of a recovery. Once the boundary is passed, the pc has the rows
    as they were committed there. -/
inductive RecoverPc where
  | begin
  | stillArmed
  | removeTorrent
  | stat
  | twins (mediaType : MediaType) (last : Bool)
  | releaseBreadcrumb
  | blocked (rest : List Check)
  | stillArmedAgain
  | purging (pc : PurgePc)
  | boundary
  | confirmed (rows : Db)
  | restore
  | fold
  | finalize (held : Bool)
  | release (held : Bool)
  | abandoned (removed : Bool)
  | ended (fate : Fate)

namespace RecoverPc

/-- The `finally` of `_resume_one` takes its own registration back. -/
def exit (s : Shared) (path : Path) (fate : Fate) : Shared × RecoverPc :=
  (s.unregister path, .ended fate)

def last (t : Turn) (s : Shared) (path : Path) (db : Db) : Shared × RecoverPc :=
  exit (s.transact t db) path t.fate

def ofPurge (s : Shared) (path : Path) : PurgeStep → Shared × RecoverPc
  | .at pc => (s, .purging pc)
  | .hook => (s, .boundary)
  | .outcome .deleted => (s, .finalize true)
  | .outcome _ => exit s path .goes
  | .left fate => exit s path fate
  | .abandoned removed => (s.unregister path, .abandoned removed)

def adjudicate (r : Snapshot) : RecoverPc :=
  if r.outstanding then .blocked (recoveryPurgeBlocked r)
  else if r.rearmed then .fold
  else .restore

end RecoverPc

open RecoverPc in
def recoverNext (t : Turn) (s : Shared) (r : Snapshot) : RecoverPc → Shared × RecoverPc
  | .begin =>
      if r.libraryPath ∈ s.purges ∨ t = .refuse then (s, .ended .goes)
      else (s.register r.libraryPath, if r.correction then .stillArmed else .stat)
  | .stillArmed =>
      match t.fate with
      | .goes =>
          if s.db.partialDeleteStillArmed r.key r.libraryPath then (s, .removeTorrent)
          else exit s r.libraryPath .goes
      | fate => exit s r.libraryPath fate
  | .removeTorrent =>
      match t with
      | .proceed => (s, .stat)
      | t => exit s r.libraryPath t.fate
  | .stat =>
      match t with
      | .proceed =>
          (s, if r.libraryPath ∈ s.trees then .twins r.key.mediaType false else .finalize false)
      | t => exit s r.libraryPath t.fate
  | .twins mediaType last =>
      match t.fate with
      | .goes =>
          if s.db.claimsPath mediaType r.libraryPath r.key then (s, .releaseBreadcrumb)
          else if last then (s, adjudicate r)
          else (s, .twins mediaType.other true)
      | fate => exit s r.libraryPath fate
  | .releaseBreadcrumb =>
      -- `_release_stale_breadcrumb`.
      let statuses :=
        if r.rearmed then rearmedOrBlockedStatuses else staleBreadcrumbClearStatuses
      RecoverPc.last t s r.libraryPath (s.db.clearLibraryPathIfSet r.key r.libraryPath statuses).2
  | .blocked [] => (s, if r.rearmed then .stillArmedAgain else .purging .entering)
  | .blocked (check :: rest) =>
      match t.fate with
      | .goes =>
          if check.passes s.db r.key then (s, .blocked rest) else exit s r.libraryPath .goes
      | fate => exit s r.libraryPath fate
  | .stillArmedAgain =>
      match t.fate with
      | .goes =>
          if s.db.partialDeleteStillArmed r.key r.libraryPath then (s, .purging .entering)
          else exit s r.libraryPath .goes
      | fate => exit s r.libraryPath fate
  | .purging pc =>
      ofPurge (purgeNext t s r.libraryPath pc).1 r.libraryPath (purgeNext t s r.libraryPath pc).2
  | .boundary =>
      match t.fate with
      | .goes =>
          if s.db.recoveryDeleteBoundary r.key r.libraryPath r.correction then (s, .confirmed s.db)
          else exit (s.unregister r.libraryPath) r.libraryPath .goes
      | fate => exit (s.unregister r.libraryPath) r.libraryPath fate
  | .confirmed rows =>
      match t with
      | .proceed => (s, .purging (.deleting false false))
      | .refuse => exit (s.unregister r.libraryPath) r.libraryPath .raised
      | .cancel _ => exit (s.unregister r.libraryPath) r.libraryPath .cancelled
      | _ => (s, .confirmed rows)
  | .restore => RecoverPc.last t s r.libraryPath (s.db.restoreAfterFailedDelete r.key)
  | .fold => RecoverPc.last t s r.libraryPath (s.db.setStatusIfIn r.key .available [r.status]).2
  | .finalize held =>
      match s.db.finalizeResumed r.key r.libraryPath with
      | none => (s, .release held)
      | some db =>
          match t.fate with
          | .goes => ({ s with db := db }, .release held)
          | fate =>
              let s := s.transact t db
              exit (if held then s.unregister r.libraryPath else s) r.libraryPath fate
  | .release held =>
      exit (if held then s.unregister r.libraryPath else s) r.libraryPath t.fate
  | .abandoned removed => (s, .abandoned removed)
  | .ended fate => (s, .ended fate)

end Eviction

end PlexManager
