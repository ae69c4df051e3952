import PlexManager.Core.Eviction.Recovery
import PlexManager.Lib.Interleaving

/-!
# Sweeps among the other calls

A sweep takes up what was interrupted, chooses rows to evict, and evicts them
one after another. One that is made for pressure on the disk holds a lease on
its root. A correction, the report of a bad copy, deletes a path of its own, and
where a lease covers that path it revokes the lease. Imports place files and
stamp their path, and everything else that the application does to the rows
happens in between.

What a sweep chooses is left open, among the available rows of its root: the
choice follows from answers of Plex and sizes on the disk. The death of the
process ends every call and every thread, and takes the registries along.
-/

namespace PlexManager

namespace Eviction

open Interleaving KeyedTable

/-! ### The sweep -/

structure SweepArgs where
  mediaType : MediaType
  /-- `_owned_by_root` for the root of the sweep. -/
  ownsPath : Path → Bool
  proactive : Bool := false
  /-- `run_correction_recovery_sweep`, which only recovers. -/
  correctionOnly : Bool := false

/-- The sweep under way: its id, its lease if it has one, and whether it has
    recorded that the lease was revoked. -/
structure SweepRun where
  id : Nat
  lease : Option Nat
  recorded : Bool := false
  deriving DecidableEq, Repr

structure Candidate where
  key : RowKey
  libraryPath : Option Path
  deriving DecidableEq, Repr

/-- The statuses whose rows are read, in order. -/
def SweepArgs.enumerated (a : SweepArgs) : List RequestStatus :=
  match a.mediaType with
  | .movie =>
      (if a.correctionOnly then [] else [.evicted]) ++
        [.cancelled, .downloading, .failed, .importBlocked, .noAcceptableRelease, .pending,
          .searching]
  | .tv =>
      if a.correctionOnly then []
      else [.evicted, .cancelled, .downloading, .failed, .noAcceptableRelease, .pending,
        .searching, .importBlocked]

/-- Whether a row that is not evicted is taken up only with its marker armed. -/
def markerGated (mediaType : MediaType) (status : RequestStatus) : Bool :=
  match mediaType with
  | .movie => status ≠ .evicted
  | .tv => status ∈ markerOwnedAdvancedStatuses ∨ status = .importBlocked

def SweepArgs.snapshots (a : SweepArgs) (db : Db) (status : RequestStatus) : List Snapshot :=
  db.rows.rows.filterMap fun r =>
    match r.libraryPath with
    | none => none
    | some path =>
        if r.key.mediaType = a.mediaType ∧ r.status = status ∧ a.ownsPath path = true ∧
            (markerGated a.mediaType status = true →
              partialDeleteOutstanding r.partialDeletePath path = true) then
          some
            { key := r.key, libraryPath := path, partialDeletePath := r.partialDeletePath, status }
        else none

def SweepArgs.available (a : SweepArgs) (db : Db) : List Candidate :=
  (db.rows.rows.filter fun r =>
    r.key.mediaType = a.mediaType ∧ r.status = .available ∧ r.libraryPath.all a.ownsPath).map
      fun r => ⟨r.key, r.libraryPath⟩

inductive SweepPc where
  | start
  | probe (run : SweepRun)
  | enumerate (run : SweepRun) (rest : List RequestStatus) (found : List Snapshot)
  | recover (run : SweepRun) (rest : List Snapshot)
  | recovering (run : SweepRun) (r : Snapshot) (pc : RecoverPc) (rest : List Snapshot)
  | reprobe (run : SweepRun)
  | assemble (run : SweepRun)
  | rank (run : SweepRun) (found : List Candidate)
  | selected (run : SweepRun) (rest pool : List Candidate)
  | extra (run : SweepRun) (pool : List Candidate)
  | evicting (run : SweepRun) (key : RowKey) (path : Path) (pc : EvictPc)
      (rest : Option (List Candidate)) (pool : List Candidate)
  | closing (run : SweepRun)
  | orphan (key : RowKey) (path : Path)
  | ended

structure Choice where
  turn : Turn := .proceed
  selected : List RowKey := []
  extra : List RowKey := []
  deriving DecidableEq, Repr

variable (s : Shared) (run : SweepRun) (db : Db)

/-- The `finally` of `run_eviction_sweep`. -/
def SweepRun.close (s : Shared) : Shared :=
  { s.releasePressureExclusion run.lease with busy := false }

def SweepPc.stop : Shared × SweepPc := (run.close s, .ended)

/-- `_lease_defeated`, with its report. -/
def SweepRun.leaseDefeated (s : Shared) : Bool := s.revoked run.lease

def SweepRun.record (run : SweepRun) (s : Shared) : Shared × SweepRun :=
  if run.recorded then (s, run)
  else ({ s with stoodDown := s.stoodDown ++ [run.id] }, { run with recorded := true })

/-- Back in the loop that an eviction was made from: `rest` are the victims after
    it in the first loop, or `none` in the second, which goes through `pool`. -/
def SweepPc.resume (rest : Option (List Candidate)) (pool : List Candidate) :
    SweepPc :=
  match rest with
  | some rest => .selected run rest pool
  | none => .extra run pool

def SweepPc.attempt (c : Candidate) (rest : Option (List Candidate))
    (pool : List Candidate) : SweepPc :=
  match c.libraryPath with
  | some path => .evicting run c.key path (.filter stillEvictable) rest pool
  | none => .resume run rest pool

/-- A sweep goes on from a step of a recovery, or ends where that was cancelled
    or its thread abandoned. -/
def SweepPc.afterRecovery (r : Snapshot) (rest : List Snapshot) :
    RecoverPc → Shared × SweepPc
  | .ended .cancelled => SweepPc.stop s run
  | .ended _ => (s, .recover run rest)
  | .abandoned _ => (run.close s, .orphan r.key r.libraryPath)
  | pc => (s, .recovering run r pc rest)

def SweepPc.afterEviction (key : RowKey) (path : Path)
    (rest : Option (List Candidate)) (pool : List Candidate) : EvictPc → Shared × SweepPc
  | .ended .cancelled => SweepPc.stop s run
  | .ended _ => (s, .resume run rest pool)
  | .abandoned _ => (run.close s, .orphan key path)
  | pc => (s, .evicting run key path pc rest pool)

open SweepPc in
def sweepNext (c : Choice) (s : Shared) (a : SweepArgs) : SweepPc → Shared × SweepPc
  | .start =>
      if s.busy then (s, .ended)
      else
        let id := s.nextSweep
        let s := { s with busy := true, nextSweep := id + 1 }
        if a.proactive || a.correctionOnly then (s, .probe { id, lease := none })
        else
          let (lease, s) := s.acquirePressureExclusion id a.ownsPath
          (s, .probe { id, lease })
  | .probe run =>
      match c.turn with
      | .proceed => (s, .enumerate run a.enumerated [])
      | _ => stop s run
  | .enumerate run [] found => (s, .recover run found)
  | .enumerate run (status :: rest) found =>
      match c.turn.fate with
      | .goes => (s, .enumerate run rest (found ++ a.snapshots s.db status))
      | _ => stop s run
  | .recover run [] => if a.correctionOnly then stop s run else (s, .reprobe run)
  | .recover run (r :: rest) => (s, .recovering run r .begin rest)
  | .recovering run r pc rest =>
      afterRecovery (recoverNext c.turn s r pc).1 run r rest (recoverNext c.turn s r pc).2
  | .reprobe run =>
      -- A sweep for pressure stands down without a lease, or with one that was revoked.
      if !a.proactive && (run.lease.isNone || run.leaseDefeated s) then
        stop (run.record s).1 (run.record s).2
      else match c.turn with
        | .proceed => (s, .assemble run)
        | _ => stop s run
  | .assemble run =>
      match c.turn.fate with
      | .goes => (s, .rank run (a.available s.db))
      | _ => stop s run
  | .rank run found =>
      match c.turn.fate with
      | .goes =>
          let pick := fun keys : List RowKey =>
            keys.filterMap fun key => found.find? fun r => r.key = key
          if found.isEmpty then stop s run
          else (s, .selected run (pick c.selected) (if a.proactive then [] else pick c.extra))
      | _ => stop s run
  | .selected run [] pool => (s, .extra run pool)
  | .selected run (r :: rest) pool =>
      if run.leaseDefeated s then ((run.record s).1, .extra (run.record s).2 pool)
      else match c.turn with
        | .proceed => (s, attempt run r (some rest) pool)
        | .cancel _ => stop s run
        | _ => (s, .extra run pool)
  | .extra run [] => (s, .closing run)
  | .extra run (r :: rest) =>
      if run.leaseDefeated s then ((run.record s).1, .closing (run.record s).2)
      else match c.turn with
        | .proceed => (s, attempt run r none rest)
        | .cancel _ => stop s run
        | _ => (s, .closing run)
  | .evicting run key path pc rest pool =>
      afterEviction (evictNext c.turn s run.lease key path pc).1 run key path rest pool
        (evictNext c.turn s run.lease key path pc).2
  | .closing run =>
      if run.leaseDefeated s then stop (run.record s).1 (run.record s).2 else stop s run
  | .orphan key path =>
      -- The thread goes on alone, and its callback takes the registration back.
      match c.turn with
      | .removes => (if path ∈ s.trees then s.removeEntry path else s, .orphan key path)
      | .ends true => ((s.removeTree path).unregister path, .ended)
      | .ends false => (s.unregister path, .ended)
      | _ => (s, .orphan key path)
  | .ended => (s, .ended)

/-! ### Corrections -/

/-- `REPORTABLE_STATUS_VALUES`. -/
def reportableStatuses : List RequestStatus := [.completed, .available]

/-- `reset_for_research`, with the path kept and the marker armed over it. -/
def Db.reportIssue (key : RowKey) (path : Option Path) : Db :=
  db.modify key
    (fun r => { r with
      status := .searching
      evictionRegrab := false
      partialDeletePath := path.or r.partialDeletePath })
    fun _ => rfl

/-- What a correction writes after its purge. -/
def Db.settleReport (key : RowKey) : PurgeOutcome → Db
  | .partialDelete => db
  | .deleted => db.clearLibraryPath key
  | _ => db.disarmPartialDelete key

inductive CorrectPc where
  | check
  | claim (path : Option Path)
  | rearm (path : Option Path)
  | removeTorrent (path : Option Path)
  | purging (path : Path) (pc : PurgePc)
  | settle (path : Path) (outcome : PurgeOutcome)
  | release (path : Path)
  | orphan (path : Path)
  | ended

/-- The `finally` of `report_issue`. -/
def CorrectPc.exit : Option Path → Shared × CorrectPc
  | some path => (s.unregister path, .ended)
  | none => (s, .ended)

/-- Where a correction goes on from a step of its purge, which has no hook and
    does not hold its registration. -/
def CorrectPc.ofPurge (path : Path) : PurgeStep → Shared × CorrectPc
  | .at pc => (s, .purging path pc)
  | .hook => (s, .purging path (.deleting false false))
  | .outcome .deleted => (s.unregister path, .settle path .deleted)
  | .outcome o => (s, .settle path o)
  | .left _ => (s.unregister path, .ended)
  | .abandoned _ => (s.unregister path, .orphan path)

open CorrectPc in
def correctNext (t : Turn) (s : Shared) (key : RowKey) : CorrectPc → Shared × CorrectPc
  | .check =>
      match t, s.db.row key with
      | .proceed, some r =>
          (s, if r.status ∈ reportableStatuses then .claim r.libraryPath else .ended)
      | _, _ => (s, .ended)
  | .claim none => (s, .rearm none)
  | .claim (some path) =>
      if path ∈ s.purges ∨ t = .refuse then (s, .ended)
      else ((s.register path).revokePressureExclusions path, .rearm (some path))
  | .rearm path =>
      match t.fate with
      | .goes => ({ s with db := s.db.reportIssue key path }, .removeTorrent path)
      | _ => exit (s.transact t (s.db.reportIssue key path)) path
  | .removeTorrent path =>
      match t.fate, path with
      | .goes, some path => (s, .purging path .entering)
      | _, path => exit s path
  | .purging path pc => ofPurge (purgeNext t s path pc).1 path (purgeNext t s path pc).2
  | .settle path outcome =>
      match t.fate with
      | .goes => ({ s with db := s.db.settleReport key outcome }, .release path)
      | _ => exit (s.transact t (s.db.settleReport key outcome)) (some path)
  | .release path => exit s (some path)
  | .orphan path =>
      match t with
      | .removes => (if path ∈ s.trees then s.removeEntry path else s, .orphan path)
      | .ends true => ((s.removeTree path).unregister path, .ended)
      | .ends false => (s.unregister path, .ended)
      | _ => (s, .orphan path)
  | .ended => (s, .ended)

/-! ### Imports -/

inductive ImportPc where
  | entering
  | place
  | stamp
  | release
  | ended
  deriving DecidableEq, Repr

/-- The end of an import takes back its registration. -/
def ImportPc.exit (path : Path) : Shared × ImportPc :=
  ({ s with placements := s.placements.erase path }, .ended)

open ImportPc in
/-- An import from its `begin_placement` on. A movie registers the file, which
    conflicts with the directory that it stamps. -/
def importNext (t : Turn) (s : Shared) (key : RowKey) (path : Path) :
    ImportPc → Shared × ImportPc
  | .entering =>
      if path ∈ s.purges ∨ t = .refuse then (s, .ended)
      else ({ s with placements := path :: s.placements }, .place)
  | .place =>
      match t.fate with
      | .goes => ({ s with trees := path :: s.trees.filter (· ≠ path) }, .stamp)
      | _ => exit s path
  | .stamp =>
      let stamped := { s with
        db := s.db.stamp key path
        gutted := s.gutted.filter (· ≠ key) }
      match t.fate with
      | .goes => (stamped, .release)
      | _ => exit (if t.commits then stamped else s) path
  | .release => exit s path
  | .ended => (s, .ended)

/-! ### The others -/

/-- What else is committed. A pin and a watchlist entry come and go. A request
    creates a row, or arms one again that was evicted. A row is moved on to a
    status that is not of content that is there. The episode fallback completes
    a season, and Plex confirms what is completed. Downloads change in any way
    that keeps what their indexes and their grabs keep. -/
inductive Verb where
  | setKeepForever (mediaRequestId : Nat) (keepForever : Bool)
  | setWatchlisted (title : MediaType × Nat) (listed : Bool)
  | create (key : RowKey) (present evictionRegrab : Bool)
  | rearm (key : RowKey)
  | move (key : RowKey) (status : RequestStatus)
  | fallback (key : RowKey)
  | confirm (key : RowKey)
  | downloads (ds : Downloads)

def dueSearchStatuses : List RequestStatus := [.pending, .noAcceptableRelease, .searching]

def Verb.apply : Verb → Db
  | .setKeepForever id on =>
      { db with keepForever := db.keepForever.filter (· ≠ id) ++ if on then [id] else [] }
  | .setWatchlisted title on =>
      { db with watchlist := db.watchlist.filter (· ≠ title) ++ if on then [title] else [] }
  | .create key present evictionRegrab =>
      { db with
        rows := db.rows.insert
          { key, status := if present then .available else .pending, evictionRegrab } }
  | .rearm key => (db.setStatusIfIn key .pending [.evicted]).2
  | .move key status =>
      if status ∈ [RequestStatus.completed, .available, .evicted] then db
      else db.setStatus key status
  | .fallback key => (db.setStatusIfIn key .completed dueSearchStatuses).2
  | .confirm key => (db.setStatusIfIn key .available [.completed]).2
  | .downloads ds => { db with downloads := ds }

/-! ### The world -/

inductive Caller where
  | sweep (args : SweepArgs) (pc : SweepPc)
  | correction (key : RowKey) (pc : CorrectPc)
  | importer (key : RowKey) (path : Path) (pc : ImportPc)

def Caller.next (c : Choice) (s : Shared) : Caller → Shared × Caller
  | .sweep args pc => ((sweepNext c s args pc).1, .sweep args (sweepNext c s args pc).2)
  | .correction key pc =>
      ((correctNext c.turn s key pc).1, .correction key (correctNext c.turn s key pc).2)
  | .importer key path pc =>
      ((importNext c.turn s key path pc).1, .importer key path (importNext c.turn s key path pc).2)

abbrev World := Interleaving.World Shared Caller

def Shared.boot (trees : List Path) (gutted : List RowKey) (nextSweep : Nat) : Shared :=
  { db, trees, gutted, purges := [], placements := [], leases := [], busy := false, nextSweep
    stoodDown := [] }

def World.idle (trees : List Path) : World := ⟨.boot db trees [] 0, []⟩

inductive Action where
  | sweep (args : SweepArgs)
  | report (key : RowKey)
  | importInto (key : RowKey) (path : Path)
  | act (i : Nat) (c : Choice)
  | other (v : Verb)
  /-- Somebody else deletes a tree. -/
  | vanish (path : Path)
  | crash

def step (w : World) : Action → Option World
  | .sweep args => some (w.spawn (.sweep args .start))
  | .report key => some (w.spawn (.correction key .check))
  | .importInto key path => some (w.spawn (.importer key path .entering))
  | .act i c => w.act Caller.next i c
  | .other v => some { w with shared := { w.shared with db := v.apply w.shared.db } }
  | .vanish path =>
      some { w with shared := { w.shared with trees := w.shared.trees.filter (· ≠ path) } }
  | .crash =>
      some ⟨.boot w.shared.db w.shared.trees w.shared.gutted w.shared.nextSweep, []⟩

end Eviction

end PlexManager
