import PlexManager.Core.Eviction.Sweep

/-!
# What the steps of a sweep do

Every step of a purge, an eviction, a recovery, a correction or an import does
one of a few things to what is shared. Here each machine is read once, and what
it may do is a list of cases, with what it has seen where that matters later.
Everything else about these machines is proved from the lists.

## Main definitions

* `PurgeEffect`, `EvictEffect`, `RecoverEffect`: The steps of a delete.
* `CorrectEffect`, `ImportEffect`, `OrphanEffect`: The steps of the others.
* `SweepPc.run?`, `SweepPc.retaining`: A sweep under way, and one that evicts.
* `SweepMove`: The steps of a sweep outside of its calls.
* `SweepEffect`: The steps of a sweep, around those of its calls.
* `RunEffect`: What a step of a sweep does to leases and reports.
-/

namespace PlexManager

namespace Eviction

/-! ### Writes to what is shared -/

theorem Shared.transact_eq (s : Shared) (t : Turn) (db : Db) :
    s.transact t db = { s with db := if t.commits then db else s.db } := by
  unfold Shared.transact
  split <;> rfl

theorem Shared.removeTree_eq (s : Shared) (path : Path) :
    s.removeTree path = { s with
      trees := s.trees.filter (· ≠ path)
      gutted := if path ∈ s.trees then s.named path ++ s.gutted else s.gutted } := by
  unfold Shared.removeTree
  split
  · rfl
  rename_i habs
  have hsame : s.trees.filter (· ≠ path) = s.trees := by
    refine List.filter_eq_self.mpr fun p hp => ?_
    have hne : p ≠ path := fun heq => habs (heq ▸ hp)
    simpa using hne
  rw [hsame]

/-! ### Purges -/

inductive PurgeEffect (s : Shared) (path : Path) : PurgePc → Shared → PurgeStep → Prop
  | deferred : PurgeEffect s path .entering s (.outcome .deferred)
  | entered (h : path ∉ s.placements) :
      PurgeEffect s path .entering (s.register path) (.at .guard)
  | refused : PurgeEffect s path .guard (s.unregister path) (.outcome .refused)
  | guarded : PurgeEffect s path .guard s (.at .reclaim)
  | measured : PurgeEffect s path .reclaim s (.at .gate)
  | admitted : PurgeEffect s path .gate s .hook
  | cut (pc : PurgePc) (fate : Fate) (h : pc = .guard ∨ pc = .reclaim ∨ pc = .gate) :
      PurgeEffect s path pc (s.unregister path) (.left fate)
  | removed (r c : Bool) (h : path ∈ s.trees) :
      PurgeEffect s path (.deleting r c) (s.removeEntry path) (.at (.deleting true c))
  | waited (r c c' : Bool) : PurgeEffect s path (.deleting r c) s (.at (.deleting r c'))
  | abandoned (r c : Bool) : PurgeEffect s path (.deleting r c) s (.abandoned r)
  | deleted (r : Bool) :
      PurgeEffect s path (.deleting r false) (s.removeTree path) (.outcome .deleted)
  | deletedCancelled (r : Bool) :
      PurgeEffect s path (.deleting r true) ((s.removeTree path).unregister path)
        (.left .cancelled)
  | failed (r : Bool) :
      PurgeEffect s path (.deleting r false) (s.unregister path)
        (.outcome (if r then .partialDelete else .error))
  | failedCancelled (r : Bool) :
      PurgeEffect s path (.deleting r true) (s.unregister path) (.left .cancelled)

variable (t : Turn)

theorem purgeNext_effect (s : Shared) (path : Path) (pc : PurgePc) :
    PurgeEffect s path pc (purgeNext t s path pc).1 (purgeNext t s path pc).2 := by
  cases pc with
  | entering =>
    simp only [purgeNext]
    split
    · exact .deferred
    · rename_i h
      exact .entered fun hp => h (.inl hp)
  | guard =>
    cases t with
    | refuse => exact .refused
    | raise c | cancel c => exact .cut _ _ (.inl rfl)
    | _ => exact .guarded
  | reclaim =>
    cases t with
    | raise c | cancel c => exact .cut _ _ (.inr (.inl rfl))
    | _ => exact .measured
  | gate =>
    cases t with
    | raise c | cancel c => exact .cut _ _ (.inr (.inr rfl))
    | _ => exact .admitted
  | deleting r c =>
    cases t with
    | removes =>
      simp only [purgeNext]
      split
      · rename_i h
        exact .removed r c h
      · exact .waited r c c
    | cancel committed => exact .waited r c true
    | abandon => exact .abandoned r c
    | ends success =>
      cases success with
      | true =>
        cases c with
        | true => exact .deletedCancelled r
        | false => exact .deleted r
      | false =>
        cases c with
        | true => exact .failedCancelled r
        | false =>
          cases r with
          | true => exact .failed true
          | false => exact .failed false
    | _ => exact .waited r c c

variable {s s' : Shared} {path : Path} {key : RowKey} {pc : SweepPc} {run : SweepRun}

theorem PurgeEffect.gate_of_hook {pc : PurgePc}
    (h : PurgeEffect s path pc s' .hook) : pc = .gate ∧ s' = s := by
  cases h
  exact ⟨rfl, rfl⟩

/-- A thread that deletes without a call that waits for it. -/
inductive OrphanEffect (s : Shared) (path : Path) : Shared → Bool → Prop
  | removed (h : path ∈ s.trees) : OrphanEffect s path (s.removeEntry path) true
  | waited : OrphanEffect s path s true
  | deleted : OrphanEffect s path ((s.removeTree path).unregister path) false
  | failed : OrphanEffect s path (s.unregister path) false

/-! ### Evictions -/

/-- Nothing is registered yet. -/
def EvictPc.reading : EvictPc → Bool
  | .filter _ | .watchState | .claim | .twins _ _ | .coverage => true
  | _ => false

inductive EvictEffect (s : Shared) (lease : Option Nat) (key : RowKey) (path : Path) :
    EvictPc → Shared → EvictPc → Prop
  | cut (pc : EvictPc) (fate : Fate) (h : pc.reading = true) :
      EvictEffect s lease key path pc s (.ended fate)
  | filtered : EvictEffect s lease key path (.filter []) s .watchState
  | passed (check : Check) (rest : List Check) :
      EvictEffect s lease key path (.filter (check :: rest)) s (.filter rest)
  | watched : EvictEffect s lease key path .watchState s .claim
  | claimed (db : Db) (h : s.db.claimForEviction key = (true, db)) :
      EvictEffect s lease key path .claim { s with db } (.twins key.mediaType false)
  | claimLost (t : Turn) (db : Db) (h : s.db.claimForEviction key = (true, db)) (fate : Fate) :
      EvictEffect s lease key path .claim (s.transact t db) (.ended fate)
  | twin (m : MediaType) (last : Bool) :
      EvictEffect s lease key path (.twins m last) s .restore
  | noTwin (m : MediaType) (h : s.db.claimsPath m path key = false) :
      EvictEffect s lease key path (.twins m false) s (.twins m.other true)
  | noTwins (m : MediaType) (h : s.db.claimsPath m path key = false) :
      EvictEffect s lease key path (.twins m true) s .coverage
  | covered : EvictEffect s lease key path .coverage s .restore
  | uncovered (h : s.db.coverageClaimActive key = false) :
      EvictEffect s lease key path .coverage s (.purging .entering)
  | purged (pc : PurgePc) (s' : Shared) (st : PurgeStep) (h : PurgeEffect s path pc s' st)
      (hlease : st = .hook → s.revoked lease = false) :
      EvictEffect s lease key path (.purging pc) s' (EvictPc.ofPurge st)
  | defeated (h : s.revoked lease = true) :
      EvictEffect s lease key path (.purging .gate) (s.unregister path) .restore
  | armed :
      EvictEffect s lease key path .arm { s with db := s.db.armPartialDelete key path }
        (.armed (s.db.armPartialDelete key path))
  | armLost (t : Turn) (fate : Fate) :
      EvictEffect s lease key path .arm
        ((s.transact t (s.db.armPartialDelete key path)).unregister path) (.ended fate)
  | stood (rows : Db) : EvictEffect s lease key path (.armed rows) s (.armed rows)
  | armedCut (rows : Db) :
      EvictEffect s lease key path (.armed rows) (s.unregister path) (.ended .cancelled)
  | armedDefeated (rows : Db) (h : s.revoked lease = true) :
      EvictEffect s lease key path (.armed rows) (s.unregister path) .restore
  | unstarted (rows : Db) :
      EvictEffect s lease key path (.armed rows) (s.unregister path) .disarmUnstarted
  | started (rows : Db) (h : s.revoked lease = false) :
      EvictEffect s lease key path (.armed rows) s (.purging (.deleting false false))
  | restored (t : Turn) (fate : Fate) :
      EvictEffect s lease key path .restore (s.transact t (s.db.restoreAfterFailedDelete key))
        (.ended fate)
  | disarmed (t : Turn) (fate : Fate) :
      EvictEffect s lease key path .disarm (s.transact t (s.db.disarmPartialDelete key))
        (.ended fate)
  | unstartedDisarmed (t : Turn) (fate : Fate) :
      EvictEffect s lease key path .disarmUnstarted
        (s.transact t (s.db.disarmPartialDelete key)) (.ended fate)
  | finalized :
      EvictEffect s lease key path .finalize { s with db := s.db.finalizeEvicted key path }
        .release
  | finalizeLost (t : Turn) (fate : Fate) :
      EvictEffect s lease key path .finalize
        ((s.transact t (s.db.finalizeEvicted key path)).unregister path) (.ended fate)
  | released (fate : Fate) :
      EvictEffect s lease key path .release (s.unregister path) (.ended fate)
  | abandoned (r : Bool) : EvictEffect s lease key path (.abandoned r) s (.abandoned r)
  | ended (fate : Fate) : EvictEffect s lease key path (.ended fate) s (.ended fate)

theorem evictNext_effect (s : Shared) (lease : Option Nat) (key : RowKey) (path : Path)
    (pc : EvictPc) :
    EvictEffect s lease key path pc (evictNext t s lease key path pc).1
      (evictNext t s lease key path pc).2 := by
  cases pc with
  | filter rest =>
    cases rest with
    | nil => exact .filtered
    | cons check rest =>
      simp only [evictNext]
      split
      · dsimp only
        split
        · exact .passed check rest
        · exact .cut _ _ rfl
      · exact .cut _ _ rfl
  | watchState =>
    simp only [evictNext]
    split
    · exact .watched
    · exact .cut _ _ rfl
    · exact .cut _ _ rfl
  | claim =>
    simp only [evictNext]
    split
    · rename_i db hcl
      cases t with
      | raise c | cancel c => exact .claimLost _ db hcl _
      | _ => exact .claimed db hcl
    · exact .cut _ _ rfl
  | twins m last =>
    simp only [evictNext]
    split
    · split
      · exact .twin m last
      rename_i hnone
      have hfalse : s.db.claimsPath m path key = false := by simpa using hnone
      cases last with
      | true => exact .noTwins m hfalse
      | false => exact .noTwin m hfalse
    · exact .cut _ _ rfl
  | coverage =>
    simp only [evictNext]
    split
    · dsimp only
      split
      · exact .covered
      · rename_i hnone
        exact .uncovered (by simpa using hnone)
    · exact .cut _ _ rfl
  | purging pc =>
    simp only [evictNext]
    split
    · rename_i hdefeat
      -- The hook looks at the lease, and only the gate asks it.
      have hgate : pc = .gate := by
        have heff := purgeNext_effect t s path pc
        rw [hdefeat.1] at heff
        exact heff.gate_of_hook.1
      subst hgate
      exact .defeated hdefeat.2
    · rename_i hlive
      refine .purged pc _ _ (purgeNext_effect t s path pc) fun hhook => ?_
      cases hrev : s.revoked lease with
      | false => rfl
      | true => exact absurd ⟨hhook, hrev⟩ hlive
  | arm =>
    cases t with
    | raise c | cancel c => exact .armLost _ _
    | _ => exact .armed
  | armed rows =>
    simp only [evictNext]
    split
    · exact .armedCut rows
    split
    · rename_i hrev
      -- The last look at the lease comes behind the marker.
      exact .armedDefeated rows hrev
    rename_i hlive
    split
    · exact .unstarted rows
    · exact .started rows (by simpa using hlive)
    · exact .stood rows
  | restore =>
    simp only [evictNext, EvictPc.commit]
    split
    · exact .restored t _
    · exact .restored t _
  | disarm =>
    simp only [evictNext, EvictPc.commit]
    split
    · exact .disarmed t _
    · exact .disarmed t _
  | disarmUnstarted =>
    simp only [evictNext, EvictPc.commit]
    split
    · exact .unstartedDisarmed t _
    · exact .unstartedDisarmed t _
  | finalize =>
    cases t with
    | raise c | cancel c => exact .finalizeLost _ _
    | _ => exact .finalized
  | release => exact .released _
  | abandoned r => exact .abandoned r
  | ended fate => exact .ended fate

/-! ### Recoveries -/

/-- Only the registration of the recovery itself is held, and nothing is
    written. -/
def RecoverPc.reading : RecoverPc → Bool
  | .stillArmed | .removeTorrent | .stat | .twins _ _ | .blocked _ | .stillArmedAgain => true
  | _ => false

/-- The shared state where a recovery ends at its finalize, which may hold the
    registration of its purge as well. -/
def Shared.unregisterHeld (s : Shared) (path : Path) (held : Bool) : Shared :=
  (if held then s.unregister path else s).unregister path

inductive RecoverEffect (s : Shared) (r : Snapshot) : RecoverPc → Shared → RecoverPc → Prop
  | busy : RecoverEffect s r .begin s (.ended .goes)
  | began (h : r.libraryPath ∉ s.purges) :
      RecoverEffect s r .begin (s.register r.libraryPath)
        (if r.correction then .stillArmed else .stat)
  | cut (pc : RecoverPc) (fate : Fate) (h : pc.reading = true) :
      RecoverEffect s r pc (s.unregister r.libraryPath) (.ended fate)
  | armed : RecoverEffect s r .stillArmed s .removeTorrent
  | torrentRemoved : RecoverEffect s r .removeTorrent s .stat
  | there (h : r.libraryPath ∈ s.trees) :
      RecoverEffect s r .stat s (.twins r.key.mediaType false)
  | gone (h : r.libraryPath ∉ s.trees) : RecoverEffect s r .stat s (.finalize false)
  | twin (m : MediaType) (last : Bool) (h : s.db.claimsPath m r.libraryPath r.key = true) :
      RecoverEffect s r (.twins m last) s .releaseBreadcrumb
  | noTwin (m : MediaType) : RecoverEffect s r (.twins m false) s (.twins m.other true)
  | noTwins (m : MediaType) :
      RecoverEffect s r (.twins m true) s (RecoverPc.adjudicate r)
  | breadcrumbReleased (t : Turn) (fate : Fate) :
      RecoverEffect s r .releaseBreadcrumb
        ((s.transact t (s.db.clearLibraryPathIfSet r.key r.libraryPath
          (if r.rearmed then rearmedOrBlockedStatuses else staleBreadcrumbClearStatuses)).2
          ).unregister r.libraryPath) (.ended fate)
  | allowed : RecoverEffect s r (.blocked []) s
      (if r.rearmed then .stillArmedAgain else .purging .entering)
  | passed (check : Check) (rest : List Check) :
      RecoverEffect s r (.blocked (check :: rest)) s (.blocked rest)
  | armedAgain : RecoverEffect s r .stillArmedAgain s (.purging .entering)
  | purged (pc : PurgePc) (s' : Shared) (st : PurgeStep)
      (h : PurgeEffect s r.libraryPath pc s' st) :
      RecoverEffect s r (.purging pc) (RecoverPc.ofPurge s' r.libraryPath st).1
        (RecoverPc.ofPurge s' r.libraryPath st).2
  | confirmed (h : s.db.recoveryDeleteBoundary r.key r.libraryPath r.correction = true) :
      RecoverEffect s r .boundary s (.confirmed s.db)
  | unconfirmed (fate : Fate) :
      RecoverEffect s r .boundary (s.unregisterHeld r.libraryPath true) (.ended fate)
  | stood (rows : Db) : RecoverEffect s r (.confirmed rows) s (.confirmed rows)
  | unstarted (rows : Db) (fate : Fate) :
      RecoverEffect s r (.confirmed rows) (s.unregisterHeld r.libraryPath true) (.ended fate)
  | started (rows : Db) :
      RecoverEffect s r (.confirmed rows) s (.purging (.deleting false false))
  | restored (t : Turn) (fate : Fate) :
      RecoverEffect s r .restore
        ((s.transact t (s.db.restoreAfterFailedDelete r.key)).unregister r.libraryPath)
        (.ended fate)
  | folded (t : Turn) (fate : Fate) :
      RecoverEffect s r .fold
        ((s.transact t (s.db.setStatusIfIn r.key .available [r.status]).2).unregister
          r.libraryPath) (.ended fate)
  | unfinalized (held : Bool) (h : s.db.finalizeResumed r.key r.libraryPath = none) :
      RecoverEffect s r (.finalize held) s (.release held)
  | finalized (held : Bool) (db : Db)
      (h : s.db.finalizeResumed r.key r.libraryPath = some db) :
      RecoverEffect s r (.finalize held) { s with db } (.release held)
  | finalizeLost (held : Bool) (t : Turn) (db : Db) (fate : Fate)
      (h : s.db.finalizeResumed r.key r.libraryPath = some db) :
      RecoverEffect s r (.finalize held) ((s.transact t db).unregisterHeld r.libraryPath held)
        (.ended fate)
  | released (held : Bool) (fate : Fate) :
      RecoverEffect s r (.release held) (s.unregisterHeld r.libraryPath held) (.ended fate)
  | abandoned (removed : Bool) : RecoverEffect s r (.abandoned removed) s (.abandoned removed)
  | ended (fate : Fate) : RecoverEffect s r (.ended fate) s (.ended fate)

theorem recoverNext_effect (s : Shared) (r : Snapshot) (pc : RecoverPc) :
    RecoverEffect s r pc (recoverNext t s r pc).1 (recoverNext t s r pc).2 := by
  cases pc with
  | begin =>
    simp only [recoverNext]
    split
    · exact .busy
    · rename_i h
      exact .began fun hp => h (.inl hp)
  | stillArmed =>
    simp only [recoverNext]
    split
    · split
      · exact .armed
      · exact .cut _ _ rfl
    · exact .cut _ _ rfl
  | removeTorrent =>
    simp only [recoverNext]
    split
    · exact .torrentRemoved
    · exact .cut _ _ rfl
  | stat =>
    simp only [recoverNext]
    split
    · dsimp only
      split
      · rename_i h
        exact .there h
      · rename_i h
        exact .gone h
    · exact .cut _ _ rfl
  | twins m last =>
    simp only [recoverNext]
    split
    · split
      · rename_i h
        exact .twin m last h
      · cases last with
        | true => exact .noTwins m
        | false => exact .noTwin m
    · exact .cut _ _ rfl
  | releaseBreadcrumb => exact .breadcrumbReleased t _
  | blocked rest =>
    cases rest with
    | nil => exact .allowed
    | cons check rest =>
      simp only [recoverNext]
      split
      · split
        · exact .passed check rest
        · exact .cut _ _ rfl
      · exact .cut _ _ rfl
  | stillArmedAgain =>
    simp only [recoverNext]
    split
    · split
      · exact .armedAgain
      · exact .cut _ _ rfl
    · exact .cut _ _ rfl
  | purging pc => exact .purged pc _ _ (purgeNext_effect t s r.libraryPath pc)
  | boundary =>
    simp only [recoverNext]
    split
    · split
      · rename_i h
        exact .confirmed h
      · exact .unconfirmed _
    · exact .unconfirmed _
  | confirmed rows =>
    simp only [recoverNext]
    split
    · exact .started rows
    · exact .unstarted rows _
    · exact .unstarted rows _
    · exact .stood rows
  | restore => exact .restored t _
  | fold => exact .folded t _
  | finalize held =>
    simp only [recoverNext]
    split
    · rename_i h
      exact .unfinalized held h
    · rename_i db h
      cases t with
      | raise c | cancel c => exact .finalizeLost held _ db _ h
      | _ => exact .finalized held db h
  | release held => exact .released held _
  | abandoned removed => exact .abandoned removed
  | ended fate => exact .ended fate

/-! ### Corrections and imports -/

inductive CorrectEffect (s : Shared) (key : RowKey) : CorrectPc → Shared → CorrectPc → Prop
  | cut (pc : CorrectPc) (h : pc = .check ∨ (∃ path, pc = .claim path) ∨ pc = .removeTorrent none) :
      CorrectEffect s key pc s .ended
  | looked (r : Row) (h : s.db.row key = some r) (hstatus : r.status ∈ reportableStatuses) :
      CorrectEffect s key .check s (.claim r.libraryPath)
  | nothing : CorrectEffect s key (.claim none) s (.rearm none)
  | claimed (path : Path) (h : path ∉ s.purges) :
      CorrectEffect s key (.claim (some path))
        ((s.register path).revokePressureExclusions path) (.rearm (some path))
  | rearmed (path : Option Path) :
      CorrectEffect s key (.rearm path) { s with db := s.db.reportIssue key path }
        (.removeTorrent path)
  | rearmLost (path : Option Path) (t : Turn) :
      CorrectEffect s key (.rearm path)
        (CorrectPc.exit (s.transact t (s.db.reportIssue key path)) path).1 .ended
  | torrentRemoved (path : Path) :
      CorrectEffect s key (.removeTorrent (some path)) s (.purging path .entering)
  | torrentKept (path : Path) :
      CorrectEffect s key (.removeTorrent (some path)) (s.unregister path) .ended
  | purged (path : Path) (pc : PurgePc) (s' : Shared) (st : PurgeStep)
      (h : PurgeEffect s path pc s' st) :
      CorrectEffect s key (.purging path pc) (CorrectPc.ofPurge s' path st).1
        (CorrectPc.ofPurge s' path st).2
  | settled (path : Path) (o : PurgeOutcome) :
      CorrectEffect s key (.settle path o) { s with db := s.db.settleReport key o }
        (.release path)
  | settleLost (path : Path) (o : PurgeOutcome) (t : Turn) :
      CorrectEffect s key (.settle path o)
        ((s.transact t (s.db.settleReport key o)).unregister path) .ended
  | released (path : Path) : CorrectEffect s key (.release path) (s.unregister path) .ended
  | orphaned (path : Path) (s' : Shared) (alive : Bool) (h : OrphanEffect s path s' alive) :
      CorrectEffect s key (.orphan path) s' (if alive then .orphan path else .ended)
  | ended : CorrectEffect s key .ended s .ended

theorem correctNext_effect (s : Shared) (key : RowKey) (pc : CorrectPc) :
    CorrectEffect s key pc (correctNext t s key pc).1 (correctNext t s key pc).2 := by
  cases pc with
  | check =>
    simp only [correctNext]
    split
    · rename_i r hr
      split
      · rename_i hst
        exact .looked r hr hst
      · exact .cut _ (.inl rfl)
    · exact .cut _ (.inl rfl)
  | claim path =>
    cases path with
    | none => exact .nothing
    | some path =>
      simp only [correctNext]
      split
      · exact .cut _ (.inr (.inl ⟨_, rfl⟩))
      · rename_i h
        exact .claimed path fun hp => h (.inl hp)
  | rearm path =>
    cases t with
    | raise c | cancel c => cases path <;> exact .rearmLost _ _
    | _ => exact .rearmed path
  | removeTorrent path =>
    cases path with
    | none =>
      simp only [correctNext]
      split
      · rename_i hpath
        simp at hpath
      · exact .cut _ (.inr (.inr rfl))
    | some path =>
      cases t with
      | raise c | cancel c => exact .torrentKept path
      | _ => exact .torrentRemoved path
  | purging path pc => exact .purged path pc _ _ (purgeNext_effect t s path pc)
  | settle path o =>
    cases t with
    | raise c | cancel c => exact .settleLost path o _
    | _ => exact .settled path o
  | release path => exact .released path
  | orphan path =>
    simp only [correctNext]
    split
    · dsimp only
      split
      · rename_i h
        exact .orphaned path _ true (.removed h)
      · exact .orphaned path _ true .waited
    · exact .orphaned path _ false .deleted
    · exact .orphaned path _ false .failed
    · exact .orphaned path _ true .waited
  | ended => exact .ended

inductive ImportEffect (s : Shared) (key : RowKey) (path : Path) :
    ImportPc → Shared → ImportPc → Prop
  | busy : ImportEffect s key path .entering s .ended
  | entered (h : path ∉ s.purges) :
      ImportEffect s key path .entering { s with placements := path :: s.placements } .place
  | placed :
      ImportEffect s key path .place
        { s with trees := path :: s.trees.filter (· ≠ path) } .stamp
  | cut (pc : ImportPc) (h : pc = .place ∨ pc = .stamp ∨ pc = .release) :
      ImportEffect s key path pc { s with placements := s.placements.erase path } .ended
  | stamped :
      ImportEffect s key path .stamp
        { s with
          db := s.db.stamp key path
          gutted := s.gutted.filter (· ≠ key) } .release
  | stampLost :
      ImportEffect s key path .stamp
        { s with
          db := s.db.stamp key path
          gutted := s.gutted.filter (· ≠ key)
          placements := s.placements.erase path } .ended
  | ended : ImportEffect s key path .ended s .ended

theorem importNext_effect (s : Shared) (key : RowKey) (path : Path) (pc : ImportPc) :
    ImportEffect s key path pc (importNext t s key path pc).1 (importNext t s key path pc).2 := by
  cases pc with
  | entering =>
    simp only [importNext]
    split
    · exact .busy
    · rename_i h
      exact .entered fun hp => h (.inl hp)
  | place =>
    cases t with
    | raise c | cancel c => exact .cut _ (.inl rfl)
    | _ => exact .placed
  | stamp =>
    cases t with
    | raise c | cancel c =>
      cases c with
      | true => exact .stampLost
      | false => exact .cut _ (.inr (.inl rfl))
    | _ => exact .stamped
  | release => exact .cut _ (.inr (.inr rfl))
  | ended => exact .ended

/-! ### What they leave alone -/

theorem PurgeEffect.frame {pc : PurgePc} {st : PurgeStep} (h : PurgeEffect s path pc s' st) :
    s' = { s with trees := s'.trees, gutted := s'.gutted, purges := s'.purges } := by
  cases h with
  | deleted => rw [Shared.removeTree_eq]
  | deletedCancelled => rw [Shared.removeTree_eq]; rfl
  | _ => rfl

theorem OrphanEffect.frame {alive : Bool} (h : OrphanEffect s path s' alive) :
    s' = { s with trees := s'.trees, gutted := s'.gutted, purges := s'.purges } := by
  cases h with
  | deleted => rw [Shared.removeTree_eq]; rfl
  | _ => rfl

theorem EvictEffect.frame {lease : Option Nat} {pc pc' : EvictPc}
    (h : EvictEffect s lease key path pc s' pc') :
    s' = { s with
      db := s'.db
      trees := s'.trees
      gutted := s'.gutted
      purges := s'.purges } := by
  cases h with
  | purged pc s' st hpurge => rw [hpurge.frame]
  | claimLost t | restored t | disarmed t | unstartedDisarmed t => rw [Shared.transact_eq]
  | armLost t | finalizeLost t => rw [Shared.transact_eq]; rfl
  | _ => rfl

theorem Shared.unregisterHeld_eq (s : Shared) (path : Path) (held : Bool) :
    s.unregisterHeld path held =
      { s with purges := (if held then s.purges.erase path else s.purges).erase path } := by
  cases held <;> rfl

theorem RecoverPc.ofPurge_eq (s : Shared) (path : Path) (st : PurgeStep) :
    (ofPurge s path st).1 = { s with purges := (ofPurge s path st).1.purges } := by
  cases st with
  | outcome o => cases o <;> rfl
  | _ => rfl

theorem CorrectPc.ofPurge_eq (s : Shared) (path : Path) (st : PurgeStep) :
    (ofPurge s path st).1 = { s with purges := (ofPurge s path st).1.purges } := by
  cases st with
  | outcome o => cases o <;> rfl
  | _ => rfl

theorem RecoverEffect.frame {r : Snapshot} {pc pc' : RecoverPc} (h : RecoverEffect s r pc s' pc') :
    s' = { s with
      db := s'.db
      trees := s'.trees
      gutted := s'.gutted
      purges := s'.purges } := by
  cases h with
  | purged pc s' st hpurge => rw [RecoverPc.ofPurge_eq, hpurge.frame]
  | breadcrumbReleased t | restored t | folded t => rw [Shared.transact_eq]; rfl
  | unconfirmed | unstarted | released => rw [Shared.unregisterHeld_eq]
  | finalizeLost held t => rw [Shared.unregisterHeld_eq, Shared.transact_eq]
  | _ => rfl

theorem CorrectEffect.frame {pc pc' : CorrectPc} (h : CorrectEffect s key pc s' pc') :
    s' = { s with
      db := s'.db
      trees := s'.trees
      gutted := s'.gutted
      purges := s'.purges
      leases := s'.leases } := by
  cases h with
  | rearmLost path t => rw [Shared.transact_eq]; cases path <;> rfl
  | purged path pc s' st hpurge => rw [CorrectPc.ofPurge_eq, hpurge.frame]
  | settleLost path o t => rw [Shared.transact_eq]; rfl
  | orphaned path s' alive horph => rw [horph.frame]
  | _ => rfl

theorem ImportEffect.frame {pc pc' : ImportPc} (h : ImportEffect s key path pc s' pc') :
    s' = { s with
      db := s'.db
      trees := s'.trees
      gutted := s'.gutted
      placements := s'.placements } := by
  cases h <;> rfl

/-! ### Sweeps -/

/-- The rows, the library and the registered paths are as they were. -/
structure Shared.Kept (s s' : Shared) : Prop where
  db : s'.db = s.db
  trees : s'.trees = s.trees
  gutted : s'.gutted = s.gutted
  purges : s'.purges = s.purges
  placements : s'.placements = s.placements

theorem Shared.Kept.refl (s : Shared) : s.Kept s := ⟨rfl, rfl, rfl, rfl, rfl⟩

/-- A call that the sweep waits for, or a thread that it has left behind. -/
def SweepPc.inside : SweepPc → Bool
  | .recovering _ _ _ _ | .evicting _ _ _ _ _ _ | .orphan _ _ => true
  | _ => false

inductive SweepPc.Fresh : SweepPc → Prop
  | outside (pc : SweepPc) (h : pc.inside = false) : SweepPc.Fresh pc
  | recovering (run : SweepRun) (r : Snapshot) (rest : List Snapshot) :
      SweepPc.Fresh (.recovering run r .begin rest)
  | evicting (run : SweepRun) (key : RowKey) (path : Path) (rest : Option (List Candidate))
      (pool : List Candidate) :
      SweepPc.Fresh (.evicting run key path (.filter stillEvictable) rest pool)

inductive SweepEffect (s : Shared) : SweepPc → Shared → SweepPc → Prop
  | outside (pc : SweepPc) (s' : Shared) (pc' : SweepPc) (h : s.Kept s') (hpc : pc.inside = false)
      (hpc' : pc'.Fresh) : SweepEffect s pc s' pc'
  | recovering (run : SweepRun) (r : Snapshot) (rest : List Snapshot) (pc : RecoverPc)
      (s' : Shared) (pc' : RecoverPc) (h : RecoverEffect s r pc s' pc') :
      SweepEffect s (.recovering run r pc rest) (SweepPc.afterRecovery s' run r rest pc').1
        (SweepPc.afterRecovery s' run r rest pc').2
  | evicting (run : SweepRun) (key : RowKey) (path : Path) (rest : Option (List Candidate))
      (pool : List Candidate) (pc : EvictPc) (s' : Shared) (pc' : EvictPc)
      (h : EvictEffect s run.lease key path pc s' pc') :
      SweepEffect s (.evicting run key path pc rest pool)
        (SweepPc.afterEviction s' run key path rest pool pc').1
        (SweepPc.afterEviction s' run key path rest pool pc').2
  | orphaned (key : RowKey) (path : Path) (s' : Shared) (alive : Bool)
      (h : OrphanEffect s path s' alive) :
      SweepEffect s (.orphan key path) s' (if alive then .orphan key path else .ended)

theorem SweepRun.kept_close (run : SweepRun) (s : Shared) : s.Kept (run.close s) :=
  ⟨rfl, rfl, rfl, rfl, rfl⟩

theorem SweepRun.kept_record (run : SweepRun) (s : Shared) : s.Kept (run.record s).1 := by
  unfold SweepRun.record
  split
  · exact Shared.Kept.refl s
  · exact ⟨rfl, rfl, rfl, rfl, rfl⟩

theorem Shared.kept_acquire (s : Shared) (id : Nat) (ownsPath : Path → Bool) :
    s.Kept (s.acquirePressureExclusion id ownsPath).2 := by
  unfold Shared.acquirePressureExclusion
  split
  · exact Shared.Kept.refl s
  · exact ⟨rfl, rfl, rfl, rfl, rfl⟩

theorem Shared.Kept.trans {s'' : Shared} (h : s.Kept s') (h' : s'.Kept s'') : s.Kept s'' :=
  ⟨h'.db.trans h.db, h'.trees.trans h.trees, h'.gutted.trans h.gutted, h'.purges.trans h.purges,
    h'.placements.trans h.placements⟩

theorem SweepPc.fresh_resume (run : SweepRun) (rest : Option (List Candidate))
    (pool : List Candidate) : (SweepPc.resume run rest pool).inside = false := by
  cases rest <;> rfl

theorem SweepPc.fresh_attempt (run : SweepRun) (c : Candidate) (rest : Option (List Candidate))
    (pool : List Candidate) : (SweepPc.attempt run c rest pool).Fresh := by
  unfold SweepPc.attempt
  split
  · exact .evicting run _ _ rest pool
  · exact .outside _ (SweepPc.fresh_resume run rest pool)

def SweepPc.snapshots : SweepPc → List Snapshot
  | .enumerate _ _ found => found
  | .recover _ rest => rest
  | .recovering _ r _ rest => r :: rest
  | _ => []

theorem SweepPc.snapshots_resume (run : SweepRun) (rest : Option (List Candidate))
    (pool : List Candidate) : (SweepPc.resume run rest pool).snapshots = [] := by
  cases rest <;> rfl

theorem SweepPc.snapshots_attempt (run : SweepRun) (c : Candidate) (rest : Option (List Candidate))
    (pool : List Candidate) : (SweepPc.attempt run c rest pool).snapshots = [] := by
  unfold SweepPc.attempt
  split
  · rfl
  · exact SweepPc.snapshots_resume run rest pool

def SweepArgs.pressure (a : SweepArgs) : Bool := !a.proactive && !a.correctionOnly

def SweepPc.run? : SweepPc → Option SweepRun
  | .probe run | .enumerate run _ _ | .recover run _ | .recovering run _ _ _ | .reprobe run
  | .assemble run | .rank run _ | .selected run _ _ | .extra run _ | .evicting run _ _ _ _ _
  | .closing run => some run
  | .start | .orphan _ _ | .ended => none

/-- A sweep that has not stood down for its lease before it chooses. -/
def SweepPc.retaining : SweepPc → Bool
  | .assemble _ | .rank _ _ | .selected _ _ _ | .extra _ _ | .evicting _ _ _ _ _ _
  | .closing _ => true
  | _ => false

theorem SweepPc.run_resume (run : SweepRun) (rest : Option (List Candidate))
    (pool : List Candidate) : (SweepPc.resume run rest pool).run? = some run := by
  cases rest <;> rfl

theorem SweepPc.run_attempt (run : SweepRun) (c : Candidate) (rest : Option (List Candidate))
    (pool : List Candidate) : (SweepPc.attempt run c rest pool).run? = some run := by
  unfold SweepPc.attempt
  split
  · rfl
  · exact SweepPc.run_resume run rest pool

/-- A step of a sweep, as far as its lease and its report go. It may find its
    lease revoked and report that, and it gets to choose its victims only with a
    lease that is not, if it is for pressure. -/
inductive RunEffect (s : Shared) (a : SweepArgs) : SweepPc → Shared → SweepPc → Prop
  | busy (h : s.busy = true) : RunEffect s a .start s .ended
  | denied (s' : Shared) (hidle : s.busy = false) (hbusy : s'.busy = true)
      (hleases : s'.leases = s.leases) (hnext : s'.nextSweep = s.nextSweep + 1)
        (hstood : s'.stoodDown = s.stoodDown)
      (howned : a.pressure = true → ∃ path ∈ s.purges, a.ownsPath path = true) :
      RunEffect s a .start s' (.probe { id := s.nextSweep, lease := none })
  | leased (s' : Shared) (hidle : s.busy = false) (hbusy : s'.busy = true)
      (hleases : s'.leases = s.leases ++ [{ id := s.nextSweep, ownsPath := a.ownsPath }])
      (hnext : s'.nextSweep = s.nextSweep + 1) (hstood : s'.stoodDown = s.stoodDown)
      (hfree : s.purges.any a.ownsPath = false) :
      RunEffect s a .start s' (.probe { id := s.nextSweep, lease := some s.nextSweep })
  | goes (pc pc' : SweepPc) (run : SweepRun) (s' : Shared) (hrun : pc.run? = some run)
      (hrun' : pc'.run? = some run) (hleases : s'.leases = s.leases)
      (hnext : s'.nextSweep = s.nextSweep) (hstood : s'.stoodDown = s.stoodDown)
      (hbusy : s'.busy = s.busy)
      (hretains : pc'.retaining = true → pc.retaining = true ∨ a.proactive = true ∨
        run.lease.isSome = true ∧ s.revoked run.lease = false) : RunEffect s a pc s' pc'
  | records (pc pc' : SweepPc) (run : SweepRun) (hrun : pc.run? = some run)
      (hrun' : pc'.run? = some (run.record s).2) (hretains : pc.retaining = true) :
      RunEffect s a pc (run.record s).1 pc'
  | ends (pc pc' : SweepPc) (run : SweepRun) (s' : Shared) (hrun : pc.run? = some run)
      (hrun' : pc'.run? = none) (hover : pc' ≠ .start)
      (hleases : s'.leases = s.leases.filter fun l => some l.id ≠ run.lease)
      (hnext : s'.nextSweep = s.nextSweep) (hstood : s'.stoodDown = s.stoodDown)
      (hbusy : s'.busy = false) : RunEffect s a pc s' pc'
  | endsDown (pc : SweepPc) (run : SweepRun) (hrun : pc.run? = some run) :
      RunEffect s a pc ((run.record s).2.close (run.record s).1) .ended
  | finished (pc pc' : SweepPc) (s' : Shared) (hrun : pc.run? = none) (hpc : pc ≠ .start)
      (hrun' : pc'.run? = none) (hpc' : pc' ≠ .start) (hleases : s'.leases = s.leases)
      (hnext : s'.nextSweep = s.nextSweep) (hstood : s'.stoodDown = s.stoodDown)
      (hbusy : s'.busy = s.busy) : RunEffect s a pc s' pc'

/-- A step of a sweep under way from outside of its calls. It looks at what is shared and goes
    on, it ends, or it reports that its lease was revoked. -/
inductive SweepMove (s : Shared) (a : SweepArgs) (pc : SweepPc) (run : SweepRun) :
    Shared → SweepPc → Prop
  | goes (pc' : SweepPc) (hrun : pc'.run? = some run) (hfresh : pc'.Fresh)
      (hread : ∀ r ∈ pc'.snapshots, r ∈ pc.snapshots ∨ ∃ status, r ∈ a.snapshots s.db status)
      (hretains : pc'.retaining = true → pc.retaining = true ∨ a.proactive = true ∨
        run.lease.isSome = true ∧ s.revoked run.lease = false) : SweepMove s a pc run s pc'
  | stops : SweepMove s a pc run (run.close s) .ended
  | records (pc' : SweepPc) (hrun : pc'.run? = some (run.record s).2) (hout : pc'.inside = false)
      (hread : pc'.snapshots = []) (hretains : pc.retaining = true) :
      SweepMove s a pc run (run.record s).1 pc'
  | stopsDown : SweepMove s a pc run ((run.record s).2.close (run.record s).1) .ended

theorem sweepNext_move (c : Choice) (s : Shared) (a : SweepArgs) {pc : SweepPc} {run : SweepRun}
    (hrun : pc.run? = some run) (hout : pc.inside = false) :
    SweepMove s a pc run (sweepNext c s a pc).1 (sweepNext c s a pc).2 := by
  -- A step to where no rows are read any more.
  have hgo : ∀ {pc' : SweepPc}, pc'.run? = some run → pc'.Fresh → pc'.snapshots = [] →
      (pc'.retaining = true → pc.retaining = true) → SweepMove s a pc run s pc' :=
    fun hrun hfresh hread hret =>
      .goes _ hrun hfresh (by simp [hread]) fun h => .inl (hret h)
  cases pc with
  | start | orphan key path | ended => cases hrun
  | recovering run r pc rest | evicting run key path pc rest pool => cases hout
  | probe run' =>
    cases hrun
    simp only [sweepNext]
    split
    · exact hgo rfl (.outside _ rfl) rfl nofun
    · exact .stops
  | enumerate run' rest found =>
    cases hrun
    cases rest with
    | nil =>
      simp only [sweepNext]
      exact .goes _ rfl (.outside _ rfl) (fun _ => .inl) nofun
    | cons status rest =>
      simp only [sweepNext]
      split
      · refine .goes _ rfl (.outside _ rfl) (fun r hr => ?_) nofun
        exact (List.mem_append.mp hr).imp_right fun hnew => ⟨status, hnew⟩
      · exact .stops
  | recover run' rest =>
    cases hrun
    cases rest with
    | nil =>
      simp only [sweepNext]
      split
      · exact .stops
      · exact hgo rfl (.outside _ rfl) rfl nofun
    | cons r rest =>
      simp only [sweepNext]
      exact .goes _ rfl (.recovering run r rest) (fun _ => .inl) nofun
  | reprobe run' =>
    cases hrun
    simp only [sweepNext]
    split
    · exact .stopsDown
    rename_i hlive
    split
    · refine .goes _ rfl (.outside _ rfl) nofun fun _ => .inr ?_
      simp only [SweepRun.leaseDefeated, Bool.and_eq_true, Bool.not_eq_true', Bool.or_eq_true,
        not_and, not_or] at hlive
      cases hpro : a.proactive with
      | true => exact .inl rfl
      | false =>
        have hboth := hlive hpro
        refine .inr ⟨?_, by simpa using hboth.2⟩
        cases hls : run.lease with
        | none => exact absurd (by simp [hls]) hboth.1
        | some id => rfl
    · exact .stops
  | assemble run' =>
    cases hrun
    simp only [sweepNext]
    split
    · exact hgo rfl (.outside _ rfl) rfl fun _ => rfl
    · exact .stops
  | rank run' found =>
    cases hrun
    simp only [sweepNext]
    split
    · split
      · exact .stops
      · exact hgo rfl (.outside _ rfl) rfl fun _ => rfl
    · exact .stops
  | selected run' rest pool =>
    cases hrun
    cases rest with
    | nil => exact hgo rfl (.outside _ rfl) rfl fun _ => rfl
    | cons r rest =>
      simp only [sweepNext]
      split
      · exact .records _ rfl rfl rfl rfl
      split
      · exact hgo (SweepPc.run_attempt run r (some rest) pool)
          (SweepPc.fresh_attempt run r (some rest) pool)
          (SweepPc.snapshots_attempt run r (some rest) pool) fun _ => rfl
      · exact .stops
      · exact hgo rfl (.outside _ rfl) rfl fun _ => rfl
  | extra run' pool =>
    cases hrun
    cases pool with
    | nil => exact hgo rfl (.outside _ rfl) rfl fun _ => rfl
    | cons r rest =>
      simp only [sweepNext]
      split
      · exact .records _ rfl rfl rfl rfl
      split
      · exact hgo (SweepPc.run_attempt run r none rest) (SweepPc.fresh_attempt run r none rest)
          (SweepPc.snapshots_attempt run r none rest) fun _ => rfl
      · exact .stops
      · exact hgo rfl (.outside _ rfl) rfl fun _ => rfl
  | closing run' =>
    cases hrun
    simp only [sweepNext]
    split
    · exact .stopsDown
    · exact .stops

theorem SweepMove.effect {a : SweepArgs} {pc' : SweepPc}
    (h : SweepMove s a pc run s' pc') (hout : pc.inside = false) : SweepEffect s pc s' pc' := by
  cases h with
  | goes _ _ hnew _ _ => exact .outside _ _ _ (Shared.Kept.refl s) hout hnew
  | stops => exact .outside _ _ _ (run.kept_close s) hout (.outside _ rfl)
  | records _ _ hout' _ _ => exact .outside _ _ _ (run.kept_record s) hout (.outside _ hout')
  | stopsDown =>
    refine .outside _ _ _ ?_ hout (.outside _ rfl)
    exact (run.kept_record s).trans (SweepRun.kept_close _ _)

theorem sweepNext_effect (c : Choice) (s : Shared) (a : SweepArgs) (pc : SweepPc) :
    SweepEffect s pc (sweepNext c s a pc).1 (sweepNext c s a pc).2 := by
  have hsame := Shared.Kept.refl s
  have hmove := fun run => @sweepNext_move c s a pc run
  cases pc with
  | start =>
    simp only [sweepNext]
    split
    · exact .outside _ _ _ hsame rfl (.outside _ rfl)
    split
    · exact .outside _ _ _ ⟨rfl, rfl, rfl, rfl, rfl⟩ rfl (.outside _ rfl)
    · refine .outside _ _ _ (Shared.Kept.trans ?_ (Shared.kept_acquire _ _ _)) rfl (.outside _ rfl)
      exact ⟨rfl, rfl, rfl, rfl, rfl⟩
  | recovering run r pc rest => exact .recovering run r rest pc _ _ (recoverNext_effect _ _ _ _)
  | evicting run key path pc rest pool =>
    exact .evicting run key path rest pool pc _ _ (evictNext_effect _ _ _ _ _ _)
  | orphan key path =>
    simp only [sweepNext]
    split
    · dsimp only
      split
      · rename_i h
        exact .orphaned key path _ true (.removed h)
      · exact .orphaned key path _ true .waited
    · exact .orphaned key path _ false .deleted
    · exact .orphaned key path _ false .failed
    · exact .orphaned key path _ true .waited
  | ended => exact .outside _ _ _ hsame rfl (.outside _ rfl)
  | _ => exact (hmove _ rfl rfl).effect rfl

theorem SweepMove.runEffect {a : SweepArgs} {pc' : SweepPc}
    (h : SweepMove s a pc run s' pc') (hrun : pc.run? = some run) : RunEffect s a pc s' pc' := by
  cases h with
  | goes _ hrun' _ _ hret => exact .goes _ _ run s hrun hrun' rfl rfl rfl rfl hret
  | stops => exact .ends _ _ run _ hrun rfl nofun rfl rfl rfl rfl
  | records _ hrun' _ _ hret => exact .records _ _ run hrun hrun' hret
  | stopsDown => exact .endsDown _ run hrun

theorem RunEffect.stays {pc' : SweepPc}
    (hfr : s' = { s with
      db := s'.db
      trees := s'.trees
      gutted := s'.gutted
      purges := s'.purges }) (hrun : pc.run? = some run) (hrun' : pc'.run? = some run)
    (hret : pc'.retaining = true → pc.retaining = true ∨ a.proactive = true ∨
      run.lease.isSome = true ∧ s.revoked run.lease = false) : RunEffect s a pc s' pc' := by
  rw [hfr]
  exact .goes _ _ run _ hrun hrun' rfl rfl rfl rfl hret

theorem RunEffect.closes {pc' : SweepPc}
    (hfr : s' = { s with
      db := s'.db
      trees := s'.trees
      gutted := s'.gutted
      purges := s'.purges }) (hrun : pc.run? = some run) (hrun' : pc'.run? = none)
    (hover : pc' ≠ .start) : RunEffect s a pc (run.close s') pc' := by
  rw [hfr]
  exact .ends _ _ run _ hrun hrun' hover rfl rfl rfl rfl

theorem sweepNext_run (c : Choice) (s : Shared) (a : SweepArgs) (pc : SweepPc) :
    RunEffect s a pc (sweepNext c s a pc).1 (sweepNext c s a pc).2 := by
  have hmove := fun run => @sweepNext_move c s a pc run
  cases pc with
  | start =>
    simp only [sweepNext]
    split
    · rename_i hbusy
      exact .busy hbusy
    rename_i hbusy
    have hidle : s.busy = false := by simpa using hbusy
    split
    · rename_i hoth
      refine .denied _ hidle rfl rfl rfl rfl fun hprs => ?_
      simp only [SweepArgs.pressure] at hprs
      rcases a with ⟨m, owns, proactive, correctionOnly⟩
      cases proactive <;> cases correctionOnly <;> simp_all
    · unfold Shared.acquirePressureExclusion
      split
      · rename_i hdenied
        refine .denied _ hidle rfl rfl rfl rfl fun _ => ?_
        rcases List.any_eq_true.mp hdenied with ⟨path, hpath, howns⟩
        exact ⟨path, hpath, howns⟩
      · rename_i hfree
        exact .leased _ hidle rfl rfl rfl rfl (by simpa using hfree)
  | recovering run r pc rest =>
    have hfr := (recoverNext_effect c.turn s r pc).frame
    simp only [sweepNext]
    generalize (recoverNext c.turn s r pc).1 = s', (recoverNext c.turn s r pc).2 = pc' at hfr ⊢
    unfold SweepPc.afterRecovery
    split
    · exact .closes hfr rfl rfl nofun
    · exact .stays hfr rfl rfl nofun
    · exact .closes hfr rfl rfl nofun
    · exact .stays hfr rfl rfl nofun
  | evicting run key path pc rest pool =>
    have hfr := (evictNext_effect c.turn s run.lease key path pc).frame
    simp only [sweepNext]
    generalize (evictNext c.turn s run.lease key path pc).1 = s',
      (evictNext c.turn s run.lease key path pc).2 = pc' at hfr ⊢
    unfold SweepPc.afterEviction
    split
    · exact .closes hfr rfl rfl nofun
    · exact .stays hfr rfl (SweepPc.run_resume run rest pool) fun _ => .inl rfl
    · exact .closes hfr rfl rfl nofun
    · exact .stays hfr rfl rfl fun _ => .inl rfl
  | orphan key path =>
    simp only [sweepNext]
    split
    · dsimp only
      split
      · exact .finished _ _ _ rfl nofun rfl nofun rfl rfl rfl rfl
      · exact .finished _ _ _ rfl nofun rfl nofun rfl rfl rfl rfl
    · refine .finished _ _ _ rfl nofun rfl nofun ?_ ?_ ?_ ?_
      · rw [Shared.removeTree_eq]; rfl
      · rw [Shared.removeTree_eq]; rfl
      · rw [Shared.removeTree_eq]; rfl
      · rw [Shared.removeTree_eq]; rfl
    · exact .finished _ _ _ rfl nofun rfl nofun rfl rfl rfl rfl
    · exact .finished _ _ _ rfl nofun rfl nofun rfl rfl rfl rfl
  | ended =>
    simp only [sweepNext]
    exact .finished _ _ _ rfl nofun rfl nofun rfl rfl rfl rfl
  | _ => exact (hmove _ rfl rfl).runEffect rfl

theorem SweepPc.afterRecovery_cases (s : Shared) (run : SweepRun) (r : Snapshot)
    (rest : List Snapshot) (pc : RecoverPc) :
    s.Kept (afterRecovery s run r rest pc).1 ∧
      ((∃ fate, pc = .ended fate ∧ (afterRecovery s run r rest pc).2.inside = false) ∨
        (∃ removed, pc = .abandoned removed ∧
          (afterRecovery s run r rest pc).2 = .orphan r.key r.libraryPath) ∨
        afterRecovery s run r rest pc = (s, .recovering run r pc rest)) := by
  unfold afterRecovery
  split
  · exact ⟨run.kept_close s, Or.inl ⟨_, rfl, rfl⟩⟩
  · exact ⟨Shared.Kept.refl s, Or.inl ⟨_, rfl, rfl⟩⟩
  · exact ⟨run.kept_close s, Or.inr (Or.inl ⟨_, rfl, rfl⟩)⟩
  · exact ⟨Shared.Kept.refl s, Or.inr (Or.inr rfl)⟩

theorem SweepPc.afterEviction_cases (s : Shared) (run : SweepRun) (key : RowKey) (path : Path)
    (rest : Option (List Candidate)) (pool : List Candidate) (pc : EvictPc) :
    s.Kept (afterEviction s run key path rest pool pc).1 ∧
      ((∃ fate, pc = .ended fate ∧ (afterEviction s run key path rest pool pc).2.inside = false) ∨
        (∃ removed, pc = .abandoned removed ∧
          (afterEviction s run key path rest pool pc).2 = .orphan key path) ∨
        afterEviction s run key path rest pool pc =
          (s, .evicting run key path pc rest pool)) := by
  unfold afterEviction
  split
  · exact ⟨run.kept_close s, Or.inl ⟨_, rfl, rfl⟩⟩
  · exact ⟨Shared.Kept.refl s, Or.inl ⟨_, rfl, SweepPc.fresh_resume run rest pool⟩⟩
  · exact ⟨run.kept_close s, Or.inr (Or.inl ⟨_, rfl, rfl⟩)⟩
  · exact ⟨Shared.Kept.refl s, Or.inr (Or.inr rfl)⟩

theorem SweepEffect.inside_cases {p : SweepPc} (h : SweepEffect s pc s' p) (hin : p.inside = true) :
    p.Fresh ∨
      (∃ run r rest pc₀ pc', pc = .recovering run r pc₀ rest ∧ p = .recovering run r pc' rest ∧
        RecoverEffect s r pc₀ s' pc') ∨
      (∃ run key path rest pool pc₀ pc', pc = .evicting run key path pc₀ rest pool ∧
        p = .evicting run key path pc' rest pool ∧
        EvictEffect s run.lease key path pc₀ s' pc') ∨
      ∃ key path, p = .orphan key path := by
  cases h with
  | outside _ _ _ _ _ hnew => exact .inl hnew
  | recovering run r rest pc s'' pc' hcall =>
    rcases SweepPc.afterRecovery_cases s'' run r rest pc' with
      ⟨-, ⟨_, -, hout⟩ | ⟨_, -, heq⟩ | heq⟩
    · rw [hout] at hin
      contradiction
    · exact .inr (.inr (.inr ⟨_, _, heq⟩))
    · rw [heq]
      exact .inr (.inl ⟨run, r, rest, pc, pc', rfl, rfl, hcall⟩)
  | evicting run key path rest pool pc s'' pc' hcall =>
    rcases SweepPc.afterEviction_cases s'' run key path rest pool pc' with
      ⟨-, ⟨_, -, hout⟩ | ⟨_, -, heq⟩ | heq⟩
    · rw [hout] at hin
      contradiction
    · exact .inr (.inr (.inr ⟨_, _, heq⟩))
    · rw [heq]
      exact .inr (.inr (.inl ⟨run, key, path, rest, pool, pc, pc', rfl, rfl, hcall⟩))
  | orphaned key path _ alive _ =>
    cases alive with
    | true => exact .inr (.inr (.inr ⟨key, path, rfl⟩))
    | false => contradiction

theorem SweepEffect.recovering_inv {r : Snapshot} {pc' : RecoverPc}
    {rest : List Snapshot} (h : SweepEffect s pc s' (.recovering run r pc' rest)) :
    pc' = .begin ∨
      ∃ pc₀, pc = .recovering run r pc₀ rest ∧ RecoverEffect s r pc₀ s' pc' := by
  rcases h.inside_cases rfl with hnew | ⟨_, _, _, pc₀, _, rfl, heq, hcall⟩ |
    ⟨_, _, _, _, _, _, _, _, heq, _⟩ | ⟨_, _, heq⟩
  · cases hnew with
    | outside _ hout => contradiction
    | recovering => exact .inl rfl
  · cases heq
    exact .inr ⟨pc₀, rfl, hcall⟩
  · cases heq
  · cases heq

theorem SweepEffect.evicting_inv {pc' : EvictPc} {rest : Option (List Candidate)}
    {pool : List Candidate} (h : SweepEffect s pc s' (.evicting run key path pc' rest pool)) :
    pc' = .filter stillEvictable ∨ ∃ pc₀, pc = .evicting run key path pc₀ rest pool ∧
      EvictEffect s run.lease key path pc₀ s' pc' := by
  rcases h.inside_cases rfl with hnew | ⟨_, _, _, _, _, _, heq, _⟩ |
    ⟨_, _, _, _, _, pc₀, _, rfl, heq, hcall⟩ | ⟨_, _, heq⟩
  · cases hnew with
    | outside _ hout => contradiction
    | evicting => exact .inl rfl
  · cases heq
  · cases heq
    exact .inr ⟨pc₀, rfl, hcall⟩
  · cases heq

/-! ### Steps of the world -/

open Interleaving

/-- A caller that has just come. -/
inductive Caller.Starts : Caller → Prop
  | sweep (args : SweepArgs) : Caller.Starts (.sweep args .start)
  | correction (key : RowKey) : Caller.Starts (.correction key .check)
  | importer (key : RowKey) (path : Path) : Caller.Starts (.importer key path .entering)

theorem actor_of_step {w w' : World} {a : Action} {i : Nat} {b : Caller}
    (hstep : step w a = some w') (hb : w'.actors[i]? = some b) :
    w.actors[i]? = some b ∨ b.Starts ∨
      ∃ c b₀, a = .act i c ∧ w.actors[i]? = some b₀ ∧ b = (b₀.next c w.shared).2 ∧
        w'.shared = (b₀.next c w.shared).1 := by
  have hspn : ∀ x : Caller, x.Starts → w' = w.spawn x → w.actors[i]? = some b ∨ b.Starts := by
    rintro x hx rfl
    rw [World.spawn, List.getElem?_append] at hb
    split at hb
    · exact .inl hb
    rw [List.getElem?_singleton] at hb
    split at hb
    · cases hb
      exact .inr hx
    · simp at hb
  cases a with
  | sweep args =>
    rcases hspn _ (.sweep args) (Option.some.inj hstep).symm with h | h
    · exact .inl h
    · exact .inr (.inl h)
  | report key =>
    rcases hspn _ (.correction key) (Option.some.inj hstep).symm with h | h
    · exact .inl h
    · exact .inr (.inl h)
  | importInto key path =>
    rcases hspn _ (.importer key path) (Option.some.inj hstep).symm with h | h
    · exact .inl h
    · exact .inr (.inl h)
  | act j c =>
    simp only [step, World.act] at hstep
    split at hstep
    · simp at hstep
    rename_i b₀ hat
    cases hstep
    by_cases hij : i = j
    · subst hij
      rw [List.getElem?_set_self (List.getElem?_eq_some_iff.mp hat).1] at hb
      exact .inr (.inr ⟨c, b₀, rfl, hat, (Option.some.inj hb).symm, rfl⟩)
    · rw [List.getElem?_set_ne (Ne.symm hij)] at hb
      exact .inl hb
  | other v | vanish path =>
    cases hstep
    exact .inl hb
  | crash =>
    cases hstep
    simp at hb

end Eviction

end PlexManager
