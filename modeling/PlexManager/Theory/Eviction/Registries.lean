import PlexManager.Theory.Eviction.Effects
import PlexManager.Lib.Transition

/-!
# What the registries count

A path that is being deleted is registered, once for every call that holds it,
and a path that an import places files under is registered as well. Each of the
registries is a ledger: it counts the calls that hold a path at that moment, so
that a path somebody holds is registered, and one that nobody holds is not. The
latch of the sweeps is a ledger too, of which there is at most one entry.

A purge that has entered its path has found no placement there, and as long as
it is registered none can begin. So the two never meet.

## Main definitions

* `Caller.purgeWeight`, `Caller.placing`, `Caller.sweeping`: What a caller holds.
* `Caller.entered`: A purge of a path that keeps the placements out.
* `purgeLedger`, `placementLedger`, `sweepLedger`: The ledgers as outlines.

## Theorems

* `World.Accounted.step`: They are right in every run.
* `World.Accounted.not_placing`: No import places where a purge has entered.
-/

namespace PlexManager

namespace Eviction

open Interleaving Transition

/-! ### What a caller holds -/

def PurgePc.held : PurgePc → Nat
  | .entering => 0
  | _ => 1

def PurgeStep.held : PurgeStep → Nat
  | .at pc => pc.held
  | .hook | .outcome .deleted | .abandoned _ => 1
  | .outcome _ | .left _ => 0

def EvictPc.held : EvictPc → Nat
  | .purging pc => pc.held
  | .arm | .armed _ | .finalize | .release | .abandoned _ => 1
  | _ => 0

def RecoverPc.held : RecoverPc → Nat
  | .begin | .ended _ => 0
  | .purging pc => 1 + pc.held
  | .boundary | .confirmed _ => 2
  | .finalize held | .release held => if held then 2 else 1
  | _ => 1

def countAt (k path : Path) (n : Nat) : Nat := if path = k then n else 0

def SweepPc.purgeWeight (k : Path) : SweepPc → Nat
  | .recovering _ r pc _ => countAt k r.libraryPath pc.held
  | .evicting _ _ path pc _ _ => countAt k path pc.held
  | .orphan _ path => countAt k path 1
  | _ => 0

def CorrectPc.purgeWeight (k : Path) : CorrectPc → Nat
  | .rearm (some path) | .removeTorrent (some path) | .settle path _ | .release path
  | .orphan path => countAt k path 1
  | .purging path pc => countAt k path (1 + pc.held)
  | _ => 0

def Caller.purgeWeight (k : Path) : Caller → Nat
  | .sweep _ pc => pc.purgeWeight k
  | .correction _ pc => pc.purgeWeight k
  | .importer _ _ _ => 0

def ImportPc.placing : ImportPc → Bool
  | .place | .stamp | .release => true
  | _ => false

/-- An import that has registered a path and may place files there. -/
def Caller.placing (k : Path) : Caller → Bool
  | .importer _ path pc => path = k && pc.placing
  | _ => false

def Caller.sweeping : Caller → Bool
  | .sweep _ pc => match pc with
    | .start | .orphan _ _ | .ended => false
    | _ => true
  | _ => false

/-! ### The paths that are being deleted -/

theorem countAt_add (k path : Path) (m n : Nat) :
    countAt k path (m + n) = countAt k path m + countAt k path n := by
  unfold countAt
  split <;> rfl

theorem countAt_self (k : Path) (n : Nat) : countAt k k n = n := if_pos rfl

theorem countAt_zero (k path : Path) : countAt k path 0 = 0 := ite_self 0

theorem count_hold (l : List Path) (path k : Path) (n : Nat) :
    (path :: l).count k + countAt k path n = l.count k + countAt k path (n + 1) := by
  rw [countAt_add, List.count_cons]
  simp only [countAt, beq_iff_eq]
  omega

theorem count_release (l : List Path) (path k : Path) (n : Nat)
    (hheld : countAt k path (n + 1) ≤ l.count k) :
    (l.erase path).count k + countAt k path (n + 1) = l.count k + countAt k path n := by
  -- What is held is registered, so the subtraction takes one away.
  rw [countAt_add] at hheld ⊢
  rw [List.count_erase]
  simp only [countAt, beq_iff_eq] at hheld ⊢
  omega

theorem removeTree_purges (s : Shared) (path : Path) : (s.removeTree path).purges = s.purges := by
  rw [Shared.removeTree_eq]

theorem transact_purges (s : Shared) (t : Turn) (db : Db) :
    (s.transact t db).purges = s.purges := by
  rw [Shared.transact_eq]

theorem unregister_purges (s : Shared) (path : Path) :
    (s.unregister path).purges = s.purges.erase path := rfl

variable {s s' : Shared} {path k : Path} {pc pc' : SweepPc} {key : RowKey} {st : PurgeStep}
  {a : Caller} {w : World} {lease : Option Nat}

-- A purge counts its own registration, on top of those of its caller.
theorem PurgeEffect.account {pc : PurgePc} (h : PurgeEffect s path pc s' st) (k : Path) (n : Nat)
    (hheld : countAt k path (n + pc.held) ≤ s.purges.count k) :
    s'.purges.count k + countAt k path (n + pc.held) =
      s.purges.count k + countAt k path (n + st.held) := by
  cases h with
  | entered => exact count_hold s.purges path k n
  | refused | failedCancelled => exact count_release s.purges path k n hheld
  | cut pc fate hpc =>
    -- A thread is only cut off past its entry, where it holds its path.
    have hone : pc.held = 1 := by rcases hpc with rfl | rfl | rfl <;> rfl
    rw [hone] at hheld ⊢
    exact count_release s.purges path k n hheld
  | deleted => rw [removeTree_purges]; rfl
  | deletedCancelled =>
    rw [unregister_purges, removeTree_purges]
    exact count_release s.purges path k n hheld
  | failed r =>
      cases r
      · exact count_release s.purges path k n hheld
      · exact count_release s.purges path k n hheld
  | _ => rfl

theorem OrphanEffect.account {alive : Bool} (h : OrphanEffect s path s' alive) (k : Path)
    (hheld : countAt k path 1 ≤ s.purges.count k) :
    s'.purges.count k + countAt k path 1 =
      s.purges.count k + countAt k path (if alive then 1 else 0) := by
  cases h with
  | removed | waited => rfl
  | deleted =>
    rw [unregister_purges, removeTree_purges]
    exact count_release s.purges path k 0 hheld
  | failed => exact count_release s.purges path k 0 hheld

theorem EvictPc.held_of_reading {pc : EvictPc} (h : pc.reading = true) : pc.held = 0 := by
  cases pc <;> first | rfl | simp [EvictPc.reading] at h

theorem RecoverPc.held_of_reading {pc : RecoverPc} (h : pc.reading = true) : pc.held = 1 := by
  cases pc <;> first | rfl | simp [RecoverPc.reading] at h

theorem held_ofPurge (st : PurgeStep) : (EvictPc.ofPurge st).held = st.held := by
  cases st with
  | outcome o => cases o <;> rfl
  | _ => rfl

theorem count_released {m n : Nat} (hm : m = n + 1) (hs' : s'.purges = s.purges.erase path)
    (hheld : countAt k path m ≤ s.purges.count k) :
    s'.purges.count k + countAt k path m = s.purges.count k + countAt k path n := by
  subst hm
  rw [hs']
  exact count_release s.purges path k n hheld

theorem count_released_held (held : Bool)
    (hs' : s'.purges = (if held then s.purges.erase path else s.purges).erase path)
    (hheld : countAt k path (if held then 2 else 1) ≤ s.purges.count k) :
    s'.purges.count k + countAt k path (if held then 2 else 1) =
      s.purges.count k + countAt k path 0 := by
  cases held with
  | false => exact count_released rfl hs' hheld
  -- The purge has gone on holding the path, and both registrations are given back.
  | true =>
    have htwo : countAt k path 2 ≤ s.purges.count k := hheld
    have hfst : (s.purges.erase path).count k + countAt k path 2 =
        s.purges.count k + countAt k path 1 := count_release s.purges path k 1 htwo
    have hsnd : ((s.purges.erase path).erase path).count k + countAt k path 1 =
        (s.purges.erase path).count k + countAt k path 0 :=
      count_release (s.purges.erase path) path k 0 (by simp only [Nat.zero_add]; omega)
    rw [hs']
    simp only [if_true]
    omega

theorem unregisterHeld_purges (s : Shared) (path : Path) (held : Bool) :
    (s.unregisterHeld path held).purges =
      (if held then s.purges.erase path else s.purges).erase path := by
  cases held <;> rfl

theorem EvictEffect.account {pc pc' : EvictPc} (h : EvictEffect s lease key path pc s' pc')
    (k : Path) (hheld : countAt k path pc.held ≤ s.purges.count k) :
    s'.purges.count k + countAt k path pc.held = s.purges.count k + countAt k path pc'.held := by
  cases h with
  | cut pc fate hpc => rw [EvictPc.held_of_reading hpc]; rfl
  | purged pc s' st hpurge hls =>
    rw [held_ofPurge]
    have hacct := hpurge.account k 0 (by simpa [EvictPc.held] using hheld)
    simpa [EvictPc.held] using hacct
  | claimLost t | restored t | disarmed t | unstartedDisarmed t => rw [transact_purges]; rfl
  | armLost t | finalizeLost t =>
    exact count_released rfl (by rw [unregister_purges, transact_purges]) hheld
  | defeated | armedCut | armedDefeated | unstarted | released =>
    exact count_released rfl rfl hheld
  | _ => rfl

theorem count_then_released {s'' : Shared} {m n : Nat}
    (hacct : s'.purges.count k + countAt k path m = s.purges.count k + countAt k path (n + 1))
    (hs'' : s''.purges = s'.purges.erase path) (hheld : countAt k path m ≤ s.purges.count k) :
    s''.purges.count k + countAt k path m = s.purges.count k + countAt k path n := by
  have hlast := count_release s'.purges path k n (by omega)
  rw [hs'']
  omega

-- A recovery goes on from its purge with its own registration, and with that of the purge
-- where the path is deleted.
theorem RecoverPc.account_ofPurge {pc : PurgePc} (h : PurgeEffect s path pc s' st) (k : Path)
    (hheld : countAt k path (1 + pc.held) ≤ s.purges.count k) :
    (RecoverPc.ofPurge s' path st).1.purges.count k + countAt k path (1 + pc.held) =
      s.purges.count k + countAt k path (RecoverPc.ofPurge s' path st).2.held := by
  have hacct := h.account k 1 hheld
  cases st with
  | «at» pc' | hook => exact hacct
  | outcome o =>
    cases o with
    | deleted => exact hacct
    | _ => exact count_then_released hacct rfl hheld
  | left fate => exact count_then_released hacct rfl hheld
  | abandoned removed => exact count_then_released hacct rfl hheld

theorem RecoverEffect.account {r : Snapshot} {pc pc' : RecoverPc} (h : RecoverEffect s r pc s' pc')
    (k : Path) (hheld : countAt k r.libraryPath pc.held ≤ s.purges.count k) :
    s'.purges.count k + countAt k r.libraryPath pc.held =
      s.purges.count k + countAt k r.libraryPath pc'.held := by
  cases h with
  | began hfree =>
    have hone : (if r.correction = true then RecoverPc.stillArmed else .stat).held = 1 := by
      split <;> rfl
    rw [hone]
    exact count_hold s.purges r.libraryPath k 0
  | cut pc fate hpc =>
      exact count_released (RecoverPc.held_of_reading hpc) rfl hheld
  | noTwins m =>
    have hone : (RecoverPc.adjudicate r).held = 1 := by
      unfold RecoverPc.adjudicate
      split
      · rfl
      · split <;> rfl
    rw [hone]
    rfl
  | allowed =>
    have hone : (if r.rearmed = true then RecoverPc.stillArmedAgain else .purging .entering).held =
      1 := by
      split <;> rfl
    rw [hone]
    rfl
  | breadcrumbReleased t | restored t | folded t =>
    exact count_released rfl (by rw [unregister_purges, transact_purges]) hheld
  | purged pc s' st hpurge => exact RecoverPc.account_ofPurge hpurge k hheld
  | unconfirmed | unstarted =>
    exact count_released_held true (unregisterHeld_purges _ _ true) hheld
  | finalizeLost held t db fate hdb =>
    exact count_released_held held (by rw [unregisterHeld_purges, transact_purges]) hheld
  | released held fate => exact count_released_held held (unregisterHeld_purges _ _ held) hheld
  | _ => rfl

theorem CorrectPc.account_ofPurge {pc : PurgePc} (h : PurgeEffect s path pc s' st) (k : Path)
    (hheld : countAt k path (1 + pc.held) ≤ s.purges.count k) :
    (CorrectPc.ofPurge s' path st).1.purges.count k + countAt k path (1 + pc.held) =
      s.purges.count k + (CorrectPc.ofPurge s' path st).2.purgeWeight k := by
  have hacct := h.account k 1 hheld
  cases st with
  | «at» pc' | hook => exact hacct
  | outcome o =>
    cases o with
    | deleted => exact count_then_released hacct rfl hheld
    | _ => exact hacct
  | left fate =>
    have hend : (s'.unregister path).purges.count k + countAt k path (1 + pc.held) =
        s.purges.count k + countAt k path 0 := count_then_released hacct rfl hheld
    rw [countAt_zero] at hend
    exact hend
  | abandoned removed => exact count_then_released hacct rfl hheld

theorem count_correction_over (hs' : s'.purges = s.purges.erase path)
    (hheld : countAt k path 1 ≤ s.purges.count k) :
    s'.purges.count k + countAt k path 1 = s.purges.count k + 0 := by
  rw [count_released rfl hs' hheld, countAt_zero]

theorem CorrectEffect.account {pc pc' : CorrectPc} (h : CorrectEffect s key pc s' pc') (k : Path)
    (hheld : pc.purgeWeight k ≤ s.purges.count k) :
    s'.purges.count k + pc.purgeWeight k = s.purges.count k + pc'.purgeWeight k := by
  cases h with
  | cut pc hpc =>
    have hnone : pc.purgeWeight k = 0 := by
      rcases hpc with rfl | ⟨path, rfl⟩ | rfl <;> rfl
    rw [hnone]
    rfl
  | claimed path hfree =>
    have hhold := count_hold s.purges path k 0
    rw [countAt_zero] at hhold
    exact hhold
  | rearmed path => cases path <;> rfl
  | rearmLost path t =>
    cases path with
    | none =>
        show (s.transact t _).purges.count k + 0 = _
        rw [transact_purges]
        rfl
    | some path =>
      exact count_correction_over (by
        show ((s.transact t _).unregister path).purges = _
        rw [unregister_purges, transact_purges]) hheld
  | torrentKept path | released path => exact count_correction_over rfl hheld
  | purged path pc s' st hpurge => exact CorrectPc.account_ofPurge hpurge k hheld
  | settleLost path o t =>
    exact count_correction_over (by rw [unregister_purges, transact_purges]) hheld
  | orphaned path s' alive horph =>
      have hacct := horph.account k hheld
      cases alive with
      | true => exact hacct
      | false =>
          simp only [Bool.false_eq_true, if_false, countAt_zero] at hacct
          exact hacct
  | _ => rfl

/-! ### Sweeps and callers -/

theorem SweepEffect.placements (h : SweepEffect s pc s' pc') : s'.placements = s.placements := by
  cases h with
  | outside _ _ _ hs => exact hs.placements
  | recovering run r rest pc s'' pc'' hcall =>
    rw [(SweepPc.afterRecovery_cases s'' run r rest pc'').1.placements]
    rw [congrArg Shared.placements hcall.frame]
  | evicting run key path rest pool pc s'' pc'' hcall =>
    rw [(SweepPc.afterEviction_cases s'' run key path rest pool pc'').1.placements]
    rw [congrArg Shared.placements hcall.frame]
  | orphaned key path _ alive horph => rw [congrArg Shared.placements horph.frame]

theorem SweepPc.purgeWeight_of_outside (k : Path) (h : pc.inside = false) :
    pc.purgeWeight k = 0 := by
  cases pc <;> first | rfl | simp [SweepPc.inside] at h

theorem SweepPc.Fresh.purgeWeight (k : Path) (h : pc.Fresh) : pc.purgeWeight k = 0 := by
  cases h with
  | outside _ hout => exact SweepPc.purgeWeight_of_outside k hout
  | recovering | evicting => exact countAt_zero k _

theorem SweepEffect.account (h : SweepEffect s pc s' pc') (k : Path)
    (hheld : pc.purgeWeight k ≤ s.purges.count k) :
    s'.purges.count k + pc.purgeWeight k = s.purges.count k + pc'.purgeWeight k := by
  cases h with
  | outside _ _ _ hs hpc hpc' =>
    rw [hs.purges, SweepPc.purgeWeight_of_outside k hpc, hpc'.purgeWeight k]
  | recovering run r rest pc s'' pc'' hcall =>
    have hacct := hcall.account k hheld
    -- After a recovery the sweep goes on, leaves an orphan behind, or waits for it.
    rcases SweepPc.afterRecovery_cases s'' run r rest pc'' with
      ⟨hs, ⟨fate, rfl, hout⟩ | ⟨removed, rfl, heq⟩ | heq⟩
    · rw [hs.purges, SweepPc.purgeWeight_of_outside k hout]
      rw [show RecoverPc.held (.ended fate) = 0 from rfl, countAt_zero] at hacct
      exact hacct
    · rw [hs.purges, heq]
      exact hacct
    · rw [heq]
      exact hacct
  | evicting run key path rest pool pc s'' pc'' hcall =>
    have hacct := hcall.account k hheld
    rcases SweepPc.afterEviction_cases s'' run key path rest pool pc'' with
      ⟨hs, ⟨fate, rfl, hout⟩ | ⟨removed, rfl, heq⟩ | heq⟩
    · rw [hs.purges, SweepPc.purgeWeight_of_outside k hout]
      rw [show EvictPc.held (.ended fate) = 0 from rfl, countAt_zero] at hacct
      exact hacct
    · rw [hs.purges, heq]
      exact hacct
    · rw [heq]
      exact hacct
  | orphaned key path _ alive horph =>
    have hacct := horph.account k hheld
    cases alive with
    | true => exact hacct
    | false =>
      simp only [Bool.false_eq_true, if_false, countAt_zero] at hacct
      exact hacct

variable (c : Choice) (n : Nat) {args : SweepArgs}

theorem Caller.account_purges (s : Shared) (a : Caller) (k : Path)
    (hheld : a.purgeWeight k ≤ s.purges.count k) :
    (a.next c s).1.purges.count k + a.purgeWeight k =
      s.purges.count k + (a.next c s).2.purgeWeight k := by
  cases a with
  | sweep args pc => exact (sweepNext_effect c s args pc).account k hheld
  | correction key pc => exact (correctNext_effect c.turn s key pc).account k hheld
  | importer key path pc =>
    simp only [Caller.next, Caller.purgeWeight]
    rw [congrArg Shared.purges (importNext_effect c.turn s key path pc).frame]

/-- How often an import has registered a path. -/
def Caller.placementWeight (k : Path) (a : Caller) : Nat := if a.placing k then 1 else 0

theorem ImportEffect.account {pc pc' : ImportPc} (h : ImportEffect s key path pc s' pc') (k : Path)
    (hheld : Caller.placementWeight k (.importer key path pc) ≤ s.placements.count k) :
    s'.placements.count k + Caller.placementWeight k (.importer key path pc) =
      s.placements.count k + Caller.placementWeight k (.importer key path pc') := by
  have hwt : ∀ pc : ImportPc, Caller.placementWeight k (.importer key path pc) =
      countAt k path (if pc.placing then 1 else 0) := by
    simp only [Caller.placementWeight, Caller.placing, countAt, Bool.and_eq_true, decide_eq_true_eq]
    by_cases hk : path = k
    · simp [hk]
    · simp [hk]
  simp only [hwt] at hheld ⊢
  cases h with
  | entered => exact count_hold s.placements path k 0
  | cut pc hpc =>
    have hone : pc.placing = true := by rcases hpc with rfl | rfl | rfl <;> rfl
    rw [hone] at hheld ⊢
    exact count_release s.placements path k 0 hheld
  | stampLost => exact count_release s.placements path k 0 hheld
  | _ => rfl

theorem Caller.account_placements (s : Shared) (a : Caller) (k : Path)
    (hheld : a.placementWeight k ≤ s.placements.count k) :
    (a.next c s).1.placements.count k + a.placementWeight k =
      s.placements.count k + (a.next c s).2.placementWeight k := by
  cases a with
  | sweep args pc =>
    simp only [Caller.next]
    rw [(sweepNext_effect c s args pc).placements]
    rfl
  | correction key pc =>
    simp only [Caller.next]
    rw [congrArg Shared.placements (correctNext_effect c.turn s key pc).frame]
    rfl
  | importer key path pc => exact (importNext_effect c.turn s key path pc).account k hheld

/-! ### Ledgers -/

/-- A purge that has found no placement under way, and keeps others out. -/
def EvictPc.entered : EvictPc → Bool
  | .purging .entering => false
  | .purging _ | .arm | .armed _ | .finalize | .release | .abandoned _ => true
  | _ => false

def RecoverPc.entered : RecoverPc → Bool
  | .purging .entering => false
  | .purging _ | .boundary | .confirmed _ | .abandoned _ => true
  | .finalize held | .release held => held
  | _ => false

/-- The path that a caller keeps placements out of. -/
def Caller.entered : Caller → Option Path
  | .sweep _ (.recovering _ r pc _) => if pc.entered then some r.libraryPath else none
  | .sweep _ (.evicting _ _ path pc _ _) => if pc.entered then some path else none
  | .sweep _ (.orphan _ path) => some path
  | .correction _ (.purging path pc) => if pc = .entering then none else some path
  | .correction _ (.settle path .deleted) => some path
  | .correction _ (.orphan path) => some path
  | _ => none

/-- How often a path is registered for a purge, and that no import places files
    where one has entered. -/
def purgeLedger (k : Path) : Outline Shared Caller where
  Shared := fun _ => True
  Local := fun s a => a.entered = some k → k ∉ s.placements
  Apart := fun _ _ => True
  weight := Caller.purgeWeight k
  held := fun s => s.purges.count k

def placementLedger (k : Path) : Outline Shared Caller where
  Shared := fun _ => True
  Local := fun _ _ => True
  Apart := fun _ _ => True
  weight := Caller.placementWeight k
  held := fun s => s.placements.count k

theorem placementLedger_sound (k : Path) :
    (placementLedger k).Sound Caller.next (fun _ _ _ => True) where
  symm := fun _ _ _ => trivial
  own := fun _ _ _ _ _ _ _ => ⟨trivial, trivial⟩
  frame := fun _ _ _ _ _ _ _ _ _ _ => trivial
  apart := fun _ _ _ _ _ _ _ _ => trivial
  account := fun s a c _ _ hheld => Caller.account_placements c s a k hheld

theorem EvictPc.held_of_entered {pc : EvictPc} (h : pc.entered = true) : 0 < pc.held := by
  cases pc with
  | purging pc =>
    cases pc with
    | entering => simp [EvictPc.entered] at h
    | _ => exact Nat.one_pos
  | arm | armed | finalize | release | abandoned => exact Nat.one_pos
  | _ => simp [EvictPc.entered] at h

theorem RecoverPc.held_of_entered {pc : RecoverPc} (h : pc.entered = true) : 0 < pc.held := by
  cases pc with
  | purging pc => exact Nat.lt_of_lt_of_le Nat.one_pos (Nat.le_add_right 1 pc.held)
  | boundary | confirmed => exact Nat.two_pos
  | finalize held | release held => cases held <;> decide
  | abandoned => exact Nat.one_pos
  | _ => simp [RecoverPc.entered] at h

theorem Caller.registered_of_entered (h : a.entered = some k) : 0 < a.purgeWeight k := by
  -- Under way is one that holds its path at least once.
  have hat : ∀ {path : Path} {n : Nat} {b : Bool}, (if b then some path else none) = some k →
      (b = true → 0 < n) → 0 < countAt k path n := by
    intro path n b hb hpos
    cases b with
    | false => simp at hb
    | true =>
      obtain rfl : path = k := Option.some.inj hb
      rw [countAt_self]
      exact hpos rfl
  unfold Caller.entered at h
  split at h
  · exact hat h RecoverPc.held_of_entered
  · exact hat h EvictPc.held_of_entered
  · cases h
    exact Nat.lt_of_lt_of_eq Nat.one_pos (countAt_self _ 1).symm
  · split at h
    · simp at h
    cases h
    exact Nat.lt_of_lt_of_eq (Nat.lt_of_lt_of_le Nat.one_pos (Nat.le_add_right _ _))
      (countAt_self _ _).symm
  · cases h
    exact Nat.lt_of_lt_of_eq Nat.one_pos (countAt_self _ 1).symm
  · cases h
    exact Nat.lt_of_lt_of_eq Nat.one_pos (countAt_self _ 1).symm
  · simp at h

-- Only an import registers a placement, and not where a purge is registered.
theorem Caller.not_placed_of_next (a : Caller) (hpurged : k ∈ s.purges)
    (hfree : k ∉ s.placements) : k ∉ (a.next c s).1.placements := by
  cases a with
  | sweep args pc =>
    simp only [Caller.next]
    rw [(sweepNext_effect c s args pc).placements]
    exact hfree
  | correction key pc =>
    simp only [Caller.next]
    rw [congrArg Shared.placements (correctNext_effect c.turn s key pc).frame]
    exact hfree
  | importer key path pc =>
    have heff := importNext_effect c.turn s key path pc
    simp only [Caller.next]
    revert heff
    generalize (importNext c.turn s key path pc).1 = s', (importNext c.turn s key path pc).2 = pc'
    intro heff
    cases heff with
    -- The import has looked for a purge of the path in the step that registers it.
    | entered hpath =>
      intro hmem
      rcases List.mem_cons.mp hmem with rfl | hmem
      · exact hpath hpurged
      · exact hfree hmem
    | cut | stampLost => exact fun hmem => hfree (List.mem_of_mem_erase hmem)
    | _ => exact hfree

theorem PurgeEffect.entering (h : PurgeEffect s path .entering s' st) :
    st = .outcome .deferred ∨ path ∉ s.placements := by
  cases h with
  | deferred => exact .inl rfl
  | entered hfree => exact .inr hfree
  | cut pc fate hpc => simp at hpc

theorem EvictPc.entered_of_ne {pc : PurgePc} (h : pc ≠ .entering) :
    EvictPc.entered (.purging pc) = true := by
  cases pc <;> first | rfl | exact absurd rfl h

theorem RecoverPc.entered_of_ne {pc : PurgePc} (h : pc ≠ .entering) :
    RecoverPc.entered (.purging pc) = true := by
  cases pc <;> first | rfl | exact absurd rfl h

theorem EvictEffect.entered {pc pc' : EvictPc} (h : EvictEffect s lease key path pc s' pc')
    (hin : pc'.entered = true) : pc.entered = true ∨ path ∉ s.placements := by
  cases h with
  | purged pc s' st hpurge =>
    -- A purge enters in one step with its look at the placements.
    by_cases hpc : pc = .entering
    · subst hpc
      rcases hpurge.entering with rfl | hfree
      · simp [EvictPc.ofPurge, EvictPc.entered] at hin
      · exact .inr hfree
    · exact .inl (EvictPc.entered_of_ne hpc)
  | _ => first | exact .inl rfl | simp [EvictPc.entered] at hin

theorem RecoverEffect.entered {r : Snapshot} {pc pc' : RecoverPc} (h : RecoverEffect s r pc s' pc')
    (hin : pc'.entered = true) : pc.entered = true ∨ r.libraryPath ∉ s.placements := by
  cases h with
  | purged pc s' st hpurge =>
    by_cases hpc : pc = .entering
    · subst hpc
      rcases hpurge.entering with rfl | hfree
      · simp [RecoverPc.ofPurge, RecoverPc.exit, RecoverPc.entered] at hin
      · exact .inr hfree
    · exact .inl (RecoverPc.entered_of_ne hpc)
  | began => split at hin <;> simp [RecoverPc.entered] at hin
  | noTwins m =>
    unfold RecoverPc.adjudicate at hin
    split at hin
    · simp [RecoverPc.entered] at hin
    · split at hin <;> simp [RecoverPc.entered] at hin
  | allowed => split at hin <;> simp [RecoverPc.entered] at hin
  | unfinalized held | finalized held => exact .inl hin
  | _ => first | exact .inl rfl | simp [RecoverPc.entered] at hin

theorem CorrectEffect.entered {pc pc' : CorrectPc} (h : CorrectEffect s key pc s' pc')
    (hin : Caller.entered (.correction key pc') = some k) :
    Caller.entered (.correction key pc) = some k ∨ k ∉ s.placements := by
  cases h with
  | purged path pc s' st hpurge =>
    -- Wherever the purge has come to, its path is that of the correction.
    have hpath : k = path := by
      cases st with
      | «at» pc' =>
        simp only [CorrectPc.ofPurge, Caller.entered] at hin
        split at hin
        · simp at hin
        exact (Option.some.inj hin).symm
      | outcome o =>
        cases o with
        | deleted => exact (Option.some.inj hin).symm
        | _ => simp [CorrectPc.ofPurge, Caller.entered] at hin
      | left fate => simp [CorrectPc.ofPurge, Caller.entered] at hin
      | hook | abandoned => exact (Option.some.inj hin).symm
    subst hpath
    by_cases hpc : pc = .entering
    · subst hpc
      rcases hpurge.entering with rfl | hfree
      · simp [CorrectPc.ofPurge, Caller.entered] at hin
      · exact .inr hfree
    · exact .inl (by simp [Caller.entered, hpc])
  | orphaned path s' alive horph =>
    cases alive with
    | true => exact .inl hin
    | false => simp [Caller.entered] at hin
  | torrentRemoved path | _ => simp [Caller.entered] at hin

theorem SweepPc.entered_of_outside (h : pc.inside = false) :
    Caller.entered (.sweep args pc) = none := by
  cases pc <;> first | rfl | simp [SweepPc.inside] at h

theorem SweepEffect.entered (h : SweepEffect s pc s' pc')
    (hin : Caller.entered (.sweep args pc') = some k) :
    Caller.entered (.sweep args pc) = some k ∨ k ∉ s.placements := by
  have hat : ∀ (path : Path) (b b' : Bool), (if b' then some path else none) = some k →
      (b' = true → b = true ∨ path ∉ s.placements) →
      (if b then some path else none) = some k ∨ k ∉ s.placements := by
    intro path b b' hb' himp
    cases b' with
    | false => simp at hb'
    | true =>
      obtain rfl : path = k := Option.some.inj hb'
      rcases himp rfl with hb | hfree
      · exact .inl (by rw [hb]; rfl)
      · exact .inr hfree
  cases h with
  | outside _ _ _ hs hpc hpc' =>
    cases hpc' with
    | outside _ hout => simp [SweepPc.entered_of_outside hout] at hin
    | recovering => simp [Caller.entered, RecoverPc.entered] at hin
    | evicting => simp [Caller.entered, EvictPc.entered] at hin
  | recovering run r rest pc s'' pc'' hcall =>
    rcases SweepPc.afterRecovery_cases s'' run r rest pc'' with
      ⟨-, ⟨fate, rfl, hout⟩ | ⟨removed, rfl, heq⟩ | heq⟩
    · simp [SweepPc.entered_of_outside hout] at hin
    · rw [heq] at hin
      exact hat r.libraryPath pc.entered true hin fun _ => hcall.entered rfl
    · rw [heq] at hin
      exact hat r.libraryPath pc.entered pc''.entered hin hcall.entered
  | evicting run key path rest pool pc s'' pc'' hcall =>
    rcases SweepPc.afterEviction_cases s'' run key path rest pool pc'' with
      ⟨-, ⟨fate, rfl, hout⟩ | ⟨removed, rfl, heq⟩ | heq⟩
    · simp [SweepPc.entered_of_outside hout] at hin
    · rw [heq] at hin
      exact hat path pc.entered true hin fun _ => hcall.entered rfl
    · rw [heq] at hin
      exact hat path pc.entered pc''.entered hin hcall.entered
  | orphaned key path _ alive horph =>
    cases alive with
    | true => exact .inl hin
    | false => simp [Caller.entered] at hin

theorem Caller.entered_next (h : (a.next c s).2.entered = some k)
    (hbef : a.entered = some k → k ∉ s.placements) : k ∉ (a.next c s).1.placements := by
  cases a with
  | sweep args pc =>
    have heff := sweepNext_effect c s args pc
    simp only [Caller.next] at h ⊢
    rw [heff.placements]
    rcases heff.entered h with hsame | hfree
    · exact hbef hsame
    · exact hfree
  | correction key pc =>
    have heff := correctNext_effect c.turn s key pc
    simp only [Caller.next] at h ⊢
    rw [congrArg Shared.placements heff.frame]
    rcases heff.entered h with hsame | hfree
    · exact hbef hsame
    · exact hfree
  | importer key path pc => simp [Caller.next, Caller.entered] at h

theorem purgeLedger_sound (k : Path) :
    (purgeLedger k).Sound Caller.next (fun _ _ _ => True) where
  symm := fun _ _ _ => trivial
  own := fun s a c _ ha _ _ => ⟨trivial, fun h => Caller.entered_next c h ha⟩
  frame := by
    intro s a b c _ _ hb _ hboth _ hin
    refine Caller.not_placed_of_next c a ?_ (hb hin)
    -- The other caller has its path registered, so no import registers it now.
    have hpos := Caller.registered_of_entered hin
    simp only [purgeLedger] at hboth
    exact List.count_pos_iff.mp (by omega)
  apart := fun _ _ _ _ _ _ _ _ => trivial
  account := fun s a c _ _ hheld => Caller.account_purges c s a k hheld

/-! ### The latch -/

def Caller.sweepWeight (a : Caller) : Nat := if a.sweeping then 1 else 0

def Shared.latch (s : Shared) : Nat := if s.busy then 1 else 0

theorem Shared.latch_congr (h : s'.busy = s.busy) : s'.latch = s.latch := by
  unfold Shared.latch
  rw [h]

theorem SweepRun.busy_record (run : SweepRun) (s : Shared) : (run.record s).1.busy = s.busy := by
  unfold SweepRun.record
  split <;> rfl

theorem SweepPc.sweeping_iff (a : SweepArgs) (pc : SweepPc) :
    Caller.sweepWeight (.sweep a pc) = if pc.run?.isSome then 1 else 0 := by
  cases pc <;> rfl

theorem sweepNext_latch (s : Shared) (args : SweepArgs) (pc : SweepPc)
    (hheld : Caller.sweepWeight (.sweep args pc) ≤ s.latch) :
    (sweepNext c s args pc).1.latch + Caller.sweepWeight (.sweep args pc) =
      s.latch + Caller.sweepWeight (.sweep args (sweepNext c s args pc).2) := by
  have hone : s.latch ≤ 1 := by
    unfold Shared.latch
    split <;> decide
  have hidle : ∀ {s : Shared}, s.busy = false → s.latch = 0 := fun h => by simp [Shared.latch, h]
  have htaken : ∀ {s : Shared}, s.busy = true → s.latch = 1 := fun h => by simp [Shared.latch, h]
  have hheffect := sweepNext_run c s args pc
  revert hheld
  generalize (sweepNext c s args pc).1 = s', (sweepNext c s args pc).2 = pc' at hheffect ⊢
  simp only [SweepPc.sweeping_iff]
  intro hheld
  -- The latch is taken where a run begins and given back where it ends.
  cases hheffect with
  | busy h => rfl
  | denied _ hfree hbusy | leased _ hfree hbusy => rw [hidle hfree, htaken hbusy]; rfl
  | goes _ _ run _ hrun hrun' _ _ _ hbusy => rw [Shared.latch_congr hbusy, hrun, hrun']
  | records _ _ run hrun hrun' => rw [Shared.latch_congr (run.busy_record s), hrun, hrun']; rfl
  | ends _ _ run _ hrun hrun' _ _ _ _ hbusy =>
    simp only [hrun, hrun', hidle hbusy, Option.isSome_some, Option.isSome_none] at hheld ⊢
    simp at hheld ⊢
    omega
  | endsDown _ run hrun =>
    simp only [hrun] at hheld ⊢
    have hzero := hidle (s := (run.record s).2.close (run.record s).1) rfl
    simp [SweepPc.run?] at hheld ⊢
    omega
  | finished _ _ _ hrun _ hrun' _ _ _ _ hbusy => rw [Shared.latch_congr hbusy, hrun, hrun']

theorem Caller.account_sweeps (s : Shared) (a : Caller) (hheld : a.sweepWeight ≤ s.latch) :
    (a.next c s).1.latch + a.sweepWeight = s.latch + (a.next c s).2.sweepWeight := by
  cases a with
  | sweep args pc => exact sweepNext_latch c s args pc hheld
  | correction key pc =>
    have hbusy : (correctNext c.turn s key pc).1.busy = s.busy := by
      rw [congrArg Shared.busy (correctNext_effect c.turn s key pc).frame]
    exact congrArg (· + 0) (Shared.latch_congr hbusy)
  | importer key path pc =>
    have hbusy : (importNext c.turn s key path pc).1.busy = s.busy := by
      rw [congrArg Shared.busy (importNext_effect c.turn s key path pc).frame]
    exact congrArg (· + 0) (Shared.latch_congr hbusy)

def sweepLedger : Outline Shared Caller where
  Shared := fun _ => True
  Local := fun _ _ => True
  Apart := fun _ _ => True
  weight := Caller.sweepWeight
  held := Shared.latch

theorem sweepLedger_sound : sweepLedger.Sound Caller.next (fun _ _ _ => True) where
  symm := fun _ _ _ => trivial
  own := fun _ _ _ _ _ _ _ => ⟨trivial, trivial⟩
  frame := fun _ _ _ _ _ _ _ _ _ _ => trivial
  apart := fun _ _ _ _ _ _ _ _ => trivial
  account := fun s a c _ _ hheld => Caller.account_sweeps c s a hheld

/-! ### Runs -/

structure World.Accounted (w : World) : Prop where
  purges : ∀ k, (purgeLedger k).Holds w
  placements : ∀ k, (placementLedger k).Holds w
  sweeps : sweepLedger.Holds w

theorem World.Accounted.spawn (h : w.Accounted) (hpurge : ∀ k, a.purgeWeight k = 0)
    (hin : a.entered = none) (hplac : ∀ k, a.placementWeight k = 0)
    (hsweep : a.sweepWeight = 0) : World.Accounted (w.spawn a) := by
  refine ⟨fun k => ?_, fun k => ?_, ?_⟩
  · exact (h.purges k).spawn (fun _ _ _ => trivial)
      (fun hk => absurd hk (by simp [hin])) (fun _ _ => trivial) (hpurge k)
  · exact (h.placements k).spawn (fun _ _ _ => trivial) trivial (fun _ _ => trivial) (hplac k)
  · exact h.sweeps.spawn (fun _ _ _ => trivial) trivial (fun _ _ => trivial) hsweep

theorem World.Accounted.step {w' : World} {a : Action} (h : w.Accounted)
    (hstep : step w a = some w') : w'.Accounted := by
  cases a with
  | sweep args | report key =>
    cases hstep
    exact h.spawn (fun _ => rfl) rfl (fun _ => rfl) rfl
  | importInto key path =>
    cases hstep
    refine h.spawn (fun _ => rfl) rfl (fun k => ?_) rfl
    simp [Caller.placementWeight, Caller.placing, ImportPc.placing]
  | act i c =>
    exact ⟨fun k => (purgeLedger_sound k).act (h.purges k) (fun _ _ => trivial) hstep,
      fun k => (placementLedger_sound k).act (h.placements k) (fun _ _ => trivial) hstep,
      sweepLedger_sound.act h.sweeps (fun _ _ => trivial) hstep⟩
  | other v | vanish path =>
    cases hstep
    exact ⟨fun k => ⟨trivial, (h.purges k).locals, (h.purges k).apart, (h.purges k).account⟩,
      fun k => ⟨trivial, fun _ _ => trivial, (h.placements k).apart, (h.placements k).account⟩,
      ⟨trivial, fun _ _ => trivial, h.sweeps.apart, h.sweeps.account⟩⟩
  | crash =>
    cases hstep
    -- The registries die with the process, and so do all callers.
    exact ⟨fun k => ⟨trivial, fun _ ha => absurd ha nofun, List.Pairwise.nil, rfl⟩,
      fun k => ⟨trivial, fun _ _ => trivial, List.Pairwise.nil, rfl⟩,
      ⟨trivial, fun _ _ => trivial, List.Pairwise.nil, rfl⟩⟩

theorem accounted_of_idle (db : Db) (trees : List Path) : (World.idle db trees).Accounted :=
  ⟨fun _ => ⟨trivial, fun _ ha => absurd ha nofun, List.Pairwise.nil, rfl⟩,
    fun _ => ⟨trivial, fun _ _ => trivial, List.Pairwise.nil, rfl⟩,
    ⟨trivial, fun _ _ => trivial, List.Pairwise.nil, rfl⟩⟩

theorem World.Accounted.not_placing (h : w.Accounted) {b : Caller} (ha : a ∈ w.actors)
    (hb : b ∈ w.actors) (hin : a.entered = some k) : b.placing k = false := by
  cases hplac : b.placing k with
  | false => rfl
  | true =>
    -- A placing import has registered the path, which the purge has found free.
    have hfree := (h.purges k).locals a ha hin
    have hone : (placementLedger k).weight b = 1 := if_pos hplac
    have hsum := Outline.weight_le_sum (placementLedger k).weight hb
    rw [hone, (h.placements k).account] at hsum
    exact absurd (List.count_pos_iff.mp hsum) hfree

-- Two callers are not sweeps that are both under way.
theorem World.Accounted.standsBeside (h : w.Accounted) (i : Nat) :
    w.StandsBeside (fun a b => a.sweepWeight + b.sweepWeight ≤ 1) i := by
  intro a b j hne hi hj
  have hpair := h.sweeps.pair_le hi hj hne.symm
  have hone : sweepLedger.held w.shared ≤ 1 := by
    show (if w.shared.busy then 1 else 0) ≤ 1
    split <;> decide
  exact Nat.le_trans hpair hone

end Eviction

end PlexManager
