import PlexManager.Theory.Eviction.Protection
import PlexManager.Theory.Eviction.Registries
import PlexManager.Theory.Eviction.Writes

/-!
# Sweeps for pressure and corrections

A sweep for pressure frees space that a correction under the same root may free
as well. So it holds a lease on its root, which it is denied where a path under
the root is registered already, and which a correction revokes in the step that
registers its path. The sweep looks at the lease before each victim, and twice
where it deletes, around the arming of the marker. Nothing is awaited after the
second look until the thread starts.

There is one sweep at a time, so all the leases there are belong to the sweep
under way. A lease that was revoked stays revoked, and it is gone when the sweep
is.

A row whose eviction is given up is taken back to `available`. One whose delete
was put off for an import is not: it stays claimed, for the next recovery.

## Theorems

* `pressure_stands_down`: What holds of sweeps for pressure in every run.
* `sweep_leaves_claimed`: A row whose delete is put off is not given back.
-/

namespace PlexManager

namespace Eviction

open KeyedTable Interleaving Transition

/-! ### The lease of the sweep under way -/

structure Leased (s : Shared) (a : SweepArgs) (run : SweepRun) : Prop where
  leases : (run.lease = none ∧ s.leases = []) ∨
    ∃ revoked, run.lease = some run.id ∧
      s.leases = [{ id := run.id, ownsPath := a.ownsPath, revoked }]
  started : run.id < s.nextSweep
  reports : s.stoodDown.count run.id = if run.recorded then 1 else 0

/-- The reports are of sweeps that were started, one for each at most, and
    without a sweep there are no leases. -/
structure Reported (s : Shared) : Prop where
  unleased : s.busy = false → s.leases = []
  started : ∀ id ∈ s.stoodDown, id < s.nextSweep
  once : s.stoodDown.Nodup

/-- What is asserted of a caller. A sweep for pressure chooses its victims only
    with a lease. -/
def Caller.Leased (s : Shared) : Caller → Prop
  | .sweep a pc => ∀ run, pc.run? = some run → Eviction.Leased s a run ∧
      (a.pressure = true → pc.retaining = true → run.lease ≠ none)
  | _ => True

variable {s s' : Shared} {a : SweepArgs} {w w' : World} {pc : SweepPc} {i : Nat} {x : Action}
  {c : Choice} {revokes : Path → Prop} {t : Turn} {lease : Option Nat}

theorem Leased.congr {run : SweepRun} (h : Leased s a run) (hls : s'.leases = s.leases)
    (hnext : s'.nextSweep = s.nextSweep) (hdown : s'.stoodDown = s.stoodDown) : Leased s' a run :=
  ⟨by rw [hls]; exact h.leases, by rw [hnext]; exact h.started, by rw [hdown]; exact h.reports⟩

theorem Leased.record {run : SweepRun} (h : Leased s a run) :
    Leased (run.record s).1 a (run.record s).2 := by
  unfold SweepRun.record
  split
  · exact h
  rename_i hnew
  refine ⟨h.leases, h.started, ?_⟩
  have hzero := h.reports
  rw [if_neg hnew] at hzero
  simp [List.count_append, hzero]

theorem Reported.record {run : SweepRun} (h : Reported s)
    (hrun : Leased s a run) : Reported (run.record s).1 := by
  unfold SweepRun.record
  split
  · exact h
  rename_i hnew
  refine ⟨h.unleased, fun id hid => ?_, ?_⟩
  · rcases List.mem_append.mp hid with hid | hid
    · exact h.started id hid
    · rw [List.mem_singleton.mp hid]
      exact hrun.started
  · refine List.nodup_append.mpr ⟨h.once, by simp, fun id hid id' hid' heq => ?_⟩
    have hzero := hrun.reports
    rw [if_neg hnew, List.count_eq_zero] at hzero
    rw [List.mem_singleton.mp hid'] at heq
    exact hzero (heq ▸ hid)

theorem Leased.released {run : SweepRun} (h : Leased s a run) :
    (s.leases.filter fun l => some l.id ≠ run.lease) = [] := by
  rcases h.leases with ⟨-, hnil⟩ | ⟨revoked, hls, hone⟩
  · rw [hnil]
    rfl
  · rw [hone, hls]
    simp

theorem SweepRun.record_lease (run : SweepRun) (s : Shared) :
    (run.record s).2.lease = run.lease := by
  unfold SweepRun.record
  split <;> rfl

theorem Reported.congr (h : Reported s) (hls : s'.leases = s.leases)
    (hnext : s'.nextSweep = s.nextSweep) (hdown : s'.stoodDown = s.stoodDown)
    (hbusy : s'.busy = s.busy) : Reported s' :=
  ⟨by rw [hbusy, hls]; exact h.unleased, by rw [hdown, hnext]; exact h.started,
    by rw [hdown]; exact h.once⟩

theorem Reported.unreported (h : Reported s) : s.stoodDown.count s.nextSweep = 0 := by
  rw [List.count_eq_zero]
  exact fun hid => Nat.lt_irrefl _ (h.started _ hid)

theorem RunEffect.keeps {pc' : SweepPc} (heff : RunEffect s a pc s' pc') (hs : Reported s)
    (h : Caller.Leased s (.sweep a pc)) : Reported s' ∧ Caller.Leased s' (.sweep a pc') := by
  -- Only the start, the record and the end of a sweep touch leases and reports.
  cases heff with
  | busy hbusy => exact ⟨hs, fun run hrun => by cases hrun⟩
  | denied _ hidle hbusy hls hnext hdown hown =>
    refine ⟨⟨fun _ => hls.trans (hs.unleased hidle), ?_, by rw [hdown]; exact hs.once⟩, ?_⟩
    · intro id hid
      rw [hdown] at hid
      have := hs.started id hid
      omega
    · intro run hrun
      cases hrun
      refine ⟨⟨.inl ⟨rfl, hls.trans (hs.unleased hidle)⟩, by simp [hnext], ?_⟩, ?_⟩
      · rw [hdown]
        exact hs.unreported
      · exact fun _ hret => by cases hret
  | leased _ hidle hbusy hls hnext hdown hfree =>
    refine ⟨⟨fun h => (by cases hbusy.symm.trans h), ?_, by rw [hdown]; exact hs.once⟩, ?_⟩
    · intro id hid
      rw [hdown] at hid
      have := hs.started id hid
      omega
    · intro run hrun
      cases hrun
      refine ⟨⟨.inr ⟨false, rfl, ?_⟩, by simp [hnext], ?_⟩, ?_⟩
      · rw [hls, hs.unleased hidle]
        rfl
      · rw [hdown]
        exact hs.unreported
      · exact fun _ hret => by cases hret
  | goes _ _ run _ hrun hrun' hls hnext hdown hbusy hret =>
    refine ⟨hs.congr hls hnext hdown hbusy, fun run' heq => ?_⟩
    obtain rfl : run = run' := Option.some.inj (hrun'.symm.trans heq)
    refine ⟨(h run hrun).1.congr hls hnext hdown, fun hprs haft => ?_⟩
    rcases hret haft with hbef | hpro | ⟨hsome, -⟩
    · exact (h run hrun).2 hprs hbef
    · simp [SweepArgs.pressure, hpro] at hprs
    · intro hnone
      simp [hnone] at hsome
  | records _ _ run hrun hrun' hret =>
    refine ⟨hs.record (h run hrun).1, fun run' heq => ?_⟩
    obtain rfl := Option.some.inj (hrun'.symm.trans heq)
    refine ⟨(h run hrun).1.record, fun hprs _ => ?_⟩
    rw [SweepRun.record_lease]
    exact (h run hrun).2 hprs hret
  | ends _ _ run _ hrun hrun' hover hls hnext hdown hbusy =>
    refine ⟨⟨fun _ => hls.trans (h run hrun).1.released, ?_, by rw [hdown]; exact hs.once⟩,
      fun run' heq => by cases hrun'.symm.trans heq⟩
    rw [hdown, hnext]
    exact hs.started
  | endsDown _ run hrun =>
    have hrec := hs.record (h run hrun).1
    exact ⟨⟨fun _ => (h run hrun).1.record.released, hrec.started, hrec.once⟩,
      fun run' heq => by cases heq⟩
  | finished _ _ _ hrun hpc hrun' hpc' hls hnext hdown hbusy =>
    exact ⟨hs.congr hls hnext hdown hbusy, fun run' heq => by cases hrun'.symm.trans heq⟩

variable {key : RowKey}

theorem CorrectEffect.leases {pc pc' : CorrectPc} (h : CorrectEffect s key pc s' pc') :
    s'.leases = s.leases ∨ ∃ path, pc = .claim (some path) ∧ pc' = .rearm (some path) ∧
      s'.leases = (s.revokePressureExclusions path).leases := by
  cases h with
  | claimed path => exact .inr ⟨path, rfl, rfl, rfl⟩
  | rearmLost path t => cases path <;> exact .inl (by rw [Shared.transact_eq]; rfl)
  | purged path pc s' st hpurge =>
    rw [CorrectPc.ofPurge_eq, hpurge.frame]
    exact .inl rfl
  | settleLost path o t => exact .inl (by rw [Shared.transact_eq]; rfl)
  | orphaned path s' alive horph => exact .inl (by rw [horph.frame])
  | _ => exact .inl rfl

/-- What a step of another leaves to the sweep under way. It may revoke the lease
    for certain paths. -/
structure LeasesKept (s s' : Shared) (revokes : Path → Prop) : Prop where
  nextSweep : s'.nextSweep = s.nextSweep
  stoodDown : s'.stoodDown = s.stoodDown
  busy : s'.busy = s.busy
  leases : s'.leases = s.leases ∨
    ∃ path, revokes path ∧ s'.leases = (s.revokePressureExclusions path).leases

def Registers (a a' : Caller) (path : Path) : Prop :=
  ∃ key, a = .correction key (.claim (some path)) ∧ a' = .correction key (.rearm (some path))

theorem Caller.leases_next (c : Choice) {a : Caller} (hidle : a.sweepWeight = 0)
    (hbeg : ∀ args, a = .sweep args .start → s.busy = true) :
    LeasesKept s (a.next c s).1 (Registers a (a.next c s).2) := by
  cases a with
  | correction key pc =>
    have heff := correctNext_effect c.turn s key pc
    simp only [Caller.next]
    refine ⟨?_, ?_, ?_, ?_⟩
    · rw [congrArg Shared.nextSweep heff.frame]
    · rw [congrArg Shared.stoodDown heff.frame]
    · rw [congrArg Shared.busy heff.frame]
    · rcases heff.leases with hsame | ⟨path, rfl, hpc', hrev⟩
      · exact .inl hsame
      · exact .inr ⟨path, ⟨key, rfl, by rw [hpc']⟩, hrev⟩
  | importer key path pc =>
    have heff := importNext_effect c.turn s key path pc
    simp only [Caller.next]
    refine ⟨?_, ?_, ?_, .inl ?_⟩
    · rw [congrArg Shared.nextSweep heff.frame]
    · rw [congrArg Shared.stoodDown heff.frame]
    · rw [congrArg Shared.busy heff.frame]
    · rw [congrArg Shared.leases heff.frame]
  | sweep args pc =>
    rw [SweepPc.sweeping_iff] at hidle
    have heff := sweepNext_run c s args pc
    have hnone : ∀ {run}, pc.run? ≠ some run := by
      intro run hrun
      rw [hrun] at hidle
      simp at hidle
    have hbusy : pc = .start → s.busy = true := fun h => hbeg args (h ▸ rfl)
    simp only [Caller.next]
    generalize (sweepNext c s args pc).1 = s', (sweepNext c s args pc).2 = pc' at heff ⊢
    cases heff with
    | busy => exact ⟨rfl, rfl, rfl, .inl rfl⟩
    | denied _ hfree | leased _ hfree => cases (hbusy rfl).symm.trans hfree
    | goes _ _ run _ hrun => exact absurd hrun hnone
    | records _ _ run hrun | ends _ _ run _ hrun | endsDown _ run hrun => exact absurd hrun hnone
    | finished _ _ _ hrun hpc hrun' hpc' hls hnext hdown hbusy' =>
      exact ⟨hnext, hdown, hbusy', .inl hls⟩

theorem LeasesKept.leased {run : SweepRun} (hkept : LeasesKept s s' revokes)
    (h : Leased s a run) : Leased s' a run := by
  refine ⟨?_, by rw [hkept.nextSweep]; exact h.started, by rw [hkept.stoodDown]; exact h.reports⟩
  rcases hkept.leases with hsame | ⟨path, -, hrev⟩
  · rw [hsame]
    exact h.leases
  rw [hrev]
  rcases h.leases with ⟨hnone, hnil⟩ | ⟨revoked, hls, hone⟩
  · exact .inl ⟨hnone, by simp [Shared.revokePressureExclusions, hnil]⟩
  · refine .inr ⟨revoked || a.ownsPath path, hls, ?_⟩
    simp only [Shared.revokePressureExclusions, hone, List.map_cons, List.map_nil]
    cases a.ownsPath path <;> simp

theorem LeasesKept.reported (hkept : LeasesKept s s' revokes) (h : Reported s) : Reported s' := by
  refine ⟨fun hidle => ?_, ?_, ?_⟩
  · rw [hkept.busy] at hidle
    rcases hkept.leases with hsame | ⟨path, -, hrev⟩
    · rw [hsame]
      exact h.unleased hidle
    · rw [hrev]
      simp [Shared.revokePressureExclusions, h.unleased hidle]
  · rw [hkept.stoodDown, hkept.nextSweep]
    exact h.started
  · rw [hkept.stoodDown]
    exact h.once

def leaseOutline : Outline Shared Caller where
  Shared := Reported
  Local := fun s a => a.Leased s
  Apart := fun _ _ => True
  weight := Caller.sweepWeight
  held := Shared.latch

theorem Shared.latch_le_one (s : Shared) : s.latch ≤ 1 := by
  unfold Shared.latch
  split <;> decide

theorem idle_beside {a : Caller} {args : SweepArgs} {run : SweepRun} (hrun : pc.run? = some run)
    (hboth : a.sweepWeight + Caller.sweepWeight (.sweep args pc) ≤ s.latch) :
    a.sweepWeight = 0 ∧ s.busy = true := by
  rw [SweepPc.sweeping_iff, hrun] at hboth
  have hone := s.latch_le_one
  refine ⟨by simp only [Option.isSome_some, if_true] at hboth; omega, ?_⟩
  cases hbusy : s.busy with
  | true => rfl
  | false =>
    have hzero : s.latch = 0 := by simp [Shared.latch, hbusy]
    simp only [Option.isSome_some, if_true] at hboth
    omega

theorem leaseOutline_sound : leaseOutline.Sound Caller.next (fun _ _ _ => True) where
  symm := fun _ _ _ => trivial
  own := by
    intro s a c hs ha _ _
    cases a with
    | sweep args pc => exact (sweepNext_run c s args pc).keeps hs ha
    | correction key pc =>
      have hkept := Caller.leases_next c (s := s) (a := .correction key pc) rfl nofun
      exact ⟨hkept.reported hs, trivial⟩
    | importer key path pc =>
      have hkept := Caller.leases_next c (s := s) (a := .importer key path pc) rfl nofun
      exact ⟨hkept.reported hs, trivial⟩
  frame := by
    intro s a b c _ _ hb _ hboth _
    cases b with
    | correction key pc | importer key path pc => trivial
    | sweep args pc =>
      intro run hrun
      have hby := idle_beside hrun hboth
      have hkept := Caller.leases_next c hby.1 fun _ _ => hby.2
      exact ⟨hkept.leased (hb run hrun).1, (hb run hrun).2⟩
  apart := fun _ _ _ _ _ _ _ _ => trivial
  account := fun s a c _ _ hheld => Caller.account_sweeps c s a hheld

theorem leased_of_step {a : Action} (h : leaseOutline.Holds w)
    (hstep : step w a = some w') : leaseOutline.Holds w' := by
  have hspn : ∀ b : Caller, b.Leased w.shared → b.sweepWeight = 0 → w' = w.spawn b →
      leaseOutline.Holds w' := by
    rintro b hb hidle rfl
    exact h.spawn (fun _ _ _ => trivial) hb (fun _ _ => trivial) hidle
  have hsame : ∀ {s' : Shared}, w' = { w with shared := s' } →
      LeasesKept w.shared s' (fun _ => False) → leaseOutline.Holds w' := by
    rintro s' rfl hkept
    refine ⟨hkept.reported h.shared, fun b hb => ?_, h.apart, ?_⟩
    · have hloc := h.locals b hb
      cases b with
      | correction key pc | importer key path pc => trivial
      | sweep args pc =>
        exact fun run hrun => ⟨hkept.leased (hloc run hrun).1, (hloc run hrun).2⟩
    · exact h.account.trans (Shared.latch_congr hkept.busy).symm
  cases a with
  | sweep args =>
    refine hspn (.sweep args .start) ?_ rfl (Option.some.inj hstep).symm
    exact fun run hrun => absurd hrun nofun
  | report key =>
    exact hspn (.correction key .check) trivial rfl (Option.some.inj hstep).symm
  | importInto key path =>
    exact hspn (.importer key path .entering) trivial rfl (Option.some.inj hstep).symm
  | act i c => exact leaseOutline_sound.act h (fun _ _ => trivial) hstep
  | other v | vanish path => exact hsame (Option.some.inj hstep).symm ⟨rfl, rfl, rfl, .inl rfl⟩
  | crash =>
    cases hstep
    exact ⟨⟨fun _ => rfl, fun _ hid => absurd hid nofun, List.nodup_nil⟩,
      fun _ hb => absurd hb nofun, List.Pairwise.nil, rfl⟩

theorem leased_of_run {db : Db} {trees : List Path} {as : List Action}
    (hrun : run step (World.idle db trees) as = some w) : leaseOutline.Holds w := by
  refine invariant_of_run (fun _ _ _ h hstep => leased_of_step h hstep) (World.idle db trees) w as
    ?_ hrun
  exact ⟨⟨fun _ => rfl, fun _ hid => absurd hid nofun,
    List.nodup_nil⟩, fun _ hb => absurd hb nofun, List.Pairwise.nil, rfl⟩

/-! ### Sweeps that stand down -/

/-- The lease of a sweep was denied or revoked, or the sweep is over. -/
def StoodDown (s : Shared) (pc : SweepPc) : Prop :=
  pc ≠ .start ∧ ∀ run, pc.run? = some run → run.lease = none ∨ s.revoked run.lease = true

def RegistersIn (w : World) (x : Action) (w' : World) (path : Path) : Prop :=
  ∃ j c b b', x = .act j c ∧ w.actors[j]? = some b ∧ w'.actors[j]? = some b' ∧
    Registers b b' path

def ClaimsUnder (a : SweepArgs) (w : World) (x : Action) (w' : World) : Prop :=
  ∃ path, RegistersIn w x w' path ∧ a.ownsPath path = true

theorem LeasesKept.revoked (hkept : LeasesKept s s' revokes)
    (h : s.revoked lease = true) : s'.revoked lease = true := by
  unfold Shared.revoked at h ⊢
  rcases hkept.leases with hsame | ⟨path, -, hrev⟩
  · rw [hsame]
    exact h
  rw [hrev]
  rcases List.any_eq_true.mp h with ⟨l, hl, hmatch⟩
  simp only [Bool.and_eq_true, decide_eq_true_eq] at hmatch
  refine List.any_eq_true.mpr ⟨_, List.mem_map_of_mem hl, ?_⟩
  split
  · simp [hmatch.1]
  · simp [hmatch.1, hmatch.2]

variable {path : Path}

-- Only a path under the root of a sweep revokes its lease, and each does.
theorem Leased.revoked_after {run : SweepRun} (h : Leased s a run)
    (hrev : s'.leases = (s.revokePressureExclusions path).leases) :
    s'.revoked run.lease = (s.revoked run.lease || (a.ownsPath path && run.lease.isSome)) := by
  rcases h.leases with ⟨hnone, hnil⟩ | ⟨revoked, hls, hone⟩
  · simp [Shared.revoked, hrev, Shared.revokePressureExclusions, hnil, hnone]
  · cases howns : a.ownsPath path <;>
      simp [Shared.revoked, hrev, Shared.revokePressureExclusions, hone, hls, howns]

theorem actor_kept {b : Caller} (hat : w.actors[i]? = some b) (hstep : step w x = some w')
    (hcrash : x ≠ .crash) (hoth : ∀ c, x ≠ .act i c) : w'.actors[i]? = some b := by
  have hlt : i < w.actors.length := (List.getElem?_eq_some_iff.mp hat).1
  have hspn : ∀ y : Caller, w' = w.spawn y → w'.actors[i]? = some b := by
    rintro y rfl
    rw [World.spawn, List.getElem?_append_left hlt]
    exact hat
  cases x with
  | sweep args | report key | importInto key path => exact hspn _ (Option.some.inj hstep).symm
  | act j c =>
    simp only [step, World.act] at hstep
    split at hstep
    · simp at hstep
    cases hstep
    have hne : j ≠ i := fun h => hoth c (h ▸ rfl)
    rw [List.getElem?_set_ne hne]
    exact hat
  | other v | vanish path =>
    cases hstep
    exact hat
  | crash => exact absurd rfl hcrash

theorem leasesKept_of_step {run : SweepRun} (h : leaseOutline.Holds w)
    (hat : w.actors[i]? = some (.sweep a pc)) (hrun : pc.run? = some run)
    (hstep : step w x = some w') (hcrash : x ≠ .crash)
    (hoth : ∀ c, x ≠ .act i c) : LeasesKept w.shared w'.shared (RegistersIn w x w') := by
  cases x with
  | sweep args | report key | importInto key path | other v | vanish path =>
    cases hstep
    exact ⟨rfl, rfl, rfl, .inl rfl⟩
  | act j c =>
    have hne : j ≠ i := fun heq => hoth c (heq ▸ rfl)
    rcases World.act_eq_some_at hstep with ⟨b, before, after, hlen, hj, hact, rfl⟩
    have hby := idle_beside hrun (h.pair_le hj hat hne)
    have hkept := Caller.leases_next c hby.1 fun _ _ => hby.2
    refine ⟨hkept.nextSweep, hkept.stoodDown, hkept.busy, ?_⟩
    rcases hkept.leases with hsame | ⟨path, hreg, hrev⟩
    · exact .inl hsame
    · refine .inr ⟨path, ⟨j, c, b, (b.next c w.shared).2, rfl, hj, ?_, hreg⟩, hrev⟩
      rw [← hlen]
      simp
  | crash => exact absurd rfl hcrash

theorem RunEffect.stoodDown {pc' : SweepPc} (heff : RunEffect s a pc s' pc')
    (h : StoodDown s pc) : StoodDown s' pc' := by
  have hover : ∀ {s' : Shared} {pc' : SweepPc}, pc'.run? = none → pc' ≠ .start →
      StoodDown s' pc' := fun hnone hpc' =>
    ⟨hpc', fun run hrun => by cases hnone.symm.trans hrun⟩
  cases heff with
  | busy | denied | leased => exact absurd rfl h.1
  | goes _ _ run _ hrun hrun' hls =>
    refine ⟨fun hpc' => ?_, fun run' heq => ?_⟩
    · rw [hpc'] at hrun'
      simp [SweepPc.run?] at hrun'
    · obtain rfl : run = run' := Option.some.inj (hrun'.symm.trans heq)
      rcases h.2 run hrun with hnone | hrev
      · exact .inl hnone
      · refine .inr ?_
        unfold Shared.revoked at hrev ⊢
        rw [hls]
        exact hrev
  | records _ _ run hrun hrun' =>
    refine ⟨fun hpc' => ?_, fun run' heq => ?_⟩
    · rw [hpc'] at hrun'
      simp [SweepPc.run?] at hrun'
    · obtain rfl := Option.some.inj (hrun'.symm.trans heq)
      rw [SweepRun.record_lease]
      rcases h.2 run hrun with hnone | hrev
      · exact .inl hnone
      refine .inr ?_
      unfold SweepRun.record
      split
      · exact hrev
      · exact hrev
  | ends _ _ run _ hrun hrun' hpc' => exact hover hrun' hpc'
  | endsDown => exact hover rfl (by simp)
  | finished _ _ _ hrun hpc hrun' hpc' => exact hover hrun' hpc'

theorem StoodDown.step (hdown : StoodDown w.shared pc) (h : leaseOutline.Holds w)
    (hat : w.actors[i]? = some (.sweep a pc)) (hstep : step w x = some w')
    (hcrash : x ≠ .crash) : ∃ pc', w'.actors[i]? = some (.sweep a pc') ∧
      StoodDown w'.shared pc' := by
  by_cases hown : ∃ c, x = .act i c
  · rcases hown with ⟨c, rfl⟩
    have hlt := (List.getElem?_eq_some_iff.mp hat).1
    simp only [Eviction.step, World.act, hat, Option.some.injEq] at hstep
    subst hstep
    exact ⟨_, List.getElem?_set_self hlt, (sweepNext_run c w.shared a pc).stoodDown hdown⟩
  · have hoth : ∀ c, x ≠ .act i c := fun c heq => hown ⟨c, heq⟩
    refine ⟨pc, actor_kept hat hstep hcrash hoth, hdown.1, fun run hrun => ?_⟩
    rcases hdown.2 run hrun with hnone | hrev
    · exact .inl hnone
    · exact .inr ((leasesKept_of_step h hat hrun hstep hcrash hoth).revoked hrev)

theorem StoodDown.run {as : List Action} (hdown : StoodDown w.shared pc) (h : leaseOutline.Holds w)
    (hat : w.actors[i]? = some (.sweep a pc)) (hrun : run Eviction.step w as = some w')
    (hcrash : ∀ x ∈ as, x ≠ .crash) : ∃ pc', w'.actors[i]? = some (.sweep a pc') ∧
      StoodDown w'.shared pc' := by
  induction as generalizing w pc with
  | nil =>
    cases hrun
    exact ⟨pc, hat, hdown⟩
  | cons x as ih =>
    rcases (run_cons_eq_some _ _ _ _).mp hrun with ⟨u, hstep, hrest⟩
    rcases hdown.step h hat hstep (hcrash x List.mem_cons_self) with ⟨pc', hat', hdown'⟩
    exact ih hdown' (leased_of_step h hstep) hat' hrest fun y hy =>
      hcrash y (List.mem_cons_of_mem x hy)

theorem live_of_started {rows : Db} {r c : Bool}
    (h : EvictEffect s lease key path (.armed rows) s' (.purging (.deleting r c))) :
    s.revoked lease = false := by
  cases h with
  | started rows hlive => exact hlive

-- A sweep that stands down starts no thread to evict, if it is for pressure.
theorem StoodDown.spares {pc' : EvictPc} (hdown : StoodDown w.shared pc) (h : leaseOutline.Holds w)
    (hat : w.actors[i]? = some (.sweep a pc)) (hprs : a.pressure = true) :
    ¬ StartsDelete w i c key path pc' := by
  intro hbeg
  rcases hbeg.before with ⟨a', run, rest, pool, hat'⟩
  obtain ⟨rfl, rfl⟩ := Caller.sweep.inj (Option.some.inj (hat.symm.trans hat'))
  rcases hbeg.after with ⟨w', hstep, a', run', key', path', r, c', rest', pool', haft⟩
  have heff := evictEffect_of_act hstep hat haft
  have hlive : w.shared.revoked run.lease = false := by
    rcases armed_of_starts heff hbeg.idle with ⟨rows, rfl⟩
    exact live_of_started heff
  rcases hdown.2 run rfl with hnone | hrev
  · exact (h.locals _ (List.mem_of_getElem? hat) run rfl).2 hprs rfl hnone
  · exact absurd (hrev.symm.trans hlive) nofun

/-! ### Rows that are given back -/

def EvictPc.unstarted : EvictPc → Bool
  | .purging (.deleting _ _) => false
  | .twins _ _ | .coverage | .purging _ | .arm | .armed _ | .restore | .disarm
  | .disarmUnstarted => true
  | _ => false

/-- A row is no longer claimed and its marker not armed, and its path is where it
    was. -/
structure GivenBack (db db' : Db) (key : RowKey) : Prop where
  disarmed : ∀ r, db'.row key = some r → r.partialDeletePath = none ∧ r.status ≠ .evicted
  available : ∀ r, db.row key = some r → r.status = .evicted →
    ∃ r', db'.row key = some r' ∧ r'.status = .available ∧ r'.libraryPath = r.libraryPath

theorem givenBack_of_restore (db : Db) (key : RowKey) :
    GivenBack db (db.restoreAfterFailedDelete key) key := by
  constructor
  · intro r hr
    rw [row_restore_self] at hr
    rcases Option.map_eq_some_iff.mp hr with ⟨r₀, -, rfl⟩
    exact ⟨rfl, restoredStatus_ne_evicted r₀.key r₀.status⟩
  · intro r hr hevict
    refine ⟨r.restored, by rw [row_restore_self, hr]; rfl, ?_, rfl⟩
    simp [Row.restored, restoredStatus, hevict]

theorem purge_goes {pc : PurgePc} (hgoes : t.fate = .goes) (hpc : ∀ r c, pc ≠ .deleting r c)
    (fate : Fate) : EvictPc.ofPurge (purgeNext t s path pc).2 ≠ .ended fate := by
  cases pc with
  | entering =>
    simp only [purgeNext]
    split <;> simp [EvictPc.ofPurge]
  | guard =>
    simp only [purgeNext]
    split
    · simp [EvictPc.ofPurge]
    · simp [hgoes, EvictPc.ofPurge]
  | reclaim | gate => simp [purgeNext, hgoes, EvictPc.ofPurge]
  | deleting r c => exact absurd rfl (hpc r c)

-- An eviction that started no thread and was not cut short is over when it has given its row
-- back, unless its delete was put off or could not begin.
theorem evict_leaves {pc : EvictPc} {fate : Fate} (hunstarted : pc.unstarted = true)
    (hgoes : t.fate = .goes) (hend : (evictNext t s lease key path pc).2 = .ended fate) :
    (pc = .restore ∧ (evictNext t s lease key path pc).1.db = s.db.restoreAfterFailedDelete key) ∨
      pc = .disarm ∨ pc = .disarmUnstarted := by
  cases pc with
  | restore =>
    have hcom : t.commits = true := by
      cases t <;> first | rfl | simp [Turn.fate] at hgoes
    simp [evictNext, EvictPc.commit, Shared.transact, hcom]
  | disarm => exact .inr (.inl rfl)
  | disarmUnstarted => exact .inr (.inr rfl)
  | twins m last =>
    simp only [evictNext, hgoes] at hend
    split at hend
    · simp at hend
    split at hend <;> simp at hend
  | coverage =>
    simp only [evictNext, hgoes] at hend
    split at hend <;> simp at hend
  | arm =>
    simp only [evictNext, hgoes] at hend
    simp at hend
  | armed rows =>
    simp only [evictNext] at hend
    split at hend
    · simp [Turn.fate] at hgoes
    · split at hend
      · simp at hend
      split at hend <;> simp at hend
  | purging pc =>
    simp only [evictNext] at hend
    split at hend
    · simp at hend
    cases pc with
    | deleting r c => simp [EvictPc.unstarted] at hunstarted
    | _ => exact absurd hend (purge_goes hgoes (by simp) fate)
  | _ => simp [EvictPc.unstarted] at hunstarted

/-! ### What holds of every sweep for pressure -/

-- A sweep that stands down reports that when it looks at its lease for the last time, or
-- before it chooses.
theorem reports_of_close {run : SweepRun} (hprs : a.pressure = true)
    (hpc : pc = .reprobe run ∨ pc = .closing run) (hdown : StoodDown s pc)
    (h : Caller.Leased s (.sweep a pc)) :
    (sweepNext c s a pc).2 = .ended ∧ (sweepNext c s a pc).1.stoodDown.count run.id = 1 := by
  have hrep : (run.record s).1.stoodDown.count run.id = 1 := by
    have hrun : pc.run? = some run := by rcases hpc with rfl | rfl <;> rfl
    have hls := (h run hrun).1
    unfold SweepRun.record
    split
    · rename_i hrec
      rw [hls.reports, if_pos hrec]
    · rename_i hnew
      have hzero := hls.reports
      rw [if_neg hnew] at hzero
      simp [List.count_append, hzero]
  rcases hpc with rfl | rfl
  · have hlook : (!a.proactive && (run.lease.isNone || run.leaseDefeated s)) = true := by
      simp only [SweepArgs.pressure, Bool.and_eq_true, Bool.not_eq_true'] at hprs
      rcases hdown.2 run rfl with hnone | hrev
      · simp [hprs.1, hnone]
      · simp [hprs.1, SweepRun.leaseDefeated, hrev]
    simp only [sweepNext, if_pos hlook]
    exact ⟨rfl, hrep⟩
  · have hlook : run.leaseDefeated s = true := by
      rcases hdown.2 run rfl with hnone | hrev
      · exact absurd hnone ((h run rfl).2 hprs rfl)
      · exact hrev
    simp only [sweepNext, if_pos hlook]
    exact ⟨rfl, hrep⟩

theorem leases_of_registers (h : RegistersIn w x w' path) (hstep : step w x = some w') :
    w'.shared.leases = (w.shared.revokePressureExclusions path).leases := by
  rcases h with ⟨j, c, b, b', rfl, hj, hj', key, rfl, rfl⟩
  have hlt := (List.getElem?_eq_some_iff.mp hj).1
  simp only [step, World.act, hj, Option.some.injEq] at hstep
  subst hstep
  rw [List.getElem?_set_self hlt] at hj'
  have hpc := (Caller.correction.inj (Option.some.inj hj')).2
  have heff := correctNext_effect c.turn w.shared key (.claim (some path))
  simp only [Caller.next] at hpc ⊢
  rw [hpc] at heff
  generalize (correctNext c.turn w.shared key (.claim (some path))).1 = s' at heff ⊢
  cases heff with
  | claimed path => rfl

-- A correction that registers a path under the root of a sweep makes it stand down.
theorem stoodDown_of_claim (h : leaseOutline.Holds w) (hat : w.actors[i]? = some (.sweep a pc))
    (hpc : pc ≠ .start) (hstep : step w x = some w') (hcl : ClaimsUnder a w x w') :
    w'.actors[i]? = some (.sweep a pc) ∧ StoodDown w'.shared pc := by
  rcases hcl with ⟨path, hreg, howns⟩
  have hls := leases_of_registers hreg hstep
  rcases hreg with ⟨j, c, b, b', rfl, hj, -, key, rfl, -⟩
  have hoth : ∀ c', Action.act j c ≠ .act i c' := by
    rintro c' heq
    obtain ⟨rfl, -⟩ := Action.act.inj heq
    exact absurd (Option.some.inj (hj.symm.trans hat)) nofun
  refine ⟨actor_kept hat hstep nofun hoth, hpc, fun run hrun => ?_⟩
  have haft := (h.locals _ (List.mem_of_getElem? hat) run hrun).1.revoked_after hls
  cases hlease : run.lease with
  | none => exact .inl rfl
  | some id =>
    rw [← hlease, haft, howns, hlease]
    simp

theorem stoodDown_of_start (hat : w.actors[i]? = some (.sweep a .start))
    (hstep : step w (.act i c) = some w') (hpath : path ∈ w.shared.purges)
    (howns : a.ownsPath path = true) :
    ∃ pc', w'.actors[i]? = some (.sweep a pc') ∧ StoodDown w'.shared pc' := by
  have hlt := (List.getElem?_eq_some_iff.mp hat).1
  have heff := sweepNext_run c w.shared a .start
  simp only [step, World.act, hat, Option.some.injEq] at hstep
  subst hstep
  refine ⟨_, List.getElem?_set_self hlt, ?_⟩
  generalize (sweepNext c w.shared a .start).1 = s',
    (sweepNext c w.shared a .start).2 = pc' at heff ⊢
  cases heff with
  | busy => exact ⟨by simp, fun run hrun => by cases hrun⟩
  | denied =>
    refine ⟨by simp, fun run hrun => ?_⟩
    cases hrun
    exact .inl rfl
  | leased _ _ _ _ _ _ hfree =>
    have hany : w.shared.purges.any a.ownsPath = true := List.any_eq_true.mpr ⟨path, hpath, howns⟩
    cases hany.symm.trans hfree
  | goes _ _ run _ hrun => simp [SweepPc.run?] at hrun
  | records _ _ run hrun => simp [SweepPc.run?] at hrun
  | ends _ _ run _ hrun | endsDown _ run hrun => simp [SweepPc.run?] at hrun
  | finished _ _ _ hrun hpc => exact absurd rfl hpc

/-- A sweep for pressure, where it stands in a run. -/
structure StandsDown (w : World) (i : Nat) (a : SweepArgs) (pc : SweepPc) : Prop where
  /-- It starts no thread to evict once a correction has registered a path under
      its root, nor where one was registered when it started. -/
  spares : ∀ x w', step w x = some w' →
    (pc ≠ .start ∧ ClaimsUnder a w x w' ∨ pc = .start ∧ (∃ c, x = .act i c) ∧
      ∃ path ∈ w.shared.purges, a.ownsPath path = true) →
    ∀ as w'' c key path pc', (∀ y ∈ as, y ≠ .crash) → run step w' as = some w'' →
      ¬ StartsDelete w'' i c key path pc'
  /-- Where it looks at the lease before a delete and finds it revoked, it goes on
      to give the row back. -/
  givesUp : ∀ c w' run key path epc rest pool, step w (.act i c) = some w' →
    pc = .evicting run key path epc rest pool → w.shared.revoked run.lease = true →
    c.turn.fate = .goes → (epc = .purging .gate ∨ ∃ rows, epc = .armed rows) →
    w'.shared.db = w.shared.db ∧
      w'.actors[i]? = some (.sweep a (.evicting run key path .restore rest pool))
  /-- It leaves no row claimed for which it started no thread, unless the eviction
      was cut short, put off, or its thread could not be started. -/
  givesBack : ∀ c w' run key path epc rest pool pc', step w (.act i c) = some w' →
    pc = .evicting run key path epc rest pool → epc.unstarted = true → c.turn.fate = .goes →
    w'.actors[i]? = some (.sweep a pc') → pc'.inside = false →
    GivenBack w.shared.db w'.shared.db key ∨ epc = .disarm ∨ epc = .disarmUnstarted
  /-- It reports that it stands down where it looks at the lease before it chooses
      its victims, and at its end. -/
  reports : ∀ run c w', (pc = .reprobe run ∨ pc = .closing run) → StoodDown w.shared pc →
    step w (.act i c) = some w' → w'.actors[i]? = some (.sweep a .ended) ∧
      w'.shared.stoodDown.count run.id = 1
  /-- Only a correction under its root revokes its lease. -/
  revoked : ∀ run x w', pc.run? = some run → step w x = some w' → x ≠ .crash →
    (∀ c, x ≠ .act i c) → w.shared.revoked run.lease = false →
    w'.shared.revoked run.lease = true → ClaimsUnder a w x w'
  /-- It is denied a lease only where a path under its root is registered. -/
  denied : ∀ c w' run, pc = .start → step w (.act i c) = some w' →
    w'.actors[i]? = some (.sweep a (.probe run)) → run.lease = none →
    ∃ path ∈ w.shared.purges, a.ownsPath path = true

theorem sweep_of_act (hat : w.actors[i]? = some (.sweep a pc))
    (hstep : step w (.act i c) = some w') :
    w'.shared = (sweepNext c w.shared a pc).1 ∧
      w'.actors[i]? = some (.sweep a (sweepNext c w.shared a pc).2) := by
  have hlt := (List.getElem?_eq_some_iff.mp hat).1
  simp only [step, World.act, hat, Option.some.injEq] at hstep
  subst hstep
  exact ⟨rfl, List.getElem?_set_self hlt⟩

-- At either look at a revoked lease an eviction goes on to give its row back.
theorem evict_givesUp (key : RowKey) (path : Path) {pc : EvictPc} (hrev : s.revoked lease = true)
    (hgoes : t.fate = .goes) (hpc : pc = .purging .gate ∨ ∃ rows, pc = .armed rows) :
    evictNext t s lease key path pc = (s.unregister path, .restore) := by
  rcases hpc with rfl | ⟨rows, rfl⟩
  · simp [evictNext, purgeNext, hgoes, hrev]
  · simp only [evictNext]
    split
    · simp [Turn.fate] at hgoes
    · rw [if_pos hrev]

theorem standsDown_of_holds (h : leaseOutline.Holds w) (hat : w.actors[i]? = some (.sweep a pc))
    (hprs : a.pressure = true) : StandsDown w i a pc where
  spares := by
    intro x w' hstep hcase as w'' c key path pc' hcrash hrun
    -- It stands down from the step of the correction on, or from its own start.
    have hdown : ∃ pc', w'.actors[i]? = some (.sweep a pc') ∧ StoodDown w'.shared pc' := by
      rcases hcase with ⟨hpc, hcl⟩ | ⟨rfl, ⟨c, rfl⟩, path, hpath, howns⟩
      · exact ⟨pc, stoodDown_of_claim h hat hpc hstep hcl⟩
      · exact stoodDown_of_start hat hstep hpath howns
    rcases hdown with ⟨pc', hat', hdown'⟩
    have h' := leased_of_step h hstep
    rcases hdown'.run h' hat' hrun hcrash with ⟨pc'', hat'', hdown''⟩
    have h'' : leaseOutline.Holds w'' :=
      invariant_of_run (fun _ _ _ h hstep => leased_of_step h hstep) w' w'' as h' hrun
    exact hdown''.spares h'' hat'' hprs
  givesUp := by
    rintro c w' run key path epc rest pool hstep rfl hrev hgoes hepc
    rcases sweep_of_act hat hstep with ⟨hsh, haft⟩
    have hnext := evict_givesUp key path hrev hgoes hepc
    simp only [sweepNext, hnext, SweepPc.afterEviction] at hsh haft
    refine ⟨?_, haft⟩
    rw [hsh]
    rfl
  givesBack := by
    rintro c w' run key path epc rest pool pc' hstep rfl hunstarted hgoes haft hout
    rcases sweep_of_act hat hstep with ⟨hsh, haft'⟩
    obtain rfl := (Caller.sweep.inj (Option.some.inj (haft.symm.trans haft'))).2
    simp only [sweepNext] at hsh hout
    rcases SweepPc.afterEviction_cases (evictNext c.turn w.shared run.lease key path epc).1 run key
      path rest pool (evictNext c.turn w.shared run.lease key path epc).2 with
      ⟨hkept, ⟨fate, hend, -⟩ | ⟨removed, -, heq⟩ | heq⟩
    · rcases evict_leaves hunstarted hgoes hend with ⟨rfl, hdb⟩ | hput | hunstartable
      · refine .inl ?_
        rw [hsh, hkept.db, hdb]
        exact givenBack_of_restore w.shared.db key
      · exact .inr (.inl hput)
      · exact .inr (.inr hunstartable)
    · rw [heq] at hout
      simp [SweepPc.inside] at hout
    · rw [heq] at hout
      simp [SweepPc.inside] at hout
  reports := by
    intro run c w' hpc hdown hstep
    rcases sweep_of_act hat hstep with ⟨hsh, haft⟩
    have hclose := reports_of_close (c := c) hprs hpc hdown (h.locals _ (List.mem_of_getElem? hat))
    rw [hclose.1] at haft
    rw [hsh]
    exact ⟨haft, hclose.2⟩
  revoked := by
    intro run x w' hrun hstep hcrash hoth hlive hrev
    have hleased := (h.locals _ (List.mem_of_getElem? hat) run hrun).1
    rcases (leasesKept_of_step h hat hrun hstep hcrash hoth).leases with
      hsame | ⟨path, hreg, hls⟩
    · have hkept : w'.shared.revoked run.lease = w.shared.revoked run.lease := by
        unfold Shared.revoked
        rw [hsame]
      cases hrev.symm.trans (hkept.trans hlive)
    · refine ⟨path, hreg, ?_⟩
      rw [hleased.revoked_after hls, hlive] at hrev
      simp only [Bool.false_or, Bool.and_eq_true] at hrev
      exact hrev.1
  denied := by
    rintro c w' run rfl hstep haft hnone
    rcases sweep_of_act hat hstep with ⟨-, haft'⟩
    have hpc := (Caller.sweep.inj (Option.some.inj (haft.symm.trans haft'))).2
    have heff := sweepNext_run c w.shared a .start
    rw [← hpc] at heff
    generalize (sweepNext c w.shared a .start).1 = s' at heff
    cases heff with
    | denied _ _ _ _ _ _ hown => exact hown hprs
    | leased => simp at hnone
    | goes _ _ run _ hrun => simp [SweepPc.run?] at hrun
    | records _ _ run hrun | ends _ _ run _ hrun => simp [SweepPc.run?] at hrun
    | finished _ _ _ hrun hpc => exact absurd rfl hpc

/-- In every run each sweep for pressure stands down for corrections under its
    root. No sweep has reported that twice, and no lease outlives its sweep. -/
theorem pressure_stands_down {db : Db} {trees : List Path} {as : List Action} {w : World}
    (hrun : run step (World.idle db trees) as = some w) :
    (∀ i a pc, w.actors[i]? = some (.sweep a pc) → a.pressure = true → StandsDown w i a pc) ∧
      (∀ id, w.shared.stoodDown.count id ≤ 1) ∧
      ((∀ (i : Nat) (a : SweepArgs) (pc : SweepPc), w.actors[i]? = some (.sweep a pc) →
        pc.run? = none) → w.shared.leases = []) := by
  have h := leased_of_run hrun
  refine ⟨fun i a pc hat hprs => standsDown_of_holds h hat hprs, ?_, ?_⟩
  · exact fun id => List.nodup_iff_count.mp h.shared.once id
  · intro hover
    refine h.shared.unleased ?_
    cases hbusy : w.shared.busy with
    | false => rfl
    | true =>
      have hpos : 0 < leaseOutline.held w.shared := by
        simp [leaseOutline, Shared.latch, hbusy]
      rcases h.exists_weight hpos with ⟨b, hb, hwt⟩
      rcases List.getElem?_of_mem hb with ⟨i, hi⟩
      cases b with
      | correction key pc | importer key path pc => exact absurd hwt (Nat.lt_irrefl 0)
      | sweep a pc =>
        have hzero : leaseOutline.weight (.sweep a pc) = 0 := by
          show Caller.sweepWeight (.sweep a pc) = 0
          rw [SweepPc.sweeping_iff, hover i a pc hi]
          rfl
        omega

/-! ### A correction during an eviction -/

def reportedMovie : Row :=
  { key := .movie 2
    status := .available
    libraryPath := some "/movies/Other (2001)" }

def twoMovies : Db where
  rows := ⟨[watchedMovie, reportedMovie], by decide⟩
  tmdbId := fun id => 10 * id
  keepForever := []
  watchlist := []
  downloads := ⟨[], Downloads.slots_nil, Downloads.seasonal_nil, Downloads.claimed_nil⟩
  history := []

def twoMoviesWorld : World := World.idle twoMovies ["/movies/Film (1999)", "/movies/Other (2001)"]

/-- Whether a correction by the second actor registers a path under the root of
    the first, a sweep for pressure that evicts. -/
def claimsUnderFirst (w w' : World) : Option Bool :=
  match (w.actors[0]? : Option Caller), (w.actors[1]? : Option Caller),
    (w'.actors[1]? : Option Caller) with
  | some (.sweep a (.evicting _ _ _ _ _ _)), some (.correction key (.claim (some path))),
    some (.correction key' (.rearm (some path'))) =>
      some (key' = key ∧ path' = path ∧ a.pressure = true ∧ a.ownsPath path = true)
  | _, _, _ => none

/-- A correction that comes while an eviction waits for its permit spares the
    movie. -/
theorem corrected_sweep_spares :
    ∃ w w', run step twoMoviesWorld (evictsUpToPermit ++ [.report (.movie 2), .act 1 {}]) = some w ∧
      step w (.act 1 {}) = some w' ∧ ∀ as w'' c key path pc, (∀ y ∈ as, y ≠ .crash) →
        run step w' as = some w'' → ¬ StartsDelete w'' 0 c key path pc := by
  have hcl : ((run step twoMoviesWorld
      (evictsUpToPermit ++ [.report (.movie 2), .act 1 {}])).bind fun w =>
        (step w (.act 1 {})).bind (claimsUnderFirst w)) = some true := by
    decide +kernel
  rcases Option.bind_eq_some_iff.mp hcl with ⟨w, hw, hrest⟩
  rcases Option.bind_eq_some_iff.mp hrest with ⟨w', hw', hgot⟩
  refine ⟨w, w', hw, hw', ?_⟩
  unfold claimsUnderFirst at hgot
  split at hgot
  · rename_i hat hj hj'
    simp only [Option.some.injEq, decide_eq_true_eq] at hgot
    rcases hgot with ⟨rfl, rfl, hprs, howns⟩
    have hstand := (pressure_stands_down hw).1 0 _ _ hat hprs
    refine hstand.spares (.act 1 {}) w' hw' (.inl ⟨by simp, ?_⟩)
    exact ⟨_, ⟨1, {}, _, _, rfl, hj, hj', _, rfl, rfl⟩, howns⟩
  · simp at hgot

/-- A sweep claims the first movie. An import has begun to place files there, so
    its delete is put off, and meanwhile the other movie is reported. -/
def putsOffEviction : List Action :=
  .sweep movieSweep :: List.replicate 14 (.act 0 {}) ++ .act 0 { selected := [.movie 1] } ::
    List.replicate 12 (.act 0 {}) ++
    [.importInto (.movie 1) "/movies/Film (1999)", .act 1 {}, .act 0 {}, .report (.movie 2),
      .act 2 {}, .act 2 {}, .act 0 {}, .act 0 {}, .act 0 {}, .act 0 {}]

/-- What is left of the first movie when the first actor, a sweep, is over, and
    the reports. -/
def leftClaimed (w : World) : Option (Option Row × List Path × List Nat) :=
  match (w.actors[0]? : Option Caller) with
  | some (.sweep _ .ended) =>
      some (w.shared.db.row (.movie 1), w.shared.trees, w.shared.stoodDown)
  | _ => none

/-- The sweep ends in the ordinary way and has reported that it stands down. The
    movie that it had claimed is whole, and it is still claimed. -/
theorem sweep_leaves_claimed :
    (∀ y ∈ putsOffEviction, y ≠ .crash) ∧ ∃ w, run step twoMoviesWorld putsOffEviction = some w ∧
      leftClaimed w = some (some { watchedMovie with status := .evicted },
        ["/movies/Film (1999)", "/movies/Other (2001)"], [0]) := by
  exact ⟨by simp [putsOffEviction], Option.bind_eq_some_iff.mp (by decide +kernel)⟩

end Eviction

end PlexManager
