import PlexManager.Lib.Transition
import PlexManager.Theory.Coordinator.View

/-!
# Maintenance mutual exclusion

An install replaces the container the critical work runs in, so the two must
never overlap. The coordinator keeps them apart with rows that expire: a drain
refuses new critical leases while it lives, and reports ready only once the
old ones are gone.

The invariant that carries this has two clauses. There is at most one drain
row; and while the phase is `installing` or `rollback`, a drain row is there
and no critical row is. The second clause needs the first half of itself:
critical work could slip in only after the drain row is gone, and the sweep
that removes an expired drain row takes the phase back to idle in the same
transaction.

## Theorems

* `maintenance_exclusion`: The guarantee over all runs.
-/

namespace PlexManager

namespace Coordinator

open UpdateRecovery Transition CoordinatorView

/-- The phases in which the application container is being replaced. -/
def replacingPhase : CoordinatorPhase → Bool
  | .installing | .rollback => true
  | _ => false

structure Exclusive (v : CoordinatorView) : Prop where
  one_drain : v.leases.countP isDrain ≤ 1
  replacing : replacingPhase v.phase = true → v.hasDrain ∧ ∀ l ∈ v.leases, isCritical l = false

/-- A world no operation has run in yet: no leases, and no container being
    replaced. A fresh database is one, and so is any stored row between two
    updates. -/
def Fresh (w : CoordinatorWorld) : Prop :=
  w.db.leases = [] ∧ replacingPhase w.db.state.phase = false

variable (now : Int) (v : CoordinatorView) (w : CoordinatorWorld) (db : CoordinatorDb)
  (tokenHash : TokenHash) (ttl : Int)

theorem exclusive_of_fresh (h : Fresh w) : Exclusive (view w.db) where
  one_drain := by simp [h.1]
  replacing hph := by
    rw [view_phase, h.2] at hph
    exact absurd hph (by decide)

@[simp] theorem isDrain_renew (lease : MaintenanceLease) (renewedAt expiresAt : Int) :
    isDrain { lease with renewedAt, expiresAt } = isDrain lease := rfl

theorem mem_renewRows (tokenHash : TokenHash) (leases : List MaintenanceLease)
    (l : MaintenanceLease) (h : l ∈ renewRows now ttl tokenHash leases) :
    ∃ old ∈ leases, l.kind = old.kind ∧ l.actionGeneration = old.actionGeneration ∧
      l.tokenHash = old.tokenHash := by
  simp only [renewRows, List.mem_map] at h
  rcases h with ⟨old, hold, heq⟩
  refine ⟨old, hold, ?_⟩
  split at heq
  · rw [← heq]
    exact ⟨rfl, rfl, rfl⟩
  · rw [← heq]
    exact ⟨rfl, rfl, rfl⟩

theorem countP_renewRows (tokenHash : TokenHash) (leases : List MaintenanceLease) :
    (renewRows now ttl tokenHash leases).countP isDrain = leases.countP isDrain := by
  rw [renewRows, List.countP_map]
  refine List.countP_congr fun l _ => ?_
  simp only [Function.comp_apply]
  split
  · rw [isDrain_renew]
  · rfl

theorem no_critical_renewRows (tokenHash : TokenHash)
    (leases : List MaintenanceLease) (h : ∀ l ∈ leases, isCritical l = false) :
    ∀ l ∈ renewRows now ttl tokenHash leases, isCritical l = false := by
  intro l hl
  rcases mem_renewRows now ttl tokenHash leases l hl with ⟨old, hold, hkind, -⟩
  have := h old hold
  simpa only [isCritical, hkind] using this

theorem hasDrain_renewRows (tokenHash : TokenHash)
    (leases : List MaintenanceLease) (h : ∃ l ∈ leases, isDrain l = true) :
    ∃ l ∈ renewRows now ttl tokenHash leases, isDrain l = true := by
  rcases h with ⟨l, hl, hdr⟩
  refine ⟨_, List.mem_map.mpr ⟨l, hl, rfl⟩, ?_⟩
  split
  · exact hdr
  · exact hdr

theorem exclusive_of_settled (hone : v.leases.countP isDrain ≤ 1)
    (hph : replacingPhase v.phase = false) : Exclusive v where
  one_drain := hone
  replacing h := by
    rw [hph] at h
    exact absurd h (by decide)

-- Sweeping the leases keeps the invariant: a drain row it removes takes a replacing phase with
-- it.
theorem exclusive_expire (h : Exclusive v) :
    Exclusive (v.expire now) where
  one_drain := Nat.le_trans (List.Sublist.countP_le List.filter_sublist) h.one_drain
  replacing := by
    intro hph
    simp only [CoordinatorView.expire] at hph
    by_cases hexp : v.drainExpired now = true
    · rw [hexp, Bool.true_and] at hph
      by_cases hdr : drainPhase v.phase = true
      · rw [if_pos hdr] at hph
        exact absurd hph (by decide)
      · rw [if_neg hdr] at hph
        exact absurd hdr (by cases hp : v.phase <;> simp_all [drainPhase, replacingPhase])
    · rw [Bool.not_eq_true] at hexp
      rw [hexp, Bool.false_and, if_neg Bool.false_ne_true] at hph
      rcases h.replacing hph with ⟨⟨l, hl, hldrain⟩, hcrit⟩
      refine ⟨⟨l, (mem_expire now v l).mpr ⟨hl, ?_⟩, hldrain⟩, ?_⟩
      · -- The drain row is not among the expired ones.
        simp only [CoordinatorView.drainExpired, List.any_eq_false, Bool.and_eq_true,
          decide_eq_true_eq, not_and, Int.not_le] at hexp
        exact hexp l hl hldrain
      · intro m hm
        exact hcrit m ((mem_expire now v m).mp hm).1

theorem exclusive_of_same (v' : CoordinatorView) (h : Exclusive v) (hls : v'.leases = v.leases)
    (hph : v'.phase = v.phase) : Exclusive v' where
  one_drain := by rw [hls]; exact h.one_drain
  replacing := by
    rw [hph, CoordinatorView.hasDrain, hls]
    exact h.replacing

theorem replacingPhase_phaseForResult (result : UpdateResult) :
    replacingPhase (phaseForResult result) = false := by
  cases result <;> rfl

theorem countP_filter_token_le (leases : List MaintenanceLease) (tokenHash : TokenHash) :
    (leases.filter fun l => l.tokenHash != tokenHash).countP isDrain ≤ leases.countP isDrain :=
  List.Sublist.countP_le List.filter_sublist

theorem countP_drain_eq_zero (h : ¬ v.hasDrain) : v.leases.countP isDrain = 0 := by
  rw [List.countP_eq_zero]
  intro l hl hdr
  exact h ⟨l, hl, hdr⟩

theorem exclusive_of_viewStep {now : Int} {v v' : CoordinatorView} {op : CoordinatorOp}
    (hstep : ViewStep now v op v') (h : Exclusive v) : Exclusive v' := by
  have hexp := exclusive_expire now v h
  cases hstep with
  | stutter => exact h
  | expire => exact hexp
  | observe => exact exclusive_of_same _ _ hexp (by simp) (by simp)
  | dispatch hbusy | request action hidle hnone => exact exclusive_of_same _ _ h rfl rfl
  | touchMissed phase g => exact exclusive_of_same _ _ h (by simp) (by simp)
  | touch phase g hknown =>
    cases phase with
    | none => exact exclusive_of_same _ _ h (by simp [CoordinatorView.enter]) rfl
    | some p =>
      exact exclusive_of_settled _ (by simpa [CoordinatorView.enter] using h.one_drain) rfl
  | grantCritical tokenHash owner operation ttl row hkind hdr =>
    have hzero := countP_drain_eq_zero _ hdr
    refine exclusive_of_settled _ ?_ ?_
    · simp [List.countP_append, hzero, isDrain, hkind]
    · -- With the container being replaced there would be a drain row.
      refine Bool.eq_false_iff.mpr fun hph => ?_
      exact hdr (hexp.replacing hph).1
  | claimDrain tokenHash owner g materialize requireIdle ttl w row hkind hgen hknown hdr hw =>
    have hls : w.leases = (v.expire now).leases := by
      rcases hw with hw | hw
      · rw [hw]
      · rw [hw]
    have hzero := countP_drain_eq_zero _ hdr
    refine exclusive_of_settled _ ?_ rfl
    simp [hls, List.countP_append, hzero, isDrain, hkind]
  | renew tokenHash ttl =>
    refine ⟨?_, ?_⟩
    · simpa only [countP_renewRows] using hexp.one_drain
    · intro hph
      rcases hexp.replacing hph with ⟨hdr, hcrit⟩
      exact ⟨hasDrain_renewRows _ _ _ _ hdr, no_critical_renewRows _ _ _ _ hcrit⟩
  | progress tokenHash ttl phase ready hrdy hdr =>
    refine ⟨?_, ?_⟩
    · simpa only [countP_renewRows] using hexp.one_drain
    · intro hph
      refine ⟨hasDrain_renewRows _ _ _ _ hdr, no_critical_renewRows _ _ _ _ ?_⟩
      -- Either the renewal was ready, or a replacing phase was kept.
      cases phase with
      | some p =>
        cases hr : ready with
        | true => exact hrdy.mp hr
        | false =>
          rw [hr] at hph
          simp [CoordinatorView.enter, drainProgressPhase, replacingPhase] at hph
      | none =>
        simp only [CoordinatorView.enter, drainProgressPhase, Option.map_none] at hph
        by_cases hkeep : drainPhase (v.expire now).phase = true
        · rw [if_pos hkeep] at hph
          exact (hexp.replacing hph).2
        · rw [if_neg hkeep] at hph
          exact absurd hph (by decide)
  | releaseCritical tokenHash lease hlease hkind =>
    refine exclusive_of_settled _ (Nat.le_trans (countP_filter_token_le _ _) hexp.one_drain) ?_
    -- There is a critical row, so no container is being replaced.
    refine Bool.eq_false_iff.mpr fun hph => ?_
    have hcrit := (hexp.replacing hph).2 lease hlease
    cases hk : lease.kind with
    | critical => simp [isCritical, hk] at hcrit
    | drain => simp [isDrain, hk] at hkind
  | releaseDrain tokenHash lease hlease hkind =>
    exact exclusive_of_settled _ (Nat.le_trans (countP_filter_token_le _ _) hexp.one_drain) rfl
  | reset recoveryMaxAge fence phase startedAt action hph hdr =>
    refine exclusive_of_settled _ (by simpa using hexp.one_drain) ?_
    rcases hph with hph | ⟨-, hph⟩
    · rw [hph]
      rfl
    · cases phase <;> simp_all [busyCoordinatorPhase, replacingPhase]
  | checkOutcome result errorCode imageValues preserveAction hknown =>
    exact exclusive_of_settled _ h.one_drain (replacingPhase_phaseForResult result)
  | installOutcome tokenHash fingerprint lease action hlease hkind hgen =>
    exact exclusive_of_settled _ (Nat.le_trans (countP_filter_token_le _ _) hexp.one_drain)
      (replacingPhase_phaseForResult _)

theorem step_eq_some (w' : CoordinatorWorld) (call : Int × CoordinatorOp)
    (h : step w call = some w') :
    w.clock ≤ call.1 ∧ w'.clock = call.1 ∧ w'.db = (perform call.2 call.1 w.db).1 := by
  unfold step at h
  split at h
  · simp at h
  cases h
  exact ⟨by omega, rfl, rfl⟩

theorem exclusive_of_run (t : CoordinatorWorld) (calls : List (Int × CoordinatorOp))
    (h : Exclusive (view w.db)) (hrun : run step w calls = some t) : Exclusive (view t.db) := by
  refine invariant_of_run (I := fun u => Exclusive (view u.db)) ?_ w t calls h hrun
  intro u call u' hu hstep
  rw [(step_eq_some u u' call hstep).2.2]
  exact exclusive_of_viewStep (viewStep_of_perform call.2 call.1 u.db) hu

/-! ### What the answers promise -/

theorem answered_eq_of_not_raised {α : Type} (answer : α → CoordinatorAnswer)
    (db : CoordinatorDb) (body : CoordinatorDb → Except CoordinationError (CoordinatorDb × α))
    (reply : CoordinatorAnswer) (hreply : ∀ e, reply ≠ .raised e)
    (h : (answered answer db body).2 = reply) :
    ∃ a, body db = .ok ((answered answer db body).1, a) ∧ answer a = reply := by
  unfold answered at h ⊢
  split
  · rename_i db' a hbody
    rw [hbody] at h
    exact ⟨a, hbody, h⟩
  · rename_i e hbody
    rw [hbody] at h
    exact absurd h.symm (hreply e)

theorem perform_positiveTtl {ttl : Int} {db : CoordinatorDb}
    {call : CoordinatorDb × CoordinatorAnswer} {reply : CoordinatorAnswer}
    (hreply : ∀ e, reply ≠ .raised e) (h : (withPositiveTtl ttl db call).2 = reply) :
    withPositiveTtl ttl db call = call := by
  unfold withPositiveTtl at h ⊢
  split
  · rename_i httl
    rw [if_pos httl] at h
    exact absurd h.symm (hreply _)
  · rfl

-- A critical grant is decided after the sweep, so the drain it did not find can only be an
-- expired one.
theorem no_live_drain_of_grant (owner operation : String) (ttl : Int) (lease : MaintenanceLease)
    (h : (perform (.acquireCritical tokenHash owner operation ttl) now db).2 =
      .critical (some lease)) :
    ∀ l ∈ db.leases, isDrain l = true → l.expiresAt ≤ now := by
  have hne : ∀ e, CoordinatorAnswer.critical (some lease) ≠ .raised e := by simp
  simp only [perform] at h
  rw [perform_positiveTtl hne h] at h
  rcases answered_eq_of_not_raised _ _ _ _ hne h with ⟨a, hbody, ha⟩
  simp only [CoordinatorAnswer.critical.injEq] at ha
  rw [ha] at hbody
  simp only [acquireCritical] at hbody
  split at hbody
  · simp [pure, Except.pure] at hbody
  rename_i hdr
  intro l hl hldrain
  refine Int.not_lt.mp fun hlive => hdr ?_
  rw [activeDrain_isSome_iff]
  exact ⟨l, (mem_cleanupExpired now db l).mpr ⟨hl, hlive⟩, hldrain⟩

theorem no_critical_of_ready_claim
    (owner : String) (g : Option Nat) (materialize requireIdle : Bool) (ttl : Int)
    (lease : MaintenanceLease)
    (h : (perform (.claimDrain tokenHash owner g materialize requireIdle ttl) now db).2 =
      .drain (some (lease, true))) :
    ∀ l ∈ (perform (.claimDrain tokenHash owner g materialize requireIdle ttl) now db).1.leases,
      isCritical l = false := by
  have hne : ∀ e, CoordinatorAnswer.drain (some (lease, true)) ≠ .raised e := by simp
  simp only [perform] at h ⊢
  have hcall := perform_positiveTtl hne h
  rw [hcall] at h ⊢
  rcases answered_eq_of_not_raised _ _ _ _ hne h with ⟨a, hbody, ha⟩
  simp only [CoordinatorAnswer.drain.injEq] at ha
  rw [ha] at hbody
  simp only [claimDrain] at hbody
  rw [requireKnownPhase_bind] at hbody
  replace hbody := hbody.2
  split at hbody
  · simp [pure, Except.pure] at hbody
  split at hbody
  · simp [pure, Except.pure] at hbody
  split at hbody
  · simp [pure, Except.pure] at hbody
  split at hbody
  · simp [pure, Except.pure] at hbody
  rcases insertLease_bind _ _ _ _ hbody with ⟨-, hok⟩
  have hpair := Prod.mk.inj (Except.ok.inj hok)
  have hrdy := (Prod.mk.inj (Option.some.inj hpair.2)).2
  rw [beq_iff_eq, criticalCount_eq_zero_iff] at hrdy
  rw [← hpair.1]
  exact hrdy

theorem no_critical_of_ready_progress (phase : Option RenewPhase)
    (h : (perform (.renewDrainProgress tokenHash ttl phase) now db).2 = .progress (some true)) :
    ∀ l ∈ (perform (.renewDrainProgress tokenHash ttl phase) now db).1.leases,
      isCritical l = false := by
  have hne : ∀ e, CoordinatorAnswer.progress (some true) ≠ .raised e := by simp
  simp only [perform] at h ⊢
  have hcall := perform_positiveTtl hne h
  rw [hcall] at h ⊢
  rcases answered_eq_of_not_raised _ _ _ _ hne h with ⟨a, hbody, ha⟩
  simp only [CoordinatorAnswer.progress.injEq] at ha
  rw [ha] at hbody
  simp only [renewDrainProgress] at hbody
  rw [requireKnownPhase_bind] at hbody
  replace hbody := hbody.2
  split at hbody
  · simp [pure, Except.pure] at hbody
  have hpair := Prod.mk.inj (Except.ok.inj hbody)
  have hrdy := Option.some.inj hpair.2
  rw [beq_iff_eq, criticalCount_eq_zero_iff] at hrdy
  rw [← hpair.1]
  exact no_critical_renewRows _ _ _ _ hrdy

/-- A lease the tables still hold at a time before it runs out. -/
def Unexpired (db : CoordinatorDb) (now : Int) (l : MaintenanceLease) : Prop :=
  l ∈ db.leases ∧ now < l.expiresAt

/-- Installs and critical work exclude each other in every run: there is one
    drain row at most, a replacing phase has no critical lease beside it, a
    critical grant has no live drain beside it, and a claim or renewal that
    reports ready has no critical lease beside it. -/
theorem maintenance_exclusion (w t : CoordinatorWorld) (calls : List (Int × CoordinatorOp))
    (hfresh : Fresh w) (hrun : run step w calls = some t) :
    t.db.leases.countP isDrain ≤ 1 ∧
    (t.db.state.phase = .installing ∨ t.db.state.phase = .rollback →
      ∀ now l, Unexpired t.db now l → isCritical l = false) ∧
    (∀ now tokenHash owner operation ttl lease,
      (perform (.acquireCritical tokenHash owner operation ttl) now t.db).2 =
          .critical (some lease) →
        ∀ l, Unexpired t.db now l → isDrain l = false) ∧
    (∀ now tokenHash owner g materialize requireIdle ttl lease,
      (perform (.claimDrain tokenHash owner g materialize requireIdle ttl) now t.db).2 =
          .drain (some (lease, true)) →
        ∀ l, Unexpired
            (perform (.claimDrain tokenHash owner g materialize requireIdle ttl) now t.db).1 now l →
          isCritical l = false) ∧
    (∀ now tokenHash ttl phase,
      (perform (.renewDrainProgress tokenHash ttl phase) now t.db).2 = .progress (some true) →
        ∀ l, Unexpired (perform (.renewDrainProgress tokenHash ttl phase) now t.db).1 now l →
          isCritical l = false) := by
  have hinv := exclusive_of_run w t calls (exclusive_of_fresh w hfresh) hrun
  refine ⟨hinv.one_drain, ?_, ?_, ?_, ?_⟩
  · intro hph now l hl
    refine (hinv.replacing ?_).2 l hl.1
    rcases hph with hph | hph
    · rw [view_phase, hph]
      rfl
    · rw [view_phase, hph]
      rfl
  · intro now tokenHash owner operation ttl lease hgrant l hl
    refine Bool.eq_false_iff.mpr fun hdr => ?_
    have hexp := no_live_drain_of_grant now t.db tokenHash owner operation ttl lease hgrant
      l hl.1 hdr
    exact absurd hl.2 (Int.not_lt.mpr hexp)
  · intro now tokenHash owner g materialize requireIdle ttl lease hrdy l hl
    exact no_critical_of_ready_claim now t.db tokenHash owner g materialize requireIdle ttl lease
      hrdy l hl.1
  · intro now tokenHash ttl phase hrdy l hl
    exact no_critical_of_ready_progress now t.db tokenHash ttl phase hrdy l hl.1

/-- A run in which a critical lease runs out under a drain that the next
    renewal reports ready. -/
def handover : List (Int × CoordinatorOp) :=
  [(0, .acquireCritical 1 "plex-manager" "import" 300),
    (1, .requestAction .install),
    (2, .claimDrain 2 "container-updater" (some 1) false false 600),
    (301, .renewDrainProgress 2 600 (some .installing))]

theorem maintenance_exclusion_of_handover :
    ∃ t, run step ⟨⟨{}, []⟩, 0⟩ handover = some t ∧ t.db.state.phase = .installing ∧
      ∀ now l, Unexpired t.db now l → isCritical l = false := by
  refine ⟨_, rfl, rfl, ?_⟩
  exact (maintenance_exclusion ⟨⟨{}, []⟩, 0⟩ _ handover ⟨rfl, rfl⟩ rfl).2.1 (.inl rfl)

end Coordinator

end PlexManager
