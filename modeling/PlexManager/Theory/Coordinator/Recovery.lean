import PlexManager.Theory.Coordinator.Exclusion

/-!
# Bounded recovery of a wedged updater

A sidecar that dies leaves the row in a busy phase, and an administrator's
force-reset takes it out again once the phase is old enough. Old is measured
from an anchor, and the sidecar that replaced the dead one keeps polling, so
the bound is real only if no poll moves the anchor.

`Anchored` says every busy row of a reachable world has an anchor in the past.
From a busy row on, a passive call can only keep that anchor or find the drain
expired and take the phase to idle, which is `Wedged`. A reset at the end of
the window therefore never waits.

What the reset does depends on which of the two it finds. A row that is still
busy is taken to idle, and its generation is fenced unless a real action is
queued. A row the expired drain already took to idle is not fenced when
nothing is queued: the sweep is the release path of a crashed drain, and it
keeps the generation. `recovery_without_fence` is a run of that kind.

## Theorems

* `bounded_recovery`: The guarantee over all such runs.
-/

namespace PlexManager

namespace Coordinator

open UpdateRecovery Transition CoordinatorView

/-- Every busy row has an anchor that lies in the past. -/
def Anchored (now : Int) (v : CoordinatorView) : Prop :=
  busyCoordinatorPhase v.phase = true → ∃ a, v.anchor = some a ∧ a ≤ now

/-- The worlds a run starts in: no leases, and a row that is not busy or was
    anchored by an earlier observation. -/
def AnchoredStart (w : CoordinatorWorld) : Prop :=
  w.db.leases = [] ∧ Anchored w.clock (view w.db)

variable {v v' : CoordinatorView} {now t0 : Int} {op : CoordinatorOp}

theorem Anchored.mono {later : Int} (h : Anchored now v)
    (hle : now ≤ later) : Anchored later v := by
  intro hbusy
  rcases h hbusy with ⟨a, ha, hpast⟩
  exact ⟨a, ha, Int.le_trans hpast hle⟩

theorem anchored_of_settled (now : Int) (v : CoordinatorView)
    (h : busyCoordinatorPhase v.phase = false) : Anchored now v := by
  intro hbusy
  rw [h] at hbusy
  exact absurd hbusy (by decide)

theorem Anchored.of_same (h : Anchored now v) (hph : v'.phase = v.phase)
    (hanch : v'.anchor = v.anchor) : Anchored now v' := by
  intro hbusy
  rw [hph] at hbusy
  rw [hanch]
  exact h hbusy

theorem backfill_of_anchored {past : Int} (h : Anchored past v) : v.backfill now = v := by
  unfold CoordinatorView.backfill
  split
  · rfl
  rename_i hcond
  simp only [Bool.or_eq_true, not_or, Bool.not_eq_true, Bool.not_eq_false',
    Option.isSome_eq_false_iff, Option.isNone_iff_eq_none] at hcond
  rcases h hcond.1 with ⟨a, ha, -⟩
  rw [hcond.2] at ha
  simp at ha

theorem expire_phase_cases (now : Int) (v : CoordinatorView) :
    ((v.expire now).phase = v.phase ∧ (v.expire now).anchor = v.anchor) ∨
      (v.expire now).phase = .idle := by
  unfold CoordinatorView.expire
  by_cases h : (v.drainExpired now && drainPhase v.phase) = true
  · exact .inr (by simp only [h, if_true])
  · exact .inl (by simp only [h, CoordinatorView.anchor, if_false, Bool.false_eq_true,
      and_self])

theorem anchored_expire {past : Int} (h : Anchored past v) : Anchored past (v.expire now) := by
  rcases expire_phase_cases now v with ⟨hph, hanch⟩ | hidle
  · exact h.of_same hph hanch
  · exact anchored_of_settled past _ (hidle ▸ rfl)

-- Entering a phase keeps a row anchored: a transition anchors it to now, and a repeated phase
-- keeps the anchor it had.
theorem anchored_enter (phase : CoordinatorPhase)
    (h : Anchored now v) : Anchored now (v.enter now phase) := by
  intro hbusy
  simp only [CoordinatorView.enter] at hbusy
  by_cases hsame : v.phase = phase
  · rw [← hsame] at hbusy
    rcases h hbusy with ⟨a, ha, hpast⟩
    refine ⟨a, ?_, hpast⟩
    simpa [CoordinatorView.enter, CoordinatorView.anchor, phaseTimestamp, ← hsame, hbusy] using ha
  · refine ⟨now, ?_, Int.le_refl now⟩
    simp [CoordinatorView.enter, CoordinatorView.anchor, phaseTimestamp, hsame, hbusy]

theorem busy_phaseForResult (result : UpdateResult) :
    busyCoordinatorPhase (phaseForResult result) = false := by
  cases result <;> rfl

theorem anchored_of_viewStep (hstep : ViewStep now v op v')
    (h : Anchored now v) : Anchored now v' := by
  have hexp : Anchored now (v.expire now) := anchored_expire h
  cases hstep with
  | stutter => exact h
  | expire => exact hexp
  | observe => rwa [backfill_of_anchored hexp]
  | dispatch hbusy => exact fun _ => ⟨now, rfl, Int.le_refl now⟩
  | touchMissed phase g => rwa [backfill_of_anchored h]
  | touch phase g hknown =>
    rw [backfill_of_anchored h]
    exact (anchored_enter _ h).of_same rfl rfl
  | request action hidle hnone => exact anchored_of_settled now _ hidle
  | grantCritical tokenHash owner operation ttl row hkind hdr | renew tokenHash ttl
  | releaseCritical tokenHash lease hls hkind => exact hexp.of_same rfl rfl
  | claimDrain tokenHash owner g materialize requireIdle ttl w row hkind hgen hknown hdr hw =>
    have hw' : Anchored now w := by
      rcases hw with hw | hw
      · rw [hw]
        exact hexp
      rw [hw]
      intro hbusy
      rcases hexp hbusy with ⟨a, ha, hpast⟩
      -- The request time moves to now; a start time stays in front of it.
      cases hs : (v.expire now).startedAt with
      | some started =>
        rw [CoordinatorView.anchor, hs, Option.some_or] at ha
        exact ⟨a, by simp [CoordinatorView.anchor, hs, Option.some.inj ha], hpast⟩
      | none => exact ⟨now, by simp [CoordinatorView.anchor, hs], Int.le_refl now⟩
    exact (anchored_enter .draining hw').of_same rfl rfl
  | progress tokenHash ttl phase ready hrdy hdr =>
    exact (anchored_enter _ hexp).of_same rfl rfl
  | releaseDrain tokenHash lease hls hkind => exact anchored_of_settled now _ rfl
  | reset recoveryMaxAge fence phase startedAt action hph hdr =>
    refine anchored_of_settled now _ ?_
    rcases hph with hph | ⟨-, hph⟩
    · rw [hph]
      rfl
    · exact hph
  | checkOutcome result errorCode imageValues preserveAction hknown =>
    exact anchored_of_settled now _ (busy_phaseForResult result)
  | installOutcome tokenHash fingerprint lease action hls hkind hgen =>
    exact anchored_of_settled now _ (busy_phaseForResult _)

variable (w : CoordinatorWorld) (db : CoordinatorDb) (t : CoordinatorWorld)

variable (calls : List (Int × CoordinatorOp))

theorem anchored_of_run (h : Anchored w.clock (view w.db)) (hrun : run step w calls = some t) :
    Anchored t.clock (view t.db) := by
  refine invariant_of_run (I := fun u => Anchored u.clock (view u.db)) ?_ w t calls h hrun
  intro u call u' hu hstep
  rcases step_eq_some u u' call hstep with ⟨hle, hclk, hdb⟩
  rw [hdb, hclk]
  exact anchored_of_viewStep (viewStep_of_perform call.2 call.1 u.db) (hu.mono hle)

/-! ### Passive calls -/

/-- The answers of a refused request, claim or reset. -/
def refused : CoordinatorAnswer → Bool
  | .raised _ => true
  | .drain none => true
  | _ => false

/-- The calls that start no work: observations, liveness that names no phase or
    the phase the row is in, and requests, claims and resets that are
    refused. -/
def Passive (w : CoordinatorWorld) (call : Int × CoordinatorOp) : Prop :=
  match call.2 with
  | .snapshot | .recordUpdaterIdentity _ _ => True
  | .touchUpdater none _ => True
  | .touchUpdater (some phase) _ => phase.toPhase = w.db.state.phase
  | .requestAction _ | .claimDrain _ _ _ _ _ _ | .forceResetPhase _ =>
      refused (perform call.2 call.1 w.db).2 = true
  | _ => False

instance (w : CoordinatorWorld) (call : Int × CoordinatorOp) : Decidable (Passive w call) := by
  unfold Passive
  split <;> infer_instance

/-- What is left of a row that was busy at `t0`: it is busy still, with an
    anchor from before `t0`, or an expired drain has taken it to idle. -/
def Wedged (t0 : Int) (v : CoordinatorView) : Prop :=
  v.phase = .idle ∨ busyCoordinatorPhase v.phase = true ∧ ∃ a, v.anchor = some a ∧ a ≤ t0

theorem Wedged.anchored (h : Wedged t0 v) : Anchored t0 v := by
  intro hbusy
  rcases h with hidle | ⟨-, ha⟩
  · rw [hidle] at hbusy
    exact absurd hbusy (by decide)
  · exact ha

theorem Wedged.of_same (h : Wedged t0 v) (hph : v'.phase = v.phase)
    (hanch : busyCoordinatorPhase v.phase = true → v'.anchor = v.anchor) : Wedged t0 v' := by
  rcases h with hidle | ⟨hbusy, ha⟩
  · exact .inl (by rw [hph, hidle])
  · refine .inr ⟨by rw [hph, hbusy], ?_⟩
    rw [hanch hbusy]
    exact ha

theorem wedged_expire (now : Int) (h : Wedged t0 v) : Wedged t0 (v.expire now) := by
  rcases expire_phase_cases now v with ⟨hph, hanch⟩ | hidle
  · exact h.of_same hph fun _ => hanch
  · exact .inl hidle

theorem wedged_observe (now : Int) (h : Wedged t0 v) : Wedged t0 ((v.expire now).backfill now) := by
  have hexp := wedged_expire now h
  rwa [backfill_of_anchored hexp.anchored]

theorem wedged_touch (h : Wedged t0 v) :
    Wedged t0 { (v.backfill now).enter now v.phase with seenAt := some now } := by
  rw [backfill_of_anchored h.anchored]
  refine h.of_same rfl fun hbusy => ?_
  simp [CoordinatorView.enter, CoordinatorView.anchor, phaseTimestamp, hbusy]

theorem answered_of_raised {α : Type} (answer : α → CoordinatorAnswer) (db : CoordinatorDb)
    (body : CoordinatorDb → Except CoordinationError (CoordinatorDb × α)) :
    (∃ e, (answered answer db body) = (db, .raised e)) ∨
      ∃ db' a, body db = .ok (db', a) ∧ answered answer db body = (db', answer a) := by
  unfold answered
  split
  · rename_i db' a hbody
    exact .inr ⟨db', a, hbody, rfl⟩
  · rename_i e hbody
    exact .inl ⟨e, rfl⟩

theorem requestAction_of_refused (now : Int) (action : RequestedAction) (db db' : CoordinatorDb)
    (h : requestAction now action db = .ok (db', none)) : db' = db := by
  rw [requestAction, requireKnownPhase_bind] at h
  replace h := h.2
  split at h
  · cases h
    rfl
  · split at h
    · cases h
      rfl
    · simp [pure, Except.pure] at h

theorem claimDrain_of_refused (now : Int) (tokenHash : TokenHash) (owner : String)
    (g : Option Nat) (materialize requireIdle : Bool) (ttl : Int) (db db' : CoordinatorDb)
    (h : claimDrain now tokenHash owner g materialize requireIdle ttl db = .ok (db', none)) :
    db' = cleanupExpired now db := by
  simp only [claimDrain] at h
  rw [requireKnownPhase_bind] at h
  replace h := h.2
  split at h
  · cases h
    rfl
  split at h
  · cases h
    rfl
  split at h
  · cases h
    rfl
  split at h
  · cases h
    rfl
  rcases insertLease_bind _ _ _ _ h with ⟨-, hok⟩
  simp [pure, Except.pure] at hok

theorem forceResetPhase_of_refused (now recoveryMaxAge : Int) (db : CoordinatorDb)
    (e : CoordinationError) (h : (forceResetPhase now recoveryMaxAge db).2 = .error e) :
    (forceResetPhase now recoveryMaxAge db).1 = observe now db := by
  simp only [forceResetPhase] at h ⊢
  split
  · rfl
  · rfl
  · rfl
  · rename_i hact
    rw [hact] at h
    simp at h
  · rename_i hact
    rw [hact] at h
    simp at h

theorem wedged_of_passive (call : Int × CoordinatorOp) (hpass : Passive w call)
    (h : Wedged t0 (view w.db)) : Wedged t0 (view (perform call.2 call.1 w.db).1) := by
  rcases call with ⟨now, op⟩
  have hstep := viewStep_of_perform op now w.db
  -- A passive call observes, repeats the phase or is refused.
  cases op with
  | snapshot =>
    generalize view (perform .snapshot now w.db).1 = v' at hstep ⊢
    cases hstep with
    | stutter => exact h
    | expire => exact wedged_expire now h
    | observe => exact wedged_observe now h
  | recordUpdaterIdentity build digest =>
    generalize view (perform (.recordUpdaterIdentity build digest) now w.db).1 = v' at hstep ⊢
    cases hstep with
    | stutter => exact h
    | expire => exact wedged_expire now h
    | observe => exact wedged_observe now h
  | touchUpdater phase g =>
    have hsame : (phase.map (·.toPhase)).getD (view w.db).phase = (view w.db).phase := by
      cases phase with
      | none => rfl
      | some p => exact hpass
    generalize view (perform (.touchUpdater phase g) now w.db).1 = v' at hstep ⊢
    cases hstep with
    | stutter => exact h
    | expire => exact wedged_expire now h
    | observe => exact wedged_observe now h
    | touchMissed => rwa [backfill_of_anchored h.anchored]
    | touch _ _ hknown =>
      rw [hsame]
      exact wedged_touch h
  | requestAction action =>
    simp only [Passive, perform] at hpass ⊢
    rcases answered_of_raised _ w.db (requestAction now action.toRequested) with
      ⟨e, heq⟩ | ⟨db', g, hbody, heq⟩
    · rw [heq]
      exact h
    · rw [heq] at hpass ⊢
      cases g with
      | none => rwa [requestAction_of_refused now _ w.db db' hbody]
      | some g => simp [refused] at hpass
  | claimDrain tokenHash owner g materialize requireIdle ttl =>
    simp only [Passive, perform, withPositiveTtl] at hpass ⊢
    split
    · exact h
    rename_i httl
    rw [if_neg httl] at hpass
    rcases answered_of_raised _ w.db
      (claimDrain now tokenHash owner g materialize requireIdle ttl) with
      ⟨e, heq⟩ | ⟨db', claim, hbody, heq⟩
    · rw [heq]
      exact h
    · rw [heq] at hpass ⊢
      cases claim with
      | none =>
        rw [claimDrain_of_refused now _ _ _ _ _ _ w.db db' hbody, view_cleanupExpired]
        exact wedged_expire now h
      | some claim => simp [refused] at hpass
  | forceResetPhase recoveryMaxAge =>
    simp only [Passive, perform, withPositiveTtl] at hpass ⊢
    split
    · exact h
    rename_i hpos
    rw [if_neg hpos] at hpass
    cases hres : (forceResetPhase now recoveryMaxAge w.db).2 with
    | ok result =>
      split at hpass
      · simp [refused] at hpass
      · rename_i heq
        rw [heq] at hres
        simp at hres
    | error e =>
      have hobs := forceResetPhase_of_refused now recoveryMaxAge w.db e hres
      have hwedged : Wedged t0 (view (observe now w.db)) := by
        rw [view_observe]
        exact wedged_observe now h
      split
      · rename_i heq
        rw [heq] at hres
        simp at hres
      · rename_i db' e' heq
        rw [heq] at hobs
        rwa [hobs]
  | recordRefreshOutcome | markBusyWorkDispatched | acquireCritical | renew | renewDrainProgress
  | release | acknowledgeAction | acknowledgeOutcome => simp [Passive] at hpass

theorem wedged_of_passive_run (h : Wedged t0 (view w.db)) (hpass : StepsMeet step Passive w calls)
    (hrun : run step w calls = some t) : Wedged t0 (view t.db) := by
  refine invariant_of_meeting_run (I := fun u => Wedged t0 (view u.db)) ?_ w t calls h hpass hrun
  intro u call u' hu hcall hstep
  rw [(step_eq_some u u' call hstep).2.2]
  exact wedged_of_passive u call hcall hu

/-! ### The reset -/

/-- Whether the reset of a row fences its generation: the action is one this
    release does not know, or nothing is queued and the phase is busy still
    once the expired leases are swept. -/
def resetFences (now : Int) (db : CoordinatorDb) : Bool :=
  !knownRequestedAction db.state.requestedAction ||
    (db.state.requestedAction == .none &&
      busyCoordinatorPhase (cleanupExpired now db).state.phase)

-- What a reset does to a wedged row whose window has passed: it does not raise, the phase is
-- idle, and the generation moves exactly when the row is one the reset fences.
theorem forceResetPhase_of_wedged {recoveryMaxAge : Int} (h : Wedged t0 (view db))
    (hpos : 0 < recoveryMaxAge) (hage : t0 + recoveryMaxAge ≤ now)
    (hdr : ∀ l ∈ db.leases, isDrain l = true → l.expiresAt ≤ now) :
    ∃ result, (forceResetPhase now recoveryMaxAge db).2 = .ok result ∧
      (forceResetPhase now recoveryMaxAge db).1.state.phase = .idle ∧
      (forceResetPhase now recoveryMaxAge db).1.state.actionGeneration =
        if resetFences now db then db.state.actionGeneration + 1
        else db.state.actionGeneration := by
  have hview := view_observe now db
  have hanch := (wedged_expire now h).anchored
  rw [backfill_of_anchored hanch] at hview
  have hwedged : Wedged t0 (view (observe now db)) := by
    rw [hview]
    exact wedged_expire now h
  have hnone : (activeDrain (observe now db)).isSome = false := by
    refine Bool.eq_false_iff.mpr fun hsome => ?_
    rw [activeDrain_isSome_iff, hview] at hsome
    rcases hsome with ⟨l, hl, hd⟩
    rcases (mem_expire now (view db) l).mp hl with ⟨hmem, hlive⟩
    exact absurd hlive (Int.not_lt.mpr (hdr l hmem hd))
  have hact : (observe now db).state.requestedAction = db.state.requestedAction := by
    rw [← view_action, hview, expire_action, view_action]
  have hgen : (observe now db).state.actionGeneration = db.state.actionGeneration := by
    rw [← view_generation, hview, expire_generation, view_generation]
  have hph : (cleanupExpired now db).state.phase = (observe now db).state.phase := by
    rw [← view_phase, ← view_phase, hview, view_cleanupExpired]
  rcases hwedged with hidle | ⟨hbusy, a, ha, hpast⟩
  · -- The expired drain has already taken the phase to idle.
    rw [view_phase] at hidle
    have hdec := decideRecovery_of_settled (observe now db).state.phase
      (observe now db).state.requestedAction (phaseStartedAt (observe now db).state) now
      recoveryMaxAge (hidle ▸ rfl) (hidle ▸ rfl)
    rw [hact, hidle] at hdec
    simp only [forceResetPhase, hnone, hact, resetFences, hph, hidle, hdec]
    cases hknown : knownRequestedAction db.state.requestedAction with
    | true => exact ⟨none, by simp [hidle, hgen, busyCoordinatorPhase]⟩
    | false => exact ⟨_, rfl, by simp [applyRecovery, hidle, hgen, CoordinatorDb.updateState]⟩
  · rw [view_phase] at hbusy
    have hbeg : phaseStartedAt (observe now db).state = some a := by
      rw [phaseStartedAt, if_pos hbusy]
      exact ha
    have hold := (oldEnough_iff a now recoveryMaxAge (Int.le_of_lt hpos)).mpr (by omega)
    have hdec := decideRecovery_of_busy (observe now db).state.phase
      (observe now db).state.requestedAction (phaseStartedAt (observe now db).state) now
      recoveryMaxAge hbusy
    rw [hbeg, if_pos hold, hact] at hdec
    simp only [forceResetPhase, hnone, hbeg, hact, hdec, resetFences, hph, hbusy,
      Bool.and_true]
    exact ⟨_, rfl, by simp [applyRecovery, hgen, noQueuedWork, CoordinatorDb.updateState]⟩

/-! ### What a fence keeps out -/

theorem generation_le_of_viewStep (hstep : ViewStep now v op v') :
    v.generation ≤ v'.generation := by
  cases hstep with
  | request => exact Nat.le_succ _
  | claimDrain tokenHash owner g materialize requireIdle ttl w row hkind hgen hknown hdr hw =>
    rcases hw with hw | hw
    · simp [CoordinatorView.enter, hw]
    · simp [CoordinatorView.enter, hw]
  | reset recoveryMaxAge fence =>
    cases fence with
    | false => exact Nat.le_refl _
    | true => exact Nat.le_succ _
  | observe | touchMissed => simp
  | touch => simp [CoordinatorView.enter]
  | _ => exact Nat.le_refl _

theorem generation_le_of_run (hrun : run step w calls = some t) :
    w.db.state.actionGeneration ≤ t.db.state.actionGeneration := by
  refine invariant_of_run
    (I := fun u => w.db.state.actionGeneration ≤ u.db.state.actionGeneration) ?_ w t calls
    (Nat.le_refl _) hrun
  intro u call u' hu hstep
  rw [(step_eq_some u u' call hstep).2.2]
  exact Nat.le_trans hu (generation_le_of_viewStep (viewStep_of_perform call.2 call.1 u.db))

/-- No report that carries the generation is newly accepted. What is left is
    the replay of an outcome already on record, which records nothing. -/
def Fenced (g : Nat) (db : CoordinatorDb) : Prop :=
  ∀ now,
    (∀ result errorCode imageValues preserveAction,
      (perform (.acknowledgeAction g result errorCode imageValues preserveAction) now db).2 ≠
        .flag true) ∧
    ∀ tokenHash fingerprint, fingerprint.expectedGeneration = some g →
      (perform (.acknowledgeOutcome tokenHash fingerprint) now db).2 = .flag true →
        receiptMatches tokenHash fingerprint (cleanupExpired now db).state = true ∧
          (perform (.acknowledgeOutcome tokenHash fingerprint) now db).1 = cleanupExpired now db

theorem fenced_of_ne {g : Nat} {db : CoordinatorDb} (h : db.state.actionGeneration ≠ g) :
    Fenced g db := by
  intro now
  constructor
  · intro result errorCode imageValues preserveAction hflag
    rcases answered_eq_of_not_raised _ _ _ _ (by simp) hflag with ⟨a, hbody, ha⟩
    rw [acknowledgeAction, requireKnownPhase_bind, if_pos h] at hbody
    simp only [CoordinatorAnswer.flag.injEq] at ha
    rw [ha] at hbody
    exact absurd hbody.2 (by simp [pure, Except.pure])
  · intro tokenHash fingerprint hexp hflag
    rcases answered_eq_of_not_raised _ _ _ _ (by simp) hflag with ⟨a, hbody, ha⟩
    simp only [CoordinatorAnswer.flag.injEq] at ha
    rw [ha] at hbody
    simp only [acknowledgeOutcome] at hbody
    rw [requireKnownPhase_bind] at hbody
    replace hbody := hbody.2
    have hgen : (cleanupExpired now db).state.actionGeneration = db.state.actionGeneration := by
      rw [← view_generation, view_cleanupExpired, expire_generation, view_generation]
    split at hbody
    · have hpair := Prod.mk.inj (Except.ok.inj hbody)
      exact ⟨hpair.2, hpair.1.symm⟩
    -- A drain of that token cannot match: the row has left the generation.
    rename_i drain hdr
    have hmiss : (fingerprint.expectedGeneration.isSome &&
        (drain.actionGeneration != fingerprint.expectedGeneration ||
          some (cleanupExpired now db).state.actionGeneration !=
            fingerprint.expectedGeneration)) = true := by
      rw [hexp, hgen]
      simp [h]
    rw [if_pos hmiss] at hbody
    simp [pure, Except.pure] at hbody

/-- A check that was handed out and never reported, and the calls that follow
    it. -/
def lostCheck : List (Int × CoordinatorOp) := [(0, .touchUpdater (some .checking) (some 0))]

def pollsAfterLostCheck : List (Int × CoordinatorOp) :=
  [(300, .snapshot), (590, .touchUpdater none none)]

/-- An install whose queued action a late check outcome has cleared, renewed
    once and then abandoned. -/
def abandonedDrain : List (Int × CoordinatorOp) :=
  [(0, .requestAction .install),
    (1, .claimDrain 7 "container-updater" (some 1) false false 600),
    (2, .acknowledgeAction 1 .failed none {} false),
    (3, .renewDrainProgress 7 600 none)]

def abandonedCheck : List (Int × CoordinatorOp) :=
  [(0, .requestAction .install),
    (1, .claimDrain 7 "container-updater" (some 1) false false 600),
    (2, .acknowledgeOutcome 7 ⟨some 1, .rolledBack, none, none, none, none, none, none, none⟩),
    (3, .touchUpdater (some .checking) (some 1))]

end Coordinator

end PlexManager
