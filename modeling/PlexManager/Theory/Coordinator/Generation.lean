import PlexManager.Theory.Coordinator.Exclusion

/-!
# The generation a drain lease was granted for

An install outcome is accepted only while the row still carries the generation
its drain lease was granted for. The row guards that generation indirectly:
`requestAction` bumps it only when the phase is not busy and nothing is
queued, and a drain is supposed to keep one of the two from being so.

A check outcome does not look at the drain. One that arrives late, after the
drain of the same generation was claimed, takes the phase out of the busy set
and clears the queue, and the next request then bumps the generation under the
live lease. `StrayCheckOutcome` names that step. In a run without one, every
live drain lease carries the generation of the row, and `drain_generation_stable`
concludes that its holder can always report.

## Theorems

* `drain_generation_stable`: The guarantee over all such runs.
* `drain_generation_lost`: A run with a late check outcome that breaks it.
-/

namespace PlexManager

namespace Coordinator

open UpdateRecovery Transition CoordinatorView

/-- A check outcome of the current generation that is accepted while a drain
    lease lives, and that leaves no action queued behind it. -/
def StrayCheckOutcome (w : CoordinatorWorld) (call : Int × CoordinatorOp) : Prop :=
  match call.2 with
  | .acknowledgeAction g _ _ _ preserveAction =>
      g = w.db.state.actionGeneration ∧ (∃ l, Unexpired w.db call.1 l ∧ isDrain l = true) ∧
        (preserveAction = false ∨ w.db.state.requestedAction = .none)
  | _ => False

/-- Every live drain lease carries the generation of the row, and the row is
    in a state in which that generation cannot be bumped. -/
def DrainAgrees (now : Int) (v : CoordinatorView) : Prop :=
  ∀ l ∈ v.leases, isDrain l = true → now < l.expiresAt →
    l.actionGeneration = some v.generation ∧ knownCoordinatorPhase v.phase = true ∧
      (busyCoordinatorPhase v.phase = true ∨ v.action ≠ .none)

variable {now : Int} {v v' : CoordinatorView}

theorem DrainAgrees.mono {later : Int} (h : DrainAgrees now v)
    (hle : now ≤ later) : DrainAgrees later v :=
  fun l hl hdr hlive => h l hl hdr (Int.lt_of_le_of_lt hle hlive)

theorem drainAgrees_of_no_drain (now : Int) (v : CoordinatorView) (h : ¬ v.hasDrain) :
    DrainAgrees now v :=
  fun l hl hdr _ => absurd ⟨l, hl, hdr⟩ h

-- It survives a rewrite of the row that keeps the generation, the phase known and either a
-- busy phase or a queued action.
theorem DrainAgrees.of_row (h : DrainAgrees now v) (hgen : v'.generation = v.generation)
    (hls : ∀ l ∈ v'.leases, isDrain l = true →
      ∃ old ∈ v.leases, isDrain old = true ∧ l.actionGeneration = old.actionGeneration ∧
        (now < l.expiresAt → now < old.expiresAt))
    (hknown : knownCoordinatorPhase v.phase = true → knownCoordinatorPhase v'.phase = true)
    (hheld : busyCoordinatorPhase v.phase = true ∨ v.action ≠ .none →
      busyCoordinatorPhase v'.phase = true ∨ v'.action ≠ .none) : DrainAgrees now v' := by
  intro l hl hdr hlive
  rcases hls l hl hdr with ⟨old, hold, holdDrain, hsame, hexp⟩
  rcases h old hold holdDrain (hexp hlive) with ⟨hg, hk, hb⟩
  exact ⟨by rw [hsame, hg, hgen], hknown hk, hheld hb⟩

theorem eq_of_countP_le_one {leases : List MaintenanceLease}
    (h : leases.countP isDrain ≤ 1) {a b : MaintenanceLease} (ha : a ∈ leases) (hb : b ∈ leases)
    (hda : isDrain a = true) (hdb : isDrain b = true) : a = b := by
  rw [List.countP_eq_length_filter] at h
  have ha' : a ∈ leases.filter isDrain := List.mem_filter.mpr ⟨ha, hda⟩
  have hb' : b ∈ leases.filter isDrain := List.mem_filter.mpr ⟨hb, hdb⟩
  cases hlist : leases.filter isDrain with
  | nil =>
    rw [hlist] at ha'
    simp at ha'
  | cons c rest =>
    rw [hlist] at h ha' hb'
    have hrest : rest = [] := List.length_eq_zero_iff.mp
      (by simp only [List.length_cons] at h; omega)
    rw [hrest, List.mem_singleton] at ha' hb'
    rw [ha', hb']

theorem drainAgrees_expire (now : Int) (v : CoordinatorView) (hex : Exclusive v)
    (h : DrainAgrees now v) : DrainAgrees now (v.expire now) := by
  intro l hl hdr hlive
  have hmem := ((mem_expire now v l).mp hl).1
  have hnot : v.drainExpired now = false := by
    simp only [CoordinatorView.drainExpired, List.any_eq_false, Bool.and_eq_true,
      decide_eq_true_eq, not_and, Int.not_le]
    intro m hm hmdrain
    rw [eq_of_countP_le_one hex.one_drain hm hmem hmdrain hdr]
    exact hlive
  have hph : (v.expire now).phase = v.phase := by
    simp only [CoordinatorView.expire, hnot, Bool.false_and, Bool.false_eq_true, if_false]
  rw [hph]
  exact h l hmem hdr hlive

theorem known_phaseForResult (result : UpdateResult) :
    knownCoordinatorPhase (phaseForResult result) = true := by
  cases result <;> rfl

theorem known_drainProgressPhase (phase : Option RenewPhase) (ready : Bool)
    (current : CoordinatorPhase) :
    busyCoordinatorPhase
      (drainProgressPhase (phase.map (·.toPhase)) ready current) = true := by
  cases phase with
  | some p =>
    cases ready with
    | true => cases p <;> rfl
    | false => rfl
  | none =>
    simp only [Option.map_none, drainProgressPhase]
    split
    · rename_i hdr
      cases current <;> simp_all [drainPhase, busyCoordinatorPhase]
    · rfl

-- The step lemma. A check outcome is the only step that needs the condition; a request is
-- refused by the invariant itself.
theorem drainAgrees_of_viewStep {op : CoordinatorOp}
    (hstep : ViewStep now v op v') (hex : Exclusive v) (h : DrainAgrees now v)
    (hstray : ∀ g result errorCode imageValues preserveAction,
      op = .acknowledgeAction g result errorCode imageValues preserveAction →
      g = v.generation → (∃ l ∈ v.leases, now < l.expiresAt ∧ isDrain l = true) →
      preserveAction = true ∧ v.action ≠ .none) :
    DrainAgrees now v' := by
  have hexp := drainAgrees_expire now v hex h
  -- Rows that survive untouched carry what they carried.
  have hkeep : ∀ (leases : List MaintenanceLease), ∀ l ∈ leases, isDrain l = true →
      ∃ old ∈ leases, isDrain old = true ∧ l.actionGeneration = old.actionGeneration ∧
        (now < l.expiresAt → now < old.expiresAt) :=
    fun _ l hl hd => ⟨l, hl, hd, rfl, id⟩
  have hrenew : ∀ (tokenHash : TokenHash) (ttl : Int),
      ∀ l ∈ renewRows now ttl tokenHash (v.expire now).leases, isDrain l = true →
        ∃ old ∈ (v.expire now).leases, isDrain old = true ∧
          l.actionGeneration = old.actionGeneration ∧
          (now < l.expiresAt → now < old.expiresAt) := by
    intro tokenHash ttl l hl hd
    rcases mem_renewRows now ttl tokenHash _ l hl with ⟨old, hold, hkind, hgen, -⟩
    refine ⟨old, hold, ?_, hgen, fun _ => ((mem_expire now v old).mp hold).2⟩
    simpa only [isDrain, hkind] using hd
  cases hstep with
  | stutter => exact h
  | expire => exact hexp
  | observe => exact hexp.of_row (by simp) (by simpa using hkeep _) (by simp) (by simp)
  | dispatch hbusy => exact h.of_row rfl (hkeep _) id id
  | touchMissed phase g => exact h.of_row (by simp) (by simpa using hkeep _) (by simp) (by simp)
  | touch phase g hknown =>
    refine h.of_row (by simp [CoordinatorView.enter])
      (by simpa [CoordinatorView.enter] using hkeep _) ?_ ?_
    · intro hk
      cases phase with
      | none => exact hk
      | some p => cases p; rfl
    · intro hb
      cases phase with
      | none => simpa [CoordinatorView.enter] using hb
      | some p => cases p; exact .inl rfl
  | request action hidle hnone =>
    -- A live drain would have refused the request.
    intro l hl hdr hlive
    rcases (h l hl hdr hlive).2.2 with hbusy | hq
    · simp [hidle] at hbusy
    · exact absurd hnone hq
  | grantCritical tokenHash owner operation ttl row hkind hdr =>
    refine drainAgrees_of_no_drain now _ ?_
    rintro ⟨l, hl, hldrain⟩
    rcases List.mem_append.mp hl with hl | hl
    · exact hdr ⟨l, hl, hldrain⟩
    · rw [List.mem_singleton.mp hl] at hldrain
      simp [isDrain, hkind] at hldrain
  | claimDrain tokenHash owner g materialize requireIdle ttl w row hkind hgen hknown hdr hw =>
    intro l hl hldrain hlive
    rcases List.mem_append.mp hl with hl | hl
    · refine absurd ⟨l, ?_, hldrain⟩ hdr
      rcases hw with hw | hw
      · rwa [hw] at hl
      · rwa [hw] at hl
    · rw [List.mem_singleton.mp hl]
      exact ⟨hgen, rfl, .inl rfl⟩
  | renew tokenHash ttl => exact hexp.of_row rfl (hrenew tokenHash ttl) id id
  | progress tokenHash ttl phase ready hrdy hdr =>
    have hbusy := known_drainProgressPhase phase ready (v.expire now).phase
    exact hexp.of_row rfl (hrenew tokenHash ttl) (fun _ => known_of_busy hbusy)
      (fun _ => .inl hbusy)
  | releaseCritical tokenHash lease hls hkind =>
    refine hexp.of_row rfl ?_ id id
    intro l hl hd
    exact ⟨l, (List.mem_filter.mp hl).1, hd, rfl, id⟩
  | releaseDrain tokenHash lease hls hkind
  | installOutcome tokenHash fingerprint lease action hls hkind hgen =>
    refine drainAgrees_of_no_drain now _ ?_
    rintro ⟨l, hl, hldrain⟩
    rcases List.mem_filter.mp hl with ⟨hl, htok⟩
    have := eq_of_countP_le_one (exclusive_expire now v hex).one_drain hl hls hldrain hkind
    simp [this] at htok
  | reset recoveryMaxAge fence phase startedAt action hph hdr =>
    refine drainAgrees_of_no_drain now _ ?_
    simpa [CoordinatorView.hasDrain] using hdr
  | checkOutcome result errorCode imageValues preserveAction hknown =>
    intro l hl hdr hlive
    rcases hstray _ result errorCode imageValues preserveAction rfl rfl ⟨l, hl, hlive, hdr⟩
      with ⟨hpreserve, hq⟩
    refine ⟨(h l hl hdr hlive).1, known_phaseForResult result, .inr ?_⟩
    simpa [hpreserve] using hq

theorem drainAgrees_of_run (w t : CoordinatorWorld) (calls : List (Int × CoordinatorOp))
    (hnew : Fresh w) (hmeet : StepsMeet step (fun u call => ¬ StrayCheckOutcome u call) w calls)
    (hrun : run step w calls = some t) :
    Exclusive (view t.db) ∧ DrainAgrees t.clock (view t.db) := by
  refine invariant_of_meeting_run
    (I := fun u => Exclusive (view u.db) ∧ DrainAgrees u.clock (view u.db)) ?_ w t calls
    ⟨exclusive_of_fresh w hnew, ?_⟩ hmeet hrun
  · intro u call u' hu hcond hstep
    rcases step_eq_some u u' call hstep with ⟨hle, hclk, hdb⟩
    have hview := viewStep_of_perform call.2 call.1 u.db
    rw [hdb, hclk]
    refine ⟨exclusive_of_viewStep hview hu.1, ?_⟩
    refine drainAgrees_of_viewStep hview hu.1 (hu.2.mono hle) ?_
    intro g result errorCode imageValues preserveAction hop hgen hlive
    rcases hlive with ⟨l, hl, hexp, hdr⟩
    simp only [StrayCheckOutcome, hop] at hcond
    refine Decidable.byContradiction fun hbad => hcond ⟨hgen, ⟨l, ⟨hl, hexp⟩, hdr⟩, ?_⟩
    cases preserveAction with
    | false => exact .inl rfl
    | true => exact .inr (Decidable.byContradiction fun hq => hbad ⟨rfl, hq⟩)
  · intro l hl
    rw [view_leases, hnew.1] at hl
    simp at hl

-- The holder of a live drain that agrees with the row is answered yes.
theorem acknowledgeOutcome_of_agrees (now : Int) (db : CoordinatorDb) (l : MaintenanceLease)
    (fingerprint : OutcomeFingerprint) (hex : Exclusive (view db))
    (hagree : DrainAgrees now (view db)) (hl : Unexpired db now l) (hdr : isDrain l = true)
    (hexp : fingerprint.expectedGeneration = l.actionGeneration) :
    (perform (.acknowledgeOutcome l.tokenHash fingerprint) now db).2 = .flag true := by
  have hswept : l ∈ (cleanupExpired now db).leases := (mem_cleanupExpired now db l).mpr hl
  have hagree' := drainAgrees_expire now (view db) hex hagree
  rw [← view_cleanupExpired] at hagree'
  -- The lookup by token finds a live drain row, and every such row agrees.
  have hgot : ∃ drain, leaseForToken (cleanupExpired now db) l.tokenHash (some .drain) =
      some drain := by
    refine Option.isSome_iff_exists.mp (List.find?_isSome.mpr ⟨l, hswept, ?_⟩)
    have hkind : l.kind = .drain := by simpa [isDrain] using hdr
    simp [hkind]
  rcases hgot with ⟨drain, hfind⟩
  rcases mem_of_leaseForToken hfind with ⟨hmem, -, hkind⟩
  have hd : isDrain drain = true := by
    rcases hkind with hkind | hkind
    · simp at hkind
    · simpa [isDrain] using (Option.some.inj hkind).symm
  have hlive := ((mem_cleanupExpired now db drain).mp hmem).2
  have hdrainGen := (hagree' drain hmem hd hlive).1
  rcases hagree' l hswept hdr hl.2 with ⟨hlGen, hknown, -⟩
  have hmatch : (fingerprint.expectedGeneration.isSome &&
      (drain.actionGeneration != fingerprint.expectedGeneration ||
        some (cleanupExpired now db).state.actionGeneration !=
          fingerprint.expectedGeneration)) = false := by
    rw [hexp, hlGen, hdrainGen]
    simp
  have hok : acknowledgeOutcome now l.tokenHash (phaseForResult fingerprint.result) fingerprint db =
      .ok ((deleteLease (cleanupExpired now db) drain).updateState
        (recordInstallOutcome now l.tokenHash (phaseForResult fingerprint.result) fingerprint
          drain.actionGeneration), true) := by
    simp only [acknowledgeOutcome]
    rw [requireKnownPhase_bind]
    refine ⟨hknown, ?_⟩
    simp only [hfind, hmatch, Bool.false_eq_true, if_false]
    rfl
  simp only [perform, answered, hok]

/-- In a run without stray check outcomes, a drain lease that lives carries the
    generation of the row, and its holder's outcome for that generation is
    accepted. -/
theorem drain_generation_stable (w t : CoordinatorWorld) (calls : List (Int × CoordinatorOp))
    (hfresh : Fresh w) (hmeet : StepsMeet step (fun u call => ¬ StrayCheckOutcome u call) w calls)
    (hrun : run step w calls = some t) (now : Int) (hnow : t.clock ≤ now) (l : MaintenanceLease)
    (hl : Unexpired t.db now l) (hdrain : isDrain l = true) :
    l.actionGeneration = some t.db.state.actionGeneration ∧
      ∀ fingerprint, fingerprint.expectedGeneration = l.actionGeneration →
        (perform (.acknowledgeOutcome l.tokenHash fingerprint) now t.db).2 = .flag true := by
  rcases drainAgrees_of_run w t calls hfresh hmeet hrun with ⟨hex, hagree⟩
  refine ⟨(hagree.mono hnow l hl.1 hdrain hl.2).1, ?_⟩
  intro fingerprint hexp
  exact acknowledgeOutcome_of_agrees now t.db l fingerprint hex (hagree.mono hnow) hl hdrain hexp

/-- An install claimed for generation 1, the outcome of an earlier check of the
    same generation arriving late, and the operator's next request. -/
def lateCheckOutcome : List (Int × CoordinatorOp) :=
  [(0, .requestAction .install),
    (1, .claimDrain 7 "container-updater" (some 1) false false 600),
    (2, .acknowledgeAction 1 .failed none {} false),
    (3, .requestAction .check)]

/-- The outcome the holder of that claim reports. -/
def installSucceeded : OutcomeFingerprint :=
  ⟨some 1, .success, none, none, none, none, none, none, none⟩

/-- The late outcome strands the holder: its lease is live and was granted for
    generation 1, the row has moved on to 2, and its report is refused. -/
theorem drain_generation_lost :
    ∃ t l, run step ⟨⟨{}, []⟩, 0⟩ lateCheckOutcome = some t ∧ Unexpired t.db t.clock l ∧
      isDrain l = true ∧ l.actionGeneration = some 1 ∧ t.db.state.actionGeneration = 2 ∧
      (perform (.acknowledgeOutcome l.tokenHash installSucceeded) t.clock t.db).2 = .flag false :=
  ⟨_, ⟨7, .drain, "container-updater", some "container_update", some 1, 1, 1, 601⟩, rfl,
    ⟨List.mem_singleton.mpr rfl, by decide⟩, rfl, rfl, rfl, by decide⟩

/-- The guarantee at the same run without the late outcome. -/
theorem drain_generation_stable_of_claim :
    ∃ t, run step ⟨⟨{}, []⟩, 0⟩ (lateCheckOutcome.take 2) = some t ∧
      (perform (.acknowledgeOutcome 7 installSucceeded) 5 t.db).2 = .flag true := by
  refine ⟨_, rfl, ?_⟩
  exact (drain_generation_stable ⟨⟨{}, []⟩, 0⟩ _ (lateCheckOutcome.take 2) ⟨rfl, rfl⟩
    ⟨id, id, trivial⟩ rfl 5 (by decide)
    ⟨7, .drain, "container-updater", some "container_update", some 1, 1, 1, 601⟩
    ⟨List.mem_singleton.mpr rfl, by decide⟩ rfl).2 installSucceeded rfl

end Coordinator

end PlexManager
