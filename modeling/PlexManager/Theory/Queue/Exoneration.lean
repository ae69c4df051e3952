import PlexManager.Theory.Queue.Ownership

/-!
# Exonerating a release

When the host is at fault for a failure, the release stays off the blocklist.
The cycle that detects the failure carries the verdict in its completion, and
writes it down in one of two records: the enriched reason it stamps before the
removal, and the done record of the removal. A later cycle that finds the row
still pending has only the record to go by, so the verdict survives exactly if
one was committed when the detecting cycle ended.

Neither record is certain. The stamp is best effort, and between the transition
of the row and the stamp there is none. A process that dies in that window
leaves a pending row without a reason, which the next cycle takes for a release
fault (`verdict_lost`). `exoneration` says that this is the only way: the
detecting cycle itself never writes a blocklist row, and from a recorded
verdict no later one does, through any crash, failed commit or raising client,
unless it completes an operator's marker that asks for it.

In these runs one cycle is at work at a time, as in the reconcile loop, and the
process can die at any point. The actors and the registries die with it.

## Theorems

* `exoneration`: The verdict survives.
* `verdict_lost`: A run in which no record was made.
-/

namespace PlexManager

namespace QueueProtocol

open DownloadState Interleaving Transition

/-! ### One cycle at a time, and crashes -/

def Actor.cycleLive : Actor → Bool
  | .cycle .done => false
  | .cycle _ => true
  | .call _ _ => false

inductive Incident where
  | action (action : Action)
  | crash
  deriving DecidableEq, Repr

def Incident.startsCycle : Incident → Bool
  | .action .reconcileAndList | .action .healFailedPendingWithoutClient => true
  | _ => false

/-- The process starts afresh: what was in memory is gone. -/
def crashed (w : World) : World :=
  ⟨{ w.shared with claim := none, nextToken := 1, removalsInFlight := 0 }, []⟩

/-- A step of the process, or its end. A cycle starts when no other is at work. -/
def serialStep (w : World) : Incident → Option World
  | .crash => some (crashed w)
  | .action action =>
      if (Incident.action action).startsCycle && w.actors.any Actor.cycleLive then none
      else step w action

/-! ### The records -/

-- The enriched reason of an environmental failure is environmental, whether the client's log
-- or the base reason decided.
theorem classify_detectedReason (base : String) (detail : Option FailureDetail)
    (h : classifyFailureDetail (some (classifyText base detail)) = .environmental) :
    classifyFailureDetail (some (detectedReason base detail)) = .environmental := by
  cases detail with
  | none => exact h
  | some d =>
    by_cases hlog : d.fromLog = true
    · simpa [classifyText, detectedReason, hlog] using h
    · have hbase : classifyFailureDetail (some base) = .environmental := by
        simpa [classifyText, hlog] using h
      exact classify_append _ _ (classify_append _ _ hbase)

theorem classify_detectedCompletion (snap : DownloadRow) (base : String)
    (detail : Option FailureDetail) (absent : Bool)
    (h : classifyFailureDetail (some (classifyText base detail)) = .environmental) :
    classifyFailureDetail (some (detectedCompletion snap base detail absent).reason) =
      .environmental := by
  have hwhy := classify_detectedReason base detail h
  simp only [detectedCompletion]
  split
  · exact classify_append _ _ hwhy
  · exact hwhy

/-- The reason holds a verdict against the blocklist, the stamped reason or the
    done record, or an operator's marker. -/
def Recorded (verdict : FailureCompletion) (reason : Option FailedReason) : Prop :=
  reason = some (.text verdict.reason) ∨
    reason = some (.marker (reconcileRemovalDoneMarker false)) ∨
    ∃ m, reason = some (.marker m) ∧ m.operator = true

/-- A completion asks for a blocklist row only for an operator's marker that
    does. -/
def Spares (completion : FailureCompletion) : Prop :=
  completion.blocklist = true →
    ∃ m, completion.observed = some (.marker m) ∧ m.operator = true ∧ m.blocklist = true

variable {verdict completion : FailureCompletion} {settled : Prop} {s s' : Shared} {w w' : World}
  {c : Choice} {args : MarkFailedArgs} {pc pc' : CallPc} {incident : Incident} {snap : DownloadRow}

theorem spares_of_off (h : completion.blocklist = false) : Spares completion := by
  intro hon
  rw [h] at hon
  simp at hon

theorem residual_of_recorded (henv : classifyFailureDetail (some verdict.reason) = .environmental)
    (h : Recorded verdict snap.failedReason) : Spares (residualCompletion snap) := by
  intro hblk
  rcases h with htext | hdone | ⟨m, hm, hop⟩
  · simp [residualCompletion, htext, parseOperatorFailMarker, reasonText, henv] at hblk
  · rw [(residualCompletion_of_marker hdone).1] at hblk
    simp [reconcileRemovalDoneMarker] at hblk
  · rw [(residualCompletion_of_marker hm).1] at hblk
    exact ⟨m, by rw [residualCompletion_observed, hm], hop, hblk⟩

theorem recorded_of_removalDone {m : FailMarker} (hspr : Spares completion)
    (h : removalDoneMarker completion = some m) : Recorded verdict (some (.marker m)) := by
  unfold removalDoneMarker at h
  split at h
  · split at h
    · cases h
      exact .inr (.inr ⟨_, rfl, rfl⟩)
    · simp at h
  rename_i hnone
  have hoff : completion.blocklist = false := by
    refine Bool.eq_false_iff.mpr fun hon => ?_
    rcases hspr hon with ⟨m', hm', -⟩
    rw [(parse_eq_some_iff _ m').mpr hm'] at hnone
    simp at hnone
  rw [hoff] at h
  cases h
  exact .inr (.inl rfl)

theorem spares_of_removalDone {m : FailMarker} (hspr : Spares completion)
    (h : removalDoneMarker completion = some m) :
    Spares { completion with observed := some (.marker m) } := by
  intro hon
  rcases hspr hon with ⟨m', hm', -, hblk⟩
  unfold removalDoneMarker at h
  rw [(parse_eq_some_iff _ m').mpr hm'] at h
  simp only [] at h
  split at h
  · cases h
    exact ⟨_, rfl, rfl, hblk⟩
  · simp at h

/-! ### The two stages -/

/-- What a cycle knows of the failure: past its detection it carries the
    verdict, and, once `settled` says that the verdict is on record, a new one
    has listed the record. -/
def SparesHere (settled : Prop) (verdict : FailureCompletion) : CyclePc → Prop
  | .start | .healStart => settled
  | .listed snap | .healListed snap =>
      settled ∧ snap.status = .failedPending ∧ Recorded verdict snap.failedReason
  | .transitioning _ _ | .detailing _ _ => False
  | .envCheck completion | .envStamping completion =>
      completion.reason = verdict.reason ∧ completion.blocklist = false
  | .filtering completion | .phaseB completion | .reproving completion
  | .reproved completion _ | .deleting completion | .recording completion
  | .completing completion _ _ | .swapping completion _ _ => Spares completion
  | .finishing _ | .done => True

/-- The outline of the runs after the detection. Before the verdict is settled
    no cycle starts; afterwards a pending row carries the record. -/
def sparing (settled : Prop) (verdict : FailureCompletion) : Outline Shared Actor where
  Shared s := Doomed s.row ∧
    (settled → s.row.status = .failedPending → Recorded verdict s.row.failedReason)
  Local _ a := match a with
    | .call _ _ => True
    | .cycle pc => SparesHere settled verdict pc
  Apart _ _ := True
  weight _ := 0
  held _ := 0

theorem sparing_call (hs : (sparing settled verdict).Shared s) (h : CallMove args c s pc s' pc') :
    (sparing settled verdict).Shared s' := by
  cases h with
  | quit | load | miss | readopt | restampMiss | reread | skipDelete | deleted | unrecorded
  | retry | abandon | register | startDelete => exact hs
  | stamp | restamp =>
    exact ⟨.inl rfl, fun _ _ => .inr (.inr ⟨_, rfl, rfl⟩)⟩
  | record => exact ⟨.inl rfl, fun _ _ => .inr (.inr ⟨_, rfl, rfl⟩)⟩
  | complete => exact ⟨.inr rfl, fun _ hpend => absurd hpend nofun⟩
  | release =>
    unfold releaseOperatorClaim
    split
    · exact hs
    · exact hs

theorem sparing_cycle {pc pc' : CyclePc}
    (henv : classifyFailureDetail (some verdict.reason) = .environmental)
    (hs : (sparing settled verdict).Shared s) (hok : SparesHere settled verdict pc)
    (h : CycleMove s pc s' pc') :
    (sparing settled verdict).Shared s' ∧ SparesHere settled verdict pc' := by
  -- Once the verdict is settled, a row that is not over is pending under it.
  have hlist : settled → s.row.status.terminalState = false →
      s.row.status = .failedPending ∧ Recorded verdict s.row.failedReason := by
    intro hset hterm
    rcases hs.1 with hpend | hfail
    · exact ⟨hpend, hs.2 hset hpend⟩
    · rw [hfail] at hterm
      exact absurd hterm (by decide)
  cases h with
  | quit | drop | leave => exact ⟨hs, trivial⟩
  | list hpc hterm | healList hpc hterm =>
    rw [hpc] at hok
    exact ⟨hs, hok, hlist hok hterm⟩
  | residual | heal => exact ⟨hs, residual_of_recorded henv hok.2.2⟩
  | plan hact =>
    -- No move is planned of a row that is pending.
    rw [hok.2.1] at hact
    exact absurd hact (by decide)
  | transition | detail => exact absurd hok id
  | pass hfrom hto =>
    refine ⟨hs, ?_⟩
    rcases hto with ⟨rfl, rfl⟩ | rfl | rfl
    · exact hok
    · rcases hfrom with rfl | rfl | rfl
      · exact spares_of_off hok.2
      · exact spares_of_off hok.2
      · exact hok
    · rcases hfrom with rfl | rfl | rfl
      · exact spares_of_off hok.2
      · exact spares_of_off hok.2
      · exact hok
  | @envStamp completion hst hwhy =>
    refine ⟨⟨.inl hst, fun _ _ => .inl ?_⟩, ?_⟩
    · change some (FailedReason.text completion.reason) = some (.text verdict.reason)
      rw [hok.1]
    · exact spares_of_off hok.2
  | light | guard | reprove | startDelete | deleted | check | retry => exact ⟨hs, hok⟩
  | unrecorded hpc =>
    rcases hpc with rfl | rfl
    · exact ⟨hs, hok⟩
    · exact ⟨hs, hok⟩
  | record hm hst hwhy =>
    exact ⟨⟨.inl rfl, fun _ _ => recorded_of_removalDone hok hm⟩,
      spares_of_removalDone hok hm⟩
  | complete =>
    exact ⟨⟨.inr rfl, fun _ hpend => absurd hpend nofun⟩, trivial⟩
  | @finish guarded =>
    refine ⟨?_, trivial⟩
    cases guarded with
    | true | false => exact hs

theorem sparing_sound (henv : classifyFailureDetail (some verdict.reason) = .environmental) :
    (sparing settled verdict).Sound actorStep (fun _ _ _ => True) where
  symm := fun _ _ _ => trivial
  own := by
    intro s a c hs ha _ _
    cases a with
    | call args pc => exact ⟨sparing_call hs (callMove args c s pc), trivial⟩
    | cycle pc => exact sparing_cycle henv hs ha (cycleMove c s pc)
  frame := by
    intro s a b c _ _ hb _ _ _
    cases b with
    | call args pc => trivial
    | cycle pc => exact hb
  apart := fun _ _ _ _ _ _ _ _ => trivial
  account := fun _ _ _ _ _ _ => rfl

theorem sparing_crashed
    (h : (sparing settled verdict).Holds w) : (sparing settled verdict).Holds (crashed w) :=
  ⟨h.shared, fun _ ha => absurd ha nofun, List.Pairwise.nil, rfl⟩

-- A step of a settled system keeps the outline, and so does a step of an unsettled one that
-- starts no cycle.
theorem sparing_step (henv : classifyFailureDetail (some verdict.reason) = .environmental)
    (h : (sparing settled verdict).Holds w) (hbeg : incident.startsCycle = true → settled)
    (hstep : serialStep w incident = some w') : (sparing settled verdict).Holds w' := by
  have hspn : ∀ pc, SparesHere settled verdict pc →
      (sparing settled verdict).Holds (w.spawn (.cycle pc)) :=
    fun pc hpc => h.spawn (fun _ _ _ => trivial) hpc (fun _ _ => trivial) rfl
  cases incident with
  | crash =>
    cases hstep
    exact sparing_crashed h
  | action action =>
    simp only [serialStep] at hstep
    split at hstep
    · simp at hstep
    cases action with
    | markFailed args =>
      cases hstep
      exact h.spawn (fun _ _ _ => trivial) trivial (fun _ _ => trivial) rfl
    | reconcileAndList =>
      cases hstep
      exact hspn .start (hbeg rfl)
    | healFailedPendingWithoutClient =>
      cases hstep
      exact hspn .healStart (hbeg rfl)
    | act i c => exact (sparing_sound henv).act h (fun _ _ => trivial) hstep

/-- In the step no cycle writes a blocklist row, but for an operator's marker
    that asks for it. -/
def SparesRelease (w w' : World) : Prop :=
  ∀ reason, w'.shared.log = .completed reason true .cycle :: w.shared.log →
    ∃ m, reason = some (.marker m) ∧ m.operator = true ∧ m.blocklist = true

theorem log_ne_cons {log : List Event} {e : Event} : log ≠ e :: log := by
  intro h
  have := congrArg List.length h
  simp at this

theorem spares_of_cycleMove {pc pc' : CyclePc} (hok : SparesHere settled verdict pc)
    (h : CycleMove s pc s' pc') {reason : Option FailedReason}
    (hlog : s'.log = .completed reason true .cycle :: s.log) :
    ∃ m, reason = some (.marker m) ∧ m.operator = true ∧ m.blocklist = true := by
  cases h with
  | @complete completion attempts guarded hst hwhy =>
    have heq := (List.cons.inj hlog).1
    simp only [Event.completed.injEq] at heq
    have hon : completion.blocklist = true := by
      cases hcase : completion.blocklist with
      | true => rfl
      | false => simp [hcase] at heq
    rcases hok hon with ⟨m, hm, hop, hblk⟩
    exact ⟨m, by rw [← heq.1, hwhy, hm], hop, hblk⟩
  | startDelete => exact absurd (List.cons.inj hlog).1 nofun
  | @finish guarded =>
    cases guarded with
    | true | false => exact absurd hlog log_ne_cons
  | _ => exact absurd hlog log_ne_cons

theorem spares_of_callMove (h : CallMove args c s pc s' pc') (reason : Option FailedReason) :
    s'.log ≠ .completed reason true .cycle :: s.log := by
  intro hlog
  cases h with
  | register | stamp | restamp | startDelete => exact absurd (List.cons.inj hlog).1 nofun
  | complete => exact absurd (List.cons.inj hlog).1 (by simp)
  | release =>
    unfold releaseOperatorClaim at hlog
    split at hlog
    · exact log_ne_cons hlog
    · exact log_ne_cons hlog
  | _ => exact log_ne_cons hlog

theorem sparesRelease_of_holds (h : (sparing settled verdict).Holds w)
    (hstep : serialStep w incident = some w') : SparesRelease w w' := by
  intro reason hlog
  cases incident with
  | crash =>
    rw [← Option.some.inj hstep] at hlog
    exact absurd hlog log_ne_cons
  | action action =>
    simp only [serialStep] at hstep
    split at hstep
    · simp at hstep
    cases action with
    | markFailed | reconcileAndList | healFailedPendingWithoutClient =>
      rw [← Option.some.inj hstep] at hlog
      exact absurd hlog log_ne_cons
    | act i c =>
      rcases World.act_eq_some hstep with ⟨a, before, after, ha, -, rfl⟩
      have hloc := h.locals a (List.mem_of_getElem? ha)
      cases a with
      | call args pc =>
        exact absurd hlog (spares_of_callMove (callMove args c w.shared pc) reason)
      | cycle pc => exact spares_of_cycleMove hloc (cycleMove c w.shared pc) hlog

/-! ### The detection -/

/-- While a cycle asks for the detail of a failure the row is pending or has
    failed, and no other cycle is at work. -/
def serial : Outline Shared Actor where
  Shared _ := True
  Local s a := match a with
    | .cycle (.detailing _ _) => Doomed s.row
    | .cycle (.transitioning _ move) =>
        move.target.activeState = true ∨ move.target = .failedPending
    | _ => True
  Apart a b := a.cycleLive = true → b.cycleLive = false
  weight _ := 0
  held _ := 0

theorem doomed_of_callMove (h : CallMove args c s pc s' pc') (hdoom : Doomed s.row) :
    Doomed s'.row := (leaves_of_callMove h).doomed hdoom

theorem serial_cycle {pc pc' : CyclePc} (hok : serial.Local s (.cycle pc))
    (h : CycleMove s pc s' pc') : serial.Local s' (.cycle pc') := by
  cases h with
  | plan hact htgt => exact htgt
  | transition hst hpc =>
    rcases hpc with ⟨hpend, rfl⟩ | ⟨-, rfl⟩
    · exact .inl hpend
    · trivial
  | pass hfrom hto =>
    rcases hto with ⟨rfl, -⟩ | rfl | rfl
    · trivial
    · trivial
    · trivial
  | _ => trivial

theorem cycleLive_of_step {a : Actor} (c : Choice) (h : a.cycleLive = false) :
    (actorStep c s a).2.cycleLive = false ∧
      (Doomed s.row → Doomed (actorStep c s a).1.row) := by
  cases a with
  | call args pc => exact ⟨rfl, doomed_of_callMove (callMove args c s pc)⟩
  | cycle pc =>
    cases pc with
    | done => exact ⟨rfl, id⟩
    | _ => simp [Actor.cycleLive] at h

theorem serial_sound : serial.Sound actorStep (fun _ _ _ => True) where
  symm := by
    intro a b hab hb
    refine Bool.eq_false_iff.mpr fun ha => ?_
    rw [hab ha] at hb
    simp at hb
  own := by
    intro s a c _ ha _ _
    refine ⟨trivial, ?_⟩
    cases a with
    | call args pc => trivial
    | cycle pc => exact serial_cycle ha (cycleMove c s pc)
  frame := by
    intro s a b c _ _ hb hab _ _
    cases b with
    | call args pc => trivial
    | cycle pc =>
      cases pc with
      | detailing snap base =>
        have hidle : a.cycleLive = false := by
          refine Bool.eq_false_iff.mpr fun ha => ?_
          exact absurd (hab ha) nofun
        exact (cycleLive_of_step c hidle).2 hb
      | transitioning snap move => exact hb
      | _ => trivial
  apart := by
    intro s a b c _ _ _ hab hlive
    refine hab ?_
    cases ha : a.cycleLive with
    | true => rfl
    | false =>
      rw [(cycleLive_of_step c ha).1] at hlive
      simp at hlive
  account := fun _ _ _ _ _ _ => rfl

theorem serial_step (h : serial.Holds w)
    (hstep : serialStep w incident = some w') : serial.Holds w' := by
  cases incident with
  | crash =>
    cases hstep
    exact ⟨trivial, fun a ha => absurd ha nofun, List.Pairwise.nil, rfl⟩
  | action action =>
    simp only [serialStep] at hstep
    split at hstep
    · simp at hstep
    rename_i hser
    have hidle : (Incident.action action).startsCycle = true →
        ∀ b ∈ w.actors, b.cycleLive = false := by
      intro hbeg b hb
      simp only [hbeg, Bool.true_and] at hser
      exact Bool.eq_false_iff.mpr fun hlive => hser (List.any_eq_true.mpr ⟨b, hb, hlive⟩)
    cases action with
    | markFailed args =>
      cases hstep
      exact h.spawn serial_sound.symm trivial (fun b _ hlive => absurd hlive nofun) rfl
    | reconcileAndList | healFailedPendingWithoutClient =>
      cases hstep
      exact h.spawn serial_sound.symm trivial (fun b hb _ => hidle rfl b hb) rfl
    | act i c => exact serial_sound.act h (fun _ _ => trivial) hstep

theorem serial_of_run {w₀ : World} {incidents : List Incident} (hinit : Init w₀)
    (hrun : run serialStep w₀ incidents = some w) : serial.Holds w := by
  refine invariant_of_run (fun _ _ _ h hstep => serial_step h hstep) w₀ w incidents ?_ hrun
  have hact := hinit.2
  refine ⟨trivial, ?_, ?_, ?_⟩
  · rw [hact]
    exact fun a ha => absurd ha nofun
  · rw [hact]
    exact List.Pairwise.nil
  · rw [hact]
    rfl

theorem sparing_of_detection {i : Nat} {base : String} (h : serial.Holds w)
    (hactor : w.actors[i]? = some (.cycle (.detailing snap base))) (hc : c.outcome = .ok)
    (henv : classifyFailureDetail (some (classifyText base c.detail)) = .environmental)
    (hstep : serialStep w (.action (.act i c)) = some w') :
    (sparing False (detectedCompletion snap base c.detail c.absent)).Holds w' := by
  have hact : w.act actorStep i c = some w' := hstep
  rcases World.act_eq_some hact with ⟨a, before, after, ha, hactors, rfl⟩
  rw [hactor, Option.some.injEq] at ha
  have hdoom := h.locals (.cycle (.detailing snap base)) (List.mem_of_getElem? hactor)
  have hpair := h.apart
  rw [hactors, Outline.pairwise_middle serial_sound.symm, ← ha] at hpair
  have hoth : ∀ b ∈ before ++ after, b.cycleLive = false := fun b hb => hpair.2 b hb rfl
  rw [← ha]
  have hnext : actorStep c w.shared (.cycle (.detailing snap base)) =
      (w.shared, .cycle (.envCheck (detectedCompletion snap base c.detail c.absent))) := by
    simp [actorStep, cycleStep, hc]
  rw [hnext]
  refine ⟨⟨hdoom, fun hfalse => absurd hfalse id⟩, ?_, ?_, ?_⟩
  · intro b hb
    have hcas : b = .cycle (.envCheck (detectedCompletion snap base c.detail c.absent)) ∨
        b ∈ before ++ after := by
      simp only [List.mem_append, List.mem_cons] at hb ⊢
      rcases hb with hb | hb | hb
      · exact .inr (.inl hb)
      · exact .inl hb
      · exact .inr (.inr hb)
    rcases hcas with rfl | hb
    · refine ⟨rfl, ?_⟩
      simp [detectedCompletion, henv]
    cases b with
    | call args pc => trivial
    | cycle pc =>
      cases pc with
      | done => trivial
      | _ => cases hoth _ hb
  · exact List.pairwise_of_forall (fun _ _ => trivial)
  · have hzero : ∀ actors : List Actor, (actors.map fun _ => 0).sum = 0 := by
      intro actors
      induction actors with
      | nil => rfl
      | cons b rest ih => rw [List.map_cons, List.sum_cons, ih]
    exact hzero _

theorem sparing_settled (h : (sparing False verdict).Holds w)
    (hrec : w.shared.row.status = .failedPending →
      Recorded verdict w.shared.row.failedReason) : (sparing True verdict).Holds w := by
  refine ⟨⟨h.shared.1, fun _ => hrec⟩, ?_, h.apart, h.account⟩
  intro a ha
  have hloc := h.locals a ha
  cases a with
  | call args pc => trivial
  | cycle pc =>
    cases pc with
    | start | healStart => trivial
    | listed snap | healListed snap => exact absurd hloc.1 id
    | _ => exact hloc

/-- The exoneration guarantee. From the step in which a cycle detects an
    environmental failure, no cycle writes a blocklist row for it until the next
    cycle starts. If the row is settled then, or its reason holds one of the
    records of the verdict, no cycle does so ever after. -/
theorem exoneration (w₀ w₁ w₂ : World) (before : List Incident) (i : Nat) (c : Choice)
    (snap : DownloadRow) (base : String) (hinit : Init w₀)
    (hrun : run serialStep w₀ before = some w₁)
    (hactor : w₁.actors[i]? = some (.cycle (.detailing snap base))) (hc : c.outcome = .ok)
    (henv : classifyFailureDetail (some (classifyText base c.detail)) = .environmental)
    (hdetect : serialStep w₁ (.action (.act i c)) = some w₂) :
    ∀ during w, (∀ incident ∈ during, incident.startsCycle = false) →
      run serialStep w₂ during = some w →
      (∀ incident w', serialStep w incident = some w' → SparesRelease w w') ∧
        ((w.shared.row.status = .failedPending →
            Recorded (detectedCompletion snap base c.detail c.absent) w.shared.row.failedReason) →
          ∀ later x, run serialStep w later = some x →
            ∀ incident x', serialStep x incident = some x' → SparesRelease x x') := by
  intro during w hduring hrun'
  have hverd := classify_detectedCompletion snap base c.detail c.absent henv
  have hbeg := sparing_of_detection (serial_of_run hinit hrun) hactor hc henv hdetect
  have hhold : (sparing False (detectedCompletion snap base c.detail c.absent)).Holds w := by
    refine invariant_of_meeting_run ?_ w₂ w during hbeg (stepsMeet_of_mem w₂ during hduring) hrun'
    intro s incident s' h hno hstep
    exact sparing_step hverd h (fun hstarts => absurd hstarts (by simp [hno])) hstep
  refine ⟨fun incident w' hstep => sparesRelease_of_holds hhold hstep, ?_⟩
  intro hrec later x hnext incident x' hstep
  have hset := sparing_settled hhold hrec
  have hend := invariant_of_run (fun _ _ _ h hs => sparing_step hverd h (fun _ => trivial) hs)
    w x later hset hnext
  exact sparesRelease_of_holds hend hstep

def filesMissing : ReconcileMove := ⟨.failedPending, "client reports 'missingFiles'"⟩

def detecting : List Incident :=
  [.action .reconcileAndList, .action (.act 0 {}), .action (.act 0 { move := some filesMissing }),
    .action (.act 0 {})]

def nextCycle : List Incident :=
  .action .reconcileAndList :: List.replicate 9 (.action (.act 0 {}))

/-- The process dies before the stamp, and the next cycle blocklists the
    release. -/
theorem verdict_lost :
    Init calm ∧ ∃ w₁ w₂ w w', run serialStep calm detecting = some w₁ ∧
      w₁.actors[0]? = some (.cycle (.detailing { status := .downloading }
        "client reports 'missingFiles'")) ∧
      classifyFailureDetail (some (classifyText "client reports 'missingFiles'" none)) =
        .environmental ∧
      serialStep w₁ (.action (.act 0 {})) = some w₂ ∧
      run serialStep w₂ (.crash :: nextCycle) = some w ∧
      serialStep w (.action (.act 0 {})) = some w' ∧ ¬ SparesRelease w w' := by
  refine ⟨calm_init, _, _, _, _, rfl, rfl, by decide, rfl, rfl, rfl, ?_⟩
  intro h
  rcases h _ rfl with ⟨m, hm, hop, -⟩
  rw [← FailedReason.marker.inj (Option.some.inj hm)] at hop
  exact absurd hop (by decide)

/-- The stamp is committed before the process dies, and the next cycle completes
    the row without a blocklist row. -/
theorem exoneration_of_stamp :
    ∃ x x', (run serialStep calm (detecting ++ [.action (.act 0 {})] ++
        [.action (.act 0 {}), .action (.act 0 {}), .crash] ++ nextCycle)) = some x ∧
      serialStep x (.action (.act 0 {})) = some x' ∧ x'.shared.row.status = .failed ∧
      SparesRelease x x' := by
  refine ⟨_, _, rfl, rfl, rfl, ?_⟩
  have hspr := exoneration calm _ _ detecting 0 {} { status := .downloading }
    "client reports 'missingFiles'" calm_init rfl rfl rfl (by decide) rfl
    [.action (.act 0 {}), .action (.act 0 {}), .crash] _ (by decide) rfl
  exact hspr.2 (fun _ => .inl rfl) nextCycle _ rfl (.action (.act 0 {})) _ rfl

end QueueProtocol

end PlexManager
