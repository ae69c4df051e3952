/-!
# Runs of a labelled transition function

A system that reacts to one labelled action at a time is a partial function
`step : σ → α → Option σ`. The label carries every choice the environment
makes, so a state and a label have at most one successor, and a run is the
fold of `step` over a list of labels.

Everything proved about such a system is proved twice over: once for a single
step and once for a whole run. This file states the second half once. A
property of states that every step preserves holds at the end of every run,
and since a run cut short is again a run, that is the same as holding in every
state the run visits. Where a property is only preserved by steps that meet a
condition, `StepsMeet` says that a run takes no other step.

## Main definitions

* `run`: The fold of a step function over a list of labels.
* `StepsMeet`: Every step a run takes meets a condition on state and label.
* `Reachable`: The states some run from a start state ends in.

## Theorems

* `invariant_of_run`: A property every step preserves holds after every run.
* `invariant_of_meeting_run`: The same for runs whose steps meet a condition.
* `exists_run`: What a given run ends in.
* `stepsMeet_append`: A run meets a condition iff both its halves do.
* `exists_rise`: What holds in the end has come to hold at a step.
* `Reachable.invariant`: An inductive invariant holds in every reachable state.
* `found_set`: The parties after a step of one.
-/

namespace Transition

universe u v

variable {σ : Type u} {α : Type v} {step : σ → α → Option σ}

/-- Take the labelled steps of a list one after another, or `none` at the
    first label the system refuses. -/
def run (step : σ → α → Option σ) : σ → List α → Option σ
  | s, [] => some s
  | s, a :: as => match step s a with
    | none => none
    | some s' => run step s' as

/-- Every step the run takes meets the condition `C` in the state it is taken
    from. A run the system refuses meets a condition as far as it gets. -/
def StepsMeet (step : σ → α → Option σ) (C : σ → α → Prop) : σ → List α → Prop
  | _, [] => True
  | s, a :: as => C s a ∧ match step s a with
    | none => True
    | some s' => StepsMeet step C s' as

/-- Whether a given run meets a decidable condition can be computed. -/
instance StepsMeet.decidable {C : σ → α → Prop} [∀ s a, Decidable (C s a)] (s : σ) :
    (as : List α) → Decidable (StepsMeet step C s as)
  | [] => .isTrue trivial
  | a :: as =>
      have : Decidable (match step s a with
          | none => True
          | some s' => StepsMeet step C s' as) :=
        match step s a with
        | none => .isTrue trivial
        | some s' => StepsMeet.decidable s' as
      inferInstanceAs (Decidable (C s a ∧ _))

/-- The states that some run from a start state ends in. -/
def Reachable (step : σ → α → Option σ) (init : σ → Prop) (t : σ) : Prop :=
  ∃ s as, init s ∧ run step s as = some t

variable (s t : σ) (as bs : List α)

@[simp] theorem run_nil : run step s [] = some s := rfl

theorem run_cons_eq_some (a : α) (as : List α) :
    run step s (a :: as) = some t ↔ ∃ s', step s a = some s' ∧ run step s' as = some t := by
  simp only [run]
  cases hstep : step s a with
  | none | some s' => simp

theorem run_append : run step s (as ++ bs) = (run step s as).bind fun s' => run step s' bs := by
  induction as generalizing s with
  | nil => rfl
  | cons a as ih =>
    simp only [List.cons_append, run]
    cases step s a with
    | none => rfl
    | some s' => exact ih s'

theorem run_append_eq_some :
    run step s (as ++ bs) = some t ↔
      ∃ m, run step s as = some m ∧ run step m bs = some t := by
  rw [run_append, Option.bind_eq_some_iff]

theorem run_snoc_eq_some (a : α) :
    run step s (as ++ [a]) = some t ↔
      ∃ m, run step s as = some m ∧ step m a = some t := by
  rw [run_append_eq_some]
  constructor
  · rintro ⟨m, hm, ht⟩
    rcases (run_cons_eq_some m t a []).mp ht with ⟨s', hs', hend⟩
    exact ⟨m, hm, hend ▸ hs'⟩
  · rintro ⟨m, hm, ht⟩
    exact ⟨m, hm, (run_cons_eq_some m t a []).mpr ⟨t, ht, rfl⟩⟩

variable {C : σ → α → Prop} {I : σ → Prop}

/-- The rule for runs under a condition: what every step that meets `C`
    preserves, every run of such steps preserves. -/
theorem invariant_of_meeting_run (hstep : ∀ s a s', I s → C s a → step s a = some s' → I s')
    (s t : σ) (as : List α) (hinv : I s) (hmeet : StepsMeet step C s as)
    (hrun : run step s as = some t) : I t := by
  induction as generalizing s with
  | nil =>
    simp only [run_nil, Option.some.injEq] at hrun
    exact hrun ▸ hinv
  | cons a as ih =>
    rcases (run_cons_eq_some s t a as).mp hrun with ⟨s', hs', hrest⟩
    simp only [StepsMeet, hs'] at hmeet
    exact ih s' (hstep s a s' hinv hmeet.1 hs') hmeet.2 hrest

/-- What a run ends in can be computed. -/
theorem exists_run {P Q : σ → Prop} [DecidablePred P] {s : σ} {as : List α}
    (hends : ((run step s as).any fun t => decide (P t)) = true)
    (hQ : ∀ t, run step s as = some t → P t → Q t) : ∃ t, run step s as = some t ∧ Q t := by
  rcases (Option.any_eq_true _ _).mp hends with ⟨t, ht, hP⟩
  exact ⟨t, ht, hQ t ht (of_decide_eq_true hP)⟩

theorem exists_run_and {P Q : σ → Prop} [DecidablePred P] {s : σ} {as : List α}
    (hends : ((run step s as).any fun t => decide (P t)) = true)
    (hQ : ∀ t, run step s as = some t → P t → Q t) : ∃ t, run step s as = some t ∧ P t ∧ Q t :=
  exists_run hends fun t ht hP => ⟨hP, hQ t ht hP⟩

theorem stepsMeet_of_forall (hC : ∀ s a, C s a) (s : σ) (as : List α) : StepsMeet step C s as := by
  induction as generalizing s with
  | nil => trivial
  | cons a as ih =>
    refine ⟨hC s a, ?_⟩
    cases step s a with
    | none => trivial
    | some s' => exact ih s'

/-- A run whose labels all meet a condition on labels. -/
theorem stepsMeet_of_mem {P : α → Prop} (h : ∀ a ∈ as, P a) :
    StepsMeet step (fun _ a => P a) s as := by
  induction as generalizing s with
  | nil => trivial
  | cons a as ih =>
    refine ⟨h a List.mem_cons_self, ?_⟩
    cases step s a with
    | none => trivial
    | some s' => exact ih s' fun b hb => h b (List.mem_cons_of_mem a hb)

theorem invariant_of_run (hstep : ∀ s a s', I s → step s a = some s' → I s') (s t : σ) (as : List α)
    (hinv : I s) (hrun : run step s as = some t) : I t :=
  invariant_of_meeting_run (fun s a s' hs _ hs' => hstep s a s' hs hs') s t as hinv
    (stepsMeet_of_forall (fun _ _ => trivial) s as) hrun

theorem StepsMeet.mono {D : σ → α → Prop} (h : ∀ s a, C s a → D s a) {s : σ} {as : List α}
    (hmeet : StepsMeet step C s as) : StepsMeet step D s as := by
  induction as generalizing s with
  | nil => trivial
  | cons a as ih =>
    refine ⟨h s a hmeet.1, ?_⟩
    have hrest := hmeet.2
    cases hs : step s a with
    | none => trivial
    | some s' =>
      rw [hs] at hrest
      exact ih hrest

theorem stepsMeet_append :
    StepsMeet step C s (as ++ bs) ↔
      StepsMeet step C s as ∧ ∀ m, run step s as = some m → StepsMeet step C m bs := by
  induction as generalizing s with
  | nil => simp [StepsMeet]
  | cons a as ih =>
    simp only [List.cons_append, StepsMeet, run]
    cases step s a with
    | none => simp
    | some s' => simp only [ih s', and_assoc]

theorem Reachable.invariant {init : σ → Prop} (hinit : ∀ s, init s → I s)
    (hstep : ∀ s a s', I s → step s a = some s' → I s') {t : σ}
    (h : Reachable step init t) : I t := by
  rcases h with ⟨s, as, hs, hrun⟩
  exact invariant_of_run hstep s t as (hinit s hs) hrun

/-- A step from where something does not hold to where it does. -/
theorem exists_rise {P : σ → Prop} {s t : σ} {as : List α} (hs : ¬P s)
    (hrun : run step s as = some t) (ht : P t) :
    ∃ before a later m m', as = before ++ a :: later ∧ run step s before = some m ∧ ¬P m ∧
      step m a = some m' ∧ P m' := by
  induction as generalizing s with
  | nil => exact absurd ht (Option.some.inj hrun ▸ hs)
  | cons a as ih =>
    rcases (run_cons_eq_some s t a as).mp hrun with ⟨s', hstep, hrest⟩
    -- It holds after the first step, or comes to hold later.
    by_cases hP : P s'
    · exact ⟨[], a, as, s, s', rfl, rfl, hs, hstep, hP⟩
    rcases ih hP hrest with ⟨before, b, later, m, m', rfl, hbefore, hlast⟩
    exact ⟨a :: before, b, later, m, m', rfl,
      (run_cons_eq_some s m a before).mpr ⟨s', hstep, hbefore⟩, hlast⟩

/-- What is found in a list of parties after one of them has taken a step. -/
theorem found_set {A : Type u} {l : List A} {i n : Nat} {x y : A} (h : (l.set i x)[n]? = some y) :
    (n = i ∧ y = x) ∨ (n ≠ i ∧ l[n]? = some y) := by
  by_cases hn : i = n
  · left
    rw [List.getElem?_set, if_pos hn] at h
    split at h
    · exact ⟨hn.symm, (Option.some.inj h).symm⟩
    · contradiction
  · right
    rw [List.getElem?_set, if_neg hn] at h
    exact ⟨fun heq => hn heq.symm, h⟩

end Transition
