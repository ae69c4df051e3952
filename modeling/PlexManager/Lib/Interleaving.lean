import Mathlib.Algebra.GroupWithZero.Nat

/-!
# Actors that share a state

Any number of actors take turns. An actor is a value of its own, its program
counter with what it holds, and a turn is one atomic step `next`: it reads and
writes the shared state and moves the actor on. Nobody chooses the order.

An invariant of such a system has two parts, after Owicki and Gries. What is
true of the shared state must be kept by every step. What an actor relies on at
the point where it stands must be established by its own last step, and no step
of another actor may take it away. An `Outline` collects these assertions, and
`Outline.Sound` asks for each of them once, for one actor or for a pair of
actors, so the number of actors never enters a proof.

Two things can only be said of the actors together. Some pairs never coincide,
for two actors that hold different tokens, and `Apart` says so. And where the
shared state counts something, every actor contributes a `weight` and the count
is the sum. An actor that steps beside another knows that the count is at least
both their weights.

## Main definitions

* `World`, `World.spawn`, `World.act`: The shared state and the actors.
* `Outline`: The assertions about the state, each actor, each pair and the sum.
* `Outline.Holds`: A world in which all of them are true.
* `Outline.Sound`: The obligations of one step.
* `World.StandsBeside`, `Outline.SoundBeside`: The same where an actor steps only
  beside certain others.
* `Outline.strengthen`: An outline with further assertions.

## Theorems

* `Outline.Sound.act`, `Outline.SoundBeside.act`: A step of any actor keeps a
  sound outline.
* `Outline.Holds.spawn`: A new actor that is apart from all keeps it.
* `Outline.Holds.exists_weight`: What the state counts is held by somebody.
* `Outline.Holds.pair_le`: It counts what any two of them hold.
* `Outline.Sound.strengthen`: Further assertions only add their own obligations.
-/

namespace Interleaving

universe u v w

variable {σ : Type u} {A : Type v} {C : Type w}

structure World (σ : Type u) (A : Type v) where
  shared : σ
  actors : List A
  deriving DecidableEq, Repr

/-- A new actor joins. -/
def World.spawn (w : World σ A) (a : A) : World σ A := { w with actors := w.actors ++ [a] }

def World.act (next : C → σ → A → σ × A) (w : World σ A) (i : Nat) (c : C) :
    Option (World σ A) :=
  match w.actors[i]? with
  | none => none
  | some a =>
      some { shared := (next c w.shared a).1, actors := w.actors.set i (next c w.shared a).2 }

variable {w w' : World σ A} {i j : Nat} {next : C → σ → A → σ × A} {a : A} {c : C}
  {Allowed : σ → A → C → Prop} {Beside : A → A → Prop} {actors : List A}

/-- The one actor that steps, between the `i` before it and those after it. -/
theorem World.act_eq_some_at (h : w.act next i c = some w') :
    ∃ a before after, before.length = i ∧ w.actors[i]? = some a ∧
      w.actors = before ++ a :: after ∧
      w' = { shared := (next c w.shared a).1
             actors := before ++ (next c w.shared a).2 :: after } := by
  unfold World.act at h
  cases ha : w.actors[i]? with
  | none =>
    rw [ha] at h
    simp at h
  | some a =>
    rw [ha] at h
    simp only [Option.some.injEq] at h
    rcases List.getElem?_eq_some_iff.mp ha with ⟨hlt, hget⟩
    have hset : ∀ x, w.actors.set i x = w.actors.take i ++ x :: w.actors.drop (i + 1) := by
      intro x
      rw [List.set_eq_take_append_cons_drop, if_pos hlt]
    have hself : w.actors = w.actors.set i a := by
      rw [← hget, List.set_getElem_self]
    refine ⟨a, w.actors.take i, w.actors.drop (i + 1), ?_, rfl, ?_, ?_⟩
    · exact List.length_take_of_le (Nat.le_of_lt hlt)
    · rw [← hset a]
      exact hself
    · rw [← h, hset]

theorem World.act_eq_some (h : w.act next i c = some w') :
    ∃ a before after, w.actors[i]? = some a ∧ w.actors = before ++ a :: after ∧
      w' = { shared := (next c w.shared a).1
             actors := before ++ (next c w.shared a).2 :: after } := by
  rcases World.act_eq_some_at h with ⟨a, before, after, -, hrest⟩
  exact ⟨a, before, after, hrest⟩

def World.StandsBeside (w : World σ A) (Beside : A → A → Prop) (i : Nat) : Prop :=
  ∀ a b j, j ≠ i → w.actors[i]? = some a → w.actors[j]? = some b → Beside a b

/-- Everyone but the actor at a position is at another one. -/
theorem World.StandsBeside.others {before after : List A} (h : w.StandsBeside Beside before.length)
    (hact : w.actors = before ++ a :: after) : ∀ b ∈ before ++ after, Beside a b := by
  have hself : w.actors[before.length]? = some a := by
    rw [hact]
    simp
  intro b hb
  rcases List.mem_append.mp hb with hb | hb
  · rcases List.getElem?_of_mem hb with ⟨j, hj⟩
    have hlt : j < before.length := (List.getElem?_eq_some_iff.mp hj).1
    refine h a b j (by omega) hself ?_
    rw [hact, List.getElem?_append_left hlt]
    exact hj
  · rcases List.getElem?_of_mem hb with ⟨j, hj⟩
    refine h a b (before.length + 1 + j) (by omega) hself ?_
    rw [hact, List.getElem?_append_right (by omega)]
    rw [show before.length + 1 + j - before.length = j + 1 by omega, List.getElem?_cons_succ]
    exact hj

/-- Two positions of a list whose members are pairwise related. -/
theorem pairwise_of_ne {R : A → A → Prop} (symm : ∀ a b, R a b → R b a) {l : List A}
    (h : l.Pairwise R) {b : A} (hi : l[i]? = some a) (hj : l[j]? = some b)
    (hne : i ≠ j) : R a b := by
  rcases List.getElem?_eq_some_iff.mp hi with ⟨hilt, rfl⟩
  rcases List.getElem?_eq_some_iff.mp hj with ⟨hjlt, rfl⟩
  have hpair := List.pairwise_iff_getElem.mp h
  rcases Nat.lt_or_gt_of_ne hne with hlt | hgt
  · exact hpair i j hilt hjlt hlt
  · exact symm _ _ (hpair j i hjlt hilt hgt)

/-- What is asserted of the shared state, of each actor, of each pair of
    actors, and of the sum of their weights. -/
structure Outline (σ : Type u) (A : Type v) where
  Shared : σ → Prop
  Local : σ → A → Prop
  Apart : A → A → Prop
  weight : A → Nat
  held : σ → Nat

namespace Outline

/-- The assertions are true of a world. -/
structure Holds (o : Outline σ A) (w : World σ A) : Prop where
  shared : o.Shared w.shared
  locals : ∀ a ∈ w.actors, o.Local w.shared a
  apart : w.actors.Pairwise o.Apart
  account : (w.actors.map o.weight).sum = o.held w.shared

/-- The obligations of one step that is `Allowed`: the actor keeps the shared
    assertion and reaches its next one, what another actor relies on stays
    true, the two stay apart, and the sum stays right. -/
structure Sound (o : Outline σ A) (next : C → σ → A → σ × A) (Allowed : σ → A → C → Prop) :
    Prop where
  symm : ∀ a b, o.Apart a b → o.Apart b a
  own : ∀ s a c, o.Shared s → o.Local s a → o.weight a ≤ o.held s → Allowed s a c →
    o.Shared (next c s a).1 ∧ o.Local (next c s a).1 (next c s a).2
  frame : ∀ s a b c, o.Shared s → o.Local s a → o.Local s b → o.Apart a b →
    o.weight a + o.weight b ≤ o.held s → Allowed s a c → o.Local (next c s a).1 b
  apart : ∀ s a b c, o.Shared s → o.Local s a → o.Local s b → o.Apart a b →
    o.Apart (next c s a).2 b
  account : ∀ s a c, o.Shared s → o.Local s a → o.weight a ≤ o.held s →
    o.held (next c s a).1 + o.weight a = o.held s + o.weight (next c s a).2

variable (weight : A → Nat)

theorem weight_le_sum (h : a ∈ actors) : weight a ≤ (actors.map weight).sum := by
  induction actors with
  | nil => simp at h
  | cons b rest ih =>
    simp only [List.map_cons, List.sum_cons]
    rcases List.mem_cons.mp h with rfl | h
    · omega
    · have := ih h
      omega

theorem sum_middle (before after : List A) (a : A) :
    ((before ++ a :: after).map weight).sum =
      weight a + ((before ++ after).map weight).sum := by
  simp only [List.map_append, List.map_cons, List.sum_append_nat, List.sum_cons]
  omega

theorem pairwise_middle {R : A → A → Prop} (symm : ∀ a b, R a b → R b a)
    (before after : List A) (a : A) :
    (before ++ a :: after).Pairwise R ↔
      (before ++ after).Pairwise R ∧ ∀ b ∈ before ++ after, R a b := by
  simp only [List.pairwise_append, List.pairwise_cons, List.mem_cons, List.mem_append]
  constructor
  · rintro ⟨hbef, ⟨haft, hrest⟩, hcross⟩
    refine ⟨⟨hbef, hrest, fun x hx y hy => hcross x hx y (.inr hy)⟩, ?_⟩
    rintro b (hb | hb)
    · exact symm b a (hcross b hb a (.inl rfl))
    · exact haft b hb
  · rintro ⟨⟨hbef, hrest, hcross⟩, hall⟩
    refine ⟨hbef, ⟨fun y hy => hall y (.inr hy), hrest⟩, ?_⟩
    rintro x hx y (rfl | hy)
    · exact symm y x (hall x (.inl hx))
    · exact hcross x hx y hy

/-- The obligations of one step in a run that lets an actor step only `Beside`
    certain others. What another actor relies on has to survive only the steps
    that are taken beside it. -/
structure SoundBeside (o : Outline σ A) (next : C → σ → A → σ × A) (Allowed : σ → A → C → Prop)
    (Beside : A → A → Prop) : Prop where
  symm : ∀ a b, o.Apart a b → o.Apart b a
  own : ∀ s a c, o.Shared s → o.Local s a → o.weight a ≤ o.held s → Allowed s a c →
    o.Shared (next c s a).1 ∧ o.Local (next c s a).1 (next c s a).2
  frame : ∀ s a b c, o.Shared s → o.Local s a → o.Local s b → o.Apart a b → Beside a b →
    o.weight a + o.weight b ≤ o.held s → Allowed s a c → o.Local (next c s a).1 b
  apart : ∀ s a b c, o.Shared s → o.Local s a → o.Local s b → o.Apart a b → Beside a b →
    Allowed s a c → o.Apart (next c s a).2 b
  account : ∀ s a c, o.Shared s → o.Local s a → o.weight a ≤ o.held s →
    o.held (next c s a).1 + o.weight a = o.held s + o.weight (next c s a).2

variable {o : Outline σ A} {S : σ → Prop} {L : σ → A → Prop}

theorem Sound.beside (hsound : o.Sound next Allowed) (Beside : A → A → Prop) :
    o.SoundBeside next Allowed Beside :=
  { hsound with
    frame := fun s a b c hs ha hb hab _ hw hall => hsound.frame s a b c hs ha hb hab hw hall
    apart := fun s a b c hs ha hb hab _ _ => hsound.apart s a b c hs ha hb hab }

theorem SoundBeside.act (hsound : o.SoundBeside next Allowed Beside) (h : o.Holds w)
    (hby : w.StandsBeside Beside i) (hmay : ∀ a, w.actors[i]? = some a → Allowed w.shared a c)
    (hact : w.act next i c = some w') : o.Holds w' := by
  rcases World.act_eq_some_at hact with ⟨a, before, after, rfl, hi, hactors, rfl⟩
  have hall := hmay a hi
  have hmem : a ∈ w.actors := by rw [hactors]; simp
  have hloc := h.locals a hmem
  -- The others stand before and after the actor that moves.
  have hoth : ∀ b ∈ before ++ after, o.Local w.shared b := by
    intro b hb
    refine h.locals b ?_
    rw [hactors]
    simp only [List.mem_append, List.mem_cons] at hb ⊢
    rcases hb with hb | hb
    · exact .inl hb
    · exact .inr (.inr hb)
  have hpair := h.apart
  rw [hactors, pairwise_middle hsound.symm] at hpair
  rcases hpair with ⟨hrest, hsep⟩
  have hstand := hby.others hactors
  have hsum := h.account
  rw [hactors, sum_middle] at hsum
  have hheld : o.weight a ≤ o.held w.shared := by omega
  have hown := hsound.own w.shared a c h.shared hloc hheld hall
  refine ⟨hown.1, ?_, ?_, ?_⟩
  · intro b hb
    simp only [List.mem_append, List.mem_cons] at hb
    have hcas : b = (next c w.shared a).2 ∨ b ∈ before ++ after := by
      rw [List.mem_append]
      rcases hb with hb | hb | hb
      · exact .inr (.inl hb)
      · exact .inl hb
      · exact .inr (.inr hb)
    rcases hcas with rfl | hb
    · exact hown.2
    -- The actor and any other together hold no more than there is.
    have hboth : o.weight a + o.weight b ≤ o.held w.shared := by
      have := weight_le_sum o.weight hb
      omega
    exact hsound.frame w.shared a b c h.shared hloc (hoth b hb) (hsep b hb) (hstand b hb) hboth hall
  · refine (pairwise_middle hsound.symm before after _).mpr ⟨hrest, ?_⟩
    intro b hb
    exact hsound.apart w.shared a b c h.shared hloc (hoth b hb) (hsep b hb) (hstand b hb) hall
  · have hacct := hsound.account w.shared a c h.shared hloc hheld
    simp only [sum_middle]
    omega

theorem Sound.act (hsound : o.Sound next Allowed) (h : o.Holds w)
    (hmay : ∀ a, w.actors[i]? = some a → Allowed w.shared a c)
    (hact : w.act next i c = some w') : o.Holds w' := by
  exact (hsound.beside fun _ _ => True).act h (fun _ _ _ _ _ _ => trivial) hmay hact

theorem Holds.spawn (h : o.Holds w) (symm : ∀ a b, o.Apart a b → o.Apart b a)
    (hloc : o.Local w.shared a) (hsep : ∀ b ∈ w.actors, o.Apart a b)
    (hwt : o.weight a = 0) : o.Holds (w.spawn a) := by
  refine ⟨h.shared, ?_, ?_, ?_⟩
  · intro b hb
    rcases List.mem_append.mp hb with hb | hb
    · exact h.locals b hb
    · rw [List.mem_singleton.mp hb]
      exact hloc
  · refine List.pairwise_append.mpr ⟨h.apart, List.pairwise_singleton _ _, ?_⟩
    intro b hb x hx
    rw [List.mem_singleton.mp hx]
    exact symm a b (hsep b hb)
  · have := h.account
    simp only [World.spawn, List.map_append, List.sum_append_nat, List.map_cons, List.map_nil,
      List.sum_cons, List.sum_nil, hwt]
    omega

/-- Two different positions weigh no more than all together. -/
theorem pair_le_sum {b : A} (hi : actors[i]? = some a) (hj : actors[j]? = some b) (hne : i ≠ j) :
    weight a + weight b ≤ (actors.map weight).sum := by
  induction actors generalizing i j with
  | nil => simp at hi
  | cons x rest ih =>
    simp only [List.map_cons, List.sum_cons]
    cases i with
    | zero =>
      cases j with
      | zero => exact absurd rfl hne
      | succ j =>
        obtain rfl : x = a := by simpa using hi
        have := weight_le_sum weight (List.mem_of_getElem? (by simpa using hj))
        omega
    | succ i =>
      cases j with
      | zero =>
        obtain rfl : x = b := by simpa using hj
        have := weight_le_sum weight (List.mem_of_getElem? (by simpa using hi))
        omega
      | succ j =>
        have := ih (by simpa using hi) (by simpa using hj) (by omega)
        omega

theorem Holds.pair_le (h : o.Holds w) {b : A} (hi : w.actors[i]? = some a)
    (hj : w.actors[j]? = some b) (hne : i ≠ j) : o.weight a + o.weight b ≤ o.held w.shared := by
  rw [← h.account]
  exact pair_le_sum o.weight hi hj hne

theorem exists_weight_of_sum_pos
    (h : 0 < (actors.map weight).sum) : ∃ a ∈ actors, 0 < weight a := by
  induction actors with
  | nil => simp at h
  | cons a rest ih =>
    simp only [List.map_cons, List.sum_cons] at h
    by_cases ha : 0 < weight a
    · exact ⟨a, List.mem_cons_self, ha⟩
    · have hrest : 0 < (rest.map weight).sum := by omega
      rcases ih hrest with ⟨b, hb, hw⟩
      exact ⟨b, List.mem_cons_of_mem a hb, hw⟩

/-- What the state counts is held by somebody. -/
theorem Holds.exists_weight (h : o.Holds w)
    (hpos : 0 < o.held w.shared) : ∃ a ∈ w.actors, 0 < o.weight a := by
  refine exists_weight_of_sum_pos o.weight ?_
  rw [h.account]
  exact hpos

/-- The outline with one more assertion about the state and one about each
    actor. -/
def strengthen (o : Outline σ A) (S : σ → Prop) (L : σ → A → Prop) : Outline σ A :=
  { o with
    Shared := fun s => o.Shared s ∧ S s
    Local := fun s a => o.Local s a ∧ L s a }

theorem Holds.base (h : (o.strengthen S L).Holds w) : o.Holds w :=
  ⟨h.shared.1, fun a ha => (h.locals a ha).1, h.apart, h.account⟩

/-- What is added to a sound outline has only its own obligations, and may use
    the assertions of the outline for them. -/
theorem Sound.strengthen {Allowed' : σ → A → C → Prop}
    (hsound : o.Sound next Allowed) (himp : ∀ s a c, Allowed' s a c → Allowed s a c)
    (hown : ∀ s a c, o.Shared s → o.Local s a → o.weight a ≤ o.held s → Allowed' s a c →
      S s → L s a → S (next c s a).1 ∧ L (next c s a).1 (next c s a).2)
    (hfr : ∀ s a b c, o.Shared s → o.Local s a → o.Local s b → o.Apart a b →
      o.weight a + o.weight b ≤ o.held s → Allowed' s a c → S s → L s a → L s b →
      L (next c s a).1 b) :
    (o.strengthen S L).Sound next Allowed' where
  symm := hsound.symm
  own := by
    intro s a c hs ha hw hall
    have hbase := hsound.own s a c hs.1 ha.1 hw (himp s a c hall)
    have hmore := hown s a c hs.1 ha.1 hw hall hs.2 ha.2
    exact ⟨⟨hbase.1, hmore.1⟩, ⟨hbase.2, hmore.2⟩⟩
  frame := by
    intro s a b c hs ha hb hab hw hall
    exact ⟨hsound.frame s a b c hs.1 ha.1 hb.1 hab hw (himp s a c hall),
      hfr s a b c hs.1 ha.1 hb.1 hab hw hall hs.2 ha.2 hb.2⟩
  apart := fun s a b c hs ha hb hab => hsound.apart s a b c hs.1 ha.1 hb.1 hab
  account := fun s a c hs ha hw => hsound.account s a c hs.1 ha.1 hw

end Outline

end Interleaving
