import PlexManager.Lib.Interleaving
import PlexManager.Lib.Program

/-!
# Programs side by side

Any number of programs take turns, one operation each, on a state that they share.
Each has an id and something of its own besides, which no other program touches.

A `Pact` is what they agree on, after Jones: an invariant of the shared state, and for
each id what the program with that id relies on while the others move. What one relies
on is a preorder, so that nothing more happens in many moves than in one. A program
keeps the pact if each of its operations keeps the invariant and moves the state as
every other program relies on.

Seen from one program, the others are interference: at each of its operations the state
is one that it may have become since its last operation. That makes one program a
machine of its own, whose world remembers how the state was left, and a pact a contract
of that machine. So whatever is known of programs by `Spec` applies, and the postconditions
speak of the state as the program has left it.

## Main definitions

* `Task`, `Task.next`: A program on its way, and its next operation.
* `Pact`: What programs agree on.
* `Sight`, `alone`, `Pact.contract`: One program, and the others as interference.
* `Pact.outline`: What is asserted of all of them.

## Theorems

* `Spec.operate`: The rule of one operation.
* `Pact.sound`: Programs that keep a pact keep its outline.
* `Pact.moves`: A step is as the others rely on.
* `Pact.event`: So is what happens beside them.
-/

namespace Effects

open Interleaving

variable {Op : Type} {Ans : Op → Type} {Shared Own Choice Out : Type} {ε σ α : Type}

/-- A program on its way, with what it has of its own. -/
structure Task (Op : Type) (Ans : Op → Type) (Own Out : Type) where
  id : Nat
  own : Own
  program : Program Op Ans Out

/-- The operation that comes next. -/
def Task.upcoming (t : Task Op Ans Own Out) : Option Op :=
  match t.program with
  | .ret _ => none
  | .call op _ => some op

/-- What a program has ended with, once it has. -/
def Task.outcome (t : Task Op Ans Own Out) : Option Out :=
  match t.program with
  | .ret r => some r
  | .call _ _ => none

/-- What carries out the operations of the program with an id. -/
abbrev Exec (Op : Type) (Ans : Op → Type) (Shared Own Choice : Type) : Type :=
  Nat → (op : Op) → Choice → Shared × Own → Option (Ans op × Shared × Own)

/-- One operation. One that cannot be carried out yet is waited for. -/
def Task.next (exec : Exec Op Ans Shared Own Choice) (c : Choice) (s : Shared)
    (t : Task Op Ans Own Out) : Shared × Task Op Ans Own Out :=
  match t.program with
  | .ret _ => (s, t)
  | .call op next => match exec t.id op c (s, t.own) with
    | none => (s, t)
    | some (answer, s', own) => (s', { t with own := own, program := next answer })

/-- What programs agree on: an invariant of what they share, and what each of them relies
    on while the others move. -/
structure Pact (Shared : Type) where
  Inv : Shared → Prop
  Rely : Nat → Shared → Shared → Prop
  refl : ∀ id s, Rely id s s
  trans : ∀ id s t u, Rely id s t → Rely id t u → Rely id s u

/-! ### One program -/

/-- What a program knows of itself: what it has of its own, and the shared state as its
    last operation left it and as it found it. -/
structure Sight (Shared Own : Type) where
  own : Own
  left : Shared
  found : Shared

/-- The shared state as it is now, with what the program knows. -/
structure Standing (Shared Own : Type) where
  shared : Shared
  sight : Sight Shared Own

variable (exec : Exec Op Ans Shared Own Choice) (Allowed : Op → Choice → Shared × Own → Prop)
  (P : Pact Shared) (id : Nat)

/-- One program, as a machine. -/
def alone :
    Machine Op Ans (Standing Shared Own) Choice Empty where
  exec op c w := (exec id op c (w.shared, w.sight.own)).map fun r =>
    (r.1, { shared := r.2.1, sight := { own := r.2.2, left := r.2.1, found := w.shared } })
  event e := nomatch e
  boot w := w
  main := .ret ()

/-- The pact as a contract of one program: between two of its operations the state has
    become one it relies on, and with each of them it moves as the others do. -/
def Pact.contract : Contract (Standing Shared Own) (Sight Shared Own) where
  view := Standing.sight
  Inv w := P.Inv w.shared ∧ P.Rely id w.sight.left w.shared
  Guarantee _ v := ∀ other, other ≠ id → P.Rely other v.found v.left

def asking :
    Terms Op (Standing Shared Own) Choice Empty where
  call op c w := Allowed op c (w.shared, w.sight.own)

/-- What a program on its way may be relied on for, alone among the others. -/
abbrev SafeAmong
    (Q : α → Sight Shared Own → Prop) (p : Program Op Ans α) (v : Sight Shared Own) : Prop :=
  Safe ((alone exec id).under (asking Allowed)) (P.contract id) Q p v

abbrev SpecAmong (st : σ)
    (v : Sight Shared Own) (x : Run Op Ans ε σ α) (Q : α → σ → Sight Shared Own → Prop)
    (E : ε → σ → Sight Shared Own → Prop) : Prop :=
  Spec ((alone exec id).under (asking Allowed)) (P.contract id) st v x Q E

variable {w : World Shared (Task Op Ans Own Out)} {c : Choice} {t : Task Op Ans Own Out}

section Rules

variable {exec : Exec Op Ans Shared Own Choice} {Allowed : Op → Choice → Shared × Own → Prop}
  {P : Pact Shared} {id : Nat}

/-- What the machine of one program does is what is carried out for it. -/
theorem alone_exec {op : Op} {w w' : Standing Shared Own} {a : Ans op}
    (h : ((alone exec id).under (asking Allowed)).exec op c w = some (a, w')) :
    Allowed op c (w.shared, w.sight.own) ∧
      exec id op c (w.shared, w.sight.own) = some (a, w'.shared, w'.sight.own) ∧
      w'.sight.left = w'.shared ∧ w'.sight.found = w.shared := by
  rcases Machine.under_exec h with ⟨hmay, hexec⟩
  rcases Option.map_eq_some_iff.mp hexec with ⟨⟨b, s, o⟩, hb, heq⟩
  cases heq
  exact ⟨hmay, hb, rfl, rfl⟩

/-- The rule of one operation: from every state that the one left behind may have become,
    it keeps the invariant and moves as the others rely on. -/
theorem Spec.operate {st : σ} {v : Sight Shared Own} {op : Op}
    {Q : Ans op → σ → Sight Shared Own → Prop} {E : ε → σ → Sight Shared Own → Prop}
    (h : ∀ s c a s' own, P.Inv s → P.Rely id v.left s → Allowed op c (s, v.own) →
      exec id op c (s, v.own) = some (a, s', own) →
      P.Inv s' ∧ (∀ other, other ≠ id → P.Rely other s s') ∧ Q a st ⟨own, s', s⟩) :
    SpecAmong exec Allowed P id st v (Run.perform op : Run Op Ans ε σ (Ans op)) Q E := by
  refine .perform ?_
  rintro w c a ⟨s', own, left, found⟩ ⟨hinv, hrely⟩ rfl hexec
  rcases alone_exec hexec with ⟨hmay, hstep, hleft, hgot⟩
  cases hleft
  cases hgot
  rcases h w.shared c a s' own hinv hrely hmay hstep with ⟨hinv', hmove, hpost⟩
  exact ⟨hmove, ⟨hinv', P.refl id s'⟩, hpost⟩

end Rules

/-! ### All of them -/

/-- What is asserted while programs run that end as `R` says: the invariant, and of each
    that it is safe to go on with from a state this one may have come from. -/
def Pact.outline (exec : Exec Op Ans Shared Own Choice)
    (Allowed : Nat → Op → Choice → Shared × Own → Prop) (R : Nat → Out → Sight Shared Own → Prop) :
    Outline Shared (Task Op Ans Own Out) where
  Shared := P.Inv
  Local s t := ∃ left found, P.Rely t.id left s ∧
    SafeAmong exec (Allowed t.id) P t.id (R t.id) t.program ⟨t.own, left, found⟩
  Apart a b := a.id ≠ b.id
  weight _ := 0
  held _ := 0

/-- A step is allowed if the operation it carries out is. -/
def Task.Permits (Allowed : Nat → Op → Choice → Shared × Own → Prop) (s : Shared)
    (t : Task Op Ans Own Out) (c : Choice) : Prop :=
  ∀ op, t.upcoming = some op → Allowed t.id op c (s, t.own)

section Soundness

variable {exec : Exec Op Ans Shared Own Choice}
  {Allowed : Nat → Op → Choice → Shared × Own → Prop} {P : Pact Shared}
  {R : Nat → Out → Sight Shared Own → Prop}

theorem Task.next_id (c : Choice) (s : Shared) (t : Task Op Ans Own Out) :
    (t.next exec c s).2.id = t.id := by
  unfold Task.next
  split
  · rfl
  · split <;> rfl

/-- One step keeps the invariant, moves as the others rely on, and leaves a task that is
    safe to go on with. -/
theorem Pact.turn {s : Shared} (hinv : P.Inv s) (hloc : (P.outline exec Allowed R).Local s t)
    (hperm : t.Permits Allowed s c) :
    P.Inv (t.next exec c s).1 ∧
      (∀ other, other ≠ t.id → P.Rely other s (t.next exec c s).1) ∧
      (P.outline exec Allowed R).Local (t.next exec c s).1 (t.next exec c s).2 := by
  rcases hloc with ⟨left, found, hrely, hsafe⟩
  cases hprogram : t.program with
  | ret r =>
    have hnext : t.next exec c s = (s, t) := by
      unfold Task.next
      rw [hprogram]
    rw [hnext]
    exact ⟨hinv, fun other _ => P.refl other s, left, found, hrely, hsafe⟩
  | call op next =>
    cases hexec : exec t.id op c (s, t.own) with
    | none =>
      have hnext : t.next exec c s = (s, t) := by
        unfold Task.next
        rw [hprogram]
        simp only [hexec]
      rw [hnext]
      exact ⟨hinv, fun other _ => P.refl other s, left, found, hrely, hsafe⟩
    | some r =>
      rcases r with ⟨answer, s', own⟩
      have hnext : t.next exec c s = (s', { t with own := own, program := next answer }) := by
        unfold Task.next
        rw [hprogram]
        simp only [hexec]
      rw [hnext]
      rw [hprogram] at hsafe
      have hmay : Allowed t.id op c (s, t.own) := hperm op (by
        unfold Task.upcoming
        rw [hprogram])
      -- Alone, the program could take the same step, and there it is safe.
      have hstep : ((alone exec t.id).under (asking (Allowed t.id))).exec op c
          ⟨s, t.own, left, found⟩ = some (answer, ⟨s', own, s', s⟩) := by
        simp only [Machine.under]
        rw [if_pos (show (asking (Allowed t.id)).call op c ⟨s, t.own, left, found⟩ from hmay)]
        simp only [alone, hexec, Option.map_some]
      rcases hsafe ⟨s, t.own, left, found⟩ ⟨hinv, hrely⟩ rfl c answer _ hstep with
        ⟨hmove, hinv', hrest⟩
      exact ⟨hinv'.1, hmove, s', s, P.refl t.id s', hrest⟩

/-- Programs that keep a pact keep what is asserted of all of them. -/
theorem Pact.sound : (P.outline exec Allowed R).Sound (Task.next exec)
    fun s t c => t.Permits Allowed s c where
  symm _ _ h := h.symm
  own s t c hinv hloc _ hperm :=
    ⟨(P.turn hinv hloc hperm).1, (P.turn hinv hloc hperm).2.2⟩
  frame := by
    intro s a b c hinv ha hb hsep _ hperm
    have hmove := (P.turn hinv ha hperm).2.1 b.id (Ne.symm hsep)
    rcases hb with ⟨left, found, hrely, hsafe⟩
    exact ⟨left, found, P.trans b.id left s _ hrely hmove, hsafe⟩
  apart s a b c _ _ _ hsep := by
    change (a.next exec c s).2.id ≠ b.id
    rw [Task.next_id]
    exact hsep
  account _ _ _ _ _ _ := rfl

section

variable (h : (P.outline exec Allowed R).Holds w)
include h

/-- A step of one of them is as every other id relies on. -/
theorem Pact.moves {w' : World Shared (Task Op Ans Own Out)} {i : Nat}
    (hperm : ∀ t, w.actors[i]? = some t → t.Permits Allowed w.shared c)
    (hact : w.act (Task.next exec) i c = some w') :
    ∃ t, w.actors[i]? = some t ∧ ∀ other, other ≠ t.id → P.Rely other w.shared w'.shared := by
  rcases World.act_eq_some hact with ⟨t, before, after, hi, hactors, rfl⟩
  have hmem : t ∈ w.actors := List.mem_of_getElem? hi
  exact ⟨t, hi, (P.turn h.shared (h.locals t hmem) (hperm t hi)).2.1⟩

/-- What happens beside the programs keeps what is asserted, if all of them rely on it. -/
theorem Pact.event {s : Shared} (hinv : P.Inv s) (hrely : ∀ id, P.Rely id w.shared s) :
    (P.outline exec Allowed R).Holds { w with shared := s } where
  shared := hinv
  locals t ht := by
    rcases h.locals t ht with ⟨left, found, hfrom, hsafe⟩
    exact ⟨left, found, P.trans t.id left w.shared s hfrom (hrely t.id), hsafe⟩
  apart := h.apart
  account := h.account

theorem Pact.joins (hnew : ∀ u ∈ w.actors, u.id ≠ t.id)
    (hsafe : SafeAmong exec (Allowed t.id) P t.id (R t.id) t.program ⟨t.own, w.shared, w.shared⟩) :
    (P.outline exec Allowed R).Holds (w.spawn t) :=
  h.spawn (fun _ _ hsep => hsep.symm) ⟨w.shared, w.shared, P.refl t.id w.shared, hsafe⟩
    (fun u hu => (hnew u hu).symm) rfl

theorem Pact.ended {r : Out} (ht : t ∈ w.actors) (hend : t.outcome = some r) :
    ∃ left found, P.Rely t.id left w.shared ∧ R t.id r ⟨t.own, left, found⟩ := by
  rcases h.locals t ht with ⟨left, found, hrely, hsafe⟩
  unfold Task.outcome at hend
  split at hend
  · rename_i q hq
    cases hend
    rw [hq] at hsafe
    exact ⟨left, found, hrely, hsafe⟩
  · exact nomatch hend

end

end Soundness

end Effects
