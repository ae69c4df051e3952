import Mathlib.Data.List.Basic

/-!
# Folds that gather

A fold that appends what it finds at each element, and that may fail at any of them, ends
well exactly if it does so at all of them, and then has what was found at some of them.
How the round is written does not matter, as long as it comes to an append.

## Main definitions

* `Gathers`: The round of such a fold.

## Theorems

* `bind_eq_ok`: A step that ends well, and then the rest.
* `Gathers.mem`: What is in the result.
* `Gathers.total`: When there is one.
* `Gathers.from_start`: The fold from another start.
-/

namespace Gather

variable {ε α β : Type}

theorem bind_eq_ok {x : Except ε α} {f : α → Except ε β} {b : β} (h : x >>= f = .ok b) :
    ∃ a, x = .ok a ∧ f a = .ok b := by
  cases x with
  | error e => exact nomatch h
  | ok a => exact ⟨a, rfl, h⟩

theorem map_eq_ok {x : Except ε α} {f : α → β} {b : β} (h : x.map f = .ok b) :
    ∃ a, x = .ok a ∧ b = f a := by
  cases x with
  | error e => exact nomatch h
  | ok a =>
    cases h
    exact ⟨a, rfl, rfl⟩

/-- A round appends what is found at an element. -/
def Gathers (f : List β → α → Except ε (List β)) (found : α → Except ε (List β)) : Prop :=
  ∀ acc x, f acc x = (found x).map (acc ++ ·)

variable {f : List β → α → Except ε (List β)} {found : α → Except ε (List β)}

theorem Gathers.cons (h : Gathers f found) (x : α) (xs : List α) (acc : List β) :
    (x :: xs).foldlM f acc = match found x with
      | .ok ys => xs.foldlM f (acc ++ ys)
      | .error e => .error e := by
  rw [List.foldlM_cons, h acc x]
  cases found x with
  | ok ys | error e => rfl

theorem Gathers.mem (h : Gathers f found) {xs : List α} {acc out : List β}
    (hout : xs.foldlM f acc = .ok out) :
    (∀ x ∈ xs, ∃ ys, found x = .ok ys) ∧
      ∀ y, y ∈ out ↔ y ∈ acc ∨ ∃ x ∈ xs, ∃ ys, found x = .ok ys ∧ y ∈ ys := by
  induction xs generalizing acc with
  | nil =>
    cases hout
    simp
  | cons x xs ih =>
    rw [h.cons] at hout
    cases hx : found x with
    | error e =>
      rw [hx] at hout
      cases hout
    | ok ys =>
      rw [hx] at hout
      rcases ih hout with ⟨hall, hmem⟩
      constructor
      · intro x' hx'
        rcases List.mem_cons.mp hx' with rfl | hx'
        · exact ⟨ys, hx⟩
        · exact hall x' hx'
      · intro y
        rw [hmem, List.mem_append]
        constructor
        · rintro ((hacc | hys) | ⟨x', hx', ys', hgot, hy⟩)
          · exact .inl hacc
          · exact .inr ⟨x, List.mem_cons_self, ys, hx, hys⟩
          · exact .inr ⟨x', List.mem_cons_of_mem x hx', ys', hgot, hy⟩
        · rintro (hacc | ⟨x', hx', ys', hgot, hy⟩)
          · exact .inl (.inl hacc)
          · rcases List.mem_cons.mp hx' with rfl | hx'
            · rw [hx] at hgot
              cases hgot
              exact .inl (.inr hy)
            · exact .inr ⟨x', hx', ys', hgot, hy⟩

theorem Gathers.total (h : Gathers f found) {xs : List α} (hall : ∀ x ∈ xs, ∃ ys, found x = .ok ys)
    (acc : List β) : ∃ out, xs.foldlM f acc = .ok out := by
  induction xs generalizing acc with
  | nil => exact ⟨acc, rfl⟩
  | cons x xs ih =>
    rcases hall x List.mem_cons_self with ⟨ys, hx⟩
    rw [h.cons, hx]
    exact ih (fun x' hx' => hall x' (List.mem_cons_of_mem x hx')) (acc ++ ys)

/-- A fold appends to what it begins with. So it is a round of a fold itself. -/
theorem Gathers.from_start (h : Gathers f found) (xs : List α) (acc : List β) :
    xs.foldlM f acc = (xs.foldlM f []).map (acc ++ ·) := by
  induction xs generalizing acc with
  | nil =>
    show Except.ok acc = .ok (acc ++ [])
    rw [List.append_nil]
  | cons x xs ih =>
    rw [h.cons, h.cons]
    cases hx : found x with
    | error e => rfl
    | ok ys =>
      dsimp only
      rw [ih (acc ++ ys), List.nil_append, ih ys]
      cases xs.foldlM f [] with
      | error e => rfl
      | ok zs =>
        show Except.ok (acc ++ ys ++ zs) = .ok (acc ++ (ys ++ zs))
        rw [List.append_assoc]

end Gather
