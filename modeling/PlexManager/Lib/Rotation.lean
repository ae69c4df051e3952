import Mathlib.Data.List.Nodup
import Mathlib.Data.List.Perm.Subperm

/-!
# Rotation

A round serves the first few of a queue. If in the queue those who have been served
stand behind those who have not, a round serves as many of the latter as it has
places, so all members of a group have been served after as many rounds as it takes
to count them off.

The order of the queue is not part of this: whatever the queue is sorted by, what is
needed is that no one who has been served stands before one who has not.

## Main definitions

* `waiting`: The members who have not been served.

## Theorems

* `take_filter`: The first few of a queue, as far as they have a property that the
  front of the queue has.
* `length_waiting_append`: A round serves as many as it has places.
* `served_of_rounds`: When everyone has been served.
-/

namespace Rotation

variable {α : Type}

/-- If the elements with a property are at the front, taking some and asking for the
    property can be exchanged. -/
theorem take_filter (l : List α) (p : α → Bool)
    (hfr : l.Pairwise fun a b => p b = true → p a = true) (k : Nat) :
    (l.take k).filter p = (l.filter p).take k := by
  induction l generalizing k with
  | nil => simp
  | cons a l ih =>
    rcases List.pairwise_cons.mp hfr with ⟨hhead, hrest⟩
    cases k with
    | zero => simp
    | succ k =>
      by_cases ha : p a = true
      · simp [ha, ih hrest]
      -- Nobody behind has the property either.
      have hnone : ∀ b ∈ l, ¬ p b = true := fun b hb hpb => ha (hhead b hb hpb)
      have hnil : l.filter p = [] := List.filter_eq_nil_iff.mpr hnone
      have hnil' : (l.take k).filter p = [] :=
        List.filter_eq_nil_iff.mpr fun b hb => hnone b (List.mem_of_mem_take hb)
      simp [ha, hnil, hnil']

variable [DecidableEq α]

/-- The members of a group who have not been served. -/
def waiting (group served : List α) : List α := group.filter fun a => a ∉ served

variable {group served : List α} {batch : List α}

theorem mem_waiting {a : α} : a ∈ waiting group served ↔ a ∈ group ∧ a ∉ served := by
  simp [waiting]

theorem waiting_nodup (hgroup : group.Nodup) :
    (waiting group served).Nodup := hgroup.filter _

theorem waiting_append (group served batch : List α) :
    waiting group (served ++ batch) = waiting (waiting group served) batch := by
  unfold waiting
  rw [List.filter_filter]
  refine List.filter_congr fun a _ => ?_
  by_cases ha : a ∈ batch
  · simp [ha]
  · simp [ha]

/-- Those who are served are taken off. -/
theorem length_waiting_add (hbatch : batch.Nodup) (hsub : ∀ a ∈ batch, a ∈ group) :
    (waiting group batch).length + batch.length ≤ group.length := by
  have hserv : batch.length ≤ (group.filter fun a => a ∈ batch).length := by
    refine (hbatch.subperm fun a ha => ?_).length_le
    exact List.mem_filter.mpr ⟨hsub a ha, by simpa using ha⟩
  have hspl := List.length_eq_length_filter_add (l := group) fun a => decide (a ∈ batch)
  have hrest : (waiting group batch).length =
      (group.filter fun a => !decide (a ∈ batch)).length := by
    unfold waiting
    simp only [decide_not]
  omega

/-- A round that serves distinct members of a group who were waiting, as many as it
    has places if there are so many. -/
theorem length_waiting_append {picked : List α} {places : Nat} (hpicked : picked.Nodup)
    (hwait : ∀ a ∈ picked, a ∈ waiting group served) (hserve : ∀ a ∈ picked, a ∈ batch)
    (hfull : min places (waiting group served).length ≤ picked.length) :
    (waiting group (served ++ batch)).length ≤ (waiting group served).length - places := by
  rw [waiting_append]
  have hcnt := length_waiting_add hpicked hwait
  have hfewer : (waiting (waiting group served) batch).length ≤
      (waiting (waiting group served) picked).length := by
    refine (List.monotone_filter_right _ fun a ha => ?_).length_le
    simp only [decide_eq_true_eq] at ha ⊢
    exact fun hpick => ha (hserve a hpick)
  omega

/-- After as many rounds as it takes to count a group off, nobody is waiting. -/
theorem served_of_rounds {places rounds : Nat} (hput : 1 ≤ places)
    (hrounds : (group.length + places - 1) / places ≤ rounds)
    (hwait : (waiting group served).length ≤ group.length - rounds * places) :
    ∀ a ∈ group, a ∈ served := by
  have henough : group.length ≤ rounds * places := by
    have hdiv := Nat.div_add_mod (group.length + places - 1) places
    have hmod := Nat.mod_lt (group.length + places - 1) hput
    have hle : places * ((group.length + places - 1) / places) ≤ places * rounds :=
      Nat.mul_le_mul_left places hrounds
    have hcomm : places * rounds = rounds * places := Nat.mul_comm places rounds
    omega
  have hnone : waiting group served = [] := List.length_eq_zero_iff.mp (by omega)
  intro a ha
  by_contra hnot
  have hmem : a ∈ waiting group served := mem_waiting.mpr ⟨ha, hnot⟩
  rw [hnone] at hmem
  cases hmem

end Rotation
