/-!
# Stable sorting

What a stable sort does with the elements of one kind: if they are in order to
begin with, they come out as they went in. The core library's merge sort is
stable in the sense that a sorted sublist of its input is a sublist of its
output, and the facts below are read off that.

## Theorems

* `pair_sublist`: Of two elements of a list, one comes before the other.
* `filter_mergeSort`: A part of a list that is in order survives sorting.
-/

namespace StableSort

variable {α : Type}

/-- Of two different elements of a list, one comes before the other. -/
theorem pair_sublist {l : List α} {a b : α} (ha : a ∈ l) (hb : b ∈ l) (hne : a ≠ b) :
    List.Sublist [a, b] l ∨ List.Sublist [b, a] l := by
  induction l with
  | nil => exact nomatch ha
  | cons c l ih =>
    rcases List.mem_cons.mp ha with hac | hal
    · rcases List.mem_cons.mp hb with hbc | hbl
      · exact absurd (hac.trans hbc.symm) hne
      · rw [hac]
        exact .inl (List.cons_sublist_cons.mpr (List.singleton_sublist.mpr hbl))
    · rcases List.mem_cons.mp hb with hbc | hbl
      · rw [hbc]
        exact .inr (List.cons_sublist_cons.mpr (List.singleton_sublist.mpr hal))
      · exact (ih hal hbl).imp (List.Sublist.cons c) (List.Sublist.cons c)

/-- Sorting leaves the elements of one kind as they were, if these are in order. -/
theorem filter_mergeSort {le : α → α → Bool} (trans : ∀ a b c, le a b → le b c → le a c)
    (total : ∀ a b, le a b || le b a) (l : List α) (p : α → Bool)
    (h : (l.filter p).Pairwise fun a b => le a b) : (l.mergeSort le).filter p = l.filter p := by
  have hsub : List.Sublist (l.filter p) (l.mergeSort le) :=
    List.sublist_mergeSort trans total h List.filter_sublist
  have hkept : (l.filter p).filter p = l.filter p := by simp
  refine ((hkept ▸ hsub.filter p).eq_of_length ?_).symm
  exact (((List.mergeSort_perm l le).filter p).length_eq).symm

end StableSort
