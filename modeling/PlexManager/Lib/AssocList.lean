import Mathlib.Data.List.Basic

/-!
# Lists of pairs that are looked up

A list of pairs stands for a mapping: a key finds the value of the first pair that has it.
What is found after the list was rewritten is what was found before, rewritten, as long as
the pairs keep their keys or are dropped by them.

## Theorems

* `lookup_map_values`, `lookup_filter_keys`: What a key finds after a rewrite.
-/

namespace AssocList

universe u v w

variable {κ : Type u} {V : Type v} {W : Type w} [BEq κ] [LawfulBEq κ] {entries : List (κ × V)}
  {key : κ} {value : V}

/-- Where only values are rewritten, a key finds what it found before, rewritten. -/
theorem lookup_map_values (f : κ → V → W) (entries : List (κ × V)) (key : κ) :
    (entries.map fun entry => (entry.1, f entry.1 entry.2)).lookup key =
      (entries.lookup key).map (f key) := by
  induction entries with
  | nil => rfl
  | cons entry rest ih =>
    rw [List.map_cons, List.lookup_cons, List.lookup_cons]
    by_cases hkey : key = entry.1
    · simp [hkey]
    · simp only [beq_eq_false_iff_ne.mpr hkey, ih]

theorem lookup_filter_keys (p : κ → Bool) (entries : List (κ × V)) (key : κ) :
    (entries.filter fun entry => p entry.1).lookup key =
      if p key then entries.lookup key else none := by
  induction entries with
  | nil => simp
  | cons entry rest ih =>
    rw [List.filter_cons, List.lookup_cons]
    by_cases hp : p entry.1 = true
    · rw [if_pos hp, List.lookup_cons, ih]
      by_cases hkey : key = entry.1
      · simp [hkey, hp]
      · simp [beq_eq_false_iff_ne.mpr hkey]
    · -- The head is dropped, and it would have been found by no key that is kept.
      rw [if_neg hp, ih]
      by_cases hkey : key = entry.1
      · simp [hkey, hp]
      · simp [beq_eq_false_iff_ne.mpr hkey]

theorem lookup_isSome : (entries.lookup key).isSome = true ↔ key ∈ entries.map Prod.fst := by
  induction entries with
  | nil => simp
  | cons entry rest ih =>
    rw [List.lookup_cons]
    by_cases hkey : key = entry.1
    · simp [hkey]
    · simp only [beq_eq_false_iff_ne.mpr hkey, ih, List.map_cons, List.mem_cons, hkey, false_or]

theorem lookup_eq_none : entries.lookup key = none ↔ key ∉ entries.map Prod.fst := by
  rw [← lookup_isSome, Bool.not_eq_true, Option.isSome_eq_false_iff, Option.isNone_iff_eq_none]

theorem lookup_eq_some (hdist : (entries.map Prod.fst).Nodup) :
    entries.lookup key = some value ↔ (key, value) ∈ entries := by
  induction entries with
  | nil => simp
  | cons entry rest ih =>
    rw [List.map_cons, List.nodup_cons] at hdist
    rw [List.lookup_cons, List.mem_cons, Prod.ext_iff]
    by_cases hkey : key = entry.1
    · -- The rest has no pair with the key of the head.
      have hrest : (key, value) ∉ rest := fun h =>
        hdist.1 (hkey ▸ List.mem_map_of_mem h)
      simp [hkey, hkey ▸ hrest, eq_comm]
    · simp only [beq_eq_false_iff_ne.mpr hkey, ih hdist.2, hkey, false_and, false_or]

end AssocList
