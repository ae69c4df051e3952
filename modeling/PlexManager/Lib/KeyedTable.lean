import Mathlib.Data.List.Nodup

/-!
# Tables with a unique key

A table of a database: rows in the order in which they were inserted, no two of
which have the same key. Uniqueness is a field of the table, as the unique index
makes it one, so that no operation below can break it and what a key finds is
the only row there is. A row is looked up, inserted unless its key is taken,
rewritten in place under the same key, or deleted.

## Main definitions

* `Table`, `Table.find`: Tables, and the row of a key.
* `Table.insert`, `Table.modify`, `Table.erase`: The writes to one row.
* `Table.filter`, `Table.rewrite`: The writes to all rows.

## Theorems

* `Table.find_eq_some`, `Table.find_eq_none`: What a key finds.
* `Table.find_insert`, `Table.find_modify`, `Table.find_erase`,
  `Table.find_filter`, `Table.find_rewrite`: What it finds after a write.
-/

namespace KeyedTable

variable {κ ρ : Type} [DecidableEq κ]

/-- Rows of a type under a key that no two of them share. -/
structure Table (key : ρ → κ) where
  rows : List ρ
  unique : (rows.map key).Nodup

namespace Table

variable {key : ρ → κ}

instance [DecidableEq ρ] : DecidableEq (Table key) := fun t t' =>
  decidable_of_iff (t.rows = t'.rows) ⟨fun h => by cases t; cases t'; cases h; rfl, congrArg rows⟩

variable {t : Table key} {k : κ} {r s : ρ}

omit [DecidableEq κ] in
theorem ext {t' : Table key} (h : t.rows = t'.rows) : t = t' := by
  cases t'
  cases h
  rfl

def empty : Table key := ⟨[], List.nodup_nil⟩

def find (t : Table key) (k : κ) : Option ρ := t.rows.find? fun r => key r = k

theorem find_eq_none : t.find k = none ↔ ∀ r ∈ t.rows, key r ≠ k := by
  simp [find]

theorem find_eq_some : t.find k = some r ↔ r ∈ t.rows ∧ key r = k := by
  constructor
  · intro h
    exact ⟨List.mem_of_find?_eq_some h, by simpa using List.find?_some h⟩
  · rintro ⟨hr, hk⟩
    cases h : t.find k with
    | none => exact absurd hk (find_eq_none.mp h r hr)
    | some r' =>
      have hr' := List.mem_of_find?_eq_some h
      have hk' : key r' = k := by simpa using List.find?_some h
      rw [List.inj_on_of_nodup_map t.unique hr hr' (hk.trans hk'.symm)]

theorem key_of_find (h : t.find k = some r) : key r = k :=
  (find_eq_some.mp h).2

/-! ### Writes -/

def insert (t : Table key) (r : ρ) : Table key :=
  if h : key r ∈ t.rows.map key then t
  else ⟨t.rows ++ [r], by
    rw [List.map_append, List.nodup_append]
    refine ⟨t.unique, by simp, ?_⟩
    intro a ha b hb heq
    rw [List.map_singleton, List.mem_singleton] at hb
    exact h (hb ▸ heq ▸ ha)⟩

def modify (t : Table key) (k : κ) (f : ρ → ρ) (hf : ∀ r, key (f r) = key r) : Table key :=
  ⟨t.rows.map fun r => if key r = k then f r else r, by
    have hsame : (t.rows.map fun r => if key r = k then f r else r).map key = t.rows.map key := by
      rw [List.map_map]
      refine List.map_congr_left fun r _ => ?_
      by_cases hk : key r = k
      · simp [hk, hf]
      · simp [hk]
    exact hsame ▸ t.unique⟩

def erase (t : Table key) (k : κ) : Table key :=
  ⟨t.rows.filter fun r => key r ≠ k, t.unique.sublist (List.filter_sublist.map key)⟩

def filter (t : Table key) (p : ρ → Bool) : Table key :=
  ⟨t.rows.filter p, t.unique.sublist (List.filter_sublist.map key)⟩

/-- Rewrite every row, leaving its key alone. -/
def rewrite (t : Table key) (f : ρ → ρ) (hf : ∀ r, key (f r) = key r) : Table key :=
  ⟨t.rows.map f, by
    have hsame : (t.rows.map f).map key = t.rows.map key := by
      rw [List.map_map]
      exact List.map_congr_left fun r _ => hf r
    exact hsame ▸ t.unique⟩

theorem mem_insert (h : s ∈ (t.insert r).rows) : s ∈ t.rows ∨ s = r := by
  unfold insert at h
  split at h
  · exact .inl h
  · simpa using h

theorem mem_modify {f : ρ → ρ} {hf : ∀ r, key (f r) = key r}
    (h : s ∈ (t.modify k f hf).rows) : s ∈ t.rows ∨ ∃ r ∈ t.rows, key r = k ∧ s = f r := by
  rcases List.mem_map.mp h with ⟨r, hr, rfl⟩
  by_cases hk : key r = k
  · exact .inr ⟨r, hr, hk, if_pos hk⟩
  · rw [if_neg hk]
    exact .inl hr

theorem mem_erase (h : s ∈ (t.erase k).rows) : s ∈ t.rows :=
  (List.mem_filter.mp h).1

theorem find_insert_of_some (h : t.find (key r) = some s) : t.insert r = t := by
  have hmem : key r ∈ t.rows.map key := by
    rw [← key_of_find h]
    exact List.mem_map_of_mem (find_eq_some.mp h).1
  simp [insert, hmem]

theorem find_insert (t : Table key) (r : ρ) (k : κ) :
    (t.insert r).find k =
      (t.find k).or (if key r = k then some r else none) := by
  unfold insert
  split
  · rename_i htaken
    cases h : t.find k with
    | some s => rfl
    | none =>
      have hne : key r ≠ k := by
        rcases List.mem_map.mp htaken with ⟨s, hs, hks⟩
        exact fun hk => find_eq_none.mp h s hs (hks.trans hk)
      simp [hne]
  · simp only [find, List.find?_append, List.find?_singleton, decide_eq_true_eq]

theorem find_modify (t : Table key) (k : κ) (f : ρ → ρ) (hf : ∀ r, key (f r) = key r) (k' : κ) :
    (t.modify k f hf).find k' = (t.find k').map fun r => if k' = k then f r else r := by
  have hkey : ∀ r, key (if key r = k then f r else r) = key r := by
    intro r
    by_cases hk : key r = k
    · rw [if_pos hk, hf]
    · rw [if_neg hk]
  cases h : t.find k' with
  | none =>
    refine find_eq_none.mpr ?_
    intro r hr
    rcases List.mem_map.mp hr with ⟨s, hs, rfl⟩
    rw [hkey]
    exact find_eq_none.mp h s hs
  | some r =>
    rcases find_eq_some.mp h with ⟨hr, rfl⟩
    refine find_eq_some.mpr ⟨List.mem_map.mpr ⟨r, hr, rfl⟩, hkey r⟩

theorem find_insert_new (h : t.find (key r) = none) (k : κ) :
    (t.insert r).find k = if k = key r then some r else t.find k := by
  rw [find_insert]
  by_cases hk : k = key r
  · rw [hk, h, if_pos rfl]
    rfl
  · rw [if_neg hk, if_neg (Ne.symm hk), Option.or_none]

theorem find_modify_row (h : t.find k = some r) (f : ρ → ρ) (hf : ∀ r, key (f r) = key r) (k' : κ) :
    (t.modify k f hf).find k' = if k' = k then some (f r) else t.find k' := by
  rw [find_modify]
  by_cases hk : k' = k
  · rw [hk, h, Option.map_some, if_pos rfl, if_pos rfl]
  · simp [hk]

/-- What holds of the row that is put under a key, and of all others, holds of every row. -/
theorem forall_put {f g : κ → Option ρ} {P : κ → ρ → Prop}
    (hput : ∀ k', g k' = if k' = k then some r else f k') (hr : P k r)
    (hoth : ∀ k' s, k' ≠ k → f k' = some s → P k' s) : ∀ k' s, g k' = some s → P k' s := by
  intro k' s hs
  rw [hput] at hs
  split at hs
  · rename_i hk
    cases hs
    exact hk ▸ hr
  · rename_i hk
    exact hoth k' s hk hs

theorem find_erase (t : Table key) (k k' : κ) :
    (t.erase k).find k' = if k' = k then none else t.find k' := by
  by_cases hk : k' = k
  · rw [if_pos hk]
    refine find_eq_none.mpr fun r hr => ?_
    rw [hk]
    simpa using (List.mem_filter.mp hr).2
  · rw [if_neg hk]
    cases h : t.find k' with
    | none =>
      exact find_eq_none.mpr fun r hr => find_eq_none.mp h r (List.mem_filter.mp hr).1
    | some r =>
      rcases find_eq_some.mp h with ⟨hr, rfl⟩
      exact find_eq_some.mpr ⟨List.mem_filter.mpr ⟨hr, by simpa using hk⟩, rfl⟩

theorem find_filter (t : Table key) (p : ρ → Bool) (k : κ) :
    (t.filter p).find k = (t.find k).filter p := by
  cases h : t.find k with
  | none => exact find_eq_none.mpr fun r hr => find_eq_none.mp h r (List.mem_filter.mp hr).1
  | some r =>
    rcases find_eq_some.mp h with ⟨hr, rfl⟩
    by_cases hp : p r = true
    · rw [Option.filter_some_pos hp]
      exact find_eq_some.mpr ⟨List.mem_filter.mpr ⟨hr, hp⟩, rfl⟩
    rw [Option.filter_some_neg (by simpa using hp)]
    refine find_eq_none.mpr fun s hs hk => hp ?_
    rcases List.mem_filter.mp hs with ⟨hs, hps⟩
    rw [← List.inj_on_of_nodup_map t.unique hs hr hk]
    exact hps

theorem find_rewrite (t : Table key) (f : ρ → ρ) (hf : ∀ r, key (f r) = key r) (k : κ) :
    (t.rewrite f hf).find k = (t.find k).map f := by
  cases h : t.find k with
  | none =>
    refine find_eq_none.mpr fun r hr => ?_
    rcases List.mem_map.mp hr with ⟨s, hs, rfl⟩
    rw [hf]
    exact find_eq_none.mp h s hs
  | some r =>
    rcases find_eq_some.mp h with ⟨hr, rfl⟩
    exact find_eq_some.mpr ⟨List.mem_map_of_mem hr, hf r⟩

end Table

end KeyedTable
