import PlexManager.Lib.KeyedTable
import Mathlib.Logic.Function.Basic

/-!
# Rows that a session holds

An object-relational mapper gives a session one object for each row it has read,
and keeps it. A query looks for rows in the table, but a row that the session
already holds comes back as it is held, however old that is. An attribute that is
assigned is compared with the value in the object, and where the two are equal no
statement is sent to the database. A statement that updates rows where a test
holds is different: the test is made on the table, and the objects of the rows
that passed are updated along.

So a session can read what is no longer there, and can fail to write what it
assigns. Neither happens where the object of a row agrees with the table on the
column in question, and what a session writes itself never makes them disagree.

## Theorems

* `find_assign`, `assign_stores_iff`: What an assignment writes.
* `seen_of_agrees`, `map_select`: What is read where all rows agree.
* `Agrees.hold`, `Agrees.select`, `Agrees.assign`, `Agrees.update`,
  `Agrees.insert`: No operation of the session makes a row disagree.
-/

namespace IdentityMap

open KeyedTable

variable {κ ρ α β : Type} [DecidableEq κ] {key : ρ → κ}

/-- A column of a row that can be rewritten without changing its key. -/
structure Column (key : ρ → κ) (α : Type) where
  get : ρ → α
  set : α → ρ → ρ
  get_set : ∀ x r, get (set x r) = x
  key_set : ∀ x r, key (set x r) = key r

/-- A table, as its rows are committed or written by the session itself, and the
    rows that the session holds. -/
structure View (key : ρ → κ) where
  table : Table key
  held : κ → Option ρ

namespace View

/-! ### Reads -/

def seen (v : View key) (k : κ) : Option ρ := (v.held k).or (v.table.find k)

def hold (v : View key) (k : κ) : View key :=
  { v with held := Function.update v.held k (v.seen k) }

/-- The rows of the table that pass a test, each as the session has it. -/
def select (v : View key) (p : ρ → Bool) : List ρ × View key :=
  let rows := v.table.rows.filter p
  (rows.map fun r => (v.held (key r)).getD r,
    { v with held := fun k => if rows.any fun r => key r = k then v.seen k else v.held k })

def refresh (v : View key) (k : κ) : View key :=
  { v with held := Function.update v.held k (v.table.find k) }

def forget (v : View key) (k : κ) : View key :=
  { v with held := Function.update v.held k none }

def expire (v : View key) : View key := { v with held := fun _ => none }

/-! ### Writes -/

/-- An attribute of a row is assigned and flushed, or `none` where there is no
    row. Where it has the value already, as far as the session knows, the table
    is not written. -/
def assign [DecidableEq α] (c : Column key α) (k : κ) (x : α) (v : View key) :
    Option (View key) :=
  match v.seen k with
  | none => none
  | some r => some <|
      if c.get r = x then v.hold k
      else
        { table := v.table.modify k (c.set x) (c.key_set x)
          held := Function.update v.held k (some (c.set x r)) }

/-- The rows of the table that pass a test are rewritten, and what is held of them
    too. -/
def update (p : ρ → Bool) (f : ρ → ρ) (hf : ∀ r, key (f r) = key r) (v : View key) :
    View key where
  table := v.table.rewrite (fun r => if p r then f r else r) fun r => by
    split
    · exact hf r
    · rfl
  held k := (v.held k).map fun r => if (v.table.find k).any p then f r else r

/-- A new row, which the session then holds. -/
def insert (r : ρ) (v : View key) : View key where
  table := v.table.insert r
  held := Function.update v.held (key r) (some r)

/-! ### What is in the table -/

variable (v : View key) (k : κ)

@[simp] theorem table_hold : (v.hold k).table = v.table := rfl

@[simp] theorem table_refresh : (v.refresh k).table = v.table := rfl

theorem held_refresh (k' : κ) :
    (v.refresh k).held k' = if k' = k then v.table.find k else v.held k' :=
  Function.update_apply ..

theorem held_forget (k' : κ) : (v.forget k).held k' = if k' = k then none else v.held k' :=
  Function.update_apply ..

theorem held_insert (r : ρ) (k : κ) :
    (v.insert r).held k = if k = key r then some r else v.held k :=
  Function.update_apply ..

section Assign

variable [DecidableEq α] {c : Column key α} {k : κ} {x : α} {v v' : View key}

section

variable (h : v.assign c k x = some v')
include h

/-- An assignment rewrites the row unless the session has the value already. -/
theorem find_assign (k' : κ) :
    v'.table.find k' =
      if k' = k ∧ (v.seen k).map c.get ≠ some x then (v.table.find k').map (c.set x)
      else v.table.find k' := by
  unfold assign at h
  split at h
  · cases h
  rename_i r hr
  cases h
  simp only [hr, Option.map_some, ne_eq, Option.some.injEq]
  by_cases hx : c.get r = x
  · simp [hx]
  · by_cases hk : k' = k
    · simp [hx, hk, Table.find_modify]
    · simp [hx, hk, Table.find_modify]

/-- After an assignment the table has the value iff it had it or the session did
    not take it for granted. -/
theorem assign_stores_iff {r : ρ} (hr : v.table.find k = some r) :
    (v'.table.find k).map c.get = some x ↔
      ((v.seen k).map c.get = some x → c.get r = x) := by
  rw [find_assign h k, hr]
  by_cases hx : (v.seen k).map c.get = some x
  · simp [hx]
  · simp [hx, c.get_set]

theorem get_find_assign {d : Column key β} (hsep : ∀ y r, d.get (c.set y r) = d.get r) (k' : κ) :
    (v'.table.find k').map d.get = (v.table.find k').map d.get := by
  rw [find_assign h k']
  split
  · cases v.table.find k' with
    | none => rfl
    | some r => simp [hsep]
  · rfl

theorem held_assign (k' : κ) :
    v'.held k' = if k' = k then (v.seen k).map (fun r => if c.get r = x then r else c.set x r)
      else v.held k' := by
  unfold assign at h
  split at h
  · exact nomatch h
  rename_i r hr
  cases h
  by_cases hk : k' = k
  · by_cases hx : c.get r = x
    · simp [hx, hk, hold, hr]
    · simp [hx, hk, hr]
  · by_cases hx : c.get r = x
    · simp [hx, hk, hold]
    · simp [hx, hk]

end

end Assign

@[simp] theorem find_update (p : ρ → Bool) (f : ρ → ρ) (hf : ∀ r, key (f r) = key r) (k : κ) :
    (v.update p f hf).table.find k = (v.table.find k).map fun r => if p r then f r else r :=
  Table.find_rewrite v.table (fun r => if p r then f r else r)
    (fun r => by
      split
      · exact hf r
      · rfl) k

/-- A statement that no row passes changes nothing. -/
theorem table_update_of_forall {v : View key} {p : ρ → Bool} {f : ρ → ρ}
    (hf : ∀ r, key (f r) = key r) (h : ∀ r ∈ v.table.rows, p r = false) :
    (v.update p f hf).table = v.table := by
  have hrows : (v.update p f hf).table.rows = v.table.rows := by
    refine (List.map_congr_left fun r hr => ?_).trans (List.map_id _)
    rw [h r hr]
    rfl
  exact Table.ext hrows

/-! ### What is held of a row -/

/-- What the session holds of a row agrees with the table on a column. -/
def Agrees (c : Column key α) (v : View key) (k : κ) : Prop :=
  ∀ r r', v.held k = some r → v.table.find k = some r' → c.get r = c.get r'

section Agrees

variable {c : Column key α} {v v' : View key} {k : κ} {p : ρ → Bool}

theorem Agrees.of_not_held (h : v.held k = none) : v.Agrees c k := by
  intro r r' hr
  rw [h] at hr
  exact nomatch hr

/-- Whatever comes from the session is then what the table has. -/
theorem seen_of_agrees (h : v.Agrees c k) {r r' : ρ} (hr : v.seen k = some r)
    (hr' : v.table.find k = some r') : c.get r = c.get r' := by
  unfold seen at hr
  cases hheld : v.held k with
  | none =>
    rw [hheld, Option.none_or, hr'] at hr
    rw [Option.some.inj hr]
  | some s =>
    rw [hheld, Option.some_or] at hr
    obtain rfl := Option.some.inj hr
    exact h s r' hheld hr'

/-- A query then gives what the table has. -/
theorem map_select (h : ∀ r ∈ v.table.rows, p r = true → v.Agrees c (key r)) :
    (v.select p).1.map c.get = (v.table.rows.filter p).map c.get := by
  simp only [select, List.map_map]
  refine List.map_congr_left fun r hr => ?_
  rcases List.mem_filter.mp hr with ⟨hmem, hp⟩
  rw [Function.comp_apply]
  cases hheld : v.held (key r) with
  | none => rfl
  | some s => exact h r hmem hp s r hheld (Table.find_eq_some.mpr ⟨hmem, rfl⟩)

theorem Agrees.select (h : v.Agrees c k) (p : ρ → Bool) : (v.select p).2.Agrees c k := by
  intro r r' hr hr'
  simp only [View.select] at hr
  split at hr
  · exact seen_of_agrees h hr hr'
  · exact h r r' hr hr'

theorem agrees_refresh (v : View key) (k : κ) : (v.refresh k).Agrees c k := by
  intro r r' hr hr'
  rw [held_refresh, if_pos rfl] at hr
  rw [table_refresh, hr] at hr'
  rw [Option.some.inj hr']

section

variable (h : v.Agrees c k)
include h

theorem Agrees.refresh (k' : κ) : (v.refresh k').Agrees c k := by
  intro r r' hr hr'
  by_cases hk : k = k'
  · subst hk
    exact agrees_refresh v k r r' hr hr'
  · rw [held_refresh, if_neg hk] at hr
    exact h r r' hr hr'

theorem Agrees.forget (k' : κ) : (v.forget k').Agrees c k := by
  intro r r' hr hr'
  by_cases hk : k = k'
  · rw [held_forget, if_pos hk] at hr
    exact nomatch hr
  · rw [held_forget, if_neg hk] at hr
    exact h r r' hr hr'

theorem Agrees.assign [DecidableEq α] {k' : κ} {x : α}
    (hass : v.assign c k' x = some v') : v'.Agrees c k := by
  intro r r' hr hr'
  rw [held_assign hass] at hr
  rw [find_assign hass] at hr'
  by_cases hk : k = k'
  · subst hk
    rw [if_pos rfl] at hr
    rcases Option.map_eq_some_iff.mp hr with ⟨s, hs, rfl⟩
    by_cases hx : c.get s = x
    · rw [if_pos hx]
      rw [hs, if_neg (by simp [hx])] at hr'
      exact seen_of_agrees h hs hr'
    · rw [if_neg hx, Column.get_set]
      rw [hs, if_pos (by simp [hx])] at hr'
      rcases Option.map_eq_some_iff.mp hr' with ⟨s', -, rfl⟩
      exact (Column.get_set ..).symm
  · rw [if_neg hk] at hr
    rw [if_neg (by simp [hk])] at hr'
    exact h r r' hr hr'

/-- A statement rewrites the held row where it rewrites the one in the table. -/
theorem Agrees.update {f : ρ → ρ}
    (hf : ∀ r, key (f r) = key r) (hcol : ∀ r r', c.get r = c.get r' → c.get (f r) = c.get (f r')) :
    (v.update p f hf).Agrees c k := by
  intro r r' hr hr'
  rw [find_update] at hr'
  rcases Option.map_eq_some_iff.mp hr with ⟨s, hs, rfl⟩
  rcases Option.map_eq_some_iff.mp hr' with ⟨s', hs', rfl⟩
  rw [hs', Option.any_some]
  have hsame := h s s' hs hs'
  split
  · exact hcol s s' hsame
  · exact hsame

theorem Agrees.insert {r : ρ} (hfree : v.table.find (key r) = none) : (v.insert r).Agrees c k := by
  intro s s' hs hs'
  rw [held_insert] at hs
  rw [View.insert, Table.find_insert] at hs'
  by_cases hk : k = key r
  · rw [if_pos hk] at hs
    rw [hk, hfree, Option.none_or, if_pos rfl] at hs'
    rw [← Option.some.inj hs, ← Option.some.inj hs']
  · rw [if_neg hk] at hs
    rw [if_neg fun heq => hk heq.symm, Option.or_none] at hs'
    exact h s s' hs hs'

end

end Agrees

end View

end IdentityMap
