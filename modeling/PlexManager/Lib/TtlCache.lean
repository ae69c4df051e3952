import PlexManager.Lib.KeyedTable

/-!
# Caches whose entries expire

A cache remembers a value under a key for a fixed time. Time is read from a clock by
whoever uses the cache. An entry that has expired is dropped when it is looked up, and
every store drops all that have.

What is known of a value when it is stored is still known when it is found: `Dated` says
of every entry what held of its value when it was stored, and `Dated.get` that a value
that is found was stored less than the time to live ago.

## Main definitions

* `Cache`, `Cache.get`, `Cache.set`, `Cache.invalidate`: Caches.
* `Cache.Dated`: What held of every value when it was stored.

## Theorems

* `get_eq_some`, `get_iff`: What is found is there and has not expired.
* `Dated.get`, `Dated.set`, `Dated.invalidate`: The rules.
-/

namespace TtlCache

open KeyedTable

variable {κ V : Type} [DecidableEq κ]

structure Entry (κ V : Type) where
  key : κ
  expiresAt : Int
  value : V

structure Cache (κ V : Type) [DecidableEq κ] where
  store : Table (fun e : Entry κ V => e.key) := Table.empty

namespace Cache

/-- The value of a key, and the cache without it if it has expired. -/
def get (c : Cache κ V) (now : Int) (key : κ) : Option V × Cache κ V :=
  match c.store.find key with
  | none => (none, c)
  | some entry =>
      if entry.expiresAt ≤ now then (none, { store := c.store.erase key })
      else (some entry.value, c)

/-- Store a value, without what has expired. -/
def set (c : Cache κ V) (ttl now : Int) (key : κ) (value : V) : Cache κ V where
  store := ((c.store.filter fun e => now < e.expiresAt).erase key).insert
    { key, expiresAt := now + ttl, value }

def invalidate (c : Cache κ V) (key : κ) : Cache κ V where
  store := c.store.erase key

variable {now : Int} {key : κ} {value : V} {c : Cache κ V} {entry : Entry κ V}

/-- What is found is there and has not expired. -/
theorem get_eq_some (h : (c.get now key).1 = some value) :
    ∃ entry ∈ c.store.rows, entry.key = key ∧ entry.value = value ∧ now < entry.expiresAt ∧
      (c.get now key).2 = c := by
  unfold get at h ⊢
  cases hfind : c.store.find key with
  | none =>
    rw [hfind] at h
    contradiction
  | some entry =>
    rw [hfind] at h
    dsimp only at h ⊢
    by_cases hexp : entry.expiresAt ≤ now
    · rw [if_pos hexp] at h
      contradiction
    · rw [if_neg hexp] at h ⊢
      rcases Table.find_eq_some.mp hfind with ⟨hmem, hkey⟩
      exact ⟨entry, hmem, hkey, Option.some.inj h, by omega, rfl⟩

theorem mem_of_mem_get (h : entry ∈ (c.get now key).2.store.rows) : entry ∈ c.store.rows := by
  unfold get at h
  split at h
  · exact h
  · split at h
    · exact List.mem_of_mem_filter h
    · exact h

theorem mem_set {ttl : Int} (h : entry ∈ (c.set ttl now key value).store.rows) :
    entry ∈ c.store.rows ∨ entry = { key, expiresAt := now + ttl, value } := by
  rcases Table.mem_insert h with hold | hnew
  · exact .inl (List.mem_of_mem_filter (List.mem_of_mem_filter hold))
  · exact .inr hnew

/-- A key finds the value of its entry, if that has not expired. -/
theorem get_iff :
    (c.get now key).1 = some value ↔
      ∃ entry ∈ c.store.rows, entry.key = key ∧ entry.value = value ∧ now < entry.expiresAt := by
  constructor
  · intro h
    rcases get_eq_some h with ⟨entry, hmem, hkey, hval, hnew, -⟩
    exact ⟨entry, hmem, hkey, hval, hnew⟩
  · rintro ⟨entry, hmem, hkey, rfl, hnew⟩
    unfold get
    rw [Table.find_eq_some.mpr ⟨hmem, hkey⟩]
    dsimp only
    rw [if_neg (by omega)]

/-- What was just stored is what its key finds, if it finds anything. -/
theorem get_set_self {ttl now' : Int} {value' : V}
    (h : ((c.set ttl now key value).get now' key).1 = some value') : value' = value := by
  rcases get_iff.mp h with ⟨entry, hmem, hkey, rfl, -⟩
  rcases Table.mem_insert hmem with hold | rfl
  · have hne := (List.mem_filter.mp hold).2
    exact absurd hkey (by simpa using hne)
  · rfl

theorem get_invalidate_self : ((c.invalidate key).get now key).1 = none := by
  refine Option.eq_none_iff_forall_ne_some.mpr fun value h => ?_
  rcases get_iff.mp h with ⟨entry, hmem, hkey, -, -⟩
  have hne := (List.mem_filter.mp hmem).2
  exact absurd hkey (by simpa using hne)

/-! ### What held when it was stored -/

/-- Of every entry, what held of its value under its key when it was stored. -/
def Dated (ttl : Int) (P : κ → Int → V → Prop) (c : Cache κ V) : Prop :=
  ∀ entry ∈ c.store.rows, P entry.key (entry.expiresAt - ttl) entry.value

variable {ttl : Int} {P P' : κ → Int → V → Prop} {c : Cache κ V}

theorem dated_empty : Dated ttl P ({} : Cache κ V) := fun _ h => nomatch h

section

variable (h : Dated ttl P c)
include h

theorem Dated.mono (himp : ∀ key stored value, P key stored value → P' key stored value) :
    Dated ttl P' c := fun entry hent => himp _ _ _ (h entry hent)

/-- A value that is found was stored less than the time to live ago. -/
theorem Dated.found
    (hget : (c.get now key).1 = some value) :
    ∃ stored, now < stored + ttl ∧ P key stored value := by
  rcases get_eq_some hget with ⟨entry, hmem, hkey, hval, hnew, -⟩
  refine ⟨entry.expiresAt - ttl, by omega, ?_⟩
  rw [← hkey, ← hval]
  exact h entry hmem

theorem Dated.get (now : Int) (key : κ) : Dated ttl P (c.get now key).2 :=
  fun entry hent => h entry (mem_of_mem_get hent)

theorem Dated.set (hnow : P key now value) : Dated ttl P (c.set ttl now key value) := by
  intro entry hent
  rcases mem_set hent with hold | hnew
  · exact h entry hold
  · rw [hnew]
    rw [Int.add_sub_cancel]
    exact hnow

theorem Dated.invalidate (key : κ) : Dated ttl P (c.invalidate key) :=
  fun entry hent => h entry (List.mem_of_mem_filter hent)

end

end Cache

end TtlCache
