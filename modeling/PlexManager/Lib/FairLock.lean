import Mathlib.Data.List.Nodup

/-!
# A lock that tasks wait for in turn

A lock of a cooperative event loop. A task takes it at once if it is free and nobody
waits, and otherwise waits in a queue. A release wakes the first in the queue, and the
lock is not taken again until that task runs: until then the lock is free and still
cannot be taken by anyone else. A task that is cancelled while it waits leaves the
queue when it runs next, and hands on a wakeup that it may have got.

The queue is an invariant of its own: only its first can have been woken, and only
while the lock is free. So whoever runs with the lock is alone.

## Main definitions

* `Wait`: What has become of a task that waits.
* `Lock`, `Lock.acquire`, `Lock.resume`, `Lock.cancel`, `Lock.release`: The lock.
* `Lock.Good`: Only the first can have been woken, while the lock is free.
* `Lock.queue`, `Lock.occupied`: Who waits, and how many wait or have the lock.

## Theorems

* `good_acquire`, `good_resume`, `good_cancel`, `good_release`: This is kept.
* `acquire_of_vacant`: A lock that nobody has or awaits is taken at once.
-/

namespace FairLock

variable {τ : Type}

/-- What has become of the future that a task waits for. A task can be cancelled after
    its future is done. -/
inductive Wait where
  | pending
  | woken
  | cancelled
  | wokenCancelled
  deriving DecidableEq, Repr

/-- A task that has not been woken. -/
def Wait.asleep : Wait → Bool
  | pending => true
  | cancelled => true
  | _ => false

structure Lock (τ : Type) where
  locked : Bool := false
  waiters : List (τ × Wait) := []
  deriving DecidableEq, Repr

namespace Lock

variable (l : Lock τ)

/-- Everybody who waits has been cancelled. -/
def abandoned : Bool := l.waiters.all fun w => w.2 = .cancelled

def wakeUpFirst : Lock τ :=
  match l.waiters with
  | (t, .pending) :: ws => { l with waiters := (t, .woken) :: ws }
  | _ => l

/-- Take the lock, or wait for it. -/
def acquire (t : τ) : Bool × Lock τ :=
  if !l.locked && l.abandoned then (true, { l with locked := true })
  else (false, { l with waiters := l.waiters ++ [(t, .pending)] })

def release (l : Lock τ) : Lock τ := { l with locked := false }.wakeUpFirst

/-- Who waits. -/
def queue : List τ := l.waiters.map Prod.fst

/-- How many wait or have the lock. -/
def occupied : Nat := l.waiters.length + l.locked.toNat

/-- Tasks wait once. Only the first can have been woken, while the lock is free. -/
structure Good : Prop where
  nodup : l.queue.Nodup
  behind : ∀ w ∈ l.waiters.tail, w.2.asleep = true
  held : l.locked = true → ∀ w ∈ l.waiters, w.2.asleep = true

theorem good_free : Good ({} : Lock τ) where
  nodup := List.nodup_nil
  behind := fun _ hw => nomatch hw
  held := fun _ _ hw => nomatch hw

variable {l l' : Lock τ} {t u : τ} {wait : Wait} {got : Bool}

theorem good_acquire (h : l.Good) (hnew : t ∉ l.queue) : (l.acquire t).2.Good := by
  unfold acquire
  split
  · rename_i hfree
    have hall : ∀ w ∈ l.waiters, w.2.asleep = true := by
      intro w hw
      have hcan := List.all_eq_true.mp (Bool.and_eq_true_iff.mp hfree).2 w hw
      rw [of_decide_eq_true hcan]
      rfl
    exact ⟨h.nodup, h.behind, fun _ => hall⟩
  · refine ⟨?_, ?_, ?_⟩
    · unfold queue
      rw [List.map_append, List.nodup_append]
      refine ⟨h.nodup, by simp, ?_⟩
      intro a ha b hb heq
      rw [List.map_singleton, List.mem_singleton] at hb
      rw [heq, hb] at ha
      exact hnew ha
    · intro w hw
      cases hwait : l.waiters with
      | nil =>
        rw [hwait] at hw
        cases hw
      | cons first rest =>
        have hbehind := h.behind
        rw [hwait] at hw hbehind
        rcases List.mem_append.mp hw with hw | hw
        · exact hbehind w hw
        · rw [List.mem_singleton.mp hw]
          rfl
    · intro hlock w hw
      rcases List.mem_append.mp hw with hw | hw
      · exact h.held hlock w hw
      · rw [List.mem_singleton.mp hw]
        rfl

theorem good_wakeUpFirst (h : l.Good) (hfree : l.locked = false) : l.wakeUpFirst.Good := by
  unfold wakeUpFirst
  split
  · rename_i t ws hwait
    have hnd := h.nodup
    have hbehind := h.behind
    unfold queue at hnd
    rw [hwait] at hnd hbehind
    refine ⟨hnd, hbehind, fun hlock => ?_⟩
    rw [hfree] at hlock
    contradiction
  · exact h

theorem good_release (h : l.Good) : l.release.Good :=
  good_wakeUpFirst ⟨h.nodup, h.behind, nofun⟩ rfl

theorem acquire_free (hgot : (l.acquire t).1 = true) :
    l.locked = false ∧ (l.acquire t).2.locked = true := by
  unfold acquire at hgot ⊢
  by_cases hfree : (!l.locked && l.abandoned) = true
  · rw [if_pos hfree]
    simpa using (Bool.and_eq_true_iff.mp hfree).1
  · rw [if_neg hfree] at hgot
    contradiction

theorem locked_acquire (hwait : (l.acquire t).1 = false) : (l.acquire t).2.locked = l.locked := by
  unfold acquire at hwait ⊢
  split
  · rename_i hfree
    rw [if_pos hfree] at hwait
    contradiction
  · rfl

theorem acquire_of_vacant (h : l.occupied = 0) (t : τ) : (l.acquire t).1 = true := by
  have hnobody : l.waiters = [] := List.eq_nil_of_length_eq_zero
    (Nat.eq_zero_of_add_eq_zero_right h)
  have hfree : l.locked = false := by
    by_cases hlock : l.locked = true
    · simp [occupied, hlock] at h
    · exact Bool.not_eq_true _ ▸ hlock
  simp [acquire, abandoned, hfree, hnobody]

theorem queue_wakeUpFirst (l : Lock τ) : l.wakeUpFirst.queue = l.queue := by
  unfold wakeUpFirst queue
  split
  · rename_i t ws hwait
    rw [hwait]
    rfl
  · rfl

theorem locked_wakeUpFirst (l : Lock τ) : l.wakeUpFirst.locked = l.locked := by
  unfold wakeUpFirst
  split
  · rfl
  · rfl

theorem occupied_eq (l : Lock τ) : l.occupied = l.queue.length + l.locked.toNat := by
  rw [occupied, queue, List.length_map]

theorem occupied_wakeUpFirst (l : Lock τ) : l.wakeUpFirst.occupied = l.occupied := by
  rw [occupied_eq, occupied_eq, queue_wakeUpFirst, locked_wakeUpFirst]

theorem mem_queue_acquire (h : u ∈ (l.acquire t).2.queue) :
    u ∈ l.queue ∨ u = t ∧ (l.acquire t).1 = false := by
  unfold acquire at h ⊢
  split at h
  · exact .inl h
  rename_i hfull
  rw [if_neg hfull]
  unfold queue at h
  rw [List.map_append, List.map_singleton, List.mem_append, List.mem_singleton] at h
  exact h.imp_right fun h => ⟨h, rfl⟩

theorem occupied_acquire (l : Lock τ) (t : τ) : (l.acquire t).2.occupied = l.occupied + 1 := by
  unfold acquire occupied
  split
  · rename_i hfree
    have hlock : l.locked = false := by simpa using (Bool.and_eq_true_iff.mp hfree).1
    rw [hlock]
    rfl
  · rw [List.length_append, List.length_singleton]
    dsimp only
    omega

theorem queue_release (l : Lock τ) : l.release.queue = l.queue := queue_wakeUpFirst _

theorem occupied_release (h : l.locked = true) : l.release.occupied = l.occupied - 1 := by
  rw [release, occupied_wakeUpFirst, occupied, occupied, h]
  rfl

/-! ### The queue -/

variable [DecidableEq τ]

def without (l : Lock τ) (t : τ) : Lock τ :=
  { l with waiters := l.waiters.filter fun w => w.1 ≠ t }

def waitOf (l : Lock τ) (t : τ) : Option Wait := (l.waiters.find? fun w => w.1 = t).map Prod.snd

/-- A task runs again, with the lock or cancelled. Nothing runs it while its future is
    pending. -/
def resume (l : Lock τ) (t : τ) : Option (Bool × Lock τ) :=
  match l.waitOf t with
  | some .woken => some (true, { l.without t with locked := true })
  | some .cancelled =>
      some (false, if l.locked then l.without t else (l.without t).wakeUpFirst)
  | some .wokenCancelled =>
      some (false, if l.locked then l.without t else (l.without t).wakeUpFirst)
  | _ => none

def cancel (l : Lock τ) (t : τ) : Lock τ :=
  { l with waiters := l.waiters.map fun w =>
      if w.1 = t then (w.1, match w.2 with
        | .pending => .cancelled
        | .woken => .wokenCancelled
        | other => other)
      else w }

theorem good_without (h : l.Good) (t : τ) : (l.without t).Good where
  nodup := h.nodup.sublist (List.filter_sublist.map _)
  behind := by
    intro w hw
    refine h.behind w ?_
    cases hwait : l.waiters with
    | nil => simp [without, hwait] at hw
    | cons first rest =>
      simp only [without, hwait, List.filter_cons] at hw
      split at hw
      · exact List.mem_of_mem_filter hw
      · exact List.mem_of_mem_filter (List.mem_of_mem_tail hw)
  held := fun hlock w hw => h.held hlock w (List.mem_of_mem_filter hw)

theorem waitOf_mem (h : l.waitOf t = some wait) : (t, wait) ∈ l.waiters := by
  rcases Option.map_eq_some_iff.mp h with ⟨w, hw, rfl⟩
  have hfst : w.1 = t := by simpa using List.find?_some hw
  have hmem := List.mem_of_find?_eq_some hw
  rw [← hfst]
  exact hmem

theorem asleep_of_woken (h : l.Good) (hmem : (t, wait) ∈ l.waiters) (hwoken : wait.asleep = false) :
    ∀ w ∈ (l.without t).waiters, w.2.asleep = true := by
  intro w hw
  rcases List.mem_filter.mp hw with ⟨hw, hoth⟩
  cases hwait : l.waiters with
  | nil =>
    rw [hwait] at hw
    cases hw
  | cons first rest =>
    have hbehind := h.behind
    rw [hwait] at hw hmem hbehind
    rcases List.mem_cons.mp hw with rfl | hw
    · -- The first is not this task, so the task that was woken stands behind it.
      rcases List.mem_cons.mp hmem with heq | hmem
      · simp [← heq] at hoth
      · have hasleep := hbehind _ hmem
        rw [hwoken] at hasleep
        contradiction
    · exact hbehind w hw

theorem good_resume (h : l.Good) (hres : l.resume t = some (got, l')) : l'.Good := by
  have hrest := good_without h t
  have hcan : (if l.locked then l.without t else (l.without t).wakeUpFirst).Good := by
    split
    · exact hrest
    · rename_i hfree
      exact good_wakeUpFirst hrest (Bool.not_eq_true _ ▸ hfree)
  unfold resume at hres
  split at hres
  · rename_i hwait
    obtain rfl := (Prod.mk.inj (Option.some.inj hres)).2
    exact ⟨hrest.nodup, hrest.behind, fun _ => asleep_of_woken h (waitOf_mem hwait) rfl⟩
  · obtain rfl := (Prod.mk.inj (Option.some.inj hres)).2
    exact hcan
  · obtain rfl := (Prod.mk.inj (Option.some.inj hres)).2
    exact hcan
  · contradiction

/-- Who takes the lock after a wait finds it free. -/
theorem resume_free (h : l.Good)
    (hres : l.resume t = some (true, l')) : l.locked = false ∧ l'.locked = true := by
  unfold resume at hres
  split at hres
  · rename_i hwait
    obtain rfl := (Prod.mk.inj (Option.some.inj hres)).2
    refine ⟨?_, rfl⟩
    rw [Bool.eq_false_iff]
    intro hlock
    have hasleep := h.held hlock _ (waitOf_mem hwait)
    contradiction
  · simp at hres
  · simp at hres
  · contradiction

theorem locked_resume (hres : l.resume t = some (false, l')) : l'.locked = l.locked := by
  have hcan :
      (if l.locked then l.without t else (l.without t).wakeUpFirst).locked = l.locked := by
    split
    · rfl
    · rw [locked_wakeUpFirst]
      rfl
  unfold resume at hres
  split at hres
  · simp at hres
  · obtain rfl := (Prod.mk.inj (Option.some.inj hres)).2
    exact hcan
  · obtain rfl := (Prod.mk.inj (Option.some.inj hres)).2
    exact hcan
  · contradiction

theorem mem_queue_without (h : u ∈ (l.without t).queue) : u ∈ l.queue ∧ u ≠ t := by
  rcases List.mem_map.mp h with ⟨w, hw, rfl⟩
  rcases List.mem_filter.mp hw with ⟨hw, hoth⟩
  exact ⟨List.mem_map_of_mem hw, of_decide_eq_true hoth⟩

theorem mem_queue_resume (hres : l.resume t = some (got, l'))
    (h : u ∈ l'.queue) : u ∈ l.queue ∧ u ≠ t := by
  have hwoken : (if l.locked then l.without t else (l.without t).wakeUpFirst).queue =
      (l.without t).queue := by
    split
    · rfl
    · exact queue_wakeUpFirst _
  unfold resume at hres
  split at hres
  · obtain rfl := (Prod.mk.inj (Option.some.inj hres)).2
    exact mem_queue_without h
  · obtain rfl := (Prod.mk.inj (Option.some.inj hres)).2
    exact mem_queue_without (hwoken ▸ h)
  · obtain rfl := (Prod.mk.inj (Option.some.inj hres)).2
    exact mem_queue_without (hwoken ▸ h)
  · contradiction

theorem length_without (h : l.Good)
    (hmem : (t, wait) ∈ l.waiters) : (l.without t).waiters.length + 1 = l.waiters.length := by
  have hnd := h.nodup
  unfold queue at hnd
  unfold without
  revert hmem hnd
  induction l.waiters with
  | nil => exact nofun
  | cons w ws ih =>
    intro hmem hnd
    rw [List.map_cons, List.nodup_cons] at hnd
    by_cases hfst : w.1 = t
    · have hrest : ws.filter (fun w => decide (w.1 ≠ t)) = ws := by
        rw [List.filter_eq_self]
        intro v hv
        rw [decide_eq_true_eq]
        intro hsame
        exact hnd.1 (hfst ▸ hsame ▸ List.mem_map_of_mem hv)
      rw [List.filter_cons_of_neg (by simpa using hfst), hrest]
      rfl
    · have hthen : (t, wait) ∈ ws := by
        rcases List.mem_cons.mp hmem with rfl | hthen
        · exact absurd rfl hfst
        · exact hthen
      rw [List.filter_cons_of_pos (by simpa using hfst), List.length_cons,
        ih hthen hnd.2]
      rfl

theorem occupied_resume (h : l.Good) (hres : l.resume t = some (got, l')) :
    l'.occupied = if got then l.occupied else l.occupied - 1 := by
  -- A waiter that is cancelled leaves the queue, and wakes the next if the lock is free.
  have hcan : ∀ wait, l.waitOf t = some wait →
      (if l.locked then l.without t else (l.without t).wakeUpFirst).occupied =
        l.occupied - 1 := by
    intro wait hwait
    have hlen := length_without h (waitOf_mem hwait)
    have hsame : (if l.locked then l.without t else (l.without t).wakeUpFirst).occupied =
        (l.without t).occupied := by
      split
      · rfl
      · exact occupied_wakeUpFirst _
    rw [hsame]
    unfold occupied
    have hlock : (l.without t).locked = l.locked := rfl
    rw [hlock]
    omega
  unfold resume at hres
  split at hres
  · rename_i hwait
    obtain ⟨rfl, rfl⟩ := Prod.mk.inj (Option.some.inj hres)
    have hlen := length_without h (waitOf_mem hwait)
    have hfree : l.locked = false := by
      rw [Bool.eq_false_iff]
      intro hlock
      have hasleep := h.held hlock _ (waitOf_mem hwait)
      contradiction
    unfold occupied
    rw [hfree]
    exact hlen
  · rename_i hwait
    obtain ⟨rfl, rfl⟩ := Prod.mk.inj (Option.some.inj hres)
    exact hcan _ hwait
  · rename_i hwait
    obtain ⟨rfl, rfl⟩ := Prod.mk.inj (Option.some.inj hres)
    exact hcan _ hwait
  · contradiction

theorem queue_cancel (l : Lock τ) (t : τ) : (l.cancel t).queue = l.queue := by
  unfold cancel queue
  rw [List.map_map]
  refine List.map_congr_left fun w _ => ?_
  dsimp only [Function.comp_apply]
  split
  · rfl
  · rfl

theorem occupied_cancel (l : Lock τ) (t : τ) : (l.cancel t).occupied = l.occupied := by
  rw [occupied_eq, occupied_eq, queue_cancel]
  rfl

theorem good_cancel (h : l.Good) (t : τ) : (l.cancel t).Good := by
  let f : τ × Wait → τ × Wait := fun w =>
    if w.1 = t then (w.1, match w.2 with
      | .pending => .cancelled
      | .woken => .wokenCancelled
      | other => other)
    else w
  have hasleep : ∀ w, (f w).2.asleep = w.2.asleep := by
    intro w
    simp only [f]
    split
    · cases w.2
      · rfl
      · rfl
      · rfl
      · rfl
    · rfl
  have hmap : (l.cancel t).waiters = l.waiters.map f := rfl
  refine ⟨?_, ?_, ?_⟩
  · rw [queue_cancel]
    exact h.nodup
  · intro w hw
    rw [hmap, ← List.map_tail] at hw
    rcases List.mem_map.mp hw with ⟨w', hw', rfl⟩
    rw [hasleep]
    exact h.behind w' hw'
  · intro hlock w hw
    rcases List.mem_map.mp hw with ⟨w', hw', rfl⟩
    rw [hasleep]
    exact h.held hlock w' hw'

end Lock

end FairLock
