import PlexManager.Core.EventStreams

/-!
# What the hub keeps

A queue holds nothing but what was published before. A subscription that is closed holds no
event and takes none, so that its reader finds the sentinel next, and one that is open holds
no sentinel. What happens at the hub is nothing to a reader whose own subscription is not
closed: it keeps its principal, and at most an event is put into its queue.
-/

namespace PlexManager

namespace EventStreams

open Sessions Realtime

/-! ### Subscriptions -/

/-- A subscription as the hub keeps it. -/
structure Subscription.Sound (nextSeq : Nat) (s : EventSubscription) : Prop where
  below : ∀ e, Item.event e ∈ s.queue → e.seq < nextSeq
  drained : s.closed = true → ∀ e, Item.event e ∉ s.queue
  plain : s.closed = false → ∀ r, Item.streamClosed r ∉ s.queue
  member : s.subscribed = !s.closed

structure HubSound (hub : EventHub) : Prop where
  positive : 0 < hub.nextSeq
  sound : ∀ s ∈ hub.subscriptions, Subscription.Sound hub.nextSeq s

/-- Nothing happens to a subscription that its reader would have to know of. -/
structure SteadyAt (k : Nat) (hub hub' : EventHub) : Prop where
  later : hub.nextSeq ≤ hub'.nextSeq
  kept : ∀ s, hub.subscriptions[k]? = some s → ∃ s', hub'.subscriptions[k]? = some s' ∧
    s'.authMethod = s.authMethod ∧ s'.userId = s.userId ∧ s'.closed = s.closed ∧
      (s.closed = true → s' = s)

theorem SteadyAt.refl (k : Nat) (hub : EventHub) : SteadyAt k hub hub :=
  ⟨Nat.le_refl _, fun s hs => ⟨s, hs, rfl, rfl, rfl, fun _ => rfl⟩⟩

variable {hub : EventHub} {n : Nat} {s : EventSubscription} {e : RealtimeEvent}

theorem Subscription.Sound.later {n' : Nat} (hn : n ≤ n')
    (h : Subscription.Sound n s) : Subscription.Sound n' s :=
  { h with
    below e he := Nat.lt_of_lt_of_le (h.below e he) hn }

theorem Subscription.Sound.enqueue (size : Nat) (h : Subscription.Sound n s) (he : e.seq < n) :
    Subscription.Sound n (s.enqueue size e) := by
  unfold EventSubscription.enqueue
  by_cases hshut : s.closed = true
  · rw [if_pos hshut]
    exact h
  rw [if_neg hshut]
  by_cases hroom : s.queue.length < size
  · rw [if_pos hroom]
    refine ⟨?_, fun hc => absurd hc hshut, ?_, h.member⟩
    · intro e' he'
      have hmem := List.mem_append.mp he'
      cases hmem with
      | inl hold => exact h.below e' hold
      | inr hnew =>
        have heq : e' = e := by simpa using hnew
        exact heq ▸ he
    · intro hopen r hr
      have hmem := List.mem_append.mp hr
      cases hmem with
      | inl hold => exact h.plain hopen r hold
      | inr hnew => simp at hnew
  · rw [if_neg hroom]
    refine ⟨?_, fun hc => absurd hc hshut, fun _ r hr => by
      simp [EventSubscription.replaceWith] at hr, h.member⟩
    intro e' he'
    -- Only the event that stands for all of them is left.
    have heq : e' = { seq := e.seq, topics := ["sync"], reason := "overflow" } := by
      simpa [EventSubscription.replaceWith] using he'
    rw [heq]
    exact he

theorem Subscription.Sound.close (h : Subscription.Sound n s) (reason : Option String) :
    Subscription.Sound n (s.close reason) := by
  unfold EventSubscription.close
  by_cases hshut : s.closed = true
  · rw [if_pos hshut]
    exact h
  · rw [if_neg hshut]
    exact ⟨fun e he => by simp at he, fun _ e he => by simp at he,
      fun hopen => by simp at hopen, rfl⟩

theorem enqueue_fields (size : Nat) (e : RealtimeEvent) (s : EventSubscription) :
    (s.enqueue size e).authMethod = s.authMethod ∧ (s.enqueue size e).userId = s.userId ∧
      (s.enqueue size e).closed = s.closed ∧ (s.closed = true → s.enqueue size e = s) := by
  unfold EventSubscription.enqueue EventSubscription.replaceWith
  by_cases hshut : s.closed = true
  · simp only [if_pos hshut, implies_true, and_self]
  · by_cases hroom : s.queue.length < size
    · simp [hshut, hroom]
    · simp [hshut, hroom]

theorem close_closed (s : EventSubscription) (reason : Option String) :
    (s.close reason).closed = true := by
  unfold EventSubscription.close
  by_cases hshut : s.closed = true
  · rw [if_pos hshut]
    exact hshut
  · rw [if_neg hshut]

theorem close_principal (s : EventSubscription) (reason : Option String) :
    (s.close reason).authMethod = s.authMethod ∧ (s.close reason).userId = s.userId := by
  unfold EventSubscription.close
  by_cases hshut : s.closed = true
  · rw [if_pos hshut]
    exact ⟨rfl, rfl⟩
  · rw [if_neg hshut]
    exact ⟨rfl, rfl⟩

/-! ### The hub -/

theorem HubSound.subscribe (h : HubSound hub) (m : Option String)
    (id : Option Nat) : HubSound (hub.subscribe m id).2 := by
  refine ⟨h.positive, ?_⟩
  intro s hs
  have hmem := List.mem_append.mp hs
  cases hmem with
  | inl hold => exact h.sound s hold
  | inr hnew =>
    have heq := List.mem_singleton.mp hnew
    have hfresh : Subscription.Sound hub.nextSeq { authMethod := m, userId := id } :=
      ⟨fun e he => by simp at he, fun hc => by simp at hc, fun _ r hr => by simp at hr, rfl⟩
    -- The event that says so has a number that is taken already.
    have hseq : hub.nextSeq - 1 < hub.nextSeq := by
      have := h.positive
      omega
    rw [heq]
    exact hfresh.enqueue _ hseq

theorem steady_subscribe (m : Option String) (id : Option Nat) (k : Nat) :
    SteadyAt k hub (hub.subscribe m id).2 := by
  refine ⟨Nat.le_refl _, ?_⟩
  intro s hs
  have hlt : k < hub.subscriptions.length := (List.getElem?_eq_some_iff.mp hs).1
  have hsame : (hub.subscribe m id).2.subscriptions[k]? = some s := by
    show (hub.subscriptions ++ _)[k]? = _
    rw [List.getElem?_append_left hlt]
    exact hs
  exact ⟨s, hsame, rfl, rfl, rfl, fun _ => rfl⟩

theorem HubSound.publish {hub' : EventHub} (h : HubSound hub) {topics : List String}
    {reason : String} (hpub : hub.publish topics reason = some (e, hub')) :
    HubSound hub' ∧ ∀ k, SteadyAt k hub hub' := by
  unfold EventHub.publish at hpub
  by_cases htopics : topics = []
  · simp [htopics] at hpub
  simp only [if_neg htopics, Option.some.injEq, Prod.mk.injEq] at hpub
  have hhub := hpub.2
  subst hhub
  constructor
  · refine ⟨Nat.succ_pos _, ?_⟩
    intro s hs
    have hmem := List.mem_map.mp hs
    rcases hmem with ⟨r, hr, hrs⟩
    have hthen := (h.sound r hr).later (Nat.le_succ hub.nextSeq)
    by_cases hsub : r.subscribed = true
    · rw [if_pos hsub] at hrs
      rw [← hrs]
      exact hthen.enqueue _ (Nat.lt_succ_self _)
    · rw [if_neg hsub] at hrs
      rw [← hrs]
      exact hthen
  · intro k
    refine ⟨Nat.le_succ _, ?_⟩
    intro s hs
    refine ⟨_, by rw [List.getElem?_map, hs]; rfl, ?_⟩
    by_cases hsub : s.subscribed = true
    · simp only [if_pos hsub]
      exact enqueue_fields _ _ s
    · simp [hsub]

theorem steady_modify (hub : EventHub) (f : EventSubscription → EventSubscription) {k k' : Nat}
    (hne : k ≠ k') : SteadyAt k' hub (hub.modify k f) := by
  refine ⟨Nat.le_refl _, ?_⟩
  intro s hs
  have hsame : (hub.modify k f).subscriptions[k']? = some s := by
    show (hub.subscriptions.modify k f)[k']? = _
    rw [List.getElem?_modify_ne _ _ hne]
    exact hs
  exact ⟨s, hsame, rfl, rfl, rfl, fun _ => rfl⟩

theorem HubSound.modify (h : HubSound hub) (k : Nat) (f : EventSubscription → EventSubscription)
    (hf : ∀ s, hub.subscriptions[k]? = some s → Subscription.Sound hub.nextSeq (f s)) :
    HubSound (hub.modify k f) := by
  refine ⟨h.positive, ?_⟩
  intro s hs
  have hmem := List.mem_iff_getElem?.mp hs
  rcases hmem with ⟨n, hn⟩
  have hn' : (hub.subscriptions.modify k f)[n]? = some s := hn
  by_cases hkn : k = n
  · subst hkn
    rw [List.getElem?_modify_eq] at hn'
    have hgot := Option.map_eq_some_iff.mp hn'
    rcases hgot with ⟨r, hr, hrs⟩
    rw [← hrs]
    exact hf r hr
  · rw [List.getElem?_modify_ne _ _ hkn] at hn'
    exact h.sound s (List.mem_of_getElem? hn')

theorem HubSound.closeStreams (h : HubSound hub) (closing : Option Closing) :
    HubSound (closeStreams hub closing) := by
  cases closing with
  | none => exact h
  | some closing =>
    refine ⟨h.positive, ?_⟩
    intro s hs
    have hmem := List.mem_map.mp hs
    rcases hmem with ⟨r, hr, hrs⟩
    by_cases hclose : (r.subscribed && r.isMatching (closing.authMethod.map AuthMethod.value)
        closing.userId) = true
    · rw [if_pos hclose] at hrs
      rw [← hrs]
      exact (h.sound r hr).close _
    · rw [if_neg hclose] at hrs
      rw [← hrs]
      exact h.sound r hr

end EventStreams

end PlexManager
