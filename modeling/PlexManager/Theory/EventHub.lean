import PlexManager.Core.EventHub

/-!
# What a reader is told

What a reader has received and what is in its queue are one stream. Events come to its end with
numbers that rise. A full queue is cut off before one event is put there that stands for all,
and closing cuts it off for good. So nothing that is published for an open reader is lost: the
stream names it, or has a later event that stands for it.
-/

namespace PlexManager

namespace Realtime

/-- What is asked of a hub. -/
inductive HubCall where
  | subscribe (authMethod : Option String) (userId : Option Nat)
  | publish (topics : List String) (reason : String)
  | get (k : Nat)
  | close (k : Nat) (reason : Option String)
  | closeMatching (reason : String) (authMethod : Option String) (userId : Option Nat)

/-- A hub, with what one reader has received and what was published since it subscribed. -/
structure Watch where
  hub : EventHub
  received : List Item := []
  offered : List RealtimeEvent := []

def afterGet (s : EventSubscription) : Item → EventSubscription
  | .event _ => s
  | .streamClosed _ => s.close none

/-- A `get` that finds nothing waits. -/
def Watch.step (k : Nat) (w : Watch) : HubCall → Watch
  | .subscribe authMethod userId => { w with hub := (w.hub.subscribe authMethod userId).2 }
  | .publish topics reason =>
    match w.hub.publish topics reason with
    | none => w
    | some (e, hub) => { w with hub, offered := w.offered ++ [e] }
  | .get j =>
    match w.hub.subscriptions[j]?.bind EventSubscription.get with
    | none => w
    | some (item, s) =>
      { w with
        hub := w.hub.modify j fun _ => afterGet s item
        received := if j = k then w.received ++ [item] else w.received }
  | .close j reason => { w with hub := w.hub.modify j (·.close reason) }
  | .closeMatching reason authMethod userId =>
    { w with hub := w.hub.closeMatching reason authMethod userId }

/-- A reader comes to a hub that has been asked anything, of which it is the `k`-th. -/
def subscribed (hub : EventHub) (earlier : List HubCall) (authMethod : Option String)
    (userId : Option Nat) : Nat × EventHub :=
  (earlier.foldl (Watch.step 0) { hub }).hub.subscribe authMethod userId

/-! ### A reader -/

def Before (a b : Item) : Prop := ∀ e e', a = .event e → b = .event e' → e.seq ≤ e'.seq

def Covers (e : RealtimeEvent) (seq : Nat) (topic : String) : Prop :=
  (e.seq = seq ∧ topic ∈ e.topics) ∨ (e.topics = ["sync"] ∧ seq ≤ e.seq)

structure Told (n : Nat) (stream : List Item) (offered : List RealtimeEvent)
    (s : EventSubscription) : Prop where
  ordered : stream.Pairwise Before
  below : ∀ e, Item.event e ∈ stream → e.seq < n
  earlier : ∀ e ∈ offered, e.seq < n
  covered : s.closed = false → ∀ e ∈ offered, ∀ topic ∈ e.topics,
    ∃ e', Item.event e' ∈ stream ∧ Covers e' e.seq topic
  plain : s.closed = false → ∀ reason, Item.streamClosed reason ∉ stream
  ended : s.closed = true → ∃ events reason, stream = events ++ [.streamClosed reason] ∧
    (∀ r, Item.streamClosed r ∉ events) ∧ (s.queue = [] ∨ s.queue = [.streamClosed reason])
  member : s.subscribed = !s.closed

variable {n : Nat} {stream kept received : List Item} {offered : List RealtimeEvent}
  {s : EventSubscription} {e : RealtimeEvent}

theorem Told.put (h : Told n stream offered s) (hkept : kept <+: stream) (hopen : s.closed = false)
    (he : e.seq = n) {f : RealtimeEvent} (hf : f.seq = n)
    (hall : kept = stream ∧ f = e ∨ f.topics = ["sync"]) (queue : List Item) :
    Told (n + 1) (kept ++ [.event f]) (offered ++ [e]) { s with queue } where
  ordered := by
    refine List.pairwise_append.mpr ⟨h.ordered.sublist hkept.sublist, List.pairwise_singleton _ _,
      fun a ha b hb old new hold hnew => ?_⟩
    rw [List.mem_singleton.mp hb] at hnew
    cases hnew
    have := h.below old (hold ▸ hkept.subset ha)
    omega
  below old hold := by
    rcases List.mem_append.mp hold with hold | hold
    · exact Nat.lt_succ_of_lt (h.below old (hkept.subset hold))
    · cases List.mem_singleton.mp hold
      omega
  earlier old hold := by
    rcases List.mem_append.mp hold with hold | hold
    · exact Nat.lt_succ_of_lt (h.earlier old hold)
    · rw [List.mem_singleton.mp hold]
      omega
  covered _ old hold topic htopic := by
    rcases hall with ⟨rfl, rfl⟩ | hsync
    · rcases List.mem_append.mp hold with hold | hold
      · rcases h.covered hopen old hold topic htopic with ⟨e'', hmem, hcovers⟩
        exact ⟨e'', List.mem_append_left _ hmem, hcovers⟩
      · rw [List.mem_singleton.mp hold] at htopic ⊢
        exact ⟨f, List.mem_append_right _ List.mem_cons_self, .inl ⟨rfl, htopic⟩⟩
    -- A full queue is emptied for a sync, which covers all that was offered.
    · refine ⟨f, List.mem_append_right _ List.mem_cons_self, .inr ⟨hsync, ?_⟩⟩
      rcases List.mem_append.mp hold with hold | hold
      · have := h.earlier old hold
        omega
      · rw [List.mem_singleton.mp hold]
        omega
  plain _ reason hreason := by
    rcases List.mem_append.mp hreason with hreason | hreason
    · exact h.plain hopen reason (hkept.subset hreason)
    · exact nomatch List.mem_singleton.mp hreason
  ended hclosed := nomatch hopen.symm.trans hclosed
  member := h.member

theorem Told.publish (h : Told n (received ++ s.queue) offered s) (size : Nat) (he : e.seq = n) :
    let s' := if s.subscribed then s.enqueue size e else s
    Told (n + 1) (received ++ s'.queue) (offered ++ [e]) s' := by
  cases hclosed : s.closed with
  | true =>
    have hout : s.subscribed = false := by rw [h.member, hclosed]; rfl
    simp only [hout, Bool.false_eq_true, if_false]
    refine { h with
      below := fun e he => Nat.lt_succ_of_lt (h.below e he)
      earlier := fun old hold => ?_
      covered := fun hopen => nomatch hclosed.symm.trans hopen }
    rcases List.mem_append.mp hold with hold | hold
    · exact Nat.lt_succ_of_lt (h.earlier old hold)
    · rw [List.mem_singleton.mp hold]
      omega
  | false =>
    have hin : s.subscribed = true := by rw [h.member, hclosed]; rfl
    simp only [hin, if_true]
    rw [EventSubscription.enqueue, if_neg (by simp [hclosed])]
    split
    · have hput := h.put List.prefix_rfl hclosed he he (.inl ⟨rfl, rfl⟩) (s.queue ++ [.event e])
      rwa [List.append_assoc] at hput
    · exact h.put (List.prefix_append _ _) hclosed he (f := ⟨e.seq, ["sync"], "overflow", none⟩) he
        (.inr rfl) _

theorem Told.close (h : Told n (received ++ s.queue) offered s) (reason : Option String) :
    Told n (received ++ (s.close reason).queue) offered (s.close reason) := by
  unfold EventSubscription.close
  cases hclosed : s.closed with
  | true => exact h
  | false =>
    have hkept : received <+: received ++ s.queue := List.prefix_append _ _
    refine ⟨List.pairwise_append.mpr ⟨h.ordered.sublist hkept.sublist, List.pairwise_singleton _ _,
      ?_⟩, fun e he => ?_, h.earlier, nofun, nofun,
        fun _ => ⟨received, reason, rfl, ?_, .inr rfl⟩, rfl⟩
    · intro a _ b hb e e' _ hb'
      rw [List.mem_singleton.mp hb] at hb'
      exact nomatch hb'
    · rcases List.mem_append.mp he with he | he
      · exact h.below e (hkept.subset he)
      · exact nomatch List.mem_singleton.mp he
    · exact fun r hr => h.plain hclosed r (hkept.subset hr)

theorem Told.get (h : Told n (received ++ s.queue) offered s) {item : Item}
    {s' : EventSubscription} (hget : s.get = some (item, s')) :
    Told n (received ++ [item] ++ (afterGet s' item).queue) offered (afterGet s' item) := by
  unfold EventSubscription.get at hget
  split at hget
  · exact nomatch hget
  next rest hqueue =>
  cases hget
  have hstream : received ++ [item] ++ rest = received ++ s.queue := by
    rw [hqueue, List.append_assoc, List.singleton_append]
  have hrest : Told n (received ++ [item] ++ rest) offered { s with queue := rest } := by
    rw [hstream]
    refine { h with ended := fun hclosed => ?_ }
    rcases h.ended hclosed with ⟨events, reason, hends, hplain, hleft⟩
    refine ⟨events, reason, hends, hplain, .inl ?_⟩
    rcases hleft with hleft | hleft
    · exact nomatch hqueue.symm.trans hleft
    · exact (List.cons.inj (hqueue.symm.trans hleft)).2
  cases item with
  | event e => exact hrest
  | streamClosed reason =>
    have hclosed : s.closed = true := by
      cases hopen : s.closed with
      | true => rfl
      | false =>
        refine absurd (List.mem_append_right _ ?_) (h.plain hopen reason)
        rw [hqueue]
        exact List.mem_cons_self
    dsimp only [afterGet, EventSubscription.close]
    rw [if_pos hclosed]
    exact hrest

/-! ### The hub -/

def Watch.Served (k : Nat) (w : Watch) : Prop :=
  ∃ s, w.hub.subscriptions[k]? = some s ∧ Told w.hub.nextSeq (w.received ++ s.queue) w.offered s

theorem served_step {k : Nat} {w : Watch} (h : w.Served k) (call : HubCall) :
    (w.step k call).Served k := by
  rcases h with ⟨s, hs, htold⟩
  cases call with
  | subscribe m id =>
    have hlt := (List.getElem?_eq_some_iff.mp hs).1
    exact ⟨s, (List.getElem?_append_left hlt).trans hs, htold⟩
  | publish topics reason =>
    by_cases htopics : topics = []
    · simp only [Watch.step, EventHub.publish, if_pos htopics]
      exact ⟨s, hs, htold⟩
    · simp only [Watch.step, EventHub.publish, if_neg htopics]
      refine ⟨_, ?_, htold.publish w.hub.maxQueueSize rfl⟩
      rw [List.getElem?_map, hs]
      rfl
  | get j =>
    cases hgot : w.hub.subscriptions[j]?.bind EventSubscription.get with
    | none =>
      simp only [Watch.step, hgot]
      exact ⟨s, hs, htold⟩
    | some got =>
      simp only [Watch.step, hgot]
      by_cases hj : j = k
      · subst hj
        rw [hs] at hgot
        simp only [if_true]
        refine ⟨_, ?_, htold.get hgot⟩
        rw [EventHub.modify, List.getElem?_modify_eq, hs]
        rfl
      · rw [if_neg hj]
        exact ⟨s, (List.getElem?_modify_ne _ _ hj).trans hs, htold⟩
  | close j reason =>
    by_cases hj : j = k
    · subst hj
      refine ⟨_, ?_, htold.close reason⟩
      rw [Watch.step, EventHub.modify, List.getElem?_modify_eq, hs]
      rfl
    · exact ⟨s, (List.getElem?_modify_ne _ _ hj).trans hs, htold⟩
  | closeMatching reason m id =>
    simp only [Watch.Served, Watch.step, EventHub.closeMatching, List.getElem?_map, hs,
      Option.map_some, Option.some.injEq, exists_eq_left']
    split
    · exact htold.close (some reason)
    · exact htold

theorem positive_step {k : Nat} {w : Watch} (h : 0 < w.hub.nextSeq) (call : HubCall) :
    0 < (w.step k call).hub.nextSeq := by
  cases call with
  | publish topics reason =>
    by_cases htopics : topics = []
    · simpa only [Watch.step, EventHub.publish, if_pos htopics] using h
    · simp only [Watch.step, EventHub.publish, if_neg htopics]
      exact Nat.succ_pos _
  | get j =>
    simp only [Watch.step]
    split
    · exact h
    · exact h
  | _ => exact h

theorem served_subscribe {hub : EventHub} (h : 0 < hub.nextSeq) (m : Option String)
    (id : Option Nat) : Watch.Served (hub.subscribe m id).1 { hub := (hub.subscribe m id).2 } := by
  refine ⟨_, List.getElem?_concat_length, ?_⟩
  have hroom : ([] : List Item).length < hub.maxQueueSize := hub.positive
  rw [EventSubscription.enqueue, if_neg Bool.false_ne_true, if_pos hroom]
  refine ⟨List.pairwise_singleton _ _, fun e he => ?_, nofun, fun _ => nofun, fun _ _ => nofun,
    nofun, rfl⟩
  cases List.mem_singleton.mp he
  show hub.nextSeq - 1 < hub.nextSeq
  omega

/-- Whatever was asked of the hub before and after a reader subscribed: the numbers that it
    finds never fall. As long as it is open, what was published since is named in what it has
    received or will find, or an event that is not older stands for all. Once closed, it finds
    one reason and nothing behind it. And it is in the set of the hub while it is open. -/
theorem hub_delivers (maxQueueSize : Nat) (positive : 0 < maxQueueSize)
    (appVersion m : Option String)
    (id : Option Nat) (earlier later : List HubCall) :
    let start := subscribed { maxQueueSize, positive, appVersion } earlier m id
    let w := later.foldl (Watch.step start.1) { hub := start.2 }
    ∃ s, w.hub.subscriptions[start.1]? = some s ∧ s.subscribed = !s.closed ∧
      (w.received ++ s.queue).Pairwise Before ∧
      (s.closed = false → ∀ e ∈ w.offered, ∀ topic ∈ e.topics,
        ∃ e', Item.event e' ∈ w.received ++ s.queue ∧ Covers e' e.seq topic) ∧
      (s.closed = true → ∃ events reason, w.received ++ s.queue = events ++ [.streamClosed reason] ∧
        (∀ r, Item.streamClosed r ∉ events) ∧
          (s.queue = [] ∨ s.queue = [.streamClosed reason])) := by
  have hpos := List.foldlRecOn (motive := fun w : Watch => 0 < w.hub.nextSeq) earlier (Watch.step 0)
    (b := { hub := { maxQueueSize, positive, appVersion } }) Nat.one_pos
    fun w h call _ => positive_step h call
  rcases List.foldlRecOn (motive := Watch.Served _) later (Watch.step _)
    (served_subscribe hpos m id) fun w h call _ => served_step h call with ⟨s, hs, h⟩
  exact ⟨s, hs, h.member, h.ordered, h.covered, h.ended⟩

/-- A queue of one, in which the first event still waits. -/
theorem hub_delivers_overflow :
    let start := subscribed { maxQueueSize := 1, positive := Nat.one_pos } [] none none
    let w := [.publish ["queue"] "grab"].foldl (Watch.step start.1) { hub := start.2 }
    ∃ s, w.hub.subscriptions[start.1]? = some s ∧
      ∃ e, Item.event e ∈ w.received ++ s.queue ∧ Covers e 1 "queue" := by
  obtain ⟨s, hs, -, -, h, -⟩ :=
    hub_delivers 1 Nat.one_pos none none none [] [.publish ["queue"] "grab"]
  cases hs
  exact ⟨_, rfl, h rfl _ List.mem_cons_self "queue" List.mem_cons_self⟩

end Realtime

end PlexManager
