import PlexManager.Theory.EventStreams.Requests

/-!
# What ends an event stream

A stream rests on what its request was admitted on: the recovery key, or a session row and,
for a Plex account, its permissions. A commit that takes any of this away strikes the
request, and the action that has committed goes on to close the streams of a principal. Once
it has returned, nothing that is published later may be sent to a request it has struck.

Two things stand in the way. A request that was admitted has no subscription yet, so that an
action which returns meanwhile closes nothing, and the request subscribes afterwards. And a
repoint revokes the sessions of the recovery key with all others but closes the streams of
Plex accounts only. Where neither happens, every stream is silent in time.

A stream that has ended has said so once, in its last frame, with the reason of the action
that closed it, or with the one of its lease.

## Theorems

* `streams_end`: Runs on these terms end honestly.
* `stream_outlives`: Without the terms it fails in two ways.
-/

namespace PlexManager

namespace EventStreams

open KeyedTable Sessions Realtime Transition

/-! ### Silence, and the last frame -/

/-- Streams are silent in time, and end with one frame that says why. -/
structure World.Honest (w : World) : Prop where
  /-- What is published once an action has returned is not sent to whom it has struck. -/
  silent : ∀ c ∈ w.connects, ∀ j ∈ c.struckBy, ∀ a e n, w.actions[j]? = some a →
    a.progress = .returned e n → ∀ event, Frame.realtime event ∈ c.frames → event.seq < n
  /-- A stream that the server has ended has sent one closing frame, as its last. -/
  ended : ∀ c ∈ w.connects, ∀ k cause, c.phase = .ended k cause →
    ∃ before, c.frames = before ++ cause.frames ∧ ∀ r, Frame.closed r ∉ before
  running : ∀ c ∈ w.connects, (∀ k cause, c.phase ≠ .ended k cause) →
    ∀ r, Frame.closed r ∉ c.frames
  /-- Its reason is the one of the action that has closed it. -/
  reason : ∀ c ∈ w.connects, ∀ k r, c.phase = .ended k (.hub r) →
    ∃ j a e n closing, c.cutBy = some j ∧ w.actions[j]? = some a ∧
      a.progress = .returned e n ∧ e.closing = some closing ∧ closing.reason = r

def Connect.openSubscription (hub : EventHub) (c : Connect) : Option EventSubscription :=
  match c.phase with
  | .streaming stream => (hub.subscriptions[stream.subscription]?).filter fun s => !s.closed
  | _ => none

def Progress.isReturned : Progress → Bool
  | returned _ _ => true
  | _ => false

/-- Nobody subscribes whom an action that has returned has struck, and no action closes less
    than it has revoked while what it misses is open. -/
def World.terms (w : World) : Event → Bool
  | .subscribe i => (w.connects[i]?).all fun c => c.struckBy.all fun j =>
      (w.actions[j]?).all fun a => !a.progress.isReturned
  | .finish j => (w.actions[j]?).all fun a => match a.progress with
      | .committed e => w.connects.all fun c => !c.struckBy.contains j ||
          (c.openSubscription w.hub).all fun s => !a.kind.misses e s.authMethod
      | _ => true
  | _ => true

def World.Terms (w : World) (e : Int × Event) : Prop := w.terms e.2 = true

instance (w : World) (e : Int × Event) : Decidable (w.Terms e) :=
  inferInstanceAs (Decidable (_ = true))

/-- Nobody is connected yet, and the permissions that are stored are not negative. -/
structure World.Start (w : World) : Prop where
  connects : w.connects = []
  actions : w.actions = []
  subscriptions : w.hub.subscriptions = []
  nextSeq : 0 < w.hub.nextSeq
  nonneg : w.db.Nonneg

/-! ### The invariant -/

structure Inv (w : World) : Prop where
  hub : HubSound w.hub
  nonneg : w.db.Nonneg
  connects : ∀ (i : Nat) c, w.connects[i]? = some c → c.Sound w.hub w.actions
  known : ∀ (i : Nat) c k, w.connects[i]? = some c → c.subscription = some k →
    k < w.hub.subscriptions.length
  apart : ∀ (i i' : Nat) c c' k, w.connects[i]? = some c → w.connects[i']? = some c' →
    c.subscription = some k → c'.subscription = some k → i = i'
  staged : ∀ (j : Nat) a e, w.actions[j]? = some a → a.progress = .staged e →
    Describes a.kind e ∧ e.Nonneg

variable {w : World}

theorem Inv.honest (h : Inv w) : w.Honest where
  silent := by
    intro c hc j hj a e n ha hprog event hev
    rcases List.mem_iff_getElem?.mp hc with ⟨i, hi⟩
    rcases (h.connects i c hi).struck j hj with ⟨a', ha', hans⟩
    have heq := Option.some.inj (ha.symm.trans ha')
    subst heq
    simp only [Connect.Answered, hprog] at hans
    exact hans.below.sent event hev
  ended := by
    intro c hc k cause hph
    rcases List.mem_iff_getElem?.mp hc with ⟨i, hi⟩
    have hfr := (h.connects i c hi).framed
    simpa only [Connect.Framed, hph] using hfr
  running := by
    intro c hc hph
    rcases List.mem_iff_getElem?.mp hc with ⟨i, hi⟩
    have hfr := (h.connects i c hi).framed
    unfold Connect.Framed at hfr
    cases hp : c.phase with
    | ended k cause => exact absurd hp (hph k cause)
    | _ => simpa only [hp] using hfr
  reason := by
    intro c hc k r hph
    rcases List.mem_iff_getElem?.mp hc with ⟨i, hi⟩
    have hsound := h.connects i c hi
    cases hcut : c.cutBy with
    | none =>
      have hopen := hsound.uncut hcut
      simp only [Connect.Open, hph] at hopen
    | some j =>
      rcases hsound.cut j hcut with ⟨a, e, n, closing, ha, hprog, hclos, htold⟩
      simp only [Connect.Told, hph] at htold
      exact ⟨j, a, e, n, closing, rfl, ha, hprog, hclos, htold.symm⟩

theorem World.Start.inv (h : w.Start) : Inv w where
  hub := ⟨h.nextSeq, fun s hs => by simp [h.subscriptions] at hs⟩
  nonneg := h.nonneg
  connects := fun i c hc => by simp [h.connects] at hc
  known := fun i c k hc => by simp [h.connects] at hc
  apart := fun i i' c c' k hc => by simp [h.connects] at hc
  staged := fun j a e ha => by simp [h.actions] at ha

/-! ### Steps of a request -/

variable {i : Nat} {c c' : Connect} {hub' : EventHub} {w' : World} {hash : String → String}
  {bypass : Bool} {event : Event} {j : Nat} {a : Action} {s : EventSubscription}

theorem Inv.send (h : Inv w) (hc : w.connects[i]? = some c) (hhub : HubSound hub')
    (hnext : w.hub.nextSeq ≤ hub'.nextSeq)
    (hgrow : w.hub.subscriptions.length ≤ hub'.subscriptions.length)
    (hst : ∀ k, c.subscription ≠ some k → k < w.hub.subscriptions.length →
      SteadyAt k w.hub hub') (hsound : c'.Sound hub' w.actions)
    (hsub : ∀ k, c'.subscription = some k → c.subscription = some k ∨
      k = w.hub.subscriptions.length ∧ k < hub'.subscriptions.length) :
    Inv (w.send i (c', hub')) where
  hub := hhub
  nonneg := h.nonneg
  connects := by
    intro n d hd
    cases found_set hd with
    | inl hself => exact hself.2 ▸ hsound
    | inr hoth =>
      refine (h.connects n d hoth.2).steady hnext fun k hk => ?_
      -- No two requests have a subscription in common.
      refine hst k (fun hck => hoth.1 ?_) (h.known n d k hoth.2 hk)
      exact h.apart n i d c k hoth.2 hc hk hck
  known := by
    intro n d k hd hk
    cases found_set hd with
    | inl hself =>
      have heq : d = c' := hself.2
      cases hsub k (heq ▸ hk) with
      | inl hold => exact Nat.lt_of_lt_of_le (h.known i c k hc hold) hgrow
      | inr hnew => exact hnew.2
    | inr hoth => exact Nat.lt_of_lt_of_le (h.known n d k hoth.2 hk) hgrow
  apart := by
    have hfresh : ∀ n d k, n ≠ i → w.connects[n]? = some d → d.subscription = some k →
        c'.subscription ≠ some k := by
      intro n d k hn hd hk hk'
      cases hsub k hk' with
      | inl hold => exact hn (h.apart n i d c k hd hc hk hold)
      | inr hnew =>
        have hlt := h.known n d k hd hk
        omega
    intro n n' d d' k hd hd' hk hk'
    cases found_set hd with
    | inl hself => cases found_set hd' with
        | inl hself' => exact hself.1.trans hself'.1.symm
        | inr hoth' =>
          have heq : d = c' := hself.2
          exact absurd (heq ▸ hk) (hfresh n' d' k hoth'.1 hoth'.2 hk')
    | inr hoth => cases found_set hd' with
        | inl hself' =>
          have heq : d' = c' := hself'.2
          exact absurd (heq ▸ hk') (hfresh n d k hoth.1 hoth.2 hk)
        | inr hoth' => exact h.apart n n' d d' k hoth.2 hoth'.2 hk hk'
  staged := h.staged

theorem Inv.put (h : Inv w) (hc : w.connects[i]? = some c)
    (hgoes : Goes w.hub w.hub c c' ∧ c'.subscription = none) : Inv (w.put i c') :=
  h.send hc h.hub (Nat.le_refl _) (Nat.le_refl _) (fun k _ _ => SteadyAt.refl k w.hub)
    ((h.connects i c hc).goes hgoes.1) fun k hk => by simp [hgoes.2] at hk

theorem Inv.withDb (h : Inv w) {db : Db} (hdb : db.Nonneg) : Inv { w with db } :=
  ⟨h.hub, hdb, h.connects, h.known, h.apart, h.staged⟩

theorem users_maybeRefreshLastSeen (store : Store) (s : AuthSession) (now : Int) (writes : Bool) :
    (maybeRefreshLastSeen store s now writes).2.users = store.users := by
  unfold maybeRefreshLastSeen
  simp only
  split
  · rfl
  · split
    · rfl
    · rfl

theorem Inv.authenticate (h : Inv w) {writes : Bool} (hc : w.connects[i]? = some c)
    (hstep : w.authenticate hash bypass i writes c = some w') : Inv w' := by
  have hsound := h.connects i c hc
  unfold World.authenticate at hstep
  cases hph : c.phase with
  | arrived =>
    simp only [hph, Option.some.injEq] at hstep
    rw [← hstep]
    exact h.put hc (goes_readKey hsound hph bypass w.db)
  | cookie =>
    simp only [hph, Option.some.injEq] at hstep
    rw [← hstep]
    exact h.put hc (goes_readSession hsound hph hash w.db w.clock)
  | found s =>
    simp only [hph, Option.some.injEq] at hstep
    rw [← hstep]
    refine Inv.withDb (h.put hc (goes_refresh hsound hph w.db w.clock writes)) ?_
    intro u hu
    have husers := users_maybeRefreshLastSeen w.db.store s w.clock writes
    exact h.nonneg u (husers ▸ hu)
  | identified userId expiresAt idleDeadline =>
    simp only [hph, Option.some.injEq] at hstep
    rw [← hstep]
    exact h.put hc (goes_readUser hsound hph w.db)
  | admitted auth | streaming stream | ended k cause | refused code detail => simp [hph] at hstep

theorem Inv.subscribe (h : Inv w) {auth : AuthContext} (hc : w.connects[i]? = some c)
    (hph : c.phase = .admitted auth)
    (hterm : ∀ j ∈ c.struckBy, ∀ a, w.actions[j]? = some a → ∀ e n, a.progress ≠ .returned e n) :
    Inv (w.send i (c.subscribe w.hub w.clock auth)) := by
  have hlen : (w.hub.subscribe (some auth.method.value) auth.userId).2.subscriptions.length =
      w.hub.subscriptions.length + 1 := by
    show (w.hub.subscriptions ++ [_]).length = _
    rw [List.length_append, List.length_singleton]
  refine h.send hc (h.hub.subscribe _ _) (Nat.le_refl _) (by omega)
    (fun k _ _ => steady_subscribe _ _ k)
    ((h.connects i c hc).subscribe hph w.clock hterm) fun k hk => ?_
  have heq : w.hub.subscriptions.length = k := Option.some.inj hk
  have hlt : k < (w.hub.subscribe (some auth.method.value) auth.userId).2.subscriptions.length := by
    omega
  exact .inr ⟨heq.symm, hlt⟩

theorem Inv.stream (h : Inv w) {stream : Stream} (hc : w.connects[i]? = some c)
    (hph : c.phase = .streaming stream) {f : EventSubscription → EventSubscription}
    (hhub' : hub' = w.hub ∨ hub' = w.hub.modify stream.subscription f)
    (hsub : c'.subscription = some stream.subscription) (hhub : HubSound hub')
    (hgoes : Goes w.hub hub' c c') : Inv (w.send i (c', hub')) := by
  have hown : c.subscription = some stream.subscription := by
    simp only [Connect.subscription, hph]
  have hlen : hub'.subscriptions.length = w.hub.subscriptions.length := by
    cases hhub' with
    | inl hsame => rw [hsame]
    | inr hmod =>
      rw [hmod]
      exact List.length_modify ..
  have hst : ∀ k, c.subscription ≠ some k → SteadyAt k w.hub hub' := by
    intro k hk
    cases hhub' with
    | inl hsame => exact hsame ▸ SteadyAt.refl k w.hub
    | inr hmod =>
      have hne : stream.subscription ≠ k := fun heq => hk (heq ▸ hown)
      exact hmod ▸ steady_modify w.hub f hne
  have hnext : w.hub.nextSeq ≤ hub'.nextSeq := by
    cases hhub' with
    | inl hsame => rw [hsame]
    | inr hmod =>
      rw [hmod]
      exact Nat.le_refl _
  refine h.send hc hhub hnext (Nat.le_of_eq hlen.symm) (fun k hk _ => hst k hk)
    ((h.connects i c hc).goes hgoes) fun k hk => ?_
  have heq := Option.some.inj (hsub.symm.trans hk)
  exact .inl (heq ▸ hown)

variable (hub : EventHub)

theorem loop_poll (now : Int) (isDisconnected : Bool) (stream : Stream) (c : Connect) :
    ((c.poll hub now isDisconnected stream).2 = hub ∨
      (c.poll hub now isDisconnected stream).2 =
        hub.modify stream.subscription (·.close none)) ∧
      (c.poll hub now isDisconnected stream).1.subscription = some stream.subscription := by
  unfold Connect.poll
  split
  · exact ⟨.inr rfl, rfl⟩
  · split
    · exact ⟨.inr rfl, rfl⟩
    · exact ⟨.inl rfl, rfl⟩

theorem loop_resume (now : Int) (stream : Stream) (c : Connect) :
    ((c.resume hub now stream).2 = hub ∨
      (c.resume hub now stream).2 = hub.modify stream.subscription (·.close none)) ∧
      (c.resume hub now stream).1.subscription = some stream.subscription := by
  unfold Connect.resume
  split
  · exact ⟨.inl rfl, rfl⟩
  · exact ⟨.inr rfl, rfl⟩
  · exact ⟨.inr rfl, rfl⟩
  all_goals
    split
    · exact ⟨.inr rfl, rfl⟩
    · exact ⟨.inl rfl, rfl⟩

theorem Inv.loop (h : Inv w) {stream : Stream} (hc : w.connects[i]? = some c)
    (hph : c.phase = .streaming stream)
    (hloop : (hub' = w.hub ∨ hub' = w.hub.modify stream.subscription (·.close none)) ∧
      c'.subscription = some stream.subscription)
    (hgoes : Goes w.hub hub' c c') : Inv (w.send i (c', hub')) := by
  refine h.stream hc hph hloop.1 hloop.2 ?_ hgoes
  cases hloop.1 with
  | inl hsame => exact hsame ▸ h.hub
  | inr hshut =>
    rw [hshut]
    refine h.hub.modify _ _ fun s hs => ?_
    exact (h.hub.sound s (List.mem_of_getElem? hs)).close none

theorem Inv.streams (h : Inv w) (hc : w.connects[i]? = some c)
    (hstep : w.stream i event c = some w') : Inv w' := by
  have hsound := h.connects i c hc
  unfold World.stream at hstep
  cases hph : c.phase with
  | streaming stream =>
    simp only [hph] at hstep
    cases event with
    | poll n isDisconnected =>
      simp only [Option.ite_none_left_eq_some, Option.some.injEq] at hstep
      rw [← hstep.2]
      exact h.loop hc hph (loop_poll w.hub w.clock isDisconnected stream c)
        (goes_poll hsound hph w.clock isDisconnected)
    | take n =>
      rcases Option.map_eq_some_iff.mp hstep with ⟨⟨c', hub'⟩, htake, hw'⟩
      rw [← hw']
      have hgoes := goes_take hsound h.hub hph htake
      rcases take_parts htake with ⟨-, s, item, rest, -, -, hc', hhub'⟩
      refine h.stream hc hph (.inr hhub') ?_ hgoes.1 hgoes.2
      rw [hc']
      rfl
    | resume n =>
      simp only [Option.ite_none_right_eq_some, Option.some.injEq] at hstep
      rw [← hstep.2]
      exact h.loop hc hph (loop_resume w.hub w.clock stream c) (goes_resume hsound hph w.clock)
    | cancel n =>
      cases hstep
      exact h.loop hc hph ⟨.inr rfl, rfl⟩
        (goes_leave hsound hph .silent fun r hr => by contradiction)
    | connect _ _ | authenticate _ _ | subscribe _ | publish _ _ | begin _ | stage _ | commit _
    | finish _ | abandon _ | sweepDead => simp at hstep
  | arrived | cookie | found s | identified userId expiresAt idleDeadline | admitted auth
  | ended k cause | refused code detail => simp [hph] at hstep

/-! ### Steps of an action -/

theorem keep_set {actions : List Action} {a' : Action} (ha : actions[j]? = some a)
    (hopen : ∀ e, a.progress ≠ .committed e ∧ ∀ n, a.progress ≠ .returned e n) :
    ∀ (n : Nat) (b : Action) (e : Effect), actions[n]? = some b →
      (b.progress = .committed e ∨ ∃ m, b.progress = .returned e m) →
      (actions.set j a')[n]? = some b := by
  intro n b e hb hset
  have hne : j ≠ n := by
    intro heq
    rw [← heq, ha] at hb
    rw [← Option.some.inj hb] at hset
    cases hset with
    | inl hcom => exact (hopen e).1 hcom
    | inr hret => exact hret.elim fun m hm => (hopen e).2 m hm
  rw [List.getElem?_set_ne hne]
  exact hb

-- A step of an action keeps the invariant if every request keeps its subscription and what is
-- true of it.
theorem Inv.settle (h : Inv w) {db : Db} {f : Connect → Connect} {b : Action} (hhub : HubSound hub')
    (hdb : db.Nonneg) (hlen : hub'.subscriptions.length = w.hub.subscriptions.length)
    (hsub : ∀ c, (f c).subscription = c.subscription)
    (hsound : ∀ (i : Nat) c, w.connects[i]? = some c → (f c).Sound hub' (w.actions.set j b))
    (hstg : ∀ e, b.progress = .staged e → Describes b.kind e ∧ e.Nonneg) :
    Inv { w with db, hub := hub', connects := w.connects.map f, actions := w.actions.set j b } := by
  have hgot : ∀ (i : Nat) c', (w.connects.map f)[i]? = some c' →
      ∃ c, w.connects[i]? = some c ∧ f c = c' := by
    intro i c' hc'
    rw [List.getElem?_map] at hc'
    exact Option.map_eq_some_iff.mp hc'
  refine ⟨hhub, hdb, ?_, ?_, ?_, ?_⟩
  · intro i c' hc'
    rcases hgot i c' hc' with ⟨c, hc, hf⟩
    exact hf ▸ hsound i c hc
  · intro i c' k hc' hk
    rcases hgot i c' hc' with ⟨c, hc, hf⟩
    have hlt := h.known i c k hc (by rw [← hsub, hf, hk])
    show k < hub'.subscriptions.length
    omega
  · intro i i' c c' k hc hc' hk hk'
    rcases hgot i c hc with ⟨d, hd, hf⟩
    rcases hgot i' c' hc' with ⟨d', hd', hf'⟩
    exact h.apart i i' d d' k hd hd' (by rw [← hsub, hf, hk]) (by rw [← hsub, hf', hk'])
  · intro n d e hd he
    cases found_set hd with
    | inl hself =>
      rw [hself.2] at he ⊢
      exact hstg e he
    | inr hoth => exact h.staged n d e hoth.2 he

theorem Inv.progress (h : Inv w) {p : Progress} (ha : w.actions[j]? = some a)
    (hopen : ∀ e, a.progress ≠ .committed e ∧ ∀ n, a.progress ≠ .returned e n)
    (hp : ∀ e, p = .staged e → Describes a.kind e ∧ e.Nonneg) :
    Inv { w with actions := w.actions.set j { a with progress := p } } := by
  have hkept := h.settle (f := id) (b := { a with progress := p }) h.hub h.nonneg rfl (fun _ => rfl)
    (fun i c hc => (h.connects i c hc).keep (keep_set ha hopen)) hp
  rw [List.map_id] at hkept
  exact hkept

-- A commit strikes only whom the action is going to answer.
theorem Inv.commit (h : Inv w) {e : Effect} {db : Db} (ha : w.actions[j]? = some a)
    (hprog : a.progress = .staged e) (hcom : w.db.commit e = some db) :
    Inv { w with
      db
      connects := w.connects.map (Connect.strike w.db db j)
      actions := w.actions.set j { a with progress := .committed e } } := by
  have hopen : ∀ e', a.progress ≠ .committed e' ∧ ∀ n, a.progress ≠ .returned e' n := by
    intro e'
    rw [hprog]
    exact ⟨fun heq => by contradiction, fun n heq => by contradiction⟩
  have hdescr := h.staged j a e ha hprog
  have hlt : j < w.actions.length := (List.getElem?_eq_some_iff.mp ha).1
  have hnew : (w.actions.set j { a with progress := .committed e })[j]? =
      some { a with progress := .committed e } := List.getElem?_set_self hlt
  refine h.settle h.hub (h.nonneg.commit hdescr.2 hcom) rfl ?_ ?_ fun e' he' => by contradiction
  · intro c
    unfold Connect.strike
    split
    · rfl
    · rfl
  · intro i c hc
    have hkept : c.Sound w.hub (w.actions.set j { a with progress := .committed e }) :=
      (h.connects i c hc).keep (keep_set ha hopen)
    unfold Connect.strike
    by_cases hlost : (c.grounds.any fun g => g.holds w.db && !g.holds db) = true
    · rw [if_pos hlost]
      rcases List.any_eq_true.mp hlost with ⟨g, hg, htest⟩
      rw [Bool.and_eq_true, Bool.not_eq_true'] at htest
      refine ⟨hkept.below.move rfl rfl, hkept.placed, hkept.framed, ?_, hkept.cut, hkept.uncut⟩
      intro n hn
      cases List.mem_cons.mp hn with
      | inl hself =>
        rw [hself]
        exact ⟨_, hnew, g, hg, covers_of_falsified hdescr.1 hcom htest.1 htest.2⟩
      | inr hold =>
        rcases hkept.struck n hold with ⟨b, hb, hans⟩
        refine ⟨b, hb, ?_⟩
        unfold Connect.Answered at hans ⊢
        cases hb' : b.progress with
        | committed e' => simpa only [hb'] using hans
        | returned e' m =>
          simp only [hb'] at hans ⊢
          exact ⟨hans.below.move rfl rfl, hans.closed⟩
        | begun | staged e' | left => simp only [hb'] at hans
    · rw [if_neg hlost]
      exact hkept

theorem closeStreams_at {hub : EventHub} (hhub : HubSound hub) (closing : Option Closing) {k : Nat}
    (hs : hub.subscriptions[k]? = some s) :
    ∃ s', (closeStreams hub closing).subscriptions[k]? = some s' ∧
      s'.authMethod = s.authMethod ∧ s'.userId = s.userId ∧ (s.closed = true → s' = s) ∧
      (s.closed = false → ∀ cl, closing = some cl → cl.isAbout s = true →
        s'.closed = true ∧ s'.queue = [.streamClosed (some cl.reason)]) ∧
      ((∀ cl, closing = some cl → cl.isAbout s = false) → s' = s) := by
  cases closing with
  | none =>
    exact ⟨s, hs, rfl, rfl, fun _ => rfl, fun _ cl hcl => by contradiction, fun _ => rfl⟩
  | some cl =>
    have hmem := (hhub.sound s (List.mem_of_getElem? hs)).member
    have hgot : (closeStreams hub (some cl)).subscriptions[k]? =
        some (if (s.subscribed && cl.isAbout s) = true then s.close (some cl.reason) else s) := by
      show (hub.subscriptions.map _)[k]? = _
      rw [List.getElem?_map, hs]
      rfl
    refine ⟨_, hgot, ?_⟩
    by_cases hclose : (s.subscribed && cl.isAbout s) = true
    · rw [if_pos hclose]
      rw [Bool.and_eq_true] at hclose
      have hopen : s.closed = false := by
        have hsub := hmem.symm.trans hclose.1
        simpa using hsub
      have hprin := close_principal s (some cl.reason)
      refine ⟨hprin.1, hprin.2, ?_, ?_, ?_⟩
      · intro hshut
        exact absurd (hopen.symm.trans hshut) Bool.false_ne_true
      · intro _ cl' hcl' _
        cases hcl'
        refine ⟨close_closed s _, ?_⟩
        unfold EventSubscription.close
        rw [hopen]
        rfl
      · intro hoth
        have hnot := hoth cl rfl
        rw [hclose.2] at hnot
        contradiction
    · rw [if_neg hclose]
      refine ⟨rfl, rfl, fun _ => rfl, ?_, fun _ => rfl⟩
      intro hopen cl' hcl' habout
      rw [← Option.some.inj hcl'] at habout
      exact absurd (by rw [hmem, hopen, habout]; rfl) hclose

theorem isAbout_of_covers {e : Effect} {principal : AuthMethod × Option Nat}
    (hcov : e.covers principal) (hmeth : s.authMethod = some principal.1.value)
    (huser : s.userId = principal.2) : ∃ cl, e.closing = some cl ∧ cl.isAbout s = true := by
  rcases hcov with ⟨cl, hcl, hm, hid⟩
  refine ⟨cl, hcl, ?_⟩
  unfold Closing.isAbout EventSubscription.isMatching
  rw [Bool.and_eq_true]
  constructor
  · cases hauth : cl.authMethod with
    | none => rfl
    | some m =>
      rw [Option.map_some, Option.all_some, hmeth, hm m hauth]
      exact decide_eq_true rfl
  · cases hown : cl.userId with
    | none => rfl
    | some id =>
      rw [Option.all_some, huser, hid id hown]
      exact decide_eq_true rfl

/-- What an action makes of a request when it closes streams. -/
def Connect.closeBy (hub : EventHub) (closing : Option Closing) (j : Nat) (c : Connect) : Connect :=
  match closing with
  | none => c
  | some cl => c.cut hub cl j

theorem closeBy_fields (closing : Option Closing) (j : Nat) (c : Connect) :
    (c.closeBy hub closing j).phase = c.phase ∧ (c.closeBy hub closing j).frames = c.frames ∧
      (c.closeBy hub closing j).grounds = c.grounds ∧
      (c.closeBy hub closing j).struckBy = c.struckBy := by
  unfold Connect.closeBy Connect.cut
  cases closing with
  | none => exact ⟨rfl, rfl, rfl, rfl⟩
  | some cl =>
    simp only
    split
    · split
      · exact ⟨rfl, rfl, rfl, rfl⟩
      · exact ⟨rfl, rfl, rfl, rfl⟩
    · exact ⟨rfl, rfl, rfl, rfl⟩

theorem cutBy_closeBy (closing : Option Closing) (j : Nat) (c : Connect) :
    (∃ stream s cl, c.phase = .streaming stream ∧ closing = some cl ∧
        hub.subscriptions[stream.subscription]? = some s ∧ s.subscribed = true ∧
        cl.isAbout s = true ∧ (c.closeBy hub closing j).cutBy = some j) ∨
      ((c.closeBy hub closing j).cutBy = c.cutBy ∧ ∀ stream s cl, c.phase = .streaming stream →
        closing = some cl → hub.subscriptions[stream.subscription]? = some s →
        s.subscribed = true → cl.isAbout s = false) := by
  cases closing with
  | none => exact .inr ⟨rfl, fun stream s cl _ hcl => by contradiction⟩
  | some cl =>
    unfold Connect.closeBy Connect.cut
    cases hph : c.phase with
    | streaming stream =>
      by_cases hhit : ((hub.subscriptions[stream.subscription]?).any fun s =>
          s.subscribed && cl.isAbout s) = true
      · rcases Option.any_eq_true .. |>.mp hhit with ⟨s, hs, htest⟩
        rw [Bool.and_eq_true] at htest
        refine .inl ⟨stream, s, cl, rfl, rfl, hs, htest.1, htest.2, ?_⟩
        simp only [if_pos hhit]
      · refine .inr ⟨by simp only [if_neg hhit], ?_⟩
        intro stream' s cl' hstr hcl hs hsub
        rw [← Phase.streaming.inj hstr] at hs
        cases hcl
        by_contra habout
        refine hhit ?_
        rw [hs, Option.any_some, hsub, Bool.true_and]
        simpa using habout
    | _ => exact .inr ⟨rfl, fun stream s cl' hstr => by simp at hstr⟩

section Finish

variable {w : World} {j : Nat} {a : Action} {e : Effect}

-- Whoever was struck is closed, if nobody is missed.
theorem quiet_finish (h : Inv w) (hc : w.connects[i]? = some c) (hj : j ∈ c.struckBy)
    (ha : w.actions[j]? = some a) (hprog : a.progress = .committed e)
    (hterm : ∀ s, c.openSubscription w.hub = some s → a.kind.misses e s.authMethod = false) :
    (c.closeBy w.hub e.closing j).Quiet (closeStreams w.hub e.closing) w.hub.nextSeq := by
  have hsound := h.connects i c hc
  have hfld := closeBy_fields w.hub e.closing j c
  refine ⟨hsound.below.move hfld.1 hfld.2.1, ?_⟩
  · rw [hfld.1]
    intro stream hstr
    have hput := (streaming_parts hsound hstr).1
    rcases hput with ⟨s, hs, hgrd⟩
    rcases closeStreams_at h.hub e.closing hs with ⟨s', hs', -, -, hsame, hclos, -⟩
    refine ⟨s', hs', ?_⟩
    by_cases hshut : s.closed = true
    · rw [hsame hshut]
      exact hshut
    have hopen : s.closed = false := by simpa using hshut
    -- The ground that was taken away is covered, since it is not missed.
    rcases hsound.struck j hj with ⟨b, hb, hans⟩
    have heq := Option.some.inj (ha.symm.trans hb)
    rw [← heq] at hans
    simp only [Connect.Answered, hprog] at hans
    rcases hans with ⟨g, hg, hcov⟩
    have hprin := hgrd g hg
    cases hcov with
    | inr hmiss =>
      have hopenSub : c.openSubscription w.hub = some s := by
        simp [Connect.openSubscription, hstr, hs, hopen]
      have hspr := hterm s hopenSub
      rw [hprin.1, hmiss] at hspr
      contradiction
    | inl hcov =>
      rcases isAbout_of_covers hcov hprin.1 hprin.2 with ⟨cl, hcl, habout⟩
      exact (hclos hopen cl hcl habout).1

-- A request after an action has closed its streams.
theorem sound_finish (h : Inv w) (hc : w.connects[i]? = some c) (ha : w.actions[j]? = some a)
    (hprog : a.progress = .committed e)
    (hterm : j ∈ c.struckBy → ∀ s, c.openSubscription w.hub = some s →
      a.kind.misses e s.authMethod = false) :
    (c.closeBy w.hub e.closing j).Sound (closeStreams w.hub e.closing)
      (w.actions.set j { a with progress := .returned e w.hub.nextSeq }) := by
  have hsound := h.connects i c hc
  have hfld := closeBy_fields w.hub e.closing j c
  have hlt : j < w.actions.length := (List.getElem?_eq_some_iff.mp ha).1
  have hself : (w.actions.set j { a with progress := .returned e w.hub.nextSeq })[j]? =
      some { a with progress := .returned e w.hub.nextSeq } := List.getElem?_set_self hlt
  have hnext : (closeStreams w.hub e.closing).nextSeq = w.hub.nextSeq := by
    cases e.closing with
    | none | some cl => rfl
  refine ⟨hnext ▸ hsound.below.move hfld.1 hfld.2.1, ?_, ?_, ?_, ?_, ?_⟩
  · refine hsound.placed.move hfld.1 hfld.2.2.1 fun stream s _ hs => ?_
    rcases closeStreams_at h.hub e.closing hs with ⟨s', hs', hmeth, huser, -⟩
    exact ⟨s', hs', hmeth, huser⟩
  · have hfr := hsound.framed
    unfold Connect.Framed at hfr ⊢
    rw [hfld.1, hfld.2.1]
    exact hfr
  · intro n hn
    rw [hfld.2.2.2] at hn
    by_cases hnj : n = j
    · rw [hnj] at hn ⊢
      exact ⟨_, hself, quiet_finish h hc hn ha hprog (hterm hn)⟩
    rcases hsound.struck n hn with ⟨b, hb, hans⟩
    refine ⟨b, (List.getElem?_set_ne (Ne.symm hnj)).trans hb, ?_⟩
    unfold Connect.Answered at hans ⊢
    cases hb' : b.progress with
    | committed e' =>
      simp only [hb'] at hans ⊢
      rw [hfld.2.2.1]
      exact hans
    | returned e' m =>
      simp only [hb'] at hans ⊢
      refine ⟨hans.below.move hfld.1 hfld.2.1, ?_⟩
      rw [hfld.1]
      intro stream hstr
      rcases hans.closed stream hstr with ⟨s, hs, hshut⟩
      rcases closeStreams_at h.hub e.closing hs with ⟨s', hs', -, -, hsame, -⟩
      refine ⟨s', hs', ?_⟩
      rw [hsame hshut]
      exact hshut
    | begun | staged e' | left => simp only [hb'] at hans
  · intro n hn
    cases cutBy_closeBy w.hub e.closing j c with
    | inl hcut =>
      rcases hcut with ⟨stream, s, cl, hph, hcl, hs, hsub, habout, hby⟩
      have hnj : j = n := Option.some.inj (hby.symm.trans hn)
      rw [← hnj]
      refine ⟨_, e, w.hub.nextSeq, cl, hself, rfl, hcl, ?_⟩
      have hmem := (h.hub.sound s (List.mem_of_getElem? hs)).member
      have hopen : s.closed = false := by
        have hnot := hmem.symm.trans hsub
        simpa using hnot
      rcases closeStreams_at h.hub e.closing hs with ⟨s', hs', -, -, -, hclos, -⟩
      have hdone := hclos hopen cl hcl habout
      -- A stream that is open has not been told anything.
      have hget : ∀ r, stream.getter ≠ .done (.streamClosed r) := by
        cases hcut : c.cutBy with
        | none =>
          have hopenC := hsound.uncut hcut
          simp only [Connect.Open, hph] at hopenC
          exact hopenC.1
        | some m =>
          rcases hsound.cut m hcut with ⟨b, e', n', cl', _, _, _, htold⟩
          simp only [Connect.Told, hph] at htold
          rcases htold.2 with ⟨r, hr, hshut, -⟩
          rw [← Option.some.inj (hs.symm.trans hr), hopen] at hshut
          contradiction
      unfold Connect.Told
      rw [hfld.1, hph]
      refine ⟨fun r hr => absurd hr (hget r), s', hs', hdone.1, ?_⟩
      intro item hitem
      rw [hdone.2] at hitem
      exact List.mem_singleton.mp hitem
    | inr hsame =>
      rw [hsame.1] at hn
      rcases hsound.cut n hn with ⟨b, e', m, cl, hb, hb', hcl, htold⟩
      have hnj : j ≠ n := by
        intro heq
        rw [← heq, ha] at hb
        rw [← Option.some.inj hb, hprog] at hb'
        contradiction
      refine ⟨b, e', m, cl, (List.getElem?_set_ne hnj).trans hb, hb', hcl, ?_⟩
      refine htold.move hfld.1 fun stream s _ hs hshut => ?_
      rcases closeStreams_at h.hub e.closing hs with ⟨s', hs', -, -, hkept, -⟩
      rw [← hkept hshut]
      exact hs'
  · intro hnone
    cases cutBy_closeBy w.hub e.closing j c with
    | inl hcut =>
      rcases hcut with ⟨-, -, -, -, -, -, -, -, hby⟩
      rw [hby] at hnone
      contradiction
    | inr hsame =>
      rw [hsame.1] at hnone
      refine (hsound.uncut hnone).move hfld.1 fun stream s hph hs hopen => ?_
      have hmem := (h.hub.sound s (List.mem_of_getElem? hs)).member
      have hsub : s.subscribed = true := by
        rw [hmem, hopen]
        rfl
      rcases closeStreams_at h.hub e.closing hs with ⟨s', hs', -, -, -, -, hkept⟩
      have heq := hkept fun cl hcl => hsame.2 stream s cl hph hcl hs hsub
      rw [heq] at hs'
      exact ⟨s, hs', hopen⟩

theorem Inv.finish (h : Inv w) (ha : w.actions[j]? = some a) (hprog : a.progress = .committed e)
    (hterm : ∀ c ∈ w.connects, j ∈ c.struckBy → ∀ s, c.openSubscription w.hub = some s →
      a.kind.misses e s.authMethod = false) :
    Inv { w with
      hub := closeStreams w.hub e.closing
      connects := w.connects.map (Connect.closeBy w.hub e.closing j)
      actions := w.actions.set j { a with progress := .returned e w.hub.nextSeq } } := by
  refine h.settle (h.hub.closeStreams _) h.nonneg ?_ ?_ ?_ fun e' he' => by contradiction
  · cases e.closing with
    | none => rfl
    | some cl => exact List.length_map ..
  · intro c
    unfold Connect.subscription
    rw [(closeBy_fields w.hub e.closing j c).1]
  · intro i c hc
    exact sound_finish h hc ha hprog (hterm c (List.mem_of_getElem? hc))

end Finish

/-! ### Runs -/

theorem Inv.act (h : Inv w) (ha : w.actions[j]? = some a) (hstep : w.act j event a = some w')
    (hterm : ∀ e, a.progress = .committed e → (∃ n, event = .finish n) →
      ∀ c ∈ w.connects, j ∈ c.struckBy → ∀ s, c.openSubscription w.hub = some s →
        a.kind.misses e s.authMethod = false) : Inv w' := by
  unfold World.act at hstep
  split at hstep
  · rename_i n hprog
    cases hstep
    refine h.progress ha (fun e => by simp [hprog]) ?_
    intro e he
    cases hstg : stage w.db w.clock a.kind with
    | none => simp [hstg] at he
    | some e' =>
      simp only [hstg, Progress.staged.injEq] at he
      rw [← he]
      exact ⟨describes_stage h.nonneg hstg, nonneg_stage hstg⟩
  · rename_i n e hprog
    split at hstep
    · cases hstep
      exact h.progress ha (fun e' => by simp [hprog]) fun e' he' => by contradiction
    · rename_i db hcom
      cases hstep
      exact h.commit ha hprog hcom
  · rename_i n e hprog
    have hfin := h.finish ha hprog (hterm e hprog ⟨n, rfl⟩)
    cases hstep
    cases hclos : e.closing with
    | none =>
      have hsame : w.connects.map (Connect.closeBy w.hub none j) = w.connects :=
        List.map_id' w.connects
      rw [hclos, hsame] at hfin
      exact hfin
    | some cl =>
      rw [hclos] at hfin
      exact hfin
  · rename_i n hprog
    cases hstep
    exact h.progress ha (fun e => by simp [hprog]) fun e he => by contradiction
  · rename_i n e hprog
    cases hstep
    exact h.progress ha (fun e' => by simp [hprog]) fun e' he' => by contradiction
  · contradiction

theorem Inv.publish (h : Inv w) (hhub : HubSound hub')
    (hlen : hub'.subscriptions.length = w.hub.subscriptions.length)
    (hnext : w.hub.nextSeq ≤ hub'.nextSeq) (hst : ∀ k, SteadyAt k w.hub hub') :
    Inv { w with hub := hub' } where
  hub := hhub
  nonneg := h.nonneg
  connects := fun i c hc => (h.connects i c hc).steady hnext fun k _ => hst k
  known := by
    intro i c k hc hk
    rw [hlen]
    exact h.known i c k hc hk
  apart := h.apart
  staged := h.staged

theorem Inv.connect (h : Inv w) (provided cookie : Option String) :
    Inv { w with connects := w.connects ++ [{ provided, cookie }] } := by
  have hfresh : Connect.Sound w.hub w.actions { provided, cookie } :=
    ⟨⟨fun e he => by simp at he, fun stream hstr => by simp at hstr⟩, rfl,
      fun r hr => by simp at hr, fun j hj => by simp at hj, fun j hj => by simp at hj,
      fun _ => trivial⟩
  have hgot : ∀ (i : Nat) c, (w.connects ++ [({ provided, cookie } : Connect)])[i]? = some c →
      w.connects[i]? = some c ∨ c = { provided, cookie } := by
    intro i c hc
    by_cases hlt : i < w.connects.length
    · rw [List.getElem?_append_left hlt] at hc
      exact .inl hc
    · rw [List.getElem?_append_right (Nat.le_of_not_lt hlt)] at hc
      exact .inr (List.mem_singleton.mp (List.mem_of_getElem? hc))
  have hnone : ({ provided, cookie } : Connect).subscription = none := rfl
  refine ⟨h.hub, h.nonneg, ?_, ?_, ?_, h.staged⟩
  · intro i c hc
    cases hgot i c hc with
    | inl hold => exact h.connects i c hold
    | inr hnew => exact hnew ▸ hfresh
  · intro i c k hc hk
    cases hgot i c hc with
    | inl hold => exact h.known i c k hold hk
    | inr hnew =>
      rw [hnew, hnone] at hk
      contradiction
  · intro i i' c c' k hc hc' hk hk'
    cases hgot i c hc with
    | inl hold => cases hgot i' c' hc' with
        | inl hold' => exact h.apart i i' c c' k hold hold' hk hk'
        | inr hnew' =>
          rw [hnew', hnone] at hk'
          contradiction
    | inr hnew =>
      rw [hnew, hnone] at hk
      contradiction

theorem Inv.begin (h : Inv w) (kind : Kind) : Inv { w with actions := w.actions ++ [{ kind }] } :=
  { h with
    connects := by
      intro i c hc
      refine (h.connects i c hc).keep fun j a e ha _ => ?_
      rw [List.getElem?_append_left (List.getElem?_eq_some_iff.mp ha).1]
      exact ha
    staged := by
      intro j a e ha hstg
      by_cases hlt : j < w.actions.length
      · rw [List.getElem?_append_left hlt] at ha
        exact h.staged j a e ha hstg
      · rw [List.getElem?_append_right (Nat.le_of_not_lt hlt)] at ha
        rw [List.mem_singleton.mp (List.mem_of_getElem? ha)] at hstg
        contradiction }

theorem Inv.happens (h : Inv w) (hterm : w.terms event = true)
    (hstep : w.happens hash bypass event = some w') : Inv w' := by
  cases event with
  | connect provided cookie => exact Option.some.inj hstep ▸ h.connect provided cookie
  | authenticate i writes =>
    rcases Option.bind_eq_some_iff.mp hstep with ⟨c, hc, hauth⟩
    exact h.authenticate hc hauth
  | subscribe i =>
    rcases Option.bind_eq_some_iff.mp hstep with ⟨c, hc, hsub⟩
    split at hsub
    · rename_i auth hph
      cases hsub
      refine h.subscribe hc hph fun j hj a ha e n hprog => ?_
      simp only [World.terms, hc, Option.all_some, List.all_eq_true] at hterm
      have hnot := hterm j hj
      simp [ha, Progress.isReturned, hprog] at hnot
    · contradiction
  | poll i isDisconnected | take i | resume i | cancel i =>
    rcases Option.bind_eq_some_iff.mp hstep with ⟨c, hc, hstr⟩
    exact h.streams hc hstr
  | publish topics reason =>
    rcases Option.map_eq_some_iff.mp hstep with ⟨⟨event, hub'⟩, hpub, hw'⟩
    rw [← hw']
    have hsound := h.hub.publish hpub
    have hlen : hub'.subscriptions.length = w.hub.subscriptions.length := by
      have hpair := Option.some.inj (Option.ite_none_left_eq_some.mp hpub).2
      have hhub : _ = hub' := congrArg Prod.snd hpair
      rw [← hhub]
      exact List.length_map ..
    exact h.publish hsound.1 hlen (hsound.2 0).later hsound.2
  | begin kind => exact Option.some.inj hstep ▸ h.begin kind
  | stage j | commit j | abandon j =>
    rcases Option.bind_eq_some_iff.mp hstep with ⟨a, ha, hact⟩
    exact h.act ha hact fun e _ hn => by simp at hn
  | finish j =>
    rcases Option.bind_eq_some_iff.mp hstep with ⟨a, ha, hact⟩
    refine h.act ha hact fun e hprog _ c hc hj s hs => ?_
    simp only [World.terms, ha, Option.all_some, hprog, List.all_eq_true] at hterm
    have hspr := hterm c hc
    simpa [hj, hs] using hspr
  | sweepDead => exact Option.some.inj hstep ▸ h.withDb (fun u hu => h.nonneg u hu)

theorem Inv.step (w : World) (e : Int × Event) (w' : World) (h : Inv w) (hterm : w.Terms e)
    (hstep : step hash bypass w e = some w') : Inv w' := by
  have hnow := (Option.ite_none_left_eq_some.mp hstep).2
  have hclk : Inv { w with clock := e.1 } :=
    ⟨h.hub, h.nonneg, h.connects, h.known, h.apart, h.staged⟩
  have hsame : { w with clock := e.1 }.terms e.2 = true := by
    rw [← hterm]
    rfl
  exact hclk.happens hsame hnow

/-- Where no request subscribes too late and no closing is too narrow, streams are silent in
    time and end with one honest frame. -/
theorem streams_end (hash : String → String) (devAuthBypass : Bool) (w t : World)
    (es : List (Int × Event)) (hstart : w.Start)
    (hmeet : StepsMeet (step hash devAuthBypass) World.Terms w es)
    (hrun : run (step hash devAuthBypass) w es = some t) : t.Honest := by
  have hkeep : ∀ s e s', Inv s → s.Terms e → EventStreams.step hash devAuthBypass s e = some s' →
      Inv s' := fun s e s' h hterm hstep => Inv.step s e s' h hterm hstep
  exact (invariant_of_meeting_run hkeep w t es hstart.inv hmeet hrun).honest

/-! ### Both ends of a stream -/

def install : World where
  clock := 0
  db := { store := ⟨Table.empty, Table.empty, [], Store.owned_empty, Store.known_empty⟩ }

theorem install_start : install.Start :=
  ⟨rfl, rfl, rfl, Nat.one_pos, fun _ hu => absurd hu List.not_mem_nil⟩

/-- An administrator signs in and asks for events. The session is read, and so is the user. -/
def admittedAdmin : List Event :=
  [.begin (.signIn { plexId := 7, username := "ann" } true 1 "cookie"), .stage 0, .commit 0,
    .finish 0, .connect none (some "cookie"), .authenticate 0 true, .authenticate 0 true,
    .authenticate 0 true, .authenticate 0 true]

def sendOne : List Event := [.poll 0 false, .take 0, .resume 0]

def logsOut : List Event := [.begin (.logout "cookie"), .stage 1, .commit 1, .finish 1]

def atRest (es : List Event) : List (Int × Event) := es.map fun e => (0, e)

/-- The stream is open when its session is logged out. -/
def inTime : List (Int × Event) :=
  atRest (admittedAdmin ++ [.subscribe 0] ++ sendOne ++ logsOut ++ [.publish ["queue"] "grabbed"] ++
    sendOne)

theorem streams_end_logged_out :
    ∃ t, run (step id false) install inTime = some t ∧
      t.connects.map Connect.frames =
        [[.realtime { seq := 0, topics := ["sync"], reason := "connected" },
          .closed "session_logged_out"]] ∧ t.Honest := by
  refine exists_run_and (by decide +kernel) fun t ht _ => ?_
  exact streams_end id false install t inTime install_start (by decide +kernel) ht

/-- Something that was published late has been sent to somebody who was struck. -/
def World.outlived (w : World) : Bool :=
  w.connects.any fun c => c.struckBy.any fun j => (w.actions[j]?).any fun a =>
    match a.progress with
    | .returned _ n => c.frames.any fun
        | .realtime event => decide (n ≤ event.seq)
        | _ => false
    | _ => false

theorem not_honest_of_outlived (h : w.outlived = true) : ¬ w.Honest := by
  intro hhon
  rcases List.any_eq_true.mp h with ⟨c, hc, hstruck⟩
  rcases List.any_eq_true.mp hstruck with ⟨j, hj, hret⟩
  rcases Option.any_eq_true .. |>.mp hret with ⟨a, ha, hsent⟩
  cases hprog : a.progress with
  | returned e n =>
    simp only [hprog] at hsent
    rcases List.any_eq_true.mp hsent with ⟨frame, hfr, hlate⟩
    cases frame with
    | realtime event =>
      have hbef := hhon.silent c hc j hj a e n ha hprog event hfr
      have haft : n ≤ event.seq := of_decide_eq_true hlate
      omega
    | ping | closed reason => simp at hlate
  | begun | staged e | committed e | left => simp [hprog] at hsent

/-- The session is logged out while its request is admitted and has no subscription yet. -/
def tooLate : List (Int × Event) :=
  atRest (admittedAdmin ++ logsOut ++ [.subscribe 0, .publish ["queue"] "grabbed"] ++ sendOne ++
    sendOne)

/-- The recovery key is exchanged for a session, which is open when the server is replaced. -/
def tooNarrow : List (Int × Event) :=
  atRest ([.begin (.rotateAppKey none "key" none), .stage 0, .commit 0, .finish 0,
    .begin (.exchangeApiKey (some "key") "cookie"), .stage 1, .commit 1, .finish 1,
    .connect none (some "cookie"), .authenticate 0 true, .authenticate 0 true,
    .authenticate 0 true, .subscribe 0,
    .begin (.putSettings (some "server")), .stage 2, .commit 2, .finish 2,
    .publish ["queue"] "grabbed"] ++ sendOne ++ sendOne)

/-- A stream outlives its session in both ways. -/
theorem stream_outlives :
    install.Start ∧ (∃ t, run (step id false) install tooLate = some t ∧ ¬ t.Honest) ∧
      ∃ t, run (step id false) install tooNarrow = some t ∧ ¬ t.Honest := by
  refine ⟨install_start, ?_, ?_⟩
  · exact exists_run (P := (World.outlived · = true)) (by decide +kernel)
      fun _ _ => not_honest_of_outlived
  · exact exists_run (P := (World.outlived · = true)) (by decide +kernel)
      fun _ _ => not_honest_of_outlived

end EventStreams

end PlexManager
