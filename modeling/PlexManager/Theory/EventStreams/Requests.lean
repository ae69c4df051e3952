import PlexManager.Theory.EventStreams.Hub
import PlexManager.Theory.EventStreams.Closing

/-!
# What is true of a request for events

A request is admitted on what is about one principal, who becomes the one of its
subscription. What has been sent to it and what its reader has in hand was published before.
A commit that takes away any of what it was admitted on is answered by the action: as long
as it has not returned, its closing covers the request, and once it has, nothing that is
published later will be sent.

What a request does itself keeps this, and so does what others do.
-/

namespace PlexManager

namespace EventStreams

open KeyedTable Sessions Realtime

/-! ### Requests -/

/-- What has been sent and what the reader has in hand was published before. -/
structure Connect.Below (n : Nat) (c : Connect) : Prop where
  sent : ∀ e, Frame.realtime e ∈ c.frames → e.seq < n
  held : ∀ stream, c.phase = .streaming stream → ∀ e, stream.getter = .done (.event e) → e.seq < n

variable (hub : EventHub)

/-- What a request was admitted on is about one principal, who is the one of its
    subscription. -/
def Connect.Placed (c : Connect) : Prop :=
  match c.phase with
  | .arrived | .cookie => c.grounds = []
  | .found s => ∀ g ∈ c.grounds, g.principal = (Ground.row s.tokenHash s.userId).principal
  | .identified userId _ _ => ∀ g ∈ c.grounds, g.principal = (.plexSession, some userId)
  | .admitted auth => ∀ g ∈ c.grounds, g.principal = (auth.method, auth.userId)
  | .streaming stream => ∃ s, hub.subscriptions[stream.subscription]? = some s ∧
      ∀ g ∈ c.grounds, s.authMethod = some g.principal.1.value ∧ s.userId = g.principal.2
  | .ended _ _ | .refused _ _ => True

/-- A stream says once that it has ended, and why, and then nothing. -/
def Connect.Framed (c : Connect) : Prop :=
  match c.phase with
  | .ended _ cause => ∃ before, c.frames = before ++ cause.frames ∧ ∀ r, Frame.closed r ∉ before
  | _ => ∀ r, Frame.closed r ∉ c.frames

/-- Nothing that is published from some number on will be sent. -/
structure Connect.Quiet (n : Nat) (c : Connect) : Prop where
  below : c.Below n
  closed : ∀ stream, c.phase = .streaming stream → ∃ s,
    hub.subscriptions[stream.subscription]? = some s ∧ s.closed = true

def Connect.Told (reason : String) (c : Connect) : Prop :=
  match c.phase with
  | .streaming stream => (∀ r, stream.getter = .done (.streamClosed r) → r = some reason) ∧
      ∃ s, hub.subscriptions[stream.subscription]? = some s ∧ s.closed = true ∧
        ∀ item ∈ s.queue, item = .streamClosed (some reason)
  | .ended _ (.hub r) => r = reason
  | .ended _ _ => True
  | _ => False

/-- Nobody has closed the stream. -/
def Connect.Open (c : Connect) : Prop :=
  match c.phase with
  | .streaming stream => (∀ r, stream.getter ≠ .done (.streamClosed r)) ∧
      ∃ s, hub.subscriptions[stream.subscription]? = some s ∧ s.closed = false
  | .ended _ (.hub _) => False
  | _ => True

/-- An action that has struck a request closes its stream, and has done so once it has
    returned. -/
def Connect.Answered (a : Action) (c : Connect) : Prop :=
  match a.progress with
  | .committed e => ∃ g ∈ c.grounds,
      e.covers g.principal ∨ a.kind.misses e (some g.principal.1.value) = true
  | .returned _ n => c.Quiet hub n
  | _ => False

structure Connect.Sound (actions : List Action) (c : Connect) : Prop where
  below : c.Below hub.nextSeq
  placed : c.Placed hub
  framed : c.Framed
  struck : ∀ j ∈ c.struckBy, ∃ a, actions[j]? = some a ∧ c.Answered hub a
  cut : ∀ j, c.cutBy = some j → ∃ a e n closing, actions[j]? = some a ∧
    a.progress = .returned e n ∧ e.closing = some closing ∧ c.Told hub closing.reason
  uncut : c.cutBy = none → c.Open hub

/-- What a step of its own makes of a request, with the hub that it leaves. -/
structure Goes (hub' : EventHub) (c c' : Connect) : Prop where
  grounds : ∀ g ∈ c.grounds, g ∈ c'.grounds
  struckBy : c'.struckBy = c.struckBy
  cutBy : c'.cutBy = c.cutBy
  below : c'.Below hub'.nextSeq
  placed : c'.Placed hub'
  framed : c'.Framed
  quiet : ∀ n, c.Quiet hub n → c'.Quiet hub' n
  told : ∀ r, c.Told hub r → c'.Told hub' r
  uncut : c.Open hub → c'.Open hub'

variable {hub' : EventHub} {c' : Connect} {hub : EventHub} {actions : List Action} {c : Connect}

theorem Connect.Sound.goes
    (h : c.Sound hub actions) (hgoes : Goes hub hub' c c') : c'.Sound hub' actions where
  below := hgoes.below
  placed := hgoes.placed
  framed := hgoes.framed
  struck := by
    intro j hj
    rw [hgoes.struckBy] at hj
    rcases h.struck j hj with ⟨a, ha, hans⟩
    refine ⟨a, ha, ?_⟩
    unfold Connect.Answered at hans ⊢
    cases hprog : a.progress with
    | committed e =>
      simp only [hprog] at hans ⊢
      rcases hans with ⟨g, hg, hcov⟩
      exact ⟨g, hgoes.grounds g hg, hcov⟩
    | returned e n =>
      simp only [hprog] at hans ⊢
      exact hgoes.quiet n hans
    | begun | staged e | left => simp only [hprog] at hans
  cut := by
    intro j hj
    rw [hgoes.cutBy] at hj
    rcases h.cut j hj with ⟨a, e, n, closing, ha, hprog, hclos, htold⟩
    exact ⟨a, e, n, closing, ha, hprog, hclos, hgoes.told _ htold⟩
  uncut := by
    intro hnone
    rw [hgoes.cutBy] at hnone
    exact hgoes.uncut (h.uncut hnone)

theorem Connect.Below.move {n : Nat} (h : c.Below n) (hphase : c'.phase = c.phase)
    (hfr : c'.frames = c.frames) : c'.Below n where
  sent := by
    rw [hfr]
    exact h.sent
  held := by
    rw [hphase]
    exact h.held

theorem Connect.Placed.move (h : c.Placed hub)
    (hphase : c'.phase = c.phase) (hgrd : c'.grounds = c.grounds)
    (hkept : ∀ stream s, c.phase = .streaming stream →
      hub.subscriptions[stream.subscription]? = some s →
      ∃ s', hub'.subscriptions[stream.subscription]? = some s' ∧ s'.authMethod = s.authMethod ∧
        s'.userId = s.userId) : c'.Placed hub' := by
  unfold Connect.Placed at h ⊢
  rw [hphase, hgrd]
  cases hp : c.phase with
  | streaming stream =>
    simp only [hp] at h ⊢
    rcases h with ⟨s, hs, hprin⟩
    rcases hkept stream s hp hs with ⟨s', hs', hmeth, huser⟩
    refine ⟨s', hs', ?_⟩
    rw [hmeth, huser]
    exact hprin
  | ended _ _ | refused _ _ => trivial
  | _ => simpa only [hp] using h

theorem Connect.Told.move {reason : String} (h : c.Told hub reason) (hphase : c'.phase = c.phase)
    (hkept : ∀ stream s, c.phase = .streaming stream →
      hub.subscriptions[stream.subscription]? = some s → s.closed = true →
      hub'.subscriptions[stream.subscription]? = some s) : c'.Told hub' reason := by
  unfold Connect.Told at h ⊢
  rw [hphase]
  cases hp : c.phase with
  | streaming stream =>
    simp only [hp] at h ⊢
    rcases h with ⟨hget, s, hs, hshut, hq⟩
    exact ⟨hget, s, hkept stream s hp hs hshut, hshut, hq⟩
  | ended k cause =>
    simp only [hp] at h ⊢
    cases cause with
    | hub reason => exact h
    | lease reason | silent => trivial
  | _ => simp only [hp] at h

theorem Connect.Open.move (h : c.Open hub) (hphase : c'.phase = c.phase)
    (hkept : ∀ stream s, c.phase = .streaming stream →
      hub.subscriptions[stream.subscription]? = some s → s.closed = false →
      ∃ s', hub'.subscriptions[stream.subscription]? = some s' ∧ s'.closed = false) :
    c'.Open hub' := by
  unfold Connect.Open at h ⊢
  rw [hphase]
  cases hp : c.phase with
  | streaming stream =>
    simp only [hp] at h ⊢
    rcases h with ⟨hget, s, hs, hopen⟩
    exact ⟨hget, hkept stream s hp hs hopen⟩
  | ended k cause =>
    simp only [hp] at h ⊢
    cases cause with
    | hub reason => exact h
    | lease reason | silent => trivial
  | _ => simp only

theorem Connect.Sound.steady (h : c.Sound hub actions) (hnext : hub.nextSeq ≤ hub'.nextSeq)
    (hst : ∀ k, c.subscription = some k → SteadyAt k hub hub') : c.Sound hub' actions := by
  -- What becomes of its own subscription.
  have hkept : ∀ stream s, c.phase = .streaming stream →
      hub.subscriptions[stream.subscription]? = some s →
      ∃ s', hub'.subscriptions[stream.subscription]? = some s' ∧ s'.authMethod = s.authMethod ∧
        s'.userId = s.userId ∧ s'.closed = s.closed ∧ (s.closed = true → s' = s) := by
    intro stream s hstr hs
    have hk : c.subscription = some stream.subscription := by
      simp only [Connect.subscription, hstr]
    exact (hst _ hk).kept s hs
  refine h.goes ⟨fun g hg => hg, rfl, rfl, ?_, ?_, h.framed, ?_, ?_, ?_⟩
  · exact ⟨fun e he => Nat.lt_of_lt_of_le (h.below.sent e he) hnext,
      fun stream hstr e he => Nat.lt_of_lt_of_le (h.below.held stream hstr e he) hnext⟩
  · refine h.placed.move rfl rfl fun stream s hstr hs => ?_
    rcases hkept stream s hstr hs with ⟨s', hs', hmeth, huser, -, -⟩
    exact ⟨s', hs', hmeth, huser⟩
  · intro n hqt
    refine ⟨hqt.below, ?_⟩
    intro stream hstr
    rcases hqt.closed stream hstr with ⟨s, hs, hshut⟩
    rcases hkept stream s hstr hs with ⟨s', hs', -, -, hsame, -⟩
    exact ⟨s', hs', hsame.trans hshut⟩
  · intro r htold
    refine htold.move rfl fun stream s hstr hs hshut => ?_
    rcases hkept stream s hstr hs with ⟨s', hs', -, -, -, hsame⟩
    rw [← hsame hshut]
    exact hs'
  · intro hopen
    refine hopen.move rfl fun stream s hstr hs hshut => ?_
    rcases hkept stream s hstr hs with ⟨s', hs', -, -, hsame, -⟩
    exact ⟨s', hs', hsame.trans hshut⟩

-- A change of actions that have not committed is nothing to a request.
theorem Connect.Sound.keep {actions' : List Action} (h : c.Sound hub actions)
    (hkeep : ∀ (j : Nat) (a : Action) (e : Effect), actions[j]? = some a →
      (a.progress = .committed e ∨ ∃ n, a.progress = .returned e n) → actions'[j]? = some a) :
    c.Sound hub actions' where
  below := h.below
  placed := h.placed
  framed := h.framed
  struck := by
    intro j hj
    rcases h.struck j hj with ⟨a, ha, hans⟩
    refine ⟨a, ?_, hans⟩
    unfold Connect.Answered at hans
    cases hprog : a.progress with
    | committed e => exact hkeep j a e ha (.inl hprog)
    | returned e n => exact hkeep j a e ha (.inr ⟨n, hprog⟩)
    | begun | staged e | left => simp only [hprog] at hans
  cut := by
    intro j hj
    rcases h.cut j hj with ⟨a, e, n, closing, ha, hprog, hrest⟩
    exact ⟨a, e, n, closing, hkeep j a e ha (.inr ⟨n, hprog⟩), hprog, hrest⟩
  uncut := h.uncut

/-! ### Authentication -/

theorem goes_early (hpre : c.subscription = none) (hpre' : c'.subscription = none)
    (hfr : c'.frames = c.frames) (hgrd : ∀ g ∈ c.grounds, g ∈ c'.grounds)
    (hstruck : c'.struckBy = c.struckBy) (hcut : c'.cutBy = c.cutBy) (hlow : c.Below hub.nextSeq)
    (hframed : c.Framed) (hput : c'.Placed hub) : Goes hub hub c c' := by
  have hnot : ∀ stream, c'.phase ≠ .streaming stream := by
    intro stream hstr
    simp only [Connect.subscription, hstr] at hpre'
    contradiction
  have hqt : ∀ n, c.Below n → c'.Below n := by
    intro n h
    refine ⟨?_, fun stream hstr => absurd hstr (hnot stream)⟩
    rw [hfr]
    exact h.sent
  refine ⟨hgrd, hstruck, hcut, hqt _ hlow, hput, ?_, ?_, ?_, ?_⟩
  · unfold Connect.Framed at hframed ⊢
    have hsilent : ∀ r, .closed r ∉ c.frames := by
      cases hphase : c.phase with
      | ended k cause =>
        simp only [Connect.subscription, hphase] at hpre
        contradiction
      | _ => simpa only [hphase] using hframed
    rw [hfr]
    cases hphase : c'.phase with
    | ended k cause =>
      simp only [Connect.subscription, hphase] at hpre'
      contradiction
    | _ => exact hsilent
  · intro n h
    exact ⟨hqt n h.below, fun stream hstr => absurd hstr (hnot stream)⟩
  · intro r htold
    -- Nobody is told before there is a stream.
    unfold Connect.Told at htold
    cases hphase : c.phase with
    | streaming stream | ended k cause =>
      simp only [Connect.subscription, hphase] at hpre
      contradiction
    | _ => simp only [hphase] at htold
  · intro _
    unfold Connect.Open
    cases hphase : c'.phase with
    | streaming stream => exact absurd hphase (hnot stream)
    | ended k cause =>
      simp only [Connect.subscription, hphase] at hpre'
      contradiction
    | _ => simp only

theorem subscription_requireAdmin (c : Connect) (auth : AuthContext) (grounds : List Ground) :
    ({ c with phase := requireAdmin auth, grounds } : Connect).subscription = none := by
  unfold Connect.subscription requireAdmin
  by_cases hadm : auth.isAdmin = true
  · simp only [if_pos hadm]
  · simp only [if_neg hadm]

theorem placed_requireAdmin (hub : EventHub) (c : Connect) (auth : AuthContext)
    (grounds : List Ground) (h : ∀ g ∈ grounds, g.principal = (auth.method, auth.userId)) :
    ({ c with phase := requireAdmin auth, grounds } : Connect).Placed hub := by
  unfold Connect.Placed requireAdmin
  by_cases hadm : auth.isAdmin = true
  · simp only [if_pos hadm]
    exact h
  · simp only [if_neg hadm]

section Reads

variable {hub : EventHub} {actions : List Action} {c : Connect}

section

variable (h : c.Sound hub actions)
include h

theorem goes_readKey (hphase : c.phase = .arrived) (bypass : Bool) (db : Db) :
    Goes hub hub c (c.readKey bypass db) ∧ (c.readKey bypass db).subscription = none := by
  have hpre : c.subscription = none := by simp only [Connect.subscription, hphase]
  have hnone : c.grounds = [] := by
    have hput := h.placed
    simpa only [Connect.Placed, hphase] using hput
  unfold Connect.readKey
  by_cases hbypass : bypass = true
  · rw [if_pos hbypass]
    have hsub := subscription_requireAdmin c { method := .devBypass, isAdmin := true } c.grounds
    refine ⟨goes_early hpre hsub rfl (fun g hg => hg) rfl rfl h.below h.framed ?_, hsub⟩
    refine placed_requireAdmin hub c _ c.grounds fun g hg => ?_
    rw [hnone] at hg
    contradiction
  · rw [if_neg hbypass]
    by_cases hkey : apiKeyMatches c.provided db.appApiKey = true
    · rw [if_pos hkey]
      have hsub := subscription_requireAdmin c { method := .apiKey, isAdmin := true }
        (c.grounds ++ [.key (c.provided.getD "")])
      refine ⟨goes_early hpre hsub rfl (fun g hg => List.mem_append_left _ hg) rfl rfl h.below
        h.framed ?_, hsub⟩
      refine placed_requireAdmin hub c _ _ fun g hg => ?_
      rw [hnone, List.nil_append, List.mem_singleton] at hg
      rw [hg]
      rfl
    · rw [if_neg hkey]
      exact ⟨goes_early hpre rfl rfl (fun g hg => hg) rfl rfl h.below h.framed hnone, rfl⟩

theorem goes_refused (hpre : c.subscription = none) (code : Nat) (detail : String) :
    Goes hub hub c { c with phase := .refused code detail } ∧
      ({ c with phase := .refused code detail } : Connect).subscription = none :=
  ⟨goes_early hpre rfl rfl (fun _ hg => hg) rfl rfl h.below h.framed trivial, rfl⟩

theorem goes_readSession (hphase : c.phase = .cookie)
    (hash : String → String) (db : Db) (now : Int) :
    Goes hub hub c (c.readSession hash db now) ∧
      (c.readSession hash db now).subscription = none := by
  have hpre : c.subscription = none := by simp only [Connect.subscription, hphase]
  have hnone : c.grounds = [] := by
    have hput := h.placed
    simpa only [Connect.Placed, hphase] using hput
  have hrefu := goes_refused h hpre 401 "invalid_api_key"
  unfold Connect.readSession
  split
  · exact hrefu
  rename_i token htok
  by_cases hnil : token = ""
  · rw [if_pos hnil]
    exact hrefu
  rw [if_neg hnil]
  split
  · exact hrefu
  rename_i s hrow
  by_cases hexp : s.expiresAt ≤ now
  · rw [if_pos hexp]
    exact hrefu
  rw [if_neg hexp]
  by_cases hidle : isIdleExpired s now = true
  · rw [if_pos hidle]
    exact hrefu
  rw [if_neg hidle]
  refine ⟨goes_early hpre rfl rfl (fun g hg => List.mem_append_left _ hg) rfl rfl
    h.below h.framed ?_, rfl⟩
  intro g hg
  have hmem : g ∈ c.grounds ++ [Ground.row s.tokenHash s.userId] := hg
  rw [hnone, List.nil_append, List.mem_singleton] at hmem
  rw [hmem]

theorem goes_refresh {s : AuthSession} (hphase : c.phase = .found s)
    (db : Db) (now : Int) (writes : Bool) :
    Goes hub hub c (c.refresh db now writes s).1 ∧
      (c.refresh db now writes s).1.subscription = none := by
  have hpre : c.subscription = none := by simp only [Connect.subscription, hphase]
  have hrow : ∀ g ∈ c.grounds, g.principal = (Ground.row s.tokenHash s.userId).principal := by
    have hput := h.placed
    simpa only [Connect.Placed, hphase] using hput
  unfold Connect.refresh
  cases hown : s.userId with
  | none =>
    rw [hown] at hrow
    have hsub := subscription_requireAdmin c
      { method := .apiKey, isAdmin := true, sessionExpiresAt := some s.expiresAt
        sessionIdleDeadline :=
          some ((maybeRefreshLastSeen db.store s now writes).1 + sessionIdleWindow) } c.grounds
    exact ⟨goes_early hpre hsub rfl (fun g hg => hg) rfl rfl h.below h.framed
      (placed_requireAdmin hub c _ _ hrow), hsub⟩
  | some userId =>
    rw [hown] at hrow
    exact ⟨goes_early hpre rfl rfl (fun g hg => hg) rfl rfl h.below h.framed hrow, rfl⟩

theorem goes_readUser {userId : Nat} {expiresAt idleDeadline : Int}
    (hphase : c.phase = .identified userId expiresAt idleDeadline) (db : Db) :
    Goes hub hub c (c.readUser db userId expiresAt idleDeadline) ∧
      (c.readUser db userId expiresAt idleDeadline).subscription = none := by
  have hpre : c.subscription = none := by simp only [Connect.subscription, hphase]
  have hrow : ∀ g ∈ c.grounds, g.principal = (.plexSession, some userId) := by
    have hput := h.placed
    simpa only [Connect.Placed, hphase] using hput
  unfold Connect.readUser
  cases db.store.users.find userId with
  | none => exact goes_refused h hpre 401 "invalid_api_key"
  | some user =>
    have hsub := subscription_requireAdmin c
      { method := .plexSession, userId := some userId, isAdmin := 0 < user.permissions
        sessionExpiresAt := some expiresAt, sessionIdleDeadline := some idleDeadline }
      (if 0 < user.permissions then c.grounds ++ [.admin userId] else c.grounds)
    refine ⟨goes_early hpre hsub rfl ?_ rfl rfl h.below h.framed
      (placed_requireAdmin hub c _ _ ?_), hsub⟩
    · intro g hg
      by_cases hadm : 0 < user.permissions
      · simp only [if_pos hadm]
        exact List.mem_append_left _ hg
      · simp only [if_neg hadm]
        exact hg
    · intro g hg
      by_cases hadm : 0 < user.permissions
      · rw [if_pos hadm] at hg
        cases List.mem_append.mp hg with
        | inl hold => exact hrow g hold
        | inr hnew =>
          rw [List.mem_singleton.mp hnew]
          rfl
      · rw [if_neg hadm] at hg
        exact hrow g hg

end

end Reads

/-! ### Streams -/

theorem realtime_notMem_cause (cause : Cause) (e : RealtimeEvent) :
    Frame.realtime e ∉ cause.frames := by
  cases cause with
  | silent | lease reason | hub reason => simp [Cause.frames]

section Streams

variable {hub : EventHub} {actions : List Action} {c : Connect} {stream : Stream}

section

variable (h : c.Sound hub actions) (hphase : c.phase = .streaming stream)
include h hphase

theorem streaming_parts :
    (∃ s, hub.subscriptions[stream.subscription]? = some s ∧
      ∀ g ∈ c.grounds, s.authMethod = some g.principal.1.value ∧ s.userId = g.principal.2) ∧
    ∀ r, Frame.closed r ∉ c.frames := by
  have hput := h.placed
  have hfr := h.framed
  simp only [Connect.Placed, hphase] at hput
  simp only [Connect.Framed, hphase] at hfr
  exact ⟨hput, hfr⟩

theorem goes_leave (cause : Cause)
    (hcause : ∀ r, cause = .hub r → stream.getter = .done (.streamClosed (some r))) :
    Goes hub (c.leave hub stream cause).2 c (c.leave hub stream cause).1 := by
  have hsent : ∀ n, c.Below n → (c.leave hub stream cause).1.Below n := by
    intro n hlow
    refine ⟨?_, fun st hst => by simp [Connect.leave] at hst⟩
    intro e he
    cases List.mem_append.mp he with
    | inl hold => exact hlow.sent e hold
    | inr hnew => exact absurd hnew (realtime_notMem_cause cause e)
  refine ⟨fun g hg => hg, rfl, rfl, hsent _ h.below, trivial, ?_, ?_, ?_, ?_⟩
  · exact ⟨c.frames, rfl, (streaming_parts h hphase).2⟩
  · intro n hqt
    exact ⟨hsent n hqt.below, fun st hst => by simp [Connect.leave] at hst⟩
  · intro r htold
    simp only [Connect.Told, hphase] at htold
    cases cause with
    | silent | lease reason => trivial
    | hub reason => exact Option.some.inj (htold.1 (some reason) (hcause reason rfl))
  · intro hopen
    simp only [Connect.Open, hphase] at hopen
    cases cause with
    | silent | lease reason => trivial
    | hub reason => exact absurd (hcause reason rfl) (hopen.1 (some reason))

theorem goes_on {stream' : Stream} {frames : List Frame}
    (hsame : stream'.subscription = stream.subscription)
    (hget : ∀ item, stream'.getter = .done item → stream.getter = .done item)
    (hsent : ∀ n e, c.Below n → Frame.realtime e ∈ frames → e.seq < n)
    (hfr : ∀ r, Frame.closed r ∉ frames) :
    Goes hub hub c { c with phase := .streaming stream', frames } := by
  have hlow : ∀ n, c.Below n →
      ({ c with phase := .streaming stream', frames } : Connect).Below n := by
    intro n hn
    refine ⟨fun e he => hsent n e hn he, ?_⟩
    intro st hst e he
    have heq : stream' = st := Phase.streaming.inj hst
    rw [← heq] at he
    exact hn.held stream hphase e (hget _ he)
  refine ⟨fun g hg => hg, rfl, rfl, hlow _ h.below, ?_, hfr, ?_, ?_, ?_⟩
  · have hput := (streaming_parts h hphase).1
    rw [← hsame] at hput
    exact hput
  · intro n hqt
    refine ⟨hlow n hqt.below, ?_⟩
    intro st hst
    have heq : stream' = st := Phase.streaming.inj hst
    rw [← heq, hsame]
    exact hqt.closed stream hphase
  · intro r htold
    simp only [Connect.Told, hphase] at htold
    refine ⟨fun r' hr' => htold.1 r' (hget _ hr'), ?_⟩
    rw [hsame]
    exact htold.2
  · intro hopen
    simp only [Connect.Open, hphase] at hopen
    refine ⟨fun r hr => hopen.1 r (hget _ hr), ?_⟩
    rw [hsame]
    exact hopen.2

theorem goes_poll (now : Int) (isDisconnected : Bool) :
    Goes hub (c.poll hub now isDisconnected stream).2 c
      (c.poll hub now isDisconnected stream).1 := by
  unfold Connect.poll
  by_cases hgone : isDisconnected = true
  · rw [if_pos hgone]
    exact goes_leave h hphase .silent fun r hr => by contradiction
  rw [if_neg hgone]
  cases stream.lapsed now with
  | some reason => exact goes_leave h hphase (.lease reason) fun r hr => by contradiction
  | none =>
    refine goes_on h hphase rfl ?_ (fun n e hn he => hn.sent e he) (streaming_parts h hphase).2
    intro item hitem
    -- A getter that is made now has nothing yet.
    by_cases habs : stream.getter = .absent
    · simp only [if_pos habs] at hitem
      contradiction
    · simpa only [if_neg habs] using hitem

theorem goes_resume (now : Int) :
    Goes hub (c.resume hub now stream).2 c (c.resume hub now stream).1 := by
  have hsilent := (streaming_parts h hphase).2
  have hping : ∀ r, .closed r ∉ c.frames ++ [Frame.ping] := by
    intro r hr
    cases List.mem_append.mp hr with
    | inl hold => exact hsilent r hold
    | inr hnew => simp at hnew
  have htime : Goes hub hub c
      { c with phase := .streaming { stream with waiting := false }
               frames := c.frames ++ [Frame.ping] } := by
    refine goes_on h hphase rfl (fun item hitem => hitem) ?_ hping
    intro n e hn he
    cases List.mem_append.mp he with
    | inl hold => exact hn.sent e hold
    | inr hnew => simp at hnew
  unfold Connect.resume
  split
  · rename_i e hget
    refine goes_on h hphase rfl (fun item hitem => by simp at hitem) ?_ ?_
    · intro n e' hn he'
      cases List.mem_append.mp he' with
      | inl hold => exact hn.sent e' hold
      | inr hnew =>
        have heq : e' = e := by simpa using hnew
        rw [heq]
        exact hn.held stream hphase e hget
    · intro r hr
      cases List.mem_append.mp hr with
      | inl hold => exact hsilent r hold
      | inr hnew => simp at hnew
  · rename_i reason hget
    refine goes_leave h hphase (.hub reason) fun r hr => ?_
    rw [hget, Cause.hub.inj hr]
  · exact goes_leave h hphase .silent fun r hr => by contradiction
  all_goals
    split
    · rename_i reason _
      exact goes_leave h hphase (.lease reason) fun r hr => by contradiction
    · exact htime

end

theorem take_parts (htake : c.take hub stream = some (c', hub')) :
    stream.getter = .pending ∧ ∃ s item rest, hub.subscriptions[stream.subscription]? = some s ∧
      s.queue = item :: rest ∧
      c' = { c with phase := .streaming { stream with getter := .done item } } ∧
      hub' = hub.modify stream.subscription fun _ => { s with queue := rest } := by
  unfold Connect.take at htake
  by_cases hpend : stream.getter = .pending
  · rw [if_pos hpend] at htake
    refine ⟨hpend, ?_⟩
    cases hs : hub.subscriptions[stream.subscription]? with
    | none => simp [hs] at htake
    | some s =>
      cases hq : s.queue with
      | nil => simp [hs, EventSubscription.get, hq] at htake
      | cons item rest =>
        simp only [hs, Option.bind_some, EventSubscription.get, hq, Option.some.injEq,
          Prod.mk.injEq] at htake
        exact ⟨s, item, rest, rfl, hq, htake.1.symm, htake.2.symm⟩
  · rw [if_neg hpend] at htake
    contradiction

theorem goes_take (h : c.Sound hub actions) (hhub : HubSound hub)
    (hphase : c.phase = .streaming stream)
    (htake : c.take hub stream = some (c', hub')) : HubSound hub' ∧ Goes hub hub' c c' := by
  rcases take_parts htake with ⟨hpend, s, item, rest, hs, hq, hc', hhub'⟩
  subst hc'
  subst hhub'
  have hsound := hhub.sound s (List.mem_of_getElem? hs)
  have hrest : ∀ i, i ∈ rest → i ∈ s.queue := fun i hi => hq ▸ List.mem_cons_of_mem item hi
  have hfst : item ∈ s.queue := hq ▸ List.mem_cons_self
  have hs' : (hub.modify stream.subscription fun _ => { s with queue := rest }).subscriptions[
      stream.subscription]? = some { s with queue := rest } := by
    refine (List.getElem?_modify_eq _ _ _).trans ?_
    rw [hs]
    rfl
  have hlow : ∀ n, c.Below n → (∀ e, item = .event e → e.seq < n) →
      ({ c with phase := .streaming { stream with getter := .done item } } : Connect).Below n := by
    intro n hn hitem
    refine ⟨hn.sent, ?_⟩
    intro st hst e he
    rw [← Phase.streaming.inj hst] at he
    exact hitem e (Getter.done.inj he)
  refine ⟨?_, fun g hg => hg, rfl, rfl, ?_, ?_, (streaming_parts h hphase).2, ?_, ?_, ?_⟩
  · refine hhub.modify _ _ fun _ _ => ⟨?_, ?_, ?_, hsound.member⟩
    · exact fun e he => hsound.below e (hrest _ he)
    · exact fun hshut e he => hsound.drained hshut e (hrest _ he)
    · exact fun hopen r hr => hsound.plain hopen r (hrest _ hr)
  · exact hlow _ h.below fun e he => hsound.below e (he ▸ hfst)
  · rcases (streaming_parts h hphase).1 with ⟨r, hr, hgrd⟩
    have heq := Option.some.inj (hs.symm.trans hr)
    subst heq
    exact ⟨_, hs', hgrd⟩
  · intro n hqt
    rcases hqt.closed stream hphase with ⟨r, hr, hshut⟩
    have heq := Option.some.inj (hs.symm.trans hr)
    subst heq
    -- A queue that is closed holds no event to take.
    refine ⟨hlow n hqt.below fun e he => ?_, ?_⟩
    · exact absurd (he ▸ hfst) (hsound.drained hshut e)
    · intro st hst
      rw [← Phase.streaming.inj hst]
      exact ⟨_, hs', hshut⟩
  · intro r htold
    simp only [Connect.Told, hphase] at htold
    rcases htold.2 with ⟨s', hs'', hshut, hitems⟩
    have heq := Option.some.inj (hs.symm.trans hs'')
    subst heq
    refine ⟨?_, _, hs', hshut, fun i hi => hitems i (hrest i hi)⟩
    intro r' hr'
    have hitem : item = .streamClosed r' := Getter.done.inj hr'
    exact Item.streamClosed.inj (hitem.symm.trans (hitems item hfst))
  · intro hopen
    simp only [Connect.Open, hphase] at hopen
    rcases hopen.2 with ⟨s', hs'', hshut⟩
    have heq := Option.some.inj (hs.symm.trans hs'')
    subst heq
    refine ⟨?_, _, hs', hshut⟩
    intro r hr
    have hitem : item = .streamClosed r := Getter.done.inj hr
    exact hsound.plain hshut r (hitem ▸ hfst)

theorem Connect.Sound.subscribe {auth : AuthContext} (h : c.Sound hub actions)
    (hphase : c.phase = .admitted auth) (now : Int)
    (hterm : ∀ j ∈ c.struckBy, ∀ a, actions[j]? = some a → ∀ e n, a.progress ≠ .returned e n) :
    (c.subscribe hub now auth).1.Sound (c.subscribe hub now auth).2 actions := by
  have hlast : (hub.subscribe (some auth.method.value) auth.userId).2.subscriptions[
      hub.subscriptions.length]? = some (EventSubscription.enqueue
        { authMethod := some auth.method.value, userId := auth.userId } hub.maxQueueSize
        { seq := hub.nextSeq - 1, topics := ["sync"], reason := "connected"
          appVersion := hub.appVersion }) := by
    unfold EventHub.subscribe
    simp
  have hfld := enqueue_fields hub.maxQueueSize
    { seq := hub.nextSeq - 1, topics := ["sync"], reason := "connected"
      appVersion := hub.appVersion }
    { authMethod := some auth.method.value, userId := auth.userId }
  have hgrd : ∀ g ∈ c.grounds, g.principal = (auth.method, auth.userId) := by
    have hput := h.placed
    simpa only [Connect.Placed, hphase] using hput
  have hfr : ∀ r, .closed r ∉ c.frames := by
    have hframed := h.framed
    simpa only [Connect.Framed, hphase] using hframed
  refine ⟨⟨h.below.sent, ?_⟩, ?_, hfr, ?_, ?_, ?_⟩
  · intro st hst e he
    rw [← Phase.streaming.inj hst] at he
    simp at he
  · refine ⟨_, hlast, ?_⟩
    intro g hg
    rw [hgrd g hg]
    exact ⟨hfld.1, hfld.2.1⟩
  · intro j hj
    rcases h.struck j hj with ⟨a, ha, hans⟩
    refine ⟨a, ha, ?_⟩
    unfold Connect.Answered at hans ⊢
    cases hprog : a.progress with
    | committed e =>
      simp only [hprog] at hans ⊢
      exact hans
    | returned e n => exact absurd hprog (hterm j hj a ha e n)
    | begun | staged e | left => simp only [hprog] at hans
  · intro j hj
    rcases h.cut j hj with ⟨a, e, n, closing, -, -, -, htold⟩
    simp only [Connect.Told, hphase] at htold
  · intro _
    refine ⟨fun r hr => by simp at hr, _, hlast, ?_⟩
    exact hfld.2.2.1

end Streams

end EventStreams

end PlexManager
