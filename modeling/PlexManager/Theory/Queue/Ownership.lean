import PlexManager.Lib.Transition
import PlexManager.Theory.Queue.Moves

/-!
# What every actor can rely on

The proof outline of the queue protocol. The shared part says how the two
halves of ownership fit: a live claim is the newest registration, it bars the
removal guard, and a marker in the row is that of a registered call with its
flags. The local part says what an actor knows at each point: a call that has
started its removal still holds the claim, a cycle that has verified its
removal looks at a row on its way to `failed`, and a completion that observed a
marker carries that marker's verdict.

The life of the row is one-way. Until it reaches `failedPending` nothing but
registrations has happened; from there it can only reach `failed`, once.

## Main definitions

* `Doomed`: The row is pending its failure or has failed.
* `SharedOk`: The assertions about the shared state.
* `CallOk`, `CycleOk`: What a call and a cycle rely on.
* `Leaves`: What a step of one actor leaves as it was for the others.
* `ownership`: The outline.

## Theorems

* `ownership_sound`: Every step of every actor keeps the outline.
* `ownership_of_run`: It holds in every state a run reaches.
* `removals_exclusive`: One call removes at a time, and no cycle beside it.
-/

namespace PlexManager

namespace QueueProtocol

open DownloadState Interleaving Transition

def Doomed (row : DownloadRow) : Prop := row.status = .failedPending ∨ row.status = .failed

theorem not_doomed_of_active {row : DownloadRow} (h : row.status.activeState = true) :
    ¬ Doomed row := by
  rintro (hs | hs)
  · rw [hs] at h
    exact absurd h (by decide)
  · rw [hs] at h
    exact absurd h (by decide)

theorem ne_failed_of_legal {status : DownloadState}
    (h : isLegalTransition status .failedPending = true) : ¬ (status = .failedPending ∨
      status = .failed) := by
  rintro (hs | hs)
  · rw [hs] at h
    exact absurd h (by decide)
  · rw [hs] at h
    exact absurd h (by decide)

def isCompleted : Event → Bool
  | .completed _ _ _ => true
  | _ => false

def wroteBlocklist : Event → Bool
  | .completed _ wrote _ => wrote
  | _ => false

/-- The call that holds this nonce was registered with this blocklist flag. -/
def RegisteredAs (log : List Event) (m : FailMarker) : Prop :=
  ∃ flags : OperatorFailFlags, Event.registered m.nonce flags ∈ log ∧
    m.blocklist = flags.blocklist

structure SharedOk (s : Shared) : Prop where
  newest : ∀ c, s.claim = some c → c.token + 1 = s.nextToken
  bars : s.claim ≠ none → s.removalsInFlight = 0
  removes : ∀ c, s.claim = some c → c.removalInFlight = true → c.flags.removeTorrent = true
  untouched : ¬ Doomed s.row → parseOperatorFailMarker s.row.failedReason = none ∧
    ∀ e ∈ s.log, ∃ token flags, e = .registered token flags
  once : s.row.status = .failed → s.log.countP isCompleted = 1
  notYet : s.row.status ≠ .failed → s.log.countP isCompleted = 0
  written : s.blocklist.length = s.log.countP wroteBlocklist
  owner : ∀ m, s.row.failedReason = some (.marker m) → m.operator = true →
    RegisteredAs s.log m
  recorded : ∀ m, s.row.failedReason = some (.marker m) → m.operator = false →
    m.remove = .done
  honoured : ∀ m wrote by_, Event.completed (some (.marker m)) wrote by_ ∈ s.log →
    m.operator = true → wrote = m.blocklist ∧ RegisteredAs s.log m

/-- The call holds the claim for its removal, which has started. -/
def Removing (s : Shared) (token : Nat) : Prop :=
  (∃ c, s.claim = some c ∧ c.token = token ∧ c.removalInFlight = true) ∧
    Event.deleteStarted ∈ s.log

def CallHere (args : MarkFailedArgs) (s : Shared) : CallPc → Prop
  | .stamping _ status => isLegalTransition status .failedPending = true
  | .stamped _ => Doomed s.row
  | .removing token | .recording token => Doomed s.row ∧ Removing s token
  | .completing token marker _ attempted => Doomed s.row ∧
      (marker = operatorFailMarker args.flags token ∨
        marker = operatorFailMarkerRemovalDone args.blocklist token) ∧
      (attempted = true → Removing s token)
  | _ => True

structure CallOk (args : MarkFailedArgs) (s : Shared) (pc : CallPc) : Prop where
  issued : ∀ t, pc.token = some t → t < s.nextToken ∧ Event.registered t args.flags ∈ s.log
  claimed : ∀ t c, pc.token = some t → s.claim = some c → c.token = t → c.flags = args.flags
  here : CallHere args s pc

/-- A completion that observed a marker has its verdict. -/
def Agrees (completion : FailureCompletion) : Prop :=
  ∀ m, completion.observed = some (.marker m) → completion.blocklist = m.blocklist

/-- A completion that removes the torrent observed no marker that declines it. -/
def Owes (completion : FailureCompletion) : Prop :=
  ∀ m, completion.observed = some (.marker m) → completion.removeTorrent = m.removeTorrent

def CycleOk (s : Shared) : CyclePc → Prop
  | .listed snap | .healListed snap =>
      ¬ Doomed snap → parseOperatorFailMarker snap.failedReason = none
  | .transitioning snap move => parseOperatorFailMarker snap.failedReason = none ∧
      snap.status.activeState = true ∧
      (move.target.activeState = true ∨ move.target = .failedPending)
  | .detailing snap _ => parseOperatorFailMarker snap.failedReason = none ∧ Doomed s.row
  | .envCheck completion | .envStamping completion =>
      parseOperatorFailMarker completion.observed = none
  | .filtering completion | .phaseB completion => Agrees completion ∧ Owes completion
  | .reproving completion =>
      Agrees completion ∧ Owes completion ∧ completion.removeTorrent = true
  | .reproved completion unchanged => Agrees completion ∧ Owes completion ∧
      completion.removeTorrent = true ∧ (unchanged = true → Doomed s.row)
  | .deleting completion | .recording completion => Agrees completion ∧ Owes completion ∧
      completion.removeTorrent = true ∧ Doomed s.row
  | .completing completion _ _ | .swapping completion _ _ => Agrees completion
  | _ => True

/-! ### What others are left with -/

/-- What a step of the actor with this token leaves to everyone else: what has
    happened stays, and it touches no claim but its own. -/
structure Leaves (mine : Option Nat) (s s' : Shared) : Prop where
  issued : s.nextToken ≤ s'.nextToken
  log : ∀ e ∈ s.log, e ∈ s'.log
  doomed : Doomed s.row → Doomed s'.row
  noNewClaim : ∀ c, s'.claim = some c → c.token < s.nextToken → mine ≠ some c.token →
    s.claim = some c
  keepsClaim : ∀ c, s.claim = some c → c.removalInFlight = true → mine ≠ some c.token →
    s'.claim = some c

variable {s s' : Shared} {args : MarkFailedArgs} {pc pc' : CallPc} {m : FailMarker}
  {completion : FailureCompletion} {w : World} {mine : Option Nat} {c : Choice}
  {o : Outline Shared Actor} {actions : List Action}

theorem leaves_of_claim (hcl : s'.claim = s.claim) (hnext : s'.nextToken = s.nextToken)
    (hlog : ∀ e ∈ s.log, e ∈ s'.log) (hdoom : Doomed s.row → Doomed s'.row) : Leaves mine s s' where
  issued := by omega
  log := hlog
  doomed := hdoom
  noNewClaim := fun c hc _ _ => by rw [← hcl, hc]
  keepsClaim := fun c hc _ _ => by rw [hcl, hc]

theorem leaves_refl (mine : Option Nat) (s : Shared) : Leaves mine s s :=
  leaves_of_claim rfl rfl (fun _ he => he) id

theorem mem_log_cons {e e' : Event} {log : List Event} (h : e ∈ log) : e ∈ e' :: log :=
  List.mem_cons_of_mem e' h

theorem leaves_of_callMove (h : CallMove args c s pc s' pc') : Leaves pc.token s s' := by
  cases h with
  | quit | load | miss | readopt | restampMiss | reread | skipDelete | deleted | unrecorded
  | retry | abandon => exact leaves_refl _ s
  | register hgrd hcl hpc =>
    refine ⟨Nat.le_succ _, fun e he => mem_log_cons he, id, ?_, ?_⟩
    · intro c hc hlt _
      simp only [registeredWith, Option.some.injEq] at hc
      rw [← hc] at hlt
      exact absurd hlt (Nat.lt_irrefl _)
    · intro c hc hremoval _
      rw [hcl c hc] at hremoval
      simp at hremoval
  | stamp hst | restamp hc hst hwhy =>
    exact leaves_of_claim rfl rfl (fun e he => mem_log_cons he) (fun _ => .inl rfl)
  | @startDelete token hrem howns =>
    rcases (ownsOperatorClaim_iff token s).mp howns with ⟨c₀, hc₀, htok⟩
    refine ⟨Nat.le_refl _, fun e he => mem_log_cons he, id, ?_, ?_⟩
    · intro c hc _ hmine
      simp only [markRemovalInFlight, hc₀, Option.map_some, htok, if_true,
        Option.some.injEq] at hc
      rw [← hc] at hmine
      simp [CallPc.token] at hmine
    · intro c hc _ hmine
      rw [hc₀, Option.some.injEq] at hc
      rw [← hc, htok] at hmine
      exact absurd rfl hmine
  | record hst hwhy => exact leaves_of_claim rfl rfl (fun _ he => he) (fun _ => .inl rfl)
  | complete hc hst hwhy =>
    exact leaves_of_claim rfl rfl (fun e he => mem_log_cons he) (fun _ => .inr rfl)
  | @release token =>
    unfold releaseOperatorClaim
    by_cases howns : ownsOperatorClaim token s = true
    · rw [if_pos howns]
      rcases (ownsOperatorClaim_iff token s).mp howns with ⟨c₀, hc₀, htok⟩
      refine ⟨Nat.le_refl _, fun _ he => he, id, fun c hc => by simp at hc, ?_⟩
      intro c hc _ hmine
      rw [hc₀, Option.some.injEq] at hc
      rw [← hc, htok] at hmine
      exact absurd rfl hmine
    · rw [if_neg howns]
      exact leaves_refl _ s

theorem leaves_of_cycleMove {pc pc' : CyclePc} (hok : CycleOk s pc)
    (h : CycleMove s pc s' pc') : Leaves none s s' := by
  cases h with
  | quit | list | healList | residual | heal | plan | detail | pass | light | reprove | deleted
  | unrecorded | check | retry | leave => exact leaves_refl none s
  | transition hst hpc =>
    refine leaves_of_claim rfl rfl (fun _ he => he) (fun hdoom => ?_)
    refine absurd hdoom (not_doomed_of_active ?_)
    rw [hst]
    exact hok.2.1
  | envStamp hst hwhy =>
    exact leaves_of_claim rfl rfl (fun _ he => he) (fun hdoom => hdoom)
  | guard hcl | drop => exact leaves_of_claim rfl rfl (fun _ he => he) id
  | startDelete => exact leaves_of_claim rfl rfl (fun e he => mem_log_cons he) id
  | record hm hst hwhy =>
    exact leaves_of_claim rfl rfl (fun _ he => he) (fun _ => .inl rfl)
  | complete hst hwhy =>
    exact leaves_of_claim rfl rfl (fun e he => mem_log_cons he) (fun _ => .inr rfl)
  | @finish guarded =>
    cases guarded with
    | true => exact leaves_of_claim rfl rfl (fun _ he => he) id
    | false => exact leaves_refl none s

theorem Leaves.removing {token : Nat} (h : Leaves mine s s') (hmine : mine ≠ some token)
    (hremoving : Removing s token) : Removing s' token := by
  rcases hremoving with ⟨⟨c, hc, htok, hfly⟩, hlog⟩
  refine ⟨⟨c, h.keepsClaim c hc hfly ?_, htok, hfly⟩, h.log _ hlog⟩
  rw [htok]
  exact hmine

theorem callOk_frame (hok : CallOk args s pc) (h : Leaves mine s s')
    (hmine : ∀ t, pc.token = some t → mine ≠ some t) : CallOk args s' pc := by
  refine ⟨?_, ?_, ?_⟩
  · intro t ht
    rcases hok.issued t ht with ⟨hlt, hreg⟩
    have := h.issued
    exact ⟨by omega, h.log _ hreg⟩
  · intro t c ht hc htok
    have hlt := (hok.issued t ht).1
    have hold := h.noNewClaim c hc (by omega) (by rw [htok]; exact hmine t ht)
    exact hok.claimed t c ht hold htok
  · have hhere := hok.here
    cases pc with
    | stamping token status => exact hhere
    | stamped token => exact h.doomed hhere
    | removing token => exact ⟨h.doomed hhere.1, h.removing (hmine token rfl) hhere.2⟩
    | recording token => exact ⟨h.doomed hhere.1, h.removing (hmine token rfl) hhere.2⟩
    | completing token marker attempts attempted =>
      exact ⟨h.doomed hhere.1, hhere.2.1,
        fun hatt => h.removing (hmine token rfl) (hhere.2.2 hatt)⟩
    | _ => trivial

theorem cycleOk_frame {pc : CyclePc} (hok : CycleOk s pc)
    (h : Leaves mine s s') : CycleOk s' pc := by
  cases pc with
  | detailing snap base => exact ⟨hok.1, h.doomed hok.2⟩
  | reproved completion unchanged =>
    exact ⟨hok.1, hok.2.1, hok.2.2.1, fun hu => h.doomed (hok.2.2.2 hu)⟩
  | deleting completion => exact ⟨hok.1, hok.2.1, hok.2.2.1, h.doomed hok.2.2.2⟩
  | recording completion => exact ⟨hok.1, hok.2.1, hok.2.2.1, h.doomed hok.2.2.2⟩
  | _ => exact hok

/-! ### The shared state through each change -/

theorem RegisteredAs.cons {log : List Event} (e : Event)
    (h : RegisteredAs log m) : RegisteredAs (e :: log) m := by
  rcases h with ⟨flags, hmem, hflag⟩
  exact ⟨flags, mem_log_cons hmem, hflag⟩

section

variable (h : SharedOk s)
include h

theorem sharedOk_register (flags : OperatorFailFlags)
    (hgrd : s.removalsInFlight = 0) : SharedOk (registeredWith flags s) where
  newest := by
    intro c hc
    simp only [registeredWith, Option.some.injEq] at hc
    rw [← hc]
    rfl
  bars := fun _ => hgrd
  removes := by
    intro c hc hfly
    simp only [registeredWith, Option.some.injEq] at hc
    rw [← hc] at hfly
    simp at hfly
  untouched := by
    intro hrow
    refine ⟨(h.untouched hrow).1, ?_⟩
    intro e he
    rcases List.mem_cons.mp he with rfl | he
    · exact ⟨_, _, rfl⟩
    · exact (h.untouched hrow).2 e he
  once := by simpa [registeredWith, List.countP_cons, isCompleted] using h.once
  notYet := by simpa [registeredWith, List.countP_cons, isCompleted] using h.notYet
  written := by simpa [registeredWith, List.countP_cons, wroteBlocklist] using h.written
  owner := fun m hm hop => (h.owner m hm hop).cons _
  recorded := h.recorded
  honoured := by
    intro m wrote by_ hmem hop
    have hold : Event.completed (some (.marker m)) wrote by_ ∈ s.log := by
      simpa [registeredWith] using hmem
    exact ⟨(h.honoured m wrote by_ hold hop).1, (h.honoured m wrote by_ hold hop).2.cons _⟩

theorem sharedOk_stamp (args : MarkFailedArgs) (token : Nat)
    (hreg : Event.registered token args.flags ∈ s.log) (hnot : s.row.status ≠ .failed) :
    SharedOk (stampedWith args token s) where
  newest := h.newest
  bars := h.bars
  removes := h.removes
  untouched := fun hrow => absurd (.inl rfl) hrow
  once := fun hfail => absurd hfail nofun
  notYet := by
    simpa [stampedWith, List.countP_cons, isCompleted] using h.notYet hnot
  written := by simpa [stampedWith, List.countP_cons, wroteBlocklist] using h.written
  owner := by
    intro m hm _
    simp only [stampedWith, Option.some.injEq, FailedReason.marker.injEq] at hm
    rw [← hm]
    exact ⟨args.flags, mem_log_cons hreg, rfl⟩
  recorded := by
    intro m hm hop
    simp only [stampedWith, Option.some.injEq, FailedReason.marker.injEq] at hm
    rw [← hm] at hop
    simp [operatorFailMarker] at hop
  honoured := by
    intro m wrote by_ hmem hop
    have hold : Event.completed (some (.marker m)) wrote by_ ∈ s.log := by
      simpa [stampedWith] using hmem
    exact ⟨(h.honoured m wrote by_ hold hop).1, (h.honoured m wrote by_ hold hop).2.cons _⟩

theorem sharedOk_deleteStarted (hdoom : Doomed s.row) :
    SharedOk { s with log := .deleteStarted :: s.log } where
  newest := h.newest
  bars := h.bars
  removes := h.removes
  untouched := fun hrow => absurd hdoom hrow
  once := by simpa [List.countP_cons, isCompleted] using h.once
  notYet := by simpa [List.countP_cons, isCompleted] using h.notYet
  written := by simpa [List.countP_cons, wroteBlocklist] using h.written
  owner := fun m hm hop => (h.owner m hm hop).cons _
  recorded := h.recorded
  honoured := by
    intro m wrote by_ hmem hop
    have hold : Event.completed (some (.marker m)) wrote by_ ∈ s.log := by simpa using hmem
    exact ⟨(h.honoured m wrote by_ hold hop).1, (h.honoured m wrote by_ hold hop).2.cons _⟩

theorem sharedOk_registry (claim : Option OperatorClaim) (removals : Nat)
    (hnew : ∀ c, claim = some c → c.token + 1 = s.nextToken) (hbars : claim ≠ none → removals = 0)
    (hrem : ∀ c, claim = some c → c.removalInFlight = true → c.flags.removeTorrent = true) :
    SharedOk { s with claim := claim, removalsInFlight := removals } :=
  { h with
    newest := hnew
    bars := hbars
    removes := hrem }

theorem sharedOk_row (row : DownloadRow) (hbef : s.row.status ≠ .failed)
    (haft : row.status ≠ .failed)
    (huntouched : ¬ Doomed row → parseOperatorFailMarker row.failedReason = none ∧
      ∀ e ∈ s.log, ∃ token flags, e = .registered token flags)
    (hown : ∀ m, row.failedReason = some (.marker m) → m.operator = true → RegisteredAs s.log m)
    (hrec : ∀ m, row.failedReason = some (.marker m) → m.operator = false →
      m.remove = .done) : SharedOk { s with row := row } :=
  { h with
    untouched := huntouched
    once := fun hfail => absurd hfail haft
    notYet := fun _ => h.notYet hbef
    owner := hown
    recorded := hrec }

theorem sharedOk_complete (final : String) (blocklist : Option BlocklistReason)
    (by_ : Completer) (hst : s.row.status = .failedPending)
    (hverd : ∀ m, s.row.failedReason = some (.marker m) → m.operator = true →
      blocklist.isSome = m.blocklist) : SharedOk (completed final blocklist by_ s) where
  newest := h.newest
  bars := h.bars
  removes := h.removes
  untouched := fun hrow => absurd (.inr rfl) hrow
  once := by
    have hnone := h.notYet (by rw [hst]; decide)
    simp [completed, List.countP_cons, isCompleted, hnone]
  notYet := fun hne => absurd rfl hne
  written := by
    have hwrit := h.written
    cases blocklist with
    | none => simpa [completed, List.countP_cons, wroteBlocklist] using hwrit
    | some reason => simp [completed, List.countP_cons, wroteBlocklist, hwrit]
  owner := fun m hm => by simp [completed] at hm
  recorded := fun m hm => by simp [completed] at hm
  honoured := by
    intro m wrote by' hmem hop
    rcases List.mem_cons.mp hmem with heq | hold
    · simp only [Event.completed.injEq] at heq
      rcases heq with ⟨hwhy, hwrote, -⟩
      rw [hwrote]
      exact ⟨hverd m hwhy.symm hop, (h.owner m hwhy.symm hop).cons _⟩
    · exact ⟨(h.honoured m wrote by' hold hop).1, (h.honoured m wrote by' hold hop).2.cons _⟩

end

/-! ### The step of a call -/

theorem callOk_of (hok : CallOk args s pc) (hlog : ∀ e ∈ s.log, e ∈ s'.log)
    (hnext : s.nextToken = s'.nextToken)
    (hcl : ∀ c', s'.claim = some c' →
      ∃ c, s.claim = some c ∧ c.token = c'.token ∧ c.flags = c'.flags)
    (htoken : pc'.token = none ∨ pc'.token = pc.token) (hhere : CallHere args s' pc') :
    CallOk args s' pc' := by
  have hsame : ∀ t, pc'.token = some t → pc.token = some t := by
    intro t ht
    rcases htoken with hnone | heq
    · rw [ht] at hnone
      simp at hnone
    · rw [← heq, ht]
  refine ⟨?_, ?_, hhere⟩
  · intro t ht
    rcases hok.issued t (hsame t ht) with ⟨hlt, hreg⟩
    exact ⟨by omega, hlog _ hreg⟩
  · intro t c' ht hc' htok
    rcases hcl c' hc' with ⟨c, hc, hct, hcf⟩
    rw [← hcf]
    exact hok.claimed t c (hsame t ht) hc (by omega)

theorem callOk_quiet (hok : CallOk args s pc) (htok : pc'.token = none ∨ pc'.token = pc.token)
    (hhere : CallHere args s pc') : CallOk args s pc' :=
  callOk_of hok (fun _ he => he) rfl (fun c hc => ⟨c, hc, rfl, rfl⟩) htok hhere

theorem callOk_register (htok : pc'.token = some s.nextToken)
    (hhere : CallHere args (registeredWith args.flags s) pc') :
    CallOk args (registeredWith args.flags s) pc' := by
  refine ⟨?_, ?_, hhere⟩
  · intro t ht
    rw [htok, Option.some.injEq] at ht
    rw [← ht]
    exact ⟨Nat.lt_succ_self _, List.mem_cons_self⟩
  · intro t c _ hc _
    simp only [registeredWith, Option.some.injEq] at hc
    rw [← hc]

theorem call_own (hs : SharedOk s) (hok : CallOk args s pc) (h : CallMove args c s pc s' pc') :
    SharedOk s' ∧ CallOk args s' pc' := by
  cases h with
  | quit htok | load hterm => exact ⟨hs, callOk_quiet hok (.inl rfl) trivial⟩
  | register hgrd hcl hpc =>
    refine ⟨sharedOk_register hs args.flags hgrd, ?_⟩
    rcases hpc with rfl | rfl | ⟨rfl, hlegal⟩
    · exact callOk_register rfl trivial
    · exact callOk_register rfl trivial
    · exact callOk_register rfl hlegal
  | @stamp token status hst =>
    -- The call has read a status that the move is legal from, and failed is none.
    have hnot : s.row.status ≠ .failed := by
      intro hfail
      exact ne_failed_of_legal hok.here (.inr (by rw [← hst, hfail]))
    refine ⟨sharedOk_stamp hs args token (hok.issued token rfl).2 hnot, ?_⟩
    exact callOk_of hok (fun e he => mem_log_cons he) rfl (fun c hc => ⟨c, hc, rfl, rfl⟩)
      (.inr rfl) (.inl rfl)
  | miss | restampMiss | reread howns => exact ⟨hs, callOk_quiet hok (.inr rfl) trivial⟩
  | readopt hpc hst =>
    refine ⟨hs, callOk_quiet hok (.inr ?_) trivial⟩
    rcases hpc with rfl | rfl
    · rfl
    · rfl
  | @restamp token observed hc hst hwhy =>
    have hnot : s.row.status ≠ .failed := by rw [hst]; decide
    refine ⟨sharedOk_stamp hs args token (hok.issued token rfl).2 hnot, ?_⟩
    exact callOk_of hok (fun e he => mem_log_cons he) rfl (fun c hc => ⟨c, hc, rfl, rfl⟩)
      (.inr rfl) (.inl rfl)
  | @startDelete token hrem howns =>
    -- The claim is the call's own, and so has the flags it was made with.
    rcases (ownsOperatorClaim_iff token s).mp howns with ⟨c, hc, htok⟩
    have hflags := hok.claimed token c rfl hc htok
    have hdoom : Doomed s.row := hok.here
    have hmark : (markRemovalInFlight token s).claim =
        some { c with removalInFlight := true } := by
      simp [markRemovalInFlight, hc, htok]
    refine ⟨?_, ?_⟩
    · refine sharedOk_registry (sharedOk_deleteStarted hs hdoom)
        (markRemovalInFlight token s).claim s.removalsInFlight ?_ ?_ ?_
      · intro c' hc'
        rw [hmark, Option.some.injEq] at hc'
        rw [← hc']
        exact hs.newest c hc
      · intro _
        exact hs.bars (by simp [hc])
      · intro c' hc' _
        rw [hmark, Option.some.injEq] at hc'
        rw [← hc']
        rw [hflags]
        exact hrem
    · refine callOk_of hok (fun e he => mem_log_cons he) rfl ?_ (.inr rfl) ?_
      · intro c' hc'
        have hc'' : c' = { c with removalInFlight := true } := by
          have heq : (markRemovalInFlight token s).claim = some c' := hc'
          rw [hmark, Option.some.injEq] at heq
          exact heq.symm
        rw [hc'']
        exact ⟨c, hc, rfl, rfl⟩
      · exact ⟨hdoom, ⟨{ c with removalInFlight := true }, hmark, htok, rfl⟩,
          List.mem_cons_self⟩
  | skipDelete hskip =>
    exact ⟨hs, callOk_quiet hok (.inr rfl) ⟨hok.here, .inl rfl, nofun⟩⟩
  | deleted | retry => exact ⟨hs, callOk_quiet hok (.inr rfl) hok.here⟩
  | unrecorded hpc =>
    rcases hpc with rfl | rfl
    · exact ⟨hs, callOk_quiet hok (.inr rfl)
        ⟨hok.here.1, .inl rfl, fun _ => hok.here.2⟩⟩
    · exact ⟨hs, callOk_quiet hok (.inr rfl)
        ⟨hok.here.1, .inl rfl, fun _ => hok.here.2⟩⟩
  | @record token hst hwhy =>
    refine ⟨?_, ?_⟩
    · refine sharedOk_row hs _ (by rw [hst]; decide) nofun
        (fun hrow => absurd (.inl rfl) hrow) ?_ ?_
      · intro m hm _
        simp only [Option.some.injEq, FailedReason.marker.injEq] at hm
        rw [← hm]
        exact ⟨args.flags, (hok.issued token rfl).2, rfl⟩
      · intro m hm _
        simp only [Option.some.injEq, FailedReason.marker.injEq] at hm
        rw [← hm]
        rfl
    · exact callOk_of hok (fun _ he => he) rfl (fun c hc => ⟨c, hc, rfl, rfl⟩) (.inr rfl)
        ⟨.inl rfl, .inr rfl, fun _ => hok.here.2⟩
  | @complete token marker attempts attempted hc hst hwhy =>
    refine ⟨?_, callOk_of hok (fun e he => mem_log_cons he) rfl
      (fun c hc => ⟨c, hc, rfl, rfl⟩) (.inr rfl) trivial⟩
    refine sharedOk_complete hs _ _ _ hst ?_
    intro m hm _
    rw [hwhy, Option.some.injEq, FailedReason.marker.injEq] at hm
    -- Either marker that is swapped for the end has the blocklist flag of the call.
    have hblk : m.blocklist = args.blocklist := by
      rw [← hm]
      rcases hok.here.2.1 with hmarker | hmarker
      · rw [hmarker]
        rfl
      · rw [hmarker]
        rfl
    rw [hblk]
    cases args.blocklist with
    | true | false => rfl
  | abandon htok => exact ⟨hs, callOk_quiet hok (.inr htok.symm) trivial⟩
  | @release token =>
    unfold releaseOperatorClaim
    -- A token that does not match leaves the claim to the newer call.
    by_cases howns : ownsOperatorClaim token s = true
    · rw [if_pos howns]
      refine ⟨sharedOk_registry hs none s.removalsInFlight (fun c hc => by simp at hc)
        (fun hne => absurd rfl hne) (fun c hc => by simp at hc), ?_⟩
      exact callOk_of hok (fun _ he => he) rfl (fun c hc => by simp at hc) (.inl rfl) trivial
    · rw [if_neg howns]
      exact ⟨hs, callOk_quiet hok (.inl rfl) trivial⟩

/-! ### The step of a cycle -/

theorem parse_eq_some_iff (reason : Option FailedReason) (m : FailMarker) :
    parseOperatorFailMarker reason = some m ↔ reason = some (.marker m) := by
  unfold parseOperatorFailMarker
  split
  · simp
  · rename_i hnot
    simp only [reduceCtorEq, false_iff]
    exact hnot m

theorem residualCompletion_observed (snap : DownloadRow) :
    (residualCompletion snap).observed = snap.failedReason := by
  unfold residualCompletion
  split
  · rfl
  · rfl

theorem residualCompletion_of_marker {snap : DownloadRow}
    (h : snap.failedReason = some (.marker m)) :
    (residualCompletion snap).blocklist = m.blocklist ∧
      (residualCompletion snap).removeTorrent = m.removeTorrent := by
  unfold residualCompletion
  rw [(parse_eq_some_iff _ m).mpr h]
  exact ⟨rfl, rfl⟩

theorem agrees_residual (snap : DownloadRow) :
    Agrees (residualCompletion snap) ∧ Owes (residualCompletion snap) := by
  constructor
  · intro m hm
    rw [residualCompletion_observed] at hm
    exact (residualCompletion_of_marker hm).1
  · intro m hm
    rw [residualCompletion_observed] at hm
    exact (residualCompletion_of_marker hm).2

theorem agrees_of_unmarked (h : parseOperatorFailMarker completion.observed = none) :
    Agrees completion ∧ Owes completion := by
  have hnot : ∀ m, completion.observed ≠ some (.marker m) := by
    intro m hm
    rw [(parse_eq_some_iff _ m).mpr hm] at h
    simp at h
  exact ⟨fun m hm => absurd hm (hnot m), fun m hm => absurd hm (hnot m)⟩

theorem removalDoneMarker_blocklist (hagrees : Agrees completion)
    (h : removalDoneMarker completion = some m) : completion.blocklist = m.blocklist := by
  unfold removalDoneMarker at h
  split at h
  · rename_i m' hprs
    split at h
    · simp only [Option.some.injEq] at h
      rw [← h]
      exact hagrees m' ((parse_eq_some_iff _ m').mp hprs)
    · simp at h
  · simp only [Option.some.injEq] at h
    rw [← h]
    rfl

section

variable (h : removalDoneMarker completion = some m)
include h

theorem removalDoneMarker_done : m.remove = .done := by
  unfold removalDoneMarker at h
  split at h
  · split at h
    · cases h
      rfl
    · simp at h
  · cases h
    rfl

theorem removalDoneMarker_nonce {m' : FailMarker} (hobs : completion.observed = some (.marker m')) :
    m.nonce = m'.nonce := by
  unfold removalDoneMarker at h
  rw [(parse_eq_some_iff _ m').mpr hobs] at h
  simp only [] at h
  split at h
  · cases h
    rfl
  · simp at h

theorem removalDoneMarker_operator (hop : m.operator = true) :
    ∃ m', completion.observed = some (.marker m') ∧ m.nonce = m'.nonce ∧
      m.blocklist = m'.blocklist ∧ m'.remove = .yes := by
  unfold removalDoneMarker at h
  split at h
  · rename_i m' hprs
    split at h
    · rename_i hrem
      cases h
      exact ⟨m', (parse_eq_some_iff _ m').mp hprs, rfl, rfl,
        by simpa [FailMarker.removeTorrent] using hrem⟩
    · simp at h
  · rw [← Option.some.inj h] at hop
    simp [reconcileRemovalDoneMarker] at hop

end

theorem cycle_own {pc pc' : CyclePc} (hs : SharedOk s) (hok : CycleOk s pc)
    (h : CycleMove s pc s' pc') : SharedOk s' ∧ CycleOk s' pc' := by
  cases h with
  | quit hgrd | leave hcompletion => exact ⟨hs, trivial⟩
  | list hpc hterm | healList hpc hterm => exact ⟨hs, fun hrow => (hs.untouched hrow).1⟩
  | residual hst => exact ⟨hs, agrees_residual _⟩
  | heal hst hmark hrem => exact ⟨hs, (agrees_residual _).1⟩
  | plan hactive htgt => exact ⟨hs, hok (not_doomed_of_active hactive), hactive, htgt⟩
  | @transition snap move pc' hst hpc =>
    rcases hok with ⟨hunm, hactive, htgt⟩
    have hlive : ¬ Doomed s.row := not_doomed_of_active (by rw [hst]; exact hactive)
    have hprs := (hs.untouched hlive).1
    have hnot : ∀ m, s.row.failedReason ≠ some (.marker m) := by
      intro m hm
      rw [(parse_eq_some_iff _ m).mpr hm] at hprs
      simp at hprs
    refine ⟨?_, ?_⟩
    · refine sharedOk_row hs _ (fun hfail => hlive (.inr hfail)) ?_
        (fun _ => hs.untouched hlive) (fun m hm => absurd hm (hnot m))
        (fun m hm => absurd hm (hnot m))
      intro hfail
      change move.target = .failed at hfail
      rcases htgt with hact | hpend
      · rw [hfail] at hact
        exact absurd hact (by decide)
      · rw [hfail] at hpend
        exact absurd hpend (by decide)
    · rcases hpc with ⟨hpend, rfl⟩ | ⟨-, rfl⟩
      · exact ⟨hunm, .inl hpend⟩
      · trivial
  | detail d absent | light hrem => exact ⟨hs, hok.1⟩
  | pass hfrom hto =>
    rcases hto with ⟨rfl, rfl⟩ | rfl | rfl
    · exact ⟨hs, hok⟩
    · rcases hfrom with rfl | rfl | rfl
      · exact ⟨hs, agrees_of_unmarked hok⟩
      · exact ⟨hs, agrees_of_unmarked hok⟩
      · exact ⟨hs, hok⟩
    · rcases hfrom with rfl | rfl | rfl
      · exact ⟨hs, agrees_of_unmarked hok⟩
      · exact ⟨hs, agrees_of_unmarked hok⟩
      · exact ⟨hs, hok⟩
  | envStamp hst hwhy =>
    refine ⟨?_, agrees_of_unmarked rfl⟩
    refine sharedOk_row hs _ (by rw [hst]; decide) ?_ (fun hrow => ?_)
      (fun m hm => by simp at hm) (fun m hm => by simp at hm)
    · change s.row.status ≠ .failed
      rw [hst]
      decide
    · exact absurd (.inl hst) hrow
  | guard hcl hrem =>
    refine ⟨?_, hok.1, hok.2, hrem⟩
    exact sharedOk_registry hs s.claim (s.removalsInFlight + 1) hs.newest
      (fun hne => absurd hcl hne) hs.removes
  | reprove unchanged hunch =>
    exact ⟨hs, hok.1, hok.2.1, hok.2.2, fun hu => .inl (hunch hu).1⟩
  | startDelete =>
    have hdoom : Doomed s.row := hok.2.2.2 rfl
    exact ⟨sharedOk_deleteStarted hs hdoom, hok.1, hok.2.1, hok.2.2.1, hdoom⟩
  | drop =>
    refine ⟨?_, trivial⟩
    refine sharedOk_registry hs s.claim (s.removalsInFlight - 1) hs.newest ?_ hs.removes
    intro hne
    have := hs.bars hne
    omega
  | deleted | check hcl | retry => exact ⟨hs, hok⟩
  | unrecorded hpc =>
    rcases hpc with rfl | rfl
    · exact ⟨hs, hok.1⟩
    · exact ⟨hs, hok.1⟩
  | @record completion m hm hst hwhy =>
    refine ⟨?_, ?_⟩
    · refine sharedOk_row hs _ (by rw [hst]; decide) nofun
        (fun hrow => absurd (.inl rfl) hrow) ?_ ?_
      · intro m' hm' hop
        have heq : m = m' := by simpa using hm'
        rw [← heq] at hop ⊢
        rcases removalDoneMarker_operator hm hop with
          ⟨m₀, hobs, hnonce, hblk, hyes⟩
        rw [hobs] at hwhy
        -- A record of the reconcile actor is never owed, so this one was an operator's.
        have hop₀ : m₀.operator = true := by
          cases hcase : m₀.operator with
          | true => rfl
          | false =>
            have hdone := hs.recorded m₀ hwhy hcase
            rw [hyes] at hdone
            exact absurd hdone (by decide)
        rcases hs.owner m₀ hwhy hop₀ with ⟨flags, hmem, hflag⟩
        exact ⟨flags, by rw [hnonce]; exact hmem, by rw [hblk]; exact hflag⟩
      · intro m' hm' _
        have heq : m = m' := by simpa using hm'
        rw [← heq]
        exact removalDoneMarker_done hm
    · intro m' hm'
      have heq : m = m' := by simpa using hm'
      rw [← heq]
      change completion.blocklist = m.blocklist
      exact removalDoneMarker_blocklist hok.1 hm
  | @complete completion attempts guarded hst hwhy =>
    refine ⟨?_, trivial⟩
    refine sharedOk_complete hs _ _ _ hst ?_
    intro m hm _
    rw [hwhy] at hm
    rw [← hok m hm]
    cases completion.blocklist with
    | true | false => rfl
  | @finish guarded =>
    refine ⟨?_, trivial⟩
    cases guarded with
    | false => exact hs
    | true =>
      refine sharedOk_registry hs s.claim (s.removalsInFlight - 1) hs.newest ?_ hs.removes
      intro hne
      have := hs.bars hne
      omega

/-! ### The outline -/

def Actor.token : Actor → Option Nat
  | .call _ pc => pc.token
  | .cycle _ => none

def ActorOk (s : Shared) : Actor → Prop
  | .call args pc => CallOk args s pc
  | .cycle pc => CycleOk s pc

/-- The removal guard a cycle holds counts one. -/
def Actor.weight : Actor → Nat
  | .call _ _ => 0
  | .cycle pc => if pc.guarded then 1 else 0

def ownership : Outline Shared Actor where
  Shared := SharedOk
  Local := ActorOk
  Apart a b := ∀ t, a.token = some t → b.token ≠ some t
  weight := Actor.weight
  held s := s.removalsInFlight

theorem leaves_of_actor {a : Actor} (c : Choice) (hok : ActorOk s a) :
    Leaves a.token s (actorStep c s a).1 := by
  cases a with
  | call args pc => exact leaves_of_callMove (callMove args c s pc)
  | cycle pc => exact leaves_of_cycleMove hok (cycleMove c s pc)

theorem token_of_callMove {t : Nat} (h : CallMove args c s pc s' pc') (ht : pc'.token = some t) :
    pc.token = some t ∨ t = s.nextToken := by
  cases h with
  | quit | load | release => simp [CallPc.token] at ht
  | register hgrd hcl hpc =>
    refine .inr ?_
    rcases hpc with rfl | rfl | ⟨rfl, -⟩
    · exact (Option.some.inj ht).symm
    · exact (Option.some.inj ht).symm
    · exact (Option.some.inj ht).symm
  | readopt hpc hst | unrecorded hpc =>
    rcases hpc with rfl | rfl
    · exact .inl ht
    · exact .inl ht
  | abandon htok => exact .inl (by rw [htok]; exact ht)
  | stamp | miss | restamp | restampMiss | reread | startDelete | skipDelete | deleted | record
  | retry | complete => exact .inl ht

theorem account_of_callMove
    (h : CallMove args c s pc s' pc') : s'.removalsInFlight = s.removalsInFlight := by
  cases h with
  | @release token =>
    unfold releaseOperatorClaim
    split
    · rfl
    · rfl
  | _ => rfl

theorem account_of_cycleMove {pc pc' : CyclePc} (h : CycleMove s pc s' pc')
    (hheld : (if pc.guarded then 1 else 0) ≤ s.removalsInFlight) :
    s'.removalsInFlight + (if pc.guarded then 1 else 0) =
      s.removalsInFlight + (if pc'.guarded then 1 else 0) := by
  cases h with
  | quit hgrd =>
    rw [hgrd]
    rfl
  | list hpc | healList hpc =>
    rw [hpc]
    rfl
  | transition hst hpc =>
    rcases hpc with ⟨-, rfl⟩ | ⟨-, rfl⟩
    · rfl
    · rfl
  | pass hfrom hto =>
    rcases hto with ⟨rfl, rfl⟩ | rfl | rfl
    · rfl
    · rcases hfrom with rfl | rfl | rfl
      · rfl
      · rfl
      · rfl
    · rcases hfrom with rfl | rfl | rfl
      · rfl
      · rfl
      · rfl
  | guard hcl hrem => simp [CyclePc.guarded, registerRemovalInFlight]
  | drop =>
    simp only [CyclePc.guarded, if_true] at hheld
    simp only [CyclePc.guarded, releaseRemovalInFlight, if_true, Bool.false_eq_true, if_false]
    omega
  | unrecorded hpc =>
    rcases hpc with rfl | rfl
    · rfl
    · rfl
  | leave hcompletion | residual | heal | plan | detail | envStamp | light | reprove
  | startDelete | deleted | record | check | retry | complete => rfl
  | @finish guarded =>
    cases guarded with
    | false => rfl
    | true =>
      simp only [CyclePc.guarded, if_true] at hheld
      simp only [CyclePc.guarded, releaseRemovalInFlight, if_true, Bool.false_eq_true,
        if_false]
      omega

theorem ownership_sound : ownership.Sound actorStep (fun _ _ _ => True) where
  symm := by
    intro a b hab t hb ha
    exact hab t ha hb
  own := by
    intro s a c hs ha _ _
    cases a with
    | call args pc => exact call_own hs ha (callMove args c s pc)
    | cycle pc => exact cycle_own hs ha (cycleMove c s pc)
  frame := by
    intro s a b c _ ha hb hab _ _
    have hleav := leaves_of_actor c ha
    cases b with
    | call args pc =>
      exact callOk_frame hb hleav (fun t ht hmine => hab t hmine ht)
    | cycle pc => exact cycleOk_frame hb hleav
  apart := by
    intro s a b c _ ha hb hab t ht hbt
    cases a with
    | cycle pc => simp [actorStep, Actor.token] at ht
    | call args pc =>
      rcases token_of_callMove (callMove args c s pc) ht with hold | hnew
      · exact hab t hold hbt
      cases b with
      | cycle pc' => simp [Actor.token] at hbt
      | call args' pc' =>
        have := (hb.issued t hbt).1
        omega
  account := by
    intro s a c _ _ hheld
    cases a with
    | call args pc =>
      have := account_of_callMove (callMove args c s pc)
      simpa [ownership, Actor.weight, actorStep] using this
    | cycle pc => exact account_of_cycleMove (cycleMove c s pc) hheld

theorem sharedOk_init (h : Init w) : SharedOk w.shared := by
  rcases h with ⟨⟨row, hsh, hterm, hpend, hunm⟩, -⟩
  rw [hsh]
  have hnot : ∀ m, row.failedReason ≠ some (.marker m) := by
    intro m hm
    rw [(parse_eq_some_iff _ m).mpr hm] at hunm
    simp at hunm
  refine ⟨?_, ?_, ?_, ?_, ?_, ?_, ?_, ?_, ?_, ?_⟩
  · exact fun c hc => by simp at hc
  · exact fun hne => absurd rfl hne
  · exact fun c hc => by simp at hc
  · exact fun _ => ⟨hunm, fun e he => by simp at he⟩
  · intro hfail
    rw [hfail] at hterm
    exact absurd hterm (by decide)
  · exact fun _ => rfl
  · rfl
  · exact fun m hm => absurd hm (hnot m)
  · exact fun m hm => absurd hm (hnot m)
  · exact fun m wrote by_ hmem => by simp at hmem

theorem ownership_init (h : Init w) : ownership.Holds w := by
  refine ⟨sharedOk_init h, ?_, ?_, ?_⟩
  · rw [h.2]
    exact fun a ha => by simp at ha
  · rw [h.2]
    exact List.Pairwise.nil
  · rcases h with ⟨⟨row, hsh, -⟩, hact⟩
    rw [hact, hsh]
    rfl

-- A step of the system is that of a new actor, which relies on nothing, or of one of those
-- there are.
theorem holds_of_step {Allowed : Shared → Actor → Choice → Prop}
    (hsound : o.Sound actorStep Allowed)
    (hnew : ∀ s a, (∃ args, a = .call args .start) ∨ a = .cycle .start ∨ a = .cycle .healStart →
      o.Local s a ∧ (∀ b, o.Apart a b) ∧ o.weight a = 0) {w' : World} {action : Action}
    (h : o.Holds w)
    (hmay : ∀ i c a, action = .act i c → w.actors[i]? = some a → Allowed w.shared a c)
    (hstep : step w action = some w') : o.Holds w' := by
  have hspn : ∀ a, ((∃ args, a = .call args .start) ∨ a = .cycle .start ∨
      a = .cycle .healStart) → o.Holds (w.spawn a) := by
    intro a ha
    rcases hnew w.shared a ha with ⟨hloc, hsep, hwt⟩
    exact h.spawn hsound.symm hloc (fun b _ => hsep b) hwt
  cases action with
  | markFailed args =>
    cases hstep
    exact hspn _ (.inl ⟨args, rfl⟩)
  | reconcileAndList =>
    cases hstep
    exact hspn _ (.inr (.inl rfl))
  | healFailedPendingWithoutClient =>
    cases hstep
    exact hspn _ (.inr (.inr rfl))
  | act i c => exact hsound.act h (fun a ha => hmay i c a rfl ha) hstep

theorem ownership_new (s : Shared) (a : Actor)
    (h : (∃ args, a = .call args .start) ∨ a = .cycle .start ∨ a = .cycle .healStart) :
    ownership.Local s a ∧ (∀ b, ownership.Apart a b) ∧ ownership.weight a = 0 := by
  rcases h with ⟨args, rfl⟩ | rfl | rfl
  · refine ⟨⟨?_, ?_, trivial⟩, fun b t ht => absurd ht nofun, rfl⟩
    · exact fun t ht => absurd ht nofun
    · exact fun t c ht => absurd ht nofun
  · exact ⟨trivial, fun b t ht => absurd ht nofun, rfl⟩
  · exact ⟨trivial, fun b t ht => absurd ht nofun, rfl⟩

theorem ownership_of_run {w₀ : World} (hinit : Init w₀)
    (hrun : run step w₀ actions = some w) : ownership.Holds w :=
  invariant_of_run
    (fun _ _ _ h hstep =>
      holds_of_step ownership_sound ownership_new h (fun _ _ _ _ _ => trivial) hstep)
    w₀ w actions (ownership_init hinit) hrun

/-- A condition on the steps of actors, as one on the steps of the system. -/
def everyAct (P : Choice → Shared → Actor → Bool) (w : World) : Action → Bool
  | .act i c => w.actors[i]?.all (P c w.shared)
  | _ => true

-- The rule for runs under a condition: an outline whose steps may assume it holds in every
-- state such a run reaches.
theorem holds_of_meeting_run {P : Choice → Shared → Actor → Bool}
    (hsound : o.Sound actorStep (fun s a c => P c s a = true))
    (hnew : ∀ s a, (∃ args, a = .call args .start) ∨ a = .cycle .start ∨ a = .cycle .healStart →
      o.Local s a ∧ (∀ b, o.Apart a b) ∧ o.weight a = 0) {w₀ : World} (hinit : o.Holds w₀)
    (hmeet : StepsMeet step (fun w action => everyAct P w action = true) w₀ actions)
    (hrun : run step w₀ actions = some w) : o.Holds w := by
  refine invariant_of_meeting_run ?_ w₀ w actions hinit hmeet hrun
  intro w action w' hhold hcond hstep
  refine holds_of_step hsound hnew hhold ?_ hstep
  rintro i c a rfl ha
  simp only [everyAct, ha, Option.all_some] at hcond
  exact hcond

def calm : World := ⟨{ row := { status := .downloading } }, []⟩

theorem calm_init : Init calm := ⟨⟨{ status := .downloading }, rfl, rfl, by decide, rfl⟩, rfl⟩

/-- While a call waits for the client to remove the torrent, the row is on its way to `failed`,
    no cycle holds the guard of a removal, and no other call waits for the client. -/
theorem removals_exclusive {w₀ : World} {i j token : Nat} {b : Actor} (hinit : Init w₀)
    (hrun : run step w₀ actions = some w)
    (hi : w.actors[i]? = some (.call args (.removing token))) (hj : w.actors[j]? = some b)
    (hne : i ≠ j) :
    Doomed w.shared.row ∧ b.weight = 0 ∧ ∀ args' token', b ≠ .call args' (.removing token') := by
  have hhold := ownership_of_run hinit hrun
  have hhere : Doomed w.shared.row ∧ Removing w.shared token :=
    (hhold.locals _ (List.mem_of_getElem? hi)).here
  rcases hhere with ⟨hdoom, ⟨c, hc, htok, -⟩, -⟩
  refine ⟨hdoom, ?_, ?_⟩
  · have hle := hhold.pair_le hi hj hne
    have hfree := hhold.shared.bars (by rw [hc]; exact Option.some_ne_none c)
    simp only [ownership] at hle
    omega
  · rintro args' token' rfl
    have hother : Doomed w.shared.row ∧ Removing w.shared token' :=
      (hhold.locals _ (List.mem_of_getElem? hj)).here
    rcases hother.2.1 with ⟨c', hc', htok', -⟩
    obtain rfl := Option.some.inj (hc.symm.trans hc')
    have happ := pairwise_of_ne ownership_sound.symm hhold.apart hi hj hne
    exact happ token rfl (congrArg some (htok'.symm.trans htok))

/-- A call that removes the torrent, and a cycle that has listed the row. -/
def removedWhileListed : List Action :=
  [.markFailed ⟨true, true, true, true⟩, .reconcileAndList, .act 1 {}, .act 0 {}, .act 0 {},
    .act 0 {}, .act 0 {}]

theorem removals_exclusive_listed :
    ∃ w, run step calm removedWhileListed = some w ∧ Doomed w.shared.row := by
  obtain ⟨w, hrun, hi, b, hj⟩ : ∃ w, run step calm removedWhileListed = some w ∧
      w.actors[0]? = some (.call ⟨true, true, true, true⟩ (.removing 1)) ∧
        ∃ b, w.actors[1]? = some b := ⟨_, rfl, rfl, _, rfl⟩
  exact ⟨w, hrun, (removals_exclusive calm_init hrun hi hj Nat.zero_ne_one).1⟩

end QueueProtocol

end PlexManager
