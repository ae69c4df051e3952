import PlexManager.Theory.Queue.Ownership

/-!
# One completion, under the newest marker

Whatever the order of steps, the row is completed once and with at most one
blocklist row, and a completion over an operator's marker writes that row if
and only if the marker says so: the terminal swap compares the very reason its
verdict was taken from.

That the marker is the newest one stamped is a different matter. A call that
loses its first swap reads the row again and adopts what it finds there, and
nothing checks that the call still owns the claim. When what it finds is the
marker of a newer call, the older one restamps over it and completes under its
own flags, and the newer one yields. `older_call_clobbers` is such a run.
`restampsOlder` excludes only the step in which that happens, and
`single_completion` is the guarantee for all other runs.

## Theorems

* `single_completion`: The guarantee over all such runs.
* `older_call_clobbers`: A run in which an older call wins.
-/

namespace PlexManager

namespace QueueProtocol

open DownloadState Interleaving Transition

/-- A step that is not a restamp landing over the marker of a newer call. -/
def restampsOlder (c : Choice) (s : Shared) : Actor → Bool
  | .call _ (.restamping token observed) =>
      !(c.outcome = .ok && s.row.status = .failedPending && s.row.failedReason = observed &&
        (parseOperatorFailMarker observed).any fun m => token < m.nonce)
  | _ => true

/-- The row is completed at most once, with at most one blocklist row, and a
    completion over an operator's marker has the verdict of that marker, which
    is the call's that was registered with this nonce, and no newer marker had
    been stamped. -/
structure SingleCompletion (s : Shared) : Prop where
  once : s.log.countP isCompleted ≤ 1
  blocklist : s.blocklist.length ≤ 1
  written : s.blocklist.length = s.log.countP wroteBlocklist
  honoured : ∀ m wrote by_, Event.completed (some (.marker m)) wrote by_ ∈ s.log →
    m.operator = true → (wrote = true ↔ m.blocklist = true) ∧ RegisteredAs s.log m
  newest : ∀ m wrote by_, Event.completed (some (.marker m)) wrote by_ ∈ s.log →
    m.operator = true → ∀ n, Event.stamped n ∈ s.log → n ≤ m.nonce

/-- The marker in the row, and the one a completion was made over, is the
    newest stamped. -/
structure NewestOk (s : Shared) : Prop where
  marked : ∀ m, s.row.failedReason = some (.marker m) → ∀ n, Event.stamped n ∈ s.log →
    n ≤ m.nonce
  unmarked : s.row.status = .failedPending → parseOperatorFailMarker s.row.failedReason = none →
    ∀ n, Event.stamped n ∉ s.log
  honoured : ∀ m wrote by_, Event.completed (some (.marker m)) wrote by_ ∈ s.log →
    ∀ n, Event.stamped n ∈ s.log → n ≤ m.nonce

variable {s s' : Shared}

theorem newestOk_of_same (h : NewestOk s)
    (hlog : ∀ n, Event.stamped n ∈ s'.log → Event.stamped n ∈ s.log)
    (hdone : ∀ r wrote by_, Event.completed r wrote by_ ∈ s'.log →
      Event.completed r wrote by_ ∈ s.log) (hwhy : s'.row.failedReason = s.row.failedReason)
    (hst : s'.row.status = .failedPending → s.row.status = .failedPending) :
    NewestOk s' where
  marked := fun m hm n hn => h.marked m (by rw [← hwhy]; exact hm) n (hlog n hn)
  unmarked := fun hs hr n hn => h.unmarked (hst hs) (by rw [← hwhy]; exact hr) n (hlog n hn)
  honoured := fun m wrote by_ hmem n hn => h.honoured m wrote by_ (hdone _ _ _ hmem) n (hlog n hn)

section

variable (hs : SharedOk s)
include hs

theorem no_stamp_of_untouched (h : ¬ Doomed s.row) (n : Nat) : Event.stamped n ∉ s.log := by
  intro hn
  rcases (hs.untouched h).2 _ hn with ⟨token, flags, heq⟩
  simp at heq

theorem no_completion_of_not_failed (h : s.row.status ≠ .failed) (r : Option FailedReason)
    (wrote : Bool) (by_ : Completer) : Event.completed r wrote by_ ∉ s.log := by
  intro hmem
  have hzero := hs.notYet h
  rw [List.countP_eq_zero] at hzero
  exact hzero _ hmem rfl

theorem newestOk_stamp (args : MarkFailedArgs) (token : Nat)
    (hnot : s.row.status ≠ .failed) (hold : ∀ n, Event.stamped n ∈ s.log → n ≤ token) :
    NewestOk (stampedWith args token s) where
  marked := by
    intro m hm n hn
    simp only [stampedWith, Option.some.injEq, FailedReason.marker.injEq] at hm
    rw [← hm]
    rcases List.mem_cons.mp hn with heq | hn
    · simp only [Event.stamped.injEq] at heq
      exact Nat.le_of_eq heq
    · exact hold n hn
  unmarked := fun _ hr => absurd hr nofun
  honoured := by
    intro m wrote by_ hmem
    refine absurd ?_ (no_completion_of_not_failed hs hnot (some (.marker m)) wrote by_)
    simpa [stampedWith] using hmem

-- A done record keeps the nonce of the marker it replaces.
theorem newestOk_record (h : NewestOk s) (m : FailMarker) (hst : s.row.status = .failedPending)
    (hnonce : ∀ m', s.row.failedReason = some (.marker m') → m.nonce = m'.nonce) :
    NewestOk (recordedWith m s) where
  marked := by
    intro m' hm' n hn
    have heq : m = m' := by simpa [recordedWith] using hm'
    rw [← heq]
    cases hprs : parseOperatorFailMarker s.row.failedReason with
    | none => exact absurd hn (h.unmarked hst hprs n)
    | some m₀ =>
      have hwhy := (parse_eq_some_iff _ m₀).mp hprs
      rw [hnonce m₀ hwhy]
      exact h.marked m₀ hwhy n hn
  unmarked := fun _ hr => absurd hr nofun
  honoured := fun m' wrote by_ hmem =>
    absurd hmem (no_completion_of_not_failed hs (by rw [hst]; decide) _ wrote by_)

theorem newestOk_complete (h : NewestOk s) (final : String)
    (blocklist : Option BlocklistReason) (by_ : Completer)
    (hst : s.row.status = .failedPending) : NewestOk (completed final blocklist by_ s) where
  marked := fun m hm => absurd hm nofun
  unmarked := fun hpend => absurd hpend nofun
  honoured := by
    intro m wrote by' hmem n hn
    have hn' : Event.stamped n ∈ s.log := by simpa [completed] using hn
    rcases List.mem_cons.mp hmem with heq | hold
    · simp only [Event.completed.injEq] at heq
      exact h.marked m heq.1.symm n hn'
    · exact absurd hold (no_completion_of_not_failed hs (by rw [hst]; decide) _ wrote by')

theorem newest_call {args : MarkFailedArgs} {c : Choice} {pc pc' : CallPc} (hok : CallOk args s pc)
    (hnew : NewestOk s) (hcond : restampsOlder c s (.call args pc) = true)
    (h : CallMove args c s pc s' pc') : NewestOk s' := by
  cases h with
  | quit | load | miss | readopt | restampMiss | reread | skipDelete | deleted | unrecorded
  | retry | abandon => exact hnew
  | register hgrd hcl hpc =>
    exact newestOk_of_same hnew (fun n hn => by simpa [registeredWith] using hn)
      (fun r wrote by_ hmem => by simpa [registeredWith] using hmem) rfl id
  | @stamp token status hst =>
    have hlive : ¬ Doomed s.row := by
      intro hdoom
      refine ne_failed_of_legal hok.here ?_
      rw [← hst]
      exact hdoom
    exact newestOk_stamp hs args token (fun hf => hlive (.inr hf))
      (fun n hn => absurd hn (no_stamp_of_untouched hs hlive n))
  | @restamp token observed hc hst hwhy =>
    refine newestOk_stamp hs args token (by rw [hst]; decide) ?_
    intro n hn
    cases hprs : parseOperatorFailMarker s.row.failedReason with
    | none => exact absurd hn (hnew.unmarked hst hprs n)
    | some m =>
      have hle := hnew.marked m ((parse_eq_some_iff _ m).mp hprs) n hn
      have hnotnewer : ¬ token < m.nonce := by
        intro hlt
        rw [hwhy] at hprs
        simp [restampsOlder, hc, hst, hwhy, hprs, hlt] at hcond
      omega
  | startDelete hrem howns =>
    exact newestOk_of_same hnew (fun n hn => by simpa using hn)
      (fun r wrote by_ hmem => by simpa using hmem) rfl id
  | @record token hst hwhy =>
    refine newestOk_record hs hnew _ hst ?_
    intro m' hm'
    rw [hwhy, Option.some.injEq, FailedReason.marker.injEq] at hm'
    rw [← hm']
    rfl
  | complete hc hst hwhy => exact newestOk_complete hs hnew _ _ _ hst
  | @release token =>
    unfold releaseOperatorClaim
    split
    · exact newestOk_of_same hnew (fun _ hn => hn) (fun _ _ _ hmem => hmem) rfl id
    · exact hnew

theorem newest_cycle {pc pc' : CyclePc} (hok : CycleOk s pc) (hnew : NewestOk s)
    (h : CycleMove s pc s' pc') : NewestOk s' := by
  cases h with
  | quit | list | healList | residual | heal | plan | detail | pass | light | reprove | deleted
  | unrecorded | check | retry | leave => exact hnew
  | @transition snap move pc' hst hpc =>
    have hlive : ¬ Doomed s.row := not_doomed_of_active (by rw [hst]; exact hok.2.1)
    have hnone := no_stamp_of_untouched hs hlive
    exact ⟨fun m _ n hn => absurd hn (hnone n), fun _ _ n => hnone n,
      fun m wrote by_ _ n hn => absurd hn (hnone n)⟩
  | envStamp hst hwhy =>
    have hprs : parseOperatorFailMarker s.row.failedReason = none := by
      rw [hwhy]
      exact hok
    have hnone := hnew.unmarked hst hprs
    exact ⟨fun m _ n hn => absurd hn (hnone n), fun _ _ n => hnone n,
      fun m wrote by_ _ n hn => absurd hn (hnone n)⟩
  | guard | drop => exact newestOk_of_same hnew (fun _ hn => hn) (fun _ _ _ hmem => hmem) rfl id
  | startDelete =>
    exact newestOk_of_same hnew (fun n hn => by simpa using hn)
      (fun r wrote by_ hmem => by simpa using hmem) rfl id
  | @record completion m hm hst hwhy =>
    refine newestOk_record hs hnew m hst ?_
    intro m' hm'
    rw [hwhy] at hm'
    exact removalDoneMarker_nonce hm hm'
  | complete hst hwhy => exact newestOk_complete hs hnew _ _ _ hst
  | @finish guarded =>
    cases guarded with
    | true => exact newestOk_of_same hnew (fun _ hn => hn) (fun _ _ _ hmem => hmem) rfl id
    | false => exact hnew

end

def newest : Outline Shared Actor := ownership.strengthen NewestOk (fun _ _ => True)

theorem newest_sound : newest.Sound actorStep (fun s a c => restampsOlder c s a = true) := by
  refine ownership_sound.strengthen (fun _ _ _ _ => trivial) ?_ (fun _ _ _ _ _ _ _ _ _ _ _ _ _ =>
    trivial)
  intro s a c hs ha _ hcond hnew _
  cases a with
  | call args pc => exact ⟨newest_call hs ha hnew hcond (callMove args c s pc), trivial⟩
  | cycle pc => exact ⟨newest_cycle hs ha hnew (cycleMove c s pc), trivial⟩

theorem newest_init {w : World} (h : Init w) : newest.Holds w := by
  have hbase := ownership_init h
  have hlog : w.shared.log = [] := by
    rcases h with ⟨⟨row, hsh, -⟩, -⟩
    rw [hsh]
  refine ⟨⟨hbase.shared, ?_⟩, fun a ha => ⟨hbase.locals a ha, trivial⟩, hbase.apart,
    hbase.account⟩
  refine ⟨?_, ?_, ?_⟩
  · intro m _ n hn
    rw [hlog] at hn
    simp at hn
  · intro _ _ n hn
    rw [hlog] at hn
    simp at hn
  · intro m wrote by_ hmem
    rw [hlog] at hmem
    simp at hmem

-- Completions are counted once, and so are the blocklist rows they wrote.
theorem completions_le_one (hs : SharedOk s) : s.log.countP isCompleted ≤ 1 := by
  by_cases hfail : s.row.status = .failed
  · exact Nat.le_of_eq (hs.once hfail)
  · rw [hs.notYet hfail]
    exact Nat.zero_le 1

theorem blocklist_le_one (hs : SharedOk s) : s.blocklist.length ≤ 1 := by
  rw [hs.written]
  refine Nat.le_trans (List.countP_mono_left ?_) (completions_le_one hs)
  intro e _ hwrote
  cases e with
  | completed reason wrote by_ => rfl
  | registered | stamped | deleteStarted => simp [wroteBlocklist] at hwrote

-- In every run, without any condition: the row is completed at most once, and the completion
-- has the verdict of the marker it was made over.
theorem completed_once {w₀ w : World} {actions : List Action} (hinit : Init w₀)
    (hrun : run step w₀ actions = some w) :
    w.shared.log.countP isCompleted ≤ 1 ∧ w.shared.blocklist.length ≤ 1 ∧
      ∀ m wrote by_, Event.completed (some (.marker m)) wrote by_ ∈ w.shared.log →
        m.operator = true → (wrote = true ↔ m.blocklist = true) ∧ RegisteredAs w.shared.log m := by
  have hs : SharedOk w.shared := (ownership_of_run hinit hrun).shared
  refine ⟨completions_le_one hs, blocklist_le_one hs, ?_⟩
  intro m wrote by_ hmem hop
  have hverd := hs.honoured m wrote by_ hmem hop
  rw [hverd.1]
  exact ⟨.rfl, hverd.2⟩

/-- The single-completion guarantee: in every run in which no call restamps
    over the marker of a newer one, the row is completed at most once and under
    the newest marker. -/
theorem single_completion (w₀ w : World) (actions : List Action) (hinit : Init w₀)
    (hmeet : StepsMeet step (fun w action => everyAct restampsOlder w action = true) w₀ actions)
    (hrun : run step w₀ actions = some w) : SingleCompletion w.shared := by
  have hhold := holds_of_meeting_run newest_sound
    (fun s a ha => ⟨⟨(ownership_new s a ha).1, trivial⟩, (ownership_new s a ha).2⟩)
    (newest_init hinit) hmeet hrun
  have hs : SharedOk w.shared := hhold.shared.1
  have hnew : NewestOk w.shared := hhold.shared.2
  rcases completed_once hinit hrun with ⟨hone, hlist, hhonoured⟩
  exact ⟨hone, hlist, hs.written, hhonoured,
    fun m wrote by_ hmem _ => hnew.honoured m wrote by_ hmem⟩

/-- Two calls read the row while it is downloading. The second to register
    stamps first; the first loses its swap, finds the marker of the second, and
    adopts it. -/
def olderCallReadopts : List Action :=
  [.markFailed { blocklist := false, removeTorrent := false },
    .markFailed { blocklist := true, removeTorrent := false },
    .act 0 {}, .act 1 {}, .act 0 {}, .act 1 {}, .act 1 {},
    .act 0 {}, .act 0 {}, .act 0 {}, .act 0 {}, .act 0 {}]

/-- The older call completes the row without a blocklist row, over the marker of
    the newer one, which asked for it. -/
theorem older_call_clobbers :
    Init calm ∧ ∃ w, run step calm olderCallReadopts = some w ∧ ¬ SingleCompletion w.shared := by
  refine ⟨calm_init, _, rfl, ?_⟩
  intro h
  have hle := h.newest (operatorFailMarker ⟨false, false⟩ 1) false
    (.call 1 { blocklist := false, removeTorrent := false }) (by decide) rfl 2 (by decide)
  exact absurd hle (by decide)

/-- The same two calls, but the first one adopts the row before the second
    stamps: the second restamps over it and completes. -/
def newerCallWins : List Action :=
  [.markFailed { blocklist := false, removeTorrent := false },
    .markFailed { blocklist := true, removeTorrent := false },
    .act 0 {}, .act 1 {}, .act 0 {}, .act 1 {}, .act 0 {},
    .act 1 {}, .act 1 {}, .act 1 {}, .act 1 {}, .act 0 {}, .act 0 {}, .act 1 {}]

theorem single_completion_of_newerCall :
    ∃ w, run step calm newerCallWins = some w ∧ SingleCompletion w.shared ∧
      w.shared.blocklist = [.userReported] := by
  refine ⟨_, rfl, ?_, rfl⟩
  exact single_completion calm _ newerCallWins calm_init (by decide) rfl

end QueueProtocol

end PlexManager
