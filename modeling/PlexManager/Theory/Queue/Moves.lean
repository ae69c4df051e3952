import PlexManager.Core.QueueProtocol

/-!
# What one step of an actor can do

The step functions of the queue protocol answer every outcome of every awaited
statement, so most of their branches only say that something went wrong and the
actor moves on. `CallMove` and `CycleMove` list what is left when these branches
are put together: one constructor for each way the shared state can change, with
the conditions the code checked before, and a few for the moves that change
nothing but the actor. The invariants of the protocol are case analyses over the
two lists and never open the step functions again.

## Main definitions

* `CallPc.token`: The token a call holds.
* `CyclePc.guarded`: Whether a cycle holds the removal guard.
* `CyclePc.completion`: The completion a cycle carries.
* `CallMove`, `CycleMove`: The moves.
-/

namespace PlexManager

namespace QueueProtocol

open DownloadState

variable {expected : DownloadState} {require : Option (Option FailedReason)} {s s' : Shared}

theorem updateStatusIfIn_eq_some {target : DownloadState} {reason : Option FailedReason}
    {row row' : DownloadRow} (h : updateStatusIfIn target expected reason require row = some row') :
    row.status = expected ∧ (∀ r, require = some r → row.failedReason = r) ∧
      row' = { row with status := target, failedReason := reason.or row.failedReason } := by
  unfold updateStatusIfIn at h
  by_cases hcas : row.status = expected ∧ (require.all (· == row.failedReason)) = true
  · rw [if_pos hcas] at h
    simp only [Option.some.injEq] at h
    refine ⟨hcas.1, ?_, h.symm⟩
    rintro r rfl
    have hwhy := hcas.2
    simp only [Option.all_some, beq_iff_eq] at hwhy
    exact hwhy.symm
  · rw [if_neg hcas] at h
    simp at h

def completed (final : String) (blocklist : Option BlocklistReason) (by_ : Completer)
    (s : Shared) : Shared :=
  { s with
    row := { s.row with status := .failed, failedReason := some (.text final) }
    blocklist := s.blocklist ++ blocklist.toList
    log := .completed s.row.failedReason blocklist.isSome by_ :: s.log }

theorem completeRow_eq_some {observed : Option FailedReason} {final : String}
    {blocklist : Option BlocklistReason} {by_ : Completer}
    (h : completeRow observed final blocklist by_ s = some s') :
    s.row.status = .failedPending ∧ s.row.failedReason = observed ∧
      s' = completed final blocklist by_ s := by
  rcases Option.map_eq_some_iff.mp h with ⟨row', hcas, hs'⟩
  rcases updateStatusIfIn_eq_some hcas with ⟨hst, hwhy, hrow'⟩
  refine ⟨hst, hwhy observed rfl, ?_⟩
  rw [← hs', hrow']
  rfl

def stampedWith (args : MarkFailedArgs) (token : Nat) (s : Shared) : Shared :=
  { s with
    row := { s.row with
      status := .failedPending
      failedReason := some (.marker (operatorFailMarker args.flags token)) }
    log := .stamped token :: s.log }

theorem stampMarker_eq_some {args : MarkFailedArgs} {token : Nat}
    (h : stampMarker args token expected require s = some s') :
    s.row.status = expected ∧ (∀ r, require = some r → s.row.failedReason = r) ∧
      s' = stampedWith args token s := by
  rcases Option.map_eq_some_iff.mp h with ⟨row', hcas, hs'⟩
  rcases updateStatusIfIn_eq_some hcas with ⟨hst, hwhy, hrow'⟩
  refine ⟨hst, hwhy, ?_⟩
  rw [← hs', hrow']
  rfl

def registeredWith (flags : OperatorFailFlags) (s : Shared) : Shared :=
  { s with
    claim := some { token := s.nextToken, flags := flags }
    nextToken := s.nextToken + 1
    log := .registered s.nextToken flags :: s.log }

theorem registerOperatorClaim_eq_some {flags : OperatorFailFlags} {allowSupersede : Bool}
    {token : Nat} (h : registerOperatorClaim flags allowSupersede s = some (token, s')) :
    s.removalsInFlight = 0 ∧ (∀ c, s.claim = some c → c.removalInFlight = false) ∧
      token = s.nextToken ∧ s' = registeredWith flags s := by
  unfold registerOperatorClaim at h
  split at h
  · simp at h
  rename_i hgrd
  split at h
  · simp at h
  rename_i hcl
  split at h
  · simp at h
  simp only [Option.some.injEq, Prod.mk.injEq] at h
  refine ⟨by omega, ?_, h.1.symm, h.2.symm⟩
  intro c hc
  rw [hc] at hcl
  simpa using hcl

theorem ownsOperatorClaim_iff (token : Nat) (s : Shared) :
    ownsOperatorClaim token s = true ↔ ∃ c, s.claim = some c ∧ c.token = token := by
  unfold ownsOperatorClaim
  cases s.claim with
  | none | some c => simp

theorem isOperatorClaimed_eq_false (s : Shared) : isOperatorClaimed s = false ↔ s.claim = none := by
  unfold isOperatorClaimed
  cases s.claim with
  | none | some c => simp

def recordedWith (m : FailMarker) (s : Shared) : Shared :=
  { s with row := { s.row with status := .failedPending, failedReason := some (.marker m) } }

def CallPc.token : CallPc → Option Nat
  | .start | .loaded _ _ | .done => none
  | .stamping t _ | .stampMissed t | .restamping t _ | .restampMissed t | .rereading t
  | .stamped t | .removing t | .recording t | .completing t _ _ _ | .releasing t => some t

inductive CallMove (args : MarkFailedArgs) (c : Choice) (s : Shared) :
    CallPc → Shared → CallPc → Prop where
  | quit {pc} (h : pc.token = none) : CallMove args c s pc s .done
  | load (h : s.row.status.terminalState = false) :
      CallMove args c s .start s (.loaded s.row.status s.row.failedReason)
  | register {status reason pc'} (hguard : s.removalsInFlight = 0)
      (hclaim : ∀ claim, s.claim = some claim → claim.removalInFlight = false)
      (hpc : pc' = .restamping s.nextToken reason ∨ pc' = .releasing s.nextToken ∨
        (pc' = .stamping s.nextToken status ∧ isLegalTransition status .failedPending = true)) :
      CallMove args c s (.loaded status reason) (registeredWith args.flags s) pc'
  | stamp {token status} (h : s.row.status = status) :
      CallMove args c s (.stamping token status) (stampedWith args token s) (.stamped token)
  | miss {token status} : CallMove args c s (.stamping token status) s (.stampMissed token)
  | readopt {pc token} (hpc : pc = .stampMissed token ∨ pc = .rereading token)
      (h : s.row.status = .failedPending) :
      CallMove args c s pc s (.restamping token s.row.failedReason)
  | restamp {token observed} (hc : c.outcome = .ok) (hstatus : s.row.status = .failedPending)
      (hreason : s.row.failedReason = observed) :
      CallMove args c s (.restamping token observed) (stampedWith args token s) (.stamped token)
  | restampMiss {token observed} :
      CallMove args c s (.restamping token observed) s (.restampMissed token)
  | reread {token} (h : ownsOperatorClaim token s = true) :
      CallMove args c s (.restampMissed token) s (.rereading token)
  | startDelete {token} (hremove : args.removeTorrent = true)
      (howns : ownsOperatorClaim token s = true) :
      CallMove args c s (.stamped token)
        { markRemovalInFlight token s with log := .deleteStarted :: s.log } (.removing token)
  | skipDelete {token}
      (h : args.removeTorrent = true → ownsOperatorClaim token s = false) :
      CallMove args c s (.stamped token) s
        (.completing token (operatorFailMarker args.flags token) phaseCMaxAttempts false)
  | deleted {token} : CallMove args c s (.removing token) s (.recording token)
  | unrecorded {pc token} (hpc : pc = .removing token ∨ pc = .recording token) :
      CallMove args c s pc s
        (.completing token (operatorFailMarker args.flags token) phaseCMaxAttempts true)
  | record {token} (hstatus : s.row.status = .failedPending)
      (hreason : s.row.failedReason = some (.marker (operatorFailMarker args.flags token))) :
      CallMove args c s (.recording token)
        (recordedWith (operatorFailMarkerRemovalDone args.blocklist token) s)
        (.completing token (operatorFailMarkerRemovalDone args.blocklist token)
          phaseCMaxAttempts true)
  | retry {token marker attempts attempted} :
      CallMove args c s (.completing token marker attempts attempted) s
        (.completing token marker (attempts - 1) attempted)
  | complete {token marker attempts attempted} (hc : c.outcome = .ok)
      (hstatus : s.row.status = .failedPending)
      (hreason : s.row.failedReason = some (.marker marker)) :
      CallMove args c s (.completing token marker attempts attempted)
        (completed (finalReason s.row.payloadRejection operatorFailFinalReason)
          (if args.blocklist then some .userReported else none) (.call token args) s)
        (.releasing token)
  | abandon {pc token} (h : pc.token = some token) : CallMove args c s pc s (.releasing token)
  | release {token} :
      CallMove args c s (.releasing token) (releaseOperatorClaim token s) .done

theorem callMove (args : MarkFailedArgs) (c : Choice) (s : Shared) (pc : CallPc) :
    CallMove args c s pc (callStep args c s pc).1 (callStep args c s pc).2 := by
  cases pc with
  | start =>
    simp only [callStep]
    split
    · exact .quit rfl
    · rename_i h
      refine .load ?_
      simp only [Bool.or_eq_true, not_or] at h
      exact Bool.eq_false_iff.mpr h.2
  | loaded status reason =>
    simp only [callStep]
    split
    · exact .quit rfl
    split
    · exact .quit rfl
    rename_i token s' hreg
    rcases registerOperatorClaim_eq_some hreg with ⟨hgrd, hcl, rfl, rfl⟩
    split
    · split
      · exact .register hgrd hcl (.inl rfl)
      · exact .register hgrd hcl (.inr (.inl rfl))
    · split
      · rename_i hlegal
        exact .register hgrd hcl (.inr (.inr ⟨rfl, hlegal⟩))
      · exact .register hgrd hcl (.inr (.inl rfl))
  | stamping token status =>
    simp only [callStep]
    split
    · exact .abandon rfl
    split
    · rename_i s' hstm
      rcases stampMarker_eq_some hstm with ⟨hst, -, rfl⟩
      exact .stamp hst
    · exact .miss
  | stampMissed token =>
    simp only [callStep]
    split
    · exact .abandon rfl
    rename_i h
    simp only [Bool.or_eq_true, not_or, decide_eq_true_eq, Decidable.not_not] at h
    split
    · exact .readopt (.inl rfl) h.2
    · exact .abandon rfl
  | restamping token observed =>
    simp only [callStep]
    split
    · exact .abandon rfl
    rename_i hc
    split
    · rename_i s' hstm
      rcases stampMarker_eq_some hstm with ⟨hst, hwhy, rfl⟩
      -- A restamp compares with the marker that the call has read again.
      exact .restamp (Decidable.not_not.mp hc) hst (hwhy observed rfl)
    · exact .restampMiss
  | restampMissed token =>
    simp only [callStep]
    split
    · rename_i howns
      exact .reread howns
    · exact .abandon rfl
  | rereading token =>
    simp only [callStep]
    split
    · exact .abandon rfl
    · rename_i h
      simp only [Bool.or_eq_true, not_or, decide_eq_true_eq, Decidable.not_not] at h
      exact .readopt (.inr rfl) h.2
  | stamped token =>
    simp only [callStep]
    split
    · rename_i h
      simp only [Bool.and_eq_true] at h
      exact .startDelete h.1 h.2
    · rename_i h
      refine .skipDelete fun hrem => ?_
      simp only [hrem, Bool.true_and] at h
      exact Bool.eq_false_iff.mpr h
  | removing token =>
    simp only [callStep]
    cases c.outcome with
    | ok => exact .deleted
    | failed => exact .unrecorded (.inl rfl)
    | raised => exact .abandon rfl
  | recording token =>
    simp only [callStep]
    cases c.outcome with
    | ok =>
      simp only []
      split
      · rename_i row hcas
        rcases updateStatusIfIn_eq_some hcas with ⟨hst, hwhy, rfl⟩
        exact .record hst (hwhy _ rfl)
      · exact .unrecorded (.inr rfl)
    | failed => exact .unrecorded (.inr rfl)
    | raised => exact .abandon rfl
  | completing token marker attempts attempted =>
    simp only [callStep]
    cases hc : c.outcome with
    | ok =>
      simp only []
      split
      · rename_i s' hcmp
        rcases completeRow_eq_some hcmp with ⟨hst, hwhy, rfl⟩
        exact .complete hc hst hwhy
      · exact .abandon rfl
    | failed =>
      simp only []
      split
      · exact .abandon rfl
      · exact .retry
    | raised => exact .abandon rfl
  | releasing token => exact .release
  | done => exact .quit rfl

def CyclePc.guarded : CyclePc → Bool
  | .reproving _ | .reproved _ _ | .deleting _ | .recording _ => true
  | .completing _ _ g | .swapping _ _ g | .finishing g => g
  | _ => false

def CyclePc.completion : CyclePc → Option FailureCompletion
  | .envCheck c | .envStamping c | .filtering c | .phaseB c | .reproving c | .reproved c _
  | .deleting c | .recording c | .completing c _ _ | .swapping c _ _ => some c
  | _ => none

inductive CycleMove (s : Shared) : CyclePc → Shared → CyclePc → Prop where
  | quit {pc} (h : pc.guarded = false) : CycleMove s pc s .done
  | list {pc} (hpc : pc = .start) (h : s.row.status.terminalState = false) :
      CycleMove s pc s (.listed s.row)
  | healList {pc} (hpc : pc = .healStart) (h : s.row.status.terminalState = false) :
      CycleMove s pc s (.healListed s.row)
  | residual {snap} (h : snap.status = .failedPending) :
      CycleMove s (.listed snap) s (.filtering (residualCompletion snap))
  | heal {snap m} (h : snap.status = .failedPending)
      (hmarker : parseOperatorFailMarker snap.failedReason = some m)
      (hremove : m.removeTorrent = false) :
      CycleMove s (.healListed snap) s
        (.completing (residualCompletion snap) phaseCMaxAttempts false)
  | plan {snap move} (hactive : snap.status.activeState = true)
      (htarget : move.target.activeState = true ∨ move.target = .failedPending) :
      CycleMove s (.listed snap) s (.transitioning snap move)
  | transition {snap move pc'} (h : s.row.status = snap.status)
      (hpc : (move.target = .failedPending ∧ pc' = .detailing snap move.reason) ∨
        (move.target ≠ .failedPending ∧ pc' = .done)) :
      CycleMove s (.transitioning snap move)
        { s with row := { s.row with status := move.target } } pc'
  | detail {snap base} (d absent) :
      CycleMove s (.detailing snap base) s (.envCheck (detectedCompletion snap base d absent))
  /-- On to the next check with the same completion. -/
  | pass {pc pc' completion} (hfrom : pc = .envCheck completion ∨ pc = .envStamping completion ∨
        pc = .filtering completion)
      (hto : (pc' = .envStamping completion ∧ pc = .envCheck completion) ∨
        pc' = .filtering completion ∨ pc' = .phaseB completion) :
      CycleMove s pc s pc'
  | envStamp {completion} (hstatus : s.row.status = .failedPending)
      (hreason : s.row.failedReason = completion.observed) :
      CycleMove s (.envStamping completion)
        { s with row := { s.row with failedReason := some (.text completion.reason) } }
        (.filtering { completion with observed := some (.text completion.reason) })
  | light {completion} (h : completion.removeTorrent = false) :
      CycleMove s (.phaseB completion) s (.completing completion phaseCMaxAttempts false)
  | guard {completion} (hclaim : s.claim = none) (h : completion.removeTorrent = true) :
      CycleMove s (.phaseB completion) (registerRemovalInFlight s) (.reproving completion)
  | reprove {completion} (unchanged : Bool)
      (h : unchanged = true → s.row.status = .failedPending ∧
        s.row.failedReason = completion.observed) :
      CycleMove s (.reproving completion) s (.reproved completion unchanged)
  | startDelete {completion} :
      CycleMove s (.reproved completion true) { s with log := .deleteStarted :: s.log }
        (.deleting completion)
  | drop {completion} :
      CycleMove s (.reproved completion false) (releaseRemovalInFlight s) .done
  | deleted {completion} : CycleMove s (.deleting completion) s (.recording completion)
  | unrecorded {pc completion} (hpc : pc = .deleting completion ∨ pc = .recording completion) :
      CycleMove s pc s (.completing completion phaseCMaxAttempts true)
  | record {completion m} (hm : removalDoneMarker completion = some m)
      (hstatus : s.row.status = .failedPending)
      (hreason : s.row.failedReason = completion.observed) :
      CycleMove s (.recording completion) (recordedWith m s)
        (.completing { completion with observed := some (.marker m) } phaseCMaxAttempts true)
  | check {completion attempts guarded} (h : s.claim = none) :
      CycleMove s (.completing completion attempts guarded) s
        (.swapping completion attempts guarded)
  | retry {completion attempts guarded} :
      CycleMove s (.swapping completion attempts guarded) s
        (.completing completion (attempts - 1) guarded)
  | complete {completion attempts guarded} (hstatus : s.row.status = .failedPending)
      (hreason : s.row.failedReason = completion.observed) :
      CycleMove s (.swapping completion attempts guarded)
        (completed (finalReason completion.payloadRejection completion.reason)
          (if completion.blocklist then some completion.blocklistReason else none) .cycle s)
        (.finishing guarded)
  | leave {pc completion} (h : pc.completion = some completion) :
      CycleMove s pc s (.finishing pc.guarded)
  | finish {guarded} :
      CycleMove s (.finishing guarded) (if guarded then releaseRemovalInFlight s else s) .done

theorem cycleMove (c : Choice) (s : Shared) (pc : CyclePc) :
    CycleMove s pc (cycleStep c s pc).1 (cycleStep c s pc).2 := by
  cases pc with
  | start =>
    simp only [cycleStep]
    split
    · exact .quit rfl
    · rename_i h
      simp only [Bool.or_eq_true, not_or] at h
      exact .list rfl (Bool.eq_false_iff.mpr h.2)
  | healStart =>
    simp only [cycleStep]
    split
    · exact .quit rfl
    · rename_i h
      simp only [Bool.or_eq_true, not_or] at h
      exact .healList rfl (Bool.eq_false_iff.mpr h.2)
  | listed snap =>
    simp only [cycleStep]
    split
    · exact .quit rfl
    split
    · rename_i h
      exact .residual h
    split
    · exact .quit rfl
    rename_i hact
    simp only [Bool.or_eq_true, not_or, Bool.not_eq_true', Bool.not_eq_false] at hact
    cases c.move with
    | none => exact .quit rfl
    | some move =>
      simp only []
      split
      · rename_i htgt
        simp only [Bool.or_eq_true, decide_eq_true_eq] at htgt
        exact .plan hact.2 htgt
      · exact .quit rfl
  | healListed snap =>
    simp only [cycleStep]
    split
    · rename_i m hmark
      split
      · rename_i h
        simp only [Bool.and_eq_true, decide_eq_true_eq, Bool.not_eq_true'] at h
        exact .heal h.1.1 hmark h.1.2
      · exact .quit rfl
    · exact .quit rfl
  | transitioning snap move =>
    simp only [cycleStep]
    split
    · exact .quit rfl
    split
    · rename_i row hcas
      rcases updateStatusIfIn_eq_some hcas with ⟨hst, -, rfl⟩
      split
      · rename_i htgt
        exact .transition hst (.inl ⟨htgt, rfl⟩)
      · rename_i htgt
        exact .transition hst (.inr ⟨htgt, rfl⟩)
    · exact .quit rfl
  | detailing snap base =>
    simp only [cycleStep]
    split
    · exact .quit rfl
    · exact .detail c.detail c.absent
  | envCheck completion =>
    simp only [cycleStep]
    split
    · exact .pass (.inl rfl) (.inr (.inl rfl))
    · exact .pass (.inl rfl) (.inl ⟨rfl, rfl⟩)
  | envStamping completion =>
    simp only [cycleStep]
    split
    · exact .pass (.inr (.inl rfl)) (.inr (.inl rfl))
    -- The stamp is best effort: where it misses or fails, the cycle goes on.
    cases c.outcome with
    | ok =>
      simp only []
      split
      · rename_i row hcas
        rcases updateStatusIfIn_eq_some hcas with ⟨hst, hwhy, rfl⟩
        have hmove : CycleMove s (.envStamping completion) _ _ :=
          .envStamp hst (hwhy _ rfl)
        rw [← hst]
        exact hmove
      · exact .pass (.inr (.inl rfl)) (.inr (.inl rfl))
    | failed => exact .pass (.inr (.inl rfl)) (.inr (.inl rfl))
    | raised => exact .quit rfl
  | filtering completion =>
    simp only [cycleStep]
    split
    · exact .quit rfl
    · exact .pass (.inr (.inr rfl)) (.inr (.inr rfl))
  | phaseB completion =>
    simp only [cycleStep]
    split
    · exact .quit rfl
    rename_i hcl
    split
    · rename_i hrem
      exact .light (by simpa using hrem)
    · rename_i hrem
      exact .guard ((isOperatorClaimed_eq_false s).mp (Bool.eq_false_iff.mpr hcl))
        (by simpa using hrem)
  | reproving completion =>
    simp only [cycleStep]
    split
    · exact .leave rfl
    · exact .reprove _ (by simp)
  | reproved completion unchanged =>
    cases unchanged with
    | true => exact .startDelete
    | false => exact .drop
  | deleting completion =>
    simp only [cycleStep]
    cases c.outcome with
    | ok => exact .deleted
    | failed => exact .unrecorded (.inl rfl)
    | raised => exact .leave rfl
  | recording completion =>
    simp only [cycleStep]
    split
    · exact .unrecorded (.inr rfl)
    rename_i m hm
    -- Without its record the removal is done all the same.
    cases c.outcome with
    | ok =>
      simp only []
      split
      · rename_i row hcas
        rcases updateStatusIfIn_eq_some hcas with ⟨hst, hwhy, rfl⟩
        exact .record hm hst (hwhy _ rfl)
      · exact .unrecorded (.inr rfl)
    | failed => exact .unrecorded (.inr rfl)
    | raised => exact .leave rfl
  | completing completion attempts guarded =>
    simp only [cycleStep]
    split
    · exact .leave rfl
    · rename_i hcl
      exact .check ((isOperatorClaimed_eq_false s).mp (Bool.eq_false_iff.mpr hcl))
  | swapping completion attempts guarded =>
    simp only [cycleStep]
    cases c.outcome with
    | ok =>
      simp only []
      split
      · rename_i s' hcmp
        rcases completeRow_eq_some hcmp with ⟨hst, hwhy, rfl⟩
        exact .complete hst hwhy
      · exact .leave rfl
    -- A commit that fails is tried again while there are attempts left.
    | failed =>
      simp only []
      split
      · exact .leave rfl
      · exact .retry
    | raised => exact .leave rfl
  | finishing guarded => exact .finish
  | done => exact .quit rfl

end QueueProtocol

end PlexManager
