import PlexManager.Lib.Transition
import PlexManager.Core.HeldPayload

/-!
# The missing grace over whole runs

A torrent that disappears from the client is given a grace window before its
row fails, and a torrent that comes back in between is meant to start the
window afresh. The window is one timestamp in the row, so this is a statement
about every path that sees the torrent present: each must clear the timestamp.

The pure reconciler does. A row that is missing and whose torrent is back is
always moved, and the move clears the anchor. But a cycle does not hand every
row to the reconciler. A row held for payload validation is validated instead,
and a validation that has to wait, because the client is still checking the
torrent, say, returns with the anchor in place; so does a cycle that skips the
row for an operator's claim or whose write is lost. `LeavesAnchor` names these
cycles, `grace_collapsed` is a run with one of them, and
`missing_grace_respected` is the guarantee for all runs without.

The history of a run lists its cycles, the newest first, each with its time and
whether the torrent was in its snapshot.

## Theorems

* `missing_grace_respected`: The guarantee over all such runs.
* `grace_collapsed`: A run in which a held row fails after one poll.
-/

namespace PlexManager

namespace Reconciler

open DownloadState Transition

/-- What can happen to the row between and in its cycles. Apart from a cycle,
    the payload columns can be rewritten at will, the failure path can take
    the row, an import can move it along, and a new grab can revive it. -/
inductive GraceAction where
  | cycle (input : CycleInput)
  | rewritePayload (pending resume forceStart : Bool) (rejection failedReason : Option String)
  | fail (target : FailOutcome)
  | importMove (target : DownloadState)
  | reuse (pending resume forceStart : Bool)

structure GraceWorld where
  row : DownloadRecord
  clock : Int
  /-- The cycles that polled the row, newest first: the time, and whether the
      torrent was in the snapshot. -/
  history : List (Int × Bool)

/-- `_reuse_terminal_row`: a new grab revives a terminal row without anchor. -/
def reuseTerminalRow (pending resume forceStart : Bool) (row : DownloadRecord) :
    DownloadRecord :=
  { row with
    status := .downloading
    firstSeenAt := none
    failedReason := none
    payloadPending := pending
    payloadResume := resume
    payloadForceStart := forceStart
    payloadRejection := none }

def graceStep (missingGrace : Int) (w : GraceWorld) : GraceAction → Option GraceWorld
  | .cycle input =>
      if input.now < w.clock then none
      else if w.row.status.terminalState then some { w with clock := input.now }
      else some
        { row := (reconcileCycle missingGrace input w.row).1
          clock := input.now
          history :=
            (input.now, (lookup input.client w.row.torrentHash).isSome) :: w.history }
  | .rewritePayload pending resume forceStart rejection failedReason =>
      some { w with
        row := { w.row with
          payloadPending := pending
          payloadResume := resume
          payloadForceStart := forceStart
          payloadRejection := rejection
          failedReason := failedReason } }
  | .fail target =>
      if w.row.status.terminalState then none
      else some { w with row := (target.apply w.row).1 }
  | .importMove target =>
      if importState w.row.status && (importState target || target = .imported) then
        some { w with row := { w.row with status := target } }
      else none
  | .reuse pending resume forceStart =>
      if w.row.status.terminalState then
        some { w with row := reuseTerminalRow pending resume forceStart w.row }
      else none

/-- The torrent was absent in every cycle back to one at the given time. -/
def absentSince (since : Int) : List (Int × Bool) → Bool
  | [] => false
  | (time, present) :: older => !present && (time = since || absentSince since older)

/-- A cycle that finds the torrent of a missing row present and leaves the
    row's anchor standing: the row is held and its validation waits, or it is
    claimed, or its move is lost. -/
def LeavesAnchor (w : GraceWorld) : GraceAction → Prop
  | .cycle input =>
      w.row.status = .clientMissing ∧ w.row.firstSeenAt.isSome = true ∧
        (lookup input.client w.row.torrentHash).isSome = true ∧
        if !input.claimedAtHold && heldForRejection w.row then
          (rejectPayload input.hold w.row (w.row.payloadRejection.getD "")).2 = .waiting
        else if !input.claimedAtHold && heldForPayload input.client w.row then
          (holdBody input.hold w.row).2.2 = .waiting
        else
          input.claimedAtTransition = true ∨ input.swapLands = false ∨ input.committed = false
  | _ => False

/-- Only a missing row, or one on the failure path, carries an anchor, and the
    anchor of a missing row dates an unbroken absence. -/
structure GraceInv (w : GraceWorld) : Prop where
  anchored : w.row.firstSeenAt ≠ none →
    w.row.status = .clientMissing ∨ w.row.status = .failedPending ∨ w.row.status = .failed
  absent : ∀ since, w.row.firstSeenAt = some since → w.row.status = .clientMissing →
    absentSince since w.history = true

/-- What a failure attempt, a rejection or a validation can leave of a row: it
    is where it was, it is failing, or it is validated without anchor. -/
structure HoldEffect (row row' : DownloadRecord) (holdEnd : HoldEnd) : Prop where
  anchor : row'.firstSeenAt = row.firstSeenAt ∨ row'.firstSeenAt = none
  failing : holdEnd = .failing → row'.status = .failedPending ∨ row'.status = .failed
  missing : row.status = .clientMissing → holdEnd = .completed → row'.firstSeenAt = none
  waiting : holdEnd ≠ .failing → row.status = .clientMissing →
    row'.status = .clientMissing ∨ row'.firstSeenAt = none

theorem holdEffect_of_same (row row' : DownloadRecord) (hst : row'.status = row.status)
    (hanch : row'.firstSeenAt = row.firstSeenAt) : HoldEffect row row' .waiting where
  anchor := .inl hanch
  failing h := absurd h (by decide)
  missing _ h := absurd h (by decide)
  waiting _ h := .inl (by rw [hst, h])

theorem holdEffect_apply (outcome : FailOutcome) (row row' : DownloadRecord)
    (hanch : row'.firstSeenAt = row.firstSeenAt)
    (hst : row.status = .clientMissing → row'.status = .clientMissing) :
    HoldEffect row (outcome.apply row').1 (outcome.apply row').2 := by
  cases outcome with
  | refused =>
    exact ⟨.inl hanch, fun h => absurd h nofun,
      fun _ h => absurd h nofun, fun _ h => .inl (hst h)⟩
  | pending =>
    exact ⟨.inl hanch, fun _ => .inl rfl, fun _ h => absurd h nofun,
      fun h _ => absurd rfl h⟩
  | failed =>
    exact ⟨.inl hanch, fun _ => .inr rfl, fun _ h => absurd h nofun,
      fun h _ => absurd rfl h⟩

variable (a : HoldAnswers) (row' : DownloadRecord) (missingGrace : Int) {holdEnd : HoldEnd}
  {w : GraceWorld}

variable (row : DownloadRecord)

theorem holdEffect_restart :
    HoldEffect row (restartLegacyMetadata a row).1 (restartLegacyMetadata a row).2.2 := by
  unfold restartLegacyMetadata
  split
  · exact holdEffect_of_same row row rfl rfl
  cases a.pause with
  | error e => exact holdEffect_of_same row _ rfl rfl
  | ok u =>
    simp only []
    split
    · exact holdEffect_of_same row _ rfl rfl
    · exact holdEffect_apply a.failing row _ rfl id

theorem holdEffect_reject (reason : String) :
    HoldEffect row (rejectPayload a row reason).1 (rejectPayload a row reason).2 := by
  unfold rejectPayload
  split
  · exact holdEffect_of_same row row rfl rfl
  split
  · split
    · refine holdEffect_apply a.failing row _ rfl fun h => ?_
      simp [h]
    · exact holdEffect_of_same row row rfl rfl
  · exact holdEffect_apply a.failing row row rfl id

theorem holdEffect_complete (row row' : DownloadRecord) (hst : row'.status = row.status)
    (hanch : row'.firstSeenAt = row.firstSeenAt) :
    HoldEffect row (completeHold row') .completed where
  anchor := by
    unfold completeHold
    by_cases h : downloadingLike row'.status = true
    · exact .inr (by simp [h])
    · exact .inl (by simp [h, hanch])
  failing h := absurd h (by decide)
  missing h _ := by simp [completeHold, hst, h, downloadingLike]
  waiting _ h := .inr (by simp [completeHold, hst, h, downloadingLike])

theorem HoldEffect.of_restamped {row row' row'' : DownloadRecord}
    (h : HoldEffect row' row'' holdEnd) (hst : row'.status = row.status)
    (hanch : row'.firstSeenAt = row.firstSeenAt) : HoldEffect row row'' holdEnd where
  anchor := by rw [← hanch]; exact h.anchor
  failing := h.failing
  missing hm := h.missing (by rw [hst, hm])
  waiting he hm := h.waiting he (by rw [hst, hm])

theorem holdEffect_settle :
    HoldEffect row (settleHeldPayload a row).1 (settleHeldPayload a row).2.2 := by
  have hwait : HoldEffect row row .waiting := holdEffect_of_same row row rfl rfl
  have hdone : HoldEffect row (completeHold row) .completed := holdEffect_complete row row rfl rfl
  unfold settleHeldPayload
  split
  · exact hwait
  · exact hwait
  · exact hwait
  · split
    · exact hwait
    split
    · exact hwait
    split
    · exact hwait
    split
    · exact holdEffect_reject a row _
    split
    · exact hwait
    split
    · exact hwait
    split
    · split
      · exact hwait
      · split
        · exact hdone
        · exact hwait
    · split
      · exact hdone
      · exact hwait

theorem holdEffect_body : HoldEffect row (holdBody a row).1 (holdBody a row).2.2 := by
  have hwait : HoldEffect row row .waiting := holdEffect_of_same row row rfl rfl
  unfold holdBody
  split
  · exact hwait
  simp only []
  split
  · exact holdEffect_restart a row
  split
  · exact hwait
  split
  · exact hwait
  split
  · exact hwait
  · split
    · exact holdEffect_restart a row
    · exact hwait
  · split
    · exact hwait
    · split
      · exact (holdEffect_settle a _).of_restamped rfl rfl
      · exact holdEffect_settle a row

-- The reason an unresolved hold shows is all its last write changes.
theorem validateHeldPayload_eq :
    (validateHeldPayload a row).status = (holdBody a row).1.status ∧
      (validateHeldPayload a row).firstSeenAt = (holdBody a row).1.firstSeenAt := by
  unfold validateHeldPayload
  simp only []
  split
  · exact ⟨rfl, rfl⟩
  · exact ⟨rfl, rfl⟩

theorem reconcileAbsent_target (now missingGrace : Int)
    (tr : StateTransition) (h : reconcileAbsent row now missingGrace = some tr) :
    tr.toState = .clientMissing ∨ tr.toState = .failedPending := by
  unfold reconcileAbsent at h
  split at h
  · cases h
    exact .inl rfl
  split at h
  · cases h
    exact .inr rfl
  · split at h
    · simp at h
    cases h
    exact .inl rfl

-- The move of a row is one of two: its torrent is present, and the anchor is cleared if the
-- row was missing, or it is absent.
theorem reconcileRow_cases (client : List DownloadStatus) (now missingGrace : Int)
    (row : DownloadRecord) (tr : StateTransition)
    (h : reconcileRow client now missingGrace row = some tr) :
    row.status.activeState = true ∧
      (((lookup client row.torrentHash).isSome = true ∧ tr.setFirstSeenAt = false ∧
          (row.status = .clientMissing → tr.clearFirstSeenAt = true)) ∨
        ((lookup client row.torrentHash).isSome = false ∧
          reconcileAbsent row now missingGrace = some tr)) := by
  unfold reconcileRow at h
  split at h
  · simp at h
  rename_i hact
  refine ⟨by simpa using hact, ?_⟩
  cases hlook : lookup client row.torrentHash with
  | some status =>
    rw [hlook] at h
    simp only [] at h
    split at h
    · simp at h
    cases h
    exact .inl ⟨rfl, rfl, fun hm => by simp [hm]⟩
  | none =>
    rw [hlook] at h
    exact .inr ⟨rfl, h⟩

-- The reconciling half of a cycle either applies the move of the row or leaves the row as it
-- was, and it never leaves a missing row whose torrent is back unless the move was lost.
theorem applyReconcile_cases (input : CycleInput) (listed row : DownloadRecord) :
    (∃ tr, reconcileRow input.client input.now missingGrace listed = some tr ∧
      applyReconcile missingGrace input listed row =
        (applyTransition input.now tr row, some tr)) ∨
    (applyReconcile missingGrace input listed row = (row, none) ∧
      (listed.status = .clientMissing →
        (lookup input.client listed.torrentHash).isSome = true →
        input.claimedAtTransition = true ∨ input.swapLands = false ∨ input.committed = false)) := by
  unfold applyReconcile
  cases hmove : reconcileRow input.client input.now missingGrace listed with
  | none =>
    refine .inr ⟨rfl, fun hmiss hpres => ?_⟩
    rcases Option.isSome_iff_exists.mp hpres with ⟨status, hlook⟩
    rcases reconcileRow_of_missing_present input.client input.now missingGrace listed status
      hmiss hlook with ⟨tr, htr, -⟩
    rw [hmove] at htr
    simp at htr
  | some tr =>
    simp only []
    split
    · rename_i hlost
      simp only [Bool.or_eq_true, Bool.not_eq_true'] at hlost
      refine .inr ⟨rfl, fun _ _ => ?_⟩
      rcases hlost with (hlost | hlost) | hlost
      · exact .inl hlost
      · exact .inr (.inl hlost)
      · exact .inr (.inr hlost)
    · exact .inl ⟨tr, rfl, rfl⟩

theorem GraceInv.missing_of_active (h : GraceInv w) (hact : w.row.status.activeState = true)
    (hanch : w.row.firstSeenAt ≠ none) : w.row.status = .clientMissing := by
  rcases h.anchored hanch with hs | hs | hs
  · exact hs
  · rw [hs] at hact
    exact absurd hact (by decide)
  · rw [hs] at hact
    exact absurd hact (by decide)

theorem graceInv_of_hold {row' : DownloadRecord}
    (h : GraceInv w) (heff : HoldEffect w.row row' holdEnd) (clock : Int) (entry : Int × Bool)
    (hcond : w.row.status = .clientMissing → w.row.firstSeenAt.isSome = true →
      entry.2 = true → holdEnd ≠ .waiting) :
    w.row.status ≠ .failedPending → w.row.status.terminalState = false →
    GraceInv { row := row', clock := clock, history := entry :: w.history } := by
  intro hnot hlive
  have hmiss : row'.firstSeenAt ≠ none → w.row.status = .clientMissing ∧
      row'.firstSeenAt = w.row.firstSeenAt := by
    intro hanch
    rcases heff.anchor with hsame | hnone
    · refine ⟨?_, hsame⟩
      rcases h.anchored (by rwa [← hsame]) with hs | hs | hs
      · exact hs
      · exact absurd hs hnot
      · rw [hs] at hlive
        exact absurd hlive (by decide)
    · exact absurd hnone hanch
  constructor
  · intro hanch
    by_cases hend : holdEnd = .failing
    · exact .inr (heff.failing hend)
    · rcases heff.waiting hend (hmiss hanch).1 with hs | hs
      · exact .inl hs
      · exact absurd hs hanch
  · intro since hsince hst
    change row'.firstSeenAt = some since at hsince
    have hanch : row'.firstSeenAt ≠ none := by simp [hsince]
    rcases hmiss hanch with ⟨hm, hsame⟩
    have hold := h.absent since (by rw [← hsame, hsince]) hm
    cases hpres : entry.2 with
    | false => simp [absentSince, hpres, hold]
    | true =>
      exfalso
      -- Neither a failing nor a completed hold leaves a missing anchored row.
      have hne := hcond hm (by rw [← hsame, hsince]; rfl) hpres
      cases hend : holdEnd with
      | waiting => exact hne hend
      | failing =>
        rcases heff.failing hend with hs | hs
        · rw [hs] at hst
          exact absurd hst (by decide)
        · rw [hs] at hst
          exact absurd hst (by decide)
      | completed => exact hanch (heff.missing hm hend)

theorem graceInv_of_reconcile (h : GraceInv w) (missingGrace : Int)
    (input : CycleInput) (row : DownloadRecord) (hst : row.status = w.row.status)
    (hanch : row.firstSeenAt = w.row.firstSeenAt)
    (hcond : w.row.status = .clientMissing → w.row.firstSeenAt.isSome = true →
      (lookup input.client w.row.torrentHash).isSome = true →
      ¬ (input.claimedAtTransition = true ∨ input.swapLands = false ∨ input.committed = false)) :
    GraceInv
      { row := (applyReconcile missingGrace input w.row row).1
        clock := input.now
        history := (input.now, (lookup input.client w.row.torrentHash).isSome) :: w.history } := by
  rcases applyReconcile_cases missingGrace input w.row row with ⟨tr, hmove, happ⟩ | ⟨hkept, hlost⟩
  · rcases reconcileRow_cases _ _ _ _ _ hmove with ⟨hact, hcase⟩
    rw [happ]
    rcases hcase with ⟨hpres, hset, hclr⟩ | ⟨habs, hmoveAbsent⟩
    · -- A present torrent leaves no anchor on an active row.
      have hnone : (applyTransition input.now tr row).firstSeenAt = none := by
        by_cases hmiss : w.row.status = .clientMissing
        · simp [applyTransition, hclr hmiss]
        · have hunanchored : w.row.firstSeenAt = none := by
            refine Decidable.byContradiction fun hne => ?_
            exact hmiss (h.missing_of_active hact hne)
          simp [applyTransition, hset, hanch, hunanchored]
      exact ⟨fun hne => absurd hnone hne, fun since hsince => by
        rw [hnone] at hsince
        simp at hsince⟩
    · rcases reconcileAbsent_anchor w.row input.now missingGrace tr hmoveAbsent with
        ⟨hclr, hset, -, -⟩
      constructor
      · intro _
        rcases reconcileAbsent_target w.row input.now missingGrace tr hmoveAbsent with ht | ht
        · exact .inl ht
        · exact .inr (.inl ht)
      · intro since hsince _
        simp only [applyTransition, hclr, Bool.false_eq_true, if_false] at hsince
        rw [habs]
        by_cases hnone : w.row.firstSeenAt = none
        · rw [if_pos (hset.mpr hnone), Option.some.injEq] at hsince
          simp [absentSince, hsince]
        · rw [if_neg (fun hs => hnone (hset.mp hs)), hanch] at hsince
          have hold := h.absent since hsince (h.missing_of_active hact hnone)
          simp [absentSince, hold]
  · rw [hkept]
    constructor
    · rw [hst, hanch]
      exact h.anchored
    · intro since hsince hm
      rw [hanch] at hsince
      rw [hst] at hm
      have hold := h.absent since hsince hm
      cases hpres : (lookup input.client w.row.torrentHash).isSome with
      | false => simp [absentSince, hold]
      | true => exact absurd (hlost hm hpres) (hcond hm (hsince ▸ rfl) hpres)

theorem graceInv_of_cycle (h : GraceInv w) (missingGrace : Int) (input : CycleInput)
    (hlive : w.row.status.terminalState = false) (hcond : ¬ LeavesAnchor w (.cycle input)) :
    GraceInv
      { row := (reconcileCycle missingGrace input w.row).1
        clock := input.now
        history := (input.now, (lookup input.client w.row.torrentHash).isSome) :: w.history } := by
  simp only [LeavesAnchor] at hcond
  unfold reconcileCycle
  rw [hlive]
  by_cases hrej : (!input.claimedAtHold && heldForRejection w.row) = true
  · simp only [hrej, if_true] at hcond ⊢
    have hnot : w.row.status ≠ .failedPending := by
      simp only [heldForRejection, Bool.and_eq_true, decide_eq_true_eq] at hrej
      exact hrej.2.2
    refine graceInv_of_hold h (holdEffect_reject input.hold w.row _) input.now _ ?_ hnot hlive
    intro hm hs hp hend
    exact hcond ⟨hm, hs, hp, hend⟩
  · simp only [hrej, Bool.false_eq_true, if_false] at hcond ⊢
    by_cases hheld : (!input.claimedAtHold && heldForPayload input.client w.row) = true
    · simp only [hheld, if_true] at hcond ⊢
      have hnot : w.row.status ≠ .failedPending := by
        intro hfp
        simp [heldForPayload, hfp, holdableState] at hheld
      have heff := holdEffect_body input.hold w.row
      rcases validateHeldPayload_eq input.hold w.row with ⟨hs, ha⟩
      have heff' : HoldEffect w.row (validateHeldPayload input.hold w.row)
          (holdBody input.hold w.row).2.2 := by
        refine ⟨?_, ?_, ?_, ?_⟩
        · rw [ha]; exact heff.anchor
        · rw [hs]; exact heff.failing
        · rw [ha]; exact heff.missing
        · rw [hs, ha]; exact heff.waiting
      refine graceInv_of_hold h heff' input.now _ ?_ hnot hlive
      intro hm hsome hp hend
      exact hcond ⟨hm, hsome, hp, hend⟩
    · simp only [hheld, Bool.false_eq_true, if_false] at hcond ⊢
      have hcond' : w.row.status = .clientMissing → w.row.firstSeenAt.isSome = true →
          (lookup input.client w.row.torrentHash).isSome = true →
          ¬ (input.claimedAtTransition = true ∨ input.swapLands = false ∨
            input.committed = false) :=
        fun hm hs hp hl => hcond ⟨hm, hs, hp, hl⟩
      split
      · exact graceInv_of_reconcile h missingGrace input _ rfl rfl hcond'
      · exact graceInv_of_reconcile h missingGrace input w.row rfl rfl hcond'

theorem graceInv_of_step {missingGrace : Int} {w' : GraceWorld} {action : GraceAction}
    (h : GraceInv w) (hcond : ¬ LeavesAnchor w action)
    (hstep : graceStep missingGrace w action = some w') : GraceInv w' := by
  cases action with
  | cycle input =>
    simp only [graceStep] at hstep
    split at hstep
    · simp at hstep
    split at hstep
    · cases hstep
      exact ⟨h.anchored, h.absent⟩
    · rename_i hlive
      cases hstep
      exact graceInv_of_cycle h missingGrace input (by simpa using hlive) hcond
  | rewritePayload pending resume forceStart rejection failedReason =>
    cases hstep
    exact ⟨h.anchored, h.absent⟩
  | fail target =>
    simp only [graceStep] at hstep
    split at hstep
    · simp at hstep
    cases hstep
    cases target with
    | refused => exact ⟨h.anchored, h.absent⟩
    | pending => exact ⟨fun _ => .inr (.inl rfl), fun _ _ hs => absurd hs nofun⟩
    | failed => exact ⟨fun _ => .inr (.inr rfl), fun _ _ hs => absurd hs nofun⟩
  | importMove target =>
    simp only [graceStep] at hstep
    split at hstep
    · rename_i himp
      cases hstep
      -- A row being imported carries no anchor.
      have hnone : w.row.firstSeenAt = none := by
        refine Decidable.byContradiction fun hne => ?_
        rcases h.anchored hne with hs | hs | hs
        · simp [hs, importState] at himp
        · simp [hs, importState] at himp
        · simp [hs, importState] at himp
      exact ⟨fun hne => absurd hnone hne, fun since hs => by simp [hnone] at hs⟩
    · simp at hstep
  | reuse pending resume forceStart =>
    simp only [graceStep] at hstep
    split at hstep
    · cases hstep
      exact ⟨fun hne => absurd rfl hne, fun since hs => absurd hs nofun⟩
    · simp at hstep

/-- In a run without a cycle that leaves an anchor standing, a row whose
    torrent is absent fails only at the end of a whole window of absence: there
    is a cycle at least the grace window earlier such that the torrent was
    absent in every cycle from it to the one that fails the row. -/
theorem missing_grace_respected (missingGrace : Int) (w t : GraceWorld)
    (actions : List GraceAction) (hfresh : w.row.firstSeenAt = none)
    (hmeet : StepsMeet (graceStep missingGrace) (fun u a => ¬ LeavesAnchor u a) w actions)
    (hrun : run (graceStep missingGrace) w actions = some t) (input : CycleInput)
    (tr : StateTransition) (happlied : (reconcileCycle missingGrace input t.row).2 = some tr)
    (hfails : tr.toState = .failedPending)
    (habsent : (lookup input.client t.row.torrentHash).isSome = false) :
    ∃ since, missingGrace ≤ input.now - since ∧ absentSince since t.history = true := by
  have hinit : GraceInv w :=
    ⟨fun hne => absurd hfresh hne, fun since hs => by simp [hfresh] at hs⟩
  have hinv : GraceInv t :=
    invariant_of_meeting_run (fun u a u' hu ha hs => graceInv_of_step hu ha hs)
      w t actions hinit hmeet hrun
  -- Only the reconciling half of the cycle applies a move.
  have hmove : reconcileRow input.client input.now missingGrace t.row = some tr := by
    unfold reconcileCycle at happlied
    have happ : ∀ row, (applyReconcile missingGrace input t.row row).2 = some tr →
        reconcileRow input.client input.now missingGrace t.row = some tr := by
      intro row hsome
      rcases applyReconcile_cases missingGrace input t.row row with ⟨tr', htr', heq⟩ | ⟨heq, -⟩
      · rw [heq] at hsome
        rw [htr']
        exact hsome
      · rw [heq] at hsome
        simp at hsome
    split at happlied
    · simp at happlied
    split at happlied
    · simp at happlied
    split at happlied
    · simp at happlied
    split at happlied
    · exact happ _ happlied
    · exact happ _ happlied
  rcases reconcileRow_cases _ _ _ _ _ hmove with ⟨hact, hcase⟩
  rcases hcase with ⟨hpres, -⟩ | ⟨-, hmoveAbsent⟩
  · rw [habsent] at hpres
    exact absurd hpres (by decide)
  · rcases (reconcileAbsent_fails_iff t.row input.now missingGrace).mp
      ⟨tr, hmoveAbsent, hfails⟩ with ⟨since, hsince, hgrace⟩
    refine ⟨since, hgrace, hinv.absent since hsince ?_⟩
    exact hinv.missing_of_active hact (by simp [hsince])

def snapshotOf (raw : RawState) : List DownloadStatus := [{ infoHash := "c0ffee", rawState := raw }]

/-- A client that reports the torrent in the given state and answers nothing
    else. -/
def holdReporting (raw : RawState) : HoldAnswers where
  status := .ok (some { infoHash := "c0ffee", rawState := raw })
  restartLands := true
  files := .ok []
  resumeLands := true
  pause := .ok ()
  statusAfterPause := .ok none
  filesAfterPause := .ok []
  rejection := none
  rejectionLands := true
  selectFiles := .ok ()
  rowUnchanged := true
  start := .ok ()
  completeLands := true
  claimed := false
  failing := .refused

def quietCycle (now : Int) (client : List DownloadStatus) : CycleInput where
  now := now
  client := client
  claimedAtHold := false
  hold := holdReporting .checkingResumeData
  releaseLands := true
  claimedAtTransition := false
  swapLands := true
  committed := true

/-- A grab whose payload has not been inspected yet. -/
def freshGrab (pending : Bool) : GraceWorld where
  row := { id := 1, torrentHash := "c0ffee", status := .downloading, payloadPending := pending }
  clock := 0
  history := []

/-- A torrent that is gone at the first poll and back at the second, still
    being checked by the client, fails at the first poll that misses it again:
    it was seen half a window before. -/
theorem grace_collapsed :
    ∃ t tr, run (graceStep defaultMissingGrace) (freshGrab true)
        [.cycle (quietCycle 0 []),
          .cycle (quietCycle 300000000 (snapshotOf .checkingResumeData))] = some t ∧
      (lookup [] t.row.torrentHash).isSome = false ∧
      (reconcileCycle defaultMissingGrace (quietCycle 600000000 []) t.row).2 = some tr ∧
      tr.toState = .failedPending ∧ t.history = [(300000000, true), (0, false)] ∧
      ∀ since, absentSince since t.history = false :=
  ⟨_, _, rfl, rfl, rfl, rfl, rfl, fun _ => rfl⟩

/-- The guarantee for a torrent that stays away: it fails after a whole window
    without it. -/
theorem missing_grace_respected_of_absence :
    ∃ t since, run (graceStep defaultMissingGrace) (freshGrab false)
        [.cycle (quietCycle 0 []), .cycle (quietCycle 300000000 [])] = some t ∧
      600000000 ≤ 600000000 - since ∧ absentSince since t.history = true := by
  rcases missing_grace_respected defaultMissingGrace (freshGrab false) _
    [.cycle (quietCycle 0 []), .cycle (quietCycle 300000000 [])] rfl
    ⟨fun h => absurd h.1 (by decide), fun h => absurd h.2.2.1 (by decide), trivial⟩ rfl
    (quietCycle 600000000 []) _ rfl rfl rfl with ⟨since, hgrace, habs⟩
  exact ⟨_, since, rfl, hgrace, habs⟩

end Reconciler

end PlexManager
