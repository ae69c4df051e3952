import PlexManager.Core.RequestStatus
import PlexManager.Lib.StableSort

/-!
# Which titles a sweep takes

What may be evicted at all has been watched, and not of late, and nobody has pinned it,
wants it or is fetching it. A sweep under disk pressure takes the stalest of these first
and stops where the projected usage has come down to its target. A size that was never
measured brings it no closer. Percentages are rational numbers here.

## Theorems

* `selectEvictions_spec`: A sweep takes the shortest part of the ranking that is enough.
-/

namespace PlexManager

namespace EvictionRanking

structure EvictionCandidate where
  requestId : Nat
  status : RequestStatus
  watched : Bool
  lastViewedAt : Option Int
  keepForever : Bool
  inFlight : Bool
  sizePercent : Option Rat
  watchlisted : Bool := false
  deriving DecidableEq, Repr

/-- `_ELIGIBLE_STATUSES`. -/
def eligibleStatus : RequestStatus → Bool
  | .available | .partiallyAvailable => true
  | _ => false

def isEligible (candidate : EvictionCandidate) (lastViewedAt graceCutoff : Int) : Bool :=
  eligibleStatus candidate.status && candidate.watched && decide (lastViewedAt < graceCutoff) &&
    !candidate.keepForever && !candidate.watchlisted && !candidate.inFlight

def isEvictable (graceCutoff : Int) (candidate : EvictionCandidate) : Bool :=
  match candidate.lastViewedAt with
  | none => false
  | some lastViewedAt => isEligible candidate lastViewedAt graceCutoff

/-- The loop of `rank_eviction_candidates`. -/
def dated (candidates : List EvictionCandidate) (graceCutoff : Int) :
    List (Int × EvictionCandidate) :=
  candidates.filterMap fun candidate =>
    match candidate.lastViewedAt with
    | none => none
    | some lastViewedAt =>
        if isEligible candidate lastViewedAt graceCutoff then some (lastViewedAt, candidate)
        else none

def rankEvictionCandidates (candidates : List EvictionCandidate) (graceCutoff : Int) :
    List EvictionCandidate :=
  ((dated candidates graceCutoff).mergeSort fun a b => decide (a.1 ≤ b.1)).map Prod.snd

def relieve (projected : Rat) (candidate : EvictionCandidate) : Rat :=
  projected - candidate.sizePercent.getD 0

/-- The loop of `select_evictions`. -/
def selectFrom (targetPct : Rat) : Rat → List EvictionCandidate → List EvictionCandidate
  | _, [] => []
  | projected, candidate :: ranked =>
      if projected ≤ targetPct then []
      else candidate :: selectFrom targetPct (relieve projected candidate) ranked

def selectEvictions (candidates : List EvictionCandidate) (usedPct thresholdPct targetPct : Rat)
    (graceCutoff : Int) : List EvictionCandidate :=
  if usedPct < thresholdPct then []
  else selectFrom targetPct usedPct (rankEvictionCandidates candidates graceCutoff)

/-- The usage that is expected after some evictions. -/
def projection (usedPct : Rat) (evicted : List EvictionCandidate) : Rat :=
  evicted.foldl relieve usedPct

/-! ### The ranking -/

variable (candidates : List EvictionCandidate) (graceCutoff : Int)

theorem dated_eq :
    (dated candidates graceCutoff).map Prod.snd = candidates.filter (isEvictable graceCutoff) := by
  induction candidates with
  | nil => rfl
  | cons candidate candidates ih =>
    unfold dated at ih ⊢
    cases hview : candidate.lastViewedAt with
    | none => simpa [isEvictable, hview] using ih
    | some lastViewedAt =>
      by_cases helig : isEligible candidate lastViewedAt graceCutoff = true
      · simpa [isEvictable, hview, helig] using ih
      · simpa [isEvictable, hview, helig] using ih

theorem lastViewedAt_of_dated {candidates : List EvictionCandidate} {graceCutoff : Int}
    {pair : Int × EvictionCandidate} (h : pair ∈ dated candidates graceCutoff) :
    pair.2.lastViewedAt = some pair.1 := by
  rcases List.mem_filterMap.mp h with ⟨candidate, -, hpair⟩
  split at hpair
  · exact nomatch hpair
  rename_i lastViewedAt hview
  split at hpair
  · cases hpair
    exact hview
  · exact nomatch hpair

theorem rankEvictionCandidates_sorted :
    (rankEvictionCandidates candidates graceCutoff).Perm
        (candidates.filter (isEvictable graceCutoff)) ∧
      (rankEvictionCandidates candidates graceCutoff).Pairwise
        fun a b => ∀ v v', a.lastViewedAt = some v → b.lastViewedAt = some v' → v ≤ v' := by
  have hperm := List.mergeSort_perm (dated candidates graceCutoff) fun a b => decide (a.1 ≤ b.1)
  refine ⟨dated_eq candidates graceCutoff ▸ hperm.map Prod.snd, List.pairwise_map.mpr ?_⟩
  have hsort := @List.pairwise_mergeSort _ (fun a b : Int × EvictionCandidate => decide (a.1 ≤ b.1))
    (fun a b c hab hbc => by simp only [decide_eq_true_eq] at *; omega)
    (fun a b => by simp only [Bool.or_eq_true, decide_eq_true_eq]; omega)
    (dated candidates graceCutoff)
  refine hsort.imp_of_mem fun ha hb hle v v' hv hv' => ?_
  have hfst := lastViewedAt_of_dated (hperm.mem_iff.mp ha)
  have hsnd := lastViewedAt_of_dated (hperm.mem_iff.mp hb)
  have hle := of_decide_eq_true hle
  rw [hfst, Option.some.injEq] at hv
  rw [hsnd, Option.some.injEq] at hv'
  omega

/-- Candidates that were viewed at the same time keep their order. -/
theorem rankEvictionCandidates_stable (v : Int) :
    (rankEvictionCandidates candidates graceCutoff).filter (·.lastViewedAt = some v) =
      (candidates.filter (isEvictable graceCutoff)).filter (·.lastViewedAt = some v) := by
  rw [rankEvictionCandidates, ← dated_eq, List.filter_map, List.filter_map]
  refine congrArg _ (StableSort.filter_mergeSort ?_ ?_ _ _ ?_)
  · intro a b c hab hbc
    simp only [decide_eq_true_eq] at *
    omega
  · intro a b
    simp only [Bool.or_eq_true, decide_eq_true_eq]
    omega
  · refine List.pairwise_of_forall_mem_list fun a ha b hb => ?_
    simp only [List.mem_filter, Function.comp_apply, decide_eq_true_eq] at ha hb ⊢
    have hfst := lastViewedAt_of_dated ha.1
    have hsnd := lastViewedAt_of_dated hb.1
    rw [ha.2, Option.some.injEq] at hfst
    rw [hb.2, Option.some.injEq] at hsnd
    omega

/-! ### The selection -/

/-- The loop takes the shortest part of the ranking that is enough, or all of it. -/
theorem selectFrom_spec (targetPct projected : Rat) (ranked : List EvictionCandidate) :
    selectFrom targetPct projected ranked <+: ranked ∧
      (∀ part, part <+: selectFrom targetPct projected ranked →
        part ≠ selectFrom targetPct projected ranked → targetPct < projection projected part) ∧
      (projection projected (selectFrom targetPct projected ranked) ≤ targetPct ∨
        selectFrom targetPct projected ranked = ranked) := by
  induction ranked generalizing projected with
  | nil =>
    refine ⟨List.prefix_rfl, fun part hpart hne => ?_, .inr rfl⟩
    exact absurd (List.prefix_nil.mp hpart) hne
  | cons candidate ranked ih =>
    rw [selectFrom]
    by_cases henough : projected ≤ targetPct
    · rw [if_pos henough]
      refine ⟨List.nil_prefix, fun part hpart hne => ?_, .inl henough⟩
      exact absurd (List.prefix_nil.mp hpart) hne
    rw [if_neg henough]
    rcases ih (relieve projected candidate) with ⟨hpart, hshort, hend⟩
    refine ⟨(List.prefix_cons_inj candidate).mpr hpart, fun part hpart hne => ?_, ?_⟩
    · cases part with
      | nil => exact Rat.not_le.mp henough
      | cons c part =>
        rcases List.cons_prefix_cons.mp hpart with ⟨rfl, hpart⟩
        exact hshort part hpart fun heq => hne (heq ▸ rfl)
    · rcases hend with hend | hend
      · exact .inl hend
      · exact .inr (congrArg (candidate :: ·) hend)

theorem isEvictable_iff (candidate : EvictionCandidate) :
    isEvictable graceCutoff candidate = true ↔
      ∃ v, candidate.lastViewedAt = some v ∧ v < graceCutoff ∧
        eligibleStatus candidate.status = true ∧ candidate.watched = true ∧
        candidate.keepForever = false ∧ candidate.watchlisted = false ∧
        candidate.inFlight = false := by
  unfold isEvictable
  cases candidate.lastViewedAt with
  | none => simp
  | some v =>
    simp only [isEligible, Bool.and_eq_true, Bool.not_eq_true', decide_eq_true_eq,
      Option.some.injEq, exists_eq_left']
    grind

/-- Below the threshold nothing is taken. From it on a sweep takes a first part of the
    ranking: any shorter part would leave the usage above the target, and its own comes
    down to the target unless it is the whole ranking. The ranking has the evictable
    candidates, the stalest first and those of one time in their order, and so nothing is
    taken that is pinned, watchlisted, in flight, not watched or watched of late. -/
theorem selectEvictions_spec (candidates : List EvictionCandidate)
    (usedPct thresholdPct targetPct : Rat) (graceCutoff : Int) :
    let selected := selectEvictions candidates usedPct thresholdPct targetPct graceCutoff
    let ranked := rankEvictionCandidates candidates graceCutoff
    (if usedPct < thresholdPct then selected = [] else selected <+: ranked ∧
        (∀ part, part <+: selected → part ≠ selected → targetPct < projection usedPct part) ∧
        (projection usedPct selected ≤ targetPct ∨ selected = ranked)) ∧
      ranked.Perm (candidates.filter (isEvictable graceCutoff)) ∧
      (ranked.Pairwise
        fun a b => ∀ v v', a.lastViewedAt = some v → b.lastViewedAt = some v' → v ≤ v') ∧
      (∀ v, ranked.filter (·.lastViewedAt = some v) =
        (candidates.filter (isEvictable graceCutoff)).filter (·.lastViewedAt = some v)) ∧
      ∀ candidate ∈ selected, isEvictable graceCutoff candidate = true ∧
        ∃ v, candidate.lastViewedAt = some v ∧ v < graceCutoff ∧
          eligibleStatus candidate.status = true ∧ candidate.watched = true ∧
          candidate.keepForever = false ∧ candidate.watchlisted = false ∧
          candidate.inFlight = false := by
  intro selected ranked
  rcases rankEvictionCandidates_sorted candidates graceCutoff with ⟨hperm, hsort⟩
  have hsel : if usedPct < thresholdPct then selected = [] else selected <+: ranked ∧
        (∀ part, part <+: selected → part ≠ selected → targetPct < projection usedPct part) ∧
        (projection usedPct selected ≤ targetPct ∨ selected = ranked) := by
    by_cases hlow : usedPct < thresholdPct
    · rw [if_pos hlow]
      exact if_pos hlow
    · have hloop : selected = selectFrom targetPct usedPct ranked := if_neg hlow
      rw [if_neg hlow, hloop]
      exact selectFrom_spec targetPct usedPct ranked
  refine ⟨hsel, hperm, hsort, rankEvictionCandidates_stable candidates graceCutoff, ?_⟩
  intro candidate hmem
  have hrank : candidate ∈ ranked := by
    split at hsel
    · rw [hsel] at hmem
      exact nomatch hmem
    · exact hsel.1.subset hmem
  have hevictable := (List.mem_filter.mp (hperm.mem_iff.mp hrank)).2
  exact ⟨hevictable, (isEvictable_iff graceCutoff candidate).mp hevictable⟩

end EvictionRanking

end PlexManager
