import PlexManager.Core.SeasonPack

/-!
# What a plan for a pack of several seasons accounts for

Every season of the pack counts as one thing: as a target, as waste, as in flight or as
ignored. What it counts as is decided by the season's own last row, so the plan is
accepted by a count over the seasons of the pack, and a season that is being downloaded
on its own is never in a pack that is accepted.

## Theorems

* `plan_partitions`: What a plan accounts for, and when it is accepted.
-/

namespace PlexManager

namespace SeasonPack

variable {n : Int} {ns : List Int} {intent : MultiSeasonRequestIntent}

theorem mem_insertSet {m : Int} : m ∈ insertSet n ns ↔ m = n ∨ m ∈ ns := by
  induction ns with
  | nil => simp [insertSet]
  | cons k ns ih =>
    rw [insertSet]
    split
    · simp
    split
    · rename_i heq
      simp [heq]
    · simp only [List.mem_cons, ih]
      exact or_left_comm

theorem mem_sortedSet : n ∈ sortedSet ns ↔ n ∈ ns := by
  induction ns with
  | nil => rfl
  | cons m ns ih =>
    rw [sortedSet, List.foldr_cons, mem_insertSet, List.mem_cons]
    exact or_congr_right ih

theorem insertSet_sorted (h : ns.Pairwise (· < ·)) : (insertSet n ns).Pairwise (· < ·) := by
  induction ns with
  | nil => simp [insertSet]
  | cons k ns ih =>
    rcases List.pairwise_cons.mp h with ⟨hfst, hrest⟩
    rw [insertSet]
    split
    · rename_i hlt
      refine List.pairwise_cons.mpr ⟨fun m hm => ?_, h⟩
      rcases List.mem_cons.mp hm with rfl | hm
      · exact hlt
      · exact Int.lt_trans hlt (hfst m hm)
    · split
      · exact h
      · refine List.pairwise_cons.mpr ⟨fun m hm => ?_, ih hrest⟩
        rcases mem_insertSet.mp hm with rfl | hm
        · omega
        · exact hfst m hm

theorem sortedSet_sorted (ns : List Int) : (sortedSet ns).Pairwise (· < ·) := by
  induction ns with
  | nil => exact List.Pairwise.nil
  | cons m ns ih => exact insertSet_sorted ih

theorem perm_of_coverage (f : Int → Coverage) (ns : List Int) :
    (ns.filter (f · = .target) ++ ns.filter (f · = .waste) ++ ns.filter (f · = .inFlight) ++
      ns.filter (f · = .ignored)).Perm ns := by
  rw [List.perm_iff_count]
  intro n
  simp only [List.count_append]
  induction ns with
  | nil => rfl
  | cons m ns ih =>
    cases hm : f m <;> simp only [List.filter_cons, hm, reduceCtorEq, decide_true, decide_false,
      if_true, if_false, Bool.false_eq_true, List.count_cons] <;> omega

-- What a season that is covered as a target or as in flight says of its last row.
theorem coverageOf_eq (h : eligible intent n = true) :
    ∃ state, stateOf intent n = some state ∧ coverageOf intent n = state.coverage := by
  have hsome : (stateOf intent n).isSome = true := (Bool.and_eq_true_iff.mp h).1
  rcases Option.isSome_iff_exists.mp hsome with ⟨state, hst⟩
  exact ⟨state, hst, by rw [coverageOf, if_pos h, hst]; rfl⟩

theorem searchable_of_target (h : coverageOf intent n = .target) :
    eligible intent n = true ∧
      ∃ state, stateOf intent n = some state ∧ searchableStatus state.status = true := by
  by_cases helig : eligible intent n = true
  · rcases coverageOf_eq helig with ⟨state, hst, hcov⟩
    refine ⟨helig, state, hst, ?_⟩
    rw [hcov] at h
    unfold SeasonPackSeasonState.coverage at h
    split at h
    · assumption
    · split at h <;> try split at h
      all_goals exact nomatch h
  · rw [coverageOf, if_neg helig] at h
    exact nomatch h

theorem inFlight_of_eligible {state : SeasonPackSeasonState} (h : eligible intent n = true)
    (hst : stateOf intent n = some state) (hstat : inFlightStatus state.status = true) :
    coverageOf intent n = .inFlight := by
  have hnot : searchableStatus state.status = false := by
    cases hs : state.status <;> rw [hs] at hstat <;>
      first | rfl | exact absurd hstat (by decide)
  rw [coverageOf, if_pos h, hst, Option.map_some, Option.getD_some,
    SeasonPackSeasonState.coverage, hnot, hstat]
  rfl

/-- For a whole show, or for the seasons that were asked for: the seasons of the pack,
    sorted and once each, are the targets, the waste, those in flight and the ignored
    ones, with no season in two of these. Targets are tracked and searchable. The plan is
    accepted exactly where nothing is in flight and the targets outnumber the waste, and
    then the pack covers no season that is being downloaded. -/
theorem plan_partitions (packSeasons : List Int) (intent : MultiSeasonRequestIntent)
    (hmode : intent.mode = .explicitSeasons →
      sortedSet packSeasons = sortedSet intent.requestedSeasons) :
    let plan := planMultiSeasonPack packSeasons intent
    ((∀ n, n ∈ plan.coveredSeasons ↔ n ∈ packSeasons) ∧
        plan.coveredSeasons.Pairwise (· < ·)) ∧
      ((plan.targetSeasons ++ plan.wasteSeasons ++ plan.inFlightSeasons ++
          plan.ignoredSeasons).Perm plan.coveredSeasons ∧
        (plan.targetSeasons ++ plan.wasteSeasons ++ plan.inFlightSeasons ++
          plan.ignoredSeasons).Nodup) ∧
      (∀ n ∈ plan.targetSeasons, eligible intent n = true ∧
        ∃ state, stateOf intent n = some state ∧ searchableStatus state.status = true) ∧
      (plan.accepted = true ↔ plan.inFlightSeasons = [] ∧ plan.targetSeasons ≠ [] ∧
        (plan.wasteSeasons = [] ∨ plan.wasteSeasons.length < plan.targetSeasons.length)) ∧
      (plan.accepted = true → ∀ n ∈ plan.coveredSeasons, eligible intent n = true →
        ∀ state, stateOf intent n = some state → inFlightStatus state.status = false) := by
  have hmatch : ¬ (intent.mode = .explicitSeasons ∧
      sortedSet packSeasons ≠ sortedSet intent.requestedSeasons) := fun h => h.2 (hmode h.1)
  rw [planMultiSeasonPack, if_neg hmatch]
  simp only []
  have hsort := sortedSet_sorted packSeasons
  have hperm := perm_of_coverage (coverageOf intent) (sortedSet packSeasons)
  have hnd : (sortedSet packSeasons).Nodup := hsort.imp fun h => Int.ne_of_lt h
  -- Nothing speaks against a plan with no season in flight and a majority of targets.
  have hacc : ∀ inFlight target waste : List Int,
      (if inFlight ≠ [] then some PackReason.coveredSeasonInFlight
        else if target = [] then some .noUsefulSeasons
        else if waste ≠ [] ∧ target.length ≤ waste.length then some .usefulSeasonsNotMajority
        else none).isNone = true ↔
      inFlight = [] ∧ target ≠ [] ∧ (waste = [] ∨ waste.length < target.length) := by
    intro inFlight target waste
    by_cases hfly : inFlight = []
    · by_cases htgt : target = []
      · simp [hfly, htgt]
      by_cases hwaste : waste = []
      · simp [hfly, htgt, hwaste]
      · by_cases hmaj : waste.length < target.length
        · simp [hfly, htgt, hwaste, hmaj]
        · simp [hfly, htgt, hwaste, hmaj, Nat.le_of_not_lt hmaj]
    · simp [hfly]
  refine ⟨⟨fun n => mem_sortedSet, hsort⟩, ⟨hperm, hperm.nodup_iff.mpr hnd⟩, ?_,
    hacc _ _ _, ?_⟩
  · intro n hn
    exact searchable_of_target (of_decide_eq_true (List.mem_filter.mp hn).2)
  · intro hplan n hn helig state hst
    cases hstat : inFlightStatus state.status with
    | false => rfl
    | true =>
      have hcov := inFlight_of_eligible helig hst hstat
      have hnone := ((hacc _ _ _).mp hplan).1
      have hmem : n ∈ (sortedSet packSeasons).filter (coverageOf intent · = .inFlight) :=
        List.mem_filter.mpr ⟨hn, decide_eq_true hcov⟩
      rw [hnone] at hmem
      exact nomatch hmem

/-- A pack of four seasons, two of which are wanted, one is there and one is not tracked. -/
theorem plan_partitions_show :
    let intent : MultiSeasonRequestIntent := ⟨.wholeShow, [],
      [⟨1, .failed, none, none⟩, ⟨2, .available, none, none⟩, ⟨3, .searching, none, none⟩]⟩
    let plan := planMultiSeasonPack [2, 1, 2, 3, 4] intent
    plan.accepted = true ∧ plan.targetSeasons = [1, 3] ∧
      (plan.targetSeasons ++ plan.wasteSeasons ++ plan.inFlightSeasons ++
          plan.ignoredSeasons).Perm plan.coveredSeasons ∧
      ∀ n ∈ plan.coveredSeasons, eligible intent n = true →
        ∀ state, stateOf intent n = some state → inFlightStatus state.status = false := by
  intro intent plan
  have h := plan_partitions [2, 1, 2, 3, 4] intent (by decide)
  exact ⟨by decide, by decide, h.2.1.1, h.2.2.2.2 (by decide)⟩

end SeasonPack

end PlexManager
