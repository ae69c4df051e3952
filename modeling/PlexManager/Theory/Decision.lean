import PlexManager.Core.DecisionEngine
import PlexManager.Lib.StableSort

/-!
# What the decision engine decides

No candidate is lost and none is counted twice: each is accepted or rejected,
once, and it is rejected for the first gate it fails. `gates` states the gates
in their order, and `judge_eq` that the engine's nested conditions amount to it.

The ranking is documented as by position in the profile, then by seeders, then
by size. The comparator has one more criterion: where whole seasons are asked
for, a season pack comes before any other release of the same quality. It is
meant to have no effect, since only season packs pass the gates then. But a pack
of several seasons passes them as well if the request's intent is known, and so
such a pack is ranked below every season pack of its quality, whatever its
seeders and its size. `ranked_iff` says that this is the only deviation.

## Theorems

* `faithful_iff`: When a result is faithful in all parts.
* `ranking_displaces_pack`: A pack with more seeders that is ranked lower.
-/

namespace PlexManager

namespace DecisionEngine

open Quality SourceMapping SeasonPack

/-! ### The gates -/

structure Gate where
  reason : RejectionReason
  passes : Bool

variable (q : Criteria) (candidate : CandidateRelease)

def gates : List Gate :=
  let parsed := q.parser candidate.title
  let multi := classifyReleaseScope parsed == .multiSeasonPack
  [⟨.wrongMedia, q.mediaMatch candidate parsed⟩,
    ⟨.multiSeasonPack, !multi || q.multiSeasonIntent.isSome⟩,
    ⟨.notSeasonPack, !q.preferSeasonPack || packScope (classifyReleaseScope parsed) ||
      (multi && q.multiSeasonIntent.isSome)⟩,
    ⟨.episodeNotNeeded, !outsideSubset q.episodeSubset parsed⟩,
    ⟨.qualityNotWanted, q.profile.allows (qualityOf parsed).id⟩,
    ⟨.multiSeasonPack, (multiSeasonPlan q parsed).all (·.accepted)⟩,
    ⟨.blocklisted, !q.isBlocklisted candidate parsed⟩]

def firstFailing : Option RejectionReason :=
  ((gates q candidate).find? fun gate => !gate.passes).map (·.reason)

def passing : Bool :=
  (gates q candidate).all (·.passes)

def scoredOf : ScoredRelease :=
  scoredRelease q candidate (q.parser candidate.title)

theorem firstFailing_eq_none : firstFailing q candidate = none ↔ passing q candidate = true := by
  simp [firstFailing, passing, List.all_eq_true]

/-- A candidate through some gates, one after the other. -/
def through (scored : ScoredRelease) : List Gate → Except RejectionReason ScoredRelease
  | [] => .ok scored
  | gate :: later => if !gate.passes then .error gate.reason else through scored later

theorem through_eq (scored : ScoredRelease) (gates : List Gate) :
    through scored gates = match (gates.find? fun gate => !gate.passes).map (·.reason) with
      | some reason => .error reason
      | none => .ok scored := by
  induction gates with
  | nil => rfl
  | cons gate later ih =>
    rw [through, List.find?_cons]
    cases hgate : gate.passes with
    | false => rfl
    | true => exact ih

theorem judge_eq_through :
    judge q candidate = through (scoredOf q candidate) (gates q candidate) := by
  have hmul : ∀ scope : ReleaseScope, (scope = .multiSeasonPack ∧ q.multiSeasonIntent = none) ↔
        (!(!(scope == .multiSeasonPack) || q.multiSeasonIntent.isSome)) = true := by
    cases q.multiSeasonIntent <;> simp
  have hpack : ∀ scope : ReleaseScope,
      (q.preferSeasonPack = true ∧ packScope scope = false ∧
        ¬ (scope = .multiSeasonPack ∧ q.multiSeasonIntent ≠ none)) ↔
        (!(!q.preferSeasonPack || packScope scope ||
          (scope == .multiSeasonPack && q.multiSeasonIntent.isSome))) = true := by
    cases q.multiSeasonIntent <;> simp [and_assoc]
  have hplan : ∀ plan : Option MultiSeasonPackPlan,
      (plan.any fun plan => !plan.accepted) = !(plan.all (·.accepted)) := by
    intro plan
    cases plan <;> rfl
  have hwhy : ∀ parsed : ParsedRelease,
      (checkQuality (qualityOf parsed) q.profile).reason.getD .qualityNotWanted =
        .qualityNotWanted := by
    intro parsed
    unfold checkQuality
    split
    · rfl
    · rfl
  simp only [judge, gates, through, hmul, hpack, hplan, hwhy, checkQuality_accepted,
    Bool.not_not]
  rfl

theorem judge_eq :
    judge q candidate = match firstFailing q candidate with
      | some reason => .error reason
      | none => .ok (scoredOf q candidate) := by
  rw [judge_eq_through, through_eq]
  rfl

variable {q : Criteria} {candidates : List CandidateRelease} {a b : CandidateRelease}
  {candidate c : CandidateRelease}

theorem judge_of_passing
    (h : passing q candidate = true) : judge q candidate = .ok (scoredOf q candidate) := by
  rw [judge_eq, (firstFailing_eq_none q candidate).mpr h]

theorem judge_of_failing {reason : RejectionReason}
    (h : firstFailing q candidate = some reason) : judge q candidate = .error reason := by
  rw [judge_eq, h]

theorem survivors_eq (q : Criteria) (candidates : List CandidateRelease) :
    survivors q candidates = (candidates.filter (passing q)).map (scoredOf q) := by
  induction candidates with
  | nil => rfl
  | cons candidate others ih =>
    simp only [survivors] at ih ⊢
    rw [List.filterMap_cons, ih]
    cases hpass : passing q candidate with
    | true => simp [judge_of_passing hpass, hpass, Except.toOption]
    | false =>
      cases hfail : firstFailing q candidate with
      | none =>
        rw [firstFailing_eq_none, hpass] at hfail
        exact absurd hfail Bool.false_ne_true
      | some reason => simp [judge_of_failing hfail, hpass, Except.toOption]

theorem rejections_eq (q : Criteria) (candidates : List CandidateRelease) :
    rejections q candidates =
      candidates.filterMap fun candidate => (firstFailing q candidate).map (candidate, ·) := by
  unfold rejections
  congr 1
  funext candidate
  rw [judge_eq]
  cases firstFailing q candidate with
  | none | some reason => rfl

/-! ### The ranking -/

/-- What the ranking is documented to go by: the position in the profile, the
    seeders and the size. -/
def rankKey (scored : ScoredRelease) : Int × Int × Int :=
  (scored.profileIndex, scored.candidate.seeders.getD 0, scored.candidate.sizeBytes)

def candidateKey (q : Criteria) (candidate : CandidateRelease) : Int × Int × Int :=
  rankKey (scoredOf q candidate)

/-- One key is less than another, from left to right. -/
def KeyLt (a b : Int × Int × Int) : Prop :=
  a.1 < b.1 ∨ a.1 = b.1 ∧ (a.2.1 < b.2.1 ∨ a.2.1 = b.2.1 ∧ a.2.2 < b.2.2)

/-- The position of a quality in a profile, below all of it where there is none. -/
def indexRank (profile : QualityProfile) (quality : Quality) : Int :=
  ((profile.getIndex quality.id).map Int.ofNat).getD (-1)

/-- The additional criterion, where it counts. -/
def packRank (q : Criteria) (scored : ScoredRelease) : Int :=
  if q.preferSeasonPack && packScope (classifyReleaseScope scored.parsed) then 1 else 0

/-- The comparator does not put a release below another. -/
def Ahead (q : Criteria) (a b : ScoredRelease) : Prop :=
  let ia := indexRank q.profile a.quality
  let ib := indexRank q.profile b.quality
  ib < ia ∨ ia = ib ∧
    (packRank q b < packRank q a ∨ packRank q a = packRank q b ∧
      (b.candidate.seeders.getD 0 < a.candidate.seeders.getD 0 ∨
        a.candidate.seeders.getD 0 = b.candidate.seeders.getD 0 ∧
          b.candidate.sizeBytes ≤ a.candidate.sizeBytes))

theorem compareInt_eq (a b : Int) :
    compareInt a b = 1 ∧ b < a ∨ compareInt a b = 0 ∧ a = b ∨ compareInt a b = -1 ∧ a < b := by
  unfold compareInt
  split
  · split
    · omega
    · omega
  · split
    · omega
    · omega

theorem compareByProfile_indexRank (a b : Quality) (profile : QualityProfile) :
    compareByProfile a b profile = compareInt (indexRank profile a) (indexRank profile b) := by
  unfold compareByProfile indexRank
  cases profile.getIndex a.id with
  | none =>
    cases profile.getIndex b.id with
    | none => rfl
    | some ib =>
      rcases compareInt_eq (-1) ib with h | h | h
      · simp; omega
      · simp; omega
      · simp; omega
  | some ia =>
    cases profile.getIndex b.id with
    | none =>
      rcases compareInt_eq ia (-1) with h | h | h
      · simp; omega
      · simp; omega
      · simp; omega
    | some ib => rfl

theorem compare_nonneg_iff (q : Criteria) (a b : ScoredRelease) :
    0 ≤ compare q a b ↔ Ahead q a b := by
  have hidx := compareInt_eq (indexRank q.profile a.quality) (indexRank q.profile b.quality)
  have hseeders := compareInt_eq (a.candidate.seeders.getD 0) (b.candidate.seeders.getD 0)
  have hsize := compareInt_eq a.candidate.sizeBytes b.candidate.sizeBytes
  simp only [compare, Ahead, packRank, compareByProfile_indexRank]
  generalize packScope (classifyReleaseScope a.parsed) = aPack
  generalize packScope (classifyReleaseScope b.parsed) = bPack
  split
  · -- The profile decides.
    omega
  split
  · rename_i hpacks
    cases aPack with
    | false =>
      have hb : bPack = true := by simpa using hpacks.2
      simp only [hb, hpacks.1, Bool.and_true, Bool.and_false, Bool.false_eq_true, if_true,
        if_false]
      omega
    | true =>
      have hb : bPack = false := by simpa using hpacks.2
      simp only [hb, hpacks.1, Bool.and_true, Bool.and_false, Bool.false_eq_true, if_true,
        if_false]
      omega
  · rename_i hpacks
    have hrank : (if (q.preferSeasonPack && aPack) = true then (1 : Int) else 0) =
        if (q.preferSeasonPack && bPack) = true then 1 else 0 := by
      cases hpref : q.preferSeasonPack with
      | false => rfl
      | true =>
        have hpack : aPack = bPack := by
          refine Decidable.byContradiction fun hne => hpacks ⟨hpref, hne⟩
        rw [hpack]
    split
    · omega
    · omega

theorem ahead_trans (q : Criteria) (a b c : ScoredRelease) (hab : Ahead q a b)
    (hbc : Ahead q b c) : Ahead q a c := by
  simp only [Ahead] at hab hbc ⊢
  omega

theorem ahead_total (q : Criteria) (a b : ScoredRelease) : Ahead q a b ∨ Ahead q b a := by
  simp only [Ahead]
  omega

/-- The survivors after sorting, before they get their scores. -/
def sorted (q : Criteria) (candidates : List CandidateRelease) : List ScoredRelease :=
  sortReverse q (survivors q candidates)

theorem sorted_perm (q : Criteria) (candidates : List CandidateRelease) :
    (sorted q candidates).Perm (survivors q candidates) :=
  List.mergeSort_perm _ _

theorem sorted_ahead (q : Criteria) (candidates : List CandidateRelease) :
    (sorted q candidates).Pairwise (Ahead q) := by
  have hsort : (sorted q candidates).Pairwise
      fun a b => Decidable.decide (0 ≤ compare q a b) = true :=
    List.pairwise_mergeSort ?_ ?_ (survivors q candidates)
  · refine hsort.imp fun hle => ?_
    exact (compare_nonneg_iff q _ _).mp (by simpa using hle)
  · intro a b c hab hbc
    simp only [decide_eq_true_eq, compare_nonneg_iff] at hab hbc ⊢
    exact ahead_trans q a b c hab hbc
  · intro a b
    simp only [Bool.or_eq_true, decide_eq_true_eq, compare_nonneg_iff]
    exact ahead_total q a b

-- Survivors of one kind that are in order come out of sorting as they went in.
theorem filter_sorted (q : Criteria) (candidates : List CandidateRelease)
    (p : ScoredRelease → Bool) (h : ((survivors q candidates).filter p).Pairwise (Ahead q)) :
    (sorted q candidates).filter p = (survivors q candidates).filter p := by
  refine StableSort.filter_mergeSort ?_ ?_ _ p ?_
  · intro a b c hab hbc
    simp only [decide_eq_true_eq, compare_nonneg_iff] at hab hbc ⊢
    exact ahead_trans q a b c hab hbc
  · intro a b
    simp only [Bool.or_eq_true, decide_eq_true_eq, compare_nonneg_iff]
    exact ahead_total q a b
  · refine h.imp fun hahead => ?_
    simpa [compare_nonneg_iff] using hahead

/-! ### The scores -/

theorem map_rank {β : Type} (f : ScoredRelease → β)
    (hf : ∀ scored n, f { scored with score := n } = f scored) (l : List ScoredRelease) :
    (rank l).map f = l.map f := by
  have hmap : ∀ (g : Nat → ScoredRelease → ScoredRelease), (∀ i scored, f (g i scored) = f scored) →
      ∀ l : List ScoredRelease, (l.mapIdx g).map f = l.map f := by
    intro g hg l
    induction l generalizing g with
    | nil => rfl
    | cons scored others ih =>
      rw [List.mapIdx_cons, List.map_cons, List.map_cons, hg, ih _ fun i => hg (i + 1)]
  exact hmap _ (fun i scored => hf scored _) l

theorem map_accepted {β : Type} (f : ScoredRelease → β)
    (hf : ∀ scored n, f { scored with score := n } = f scored) (q : Criteria)
    (candidates : List CandidateRelease) :
    (decide q candidates).accepted.map f = (sorted q candidates).map f := by
  rw [decide_eq]
  exact map_rank f hf _

/-! ### Faithful results -/

/-- Every candidate is accepted or rejected, and as often as it was given. -/
def Partitioned (q : Criteria) (candidates : List CandidateRelease) : Prop :=
  ((decide q candidates).accepted.map (·.candidate) ++
    (decide q candidates).rejected.map (·.1)).Perm candidates

/-- The accepted candidates are those that pass every gate, and the others are
    rejected for the first they fail. -/
def Gated (q : Criteria) (candidates : List CandidateRelease) : Prop :=
  ((decide q candidates).accepted.map (·.candidate)).Perm (candidates.filter (passing q)) ∧
    (decide q candidates).rejected =
      candidates.filterMap fun candidate => (firstFailing q candidate).map (candidate, ·)

/-- The accepted releases are sorted by their keys, from high to low, and those
    with the same key are in the order of the candidates. -/
def Ranked (q : Criteria) (candidates : List CandidateRelease) : Prop :=
  (decide q candidates).accepted.Pairwise (fun a b => ¬ KeyLt (rankKey a) (rankKey b)) ∧
    ∀ key, ((decide q candidates).accepted.filter fun scored => rankKey scored == key).map
        (·.candidate) =
      candidates.filter fun candidate => passing q candidate && candidateKey q candidate == key

def Scored (q : Criteria) (candidates : List CandidateRelease) : Prop :=
  (decide q candidates).accepted.Pairwise fun a b => b.score < a.score

/-- A season pack and a pack of several seasons pass the gates where whole
    seasons are asked for, with the same quality, and the latter has more
    seeders or, with as many, is larger or, with the same size, came first. -/
def Displaced (q : Criteria) (candidates : List CandidateRelease) : Prop :=
  q.preferSeasonPack = true ∧ ∃ pack multi,
    (passing q pack = true ∧ classifyReleaseScope (q.parser pack.title) = .seasonPack) ∧
      (passing q multi = true ∧ classifyReleaseScope (q.parser multi.title) = .multiSeasonPack) ∧
      (candidateKey q pack).1 = (candidateKey q multi).1 ∧
      (KeyLt (candidateKey q pack) (candidateKey q multi) ∧ pack ∈ candidates ∧
          multi ∈ candidates ∨
        candidateKey q pack = candidateKey q multi ∧
          List.Sublist [multi, pack] candidates)

theorem gated (q : Criteria) (candidates : List CandidateRelease) : Gated q candidates := by
  refine ⟨?_, ?_⟩
  · rw [map_accepted _ (fun _ _ => rfl)]
    refine ((sorted_perm q candidates).map _).trans ?_
    rw [survivors_eq, List.map_map]
    exact List.Perm.of_eq (List.map_id _)
  · rw [decide_eq]
    exact rejections_eq q candidates

theorem map_fst_failing (q : Criteria) (candidates : List CandidateRelease) :
    (candidates.filterMap fun candidate =>
        (firstFailing q candidate).map (candidate, ·)).map (·.1) =
      candidates.filter fun candidate => !passing q candidate := by
  induction candidates with
  | nil => rfl
  | cons candidate others ih =>
    rw [List.filterMap_cons, List.filter_cons]
    cases hfail : firstFailing q candidate with
    | none =>
      have hpass := (firstFailing_eq_none q candidate).mp hfail
      simpa [hpass] using ih
    | some reason =>
      have hpass : passing q candidate = false := by
        refine Bool.eq_false_iff.mpr fun hpass => ?_
        rw [(firstFailing_eq_none q candidate).mpr hpass] at hfail
        exact nomatch hfail
      simpa [hpass] using ih

theorem partitioned (q : Criteria) (candidates : List CandidateRelease) :
    Partitioned q candidates := by
  rcases gated q candidates with ⟨hacc, hrejected⟩
  have hfailing : (decide q candidates).rejected.map (·.1) =
      candidates.filter fun candidate => !passing q candidate := by
    rw [hrejected]
    exact map_fst_failing q candidates
  refine (hacc.append (List.Perm.of_eq hfailing)).trans ?_
  exact List.filter_append_perm (passing q) candidates

theorem scored (q : Criteria) (candidates : List CandidateRelease) : Scored q candidates := by
  rw [Scored, decide_eq]
  refine List.pairwise_iff_getElem.mpr fun i j hi hj hij => ?_
  simp only [rank, List.getElem_mapIdx, List.length_mapIdx] at hi hj ⊢
  omega

/-! ### When the ranking is as documented -/

theorem mem_sorted {a : ScoredRelease} (h : a ∈ sorted q candidates) :
    ∃ c ∈ candidates, passing q c = true ∧ a = scoredOf q c := by
  have hmem := (sorted_perm q candidates).mem_iff.mp h
  rw [survivors_eq] at hmem
  rcases List.mem_map.mp hmem with ⟨c, hc, rfl⟩
  exact ⟨c, (List.mem_filter.mp hc).1, (List.mem_filter.mp hc).2, rfl⟩

theorem scoredOf_mem_sorted (hc : c ∈ candidates) (hpass : passing q c = true) :
    scoredOf q c ∈ sorted q candidates := by
  rw [(sorted_perm q candidates).mem_iff, survivors_eq]
  exact List.mem_map.mpr ⟨c, List.mem_filter.mpr ⟨hc, hpass⟩, rfl⟩

theorem ahead_of_sublist {p : ScoredRelease → Bool}
    (h : List.Sublist [a, b] (((sorted q candidates).filter p).map (·.candidate))) :
    Ahead q (scoredOf q a) (scoredOf q b) := by
  rcases List.sublist_map_iff.mp h with ⟨l, hl, hmap⟩
  rcases List.map_eq_cons_iff.mp hmap.symm with ⟨s, rest, rfl, rfl, hrest⟩
  rcases List.map_eq_cons_iff.mp hrest with ⟨t, rest', rfl, rfl, hnil⟩
  obtain rfl := List.map_eq_nil_iff.mp hnil
  have hsort := hl.trans List.filter_sublist
  have hahead := List.pairwise_pair.mp ((sorted_ahead q candidates).sublist hsort)
  rcases mem_sorted (hsort.subset List.mem_cons_self) with ⟨c, -, -, hs⟩
  rcases mem_sorted (hsort.subset (List.mem_cons_of_mem _ List.mem_cons_self)) with
    ⟨d, -, -, ht⟩
  rw [hs, ht] at hahead ⊢
  exact hahead

-- Where whole seasons are asked for, what passes the gates and is no season pack is a pack of
-- several seasons.
theorem multi_of_passing (h : passing q c = true) (hpref : q.preferSeasonPack = true)
    (hpack : packScope (classifyReleaseScope (q.parser c.title)) = false) :
    classifyReleaseScope (q.parser c.title) = .multiSeasonPack := by
  simp only [passing, gates, List.all_cons, List.all_nil, Bool.and_eq_true] at h
  have hgate := h.2.2.1
  simp only [hpref, hpack, Bool.not_true, Bool.false_or, Bool.and_eq_true, beq_iff_eq] at hgate
  exact hgate.1

theorem packRank_scoredOf (q : Criteria) (c : CandidateRelease) :
    packRank q (scoredOf q c) =
      if q.preferSeasonPack && packScope (classifyReleaseScope (q.parser c.title)) then 1
      else 0 :=
  rfl

theorem packRank_bounds (q : Criteria) (a : ScoredRelease) :
    0 ≤ packRank q a ∧ packRank q a ≤ 1 := by
  unfold packRank
  split
  · omega
  · omega

theorem packs_of_packRank_lt (hb : passing q b = true)
    (h : packRank q (scoredOf q b) < packRank q (scoredOf q a)) :
    q.preferSeasonPack = true ∧ classifyReleaseScope (q.parser a.title) = .seasonPack ∧
      classifyReleaseScope (q.parser b.title) = .multiSeasonPack := by
  have hbnd := packRank_bounds q (scoredOf q a)
  have hbnd' := packRank_bounds q (scoredOf q b)
  have ha : packRank q (scoredOf q a) = 1 := by omega
  have hb' : packRank q (scoredOf q b) = 0 := by omega
  rw [packRank_scoredOf] at ha hb'
  have hpack : (q.preferSeasonPack && packScope (classifyReleaseScope (q.parser a.title))) =
    true := by
    refine Decidable.byContradiction fun hno => ?_
    rw [if_neg hno] at ha
    exact absurd ha (by omega)
  simp only [Bool.and_eq_true, packScope, beq_iff_eq] at hpack
  refine ⟨hpack.1, hpack.2, multi_of_passing hb hpack.1 ?_⟩
  refine Bool.eq_false_iff.mpr fun hyes => ?_
  rw [if_pos (by rw [hpack.1, hyes]; rfl)] at hb'
  exact absurd hb' (by omega)

theorem not_ahead_of_packs {pack multi : CandidateRelease} (hpref : q.preferSeasonPack = true)
    (hpack : classifyReleaseScope (q.parser pack.title) = .seasonPack)
    (hmul : classifyReleaseScope (q.parser multi.title) = .multiSeasonPack)
    (hidx : (candidateKey q pack).1 = (candidateKey q multi).1) :
    ¬ Ahead q (scoredOf q multi) (scoredOf q pack) := by
  have hp : packRank q (scoredOf q pack) = 1 := by
    rw [packRank_scoredOf, hpref, hpack]
    rfl
  have hm : packRank q (scoredOf q multi) = 0 := by
    rw [packRank_scoredOf, hpref, hmul]
    rfl
  have hrank : indexRank q.profile (scoredOf q pack).quality =
      indexRank q.profile (scoredOf q multi).quality := hidx
  simp only [Ahead, hp, hm, hrank]
  omega

theorem ahead_of_key (hkey : candidateKey q a = candidateKey q b)
    (hrank : packRank q (scoredOf q b) ≤ packRank q (scoredOf q a)) :
    Ahead q (scoredOf q a) (scoredOf q b) := by
  have hidx : indexRank q.profile (scoredOf q a).quality =
      indexRank q.profile (scoredOf q b).quality := congrArg Prod.fst hkey
  have hseeders : (scoredOf q a).candidate.seeders.getD 0 =
      (scoredOf q b).candidate.seeders.getD 0 := congrArg (fun k => k.2.1) hkey
  have hsize : (scoredOf q a).candidate.sizeBytes = (scoredOf q b).candidate.sizeBytes :=
    congrArg (fun k => k.2.2) hkey
  simp only [Ahead]
  omega

theorem filter_survivors (q : Criteria) (candidates : List CandidateRelease)
    (key : Int × Int × Int) :
    (survivors q candidates).filter (fun scored => rankKey scored == key) =
      (candidates.filter fun c => passing q c && candidateKey q c == key).map (scoredOf q) := by
  rw [survivors_eq, List.filter_map, List.filter_filter]
  congr 2
  funext c
  exact Bool.and_comm _ _

theorem ranked_iff (q : Criteria) (candidates : List CandidateRelease) :
    Ranked q candidates ↔ ¬ Displaced q candidates := by
  -- Scoring leaves the keys and the candidates of what was sorted alone.
  have hkeys : (decide q candidates).accepted.Pairwise
        (fun a b => ¬ KeyLt (rankKey a) (rankKey b)) ↔
      (sorted q candidates).Pairwise fun a b => ¬ KeyLt (rankKey a) (rankKey b) := by
    rw [← List.pairwise_map (R := fun a b => ¬ KeyLt a b),
      map_accepted rankKey (fun _ _ => rfl), List.pairwise_map]
  have hties : ∀ key, ((decide q candidates).accepted.filter fun scored =>
        rankKey scored == key).map (·.candidate) =
      ((sorted q candidates).filter fun scored => rankKey scored == key).map (·.candidate) := by
    intro key
    have hpair := map_accepted (fun scored => (rankKey scored, scored.candidate))
      (fun _ _ => rfl) q candidates
    have hfiltered := congrArg (fun l => (l.filter fun pair => pair.1 == key).map Prod.snd) hpair
    simp only [List.filter_map, List.map_map] at hfiltered
    exact hfiltered
  simp only [Ranked, hkeys, hties]
  constructor
  · rintro ⟨hsort, hstable⟩ ⟨hpref, pack, multi, hpack, hmul, hidx, hcase⟩
    -- The comparator has the season pack ahead, whatever the keys say.
    have hnot := not_ahead_of_packs hpref hpack.2 hmul.2 hidx
    rcases hcase with ⟨hlt, hp, hm⟩ | ⟨hkey, hsub⟩
    · have hne : scoredOf q pack ≠ scoredOf q multi := by
        intro heq
        have hprs : q.parser pack.title = q.parser multi.title :=
          congrArg ScoredRelease.parsed heq
        rw [hprs, hmul.2] at hpack
        exact nomatch hpack.2
      rcases StableSort.pair_sublist (scoredOf_mem_sorted hp hpack.1)
        (scoredOf_mem_sorted hm hmul.1) hne with hsub | hsub
      · exact List.pairwise_pair.mp (hsort.sublist hsub) hlt
      · exact hnot (List.pairwise_pair.mp ((sorted_ahead q candidates).sublist hsub))
    · have hboth : List.Sublist [multi, pack] (candidates.filter fun c =>
          passing q c && candidateKey q c == candidateKey q pack) := by
        have hfilt := hsub.filter fun c => passing q c && candidateKey q c == candidateKey q pack
        simpa [hpack.1, hmul.1, hkey] using hfilt
      rw [← hstable] at hboth
      exact hnot (ahead_of_sublist hboth)
  · intro hnone
    refine ⟨?_, ?_⟩
    · refine (sorted_ahead q candidates).imp_of_mem ?_
      intro a b ha hb hahead hlt
      rcases mem_sorted ha with ⟨ca, hca, hpa, rfl⟩
      rcases mem_sorted hb with ⟨cb, hcb, hpb, rfl⟩
      by_cases hrank : packRank q (scoredOf q ca) = packRank q (scoredOf q cb)
      · have ha : (scoredOf q ca).profileIndex = indexRank q.profile (scoredOf q ca).quality := rfl
        have hb : (scoredOf q cb).profileIndex = indexRank q.profile (scoredOf q cb).quality := rfl
        simp only [Ahead, ← ha, ← hb] at hahead
        simp only [KeyLt, rankKey] at hlt
        omega
      · -- The comparator went by the packs, against the keys.
        have hidx : (candidateKey q ca).1 = (candidateKey q cb).1 ∧
            packRank q (scoredOf q cb) < packRank q (scoredOf q ca) := by
          have hlt' : indexRank q.profile (scoredOf q ca).quality ≤
              indexRank q.profile (scoredOf q cb).quality := by
            rcases hlt with h | h
            · exact Int.le_of_lt h
            · exact Int.le_of_eq h.1
          simp only [Ahead] at hahead
          refine ⟨?_, by omega⟩
          exact (by omega : indexRank q.profile (scoredOf q ca).quality =
            indexRank q.profile (scoredOf q cb).quality)
        rcases packs_of_packRank_lt hpb hidx.2 with ⟨hpref, hpack, hmul⟩
        exact hnone ⟨hpref, ca, cb, ⟨hpa, hpack⟩, ⟨hpb, hmul⟩, hidx.1,
          .inl ⟨hlt, hca, hcb⟩⟩
    · intro key
      -- Of one key none is ahead of an earlier one, so the sort keeps their order.
      have hord : ((survivors q candidates).filter fun scored =>
          rankKey scored == key).Pairwise (Ahead q) := by
        rw [filter_survivors, List.pairwise_map, List.pairwise_iff_forall_sublist]
        intro a b hsub
        have hin : ∀ c ∈ [a, b], passing q c = true ∧ candidateKey q c = key := by
          intro c hc
          have hmem := (List.mem_filter.mp (hsub.subset hc)).2
          simpa using hmem
        have ha := hin a List.mem_cons_self
        have hb := hin b (List.mem_cons_of_mem _ List.mem_cons_self)
        refine ahead_of_key (ha.2.trans hb.2.symm) (Int.not_lt.mp fun hlt => ?_)
        rcases packs_of_packRank_lt ha.1 hlt with ⟨hpref, hpack, hmul⟩
        have hkey : candidateKey q b = candidateKey q a := hb.2.trans ha.2.symm
        exact hnone ⟨hpref, b, a, ⟨hb.1, hpack⟩, ⟨ha.1, hmul⟩, congrArg Prod.fst hkey,
          .inr ⟨hkey, hsub.trans List.filter_sublist⟩⟩
      rw [filter_sorted q candidates _ hord, filter_survivors, List.map_map]
      exact List.map_id _

/-- The result neither loses nor duplicates a candidate, goes by the first gate
    each fails, and ranks as documented. -/
structure Faithful (q : Criteria) (candidates : List CandidateRelease) : Prop where
  partitioned : Partitioned q candidates
  gated : Gated q candidates
  ranked : Ranked q candidates
  scored : Scored q candidates

/-- A result is faithful exactly where no pack is displaced. -/
theorem faithful_iff (q : Criteria) (candidates : List CandidateRelease) :
    Faithful q candidates ↔ ¬ Displaced q candidates := by
  rw [← ranked_iff]
  exact ⟨Faithful.ranked, fun h =>
    ⟨partitioned q candidates, gated q candidates, h, scored q candidates⟩⟩

/-- A whole show is asked for, none of it is there, and titles are read as
    `S01-S03` or as `S02`. -/
def wholeShow : Criteria where
  parser title :=
    { rawTitle := title
      cleanTitle := "Show"
      season := if title = "Show.S01-S03.1080p.WEB-DL" then .many [1, 2, 3] else .one 2
      source := .webdl
      resolution := .r1080p }
  profile := defaultProfile
  mediaMatch _ _ := true
  isBlocklisted _ _ := false
  preferSeasonPack := true
  multiSeasonIntent := some
    { mode := .wholeShow
      requestedSeasons := [1, 2, 3]
      seasons := [⟨1, .pending, none, none⟩, ⟨2, .pending, none, none⟩, ⟨3, .pending, none, none⟩] }

def seasonTwo : CandidateRelease where
  guid := "2"
  title := "Show.S02.1080p.WEB-DL"
  sizeBytes := 10
  seeders := some 5
  indexerId := 1
  indexerName := "indexer"
  publishDate := 0

def allSeasons : CandidateRelease where
  guid := "1"
  title := "Show.S01-S03.1080p.WEB-DL"
  sizeBytes := 30
  seeders := some 500
  indexerId := 1
  indexerName := "indexer"
  publishDate := 0

/-- The pack of all three seasons has a hundred times the seeders, and is ranked
    below the pack of the second. -/
theorem ranking_displaces_pack :
    ¬ ∀ (q : Criteria) (candidates : List CandidateRelease), Faithful q candidates := by
  intro h
  refine (ranked_iff wholeShow [seasonTwo, allSeasons]).mp (h _ _).ranked ?_
  refine ⟨rfl, seasonTwo, allSeasons, ⟨by decide, by decide⟩, ⟨by decide, by decide⟩, by decide,
    .inl ⟨.inr ⟨by decide, .inl (by decide)⟩, by decide, by decide⟩⟩

end DecisionEngine

end PlexManager
