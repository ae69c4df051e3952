import PlexManager.Core.SeasonPlan
import PlexManager.Lib.AssocList
import PlexManager.Lib.Transition
import Mathlib.Data.Fintype.EquivFin
import Mathlib.Data.Set.Basic

/-!
# What a request for a show wants

Every call that joins a request for a show widens what is wanted: the whole show, seasons,
or episodes of seasons. Three columns say what that is, and here they are read as a set of
episodes. A season that is requested without episodes stands for all of them, and so does
one whose list of episodes is empty.

Merging reads an empty list as no episodes at all. So a join is a union only as long as no
season has an empty list on one side and episodes on the other. Where that is so at every
call, nothing depends on the order of the calls or on how often each of them is made.

## Theorems

* `merge_joins_iff`: The same for a request that calls have joined, and what follows.
* `empty_list_narrows`: A request that an empty list narrows.
-/

namespace PlexManager

namespace Seasons

open AssocList

variable (i : TvRequestIntent) (first : TvAsk) (more : List TvAsk)

/-- What an intent says of one season: the episodes that are listed for it, or `none` where
    all of them are wanted. -/
def TvRequestIntent.listed (season : Int) : Option (List Int) :=
  (i.requestedEpisodes.lookup season).filter (· ≠ [])

/-- The episodes that an intent wants. -/
def TvRequestIntent.wants : Set (Int × Int) :=
  {p | i.mode = .wholeShow ∨
    p.1 ∈ i.requestedSeasons.getD [] ∧ ∀ episodes ∈ i.listed p.1, p.2 ∈ episodes}

instance (i : TvRequestIntent) (p : Int × Int) : Decidable (p ∈ i.wants) :=
  inferInstanceAs (Decidable (_ ∨ _))

/-- Where both list episodes of a season, neither list is empty or both are. -/
def TvRequestIntent.Compatible (ask : TvAsk) : Prop :=
  ∀ entry ∈ ask.episodes, ∀ before ∈ i.requestedEpisodes.lookup entry.1,
    before = [] ↔ entry.2 = []

instance (i : TvRequestIntent) (ask : TvAsk) : Decidable (i.Compatible ask) :=
  inferInstanceAs (Decidable (∀ _ ∈ _, _))

/-- What every stored intent keeps to. -/
structure TvRequestIntent.Tidy : Prop where
  whole : i.mode = .wholeShow → i.requestedEpisodes = []
  listed : ∀ n ∈ i.requestedEpisodes.map (·.1), n ∈ i.requestedSeasons.getD []

variable {i : TvRequestIntent} {ask : TvAsk} {n : Int} {values : List Int}
  {incoming : TvRequestIntent}

-- No season is in the episodes of a call twice, so it can be asked season by season.
theorem compatible_iff (i : TvRequestIntent) (ask : TvAsk) :
    i.Compatible ask ↔
      ∀ n, ∀ before ∈ i.requestedEpisodes.lookup n, ∀ now ∈ ask.episodes.lookup n,
        before = [] ↔ now = [] := by
  constructor
  · intro h n before hbef now hnow
    exact h (n, now) ((lookup_eq_some ask.distinct).mp hnow) before hbef
  · intro h entry hent before hbef
    exact h entry.1 before hbef entry.2 ((lookup_eq_some ask.distinct).mpr hent)

@[simp] theorem sortedSet_eq_nil {xs : List Int} : sortedSet xs = [] ↔ xs = [] := by
  rw [List.eq_nil_iff_forall_not_mem, List.eq_nil_iff_forall_not_mem]
  simp only [mem_sortedSet]

/-! ### Looking up a season -/

theorem lookup_addEpisodes (episodes : List (Int × List Int)) (season : Int) (values : List Int)
    (n : Int) :
    (addEpisodes episodes season values).lookup n =
      if n = season then some (sortedSet ((episodes.lookup season).getD [] ++ values))
      else episodes.lookup n := by
  unfold addEpisodes
  by_cases hmem : season ∈ episodes.map (·.1)
  · -- The entry that is there is rewritten in place.
    have hrewrite : (episodes.map fun entry =>
          if entry.1 = season then (season, sortedSet (entry.2 ++ values)) else entry) =
        episodes.map fun entry => (entry.1,
          (fun key before => if key = season then sortedSet (before ++ values) else before)
            entry.1 entry.2) := by
      refine List.map_congr_left fun entry _ => ?_
      by_cases hent : entry.1 = season
      · simp [hent]
      · simp [hent]
    rw [if_pos hmem, hrewrite,
      lookup_map_values fun key before =>
        if key = season then sortedSet (before ++ values) else before]
    by_cases hn : n = season
    · rcases Option.isSome_iff_exists.mp (lookup_isSome.mpr hmem) with ⟨before, hbef⟩
      simp [hn, hbef]
    · simp [hn]
  · -- A new one goes to the end, where nothing before it has its key.
    rw [if_neg hmem, lookup_eq_none.mpr hmem, List.lookup_append]
    by_cases hn : n = season
    · simp [hn, lookup_eq_none.mpr hmem]
    · simp [hn, List.lookup_cons, beq_eq_false_iff_ne.mpr hn]

/-! ### The merge of episodes -/

theorem mem_mergeEpisodes (merged : List Int × List (Int × List Int)) (entry : Int × List Int) :
    n ∈ (mergeEpisodes merged entry).1 ↔ n ∈ merged.1 ∨ n = entry.1 := by
  unfold mergeEpisodes
  split
  · rename_i hall
    constructor
    · exact .inl
    · rintro (h | rfl)
      · exact h
      · exact hall.1
  · rw [List.mem_cons, or_comm]

theorem lookup_mergeEpisodes (merged : List Int × List (Int × List Int)) (entry : Int × List Int) :
    (mergeEpisodes merged entry).2.lookup n =
      if n = entry.1 then
        if n ∈ merged.1 ∧ merged.2.lookup n = none then none
        else some (sortedSet ((merged.2.lookup n).getD [] ++ entry.2))
      else merged.2.lookup n := by
  unfold mergeEpisodes
  by_cases hn : n = entry.1
  · subst hn
    by_cases hall : entry.1 ∈ merged.1 ∧ entry.1 ∉ merged.2.map (·.1)
    · have hnone := lookup_eq_none.mpr hall.2
      rw [if_pos hall, if_pos rfl, if_pos ⟨hall.1, hnone⟩, hnone]
    · have hlist : ¬ (entry.1 ∈ merged.1 ∧ merged.2.lookup entry.1 = none) :=
        fun h => hall ⟨h.1, lookup_eq_none.mp h.2⟩
      rw [if_neg hall, if_pos rfl, if_neg hlist, lookup_addEpisodes, if_pos rfl]
  · rw [if_neg hn]
    split
    · rfl
    · rw [lookup_addEpisodes, if_neg hn]

-- The loop over the episodes of a call, season by season. A season that is wanted as a whole
-- is left so, and no other entry of the call is about the same season.
theorem foldl_mergeEpisodes (entries : List (Int × List Int))
    (hdist : (entries.map (·.1)).Nodup) (merged : List Int × List (Int × List Int)) :
    (n ∈ (entries.foldl mergeEpisodes merged).1 ↔ n ∈ merged.1 ∨ n ∈ entries.map (·.1)) ∧
      (entries.foldl mergeEpisodes merged).2.lookup n =
        match entries.lookup n with
        | none => merged.2.lookup n
        | some values =>
          if n ∈ merged.1 ∧ merged.2.lookup n = none then none
          else some (sortedSet ((merged.2.lookup n).getD [] ++ values)) := by
  induction entries generalizing merged with
  | nil => simp
  | cons entry rest ih =>
    rw [List.map_cons, List.nodup_cons] at hdist
    rcases ih hdist.2 (mergeEpisodes merged entry) with ⟨hmem, hlook⟩
    refine ⟨?_, ?_⟩
    · rw [List.foldl_cons, hmem, mem_mergeEpisodes, List.map_cons, List.mem_cons, or_assoc]
    · rw [List.foldl_cons, hlook, List.lookup_cons]
      by_cases hn : n = entry.1
      · -- The rest of the call says nothing of this season.
        have hrest : rest.lookup n = none := lookup_eq_none.mpr (hn ▸ hdist.1)
        rw [hrest, lookup_mergeEpisodes, if_pos hn, beq_iff_eq.mpr hn]
      · have hsame : n ∈ (mergeEpisodes merged entry).1 ↔ n ∈ merged.1 := by
          rw [mem_mergeEpisodes, or_iff_left hn]
        simp only [lookup_mergeEpisodes, if_neg hn, beq_eq_false_iff_ne.mpr hn, hsame]

/-! ### The merge, mode by mode -/

theorem merge_of_wholeShow (h : i.mode = .wholeShow) (incoming : TvRequestIntent) :
    mergeTvRequestIntent i incoming = i := by
  unfold mergeTvRequestIntent
  rw [h]

theorem merge_episodes (h : i.mode ≠ .wholeShow) (hinc : incoming.mode = .explicitEpisodes) :
    let merged := incoming.requestedEpisodes.foldl mergeEpisodes
      (i.requestedSeasons.getD [] ++ i.requestedEpisodes.map (·.1), i.requestedEpisodes)
    let result := mergeTvRequestIntent i incoming
    result.mode ≠ .wholeShow ∧ result.requestedSeasons = some (sortedSet merged.1) ∧
      result.requestedEpisodes = merged.2 := by
  unfold mergeTvRequestIntent
  rw [hinc]
  cases hmode : i.mode with
  | wholeShow => exact absurd hmode h
  | explicitSeasons | explicitEpisodes =>
    refine ⟨?_, rfl, rfl⟩
    dsimp only
    split
    · exact TvRequestMode.noConfusion
    · exact TvRequestMode.noConfusion

theorem merge_seasons (h : i.mode ≠ .wholeShow) {incoming : TvRequestIntent}
    (hinc : incoming.mode = .explicitSeasons) :
    let named := incoming.requestedSeasons.getD []
    let result := mergeTvRequestIntent i incoming
    result.mode ≠ .wholeShow ∧
      result.requestedSeasons = some (sortedSet
        (i.requestedSeasons.getD [] ++ i.requestedEpisodes.map (·.1) ++ named)) ∧
      result.requestedEpisodes = i.requestedEpisodes.filter fun entry => entry.1 ∉ named := by
  unfold mergeTvRequestIntent
  rw [hinc]
  cases hmode : i.mode with
  | wholeShow => exact absurd hmode h
  | explicitSeasons | explicitEpisodes =>
    refine ⟨?_, rfl, rfl⟩
    dsimp only
    split
    · exact TvRequestMode.noConfusion
    · exact TvRequestMode.noConfusion

theorem merge_wholeShow (h : i.mode ≠ .wholeShow)
    (hinc : incoming.mode = .wholeShow) : mergeTvRequestIntent i incoming = incoming := by
  unfold mergeTvRequestIntent
  rw [hinc]
  cases hmode : i.mode with
  | wholeShow => exact absurd hmode h
  | explicitSeasons | explicitEpisodes => rfl

/-! ### What is asked for -/

theorem intent_of_episodes (h : ask.episodes ≠ []) :
    ask.intent.mode = .explicitEpisodes ∧
      ask.intent.requestedSeasons = some (sortedSet (ask.episodes.map (·.1))) ∧
      ask.intent.requestedEpisodes = ask.episodes.map fun entry => (entry.1,
        sortedSet entry.2) := by
  unfold TvAsk.intent tvRequestIntent
  simp [h]

theorem nodup_asked (h : ask.episodes ≠ []) :
    (ask.intent.requestedEpisodes.map (·.1)).Nodup := by
  rw [(intent_of_episodes h).2.2, List.map_map]
  exact ask.distinct

theorem intent_of_seasons (h : ask.episodes = []) (hseas : ask.seasons ≠ []) :
    ask.intent = ⟨.explicitSeasons, some (sortedSet ask.seasons), []⟩ := by
  unfold TvAsk.intent tvRequestIntent
  simp [h, hseas]

theorem intent_of_nothing (h : ask.episodes = []) (hseas : ask.seasons = []) :
    ask.intent = ⟨.wholeShow, none, []⟩ := by
  unfold TvAsk.intent tvRequestIntent
  simp [h, hseas]

theorem lookup_intent (ask : TvAsk) (n : Int) :
    ask.intent.requestedEpisodes.lookup n = (ask.episodes.lookup n).map sortedSet := by
  by_cases h : ask.episodes = []
  · by_cases hseas : ask.seasons = []
    · rw [intent_of_nothing h hseas, h]
      rfl
    · rw [intent_of_seasons h hseas, h]
      rfl
  · rw [(intent_of_episodes h).2.2]
    exact lookup_map_values (fun _ => sortedSet) ask.episodes n

theorem tidy_intent (ask : TvAsk) : ask.intent.Tidy := by
  by_cases h : ask.episodes = []
  · by_cases hseas : ask.seasons = []
    · rw [intent_of_nothing h hseas]
      exact ⟨fun _ => rfl, fun n hn => absurd hn nofun⟩
    · rw [intent_of_seasons h hseas]
      exact ⟨fun _ => rfl, fun n hn => absurd hn nofun⟩
  · rcases intent_of_episodes h with ⟨hmode, hseas, heps⟩
    refine ⟨fun hall => absurd (hmode.symm.trans hall) (by decide), fun n hn => ?_⟩
    rw [heps, List.map_map] at hn
    rw [hseas, Option.getD_some, mem_sortedSet]
    exact hn

/-! ### What is stored -/

theorem listed_stored (i : TvRequestIntent) (n : Int) :
    i.stored.listed n = (i.listed n).map sortedSet := by
  have hlook : i.stored.requestedEpisodes.lookup n = (i.requestedEpisodes.lookup n).map sortedSet :=
    lookup_map_values (fun _ => sortedSet) i.requestedEpisodes n
  rw [TvRequestIntent.listed, hlook, TvRequestIntent.listed]
  cases i.requestedEpisodes.lookup n with
  | none => rfl
  | some values =>
    by_cases hvals : values = []
    · simp [hvals, Option.filter]
    · simp [hvals, Option.filter]

theorem wants_stored (i : TvRequestIntent) : i.stored.wants = i.wants := by
  have hseas : ∀ n, n ∈ i.stored.requestedSeasons.getD [] ↔ n ∈ i.requestedSeasons.getD [] := by
    intro n
    unfold TvRequestIntent.stored
    cases i.requestedSeasons with
    | none => rfl
    | some seasons => simp
  ext ⟨n, e⟩
  change i.mode = .wholeShow ∨ n ∈ i.stored.requestedSeasons.getD [] ∧
      (∀ episodes ∈ i.stored.listed n, e ∈ episodes) ↔
    i.mode = .wholeShow ∨ n ∈ i.requestedSeasons.getD [] ∧ ∀ episodes ∈ i.listed n, e ∈ episodes
  rw [hseas, listed_stored]
  simp [Option.mem_def, Option.map_eq_some_iff]

theorem tidy_stored (h : i.Tidy) : i.stored.Tidy := by
  refine ⟨fun hall => ?_, fun n hn => ?_⟩
  · have hnone := h.whole hall
    unfold TvRequestIntent.stored
    rw [hnone]
    rfl
  · unfold TvRequestIntent.stored at hn ⊢
    rw [List.map_map] at hn
    have hmem := h.listed n hn
    cases hseas : i.requestedSeasons with
    | none =>
      rw [hseas] at hmem
      exact hmem
    | some seasons =>
      rw [hseas, Option.getD_some] at hmem
      simpa using hmem

/-! ### The join -/

theorem mem_wants {e : Int} :
    (n, e) ∈ i.wants ↔ i.mode = .wholeShow ∨
      n ∈ i.requestedSeasons.getD [] ∧ ∀ episodes ∈ i.listed n, e ∈ episodes := .rfl

theorem exists_not_listed (values : List Int) : ∃ e : Int, e ∉ values := by
  rcases Infinite.exists_notMem_finset values.toFinset with ⟨e, he⟩
  exact ⟨e, fun h => he (List.mem_toFinset.mpr h)⟩

/-- What a list of episodes of a season stands for: without any in it, for all. -/
def Covers (values : List Int) (e : Int) : Prop := values = [] ∨ e ∈ values

theorem listed_of_lookup (h : i.requestedEpisodes.lookup n = some values) (e : Int) :
    (∀ episodes ∈ i.listed n, e ∈ episodes) ↔ Covers values e := by
  unfold TvRequestIntent.listed Covers
  rw [h]
  by_cases hvals : values = []
  · simp [hvals]
  · simp [hvals, Option.filter]

theorem listed_of_lookup_none (h : i.requestedEpisodes.lookup n = none) (e : Int) :
    ∀ episodes ∈ i.listed n, e ∈ episodes := by
  unfold TvRequestIntent.listed
  rw [h]
  simp

-- Two lists of one season put together stand for what either stands for, unless just one of
-- them is empty.
theorem covers_append (before now : List Int) :
    (∀ e, Covers (sortedSet (before ++ now)) e ↔ Covers before e ∨ Covers now e) ↔
      (before = [] ↔ now = []) := by
  unfold Covers
  constructor
  · intro h
    -- An episode that neither list names is covered by an empty list alone.
    rcases exists_not_listed (before ++ now) with ⟨e, he⟩
    by_cases hbef : before = []
    · by_cases hnow : now = []
      · simp [hbef, hnow]
      · simp_all
    · by_cases hnow : now = []
      · simp_all
      · simp [hbef, hnow]
  · intro h e
    by_cases hbef : before = []
    · simp [hbef, h.mp hbef]
    · have hnow : now ≠ [] := fun hnow => hbef (h.mpr hnow)
      simp [hbef, hnow]

-- A call that lists episodes is joined to a request for less than the whole show. One season
-- is looked at by itself: whether it is in the request, and what is listed.
theorem season_merge_episodes (hi : i.Tidy) (hmode : i.mode ≠ .wholeShow)
    (hask : ask.episodes ≠ []) (n : Int) :
    (∀ e, (n, e) ∈ (mergeTvRequestIntent i ask.intent).wants ↔
        (n, e) ∈ i.wants ∨ (n, e) ∈ ask.intent.wants) ↔
      ∀ before ∈ i.requestedEpisodes.lookup n, ∀ now ∈ ask.episodes.lookup n,
        before = [] ↔ now = [] := by
  rcases intent_of_episodes hask with ⟨haskmode, haskseasons, haskepisodes⟩
  rcases merge_episodes hmode haskmode with ⟨hmrg, hseas, heps⟩
  rcases foldl_mergeEpisodes ask.intent.requestedEpisodes (nodup_asked hask)
    (i.requestedSeasons.getD [] ++ i.requestedEpisodes.map (·.1), i.requestedEpisodes) with
    ⟨hmem, hlook⟩
  rw [← heps, lookup_intent] at hlook
  have hkeys : ask.intent.requestedEpisodes.map (·.1) = ask.episodes.map (·.1) := by
    rw [haskepisodes, List.map_map]
    rfl
  have hin : n ∈ i.requestedSeasons.getD [] ++ i.requestedEpisodes.map (·.1) ↔
      n ∈ i.requestedSeasons.getD [] := by
    rw [List.mem_append]
    exact ⟨fun h => h.elim id (hi.listed n), .inl⟩
  rw [hkeys, hin] at hmem
  simp only [mem_wants, hmode, haskmode, hmrg, false_or, reduceCtorEq, hseas, haskseasons,
    Option.getD_some, mem_sortedSet, hmem]
  cases hnow : ask.episodes.lookup n with
  | none =>
    -- The call says nothing of the season, and all stays as it was.
    rw [hnow, Option.map_none] at hlook
    have hnotAsked := lookup_eq_none.mp hnow
    unfold TvRequestIntent.listed
    simp [hlook, hnotAsked]
  | some now =>
    have hasked : n ∈ ask.episodes.map (·.1) := lookup_isSome.mp (hnow ▸ rfl)
    have haskLookup : ask.intent.requestedEpisodes.lookup n = some (sortedSet now) := by
      rw [lookup_intent, hnow, Option.map_some]
    have hcov : ∀ e, Covers (sortedSet now) e ↔ Covers now e := by simp [Covers]
    rw [hnow, Option.map_some] at hlook
    simp only [hin] at hlook
    simp only [hasked, or_true, true_and, listed_of_lookup haskLookup, hcov]
    cases hbef : i.requestedEpisodes.lookup n with
    | none =>
      by_cases hall : n ∈ i.requestedSeasons.getD []
      · -- The season is wanted as a whole, and the list is dropped.
        rw [hbef, if_pos ⟨hall, rfl⟩] at hlook
        have hbroad := listed_of_lookup_none hlook
        have hwant := listed_of_lookup_none hbef
        exact iff_of_true (fun e => iff_of_true (hbroad e) (.inl ⟨hall, hwant e⟩)) (by simp)
      · rw [hbef, if_neg fun h => hall h.1] at hlook
        simp only [listed_of_lookup hlook, hall, false_and, false_or]
        simp [Covers]
    | some before =>
      have hstored : n ∈ i.requestedSeasons.getD [] :=
        hi.listed n (lookup_isSome.mp (hbef ▸ rfl))
      rw [hbef, if_neg fun h => by simp at h] at hlook
      simp only [Option.getD_some] at hlook
      have happ := covers_append before (sortedSet now)
      simp only [hcov, sortedSet_eq_nil] at happ
      simp only [listed_of_lookup hlook, listed_of_lookup hbef, hstored, true_and,
        happ]
      simp

theorem wants_of_wholeShow (h : i.mode = .wholeShow) : i.wants = Set.univ :=
  Set.eq_univ_of_forall fun _ => .inl h

-- A call without episodes always joins: it asks for whole seasons, or for all there is.
theorem wants_merge_of_no_episodes (hi : i.Tidy) (hask : ask.episodes = []) :
    (mergeTvRequestIntent i ask.intent).wants = i.wants ∪ ask.intent.wants := by
  by_cases hwhole : i.mode = .wholeShow
  · rw [merge_of_wholeShow hwhole, wants_of_wholeShow hwhole, Set.univ_union]
  by_cases hseas : ask.seasons = []
  · have hnothing := intent_of_nothing hask hseas
    have hmode : ask.intent.mode = .wholeShow := by rw [hnothing]
    rw [merge_wholeShow hwhole hmode, wants_of_wholeShow hmode, Set.union_univ]
  have hname := intent_of_seasons hask hseas
  rcases @merge_seasons i hwhole ask.intent (by rw [hname]) with
    ⟨hmrg, hall, heps⟩
  rw [hname] at hmrg hall heps ⊢
  simp only [Option.getD_some] at hall heps
  ext ⟨n, e⟩
  have hlook := lookup_filter_keys (fun key => decide (key ∉ sortedSet ask.seasons))
    i.requestedEpisodes n
  rw [← heps] at hlook
  have hmem : n ∈ i.requestedSeasons.getD [] ++ i.requestedEpisodes.map (·.1) ++
      sortedSet ask.seasons ↔ n ∈ i.requestedSeasons.getD [] ∨ n ∈ ask.seasons := by
    simp only [List.mem_append, mem_sortedSet]
    exact ⟨fun h => h.elim (fun h => .inl (h.elim id (hi.listed n))) .inr,
      fun h => h.elim (fun h => .inl (.inl h)) .inr⟩
  rw [Set.mem_union, mem_wants, mem_wants, mem_wants, hall, Option.getD_some, mem_sortedSet, hmem]
  simp only [hmrg, hwhole, reduceCtorEq, false_or, Option.getD_some, mem_sortedSet]
  by_cases hn : n ∈ ask.seasons
  · -- A season that is named has its list taken away.
    have hdropped := listed_of_lookup_none
      (hlook.trans (if_neg (by simp only [mem_sortedSet, hn, not_true, decide_false]; decide)))
    exact iff_of_true ⟨.inr hn, hdropped e⟩ (.inr ⟨hn, listed_of_lookup_none rfl e⟩)
  · have hkept := hlook.trans (if_pos (by simp only [mem_sortedSet, hn]; decide))
    unfold TvRequestIntent.listed
    rw [hkept]
    simp [hn]

-- Joining a call to a request adds what the call wants, exactly if no season has an empty list
-- on one side and a list with episodes on the other.
theorem wants_merge_iff (hi : i.Tidy) (ask : TvAsk) :
    (mergeTvRequestIntent i ask.intent).wants = i.wants ∪ ask.intent.wants ↔ i.Compatible ask := by
  by_cases hask : ask.episodes = []
  · refine iff_of_true (wants_merge_of_no_episodes hi hask) fun entry hent => ?_
    rw [hask] at hent
    exact nomatch hent
  by_cases hall : i.mode = .wholeShow
  · refine iff_of_true ?_ fun entry _ before hbef => ?_
    · rw [merge_of_wholeShow hall, wants_of_wholeShow hall, Set.univ_union]
    · rw [hi.whole hall] at hbef
      exact nomatch hbef
  · rw [compatible_iff, Set.ext_iff, Prod.forall]
    exact forall_congr' fun n => season_merge_episodes hi hall hask n

theorem tidy_merge (hi : i.Tidy) (ask : TvAsk) : (mergeTvRequestIntent i ask.intent).Tidy := by
  by_cases hwhole : i.mode = .wholeShow
  · rw [merge_of_wholeShow hwhole]
    exact hi
  by_cases hask : ask.episodes = []
  · by_cases hseas : ask.seasons = []
    · have hmode : ask.intent.mode = .wholeShow := by rw [intent_of_nothing hask hseas]
      rw [merge_wholeShow hwhole hmode]
      exact tidy_intent ask
    · rcases @merge_seasons i hwhole ask.intent
        (by rw [intent_of_seasons hask hseas]) with ⟨hmrg, hall, heps⟩
      refine ⟨fun h => absurd h hmrg, fun n hn => ?_⟩
      rw [hall, Option.getD_some, mem_sortedSet, List.mem_append, List.mem_append]
      rw [heps] at hn
      rcases List.mem_map.mp hn with ⟨entry, hent, rfl⟩
      exact .inl (.inr (List.mem_map_of_mem (List.mem_filter.mp hent).1))
  · rcases intent_of_episodes hask with ⟨haskmode, -, haskepisodes⟩
    rcases merge_episodes hwhole haskmode with ⟨hmrg, hall, heps⟩
    refine ⟨fun h => absurd h hmrg, fun n hn => ?_⟩
    rcases foldl_mergeEpisodes ask.intent.requestedEpisodes (nodup_asked hask)
      (i.requestedSeasons.getD [] ++ i.requestedEpisodes.map (·.1), i.requestedEpisodes) with
      ⟨hmem, hlook⟩
    rw [hall, Option.getD_some, mem_sortedSet, hmem]
    -- What has a list had one before, or gets it from the call.
    by_cases hasked : n ∈ ask.intent.requestedEpisodes.map (·.1)
    · exact .inr hasked
    · rw [heps, ← lookup_isSome, hlook, lookup_eq_none.mpr hasked] at hn
      exact .inl (List.mem_append_right _ (lookup_isSome.mp hn))

theorem tidy_intentAfter : (intentAfter first more).Tidy := by
  unfold intentAfter
  induction more using List.reverseRecOn with
  | nil => exact tidy_stored (tidy_intent first)
  | append_singleton rest ask ih =>
    rw [List.foldl_append]
    exact tidy_stored (tidy_merge ih ask)

/-! ### All calls together -/

/-- Every call that joins is compatible with what is stored by then. -/
def JoinsCompatible : Prop :=
  Transition.StepsMeet (fun i ask => some (TvRequestIntent.join i ask))
    TvRequestIntent.Compatible first.intent.stored more

theorem wants_of_joins (h : JoinsCompatible first more) :
    (intentAfter first more).wants = {p | ∃ ask ∈ first :: more, p ∈ ask.intent.wants} := by
  have hrun : ∀ (more : List TvAsk) (i : TvRequestIntent), i.Tidy →
      Transition.StepsMeet (fun i ask => some (TvRequestIntent.join i ask))
        TvRequestIntent.Compatible i more →
      (more.foldl TvRequestIntent.join i).wants =
        i.wants ∪ {p | ∃ ask ∈ more, p ∈ ask.intent.wants} := by
    intro more
    induction more with
    | nil =>
      simp
    | cons ask more ih =>
      intro i hi hmeet
      have hjoin : (i.join ask).wants = i.wants ∪ ask.intent.wants := by
        rw [TvRequestIntent.join, wants_stored]
        exact (wants_merge_iff hi ask).mpr hmeet.1
      rw [List.foldl_cons, ih (i.join ask) (tidy_stored (tidy_merge hi ask)) hmeet.2, hjoin,
        Set.union_assoc]
      ext p
      simp [or_and_right, exists_or]
  rw [intentAfter, hrun more first.intent.stored (tidy_stored (tidy_intent first)) h, wants_stored]
  ext p
  simp

/-- What a request wants after a call is what it wanted before together with what the call
    asks for, exactly if no season has an empty list of episodes on one side and episodes on
    the other. Where this is so at every call, all of them together are wanted: in any
    order, and not more if one of them is repeated. -/
theorem merge_joins_iff (first : TvAsk) (more : List TvAsk) :
    (∀ again : TvAsk, ((intentAfter first more).join again).wants =
            (intentAfter first more).wants ∪ again.intent.wants ↔
          (intentAfter first more).Compatible again) ∧
      (JoinsCompatible first more →
        (intentAfter first more).wants = {p | ∃ ask ∈ first :: more, p ∈ ask.intent.wants} ∧
        (∀ (first' : TvAsk) (more' : List TvAsk), (first' :: more').Perm (first :: more) →
          JoinsCompatible first' more' →
          (intentAfter first' more').wants = (intentAfter first more).wants) ∧
        ∀ again : TvAsk, (intentAfter first more).Compatible again →
          (intentAfter first more).wants ⊆ ((intentAfter first more).join again).wants ∧
          (again ∈ first :: more →
            ((intentAfter first more).join again).wants = (intentAfter first more).wants)) := by
  have hjoin : ∀ again : TvAsk, ((intentAfter first more).join again).wants =
          (intentAfter first more).wants ∪ again.intent.wants ↔
        (intentAfter first more).Compatible again := by
    intro again
    rw [TvRequestIntent.join, wants_stored]
    exact wants_merge_iff (tidy_intentAfter first more) again
  refine ⟨hjoin, fun hmeet => ?_⟩
  have hall := wants_of_joins first more hmeet
  refine ⟨hall, fun first' more' hperm hmeet' => ?_, fun again hagain => ⟨?_, fun hmem => ?_⟩⟩
  · rw [hall, wants_of_joins first' more' hmeet']
    ext p
    exact exists_congr fun ask => and_congr_left fun _ => hperm.mem_iff
  · rw [(hjoin again).mpr hagain]
    exact Set.subset_union_left
  · rw [(hjoin again).mpr hagain, hall]
    exact Set.union_eq_left.mpr fun p hp => ⟨again, hmem, hp⟩

theorem merge_joins_iff_pair :
    (intentAfter { episodes := [(1, [5])] }
    [{ seasons := [2] }, { episodes := [(1, [6])] }]).wants =
      {p | ∃ ask ∈ [({ episodes := [(1, [5])] } : TvAsk), { seasons := [2] },
        { episodes := [(1, [6])] }], p ∈ ask.intent.wants} :=
  ((merge_joins_iff _ _).2 (by unfold JoinsCompatible; decide)).1

/-- A request for one episode of a season is joined by one that lists the season without
    episodes, and so means all of it: nothing is added. The other way round the season is
    narrowed to the one episode. -/
theorem empty_list_narrows :
    let one : TvAsk := { episodes := [(1, [5])] }
    let all : TvAsk := { episodes := [(1, [])] }
    ((intentAfter one []).join all).wants ≠ (intentAfter one []).wants ∪ all.intent.wants ∧
      ¬ (intentAfter all []).wants ⊆ ((intentAfter all []).join one).wants := by
  intro one all
  have hasked : (1, 6) ∈ all.intent.wants := by decide
  have hadd : (1, 6) ∉ ((intentAfter one []).join all).wants := by decide
  have hwant : (1, 6) ∈ (intentAfter all []).wants := by decide
  have hnarrowed : (1, 6) ∉ ((intentAfter all []).join one).wants := by decide
  exact ⟨fun h => hadd (h ▸ .inr hasked), fun h => hnarrowed (h hwant)⟩

end Seasons
end PlexManager
