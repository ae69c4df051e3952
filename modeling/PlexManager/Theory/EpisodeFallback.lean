import PlexManager.Core.SeasonLifecycle
import PlexManager.Lib.Transition
import PlexManager.Theory.SeasonPlan

/-!
# No completion without content

The second pass of a grab cycle completes a season without any import, when
every aired episode is marked imported. So the marks must be true: an episode
that is marked must be in the library. Imports and adoptions keep them so. A
deletion does not: it empties the directory and leaves the rows as they are, and
neither the report nor the request that re-arms the season repairs them.

The episodes that a deletion leaves behind marked, and that were not imported
since, are counted along with a run. Every mark is either true or one of them,
and no episode is both, so they decide what a completion is worth: a season is
completed with exactly those episodes of its target missing that are left over.

## Theorems

* `no_completion_without_content`: The guarantee for all runs in which no
  fallback reads a row that is left over.
* `completed_after_purge`: A season whose files are gone is completed.
-/

namespace PlexManager

namespace Seasons

open KeyedTable Episodes Transition

variable {id : Nat} {n : Int}

/-! ### Statuses -/

variable {w w' : Lifecycle} {now today : Int} {db db' : Show} {status : RequestStatus}
  {leftover episodes : List Int} {allowedFrom : List RequestStatus} {answer : Option SeasonAnswer}
  {plex : Option Crawl} {d : SeasonDownload} {downloadId : Nat} {target accepted : List Int}
  {outcome : Lifecycle.FallbackOutcome} {w₁ : Lifecycle} {conflict : Bool}

theorem status_setSeasonStatusIfIn {moved : Bool}
    (h : setSeasonStatusIfIn now id n status allowedFrom db = some (moved, db')) (m : Int) :
    db'.status id m = (db.status id m).map fun s =>
      if m = n ∧ s ∈ allowedFrom then status else s := by
  have hswap := db.status_setStatusIfIn now id n status allowedFrom id m
  unfold setSeasonStatusIfIn at h
  split at h
  · next db₁ heq =>
    rcases Option.map_eq_some_iff.mp h with ⟨db₂, hpar, hpair⟩
    rw [← (Prod.mk.inj hpair).2, status_recomputeParent hpar]
    rw [heq] at hswap
    simpa using hswap
  · next db₁ heq =>
    rw [← (Prod.mk.inj (Option.some.inj h)).2]
    rw [heq] at hswap
    simpa using hswap

theorem not_completed_setSeasonStatusIfIn {moved : Bool}
    (h : setSeasonStatusIfIn now id n status allowedFrom db = some (moved, db'))
    (hst : status ≠ .completed) (hdone : db'.status id n = some .completed) :
    db.status id n = some .completed := by
  rw [status_setSeasonStatusIfIn h] at hdone
  rcases Option.map_eq_some_iff.mp hdone with ⟨s, hs, hmov⟩
  split at hmov
  · exact absurd hmov hst
  rw [hs, hmov]

theorem not_completed_setSeasonStatus {skip : Bool}
    (h : setSeasonStatus now id n status skip db = some db') (hst : status ≠ .completed)
    (hdone : db'.status id n = some .completed) : db.status id n = some .completed := by
  have hensure := db.status_ensure id n .pending false id n
  have hat : (db.ensure id n .pending false).status id n = some .completed →
      db.status id n = some .completed := by
    rw [hensure, if_pos ⟨rfl, rfl⟩]
    cases db.status id n with
    | none | some s => simp
  unfold setSeasonStatus at h
  dsimp only at h
  split at h
  · rw [← Option.some.inj h] at hdone
    exact hat hdone
  · rw [status_recomputeParent h, Show.status_setStatus] at hdone
    rcases Option.map_eq_some_iff.mp hdone with ⟨s, hs, hmov⟩
    rw [if_pos ⟨rfl, rfl⟩] at hmov
    exact absurd hmov hst

theorem Advance.completed {episodeScoped : Bool} {s : Option RequestStatus}
    (h : Advance episodeScoped s (some .completed)) : s = some .completed := by
  cases h with
  | stay => rfl
  | start _ ht => exact absurd ht (by decide)

/-! ### Quiet steps -/

/-- Nothing is marked imported, nothing enters or leaves the library, and the
    season is not completed. -/
structure Quiet (id : Nat) (n : Int) (w w' : Lifecycle) : Prop where
  marks : ∀ e, Imported w'.states e ↔ Imported w.states e
  library : w'.library = w.library
  undone : w'.db.status id n = some .completed → w.db.status id n = some .completed

theorem quiet_request {plan : TvSeasonPlan} {present : Option (List Int)}
    (h : w.request id now plex plan present = some w') : Quiet id n w w' := by
  rcases Option.map_eq_some_iff.mp h with ⟨db, hplan, rfl⟩
  refine ⟨fun e => .rfl, rfl, fun hdone => ?_⟩
  rcases status_ensureTvSeasonPlan hplan n with ⟨hpark, hrest⟩
  by_cases hn : n ∈ plan.waitingSeasons
  · rw [hpark hn] at hdone
    cases hdone
  · have hadv := (hrest hn).1
    rw [hdone] at hadv
    exact hadv.completed

theorem quiet_wake {seasons : List Int}
    (h : w.wake id n now plex seasons = some w') : Quiet id n w w' := by
  unfold Lifecycle.wake at h
  split at h
  · rcases Option.map_eq_some_iff.mp h with ⟨db, hensure, rfl⟩
    refine ⟨fun e => .rfl, rfl, fun hdone => ?_⟩
    have hadv := (advance_ensureSeasons hensure n).1
    rw [hdone] at hadv
    exact hadv.completed
  · cases h

theorem quiet_collect (h : w.collect id n = some w') : Quiet id n w w' := by
  unfold Lifecycle.collect at h
  split at h
  · split at h
    · cases h
      exact ⟨fun e => .rfl, rfl, fun hdone => hdone⟩
    · cases h
  · cases h

theorem quiet_park {attempts : Nat} {next : Int}
    (h : w.park id n now attempts next = some w') : Quiet id n w w' := by
  unfold Lifecycle.park at h
  split at h
  · cases h
  split at h
  · next hswap =>
    cases h
    refine ⟨fun e => .rfl, rfl, fun hdone => ?_⟩
    rw [Show.status_scheduleSearch] at hdone
    exact not_completed_setSeasonStatusIfIn hswap (by decide) hdone
  · cases h

theorem quiet_grab {marked : List Int}
    (h : w.grab id n now d marked = some w') : Quiet id n w w' := by
  unfold Lifecycle.grab at h
  split at h
  · rcases Option.map_eq_some_iff.mp h with ⟨db, hset, rfl⟩
    exact ⟨fun e => imported_markGrabbed marked d.id e w.states, rfl,
      not_completed_setSeasonStatus hset (by decide)⟩
  · cases h

theorem quiet_cover (h : w.cover d = some w') : Quiet id n w w' := by
  unfold Lifecycle.cover at h
  split at h
  · cases h
    exact ⟨fun e => .rfl, rfl, fun hdone => hdone⟩
  · cases h

theorem quiet_fail (h : w.fail id n now downloadId = some w') : Quiet id n w w' := by
  unfold Lifecycle.fail at h
  split at h
  · rcases Option.map_eq_some_iff.mp h with ⟨db, hset, rfl⟩
    exact ⟨fun e => .rfl, rfl, not_completed_setSeasonStatus hset (by decide)⟩
  · cases h

theorem quiet_confirm (h : w.confirm id n now = some w') : Quiet id n w w' := by
  unfold Lifecycle.confirm at h
  split at h
  · next hswap =>
    cases h
    exact ⟨fun e => .rfl, rfl, not_completed_setSeasonStatusIfIn hswap (by decide)⟩
  · cases h

theorem quiet_reportIssue (h : w.reportIssue id n now = some w') : Quiet id n w w' := by
  unfold Lifecycle.reportIssue at h
  split at h
  · split at h
    · rcases Option.map_eq_some_iff.mp h with ⟨db, hset, rfl⟩
      refine ⟨fun e => .rfl, rfl, fun hdone => ?_⟩
      rw [Show.status_scheduleSearch] at hdone
      exact not_completed_setSeasonStatus hset (by decide) hdone
    · cases h
  · cases h

theorem quiet_evict (h : w.evict id n now = some w') : Quiet id n w w' := by
  unfold Lifecycle.evict at h
  split at h
  · split at h
    · next hswap =>
      cases h
      exact ⟨fun e => .rfl, rfl, not_completed_setSeasonStatusIfIn hswap (by decide)⟩
    · cases h
  · cases h

theorem quiet_recover (h : w.recover id n = some w') : Quiet id n w w' := by
  unfold Lifecycle.recover at h
  split at h
  · split at h
    · cases h
      exact ⟨fun e => .rfl, rfl, fun hdone => hdone⟩
    · cases h
  · cases h

theorem not_completed_restore (h : Lifecycle.restore id n now db = some db')
    (hdone : db'.status id n = some .completed) : db.status id n = some .completed := by
  unfold Lifecycle.restore at h
  split at h
  · next hswap =>
    rw [← Option.some.inj h] at hdone
    exact not_completed_setSeasonStatusIfIn hswap (by decide) hdone
  · next hswap =>
    rcases Option.map_eq_some_iff.mp h with ⟨⟨moved, db₂⟩, hfold, rfl⟩
    exact not_completed_setSeasonStatusIfIn hswap (by decide)
      (not_completed_setSeasonStatusIfIn hfold (by decide) hdone)
  · cases h

/-! ### Steps that are not quiet -/

theorem active_of_not_covered (h : w.covered = false) : w.active = none := by
  refine List.find?_eq_none.mpr fun d hd hact => ?_
  have hcov : w.covered = true :=
    List.any_eq_true.mpr ⟨d, hd, by simpa using (of_decide_eq_true hact).1⟩
  rw [h] at hcov
  cases hcov

theorem imported_of_nothing_missing {states : States}
    (h : (computeMissing states none target).isEmpty = true) : ∀ e ∈ target, Imported states e := by
  intro e he
  rw [List.isEmpty_iff] at h
  by_contra hnot
  have hmiss : e ∈ computeMissing states none target := by
    simp only [computeMissing, missingEpisodes, List.mem_filter, decide_eq_true_eq]
    exact ⟨he, fun himp => hnot (mem_importedEpisodes.mp himp), by simp⟩
  rw [h] at hmiss
  cases hmiss

theorem fallback_spec (h : w.attemptEpisodeFallback id n now answer today = some (outcome, w')) :
    (∀ e, Imported w'.states e ↔ Imported w.states e) ∧ w'.library = w.library := by
  unfold Lifecycle.attemptEpisodeFallback at h
  split at h
  · split at h
    · cases h
      exact ⟨fun e => .rfl, rfl⟩
    next answer =>
    dsimp only at h
    have hmark : ∀ e, Imported (refreshTarget w.states answer today).2 e ↔
        Imported w.states e := fun e => imported_upsertTarget w.states _ e
    split at h
    · split at h
      · split at h
        · cases h
          exact ⟨hmark, rfl⟩
        · cases h
          exact ⟨hmark, rfl⟩
        · cases h
      · cases h
        exact ⟨hmark, rfl⟩
    · cases h
      exact ⟨hmark, rfl⟩
  · cases h

/-- The shortcut of the fallback is open: the season is due and not covered by
    any download, and its target is not empty and marked imported as a whole. -/
structure ShortcutOpen (id : Nat) (n : Int) (w : Lifecycle) (target : List Int) : Prop where
  collected : w.collected = true
  due : ∃ s ∈ dueSearchStatuses, w.db.status id n = some s
  uncovered : w.covered = false
  aired : target ≠ []
  marked : ∀ e ∈ target, Imported w.states e

instance (id : Nat) (n : Int) (w : Lifecycle) (target : List Int) :
    Decidable (ShortcutOpen id n w target) :=
  decidable_of_iff
    (w.collected = true ∧ (∃ s ∈ dueSearchStatuses, w.db.status id n = some s) ∧
      w.covered = false ∧ target ≠ [] ∧ ∀ e ∈ target, Imported w.states e)
    ⟨fun h => ⟨h.1, h.2.1, h.2.2.1, h.2.2.2.1, h.2.2.2.2⟩,
      fun h => ⟨h.collected, h.due, h.uncovered, h.aired, h.marked⟩⟩

theorem setSeasonStatusIfIn_moved
    (h : setSeasonStatusIfIn now id n status allowedFrom db = some (true, db')) :
    ∃ s ∈ allowedFrom, db.status id n = some s := by
  unfold setSeasonStatusIfIn Show.setStatusIfIn at h
  cases hs : db.status id n with
  | none =>
    rw [hs] at h
    cases h
  | some s =>
    rw [hs] at h
    dsimp only at h
    by_cases hin : s ∈ allowedFrom
    · exact ⟨s, hin, rfl⟩
    · rw [if_neg hin] at h
      cases h

theorem setSeasonStatusIfIn_lost
    (h : setSeasonStatusIfIn now id n status allowedFrom db = some (false, db')) :
    ¬ ∃ s ∈ allowedFrom, db.status id n = some s := by
  rintro ⟨s, hin, hs⟩
  unfold setSeasonStatusIfIn Show.setStatusIfIn at h
  rw [hs] at h
  dsimp only at h
  rw [if_pos hin] at h
  rcases Option.map_eq_some_iff.mp h with ⟨db₁, -, hpair⟩
  cases hpair

theorem fallback_completed_iff
    (h : w.attemptEpisodeFallback id n now answer today = some (outcome, w')) :
    (∀ target, outcome = .completed target ↔
      ∃ a, answer = some a ∧ target = airedTarget a today ∧ ShortcutOpen id n w target) ∧
    ((∀ target, outcome ≠ .completed target) →
      w'.db.status id n = some .completed → w.db.status id n = some .completed) := by
  unfold Lifecycle.attemptEpisodeFallback at h
  split at h
  · next hcollected =>
    split at h
    · cases h
      refine ⟨fun target => ⟨fun hc => (by cases hc), ?_⟩, fun _ hdone => hdone⟩
      rintro ⟨a, ha, -⟩
      cases ha
    next answer =>
    dsimp only at h
    -- To refresh a target marks no episode.
    have hmarks : ∀ e, Imported (refreshTarget w.states answer today).2 e ↔
        Imported w.states e := fun e => imported_upsertTarget w.states _ e
    have hshut : ∀ {target}, ¬ ShortcutOpen id n w (airedTarget answer today) →
        ¬ ∃ a, some answer = some a ∧ target = airedTarget a today ∧
          ShortcutOpen id n w target := by
      rintro target hnot ⟨a, ha, rfl, hopen⟩
      cases ha
      exact hnot hopen
    split at h
    · next hmiss =>
      split at h
      · next hgo =>
        rw [Bool.and_eq_true, Bool.not_eq_true', Bool.not_eq_true'] at hgo
        -- No download is under way, so what is missing is judged by the marks alone.
        have hact : w.active = none := active_of_not_covered hgo.2
        change (computeMissing _ (w.active.map _) _).isEmpty = true at hmiss
        rw [hact] at hmiss
        split at h
        · next hswap =>
          have hopen : ShortcutOpen id n w (airedTarget answer today) := by
            refine ⟨hcollected, setSeasonStatusIfIn_moved hswap, hgo.2, ?_, ?_⟩
            · intro hnil
              have hfst : (refreshTarget w.states answer today).1 = [] := hnil
              rw [hfst] at hgo
              exact nomatch hgo.1
            · exact fun e he =>
              (hmarks e).mp (imported_of_nothing_missing hmiss e he)
          cases h
          refine ⟨fun target => ⟨fun hc => ?_, ?_⟩, fun hnot => absurd rfl (hnot _)⟩
          · cases hc
            exact ⟨answer, rfl, rfl, hopen⟩
          · rintro ⟨a, ha, rfl, -⟩
            cases ha
            rfl
        -- Meanwhile the season was completed by another, or is no longer due.
        · next hswap =>
          cases h
          refine ⟨fun target => ⟨fun hc => (by cases hc), fun hopen => ?_⟩,
            fun _ hdone => hdone⟩
          exact absurd hopen (hshut fun hs =>
            setSeasonStatusIfIn_lost hswap hs.due)
        · cases h
      · next hgo =>
        cases h
        refine ⟨fun target => ⟨fun hc => (by cases hc), fun hopen => ?_⟩,
          fun _ hdone => hdone⟩
        refine absurd hopen (hshut fun hs => hgo ?_)
        have hfst : (refreshTarget w.states answer today).1 ≠ [] := hs.aired
        rw [Bool.and_eq_true, Bool.not_eq_true', Bool.not_eq_true',
          List.isEmpty_eq_false_iff]
        exact ⟨hfst, hs.uncovered⟩
    · next hmiss =>
      cases h
      refine ⟨fun target => ⟨fun hc => (by cases hc), fun hopen => ?_⟩,
        fun _ hdone => hdone⟩
      refine absurd hopen (hshut fun hs => hmiss ?_)
      have hact : w.active = none := active_of_not_covered hs.uncovered
      change (computeMissing _ (w.active.map _) _).isEmpty = true
      rw [hact, List.isEmpty_iff]
      refine List.filter_eq_nil_iff.mpr fun e he => ?_
      have hmark := mem_importedEpisodes.mpr ((hmarks e).mpr (hs.marked e he))
      simp [hmark]
  · next hcollected =>
    cases h

theorem importSeason_spec {seasonDir : String}
    {late : Bool} (h : w.importSeason id n now downloadId seasonDir accepted late = some w') :
    accepted ≠ [] ∧ (∀ e, Imported w'.states e ↔ Imported w.states e ∨ e ∈ accepted) ∧
      w'.library = w.library ++ accepted := by
  unfold Lifecycle.importSeason at h
  split at h
  · cases h
  split at h
  · next hacc =>
    rcases Option.map_eq_some_iff.mp h with ⟨db, -, rfl⟩
    exact ⟨hacc.2.1, fun e => imported_markImported accepted downloadId e w.states, rfl⟩
  · cases h

/-- Episodes that were not marked enter the library, and are marked. -/
structure Adopts (id : Nat) (n : Int) (episodes : List Int) (w w' : Lifecycle) : Prop where
  marks : ∀ e, Imported w'.states e ↔ Imported w.states e ∨ e ∈ episodes
  library : w'.library = w.library ++ episodes
  fresh : ∀ e ∈ episodes, ¬ Imported w.states e
  undone : w'.db.status id n = some .completed → w.db.status id n = some .completed

theorem adopts_nothing (h : Quiet id n w w') : Adopts id n [] w w' :=
  ⟨fun e => by simpa using h.marks e, by simpa using h.library, fun e he => (by cases he), h.undone⟩

theorem adopts_adopt (episodes : Option (List Int)) (w : Lifecycle) :
    Adopts id n (adoptable w.states episodes) w (w.adopt episodes) :=
  ⟨fun e => imported_adoptBaseline w.states episodes e, rfl,
    fun _ he => not_imported_of_adoptable he, fun hdone => hdone⟩

theorem Adopts.after (hqt : Quiet id n w w₁)
    (h : Adopts id n episodes w₁ w') : Adopts id n episodes w w' where
  marks e := (h.marks e).trans (by rw [hqt.marks])
  library := by rw [h.library, hqt.library]
  fresh e he himp := h.fresh e he ((hqt.marks e).mpr himp)
  undone hdone := hqt.undone (h.undone hdone)

theorem Adopts.before (h : Adopts id n episodes w w₁)
    (hqt : Quiet id n w₁ w') : Adopts id n episodes w w' where
  marks e := (hqt.marks e).trans (h.marks e)
  library := hqt.library.trans h.library
  fresh := h.fresh
  undone hdone := h.undone (hqt.undone hdone)

theorem adopts_adoptPack (target : List Int) (w : Lifecycle) :
    ∃ episodes, Adopts id n episodes w (w.adoptPack target) := by
  unfold Lifecycle.adoptPack
  split
  · exact ⟨[], adopts_nothing ⟨fun e => .rfl, rfl, fun hdone => hdone⟩⟩
  · exact ⟨_, adopts_adopt _ w⟩

theorem quiet_refl (w : Lifecycle) : Quiet id n w w :=
  ⟨fun _ => .rfl, rfl, fun hdone => hdone⟩

theorem quiet_rearmGrown (h : w.rearmGrown id n now conflict = some w') : Quiet id n w w' := by
  unfold Lifecycle.rearmGrown at h
  split at h
  · cases h
    exact quiet_refl w
  split at h
  · next hswap =>
    cases h
    refine ⟨fun e => .rfl, rfl, fun hdone => ?_⟩
    rw [Show.status_scheduleSearch] at hdone
    exact not_completed_setSeasonStatusIfIn hswap (by decide) hdone
  · cases h
    exact quiet_refl w
  · cases h

theorem reconcileAiring_spec (h : w.reconcileAiring id n now answer today conflict = some w') :
    ∃ episodes, Adopts id n episodes w w' := by
  unfold Lifecycle.reconcileAiring at h
  split at h
  · split at h
    · split at h
      · cases h
        exact ⟨[], adopts_nothing (quiet_refl w)⟩
      split at h
      · cases h
        exact ⟨[], adopts_nothing (quiet_refl w)⟩
      next answer =>
      dsimp only at h
      have hrefr :
          Quiet id n w { w with states := (refreshTarget w.states answer today).2 } :=
        ⟨fun e => imported_upsertTarget w.states _ e, rfl, fun hdone => hdone⟩
      split at h
      · cases h
        exact ⟨_, (adopts_adopt none _).after hrefr⟩
      split at h
      · cases h
        exact ⟨[], (adopts_nothing (quiet_refl _)).after hrefr⟩
      have hpack : ∃ episodes, Adopts id n episodes
          { w with states := (refreshTarget w.states answer today).2 }
          (if !w.states.rows.isEmpty then
            Lifecycle.adoptPack (refreshTarget w.states answer today).1
              { w with states := (refreshTarget w.states answer today).2 }
          else { w with states := (refreshTarget w.states answer today).2 }) := by
        split
        · exact adopts_adoptPack _ _
        · exact ⟨[], adopts_nothing (quiet_refl _)⟩
      rcases hpack with ⟨episodes, hpack⟩
      generalize (if !w.states.rows.isEmpty then
          Lifecycle.adoptPack (refreshTarget w.states answer today).1
            { w with states := (refreshTarget w.states answer today).2 }
        else { w with states := (refreshTarget w.states answer today).2 }) = adopted
        at h hpack
      split at h
      · cases h
        exact ⟨episodes, hpack.after hrefr⟩
      · exact ⟨episodes, (hpack.before (quiet_rearmGrown h)).after hrefr⟩
    · cases h
  · cases h

-- A deletion with its claim: the marks stay, and the directory is emptied, or eaten into, or
-- left alone.
theorem purge_spec {outcome : PurgeOutcome} (h : w.purge id n now outcome = some w') :
    w'.states = w.states ∧
      (w'.db.status id n = some .completed → w.db.status id n = some .completed) ∧
      match outcome with
      | .deleted => w'.library = []
      | .partialDelete eaten => w'.library = w.library.filter (· ∉ eaten)
      | .kept => w'.library = w.library := by
  unfold Lifecycle.purge at h
  split at h
  · cases h
  · cases h
    exact ⟨rfl, fun hdone => by rwa [Show.status_setLibraryPath] at hdone, rfl⟩
  · split at h
    · cases h
      refine ⟨rfl, fun hdone => ?_, rfl⟩
      split at hdone
      · rwa [Show.status_setLibraryPath] at hdone
      · exact hdone
    · cases h
  · cases h
    exact ⟨rfl, fun hdone => hdone, rfl⟩
  · cases h
    exact ⟨rfl, fun hdone => hdone, rfl⟩
  · rcases Option.map_eq_some_iff.mp h with ⟨db, hrst, rfl⟩
    exact ⟨rfl, not_completed_restore hrst, rfl⟩

/-- What a step leaves over, or makes up for. -/
def leftoverAfter (w : Lifecycle) (leftover : List Int) : SeasonAction → List Int
  | .purge .deleted => importedEpisodes w.states
  | .purge (.partialDelete eaten) =>
      leftover ++ (importedEpisodes w.states).filter (· ∈ eaten)
  | .importSeason _ _ accepted _ => leftover.filter (· ∉ accepted)
  | _ => leftover

/-- What a step can do to the marks, the library and the completion. -/
inductive Effect (id : Nat) (n : Int) (w w' : Lifecycle) : Int × SeasonAction → Prop
  | quiet {a : Int × SeasonAction} (h : Quiet id n w w')
      (hleft : ∀ leftover, leftoverAfter w leftover a.2 = leftover) : Effect id n w w' a
  | adopts {a : Int × SeasonAction} {episodes : List Int} (h : Adopts id n episodes w w')
      (hleft : ∀ leftover, leftoverAfter w leftover a.2 = leftover) : Effect id n w w' a
  | fallback {now today : Int} {answer : Option SeasonAnswer}
      {outcome : Lifecycle.FallbackOutcome}
      (h : w.attemptEpisodeFallback id n now answer today = some (outcome, w')) :
      Effect id n w w' (now, .fallback answer today)
  | imports {now : Int} {downloadId : Nat} {seasonDir : String} {accepted : List Int}
      {late : Bool} (h : w.importSeason id n now downloadId seasonDir accepted late = some w') :
      Effect id n w w' (now, .importSeason downloadId seasonDir accepted late)
  | purges {now : Int} {outcome : PurgeOutcome} (h : w.purge id n now outcome = some w') :
      Effect id n w w' (now, .purge outcome)

theorem effect_of_step {a : Int × SeasonAction}
    (h : lifecycleStep id n w a = some w') : Effect id n w w' a := by
  rcases a with ⟨now, action⟩
  cases action with
  | request plex plan present => exact .quiet (quiet_request h) fun _ => rfl
  | wake plex seasons => exact .quiet (quiet_wake h) fun _ => rfl
  | collect => exact .quiet (quiet_collect h) fun _ => rfl
  | fallback answer today =>
    rcases Option.map_eq_some_iff.mp h with ⟨⟨outcome, w₁⟩, hfall, heq⟩
    subst heq
    exact .fallback hfall
  | park attempts next => exact .quiet (quiet_park h) fun _ => rfl
  | grab d marked => exact .quiet (quiet_grab h) fun _ => rfl
  | cover d => exact .quiet (quiet_cover h) fun _ => rfl
  | fail downloadId => exact .quiet (quiet_fail h) fun _ => rfl
  | importSeason downloadId seasonDir accepted late => exact .imports h
  | confirm => exact .quiet (quiet_confirm h) fun _ => rfl
  | reconcile answer today conflict =>
    rcases reconcileAiring_spec h with ⟨episodes, hadopt⟩
    exact .adopts hadopt fun _ => rfl
  | reportIssue => exact .quiet (quiet_reportIssue h) fun _ => rfl
  | evict => exact .quiet (quiet_evict h) fun _ => rfl
  | recover => exact .quiet (quiet_recover h) fun _ => rfl
  | purge outcome => exact .purges h

/-! ### Runs -/

/-- A season with the episodes left over so far: those that were marked imported
    when their files were deleted, and that were not imported since. -/
structure Traced where
  world : Lifecycle
  leftover : List Int
  deriving DecidableEq

def tracedStep (id : Nat) (n : Int) (t : Traced) (a : Int × SeasonAction) : Option Traced :=
  (lifecycleStep id n t.world a).map fun w => ⟨w, leftoverAfter t.world t.leftover a.2⟩

/-- Every episode that is marked is in the library or left over, and no episode
    that is left over is in the library. -/
structure Accounted (t : Traced) : Prop where
  marked : ∀ e, Imported t.world.states e → e ∈ t.world.library ∨ e ∈ t.leftover
  gone : ∀ e ∈ t.leftover, Imported t.world.states e ∧ e ∉ t.world.library

section

variable (hinv : Accounted ⟨w, leftover⟩)
include hinv

theorem Accounted.same (hmark : ∀ e, Imported w'.states e ↔ Imported w.states e)
    (hlib : w'.library = w.library) : Accounted ⟨w', leftover⟩ where
  marked e he := by
    rw [hlib]
    exact hinv.marked e ((hmark e).mp he)
  gone e he := by
    rw [hmark, hlib]
    exact hinv.gone e he

theorem Accounted.quiet (h : Quiet id n w w') : Accounted ⟨w', leftover⟩ :=
  hinv.same h.marks h.library

theorem Accounted.adopts (h : Adopts id n episodes w w') :
    Accounted ⟨w', leftover⟩ where
  marked e he := by
    rw [h.library, List.mem_append]
    rcases (h.marks e).mp he with hmark | hadopt
    · exact (hinv.marked e hmark).imp .inl fun hleft => hleft
    · exact .inl (.inr hadopt)
  gone e he := by
    rcases hinv.gone e he with ⟨hmark, hgone⟩
    refine ⟨(h.marks e).mpr (.inl hmark), ?_⟩
    rw [h.library, List.mem_append, not_or]
    exact ⟨hgone, fun hadopt => h.fresh e hadopt hmark⟩

theorem Accounted.imports (hmarks : ∀ e, Imported w'.states e ↔ Imported w.states e ∨ e ∈ accepted)
    (hlib : w'.library = w.library ++ accepted) :
    Accounted ⟨w', leftover.filter (· ∉ accepted)⟩ where
  marked e he := by
    rw [hlib, List.mem_append, List.mem_filter]
    by_cases hacc : e ∈ accepted
    · exact .inl (.inr hacc)
    · rcases hinv.marked e (((hmarks e).mp he).resolve_right hacc) with hin | hleft
      · exact .inl (.inl hin)
      · exact .inr ⟨hleft, by simpa using hacc⟩
  gone e he := by
    rcases List.mem_filter.mp he with ⟨hleft, hacc⟩
    rcases hinv.gone e hleft with ⟨hmark, hgone⟩
    refine ⟨(hmarks e).mpr (.inl hmark), ?_⟩
    rw [hlib, List.mem_append, not_or]
    exact ⟨hgone, by simpa using hacc⟩

theorem Accounted.purge {outcome : PurgeOutcome} (h : w.purge id n now outcome = some w') :
    Accounted ⟨w', leftoverAfter w leftover (.purge outcome)⟩ := by
  rcases purge_spec h with ⟨hst, -, hlib⟩
  cases outcome with
  | deleted =>
    refine ⟨fun e he => .inr ?_, fun e he => ?_⟩
    · exact mem_importedEpisodes.mpr (hst ▸ he)
    · refine ⟨hst ▸ mem_importedEpisodes.mp he, ?_⟩
      rw [hlib]
      simp
  | partialDelete eaten =>
    refine ⟨fun e he => ?_, fun e he => ?_⟩
    · have hmark : Imported w.states e := hst ▸ he
      change e ∈ w'.library ∨ e ∈ leftover ++ (importedEpisodes w.states).filter (· ∈ eaten)
      rw [hlib, List.mem_append, List.mem_filter, List.mem_filter]
      by_cases hate : e ∈ eaten
      · exact .inr (.inr ⟨mem_importedEpisodes.mpr hmark, by simpa using hate⟩)
      · exact (hinv.marked e hmark).imp (fun hin => ⟨hin, by simpa using hate⟩) .inl
    · change Imported w'.states e ∧ e ∉ w'.library
      rw [hst, hlib, List.mem_filter]
      rcases List.mem_append.mp he with hleft | hate
      · rcases hinv.gone e hleft with ⟨hmark, hgone⟩
        exact ⟨hmark, fun hin => hgone hin.1⟩
      · rcases List.mem_filter.mp hate with ⟨hmark, hate⟩
        refine ⟨mem_importedEpisodes.mp hmark, fun hin => ?_⟩
        simp only [decide_eq_true_eq] at hate hin
        exact hin.2 hate
  | kept => exact hinv.same (fun e => by rw [hst]) hlib

end

theorem accounted_of_step (t : Traced) (a : Int × SeasonAction) (t' : Traced)
    (hinv : Accounted t) (h : tracedStep id n t a = some t') : Accounted t' := by
  rcases Option.map_eq_some_iff.mp h with ⟨w', hstep, rfl⟩
  cases effect_of_step hstep with
  | quiet hqt hleft =>
    rw [hleft]
    exact hinv.quiet hqt
  | adopts hadopt hleft =>
    rw [hleft]
    exact hinv.adopts hadopt
  | fallback hfall =>
    rcases fallback_spec hfall with ⟨hmark, hlib⟩
    exact hinv.same hmark hlib
  | imports himp =>
    rcases importSeason_spec himp with ⟨-, hmark, hlib⟩
    exact hinv.imports hmark hlib
  | purges hpurge => exact hinv.purge hpurge

-- What a completion by the fallback is worth: the library has the whole target if and only if
-- none of it is left over.
theorem completed_over_content_iff {t : Traced} (hinv : Accounted t)
    (hmark : ∀ e ∈ target, Imported t.world.states e) :
    (∀ e ∈ target, e ∈ t.world.library) ↔ ∀ e ∈ target, e ∉ t.leftover := by
  constructor
  · exact fun hin e he hleft => (hinv.gone e hleft).2 (hin e he)
  · exact fun hnot e he => (hinv.marked e (hmark e he)).resolve_right (hnot e he)

/-- A fallback finds every aired episode marked imported, while the mark of one
    of them was left over by a deletion. -/
def ReadsLeftover (id : Nat) (n : Int) (t : Traced) : Int × SeasonAction → Prop
  | (_, .fallback (some answer) today) =>
      ShortcutOpen id n t.world (airedTarget answer today) ∧
        ∃ e ∈ airedTarget answer today, e ∈ t.leftover
  | _ => False

instance ReadsLeftover.decidable (id : Nat) (n : Int) (t : Traced) :
    (a : Int × SeasonAction) → Decidable (ReadsLeftover id n t a)
  | (_, .fallback (some answer) today) =>
      inferInstanceAs (Decidable (ShortcutOpen id n t.world (airedTarget answer today) ∧
        ∃ e ∈ airedTarget answer today, e ∈ t.leftover))
  | (_, .fallback none _) | (_, .request ..) | (_, .wake ..) | (_, .collect) | (_, .park ..)
  | (_, .grab ..) | (_, .cover ..) | (_, .fail ..) | (_, .importSeason ..) | (_, .confirm)
  | (_, .reconcile ..) | (_, .reportIssue) | (_, .evict) | (_, .recover) | (_, .purge ..) =>
      .isFalse fun h => h

/-- No completion without content: in a run from a season whose marks are true,
    in which no fallback reads a row that is left over, a fallback completes the
    season only when the library has every episode of its target, and no step
    completes a season of which the library has nothing. -/
theorem no_completion_without_content (id : Nat) (n : Int) (w : Lifecycle)
    (as : List (Int × SeasonAction)) (a : Int × SeasonAction) (t t' : Traced)
    (hfresh : ∀ e, Imported w.states e → e ∈ w.library)
    (hmeet : StepsMeet (tracedStep id n) (fun t a => ¬ ReadsLeftover id n t a) ⟨w, []⟩
      (as ++ [a]))
    (hrun : run (tracedStep id n) ⟨w, []⟩ as = some t) (hstep : tracedStep id n t a = some t') :
    (∀ now answer today target w', a = (now, .fallback answer today) →
        t.world.attemptEpisodeFallback id n now answer today = some (.completed target, w') →
        ∀ e ∈ target, e ∈ t'.world.library) ∧
      (t'.world.db.status id n = some .completed → t.world.db.status id n ≠ some .completed →
        t'.world.library ≠ []) := by
  have hinv : Accounted t := by
    refine invariant_of_run accounted_of_step _ t as
      ⟨fun e he => .inl (hfresh e he), fun e he => ?_⟩ hrun
    cases he
  have hnot : ¬ ReadsLeftover id n t a := ((stepsMeet_append _ as [a]).mp hmeet).2 t hrun |>.1
  -- A fallback that completes on marks alone would have read one that is left over.
  have hcont : ∀ now answer today target w', a = (now, .fallback answer today) →
      t.world.attemptEpisodeFallback id n now answer today = some (.completed target, w') →
      t'.world.library = t.world.library ∧ target ≠ [] ∧ ∀ e ∈ target, e ∈ t.world.library := by
    rintro now answer today target w' rfl hfall
    rcases ((fallback_completed_iff hfall).1 target).mp rfl with ⟨a, rfl, rfl, hopen⟩
    have hsame : t'.world = w' := by
      rcases Option.map_eq_some_iff.mp hstep with ⟨w₁, hw₁, rfl⟩
      have hw₂ : (t.world.attemptEpisodeFallback id n now (some a) today).map (·.2) = some w₁ :=
        hw₁
      rw [hfall] at hw₂
      exact (Option.some.inj hw₂).symm
    refine ⟨by rw [hsame, (fallback_spec hfall).2], hopen.aired, ?_⟩
    refine (completed_over_content_iff hinv hopen.marked).mpr fun e he hleft => hnot ?_
    exact ⟨hopen, e, he, hleft⟩
  refine ⟨fun now answer today target w' ha hfall e he => ?_, fun hdone hbef => ?_⟩
  · rcases hcont now answer today target w' ha hfall with ⟨hlib, -, hin⟩
    rw [hlib]
    exact hin e he
  · rcases Option.map_eq_some_iff.mp hstep with ⟨w', hw', heq⟩
    subst heq
    cases effect_of_step hw' with
    | quiet hqt _ => exact absurd (hqt.undone hdone) hbef
    | adopts hadopt _ => exact absurd (hadopt.undone hdone) hbef
    | @fallback now today answer outcome hfall =>
      by_cases hcmp : ∃ target, outcome = .completed target
      · rcases hcmp with ⟨target, rfl⟩
        rcases hcont now answer today target w' rfl hfall with ⟨hlib, hne, hin⟩
        rcases List.exists_mem_of_ne_nil target hne with ⟨e, he⟩
        rw [hlib]
        exact List.ne_nil_of_mem (hin e he)
      · rw [not_exists] at hcmp
        exact absurd ((fallback_completed_iff hfall).2 hcmp hdone) hbef
    | imports himp =>
      -- An import has just placed what it completes the season with.
      rcases importSeason_spec himp with ⟨hne, -, hlib⟩
      rw [hlib]
      simp [hne]
    | purges hpurge => exact absurd ((purge_spec hpurge).2.1 hdone) hbef

/-! ### Two runs -/

/-- The first season of a show, as a request for the whole show leaves it. -/
def newSeason : Lifecycle where
  db :=
    { requests := Table.empty.insert { id := 1, status := .pending }
      seasons := Table.empty.insert { mediaRequestId := 1, seasonNumber := 1, status := .pending } }
  states := Table.empty
  downloads := []
  collected := false
  purging := none
  library := []

/-- A cycle finds no pack but the first episode, which is grabbed and imported. -/
def firstEpisode (answer : SeasonAnswer) : List (Int × SeasonAction) :=
  [(0, .collect), (0, .fallback (some answer) 10), (0, .grab { id := 1, episodes := some [1] } [1]),
    (1, .importSeason 1 "/tv/Show/Season 01" [1] false)]

/-- TMDB takes the second episode back, and the season is completed with the
    first one. -/
theorem completed_over_retraction :
    ∃ t t', run (tracedStep 1 1) ⟨newSeason, []⟩
          (firstEpisode [(1, some 0), (2, some 0)] ++ [(2, .collect)]) = some t ∧
      tracedStep 1 1 t (2, .fallback (some [(1, some 0)]) 10) = some t' ∧
      t'.world.db.status 1 1 = some .completed ∧ t'.world.library ≠ [] := by
  have hnext : ((run (tracedStep 1 1) ⟨newSeason, []⟩
      (firstEpisode [(1, some 0), (2, some 0)] ++ [(2, .collect)])).bind fun t =>
        tracedStep 1 1 t (2, .fallback (some [(1, some 0)]) 10)).map
          (fun t' => t'.world.db.status 1 1) = some (some .completed) := by decide +kernel
  have hbef : (run (tracedStep 1 1) ⟨newSeason, []⟩
      (firstEpisode [(1, some 0), (2, some 0)] ++ [(2, .collect)])).map
        (fun t => t.world.db.status 1 1) = some (some .searching) := by decide +kernel
  rcases Option.map_eq_some_iff.mp hnext with ⟨t', hboth, hdone⟩
  rcases Option.bind_eq_some_iff.mp hboth with ⟨t, ht, ht'⟩
  rw [ht, Option.map_some] at hbef
  refine ⟨t, t', ht, ht', hdone, ?_⟩
  refine (no_completion_without_content 1 1 newSeason _ _ t t' ?_ (by decide +kernel) ht ht').2
    hdone ?_
  · rintro e ⟨row, hrow, -⟩
    cases hrow
  · rw [Option.some.inj hbef]
    decide

/-- A user reports the season that was imported, its directory is deleted, and
    the next cycle completes it again with nothing in the library. -/
theorem completed_after_purge :
    (run (tracedStep 1 1) ⟨newSeason, []⟩
        (firstEpisode [(1, some 0)] ++ [(2, .confirm), (3, .reportIssue), (3, .purge .deleted),
          (4, .collect)])).bind
      (fun t => (t.world.attemptEpisodeFallback 1 1 4 (some [(1, some 0)]) 10).map
        fun result => (result.1, result.2.library, result.2.db.status 1 1)) =
      some (.completed [1], [], some .completed) := by
  decide +kernel

end Seasons

end PlexManager
