import PlexManager.Core.DecisionService
import PlexManager.Theory.Blocklist
import PlexManager.Theory.HardCutoff
import PlexManager.Theory.SeasonPack

/-!
# What a preview accepts

The gates of the engine together with what a preview hands to them. Whatever the
indexers answer, for a season nothing is accepted but a pack of that season, what
has all the episodes that were named, or a pack of several seasons that the
request has a use for. The second search is for episodes of the season, all of
which are missing.

## Theorems

* `fallback_accepts_iff`: The second search, exactly.
* `preview_accepts`: The first, for a season.
-/

namespace PlexManager

namespace DecisionService

open Blocklist DecisionEngine Quality SeasonImport SeasonPack SourceMapping

variable {d : Desk} {w : Wanted} {parsed : ParsedRelease} {season : Int} {q : Criteria}
  {c : CandidateRelease}

theorem passing_iff :
    passing q c = true ↔
      let parsed := q.parser c.title
      let multi := classifyReleaseScope parsed = .multiSeasonPack
      q.mediaMatch c parsed = true ∧ (¬multi ∨ q.multiSeasonIntent.isSome = true) ∧
        (q.preferSeasonPack = true → classifyReleaseScope parsed = .seasonPack ∨ multi) ∧
        outsideSubset q.episodeSubset parsed = false ∧
          q.profile.allows (qualityOf parsed).id = true ∧
        (multiSeasonPlan q parsed).all (·.accepted) = true ∧ q.isBlocklisted c parsed = false := by
  simp only [passing, gates, List.all_cons, List.all_nil, Bool.and_eq_true, and_true,
    Bool.or_eq_true, Bool.not_eq_true', beq_iff_eq, beq_eq_false_iff_ne, packScope]
  refine and_congr_right fun _ => and_congr_right fun hmulti => and_congr_left fun _ => ?_
  cases q.preferSeasonPack <;> rcases hmulti with h | h <;> simp [h]

theorem single_or_many (h : seasonCovers parsed.season season = true) :
    (singleSeason parsed.season = some season ∧ classifyReleaseScope parsed =
        if parsed.episode = .none then .seasonPack else .singleEpisode) ∨
      classifyReleaseScope parsed = .multiSeasonPack ∧ season ∈ seasonNumbers parsed.season := by
  unfold classifyReleaseScope
  cases hseason : parsed.season with
  | none =>
    rw [hseason] at h
    exact nomatch h
  | one n =>
    rw [hseason, seasonCovers, decide_eq_true_eq] at h
    exact .inl ⟨congrArg some h, rfl⟩
  | many ns =>
    rw [hseason, seasonCovers, List.contains_iff_mem] at h
    cases ns with
    | nil => exact nomatch h
    | cons n rest =>
      cases rest with
      | nil => exact .inl ⟨congrArg some (List.mem_singleton.mp h).symm, rfl⟩
      | cons m rest => exact .inr ⟨rfl, h⟩

theorem covers_of_matches {t : ImportTables} {title : String} {year : Option Int}
    {found tmdbId : Int}
    (h : matchesMedia t parsed title year found tmdbId (some season) = true) :
    seasonCovers parsed.season season = true := by
  unfold matchesMedia at h
  split at h
  · exact nomatch h
  · rename_i hseason
    simpa using hseason

theorem within_iff {needed : List Int} :
    outsideSubset (some needed) parsed = false ↔ episodeNumbers parsed.episode ≠ [] ∧
      ∀ n ∈ episodeNumbers parsed.episode, n ∈ needed := by
  simp [outsideSubset]

/-- The fallback accepts exactly the answers of the indexers that name the title and this season
    alone, name episodes, all of which are missing, have a quality that is allowed, and are on no
    blocklist of the title. -/
theorem fallback_accepts_iff (d : Desk) (tmdbId : Int) (title : String) (season : Int)
    (missing : List Int) (c : CandidateRelease) :
    (∃ scored ∈ (previewEpisodeFallback d tmdbId title season missing).accepted,
        scored.candidate = c) ↔
      let parsed := d.parse c.title
      c ∈ d.search (searchRequest { tmdbId, title, mediaType := .tv, season := some season }) ∧
      matchesMedia d.t parsed title none c.tmdbId tmdbId (some season) = true ∧
      singleSeason parsed.season = some season ∧ classifyReleaseScope parsed = .singleEpisode ∧
      episodeNumbers parsed.episode ≠ [] ∧ (∀ n ∈ episodeNumbers parsed.episode, n ∈ missing) ∧
      d.profile.allows (qualityOf parsed).id = true ∧ d.blocklisted tmdbId .tv c = false := by
  rw [previewEpisodeFallback, accepted_iff]
  refine and_congr_right fun _ => ?_
  rw [passing_iff]
  dsimp only [fallbackCriteria]
  generalize d.parse c.title = parsed
  refine and_congr_right fun hmatch => ?_
  constructor
  · rintro ⟨hmulti, -, hsubset, hquality, -, hlisted⟩
    rcases within_iff.mp hsubset with ⟨hne, hneeded⟩
    rcases single_or_many (covers_of_matches hmatch) with ⟨hseason, hscope⟩ | ⟨hscope, -⟩
    · have hepisode : parsed.episode ≠ .none := by
        intro h
        rw [h] at hne
        exact hne rfl
      rw [if_neg hepisode] at hscope
      exact ⟨hseason, hscope, hne, hneeded, hquality, hlisted⟩
    · exact absurd hscope (hmulti.resolve_right nofun)
  · rintro ⟨-, hscope, hne, hneeded, hquality, hlisted⟩
    have hmulti : classifyReleaseScope parsed ≠ .multiSeasonPack := by
      rw [hscope]
      exact nofun
    refine ⟨.inl hmulti, nofun, within_iff.mpr ⟨hne, hneeded⟩, hquality, ?_, hlisted⟩
    rw [multiSeasonPlan, if_neg hmulti]
    rfl

-- A pack that the policy accepts brings a season that is looked for, and none in flight.
theorem useful_of_accepted {ns : List Int} {intent : MultiSeasonRequestIntent}
    (h : (planMultiSeasonPack ns intent).accepted = true) :
    (∃ n ∈ ns, coverageOf intent n = .target) ∧ ∀ n ∈ ns, coverageOf intent n ≠ .inFlight := by
  dsimp only [planMultiSeasonPack] at h
  split at h
  · exact nomatch h
  dsimp only at h
  split at h
  · exact nomatch h
  rename_i hflight
  split at h
  · exact nomatch h
  rename_i htarget
  rcases List.exists_mem_of_ne_nil _ htarget with ⟨n, hn⟩
  rw [List.mem_filter, mem_sortedSet, decide_eq_true_eq] at hn
  refine ⟨⟨n, hn⟩, fun m hm hwas => ?_⟩
  rw [ne_eq, Decidable.not_not, List.filter_eq_nil_iff] at hflight
  exact hflight m (mem_sortedSet.mpr hm) (decide_eq_true hwas)

theorem matches_of_mediaMatch (htv : w.mediaType = .tv) (hseason : w.season = some season)
    (h : mediaMatch d w c parsed = true) :
    matchesMedia d.t parsed w.title none c.tmdbId w.tmdbId (some season) = true ∧
      (w.episodes ≠ [] → coversRequestedEpisodes parsed w.episodes = true) := by
  have hyear : w.matchYear = none := if_neg (by rw [htv]; exact nofun)
  have hof : w.matchSeason = some season := (if_pos htv).trans hseason
  rw [mediaMatch, hyear, hof] at h
  split at h
  · exact nomatch h
  rename_i hmatch
  rw [Bool.not_eq_true', Bool.not_eq_false] at hmatch
  refine ⟨hmatch, fun hnamed => ?_⟩
  rwa [if_neg fun hany => hany.elim (· htv) hnamed] at h

/-- What is accepted for a season of a show. Where no episodes are named it is a pack of that
    season, and otherwise a pack or a release that has them all. It may also be a pack of several
    seasons, if the request tracks one that is looked for and none that is in flight. -/
theorem preview_accepts (d : Desk) (w : Wanted) {season : Int} {scored : ScoredRelease}
    (htv : w.mediaType = .tv) (hseason : w.season = some season)
    (h : scored ∈ (preview d w).accepted) :
    let parsed := d.parse scored.candidate.title
    let ns := seasonNumbers parsed.season
    scored.candidate ∈ d.search (searchRequest w) ∧
      matchesMedia d.t parsed w.title none scored.candidate.tmdbId w.tmdbId (some season) = true ∧
      d.blocklisted w.tmdbId .tv scored.candidate = false ∧
      ((singleSeason parsed.season = some season ∧
          (classifyReleaseScope parsed = .seasonPack ∨
            w.episodes ≠ [] ∧ ∀ n ∈ w.episodes, n ∈ episodeNumbers parsed.episode)) ∨
        season ∈ ns ∧ ∃ intent, w.multiSeasonIntent = some intent ∧
          (∃ n ∈ ns, coverageOf intent n = .target) ∧
            ∀ n ∈ ns, coverageOf intent n ≠ .inFlight) := by
  rcases accepted_iff.mp ⟨scored, h, rfl⟩ with ⟨hmem, hpass⟩
  rcases passing_iff.mp hpass with ⟨hmatch, hmulti, hpack, -, -, hplan, hlisted⟩
  dsimp only [previewCriteria] at hmatch hmulti hpack hplan hlisted ⊢
  rw [htv] at hlisted
  generalize d.parse scored.candidate.title = parsed at *
  rcases matches_of_mediaMatch htv hseason hmatch with ⟨hmatch, hnamed⟩
  refine ⟨hmem, hmatch, hlisted, ?_⟩
  rcases single_or_many (covers_of_matches hmatch) with ⟨hsingle, hscope⟩ | ⟨hscope, hin⟩
  · refine .inl ⟨hsingle, ?_⟩
    by_cases hepisode : parsed.episode = .none
    · rw [if_pos hepisode] at hscope
      exact .inl hscope
    · rw [if_neg hepisode] at hscope
      have hne : w.episodes ≠ [] := by
        intro hnone
        have hpack := hpack (decide_eq_true ⟨htv, by rw [hseason]; rfl, hnone⟩)
        rw [hscope] at hpack
        exact hpack.elim nofun nofun
      have hall := hnamed hne
      rw [coversRequestedEpisodes, hscope] at hall
      exact .inr ⟨hne, by simpa using hall⟩
  · rcases Option.isSome_iff_exists.mp (hmulti.resolve_left (not_not_intro hscope)) with
      ⟨intent, hintent⟩
    rw [multiSeasonPlan, if_pos hscope, hintent] at hplan
    exact .inr ⟨hin, intent, hintent, useful_of_accepted hplan⟩

/-! ### A tracker with one release -/

def oneRelease (fields : Fields) (title : String) : Desk where
  t := { ascii with
    lower := fun text => text.map Char.toLower
    nfkd := fun text => text
    combining := fun _ => false
    quoted := id
    shown := fun _ => "" }
  guessit _ := fields
  search _ := [{ candidateOf ⟨title, "tracker"⟩ none with tmdbId := 1 }]
  profile := defaultProfile
  blocklist := []

def showOne : Wanted where
  tmdbId := 1
  title := "Show"
  mediaType := .tv
  season := some 1

def packOfOne : Fields :=
  [("season", .scalar (.int 1)), ("source", .scalar (.str "Web")),
    ("screen_size", .scalar (.str "1080p"))]

theorem preview_accepts_pack :
    let d := oneRelease packOfOne "Show.S01.1080p.WEB-DL"
    ∃ scored ∈ (preview d showOne).accepted, d.blocklisted 1 .tv scored.candidate = false := by
  have hsome : (preview (oneRelease packOfOne "Show.S01.1080p.WEB-DL") showOne).accepted ≠ [] := by
    decide +kernel
  rcases List.exists_mem_of_ne_nil _ hsome with ⟨scored, h⟩
  exact ⟨scored, h, (preview_accepts _ showOne rfl rfl h).2.2.1⟩

end DecisionService

end PlexManager
