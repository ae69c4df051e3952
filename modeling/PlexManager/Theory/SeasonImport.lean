import PlexManager.Core.SeasonImport
import PlexManager.Theory.HardCutoff

/-!
# Where the files of a season download go

Each file contributes by itself, whatever stands before and after it: a result that is
accepted, one that is skipped, or what is wrong with it. So nothing is lost, and nothing
goes to two places. What is accepted or skipped has nothing wrong with it, and in a pack of
several seasons its own name says the season that is expected.

A file in the tree of an optical disc contributes nothing, with a suffix that is allowed
as well.

## Theorems

* `validateSeasonImport_places`: What every file contributes, and what is placed.
-/

namespace PlexManager

namespace SeasonImport

open SourceMapping Quality SeasonPack ImportValidation

/-! ### Files by themselves -/

/-- A file that may be placed under the expected season. -/
structure Fit (t : ImportTables) (parse : String → ParsedRelease) (wanted : Wanted)
    (video : VideoFile) : Prop where
  identity : matchesMedia t (parsePath parse video) wanted.expectedTitle none 0
    wanted.expectedTmdbId (some wanted.expectedSeason) = true
  season : seasonCovers (parsePath parse video).season wanted.expectedSeason = true
  ownSeason : ∀ seasons, (parsePath parse video).season = .many seasons →
    (parse (basename video.relativePath)).season = .one wanted.expectedSeason
  quality : wanted.profile.allows (resolveQuality (parsePath parse video).source
    (parsePath parse video).resolution (parsePath parse video).modifier).id = true
  floor : sampleFloorBytes ≤ video.sizeBytes
  whole : isMultiPart t.toTextTables video.relativePath wanted.expectedTitle = false
  episodes : episodeNumbers (parsePath parse video).episode ≠ []

/-- A result is of a file that fits, with its parse and its episodes. -/
structure Placed (t : ImportTables) (parse : String → ParsedRelease) (wanted : Wanted)
    (result : EpisodeImportResult) : Prop where
  parsed : result.parsed = parsePath parse result.video
  episodes : result.episodes = episodeNumbers result.parsed.episode
  fit : Fit t parse wanted result.video

def Wants (wanted : Wanted) (episodes : List Int) : Prop :=
  wanted.requestedEpisodes = none ∨ wanted.requestedEpisodes = some [] ∨
    ∃ n ∈ wanted.requestedEpisodes.getD [], n ∈ episodes

/-- What a file that is not passed over comes to: one result, or what is wrong with it. -/
inductive Contribution (t : ImportTables) (parse : String → ParsedRelease) (wanted : Wanted) :
    VideoFile → SeasonImportValidation → Prop
  | accepted (result : EpisodeImportResult) (h : Placed t parse wanted result)
      (hwants : Wants wanted result.episodes) :
      Contribution t parse wanted result.video { accepted := [result] }
  | skipped (result : EpisodeImportResult) (h : Placed t parse wanted result)
      (hwants : ¬ Wants wanted result.episodes) :
      Contribution t parse wanted result.video { skippedNotRequested := [result] }
  | rejected (video : VideoFile) (rejections : List EpisodeImportRejection)
      (hne : rejections ≠ []) (hpath : ∀ r ∈ rejections, r.relativePath = video.relativePath)
      (hunfit : ¬ Fit t parse wanted video) :
      Contribution t parse wanted video { rejected := rejections }

def SeasonImportValidation.append (done more : SeasonImportValidation) :
    SeasonImportValidation where
  accepted := done.accepted ++ more.accepted
  rejected := done.rejected ++ more.rejected
  skippedNotRequested := done.skippedNotRequested ++ more.skippedNotRequested

variable (t : ImportTables) (parse : String → ParsedRelease) (wanted : Wanted) (video : VideoFile)

theorem reasonIf_eq_nil_iff (unfit : Bool) (reason : ImportRejectionReason) (detail : String) :
    reasonIf unfit reason detail = [] ↔ unfit = false := by
  cases unfit <;> simp [reasonIf]

theorem reasonsAgainst_eq_nil_iff : reasonsAgainst t parse wanted video = [] ↔
    Fit t parse wanted video := by
  have hown : ownSeasonUnfit parse wanted (parsePath parse video) (basename video.relativePath) =
      false ↔ ∀ seasons, (parsePath parse video).season = .many seasons →
        (parse (basename video.relativePath)).season = .one wanted.expectedSeason := by
    unfold ownSeasonUnfit
    cases (parsePath parse video).season <;> simp
  simp only [reasonsAgainst, List.append_eq_nil_iff, reasonIf_eq_nil_iff, hown,
    checkQuality_accepted, Bool.not_eq_false', List.isEmpty_eq_false_iff, decide_eq_false_iff_not,
    Int.not_lt]
  refine ⟨fun ⟨⟨⟨⟨⟨hidentity, hown⟩, hqual⟩, hfloor⟩, hall⟩, heps⟩ => ?_, fun h =>
    ⟨⟨⟨⟨⟨h.identity, h.ownSeason⟩, h.quality⟩, h.floor⟩, h.whole⟩, h.episodes⟩⟩
  refine ⟨hidentity, ?_, hown, hqual, hfloor, hall, heps⟩
  -- The season gate comes first in the comparison.
  by_contra hseas
  simp [matchesMedia, hseas] at hidentity

theorem notRequested_iff (episodes : List Int) :
    notRequested wanted episodes = true ↔ ¬ Wants wanted episodes := by
  unfold notRequested Wants
  split
  · rename_i h; simp [h]
  · rename_i h; simp [h]
  · rename_i requested hne h
    simp_all

theorem contribution_of_placeFile (h : isCandidate t wanted video = true) :
    Contribution t parse wanted video (placeFile t parse wanted {} video) := by
  have hfit := reasonsAgainst_eq_nil_iff t parse wanted video
  rw [placeFile, h]
  simp only [Bool.not_true, Bool.false_eq_true, if_false, List.nil_append]
  split
  · rename_i hreasons
    refine .rejected video _ (by simpa using hreasons) (fun r hr => ?_)
      fun hfits => hreasons (hfit.mpr hfits)
    rcases List.mem_map.mp hr with ⟨reason, -, rfl⟩
    rfl
  · rename_i hreasons
    have hput : Placed t parse wanted ⟨video, parsePath parse video,
        episodeNumbers (parsePath parse video).episode⟩ :=
      ⟨rfl, rfl, hfit.mp (by simpa using hreasons)⟩
    split
    · rename_i hskip
      exact .skipped _ hput ((notRequested_iff wanted _).mp hskip)
    · rename_i hwant
      rw [notRequested_iff, Classical.not_not] at hwant
      exact .accepted _ hput hwant

/-! ### All files -/

theorem placeFile_eq_append (done : SeasonImportValidation) :
    placeFile t parse wanted done video = done.append (placeFile t parse wanted {} video) := by
  unfold placeFile
  split
  · simp [SeasonImportValidation.append]
  dsimp only
  split
  · simp [SeasonImportValidation.append]
  · split
    · simp [SeasonImportValidation.append]
    · simp [SeasonImportValidation.append]

theorem foldl_placeFile (files : List VideoFile) (done : SeasonImportValidation) :
    files.foldl (placeFile t parse wanted) done =
      done.append (validateSeasonImport t parse wanted files) := by
  induction files generalizing done with
  | nil => simp [validateSeasonImport, SeasonImportValidation.append]
  | cons video files ih =>
    rw [validateSeasonImport, List.foldl_cons, List.foldl_cons, ih, ih,
      placeFile_eq_append t parse wanted video done]
    simp [SeasonImportValidation.append]

theorem validateSeasonImport_append (xs ys : List VideoFile) :
    validateSeasonImport t parse wanted (xs ++ ys) =
      (validateSeasonImport t parse wanted xs).append (validateSeasonImport t parse wanted ys) := by
  rw [validateSeasonImport, List.foldl_append, foldl_placeFile]
  rfl

/-- What is placed is of these files, and fits. It is accepted if it was requested. -/
structure WellPlaced (files : List VideoFile) (out : SeasonImportValidation) : Prop where
  accepted : ∀ result ∈ out.accepted,
    result.video ∈ files ∧ Placed t parse wanted result ∧ Wants wanted result.episodes
  skipped : ∀ result ∈ out.skippedNotRequested,
    result.video ∈ files ∧ Placed t parse wanted result ∧ ¬ Wants wanted result.episodes

variable {t parse wanted video}

theorem Contribution.wellPlaced {out : SeasonImportValidation}
    (h : Contribution t parse wanted video out) : WellPlaced t parse wanted [video] out := by
  cases h with
  | accepted r hput hwants =>
    refine ⟨fun result hmem => ?_, by simp⟩
    obtain rfl := List.mem_singleton.mp hmem
    exact ⟨List.mem_cons_self, hput, hwants⟩
  | skipped r hput hwants =>
    refine ⟨by simp, fun result hmem => ?_⟩
    obtain rfl := List.mem_singleton.mp hmem
    exact ⟨List.mem_cons_self, hput, hwants⟩
  | rejected => exact ⟨by simp, by simp⟩

theorem WellPlaced.append {xs ys : List VideoFile} {done more : SeasonImportValidation}
    (hx : WellPlaced t parse wanted xs done) (hy : WellPlaced t parse wanted ys more) :
    WellPlaced t parse wanted (xs ++ ys) (done.append more) := by
  refine ⟨fun result hmem => ?_, fun result hmem => ?_⟩
  · rcases List.mem_append.mp hmem with hmem | hmem
    · exact (hx.accepted result hmem).imp_left (List.mem_append_left ys)
    · exact (hy.accepted result hmem).imp_left (List.mem_append_right xs)
  · rcases List.mem_append.mp hmem with hmem | hmem
    · exact (hx.skipped result hmem).imp_left (List.mem_append_left ys)
    · exact (hy.skipped result hmem).imp_left (List.mem_append_right xs)

variable (t parse wanted)

/-- Each file that is not passed over goes to one place, and nothing else contributes. What
    is placed fits under the expected season. -/
theorem validateSeasonImport_places :
    (∀ xs ys, validateSeasonImport t parse wanted (xs ++ ys) =
      (validateSeasonImport t parse wanted xs).append (validateSeasonImport t parse wanted ys)) ∧
    (∀ video, if isCandidate t wanted video = true then
        Contribution t parse wanted video (validateSeasonImport t parse wanted [video])
      else validateSeasonImport t parse wanted [video] = {}) ∧
    ∀ files, WellPlaced t parse wanted files (validateSeasonImport t parse wanted files) := by
  have hone : ∀ video, if isCandidate t wanted video = true then
      Contribution t parse wanted video (validateSeasonImport t parse wanted [video])
      else validateSeasonImport t parse wanted [video] = {} := by
    intro video
    split
    · rename_i hcand
      exact contribution_of_placeFile t parse wanted video hcand
    · rename_i hpass
      simp [validateSeasonImport, placeFile, hpass]
  refine ⟨validateSeasonImport_append t parse wanted, hone, fun files => ?_⟩
  induction files with
  | nil => exact ⟨by simp [validateSeasonImport], by simp [validateSeasonImport]⟩
  | cons video files ih =>
    rw [← List.singleton_append, validateSeasonImport_append]
    refine WellPlaced.append ?_ ih
    have hvideo := hone video
    by_cases hcand : isCandidate t wanted video = true
    · rw [if_pos hcand] at hvideo
      exact hvideo.wellPlaced
    · rw [if_neg hcand] at hvideo
      rw [hvideo]
      exact ⟨by simp, by simp⟩

/-- A file of an optical disc has an allowed suffix, and is neither accepted nor skipped nor
    rejected. -/
theorem discFile_contributes_nothing : ¬ ∀ (t : ImportTables) (parse : String → ParsedRelease)
    (wanted : Wanted) (video : VideoFile),
    t.casefold (suffix video.relativePath) ∈ plexVideoExtensions →
    looksLikeSampleName t.toTextTables t.lower (basename video.relativePath)
      wanted.expectedTitle = false →
    validateSeasonImport t parse wanted [video] ≠ {} := by
  intro h
  let tables : ImportTables :=
    { SourceMapping.ascii with
      lower := fun text => text.map Char.toLower
      nfkd := fun text => text
      combining := fun _ => false
      quoted := fun text => "'" ++ text ++ "'"
      shown := fun _ => "" }
  refine h tables (fun title => { rawTitle := title, cleanTitle := title })
    { profile := defaultProfile, expectedTitle := "Show", expectedTmdbId := 1, expectedSeason := 1 }
    ⟨"Show.S01/BDMV/STREAM/00001.m2ts", 0⟩ ?_ ?_ ?_
  · decide +kernel
  · decide +kernel
  · decide +kernel

end SeasonImport

end PlexManager
