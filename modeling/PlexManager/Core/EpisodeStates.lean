import PlexManager.Core.SeasonPack
import PlexManager.Lib.KeyedTable

/-!
# The episodes of a season

What is known of each episode of a tracked season: whether it is wanted, was
grabbed, or is in the library. The rows are seeded from the episodes that TMDB
says have aired, and moved on by grabs and imports. From them the service
computes which episodes are still missing and whether an import completes the
season.

A day is its number, and an answer of TMDB lists the episodes of the season with
their air dates.
-/

namespace PlexManager

namespace Episodes

open KeyedTable

inductive EpisodeState where
  | pending
  | grabbed
  | imported
  deriving DecidableEq, Repr

structure SeasonEpisodeState where
  episodeNumber : Int
  status : EpisodeState
  airDate : Option Int := none
  grabbedDownloadId : Option Nat := none
  deriving DecidableEq, Repr

/-- The rows of one season. -/
abbrev States := Table SeasonEpisodeState.episodeNumber

def Imported (states : States) (episode : Int) : Prop :=
  ∃ row, states.find episode = some row ∧ row.status = .imported

def importedEpisodes (states : States) : List Int :=
  (states.rows.filter fun row => row.status = .imported).map (·.episodeNumber)

variable {states : States}

theorem mem_importedEpisodes {episode : Int} :
    episode ∈ importedEpisodes states ↔ Imported states episode := by
  simp only [importedEpisodes, List.mem_map, List.mem_filter, decide_eq_true_eq, Imported,
    Table.find_eq_some]
  constructor
  · rintro ⟨row, ⟨hrow, himp⟩, hnum⟩
    exact ⟨row, ⟨hrow, hnum⟩, himp⟩
  · rintro ⟨row, ⟨hrow, hnum⟩, himp⟩
    exact ⟨row, ⟨hrow, himp⟩, hnum⟩

instance (states : States) (episode : Int) : Decidable (Imported states episode) :=
  decidable_of_iff _ mem_importedEpisodes

/-! ### The repository -/

/-- One episode of the target: a new row is pending, and a row that is there
    only gets its date refreshed. -/
def upsertEpisode (states : States) (entry : Int × Option Int) : States :=
  (states.insert { episodeNumber := entry.1, status := .pending, airDate := entry.2 }).modify
    entry.1 (fun row => { row with airDate := entry.2 }) fun _ => rfl

/-- `upsert_target`: seed the aired episodes, and retire the pending rows of
    those that are not among them. -/
def upsertTarget (states : States) (aired : List (Int × Option Int)) : States :=
  (aired.foldl upsertEpisode states).filter fun row =>
    row.episodeNumber ∈ aired.map (·.1) ∨ row.status ≠ .pending

/-- Write the status of an episode under a download, creating its row. With
    `keepImported`, a row that is imported already is left alone. -/
def markEpisode (status : EpisodeState) (keepImported : Bool) (downloadId : Nat)
    (states : States) (episode : Int) : States :=
  (states.insert { episodeNumber := episode, status := status }).modify episode
    (fun row =>
      if keepImported ∧ row.status = .imported then row
      else { row with status := status, grabbedDownloadId := some downloadId })
    fun row => by split <;> rfl

def markGrabbed (states : States) (episodes : List Int) (downloadId : Nat) : States :=
  episodes.foldl (markEpisode .grabbed true downloadId) states

def markImported (states : States) (episodes : List Int) (downloadId : Nat) : States :=
  episodes.foldl (markEpisode .imported false downloadId) states

/-- `adopt_baseline`: the pending rows, or those of them that are named, count
    as imported without a download. -/
def adoptBaseline (states : States) (episodes : Option (List Int)) : States :=
  states.rewrite
    (fun row =>
      if row.status = .pending ∧ episodes.all (row.episodeNumber ∈ ·) then
        { row with status := .imported }
      else row)
    fun row => by split <;> rfl

/-- The rows that `adopt_baseline` promotes. -/
def adoptable (states : States) (episodes : Option (List Int)) : List Int :=
  (states.rows.filter fun row =>
    row.status = .pending ∧ episodes.all (row.episodeNumber ∈ ·)).map (·.episodeNumber)

/-- `stale_grabbed_episodes`: the grabbed rows whose download is gone or dead. -/
def staleGrabbedEpisodes (states : States) (dead : Nat → Bool) : List Int :=
  (states.rows.filter fun row =>
    row.status = .grabbed ∧ row.grabbedDownloadId.all dead).map (·.episodeNumber)

theorem imported_upsertEpisode (states : States) (entry : Int × Option Int) (episode : Int) :
    Imported (upsertEpisode states entry) episode ↔ Imported states episode := by
  simp only [Imported, upsertEpisode, Table.find_modify, Table.find_insert]
  cases states.find episode with
  | some row =>
    by_cases h : episode = entry.1
    · simp [h]
    · simp [h]
  | none =>
    by_cases h : entry.1 = episode
    · simp [h]
    · simp [h]

theorem imported_upsertTarget (states : States) (aired : List (Int × Option Int)) (episode : Int) :
    Imported (upsertTarget states aired) episode ↔ Imported states episode := by
  have hseeded : ∀ (entries : List (Int × Option Int)) (states : States),
      Imported (entries.foldl upsertEpisode states) episode ↔ Imported states episode := by
    intro entries
    induction entries with
    | nil => exact fun states => .rfl
    | cons entry rest ih =>
      intro states
      rw [List.foldl_cons, ih, imported_upsertEpisode]
  rw [← hseeded aired states]
  -- Only pending rows are retired.
  simp only [Imported, upsertTarget, Table.find_filter]
  constructor
  · rintro ⟨row, hrow, himp⟩
    exact ⟨row, (Option.filter_eq_some_iff.mp hrow).1, himp⟩
  · rintro ⟨row, hrow, himp⟩
    exact ⟨row, Option.filter_eq_some_iff.mpr ⟨hrow, by simp [himp]⟩, himp⟩

theorem imported_markEpisode (status : EpisodeState) (keepImported : Bool) (downloadId : Nat)
    (states : States) (marked episode : Int) :
    Imported (markEpisode status keepImported downloadId states marked) episode ↔
      if episode = marked then
        status = .imported ∨ keepImported = true ∧ Imported states episode
      else Imported states episode := by
  simp only [Imported, markEpisode, Table.find_modify, Table.find_insert]
  by_cases h : episode = marked
  · subst h
    cases states.find episode with
    | none =>
      cases status with
      | pending | grabbed => simp
      | imported =>
        cases keepImported with
        | true | false => simp
    | some row =>
      by_cases hkeep : keepImported = true ∧ row.status = .imported
      · simp [hkeep]
      · by_cases hst : status = .imported
        · simp [hkeep, hst]
        · simp [hkeep, hst]
  · have hne : ¬ marked = episode := fun heq => h heq.symm
    simp [h, hne]

theorem imported_markGrabbed (episodes : List Int) (downloadId : Nat) (episode : Int) :
    ∀ states : States,
      Imported (markGrabbed states episodes downloadId) episode ↔ Imported states episode := by
  induction episodes with
  | nil => exact fun states => .rfl
  | cons marked rest ih =>
    intro states
    rw [markGrabbed, List.foldl_cons, ← markGrabbed, ih, imported_markEpisode]
    by_cases h : episode = marked
    · simp [h]
    · simp [h]

theorem imported_markImported (episodes : List Int) (downloadId : Nat) (episode : Int) :
    ∀ states : States, Imported (markImported states episodes downloadId) episode ↔
        Imported states episode ∨ episode ∈ episodes := by
  induction episodes with
  | nil =>
    intro states
    rw [markImported]
    simp
  | cons marked rest ih =>
    intro states
    rw [markImported, List.foldl_cons, ← markImported, ih, imported_markEpisode]
    by_cases h : episode = marked
    · simp [h]
    · simp [h]

theorem imported_adoptBaseline (states : States) (episodes : Option (List Int)) (episode : Int) :
    Imported (adoptBaseline states episodes) episode ↔
      Imported states episode ∨ episode ∈ adoptable states episodes := by
  simp only [Imported, adoptBaseline, Table.find_rewrite, adoptable, List.mem_map,
    List.mem_filter, decide_eq_true_eq]
  constructor
  · rintro ⟨row', hrow', himp⟩
    rcases Option.map_eq_some_iff.mp hrow' with ⟨row, hrow, rfl⟩
    by_cases hadopt : row.status = .pending ∧ episodes.all (row.episodeNumber ∈ ·) = true
    · exact .inr ⟨row, ⟨(Table.find_eq_some.mp hrow).1, hadopt⟩, Table.key_of_find hrow⟩
    · rw [if_neg hadopt] at himp
      exact .inl ⟨row, hrow, himp⟩
  · rintro (⟨row, hrow, himp⟩ | ⟨row, ⟨hrow, hadopt⟩, hnum⟩)
    · refine ⟨_, by rw [hrow, Option.map_some], ?_⟩
      rw [if_neg (by simp [himp])]
      exact himp
    · have hfind : states.find episode = some row := Table.find_eq_some.mpr ⟨hrow, hnum⟩
      refine ⟨_, by rw [hfind, Option.map_some], ?_⟩
      rw [if_pos hadopt]

theorem not_imported_of_adoptable {episodes : Option (List Int)}
    {episode : Int} (h : episode ∈ adoptable states episodes) : ¬ Imported states episode := by
  simp only [adoptable, List.mem_map, List.mem_filter, decide_eq_true_eq] at h
  rcases h with ⟨row, ⟨hrow, hpend, -⟩, hnum⟩
  rintro ⟨row', hrow', himp⟩
  have hfind : states.find episode = some row := Table.find_eq_some.mpr ⟨hrow, hnum⟩
  rw [hfind] at hrow'
  rw [← Option.some.inj hrow', hpend] at himp
  cases himp

/-! ### The arithmetic -/

abbrev SeasonAnswer := List (Int × Option Int)

/-- The date of an episode. Of two entries for it the later one counts. -/
def airDate (answer : SeasonAnswer) (episode : Int) : Option Int :=
  (answer.reverse.lookup episode).join

/-- `aired_target`: the episodes whose date is known and not after today. -/
def airedTarget (answer : SeasonAnswer) (today : Int) : List Int :=
  (answer.map (·.1)).dedup.filter fun episode => (airDate answer episode).any (· ≤ today)

/-- `compute_missing`, on sets. -/
def missingEpisodes (target imported downloading : List Int) : List Int :=
  target.filter fun episode => episode ∉ imported ∧ episode ∉ downloading

def seasonIsComplete (target imported : List Int) : Bool :=
  !target.isEmpty && target.all (· ∈ imported)

/-! ### The service -/

/-- `refresh_target`, once TMDB answered: the target and the rows. -/
def refreshTarget (states : States) (answer : SeasonAnswer) (today : Int) : List Int × States :=
  let aired := airedTarget answer today
  (aired, upsertTarget states (aired.map fun episode => (episode, airDate answer episode)))

/-- `compute_missing`. A pack that is downloading excludes the whole target. -/
def computeMissing (states : States) (active : Option (Option (List Int))) (target : List Int) :
    List Int :=
  missingEpisodes target (importedEpisodes states)
    (match active with
      | none => []
      | some none => target
      | some (some episodes) => episodes)

/-- `apply_import`: the rows, and whether the season is complete now. -/
def applyImport (states : States) (importedEpisodes' : List Int) (downloadId : Nat)
    (target : List Int) : Bool × States :=
  let states := markImported states importedEpisodes' downloadId
  (target.isEmpty || seasonIsComplete target (importedEpisodes states), states)

end Episodes

end PlexManager
