import PlexManager.Lib.Gather
import PlexManager.Theory.PlexWatch.Batch

/-!
# Whether watched evidence holds

An answer that a title was watched lets its files be deleted. It is safe if some item of
the title that has a file there was watched, none was viewed later than the answer says,
and all are the same files. The items that count are those in the sections that Plex has.

But the sections that are searched are those of the cached list, where there is one. The
hits of a search are the evidence in the sections that it sees, and what several hits
become is supported by them. So the answers are safe if the list does no harm: if it covers
the same files as the sections that Plex has, or makes no answer possible.
-/

namespace PlexManager

namespace PlexLibrary

open Effects Gather TtlCache

/-! ### Evidence -/

/-- A movie, or a season of a show. -/
inductive Title where
  | movie (tmdbId : Nat)
  | season (tmdbId : Nat) (number : Int)
  deriving DecidableEq, Repr

def Title.tmdbId : Title → Nat
  | .movie tmdbId => tmdbId
  | .season tmdbId _ => tmdbId

def Title.number : Title → Int
  | .movie _ => 0
  | .season _ number => number

def Title.type : Title → SectionType
  | .movie _ => .movie
  | .season _ _ => .show

def Title.query (title : Title) (path : String) : WatchStateQuery :=
  match title with
  | .movie tmdbId => { tmdbId, mediaType := .movie, libraryPath := some path }
  | .season tmdbId number =>
      { tmdbId, mediaType := .tv, season := some number, libraryPath := some path }

def Title.state : Title → Fields → Except Failure WatchState
  | .movie _ => movieWatchStateFromItem
  | .season _ _ => seasonWatchStateFromEntry

section
variable (library : Library) (outcome : Request → Outcome)

/-- An item has a row of the title, and some files: it is the row itself, or one of its
    seasons is. -/
def Title.Backed (title : Title) (item : Fields) (files : List String) (row : Fields) : Prop :=
  match title with
  | .movie _ => row = item ∧ files = extractFilePaths item
  | .season _ number => ∃ ratingKey rows seasonKey, getStr item "ratingKey" = some ratingKey ∧
      childrenOf library outcome ratingKey = .ok rows ∧ row ∈ rows ∧
      getInt row "index" = some number ∧ getStr row "ratingKey" = some seasonKey ∧
      filesOf library outcome seasonKey = .ok files

/-- A section with the key has a file at a path or under it, as the section maps the path. -/
def Covers (sections : List LibrarySection) (type : SectionType) (path key file : String) : Prop :=
  ∃ s ∈ sections, s.type = type ∧ s.key = key ∧
    ∃ scanPath, sectionScanPath s path = some scanPath ∧ isPathPrefix scanPath file = true

/-- An item of a title that has a file at a path or under it. -/
def Evidence (sections : List LibrarySection) (title : Title) (path : String)
    (files : List String) (row : Fields) : Prop :=
  ∃ key n items ended, Loaded library outcome key n items ended ∧
    ∃ item ∈ items, itemMatchesTmdbId title.tmdbId item = true ∧
      title.Backed library outcome item files row ∧
      ∃ file ∈ files, Covers sections title.type path key file

/-- An answer that is safe. -/
structure Supported (sections : List LibrarySection) (title : Title) (path : String)
    (state : WatchState) : Prop where
  /-- Some item was watched wholly. -/
  watched : ∃ files row found, Evidence library outcome sections title path files row ∧
    title.state row = .ok found ∧ found.watched = true
  /-- No item was viewed later. -/
  latest : ∃ time, state.lastViewedAt = some time ∧
    ∀ files row viewed, Evidence library outcome sections title path files row →
      getInt row "lastViewedAt" = some viewed → viewed ≤ time
  /-- All items are the same files. -/
  same : ∀ files row files' row', Evidence library outcome sections title path files row →
    Evidence library outcome sections title path files' row' → sameFiles files files' = true
  /-- What was viewed since a moment is not reported as viewed before it. -/
  grace : ∀ cutoff files row viewed, Evidence library outcome sections title path files row →
    getInt row "lastViewedAt" = some viewed → cutoff ≤ viewed →
      ∀ time, state.lastViewedAt = some time → ¬ time < cutoff

/-- The sections that Plex has. It knows nothing of others. -/
structure Current (sections : List LibrarySection) : Prop where
  listed : ∀ own, listing library outcome = .ok own → own = sections
  unlisted : ∀ key n, (∀ s ∈ sections, s.key ≠ key) → ∃ e, pageAt library outcome key n = .error e

/-- No show has two seasons with the number. -/
def Title.Unique (title : Title) : Prop :=
  match title with
  | .movie _ => True
  | .season _ number => ∀ ratingKey rows, childrenOf library outcome ratingKey = .ok rows →
      ∀ row ∈ rows, ∀ row' ∈ rows, getInt row "index" = some number →
        getInt row' "index" = some number → row = row'

/-- What is reported of a title, by a single call or by a batch. -/
def Reports (st : Caches) (query : WatchStateQuery) (state : WatchState) : Prop :=
  (∃ trace q, Program.Served (Serves outcome) (watchState library query st) trace q ∧
    q.1 = .ok state) ∨
  ∃ (queries : List WatchStateQuery) (states : List WatchState) (n : Nat),
    queries[n]? = some query ∧ states[n]? = some state ∧ ∃ trace q,
      Program.Served (Serves outcome) (resolveWatchStates library queries st) trace q ∧
        q.1 = .ok states

end

/-- A cached list of the sections does no harm: there is none, no section of it covers the
    path, one that does is gone, or it covers what the sections of Plex cover. -/
def Trustworthy (cached : Option (List LibrarySection)) (current : List LibrarySection)
    (type : SectionType) (path : String) : Prop :=
  ∀ own, cached = some own →
    (∀ s ∈ own, s.type = type → sectionScanPath s path = none) ∨
    (∃ s ∈ own, s.type = type ∧ sectionScanPath s path ≠ none ∧ ∀ s' ∈ current, s'.key ≠ s.key) ∨
    ∀ key file, file ≠ "" → (Covers own type path key file ↔ Covers current type path key file)

variable {library : Library} {outcome : Request → Outcome} {sections : List LibrarySection}

/-! ### What is in a section -/

variable {title : Title} {key scanPath : String} {items items' : List Fields} {files : List String}
  {row item : Fields} {hits : List Hit} {n : Nat} {ended' : Bool}

theorem Loaded.unique {ended : Bool} (h : Loaded library outcome key n items ended)
    (h' : Loaded library outcome key n items' ended') : items = items' ∧ ended = ended' := by
  induction h generalizing items' ended' with
  | start =>
    cases h'
    exact ⟨rfl, rfl⟩
  | next _ hpage ih =>
    cases h' with
    | next h' hpage' =>
      rcases ih h' with ⟨rfl, -⟩
      rw [hpage] at hpage'
      cases hpage'
      exact ⟨rfl, rfl⟩

theorem Loaded.le_of_ended {m : Nat} (h : Loaded library outcome key n items true)
    (h' : Loaded library outcome key m items' ended') : m ≤ n := by
  by_contra hlt
  induction h' with
  | start => omega
  | @next m items' page h' hpage ih =>
    by_cases hmn : m = n
    · subst hmn
      exact absurd (h.unique h').2 nofun
    · exact ih (by omega)

theorem Loaded.subset {m : Nat} {ended : Bool} (h : Loaded library outcome key n items ended)
    (h' : Loaded library outcome key m items' ended') (hle : m ≤ n) : items' ⊆ items := by
  induction h with
  | start =>
    obtain rfl : m = 0 := by omega
    cases h'
    exact List.nil_subset _
  | @next n items page h hpage ih =>
    by_cases hmn : m = n + 1
    · subst hmn
      rw [((Loaded.next h hpage).unique h').1]
      exact List.Subset.refl _
    · exact fun item hitem => List.mem_append_left _ (ih (by omega) hitem)

theorem itemsFrom_loaded {pages : Nat} {rest : List Fields}
    (h : Loaded library outcome key n items false)
    (hrest : itemsFrom library outcome key (fun _ => false) pages n = .ok rest) :
    ∃ m, Loaded library outcome key m (items ++ rest) true := by
  induction pages generalizing n items rest with
  | zero => cases hrest
  | succ pages ih =>
    rw [itemsFrom] at hrest
    rcases bind_eq_ok hrest with ⟨page, hpage, hrest⟩
    have hnext := Loaded.next h (wholePage_eq_ok_iff.mp hpage).1
    split at hrest
    · rename_i hstop
      cases hrest
      have hshort : decide (rest.length < pageSize) = true := by simpa using hstop
      rw [hshort] at hnext
      exact ⟨n + 1, hnext⟩
    · rename_i hgo
      have hlong : decide (page.length < pageSize) = false := by simpa using hgo
      rw [hlong] at hnext
      rcases bind_eq_ok hrest with ⟨more, hmore, hrest⟩
      cases hrest
      rcases ih hnext hmore with ⟨m, hm⟩
      rw [List.append_assoc] at hm
      exact ⟨m, hm⟩

theorem itemsFrom_read {pages : Nat}
    (h : itemsFrom library outcome key (fun _ => false) pages n = .ok items) :
    items.all idsRead = true := by
  induction pages generalizing n items with
  | zero => cases h
  | succ pages ih =>
    rw [itemsFrom] at h
    rcases bind_eq_ok h with ⟨page, hpage, h⟩
    have hread := (wholePage_eq_ok_iff.mp hpage).2
    split at h
    · cases h
      exact hread
    · rcases bind_eq_ok h with ⟨more, hmore, h⟩
      cases h
      rw [List.all_append, hread, ih hmore, Bool.and_self]

theorem mem_itemsFrom
    (h : itemsFrom library outcome key (fun _ => false) library.pages 0 = .ok items)
    (item : Fields) :
    item ∈ items ↔ ∃ n items' ended, Loaded library outcome key n items' ended ∧ item ∈ items' := by
  rcases itemsFrom_loaded Loaded.start h with ⟨m, hm⟩
  constructor
  · exact fun hitem => ⟨m, items, true, hm, hitem⟩
  · rintro ⟨n, items', ended, hload, hitem⟩
    exact hm.subset hload (hm.le_of_ended hload) hitem

/-! ### The hits of a search -/

section
variable {findAll : Placed → Except Failure (List Fields)}
  {hit : String → Fields → Except Failure (Option Hit)} {path : String} {placed : List Placed}

theorem gathers_items (scanPath : String) :
    Gathers (fun (hits : List Hit) (item : Fields) => do
      let found ← hit scanPath item
      pure (hits ++ found.toList)) fun item => (hit scanPath item).map Option.toList := by
  intro hits item
  dsimp only
  cases hit scanPath item with
  | ok found | error e => rfl

def sectionHits (findAll : Placed → Except Failure (List Fields))
    (hit : String → Fields → Except Failure (Option Hit)) (path : String) (s : Placed) :
    Except Failure (List Hit) :=
  match sectionScanPath s.1 path with
  | none => .ok []
  | some scanPath => do
      let items ← findAll s
      items.foldlM (fun hits item => do
        let found ← hit scanPath item
        pure (hits ++ found.toList)) []

theorem gathers_sections :
    Gathers (fun (hits : List Hit) (s : Placed) =>
      match sectionScanPath s.1 path with
      | none => (pure hits : Except Failure (List Hit))
      | some scanPath => do
          let items ← findAll s
          items.foldlM (fun hits item => do
            let found ← hit scanPath item
            pure (hits ++ found.toList)) hits) (sectionHits findAll hit path) := by
  intro hits s
  unfold sectionHits
  dsimp only
  cases sectionScanPath s.1 path with
  | none =>
    show Except.ok hits = .ok (hits ++ [])
    rw [List.append_nil]
  | some scanPath =>
    cases findAll s with
    | error e => rfl
    | ok items => exact (gathers_items scanPath).from_start items hits

-- A search that ends well has been through all of the sections that cover the path, and its
-- hits are those that are found there.
theorem collectHits_mem (h : collectHits findAll hit path placed = .ok hits) :
    (∀ s ∈ placed, ∀ scanPath, sectionScanPath s.1 path = some scanPath →
      ∃ items, findAll s = .ok items ∧ ∀ item ∈ items, ∃ found, hit scanPath item = .ok found) ∧
    ∀ own, own ∈ hits ↔ ∃ s ∈ placed, ∃ scanPath, sectionScanPath s.1 path = some scanPath ∧
      ∃ items, findAll s = .ok items ∧ ∃ item ∈ items, hit scanPath item = .ok (some own) := by
  rcases gathers_sections.mem h with ⟨hall, hmem⟩
  -- What is found in one section.
  have hone : ∀ s scanPath own, sectionScanPath s.1 path = some scanPath →
      sectionHits findAll hit path s = .ok own →
      ∃ items, findAll s = .ok items ∧ (∀ item ∈ items, ∃ found, hit scanPath item = .ok found) ∧
        ∀ y, y ∈ own ↔ ∃ item ∈ items, hit scanPath item = .ok (some y) := by
    intro s scanPath own hscan hown
    unfold sectionHits at hown
    rw [hscan] at hown
    rcases bind_eq_ok hown with ⟨items, hitems, hown⟩
    rcases (gathers_items scanPath).mem hown with ⟨htotal, hgot⟩
    refine ⟨items, hitems, ?_, ?_⟩
    · intro item hitem
      rcases htotal item hitem with ⟨ys, hys⟩
      rcases map_eq_ok hys with ⟨found, hcase, -⟩
      exact ⟨found, hcase⟩
    · intro y
      rw [hgot]
      constructor
      · rintro (hnil | ⟨item, hitem, ys, hys, hy⟩)
        · cases hnil
        · rcases map_eq_ok hys with ⟨found, hcase, rfl⟩
          rw [Option.mem_toList.mp hy] at hcase
          exact ⟨item, hitem, hcase⟩
      · rintro ⟨item, hitem, hcase⟩
        refine .inr ⟨item, hitem, [y], ?_, List.mem_cons_self⟩
        rw [hcase]
        rfl
  constructor
  · intro s hs scanPath hscan
    rcases hall s hs with ⟨own, hown⟩
    rcases hone s scanPath own hscan hown with ⟨items, hitems, htotal, -⟩
    exact ⟨items, hitems, htotal⟩
  · intro y
    rw [hmem]
    constructor
    · rintro (hnil | ⟨s, hs, own, hown, hy⟩)
      · cases hnil
      · cases hscan : sectionScanPath s.1 path with
        | none =>
          unfold sectionHits at hown
          rw [hscan] at hown
          cases hown
          cases hy
        | some scanPath =>
          rcases hone s scanPath own hscan hown with ⟨items, hitems, -, hgot⟩
          exact ⟨s, hs, scanPath, hscan, items, hitems, (hgot y).mp hy⟩
    · rintro ⟨s, hs, scanPath, hscan, items, hitems, hgot⟩
      rcases hall s hs with ⟨own, hown⟩
      rcases hone s scanPath own hscan hown with ⟨items', hitems', -, hmem'⟩
      rw [hitems] at hitems'
      cases hitems'
      exact .inr ⟨s, hs, own, hown, (hmem' y).mpr hgot⟩

theorem collectHits_total
    (hall : ∀ s ∈ placed, ∀ scanPath, sectionScanPath s.1 path = some scanPath →
      ∃ items, findAll s = .ok items ∧ ∀ item ∈ items, ∃ found, hit scanPath item = .ok found) :
    ∃ hits, collectHits findAll hit path placed = .ok hits := by
  refine gathers_sections.total ?_ []
  intro s hs
  unfold sectionHits
  cases hscan : sectionScanPath s.1 path with
  | none => exact ⟨[], rfl⟩
  | some scanPath =>
    rcases hall s hs scanPath hscan with ⟨items, hitems, hgot⟩
    rw [hitems]
    refine (gathers_items scanPath).total ?_ []
    intro item hitem
    rcases hgot item hitem with ⟨found, hgot⟩
    rw [hgot]
    exact ⟨found.toList, rfl⟩

end

/-! ### What several hits become -/

theorem sameFiles_iff {files' : List String} :
    sameFiles files files' = true ↔ ∀ file, file ∈ files ↔ file ∈ files' := by
  unfold sameFiles
  rw [Bool.and_eq_true, List.all_eq_true, List.all_eq_true]
  simp only [List.contains_iff_mem]
  constructor
  · exact fun h file => ⟨h.1 file, h.2 file⟩
  · exact fun h => ⟨fun file hfile => (h file).mp hfile, fun file hfile => (h file).mpr hfile⟩

theorem resolve_several (first second : Hit) (rest : List Hit) :
    resolveCorrelatedWatchState (first :: second :: rest) =
      if (second :: rest).all (fun h => sameFiles first.1 h.1) &&
          (first :: second :: rest).any (fun h => h.2.watched) then
        match (timestamps (first :: second :: rest)).max? with
        | some newest => { watched := true, lastViewedAt := some newest }
        | none => unwatched
      else unwatched := rfl

-- Where some hits become a watched state, one of them is watched, none is later, and all are
-- of the same files.
theorem resolve_watched
    (hcontract : ∀ own ∈ hits, own.2.watched = true → own.2.lastViewedAt.isSome = true)
    (h : (resolveCorrelatedWatchState hits).watched = true) :
    ∃ time, (resolveCorrelatedWatchState hits).lastViewedAt = some time ∧
      (∃ own ∈ hits, own.2.watched = true) ∧
      (∀ own ∈ hits, ∀ viewed, own.2.lastViewedAt = some viewed → viewed ≤ time) ∧
      ∀ own ∈ hits, ∀ own' ∈ hits, sameFiles own.1 own'.1 = true := by
  match hits with
  | [] => cases h
  | [own] =>
    rcases Option.isSome_iff_exists.mp (hcontract own List.mem_cons_self h) with ⟨time, htime⟩
    refine ⟨time, htime, ⟨own, List.mem_cons_self, h⟩, ?_, ?_⟩
    · intro own' hown' viewed hview
      rw [List.mem_singleton.mp hown', htime] at hview
      exact Int.le_of_eq (Option.some.inj hview).symm
    · intro own₁ h₁ own₂ h₂
      rw [List.mem_singleton.mp h₁, List.mem_singleton.mp h₂]
      exact sameFiles_iff.mpr fun _ => .rfl
  | first :: second :: rest =>
    rw [resolve_several] at h ⊢
    split at h
    · rename_i hboth
      rw [if_pos hboth]
      rw [Bool.and_eq_true, List.all_eq_true, List.any_eq_true] at hboth
      split at h
      · rename_i newest hmax
        refine ⟨newest, rfl, hboth.2, ?_, ?_⟩
        · intro own hown viewed hview
          refine (List.max?_eq_some_iff.mp hmax).2 viewed ?_
          exact List.mem_filterMap.mpr ⟨own, hown, hview⟩
        · have hfst : ∀ own ∈ first :: second :: rest, ∀ file, file ∈ first.1 ↔ file ∈ own.1 := by
            intro own hown
            rcases List.mem_cons.mp hown with rfl | hown
            · exact fun _ => .rfl
            · exact sameFiles_iff.mp (hboth.1 own hown)
          intro own₁ h₁ own₂ h₂
          exact sameFiles_iff.mpr fun file =>
            (hfst own₁ h₁ file).symm.trans (hfst own₂ h₂ file)
      · cases h
    · cases h

theorem resolve_same {own : Hit} {time : Int} (hne : hits ≠ []) (hall : ∀ own' ∈ hits, own' = own)
    (hown : own.2 = { watched := true, lastViewedAt := some time }) :
    resolveCorrelatedWatchState hits = { watched := true, lastViewedAt := some time } := by
  match hits with
  | [] => exact absurd rfl hne
  | [only] =>
    rw [← hown, ← hall only List.mem_cons_self]
    rfl
  | first :: second :: rest =>
    rw [resolve_several, if_pos]
    · have hmax : (timestamps (first :: second :: rest)).max? = some time := by
        refine List.max?_eq_some_iff.mpr ⟨?_, ?_⟩
        · refine List.mem_filterMap.mpr ⟨first, List.mem_cons_self, ?_⟩
          rw [hall first List.mem_cons_self, hown]
        · intro viewed hview
          rcases List.mem_filterMap.mp hview with ⟨own', hmem, htime⟩
          rw [hall own' hmem, hown] at htime
          exact Int.le_of_eq (Option.some.inj htime).symm
      rw [hmax]
    · rw [Bool.and_eq_true, List.all_eq_true, List.any_eq_true]
      constructor
      · intro own' hown'
        rw [hall first List.mem_cons_self, hall own' (List.mem_cons_of_mem first hown')]
        exact sameFiles_iff.mpr fun _ => .rfl
      · refine ⟨first, List.mem_cons_self, ?_⟩
        rw [hall first List.mem_cons_self, hown]

/-! ### One title -/

theorem getEpochDatetime_ok {found : Option Int}
    (h : getEpochDatetime row "lastViewedAt" = .ok found) : found = getInt row "lastViewedAt" := by
  unfold getEpochDatetime fromTimestamp at h
  cases hval : getInt row "lastViewedAt" with
  | none =>
    rw [hval] at h
    exact (Except.ok.inj h).symm
  | some value =>
    rw [hval] at h
    dsimp only at h
    split at h
    · exact (Except.ok.inj h).symm
    · cases h

theorem Title.state_ok {found : WatchState} (h : title.state row = .ok found) :
    found.lastViewedAt = getInt row "lastViewedAt" ∧
      (found.watched = true → found.lastViewedAt.isSome = true) := by
  cases title with
  | movie tmdbId =>
    have h : movieWatchStateFromItem row = .ok found := h
    unfold movieWatchStateFromItem at h
    rcases bind_eq_ok h with ⟨time, htime, h⟩
    cases h
    exact ⟨getEpochDatetime_ok htime, fun hwat => (Bool.and_eq_true_iff.mp hwat).1⟩
  | season tmdbId number =>
    have h : seasonWatchStateFromEntry row = .ok found := h
    unfold seasonWatchStateFromEntry at h
    rcases bind_eq_ok h with ⟨time, htime, h⟩
    cases h
    exact ⟨getEpochDatetime_ok htime, fun hwat => (Bool.and_eq_true_iff.mp hwat).2⟩

variable (library outcome) in
def Title.hit : Title → String → Fields → Except Failure (Option Hit)
  | .movie _ => movieHit (staticReaders library outcome)
  | .season _ number => seasonHit (staticReaders library outcome) number

theorem Title.hit_backed {own : Hit}
    (h : title.hit library outcome scanPath item = .ok (some own)) :
    anyUnder scanPath own.1 = true ∧ ∃ row, title.Backed library outcome item own.1 row ∧
      title.state row = .ok own.2 := by
  cases title with
  | movie tmdbId =>
    have h : movieHit (staticReaders library outcome) scanPath item = .ok (some own) := h
    unfold movieHit at h
    split at h
    · rename_i hunder
      rcases bind_eq_ok h with ⟨state, hst, h⟩
      cases h
      exact ⟨hunder, item, ⟨rfl, rfl⟩, hst⟩
    · cases h
  | season tmdbId number =>
    have h : seasonHit (staticReaders library outcome) number scanPath item = .ok (some own) := h
    unfold seasonHit at h
    cases hkey : getStr item "ratingKey" with
    | none =>
      rw [hkey] at h
      cases h
    | some ratingKey =>
      rw [hkey] at h
      rcases bind_eq_ok h with ⟨rows, hrows, h⟩
      cases hrow : findSeasonEntryIn rows number with
      | none =>
        rw [hrow] at h
        cases h
      | some row =>
        rw [hrow] at h
        dsimp only at h
        cases hseas : getStr row "ratingKey" with
        | none =>
          rw [hseas] at h
          cases h
        | some seasonKey =>
          rw [hseas] at h
          rcases bind_eq_ok h with ⟨files, hfile, h⟩
          split at h
          · rename_i hunder
            rcases bind_eq_ok h with ⟨state, hst, h⟩
            cases h
            have hidx : getInt row "index" = some number := by simpa using List.find?_some hrow
            exact ⟨hunder, row, ⟨ratingKey, rows, seasonKey, hkey, hrows,
              findSeasonEntryIn_mem hrow, hidx, hseas, hfile⟩, hst⟩
          · cases h

theorem Title.hit_of_backed (huniq : title.Unique library outcome) {found : Option Hit}
    (hback : title.Backed library outcome item files row) (hunder : anyUnder scanPath files = true)
    (h : title.hit library outcome scanPath item = .ok found) :
    ∃ state, title.state row = .ok state ∧ found = some (files, state) := by
  cases title with
  | movie tmdbId =>
    have h : movieHit (staticReaders library outcome) scanPath item = .ok found := h
    obtain ⟨rfl, rfl⟩ : row = item ∧ files = extractFilePaths item := hback
    unfold movieHit at h
    rw [if_pos hunder] at h
    rcases bind_eq_ok h with ⟨state, hst, h⟩
    cases h
    exact ⟨state, hst, rfl⟩
  | season tmdbId number =>
    have h : seasonHit (staticReaders library outcome) number scanPath item = .ok found := h
    rcases hback with ⟨ratingKey, rows, seasonKey, hkey, hrows, hmem, hidx, hseas, hfile⟩
    have hfst : findSeasonEntryIn rows number = some row := by
      cases hrow : findSeasonEntryIn rows number with
      | none => exact absurd hidx (by simpa using List.find?_eq_none.mp hrow row hmem)
      | some row' =>
        have hidx' : getInt row' "index" = some number := by simpa using List.find?_some hrow
        rw [huniq ratingKey rows hrows row hmem row' (findSeasonEntryIn_mem hrow) hidx hidx']
    unfold seasonHit at h
    rw [hkey] at h
    dsimp only [staticReaders] at h
    rw [hrows] at h
    dsimp only [Bind.bind, Except.bind] at h
    rw [hfst] at h
    dsimp only at h
    rw [hseas] at h
    dsimp only at h
    rw [hfile] at h
    dsimp only at h
    rw [if_pos hunder] at h
    rcases bind_eq_ok h with ⟨state, hst, h⟩
    cases h
    exact ⟨state, hst, rfl⟩

/-! ### The hits are the evidence -/

theorem answerOf_query (sections : List LibrarySection) (title : Title) (path : String) :
    answerOf library outcome sections (title.query path) =
      (collectHits ((staticReaders library outcome).findAll title.tmdbId)
        (title.hit library outcome) path (sections.filter (·.type = title.type)).zipIdx).map
          resolveCorrelatedWatchState := by
  cases title with
  | movie tmdbId | season tmdbId number => rfl

theorem anyUnder_iff :
    anyUnder scanPath files = true ↔ ∃ file ∈ files, isPathPrefix scanPath file = true :=
  List.any_eq_true

theorem mem_placed {s : Placed} {type : SectionType}
    (hs : s ∈ (sections.filter (·.type = type)).zipIdx) : s.1 ∈ sections ∧ s.1.type = type := by
  have hmem : s.1 ∈ sections.filter (·.type = type) :=
    List.mem_of_getElem? (List.mem_zipIdx_iff_getElem?.mp hs)
  exact ⟨List.mem_of_mem_filter hmem, by simpa using (List.mem_filter.mp hmem).2⟩

theorem exists_placed {s : LibrarySection} {type : SectionType} (hs : s ∈ sections)
    (htype : s.type = type) : ∃ i, (s, i) ∈ (sections.filter (·.type = type)).zipIdx := by
  have hmem : s ∈ sections.filter (·.type = type) :=
    List.mem_filter.mpr ⟨hs, by simpa using htype⟩
  rcases List.getElem?_of_mem hmem with ⟨i, hi⟩
  exact ⟨i, List.mem_zipIdx_iff_getElem?.mpr hi⟩

variable {path : String}

theorem mem_hits (huniq : title.Unique library outcome)
    (h : collectHits ((staticReaders library outcome).findAll title.tmdbId)
      (title.hit library outcome) path (sections.filter (·.type = title.type)).zipIdx = .ok hits) :
    (∀ own ∈ hits, ∃ row, Evidence library outcome sections title path own.1 row ∧
      title.state row = .ok own.2) ∧
    ∀ files row, Evidence library outcome sections title path files row →
      ∃ state, title.state row = .ok state ∧ (files, state) ∈ hits := by
  rcases collectHits_mem h with ⟨hall, hmem⟩
  constructor
  · intro own hown
    rcases (hmem own).mp hown with ⟨s, hs, scanPath, hscan, items, hitems, item, hitem, hhit⟩
    rcases Title.hit_backed hhit with ⟨hunder, row, hback, hst⟩
    rcases mem_placed hs with ⟨hsect, htype⟩
    rcases anyUnder_iff.mp hunder with ⟨file, hfile, hpre⟩
    cases hread : itemsFrom library outcome s.1.key (fun _ => false) library.pages 0 with
    | error e =>
      simp only [staticReaders, hread] at hitems
      cases hitems
    | ok all =>
      simp only [staticReaders, hread] at hitems
      cases hitems
      rw [List.mem_filter] at hitem
      rcases (mem_itemsFrom hread item).mp hitem.1 with ⟨n, items', ended, hload, hin⟩
      exact ⟨row, ⟨s.1.key, n, items', ended, hload, item, hin, hitem.2, hback, file, hfile,
        s.1, hsect, htype, rfl, scanPath, hscan, hpre⟩, hst⟩
  · rintro files row ⟨_, n, items, ended, hload, item, hin, hmatch, hback, file, hfile,
      s, hsect, htype, rfl, scanPath, hscan, hpre⟩
    rcases exists_placed hsect htype with ⟨i, hs⟩
    rcases hall (s, i) hs scanPath hscan with ⟨found, hgot, htotal⟩
    cases hread : itemsFrom library outcome s.key (fun _ => false) library.pages 0 with
    | error e =>
      simp only [staticReaders, hread] at hgot
      cases hgot
    | ok all =>
      have hgot' := hgot
      simp only [staticReaders, hread] at hgot'
      cases hgot'
      have hitem : item ∈ all.filter (itemMatchesTmdbId title.tmdbId) :=
        List.mem_filter.mpr ⟨(mem_itemsFrom hread item).mpr ⟨n, items, ended, hload, hin⟩, hmatch⟩
      rcases htotal item hitem with ⟨own, hown⟩
      rcases Title.hit_of_backed huniq hback (anyUnder_iff.mpr ⟨file, hfile, hpre⟩) hown with
        ⟨state, hst, rfl⟩
      exact ⟨state, hst, (hmem _).mpr ⟨(s, i), hs, scanPath, hscan, _, hgot, item, hitem, hown⟩⟩

theorem resolve_supported
    (hsound : ∀ own ∈ hits, ∃ row, Evidence library outcome sections title path own.1 row ∧
      title.state row = .ok own.2)
    (hcmp : ∀ files row, Evidence library outcome sections title path files row →
      ∃ state, title.state row = .ok state ∧ (files, state) ∈ hits)
    (hwat : (resolveCorrelatedWatchState hits).watched = true) :
    Supported library outcome sections title path (resolveCorrelatedWatchState hits) := by
  have hcontract : ∀ own ∈ hits, own.2.watched = true → own.2.lastViewedAt.isSome = true := by
    intro own hown
    rcases hsound own hown with ⟨row, -, hst⟩
    exact (Title.state_ok hst).2
  rcases resolve_watched hcontract hwat with ⟨time, htime, ⟨own, hown, hone⟩, hlast, hsame⟩
  have hbnd : ∀ files row viewed, Evidence library outcome sections title path files row →
      getInt row "lastViewedAt" = some viewed → viewed ≤ time := by
    intro files row viewed hevid hview
    rcases hcmp files row hevid with ⟨state, hst, hmem⟩
    exact hlast _ hmem viewed ((Title.state_ok hst).1.trans hview)
  constructor
  · rcases hsound own hown with ⟨row, hevid, hst⟩
    exact ⟨own.1, row, own.2, hevid, hst, hone⟩
  · exact ⟨time, htime, hbnd⟩
  · intro files row files' row' hevid hevid'
    rcases hcmp files row hevid with ⟨state, -, hmem⟩
    rcases hcmp files' row' hevid' with ⟨state', -, hmem'⟩
    exact hsame _ hmem _ hmem'
  · intro cutoff files row viewed hevid hview hcutoff time' htime'
    have hle := hbnd files row viewed hevid hview
    rw [htime] at htime'
    have heq := Option.some.inj htime'
    omega

/-! ### A list that does no harm -/

theorem Reports.answer {st : Caches} {query : WatchStateQuery} {state : WatchState}
    (h : Reports library outcome st query state) :
    answerFrom library outcome st query = .ok state := by
  rcases h with ⟨trace, q, hserv, hok⟩ | ⟨queries, states, n, hq, hst, trace, q, hserv, hok⟩
  · rw [← (served_watchState hserv).1]
    exact hok
  rcases served_resolveWatchStates hserv with ⟨rfl, -, -⟩ | ⟨e, -, -, herr, -⟩ |
    ⟨sections, before, after, hlist, -, -, hres⟩
  · cases hq
  · rw [hok] at herr
    cases herr
  · rw [hok] at hres
    rw [answerFrom_of_listed hlist]
    rcases List.getElem?_eq_some_iff.mp hq with ⟨hlt, rfl⟩
    rcases List.getElem?_eq_some_iff.mp hst with ⟨hlt', rfl⟩
    exact (answersOf_ok hres.answersOf_eq).get hlt hlt'

theorem getStr_ne {fields : Fields} {value : String} (h : getStr fields key = some value) :
    value ≠ "" := by
  unfold getStr at h
  split at h
  · split at h
    · cases h
    cases h
    assumption
  · cases h

theorem ne_of_mem_extractFilePaths {file : String}
    (h : file ∈ extractFilePaths item) : file ≠ "" := by
  rcases List.mem_flatMap.mp h with ⟨media, -, hfile⟩
  rcases List.mem_filterMap.mp hfile with ⟨part, -, hpart⟩
  exact getStr_ne hpart

theorem file_ne_of_backed (h : title.Backed library outcome item files row) {file : String}
    (hfile : file ∈ files) : file ≠ "" := by
  cases title with
  | movie tmdbId =>
    obtain ⟨-, rfl⟩ : row = item ∧ files = extractFilePaths item := h
    exact ne_of_mem_extractFilePaths hfile
  | season tmdbId number =>
    rcases h with ⟨ratingKey, rows, seasonKey, -, -, -, -, -, hfiles⟩
    unfold filesOf at hfiles
    cases hchild : childrenOf library outcome seasonKey with
    | error e =>
      rw [hchild] at hfiles
      cases hfiles
    | ok children =>
      rw [hchild] at hfiles
      cases hfiles
      rcases List.mem_flatMap.mp hfile with ⟨child, -, hin⟩
      exact ne_of_mem_extractFilePaths hin

theorem Evidence.congr {own current : List LibrarySection}
    (h : ∀ key file, file ≠ "" →
      (Covers own title.type path key file ↔ Covers current title.type path key file))
    (files : List String) (row : Fields) :
    Evidence library outcome own title path files row ↔
      Evidence library outcome current title path files row := by
  constructor
  · rintro ⟨key, n, items, ended, hload, item, hitem, hmatch, hback, file, hfile, hcov⟩
    exact ⟨key, n, items, ended, hload, item, hitem, hmatch, hback, file, hfile,
      (h key file (file_ne_of_backed hback hfile)).mp hcov⟩
  · rintro ⟨key, n, items, ended, hload, item, hitem, hmatch, hback, file, hfile, hcov⟩
    exact ⟨key, n, items, ended, hload, item, hitem, hmatch, hback, file, hfile,
      (h key file (file_ne_of_backed hback hfile)).mpr hcov⟩

theorem Evidence.headerSafe
    (h : Evidence library outcome sections title path files row) : library.headerSafe = true := by
  rcases h with ⟨key, n, items, ended, hload, item, hitem, -⟩
  rcases hload.mem hitem with ⟨m, page, hpage, -⟩
  have hsent := sent_page hpage
  unfold sent at hsent
  split at hsent
  · assumption
  · cases hsent

theorem Evidence.exists_section {own : List LibrarySection}
    (h : Evidence library outcome own title path files row) :
    ∃ s ∈ own, s.type = title.type ∧ sectionScanPath s path ≠ none := by
  rcases h with ⟨key, n, items, ended, -, item, -, -, -, file, -, s, hs, htype, -, scanPath,
    hscan, -⟩
  exact ⟨s, hs, htype, by rw [hscan]; simp⟩

theorem pageAt_of_findAll {tmdbId : Nat} {s : Placed}
    (h : (staticReaders library outcome).findAll tmdbId s = .ok items) :
    ∃ page, pageAt library outcome s.1.key 0 = .ok page := by
  dsimp only [staticReaders] at h
  cases hpage : pageAt library outcome s.1.key 0 with
  | ok page => exact ⟨page, rfl⟩
  | error e =>
    cases hpages : library.pages with
    | zero =>
      rw [hpages] at h
      cases h
    | succ pages =>
      have herr : pageRead library outcome s.1.key (fun _ => false) 0 = .error e := by
        unfold pageRead
        rw [hpage]
        rfl
      rw [hpages, itemsFrom, herr] at h
      cases h

-- What is reported is resolved from the hits in the sections of the list.
theorem Reports.collected {st : Caches} {state : WatchState}
    (h : Reports library outcome st (title.query path) state) :
    ∃ own hits, listed library outcome st = .ok own ∧
      collectHits ((staticReaders library outcome).findAll title.tmdbId)
        (title.hit library outcome) path (own.filter (·.type = title.type)).zipIdx = .ok hits ∧
      state = resolveCorrelatedWatchState hits := by
  have hans := h.answer
  cases hlist : listed library outcome st with
  | error e =>
    rcases answerFrom_of_failed hlist (title.query path) with ⟨e', herr⟩
    rw [hans] at herr
    cases herr
  | ok own =>
    rw [answerFrom_of_listed hlist, answerOf_query] at hans
    rcases map_eq_ok hans with ⟨hits, hhits, hstate⟩
    exact ⟨own, hits, rfl, hhits, hstate⟩

theorem supported_of_trustworthy {st : Caches} {current : List LibrarySection}
    (hcur : Current library outcome current) (huniq : title.Unique library outcome)
    (htrust : library.headerSafe = false ∨
      Trustworthy (cachedSections library st) current title.type path) {state : WatchState}
    (hrep : Reports library outcome st (title.query path) state)
    (hwat : state.watched = true) :
    Supported library outcome current title path state := by
  rcases hrep.collected with ⟨own, hits, hlist, hhits, rfl⟩
  rcases mem_hits huniq hhits with ⟨hsound, hcmp⟩
  -- There is a hit, so that some evidence was found in the sections of the list.
  obtain ⟨row, files, hgot⟩ : ∃ row files,
    Evidence library outcome own title path files row := by
    cases hits with
    | nil => cases hwat
    | cons first rest =>
      rcases hsound first List.mem_cons_self with ⟨row, hevid, -⟩
      exact ⟨row, _, hevid⟩
  suffices hsame : ∀ files row, Evidence library outcome own title path files row ↔
      Evidence library outcome current title path files row by
    refine resolve_supported ?_ ?_ hwat
    · intro hit hhit
      rcases hsound hit hhit with ⟨row, hevid, hst⟩
      exact ⟨row, (hsame _ _).mp hevid, hst⟩
    · exact fun files row hevid => hcmp files row ((hsame _ _).mpr hevid)
  rcases htrust with hunsafe | htrust
  · rw [hgot.headerSafe] at hunsafe
    cases hunsafe
  unfold listed at hlist
  cases hcach : cachedSections library st with
  | none =>
    rw [hcach] at hlist
    rw [hcur.listed own hlist]
    exact fun _ _ => .rfl
  | some cached =>
    rw [hcach] at hlist
    cases hlist
    rcases htrust own hcach with hnone | ⟨s, hs, htype, hcover, hgone⟩ | hcov
    · rcases hgot.exists_section with ⟨s, hs, htype, hsome⟩
      exact absurd (hnone s hs htype) hsome
    · -- The search comes to a section that is gone.
      rcases exists_placed hs htype with ⟨i, hput⟩
      rcases Option.ne_none_iff_exists'.mp hcover with ⟨scanPath, hscan⟩
      rcases (collectHits_mem hhits).1 (s, i) hput scanPath hscan with
        ⟨items, hitem, -⟩
      rcases hcur.unlisted s.key 0 hgone with ⟨e, herr⟩
      rcases pageAt_of_findAll hitem with ⟨page, hpage⟩
      rw [hpage] at herr
      cases herr
    · exact Evidence.congr hcov

end PlexLibrary

end PlexManager
