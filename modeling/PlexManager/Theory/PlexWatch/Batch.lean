import Mathlib.Data.List.TakeWhile
import PlexManager.Theory.PlexWatch.Memory
import PlexManager.Lib.Gather

/-!
# Many titles in one go

The readers of a batch give what the readers of `watchState` give, and ask for no more. The
searches are put together from the readers in the same way on both sides, so what holds of
the readers holds of them, and of one query after another.

A batch reads the ids of all the items of a page, and a single call only of those up to the one
that it looks for. So a batch raises as well where a page that it asks for has an id that is
too long for `int`, and this is all that it raises for besides.

A batch lists the sections once, and single calls list them each time. So they are the same
only if the list that the first call sees is what the later ones see: if the cached list is
still what Plex says, or does not expire meanwhile.

## Theorems

* `resolveWatchStates_like_watchState`: A batch beside single calls.
-/

namespace PlexManager

namespace PlexLibrary

open Effects Gather KeyedTable TtlCache

variable {library : Library} {outcome : Request → Outcome} {sections : List LibrarySection}

/-! ### The searches -/

def remembering (library : Library) (outcome : Request → Outcome) (sections : List LibrarySection) :
    Simulation (Run Request (fun _ => Reply) Failure Batch)
      (Run Request (fun _ => Reply) Failure Caches) :=
  recalling (Serves outcome) (memory library outcome sections)

theorem remembering_finders (type : SectionType) :
    FindersRel (remembering library outcome sections) (batchReaders library type)
      (freshReaders library) (sections.filter (·.type = type))
      (InSection library outcome sections type) where
  findFirst tmdbId _ hs := recalls_findFirst tmdbId hs
  findAll tmdbId _ hs := recalls_completeMatches tmdbId hs
  lift _ := Recalls.ofExcept (sameEnd_rfl fun _ _ => rfl)

theorem keyed_of_inSection {item : Fields} (h : InSection library outcome sections .show item) :
    Keyed (IsShow library outcome sections) item := by
  intro key hkey
  rcases h with ⟨s, hs, htype, n, page, hpage, hitem⟩
  exact ⟨s, hs, htype, n, page, hpage, item, hitem, hkey⟩

variable (library sections) in
/-- The search of `watchState`, after its listing. -/
def searchIn (query : WatchStateQuery) : Call WatchState :=
  match query.mediaType, query.season with
  | .movie, _ => movieFlow (freshReaders library) (sections.filter (·.type = .movie)) query.tmdbId
      query.libraryPath
  | .tv, some season => tvFlow (freshReaders library) (sections.filter (·.type = .show))
      query.tmdbId season query.libraryPath
  | .tv, none => Run.raise .value

theorem denotes_searchIn (query : WatchStateQuery) :
    (knowing library outcome).Rel (searchIn library sections query)
      (answerOf library outcome sections query) Eq := by
  rcases query with ⟨tmdbId, mediaType, season, libraryPath⟩
  cases mediaType with
  | movie => exact movieFlow_rel (knowing_finders _) _ _
  | tv => cases season with
    | none => exact Denotes.ofExcept Relisted.refl rfl
    | some season => exact tvFlow_rel (knowing_finders _) knowing_rows (fun _ h => h) _ _ _

theorem recalls_sections {α β : Type} {type : SectionType} {f : List LibrarySection → BatchCall α}
    {y : Call β} {R : α → β → Prop}
    (h : Recalls (Serves outcome) (memory library outcome sections)
      (f (sections.filter (·.type = type))) y R) :
    Recalls (Serves outcome) (memory library outcome sections)
      (do
        let b ← Run.record
        f (b.sections type)) y R := by
  intro b known plain trace q trace' q' hb hnd hx hy
  rw [Run.served_bind_record, hb.sections type] at hx
  exact h b known plain trace q trace' q' hb hnd hx hy

-- One query of a batch gives what `watchState` gives, and reads no more.
theorem recalls_resolveQuery (query : WatchStateQuery) :
    Recalls (Serves outcome) (memory library outcome sections) (resolveQuery library query)
      (searchIn library sections query) Eq := by
  rcases query with ⟨tmdbId, mediaType, season, libraryPath⟩
  cases mediaType with
  | movie =>
    have h : (remembering library outcome sections).Rel _ _ _ :=
      movieFlow_rel (remembering_finders .movie) tmdbId libraryPath
    exact recalls_sections
      (f := fun own => movieFlow (batchReaders library .movie) own tmdbId libraryPath) h
  | tv => cases season with
    | none => exact Recalls.ofExcept rfl
    | some season =>
      have h : (remembering library outcome sections).Rel _ _ _ :=
        tvFlow_rel (remembering_finders .show)
          ⟨fun _ => recalls_cachedSeasonEntries, fun _ => recalls_cachedChildrenFilePaths⟩
          (fun _ => keyed_of_inSection) tmdbId season libraryPath
      exact recalls_sections
        (f := fun own => tvFlow (batchReaders library .show) own tmdbId season libraryPath) h

/-! ### One query after another -/

variable (library outcome sections) in
def answersOf : List WatchStateQuery → Except Failure (List WatchState)
  | [] => .ok []
  | query :: queries => do
      let state ← answerOf library outcome sections query
      let states ← answersOf queries
      pure (state :: states)

variable (library outcome sections) in
/-- What becomes of the queries of a batch that knows something. -/
structure Resolved (known : List Lookup) (queries : List WatchStateQuery) (trace : List Request)
    (end' : Except Failure (List WatchState)) : Prop where
  answers : end' = answersOf library outcome sections queries ∨
    (∃ e, end' = .error e) ∧ ∃ op ∈ trace, Unread library outcome op
  fit : ∀ states, end' = .ok states → ∀ op ∈ trace, ¬ Unread library outcome op
  asked : ∃ asked, trace = asked.map Lookup.request ∧ (known ++ asked).Nodup ∧
    ∀ k ∈ asked, k.Valid library outcome sections
  single : ∀ op ∈ trace, ∃ query ∈ queries, ∀ plain trace' q',
    Program.Served (Serves outcome) (searchIn library sections query plain) trace' q' → op ∈ trace'

theorem exists_served {α : Type} (x : Call α) (st : Caches) :
    ∃ trace q, Program.Served (Serves outcome) (x st) trace q := by
  have hok : ∀ r, Serves outcome r ({ outcome := outcome r } : Reply) := fun _ => rfl
  exact ⟨_, _, Program.served_serve hok (x st)⟩

variable {st : Caches} {trace : List Request} {queries : List WatchStateQuery}
  {q : Except Failure (List WatchState) × Caches} {query : WatchStateQuery}
  {known asked : List Lookup}

theorem served_resolveQuery {b : Batch} (hb : Remembers library outcome sections b known)
    (hnd : known.Nodup) {q : Except Failure WatchState × Batch}
    (h : Program.Served (Serves outcome) (resolveQuery library query b) trace q) :
    (q.1 = answerOf library outcome sections query ∨
        (∃ e, q.1 = .error e) ∧ ∃ op ∈ trace, Unread library outcome op) ∧
      (∃ asked, trace = asked.map Lookup.request ∧ (known ++ asked).Nodup ∧
        (∀ k ∈ asked, k.Valid library outcome sections) ∧
        ∀ state, q.1 = .ok state → Remembers library outcome sections q.2 (known ++ asked)) ∧
      (∀ state, q.1 = .ok state → ∀ op ∈ trace, ¬ Unread library outcome op) ∧
      ∀ plain trace' q', Program.Served (Serves outcome) (searchIn library sections query plain)
        trace' q' → trace ⊆ trace' := by
  rcases exists_served (searchIn library sections query) { now := 0 } with ⟨trace', q', h'⟩
  rcases recalls_resolveQuery query b known _ _ _ _ _ hb hnd h h' with ⟨hsame, asked, hasked⟩
  refine ⟨hsame.imp_left fun hsame => ?_, ?_, hasked.fit, ?_⟩
  · rw [hsame.eq]
    exact (denotes_searchIn query _ _ _ h').1.eq
  · exact ⟨asked, hasked.trace_eq, hasked.nodup, hasked.valid, hasked.knows⟩
  · intro plain trace' q' h'
    rcases recalls_resolveQuery query b known _ _ _ _ _ hb hnd h h' with ⟨-, asked, hasked⟩
    exact hasked.subset

theorem served_resolveQueries {b : Batch} (hb : Remembers library outcome sections b known)
    (hnd : known.Nodup) {q : Except Failure (List WatchState) × Batch}
    (h : Program.Served (Serves outcome) (resolveQueries library queries b) trace q) :
    Resolved library outcome sections known queries trace q.1 := by
  induction queries generalizing b known trace q with
  | nil =>
    rcases Run.served_pure.mp h with ⟨rfl, rfl⟩
    exact ⟨.inl rfl, by simp, ⟨[], rfl, by rwa [List.append_nil], by simp⟩, by simp⟩
  | cons query queries ih =>
    rcases Run.served_bind.mp h with ⟨before, state, b₁, after, hfst, hrest, rfl⟩ |
      ⟨e, b₁, hfst, rfl⟩
    · rcases served_resolveQuery hb hnd hfst with
        ⟨hst, ⟨asked, rfl, hnd₁, hval, hb₁⟩, hfit, hsub⟩
      rcases Run.served_map hrest with ⟨q₀, hmore, rfl⟩
      have hrec := ih (hb₁ state rfl) hnd₁ hmore
      rcases hrec.asked with ⟨asked', rfl, hnd₂, hval'⟩
      have hst : .ok state = answerOf library outcome sections query :=
        hst.resolve_right fun hfail => hfail.1.elim nofun
      refine ⟨?_, ?_, ⟨asked ++ asked', by rw [List.map_append], ?_, ?_⟩, ?_⟩
      · rw [answersOf, ← hst]
        rcases hrec.answers with hans | ⟨⟨e, herr⟩, op, hop, hunread⟩
        · rw [hans]
          exact .inl rfl
        · rw [herr]
          exact .inr ⟨⟨e, rfl⟩, op, List.mem_append_right _ hop, hunread⟩
      · intro states hok op hop
        rcases map_eq_ok hok with ⟨states', hok', -⟩
        rcases List.mem_append.mp hop with hop | hop
        · exact hfit state rfl op hop
        · exact hrec.fit states' hok' op hop
      · rwa [List.append_assoc] at hnd₂
      · intro k hk
        rcases List.mem_append.mp hk with hk | hk
        · exact hval k hk
        · exact hval' k hk
      · intro op hop
        rcases List.mem_append.mp hop with hop | hop
        · exact ⟨query, List.mem_cons_self, fun plain trace' q' h' => hsub plain trace' q' h' hop⟩
        · rcases hrec.single op hop with ⟨query', hmem, hall⟩
          exact ⟨query', List.mem_cons_of_mem query hmem, hall⟩
    · rcases served_resolveQuery hb hnd hfst with
        ⟨hst, ⟨asked, rfl, hnd₁, hval, -⟩, -, hsub⟩
      refine ⟨?_, nofun, ⟨asked, rfl, hnd₁, hval⟩, ?_⟩
      · rcases hst with hst | ⟨-, hunread⟩
        · rw [answersOf, ← hst]
          exact .inl rfl
        · exact .inr ⟨⟨e, rfl⟩, hunread⟩
      · exact fun op hop =>
        ⟨query, List.mem_cons_self, fun plain trace' q' h' => hsub plain trace' q' h' hop⟩

theorem remembers_newBatch (caches : Caches) :
    Remembers library outcome sections (newBatch sections caches) [] := by
  have hindex : ∀ type, (newBatch sections caches).index type = newIndex sections type := by
    intro type
    rcases type with _ | _
    · rfl
    · rfl
  refine ⟨?_, ?_, fun _ => List.not_mem_nil, fun _ => List.not_mem_nil⟩
  · intro type
    unfold Batch.sections
    rw [hindex, newIndex, List.map_map]
    exact List.map_id _
  · intro type i idx hidx
    rw [hindex, newIndex, List.getElem?_map] at hidx
    rcases Option.map_eq_some_iff.mp hidx with ⟨s, -, rfl⟩
    refine ⟨0, [], ⟨Loaded.start, rfl, rfl, (Nat.zero_mul _).symm, Nat.zero_le _⟩, fun key n => ?_⟩
    simp

/-! ### How often something is asked for -/

theorem length_zipIdx_filter (p : LibrarySection → Bool) (own : List LibrarySection) :
    (own.zipIdx.filter fun s => p s.1).length = own.countP p := by
  have hmap : own.countP p = (own.zipIdx.map Prod.fst).countP p := by
    rw [List.zipIdx_map_fst]
  rw [hmap, List.countP_map, List.countP_eq_length_filter]
  rfl

def pageLookups (sections : List LibrarySection) (key : String) (n : Nat) : List Lookup :=
  [SectionType.movie, SectionType.show].flatMap fun type =>
    ((sections.filter (·.type = type)).zipIdx.filter fun s => s.1.key = key).map fun s =>
      .page type s.2 key n

theorem length_pageLookups (sections : List LibrarySection) (key : String) (n : Nat) :
    (pageLookups sections key n).length = sections.countP (·.key = key) := by
  have htypes : ∀ s : LibrarySection, (s.type = .show) = ¬ s.type = .movie := by
    intro s
    rcases s.type with _ | _
    · simp
    · simp
  rw [List.countP_eq_countP_filter_add sections (·.key = key) (·.type = .movie)]
  simp only [pageLookups, List.flatMap_cons, List.flatMap_nil, List.append_nil, List.length_append,
    List.length_map, length_zipIdx_filter (fun s => decide (s.key = key)), htypes]
  simp

theorem count_pages (hnd : asked.Nodup)
    (hval : ∀ k ∈ asked, k.Valid library outcome sections) (key : String) (start : Nat) :
    (asked.map Lookup.request).count (.sectionItems key start) ≤ sections.countP (·.key = key) := by
  rw [← length_pageLookups sections key (start / pageSize)]
  refine count_map_le hnd ?_
  intro k hk hreq
  have hk := hval k hk
  cases k with
  | seasons ratingKey | episodes ratingKey => cases hreq
  | page type i key' n =>
    injection hreq with hkey hbeg
    subst hkey
    have hpage : start / pageSize = n := by
      rw [← hbeg]
      exact Nat.mul_div_cancel n (by decide)
    rcases Option.map_eq_some_iff.mp hk with ⟨s, hs, hkey⟩
    rw [hpage]
    refine List.mem_flatMap.mpr ⟨type, ?_, ?_⟩
    · rcases type with _ | _
      · simp
      · simp
    · refine List.mem_map.mpr ⟨(s, i), List.mem_filter.mpr ⟨?_, by simpa using hkey⟩, rfl⟩
      exact List.mem_zipIdx_iff_getElem?.mpr hs

theorem count_children (hnd : asked.Nodup)
    (hval : ∀ k ∈ asked, k.Valid library outcome sections) (key : String) :
    (asked.map Lookup.request).count (.children key) ≤ 2 ∧
      (¬ (IsShow library outcome sections key ∧ IsSeason library outcome sections key) →
        (asked.map Lookup.request).count (.children key) ≤ 1) := by
  have hrole : ∀ k ∈ asked, k.request = .children key →
      (k = .seasons key ∧ IsShow library outcome sections key) ∨
        (k = .episodes key ∧ IsSeason library outcome sections key) := by
    intro k hk hreq
    have hk := hval k hk
    cases k with
    | page type i key' n => cases hreq
    | seasons key' =>
      injection hreq with hkey
      subst hkey
      exact .inl ⟨rfl, hk⟩
    | episodes key' =>
      injection hreq with hkey
      subst hkey
      exact .inr ⟨rfl, hk⟩
  constructor
  · show _ ≤ [Lookup.seasons key, .episodes key].length
    refine count_map_le hnd ?_
    intro k hk hreq
    rcases hrole k hk hreq with ⟨rfl, -⟩ | ⟨rfl, -⟩
    · simp
    · simp
  · intro hone
    by_cases hshow : IsShow library outcome sections key
    · show _ ≤ [Lookup.seasons key].length
      refine count_map_le hnd ?_
      intro k hk hreq
      rcases hrole k hk hreq with ⟨rfl, -⟩ | ⟨-, hseas⟩
      · simp
      · exact absurd ⟨hshow, hseas⟩ hone
    · show _ ≤ [Lookup.episodes key].length
      refine count_map_le hnd ?_
      intro k hk hreq
      rcases hrole k hk hreq with ⟨-, hshow'⟩ | ⟨rfl, -⟩
      · exact absurd hshow' hshow
      · simp

/-! ### Single calls, one after another -/

variable (library outcome) in
/-- What the cache says of the sections when some calls begin is what Plex says, or the cache
    still says it when they end. -/
def Steady (st st' : Caches) : Prop :=
  ∀ sections, cachedSections library st = some sections →
    listing library outcome = .ok sections ∨ cachedSections library st' = some sections

theorem listed_of_steady {st' : Caches} (hstead : Steady library outcome st st')
    (hkept : Relisted library outcome st st') :
    listed library outcome st' = listed library outcome st := by
  unfold listed
  cases hst : cachedSections library st with
  | none =>
    cases hst' : cachedSections library st' with
    | none => rfl
    | some sections =>
      rcases hkept sections hst' with hold | hlist
      · rw [hst] at hold
        cases hold
      · exact hlist.symm
  | some sections =>
    cases hst' : cachedSections library st' with
    | none =>
      rcases hstead sections hst with hlist | hstill
      · exact hlist
      · rw [hst'] at hstill
        cases hstill
    | some sections' =>
      rcases hkept sections' hst' with hold | hlist'
      · rw [hst] at hold
        exact congrArg Except.ok (Option.some.inj hold).symm
      · rcases hstead sections hst with hlist | hstill
        · exact hlist'.symm.trans hlist
        · rw [hst'] at hstill
          exact congrArg Except.ok (Option.some.inj hstill)

theorem Steady.split {st₁ st₂ : Caches} (hstead : Steady library outcome st st₂)
    (hfst : Relisted library outcome st st₁) (hrest : Relisted library outcome st₁ st₂) :
    Steady library outcome st st₁ ∧ Steady library outcome st₁ st₂ := by
  constructor
  · intro sections hst
    rcases hstead sections hst with hlist | hstill
    · exact .inl hlist
    · rcases hrest sections hstill with hst₁ | hlist
      · exact .inr hst₁
      · exact .inl hlist
  · intro sections hst₁
    rcases hfst sections hst₁ with hst | hlist
    · exact hstead sections hst
    · exact .inl hlist

variable (library outcome) in
/-- The answers to some queries, by what a call sees at first. -/
def answersFrom (st : Caches) : List WatchStateQuery → Except Failure (List WatchState)
  | [] => .ok []
  | query :: queries => do
      let state ← answerFrom library outcome st query
      let states ← answersFrom st queries
      pure (state :: states)

theorem answersFrom_congr {st' : Caches}
    (h : listed library outcome st' = listed library outcome st) (queries : List WatchStateQuery) :
    answersFrom library outcome st' queries = answersFrom library outcome st queries := by
  induction queries with
  | nil => rfl
  | cons query queries ih =>
    rw [answersFrom, answersFrom, ih]
    unfold answerFrom
    rw [h]

theorem served_watchStates
    (h : Program.Served (Serves outcome) (watchStates library queries st) trace q) :
    Relisted library outcome st q.2 ∧
      (Steady library outcome st q.2 → q.1 = answersFrom library outcome st queries) := by
  induction queries generalizing st trace q with
  | nil =>
    rcases Run.served_pure.mp h with ⟨rfl, rfl⟩
    exact ⟨Relisted.refl st, fun _ => rfl⟩
  | cons query queries ih =>
    rcases Run.served_bind.mp h with ⟨before, state, st₁, after, hfst, hrest, rfl⟩ |
      ⟨e, st₁, hfst, rfl⟩
    · rcases served_watchState hfst with ⟨hst, hkept⟩
      rcases Run.served_map hrest with ⟨q₀, hmore, rfl⟩
      rcases ih hmore with ⟨hkept₀, hans⟩
      refine ⟨hkept.trans _ _ _ hkept₀, fun hstead => ?_⟩
      rcases hstead.split hkept hkept₀ with ⟨hbef, haft⟩
      have hlist := listed_of_steady hbef hkept
      rw [answersFrom, ← hst, hans haft, answersFrom_congr hlist]
      rfl
    · rcases served_watchState hfst with ⟨hst, hkept⟩
      refine ⟨hkept, fun _ => ?_⟩
      rw [answersFrom, ← hst]
      rfl

/-! ### A batch beside single calls -/

variable (library outcome) in
def seenSections (st : Caches) : List LibrarySection :=
  match listed library outcome st with
  | .ok sections => sections
  | .error _ => []

theorem served_resolveWatchStates
    (h : Program.Served (Serves outcome) (resolveWatchStates library queries st) trace q) :
    (queries = [] ∧ trace = [] ∧ q.1 = .ok []) ∨
    (∃ e, queries ≠ [] ∧ listed library outcome st = .error e ∧ q.1 = .error e ∧
      trace ⊆ [.sections]) ∨
    ∃ sections before after, listed library outcome st = .ok sections ∧ before ⊆ [.sections] ∧
      trace = before ++ after ∧ Resolved library outcome sections [] queries after q.1 := by
  unfold resolveWatchStates at h
  by_cases hnil : queries = []
  · rw [if_pos hnil] at h
    rcases Run.served_pure.mp h with ⟨rfl, rfl⟩
    exact .inl ⟨hnil, rfl, rfl⟩
  rw [if_neg hnil] at h
  have honly : ∀ trace : List Request, trace = [] ∨ trace = [.sections] → trace ⊆ [.sections] := by
    rintro trace (rfl | rfl)
    · exact List.nil_subset _
    · exact List.Subset.refl _
  rcases Run.served_bind.mp h with ⟨before, sections, st₁, after, hlist, hrest, rfl⟩ |
    ⟨e, st₁, hlist, rfl⟩
  · rcases served_listSections hlist with ⟨hlisted, -, htr⟩
    rcases Program.served_bind.mp hrest with ⟨own, q₀, rest, hown, hend, rfl⟩
    rcases Program.served_ret.mp hend with ⟨rfl, rfl⟩
    have hres := served_resolveQueries (remembers_newBatch st₁) List.nodup_nil hown
    refine .inr (.inr ⟨sections, before, own ++ [], hlisted.symm, honly _ htr, rfl, ?_⟩)
    rwa [List.append_nil]
  · rcases served_listSections hlist with ⟨hlisted, -, htr⟩
    exact .inr (.inl ⟨e, hnil, hlisted.symm, rfl, honly _ htr⟩)

theorem answerFrom_of_listed
    (h : listed library outcome st = .ok sections) (query : WatchStateQuery) :
    answerFrom library outcome st query = answerOf library outcome sections query := by
  rcases query with ⟨tmdbId, mediaType, season, libraryPath⟩
  unfold answerFrom
  rw [h]
  cases mediaType with
  | movie => rfl
  | tv => cases season with
    | none | some season => rfl

theorem answersFrom_of_listed
    (h : listed library outcome st = .ok sections) (queries : List WatchStateQuery) :
    answersFrom library outcome st queries = answersOf library outcome sections queries := by
  induction queries with
  | nil => rfl
  | cons query queries ih => rw [answersFrom, answersOf, ih, answerFrom_of_listed h]

theorem answerFrom_of_failed {e : Failure} (h : listed library outcome st = .error e)
    (query : WatchStateQuery) : ∃ e', answerFrom library outcome st query = .error e' := by
  rcases query with ⟨tmdbId, mediaType, season, libraryPath⟩
  unfold answerFrom
  rw [h]
  cases mediaType with
  | movie => exact ⟨e, rfl⟩
  | tv => cases season with
    | none => exact ⟨.value, rfl⟩
    | some season => exact ⟨e, rfl⟩

theorem answersOf_ok {states : List WatchState}
    (h : answersOf library outcome sections queries = .ok states) :
    List.Forall₂ (fun query state => answerOf library outcome sections query = .ok state) queries
      states := by
  induction queries generalizing states with
  | nil =>
    cases h
    exact List.Forall₂.nil
  | cons query queries ih =>
    rw [answersOf] at h
    rcases bind_eq_ok h with ⟨state, hone, h⟩
    rcases bind_eq_ok h with ⟨states', hrest, h⟩
    cases h
    exact List.Forall₂.cons hone (ih hrest)

-- A call of `watchState` asks for what its search asks for.
theorem mem_of_searchIn {op : Request} (hlist : listed library outcome st = .ok sections)
    (hop : ∀ plain trace' q', Program.Served (Serves outcome)
      (searchIn library sections query plain) trace' q' → op ∈ trace')
    {q : Except Failure WatchState × Caches}
    (h : Program.Served (Serves outcome) (watchState library query st) trace q) : op ∈ trace := by
  rcases query with ⟨tmdbId, mediaType, season, libraryPath⟩
  cases mediaType with
  | movie =>
    rcases served_afterListing h with ⟨e, hfail, -⟩ | ⟨own, before, st', after, hown, -, rfl, htail⟩
    · rw [hlist] at hfail
      cases hfail
    · rw [hlist] at hown
      cases hown
      exact List.mem_append_right _ (hop st' after q htail)
  | tv => cases season with
    | none => exact hop st trace q h
    | some season =>
      rcases served_afterListing h with ⟨e, hfail, -⟩ |
        ⟨own, before, st', after, hown, -, rfl, htail⟩
      · rw [hlist] at hfail
        cases hfail
      · rw [hlist] at hown
        cases hown
        exact List.mem_append_right _ (hop st' after q htail)

theorem count_of_subset_sections (h : trace ⊆ [.sections]) {op : Request}
    (hop : op ≠ .sections) : trace.count op = 0 :=
  List.count_eq_zero.mpr fun hin => hop (List.mem_singleton.mp (h hin))

-- A batch raises where the search of a single call does, or for a page that has an id that is
-- too long.
theorem Resolved.raise_iff {end' : Except Failure (List WatchState)}
    (h : Resolved library outcome sections known queries trace end') :
    (∃ e, end' = .error e) ↔ (∃ e, answersOf library outcome sections queries = .error e) ∨
      ∃ op ∈ trace, Unread library outcome op := by
  constructor
  · intro herr
    rcases h.answers with hans | ⟨-, hunread⟩
    · rw [← hans]
      exact .inl herr
    · exact .inr hunread
  · rintro (herr | ⟨op, hop, hunread⟩)
    · rcases h.answers with hans | ⟨hfail, -⟩
      · rw [hans]
        exact herr
      · exact hfail
    · cases end' with
      | error e => exact ⟨e, rfl⟩
      | ok states => exact absurd hunread (h.fit states rfl op hop)

theorem Resolved.answersOf_eq {states : List WatchState}
    (h : Resolved library outcome sections known queries trace (.ok states)) :
    answersOf library outcome sections queries = .ok states := by
  rcases h.answers with hans | ⟨⟨e, herr⟩, -⟩
  · exact hans.symm
  · cases herr

/-- While Plex does not change, a batch answers each query as `watchState` does, raises where
    one of the calls would raise or a page that it asks for has an id that is too long, asks
    only for what some call asks for, and asks for each page of a section once, and once for
    each listing, or twice if it is that of a show and of a season. -/
theorem resolveWatchStates_like_watchState {queries : List WatchStateQuery} {st : Caches}
    {trace : List Request} {q : Except Failure (List WatchState) × Caches}
    (h : Program.Served (Serves outcome) (resolveWatchStates library queries st) trace q) :
    (∀ states, q.1 = .ok states →
      List.Forall₂ (fun query state => ∀ trace' q', Program.Served (Serves outcome)
        (watchState library query st) trace' q' → q'.1 = .ok state) queries states) ∧
    (∀ trace' q', Program.Served (Serves outcome) (watchStates library queries st) trace' q' →
      Steady library outcome st q'.2 → ((∃ e, q.1 = .error e) ↔
        (∃ e, q'.1 = .error e) ∨ ∃ op ∈ trace, Unread library outcome op)) ∧
    (∀ op ∈ trace, op = .sections ∨ ∃ query ∈ queries, ∀ trace' q', Program.Served (Serves outcome)
      (watchState library query st) trace' q' → op ∈ trace') ∧
    (∀ key start, trace.count (.sectionItems key start) ≤
      (seenSections library outcome st).countP (·.key = key)) ∧
    ∀ key, trace.count (.children key) ≤ 2 ∧
      (¬ (IsShow library outcome (seenSections library outcome st) key ∧
          IsSeason library outcome (seenSections library outcome st) key) →
        trace.count (.children key) ≤ 1) := by
  rcases served_resolveWatchStates h with ⟨rfl, rfl, hend⟩ | ⟨e, hqueries, hlist, hend, hsub⟩ |
    ⟨sections, before, after, hlist, hbef, rfl, hres⟩
  · rw [hend]
    refine ⟨?_, ?_, by simp, fun _ _ => Nat.zero_le _,
      fun _ => ⟨Nat.zero_le _, fun _ => Nat.zero_le _⟩⟩
    · intro states hst
      cases hst
      exact List.Forall₂.nil
    · intro trace' q' h' hstead
      rw [(served_watchStates h').2 hstead]
      simp [answersFrom]
  · rw [hend]
    refine ⟨fun states hst => (by cases hst), ?_, ?_, ?_, ?_⟩
    · intro trace' q' h' hstead
      rw [(served_watchStates h').2 hstead]
      refine ⟨fun _ => .inl ?_, fun _ => ⟨e, rfl⟩⟩
      cases queries with
      | nil => exact absurd rfl hqueries
      | cons query queries =>
        rcases answerFrom_of_failed hlist query with ⟨e', herr⟩
        rw [answersFrom, herr]
        exact ⟨e', rfl⟩
    · exact fun op hop => .inl (List.mem_singleton.mp (hsub hop))
    · intro key start
      rw [count_of_subset_sections hsub (by simp)]
      exact Nat.zero_le _
    · intro key
      rw [count_of_subset_sections hsub (by simp)]
      exact ⟨Nat.zero_le _, fun _ => Nat.zero_le _⟩
  · have hseen : seenSections library outcome st = sections := by
      unfold seenSections
      rw [hlist]
    rcases hres.asked with ⟨asked, rfl, hnd, hval⟩
    rw [hseen]
    refine ⟨?_, ?_, ?_, ?_, ?_⟩
    · intro states hst
      rw [hst] at hres
      have hone : ∀ query state, answerOf library outcome sections query = .ok state →
          ∀ trace' q', Program.Served (Serves outcome) (watchState library query st) trace' q' →
            q'.1 = .ok state := by
        intro query state hstate trace' q' h'
        rw [(served_watchState h').1, answerFrom_of_listed hlist]
        exact hstate
      exact (answersOf_ok hres.answersOf_eq).imp hone
    · intro trace' q' h' hstead
      rw [(served_watchStates h').2 hstead, answersFrom_of_listed hlist, hres.raise_iff]
      refine or_congr_right ⟨?_, ?_⟩
      · rintro ⟨op, hop, hunread⟩
        exact ⟨op, List.mem_append_right _ hop, hunread⟩
      · rintro ⟨op, hop, hunread⟩
        rcases List.mem_append.mp hop with hop | hop
        · rw [List.mem_singleton.mp (hbef hop)] at hunread
          cases hunread
        · exact ⟨op, hop, hunread⟩
    · intro op hop
      rcases List.mem_append.mp hop with hop | hop
      · exact .inl (List.mem_singleton.mp (hbef hop))
      · rcases hres.single op hop with ⟨query, hq, hall⟩
        exact .inr ⟨query, hq, fun trace' q' h' => mem_of_searchIn hlist hall h'⟩
    · intro key start
      rw [List.count_append, count_of_subset_sections hbef (by simp), Nat.zero_add]
      exact count_pages hnd hval key start
    · intro key
      rw [List.count_append, count_of_subset_sections hbef (by simp), Nat.zero_add]
      exact count_children hnd hval key

/-! ### A show that is its own season -/

def answerRows (rows : List Json) : Outcome :=
  .answered 200 (some (.obj [("MediaContainer", .obj [("Metadata", .arr rows)])]))

def tvSection : LibrarySection where
  key := "1"
  title := "Shows"
  type := .show
  locations := ["/tv"]

/-- A Plex with one section, in which is a show with the rating key of its season. -/
def selfSeason : Request → Outcome
  | .sections => .answered 200 (some (.obj [("MediaContainer", .obj [("Directory", .arr [.obj
      [("key", .str "1"), ("title", .str "Shows"), ("type", .str "show"),
        ("Location", .arr [.obj [("path", .str "/tv")]])]])])]))
  | .sectionItems _ _ => answerRows [.obj [("ratingKey", .str "a"), ("guid", .str "tmdb://7")]]
  | .children _ => answerRows [.obj
      [("ratingKey", .str "a"), ("index", .int 1), ("leafCount", .int 1),
        ("viewedLeafCount", .int 1), ("lastViewedAt", .int 5),
        ("Media", .arr [.obj [("Part", .arr [.obj [("file", .str "/tv/s/1.mkv")]])]])]]
  | .refresh _ _ => .unreachable

/-- The same, with a listing that fails. -/
def unlisted : Request → Outcome
  | .sections => .unreachable
  | r => selfSeason r

def anyLibrary : Library where
  cacheKey := "plex"
  pages := 1

def seasonQuery : WatchStateQuery where
  tmdbId := 7
  mediaType := .tv
  season := some 1
  libraryPath := some "/tv/s"

/-- A cache with a list that expires after a moment. -/
def expiring : Caches where
  now := 0
  sections := ({} : Cache String (List LibrarySection)).set 1 0 "plex" [tvSection]

def movieSection : LibrarySection where
  key := "1"
  title := "Movies"
  type := .movie

def tmdbGuid (digits : List Char) : String := String.ofList ("tmdb://".toList ++ digits)

theorem tmdbGuid_ne (digits : List Char) : tmdbGuid digits ≠ "" := by
  unfold tmdbGuid
  intro hnil
  have hlist := congrArg String.toList hnil
  simp at hlist

theorem digitsAt_tmdb {digits : List Char} (h : ∀ c ∈ digits, isDigit c = true) :
    digitsAt ("tmdb://".toList ++ digits) = digits := by
  have htake : digits.takeWhile isDigit = digits := List.takeWhile_eq_self_iff.mpr h
  unfold digitsAt
  simp [List.isPrefixOf, htake]

/-- A row that names an id with more digits than `int` reads. -/
def longRow : Fields :=
  [("guid", .str (tmdbGuid (List.replicate (TextCodec.maxStrDigits + 1) '1')))]

theorem idsRead_longRow : idsRead longRow = false := by
  unfold longRow
  generalize hdigits : List.replicate (TextCodec.maxStrDigits + 1) '1' = digits
  have hdig : ∀ c ∈ digits, isDigit c = true := by
    rw [← hdigits]
    intro c hc
    rw [List.eq_of_mem_replicate hc]
    rfl
  have hlong : ¬ digits.length ≤ TextCodec.maxStrDigits := by
    rw [← hdigits, List.length_replicate]
    exact Nat.not_succ_le_self _
  have hguids : guids [("guid", .str (tmdbGuid digits))] = [tmdbGuid digits] := by
    show (if tmdbGuid digits = "" then none else some (tmdbGuid digits)).toList ++ [] = _
    rw [if_neg (tmdbGuid_ne digits)]
    rfl
  have hread : idsReadIn ("tmdb://".toList ++ digits) = false := by
    show (decide ((digitsAt ("tmdb://".toList ++ digits)).length ≤ TextCodec.maxStrDigits) && _) = _
    rw [digitsAt_tmdb hdig, decide_eq_false hlong, Bool.false_and]
  unfold idsRead
  rw [hguids, List.all_cons]
  unfold tmdbGuid
  rw [String.toList_ofList, hread, Bool.false_and]

/-- A Plex with one section, in which an item with an id that is too long is behind the one that
    is looked for. -/
def crowded : Request → Outcome
  | .sections => .answered 200 (some (.obj [("MediaContainer", .obj [("Directory", .arr [.obj
      [("key", .str "1"), ("title", .str "Movies"), ("type", .str "movie")]])])]))
  | .sectionItems _ _ =>
      answerRows [.obj [("guid", .str "tmdb://7")], .obj longRow]
  | .children _ => .unreachable
  | .refresh _ _ => .unreachable

def movieQuery : WatchStateQuery where
  tmdbId := 7
  mediaType := .movie

theorem unread_crowded (key : String) (start : Nat) :
    Unread anyLibrary crowded (.sectionItems key start) := by
  refine ⟨[[("guid", .str "tmdb://7")], longRow], rfl, ?_⟩
  rw [List.all_cons, List.all_cons, idsRead_longRow, Bool.false_and, Bool.and_false]

theorem crowded_raises {q : Except Failure (List WatchState) × Caches}
    (h : Program.Served (Serves crowded) (resolveWatchStates anyLibrary [movieQuery] { now := 0 })
      trace q) : ∃ e, q.1 = .error e := by
  rcases Run.served_bind.mp h with ⟨before, sections, st₁, after, hlist, hrest, rfl⟩ |
    ⟨e, st₁, -, rfl⟩
  · have hseen : listed anyLibrary crowded { now := 0 } = .ok [movieSection] := by
      decide +kernel
    rw [← (served_listSections hlist).1] at hseen
    cases hseen
    rcases Program.served_bind.mp hrest with ⟨own, q₀, rest, hown, hend, rfl⟩
    rcases Program.served_ret.mp hend with ⟨-, rfl⟩
    rcases Run.served_bind.mp hown with ⟨own, state, b₁, more, hone, -, rfl⟩ | ⟨e, b₁, -, rfl⟩
    · -- Nothing is known of the section yet, so that the first title needs its first page.
      have hone := Run.served_bind_record.mp hone
      rcases Run.served_bind.mp hone with ⟨_, item, b₂, _, hitem, -, -⟩ | ⟨e, b₂, -, heq⟩
      · rcases Run.served_bind.mp hitem with ⟨_, found, b₃, _, hfind, -, -⟩ | ⟨e, b₃, -, heq⟩
        · rcases Run.served_bind.mp hfind with ⟨_, idx, b₄, _, hpage, -, -⟩ | ⟨e, b₄, -, heq⟩
          · have hbeg : SectionIndex.nextStart { librarySection := movieSection } =
                0 * pageSize := rfl
            rcases pageUntil_raises rfl rfl hbeg (unread_crowded _ _) hpage with ⟨e, herr⟩
            cases herr
          · cases heq
        · cases heq
      · cases heq
    · exact ⟨e, rfl⟩
  · exact ⟨e, rfl⟩

/-- A listing is read twice, a call raises that finds the list of the sections expired, and a
    batch raises that comes to an id that is too long. -/
theorem selfSeason_twice :
    ((resolveWatchStates anyLibrary [seasonQuery] { now := 0 }).serve
      fun r => { outcome := selfSeason r }).1.count (.children "a") = 2 ∧
    ((resolveWatchStates anyLibrary [seasonQuery, seasonQuery] expiring).serve
      fun r => { outcome := unlisted r, elapsed := 1 }).2.1.toBool = true ∧
    ((watchStates anyLibrary [seasonQuery, seasonQuery] expiring).serve
      fun r => { outcome := unlisted r, elapsed := 1 }).2.1.toBool = false ∧
    (∃ e, ((resolveWatchStates anyLibrary [movieQuery] { now := 0 }).serve
      fun r => { outcome := crowded r }).2.1 = .error e) ∧
    ((watchStates anyLibrary [movieQuery] { now := 0 }).serve
      fun r => { outcome := crowded r }).2.1.toBool = true := by
  have hok : ∀ r, Serves crowded r ({ outcome := crowded r } : Reply) := fun _ => rfl
  refine ⟨by decide +kernel, by decide +kernel, by decide +kernel, ?_, by decide +kernel⟩
  exact crowded_raises (Program.served_serve hok _)

theorem selfSeason_answer :
    ((watchState anyLibrary seasonQuery { now := 0 }).serve
      fun r => { outcome := selfSeason r }).2.1 =
        .ok { watched := true, lastViewedAt := some 5 } := by
  have hok : ∀ r, Serves selfSeason r ({ outcome := selfSeason r } : Reply) := fun _ => rfl
  have hbatch := Program.served_serve hok (resolveWatchStates anyLibrary [seasonQuery] { now := 0 })
  have hst : ((resolveWatchStates anyLibrary [seasonQuery] { now := 0 }).serve
      fun r => { outcome := selfSeason r }).2.1 =
        .ok [{ watched := true, lastViewedAt := some 5 }] := by
    decide +kernel
  have hall := (resolveWatchStates_like_watchState hbatch).1 _ hst
  cases hall with
  | cons hone _ => exact hone _ _ (Program.served_serve hok _)

end PlexLibrary

end PlexManager
