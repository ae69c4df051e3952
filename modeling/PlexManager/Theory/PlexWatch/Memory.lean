import PlexManager.Theory.PlexWatch.Service

/-!
# What a batch remembers

A batch keeps the pages and the listings that it reads. What it knows is a list of
lookups: a page of a section, the rows of a show, the files of a season. A rating key
may be that of a show and of a season at once, and is then looked up as either, so that
its listing is read twice.

Beside a reader that asks anew, every reader of a batch gives the same, and asks only for
what is not known yet and the other asks for as well. For a section, what has been read
are its first pages. A scan stops within them, or comes to their end, and from there on
both read the same. But a scan looks at no item behind the one that it wants, and a batch
reads the ids of all the items of a page: one that is too long stops the batch alone.
-/

namespace PlexManager

namespace PlexLibrary

open Effects KeyedTable TtlCache

/-! ### What is known -/

/-- What a batch looks up. -/
inductive Lookup where
  | page (type : SectionType) (i : Nat) (key : String) (n : Nat)
  | seasons (ratingKey : String)
  | episodes (ratingKey : String)
  deriving DecidableEq

def Lookup.request : Lookup → Request
  | .page _ _ key n => .sectionItems key (n * pageSize)
  | .seasons ratingKey => .children ratingKey
  | .episodes ratingKey => .children ratingKey

section
variable (library : Library) (outcome : Request → Outcome) (sections : List LibrarySection)

def IsShow (ratingKey : String) : Prop :=
  ∃ s ∈ sections, s.type = .show ∧ ∃ page items, pageAt library outcome s.key page = .ok items ∧
    ∃ item ∈ items, getStr item "ratingKey" = some ratingKey

def IsSeason (ratingKey : String) : Prop :=
  ∃ showKey, IsShow library outcome sections showKey ∧
    ∃ rows, childrenOf library outcome showKey = .ok rows ∧
      ∃ row ∈ rows, getStr row "ratingKey" = some ratingKey

def Lookup.Valid : Lookup → Prop
  | .page type i key _ => (sections.filter (·.type = type))[i]?.map LibrarySection.key = some key
  | .seasons ratingKey => IsShow library outcome sections ratingKey
  | .episodes ratingKey => IsSeason library outcome sections ratingKey

/-- The items of the first pages of a section, and whether the last of them is short. -/
inductive Loaded (key : String) : Nat → List Fields → Bool → Prop where
  | start : Loaded key 0 [] false
  | next {pages : Nat} {items page : List Fields} (h : Loaded key pages items false)
      (hpage : pageAt library outcome key pages = .ok page) :
      Loaded key (pages + 1) (items ++ page) (decide (page.length < pageSize))

/-- An index has the items of the first pages of its section. -/
structure Indexes (idx : SectionIndex) (pages : Nat) (items : List Fields) : Prop where
  loaded : Loaded library outcome idx.librarySection.key pages items idx.exhausted
  read : items.all idsRead = true
  byTmdbId : idx.byTmdbId = items.flatMap indexed
  nextStart : idx.nextStart = pages * pageSize
  le : pages ≤ library.pages

/-- What a table remembers under the keys that are known. -/
def Kept {α : Type} (entries : List (String × α)) (answer : String → Except Failure α)
    (lookup : String → Lookup) (known : List Lookup) : Prop :=
  ∀ key, match entries.lookup key with
    | some a => answer key = .ok a ∧ lookup key ∈ known
    | none => lookup key ∉ known

/-- What a batch knows is what its memory has. -/
structure Remembers (b : Batch) (known : List Lookup) : Prop where
  sections : ∀ type, b.sections type = sections.filter (·.type = type)
  index : ∀ type i idx, (b.index type)[i]? = some idx → ∃ pages items,
    Indexes library outcome idx pages items ∧
    ∀ key page, Lookup.page type i key page ∈ known ↔ key = idx.librarySection.key ∧ page < pages
  seasons : Kept b.showSeasonEntries (childrenOf library outcome) .seasons known
  episodes : Kept b.seasonEpisodePaths (filesOf library outcome) .episodes known

def memory : Memory Batch Lookup Request where
  request := Lookup.request
  Valid := Lookup.Valid library outcome sections
  Knows := Remembers library outcome sections
  Unfit := Unread library outcome

end

variable {library : Library} {outcome : Request → Outcome} {sections : List LibrarySection}

/-! ### The index -/

theorem matching_indexed (tmdbId : Nat) (item : Fields) :
    ((indexed item).filter fun e => e.1 = tmdbId).map Prod.snd =
      if itemMatchesTmdbId tmdbId item then [item] else [] := by
  have hnd : (collectItemTmdbIds item).Nodup := List.nodup_dedup _
  unfold indexed itemMatchesTmdbId
  generalize collectItemTmdbIds item = ids at hnd ⊢
  induction ids with
  | nil => rfl
  | cons id ids ih =>
    rw [List.nodup_cons] at hnd
    have hrest := ih hnd.2
    by_cases hid : id = tmdbId
    · subst hid
      have hout : ids.contains id = false := by simpa using hnd.1
      rw [hout, if_neg nofun] at hrest
      rw [List.map_cons, List.filter_cons_of_pos (by simp), List.map_cons, hrest,
        List.contains_cons, beq_self_eq_true, Bool.true_or, if_pos rfl]
    · have hne : (tmdbId == id) = false := by simpa using fun h => hid h.symm
      rw [List.map_cons, List.filter_cons_of_neg (by simpa using hid), hrest,
        List.contains_cons, hne, Bool.false_or]

variable {idx : SectionIndex} {items : List Fields}

theorem matching_eq (h : idx.byTmdbId = items.flatMap indexed) (tmdbId : Nat) :
    idx.matching tmdbId = items.filter (itemMatchesTmdbId tmdbId) := by
  unfold SectionIndex.matching
  rw [h]
  clear h
  induction items with
  | nil => rfl
  | cons item items ih =>
    rw [List.flatMap_cons, List.filter_append, List.map_append, ih, matching_indexed,
      List.filter_cons]
    split
    · rfl
    · rfl

variable {trace : List Request} {key : String} {wanted : Fields → Bool} {α : Type} {s : Placed}
  {q : Except Failure (List Fields) × Caches} {d : Except Failure α} {enough : SectionIndex → Bool}
  {trace' : List Request}

-- One round of a scan: the page cannot be read, or it is the last, or there are more.
theorem served_scanFrom {left n : Nat} {seen : List Fields} {st : Caches}
    (h : Program.Served (Serves outcome)
      (scanFrom library key wanted (left + 1) (n * pageSize) seen st) trace q) :
    (∃ e, pageRead library outcome key wanted n = .error e ∧ q.1 = .error e ∧
      trace = sent library (.sectionItems key (n * pageSize))) ∨
    ∃ page after, pageRead library outcome key wanted n = .ok page ∧
      trace = sent library (.sectionItems key (n * pageSize)) ++ after ∧
      ((page.any wanted || decide (page.length < pageSize)) = true ∧ after = [] ∧
          q.1 = .ok (seen ++ page) ∨
        page.any wanted = false ∧ decide (page.length < pageSize) = false ∧
          ∃ st', Program.Served (Serves outcome)
            (scanFrom library key wanted left ((n + 1) * pageSize)
              (seen ++ page) st') after q) := by
  rcases Run.served_bind.mp h with ⟨before, page, st₁, after, hread, htail, rfl⟩ |
    ⟨e, st₁, hread, rfl⟩
  · rcases reads_readPage key wanted n st _ _ hread with ⟨rfl, elapsed, heq⟩
    refine .inr ⟨page, after, (Prod.mk.inj heq).1.symm, rfl, ?_⟩
    split at htail
    · rename_i hstop
      rcases Run.served_pure.mp htail with ⟨rfl, rfl⟩
      exact .inl ⟨hstop, rfl, rfl⟩
    · rename_i hgo
      rw [Bool.or_eq_true, not_or, Bool.not_eq_true, Bool.not_eq_true] at hgo
      rw [Nat.succ_mul]
      exact .inr ⟨hgo.1, hgo.2, st₁, htail⟩
  · rcases reads_readPage key wanted n st _ _ hread with ⟨rfl, elapsed, heq⟩
    exact .inl ⟨e, (Prod.mk.inj heq).1.symm, rfl, rfl⟩

variable {pages : Nat}

-- A scan that starts anew either stops within the pages that have been read, or comes to their
-- end.
theorem scan_loaded {ended : Bool}
    (hload : Loaded library outcome key pages items ended) (hle : pages ≤ library.pages)
    (hids : items.all idsRead = true) {st : Caches}
    (h : Program.Served (Serves outcome) (scanFrom library key wanted library.pages 0 [] st) trace
      q) :
    (∃ front rest, items = front ++ rest ∧ q.1 = .ok front ∧
      (front.any wanted = true ∨ rest = [] ∧ ended = true)) ∨
    (items.any wanted = false ∧ ended = false ∧ ∃ st' trace', trace' ⊆ trace ∧
      Program.Served (Serves outcome)
        (scanFrom library key wanted (library.pages - pages)
          (pages * pageSize) items st') trace' q) := by
  induction hload with
  | start =>
    refine .inr ⟨rfl, rfl, st, trace, fun _ hop => hop, ?_⟩
    exact h
  | @next pages items page hload hpage ih =>
    rw [List.all_append, Bool.and_eq_true] at hids
    have hread : pageRead library outcome key wanted pages = .ok page :=
      pageRead_of_whole (wholePage_eq_ok_iff.mpr ⟨hpage, hids.2⟩)
    rcases ih (by omega) hids.1 with ⟨front, rest, rfl, hend, hwant | ⟨-, hfalse⟩⟩ |
      ⟨hnone, -, st', trace', hsub, hrest⟩
    · exact .inl ⟨front, rest ++ page, by rw [List.append_assoc], hend, .inl hwant⟩
    · cases hfalse
    · -- The scan reads the page that was read last.
      have hleft : library.pages - pages = library.pages - (pages + 1) + 1 := by omega
      rw [hleft] at hrest
      rcases served_scanFrom hrest with ⟨e, herr, -, -⟩ | ⟨found, after, hgot, rfl, hround⟩
      · rw [hread] at herr
        cases herr
      rw [hread] at hgot
      cases hgot
      rcases hround with ⟨hstop, -, hend⟩ | ⟨hany, hlong, st'', hmore⟩
      · refine .inl ⟨items ++ page, [], (List.append_nil _).symm, hend, ?_⟩
        rw [Bool.or_eq_true] at hstop
        rcases hstop with hany | hshort
        · exact .inl (by rw [List.any_append, hany, Bool.or_true])
        · exact .inr ⟨rfl, hshort⟩
      · refine .inr ⟨by rw [List.any_append, hnone, hany, Bool.or_self], hlong, st'', after,
          ?_, hmore⟩
        exact fun op hop => hsub (List.mem_append_right _ hop)

/-! ### Writes to the memory -/

variable {b : Batch}

theorem served_onCaches {x : Call α} {r : Request} (hx : Reads library outcome x r d)
    {q : Except Failure α × Batch} (h : Program.Served (Serves outcome) (onCaches x b) trace q) :
    trace = sent library r ∧ ∃ caches, q = (d, { b with caches := caches }) := by
  rcases Program.served_bind.mp h with ⟨before, q₀, after, hread, hend, rfl⟩
  rcases Program.served_ret.mp hend with ⟨rfl, rfl⟩
  rcases hx b.caches _ _ hread with ⟨rfl, elapsed, rfl⟩
  exact ⟨List.append_nil _, _, rfl⟩

theorem index_setIndex (b : Batch) (type type' : SectionType) (i : Nat) (idx : SectionIndex) :
    (b.setIndex type i idx).index type' =
      if type' = type then (b.index type).set i idx else b.index type' := by
  rcases type with _ | _
  · rcases type' with _ | _
    · rfl
    · rfl
  · rcases type' with _ | _
    · rfl
    · rfl

variable {i : Nat}

theorem map_set_same {β : Type} {f : α → β} {l : List α} {a a' : α} (hi : l[i]? = some a)
    (hf : f a' = f a) : (l.set i a').map f = l.map f := by
  ext j
  rw [List.getElem?_map, List.getElem?_map, List.getElem?_set]
  split
  · rename_i hij
    subst hij
    have hlt : i < l.length := (List.getElem?_eq_some_iff.mp hi).1
    rw [if_pos hlt, hi, Option.map_some, Option.map_some, hf]
  · rfl

variable {known : List Lookup}

theorem Kept.other {entries : List (String × α)} {answer : String → Except Failure α}
    {lookup : String → Lookup} {l : Lookup} (h : Kept entries answer lookup known)
    (hl : ∀ key, lookup key ≠ l) : Kept entries answer lookup (known ++ [l]) := by
  intro key
  have hkey := h key
  cases hlook : entries.lookup key with
  | some a =>
    rw [hlook] at hkey
    exact ⟨hkey.1, List.mem_append_left _ hkey.2⟩
  | none =>
    rw [hlook] at hkey
    intro hmem
    rcases List.mem_append.mp hmem with hold | hnew
    · exact hkey hold
    · exact hl key (List.mem_singleton.mp hnew)

theorem Kept.add {entries : List (String × α)} {answer : String → Except Failure α}
    {lookup : String → Lookup} {a : α} (h : Kept entries answer lookup known)
    (hinj : ∀ key', lookup key' = lookup key → key' = key) (hnone : entries.lookup key = none)
    (ha : answer key = .ok a) :
    Kept (entries ++ [(key, a)]) answer lookup (known ++ [lookup key]) := by
  intro key'
  have hkey := h key'
  rw [List.lookup_append]
  cases hlook : entries.lookup key' with
  | some a' =>
    rw [hlook] at hkey
    exact ⟨hkey.1, List.mem_append_left _ hkey.2⟩
  | none =>
    rw [hlook] at hkey
    by_cases hsame : key' = key
    · subst hsame
      rw [List.lookup_cons_self]
      exact ⟨ha, List.mem_append_right _ List.mem_cons_self⟩
    have hoth : List.lookup key' [(key, a)] = none := by
      rw [List.lookup_cons, beq_false_of_ne hsame]
      rfl
    rw [hoth]
    intro hmem
    rcases List.mem_append.mp hmem with hold | hnew
    · exact hkey hold
    · exact hsame (hinj key' (List.mem_singleton.mp hnew))

theorem Remembers.caches {caches : Caches} (h : Remembers library outcome sections b known) :
    Remembers library outcome sections { b with caches := caches } known where
  sections type := by
    unfold Batch.sections
    exact h.sections type
  index type i idx hidx := by
    exact h.index type i idx hidx
  seasons := h.seasons
  episodes := h.episodes

variable {type : SectionType}

theorem Remembers.page {items page : List Fields}
    (h : Remembers library outcome sections b known) (hidx : (b.index type)[i]? = some idx)
    (hread : Indexes library outcome idx pages items) (hend : idx.exhausted = false)
    (hmem : ∀ key n, Lookup.page type i key n ∈ known ↔ key = idx.librarySection.key ∧ n < pages)
    (hlt : pages < library.pages)
    (hpage : pageRead library outcome idx.librarySection.key (fun _ => false) pages = .ok page) :
    Indexes library outcome (idx.fold page) (pages + 1) (items ++ page) ∧
      Remembers library outcome sections (b.setIndex type i (idx.fold page))
        (known ++ [.page type i idx.librarySection.key pages]) := by
  have hnext : Indexes library outcome (idx.fold page) (pages + 1) (items ++ page) := by
    rcases wholePage_eq_ok_iff.mp hpage with ⟨hpage, hids⟩
    refine ⟨?_, ?_, ?_, ?_, hlt⟩
    · have hload := hread.loaded
      rw [hend] at hload
      unfold SectionIndex.fold
      rw [hend, Bool.false_or]
      exact Loaded.next hload hpage
    · rw [List.all_append, hread.read, hids, Bool.and_self]
    · unfold SectionIndex.fold
      rw [List.flatMap_append, ← hread.byTmdbId]
    · unfold SectionIndex.fold
      rw [Nat.succ_mul, ← hread.nextStart]
  refine ⟨hnext, ?_, ?_, ?_, ?_⟩
  · intro type'
    rw [← h.sections type']
    unfold Batch.sections
    rw [index_setIndex]
    split
    · rename_i hsame
      rw [hsame]
      exact map_set_same hidx rfl
    · rfl
  · intro type' j idx' hidx'
    rw [index_setIndex] at hidx'
    -- Only the index of this section has changed.
    by_cases hhere : type' = type ∧ i = j
    · obtain ⟨rfl, rfl⟩ := hhere
      have hlen : i < (b.index type').length := (List.getElem?_eq_some_iff.mp hidx).1
      rw [if_pos rfl, List.getElem?_set_self hlen] at hidx'
      cases hidx'
      refine ⟨pages + 1, items ++ page, hnext, fun key n => ?_⟩
      have hkey : (idx.fold page).librarySection.key = idx.librarySection.key := rfl
      rw [List.mem_append, hmem, List.mem_singleton, Lookup.page.injEq, hkey]
      constructor
      · rintro (⟨rfl, hn⟩ | ⟨-, -, rfl, rfl⟩)
        · exact ⟨rfl, by omega⟩
        · exact ⟨rfl, by omega⟩
      · rintro ⟨rfl, hn⟩
        by_cases hlast : n = pages
        · exact .inr ⟨rfl, rfl, rfl, hlast⟩
        · exact .inl ⟨rfl, by omega⟩
    · have hold : (b.index type')[j]? = some idx' := by
        split at hidx'
        · rename_i hsame
          subst hsame
          have hij : i ≠ j := fun hij => hhere ⟨rfl, hij⟩
          rwa [List.getElem?_set_ne hij] at hidx'
        · exact hidx'
      rcases h.index type' j idx' hold with ⟨pages', items', hread', hmem'⟩
      refine ⟨pages', items', hread', fun key n => ?_⟩
      rw [List.mem_append, hmem', List.mem_singleton, Lookup.page.injEq]
      constructor
      · rintro (hin | ⟨rfl, rfl, -, -⟩)
        · exact hin
        · exact absurd ⟨rfl, rfl⟩ hhere
      · exact .inl
  · have hkept : Kept b.showSeasonEntries _ _ _ := h.seasons.other (l := .page type i
      idx.librarySection.key pages) fun _ => by simp
    rcases type with _ | _
    · exact hkept
    · exact hkept
  · have hkept : Kept b.seasonEpisodePaths _ _ _ := h.episodes.other (l := .page type i
      idx.librarySection.key pages) fun _ => by simp
    rcases type with _ | _
    · exact hkept
    · exact hkept

theorem Remembers.unpaged {b b' : Batch} {k : Lookup}
    (h : Remembers library outcome sections b known) (hindex : ∀ type, b'.index type = b.index type)
    (hk : ∀ type i key n, Lookup.page type i key n ≠ k)
    (hseas : Kept b'.showSeasonEntries (childrenOf library outcome) .seasons (known ++ [k]))
    (heps : Kept b'.seasonEpisodePaths (filesOf library outcome) .episodes (known ++ [k])) :
    Remembers library outcome sections b' (known ++ [k]) where
  sections type := by
    unfold Batch.sections
    rw [hindex]
    exact h.sections type
  index type i idx hidx := by
    rw [hindex] at hidx
    rcases h.index type i idx hidx with ⟨pages, items, hread, hmem⟩
    refine ⟨pages, items, hread, fun key n => ?_⟩
    rw [← hmem, List.mem_append, List.mem_singleton]
    constructor
    · rintro (hold | hnew)
      · exact hold
      · exact absurd hnew (hk type i key n)
    · exact .inl
  seasons := hseas
  episodes := heps

variable (library outcome sections) in
/-- A batch that knows some pages of a section, of those that have been looked up. -/
structure Standing (b : Batch) (known : List Lookup) (type : SectionType) (i : Nat)
    (idx : SectionIndex) (pages : Nat) (items : List Fields) : Prop where
  remembers : Remembers library outcome sections b known
  nodup : known.Nodup
  getElem : (b.index type)[i]? = some idx
  indexes : Indexes library outcome idx pages items
  mem : ∀ key n, Lookup.page type i key n ∈ known ↔ key = idx.librarySection.key ∧ n < pages

section
variable {b : Batch} {known : List Lookup} {type : SectionType} {i : Nat} {idx : SectionIndex}
  {pages : Nat} {items : List Fields}

theorem Remembers.standing (hb : Remembers library outcome sections b known) (hnd : known.Nodup)
    (hidx : (b.index type)[i]? = some idx) :
    ∃ pages items, Standing library outcome sections b known type i idx pages items := by
  rcases hb.index type i idx hidx with ⟨pages, items, hread, hmem⟩
  exact ⟨pages, items, hb, hnd, hidx, hread, hmem⟩

section

variable (h : Standing library outcome sections b known type i idx pages items)
include h

theorem Standing.new :
    Lookup.page type i idx.librarySection.key pages ∉ known := fun hin =>
  absurd ((h.mem _ _).mp hin).2 (Nat.lt_irrefl _)

theorem Standing.valid :
    (Lookup.page type i idx.librarySection.key pages).Valid library outcome sections := by
  show ((sections.filter (·.type = type))[i]?.map LibrarySection.key) = _
  rw [← h.remembers.sections type]
  unfold Batch.sections
  rw [List.getElem?_map, h.getElem]
  rfl

theorem Standing.page
    (hend : idx.exhausted = false) (hlt : pages < library.pages) {page : List Fields}
    (hpage : pageRead library outcome idx.librarySection.key (fun _ => false) pages = .ok page)
    (caches : Caches) : Standing library outcome sections
      (({ b with caches := caches } : Batch).setIndex type i (idx.fold page))
      (known ++ [.page type i idx.librarySection.key pages]) type i (idx.fold page) (pages + 1)
      (items ++ page) := by
  have hlive : (({ b with caches := caches } : Batch).index type)[i]? = some idx := by
    exact h.getElem
  rcases h.remembers.caches.page hlive h.indexes hend h.mem hlt hpage with ⟨hnext, hb⟩
  have hidx : ((({ b with caches := caches } : Batch).setIndex type i
      (idx.fold page)).index type)[i]? = some (idx.fold page) := by
    rw [index_setIndex, if_pos rfl]
    exact List.getElem?_set_self (List.getElem?_eq_some_iff.mp hlive).1
  refine ⟨hb, ?_, hidx, hnext, ?_⟩
  · rw [List.nodup_append]
    refine ⟨h.nodup, by simp, ?_⟩
    rintro a ha _ hk rfl
    exact h.new (List.mem_singleton.mp hk ▸ ha)
  · rcases hb.index type i _ hidx with ⟨pages', items', hread', hmem'⟩
    have hsame : pages' = pages + 1 :=
      Nat.eq_of_mul_eq_mul_right (by decide) (hread'.nextStart.symm.trans hnext.nextStart)
    rwa [hsame] at hmem'

end

end

/-! ### The pages -/

theorem served_pageOnce (hbeg : idx.nextStart = pages * pageSize) {q : Except Failure Unit × Batch}
    (h : Program.Served (Serves outcome) (pageOnce library type i idx b) trace q) :
    (library.pages ≤ pages ∧ trace = [] ∧ q.1 = .error .unfinished) ∨
    pages < library.pages ∧
      trace = sent library (.sectionItems idx.librarySection.key (pages * pageSize)) ∧
      ((∃ e, pageRead library outcome idx.librarySection.key (fun _ => false) pages = .error e ∧
          q.1 = .error e) ∨
        ∃ page caches,
          pageRead library outcome idx.librarySection.key (fun _ => false) pages = .ok page ∧
          q = (.ok (), ({ b with caches := caches } : Batch).setIndex type i (idx.fold page))) := by
  unfold pageOnce at h
  rw [hbeg] at h
  by_cases hfull : library.pages * pageSize ≤ pages * pageSize
  · rw [if_pos hfull] at h
    rcases Run.served_ofExcept.mp h with ⟨rfl, rfl⟩
    exact .inl ⟨Nat.le_of_mul_le_mul_right hfull (by decide), rfl, rfl⟩
  rw [if_neg hfull] at h
  have hlt : pages < library.pages := by
    refine Nat.lt_of_not_le fun hle => hfull (Nat.mul_le_mul_right pageSize hle)
  refine .inr ⟨hlt, ?_⟩
  rcases Run.served_bind.mp h with ⟨before, page, b₁, after, hread, hstore, rfl⟩ |
    ⟨e, b₁, hread, rfl⟩
  · rcases served_onCaches (reads_readPage _ _ _) hread with ⟨rfl, caches, heq⟩
    rcases Program.served_ret.mp hstore with ⟨rfl, rfl⟩
    obtain ⟨hpage, rfl⟩ := Prod.mk.inj heq
    exact ⟨List.append_nil _, .inr ⟨page, caches, hpage.symm, rfl⟩⟩
  · rcases served_onCaches (reads_readPage _ _ _) hread with ⟨rfl, caches, heq⟩
    exact ⟨rfl, .inl ⟨e, (Prod.mk.inj heq).1.symm, rfl⟩⟩

/-- What a batch has found in a section, beside a scan: the same pages, and maybe more if
    the scan stopped at a wanted item. -/
def FoundLike (library : Library) (outcome : Request → Outcome) (key : String)
    (wanted : Fields → Bool) (idx : SectionIndex) (front : List Fields) : Prop :=
  ∃ pages rest, Indexes library outcome idx pages (front ++ rest) ∧ idx.librarySection.key = key ∧
    (front.any wanted = true ∨ rest = [])

theorem sent_page {n : Nat} {page : List Fields} (h : pageAt library outcome key n = .ok page) :
    sent library (.sectionItems key (n * pageSize)) = [.sectionItems key (n * pageSize)] :=
  sent_of_ok h

theorem sent_unread {n : Nat} (h : Unread library outcome (.sectionItems key (n * pageSize))) :
    sent library (.sectionItems key (n * pageSize)) = [.sectionItems key (n * pageSize)] := by
  rcases h with ⟨items, hitems, -⟩
  exact sent_of_ok hitems

variable (library outcome) in
/-- What is left of a scan at the end of some pages of a section: nothing, or the pages that
    come next. -/
def ScanLeft (idx : SectionIndex) (wanted : Fields → Bool) (pages : Nat) (items : List Fields)
    (trace : List Request) (q : Except Failure (List Fields) × Caches) : Prop :=
  ((items.any wanted || idx.exhausted) = true ∧ trace = [] ∧ q.1 = .ok items) ∨
  (items.any wanted = false ∧ idx.exhausted = false ∧ ∃ plain, Program.Served (Serves outcome)
    (scanFrom library idx.librarySection.key wanted (library.pages - pages) (pages * pageSize) items
      plain) trace q)

theorem scanLeft_next
    (hany : items.any wanted = false) (hlong : idx.exhausted = false) (hlt : pages < library.pages)
    {plain : Caches}
    (h : Program.Served (Serves outcome)
      (scanFrom library idx.librarySection.key wanted (library.pages - pages)
        (pages * pageSize) items
        plain) trace q) :
    (∃ e, pageRead library outcome idx.librarySection.key wanted pages = .error e ∧
      q.1 = .error e ∧
      trace = sent library (.sectionItems idx.librarySection.key (pages * pageSize))) ∨
    ∃ page after, pageRead library outcome idx.librarySection.key wanted pages = .ok page ∧
      trace = .sectionItems idx.librarySection.key (pages * pageSize) :: after ∧
      ScanLeft library outcome (idx.fold page) wanted (pages + 1) (items ++ page) after q := by
  have hleft : library.pages - pages = library.pages - (pages + 1) + 1 := by omega
  rw [hleft] at h
  rcases served_scanFrom h with ⟨e, herr, hend, htr⟩ | ⟨page, after, hpage, htr, hround⟩
  · exact .inl ⟨e, herr, hend, htr⟩
  rw [sent_page (pageRead_eq_ok_iff.mp hpage).1] at htr
  refine .inr ⟨page, after, hpage, htr, ?_⟩
  have hend : (idx.fold page).exhausted = decide (page.length < pageSize) := by
    show (idx.exhausted || _) = _
    rw [hlong, Bool.false_or]
  unfold ScanLeft
  rw [hend, List.any_append, hany, Bool.false_or]
  exact hround

theorem served_pageUntil {fuel : Nat} (hidx : (b.index type)[i]? = some idx)
    {q : Except Failure SectionIndex × Batch}
    (h : Program.Served (Serves outcome) (pageUntil library type i enough (fuel + 1) b) trace q) :
    ((enough idx || idx.exhausted) = true ∧ trace = [] ∧ q = (.ok idx, b)) ∨
    ((enough idx || idx.exhausted) = false ∧ Program.Served (Serves outcome)
      ((do
        pageOnce library type i idx
        pageUntil library type i enough fuel) b) trace q) := by
  rw [pageUntil] at h
  have hhead : sectionIndex type i b = .ret (.ok idx, b) := by
    unfold sectionIndex
    rw [hidx]
  rw [Run.bind_apply, hhead] at h
  dsimp only [Program.bind] at h
  split at h
  · rename_i hstop
    exact .inl ⟨hstop, Run.served_pure.mp h⟩
  · rename_i hgo
    exact .inr ⟨by simpa only [Bool.not_eq_true] using hgo, h⟩

theorem pageUntil_raises {fuel : Nat} (hidx : (b.index type)[i]? = some idx)
    (hgo : (enough idx || idx.exhausted) = false) (hbeg : idx.nextStart = pages * pageSize)
    (hunread : Unread library outcome (.sectionItems idx.librarySection.key (pages * pageSize)))
    {q : Except Failure SectionIndex × Batch}
    (h : Program.Served (Serves outcome) (pageUntil library type i enough (fuel + 1) b) trace q) :
    ∃ e, q.1 = .error e := by
  rcases served_pageUntil hidx h with ⟨hstop, -⟩ | ⟨-, h⟩
  · rw [hgo] at hstop
    cases hstop
  rcases Run.served_bind.mp h with ⟨before, _, b₁, after, honce, -, -⟩ | ⟨e, b₁, -, rfl⟩
  · rcases served_pageOnce hbeg honce with ⟨-, -, herr⟩ |
      ⟨-, -, ⟨e, -, herr⟩ | ⟨page, caches, hpage, -⟩⟩
    · cases herr
    · cases herr
    · exact absurd hunread (not_unread_of_whole hpage)
  · exact ⟨e, rfl⟩

-- A batch at the end of the pages that it knows, beside a scan that has come there.
theorem recalled_pageUntil (henough : ∀ (idx : SectionIndex) (items : List Fields),
      idx.byTmdbId = items.flatMap indexed → enough idx = items.any wanted)
    (fuel : Nat)
    (hb : Standing library outcome sections b known type i idx pages items)
    (hfuel : library.pages - pages < fuel)
    {q : Except Failure SectionIndex × Batch} {q' : Except Failure (List Fields) × Caches}
    (h : Program.Served (Serves outcome) (pageUntil library type i enough fuel b) trace q)
    (h' : ScanLeft library outcome idx wanted pages items trace' q') :
    (SameEnd (FoundLike library outcome idx.librarySection.key wanted) q.1 q'.1 ∨
        Choked (memory library outcome sections) trace q) ∧
      ∃ asked, Recalled (memory library outcome sections) known trace trace' q asked := by
  -- The batch is led by its fuel, the scan by the pages that it may still read.
  induction fuel generalizing b known idx pages items trace trace' with
  | zero => exact absurd hfuel (Nat.not_lt_zero _)
  | succ fuel ih =>
    have hround := served_pageUntil hb.getElem h
    rw [henough idx items hb.indexes.byTmdbId] at hround
    rcases h' with ⟨hstop, rfl, hend⟩ | ⟨hany, hlong, plain, hscan⟩
    · rcases hround with ⟨-, rfl, rfl⟩ | ⟨hgo, -⟩
      · rw [hend]
        refine ⟨.inl ⟨pages, [], ?_, rfl, .inr rfl⟩, [], recalled_nil hb.nodup hb.remembers⟩
        rw [List.append_nil]
        exact hb.indexes
      · rw [hstop] at hgo
        cases hgo
    · rcases hround with ⟨hstop, -⟩ | ⟨-, h⟩
      · rw [hany, hlong] at hstop
        cases hstop
      rcases Run.served_bind.mp h with ⟨before, _, b₁, after, honce, hrest, rfl⟩ |
        ⟨e, b₁, honce, rfl⟩
      · rcases served_pageOnce hb.indexes.nextStart honce with ⟨-, -, herr⟩ |
          ⟨hlt, rfl, ⟨e, -, herr⟩ | ⟨page, caches, hpage, heq⟩⟩
        · cases herr
        · cases herr
        · obtain ⟨-, rfl⟩ := Prod.mk.inj heq
          rcases scanLeft_next hany hlong hlt hscan with ⟨e, herr, -, -⟩ |
            ⟨found, after', hgot, rfl, hleft⟩
          · rw [pageRead_of_whole hpage] at herr
            cases herr
          · rw [pageRead_of_whole hpage] at hgot
            cases hgot
            rcases ih (hb.page hlong hlt hpage caches) (by omega) hrest hleft with
              ⟨hsame, asked, hrecalled⟩
            rw [sent_page (wholePage_eq_ok_iff.mp hpage).1]
            refine ⟨hsame.imp_right Choked.after, _, hrecalled.cons hb.valid ?_⟩
            exact not_unread_of_whole hpage
      · rcases served_pageOnce hb.indexes.nextStart honce with ⟨hge, rfl, herr⟩ |
          ⟨hlt, rfl, ⟨e', hpage, herr⟩ | ⟨page, caches, -, heq⟩⟩
        · -- No page may be read any more, here as well as there.
          cases herr
          have hnone : library.pages - pages = 0 := by omega
          rw [hnone] at hscan
          rcases Run.served_ofExcept.mp hscan with ⟨rfl, rfl⟩
          exact ⟨.inl rfl, [], recalled_silent hb.nodup rfl⟩
        · cases herr
          rcases scanLeft_next hany hlong hlt hscan with ⟨e, herr, hend, rfl⟩ |
            ⟨found, after', hgot, rfl, -⟩
          · refine ⟨?_, ?_⟩
            · rcases whole_error wanted hpage with hsame | hunread
              · rw [herr] at hsame
                cases hsame
                exact .inl (by rw [hend]; rfl)
              · rw [sent_unread hunread]
                exact .inr ⟨⟨_, rfl⟩, _, List.mem_cons_self, hunread⟩
            unfold sent
            split
            · exact ⟨_, recalled_failed hb.nodup hb.new hb.valid List.mem_cons_self rfl⟩
            · exact ⟨_, recalled_silent hb.nodup rfl⟩
          · -- The scan stops at an item that it wants, the batch at one behind it.
            rcases whole_error wanted hpage with herr | hunread
            · rw [hgot] at herr
              cases herr
            rw [sent_unread hunread]
            refine ⟨.inr ⟨⟨_, rfl⟩, _, List.mem_cons_self, hunread⟩,
              [.page type i idx.librarySection.key pages], ?_⟩
            exact recalled_failed hb.nodup hb.new hb.valid List.mem_cons_self rfl
        · cases heq

/-! ### The readers -/

theorem Loaded.mem {ended : Bool} (h : Loaded library outcome key pages items ended) {item : Fields}
    (hitem : item ∈ items) : ∃ n page, pageAt library outcome key n = .ok page ∧ item ∈ page := by
  induction h with
  | start => cases hitem
  | next _ hpage ih =>
    rcases List.mem_append.mp hitem with hold | hnew
    · exact ih hold
    · exact ⟨_, _, hpage, hnew⟩

-- Whatever has been read before, a batch finds in a section what a scan finds.
theorem recalls_pageUntil (henough : ∀ (idx : SectionIndex) (items : List Fields),
      idx.byTmdbId = items.flatMap indexed → enough idx = items.any wanted)
    (hs : s ∈ (sections.filter (·.type = type)).zipIdx) :
    Recalls (Serves outcome) (memory library outcome sections)
      (pageUntil library type s.2 enough (library.pages + 1))
      (scanFrom library s.1.key wanted library.pages 0 [])
      (FoundLike library outcome s.1.key wanted) := by
  intro b known plain trace q trace' q' hb hnd h h'
  have hput : (b.sections type)[s.2]? = some s.1 := by
    rw [hb.sections type]
    exact List.mem_zipIdx_iff_getElem?.mp hs
  unfold Batch.sections at hput
  rw [List.getElem?_map] at hput
  rcases Option.map_eq_some_iff.mp hput with ⟨idx, hidx, hsect⟩
  rcases hb.standing hnd hidx with ⟨pages, items, hstand⟩
  rw [← hsect] at h' ⊢
  rcases scan_loaded hstand.indexes.loaded hstand.indexes.le hstand.indexes.read h' with
    ⟨front, rest, rfl, hend, hstop⟩ | ⟨hany, hlong, plain', after, hsub, hscan⟩
  · -- The scan stops within what is known, so that nothing more is read.
    have henoughIdx := henough idx (front ++ rest) hstand.indexes.byTmdbId
    have hgot : FoundLike library outcome idx.librarySection.key wanted idx front := by
      refine ⟨pages, rest, hstand.indexes, rfl, ?_⟩
      rcases hstop with hwant | ⟨hrest, -⟩
      · exact .inl hwant
      · exact .inr hrest
    rcases served_pageUntil hidx h with ⟨-, rfl, rfl⟩ | ⟨hgo, -⟩
    · rw [hend]
      exact ⟨.inl hgot, [], recalled_nil hnd hb⟩
    rw [henoughIdx, List.any_append, Bool.or_eq_false_iff, Bool.or_eq_false_iff] at hgo
    rcases hstop with hwant | ⟨-, hended⟩
    · rw [hgo.1.1] at hwant
      cases hwant
    · rw [hgo.2] at hended
      cases hended
  · rcases recalled_pageUntil henough (library.pages + 1) hstand (by omega) h
      (.inr ⟨hany, hlong, plain', hscan⟩) with ⟨hsame, asked, hrecalled⟩
    exact ⟨hsame, asked, hrecalled.mono hsub⟩

variable (library outcome sections) in
def InSection (type : SectionType) (item : Fields) : Prop :=
  ∃ s ∈ sections, s.type = type ∧ ∃ n page, pageAt library outcome s.key n = .ok page ∧ item ∈ page

theorem inSection_of_found (hs : s ∈ (sections.filter (·.type = type)).zipIdx) {front : List Fields}
    (h : FoundLike library outcome s.1.key wanted idx front) {item : Fields}
    (hitem : item ∈ front) :
    InSection library outcome sections type item := by
  rcases h with ⟨pages, rest, hindexes, hkey, -⟩
  have hmem : s.1 ∈ sections.filter (·.type = type) :=
    List.mem_of_getElem? (List.mem_zipIdx_iff_getElem?.mp hs)
  have hload := hindexes.loaded
  rw [hkey] at hload
  refine ⟨s.1, List.mem_of_mem_filter hmem, ?_, hload.mem (List.mem_append_left _ hitem)⟩
  simpa using (List.mem_filter.mp hmem).2

theorem isEmpty_matching (h : idx.byTmdbId = items.flatMap indexed) (tmdbId : Nat) :
    (!(idx.matching tmdbId).isEmpty) = items.any (itemMatchesTmdbId tmdbId) := by
  rw [matching_eq h]
  clear h
  induction items with
  | nil => rfl
  | cons item items ih =>
    rw [List.any_cons, List.filter_cons]
    split
    · rename_i hmatch
      rw [hmatch]
      rfl
    · rename_i hno
      rw [ih]
      simp [hno]

theorem recalls_findFirst (tmdbId : Nat) (hs : s ∈ (sections.filter (·.type = type)).zipIdx) :
    Recalls (Serves outcome) (memory library outcome sections)
      (findFirst library type s.2 tmdbId) (findSectionItem library s.1.key tmdbId)
      fun a b => a = b ∧ ∀ item ∈ a, InSection library outcome sections type item := by
  refine Recalls.bind (recalls_pageUntil
    (fun _ _ h => isEmpty_matching h tmdbId) hs) ?_
  intro idx front hgot
  refine Recalls.pure ?_
  have hsame : (idx.matching tmdbId).head? = front.find? (itemMatchesTmdbId tmdbId) := by
    rcases hgot with ⟨pages, rest, hindexes, -, hstop⟩
    rw [matching_eq hindexes.byTmdbId, List.head?_filter, List.find?_append]
    rcases hstop with hwant | rfl
    · rcases List.find?_isSome.mpr (List.any_eq_true.mp hwant) with hsome
      rcases Option.isSome_iff_exists.mp hsome with ⟨item, hitem⟩
      rw [hitem]
      rfl
    · rw [List.find?_nil, Option.or_none]
  refine ⟨hsame, fun item hitem => ?_⟩
  rw [hsame] at hitem
  exact inSection_of_found hs hgot (List.mem_of_find?_eq_some hitem)

theorem recalls_completeMatches (tmdbId : Nat) (hs : s ∈ (sections.filter (·.type = type)).zipIdx) :
    Recalls (Serves outcome) (memory library outcome sections)
      (completeMatches library type s.2 tmdbId) (findSectionItems library s.1.key tmdbId)
      fun a b => a = b ∧ ∀ item ∈ a, InSection library outcome sections type item := by
  have hnever : ∀ (idx : SectionIndex) (items : List Fields), idx.byTmdbId = items.flatMap indexed →
      (fun _ : SectionIndex => false) idx = items.any fun _ => false := fun _ items _ => by simp
  refine Recalls.bind (recalls_pageUntil hnever hs) ?_
  intro idx front hgot
  refine Recalls.pure ?_
  have hsame : idx.matching tmdbId = front.filter (itemMatchesTmdbId tmdbId) := by
    rcases hgot with ⟨pages, rest, hindexes, -, hwant | rfl⟩
    · simp at hwant
    · rw [matching_eq hindexes.byTmdbId, List.append_nil]
  refine ⟨hsame, fun item hitem => ?_⟩
  rw [hsame] at hitem
  exact inSection_of_found hs hgot (List.mem_of_mem_filter hitem)

theorem recalled_read {x : Call α} {k : Lookup} (hx : Reads library outcome x k.request d)
    (hsent : ∀ a, d = .ok a → sent library k.request = [k.request])
    (hval : k.Valid library outcome sections) (hfit : ¬ Unread library outcome k.request)
    (hnd : known.Nodup) (hnew : k ∉ known) {store : α → Batch → Batch}
    (hstore : ∀ a caches, d = .ok a →
      Remembers library outcome sections (store a { b with caches := caches }) (known ++ [k]))
    {R : α → α → Prop} (hR : ∀ a, d = .ok a → R a a)
    {q : Except Failure α × Batch} {q' : Except Failure α × Caches} {plain : Caches}
    (h : Program.Served (Serves outcome) ((do
      let a ← onCaches x
      Run.modifyRecord (store a)
      pure a) b) trace q) (h' : Program.Served (Serves outcome) (x plain) trace' q') :
    (SameEnd R q.1 q'.1 ∨ Choked (memory library outcome sections) trace q) ∧
      ∃ asked, Recalled (memory library outcome sections) known trace trace' q asked := by
  rcases hx plain _ _ h' with ⟨rfl, elapsed, rfl⟩
  rcases Run.served_bind.mp h with ⟨before, a, b₁, after, hread, hrest, rfl⟩ | ⟨e, b₁, hread, rfl⟩
  · rcases served_onCaches hx hread with ⟨rfl, caches, heq⟩
    rcases Program.served_ret.mp hrest with ⟨rfl, rfl⟩
    obtain ⟨hd, rfl⟩ := Prod.mk.inj heq
    rw [← hd, hsent a hd.symm, List.append_nil]
    refine ⟨.inl (hR a hd.symm), [k], rfl, ?_, ?_, fun _ hop => hop,
      fun _ _ => hstore a caches hd.symm, ?_⟩
    · rw [List.nodup_append]
      refine ⟨hnd, by simp, ?_⟩
      rintro c hc _ hk rfl
      exact hnew (List.mem_singleton.mp hk ▸ hc)
    · intro k' hk'
      rw [List.mem_singleton.mp hk']
      exact hval
    · intro _ _ op hop
      rw [List.mem_singleton.mp hop]
      exact hfit
  · rcases served_onCaches hx hread with ⟨rfl, caches, heq⟩
    obtain ⟨hd, rfl⟩ := Prod.mk.inj heq
    rw [← hd]
    refine ⟨.inl rfl, ?_⟩
    unfold sent
    split
    · exact ⟨_, recalled_failed hnd hnew hval List.mem_cons_self rfl⟩
    · exact ⟨_, recalled_silent hnd rfl⟩

theorem sent_of_map {r : Request} {f : List Fields → α} {a : α}
    (h : (rowsOf library outcome r).map f = .ok a) : sent library r = [r] := by
  cases hrows : rowsOf library outcome r with
  | ok rows => exact sent_of_ok hrows
  | error e =>
    rw [hrows] at h
    cases h

theorem recalls_cachedSeasonEntries {ratingKey : String}
    (hshow : IsShow library outcome sections ratingKey) :
    Recalls (Serves outcome) (memory library outcome sections)
      (cachedSeasonEntries library ratingKey) (fetchChildren library ratingKey)
      fun a b => a = b ∧ ∀ row ∈ a, Keyed (IsSeason library outcome sections) row := by
  intro b known plain trace q trace' q' hb hnd h h'
  have hrows : ∀ rows, childrenOf library outcome ratingKey = .ok rows →
      rows = rows ∧ ∀ row ∈ rows, Keyed (IsSeason library outcome sections) row :=
    fun rows hrows => ⟨rfl, fun row hrow key hkey => ⟨ratingKey, hshow, rows, hrows, row, hrow,
      hkey⟩⟩
  have hkept := hb.seasons ratingKey
  unfold cachedSeasonEntries at h
  rw [Run.served_bind_record] at h
  cases hlook : b.showSeasonEntries.lookup ratingKey with
  | some rows =>
    rw [hlook] at h hkept
    rcases Run.served_pure.mp h with ⟨rfl, rfl⟩
    rcases reads_children ratingKey plain _ _ h' with ⟨-, elapsed, rfl⟩
    rw [hkept.1]
    exact ⟨.inl (hrows rows hkept.1), [], recalled_nil hnd hb⟩
  | none =>
    rw [hlook] at h hkept
    refine recalled_read (k := .seasons ratingKey) (reads_children ratingKey)
      (fun _ => sent_of_ok) hshow id hnd hkept ?_ hrows h h'
    intro rows caches hd
    refine hb.unpaged ?_ nofun ?_ (hb.episodes.other nofun)
    · intro type
      rcases type with _ | _
      · rfl
      · rfl
    · exact hb.seasons.add (by simp) hlook hd

theorem recalls_cachedChildrenFilePaths {ratingKey : String}
    (hseas : IsSeason library outcome sections ratingKey) :
    Recalls (Serves outcome) (memory library outcome sections)
      (cachedChildrenFilePaths library ratingKey)
        (fetchChildrenFilePaths library ratingKey) Eq := by
  intro b known plain trace q trace' q' hb hnd h h'
  have hkept := hb.episodes ratingKey
  unfold cachedChildrenFilePaths at h
  rw [Run.served_bind_record] at h
  cases hlook : b.seasonEpisodePaths.lookup ratingKey with
  | some files =>
    rw [hlook] at h hkept
    rcases Run.served_pure.mp h with ⟨rfl, rfl⟩
    rcases reads_files ratingKey plain _ _ h' with ⟨-, elapsed, rfl⟩
    rw [hkept.1]
    exact ⟨.inl rfl, [], recalled_nil hnd hb⟩
  | none =>
    rw [hlook] at h hkept
    refine recalled_read (k := .episodes ratingKey) (reads_files ratingKey)
      (fun _ => sent_of_map) hseas id hnd hkept ?_ (fun _ _ => rfl) h h'
    intro files caches hd
    refine hb.unpaged ?_ nofun (hb.seasons.other nofun) ?_
    · intro type
      rcases type with _ | _
      · rfl
      · rfl
    · exact hb.episodes.add (by simp) hlook hd

end PlexLibrary

end PlexManager
