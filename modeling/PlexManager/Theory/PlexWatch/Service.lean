import PlexManager.Lib.Recall
import PlexManager.Core.PlexWatchStates

/-!
# Reading from a Plex that does not change

While Plex does not change, it answers the same request in the same way, if not always as
fast. What `watchState` ends with is then known from the answers alone: the same search is
run over a reader that asks for nothing.

What it does to the cache of the sections is only what a listing does: a list that is
cached afterwards was cached before, or is the one that Plex has.

## Main definitions

* `Serves`, `got`, `pageAt`, `childrenOf`, `listing`: What Plex answers.
* `Relisted`: What may become of the cache of the sections.
* `itemsFrom`, `staticReaders`, `answerOf`: What a search ends with.
* `FindersRel`, `RowsRel`: Readers that are related.
-/

namespace PlexManager

namespace PlexLibrary

open Effects KeyedTable TtlCache

variable {st : Caches} {trace : List Request} {α : Type} {r : Request}

section
variable (library : Library) (outcome : Request → Outcome)

/-! ### Answers -/

def Serves (r : Request) (reply : Reply) : Prop := reply.outcome = outcome r

/-- What comes of a request. -/
def got (r : Request) : Except Failure Fields :=
  if library.headerSafe then decode (outcome r) else .error .auth

def sent (r : Request) : List Request := if library.headerSafe then [r] else []

def rowsOf (r : Request) : Except Failure (List Fields) := (got library outcome r).map metadata

def pageAt (key : String) (page : Nat) : Except Failure (List Fields) :=
  rowsOf library outcome (.sectionItems key (page * pageSize))

/-- A page of which the ids are read up to the first wanted item. -/
def pageRead (key : String) (wanted : Fields → Bool) (page : Nat) :
    Except Failure (List Fields) := do
  let items ← pageAt library outcome key page
  if (looked wanted items).all idsRead then pure items else .error .value

/-- A page of a section, of which not all the ids can be read. -/
def Unread : Request → Prop
  | .sectionItems key start => ∃ items,
      rowsOf library outcome (.sectionItems key start) = .ok items ∧ items.all idsRead = false
  | _ => False

def childrenOf (ratingKey : String) : Except Failure (List Fields) :=
  rowsOf library outcome (.children ratingKey)

def filesOf (ratingKey : String) : Except Failure (List String) :=
  (childrenOf library outcome ratingKey).map fun items => items.flatMap extractFilePaths

def listing : Except Failure (List LibrarySection) :=
  match got library outcome .sections with
  | .error e => .error e
  | .ok payload => match parseSectionsEnvelope payload with
    | none => .error .library
    | some sections => .ok sections

def cachedSections (st : Caches) : Option (List LibrarySection) :=
  (st.sections.get st.now library.cacheKey).1

def listed (st : Caches) : Except Failure (List LibrarySection) :=
  match cachedSections library st with
  | some sections => .ok sections
  | none => listing library outcome

/-- A list that is cached later was cached before, or is the one that Plex has. -/
def Relisted (st st' : Caches) : Prop :=
  ∀ sections, cachedSections library st' = some sections →
    cachedSections library st = some sections ∨ listing library outcome = .ok sections

variable {library outcome} {type : SectionType} {f : List LibrarySection → Call α}

theorem Relisted.refl (st : Caches) : Relisted library outcome st st := fun _ h => .inl h

theorem Relisted.trans (st st' st'' : Caches) (h : Relisted library outcome st st')
    (h' : Relisted library outcome st' st'') : Relisted library outcome st st'' := by
  intro sections hcach
  rcases h' sections hcach with hbef | hlist
  · exact h sections hbef
  · exact .inr hlist

theorem relisted_of_mem {st' : Caches} (hnow : st.now ≤ st'.now)
    (hmem : ∀ entry ∈ st'.sections.store.rows, entry ∈ st.sections.store.rows) :
    Relisted library outcome st st' := by
  intro sections h
  rcases Cache.get_iff.mp h with ⟨entry, hent, hkey, hval, hnew⟩
  exact .inl (Cache.get_iff.mpr ⟨entry, hmem entry hent, hkey, hval, by omega⟩)

theorem relisted_wait (st : Caches) (elapsed : Nat) :
    Relisted library outcome st { st with now := st.now + elapsed } := by
  refine relisted_of_mem ?_ fun entry hent => hent
  dsimp only
  omega

theorem served_request {q : Except Failure Outcome × Caches}
    (h : Program.Served (Serves outcome) (request library r st) trace q) :
    (library.headerSafe = false ∧ trace = [] ∧ q = (.error .auth, st)) ∨
    ∃ elapsed : Nat, library.headerSafe = true ∧ trace = [r] ∧
      q = ((checkStatus (outcome r)).map fun _ => outcome r,
        { st with now := st.now + elapsed }) := by
  unfold request at h
  by_cases hsafe : library.headerSafe = true
  · rw [if_pos hsafe] at h
    rcases Program.served_call.mp h with ⟨reply, rest, hreply, hrest, rfl⟩
    refine .inr ⟨reply.elapsed, hsafe, ?_⟩
    have hout : reply.outcome = outcome r := hreply
    rw [← hout]
    simp only [Run.bind_apply, Run.modifyRecord, Run.ofExcept, Program.bind] at hrest
    revert hrest
    cases checkStatus reply.outcome with
    | ok body | error e =>
      intro hrest
      rcases Program.served_ret.mp hrest with ⟨rfl, rfl⟩
      exact ⟨rfl, rfl⟩
  · rw [if_neg hsafe] at h
    rcases Run.served_ofExcept.mp h with ⟨rfl, rfl⟩
    exact .inl ⟨by simpa using hsafe, rfl, rfl⟩

variable (library outcome) in
def Reads {α : Type} (x : Call α) (r : Request) (d : Except Failure α) : Prop :=
  ∀ st trace q, Program.Served (Serves outcome) (x st) trace q →
    trace = sent library r ∧ ∃ elapsed : Nat, q = (d, { st with now := st.now + elapsed })

theorem reads_get (r : Request) :
    Reads library outcome (get library r) r (got library outcome r) := by
  intro st trace q h
  unfold got sent
  rcases Run.served_bind.mp h with ⟨before, o, st₁, after, hhead, htail, rfl⟩ | ⟨e, st₁, hhead, rfl⟩
  · rcases Run.served_ofExcept.mp htail with ⟨rfl, rfl⟩
    rcases served_request hhead with ⟨-, -, heq⟩ | ⟨elapsed, hsafe, rfl, heq⟩
    · cases heq
    rw [if_pos hsafe, if_pos hsafe]
    cases hst : checkStatus (outcome r) with
    | ok body =>
      rw [hst] at heq
      cases heq
      exact ⟨rfl, elapsed, rfl⟩
    | error e =>
      rw [hst] at heq
      cases heq
  · rcases served_request hhead with ⟨hsafe, rfl, heq⟩ | ⟨elapsed, hsafe, rfl, heq⟩
    · cases heq
      rw [hsafe]
      refine ⟨rfl, 0, ?_⟩
      rw [Int.natCast_zero, Int.add_zero]
      rfl
    · rw [if_pos hsafe, if_pos hsafe]
      cases hst : checkStatus (outcome r) with
      | ok body =>
        rw [hst] at heq
        cases heq
      | error e' =>
        rw [hst] at heq
        cases heq
        refine ⟨rfl, elapsed, ?_⟩
        unfold decode
        rw [hst]

variable {x : Call α} {d : Except Failure α}

theorem Reads.map {β : Type} (f : α → β) (h : Reads library outcome x r d) :
    Reads library outcome (do let a ← x; pure (f a)) r (d.map f) := by
  intro st trace q hserv
  rcases Run.served_bind.mp hserv with ⟨before, a, st₁, after, hhead, htail, rfl⟩ |
    ⟨e, st₁, hhead, rfl⟩
  · rcases Run.served_pure.mp htail with ⟨rfl, rfl⟩
    rcases h st _ _ hhead with ⟨rfl, elapsed, heq⟩
    cases heq
    exact ⟨List.append_nil _, elapsed, rfl⟩
  · rcases h st _ _ hhead with ⟨rfl, elapsed, heq⟩
    cases heq
    exact ⟨rfl, elapsed, rfl⟩

theorem reads_page (key : String) (page : Nat) :
    Reads library outcome (fetchSectionItemsPage library key (page * pageSize))
      (.sectionItems key (page * pageSize)) (pageAt library outcome key page) :=
  (reads_get _).map metadata

theorem reads_readPage (key : String) (wanted : Fields → Bool) (page : Nat) :
    Reads library outcome (readPage library key wanted (page * pageSize))
      (.sectionItems key (page * pageSize)) (pageRead library outcome key wanted page) := by
  intro st trace q h
  unfold pageRead
  rcases Run.served_bind.mp h with ⟨before, items, st₁, after, hhead, htail, rfl⟩ |
    ⟨e, st₁, hhead, rfl⟩
  · rcases reads_page key page st _ _ hhead with ⟨rfl, elapsed, heq⟩
    obtain ⟨hpage, rfl⟩ := Prod.mk.inj heq
    rw [← hpage]
    unfold readIds at htail
    dsimp only [Bind.bind, Except.bind]
    split at htail
    · rename_i hread
      rcases Run.served_pure.mp htail with ⟨rfl, rfl⟩
      rw [if_pos hread]
      exact ⟨List.append_nil _, elapsed, rfl⟩
    · rename_i hread
      rcases Run.served_ofExcept.mp htail with ⟨rfl, rfl⟩
      rw [if_neg hread]
      exact ⟨List.append_nil _, elapsed, rfl⟩
  · rcases reads_page key page st _ _ hhead with ⟨rfl, elapsed, heq⟩
    obtain ⟨hpage, rfl⟩ := Prod.mk.inj heq
    rw [← hpage]
    exact ⟨rfl, elapsed, rfl⟩

theorem reads_children (ratingKey : String) :
    Reads library outcome (fetchChildren library ratingKey) (.children ratingKey)
      (childrenOf library outcome ratingKey) :=
  (reads_get _).map metadata

theorem reads_files (ratingKey : String) :
    Reads library outcome (fetchChildrenFilePaths library ratingKey) (.children ratingKey)
      (filesOf library outcome ratingKey) :=
  (reads_children ratingKey).map fun items => items.flatMap extractFilePaths

theorem sent_of_ok {rows : List Fields} (h : rowsOf library outcome r = .ok rows) :
    sent library r = [r] := by
  unfold rowsOf got at h
  unfold sent
  split at h
  · rename_i hsafe
    rw [if_pos hsafe]
  · cases h

/-! ### What is looked at -/

variable {wanted : Fields → Bool} {items : List Fields} {key : String} {n : Nat} {e : Failure}

theorem looked_none (items : List Fields) : looked (fun _ => false) items = items := by
  induction items with
  | nil => rfl
  | cons item items ih =>
    rw [looked, if_neg nofun, ih]

theorem looked_subset : looked wanted items ⊆ items := by
  induction items with
  | nil => exact List.nil_subset _
  | cons item items ih =>
    rw [looked]
    split
    · exact List.cons_subset_cons item (List.nil_subset _)
    · exact List.cons_subset_cons item ih

theorem all_looked (h : items.all idsRead = true) : (looked wanted items).all idsRead = true :=
  List.all_eq_true.mpr fun item hitem => List.all_eq_true.mp h item (looked_subset hitem)

theorem pageRead_eq_ok_iff : pageRead library outcome key wanted n = .ok items ↔
    pageAt library outcome key n = .ok items ∧ (looked wanted items).all idsRead = true := by
  unfold pageRead
  cases pageAt library outcome key n with
  | error e => simp [Bind.bind, Except.bind]
  | ok page =>
    dsimp only [Bind.bind, Except.bind]
    constructor
    · intro h
      split at h
      · rename_i hread
        cases h
        exact ⟨rfl, hread⟩
      · cases h
    · rintro ⟨heq, hread⟩
      cases heq
      exact if_pos hread

theorem wholePage_eq_ok_iff : pageRead library outcome key (fun _ => false) n = .ok items ↔
    pageAt library outcome key n = .ok items ∧ items.all idsRead = true := by
  rw [pageRead_eq_ok_iff, looked_none]

theorem pageRead_of_whole (h : pageRead library outcome key (fun _ => false) n = .ok items) :
    pageRead library outcome key wanted n = .ok items := by
  rcases wholePage_eq_ok_iff.mp h with ⟨hpage, hread⟩
  exact pageRead_eq_ok_iff.mpr ⟨hpage, all_looked hread⟩

theorem not_unread_of_whole (h : pageRead library outcome key (fun _ => false) n = .ok items) :
    ¬ Unread library outcome (.sectionItems key (n * pageSize)) := by
  rcases wholePage_eq_ok_iff.mp h with ⟨hpage, hread⟩
  rintro ⟨items', hpage', hunread⟩
  have hsame : pageAt library outcome key n = .ok items' := hpage'
  rw [hpage] at hsame
  cases hsame
  rw [hread] at hunread
  cases hunread

-- A page that is not read to its end is not read up to an item in the same way, or has ids
-- that cannot be read.
variable (wanted) in
theorem whole_error (h : pageRead library outcome key (fun _ => false) n = .error e) :
    pageRead library outcome key wanted n = .error e ∨
      Unread library outcome (.sectionItems key (n * pageSize)) := by
  cases hpage : pageAt library outcome key n with
  | error e' =>
    unfold pageRead at h ⊢
    rw [hpage] at h ⊢
    exact .inl h
  | ok items =>
    refine .inr ⟨items, hpage, ?_⟩
    by_contra hread
    rw [Bool.not_eq_false] at hread
    rw [wholePage_eq_ok_iff.mpr ⟨hpage, hread⟩] at h
    cases h

/-! ### What a search ends with -/

section
variable (library outcome)

/-- The items of a section, from a page on, up to the page that has a wanted one. -/
def itemsFrom (key : String) (wanted : Fields → Bool) : Nat → Nat → Except Failure (List Fields)
  | 0, _ => .error .unfinished
  | pages + 1, page => do
      let items ← pageRead library outcome key wanted page
      if items.any wanted || items.length < pageSize then pure items
      else (itemsFrom key wanted pages (page + 1)).map (items ++ ·)

/-- What knows the answers. -/
def staticReaders : Readers (Except Failure) where
  findFirst tmdbId s :=
    (itemsFrom library outcome s.1.key (itemMatchesTmdbId tmdbId) library.pages 0).map
      (List.find? (itemMatchesTmdbId tmdbId))
  findAll tmdbId s :=
    (itemsFrom library outcome s.1.key (fun _ => false) library.pages 0).map
      (List.filter (itemMatchesTmdbId tmdbId))
  seasonRows := childrenOf library outcome
  episodePaths := filesOf library outcome
  lift := id

def answerOf (sections : List LibrarySection) (query : WatchStateQuery) :
    Except Failure WatchState :=
  match query.mediaType, query.season with
  | .movie, _ => movieFlow (staticReaders library outcome) (sections.filter (·.type = .movie))
      query.tmdbId query.libraryPath
  | .tv, some season => tvFlow (staticReaders library outcome) (sections.filter (·.type = .show))
      query.tmdbId season query.libraryPath
  | .tv, none => .error .value

end

/-! ### Related searches -/

section
variable {m n : Type → Type} [Monad m] [Monad n] (S : Simulation m n) {readers : Readers m}
  {readers' : Readers n} {sections : List LibrarySection}

/-- Two readers find the same items, each of which is as it should be. -/
structure FindersRel (readers : Readers m) (readers' : Readers n) (sections : List LibrarySection)
    (Item : Fields → Prop) : Prop where
  findFirst : ∀ tmdbId, ∀ s ∈ sections.zipIdx,
    S.Rel (readers.findFirst tmdbId s) (readers'.findFirst tmdbId s)
      fun a b => a = b ∧ ∀ item ∈ a, Item item
  findAll : ∀ tmdbId, ∀ s ∈ sections.zipIdx,
    S.Rel (readers.findAll tmdbId s) (readers'.findAll tmdbId s)
      fun a b => a = b ∧ ∀ item ∈ a, Item item
  lift : ∀ q, S.Rel (readers.lift q) (readers'.lift q) Eq

def Keyed (P : String → Prop) (row : Fields) : Prop :=
  ∀ key, getStr row "ratingKey" = some key → P key

structure RowsRel (readers : Readers m) (readers' : Readers n) (IsShow IsSeason : String → Prop) :
    Prop where
  seasonRows : ∀ key, IsShow key → S.Rel (readers.seasonRows key) (readers'.seasonRows key)
    fun a b => a = b ∧ ∀ row ∈ a, Keyed IsSeason row
  episodePaths : ∀ key, IsSeason key →
    S.Rel (readers.episodePaths key) (readers'.episodePaths key) Eq

variable {S} {Item : Fields → Prop} {IsShow IsSeason : String → Prop}

theorem firstIn_rel {find : Placed → m (Option Fields)} {find' : Placed → n (Option Fields)}
    (placed : List Placed)
    (h : ∀ s ∈ placed, S.Rel (find s) (find' s) fun a b => a = b ∧ ∀ item ∈ a, Item item) :
    S.Rel (firstIn find placed) (firstIn find' placed)
      fun a b => a = b ∧ ∀ item ∈ a, Item item := by
  induction placed with
  | nil => exact S.pure ⟨rfl, by simp⟩
  | cons s rest ih =>
    refine S.bind (h s List.mem_cons_self) ?_
    rintro a b ⟨rfl, hitem⟩
    cases a with
    | some item => exact S.pure ⟨rfl, hitem⟩
    | none => exact ih fun s' hs' => h s' (List.mem_cons_of_mem s hs')

theorem collectHits_rel {findAll : Placed → m (List Fields)} {findAll' : Placed → n (List Fields)}
    {hit : String → Fields → m (Option Hit)} {hit' : String → Fields → n (Option Hit)}
    {path : String} {placed : List Placed}
    (hfind : ∀ s ∈ placed,
      S.Rel (findAll s) (findAll' s) fun a b => a = b ∧ ∀ item ∈ a, Item item)
    (hhit : ∀ scanPath item, Item item → S.Rel (hit scanPath item) (hit' scanPath item) Eq) :
    S.Rel (collectHits findAll hit path placed) (collectHits findAll' hit' path placed) Eq := by
  refine S.foldlM placed rfl ?_
  rintro s hs hits _ rfl
  cases sectionScanPath s.1 path with
  | none => exact S.pure rfl
  | some scanPath =>
    refine S.bind (hfind s hs) ?_
    rintro items _ ⟨rfl, hitem⟩
    refine S.foldlM items rfl ?_
    rintro item hmem hits _ rfl
    refine S.bind (hhit scanPath item (hitem item hmem)) ?_
    rintro found _ rfl
    exact S.pure rfl

theorem movieFlow_rel (h : FindersRel S readers readers' sections Item) (tmdbId : Nat)
    (libraryPath : Option String) :
    S.Rel (movieFlow readers sections tmdbId libraryPath)
      (movieFlow readers' sections tmdbId libraryPath) Eq := by
  cases libraryPath with
  | none =>
    refine S.bind (firstIn_rel _ (h.findFirst tmdbId)) ?_
    rintro item _ ⟨rfl, -⟩
    cases item with
    | none => exact S.pure rfl
    | some item => exact h.lift _
  | some path =>
    refine S.bind (collectHits_rel (h.findAll tmdbId) ?_) ?_
    · intro scanPath item _
      unfold movieHit
      split
      · refine S.bind (h.lift _) ?_
        rintro state _ rfl
        exact S.pure rfl
      · exact S.pure rfl
    · rintro hits _ rfl
      exact S.pure rfl

theorem findSeasonEntryIn_mem {entries : List Fields} {season : Int} {entry : Fields}
    (h : findSeasonEntryIn entries season = some entry) : entry ∈ entries :=
  List.mem_of_find?_eq_some h

theorem seasonHit_rel (h : FindersRel S readers readers' sections Item)
    (hrows : RowsRel S readers readers' IsShow IsSeason) {item : Fields} (hitem : Keyed IsShow item)
    (season : Int) (scanPath : String) :
    S.Rel (seasonHit readers season scanPath item)
      (seasonHit readers' season scanPath item) Eq := by
  unfold seasonHit
  cases hkey : getStr item "ratingKey" with
  | none => exact S.pure rfl
  | some ratingKey =>
    refine S.bind (hrows.seasonRows ratingKey (hitem ratingKey hkey)) ?_
    rintro entries _ ⟨rfl, hents⟩
    cases hgot : findSeasonEntryIn entries season with
    | none => exact S.pure rfl
    | some entry =>
      dsimp only
      cases hseas : getStr entry "ratingKey" with
      | none => exact S.pure rfl
      | some seasonRatingKey =>
        have hval := hents entry (findSeasonEntryIn_mem hgot) seasonRatingKey hseas
        refine S.bind (hrows.episodePaths seasonRatingKey hval) ?_
        rintro files _ rfl
        split
        · refine S.bind (h.lift _) ?_
          rintro state _ rfl
          exact S.pure rfl
        · exact S.pure rfl

theorem tvFlow_rel (h : FindersRel S readers readers' sections Item)
    (hrows : RowsRel S readers readers' IsShow IsSeason)
    (hkeyed : ∀ item, Item item → Keyed IsShow item) (tmdbId : Nat) (season : Int)
    (libraryPath : Option String) :
    S.Rel (tvFlow readers sections tmdbId season libraryPath)
      (tvFlow readers' sections tmdbId season libraryPath) Eq := by
  cases libraryPath with
  | none =>
    refine S.bind (firstIn_rel _ (h.findFirst tmdbId)) ?_
    rintro item _ ⟨rfl, hitem⟩
    unfold firstSeason
    cases hkey : item.bind (getStr · "ratingKey") with
    | none => exact S.pure rfl
    | some ratingKey =>
      rcases Option.bind_eq_some_iff.mp hkey with ⟨found, hgot, hkey⟩
      have hshow := hkeyed found (hitem found hgot) ratingKey hkey
      refine S.bind (hrows.seasonRows ratingKey hshow) ?_
      rintro entries _ ⟨rfl, -⟩
      cases findSeasonEntryIn entries season with
      | none => exact S.pure rfl
      | some entry => exact h.lift _
  | some path =>
    refine S.bind (collectHits_rel (h.findAll tmdbId) ?_) ?_
    · exact fun scanPath item hitem => seasonHit_rel h hrows (hkeyed item hitem) season scanPath
    · rintro hits _ rfl
      exact S.pure rfl

end

/-! ### One title -/

variable (library outcome) in
/-- What a program ends with that is served by a Plex that does not change. -/
def knowing : Simulation (Run Request (fun _ => Reply) Failure Caches) (Except Failure) :=
  denoting (Serves outcome) (fun st => (Relisted.refl st : Relisted library outcome st st))
    Relisted.trans

theorem Reads.denotes (h : Reads library outcome x r d) {R : α → α → Prop}
    (hR : ∀ a, d = .ok a → R a a) : (knowing library outcome).Rel x d R := by
  intro st trace q hserv
  rcases h st trace q hserv with ⟨-, elapsed, rfl⟩
  exact ⟨sameEnd_rfl hR, relisted_wait st elapsed⟩

theorem denotes_scanFrom (key : String) (wanted : Fields → Bool) (pages page : Nat)
    (seen : List Fields) :
    (knowing library outcome).Rel (scanFrom library key wanted pages (page * pageSize) seen)
      (itemsFrom library outcome key wanted pages page) fun a b => a = seen ++ b := by
  induction pages generalizing page seen with
  | zero => exact Denotes.ofExcept Relisted.refl rfl
  | succ pages ih =>
    refine (knowing library outcome).bind
      ((reads_readPage key wanted page).denotes fun _ _ => rfl) ?_
    rintro items _ rfl
    split
    · exact (knowing library outcome).pure rfl
    · have hrest := ih (page + 1) (seen ++ items)
      rw [Nat.succ_mul] at hrest
      refine Denotes.map hrest fun a b hab => ?_
      rw [hab, List.append_assoc]

theorem denotes_scan (key : String) (wanted : Fields → Bool) :
    (knowing library outcome).Rel (scanFrom library key wanted library.pages 0 [])
      (itemsFrom library outcome key wanted library.pages 0) Eq := by
  have h : (knowing library outcome).Rel
      (scanFrom library key wanted library.pages (0 * pageSize) [])
      _ _ := denotes_scanFrom key wanted library.pages 0 []
  exact h

theorem knowing_map {β : Type} (f : α → β) (h : (knowing library outcome).Rel x d Eq) :
    (knowing library outcome).Rel (do let a ← x; pure (f a)) (d.map f) Eq := by
  have hbind := (knowing library outcome).bind (S := Eq) (f := fun a => pure (f a))
    (g := fun a => pure (f a)) h ?_
  · cases d with
    | ok a | error e => exact hbind
  · rintro a _ rfl
    exact (knowing library outcome).pure rfl

theorem knowing_mono {P : α → Prop} (h : (knowing library outcome).Rel x d Eq) (hP : ∀ a, P a) :
    (knowing library outcome).Rel x d fun a b => a = b ∧ P a := by
  intro st trace q hserv
  rcases h st trace q hserv with ⟨hend, hstep⟩
  exact ⟨hend.mono fun a b hab => ⟨hab, hP a⟩, hstep⟩

theorem knowing_finders (sections : List LibrarySection) :
    FindersRel (knowing library outcome) (freshReaders library) (staticReaders library outcome)
      sections (Keyed fun _ => True) where
  findFirst tmdbId s _ := by
    refine knowing_mono (knowing_map _ (denotes_scan s.1.key _)) ?_
    exact fun _ _ _ _ _ => trivial
  findAll tmdbId s _ := by
    refine knowing_mono (knowing_map _ (denotes_scan s.1.key _)) ?_
    exact fun _ _ _ _ _ => trivial
  lift q := Denotes.ofExcept Relisted.refl (sameEnd_rfl fun _ _ => rfl)

theorem knowing_rows :
    RowsRel (knowing library outcome) (freshReaders library) (staticReaders library outcome)
      (fun _ => True) fun _ => True where
  seasonRows key _ := (reads_children key).denotes fun _ _ => ⟨rfl, fun _ _ _ _ => trivial⟩
  episodePaths key _ := (reads_files key).denotes fun _ _ => rfl

theorem relisted_remember {sections : List LibrarySection} {q : Except Failure Unit × Caches}
    (hlist : listing library outcome = .ok sections)
    (h : Program.Served (Serves outcome) (rememberSections library sections st) trace q) :
    trace = [] ∧ q.1 = .ok () ∧ Relisted library outcome st q.2 := by
  unfold rememberSections at h
  split at h
  · rcases Program.served_ret.mp h with ⟨rfl, rfl⟩
    refine ⟨rfl, rfl, fun sections' hcach => .inr ?_⟩
    rw [Cache.get_set_self hcach]
    exact hlist
  · rcases Program.served_ret.mp h with ⟨rfl, rfl⟩
    refine ⟨rfl, rfl, fun sections' hcach => ?_⟩
    have hnone : cachedSections library
        (sectionsCache.write st (st.sections.invalidate library.cacheKey)) = none :=
      Cache.get_invalidate_self
    exact absurd (hnone.symm.trans hcach) nofun

theorem served_freshListing {q : Except Failure (List LibrarySection) × Caches}
    (h : Program.Served (Serves outcome) (listSections library false true st) trace q) :
    q.1 = listing library outcome ∧ Relisted library outcome st q.2 ∧
      trace = sent library .sections := by
  rcases Run.served_bind.mp h with ⟨before, cached, st₁, after, hhead, htail, rfl⟩ |
    ⟨e, st₁, hhead, rfl⟩
  · rcases Program.served_ret.mp hhead with ⟨rfl, heq⟩
    cases heq
    unfold listing
    rcases Run.served_bind.mp htail with ⟨before, payload, st₂, after, hget, htail, rfl⟩ |
      ⟨e, st₂, hget, rfl⟩
    · rcases reads_get .sections st _ _ hget with ⟨rfl, elapsed, heq⟩
      obtain ⟨hgot, rfl⟩ := Prod.mk.inj heq
      rw [← hgot]
      dsimp only
      have hlist : listing library outcome =
          match parseSectionsEnvelope payload with
          | none => .error .library
          | some sections => .ok sections := by
        unfold listing
        rw [← hgot]
      cases hprs : parseSectionsEnvelope payload with
      | none =>
        rw [hprs] at htail
        rcases Run.served_ofExcept.mp htail with ⟨rfl, rfl⟩
        exact ⟨rfl, relisted_wait st elapsed, List.append_nil _⟩
      | some sections =>
        rw [hprs] at htail hlist
        dsimp only at htail
        rcases Run.served_bind.mp htail with ⟨before, _, st₃, after, hstore, hend, rfl⟩ |
          ⟨e, st₃, hstore, rfl⟩
        · rcases relisted_remember hlist hstore with ⟨rfl, -, hkept⟩
          rcases Run.served_pure.mp hend with ⟨rfl, rfl⟩
          exact ⟨rfl, (relisted_wait st elapsed).trans _ _ _ hkept, List.append_nil _⟩
        · rcases relisted_remember hlist hstore with ⟨-, hok, -⟩
          cases hok
    · rcases reads_get .sections st _ _ hget with ⟨rfl, elapsed, heq⟩
      obtain ⟨hgot, rfl⟩ := Prod.mk.inj heq
      rw [← hgot]
      exact ⟨rfl, relisted_wait st elapsed, rfl⟩
  · rcases Program.served_ret.mp hhead with ⟨-, heq⟩
    cases heq

theorem served_listSections {q : Except Failure (List LibrarySection) × Caches}
    (h : Program.Served (Serves outcome) (listSections library true true st) trace q) :
    q.1 = listed library outcome st ∧ Relisted library outcome st q.2 ∧
      (trace = [] ∨ trace = [.sections]) := by
  have hfetch : Relisted library outcome st
      { st with sections := (st.sections.get st.now library.cacheKey).2 } :=
    relisted_of_mem (Int.le_refl _) fun entry hent => Cache.mem_of_mem_get hent
  rcases Run.served_bind.mp h with ⟨before, cached, st₁, after, hhead, htail, rfl⟩ |
    ⟨e, st₁, hhead, rfl⟩
  · rcases Program.served_ret.mp hhead with ⟨rfl, heq⟩
    obtain ⟨hcach, rfl⟩ := Prod.mk.inj heq
    have hlook : cached = cachedSections library st := Except.ok.inj hcach
    unfold listed
    rw [← hlook]
    cases cached with
    | some sections =>
      rcases Run.served_pure.mp htail with ⟨rfl, rfl⟩
      exact ⟨rfl, hfetch, .inl rfl⟩
    | none =>
      rcases served_freshListing htail with ⟨hend, hkept, htr⟩
      refine ⟨hend, Relisted.trans _ _ _ hfetch hkept, ?_⟩
      rw [List.nil_append, htr]
      unfold sent
      split
      · exact .inr rfl
      · exact .inl rfl
  · rcases Program.served_ret.mp hhead with ⟨-, heq⟩
    cases heq

variable (library outcome) in
def answerFrom (st : Caches) (query : WatchStateQuery) : Except Failure WatchState :=
  match query.mediaType, query.season with
  | .tv, none => .error .value
  | _, _ => do
      let sections ← listed library outcome st
      answerOf library outcome sections query

-- A search after a listing: it stops with the listing, or goes on with the sections that are
-- seen.
theorem served_afterListing {q : Except Failure α × Caches}
    (h : Program.Served (Serves outcome) ((sectionsOf library type >>= f) st) trace q) :
    (∃ e, listed library outcome st = .error e ∧ q.1 = .error e ∧
      Relisted library outcome st q.2) ∨
    ∃ sections before st' after, listed library outcome st = .ok sections ∧
      Relisted library outcome st st' ∧ trace = before ++ after ∧
      Program.Served (Serves outcome) (f (sections.filter (·.type = type)) st') after q := by
  rcases Run.served_bind.mp h with ⟨before, own, st', after, hhead, htail, rfl⟩ |
    ⟨e, st', hhead, rfl⟩
  · rcases Run.served_bind.mp hhead with ⟨before, sections, st₁, rest, hlist, hfilt, rfl⟩ |
      ⟨e, st₁, -, heq⟩
    · rcases Run.served_pure.mp hfilt with ⟨rfl, heq⟩
      cases heq
      rcases served_listSections hlist with ⟨hend, hkept, -⟩
      exact .inr ⟨sections, before ++ [], st', after, hend.symm, hkept, rfl, htail⟩
    · cases heq
  · rcases Run.served_bind.mp hhead with ⟨before, sections, st₁, rest, -, hfilt, rfl⟩ |
      ⟨e', st₁, hlist, heq⟩
    · rcases Run.served_pure.mp hfilt with ⟨-, heq⟩
      cases heq
    · cases heq
      rcases served_listSections hlist with ⟨hend, hkept, -⟩
      exact .inl ⟨e, hend.symm, rfl, hkept⟩

theorem served_sectionsOf
    {d : List LibrarySection → Except Failure α} {q : Except Failure α × Caches}
    (hf : ∀ sections, (knowing library outcome).Rel (f sections) (d sections) Eq)
    (h : Program.Served (Serves outcome) ((sectionsOf library type >>= f) st) trace q) :
    q.1 = (do
      let sections ← listed library outcome st
      d (sections.filter (·.type = type))) ∧ Relisted library outcome st q.2 := by
  rcases served_afterListing h with ⟨e, hlist, hend, hkept⟩ |
    ⟨sections, before, st', after, hlist, hkept, -, htail⟩
  · rw [hlist]
    exact ⟨hend, hkept⟩
  · rcases hf _ st' after q htail with ⟨hend, hkept'⟩
    rw [hlist]
    exact ⟨hend.eq, hkept.trans _ _ _ hkept'⟩

theorem served_watchState {query : WatchStateQuery} {q : Except Failure WatchState × Caches}
    (h : Program.Served (Serves outcome) (watchState library query st) trace q) :
    q.1 = answerFrom library outcome st query ∧ Relisted library outcome st q.2 := by
  rcases query with ⟨tmdbId, mediaType, season, libraryPath⟩
  cases mediaType with
  | movie =>
    exact served_sectionsOf (fun sections => movieFlow_rel (knowing_finders sections) _ _) h
  | tv => cases season with
    | none =>
      rcases Run.served_ofExcept.mp h with ⟨rfl, rfl⟩
      exact ⟨rfl, Relisted.refl st⟩
    | some season =>
      exact served_sectionsOf
        (fun sections => tvFlow_rel (knowing_finders sections) knowing_rows (fun _ h => h) _ _ _) h

end

end PlexLibrary

end PlexManager
