import PlexManager.Core.PlexLibrary

/-!
# How old a cached presence may be

What a cache holds was found by walks that ended when it was stored, or later. A walk
touches nothing but the cache of the sections, so a call keeps this if it stores what it
has just found. One does not: a lookup of some shows stores with them, for another five
minutes, what the snapshot has of the others.

## Theorems

* `presence_within_ttl`: What is said to be present was seen within the time to live.
* `second_carried_over`: Not without that condition.
-/

namespace PlexManager

namespace PlexLibrary

open Effects KeyedTable TtlCache Transition

/-! ### Walks -/

structure Later (st st' : Caches) : Prop where
  now : st.now ≤ st'.now
  presentTmdb : st'.presentTmdb = st.presentTmdb
  presentShowTmdb : st'.presentShowTmdb = st.presentShowTmdb
  tvSeasons : st'.tvSeasons = st.tvSeasons
  crawls : st'.crawls = st.crawls

theorem Later.refl (st : Caches) : Later st st := ⟨Int.le_refl _, rfl, rfl, rfl, rfl⟩

variable {st st' st₁ : Caches} {E : Failure → Caches → Prop} {crawls crawls' : List Crawl}
  {s : ShowSeasons} {since since' : Int} {ids : List Nat} {a : Asked} {key : String} {item : Item}

theorem Later.trans {st'' : Caches} (h : Later st st') (h' : Later st' st'') :
    Later st st'' where
  now := Int.le_trans h.now h'.now
  presentTmdb := h'.presentTmdb.trans h.presentTmdb
  presentShowTmdb := h'.presentShowTmdb.trans h.presentShowTmdb
  tvSeasons := h'.tvSeasons.trans h.tvSeasons
  crawls := h'.crawls.trans h.crawls

/-- Whatever is answered, nothing has changed but the clock and the cache of the sections. -/
def Quiet {α : Type} (x : Call α) : Prop :=
  ∀ st, Gives st x (fun _ st' => Later st st') fun _ st' => Later st st'

section
variable {α β : Type} {x : Call α}

theorem quiet_pure (a : α) : Quiet (pure a : Call α) := fun st => .pure (Later.refl st)

theorem quiet_raise (e : Failure) : Quiet (Run.raise e : Call α) := fun st => .raise (Later.refl st)

theorem quiet_ofExcept (r : Except Failure α) : Quiet (Run.ofExcept r : Call α) :=
  fun st => .ofExcept (fun _ _ => Later.refl st) fun _ _ => Later.refl st

theorem Quiet.from (h : Quiet x) (hnext : Later st st') :
    Gives st' x (fun _ st'' => Later st st'') fun _ st'' => Later st st'' :=
  (h st').mono (fun _ _ _ h' => hnext.trans h') fun _ _ _ h' => hnext.trans h'

theorem Quiet.bind {f : α → Call β} (hx : Quiet x) (hf : ∀ a, Quiet (f a)) : Quiet (x >>= f) :=
  fun st => .bind (hx st) fun a _ _ hnext => (hf a).from hnext

theorem Quiet.tryCatch {handler : Failure → Call α} (hx : Quiet x)
    (hh : ∀ e, Quiet (handler e)) : Quiet (Run.tryCatch x handler) :=
  fun st => .tryCatch (hx st) fun e _ _ hnext => (hh e).from hnext

theorem Quiet.foldlM {f : β → α → Call β} (xs : List α) (start : β)
    (h : ∀ acc a, Quiet (f acc a)) : Quiet (xs.foldlM f start) :=
  fun st => .foldlM xs f start (Later.refl st) fun a _ acc _ _ hnext => (h acc a).from hnext

variable (library : Library)

theorem quiet_request (r : Request) : Quiet (request library r) := by
  unfold request
  split
  · intro st
    refine .bind (Gives.perform fun reply => Later.refl st) ?_
    intro reply st₁ _ hnext
    have hpass : Later st { st₁ with now := st₁.now + reply.elapsed } := by
      refine hnext.trans ⟨?_, rfl, rfl, rfl, rfl⟩
      dsimp only
      omega
    exact ((quiet_ofExcept _).bind fun _ => quiet_pure reply.outcome).from hpass
  · exact quiet_raise _

theorem quiet_get (r : Request) : Quiet (get library r) :=
  (quiet_request library r).bind fun _ => quiet_ofExcept _

theorem quiet_cacheGetIf_sections (useCache : Bool) :
    Quiet (cacheGetIf library useCache sectionsCache) := by
  unfold cacheGetIf
  split
  · exact fun st => .pure ⟨Int.le_refl _, rfl, rfl, rfl, rfl⟩
  · exact quiet_pure none

theorem quiet_rememberSections (sections : List LibrarySection) :
    Quiet (rememberSections library sections) := by
  unfold rememberSections
  split
  · exact fun st => .pure ⟨Int.le_refl _, rfl, rfl, rfl, rfl⟩
  · exact fun st => .pure ⟨Int.le_refl _, rfl, rfl, rfl, rfl⟩

theorem quiet_listSections (useCache writeCache : Bool) :
    Quiet (listSections library useCache writeCache) := by
  refine (quiet_cacheGetIf_sections library useCache).bind ?_
  intro cached
  split
  · exact quiet_pure _
  refine (quiet_get library _).bind ?_
  intro payload
  split
  · exact quiet_raise _
  · rename_i sections _
    split
    · exact (quiet_rememberSections library sections).bind fun _ => quiet_pure sections
    · exact quiet_pure sections

theorem quiet_sectionsOf (type : SectionType) : Quiet (sectionsOf library type) :=
  (quiet_listSections library true true).bind fun _ => quiet_pure _

theorem quiet_walkFrom (key : String) {visit : α → List Fields → Call α}
    (hvis : ∀ acc items, Quiet (visit acc items)) (pages start : Nat) (acc : α) :
    Quiet (walkFrom library key visit pages start acc) := by
  induction pages generalizing start acc with
  | zero => exact quiet_raise _
  | succ pages ih =>
    refine (quiet_get library _).bind ?_
    intro payload
    refine (hvis acc _).bind ?_
    intro acc
    split
    · exact quiet_pure acc
    · exact ih (start + pageSize) acc

theorem quiet_readIds (items : List Fields) : Quiet (readIds items) := by
  unfold readIds
  split
  · exact quiet_pure ()
  · exact quiet_raise _

theorem quiet_collectSectionTmdbIds (key : String) (present : List Nat) :
    Quiet (collectSectionTmdbIds library key present) :=
  quiet_walkFrom library key (fun _ items => (quiet_readIds items).bind fun _ => quiet_pure _) _ _ _

theorem quiet_fetchPresentSeasons (ratingKey : String) :
    Quiet (fetchPresentSeasons library ratingKey) :=
  (quiet_get library _).bind fun _ => quiet_pure _

theorem quiet_collectShowSeasons (shows : SeasonMap) (item : Fields) :
    Quiet (collectShowSeasons library shows item) := by
  refine (quiet_readIds [item]).bind fun _ => ?_
  split
  · exact quiet_pure shows
  · split
    · exact quiet_pure shows
    · exact (quiet_fetchPresentSeasons library _).bind fun _ => quiet_pure _

theorem quiet_collectSectionTvSeasons (key : String) (shows : SeasonMap) :
    Quiet (collectSectionTvSeasons library key shows) :=
  quiet_walkFrom library key
    (fun shows items => Quiet.foldlM items shows (quiet_collectShowSeasons library)) _ _ _

theorem quiet_readSeasons (found : ShowLookup) (ratingKey : String) :
    Quiet (readSeasons library found ratingKey) := by
  refine Quiet.tryCatch ?_ ?_
  · exact (quiet_fetchPresentSeasons library ratingKey).bind fun _ => quiet_pure _
  · intro e
    cases e with
    | library | auth => exact quiet_pure _
    | value | unfinished => exact quiet_raise _

theorem quiet_lookupShows (ratingKeys : List (Nat × String)) (ids : List Nat) :
    Quiet (lookupShows library ratingKeys ids) := by
  induction ids with
  | nil => exact quiet_pure []
  | cons id ids ih =>
    have hgot : Quiet (lookupShow library ratingKeys id) :=
      Quiet.foldlM _ _ (quiet_readSeasons library)
    exact hgot.bind fun _ => ih.bind fun _ => quiet_pure _

end

/-! ### What was seen -/

def Found.reports : Found → Item → Bool
  | movies ids, .movie id => ids.contains id
  | shows ids, .show id => ids.contains id
  | seasons found, .show id => (found.find id).isSome
  | seasons found, .season id n => (found.find id).any fun s => s.seasons.contains n
  | lookups found, .show id => found.any fun l => l.tmdbId = id && l.matched && !l.failed
  | lookups found, .season id n => found.any fun l => l.tmdbId = id && l.seasons.contains n
  | _, _ => false

/-- A walk through all there is of a kind did not find an item. -/
def Found.denies : Found → Item → Bool
  | movies ids, .movie id => !ids.contains id
  | shows ids, .show id => !ids.contains id
  | seasons found, .show id => !(found.find id).isSome
  | seasons found, .season id n => !(found.find id).any fun s => s.seasons.contains n
  | _, _ => false

/-- A walk with the same key, since some time, found an item. -/
def Seen (crawls : List Crawl) (key : String) (since : Int) (item : Item) : Prop :=
  ∃ c ∈ crawls, c.cacheKey = key ∧ since ≤ c.endedAt ∧ c.found.reports item = true

/-- A walk with the same key did not find an item. -/
def Denied (crawls : List Crawl) (key : String) (item : Item) : Prop :=
  ∃ c ∈ crawls, c.cacheKey = key ∧ c.found.denies item = true

theorem Seen.mono (h : Seen crawls key since item) (hcrl : crawls ⊆ crawls')
    (hsince : since' ≤ since) : Seen crawls' key since' item := by
  rcases h with ⟨c, hc, hkey, hend, hreports⟩
  exact ⟨c, hcrl hc, hkey, Int.le_trans hsince hend, hreports⟩

theorem Denied.mono (h : Denied crawls key item)
    (hcrl : crawls ⊆ crawls') : Denied crawls' key item := by
  rcases h with ⟨c, hc, hkey, hdenies⟩
  exact ⟨c, hcrl hc, hkey, hdenies⟩

def IdsSeen (item : Nat → Item) (crawls : List Crawl) (key : String) (since : Int)
    (ids : List Nat) : Prop := ∀ id ∈ ids, Seen crawls key since (item id)

def SeasonsSeen (crawls : List Crawl) (key : String) (since : Int) (shows : SeasonMap) : Prop :=
  ∀ s ∈ shows.rows, Seen crawls key since (.show s.tmdbId) ∧
    ∀ n ∈ s.seasons, Seen crawls key since (.season s.tmdbId n)

/-- What is cached was seen when it was stored, or later. -/
structure Inv (st : Caches) : Prop where
  movies : st.presentTmdb.Dated cacheTtl (IdsSeen .movie st.crawls)
  shows : st.presentShowTmdb.Dated cacheTtl (IdsSeen .show st.crawls)
  seasons : st.tvSeasons.Dated cacheTtl (SeasonsSeen st.crawls)

theorem IdsSeen.mono {item : Nat → Item} (h : IdsSeen item crawls key since ids)
    (hcrl : crawls ⊆ crawls') (hsince : since' ≤ since) : IdsSeen item crawls' key since' ids :=
  fun id hid => (h id hid).mono hcrl hsince

theorem SeasonsSeen.mono {shows : SeasonMap} (h : SeasonsSeen crawls key since shows)
    (hcrl : crawls ⊆ crawls') (hsince : since' ≤ since) : SeasonsSeen crawls' key since' shows :=
  fun s hs => ⟨(h s hs).1.mono hcrl hsince, fun n hn => ((h s hs).2 n hn).mono hcrl hsince⟩

theorem Inv.extend (h : Inv st) (hmov : st'.presentTmdb = st.presentTmdb)
    (hshow : st'.presentShowTmdb = st.presentShowTmdb) (hseas : st'.tvSeasons = st.tvSeasons)
    (hcrl : st.crawls ⊆ st'.crawls) : Inv st' where
  movies := by
    rw [hmov]
    exact h.movies.mono fun _ _ _ hseen => hseen.mono hcrl (Int.le_refl _)
  shows := by
    rw [hshow]
    exact h.shows.mono fun _ _ _ hseen => hseen.mono hcrl (Int.le_refl _)
  seasons := by
    rw [hseas]
    exact h.seasons.mono fun _ _ _ hseen => hseen.mono hcrl (Int.le_refl _)

/-- A call goes on: what is cached is in order, time passes, and walks are added. -/
structure Onward (st st' : Caches) : Prop where
  inv : Inv st'
  now : st.now ≤ st'.now
  crawls : st.crawls <+: st'.crawls

theorem Onward.refl (h : Inv st) : Onward st st :=
  ⟨h, Int.le_refl _, List.prefix_refl _⟩

theorem Onward.trans {st'' : Caches} (h : Onward st st') (h' : Onward st' st'') : Onward st st'' :=
  ⟨h'.inv, Int.le_trans h.now h'.now, h.crawls.trans h'.crawls⟩

theorem Onward.of_later (hinv : Inv st) (h : Later st st') : Onward st st' where
  inv := hinv.extend h.presentTmdb h.presentShowTmdb h.tvSeasons
    (by rw [h.crawls]; exact fun _ hc => hc)
  now := h.now
  crawls := h.crawls ▸ List.prefix_refl _

theorem Denied.onward {st₂ : Caches}
    (h : Denied (st₂.crawls.drop st₁.crawls.length) key item) (hbef : Onward st st₁)
    (haft : Onward st₂ st') : Denied (st'.crawls.drop st.crawls.length) key item := by
  refine h.mono ?_
  intro c hc
  have hnext : c ∈ st₂.crawls.drop st.crawls.length := by
    have hlen := hbef.crawls.length_le
    have hdrop : st₂.crawls.drop st₁.crawls.length =
        (st₂.crawls.drop st.crawls.length).drop (st₁.crawls.length - st.crawls.length) := by
      rw [List.drop_drop]
      congr 1
      omega
    rw [hdrop] at hc
    exact List.mem_of_mem_drop hc
  rcases haft.crawls with ⟨more, hmore⟩
  rw [← hmore, List.drop_append]
  exact List.mem_append_left _ hnext

/-! ### Caches and walks -/

/-- A cache that is under the invariant, with what held of its values. -/
structure Dates {V : Type} (ref : CacheRef V) (P : List Crawl → String → Int → V → Prop) :
    Prop where
  read : ∀ st, Inv st → (ref.read st).Dated cacheTtl (P st.crawls)
  write : ∀ st c, Inv st → c.Dated cacheTtl (P st.crawls) → Onward st (ref.write st c)
  crawls : ∀ st c, (ref.write st c).crawls = st.crawls

theorem dates_presentTmdb : Dates presentTmdbCache (IdsSeen .movie) where
  read _ h := h.movies
  write _ _ h hc := ⟨⟨hc, h.shows, h.seasons⟩, Int.le_refl _, List.prefix_refl _⟩
  crawls _ _ := rfl

theorem dates_presentShowTmdb : Dates presentShowTmdbCache (IdsSeen .show) where
  read _ h := h.shows
  write _ _ h hc := ⟨⟨h.movies, hc, h.seasons⟩, Int.le_refl _, List.prefix_refl _⟩
  crawls _ _ := rfl

theorem dates_tvSeasons : Dates tvSeasonsCache SeasonsSeen where
  read _ h := h.seasons
  write _ _ h hc := ⟨⟨h.movies, h.shows, hc⟩, Int.le_refl _, List.prefix_refl _⟩
  crawls _ _ := rfl

section
variable {V : Type} {ref : CacheRef V} {P : List Crawl → String → Int → V → Prop}
  (library : Library) {found : Found} {item : Item} {shows updated : SeasonMap}
  {collect : Call (List Nat)} {lookups : List ShowLookup}

theorem gives_cacheGet (h : Dates ref P) (hinv : Inv st) :
    Gives st (cacheGet library ref)
      (fun cached st' => Onward st st' ∧ st'.crawls = st.crawls ∧ ∀ value, cached = some value →
        ∃ stored, st.now - cacheTtl < stored ∧ P st.crawls library.cacheKey stored value) E := by
  refine .pure ⟨h.write st _ hinv ((h.read st hinv).get _ _), h.crawls _ _, ?_⟩
  intro value hval
  rcases (h.read st hinv).found hval with ⟨stored, hnew, hP⟩
  exact ⟨stored, by omega, hP⟩

theorem gives_cacheGetIf (h : Dates ref P) (hinv : Inv st) (useCache : Bool) :
    Gives st (cacheGetIf library useCache ref)
      (fun cached st' => Onward st st' ∧ st'.crawls = st.crawls ∧ ∀ value, cached = some value →
        ∃ stored, st.now - cacheTtl < stored ∧ P st.crawls library.cacheKey stored value) E := by
  unfold cacheGetIf
  split
  · exact gives_cacheGet library h hinv
  · exact .pure ⟨Onward.refl hinv, rfl, nofun⟩

theorem gives_cacheSet (h : Dates ref P) (hinv : Inv st) {value : V}
    (hval : P st.crawls library.cacheKey st.now value) :
    Gives st (cacheSet library ref value) (fun _ st' => Onward st st' ∧ st'.crawls = st.crawls) E :=
  .modifyRecord ⟨h.write st _ hinv ((h.read st hinv).set hval), h.crawls _ _⟩

theorem gives_cacheInvalidate (h : Dates ref P) (hinv : Inv st) :
    Gives st (cacheInvalidate library ref) (fun _ st' => Onward st st') E :=
  .modifyRecord (h.write st _ hinv ((h.read st hinv).invalidate _))

/-- A walk has ended: it is noted, and nothing else has changed. -/
structure Walked (st : Caches) (found : Found) (st' : Caches) : Prop where
  onward : Onward st st'
  crawls : st'.crawls =
    st.crawls ++ [{ cacheKey := library.cacheKey, endedAt := st'.now, found }]

theorem Walked.seen {library : Library} (h : Walked library st found st')
    (hreports : found.reports item = true) : Seen st'.crawls library.cacheKey st'.now item := by
  refine ⟨{ cacheKey := library.cacheKey, endedAt := st'.now, found }, ?_, rfl, Int.le_refl _,
    hreports⟩
  rw [h.crawls]
  exact List.mem_append_right _ (List.mem_singleton.mpr rfl)

theorem Walked.denied {library : Library} (h : Walked library st found st')
    (hdenies : found.denies item = true) :
    Denied (st'.crawls.drop st.crawls.length) library.cacheKey item := by
  refine ⟨{ cacheKey := library.cacheKey, endedAt := st'.now, found }, ?_, rfl, hdenies⟩
  rw [h.crawls, List.drop_left]
  exact List.mem_singleton.mpr rfl

theorem gives_walk {α : Type} {x : Call α} (hx : Quiet x) (found : α → Found) (hinv : Inv st)
    (hnext : Later st st₁) :
    Gives st₁ (do
        let a ← x
        crawled library (found a)
        pure a)
      (fun a st' => Walked library st (found a) st') fun _ st' => Onward st st' := by
  refine .seq (hx.from hnext) (fun _ _ _ hnext => Onward.of_later hinv hnext) ?_
  intro a st₂ _ hnext
  refine .bind_modifyRecord (.pure ⟨?_, ?_⟩)
  · refine (Onward.of_later hinv hnext).trans ⟨?_, Int.le_refl _, List.prefix_append _ _⟩
    exact (Onward.of_later hinv hnext).inv.extend rfl rfl rfl (List.subset_append_left _ _)
  · dsimp only
    rw [hnext.crawls]

theorem gives_sections {α : Type} {x : List LibrarySection → Call α} (hx : ∀ ss, Quiet (x ss))
    (found : α → Found) (type : SectionType) (hinv : Inv st) :
    Gives st (do
        let sections ← sectionsOf library type
        let a ← x sections
        crawled library (found a)
        pure a)
      (fun a st' => Walked library st (found a) st') fun _ st' => Onward st st' := by
  refine .seq (quiet_sectionsOf library type st) (fun _ _ _ hnext => Onward.of_later hinv hnext) ?_
  intro sections st₁ _ hnext
  exact gives_walk library (hx sections) found hinv hnext

theorem gives_collectPresentTmdbIds (hinv : Inv st) :
    Gives st (collectPresentTmdbIds library)
      (fun ids st' => Walked library st (.movies ids) st') fun _ st' => Onward st st' :=
  gives_sections library
    (fun sections => Quiet.foldlM sections [] fun present s =>
      quiet_collectSectionTmdbIds library s.key present)
    Found.movies .movie hinv

theorem gives_collectPresentShowIds (hinv : Inv st) :
    Gives st (collectPresentShowIds library)
      (fun ids st' => Walked library st (.shows ids) st') fun _ st' => Onward st st' :=
  gives_sections library
    (fun sections => Quiet.foldlM sections [] fun present s =>
      quiet_collectSectionTmdbIds library s.key present)
    Found.shows .show hinv

theorem gives_collectPresentTvSeasons (hinv : Inv st) :
    Gives st (collectPresentTvSeasons library)
      (fun shows st' => Walked library st (.seasons shows) st') fun _ st' => Onward st st' :=
  gives_sections library
    (fun sections => Quiet.foldlM sections Table.empty fun shows s =>
      quiet_collectSectionTvSeasons library s.key shows)
    Found.seasons .show hinv

theorem gives_readShows (ids : List Nat) (hinv : Inv st) :
    Gives st (readShows library ids)
      (fun lookups st' => Walked library st (.lookups lookups) st') fun _ st' => Onward st st' := by
  refine .seq (quiet_sectionsOf library .show st) (fun _ _ _ hnext => Onward.of_later hinv hnext) ?_
  intro sections st₁ _ hnext
  have hkeys : Quiet (sections.foldlM
      (fun ratingKeys s => collectTargetRatingKeys library s.key ids ratingKeys) []) :=
    Quiet.foldlM _ _ fun _ s => quiet_walkFrom library s.key
      (fun _ items => (quiet_readIds items).bind fun _ => quiet_pure _) _ _ _
  refine .seq (hkeys.from hnext) (fun _ _ _ hnext => Onward.of_later hinv hnext) ?_
  intro ratingKeys st₂ _ hnext
  exact gives_walk library (quiet_lookupShows library ratingKeys ids) Found.lookups hinv hnext

/-! ### Answers -/

/-- What a call says to be present was seen within the time to live, and what a call says to
    be absent that insists on the present was denied in the call. -/
structure Answered (st : Caches) (insists : Prop) (item : Item) (present : Bool) (st' : Caches) :
    Prop where
  seen : present = true → Seen st'.crawls library.cacheKey (st.now - cacheTtl) item
  denied : insists → present = false →
    Denied (st'.crawls.drop st.crawls.length) library.cacheKey item

theorem Walked.answered {library : Library} {st₂ : Caches}
    (h : Walked library st₁ found st₂) (hbef : Onward st st₁) (haft : Onward st₂ st')
    {present : Bool} (hreports : present = true → found.reports item = true)
    (hdenies : present = false → found.denies item = true) (insists : Prop) :
    Answered library st insists item present st' where
  seen hpres := by
    have hnow := hbef.now
    have hnow' := h.onward.now
    refine (h.seen (hreports hpres)).mono haft.crawls.subset ?_
    unfold cacheTtl
    omega
  denied _ habs := (h.denied (hdenies habs)).onward hbef haft

theorem Walked.seasonsSeen {library : Library} (h : Walked library st (.seasons shows) st') :
    SeasonsSeen st'.crawls library.cacheKey st'.now shows := by
  intro s hs
  have hfind : shows.find s.tmdbId = some s := Table.find_eq_some.mpr ⟨hs, rfl⟩
  refine ⟨h.seen ?_, fun n hn => h.seen ?_⟩
  · simp [Found.reports, hfind]
  · simpa [Found.reports, hfind] using hn

theorem reports_seasons (shows : SeasonMap) (tmdbId : Nat) (season : Option Int) :
    (Found.seasons shows).reports (itemOf tmdbId .tv season) =
      (satisfied tmdbId season shows).getD false := by
  unfold satisfied
  cases season with
  | none | some n =>
    cases hfind : shows.find tmdbId with
    | none | some s => simp [itemOf, Found.reports, hfind]

theorem denies_seasons (shows : SeasonMap) (tmdbId : Nat) (season : Option Int) :
    (Found.seasons shows).denies (itemOf tmdbId .tv season) =
      !(satisfied tmdbId season shows).getD false := by
  rw [← reports_seasons]
  cases season with
  | none | some n => rfl

theorem gives_isTvAvailable (tmdbId : Nat) (season : Option Int) (useCache : Bool) (hinv : Inv st) :
    Gives st (isTvAvailable library tmdbId season useCache)
      (fun present st' => Onward st st' ∧
        Answered library st (useCache = false) (itemOf tmdbId .tv season) present st')
      fun _ st' => Onward st st' := by
  refine .bind (gives_cacheGetIf library dates_tvSeasons hinv useCache) ?_
  rintro cached st₁ _ ⟨hon, hcrl, hnew⟩
  split
  · rename_i hcach
    refine .pure ⟨hon, ?_, ?_⟩
    · intro _
      rcases Option.bind_eq_some_iff.mp hcach with ⟨shows, hshow, hsatisfied⟩
      rcases hnew shows hshow with ⟨stored, hstored, hseen⟩
      rcases Option.map_eq_some_iff.mp hsatisfied with ⟨s, hs, hseas⟩
      rcases Table.find_eq_some.mp hs with ⟨hrow, rfl⟩
      rw [hcrl]
      cases season with
      | none => exact (hseen s hrow).1.mono (fun _ hc => hc) (Int.le_of_lt hstored)
      | some n =>
        have hn : n ∈ s.seasons := by simpa using hseas
        exact ((hseen s hrow).2 n hn).mono (fun _ hc => hc) (Int.le_of_lt hstored)
    · intro _ habs
      contradiction
  · refine .seq (gives_collectPresentTvSeasons library hon.inv)
      (fun _ _ _ hnext => hon.trans hnext) ?_
    intro shows st₂ _ hwalk
    refine .bind (gives_cacheSet library dates_tvSeasons hwalk.onward.inv hwalk.seasonsSeen) ?_
    rintro _ st₃ _ ⟨hset, -⟩
    refine .pure ⟨hon.trans (hwalk.onward.trans hset), ?_⟩
    refine hwalk.answered hon hset (fun hpres => ?_) (fun habs => ?_) _
    · rw [reports_seasons, hpres]
    · rw [denies_seasons, habs]
      rfl

theorem gives_isAvailable (tmdbId : Nat) (mediaType : MediaType) (useCache : Bool)
    (season : Option Int) (hinv : Inv st) :
    Gives st (isAvailable library tmdbId mediaType useCache season)
      (fun present st' => Onward st st' ∧
        Answered library st (useCache = false) (itemOf tmdbId mediaType season) present st')
      fun _ st' => Onward st st' := by
  cases mediaType with
  | tv => exact gives_isTvAvailable library tmdbId season useCache hinv
  | movie =>
    refine .bind (gives_cacheGetIf library dates_presentTmdb hinv useCache) ?_
    rintro cached st₁ _ ⟨hon, hcrl, hnew⟩
    split
    · rename_i hcach
      refine .pure ⟨hon, ?_, ?_⟩
      · intro _
        rcases (Option.any_eq_true _ _).mp hcach with ⟨ids, hids, hmem⟩
        rcases hnew ids hids with ⟨stored, hstored, hseen⟩
        rw [hcrl]
        exact (hseen tmdbId (by simpa using hmem)).mono (fun _ hc => hc) (Int.le_of_lt hstored)
      · intro _ habs
        contradiction
    · refine .seq (gives_collectPresentTmdbIds library hon.inv)
        (fun _ _ _ hnext => hon.trans hnext) ?_
      intro ids st₂ _ hwalk
      have hseen : IdsSeen .movie st₂.crawls library.cacheKey st₂.now ids :=
        fun id hid => hwalk.seen (by simpa [Found.reports] using hid)
      refine .bind (gives_cacheSet library dates_presentTmdb hwalk.onward.inv hseen) ?_
      rintro _ st₃ _ ⟨hset, -⟩
      refine .pure ⟨hon.trans (hwalk.onward.trans hset), ?_⟩
      have hdenies : (Found.movies ids).denies (itemOf tmdbId .movie season) =
          !ids.contains tmdbId := rfl
      refine hwalk.answered hon hset (fun hpres => hpres) (fun habs => ?_) _
      exact Bool.not_eq_eq_eq_not.mpr habs

/-- One partition of a batch: every id that it gives was seen, and one that it does not give
    was denied if the batch insists. -/
structure Partitioned (st : Caches) (insists : Prop) (item : Nat → Item) (asked ids : List Nat)
    (st' : Caches) : Prop where
  onward : Onward st st'
  seen : ∀ id ∈ ids, Seen st'.crawls library.cacheKey (st.now - cacheTtl) (item id)
  denied : insists → ∀ id ∈ asked, id ∉ ids →
    Denied (st'.crawls.drop st.crawls.length) library.cacheKey (item id)

section

variable {ref : CacheRef (List Nat)} {item : Nat → Item} {found : List Nat → Found}
  (h : Dates ref (IdsSeen item))
  (hcollect : ∀ st, Inv st → Gives st collect
    (fun ids st' => Walked library st (found ids) st') fun _ st' => Onward st st')
  (hreports : ∀ ids id, id ∈ ids → (found ids).reports (item id) = true)
  (hdenies : ∀ ids id, id ∉ ids → (found ids).denies (item id) = true) (asked : List Nat)

include h hcollect hreports hdenies

theorem gives_refreshed (insists : Prop) (hon : Onward st st₁) :
    Gives st₁ (do
        let present ← collect
        cacheSet library ref present
        pure present)
      (fun ids st' => Partitioned library st insists item asked ids st')
      fun _ st' => Onward st st' := by
  refine .seq (hcollect st₁ hon.inv) (fun _ _ _ hnext => hon.trans hnext) ?_
  intro ids st₂ _ hwalk
  have hseen : IdsSeen item st₂.crawls library.cacheKey st₂.now ids :=
    fun id hid => hwalk.seen (hreports ids id hid)
  refine .bind (gives_cacheSet library h hwalk.onward.inv hseen) ?_
  rintro _ st₃ _ ⟨hset, -⟩
  refine .pure ⟨hon.trans (hwalk.onward.trans hset), ?_, ?_⟩
  · intro id hid
    have hans : Answered library st insists (item id) true st₃ := by
      refine hwalk.answered hon hset (fun _ => hreports ids id hid) (fun habs => ?_) _
      contradiction
    exact hans.seen rfl
  · intro _ id _ hid
    exact (hwalk.denied (hdenies ids id hid)).onward hon hset

theorem gives_presentPartition (refreshAbsent : Bool) (hinv : Inv st) :
    Gives st (presentPartition library ref collect asked refreshAbsent)
      (fun ids st' => Partitioned library st (refreshAbsent = true) item asked ids st')
      fun _ st' => Onward st st' := by
  unfold presentPartition
  split
  · rename_i hnone
    refine .pure ⟨Onward.refl hinv, nofun, ?_⟩
    intro _ id hid
    rw [hnone] at hid
    exact nomatch hid
  · refine .bind (gives_cacheGet library h hinv) ?_
    rintro cached st₁ _ ⟨hon, hcrl, hnew⟩
    split
    · rename_i ids
      split
      · exact gives_refreshed library h hcollect hreports hdenies asked _ hon
      rename_i htrust
      refine .pure ⟨hon, ?_, ?_⟩
      · intro id hid
        rcases hnew ids rfl with ⟨stored, hstored, hseen⟩
        rw [hcrl]
        exact (hseen id hid).mono (fun _ hc => hc) (Int.le_of_lt hstored)
      · -- Who insists trusts the snapshot only if it has all that is asked for.
        intro hinsists id hid habs
        simp only [hinsists, Bool.true_and, Bool.not_eq_true', Bool.not_eq_false] at htrust
        have hmem := List.all_eq_true.mp htrust id hid
        exact absurd (by simpa using hmem) habs
    · exact gives_refreshed library h hcollect hreports hdenies asked _ hon

end

/-! ### Lookups -/

theorem mem_erased
    (h : s ∈ (ids.foldl Table.erase shows).rows) : s ∈ shows.rows ∧ s.tmdbId ∉ ids := by
  induction ids generalizing shows with
  | nil => exact ⟨h, List.not_mem_nil⟩
  | cons id ids ih =>
    rcases ih h with ⟨hmem, hrest⟩
    rcases List.mem_filter.mp hmem with ⟨hold, hoth⟩
    refine ⟨hold, ?_⟩
    rw [List.mem_cons, not_or]
    exact ⟨of_decide_eq_true hoth, hrest⟩

theorem mem_replaced (h : s ∈ (lookups.foldl putShow shows).rows) :
    (∃ l ∈ lookups, s = { tmdbId := l.tmdbId, seasons := l.seasons }) ∨
      s ∈ shows.rows ∧ ∀ l ∈ lookups, l.tmdbId ≠ s.tmdbId := by
  induction lookups generalizing shows with
  | nil => exact .inr ⟨h, nofun⟩
  | cons l ls ih =>
    rcases ih h with ⟨l', hl', hs⟩ | ⟨hmem, hrest⟩
    · exact .inl ⟨l', List.mem_cons_of_mem l hl', hs⟩
    rcases Table.mem_insert hmem with hkept | hnew
    · rcases List.mem_filter.mp hkept with ⟨hold, hoth⟩
      refine .inr ⟨hold, ?_⟩
      intro l' hl'
      rcases List.mem_cons.mp hl' with rfl | hl'
      · exact fun hsame => of_decide_eq_true hoth hsame.symm
      · exact hrest l' hl'
    · exact .inl ⟨l, List.mem_cons_self, hnew⟩

/-- A lookup stores, with what it read, a show of the snapshot that it did not read. -/
def carriesOver (cached : Option SeasonMap) (lookups : List ShowLookup) : Bool :=
  (merged cached lookups).isSome && cached.any fun shows => shows.rows.any fun s =>
    lookups.all fun l => l.tmdbId ≠ s.tmdbId || l.anyFailed

theorem read_of_merged {cached : Option SeasonMap} (hmrg : merged cached lookups = some updated)
    (hnone : carriesOver cached lookups = false) (hs : s ∈ updated.rows) :
    ∃ l ∈ lookups, l.whole = true ∧ s = { tmdbId := l.tmdbId, seasons := l.seasons } := by
  have hstored : updated = (lookups.filter ShowLookup.whole).foldl putShow
      (((lookups.filter ShowLookup.unmatched).map ShowLookup.tmdbId).foldl Table.erase
        (cached.getD Table.empty)) := by
    unfold merged at hmrg
    dsimp only at hmrg
    split at hmrg
    · exact (Option.some.inj hmrg).symm
    · contradiction
  rw [hstored] at hs
  rcases mem_replaced hs with ⟨l, hl, hrow⟩ | ⟨hbase, hrepl⟩
  · rcases List.mem_filter.mp hl with ⟨hmem, hall⟩
    exact ⟨l, hmem, hall, hrow⟩
  rcases mem_erased hbase with ⟨hold, herased⟩
  cases hcach : cached with
  | none =>
    rw [hcach] at hold
    exact nomatch hold
  | some shows =>
    rw [hcach] at hold
    -- A read of this show would have replaced or erased it.
    have hunread : (lookups.all fun l => l.tmdbId ≠ s.tmdbId || l.anyFailed) = true := by
      rw [List.all_eq_true]
      intro l hl
      by_cases hid : l.tmdbId = s.tmdbId
      · by_cases hfail : l.anyFailed = true
        · simp [hfail]
        exfalso
        by_cases hmatched : l.matched = true
        · exact hrepl l (List.mem_filter.mpr ⟨hl, by simp [ShowLookup.whole, *]⟩) hid
        · refine herased (List.mem_map.mpr ⟨l, List.mem_filter.mpr ⟨hl, ?_⟩, hid⟩)
          simp [ShowLookup.unmatched, *]
      · simp [hid]
    have hcarried : carriesOver cached lookups = true := by
      unfold carriesOver
      rw [hmrg, hcach, Option.isSome_some, Bool.true_and, Option.any_some,
        List.any_eq_true]
      exact ⟨s, hold, hunread⟩
    rw [hnone] at hcarried
    contradiction

theorem Walked.lookupsSeen {library : Library} (h : Walked library st (.lookups lookups) st')
    (hread : ∀ s ∈ updated.rows, ∃ l ∈ lookups, l.whole = true ∧
      s = { tmdbId := l.tmdbId, seasons := l.seasons }) :
    SeasonsSeen st'.crawls library.cacheKey st'.now updated := by
  intro s hs
  rcases hread s hs with ⟨l, hl, hall, rfl⟩
  refine ⟨h.seen ?_, fun n hn => h.seen ?_⟩
  · simp only [Found.reports, List.any_eq_true]
    refine ⟨l, hl, ?_⟩
    simp only [ShowLookup.whole, Bool.and_eq_true, Bool.not_eq_true'] at hall
    simp [ShowLookup.failed, hall]
  · simp only [Found.reports, List.any_eq_true]
    exact ⟨l, hl, by simpa using hn⟩

theorem mem_seasonMap (h : s ∈ (seasonMap lookups).rows) :
    ∃ l ∈ lookups, s = { tmdbId := l.tmdbId, seasons := l.seasons } := by
  have hfold : ∀ (ls : List ShowLookup) (shows : SeasonMap),
      s ∈ (ls.foldl (fun shows l => shows.insert { tmdbId := l.tmdbId, seasons := l.seasons })
        shows).rows →
      s ∈ shows.rows ∨ ∃ l ∈ ls, s = { tmdbId := l.tmdbId, seasons := l.seasons } := by
    intro ls
    induction ls with
    | nil => exact fun _ h => .inl h
    | cons l ls ih =>
      intro shows h
      rcases ih _ h with hmem | ⟨l', hl', hs⟩
      · rcases Table.mem_insert hmem with hold | hnew
        · exact .inl hold
        · exact .inr ⟨l, List.mem_cons_self, hnew⟩
      · exact .inr ⟨l', List.mem_cons_of_mem l hl', hs⟩
  rcases hfold lookups Table.empty h with hnone | hsome
  · exact nomatch hnone
  · exact hsome

def finishLookup (lookups : List ShowLookup) : Call SeasonMap := do
  let cached ← cacheGet library tvSeasonsCache
  storeMerged library (merged cached lookups)
  pure (seasonMap (lookups.filter fun l => !l.failed))

theorem gives_finishLookup (hinv : Inv st) (hwalk : Walked library st (.lookups lookups) st₁)
    (hnone : carriesOver (st₁.tvSeasons.get st₁.now library.cacheKey).1 lookups = false) :
    Gives st₁ (finishLookup library lookups)
      (fun shows st' => Onward st st' ∧ ∀ s ∈ shows.rows, ∀ n ∈ s.seasons,
        Answered library st False (.season s.tmdbId n) true st')
      fun _ st' => Onward st st' := by
  have hans : ∀ st', Onward st₁ st' →
      ∀ s ∈ (seasonMap (lookups.filter fun l => !l.failed)).rows, ∀ n ∈ s.seasons,
        Answered library st False (.season s.tmdbId n) true st' := by
    intro st' haft s hs n hn
    rcases mem_seasonMap hs with ⟨l, hl, rfl⟩
    have hreports : (Found.lookups lookups).reports (.season l.tmdbId n) = true := by
      simp only [Found.reports, List.any_eq_true]
      exact ⟨l, List.mem_of_mem_filter hl, by simpa using hn⟩
    refine hwalk.answered (Onward.refl hinv) haft (fun _ => hreports) (fun habs => ?_) _
    contradiction
  let st₂ := tvSeasonsCache.write st₁ (st₁.tvSeasons.get st₁.now library.cacheKey).2
  have hinv₁ := hwalk.onward.inv
  have hlook : Onward st₁ st₂ := dates_tvSeasons.write st₁ _ hinv₁ (hinv₁.seasons.get _ _)
  refine .bind (Q := fun cached st' _ =>
    cached = (st₁.tvSeasons.get st₁.now library.cacheKey).1 ∧ st' = st₂) (.pure ⟨rfl, rfl⟩) ?_
  rintro cached _ _ ⟨rfl, rfl⟩
  cases hmrg : merged (st₁.tvSeasons.get st₁.now library.cacheKey).1 lookups with
  | none =>
    have hon := hwalk.onward.trans hlook
    exact .pure ⟨hon, hans st₂ hlook⟩
  | some updated =>
    have hseen : SeasonsSeen st₂.crawls library.cacheKey st₂.now updated :=
      hwalk.lookupsSeen fun s hs => read_of_merged hmrg hnone hs
    refine .bind (gives_cacheSet library dates_tvSeasons hlook.inv hseen) ?_
    rintro _ st₃ _ ⟨hset, -⟩
    have haft := hlook.trans hset
    exact .pure ⟨hwalk.onward.trans haft, hans st₃ haft⟩

theorem gives_presentIds (keys : List (Nat × MediaType)) (refreshAbsent : Bool) (hinv : Inv st) :
    Gives st (presentIds library keys refreshAbsent)
      (fun present st' => Onward st st' ∧ ∀ k ∈ keys,
        Answered library st (refreshAbsent = true) (itemOf k.1 k.2 none) (present.contains k) st')
      fun _ st' => Onward st st' := by
  have hmov := gives_presentPartition library dates_presentTmdb
    (fun _ hinv => gives_collectPresentTmdbIds library hinv)
    (fun ids id hid => by simpa [Found.reports] using hid)
    (fun ids id hid => by simpa [Found.denies] using hid) (idsOf .movie keys) refreshAbsent hinv
  refine .bind hmov ?_
  intro movies st₁ _ hmov
  have hshow := gives_presentPartition library dates_presentShowTmdb
    (fun _ hinv => gives_collectPresentShowIds library hinv)
    (fun ids id hid => by simpa [Found.reports] using hid)
    (fun ids id hid => by simpa [Found.denies] using hid) (idsOf .tv keys) refreshAbsent
    hmov.onward.inv
  refine .seq hshow (fun _ _ _ h => hmov.onward.trans h) ?_
  intro shows st₂ _ hshow
  refine .pure ⟨hmov.onward.trans hshow.onward, ?_⟩
  rintro ⟨id, mediaType⟩ hk
  have hasked : id ∈ idsOf mediaType keys :=
    List.mem_map.mpr ⟨_, List.mem_filter.mpr ⟨hk, by simp⟩, rfl⟩
  cases mediaType with
  | movie =>
    have hcont : (keys.filter (presentAmong movies shows)).contains (id, MediaType.movie) =
        movies.contains id := by
      simp [hk, presentAmong]
    rw [hcont]
    constructor
    · intro hpres
      exact (hmov.seen id (by simpa using hpres)).mono hshow.onward.crawls.subset (Int.le_refl _)
    · intro hinsists habs
      exact (hmov.denied hinsists id hasked (by simpa using habs)).onward
        (Onward.refl hinv) hshow.onward
  | tv =>
    have hcont : (keys.filter (presentAmong movies shows)).contains (id, MediaType.tv) =
        shows.contains id := by
      simp [hk, presentAmong]
    rw [hcont]
    have hnow := hmov.onward.now
    constructor
    · intro hpres
      exact (hshow.seen id (by simpa using hpres)).mono (fun _ hc => hc) (by omega)
    · intro hinsists habs
      exact (hshow.denied hinsists id hasked (by simpa using habs)).onward
        hmov.onward (Onward.refl hshow.onward.inv)

theorem gives_presentSeasons (tmdbId : Nat) (hinv : Inv st) :
    Gives st (presentSeasons library tmdbId)
      (fun seasons st' => Onward st st' ∧ ∀ n ∈ seasons,
        Answered library st False (.season tmdbId n) true st')
      fun _ st' => Onward st st' := by
  refine .bind (gives_collectPresentTvSeasons library hinv) ?_
  intro shows st₁ _ hwalk
  refine .bind (gives_cacheSet library dates_tvSeasons hwalk.onward.inv hwalk.seasonsSeen) ?_
  rintro _ st₂ _ ⟨hset, -⟩
  refine .pure ⟨hwalk.onward.trans hset, ?_⟩
  intro n hn
  cases hfind : shows.find tmdbId with
  | none => simp [hfind] at hn
  | some s =>
    have hreports : (Found.seasons shows).reports (.season tmdbId n) = true := by
      simpa [Found.reports, hfind] using hn
    refine hwalk.answered (Onward.refl hinv) hset (fun _ => hreports) (fun habs => ?_) _
    contradiction

theorem gives_dropPresence (mediaType : MediaType) (hon : Onward st st₁) :
    Gives st₁ (dropPresence library mediaType) (fun _ st' => Onward st st') E := by
  cases mediaType with
  | movie =>
    exact (gives_cacheInvalidate library dates_presentTmdb hon.inv).mono
      (fun _ _ _ h => hon.trans h) fun _ _ _ h => h
  | tv =>
    refine .bind (gives_cacheInvalidate library dates_tvSeasons hon.inv) ?_
    intro _ st₂ _ h
    have hon₂ := hon.trans h
    exact (gives_cacheInvalidate library dates_presentShowTmdb hon₂.inv).mono
      (fun _ _ _ h => hon₂.trans h) fun _ _ _ h => h

theorem gives_triggerScan (path : String) (mediaType : MediaType) (hinv : Inv st) :
    Gives st (triggerScan library path mediaType) (fun _ st' => Onward st st')
      fun _ st' => Onward st st' := by
  refine .seq (quiet_sectionsOf library _ st) (fun _ _ _ hnext => Onward.of_later hinv hnext) ?_
  intro candidates st₁ _ hnext
  have hon := Onward.of_later hinv hnext
  split
  · exact .raise hon
  refine .andFinally (R := fun _ st' _ => Onward st st') (F := fun _ st' _ => Onward st st')
    ?_ ?_ ?_
  · refine .forM _ _ hon ?_
    intro r _ st₂ _ h
    have hreq : Quiet (request library r >>= fun _ => pure ()) :=
      (quiet_request library r).bind fun _ => quiet_pure ()
    exact (hreq st₂).mono (fun _ _ _ hnext => h.trans (Onward.of_later h.inv hnext))
      fun _ _ _ hnext => h.trans (Onward.of_later h.inv hnext)
  · exact fun _ st₂ _ h => gives_dropPresence library mediaType h
  · exact fun _ st₂ _ h => gives_dropPresence library mediaType h

/-- Whoever asks like this does not trust a cached absence. -/
def Query.insists : Query → Prop
  | isAvailable _ _ useCache _ => useCache = false
  | presentIds _ refreshAbsent => refreshAbsent = true
  | _ => False

def AllAnswered (q : Query) (st : Caches) (answers : List (Item × Bool)) (st' : Caches) : Prop :=
  Onward st st' ∧ ∀ item present, (item, present) ∈ answers →
    Answered library st q.insists item present st'

theorem gives_answers {q : Query} (hq : ∀ ids, q ≠ .seasonPresence ids) (hinv : Inv st) :
    Gives st (q.answers library) (AllAnswered library q st) fun _ st' => Onward st st' := by
  cases q with
  | isAvailable tmdbId mediaType useCache season =>
    refine .bind (gives_isAvailable library tmdbId mediaType useCache season hinv) ?_
    rintro present st' _ ⟨hon, hans⟩
    refine .pure ⟨hon, ?_⟩
    intro item present' hmem
    obtain ⟨rfl, rfl⟩ := Prod.mk.inj (List.mem_singleton.mp hmem)
    exact hans
  | presentIds keys refreshAbsent =>
    refine .bind (gives_presentIds library keys refreshAbsent hinv) ?_
    rintro present st' _ ⟨hon, hans⟩
    refine .pure ⟨hon, ?_⟩
    intro item present' hmem
    rcases List.mem_map.mp hmem with ⟨k, hk, heq⟩
    obtain ⟨rfl, rfl⟩ := Prod.mk.inj heq
    exact hans k hk
  | presentSeasons tmdbId =>
    refine .bind (gives_presentSeasons library tmdbId hinv) ?_
    rintro seasons st' _ ⟨hon, hans⟩
    refine .pure ⟨hon, ?_⟩
    intro item present' hmem
    rcases List.mem_map.mp hmem with ⟨n, hn, heq⟩
    obtain ⟨rfl, rfl⟩ := Prod.mk.inj heq
    exact hans n hn
  | seasonPresence tmdbIds => exact absurd rfl (hq tmdbIds)
  | triggerScan path mediaType =>
    refine .bind (gives_triggerScan library path mediaType hinv) ?_
    intro _ st' _ hon
    exact .pure ⟨hon, fun _ _ hmem => nomatch hmem⟩
  | listSections useCache writeCache =>
    refine .seq (quiet_listSections library useCache writeCache st)
      (fun _ _ _ hnext => Onward.of_later hinv hnext) ?_
    intro _ st' _ hnext
    exact .pure ⟨Onward.of_later hinv hnext, fun _ _ hmem => nomatch hmem⟩

end

/-! ### Runs -/

/-- A call stores a show that it did not read. -/
def carries (st : Caches) (a : Asked) : Bool :=
  match a.query with
  | .seasonPresence ids =>
      match (readShows a.library ids.dedup (a.start st)).feed a.replies with
      | some (.ok lookups, st') =>
          carriesOver (st'.tvSeasons.get st'.now a.library.cacheKey).1 lookups
      | _ => false
  | _ => false

theorem onward_start (h : Inv st) (a : Asked) : Onward st (a.start st) where
  inv := h.extend rfl rfl rfl fun _ hc => hc
  now := by
    unfold Asked.start
    dsimp only
    omega
  crawls := List.prefix_refl _

/-- The seasons that a lookup gives were seen. -/
def LookedUp (library : Library) (st : Caches) (shows : SeasonMap) (st' : Caches) : Prop :=
  Onward st st' ∧ ∀ s ∈ shows.rows, ∀ n ∈ s.seasons,
    Answered library st False (.season s.tmdbId n) true st'

theorem seasonPresence_spec {library : Library} {replies : List Reply}
    {r : Except Failure SeasonMap} (hinv : Inv st)
    (hnone : ∀ lookups st₁, (readShows library ids.dedup st).feed replies =
      some (.ok lookups, st₁) →
        carriesOver (st₁.tvSeasons.get st₁.now library.cacheKey).1 lookups = false)
    (hfeed : (seasonPresence library ids st).feed replies = some (r, st')) :
    Onward st st' ∧ ∀ shows, r = .ok shows → LookedUp library st shows st' := by
  unfold seasonPresence at hfeed
  by_cases hids : ids = []
  · rw [if_pos hids] at hfeed
    obtain ⟨rfl, rfl⟩ := Prod.mk.inj (Option.some.inj hfeed)
    refine ⟨Onward.refl hinv, ?_⟩
    intro shows heq
    obtain rfl := Except.ok.inj heq
    exact ⟨Onward.refl hinv, fun _ hs => nomatch hs⟩
  · rw [if_neg hids, Run.bind_apply] at hfeed
    rcases Program.feed_bind hfeed with ⟨⟨read, st₁⟩, rest, hread, hrest⟩
    have hreads := Gives.feed (gives_readShows library ids.dedup hinv) hread
    cases read with
    | error e =>
      obtain ⟨rfl, rfl⟩ := Prod.mk.inj (Option.some.inj hrest)
      exact ⟨hreads, nofun⟩
    | ok lookups =>
      have hfin := Gives.feed
        (gives_finishLookup library hinv hreads (hnone lookups st₁ hread)) hrest
      cases r with
      | error e => exact ⟨hfin, nofun⟩
      | ok shows =>
        refine ⟨hfin.1, ?_⟩
        intro shows' heq
        obtain rfl := Except.ok.inj heq
        exact hfin

theorem ends_spec {r : Except Failure (List (Item × Bool))} (h : Inv st)
    (hnone : carries st a = false) (hends : a.ends st = some (r, st')) :
    Onward (a.start st) st' ∧
      ∀ answers, r = .ok answers → AllAnswered a.library a.query (a.start st) answers st' := by
  have hbeg := (onward_start h a).inv
  -- Every query but one ends as its program gives.
  have hpl : ∀ {x : Call (List (Item × Bool))},
      Gives (a.start st) x (AllAnswered a.library a.query (a.start st))
        (fun _ st' => Onward (a.start st) st') →
      ∀ {replies : List Reply}, (x (a.start st)).feed replies = some (r, st') →
        Onward (a.start st) st' ∧
          ∀ answers, r = .ok answers → AllAnswered a.library a.query (a.start st) answers st' := by
    intro x hx replies hfeed
    have hend := Gives.feed hx hfeed
    cases r with
    | error e => exact ⟨hend, nofun⟩
    | ok answers =>
      refine ⟨hend.1, ?_⟩
      intro answers' heq
      obtain rfl := Except.ok.inj heq
      exact hend
  unfold Asked.ends at hends
  cases hq : a.query with
  | seasonPresence ids =>
    have hread : ∀ lookups st₁, (readShows a.library ids.dedup (a.start st)).feed a.replies =
        some (.ok lookups, st₁) →
          carriesOver (st₁.tvSeasons.get st₁.now a.library.cacheKey).1 lookups = false := by
      intro lookups st₁ hfeed
      simpa [carries, hq, hfeed] using hnone
    rw [hq] at hends
    rcases Program.feed_bind hends with ⟨⟨looked, st₁⟩, rest, hlook, hrest⟩
    rcases seasonPresence_spec hbeg hread hlook with ⟨hon, hshow⟩
    cases looked with
    | error e =>
      obtain ⟨rfl, rfl⟩ := Prod.mk.inj (Option.some.inj hrest)
      exact ⟨hon, nofun⟩
    | ok shows =>
      obtain ⟨rfl, rfl⟩ := Prod.mk.inj (Option.some.inj hrest)
      refine ⟨hon, ?_⟩
      intro answers heq
      obtain rfl := Except.ok.inj heq
      refine ⟨hon, ?_⟩
      intro item present hmem
      rcases List.mem_flatMap.mp hmem with ⟨s, hs, hmem⟩
      rcases List.mem_map.mp hmem with ⟨n, hn, heq⟩
      obtain ⟨rfl, rfl⟩ := Prod.mk.inj heq
      exact (hshow shows rfl).2 s hs n hn
  | isAvailable tmdbId mediaType useCache season | presentIds keys refreshAbsent
  | presentSeasons tmdbId | triggerScan path mediaType | listSections useCache writeCache =>
    rw [← hq]
    exact hpl (gives_answers a.library (by rw [hq]; nofun) hbeg) hends

theorem inv_step (h : Inv st) (hnone : carries st a = false)
    (hstep : step st a = some st') : Inv st' := by
  rcases Option.map_eq_some_iff.mp hstep with ⟨⟨r, st''⟩, hends, rfl⟩
  exact (ends_spec h hnone hends).1.inv

theorem inv_empty (now : Int) : Inv { now } where
  movies := Cache.dated_empty
  shows := Cache.dated_empty
  seasons := Cache.dated_empty

/-- In a run whose lookups store no show that they did not read: what a call says to be
    present was found by a walk that ended within the time to live before the call began, or
    in it, and a call that does not trust a cached absence says that something is absent
    only if a walk in it did not find it. -/
theorem presence_within_ttl {now : Int} {as : List Asked} {a : Asked} {st st' : Caches}
    {answers : List (Item × Bool)}
    (hmeet : StepsMeet step (fun st a => carries st a = false) { now } (as ++ [a]))
    (hrun : run step { now } as = some st) (hends : a.ends st = some (.ok answers, st')) :
    ∀ item present, (item, present) ∈ answers →
      Answered a.library (a.start st) a.query.insists item present st' := by
  rcases (stepsMeet_append _ as [a]).mp hmeet with ⟨hbef, hlast⟩
  have hinv : Inv st := invariant_of_meeting_run (fun _ _ _ h hnone hstep => inv_step h hnone hstep)
    _ st as (inv_empty now) hbef hrun
  exact ((ends_spec hinv (hlast st hrun).1 hends).2 answers rfl).2

def ok (container : Fields) : Reply where
  outcome := .answered 200 (some (.obj [("MediaContainer", .obj container)]))

def rows (items : List Fields) : Reply := ok [("Metadata", .arr (items.map .obj))]

def oneSection : Reply :=
  ok [("Directory", .arr [.obj [("key", .str "s"), ("title", .str "Shows"),
    ("type", .str "show")]])]

def showRow (guid ratingKey : String) : Fields :=
  [("guid", .str guid), ("ratingKey", .str ratingKey)]

def seasonRow : Fields := [("index", .int 1), ("leafCount", .int 8)]

def plex : Library where
  cacheKey := "plex"
  pages := 1

def askSecond (wait : Nat) (replies : List Reply) : Asked where
  wait
  library := plex
  query := .isAvailable 2 .tv true none
  replies

def bothShows : List Reply :=
  [oneSection, rows [showRow "tmdb://1" "a", showRow "tmdb://2" "b"], rows [seasonRow],
    rows [seasonRow]]

/-- After some calls, a call answers as given, and what the caches then are passes a test. -/
def answersThen (as : List Asked) (a : Asked) (answers : List (Item × Bool))
    (p : Caches → Caches → Bool) : Bool :=
  (run step { now := 0 } as).any fun st => (a.ends st).any fun
    | (.ok given, st') => decide (given = answers) && p st st'
    | _ => false

theorem of_answersThen {as : List Asked} {answers : List (Item × Bool)} {p : Caches → Caches → Bool}
    (h : answersThen as a answers p = true) :
    ∃ st st', run step { now := 0 } as = some st ∧ a.ends st = some (.ok answers, st') ∧
      p st st' = true := by
  rcases (Option.any_eq_true _ _).mp h with ⟨st, hrun, hlast⟩
  rcases (Option.any_eq_true _ _).mp hlast with ⟨⟨r, st'⟩, hends, hgiven⟩
  cases r with
  | error e => contradiction
  | ok given =>
    rcases Bool.and_eq_true_iff.mp hgiven with ⟨hsame, hp⟩
    rw [of_decide_eq_true hsame] at hends
    exact ⟨st, st', hrun, hends, hp⟩

/-- The second show is found, and then answered from the snapshot. -/
theorem second_cached :
    ∃ st st', run step { now := 0 } [askSecond 0 bothShows] = some st ∧
      (askSecond 200000000 []).ends st = some (.ok [(.show 2, true)], st') ∧
      Seen st'.crawls "plex" (((askSecond 200000000 []).start st).now - cacheTtl) (.show 2) := by
  have hans : answersThen [askSecond 0 bothShows] (askSecond 200000000 [])
      [(.show 2, true)] (fun _ _ => true) = true := by decide
  rcases of_answersThen hans with ⟨st, st', hrun, hends, -⟩
  have hanswered := presence_within_ttl (by decide) hrun hends _ _ List.mem_cons_self
  exact ⟨st, st', hrun, hends, hanswered.seen rfl⟩

def lookupFirst : Asked where
  wait := 200000000
  library := plex
  query := .seasonPresence [1]
  replies := [oneSection, rows [showRow "tmdb://1" "a"], rows [seasonRow]]

instance (crawls : List Crawl) (key : String) (since : Int) (item : Item) :
    Decidable (Seen crawls key since item) :=
  inferInstanceAs (Decidable (∃ c ∈ crawls, _))

/-- The lookup of the first show stores the second once more, and two hundred seconds later
    the second is answered to be present, although no walk has found it for four hundred. -/
theorem second_carried_over :
    ∃ st st', run step { now := 0 } [askSecond 0 bothShows, lookupFirst] = some st ∧
      (askSecond 200000000 []).ends st = some (.ok [(.show 2, true)], st') ∧
      ¬ Seen st'.crawls "plex" (((askSecond 200000000 []).start st).now - cacheTtl) (.show 2) := by
  have hans : answersThen [askSecond 0 bothShows, lookupFirst] (askSecond 200000000 [])
      [(.show 2, true)] (fun st st' => !decide (Seen st'.crawls "plex"
        (((askSecond 200000000 []).start st).now - cacheTtl) (.show 2))) = true := by decide
  rcases of_answersThen hans with ⟨st, st', hrun, hends, hunseen⟩
  refine ⟨st, st', hrun, hends, ?_⟩
  simpa using hunseen

end PlexLibrary

end PlexManager
