import PlexManager.Core.PlexLibrary

/-!
# What was watched

Before a title is deleted, Plex is asked whether it was watched, and when. Where the path
of the title is known, every item of the title counts that has a file there, in any
section, and only if they all are the same files is there an answer. Otherwise the first
item of the title is it.

`watchState` answers for one title, and reads what it needs anew. `resolveWatchStates`
answers for many, and keeps the pages and the listings that it has read. Which item is
looked at, and what is made of it, both do alike: `movieFlow` and `tvFlow` are written
once, for whatever reads the items.
-/

namespace PlexManager

namespace PlexLibrary

open Effects

/-! ### Watch states -/

/-- The time is in seconds. -/
structure WatchState where
  watched : Bool
  lastViewedAt : Option Int
  deriving DecidableEq, Repr

def unwatched : WatchState := { watched := false, lastViewedAt := none }

/-- `datetime.fromtimestamp`, which raises for a year that is not from 1 to 9999. -/
def fromTimestamp (value : Int) : Except Failure Int :=
  if -62135596800 ≤ value ∧ value ≤ 253402300799 then .ok value else .error .value

def getEpochDatetime (fields : Fields) (key : String) : Except Failure (Option Int) :=
  match getInt fields key with
  | none => .ok none
  | some value => (fromTimestamp value).map some

def movieWatchStateFromItem (item : Fields) : Except Failure WatchState :=
  (getEpochDatetime item "lastViewedAt").map fun lastViewedAt =>
    { watched := lastViewedAt.isSome && (getInt item "viewCount").any (0 < ·), lastViewedAt }

def fullyViewed (entry : Fields) : Bool :=
  match getInt entry "leafCount", getInt entry "viewedLeafCount" with
  | some leafCount, some viewedLeafCount => 0 < leafCount ∧ viewedLeafCount = leafCount
  | _, _ => false

def seasonWatchStateFromEntry (entry : Fields) : Except Failure WatchState :=
  (getEpochDatetime entry "lastViewedAt").map fun lastViewedAt =>
    { watched := fullyViewed entry && lastViewedAt.isSome, lastViewedAt }

/-- An item that was found: its files, and what it says. -/
abbrev Hit : Type := List String × WatchState

def sameFiles (files files' : List String) : Bool :=
  files.all files'.contains && files'.all files.contains

def timestamps (hits : List Hit) : List Int := hits.filterMap fun h => h.2.lastViewedAt

def resolveCorrelatedWatchState : List Hit → WatchState
  | [] => unwatched
  | [hit] => hit.2
  | hit :: hits =>
      if hits.all (fun h => sameFiles hit.1 h.1) && (hit :: hits).any (fun h => h.2.watched) then
        match (timestamps (hit :: hits)).max? with
        | some newest => { watched := true, lastViewedAt := some newest }
        | none => unwatched
      else unwatched

def itemMatchesTmdbId (tmdbId : Nat) (item : Fields) : Bool :=
  (collectItemTmdbIds item).contains tmdbId

def findSeasonEntryIn (entries : List Fields) (season : Int) : Option Fields :=
  entries.find? fun entry => getInt entry "index" = some season

/-! ### The search -/

/-- A section, and where it stands among those of its type. -/
abbrev Placed : Type := LibrarySection × Nat

/-- What a search reads with: the first item of a title in a section, all of them, the
    rows of a show, and the files of a season. -/
structure Readers (m : Type → Type) where
  findFirst : Nat → Placed → m (Option Fields)
  findAll : Nat → Placed → m (List Fields)
  seasonRows : String → m (List Fields)
  episodePaths : String → m (List String)
  lift : Except Failure WatchState → m WatchState

section Flow

variable {m : Type → Type} [Monad m] (readers : Readers m)

def firstIn (find : Placed → m (Option Fields)) : List Placed → m (Option Fields)
  | [] => pure none
  | s :: rest => do
      let item ← find s
      match item with
      | some item => pure (some item)
      | none => firstIn find rest

def collectHits (findAll : Placed → m (List Fields)) (hit : String → Fields → m (Option Hit))
    (path : String) (sections : List Placed) : m (List Hit) :=
  sections.foldlM (fun hits s =>
    match sectionScanPath s.1 path with
    | none => pure hits
    | some scanPath => do
        let items ← findAll s
        items.foldlM (fun hits item => do
          let found ← hit scanPath item
          pure (hits ++ found.toList)) hits) []

def anyUnder (scanPath : String) (files : List String) : Bool := files.any (isPathPrefix scanPath)

def movieHit (scanPath : String) (item : Fields) : m (Option Hit) :=
  if anyUnder scanPath (extractFilePaths item) then do
    let state ← readers.lift (movieWatchStateFromItem item)
    pure (some (extractFilePaths item, state))
  else pure none

def seasonHit (season : Int) (scanPath : String) (item : Fields) : m (Option Hit) :=
  match getStr item "ratingKey" with
  | none => pure none
  | some ratingKey => do
      let entries ← readers.seasonRows ratingKey
      match findSeasonEntryIn entries season with
      | none => pure none
      | some entry => match getStr entry "ratingKey" with
        | none => pure none
        | some seasonRatingKey => do
            let files ← readers.episodePaths seasonRatingKey
            if anyUnder scanPath files then do
              let state ← readers.lift (seasonWatchStateFromEntry entry)
              pure (some (files, state))
            else pure none

def firstSeason (season : Int) (item : Option Fields) : m WatchState :=
  match item.bind (getStr · "ratingKey") with
  | none => pure unwatched
  | some ratingKey => do
      let entries ← readers.seasonRows ratingKey
      match findSeasonEntryIn entries season with
      | none => pure unwatched
      | some entry => readers.lift (seasonWatchStateFromEntry entry)

def firstMovie (item : Option Fields) : m WatchState :=
  match item with
  | none => pure unwatched
  | some item => readers.lift (movieWatchStateFromItem item)

def movieFlow (sections : List LibrarySection) (tmdbId : Nat) : Option String → m WatchState
  | none => do
      let item ← firstIn (readers.findFirst tmdbId) sections.zipIdx
      firstMovie readers item
  | some path => do
      let hits ← collectHits (readers.findAll tmdbId) (movieHit readers) path sections.zipIdx
      pure (resolveCorrelatedWatchState hits)

def tvFlow (sections : List LibrarySection) (tmdbId : Nat) (season : Int) :
    Option String → m WatchState
  | none => do
      let item ← firstIn (readers.findFirst tmdbId) sections.zipIdx
      firstSeason readers season item
  | some path => do
      let hits ← collectHits (readers.findAll tmdbId) (seasonHit readers season) path
        sections.zipIdx
      pure (resolveCorrelatedWatchState hits)

end Flow

/-! ### One title -/

/-- A title that is asked about. -/
structure WatchStateQuery where
  tmdbId : Nat
  mediaType : MediaType
  season : Option Int := none
  libraryPath : Option String := none
  deriving DecidableEq, Repr

section
variable (library : Library)

def fetchSectionItemsPage (key : String) (start : Nat) : Call (List Fields) := do
  let payload ← get library (.sectionItems key start)
  pure (metadata payload)

/-- The items of a page that are looked at: those up to the first wanted one. -/
def looked (wanted : Fields → Bool) : List Fields → List Fields
  | [] => []
  | item :: items => if wanted item then [item] else item :: looked wanted items

/-- A page of a section, of which the ids are read up to the first wanted item. -/
def readPage (key : String) (wanted : Fields → Bool) (start : Nat) : Call (List Fields) := do
  let items ← fetchSectionItemsPage library key start
  readIds (looked wanted items)
  pure items

/-- The items of a section, from a page on, up to the page that has a wanted one. -/
def scanFrom (key : String) (wanted : Fields → Bool) : Nat → Nat → List Fields → Call (List Fields)
  | 0, _, _ => Run.raise .unfinished
  | pages + 1, start, seen => do
      let items ← readPage library key wanted start
      if items.any wanted || items.length < pageSize then pure (seen ++ items)
      else scanFrom key wanted pages (start + pageSize) (seen ++ items)

def findSectionItem (key : String) (tmdbId : Nat) : Call (Option Fields) := do
  let items ← scanFrom library key (itemMatchesTmdbId tmdbId) library.pages 0 []
  pure (items.find? (itemMatchesTmdbId tmdbId))

def findSectionItems (key : String) (tmdbId : Nat) : Call (List Fields) := do
  let items ← scanFrom library key (fun _ => false) library.pages 0 []
  pure (items.filter (itemMatchesTmdbId tmdbId))

variable (type : SectionType) (ratingKey : String) (tmdbId i : Nat) (idx : SectionIndex)

def fetchChildren : Call (List Fields) := do
  let payload ← get library (.children ratingKey)
  pure (metadata payload)

def fetchChildrenFilePaths : Call (List String) := do
  let items ← fetchChildren library ratingKey
  pure (items.flatMap extractFilePaths)

def freshReaders : Readers (Run Request (fun _ => Reply) Failure Caches) where
  findFirst tmdbId s := findSectionItem library s.1.key tmdbId
  findAll tmdbId s := findSectionItems library s.1.key tmdbId
  seasonRows := fetchChildren library
  episodePaths := fetchChildrenFilePaths library
  lift := Run.ofExcept

def movieWatchState (libraryPath : Option String) : Call WatchState := do
  let sections ← sectionsOf library .movie
  movieFlow (freshReaders library) sections tmdbId libraryPath

def tvWatchState (season : Int) (libraryPath : Option String) :
    Call WatchState := do
  let sections ← sectionsOf library .show
  tvFlow (freshReaders library) sections tmdbId season libraryPath

def watchState (query : WatchStateQuery) : Call WatchState :=
  match query.mediaType, query.season with
  | .movie, _ => movieWatchState library query.tmdbId query.libraryPath
  | .tv, some season => tvWatchState library query.tmdbId season query.libraryPath
  | .tv, none => Run.raise .value

/-- One call of `watch_state` after another. -/
def watchStates : List WatchStateQuery → Call (List WatchState)
  | [] => pure []
  | query :: queries => do
      let state ← watchState library query
      let states ← watchStates queries
      pure (state :: states)

/-! ### Many titles -/

/-- What a `_LazySectionIndex` keeps of one section. -/
structure SectionIndex where
  librarySection : LibrarySection
  byTmdbId : List (Nat × Fields) := []
  nextStart : Nat := 0
  exhausted : Bool := false

/-- The items of a title, in the order of the pages. -/
def SectionIndex.matching (tmdbId : Nat) : List Fields :=
  (idx.byTmdbId.filter fun e => e.1 = tmdbId).map Prod.snd

/-- An item under each of its ids. -/
def indexed (item : Fields) : List (Nat × Fields) :=
  (collectItemTmdbIds item).map fun id => (id, item)

def SectionIndex.fold (items : List Fields) : SectionIndex :=
  { idx with
    byTmdbId := idx.byTmdbId ++ items.flatMap indexed
    nextStart := idx.nextStart + pageSize
    exhausted := idx.exhausted || items.length < pageSize }

/-- What a batch keeps: `movie_index` and `show_index`, the rows of the shows and the
    files of the seasons. -/
structure Batch where
  caches : Caches
  movieIndex : List SectionIndex
  showIndex : List SectionIndex
  showSeasonEntries : List (String × List Fields) := []
  seasonEpisodePaths : List (String × List String) := []

def Batch.index (b : Batch) : SectionType → List SectionIndex
  | .movie => b.movieIndex
  | .show => b.showIndex

def Batch.setIndex (b : Batch) (type : SectionType) (i : Nat) (idx : SectionIndex) : Batch :=
  match type with
  | .movie => { b with movieIndex := b.movieIndex.set i idx }
  | .show => { b with showIndex := b.showIndex.set i idx }

/-- The sections of a type, none of which has been read. -/
def newIndex (sections : List LibrarySection) (type : SectionType) : List SectionIndex :=
  (sections.filter (·.type = type)).map fun librarySection => { librarySection }

def newBatch (sections : List LibrarySection) (caches : Caches) : Batch where
  caches := caches
  movieIndex := newIndex sections .movie
  showIndex := newIndex sections .show

abbrev BatchCall (α : Type) : Type := Run Request (fun _ => Reply) Failure Batch α

variable {α : Type}

def onCaches (x : Call α) : BatchCall α := fun b =>
  (x b.caches).bind fun r => .ret (r.1, { b with caches := r.2 })

def sectionIndex : BatchCall SectionIndex := fun b =>
  match (b.index type)[i]? with
  | some idx => .ret (.ok idx, b)
  | none => .ret (.error .value, b)

/-- `_page_once`. The ids of all the items are read. -/
def pageOnce : BatchCall Unit :=
  if library.pages * pageSize ≤ idx.nextStart then Run.raise .unfinished
  else do
    let items ← onCaches
      (readPage library idx.librarySection.key (fun _ => false) idx.nextStart)
    Run.modifyRecord fun b => b.setIndex type i (idx.fold items)

def pageUntil (type : SectionType) (i : Nat) (enough : SectionIndex → Bool) :
    Nat → BatchCall SectionIndex
  | 0 => Run.raise .unfinished
  | pages + 1 => do
      let idx ← sectionIndex type i
      if enough idx || idx.exhausted then pure idx
      else do
        pageOnce library type i idx
        pageUntil type i enough pages

def findFirst (tmdbId : Nat) : BatchCall (Option Fields) := do
  let idx ← pageUntil library type i (fun idx => !(idx.matching tmdbId).isEmpty) (library.pages + 1)
  pure (idx.matching tmdbId).head?

def ensureComplete : BatchCall SectionIndex :=
  pageUntil library type i (fun _ => false) (library.pages + 1)

def completeMatches (tmdbId : Nat) : BatchCall (List Fields) := do
  let idx ← ensureComplete library type i
  pure (idx.matching tmdbId)

def cachedSeasonEntries : BatchCall (List Fields) := do
  let b ← Run.record
  match b.showSeasonEntries.lookup ratingKey with
  | some entries => pure entries
  | none => do
      let entries ← onCaches (fetchChildren library ratingKey)
      Run.modifyRecord fun b =>
        { b with showSeasonEntries := b.showSeasonEntries ++ [(ratingKey, entries)] }
      pure entries

def cachedChildrenFilePaths : BatchCall (List String) := do
  let b ← Run.record
  match b.seasonEpisodePaths.lookup ratingKey with
  | some files => pure files
  | none => do
      let files ← onCaches (fetchChildrenFilePaths library ratingKey)
      Run.modifyRecord fun b =>
        { b with seasonEpisodePaths := b.seasonEpisodePaths ++ [(ratingKey, files)] }
      pure files

/-- What reads only what has not been read. -/
def batchReaders : Readers (Run Request (fun _ => Reply) Failure Batch) where
  findFirst tmdbId s := findFirst library type s.2 tmdbId
  findAll tmdbId s := completeMatches library type s.2 tmdbId
  seasonRows := cachedSeasonEntries library
  episodePaths := cachedChildrenFilePaths library
  lift := Run.ofExcept

def Batch.sections (b : Batch) (type : SectionType) : List LibrarySection :=
  (b.index type).map SectionIndex.librarySection

def resolveMovieWatchStateBatch (libraryPath : Option String) :
    BatchCall WatchState := do
  let b ← Run.record
  movieFlow (batchReaders library .movie) (b.sections .movie) tmdbId libraryPath

def resolveTvWatchState (season : Int) (libraryPath : Option String) :
    BatchCall WatchState := do
  let b ← Run.record
  tvFlow (batchReaders library .show) (b.sections .show) tmdbId season libraryPath

def resolveQuery (query : WatchStateQuery) : BatchCall WatchState :=
  match query.mediaType, query.season with
  | .movie, _ => resolveMovieWatchStateBatch library query.tmdbId query.libraryPath
  | .tv, some season => resolveTvWatchState library query.tmdbId season query.libraryPath
  | .tv, none => Run.raise .value

def resolveQueries : List WatchStateQuery → BatchCall (List WatchState)
  | [] => pure []
  | query :: queries => do
      let state ← resolveQuery library query
      let states ← resolveQueries queries
      pure (state :: states)

def inBatch (sections : List LibrarySection) (x : BatchCall α) : Call α := fun caches =>
  (x (newBatch sections caches)).bind fun r => .ret (r.1, r.2.caches)

def resolveWatchStates (queries : List WatchStateQuery) : Call (List WatchState) :=
  if queries = [] then pure []
  else do
    let sections ← listSections library true true
    inBatch sections (resolveQueries library queries)

end

end PlexLibrary

end PlexManager
