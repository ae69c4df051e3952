import PlexManager.Lib.Program
import PlexManager.Lib.TtlCache
import PlexManager.Core.PlexPayload

/-!
# What is in Plex

Whether a movie, a show or a season is in the library is asked of Plex, whose sections
are walked page by page. What a walk finds is cached for five minutes, for each server
and token. Different callers trust the cache to a different degree, and a scan drops what
it may have made wrong.

Calls run one after another. What Plex answers to a request is up to it, every time anew,
and so is how long that takes. A walk that Plex does not end goes on as long as `pages`
says, and then is given up.

What walks have found, and when, is noted in `crawls`. Nothing reads it.
-/

namespace PlexManager

namespace PlexLibrary

open Effects KeyedTable TtlCache

/-! ### Requests -/

inductive Request where
  | sections
  | sectionItems (key : String) (start : Nat)
  | children (ratingKey : String)
  | refresh (key : String) (path : Option String)
  deriving DecidableEq, Repr

/-- What comes of a request: no response, or one with a status, and with a body that may be
    no JSON. -/
inductive Outcome where
  | unreachable
  | answered (status : Nat) (body : Option Json)

structure Reply where
  outcome : Outcome
  elapsed : Nat := 0

inductive Failure where
  | library
  | auth
  | value
  | unfinished
  deriving DecidableEq, Repr

/-- What `_request` makes of an outcome. -/
def checkStatus : Outcome → Except Failure (Option Json)
  | .unreachable => .error .library
  | .answered status body =>
      if status = 401 ∨ status = 403 then .error .auth
      else if 200 ≤ status ∧ status < 300 then .ok body
      else .error .library

/-- What `_get` makes of an outcome. -/
def decode (outcome : Outcome) : Except Failure Fields :=
  match checkStatus outcome with
  | .error e => .error e
  | .ok none => .error .library
  | .ok (some body) => .ok (asMapping body)

/-! ### Caches -/

/-- The seasons of a show. -/
structure ShowSeasons where
  tmdbId : Nat
  seasons : List Int
  deriving DecidableEq, Repr

abbrev SeasonMap : Type := Table ShowSeasons.tmdbId

/-- What was learnt of a show: whether an item matched it, the seasons that were read, and
    whether a read failed. -/
structure ShowLookup where
  tmdbId : Nat
  matched : Bool
  seasons : List Int := []
  anyFailed : Bool := false
  deriving DecidableEq, Repr

/-- What a walk found. -/
inductive Found where
  | movies (tmdbIds : List Nat)
  | shows (tmdbIds : List Nat)
  | seasons (shows : SeasonMap)
  | lookups (lookups : List ShowLookup)

structure Crawl where
  cacheKey : String
  endedAt : Int
  found : Found

/-- `_SECTIONS_CACHE`, `_PRESENT_TMDB_CACHE`, `_PRESENT_SHOW_TMDB_CACHE` and
    `_TV_SEASONS_CACHE`, with the clock, in microseconds. -/
structure Caches where
  now : Int
  sections : Cache String (List LibrarySection) := {}
  presentTmdb : Cache String (List Nat) := {}
  presentShowTmdb : Cache String (List Nat) := {}
  tvSeasons : Cache String SeasonMap := {}
  crawls : List Crawl := []

/-- `_CACHE_TTL_SECONDS`. -/
def cacheTtl : Int := 300000000

def pageSize : Nat := 100

abbrev Call (α : Type) : Type := Run Request (fun _ => Reply) Failure Caches α

/-- An instance of `PlexLibrary`: its key, whether its token can be sent, and how many
    pages a walk may have. -/
structure Library where
  cacheKey : String
  headerSafe : Bool := true
  pages : Nat := 0
  deriving DecidableEq, Repr

structure CacheRef (V : Type) where
  read : Caches → Cache String V
  write : Caches → Cache String V → Caches

def sectionsCache : CacheRef (List LibrarySection) where
  read := Caches.sections
  write st c := { st with sections := c }

def presentTmdbCache : CacheRef (List Nat) where
  read := Caches.presentTmdb
  write st c := { st with presentTmdb := c }

def presentShowTmdbCache : CacheRef (List Nat) where
  read := Caches.presentShowTmdb
  write st c := { st with presentShowTmdb := c }

def tvSeasonsCache : CacheRef SeasonMap where
  read := Caches.tvSeasons
  write st c := { st with tvSeasons := c }

section
variable {V α β : Type} (library : Library)

variable (key : String) (shows : SeasonMap) (tmdbId : Nat) (l : ShowLookup) (ref : CacheRef V)

def cacheGet : Call (Option V) := fun st =>
  .ret (.ok ((ref.read st).get st.now library.cacheKey).1,
    ref.write st ((ref.read st).get st.now library.cacheKey).2)

def cacheGetIf (useCache : Bool) (ref : CacheRef V) : Call (Option V) :=
  if useCache then cacheGet library ref else pure none

def cacheSet (value : V) : Call Unit :=
  Run.modifyRecord fun st =>
    ref.write st ((ref.read st).set cacheTtl st.now library.cacheKey value)

def cacheInvalidate : Call Unit :=
  Run.modifyRecord fun st => ref.write st ((ref.read st).invalidate library.cacheKey)

def crawled (found : Found) : Call Unit :=
  Run.modifyRecord fun st => { st with
    crawls := st.crawls ++ [{ cacheKey := library.cacheKey, endedAt := st.now, found }] }

/-- The ids of some items are read: `int` raises `ValueError` on one that is too long. -/
def readIds (items : List Fields) : Call Unit :=
  if items.all idsRead then pure () else Run.raise .value

/-- `_request`. A token that cannot be sent is as good as a rejected one. -/
def request (r : Request) : Call Outcome :=
  if library.headerSafe then do
    let reply ← Run.perform r
    Run.modifyRecord fun st => { st with now := st.now + reply.elapsed }
    let _ ← Run.ofExcept (checkStatus reply.outcome)
    pure reply.outcome
  else Run.raise .auth

def get (r : Request) : Call Fields := do
  let outcome ← request library r
  Run.ofExcept (decode outcome)

/-- A list without a movie section is not cached, and takes away one that is. -/
def rememberSections (sections : List LibrarySection) : Call Unit :=
  if sections.any (·.type = .movie) then cacheSet library sectionsCache sections
  else cacheInvalidate library sectionsCache

def listSections (useCache writeCache : Bool) : Call (List LibrarySection) := do
  let cached ← cacheGetIf library useCache sectionsCache
  match cached with
  | some sections => pure sections
  | none => do
      let payload ← get library .sections
      match parseSectionsEnvelope payload with
      | none => Run.raise .library
      | some sections =>
          if writeCache then do
            rememberSections library sections
            pure sections
          else pure sections

def sectionsOf (type : SectionType) : Call (List LibrarySection) := do
  let sections ← listSections library true true
  pure (sections.filter (·.type = type))

/-! ### Walks -/

def walkFrom (key : String) (visit : α → List Fields → Call α) : Nat → Nat → α → Call α
  | 0, _, _ => Run.raise .unfinished
  | pages + 1, start, acc => do
      let payload ← get library (.sectionItems key start)
      let acc ← visit acc (metadata payload)
      if (metadata payload).length < pageSize then pure acc
      else walkFrom key visit pages (start + pageSize) acc

def walkSection (visit : α → List Fields → Call α) (acc : α) : Call α :=
  walkFrom library key visit library.pages 0 acc

def collectSectionTmdbIds (present : List Nat) : Call (List Nat) :=
  walkSection library key
    (fun present items => do
      readIds items
      pure (present ++ items.flatMap collectItemTmdbIds)) present

def collectPresentTmdbIds : Call (List Nat) := do
  let sections ← sectionsOf library .movie
  let present ← sections.foldlM (fun present s => collectSectionTmdbIds library s.key present) []
  crawled library (.movies present)
  pure present

def collectPresentShowIds : Call (List Nat) := do
  let sections ← sectionsOf library .show
  let present ← sections.foldlM (fun present s => collectSectionTmdbIds library s.key present) []
  crawled library (.shows present)
  pure present

def presentSeason (entry : Fields) : Option Int :=
  match getInt entry "index", getInt entry "leafCount" with
  | some index, some leafCount => if 0 < leafCount then some index else none
  | _, _ => none

def fetchPresentSeasons (ratingKey : String) : Call (List Int) := do
  let payload ← get library (.children ratingKey)
  pure ((metadata payload).filterMap presentSeason)

def addSeasons (seasons : List Int) : SeasonMap :=
  match shows.find tmdbId with
  | some _ => shows.modify tmdbId (fun s => { s with seasons := s.seasons ++ seasons }) fun _ => rfl
  | none => shows.insert { tmdbId, seasons }

def collectShowSeasons (item : Fields) : Call SeasonMap := do
  readIds [item]
  if collectItemTmdbIds item = [] then pure shows
  else match getStr item "ratingKey" with
  | none => pure shows
  | some ratingKey => do
      let seasons ← fetchPresentSeasons library ratingKey
      pure ((collectItemTmdbIds item).foldl (fun shows id => addSeasons shows id seasons) shows)

def collectSectionTvSeasons : Call SeasonMap :=
  walkSection library key (fun shows items => items.foldlM (collectShowSeasons library) shows) shows

def collectPresentTvSeasons : Call SeasonMap := do
  let sections ← sectionsOf library .show
  let shows ← sections.foldlM (fun shows s => collectSectionTvSeasons library s.key shows)
    Table.empty
  crawled library (.seasons shows)
  pure shows

/-! ### Presence -/

/-- What a snapshot says of a show or a season: nothing if the show is not in it. -/
def satisfied (season : Option Int) (shows : SeasonMap) : Option Bool :=
  (shows.find tmdbId).map fun s => season.all fun n => s.seasons.contains n

def isTvAvailable (season : Option Int) (useCache : Bool) : Call Bool := do
  let cached ← cacheGetIf library useCache tvSeasonsCache
  if cached.bind (satisfied tmdbId season) = some true then pure true
  else do
    let present ← collectPresentTvSeasons library
    cacheSet library tvSeasonsCache present
    pure ((satisfied tmdbId season present).getD false)

def isAvailable (mediaType : MediaType) (useCache : Bool) (season : Option Int) :
    Call Bool :=
  match mediaType with
  | .tv => isTvAvailable library tmdbId season useCache
  | .movie => do
      let cached ← cacheGetIf library useCache presentTmdbCache
      if cached.any (·.contains tmdbId) then pure true
      else do
        let present ← collectPresentTmdbIds library
        cacheSet library presentTmdbCache present
        pure (present.contains tmdbId)

/-- One of the partitions of `present_ids`: the cached snapshot, or a fresh one. -/
def presentPartition (ref : CacheRef (List Nat)) (collect : Call (List Nat)) (tmdbIds : List Nat)
    (refreshAbsent : Bool) : Call (List Nat) :=
  if tmdbIds = [] then pure []
  else do
    let cached ← cacheGet library ref
    match cached with
    | some present =>
        if refreshAbsent && !tmdbIds.all present.contains then do
          let present ← collect
          cacheSet library ref present
          pure present
        else pure present
    | none => do
        let present ← collect
        cacheSet library ref present
        pure present

def idsOf (mediaType : MediaType) (keys : List (Nat × MediaType)) : List Nat :=
  (keys.filter fun k => k.2 = mediaType).map Prod.fst

def presentAmong (movies shows : List Nat) (k : Nat × MediaType) : Bool :=
  match k.2 with
  | .movie => movies.contains k.1
  | .tv => shows.contains k.1

def presentIds (keys : List (Nat × MediaType)) (refreshAbsent : Bool) :
    Call (List (Nat × MediaType)) := do
  let movies ← presentPartition library presentTmdbCache (collectPresentTmdbIds library)
    (idsOf .movie keys) refreshAbsent
  let shows ← presentPartition library presentShowTmdbCache (collectPresentShowIds library)
    (idsOf .tv keys) refreshAbsent
  pure (keys.filter (presentAmong movies shows))

def presentSeasons : Call (List Int) := do
  let present ← collectPresentTvSeasons library
  cacheSet library tvSeasonsCache present
  pure (((present.find tmdbId).map ShowSeasons.seasons).getD [])

/-- The rating key of an item with each of the wanted ids that it has. -/
def targets (wanted : List Nat) (entry : Fields) : List (Nat × String) :=
  match getStr entry "ratingKey" with
  | none => []
  | some ratingKey =>
      ((collectItemTmdbIds entry).filter wanted.contains).map fun id => (id, ratingKey)

def collectTargetRatingKeys (wanted : List Nat) (ratingKeys : List (Nat × String)) :
    Call (List (Nat × String)) :=
  walkSection library key
    (fun ratingKeys items => do
      readIds items
      pure (ratingKeys ++ items.flatMap (targets wanted))) ratingKeys

def readSeasons (found : ShowLookup) (ratingKey : String) : Call ShowLookup :=
  Run.tryCatch
    (do
      let seasons ← fetchPresentSeasons library ratingKey
      pure { found with seasons := found.seasons ++ seasons })
    fun
      | .library => pure { found with anyFailed := true }
      | .auth => pure { found with anyFailed := true }
      | e => Run.raise e

def lookupShow (ratingKeys : List (Nat × String)) (tmdbId : Nat) : Call ShowLookup :=
  let own := (ratingKeys.filter fun r => r.1 = tmdbId).map Prod.snd
  own.foldlM (readSeasons library) { tmdbId, matched := own ≠ [] }

def lookupShows (ratingKeys : List (Nat × String)) : List Nat → Call (List ShowLookup)
  | [] => pure []
  | id :: ids => do
      let found ← lookupShow library ratingKeys id
      let rest ← lookupShows ratingKeys ids
      pure (found :: rest)

/-- Nothing is known of a show that matched: it is left out. -/
def ShowLookup.failed : Bool := l.anyFailed && l.seasons.isEmpty

def ShowLookup.whole : Bool := l.matched && !l.anyFailed

def ShowLookup.unmatched : Bool := !l.matched && !l.anyFailed

def seasonMap (lookups : List ShowLookup) : SeasonMap :=
  lookups.foldl (fun shows l => shows.insert { tmdbId := l.tmdbId, seasons := l.seasons })
    Table.empty

def putShow : SeasonMap :=
  (shows.erase l.tmdbId).insert { tmdbId := l.tmdbId, seasons := l.seasons }

/-- The snapshot that is stored after some reads, if one is: what was cached, without the
    shows that no item matched, and with those that were read. -/
def merged (cached : Option SeasonMap) (lookups : List ShowLookup) : Option SeasonMap :=
  let matchedOnly := lookups.filter ShowLookup.whole
  let unmatched := (lookups.filter ShowLookup.unmatched).map ShowLookup.tmdbId
  if matchedOnly ≠ [] ∨ cached.any (fun shows => unmatched.any fun id => (shows.find id).isSome)
  then
    some (matchedOnly.foldl putShow (unmatched.foldl Table.erase (cached.getD Table.empty)))
  else none

/-- `season_presence` up to the write of the snapshot. -/
def readShows (tmdbIds : List Nat) : Call (List ShowLookup) := do
  let sections ← sectionsOf library .show
  let ratingKeys ← sections.foldlM
    (fun ratingKeys s => collectTargetRatingKeys library s.key tmdbIds ratingKeys) []
  let lookups ← lookupShows library ratingKeys tmdbIds
  crawled library (.lookups lookups)
  pure lookups

def storeMerged : Option SeasonMap → Call Unit
  | some updated => cacheSet library tvSeasonsCache updated
  | none => pure ()

def seasonPresence (tmdbIds : List Nat) : Call SeasonMap :=
  if tmdbIds = [] then pure Table.empty
  else do
    let lookups ← readShows library tmdbIds.dedup
    let cached ← cacheGet library tvSeasonsCache
    storeMerged library (merged cached lookups)
    pure (seasonMap (lookups.filter fun l => !l.failed))

/-- The refreshes of a scan: of the path, in the sections that cover it, or else of all the
    sections. -/
def scanRequests (candidates : List LibrarySection) (path : String) : List Request :=
  let matched := candidates.filterMap fun s =>
    (sectionScanPath s path).map fun scanPath => Request.refresh s.key (some scanPath)
  if matched ≠ [] then matched else candidates.map fun s => .refresh s.key none

def dropPresence : MediaType → Call Unit
  | .movie => cacheInvalidate library presentTmdbCache
  | .tv => do
      cacheInvalidate library tvSeasonsCache
      cacheInvalidate library presentShowTmdbCache

def triggerScan (path : String) (mediaType : MediaType) : Call Unit := do
  let candidates ← sectionsOf library mediaType.sectionType
  if candidates = [] then Run.raise .library
  else
    Run.andFinally
      ((scanRequests candidates path).forM fun r => do
        let _ ← request library r
        pure ())
      (dropPresence library mediaType)

end

/-! ### Calls -/

inductive Item where
  | movie (tmdbId : Nat)
  | show (tmdbId : Nat)
  | season (tmdbId : Nat) (number : Int)
  deriving DecidableEq, Repr

inductive Query where
  | isAvailable (tmdbId : Nat) (mediaType : MediaType) (useCache : Bool) (season : Option Int)
  | presentIds (keys : List (Nat × MediaType)) (refreshAbsent : Bool)
  | presentSeasons (tmdbId : Nat)
  | seasonPresence (tmdbIds : List Nat)
  | triggerScan (path : String) (mediaType : MediaType)
  | listSections (useCache writeCache : Bool)
  deriving DecidableEq, Repr

def itemOf (tmdbId : Nat) (mediaType : MediaType) (season : Option Int) : Item :=
  match mediaType, season with
  | .movie, _ => .movie tmdbId
  | .tv, none => .show tmdbId
  | .tv, some n => .season tmdbId n

def Query.answers (library : Library) : Query → Call (List (Item × Bool))
  | .isAvailable tmdbId mediaType useCache season => do
      let present ← PlexLibrary.isAvailable library tmdbId mediaType useCache season
      pure [(itemOf tmdbId mediaType season, present)]
  | .presentIds keys refreshAbsent => do
      let present ← PlexLibrary.presentIds library keys refreshAbsent
      pure (keys.map fun k => (itemOf k.1 k.2 none, present.contains k))
  | .presentSeasons tmdbId => do
      let seasons ← PlexLibrary.presentSeasons library tmdbId
      pure (seasons.map fun n => (.season tmdbId n, true))
  | .seasonPresence tmdbIds => do
      let shows ← PlexLibrary.seasonPresence library tmdbIds
      pure (shows.rows.flatMap fun s => s.seasons.map fun n => (.season s.tmdbId n, true))
  | .triggerScan path mediaType => do
      PlexLibrary.triggerScan library path mediaType
      pure []
  | .listSections useCache writeCache => do
      let _ ← PlexLibrary.listSections library useCache writeCache
      pure []

/-- A call: how much later than the one before, by whom, and what Plex replies. -/
structure Asked where
  wait : Nat := 0
  library : Library
  query : Query
  replies : List Reply

def Asked.start (a : Asked) (st : Caches) : Caches := { st with now := st.now + a.wait }

def Asked.ends (a : Asked) (st : Caches) : Option (Except Failure (List (Item × Bool)) × Caches) :=
  (a.query.answers a.library (a.start st)).feed a.replies

/-- One call, or `none` where Plex has not replied to all that it asks. -/
def step (st : Caches) (a : Asked) : Option Caches := (a.ends st).map Prod.snd

end PlexLibrary

end PlexManager
