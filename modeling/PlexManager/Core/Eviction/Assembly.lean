import PlexManager.Core.Eviction.Ranking
import PlexManager.Lib.PosixPath
import PlexManager.Lib.TextCodec

/-!
# The candidates of a root

A sweep of a root looks at the titles that are available and at home there, which is in the
deepest of the configured roots that has their path. Each becomes a candidate, with what its
eviction will need. The size of a title is walked once for each path. With a cutoff, that of
a title that cannot be evicted is not walked at all.
-/

namespace PlexManager

namespace EvictionRanking

abbrev Path := List Char

/-! ### Roots -/

/-- A normalized path is a normalized root or below it. -/
def contains (root candidate : Path) : Bool :=
  if root = ['/'] then ['/'].isPrefixOf candidate
  else candidate = root || (root ++ ['/']).isPrefixOf candidate

def depth (root : Path) : Nat :=
  if root = ['/'] then 0 else root.count '/'

/-- `not root or not root.strip()`. -/
def blank (root : Path) : Bool := root.all TextCodec.isSpace

/-- A root of the loop, after the best one so far and its depth. -/
def deeper (candidate : Path) (best : Option (Path × Nat)) (root : Path) : Option (Path × Nat) :=
  if blank root || !contains (PosixPath.normpath root) candidate then best
  else if best.all fun b => b.2 < depth (PosixPath.normpath root) then
    some (root, depth (PosixPath.normpath root))
  else best

def deepestContainingRoot (path : Path) (roots : List Path) : Option Path :=
  if path = [] then none
  else (roots.foldl (deeper (PosixPath.normpath path)) none).map Prod.fst

theorem lawfulBEq_path : LawfulBEq Path := inferInstance

attribute [local instance] lawfulBEq_path in
def ownedByRoot (libraryPath : Option Path) (rootPath : Path) (allRoots : List Path) : Bool :=
  libraryPath.any fun path =>
    deepestContainingRoot path
      (if rootPath ∈ allRoots then allRoots else allRoots ++ [rootPath]) = some rootPath

/-! ### Rows -/

structure MediaRequest where
  id : Nat
  tmdbId : Nat
  isMovie : Bool
  status : RequestStatus
  keepForever : Bool
  libraryPath : Option Path

/-- A row of a season, with the row of its show that it refers to. -/
structure SeasonRequest where
  id : Nat
  parent : MediaRequest
  seasonNumber : Int
  tmdbId : Nat
  status : RequestStatus
  libraryPath : Option Path

structure WatchStateQuery where
  tmdbId : Nat
  season : Option Int := none
  libraryPath : Option Path

structure WatchState where
  watched : Bool
  lastViewedAt : Option Int

/-- The rows, and what the database, the media server and the disk say about them. -/
structure Shelf where
  requests : List MediaRequest
  seasons : List SeasonRequest
  watchState : WatchStateQuery → WatchState
  /-- Whether a title is on a watchlist, as a movie or as a show. -/
  watchlisted : Bool → Nat → Bool
  /-- `find_active_for_requests`. -/
  active : Nat → Option Int → Bool
  /-- `find_active_coverage_titles`. -/
  coverage : Nat → Int → Bool
  /-- `_size_bytes`. -/
  sizeBytes : Path → Option Nat

/-- `_MoviePending` and `_SeasonPending`. -/
inductive Pending where
  | movie (mediaRequestId tmdbId : Nat) (sizeBytes : Option Nat)
  | season (mediaRequestId seasonRequestId : Nat) (seasonNumber : Int) (tmdbId : Nat)
      (sizeBytes : Option Nat)

def Pending.withSize (sizeBytes : Option Nat) : Pending → Pending
  | movie id tmdbId _ => movie id tmdbId sizeBytes
  | season mediaRequestId id n tmdbId _ => season mediaRequestId id n tmdbId sizeBytes

/-! ### Sizes -/

def sizedPath (sizeBytes : Path → Option Nat) (libraryPath : Option Path)
    (cache : List (Path × Option Nat)) : Option Nat × List (Path × Option Nat) :=
  match libraryPath with
  | none | some [] => (none, cache)
  | some path =>
      match cache.lookup path with
      | some size => (size, cache)
      | none => (sizeBytes path, (path, sizeBytes path) :: cache)

/-- The share that a title has of its root. -/
def share (size : Option Nat) (rootTotalBytes : Int) : Rat :=
  match size with
  | some bytes => if 0 < rootTotalBytes then bytes / rootTotalBytes * 100 else 0
  | none => 0

/-! ### The assembly -/

/-- A row whose size is not known yet. -/
structure Prospect where
  candidate : EvictionCandidate
  libraryPath : Option Path
  pending : Pending

/-- The loop of both assemblies. -/
def assemble (sizeBytes : Path → Option Nat) (rootTotalBytes : Int) (graceCutoff : Option Int) :
    List Prospect → List (Path × Option Nat) → List (EvictionCandidate × Pending)
  | [], _ => []
  | p :: rest, cache =>
      if graceCutoff.any fun cutoff => !isEvictable cutoff p.candidate then
        ({ p.candidate with sizePercent := none }, p.pending.withSize none) ::
          assemble sizeBytes rootTotalBytes graceCutoff rest cache
      else
        let (size, cache) := sizedPath sizeBytes p.libraryPath cache
        ({ p.candidate with sizePercent := some (share size rootTotalBytes) },
            p.pending.withSize size) ::
          assemble sizeBytes rootTotalBytes graceCutoff rest cache

variable (l : Shelf) (rootTotalBytes : Int) (rootPath : Path) (allRoots : List Path)
  (graceCutoff : Option Int)

def movieRows : List MediaRequest :=
  l.requests.filter fun row => row.status = .available && row.isMovie &&
    (row.libraryPath.isNone || ownedByRoot row.libraryPath rootPath allRoots)

def movieProspect (row : MediaRequest) : Prospect where
  candidate :=
    let watch := l.watchState { tmdbId := row.tmdbId, libraryPath := row.libraryPath }
    { requestId := row.id
      status := row.status
      watched := watch.watched
      lastViewedAt := watch.lastViewedAt
      keepForever := row.keepForever
      inFlight := l.active row.id none
      sizePercent := some 0
      watchlisted := l.watchlisted true row.tmdbId }
  libraryPath := row.libraryPath
  pending := .movie row.id row.tmdbId none

def movieCandidates : List (EvictionCandidate × Pending) :=
  assemble l.sizeBytes rootTotalBytes graceCutoff
    ((movieRows l rootPath allRoots).map (movieProspect l)) []

def seasonRows : List SeasonRequest :=
  l.seasons.filter fun row => row.status = .available &&
    (row.libraryPath.isNone || ownedByRoot row.libraryPath rootPath allRoots)

def seasonProspect (row : SeasonRequest) : Prospect where
  candidate :=
    let watch := l.watchState
      { tmdbId := row.tmdbId, season := some row.seasonNumber, libraryPath := row.libraryPath }
    { requestId := row.id
      status := row.status
      watched := watch.watched
      lastViewedAt := watch.lastViewedAt
      keepForever := row.parent.keepForever
      inFlight := l.active row.parent.id (some row.seasonNumber) ||
        l.coverage row.tmdbId row.seasonNumber
      sizePercent := some 0
      watchlisted := l.watchlisted false row.tmdbId }
  libraryPath := row.libraryPath
  pending := .season row.parent.id row.id row.seasonNumber row.tmdbId none

def seasonCandidates : List (EvictionCandidate × Pending) :=
  assemble l.sizeBytes rootTotalBytes graceCutoff
    ((seasonRows l rootPath allRoots).map (seasonProspect l)) []

end EvictionRanking

end PlexManager
