import PlexManager.Core.SeasonRequests
import PlexManager.Lib.Interleaving

/-!
# The availability cycle

An imported title is only `completed`. A cycle of the reconciler asks Plex which
of the completed movies and seasons it has, and promotes those to `available`.
The rows are read before Plex is asked, and by the time the answer is there a
row may have been reported, imported again, evicted or cancelled. So a row
counts its completions, the cycle remembers the count it has read, and the
promotion is refused where the count is another one.

A call is a program counter with what the call has read, and one step of it is
one statement or one request to Plex. The other services move the rows at any
time, each with a verb that is committed at once. A promotion waits for the lock
of the database and is committed under it. What is committed is kept in a log.
-/

namespace PlexManager

namespace Availability

open KeyedTable Interleaving
open Seasons (SeasonRequest rollupStatus)

/-! ### The rows -/

/-- A row of `media_requests` for a movie. -/
structure Movie where
  id : Nat
  tmdbId : Nat
  status : RequestStatus
  libraryPath : Option String := none
  libraryVerifiedAt : Option Int := none
  completedAt : Option Int := none
  /-- The number of completions so far. It is never reset. -/
  completionGeneration : Option Nat := none
  evictionRegrab : Bool := false
  deriving DecidableEq, Repr

/-- A row of `media_requests` for a show. -/
structure TvRequest where
  id : Nat
  tmdbId : Nat
  status : RequestStatus
  completedAt : Option Int := none
  deriving DecidableEq, Repr

structure Db where
  movies : Table Movie.id
  shows : Table TvRequest.id
  seasons : Table SeasonRequest.key
  deriving DecidableEq

/-- A row that can be promoted. -/
inductive RowKey where
  | movie (id : Nat)
  | season (mediaRequestId : Nat) (seasonNumber : Int)
  deriving DecidableEq, Repr

def realDoneStatuses : List RequestStatus := [.completed, .available]

variable (db : Db) (row : SeasonRequest)

/-- `_recompute_parent`, or `none` where it raises. -/
def Db.recomputeParent (now : Int) (id : Nat) (stampCompletion : Bool) : Option Db :=
  let rows := db.seasons.rows.filter fun row => row.mediaRequestId = id
  if rows.isEmpty then some db
  else (rollupStatus (rows.map (·.status))).map fun status =>
    let stamped := stampCompletion && rows.any fun row => row.status ∈ realDoneStatuses
    { db with
      shows := db.shows.modify id
        (fun r => { r with
          status := status
          completedAt := if stamped then r.completedAt.or (some now) else r.completedAt })
        fun _ => rfl }

/-! ### The promotion -/

/-- What `mark_available` writes to a movie, with `stamp_completed_at_if_unset`. -/
def Movie.available (now : Int) (m : Movie) : Movie :=
  { m with
    status := .available
    libraryVerifiedAt := some now
    evictionRegrab := false
    completedAt := m.completedAt.or (some now) }

variable (now : Int)

theorem Movie.id_available (m : Movie) : (m.available now).id = m.id := rfl

/-- `SqlRequestRepository.mark_available`. -/
def Db.promoteMovie (now : Int) (id : Nat) (expected : Option Nat) : Bool × Db :=
  match db.movies.find id with
  | none => (false, db)
  | some m =>
      if m.status ∈ realDoneStatuses ∧ m.completionGeneration = expected then
        (true, { db with movies := db.movies.modify id (·.available now) (Movie.id_available now) })
      else (false, db)

/-- What `mark_available` writes to a season. -/
def seasonAvailable : SeasonRequest :=
  { row with status := .available, evictionRegrab := false }

theorem key_seasonAvailable : (seasonAvailable row).key = row.key := rfl

/-- `season_request_service.mark_available`, or `none` where it raises. -/
def Db.promoteSeason (now : Int) (id : Nat) (n : Int) (expected : Option Nat) :
    Option (Bool × Db) :=
  let db := { db with
    seasons := db.seasons.insert { mediaRequestId := id, seasonNumber := n, status := .pending } }
  match db.seasons.find (id, n) with
  | none => none
  | some row =>
      if row.status ∈ realDoneStatuses ∧ row.completionGeneration = expected then
        (Db.recomputeParent
          { db with seasons := db.seasons.modify (id, n) seasonAvailable key_seasonAvailable }
          now id true).map fun db => (true, db)
      else some (false, db)

def Db.promote (now : Int) (expected : Option Nat) : RowKey → Option (Bool × Db)
  | .movie id => some (db.promoteMovie now id expected)
  | .season id n => db.promoteSeason now id n expected

/-! ### The other services -/

/-- What an import writes to a movie: `set_library_path` and `mark_completed`. -/
def Movie.imported (now : Int) (libraryPath : String) (m : Movie) : Movie :=
  { m with
    status := .completed
    libraryPath := some libraryPath
    completedAt := some now
    completionGeneration := some (m.completionGeneration.getD 0 + 1) }

def Movie.reset (clearLibraryPath : Bool) (m : Movie) : Movie :=
  { m with
    status := .searching
    libraryPath := if clearLibraryPath then none else m.libraryPath
    completedAt := none
    libraryVerifiedAt := none
    evictionRegrab := false }

def Movie.moved (status : RequestStatus) (m : Movie) : Movie := { m with status := status }

theorem Movie.id_imported (path : String) (m : Movie) :
    (m.imported now path).id = m.id := rfl

theorem Movie.id_reset (clear : Bool) (m : Movie) : (m.reset clear).id = m.id := rfl

theorem Movie.id_moved (status : RequestStatus) (m : Movie) : (m.moved status).id = m.id := rfl

def Db.onMovie (id : Nat) (p : Movie → Bool) (f : Movie → Movie)
    (hf : ∀ m, (f m).id = m.id) : Option Db :=
  match db.movies.find id with
  | none => none
  | some m => if p m then some { db with movies := db.movies.modify id f hf } else none

/-- Rewrite a season that passes a test and sum up its show, or `none`. -/
def Db.onSeason (now : Int) (id : Nat) (n : Int) (stampCompletion : Bool)
    (p : SeasonRequest → Bool) (f : SeasonRequest → SeasonRequest)
    (hf : ∀ row, (f row).key = row.key) :
    Option Db :=
  match db.seasons.find (id, n) with
  | none => none
  | some row =>
      if p row then
        Db.recomputeParent { db with seasons := db.seasons.modify (id, n) f hf } now id
          stampCompletion
      else none

/-- What an import writes to a season: `set_library_path` and `mark_completed`. -/
def seasonImported (now : Int) (libraryPath : String) (row : SeasonRequest) : SeasonRequest :=
  (row.placed (some libraryPath)).moved now .completed

theorem key_seasonImported (path : String) (row : SeasonRequest) :
    (seasonImported now path row).key = row.key := by
  rw [seasonImported, SeasonRequest.key_moved, SeasonRequest.key_placed]

def seasonReset (now : Int) (clearLibraryPath : Bool) (row : SeasonRequest) : SeasonRequest :=
  { (row.moved now .searching).scheduled 0 none with
    libraryPath := if clearLibraryPath then none else row.libraryPath
    evictionRegrab := false }

theorem key_seasonReset (clear : Bool) (row : SeasonRequest) :
    (seasonReset now clear row).key = row.key := rfl

def dueSearchStatuses : List RequestStatus := [.pending, .noAcceptableRelease, .searching]

/-- `_REARMED_OR_BLOCKED_STATUSES`, and the one of a claim. -/
def restorableStatuses : List RequestStatus :=
  [.evicted, .pending, .searching, .noAcceptableRelease, .downloading, .failed, .cancelled,
    .importBlocked]

/-- What the other services do to a row and its status. An import completes a
    row, and so does the episode fallback. A report opens it again for a search.
    An eviction whose files are there after all is taken back, also where the
    season has been opened again meanwhile. A request creates rows, and finds a
    season that was evicted or did not air yet to be there or not. Everything
    else, a grab, a failure, a cancel, an eviction, moves a row to a status that
    is not of content that is there. -/
inductive Verb where
  | importMovie (id : Nat) (libraryPath : String)
  | reportMovie (id : Nat) (clearLibraryPath : Bool)
  | restoreMovie (id : Nat)
  | moveMovie (id : Nat) (status : RequestStatus)
  | createMovie (m : Movie)
  | createShow (id tmdbId : Nat)
  | importSeason (id : Nat) (n : Int) (libraryPath : String)
  | fallbackSeason (id : Nat) (n : Int)
  | reportSeason (id : Nat) (n : Int) (clearLibraryPath : Bool)
  | restoreSeason (id : Nat) (n : Int)
  | requestSeason (id : Nat) (n : Int) (present : Bool)
  | moveSeason (id : Nat) (n : Int) (status : RequestStatus)
  deriving DecidableEq, Repr

/-- `ensure_seasons` for one season: it is created, or armed again. -/
def Db.requestSeason (now : Int) (id : Nat) (n : Int) (present : Bool) : Option Db :=
  let initial : RequestStatus := if present then .available else .pending
  match db.seasons.find (id, n) with
  | none =>
      Db.recomputeParent
        { db with
          seasons := db.seasons.insert
            { mediaRequestId := id, seasonNumber := n, status := initial } }
        now id false
  | some _ =>
      db.onSeason now id n false
        (fun row => row.status = .evicted || row.status = .waitingForAirDate)
        (·.moved now initial) (SeasonRequest.key_moved now initial)

/-- The rows after a verb, or `none` where it matches no row or raises. -/
def Verb.apply (now : Int) (db : Db) : Verb → Option Db
  | .importMovie id path =>
      db.onMovie id (fun _ => true) (·.imported now path) (Movie.id_imported now path)
  | .reportMovie id clear => db.onMovie id (fun _ => true) (·.reset clear) (Movie.id_reset clear)
  | .restoreMovie id =>
      db.onMovie id (fun m => m.status = .evicted) (·.moved .available) (Movie.id_moved .available)
  | .moveMovie id status =>
      db.onMovie id (fun _ => status ∉ realDoneStatuses) (·.moved status) (Movie.id_moved status)
  | .createMovie m => some { db with movies := db.movies.insert m }
  | .createShow id tmdbId => some { db with shows := db.shows.insert ⟨id, tmdbId, .pending, none⟩ }
  | .importSeason id n path =>
      db.onSeason now id n true (fun _ => true) (seasonImported now path)
        (key_seasonImported now path)
  | .fallbackSeason id n =>
      db.onSeason now id n true (fun row => row.status ∈ dueSearchStatuses) (·.moved now .completed)
        (SeasonRequest.key_moved now .completed)
  | .reportSeason id n clear =>
      db.onSeason now id n false (fun _ => true) (seasonReset now clear) (key_seasonReset now clear)
  | .restoreSeason id n =>
      db.onSeason now id n false (fun row => row.status ∈ restorableStatuses)
        (·.moved now .available) (SeasonRequest.key_moved now .available)
  | .requestSeason id n present => db.requestSeason now id n present
  | .moveSeason id n status =>
      db.onSeason now id n false (fun _ => status ∉ realDoneStatuses) (·.moved now status)
        (SeasonRequest.key_moved now status)

def Verb.completes (key : RowKey) : Verb → Bool
  | .importMovie id _ => key = .movie id
  | .importSeason id n _ => key = .season id n
  | .fallbackSeason id n => key = .season id n
  | _ => false

/-- The verb opens the row for another search, as a report does. -/
def Verb.rearms (key : RowKey) : Verb → Bool
  | .reportMovie id _ => key = .movie id
  | .reportSeason id n _ => key = .season id n
  | _ => false

/-- The verb puts the row back to `available` without Plex being asked by a
    cycle. -/
def Verb.restores (key : RowKey) : Verb → Bool
  | .restoreMovie id => key = .movie id
  | .restoreSeason id n => key = .season id n
  | .requestSeason id n present => present && key = .season id n
  | _ => false

/-! ### The cycle -/

inductive Commit where
  | other (v : Verb)
  | promotion (key : RowKey)
  deriving DecidableEq, Repr

structure Shared where
  db : Db
  log : List Commit

inductive Kind where
  | movies
  | seasons
  deriving DecidableEq, Repr

/-- What a cycle keeps of a completed row. -/
structure Item where
  key : RowKey
  tmdbId : Nat
  libraryPath : Option String
  completionGeneration : Option Nat
  deriving DecidableEq, Repr

/-- The completed rows as they were read, and the length of the log by then. -/
structure Reading where
  kind : Kind
  items : List Item
  since : Nat
  deriving DecidableEq, Repr

def Movie.item (m : Movie) : Item :=
  ⟨.movie m.id, m.tmdbId, m.libraryPath, m.completionGeneration⟩

def seasonItem : Item :=
  { key := .season row.mediaRequestId row.seasonNumber
    tmdbId := ((db.shows.find row.mediaRequestId).map (·.tmdbId)).getD 0
    libraryPath := row.libraryPath
    completionGeneration := row.completionGeneration }

/-- `list_by_status` for `completed`. The seasons are grouped by their show. -/
def Db.completed (db : Db) : Kind → List Item
  | .movies => (db.movies.rows.filter fun m => m.status = .completed).map Movie.item
  | .seasons =>
      let items := (db.seasons.rows.filter fun row => row.status = .completed).map (seasonItem db)
      (items.map (·.tmdbId)).eraseDups.flatMap fun tmdbId =>
        items.filter fun item => item.tmdbId = tmdbId

/-- What Plex says: of `present_ids` the movies it has, of `season_presence` the
    seasons of each show that it could look up, or nothing. -/
inductive Answer where
  | movies (ids : List Nat)
  | shows (seasons : List (Nat × List Int))
  | failed
  deriving DecidableEq, Repr

/-- `guid_confirmed`. -/
def Answer.confirms (answer : Answer) (item : Item) : Bool :=
  match answer, item.key with
  | .movies ids, .movie _ => item.tmdbId ∈ ids
  | .shows seasons, .season _ n => n ∈ (seasons.lookup item.tmdbId).getD []
  | _, _ => false

def Reading.unconfirmedPaths (r : Reading) (answer : Answer) : List String :=
  (r.items.filter fun item => !answer.confirms item).filterMap (·.libraryPath)

def Reading.confirmed (r : Reading) (asked : Nat) (answer : Answer) (askedPaths : Nat)
    (paths : List String) : List (Item × Nat) :=
  r.items.filterMap fun item =>
    if answer.confirms item then some (item, asked)
    else if item.libraryPath.any (· ∈ paths) then some (item, askedPaths)
    else none

inductive CyclePc where
  | read (kind : Kind)
  | ask (r : Reading)
  | awaiting (r : Reading) (asked : Nat)
  | askPaths (r : Reading) (asked : Nat) (answer : Answer)
  | awaitingPaths (r : Reading) (asked : Nat) (answer : Answer) (askedPaths : Nat)
  | promote (r : Reading) (rest : List (Item × Nat))
  | ended
  deriving DecidableEq, Repr

/-- The answers from outside that a step may need. A failure of `confirm_paths`
    confirms no path. `fails` says that a statement raises or the task is
    cancelled there. -/
structure Outside where
  now : Int := 0
  answer : Answer := .failed
  paths : List String := []
  fails : Bool := false
  deriving DecidableEq, Repr

/-- The movies come first. The pass between the two, which opens false claims
    again, is among the others. -/
def cycleNext (c : Outside) (s : Shared) (pc : CyclePc) : Shared × CyclePc :=
  if c.fails then (s, .ended)
  else match pc with
  | .read kind => (s, .ask { kind, items := s.db.completed kind, since := s.log.length })
  | .ask r => (s, .awaiting r s.log.length)
  | .awaiting r asked =>
      if (r.unconfirmedPaths c.answer).isEmpty then
        (s, .promote r (r.confirmed asked c.answer asked []))
      else (s, .askPaths r asked c.answer)
  | .askPaths r asked answer => (s, .awaitingPaths r asked answer s.log.length)
  | .awaitingPaths r asked answer askedPaths =>
      (s, .promote r (r.confirmed asked answer askedPaths c.paths))
  | .promote r [] =>
      match r.kind with
      | .movies => (s, .read .seasons)
      | .seasons => (s, .ended)
  | .promote r ((item, _) :: rest) =>
      match s.db.promote c.now item.completionGeneration item.key with
      | none => (s, .ended)
      | some (true, db) =>
          ({ db := db, log := s.log ++ [.promotion item.key] }, .promote r rest)
      | some (false, db) => ({ s with db := db }, .promote r rest)
  | .ended => (s, .ended)

/-! ### The world -/

abbrev World := Interleaving.World Shared CyclePc

def World.idle : World := ⟨⟨db, []⟩, []⟩

inductive Action where
  | arrive
  | act (i : Nat) (c : Outside)
  | other (now : Int) (v : Verb)
  deriving DecidableEq, Repr

def step (w : World) : Action → Option World
  | .arrive => some (w.spawn (.read .movies))
  | .act i c => w.act cycleNext i c
  | .other now v =>
      (v.apply now w.shared.db).map fun db =>
        { w with shared := { db := db, log := w.shared.log ++ [.other v] } }

end Availability

end PlexManager
