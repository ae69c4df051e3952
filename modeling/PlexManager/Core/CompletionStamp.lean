import PlexManager.Core.Blocklist
import PlexManager.Core.SeasonRequests

/-!
# The stamp of a show's first completion

A show keeps the time at which a season of it was first completed, and it is healed where
a season is taken back. A season counts that is completed or available still and was really
imported: it has a path in the library, or a download that an eviction has not
outlived. The history says which of them came later, by its ids.

Each of the two statements evaluates its condition on the rows that are there.
-/

namespace PlexManager

namespace CompletionStamp

open Blocklist Grab Seasons

structure MediaRequest where
  id : Nat
  tmdbId : Int
  completedAt : Option Int
  deriving DecidableEq

structure DownloadHistory where
  id : Nat
  tmdbId : Option Int
  torrentHash : Option String
  eventType : HistoryEvent
  deriving DecidableEq

structure Database where
  requests : List MediaRequest
  seasons : List SeasonRequest
  downloads : List Download
  history : List DownloadHistory
  deriving DecidableEq

variable (db : Database) (d : Download) (s : SeasonRequest) (r : MediaRequest)

/-- `max` of no row is `NULL`. -/
def latestImportEventId : Option Nat :=
  ((db.history.filter fun e => e.torrentHash = some d.torrentHash && e.eventType = .imported).map
    (·.id)).max?

/-- A comparison with `NULL` holds of no row, and `coalesce` takes `-1` for it. -/
def evictedSinceImport : Bool :=
  db.history.any fun e => e.tmdbId = some r.tmdbId && e.eventType = .evicted &&
    decide (((latestImportEventId db d).elim (-1) Int.ofNat) < (e.id : Int))

def seasonGenuinelyImported : Bool :=
  db.downloads.any fun d => d.mediaRequestId = some s.mediaRequestId &&
    d.season = some s.seasonNumber && d.status = .imported && !evictedSinceImport db d r

def qualifying : Bool :=
  db.seasons.any fun s => s.mediaRequestId = r.id &&
    (s.status = .completed || s.status = .available) &&
    (s.libraryPath.isSome || seasonGenuinelyImported db s r)

/-- An `UPDATE` of `completed_at` in the rows that meet a condition. -/
def Database.update (condition : MediaRequest → Bool) (completedAt : Option Int) : Database :=
  { db with requests := db.requests.map fun r => if condition r then { r with completedAt } else r }

def healCompletedAt (requestId : Nat) (now : Int) : Database :=
  let cleared := db.update
    (fun r => r.id = requestId && r.completedAt.isSome && !qualifying db r) none
  cleared.update
    (fun r => r.id = requestId && r.completedAt.isNone && qualifying cleared r) (some now)

end CompletionStamp

end PlexManager
