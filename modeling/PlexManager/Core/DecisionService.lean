import PlexManager.Core.Blocklist
import PlexManager.Core.SeasonImport

/-!
# Previews

A search of the indexers, and the decision about what comes back. What is asked
of the indexers binds nobody: a tracker may ignore it and answer with another
title or season. So whatever is wanted is asked of every answer again, and what
the blocklist has under the title is read once for all of them.

When a whole season finds no pack, the search is made again for single episodes,
of those that are missing.
-/

namespace PlexManager

namespace DecisionService

open Blocklist DecisionEngine Quality SeasonImport SeasonPack SourceMapping

inductive SearchType where
  | movie
  | tv
  | search
  deriving DecidableEq, Repr

structure IndexerSearchRequest where
  mediaType : SearchType := .search
  query : Option String := none
  tmdbId : Option Int := none
  year : Option Int := none
  season : Option Int := none
  episode : Option String := none
  deriving DecidableEq, Repr

/-- What a preview works with. `guessit` has no fields for a name at which it
    raises. -/
structure Desk where
  t : ImportTables
  guessit : String → Fields
  search : IndexerSearchRequest → List CandidateRelease
  profile : QualityProfile
  blocklist : List BlocklistRow

structure Wanted where
  tmdbId : Int
  title : String
  mediaType : SearchType
  year : Option Int := none
  season : Option Int := none
  episodes : List Int := []
  multiSeasonIntent : Option MultiSeasonRequestIntent := none

def Desk.parse (d : Desk) (title : String) : ParsedRelease :=
  toParsedRelease d.t.toTextTables (d.guessit title) title

def coversRequestedEpisodes (parsed : ParsedRelease) (requested : List Int) : Bool :=
  match classifyReleaseScope parsed with
  | .seasonPack | .multiSeasonPack => true
  | .singleEpisode => requested.all (episodeNumbers parsed.episode).contains
  | .unknown => false

/-- The rows of a title, in the scope of its type if it has one. -/
def Desk.listed (d : Desk) (tmdbId : Int) : SearchType → List BlocklistRow
  | .movie => listForMedia d.blocklist tmdbId .movie
  | .tv => listForMedia d.blocklist tmdbId .tv
  | .search => d.blocklist.filter fun row => row.tmdbId = some tmdbId

/-- `_blocklist_hook`. -/
def Desk.blocklisted (d : Desk) (tmdbId : Int) (mediaType : SearchType)
    (candidate : CandidateRelease) : Bool :=
  isBlocklisted d.t.casefold candidate.infoHash candidate.title (some candidate.indexerName)
    ((d.listed tmdbId mediaType).map BlocklistRow.release)

/-- Only a movie has a year that its releases must have. -/
def Wanted.matchYear (w : Wanted) : Option Int := if w.mediaType = .movie then w.year else none

def Wanted.matchSeason (w : Wanted) : Option Int := if w.mediaType = .tv then w.season else none

/-- `_media_match` of `preview`. -/
def mediaMatch (d : Desk) (w : Wanted) (candidate : CandidateRelease) (parsed : ParsedRelease) :
    Bool :=
  if !matchesMedia d.t parsed w.title w.matchYear candidate.tmdbId w.tmdbId w.matchSeason then false
  else if w.mediaType ≠ .tv ∨ w.episodes = [] then true
  else coversRequestedEpisodes parsed w.episodes

def searchRequest (w : Wanted) : IndexerSearchRequest where
  mediaType := w.mediaType
  query := some w.title
  tmdbId := if w.tmdbId = 0 then none else some w.tmdbId
  year := w.year
  season := w.season
  episode := match w.episodes with
    | [episode] => some (toString episode)
    | _ => none

def previewCriteria (d : Desk) (w : Wanted) : Criteria where
  parser := d.parse
  profile := d.profile
  mediaMatch := mediaMatch d w
  isBlocklisted candidate _ := d.blocklisted w.tmdbId w.mediaType candidate
  preferSeasonPack := w.mediaType = .tv ∧ w.season.isSome ∧ w.episodes = []
  multiSeasonIntent := w.multiSeasonIntent

def preview (d : Desk) (w : Wanted) : DecisionResult :=
  decide (previewCriteria d w) (d.search (searchRequest w))

def fallbackCriteria (d : Desk) (tmdbId : Int) (title : String) (season : Int)
    (missing : List Int) : Criteria where
  parser := d.parse
  profile := d.profile
  mediaMatch candidate parsed :=
    matchesMedia d.t parsed title none candidate.tmdbId tmdbId (some season)
  isBlocklisted candidate _ := d.blocklisted tmdbId .tv candidate
  episodeSubset := some missing

def previewEpisodeFallback (d : Desk) (tmdbId : Int) (title : String) (season : Int)
    (missing : List Int) : DecisionResult :=
  decide (fallbackCriteria d tmdbId title season missing)
    (d.search (searchRequest { tmdbId, title, mediaType := .tv, season := some season }))

end DecisionService

end PlexManager
