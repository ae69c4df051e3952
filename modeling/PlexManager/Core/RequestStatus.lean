/-!
# The lifecycle of a request

The states of a media request. A season of a television request is in one of
them as well, but never in `partiallyAvailable`, which only sums seasons up.
-/

namespace PlexManager

inductive RequestStatus where
  | pending
  | searching
  | noAcceptableRelease
  | waitingForAirDate
  | downloading
  | completed
  | available
  | partiallyAvailable
  | failed
  | importBlocked
  | evicted
  | cancelled
  deriving DecidableEq, Repr

end PlexManager
