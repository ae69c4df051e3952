import PlexManager.Core.GrabSession

/-!
# Grabbing a release

`grab` hands a release to the download client and records a row that tracks the
torrent. There are six ways to the row: a new one, one that is tracked already,
one whose hash was known before the client was asked, one that another grab
created first, a finished one that is reused, and one that another grab reused
first. On each of them the seasons the release is grabbed for get a scope on
the row and move to `downloading`, in one transaction.

A grab that loses on the way rolls back and removes the torrent from the client
if its own add created it. The local variable `actually_added` is the record of
the run: it is still there when an exception is handled.

Loops and recursion are bounded by a fuel that a run is given. A run that would
go further is cut short.

Left out are the history row a grab adds and the arguments that only the client
sees.
-/

namespace PlexManager

namespace Grab

open Effects
open Seasons (SeasonRequest)
open Reconciler (DownloadStatus)

/-! ### Arguments -/

structure Candidate where
  title : String
  guid : String := ""
  magnetUrl : Option String := none
  downloadUrl : Option String := none
  infoHash : Option String := none
  deriving DecidableEq, Repr

structure ScoredRelease where
  candidate : Candidate
  targetSeasons : List Int := []
  coveredSeasons : List Int := []
  deriving DecidableEq, Repr

/-- `scope_episodes_by_season`. A season that is listed without episodes is
    wanted whole. -/
abbrev ScopeEpisodes := List (Int × Option (List Int))

structure GrabArgs where
  scored : ScoredRelease
  requestId : Option Nat := none
  tmdbId : Option Int := none
  year : Option Int := none
  season : Option Int := none
  episodes : Option (List Int) := none
  expectedSeasonStatus : Option RequestStatus := none
  scopeEpisodesBySeason : Option ScopeEpisodes := none
  deriving DecidableEq, Repr

/-- What `grab` raises. `integrity` and `statement` are exceptions of the
    database, `client` one of the download client, and `cutShort` the end of a
    run that has no fuel left. -/
inductive GrabError where
  | noGrabSource (guid : String)
  | seasonRequired (requestId : Nat)
  | requestNotActive (requestId : Nat)
  | alreadyDownloading (requestId : Nat)
  | torrentRemovalInFlight (torrentHash : String)
  | torrentAlreadyTracked (torrentHash : String) (ownerRequestId : Option Nat)
  | grabError (title : String)
  | lookup (torrentHash : String)
  | integrity
  | statement
  | client
  | cutShort
  deriving DecidableEq, Repr

/-- A run of a part of `grab`. Its record is `actually_added`. -/
abbrev GrabRun (α : Type) := Run Op Ans GrabError Bool α

def call (op : Op) : GrabRun (Ans op) := Run.perform op

def StatementError.raised : StatementError → GrabError
  | .integrity => .integrity
  | .other => .statement

def settled {α : Type} (answer : Except StatementError α) : GrabRun α :=
  Run.ofExcept (answer.mapError StatementError.raised)

def answered {α : Type} (answer : Option α) : GrabRun α :=
  Run.ofExcept (answer.elim (.error .client) .ok)

/-! ### What is grabbed -/

def plannedTargetSeasons (scored : ScoredRelease) (season : Option Int) : List Int :=
  match season with
  | none => []
  | some season =>
      (if scored.targetSeasons.isEmpty then [season] else scored.targetSeasons).eraseDups

def activeGuardSeasons (scored : ScoredRelease) (season : Option Int) (targetSeasons : List Int) :
    List (Option Int) :=
  if scored.coveredSeasons.isEmpty then
    if targetSeasons.isEmpty then [season] else targetSeasons.map some
  else ((targetSeasons ++ scored.coveredSeasons).eraseDups).map some

def targetEpisodes (primarySeason : Int) (primaryEpisodes : Option (List Int))
    (scopeEpisodesBySeason : Option ScopeEpisodes) (targetSeason : Int) : Option (List Int) :=
  if targetSeason = primarySeason then primaryEpisodes
  else (scopeEpisodesBySeason.getD []).lookup targetSeason |>.join

structure TvGrab where
  requestId : Nat
  season : Int
  episodes : Option (List Int)
  scopeEpisodesBySeason : Option ScopeEpisodes
  targetSeasons : List Int
  guardSeasons : List (Option Int)
  observedSeasonStatus : Option RequestStatus

variable (d : Decision) (torrentHash : String) (fuel : Nat) (t : TvGrab) (g : Grabbed)

def TvGrab.episodesOf (targetSeason : Int) : Option (List Int) :=
  targetEpisodes t.season t.episodes t.scopeEpisodesBySeason targetSeason

/-- `TERMINAL_REQUEST_STATUS_VALUES`. -/
def terminalRequestStatuses : List RequestStatus :=
  [.completed, .available, .failed, .evicted, .cancelled]

/-- `_GRABBABLE_REQUEST_STATUS_VALUES`. -/
def grabbableRequestStatuses : List RequestStatus :=
  [.pending, .searching, .noAcceptableRelease, .waitingForAirDate, .downloading,
    .partiallyAvailable, .importBlocked]

/-- `_GRABBABLE_SEASON_STATUS_VALUES`. -/
def grabbableSeasonStatuses : List RequestStatus :=
  [.pending, .searching, .noAcceptableRelease, .waitingForAirDate, .downloading, .completed,
    .available, .partiallyAvailable, .failed, .importBlocked, .evicted]

/-- `_PACK_TARGET_SEASON_STATUS_VALUES`. -/
def packTargetSeasonStatuses : List RequestStatus :=
  [.pending, .searching, .noAcceptableRelease, .failed]

/-- `_SETTLED_TV_SEASON_STATUS_VALUES`. -/
def settledTvSeasonStatuses : List RequestStatus := [.available, .completed, .evicted]

def tvGrabBlockedByTerminalParent (parentStatus observedSeasonStatus : RequestStatus) : Bool :=
  parentStatus ∈ terminalRequestStatuses ∧
    ¬(parentStatus = .completed ∧ observedSeasonStatus ∉ settledTvSeasonStatuses)

def statusOf (rows : List SeasonRequest) (season : Int) : Option RequestStatus :=
  (rows.find? fun row => row.seasonNumber = season).map (·.status)

/-! ### Conflicts and claims -/

def activeConflictForTargets (requestId : Nat) (torrentHash : String) :
    List (Option Int) → GrabRun (Option Download)
  | [] => pure none
  | targetSeason :: rest => do
      let active ← call (.findActiveForRequest requestId targetSeason)
      if active.any fun d => d.torrentHash ≠ torrentHash then pure active
      else do
        let covered ← call (.findActiveCoverageOwner requestId targetSeason)
        if covered.any fun d => d.torrentHash ≠ torrentHash then pure covered
        else activeConflictForTargets requestId torrentHash rest

def claimCoveredSeasons (torrentHash : String) (requestId : Nat) :
    List (Option Int) → GrabRun Unit
  | [] => pure ()
  | none :: rest => claimCoveredSeasons torrentHash requestId rest
  | some season :: rest => do
      settled (← call (.ensureCoverageClaim torrentHash requestId season))
      claimCoveredSeasons torrentHash requestId rest

def removeTorrentIfAdded : GrabRun Unit := do
  if ← Run.record then call (.remove torrentHash) else pure ()

/-- What a lost race with another release comes to, once the transaction is
    rolled back: the torrent is removed and the grab refused. Without a
    conflict the grab goes on. -/
def refuseOnConflict (requestId : Nat) (guardSeasons : List (Option Int))
    (torrentHash : String) : GrabRun Unit := do
  let active ← activeConflictForTargets requestId torrentHash guardSeasons
  if active.isSome then do
    removeTorrentIfAdded torrentHash
    Run.raise (.alreadyDownloading requestId)
  else pure ()

/-! ### Joining a tracked row -/

def attachedTargetScopes (torrentHash : String) : GrabRun Bool := do
  let scopes ← call (.listScopes torrentHash)
  let rows ← call (.listSeasons t.requestId)
  pure <| t.targetSeasons.all fun targetSeason =>
    (scopes.any fun s =>
      s.mediaRequestId = some t.requestId && s.season = some targetSeason &&
        normalizeEpisodes s.episodes = normalizeEpisodes (t.episodesOf targetSeason) &&
        s.status.unresolved) &&
    statusOf rows targetSeason = some .downloading

def convergeOnSameHashOwner (owner : Download) : GrabRun Download := do
  if ← attachedTargetScopes t owner.torrentHash then pure owner
  else Run.raise (.requestNotActive t.requestId)

/-- The end of the removal that `_resolve_same_hash_owner` has reserved, with its
    `finally`. -/
def removeReserved (torrentHash : String) : GrabRun Download := do
  removeTorrentIfAdded torrentHash
  call (.releaseRemoval torrentHash)
  Run.raise (.requestNotActive t.requestId)

/-- `_resolve_same_hash_owner` from the reservation on. -/
def removeIfStillTerminal (torrentHash : String) : GrabRun Download := do
  call (.registerRemoval torrentHash)
  let stillTerminal ← call (.lockIfTerminal torrentHash)
  call .rollback
  if stillTerminal then removeReserved t torrentHash
  else do
    let reowned ← call (.getByHash torrentHash)
    match reowned with
    | none => removeReserved t torrentHash
    | some owner =>
        if owner.active then
          Run.tryCatch
            (do
              let owner ← convergeOnSameHashOwner t owner
              call (.releaseRemoval torrentHash)
              pure owner)
            fun e => do
              call (.releaseRemoval torrentHash)
              Run.raise e
        else removeReserved t torrentHash

def resolveSameHashOwner (torrentHash : String) : GrabRun Download := do
  let owner ← call (.getByHash torrentHash)
  match owner with
  | none => do
      removeTorrentIfAdded torrentHash
      Run.raise (.requestNotActive t.requestId)
  | some owner =>
      if owner.active then convergeOnSameHashOwner t owner
      else removeIfStillTerminal t torrentHash

/-- What became of an attempt to attach: the transaction is ready, or the call
    has its answer. -/
inductive Attachment where
  | ready
  | answered (record : Option Download)

/-- The loop of `_attach_target_scopes_to_existing_download` over the seasons. -/
def attachSeasons (t : TvGrab) (torrentHash : String) : List Int → GrabRun Attachment
  | [] => do
      claimCoveredSeasons torrentHash t.requestId t.guardSeasons
      pure .ready
  | targetSeason :: rest => do
      settled (← call (.ensureScope torrentHash t.requestId targetSeason
        (t.episodesOf targetSeason)))
      call (.ensureSeason t.requestId targetSeason)
      let allowedFrom :=
        if targetSeason = t.season then t.observedSeasonStatus.elim packTargetSeasonStatuses ([·])
        else packTargetSeasonStatuses
      let moved ← settled (← call (.setSeasonStatusIfIn t.requestId targetSeason allowedFrom))
      if moved then attachSeasons t torrentHash rest
      else do
        call .rollback
        let owner ← resolveSameHashOwner t torrentHash
        pure (.answered (some owner))

/-- The handler of an `IntegrityError` there, up to the recursive call. -/
def attachCollision (again : Download → GrabRun (Option Download))
    (torrentHash : String) : GrabRun Attachment := do
  call .rollback
  refuseOnConflict t.requestId t.guardSeasons torrentHash
  let record ← call (.getByHash torrentHash)
  match record with
  | none => Run.raise (.lookup torrentHash)
  | some record => do
      if ← attachedTargetScopes t record.torrentHash then pure (.answered (some record))
      else if record.active then do
        let answer ← again record
        pure (.answered answer)
      else pure (.answered none)

/-- The end of it, when the transaction is ready. -/
def finishAttachment : Attachment → GrabRun (Option Download)
  | .answered record => pure record
  | .ready => do
      call .commit
      let record ← call (.getByHash torrentHash)
      match record with
      | none => Run.raise (.lookup torrentHash)
      | some record => pure (some record)

/-- `_attach_target_scopes_to_existing_download`. -/
def attachTargetScopes (t : TvGrab) : Nat → Download → GrabRun (Option Download)
  | 0, _ => Run.raise .cutShort
  | fuel + 1, existing =>
      if existing.active then do
        let conflict ← activeConflictForTargets t.requestId existing.torrentHash t.guardSeasons
        if conflict.isSome then Run.raise (.alreadyDownloading t.requestId)
        else do
          if ← call (.lockIfActive existing.torrentHash) then do
            let outcome ← Run.tryCatch (attachSeasons t existing.torrentHash t.targetSeasons)
              fun e =>
                if e = .integrity then
                  attachCollision t (attachTargetScopes t fuel) existing.torrentHash
                else Run.raise e
            finishAttachment existing.torrentHash outcome
          else do
            call .rollback
            pure none
      else pure none

def scopeStillGrabbable : GrabRun Bool := do
  let request ← call (.getRequest t.requestId)
  match request with
  | none => pure false
  | some request =>
      if request.mediaType ≠ .tv then pure (request.status ∉ terminalRequestStatuses)
      else do
        let rows ← call (.listSeasons t.requestId)
        let status := (statusOf rows t.season).getD .pending
        pure <| status ≠ .cancelled && status ≠ .waitingForAirDate &&
          !tvGrabBlockedByTerminalParent request.status status

/-- `_refuse_unsafe_attachment_loss_recovery`. -/
def refuseUnsafeRecovery (torrentHash : String) : GrabRun Unit := do
  call .rollback
  if ← call .isBlocklisted then do
    call .rollback
    Run.raise (.requestNotActive t.requestId)
  else do
    if ← scopeStillGrabbable t then do
      call .rollback
      if ← call (.removalInFlight torrentHash) then
        Run.raise (.torrentRemovalInFlight torrentHash)
      else pure ()
    else do
      call .rollback
      Run.raise (.requestNotActive t.requestId)

/-- `_surviving_claim_after_attachment_loss`. -/
def dropClaimAfterAttachmentLoss (torrentHash : String) : GrabRun Unit := do
  refuseUnsafeRecovery t torrentHash
  let status ← answered (← call (.getStatus torrentHash))
  if status.isNone then Run.raise (.torrentRemovalInFlight torrentHash)
  else Run.modifyRecord fun _ => false

/-! ### Getting a row -/

/-- What a grab has decided before it asks the client. A grab for a movie, or
    for no request, attaches nothing. -/
structure Decision where
  args : GrabArgs
  source : String
  mediaType : Option MediaType
  observedRequestStatus : Option RequestStatus
  observedSeasonStatus : Option RequestStatus
  season : Option Int
  episodes : Option (List Int)

def Decision.targetSeasons : List Int :=
  plannedTargetSeasons d.args.scored d.season

def Decision.guardSeasons : List (Option Int) :=
  activeGuardSeasons d.args.scored d.season d.targetSeasons

/-- What there is to attach, if the grab is for a season of a request. -/
def Decision.tv : Option TvGrab :=
  match d.args.requestId, d.season with
  | some requestId, some season => some
      { requestId
        season
        episodes := d.episodes
        scopeEpisodesBySeason := d.args.scopeEpisodesBySeason
        targetSeasons := d.targetSeasons
        guardSeasons := d.guardSeasons
        observedSeasonStatus := d.observedSeasonStatus }
  | _, _ => none

def Decision.grabbed (payloadPending payloadResume payloadForceStart : Bool) : Grabbed :=
  { torrentHash
    mediaRequestId := d.args.requestId
    season := d.season
    episodes := d.episodes
    metadata :=
      { magnetLink := d.source
        tmdbId := d.args.tmdbId
        year := d.args.year
        mediaType := d.mediaType
        releaseTitle := d.args.scored.candidate.title
        payloadPending
        payloadResume
        payloadForceStart } }

/-- Whether the row of a hash belongs to a request other than the grab's. -/
def Decision.foreign (record : Download) : Bool :=
  d.args.requestId.isSome && record.mediaRequestId ≠ d.args.requestId

/-- How a grab came to a row: with a transaction to finish, or with an answer. -/
inductive Arrival where
  | claimed (record : Download)
  | answered (record : Download)

/-- Join a row that is tracked. It answers with a row, or with none when the row
    finished meanwhile, after `lost`. -/
def joinTracked (record : Download) (lost : TvGrab → GrabRun Unit) :
    GrabRun (Option Download) :=
  if d.foreign record then
    Run.raise (.torrentAlreadyTracked record.torrentHash record.mediaRequestId)
  else match d.tv with
    | none => pure (some record)
    | some t => do
        let attached ← attachTargetScopes t fuel record
        match attached with
        | some record => pure (some record)
        | none => do
            lost t
            pure none

/-- `_reuse_terminal_row`. It answers with the row and whether it was claimed. -/
def reuseTerminalRow : GrabRun (Download × Bool) := do
  if ← call (.removalInFlight g.torrentHash) then do
    removeTorrentIfAdded g.torrentHash
    Run.raise (.torrentRemovalInFlight g.torrentHash)
  else do
    let claimed ← settled (← call (.reuse g))
    if claimed then do
      let record ← call (.getByHash g.torrentHash)
      match record with
      | none => Run.raise (.lookup g.torrentHash)
      | some record => pure (record, true)
    else do
      call .rollback
      let record ← call (.getByHash g.torrentHash)
      match record with
      | none => Run.raise (.lookup g.torrentHash)
      | some record => pure (record, false)

/-- The loop around it. It differs between its two places in how an
    `IntegrityError` of the reuse is handled. -/
def reuseLoop (d : Decision) (g : Grabbed) (reuse : GrabRun (Download × Bool)) :
    Nat → GrabRun Arrival
  | 0 => Run.raise .cutShort
  | fuel + 1 => do
      let (record, claimed) ← reuse
      if claimed then pure (.claimed record)
      else if record.active then do
        let joined ← joinTracked d fuel record fun t => dropClaimAfterAttachmentLoss t g.torrentHash
        match joined with
        | some record => pure (.answered record)
        | none => reuseLoop d g reuse fuel
      else Run.raise (.torrentAlreadyTracked g.torrentHash record.mediaRequestId)

def giveWay : GrabRun Unit :=
  match d.args.requestId with
  | some requestId => refuseOnConflict requestId d.guardSeasons torrentHash
  | none => pure ()

/-- The handler of an `IntegrityError` that is raised again unless another
    release holds one of the seasons. -/
def onCollision {α : Type} (e : GrabError) : GrabRun α :=
  if e = .integrity then do
    call .rollback
    giveWay d torrentHash
    Run.raise .integrity
  else Run.raise e

def reuseRow : GrabRun Arrival :=
  Run.tryCatch (reuseLoop d g (reuseTerminalRow g) fuel) (onCollision d g.torrentHash)

def joinIfTracked (torrentHash : String) :
    Option Download → GrabRun (Option Download)
  | none => pure none
  | some record =>
      if record.active then
        joinTracked d fuel record fun t => dropClaimAfterAttachmentLoss t torrentHash
      else pure none

/-- Another grab created the row first: join it, or reuse it when it has
    finished. -/
def settleWithWinner (winner : Download) :
    GrabRun Arrival := do
  let joined ← joinIfTracked d fuel g.torrentHash (some winner)
  match joined with
  | some record => pure (.answered record)
  | none => reuseLoop d g (Run.tryCatch (reuseTerminalRow g) (onCollision d g.torrentHash)) fuel

def createRow : GrabRun Arrival :=
  Run.tryCatch
    (do
      let record ← settled (← call (.create g))
      pure (.claimed record))
    fun e =>
      if e = .integrity then do
        call .rollback
        giveWay d g.torrentHash
        let winner ← call (.getByHash g.torrentHash)
        match winner with
        | none => Run.raise .integrity
        | some winner => settleWithWinner d fuel g winner
      else Run.raise e

/-! ### The transaction of a row -/

def attachPackSeasons (t : TvGrab) (torrentHash : String) : List Int → GrabRun Unit
  | [] => claimCoveredSeasons torrentHash t.requestId t.guardSeasons
  | targetSeason :: rest =>
      if targetSeason = t.season then attachPackSeasons t torrentHash rest
      else do
        settled (← call (.ensureScope torrentHash t.requestId targetSeason
          (t.episodesOf targetSeason)))
        call (.ensureSeason t.requestId targetSeason)
        let moved ← settled (← call
          (.setSeasonStatusIfIn t.requestId targetSeason packTargetSeasonStatuses))
        if moved then attachPackSeasons t torrentHash rest
        else do
          call .rollback
          removeTorrentIfAdded torrentHash
          Run.raise (.requestNotActive t.requestId)

/-- Move what was grabbed to `downloading`, from the status that was observed. -/
def moveToDownloading : GrabRun Unit :=
  match d.args.requestId with
  | none => pure ()
  | some requestId => do
      match d.tv with
      | some t => do
          call (.ensureSeason requestId t.season)
          let moved ← settled (← call (.setSeasonStatusIfIn requestId t.season
            (d.observedSeasonStatus.elim grabbableSeasonStatuses ([·]))))
          if moved then
            Run.tryCatch (attachPackSeasons t torrentHash t.targetSeasons)
              (onCollision d torrentHash)
          else lose requestId
      | none => do
          let moved ← settled (← call (.setRequestStatusIfIn requestId
            (d.observedRequestStatus.elim grabbableRequestStatuses ([·]))))
          if moved then pure () else lose requestId
where
  lose (requestId : Nat) : GrabRun Unit := do
    call .rollback
    removeTorrentIfAdded torrentHash
    Run.raise (.requestNotActive requestId)

def finishGrab : Arrival → GrabRun Download
  | .answered record => pure record
  | .claimed record => do
      moveToDownloading d torrentHash
      call .commit
      let refreshed ← call (.getByHash torrentHash)
      pure (refreshed.getD record)

/-! ### The call -/

def isUnstartedHeldTorrent (status : DownloadStatus) (hasManifest : Bool) : Bool :=
  status.rawState.fetchingMetadata ||
    ((status.rawState = .stoppedDL || status.rawState = .pausedDL) && status.progress = 0 &&
      hasManifest)

/-- The manifest of a torrent counts only when it no longer fetches metadata. -/
def hasManifest (status : DownloadStatus) : GrabRun Bool :=
  if status.rawState.fetchingMetadata then pure false
  else do answered (← call (.listFiles torrentHash))

def heldOrphanIntent : GrabRun (Bool × Bool) := do
  let status ← answered (← call (.getStatus torrentHash))
  match status with
  | none => pure (false, false)
  | some status => do
      let manifest ← hasManifest torrentHash status
      if isUnstartedHeldTorrent status manifest then
        pure (true, status.forceStart || status.rawState = .forcedMetaDL)
      else pure (false, false)

/-- `payload_resume` and `payload_force_start`. -/
def payloadIntent (tracked : Bool) (added : AddResult) :
    GrabRun (Bool × Bool) :=
  if added.payloadPending && !added.created && !tracked then heldOrphanIntent torrentHash
  else pure (added.payloadPending && added.created, false)

/-- The gate: what the grab is decided on, read before anything is added. -/
def gate (a : GrabArgs) (source : String) : GrabRun Decision := do
  match a.requestId with
  | none => pure ⟨a, source, none, none, none, a.season, a.episodes⟩
  | some requestId => do
      let request ← call (.getRequest requestId)
      match request with
      | none => pure ⟨a, source, none, none, none, a.season, a.episodes⟩
      | some request =>
          match request.mediaType with
          | .tv => match a.season with
              | none => Run.raise (.seasonRequired requestId)
              | some season => do
                  let rows ← call (.listSeasons requestId)
                  let observed := (statusOf rows season).getD .pending
                  if observed = .cancelled || observed = .waitingForAirDate ||
                      (a.expectedSeasonStatus.any fun expected => observed ≠ expected) ||
                      tvGrabBlockedByTerminalParent request.status observed then
                    Run.raise (.requestNotActive requestId)
                  else pure ⟨a, source, some .tv, some request.status, some observed, a.season,
                    a.episodes⟩
          | .movie =>
              if request.status ∈ terminalRequestStatuses then
                Run.raise (.requestNotActive requestId)
              else pure ⟨a, source, some .movie, some request.status, none, none, none⟩

/-- The look at a hash that the indexer supplied. -/
def precheck (torrentHash : String) : GrabRun (Option Download) := do
  let pre ← call (.getByHash torrentHash)
  match pre with
  | none => pure none
  | some pre =>
      if pre.active then
        joinTracked d fuel pre fun t => refuseUnsafeRecovery t torrentHash
      else if ← call (.removalInFlight torrentHash) then
        Run.raise (.torrentRemovalInFlight torrentHash)
      else pure none

def guardParallelGrab : GrabRun Unit :=
  match d.args.requestId with
  | none => pure ()
  | some requestId => do
      let active ← activeConflictForTargets requestId torrentHash d.guardSeasons
      if active.isSome then Run.raise (.alreadyDownloading requestId) else pure ()

def settleKnownHash :
    Option String → GrabRun (Option Download)
  | none => pure none
  | some torrentHash => do
      let joined ← precheck d fuel torrentHash
      match joined with
      | some record => pure (some record)
      | none => do
          guardParallelGrab d torrentHash
          pure none

def claimRow (existing : Option Download) :
    GrabRun Arrival :=
  if existing.isSome then reuseRow d fuel g else createRow d fuel g

def trackTorrent (torrentHash : String) (added : AddResult) :
    GrabRun Download := do
  let existing ← call (.getByHash torrentHash)
  let joined ← joinIfTracked d fuel torrentHash existing
  match joined with
  | some record => pure record
  | none => do
      giveWay d torrentHash
      let intent ← payloadIntent torrentHash (existing.any Download.active) added
      let g := d.grabbed torrentHash added.payloadPending intent.1 intent.2
      let arrival ← claimRow d fuel g existing
      finishGrab d torrentHash arrival

def track (knownHash : Option String) (added : AddResult) :
    GrabRun Download := do
  Run.modifyRecord fun _ => added.created
  let torrentHash :=
    if added.torrentHash = "" then knownHash.getD "" else lower added.torrentHash
  if torrentHash = "" then Run.raise (.grabError d.args.scored.candidate.title)
  else trackTorrent d fuel torrentHash added

/-- `source`, where an empty magnet link counts as none. -/
def Candidate.source (c : Candidate) : Option String :=
  (c.magnetUrl.filter (· ≠ "")).or c.downloadUrl

def Candidate.knownHash (c : Candidate) : Option String :=
  c.infoHash.bind fun infoHash => if infoHash = "" then none else some (lower infoHash)

def grab (a : GrabArgs) : GrabRun Download := do
  match a.scored.candidate.source with
  | none => Run.raise (.noGrabSource a.scored.candidate.guid)
  | some source => do
      let d ← gate a source
      let joined ← settleKnownHash d fuel a.scored.candidate.knownHash
      match joined with
      | some record => pure record
      | none => do
          let added ← answered (← call (.add source))
          track d fuel a.scored.candidate.knownHash added

end Grab

end PlexManager
