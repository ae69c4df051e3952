import PlexManager.Core.Reconciler

/-!
# The stall detector

`detect_stalls` looks at the same rows and the same snapshot as `reconcile`, and
flags downloads that have been quiet for too long: the queue then removes the
torrent and blocklists the release. It goes by the raw state of the client, not
by the state `reconcile` maps it to, in three branches: metadata that does not
arrive, a torrent that never had any activity, and one whose activity is stale.

`download_deadline` is the time the queue shows for the same thing. It asks for
the mapped state before it looks at activity, and the detector does not. Times are in
microseconds, as far as a date goes; the client reports activity in whole seconds.
-/

namespace PlexManager

namespace Reconciler

open DownloadState

/-- `METADATA_STALL_WINDOW`: 45 minutes. -/
def metadataStallWindow : Int := 2700000000

/-- `STALLED_PROGRESS_WINDOW`: three hours. -/
def stalledProgressWindow : Int := 10800000000

/-- `raw_state in ("metaDL", "forcedMetaDL")`. -/
def RawState.fetchingMetadata : RawState → Bool
  | .metaDL | .forcedMetaDL => true
  | _ => false

/-- `_STALLED_PROGRESS_RAW_STATES`. -/
def RawState.stalledProgress : RawState → Bool
  | .downloading | .forcedDL | .stalledDL => true
  | _ => false

/-- `_DELIBERATELY_IDLE_RAW_STATES`. -/
def RawState.deliberatelyIdle : RawState → Bool
  | .pausedDL | .stoppedDL | .queuedDL | .checkingDL | .checkingResumeData | .moving => true
  | _ => false

/-- `_STALL_ELIGIBLE_STATUS_VALUES`. -/
def stallEligible : DownloadState → Bool
  | .downloading | .metadataFetching => true
  | _ => false

/-- What building a date raises for a time stamp beyond the calendar. -/
inductive DateError where
  | yearOutOfRange
  deriving DecidableEq, Repr

/-- `datetime.fromtimestamp`, up to the last second of the year 9999. -/
def fromtimestamp (unix : Int) : Except DateError Int :=
  if unix ≤ 253402300799 then .ok (1000000 * unix) else .error .yearOutOfRange

inductive StallShape where
  | metadataStall
  | stalledProgress
  deriving DecidableEq, Repr

structure StallDetection where
  downloadId : Nat
  torrentHash : String
  shape : StallShape
  deriving DecidableEq, Repr

def neverActive (status : DownloadStatus) : Bool :=
  !status.rawState.deliberatelyIdle && decide (status.lastActivityUnix ≤ 0) &&
    decide (status.progress ≤ 0)

def flag (row : DownloadRecord) (shape : StallShape) : StallDetection where
  downloadId := row.id
  torrentHash := row.torrentHash
  shape := shape

/-- The body of the loop of `detect_stalls`, from where a row has an entry in
    the snapshot and a time of its grab. -/
def detectLive (row : DownloadRecord) (status : DownloadStatus) (now metadataStall
    stalledProgress elapsed : Int) : Except DateError (Option StallDetection) :=
  if status.rawState.fetchingMetadata then
    .ok (if metadataStall ≤ elapsed then some (flag row .metadataStall) else none)
  else if neverActive status && decide (metadataStall ≤ elapsed) then
    .ok (some (flag row .metadataStall))
  else if elapsed < stalledProgress then .ok none
  else if status.rawState.stalledProgress && decide (0 < status.lastActivityUnix) then do
    let lastActivity ← fromtimestamp status.lastActivityUnix
    return if stalledProgress < now - lastActivity then some (flag row .stalledProgress) else none
  else .ok none

/-- What the detector makes of one row, the body of the loop of `detect_stalls`. -/
def detectStall (client : List DownloadStatus) (now metadataStall stalledProgress : Int)
    (row : DownloadRecord) : Except DateError (Option StallDetection) :=
  if !stallEligible row.status then .ok none
  else match row.addedAt, lookup client row.torrentHash with
    | some addedAt, some status =>
        detectLive row status now metadataStall stalledProgress (now - addedAt)
    | _, _ => .ok none

/-- `detect_stalls`: the loop over the rows. -/
def detectStalls (rows : List DownloadRecord) (client : List DownloadStatus)
    (now metadataStall stalledProgress : Int) : Except DateError (List StallDetection) :=
  rows.foldlM
    (fun detections row => do
      let found ← detectStall client now metadataStall stalledProgress row
      return detections ++ found.toList)
    []

/-- `download_deadline`. Where the sum is beyond the calendar, which the source raises for,
    it is given here: it is later than any `now`. -/
def downloadDeadline (status : DownloadStatus) (addedAt : Int) :
    Except DateError (Option Int) :=
  if status.rawState.fetchingMetadata then .ok (some (addedAt + metadataStallWindow))
  else if (rawStateMap status.rawState).getD .downloading ≠ .downloading then .ok none
  else if neverActive status then .ok (some (addedAt + metadataStallWindow))
  else if 0 < status.lastActivityUnix then do
    let lastActivity ← fromtimestamp status.lastActivityUnix
    return some (max addedAt lastActivity + stalledProgressWindow)
  else .ok (some (addedAt + stalledProgressWindow))

/-- No row's detection depends on another row. -/
theorem detectStalls_eq (rows : List DownloadRecord) (client : List DownloadStatus)
    (now metadataStall stalledProgress : Int) :
    detectStalls rows client now metadataStall stalledProgress =
      (rows.mapM (detectStall client now metadataStall stalledProgress)).map
        fun found => found.filterMap id := by
  have hfold : ∀ (rows : List DownloadRecord) (acc : List StallDetection), rows.foldlM
          (fun detections row => do
            let found ← detectStall client now metadataStall stalledProgress row
            return detections ++ found.toList)
          acc =
        (rows.mapM (detectStall client now metadataStall stalledProgress)).map
          fun found => acc ++ found.filterMap id := by
    intro rows
    induction rows with
    | nil =>
      simp [Except.map, pure, Except.pure]
    | cons row rows ih =>
      intro acc
      rw [List.foldlM_cons, List.mapM_cons]
      cases hrow : detectStall client now metadataStall stalledProgress row with
      | error e => rfl
      | ok found =>
        have hrest := ih (acc ++ found.toList)
        cases hall : rows.mapM (detectStall client now metadataStall stalledProgress) with
        | error e =>
          rw [hall] at hrest
          exact hrest
        | ok others =>
          rw [hall] at hrest
          refine Eq.trans hrest ?_
          cases found with
          | none | some d => simp [Except.map, bind, Except.bind, pure, Except.pure]
  exact hfold rows []

end Reconciler

end PlexManager
