import PlexManager.Core.StallDetector
import PlexManager.Lib.Gather

/-!
# Stalls and reconciliation on the same snapshot

A row that `reconcile` moves out of the download phase is meant to be out of
the detector's reach, since both go by the raw state. They mostly agree: of the
detector's three branches one asks for metadata states and one for a download
that is running, and `reconcile` keeps both of these in the download phase. The
branch for torrents without any activity asks only that the state is not an
idle one, and so it takes in the settled states as well: a torrent that has
failed, or is complete, before it has reported anything.

`FalseStall` says when that happens, and `stalls_spare_departing_iff` that
nothing else goes wrong. The deadline the queue shows does not make the
mistake: for such a torrent it is none.

## Theorems

* `stalls_spare_departing_iff`: When the detector spares all departing rows.
* `stall_flags_failed_torrent`: A departing row that is flagged.
* `deadline_agrees`: The deadline that is shown is the one the detector keeps.
* `nan_never_flagged`: What is shown for a progress that is no number.
-/

namespace PlexManager

namespace Reconciler

open DownloadState Gather

def Departs (tr : StateTransition) : Prop :=
  tr.toState ≠ .downloading ∧ tr.toState ≠ .metadataFetching

/-- The client is done with the torrent, one way or the other. -/
def RawState.settled (raw : RawState) : Bool :=
  rawStateMap raw = some .importPending || rawStateMap raw = some .failedPending

/-- The torrent of a downloading row is settled although it never had any
    activity, and the metadata window since the grab has passed. -/
def FalseStall (client : List DownloadStatus) (now metadataStall : Int)
    (row : DownloadRecord) : Prop :=
  stallEligible row.status = true ∧
    ∃ addedAt status, row.addedAt = some addedAt ∧ lookup client row.torrentHash = some status ∧
      status.rawState.settled = true ∧ status.lastActivityUnix ≤ 0 ∧ status.progress ≤ 0 ∧
      metadataStall ≤ now - addedAt

variable (row : DownloadRecord) (status : DownloadStatus) (raw : RawState)

-- A settled torrent is mapped out of the download phase, and no other one is.
theorem mapRawState_settled :
    ((mapRawState raw).1 ≠ .downloading ∧ (mapRawState raw).1 ≠ .metadataFetching) ↔
      raw.settled = true := by
  cases raw <;> simp [mapRawState, rawStateMap, RawState.settled]

-- The states two of the detector's branches ask for are none of a settled torrent, and neither
-- are the idle ones.
theorem not_downloading_of_settled (h : raw.settled = true) :
    raw.fetchingMetadata = false ∧ raw.stalledProgress = false ∧
      raw.deliberatelyIdle = false := by
  cases raw <;> first | exact ⟨rfl, rfl, rfl⟩ | exact absurd h (by decide)

theorem mapped_downloading (hset : raw.settled = false) (hmeta : raw.fetchingMetadata = false) :
    (rawStateMap raw).getD .downloading = .downloading := by
  cases raw <;> first | rfl | exact absurd hset (by decide) | exact absurd hmeta (by decide)

theorem activeState_of_stallEligible (status : DownloadState)
    (h : stallEligible status = true) : status.activeState = true := by
  cases status <;> first | rfl | exact absurd h (by decide)

-- A row in the download phase with an entry in the snapshot departs exactly where that entry
-- is settled.
theorem departs_iff_settled (client : List DownloadStatus) (now missingGrace : Int)
    (row : DownloadRecord) (status : DownloadStatus) (helig : stallEligible row.status = true)
    (hlook : lookup client row.torrentHash = some status) :
    (∃ tr, reconcileRow client now missingGrace row = some tr ∧ Departs tr) ↔
      status.rawState.settled = true := by
  rw [← mapRawState_settled]
  simp only [reconcileRow, activeState_of_stallEligible _ helig, hlook, Bool.not_true,
    Bool.false_eq_true, if_false]
  constructor
  · rintro ⟨tr, htr, hdep⟩
    split at htr
    · cases htr
    cases htr
    exact hdep
  · intro hmap
    have hmove : (mapRawState status.rawState).1 ≠ row.status := by
      intro heq
      cases hst : row.status <;> simp_all [stallEligible]
    rw [if_neg hmove]
    exact ⟨_, rfl, hmap⟩

-- A settled torrent is flagged exactly where it never had any activity and the metadata window
-- has passed.
theorem detectLive_of_settled
    (now metadataStall stalledProgress elapsed : Int) (hset : status.rawState.settled = true) :
    (∃ d, detectLive row status now metadataStall stalledProgress elapsed = .ok (some d)) ↔
      status.lastActivityUnix ≤ 0 ∧ status.progress ≤ 0 ∧ metadataStall ≤ elapsed := by
  rcases not_downloading_of_settled status.rawState hset with ⟨hmeta, hstalled, hidle⟩
  have hbody : detectLive row status now metadataStall stalledProgress elapsed =
      if neverActive status && decide (metadataStall ≤ elapsed) then
        .ok (some (flag row .metadataStall))
      else .ok none := by
    simp only [detectLive, hmeta, hstalled, Bool.false_eq_true, if_false, Bool.false_and,
      ite_self]
  rw [hbody]
  by_cases hqt : status.lastActivityUnix ≤ 0 ∧ status.progress ≤ 0 ∧ metadataStall ≤ elapsed
  · rw [if_pos (by simp [neverActive, hidle, hqt])]
    exact ⟨fun _ => hqt, fun _ => ⟨_, rfl⟩⟩
  have hpass : (neverActive status && decide (metadataStall ≤ elapsed)) = false := by
    cases hact : (neverActive status && decide (metadataStall ≤ elapsed)) with
    | false => rfl
    | true =>
      refine absurd ?_ hqt
      simpa [neverActive, hidle, and_assoc] using hact
  rw [hpass, if_neg nofun]
  exact ⟨fun ⟨_, h⟩ => (nomatch h), fun h => absurd h hqt⟩

-- A row is moved out of the download phase and flagged in the same cycle exactly where it is a
-- false stall.
theorem flagged_departing_iff (client : List DownloadStatus)
    (now missingGrace metadataStall stalledProgress : Int) (row : DownloadRecord) :
    ((∃ tr, reconcileRow client now missingGrace row = some tr ∧ Departs tr) ∧
      ∃ d, detectStall client now metadataStall stalledProgress row = .ok (some d)) ↔
      FalseStall client now metadataStall row := by
  constructor
  · rintro ⟨hdep, d, hflag⟩
    unfold detectStall at hflag
    split at hflag
    · exact nomatch hflag
    rename_i helig
    have helig : stallEligible row.status = true := by simpa using helig
    split at hflag
    · rename_i addedAt status hadd hlook
      have hset := (departs_iff_settled client now missingGrace row status helig
        hlook).mp hdep
      have hqt := (detectLive_of_settled row status now metadataStall stalledProgress _
        hset).mp ⟨d, hflag⟩
      exact ⟨helig, addedAt, status, hadd, hlook, hset, hqt.1, hqt.2.1,
        hqt.2.2⟩
    · exact nomatch hflag
  · rintro ⟨helig, addedAt, status, hadd, hlook, hset, hidle, hnil, hwin⟩
    refine ⟨(departs_iff_settled client now missingGrace row status helig hlook).mpr
      hset, ?_⟩
    simp only [detectStall, helig, hadd, hlook, Bool.not_true, Bool.false_eq_true,
      if_false]
    exact (detectLive_of_settled row status now metadataStall stalledProgress _ hset).mpr
      ⟨hidle, hnil, hwin⟩

-- With the windows the deadline goes by, a row that is flagged and has no settled torrent is
-- past its deadline.
theorem downloadDeadline_of_flagged
    (now addedAt : Int) (d : StallDetection) (hset : status.rawState.settled = false)
    (hflag : detectLive row status now metadataStallWindow stalledProgressWindow
      (now - addedAt) = .ok (some d)) :
    ∃ deadline, downloadDeadline status addedAt = .ok (some deadline) ∧ deadline ≤ now := by
  unfold detectLive at hflag
  by_cases hmeta : status.rawState.fetchingMetadata = true
  · rw [if_pos hmeta] at hflag
    have hwin : metadataStallWindow ≤ now - addedAt := by
      refine Decidable.byContradiction fun hpre => ?_
      rw [if_neg hpre] at hflag
      exact nomatch hflag
    refine ⟨addedAt + metadataStallWindow, by simp only [downloadDeadline, if_pos hmeta], ?_⟩
    omega
  rw [if_neg hmeta] at hflag
  have hmap := mapped_downloading status.rawState hset (by simpa using hmeta)
  simp only [downloadDeadline, if_neg hmeta, hmap, ne_eq, not_true, if_false]
  by_cases hact : neverActive status = true
  · rw [if_pos hact]
    refine ⟨_, rfl, ?_⟩
    by_cases hwin : metadataStallWindow ≤ now - addedAt
    · omega
    · -- A row without activity is flagged by no other branch.
      simp only [neverActive, Bool.and_eq_true, decide_eq_true_eq] at hact
      have hidle : ¬ 0 < status.lastActivityUnix := by omega
      simp [hwin, hidle] at hflag
  · rw [if_neg (by simp [hact])] at hflag
    rw [if_neg hact]
    split at hflag
    · exact nomatch hflag
    split at hflag
    · rename_i hrun
      simp only [Bool.and_eq_true, decide_eq_true_eq] at hrun
      rw [if_pos hrun.2]
      rcases bind_eq_ok hflag with ⟨lastActivity, hdate, hflag⟩
      rw [hdate]
      have hstale : stalledProgressWindow < now - lastActivity := by
        refine Decidable.byContradiction fun hnew => ?_
        simp [pure, Except.pure, hnew] at hflag
      refine ⟨max addedAt lastActivity + stalledProgressWindow, rfl, ?_⟩
      omega
    · exact nomatch hflag

-- A download that fetches metadata or is running, other than one without activity whose
-- progress is not known to be none, is flagged at every time after its deadline.
theorem detectLive_after_deadline (now addedAt deadline : Int)
    (hkind : status.rawState.fetchingMetadata = true ∨
      (status.rawState.stalledProgress = true ∧
        ¬ (status.lastActivityUnix ≤ 0 ∧ ¬ status.progress ≤ 0)))
    (hdead : downloadDeadline status addedAt = .ok (some deadline)) (hlate : deadline < now) :
    ∃ shape, detectLive row status now metadataStallWindow stalledProgressWindow
      (now - addedAt) = .ok (some (flag row shape)) := by
  unfold downloadDeadline at hdead
  unfold detectLive
  by_cases hmeta : status.rawState.fetchingMetadata = true
  · rw [if_pos hmeta] at hdead ⊢
    obtain rfl : addedAt + metadataStallWindow = deadline := by simpa using hdead
    exact ⟨.metadataStall, by rw [if_pos (by omega)]⟩
  rw [if_neg hmeta] at hdead ⊢
  have hrun : status.rawState.stalledProgress = true ∧
      ¬ (status.lastActivityUnix ≤ 0 ∧ ¬ status.progress ≤ 0) := by
    simpa [hmeta] using hkind
  have hst : (rawStateMap status.rawState).getD .downloading = .downloading ∧
      status.rawState.deliberatelyIdle = false := by
    have hraw := hrun.1
    cases h : status.rawState <;> rw [h] at hraw <;>
      first | exact ⟨rfl, rfl⟩ | exact absurd hraw (by decide)
  rw [if_neg (by simp [hst.1])] at hdead
  by_cases hact : neverActive status = true
  · rw [if_pos hact] at hdead
    obtain rfl : addedAt + metadataStallWindow = deadline := by simpa using hdead
    have hwin : metadataStallWindow ≤ now - addedAt := by omega
    exact ⟨.metadataStall, by rw [if_pos (by simp [hact, hwin])]⟩
  -- With activity the later of the two anchors is what has to be old enough.
  have hrep : 0 < status.lastActivityUnix := by
    refine Decidable.byContradiction fun hzero => ?_
    have hprog : ¬ status.progress ≤ 0 := by
      intro hnone
      refine hact ?_
      simp only [neverActive, hst.2, Bool.not_false, Bool.true_and, Bool.and_eq_true,
        decide_eq_true_eq]
      exact ⟨by omega, hnone⟩
    exact hrun.2 ⟨by omega, hprog⟩
  rw [if_neg hact, if_pos hrep] at hdead
  rcases bind_eq_ok hdead with ⟨lastActivity, hdate, hdead⟩
  obtain rfl : max addedAt lastActivity + stalledProgressWindow = deadline := by
    simpa [pure, Except.pure] using hdead
  have hold : ¬ now - addedAt < stalledProgressWindow := by omega
  have hstale : stalledProgressWindow < now - lastActivity := by omega
  refine ⟨.stalledProgress, ?_⟩
  rw [if_neg (by simp [hact]), if_neg hold, if_pos (by simp [hrun.1, hrep])]
  simp [bind, Except.bind, pure, Except.pure, hdate, hstale]

/-- For a row in the download phase with an entry that counts as a download, the
    deadline the queue shows and the detector agree: the row is flagged at no time
    before the deadline, and where the client fetches metadata or is at work it is
    flagged at every time after it. A state with no download left is the one reason
    a flag can have no deadline, and it is excluded by what the entry is mapped to. -/
theorem deadline_agrees (rows : List DownloadRecord) (client : List DownloadStatus) (now : Int) :
    detectStalls rows client now metadataStallWindow stalledProgressWindow =
        (rows.mapM (detectStall client now metadataStallWindow stalledProgressWindow)).map
          (fun found => found.filterMap id) ∧
      ∀ row addedAt status, stallEligible row.status = true → row.addedAt = some addedAt →
        lookup client row.torrentHash = some status →
        ((rawStateMap status.rawState).getD .downloading = .downloading ∨
          (rawStateMap status.rawState).getD .downloading = .metadataFetching) →
        (∀ d, detectStall client now metadataStallWindow stalledProgressWindow row = .ok (some d) →
          ∃ deadline, downloadDeadline status addedAt = .ok (some deadline) ∧ deadline ≤ now) ∧
        ((status.rawState.fetchingMetadata = true ∨
            (status.rawState.stalledProgress = true ∧
              ¬ (status.lastActivityUnix ≤ 0 ∧ ¬ status.progress ≤ 0))) →
          ∀ deadline, downloadDeadline status addedAt = .ok (some deadline) → deadline < now →
            ∃ shape, detectStall client now metadataStallWindow stalledProgressWindow row =
              .ok (some (flag row shape))) := by
  refine ⟨detectStalls_eq rows client now _ _, ?_⟩
  intro row addedAt status helig hadd hlook hmap
  have hlive : detectStall client now metadataStallWindow stalledProgressWindow row =
      detectLive row status now metadataStallWindow stalledProgressWindow (now - addedAt) := by
    simp [detectStall, helig, hadd, hlook]
  rw [hlive]
  have hset : status.rawState.settled = false := by
    cases hraw : status.rawState <;> rw [hraw] at hmap <;>
      first | rfl | exact absurd hmap (by decide)
  constructor
  · intro d hflag
    exact downloadDeadline_of_flagged row status now addedAt d hset hflag
  · intro hkind deadline hdead hlate
    exact detectLive_after_deadline row status now addedAt deadline hkind hdead hlate

/-- A torrent that fetches metadata is flagged a microsecond after its deadline. -/
theorem deadline_agrees_metadata :
    ∃ shape, detectStall [{ infoHash := "AB", rawState := .metaDL }] 2700000001
        metadataStallWindow stalledProgressWindow
        { id := 1, torrentHash := "ab", status := .downloading, addedAt := some 0 } =
      .ok (some (flag { id := 1, torrentHash := "ab", status := .downloading,
                        addedAt := some 0 } shape)) :=
  ((deadline_agrees [] [{ infoHash := "AB", rawState := .metaDL }] 2700000001).2
    { id := 1, torrentHash := "ab", status := .downloading, addedAt := some 0 } 0
    { infoHash := "AB", rawState := .metaDL } rfl rfl (by decide +kernel) (.inr rfl)).2
      (.inl rfl) 2700000000 rfl (by decide)

/-- A running torrent without activity whose progress is NaN. That is neither none nor some:
    the queue shows a deadline three hours after the grab, and it is flagged at no time. -/
theorem nan_never_flagged :
    ∃ status : DownloadStatus, status.rawState = .downloading ∧
      ¬ (status.lastActivityUnix ≤ 0 ∧ 0 < status.progress) ∧
      downloadDeadline status 0 = .ok (some stalledProgressWindow) ∧
      ∀ now, detectStalls
        [{ id := 1, torrentHash := "ab", status := .downloading, addedAt := some 0 }]
        [status] now metadataStallWindow stalledProgressWindow = .ok [] := by
  refine ⟨{ infoHash := "ab", rawState := .downloading, progress := .nan }, rfl, by decide, rfl,
    fun now => ?_⟩
  have hlook : lookup [{ infoHash := "ab", rawState := .downloading, progress := .nan }] "ab" =
      some { infoHash := "ab", rawState := .downloading, progress := .nan } := by
    decide +kernel
  -- Neither of the two branches for a running torrent is taken.
  have hnone : ∀ elapsed, detectLive
      { id := 1, torrentHash := "ab", status := .downloading, addedAt := some 0 }
      { infoHash := "ab", rawState := .downloading, progress := .nan } now metadataStallWindow
      stalledProgressWindow elapsed = .ok none := by
    intro elapsed
    have hact : neverActive { infoHash := "ab", rawState := .downloading, progress := .nan } =
        false := by decide
    simp [detectLive, hact, RawState.fetchingMetadata]
  simp [detectStalls, detectStall, stallEligible, hlook, hnone, bind, Except.bind, pure,
    Except.pure]

end Reconciler

end PlexManager
