import PlexManager.Core.Eviction.Victims

/-!
# Where the pressure sweep forgets what it freed

The freed total is what has been measured since the reading in use, as long as a re-probe
that fails finds nothing measured: such a re-probe keeps the old reading and still starts
the total at zero. Where it never forgets, the sweep draws no checked victim once the
measured bytes are enough.

## Theorems

* `runSweep_frugal`: A sweep that forgets nothing takes no victim too many.
* `runSweep_forgets`: A sweep that does.
-/

namespace PlexManager

namespace EvictionRanking

/-- The last reading of the log, the latest event first. -/
def reading (first : DiskUsage) : List Event → DiskUsage
  | [] => first
  | .reading usage :: _ => usage
  | .unreadable :: log | .attempt _ _ :: log | .freed _ :: log => reading first log

/-- The bytes that were measured since that reading. -/
def measured : List Event → Nat
  | [] | .reading _ :: _ => 0
  | .freed bytes :: log => bytes + measured log
  | .unreadable :: log | .attempt _ _ :: log => measured log

/-- The bytes bring the usage of a readable disk to the target or below it. -/
def Enough (targetPct : Rat) (usage : DiskUsage) (bytes : Nat) : Prop :=
  0 < usage.totalBytes ∧ usedPercent usage - bytes / usage.totalBytes * 100 ≤ targetPct

def Frugal (targetPct : Rat) (first : DiskUsage) : List Event → Prop
  | [] => True
  | .attempt _ true :: log =>
      ¬ Enough targetPct (reading first log) (measured log) ∧ Frugal targetPct first log
  | .attempt _ false :: log | .reading _ :: log | .unreadable :: log | .freed _ :: log =>
      Frugal targetPct first log

def Remembers : List Event → Prop
  | [] => True
  | .unreadable :: log => measured log = 0 ∧ Remembers log
  | .attempt _ _ :: log | .reading _ :: log | .freed _ :: log => Remembers log

/-- The variables against the log: on a readable disk they are those of the reading in
    use, and the freed total is what was measured since. -/
structure Tracks (targetPct : Rat) (first : DiskUsage) (s : Accounting) : Prop where
  disk : s.disk = reading first s.log
  usedPct : 0 < s.disk.totalBytes → s.diskUsedPct = usedPercent s.disk
  total : 0 < s.disk.totalBytes → Remembers s.log → s.freedBytesTotal = measured s.log
  frugal : Remembers s.log → Frugal targetPct first s.log

variable {targetPct : Rat} {draws : Nat → Draw} {first : DiskUsage} {s : Accounting}

section

variable (h : Tracks targetPct first s)
include h

theorem Tracks.not_enough (hlog : Remembers s.log)
    (hchk : pressureRelieved s.diskUsedPct s.freedBytesTotal s.disk.totalBytes targetPct = false) :
    ¬ Enough targetPct (reading first s.log) (measured s.log) := by
  intro henough
  rw [← h.disk] at henough
  have hpos := henough.1
  rw [h.usedPct hpos, h.total hpos hlog, pressureRelieved, Bool.or_eq_false_iff] at hchk
  exact of_decide_eq_false hchk.2 henough.2

theorem Tracks.attempt (candidate : EvictionCandidate) (checked : Bool) (draw : Draw)
    (hdrawn : Remembers s.log → checked = true →
      ¬ Enough targetPct (reading first s.log) (measured s.log)) :
    Tracks targetPct first (s.attempt candidate checked draw) where
  disk := h.disk
  usedPct := h.usedPct
  total hpos hlog := by
    have htotal := h.total hpos hlog
    simp only [Accounting.attempt, measured]
    omega
  frugal hlog := by
    cases checked with
    | true => exact ⟨hdrawn hlog rfl, h.frugal hlog⟩
    | false => exact h.frugal hlog

theorem Tracks.reprobed (draw : Draw) :
    (s.reprobeDisk draw).disk = reading first (s.reprobeDisk draw).log ∧
      (Remembers (s.reprobeDisk draw).log → measured (s.reprobeDisk draw).log = 0 ∧
        Frugal targetPct first (s.reprobeDisk draw).log) := by
  unfold Accounting.reprobeDisk
  cases draw.probe with
  | some usage => exact ⟨rfl, fun hlog => ⟨rfl, h.frugal hlog⟩⟩
  | none => exact ⟨h.disk, fun hlog => ⟨hlog.1, h.frugal hlog.2⟩⟩

-- After a re-baseline the loop goes on only where not enough is freed.
theorem Tracks.rebaselined (draw : Draw) :
    match rebaselined targetPct s draw with
    | .inl s' => Tracks targetPct first s'
    | .inr s' => Tracks targetPct first s' ∧
        (Remembers s'.log → ¬ Enough targetPct (reading first s'.log) (measured s'.log)) := by
  rcases h.reprobed draw with ⟨hdisk, hprobe⟩
  have hrst : Tracks targetPct first (s.reprobeDisk draw).restart :=
    ⟨hdisk, fun _ => rfl, fun _ hlog => (hprobe hlog).1.symm, fun hlog => (hprobe hlog).2⟩
  unfold EvictionRanking.rebaselined
  by_cases hnil : (s.reprobeDisk draw).disk.totalBytes ≤ 0
  · simp only [if_pos hnil]
    -- An unusable reading ends the sweep, and nothing is asked of its percentage.
    exact ⟨hdisk, fun hpos => absurd hpos (by omega), fun hpos => absurd hpos (by omega),
      fun hlog => (hprobe hlog).2⟩
  · simp only [if_neg hnil]
    by_cases hchk : pressureRelieved (s.reprobeDisk draw).restart.diskUsedPct 0
        (s.reprobeDisk draw).disk.totalBytes targetPct = true
    · simpa only [if_pos hchk] using hrst
    · simp only [if_neg hchk]
      exact ⟨hrst, fun hlog => hrst.not_enough hlog (Bool.eq_false_iff.mpr hchk)⟩

end

theorem tracks_selectedLoop (k : Nat) (selected : List EvictionCandidate)
    (h : Tracks targetPct first s) :
    Tracks targetPct first (selectedLoop targetPct draws k selected s) := by
  induction selected generalizing k s with
  | nil => exact h
  | cons candidate rest ih =>
    rw [selectedLoop]
    by_cases hls : (draws k).leaseDefeated = true
    · rw [if_pos hls]
      exact h
    rw [if_neg hls]
    by_cases hstale : (s.pressureStale && 0 < s.disk.totalBytes) = true
    · rw [if_pos hstale]
      -- the reading is drawn anew, and may end the loop
      have hnext := h.rebaselined (draws k)
      cases hres : rebaselined targetPct s (draws k) with
      | inl s' => rwa [hres] at hnext
      | inr s' =>
        rw [hres] at hnext
        exact ih _ (hnext.1.attempt _ _ _ fun hlog _ => hnext.2 hlog)
    · rw [if_neg hstale]
      refine ih _ (h.attempt _ _ _ fun _ hchk henough => hstale ?_)
      rw [← h.disk] at henough
      rw [hchk, decide_eq_true henough.1, Bool.and_self]

theorem tracks_extraLoop (k : Nat) (extraPool : List EvictionCandidate)
    (h : Tracks targetPct first s) :
    Tracks targetPct first (extraLoop targetPct draws k extraPool s) := by
  induction extraPool generalizing k s with
  | nil => exact h
  | cons candidate rest ih =>
    rw [extraLoop]
    by_cases hls : (draws k).leaseDefeated = true
    · rw [if_pos hls]
      exact h
    rw [if_neg hls]
    by_cases hstale : s.pressureStale = true
    · rw [if_pos hstale]
      have hnext := h.rebaselined (draws k)
      cases hres : rebaselined targetPct s (draws k) with
      | inl s' => rwa [hres] at hnext
      | inr s' =>
        rw [hres] at hnext
        exact ih _ (hnext.1.attempt _ _ _ fun hlog _ => hnext.2 hlog)
    · rw [if_neg hstale]
      by_cases hchk : pressureRelieved s.diskUsedPct s.freedBytesTotal s.disk.totalBytes
          targetPct = true
      · rw [if_pos hchk]
        exact h
      · rw [if_neg hchk]
        exact ih _ (h.attempt _ _ _ fun hlog _ =>
          h.not_enough hlog (Bool.eq_false_iff.mpr hchk))

/-- The usage of a disk of 100 bytes is to come from 90 down to 80 percent. -/
def fullDisk : DiskUsage := ⟨100, 10⟩

def watchedTitle (requestId : Nat) (sizePercent : Rat) : EvictionCandidate where
  requestId
  status := .available
  watched := true
  lastViewedAt := some requestId
  keepForever := false
  inFlight := false
  sizePercent := some sizePercent

/-- Four titles, the stalest first. -/
def watchedTitles : List EvictionCandidate :=
  [watchedTitle 1 6, watchedTitle 2 3, watchedTitle 3 6, watchedTitle 4 6]

theorem rank_watchedTitles : rankEvictionCandidates watchedTitles 100 = watchedTitles := by
  rw [rankEvictionCandidates, List.mergeSort_of_pairwise (by decide +kernel)]
  decide +kernel

/-- A sweep whose failed re-probes find nothing measured since the reading they keep draws
    no victim of the extra pool, and none of the selected ones just after a delete without
    a measure, once the bytes measured since the reading in use reach the target. -/
theorem runSweep_frugal (targetPct : Rat) (draws : Nat → Draw) (candidates : List EvictionCandidate)
    (disk : DiskUsage) (thresholdPct : Rat) (graceCutoff : Int)
    (h : Remembers (runSweep targetPct draws candidates disk thresholdPct graceCutoff).log) :
    Frugal targetPct disk
      (runSweep targetPct draws candidates disk thresholdPct graceCutoff).log := by
  have hfst : Tracks targetPct disk { disk := disk, diskUsedPct := usedPercent disk } :=
    ⟨rfl, fun _ => rfl, fun _ _ => rfl, fun _ => trivial⟩
  refine Tracks.frugal (s := runSweep targetPct draws candidates disk thresholdPct graceCutoff) ?_ h
  rw [runSweep]
  split
  · exact hfst
  · dsimp only
    split
    · exact tracks_extraLoop _ _ (tracks_selectedLoop _ _ hfst)
    · exact tracks_selectedLoop _ _ hfst

/-- The first victim is deleted in part, and then the disk cannot be read. -/
theorem runSweep_frugal_unreadable :
    Frugal 80 fullDisk (runSweep 80 (fun k => ⟨false, none, none, k = 0⟩)
      watchedTitles fullDisk 85 100).log := by
  have hlog : (runSweep 80 (fun k => ⟨false, none, none, k = 0⟩)
      watchedTitles fullDisk 85 100).log =
        [.freed 0, .attempt (watchedTitle 4 6) true, .freed 0, .attempt (watchedTitle 3 6) false,
          .freed 0, .attempt (watchedTitle 2 3) true, .unreadable, .freed 0,
          .attempt (watchedTitle 1 6) false] := by
    rw [runSweep, selectEvictions, rank_watchedTitles]
    decide +kernel
  refine runSweep_frugal _ _ _ _ _ _ ?_
  rw [hlog]
  exact ⟨rfl, trivial⟩

/-- The second of three selected victims is deleted in part, and the disk cannot be read
    after it: the six bytes of the first are forgotten. With the six of the third the
    target is reached, and a fourth victim is taken from the extra pool. -/
theorem runSweep_forgets :
    ¬ Frugal 80 fullDisk (runSweep 80 (fun k => ⟨false, none, if k = 1 then none else some 6,
      k = 1⟩)
      watchedTitles fullDisk 85 100).log := by
  have hlog : (runSweep 80 (fun k => ⟨false, none, if k = 1 then none else some 6, k = 1⟩)
      watchedTitles fullDisk 85 100).log =
        [.freed 6, .attempt (watchedTitle 4 6) true, .freed 6, .attempt (watchedTitle 3 6) true,
          .unreadable, .freed 0, .attempt (watchedTitle 2 3) false, .freed 6,
          .attempt (watchedTitle 1 6) false] := by
    rw [runSweep, selectEvictions, rank_watchedTitles]
    decide +kernel
  rw [hlog]
  exact fun h => h.1 ⟨by decide, by decide +kernel⟩

end EvictionRanking

end PlexManager
