import PlexManager.Core.Eviction.Ranking

/-!
# The victims of a pressure sweep

The two victim loops of `_run_sweep`, entered with a lease and past the crash recovery.
They share the disk reading, its percentage, the freed bytes that were counted and the
mark of a delete that could not be measured. What each victim meets is given by its place
in the ranking; what is done is logged, the latest first. Percentages are rational.
-/

namespace PlexManager

namespace EvictionRanking

structure DiskUsage where
  totalBytes : Int
  availableBytes : Int
  deriving DecidableEq

def usedPercent (usage : DiskUsage) : Rat :=
  if usage.totalBytes ≤ 0 then 0
  else (usage.totalBytes - usage.availableBytes : Int) / usage.totalBytes * 100

def pressureRelieved (usedPct : Rat) (freedBytes : Nat) (totalBytes : Int) (targetPct : Rat) :
    Bool :=
  decide (totalBytes ≤ 0) || decide (usedPct - freedBytes / totalBytes * 100 ≤ targetPct)

/-- What a victim meets: a defeated lease, the re-probe of the disk if there is one
    (`none` is an `OSError`), and then what `_evict_one` does. -/
structure Draw where
  leaseDefeated : Bool
  probe : Option DiskUsage
  /-- `outcome.freed_bytes`; `none` also for a victim that is deferred or fails. -/
  freedBytes : Option Nat
  /-- `note_unmeasured_free` was called. -/
  unmeasured : Bool

inductive Event
  | reading (usage : DiskUsage)
  | unreadable
  /-- `checked`: Drawn from the extra pool, or just after a delete without a measure. -/
  | attempt (candidate : EvictionCandidate) (checked : Bool)
  | freed (bytes : Nat)
  deriving DecidableEq

structure Accounting where
  disk : DiskUsage
  diskUsedPct : Rat
  freedBytesTotal : Nat := 0
  pressureStale : Bool := false
  log : List Event := []

namespace Accounting

def attempt (s : Accounting) (candidate : EvictionCandidate) (checked : Bool) (draw : Draw) :
    Accounting :=
  { s with
    freedBytesTotal := s.freedBytesTotal + draw.freedBytes.getD 0
    pressureStale := s.pressureStale || draw.unmeasured
    log := .freed (draw.freedBytes.getD 0) :: .attempt candidate checked :: s.log }

/-- `_reprobe_disk` as `_rebaseline` calls it: a failure keeps the old reading. -/
def reprobeDisk (s : Accounting) (draw : Draw) : Accounting :=
  match draw.probe with
  | some usage => { s with disk := usage, log := .reading usage :: s.log, pressureStale := false }
  | none => { s with log := .unreadable :: s.log, pressureStale := false }

/-- `_rebaseline` with a reading that can be used. -/
def restart (s : Accounting) : Accounting :=
  { s with diskUsedPct := usedPercent s.disk, freedBytesTotal := 0 }

end Accounting

variable (targetPct : Rat) (draws : Nat → Draw)

/-- `_rebaseline` and the check after it: `inl` leaves the loop. -/
def rebaselined (s : Accounting) (draw : Draw) : Accounting ⊕ Accounting :=
  let s := s.reprobeDisk draw
  if s.disk.totalBytes ≤ 0 then .inl s
  else if pressureRelieved s.restart.diskUsedPct 0 s.disk.totalBytes targetPct then .inl s.restart
  else .inr s.restart

/-- The loop over `selected`. -/
def selectedLoop : Nat → List EvictionCandidate → Accounting → Accounting
  | _, [], s => s
  | k, candidate :: rest, s =>
      if (draws k).leaseDefeated then s
      else if s.pressureStale && 0 < s.disk.totalBytes then
        match rebaselined targetPct s (draws k) with
        | .inl s => s
        | .inr s => selectedLoop (k + 1) rest (s.attempt candidate true (draws k))
      else selectedLoop (k + 1) rest (s.attempt candidate s.pressureStale (draws k))

/-- The loop over `extra_pool`. -/
def extraLoop : Nat → List EvictionCandidate → Accounting → Accounting
  | _, [], s => s
  | k, candidate :: rest, s =>
      if (draws k).leaseDefeated then s
      else if s.pressureStale then
        match rebaselined targetPct s (draws k) with
        | .inl s => s
        | .inr s => extraLoop (k + 1) rest (s.attempt candidate true (draws k))
      else if pressureRelieved s.diskUsedPct s.freedBytesTotal s.disk.totalBytes targetPct then s
      else extraLoop (k + 1) rest (s.attempt candidate true (draws k))

/-- `_run_sweep` for pressure, from its first disk reading. -/
def runSweep (candidates : List EvictionCandidate) (disk : DiskUsage) (thresholdPct : Rat)
    (graceCutoff : Int) : Accounting :=
  let s : Accounting := { disk := disk, diskUsedPct := usedPercent disk }
  if s.diskUsedPct < thresholdPct then s
  else
    let rankedAll := rankEvictionCandidates candidates graceCutoff
    let selected := selectEvictions candidates s.diskUsedPct thresholdPct targetPct graceCutoff
    let s := selectedLoop targetPct draws 0 selected s
    if 0 < s.disk.totalBytes then
      extraLoop targetPct draws selected.length (rankedAll.drop selected.length) s
    else s

end EvictionRanking

end PlexManager
