import PlexManager.Core.DownloadState

/-!
# Retries of an import that cannot be verified

A pass of `import_download` over one row of `downloads` and what other writers do to it
between two passes. Passes over one row are serialized, and a row that another writer
took out of `importing` meanwhile is left as it is, so a pass is one step. Of a pass the
status counts that it leaves, and whether the media probe was reached and could answer.
-/

namespace PlexManager

namespace ProbeRetries

/-- `_PROBE_OUTAGE_MAX_RETRIES`. -/
def maxRetries : Nat := 20

structure Row where
  status : DownloadState
  retryCount : Nat
  deriving DecidableEq

/-- How a pass goes; `left` is the status that it leaves, with `none` for the one it
    found. It can also be cut by a crash, or keep a row `importing` for a late scope. -/
inductive Pass
  /-- It ends before the probe: a deferral, a block or a crash. -/
  | unprobed (left : Option DownloadState)
  /-- The probe is not available for the candidates. -/
  | outage
  /-- The probe answered, and the rest of the pass went on from there. -/
  | probed (left : Option DownloadState)
  deriving DecidableEq

inductive Event
  | import (pass : Pass)
  /-- Another writer moves the row: the reconciler, a mark-failed, a correction. -/
  | move (left : DownloadState)
  /-- `grab_service._reuse_terminal_row`. -/
  | reuse
  deriving DecidableEq

def resumable : DownloadState → Bool
  | .importPending | .importBlocked | .importing => true
  | _ => false

variable (row : Row)

/-- The compare-and-swap of `_block`. -/
def block : Row :=
  if resumable row.status then { row with status := .importBlocked } else row

def refreshResumedImport (current : Row) : Row :=
  if current.status ≠ .importing then current
  else
    let incremented := { current with retryCount := current.retryCount + 1 }
    if maxRetries < current.retryCount + 1 then block incremented else incremented

def importPass (pass : Pass) : Row :=
  if !resumable row.status then row
  else
    match pass with
    | .unprobed none | .probed none => row
    -- Only the claim after the probe enters `importing`.
    | .unprobed (some left) => if left = .importing then row else { row with status := left }
    | .probed (some left) => { row with status := left }
    | .outage => if row.status = .importing then refreshResumedImport row else block row

def step : Event → Row
  | .import pass => importPass row pass
  | .move left => if left = .importing then row else { row with status := left }
  | .reuse => if row.status.terminalState then ⟨.downloading, 0⟩ else row

def run (events : List Event) : Row := events.foldl step row

end ProbeRetries

end PlexManager
