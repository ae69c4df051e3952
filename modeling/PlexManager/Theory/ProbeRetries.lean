import PlexManager.Core.ProbeRetries

/-!
# What the retry count counts

The count goes up with each outage that a resumed row meets, and only a new grab of the
row sets it back: an answer of the probe does not. Where no such answer leaves a row
`importing` with a count, the count of an `importing` row is the number of its resumed
attempts since the probe last answered, and the row is blocked by the one that exceeds
the limit. Elsewhere it can be blocked by the first.

## Main definitions

* `outages`: The resumed attempts since the probe last answered.
* `Restarts`: No answer leaves an `importing` row with a count.

## Theorems

* `blocked_iff`: When an outage blocks a row.
* `blocked_by_one`: A row that one outage blocks.
-/

namespace PlexManager

namespace ProbeRetries

/-- The outages that resumed attempts met in a row, after one more event. -/
def outagesAfter (n : Nat) (row : Row) : Event → Nat
  | .import .outage => if row.status = .importing then n + 1 else n
  | .import (.probed _) => if resumable row.status then 0 else n
  | _ => n

def outages : Nat → Row → List Event → Nat
  | n, _, [] => n
  | n, row, event :: events => outages (outagesAfter n row event) (step row event) events

/-- An answer of the probe leaves the row `importing` only if nothing was counted. -/
def Kept (row : Row) (event : Event) : Prop :=
  ∀ left, event = .import (.probed left) → (step row event).status = .importing →
    row.retryCount = 0

def Restarts : Row → List Event → Prop
  | _, [] => True
  | row, event :: events => Kept row event ∧ Restarts (step row event) events

/-- The count of a row that is resumed, and that it is still within the limit. -/
def Counted (n : Nat) (row : Row) : Prop :=
  row.status = .importing → row.retryCount = n ∧ n ≤ maxRetries

variable {n : Nat} {row : Row}

-- An outage of a resumed row blocks it, or is counted.
theorem step_outage (h : Counted n row) (hres : row.status = .importing) :
    step row (.import .outage) =
      ⟨if maxRetries < n + 1 then .importBlocked else .importing, n + 1⟩ := by
  have hcnt := (h hres).1
  simp only [step, importPass, refreshResumedImport, hres, hcnt]
  by_cases hlim : maxRetries < n + 1
  · simp [hlim, block, resumable]
  · simp [hlim, resumable]

theorem Counted.step (h : Counted n row) (event : Event) (hkept : Kept row event) :
    Counted (outagesAfter n row event) (ProbeRetries.step row event) := by
  intro himp
  cases event with
  | move left =>
    simp only [ProbeRetries.step] at himp ⊢
    split at himp
    · next hto => simpa [hto, outagesAfter] using h himp
    · next hto => exact absurd himp hto
  | reuse =>
    simp only [ProbeRetries.step] at himp ⊢
    split at himp
    · exact nomatch himp
    next hact => simpa [hact, outagesAfter] using h himp
  | «import» pass =>
    cases pass with
    | outage =>
      by_cases hres : row.status = .importing
      · have hstep := step_outage h hres
        rw [hstep] at himp ⊢
        by_cases hlim : maxRetries < n + 1
        · simp [hlim] at himp
        · simp only [outagesAfter, hres, if_true, true_and]
          omega
      · simp only [ProbeRetries.step, importPass, block, hres, if_false] at himp
        split at himp
        · exact absurd himp hres
        split at himp
        · exact nomatch himp
        exact absurd himp hres
    | probed left =>
      -- An answer sets the number back, and finds nothing counted.
      have hzero := hkept left rfl himp
      cases hresumable : resumable row.status with
      | true =>
        simp only [ProbeRetries.step, importPass, hresumable, outagesAfter, if_true]
        cases left <;> exact ⟨hzero, Nat.zero_le _⟩
      | false =>
        simp only [ProbeRetries.step, importPass, hresumable, Bool.not_false, if_true] at himp
        rw [himp] at hresumable
        exact nomatch hresumable
    | unprobed left =>
      have hsame : ProbeRetries.step row (.import (.unprobed left)) = row := by
        simp only [ProbeRetries.step, importPass] at himp ⊢
        split at himp
        · next hnot => rw [if_pos hnot]
        next hresumable =>
        rw [if_neg hresumable]
        cases left with
        | none => rfl
        | some left =>
          dsimp only at himp ⊢
          split at himp
          · next hleft => rw [if_pos hleft]
          · next hleft => exact absurd himp hleft
      rw [hsame] at himp ⊢
      exact h himp

theorem Counted.run (events : List Event) (h : Counted n row) (hrst : Restarts row events) :
    Counted (outages n row events) (ProbeRetries.run row events) := by
  induction events generalizing n row with
  | nil => exact h
  | cons event events ih => exact ih (h.step event hrst.1) hrst.2

/-- After any run of a new row in which no answer of the probe leaves the row `importing`
    with a count, a row that is `importing` is blocked by an outage exactly when it is the
    one past the limit in a row, is `importing` still when it is not, and has met no more
    than the limit so far. -/
theorem blocked_iff (events : List Event) (hrestarts : Restarts ⟨.downloading, 0⟩ events)
    (hresumed : (run ⟨.downloading, 0⟩ events).status = .importing) :
    let inARow := outages 0 ⟨.downloading, 0⟩ (events ++ [.import .outage])
    let next := run ⟨.downloading, 0⟩ (events ++ [.import .outage])
    inARow = outages 0 ⟨.downloading, 0⟩ events + 1 ∧
      (next.status = .importBlocked ↔ maxRetries + 1 ≤ inARow) ∧
      (next.status = .importing ↔ inARow ≤ maxRetries) ∧
      outages 0 ⟨.downloading, 0⟩ events ≤ maxRetries := by
  have hcnt : Counted 0 ⟨.downloading, 0⟩ := nofun
  have hrun := hcnt.run events hrestarts
  -- The outages in a row up to the last pass, and then this one.
  have hlast (n : Nat) (row : Row) : outages n row (events ++ [.import .outage]) =
      outagesAfter (outages n row events) (run row events) (.import .outage) := by
    clear hrestarts hresumed hrun
    induction events generalizing n row with
    | nil => rfl
    | cons event events ih => exact ih (outagesAfter n row event) (step row event)
  have hnext : run ⟨.downloading, 0⟩ (events ++ [.import .outage]) =
      step (run ⟨.downloading, 0⟩ events) (.import .outage) := by
    rw [run, List.foldl_append]
    rfl
  dsimp only
  rw [hlast, hnext, step_outage hrun hresumed, outagesAfter, if_pos hresumed]
  refine ⟨rfl, ?_, ?_, (hrun hresumed).2⟩
  · by_cases hlim : maxRetries < outages 0 ⟨.downloading, 0⟩ events + 1 <;> simp [hlim] <;> omega
  · by_cases hlim : maxRetries < outages 0 ⟨.downloading, 0⟩ events + 1 <;> simp [hlim] <;> omega

/-- A crash after the claim, and then one outage. -/
theorem blocked_iff_resumed :
    (run ⟨.downloading, 0⟩ ([.move .importPending, .import (.probed (some .importing))] ++
      [.import .outage])).status = .importing :=
  (blocked_iff [.move .importPending, .import (.probed (some .importing))]
    ⟨nofun, fun _ _ _ => rfl, trivial⟩ rfl).2.2.1.mpr (by decide)

/-- Twenty outages, then an answer and a late scope that keeps the row `importing`: the
    next outage blocks it, the first in a row. -/
theorem blocked_by_one :
    let events : List Event := [.move .importPending, .import (.probed (some .importing))] ++
      List.replicate maxRetries (.import .outage) ++ [.import (.probed (some .importing))]
    (run ⟨.downloading, 0⟩ events).status = .importing ∧
      (run ⟨.downloading, 0⟩ (events ++ [.import .outage])).status = .importBlocked ∧
      outages 0 ⟨.downloading, 0⟩ (events ++ [.import .outage]) = 1 := by
  decide

end ProbeRetries

end PlexManager
