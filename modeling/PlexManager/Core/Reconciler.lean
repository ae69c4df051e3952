import PlexManager.Core.DownloadState

/-!
# The pure reconciler

`reconcile` compares the tracked rows with one snapshot of the download client
and answers with the moves to persist. It reads no database, client or clock:
the time comes in as an argument, and so the whole policy of what a missing
torrent means is in this file.

A torrent that is present is mapped from the client's raw state. One that is
absent waits out a grace window, anchored at `firstSeenAt`, the time it was
first seen absent: a row without an anchor is given one and cannot fail in the
same cycle.

## Theorems

* `reconcile_eq_filterMap`: The moves are decided row by row.
* `reconcileAbsent_fails_iff`: An absent row fails exactly when it is anchored
  and the window has passed.
* `reconcileRow_of_missing_present`: A missing row whose torrent is back loses
  its anchor.
-/

namespace PlexManager

namespace Reconciler

open DownloadState

/-- The raw states the client's adapter passes through. `other` is a string
    the reconciler's table does not know. -/
inductive RawState where
  | downloading
  | forcedDL
  | stalledDL
  | queuedDL
  | checkingDL
  | checkingResumeData
  | pausedDL
  | stoppedDL
  | metaDL
  | forcedMetaDL
  | uploading
  | stalledUP
  | pausedUP
  | stoppedUP
  | queuedUP
  | checkingUP
  | forcedUP
  | moving
  | error
  | missingFiles
  | other (name : String)
  deriving DecidableEq, Repr

/-- The string the client reports. -/
def RawState.text : RawState → String
  | downloading => "downloading"
  | forcedDL => "forcedDL"
  | stalledDL => "stalledDL"
  | queuedDL => "queuedDL"
  | checkingDL => "checkingDL"
  | checkingResumeData => "checkingResumeData"
  | pausedDL => "pausedDL"
  | stoppedDL => "stoppedDL"
  | metaDL => "metaDL"
  | forcedMetaDL => "forcedMetaDL"
  | uploading => "uploading"
  | stalledUP => "stalledUP"
  | pausedUP => "pausedUP"
  | stoppedUP => "stoppedUP"
  | queuedUP => "queuedUP"
  | checkingUP => "checkingUP"
  | forcedUP => "forcedUP"
  | moving => "moving"
  | error => "error"
  | missingFiles => "missingFiles"
  | other name => name

def rawStateMap : RawState → Option DownloadState
  | .downloading | .forcedDL | .stalledDL | .queuedDL | .checkingDL | .checkingResumeData
  | .pausedDL | .stoppedDL => some .downloading
  | .metaDL | .forcedMetaDL => some .metadataFetching
  | .uploading | .stalledUP | .pausedUP | .stoppedUP | .queuedUP | .checkingUP
  | .forcedUP => some .importPending
  | .moving => some .downloading
  | .error | .missingFiles => some .failedPending
  | .other _ => none

/-- A `float`, as far as it is compared. What the client sends is read as JSON, in which
    Python also accepts the infinities and NaN. -/
inductive Progress where
  | nan
  | infinity (negative : Bool)
  | number (value : Rat)
  deriving DecidableEq, Repr

namespace Progress

instance : OfNat Progress 0 := ⟨.number 0⟩

/-- `<=` of two floats. NaN stands in no order to anything. -/
def atMost : Progress → Progress → Bool
  | nan, _ | _, nan => false
  | infinity true, _ | _, infinity false => true
  | number p, number q => p ≤ q
  | _, _ => false

instance : LE Progress := ⟨fun p q => atMost p q = true⟩

instance : LT Progress := ⟨fun p q => p ≤ q ∧ ¬ q ≤ p⟩

instance (p q : Progress) : Decidable (p ≤ q) := inferInstanceAs (Decidable (_ = true))

instance (p q : Progress) : Decidable (p < q) := inferInstanceAs (Decidable (_ ∧ _))

end Progress

structure DownloadStatus where
  infoHash : String
  rawState : RawState
  forceStart : Bool := false
  progress : Progress := 0
  lastActivityUnix : Int := 0
  deriving DecidableEq, Repr

/-- The columns of a tracked row that reconciliation, payload holds and the stall
    detector read. -/
structure DownloadRecord where
  id : Nat
  torrentHash : String
  status : DownloadState
  firstSeenAt : Option Int := none
  failedReason : Option String := none
  payloadPending : Bool := false
  payloadResume : Bool := false
  payloadForceStart : Bool := false
  payloadRejection : Option String := none
  addedAt : Option Int := none
  deriving DecidableEq, Repr

/-- One state change the caller should persist. `setFirstSeenAt` stamps the
    grace anchor to the time of the cycle, `clearFirstSeenAt` resets it. -/
structure StateTransition where
  downloadId : Nat
  torrentHash : String
  fromState : DownloadState
  toState : DownloadState
  reason : Option String
  setFirstSeenAt : Bool := false
  clearFirstSeenAt : Bool := false
  deriving DecidableEq, Repr

/-- One character in a `repr`. Beyond Latin-1 every character counts as printable. -/
def reprChar (quote c : Char) : List Char :=
  if c = quote ∨ c.toNat = 0x5C then [Char.ofNat 0x5C, c]
  else if c.toNat = 9 then [Char.ofNat 0x5C, 't']
  else if c.toNat = 10 then [Char.ofNat 0x5C, 'n']
  else if c.toNat = 13 then [Char.ofNat 0x5C, 'r']
  else if c.toNat < 0x20 ∨ (0x7F ≤ c.toNat ∧ c.toNat ≤ 0xA0) ∨ c.toNat = 0xAD then
    [Char.ofNat 0x5C, 'x', Nat.digitChar (c.toNat / 16), Nat.digitChar (c.toNat % 16)]
  else [c]

/-- `repr` of a text. It is put in double quotes if only those do not occur in it. -/
def repr (s : String) : String :=
  let quote := Char.ofNat (if 39 ∈ s.toList.map Char.toNat ∧ 34 ∉ s.toList.map Char.toNat
    then 34 else 39)
  String.ofList (quote :: s.toList.flatMap (reprChar quote) ++ [quote])

def mapRawState (raw : RawState) : DownloadState × Option String :=
  match rawStateMap raw with
  | none =>
      (.downloading, some ("unknown client state " ++ repr raw.text ++ "; tracking as downloading"))
  | some mapped => (mapped, some ("client reports " ++ repr raw.text))

variable (client : List DownloadStatus) (row : DownloadRecord) (now missingGrace : Int)

/-- The entry of the snapshot for a hash. The source builds a dictionary, so of
    several entries for one hash the last counts. -/
def lookup (torrentHash : String) : Option DownloadStatus :=
  client.reverse.find? fun status => lower status.infoHash == lower torrentHash

/-- The move of a row whose hash is absent from the snapshot. -/
def reconcileAbsent : Option StateTransition :=
  match row.firstSeenAt with
  | none =>
      -- No anchor to wait on: start the window, and never fail in this cycle.
      some
        { downloadId := row.id
          torrentHash := row.torrentHash
          fromState := row.status
          toState := .clientMissing
          reason := some "absent from client snapshot (grace window started)"
          setFirstSeenAt := true }
  | some firstSeenAt =>
      if missingGrace ≤ now - firstSeenAt then
        some
          { downloadId := row.id
            torrentHash := row.torrentHash
            fromState := row.status
            toState := .failedPending
            reason := some "absent from client snapshot beyond missing grace" }
      else if row.status = .clientMissing then
        none
      else
        some
          { downloadId := row.id
            torrentHash := row.torrentHash
            fromState := row.status
            toState := .clientMissing
            reason := some "absent from client snapshot (within missing grace)" }

/-- The move of one row, the body of the loop of `reconcile`. -/
def reconcileRow (row : DownloadRecord) : Option StateTransition :=
  if !row.status.activeState then none
  else match lookup client row.torrentHash with
    | some present =>
        if (mapRawState present.rawState).1 = row.status then none
        else
          some
            { downloadId := row.id
              torrentHash := row.torrentHash
              fromState := row.status
              toState := (mapRawState present.rawState).1
              reason := (mapRawState present.rawState).2
              clearFirstSeenAt := row.status = .clientMissing }
    | none => reconcileAbsent row now missingGrace

/-- The default of `missing_grace`: ten minutes, in microseconds, as all times here. -/
def defaultMissingGrace : Int := 600000000

/-- `reconcile`: the loop over the rows, collecting the moves in order. -/
def reconcile (rows : List DownloadRecord) (client : List DownloadStatus) (now : Int)
    (missingGrace : Int) : List StateTransition :=
  rows.foldl
    (fun transitions row =>
      match reconcileRow client now missingGrace row with
      | some transition => transitions ++ [transition]
      | none => transitions)
    []

/-- No row's move depends on another row. -/
theorem reconcile_eq_filterMap (rows : List DownloadRecord) (client : List DownloadStatus)
    (now missingGrace : Int) :
    reconcile rows client now missingGrace =
      rows.filterMap (reconcileRow client now missingGrace) := by
  have hfold : ∀ (rows : List DownloadRecord) (acc : List StateTransition), rows.foldl
          (fun transitions row =>
            match reconcileRow client now missingGrace row with
            | some transition => transitions ++ [transition]
            | none => transitions)
          acc =
        acc ++ rows.filterMap (reconcileRow client now missingGrace) := by
    intro rows
    induction rows with
    | nil => simp
    | cons row rows ih =>
      intro acc
      rw [List.foldl_cons, ih, List.filterMap_cons]
      cases reconcileRow client now missingGrace row with
      | none => rfl
      | some transition => simp
  exact hfold rows []

theorem reconcileAbsent_fails_iff :
    (∃ tr, reconcileAbsent row now missingGrace = some tr ∧ tr.toState = .failedPending) ↔
      ∃ anchor, row.firstSeenAt = some anchor ∧ missingGrace ≤ now - anchor := by
  cases hanch : row.firstSeenAt with
  | none => simp [reconcileAbsent, hanch]
  | some anchor =>
    simp only [reconcileAbsent, hanch, Option.some.injEq, exists_eq_left']
    by_cases hgrace : missingGrace ≤ now - anchor
    · simp [hgrace]
    simp only [hgrace, if_false, iff_false]
    rintro ⟨tr, htr, hto⟩
    split at htr
    · simp at htr
    cases htr
    simp at hto

theorem reconcileAbsent_anchor
    (tr : StateTransition) (h : reconcileAbsent row now missingGrace = some tr) :
    tr.clearFirstSeenAt = false ∧ (tr.setFirstSeenAt = true ↔ row.firstSeenAt = none) ∧
      tr.fromState = row.status ∧ tr.downloadId = row.id := by
  cases hanch : row.firstSeenAt with
  | none =>
    simp only [reconcileAbsent, hanch, Option.some.injEq] at h
    subst h
    exact ⟨rfl, by simp, rfl, rfl⟩
  | some anchor =>
    simp only [reconcileAbsent, hanch] at h
    split at h
    · cases h
      exact ⟨rfl, by simp, rfl, rfl⟩
    · split at h
      · simp at h
      cases h
      exact ⟨rfl, by simp, rfl, rfl⟩

/-- A missing row whose torrent is back is moved out of `clientMissing`, and
    the move clears its anchor. -/
theorem reconcileRow_of_missing_present (row : DownloadRecord) (present : DownloadStatus)
    (hst : row.status = .clientMissing) (hpres : lookup client row.torrentHash = some present) :
    ∃ tr, reconcileRow client now missingGrace row = some tr ∧ tr.clearFirstSeenAt = true ∧
      tr.setFirstSeenAt = false ∧ tr.fromState = .clientMissing ∧ tr.downloadId = row.id := by
  have hmove : (mapRawState present.rawState).1 ≠ .clientMissing := by
    cases present.rawState <;> simp [mapRawState, rawStateMap]
  simp [reconcileRow, hst, hpres, hmove, activeState]

end Reconciler

end PlexManager
