import PlexManager.Core.Reconciler

/-!
# Reconciling twice

`reconcile` is meant to be idempotent: once its moves are written to the rows, the
same snapshot at the same time asks for nothing more. A move changes the state the
next evaluation compares with, and the anchor it measures the grace window from, so
each of its forms has to be followed into the second cycle. A row that is present has
the state its torrent is mapped to. An absent row that has just been anchored is
missing, and its window starts now, which is why the grace must not be zero. One that
has failed is no longer polled.

The rows are written by their ids, so these have to be different.

## Theorems

* `reconcile_idempotent`: The second cycle is empty.
-/

namespace PlexManager

namespace Reconciler

open DownloadState

/-- Write one move to its row. -/
def StateTransition.persist (tr : StateTransition) (now : Int) (row : DownloadRecord) :
    DownloadRecord :=
  { row with
    status := tr.toState
    firstSeenAt :=
      if tr.setFirstSeenAt then some now
      else if tr.clearFirstSeenAt then none
      else row.firstSeenAt }

/-- Write every move to the rows with its id. -/
def applyTransitions (moves : List StateTransition) (now : Int) (rows : List DownloadRecord) :
    List DownloadRecord :=
  moves.foldl
    (fun rows tr => rows.map fun row => if row.id = tr.downloadId then tr.persist now row else row)
    rows

variable (client : List DownloadStatus)

variable (now missingGrace : Int) (row : DownloadRecord)

theorem downloadId_of_reconcileRow (tr : StateTransition)
    (h : reconcileRow client now missingGrace row = some tr) : tr.downloadId = row.id := by
  unfold reconcileRow at h
  split at h
  · exact nomatch h
  split at h
  · split at h
    · exact nomatch h
    cases h
    rfl
  · exact (reconcileAbsent_anchor row now missingGrace tr h).2.2.2

theorem reconcileRow_persist (tr : StateTransition)
    (hgrace : 0 < missingGrace) (h : reconcileRow client now missingGrace row = some tr) :
    reconcileRow client now missingGrace (tr.persist now row) = none := by
  unfold reconcileRow at h ⊢
  by_cases hpoll : (tr.persist now row).status.activeState = true
  · rw [if_neg (by simp [hpoll])]
    split at h
    · exact nomatch h
    have hhash : (tr.persist now row).torrentHash = row.torrentHash := rfl
    rw [hhash]
    cases hlook : lookup client row.torrentHash with
    | some present =>
      rw [hlook] at h
      simp only [] at h ⊢
      split at h
      · exact nomatch h
      cases h
      simp [StateTransition.persist]
    | none =>
      rw [hlook] at h
      cases hanch : row.firstSeenAt with
      | none =>
        simp only [reconcileAbsent, hanch, Option.some.injEq] at h
        subst h
        -- The window that has just started is longer than the time since.
        simpa [reconcileAbsent, StateTransition.persist] using hgrace
      | some anchor =>
        simp only [reconcileAbsent, hanch] at h
        split at h
        · -- A failed row is not polled.
          cases h
          simp [StateTransition.persist, activeState] at hpoll
        · rename_i hwin
          split at h
          · cases h
          cases h
          simp [reconcileAbsent, StateTransition.persist, hanch, hwin]
  · rw [if_pos (by simp [hpoll])]

/-- The row with the move that `reconcile` decides for it. -/
def settledRow (client : List DownloadStatus) (now missingGrace : Int) (row : DownloadRecord) :
    DownloadRecord :=
  match reconcileRow client now missingGrace row with
  | some tr => tr.persist now row
  | none => row

theorem reconcileRow_settledRow (hgrace : 0 < missingGrace) :
    reconcileRow client now missingGrace (settledRow client now missingGrace row) = none := by
  unfold settledRow
  cases h : reconcileRow client now missingGrace row with
  | none => exact h
  | some tr => exact reconcileRow_persist client now missingGrace row tr hgrace h

theorem applyTransitions_of_other (moves : List StateTransition) (now : Int)
    (rows : List DownloadRecord) (h : ∀ tr ∈ moves, ∀ row ∈ rows, row.id ≠ tr.downloadId) :
    applyTransitions moves now rows = rows := by
  induction moves with
  | nil => rfl
  | cons tr moves ih =>
    have hsame : (rows.map fun row => if row.id = tr.downloadId then tr.persist now row else row) =
        rows := by
      refine (List.map_congr_left fun row hrow => ?_).trans (List.map_id rows)
      rw [if_neg (h tr (by simp) row hrow), id]
    show applyTransitions moves now (rows.map _) = rows
    rw [hsame]
    exact ih fun tr' htr' => h tr' (by simp [htr'])

theorem applyTransitions_append (moves : List StateTransition) (now : Int)
    (rows rows' : List DownloadRecord) :
    applyTransitions moves now (rows ++ rows') =
      applyTransitions moves now rows ++ applyTransitions moves now rows' := by
  induction moves generalizing rows rows' with
  | nil => rfl
  | cons tr moves ih =>
    show applyTransitions moves now ((rows ++ rows').map _) = _
    rw [List.map_append]
    exact ih _ _

theorem applyTransitions_reconcile (rows : List DownloadRecord) (client : List DownloadStatus)
    (now missingGrace : Int) (hids : (rows.map (·.id)).Nodup) :
    applyTransitions (reconcile rows client now missingGrace) now rows =
      rows.map (settledRow client now missingGrace) := by
  rw [reconcile_eq_filterMap]
  induction rows with
  | nil => rfl
  | cons row rows ih =>
    rw [List.map_cons, List.nodup_cons] at hids
    have hoth : ∀ other ∈ rows, other.id ≠ row.id := fun other hoth heq =>
      hids.1 (heq ▸ List.mem_map_of_mem hoth)
    have hrest : ∀ row', row'.id = row.id →
        applyTransitions (rows.filterMap (reconcileRow client now missingGrace)) now
            (row' :: rows) =
          row' :: rows.map (settledRow client now missingGrace) := by
      intro row' hid
      rw [← List.singleton_append, applyTransitions_append, ih hids.2,
        applyTransitions_of_other, List.singleton_append]
      -- The moves of the other rows carry the ids of these.
      intro tr htr row'' hrow''
      rcases List.mem_filterMap.mp htr with ⟨other, hmem, hmove⟩
      rw [downloadId_of_reconcileRow client now missingGrace other tr hmove,
        List.mem_singleton.mp hrow'', hid]
      exact fun heq => hoth other hmem heq.symm
    rw [List.filterMap_cons, List.map_cons]
    cases hrow : reconcileRow client now missingGrace row with
    | none =>
      rw [settledRow, hrow]
      exact hrest row rfl
    | some tr =>
      rw [settledRow, hrow]
      have hid := downloadId_of_reconcileRow client now missingGrace row tr hrow
      have hfst : ((row :: rows).map fun r =>
          if r.id = tr.downloadId then tr.persist now r else r) =
            tr.persist now row :: rows := by
        rw [List.map_cons, if_pos hid.symm, List.cons.injEq]
        refine ⟨rfl, (List.map_congr_left fun other hmem => ?_).trans (List.map_id rows)⟩
        rw [if_neg (hid ▸ hoth other hmem), id]
      show applyTransitions _ now ((row :: rows).map _) = _
      rw [hfst]
      exact hrest (tr.persist now row) rfl

/-- Once the moves of a cycle are written, the same snapshot at the same time asks for
    no further move. -/
theorem reconcile_idempotent (rows : List DownloadRecord) (client : List DownloadStatus)
    (now missingGrace : Int) (hids : (rows.map (·.id)).Nodup) (hgrace : 0 < missingGrace) :
    reconcile (applyTransitions (reconcile rows client now missingGrace) now rows) client now
      missingGrace = [] := by
  rw [applyTransitions_reconcile rows client now missingGrace hids, reconcile_eq_filterMap,
    List.filterMap_map]
  refine List.filterMap_eq_nil_iff.mpr fun row _ => ?_
  exact reconcileRow_settledRow client now missingGrace row hgrace

/-- A row that is missing, and one whose torrent is back. -/
theorem reconcile_idempotent_two :
    reconcile
      (applyTransitions
        (reconcile
          [{ id := 1, torrentHash := "a", status := .downloading },
            { id := 2, torrentHash := "b", status := .clientMissing, firstSeenAt := some 5 }]
          [{ infoHash := "B", rawState := .uploading }] 7 defaultMissingGrace) 7
        [{ id := 1, torrentHash := "a", status := .downloading },
          { id := 2, torrentHash := "b", status := .clientMissing, firstSeenAt := some 5 }])
      [{ infoHash := "B", rawState := .uploading }] 7 defaultMissingGrace = [] :=
  reconcile_idempotent _ _ 7 defaultMissingGrace (by decide) (by decide)

end Reconciler

end PlexManager
