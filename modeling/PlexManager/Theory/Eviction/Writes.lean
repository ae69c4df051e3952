import PlexManager.Core.Eviction.Sweep

/-!
# What the statements do to the rows

Every statement rewrites rows in place, each from what the row itself says, and
so does every transaction that is made of them. So what a row is afterwards is a
function of what it was before. Only a new request adds a row.
-/

namespace PlexManager

namespace Eviction

open KeyedTable

/-! ### Statements -/

theorem row_modify (db : Db) (key : RowKey) (f : Row → Row) (hf : ∀ r, (f r).key = r.key)
    (k : RowKey) :
    (db.modify key f hf).row k = (db.row k).map fun r => if k = key then f r else r :=
  Table.find_modify db.rows key f hf k

variable {db : Db} {key : RowKey} {r : Row} {status : RequestStatus}
  {allowedFrom : List RequestStatus}

theorem row_key {k : RowKey} (h : db.row k = some r) : r.key = k :=
  Table.key_of_find h

def Row.movedFrom (allowedFrom : List RequestStatus) (status : RequestStatus) (r : Row) : Row :=
  if r.status ∈ allowedFrom then { r with status } else r

theorem history_setStatusIfIn (db : Db) (key : RowKey) (status : RequestStatus)
    (allowedFrom : List RequestStatus) :
    (db.setStatusIfIn key status allowedFrom).2.history = db.history := by
  unfold Db.setStatusIfIn
  split
  · split <;> rfl
  · rfl

theorem history_clearLibraryPathIfSet (db : Db) (key : RowKey) (path : Path)
    (expectedStatuses : List RequestStatus) :
    (db.clearLibraryPathIfSet key path expectedStatuses).2.history = db.history := by
  unfold Db.clearLibraryPathIfSet
  split
  · split <;> rfl
  · rfl

theorem row_setStatusIfIn (db : Db) (key : RowKey) (status : RequestStatus)
    (allowedFrom : List RequestStatus) (k : RowKey) :
    (db.setStatusIfIn key status allowedFrom).2.row k =
      (db.row k).map fun r => if k = key then r.movedFrom allowedFrom status else r := by
  unfold Db.setStatusIfIn
  split
  · rename_i r hr
    split
    · rename_i hin
      rw [Db.setStatus, row_modify]
      by_cases hk : k = key
      · subst hk
        simp [hr, Row.movedFrom, hin]
      · simp [hk]
    · rename_i hout
      by_cases hk : k = key
      · subst hk
        simp [hr, Row.movedFrom, hout]
      · simp [hk]
  · rename_i hnone
    by_cases hk : k = key
    · subst hk
      simp [hnone]
    · simp [hk]

/-- A row with its path and marker cleared, if it has the path and one of the
    statuses that are expected. -/
def Row.cleared (path : Path) (expectedStatuses : List RequestStatus) (r : Row) : Row :=
  if r.libraryPath = some path ∧ r.status ∈ expectedStatuses then
    { r with libraryPath := none, partialDeletePath := none }
  else r

theorem row_clearLibraryPathIfSet (db : Db) (key : RowKey) (path : Path)
    (expectedStatuses : List RequestStatus) (k : RowKey) :
    (db.clearLibraryPathIfSet key path expectedStatuses).2.row k =
      (db.row k).map fun r => if k = key then r.cleared path expectedStatuses else r := by
  unfold Db.clearLibraryPathIfSet
  split
  · rename_i r hr
    split
    · rename_i hin
      rw [Db.clearLibraryPath, row_modify]
      by_cases hk : k = key
      · subst hk
        simp [hr, Row.cleared, hin]
      · simp [hk]
    · rename_i hout
      by_cases hk : k = key
      · subst hk
        simp [hr, Row.cleared, hout]
      · simp [hk]
  · rename_i hnone
    by_cases hk : k = key
    · subst hk
      simp [hnone]
    · simp [hk]

/-! ### Transactions -/

theorem row_claimForEviction {db' : Db} (h : db.claimForEviction key = (true, db')) :
    (∃ r, db.row key = some r ∧ r.status = .available) ∧
      ∀ k, db'.row k = (db.row k).map fun r => if k = key then { r with status := .evicted }
        else r := by
  unfold Db.claimForEviction at h
  split at h
  · simp at h
  unfold Db.setStatusIfIn at h
  split at h
  · rename_i r hr
    split at h
    · rename_i hin
      obtain rfl := (Prod.mk.inj h).2
      refine ⟨⟨r, hr, by simpa using hin⟩, fun k => ?_⟩
      rw [Db.setStatus, row_modify]
    · simp at h
  · simp at h

/-- The status of a row after its eviction was undone. -/
def restoredStatus (key : RowKey) (status : RequestStatus) : RequestStatus :=
  if status = .evicted then .available
  else match key with
    | .movie _ => status
    | .season _ _ => if status ∈ preGrabStatuses then .available else status

theorem setStatusIfIn_of_mem (h : db.row key = some r) (hin : r.status ∈ allowedFrom) :
    db.setStatusIfIn key status allowedFrom = (true, db.setStatus key status) := by
  simp [Db.setStatusIfIn, h, hin]

theorem setStatusIfIn_of_not_mem (h : db.row key = some r) (hout : r.status ∉ allowedFrom) :
    db.setStatusIfIn key status allowedFrom = (false, db) := by
  simp [Db.setStatusIfIn, h, hout]

theorem row_setStatus (db : Db) (key : RowKey) (status : RequestStatus) (k : RowKey) :
    (db.setStatus key status).row k =
      (db.row k).map fun r => if k = key then { r with status } else r :=
  row_modify db key _ _ k

theorem row_disarmPartialDelete (db : Db) (key k : RowKey) :
    (db.disarmPartialDelete key).row k =
      (db.row k).map fun r => if k = key then { r with partialDeletePath := none } else r :=
  row_modify db key _ _ k

theorem row_cancelRedundantRegrabs (db : Db) (key k : RowKey) :
    (db.cancelRedundantRegrabs key).row k = db.row k ∨
      k ≠ key ∧ ∃ r, db.row k = some r ∧ r.status ∈ preGrabStatuses ∧
        (db.cancelRedundantRegrabs key).row k = some { r with status := .cancelled } := by
  simp only [Db.row, Db.cancelRedundantRegrabs, Table.find_rewrite]
  cases hr : db.rows.find k with
  | none => exact .inl rfl
  | some r =>
    by_cases hredun : r.key ≠ key ∧ db.title r.key = db.title key ∧
        r.key.seasonNumber = key.seasonNumber ∧ r.status ∈ preGrabStatuses ∧
        r.evictionRegrab = true
    · refine .inr ⟨Table.key_of_find hr ▸ hredun.1, r, rfl, hredun.2.2.2.1, ?_⟩
      simp only [Option.map_some, if_pos hredun]
    · left
      simp only [Option.map_some, if_neg hredun]

theorem setStatusIfIn_of_none (h : db.row key = none) :
    db.setStatusIfIn key status allowedFrom = (false, db) := by
  simp [Db.setStatusIfIn, h]

theorem restoredStatus_ne_evicted (key : RowKey) (status : RequestStatus) :
    restoredStatus key status ≠ .evicted := by
  unfold restoredStatus
  split
  · decide
  rename_i hne
  split
  · exact hne
  · split
    · decide
    · exact hne

def Row.restored (r : Row) : Row :=
  { r with partialDeletePath := none, status := restoredStatus r.key r.status }

theorem row_restore_of_some (h : db.row key = some r) :
    (db.restoreAfterFailedDelete key).row key =
      some { r with partialDeletePath := none, status := restoredStatus key r.status } := by
  have hdis : (db.disarmPartialDelete key).row key =
      some { r with partialDeletePath := none } := by
    simp [row_disarmPartialDelete, h]
  unfold Db.restoreAfterFailedDelete restoredStatus
  by_cases hevict : r.status = .evicted
  · rw [setStatusIfIn_of_mem hdis (by simp [hevict]), if_pos hevict]
    rcases row_cancelRedundantRegrabs ((db.disarmPartialDelete key).setStatus key .available) key
      key with hsame | ⟨hne, -⟩
    · rw [hsame, row_setStatus, hdis]
      simp
    · exact absurd rfl hne
  · rw [setStatusIfIn_of_not_mem hdis (by simp [hevict]), if_neg hevict]
    cases key with
    | movie id => exact hdis
    | season id n =>
      rw [row_setStatusIfIn, hdis]
      simp only [Option.map_some, if_true, Row.movedFrom]
      split <;> rfl

theorem row_restore_self (db : Db) (key : RowKey) :
    (db.restoreAfterFailedDelete key).row key = (db.row key).map Row.restored := by
  cases h : db.row key with
  | some r =>
    obtain rfl := row_key h
    exact row_restore_of_some h
  | none =>
    have hdis : (db.disarmPartialDelete key).row key = none := by
      simp [row_disarmPartialDelete, h]
    unfold Db.restoreAfterFailedDelete
    rw [setStatusIfIn_of_none hdis]
    cases key with
    | movie id => exact hdis
    | season id n =>
      dsimp only
      rw [setStatusIfIn_of_none hdis]
      exact hdis

theorem row_restore_other (db : Db) {k : RowKey} (hk : k ≠ key) :
    (db.restoreAfterFailedDelete key).row k = db.row k ∨
      ∃ r, db.row k = some r ∧ r.status ∈ preGrabStatuses ∧
        (db.restoreAfterFailedDelete key).row k = some { r with status := .cancelled } := by
  have hdis : (db.disarmPartialDelete key).row k = db.row k := by
    rw [row_disarmPartialDelete]
    simp [hk]
  unfold Db.restoreAfterFailedDelete
  have hfst : ((db.disarmPartialDelete key).setStatusIfIn key .available [.evicted]).2.row k =
      db.row k := by
    rw [row_setStatusIfIn, hdis]
    simp [hk]
  revert hfst
  generalize (db.disarmPartialDelete key).setStatusIfIn key .available [.evicted] = first
  rcases first with ⟨won, db'⟩
  intro hfst
  cases won with
  | true =>
    rcases row_cancelRedundantRegrabs db' key k with hsame | ⟨-, r, hr, hst, hcan⟩
    · exact .inl (hsame.trans hfst)
    · exact .inr ⟨r, hfst.symm.trans hr, hst, hcan⟩
  | false =>
    left
    cases key with
    | movie id => exact hfst
    | season id n =>
      rw [row_setStatusIfIn, hfst]
      simp [hk]

def Row.finalized (path : Path) (r : Row) : Row :=
  let cleared := r.cleared path staleBreadcrumbClearStatuses
  let flipped := match r.key with
    | .movie _ => cleared
    | .season _ _ => cleared.movedFrom [.cancelled] .evicted
  { flipped with partialDeletePath := none }

theorem row_finalizeEvicted (db : Db) (key : RowKey) (path : Path) (k : RowKey) :
    (db.finalizeEvicted key path).row k =
      (db.row k).map fun r => if k = key then r.finalized path else r := by
  have hhist : (db.addHistory key path).row k = db.row k := rfl
  unfold Db.finalizeEvicted
  rw [row_disarmPartialDelete]
  cases key with
  | movie id =>
    rw [row_clearLibraryPathIfSet, hhist]
    cases hr : db.row k with
    | none => rfl
    | some r =>
      by_cases hk : k = .movie id
      · subst hk
        simp [Row.finalized, row_key hr]
      · simp [hk]
  | season id n =>
    rw [row_setStatusIfIn, row_clearLibraryPathIfSet, hhist]
    cases hr : db.row k with
    | none => rfl
    | some r =>
      by_cases hk : k = .season id n
      · subst hk
        simp [Row.finalized, row_key hr]
      · simp [hk]

theorem row_finalizeResumed {db' : Db} {path : Path} (h : db.finalizeResumed key path = some db') :
    (∃ r, db.row key = some r ∧ r.libraryPath = some path ∧
      r.status ∈ staleBreadcrumbClearStatuses) ∧
      db'.history = db.history ++ [⟨key, path⟩] ∧
      ∀ k, db'.row k = (db.row k).map fun r =>
        if k = key then
          { r.movedFrom (Db.flippedStatuses key) .evicted with
            libraryPath := none
            partialDeletePath := none }
        else r := by
  unfold Db.finalizeResumed at h
  split at h
  · rename_i cleared hclr
    have hrow : ∃ r, db.row key = some r ∧ r.libraryPath = some path ∧
        r.status ∈ staleBreadcrumbClearStatuses := by
      unfold Db.clearLibraryPathIfSet at hclr
      split at hclr
      · rename_i r hr
        split at hclr
        · rename_i hexp
          exact ⟨r, hr, hexp.1, hexp.2⟩
        · simp at hclr
      · simp at hclr
    have haft : cleared = (db.clearLibraryPathIfSet key path staleBreadcrumbClearStatuses).2 := by
      rw [hclr]
    cases h
    refine ⟨hrow, ?_, fun k => ?_⟩
    · rw [haft]
      show (Db.setStatusIfIn _ _ _ _).2.history ++ [⟨key, path⟩] = _
      rw [history_setStatusIfIn, history_clearLibraryPathIfSet]
    · rcases hrow with ⟨r, hr, hpath, hst⟩
      have hrows : ∀ db : Db, (db.addHistory key path).row k = db.row k := fun _ => rfl
      rw [haft, row_disarmPartialDelete, hrows, row_setStatusIfIn, row_clearLibraryPathIfSet]
      by_cases hk : k = key
      · subst hk
        have hsame : r.cleared path staleBreadcrumbClearStatuses =
            { r with libraryPath := none, partialDeletePath := none } :=
          if_pos ⟨hpath, hst⟩
        simp only [hr, Option.map_some, if_true, hsame, Row.movedFrom]
        split <;> rfl
      · simp [hk]
  · simp at h

/-! ### The others -/

def Verb.onRow (k : RowKey) (r : Row) : Verb → Row
  | .rearm key => if k = key then r.movedFrom [.evicted] .pending else r
  | .move key status =>
      if k = key ∧ status ∉ [RequestStatus.completed, .available, .evicted] then { r with status }
      else r
  | .fallback key => if k = key then r.movedFrom dueSearchStatuses .completed else r
  | .confirm key => if k = key then r.movedFrom [.completed] .available else r
  | _ => r

theorem row_apply (db : Db) (v : Verb) (k : RowKey) :
    (v.apply db).row k = (db.row k).map (fun r => v.onRow k r) ∨
      db.row k = none ∧ ∃ r, (v.apply db).row k = some r ∧ r.libraryPath = none ∧
        r.partialDeletePath = none ∧ r.status ≠ .evicted := by
  cases v with
  | create key present evictionRegrab =>
    simp only [Verb.apply, Verb.onRow, Db.row, Table.find_insert]
    cases hr : db.rows.find k with
    | some r => exact .inl rfl
    | none =>
      by_cases hk : key = k
      · refine .inr ⟨rfl, _, by simp [hk]; rfl, rfl, rfl, ?_⟩
        cases present <;> simp
      · left
        simp [hk]
  | rearm key | fallback key | confirm key => exact .inl (row_setStatusIfIn db key _ _ k)
  | move key status =>
    simp only [Verb.apply, Verb.onRow]
    split
    · rename_i hbarred
      simp [hbarred]
    · rename_i hmay
      rw [row_setStatus]
      simp [hmay]
  | setKeepForever | setWatchlisted | downloads =>
    left
    simp only [Verb.onRow, Option.map_id']
    rfl

end Eviction

end PlexManager
