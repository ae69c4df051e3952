import PlexManager.Core.BreadcrumbSessions

/-!
# When an import leaves its breadcrumb

The last transaction of an import assigns two columns of the row, the path of what
it has placed and no marker, and then completes the row with a statement. The
statement reaches the table in any case. An assignment reaches it only where the
session does not have the value already. The path of a season is the same for
every import of it, so a session that has held the row for a while has the value
already, even if an eviction has cleared it since. The row is then completed with
no path, and nothing will ever delete what the import has placed.

What the session holds of the two columns decides, and it can be told from the
state before the transaction.

## Theorems

* `imports_reclaimable_iff`: The imports of a run, exactly.
* `completed_without_breadcrumb`: A run in which an import loses its breadcrumb.
-/

namespace PlexManager

namespace Reclaim

open KeyedTable IdentityMap Transition
open Eviction (Row RowKey Path)

/-! ### What is to hold -/

/-- A later eviction finds what an import has placed, and no unfinished delete. -/
def Reclaimable (path : Path) (r : Row) : Prop :=
  r.libraryPath = some path ∧ r.partialDeletePath = none

instance (path : Path) (r : Row) : Decidable (Reclaimable path r) :=
  inferInstanceAs (Decidable (_ ∧ _))

variable (w : World)

/-- If the step is the last transaction of an import and leaves a completed row,
    then the row is reclaimable. -/
def Reclaims : Action → Prop
  | .transact session (.imported key path result) =>
      ∀ r ∈ (perform (w.view session) (.imported key path result)).bind (·.table.find key),
        r.status = .completed → Reclaimable path r
  | _ => True

instance (w : World) : (a : Action) → Decidable (Reclaims w a)
  | .transact _ (.imported ..) => inferInstanceAs (Decidable (∀ r ∈ Option.bind _ _, _))
  | .transact _ (.created ..) | .transact _ (.claimedForEviction ..) | .transact _ (.evicted ..)
  | .transact _ (.resumed ..) | .transact _ (.released ..) | .transact _ (.restored ..)
  | .transact _ (.reported ..) | .transact _ (.reportPurged ..) | .transact _ (.rearmed ..)
  | .transact _ (.moved ..) | .read .. | .refresh .. | .forget .. => .isTrue trivial

def Completes (result : ImportResult) (r : Row) : Prop :=
  match result with
  | .complete => True
  | .incomplete => False
  | .late => r.status = .completed

/-- Where the session of an import holds the row that it completes, it does not hold
    it with the path of the import while another is committed, nor without a marker
    while one is committed. -/
def Fresh : Action → Prop
  | .transact session (.imported key path result) =>
      ∀ held r, w.held session key = some held → w.rows.find key = some r → Completes result r →
        (held.libraryPath = some path → r.libraryPath = some path) ∧
          (held.partialDeletePath = none → r.partialDeletePath = none)
  | _ => True

/-! ### One transaction -/

variable {v v' : Rows} {key : RowKey} {path : Path} {r : Row} {x : Option Path}

theorem seen_eq (hr : v.table.find key = some r) : v.seen key = some ((v.held key).getD r) := by
  unfold View.seen
  rw [hr]
  cases v.held key with
  | none | some held => rfl

theorem seen_of_assign_libraryPath (h : v.assign libraryPath key x = some v')
    (hr : v.table.find key = some r) :
    (v'.seen key).map partialDeletePath.get = some ((v.held key).getD r).partialDeletePath := by
  have hheld := View.held_assign h key
  rw [if_pos rfl, seen_eq hr, Option.map_some] at hheld
  rw [View.seen, hheld, Option.some_or, Option.map_some]
  split
  · rfl
  · rfl

-- The two assignments of an import. Each is in the row afterwards unless the session has the
-- value where the table has not.
theorem find_setLibraryPath (h : setLibraryPath v key path = some v')
    (hr : v.table.find key = some r) :
    ∃ r', v'.table.find key = some r' ∧ r'.status = r.status ∧
      (r'.libraryPath = some path ↔
        (((v.held key).getD r).libraryPath = some path → r.libraryPath = some path)) ∧
      (r'.partialDeletePath = none ↔
        (((v.held key).getD r).partialDeletePath = none → r.partialDeletePath = none)) := by
  rcases Option.bind_eq_some_iff.mp h with ⟨u, hpath, hmark⟩
  have hpstored := View.assign_stores_iff hpath hr
  have hmkept := View.get_find_assign hpath (d := partialDeletePath) (fun _ _ => rfl) key
  have hstatusKept := View.get_find_assign hpath (d := status) (fun _ _ => rfl) key
  rw [seen_eq hr, Option.map_some, Option.some.injEq] at hpstored
  rw [hr, Option.map_some] at hmkept hstatusKept
  rcases Option.map_eq_some_iff.mp hmkept with ⟨s, hs, hsMarker⟩
  have hmstored := View.assign_stores_iff hmark hs
  have hpkept := View.get_find_assign hmark (d := libraryPath) (fun _ _ => rfl) key
  have hstatusKept' := View.get_find_assign hmark (d := status) (fun _ _ => rfl) key
  rw [seen_of_assign_libraryPath hpath hr, Option.some.injEq] at hmstored
  rw [hs, Option.map_some] at hpstored hstatusKept hpkept hstatusKept'
  rcases Option.map_eq_some_iff.mp hpkept with ⟨r', hr', hpath'⟩
  rw [hr', Option.map_some, Option.some.injEq] at hmstored hstatusKept'
  refine ⟨r', hr', hstatusKept'.trans (Option.some.inj hstatusKept), ?_, ?_⟩
  · change libraryPath.get r' = some path ↔ _
    rw [hpath', ← Option.some.injEq, hpstored]
    rfl
  · change partialDeletePath.get r' = none ↔ _
    rw [hmstored, hsMarker]
    rfl

theorem isSome_assign {c : Column Row.key (Option Path)}
    (hr : v.table.find key = some r) : (v.assign c key x).isSome = true := by
  unfold View.assign
  rw [seen_eq hr]
  rfl

theorem isSome_setLibraryPath (path : Path) (hr : v.table.find key = some r) :
    (setLibraryPath v key path).isSome = true := by
  rcases Option.isSome_iff_exists.mp (isSome_assign (c := libraryPath) hr) with ⟨u, hu⟩
  have hkept := View.get_find_assign hu (d := status) (fun _ _ => rfl) key
  rw [hr, Option.map_some] at hkept
  rcases Option.map_eq_some_iff.mp hkept with ⟨s, hs, -⟩
  unfold setLibraryPath
  rw [hu, Option.bind_some]
  exact isSome_assign hs

theorem updateRow_status (s : RequestStatus) (hr : v.table.find key = some r) :
    (updateRow v key (fun _ => true) (status.set s) (status.key_set s)).1 = true ∧
      (updateRow v key (fun _ => true) (status.set s) (status.key_set s)).2.table.find key =
        some (status.set s r) := by
  rcases Table.find_eq_some.mp hr with ⟨hmem, hkey⟩
  constructor
  · exact List.any_eq_true.mpr ⟨r, hmem, by simp [hkey]⟩
  · simp [updateRow, View.find_update, hr, hkey]

theorem find_markCompleted (hr : v.table.find key = some r) :
    (markCompleted v key).bind (·.table.find key) = some (status.set .completed r) := by
  rcases updateRow_status .completed hr with ⟨hrow, hfind⟩
  unfold markCompleted
  split
  · rename_i w heq
    rw [heq] at hfind
    exact hfind
  · rename_i w heq
    rw [heq] at hrow
    exact nomatch hrow

-- The row after the last transaction of an import, which is never rolled back.
theorem find_imported (path : Path) (result : ImportResult) (hr : v.table.find key = some r) :
    ∃ r', (perform v (.imported key path result)).bind (·.table.find key) = some r' ∧
      (r'.status = .completed ↔ Completes result r) ∧
      (r'.libraryPath = some path ↔
        (((v.held key).getD r).libraryPath = some path → r.libraryPath = some path)) ∧
      (r'.partialDeletePath = none ↔
        (((v.held key).getD r).partialDeletePath = none → r.partialDeletePath = none)) := by
  rcases Option.isSome_iff_exists.mp (isSome_setLibraryPath path hr) with ⟨u, hu⟩
  rcases find_setLibraryPath hu hr with ⟨s, hs, hst, hpath, hmark⟩
  unfold perform importFinalize
  dsimp only
  rw [hu, Option.bind_some]
  -- what follows moves the status and nothing else
  cases result with
  | complete =>
    have hfind := find_markCompleted hs
    exact ⟨status.set .completed s, hfind, iff_of_true rfl trivial, hpath, hmark⟩
  | incomplete =>
    have hfind := (updateRow_status .searching hs).2
    exact ⟨status.set .searching s, hfind, iff_of_false (nomatch ·) id, hpath, hmark⟩
  | late =>
    refine ⟨s, hs, ?_, hpath, hmark⟩
    rw [hst]
    rfl

theorem find_imported_of_none (path : Path) (result : ImportResult)
    (hnone : v.table.find key = none) :
    (perform v (.imported key path result)).bind (·.table.find key) = none := by
  unfold perform importFinalize
  dsimp only
  cases hset : setLibraryPath v key path with
  | none => rfl
  | some u =>
    have hu : u.table.find key = none := by
      rcases Option.bind_eq_some_iff.mp hset with ⟨t, hpath, hmark⟩
      have hfst := View.find_assign hpath key
      rw [hnone, Option.map_none, ite_self] at hfst
      have hsnd := View.find_assign hmark key
      rw [hfst, Option.map_none, ite_self] at hsnd
      exact hsnd
    have hupdate : ∀ s : RequestStatus,
        (updateRow u key (fun _ => true) (status.set s) (status.key_set s)).2.table.find key =
          none := by
      simp [updateRow, View.find_update, hu]
    cases result with
    | complete =>
      change (markCompleted u key).bind _ = _
      unfold markCompleted
      split
      · rename_i w heq
        have hfind := hupdate .completed
        rw [heq] at hfind
        exact hfind
      · rfl
    | incomplete => exact hupdate .searching
    | late => exact hu

theorem reclaims_imported_iff (session : Nat) (result : ImportResult) :
    Reclaims w (.transact session (.imported key path result)) ↔
      Fresh w (.transact session (.imported key path result)) := by
  unfold Reclaims Fresh
  cases hr : w.rows.find key with
  | none =>
    dsimp only
    rw [find_imported_of_none path result hr]
    refine iff_of_true nofun ?_
    intro held r _ hrow
    rw [hr] at hrow
    exact nomatch hrow
  | some r =>
    rcases find_imported (v := w.view session) path result hr with ⟨r', hr', hst, hpath, hmark⟩
    dsimp only
    rw [hr']
    constructor
    · intro h held row hheld hrow hcmp
      obtain rfl := Option.some.inj (hr.symm.trans hrow)
      have hrecl := h r' rfl (hst.mpr hcmp)
      have hgot : ((w.view session).held key).getD r = held := by
        change (w.held session key).getD r = held
        rw [hheld, Option.getD_some]
      rw [hgot] at hpath hmark
      exact ⟨hpath.mp hrecl.1, hmark.mp hrecl.2⟩
    · intro h s hs hcompleted
      cases hs
      have hcmp := hst.mp hcompleted
      cases hheld : (w.view session).held key with
      | none =>
        rw [hheld, Option.getD_none] at hpath hmark
        exact ⟨hpath.mpr id, hmark.mpr id⟩
      | some held =>
        rw [hheld, Option.getD_some] at hpath hmark
        have hnew := h held r hheld hr hcmp
        exact ⟨hpath.mpr hnew.1, hmark.mpr hnew.2⟩

theorem reclaims_iff_fresh (a : Action) : Reclaims w a ↔ Fresh w a := by
  cases a with
  | transact session transaction =>
    cases transaction with
    | imported key path result => exact reclaims_imported_iff w session result
    | _ => exact .rfl
  | _ => exact .rfl

/-! ### Runs -/

/-- Every import of a run completes its row reclaimably iff the session of every one
    is fresh. -/
theorem imports_reclaimable_iff (w : World) (as : List Action) :
    StepsMeet step Reclaims w as ↔ StepsMeet step Fresh w as :=
  ⟨.mono fun w a => (reclaims_iff_fresh w a).mp, .mono fun w a => (reclaims_iff_fresh w a).mpr⟩

/-! ### An import that loses its breadcrumb -/

def empty : World := ⟨.empty, fun _ _ => none⟩

/-- A season is evicted while it is fetched again. The session of the second import
    has read the season before the eviction was done. -/
def importOverEviction : List Action :=
  let key := .season 1 1
  [.transact 0 (.created ⟨key, .downloading, none, none, false⟩),
    .transact 1 (.imported key "show/Season 01" .complete),
    .transact 2 (.moved key .available [.completed]),
    .transact 3 (.claimedForEviction key "show/Season 01" true),
    .transact 4 (.rearmed key),
    .transact 5 (.moved key .downloading [.pending]),
    .read 6 [key],
    .transact 3 (.evicted key "show/Season 01"),
    .transact 6 (.imported key "show/Season 01" .complete)]

/-- The season is completed in the end, and has no path. -/
theorem completed_without_breadcrumb :
    ¬ StepsMeet step Reclaims empty importOverEviction ∧
      ((run step empty importOverEviction).bind fun w => w.rows.find (.season 1 1)) =
        some ⟨.season 1 1, .completed, none, none, false⟩ := by
  decide +kernel

end Reclaim

end PlexManager
