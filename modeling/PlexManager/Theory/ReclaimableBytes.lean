import Mathlib.Algebra.Order.BigOperators.Ring.Finset
import PlexManager.Core.ReclaimableBytes

/-!
# What the count of reclaimable bytes misses

A file is counted when its inode has one link. The bytes that a removal frees are those
of the inodes with no link from elsewhere, and such an inode can have two links or more,
all of them in the tree that goes: then it is freed and not counted.

## Theorems

* `used_delete`: What a removal frees.
* `reclaimableBytes_released`: Nothing is counted that stays allocated.
* `reclaimableBytes_eq_iff`: When the count is exact.
* `inner_links_uncounted`: A directory with two links to its one file.
-/

namespace PlexManager

namespace Filesystem

namespace Volume

variable (v : Volume)

theorem freed_eq :
    v.freed = ∑ ino ∈ v.entry.inodes.toFinset, if v.elsewhere ino = 0 then v.size ino else 0 := by
  rw [freed, Finset.sum_filter]
  refine Finset.sum_congr rfl fun ino _ => if_congr ?_ rfl rfl
  simp only [nlink]
  omega

theorem used_delete (table : Finset Nat) (h : ∀ ino ∈ v.entry.inodes, ino ∈ table) :
    v.used table = v.delete.used table + v.freed := by
  have haft (ino : Nat) : v.delete.nlink ino = v.elsewhere ino := Nat.zero_add _
  -- The inodes with a link before: those with one elsewhere, and those with the rest inside.
  have hdisjoint : Disjoint (table.filter fun ino => 0 < v.elsewhere ino)
      (v.entry.inodes.toFinset.filter fun ino => v.elsewhere ino = 0) :=
    Finset.disjoint_filter_filter_not _ _ _ |>.mono_right fun ino hino => by
      simp only [Finset.mem_filter, List.mem_toFinset] at hino ⊢
      exact ⟨h ino hino.1, by omega⟩
  rw [freed_eq, ← Finset.sum_filter, used, used]
  simp only [haft]
  refine Eq.trans (Finset.sum_congr ?_ fun _ _ => rfl) (Finset.sum_union hdisjoint)
  ext ino
  have hcnt : 0 < v.entry.inodes.count ino ↔ ino ∈ v.entry.inodes := List.count_pos_iff
  have hlink : v.nlink ino = v.entry.inodes.count ino + v.elsewhere ino := rfl
  simp only [Finset.mem_filter, Finset.mem_union, List.mem_toFinset, hlink]
  by_cases hin : ino ∈ v.entry.inodes
  · have hpos := hcnt.mpr hin
    simp only [hin, h ino hin, true_and]
    omega
  · have hzero : v.entry.inodes.count ino = 0 := List.count_eq_zero.mpr hin
    simp [hin, hzero]

theorem walk_eq (children : Listing) : v.walk children = (children.inodes.map v.own).sum := by
  induction children with
  | nil => rfl
  | file ino rest ih => simp [walk, Listing.inodes, ih]
  | link rest ih => exact ih
  | dir children rest ihc ihr => simp [walk, Listing.inodes, ihc, ihr]

theorem reclaimableBytes_eq :
    v.reclaimableBytes =
      ∑ ino ∈ v.entry.inodes.toFinset, v.entry.inodes.count ino * v.own ino := by
  have hsum : v.reclaimableBytes = (v.entry.inodes.map v.own).sum := by
    unfold reclaimableBytes
    split
    · next h => simp [h, Entry.inodes]
    · next h => simp [h, Entry.inodes]
    · next ino h => simp [h, Entry.inodes]
    · next children h => rw [h]; exact v.walk_eq children
  exact hsum.trans (Finset.sum_list_map_count _ _)

theorem counted_eq (ino : Nat) :
    v.entry.inodes.count ino * v.own ino =
      if v.entry.inodes.count ino = 1 ∧ v.elsewhere ino = 0 then v.size ino else 0 := by
  have hlink : v.nlink ino = v.entry.inodes.count ino + v.elsewhere ino := rfl
  by_cases hzero : v.entry.inodes.count ino = 0
  · simp [hzero]
  · by_cases hone : v.nlink ino ≤ 1
    · have hcnt : v.entry.inodes.count ino = 1 := by omega
      rw [own, if_pos hone, if_pos ⟨hcnt, by omega⟩, hcnt, Nat.one_mul]
    · rw [own, if_neg hone, if_neg (by omega), Nat.mul_zero]

theorem counted_le (ino : Nat) :
    v.entry.inodes.count ino * v.own ino ≤ if v.elsewhere ino = 0 then v.size ino else 0 := by
  rw [counted_eq]
  by_cases hout : v.elsewhere ino = 0
  · by_cases hone : v.entry.inodes.count ino = 1 <;> simp [hout, hone]
  · simp [hout]

theorem reclaimableBytes_le : v.reclaimableBytes ≤ v.freed := by
  rw [reclaimableBytes_eq, freed_eq]
  exact Finset.sum_le_sum fun ino _ => v.counted_le ino

/-- What is counted is no longer in use once the entry is gone. -/
theorem reclaimableBytes_released (table : Finset Nat) (h : ∀ ino ∈ v.entry.inodes, ino ∈ table) :
    v.delete.used table + v.reclaimableBytes ≤ v.used table := by
  rw [v.used_delete table h]
  exact Nat.add_le_add_left v.reclaimableBytes_le _

theorem reclaimableBytes_released_linked :
    let v : Volume := ⟨.dir (.file 7 (.file 8 .nil)), fun _ => 5, fun ino => if ino = 8 then 1
      else 0⟩
    v.delete.used {7, 8} + 5 ≤ v.used {7, 8} :=
  reclaimableBytes_released _ {7, 8} (by decide)

/-- The count is exact just when an inode that has two links or more, all of them in the
    entry, is empty. -/
theorem reclaimableBytes_eq_iff :
    v.reclaimableBytes = v.freed ↔
      ∀ ino, 1 < v.entry.inodes.count ino → v.elsewhere ino = 0 → v.size ino = 0 := by
  rw [reclaimableBytes_eq, freed_eq, Finset.sum_eq_sum_iff_of_le fun ino _ => v.counted_le ino]
  refine forall_congr' fun ino => ?_
  rw [List.mem_toFinset, ← List.count_pos_iff, counted_eq]
  by_cases hout : v.elsewhere ino = 0
  · by_cases hone : v.entry.inodes.count ino = 1
    · simp [hout, hone]
    · simp only [hout, hone, false_and, if_false, if_true, true_implies, eq_comm]
      exact imp_congr_left (by omega)
  · simp [hout]

/-- A directory with two links to one inode of five bytes: the removal frees them. -/
theorem inner_links_uncounted :
    let v : Volume := ⟨.dir (.file 7 (.file 7 .nil)), fun _ => 5, fun _ => 0⟩
    v.reclaimableBytes = 0 ∧ v.freed = 5 := by
  decide

end Volume

end Filesystem

end PlexManager
