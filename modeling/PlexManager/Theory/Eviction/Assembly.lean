import PlexManager.Core.Eviction.Assembly

/-!
# Skipping a walk

Whether a title may be evicted does not depend on its size. So the titles whose size was not
walked are the ones that no ranking has, and the others come with the same size and the same
payload as if all had been walked. A path in some roots is at home in the deepest of them,
and in no other.

## Theorems

* `assembly_agrees`: A cutoff changes no ranking, no selection, no row and no payload of what
  may be selected, and each row is a candidate of one root.
-/

namespace PlexManager

namespace EvictionRanking

open PosixPath

/-! ### The deepest root -/

/-- A root that is not blank has the path. -/
def Inside (path root : Path) : Prop :=
  blank root = false ∧ contains (normpath root) (normpath path) = true

structure Best (path : Path) (seen : List Path) (best : Option (Path × Nat)) : Prop where
  found : ∀ b, best = some b → b.1 ∈ seen ∧ Inside path b.1 ∧ b.2 = depth (normpath b.1)
  most : ∀ root ∈ seen, Inside path root → ∃ b, best = some b ∧ depth (normpath root) ≤ b.2

variable {path : Path} {roots seen : List Path} {best : Option (Path × Nat)}

theorem Best.deeper (h : Best path seen best) (root : Path) :
    Best path (seen ++ [root]) (deeper (normpath path) best root) := by
  rcases h with ⟨hgot, hmost⟩
  unfold EvictionRanking.deeper
  by_cases hin : Inside path root
  · rw [if_neg (by simp [hin.1, hin.2])]
    cases best with
    | none =>
      simp only [Option.all_none, if_true]
      constructor <;> grind
    | some b =>
      simp only [Option.all_some, decide_eq_true_eq]
      split <;> constructor <;> grind
  · rw [if_pos (by unfold Inside at hin; grind)]
    constructor <;> grind

theorem best_foldl (roots : List Path) (h : Best path seen best) :
    Best path (seen ++ roots) (roots.foldl (deeper (normpath path)) best) := by
  induction roots generalizing seen best with
  | nil =>
    rw [List.append_nil]
    exact h
  | cons root roots ih =>
    rw [List.append_cons]
    exact ih (h.deeper root)

theorem deepestContainingRoot_spec (hpath : path ≠ []) (hin : ∃ root ∈ roots, Inside path root) :
    ∃ home ∈ roots, deepestContainingRoot path roots = some home ∧ Inside path home ∧
      ∀ root ∈ roots, Inside path root → depth (normpath root) ≤ depth (normpath home) := by
  have hnone : Best path [] none := ⟨nofun, nofun⟩
  rcases best_foldl roots hnone with ⟨hgot, hmost⟩
  rcases hin with ⟨root, hroot, hinside⟩
  rcases hmost root hroot hinside with ⟨⟨home, k⟩, hbest, -⟩
  rcases hgot _ hbest with ⟨hmem, hhome, hk⟩
  dsimp only at hmem hhome hk
  subst hk
  refine ⟨home, hmem, by rw [deepestContainingRoot, if_neg hpath, hbest]; rfl, hhome, ?_⟩
  intro r hr hr'
  rcases hmost r hr hr' with ⟨b, hb, hle⟩
  obtain rfl := Option.some.inj (hbest.symm.trans hb)
  exact hle

/-! ### The loop -/

variable {sizeBytes : Path → Option Nat} {rootTotalBytes cutoff : Int} {graceCutoff : Option Int}

def Prospect.walked (sizeBytes : Path → Option Nat) (rootTotalBytes : Int) (p : Prospect) :
    EvictionCandidate × Pending :=
  let size := (sizedPath sizeBytes p.libraryPath []).1
  ({ p.candidate with sizePercent := some (share size rootTotalBytes) }, p.pending.withSize size)

def Prospect.assembled (sizeBytes : Path → Option Nat) (rootTotalBytes : Int)
    (graceCutoff : Option Int) (p : Prospect) : EvictionCandidate × Pending :=
  if graceCutoff.any fun cutoff => !isEvictable cutoff p.candidate then
    ({ p.candidate with sizePercent := none }, p.pending.withSize none)
  else p.walked sizeBytes rootTotalBytes

theorem assemble_eq (ps : List Prospect) {cache : List (Path × Option Nat)}
    (hcache : ∀ path size, cache.lookup path = some size → size = sizeBytes path) :
    assemble sizeBytes rootTotalBytes graceCutoff ps cache =
      ps.map (Prospect.assembled sizeBytes rootTotalBytes graceCutoff) := by
  induction ps generalizing cache with
  | nil => rfl
  | cons p ps ih =>
    have hsized : (sizedPath sizeBytes p.libraryPath cache).1 =
          (sizedPath sizeBytes p.libraryPath []).1 ∧
        ∀ path size, (sizedPath sizeBytes p.libraryPath cache).2.lookup path = some size →
          size = sizeBytes path := by
      rcases p.libraryPath with _ | _ | ⟨c, cs⟩
      · exact ⟨rfl, hcache⟩
      · exact ⟨rfl, hcache⟩
      dsimp only [sizedPath]
      cases hgot : cache.lookup (c :: cs) with
      | some size => exact ⟨hcache _ size hgot, hcache⟩
      | none =>
        refine ⟨rfl, fun path size h => ?_⟩
        rw [List.lookup_cons] at h
        split at h
        · rename_i hsame
          rw [← Option.some.inj h, beq_iff_eq.mp hsame]
        · exact hcache path size h
    rw [assemble, List.map_cons, Prospect.assembled]
    split
    · rw [ih hcache]
    · dsimp only
      rw [ih hsized.2, hsized.1]
      rfl

theorem dated_filter (candidates : List EvictionCandidate) (graceCutoff : Int) :
    dated (candidates.filter (isEvictable graceCutoff)) graceCutoff =
      dated candidates graceCutoff := by
  unfold dated
  rw [List.filterMap_filter]
  refine List.filterMap_congr fun candidate _ => ?_
  unfold isEvictable
  cases candidate.lastViewedAt with
  | none => rfl
  | some v =>
    dsimp only
    split <;> simp_all

/-- Two assemblies have the same rows, and what may be evicted is in both, with the same
    size, the same payload and in the same order. -/
structure Agree (cutoff : Int) (skipped walked : List (EvictionCandidate × Pending)) : Prop where
  ranked : rankEvictionCandidates (skipped.map Prod.fst) cutoff =
    rankEvictionCandidates (walked.map Prod.fst) cutoff
  selected : ∀ usedPct thresholdPct targetPct,
    selectEvictions (skipped.map Prod.fst) usedPct thresholdPct targetPct cutoff =
      selectEvictions (walked.map Prod.fst) usedPct thresholdPct targetPct cutoff
  rows : skipped.map (fun row => ({ row.1 with sizePercent := none }, row.2.withSize none)) =
    walked.map fun row => ({ row.1 with sizePercent := none }, row.2.withSize none)
  payloads : skipped.filter (isEvictable cutoff ·.1) = walked.filter (isEvictable cutoff ·.1)

theorem Agree.of_payloads {skipped walked : List (EvictionCandidate × Pending)}
    (hrows : skipped.map (fun row => ({ row.1 with sizePercent := none }, row.2.withSize none)) =
      walked.map fun row => ({ row.1 with sizePercent := none }, row.2.withSize none))
    (h : skipped.filter (isEvictable cutoff ·.1) = walked.filter (isEvictable cutoff ·.1)) :
    Agree cutoff skipped walked := by
  have hrank : rankEvictionCandidates (skipped.map Prod.fst) cutoff =
      rankEvictionCandidates (walked.map Prod.fst) cutoff := by
    have hfilt (rows : List (EvictionCandidate × Pending)) :
        (rows.map Prod.fst).filter (isEvictable cutoff) =
          (rows.filter (isEvictable cutoff ·.1)).map Prod.fst := List.filter_map
    rw [rankEvictionCandidates, rankEvictionCandidates, ← dated_filter, hfilt, h, ← hfilt,
      dated_filter]
  refine ⟨hrank, fun usedPct thresholdPct targetPct => ?_, hrows, h⟩
  rw [selectEvictions, hrank]
  rfl

theorem assemble_agrees (ps : List Prospect) :
    Agree cutoff (assemble sizeBytes rootTotalBytes (some cutoff) ps [])
      (assemble sizeBytes rootTotalBytes none ps []) := by
  rw [assemble_eq ps (by simp), assemble_eq ps (by simp)]
  apply Agree.of_payloads
  · rw [List.map_map, List.map_map]
    refine List.map_congr_left fun p _ => ?_
    have hpend (size : Option Nat) :
        (p.pending.withSize size).withSize none = p.pending.withSize none := by
      cases p.pending <;> rfl
    simp only [Function.comp_apply, Prospect.assembled, Prospect.walked, Option.any_none]
    split <;> simp [hpend]
  · induction ps with
    | nil => rfl
    | cons p ps ih =>
      rw [List.map_cons, List.map_cons, List.filter_cons, List.filter_cons, ih]
      -- The size is not looked at.
      have hsize (size : Option Rat) :
          isEvictable cutoff { p.candidate with sizePercent := size } =
            isEvictable cutoff p.candidate := rfl
      cases hevictable : isEvictable cutoff p.candidate with
      | true => simp [Prospect.assembled, hevictable]
      | false => simp [Prospect.assembled, Prospect.walked, hevictable, hsize]

theorem requestId_assemble (ps : List Prospect) :
    (assemble sizeBytes rootTotalBytes none ps []).map (·.1.requestId) =
      ps.map (·.candidate.requestId) := by
  rw [assemble_eq ps (by simp), List.map_map]
  rfl

/-- A cutoff changes no ranking, no selection, no row and no payload of what may be selected.
    The candidates of a root are its rows, and a row with a path in some roots is one of the
    deepest of these alone. -/
theorem assembly_agrees (l : Shelf) (rootTotalBytes cutoff : Int) (roots : List Path) :
    (∀ root, Agree cutoff (movieCandidates l rootTotalBytes root roots (some cutoff))
        (movieCandidates l rootTotalBytes root roots none) ∧
      Agree cutoff (seasonCandidates l rootTotalBytes root roots (some cutoff))
        (seasonCandidates l rootTotalBytes root roots none) ∧
      (movieCandidates l rootTotalBytes root roots none).map (·.1.requestId) =
        (movieRows l root roots).map (·.id) ∧
      (seasonCandidates l rootTotalBytes root roots none).map (·.1.requestId) =
        (seasonRows l root roots).map (·.id)) ∧
    ∀ path, path ≠ [] → (∃ root ∈ roots, Inside path root) →
      ∃ home ∈ roots, Inside path home ∧
        (∀ root ∈ roots, Inside path root → depth (normpath root) ≤ depth (normpath home)) ∧
        (∀ row ∈ l.requests, row.status = .available → row.isMovie = true →
          row.libraryPath = some path → ∀ root ∈ roots,
            (row ∈ movieRows l root roots ↔ root = home)) ∧
        ∀ row ∈ l.seasons, row.status = .available → row.libraryPath = some path →
          ∀ root ∈ roots, (row ∈ seasonRows l root roots ↔ root = home) := by
  refine ⟨fun root => ⟨assemble_agrees _, assemble_agrees _, ?_, ?_⟩, fun path hpath hin => ?_⟩
  · exact (requestId_assemble _).trans List.map_map
  · exact (requestId_assemble _).trans List.map_map
  rcases deepestContainingRoot_spec hpath hin with ⟨home, hmem, hgot, hinside, hdeepest⟩
  have hown : ∀ root ∈ roots, (ownedByRoot (some path) root roots = true ↔ root = home) := by
    intro root hroot
    rw [ownedByRoot, if_pos hroot, Option.any_some, hgot, decide_eq_true_eq,
      Option.some.injEq, eq_comm]
  refine ⟨home, hmem, hinside, hdeepest, fun row hrow hstatus hmov hp root hroot => ?_,
    fun row hrow hstatus hp root hroot => ?_⟩
  · simp [movieRows, List.mem_filter, hrow, hstatus, hmov, hp, hown root hroot]
  · simp [seasonRows, List.mem_filter, hrow, hstatus, hp, hown root hroot]

end EvictionRanking

end PlexManager
