import PlexManager.Core.PurgeGuard
import PlexManager.Lib.Transition

/-!
# No thread deletes where an import places

The registries compare texts. A placement that is registered and a purge at work
never conflict as texts, whatever is cancelled, raised, started or abandoned: a
purge looks for placements when it registers, and while it stays registered it
turns away those that come. It stays registered until its thread has ended,
since every way out of it takes back exactly what its way in put there. So the
count of a path is the number of calls that hold it.

Texts that conflict are places of which one contains the other, and conversely,
for all paths below the root that begin with one separator. The root contains
every path and conflicts with none but itself, and two separators at the front
hide a path from the one it is. There the registries do not see an overlap.

## Theorems

* `purge_spares_placements`: The registries drain in every run, and no thread
  deletes on a path that overlaps a placement if all paths are anchored.
* `deletes_below_root`: A placement of the root overlaps a deletion.
-/

namespace PlexManager

namespace PurgeGuard

open KeyedTable Interleaving PosixPath Transition

variable {proc : Process}

/-! ### Counts -/

theorem get_increment (r : Registry) (norm k : List Char) :
    (r.increment norm).get k = r.get k + if norm = k then 1 else 0 := by
  unfold Registry.increment Registry.get
  by_cases hin : (r.find norm).isSome = true
  · rw [if_pos hin, Table.find_modify]
    by_cases hk : norm = k
    · subst hk
      rcases Option.isSome_iff_exists.mp hin with ⟨e, he⟩
      simp [he]
    · have hk' : k ≠ norm := fun h => hk h.symm
      cases r.find k <;> simp [hk, hk']
  · rw [if_neg hin, Table.find_insert]
    have hnone : r.find norm = none := by simpa using hin
    by_cases hk : norm = k
    · subst hk
      simp [hnone]
    · simp [hk]

theorem get_decrement (r : Registry) (norm k : List Char) :
    (r.decrement norm).get k = if norm = k then r.get k - 1 else r.get k := by
  unfold Registry.decrement
  by_cases hmany : r.get norm > 1
  · rw [if_pos hmany]
    unfold Registry.get
    rw [Table.find_modify]
    by_cases hk : norm = k
    · subst hk
      cases r.find norm <;> simp
    · have hk' : k ≠ norm := fun h => hk h.symm
      cases r.find k <;> simp [hk, hk']
  · rw [if_neg hmany]
    have herase : Registry.get (r.erase norm) k = if norm = k then 0 else r.get k := by
      unfold Registry.get
      rw [Table.find_erase]
      by_cases hk : norm = k
      · simp [hk]
      · have hk' : k ≠ norm := fun h => hk h.symm
        simp [hk, hk']
    rw [herase]
    by_cases hk : norm = k
    · subst hk
      simp only [if_true]
      omega
    · simp [hk]

def Registry.Positive (r : Registry) : Prop := ∀ e ∈ r.rows, 0 < e.2

variable {r : Registry} {a : Caller} {as : List Action} {w : World} {e : List Char × Nat}
  {norm k : List Char}

theorem positive_increment (h : r.Positive) (norm : List Char) : (r.increment norm).Positive := by
  intro e he
  unfold Registry.increment at he
  split at he
  · rcases List.mem_map.mp he with ⟨e', he', rfl⟩
    have := h e' he'
    split
    · exact Nat.succ_pos _
    · exact this
  · rcases Table.mem_insert he with he | rfl
    · exact h e he
    · exact Nat.one_pos

theorem get_of_mem (he : e ∈ r.rows) : r.get e.1 = e.2 := by
  have hfind : r.find e.1 = some e := Table.find_eq_some.mpr ⟨he, rfl⟩
  simp [Registry.get, hfind]

theorem positive_decrement (h : r.Positive) (norm : List Char) : (r.decrement norm).Positive := by
  intro e he
  unfold Registry.decrement at he
  split at he
  · rename_i hmany
    rcases List.mem_map.mp he with ⟨e', he', rfl⟩
    have hpos := h e' he'
    split
    · rename_i hk
      rw [← hk, get_of_mem he'] at hmany
      show 0 < e'.2 - 1
      omega
    · exact hpos
  · exact h e (List.mem_filter.mp he).1

theorem key_increment
    (he : e ∈ (r.increment norm).rows) : e.1 = norm ∨ ∃ e' ∈ r.rows, e'.1 = e.1 := by
  unfold Registry.increment at he
  split at he
  · rcases List.mem_map.mp he with ⟨e', he', rfl⟩
    refine .inr ⟨e', he', ?_⟩
    split <;> rfl
  · rcases Table.mem_insert he with he | rfl
    · exact .inr ⟨e, he, rfl⟩
    · exact .inl rfl

theorem key_decrement (he : e ∈ (r.decrement norm).rows) : ∃ e' ∈ r.rows, e'.1 = e.1 := by
  unfold Registry.decrement at he
  split at he
  · rcases List.mem_map.mp he with ⟨e', he', rfl⟩
    refine ⟨e', he', ?_⟩
    split <;> rfl
  · exact ⟨e, (List.mem_filter.mp he).1, rfl⟩

theorem exists_key_of_get (h : 0 < r.get norm) : ∃ e ∈ r.rows, e.1 = norm := by
  unfold Registry.get at h
  cases hfind : r.find norm with
  | none =>
    rw [hfind] at h
    simp at h
  | some e => exact ⟨e, Table.find_eq_some.mp hfind⟩

/-! ### Texts and places -/

/-- One place is the other, contains it, or is contained in it. -/
def Overlap (norm other : List Char) : Prop :=
  location norm <+: location other ∨ location other <+: location norm

instance (norm other : List Char) : Decidable (Overlap norm other) :=
  inferInstanceAs (Decidable (_ ∨ _))

/-- A path that is neither the root nor begins with two separators. -/
def Anchored (proc : Process) (path : List Char) : Prop :=
  normalizeGuardPath proc path ≠ ['/'] ∧ ¬['/', '/'] <+: normalizeGuardPath proc path

instance (path : List Char) : Decidable (Anchored proc path) :=
  inferInstanceAs (Decidable (_ ∧ _))

/-- The normal form of an anchored path. -/
def Below (norm : List Char) : Prop :=
  ∃ comps, comps ≠ [] ∧ Clean comps ∧ norm = '/' :: join comps

theorem below_of_anchored {path : List Char} (h : Anchored proc path) :
    Below (normalizeGuardPath proc path) := by
  rcases abspath_eq proc.absolute (normpath path) with ⟨comps, hcln, heq | heq⟩
  · refine ⟨comps, ?_, hcln, heq⟩
    rintro rfl
    exact h.1 heq
  · refine absurd ?_ h.2
    exact ⟨join comps, heq.symm⟩

theorem conflict_symm (norm other : List Char) : conflict norm other = conflict other norm := by
  unfold conflict
  rw [Bool.or_assoc, Bool.or_assoc, Bool.or_comm (List.isPrefixOf _ _)]
  congr 1
  exact decide_eq_decide.mpr eq_comm

-- The guard compares texts and sees where places overlap.
theorem conflict_iff_overlap {other : List Char} (h : Below norm) (h' : Below other) :
    conflict norm other = true ↔ Overlap norm other := by
  rcases h with ⟨comps, hne, hcln, rfl⟩
  rcases h' with ⟨comps', hne', hcln', rfl⟩
  have hinj : '/' :: join comps = '/' :: join comps' ↔ comps = comps' := by
    constructor
    · intro heq
      rw [← location_join hne hcln, heq, location_join hne' hcln']
    · rintro rfl
      rfl
  simp only [conflict, Bool.or_eq_true, decide_eq_true_eq, List.isPrefixOf_iff_prefix, hinj,
    append_sep_prefix_iff hne hcln hcln', append_sep_prefix_iff hne' hcln' hcln, Overlap,
    location_join hne hcln, location_join hne' hcln']
  constructor
  · rintro ((rfl | ⟨h, _⟩) | ⟨h, _⟩)
    · exact .inl List.prefix_rfl
    · exact .inr h
    · exact .inl h
  · rintro (h | h)
    · by_cases heq : comps = comps'
      · exact .inl (.inl heq)
      · exact .inr ⟨h, heq⟩
    · by_cases heq : comps = comps'
      · exact .inl (.inl heq)
      · exact .inl (.inr ⟨h, fun h => heq h.symm⟩)

/-! ### Who holds a registration -/

def Caller.path : Caller → List Char
  | .placement path _ => path
  | .claim path _ => path
  | .purge a _ => a.libraryPath

def Caller.working : Caller → Bool
  | .purge _ pc => pc ≠ .entering && pc ≠ .ended
  | _ => false

def Caller.purging : Caller → Bool
  | .claim _ pc => pc = .holding
  | .purge _ pc => pc ≠ .entering && pc ≠ .ended
  | .placement _ _ => false

def Caller.placing : Caller → Bool
  | .placement _ pc => pc = .holding
  | _ => false

def purgeWeight (proc : Process) (k : List Char) (a : Caller) : Nat :=
  if a.purging && normalizeGuardPath proc a.path = k then 1 else 0

def placementWeight (proc : Process) (k : List Char) (a : Caller) : Nat :=
  if a.placing && normalizeGuardPath proc a.path = k then 1 else 0

variable (t : Turn) (s : Registries) {s' : Registries}

theorem path_next (a : Caller) : (a.next proc t s).2.path = a.path := by
  cases a with
  | placement path pc | claim path pc => cases pc <;> rfl
  | purge a pc => rfl

/-! ### What a step does to the registries -/

/-- The ways a step may change the registries. -/
inductive Effect (proc : Process) (s : Registries) (a : Caller) : Registries → Caller → Prop where
  | keeps (b : Caller) (hpurging : b.purging = a.purging) (hworking : b.working = a.working)
      (hplacing : b.placing = a.placing) : Effect proc s a s b
  | places (b : Caller) (hfree : conflictsWith proc a.path s.purge = false)
      (hpurging : b.purging = a.purging) (hworking : b.working = false)
      (hbefore : a.placing = false) (hafter : b.placing = true) :
      Effect proc s a { s with placement := register proc a.path s.placement } b
  | unplaces (b : Caller) (hpurging : b.purging = a.purging) (hworking : b.working = false)
      (hbefore : a.placing = true) (hafter : b.placing = false) :
      Effect proc s a { s with placement := unregister proc a.path s.placement } b
  | claims (b : Caller)
      (hfree : b.working = true → conflictsWith proc a.path s.placement = false)
      (hplacing : b.placing = a.placing) (hbefore : a.purging = false)
      (hafter : b.purging = true) :
      Effect proc s a { s with purge := register proc a.path s.purge } b
  | releases (b : Caller) (hworking : b.working = false) (hplacing : b.placing = a.placing)
      (hbefore : a.purging = true) (hafter : b.purging = false) :
      Effect proc s a { s with purge := unregister proc a.path s.purge } b

theorem effect_of_settle (a : PurgeArgs) (st : Settlement) :
    Effect proc s (.purge a (.settling st)) (settle proc s a st).1
      (.purge a (settle proc s a st).2) := by
  unfold settle
  split
  · exact .keeps _ rfl rfl rfl
  · split
    · exact .releases _ rfl rfl rfl rfl
    · exact .keeps _ rfl rfl rfl

theorem effect_of_purge (a : PurgeArgs) (pc : PurgePc) :
    Effect proc s (.purge a pc) (purgeNext proc t s a pc).1
      (.purge a (purgeNext proc t s a pc).2) := by
  cases pc with
  | entering =>
    simp only [purgeNext]
    split
    · exact .keeps _ rfl rfl rfl
    · rename_i hfree
      exact .claims _ (fun _ => by simpa [Caller.path] using hfree) rfl rfl rfl
  | guard | reclaim | held =>
    simp only [purgeNext]
    split
    all_goals first
      | exact .keeps _ rfl rfl rfl
      | exact .releases _ rfl rfl rfl rfl
  | gate =>
    simp only [purgeNext]
    split
    · dsimp only
      split <;> exact .keeps _ rfl rfl rfl
    · exact .releases _ rfl rfl rfl rfl
    · exact .releases _ rfl rfl rfl rfl
    · exact .keeps _ rfl rfl rfl
  | hook =>
    simp only [purgeNext]
    split
    · exact .keeps _ rfl rfl rfl
    · exact .releases _ rfl rfl rfl rfl
    · exact .releases _ rfl rfl rfl rfl
    · exact .keeps _ rfl rfl rfl
  | settling st =>
    simp only [purgeNext]
    split
    · split
      · exact effect_of_settle s a st
      · exact .keeps _ rfl rfl rfl
    · exact .keeps _ rfl rfl rfl
  | orphaned worker =>
    simp only [purgeNext]
    split
    · exact .releases _ rfl rfl rfl rfl
    · exact .keeps _ rfl rfl rfl
  | ended => exact .keeps _ rfl rfl rfl

theorem beginPlacement_cases (proc : Process) (path : List Char) (s : Registries) :
    beginPlacement proc path s = (false, s) ∨
      (conflictsWith proc path s.purge = false ∧
        beginPlacement proc path s =
          (true, { s with placement := register proc path s.placement })) := by
  by_cases hfree : conflictsWith proc path s.purge = true
  · exact .inl (if_pos hfree)
  · exact .inr ⟨by simpa using hfree, if_neg hfree⟩

theorem beginPurge_cases (proc : Process) (path : List Char) (s : Registries) :
    beginPurge proc path s = (false, s) ∨
      beginPurge proc path s = (true, { s with purge := register proc path s.purge }) := by
  by_cases hfree : conflictsWith proc path s.purge = true
  · exact .inl (if_pos hfree)
  · exact .inr (if_neg hfree)

theorem effect_of_next (a : Caller) : Effect proc s a (a.next proc t s).1 (a.next proc t s).2 := by
  cases a with
  | placement path pc =>
    cases pc with
    | entering =>
      rcases beginPlacement_cases proc path s with h | ⟨hfree, h⟩
      · simp only [Caller.next, h]
        exact .keeps _ rfl rfl rfl
      · simp only [Caller.next, h]
        exact .places _ hfree rfl rfl rfl rfl
    | holding => exact .unplaces _ rfl rfl rfl rfl
    | ended => exact .keeps _ rfl rfl rfl
  | claim path pc =>
    cases pc with
    | entering =>
      rcases beginPurge_cases proc path s with h | h
      · simp only [Caller.next, h]
        exact .keeps _ rfl rfl rfl
      · simp only [Caller.next, h]
        exact .claims _ (fun h => absurd h nofun) rfl rfl rfl
    | holding => exact .releases _ rfl rfl rfl rfl
    | ended => exact .keeps _ rfl rfl rfl
  | purge a pc => exact effect_of_purge t s a pc

/-! ### The ledgers -/

theorem free_of_conflictsWith {path : List Char} (h : conflictsWith proc path r = false)
    (he : e ∈ r.rows) : conflict (normalizeGuardPath proc path) e.1 = false := by
  simp only [conflictsWith, List.any_eq_false, Bool.not_eq_true] at h
  exact h e he

/-- The purges of one path. A purge at work on it conflicts with no placement,
    and the path is registered as often as there are calls that hold it. -/
def purgeLedger (proc : Process) (k : List Char) : Outline Registries Caller where
  Shared := fun s => s.purge.Positive
  Local := fun s a => a.working = true → normalizeGuardPath proc a.path = k →
    ∀ e ∈ s.placement.rows, conflict k e.1 = false
  Apart := fun _ _ => True
  weight := purgeWeight proc k
  held := fun s => s.purge.get k

def placementLedger (proc : Process) (k : List Char) : Outline Registries Caller where
  Shared := fun s => s.placement.Positive
  Local := fun _ _ => True
  Apart := fun _ _ => True
  weight := placementWeight proc k
  held := fun s => s.placement.get k

theorem purging_of_working (h : a.working = true) : a.purging = true := by
  cases a with
  | purge a pc => exact h
  | placement path pc | claim path pc => simp [Caller.working] at h

theorem purgeWeight_of_purging (h : a.purging = true) :
    purgeWeight proc k a = if normalizeGuardPath proc a.path = k then 1 else 0 := by
  simp [purgeWeight, h]

theorem purgeWeight_of_not (h : a.purging = false) : purgeWeight proc k a = 0 := by
  simp [purgeWeight, h]

theorem placementWeight_of_placing (h : a.placing = true) :
    placementWeight proc k a = if normalizeGuardPath proc a.path = k then 1 else 0 := by
  simp [placementWeight, h]

theorem placementWeight_of_not (h : a.placing = false) : placementWeight proc k a = 0 := by
  simp [placementWeight, h]

variable {s : Registries} {b : Caller}

theorem purge_account (heff : Effect proc s a s' b) (hpath : b.path = a.path)
    (hheld : purgeWeight proc k a ≤ s.purge.get k) :
    s'.purge.get k + purgeWeight proc k a = s.purge.get k + purgeWeight proc k b := by
  cases heff with
  | keeps b hpurg | places b hfree hpurg | unplaces b hpurg =>
    simp only [purgeWeight, hpurg, hpath]
  | claims b hfree hplac hbef haft =>
    rw [purgeWeight_of_not hbef, purgeWeight_of_purging haft, hpath]
    simp only [register, get_increment]
    omega
  | releases b hwork hplac hbef haft =>
    rw [purgeWeight_of_purging hbef] at hheld ⊢
    rw [purgeWeight_of_not haft]
    simp only [unregister, get_decrement]
    by_cases hk : normalizeGuardPath proc a.path = k
    · rw [if_pos hk] at hheld
      simp only [hk, if_true]
      omega
    · simp only [hk, if_false]

theorem placement_account (heff : Effect proc s a s' b) (hpath : b.path = a.path)
    (hheld : placementWeight proc k a ≤ s.placement.get k) :
    s'.placement.get k + placementWeight proc k a =
      s.placement.get k + placementWeight proc k b := by
  cases heff with
  | keeps b hpurg hwork hplac | claims b hfree hplac
  | releases b hwork hplac => simp only [placementWeight, hplac, hpath]
  | places b hfree hpurg hwork hbef haft =>
    rw [placementWeight_of_not hbef, placementWeight_of_placing haft, hpath]
    simp only [register, get_increment]
    omega
  | unplaces b hpurg hwork hbef haft =>
    rw [placementWeight_of_placing hbef] at hheld ⊢
    rw [placementWeight_of_not haft]
    simp only [unregister, get_decrement]
    by_cases hk : normalizeGuardPath proc a.path = k
    · rw [if_pos hk] at hheld
      simp only [hk, if_true]
      omega
    · simp only [hk, if_false]

theorem positive_of_effect (heff : Effect proc s a s' b) :
    (s.purge.Positive → s'.purge.Positive) ∧ (s.placement.Positive → s'.placement.Positive) := by
  cases heff with
  | keeps => exact ⟨fun h => h, fun h => h⟩
  | places => exact ⟨fun h => h, fun h => positive_increment h _⟩
  | unplaces => exact ⟨fun h => h, fun h => positive_decrement h _⟩
  | claims => exact ⟨fun h => positive_increment h _, fun h => h⟩
  | releases => exact ⟨fun h => positive_decrement h _, fun h => h⟩

-- Who is at work on a registered path stays clear of every placement, for a placement that
-- comes is turned away by the registration.
theorem clear_of_effect (heff : Effect proc s a s' b)
    (hreg : 0 < s.purge.get k) (hclr : ∀ e ∈ s.placement.rows, conflict k e.1 = false) :
    ∀ e ∈ s'.placement.rows, conflict k e.1 = false := by
  cases heff with
  | keeps | claims | releases => exact hclr
  | places b hfree =>
    intro e he
    rcases key_increment he with hnew | ⟨e', he', hsame⟩
    · rcases exists_key_of_get hreg with ⟨p, hp, rfl⟩
      rw [hnew, conflict_symm]
      exact free_of_conflictsWith hfree hp
    · exact hsame ▸ hclr e' he'
  | unplaces =>
    intro e he
    rcases key_decrement he with ⟨e', he', hsame⟩
    exact hsame ▸ hclr e' he'

theorem purgeLedger_sound (k : List Char) :
    (purgeLedger proc k).Sound (Caller.next proc) (fun _ _ _ => True) where
  symm := fun _ _ _ => trivial
  own := by
    intro s a t hs ha hheld _
    have heff : Effect proc s a (a.next proc t s).1 (a.next proc t s).2 := effect_of_next t s a
    refine ⟨(positive_of_effect heff).1 hs, ?_⟩
    intro hwork hk
    rw [path_next] at hk
    revert heff hwork
    generalize (a.next proc t s).1 = s', (a.next proc t s).2 = b
    intro heff hwork
    cases heff with
    | keeps b hpurg hsame => exact ha (hsame ▸ hwork) hk
    | claims b hfree =>
      intro e he
      rw [← hk]
      exact free_of_conflictsWith (hfree hwork) he
    | places b _ _ hidle | unplaces b _ hidle | releases b hidle =>
      rw [hidle] at hwork
      simp at hwork
  frame := by
    intro s a b t _ _ hb _ hboth _ hwork hk
    have hwt : purgeWeight proc k b = 1 := by
      rw [purgeWeight_of_purging (purging_of_working hwork), if_pos hk]
    refine clear_of_effect (effect_of_next t s a) ?_ (hb hwork hk)
    simp only [purgeLedger] at hboth
    omega
  apart := fun _ _ _ _ _ _ _ _ => trivial
  account := fun s a t _ _ hheld =>
    purge_account (effect_of_next t s a) (path_next t s a) hheld

theorem placementLedger_sound (k : List Char) :
    (placementLedger proc k).Sound (Caller.next proc) (fun _ _ _ => True) where
  symm := fun _ _ _ => trivial
  own := fun s a t hs _ _ _ => ⟨(positive_of_effect (effect_of_next t s a)).2 hs, trivial⟩
  frame := fun _ _ _ _ _ _ _ _ _ _ => trivial
  apart := fun _ _ _ _ _ _ _ _ => trivial
  account := fun s a t _ _ hheld =>
    placement_account (effect_of_next t s a) (path_next t s a) hheld

/-! ### Runs -/

/-- No thread deletes on a path that overlaps a registered placement. -/
def Separate (proc : Process) (w : World) : Prop :=
  ∀ a ∈ w.actors, ∀ path, a.deletes = some path →
    ∀ e ∈ w.shared.placement.rows, ¬Overlap (normalizeGuardPath proc path) e.1

/-- Once every call is over nothing is registered. -/
def Drained (w : World) : Prop :=
  (∀ a ∈ w.actors, a.isOver = true) → w.shared.placement.rows = [] ∧ w.shared.purge.rows = []

theorem ledger_of_run {o : Outline Registries Caller}
    (hsound : o.Sound (Caller.next proc) (fun _ _ _ => True))
    (hbeg : ∀ s (r : Request), o.Local s r.start) (hsep : ∀ a b, o.Apart a b)
    (hwt : ∀ r : Request, o.weight r.start = 0) (hidle : o.Holds World.idle)
    (hrun : run (step proc) World.idle as = some w) : o.Holds w := by
  refine invariant_of_run ?_ World.idle w as hidle hrun
  intro w a w' h hstep
  cases a with
  | arrive r =>
    simp only [step, Option.some.injEq] at hstep
    subst hstep
    exact h.spawn hsound.symm (hbeg _ r) (fun b _ => hsep _ b) (hwt r)
  | act i t => exact hsound.act h (fun _ _ => trivial) hstep

theorem purgeLedger_of_run (hrun : run (step proc) World.idle as = some w) (k : List Char) :
    (purgeLedger proc k).Holds w := by
  refine ledger_of_run (purgeLedger_sound k) ?_ (fun _ _ => trivial) ?_ ?_ hrun
  · intro s r
    cases r <;> exact fun h => absurd h nofun
  · intro r
    have hidle : r.start.purging = false := by cases r <;> rfl
    exact purgeWeight_of_not hidle
  · exact ⟨fun e he => absurd he nofun,
      fun a ha => absurd ha nofun, List.Pairwise.nil, rfl⟩

theorem placementLedger_of_run (hrun : run (step proc) World.idle as = some w) (k : List Char) :
    (placementLedger proc k).Holds w := by
  refine ledger_of_run (placementLedger_sound k) (fun _ _ => trivial) (fun _ _ => trivial) ?_ ?_
    hrun
  · intro r
    have hidle : r.start.placing = false := by cases r <;> rfl
    exact placementWeight_of_not hidle
  · exact ⟨fun e he => absurd he nofun,
      fun _ _ => trivial, List.Pairwise.nil, rfl⟩

theorem anchored_of_run (hanch : ∀ r, Action.arrive r ∈ as → Anchored proc r.path)
    (hrun : run (step proc) World.idle as = some w) : ∀ a ∈ w.actors, Anchored proc a.path := by
  have hmeet : StepsMeet (step proc)
      (fun _ a => ∀ r, a = Action.arrive r → Anchored proc r.path) World.idle as :=
    stepsMeet_of_mem World.idle as fun a ha r hr => hanch r (hr ▸ ha)
  refine invariant_of_meeting_run (I := fun w => ∀ a ∈ w.actors, Anchored proc a.path) ?_
    World.idle w as (fun a ha => absurd ha nofun) hmeet hrun
  intro w a w' h hcond hstep
  cases a with
  | arrive r =>
    simp only [step, Option.some.injEq] at hstep
    subst hstep
    intro b hb
    rcases List.mem_append.mp hb with hb | hb
    · exact h b hb
    · rw [List.mem_singleton.mp hb]
      have hpath : r.start.path = r.path := by cases r <;> rfl
      rw [hpath]
      exact hcond r rfl
  | act i t =>
    rcases World.act_eq_some hstep with ⟨a, before, after, _, hact, rfl⟩
    have hall : ∀ b ∈ before ++ a :: after, Anchored proc b.path := hact ▸ h
    intro b hb
    simp only [List.mem_append, List.mem_cons] at hb hall
    rcases hb with hb | rfl | hb
    · exact hall b (.inl hb)
    · rw [path_next]
      exact hall a (.inr (.inl rfl))
    · exact hall b (.inr (.inr hb))

theorem working_of_deletes {path : List Char} (h : a.deletes = some path) :
    a.working = true ∧ a.path = path := by
  unfold Caller.deletes at h
  split at h
  · exact ⟨rfl, Option.some.inj h⟩
  · exact ⟨rfl, Option.some.inj h⟩
  · simp at h

theorem separate_of_run (hanch : ∀ r, Action.arrive r ∈ as → Anchored proc r.path)
    (hrun : run (step proc) World.idle as = some w) : Separate proc w := by
  have hpaths := anchored_of_run hanch hrun
  intro a ha path hdel e he hoverlap
  rcases working_of_deletes hdel with ⟨hwork, rfl⟩
  have hclr := (purgeLedger_of_run hrun (normalizeGuardPath proc a.path)).locals a ha hwork rfl e he
  have hledger := placementLedger_of_run hrun e.1
  have hcnt : 0 < w.shared.placement.get e.1 := by
    rw [get_of_mem he]
    exact hledger.shared e he
  rcases hledger.exists_weight hcnt with ⟨b, hb, hwt⟩
  have hkey : normalizeGuardPath proc b.path = e.1 := by
    by_contra hne
    simp [placementLedger, placementWeight, hne] at hwt
  have hlow : Below e.1 := hkey ▸ below_of_anchored (hpaths b hb)
  rw [(conflict_iff_overlap (below_of_anchored (hpaths a ha)) hlow).mpr hoverlap] at hclr
  simp at hclr

theorem not_purging_of_isOver (h : a.isOver = true) : a.purging = false ∧ a.placing = false := by
  unfold Caller.isOver at h
  split at h
  · exact ⟨rfl, rfl⟩
  · exact ⟨rfl, rfl⟩
  · exact ⟨rfl, rfl⟩
  · simp at h

theorem drained_of_run (hrun : run (step proc) World.idle as = some w) : Drained w := by
  intro hover
  constructor
  · refine List.eq_nil_iff_forall_not_mem.mpr fun e he => ?_
    have hledger := placementLedger_of_run hrun e.1
    have hcnt : 0 < w.shared.placement.get e.1 := by
      rw [get_of_mem he]
      exact hledger.shared e he
    rcases hledger.exists_weight hcnt with ⟨b, hb, hwt⟩
    have hzero : placementWeight proc e.1 b = 0 :=
      placementWeight_of_not (not_purging_of_isOver (hover b hb)).2
    simp only [placementLedger] at hwt
    omega
  · refine List.eq_nil_iff_forall_not_mem.mpr fun e he => ?_
    have hledger := purgeLedger_of_run hrun e.1
    have hcnt : 0 < w.shared.purge.get e.1 := by
      rw [get_of_mem he]
      exact hledger.shared e he
    rcases hledger.exists_weight hcnt with ⟨b, hb, hwt⟩
    have hzero : purgeWeight proc e.1 b = 0 :=
      purgeWeight_of_not (not_purging_of_isOver (hover b hb)).1
    simp only [purgeLedger] at hwt
    omega

/-- In every run the registries drain, and in every run whose paths lie below
    the root with one separator at the front no thread deletes where an import
    places. -/
theorem purge_spares_placements {as : List Action} {w : World}
    (hrun : run (step proc) World.idle as = some w) :
    Drained w ∧
      ((∀ r, Action.arrive r ∈ as → Anchored proc r.path) → Separate proc w) :=
  ⟨drained_of_run hrun, fun hanch => separate_of_run hanch hrun⟩

/-! ### The root -/

def media : Process := ⟨['/', 'm'], rfl⟩

variable (purged placed : List Char)

/-- A purge whose thread deletes, and a placement that comes. -/
def placedDuring : List Action :=
  [.arrive (.purge { libraryPath := purged }), .act 0 .proceed, .act 0 .proceed, .act 0 .proceed,
    .act 0 .proceed, .arrive (.placement placed), .act 1 .proceed]

def placedWorld : World :=
  (run (step media) World.idle (placedDuring purged placed)).getD World.idle

theorem placedDuring_run
    (h : (run (step media) World.idle (placedDuring purged placed)).isSome = true) :
    run (step media) World.idle (placedDuring purged placed) =
      some (placedWorld purged placed) := by
  rcases Option.isSome_iff_exists.mp h with ⟨w, hw⟩
  simp only [placedWorld, hw, Option.getD_some]

/-- A placement below the purged directory is turned away. -/
theorem placement_refused :
    (placedWorld ['/', 'm', '/', 'a'] ['/', 'm', '/', 'a', '/', 'b']).shared.placement.rows = [] ∧
      Separate media (placedWorld ['/', 'm', '/', 'a'] ['/', 'm', '/', 'a', '/', 'b']) := by
  have hrun := placedDuring_run ['/', 'm', '/', 'a'] ['/', 'm', '/', 'a', '/', 'b']
    (by decide +kernel)
  refine ⟨by decide +kernel, (purge_spares_placements hrun).2 ?_⟩
  intro r hr
  simp only [placedDuring, List.mem_cons, List.not_mem_nil, or_false, reduceCtorEq, false_or,
    Action.arrive.injEq] at hr
  rcases hr with rfl | rfl <;> decide +kernel

theorem deletes_below_root :
    run (step media) World.idle (placedDuring ['/', 'm', '/', 'a'] ['/']) =
        some (placedWorld ['/', 'm', '/', 'a'] ['/']) ∧
      (placedWorld ['/', 'm', '/', 'a'] ['/']).shared.placement.rows = [(['/'], 1)] ∧
      (placedWorld ['/', 'm', '/', 'a'] ['/']).actors.map Caller.deletes =
        [some ['/', 'm', '/', 'a'], none] ∧
      ¬Separate media (placedWorld ['/', 'm', '/', 'a'] ['/']) := by
  refine ⟨placedDuring_run _ _ (by decide +kernel), by decide +kernel, by decide +kernel, ?_⟩
  intro hseparate
  have hact : Caller.purge { libraryPath := ['/', 'm', '/', 'a'] } (.settling .start) ∈
      (placedWorld ['/', 'm', '/', 'a'] ['/']).actors := by decide +kernel
  have hput : (['/'], 1) ∈ (placedWorld ['/', 'm', '/', 'a'] ['/']).shared.placement.rows := by
    decide +kernel
  exact hseparate _ hact ['/', 'm', '/', 'a'] rfl _ hput (by decide +kernel)

end PurgeGuard

end PlexManager
