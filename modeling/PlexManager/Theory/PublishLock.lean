import PlexManager.Core.PublishLock
import PlexManager.Lib.Transition

/-!
# One publisher at a time

The lock is held together by the name and by `flock`. Whoever has proven, under
the lock of an inode, that the name leads to this inode can rely on it: only the
name's entry could be taken away, and whoever takes it away holds the same lock.
So at most one actor is inside.

An actor that has created its lock file but not locked it yet has nothing to
rely on. Its file is still empty, and once it is old enough it can be reclaimed.
The actor then never proves that the name leads to its inode, and never enters.

## Theorems

* `publish_lock_excludes`: The whole protocol.
-/

namespace PlexManager

namespace PublishLock

open Interleaving Transition

/-! ### Where an actor stands -/

def Pc.fd : Pc → Option Nat
  | .creating | .contended | .reopening | .refused | .ended => none
  | .relocking i | .firstProof i | .reading i | .judging i _ | .lastProof i _
  | .reclaiming i _ | .closing i _ | .locking i | .writing i | .proving i | .inside i
  | .releasing i | .unlinking i | .leaving i => some i

def Pc.locked : Pc → Option Nat
  | .firstProof i | .reading i | .judging i _ | .lastProof i _ | .reclaiming i _
  | .writing i | .proving i | .inside i | .releasing i | .unlinking i | .leaving i => some i
  | _ => none

def Pc.proven : Pc → Option Nat
  | .reclaiming i _ | .inside i | .unlinking i => some i
  | _ => none

def Pc.created : Pc → Option Nat
  | .locking i | .writing i | .proving i | .inside i | .releasing i | .unlinking i
  | .leaving i => some i
  | _ => none

def Pc.judgedAt : Pc → Option (Nat × Int)
  | .lastProof i judged | .reclaiming i judged => some (i, judged)
  | _ => none

variable {s s' : Fs} {a b : Actor} {i ino j : Nat} {pc : Pc} {w w' : World} {c : Choice}
  {act : Action}

theorem fd_of_created (h : pc.created = some i) : pc.fd = some i := by
  cases pc <;> first | exact h | simp [Pc.created] at h

theorem locked_of_proven (h : pc.proven = some i) : pc.locked = some i := by
  cases pc <;> first | exact h | simp [Pc.proven] at h

theorem locked_of_judgedAt {t : Int} (h : pc.judgedAt = some (i, t)) : pc.locked = some i := by
  cases pc with
  | lastProof k u | reclaiming k u =>
    simp only [Pc.judgedAt, Option.some.injEq, Prod.mk.injEq] at h
    exact congrArg some h.1
  | _ => simp [Pc.judgedAt] at h

theorem fd_of_locked (h : pc.locked = some i) : pc.fd = some i := by
  cases pc <;> first | exact h | simp [Pc.locked] at h

/-- What an actor relies on: what it has open and locked, that the name leads to
    the inode it has proven, that nobody else has written into the file it
    created or judged, and what it judged. -/
structure Stands (s : Fs) (a : Actor) : Prop where
  opened : ∀ i, a.pc.fd = some i → (a.owner, i) ∈ s.opened
  locked : ∀ i, a.pc.locked = some i → s.flock i = some a.owner
  proven : ∀ i, a.pc.proven = some i → s.entry = some i
  fresh : ∀ i, a.pc = .locking i → s.content i = .empty
  read : ∀ i raw, a.pc = .judging i raw → s.content i = raw
  judged : ∀ i t, a.pc.judgedAt = some (i, t) → s.content i = .empty →
    emptyLockStaleSeconds < t - s.mtime i

/-- Two actors differ, and so do the files they created. -/
def Apart (a b : Actor) : Prop :=
  a.owner ≠ b.owner ∧ ∀ i, a.pc.created = some i → b.pc.created ≠ some i

theorem apart_symm (a b : Actor) (h : Apart a b) : Apart b a :=
  ⟨h.1.symm, fun i hb ha => h.2 i ha hb⟩

theorem stands_of_fd (h : a.pc.fd = none) : Stands s a := by
  rcases a with ⟨o, force, pc⟩
  cases pc with
  | creating | contended | reopening | refused | ended =>
    exact ⟨by simp [Pc.fd], by simp [Pc.locked], by simp [Pc.proven], by simp, by simp,
      by simp [Pc.judgedAt]⟩
  | relocking i | firstProof i | reading i | judging i raw | lastProof i t | reclaiming i t
  | closing i r | locking i | writing i | proving i | inside i | releasing i | unlinking i
  | leaving i => simp [Pc.fd] at h

theorem not_pinned {o : Owner} {k : Nat} (hk : s.pinned k = false)
    (ho : (o, i) ∈ s.opened) : i ≠ k := by
  rintro rfl
  have hpin : s.pinned i = true := List.any_eq_true.mpr ⟨(o, i), ho, by simp⟩
  rw [hk] at hpin
  cases hpin

/-! ### What a call does -/

/-- What a call to the file system does to it and where it leaves the actor. -/
inductive Effect (s : Fs) (a : Actor) : Fs → Pc → Prop where
  | keeps (pc : Pc) (hfd : ∀ i, pc.fd = some i → a.pc.fd = some i)
      (hlocked : ∀ i, pc.locked = some i → a.pc.locked = some i)
      (hproven : ∀ i, pc.proven = some i → s.entry = some i)
      (hcreated : ∀ i, pc.created = some i → a.pc.created = some i)
      (hfresh : ∀ i, pc = .locking i → a.pc = .locking i)
      (hread : ∀ i raw, pc = .judging i raw → s.content i = raw)
      (hjudged : ∀ i t, pc.judgedAt = some (i, t) → s.content i = .empty →
        emptyLockStaleSeconds < t - s.mtime i) : Effect s a s pc
  | creates (i : Nat) (hfree : s.entry = none) (hpin : s.pinned i = false) :
      Effect s a (s.create a.owner i) (.locking i)
  | opens (i : Nat) : Effect s a (s.open a.owner i) (.relocking i)
  | locks (i : Nat) (pc : Pc) (hfree : s.flock i = none) (hfd : a.pc.fd = some i)
      (hpc : pc = .firstProof i ∨ a.pc = .locking i ∧ pc = .writing i) :
      Effect s a (s.lock a.owner i) pc
  | writes (i : Nat) (hpc : a.pc = .writing i) : Effect s a (s.write a.owner i) (.proving i)
  | unlinks (i : Nat) (pc : Pc)
      (hpc : (∃ t, a.pc = .reclaiming i t ∧ pc = .closing i .reclaimed) ∨
        a.pc = .unlinking i ∧ pc = .leaving i) : Effect s a s.unlink pc
  | closes (i : Nat) (pc : Pc) (hfd : pc.fd = none) : Effect s a (s.close a.owner i) pc

theorem effect_done (h : pc.fd = none) : Effect s a s pc := by
  cases pc with
  | creating | contended | reopening | refused | ended =>
    exact .keeps _ nofun nofun nofun
      nofun nofun nofun nofun
  | relocking i | firstProof i | reading i | judging i raw | lastProof i t | reclaiming i t
  | closing i r | locking i | writing i | proving i | inside i | releasing i | unlinking i
  | leaving i => simp [Pc.fd] at h

theorem effect_closing {r : Found} (h : a.pc.fd = some i) : Effect s a s (.closing i r) :=
  .keeps _ (fun k hk => by rw [h]; exact hk) nofun nofun
    nofun nofun nofun nofun

theorem entry_of_matches (h : lockPathMatchesFd c s i = true) : s.entry = some i := by
  simp only [lockPathMatchesFd, Bool.and_eq_true, decide_eq_true_eq] at h
  exact h.2

theorem effect_of_turn (c : Choice) (h : Stands s a) :
    Effect s a (turn c s a.owner a.force a.pc).1 (turn c s a.owner a.force a.pc).2 := by
  rcases a with ⟨o, force, pc⟩
  cases pc with
  | creating =>
    simp only [turn]
    split
    · exact effect_done rfl
    split
    · exact effect_done rfl
    rename_i hfree
    split
    · exact effect_done rfl
    · rename_i hpin
      exact .creates c.ino hfree (by simpa using hpin)
  | contended =>
    simp only [turn]
    split <;> exact effect_done rfl
  | reopening =>
    simp only [turn]
    split
    · exact effect_done rfl
    · split
      · exact effect_done rfl
      · exact .opens _
  | relocking i =>
    simp only [turn]
    split
    · exact effect_closing rfl
    · split
      · exact effect_closing rfl
      · rename_i hfree
        exact .locks i _ hfree rfl (.inl rfl)
  | firstProof i =>
    simp only [turn]
    split
    · exact .keeps _ (fun _ hk => hk) (fun _ hk => hk) nofun
        nofun nofun nofun nofun
    · exact effect_closing rfl
  | reading i =>
    simp only [turn]
    split
    · refine .keeps _ (fun _ hk => hk) (fun _ hk => hk) nofun nofun nofun ?_ nofun
      intro k raw hk
      cases hk
      rfl
    · exact effect_closing rfl
  | judging i raw =>
    simp only [turn]
    split
    · rename_i hstale
      refine .keeps _ (fun _ hk => hk) (fun _ hk => hk) nofun nofun nofun nofun ?_
      intro k t hk hnil
      rcases hk with ⟨rfl, rfl⟩
      -- What was read is empty, so the verdict rests on the age of the file.
      have hraw : raw = .empty := (h.read i raw rfl).symm.trans hnil
      rw [hraw] at hstale
      simp only [lockIsStale, lockIsExpired, Bool.and_eq_true, decide_eq_true_eq] at hstale
      exact hstale.2
    · exact effect_closing rfl
  | lastProof i judged =>
    simp only [turn]
    split
    -- The name still leads to the file that was judged.
    · rename_i hmatch
      refine .keeps _ (fun _ hk => hk) (fun _ hk => hk) ?_ nofun nofun
        nofun (fun k t hk => h.judged k t hk)
      intro k hk
      cases hk
      exact entry_of_matches hmatch
    · exact effect_closing rfl
  | reclaiming i judged =>
    simp only [turn]
    split
    · exact effect_closing rfl
    · exact .unlinks i _ (.inl ⟨judged, rfl, rfl⟩)
  | closing i r =>
    cases r with
    | reclaimed | kept | failed => exact .closes i _ rfl
  | locking i =>
    simp only [turn]
    split
    · exact .keeps _ (fun _ hk => hk) (fun _ hk => hk) nofun
        (fun _ hk => hk) (fun _ hk => hk) nofun nofun
    · rename_i hfree
      exact .locks i _ hfree rfl (.inr ⟨rfl, rfl⟩)
  | writing i =>
    simp only [turn]
    split
    · exact .keeps _ (fun _ hk => hk) (fun _ hk => hk) nofun
        (fun _ hk => hk) nofun nofun nofun
    · exact .writes i rfl
  | proving i | releasing i =>
    simp only [turn]
    split
    · rename_i hmatch
      refine .keeps _ (fun _ hk => hk) (fun _ hk => hk) ?_ (fun _ hk => hk) nofun nofun nofun
      intro k hk
      cases hk
      exact entry_of_matches hmatch
    · exact .keeps _ (fun _ hk => hk) (fun _ hk => hk) nofun
        (fun _ hk => hk) nofun nofun nofun
  | inside i =>
    simp only [turn]
    exact .keeps _ (fun _ hk => hk) (fun _ hk => hk) nofun
      (fun _ hk => hk) nofun nofun nofun
  | unlinking i =>
    simp only [turn]
    split
    · exact .keeps _ (fun _ hk => hk) (fun _ hk => hk) nofun
        (fun _ hk => hk) nofun nofun nofun
    · exact .unlinks i _ (.inr ⟨rfl, rfl⟩)
  | leaving i => exact .closes i _ rfl
  | refused | ended => exact effect_done rfl

/-! ### What every call keeps -/

theorem stands_own (h : Stands s a) (heff : Effect s a s' pc) : Stands s' { a with pc } := by
  cases heff with
  | keeps pc hfd hlock hprov hmade hnew hread hjud =>
    exact ⟨fun i hi => h.opened i (hfd i hi), fun i hi => h.locked i (hlock i hi), hprov,
      fun i hi => h.fresh i (hnew i hi), hread, hjud⟩
  | creates i hfree hpin =>
    refine ⟨?_, by simp [Pc.locked], by simp [Pc.proven], ?_, by simp, by simp [Pc.judgedAt]⟩
    · intro k hk
      simp only [Pc.fd, Option.some.injEq] at hk
      subst hk
      exact List.mem_cons_self
    · intro k hk
      cases hk
      simp [Fs.create]
  | opens i =>
    refine ⟨?_, by simp [Pc.locked], by simp [Pc.proven], by simp, by simp, by simp [Pc.judgedAt]⟩
    intro k hk
    simp only [Pc.fd, Option.some.injEq] at hk
    subst hk
    exact List.mem_cons_self
  | locks i pc hfree hfd hpc =>
    have hpc' : pc = .firstProof i ∨ pc = .writing i := hpc.imp_right And.right
    rcases hpc' with rfl | rfl
    all_goals
      refine ⟨?_, ?_, by simp [Pc.proven], by simp, by simp, by simp [Pc.judgedAt]⟩
      · intro k hk
        exact h.opened k (hfd.trans hk)
      · intro k hk
        simp only [Pc.locked, Option.some.injEq] at hk
        subst hk
        simp [Fs.lock]
  | writes i hpc =>
    refine ⟨?_, ?_, by simp [Pc.proven], by simp, by simp, by simp [Pc.judgedAt]⟩
    · intro k hk
      exact h.opened k (by rw [hpc]; exact hk)
    · intro k hk
      exact h.locked k (by rw [hpc]; exact hk)
  | unlinks i pc hpc =>
    rcases hpc with ⟨t, hpc, rfl⟩ | ⟨hpc, rfl⟩
    · refine ⟨?_, by simp [Pc.locked], by simp [Pc.proven], by simp, by simp,
        by simp [Pc.judgedAt]⟩
      intro k hk
      exact h.opened k (by rw [hpc]; exact hk)
    · refine ⟨?_, ?_, by simp [Pc.proven], by simp, by simp, by simp [Pc.judgedAt]⟩
      · intro k hk
        exact h.opened k (by rw [hpc]; exact hk)
      · intro k hk
        exact h.locked k (by rw [hpc]; exact hk)
  | closes i pc hfd => exact stands_of_fd hfd

-- A file that an actor created or judges is written by nobody else: whoever writes it has
-- created it, and holds its lock.
theorem stands_frame (ha : Stands s a) (hb : Stands s b) (hab : Apart a b)
    (heff : Effect s a s' pc) : Stands s' b := by
  -- A lock has one holder, and the two are different actors.
  have hexclusive : ∀ {i}, a.pc.locked = some i → b.pc.locked ≠ some i := by
    intro i hi hbi
    have hsame := (ha.locked i hi).symm.trans (hb.locked i hbi)
    exact hab.1 (Option.some.inj hsame)
  cases heff with
  | keeps => exact hb
  | creates i hfree hpin =>
    have hne : ∀ {k}, b.pc.fd = some k → k ≠ i := fun hk => not_pinned hpin (hb.opened _ hk)
    refine ⟨fun k hk => List.mem_cons_of_mem _ (hb.opened k hk), hb.locked, ?_, ?_, ?_, ?_⟩
    · intro k hk
      rw [hb.proven k hk] at hfree
      cases hfree
    · intro k hk
      have hki : k ≠ i := hne (hk ▸ rfl)
      simpa [Fs.create, hki] using hb.fresh k hk
    · intro k raw hk
      have hki : k ≠ i := hne (hk ▸ rfl)
      simpa [Fs.create, hki] using hb.read k raw hk
    · intro k t hk
      have hki : k ≠ i := hne (fd_of_locked (locked_of_judgedAt hk))
      simpa [Fs.create, hki] using hb.judged k t hk
  | opens i =>
    exact ⟨fun k hk => List.mem_cons_of_mem _ (hb.opened k hk), hb.locked, hb.proven, hb.fresh,
      hb.read, hb.judged⟩
  | locks i pc hfree hfd hpc =>
    refine ⟨hb.opened, ?_, hb.proven, hb.fresh, hb.read, hb.judged⟩
    intro k hk
    have hki : k ≠ i := by
      rintro rfl
      rw [hb.locked k hk] at hfree
      cases hfree
    simpa [Fs.lock, hki] using hb.locked k hk
  | writes i hpc =>
    have hlock : a.pc.locked = some i := by rw [hpc]; rfl
    have hmade : a.pc.created = some i := by rw [hpc]; rfl
    refine ⟨hb.opened, hb.locked, hb.proven, ?_, ?_, ?_⟩
    · intro k hk
      have hki : k ≠ i := by
        rintro rfl
        exact hab.2 k hmade (hk ▸ rfl)
      simpa [Fs.write, hki] using hb.fresh k hk
    · intro k raw hk
      have hki : k ≠ i := by
        rintro rfl
        exact hexclusive hlock (hk ▸ rfl)
      simpa [Fs.write, hki] using hb.read k raw hk
    · intro k t hk
      have hki : k ≠ i := by
        rintro rfl
        exact hexclusive hlock (locked_of_judgedAt hk)
      simpa [Fs.write, hki] using hb.judged k t hk
  | unlinks i pc hpc =>
    -- Who takes the name away holds the file that it leads to.
    have hprov : a.pc.proven = some i := by
      rcases hpc with ⟨t, hpc, -⟩ | ⟨hpc, -⟩
      · rw [hpc]
        rfl
      · rw [hpc]
        rfl
    refine ⟨hb.opened, hb.locked, ?_, hb.fresh, hb.read, hb.judged⟩
    intro k hk
    have hsame := (ha.proven i hprov).symm.trans (hb.proven k hk)
    cases hsame
    exact absurd (locked_of_proven hk) (hexclusive (locked_of_proven hprov))
  | closes i pc hfd =>
    refine ⟨?_, ?_, hb.proven, hb.fresh, hb.read, hb.judged⟩
    · intro k hk
      have hne : (b.owner, k) ≠ (a.owner, i) := fun heq => hab.1 (congrArg Prod.fst heq).symm
      exact List.mem_filter.mpr ⟨hb.opened k hk, decide_eq_true hne⟩
    · intro k hk
      have hoth : s.flock k ≠ some a.owner := by
        rw [hb.locked k hk]
        exact fun heq => hab.1 (Option.some.inj heq).symm
      simpa [Fs.close, hoth] using hb.locked k hk

theorem apart_next (hb : Stands s b) (hab : Apart a b)
    (heff : Effect s a s' pc) : Apart { a with pc } b := by
  refine ⟨hab.1, ?_⟩
  cases heff with
  | keeps pc hfd hlock hprov hmade hnew hread hjud =>
    exact fun i hi => hab.2 i (hmade i hi)
  | creates i hfree hpin =>
    intro k hk hbk
    simp only [Pc.created, Option.some.injEq] at hk
    exact not_pinned hpin (hb.opened k (fd_of_created hbk)) hk.symm
  | opens i => exact fun i hi => absurd hi nofun
  | locks i pc hfree hfd hpc =>
    rcases hpc with rfl | ⟨hpc, rfl⟩
    · exact fun i hi => absurd hi nofun
    · exact fun k hk => hab.2 k (by rw [hpc]; exact hk)
  | writes i hpc => exact fun k hk => hab.2 k (by rw [hpc]; exact hk)
  | unlinks i pc hpc =>
    rcases hpc with ⟨t, hpc, rfl⟩ | ⟨hpc, rfl⟩
    · exact fun i hi => absurd hi nofun
    · exact fun k hk => hab.2 k (by rw [hpc]; exact hk)
  | closes i pc hfd =>
    intro k hk
    rw [fd_of_created hk] at hfd
    cases hfd

/-- The assertions about every actor and every two. -/
def outline : Outline Fs Actor where
  Shared := fun _ => True
  Local := Stands
  Apart := Apart
  weight := fun _ => 0
  held := fun _ => 0

theorem outline_sound : outline.Sound Actor.next fun _ _ _ => True where
  symm := apart_symm
  own := fun _ _ c _ ha _ _ => ⟨trivial, stands_own ha (effect_of_turn c ha)⟩
  frame := fun _ _ _ c _ ha hb hab _ _ => stands_frame ha hb hab (effect_of_turn c ha)
  apart := fun _ _ _ c _ ha hb hab => apart_next hb hab (effect_of_turn c ha)
  account := fun _ _ _ _ _ _ => rfl

/-! ### Runs -/

theorem stands_congr (h : Stands s a) (hent : s'.entry = s.entry) (hcont : s'.content = s.content)
    (hmtime : s'.mtime = s.mtime) (hopen : ∀ i, (a.owner, i) ∈ s.opened → (a.owner, i) ∈ s'.opened)
    (hflock : ∀ i, s.flock i = some a.owner → s'.flock i = some a.owner) : Stands s' a where
  opened := fun i hi => hopen i (h.opened i hi)
  locked := fun i hi => hflock i (h.locked i hi)
  proven := fun i hi => hent.trans (h.proven i hi)
  fresh := fun i hi => by rw [hcont]; exact h.fresh i hi
  read := fun i raw hi => by rw [hcont]; exact h.read i raw hi
  judged := fun i t hi => by rw [hcont, hmtime]; exact h.judged i t hi

theorem holds_congr (h : outline.Holds w) (hs : ∀ a ∈ w.actors, Stands w.shared a → Stands s a) :
    outline.Holds { w with shared := s } :=
  ⟨trivial, fun a ha => hs a ha (h.locals a ha), h.apart, h.account⟩

theorem stands_bury (pid : Nat) (h : Stands s a) : Stands (s.bury pid) (a.bury pid) := by
  unfold Actor.bury
  by_cases hpid : a.owner.pid = pid
  · rw [if_pos hpid]
    exact stands_of_fd rfl
  rw [if_neg hpid]
  refine stands_congr h rfl rfl rfl ?_ ?_
  · intro i hi
    exact List.mem_filter.mpr ⟨hi, decide_eq_true hpid⟩
  · intro i hi
    simp [Fs.bury, hi, hpid]

theorem created_bury {pid : Nat} (h : (a.bury pid).pc.created = some i) :
    a.pc.created = some i := by
  unfold Actor.bury at h
  split at h
  · cases h
  exact h

theorem owner_bury (pid : Nat) (a : Actor) : (a.bury pid).owner = a.owner := by
  unfold Actor.bury
  split <;> rfl

theorem apart_bury (pid : Nat) (h : Apart a b) : Apart (a.bury pid) (b.bury pid) := by
  refine ⟨?_, fun i ha hb => h.2 i (created_bury ha) (created_bury hb)⟩
  rw [owner_bury, owner_bury]
  exact h.1

theorem holds_of_step (h : outline.Holds w) (hstep : step w act = some w') : outline.Holds w' := by
  cases act with
  | arrive o force =>
    simp only [step] at hstep
    split at hstep
    · cases hstep
    rename_i hnew
    cases hstep
    have hhold : outline.Holds
        { w with shared := { w.shared with running := w.shared.running.insert o.pid } } :=
      holds_congr h fun a _ ha => stands_congr ha rfl rfl rfl (fun _ hi => hi) fun _ hi => hi
    refine hhold.spawn apart_symm (stands_of_fd rfl) ?_ rfl
    intro b hb
    refine ⟨?_, fun i hi => absurd hi nofun⟩
    rintro rfl
    exact hnew (List.any_eq_true.mpr ⟨b, hb, by simp⟩)
  | act i c => exact outline_sound.act h (fun _ _ => trivial) hstep
  | crash pid =>
    cases hstep
    refine ⟨trivial, ?_, ?_, ?_⟩
    · intro a ha
      rcases List.mem_map.mp ha with ⟨b, hb, rfl⟩
      exact stands_bury pid (h.locals b hb)
    · exact List.Pairwise.map _ (fun _ _ => apart_bury pid) h.apart
    · have hzero : ∀ l : List Actor, (l.map outline.weight).sum = 0 := by
        intro l
        induction l with
        | nil => rfl
        | cons a rest ih => simp only [List.map_cons, List.sum_cons, ih]; rfl
      exact hzero _
  | clock now =>
    cases hstep
    exact holds_congr h fun a _ ha =>
      stands_congr ha rfl rfl rfl (fun _ hi => hi) fun _ hi => hi

theorem holds_of_run {as : List Action}
    (hrun : run step (World.quiet s) as = some w) : outline.Holds w := by
  refine invariant_of_run (fun _ _ _ h hstep => holds_of_step h hstep) _ w as ?_ hrun
  exact ⟨trivial, fun _ ha => absurd ha nofun, List.Pairwise.nil, rfl⟩

theorem apart_of_ne (h : outline.Holds w) (hi : w.actors[i]? = some a) (hj : w.actors[j]? = some b)
    (hne : i ≠ j) : Apart a b :=
  pairwise_of_ne apart_symm h.apart hi hj hne

/-! ### Fenced creators -/

/-- The lock file that an actor created no longer has the name. -/
def Fenced (ino : Nat) (s : Fs) (b : Actor) : Prop :=
  b.pc = .ended ∨ (b.pc.created = some ino ∧ s.entry ≠ some ino)

theorem fenced_own (hb : Stands s b)
    (h : Fenced ino s b) : Fenced ino (b.next c s).1 (b.next c s).2 := by
  rcases b with ⟨o, force, pc⟩
  rcases h with hpc | ⟨hmade, hent⟩
  · dsimp only at hpc
    subst hpc
    exact .inl rfl
  have hmatch : ∀ c, lockPathMatchesFd c s ino = false := fun c => by
    simp [lockPathMatchesFd, hent]
  cases pc with
  | creating | contended | reopening | relocking i | firstProof i | reading i | judging i raw
  | lastProof i t | reclaiming i t | closing i r | refused | ended =>
    simp [Pc.created] at hmade
  | locking i | writing i =>
    cases hmade
    simp only [Actor.next, turn]
    split
    · exact .inr ⟨rfl, hent⟩
    · exact .inr ⟨rfl, hent⟩
  | proving i | releasing i =>
    cases hmade
    simp only [Actor.next, turn, hmatch]
    exact .inr ⟨rfl, hent⟩
  | inside i | unlinking i =>
    cases hmade
    exact absurd (hb.proven ino rfl) hent
  | leaving i => exact .inl rfl

theorem fenced_frame (hb : Stands s b) (heff : Effect s a s' pc)
    (h : Fenced ino s b) : Fenced ino s' b := by
  rcases h with hpc | ⟨hmade, hent⟩
  · exact .inl hpc
  refine .inr ⟨hmade, ?_⟩
  cases heff with
  | keeps | opens | locks | writes | closes => exact hent
  | creates i hfree hpin =>
    have hne := not_pinned hpin (hb.opened ino (fd_of_created hmade))
    exact fun heq => hne (Option.some.inj heq).symm
  | unlinks => exact fun heq => absurd heq nofun

def FencedAt (j ino : Nat) (w : World) : Prop :=
  ∃ b, w.actors[j]? = some b ∧ Fenced ino w.shared b

theorem fencedAt_of_step (h : outline.Holds w) (hf : FencedAt j ino w)
    (hstep : step w act = some w') : FencedAt j ino w' := by
  rcases hf with ⟨b, hj, hfen⟩
  have hb := h.locals b (List.mem_of_getElem? hj)
  have hlt : j < w.actors.length := (List.getElem?_eq_some_iff.mp hj).1
  cases act with
  | arrive o force =>
    simp only [step] at hstep
    split at hstep
    · cases hstep
    cases hstep
    refine ⟨b, ?_, hfen⟩
    rw [List.getElem?_append_left hlt]
    exact hj
  | act i c =>
    simp only [step, World.act] at hstep
    split at hstep
    · cases hstep
    rename_i a hi
    cases hstep
    by_cases hij : i = j
    · subst hij
      rw [hi, Option.some.injEq] at hj
      subst hj
      exact ⟨_, List.getElem?_set_self hlt, fenced_own hb hfen⟩
    · have ha := h.locals a (List.mem_of_getElem? hi)
      exact ⟨b, (List.getElem?_set_ne hij).trans hj,
        fenced_frame hb (effect_of_turn c ha) hfen⟩
  | crash pid =>
    cases hstep
    refine ⟨b.bury pid, by simp [hj], ?_⟩
    unfold Actor.bury
    split
    · exact .inl rfl
    · exact hfen
  | clock now =>
    cases hstep
    exact ⟨b, hj, hfen⟩

theorem fenced_of_run {as : List Action} (h : outline.Holds w) (hf : FencedAt j ino w)
    (hrun : run step w as = some w') : ∀ b, w'.actors[j]? = some b → ∀ i, b.pc ≠ .inside i := by
  have hboth := invariant_of_run (I := fun w => outline.Holds w ∧ FencedAt j ino w)
    (fun _ _ _ hw hstep => ⟨holds_of_step hw.1 hstep, fencedAt_of_step hw.1 hw.2 hstep⟩) w w' as
    ⟨h, hf⟩ hrun
  rcases hboth with ⟨hhold, b, hj, hfen⟩
  intro b' hb' i hin
  rw [hj, Option.some.injEq] at hb'
  subst hb'
  rcases hfen with hend | ⟨hmade, hent⟩
  · rw [hin] at hend
    cases hend
  · rw [hin] at hmade
    cases hmade
    exact hent ((hhold.locals b (List.mem_of_getElem? hj)).proven ino (hin ▸ rfl))

/-! ### The protocol -/

theorem inside_unique (h : outline.Holds w) {k l : Nat} (hi : w.actors[i]? = some a)
    (hj : w.actors[j]? = some b) (ha : a.pc = .inside k) (hb : b.pc = .inside l) : i = j := by
  refine Decidable.byContradiction fun hne => ?_
  have hsep := apart_of_ne h hi hj hne
  have hsa := h.locals a (List.mem_of_getElem? hi)
  have hsb := h.locals b (List.mem_of_getElem? hj)
  have hent := (hsa.proven k (ha ▸ rfl)).symm.trans (hsb.proven l (hb ▸ rfl))
  cases hent
  have hlock := (hsa.locked k (ha ▸ rfl)).symm.trans (hsb.locked k (hb ▸ rfl))
  exact hsep.1 (Option.some.inj hlock)

-- Only a reclaimer and the one who leaves take the name away.
theorem unlinks_of_effect (heff : Effect s a s' pc) (hbef : s.entry = some ino)
    (haft : s'.entry ≠ some ino) : ∃ i, (∃ t, a.pc = .reclaiming i t) ∨ a.pc = .unlinking i := by
  cases heff with
  | keeps | opens | locks | writes | closes => exact absurd hbef haft
  | creates i hfree =>
    rw [hbef] at hfree
    cases hfree
  | unlinks i pc hpc =>
    rcases hpc with ⟨t, hpc, -⟩ | ⟨hpc, -⟩
    · exact ⟨i, .inl ⟨t, hpc⟩⟩
    · exact ⟨i, .inr hpc⟩

-- The creator of a lock file that another actor takes away, if it still has it open, has not
-- locked it yet, and the file is empty and was judged too old.
theorem unlocked_of_unlinked (ha : Stands s a) (hb : Stands s b) (hab : Apart a b)
    (hent : s.entry = some ino) (hpc : (∃ t, a.pc = .reclaiming i t) ∨ a.pc = .unlinking i)
    (hmade : b.pc.created = some ino) :
    b.pc = .locking ino ∧ s.content ino = .empty ∧
      ∃ judged, a.pc = .reclaiming ino judged ∧
        emptyLockStaleSeconds < judged - s.mtime ino := by
  rcases hpc with ⟨t, hpc⟩ | hpc
  · have hino := hent.symm.trans (ha.proven i (hpc ▸ rfl))
    obtain rfl : ino = i := Option.some.inj hino
    have hlock := ha.locked ino (hpc ▸ rfl)
    have hlocking : b.pc = .locking ino := by
      refine Decidable.byContradiction fun hne => ?_
      have hlocked : b.pc.locked = some ino := by
        revert hmade hne
        cases b.pc <;> simp [Pc.created, Pc.locked]
      exact hab.1 (Option.some.inj (hlock.symm.trans (hb.locked ino hlocked)))
    have hnil := hb.fresh ino hlocking
    exact ⟨hlocking, hnil, t, hpc, ha.judged ino t (hpc ▸ rfl) hnil⟩
  · have hino := hent.symm.trans (ha.proven i (hpc ▸ rfl))
    obtain rfl : ino = i := Option.some.inj hino
    exact absurd hmade (hab.2 ino (hpc ▸ rfl))

-- A step that takes a lock file away from its name. Its creator, if it is another actor and
-- alive, has not locked the file and will not be inside.
theorem unlinked_step (h : outline.Holds w) (hstep : step w act = some w')
    (hbef : w.shared.entry = some ino) (haft : w'.shared.entry ≠ some ino) :
    ∃ i c a, act = .act i c ∧ w.actors[i]? = some a ∧
      ∀ j b, j ≠ i → w.actors[j]? = some b → b.pc.created = some ino →
        (b.pc = .locking ino ∧ w.shared.content ino = .empty ∧
          ∃ judged, a.pc = .reclaiming ino judged ∧
            emptyLockStaleSeconds < judged - w.shared.mtime ino) ∧
        FencedAt j ino w' := by
  cases act with
  | arrive o force =>
    simp only [step] at hstep
    split at hstep
    · cases hstep
    cases hstep
    exact absurd hbef haft
  | crash pid | clock now =>
    cases hstep
    exact absurd hbef haft
  | act i c =>
    simp only [step, World.act] at hstep
    split at hstep
    · cases hstep
    rename_i a hi
    cases hstep
    have ha := h.locals a (List.mem_of_getElem? hi)
    refine ⟨i, c, a, rfl, hi, ?_⟩
    intro j b hne hj hmade
    rcases unlinks_of_effect (effect_of_turn c ha) hbef haft with ⟨k, hpc⟩
    refine ⟨unlocked_of_unlinked ha (h.locals b (List.mem_of_getElem? hj))
      (apart_of_ne h hi hj hne.symm) hbef hpc hmade, b, ?_, .inr ⟨hmade, haft⟩⟩
    exact (List.getElem?_set_ne hne.symm).trans hj

/-- However calls interleave and processes die, at most one actor is inside, and
    nobody takes a lock file away from a creator that has locked it. A creator
    that has yet to lock its file loses it only when it is empty and was judged
    too old, and then it is never inside. -/
theorem publish_lock_excludes (s : Fs) (as : List Action) (w : World)
    (hrun : run step (World.quiet s) as = some w) :
    (∀ (i j : Nat) (a b : Actor) (k l : Nat), w.actors[i]? = some a → w.actors[j]? = some b →
      a.pc = .inside k → b.pc = .inside l → i = j) ∧
    ∀ act w', step w act = some w' → ∀ ino, w.shared.entry = some ino →
      w'.shared.entry ≠ some ino →
      ∃ i c a, act = .act i c ∧ w.actors[i]? = some a ∧
        ∀ j b, j ≠ i → w.actors[j]? = some b → b.pc.created = some ino →
          (b.pc = .locking ino ∧ w.shared.content ino = .empty ∧
            ∃ judged, a.pc = .reclaiming ino judged ∧
              emptyLockStaleSeconds < judged - w.shared.mtime ino) ∧
          ∀ bs w'', run step w' bs = some w'' → ∀ b', w''.actors[j]? = some b' →
            ∀ k, b'.pc ≠ .inside k := by
  have hhold := holds_of_run hrun
  refine ⟨fun i j a b k l hi hj ha hb => inside_unique hhold hi hj ha hb, ?_⟩
  intro act w' hstep ino hbef haft
  rcases unlinked_step hhold hstep hbef haft with ⟨i, c, a, hact, hi, hall⟩
  refine ⟨i, c, a, hact, hi, ?_⟩
  intro j b hne hj hmade
  rcases hall j b hne hj hmade with ⟨hunlocked, hfen⟩
  refine ⟨hunlocked, ?_⟩
  intro bs w'' hrest b' hb'
  exact fenced_of_run (holds_of_step hhold hstep) hfen hrest b' hb'

def bare : Fs :=
  { entry := none, regular := fun _ => false, content := fun _ => .empty, mtime := fun _ => 0 }

/-- A creator stands still for longer than a minute before it locks its file,
    and a thread of another process reclaims it. -/
def suspendedCreator : List Action :=
  [.arrive ⟨1, 0⟩ false, .arrive ⟨2, 0⟩ false, .act 0 {}, .clock 61] ++
    List.replicate 8 (.act 1 {})

variable (as : List Action)

def reached : World :=
  (run step (World.quiet bare) as).getD (World.quiet bare)

theorem reached_eq (h : (run step (World.quiet bare) as).isSome = true) :
    run step (World.quiet bare) as = some (reached as) := by
  rcases Option.isSome_iff_exists.mp h with ⟨w, hw⟩
  simp only [reached, hw, Option.getD_some]

theorem step_reached (act : Action)
    (h : (run step (World.quiet bare) (as ++ [act])).isSome = true) :
    step (reached as) act = some (reached (as ++ [act])) := by
  rcases Option.isSome_iff_exists.mp h with ⟨t, ht⟩
  rcases (run_snoc_eq_some _ t as act).mp ht with ⟨m, hm, hstep⟩
  simp only [reached, hm, ht, Option.getD_some]
  exact hstep

/-- The file is taken away while its creator is alive and about to lock it. -/
theorem suspended_creator_reclaimed :
    run step (World.quiet bare) suspendedCreator = some (reached suspendedCreator) ∧
      step (reached suspendedCreator) (.act 1 {}) =
        some (reached (suspendedCreator ++ [.act 1 {}])) ∧
      (reached suspendedCreator).shared.entry = some 0 ∧
      (reached (suspendedCreator ++ [.act 1 {}])).shared.entry = none ∧
      (reached suspendedCreator).actors[0]? = some ⟨⟨1, 0⟩, false, .locking 0⟩ ∧
      1 ∈ (reached suspendedCreator).shared.running := by
  exact ⟨reached_eq _ (by decide +kernel), step_reached _ _ (by decide +kernel),
    by decide +kernel, by decide +kernel, by decide +kernel, by decide +kernel⟩

/-- That creator is never inside. -/
theorem publish_lock_excludes_suspended :
    (reached (suspendedCreator ++ [.act 1 {}])).actors[0]? = some ⟨⟨1, 0⟩, false, .locking 0⟩ ∧
      ¬∃ bs w b k, run step (reached (suspendedCreator ++ [.act 1 {}])) bs = some w ∧
        w.actors[0]? = some b ∧ b.pc = .inside k := by
  have hprotocol := publish_lock_excludes bare suspendedCreator (reached suspendedCreator)
    (reached_eq _ (by decide +kernel))
  rcases hprotocol.2 (.act 1 {}) _ (step_reached _ _ (by decide +kernel)) 0 (by decide +kernel)
    (by decide +kernel) with ⟨i, c, a, hact, -, hall⟩
  cases hact
  refine ⟨by decide +kernel, ?_⟩
  rintro ⟨bs, w, b, k, hrun, hb, hin⟩
  exact (hall 0 ⟨⟨1, 0⟩, false, .locking 0⟩ (by decide) (by decide +kernel) rfl).2 bs w hrun b
    hb k hin

end PublishLock

end PlexManager
