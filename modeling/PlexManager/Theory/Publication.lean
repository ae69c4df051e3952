import Mathlib.Data.List.Basic
import PlexManager.Core.Publication
import PlexManager.Lib.Gather

/-!
# What a publication can be relied on for

Others may change the tree between any two calls to the system, so what a call knows
of a name is what it has last found there. An inode is different: while it is held,
its number is not given out again, and its bytes are what they were. The source is
held from the moment it was opened, and so is a copy, or a file that was compared with
the source. That is why the walk at the end can tell by the number alone that the path
leads to the file which was published.

Nothing can be taken away on such terms. A name is unlinked, and on a file system that
refuses links it is renamed over, by a call of its own, after the one that has looked
at it. So what is lost may be somebody else's, but only if it was put there in between,
or is a lock that is stale. All of this is proved call by call: every part has a rule,
in which the descriptors are a stack and what others do is not in view.

## Theorems

* `publication_contained`: Every run.
* `overwrites_foreign`: A file of somebody else that is overwritten.
-/

namespace PlexManager

namespace Publication

open Effects Gather KeyedTable

/-! ### What is lost -/

/-- What a call has overwritten or unlinked was a file of its own, or a stale lock, or
    somebody else has put it there after the call had last looked. -/
def Fair (r : Record) (l : Loss) : Prop :=
  l.ino ∈ r.own ∨ l.ino ∈ r.stale ∨ l.touched = true

/-- What the call has last found at a place it may take away. -/
def Clear (r : Record) (p : Place) : Prop :=
  ∃ found, r.looks p = some found ∧ ∀ i ∈ found, i ∈ r.own ∨ i ∈ r.stale

/-- What the call has last found is still there unless somebody else has touched it,
    and nothing was lost but what is fair. -/
structure Kept (w : World) : Prop where
  looks : ∀ p found, w.record.looks p = some found → w.touched p = false → w.fs.lookup p = found
  losses : ∀ l ∈ w.record.losses, Fair w.record l

variable {w w' : World} {p : Place} {ino : Ino} {node : Node}

section

variable (h : Kept w)
include h

theorem Kept.looks_update {fs : Fs} {there : Option Ino} (hp : fs.lookup p = there)
    (hoth : ∀ q, q ≠ p → fs.lookup q = w.fs.lookup q) (q : Place) (found : Option Ino)
    (hlook : Function.update w.record.looks p (some there) q = some found)
    (htouch : Function.update w.touched p false q = false) : fs.lookup q = found := by
  by_cases hq : q = p
  · subst hq
    rw [Function.update_self] at hlook
    exact hp.trans (Option.some.inj hlook)
  · rw [Function.update_of_ne hq] at hlook htouch
    exact (hoth q hq).trans (h.looks q found hlook htouch)

theorem Kept.look (p : Place) : Kept (w.look p (w.fs.lookup p)) where
  looks := h.looks_update rfl fun _ _ => rfl
  losses := h.losses

theorem Kept.see (dir : Ino) (name : Name) (ino : Ino) : Kept (w.see dir name ino) :=
  ⟨h.looks, h.losses⟩

theorem Kept.hold (ino : Ino) : Kept (w.hold ino) := ⟨h.looks, h.losses⟩

theorem Kept.makes (p : Place) : Kept (w.makes p) := ⟨h.looks, h.losses⟩

theorem Kept.setNode (ino : Ino) (node : Node) : Kept (w.setNode ino node) :=
  ⟨h.looks, h.losses⟩

theorem Kept.owns (ino : Ino) : Kept (w.owns ino) where
  looks := h.looks
  losses l hl := (h.losses l hl).imp_left (List.mem_cons_of_mem ino)

end

theorem lookup_insert (s : Fs) (p q : Place) (ino : Ino) (mine : Bool) (hfree : s.lookup p = none) :
    ((s.entries.insert ⟨p.1, p.2, ino, mine⟩).find q).map (·.ino) =
      if q = p then some ino else s.lookup q := by
  rw [Fs.lookup, Option.map_eq_none_iff] at hfree
  rw [Table.find_insert_new hfree]
  change (if q = p then _ else _ : Option Entry).map _ = _
  split
  · rfl
  · rfl

theorem Kept.enter (h : Kept w) (hfree : w.fs.lookup p = none) (ino : Ino) :
    Kept (w.enter p ino) where
  looks := h.looks_update ((lookup_insert w.fs p p ino true hfree).trans (if_pos rfl))
    fun q hq => (lookup_insert w.fs p q ino true hfree).trans (if_neg hq)
  losses := h.losses

theorem lookup_erase (s : Fs) (p q : Place) :
    ((s.entries.erase p).find q).map (·.ino) = if q = p then none else s.lookup q := by
  rw [Table.find_erase]
  split
  · rfl
  · rfl

theorem Kept.lose (h : Kept w) (hclr : Clear w.record p) : Kept (w.lose p) := by
  unfold World.lose
  cases he : w.fs.entries.find p with
  | none => exact h
  | some e =>
    refine ⟨?_, fun l hl => ?_⟩
    · exact h.looks_update ((lookup_erase w.fs p p).trans (if_pos rfl))
        fun q hq => (lookup_erase w.fs p q).trans (if_neg hq)
    · rcases List.mem_cons.mp hl with rfl | hl
      · -- untouched, the entry is what was found there
        rcases hclr with ⟨found, hlook, hgot⟩
        cases htouch : w.touched p with
        | true => exact .inr (.inr rfl)
        | false =>
          have hat := h.looks p found hlook htouch
          rw [Fs.lookup, he, Option.map_some] at hat
          rcases hgot e.ino hat.symm with hown | hstale
          · exact .inl hown
          · exact .inr (.inl hstale)
      · exact h.losses l hl

theorem Kept.meddle (h : Kept w) (p : Place) (found : Option Ino) : Kept (w.meddle p found) where
  looks q seen hlook htouch := by
    change Function.update w.touched p true q = _ at htouch
    have hq : q ≠ p := by
      intro heq
      rw [heq, Function.update_self] at htouch
      exact nomatch htouch
    rw [Function.update_of_ne hq] at htouch
    have herase : ((w.fs.entries.erase p).find q).map (·.ino) = w.fs.lookup q := by
      rw [lookup_erase, if_neg hq]
    refine Eq.trans ?_ (h.looks q seen hlook htouch)
    cases found with
    | none => exact herase
    | some ino =>
      have hfree : ({ w.fs with entries := w.fs.entries.erase p } : Fs).lookup p = none := by
        rw [Fs.lookup, lookup_erase, if_pos rfl]
      refine (lookup_insert { w.fs with entries := w.fs.entries.erase p } p q ino false
        hfree).trans ?_
      rw [if_neg hq]
      exact herase
  losses := h.losses

variable {s : Stat} {bytes : Bytes} {α : Type} {temp : Name} {rest : List Stat} {e : Event}

theorem Kept.suffer (h : Kept w) (hsuff : w.suffer e = some w') : Kept w' := by
  unfold World.suffer at hsuff
  cases e with
  | create p ino node =>
    dsimp only at hsuff
    split at hsuff
    · cases hsuff
      exact (h.setNode ino node).meddle p (some ino)
    · exact nomatch hsuff
  | link p ino =>
    dsimp only at hsuff
    split at hsuff
    · cases hsuff
      exact h.meddle p (some ino)
    · exact nomatch hsuff
  | rename source target =>
    dsimp only at hsuff
    split at hsuff
    · exact nomatch hsuff
    cases hsuff
    exact (h.meddle source none).meddle target _
  | unlink p =>
    dsimp only at hsuff
    split at hsuff
    · cases hsuff
      exact h.meddle p none
    · exact nomatch hsuff

/-! ### What a call returns -/

/-- The directories that a walk has gone through, from one to another. -/
def Chain : Ino → List Name → List Sighting → Ino → Prop
  | dir, [], [], last => dir = last
  | dir, name :: names, s :: seen, last =>
      s.dir = dir ∧ s.name = name ∧ s.node = .directory ∧ Chain s.ino names seen last
  | _, _, _, _ => False

section Call

variable (setup : Setup) {a : Except Errno α}

def Setup.leaf : Name := setup.components.getLastD []

/-- Two files of one size and one digest. -/
def Setup.Alike (found bytes : Bytes) : Prop :=
  found = bytes ∨ found.length = bytes.length ∧ setup.digest found = setup.digest bytes

/-- The walk at the end, through directories only, has led to the inode that is
    returned, and its bytes are those of the source, which was a regular file when it
    was opened. It is returned as placed iff the call has put a file there itself, in
    the directory that its first walk has led to. -/
structure Contained (Same : Bytes → Bytes → Prop) (root : Ino) (r : Record)
    (pub : FilePublication) : Prop where
  walked : ∃ source bytes found before dirs parent,
    r.source = [⟨source, .file bytes⟩] ∧ Same found bytes ∧
      Chain root setup.components.dropLast dirs parent ∧
      r.seen = before ++ dirs ++ [⟨parent, setup.leaf, pub.identity, .file found⟩]
  placed : ∃ dir dirs, Chain root setup.components.dropLast dirs dir ∧ dirs <+: r.seen ∧
    r.made = if pub.placed then [(dir, setup.leaf)] else []

theorem Contained.mono {Same Same' : Bytes → Bytes → Prop} {root : Ino} {r : Record}
    {pub : FilePublication} (h : Contained setup Same root r pub)
    (himp : ∀ found bytes, Same found bytes → Same' found bytes) :
    Contained setup Same' root r pub where
  walked := by
    rcases h.walked with ⟨source, bytes, found, before, dirs, parent, hsrc, hsame, hrest⟩
    exact ⟨source, bytes, found, before, dirs, parent, hsrc, himp _ _ hsame, hrest⟩
  placed := h.placed

/-! ### The contract -/

/-- What nobody else can change: what is open, and the record. -/
@[ext] structure View where
  root : Ino
  opened : List Stat
  record : Record

def view (w : World) : View where
  root := w.fs.root
  opened := w.fs.opened.map fun ino => ⟨ino, w.fs.node ino⟩
  record := w.record

structure Inv (w : World) : Prop where
  kept : Kept w
  returned : ∀ pub r, w.returned = some (.ok pub, r) → Contained setup setup.Alike w.fs.root r pub

def contract : Contract World View where
  view := view
  Inv := Inv setup
  Guarantee _ _ := True

/-- When an operation may be asked for. -/
def Permits (v : View) : Op → Prop
  | .unlink dir name => Clear v.record (dir, name)
  | .rename dir source name => Clear v.record (dir, source) ∧ Clear v.record (dir, name)
  | .finish (.ok pub) => Contained setup setup.Alike v.root v.record pub
  | _ => True

theorem fallible_cases {c : Choice} {r : Except Errno (α × World)}
    (h : fallible c w r = some (a, w')) :
    (∃ e, a = .error e ∧ w' = w) ∨ ∃ x, a = .ok x ∧ r = .ok (x, w') := by
  unfold fallible at h
  split at h
  · cases h
    exact .inl ⟨_, rfl, rfl⟩
  · cases h
    exact .inl ⟨_, rfl, rfl⟩
  · cases h
    exact .inr ⟨_, rfl, rfl⟩

theorem create_eq_ok (h : w.create p ino node = .ok w') :
    w.fs.lookup p = none ∧ w.fs.free ino = true ∧ w' = (w.setNode ino node).enter p ino := by
  unfold World.create at h
  split at h
  · exact nomatch h
  rename_i hfree
  split at h
  · rename_i hino
    cases h
    exact ⟨by simpa using hfree, hino, rfl⟩
  · exact nomatch h

theorem linkTo_eq_ok (h : w.linkTo p ino = .ok w') :
    w.fs.lookup p = none ∧ w' = (w.enter p ino).makes p := by
  unfold World.linkTo at h
  split at h
  · exact nomatch h
  rename_i hfree
  split at h
  · exact nomatch h
  cases h
  exact ⟨by simpa using hfree, rfl⟩

theorem lookup_lose_self (w : World) (p : Place) : (w.lose p).fs.lookup p = none := by
  unfold World.lose
  cases he : w.fs.entries.find p with
  | none => rw [Fs.lookup, he, Option.map_none]
  | some e =>
    refine (lookup_erase w.fs p p).trans ?_
    rw [if_pos rfl]

theorem Clear.lose (h : Clear w.record p) (q : Place) : Clear (w.lose q).record p := by
  unfold World.lose
  cases he : w.fs.entries.find q with
  | none => exact h
  | some e =>
    by_cases hp : p = q
    · subst hp
      exact ⟨none, Function.update_self .., fun i hi => nomatch hi⟩
    · rcases h with ⟨found, hlook, hgot⟩
      exact ⟨found, (Function.update_of_ne hp ..).trans hlook, hgot⟩

theorem Kept.renameTo {source : Place} (h : Kept w) (hsrc : Clear w.record source)
    (hp : Clear w.record p) (hren : w.renameTo source p = .ok w') : Kept w' := by
  unfold World.renameTo at hren
  split at hren
  · exact nomatch hren
  rename_i ino found hino
  split at hren
  · cases hren
    exact h.makes p
  · split at hren
    · exact nomatch hren
    cases hren
    exact (((h.lose hsrc).lose (hp.lose source)).enter (lookup_lose_self _ p) _).makes p

theorem World.lose_fixed (w : World) (p : Place) :
    (w.lose p).fs.root = w.fs.root ∧ (w.lose p).returned = w.returned ∧
      (w.lose p).fs.opened = w.fs.opened ∧ (w.lose p).fs.node = w.fs.node := by
  unfold World.lose
  split
  · exact ⟨rfl, rfl, rfl, rfl⟩
  · exact ⟨rfl, rfl, rfl, rfl⟩

theorem renameTo_fixed {source : Place} (h : w.renameTo source p = .ok w') :
    w'.fs.root = w.fs.root ∧ w'.returned = w.returned ∧ w'.fs.opened = w.fs.opened ∧
      w'.fs.node = w.fs.node := by
  unfold World.renameTo at h
  split at h
  · exact nomatch h
  rename_i ino found hino
  split at h
  · cases h
    exact ⟨rfl, rfl, rfl, rfl⟩
  split at h
  · exact nomatch h
  cases h
  have hfst := w.lose_fixed source
  have hsnd := (w.lose source).lose_fixed p
  exact ⟨hsnd.1.trans hfst.1, hsnd.2.1.trans hfst.2.1,
    hsnd.2.2.1.trans hfst.2.2.1, hsnd.2.2.2.trans hfst.2.2.2⟩

theorem Inv.of_kept (h : Inv setup w) (hkept : Kept w')
    (hroot : w'.fs.root = w.fs.root) (hret : w'.returned = w.returned) : Inv setup w' where
  kept := hkept
  returned pub r hr := by
    rw [hroot]
    exact h.returned pub r (hret ▸ hr)

theorem Inv.of_fallible {c : Choice} {r : Except Errno (α × World)}
    (h : Inv setup w) (hexec : fallible c w r = some (a, w'))
    (hok : ∀ x, r = .ok (x, w') → Inv setup w') : Inv setup w' := by
  rcases fallible_cases hexec with ⟨e, -, rfl⟩ | ⟨x, -, hx⟩
  · exact h
  · exact hok x hx

theorem Inv.exec {w w' : World} {op : Op} {c : Choice} {a : Ans op} (h : Inv setup w)
    (hp : Permits setup (view w) op) (hexec : exec op c w = some (a, w')) : Inv setup w' := by
  unfold Publication.exec at hexec
  have hkept := h.kept
  -- Only what takes a name away, and the end, need what they are permitted.
  cases op with
  | openRoot =>
    refine h.of_fallible setup hexec fun x hx => ?_
    cases hx
    exact h.of_kept setup (hkept.hold _) rfl rfl
  | openDir dir name =>
    refine h.of_fallible setup hexec fun x hx => ?_
    split at hx
    · exact nomatch hx
    split at hx
    · cases hx
      exact h.of_kept setup ((hkept.see _ _ _).hold _) rfl rfl
    · exact nomatch hx
  | mkdir dir name =>
    refine h.of_fallible setup hexec fun x hx => ?_
    rcases map_eq_ok hx with ⟨u, hu, heq⟩
    rcases create_eq_ok hu with ⟨hfree, -, rfl⟩
    cases heq
    exact h.of_kept setup (((hkept.setNode _ _).enter hfree _).owns _) rfl rfl
  | openSource =>
    refine h.of_fallible setup hexec fun x hx => ?_
    split at hx
    · split at hx
      · exact nomatch hx
      cases hx
      have howns := hkept.owns c.ino
      exact h.of_kept setup ⟨howns.looks, howns.losses⟩ rfl rfl
    · exact nomatch hx
  | openFile dir name =>
    refine h.of_fallible setup hexec fun x hx => ?_
    split at hx
    · exact nomatch hx
    rename_i ino hino
    split at hx
    · exact nomatch hx
    cases hx
    have hlook := hkept.look (dir, name)
    rw [hino] at hlook
    exact h.of_kept setup (hlook.hold _) rfl rfl
  | create dir name =>
    refine h.of_fallible setup hexec fun x hx => ?_
    rcases map_eq_ok hx with ⟨u, hu, heq⟩
    rcases create_eq_ok hu with ⟨hfree, -, rfl⟩
    cases heq
    exact h.of_kept setup ((((hkept.setNode _ _).enter hfree _).owns _).hold _) rfl rfl
  | stat dir name =>
    dsimp only at hexec
    have hlook := hkept.look (dir, name)
    split at hexec
    · rename_i hino
      cases hexec
      rw [hino] at hlook
      exact h.of_kept setup hlook rfl rfl
    · rename_i ino hino
      cases hexec
      rw [hino] at hlook
      exact h.of_kept setup (hlook.see _ _ _) rfl rfl
  | fstat fd | flock fd | availableBytes | copyMetadata source target =>
    refine h.of_fallible setup hexec fun x hx => ?_
    cases hx
    exact h
  | read fd offset | contents fd =>
    refine h.of_fallible setup hexec fun x hx => ?_
    split at hx
    · cases hx
      exact h
    · exact nomatch hx
    · exact nomatch hx
    · exact nomatch hx
  | write fd bytes =>
    refine h.of_fallible setup hexec fun x hx => ?_
    split at hx
    · cases hx
      exact h.of_kept setup (hkept.setNode _ _) rfl rfl
    · exact nomatch hx
    · exact nomatch hx
    · exact nomatch hx
  | judge fd =>
    cases hexec
    split
    · refine h.of_kept setup ⟨hkept.looks, fun l hl => ?_⟩ rfl rfl
      -- A verdict only adds to the files that a loss is excused for.
      exact (hkept.losses l hl).imp_right fun hrest => hrest.imp_left (List.mem_cons_of_mem fd)
    · exact h
  | linkSource dir name =>
    refine h.of_fallible setup hexec fun x hx => ?_
    split at hx
    · rcases map_eq_ok hx with ⟨u, hu, heq⟩
      rcases linkTo_eq_ok hu with ⟨hfree, rfl⟩
      cases heq
      exact h.of_kept setup ((hkept.enter hfree _).makes _) rfl rfl
    · exact nomatch hx
  | link dir source name =>
    refine h.of_fallible setup hexec fun x hx => ?_
    split at hx
    · exact nomatch hx
    rcases map_eq_ok hx with ⟨u, hu, heq⟩
    rcases linkTo_eq_ok hu with ⟨hfree, rfl⟩
    cases heq
    exact h.of_kept setup ((hkept.enter hfree _).makes _) rfl rfl
  | rename dir source name =>
    refine h.of_fallible setup hexec fun x hx => ?_
    rcases map_eq_ok hx with ⟨u, hu, heq⟩
    cases heq
    have hfix := renameTo_fixed hu
    exact h.of_kept setup (hkept.renameTo hp.1 hp.2 hu) hfix.1 hfix.2.1
  | unlink dir name =>
    refine h.of_fallible setup hexec fun x hx => ?_
    split at hx
    · exact nomatch hx
    split at hx
    · exact nomatch hx
    cases hx
    have hfix := w.lose_fixed (dir, name)
    exact h.of_kept setup (hkept.lose hp) hfix.1 hfix.2.1
  | close fd =>
    cases hexec
    exact h.of_kept setup ⟨hkept.looks, hkept.losses⟩ rfl rfl
  | urandom =>
    cases hexec
    exact h
  | finish result =>
    cases hexec
    refine ⟨⟨hkept.looks, hkept.losses⟩, fun pub r hr => ?_⟩
    cases hr
    exact hp

/-! ### Operations -/

/-- From one view to another: some descriptors more, some files put somewhere, and no
    place that was clear is not clear any more, except for the destination and its
    lock. -/
structure Frame (name : Name) (fds : List Stat) (made : List Place) (v v' : View) : Prop where
  root : v'.root = v.root
  opened : v'.opened = fds ++ v.opened
  source : v'.record.source = v.record.source
  made : v'.record.made = made ++ v.record.made
  own : v.record.own ⊆ v'.record.own
  stale : v.record.stale ⊆ v'.record.stale
  seen : v.record.seen <+: v'.record.seen
  clear : ∀ p : Place, p.2 ≠ name → p.2 ≠ lockName name → Clear v.record p → Clear v'.record p

variable {setup} {name : Name} {v v₁ v₂ : View} {fds fds' : List Stat} {made made' : List Place}

theorem Frame.refl (name : Name) (v : View) : Frame name [] [] v v :=
  ⟨rfl, rfl, rfl, rfl, fun _ => id, fun _ => id, List.prefix_rfl, fun _ _ _ => id⟩

theorem Frame.trans (h : Frame name fds made v v₁) (h' : Frame name fds' made' v₁ v₂) :
    Frame name (fds' ++ fds) (made' ++ made) v v₂ where
  root := h'.root.trans h.root
  opened := by rw [h'.opened, h.opened, List.append_assoc]
  source := h'.source.trans h.source
  made := by rw [h'.made, h.made, List.append_assoc]
  own := List.Subset.trans h.own h'.own
  stale := List.Subset.trans h.stale h'.stale
  seen := h.seen.trans h'.seen
  clear p hname hlock hp := h'.clear p hname hlock (h.clear p hname hlock hp)

theorem Frame.put (h : Frame name fds [] v v₁) (h' : Frame name [] made v₁ v₂) :
    Frame name fds made v v₂ := by
  have hall := h.trans h'
  rwa [List.append_nil] at hall

theorem Clear.mono {r r' : Record} (h : Clear r p) (hlook : r'.looks p = r.looks p)
    (hown : r.own ⊆ r'.own) (hstale : r.stale ⊆ r'.stale) : Clear r' p := by
  rcases h with ⟨found, hgot, hmem⟩
  refine ⟨found, hlook.trans hgot, fun i hi => ?_⟩
  rcases hmem i hi with hi | hi
  · exact .inl (hown hi)
  · exact .inr (hstale hi)

/-- What a part of the call can be relied on for, from a view on. -/
abbrev Rule (setup : Setup) (v : View) (part : Call α) (Q : α → Unit → View → Prop)
    (E : Exc → Unit → View → Prop) : Prop :=
  Spec (machine setup) (contract setup) () v part Q E

section Rules

variable {E : Exc → Unit → View → Prop} {dir fd : Ino} {Q : Except Errno Ino → Unit → View → Prop}

theorem spec_op {op : Op} {Q : Ans op → Unit → View → Prop} (hp : Permits setup v op)
    (h : ∀ w c a w', view w = v → exec op c w = some (a, w') → Q a () (view w')) :
    Rule setup v (Run.perform op) Q E := by
  refine .perform fun w c a w' hinv hview hexec => ⟨trivial, ?_, h w c a w' hview hexec⟩
  have hview' : view w = v := hview
  exact Inv.exec setup hinv (hview' ▸ hp) hexec

theorem spec_fallible {x : Call (Except Errno α)} {Q : Except Errno α → Unit → View → Prop}
    {r : Choice → World → Except Errno (α × World)}
    (hx : (∀ w c a w', view w = v → fallible c w (r c w) = some (a, w') → Q a () (view w')) →
      Rule setup v x Q E) (herr : ∀ e, Q (.error e) () v)
    (hok : ∀ w c a w', view w = v → r c w = .ok (a, w') → Q (.ok a) () (view w')) :
    Rule setup v x Q E := by
  refine hx ?_
  rintro w c a w' rfl hexec
  rcases fallible_cases hexec with ⟨e, rfl, rfl⟩ | ⟨a, rfl, hr⟩
  · exact herr e
  · exact hok w c a w' rfl hr

def View.hold (v : View) (s : Stat) : View := { v with opened := s :: v.opened }

def View.look (v : View) (p : Place) (found : Option Ino) : View :=
  { v with record := { v.record with looks := Function.update v.record.looks p (some found) } }

def View.see (v : View) (s : Sighting) : View :=
  { v with record := { v.record with seen := v.record.seen ++ [s] } }

def View.owns (v : View) (ino : Ino) : View :=
  { v with record := { v.record with own := ino :: v.record.own } }

def View.makes (v : View) (p : Place) : View :=
  { v with record := { v.record with made := p :: v.record.made } }

theorem mem_opened (h : s ∈ (view w).opened) : s.ino ∈ w.fs.opened ∧ w.fs.node s.ino = s.node := by
  rcases List.mem_map.mp h with ⟨ino, hino, rfl⟩
  exact ⟨hino, rfl⟩

theorem Fs.free_not_opened {s : Fs} (h : s.free ino = true) : ino ∉ s.opened := by
  unfold Fs.free at h
  simp only [Bool.and_eq_true, decide_eq_true_eq] at h
  exact h.1.2

theorem view_setNode (h : ino ∉ w.fs.opened) (node : Node) :
    view (w.setNode ino node) = view w := by
  refine View.ext rfl ?_ rfl
  refine List.map_congr_left fun i hi => ?_
  have hne : i ≠ ino := by
    intro heq
    exact h (heq ▸ hi)
  simp only [World.setNode, Function.update_of_ne hne]

theorem spec_openRoot (hok : ∀ n, Q (.ok v.root) () (v.hold ⟨v.root, n⟩))
    (herr : ∀ e, Q (.error e) () v) : Rule setup v Os.openRoot Q E := by
  refine spec_fallible (fun h => spec_op trivial h) herr ?_
  rintro w c x w' rfl hx
  cases hx
  exact hok (w.fs.node w.fs.root)

theorem spec_openDir
    (hok : ∀ fd, Q (.ok fd) () ((v.see ⟨dir, name, fd, .directory⟩).hold ⟨fd, .directory⟩))
    (herr : ∀ e, Q (.error e) () v) : Rule setup v (Os.openDir dir name) Q E := by
  refine spec_fallible (fun h => spec_op trivial h) herr ?_
  rintro w c x w' rfl hx
  split at hx
  · exact nomatch hx
  rename_i ino hino
  split at hx
  · rename_i hnode
    cases hx
    have hview := hok x
    rw [← hnode] at hview
    exact hview
  · exact nomatch hx

variable {Q : Except Errno Unit → Unit → View → Prop}

theorem spec_mkdir (hok : ∀ ino, Q (.ok ()) () ((v.look (dir, name) (some ino)).owns ino))
    (herr : ∀ e, Q (.error e) () v) : Rule setup v (Os.mkdir dir name) Q E := by
  refine spec_fallible (fun h => spec_op trivial h) herr ?_
  rintro w c x w' rfl hx
  rcases map_eq_ok hx with ⟨u, hu, heq⟩
  rcases create_eq_ok hu with ⟨-, hino, rfl⟩
  cases heq
  have hview := hok c.ino
  rw [← view_setNode (Fs.free_not_opened hino) .directory] at hview
  exact hview

theorem spec_openSource {Q : Except Errno Ino → Unit → View → Prop}
    (hok : ∀ s : Stat, Q (.ok s.ino) ()
      { root := v.root, opened := s :: v.opened, record := { v.record with
          own := s.ino :: v.record.own, source := s :: v.record.source } })
    (herr : ∀ e, Q (.error e) () v) :
    Rule setup v Os.openSource Q E := by
  refine spec_fallible (fun h => spec_op trivial h) herr ?_
  rintro w c x w' rfl hx
  split at hx
  · split at hx
    · exact nomatch hx
    cases hx
    exact hok ⟨c.ino, w.fs.node c.ino⟩
  · exact nomatch hx

theorem spec_openFile {Q : Except Errno Ino → Unit → View → Prop}
    (hok : ∀ s : Stat, Q (.ok s.ino) () ((v.look (dir, name) (some s.ino)).hold s))
    (herr : ∀ e, Q (.error e) () v) : Rule setup v (Os.openFile dir name) Q E := by
  refine spec_fallible (fun h => spec_op trivial h) herr ?_
  rintro w c x w' rfl hx
  split at hx
  · exact nomatch hx
  rename_i ino hino
  split at hx
  · exact nomatch hx
  cases hx
  exact hok ⟨x, w.fs.node x⟩

theorem spec_create {Q : Except Errno Ino → Unit → View → Prop}
    (hok : ∀ fd, (∀ s ∈ v.opened, s.ino ≠ fd) →
      Q (.ok fd) () (((v.look (dir, name) (some fd)).owns fd).hold ⟨fd, .file []⟩))
    (herr : ∀ e, Q (.error e) () v) :
    Rule setup v (Os.create dir name) Q E := by
  refine spec_fallible (fun h => spec_op trivial h) herr ?_
  rintro w c x w' rfl hx
  rcases map_eq_ok hx with ⟨u, hu, heq⟩
  rcases create_eq_ok hu with ⟨-, hino, rfl⟩
  cases heq
  have hnew := Fs.free_not_opened hino
  have hview := hok c.ino fun s hs heq => hnew (heq ▸ (mem_opened hs).1)
  rw [← view_setNode hnew (.file [])] at hview
  have hnode : (⟨c.ino, (w.setNode c.ino (.file [])).fs.node c.ino⟩ : Stat) = ⟨c.ino, .file []⟩ :=
    congrArg (Stat.mk c.ino) (Function.update_self ..)
  rw [← hnode] at hview
  exact hview

theorem spec_stat {Q : Except Errno Stat → Unit → View → Prop}
    (hok : ∀ s : Stat, (∀ s' ∈ v.opened, s'.ino = s.ino → s' = s) →
      Q (.ok s) () ((v.look (dir, name) (some s.ino)).see ⟨dir, name, s.ino, s.node⟩))
    (hnone : Q (.error .enoent) () (v.look (dir, name) none)) :
    Rule setup v (Os.stat dir name) Q E := by
  refine spec_op trivial ?_
  rintro w c a w' rfl hexec
  simp only [exec] at hexec
  split at hexec
  · cases hexec
    exact hnone
  rename_i ino hino
  cases hexec
  refine hok ⟨ino, w.fs.node ino⟩ fun s hs heq => ?_
  rcases mem_opened hs with ⟨-, hnode⟩
  cases s with
  | mk sino snode =>
    obtain rfl : sino = ino := heq
    exact congrArg (Stat.mk sino) hnode.symm

theorem spec_fstat {Q : Except Errno Stat → Unit → View → Prop} (hs : s ∈ v.opened)
    (hok : (∀ s' ∈ v.opened, s'.ino = s.ino → s' = s) → Q (.ok s) () v)
    (herr : ∀ e, Q (.error e) () v) : Rule setup v (Os.fstat s.ino) Q E := by
  refine spec_fallible (fun h => spec_op trivial h) herr ?_
  rintro w c x w' rfl hx
  cases hx
  rw [(mem_opened hs).2]
  refine hok fun s' hs' heq => ?_
  have hnode : s'.node = s.node := by rw [← (mem_opened hs').2, ← (mem_opened hs).2, heq]
  cases s
  cases heq
  cases hnode
  rfl

theorem spec_read {offset : Nat} {Q : Except Errno Bytes → Unit → View → Prop} (hs : s ∈ v.opened)
    (hfile : s.node = .file bytes) (hok : ∀ k, Q (.ok ((bytes.drop offset).take (k + 1))) () v)
    (herr : ∀ e, Q (.error e) () v) : Rule setup v (Os.read s.ino offset) Q E := by
  refine spec_fallible (fun h => spec_op trivial h) herr ?_
  rintro w c x w' rfl hx
  rw [(mem_opened hs).2, hfile] at hx
  cases hx
  exact hok c.amount

theorem spec_contents {Q : Except Errno Bytes → Unit → View → Prop} (hs : s ∈ v.opened)
    (hok : ∀ bytes, s.node = .file bytes → Q (.ok bytes) () v) (herr : ∀ e, Q (.error e) () v) :
    Rule setup v (Os.contents s.ino) Q E := by
  refine spec_fallible (fun h => spec_op trivial h) herr ?_
  rintro w c x w' rfl hx
  rw [(mem_opened hs).2] at hx
  cases hnode : s.node with
  | file bytes =>
    rw [hnode] at hx
    cases hx
    exact hok _ hnode
  | directory | symlink | special =>
    rw [hnode] at hx
    exact nomatch hx

theorem spec_write {written : Bytes} (hopen : v.opened = ⟨fd, .file written⟩ :: rest)
    (hnew : ∀ s ∈ rest, s.ino ≠ fd)
    (hok : Q (.ok ()) () { v with opened := ⟨fd, .file (written ++ bytes)⟩ :: rest })
    (herr : ∀ e, Q (.error e) () v) : Rule setup v (Os.write fd bytes) Q E := by
  refine spec_fallible (fun h => spec_op trivial h) herr ?_
  rintro w c x w' rfl hx
  have hnode : w.fs.node fd = .file written :=
    (mem_opened (by rw [hopen]; exact List.mem_cons_self)).2
  rw [hnode] at hx
  cases hx
  have hview : view (w.setNode fd (.file (written ++ bytes))) =
      { view w with opened := ⟨fd, .file (written ++ bytes)⟩ :: rest } := by
    refine View.ext rfl ?_ rfl
    unfold view at hopen ⊢
    cases hlist : w.fs.opened with
    | nil =>
      rw [hlist] at hopen
      exact nomatch hopen
    | cons i is =>
      rw [hlist, List.map_cons] at hopen
      rcases List.cons.inj hopen with ⟨hhead, hrest⟩
      obtain rfl : i = fd := congrArg Stat.ino hhead
      simp only [World.setNode, hlist, List.map_cons, Function.update_self]
      rw [← hrest]
      refine congrArg _ (List.map_congr_left fun k hk => ?_)
      have hne : k ≠ i := hnew ⟨k, w.fs.node k⟩ (hrest ▸ List.mem_map_of_mem hk)
      rw [Function.update_of_ne hne]
  rw [hview]
  exact hok

theorem spec_flock (h : ∀ a, Q a () v) : Rule setup v (Os.flock fd) Q E := by
  refine spec_fallible (fun h => spec_op trivial h) (fun _ => h _) ?_
  rintro w c x w' rfl hx
  cases hx
  exact h _

theorem spec_availableBytes {Q : Except Errno Nat → Unit → View → Prop} (h : ∀ a, Q a () v) :
    Rule setup v Os.availableBytes Q E := by
  refine spec_fallible (fun h => spec_op trivial h) (fun _ => h _) ?_
  rintro w c x w' rfl hx
  cases hx
  exact h _

theorem spec_copyMetadata {source target : Ino} (h : ∀ a, Q a () v) :
    Rule setup v (Os.copyMetadata source target) Q E := by
  refine spec_fallible (fun h => spec_op trivial h) (fun _ => h _) ?_
  rintro w c x w' rfl hx
  cases hx
  exact h _

theorem spec_urandom {Q : Name → Unit → View → Prop} (h : ∀ a, Q a () v) :
    Rule setup v Os.urandom Q E := by
  refine spec_op trivial ?_
  rintro w c a w' rfl hexec
  cases hexec
  exact h _

theorem spec_judge {Q : Bool → Unit → View → Prop}
    (hstale : Q true () { v with record := { v.record with stale := fd :: v.record.stale } })
    (hsound : Q false () v) : Rule setup v (Os.judge fd) Q E := by
  refine spec_op trivial ?_
  rintro w c a w' rfl hexec
  simp only [exec] at hexec
  cases hflag : c.flag with
  | true =>
    rw [hflag] at hexec
    cases hexec
    exact hstale
  | false =>
    rw [hflag] at hexec
    cases hexec
    exact hsound

section

variable (hok : ∀ ino, Q (.ok ()) () ((v.look (dir, name) (some ino)).makes (dir, name)))
include hok

theorem spec_linkSource (herr : ∀ e, Q (.error e) () v) :
    Rule setup v (Os.linkSource dir name) Q E := by
  refine spec_fallible (fun h => spec_op trivial h) herr ?_
  rintro w c x w' rfl hx
  split at hx
  · rcases map_eq_ok hx with ⟨u, hu, heq⟩
    rcases linkTo_eq_ok hu with ⟨-, rfl⟩
    cases heq
    exact hok c.ino
  · exact nomatch hx

theorem spec_link (herr : ∀ e, Q (.error e) () v) : Rule setup v (Os.link dir temp name) Q E := by
  refine spec_fallible (fun h => spec_op trivial h) herr ?_
  rintro w c x w' rfl hx
  split at hx
  · exact nomatch hx
  rename_i ino hino
  rcases map_eq_ok hx with ⟨u, hu, heq⟩
  rcases linkTo_eq_ok hu with ⟨-, rfl⟩
  cases heq
  exact hok ino

end

theorem frame_look (name : Name) (v : View) (hp : p.2 = name ∨ p.2 = lockName name)
    (found : Option Ino) : Frame name [] [] v (v.look p found) where
  root := rfl
  opened := rfl
  source := rfl
  made := rfl
  own _ := id
  stale _ := id
  seen := List.prefix_rfl
  clear q hname hlock hq := by
    refine hq.mono ?_ (fun _ => id) fun _ => id
    refine Function.update_of_ne ?_ ..
    rintro rfl
    rcases hp with hp | hp
    · exact hname hp
    · exact hlock hp

theorem frame_see (name : Name) (v : View) (s : Sighting) : Frame name [] [] v (v.see s) :=
  ⟨rfl, rfl, rfl, rfl, fun _ => id, fun _ => id, List.prefix_append _ _, fun _ _ _ => id⟩

theorem frame_hold (name : Name) (v : View) (s : Stat) : Frame name [s] [] v (v.hold s) :=
  ⟨rfl, rfl, rfl, rfl, fun _ => id, fun _ => id, List.prefix_rfl, fun _ _ _ => id⟩

theorem frame_makes (name : Name) (v : View) (p : Place) : Frame name [] [p] v (v.makes p) :=
  ⟨rfl, rfl, rfl, rfl, fun _ => id, fun _ => id, List.prefix_rfl, fun _ _ _ => id⟩

theorem clear_new (v : View) (p : Place) (ino : Ino) :
    Clear ((v.look p (some ino)).owns ino).record p := by
  refine ⟨some ino, Function.update_self .., fun i hi => .inl ?_⟩
  cases hi
  exact List.mem_cons_self

theorem frame_new (name : Name) (v : View) (p : Place) (ino : Ino) :
    Frame name [] [] v ((v.look p (some ino)).owns ino) := by
  refine ⟨rfl, rfl, rfl, rfl, fun _ => List.mem_cons_of_mem ino, fun _ => id, List.prefix_rfl, ?_⟩
  intro q _ _ hq
  by_cases hp : q = p
  · subst hp
    exact clear_new v q ino
  · refine hq.mono ?_ (fun _ => List.mem_cons_of_mem ino) fun _ => id
    exact Function.update_of_ne hp ..

theorem frame_create (name : Name) (v : View) (p : Place) (s : Stat) :
    Frame name [s] [] v (((v.look p (some s.ino)).owns s.ino).hold s) :=
  (frame_new name v p s.ino).trans (frame_hold name _ s)

theorem frame_lose (name : Name) (w : World) (p : Place) :
    Frame name [] [] (view w) (view (w.lose p)) := by
  have hclr := fun q (hq : Clear w.record q) => hq.lose p
  have hfix := w.lose_fixed p
  refine ⟨hfix.1, ?_, ?_, ?_, ?_, ?_, ?_, fun q _ _ => hclr q⟩
  · simp only [view, hfix.2.2.1, hfix.2.2.2, List.nil_append]
  all_goals
    unfold view World.lose
    cases w.fs.entries.find p with
    | none => simp
    | some e => simp [World.look]

-- Of what was lost, the record only says that it is not there.
theorem spec_unlink (name : Name) (hclr : Clear v.record (dir, temp))
    (h : ∀ a v', Frame name [] [] v v' → Q a () v') : Rule setup v (Os.unlink dir temp) Q E := by
  refine spec_op hclr ?_
  rintro w c a w' rfl hexec
  rcases fallible_cases hexec with ⟨e, rfl, rfl⟩ | ⟨x, rfl, hx⟩
  · exact h _ _ (.refl name _)
  split at hx
  · exact nomatch hx
  split at hx
  · exact nomatch hx
  cases hx
  exact h _ _ (frame_lose name w (dir, temp))

theorem spec_rename (htemp : Clear v.record (dir, temp)) (hname : Clear v.record (dir, name))
    (hok : ∀ v', Frame name [] [(dir, name)] v v' → Q (.ok ()) () v')
    (herr : ∀ e, Q (.error e) () v) : Rule setup v (Os.rename dir temp name) Q E := by
  refine spec_op ⟨htemp, hname⟩ ?_
  rintro w c a w' rfl hexec
  rcases fallible_cases hexec with ⟨e, rfl, rfl⟩ | ⟨x, rfl, hx⟩
  · exact herr e
  rcases map_eq_ok hx with ⟨u, hu, heq⟩
  cases heq
  refine hok _ ?_
  unfold World.renameTo at hu
  split at hu
  · exact nomatch hu
  split at hu
  · cases hu
    exact frame_makes name (view w) (dir, name)
  split at hu
  · exact nomatch hu
  cases hu
  have hlost := (frame_lose name w (dir, temp)).trans (frame_lose name _ (dir, name))
  have hlook := frame_look name (view ((w.lose (dir, temp)).lose (dir, name)))
    (p := (dir, name)) (.inl rfl)
  exact hlost.trans ((hlook _).trans (frame_makes name _ (dir, name)))

theorem spec_close {Q : Unit → Unit → View → Prop} (hs : s ∈ v.opened)
    (h : Q () () { v with opened := v.opened.erase s }) : Rule setup v (Os.close s.ino) Q E := by
  refine spec_op trivial ?_
  rintro w c a w' rfl hexec
  cases hexec
  have hinj : Function.Injective fun ino => (⟨ino, w.fs.node ino⟩ : Stat) :=
    fun i j heq => congrArg Stat.ino heq
  have hst : s = ⟨s.ino, w.fs.node s.ino⟩ := by rw [(mem_opened hs).2]
  have hopen : (view w).opened.erase s =
      (w.fs.opened.erase s.ino).map fun ino => ⟨ino, w.fs.node ino⟩ := by
    rw [List.map_erase hinj, ← hst]
    rfl
  rw [hopen] at h
  exact h

theorem Frame.close (h : Frame name (s :: fds) made v v₁) :
    Frame name fds made v { v₁ with opened := v₁.opened.erase s } :=
  { h with
    opened := by rw [h.opened, List.cons_append, List.erase_cons_head] }

theorem Frame.mem (h : Frame name fds made v v₁) (hs : s ∈ v.opened) : s ∈ v₁.opened := by
  rw [h.opened]
  exact List.mem_append_right fds hs

/-! ### Parts of the call -/

theorem spec_orRaise {r : Except Errno α} {Q : α → Unit → View → Prop}
    (hok : ∀ a, r = .ok a → Q a () v) (herr : ∀ e, r = .error e → E (.ofErrno e) () v) :
    Rule setup v (orRaise r) Q E := by
  cases r with
  | ok a => exact hok a rfl
  | error e => exact herr e rfl

theorem ok_orRaise {β : Type} {a : α} {k : α → Call β} {Q : β → Unit → View → Prop}
    (h : Rule setup v (k a) Q E) : Rule setup v (orRaise (.ok a) >>= k) Q E := h

theorem error_orRaise {β : Type} {e : Errno} {k : α → Call β} {Q : β → Unit → View → Prop}
    (h : E (.ofErrno e) () v) : Rule setup v (orRaise (.error e) >>= k) Q E := h

theorem spec_entryExists {Q : Bool → Unit → View → Prop}
    (h : ∀ b v', Frame name [] [] v v' →
      (b = false → v'.record.looks (dir, name) = some none) → Q b () v') :
    Rule setup v (entryExists dir name) Q E := by
  refine .next (spec_stat (fun s _ => ?_) ?_)
  · have hlook := frame_look name v (p := (dir, name)) (.inl rfl) (some s.ino)
    exact h true _ (hlook.trans (frame_see name _ _)) nofun
  · exact h false _ (frame_look name v (.inl rfl) none) fun _ => Function.update_self ..

theorem spec_entryIdentity {Q : Option Ino → Unit → View → Prop}
    (h : ∀ found v', Frame name [] [] v v' → v'.record.looks (dir, name) = some found →
      (∀ ino, found = some ino → ∃ node,
        v'.record.seen = v.record.seen ++ [⟨dir, name, ino, node⟩] ∧
        ∀ s ∈ v.opened, s.ino = ino → s.node = node) → Q found () v') :
    Rule setup v (entryIdentity dir name) Q E := by
  refine .next (spec_stat (fun s hs => ?_) ?_)
  · have hlook := frame_look name v (p := (dir, name)) (.inl rfl) (some s.ino)
    refine h (some s.ino) _ (hlook.trans (frame_see name _ _)) (Function.update_self ..) ?_
    rintro ino heq
    cases heq
    exact ⟨s.node, rfl, fun s' hs' heq' => congrArg Stat.node (hs s' hs' heq')⟩
  · exact h none _ (frame_look name v (.inl rfl) none) (Function.update_self ..) nofun

theorem spec_lockPathMatchesFd {Q : Bool → Unit → View → Prop} (hs : s ∈ v.opened)
    (h : ∀ b v', Frame name [] [] v v' →
      (b = true → v'.record.looks (dir, lockName name) = some (some s.ino)) → Q b () v') :
    Rule setup v (lockPathMatchesFd dir (lockName name) s.ino) Q E := by
  refine .next (spec_fstat hs (fun _ => ?_) fun e => h false v (.refl name v) nofun)
  refine .next (spec_stat (fun found _ => ?_) ?_)
  · have hlook := frame_look name v (p := (dir, lockName name)) (.inr rfl) (some found.ino)
    refine h _ _ (hlook.trans (frame_see name _ _)) fun hb => ?_
    simp only [Bool.and_eq_true, decide_eq_true_eq] at hb
    rw [hb.2]
    exact Function.update_self ..
  · exact h false _ (frame_look name v (.inr rfl) none) nofun

/-- A call that does nothing but look and tidy up, however it ends. -/
def Tidy (name : Name) (v : View) : Unit → View → Prop := fun _ v' => Frame name [] [] v v'

theorem frame_stale (name : Name) (v : View) (fd : Ino) : Frame name [] [] v
    { v with record := { v.record with stale := fd :: v.record.stale } } :=
  ⟨rfl, rfl, rfl, rfl, fun _ => id, fun _ => List.mem_cons_of_mem fd, List.prefix_rfl,
    fun _ _ _ h => h.mono rfl (fun _ => id) fun _ => List.mem_cons_of_mem fd⟩

theorem spec_reclaimOpened (hs : s ∈ v.opened) :
    Rule setup v (reclaimOpened dir (lockName name) s.ino)
      (fun _ => Tidy name v) fun _ => Tidy name v := by
  refine .next (spec_flock fun a => ?_)
  cases a with
  | error e =>
    split
    · exact .refl name v
    · exact .refl name v
    · rename_i heq
      exact nomatch heq
  | ok u =>
    refine .next (spec_lockPathMatchesFd hs fun b v₁ h₁ _ => ?_)
    cases b with
    | false => exact h₁
    | true =>
      refine .next (spec_judge ?_ h₁)
      have h₂ := h₁.trans (frame_stale name v₁ s.ino)
      refine .next (spec_lockPathMatchesFd (h₂.mem hs) fun b v₃ h₃ hmatch => ?_)
      cases b with
      | false => exact h₂.trans h₃
      | true =>
        -- what is unlinked is the lock that was judged
        have hclr : Clear v₃.record (dir, lockName name) := by
          refine ⟨some s.ino, hmatch rfl, fun i hi => .inr (h₃.stale ?_)⟩
          cases hi
          exact List.mem_cons_self
        refine .next (spec_unlink name hclr fun a v₄ h₄ => ?_)
        cases a with
        | error e | ok u => exact (h₂.trans h₃).trans h₄

theorem spec_reclaimLockIfStale :
    Rule setup v (reclaimLockIfStale dir (lockName name))
      (fun _ => Tidy name v) fun _ => Tidy name v := by
  refine .next (spec_openFile (fun s => ?_) fun e => .refl name v)
  have hhold := (frame_look name v (p := (dir, lockName name)) (.inr rfl) (some s.ino)).trans
    (frame_hold name _ s)
  have hs : s ∈ ((v.look (dir, lockName name) (some s.ino)).hold s).opened := List.mem_cons_self
  refine .andFinally (spec_reclaimOpened hs) ?_ ?_
  · intro a _ v₁ h₁
    exact spec_close (h₁.mem hs) (hhold.trans h₁).close
  · intro e _ v₁ h₁
    exact spec_close (h₁.mem hs) (hhold.trans h₁).close

theorem spec_acquireLock (rounds : Nat) :
    Rule setup v (acquireLock dir name rounds)
      (fun fd _ v' => Frame name [⟨fd, .file []⟩] [] v v' ∧ fd ∈ v'.record.own ∧
        ∀ s ∈ v.opened, s.ino ≠ fd)
      fun _ => Tidy name v := by
  induction rounds generalizing v with
  | zero => exact .refl name v
  | succ rounds ih =>
    refine .next (spec_create (fun fd hnew => ?_) fun e => ?_)
    · exact ⟨frame_create name v (dir, lockName name) ⟨fd, .file []⟩, List.mem_cons_self, hnew⟩
    · split
      · rename_i heq
        exact nomatch heq
      · refine .next (spec_entryExists fun b v₁ h₁ _ => ?_)
        cases b with
        | true => exact h₁
        | false =>
          refine .next (.mono spec_reclaimLockIfStale (fun b _ v₂ h₂ => ?_)
            fun e _ v₂ h₂ => h₁.trans h₂)
          cases b with
          | false => exact h₁.trans h₂
          | true =>
            have h₁₂ := h₁.trans h₂
            refine .mono ih (fun fd _ v₃ h₃ => ?_) fun e _ v₃ h₃ => h₁₂.trans h₃
            exact ⟨h₁₂.trans h₃.1, h₃.2.1, fun s hs => h₃.2.2 s (h₁₂.mem hs)⟩
      · exact .refl name v

theorem spec_releaseLock (h : Frame name (s :: fds) made v v₁) (hown : s.ino ∈ v₁.record.own) :
    Rule setup v₁ (releaseLock dir (lockName name) s.ino)
      (fun _ _ v' => Frame name fds made v v') E := by
  have hs : s ∈ v₁.opened := by
    rw [h.opened]
    exact List.mem_cons_self
  refine .next (spec_lockPathMatchesFd hs fun b v₂ h₂ hmatch => ?_)
  cases b with
  | false => exact spec_close (h₂.mem hs) (h.trans h₂).close
  | true =>
    have hclr : Clear v₂.record (dir, lockName name) := by
      refine ⟨some s.ino, hmatch rfl, fun i hi => .inl (h₂.own ?_)⟩
      cases hi
      exact hown
    refine .next (.discard (spec_unlink name hclr fun a v₃ h₃ => ?_))
    exact spec_close (h₃.mem (h₂.mem hs)) ((h.trans h₂).trans h₃).close

theorem Frame.write {t : Stat} (h : Frame name (s :: fds) made v v₁) :
    Frame name (t :: fds) made v { v₁ with opened := t :: (fds ++ v.opened) } :=
  ⟨h.root, rfl, h.source, h.made, h.own, h.stale, h.seen, h.clear⟩

/-- How a call ends that may put a file somewhere. -/
def Puts {α : Type} (name : Name) (G : Except Exc α → List Place → Prop) (v : View)
    (r : Except Exc α) : Unit → View → Prop :=
  fun _ v' => ∃ made, Frame name [] made v v' ∧ G r made

theorem spec_publishLock {body : Call α} {G : Except Exc α → List Place → Prop}
    (hraise : ∀ e, G (.error e) [])
    (hbody : ∀ s v₁, Frame name [s] [] v v₁ →
      Rule setup v₁ body (fun a => Puts name G v₁ (.ok a)) fun e => Puts name G v₁ (.error e)) :
    Rule setup v (publishLock setup dir name body)
      (fun a => Puts name G v (.ok a)) fun e => Puts name G v (.error e) := by
  refine .bind (.mono (spec_acquireLock setup.rounds) (fun fd _ v₁ h₁ => h₁)
    fun e _ v₁ h₁ => ⟨[], h₁, hraise e⟩) ?_
  rintro fd ⟨⟩ v₁ ⟨h₁, hown, hnew⟩
  -- inside, the lock is the first descriptor that is open
  refine .andFinally (R := fun a _ v₂ => ∃ s : Stat, s.ino = fd ∧ s.ino ∈ v₂.record.own ∧
      ∃ made, Frame name [s] made v v₂ ∧ G (.ok a) made)
    (F := fun e _ v₂ => ∃ s : Stat, s.ino = fd ∧ s.ino ∈ v₂.record.own ∧
      ∃ made, Frame name [s] made v v₂ ∧ G (.error e) made) ?_ ?_ ?_
  · refine .next (spec_flock fun a => ?_)
    refine .next (spec_orRaise (fun _ _ => ?_) fun e _ =>
      ⟨⟨fd, .file []⟩, rfl, hown, [], h₁, hraise _⟩)
    refine .next (spec_write h₁.opened hnew ?_ fun e => ?_)
    · refine ok_orRaise ?_
      have h₂ := h₁.write (t := ⟨fd, .file ([] ++ setup.pid)⟩)
      have hlock : (⟨fd, .file ([] ++ setup.pid)⟩ : Stat) ∈
          (⟨fd, .file ([] ++ setup.pid)⟩ :: ([] ++ v.opened)) := List.mem_cons_self
      refine .next (spec_lockPathMatchesFd (s := ⟨fd, _⟩) hlock fun b v₃ h₃ _ => ?_)
      have hown₃ := h₃.own hown
      cases b with
      | false => exact ⟨⟨fd, .file ([] ++ setup.pid)⟩, rfl, hown₃, [], h₂.trans h₃, hraise _⟩
      | true =>
        refine .mono (hbody _ v₃ (h₂.trans h₃)) ?_ ?_
        · rintro r ⟨⟩ v₄ ⟨made, h₄, hG⟩
          exact ⟨⟨fd, .file ([] ++ setup.pid)⟩, rfl, h₄.own hown₃, made, (h₂.trans h₃).put h₄, hG⟩
        · rintro e ⟨⟩ v₄ ⟨made, h₄, hG⟩
          exact ⟨⟨fd, .file ([] ++ setup.pid)⟩, rfl, h₄.own hown₃, made, (h₂.trans h₃).put h₄, hG⟩
    · refine .next (spec_orRaise nofun fun e _ => ?_)
      exact ⟨⟨fd, .file []⟩, rfl, hown, [], h₁, hraise _⟩
  · rintro a ⟨⟩ v₂ ⟨s, rfl, hown₂, made, h₂, hG⟩
    exact .mono (spec_releaseLock h₂ hown₂) (fun _ _ v₃ h₃ => ⟨made, h₃, hG⟩) fun e _ v₃ h₃ => h₃
  · rintro e ⟨⟩ v₂ ⟨s, rfl, hown₂, made, h₂, hG⟩
    exact .mono (spec_releaseLock h₂ hown₂) (fun _ _ v₃ h₃ => ⟨made, h₃, hG⟩) fun e _ v₃ h₃ => h₃

/-! ### Publishing -/

/-- A file is put at the destination iff the call ends well. -/
def Placed {α : Type} (p : Place) (r : Except Exc α) (made : List Place) : Prop :=
  match r with
  | .ok _ => made = [p]
  | .error _ => made = []

theorem spec_publishLinkNoOverwrite (hs : s ∈ v.opened) :
    Rule setup v (publishLinkNoOverwrite setup s.ino dir name)
      (fun ino _ v' => ino = s.ino ∧ Frame name [] [(dir, name)] v v')
      fun e _ v' => e ≠ .refused .changedIdentity → Frame name [] [] v v' := by
  refine .next (spec_fstat hs (fun _ => ?_) fun e => ?_)
  · refine ok_orRaise ?_
    refine .bind (.mono (spec_publishLock (G := Placed (dir, name)) (fun _ => rfl) ?_)
      (fun b _ v₁ h₁ => h₁) ?_) ?_
    · intro lock v₁ _
      refine .next (spec_linkSource (fun ino => ?_) fun e => ?_)
      · refine ok_orRaise ?_
        refine .next (spec_entryIdentity fun found v₂ h₂ _ _ => ?_)
        have hlink := (frame_look name v₁ (p := (dir, name)) (.inl rfl) (some ino)).trans
          (frame_makes name _ (dir, name))
        exact ⟨_, hlink.trans h₂, rfl⟩
      · exact error_orRaise (⟨[], .refl name v₁, rfl⟩)
    · rintro e ⟨⟩ v₁ ⟨made, h₁, rfl⟩ _
      exact h₁
    · rintro b ⟨⟩ v₁ ⟨made, h₁, rfl⟩
      cases b with
      | true => exact ⟨rfl, h₁⟩
      | false => exact fun hne => absurd rfl hne
  · exact .next (spec_orRaise nofun fun _ _ _ => .refl name v)

theorem spec_publishTempNoOverwrite (hname : temp ≠ name) (hlock : temp ≠ lockName name)
    (hclr : Clear v.record (dir, temp)) :
    Rule setup v (publishTempNoOverwrite setup dir temp name)
      (fun u => Puts name (Placed (dir, name)) v (.ok u))
      fun e => Puts name (Placed (dir, name)) v (.error e : Except Exc Unit) := by
  refine spec_publishLock (fun _ => rfl) fun lock v₁ h₁ => ?_
  have hclr₁ := h₁.clear (dir, temp) hname hlock hclr
  refine .next (spec_entryExists fun b v₂ h₂ hfree => ?_)
  have hclr₂ := h₂.clear (dir, temp) hname hlock hclr₁
  cases b with
  | true => exact ⟨[], h₂, rfl⟩
  | false =>
    have hdst : Clear v₂.record (dir, name) := ⟨none, hfree rfl, nofun⟩
    refine .next (spec_link (fun ino => ?_) fun e => ?_)
    · have hlink := (frame_look name v₂ (p := (dir, name)) (.inl rfl) (some ino)).trans
        (frame_makes name _ (dir, name))
      have hclr₃ := hlink.clear (dir, temp) hname hlock hclr₂
      refine .discard (spec_unlink name hclr₃ fun a v₄ h₄ => ?_)
      exact ⟨_, (h₂.trans hlink).trans h₄, rfl⟩
    · by_cases he : e ∈ copyFallbackErrnos
      · simp only [he, if_true]
        refine .next (spec_rename hclr₂ hdst (fun v₃ h₃ => ?_) fun e' => ?_)
        · exact spec_orRaise (fun _ _ => ⟨_, h₂.trans h₃, rfl⟩) nofun
        · exact spec_orRaise nofun fun _ _ => ⟨[], h₂, rfl⟩
      · simp only [he, if_false]
        exact ⟨[], h₂, rfl⟩

/-! ### The copy -/

theorem take_append_chunk (bytes : Bytes) (offset k : Nat) :
    bytes.take offset ++ (bytes.drop offset).take (k + 1) =
      bytes.take (offset + ((bytes.drop offset).take (k + 1)).length) := by
  generalize k + 1 = k
  rw [List.take_add, List.length_take]
  rcases Nat.le_total k (bytes.drop offset).length with hle | hle
  · rw [Nat.min_eq_left hle]
  · rw [Nat.min_eq_right hle, List.take_length, List.take_of_length_le hle]

theorem spec_copyBytes (hs : s ∈ rest) (hfile : s.node = .file bytes)
    (hnew : ∀ s' ∈ rest, s'.ino ≠ fd) (rounds offset : Nat)
    (hv : v.opened = ⟨fd, .file (bytes.take offset)⟩ :: rest) :
    Rule setup v (copyBytes s.ino fd rounds offset)
      (fun _ _ v' => v' = { v with opened := ⟨fd, .file bytes⟩ :: rest })
      fun _ _ v' => ∃ node, v' = { v with opened := ⟨fd, node⟩ :: rest } := by
  induction rounds generalizing v offset with
  | zero => exact ⟨_, View.ext rfl hv rfl⟩
  | succ rounds ih =>
    have hs' : s ∈ v.opened := by
      rw [hv]
      exact List.mem_cons_of_mem _ hs
    refine .next (spec_read hs' hfile (fun k => ?_) fun e => ?_)
    · refine ok_orRaise ?_
      by_cases hend : (bytes.drop offset).take (k + 1) = []
      · rw [if_pos hend]
        have hall : bytes.take offset = bytes := by
          have hdrop : bytes.drop offset = [] := by simpa using hend
          exact List.take_of_length_le (by simpa using hdrop)
        exact View.ext rfl (hall ▸ hv) rfl
      · rw [if_neg hend]
        refine .next (spec_write hv hnew ?_ fun e => ?_)
        · refine ok_orRaise ?_
          rw [take_append_chunk]
          exact ih _ rfl
        · exact error_orRaise (⟨_, View.ext rfl hv rfl⟩)
    · exact error_orRaise (⟨_, View.ext rfl hv rfl⟩)

theorem spec_copyContents (hs : s ∈ rest) (hfile : s.node = .file bytes)
    (hnew : ∀ s' ∈ rest, s'.ino ≠ fd) (hv : v.opened = ⟨fd, .file []⟩ :: rest) :
    Rule setup v (copyContents setup s.ino fd)
      (fun _ _ v' => v' = { v with opened := ⟨fd, .file bytes⟩ :: rest })
      fun _ _ v' => ∃ node, v' = { v with opened := ⟨fd, node⟩ :: rest } := by
  refine .bind (spec_copyBytes hs hfile hnew setup.rounds 0 hv) ?_
  rintro _ ⟨⟩ v₁ rfl
  refine .next (spec_fstat (List.mem_cons_of_mem _ hs) (fun _ => ?_) fun e => ?_)
  · refine .next (.discard (spec_orRaise (fun _ _ => ?_) nofun))
    refine .next (spec_copyMetadata fun a => ?_)
    exact spec_orRaise (fun _ _ => rfl) fun _ _ => ⟨_, rfl⟩
  · exact .next (.discard (spec_orRaise nofun fun _ _ => ⟨_, rfl⟩))

theorem tempName_ne (name random : Name) :
    tempName name random ≠ name ∧ tempName name random ≠ lockName name := by
  constructor
  · intro heq
    have hlen := congrArg List.length heq
    simp only [tempName, List.length_append, List.length_cons] at hlen
    omega
  · intro heq
    have hlast := congrArg List.getLast? heq
    unfold tempName lockName at hlast
    have htemp : ".tmp".toList.getLast? = some 'p' := by decide
    have hlock : ".publish.lock".toList.getLast? = some 'k' := by decide
    rw [List.getLast?_append, List.getLast?_append, List.getLast?_append, htemp, hlock,
      Option.some_or, Option.some_or] at hlast
    exact absurd hlast (by decide)

theorem spec_publishCopy (hs : s ∈ v.opened) (hfile : s.node = .file bytes)
    (hnew : ∀ s' ∈ v.opened, s'.ino ≠ fd) (h₁ : Frame name [⟨fd, .file []⟩] [] v v₁)
    (hname : temp ≠ name) (hlock : temp ≠ lockName name) (hclr : Clear v₁.record (dir, temp))
    (hown : fd ∈ v₁.record.own) (size : Nat) :
    Rule setup v₁ (publishCopy setup s.ino dir temp name size fd)
      (fun ino _ v' => ino = fd ∧ fd ∈ v'.record.own ∧
        Frame name [⟨fd, .file bytes⟩] [(dir, name)] v v')
      fun _ _ v' => (∃ node, Frame name [⟨fd, node⟩] [] v v') ∧ Clear v'.record (dir, temp) := by
  refine .bind (.mono (spec_copyContents hs hfile hnew h₁.opened) (fun _ _ v₂ h₂ => h₂)
    ?_) ?_
  · rintro _ ⟨⟩ v₂ ⟨node, rfl⟩
    exact ⟨⟨node, h₁.write⟩, hclr⟩
  · rintro _ ⟨⟩ v₂ rfl
    have h₂ := h₁.write (t := ⟨fd, .file bytes⟩)
    have hfd : (⟨fd, .file bytes⟩ : Stat) ∈ (⟨fd, .file bytes⟩ :: ([] ++ v.opened)) :=
      List.mem_cons_self
    refine .next (spec_fstat (s := ⟨fd, .file bytes⟩) hfd (fun _ => ?_) fun e => ?_)
    · refine ok_orRaise ?_
      refine .next (spec_fstat (s := ⟨fd, .file bytes⟩) hfd (fun _ => ?_) fun e => ?_)
      · refine ok_orRaise ?_
        split
        · exact ⟨⟨_, h₂⟩, hclr⟩
        refine .bind (.mono (spec_publishTempNoOverwrite hname hlock hclr)
          (fun _ _ v₃ h₃ => h₃) ?_) ?_
        · rintro _ ⟨⟩ v₃ ⟨made, h₃, rfl⟩
          exact ⟨⟨_, h₂.trans h₃⟩, h₃.clear (dir, temp) hname hlock hclr⟩
        · rintro _ ⟨⟩ v₃ ⟨made, h₃, rfl⟩
          exact ⟨rfl, h₃.own hown, h₂.put h₃⟩
      · exact error_orRaise (⟨⟨_, h₂⟩, hclr⟩)
    · exact error_orRaise (⟨⟨_, h₂⟩, hclr⟩)

theorem spec_copyNoOverwrite (hs : s ∈ v.opened) (hfile : s.node = .file bytes) :
    Rule setup v (copyNoOverwrite setup s.ino dir name)
      (fun r _ v' => r.1 = r.2 ∧ r.2 ∈ v'.record.own ∧
        Frame name [⟨r.2, .file bytes⟩] [(dir, name)] v v')
      fun _ => Tidy name v := by
  refine .next (spec_fstat hs (fun _ => ?_) fun e => ?_)
  · refine ok_orRaise ?_
    refine .next (spec_availableBytes fun a => ?_)
    refine .next (spec_orRaise (fun free _ => ?_) fun _ _ => .refl name v)
    split
    · exact .refl name v
    refine .next (spec_urandom fun random => ?_)
    rcases tempName_ne name random with ⟨hname, hlock⟩
    refine .next (spec_create (fun fd hnew => ?_) fun e => ?_)
    · refine ok_orRaise ?_
      have h₁ := frame_create name v (dir, tempName name random) ⟨fd, .file []⟩
      have hclr : Clear (((v.look (dir, tempName name random) (some fd)).owns fd).hold
          ⟨fd, .file []⟩).record (dir, tempName name random) :=
        clear_new v (dir, tempName name random) fd
      refine .next (.attempt (.mono
        (spec_publishCopy hs hfile hnew h₁ hname hlock hclr List.mem_cons_self s.node.size)
        ?_ ?_))
      · rintro _ ⟨⟩ v₂ ⟨rfl, hown, h₂⟩
        exact ⟨rfl, hown, h₂⟩
      · rintro e ⟨⟩ v₂ ⟨⟨node, h₂⟩, hclr₂⟩
        have hmem : (⟨fd, node⟩ : Stat) ∈ v₂.opened := by
          rw [h₂.opened]
          exact List.mem_cons_self
        refine .next (spec_close hmem ?_)
        refine .next (.discard (spec_unlink name hclr₂ fun a v₃ h₃ => ?_))
        exact h₂.close.trans h₃
    · exact error_orRaise (.refl name v)
  · exact error_orRaise (.refl name v)

/-! ### What is there already -/

theorem Node.eq_file_of_isRegular (h : node.isRegular = true) : ∃ bytes, node = .file bytes := by
  cases node with
  | file bytes => exact ⟨bytes, rfl⟩
  | directory | symlink | special => exact nomatch h

theorem spec_sameContents {e : Stat} (hs : s ∈ v.opened) (he : e ∈ v.opened)
    (hfile : s.node = .file bytes) :
    Rule setup v (sameContents setup s.ino e.ino) (fun r _ v' => v' = v ∧ ∀ ino, r = some ino →
        ino = e.ino ∧ ∃ found, e.node = .file found ∧ setup.Alike found bytes)
      fun _ _ v' => v' = v := by
  refine .next (spec_fstat he (fun hsame => ?_) fun _ => error_orRaise (rfl))
  refine ok_orRaise ?_
  refine .next (spec_fstat hs (fun _ => ?_) fun _ => error_orRaise (rfl))
  refine ok_orRaise ?_
  by_cases hreg : e.node.isRegular = true
  · rcases Node.eq_file_of_isRegular hreg with ⟨found, hgot⟩
    rw [hreg]
    by_cases hino : e.ino = s.ino
    · -- one inode, and so one file
      simp only [hino, Bool.not_true, Bool.false_eq_true, if_false, if_true]
      refine ⟨rfl, fun ino heq => ⟨(Option.some.inj heq).symm, found, hgot, .inl ?_⟩⟩
      have hnode : s = e := hsame s hs hino.symm
      rw [hnode, hgot] at hfile
      exact Node.file.inj hfile
    · simp only [hino, Bool.not_true, Bool.false_eq_true, if_false]
      split
      · exact ⟨rfl, nofun⟩
      rename_i hsize
      refine .next (spec_contents he (fun found' hgot' => ?_)
        fun _ => error_orRaise (rfl))
      refine ok_orRaise ?_
      refine .next (spec_contents hs (fun bytes' hbyte' => ?_)
        fun _ => error_orRaise (rfl))
      refine ok_orRaise ?_
      obtain rfl : found' = found := Node.file.inj (hgot'.symm.trans hgot)
      obtain rfl : bytes' = bytes := Node.file.inj (hbyte'.symm.trans hfile)
      refine ⟨rfl, fun ino heq => ?_⟩
      split at heq
      · rename_i hdig
        refine ⟨(Option.some.inj heq).symm, found', hgot, .inr ⟨?_, hdig⟩⟩
        rw [hgot, hfile, not_not] at hsize
        exact hsize
      · exact nomatch heq
  · rw [Bool.not_eq_true] at hreg
    rw [hreg]
    exact ⟨rfl, nofun⟩

theorem spec_entryMatchesSource (hs : s ∈ v.opened) (hfile : s.node = .file bytes) :
    Rule setup v (entryMatchesSource setup s.ino dir name)
      (fun r _ v' => (r = none → Frame name [] [] v v') ∧ ∀ m, r = some m → m.1 = m.2 ∧
        ∃ found, setup.Alike found bytes ∧ Frame name [⟨m.2, .file found⟩] [] v v') E := by
  refine .next (spec_stat (fun info _ => ?_) ?_)
  · have hst := (frame_look name v (p := (dir, name)) (.inl rfl) (some info.ino)).trans
      (frame_see name _ ⟨dir, name, info.ino, info.node⟩)
    dsimp only
    split
    · exact ⟨fun _ => hst, nofun⟩
    refine .next (spec_openFile (fun e => ?_) fun _ => ⟨fun _ => hst, nofun⟩)
    have hopen := hst.trans (((frame_look name _ (p := (dir, name)) (.inl rfl)
      (some e.ino))).trans (frame_hold name _ e))
    refine .next (.attempt (.mono
      (spec_sameContents (hopen.mem hs) List.mem_cons_self hfile) ?_ ?_))
    · rintro r ⟨⟩ v₁ ⟨rfl, hmatch⟩
      cases r with
      | some ino =>
        rcases hmatch ino rfl with ⟨rfl, found, hgot, halike⟩
        refine ⟨nofun, ?_⟩
        rintro _ ⟨⟩
        refine ⟨rfl, found, halike, ?_⟩
        rw [← hgot]
        exact hopen
      | none => exact .next (spec_close List.mem_cons_self ⟨fun _ => hopen.close, nofun⟩)
    · rintro err ⟨⟩ v₁ rfl
      exact .next (spec_close List.mem_cons_self ⟨fun _ => hopen.close, nofun⟩)
  · exact ⟨fun _ => frame_look name v (.inl rfl) none, nofun⟩

theorem spec_idempotentOrConflict (hs : s ∈ v.opened) (hfile : s.node = .file bytes) :
    Rule setup v (idempotentOrConflict setup s.ino dir name) (fun m _ v' => m.1 = m.2 ∧
        ∃ found, setup.Alike found bytes ∧ Frame name [⟨m.2, .file found⟩] [] v v')
      fun _ => Tidy name v := by
  refine .bind (spec_entryMatchesSource hs hfile) ?_
  rintro r ⟨⟩ v₁ ⟨hnone, hsome⟩
  cases r with
  | some m => exact hsome m rfl
  | none => exact hnone rfl

/-! ### One of the three ways -/

structure Publishes (setup : Setup) (name : Name) (p : Place) (bytes : Bytes) (v : View)
    (pub : Published) (v' : View) : Prop where
  held : ∃ found, setup.Alike found bytes ∧ (⟨pub.identity, .file found⟩ : Stat) ∈ v'.opened
  own : pub.placed = true → pub.identity ∈ v'.record.own
  frame : ∃ fds, Frame name fds (if pub.placed then [p] else []) v v' ∧
    pub.held.toList = fds.map (·.ino)

theorem spec_publish (hs : s ∈ v.opened) (hfile : s.node = .file bytes)
    (hown : s.ino ∈ v.record.own) :
    Rule setup v (publish setup s.ino dir name)
      (fun pub _ v' => Publishes setup name (dir, name) bytes v pub v') fun _ _ _ => True := by
  have hmatch : ∀ v₁, Frame name [] [] v v₁ →
      Rule setup v₁ (do
        let found ← idempotentOrConflict setup s.ino dir name
        pure (⟨found.1, some found.2, false⟩ : Published))
        (fun pub _ v' => Publishes setup name (dir, name) bytes v pub v') fun _ _ _ => True := by
    intro v₁ h₁
    refine .bind (.mono (spec_idempotentOrConflict (h₁.mem hs) hfile) (fun m _ v₂ h₂ => h₂)
      fun _ _ _ _ => trivial) ?_
    rintro m ⟨⟩ v₂ ⟨heq, found, halike, h₂⟩
    refine ⟨⟨found, halike, ?_⟩, nofun, _, h₁.trans h₂, rfl⟩
    rw [heq, h₂.opened]
    exact List.mem_cons_self
  refine .next (.attempt (.mono (spec_publishLinkNoOverwrite hs) ?_ ?_))
  · rintro _ ⟨⟩ v₁ ⟨rfl, h₁⟩
    exact ⟨⟨bytes, .inl rfl, hfile ▸ h₁.mem hs⟩, fun _ => h₁.own hown, [], h₁, rfl⟩
  · intro e _ v₁ h₁
    cases e with
    | fileExists => exact hmatch v₁ (h₁ nofun)
    | os errno =>
      have h₁ := h₁ nofun
      by_cases he : errno ∈ copyFallbackErrnos
      · simp only [he, if_true]
        refine .next (.attempt (.mono (spec_copyNoOverwrite (h₁.mem hs) hfile) ?_ ?_))
        · rintro r ⟨⟩ v₂ ⟨heq, howned, h₂⟩
          refine ⟨⟨bytes, .inl rfl, ?_⟩, fun _ => heq ▸ howned, _, h₁.trans h₂, rfl⟩
          rw [heq, h₂.opened]
          exact List.mem_cons_self
        · intro e' _ v₂ h₂
          cases e' with
          | fileExists => exact hmatch v₂ (h₁.trans h₂)
          | _ => exact trivial
      · simp only [he, if_false]
        exact trivial
    | _ => exact trivial

/-! ### The walks -/

theorem frame_openDir (name : Name) (v : View) (s : Sighting) :
    Frame name [⟨s.ino, .directory⟩] [] v ((v.see s).hold ⟨s.ino, .directory⟩) :=
  (frame_see name v s).trans (frame_hold name _ _)

def Steps (name : Name) (dir : Ino) (component : Name) (v : View) (fd : Ino) :
    Unit → View → Prop :=
  fun _ v' => Frame name [⟨fd, .directory⟩] [] v v' ∧
    v'.record.seen = v.record.seen ++ [⟨dir, component, fd, .directory⟩]

theorem spec_createChildDir (name component : Name) :
    Rule setup v (createChildDir dir component)
      (Steps name dir component v) fun _ => Tidy name v := by
  have hopen : ∀ v₁ (k : Except Errno Ino → Call Ino), (∀ fd, k (.ok fd) = pure fd) →
      (∀ e, k (.error e) = .raise (ancestorFailure component e)) →
      Frame name [] [] v v₁ → v₁.record.seen = v.record.seen →
      Rule setup v₁ (Os.openDir dir component >>= k)
        (Steps name dir component v) fun _ => Tidy name v := by
    intro v₁ k hok herr h₁ hseen
    refine .next (spec_openDir (fun fd => ?_) fun e => ?_)
    · rw [hok]
      refine ⟨h₁.trans (frame_openDir name v₁ ⟨dir, component, fd, .directory⟩), ?_⟩
      exact congrArg (· ++ _) hseen
    · rw [herr]
      exact h₁
  refine .next (spec_mkdir (fun ino => ?_) fun e => ?_)
  · exact hopen _ _ (fun _ => rfl) (fun _ => rfl) (frame_new name v (dir, component) ino) rfl
  · split
    · exact hopen v _ (fun _ => rfl) (fun _ => rfl) (.refl name v) rfl
    · exact hopen v _ (fun _ => rfl) (fun _ => rfl) (.refl name v) rfl
    · exact .refl name v

theorem spec_openOrCreateChildDir (name component : Name) (createMissing : Bool) :
    Rule setup v (openOrCreateChildDir dir component createMissing) (Steps name dir component v)
      fun _ => Tidy name v := by
  refine .next (spec_openDir (fun fd => ?_) fun e => ?_)
  · exact ⟨frame_openDir name v ⟨dir, component, fd, .directory⟩, rfl⟩
  · split
    · rename_i heq
      exact nomatch heq
    · split
      · exact spec_createChildDir name component
      · exact .refl name v
    · exact .refl name v

theorem erase_second [DecidableEq α] (a b : α) (l : List α) : (a :: b :: l).erase b = a :: l := by
  by_cases hab : a = b
  · rw [hab, List.erase_cons_head]
  · rw [List.erase_cons_tail (by simpa using hab), List.erase_cons_head]

theorem Frame.closeSecond {s' : Stat} (h : Frame name (s :: s' :: fds) made v v₁) :
    Frame name (s :: fds) made v { v₁ with opened := v₁.opened.erase s' } :=
  { h with
    opened := by
      rw [h.opened]
      exact erase_second s s' (fds ++ v.opened) }

theorem spec_walk (name : Name) (createMissing : Bool) (components : List Name) {s : Stat}
    (h : Frame name [s] [] v v₁) :
    Rule setup v₁ (walk createMissing s.ino components)
      (fun last _ v' => ∃ s' dirs, s'.ino = last ∧ Frame name [s'] [] v v' ∧
        v'.record.seen = v₁.record.seen ++ dirs ∧ Chain s.ino components dirs last)
      fun _ => Tidy name v := by
  induction components generalizing v₁ s with
  | nil => exact ⟨s, [], rfl, h, (List.append_nil _).symm, rfl⟩
  | cons component components ih =>
    have hs : s ∈ v₁.opened := by
      rw [h.opened]
      exact List.mem_cons_self
    refine .bind (Q := fun fd _ v₂ => Frame name [⟨fd, .directory⟩] [] v v₂ ∧
      v₂.record.seen = v₁.record.seen ++ [⟨s.ino, component, fd, .directory⟩])
      (.andFinally (spec_openOrCreateChildDir name component createMissing) ?_ ?_) ?_
    · rintro fd ⟨⟩ v₂ ⟨h₂, hseen⟩
      exact spec_close (h₂.mem hs) ⟨(h.trans h₂).closeSecond, hseen⟩
    · intro e _ v₂ h₂
      exact spec_close (h₂.mem hs) (h.trans h₂).close
    · rintro fd ⟨⟩ v₂ ⟨h₂, hseen⟩
      refine .mono (ih h₂) ?_ fun _ _ _ h₃ => h₃
      rintro last ⟨⟩ v₃ ⟨s', dirs, hs', h₃, hseen₃, hch⟩
      refine ⟨s', ⟨s.ino, component, fd, .directory⟩ :: dirs, hs', h₃, ?_, ?_⟩
      · rw [hseen₃, hseen, List.append_assoc, List.singleton_append]
      · exact ⟨rfl, rfl, rfl, hch⟩

theorem spec_close_any {Q : Unit → Unit → View → Prop} (h : ∀ opened, Q () () { v with opened }) :
    Rule setup v (Os.close fd) Q E := by
  refine spec_op trivial ?_
  rintro w c a w' rfl hexec
  cases hexec
  exact h _

-- which components there are does not matter to any rule
attribute [local irreducible] Setup.components

-- What is done in the directory that the walk has led to. How it may be raised from must not
-- depend on what is open.
theorem spec_anchoredPublication {createMissing : Bool} {body : Ino → Name → Call α}
    {Q : α → Unit → View → Prop} (hE : ∀ e v' opened, E e () v' → E e () { v' with opened })
    (hraise : ∀ e v', Frame setup.leaf [] [] v v' → E e () v')
    (hbody : ∀ s v₁ dirs, Frame setup.leaf [s] [] v v₁ →
      v₁.record.seen = v.record.seen ++ dirs →
      Chain v.root setup.components.dropLast dirs s.ino →
      Rule setup v₁ (body s.ino setup.leaf)
        (fun a _ v₂ => s ∈ v₂.opened ∧ Q a () { v₂ with opened := v₂.opened.erase s }) E) :
    Rule setup v (anchoredPublication setup createMissing body) Q E := by
  have hbeg := Frame.refl setup.leaf v
  unfold anchoredPublication
  split
  · exact hraise _ v hbeg
  split
  · exact hraise _ v hbeg
  refine .next (spec_openRoot (fun n => ?_) fun e => ?_)
  · refine ok_orRaise ?_
    have hroot := frame_hold setup.leaf v ⟨v.root, n⟩
    have hwalk := @spec_walk setup _ _ setup.leaf createMissing setup.components.dropLast _ hroot
    refine .seq hwalk (fun e _ v₁ h₁ => hraise e v₁ h₁) ?_
    · rintro dir ⟨⟩ v₁ ⟨s, dirs, rfl, h₁, hseen, hch⟩
      refine .andFinally (hbody s v₁ dirs h₁ hseen hch) ?_ ?_
      · rintro a ⟨⟩ v₂ ⟨hs, hQ⟩
        exact spec_close hs hQ
      · rintro e ⟨⟩ v₂ hv₂
        exact spec_close_any fun opened => hE e v₂ opened hv₂
  · exact error_orRaise (hraise _ v hbeg)

/-- The path leads to an inode that is open. -/
def Verified (setup : Setup) (v : View) (identity : Ino) (node : Node) (v' : View) : Prop :=
  Frame setup.leaf [] [] v v' ∧ ∃ dirs parent,
    v'.record.seen = v.record.seen ++ (dirs ++ [⟨parent, setup.leaf, identity, node⟩]) ∧
      Chain v.root setup.components.dropLast dirs parent

-- The call goes on only if the path leads to what was published, which is open and so the same
-- file still.
theorem spec_verifyLexicalPublication {placed : Bool} (hs : s ∈ v.opened)
    (hown : placed = true → s.ino ∈ v.record.own) :
    Rule setup v (verifyLexicalPublication setup dir setup.leaf s.ino placed)
      (fun _ _ v' => Verified setup v s.ino s.node v') fun _ _ _ => True := by
  refine .bind (Q := fun r _ v₁ => v.record.own ⊆ v₁.record.own ∧
    (r = .ok (some s.ino) → Verified setup v s.ino s.node v₁)) (.attempt ?_) ?_
  · refine spec_anchoredPublication (E := fun e _ v₁ => v.record.own ⊆ v₁.record.own ∧
      ((.error e : Except Exc (Option Ino)) = .ok (some s.ino) → Verified setup v s.ino s.node v₁))
      (fun e v' opened h => ⟨h.1, nofun⟩) (fun e v' h => ⟨h.own, nofun⟩) ?_
    intro d v₁ dirs h₁ hseen hch
    refine spec_entryIdentity fun found v₂ h₂ _ hgot => ?_
    have hd : d ∈ v₂.opened := h₂.mem (h₁.opened ▸ List.mem_cons_self)
    refine ⟨hd, List.Subset.trans h₁.own h₂.own, fun heq => ?_⟩
    obtain rfl := Except.ok.inj heq
    rcases hgot s.ino rfl with ⟨node, hsight, hsame⟩
    obtain rfl := hsame s (h₁.mem hs) rfl
    refine ⟨(h₁.trans h₂).close, dirs, d.ino, ?_, hch⟩
    exact hsight.trans (by rw [hseen, List.append_assoc])
  · rintro r ⟨⟩ v₁ ⟨hown₁, hverified⟩
    by_cases hr : r = .ok (some s.ino)
    · rw [if_pos hr]
      exact hverified hr
    rw [if_neg hr]
    cases hput : placed with
    | false => exact trivial
    | true =>
      refine .next (spec_entryIdentity fun found v₂ h₂ hlook _ => ?_)
      split
      · rename_i hgot
        -- the entry is that of the file that was published
        have hclr : Clear v₂.record (dir, setup.leaf) := by
          refine ⟨found, hlook, fun i hi => .inl (h₂.own (hown₁ ?_))⟩
          obtain rfl : i = s.ino := Option.some.inj ((Option.mem_def.mp hi).symm.trans hgot)
          exact hown hput
        refine .next (spec_unlink setup.leaf hclr fun a v₃ h₃ => ?_)
        cases a with
        | ok _ | error _ => exact trivial
      · exact trivial

/-! ### The call -/

theorem spec_openRegularSource :
    Rule setup v openRegularSource
      (fun fd _ v' => ∃ s : Stat, ∃ bytes, s.ino = fd ∧ s.node = .file bytes ∧
        v' = { root := v.root, opened := s :: v.opened, record := { v.record with
          own := s.ino :: v.record.own, source := s :: v.record.source } })
      fun _ _ _ => True := by
  refine .next (spec_openSource (fun s => ?_) fun e => trivial)
  refine .next (spec_fstat List.mem_cons_self (fun _ => ?_) fun e => ?_)
  · dsimp only
    split
    · rename_i hreg
      rcases Node.eq_file_of_isRegular hreg with ⟨bytes, hfile⟩
      exact ⟨s, bytes, rfl, hfile, rfl⟩
    · exact .next (spec_close_any fun _ => trivial)
  · exact .next (spec_close_any fun _ => trivial)

theorem spec_hardlinkOrCopy (hseen : v.record.seen = []) (hsrc : v.record.source = [])
    (hmade : v.record.made = []) :
    Rule setup v (hardlinkOrCopy setup)
      (fun pub _ v' => Contained setup setup.Alike v'.root v'.record pub) fun _ _ _ => True := by
  refine spec_anchoredPublication (fun _ _ _ _ => trivial) (fun _ _ _ => trivial) ?_
  intro d v₁ dirs h₁ hseen₁ hch
  refine .bind spec_openRegularSource ?_
  rintro _ ⟨⟩ v₂ ⟨s, bytes, rfl, hfile, rfl⟩
  have hs : s ∈ s :: v₁.opened := List.mem_cons_self
  refine .andFinally (R := fun pub _ v' => s ∈ v'.opened ∧ d ∈ v'.opened.erase s ∧
    Contained setup setup.Alike v'.root v'.record pub) (F := fun _ _ _ => True) ?_ ?_ ?_
  · refine .bind (spec_publish hs hfile List.mem_cons_self) ?_
    rintro pub ⟨⟩ v₃ ⟨⟨found, halike, hheld⟩, hown, fds, h₃, hfds⟩
    refine .andFinally (R := fun r _ v₄ => r = ⟨pub.placed, pub.identity⟩ ∧
      Verified setup v₃ pub.identity (.file found) v₄) (F := fun _ _ _ => True) ?_ ?_ ?_
    · refine .bind (spec_verifyLexicalPublication hheld
        hown) ?_
      rintro _ ⟨⟩ v₄ h₄
      exact ⟨rfl, h₄⟩
    · rintro _ ⟨⟩ v₄ ⟨rfl, h₄, dirs', parent, hseen₄, hch₄⟩
      have hopen₄ : v₄.opened = fds ++ (s :: d :: v.opened) := by
        rw [h₄.opened, h₃.opened, h₁.opened]
        rfl
      have hcontained : Contained setup setup.Alike v₄.root v₄.record
          ⟨pub.placed, pub.identity⟩ := by
        have hroot : v₃.root = v.root := h₃.root.trans h₁.root
        constructor
        · refine ⟨s.ino, bytes, found, v₃.record.seen, dirs', parent, ?_, halike, ?_, ?_⟩
          · rw [h₄.source, h₃.source, ← hfile]
            rw [h₁.source, hsrc]
          · rw [h₄.root]
            exact hch₄
          · rw [hseen₄, List.append_assoc]
        · refine ⟨d.ino, dirs, ?_, ?_, ?_⟩
          · rw [h₄.root, hroot]
            exact hch
          · have hfst : dirs = v₁.record.seen := by rw [hseen₁, hseen, List.nil_append]
            rw [hfst]
            exact h₃.seen.trans h₄.seen
          · rw [h₄.made, h₃.made]
            rw [h₁.made, hmade, List.nil_append, List.append_nil, List.append_nil]
      -- only what holds the file that was published is left to be closed
      cases hheld' : pub.held with
      | none =>
        rw [hheld', Option.toList_none, eq_comm, List.map_eq_nil_iff] at hfds
        subst hfds
        rw [List.nil_append] at hopen₄
        refine ⟨hopen₄ ▸ List.mem_cons_self, ?_, hcontained⟩
        rw [hopen₄, List.erase_cons_head]
        exact List.mem_cons_self
      | some fd =>
        rw [hheld', Option.toList_some, eq_comm, List.map_eq_singleton_iff] at hfds
        rcases hfds with ⟨e, rfl, rfl⟩
        refine spec_close (hopen₄ ▸ List.mem_cons_self) ?_
        have herase : v₄.opened.erase e = s :: d :: v.opened := by
          rw [hopen₄, List.cons_append, List.erase_cons_head, List.nil_append]
        rw [herase]
        refine ⟨List.mem_cons_self, ?_, hcontained⟩
        rw [List.erase_cons_head]
        exact List.mem_cons_self
    · rintro e ⟨⟩ v₄ -
      split
      · exact spec_close_any fun _ => trivial
      · exact trivial
  · rintro pub ⟨⟩ v₃ ⟨hs₃, hd, hpub⟩
    exact spec_close hs₃ ⟨hd, hpub⟩
  · rintro e ⟨⟩ v₃ -
    exact spec_close_any fun _ => trivial

end Rules

/-! ### Every run -/

theorem view_suffer (h : w.suffer e = some w') : view w' = view w := by
  unfold World.suffer at h
  cases e with
  | create p ino node =>
    dsimp only at h
    split at h
    · rename_i hfree
      cases h
      rw [Bool.and_eq_true] at hfree
      exact view_setNode (Fs.free_not_opened hfree.2) node
    · exact nomatch h
  | link p ino | unlink p =>
    dsimp only at h
    split at h
    · cases h
      rfl
    · exact nomatch h
  | rename source target =>
    dsimp only at h
    split at h
    · exact nomatch h
    cases h
    rfl

theorem suffer_fixed (h : w.suffer e = some w') : w'.returned = w.returned := by
  unfold World.suffer at h
  cases e with
  | rename source target =>
    dsimp only at h
    split at h
    · exact nomatch h
    cases h
    rfl
  | _ =>
    dsimp only at h
    split at h
    · cases h
      rfl
    · exact nomatch h

-- Whoever meddles, and wherever a call is cut off, the contract is kept.
theorem keeps (setup : Setup) : Keeps (machine setup) (contract setup) where
  main w _ := by
    refine Safe.bind _ _ _ (spec_hardlinkOrCopy rfl rfl rfl) ?_
    rintro ⟨r, ⟨⟩⟩ v hend w' hinv rfl c a w'' hexec
    cases r with
    | ok pub => exact ⟨trivial, @Inv.exec setup w' w'' (.finish (.ok pub)) c a hinv hend hexec,
      trivial⟩
    | error e =>
      exact ⟨trivial, @Inv.exec setup w' w'' (.finish (.error e)) c a hinv trivial hexec, trivial⟩
  boot w h := ⟨⟨⟨nofun, nofun⟩, nofun⟩, trivial⟩
  event e w w' h hsuff := by
    have hview : view w' = view w := view_suffer hsuff
    exact ⟨h.of_kept setup (h.kept.suffer hsuff) (congrArg View.root hview)
      (suffer_fixed hsuff), hview⟩
  stutter _ := trivial

def Idle (s : System Op Ans World) : Prop :=
  s.running = none ∧ s.world.record = {} ∧ s.world.returned = none

/-- The digest tells files of one size apart. -/
def Setup.Distinguishes (setup : Setup) : Prop :=
  ∀ found bytes : Bytes, found.length = bytes.length →
    setup.digest found = setup.digest bytes → found = bytes

theorem Setup.Distinguishes.eq_of_alike {setup : Setup} (h : setup.Distinguishes)
    (found bytes : Bytes) (halike : setup.Alike found bytes) : found = bytes := by
  rcases halike with heq | ⟨hlen, hdig⟩
  · exact heq
  · exact h found bytes hlen hdig

end Call

/-- In every run of calls, others and crashes: a call that has returned has contained
    what it says, and whatever a call has overwritten or unlinked was fair. -/
theorem publication_contained (setup : Setup) (hdigest : setup.Distinguishes)
    (s : System Op Ans World) (h : Transition.Reachable (machine setup).step Idle s) :
    (∀ pub r, s.world.returned = some (.ok pub, r) →
      Contained setup (· = ·) s.world.fs.root r pub) ∧
      ∀ l ∈ s.world.record.losses, Fair s.world.record l := by
  have hinit : ∀ s, Idle s → (contract setup).Inv s.world ∧ s.running = none := by
    rintro ⟨w, running⟩ ⟨hrun, hrec, hret⟩
    refine ⟨⟨⟨fun p found hlook => ?_, fun l hl => ?_⟩, fun pub r hr => ?_⟩, hrun⟩
    · rw [show w.record = {} from hrec] at hlook
      exact nomatch hlook
    · rw [show w.record = {} from hrec] at hl
      exact nomatch hl
    · rw [show w.returned = none from hret] at hr
      exact nomatch hr
  have hinv : Inv setup s.world := ((keeps setup).reachable hinit h).1
  refine ⟨fun pub r hr => ?_, hinv.kept.losses⟩
  exact (hinv.returned pub r hr).mono setup hdigest.eq_of_alike

/-! ### A file that is overwritten -/

/-- The file `s` of a directory is to be published as `/r/f`. -/
def exampleSetup : Setup where
  cwd := ['/']
  root := ['/', 'r']
  dst := ['/', 'r', '/', 'f']
  pid := [49]
  digest := id
  rounds := 4

def exampleStart : System Op Ans World where
  world := { fs := {
    root := 1
    entries := KeyedTable.Table.empty.insert ⟨2, ['s'], 3, false⟩
    node := fun ino => if ino = 3 then .file [7] else .directory
    opened := [] } }
  running := none

/-- Links are refused, so the file is copied. Between the refusal of the last link and
    the rename somebody else creates a file at the destination. -/
def overwritingRun : List (Action Choice Event) :=
  let calls (n : Nat) : List (Action Choice Event) := List.replicate n (.advance {})
  [.start] ++ calls 1 ++ [.advance { ino := 3 }] ++ calls 2 ++ [.advance { ino := 10 }] ++
    calls 4 ++ [.advance { errno := some .eperm }] ++ calls 5 ++
    [.advance { amount := 100 }, .advance { name := ['0'] }, .advance { ino := 11 }] ++ calls 7 ++
    [.advance { ino := 12 }] ++ calls 5 ++ [.advance { errno := some .eperm },
      .event (.create (1, ['f']) 13 (.file [9]))] ++ calls 13

/-- What the run ends with: a publication, and a file that was lost. -/
def overwriting : Option (System Op Ans World) :=
  Transition.run (machine exampleSetup).step exampleStart overwritingRun

theorem overwriting_eq : ∃ s, overwriting = some s ∧
    (s.world.returned.map (·.1)) = some (.ok ⟨true, 11⟩) ∧
      (⟨(1, ['f']), 13, false, some none, true⟩ : Loss) ∈ s.world.record.losses := by
  have hrun : (overwriting.any fun s =>
      (s.world.returned.map (·.1)) = some (.ok ⟨true, 11⟩) &&
        decide ((⟨(1, ['f']), 13, false, some none, true⟩ : Loss) ∈ s.world.record.losses)) =
      true := by
    decide +kernel
  cases hs : overwriting with
  | none =>
    rw [hs] at hrun
    exact nomatch hrun
  | some s =>
    rw [hs, Option.any_some, Bool.and_eq_true, decide_eq_true_eq, decide_eq_true_eq] at hrun
    exact ⟨s, rfl, hrun⟩

/-- What a call overwrites need not be its own. -/
theorem overwrites_foreign : ∃ s, Transition.Reachable (machine exampleSetup).step Idle s ∧
    (s.world.returned.map (·.1)) = some (.ok ⟨true, 11⟩) ∧
      ¬ ∀ l ∈ s.world.record.losses, l.mine = true := by
  rcases overwriting_eq with ⟨s, hs, hret, hloss⟩
  exact ⟨s, ⟨exampleStart, overwritingRun, ⟨rfl, rfl, rfl⟩, hs⟩, hret,
    fun hmine => nomatch hmine _ hloss⟩

/-- In that run the path leads to the copy, and what was lost was put there after the
    call had looked. -/
theorem overwriting_contained : ∃ s, overwriting = some s ∧
    (∀ pub r, s.world.returned = some (.ok pub, r) →
      Contained exampleSetup (· = ·) s.world.fs.root r pub) ∧
      ∀ l ∈ s.world.record.losses, Fair s.world.record l := by
  rcases overwriting_eq with ⟨s, hs, -⟩
  exact ⟨s, hs, publication_contained exampleSetup (fun _ _ _ heq => heq) s
    ⟨exampleStart, overwritingRun, ⟨rfl, rfl, rfl⟩, hs⟩⟩

end Publication

end PlexManager
