import PlexManager.Theory.MigrationBackup.Clean

/-!
# The copy that is kept

What a start publishes is complete, for it is renamed when every file of it is written.
The key is in it if the key is on the disk and nothing overrides it, and it is in it for no
other reason if the directory it was put together in was new. A start removes nothing
before it has published something, and then not what it has published.

The copy that guards an upgrade is the one that the marker names. A start that finds it
takes no copy, and so removes none, unless the upgrade is over: the database is at the
head of its image, or at the head in the marker. So such a copy is there until a start
finds one or the other, or cannot read the marker. The second does not wait for the
first, since an image that is newer again starts where the last one has ended.

## Theorems

* `copies_survive`: Every run.
* `copy_evicted`: A copy that is removed where no start has found a database at its head.
-/

namespace PlexManager

namespace MigrationBackup

open Effects KeyedTable Transition

variable {Rev : Type} [DecidableEq Rev]

/-! ### Complete copies -/

/-- Where the key is that the application uses. -/
def disposition (settings : Settings) (keyFile : Option Bytes) : KeyDisposition :=
  if fernetEnvOverrideConfigured settings then .envOverride
  else if keyFile.isSome then .fileIncluded
  else .missing

variable (v : Volume Rev)

/-- A directory is complete: the database as it is, under the name of its revision, the
    key if it is on the disk, and what is said of both. Nothing else is said to be there
    unless the directory is not a new one. -/
structure Complete (d : Dir Rev) : Prop where
  database : ∃ db, v.database = some db ∧ d.contents.database = some (.whole db) ∧
    d.name.fromRev = db.stamp
  manifest : d.contents.manifest =
    some (.whole ⟨d.name.fromRev, disposition v.settings v.keyFile⟩)
  key : disposition v.settings v.keyFile = .fileIncluded →
    d.contents.key = v.keyFile.map .whole
  nothing : v.record.reused = false → disposition v.settings v.keyFile ≠ .fileIncluded →
    d.contents.key = none

def Guarded (d : Dir Rev) : Prop :=
  ∃ m, v.marker = .holds m ∧ m.backup = d.name ∧ v.units.find d.name = some d

/-- A start need not keep what the marker names. -/
def Volume.Released : Prop := v.record.ended = true ∨ v.record.misread = true

/-- What a call may change: what is published is complete and named in the marker, and is
    not touched again but by a start that has published something else, nor before that
    if the marker names it, unless there is no need to keep it. -/
structure Moves (v' : Volume Rev) : Prop where
  created : ∀ n d, v.units.find n = none → v'.units.find n = some d →
    Complete v d ∧ v'.record.written = some d ∧ (v.record.unmarked = false → Guarded v' d)
  kept : ∀ n d, v.units.find n = some d → v'.units.find n = some d ∨
    ∃ e, v.record.written = some e ∧ e.name ≠ n
  guarded : ∀ d, Guarded v d → Guarded v' d ∨
    v.Released ∧ ∀ e, v.record.written = some e → e.name ≠ d.name
  written : ∀ e, v.record.written = some e → v'.record.written = some e

/-- What a start has published is there. -/
def Holds : Prop :=
  ∀ e, v.record.written = some e → v.units.find e.name = some e

section Moves

variable {v v' : Volume Rev}

theorem Moves.of_units (hunit : v'.units = v.units) (hwrit : v'.record.written = v.record.written)
    (hgrd : ∀ d, Guarded v d → Guarded v' d ∨
      v.Released ∧ ∀ e, v.record.written = some e → e.name ≠ d.name) : Moves v v' where
  created n d hnone hsome := by
    rw [hunit, hnone] at hsome
    exact nomatch hsome
  kept n d hsome := by
    rw [hunit]
    exact .inl hsome
  guarded := hgrd
  written e he := by rw [hwrit, he]

theorem Moves.of_same (hunit : v'.units = v.units) (hmark : v'.marker = v.marker)
    (hwrit : v'.record.written = v.record.written) : Moves v v' := by
  refine Moves.of_units hunit hwrit ?_
  rintro d ⟨m, hm, hname, hfind⟩
  exact .inl ⟨m, hmark.trans hm, hname, hunit ▸ hfind⟩

theorem Moves.refl (v : Volume Rev) : Moves v v := Moves.of_same rfl rfl rfl

theorem Moves.staged (v : Volume Rev) (s : Dirs Rev) : Moves v { v with staged := s } :=
  Moves.of_same rfl rfl rfl

theorem Holds.of_same (h : Holds v) (hunit : v'.units = v.units)
    (hwrit : v'.record.written = v.record.written) : Holds v' := by
  intro e he
  rw [hwrit] at he
  rw [hunit]
  exact h e he

end Moves

/-- What is owed to the volume by everybody. -/
def survival (Rev : Type) [DecidableEq Rev] : Contract (World Rev) (Volume Rev) :=
  contract Holds (fun _ => True) Moves

def anyTerms (Rev : Type) [DecidableEq Rev] :
    Terms (Op Rev) (World Rev) (Choice Rev) (Event Rev) :=
  terms (fun _ => True) (fun _ _ _ => True) fun _ => True

/-! ### What is put together -/

variable {n : Name Rev} {P : Contents Rev → Prop} {dirs : Dirs Rev}

section Rules

/-- What a part of the hook ends with, wherever it is cut off. -/
abbrev Survives {α : Type} (H : History Rev) (v : Volume Rev) (x : Hook Rev α)
    (Q : α → Unit → Volume Rev → Prop) (E : Exc → Unit → Volume Rev → Prop) : Prop :=
  Spec ((machine H).under (anyTerms Rev)) (survival Rev) () v x Q E

variable {H : History Rev} {v : Volume Rev} {name : Name Rev} {c : Choice Rev}
  {f : Contents Rev → Contents Rev} {v' v₁ : Volume Rev} {P' : Contents Rev → Prop}

-- Only what is not published changes when a file is written, and if all goes well the file is
-- as it should be.
theorem write_cases (v : Volume Rev) (c : Choice Rev) (name : Name Rev) (file : File)
    (f : Contents Rev → Contents Rev) :
    (∃ s, v.write c name file f = (.error .os, { v with staged := s })) ∨
      ∃ now, (v.staged.find name).isSome = true ∧ v.write c name file f = (.ok (), { v with
        staged := rewriteContents v.staged name fun k => { f k with mtime := now } }) := by
  cases c with
  | done now =>
    simp only [Volume.write]
    by_cases hfind : (v.staged.find name).isSome = true
    · rw [if_pos hfind]
      exact .inr ⟨now, hfind, rfl⟩
    · rw [if_neg hfind]
      exact .inl ⟨v.staged, rfl⟩
  | fault files =>
    simp only [Volume.write]
    by_cases hmem : file ∈ files
    · rw [if_pos hmem]
      exact .inl ⟨_, rfl⟩
    · rw [if_neg hmem]
      exact .inl ⟨v.staged, rfl⟩
  | order names | upgraded stamped half => exact .inl ⟨v.staged, rfl⟩

/-- What is put together under a name is of a kind, and nothing else has changed. -/
def Assembled (v : Volume Rev) (name : Name Rev) (P : Contents Rev → Prop)
    (v' : Volume Rev) : Prop :=
  ∃ s d, v' = { v with staged := s } ∧ s.find name = some d ∧ P d.contents

def Strewn (v v' : Volume Rev) : Prop := ∃ s, v' = { v with staged := s }

theorem find_rewriteContents {d : Dir Rev} (h : dirs.find name = some d) :
    (rewriteContents dirs name f).find name = some { d with contents := f d.contents } := by
  rw [rewriteContents, Table.find_modify, h]
  simp

theorem Strewn.moves (h : Strewn v v') : Moves v v' := by
  rcases h with ⟨s, rfl⟩
  exact Moves.staged v s

theorem Strewn.holds (h : Strewn v v') (hinv : Holds v) : Holds v' := by
  rcases h with ⟨s, rfl⟩
  exact hinv

theorem Assembled.strewn (h : Assembled v name P v') : Strewn v v' := by
  rcases h with ⟨s, d, rfl, -, -⟩
  exact ⟨s, rfl⟩

-- A file that is written makes a directory one of another kind, or strews something.
theorem written_cases {file : File} {a : Except Exc Unit} (hwr : v₁.write c name file f = (a, v'))
    (hv : Assembled v name P v₁) (hf : ∀ k now, P k → P' { f k with mtime := now }) :
    Strewn v₁ v' ∧ (a = .ok () ∧ Assembled v name P' v' ∨ a = .error .os ∧ Strewn v v') := by
  rcases hv with ⟨s, d, rfl, hfind, hP⟩
  rcases write_cases { v with staged := s } c name file f with ⟨s', heq⟩ | ⟨now, -, heq⟩
  · rw [heq] at hwr
    cases hwr
    exact ⟨⟨s', rfl⟩, .inr ⟨rfl, s', rfl⟩⟩
  · rw [heq] at hwr
    cases hwr
    exact ⟨⟨_, rfl⟩, .inl ⟨rfl, _, _, rfl, find_rewriteContents hfind, hf d.contents now hP⟩⟩

variable {E : Exc → Unit → Volume Rev → Prop}

def Settled (v : Volume Rev) (name : Name Rev) (P : Contents Rev → Prop) (r : Except Exc Unit)
    (v' : Volume Rev) : Prop :=
  r = .ok () ∧ Assembled v name P v' ∨ r = .error .os ∧ Strewn v v'

theorem spec_written {x : Hook Rev (Except Exc Unit)} (file : File)
    (f : Contents Rev → Contents Rev) (hx : ∀ {Q : Except Exc Unit → Unit → Volume Rev → Prop},
      (∀ c a v', Holds v₁ → v₁.write c name file f = (a, v') →
        Moves v₁ v' ∧ Holds v' ∧ Q a () v') →
      Survives H v₁ x Q E)
    (hv : Assembled v name P v₁) (hf : ∀ k now, P k → P' { f k with mtime := now }) :
    Survives H v₁ x (fun r _ v' => Settled v name P' r v') E := by
  refine hx ?_
  intro c a v' hinv hwr
  rcases written_cases hwr hv hf with ⟨hstrewn, hend⟩
  exact ⟨hstrewn.moves, hstrewn.holds hinv, hend⟩

theorem spec_settled {r : Except Exc Unit} (h : Settled v name P r v₁) :
    Survives H v₁ (orRaise r)
      (fun _ _ v' => Assembled v name P v') fun _ _ v' => Strewn v v' := by
  rcases h with ⟨rfl, hdone⟩ | ⟨rfl, hfault⟩
  · exact hdone
  · exact hfault

def New (v : Volume Rev) (k : Contents Rev) : Prop := v.record.reused = false → k.key = none

structure Keyed (v : Volume Rev) (db : Database Rev) (place : KeyDisposition)
    (k : Contents Rev) : Prop where
  database : k.database = some (.whole db)
  key : place = .fileIncluded → k.key = v.keyFile.map .whole
  nothing : v.record.reused = false → place ≠ .fileIncluded → k.key = none

def Full (v : Volume Rev) (db : Database Rev) (k : Contents Rev) : Prop :=
  Keyed v db (disposition v.settings v.keyFile) k ∧
    k.manifest = some (.whole ⟨db.stamp, disposition v.settings v.keyFile⟩)

variable {db : Database Rev} {v₁ : Volume Rev} {marker : UpgradeMarker Rev}

theorem spec_snapshot (hdb : v.database = some db) (hv : Assembled v name (New v) v₁) :
    Survives H v₁ (Os.snapshot name)
      (fun r _ v' => Settled v name (fun k => k.database = some (.whole db) ∧ New v k) r v') E := by
  refine spec_written .database (fun k => { k with database := some (.whole db) })
    (fun h => spec_call ?_) hv fun k now hnew => ⟨rfl, hnew⟩
  intro c a v' hinv _ hexec
  have hdb₁ : v₁.database = some db := by
    rcases hv with ⟨s, d, rfl, -, -⟩
    exact hdb
  simp only [exec, hdb₁] at hexec
  exact h c a v' hinv (Option.some.inj hexec)

theorem spec_copyKey (hv : Assembled v name (fun k => k.database = some (.whole db) ∧ New v k) v₁) :
    Survives H v₁ (copyKey v.settings name)
      (fun a _ v' => a = disposition v.settings v.keyFile ∧ Assembled v name (Keyed v db a) v')
      fun _ _ v' => Strewn v v' := by
  have hkeyFile : v₁.keyFile = v.keyFile := by
    rcases hv with ⟨s, d, rfl, -, -⟩
    rfl
  -- without the file of the key, what is there stays as it is
  have hkept : ∀ a : KeyDisposition, a ≠ .fileIncluded → Assembled v name (Keyed v db a) v₁ := by
    intro a ha
    rcases hv with ⟨s, d, rfl, hfind, hd, hnew⟩
    exact ⟨s, d, rfl, hfind, hd, fun heq => absurd heq ha, fun hreu _ => hnew hreu⟩
  unfold copyKey
  by_cases henv : fernetEnvOverrideConfigured v.settings = true
  · rw [if_pos henv]
    refine ⟨?_, hkept _ nofun⟩
    rw [disposition, if_pos henv]
  rw [if_neg henv]
  refine .next (spec_still Moves.refl ?_)
  rintro c a v' _ hexec
  cases hexec
  refine ⟨rfl, ?_⟩
  cases hkey : v.keyFile with
  | none =>
    rw [hkeyFile, hkey]
    refine ⟨?_, hkept _ nofun⟩
    rw [disposition, if_neg henv]
    rfl
  | some key =>
    rw [hkeyFile, hkey]
    have hput : disposition v.settings (some key) = .fileIncluded := by
      rw [disposition, if_neg henv]
      rfl
    have hcopy : Survives H v₁ (Os.copyKey name)
        (fun r _ v' => Settled v name (Keyed v db .fileIncluded) r v')
        fun _ _ v' => Strewn v v' := by
      refine spec_written .key (fun k => { k with key := some (.whole key) })
        (fun h => spec_call ?_) hv ?_
      · intro c a v' hinv _ hexec
        simp only [exec, hkeyFile, hkey] at hexec
        exact h c a v' hinv (Option.some.inj hexec)
      · rintro k now ⟨hdb, -⟩
        exact ⟨hdb, fun _ => by rw [hkey]; rfl, fun _ hne => absurd rfl hne⟩
    refine .bind hcopy ?_
    rintro r ⟨⟩ v₂ hr
    refine .bind (spec_settled hr) ?_
    rintro ⟨⟩ ⟨⟩ v₃ hv₃
    refine .next (spec_still Moves.refl ?_)
    rintro c a v' _ hexec
    cases hexec
    refine ⟨rfl, .next (spec_orRaise ?_ ?_)⟩
    · intro _ _
      exact ⟨hput.symm, hv₃⟩
    · intro _ _
      exact hv₃.strewn

theorem spec_stage (hdb : v.database = some db) (hv : Assembled v name (New v) v₁) :
    Survives H v₁ (stage v.settings db.stamp name) (fun _ _ v' => Assembled v name (Full v db) v')
      fun _ _ v' => Strewn v v' := by
  refine .bind (spec_snapshot hdb hv) ?_
  rintro r ⟨⟩ v₂ hr
  refine .bind (spec_settled hr) ?_
  rintro ⟨⟩ ⟨⟩ v₃ hv₃
  refine .bind (spec_copyKey hv₃) ?_
  rintro a ⟨⟩ v₄ ⟨rfl, hv₄⟩
  have hmani : Survives H v₄ (Os.writeManifest name ⟨db.stamp, disposition v.settings v.keyFile⟩)
      (fun r _ v' => Settled v name (Full v db) r v') fun _ _ v' => Strewn v v' := by
    refine spec_written .manifest (fun k => { k with
      manifest := some (.whole ⟨db.stamp, disposition v.settings v.keyFile⟩) })
      (fun h => spec_call ?_) hv₄ ?_
    · intro c a v' hinv _ hexec
      exact h c a v' hinv (Option.some.inj hexec)
    · intro k now hkey
      exact ⟨⟨hkey.database, hkey.key, hkey.nothing⟩, rfl⟩
  refine .bind hmani ?_
  rintro r ⟨⟩ v₅ hr
  exact spec_settled hr

-- If something fails, nothing is left but what is not published.
theorem spec_stageOrRemove (hdb : v.database = some db) (hv : Assembled v name (New v) v₁) :
    Survives H v₁ (stageOrRemove v.settings db.stamp name)
      (fun _ _ v' => Assembled v name (Full v db) v') fun _ _ v' => Strewn v v' := by
  refine .next (.attempt ((spec_stage hdb hv).mono ?_ ?_))
  · rintro ⟨⟩ ⟨⟩ v₂ hv₂
    exact hv₂
  · rintro e ⟨⟩ v₂ ⟨s, rfl⟩
    refine .next (.discard (spec_call ?_))
    rintro c a v' hinv _ hexec
    cases hexec
    exact ⟨Moves.staged _ _, hinv, _, rfl⟩

/-! ### What is published -/

/-- The hook before it publishes: the name is free, and what the marker names need not be
    kept. -/
structure Ready (v : Volume Rev) (name : Name Rev) : Prop where
  written : v.record.written = none
  free : v.units.find name = none
  spent : ∀ d, Guarded v d → v.Released

/-- The hook after it has published: nothing else the marker names need be kept. -/
structure Pruning (v : Volume Rev) (name : Name Rev) : Prop where
  written : ∃ e, v.record.written = some e ∧ e.name = name
  spent : ∀ d, Guarded v d → d.name ≠ name → v.Released

theorem Ready.moves (h : Ready v name) (hunit : v'.units = v.units)
    (hwrit : v'.record.written = v.record.written) : Moves v v' := by
  refine Moves.of_units hunit hwrit fun d hd => .inr ⟨h.spent d hd, ?_⟩
  intro e he
  rw [h.written] at he
  exact nomatch he

theorem spec_mkdirStaging (h : Ready v name) :
    Survives H v (Os.mkdirStaging name)
      (fun r _ v' => r = .ok () → Ready v' name ∧ v'.database = v.database ∧
        v'.settings = v.settings ∧ Assembled v' name (New v') v') E := by
  refine spec_call ?_
  intro c a v' hinv _ hexec
  cases c with
  | done now =>
    cases hexec
    refine ⟨h.moves rfl rfl, hinv, fun _ => ⟨⟨h.written, h.free, h.spent⟩, rfl, rfl, ?_⟩⟩
    cases hfind : v.staged.find name with
    | none =>
      refine ⟨_, { name := name, contents := { mtime := now } }, rfl, ?_, fun _ => rfl⟩
      rw [Table.find_insert, hfind]
      simp
    | some d =>
      refine ⟨_, d, rfl, ?_, fun hreu => ?_⟩
      · rw [Table.find_insert, hfind]
        rfl
      · change (some d).isSome = false at hreu
        exact nomatch hreu
  | fault files | order names | upgraded stamped half =>
    cases hexec
    exact ⟨Moves.refl _, hinv, nofun⟩

/-- The marker has been written, or it is on record that it has not. -/
def Marked (v : Volume Rev) (marker : UpgradeMarker Rev) (v' : Volume Rev) : Prop :=
  ∃ k u, v' = { v with marker := k, record := { v.record with unmarked := u } } ∧
    (k = .holds marker ∨ (k = .corrupt ∨ k = v.marker) ∧ u = true)

theorem spec_writeMarker (h : Ready v name) (marker : UpgradeMarker Rev) :
    Survives H v (writeMarker marker)
      (fun _ _ v' => Marked v marker v') E := by
  have hcut : ∀ k, (k = .corrupt ∨ k = v.marker) → Marked v marker
      { v with marker := k, record := { v.record with unmarked := true } } :=
    fun k hk => ⟨k, true, rfl, .inr ⟨hk, rfl⟩⟩
  have hwr : Survives H v (do
        orRaise (← Os.openMarker)
        orRaise (← Os.fillMarker marker))
      (fun _ _ v' => Marked v marker v') fun e _ v' => e = .os ∧ Marked v marker v' := by
    refine .next (spec_call ?_)
    intro c a v' hinv _ hexec
    by_cases hc : c.granted = true
    · simp only [exec, if_pos hc] at hexec
      cases hexec
      -- the file is cut off, and there is nothing in it yet
      have hnil : Ready { v with marker := .corrupt } name :=
        ⟨h.written, h.free, fun d hd => by rcases hd with ⟨m, hm, -⟩; cases hm⟩
      refine ⟨h.moves rfl rfl, hinv, .next (spec_orRaise (fun _ _ => ?_) fun _ h => by cases h)⟩
      refine .next (spec_call ?_)
      intro c a v' hinv _ hexec
      by_cases hc : c.granted = true
      · simp only [exec, if_pos hc] at hexec
        cases hexec
        exact ⟨hnil.moves rfl rfl, hinv, _, v.record.unmarked, rfl, .inl rfl⟩
      · simp only [exec, if_neg hc] at hexec
        cases hexec
        exact ⟨hnil.moves rfl rfl, hinv, rfl, hcut .corrupt (.inl rfl)⟩
    · simp only [exec, if_neg hc] at hexec
      cases hexec
      exact ⟨h.moves rfl rfl, hinv, rfl, hcut v.marker (.inr rfl)⟩
  refine .tryCatch hwr ?_
  rintro e ⟨⟩ v' ⟨rfl, hmark⟩
  exact hmark

theorem Marked.ready (hmark : Marked v marker v')
    (hname : marker.backup = name) (h : Ready v name) : Ready v' name := by
  rcases hmark with ⟨k, u, rfl, hk⟩
  refine ⟨h.written, h.free, ?_⟩
  rintro d ⟨m, hm, hback, hfind⟩
  rcases hk with rfl | ⟨rfl | rfl, -⟩
  · obtain rfl := MarkerFile.holds.inj hm
    have hfree : v.units.find d.name = none := by rw [← hback, hname, h.free]
    exact absurd (hfind.symm.trans hfree) nofun
  · exact nomatch hm
  · exact h.spent d ⟨m, hm, hback, hfind⟩

omit [DecidableEq Rev] in
theorem Marked.holds (hmark : Marked v marker v')
    (h : v'.record.unmarked = false) : v'.marker = .holds marker := by
  rcases hmark with ⟨k, u, rfl, rfl | ⟨-, rfl⟩⟩
  · rfl
  · exact nomatch h

theorem spec_publish (hrdy : Ready v name) (hdb : v.database = some db)
    (hname : name.fromRev = db.stamp)
    (hmark : v.record.unmarked = false → ∃ m, v.marker = .holds m ∧ m.backup = name)
    (hv : Assembled v name (Full v db) v₁) :
    Survives H v₁ (Os.publish name)
      (fun r _ v' => r = .ok () → Pruning v' name) E := by
  rcases hv with ⟨s, d, rfl, hfind, hkey, hmani⟩
  refine spec_call ?_
  intro c a v' hinv _ hexec
  have hfree : v.units.find name = none := hrdy.free
  have hd : d.name = name := Table.key_of_find hfind
  simp only [exec, hfind, hfree] at hexec
  by_cases hc : c.granted = true
  · rw [if_pos hc] at hexec
    cases hexec
    -- The name was free: one directory is new, and the others stay.
    have hins : ∀ n, (v.units.insert d).find n =
        (v.units.find n).or (if d.name = n then some d else none) := Table.find_insert v.units d
    have hnew : (v.units.insert d).find d.name = some d := by
      rw [hins, hd, hfree]
      simp
    refine ⟨⟨?_, ?_, ?_, ?_⟩, ?_, fun _ => ⟨⟨d, rfl, hd⟩, ?_⟩⟩
    · intro n d' hnone hsome
      rw [hins, hnone, Option.none_or] at hsome
      split at hsome
      · rename_i hn
        cases hsome
        refine ⟨⟨⟨db, hdb, hkey.database, hd ▸ hname⟩, ?_, hkey.key, hkey.nothing⟩, rfl, ?_⟩
        · rw [hmani, hd, hname]
        · intro hunm
          rcases hmark hunm with ⟨m, hm, hback⟩
          exact ⟨m, hm, hback.trans hd.symm, hnew⟩
      · cases hsome
    · intro n d' hsome
      left
      rw [hins, hsome, Option.some_or]
    · rintro d' ⟨m, hm, hback, hsome⟩
      left
      refine ⟨m, hm, hback, ?_⟩
      rw [hins, hsome, Option.some_or]
    · intro e he
      rw [hrdy.written] at he
      cases he
    · intro e he
      cases he
      exact hnew
    · rintro d' ⟨m, hm, hback, hsome⟩ hne
      refine hrdy.spent d' ⟨m, hm, hback, ?_⟩
      rw [hins, if_neg fun heq => hne (heq.symm.trans hd), Option.or_none] at hsome
      exact hsome
  · rw [if_neg hc] at hexec
    cases hexec
    exact ⟨Moves.refl _, hinv, fun h => by cases h⟩

/-! ### What is removed -/

theorem find_removal_none (h : dirs.find n = none) : (removal dirs c name).2.find n = none := by
  cases c with
  | done now =>
    change (dirs.erase name).find n = none
    rw [Table.find_erase, h, ite_self]
  | fault files =>
    change (rewriteContents dirs name _).find n = none
    rw [rewriteContents, Table.find_modify, h]
    rfl
  | order names | upgraded stamped half => exact h

theorem find_removal_ne (h : n ≠ name) : (removal dirs c name).2.find n = dirs.find n := by
  cases c with
  | done now =>
    change (dirs.erase name).find n = _
    rw [Table.find_erase, if_neg h]
  | fault files =>
    change (rewriteContents dirs name _).find n = _
    rw [rewriteContents, Table.find_modify]
    simp [h]
  | order names | upgraded stamped half => rfl

theorem ne_of_mem_stale {names : List (Name Rev)} {mtime : Name Rev → Int} {keep : Nat}
    (h : n ∈ stale names mtime keep (some name)) : n ≠ name := by
  have hmem := List.mem_insertionSort _ |>.mp (List.mem_of_mem_take h)
  have hne := (List.mem_filter.mp hmem).2
  simpa using hne

theorem spec_removeStaged (h : Pruning v name) :
    Survives H v (discard (Os.removeStaged n))
      (fun _ _ v' => Pruning v' name) E := by
  refine .discard (spec_call ?_)
  rintro c a v' hinv _ hexec
  cases hexec
  exact ⟨Moves.staged _ _, hinv, h.written, h.spent⟩

theorem spec_removeUnit (h : Pruning v name) (hne : n ≠ name) :
    Survives H v (discard (Os.removeUnit n))
      (fun _ _ v' => Pruning v' name) E := by
  refine .discard (spec_call ?_)
  rintro c a v' hinv _ hexec
  cases hexec
  rcases h.written with ⟨e, he, hname⟩
  have hoth : ∀ e', v.record.written = some e' → e'.name ≠ n := by
    intro e' he'
    rw [he] at he'
    cases he'
    exact fun heq => hne (heq.symm.trans hname)
  have hback : ∀ d, Guarded { v with units := (removal v.units c n).2 } d → d.name ≠ n →
      Guarded v d := by
    rintro d ⟨m, hm, hbackup, hfind⟩ hd
    exact ⟨m, hm, hbackup, by rw [← hfind]; exact (find_removal_ne hd).symm⟩
  refine ⟨⟨?_, ?_, ?_, fun _ he' => he'⟩, ?_, h.written, ?_⟩
  · intro n' d hnone hsome
    exact absurd ((find_removal_none hnone).symm.trans hsome) nofun
  · intro n' d hsome
    by_cases hn : n' = n
    · exact .inr ⟨e, he, hn ▸ hoth e he⟩
    · exact .inl ((find_removal_ne hn).trans hsome)
  · rintro d ⟨m, hm, hbackup, hfind⟩
    by_cases hd : d.name = n
    · refine .inr ⟨h.spent d ⟨m, hm, hbackup, hfind⟩ (hd ▸ hne), ?_⟩
      exact fun e' he' => hd ▸ hoth e' he'
    · exact .inl ⟨m, hm, hbackup, (find_removal_ne hd).trans hfind⟩
  · intro e' he'
    exact (find_removal_ne (hoth e' he')).trans (hinv e' he')
  · intro d hd hdname
    by_cases hn : d.name = n
    · -- what is removed may be there in part
      rcases hd with ⟨m, hm, hbackup, hfind⟩
      cases hold : v.units.find d.name with
      | none => exact absurd ((find_removal_none hold).symm.trans hfind) nofun
      | some d₀ =>
        have hd₀ : d₀.name = d.name := Table.key_of_find hold
        exact h.spent d₀ ⟨m, hm, hbackup.trans hd₀.symm, hd₀ ▸ hold⟩ (hd₀ ▸ hdname)
    · exact h.spent d (hback d hd hn) hdname

theorem spec_prune (h : Pruning v name) (keep : Nat) :
    Survives H v (prune keep name)
      (fun _ _ v' => Pruning v' name) fun _ _ v' => Pruning v' name := by
  refine .next (spec_still Moves.refl ?_)
  intro c a v' _ hexec
  rcases Option.map_eq_some_iff.mp hexec with ⟨partials, _, heq⟩
  cases heq
  refine ⟨rfl, .bind (.forM (I := fun _ v' => Pruning v' name) _ _ h ?_) ?_⟩
  · intro n _ _ v₁ h₁
    exact spec_removeStaged h₁
  rintro ⟨⟩ ⟨⟩ v₁ h₁
  refine .next (spec_call ?_)
  rintro c a v' hinv _ hexec
  cases hexec
  refine ⟨Moves.refl _, hinv, ?_⟩
  have hpres : (v₁.units.find name).isSome = true := by
    rcases h₁.written with ⟨e, he, rfl⟩
    rw [hinv e he]
    rfl
  rw [hpres]
  refine .next (spec_still Moves.refl ?_)
  intro c a v' _ hexec
  rcases Option.map_eq_some_iff.mp hexec with ⟨names, _, heq⟩
  cases heq
  refine ⟨rfl, .next (spec_still Moves.refl ?_)⟩
  rintro c a v' _ hexec
  cases hexec
  refine ⟨rfl, .next (spec_orRaise (fun mtime _ => ?_) fun _ _ => h₁)⟩
  refine .forM _ _ h₁ ?_
  intro n hn _ v₂ h₂
  exact spec_removeUnit h₂ (ne_of_mem_stale hn)

theorem spec_backUp (h : Ready v name) (hdb : v.database = some db)
    (hname : name.fromRev = db.stamp) (head : Option (Head Rev)) :
    Survives H v (backUp v.settings db.stamp head name) Anyhow Anyhow := by
  refine .bind (spec_mkdirStaging h) ?_
  rintro r ⟨⟩ v₁ hr
  refine .next (spec_orRaise (fun _ hok => ?_) fun _ _ => trivial)
  rcases hr hok with ⟨h₁, hdb₁, hsettings₁, hnew₁⟩
  refine .next (spec_still Moves.refl ?_)
  rintro c created v' _ hexec
  have hv' : v' = v₁ := by
    cases c with
    | done now => exact (congrArg Prod.snd (Option.some.inj hexec)).symm
    | fault files | order names | upgraded stamped half => exact nomatch hexec
  refine ⟨hv', .bind (spec_writeMarker h₁ _) ?_⟩
  rintro ⟨⟩ ⟨⟩ v₂ hmark
  have h₂ : Ready v₂ name := hmark.ready rfl h₁
  have hmarked : v₂.record.unmarked = false → ∃ m, v₂.marker = .holds m ∧ m.backup = name :=
    fun hunm => ⟨_, hmark.holds hunm, rfl⟩
  have hdb₂ : v₂.database = some db := by
    rcases hmark with ⟨k, u, rfl, -⟩
    exact hdb₁.trans hdb
  have hnew₂ : Assembled v₂ name (New v₂) v₂ := by
    rcases hmark with ⟨k, u, rfl, -⟩
    rcases hnew₁ with ⟨s, d, heq, hfind, hnew⟩
    refine ⟨_, d, rfl, ?_, hnew⟩
    rw [heq]
    exact hfind
  have hsettings₂ : v.settings = v₂.settings := by
    rcases hmark with ⟨k, u, rfl, -⟩
    exact hsettings₁.symm
  rw [hsettings₂]
  refine .bind ((spec_stageOrRemove hdb₂ hnew₂).mono (fun _ _ _ h => h)
    fun _ _ _ _ => trivial) ?_
  rintro ⟨⟩ ⟨⟩ v₃ h₃
  refine .bind (spec_publish h₂ hdb₂ hname hmarked h₃) ?_
  rintro r ⟨⟩ v₄ hr
  refine .next (spec_orRaise (fun _ hok => ?_) fun _ _ => trivial)
  by_cases hhead : head = some .unknown
  · rw [if_pos hhead]
    trivial
  · rw [if_neg hhead]
    exact .bind ((spec_prune (hr hok) keepCount).mono (fun _ _ _ h => h)
      fun _ _ _ _ => trivial) fun _ _ _ _ => trivial

end Rules

/-! ### The container -/

section Container

variable {H : History Rev} {v : Volume Rev} {db : Database Rev}
  {K : Op Rev → Choice Rev → Volume Rev → Prop} {v' : Volume Rev}

theorem released_of_spent {d : Dir Rev}
    (hover : v.ended = true → v.record.ended = true) (hdb : v.database = some db)
    (hsp : v.Spent db) (hgrd : Guarded v d) : v.record.ended = true := by
  rcases hgrd with ⟨m, hm, hback, hfind⟩
  refine hover ?_
  rcases hsp m hm with hreach | hnone
  · rw [Volume.ended, hdb, Option.any_some, hreach, Bool.or_true]
  · rw [hback, hfind] at hnone
    exact nomatch hnone

theorem unmark_moves (hwrit : v.record.written = none)
    (h : ∀ d, Guarded v d → v.record.ended = true) : Moves v v.unmark := by
  refine Moves.of_units rfl rfl fun d hd => .inr ⟨.inl (h d hd), fun e he => ?_⟩
  rw [hwrit] at he
  exact nomatch he

-- The hook may clear a marker that names nothing it need keep.
theorem licence_moves (hwrit : v.record.written = none)
    (hover : v.ended = true → v.record.ended = true) :
    Licence (fun _ _ _ => True) Holds Moves v where
  still := Moves.refl
  misread hinv _ _ _ := ⟨Moves.of_same rfl rfl rfl, hinv⟩
  spent hinv _ hdb hsp :=
    ⟨unmark_moves hwrit fun _ => released_of_spent hover hdb hsp, hinv⟩
  atHead hinv hhead := by
    refine ⟨unmark_moves hwrit fun _ _ => hover ?_, hinv⟩
    rw [Volume.ended, hhead, Bool.true_or]

theorem Unguarded.ready {name : Name Rev} (hgo : Unguarded K v db v')
    (hwrit : v.record.written = none) (hover : v.ended = true → v.record.ended = true)
    (hdb : v.database = some db) (hlab : ¬v.Labelled name.fromRev) : Ready v' name := by
  have hfree := find_none_of_not_labelled hlab
  cases hgo with
  | misread c hc hterm => exact ⟨hwrit, hfree, fun _ _ => .inr rfl⟩
  | kept hsp =>
    exact ⟨hwrit, hfree, fun _ hd => .inl (released_of_spent hover hdb hsp hd)⟩
  | cleared hsp =>
    refine ⟨hwrit, hfree, ?_⟩
    rintro d ⟨m, hm, -⟩
    exact nomatch hm

theorem Unguarded.settings (hgo : Unguarded K v db v') : v'.settings = v.settings := by
  cases hgo with
  | misread c hc hterm | kept h | cleared h => rfl

theorem keepsUnder_moves (H : History Rev) :
    KeepsUnder (machine H) (anyTerms Rev) (survival Rev) where
  main w _ _ := by
    have hover : w.boot.here.ended = true → w.boot.here.record.ended = true := id
    refine safe_entrypoint ?_ ?_
    · refine spec_createPreMigrationBackup (licence_moves rfl hover) ?_
      intro db name v' hdb hname hlab _ hgo
      have hrdy : Ready v' name := hgo.ready rfl hover hdb (hname ▸ hlab)
      have hback := spec_backUp (H := H) hrdy (hgo.database.trans hdb) hname
        (World.boot w).here.image.headRevision
      rw [hgo.settings] at hback
      exact hback
    · intro v c v' hinv _ hexec
      cases c with
      | upgraded stamped half =>
        obtain rfl := congrArg Prod.snd (Option.some.inj hexec)
        rcases upgrade_fixed H v stamped half with ⟨hunit, -, hmark, hrec⟩
        have hwrit := congrArg Record.written hrec
        exact ⟨Moves.of_same hunit hmark hwrit, hinv.of_same hunit hwrit⟩
      | done now | fault files | order names =>
        cases hexec
        exact ⟨Moves.refl _, hinv⟩
  boot w _ _ := by
    refine ⟨fun e he => ?_, trivial⟩
    exact nomatch he
  event e w w' hinv _ hev := by
    cases hev
    exact ⟨⟨hinv.1, trivial⟩, rfl⟩
  stutter := Moves.refl

/-! ### Every run -/

theorem exec_record {op : Op Rev} {c : Choice Rev} {a : Ans op}
    (hexec : exec H op c v = some (a, v')) :
    v'.record.ended = v.record.ended ∧
      (v'.record.misread = true → v.record.misread = true ∨
        op = .readMarker ∧ c.granted = false) ∧
      (v'.record.unmarked = true → v.record.unmarked = true ∨
        op.writesMarker = true ∧ c.granted = false) := by
  have hsame : ∀ {v'' : Volume Rev}, v''.record = v.record → v''.record.ended = v.record.ended ∧
      (v''.record.misread = true → v.record.misread = true ∨
        op = .readMarker ∧ c.granted = false) ∧
      (v''.record.unmarked = true → v.record.unmarked = true ∨
        op.writesMarker = true ∧ c.granted = false) := by
    intro v'' heq
    rw [heq]
    exact ⟨rfl, .inl, .inl⟩
  -- Writing a file of a copy records nothing, however it ends.
  have hwr : ∀ name file f, (v.write c name file f).2.record = v.record := by
    intro name file f
    rcases write_cases v c name file f with ⟨s, heq⟩ | ⟨now, -, heq⟩
    · rw [heq]
    · rw [heq]
  have hrefu : ¬c.granted = true → c.granted = false := by simp
  cases op with
  | readMarker =>
    simp only [exec] at hexec
    split at hexec
    · cases hexec
      exact hsame rfl
    · rename_i hc
      cases hexec
      exact ⟨rfl, fun _ => .inr ⟨rfl, hrefu hc⟩, .inl⟩
  | openMarker | fillMarker _ =>
    simp only [exec] at hexec
    split at hexec
    · cases hexec
      exact hsame rfl
    · rename_i hc
      cases hexec
      exact ⟨rfl, .inl, fun _ => .inr ⟨rfl, hrefu hc⟩⟩
  | unlinkMarker | currentRevision =>
    simp only [exec] at hexec
    split at hexec
    · cases hexec
      exact hsame rfl
    · cases hexec
      exact hsame rfl
  | mkdirStaging name =>
    cases c <;>
      · cases hexec
        exact ⟨rfl, .inl, .inl⟩
  | snapshot name | copyKey name =>
    simp only [exec] at hexec
    split at hexec
    · cases hexec
      exact hsame rfl
    · obtain rfl := congrArg Prod.snd (Option.some.inj hexec)
      exact hsame (hwr _ _ _)
  | writeManifest name manifest =>
    obtain rfl := congrArg Prod.snd (Option.some.inj hexec)
    exact hsame (hwr _ _ _)
  | publish name =>
    simp only [exec] at hexec
    split at hexec
    · split at hexec
      · cases hexec
        exact ⟨rfl, .inl, .inl⟩
      · cases hexec
        exact hsame rfl
    all_goals
      cases hexec
      exact hsame rfl
  | upgrade =>
    cases c with
    | upgraded stamped half =>
      obtain rfl := congrArg Prod.snd (Option.some.inj hexec)
      exact hsame (upgrade_fixed H v stamped half).2.2.2
    | done now | fault files | order names => cases hexec; exact hsame rfl
  | now =>
    cases c with
    | done now => cases hexec; exact hsame rfl
    | fault files | order names | upgraded stamped half => cases hexec
  | units | staged =>
    rcases Option.map_eq_some_iff.mp hexec with ⟨names, _, heq⟩
    cases heq
    exact hsame rfl
  | removeStaged _ | removeUnit _ | settings | databaseExists | scripts | mtimes | isDir _
  | keyExists | chmodKey _ =>
    cases hexec
    exact hsame rfl

end Container

section Runs

variable {H : History Rev} {s t u : Container Rev} {a : Action (Choice Rev) (Event Rev)}
  {d : Dir Rev} {as : List (Action (Choice Rev) (Event Rev))}

def marking : Terms (Op Rev) (World Rev) (Choice Rev) (Event Rev) :=
  terms (fun _ => True) (fun op c _ => op.writesMarker = true → c.granted = true) fun _ => True

/-- No start finds a database at the head of its image or at that of the marker, and the
    marker can be read. -/
def lasting : Terms (Op Rev) (World Rev) (Choice Rev) (Event Rev) :=
  terms (fun v => ¬v.ended = true) (fun op c _ => op = .readMarker → c.granted = true) fun _ => True

def Rested (s : Container Rev) : Prop := s.running = none ∧ s.world.here.record = {}

theorem anyTerms_meets (s : Container Rev) (a : Action (Choice Rev) (Event Rev)) :
    (anyTerms Rev).Meets s a := by
  cases a with
  | start | crash | event e => trivial
  | advance c =>
    simp only [Terms.Meets]
    split <;> trivial

theorem Rested.sound (h : Rested s) :
    Sound ((machine H).under (anyTerms Rev)) (survival Rev) s := by
  refine .of_rest ⟨?_, trivial⟩ h.1
  intro e he
  rw [h.2] at he
  exact nomatch he

theorem moves_of_step (hs : Sound ((machine H).under (anyTerms Rev)) (survival Rev) s)
    (hstep : (machine H).step s a = some t) (hne : a ≠ .start) : Moves s.world.here t.world.here :=
  ((keepsUnder_moves H).step s t a hs (anyTerms_meets s a) hstep).2 hne

theorem step_record (hstep : (machine H).step s a = some t) (hne : a ≠ .start) :
    t.world.here.record.ended = s.world.here.record.ended ∧
      (lasting.Meets s a → t.world.here.record.misread = true →
        s.world.here.record.misread = true) ∧
      (marking.Meets s a → t.world.here.record.unmarked = true →
        s.world.here.record.unmarked = true) := by
  have hsame : t.world.here = s.world.here →
      t.world.here.record.ended = s.world.here.record.ended ∧
      (lasting.Meets s a → t.world.here.record.misread = true →
        s.world.here.record.misread = true) ∧
      (marking.Meets s a → t.world.here.record.unmarked = true →
        s.world.here.record.unmarked = true) := by
    intro heq
    rw [heq]
    exact ⟨rfl, fun _ h => h, fun _ h => h⟩
  cases a with
  | start => exact absurd rfl hne
  | crash | event e =>
    cases hstep
    exact hsame rfl
  | advance c =>
    cases hrun : s.running with
    | none => simp [Machine.step, hrun] at hstep
    | some p =>
      cases p with
      | ret r =>
        simp only [Machine.step, hrun, Option.some.injEq] at hstep
        subst hstep
        exact hsame rfl
      | call op next =>
        simp only [Machine.step, hrun, Option.map_eq_some_iff] at hstep
        rcases hstep with ⟨⟨answer, w⟩, hmach, rfl⟩
        rcases Option.map_eq_some_iff.mp hmach with ⟨⟨answer', v'⟩, hexec, heq⟩
        cases heq
        rcases exec_record hexec with ⟨hover, hmisread, hunm⟩
        refine ⟨hover, fun hmeet h => ?_, fun hmeet h => ?_⟩
        · -- the call is the one the terms are about, and they say it is granted
          simp only [Terms.Meets, hrun] at hmeet
          rcases hmisread h with hold | ⟨hop, hc⟩
          · exact hold
          · cases (hmeet hop).symm.trans hc
        · simp only [Terms.Meets, hrun] at hmeet
          rcases hunm h with hold | ⟨hop, hc⟩
          · exact hold
          · cases (hmeet hop).symm.trans hc

theorem find_found {w : World Rev} (h : w.here.units.find n = some d) :
    w.found.units.find n = some d := by
  have hfold : ∀ (ds : List (Dir Rev)) (dirs : Dirs Rev), dirs.find n = some d →
      (ds.foldl Table.insert dirs).find n = some d := by
    intro ds
    induction ds with
    | nil => exact fun dirs hfind => hfind
    | cons d' ds ih =>
      intro dirs hfind
      refine ih _ ?_
      rw [Table.find_insert, hfind, Option.some_or]
  exact hfold w.next.archives w.here.units h

theorem start_eq (hstep : (machine H).step s .start = some t) : t.world = s.world.boot := by
  cases hrun : s.running with
  | some p => simp [Machine.step, hrun] at hstep
  | none =>
    simp only [Machine.step, hrun, Option.some.injEq] at hstep
    rw [← hstep]
    rfl

/-- What the marker names, in a start that keeps it. -/
def Lasts (d : Dir Rev) (v : Volume Rev) : Prop :=
  Guarded v d ∧ (¬v.Released ∨ ∃ e, v.record.written = some e ∧ e.name = d.name)

theorem Guarded.step (hs : Sound ((machine H).under (anyTerms Rev)) (survival Rev) s)
    (h : Lasts d s.world.here) (hmeet : lasting.Meets s a)
    (hstep : (machine H).step s a = some t) : Lasts d t.world.here := by
  rcases h with ⟨hgrd, hown⟩
  by_cases ha : a = .start
  · subst ha
    have hover : ¬s.world.found.ended = true := hmeet
    rcases hgrd with ⟨m, hm, hback, hfind⟩
    rw [start_eq hstep]
    refine ⟨⟨m, hm, hback, find_found hfind⟩, .inl ?_⟩
    rintro (h | h)
    · exact hover h
    · exact nomatch h
  · have hmove := moves_of_step hs hstep ha
    rcases step_record hstep ha with ⟨hover, hmisread, -⟩
    have hkept : Guarded t.world.here d := by
      rcases hmove.guarded d hgrd with hkept | ⟨hrel, hoth⟩
      · exact hkept
      · rcases hown with hnot | ⟨e, he, hname⟩
        · exact absurd hrel hnot
        · exact absurd hname (hoth e he)
    refine ⟨hkept, ?_⟩
    rcases hown with hnot | ⟨e, he, hname⟩
    · refine .inl fun hrel => hnot ?_
      exact hrel.imp (fun h => hover.symm.trans h) (hmisread hmeet)
    · exact .inr ⟨e, hmove.written e he, hname⟩

theorem Lasts.run {bs : List (Action (Choice Rev) (Event Rev))}
    (hs : Sound ((machine H).under (anyTerms Rev)) (survival Rev) s)
    (h : Lasts d s.world.here) (hmeet : StepsMeet (machine H).step lasting.Meets s bs)
    (hrun : run (machine H).step s bs = some t) : Lasts d t.world.here := by
  have hboth := invariant_of_meeting_run
    (I := fun s => Sound ((machine H).under (anyTerms Rev)) (survival Rev) s ∧
      Lasts d s.world.here)
    (fun s a t hI hmeet hstep =>
      ⟨((keepsUnder_moves H).step s t a hI.1 (anyTerms_meets s a) hstep).1,
        Guarded.step hI.1 hI.2 hmeet hstep⟩) s t bs ⟨hs, h⟩ hmeet hrun
  exact hboth.2

-- If the marker can be written, nothing else is on record.
theorem unmarked_of_run (h : Rested s) (hmeet : StepsMeet (machine H).step marking.Meets s as)
    (hrun : run (machine H).step s as = some t) : t.world.here.record.unmarked = false := by
  refine invariant_of_meeting_run (I := fun s => s.world.here.record.unmarked = false)
    ?_ s t as (by rw [h.2]) hmeet hrun
  intro s a t hfalse hmeet hstep
  by_cases ha : a = .start
  · subst ha
    rw [start_eq hstep]
    rfl
  · have hunm := (step_record hstep ha).2.2 hmeet
    rw [hfalse] at hunm
    simpa using hunm

end Runs

/-- In every run of starts, crashes and whatever an operator does, a directory that the
    hook publishes is complete, and a directory is left alone until a start has published
    another. What a start publishes is there to its end, and if the marker can be written,
    until a start finds the database at the head of its image or at that of the marker, or
    cannot read the marker. -/
theorem copies_survive (H : History Rev) (s t u : Container Rev)
    (as : List (Action (Choice Rev) (Event Rev))) (a : Action (Choice Rev) (Event Rev))
    (hrest : Rested s) (hrun : run (machine H).step s as = some t)
    (hstep : (machine H).step t a = some u) :
    (∀ n d, t.world.here.units.find n = some d → u.world.here.units.find n = some d ∨
      ∃ e, t.world.here.record.written = some e ∧ e.name ≠ n) ∧
    (a ≠ .start → ∀ e, t.world.here.record.written = some e →
      u.world.here.record.written = some e ∧ u.world.here.units.find e.name = some e) ∧
    (a ≠ .start → ∀ n d, t.world.here.units.find n = none →
      u.world.here.units.find n = some d → Complete t.world.here d ∧
        (StepsMeet (machine H).step marking.Meets s as → ∀ bs u',
          StepsMeet (machine H).step lasting.Meets u bs →
          run (machine H).step u bs = some u' → u'.world.here.units.find n = some d)) := by
  have hsound := (keepsUnder_moves H).run hrest.sound (stepsMeet_of_forall anyTerms_meets s as) hrun
  have hnext := ((keepsUnder_moves H).step t u a hsound (anyTerms_meets t a) hstep).1
  refine ⟨?_, ?_, ?_⟩
  · intro n d hfind
    by_cases ha : a = .start
    · subst ha
      rw [start_eq hstep]
      exact .inl (find_found hfind)
    · exact (moves_of_step hsound hstep ha).kept n d hfind
  · intro ha e he
    have hwrit := (moves_of_step hsound hstep ha).written e he
    exact ⟨hwrit, hnext.1.1 e hwrit⟩
  · intro ha n d hnone hsome
    rcases (moves_of_step hsound hstep ha).created n d hnone hsome with
      ⟨hcmp, hwrit, hgrd⟩
    refine ⟨hcmp, fun hmark bs u' hmeet hrun' => ?_⟩
    -- What was just published is on record, and lasts while it is.
    have hlasts : Lasts d u.world.here :=
      ⟨hgrd (unmarked_of_run hrest hmark hrun), .inr ⟨d, hwrit, rfl⟩⟩
    rcases (hlasts.run hnext hmeet hrun').1 with ⟨m, -, -, hfind⟩
    rw [← Table.key_of_find hsome]
    exact hfind

/-- A copy is put together, and all that is left is to give it its name. -/
def stagedRun : List (Action (Choice Nat) (Event Nat)) := [.start] ++ calls 14 1

instance (s : Container Nat) : Decidable (Rested s) :=
  decidable_of_iff (s.running.isNone = true ∧ s.world.here.record = {}) <| by
    rw [Option.isNone_iff_eq_none, Rested]

instance (w : World Rev) : Decidable (marking.start w) := .isTrue trivial

instance (op : Op Rev) (c : Choice Rev) (w : World Rev) : Decidable (marking.call op c w) :=
  inferInstanceAs (Decidable (op.writesMarker = true → c.granted = true))

instance (e : Event Rev) (w : World Rev) : Decidable (marking.event e w) := .isTrue trivial

/-- The directory that is published is complete and lasts. -/
theorem stagedRun_published :
    ∃ t u d, run (machine counting).step (behind 1) stagedRun = some t ∧
      (machine counting).step t (.advance (.done 1)) = some u ∧
      u.world.here.units.find ⟨some 0, 1⟩ = some d ∧ Complete t.world.here d ∧
      ∀ bs u', StepsMeet (machine counting).step lasting.Meets u bs →
        run (machine counting).step u bs = some u' →
        u'.world.here.units.find ⟨some 0, 1⟩ = some d := by
  have hpub : ((run (machine counting).step (behind 1) stagedRun).any fun t =>
      (t.world.here.units.find ⟨some 0, 1⟩).isNone &&
        ((machine counting).step t (.advance (.done 1))).any fun u =>
          (u.world.here.units.find ⟨some 0, 1⟩).isSome) = true := by decide +kernel
  rcases Option.any_eq_true .. |>.mp hpub with ⟨t, ht, hfind⟩
  rcases Bool.and_eq_true .. |>.mp hfind with ⟨hnone, haft⟩
  rcases Option.any_eq_true .. |>.mp haft with ⟨u, hu, hsome⟩
  rcases Option.isSome_iff_exists.mp hsome with ⟨d, hd⟩
  have hsurvive := copies_survive counting (behind 1) t u stagedRun (.advance (.done 1))
    (by decide +kernel) ht hu
  rcases hsurvive.2.2 nofun ⟨some 0, 1⟩ d (Option.isNone_iff_eq_none.mp hnone) hd with
    ⟨hcmp, hlasts⟩
  exact ⟨t, u, d, ht, hu, hd, hcmp, hlasts (by decide +kernel)⟩

/-- The marker can be written and read, and no start finds the database at the head of its
    image. -/
def beneath : Terms (Op Rev) (World Rev) (Choice Rev) (Event Rev) :=
  terms (fun v => ¬v.atHead = true)
    (fun op c _ => op.writesMarker = true ∨ op = .readMarker → c.granted = true) fun _ => True

instance (w : World Rev) : Decidable (beneath.start w) :=
  inferInstanceAs (Decidable (¬w.found.atHead = true))

instance (op : Op Rev) (c : Choice Rev) (w : World Rev) : Decidable (beneath.call op c w) :=
  inferInstanceAs (Decidable (op.writesMarker = true ∨ op = .readMarker → c.granted = true))

instance (e : Event Rev) (w : World Rev) : Decidable (beneath.event e w) := .isTrue trivial

def upgradedRun : List (Action (Choice Nat) (Event Nat)) :=
  [.start] ++ calls 19 1 ++ [.advance (.upgraded 1 false)] ++ calls 1 2

/-- Four directories are copied back, and the next image has a migration more. -/
def outrunRun : List (Action (Choice Nat) (Event Nat)) :=
  [11, 12, 13, 14].map (fun k => .event (.copyBack ⟨some 0, k⟩ { mtime := 100 })) ++
    [.event (.deploy ⟨some 2, true⟩), .start] ++ calls 21 3

/-- The copy that a marker names is removed though no start has found the database at the
    head of its image: the upgrade it guards is over, and the next one has begun. -/
theorem copy_evicted :
    Rested (behind 1) ∧
      StepsMeet (machine counting).step beneath.Meets (behind 1) (upgradedRun ++ outrunRun) ∧
      ((run (machine counting).step (behind 1) upgradedRun).any fun t =>
        decide (∃ d ∈ t.world.here.units.rows, d.name = ⟨some 0, 1⟩ ∧ d.archived = false) &&
          (run (machine counting).step t outrunRun).any fun u =>
            (u.world.here.units.find ⟨some 0, 1⟩).isNone) = true := by
  all_goals decide +kernel

end MigrationBackup

end PlexManager
