import PlexManager.Theory.MigrationBackup.Hook

/-!
# Clean copies

A copy is clean if nothing is in it of a migration beyond the revision it is named after.
The hook takes a database for clean when there is no evidence that it is not, and so a
copy is as clean as the evidence is good. Nothing else can spoil it: what is staged was
taken from the same database, and what is staged is what is published.

So copies are clean in every run in which the evidence is never missing. A migration that
is left half applied has to find a directory of the revision the database is then at, or
a marker that was meant for another head and names a directory that is there, and such a
marker has to be read, and is gone once an image starts at whose head the database is.
Neither is so by itself. A copy that could not be taken leaves no directory, and an image
that goes on beyond the head of the marker leaves the marker behind.

## Theorems

* `copies_clean`: Every run on them.
* `copies_spoilt`: A copy that could not be taken, and an image that goes on beyond the
  marker.
-/

namespace PlexManager

namespace MigrationBackup

open Effects KeyedTable Transition

variable {Rev : Type} [DecidableEq Rev] {H : History Rev} {v : Volume Rev} {db : Database Rev}

/-! ### Clean databases -/

/-- Nothing is in a database beyond a revision. -/
def History.Within (H : History Rev) (db : Database Rev) (r : Option Rev) : Prop :=
  ∀ p ∈ db.touched, p ∈ H.upTo r

instance (H : History Rev) (db : Database Rev) (r : Option Rev) : Decidable (H.Within db r) :=
  inferInstanceAs (Decidable (∀ p ∈ db.touched, _))

/-- The database in a directory is as its name says. -/
def Dir.Clean (H : History Rev) (d : Dir Rev) : Prop :=
  match d.contents.database with
  | some (.whole db) => H.Within db d.name.fromRev
  | some .cut | none => True

instance (H : History Rev) (d : Dir Rev) : Decidable (d.Clean H) := by
  unfold Dir.Clean
  split <;> infer_instance

/-- Something is in the database that is beyond its stamp. -/
def Volume.HalfMigrated (H : History Rev) (v : Volume Rev) : Prop :=
  ∃ db ∈ v.database, ¬H.Within db db.stamp

instance (H : History Rev) (v : Volume Rev) : Decidable (v.HalfMigrated H) := by
  unfold Volume.HalfMigrated
  infer_instance

omit [DecidableEq Rev] in
theorem not_halfMigrated
    (hdb : v.database = some db) (h : H.Within db db.stamp) : ¬v.HalfMigrated H := by
  rintro ⟨db', hdb', hnot⟩
  rw [hdb, Option.mem_some_iff] at hdb'
  exact hnot (hdb' ▸ h)

/-! ### What is done with copies -/

section Copies

variable {H : History Rev} {v v' : Volume Rev} {c : Choice Rev} {name : Name Rev} {dirs : Dirs Rev}
  {f : Contents Rev → Contents Rev} {db : Database Rev}

/-- Every copy is clean, whether it is published or not. -/
structure CleanCopies (H : History Rev) (v : Volume Rev) : Prop where
  units : ∀ d ∈ v.units.rows, d.Clean H
  staged : ∀ d ∈ v.staged.rows, d.Clean H

omit [DecidableEq Rev] in
theorem Dir.Clean.of_database {d : Dir Rev} (h : d.Clean H) {contents : Contents Rev}
    (hdb : contents.database = d.contents.database ∨ contents.database = none ∨
      contents.database = some .cut) : Dir.Clean H { d with contents := contents } := by
  unfold Dir.Clean at h ⊢
  rcases hdb with heq | heq | heq
  · change match contents.database with | some (.whole db) => _ | some .cut | none => True
    rw [heq]
    exact h
  · simp only [heq]
  · simp only [heq]

theorem clean_rewriteContents (h : ∀ d ∈ dirs.rows, d.Clean H)
    (hf : ∀ d ∈ dirs.rows, d.name = name → Dir.Clean H { d with contents := f d.contents }) :
    ∀ d ∈ (rewriteContents dirs name f).rows, d.Clean H := by
  intro d hd
  rcases Table.mem_modify hd with hold | ⟨d', hold, hname, rfl⟩
  · exact h d hold
  · exact hf d' hold hname

omit [DecidableEq Rev] in
theorem Contents.cut_database (contents : Contents Rev) (file : File) :
    (contents.cut file).database = contents.database ∨ (contents.cut file).database = none ∨
      (contents.cut file).database = some .cut := by
  cases file with
  | database => exact .inr (.inr rfl)
  | key | manifest => exact .inl rfl

omit [DecidableEq Rev] in
theorem Contents.without_database (contents : Contents Rev) (files : List File) :
    (contents.without files).database = contents.database ∨
      (contents.without files).database = none ∨
      (contents.without files).database = some .cut := by
  by_cases hmem : File.database ∈ files
  · exact .inr (.inl (if_pos hmem))
  · exact .inl (if_neg hmem)

theorem clean_removal (h : ∀ d ∈ dirs.rows, d.Clean H) (c : Choice Rev)
    (name : Name Rev) : ∀ d ∈ (removal dirs c name).2.rows, d.Clean H := by
  cases c with
  | done now => exact fun d hd => h d (Table.mem_erase hd)
  | fault files =>
    refine clean_rewriteContents h fun d hd _ => ?_
    exact (h d hd).of_database (Contents.without_database _ files)
  | order names | upgraded stamped half => exact h

theorem CleanCopies.write (h : CleanCopies H v) (c : Choice Rev) (file : File)
    (hf : ∀ d ∈ v.staged.rows, d.name = name → ∀ now,
      Dir.Clean H { d with contents := { f d.contents with mtime := now } }) :
    (v.write c name file f).2.database = v.database ∧
      CleanCopies H (v.write c name file f).2 := by
  cases c with
  | done now =>
    simp only [Volume.write]
    split
    · exact ⟨rfl, h.units, clean_rewriteContents h.staged fun d hd hname => hf d hd hname now⟩
    · exact ⟨rfl, h⟩
  | fault files =>
    simp only [Volume.write]
    split
    · refine ⟨rfl, h.units, clean_rewriteContents h.staged fun d hd _ => ?_⟩
      exact (h.staged d hd).of_database (Contents.cut_database _ file)
    · exact ⟨rfl, h⟩
  | order names | upgraded stamped half => exact ⟨rfl, h⟩

/-- What a hook may ask for once it has found a database clean. -/
def Copies (db : Database Rev) (op : Op Rev) : Prop :=
  op ≠ .upgrade ∧ ∀ name, op = .snapshot name → name.fromRev = db.stamp

theorem CleanCopies.exec {db : Database Rev} {op : Op Rev} {a : Ans op} (hop : Copies db op)
    (hdb : v.database = some db) (hcln : H.Within db db.stamp) (h : CleanCopies H v)
    (hexec : exec H op c v = some (a, v')) : v'.database = some db ∧ CleanCopies H v' := by
  have hsame : ∀ {v'' : Volume Rev}, v''.database = v.database → v''.units = v.units →
      v''.staged = v.staged → v''.database = some db ∧ CleanCopies H v'' := by
    intro v'' hdb' hunit hstg
    exact ⟨hdb'.trans hdb, hunit ▸ h.units, hstg ▸ h.staged⟩
  cases op with
  | upgrade => exact absurd rfl hop.1
  | snapshot name =>
    simp only [MigrationBackup.exec, hdb] at hexec
    obtain rfl := congrArg Prod.snd (Option.some.inj hexec)
    refine (h.write c .database ?_).imp_left fun heq => heq.trans hdb
    intro d _ hname now
    -- The copy is named after the stamp at which the database is clean.
    change H.Within db d.name.fromRev
    rw [hname, hop.2 name rfl]
    exact hcln
  | copyKey name =>
    simp only [MigrationBackup.exec] at hexec
    split at hexec
    · cases hexec
      exact hsame rfl rfl rfl
    · obtain rfl := congrArg Prod.snd (Option.some.inj hexec)
      refine (h.write c .key ?_).imp_left fun heq => heq.trans hdb
      exact fun d hd _ now => (h.staged d hd).of_database (.inl rfl)
  | writeManifest name manifest =>
    obtain rfl := congrArg Prod.snd (Option.some.inj hexec)
    refine (h.write c .manifest ?_).imp_left fun heq => heq.trans hdb
    exact fun d hd _ now => (h.staged d hd).of_database (.inl rfl)
  | mkdirStaging name =>
    simp only [MigrationBackup.exec] at hexec
    split at hexec
    · cases hexec
      refine ⟨hdb, h.units, ?_⟩
      intro d hd
      rcases Table.mem_insert hd with hold | rfl
      · exact h.staged d hold
      · trivial
    all_goals
      cases hexec
      exact hsame rfl rfl rfl
  | publish name =>
    simp only [MigrationBackup.exec] at hexec
    split at hexec
    · rename_i d hfind _
      split at hexec
      · cases hexec
        refine ⟨hdb, ?_, fun d' hd' => h.staged d' (Table.mem_erase hd')⟩
        intro d' hd'
        rcases Table.mem_insert hd' with hold | rfl
        · exact h.units d' hold
        -- What is published was as clean where it was staged.
        · exact h.staged d' (Table.find_eq_some.mp hfind).1
      · cases hexec
        exact hsame rfl rfl rfl
    all_goals
      cases hexec
      exact hsame rfl rfl rfl
  | removeStaged name =>
    cases hexec
    exact ⟨hdb, h.units, clean_removal h.staged c name⟩
  | removeUnit name =>
    cases hexec
    exact ⟨hdb, clean_removal h.units c name, h.staged⟩
  | now =>
    simp only [MigrationBackup.exec] at hexec
    split at hexec
    · cases hexec
      exact hsame rfl rfl rfl
    all_goals cases hexec
  | units | staged =>
    rcases Option.map_eq_some_iff.mp hexec with ⟨names, _, heq⟩
    cases heq
    exact hsame rfl rfl rfl
  | currentRevision =>
    simp only [MigrationBackup.exec, hdb] at hexec
    cases hexec
    exact hsame rfl rfl rfl
  | settings => cases hexec; exact hsame rfl rfl rfl
  | databaseExists => cases hexec; exact hsame rfl rfl rfl
  | scripts => cases hexec; exact hsame rfl rfl rfl
  | mtimes | isDir name | keyExists | chmodKey name => cases hexec; exact hsame rfl rfl rfl
  | readMarker | openMarker | fillMarker _ | unlinkMarker =>
    simp only [MigrationBackup.exec] at hexec
    split at hexec
    · cases hexec
      exact hsame rfl rfl rfl
    · cases hexec
      exact hsame rfl rfl rfl

omit [DecidableEq Rev] in
theorem asks_orRaise {P : Op Rev → Prop} {α : Type} {x : Hook Rev (Except Exc α)}
    (hx : Run.Asks P x) : Run.Asks P (do orRaise (← x)) :=
  hx.bind fun _ => Run.asks_ofExcept _

omit [DecidableEq Rev] in
theorem asks_writeMarker (db : Database Rev) (marker : UpgradeMarker Rev) :
    Run.Asks (Copies db) (writeMarker marker) := by
  refine Run.Asks.tryCatch ?_ fun e => ?_
  · refine (Run.asks_perform ⟨nofun, nofun⟩).bind fun _ => (Run.asks_ofExcept _).bind fun _ => ?_
    exact asks_orRaise (Run.asks_perform ⟨nofun, nofun⟩)
  · cases e with
    | os => exact Run.asks_pure _
    | sqlite => exact Run.asks_raise _

omit [DecidableEq Rev] in
theorem asks_copyKey (db : Database Rev) (settings : Settings) (name : Name Rev) :
    Run.Asks (Copies db) (copyKey settings name) := by
  refine Run.Asks.ite (Run.asks_pure _) ?_
  refine (Run.asks_perform ⟨nofun, nofun⟩).bind fun _ => Run.Asks.ite (Run.asks_pure _) ?_
  refine (Run.asks_perform ⟨nofun, nofun⟩).bind fun _ => (Run.asks_ofExcept _).bind fun _ => ?_
  refine (Run.asks_perform ⟨nofun, nofun⟩).bind fun _ => (Run.asks_ofExcept _).bind fun _ => ?_
  exact Run.asks_pure _

omit [DecidableEq Rev] in
theorem asks_stageOrRemove (settings : Settings) (hname : name.fromRev = db.stamp) :
    Run.Asks (Copies db) (stageOrRemove settings db.stamp name) := by
  have hsnap : Copies db (.snapshot name) := by
    refine ⟨nofun, fun name' heq => ?_⟩
    obtain rfl := Op.snapshot.inj heq
    exact hname
  have hstg : Run.Asks (Copies db) (stage settings db.stamp name) := by
    refine (Run.asks_perform hsnap).bind fun _ => (Run.asks_ofExcept _).bind fun _ => ?_
    refine (asks_copyKey db settings name).bind fun _ => ?_
    exact asks_orRaise (Run.asks_perform ⟨nofun, nofun⟩)
  refine hstg.attempt.bind fun r => ?_
  cases r with
  | ok u => exact Run.asks_pure _
  | error e =>
    exact (Run.asks_perform ⟨nofun, nofun⟩).discard.bind fun _ => Run.asks_raise _

theorem asks_prune (db : Database Rev) (keep : Nat) (name : Name Rev) :
    Run.Asks (Copies db) (prune keep name) := by
  refine (Run.asks_perform ⟨nofun, nofun⟩).bind fun _ => ?_
  refine (Run.Asks.forM fun _ _ => (Run.asks_perform ⟨nofun, nofun⟩).discard).bind fun _ => ?_
  refine (Run.asks_perform ⟨nofun, nofun⟩).bind fun _ => ?_
  refine (Run.asks_perform ⟨nofun, nofun⟩).bind fun _ => ?_
  refine (Run.asks_perform ⟨nofun, nofun⟩).bind fun _ => (Run.asks_ofExcept _).bind fun _ => ?_
  exact Run.Asks.forM fun _ _ => (Run.asks_perform ⟨nofun, nofun⟩).discard

theorem asks_backUp (settings : Settings) (head : Option (Head Rev))
    (hname : name.fromRev = db.stamp) :
    Run.Asks (Copies db) (backUp settings db.stamp head name) := by
  refine (Run.asks_perform ⟨nofun, nofun⟩).bind fun _ => (Run.asks_ofExcept _).bind fun _ => ?_
  refine (Run.asks_perform ⟨nofun, nofun⟩).bind fun _ => ?_
  refine (asks_writeMarker db _).bind fun _ => ?_
  refine (asks_stageOrRemove settings hname).bind fun _ => ?_
  refine (Run.asks_perform ⟨nofun, nofun⟩).bind fun _ => (Run.asks_ofExcept _).bind fun _ => ?_
  refine Run.Asks.ite (Run.asks_pure _) ?_
  exact (asks_prune db keepCount name).bind fun _ => Run.asks_pure _

end Copies

/-! ### The evidence -/

instance (v : Volume Rev) (db : Database Rev) : Decidable (v.Spent db) :=
  match h : v.marker with
  | .absent | .corrupt => .isTrue fun m hm => by
      rw [h] at hm
      exact nomatch hm
  | .holds m =>
      decidable_of_iff (v.marker.reached db = true ∨ v.units.find m.backup = none) <| by
        constructor
        · intro hspent m' hm'
          rw [h] at hm'
          obtain rfl := MarkerFile.holds.inj hm'
          exact hspent
        · exact fun hspent => hspent m h

/-- Something is in the database that is beyond its stamp, and neither a directory nor
    the marker says so. -/
def Volume.Exposed (H : History Rev) (v : Volume Rev) : Prop :=
  ∃ db ∈ v.database, ¬H.Within db db.stamp ∧ ¬v.Labelled db.stamp ∧ v.Spent db

instance (H : History Rev) (v : Volume Rev) : Decidable (v.Exposed H) := by
  unfold Volume.Exposed
  infer_instance

def Volume.migrated (H : History Rev) (v : Volume Rev) (c : Choice Rev) : Volume Rev :=
  match c with
  | .upgraded stamped half => v.upgrade H stamped half
  | .done _ | .fault _ | .order _ => v

/-- An image at whose head a database is that is half migrated does not start, unless a
    directory says what there is to say. -/
def Volume.Admits (H : History Rev) (v : Volume Rev) : Prop :=
  ∀ db ∈ v.database, ¬H.Within db db.stamp → v.atHead = true → v.Labelled db.stamp

instance (H : History Rev) (v : Volume Rev) : Decidable (v.Admits H) := by
  unfold Volume.Admits
  infer_instance

/-- The marker is read if a database is half migrated, and what the migrations leave half
    applied does not go unsaid. -/
def Volume.Tells (H : History Rev) (op : Op Rev) (c : Choice Rev) (v : Volume Rev) : Prop :=
  (op = .readMarker → v.HalfMigrated H → c.granted = true) ∧
    (op = .upgrade → ¬(v.migrated H c).Exposed H)

instance (H : History Rev) (op : Op Rev) (c : Choice Rev) (v : Volume Rev) :
    Decidable (v.Tells H op c) := by
  unfold Volume.Tells
  infer_instance

/-- An operator does not copy anything back. -/
def Event.IsOwn : Event Rev → Prop
  | .copyBack .. => False
  | .deploy _ | .configure _ | .setKey _ => True

instance (e : Event Rev) : Decidable e.IsOwn := by
  unfold Event.IsOwn
  split <;> infer_instance

/-- The terms on which a half migrated database is never taken for a clean one. -/
def evidence (H : History Rev) : Terms (Op Rev) (World Rev) (Choice Rev) (Event Rev) :=
  terms (Volume.Admits H) (fun op c v => v.Tells H op c) Event.IsOwn

/-- Copies are clean, and the evidence is there. -/
structure Sincere (H : History Rev) (v : Volume Rev) : Prop where
  copies : CleanCopies H v
  told : ¬v.Exposed H

/-- What the container keeps on these terms. -/
def cleanContract (H : History Rev) : Contract (World Rev) (Volume Rev) :=
  contract (Sincere H) (fun next => next.archives = []) fun _ _ => True

section Evidence

variable {H : History Rev} {v v' : Volume Rev} {db : Database Rev}

theorem not_exposed (hdb : v.database = some db) (h : H.Within db db.stamp) : ¬v.Exposed H := by
  rintro ⟨db', hdb', hnot, -⟩
  exact not_halfMigrated hdb h ⟨db', hdb', hnot⟩

-- What the hook may do before it takes a copy leaves the evidence.
theorem licence (hadmits : v.Admits H) :
    Licence (fun op c v => v.Tells H op c) (Sincere H) (fun _ _ => True) v where
  still _ := trivial
  misread h _ _ _ := ⟨trivial, ⟨h.copies.units, h.copies.staged⟩, h.told⟩
  spent h db hdb hsp := by
    refine ⟨trivial, ⟨h.copies.units, h.copies.staged⟩, ?_⟩
    rintro ⟨db', hdb', hnot, hlab, -⟩
    have heq : db' = db := Option.some.inj (hdb'.symm.trans hdb)
    exact h.told ⟨db', hdb', hnot, hlab, heq ▸ hsp⟩
  atHead h hhead := by
    refine ⟨trivial, ⟨h.copies.units, h.copies.staged⟩, ?_⟩
    rintro ⟨db', hdb', hnot, hlab, -⟩
    exact hlab (hadmits db' hdb' hnot hhead)

theorem within_of_unguarded (h : Sincere H v) (hdb : v.database = some db)
    (hlab : ¬v.Labelled db.stamp)
    (hgo : Unguarded (fun op c v => v.Tells H op c) v db v') : H.Within db db.stamp := by
  by_contra hnot
  have hgrd : ¬v.Spent db := fun hsp => h.told ⟨db, hdb, hnot, hlab, hsp⟩
  cases hgo with
  | misread c hc hterm =>
    have hread := hterm.1 rfl ⟨db, hdb, hnot⟩
    rw [hc] at hread
    exact nomatch hread
  | kept hsp | cleared hsp => exact hgrd hsp

end Evidence

theorem Sincere.boot {w : World Rev} (h : Sincere H w.here)
    (hnext : w.next.archives = []) : Sincere H w.boot.here := by
  have hunit : w.boot.here.units = w.here.units := by
    change w.found.units = _
    simp only [World.found, hnext, List.foldl_nil]
  refine ⟨⟨hunit ▸ h.copies.units, h.copies.staged⟩, ?_⟩
  rintro ⟨db, hdb, hnot, hlab, hsp⟩
  refine h.told ⟨db, hdb, hnot, ?_, ?_⟩
  · rw [Volume.Labelled, hunit] at hlab
    exact hlab
  · intro m hm
    have hnone := hsp m hm
    rw [hunit] at hnone
    exact hnone

theorem Sincere.upgrade {v' : Volume Rev} {c : Choice Rev} (h : Sincere H v)
    (hterm : v.Tells H .upgrade c) (hexec : exec H .upgrade c v = some ((), v')) :
    Sincere H v' := by
  have hmigrated : v' = v.migrated H c := by
    cases c <;> exact (congrArg Prod.snd (Option.some.inj hexec)).symm
  have hfix : v'.units = v.units ∧ v'.staged = v.staged := by
    rw [hmigrated]
    cases c with
    | upgraded stamped half =>
      exact ⟨(upgrade_fixed H v stamped half).1, (upgrade_fixed H v stamped half).2.1⟩
    | done now | fault files | order names => exact ⟨rfl, rfl⟩
  refine ⟨⟨hfix.1 ▸ h.copies.units, hfix.2 ▸ h.copies.staged⟩, ?_⟩
  rw [hmigrated]
  exact hterm.2 rfl

theorem spec_backUp_clean
    (hdb : v.database = some db) (hcln : H.Within db db.stamp) (settings : Settings)
    (head : Option (Head Rev)) {name : Name Rev} (hname : name.fromRev = db.stamp) :
    Spec ((machine H).under (evidence H)) (cleanContract H) () v
      (backUp settings db.stamp head name) Anyhow Anyhow := by
  have hkeep : Spec ((machine H).under (evidence H)) (cleanContract H) () v
      (backUp settings db.stamp head name) (fun _ _ v => v.database = some db)
      fun _ _ v => v.database = some db := by
    refine .of_asks (asks_backUp settings head hname) hdb ?_
    rintro op hop w c a w' ⟨hinv, hnext⟩ hdb hexec
    rcases Option.map_eq_some_iff.mp (Machine.under_exec hexec).2 with ⟨⟨a', v'⟩, hstep, heq⟩
    cases heq
    rcases hinv.copies.exec hop hdb hcln hstep with ⟨hdb', hcopy⟩
    exact ⟨trivial, ⟨⟨hcopy, not_exposed hdb' hcln⟩, hnext⟩, hdb'⟩
  exact hkeep.mono (fun _ _ _ _ => trivial) fun _ _ _ _ => trivial

theorem keepsUnder_clean (H : History Rev) :
    KeepsUnder (machine H) (evidence H) (cleanContract H) where
  main w := by
    rintro ⟨hinv, hnext⟩ hadmits
    have hboot := hinv.boot hnext
    refine safe_entrypoint ?_ ?_
    · refine spec_createPreMigrationBackup (licence hadmits) ?_
      intro db name v' hdb hname hlab _ hgo
      have hcln := within_of_unguarded hboot hdb hlab hgo
      exact spec_backUp_clean (hgo.database.trans hdb) hcln _ _ hname
    · intro v c v' hinv hterm hexec
      exact ⟨trivial, hinv.upgrade hterm hexec⟩
  boot w := by
    rintro ⟨hinv, hnext⟩ _
    exact ⟨hinv.boot hnext, rfl⟩
  event e w w' := by
    rintro ⟨hinv, hnext⟩ hown hev
    cases hev
    refine ⟨⟨hinv, ?_⟩, rfl⟩
    cases e with
    | copyBack name contents => exact hown.elim
    | deploy image | configure settings | setKey key => exact hnext
  stutter _ := trivial

/-- No container runs, the database is clean or not there, and so is every copy. -/
def Fresh (H : History Rev) (s : Container Rev) : Prop :=
  s.running = none ∧ (∀ db ∈ s.world.here.database, H.Within db db.stamp) ∧
    CleanCopies H s.world.here ∧ s.world.next.archives = []

/-- In every run of starts, crashes and new images in which the evidence is never missing,
    every copy that is published is clean. -/
theorem copies_clean (H : History Rev) (s t : Container Rev)
    (as : List (Action (Choice Rev) (Event Rev))) (hfresh : Fresh H s)
    (hmeet : StepsMeet (machine H).step (evidence H).Meets s as)
    (hrun : run (machine H).step s as = some t) : ∀ d ∈ t.world.here.units.rows, d.Clean H := by
  rcases hfresh with ⟨hrest, hdb, hcopy, hnext⟩
  have htold : ¬s.world.here.Exposed H := by
    rintro ⟨db, hmem, hnot, -⟩
    exact hnot (hdb db hmem)
  have hsound : Sound ((machine H).under (evidence H)) (cleanContract H) s :=
    .of_rest ⟨⟨hcopy, htold⟩, hnext⟩ hrest
  exact ((keepsUnder_clean H).run hsound hmeet hrun).1.1.copies.units

instance (H : History Rev) (w : World Rev) : Decidable ((evidence H).start w) :=
  inferInstanceAs (Decidable (w.found.Admits H))

instance (H : History Rev) (op : Op Rev) (c : Choice Rev) (w : World Rev) :
    Decidable ((evidence H).call op c w) := inferInstanceAs (Decidable (w.here.Tells H op c))

instance (H : History Rev) (e : Event Rev) (w : World Rev) : Decidable ((evidence H).event e w) :=
  inferInstanceAs (Decidable e.IsOwn)

instance (H : History Rev) (s : Container Rev) : Decidable (Fresh H s) :=
  decidable_of_iff (s.running.isNone = true ∧
      (∀ db ∈ s.world.here.database, H.Within db db.stamp) ∧
      ((∀ d ∈ s.world.here.units.rows, d.Clean H) ∧ ∀ d ∈ s.world.here.staged.rows, d.Clean H) ∧
      s.world.next.archives = []) <| by
    rw [Option.isNone_iff_eq_none, Fresh]
    exact and_congr_right fun _ => and_congr_right fun _ => and_congr_left fun _ =>
      ⟨fun h => ⟨h.1, h.2⟩, fun h => ⟨h.units, h.staged⟩⟩

/-! ### Runs -/

/-- Migrations that are numbered in their order. -/
def counting : History Nat where
  lineage r := List.range (r + 1)
  ends r := ⟨List.range r, List.range_succ⟩
  closed r p hp := by
    have hle : p + 1 ≤ r + 1 := by
      have := List.mem_range.mp hp
      omega
    rw [List.prefix_iff_eq_take, List.length_range, List.take_range, Nat.min_eq_left hle]
  nodup r := List.nodup_range

/-- The first migration is applied, and an image is there that has some more. -/
def behind (head : Nat) : Container Nat where
  world := {
    here := {
      database := some ⟨some 0, [0]⟩
      keyFile := none
      units := Table.empty
      staged := Table.empty
      marker := .absent
      image := ⟨some 0, true⟩
      settings := {}
      record := {} }
    next := { image := ⟨some head, true⟩, settings := {}, keyFile := none } }
  running := none

def calls (n : Nat) (now : Int) : List (Action (Choice Nat) (Event Nat)) :=
  List.replicate n (.advance (.done now))

/-- A copy is taken, the migration fails, and it is run again to its end. -/
def retriedRun : List (Action (Choice Nat) (Event Nat)) :=
  [.start] ++ calls 19 1 ++ [.advance (.upgraded 0 true)] ++ calls 1 2 ++
    [.start] ++ calls 6 3 ++ [.advance (.upgraded 1 false)] ++ calls 1 4

theorem retriedRun_clean : ∃ t, run (machine counting).step (behind 1) retriedRun = some t ∧
    t.world.here.units.rows.length = 1 ∧ ∀ d ∈ t.world.here.units.rows, d.Clean counting := by
  refine exists_run_and (by decide +kernel) fun t ht _ => ?_
  exact copies_clean counting (behind 1) t retriedRun (by decide +kernel) (by decide +kernel) ht

/-- The marker can be written, and an operator does not copy anything back. -/
def unattended : Terms (Op Rev) (World Rev) (Choice Rev) (Event Rev) :=
  terms (fun _ => True) (fun op c _ => op.writesMarker = true → c.granted = true) Event.IsOwn

instance (w : World Rev) :
    Decidable ((unattended : Terms (Op Rev) (World Rev) (Choice Rev) (Event Rev)).start w) :=
  .isTrue trivial

instance (op : Op Rev) (c : Choice Rev) (w : World Rev) :
    Decidable ((unattended : Terms (Op Rev) (World Rev) (Choice Rev) (Event Rev)).call op c w) :=
  inferInstanceAs (Decidable (op.writesMarker = true → c.granted = true))

instance (e : Event Rev) (w : World Rev) :
    Decidable ((unattended : Terms (Op Rev) (World Rev) (Choice Rev) (Event Rev)).event e w) :=
  inferInstanceAs (Decidable e.IsOwn)

/-- A run in which nobody does anything by hand ends with a copy that is not clean. -/
def Spoils (s : Container Nat) (as : List (Action (Choice Nat) (Event Nat))) : Prop :=
  Fresh counting s ∧ StepsMeet (machine counting).step unattended.Meets s as ∧
    ((run (machine counting).step s as).any fun t =>
      t.world.here.units.rows.any fun d => ¬d.Clean counting) = true

/-- The directory of the first copy cannot be made, the migration fails, and the next
    start takes a copy of what it has left. -/
def refusedRun : List (Action (Choice Nat) (Event Nat)) :=
  [.start] ++ calls 7 1 ++ [.advance (.fault []), .advance (.upgraded 0 true)] ++ calls 1 2 ++
    [.start] ++ calls 15 3

/-- A migration fails, the next image goes on beyond it and fails at its own, and takes a
    copy at the head of the first image. -/
def overtakenRun : List (Action (Choice Nat) (Event Nat)) :=
  [.start] ++ calls 19 1 ++ [.advance (.upgraded 0 true)] ++ calls 1 2 ++
    [.event (.deploy ⟨some 2, true⟩), .start] ++ calls 6 3 ++ [.advance (.upgraded 1 true)] ++
    calls 1 4 ++ [.start] ++ calls 16 5

theorem copies_spoilt : Spoils (behind 1) refusedRun ∧ Spoils (behind 1) overtakenRun := by
  refine ⟨⟨?_, ?_, ?_⟩, ?_, ?_, ?_⟩
  all_goals decide +kernel

end MigrationBackup

end PlexManager
