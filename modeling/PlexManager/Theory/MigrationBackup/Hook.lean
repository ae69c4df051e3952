import PlexManager.Core.MigrationBackup

/-!
# What the hook decides

Until it takes a copy the hook only reads, and the one thing it may change on the way is
that the marker goes. So all there is to say about this part is on which evidence it gets
as far as a copy: nothing is published under the revision the database is at, and the
marker cannot be read, or has been reached, or names a directory that is not there. This
is said once for any contract on the volume, and whoever has a contract to show is left
with the marker and with the copy itself.
-/

namespace PlexManager

namespace MigrationBackup

open Effects KeyedTable

variable {Rev : Type} [DecidableEq Rev]

/-! ### Contracts on the volume -/

def contract (I : Volume Rev → Prop) (N : Next Rev → Prop)
    (G : Volume Rev → Volume Rev → Prop) : Contract (World Rev) (Volume Rev) where
  view := World.here
  Inv w := I w.here ∧ N w.next
  Guarantee := G

/-- Terms on what the next start finds, on the calls and on the operator. -/
def terms (S : Volume Rev → Prop) (K : Op Rev → Choice Rev → Volume Rev → Prop)
    (O : Event Rev → Prop) : Terms (Op Rev) (World Rev) (Choice Rev) (Event Rev) where
  start w := S w.found
  call op c w := K op c w.here
  event e _ := O e

section Rules

variable {H : History Rev} {S : Volume Rev → Prop} {K : Op Rev → Choice Rev → Volume Rev → Prop}
  {O : Event Rev → Prop} {I : Volume Rev → Prop} {N : Next Rev → Prop}
  {G : Volume Rev → Volume Rev → Prop} {v : Volume Rev} {E : Exc → Unit → Volume Rev → Prop}
  {names : List (Name Rev)}

theorem spec_call {op : Op Rev} {Q : Ans op → Unit → Volume Rev → Prop}
    (h : ∀ c a v', I v → K op c v → exec H op c v = some (a, v') → G v v' ∧ I v' ∧ Q a () v') :
    Spec ((machine H).under (terms S K O)) (contract I N G) () v
      (Run.perform op : Run (Op Rev) Ans Exc Unit (Ans op)) Q E := by
  refine .perform ?_
  rintro w c a w' ⟨hinv, hnext⟩ rfl hunder
  rcases Machine.under_exec hunder with ⟨hterm, hmach⟩
  simp only [machine, Option.map_eq_some_iff, Prod.mk.injEq] at hmach
  rcases hmach with ⟨⟨a', v'⟩, hexec, rfl, rfl⟩
  rcases h c a' v' hinv hterm hexec with ⟨hmove, hinv', hQ⟩
  exact ⟨hmove, ⟨hinv', hnext⟩, hQ⟩

theorem spec_still (hstill : ∀ v, G v v) {op : Op Rev} {Q : Ans op → Unit → Volume Rev → Prop}
    (h : ∀ c a v', K op c v → exec H op c v = some (a, v') → v' = v ∧ Q a () v) :
    Spec ((machine H).under (terms S K O)) (contract I N G) () v
      (Run.perform op : Run (Op Rev) Ans Exc Unit (Ans op)) Q E := by
  refine spec_call ?_
  intro c a v' hinv hterm hexec
  rcases h c a v' hterm hexec with ⟨rfl, hQ⟩
  exact ⟨hstill v', hinv, hQ⟩

theorem spec_orRaise {α : Type} {r : Except Exc α} {Q : α → Unit → Volume Rev → Prop}
    (hok : ∀ a, r = .ok a → Q a () v) (herr : ∀ e, r = .error e → E e () v) :
    Spec ((machine H).under (terms S K O)) (contract I N G) () v
      (orRaise r : Hook Rev α) Q E := .ofExcept hok herr

/-! ### Listings -/

theorem listing_eq_some {dirs : Dirs Rev} {c : Choice Rev}
    (h : listing dirs c = some names) : names.Perm (dirs.rows.map Dir.name) := by
  unfold listing at h
  split at h
  · split at h
    · cases h
      assumption
    · exact nomatch h
  all_goals
    cases h
    exact List.Perm.refl _

/-- A directory of this revision is published. -/
def Volume.Labelled (v : Volume Rev) (r : Option Rev) : Prop :=
  ∃ d ∈ v.units.rows, d.name.fromRev = r

instance (v : Volume Rev) (r : Option Rev) : Decidable (v.Labelled r) :=
  inferInstanceAs (Decidable (∃ d ∈ v.units.rows, _))

theorem any_fromRev {c : Choice Rev} (r : Option Rev) (h : listing v.units c = some names) :
    (names.any fun name => name.fromRev = r) = true ↔ v.Labelled r := by
  have hperm := listing_eq_some h
  simp only [List.any_eq_true, decide_eq_true_eq, Volume.Labelled, hperm.mem_iff, List.mem_map]
  constructor
  · rintro ⟨_, ⟨d, hd, rfl⟩, hr⟩
    exact ⟨d, hd, hr⟩
  · rintro ⟨d, hd, hr⟩
    exact ⟨d.name, ⟨d, hd, rfl⟩, hr⟩

theorem find_none_of_not_labelled {name : Name Rev}
    (h : ¬v.Labelled name.fromRev) : v.units.find name = none := by
  refine Table.find_eq_none.mpr ?_
  rintro d hd rfl
  exact h ⟨d, hd, rfl⟩

/-! ### The marker -/

def Op.writesMarker : Op Rev → Bool
  | .openMarker | .fillMarker _ => true
  | _ => false

/-- The marker could not be read. -/
def Volume.misread (v : Volume Rev) : Volume Rev :=
  { v with record := { v.record with misread := true } }

def Volume.unmark (v : Volume Rev) : Volume Rev := { v with marker := .absent }

/-- The marker names nothing that is still needed. -/
def Volume.Spent (v : Volume Rev) (db : Database Rev) : Prop :=
  ∀ m, v.marker = .holds m → v.marker.reached db = true ∨ v.units.find m.backup = none

/-- What the hook has left of the volume when it goes on past the marker. -/
inductive Unguarded (K : Op Rev → Choice Rev → Volume Rev → Prop) (v : Volume Rev)
    (db : Database Rev) : Volume Rev → Prop where
  | misread (c : Choice Rev) (hc : c.granted = false) (hterm : K .readMarker c v) :
      Unguarded K v db v.misread
  | kept (h : v.Spent db) : Unguarded K v db v
  | cleared (h : v.Spent db) : Unguarded K v db v.unmark

/-- What a contract has to allow, so that the hook may get as far as a copy: to do
    nothing, to find the marker broken, and to clear it when it is spent or the database
    is at the head of the image. -/
structure Licence (K : Op Rev → Choice Rev → Volume Rev → Prop) (I : Volume Rev → Prop)
    (G : Volume Rev → Volume Rev → Prop) (v : Volume Rev) : Prop where
  still : ∀ v, G v v
  misread : I v → ∀ c, c.granted = false → K .readMarker c v → G v v.misread ∧ I v.misread
  spent : I v → ∀ db, v.database = some db → v.Spent db → G v v.unmark ∧ I v.unmark
  atHead : I v → v.atHead = true → G v v.unmark ∧ I v.unmark

theorem spec_clearMarker (hstill : ∀ v, G v v) {Q : Unit → Unit → Volume Rev → Prop}
    (hclr : I v → G v v.unmark ∧ I v.unmark) (hkept : Q () () v) (hgone : Q () () v.unmark) :
    Spec ((machine H).under (terms S K O)) (contract I N G) () v clearMarker Q E := by
  have hunlink : Spec ((machine H).under (terms S K O)) (contract I N G) () v
      (do orRaise (← Os.unlinkMarker)) Q fun e _ v' => e = .os ∧ v' = v := by
    refine .next (spec_call ?_)
    intro c a v' hinv _ hexec
    simp only [exec] at hexec
    split at hexec
    · cases hexec
      exact ⟨(hclr hinv).1, (hclr hinv).2, hgone⟩
    · cases hexec
      exact ⟨hstill v, hinv, rfl, rfl⟩
  refine .tryCatch hunlink ?_
  rintro e ⟨⟩ v' ⟨rfl, rfl⟩
  exact hkept

theorem spec_upgradeInFlight (hL : Licence K I G v) {db : Database Rev}
    (hdb : v.database = some db) {Q : Bool → Unit → Volume Rev → Prop} (hgrd : Q true () v)
    (hgo : ∀ v', Unguarded K v db v' → Q false () v') :
    Spec ((machine H).under (terms S K O)) (contract I N G) () v (upgradeInFlight db.stamp)
      Q E := by
  refine .next (.next (spec_call ?_))
  intro c a v' hinv hterm hexec
  simp only [exec] at hexec
  by_cases hc : c.granted = true
  · rw [if_pos hc] at hexec
    cases hexec
    refine ⟨hL.still v, hinv, ?_⟩
    cases hmark : v.marker with
    | absent | corrupt => exact hgo v (.kept fun m hm => by rw [hmark] at hm; exact nomatch hm)
    | holds marker =>
      change Spec _ _ () v (if _ then _ else _) _ _
      have hsp : (v.marker.reached db = true ∨ v.units.find marker.backup = none) →
          v.Spent db := by
        intro h m hm
        rw [hmark] at hm
        obtain rfl := MarkerFile.holds.inj hm
        exact h
      by_cases hreach : some marker.head = db.stamp.map Head.revision
      · rw [if_pos hreach]
        have h : v.Spent db := by
          refine hsp (.inl ?_)
          rw [hmark]
          exact decide_eq_true hreach
        exact .next (spec_clearMarker hL.still (fun hinv => hL.spent hinv db hdb h)
          (hgo v (.kept h)) (hgo _ (.cleared h)))
      · rw [if_neg hreach]
        refine .next (spec_still hL.still ?_)
        rintro c a v' _ hexec
        cases hexec
        refine ⟨rfl, ?_⟩
        cases hfind : v.units.find marker.backup with
        | some d => exact hgrd
        | none =>
          have h : v.Spent db := hsp (.inr hfind)
          exact .next (spec_clearMarker hL.still (fun hinv => hL.spent hinv db hdb h)
            (hgo v (.kept h)) (hgo _ (.cleared h)))
  · rw [if_neg hc] at hexec
    cases hexec
    have hc : c.granted = false := by simpa using hc
    have hmis := hL.misread hinv c hc hterm
    exact ⟨hmis.1, hmis.2, hgo _ (.misread c hc hterm)⟩

abbrev Anyhow {α : Type} : α → Unit → Volume Rev → Prop := fun _ _ _ => True

theorem spec_createPreMigrationBackup (hL : Licence K I G v)
    (hback : ∀ db name v', v.database = some db → name.fromRev = db.stamp →
      ¬v.Labelled db.stamp → v.atHead = false → Unguarded K v db v' →
      Spec ((machine H).under (terms S K O)) (contract I N G) () v'
        (backUp v.settings db.stamp v.image.headRevision name) Anyhow Anyhow) :
    Spec ((machine H).under (terms S K O)) (contract I N G) () v (createPreMigrationBackup H)
      Anyhow Anyhow := by
  refine .next (spec_still hL.still ?_)
  rintro c a v' _ hexec
  cases hexec
  refine ⟨rfl, ?_⟩
  by_cases hfile : (!v.settings.sqliteFile) = true
  · rw [if_pos hfile]
    trivial
  rw [if_neg hfile]
  refine .next (spec_still hL.still ?_)
  rintro c a v' _ hexec
  cases hexec
  refine ⟨rfl, ?_⟩
  cases hdb : v.database with
  | none => trivial
  | some db =>
    refine .next (spec_still hL.still ?_)
    rintro c a v' _ hexec
    simp only [exec, hdb, Option.some.injEq, Prod.mk.injEq] at hexec
    rcases hexec with ⟨rfl, rfl⟩
    refine ⟨rfl, .next (spec_orRaise ?_ fun _ _ => trivial)⟩
    intro current hcur
    have hstm : current = db.stamp := by
      change (if c.granted = true then .ok db.stamp else .error Exc.sqlite) =
        Except.ok current at hcur
      by_cases hc : c.granted = true
      · rw [if_pos hc] at hcur
        exact (Except.ok.inj hcur).symm
      · rw [if_neg hc] at hcur
        exact nomatch hcur
    subst hstm
    refine Spec.next (spec_still hL.still ?_)
    rintro c a v' _ hexec
    cases hexec
    refine ⟨rfl, ?_⟩
    have hany : v.atHead = decide (v.image.headRevision = db.stamp.map Head.revision) := by
      rw [Volume.atHead, hdb]
      rfl
    by_cases hhead : v.image.headRevision = db.stamp.map Head.revision
    · rw [if_pos hhead]
      have hatHead : v.atHead = true := by rw [hany, decide_eq_true hhead]
      exact Spec.next (spec_clearMarker hL.still (fun hinv => hL.atHead hinv hatHead)
        trivial trivial)
    rw [if_neg hhead]
    by_cases hforeign : foreign H v.image db.stamp = true
    · rw [if_pos hforeign]
      trivial
    rw [if_neg hforeign]
    refine Spec.next (spec_still hL.still ?_)
    rintro c timestamp v' _ hexec
    simp only [exec] at hexec
    split at hexec
    · cases hexec
      refine ⟨rfl, Spec.next (spec_still hL.still ?_)⟩
      rintro c names v' _ hexec
      rcases Option.map_eq_some_iff.mp hexec with ⟨names, hname, heq⟩
      cases heq
      refine ⟨rfl, ?_⟩
      have hlabel := any_fromRev db.stamp hname
      by_cases hlab : v.Labelled db.stamp
      · rw [if_pos (hlabel.mpr hlab)]
        trivial
      rw [if_neg fun h => hlab (hlabel.mp h)]
      refine Spec.next (spec_upgradeInFlight hL hdb trivial ?_)
      intro v' hgo
      have hnot : v.atHead = false := by rw [hany, decide_eq_false hhead]
      exact hback db ⟨db.stamp, _⟩ v' hdb rfl hlab hnot hgo
    all_goals exact nomatch hexec

theorem safe_entrypoint (hcre : Spec ((machine H).under (terms S K O)) (contract I N G) () v
      (createPreMigrationBackup H) Anyhow Anyhow)
    (hupgrade : ∀ v c v', I v → K .upgrade c v → exec H .upgrade c v = some ((), v') →
      G v v' ∧ I v') :
    Safe ((machine H).under (terms S K O)) (contract I N G) (fun _ _ => True) (entrypoint H) v := by
  have hmain : Spec ((machine H).under (terms S K O)) (contract I N G) () v (main H)
      Anyhow Anyhow :=
    .tryCatch (.discard hcre) fun _ _ _ _ => trivial
  refine Safe.bind _ _ _ hmain ?_
  rintro ⟨r, ⟨⟩⟩ v' -
  cases r with
  | error e => trivial
  | ok u =>
    have hlast : Spec ((machine H).under (terms S K O)) (contract I N G) () v'
        (.perform Op.upgrade : Hook Rev Unit) Anyhow Anyhow := by
      refine spec_call ?_
      intro c a v'' hinv hterm hexec
      rcases hupgrade v' c v'' hinv hterm hexec with ⟨hmove, hinv'⟩
      exact ⟨hmove, hinv', trivial⟩
    intro w hinv hview c a w' hexec
    rcases hlast w hinv hview c a w' hexec with ⟨hmove, hinv', -⟩
    exact ⟨hmove, hinv', trivial⟩

end Rules

theorem Unguarded.database {K : Op Rev → Choice Rev → Volume Rev → Prop} {v v' : Volume Rev}
    {db : Database Rev} (hgo : Unguarded K v db v') : v'.database = v.database := by
  cases hgo with
  | misread c hc hterm | kept h | cleared h => rfl

theorem upgrade_fixed (H : History Rev) (v : Volume Rev) (stamped : Nat) (half : Bool) :
    (v.upgrade H stamped half).units = v.units ∧ (v.upgrade H stamped half).staged = v.staged ∧
      (v.upgrade H stamped half).marker = v.marker ∧
      (v.upgrade H stamped half).record = v.record := by
  unfold Volume.upgrade
  split
  · dsimp only
    split
    · exact ⟨rfl, rfl, rfl, rfl⟩
    · exact ⟨rfl, rfl, rfl, rfl⟩
  · exact ⟨rfl, rfl, rfl, rfl⟩

end MigrationBackup

end PlexManager
