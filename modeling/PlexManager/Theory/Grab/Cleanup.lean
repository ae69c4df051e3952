import PlexManager.Lib.Transition
import PlexManager.Theory.Grab.Discipline

/-!
# The cleanup of a losing grab

A grab that loses removes the torrent it has added, and by then another grab may
track it. Only the path behind the reservation looks again. What a grab relies
on there is that the row it has found finished stays so: a reuse is refused
while the removal is registered, and the one other way to a tracked torrent, a
new row, needs that there is none.

The other branches look at nothing. They are harmless as long as no commit has
brought the torrent to be tracked since the grab last touched its row and found
it untracked.

## Theorems

* `cleanup_spares_tracked`: A cleanup removes no torrent that is tracked.
* `reuse_behind_guard`: A reuse comes right behind its guard.
-/

namespace PlexManager

namespace Grab

open Effects Interleaving KeyedTable Transition

/-! ### Phases -/

def Op.clears (torrentHash : String) : (op : Op) → Ans op → Bool
  | .removalInFlight other, inFlight => other = torrentHash && !inFlight
  | _, _ => false

section After

variable {op : Op} {answer : Ans op} {outside : Bool} {phase : Phase} {k : String}

theorem after_reserved (h : phase.after op answer outside = .reserved k) :
    phase = .reserved k ∨ op = .registerRemoval k := by
  unfold Phase.after at h
  split at h
  · cases h
  · split at h <;> cases h
  · split at h
    · split at h <;> cases h
    · split at h <;> cases h
    · cases h
      exact .inr rfl
    · cases h
    · split at h
      · split at h
        · cases h
        exact .inl h
      · cases h
      · cases h

theorem after_settled (h : phase.after op answer outside = .settled k) :
    phase = .settled k ∨
      (phase = .reserved k ∧ outside = true ∧ op.findsFinished k answer = true) := by
  unfold Phase.after at h
  split at h
  · cases h
  · split at h <;> cases h
  · split at h
    · split at h <;> cases h
    · split at h <;> cases h
    · cases h
    · cases h
    · split at h
      · split at h
        · rename_i hfind
          cases h
          exact .inr ⟨rfl, Bool.and_eq_true_iff.mp hfind⟩
        · cases h
      · exact .inl h
      · cases h

theorem after_poised (h : phase.after op answer outside = .poised k) :
    op.clears k answer = true := by
  unfold Phase.after at h
  split at h
  · cases h
  · split at h <;> cases h
  · split at h
    · split at h <;> cases h
    · split at h
      · cases h
      rename_i hclr
      cases h
      simpa [Op.clears] using hclr
    · cases h
    · cases h
    · split at h
      · split at h <;> cases h
      · cases h
      · cases h

theorem after_reviving (h : phase.after op answer outside = .reviving k) :
    phase = .reviving k ∨ phase = .poised k := by
  unfold Phase.after at h
  split at h
  · cases h
  · split at h
    · cases h
    · cases h
    · cases h
    · exact .inl h
  · split at h
    · split at h
      · rename_i hpoised
        cases h
        exact .inr hpoised
      · cases h
    · split at h <;> cases h
    · cases h
    · cases h
    · split at h
      · split at h <;> cases h
      · cases h
      · cases h

theorem reviving_after (hph : phase = .reviving k)
    (hgrd : phase.after op answer outside ≠ .unguarded) (hcom : op ≠ .commit)
    (hroll : op ≠ .rollback) : phase.after op answer outside = .reviving k := by
  subst hph
  cases op with
  | commit => exact absurd rfl hcom
  | rollback => exact absurd rfl hroll
  | reuse g => exact absurd rfl hgrd
  | _ => rfl

theorem after_reuse {g : Grabbed} {answer : Ans (.reuse g)}
    (hgrd : phase.after (.reuse g) answer outside ≠ .unguarded) :
    phase.after (.reuse g) answer outside = .reviving g.torrentHash := by
  cases phase with
  | unguarded | reviving k => exact absurd rfl hgrd
  | free | poised k | reserved k | settled k =>
    simp only [Phase.after] at hgrd ⊢
    split
    · rfl
    · rename_i hnot
      simp only [if_neg hnot] at hgrd
      exact absurd rfl hgrd

theorem not_registered_after_release {answer : Ans (.releaseRemoval k)} (other : String) :
    phase.after (.releaseRemoval k) answer outside ≠ .reserved other ∧
      phase.after (.releaseRemoval k) answer outside ≠ .settled other := by
  cases phase <;> exact ⟨Phase.noConfusion, Phase.noConfusion⟩

end After

/-! ### Looks -/

variable {s s' : Shared} {v v' : Session} {titles : Titles} {c : Choice} {db : Database} {w : World}

variable {op : Op} {answer : Ans op}

theorem finds_of_carryOut {k : String} (h : v.carryOut titles c s op = some (answer, s', v'))
    (hfind : op.findsFinished k answer = true) :
    ((v.view s).getByHash k).isSome = true ∧ ¬(v.view s).Tracked k := by
  have hlook : ∀ row : Option Download, (v.view s).getByHash k = row →
      (row.any fun d => !d.active) = true →
      ((v.view s).getByHash k).isSome = true ∧ ¬(v.view s).Tracked k := by
    intro row hrow hany
    cases row with
    | none => cases hany
    | some d =>
      refine ⟨by rw [hrow]; rfl, ?_⟩
      rintro ⟨e, he, hact⟩
      rw [hrow, Option.some.injEq] at he
      subst he
      simp [hact] at hany
  cases op with
  | getByHash other =>
    simp only [Op.findsFinished, Bool.and_eq_true, decide_eq_true_eq] at hfind
    rcases hfind with ⟨rfl, hany⟩
    cases h
    exact hlook _ rfl hany
  | lockIfTerminal other =>
    simp only [Op.findsFinished, Bool.and_eq_true, decide_eq_true_eq] at hfind
    rcases hfind with ⟨rfl, hany⟩
    simp only [Session.carryOut, Session.update] at h
    split at h
    · cases h
      exact hlook _ rfl hany
    · cases h
  | _ => cases hfind

theorem clear_of_carryOut {k : String} (h : v.carryOut titles c s op = some (answer, s', v'))
    (hclears : op.clears k answer = true) (id : Nat) : (id, k) ∉ s.held := by
  cases op with
  | removalInFlight other =>
    simp only [Op.clears, Bool.and_eq_true, decide_eq_true_eq] at hclears
    rcases hclears with ⟨rfl, hclr⟩
    cases h
    intro hmem
    have hheld : other ∈ s.held.map Prod.snd := List.mem_map.mpr ⟨(id, other), hmem, rfl⟩
    simp [Shared.removalInFlight, hheld] at hclr
  | _ => cases hclears

/-! ### What a call relies on -/

/-- What a call relies on: its own transaction, in which a row is tracked only
    if it was, was not there or is being revived; its registrations; that the
    row of a settled removal is finished; and that a torrent it saw untracked is
    so until a commit counts it. -/
structure Stands (s : Shared) (v : Session) : Prop where
  lock : v.pending.isSome = true → s.writer = some v.id
  present : ∀ db, v.pending = some db → ∀ k, (s.db.getByHash k).isSome = true →
    (db.getByHash k).isSome = true
  rises : ∀ db, v.pending = some db → ∀ k, db.Tracked k →
    s.db.Tracked k ∨ s.db.getByHash k = none ∨ v.phase = .reviving k
  registered : ∀ k, v.phase = .reserved k ∨ v.phase = .settled k → (v.id, k) ∈ s.held
  finished : ∀ k, v.phase = .settled k →
    (s.db.getByHash k).isSome = true ∧ ¬s.db.Tracked k
  sighted : ∀ k n, v.sighting = some ⟨k, false, n⟩ →
    n ≤ s.risen.count k ∧ (n = s.risen.count k → ¬s.db.Tracked k)

/-- Two calls differ, and neither revives a row whose removal the other has
    settled. -/
def Apart (v u : Session) : Prop :=
  v.id ≠ u.id ∧
    (∀ k, v.phase = .settled k → u.phase ≠ .poised k ∧ u.phase ≠ .reviving k) ∧
    ∀ k, u.phase = .settled k → v.phase ≠ .poised k ∧ v.phase ≠ .reviving k

theorem apart_symm (v u : Session) (h : Apart v u) : Apart u v := ⟨h.1.symm, h.2.2, h.2.1⟩

theorem stands_outside (hnone : v.pending = none)
    (hreg : ∀ k, v.phase = .reserved k ∨ v.phase = .settled k → (v.id, k) ∈ s.held)
    (hfin : ∀ k, v.phase = .settled k → (s.db.getByHash k).isSome = true ∧ ¬s.db.Tracked k)
    (hsighted : ∀ k n, v.sighting = some ⟨k, false, n⟩ →
      n ≤ s.risen.count k ∧ (n = s.risen.count k → ¬s.db.Tracked k)) : Stands s v where
  lock := fun hsome => absurd hsome (by simp [hnone])
  present := fun db hdb => absurd hdb (by simp [hnone])
  rises := fun db hdb => absurd hdb (by simp [hnone])
  registered := hreg
  finished := hfin
  sighted := hsighted

theorem stands_start (s : Shared) (id : Nat) : Stands s { id } :=
  ⟨by simp, by simp, by simp, by simp, by simp, by simp⟩

theorem finished_of_commit (h : Stands s v) (hpend : v.pending = some db) {k : String}
    (hph : v.phase ≠ .reviving k) (hfin : (s.db.getByHash k).isSome = true ∧ ¬s.db.Tracked k) :
    (db.getByHash k).isSome = true ∧ ¬db.Tracked k := by
  refine ⟨h.present db hpend k hfin.1, ?_⟩
  intro htrack
  rcases h.rises db hpend k htrack with hwas | hnone | hrev
  · exact hfin.2 hwas
  · rw [hnone] at hfin
    exact nomatch hfin.1
  · exact hph hrev

theorem sighted_of_advance (author : Option Nat) {k : String} {n : Nat}
    (h : n ≤ s.risen.count k ∧ (n = s.risen.count k → ¬s.db.Tracked k)) :
    n ≤ (s.advance author db).risen.count k ∧
      (n = (s.advance author db).risen.count k → ¬db.Tracked k) := by
  rcases count_risen_advance s author db k with ⟨hle, hsame⟩
  refine ⟨h.1.trans hle, ?_⟩
  intro hn
  have hcnt : (s.advance author db).risen.count k = s.risen.count k := by omega
  exact hsame hcnt (h.2 (hn.trans hcnt))

theorem pending_of_ends (h : v.carryOut titles c s op = some (answer, s', v'))
    (hop : op = .commit ∨ op = .rollback) : v'.pending = none := by
  rcases hop with rfl | rfl
  · simp only [Session.carryOut, Option.some.injEq, Prod.mk.injEq, true_and] at h
    unfold Session.commit at h
    split at h
    · rename_i hnone
      cases h
      exact hnone
    · cases h
      rfl
  · simp only [Session.carryOut, Option.some.injEq, Prod.mk.injEq, true_and] at h
    unfold Session.rollback at h
    split at h
    · rename_i hnone
      cases h
      exact hnone
    · cases h
      rfl

theorem registered_of_carryOut {outside : Bool} {k : String}
    (hstand : Stands s v) (h : v.carryOut titles c s op = some (answer, s', v'))
    (hph : v.phase.after op answer outside = .reserved k ∨
      v.phase.after op answer outside = .settled k) : (v.id, k) ∈ s'.held := by
  have hcas : op = .registerRemoval k ∨ v.phase = .reserved k ∨ v.phase = .settled k := by
    rcases hph with hph | hph
    · rcases after_reserved hph with hresv | hop
      · exact .inr (.inl hresv)
      · exact .inl hop
    · rcases after_settled hph with hset | ⟨hresv, -⟩
      · exact .inr (.inr hset)
      · exact .inr (.inl hresv)
  rcases hcas with rfl | hwas
  · cases h
    exact List.mem_cons_self
  have hheld := hstand.registered k hwas
  cases effect_of_carryOut h with
  | keeps client held hkeep =>
    rcases hkeep with rfl | ⟨other, -, rfl⟩ | ⟨other, rfl, -⟩
    · exact hheld
    · exact List.mem_cons_of_mem _ hheld
    · rcases hph with hph | hph
      · exact absurd hph (not_registered_after_release k).1
      · exact absurd hph (not_registered_after_release k).2
  | writes | commits | rollsBack => exact hheld

theorem rises_of_write {outside : Bool} (h : Stands s v)
    (hrows : Rewrites op (v.view s) db) (hgrd : v.phase.after op answer outside ≠ .unguarded)
    (hcom : op ≠ .commit) (hroll : op ≠ .rollback) {k : String} (htrack : db.Tracked k) :
    s.db.Tracked k ∨ s.db.getByHash k = none ∨
      v.phase.after op answer outside = .reviving k := by
  rcases hrows.rises k htrack with hview | hview | ⟨g, rfl, rfl⟩
  · cases hpend : v.pending with
    | none =>
      simp only [Session.view, hpend, Option.getD_none] at hview
      exact .inl hview
    | some db₀ =>
      simp only [Session.view, hpend, Option.getD_some] at hview
      rcases h.rises db₀ hpend k hview with hwas | hnone | hrev
      · exact .inl hwas
      · exact .inr (.inl hnone)
      · exact .inr (.inr (reviving_after hrev hgrd hcom hroll))
  · refine .inr (.inl ?_)
    cases hpend : v.pending with
    | none => simpa only [Session.view, hpend, Option.getD_none] using hview
    | some db₀ =>
      simp only [Session.view, hpend, Option.getD_some] at hview
      cases hrow : s.db.getByHash k with
      | none => rfl
      | some d =>
        have hsome := h.present db₀ hpend k (hrow ▸ rfl)
        rw [hview] at hsome
        cases hsome
  · exact .inr (.inr (after_reuse hgrd))

theorem present_of_write (h : Stands s v) (hrows : Rewrites op (v.view s) db) {k : String}
    (hrow : (s.db.getByHash k).isSome = true) : (db.getByHash k).isSome = true := by
  refine hrows.present k ?_
  cases hpend : v.pending with
  | none => simpa only [Session.view, hpend, Option.getD_none] using hrow
  | some db₀ =>
    simpa only [Session.view, hpend, Option.getD_some] using h.present db₀ hpend k hrow

theorem stands_own (h : Stands s v) (hexec : exec titles op c (s, v) = some (answer, s', v'))
    (hgrd : v'.phase ≠ .unguarded) : Stands s' v' := by
  rcases exec_eq_some hexec with ⟨u, hcarry, heff, rfl⟩
  have hreg : ∀ k, (v.note s op answer u).phase = .reserved k ∨
      (v.note s op answer u).phase = .settled k → (v.id, k) ∈ s'.held :=
    fun k hk => registered_of_carryOut h hcarry hk
  have hsettles : ∀ k, (v.note s op answer u).phase = .settled k →
      (s.db.getByHash k).isSome = true ∧ ¬s.db.Tracked k := by
    intro k hk
    rcases after_settled hk with hset | ⟨-, houtside, hfind⟩
    · exact h.finished k hset
    -- The row was found outside of any transaction, and so among what is committed.
    have hview : v.view s = s.db := by
      unfold Session.view
      rw [Option.isNone_iff_eq_none.mp houtside]
      rfl
    rw [← hview]
    exact finds_of_carryOut hcarry hfind
  have hsighted : ∀ k n, (v.note s op answer u).sighting = some ⟨k, false, n⟩ →
      n ≤ s.risen.count k ∧ (n = s.risen.count k → ¬s.db.Tracked k) := by
    intro k n hk
    simp only [Session.note] at hk
    split at hk
    · simp only [Option.some.injEq, Sighting.mk.injEq, decide_eq_false_iff_not] at hk
      rcases hk with ⟨rfl, hnot, rfl⟩
      exact ⟨Nat.le_refl _, fun _ => hnot⟩
    · exact h.sighted k n hk
  -- A transaction that is open after the step was not ended by it.
  have hopen : u.pending.isSome = true → op ≠ .commit ∧ op ≠ .rollback := by
    intro hsome
    constructor
    · intro hop
      rw [pending_of_ends hcarry (.inl hop)] at hsome
      cases hsome
    · intro hop
      rw [pending_of_ends hcarry (.inr hop)] at hsome
      cases hsome
  cases heff with
  | keeps client held hheld =>
    refine ⟨h.lock, h.present, ?_, hreg, hsettles, hsighted⟩
    intro db hdb k htrack
    rcases h.rises db hdb k htrack with hwas | hnone | hrev
    · exact .inl hwas
    · exact .inr (.inl hnone)
    · have hmid : v.pending.isSome = true := by
        rw [show v.pending = some db from hdb]
        rfl
      exact .inr (.inr (reviving_after hrev hgrd (hopen hmid).1 (hopen hmid).2))
  | writes db hfree hrows =>
    have hmid := hopen rfl
    refine ⟨fun _ => rfl, ?_, ?_, hreg, hsettles, hsighted⟩
    · intro db' hdb' k hrow
      cases hdb'
      exact present_of_write h hrows hrow
    · intro db' hdb' k htrack
      cases hdb'
      exact rises_of_write h hrows hgrd hmid.1 hmid.2 htrack
  | commits db hop hpend =>
    refine stands_outside rfl hreg ?_ ?_
    · intro k hk
      refine finished_of_commit h hpend ?_ (hsettles k hk)
      intro hrev
      rcases after_settled hk with hset | ⟨hresv, -⟩
      · rw [hrev] at hset
        cases hset
      · rw [hrev] at hresv
        cases hresv
    · intro k n hk
      exact sighted_of_advance (some v.id) (hsighted k n hk)
  | rollsBack db hpend =>
    exact stands_outside rfl hreg hsettles hsighted

-- A call keeps what it relies on, by every operation of another.
theorem stands_frame {u : Session} (hv : Stands s v) (hu : Stands s u)
    (hsep : Apart v u) (heff : Effect op s v s' v') : Stands s' u := by
  have hone : s.writer = none ∨ s.writer = some v.id → u.pending = none := by
    intro hfree
    cases hpend : u.pending with
    | none => rfl
    | some db =>
      have hlock := hu.lock (hpend ▸ rfl)
      rw [hlock] at hfree
      rcases hfree with hfree | hfree
      · cases hfree
      · exact absurd (Option.some.inj hfree).symm hsep.1
  cases heff with
  | keeps client held hheld =>
    exact ⟨hu.lock, hu.present, hu.rises,
      fun k hk => held_of_keeps hheld (hu.registered k hk) hsep.1.symm, hu.finished, hu.sighted⟩
  | writes db hfree hrows =>
    exact stands_outside (hone hfree) hu.registered hu.finished hu.sighted
  | commits db hop hpend =>
    have hlock := hv.lock (hpend ▸ rfl)
    refine stands_outside (hone (.inr hlock)) hu.registered ?_ ?_
    · intro k hk
      exact finished_of_commit hv hpend (hsep.2.2 k hk).2 (hu.finished k hk)
    · intro k n hk
      exact sighted_of_advance (some v.id) (hu.sighted k n hk)
  | rollsBack db hpend =>
    have hlock := hv.lock (hpend ▸ rfl)
    exact stands_outside (hone (.inr hlock)) hu.registered hu.finished hu.sighted

/-! ### Steps that take care -/

def Call.looksAt (a : Call) (torrentHash : String) : Bool :=
  a.upcoming = some (.lockIfTerminal torrentHash) || a.upcoming = some (.getByHash torrentHash)

/-- A call that looks at a row behind its reservation does so while another is
    not past the guard of a reuse of it. -/
def Call.looksAlone (a b : Call) : Bool :=
  match a.session.phase with
  | .reserved k =>
      !a.looksAt k || (b.session.phase ≠ .poised k && b.session.phase ≠ .reviving k)
  | _ => true

/-- A call removes a torrent only when the removal is settled, or when the row
    was not tracked as it last touched it and no commit has changed that. -/
def Call.removesSettled (a : Call) (s : Shared) : Bool :=
  match a.upcoming with
  | some (.remove k) =>
      a.session.phase = .settled k || a.session.sighting = some ⟨k, false, s.risen.count k⟩
  | _ => true

/-- A step of a grab that looks alone and removes only what is settled. The
    others may do anything. -/
def Careful (w : World) : Action → Prop
  | .act i _ => ∀ a ∈ w.actors[i]?, a.removesSettled w.shared = true ∧
      ∀ j ∈ List.range w.actors.length, j ≠ i → ∀ b ∈ w.actors[j]?, a.looksAlone b = true
  | .arrive _ _ _ | .other _ => True

instance (w : World) : (act : Action) → Decidable (Careful w act)
  | .act i _ => inferInstanceAs (Decidable (∀ a ∈ w.actors[i]?, _ ∧
      ∀ j ∈ List.range w.actors.length, j ≠ i → ∀ b ∈ w.actors[j]?, _))
  | .arrive _ _ _ | .other _ => .isTrue trivial

theorem apart_exec {a b : Call} (hb : Stands s b.session) (hsep : Apart a.session b.session)
    (hone : a.looksAlone b = true) (hup : a.upcoming = some op)
    (hexec : exec titles op c (s, a.session) = some (answer, s', v')) : Apart v' b.session := by
  rcases exec_eq_some hexec with ⟨u, hcarry, heff, rfl⟩
  have hid : u.id = a.session.id := by
    cases heff <;> rfl
  refine ⟨?_, ?_, ?_⟩
  · change u.id ≠ _
    rw [hid]
    exact hsep.1
  · intro k hk
    rcases after_settled hk with hset | ⟨hresv, -, hfind⟩
    · exact hsep.2.1 k hset
    · have hlooks : a.looksAt k = true := by
        unfold Call.looksAt
        rw [hup]
        cases op with
        | getByHash other | lockIfTerminal other =>
          simp only [Op.findsFinished, Bool.and_eq_true, decide_eq_true_eq] at hfind
          simp [hfind.1]
        | _ => cases hfind
      unfold Call.looksAlone at hone
      rw [hresv] at hone
      simpa [hlooks] using hone
  · intro k hset
    constructor
    · intro hpoised
      exact clear_of_carryOut hcarry (after_poised hpoised) _ (hb.registered k (.inr hset))
    · intro hrev
      rcases after_reviving hrev with hwas | hwas
      · exact (hsep.2.2 k hset).2 hwas
      · exact (hsep.2.2 k hset).1 hwas

/-! ### The outline -/

def outline (titles : Titles) : Outline Shared Call where
  Shared := fun _ => True
  Local := fun s a => a.Guarded titles ∧ Stands s a.session
  Apart := fun a b => Apart a.session b.session
  weight := fun _ => 0
  held := fun _ => 0

theorem next_cases (titles : Titles) (c : Choice) (s : Shared) (a : Call) :
    (a.next titles c s = ((a.session.rollback s).1,
      { a with session := (a.session.rollback s).2 })) ∨
    a.next titles c s = (s, a) ∨
    ∃ op answer s' v p, a.upcoming = some op ∧
      exec titles op c (s, a.session) = some (answer, s', v) ∧
      a.next titles c s = (s', { a with session := v, program := p }) := by
  unfold Call.next Call.upcoming
  split
  · exact .inl rfl
  rename_i op next hcall
  split
  · exact .inr (.inl rfl)
  · rename_i answer s' v hexec
    exact .inr (.inr ⟨op, answer, s', v, next answer, rfl, hexec, rfl⟩)

theorem id_rollback (s : Shared) (v : Session) : (v.rollback s).2.id = v.id := by
  unfold Session.rollback
  split <;> rfl

theorem outline_sound (titles : Titles) :
    (outline titles).SoundBeside (Call.next titles) (fun _ _ _ => True)
      (fun a b => a.looksAlone b = true) where
  symm := fun a b => apart_symm a.session b.session
  own := by
    rintro s a c - ⟨hgrd, hstand⟩ - -
    have hnext : (a.next titles c s).2.Guarded titles := guarded_next hgrd
    refine ⟨trivial, hnext, ?_⟩
    rcases next_cases titles c s a with heq | heq | ⟨op, answer, s', v, p, -, hexec, heq⟩
    · rw [heq]
      unfold Session.rollback
      split
      · exact hstand
      · exact stands_outside rfl hstand.registered hstand.finished hstand.sighted
    · rw [heq]
      exact hstand
    · rw [heq] at hnext ⊢
      exact stands_own hstand hexec hnext.1
  frame := by
    rintro s a b c - ⟨-, ha⟩ ⟨hgrd, hb⟩ hsep - - -
    refine ⟨hgrd, ?_⟩
    rcases next_cases titles c s a with heq | heq | ⟨op, answer, s', v, p, -, hexec, heq⟩
    · rw [heq]
      exact stands_frame ha hb hsep (effect_of_rollback .rollback s a.session)
    · rw [heq]
      exact hb
    · rw [heq]
      rcases exec_eq_some hexec with ⟨u, -, heff, -⟩
      exact stands_frame ha hb hsep heff
  apart := by
    rintro s a b c - - ⟨-, hb⟩ hsep hone -
    rcases next_cases titles c s a with heq | heq | ⟨op, answer, s', v, p, hup, hexec, heq⟩
    · rw [heq]
      refine ⟨?_, ?_, ?_⟩
      · rw [id_rollback]
        exact hsep.1
      · rw [phase_rollback]
        exact hsep.2.1
      · rw [phase_rollback]
        exact hsep.2.2
    · rw [heq]
      exact hsep
    · rw [heq]
      exact apart_exec hb hsep hone hup hexec
  account := fun _ _ _ _ _ _ => rfl

/-! ### Runs -/

theorem standsBeside_of_careful {i : Nat} (h : Careful w (.act i c)) :
    w.StandsBeside (fun a b => a.looksAlone b = true) i := by
  intro a b j hne hi hj
  have hlt : j < w.actors.length := (List.getElem?_eq_some_iff.mp hj).1
  exact (h a (Option.mem_def.mpr hi)).2 j (List.mem_range.mpr hlt) hne b (Option.mem_def.mpr hj)

-- What the others may do takes nothing from a grab.
theorem stands_other {e : Other} (h : Stands s v) (hnext : e.next s = some s') : Stands s' v := by
  cases e with
  | commits db =>
    simp only [Other.next] at hnext
    split at hnext
    · rename_i hmay
      cases hnext
      have hnone : v.pending = none := by
        cases hpend : v.pending with
        | none => rfl
        | some db₀ =>
          have hlock := h.lock (hpend ▸ rfl)
          rw [hmay.1] at hlock
          cases hlock
      refine stands_outside hnone h.registered ?_ ?_
      · intro k hk
        rcases h.finished k hk with ⟨hrow, hnot⟩
        refine ⟨?_, ?_⟩
        · rcases Option.isSome_iff_exists.mp hrow with ⟨d, hd⟩
          have hmem : k ∈ s.db.downloads.rows.map Download.torrentHash := by
            rcases Table.find_eq_some.mp hd with ⟨hrows, hkey⟩
            exact List.mem_map.mpr ⟨d, hrows, hkey⟩
          rw [← hmay.2.hashes] at hmem
          rcases List.mem_map.mp hmem with ⟨d', hd', rfl⟩
          have hfind : db.getByHash d'.torrentHash = some d' :=
            Table.find_eq_some.mpr ⟨hd', rfl⟩
          change (db.getByHash d'.torrentHash).isSome = true
          rw [hfind]
          rfl
        · rintro ⟨d, hd, hact⟩
          rcases Table.find_eq_some.mp hd with ⟨hrows, rfl⟩
          exact hnot (hmay.2.finished d hrows hact)
      · intro k n hk
        exact sighted_of_advance none (h.sighted k n hk)
    · cases hnext
  | reserves k | releases k | removes k =>
    cases hnext
    exact ⟨h.lock, h.present, h.rises, h.registered, h.finished, h.sighted⟩

theorem holds_of_step {w' : World} {act : Action} (h : (outline titles).Holds w)
    (hcare : Careful w act) (hstep : step titles w act = some w') : (outline titles).Holds w' := by
  cases act with
  | arrive fuel id args =>
    simp only [step] at hstep
    split at hstep
    · cases hstep
    rename_i hnew
    cases hstep
    refine h.spawn (fun a b => apart_symm a.session b.session)
      ⟨guarded_start titles fuel id args, stands_start _ id⟩ ?_ rfl
    intro b hb
    refine ⟨?_, fun k hk => (by cases hk), fun k _ => ⟨Phase.noConfusion, Phase.noConfusion⟩⟩
    intro hid
    refine hnew ?_
    unfold World.uses
    rw [Bool.or_eq_true]
    refine .inl (List.any_eq_true.mpr ⟨b, hb, ?_⟩)
    exact decide_eq_true hid.symm
  | act i c =>
    exact (outline_sound titles).act h (standsBeside_of_careful hcare) (fun _ _ => trivial) hstep
  | other e =>
    simp only [step, Option.map_eq_some_iff] at hstep
    rcases hstep with ⟨s, hnext, rfl⟩
    refine ⟨trivial, ?_, h.apart, h.account⟩
    intro a ha
    rcases h.locals a ha with ⟨hgrd, hstand⟩
    exact ⟨hgrd, stands_other hstand hnext⟩

theorem holds_of_run {client : List String} {as : List Action}
    (hmeet : StepsMeet (step titles) Careful (World.idle db client) as)
    (hrun : run (step titles) (World.idle db client) as = some w) : (outline titles).Holds w := by
  refine invariant_of_meeting_run
    (fun _ _ _ h hcare hstep => holds_of_step h hcare hstep) _ w as ?_ hmeet hrun
  exact ⟨trivial, fun _ ha => absurd ha nofun, List.Pairwise.nil, rfl⟩

/-- In every run of careful steps, a grab that cleans up removes a torrent that
    nobody tracks. -/
theorem cleanup_spares_tracked {titles : Titles} {db : Database} {client : List String}
    {as : List Action} {i : Nat} {c : Choice} {w : World} {a : Call} {torrentHash : String}
    (hmeet : StepsMeet (step titles) Careful (World.idle db client) (as ++ [.act i c]))
    (hrun : run (step titles) (World.idle db client) as = some w) (hi : w.actors[i]? = some a)
    (hup : a.upcoming = some (.remove torrentHash)) : ¬w.shared.db.Tracked torrentHash := by
  rcases (stepsMeet_append _ as [.act i c]).mp hmeet with ⟨hbef, hlast⟩
  have hhold := holds_of_run hbef hrun
  have hcare : Careful w (.act i c) := (hlast w hrun).1
  have hstand := (hhold.locals a (List.mem_of_getElem? hi)).2
  have hset := (hcare a (Option.mem_def.mpr hi)).1
  unfold Call.removesSettled at hset
  rw [hup] at hset
  simp only [Bool.or_eq_true, decide_eq_true_eq] at hset
  rcases hset with hph | hsighting
  · exact (hstand.finished torrentHash hph).2
  · exact (hstand.sighted torrentHash _ hsighting).2 rfl

/-! ### A removal that nobody looks at -/

def oneShow : Titles := ⟨fun _ => .tv, fun _ => 1⟩

def twoSeasons (parent first second : RequestStatus) : Seasons.Show where
  requests := ⟨[{ id := 1, status := parent }], by simp⟩
  seasons := ⟨[{ mediaRequestId := 1, seasonNumber := 1, status := first },
    { mediaRequestId := 1, seasonNumber := 2, status := second }], by
      simp [Seasons.SeasonRequest.key]⟩

def ungrabbed (library : Seasons.Show) : Database :=
  { library, downloads := Table.empty, scopes := Table.empty, claims := Table.empty }

def bothPending : Database := ungrabbed (twoSeasons .pending .pending .pending)

/-- The library turns out to have the first season. -/
def firstAvailable : Database := ungrabbed (twoSeasons .partiallyAvailable .available .pending)

/-- A pack without a known hash, for one of the seasons. -/
def packFor (season : Int) : GrabArgs where
  scored :=
    { candidate := { title := "pack", magnetUrl := some "magnet:" }, targetSeasons := [season] }
  requestId := some 1
  season := some season

def turns (i n : Nat) : List Action := List.replicate n (.act i { torrentHash := "h" })

/-- A grab for the first season adds the torrent and loses the season. It has
    rolled back and is about to remove the torrent. -/
def lostSeason : List Action :=
  [.arrive 3 0 (packFor 1)] ++ turns 0 3 ++ [.other (.commits firstAvailable)] ++ turns 0 7

/-- Meanwhile a grab for the second season finds the torrent in the client,
    creates a row for it and returns. -/
def tookOver : List Action := lostSeason ++ [.arrive 3 1 (packFor 2)] ++ turns 1 12

def reached (as : List Action) : World :=
  (run (step oneShow) (World.idle bothPending []) as).getD (World.idle bothPending [])

theorem reached_eq (as : List Action)
    (h : (run (step oneShow) (World.idle bothPending []) as).isSome = true) :
    run (step oneShow) (World.idle bothPending []) as = some (reached as) := by
  rcases Option.isSome_iff_exists.mp h with ⟨w, hw⟩
  simp only [reached, hw, Option.getD_some]

/-- Without the second grab the removal is as it should be. -/
theorem cleanup_spares_tracked_lostSeason :
    (reached lostSeason).actors.map Call.upcoming = [some (.remove "h")] ∧
      (reached lostSeason).shared.client = ["h"] ∧
      ¬(reached lostSeason).shared.db.Tracked "h" := by
  have hmap : (reached lostSeason).actors.map Call.upcoming = [some (.remove "h")] := by
    decide +kernel
  rcases List.map_eq_cons_iff.mp hmap with ⟨a, rest, hact, hup, -⟩
  have hget : (reached lostSeason).actors[0]? = some a := by
    rw [hact]
    rfl
  refine ⟨hmap, by decide +kernel, ?_⟩
  exact cleanup_spares_tracked (c := { torrentHash := "h" }) (by decide +kernel)
    (reached_eq lostSeason (by decide +kernel)) hget hup

/-- The second grab has returned a row that tracks the torrent, and the first
    one takes the torrent out of the client. -/
theorem cleanup_removes_tracked :
    run (step oneShow) (World.idle bothPending []) tookOver = some (reached tookOver) ∧
      (reached tookOver).actors.map Call.upcoming = [some (.remove "h"), none] ∧
      (reached tookOver).actors.map (fun a => a.outcome.map fun r => r.toOption.isSome) =
        [none, some true] ∧
      (reached tookOver).shared.client = ["h"] ∧
      (reached tookOver).shared.db.Tracked "h" ∧
      (reached (tookOver ++ turns 0 1)).shared.client = [] := by
  exact ⟨reached_eq tookOver (by decide +kernel), by decide +kernel, by decide +kernel,
    by decide +kernel, by decide +kernel, by decide +kernel⟩

/-! ### What comes before a reuse -/

theorem poised_of_reuse {a : Call} {g : Grabbed} (h : a.Guarded titles)
    (hup : a.upcoming = some (.reuse g)) : a.session.phase = .poised g.torrentHash := by
  unfold Call.upcoming at hup
  split at hup
  · cases hup
  rename_i op next hcall
  cases hup
  have hsafe := h.2
  rw [hcall] at hsafe
  let s : Shared := { db := ungrabbed ⟨Table.empty, Table.empty⟩ }
  -- A lock that is free lets the swap go on, and what comes of it is not unguarded.
  have hexec : ∃ answer w, exec titles (.reuse g) {} (s, a.session) = some (answer, w) := by
    simp only [exec, Session.carryOut, Session.write]
    rw [if_pos (.inl rfl)]
    split <;> exact ⟨_, _, rfl⟩
  rcases hexec with ⟨answer, ⟨s', v⟩, hexec⟩
  have hgrd := (hsafe (s, a.session) trivial rfl {} answer (s', v) hexec).1
  rcases exec_eq_some hexec with ⟨u, -, -, rfl⟩
  have hafter : a.session.phase.after (.reuse g) answer a.session.pending.isNone ≠
    .unguarded := hgrd
  unfold Phase.after at hafter
  split at hafter
  · exact absurd rfl hafter
  · exact absurd rfl hafter
  · by_contra hnot
    exact hafter (if_neg hnot)

theorem guarded_of_run {client : List String} {as : List Action}
    (hrun : run (step titles) (World.idle db client) as = some w) :
    ∀ a ∈ w.actors, a.Guarded titles := by
  refine invariant_of_run (I := fun w : World => ∀ a ∈ w.actors, a.Guarded titles) ?_ _ w as
    (fun _ ha => absurd ha List.not_mem_nil) hrun
  intro w act w' h hstep
  cases act with
  | arrive fuel id args =>
    simp only [step] at hstep
    split at hstep
    · cases hstep
    cases hstep
    intro a ha
    rcases List.mem_append.mp ha with ha | ha
    · exact h a ha
    · rw [List.mem_singleton.mp ha]
      exact guarded_start titles fuel id args
  | act i c =>
    simp only [step, World.act] at hstep
    split at hstep
    · cases hstep
    rename_i a hi
    cases hstep
    intro b hb
    rcases List.mem_or_eq_of_mem_set hb with hb | rfl
    · exact h b hb
    · exact guarded_next (h a (List.mem_of_getElem? hi))
  | other e =>
    simp only [step, Option.map_eq_some_iff] at hstep
    rcases hstep with ⟨s, -, rfl⟩
    exact h

-- A call that goes on and is poised after its turn is as it was, or has found the registry
-- clear.
theorem clear_of_next {c : Choice} {a : Call} {k : String}
    (hph : (a.next titles c s).2.session.phase = .poised k)
    (hup : (a.next titles c s).2.upcoming ≠ none) :
    (a.next titles c s).2 = a ∨ s.removalInFlight k = false := by
  cases hprog : a.program with
  | ret r =>
    refine absurd ?_ hup
    simp only [Call.next, Call.upcoming, hprog]
  | call op next =>
    cases hexec : exec titles op c (s, a.session) with
    | none =>
      left
      simp only [Call.next, hprog, hexec]
    | some r =>
      right
      rcases r with ⟨answer, s', v⟩
      simp only [Call.next, hprog, hexec] at hph
      rcases exec_eq_some hexec with ⟨u, hcarry, -, rfl⟩
      have hclears : op.clears k answer = true := after_poised hph
      cases op with
      | removalInFlight other =>
        cases hcarry
        simp only [Op.clears, Bool.and_eq_true, decide_eq_true_eq, Bool.not_eq_true'] at hclears
        rw [← hclears.1]
        exact hclears.2
      | _ => cases hclears

/-- Whatever other calls and sessions do: when a call is about to reuse a finished row, the last
    thing it has done was to ask whether the torrent is being removed, and it was not. -/
theorem reuse_behind_guard {client : List String} {as : List Action} {i : Nat} {a : Call}
    {g : Grabbed} (hrun : run (step titles) (World.idle db client) as = some w)
    (hi : w.actors[i]? = some a) (hup : a.upcoming = some (.reuse g)) :
    ∃ before c later w₁ w₂, as = before ++ .act i c :: later ∧
      run (step titles) (World.idle db client) before = some w₁ ∧
      step titles w₁ (.act i c) = some w₂ ∧ w₂.actors[i]? = some a ∧
      w₁.shared.removalInFlight g.torrentHash = false := by
  have hpoised := poised_of_reuse (guarded_of_run hrun a (List.mem_of_getElem? hi)) hup
  -- The call has come to its reuse at some step, and that step is the guard.
  rcases exists_rise (P := fun w => w.actors[i]? = some a) (by simp [World.idle]) hrun hi with
    ⟨before, act, later, w₁, w₂, rfl, hbefore, hnot, hstep, hat⟩
  cases act with
  | arrive fuel id args =>
    simp only [step] at hstep
    split at hstep
    · cases hstep
    cases hstep
    dsimp only [World.spawn] at hat
    rw [List.getElem?_append] at hat
    split at hat
    · exact absurd hat hnot
    have hnew := List.mem_of_getElem? hat
    rw [List.mem_singleton] at hnew
    rw [hnew] at hpoised
    cases hpoised
  | act j c =>
    have hact := hstep
    simp only [step, World.act] at hact
    split at hact
    · cases hact
    rename_i b hb
    cases hact
    rcases found_set hat with ⟨rfl, rfl⟩ | ⟨-, hold⟩
    · rcases clear_of_next hpoised (by rw [hup]; exact Option.some_ne_none _) with hsame | hclear
      · exact absurd (hb.trans (congrArg some hsame.symm)) hnot
      · exact ⟨before, c, later, w₁, _, rfl, hbefore, hstep, hat, hclear⟩
    · exact absurd hold hnot
  | other e =>
    simp only [step, Option.map_eq_some_iff] at hstep
    rcases hstep with ⟨s, -, rfl⟩
    exact absurd hat hnot

def failedBefore : Database :=
  { bothPending with
    downloads := Table.empty.insert
      { torrentHash := "h", status := .failed, mediaRequestId := some 1, season := some 1
        episodes := none, metadata := ⟨"magnet:", none, none, none, "pack", false, false, false⟩
        traces := { addedAt := 0, timeoutAt := none } } }

theorem reuse_behind_guard_failed :
    ∃ before c later w₁, [.arrive 3 0 (packFor 1)] ++ turns 0 7 = before ++ .act 0 c :: later ∧
      run (step oneShow) (World.idle failedBefore []) before = some w₁ ∧
      w₁.shared.removalInFlight "h" = false := by
  obtain ⟨w, a, g, hrun, hi, hup, hg⟩ : ∃ w a g,
      run (step oneShow) (World.idle failedBefore []) ([.arrive 3 0 (packFor 1)] ++ turns 0 7) =
        some w ∧ w.actors[0]? = some a ∧ a.upcoming = some (.reuse g) ∧ g.torrentHash = "h" :=
    ⟨_, _, _, rfl, rfl, rfl, rfl⟩
  rcases reuse_behind_guard hrun hi hup with
    ⟨before, c, later, w₁, -, hsplit, hbefore, -, -, hclear⟩
  exact ⟨before, c, later, w₁, hsplit, hbefore, hg ▸ hclear⟩

end Grab

end PlexManager
