import PlexManager.Core.GrabWorld
import PlexManager.Lib.Gather

/-!
# What a grab does to the rows

The operations of a grab do few kinds of things to what is shared. They write to
the rows of a transaction, they end it, or they leave the database alone. No
write makes a row disappear, and only two bring a torrent to be tracked: the
creation of a row that was not there, and the reuse of one that had finished.
-/

namespace PlexManager

namespace Grab

open Effects KeyedTable

/-! ### Rows -/

variable {db' : Database} {op : Op} {s s' : Shared} {v v' : Session} {titles : Titles}
  {mediaRequestId : Nat} {α : Type} {db : Database} {torrentHash : String} {now : Int}
  {allowedFrom : List RequestStatus} {answer : Ans op}

theorem tracked_congr (h : db'.downloads = db.downloads) (k : String) :
    db'.Tracked k ↔ db.Tracked k := by
  unfold Database.Tracked Database.getByHash
  rw [h]

theorem getByHash_congr (h : db'.downloads = db.downloads) (k : String) :
    db'.getByHash k = db.getByHash k := by
  unfold Database.getByHash
  rw [h]

theorem downloads_ensureScope {mediaRequestId : Option Nat}
    {season : Option Int} {episodes : Option (List Int)}
    (h : db.ensureScope torrentHash mediaRequestId season episodes = .ok db') :
    db'.downloads = db.downloads ∧ db'.library = db.library ∧ db'.claims = db.claims := by
  unfold Database.ensureScope at h
  dsimp only at h
  split at h
  · split at h
    · cases h
      exact ⟨rfl, rfl, rfl⟩
    · split at h
      · cases h
      cases h
      exact ⟨rfl, rfl, rfl⟩
  · split at h
    · cases h
    cases h
    exact ⟨rfl, rfl, rfl⟩

theorem rows_ensureCoverageClaim {season : Int}
    (h : db.ensureCoverageClaim torrentHash mediaRequestId season = .ok db') :
    db'.downloads = db.downloads ∧ db'.library = db.library ∧ db'.scopes = db.scopes := by
  unfold Database.ensureCoverageClaim at h
  dsimp only at h
  split at h
  · split at h
    · cases h
      exact ⟨rfl, rfl, rfl⟩
    · split at h
      · cases h
      cases h
      exact ⟨rfl, rfl, rfl⟩
  · split at h
    · cases h
    cases h
    exact ⟨rfl, rfl, rfl⟩

theorem downloads_ensureOwnScope {d : Download}
    (h : db.ensureOwnScope d = .ok db') : db'.downloads = db.downloads := by
  unfold Database.ensureOwnScope at h
  split at h
  · exact (downloads_ensureScope h).1
  · cases h
    rfl

theorem rows_setSeasonStatusIfIn {season : Int} {moved : Bool}
    (h : db.setSeasonStatusIfIn titles now mediaRequestId season allowedFrom = .ok (moved, db')) :
    db'.downloads = db.downloads ∧ db'.scopes = db.scopes ∧ db'.claims = db.claims := by
  unfold Database.setSeasonStatusIfIn at h
  split at h
  · cases h
  split at h
  · cases h
  cases h
  exact ⟨rfl, rfl, rfl⟩

theorem downloads_setRequestStatusIfIn {moved : Bool}
    (h : db.setRequestStatusIfIn titles mediaRequestId allowedFrom = .ok (moved, db')) :
    db'.downloads = db.downloads := by
  unfold Database.setRequestStatusIfIn at h
  split at h
  · cases h
    rfl
  split at h
  · dsimp only at h
    split at h
    · cases h
    cases h
    rfl
  · cases h
    rfl

theorem create_eq_ok {d : Download} (h : db.create d = .ok db') :
    db.getByHash d.torrentHash = none ∧ db'.getByHash d.torrentHash = some d ∧
      ∀ k, k ≠ d.torrentHash → db'.getByHash k = db.getByHash k := by
  unfold Database.create at h
  split at h
  · cases h
  rename_i hfree
  have hnone : db.getByHash d.torrentHash = none := by simpa using hfree
  split at h
  · cases h
  have hrows := downloads_ensureOwnScope h
  refine ⟨hnone, ?_, ?_⟩
  · rw [getByHash_congr hrows]
    unfold Database.getByHash at hnone ⊢
    rw [Table.find_insert, hnone]
    simp
  · intro k hk
    rw [getByHash_congr hrows]
    unfold Database.getByHash
    rw [Table.find_insert]
    have hk' : d.torrentHash ≠ k := fun heq => hk heq.symm
    simp [hk']

theorem reuse_eq_ok {g : Download} {claimed : Bool} (h : db.reuse g = .ok (claimed, db')) :
    (claimed = false ∧ db' = db) ∨
      (claimed = true ∧ ∃ d, db.getByHash g.torrentHash = some d ∧ d.active = false ∧
        db'.getByHash g.torrentHash = some (d.reusedFor g) ∧
        ∀ k, k ≠ g.torrentHash → db'.getByHash k = db.getByHash k) := by
  unfold Database.reuse at h
  split at h
  · cases h
    exact .inl ⟨rfl, rfl⟩
  rename_i d hd
  split at h
  · cases h
    exact .inl ⟨rfl, rfl⟩
  rename_i hact
  split at h
  · cases h
  refine .inr ?_
  rcases hscope : Database.ensureOwnScope _ g with e | db₁
  · rw [hscope] at h
    cases h
  rw [hscope] at h
  cases h
  have hrows := downloads_ensureOwnScope hscope
  have hhash : d.torrentHash = g.torrentHash := Table.key_of_find hd
  refine ⟨rfl, d, hd, by simpa using hact, ?_, ?_⟩
  · rw [getByHash_congr hrows]
    unfold Database.getByHash at hd ⊢
    rw [Table.find_modify, hd]
    simp [hhash]
  · intro k hk
    rw [getByHash_congr hrows]
    unfold Database.getByHash
    rw [Table.find_modify]
    have hk' : k ≠ d.torrentHash := fun heq => hk (heq.trans hhash)
    simp [hk']

/-! ### Writes -/

/-- What an operation may do to the download rows when it writes: none goes
    away, none that is tracked finishes, and one comes to be tracked only if it
    was not there or is reused. -/
structure Rewrites (op : Op) (db db' : Database) : Prop where
  present : ∀ k, (db.getByHash k).isSome = true → (db'.getByHash k).isSome = true
  tracked : ∀ k, db.Tracked k → db'.Tracked k
  rises : ∀ k, db'.Tracked k → db.Tracked k ∨ db.getByHash k = none ∨
    ∃ g, op = .reuse g ∧ g.torrentHash = k

theorem rewrites_of_downloads {db : Database}
    (h : db'.downloads = db.downloads) : Rewrites op db db' where
  present := fun k hk => by rwa [getByHash_congr h]
  tracked := fun k hk => (tracked_congr h k).mpr hk
  rises := fun k hk => .inl ((tracked_congr h k).mp hk)

theorem rewrites_create {g : Grabbed}
    (h : db.create (g.row now) = .ok db') : Rewrites (.create g) db db' := by
  rcases create_eq_ok h with ⟨hnone, hnew, hrest⟩
  refine ⟨?_, ?_, ?_⟩
  · intro k hk
    by_cases heq : k = (g.row now).torrentHash
    · rw [heq, hnew]
      rfl
    · rw [hrest k heq]
      exact hk
  · rintro k ⟨d, hd, hact⟩
    by_cases heq : k = (g.row now).torrentHash
    · rw [heq, hnone] at hd
      cases hd
    · exact ⟨d, (hrest k heq).trans hd, hact⟩
  · rintro k ⟨d, hd, hact⟩
    by_cases heq : k = (g.row now).torrentHash
    · exact .inr (.inl (heq ▸ hnone))
    · exact .inl ⟨d, (hrest k heq) ▸ hd, hact⟩

theorem rewrites_reuse {g : Grabbed} {claimed : Bool}
    (h : db.reuse (g.row now) = .ok (claimed, db')) : Rewrites (.reuse g) db db' := by
  rcases reuse_eq_ok h with ⟨-, rfl⟩ | ⟨-, d, hd, hfin, hnew, hrest⟩
  · exact rewrites_of_downloads rfl
  refine ⟨?_, ?_, ?_⟩
  · intro k hk
    by_cases heq : k = (g.row now).torrentHash
    · rw [heq, hnew]
      rfl
    · rw [hrest k heq]
      exact hk
  · rintro k ⟨e, he, hact⟩
    by_cases heq : k = (g.row now).torrentHash
    · rw [heq, hd, Option.some.injEq] at he
      subst he
      rw [hfin] at hact
      cases hact
    · exact ⟨e, (hrest k heq).trans he, hact⟩
  · rintro k ⟨e, he, hact⟩
    by_cases heq : k = (g.row now).torrentHash
    · exact .inr (.inr ⟨g, rfl, heq.symm⟩)
    · exact .inl ⟨e, (hrest k heq) ▸ he, hact⟩

/-! ### Effects -/

/-- What an operation may do, apart from the history. Registrations of others
    are left alone. -/
inductive Effect (op : Op) (s : Shared) (v : Session) : Shared → Session → Prop where
  | keeps (client : List String) (held : List (Nat × String))
      (hheld : held = s.held ∨ (∃ k, op = .registerRemoval k ∧ held = (v.id, k) :: s.held) ∨
        ∃ k, op = .releaseRemoval k ∧ held = s.held.erase (v.id, k)) :
      Effect op s v { s with client, held } v
  | writes (db : Database) (hfree : s.writer = none ∨ s.writer = some v.id)
      (hrows : Rewrites op (v.view s) db) :
      Effect op s v { s with writer := some v.id } { v with pending := some db }
  | commits (db : Database) (hop : op = .commit) (hpending : v.pending = some db) :
      Effect op s v { s.advance (some v.id) db with writer := none }
        { v with pending := none, committed := some (s.log.length, db) }
  | rollsBack (db : Database) (hpending : v.pending = some db) :
      Effect op s v { s with writer := none } { v with pending := none }

theorem effect_refl (op : Op) (s : Shared) (v : Session) : Effect op s v s v :=
  .keeps s.client s.held (.inl rfl)

theorem held_of_keeps {held : List (Nat × String)}
    (hheld : held = s.held ∨ (∃ k, op = .registerRemoval k ∧ held = (v.id, k) :: s.held) ∨
      ∃ k, op = .releaseRemoval k ∧ held = s.held.erase (v.id, k)) {e : Nat × String}
    (he : e ∈ s.held) (hid : e.1 ≠ v.id) : e ∈ held := by
  rcases hheld with rfl | ⟨k, -, rfl⟩ | ⟨k, -, rfl⟩
  · exact he
  · exact List.mem_cons_of_mem _ he
  · have hne : e ≠ (v.id, k) := fun heq => hid (congrArg Prod.fst heq)
    exact (List.mem_erase_of_ne hne).mpr he

theorem effect_of_write {f : Database → Except StatementError (α × Database)}
    {answer : Except StatementError α} (hf : ∀ db a db', f db = .ok (a, db') → Rewrites op db db')
    (h : v.write s f = some (answer, s', v')) : Effect op s v s' v' := by
  unfold Session.write at h
  split at h
  · rename_i hfree
    split at h
    · rename_i a db hrun
      cases h
      exact .writes db hfree (hf _ a db hrun)
    · cases h
      exact .writes _ hfree (rewrites_of_downloads rfl)
  · cases h

theorem effect_of_update {f : Database → α × Database} {answer : α}
    (hf : ∀ db, (f db).2.downloads = db.downloads)
    (h : v.update s f = some (answer, s', v')) : Effect op s v s' v' := by
  unfold Session.update at h
  split at h
  · rename_i hfree
    cases h
    exact .writes _ hfree (rewrites_of_downloads (hf _))
  · cases h

theorem effect_of_rollback (op : Op) (s : Shared) (v : Session) :
    Effect op s v (v.rollback s).1 (v.rollback s).2 := by
  unfold Session.rollback
  split
  · exact effect_refl op s v
  · rename_i db hdb
    exact .rollsBack db hdb

theorem effect_of_carryOut {c : Choice} (h : v.carryOut titles c s op = some (answer, s', v')) :
    Effect op s v s' v' := by
  -- What writes goes into a transaction, which a commit publishes and a rollback drops.
  cases op with
  | create g =>
    simp only [Session.carryOut] at h
    refine effect_of_write ?_ h
    intro db a db' hrun
    rcases Gather.map_eq_ok hrun with ⟨db₁, hcre, heq⟩
    cases heq
    exact rewrites_create hcre
  | reuse g =>
    exact effect_of_write (fun db a db' hrun => rewrites_reuse hrun) h
  | lockIfActive k | lockIfTerminal k | ensureSeason r n =>
    simp only [Session.carryOut] at h
    exact effect_of_update (fun _ => rfl) h
  | ensureScope k r n e =>
    simp only [Session.carryOut] at h
    refine effect_of_write ?_ h
    intro db a db' hrun
    rcases Gather.map_eq_ok hrun with ⟨db₁, hscope, heq⟩
    cases heq
    exact rewrites_of_downloads (downloads_ensureScope hscope).1
  | ensureCoverageClaim k r n =>
    simp only [Session.carryOut] at h
    refine effect_of_write ?_ h
    intro db a db' hrun
    rcases Gather.map_eq_ok hrun with ⟨db₁, hcl, heq⟩
    cases heq
    exact rewrites_of_downloads (rows_ensureCoverageClaim hcl).1
  | setSeasonStatusIfIn r n allowed =>
    simp only [Session.carryOut] at h
    refine effect_of_write ?_ h
    intro db a db' hrun
    exact rewrites_of_downloads (rows_setSeasonStatusIfIn hrun).1
  | setRequestStatusIfIn r allowed =>
    simp only [Session.carryOut] at h
    refine effect_of_write ?_ h
    intro db a db' hrun
    exact rewrites_of_downloads (downloads_setRequestStatusIfIn hrun)
  | commit =>
    simp only [Session.carryOut, Option.some.injEq, Prod.mk.injEq, true_and] at h
    unfold Session.commit at h
    split at h
    · rcases Prod.mk.inj h with ⟨rfl, rfl⟩
      exact effect_refl _ s v
    · rename_i db hdb
      rcases Prod.mk.inj h with ⟨rfl, rfl⟩
      exact .commits db rfl hdb
  | rollback =>
    simp only [Session.carryOut, Option.some.injEq, Prod.mk.injEq, true_and] at h
    have heff := effect_of_rollback .rollback s v
    rw [h] at heff
    exact heff
  | add source | remove k =>
    simp only [Session.carryOut] at h
    split at h
    · cases h
      exact effect_refl _ s v
    · cases h
      exact .keeps _ s.held (.inl rfl)
  | registerRemoval k =>
    cases h
    exact .keeps s.client _ (.inr (.inl ⟨k, rfl, rfl⟩))
  | releaseRemoval k =>
    cases h
    exact .keeps s.client _ (.inr (.inr ⟨k, rfl, rfl⟩))
  | getStatus k | listFiles k | removalInFlight k | getRequest r | listSeasons r | getByHash k
  | findActiveForRequest r n | findActiveCoverageOwner r n | listScopes k | isBlocklisted =>
    cases h
    exact effect_refl _ s v

theorem exec_eq_some {c : Choice} (h : exec titles op c (s, v) = some (answer, s', v')) :
    ∃ u, v.carryOut titles c s op = some (answer, s', u) ∧ Effect op s v s' u ∧
      v' = v.note s op answer u := by
  simp only [exec, Option.map_eq_some_iff] at h
  rcases h with ⟨⟨a, s₁, u⟩, hcarry, heq⟩
  cases heq
  exact ⟨u, hcarry, effect_of_carryOut hcarry, rfl⟩

/-! ### Commits -/

theorem mem_risings {k : String} : k ∈ risings db db' ↔ db'.Tracked k ∧ ¬db.Tracked k := by
  unfold risings
  simp only [List.mem_filter, decide_eq_true_eq, and_iff_right_iff_imp]
  rintro ⟨⟨d, hd, -⟩, -⟩
  rcases Table.find_eq_some.mp hd with ⟨hmem, hkey⟩
  exact List.mem_map.mpr ⟨d, hmem, hkey⟩

-- A torrent that is not tracked stays so until a commit counts it.
theorem count_risen_advance (s : Shared) (author : Option Nat) (db : Database) (k : String) :
    s.risen.count k ≤ (s.advance author db).risen.count k ∧
      ((s.advance author db).risen.count k = s.risen.count k →
        ¬s.db.Tracked k → ¬db.Tracked k) := by
  simp only [Shared.advance, List.count_append]
  refine ⟨Nat.le_add_right _ _, ?_⟩
  intro hsame hnot htrack
  have hmem : k ∈ risings s.db db := mem_risings.mpr ⟨htrack, hnot⟩
  have hpos := List.count_pos_iff.mpr hmem
  omega

end Grab

end PlexManager
