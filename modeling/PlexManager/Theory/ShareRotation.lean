import PlexManager.Lib.Rotation
import PlexManager.Theory.ShareSweep

/-!
# Everybody gets a turn

A tick takes the users whose last attempt is longest ago. What a turn stamps is the
time of the tick or later, so whoever had a turn stands behind everyone who had not,
and after as many ticks as it takes to count them off all have had one.

This depends on every turn stamping something, and on no turn ending the sweep. A
share that is gone is not acted on while the server cannot be confirmed, and then
nothing is stamped: the same users stand in front at the next tick. The same happens
if the token was changed after the selection. And a verdict that cannot be written
ends the sweep, for everyone behind and at every tick.

## Theorems

* `checked_in_turn`: When every member has been checked.
* `starves`: A run in which one is not, and a tick that ends early.
-/

namespace PlexManager

namespace ShareSweep

open KeyedTable Sessions Transition Rotation

/-! ### Turns in which nothing comes between -/

section
variable (decrypt : String → String)

/-- The database can be written. A share that is gone is confirmed to be of the
    configured server. And the stored token is the one that was selected. -/
def smoothTurn (cfg : Config) (c : DueShareCandidate) (t : Turn) (s : Sweep) : Bool :=
  t.writes && match checkShare cfg.machineIdentifier c.token t.fetched with
    | none => true
    | some verdict =>
        (verdict ≠ .shareRevoked || anchorHolds cfg.machineIdentifier s.anchor t.probe) &&
          ((s.db.afterAll decrypt (untilGuard t verdict)).account c.userId).bind
            (Account.token decrypt) = c.token

def smoothTurns (cfg : Config) (turnOf : Nat → Turn) : List DueShareCandidate → Sweep → Bool
  | [], _ => true
  | c :: cs, s => smoothTurn decrypt cfg c (turnOf c.userId) s &&
      match turn decrypt cfg c (turnOf c.userId) s with
      | .ok s' => smoothTurns cfg turnOf cs s'
      | .error _ => true

def Smooth (cfg : Config) (w : World) (t : Tick) : Prop :=
  smoothTurns decrypt cfg t.turnOf (t.candidates decrypt cfg w) { db := t.db decrypt w } = true

/-- Those who are due at a tick are members of the group, and all of them are who
    have not been checked. -/
def FixedGroup (cfg : Config) (group : List Nat) (w : World) (t : Tick) : Prop :=
  (∀ a ∈ dueAccounts (t.db decrypt w) t.moment cfg.revalidateAfter, a.userId ∈ group) ∧
    ∀ u ∈ waiting group w.visited,
      ∃ a ∈ dueAccounts (t.db decrypt w) t.moment cfg.revalidateAfter, a.userId = u

instance (cfg : Config) (group : List Nat) (w : World) (t : Tick) :
    Decidable (FixedGroup decrypt cfg group w t) :=
  inferInstanceAs (Decidable (_ ∧ _))

instance (cfg : Config) (w : World) (t : Tick) : Decidable (Smooth decrypt cfg w t) :=
  inferInstanceAs (Decidable (_ = true))

end

variable {decrypt : String → String} {cfg : Config}

/-! ### Stamps -/

/-- Who has been checked has a stamp later than some time, and who has not has not. -/
structure Stamped (start : Int) (visited : List Nat) (db : Db) : Prop where
  epoch : neverAttempted ≤ start
  there : ∀ id ∈ visited, (db.account id).isSome
  late : ∀ id ∈ visited, ∀ a, db.account id = some a → start < lastAttemptAt a
  early : ∀ id, id ∉ visited → ∀ a, db.account id = some a → lastAttemptAt a ≤ start

theorem lastAttemptAt_fresh {a : Account} (h : a.share = (none, none, 0, none)) :
    lastAttemptAt a = neverAttempted := by
  simp only [Account.share, Prod.mk.injEq] at h
  unfold lastAttemptAt
  rw [h.2.1, h.2.2.2]
  rfl

variable {start : Int} {db db' : Db} {visited : List Nat} {c : DueShareCandidate} {s : Sweep}
  {w : World} {t : Turn} {revalidateAfter : Int} {group : List Nat}

theorem Stamped.keeps (h : Stamped start visited db)
    (hkeep : Keeps db db') : Stamped start visited db' where
  epoch := h.epoch
  there := by
    intro id hid
    rcases Option.isSome_iff_exists.mp (h.there id hid) with ⟨a, ha⟩
    rcases hkeep.share id a ha with ⟨a', ha', -⟩
    rw [ha']
    rfl
  late := by
    intro id hid a' ha'
    rcases Option.isSome_iff_exists.mp (h.there id hid) with ⟨a, ha⟩
    rcases hkeep.share id a ha with ⟨b, hb, hsame⟩
    obtain rfl := Option.some.inj (ha'.symm.trans hb)
    rw [lastAttemptAt_of_share hsame]
    exact h.late id hid a ha
  early := by
    intro id hid a' ha'
    cases ha : db.account id with
    | none =>
      rw [lastAttemptAt_fresh (hkeep.fresh id a' ha ha')]
      exact h.epoch
    | some a =>
      rcases hkeep.share id a ha with ⟨b, hb, hsame⟩
      obtain rfl := Option.some.inj (ha'.symm.trans hb)
      rw [lastAttemptAt_of_share hsame]
      exact h.early id hid a ha

theorem Stamped.update {userId : Nat} (h : Stamped start visited db) {f : Account → Account}
    {hf : ∀ a, (f a).userId = a.userId} (haccts : db'.accounts = (db.update userId f hf).accounts)
    (hat : (db.account userId).isSome)
    (hlate : ∀ a, db.account userId = some a → start < lastAttemptAt (f a)) :
    Stamped start (visited ++ [userId]) db' := by
  have hacct : ∀ id, db'.account id =
      (db.account id).map fun a => if id = userId then f a else a := by
    intro id
    have heq : db'.account id = (db.update userId f hf).account id := by
      unfold Db.account
      rw [haccts]
    rw [heq, account_update]
  refine ⟨h.epoch, ?_, ?_, ?_⟩
  · intro id hid
    rw [hacct, Option.isSome_map]
    rcases List.mem_append.mp hid with hid | hid
    · exact h.there id hid
    · rw [List.mem_singleton.mp hid]
      exact hat
  · intro id hid a' ha'
    rw [hacct] at ha'
    rcases Option.map_eq_some_iff.mp ha' with ⟨a, ha, rfl⟩
    by_cases hself : id = userId
    · rw [if_pos hself]
      exact hlate a (hself ▸ ha)
    rw [if_neg hself]
    refine h.late id ?_ a ha
    rcases List.mem_append.mp hid with hid | hid
    · exact hid
    · exact absurd (List.mem_singleton.mp hid) hself
  · intro id hid a' ha'
    rw [hacct] at ha'
    rcases Option.map_eq_some_iff.mp ha' with ⟨a, ha, rfl⟩
    have hne : id ≠ userId := fun heq => hid (by simp [heq])
    rw [if_neg hne]
    exact h.early id (fun hold => hid (List.mem_append_left _ hold)) a ha

theorem flushed_of_eq {α : Type} [DecidableEq α] {loaded assigned current : α}
    (h : current = loaded) : flushed loaded assigned current = assigned := by
  unfold flushed
  split
  · rename_i heq
    rw [h, heq]
  · rfl

theorem le_lastAttemptAt_flush {loaded row : Account} (hrow : row.share = loaded.share)
    (verdict : ShareVerdict) (now : Int) :
    now ≤ lastAttemptAt (loaded.flush (stamped loaded verdict now) row) := by
  simp only [Account.share, Prod.mk.injEq] at hrow
  rcases hrow with ⟨-, hchk, -, hfail⟩
  have hchk' : (loaded.flush (stamped loaded verdict now) row).shareCheckedAt =
      (stamped loaded verdict now).shareCheckedAt := flushed_of_eq hchk
  have hfail' : (loaded.flush (stamped loaded verdict now) row).shareCheckFailedAt =
      (stamped loaded verdict now).shareCheckFailedAt := flushed_of_eq hfail
  unfold lastAttemptAt
  rw [hchk', hfail']
  by_cases hunk : verdict = .unknown
  · have hstm : (stamped loaded verdict now).shareCheckFailedAt = some now := by
      simp [stamped, hunk]
    rw [hstm]
    dsimp only [Option.getD_some]
    split
    · omega
    · omega
  · have hstm : (stamped loaded verdict now).shareCheckedAt = some now := by
      unfold stamped
      rw [if_neg hunk]
      split
      · rfl
      · rfl
    rw [hstm]
    dsimp only [Option.getD_some]
    split
    · omega
    · omega

theorem le_lastAttemptAt_failed (a : Account) (now : Int) :
    now ≤ lastAttemptAt { a with
      shareCheckFailures := a.shareCheckFailures + 1
      shareCheckFailedAt := some now } := by
  unfold lastAttemptAt
  dsimp only [Option.getD_some]
  split
  · omega
  · omega

/-! ### A smooth turn -/

theorem smoothTurn_iff :
    smoothTurn decrypt cfg c t s = true ↔ t.writes = true ∧
      ∀ verdict, checkShare cfg.machineIdentifier c.token t.fetched = some verdict →
        (verdict = .shareRevoked →
          anchorHolds cfg.machineIdentifier s.anchor t.probe = true) ∧
        ((s.db.afterAll decrypt (untilGuard t verdict)).account c.userId).bind
          (Account.token decrypt) = c.token := by
  unfold smoothTurn
  rw [Bool.and_eq_true]
  cases checkShare cfg.machineIdentifier c.token t.fetched with
  | none => simp
  | some verdict =>
    by_cases hrev : verdict = .shareRevoked
    · simp [hrev]
    · simp [hrev]

theorem db_tally (s : Sweep) (c : DueShareCandidate) (t : Turn) (outcome : ShareVerdictOutcome) :
    (s.tally c t outcome).db = s.db ∧ (s.tally c t outcome).visited = s.visited :=
  ⟨rfl, rfl⟩

-- The candidate of a turn has a user and an account, and its row is the one that was loaded,
-- as far as the checks go.
theorem row_at_write {w : Write} (hspec : PrepareSpec decrypt cfg c t s (.write w)) :
    w.loaded.userId = c.userId ∧ Keeps s.db w.sweep.db ∧
      ∃ row, w.sweep.db.account c.userId = some row ∧ row.share = w.loaded.share := by
  rcases hspec with ⟨-, -, hgrd, hdb, -, -, -, hloaded, -⟩
  have hload : Keeps (s.db.afterAll decrypt (untilLoad t w.verdict)) w.sweep.db := by
    rw [hdb, hgrd, untilGuard, afterAll_append]
    exact (keeps_afterAll _ _).trans (keeps_afterAll _ _)
  refine ⟨Table.key_of_find hloaded, (keeps_afterAll _ _).trans hload, ?_⟩
  exact hload.share c.userId w.loaded hloaded

theorem turn_smooth (hsmooth : smoothTurn decrypt cfg c t s = true) (hat : Present s.db c.userId)
    (hlater : start < t.now) (hstm : Stamped start (visited ++ s.visited) s.db) :
    ∃ s', turn decrypt cfg c t s = .ok s' ∧ s'.visited = s.visited ++ [c.userId] ∧
      Stamped start (visited ++ s'.visited) s'.db ∧
      ∀ id, Present s.db id → Present s'.db id := by
  rcases smoothTurn_iff.mp hsmooth with ⟨hwr, hverd⟩
  have hspec := prepare_spec decrypt cfg c t s
  unfold turn
  cases hprep : prepare decrypt cfg c t s with
  | errored errorType s₁ =>
    rw [hprep] at hspec
    rcases hspec with ⟨-, hdb, hvis⟩
    have hkeep : Keeps s.db s₁.db := hdb ▸ keeps_afterAll _ _
    refine ⟨_, rfl, ?_, ?_, ?_⟩
    · rw [if_pos hwr]
      exact hvis
    · rw [if_pos hwr]
      rw [hvis, ← List.append_assoc]
      refine (hstm.keeps hkeep).update rfl (hat.keeps hkeep).2 fun a _ => ?_
      exact Int.lt_of_lt_of_le hlater (le_lastAttemptAt_failed a t.now)
    · intro id hid
      rw [if_pos hwr]
      refine ⟨(hid.keeps hkeep).1, ?_⟩
      rw [recordFailedAttempt, account_update, Option.isSome_map]
      exact (hid.keeps hkeep).2
  -- A smooth turn comes to a verdict, so it neither defers nor skips who is there.
  | deferred s₁ =>
    rw [hprep] at hspec
    have hhold := (hverd _ hspec.1).1 rfl
    rw [hspec.2.1] at hhold
    contradiction
  | skipped s₁ =>
    rw [hprep] at hspec
    rcases hspec with ⟨verdict, hchk, hgone | hchg, -⟩
    · exact absurd hat hgone
    · exact absurd (hverd verdict hchk).2 hchg
  | write w =>
    rw [hprep] at hspec
    rcases row_at_write hspec with ⟨hid, hkeep, row, hrow, hshare⟩
    rcases hspec with ⟨hchk, -, -, -, -, -, -, -, hvis⟩
    rcases apply_spec (hid.symm ▸ hrow) w.user w.verdict t.now t.guardMoment
      w.storedCiphertext with ⟨outcome, db, happ, hacct, hstore⟩
    have hcom : w.commit t = some (outcome, db) := by
      unfold Write.commit
      rw [if_pos hwr]
      exact happ
    have hwrit : Stamped start (visited ++ (s.visited ++ [c.userId])) db := by
      rw [← List.append_assoc]
      rw [hid] at hacct
      refine (hstm.keeps hkeep).update hacct (hat.keeps hkeep).2 fun a ha => ?_
      obtain rfl := Option.some.inj (ha.symm.trans hrow)
      exact Int.lt_of_lt_of_le hlater (le_lastAttemptAt_flush hshare w.verdict t.now)
    have hpres : ∀ id, Present s.db id → Present db id := by
      intro id hid'
      have hnext := hid'.keeps hkeep
      refine ⟨?_, ?_⟩
      · rw [hstore]
        split <;> exact hnext.1
      · unfold Db.account
        rw [hacct]
        have hsome := account_update w.sweep.db w.loaded.userId id
          (Account.flush w.loaded (stamped w.loaded w.verdict t.now)) (fun _ => rfl)
        unfold Db.account at hsome
        rw [hsome, Option.isSome_map]
        exact hnext.2
    -- The capture that follows keeps what the verdict has written.
    have hcap : ∀ s₁ : Sweep, s₁.db = db →
        Keeps db (captureFor decrypt cfg c t.capture s₁).db :=
      fun s₁ hdb => hdb ▸ (captureFor_spec decrypt cfg c t.capture s₁).1
    simp only [hcom]
    refine ⟨_, rfl, ?_, ?_, ?_⟩
    · rw [(db_tally _ _ _ _).2]
      split
      · rw [(captureFor_spec _ _ _ _ _).2]
        exact hvis
      · exact hvis
    · rw [(db_tally _ _ _ _).1, (db_tally _ _ _ _).2]
      split
      · rw [(captureFor_spec _ _ _ _ _).2]
        rw [hvis]
        exact hwrit.keeps (hcap _ rfl)
      · dsimp only
        rw [hvis]
        exact hwrit
    · intro id hid'
      split
      · exact (hpres id hid').keeps (hcap _ rfl)
      · exact hpres id hid'

/-! ### A smooth tick -/

theorem present_of_candidate {now : Int} {limit : Nat}
    (hc : c ∈ selectDueCandidates decrypt db now revalidateAfter limit) : Present db c.userId := by
  rcases List.mem_map.mp hc with ⟨a, ha, rfl⟩
  rcases List.mem_filter.mp ((List.mem_insertionSort attemptedFirst).mp
    (List.mem_of_mem_take ha)) with ⟨hrow, hdue⟩
  rcases List.any_eq_true.mp (Bool.and_eq_true_iff.mp hdue).1 with ⟨s, hs, hlive⟩
  have hown : s.userId = some a.userId := by
    simpa using (Bool.and_eq_true_iff.mp hlive).1
  have hacct : db.account a.userId = some a := Table.find_eq_some.mpr ⟨hrow, rfl⟩
  refine ⟨db.store.owned s hs a.userId hown, ?_⟩
  rw [hacct]
  rfl

theorem turns_smooth {turnOf : Nat → Turn} {cs : List DueShareCandidate} (visited : List Nat)
    (hsmooth : smoothTurns decrypt cfg turnOf cs s = true)
    (hat : ∀ c ∈ cs, Present s.db c.userId) (hnext : ∀ c ∈ cs, start < (turnOf c.userId).now)
    (hstm : Stamped start (visited ++ s.visited) s.db) :
    ∃ s', turns decrypt cfg turnOf cs s = .ok s' ∧
      s'.visited = s.visited ++ cs.map DueShareCandidate.userId ∧
      Stamped start (visited ++ s'.visited) s'.db := by
  induction cs generalizing s with
  | nil => exact ⟨s, rfl, by simp, hstm⟩
  | cons c cs ih =>
    simp only [smoothTurns, Bool.and_eq_true] at hsmooth
    rcases turn_smooth hsmooth.1 (hat c List.mem_cons_self) (hnext c List.mem_cons_self)
      hstm with ⟨s₁, hturn, hvis, hstm₁, hpres⟩
    have hrest := hsmooth.2
    rw [hturn] at hrest
    rcases ih hrest (fun d hd => hpres _ (hat d (List.mem_cons_of_mem c hd)))
      (fun d hd => hnext d (List.mem_cons_of_mem c hd)) hstm₁ with
      ⟨s', hturns, hvis', hstm'⟩
    refine ⟨s', ?_, ?_, hstm'⟩
    · simp only [turns, hturn]
      exact hturns
    · rw [hvis', hvis, List.map_cons, List.append_assoc]
      rfl

theorem tick_smooth {w' : World} {t : Tick} (htick : tick decrypt cfg w t = some w')
    (hsmooth : Smooth decrypt cfg w t) (hbeg : start ≤ w.clock)
    (hstm : Stamped start w.visited w.db) :
    (t.sweep decrypt cfg w).visited = (t.candidates decrypt cfg w).map DueShareCandidate.userId ∧
      w'.visited = w.visited ++ (t.sweep decrypt cfg w).visited ∧
      start ≤ w'.clock ∧ Stamped start w'.visited w'.db := by
  unfold tick at htick
  split at htick
  · rename_i hnext
    cases htick
    have hbef : Stamped start w.visited (t.db decrypt w) := hstm.keeps (keeps_afterAll _ _)
    have hnow : ∀ c ∈ t.candidates decrypt cfg w, start < (t.turnOf c.userId).now := by
      intro c hc
      have hmoment := hnext.2 c hc
      omega
    rcases turns_smooth w.visited hsmooth (fun c hc => present_of_candidate hc) hnow
      (by simpa using hbef) with ⟨s, hturn, hvis, hstm'⟩
    have hsweep : t.sweep decrypt cfg w = s := by
      have hok : sweepShares decrypt cfg (t.db decrypt w) t.moment t.turnOf = .ok s := hturn
      unfold Tick.sweep
      rw [hok]
    refine ⟨?_, rfl, by dsimp only; omega, ?_⟩
    · rw [hsweep, hvis]
      rfl
    · dsimp only
      rw [hsweep]
      exact hstm'
  · contradiction

instance : IsTrans Account attemptedFirst where
  trans := by
    intro a b c hab hbc
    unfold attemptedFirst at *
    omega

instance : Std.Total attemptedFirst where
  total := by
    intro a b
    unfold attemptedFirst
    omega

-- In the queue nobody who was checked stands before somebody who was not.
theorem queue_front {now : Int} (hstm : Stamped start visited db) :
    ((dueAccounts db now revalidateAfter).insertionSort attemptedFirst).Pairwise fun a b =>
      decide (b.userId ∉ visited) = true → decide (a.userId ∉ visited) = true := by
  refine (List.pairwise_insertionSort attemptedFirst _).imp_of_mem ?_
  intro a b ha hb hord hwait
  have hacct : ∀ x ∈ (dueAccounts db now revalidateAfter).insertionSort attemptedFirst,
      db.account x.userId = some x := by
    intro x hx
    exact Table.find_eq_some.mpr ⟨(List.mem_filter.mp
      ((List.mem_insertionSort attemptedFirst).mp hx)).1, rfl⟩
  rw [decide_eq_true_eq] at hwait ⊢
  intro hdone
  have hpre := hstm.early _ hwait b (hacct b hb)
  have hlate := hstm.late _ hdone a (hacct a ha)
  unfold attemptedFirst at hord
  omega

theorem tick_waiting {t : Tick} (hgroup : group.Nodup)
    (hfix : FixedGroup decrypt cfg group w t) (hstm : Stamped start w.visited w.db) :
    (waiting group (w.visited ++
        (t.candidates decrypt cfg w).map DueShareCandidate.userId)).length ≤
      (waiting group w.visited).length - cfg.limit := by
  have hbef : Stamped start w.visited (t.db decrypt w) := hstm.keeps (keeps_afterAll _ _)
  let queue := (dueAccounts (t.db decrypt w) t.moment cfg.revalidateAfter).insertionSort
    attemptedFirst
  let isWaiting := fun a : Account => decide (a.userId ∉ w.visited)
  have htake : (queue.take cfg.limit).filter isWaiting = (queue.filter isWaiting).take cfg.limit :=
    take_filter _ _ (queue_front hbef) _
  have hnd : (queue.map Account.userId).Nodup := by
    have hdue : ((dueAccounts (t.db decrypt w) t.moment cfg.revalidateAfter).map
        Account.userId).Nodup :=
      (t.db decrypt w).accounts.unique.sublist (List.filter_sublist.map _)
    exact ((List.perm_insertionSort attemptedFirst _).map _).nodup_iff.mpr hdue
  have hpicked : (((queue.take cfg.limit).filter isWaiting).map Account.userId).Nodup :=
    hnd.sublist ((List.filter_sublist.trans (List.take_sublist _ _)).map _)
  refine length_waiting_append hpicked ?_ ?_ ?_
  · intro u hu
    rcases List.mem_map.mp hu with ⟨a, ha, rfl⟩
    rcases List.mem_filter.mp ha with ⟨hq, hwait⟩
    have hdue := (List.mem_insertionSort attemptedFirst).mp (List.mem_of_mem_take hq)
    exact mem_waiting.mpr ⟨hfix.1 a hdue, of_decide_eq_true hwait⟩
  · intro u hu
    rcases List.mem_map.mp hu with ⟨a, ha, rfl⟩
    have hsel := (List.mem_filter.mp ha).1
    rw [Tick.candidates, selectDueCandidates, List.map_map]
    exact List.mem_map.mpr ⟨a, hsel, rfl⟩
  · rw [List.length_map, htake, List.length_take]
    have hall : (waiting group w.visited).length ≤ (queue.filter isWaiting).length := by
      have hsub : (waiting group w.visited).Subperm
          ((queue.filter isWaiting).map Account.userId) := by
        refine (waiting_nodup hgroup).subperm fun u hu => ?_
        rcases hfix.2 u hu with ⟨a, ha, rfl⟩
        refine List.mem_map.mpr ⟨a, List.mem_filter.mpr
          ⟨(List.mem_insertionSort attemptedFirst).mpr ha, ?_⟩, rfl⟩
        exact decide_eq_true (mem_waiting.mp hu).2
      have hlen := hsub.length_le
      rwa [List.length_map] at hlen
    omega

/-! ### Runs -/

theorem run_waiting (hgroup : group.Nodup) {w' : World} {ticks : List Tick}
    (hrun : run (tick decrypt cfg) w ticks = some w')
    (hfix : StepsMeet (tick decrypt cfg) (FixedGroup decrypt cfg group) w ticks)
    (hsmooth : StepsMeet (tick decrypt cfg) (Smooth decrypt cfg) w ticks) (hbeg : start ≤ w.clock)
    (hstm : Stamped start w.visited w.db) :
    (waiting group w'.visited).length ≤
        (waiting group w.visited).length - ticks.length * cfg.limit ∧
      StepsMeet (tick decrypt cfg) (fun w t => (t.sweep decrypt cfg w).visited =
        (t.candidates decrypt cfg w).map DueShareCandidate.userId) w ticks := by
  induction ticks generalizing w with
  | nil =>
    cases hrun
    exact ⟨by simp, trivial⟩
  | cons t ticks ih =>
    rcases (run_cons_eq_some _ _ _ _).mp hrun with ⟨w₁, htick, hrest⟩
    simp only [StepsMeet, htick] at hfix hsmooth ⊢
    rcases tick_smooth htick hsmooth.1 hbeg hstm with
      ⟨hall, hvis, hbeg₁, hstm₁⟩
    rcases ih hrest hfix.2 hsmooth.2 hbeg₁ hstm₁ with ⟨hcnt, hmeets⟩
    refine ⟨?_, hall, hmeets⟩
    have hfst := tick_waiting hgroup hfix.1 hstm
    rw [← hall, ← hvis] at hfst
    have hmul : (ticks.length + 1) * cfg.limit = ticks.length * cfg.limit + cfg.limit :=
      Nat.succ_mul _ _
    rw [List.length_cons, hmul]
    omega

theorem stamped_start (hvis : w.visited = [])
    (hpast : ∀ a ∈ w.db.accounts.rows, lastAttemptAt a ≤ w.clock) :
    Stamped w.clock w.visited w.db where
  epoch := w.epoch
  there := by
    rw [hvis]
    exact fun _ hid => nomatch hid
  late := by
    rw [hvis]
    exact fun _ hid => nomatch hid
  early := fun _ _ a ha => hpast a (Table.find_eq_some.mp ha).1

/-- In smooth ticks every member of a fixed group is checked within as many ticks as
    it takes to count the group off, and every tick checks everyone it selected. -/
theorem checked_in_turn {group : List Nat} (hgroup : group.Nodup) (hlimit : 1 ≤ cfg.limit)
    {w w' : World} {ticks : List Tick} (hrun : run (tick decrypt cfg) w ticks = some w')
    (hvisited : w.visited = []) (hpast : ∀ a ∈ w.db.accounts.rows, lastAttemptAt a ≤ w.clock)
    (hfixed : StepsMeet (tick decrypt cfg) (FixedGroup decrypt cfg group) w ticks)
    (hsmooth : StepsMeet (tick decrypt cfg) (Smooth decrypt cfg) w ticks) :
    ((group.length + cfg.limit - 1) / cfg.limit ≤ ticks.length →
        ∀ u ∈ group, u ∈ w'.visited) ∧
      StepsMeet (tick decrypt cfg) (fun w t => (t.sweep decrypt cfg w).visited =
        (t.candidates decrypt cfg w).map DueShareCandidate.userId) w ticks := by
  rcases run_waiting hgroup hrun hfixed hsmooth (Int.le_refl _)
    (stamped_start hvisited hpast) with ⟨hcnt, hmeets⟩
  refine ⟨fun henough => served_of_rounds hlimit henough ?_, hmeets⟩
  have hgroup' : (waiting group w.visited).length = group.length := by
    rw [hvisited, waiting]
    simp
  omega

/-! ### Two users -/

def pair : Db where
  store :=
    { users := ⟨[{ id := 1, plexId := 1, username := "one" },
        { id := 2, plexId := 2, username := "two" }], by decide⟩
      sessions := ⟨[{ tokenHash := "first", userId := some 1, createdAt := 0
                      expiresAt := sessionLifetime },
        { tokenHash := "second", userId := some 2, createdAt := 0
          expiresAt := sessionLifetime }], by decide⟩
      minted := ["first", "second"]
      owned := by decide
      known := by decide }
  accounts := ⟨[{ userId := 1, encryptedPlexToken := some "a" },
    { userId := 2, encryptedPlexToken := some "b" }], by decide⟩
  machineIdentifier := some "server"
  audit := []

def pairWorld : World := { clock := 0, db := pair, visited := [], epoch := by decide }

/-- A server that every user is checked against, so many at a time. -/
def places (limit : Nat) : Config :=
  { machineIdentifier := "server", revalidateAfter := 0, limit }

/-- A tick in which plex.tv lists some servers for everybody. The server itself cannot
    be asked who it is. -/
def listingTick (moment : Int) (servers : List String) : Tick where
  moment := moment
  turnOf := fun _ =>
    { fetched := .resources (servers.map fun server =>
        { clientIdentifier := some server, provides := ["server"] })
      probe := .failed, guardMoment := moment, now := moment }

/-- With one place, both users are checked in two ticks. -/
theorem pair_checked :
    ∃ w, run (tick id (places 1)) pairWorld
        [listingTick 1 ["server"], listingTick 2 ["server"]] = some w ∧
      ∀ u ∈ [1, 2], u ∈ w.visited := by
  refine exists_run (P := fun _ => True) (by decide) fun w hrun _ => ?_
  exact (checked_in_turn (by decide) (by decide) hrun rfl (by decide) (by decide) (by decide)).1
    (by decide)

/-- A tick in which the verdict of the first user cannot be written. -/
def unwritableTick (moment : Int) : Tick where
  moment := moment
  turnOf := fun id =>
    { fetched := .resources [{ clientIdentifier := some "server", provides := ["server"] }]
      guardMoment := moment, now := moment, writes := id ≠ 1 }

/-- If the shares are gone and the server cannot be asked, the second user is not
    checked in two ticks. With two places, a verdict on the first user that cannot be
    written keeps the second from being checked in the same tick. -/
theorem starves :
    (∃ w, run (tick id (places 1)) pairWorld [listingTick 1 [], listingTick 2 []] = some w ∧
      StepsMeet (tick id (places 1)) (FixedGroup id (places 1) [1, 2]) pairWorld
        [listingTick 1 [], listingTick 2 []] ∧
      2 ∉ w.visited) ∧
    ((unwritableTick 1).candidates id (places 2) pairWorld).map DueShareCandidate.userId = [1, 2] ∧
    ((unwritableTick 1).sweep id (places 2) pairWorld).visited = [1] := by
  refine ⟨exists_run (P := fun w => 2 ∉ w.visited) (by decide) ?_, by decide, by decide⟩
  exact fun w _ hnever => ⟨by decide, hnever⟩

end ShareSweep

end PlexManager
