import PlexManager.Theory.PublishLock

/-!
# The lock of a dead publisher

A publisher that dies leaves its lock behind, either empty or with its pid in it. As long
as the name leads to this file nobody writes into it any more, so whoever comes later finds
it as it was left. If it is empty it is old by now and taken away. If it names a process it
stays for as long as there is one with this pid: nobody can tell such a process from the
one that is dead, and the newcomer itself may be the one.

## Theorems

* `dead_publisher_reclaimed_iff`: When a later publisher acquires the lock.
* `restarted_publisher_fails`: A process with the pid of the dead.
-/

namespace PlexManager

namespace PublishLock

open Interleaving Transition

variable {s s' : Fs} {a : Actor} {i ino k pid : Nat} {pc : Pc} {w w' : World} {c : Choice}
  {act : Action} {o : Owner} {force : Bool} {as : List Action}

/-! ### What is left behind -/

def Held (s : Fs) : Prop := ∀ k o, s.flock k = some o → (o, k) ∈ s.opened

/-- The lock that a process has created is what the name leads to, and nobody else writes
    into it. -/
structure Left (pid ino : Nat) (w : World) : Prop where
  entry : w.shared.entry = some ino
  regular : w.shared.regular ino = true
  content : w.shared.content ino = .empty ∨ w.shared.content ino = .pid pid
  creator : ∀ b ∈ w.actors, b.pc.created = some ino → b.owner.pid = pid

theorem held_of_effect (h : Held s) (ha : Stands s a) (heff : Effect s a s' pc) : Held s' := by
  cases heff with
  | keeps | unlinks | writes => exact h
  | creates i hfree hpin | opens i => exact fun k o hk => List.mem_cons_of_mem _ (h k o hk)
  | locks i pc hfree hfd hpc =>
    intro k o hk
    by_cases hki : k = i
    · -- The inode that is locked is one the actor has open.
      subst hki
      obtain rfl : a.owner = o := by simpa [Fs.lock] using hk
      exact ha.opened k hfd
    · exact h k o (by simpa [Fs.lock, hki] using hk)
  | closes i pc hfd =>
    intro k o hk
    have hkept : ¬ (k = i ∧ s.flock k = some a.owner) := by
      intro hboth
      simp only [Fs.close, if_pos hboth, reduceCtorEq] at hk
    have hflock : s.flock k = some o := by simpa [Fs.close, hkept] using hk
    refine List.mem_filter.mpr ⟨h k o hflock, decide_eq_true ?_⟩
    rintro heq
    cases heq
    exact hkept ⟨rfl, hflock⟩

theorem held_of_step (h : outline.Holds w) (hheld : Held w.shared)
    (hstep : step w act = some w') : Held w'.shared := by
  cases act with
  | arrive o force =>
    simp only [step] at hstep
    split at hstep
    · cases hstep
    cases hstep
    exact hheld
  | act i c =>
    rcases World.act_eq_some hstep with ⟨a, before, after, hi, -, rfl⟩
    have ha := h.locals a (List.mem_of_getElem? hi)
    exact held_of_effect hheld ha (effect_of_turn c ha)
  | crash pid =>
    cases hstep
    intro k o hk
    have hboth : w.shared.flock k = some o ∧ o.pid ≠ pid := by
      simpa [Fs.bury, Option.filter_eq_some_iff] using hk
    exact List.mem_filter.mpr ⟨hheld k o hboth.1, decide_eq_true hboth.2⟩
  | clock now =>
    cases hstep
    exact hheld

theorem held_of_run (hrun : run step (World.quiet s) as = some w) : Held w.shared := by
  have hboth : outline.Holds w ∧ Held w.shared := by
    refine invariant_of_run (I := fun w => outline.Holds w ∧ Held w.shared)
      (fun _ _ _ h hstep => ⟨holds_of_step h.1 hstep, held_of_step h.1 h.2 hstep⟩) _ w as ?_ hrun
    exact ⟨@holds_of_run s _ [] rfl, fun k o hk => nomatch hk⟩
  exact hboth.2

-- Nobody but its creator writes into the lock, and no other file gets its number.
theorem left_of_effect (h : Left pid ino w) (ha : a ∈ w.actors)
    (heff : Effect w.shared a s' pc) (hent : s'.entry = some ino) :
    s'.regular ino = true ∧ (s'.content ino = .empty ∨ s'.content ino = .pid pid) ∧
      (pc.created = some ino → a.owner.pid = pid) := by
  have hcreator := h.creator a ha
  cases heff with
  | keeps pc hfd hlock hprov hmade hnew hread hjud =>
    exact ⟨h.regular, h.content, fun hpc => hcreator (hmade ino hpc)⟩
  | creates i hfree hpin =>
    rw [h.entry] at hfree
    cases hfree
  | opens i => exact ⟨h.regular, h.content, nofun⟩
  | locks i pc hfree hfd hpc =>
    refine ⟨h.regular, h.content, fun hmade => ?_⟩
    rcases hpc with rfl | ⟨hpc, rfl⟩
    · cases hmade
    · exact hcreator (by rw [hpc]; exact hmade)
  | writes i hpc =>
    refine ⟨h.regular, ?_, fun hmade => hcreator (by rw [hpc]; exact hmade)⟩
    by_cases hi : ino = i
    · right
      rw [← hcreator (by rw [hpc, hi]; rfl)]
      simp [Fs.write, hi]
    · simpa [Fs.write, hi] using h.content
  | unlinks i pc hpc => cases hent
  | closes i pc hfd =>
    refine ⟨h.regular, h.content, fun hmade => ?_⟩
    rw [fd_of_created hmade] at hfd
    cases hfd

theorem left_of_step (hhold : outline.Holds w) (h : Left pid ino w)
    (hstep : step w act = some w') (hent : w'.shared.entry = some ino) : Left pid ino w' := by
  cases act with
  | arrive o force =>
    simp only [step] at hstep
    split at hstep
    · cases hstep
    cases hstep
    refine ⟨hent, h.regular, h.content, fun b hb hmade => ?_⟩
    rcases List.mem_append.mp hb with hb | hb
    · exact h.creator b hb hmade
    · rw [List.mem_singleton.mp hb] at hmade
      cases hmade
  | act i c =>
    rcases World.act_eq_some hstep with ⟨a, before, after, hi, hact, rfl⟩
    have ha := List.mem_of_getElem? hi
    have heff := left_of_effect h ha (effect_of_turn c (hhold.locals a ha)) hent
    refine ⟨hent, heff.1, heff.2.1, fun b hb hmade => ?_⟩
    rcases List.mem_append.mp hb with hb | hb
    · exact h.creator b (by rw [hact]; exact List.mem_append_left _ hb) hmade
    rcases List.mem_cons.mp hb with rfl | hb
    · exact heff.2.2 hmade
    · refine h.creator b ?_ hmade
      rw [hact]
      exact List.mem_append_right _ (List.mem_cons_of_mem a hb)
  | crash pid' =>
    cases hstep
    refine ⟨hent, h.regular, h.content, fun b hb hmade => ?_⟩
    rcases List.mem_map.mp hb with ⟨a, ha, rfl⟩
    rw [owner_bury]
    exact h.creator a ha (created_bury hmade)
  | clock now =>
    cases hstep
    exact ⟨hent, h.regular, h.content, h.creator⟩

theorem left_of_run (hhold : outline.Holds w) (h : Left pid ino w)
    (hstay : StepsMeet step (fun w _ => w.shared.entry = some ino) w as)
    (hrun : run step w as = some w') (hat : w'.shared.entry = some ino) : Left pid ino w' := by
  induction as generalizing w with
  | nil =>
    cases hrun
    exact h
  | cons act rest ih =>
    rcases (run_cons_eq_some w w' act rest).mp hrun with ⟨m, hstep, hrest⟩
    have hmeet := hstay.2
    rw [hstep] at hmeet
    have hent : m.shared.entry = some ino := by
      cases rest with
      | nil =>
        cases hrest
        exact hat
      | cons next rest => exact hmeet.1
    exact ih (holds_of_step hhold hstep) (left_of_step hhold h hstep hent) hmeet hrest

theorem left_of_create (hhold : outline.Holds w) (hi : w.actors[i]? = some a)
    (hfree : w.shared.entry = none) (hstep : step w (.act i c) = some w')
    (hent : w'.shared.entry = some ino) : Left a.owner.pid ino w' := by
  rcases World.act_eq_some_at hstep with ⟨b, before, after, rfl, hb, hact, rfl⟩
  obtain rfl : a = b := Option.some.inj (hi.symm.trans hb)
  have ha := List.mem_of_getElem? hi
  have heff := effect_of_turn c (hhold.locals a ha)
  change (turn c w.shared a.owner a.force a.pc).1.entry = some ino at hent
  change Left a.owner.pid ino ⟨(turn c w.shared a.owner a.force a.pc).1,
    before ++ { a with pc := (turn c w.shared a.owner a.force a.pc).2 } :: after⟩
  generalize hs : (turn c w.shared a.owner a.force a.pc).1 = t at heff hent
  generalize hpc : (turn c w.shared a.owner a.force a.pc).2 = pc at heff
  cases heff with
  | creates n hnone hpin =>
    obtain rfl : n = ino := Option.some.inj hent
    refine ⟨rfl, by simp [Fs.create], .inl (by simp [Fs.create]), fun x hx hmade => ?_⟩
    -- Whoever else has a lock of its own has it open, so it is another one.
    have hoth : ∀ x ∈ w.actors, x.pc.created ≠ some n := fun x hx hmade =>
      not_pinned hpin ((hhold.locals x hx).opened n (fd_of_created hmade)) rfl
    rcases List.mem_append.mp hx with hx | hx
    · exact absurd hmade (hoth x (by rw [hact]; exact List.mem_append_left _ hx))
    rcases List.mem_cons.mp hx with rfl | hx
    · rfl
    · refine absurd hmade (hoth x ?_)
      rw [hact]
      exact List.mem_append_right _ (List.mem_cons_of_mem a hx)
  | unlinks => cases hent
  | _ =>
    have hsame : w.shared.entry = some ino := hent
    rw [hfree] at hsame
    cases hsame

/-! ### An actor alone -/

/-- What an actor does while nobody else acts and all its calls go the same way. -/
def drive (c : Choice) (o : Owner) (force : Bool) : Nat → Fs × Pc → Fs × Pc
  | 0, x => x
  | n + 1, x => drive c o force n (turn c x.1 o force x.2)

theorem drive_add (m n : Nat) (x : Fs × Pc) :
    drive c o force (m + n) x = drive c o force n (drive c o force m x) := by
  induction m generalizing x with
  | zero => rw [Nat.zero_add]; rfl
  | succ m ih => rw [Nat.succ_add]; exact ih _

theorem drive_refused (n : Nat) : drive c o force n (s, .refused) = (s, .refused) := by
  induction n with
  | zero => rfl
  | succ n ih => exact ih

theorem run_drive (n : Nat) (hi : w.actors[i]? = some a) :
    run step w (List.replicate n (.act i c)) =
      some ⟨(drive c a.owner a.force n (w.shared, a.pc)).1,
        w.actors.set i { a with pc := (drive c a.owner a.force n (w.shared, a.pc)).2 }⟩ := by
  induction n generalizing w a with
  | zero =>
    rcases List.getElem?_eq_some_iff.mp hi with ⟨hlt, hget⟩
    have hself : w.actors.set i a = w.actors := by rw [← hget, List.set_getElem_self]
    simp [drive, hself]
  | succ n ih =>
    have hlt : i < w.actors.length := (List.getElem?_eq_some_iff.mp hi).1
    have hstep : step w (.act i c) =
        some ⟨(a.next c w.shared).1, w.actors.set i (a.next c w.shared).2⟩ := by
      simp [step, World.act, hi]
    rw [List.replicate_succ, run, hstep]
    dsimp only
    rw [ih
      (List.getElem?_set_self hlt), List.set_set]
    rfl

theorem drive_found (hent : s.entry = some ino) (hreg : s.regular ino = true)
    (hflock : s.flock ino = none) :
    drive { ino := k } o force 6 (s, .creating) =
      ((s.open o ino).lock o ino, .judging ino (s.content ino)) := by
  simp [drive, turn, hent, hreg, hflock, Fs.open, Fs.lock, lockPathMatchesFd]

theorem drive_stale {raw : Content} (hent : s.entry = some ino) (hreg : s.regular ino = true)
    (hstale : lockIsStale { ino := k } s ino raw = true) :
    drive { ino := k } o force 4 (s, .judging ino raw) = (s.unlink.close o ino, .creating) := by
  simp [drive, turn, hstale, hent, hreg, lockPathMatchesFd]

theorem drive_sound {raw : Content} (hsound : lockIsStale { ino := k } s ino raw = false) :
    drive { ino := k } o force 8 (s, .judging ino raw) = (s.close o ino, .refused) := by
  have hclos : drive { ino := k } o force 2 (s, .judging ino raw) = (s.close o ino, .refused) := by
    simp [drive, turn, hsound]
  rw [show 8 = 2 + 6 from rfl, drive_add, hclos, drive_refused]

theorem drive_free (hent : s.entry = none) (hpin : s.pinned k = false) (hflock : s.flock k = none) :
    (drive { ino := k } o force 4 (s, .creating)).2 = .inside k := by
  simp [drive, turn, hent, hpin, hflock, Fs.create, Fs.lock, Fs.write, lockPathMatchesFd]

theorem free_of_reclaimed (o : Owner) (ino : Nat) (hheld : Held s) (hpin : s.pinned k = false) :
    ((((s.open o ino).lock o ino).unlink).close o ino).pinned k = false ∧
      ((((s.open o ino).lock o ino).unlink).close o ino).flock k = none := by
  constructor
  · rw [Fs.pinned, List.any_eq_false] at hpin ⊢
    intro e he
    rcases List.mem_filter.mp he with ⟨he, hne⟩
    rcases List.mem_cons.mp he with rfl | he
    · simp at hne
    · exact hpin e he
  · by_cases hk : k = ino
    · simp [Fs.close, Fs.unlink, Fs.lock, hk]
    · have hnone : s.flock k = none := by
        rw [Option.eq_none_iff_forall_not_mem]
        exact fun o ho => not_pinned hpin (hheld k o ho) rfl
      simp [Fs.close, Fs.unlink, Fs.lock, Fs.open, hk, hnone]

theorem drive_lock_stale (hheld : Held s) (hent : s.entry = some ino)
    (hreg : s.regular ino = true) (hflock : s.flock ino = none) (hpin : s.pinned k = false)
    (hstale : lockIsStale { ino := k } ((s.open o ino).lock o ino) ino (s.content ino) = true) :
    (drive { ino := k } o force 14 (s, .creating)).2 = .inside k := by
  have hreclaimed : drive { ino := k } o force 4 ((s.open o ino).lock o ino,
      .judging ino (s.content ino)) =
        ((((s.open o ino).lock o ino).unlink).close o ino, .creating) :=
    drive_stale hent hreg hstale
  rcases free_of_reclaimed o ino hheld hpin with ⟨hpin', hflock'⟩
  rw [show 14 = 6 + (4 + 4) from rfl, drive_add, drive_found hent hreg hflock, drive_add,
    hreclaimed]
  exact drive_free rfl hpin' hflock'

theorem drive_lock_sound (hent : s.entry = some ino) (hreg : s.regular ino = true)
    (hflock : s.flock ino = none)
    (hsound : lockIsStale { ino := k } ((s.open o ino).lock o ino) ino (s.content ino) = false) :
    drive { ino := k } o force 14 (s, .creating) =
      (((s.open o ino).lock o ino).close o ino, .refused) := by
  rw [show 14 = 6 + 8 from rfl, drive_add, drive_found hent hreg hflock]
  exact drive_sound hsound

/-! ### The newcomer -/

/-- A publisher dies at any point after it has created its lock. While the name leads to
    the file, nobody has it locked and it is more than a minute old, a publisher that comes
    later and finds no destination acquires the lock if the file is empty or no process has
    the pid in it, the newcomer included. Otherwise it is refused, and the name still leads
    to the file, which is as it was. -/
theorem dead_publisher_reclaimed_iff (s : Fs) (before : List Action) (w : World)
    (hrun : run step (World.quiet s) before = some w) (i : Nat) (a : Actor)
    (hi : w.actors[i]? = some a) (hfree : w.shared.entry = none) (c : Choice) (created : World)
    (hcreate : step w (.act i c) = some created) (ino : Nat)
    (hentry : created.shared.entry = some ino) (mid after : List Action) (found : World)
    (hfound : run step created (mid ++ .crash a.owner.pid :: after) = some found)
    (hstays : StepsMeet step (fun w _ => w.shared.entry = some ino) created
      (mid ++ .crash a.owner.pid :: after))
    (hthere : found.shared.entry = some ino) (hflock : found.shared.flock ino = none)
    (hold : emptyLockStaleSeconds < found.shared.now - found.shared.mtime ino)
    (o : Owner) (force : Bool) (come : World) (hcome : step found (.arrive o force) = some come)
    (k : Nat) (hpin : come.shared.pinned k = false) :
    ∃ done, run step come (List.replicate 14 (.act found.actors.length { ino := k })) = some done ∧
      if come.shared.content ino = .empty ∨
          pidIsRunning come.shared a.owner.pid = some false then
        done.actors[found.actors.length]? = some ⟨o, force, .inside k⟩
      else
        done.actors[found.actors.length]? = some ⟨o, force, .refused⟩ ∧
          done.shared.entry = some ino ∧ done.shared.content ino = come.shared.content ino ∧
          done.shared.mtime ino = come.shared.mtime ino := by
  have hhold := holds_of_run hrun
  have hleft := left_of_run (holds_of_step hhold hcreate)
    (left_of_create hhold hi hfree hcreate hentry) hstays hfound hthere
  have hreach : run step (World.quiet s)
      (before ++ .act i c :: (mid ++ .crash a.owner.pid :: after)) = some found :=
    (run_append_eq_some _ _ _ _).mpr ⟨w, hrun,
      (run_cons_eq_some _ _ _ _).mpr ⟨created, hcreate, hfound⟩⟩
  have hheld := held_of_run hreach
  have hcame : come = ⟨{ found.shared with running := found.shared.running.insert o.pid },
      found.actors ++ [⟨o, force, .creating⟩]⟩ := by
    simp only [step] at hcome
    split at hcome
    · cases hcome
    · exact (Option.some.inj hcome).symm
  have hnew : come.actors[found.actors.length]? = some ⟨o, force, .creating⟩ := by simp [hcame]
  have hentry' : come.shared.entry = some ino := hcame ▸ hleft.entry
  have hregular' : come.shared.regular ino = true := hcame ▸ hleft.regular
  have hflock' : come.shared.flock ino = none := hcame ▸ hflock
  -- What the newcomer judges is an old file: empty, or with the pid of the dead.
  have hstale : lockIsStale { ino := k } ((come.shared.open o ino).lock o ino) ino
        (come.shared.content ino) = true ↔
      come.shared.content ino = .empty ∨ pidIsRunning come.shared a.owner.pid = some false := by
    have hcontent : come.shared.content ino = .empty ∨ come.shared.content ino = .pid a.owner.pid :=
      hcame ▸ hleft.content
    have hold' : emptyLockStaleSeconds < come.shared.now - come.shared.mtime ino := hcame ▸ hold
    rcases hcontent with hnil | hpid
    · rw [hnil]
      simp [lockIsStale, lockIsExpired, Fs.open, Fs.lock, hold']
    · have hprobe : pidIsRunning ((come.shared.open o ino).lock o ino) a.owner.pid =
          pidIsRunning come.shared a.owner.pid := rfl
      simp [hpid, lockIsStale, hprobe]
  refine ⟨_, run_drive 14 hnew, ?_⟩
  dsimp only
  rw [List.getElem?_set_self (List.getElem?_eq_some_iff.mp hnew).1]
  by_cases hgone : come.shared.content ino = .empty ∨
      pidIsRunning come.shared a.owner.pid = some false
  · have hheld' : Held come.shared := hcame ▸ hheld
    rw [if_pos hgone, drive_lock_stale hheld' hentry' hregular' hflock' hpin (hstale.mpr hgone)]
  · rw [if_neg hgone, drive_lock_sound hentry' hregular' hflock'
      (Bool.eq_false_iff.mpr fun h => hgone (hstale.mp h))]
    exact ⟨rfl, hentry', rfl, rfl⟩

/-- A publisher dies before it has locked its file, and another one comes a minute later. -/
theorem dead_publisher_reclaimed_iff_empty :
    ∃ done, run step (reached [.arrive ⟨1, 0⟩ false, .act 0 {}, .crash 1, .clock 61,
        .arrive ⟨2, 0⟩ false]) (List.replicate 14 (.act 1 { ino := 0 })) = some done ∧
      done.actors[1]? = some ⟨⟨2, 0⟩, false, .inside 0⟩ := by
  have hrecovery := dead_publisher_reclaimed_iff bare [.arrive ⟨1, 0⟩ false]
    (reached [.arrive ⟨1, 0⟩ false]) (reached_eq _ (by decide +kernel)) 0 ⟨⟨1, 0⟩, false, .creating⟩
    (by decide +kernel) (by decide +kernel) {} _ (step_reached _ _ (by decide +kernel)) 0
    (by decide +kernel) [] [.clock 61] (reached [.arrive ⟨1, 0⟩ false, .act 0 {}, .crash 1,
    .clock 61])
    (by rfl) (by decide +kernel) (by decide +kernel) (by decide +kernel) (by decide +kernel)
    ⟨2, 0⟩ false _ (step_reached _ _ (by decide +kernel)) 0 (by decide +kernel)
  exact hrecovery

/-- The process that comes after a restart has the pid of the one that died, and finds its
    own pid in the lock. -/
theorem restarted_publisher_fails :
    let lock : List Action := [.arrive ⟨1, 0⟩ false, .act 0 {}, .act 0 {}, .act 0 {}, .crash 1,
      .clock 61, .arrive ⟨1, 1⟩ false]
    let alone : List Action := lock ++ List.replicate 14 (.act 1 { ino := 1 })
    run step (World.quiet bare) alone = some (reached alone) ∧
      (reached lock).shared.entry = some 0 ∧ (reached lock).shared.flock 0 = none ∧
      emptyLockStaleSeconds < (reached lock).shared.now - (reached lock).shared.mtime 0 ∧
      (reached alone).actors[1]? = some ⟨⟨1, 1⟩, false, .refused⟩ := by
  exact ⟨reached_eq _ (by decide +kernel), by decide +kernel, by decide +kernel, by decide +kernel,
    by decide +kernel⟩

end PublishLock

end PlexManager
