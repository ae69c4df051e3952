import PlexManager.Theory.CaptureSlot

/-!
# Snapshots are newest reads

Between the read of a holder and its write nobody else writes a capture of the same
user, so captures are written in the order in which they were read. The update that
writes one looks whether token and server are still those of the capture. A verdict
only takes a capture away: a row is loaded with all three columns or with none, and
what was not assigned is not written.

## Theorems

* `snapshot_newest_read`: What is stored is the newest read.
-/

namespace PlexManager

namespace CaptureSlots

open KeyedTable FairLock Sessions ShareSweep Transition

variable {decrypt : String → String}

/-! ### Columns -/

abbrev Columns : Type := Option (List String) × Option String × Option Int

def snapshot (a : Account) : Columns :=
  (a.entitledSectionKeys, a.entitlementsMachineId, a.entitlementsCapturedAt)

def columns (c : EntitlementCapture) : Columns :=
  (some c.sectionKeys, some c.machineIdentifier, some c.capturedAt)

/-- What a row has before any capture. -/
def never : Columns := (none, none, none)

/-- A row was read with all three columns or with none. -/
def Whole (cs : Columns) : Prop := cs = never ∨ ∃ c, cs = columns c

theorem snapshot_flush {loaded : Account} (h : Whole (snapshot loaded)) (row : Account)
    (verdict : ShareVerdict) (now : Int) :
    snapshot (Account.flush loaded (stamped loaded verdict now) row) = snapshot row ∨
      snapshot (Account.flush loaded (stamped loaded verdict now) row) = never := by
  have hassigned : snapshot (stamped loaded verdict now) = snapshot loaded ∨
      snapshot (stamped loaded verdict now) = never := by
    unfold stamped
    split
    · exact .inl rfl
    · dsimp only
      split
      · exact .inr rfl
      · exact .inl rfl
  have hflush : snapshot (Account.flush loaded (stamped loaded verdict now) row) =
      (flushed (snapshot loaded).1 (snapshot (stamped loaded verdict now)).1 (snapshot row).1,
        flushed (snapshot loaded).2.1 (snapshot (stamped loaded verdict now)).2.1
          (snapshot row).2.1,
        flushed (snapshot loaded).2.2 (snapshot (stamped loaded verdict now)).2.2
          (snapshot row).2.2) := rfl
  rw [hflush]
  rcases hassigned with hsame | hclr
  · rw [hsame]
    simp [flushed]
  rw [hclr]
  rcases h with hnever | ⟨c, hc⟩
  · rw [hnever]
    simp [flushed]
  · rw [hc]
    simp [flushed, columns, never]

/-! ### Captures -/

/-- When it was written, a capture was of the stored token and the configured server. -/
structure Stored.Sound (decrypt : String → String) (r : Stored) : Prop where
  token : r.storedCiphertext.map decrypt = some r.token
  server : r.configured = some r.capture.machineIdentifier

/-- The columns are empty, or those of the capture of their user that was read last. -/
def Shows (stored : List Stored) (userId : Nat) (cs : Columns) : Prop :=
  cs = never ∨ ∃ r ∈ stored, r.userId = userId ∧ cs = columns r.capture ∧
    ∀ r' ∈ stored, r'.userId = userId → r'.readNumber ≤ r.readNumber

theorem Shows.whole {stored : List Stored} {userId : Nat} {cs : Columns}
    (h : Shows stored userId cs) : Whole cs :=
  h.imp_right fun ⟨r, _, _, hcs, _⟩ => ⟨r.capture, hcs⟩

structure DataInv (decrypt : String → String) (w : World) : Prop where
  paired : ∀ id t, w.tasks.find id = some t → t.tokenCiphertext.map decrypt = some t.token
  shown : ∀ u a, w.db.account u = some a → Shows w.stored u (snapshot a)
  whole : ∀ k l, w.loaded.find k = some l → Whole (snapshot l.account)
  sound : ∀ r ∈ w.stored, r.Sound decrypt
  past : ∀ r ∈ w.stored, r.readNumber < w.reads
  newest : ∀ id t n c, w.tasks.find id = some t → t.phase = .read n c →
    n < w.reads ∧ ∀ r ∈ w.stored, r.userId = t.userId → r.readNumber < n
  ordered : w.stored.Pairwise fun r r' => r.userId = r'.userId → r.readNumber < r'.readNumber

variable {w w' : World} {task : Task} {capture : EntitlementCapture} {db : Db}

theorem DataInv.of_tasks (h : DataInv decrypt w)
    (hdb : ∀ u a, w'.db.account u = some a → Shows w.stored u (snapshot a))
    (hload : ∀ k l, w'.loaded.find k = some l → w.loaded.find k = some l)
    (hreads : w'.reads = w.reads) (hstored : w'.stored = w.stored)
    (htask : ∀ i t', w'.tasks.find i = some t' →
      t'.tokenCiphertext.map decrypt = some t'.token ∧
        ∀ n c, t'.phase = .read n c →
          ∃ t, w.tasks.find i = some t ∧ t.userId = t'.userId ∧ t.phase = .read n c) :
    DataInv decrypt w' where
  paired := fun id t ht => (htask id t ht).1
  shown := by rw [hstored]; exact hdb
  whole := fun k l hl => h.whole k l (hload k l hl)
  sound := by rw [hstored]; exact h.sound
  past := by rw [hstored, hreads]; exact h.past
  newest := by
    intro id t' n c ht' hph
    rcases (htask id t' ht').2 n c hph with ⟨t, ht, huser, hread⟩
    rw [hreads, hstored, ← huser]
    exact h.newest id t n c ht hread
  ordered := by rw [hstored]; exact h.ordered

theorem DataInv.of_db (h : DataInv decrypt w)
    (hdb : ∀ u a, w'.db.account u = some a → Shows w.stored u (snapshot a))
    (hload : ∀ k l, w'.loaded.find k = some l → w.loaded.find k = some l)
    (hreads : w'.reads = w.reads) (hstored : w'.stored = w.stored)
    (htask : w'.tasks = w.tasks) : DataInv decrypt w' := by
  refine h.of_tasks hdb hload hreads hstored fun i t ht => ?_
  rw [htask] at ht
  exact ⟨h.paired i t ht, fun n c hread => ⟨t, ht, rfl, hread⟩⟩

theorem DataInv.setTask (h : DataInv decrypt w) {id : Nat} (htask : w.tasks.find id = some task)
    (f : Task → Task) (hf : ∀ t, (f t).id = t.id)
    (hciph : (f task).tokenCiphertext = task.tokenCiphertext) (htok : (f task).token = task.token)
    (hph : ∀ n c, (f task).phase ≠ .read n c) (hdb : w'.db = w.db) (hload : w'.loaded = w.loaded)
    (hreads : w'.reads = w.reads) (hstored : w'.stored = w.stored)
    (htasks : w'.tasks = (w.setTask id f hf).tasks) : DataInv decrypt w' := by
  refine h.of_tasks (hdb ▸ h.shown) (fun k l hl => hload ▸ hl) hreads hstored ?_
  rw [htasks]
  refine Table.forall_put (find_setTask htask f hf) ?_ fun i t' _ ht' => ?_
  · rw [hciph, htok]
    exact ⟨h.paired id task htask, fun n c hread => absurd hread (hph n c)⟩
  · exact ⟨h.paired i t' ht', fun n c hread => ⟨t', ht', rfl, hread⟩⟩

theorem shown_after {stored : List Stored}
    (h : ∀ u a, db.account u = some a → Shows stored u (snapshot a)) (e : ShareSweep.Event)
    (u : Nat) (a : Account) (ha : (db.after decrypt e).account u = some a) :
    Shows stored u (snapshot a) := by
  rcases account_after ha with ⟨ciphertext, rfl⟩
  cases hold : db.account u with
  | some old => exact h u old hold
  | none => exact .inl rfl

theorem dataInv_insert (h : DataInv decrypt w) (hnew : w.tasks.find task.id = none)
    (hph : task.phase = .pending) (hpair : task.tokenCiphertext.map decrypt = some task.token) :
    DataInv decrypt { w with tasks := w.tasks.insert task } := by
  refine h.of_tasks h.shown (fun _ _ hl => hl) rfl rfl ?_
  refine Table.forall_put (Table.find_insert_new hnew) ⟨hpair, fun n c hread => ?_⟩ ?_
  · rw [hph] at hread
    contradiction
  · exact fun i t _ ht => ⟨h.paired i t ht, fun n c hread => ⟨t, ht, rfl, hread⟩⟩

theorem captureSlot_kept (w : World) (userId : Nat) :
    (captureSlot w userId).2.tasks = w.tasks ∧ (captureSlot w userId).2.db = w.db ∧
      (captureSlot w userId).2.loaded = w.loaded ∧ (captureSlot w userId).2.reads = w.reads ∧
      (captureSlot w userId).2.stored = w.stored := by
  unfold captureSlot
  split
  · exact ⟨rfl, rfl, rfl, rfl, rfl⟩
  · exact ⟨rfl, rfl, rfl, rfl, rfl⟩

theorem dataInv_enter (h : DataInv decrypt w) (htask : w.tasks.find task.id = some task)
    (hin : enter w task = some w') : DataInv decrypt w' := by
  rcases captureSlot_kept w task.userId with ⟨htasks, hdb, hload, hread, hstored⟩
  unfold enter at hin
  dsimp only at hin
  split at hin
  · contradiction
  split at hin
  · cases hin
    refine h.setTask htask (fun t => { t with phase := .ended }) (fun _ => rfl) rfl rfl
      (fun _ _ h => by cases h) hdb hload hread hstored ?_
    simp only [World.setTask, htasks]
  rename_i slot hslot hadmitted
  cases hin
  refine h.setTask htask
    (fun t => { t with
      phase := if (slot.lock.acquire task.id).1 then .inside else .waiting
      serial := (captureSlot w task.userId).1 })
    (fun _ => rfl) rfl rfl ?_ hdb hload hread hstored ?_
  · intro n c
    split
    · intro h; cases h
    · intro h; cases h
  · simp only [World.setTask, World.setSlot, htasks]

theorem dataInv_resume (h : DataInv decrypt w) (htask : w.tasks.find task.id = some task)
    (hres : resume w task = some w') : DataInv decrypt w' := by
  unfold resume at hres
  split at hres
  · contradiction
  split at hres
  · contradiction
  · cases hres
    exact h.setTask htask (fun t => { t with phase := .inside }) (fun _ => rfl) rfl rfl
      (fun _ _ h => by cases h) rfl rfl rfl rfl rfl
  · cases hres
    exact h.setTask htask (fun t => { t with phase := .ended }) (fun _ => rfl) rfl rfl
      (fun _ _ h => by cases h) rfl rfl rfl rfl rfl

theorem dataInv_read (h : DataInv decrypt w) {id : Nat}
    (htask : w.tasks.find id = some task) (hdb : w'.db = w.db) (hload : w'.loaded = w.loaded)
    (hread : w'.reads = w.reads + 1) (hstored : w'.stored = w.stored) (htasks : w'.tasks =
      (w.setTask id (fun t => { t with phase := .read w.reads capture }) (fun _ => rfl)).tasks) :
    DataInv decrypt w' where
  paired := by
    rw [htasks]
    exact Table.forall_put (find_setTask htask _ _) (h.paired id task htask)
      fun i t' _ => h.paired i t'
  shown := by rw [hdb, hstored]; exact h.shown
  whole := by rw [hload]; exact h.whole
  sound := by rw [hstored]; exact h.sound
  past := by
    intro r hr
    rw [hstored] at hr
    rw [hread]
    exact Nat.lt_succ_of_lt (h.past r hr)
  newest := by
    intro i t' n c ht' hph
    rw [hread, hstored]
    rw [htasks, find_setTask htask] at ht'
    split at ht'
    · cases ht'
      obtain ⟨rfl, -⟩ := Phase.read.inj hph
      exact ⟨Nat.lt_succ_self _, fun r hr _ => h.past r hr⟩
    · rcases h.newest i t' n c ht' hph with ⟨hless, hthen⟩
      exact ⟨Nat.lt_succ_of_lt hless, hthen⟩
  ordered := by rw [hstored]; exact h.ordered

theorem account_of_update {userId u : Nat} {f : Account → Account}
    {hf : ∀ a, (f a).userId = a.userId} {a : Account}
    (h : (db.update userId f hf).account u = some a) :
    ∃ old, db.account u = some old ∧ (if u = userId then f old else old) = a := by
  rw [account_update] at h
  exact Option.map_eq_some_iff.mp h

theorem storeEntitlements_spec (db : Db) (userId : Nat) (capture : EntitlementCapture)
    (expected : Option String) :
    (storeEntitlements db userId capture expected).1 = false ∧
        (storeEntitlements db userId capture expected).2 = db ∨
      (storeEntitlements db userId capture expected).1 = true ∧
        db.machineIdentifier = some capture.machineIdentifier ∧
        (db.account userId).bind Account.encryptedPlexToken = expected ∧
        (storeEntitlements db userId capture expected).2 =
          db.update userId (Account.captured capture) (fun _ => rfl) := by
  unfold storeEntitlements
  split
  · exact .inl ⟨rfl, rfl⟩
  rename_i row hrow
  split
  · rename_i hmatch
    rw [hrow]
    exact .inr ⟨rfl, hmatch.1, hmatch.2.1, rfl⟩
  · exact .inl ⟨rfl, rfl⟩

-- The write of a capture, by who holds the slot of its user.
theorem dataInv_store (hslot : SlotInv w) (h : DataInv decrypt w)
    (htask : w.tasks.find task.id = some task) {number : Nat}
    (hph : task.phase = .read number capture) : DataInv decrypt (store w task number capture) := by
  rcases h.newest _ task number capture htask hph with ⟨hnum, hnew⟩
  have hkept : DataInv decrypt
      (w.setTask task.id (fun t => { t with phase := .wrote }) (fun _ => rfl)) :=
    h.setTask htask (fun t => { t with phase := .wrote }) (fun _ => rfl) rfl rfl
      (fun _ _ h => by cases h) rfl rfl rfl rfl rfl
  unfold store
  dsimp only
  rcases storeEntitlements_spec w.db task.userId capture task.tokenCiphertext with
    ⟨hrefu, hdb⟩ | ⟨hstored, hserver, hciph, hdb⟩
  · rw [hrefu, hdb]
    exact hkept
  · rw [hstored, hdb, if_pos rfl]
    let r : Stored :=
      { userId := task.userId, token := task.token
        storedCiphertext := (w.db.account task.userId).bind Account.encryptedPlexToken
        configured := w.db.machineIdentifier, capture, readNumber := number }
    have hmem : ∀ r' ∈ w.stored ++ [r], r' ∈ w.stored ∨ r' = r := by
      intro r' hr'
      rcases List.mem_append.mp hr' with hr' | hr'
      · exact .inl hr'
      · exact .inr (List.mem_singleton.mp hr')
    refine
      { paired := hkept.paired
        shown := ?_
        whole := hkept.whole
        sound := ?_
        past := ?_
        newest := ?_
        ordered := ?_ }
    · intro u a ha
      rcases account_of_update ha with ⟨old, hold, rfl⟩
      split
      · -- The row of this user shows this capture, which was read last.
        rename_i hu
        refine .inr ⟨r, List.mem_append_right _ (List.mem_singleton.mpr rfl), hu.symm, rfl, ?_⟩
        intro r' hr' huser
        rcases hmem r' hr' with hr' | rfl
        · exact Nat.le_of_lt (hnew r' hr' (huser.trans hu))
        · exact Nat.le_refl _
      · rename_i hu
        rcases h.shown u old hold with hnever | ⟨s, hs, huser, hcols, hlast⟩
        · exact .inl hnever
        refine .inr ⟨s, List.mem_append_left _ hs, huser, hcols, ?_⟩
        intro r' hr' huser'
        rcases hmem r' hr' with hr' | rfl
        · exact hlast r' hr' huser'
        · exact absurd huser'.symm hu
    · intro r' hr'
      rcases hmem r' hr' with hr' | rfl
      · exact h.sound r' hr'
      · refine ⟨?_, hserver⟩
        dsimp only [r]
        rw [hciph]
        exact h.paired _ task htask
    · intro r' hr'
      rcases hmem r' hr' with hr' | rfl
      · exact h.past r' hr'
      · exact hnum
    · intro i t n c ht hread
      rcases hkept.newest i t n c ht hread with ⟨hless, hthen⟩
      refine ⟨hless, ?_⟩
      intro r' hr' huser
      rcases hmem r' hr' with hr' | rfl
      · exact hthen r' hr' huser
      -- Another task of this user with a read would hold the slot as well.
      rw [find_setTask htask] at ht
      split at ht
      · cases ht
        contradiction
      rename_i hoth
      have hhold : t.phase.holds = true := by
        rw [hread]
        rfl
      have hhold' : task.phase.holds = true := by
        rw [hph]
        rfl
      exact absurd (hslot.alone_of_user ht htask hhold hhold' huser.symm) hoth
    · rw [List.pairwise_append]
      refine ⟨h.ordered, List.pairwise_singleton _ _, ?_⟩
      intro r₁ hr₁ r₂ hr₂ huser
      obtain rfl := List.mem_singleton.mp hr₂
      exact hnew r₁ hr₁ huser

theorem dataInv_step (hslots : SlotInv w) (h : DataInv decrypt w) {a : Action}
    (hstep : step decrypt w a = some w') : DataInv decrypt w' := by
  cases a with
  | others e =>
    cases hstep
    exact h.of_db (shown_after h.shown e) (fun _ _ hl => hl) rfl rfl rfl
  | signIn id inserted user token ciphertext tokenHash machineIdentifier =>
    simp only [step] at hstep
    split at hstep
    · rcases spawn_eq_some hstep with ⟨task, rfl, rfl, hnew, hph, hpair⟩
      have hsignedIn : DataInv decrypt { w with
          db := w.db.after decrypt (.signIn inserted user token ciphertext tokenHash) } :=
        h.of_db (shown_after h.shown _) (fun _ _ hl => hl) rfl rfl rfl
      exact dataInv_insert hsignedIn hnew hph hpair
    · contradiction
  | select id userId machineIdentifier =>
    rcases spawn_eq_some hstep with ⟨task, rfl, rfl, hnew, hph, hpair⟩
    exact dataInv_insert h hnew hph hpair
  | enter id =>
    rcases of_task hstep with ⟨task, htask, rfl, -, hstep⟩
    exact dataInv_enter h htask hstep
  | resume id =>
    rcases of_task hstep with ⟨task, htask, rfl, -, hstep⟩
    exact dataInv_resume h htask hstep
  | cancel id =>
    rcases of_task hstep with ⟨task, htask, rfl, -, hstep⟩
    rcases Option.map_eq_some_iff.mp hstep with ⟨slot, hslot, rfl⟩
    exact h.of_db h.shown (fun _ _ hl => hl) rfl rfl rfl
  | read id sectionKeys capturedAt =>
    rcases of_task hstep with ⟨task, htask, rfl, -, hstep⟩
    cases hstep
    exact dataInv_read h htask rfl rfl rfl rfl rfl
  | store id =>
    simp only [step] at hstep
    split at hstep
    · contradiction
    rename_i task htask
    obtain rfl := Table.key_of_find htask
    split at hstep
    · rename_i number capture hph
      cases hstep
      exact dataInv_store hslots h htask hph
    · contradiction
  | leave id =>
    rcases of_task hstep with ⟨task, htask, rfl, -, hstep⟩
    unfold leave at hstep
    split at hstep
    · contradiction
    cases hstep
    exact h.setTask htask (fun t => { t with phase := .ended }) (fun _ => rfl) rfl rfl
      (fun _ _ h => by cases h) rfl rfl rfl rfl rfl
  | collect userId =>
    simp only [step] at hstep
    split at hstep
    · contradiction
    split at hstep
    · cases hstep
      exact h.of_db h.shown (fun _ _ hl => hl) rfl rfl rfl
    · contradiction
  | load key userId =>
    simp only [step] at hstep
    split at hstep
    · contradiction
    rename_i account hacct
    split at hstep
    · contradiction
    cases hstep
    -- What a load reads is what the row shows, and so is whole.
    refine { h with whole := ?_ }
    intro k l hl
    rw [Table.find_insert, Option.or_eq_some_iff] at hl
    rcases hl with hl | ⟨-, hl⟩
    · exact h.whole k l hl
    · split at hl
      · cases hl
        exact (h.shown userId account hacct).whole
      · contradiction
  | verdict key verdict now =>
    simp only [step] at hstep
    split at hstep
    · contradiction
    rename_i row hrow
    cases hstep
    refine h.of_db ?_ ?_ rfl rfl rfl
    · intro u a ha
      rcases account_of_update ha with ⟨old, hold, rfl⟩
      split
      -- A flush leaves the snapshot as it is, or clears it.
      · rcases snapshot_flush (h.whole key row hrow) old verdict now with hsame | hnever
        · rw [hsame]
          exact h.shown u old hold
        · exact .inl hnever
      · exact h.shown u old hold
    · intro k l hl
      rw [Table.find_erase] at hl
      split at hl
      · contradiction
      exact hl
  | restart =>
    cases hstep
    refine { h with paired := ?_, whole := ?_, newest := ?_ }
    · exact fun _ _ ht => by cases ht
    · exact fun _ _ hl => by cases hl
    · exact fun _ _ _ _ ht => by cases ht

/-! ### Runs -/

structure Inv (decrypt : String → String) (w : World) : Prop where
  slots : SlotInv w
  data : DataInv decrypt w

theorem inv_start (hnew : ∀ u a, db.account u = some a → snapshot a = never) :
    Inv decrypt { db } where
  slots := slotInv_nobody rfl rfl rfl
  data :=
    { paired := fun _ _ ht => nomatch ht
      shown := fun u a ha => .inl (hnew u a ha)
      whole := fun _ _ hl => nomatch hl
      sound := fun _ hr => nomatch hr
      past := fun _ hr => nomatch hr
      newest := fun _ _ _ _ ht => nomatch ht
      ordered := List.Pairwise.nil }

theorem inv_run (hnew : ∀ u a, db.account u = some a → snapshot a = never) {as : List Action}
    (hrun : run (step decrypt) { db } as = some w) : Inv decrypt w :=
  invariant_of_run
    (fun _ _ _ h hstep => ⟨slotInv_step h.slots hstep, dataInv_step h.slots h.data hstep⟩)
    _ w as (inv_start hnew) hrun

theorem tries_at_once (h : SlotInv w) {id : Nat} (htask : w.tasks.find id = some task)
    (hph : task.phase = .pending) (hform : task.form = .tries) :
    ∃ w' task', step decrypt w (.enter id) = some w' ∧ w'.tasks.find id = some task' ∧
      (task'.phase = .inside ∨ task'.phase = .ended) := by
  obtain rfl := Table.key_of_find htask
  rcases slotInv_captureSlot h task.userId with ⟨h₁, ⟨entry, hent, hser⟩, htasks⟩
  rcases Option.isSome_iff_exists.mp (h₁.there _ entry hent) with ⟨slot, hslot⟩
  rw [hser] at hslot
  have htask₁ := htask
  rw [← htasks] at htask₁
  simp only [step, htask, if_pos hph, enter, hslot]
  by_cases hocc : slot.occupants = 0
  · have hvacant : slot.lock.occupied = 0 := (h₁.count _ slot hslot).symm.trans hocc
    rw [if_neg (fun hrefu => hrefu.2 hocc)]
    refine ⟨_, _, rfl, (find_setTask htask₁ _ _ _).trans (if_pos rfl), .inl ?_⟩
    simp [Lock.acquire_of_vacant hvacant]
  · rw [if_pos ⟨hform, hocc⟩]
    exact ⟨_, _, rfl, (find_setTask htask₁ _ _ _).trans (if_pos rfl), .inr rfl⟩

/-- Whatever sweeps, sign-ins, repoints, verdicts and restarts do in between: the columns
    of a user are empty or of one capture, the last that was read. A capture was of the
    stored token and the configured server when it was written, and captures of a user
    are written in the order of their reads. At most one task has the slot of a user, and
    a task of the sweep never waits for it. -/
theorem snapshot_newest_read {db : Db} (hnew : ∀ u a, db.account u = some a → snapshot a = never)
    {as : List Action} {w : World} (hrun : run (step decrypt) { db } as = some w) :
    (∀ u a, w.db.account u = some a → Shows w.stored u (snapshot a)) ∧
    (∀ r ∈ w.stored, r.Sound decrypt) ∧
    (w.stored.Pairwise fun r r' => r.userId = r'.userId → r.readNumber < r'.readNumber) ∧
    (∀ id id' t t', w.tasks.find id = some t → w.tasks.find id' = some t' →
      t.phase.holds = true → t'.phase.holds = true → t.userId = t'.userId → id = id') ∧
    (∀ id t, w.tasks.find id = some t → t.form = .tries →
      t.phase ≠ .waiting ∧
      (t.phase = .pending → ∃ w' t', step decrypt w (.enter id) = some w' ∧
        w'.tasks.find id = some t' ∧ (t'.phase = .inside ∨ t'.phase = .ended))) := by
  have h := inv_run hnew hrun
  refine ⟨h.data.shown, h.data.sound, h.data.ordered, ?_, ?_⟩
  · intro id id' t t' ht ht' hhold hhold' huser
    exact h.slots.alone_of_user ht ht' hhold hhold' huser
  · intro id t ht hform
    exact ⟨h.slots.tries id t ht hform, fun hph => tries_at_once h.slots ht hph hform⟩

def nobody : Db where
  store := ⟨Table.empty, Table.empty, [], Store.owned_empty, Store.known_empty⟩
  accounts := Table.empty
  machineIdentifier := some "server"
  audit := []

/-- Someone signs in, and signs in again while the capture of the first is under way.
    The sweep comes by and goes on. -/
def twoSignIns : List Action :=
  [.signIn 1 0 { id := 1, plexId := 1, username := "one" } "a" "a" "first" "server",
    .enter 1, .read 1 ["1"] 1,
    .signIn 2 1 { id := 1, plexId := 1, username := "one" } "a" "a" "second" "server",
    .enter 2, .select 3 1 "server", .enter 3,
    .store 1, .leave 1, .resume 2, .read 2 ["1", "2"] 2, .store 2, .leave 2, .collect 1]

/-- Both captures are stored, and the second is shown. -/
theorem two_captures :
    ∃ w, run (step id) { db := nobody } twoSignIns = some w ∧ w.stored.length = 2 ∧
      ∀ u a, w.db.account u = some a → Shows w.stored u (snapshot a) := by
  have hnew : ∀ u a, nobody.account u = some a → snapshot a = never := nofun
  exact exists_run_and (by decide) fun w hrun _ => (snapshot_newest_read hnew hrun).1

end CaptureSlots

end PlexManager
