import PlexManager.Core.SecretRotation

/-!
# The rotation boundary is all or nothing

However a request is cancelled and whatever fails, the boundary is left in one of two
ways. The commit has landed, the callback has run once, and nothing has restored what the
handler masked before. Or nothing has been committed, no callback has run, and the handler
masks what it masked when the lock was taken. No task is under way then, and the lock is
free again. While a task was under way the lock was held, once it had been taken.

What leaves the boundary after a cancellation should be the last one that came. It is, but
where a rollback fails after the request was cancelled and no further cancellation comes
while it is under way. Then the failure of the rollback takes the place of the cancellation.

What is restored is the set of values alone, and nothing is masked as retiring any more.
That is what was there before, unless an earlier rotation has committed and its sweep has
failed, since its retiring values are then still masked.

The proof goes through the boundary part by part. Each part says which fields of the world
it may change, so that what is known of the others is kept.

## Theorems

* `rotation_all_or_nothing`: The boundary along every run.
-/

namespace PlexManager

namespace SecretRotation

open Effects Transition

/-! ### What is asked, and what is owed -/

/-- A rollback that fails after a cancellation is cancelled once more before it is done,
    and no rotation is aborted that was entered while an earlier one still had values
    masked as retiring. -/
def terms : Terms Op World Choice Empty where
  call op c w := match op with
    | .settled =>
        w.inFlight = some .rollback → w.failed = true → w.delivered ≠ [] → c.delivered ≠ []
    | .abortSecretRotation _ => w.entry.retiringValues = ∅
    | _ => True

/-- What is raised is the last cancellation, if there was one. -/
def Honest (w : World) (e : Raised) : Prop :=
  ∀ id, w.delivered.getLast? = some id → e.kind = .cancelled id

/-- How the boundary should be left. -/
structure AllOrNothing (w : World) (outcome : Except Raised Unit) : Prop where
  committed : w.landed = true →
    w.callbacks = (if w.request.onCommitted then 1 else 0) ∧ w.restored = false
  undone : w.landed = false → w.callbacks = 0 ∧ w.redaction = w.entry
  settled : w.inFlight = none ∧ w.holds = false
  cancelled : ∀ id, w.delivered.getLast? = some id →
    ∃ causes, outcome = .error { kind := .cancelled id, causes }

/-- While a task is under way the lock is held, once it has been taken. The commit is never
    under way without it. -/
structure Discipline (w : World) : Prop where
  held : w.inFlight ≠ none → w.taken = true → w.holds = true
  commit : w.inFlight = some .commitUnit → w.holds = true

/-- What is owed to the world. -/
def boundary : Contract World World where
  view := id
  Inv w := Discipline w ∧ ∀ outcome, w.exited = some outcome → AllOrNothing w outcome
  Guarantee _ _ := True

/-- What a part of the boundary may be relied on for. -/
abbrev Meets {A : Type} (w : World) (x : Step A) (Q : A → World → Prop)
    (E : Raised → World → Prop) : Prop :=
  Spec (machine.under terms) boundary () w x (fun a _ => Q a) fun e _ => E e

/-! ### Steps -/

variable {w' : World} {e : Raised} {failed : Bool} {delivered : List Nat}
  {previousValues : Option Values} {c : Choice}

section Steps

variable {A : Type} {w : World} {Q : A → World → Prop} {E : Raised → World → Prop}
  {r : Except Raised A}

theorem meets_perform (op : Op) {Q : op.Answer → World → Prop}
    (h : ∀ c a w', terms.call op c w → exec op c w = some (a, w') → boundary.Inv w →
      boundary.Inv w' ∧ Q a w') : Meets w (Run.perform op) Q E := by
  refine .perform ?_
  rintro _ c a w' hinv rfl hexec
  have hstep := Machine.under_exec hexec
  have hpost := h c a w' hstep.1 hstep.2 hinv
  exact ⟨trivial, hpost.1, hpost.2⟩

def Ending (Q : A → World → Prop) (E : Raised → World → Prop) : Except Raised A → World → Prop
  | .ok a, w => Q a w
  | .error e, w => E e w

theorem meets_orRaise {op : Step (Except Raised A)}
    (h : Meets w op (Ending Q E) E) : Meets w (orRaise op) Q E := by
  refine .bind h ?_
  intro r _ w' hpost
  cases r with
  | ok a | error e => exact hpost

-- A world whose boundary is under way, and what it still has to do with the invariant.
theorem inv_of_running (hexit : w.exited = none) (h : Discipline w) : boundary.Inv w := by
  refine ⟨h, fun outcome hout => ?_⟩
  rw [hexit] at hout
  exact nomatch hout

/-- The boundary is under way, and nobody has cancelled the request. -/
structure Running (w : World) : Prop where
  exited : w.exited = none
  idle : w.inFlight = none
  uncancelled : w.delivered = []

theorem Running.inv (h : Running w) : boundary.Inv w := by
  refine inv_of_running h.exited ⟨fun hne => absurd h.idle hne, fun hunit => ?_⟩
  rw [h.idle] at hunit
  exact nomatch hunit

/-- A part has raised something. At most the cancellations have changed. -/
def Broken (w : World) (e : Raised) (w' : World) : Prop :=
  Honest w' e ∧ ∃ failed delivered, w' = { w with failed, delivered }

theorem Broken.trans (h : Broken { w with failed, delivered } e w') : Broken w e w' := by
  obtain ⟨hhon, f, d, hw⟩ := h
  exact ⟨hhon, f, d, hw⟩

theorem broken_cancelled (hw : Running w) (id : Nat) :
    boundary.Inv { w with delivered := w.delivered ++ [id] } ∧
      Broken w (Raised.cancelled id) { w with delivered := w.delivered ++ [id] } := by
  refine ⟨inv_of_running hw.exited ⟨fun hne => absurd hw.idle hne, fun hunit => ?_⟩,
    fun id' hid => ?_, _, _, rfl⟩
  · exact nomatch hw.idle.symm.trans hunit
  · rw [List.getLast?_concat] at hid
    cases hid
    rfl

theorem after_awaited {a : A} (h : awaited c w a = some (r, w')) (hw : Running w) (hQ : Q a w)
    (hE : ∀ e w', Broken w e w' → E e w') : boundary.Inv w' ∧ Ending Q E r w' := by
  unfold awaited at h
  split at h
  · cases h
    exact ⟨hw.inv, hQ⟩
  · cases h
    refine ⟨hw.inv, hE _ _ ⟨fun id hid => ?_, _, _, rfl⟩⟩
    rw [hw.uncancelled] at hid
    exact nomatch hid
  · rename_i id _
    cases h
    have hcan := broken_cancelled hw id
    exact ⟨hcan.1, hE _ _ hcan.2⟩

theorem after_waited {w₁ : World} {r : Except Raised Unit} {Q : Unit → World → Prop}
    (h : waited c w w₁ = some (r, w')) (hw : Running w) (hinv : boundary.Inv w₁) (hQ : Q () w₁)
    (hE : ∀ e w', Broken w e w' → E e w') : boundary.Inv w' ∧ Ending Q E r w' := by
  unfold waited at h
  split at h
  · cases h
    exact ⟨hinv, hQ⟩
  · exact nomatch h
  · rename_i id _
    cases h
    have hcan := broken_cancelled hw id
    exact ⟨hcan.1, hE _ _ hcan.2⟩

theorem undisturbed_eq {a : A} {w₁ : World} (h : undisturbed c w a w₁ = some (r, w')) :
    (r = .ok a ∧ w' = w₁) ∨
      ∃ id, r = .error { kind := .failure id } ∧ w' = { w with failed := true } := by
  unfold undisturbed at h
  split at h
  · cases h
    exact .inl ⟨rfl, rfl⟩
  · cases h
    exact .inr ⟨_, rfl, rfl⟩
  · exact nomatch h

end Steps

/-! ### Tasks that are waited for -/

section Tasks

variable {q : Request} {w : World} {E : Raised → World → Prop}

theorem meets_drive {work : Work} {operation : Step Unit} {R : Option Raised → World → Prop}
    {Q : Option Raised × Option Raised → World → Prop}
    (hlaunch : boundary.Inv { w with inFlight := some work, failed := false })
    (hoperation : Meets { w with inFlight := some work, failed := false } operation
      (fun _ => R none) fun e => R (some e))
    (hset : ∀ o w' c, R o w' → terms.call .settled c w' → boundary.Inv w' →
      let settled := { w' with inFlight := none, delivered := w'.delivered ++ c.delivered }
      boundary.Inv settled ∧ Q (o, c.delivered.getLast?.map Raised.cancelled) settled) :
    Meets w (driveToCompletion (parts q) work operation) Q E := by
  refine .bind (meets_perform (.launch work) (Q := fun _ w' =>
    w' = { w with inFlight := some work, failed := false }) ?_) ?_
  · intro c a w' _ hexec _
    cases hexec
    exact ⟨hlaunch, rfl⟩
  rintro _ _ _ rfl
  refine .bind (Q := fun r _ w' => (r = .ok () → R none w') ∧
    ∀ e, r = .error e → R (some e) w') (.attempt (hoperation.mono (fun _ _ _ h => ⟨fun _ => h,
      fun e he => by cases he⟩)
      fun e _ w' h => ⟨fun hok => (by cases hok), fun e' he => by cases he; exact h⟩)) ?_
  intro outcome _ w₁ hR
  have hwait : ∀ o, R o w₁ → Meets w₁ (parts q).settled (fun delivered w' =>
      Q (o, delivered.getLast?.map Raised.cancelled) w') E := by
    intro o ho
    refine meets_perform .settled ?_
    intro c a w' hterm hexec hinv
    cases hexec
    exact hset o w₁ c ho hterm hinv
  cases outcome with
  | ok _ => exact .bind (hwait none (hR.1 rfl)) fun delivered _ w' hQ => hQ
  | error e => exact .bind (hwait (some e) (hR.2 e rfl)) fun delivered _ w' hQ => hQ

theorem meets_rollbackToCompletion (hexit : w.exited = none) (hidle : w.inFlight = none)
    (hlock : w.taken = true → w.holds = true) :
    Meets w (rollbackToCompletion (parts q)) (fun _ w' => ∃ failed, w' = { w with failed })
      (Broken w) := by
  refine .bind (Q := fun o _ w' => (∀ e, honor o = .error e → Broken w e w') ∧
    (honor o = .ok () → ∃ failed, w' = { w with failed })) (meets_drive
    (R := fun o w' => (o = none ∧ w' = { w with inFlight := some .rollback, failed := false }) ∨
      ∃ id, o = some { kind := .failure id } ∧
        w' = { w with inFlight := some .rollback, failed := true }) ?_ ?_ ?_) ?_
  · exact inv_of_running hexit ⟨fun _ => hlock, nofun⟩
  · refine meets_orRaise (meets_perform .rollback ?_)
    intro c r w' _ hexec hinv
    rcases undisturbed_eq hexec with ⟨rfl, rfl⟩ | ⟨id, rfl, rfl⟩
    · exact ⟨hinv, .inl ⟨rfl, rfl⟩⟩
    · exact ⟨inv_of_running hexit ⟨fun _ => hlock, nofun⟩, .inr ⟨id, rfl, rfl⟩⟩
  · intro o w' c hR hterm _
    have hinv : ∀ failed, boundary.Inv
        { w with inFlight := none, failed, delivered := w.delivered ++ c.delivered } := by
      intro failed
      exact inv_of_running hexit ⟨fun hne => absurd rfl hne, nofun⟩
    -- the last cancellation is the one that is remembered, if any has come
    have hlast : ∀ id, c.delivered.getLast? = some id →
        (w.delivered ++ c.delivered).getLast? = some id := by
      intro id hid
      rw [List.getLast?_append, hid]
      rfl
    cases hlate : c.delivered.getLast? with
    | some id =>
      have hbrk : ∀ failed causes, Broken w { kind := .cancelled id, causes }
          { w with inFlight := none, failed, delivered := w.delivered ++ c.delivered } := by
        refine fun failed causes => ⟨fun id' hid' => ?_, failed, w.delivered ++ c.delivered, ?_⟩
        · have hsame : some id = some id' := (hlast id hlate).symm.trans hid'
          rw [Option.some.inj hsame]
        · rw [← hidle]
      rcases hR with ⟨rfl, rfl⟩ | ⟨id', rfl, rfl⟩
      · exact ⟨hinv false, fun e he => by cases he; exact hbrk false _, nofun⟩
      · exact ⟨hinv true, fun e he => by cases he; exact hbrk true _, nofun⟩
    | none =>
      have hnone : c.delivered = [] := List.getLast?_eq_none_iff.mp hlate
      rcases hR with ⟨rfl, rfl⟩ | ⟨id', rfl, rfl⟩
      · refine ⟨hinv false, nofun, fun _ => ⟨false, ?_⟩⟩
        rw [hnone, List.append_nil, ← hidle]
      -- the rollback has failed, so there was no cancellation before either
      refine ⟨hinv true, fun e he => ?_, nofun⟩
      have hbef : w.delivered = [] := by
        by_contra hne
        exact hterm rfl rfl hne hnone
      refine ⟨fun id hid => ?_, true, w.delivered ++ c.delivered, ?_⟩
      · rw [hbef, hnone] at hid
        exact nomatch hid
      · rw [← hidle]
  · rintro o _ w' ⟨hraised, hkept⟩
    exact .ofExcept (fun _ hok => hkept hok) hraised

/-- How the task that commits may have ended: the commit has landed, and at most the sweep
    has failed, or nothing has changed. -/
def Ended (w : World) (unitError : Option Raised) (landed : Bool) (redaction : RedactionSnapshot) :
    Prop :=
  (landed = true ∧ ∀ e, unitError = some e → e.kind = .postCommitSweep) ∨
    (landed = false ∧ redaction = w.redaction ∧ ∃ id, unitError = some { kind := .failure id })

/-- The task while it is under way. -/
def Working (w : World) (unitError : Option Raised) (w' : World) : Prop :=
  ∃ failed landed redaction, Ended w unitError landed redaction ∧
    w' = { w with inFlight := some .commitUnit, failed, landed, redaction }

/-- The task once it is done, with the last cancellation. -/
def Finished (w : World) (o : Option Raised × Option Raised) (w' : World) : Prop :=
  ∃ failed delivered landed redaction, Ended w o.1 landed redaction ∧
    o.2 = delivered.getLast?.map Raised.cancelled ∧
    w' = { w with failed, delivered, landed, redaction }

theorem inv_working (hexit : w.exited = none) (hhold : w.holds = true) (work : Work)
    (failed landed : Bool) (redaction : RedactionSnapshot) :
    boundary.Inv { w with inFlight := some work, failed, landed, redaction } :=
  inv_of_running hexit ⟨fun _ _ => hhold, fun _ => hhold⟩

theorem working_failed (hland : w.landed = false) (id : Nat) (failed : Bool) :
    Working w (some { kind := .failure id }) { w with inFlight := some .commitUnit, failed } :=
  ⟨failed, false, w.redaction, .inr ⟨rfl, rfl, id, rfl⟩, by rw [← hland]⟩

theorem meets_commit (hexit : w.exited = none) (hhold : w.holds = true)
    (hland : w.landed = false) (failed : Bool) :
    Meets { w with inFlight := some .commitUnit, failed } (parts q).commit
      (fun _ w' => w' = { w with inFlight := some .commitUnit, failed, landed := true })
      fun e w' => Working w (some e) w' := by
  refine meets_orRaise (meets_perform .commit ?_)
  intro c r w' _ hexec _
  rcases undisturbed_eq hexec with ⟨rfl, rfl⟩ | ⟨id, rfl, rfl⟩
  · exact ⟨inv_working hexit hhold _ _ _ _, rfl⟩
  · exact ⟨inv_working hexit hhold _ _ _ _, working_failed hland id true⟩

theorem meets_commitAndComplete (hexit : w.exited = none) (hhold : w.holds = true)
    (hland : w.landed = false) (retiringValues : Values) (previousValues : Option Values) :
    Meets { w with inFlight := some .commitUnit, failed := false }
      (commitAndComplete (parts q) retiringValues previousValues)
      (fun _ => Working w none) fun e => Working w (some e) := by
  have hok : ∀ failed redaction, Working w none
      { w with inFlight := some .commitUnit, failed, landed := true, redaction } :=
    fun failed redaction => ⟨failed, true, redaction, .inl ⟨rfl, nofun⟩, rfl⟩
  cases previousValues with
  | none =>
    refine (meets_commit hexit hhold hland false).mono ?_ fun _ _ _ h => h
    rintro _ _ _ rfl
    exact hok false w.redaction
  | some previousValues =>
    refine .bind (Q := fun _ _ w' =>
      w' = { w with inFlight := some .commitUnit, failed := false }) (meets_orRaise
      (meets_perform .currentValues ?_)) ?_
    · intro c r w' _ hexec hinv
      rcases undisturbed_eq hexec with ⟨rfl, rfl⟩ | ⟨id, rfl, rfl⟩
      · exact ⟨hinv, rfl⟩
      · exact ⟨inv_working hexit hhold _ _ _ _, working_failed hland id true⟩
    rintro currentValues _ _ rfl
    refine .bind (meets_commit hexit hhold hland false) ?_
    rintro _ _ _ rfl
    -- past the commit, a failure is one of the sweep
    have hcmp : Meets { w with inFlight := some .commitUnit, failed := false, landed := true }
        ((parts q).completeSecretRotation previousValues currentValues retiringValues)
        (fun _ => Working w none) fun _ w' => ∃ failed,
          w' = { w with inFlight := some .commitUnit, failed, landed := true } := by
      refine meets_orRaise (meets_perform (.completeSecretRotation _ _ _) ?_)
      intro c r w' _ hexec _
      rcases undisturbed_eq hexec with ⟨rfl, rfl⟩ | ⟨id, rfl, rfl⟩
      · exact ⟨inv_working hexit hhold _ _ _ _, hok _ _⟩
      · exact ⟨inv_working hexit hhold _ _ _ _, true, rfl⟩
    refine .tryCatch hcmp ?_
    rintro e _ _ ⟨failed, rfl⟩
    refine .raise ⟨failed, true, w.redaction, .inl ⟨rfl, fun e' he' => ?_⟩, rfl⟩
    cases he'
    rfl

theorem meets_commitUnit (hw : Running w) (hhold : w.holds = true)
    (hland : w.landed = false) (retiringValues : Values) (previousValues : Option Values) :
    Meets w (driveToCompletion (parts q) .commitUnit
      (commitAndComplete (parts q) retiringValues previousValues)) (Finished w) E := by
  refine meets_drive (inv_working hw.exited hhold _ _ _ _)
    (meets_commitAndComplete hw.exited hhold hland retiringValues previousValues) ?_
  rintro o _ c ⟨failed, landed, redaction, hend, rfl⟩ _ _
  refine ⟨inv_of_running hw.exited ⟨fun hne => absurd rfl hne, nofun⟩,
    failed, c.delivered, landed, redaction, hend, rfl, ?_⟩
  rw [hw.uncancelled, List.nil_append, ← hw.idle]

end Tasks

/-! ### The boundary -/

variable (retiringValues incomingValues : Values)

section Boundary

variable {q : Request} {w : World} {E : Raised → World → Prop}

/-- A request that has not committed anything yet. -/
structure Fresh (q : Request) (w : World) : Prop extends Running w where
  request : w.request = q
  landed : w.landed = false
  callbacks : w.callbacks = 0
  restored : w.restored = false
  lock : w.taken = true → w.holds = true

/-- What may be restored: nothing, where the snapshot is what it was, or the values that
    were masked when the lock was taken. -/
def Restores (w : World) (previousValues : Option Values) : Prop :=
  (previousValues = none → w.redaction = w.entry) ∧
    ∀ values, previousValues = some values → w.entry.secretValues = values

/-- What is known when the boundary is about to be left, but for the lock. -/
structure Leaving (q : Request) (w : World) (outcome : Except Raised Unit) : Prop where
  exited : w.exited = none
  idle : w.inFlight = none
  committed : w.landed = true →
    w.callbacks = (if q.onCommitted then 1 else 0) ∧ w.restored = false
  undone : w.landed = false → w.callbacks = 0 ∧ w.redaction = w.entry
  request : w.request = q
  cancelled : ∀ id, w.delivered.getLast? = some id →
    ∃ causes, outcome = .error { kind := .cancelled id, causes }

-- What is raised is what leaves the boundary.
theorem Honest.outcome (h : Honest w e) :
    ∀ id, w.delivered.getLast? = some id →
      ∃ causes, (.error e : Except Raised Unit) = .error { kind := .cancelled id, causes } := by
  intro id hid
  refine ⟨e.causes, ?_⟩
  rw [← h id hid]

theorem Fresh.leaving {restored : Bool} (h : Fresh q w)
    (hhon : Honest { w with failed, delivered, redaction := w.entry, restored } e) :
    Leaving q { w with failed, delivered, redaction := w.entry, restored } (.error e) :=
  { h with
    committed hland := nomatch h.landed.symm.trans hland
    undone _ := ⟨h.callbacks, rfl⟩
    cancelled := hhon.outcome }

theorem Fresh.broken (h : Fresh q w) (hent : w.redaction = w.entry)
    (hbrk : Broken w e w') : Leaving q w' (.error e) := by
  obtain ⟨hhon, failed, delivered, rfl⟩ := hbrk
  have hsame : { w with failed, delivered } =
      { w with failed, delivered, redaction := w.entry, restored := w.restored } := by
    rw [← hent]
  rw [hsame] at hhon ⊢
  exact h.leaving hhon

theorem meets_restore (hexit : w.exited = none)
    (hidle : w.inFlight = none) (h : Restores w previousValues) :
    Meets w (restore (parts q) previousValues)
      (fun _ w' => ∃ restored, w' = { w with redaction := w.entry, restored }) E := by
  cases previousValues with
  | none =>
    refine .pure ⟨w.restored, ?_⟩
    exact congrArg (fun redaction => { w with redaction }) (h.1 rfl)
  | some values =>
    refine meets_perform (.abortSecretRotation values) ?_
    intro c a w' hterm hexec _
    cases hexec
    refine ⟨inv_of_running hexit ⟨fun hne => absurd hidle hne, fun hunit => ?_⟩, true, ?_⟩
    · exact nomatch hidle.symm.trans hunit
    · -- nothing was masked as retiring, so the values are all there was
      have hent : w.entry = abortSecretRotation values := by
        have hretiring : w.entry.retiringValues = ∅ := hterm
        have hsec := h.2 values rfl
        unfold abortSecretRotation
        rw [← hsec, ← hretiring]
      rw [hent]

-- A rollback after the snapshot has been restored, and what is raised then.
theorem meets_undo (hw : Fresh q w) (hrst : Restores w previousValues)
    (hhon : Honest { w with failed, delivered } e) :
    Meets { w with failed, delivered }
      (do restore (parts q) previousValues
          rollbackToCompletion (parts q)
          Run.raise e : Step Unit)
      (fun _ _ => False) fun e w' => Leaving q w' (.error e) := by
  refine .bind (meets_restore hw.exited hw.idle hrst) ?_
  rintro _ _ _ ⟨restored, rfl⟩
  refine .seq (meets_rollbackToCompletion hw.exited hw.idle hw.lock) ?_ ?_
  · rintro e' _ _ ⟨hhon', failed', delivered', rfl⟩
    exact hw.leaving hhon'
  · rintro _ _ _ ⟨failed', rfl⟩
    exact .raise (hw.leaving hhon)

-- The history, the body of the caller and the last chance to be cancelled.
theorem meets_staging (previousValues : Option Values) (hw : Fresh q w) :
    Meets w
      (do redactHistory (parts q) retiringValues previousValues
          (parts q).body
          (parts q).cancellationCheckpoint : Step Unit)
      (fun _ w' => w' = w) (Broken w) := by
  refine .bind (Q := fun _ _ w' => w' = w) ?_ ?_
  · cases previousValues with
    | none => exact .pure rfl
    | some values =>
      by_cases hnil : retiringValues = ∅
      · simp only [redactHistory, rewriteBeforeSecretReplacement, if_pos hnil]
        exact .pure rfl
      · simp only [redactHistory, rewriteBeforeSecretReplacement, if_neg hnil]
        refine meets_orRaise (meets_perform (.rewriteRedactableFields retiringValues) ?_)
        intro c r w' _ hexec _
        exact after_awaited hexec hw.toRunning rfl fun _ _ h => h
  intro _ _ w₁ hw₁
  rw [hw₁]
  refine .bind (Q := fun _ _ w' => w' = w) (meets_orRaise (meets_perform .body ?_)) ?_
  · intro c r w' _ hexec _
    exact after_awaited hexec hw.toRunning rfl fun _ _ h => h
  intro _ _ w₂ hw₂
  rw [hw₂]
  refine meets_orRaise (meets_perform .cancellationCheckpoint ?_)
  intro c r w' _ hexec hinv
  exact after_waited hexec hw.toRunning hinv rfl fun _ _ h => h

-- What comes before the commit changes nothing here, and where it is cut short nothing is left
-- of it.
theorem meets_beforeCommit (hw : Fresh q w) (hrst : Restores w previousValues) :
    Meets w (beforeCommit (parts q) retiringValues previousValues) (fun _ w' => w' = w)
      fun e w' => Leaving q w' (.error e) := by
  refine .tryCatch (meets_staging retiringValues previousValues hw) ?_
  rintro e _ _ ⟨hhon, failed, delivered, rfl⟩
  exact (meets_undo hw hrst hhon).mono (fun _ _ _ h => h.elim) fun _ _ _ h => h

theorem meets_notCommitted (hw : Fresh q w) (hrst : Restores w previousValues)
    (unitError : Raised) :
    Meets { w with failed, delivered } (notCommitted (parts q) previousValues unitError
        (delivered.getLast?.map Raised.cancelled))
      (fun _ _ => False) fun e w' => Leaving q w' (.error e) := by
  refine .bind (meets_restore hw.exited hw.idle hrst) ?_
  rintro _ _ _ ⟨restored, rfl⟩
  cases hlast : delivered.getLast? with
  | none =>
    have hnone : delivered = [] := List.getLast?_eq_none_iff.mp hlast
    subst hnone
    refine .bind (.tryCatch (meets_rollbackToCompletion hw.exited hw.idle hw.lock) ?_) ?_
    · rintro e _ _ ⟨hhon, failed', delivered', rfl⟩
      by_cases hcan : e.isCancelled = true
      · rw [if_pos hcan]
        exact .raise (hw.leaving hhon)
      -- the rollback has failed, and nobody has cancelled the request
      rw [if_neg hcan]
      refine .raise (hw.leaving fun id hid => ?_)
      have hkind := hhon id hid
      unfold Raised.isCancelled at hcan
      rw [hkind] at hcan
      exact absurd rfl hcan
    · rintro _ _ _ ⟨failed', rfl⟩
      exact .raise (hw.leaving fun id hid => nomatch hid)
  | some id =>
    refine .seq (meets_rollbackToCompletion hw.exited hw.idle hw.lock) ?_ ?_
    · rintro e' _ _ ⟨hhon', failed', delivered', rfl⟩
      exact hw.leaving hhon'
    · rintro _ _ _ ⟨failed', rfl⟩
      refine .raise (hw.leaving fun id' hid' => ?_)
      have hsame : some id = some id' := hlast.symm.trans hid'
      rw [Option.some.inj hsame]
      rfl

theorem meets_callback (hexit : w.exited = none) (hidle : w.inFlight = none) :
    Meets w (callback (parts q)) (fun _ w' =>
      w' = { w with callbacks := w.callbacks + if q.onCommitted then 1 else 0 }) E := by
  have hinv : ∀ callbacks, boundary.Inv { w with callbacks } := by
    intro callbacks
    refine inv_of_running hexit ⟨fun hne => absurd hidle hne, fun hunit => ?_⟩
    exact nomatch hidle.symm.trans hunit
  unfold callback parts
  cases q.onCommitted with
  | false => exact .pure rfl
  | true =>
    refine .bind (Q := fun _ _ w' => w' = { w with callbacks := w.callbacks + 1 })
      (.attempt (meets_orRaise (meets_perform .onCommitted ?_))) ?_
    · intro c r w' _ hexec _
      change called c { w with callbacks := w.callbacks + 1 } = some (r, w') at hexec
      unfold called at hexec
      split at hexec
      · cases hexec
        exact ⟨hinv _, rfl⟩
      · cases hexec
        exact ⟨hinv _, rfl⟩
      · exact nomatch hexec
    · intro r _ w' hw'
      cases r with
      | ok _ | error e => exact .pure hw'

section

variable (hw : Fresh q w)
include hw

theorem meets_committed {redaction : RedactionSnapshot} (unitError : Option Raised) :
    Meets { w with failed, delivered, landed := true, redaction }
      (committed (parts q) unitError (delivered.getLast?.map Raised.cancelled))
      (fun _ w' => Leaving q w' (.ok ())) fun e w' => Leaving q w' (.error e) := by
  refine .bind (meets_callback hw.exited hw.idle) ?_
  rintro callbackError _ _ rfl
  have hleav : Leaving q { w with
      failed, delivered, landed := true, redaction
      callbacks := w.callbacks + if q.onCommitted then 1 else 0 }
      (precedence (delivered.getLast?.map Raised.cancelled) unitError callbackError) := by
    refine ⟨hw.exited, hw.idle, fun _ => ⟨?_, hw.restored⟩, nofun, hw.request, fun id hid => ?_⟩
    · change w.callbacks + _ = _
      rw [hw.callbacks, Nat.zero_add]
    · have hlast : delivered.getLast? = some id := hid
      rw [hlast]
      unfold precedence
      cases unitError.or callbackError with
      | none => exact ⟨[], rfl⟩
      | some e => exact ⟨_, rfl⟩
  refine .ofExcept (fun _ hok => ?_) fun e he => ?_
  · rwa [hok] at hleav
  · rwa [he] at hleav

theorem meets_afterCommit {o : Option Raised × Option Raised}
    (hrst : Restores w previousValues) (hfin : Finished w o w') :
    Meets w' (afterCommit (parts q) previousValues o)
      (fun _ w' => Leaving q w' (.ok ())) fun e w' => Leaving q w' (.error e) := by
  obtain ⟨failed, delivered, landed, redaction, hend, hpend, rfl⟩ := hfin
  obtain ⟨unitError, pendingCancel⟩ := o
  obtain rfl := hpend
  rcases hend with ⟨rfl, hsweep⟩ | ⟨rfl, rfl, id, herr⟩
  · cases unitError with
    | none => exact meets_committed hw none
    | some e =>
      have hkind := hsweep e rfl
      simp only [afterCommit, if_pos hkind]
      exact meets_committed hw (some e)
  · obtain rfl : unitError = some { kind := .failure id } := herr
    have hkind : ¬ Kind.failure id = .postCommitSweep := nofun
    have hsame : { w with failed, delivered, landed := false, redaction := w.redaction } =
        { w with failed, delivered } := by rw [← hw.landed]
    rw [hsame]
    exact (meets_notCommitted hw hrst _).mono (fun _ _ _ h => h.elim) fun _ _ _ h => h

theorem meets_preRewrite (hent : w.redaction = w.entry) :
    Meets w (hook (parts q).preRewrite) (fun _ w' => w' = w)
      fun e w' => Leaving q w' (.error e) := by
  unfold parts hook
  cases q.preRewrite with
  | false => exact .pure rfl
  | true =>
    refine meets_orRaise (meets_perform .preRewrite ?_)
    intro c r w' _ hexec _
    exact after_awaited hexec hw.toRunning rfl fun _ _ h => hw.broken hent h

theorem meets_retiring (hent : w.redaction = w.entry) :
    Meets w (retiring (parts q) retiringValues) (fun _ w' => w' = w)
      fun e w' => Leaving q w' (.error e) := by
  unfold parts retiring
  cases q.rereadRetiring with
  | false => exact .pure rfl
  | true =>
    refine meets_orRaise (meets_perform .rereadRetiring ?_)
    intro c r w' _ hexec _
    exact after_awaited hexec hw.toRunning rfl fun _ _ h => hw.broken hent h

theorem meets_widen (hent : w.redaction = w.entry) :
    Meets w (widen (parts q) retiringValues incomingValues)
      (fun previousValues w' => Restores w' previousValues ∧
        ∃ redaction, w' = { w with redaction })
      fun e w' => Leaving q w' (.error e) := by
  unfold widen
  by_cases hnil : retiringValues = ∅ ∧ incomingValues = ∅
  · rw [if_pos hnil]
    exact .pure ⟨⟨fun _ => hent, nofun⟩, w.redaction, rfl⟩
  rw [if_neg hnil]
  refine .bind (Q := fun _ _ w' => w' = w) (meets_orRaise (meets_perform .secretValues ?_)) ?_
  · intro c r w' _ hexec _
    exact after_awaited hexec hw.toRunning rfl fun _ _ h => hw.broken hent h
  intro secretValues _ w₁ hw₁
  rw [hw₁]
  refine .bind (Q := fun values _ w' => values = w.redaction.secretValues ∧
    ∃ redaction, w' = { w with redaction }) (meets_perform (.beginSecretRotation
    (secretValues ∪ retiringValues ∪ incomingValues) retiringValues) ?_) ?_
  · intro c values w' _ hexec _
    cases hexec
    refine ⟨?_, rfl, _, rfl⟩
    refine inv_of_running hw.exited ⟨fun hne => absurd hw.idle hne, fun hunit => ?_⟩
    exact nomatch hw.idle.symm.trans hunit
  · rintro values _ _ ⟨rfl, redaction, rfl⟩
    refine .pure ⟨⟨nofun, fun values hvals => ?_⟩, redaction, rfl⟩
    cases hvals
    rw [hent]

theorem meets_underLock (hhold : w.holds = true) (hent : w.redaction = w.entry) :
    Meets w (underLock (parts q) retiringValues incomingValues)
      (fun _ w' => Leaving q w' (.ok ())) fun e w' => Leaving q w' (.error e) := by
  refine .seq (meets_rollbackToCompletion hw.exited hw.idle hw.lock)
    (fun _ _ _ h => hw.broken hent h) ?_
  rintro _ _ _ ⟨failed, rfl⟩
  have hw : Fresh q { w with failed } :=
    ⟨⟨hw.exited, hw.idle, hw.uncancelled⟩, hw.request, hw.landed, hw.callbacks, hw.restored,
      hw.lock⟩
  generalize hw₁ : { w with failed } = w₁ at hw
  have hhold : w₁.holds = true := by rw [← hw₁]; exact hhold
  have hent : w₁.redaction = w₁.entry := by rw [← hw₁]; exact hent
  refine .bind (meets_preRewrite hw hent) ?_
  intro _ _ w₂ hw₂
  rw [hw₂]
  refine .bind (meets_retiring retiringValues hw hent) ?_
  intro retiringValues _ w₃ hw₃
  rw [hw₃]
  refine .bind (meets_widen retiringValues incomingValues hw hent) ?_
  rintro previousValues _ _ ⟨hrst, redaction, rfl⟩
  have hw : Fresh q { w₁ with redaction } :=
    ⟨⟨hw.exited, hw.idle, hw.uncancelled⟩, hw.request, hw.landed, hw.callbacks, hw.restored,
      hw.lock⟩
  refine .bind (meets_beforeCommit retiringValues hw hrst) ?_
  intro _ _ w₄ hw₄
  rw [hw₄]
  refine .bind (meets_commitUnit hw.toRunning hhold hw.landed retiringValues previousValues) ?_
  intro o _ w₅ hfin
  exact meets_afterCommit hw hrst hfin

theorem meets_secretRotation (hhold : w.holds = false) (hent : w.redaction = w.entry) :
    Meets w (secretRotation (parts q) retiringValues incomingValues)
      (fun _ w' => Leaving q w' (.ok ()) ∧ w'.holds = false)
      fun e w' => Leaving q w' (.error e) ∧ w'.holds = false := by
  have hbrk : ∀ e w', Broken w e w' → Leaving q w' (.error e) ∧ w'.holds = false := by
    intro e w' h
    refine ⟨hw.broken hent h, ?_⟩
    obtain ⟨-, failed, delivered, rfl⟩ := h
    exact hhold
  refine .seq (meets_rollbackToCompletion hw.exited hw.idle hw.lock)
    (fun e _ w' h => hbrk e w' h) ?_
  rintro _ _ _ ⟨failed, rfl⟩
  -- the handler is as others have left it when the lock is taken
  refine .bind (Q := fun _ _ w' => ∃ others,
    w' = { w with failed, holds := true, taken := true, redaction := others, entry := others })
    (meets_orRaise (meets_perform .acquire ?_)) ?_
  · intro c r w' _ hexec _
    have hrun : Running { w with failed } := ⟨hw.exited, hw.idle, hw.uncancelled⟩
    refine after_waited (Q := fun _ w' => ∃ others,
      w' = { w with failed, holds := true, taken := true, redaction := others, entry := others })
      hexec hrun ?_ ⟨c.others, rfl⟩ fun e w' h => hbrk e w' h.trans
    exact inv_of_running hw.exited ⟨fun _ _ => rfl, fun _ => rfl⟩
  · rintro _ _ _ ⟨others, rfl⟩
    have hrel : ∀ (outcome : Except Raised Unit) (w' : World), Leaving q w' outcome →
        Meets w' (parts q).release (fun _ w' => Leaving q w' outcome ∧ w'.holds = false)
          fun e w' => Leaving q w' (.error e) ∧ w'.holds = false := by
      intro outcome w' h
      refine meets_perform .release ?_
      intro c a w'' _ hexec _
      cases hexec
      refine ⟨inv_of_running h.exited ⟨fun hne => absurd h.idle hne, fun hunit => ?_⟩,
        ⟨h.exited, h.idle, h.committed, h.undone, h.request, h.cancelled⟩, rfl⟩
      exact nomatch h.idle.symm.trans hunit
    refine .andFinally (meets_underLock retiringValues incomingValues
      ⟨⟨hw.exited, hw.idle, hw.uncancelled⟩, hw.request, hw.landed, hw.callbacks, hw.restored,
        fun _ => rfl⟩ rfl rfl) ?_ ?_
    · exact fun _ _ w' h => hrel (.ok ()) w' h
    · exact fun e _ w' h => hrel (.error e) w' h

end

end Boundary

/-! ### Runs -/

theorem meets_serve (w : World) : Meets w serve (fun _ _ => True) fun _ _ => True := by
  refine .bind (meets_perform .enter (Q := fun q w' => Fresh q w' ∧
    w'.holds = false ∧ w'.redaction = w'.entry) ?_) ?_
  · intro c a w' _ hexec _
    cases hexec
    exact ⟨inv_of_running rfl ⟨nofun, nofun⟩, ⟨⟨rfl, rfl, rfl⟩, rfl, rfl, rfl, rfl, nofun⟩,
      rfl, rfl⟩
  rintro q _ w' ⟨hw, hhold, hent⟩
  refine .bind (Q := fun outcome _ w' => Leaving q w' outcome ∧ w'.holds = false)
    (.attempt (meets_secretRotation q.retiringValues q.incomingValues hw hhold hent)) ?_
  rintro outcome _ w₁ ⟨hleav, hhold₁⟩
  refine meets_perform (.exit outcome) ?_
  intro c a w₂ _ hexec _
  cases hexec
  refine ⟨⟨⟨fun hne => absurd hleav.idle hne, fun hunit => ?_⟩, ?_⟩, trivial⟩
  · exact nomatch hleav.idle.symm.trans hunit
  · intro outcome' hout
    cases hout
    refine ⟨fun hland => ?_, hleav.undone, ⟨hleav.idle, hhold₁⟩, hleav.cancelled⟩
    have hcom := hleav.committed hland
    refine ⟨?_, hcom.2⟩
    rw [hleav.request]
    exact hcom.1

theorem keepsUnder_boundary : KeepsUnder machine terms boundary where
  main w _ _ := by
    refine Safe.bind (serve ()) _ w (meets_serve w) fun _ _ _ => ?_
    trivial
  boot _ h _ := h
  event e := nomatch e
  stutter _ := trivial

def idle (redaction : RedactionSnapshot) : Server where
  world := { redaction }
  running := none

/-- In every run on the terms, a task is under way only while the lock is held, once it has
    been taken, and every request that has left the boundary has left it as it should. -/
theorem rotation_all_or_nothing (redaction : RedactionSnapshot) (as : List (Action Choice Empty))
    (t : Server) (hmeet : StepsMeet machine.step terms.Meets (idle redaction) as)
    (hrun : run machine.step (idle redaction) as = some t) :
    Discipline t.world ∧ ∀ outcome, t.world.exited = some outcome →
      AllOrNothing t.world outcome := by
  have hidle : boundary.Inv (idle redaction).world :=
    inv_of_running rfl ⟨fun hne => absurd rfl hne, nofun⟩
  exact (keepsUnder_boundary.run (.of_rest hidle rfl) hmeet hrun).1

/-- Whether a step is on the terms can be computed. -/
instance (op : Op) (c : Choice) (w : World) : Decidable (terms.call op c w) :=
  match op with
  | .settled => inferInstanceAs (Decidable
      (w.inFlight = some .rollback → w.failed = true → w.delivered ≠ [] → c.delivered ≠ []))
  | .abortSecretRotation _ => inferInstanceAs (Decidable (w.entry.retiringValues = ∅))
  | .enter | .launch _ | .rollback | .commit | .acquire | .release | .preRewrite | .rereadRetiring
  | .secretValues | .currentValues | .beginSecretRotation _ _ | .completeSecretRotation _ _ _
  | .rewriteRedactableFields _ | .body | .cancellationCheckpoint | .onCommitted | .exit _ =>
      .isTrue trivial

instance (w : World) : Decidable (terms.start w) := .isTrue trivial

instance (e : Empty) (w : World) : Decidable (terms.event e w) := .isTrue trivial

/-- A request that replaces one value by another, and some steps of it. -/
def replacing (steps : Nat) : List (Action Choice Empty) :=
  [.start, .advance { request :=
    { retiringValues := {"old"}, incomingValues := {"new"}, onCommitted := true } }] ++
    List.replicate steps (.advance {})

/-- The request is cancelled while the task that commits is under way. -/
def cancelledRun : List (Action Choice Empty) :=
  replacing 16 ++ [.advance { delivered := [1] }] ++ List.replicate 3 (.advance {})

/-- The commit lands, and the cancellation is what is raised. -/
theorem rotation_all_or_nothing_cancelled :
    ∃ t outcome, run machine.step (idle {}) cancelledRun = some t ∧
      t.world.landed = true ∧ t.world.delivered = [1] ∧ t.world.exited = some outcome ∧
      AllOrNothing t.world outcome := by
  have hends : ((run machine.step (idle {}) cancelledRun).any fun t =>
      t.world.landed && decide (t.world.delivered = [1]) && t.world.exited.isSome) = true := by
    decide +kernel
  rcases Option.any_eq_true .. |>.mp hends with ⟨t, ht, hfld⟩
  rcases Bool.and_eq_true .. |>.mp hfld with ⟨hboth, hexit⟩
  rcases Bool.and_eq_true .. |>.mp hboth with ⟨hland, hdel⟩
  rcases Option.isSome_iff_exists.mp hexit with ⟨outcome, hout⟩
  have hrun := rotation_all_or_nothing {} cancelledRun t (by decide +kernel) ht
  exact ⟨t, outcome, ht, hland, of_decide_eq_true hdel, hout, hrun.2 outcome hout⟩

/-- The body is cancelled, and the rollback that follows fails. -/
def lostCancellation : List (Action Choice Empty) :=
  replacing 10 ++ [.advance { outcome := .cancelled 1 }] ++ List.replicate 2 (.advance {}) ++
    [.advance { outcome := .fails 2 }] ++ List.replicate 3 (.advance {})

/-- The sweep of an earlier rotation has failed, so that its value is masked as retiring
    when the lock is taken. Then the body fails. -/
def lostRetiring : List (Action Choice Empty) :=
  replacing 3 ++ [.advance { others := { secretValues := {"old"}, retiringValues := {"gone"} } }] ++
    List.replicate 6 (.advance {}) ++ [.advance { outcome := .fails 1 }] ++
    List.replicate 6 (.advance {})

/-- A boundary need not be left as it should: the failure of a rollback takes the place of
    the cancellation, and what an earlier rotation has left masked as retiring is not
    restored. -/
theorem rotation_not_all_or_nothing :
    (∃ t, run machine.step (idle {}) lostCancellation = some t ∧
      t.world.exited = some (.error { kind := .failure 2 }) ∧
      ¬ AllOrNothing t.world (.error { kind := .failure 2 })) ∧
    ∃ t, run machine.step (idle {}) lostRetiring = some t ∧
      t.world.exited = some (.error { kind := .failure 1 }) ∧
      ¬ AllOrNothing t.world (.error { kind := .failure 1 }) := by
  constructor
  · refine exists_run (P := fun t => t.world.exited = some (.error { kind := .failure 2 }) ∧
      t.world.delivered = [1]) (by decide +kernel) ?_
    rintro t - ⟨hexit, hdel⟩
    refine ⟨hexit, fun h => ?_⟩
    have hlast : t.world.delivered.getLast? = some 1 := by
      rw [hdel]
      rfl
    obtain ⟨causes, hout⟩ := h.cancelled 1 hlast
    exact nomatch hout
  · refine exists_run (P := fun t => t.world.exited = some (.error { kind := .failure 1 }) ∧
      t.world.landed = false ∧ t.world.redaction ≠ t.world.entry) (by decide +kernel) ?_
    rintro t - ⟨hexit, hland, hdiffers⟩
    exact ⟨hexit, fun h => hdiffers (h.undone hland).2⟩

end SecretRotation

end PlexManager
