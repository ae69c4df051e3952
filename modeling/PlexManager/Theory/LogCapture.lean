import PlexManager.Core.LogCapture
import PlexManager.Lib.Transition

/-!
# What becomes of a record

What is scheduled, queued, held by the tick and stored is one line, and a record only moves
towards its front, so the rows of a thread are in the order in which it logged. A record
that leaves the line is counted, unless the tick that holds it is cancelled: no handler for
an `Exception` sees that, and the batch is neither stored nor counted.

## Theorems

* `records_conserved`: Where nothing is cut, a record is in the line once, or counted once.
* `batch_cut`: A record that is neither.
-/

namespace PlexManager

namespace LogCapture

open Transition

variable {ρ κ : Type} {c : Capturing ρ κ} {w w' : World κ} {a : Action ρ}

/-- From the last to be stored to the first: rows, tick, queue, callbacks. -/
def World.line (w : World κ) : List (Emission κ) :=
  w.rows ++ w.tick.held ++ w.queue ++ w.scheduled

def World.keys (w : World κ) : List (Nat × Nat) := w.line.map Emission.key

/-- A thread logs one record after the other. -/
structure Ordered (w : World κ) : Prop where
  below : ∀ k ∈ w.handed, k.2 < w.count k.1
  pending : ∀ t e, w.pending t = some e → e.key = (t, w.count t)
  handed : w.handed.Pairwise fun a b => a.1 = b.1 → a.2 < b.2
  line : w.keys.Sublist w.handed

/-- What has been handed over is in the line or counted, and in one of them once. -/
structure Conserved (w : World κ) : Prop where
  places : (w.keys ++ w.counted).Perm w.handed
  counted : w.droppedCount = w.counted.length

/-- A tick is cancelled in the insert, or in a commit that has not landed. -/
def Cut (w : World κ) : Action ρ → Prop
  | .createMany outcome => outcome = .cancelled ∧ w.tick.held ≠ []
  | .commit outcome landed => outcome = .cancelled ∧ landed = false ∧ w.tick.held ≠ []
  | _ => False

/-! ### One step -/

/-- What a step does to the line and the counter. -/
inductive Effect (w : World κ) (cut : Prop) (w' : World κ) : Prop where
  | moves (hkeys : w'.keys = w.keys) (hcounted : w'.counted = w.counted)
      (hdrop : w'.droppedCount = w.droppedCount)
  | drops (front lost rest : List (Nat × Nat)) (hkeys : w.keys = front ++ lost ++ rest)
      (hkept : w'.keys = front ++ rest) (hcounted : w'.counted = w.counted ++ lost)
      (hdrop : w'.droppedCount = w.droppedCount + lost.length)
  | cuts (hcut : cut) (front lost rest : List (Nat × Nat))
      (hkeys : w.keys = front ++ lost ++ rest) (hkept : w'.keys = front ++ rest)

theorem effect_drop {cut : Prop} (batch : List (Emission κ)) (htick : w.tick.held = batch) :
    Effect w cut (drop { w with tick := .waiting } batch) := by
  refine .drops (w.rows.map Emission.key) (batch.map Emission.key)
    ((w.queue ++ w.scheduled).map Emission.key) ?_ ?_ rfl ?_
  · simp [World.keys, World.line, htick]
  · simp [World.keys, World.line, drop, Tick.held]
  · rw [List.length_map]
    rfl

theorem effect_ended {cut : Prop} (batch : List (Emission κ)) (htick : w.tick.held = batch)
    (hcut : batch ≠ [] → cut) : Effect w cut { w with tick := .ended } := by
  by_cases hnone : batch = []
  · have hend : (Tick.ended : Tick κ).held = [] := rfl
    refine .moves ?_ rfl rfl
    simp [World.keys, World.line, htick, hnone, hend]
  · refine .cuts (hcut hnone) (w.rows.map Emission.key) (batch.map Emission.key)
      ((w.queue ++ w.scheduled).map Emission.key) ?_ ?_
    · simp [World.keys, World.line, htick]
    · simp [World.keys, World.line, Tick.held]

theorem keys_stored (batch : List (Emission κ)) (htick : w.tick.held = batch) (tick : Tick κ)
    (hnone : tick.held = []) : { w with tick, rows := w.rows ++ batch }.keys = w.keys := by
  simp [World.keys, World.line, htick, hnone]

theorem effect_enqueue (e : Emission κ) (rest : List (Emission κ)) {cut : Prop}
    (hsched : w.scheduled = e :: rest) : Effect w cut (enqueue c w e rest) := by
  unfold enqueue
  dsimp only
  split
  · refine .drops ((w.rows ++ w.tick.held ++ w.queue).map Emission.key) [e.key]
      (rest.map Emission.key) ?_ ?_ rfl rfl
    · simp [World.keys, World.line, hsched]
    · simp [World.keys, World.line, drop]
  · refine .moves ?_ rfl rfl
    simp [World.keys, World.line, hsched]

theorem effect_of_step (hstep : step c w a = some w') :
    (∃ thread record, w' = emit c w thread record) ∨
    (∃ thread closed e, w.pending thread = some e ∧ w' = handOver w thread closed e) ∨
    (Effect w (Cut w a) w' ∧ w'.handed = w.handed ∧ w'.count = w.count ∧
      w'.pending = w.pending) := by
  -- Records come in by `emit`, leave their thread, and else only move or are lost.
  cases a with
  | emit thread record =>
    simp only [step] at hstep
    split at hstep
    · exact .inl ⟨thread, record, (Option.some.inj hstep).symm⟩
    · exact nomatch hstep
  | callSoonThreadsafe thread closed =>
    rcases Option.map_eq_some_iff.mp hstep with ⟨e, hpend, rfl⟩
    exact .inr (.inl ⟨thread, closed, e, hpend, rfl⟩)
  | enqueue =>
    simp only [step] at hstep
    split at hstep
    · exact nomatch hstep
    next e rest hsched =>
    cases hstep
    refine .inr (.inr ⟨effect_enqueue e rest hsched, ?_⟩)
    unfold enqueue
    dsimp only
    split
    · exact ⟨rfl, rfl, rfl⟩
    · exact ⟨rfl, rfl, rfl⟩
  | beginSecretRotation | abortSecretRotation | refresh =>
    cases hstep
    exact .inr (.inr ⟨.moves rfl rfl rfl, rfl, rfl, rfl⟩)
  | completeSecretRotation =>
    cases hstep
    refine .inr (.inr ⟨.moves ?_ rfl rfl, rfl, rfl, rfl⟩)
    simp only [World.keys, World.line, List.map_append, List.map_map]
    rfl
  | drainOnce =>
    simp only [step] at hstep
    split at hstep
    · next htick =>
      cases hstep
      refine .inr (.inr ⟨.moves ?_ rfl rfl, rfl, rfl, rfl⟩)
      by_cases hnone : w.queue = []
      · simp [World.keys, World.line, drainOnce, hnone, htick, Tick.held]
      · simp [World.keys, World.line, drainOnce, hnone, htick, Tick.held]
    · exact nomatch hstep
  | createMany outcome =>
    simp only [step] at hstep
    split at hstep
    · next batch htick =>
      have hheld : w.tick.held = batch := by rw [htick, Tick.held]
      cases hstep
      cases outcome with
      | done =>
        refine .inr (.inr ⟨.moves ?_ rfl rfl, rfl, rfl, rfl⟩)
        simp [World.keys, World.line, createMany, htick, Tick.held]
      | failed => exact .inr (.inr ⟨effect_drop batch hheld, rfl, rfl, rfl⟩)
      | cancelled =>
        refine .inr (.inr ⟨effect_ended batch hheld fun hne => ⟨rfl, ?_⟩, rfl, rfl, rfl⟩)
        rw [hheld]
        exact hne
    · exact nomatch hstep
  | commit outcome landed =>
    simp only [step] at hstep
    split at hstep
    · next batch htick =>
      have hheld : w.tick.held = batch := by rw [htick, Tick.held]
      cases hstep
      cases outcome with
      | done => exact .inr (.inr ⟨.moves (keys_stored batch hheld _ rfl) rfl rfl, rfl, rfl, rfl⟩)
      | failed => exact .inr (.inr ⟨effect_drop batch hheld, rfl, rfl, rfl⟩)
      | cancelled =>
        -- A commit that is cancelled may have landed all the same.
        cases landed with
        | true => exact .inr (.inr ⟨.moves (keys_stored batch hheld _ rfl) rfl rfl, rfl, rfl, rfl⟩)
        | false =>
          refine .inr (.inr ⟨effect_ended batch hheld fun hne => ⟨rfl, rfl, ?_⟩, rfl, rfl, rfl⟩)
          rw [hheld]
          exact hne
    · exact nomatch hstep

/-! ### A run -/

theorem Ordered.emit (h : Ordered w) (thread : Nat) (record : ρ) :
    Ordered (LogCapture.emit c w thread record) := by
  unfold LogCapture.emit
  split
  · exact h
  split
  · exact h
  refine ⟨h.below, fun t e he => ?_, h.handed, h.line⟩
  dsimp only at he
  by_cases ht : t = thread
  · subst ht
    rw [Function.update_self] at he
    cases he
    rfl
  · rw [Function.update_of_ne ht] at he
    exact h.pending t e he

theorem keys_handOver (w : World κ) (thread : Nat) (e : Emission κ) :
    (handOver w thread false e).keys = w.keys ++ [e.key] := by
  simp [World.keys, World.line, handOver]

theorem Ordered.handOver (h : Ordered w) {thread : Nat} {e : Emission κ}
    (hpend : w.pending thread = some e) (closed : Bool) :
    Ordered (LogCapture.handOver w thread closed e) := by
  have hkey := h.pending thread e hpend
  let count := Function.update w.count thread (w.count thread + 1)
  have hlow : ∀ k, (k ∈ w.handed ∨ k = e.key) → k.2 < count k.1 := by
    rintro k (hk | rfl)
    · have hlt := h.below k hk
      by_cases ht : k.1 = thread
      · rw [ht] at hlt ⊢
        rw [show count thread = _ from Function.update_self ..]
        omega
      · rw [show count k.1 = _ from Function.update_of_ne ht ..]
        exact hlt
    · rw [hkey, show count thread = _ from Function.update_self ..]
      exact Nat.lt_succ_self _
  have hpending : ∀ t e', Function.update w.pending thread none t = some e' →
      e'.key = (t, count t) := by
    grind [h.pending]
  cases closed with
  | true => exact ⟨fun k hk => hlow k (.inl hk), hpending, h.handed, h.line⟩
  | false =>
    refine ⟨fun k hk => hlow k ?_, hpending, ?_, ?_⟩
    · exact (List.mem_append.mp hk).imp_right List.mem_singleton.mp
    · refine List.pairwise_append.mpr ⟨h.handed, List.pairwise_singleton _ _, fun k hk k' hk' => ?_⟩
      have hlt := h.below k hk
      rw [List.mem_singleton.mp hk', hkey]
      exact fun ht => by rwa [ht] at hlt
    · rw [keys_handOver]
      exact h.line.append_right _

theorem ordered_step (h : Ordered w) (hstep : step c w a = some w') : Ordered w' := by
  rcases effect_of_step hstep with ⟨thread, record, rfl⟩ | ⟨thread, closed, e, hpend, rfl⟩ |
    ⟨heff, hhand, hcount, hpend⟩
  · exact h.emit thread record
  · exact h.handOver hpend closed
  · refine ⟨by rw [hhand, hcount]; exact h.below, by rw [hcount, hpend]; exact h.pending,
      hhand ▸ h.handed, ?_⟩
    rw [hhand]
    cases heff with
    | moves hkeys => exact hkeys ▸ h.line
    | drops front lost rest hkeys hkept | cuts _ front lost rest hkeys hkept =>
      refine List.Sublist.trans ?_ h.line
      rw [hkeys, hkept]
      exact (List.sublist_append_left front lost).append_right rest

theorem conserved_step (h : Conserved w) (hcut : ¬ Cut w a) (hstep : step c w a = some w') :
    Conserved w' := by
  rcases effect_of_step hstep with ⟨thread, record, rfl⟩ | ⟨thread, closed, e, -, rfl⟩ |
    ⟨heff, hhand, -, -⟩
  · unfold LogCapture.emit
    split
    · exact h
    split
    · exact h
    · exact ⟨h.places, h.counted⟩
  · cases closed with
    | true => exact ⟨h.places, h.counted⟩
    | false =>
      refine ⟨?_, h.counted⟩
      rw [keys_handOver, List.append_assoc]
      exact ((List.perm_append_comm.append_left _).trans (List.append_assoc .. ▸ .refl _)).trans
        (h.places.append_right [e.key])
  · cases heff with
    | moves hkeys hcnt hdrop =>
      exact ⟨by rw [hkeys, hcnt, hhand]; exact h.places, by rw [hdrop, hcnt, h.counted]⟩
    | drops front lost rest hkeys hkept hcnt hdrop =>
      refine ⟨?_, by rw [hdrop, hcnt, h.counted, List.length_append]⟩
      rw [hhand, hkept, hcnt]
      refine List.Perm.trans ?_ h.places
      rw [hkeys]
      grind
    | cuts hcut' => exact absurd hcut' hcut

theorem ordered_run {as : List (Action ρ)} (hrun : run (step c) {} as = some w) : Ordered w := by
  refine invariant_of_run (fun _ _ _ => ordered_step) {} w as ⟨?_, ?_, ?_, ?_⟩ hrun
  · exact fun k hk => absurd hk List.not_mem_nil
  · exact fun t e he => nomatch he
  · exact List.Pairwise.nil
  · exact List.Sublist.refl []

/-- In every run, the rows of a thread are in the order in which it logged, and no record is
    handed over twice. Where no tick is cut, each is stored, held, queued, scheduled or
    counted, and only one of them, and only once. -/
theorem records_conserved (c : Capturing ρ κ) (as : List (Action ρ)) (w : World κ)
    (hrun : run (step c) {} as = some w) :
    (∀ t, ((w.rows.filter (·.thread = t)).map (·.index)).Pairwise (· < ·)) ∧ w.handed.Nodup ∧
    (StepsMeet (step c) (fun w a => ¬ Cut w a) {} as →
      ((w.rows ++ w.tick.held ++ w.queue ++ w.scheduled).map Emission.key ++ w.counted).Perm
        w.handed ∧ w.droppedCount = w.counted.length) := by
  have hord := ordered_run hrun
  refine ⟨fun t => ?_, ?_, fun hmeet => ?_⟩
  -- The rows are the front of the line.
  · have hrows : (w.rows.map Emission.key).Sublist w.handed := by
      refine List.Sublist.trans (List.Sublist.map _ ?_) hord.line
      exact ((List.sublist_append_left _ _).trans (List.sublist_append_left _ _)).trans
        (List.sublist_append_left _ _)
    have hpair := List.pairwise_map.mp (hord.handed.sublist hrows)
    refine List.pairwise_map.mpr (List.Pairwise.imp_of_mem ?_ (hpair.filter _))
    intro e e' he he' hlt
    exact hlt ((of_decide_eq_true (List.mem_filter.mp he).2).trans
      (of_decide_eq_true (List.mem_filter.mp he').2).symm)
  · refine hord.handed.imp fun hlt heq => ?_
    subst heq
    exact Nat.lt_irrefl _ (hlt rfl)
  · have hcons : Conserved w :=
      invariant_of_meeting_run (fun _ _ _ h hcut => conserved_step h hcut) {} w as ⟨.nil, rfl⟩
        hmeet hrun
    exact ⟨hcons.places, hcons.counted⟩

def plain : Capturing Int Unit where
  levelno := id
  capture _ _ := some ⟨0, "INFO", "plex_manager", "started", ()⟩
  redactRetiredLogMessage message _ _ := message
  redactRetiredLogContext _ _ _ := ()
  queueMaxsize := 1

/-- A record that is inserted, but not committed yet. -/
def inserted : List (Action Int) :=
  [.emit 0 info, .callSoonThreadsafe 0 false, .enqueue, .drainOnce, .createMany .done]

theorem records_conserved_stored :
    ∃ w, run (step plain) {} (inserted ++ [.commit .done true]) = some w ∧
      w.rows.map Emission.key = [(0, 0)] ∧ w.rows.length + w.droppedCount = w.handed.length := by
  refine ⟨_, rfl, rfl, ?_⟩
  have hmeet : StepsMeet (step plain) (fun w a => ¬ Cut w a) {}
      (inserted ++ [.commit .done true]) :=
    (stepsMeet_of_mem (P := fun a => ∀ w : World Unit, ¬ Cut w a) _ _
      (by simp [inserted, Cut])).mono fun w _ h => h w
  have hplaces := (records_conserved plain _ _ rfl).2.2 hmeet
  rw [hplaces.2, ← hplaces.1.length_eq]
  rfl

/-- A tick that is cancelled in its commit leaves a record nowhere. -/
theorem batch_cut :
    ∃ w, run (step plain) {} (inserted ++ [.commit .cancelled false]) = some w ∧
      w.handed = [(0, 0)] ∧ w.rows ++ w.tick.held ++ w.queue ++ w.scheduled = [] ∧
      w.counted = [] ∧ w.droppedCount = 0 := ⟨_, rfl, rfl, rfl, rfl, rfl⟩

end LogCapture

end PlexManager
