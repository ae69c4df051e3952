import PlexManager.Theory.Updater.Cutover

/-!
# An accepted success is final

Once the coordinator has accepted the success of an operation, whether or not
the sidecar has learnt of it, there is no way back: a record of that operation
stays where the success is reported or recorded, so no rollback of it starts,
and none of its containers is removed for it. A later update is another matter.
The candidate then is the target of that update like any other container, and
goes when that one has succeeded.

## Theorems

* `candidate_outlived`: A later update does remove the candidate.
* `accepted_final`: No rollback, and no removal but by a later update.
-/

namespace PlexManager

namespace Updater

open Coordinator Effects

/-- A container carries the labels an operation gives its candidate. -/
def IsCandidate (imageRef : String) (operation : OperationId) (c : Container) : Prop :=
  c.labels = operationLabels imageRef operation .candidate

variable {operation : OperationId}

theorem Allowed.accepted {imageRef : String} {h h' : Host} (hmay : Allowed imageRef h h')
    (hacc : Accepted h operation) : Accepted h' operation := by
  rcases hacc with ⟨o, ho, hrest⟩
  exact ⟨o, hmay.kept o ho, hrest⟩

theorem accepted_of_run {config : UpdaterConfig} {s t : System UpdaterOp UpdaterOp.Answer World}
    {bs : List (Action Choice (Int × CoordinatorOp))}
    (hsound : Sound (machine config) (contract config) s)
    (hrun : Transition.run (machine config).step s bs = some t)
    (hacc : Accepted s.world.host operation) :
    Sound (machine config) (contract config) t ∧ Accepted t.world.host operation := by
  refine Transition.invariant_of_run (I := fun s => Sound (machine config) (contract config) s ∧
    Accepted s.world.host operation) ?_ s t bs ⟨hsound, hacc⟩ hrun
  rintro s a s' ⟨hs, hacc⟩ hstep
  have hnext := (keeps_machine config).step s s' a hs hstep
  exact ⟨hnext.1, Allowed.accepted hnext.2 hacc⟩

/-- **An accepted success is final**: in every run that goes on from a state in
    which the success of an operation is accepted, no record of that operation
    is ever at a stage of a rollback, and a container of that operation is only
    removed as the target of another operation, whose own outcome is
    acknowledged and whose replacement is there. -/
theorem accepted_final (config : UpdaterConfig) (s₀ s t u : System UpdaterOp UpdaterOp.Answer World)
    (as bs : List (Action Choice (Int × CoordinatorOp))) (a : Action Choice (Int × CoordinatorOp))
    (operation : OperationId) (hinit : Initial s₀)
    (hrun : Transition.run (machine config).step s₀ as = some s)
    (hacc : Accepted s.world.host operation)
    (hlater : Transition.run (machine config).step s bs = some t)
    (hstep : (machine config).step t a = some u) :
    (∀ st, t.world.host.file = some st → st.operationId = operation →
      st.stage.isRollback = false) ∧
    (∀ c, IsCandidate config.imageRef operation c → Removed t.world.host u.world.host c →
      ∃ st, t.world.host.file = some st ∧ st.operationId ≠ operation ∧ c.id = st.targetId ∧
        Relieved config.imageRef t.world.host st) := by
  have hsound := (keeps_machine config).reachable (fun _ h => ⟨h.inv, h.idle⟩) ⟨s₀, as, hinit, hrun⟩
  rcases accepted_of_run hsound hlater hacc with ⟨hsound', hacc'⟩
  have hinv : Inv t.world := hsound'.1
  have hmay : Allowed config.imageRef t.world.host u.world.host :=
    ((keeps_machine config).step t u a hsound' hstep).2
  constructor
  · intro st hst hop
    rcases (hinv.record st hst).accepted (hop ▸ hacc') with hstg | hstg
    · rw [hstg]
      rfl
    · rw [hstg]
      rfl
  · intro c hcand hrem
    have hlab : c.labels.operation = some operation := by
      rw [hcand]
      rfl
    rcases hmay.removed c hrem with ⟨st, hst, ⟨htgt, hrel⟩ | ⟨-, hown, hopen⟩⟩
    · refine ⟨st, hst, ?_, htgt, hrel⟩
      -- The target of a record is not labelled as its operation's own.
      intro hop
      refine (hinv.record st hst).target_foreign c hrem.1 htgt ?_
      rw [hop]
      exact hlab
    · have hop : operation = st.operationId := Option.some.inj (hlab.symm.trans hown)
      exact absurd (hop ▸ hacc') hopen

/-! ### A later update -/

/-- The choices of a second update, to a third image. -/
def laterChoice : Choice where
  visit := { now := 2, token := 8 }
  image := { id := 3, digest := "newer", healthcheck := some "check" }
  operation := ⟨1, 0⟩

/-- After the first update, a check and an installation are asked for, and the
    second gets as far as to remove its target. -/
def laterActions : List (Action Choice (Int × CoordinatorOp)) :=
  List.replicate 3 (.advance sampleChoice) ++ [.event (2, .requestAction .check), .start] ++
    List.replicate 8 (.advance laterChoice) ++ [.event (2, .requestAction .install), .start] ++
    List.replicate 37 (.advance laterChoice)

/-- The candidate of the first update, as the second has set it aside. -/
def laterTarget : Container where
  id := 1
  name := .previous 1
  image := 2
  labels := operationLabels "image" ⟨0, 0⟩ .candidate
  networks := []
  running := false
  config := baseConfig sampleTarget.config

theorem laterUpdate : ∃ s t u,
    Transition.run (machine sampleConfig).step sampleSystem (sampleActions 37) = some s ∧
      Accepted s.world.host ⟨0, 0⟩ ∧
      Transition.run (machine sampleConfig).step s laterActions = some t ∧
      (machine sampleConfig).step t (.advance laterChoice) = some u ∧
      Removed t.world.host u.world.host laterTarget := by
  have hend : (Transition.run (machine sampleConfig).step sampleSystem
      ((sampleActions 37 ++ laterActions) ++ [.advance laterChoice])).map
        (fun u => u.world.host.containers.map (·.id)) = some [2] := by decide +kernel
  rcases Option.map_eq_some_iff.mp hend with ⟨u, hu, hids⟩
  rcases (Transition.run_snoc_eq_some _ _ _ _).mp hu with ⟨t, ht, hstep⟩
  rcases (Transition.run_append_eq_some _ _ _ _).mp ht with ⟨s, hs, hthen⟩
  have hnote : (Transition.run (machine sampleConfig).step sampleSystem (sampleActions 37)).map
      (fun s => s.world.host.outcomes) = some [⟨⟨0, 0⟩, .succeeded, true⟩] := by decide +kernel
  rw [hs, Option.map_some, Option.some.injEq] at hnote
  have hbef : (Transition.run (machine sampleConfig).step sampleSystem
      (sampleActions 37 ++ laterActions)).map
        (fun t => t.world.host.containers.find? (·.id == 1)) = some (some laterTarget) := by
    decide +kernel
  rw [ht, Option.map_some, Option.some.injEq] at hbef
  refine ⟨s, t, u, hs, ⟨⟨⟨0, 0⟩, .succeeded, true⟩, ?_, rfl, rfl, rfl⟩, hthen, hstep,
    List.mem_of_find?_eq_some hbef, ?_⟩
  · rw [hnote]
    exact List.mem_cons_self
  · intro c hc hid
    have hmem := List.mem_map_of_mem (f := (·.id)) hc
    rw [hids, hid] at hmem
    exact absurd hmem (by decide)

/-- That no later iteration removes the candidate of an accepted success would be
    too much: the next update does. -/
theorem candidate_outlived : ¬ ∀ (config : UpdaterConfig)
    (s₀ s t u : System UpdaterOp UpdaterOp.Answer World)
    (as bs : List (Action Choice (Int × CoordinatorOp))) (a : Action Choice (Int × CoordinatorOp))
    (operation : OperationId), Initial s₀ →
    Transition.run (machine config).step s₀ as = some s → Accepted s.world.host operation →
    Transition.run (machine config).step s bs = some t → (machine config).step t a = some u →
    (∀ st, t.world.host.file = some st → st.operationId = operation →
      st.stage.isRollback = false) ∧
    (∀ c, IsCandidate config.imageRef operation c → ¬ Removed t.world.host u.world.host c) := by
  intro hcl
  rcases laterUpdate with ⟨s, t, u, hs, hacc, ht, hu, hrem⟩
  exact (hcl sampleConfig sampleSystem s t u _ _ _ _ initial_sampleSystem hs hacc ht hu).2
    laterTarget rfl hrem

/-- The second update, as `accepted_final` sees it. -/
theorem accepted_final_later : ∃ t u,
    Removed t.world.host u.world.host laterTarget ∧
      (machine sampleConfig).step t (.advance laterChoice) = some u ∧
      ∃ st, t.world.host.file = some st ∧ st.operationId ≠ ⟨0, 0⟩ ∧ laterTarget.id = st.targetId ∧
        Relieved sampleConfig.imageRef t.world.host st := by
  rcases laterUpdate with ⟨s, t, u, hs, hacc, ht, hu, hrem⟩
  exact ⟨t, u, hrem, hu,
    (accepted_final sampleConfig sampleSystem s t u _ _ _ _ initial_sampleSystem hs hacc ht hu).2
      laterTarget rfl hrem⟩

end Updater

end PlexManager
