import PlexManager.Theory.Updater.Iteration

/-!
# The cutover survives crashes

Whatever requests fail and wherever the sidecar dies, and however often it is
started again, the container an operation set out to replace goes only once the
coordinator has acknowledged the outcome of that operation and a replacement
stands: under the configured name, with the image and the labels of the
operation, and found healthy by the run that removes. And where the record is
cleared, the name is held by the target, with nothing touched, or by such a
replacement.

## Theorems

* `cutover_safe`: What is removed, and what holds the name when the record goes.
-/

namespace PlexManager

namespace Updater

open Coordinator Effects

/-- Nothing is on file and nothing runs; the daemon's ids are its own and no
    label or outcome is of an operation that was not drawn; every drain is held
    under a token that was issued. -/
structure Initial (s : System UpdaterOp UpdaterOp.Answer World) : Prop where
  idle : s.running = none
  file : s.world.host.file = none
  host : HostOk s.world.host
  sane : s.world.service.Sane

theorem Initial.inv {s : System UpdaterOp UpdaterOp.Answer World} (hs : Initial s) :
    Inv s.world where
  host := hs.host
  record := by
    intro st hst
    rw [hs.file] at hst
    exact nomatch hst
  sane := hs.sane
  settled := by
    intro st hst
    rw [hs.file] at hst
    exact nomatch hst

theorem allowed_of_run {config : UpdaterConfig} {s₀ s t : System UpdaterOp UpdaterOp.Answer World}
    {as : List (Action Choice (Int × CoordinatorOp))} {a : Action Choice (Int × CoordinatorOp)}
    (hinit : Initial s₀) (hrun : Transition.run (machine config).step s₀ as = some s)
    (hstep : (machine config).step s a = some t) :
    Allowed config.imageRef s.world.host t.world.host :=
  (keeps_machine config).guarantee (fun _ h => ⟨h.inv, h.idle⟩) ⟨s₀, as, hinit, hrun⟩ hstep

/-- **The cutover is safe**: in every run, with crashes and failures anywhere, a
    container is removed only under a record on file. It is the record's target
    only where an outcome of the operation is acknowledged and its replacement
    is there and was found healthy; any other is the operation's own. And a
    record is cleared only where the configured name is held by its target, with
    nothing touched, or by such a replacement. -/
theorem cutover_safe (config : UpdaterConfig) (s₀ s t : System UpdaterOp UpdaterOp.Answer World)
    (as : List (Action Choice (Int × CoordinatorOp))) (a : Action Choice (Int × CoordinatorOp))
    (hinit : Initial s₀) (hrun : Transition.run (machine config).step s₀ as = some s)
    (hstep : (machine config).step s a = some t) :
    (∀ c, Removed s.world.host t.world.host c → ∃ st, s.world.host.file = some st ∧
      (c.id = st.targetId ∧ Relieved config.imageRef s.world.host st ∨
        c.id ≠ st.targetId ∧ c.labels.operation = some st.operationId)) ∧
    (∀ st, s.world.host.file = some st → t.world.host.file = none →
      Untouched t.world.host st ∨ Relieved config.imageRef t.world.host st) := by
  have hmay := allowed_of_run hinit hrun hstep
  refine ⟨?_, hmay.cleared⟩
  intro c hc
  rcases hmay.removed c hc with ⟨st, hst, htgt | ⟨hoth, hlab, -⟩⟩
  · exact ⟨st, hst, .inl htgt⟩
  · exact ⟨st, hst, .inr ⟨hoth, hlab⟩⟩

/-! ### A run -/

def sampleConfig : UpdaterConfig := { imageRef := "image", healthRounds := 3, drainRounds := 3 }

def sampleTarget : Container where
  id := 0
  name := .configured
  image := 1
  labels := { target := some "true", imageRef := some "image" }
  networks := []
  running := true
  config := { healthcheck := some "check" }

/-- An update is available and its installation requested. -/
def sampleSystem : System UpdaterOp UpdaterOp.Answer World where
  world :=
    { host := { containers := [sampleTarget], nextContainer := 1, file := none, operations := [] }
      service :=
        { db := { state := { requestedAction := .install, actionGeneration := 1,
                             availableDigest := some "new" }
                  leases := [] }
          clock := 0
          issued := [] } }
  running := none

/-- Everything goes well. -/
def sampleChoice : Choice where
  visit := { now := 1, token := 7 }
  image := { id := 2, digest := "new", healthcheck := some "check" }

/-- The iteration as far as it gets in a number of operations. -/
def sampleActions (n : Nat) : List (Action Choice (Int × CoordinatorOp)) :=
  .start :: List.replicate n (.advance sampleChoice)

theorem initial_sampleSystem : Initial sampleSystem where
  idle := rfl
  file := rfl
  host :=
    { fresh := by decide
      unique := by decide
      labelled := by
        intro c hc operation hop
        rw [List.mem_singleton.mp hc] at hop
        exact nomatch hop
      reported := nofun }
  sane := nofun

/-- The step that removes the target of a successful operation. -/
theorem cutover_safe_success :
    ∃ s t c, Transition.run (machine sampleConfig).step sampleSystem (sampleActions 37) = some s ∧
      (machine sampleConfig).step s (.advance sampleChoice) = some t ∧
      Removed s.world.host t.world.host c ∧
      ∃ st, s.world.host.file = some st ∧ c.id = st.targetId ∧
        Relieved sampleConfig.imageRef s.world.host st := by
  have hend : (Transition.run (machine sampleConfig).step sampleSystem
      (sampleActions 37 ++ [.advance sampleChoice])).map (fun t =>
        t.world.host.containers.map (·.id)) =
        some [1] := by decide +kernel
  rcases Option.map_eq_some_iff.mp hend with ⟨t, ht, hids⟩
  rcases (Transition.run_snoc_eq_some _ _ _ _).mp ht with ⟨s, hs, hstep⟩
  have hbef : (Transition.run (machine sampleConfig).step sampleSystem (sampleActions 37)).map
      (fun s => (s.world.host.containers.find? (·.id == 0),
        s.world.host.file.map (·.targetId))) =
        some (some { sampleTarget with name := .previous 0, running := false }, some 0) := by
    decide +kernel
  rw [hs, Option.map_some, Option.some.injEq, Prod.mk.injEq] at hbef
  have hrem : Removed s.world.host t.world.host
      { sampleTarget with name := .previous 0, running := false } := by
    refine ⟨List.mem_of_find?_eq_some hbef.1, ?_⟩
    intro c hc hid
    have hmem := List.mem_map_of_mem (f := (·.id)) hc
    rw [hids, hid] at hmem
    exact absurd hmem (by decide)
  refine ⟨s, t, _, hs, hstep, hrem, ?_⟩
  rcases (cutover_safe sampleConfig sampleSystem s t _ _ initial_sampleSystem hs hstep).1 _
    hrem with ⟨st, hst, hrel | ⟨hoth, -⟩⟩
  · exact ⟨st, hst, hrel⟩
  · have htgt := hbef.2
    rw [hst] at htgt
    exact absurd (Option.some.inj htgt).symm hoth

end Updater

end PlexManager
