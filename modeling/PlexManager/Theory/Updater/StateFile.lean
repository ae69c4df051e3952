import PlexManager.Core.StateStore
import PlexManager.Theory.Updater.Cutover

/-!
# The record is read back

A file is read back if the record in it is valid: no identifier is empty, the numbers are
in their bounds, and the stage has the containers it needs. What comes back has its
networks and ports in another order, and is the same record for all that.

The texts are never empty, so a record that is saved is valid if its timeout is in bounds
and its stage has its containers. That is what the updater checks of its own record, and
that it holds of whatever is on file is a part of the invariant. A record that is about to
be saved is on file in the next state, so it holds of that record too.

## Main definitions

* `Valid`, `StateRecord.Same`: Records that are read back, and records that are the same.

## Theorems

* `saved_state_loads`: Every record that is ever saved.
-/

namespace PlexManager

namespace Updater

open Coordinator Effects JsonText

/-! ### Dictionaries -/

theorem lookup_eq_some {data : Fields} (hnd : (data.map Prod.fst).Nodup) {key : String}
    {value : Json} : lookup data key = some value ↔ (key, value) ∈ data := by
  constructor
  · intro h
    rcases Option.map_eq_some_iff.mp h with ⟨m, hfind, rfl⟩
    have hkey : m.1 = key := by simpa using List.find?_some hfind
    rw [← hkey]
    exact List.mem_of_find?_eq_some hfind
  · intro h
    cases hfind : data.find? fun m => m.1 = key with
    | none => exact absurd (List.find?_eq_none.mp hfind _ h) (by simp)
    | some m =>
      have hkey : m.1 = key := by simpa using List.find?_some hfind
      have hm : m = (key, value) :=
        List.inj_on_of_nodup_map hnd (List.mem_of_find?_eq_some hfind) h hkey
      rw [lookup, hfind, hm]
      rfl

theorem lookup_byKey {data : Fields} (hnd : (data.map Prod.fst).Nodup) {key : String} {value : Json}
    (h : (key, value) ∈ data) : lookup (byKey (sortMembers data)) key = some (sortKeys value) := by
  have hnd' : ((byKey (sortMembers data)).map Prod.fst).Nodup := by
    have hperm := (perm_byKey (sortMembers data)).map Prod.fst
    rw [keys_sortMembers] at hperm
    exact hperm.nodup_iff.mpr hnd
  refine (lookup_eq_some hnd').mpr ((perm_byKey _).symm.subset ?_)
  rw [sortMembers_eq_map]
  exact List.mem_map.mpr ⟨_, h, rfl⟩

theorem stageOfText_text (stage : UpdateStage) : stageOfText stage.text = some stage := by
  cases stage <;> decide

theorem wellFormed_optional (text : Option String) : WellFormed (optional text) := by
  cases text <;> trivial

theorem nodup_ofPairs (members : Fields) : ((ofPairs members).map Prod.fst).Nodup := by
  have hfold : ∀ (ms front : Fields), (front.map Prod.fst).Nodup →
      ((ms.foldl put front).map Prod.fst).Nodup := by
    intro ms
    induction ms with
    | nil => exact fun front h => h
    | cons m ms ih =>
      intro front h
      refine ih (put front m) ?_
      by_cases hold : (front.any fun m' => m'.1 = m.1) = true
      · have hkeys : (put front m).map Prod.fst = front.map Prod.fst := by
          rw [put, if_pos hold, List.map_map]
          refine List.map_congr_left fun m' _ => ?_
          by_cases hkey : m'.1 = m.1
          · simp [hkey]
          · simp [hkey]
        rw [hkeys]
        exact h
      · rw [put, if_neg hold, List.map_append, List.map_singleton]
        refine List.nodup_append.mpr ⟨h, List.nodup_singleton _, ?_⟩
        intro a ha b hb heq
        rw [List.mem_singleton.mp hb] at heq
        rcases List.mem_map.mp ha with ⟨m', hm', rfl⟩
        exact hold (List.any_eq_true.mpr ⟨m', hm', by simpa using heq⟩)
  exact hfold members [] List.nodup_nil

theorem wellFormed_ofPairs {members : Fields} (h : ∀ m ∈ members, WellFormed m.2) :
    WellFormed (.obj (ofPairs members)) := by
  have hfold : ∀ (ms front : Fields), (∀ m ∈ ms, WellFormed m.2) →
      (∀ m ∈ front, WellFormed m.2) → ∀ m ∈ ms.foldl put front, WellFormed m.2 := by
    intro ms
    induction ms with
    | nil => exact fun front _ hfr => hfr
    | cons m ms ih =>
      intro front hms hfr
      refine ih (put front m) (fun m' hm' => hms m' (List.mem_cons_of_mem m hm')) ?_
      have hm : WellFormed m.2 := hms m List.mem_cons_self
      intro m' hm'
      by_cases hold : (front.any fun m' => m'.1 = m.1) = true
      · rw [put, if_pos hold] at hm'
        rcases List.mem_map.mp hm' with ⟨m'', hm'', rfl⟩
        split
        · exact hm
        · exact hfr m'' hm''
      · rw [put, if_neg hold] at hm'
        rcases List.mem_append.mp hm' with hmem | hmem
        · exact hfr m' hmem
        · rw [List.mem_singleton.mp hmem]
          exact hm
  exact ⟨nodup_ofPairs members,
    (wellFormedMembers_iff _).mpr (hfold members [] h fun _ hm => nomatch hm)⟩

/-! ### Records that are read back -/

variable (r : StateRecord)

structure Valid : Prop where
  version : r.version = 1
  operation : r.operation = "install"
  identified : r.operationId ≠ "" ∧ r.leaseToken ≠ "" ∧ r.targetId ≠ "" ∧ r.oldImageId ≠ "" ∧
    r.desiredImageId ≠ "" ∧ r.desiredDigest ≠ ""
  generation : 0 ≤ r.actionGeneration
  stopTimeout : 0 ≤ r.stopTimeoutSeconds ∧ r.stopTimeoutSeconds ≤ 300
  candidate : r.stage.needsCandidate = true → r.candidateId.isSome = true
  rollback : r.stage.needsRollback = true → r.rollbackId.isSome = true
  networks : WellFormed (.obj r.networks)
  portBindings : WellFormed (.obj r.portBindings)

def StateRecord.sorted : StateRecord :=
  { r with
    networks := byKey (sortMembers r.networks)
    portBindings := byKey (sortMembers r.portBindings) }

/-- `r == r'`. -/
def StateRecord.Same (r r' : StateRecord) : Prop :=
  { r with networks := [], portBindings := [] } = { r' with networks := [], portBindings := [] } ∧
    JsonText.Same (.obj r.networks) (.obj r'.networks) ∧
    JsonText.Same (.obj r.portBindings) (.obj r'.portBindings)

theorem StateRecord.sorted_same : r.sorted.Same r :=
  ⟨rfl, sortKeys_sortKeys (.obj r.networks), sortKeys_sortKeys (.obj r.portBindings)⟩

section Reading

variable {r : StateRecord} {get : String → Option Json}

theorem requiredText_eq {key text : String} (h : get key = some (sortKeys (.str text)))
    (hne : text ≠ "") : requiredText get key = some text := by
  simp [requiredText, h, sortKeys, textOf, hne]

theorem optionalText_eq {key : String} {text : Option String}
    (h : get key = some (sortKeys (optional text))) : optionalText get key = some text := by
  cases text with
  | none | some text => simp only [optionalText, h, optional, sortKeys]

theorem needed_there {key : String} {text : Option String} {needed : Bool}
    (h : get key = some (sortKeys (optional text))) (hat : needed = true → text.isSome = true) :
    (needed && ((get key).bind textOf).isNone) = false := by
  cases needed with
  | false => rfl
  | true =>
    rcases Option.isSome_iff_exists.mp (hat rfl) with ⟨id, rfl⟩
    rw [h]
    rfl

theorem nodup_asdict (r : StateRecord) : (r.asdict.map Prod.fst).Nodup := by
  simp [StateRecord.asdict]

theorem fromData_asdict (h : Valid r)
    (hget : ∀ key value, (key, value) ∈ r.asdict → get key = some (sortKeys value)) :
    fromData get = .ok r.sorted := by
  rcases h.identified with ⟨hid, htok, htgt, hold, hwant, hdig⟩
  have hall : ∀ m ∈ r.asdict, get m.1 = some (sortKeys m.2) := fun m hm => hget m.1 m.2 hm
  simp only [StateRecord.asdict, List.forall_mem_cons] at hall
  rcases hall with ⟨hver, hid', hoperation, hstg', htok', hgen, htgt', hold',
    holdDigest, holdBuild, hwant', hdig', hdesiredBuild, hnetworks, hports, htime,
    hcandidateId, hrollbackId, hdetail, -⟩
  -- the texts that have to be there, and those that may be
  have hstageText : r.stage.text ≠ "" := by cases r.stage <;> decide
  have h₁ := requiredText_eq hid' hid
  have h₂ := requiredText_eq hstg' hstageText
  have h₃ := requiredText_eq htok' htok
  have h₄ := requiredText_eq htgt' htgt
  have h₅ := requiredText_eq hold' hold
  have h₆ := requiredText_eq hwant' hwant
  have h₇ := requiredText_eq hdig' hdig
  have g₁ := optionalText_eq holdDigest
  have g₂ := optionalText_eq holdBuild
  have g₃ := optionalText_eq hdesiredBuild
  have g₄ := optionalText_eq hcandidateId
  have g₅ := optionalText_eq hrollbackId
  have g₆ := optionalText_eq hdetail
  have hcand := needed_there hcandidateId h.candidate
  have hroll := needed_there hrollbackId h.rollback
  have hstg : checkStage get (byKey (sortMembers r.networks)) (byKey (sortMembers r.portBindings))
      r.actionGeneration r.stopTimeoutSeconds = .ok r.sorted := by
    have hfine : (optionalStrings.find? fun key => (optionalText get key).isNone) = none := by
      simp [optionalStrings, g₁, g₂, g₃, g₄, g₅, g₆]
    have hrec : recordOf get r.stage (byKey (sortMembers r.networks))
        (byKey (sortMembers r.portBindings)) r.actionGeneration r.stopTimeoutSeconds =
          r.sorted := by
      simp only [recordOf, h₁, h₃, h₄, h₅, h₆, h₇, g₁, g₂, g₃, g₄, g₅, g₆, Option.getD_some,
        StateRecord.sorted, ← h.version, ← h.operation]
    simp only [checkStage, h₂, Option.bind_some, stageOfText_text, hfine, hcand, hroll,
      Bool.false_eq_true, if_false, hrec]
  have hrequired : (requiredStrings.any fun key => (requiredText get key).isNone) = false := by
    simp [requiredStrings, h₁, h₂, h₃, h₄, h₅, h₆, h₇]
  have hsup : ((get "version").any isOne) = true ∧
      (get "operation").bind textOf = some "install" := by
    rw [hver, hoperation, h.version, h.operation]
    exact ⟨rfl, rfl⟩
  have hcnt : ((get "action_generation").bind intOf).filter (0 ≤ ·) = some r.actionGeneration := by
    rw [hgen]
    simp [intOf, sortKeys, h.generation]
  have hbnd : (intOf ((get "stop_timeout_seconds").getD (.int 10))).filter
      (fun n => 0 ≤ n ∧ n ≤ 300) = some r.stopTimeoutSeconds := by
    rw [htime]
    simp [intOf, sortKeys, h.stopTimeout]
  have hnets : (get "networks").bind dictOf = some (byKey (sortMembers r.networks)) := by
    rw [hnetworks]
    rfl
  have hbindings : (get "port_bindings").bind dictOf =
    some (byKey (sortMembers r.portBindings)) := by
    rw [hports]
    rfl
  rw [fromData, if_neg (not_not_intro hsup), hrequired, if_neg Bool.false_ne_true, hnets]
  simp only [hcnt, hbindings, hbnd, hstg]

theorem loadText_saveText (h : Valid r) : loadText (saveText r) = .ok r.sorted := by
  have hwell : WellFormed (.obj r.asdict) := by
    refine ⟨nodup_asdict r, (wellFormedMembers_iff _).mpr ?_⟩
    have hwell := wellFormed_optional
    simp only [StateRecord.asdict, List.forall_mem_cons]
    refine ⟨trivial, trivial, trivial, trivial, trivial, trivial, trivial, trivial, hwell _,
      hwell _,
      trivial, trivial, hwell _, h.networks, h.portBindings, trivial, hwell _, hwell _, hwell _, ?_⟩
    exact fun _ hm => nomatch hm
  rw [loadText, saveText, loads_render (wellFormed_sortKeys _ hwell) (by decide)]
  refine fromData_asdict h fun key value hmem => ?_
  exact lookup_byKey (nodup_asdict r) hmem

end Reading

/-! ### The updater's record -/

variable {st : UpdateState}

theorem valid_record (spelling : Spelling) (h : st.fromJson = some st) :
    Valid (spelling.record st) := by
  unfold UpdateState.fromJson at h
  split at h
  · exact nomatch h
  rename_i hbnd
  split at h
  · exact nomatch h
  rename_i hcand
  split at h
  · exact nomatch h
  rename_i hroll
  have hnonemp : ∀ text : Text, text.val ≠ "" := fun text => text.property
  refine ⟨rfl, rfl, ⟨hnonemp _, hnonemp _, hnonemp _, hnonemp _, hnonemp _,
    hnonemp _⟩, Int.natCast_nonneg _, ?_, ?_, ?_, ?_, (spelling.portBindings _).property⟩
  · have hboth : decide (0 ≤ st.stopTimeoutSeconds) = true ∧
        decide (st.stopTimeoutSeconds ≤ 300) = true := by
      simpa only [Bool.not_eq_true, Bool.not_eq_false', Bool.and_eq_true] using hbnd
    exact ⟨of_decide_eq_true hboth.1, of_decide_eq_true hboth.2⟩
  · intro hneeds
    change st.stage.needsCandidate = true at hneeds
    change (st.candidateId.map _).isSome = true
    rw [hneeds, Bool.true_and] at hcand
    rw [Option.isSome_map, Option.isSome_iff_ne_none]
    simpa using hcand
  · intro hneeds
    change st.stage.needsRollback = true at hneeds
    change (st.rollbackId.map _).isSome = true
    rw [hneeds, Bool.true_and] at hroll
    rw [Option.isSome_map, Option.isSome_iff_ne_none]
    simpa using hroll
  · refine wellFormed_ofPairs fun m hm => ?_
    rcases List.mem_map.mp hm with ⟨entry, -, rfl⟩
    exact (spelling.endpoint entry.2).property

-- What is about to be saved passes the check: it will be on file.
theorem fromJson_of_save {config : UpdaterConfig} {s₀ s : System UpdaterOp UpdaterOp.Answer World}
    {as : List (Action Choice (Int × CoordinatorOp))} (hinit : Initial s₀)
    (hrun : Transition.run (machine config).step s₀ as = some s)
    {next : UpdaterOp.Answer (.save st) → Program UpdaterOp UpdaterOp.Answer Unit}
    (hsave : s.running = some (.call (.save st) next)) : st.fromJson = some st := by
  have hsound : Sound (machine config) (contract config) s :=
    (keeps_machine config).reachable (fun _ h => ⟨h.inv, h.idle⟩) ⟨s₀, as, hinit, hrun⟩
  have hnext := hsound.2 _ hsave s.world hsound.1 rfl {} ()
    { s.world with host := saveRecord st s.world.host } rfl
  exact (hnext.2.1.record st rfl).loads

/-- In every run, with crashes and failures anywhere, a record that is saved is read back
    as the same record, and its stage has the containers it needs. -/
theorem saved_state_loads (config : UpdaterConfig) (spelling : Spelling)
    (s₀ s : System UpdaterOp UpdaterOp.Answer World)
    (as : List (Action Choice (Int × CoordinatorOp))) (st : UpdateState)
    (next : UpdaterOp.Answer (.save st) → Program UpdaterOp UpdaterOp.Answer Unit)
    (hinit : Initial s₀) (hrun : Transition.run (machine config).step s₀ as = some s)
    (hsave : s.running = some (.call (.save st) next)) :
    (∃ r, loadText (saveText (spelling.record st)) = .ok r ∧ r.Same (spelling.record st)) ∧
      (st.stage.needsCandidate = true → st.candidateId ≠ none) ∧
      (st.stage.needsRollback = true → st.rollbackId ≠ none) := by
  have hval : Valid (spelling.record st) :=
    valid_record spelling (fromJson_of_save hinit hrun hsave)
  refine ⟨⟨_, loadText_saveText hval, StateRecord.sorted_same _⟩, ?_, ?_⟩
  · intro hneeds hnone
    have hsome := hval.candidate hneeds
    rw [Spelling.record, hnone] at hsome
    exact nomatch hsome
  · intro hneeds hnone
    have hsome := hval.rollback hneeds
    rw [Spelling.record, hnone] at hsome
    exact nomatch hsome

/-! ### A run -/

/-- Texts for the numbers of a run. -/
def sampleSpelling : Spelling where
  operation _ := ⟨"0af7651916cd43dd8448eb211c80319c", by decide⟩
  token _ := ⟨"token", by decide⟩
  container _ := ⟨"container", by decide⟩
  image _ := ⟨"sha256:image", by decide⟩
  digest _ := ⟨"sha256:digest", by decide⟩
  endpoint _ := ⟨.obj [], List.nodup_nil, trivial⟩
  portBindings _ := ⟨[], List.nodup_nil, trivial⟩

def savesStage (stage : UpdateStage) (s : System UpdaterOp UpdaterOp.Answer World) : Bool :=
  match s.running with
  | some (.call (.save st) _) => decide (st.stage = stage)
  | _ => false

/-- The record that a run saves when it has made its candidate. -/
theorem saved_state_loads_candidate :
    ∃ s st next, Transition.run (machine sampleConfig).step sampleSystem (sampleActions 18) =
      some s ∧
      s.running = some (.call (.save st) next) ∧ st.stage = .candidateCreated ∧
      (∃ r, loadText (saveText (sampleSpelling.record st)) = .ok r ∧
        r.Same (sampleSpelling.record st)) := by
  have hend : (Transition.run (machine sampleConfig).step sampleSystem
      (sampleActions 18)).any (savesStage .candidateCreated) = true := by decide +kernel
  rcases Option.any_eq_true _ _ |>.mp hend with ⟨s, hs, hsaves⟩
  unfold savesStage at hsaves
  split at hsaves
  · rename_i st next hsave
    exact ⟨s, st, next, hs, hsave, of_decide_eq_true hsaves,
      (saved_state_loads sampleConfig sampleSpelling sampleSystem s _ st next
        initial_sampleSystem hs hsave).1⟩
  · exact nomatch hsaves

end Updater

end PlexManager
