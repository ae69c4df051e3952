import PlexManager.Theory.Updater.Invariant

/-!
# What one operation of the updater does

One specification for each operation: from which records it may be asked for,
what it leaves, and that it keeps the contract. The methods of the runner are
proved from these alone; nothing after this module opens an operation.

Operations on the daemon come in three kinds. An inspection leaves everything
but what is known about health; a change of one container, whichever it is,
leaves every identity alone; creating and removing do what they say. Where such
a request fails, its effect may have happened or not.
-/

namespace PlexManager

namespace Updater

open Coordinator Effects

variable {config : UpdaterConfig} {σ α : Type}

variable {w w' : World} {choice : Choice} {E : Failure → σ → Host → Prop} {h' : Host}
  {op : UpdaterOp} {r : Except Failure α} {ref : ContainerRef} {endpoint : Endpoint α} {s : Service}
  {Q : α → Prop} {operation : OperationId} {body : UpdateOutcomeRequest}

variable {h : Host}

theorem Runs.request (heq : op.Answer = Except Failure α) {st : σ}
    {Q : α → σ → Host → Prop}
    (hop : ∀ w c r w', Inv w → w.host = h → exec op c w = some (r, w') →
      Allowed config.imageRef h w'.host ∧ Inv w' ∧
        (∀ a, (heq ▸ r : Except Failure α) = .ok a → Q a st w'.host) ∧
        (∀ e, (heq ▸ r : Except Failure α) = .error e → E e st w'.host)) :
    Runs config st h (Updater.request op heq) Q E := by
  refine .bind (Q := fun (r : op.Answer) st' h' => st' = st ∧
    (∀ a, (heq ▸ r : Except Failure α) = .ok a → Q a st h') ∧
    (∀ e, (heq ▸ r : Except Failure α) = .error e → E e st h')) ?_ ?_
  · refine .perform fun w c r w' hinv hview hexec => ?_
    rcases hop w c r w' hinv hview hexec with ⟨hmay, hinv', hok, herr⟩
    exact ⟨hmay, hinv', rfl, hok, herr⟩
  · rintro r st' h' ⟨rfl, hok, herr⟩
    exact .ofExcept hok herr

/-! ### The daemon -/

-- A request to the daemon fails with nothing done, or has its effect and may fail all the
-- same.
theorem engine_step {effect : Host → Except Failure (α × Host)}
    (hexec : onHost w (engineCall choice w.host effect) = some (r, w')) :
    (w' = w ∧ ∃ e, r = .error e) ∨
      ∃ a h', effect w.host = .ok (a, h') ∧ w' = { w with host := h' } ∧
        (r = .ok a ∨ ∃ e, r = .error e) := by
  rcases hexec with ⟨rfl, rfl⟩
  cases heff : effect w.host with
  | error e =>
    refine .inl ?_
    cases hfault : choice.fault with
    | _ => exact ⟨by simp [engineCall, hfault, heff], _, by simp [engineCall, hfault, heff]; rfl⟩
  | ok result =>
    rcases result with ⟨a, h'⟩
    cases hfault : choice.fault with
    | lost =>
      exact .inl ⟨by simp [engineCall, hfault], _, by simp [engineCall, hfault]; rfl⟩
    | none =>
      exact .inr ⟨a, h', rfl, by simp [engineCall, hfault, heff],
        .inl (by simp [engineCall, hfault, heff])⟩
    | _ =>
      exact .inr ⟨a, h', rfl, by simp [engineCall, hfault, heff],
        .inr ⟨_, by simp [engineCall, hfault, heff]; rfl⟩⟩

abbrev Unmoved (st : σ) (h : Host) : α → σ → Host → Prop := fun _ st' h' => st' = st ∧ h' = h

abbrev Tells (config : UpdaterConfig) (st : σ) (h : Host) (x : UpdaterM σ α) (Q : α → Prop) :
    Prop :=
  Runs config st h x (fun a st' h' => st' = st ∧ h' = h ∧ Q a) (Unmoved st h)

theorem runs_look (heq : op.Answer = Except Failure α) {st : σ}
    (hop : ∀ w c r w', exec op c w = some (r, w') → w' = w ∧
      ∀ a, (heq ▸ r : Except Failure α) = .ok a → Q a) :
    Tells config st h (Updater.request op heq) Q := by
  refine Runs.request heq fun w c r w' hinv hw hexec => ?_
  rcases hop w c r w' hexec with ⟨rfl, hok⟩
  subst hw
  exact ⟨allowed_refl _ _, hinv, fun a ha => ⟨rfl, rfl, hok a ha⟩, fun _ _ => ⟨rfl, rfl⟩⟩

theorem look_of_engine {value : Host → α}
    (hexec : onHost w (engineCall choice w.host fun h => .ok (value h, h)) = some (r, w')) :
    w' = w ∧ ∀ a, r = .ok a → a = value w.host := by
  rcases engine_step hexec with ⟨rfl, e, rfl⟩ | ⟨a, h', heff, rfl, hr⟩
  · exact ⟨rfl, nofun⟩
  simp only [Except.ok.injEq, Prod.mk.injEq] at heff
  rcases heff with ⟨rfl, rfl⟩
  refine ⟨rfl, ?_⟩
  intro b hb
  rcases hr with rfl | ⟨e, rfl⟩
  · exact (Except.ok.inj hb).symm
  · exact nomatch hb

variable (st : σ)

theorem runs_inspectImage (h : Host) (image : ImageId) :
    Tells config st h (inspectImage image) (·.id = image) := by
  refine runs_look rfl fun w c r w' hexec => ?_
  rcases look_of_engine hexec with ⟨hw, hr⟩
  exact ⟨hw, fun a ha => by rw [hr a ha]⟩

theorem runs_pull (h : Host) : Tells config st h (Updater.request .pull rfl) fun _ => True := by
  refine runs_look rfl fun w c r w' hexec => ?_
  exact ⟨(look_of_engine hexec).1, fun _ _ => trivial⟩

theorem runs_multiNetworkCreate (h : Host) :
    Tells config st h multiNetworkCreate fun _ => True := by
  refine runs_look rfl fun w c r w' hexec => ?_
  exact ⟨(look_of_engine hexec).1, fun _ _ => trivial⟩

theorem runs_containersByLabels (h : Host) (operation : OperationId) (role : Role) :
    Tells config st h (Updater.request (.containersByLabels operation role) rfl) fun _ => True := by
  refine runs_look rfl fun w c r w' hexec => ?_
  exact ⟨(look_of_engine hexec).1, fun _ _ => trivial⟩

/-- The container an inspection finds, and how it was asked for. -/
def Matches : ContainerRef → Container → Prop
  | .name name, c => c.name = name
  | .id id, c => c.id = id

theorem inspect_step {answer : Except Failure Inspection}
    (hcall : engineCall choice w.host (inspectEffect ref choice) = (answer, h')) :
    h' = w.host ∧ ∀ seen, answer = .ok seen →
      seen.container ∈ w.host.containers ∧ Matches ref seen.container := by
  have hstep : onHost w (engineCall choice w.host (inspectEffect ref choice)) =
      some (answer, { w with host := h' }) := by rw [hcall]; rfl
  rcases engine_step hstep with ⟨hsame, e, rfl⟩ | ⟨seen, h'', heff, hsame, hr⟩
  · exact ⟨congrArg World.host hsame, fun _ h => nomatch h⟩
  unfold inspectEffect at heff
  split at heff
  · rename_i found hfind
    rcases heff with ⟨rfl, rfl⟩
    refine ⟨congrArg World.host hsame, ?_⟩
    intro seen hseen
    rcases hr with rfl | ⟨e, rfl⟩
    · obtain rfl := Except.ok.inj hseen
      cases ref with
      | name name =>
        exact ⟨List.mem_of_find?_eq_some hfind, by simpa [Matches] using List.find?_some hfind⟩
      | id id =>
        exact ⟨List.mem_of_find?_eq_some hfind, by simpa [Matches] using List.find?_some hfind⟩
    · exact nomatch hseen
  · exact nomatch heff

theorem exec_inspect {r : Except Failure Inspection}
    (hexec : exec (.inspectContainer ref) choice w = some (r, w')) :
    ∃ h', w' = { w with host := h' } ∧ Seen w.host h' ∧ ∀ seen, r = .ok seen →
      seen.container ∈ w.host.containers ∧ Matches ref seen.container ∧
        (seen.health = .healthy → seen.container.id ∈ h'.observed) := by
  replace hexec : onHost w (noteHealth (engineCall choice w.host (inspectEffect ref choice))) =
    some (r, w') := hexec
  generalize hcall : engineCall choice w.host (inspectEffect ref choice) = result at hexec
  rcases result with ⟨answer, h'⟩
  rcases inspect_step hcall with ⟨rfl, hgot⟩
  cases answer with
  | error e =>
    rcases hexec with ⟨rfl, rfl⟩
    exact ⟨w.host, rfl, Seen.refl _, fun _ h => nomatch h⟩
  | ok seen =>
    simp only [noteHealth, onHost, Option.some.injEq, Prod.mk.injEq] at hexec
    rcases hexec with ⟨rfl, rfl⟩
    refine ⟨_, rfl, ?_, ?_⟩
    · by_cases hheal : seen.health = .healthy
      · rw [if_pos hheal]
        exact ⟨_, rfl, fun id hid => List.mem_cons_of_mem _ hid⟩
      · rw [if_neg hheal]
        exact Seen.refl _
    · intro a ha
      obtain rfl := Except.ok.inj ha
      refine ⟨(hgot _ rfl).1, (hgot _ rfl).2, fun hheal => ?_⟩
      rw [if_pos hheal]
      exact List.mem_cons_self

theorem runs_inspect (h : Host) (ref : ContainerRef) :
    Runs config st h (inspectContainer ref)
      (fun seen st' h' => st' = st ∧ Seen h h' ∧ seen.container ∈ h.containers ∧
        Matches ref seen.container ∧ (seen.health = .healthy → seen.container.id ∈ h'.observed))
      (fun _ st' h' => st' = st ∧ Seen h h') := by
  refine Runs.request rfl fun w c r w' hinv hw hexec => ?_
  subst hw
  rcases exec_inspect hexec with ⟨h', rfl, hseen, hr⟩
  refine ⟨allowed_of_ids ?_ ?_ ?_, ?_, ?_, fun _ _ => ⟨rfl, hseen⟩⟩
  · intro d hd
    exact ⟨d, hseen.containers ▸ hd, rfl⟩
  · exact fun hs => hseen.file ▸ hs
  · exact fun o ho => hseen.outcomes ▸ ho
  · exact hinv.onHost hseen.file hseen.outcomes (hinv.host.seen hseen)
      fun st hst => (hinv.record st hst).seen hseen
  · intro seen hok
    rcases hr seen hok with ⟨hmem, hmatch, hheal⟩
    exact ⟨rfl, hseen, hmem, hmatch, hheal⟩

/-- A record past the point where nothing had been touched, whose success has
    not been accepted: its operation may create and remove containers. -/
structure Working (st : UpdateState) (h : Host) : Prop where
  on : On st h
  begun : st.stage ≠ .prepared
  open_ : ¬ Accepted h st.operationId

theorem Working.seen {st : UpdateState} (hw : Working st h) (hseen : Seen h h') :
    Working st h' := by
  refine ⟨hw.on.seen hseen, hw.begun, ?_⟩
  simp only [Accepted, hseen.outcomes]
  exact hw.open_

theorem Working.reshape {st : UpdateState} (hw : Working st h)
    (hr : Reshaped h h') : Working st h' := by
  refine ⟨hw.on.reshape hw.begun hr, hw.begun, ?_⟩
  rcases hr with ⟨f, -, rfl⟩
  exact hw.open_

/-- Containers are changed, or not, where it fails as well. -/
abbrev Reshapes (config : UpdaterConfig) (st : UpdateState) (h : Host)
    (x : UpdaterM UpdateState α) : Prop :=
  Runs config st h x (fun _ st' h' => st' = st ∧ Reshaped h h')
    fun _ st' h' => st' = st ∧ Reshaped h h'

-- A request that changes a container, or fails before or after that.
theorem runs_reshape (heq : op.Answer = Except Failure Unit) {st : UpdateState}
    (hon : On st h) (hstage : st.stage ≠ .prepared)
    (hop : ∀ w c r w', exec op c w = some (r, w') →
      ∃ h', Reshaped w.host h' ∧ w' = { w with host := h' }) :
    Reshapes config st h (Updater.request op heq) := by
  refine Runs.request heq fun w c r w' hinv hw hexec => ?_
  subst hw
  rcases hop w c r w' hexec with ⟨h', hr, rfl⟩
  have hon' := hon.reshape hstage hr
  have hkept : h'.outcomes = w.host.outcomes := by
    rcases hr with ⟨f, -, rfl⟩
    rfl
  refine ⟨allowed_of_reshaped hr, ?_, fun _ _ => ⟨rfl, hr⟩, fun _ _ => ⟨rfl, hr⟩⟩
  refine hinv.onHost (hon'.file.trans hon.file.symm) hkept hon'.host ?_
  intro st₀ hst₀
  obtain rfl : st = st₀ := by simpa [hon.file] using hst₀
  exact hon'.record

theorem reshaped_of_onContainer {id : ContainerId} {f : Container → Container} {u : Unit}
    (heff : onContainer id f h = .ok (u, h'))
    (hf : ∀ c, (f c).id = c.id ∧ (f c).labels = c.labels ∧ (f c).image = c.image) :
    Reshaped h h' := by
  unfold onContainer at heff
  split at heff
  · simp only [Except.ok.injEq, Prod.mk.injEq] at heff
    refine ⟨fun c => if c.id = id then f c else c, fun c => ?_, heff.2.symm⟩
    by_cases hc : c.id = id
    · simp only [if_pos hc]
      exact hf c
    · simp only [if_neg hc]
      exact ⟨trivial, trivial, trivial⟩
  · exact nomatch heff

theorem reshaped_of_engine {r : Except Failure Unit} {effect : Host → Except Failure (Unit × Host)}
    (hexec : onHost w (engineCall choice w.host effect) = some (r, w'))
    (heffect : ∀ h', effect w.host = .ok ((), h') → Reshaped w.host h') :
    ∃ h', Reshaped w.host h' ∧ w' = { w with host := h' } := by
  rcases engine_step hexec with ⟨rfl, -⟩ | ⟨_, h', heff, rfl, -⟩
  · exact ⟨w'.host, Reshaped.refl _, rfl⟩
  · exact ⟨h', heffect h' heff, rfl⟩

theorem reshaped_of_call {id : ContainerId} {f : Container → Container} {r : Except Failure Unit}
    (hf : ∀ c, (f c).id = c.id ∧ (f c).labels = c.labels ∧ (f c).image = c.image)
    (hexec : onHost w (engineCall choice w.host (onContainer id f)) = some (r, w')) :
    ∃ h', Reshaped w.host h' ∧ w' = { w with host := h' } :=
  reshaped_of_engine hexec fun _ heff => reshaped_of_onContainer heff hf

section Changes

variable {st : UpdateState} {h : Host} (hon : On st h) (hstage : st.stage ≠ .prepared)
include hon hstage

variable (id : ContainerId)

theorem runs_stop : Reshapes config st h (stopContainer id) :=
  runs_reshape rfl hon hstage fun _ _ _ _ => reshaped_of_call fun _ => ⟨rfl, rfl, rfl⟩

theorem runs_start : Reshapes config st h (Updater.request (.startContainer id) rfl) :=
  runs_reshape rfl hon hstage fun _ _ _ _ => reshaped_of_call fun _ => ⟨rfl, rfl, rfl⟩

theorem runs_disconnect (network : String) (id : ContainerId) :
    Reshapes config st h (disconnectNetwork network id) :=
  runs_reshape rfl hon hstage fun _ _ _ _ => reshaped_of_call fun _ => ⟨rfl, rfl, rfl⟩

theorem runs_connect (network : String) (id : ContainerId) (endpoint : NetworkEndpoint) :
    Reshapes config st h (connectNetwork network id endpoint) :=
  runs_reshape rfl hon hstage fun _ _ _ _ => reshaped_of_call fun _ => ⟨rfl, rfl, rfl⟩

theorem runs_rename (name : ContainerName) :
    Reshapes config st h (Updater.request (.renameContainer id name) rfl) := by
  refine runs_reshape rfl hon hstage fun w c r w' hexec =>
    reshaped_of_engine hexec fun h' heff => ?_
  unfold renameEffect at heff
  split at heff
  · exact nomatch heff
  exact reshaped_of_onContainer heff fun _ => ⟨rfl, rfl, rfl⟩

theorem runs_remove (force : Bool) (hlet : ∀ c ∈ h.containers, c.id = id →
      c.id = st.targetId ∧ Relieved config.imageRef h st ∨
        c.id ≠ st.targetId ∧ c.labels.operation = some st.operationId ∧
          ¬ Accepted h st.operationId) :
    Runs config st h (removeContainer id force) (fun _ st' h' => st' = st ∧ h' = without h id)
      (fun _ st' h' => st' = st ∧ (h' = h ∨ h' = without h id)) := by
  refine Runs.request rfl fun w c r w' hinv hw hexec => ?_
  subst hw
  rcases engine_step hexec with ⟨rfl, e, rfl⟩ | ⟨u, h', heff, rfl, hr⟩
  · exact ⟨allowed_refl _ _, hinv, nofun, fun _ _ => ⟨rfl, .inl rfl⟩⟩
  unfold removeEffect at heff
  split at heff
  · simp only [Except.ok.injEq, Prod.mk.injEq] at heff
    rcases heff with ⟨-, rfl⟩
    have hon' := hon.remove hstage id
    refine ⟨⟨?_, ?_, fun _ ho => ho⟩, ?_, fun _ _ => ⟨rfl, rfl⟩, fun _ _ => ⟨rfl, .inr rfl⟩⟩
    · intro d hd
      have hgone : d.id = id := by
        refine Decidable.byContradiction fun hne => ?_
        exact hd.2 d (List.mem_filter.mpr ⟨hd.1, by simpa using hne⟩) rfl
      exact ⟨st, hon.file, hlet d hd.1 hgone⟩
    · intro st₀ hst₀ hnone
      exact absurd (hst₀.symm.trans hnone) nofun
    · refine hinv.onHost rfl rfl hon'.host ?_
      intro st₀ hst₀
      obtain rfl : st = st₀ := by simpa [hon.file] using hst₀
      exact hon'.record
  · exact nomatch heff

theorem runs_create (name : ContainerName) (spec : ContainerSpec)
    (hlab : spec.labels.operation = some st.operationId) :
    Runs config st h (createContainer name spec)
      (fun _ st' h' => st' = st ∧ On st h' ∧ h'.outcomes = h.outcomes)
      (fun _ st' h' => st' = st ∧ On st h' ∧ h'.outcomes = h.outcomes) := by
  refine Runs.request rfl fun w c r w' hinv hw hexec => ?_
  subst hw
  rcases engine_step hexec with ⟨rfl, e, rfl⟩ | ⟨id, h', heff, rfl, -⟩
  · exact ⟨allowed_refl _ _, hinv, nofun, fun _ _ => ⟨rfl, hon, rfl⟩⟩
  unfold createEffect at heff
  split at heff
  · exact nomatch heff
  simp only [Except.ok.injEq, Prod.mk.injEq] at heff
  rcases heff with ⟨-, rfl⟩
  have hon' := hon.create hstage
    { id := w.host.nextContainer
      name := name
      image := spec.image
      labels := spec.labels
      networks := spec.networks ++ c.attached
      running := false
      config := spec.config } rfl hlab
  refine ⟨?_, ?_, fun _ _ => ⟨rfl, hon', rfl⟩, fun _ _ => ⟨rfl, hon', rfl⟩⟩
  · exact allowed_of_ids (fun d hd => ⟨d, List.mem_append_left _ hd, rfl⟩) (fun hfile => hfile)
      fun _ ho => ho
  · refine hinv.onHost rfl rfl hon'.host ?_
    intro st₀ hst₀
    obtain rfl : st = st₀ := by simpa [hon.file] using hst₀
    exact hon'.record

end Changes

/-! ### The state file -/

theorem runs_save {st : σ} (record : UpdateState) (hhost : HostOk h)
    (hrec : RecordOk (saveRecord record h) record)
    (hkeep : Accepted h record.operationId → ∃ old, h.file = some old ∧
      old.operationId = record.operationId ∧ old.leaseToken = record.leaseToken ∧
      old.actionGeneration = record.actionGeneration) :
    Runs config st h (save record)
      (fun _ st' h' => st' = st ∧ h' = saveRecord record h ∧ On record h') E := by
  have hhost' : HostOk (saveRecord record h) :=
    ⟨hhost.fresh, hhost.unique, hhost.labelled, hhost.reported⟩
  refine .perform fun w c r w' hinv hw hexec => ?_
  obtain rfl : w.host = h := hw
  rcases hexec with ⟨-, rfl⟩
  refine ⟨?_, ⟨hhost', ?_, hinv.sane, ?_⟩, rfl, rfl, rfl, hhost', hrec⟩
  · exact allowed_of_ids (fun d hd => ⟨d, hd, rfl⟩) (fun _ => rfl) fun _ ho => ho
  · intro st₀ hst₀
    obtain rfl : record = st₀ := Option.some.inj hst₀
    exact hrec
  · intro st₀ hst₀ hacc
    obtain rfl : record = st₀ := Option.some.inj hst₀
    rcases hkeep hacc with ⟨old, hold, hop, htok, hgen⟩
    have hset := hinv.settled old hold (hop ▸ hacc)
    rwa [htok, hgen] at hset

theorem runs_clear {st : σ} {record : UpdateState} (hon : On record h)
    (hname : Untouched h record ∨ Relieved config.imageRef h record) :
    Runs config st h clear (fun _ _ _ => True) E := by
  refine .perform fun w c r w' hinv hw hexec => ?_
  obtain rfl : w.host = h := hw
  rcases hexec with ⟨-, rfl⟩
  refine ⟨⟨?_, ?_, fun _ ho => ho⟩, ⟨?_, ?_, hinv.sane, ?_⟩, trivial⟩
  · intro d hd
    exact absurd rfl (hd.2 d hd.1)
  · intro st₀ hst₀ _
    obtain rfl : record = st₀ := Option.some.inj (hon.file.symm.trans hst₀)
    exact hname.imp id fun hr => hr.of_same rfl (fun _ hid => hid) rfl
  · exact ⟨hinv.host.fresh, hinv.host.unique, hinv.host.labelled, hinv.host.reported⟩
  · intro st₀ hst₀
    exact nomatch hst₀
  · intro st₀ hst₀
    exact nomatch hst₀

theorem runs_load (h : Host) :
    Runs config st h (Updater.request .load rfl)
      (fun found st' h' => st' = st ∧ h' = h ∧ found = h.file ∧ HostOk h ∧
        ∀ record, found = some record → On record h)
      (fun _ _ _ => False) := by
  refine Runs.request rfl fun w c r w' hinv hw hexec => ?_
  subst hw
  have hpair : (loadRecord w.host, w) = (r, w') := Option.some.inj hexec
  obtain rfl : w = w' := congrArg Prod.snd hpair
  have hload : loadRecord w.host = .ok w.host.file := by
    unfold loadRecord
    cases hfile : w.host.file with
    | none => rfl
    | some record => simp only [(hinv.record record hfile).loads]
  refine ⟨allowed_refl _ _, hinv, ?_, ?_⟩
  · intro found hgot
    have hr : loadRecord w.host = .ok found := (congrArg Prod.fst hpair).trans hgot
    obtain rfl : w.host.file = found := Except.ok.inj (hload.symm.trans hr)
    exact ⟨rfl, rfl, rfl, hinv.host, fun record hr => ⟨hr, hinv.host, hinv.record record hr⟩⟩
  · intro e he
    have hr : loadRecord w.host = .error e := (congrArg Prod.fst hpair).trans he
    exact nomatch hload.symm.trans hr

theorem runs_deadlinePassed {st : σ} : Runs config st h deadlinePassed (Unmoved st h) E := by
  refine .perform fun w c r w' hinv hw hexec => ?_
  obtain rfl : w.host = h := hw
  rcases hexec with ⟨-, rfl⟩
  exact ⟨allowed_refl _ _, hinv, rfl, rfl⟩

theorem runs_uuid4 {st : σ} (hfile : h.file = none) :
    Runs config st h uuid4
      (fun operation st' h' => st' = st ∧ operation ∉ h.operations ∧
        h' = { h with operations := operation :: h.operations }) E := by
  refine .perform fun w c r w' hinv hw hexec => ?_
  obtain rfl : w.host = h := hw
  simp only [machine, exec] at hexec
  split at hexec
  · exact nomatch hexec
  rename_i hnew
  rcases hexec with ⟨rfl, rfl⟩
  refine ⟨allowed_of_ids (fun d hd => ⟨d, hd, rfl⟩) (fun hf => hf) fun _ ho => ho, ?_, rfl, ?_,
    rfl⟩
  · refine hinv.onHost rfl rfl ⟨hinv.host.fresh, hinv.host.unique, ?_, ?_⟩ ?_
    · exact fun d hd operation hop => List.mem_cons_of_mem _ (hinv.host.labelled d hd _ hop)
    · exact fun o ho => List.mem_cons_of_mem _ (hinv.host.reported o ho)
    · intro record hrec
      exact nomatch hfile.symm.trans hrec
  · simpa using hnew

/-! ### The coordinator -/

/-- What a request leaves of the service: all that was known of it holds. -/
structure Kept (s s' : Service) : Prop where
  sane : s.Sane → s'.Sane
  settled : ∀ token g, SettledService token g s → SettledService token g s'

theorem Kept.refl (s : Service) : Kept s s := ⟨id, fun _ _ hs => hs⟩

theorem kept_of_endpoint {s' : Service} {r : Except Refusal α}
    (hkeep : ∀ P : Service → Prop, (∀ now op, Endpoint.Keeps P (transact now op) fun _ => True) →
      Endpoint.Keeps P endpoint fun _ => True) (hrun : endpoint s = some (r, s')) : Kept s s' where
  sane := fun hs => (hkeep _ keeps_transact_sane s r s' hs hrun).1
  settled := fun _ _ hs => (hkeep _ keeps_transact_settled s r s' hs hrun).1

theorem Inv.onService (hinv : Inv w) (hkept : Kept w.service s) :
    Inv { w with service := s } where
  host := hinv.host
  record := hinv.record
  sane := hkept.sane hinv.sane
  settled := fun st hst hacc => hkept.settled _ _ (hinv.settled st hst hacc)

theorem coordinator_step {s' : Service} (hcall : coordinatorCall choice s endpoint = some (r, s'))
    (hkeep : ∀ P : Service → Prop, (∀ now op, Endpoint.Keeps P (transact now op) fun _ => True) →
      Endpoint.Keeps P endpoint fun _ => True) :
    Kept s s' ∧ ∀ a, r = .ok a → endpoint s = some (.ok a, s') := by
  unfold coordinatorCall at hcall
  split at hcall
  · simp only [Option.some.injEq, Prod.mk.injEq] at hcall
    rcases hcall with ⟨rfl, rfl⟩
    exact ⟨.refl _, fun _ h => nomatch h⟩
  simp only [Option.map_eq_some_iff, Prod.mk.injEq] at hcall
  rcases hcall with ⟨⟨answer, t⟩, hrun, rfl, rfl⟩
  refine ⟨kept_of_endpoint hkeep hrun, ?_⟩
  intro a ha
  cases answer with
  | ok b =>
    cases hfault : choice.fault with
    | none =>
      simp only [hfault, clientAnswer, Except.ok.injEq] at ha
      rw [hrun, ha]
    | _ => simp [hfault, clientAnswer] at ha
  | error e =>
    cases hfault : choice.fault with
    | _ => simp [hfault, clientAnswer] at ha

theorem runs_service (heq : op.Answer = Except Failure α) {st : σ}
    (hop : ∀ w c r w', Inv w → w.host = h → exec op c w = some (r, w') →
      ∃ s, w' = { w with service := s } ∧ Kept w.service s ∧
        ∀ a, (heq ▸ r : Except Failure α) = .ok a → Q a) :
    Tells config st h (Updater.request op heq) Q := by
  refine Runs.request heq fun w c r w' hinv hw hexec => ?_
  rcases hop w c r w' hinv hw hexec with ⟨s, rfl, hkept, hok⟩
  subst hw
  exact ⟨allowed_refl _ _, hinv.onService hkept, fun a ha => ⟨rfl, rfl, hok a ha⟩,
    fun _ _ => ⟨rfl, rfl⟩⟩

theorem service_step {β : Type} {f : Except Failure α → Except Failure β} {r : Except Failure β}
    (hexec : onService w ((coordinatorCall choice w.service endpoint).map
      fun a => (f a.1, a.2)) = some (r, w'))
    (hkeep : ∀ P : Service → Prop, (∀ now op, Endpoint.Keeps P (transact now op) fun _ => True) →
      Endpoint.Keeps P endpoint fun _ => True) :
    ∃ s answer, w' = { w with service := s } ∧ Kept w.service s ∧ r = f answer ∧
      ∀ a, answer = .ok a → endpoint w.service = some (.ok a, s) := by
  simp only [onService, Option.map_eq_some_iff, Prod.mk.injEq] at hexec
  rcases hexec with ⟨⟨b, s⟩, ⟨⟨answer, t⟩, hcall, heq⟩, rfl, rfl⟩
  rcases heq with ⟨rfl, rfl⟩
  rcases coordinator_step hcall hkeep with ⟨hkept, hans⟩
  exact ⟨t, answer, rfl, hkept, rfl, hans⟩

theorem runs_eligibility (h : Host) :
    Tells config st h (Updater.request .eligibility rfl) fun _ => True := by
  refine runs_service rfl fun w c r w' hinv hw hexec => ?_
  rcases service_step hexec
    (fun P hP => keeps_eligibilityEndpoint hP c.visit) with ⟨s, answer, hw', hkept, -, -⟩
  exact ⟨s, hw', hkept, fun _ _ => trivial⟩

theorem runs_heartbeat (h : Host) (generation : Nat) :
    Tells config st h (Updater.request (.heartbeat generation) rfl) fun _ => True := by
  refine runs_service rfl fun w c r w' hinv hw hexec => ?_
  rcases service_step hexec
    (fun P hP => keeps_heartbeatEndpoint hP c.visit generation) with ⟨s, answer, hw', hkept, -, -⟩
  exact ⟨s, hw', hkept, fun _ _ => trivial⟩

theorem runs_release (h : Host) (token : TokenHash) :
    Tells config st h (Updater.request (.release token) rfl) fun _ => True := by
  refine runs_service rfl fun w c r w' hinv hw hexec => ?_
  rcases service_step hexec
    (fun P hP => keeps_releaseEndpoint hP c.visit token) with ⟨s, answer, hw', hkept, -, -⟩
  exact ⟨s, hw', hkept, fun _ _ => trivial⟩

theorem runs_claim (h : Host) (body : UpdateClaimRequest) :
    Tells config st h (Updater.request (.claim body) rfl) fun _ => ∀ record, h.file = some record →
      body = ⟨true, some record.actionGeneration⟩ → ¬ Accepted h record.operationId := by
  refine runs_service rfl fun w c r w' hinv hw hexec => ?_
  subst hw
  rcases service_step (f := fun a => a.bind readClaim) hexec
    (fun P hP => keeps_claimEndpoint hP c.visit body) with ⟨s, answer, hw', hkept, hr, hans⟩
  refine ⟨s, hw', hkept, ?_⟩
  intro lease hls record hrec hbody hacc
  have hset := hinv.settled record hrec hacc
  cases answer with
  | error e =>
    rw [hr] at hls
    exact nomatch hls
  | ok response =>
    have hrun := hans response rfl
    rw [hbody] at hrun
    exact (claimEndpoint_refused c.visit w.service _ s hset hrun).2 response rfl

theorem runs_renew (h : Host) (token : TokenHash) (phase : Option RenewPhase) :
    Tells config st h (renew token phase) fun _ => ∀ record, h.file = some record →
      token = record.leaseToken → ¬ Accepted h record.operationId := by
  refine runs_service rfl fun w c r w' hinv hw hexec => ?_
  subst hw
  rcases service_step hexec
    (fun P hP => keeps_renewEndpoint hP c.visit token phase) with
    ⟨s, answer, hw', hkept, hr, hans⟩
  refine ⟨s, hw', hkept, ?_⟩
  intro lease hls record hrec htok hacc
  have hset := hinv.settled record hrec hacc
  cases answer with
  | error e =>
    rw [hr] at hls
    exact nomatch hls
  | ok response =>
    have hrun := hans response rfl
    rw [htok] at hrun
    exact (renewEndpoint_refused c.visit phase w.service _ s hset hrun).2 response rfl

/-! ### Outcomes -/

/-- The host after an outcome of the operation on file was acknowledged, or was
    not. -/
def Noted (st : UpdateState) (outcome : Outcome) (h h' : Host) : Prop :=
  h' = h ∨ ∃ accepted, h' = { h with outcomes := ⟨st.operationId, outcome, accepted⟩ :: h.outcomes }

theorem accepted_cons {op : OperationId} {outcome : Outcome} {accepted : Bool}
    (hacc : Accepted { h with outcomes := ⟨op, outcome, accepted⟩ :: h.outcomes } operation) :
    Accepted h operation ∨ op = operation ∧ outcome = .succeeded ∧ accepted = true := by
  rcases hacc with ⟨o, ho, hop, hout, hyes⟩
  rcases List.mem_cons.mp ho with rfl | ho
  · exact .inr ⟨hop, hout, hyes⟩
  · exact .inl ⟨o, ho, hop, hout, hyes⟩

theorem acknowledged_cons {outcome : Outcome}
    (note : OutcomeRecord) (hack : Acknowledged h operation outcome) :
    Acknowledged { h with outcomes := note :: h.outcomes } operation outcome := by
  rcases hack with ⟨o, ho, hop, hout⟩
  exact ⟨o, List.mem_cons_of_mem _ ho, hop, hout⟩

theorem On.noted {st : UpdateState} {outcome : Outcome} (hon : On st h)
    (hstage : outcome = .succeeded → st.stage = .candidateRenamed)
    (hnote : Noted st outcome h h') : On st h' := by
  rcases hnote with rfl | ⟨accepted, rfl⟩
  · exact hon
  refine ⟨hon.file, ⟨hon.host.fresh, hon.host.unique, hon.host.labelled, ?_⟩, ?_⟩
  · intro o ho
    rcases List.mem_cons.mp ho with rfl | ho
    · exact hon.record.drawn
    · exact hon.host.reported o ho
  · have hrec := hon.record
    refine ⟨hrec.drawn, hrec.target_old, hrec.target_foreign, hrec.loads, hrec.prepared,
      fun hs => acknowledged_cons _ (hrec.succeeded hs),
      fun hs => acknowledged_cons _ (hrec.rolledBack hs), ?_⟩
    intro hacc
    rcases accepted_cons hacc with hacc | ⟨-, hout, -⟩
    · exact hrec.accepted hacc
    · exact .inl (hstage hout)

theorem noteOutcome_eq {accepted : Bool} {st : UpdateState} {token : TokenHash}
    (hfile : h.file = some st) (htok : body.leaseToken = some token) :
    noteOutcome body accepted h =
      { h with outcomes := ⟨st.operationId, body.outcome, accepted⟩ :: h.outcomes } := by
  simp only [noteOutcome, hfile, htok]

theorem reportOutcome_eq_some {r : Except Failure Unit}
    (hrun : reportOutcome choice body w = some (r, w')) :
    (w'.host = w.host ∧ Kept w.service w'.service ∧ ∃ e, r = .error e) ∨
      ∃ accepted, outcomeEndpoint choice.visit body w.service = some (.ok accepted, w'.service) ∧
        w'.host = noteOutcome body accepted w.host := by
  have hkeep := fun (P : Service → Prop) hP => @keeps_outcomeEndpoint P hP choice.visit body
  unfold reportOutcome at hrun
  split at hrun
  · simp only [Option.some.injEq, Prod.mk.injEq] at hrun
    rcases hrun with ⟨rfl, rfl⟩
    exact .inl ⟨rfl, .refl _, _, rfl⟩
  split at hrun
  · exact nomatch hrun
  · rename_i e s hend
    rcases hrun with ⟨rfl, rfl⟩
    refine .inl ⟨rfl, kept_of_endpoint hkeep hend, ?_⟩
    cases choice.fault with
    | _ => exact ⟨_, rfl⟩
  · rename_i accepted s hend
    rcases hrun with ⟨-, rfl⟩
    exact .inr ⟨accepted, hend, rfl⟩

-- The report of the outcome of an install: where it is answered, it was acknowledged, and a
-- success is only reported from where it may be.
theorem runs_outcome {st : UpdateState} (hon : On st h) (body : UpdateOutcomeRequest)
    (htok : body.leaseToken = some st.leaseToken)
    (hgen : body.actionGeneration = st.actionGeneration)
    (hstage : body.outcome = .succeeded → st.stage = .candidateRenamed) :
    Runs config st h (outcome body)
      (fun _ st' h' => st' = st ∧ Noted st body.outcome h h' ∧
        Acknowledged h' st.operationId body.outcome)
      (fun _ st' h' => st' = st ∧ Noted st body.outcome h h') := by
  refine Runs.request rfl fun w c r w' hinv hw hexec => ?_
  subst hw
  rcases reportOutcome_eq_some hexec with ⟨hsame, hkept, e, he⟩ | ⟨accepted, hend, hnote⟩
  · obtain rfl : r = .error e := he
    have hw' : w' = { w with service := w'.service } := by rw [← hsame]
    rw [hsame]
    refine ⟨allowed_refl _ _, ?_, (fun _ h => nomatch h), fun _ _ => ⟨rfl, .inl rfl⟩⟩
    rw [hw']
    exact hinv.onService hkept
  · rw [noteOutcome_eq hon.file htok] at hnote
    have hnoted : Noted st body.outcome w.host w'.host := .inr ⟨accepted, hnote⟩
    have hon' := hon.noted hstage hnoted
    have hkept := kept_of_endpoint
      (fun (P : Service → Prop) hP => @keeps_outcomeEndpoint P hP c.visit body) hend
    have hack : Acknowledged w'.host st.operationId body.outcome := by
      rw [hnote]
      exact ⟨_, List.mem_cons_self, rfl, rfl⟩
    refine ⟨?_, ⟨hon'.host, ?_, hkept.sane hinv.sane, ?_⟩, fun _ _ => ⟨rfl, hnoted, hack⟩,
      fun _ _ => ⟨rfl, hnoted⟩⟩
    · refine allowed_of_ids ?_ ?_ ?_
      · rw [hnote]
        exact fun d hd => ⟨d, hd, rfl⟩
      · rw [hon'.file]
        exact fun _ => rfl
      · rw [hnote]
        exact fun o ho => List.mem_cons_of_mem _ ho
    · intro st₀ hst₀
      obtain rfl : st = st₀ := Option.some.inj (hon'.file.symm.trans hst₀)
      exact hon'.record
    · intro st₀ hst₀ hacc
      obtain rfl : st = st₀ := Option.some.inj (hon'.file.symm.trans hst₀)
      rw [hnote] at hacc
      rcases accepted_cons hacc with hacc | ⟨-, -, rfl⟩
      · exact hkept.settled _ _ (hinv.settled st hon.file hacc)
      · have hset := outcomeEndpoint_settles htok hinv.sane hend
        rwa [hgen] at hset

theorem runs_checkOutcome (h : Host) (body : UpdateOutcomeRequest) (htok : body.leaseToken = none) :
    Runs config st h (outcome body) (Unmoved st h)
      (Unmoved st h) := by
  refine Runs.request rfl fun w c r w' hinv hw hexec => ?_
  subst hw
  have hhost : w'.host = w.host ∧ Kept w.service w'.service := by
    rcases reportOutcome_eq_some hexec with ⟨hsame, hkept, -⟩ | ⟨accepted, hend, hnote⟩
    · exact ⟨hsame, hkept⟩
    · refine ⟨?_, kept_of_endpoint
        (fun (P : Service → Prop) hP => @keeps_outcomeEndpoint P hP c.visit body) hend⟩
      rw [hnote]
      simp only [noteOutcome, htok]
  have hw' : w' = { w with service := w'.service } := by rw [← hhost.1]
  refine ⟨?_, ?_, fun _ _ => ⟨rfl, hhost.1⟩, fun _ _ => ⟨rfl, hhost.1⟩⟩
  · rw [hhost.1]
    exact allowed_refl _ _
  · rw [hw']
    exact hinv.onService hhost.2

end Updater

end PlexManager
