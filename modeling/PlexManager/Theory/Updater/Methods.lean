import PlexManager.Theory.Updater.Calls

/-!
# The methods of the runner keep the contract

One specification for each method of the runner, proved from those of the
operations it asks for. They say from which records a method may be entered and
what it leaves on file, and that is how the invariant is kept through crashes:
wherever a method is cut short, the record on file tells the truth.

The checks are what makes the removals safe. A container whose labels were found
to be those of the operation keeps them, and so is not the target; a container
found under the configured name with the right image and labels, and then
healthy, relieves the target.
-/

namespace PlexManager

namespace Updater

open Coordinator Effects

variable {config : UpdaterConfig} {σ α : Type}

/-- An exception that left everything but what is known about health. -/
abbrev Idle (st : σ) (h : Host) : Failure → σ → Host → Prop :=
  fun _ st' h' => st' = st ∧ Seen h h'

/-- An exception that left the record in memory on file. -/
abbrev Synced : Failure → UpdateState → Host → Prop := fun _ st' h' => On st' h'

theorem On.synced {st : UpdateState} {h : Host} (hon : On st h) (e : Failure) (st' : UpdateState)
    (h' : Host) (hidle : Idle st h e st' h') : Synced e st' h' := by
  rcases hidle with ⟨rfl, hseen⟩
  exact hon.seen hseen

structure Advanced (st : UpdateState) (h h' : Host) : Prop where
  on : On st h'
  outcomes : h'.outcomes = h.outcomes

variable {st old : UpdateState} {h h' : Host} {E : Failure → UpdateState → Host → Prop}
  {id : ContainerId}

theorem Advanced.working (ha : Advanced st h h') (hw : Working st h) : Working st h' := by
  refine ⟨ha.on, hw.begun, ?_⟩
  simp only [Accepted, ha.outcomes]
  exact hw.open_

theorem On.advanced_seen (hon : On st h) (hseen : Seen h h') : Advanced st h h' :=
  ⟨hon.seen hseen, hseen.outcomes⟩

theorem On.advanced_reshape (hon : On st h) (hstg : st.stage ≠ .prepared)
    (hr : Reshaped h h') : Advanced st h h' := by
  refine ⟨hon.reshape hstg hr, ?_⟩
  rcases hr with ⟨f, -, rfl⟩
  rfl

theorem Advanced.trans {st' : UpdateState} {h'' : Host} (h₁ : Advanced st h h')
    (h₂ : Advanced st' h' h'') : Advanced st' h h'' :=
  ⟨h₂.on, h₂.outcomes.trans h₁.outcomes⟩

theorem On.not_accepted (hon : On st h) (hren : st.stage ≠ .candidateRenamed)
    (hack : st.stage ≠ .outcomeAcknowledged) : ¬ Accepted h st.operationId := by
  intro hacc
  rcases hon.record.accepted hacc with hs | hs
  · exact hren hs
  · exact hack hs

/-! ### Waiting and looking -/

theorem runs_waitHealthy (st : σ) (h : Host) (rounds : Nat) (id : ContainerId) :
    Runs config st h (waitHealthy rounds id)
      (fun _ st' h' => st' = st ∧ Seen h h' ∧ id ∈ h'.observed) (Idle st h) := by
  induction rounds generalizing h with
  | zero => exact .raise ⟨rfl, Seen.refl h⟩
  | succ rounds ih =>
    refine .bind (runs_inspect st h (.id id)) ?_
    rintro seen _ h₁ ⟨rfl, hseen, -, hmatch, hheal⟩
    split
    · exact .raise ⟨rfl, hseen⟩
    split
    · rename_i hh
      have hid : seen.container.id = id := hmatch
      exact .pure ⟨rfl, hseen, hid ▸ hheal hh⟩
    split
    · exact .raise ⟨rfl, hseen⟩
    refine .bind runs_deadlinePassed ?_
    rintro passed _ h₁ ⟨rfl, rfl⟩
    split
    · exact .raise ⟨rfl, hseen⟩
    refine .mono (ih h₁) ?_ ?_
    · rintro _ _ h₂ ⟨rfl, hseen', hid⟩
      exact ⟨rfl, hseen.trans hseen', hid⟩
    · rintro _ _ h₂ ⟨rfl, hseen'⟩
      exact ⟨rfl, hseen.trans hseen'⟩

theorem runs_containerExists (st : σ) (h : Host) (id : ContainerId) :
    Runs config st h (containerExists id) (fun _ st' h' => st' = st ∧ Seen h h')
      (Idle st h) := by
  refine .tryCatch (?_ : Spec _ _ st h _ _ (Idle st h)) ?_
  · refine .bind (runs_inspect st h (.id id)) ?_
    rintro seen _ h₁ ⟨rfl, hseen, -⟩
    exact .pure ⟨rfl, hseen⟩
  · rintro e _ h₁ ⟨rfl, hseen⟩
    split
    · exact .pure ⟨rfl, hseen⟩
    · exact .raise ⟨rfl, hseen⟩

theorem runs_inspectOr (st : σ) (h : Host) (id : ContainerId) (e' : Failure → UpdaterM σ Inspection)
    (he' : ∀ e h', Seen h h' → Runs config st h' (e' e) (fun _ _ _ => False) (Idle st h)) :
    Runs config st h (Run.tryCatch (inspectContainer (.id id)) e')
      (fun seen st' h' => st' = st ∧ Seen h h' ∧ seen.container ∈ h.containers ∧
        seen.container.id = id) (Idle st h) := by
  refine .tryCatch (?_ : Spec _ _ st h _ _ (Idle st h)) ?_
  · refine .post (runs_inspect st h (.id id)) ?_
    rintro seen _ h₁ ⟨rfl, hseen, hmem, hmatch, -⟩
    exact ⟨rfl, hseen, hmem, hmatch⟩
  · rintro e _ h₁ ⟨rfl, hseen⟩
    exact .post (he' e h₁ hseen) (fun _ _ _ hQ => hQ.elim)

-- A check of a container of the operation finds it there, with the image, one of the names and
-- the labels.
theorem runs_validateOperationContainer (st : UpdateState) (h : Host) (id : ContainerId)
    (role : Role) (image : ImageId) (names : List ContainerName) :
    Runs config st h (validateOperationContainer config id role image names)
      (fun c st' h' => st' = st ∧ Seen h h' ∧ c ∈ h.containers ∧ c.id = id ∧ c.image = image ∧
        c.name ∈ names ∧ c.labels = operationLabels config.imageRef st.operationId role)
      (Idle st h) := by
  refine .bind_record ?_
  refine .bind (runs_inspectOr _ _ id _ ?_) ?_
  · intro e h₁ hseen
    split
    · exact .raise ⟨rfl, hseen⟩
    · exact .raise ⟨rfl, hseen⟩
  rintro seen _ h₁ ⟨rfl, hseen, hmem, hid⟩
  dsimp only
  split
  · exact .raise ⟨rfl, hseen⟩
  rename_i himg
  split
  · exact .raise ⟨rfl, hseen⟩
  rename_i hname
  split
  · exact .raise ⟨rfl, hseen⟩
  rename_i hlab
  simp only [not_or, Decidable.not_not] at himg hname hlab
  exact .pure ⟨rfl, hseen, hmem, hid, himg.2, hname, hlab⟩

theorem runs_validateCandidate (st : UpdateState) (h : Host) :
    Runs config st h (validateCandidate config)
      (fun id st' h' => st' = st ∧ Seen h h' ∧ st.candidateId = some id ∧
        ∃ c ∈ h.containers, c.id = id ∧ c.image = st.desiredImageId ∧
          c.labels = operationLabels config.imageRef st.operationId .candidate ∧
          (st.stage = .outcomeAcknowledged → c.name = .configured)) (Idle st h) := by
  refine .bind_record ?_
  cases hcand : st.candidateId with
  | none => exact .raise ⟨rfl, Seen.refl _⟩
  | some id =>
    refine .bind (runs_validateOperationContainer _ _ id .candidate _ _) ?_
    rintro c _ h₁ ⟨rfl, hseen, hmem, hid, himg, hname, hlab⟩
    refine .pure ⟨rfl, hseen, rfl, c, hmem, hid, himg, hlab, ?_⟩
    intro hstg
    rw [if_pos (.inr hstg)] at hname
    exact List.mem_singleton.mp hname

theorem runs_validateRollback (st : UpdateState) (h : Host) :
    Runs config st h (validateRollback config)
      (fun c st' h' => st' = st ∧ Seen h h' ∧ st.rollbackId = some c.id ∧ c ∈ h.containers ∧
        c.image = st.oldImageId ∧ c.name = .configured ∧
        c.labels = operationLabels config.imageRef st.operationId .rollback) (Idle st h) := by
  refine .bind_record ?_
  cases hroll : st.rollbackId with
  | none => exact .raise ⟨rfl, Seen.refl _⟩
  | some id =>
    refine .post (runs_validateOperationContainer _ _ id .rollback _ _) ?_
    rintro c _ h₁ ⟨rfl, hseen, hmem, hid, himg, hname, hlab⟩
    exact ⟨rfl, hseen, by rw [hid], hmem, himg, List.mem_singleton.mp hname, hlab⟩

theorem runs_validatePrevious (st : UpdateState) (h : Host) (names : List ContainerName) :
    Runs config st h (validatePrevious config names) (fun _ st' h' => st' = st ∧ Seen h h')
      (Idle st h) := by
  refine .bind_record ?_
  refine .bind (runs_inspectOr st h st.targetId _ ?_) ?_
  · intro e h₁ hseen
    split
    · exact .raise ⟨rfl, hseen⟩
    · exact .raise ⟨rfl, hseen⟩
  rintro seen _ h₁ ⟨rfl, hseen, -, -⟩
  dsimp only
  split
  · exact .raise ⟨rfl, hseen⟩
  split
  · exact .raise ⟨rfl, hseen⟩
  split
  · exact .raise ⟨rfl, hseen⟩
  · exact .pure ⟨rfl, hseen⟩

theorem runs_validateNetworkFidelity (st : UpdateState) (h : Host) (c : Container) :
    Runs config st h (validateNetworkFidelity c) (fun _ st' h' => st' = st ∧ h' = h)
      (Idle st h) := by
  refine .bind_record ?_
  dsimp only
  split
  · exact .raise ⟨rfl, Seen.refl _⟩
  split
  · exact .raise ⟨rfl, Seen.refl _⟩
  · exact .pure ⟨rfl, rfl⟩

theorem runs_findOperationContainer (st : UpdateState) (h : Host) (role : Role) :
    Runs config st h (findOperationContainer role) (fun _ st' h' => st' = st ∧ h' = h)
      (Idle st h) := by
  refine .bind_record ?_
  refine .seq (runs_containersByLabels _ _ _ _) ?_ ?_
  · rintro _ _ _ ⟨rfl, rfl⟩
    exact ⟨rfl, Seen.refl _⟩
  · rintro found _ _ ⟨rfl, rfl, -⟩
    split
    · exact .pure ⟨rfl, rfl⟩
    · exact .pure ⟨rfl, rfl⟩
    · exact .raise ⟨rfl, Seen.refl _⟩

/-! ### Saving the record -/

theorem fromJson_eq_some :
    st.fromJson = some st ↔ (0 ≤ st.stopTimeoutSeconds ∧ st.stopTimeoutSeconds ≤ 300) ∧
      (st.stage.needsCandidate = true → st.candidateId ≠ none) ∧
      (st.stage.needsRollback = true → st.rollbackId ≠ none) := by
  unfold UpdateState.fromJson
  by_cases htime : 0 ≤ st.stopTimeoutSeconds ∧ st.stopTimeoutSeconds ≤ 300
  · by_cases hcand : st.stage.needsCandidate = true ∧ st.candidateId = none
    · simp [htime, hcand]
    simp only [not_and] at hcand
    by_cases hroll : st.stage.needsRollback = true ∧ st.rollbackId = none
    · simp [htime, hroll]
    · simp only [not_and] at hroll
      simp [htime]
  · simp [htime]

/-- A record that is about what an earlier one was about. -/
structure Continues (old st : UpdateState) : Prop where
  operation : st.operationId = old.operationId
  target : st.targetId = old.targetId
  timeout : st.stopTimeoutSeconds = old.stopTimeoutSeconds

-- A record that goes on tells the truth where the ids its stage needs are there, and the
-- outcome its stage speaks of was acknowledged.
theorem RecordOk.rewrite (hok : RecordOk h old) (hcont : Continues old st)
    (hstg : st.stage ≠ .prepared) (hcand : st.stage.needsCandidate = true → st.candidateId ≠ none)
    (hroll : st.stage.needsRollback = true → st.rollbackId ≠ none)
    (hsucc : st.stage = .outcomeAcknowledged → Acknowledged h st.operationId .succeeded)
    (hback : st.stage = .rollbackAcknowledged → Acknowledged h st.operationId .rolledBack)
    (hacc : Accepted h st.operationId →
      st.stage = .candidateRenamed ∨ st.stage = .outcomeAcknowledged) : RecordOk h st where
  drawn := hcont.operation ▸ hok.drawn
  target_old := hcont.target ▸ hok.target_old
  target_foreign := by
    intro c hc hid
    rw [hcont.operation]
    exact hok.target_foreign c hc (hid.trans hcont.target)
  loads := by
    have htime := (fromJson_eq_some.mp hok.loads).1
    rw [← hcont.timeout] at htime
    exact fromJson_eq_some.mpr ⟨htime, hcand, hroll⟩
  prepared := fun hp => absurd hp hstg
  succeeded := hsucc
  rolledBack := hback
  accepted := hacc

theorem RecordOk.renote (hok : RecordOk h old) (hcont : Continues old st)
    (hstg : st.stage = old.stage) (hcand : st.candidateId = old.candidateId)
    (hroll : st.rollbackId = old.rollbackId) : RecordOk h st := by
  rcases hcont with ⟨hop, htgt, htime⟩
  have hchk := fromJson_eq_some.mp hok.loads
  rw [← hstg, ← hcand, ← hroll, ← htime] at hchk
  refine ⟨?_, ?_, ?_, fromJson_eq_some.mpr hchk, ?_, ?_, ?_, ?_⟩
  · rw [hop]
    exact hok.drawn
  · rw [htgt]
    exact hok.target_old
  · rw [hop, htgt]
    exact hok.target_foreign
  · rw [hstg, hcand, htgt]
    exact hok.prepared
  · rw [hstg, hop]
    exact hok.succeeded
  · rw [hstg, hop]
    exact hok.rolledBack
  · rw [hstg, hop]
    exact hok.accepted

theorem RecordOk.saved (hok : RecordOk h st)
    (hfile : h.file ≠ none) : RecordOk (saveRecord st h) st := by
  have hbaseline : (saveRecord st h).baseline = h.baseline := by
    cases hf : h.file with
    | none => exact absurd hf hfile
    | some old => simp [saveRecord, hf]
  refine ⟨hok.drawn, hok.target_old, hok.target_foreign, hok.loads, ?_, hok.succeeded,
    hok.rolledBack, hok.accepted⟩
  rw [hbaseline]
  exact hok.prepared

theorem runs_persist (hon : On old h) (hrec : RecordOk h st)
    (hop : old.operationId = st.operationId)
    (hkeep : Accepted h st.operationId →
      old.leaseToken = st.leaseToken ∧ old.actionGeneration = st.actionGeneration) :
    Runs config st h persist (fun _ st' h' => st' = st ∧ Advanced st h h') E := by
  have hfile : h.file ≠ none := by
    rw [hon.file]
    exact nofun
  refine .post (runs_save st hon.host (hrec.saved hfile) ?_) ?_
  · intro hacc
    exact ⟨old, hon.file, hop, hkeep hacc⟩
  · rintro _ _ h' ⟨rfl, rfl, hon'⟩
    exact ⟨rfl, hon', rfl⟩

/-- What a stage needs of the record and of what was acknowledged. -/
structure Entitled (st : UpdateState) (h : Host) (stage : UpdateStage) : Prop where
  begun : stage ≠ .prepared
  candidate : stage.needsCandidate = true → st.candidateId ≠ none
  rollback : stage.needsRollback = true → st.rollbackId ≠ none
  succeeded : stage = .outcomeAcknowledged → Acknowledged h st.operationId .succeeded
  rolledBack : stage = .rollbackAcknowledged → Acknowledged h st.operationId .rolledBack
  accepted : Accepted h st.operationId →
    stage = .candidateRenamed ∨ stage = .outcomeAcknowledged

theorem runs_setStage {stage : UpdateStage} (hon : On old h) (hcont : Continues old st)
    (htok : old.leaseToken = st.leaseToken) (hgen : old.actionGeneration = st.actionGeneration)
    (hstg : Entitled st h stage) :
    Runs config st h (setStage stage)
      (fun _ st' h' => st' = { st with stage := stage } ∧ Advanced st' h h') E := by
  have hcont' : Continues old { st with stage := stage } :=
    ⟨hcont.operation, hcont.target, hcont.timeout⟩
  have hrec := hon.record.rewrite hcont' hstg.begun hstg.candidate hstg.rollback
    hstg.succeeded hstg.rolledBack hstg.accepted
  refine .post (runs_persist hon hrec hcont.operation.symm fun _ => ⟨htok, hgen⟩) ?_
  rintro _ _ h' ⟨rfl, hadv⟩
  exact ⟨rfl, hadv⟩

theorem runs_rememberDetail (code : String) (hon : On st h) :
    Runs config st h (rememberDetail code)
      (fun _ st' h' => (∃ detail, st' = { st with detailCode := detail }) ∧ Advanced st' h h')
      E := by
  refine .bind_record ?_
  split
  · refine .bind_modifyRecord ?_
    refine .post (runs_persist hon (hon.record.renote ⟨rfl, rfl, rfl⟩ rfl rfl rfl) rfl
      fun _ => ⟨rfl, rfl⟩) ?_
    rintro _ _ h' ⟨rfl, hadv⟩
    exact ⟨⟨_, rfl⟩, hadv⟩
  · exact .pure ⟨⟨st.detailCode, rfl⟩, hon, rfl⟩

/-! ### Changing containers -/

theorem runs_ensureName (hon : On st h) (hstg : st.stage ≠ .prepared) (id : ContainerId)
    (expected allowed : ContainerName) :
    Runs config st h (ensureName id expected allowed)
      (fun _ st' h' => st' = st ∧ Advanced st h h')
        (fun _ st' h' => st' = st ∧ Advanced st h h') := by
  refine .seq (runs_inspect st h (.id id)) ?_ ?_
  · rintro e _ h₁ ⟨rfl, hseen⟩
    exact ⟨rfl, hon.advanced_seen hseen⟩
  rintro seen _ h₁ ⟨rfl, hseen, -⟩
  have hadv := hon.advanced_seen hseen
  split
  · exact .pure ⟨rfl, hadv⟩
  split
  · exact .raise ⟨rfl, hadv⟩
  refine .mono (runs_rename hadv.on hstg id expected) ?_ ?_
  · rintro _ _ h₂ ⟨rfl, hr⟩
    exact ⟨rfl, hadv.trans (hadv.on.advanced_reshape hstg hr)⟩
  · rintro _ _ h₂ ⟨rfl, hr⟩
    exact ⟨rfl, hadv.trans (hadv.on.advanced_reshape hstg hr)⟩

theorem runs_suppressDocker (x : UpdaterM UpdateState Unit) (hon : On st h)
    (hstg : st.stage ≠ .prepared)
    (hx : Runs config st h x (fun _ st' h' => st' = st ∧ Reshaped h h')
      (fun _ st' h' => st' = st ∧ Reshaped h h')) :
    Runs config st h (suppressDocker x) (fun _ st' h' => st' = st ∧ Reshaped h h')
      (fun _ st' h' => st' = st ∧ Advanced st h h') := by
  refine .tryCatch hx ?_
  rintro e _ h₁ ⟨rfl, hr⟩
  split
  · exact .pure ⟨rfl, hr⟩
  · exact .raise ⟨rfl, hon.advanced_reshape hstg hr⟩

/-- The container of an id, if there is one, is the operation's. -/
def Owned (st : UpdateState) (h : Host) (id : ContainerId) : Prop :=
  ∀ c ∈ h.containers, c.id = id → c.labels.operation = some st.operationId

theorem HostOk.owned (hok : HostOk h) {c : Container} (hc : c ∈ h.containers)
    (hlab : c.labels.operation = some st.operationId) : Owned st h c.id := by
  intro d hd hid
  rw [hok.unique d hd c hc hid]
  exact hlab

theorem Owned.seen (ho : Owned st h id) (hseen : Seen h h') : Owned st h' id := by
  rcases hseen with ⟨o, rfl, -⟩
  exact ho

theorem Owned.reshape (ho : Owned st h id) (hr : Reshaped h h') : Owned st h' id := by
  rcases hr with ⟨f, hf, rfl⟩
  intro c hc hid
  rcases List.mem_map.mp hc with ⟨old, hold, rfl⟩
  rw [(hf old).2.1]
  exact ho old hold ((hf old).1 ▸ hid)

theorem On.advanced_remove (hon : On st h) (hstg : st.stage ≠ .prepared)
    (id : ContainerId) : Advanced st h (without h id) :=
  ⟨hon.remove hstg id, rfl⟩

theorem runs_removeOwned (hw : Working st h) (ho : Owned st h id) (force : Bool) :
    Runs config st h (removeContainer id force) (fun _ st' h' => st' = st ∧ Advanced st h h')
      (fun _ st' h' => st' = st ∧ Advanced st h h') := by
  refine .mono (runs_remove hw.on hw.begun id force ?_) ?_ ?_
  · intro c hc hid
    refine .inr ⟨?_, ho c hc hid, hw.open_⟩
    exact fun htgt => hw.on.record.target_foreign c hc htgt (ho c hc hid)
  · rintro _ _ _ ⟨rfl, rfl⟩
    exact ⟨rfl, hw.on.advanced_remove hw.begun id⟩
  · rintro _ _ _ ⟨rfl, rfl | rfl⟩
    · exact ⟨rfl, hw.on, rfl⟩
    · exact ⟨rfl, hw.on.advanced_remove hw.begun id⟩

theorem Relieved.seen (hr : Relieved config.imageRef h st)
    (hseen : Seen h h') : Relieved config.imageRef h' st := by
  rcases hseen with ⟨o, rfl, hsub⟩
  exact hr.of_same rfl hsub rfl

theorem Replacement.without_target {role : Role} {image : ImageId} {c : Container}
    (hrec : RecordOk h st) (hr : Replacement config.imageRef h st role image c) :
    Replacement config.imageRef (without h st.targetId) st role image c := by
  refine ⟨List.mem_filter.mpr ⟨hr.present, ?_⟩, hr.named, hr.imaged, hr.labelled, hr.healthy⟩
  have hne : c.id ≠ st.targetId := by
    intro hid
    refine hrec.target_foreign c hr.present hid ?_
    rw [hr.labelled]
    rfl
  simpa using hne

theorem Relieved.without_target (hrec : RecordOk h st) (hr : Relieved config.imageRef h st) :
    Relieved config.imageRef (without h st.targetId) st := by
  rcases hr with ⟨hack, c, hid, hc⟩ | ⟨hack, c, hid, hc⟩
  · exact .inl ⟨hack, c, hid, hc.without_target hrec⟩
  · exact .inr ⟨hack, c, hid, hc.without_target hrec⟩

-- Once the replacement is found healthy the target is relieved, and so it may go, and the
-- record after it.
theorem runs_discardPrevious {replacement : ContainerId} (hon : On st h)
    (hstg : st.stage ≠ .prepared)
    (hrelieved : ∀ h', Seen h h' → replacement ∈ h'.observed → Relieved config.imageRef h' st) :
    Runs config st h (discardPrevious config replacement) (fun _ _ _ => True) Synced := by
  refine .seq (runs_waitHealthy st h _ replacement) hon.synced ?_
  rintro _ _ h₁ ⟨rfl, hseen, hobs⟩
  have hrel := hrelieved h₁ hseen hobs
  replace hon := hon.seen hseen
  refine .bind_record ?_
  refine .seq (runs_containerExists _ _ _) hon.synced ?_
  rintro there _ h₁ ⟨rfl, hseen⟩
  replace hon := hon.seen hseen
  replace hrel := hrel.seen hseen
  split
  · refine .seq (runs_validatePrevious _ _ _) hon.synced ?_
    rintro _ _ h₂ ⟨rfl, hseen'⟩
    replace hon := hon.seen hseen'
    replace hrel := hrel.seen hseen'
    refine .seq (runs_remove hon hstg _ false ?_) ?_ ?_
    · exact fun c _ hid => .inl ⟨hid, hrel⟩
    · rintro e _ h₃ ⟨rfl, rfl | rfl⟩
      · exact hon
      · exact hon.remove hstg _
    · rintro _ _ h₃ ⟨rfl, rfl⟩
      exact runs_clear (hon.remove hstg _) (.inr (hrel.without_target hon.record))
  · exact runs_clear hon (.inr hrel)

end Updater

end PlexManager
