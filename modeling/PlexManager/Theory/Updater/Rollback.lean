import PlexManager.Theory.Updater.Methods

/-!
# Success and rollback keep the contract

The two ways an operation ends. A success is finished from any record that has
left `prepared`: each of its parts looks at the stage and does nothing where
that part is done, so that wherever the last iteration died the next one goes
on. A rollback is only made under a record whose success was not accepted; each
of its parts asks for no more than that and leaves as much.
-/

namespace PlexManager

namespace Updater

open Coordinator Effects

variable {config : UpdaterConfig} {σ α : Type}

/-! ### Success -/

variable {h : Host} {st : UpdateState}

theorem runs_cleanupSuccess (hon : On st h) (hstg : st.stage = .outcomeAcknowledged) :
    Runs config st h (cleanupSuccess config) (fun _ _ _ => True) Synced := by
  refine .seq (runs_validateCandidate st h) hon.synced ?_
  rintro id st h₁ ⟨rfl, hseen, hcand, c, hc, rfl, himg, hlab, hname⟩
  have hbeg : st.stage ≠ .prepared := by
    rw [hstg]
    exact nofun
  refine runs_discardPrevious (hon.seen hseen) hbeg ?_
  -- The candidate was found under the configured name: the stage asks for that.
  intro h₂ hseen' hobs
  have hall := hseen.trans hseen'
  have hack := (hon.seen hall).record.succeeded hstg
  exact .inl ⟨hack, c, hcand, hall.containers ▸ hc, hname hstg, himg, hlab, hobs⟩

theorem runs_retireTarget (hon : On st h) (hstg : st.stage ≠ .prepared)
    (hcand : st.candidateId ≠ none) :
    Runs config st h retireTarget
      (fun _ st' h' => On st' h' ∧ st'.candidateId ≠ none ∧ (st'.stage = .oldRenamed ∨
        st'.stage = .candidateRenamed ∨ st'.stage = .outcomeAcknowledged)) Synced := by
  refine .bind_record ?_
  split
  · rename_i hdone
    exact .pure ⟨hon, hcand, hdone⟩
  rename_i hdone
  simp only [not_or] at hdone
  refine .seq (runs_ensureName hon hstg _ _ _) ?_ ?_
  · rintro e _ h₁ ⟨rfl, hadv⟩
    exact hadv.on
  rintro _ _ h₁ ⟨rfl, hadv⟩
  have hopen := hadv.on.not_accepted hdone.2.1 hdone.2.2
  refine .post (runs_setStage hadv.on ⟨rfl, rfl, rfl⟩ rfl rfl ?_) ?_
  · exact ⟨nofun, fun _ => hcand, nofun, nofun, nofun, fun hacc => absurd hacc hopen⟩
  · rintro _ _ h₂ ⟨rfl, hadv'⟩
    exact ⟨hadv'.on, hcand, .inl rfl⟩

theorem runs_promoteCandidate (hon : On st h) (id : ContainerId) (hcand : st.candidateId ≠ none)
    (hstg : st.stage = .oldRenamed ∨
      st.stage = .candidateRenamed ∨ st.stage = .outcomeAcknowledged) :
    Runs config st h (promoteCandidate id)
      (fun _ st' h' => On st' h' ∧ st'.candidateId ≠ none ∧
        (st'.stage = .candidateRenamed ∨ st'.stage = .outcomeAcknowledged)) Synced := by
  refine .bind_record ?_
  split
  · rename_i hold
    have hbeg : st.stage ≠ .prepared := by
      rw [hold]
      exact nofun
    refine .seq (runs_ensureName hon hbeg _ _ _) ?_ ?_
    · rintro e _ h₁ ⟨rfl, hadv⟩
      exact hadv.on
    rintro _ _ h₁ ⟨rfl, hadv⟩
    refine .post (runs_setStage hadv.on ⟨rfl, rfl, rfl⟩ rfl rfl ?_) ?_
    · exact ⟨nofun, fun _ => hcand, nofun, nofun, nofun, fun _ => .inl rfl⟩
    · rintro _ _ h₂ ⟨rfl, hadv'⟩
      exact ⟨hadv'.on, hcand, .inl rfl⟩
  · rename_i hold
    exact .pure ⟨hon, hcand, hstg.resolve_left hold⟩

theorem runs_reportSuccess (hon : On st h) (hcand : st.candidateId ≠ none)
    (hstg : st.stage = .candidateRenamed ∨ st.stage = .outcomeAcknowledged) :
    Runs config st h reportSuccess
      (fun _ st' h' => On st' h' ∧ st'.stage = .outcomeAcknowledged) Synced := by
  refine .bind_record ?_
  split
  · rename_i hren
    refine .seq (runs_outcome hon (installOutcome st .succeeded _ _ _) rfl rfl
      fun _ => hren) ?_ ?_
    · rintro e _ h₁ ⟨rfl, hnote⟩
      exact hon.noted (fun _ => hren) hnote
    rintro _ _ h₁ ⟨rfl, hnote, hack⟩
    have hon' := hon.noted (fun _ => hren) hnote
    refine .post (runs_setStage hon' ⟨rfl, rfl, rfl⟩ rfl rfl ?_) ?_
    · exact ⟨nofun, fun _ => hcand, nofun, fun _ => hack, nofun, fun _ => .inr rfl⟩
    · rintro _ _ h₂ ⟨rfl, hadv⟩
      exact ⟨hadv.on, rfl⟩
  · rename_i hren
    exact .pure ⟨hon, hstg.resolve_left hren⟩

theorem runs_finishSuccess (hon : On st h) (hstg : st.stage ≠ .prepared) :
    Runs config st h (finishSuccess config) (fun _ _ _ => True) Synced := by
  refine .seq (runs_validateCandidate st h) hon.synced ?_
  rintro id st h₁ ⟨rfl, hseen, hcand, -⟩
  replace hon := hon.seen hseen
  have hsome : st.candidateId ≠ none := by
    rw [hcand]
    exact nofun
  refine .seq (runs_waitHealthy _ _ _ _) hon.synced ?_
  rintro _ st h₂ ⟨rfl, hseen', -⟩
  refine .bind (runs_retireTarget (hon.seen hseen') hstg hsome) ?_
  rintro _ st₁ h₃ ⟨hon₁, hcand₁, hstg₁⟩
  refine .bind (runs_promoteCandidate hon₁ id hcand₁ hstg₁) ?_
  rintro _ st₂ h₄ ⟨hon₂, hcand₂, hstg₂⟩
  refine .bind (runs_reportSuccess hon₂ hcand₂ hstg₂) ?_
  rintro _ st₃ h₅ ⟨hon₃, hstg₃⟩
  exact runs_cleanupSuccess hon₃ hstg₃

/-! ### Rollback -/

abbrev Anyhow : Failure → σ → Host → Prop := fun _ _ _ => True

theorem runs_attempt {st : σ} {x : UpdaterM σ Unit} {Q E : σ → Host → Prop}
    (tolerated : Failure → Bool) (hx : Runs config st h x (fun _ => Q) (fun _ => E)) :
    Runs config st h (attempt x tolerated)
      (fun done st' h' => done = true ∧ Q st' h' ∨ done = false ∧ E st' h') (fun _ => E) := by
  refine .tryCatch (?_ : Spec _ _ st h _ _ fun _ => E) ?_
  · refine .bind hx ?_
    intro _ st' h' hQ
    exact .pure (.inl ⟨rfl, hQ⟩)
  · intro e st' h' hE
    split
    · exact .pure (.inr ⟨rfl, hE⟩)
    · exact .raise hE

theorem runs_cleanupRollback (hon : On st h) (hstg : st.stage = .rollbackAcknowledged) :
    Runs config st h (cleanupRollback config) (fun _ _ _ => True) Synced := by
  refine .seq (runs_validateRollback st h) hon.synced ?_
  rintro c st h₁ ⟨rfl, hseen, hroll, hc, himg, hname, hlab⟩
  refine .seq (runs_validateNetworkFidelity st h₁ c) (hon.seen hseen).synced ?_
  rintro _ st _ ⟨rfl, rfl⟩
  have hbeg : st.stage ≠ .prepared := by
    rw [hstg]
    exact nofun
  refine runs_discardPrevious (hon.seen hseen) hbeg ?_
  intro h₂ hseen' hobs
  have hall := hseen.trans hseen'
  have hack := (hon.seen hall).record.rolledBack hstg
  exact .inr ⟨hack, c, hroll, hall.containers ▸ hc, hname, himg, hlab, hobs⟩

theorem runs_finishRollbackOutcome (hw : Working st h) :
    Runs config st h (finishRollbackOutcome config) (fun _ _ _ => True) Synced := by
  have hon := hw.on
  refine .seq (runs_validateRollback st h) hon.synced ?_
  rintro c st h₁ ⟨rfl, hseen, hroll, -⟩
  refine .seq (runs_validateNetworkFidelity st h₁ c) (hon.seen hseen).synced ?_
  rintro _ st _ ⟨rfl, rfl⟩
  refine .seq (runs_waitHealthy _ _ _ _) (hon.seen hseen).synced ?_
  rintro _ st h₂ ⟨rfl, hseen', -⟩
  replace hw := hw.seen (hseen.trans hseen')
  refine .bind_record ?_
  have hoth : Outcome.rolledBack = .succeeded → st.stage = .candidateRenamed := nofun
  refine .seq (runs_outcome hw.on (installOutcome st .rolledBack _ _ _) rfl rfl hoth) ?_ ?_
  · rintro e _ h₃ ⟨rfl, hnote⟩
    exact hw.on.noted hoth hnote
  rintro _ st h₃ ⟨rfl, hnote, hack⟩
  have hon₃ := hw.on.noted hoth hnote
  have hopen : ¬ Accepted h₃ st.operationId := by
    rcases hnote with rfl | ⟨accepted, rfl⟩
    · exact hw.open_
    · intro hacc
      rcases accepted_cons hacc with hacc | ⟨-, hout, -⟩
      · exact hw.open_ hacc
      · exact nomatch hout
  have hsome : st.rollbackId ≠ none := by
    rw [hroll]
    exact nofun
  refine .bind (runs_setStage hon₃ ⟨rfl, rfl, rfl⟩ rfl rfl ?_) ?_
  · exact ⟨nofun, nofun, fun _ => hsome, nofun, fun _ => hack, fun hacc => absurd hacc hopen⟩
  rintro _ _ h₄ ⟨rfl, hadv⟩
  exact runs_cleanupRollback hadv.on rfl

theorem Advanced.enter {st' : UpdateState} {h' : Host} (ha : Advanced st' h h') (hw : Working st h)
    (hop : st'.operationId = st.operationId) (hstg : st'.stage ≠ .prepared) : Working st' h' := by
  refine ⟨ha.on, hstg, ?_⟩
  simp only [Accepted, ha.outcomes, hop]
  exact hw.open_

theorem runs_setRollbackStage {old : UpdateState} {stage : UpdateStage}
    {E : Failure → UpdateState → Host → Prop} (hw : Working old h) (hcont : Continues old st)
    (htok : old.leaseToken = st.leaseToken) (hgen : old.actionGeneration = st.actionGeneration)
    (hstg : stage = .rollbackRequested ∨ st.rollbackId ≠ none ∧
      (stage = .rollbackCreated ∨ stage = .rollbackNetworked ∨ stage = .rollbackStarted ∨
        stage = .rollbackHealthy)) :
    Runs config st h (setStage stage)
      (fun _ st' h' => st' = { st with stage := stage } ∧ Working st' h') E := by
  have hopen : ¬ Accepted h st.operationId := hcont.operation ▸ hw.open_
  have hent : Entitled st h stage := by
    rcases hstg with rfl | ⟨hroll, rfl | rfl | rfl | rfl⟩
    · exact ⟨nofun, nofun, nofun, nofun, nofun, fun hacc => absurd hacc hopen⟩
    all_goals
      exact ⟨nofun, nofun, fun _ => hroll, nofun, nofun, fun hacc => absurd hacc hopen⟩
  refine .post (runs_setStage hw.on hcont htok hgen hent) ?_
  rintro _ _ h' ⟨rfl, hadv⟩
  exact ⟨rfl, hadv.enter hw hcont.operation hent.begun⟩

section

variable (hw : Working st h)
include hw

theorem runs_enterRollback : Runs config st h enterRollback (fun _ => Working) Anyhow := by
  refine .bind_record ?_
  split
  · exact .pure hw
  · refine .post (runs_setRollbackStage hw ⟨rfl, rfl, rfl⟩ rfl rfl (.inl rfl)) ?_
    rintro _ _ h' ⟨-, hw'⟩
    exact hw'

theorem runs_announceRollback : Runs config st h announceRollback (fun _ => Working) Anyhow := by
  refine .tryCatch (?_ : Spec _ _ st h _ _ fun _ => Working) ?_
  · refine .seq (runs_renew st h _ _) ?_ ?_
    · rintro e _ _ ⟨rfl, rfl⟩
      exact hw
    · rintro progress _ _ ⟨rfl, rfl, -⟩
      split
      · exact .pure hw
      · exact .raise hw
  · intro e st' h' hw'
    split
    · exact .pure hw'
    · exact .raise trivial

theorem runs_adoptCandidate : Runs config st h adoptCandidate (fun _ => Working) Anyhow := by
  refine .bind_record ?_
  split
  · refine .go (runs_findOperationContainer st h .candidate) ?_
    rintro found _ _ ⟨rfl, rfl⟩
    split
    · exact .pure hw
    rename_i id
    have hrec := hw.on.record
    have hchk := fromJson_eq_some.mp hrec.loads
    refine .post (runs_persist hw.on (hrec.rewrite ⟨rfl, rfl, rfl⟩ hw.begun (fun _ => nofun)
      hchk.2.2 hrec.succeeded hrec.rolledBack hrec.accepted) rfl fun _ => ⟨rfl, rfl⟩) ?_
    rintro _ _ h' ⟨rfl, hadv⟩
    exact hadv.enter hw rfl hw.begun
  · exact .pure hw

theorem runs_discardOwned {id : ContainerId} (ho : Owned st h id) :
    Runs config st h (suppressDocker (stopContainer id) >>= fun _ => removeContainer id true)
      (fun _ st' h' => st' = st ∧ Working st' h') Anyhow := by
  refine .go (runs_suppressDocker _ hw.on hw.begun (runs_stop hw.on hw.begun id)) ?_
  rintro _ st h₁ ⟨rfl, hr⟩
  have hw₁ := hw.reshape hr
  refine .mono (runs_removeOwned hw₁ (ho.reshape hr) true) ?_ fun _ _ _ _ => trivial
  rintro _ _ h₂ ⟨rfl, hadv⟩
  exact ⟨rfl, hadv.working hw₁⟩

theorem runs_discardCandidate :
    Runs config st h (discardCandidate config) (fun _ => Working) Anyhow := by
  refine .bind_record ?_
  split
  · exact .pure hw
  rename_i id hid
  refine .go (runs_containerExists st h id) ?_
  rintro there st h₁ ⟨rfl, hseen⟩
  split
  · refine .go (runs_validateOperationContainer _ _ _ _ _ _) ?_
    rintro c st h₂ ⟨rfl, hseen', hc, rfl, -, -, hlab⟩
    have hown : Owned st h₁ c.id := by
      refine (hw.on.host.seen hseen).owned hc ?_
      rw [hlab]
      rfl
    refine .post (runs_discardOwned (hw.seen (hseen.trans hseen')) (hown.seen hseen')) ?_
    rintro _ _ h₃ ⟨-, hw'⟩
    exact hw'
  · exact .pure (hw.seen hseen)

theorem runs_setPreviousAside :
    Runs config st h (setPreviousAside config) (fun _ => Working) Anyhow := by
  refine .bind_record ?_
  refine .go (runs_validatePrevious st h _) ?_
  rintro _ st h₁ ⟨rfl, hseen⟩
  replace hw := hw.seen hseen
  refine .go (runs_suppressDocker _ hw.on hw.begun (runs_stop hw.on hw.begun _)) ?_
  rintro _ st h₂ ⟨rfl, hr⟩
  replace hw := hw.reshape hr
  refine .go (runs_ensureName hw.on hw.begun _ _ _) ?_
  rintro _ st h₃ ⟨rfl, hadv⟩
  replace hw := hadv.working hw
  refine .go (runs_validatePrevious st h₃ _) ?_
  rintro previous st h₄ ⟨rfl, hseen'⟩
  replace hw := hw.seen hseen'
  refine .bind (.forM _ _ hw ?_) ?_
  · intro entry _ st' h' hw'
    refine .mono (runs_suppressDocker _ hw'.on hw'.begun
      (runs_disconnect hw'.on hw'.begun _ _)) ?_ fun _ _ _ _ => trivial
    rintro _ _ h'' ⟨rfl, hr'⟩
    exact hw'.reshape hr'
  · intro _ st' h' hw'
    exact .pure hw'

theorem runs_adoptRollback : Runs config st h adoptRollback (fun _ => Working) Anyhow := by
  refine .bind_record ?_
  split
  · refine .go (runs_findOperationContainer st h .rollback) ?_
    rintro found _ _ ⟨rfl, rfl⟩
    split
    · exact .pure hw
    refine .bind_modifyRecord ?_
    refine .post (runs_setRollbackStage hw ⟨rfl, rfl, rfl⟩ rfl rfl
      (.inr ⟨nofun, .inl rfl⟩)) ?_
    rintro _ _ h' ⟨-, hw'⟩
    exact hw'
  · exact .pure hw

theorem runs_forgetRollback : Runs config st h forgetRollback (fun _ => Working) Anyhow := by
  refine .post (runs_setRollbackStage hw ⟨rfl, rfl, rfl⟩ rfl rfl (.inl rfl)) ?_
  rintro _ _ h' ⟨-, hw'⟩
  exact hw'

theorem runs_dropMissingRollback :
    Runs config st h dropMissingRollback (fun _ => Working) Anyhow := by
  refine .bind_record ?_
  split
  · exact .pure hw
  refine .go (runs_containerExists st h _) ?_
  rintro there st h₁ ⟨rfl, hseen⟩
  split
  · exact .pure (hw.seen hseen)
  · exact runs_forgetRollback (hw.seen hseen)

theorem runs_recheckRollback :
    Runs config st h (recheckRollback config) (fun _ => Working) Anyhow := by
  refine .bind_record ?_
  split
  · exact .pure hw
  rename_i id hid
  refine .go (runs_validateRollback st h) ?_
  rintro c st h₁ ⟨rfl, hseen, hroll, hc, -, -, hlab⟩
  obtain rfl : id = c.id := Option.some.inj (hid.symm.trans hroll)
  have hown : Owned st h c.id := by
    refine hw.on.host.owned hc ?_
    rw [hlab]
    rfl
  replace hw := hw.seen hseen
  replace hown := hown.seen hseen
  split
  · have hwait : Runs config st h₁ (waitHealthy config.healthRounds c.id)
        (fun _ st' h' => st' = st ∧ Seen h₁ h') (fun _ st' h' => st' = st ∧ Seen h₁ h') :=
      (runs_waitHealthy st h₁ _ c.id).mono (fun _ _ _ hQ => ⟨hQ.1, hQ.2.1⟩) fun _ _ _ hE => hE
    refine .go (runs_attempt _ hwait) ?_
    rintro healthy st' h₂ hcas
    have hboth : st' = st ∧ Seen h₁ h₂ := by
      rcases hcas with ⟨-, hsame⟩ | ⟨-, hsame⟩
      · exact hsame
      · exact hsame
    rcases hboth with ⟨rfl, hseen'⟩
    split
    · exact .pure (hw.seen hseen')
    refine .go (runs_suppressDocker _ (hw.seen hseen').on hw.begun
      (runs_stop (hw.seen hseen').on hw.begun c.id)) ?_
    rintro _ st h₃ ⟨rfl, hr⟩
    have hw₃ := (hw.seen hseen').reshape hr
    refine .go (runs_removeOwned hw₃ ((hown.seen hseen').reshape hr) true) ?_
    rintro _ st h₄ ⟨rfl, hadv⟩
    exact runs_forgetRollback (hadv.working hw₃)
  · exact .pure hw

theorem runs_ensureRollback (previous : Container) :
    Runs config st h (ensureRollback config previous)
      (fun _ st' h' => Working st' h' ∧ st'.rollbackId ≠ none) Anyhow := by
  refine .bind_record ?_
  split
  · rename_i id hid
    refine .pure ⟨hw, ?_⟩
    rw [hid]
    exact nofun
  refine .go (runs_inspectImage st h _) ?_
  rintro oldImage _ _ ⟨rfl, rfl, -⟩
  refine .go (runs_multiNetworkCreate _ _) ?_
  rintro multi st h ⟨rfl, rfl, -⟩
  split
  · exact .raise trivial
  rename_i spec created hspec
  have hlab : spec.labels.operation = some st.operationId := by
    rw [(buildRollbackSpec_eq_ok hspec).2]
    rfl
  refine .go (runs_create hw.on hw.begun _ spec hlab) ?_
  rintro id st h₁ ⟨rfl, hon₁, hsame⟩
  replace hw := Advanced.working ⟨hon₁, hsame⟩ hw
  refine .bind_modifyRecord ?_
  refine .bind (runs_setRollbackStage hw ⟨rfl, rfl, rfl⟩ rfl rfl
    (.inr ⟨nofun, .inl rfl⟩)) ?_
  rintro _ _ h₂ ⟨rfl, hw'⟩
  exact .pure ⟨hw', nofun⟩

theorem runs_ensureRollbackNetworks (id : ContainerId) :
    Runs config st h (ensureRollbackNetworks config id) (fun _ st' h' => st' = st ∧ Working st' h')
      Anyhow := by
  refine .go (runs_validateRollback st h) ?_
  rintro c st h₁ ⟨rfl, hseen, -⟩
  replace hw := hw.seen hseen
  refine .bind_record ?_
  dsimp only
  split
  · exact .raise trivial
  refine .forM _ _ ⟨rfl, hw⟩ ?_
  rintro entry _ _ h' ⟨rfl, hw'⟩
  refine .mono (runs_connect hw'.on hw'.begun _ _ _) ?_ fun _ _ _ _ => trivial
  rintro _ _ h'' ⟨rfl, hr⟩
  exact ⟨rfl, hw'.reshape hr⟩

theorem runs_connectRollback (hroll : st.rollbackId ≠ none) (id : ContainerId) :
    Runs config st h (connectRollback config id)
      (fun _ st' h' => Working st' h' ∧ st'.rollbackId ≠ none) Anyhow := by
  refine .bind_record ?_
  split
  · refine .bind (runs_ensureRollbackNetworks hw id) ?_
    rintro _ st h₁ ⟨rfl, hw₁⟩
    refine .post (runs_setRollbackStage hw₁ ⟨rfl, rfl, rfl⟩ rfl rfl
      (.inr ⟨hroll, .inr (.inl rfl)⟩)) ?_
    rintro _ _ h₂ ⟨rfl, hw₂⟩
    exact ⟨hw₂, hroll⟩
  · exact .pure ⟨hw, hroll⟩

theorem runs_startRollback (hroll : st.rollbackId ≠ none) (id : ContainerId) :
    Runs config st h (startRollback id)
      (fun _ st' h' => Working st' h' ∧ st'.rollbackId ≠ none) Anyhow := by
  refine .bind_record ?_
  split
  · refine .go (runs_start hw.on hw.begun id) ?_
    rintro _ st h₁ ⟨rfl, hr⟩
    refine .post (runs_setRollbackStage (hw.reshape hr) ⟨rfl, rfl, rfl⟩ rfl rfl
      (.inr ⟨hroll, .inr (.inr (.inl rfl))⟩)) ?_
    rintro _ _ h₂ ⟨rfl, hw₂⟩
    exact ⟨hw₂, hroll⟩
  · exact .pure ⟨hw, hroll⟩

theorem runs_rollback (detailCode : String) (acknowledge : Bool) :
    Runs config st h (rollback config detailCode acknowledge) (fun _ _ _ => True) Anyhow := by
  refine .bind (runs_rememberDetail detailCode hw.on) ?_
  rintro _ _ h₁ ⟨⟨detail, rfl⟩, hadv⟩
  replace hw := hadv.enter hw rfl hw.begun
  refine .bind (runs_enterRollback hw) ?_
  intro _ st₂ h₂ hw
  refine .bind (runs_announceRollback hw) ?_
  intro _ st₃ h₃ hw
  refine .bind (runs_adoptCandidate hw) ?_
  intro _ st₄ h₄ hw
  refine .bind (runs_discardCandidate hw) ?_
  intro _ st₅ h₅ hw
  refine .bind (runs_setPreviousAside hw) ?_
  intro previous st₆ h₆ hw
  refine .bind (runs_adoptRollback hw) ?_
  intro _ st₇ h₇ hw
  refine .bind (runs_dropMissingRollback hw) ?_
  intro _ st₈ h₈ hw
  refine .bind (runs_recheckRollback hw) ?_
  intro _ st₉ h₉ hw
  refine .bind (runs_ensureRollback hw previous) ?_
  rintro id st₁₀ h₁₀ ⟨hw, hroll⟩
  refine .bind (runs_connectRollback hw hroll id) ?_
  rintro _ st₁₁ h₁₁ ⟨hw, hroll⟩
  refine .bind (runs_startRollback hw hroll id) ?_
  rintro _ st₁₂ h₁₂ ⟨hw, hroll⟩
  refine .go (runs_waitHealthy _ _ _ id) ?_
  rintro _ _ h₁₃ ⟨rfl, hseen, -⟩
  replace hw := hw.seen hseen
  refine .bind (runs_setRollbackStage hw ⟨rfl, rfl, rfl⟩ rfl rfl
    (.inr ⟨hroll, .inr (.inr (.inr rfl))⟩)) ?_
  rintro _ _ h₁₄ ⟨-, hw⟩
  split
  · exact .mono (runs_finishRollbackOutcome hw) (fun _ _ _ hQ => hQ) fun _ _ _ _ => trivial
  · exact .pure trivial

end

end Updater

end PlexManager
