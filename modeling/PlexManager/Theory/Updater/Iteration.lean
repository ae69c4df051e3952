import PlexManager.Theory.Updater.Rollback

/-!
# One iteration keeps the contract

What an iteration does with a record on file, and without one. A rollback needs
that the success of the operation is open, and that it is is what the recovery
lease is for: the coordinator answers a renewal or a claim only while it has not
accepted the success of the operation on file. The leave to roll back without
the coordinator is bound to stages at which no success can have been reported.
-/

namespace PlexManager

namespace Updater

open Coordinator Effects

variable {config : UpdaterConfig} {σ α : Type}

/-! ### Install -/

variable {h : Host} {st : UpdateState}

theorem runs_ackPreCutoverFailure (hon : On st h) (hstg : st.stage = .prepared)
    (detailCode : String) :
    Runs config st h (ackPreCutoverFailure detailCode) (fun _ _ _ => True) Synced := by
  refine .bind (runs_rememberDetail detailCode hon) ?_
  rintro _ _ h₁ ⟨⟨detail, rfl⟩, hadv⟩
  refine .bind_record ?_
  have hoth : Outcome.failed = .succeeded → st.stage = .candidateRenamed := nofun
  refine .seq (runs_outcome hadv.on (installOutcome _ .failed _ _ _) rfl rfl hoth) ?_ ?_
  · rintro e _ h₂ ⟨rfl, hnote⟩
    exact hadv.on.noted hoth hnote
  · rintro _ _ h₂ ⟨rfl, hnote, -⟩
    -- Nothing was touched: the target still stands under the configured name.
    have hon₂ := hadv.on.noted hoth hnote
    exact runs_clear hon₂ (.inl ⟨hstg, (hon₂.record.prepared hstg).2⟩)

theorem runs_setForwardStage {old : UpdateState} {stage : UpdateStage}
    {E : Failure → UpdateState → Host → Prop} (hon : On old h)
    (hopen : ¬ Accepted h old.operationId) (hcont : Continues old st)
    (htok : old.leaseToken = st.leaseToken) (hgen : old.actionGeneration = st.actionGeneration)
    (hstg : stage = .stopRequested ∨ stage = .oldStopped ∨ stage = .oldDisconnected ∨
      st.candidateId ≠ none ∧
        (stage = .candidateCreated ∨ stage = .candidateStarted ∨ stage = .candidateHealthy)) :
    Runs config st h (setStage stage)
      (fun _ st' h' => st' = { st with stage := stage } ∧ Working st' h') E := by
  have hopen' : ¬ Accepted h st.operationId := hcont.operation ▸ hopen
  have hent : Entitled st h stage := by
    rcases hstg with rfl | rfl | rfl | ⟨hcand, rfl | rfl | rfl⟩
    iterate 3 exact ⟨nofun, nofun, nofun, nofun, nofun, fun hacc => absurd hacc hopen'⟩
    all_goals
      exact ⟨nofun, fun _ => hcand, nofun, nofun, nofun, fun hacc => absurd hacc hopen'⟩
  refine .post (runs_setStage hon hcont htok hgen hent) ?_
  rintro _ _ h' ⟨rfl, hadv⟩
  refine ⟨rfl, hadv.on, hent.begun, ?_⟩
  simp only [Accepted, hadv.outcomes]
  exact hopen'

theorem runs_install (hon : On st h) (hstg : st.stage = .prepared) (target : Container)
    (oldImage desired : Image) :
    Runs config st h (install config target oldImage desired) (fun _ _ _ => True) Synced := by
  have hopen : ¬ Accepted h st.operationId := by
    refine hon.not_accepted ?_ ?_
    · rw [hstg]
      exact nofun
    · rw [hstg]
      exact nofun
  refine .bind_record ?_
  refine .bind (runs_setForwardStage hon hopen ⟨rfl, rfl, rfl⟩ rfl rfl (.inl rfl)) ?_
  rintro _ _ h₁ ⟨rfl, hw⟩
  refine .seq (runs_stop hw.on hw.begun _) ?_ ?_
  · rintro e _ h₂ ⟨rfl, hr⟩
    exact (hw.reshape hr).on
  rintro _ _ h₂ ⟨rfl, hr⟩
  replace hw := hw.reshape hr
  refine .bind (runs_setForwardStage hw.on hw.open_ ⟨rfl, rfl, rfl⟩ rfl rfl
    (.inr (.inl rfl))) ?_
  rintro _ _ h₃ ⟨rfl, hw⟩
  -- The target is stopped, and leaves its networks one by one.
  refine .bind (.forM
    (I := fun st' h' => Working st' h' ∧ st'.operationId = st.operationId) _ _ ⟨hw, rfl⟩ ?_) ?_
  · rintro entry _ st' h' ⟨hw', hop'⟩
    refine .mono (runs_disconnect hw'.on hw'.begun _ _) ?_ ?_
    · rintro _ _ h'' ⟨rfl, hr'⟩
      exact ⟨hw'.reshape hr', hop'⟩
    · rintro e _ h'' ⟨rfl, hr'⟩
      exact (hw'.reshape hr').on
  rintro _ st₄ h₄ ⟨hw, hop₄⟩
  refine .bind (runs_setForwardStage hw.on hw.open_ ⟨rfl, rfl, rfl⟩ rfl rfl
    (.inr (.inr (.inl rfl)))) ?_
  rintro _ _ h₅ ⟨rfl, hw⟩
  refine .seq (runs_multiNetworkCreate _ _) ?_ ?_
  · rintro e _ _ ⟨rfl, rfl⟩
    exact hw.on
  rintro multi _ _ ⟨rfl, rfl, -⟩
  split
  · exact .raise hw.on
  rename_i spec created hspec
  -- The candidate carries the id of the operation, by which it is found again.
  have hlab : spec.labels.operation = some st₄.operationId := by
    rw [(buildCandidateSpec_eq_ok hspec).2, hop₄]
    rfl
  refine .seq (runs_create hw.on hw.begun _ spec hlab) ?_ ?_
  · rintro e _ h₆ ⟨rfl, hon₆, -⟩
    exact hon₆
  rintro id _ h₆ ⟨rfl, hon₆, hsame⟩
  replace hw := Advanced.working ⟨hon₆, hsame⟩ hw
  refine .bind_modifyRecord ?_
  refine .bind (runs_setForwardStage hw.on hw.open_ ⟨rfl, rfl, rfl⟩ rfl rfl
    (.inr (.inr (.inr ⟨nofun, .inl rfl⟩)))) ?_
  rintro _ _ h₇ ⟨rfl, hw⟩
  -- The candidate joins the networks, is started and waited for.
  refine .bind (.forM
    (I := fun st' h' => Working st' h' ∧ st'.candidateId ≠ none) _ _ ⟨hw, nofun⟩ ?_) ?_
  · rintro entry _ st' h' ⟨hw', hcand'⟩
    refine .mono (runs_connect hw'.on hw'.begun _ _ _) ?_ ?_
    · rintro _ _ h'' ⟨rfl, hr'⟩
      exact ⟨hw'.reshape hr', hcand'⟩
    · rintro e _ h'' ⟨rfl, hr'⟩
      exact (hw'.reshape hr').on
  rintro _ st₈ h₈ ⟨hw, hcand⟩
  refine .seq (runs_start hw.on hw.begun id) ?_ ?_
  · rintro e _ h₉ ⟨rfl, hr'⟩
    exact (hw.reshape hr').on
  rintro _ _ h₉ ⟨rfl, hr'⟩
  replace hw := hw.reshape hr'
  refine .bind (runs_setForwardStage hw.on hw.open_ ⟨rfl, rfl, rfl⟩ rfl rfl
    (.inr (.inr (.inr ⟨hcand, .inr (.inl rfl)⟩)))) ?_
  rintro _ _ h₁₀ ⟨rfl, hw⟩
  refine .seq (runs_waitHealthy _ _ _ id) ?_ ?_
  · rintro e _ h₁₁ ⟨rfl, hseen⟩
    exact (hw.seen hseen).on
  rintro _ _ h₁₁ ⟨rfl, hseen, -⟩
  replace hw := hw.seen hseen
  refine .bind (runs_setForwardStage hw.on hw.open_ ⟨rfl, rfl, rfl⟩ rfl rfl
    (.inr (.inr (.inr ⟨hcand, .inr (.inr rfl)⟩)))) ?_
  rintro _ _ h₁₂ ⟨rfl, hw⟩
  exact runs_finishSuccess hw.on hw.begun

-- A failed install is given up, left to a retry or rolled back, as far as it had got.
theorem runs_executeInstall (hon : On st h) (hstg : st.stage = .prepared) (target : Container)
    (oldImage desired : Image) :
    Runs config st h (executeInstall config target oldImage desired) (fun _ _ _ => True)
      Anyhow := by
  refine .tryCatch (runs_install hon hstg target oldImage desired) ?_
  intro e st₁ h₁ hon₁
  split
  · exact .raise trivial
  refine .bind_record ?_
  split
  · rename_i hprep
    exact (runs_ackPreCutoverFailure hon₁ hprep e.code).anyhow
  split
  · exact .raise trivial
  rename_i hprep hretried
  have hopen : ¬ Accepted h₁ st₁.operationId := by
    refine hon₁.not_accepted ?_ ?_
    · intro hs
      exact hretried (hs ▸ rfl)
    · intro hs
      exact hretried (hs ▸ rfl)
  exact runs_rollback ⟨hon₁, hprep, hopen⟩ e.code true

/-! ### Recovery -/

theorem runs_presentCandidate (hon : On st h) :
    Runs config st h presentCandidate
      (fun found st' h' => st' = st ∧ Seen h h' ∧ (found ≠ none → st.candidateId ≠ none))
      Synced := by
  refine .bind_record ?_
  split
  · exact .pure ⟨rfl, Seen.refl h, fun hne => absurd rfl hne⟩
  rename_i id hid
  refine .seq (runs_containerExists st h id) hon.synced ?_
  · rintro there st h₁ ⟨rfl, hseen⟩
    refine .pure ⟨rfl, hseen, fun _ => ?_⟩
    rw [hid]
    exact nofun

theorem runs_candidateFailure (st : UpdateState) (h : Host) (id : ContainerId) :
    Runs config st h (candidateFailure config id) (fun _ st' h' => st' = st ∧ Seen h h')
      (Idle st h) := by
  refine .tryCatch (?_ : Spec _ _ st h _ _ (Idle st h)) ?_
  · refine .bind (runs_waitHealthy st h _ id) ?_
    rintro _ _ h₁ ⟨rfl, hseen, -⟩
    exact .pure ⟨rfl, hseen⟩
  · rintro e _ h₁ ⟨rfl, hseen⟩
    split
    · exact .pure ⟨rfl, hseen⟩
    · exact .raise ⟨rfl, hseen⟩

-- The recovery of an operation whose success is open, or is acknowledged on file.
theorem runs_recover (hon : On st h)
    (hopen : st.stage = .outcomeAcknowledged ∨ ¬ Accepted h st.operationId) :
    Runs config st h (recover config) (fun _ _ _ => True) Anyhow := by
  refine .bind_record ?_
  split
  · rename_i hack
    exact (runs_cleanupSuccess hon hack).anyhow
  rename_i hack
  replace hopen := hopen.resolve_left hack
  split
  · rename_i hback
    exact (runs_cleanupRollback hon hback).anyhow
  split
  · rename_i hroll
    refine runs_rollback ⟨hon, ?_, hopen⟩ _ true
    intro hprep
    rw [hprep] at hroll
    cases hroll
  refine .go (runs_presentCandidate hon) ?_
  rintro found st h₁ ⟨rfl, hseen, hcand⟩
  replace hon := hon.seen hseen
  replace hopen : ¬ Accepted h₁ st.operationId := by
    simp only [Accepted, hseen.outcomes]
    exact hopen
  split
  · rename_i id
    have hbeg : st.stage ≠ .prepared := by
      intro hprep
      exact hcand (fun h => by cases h) (hon.record.prepared hprep).1
    have hw : Working st h₁ := ⟨hon, hbeg, hopen⟩
    refine .go (runs_validateCandidate st h₁) ?_
    rintro _ st h₂ ⟨rfl, hseen₂, -⟩
    refine .go (runs_candidateFailure st h₂ id) ?_
    rintro failure st h₃ ⟨rfl, hseen₃⟩
    have hw₃ := hw.seen (hseen₂.trans hseen₃)
    split
    · exact runs_rollback hw₃ _ true
    · exact (runs_finishSuccess hw₃.on hw₃.begun).anyhow
  · split
    · rename_i hprep
      exact (runs_ackPreCutoverFailure hon hprep _).anyhow
    · rename_i hprep
      exact runs_rollback ⟨hon, hprep, hopen⟩ _ true

theorem runs_awaitDrained (st : σ) (h : Host) (rounds : Nat) (token : TokenHash)
    (lease : LeaseStatus) :
    Runs config st h (awaitDrained rounds token lease) (Unmoved st h) (Unmoved st h) := by
  have hgiveUp : Runs config st h
      (Updater.request (.release token) rfl >>= fun _ : Unit =>
        (raise "maintenance_drain_timeout" : UpdaterM σ LeaseStatus))
      (Unmoved st h) (Unmoved st h) := by
    refine .bind (runs_release st h token) ?_
    rintro _ _ _ ⟨rfl, rfl, -⟩
    exact .raise ⟨rfl, rfl⟩
  induction rounds generalizing lease with
  | zero =>
    unfold awaitDrained
    split
    · exact .pure ⟨rfl, rfl⟩
    · exact hgiveUp
  | succ rounds ih =>
    unfold awaitDrained
    split
    · exact .pure ⟨rfl, rfl⟩
    refine .bind runs_deadlinePassed ?_
    rintro passed _ _ ⟨rfl, rfl⟩
    split
    · exact hgiveUp
    · refine .bind (runs_renew _ _ token none) ?_
      rintro lease' _ _ ⟨rfl, rfl, -⟩
      exact ih lease'

theorem runs_claimReady (st : σ) (h : Host) (body : UpdateClaimRequest) :
    Runs config st h (claimReady config body)
      (fun lease st' h' => st' = st ∧ h' = h ∧ (lease ≠ none → ∀ record, h.file = some record →
        body = ⟨true, some record.actionGeneration⟩ → ¬ Accepted h record.operationId))
      (Unmoved st h) := by
  refine .bind (runs_claim st h body) ?_
  rintro lease _ _ ⟨rfl, rfl, hopen⟩
  split
  · exact .pure ⟨rfl, rfl, fun hne => absurd rfl hne⟩
  · refine .bind (runs_awaitDrained _ _ _ _ _) ?_
    rintro lease' _ _ ⟨rfl, rfl⟩
    exact .pure ⟨rfl, rfl, fun _ => hopen⟩

theorem runs_awaitRenewed (st : UpdateState) (h : Host) (rounds : Nat) (renewed : LeaseStatus) :
    Runs config st h (awaitRenewed rounds renewed) (Unmoved st h) (Unmoved st h) := by
  induction rounds generalizing renewed with
  | zero => exact .pure ⟨rfl, rfl⟩
  | succ rounds ih =>
    unfold awaitRenewed
    split
    · exact .pure ⟨rfl, rfl⟩
    refine .bind runs_deadlinePassed ?_
    rintro passed _ _ ⟨rfl, rfl⟩
    split
    · exact .pure ⟨rfl, rfl⟩
    refine .bind_record ?_
    refine .bind (runs_renew _ _ _ _) ?_
    rintro renewed' _ _ ⟨rfl, rfl, -⟩
    exact ih renewed'

theorem runs_ensureRecoveryLease (hon : On st h) :
    Runs config st h (ensureRecoveryLease config)
      (fun lease st' h' => On st' h' ∧ (lease ≠ none → ¬ Accepted h' st'.operationId))
      Synced := by
  refine .bind (Q := fun renewed st' h' => st' = st ∧ h' = h ∧
    (renewed ≠ none → ¬ Accepted h st.operationId)) ?_ ?_
  · refine .tryCatch (?_ : Spec _ _ st h _ _ (Unmoved st h)) ?_
    · refine .bind (runs_renew st h _ _) ?_
      rintro renewed _ _ ⟨rfl, rfl, hopen⟩
      exact .pure ⟨rfl, rfl, fun _ => hopen _ hon.file rfl⟩
    · rintro e _ _ ⟨rfl, rfl⟩
      split
      · exact .pure ⟨rfl, rfl, fun hne => absurd rfl hne⟩
      · exact .raise hon
  rintro renewed _ _ ⟨rfl, rfl, hopen⟩
  split
  · refine .mono (runs_awaitRenewed _ _ _ _) ?_ ?_
    · rintro lease _ _ ⟨rfl, rfl⟩
      exact ⟨hon, fun _ => hopen nofun⟩
    · rintro e _ _ ⟨rfl, rfl⟩
      exact hon
  refine .seq (runs_claimReady _ _ _) ?_ ?_
  · rintro e _ _ ⟨rfl, rfl⟩
    exact hon
  rintro replacement st h ⟨rfl, rfl, hcl⟩
  split
  · exact .pure ⟨hon, fun hne => absurd rfl hne⟩
  split
  · exact .pure ⟨hon, fun hne => absurd rfl hne⟩
  have hopen' : ¬ Accepted h st.operationId := hcl nofun st hon.file rfl
  refine .bind_modifyRecord ?_
  refine .bind (runs_persist hon (hon.record.renote ⟨rfl, rfl, rfl⟩ rfl rfl rfl) rfl
    fun hacc => absurd hacc hopen') ?_
  rintro _ _ h₁ ⟨rfl, hadv⟩
  refine .pure ⟨hadv.on, fun _ => ?_⟩
  simp only [Accepted, hadv.outcomes]
  exact hopen'

/-- What a part of the resumption that may be done leaves otherwise. -/
abbrev Resumed : Bool → UpdateState → Host → Prop := fun done st' h' => done = true ∨ On st' h'

theorem runs_attemptResume {x : UpdaterM UpdateState Unit} (tolerated : Failure → Bool)
    (hx : Runs config st h x (fun _ _ _ => True) Synced) :
    Runs config st h (attempt x tolerated) Resumed Anyhow := by
  refine .mono (runs_attempt tolerated hx) ?_ fun _ _ _ _ => trivial
  rintro done st' h' (⟨hdone, -⟩ | ⟨-, hon⟩)
  · exact .inl hdone
  · exact .inr hon

section

variable (hon : On st h)
include hon

theorem runs_resumePrepared : Runs config st h resumePrepared Resumed Anyhow := by
  refine .bind_record ?_
  split
  · rename_i hprep
    refine .bind (runs_rememberDetail _ hon) ?_
    rintro _ _ h₁ ⟨⟨detail, rfl⟩, hadv⟩
    exact runs_attemptResume _ (runs_ackPreCutoverFailure hadv.on hprep _)
  · exact .pure (.inr hon)

theorem runs_resumeRenamed : Runs config st h (resumeRenamed config) Resumed Anyhow := by
  refine .bind_record ?_
  split
  · rename_i hren
    refine runs_attemptResume _ (runs_finishSuccess hon ?_)
    rw [hren]
    exact nofun
  · exact .pure (.inr hon)

theorem runs_resumeRolledBack : Runs config st h (resumeRolledBack config) Resumed Anyhow := by
  refine .bind_record ?_
  split
  · rename_i hback
    refine runs_attemptResume _ (runs_finishRollbackOutcome ⟨hon, ?_, hon.not_accepted ?_ ?_⟩)
    all_goals
      rw [hback]
      exact nofun
  · exact .pure (.inr hon)

theorem runs_recoveryLease :
    Runs config st h (recoveryLease config)
      (fun lease st' h' => On st' h' ∧ (lease = .held → ¬ Accepted h' st'.operationId) ∧
        (lease = .offline → st'.stage ≠ .prepared ∧ ¬ Accepted h' st'.operationId)) Anyhow := by
  refine .tryCatch (?_ : Spec _ _ st h _ _ Synced) ?_
  · refine .bind (runs_ensureRecoveryLease hon) ?_
    rintro lease st₁ h₁ ⟨hon₁, hopen⟩
    cases lease with
    | none => exact .pure ⟨hon₁, nofun, nofun⟩
    | some lease => exact .pure ⟨hon₁, fun _ => hopen nofun, nofun⟩
  · intro e st₁ h₁ hon₁
    refine .bind_record ?_
    split
    · rename_i hoffline
      simp only [Bool.and_eq_true] at hoffline
      refine .pure ⟨hon₁, nofun, fun _ => ⟨?_, hon₁.not_accepted ?_ ?_⟩⟩
      all_goals
        intro hs
        rw [hs] at hoffline
        exact nomatch hoffline.2
    · exact .raise trivial

theorem runs_resumeUnderLease :
    Runs config st h (resumeUnderLease config) (fun _ _ _ => True) Anyhow := by
  refine .bind (runs_recoveryLease hon) ?_
  rintro lease st₁ h₁ ⟨hon₁, hheld, hoffline⟩
  cases lease with
  | held => exact runs_recover hon₁ (.inr (hheld rfl))
  | deferred => exact .pure trivial
  | offline =>
    exact runs_rollback ⟨hon₁, (hoffline rfl).1, (hoffline rfl).2⟩ _ false

-- Whatever the last iteration left on file, the next one goes on from there.
theorem runs_resume : Runs config st h (resume config) (fun _ _ _ => True) Anyhow := by
  refine .bind_record ?_
  split
  · rename_i hdone
    refine runs_recover hon (hdone.imp id fun hback => hon.not_accepted ?_ ?_)
    all_goals
      rw [hback]
      exact nofun
  refine .bind (runs_resumePrepared hon) ?_
  intro done st₁ h₁ hres
  split
  · exact .pure trivial
  rename_i hgoes
  replace hon := hres.resolve_left hgoes
  refine .bind (runs_resumeRenamed hon) ?_
  intro done st₂ h₂ hres
  split
  · exact .pure trivial
  rename_i hgoes
  replace hon := hres.resolve_left hgoes
  refine .bind (runs_resumeRolledBack hon) ?_
  intro done st₃ h₃ hres
  split
  · exact .pure trivial
  rename_i hgoes
  exact runs_resumeUnderLease (hres.resolve_left hgoes)

end

/-! ### A fresh iteration -/

/-- Nothing is on file, and what an earlier inspection found is still there. -/
structure Idling (h : Host) : Prop where
  file : h.file = none
  host : HostOk h

theorem Idling.seen {h' : Host} (hi : Idling h) (hseen : Seen h h') : Idling h' :=
  ⟨hseen.file.trans hi.file, hi.host.seen hseen⟩

/-- A target of the configured name is there. -/
def Standing (h : Host) (c : Container) : Prop := c ∈ h.containers ∧ c.name = .configured

theorem runs_target :
    Runs config () h (target config) (fun found _ h' => Seen h h' ∧ Standing h' found.1)
      (Idle () h) := by
  refine .bind (Q := fun seen _ h' => Seen h h' ∧ seen.container ∈ h.containers ∧
    seen.container.name = .configured) ?_ ?_
  · refine .tryCatch (?_ : Spec _ _ () h _ _ (Idle () h)) ?_
    · refine .post (runs_inspect () h (.name .configured)) ?_
      rintro seen _ h₁ ⟨-, hseen, hmem, hmatch, -⟩
      exact ⟨hseen, hmem, hmatch⟩
    · rintro e _ h₁ ⟨-, hseen⟩
      split
      · exact .raise ⟨rfl, hseen⟩
      · exact .raise ⟨rfl, hseen⟩
  rintro seen _ h₁ ⟨hseen, hmem, hname⟩
  have hstand : Standing h₁ seen.container := ⟨hseen.containers ▸ hmem, hname⟩
  dsimp only
  split
  · exact .raise ⟨rfl, hseen⟩
  split
  · exact .raise ⟨rfl, hseen⟩
  split
  · exact .raise ⟨rfl, hseen⟩
  refine .seq (runs_inspectImage () h₁ _) ?_ ?_
  · rintro e _ _ ⟨-, rfl⟩
    exact ⟨rfl, hseen⟩
  rintro oldImage _ _ ⟨-, rfl, -⟩
  split
  · exact .raise ⟨rfl, hseen⟩
  · exact .pure ⟨hseen, hstand⟩

theorem runs_preflight (generation : Nat) :
    Runs config () h (preflight config generation)
      (fun found _ h' => Seen h h' ∧ Standing h' found.1) (Idle () h) := by
  refine .seq (runs_heartbeat () h generation) ?_ ?_
  · rintro e _ _ ⟨-, rfl⟩
    exact ⟨rfl, Seen.refl _⟩
  rintro _ _ _ ⟨-, rfl, -⟩
  refine .bind runs_target ?_
  rintro found _ h₁ ⟨hseen, hstand⟩
  refine .seq (runs_pull () h₁) ?_ ?_
  · rintro e _ _ ⟨-, rfl⟩
    exact ⟨rfl, hseen⟩
  rintro desired _ _ ⟨-, rfl, -⟩
  exact .pure ⟨hseen, hstand⟩

theorem runs_reportingFailure {x : UpdaterM Unit α} {Q : α → Host → Prop}
    (body : UpdateOutcomeRequest) (hbody : body.leaseToken = none)
    (hx : Runs config () h x (fun a _ h' => Q a h') (Idle () h)) :
    Runs config () h (reportingFailure body x)
      (fun found _ h' => ∀ a, found = some a → Q a h') Anyhow := by
  refine .tryCatch (?_ : Spec _ _ () h _ _ (Idle () h)) ?_
  · refine .bind hx ?_
    rintro a _ _ hQ _ ⟨⟩
    exact hQ
  · rintro e _ h₁ ⟨-, -⟩
    split
    · refine .go (runs_checkOutcome () h₁ _ hbody) ?_
      rintro _ _ h₂ -
      exact .pure nofun
    · exact .raise trivial

theorem stopTimeout_bounds {c : Container} {timeout : Int} (h : stopTimeout c = .ok timeout) :
    0 ≤ timeout ∧ timeout ≤ 300 := by
  unfold stopTimeout at h
  dsimp only at h
  split at h
  · rename_i hbnd
    have htime : max (c.config.stopTimeout.getD 10) minimumStopTimeout = timeout :=
      Except.ok.inj h
    unfold minimumStopTimeout at htime
    omega
  · exact nomatch h

theorem runs_planInstall (target : Container) (oldImage desired : Image) :
    Runs config () h (planInstall config target oldImage desired)
      (fun timeout _ h' => h' = h ∧ 0 ≤ timeout ∧ timeout ≤ 300) (Idle () h) := by
  refine .bind (Q := fun timeout _ h' => h' = h ∧ 0 ≤ timeout ∧ timeout ≤ 300)
    (.ofExcept (fun _ ht => ⟨rfl, stopTimeout_bounds ht⟩)
      fun _ _ => ⟨rfl, Seen.refl h⟩) ?_
  rintro timeout _ _ ⟨rfl, hbnd⟩
  refine .seq (runs_multiNetworkCreate () _) ?_ ?_
  · rintro e _ _ ⟨-, rfl⟩
    exact ⟨rfl, Seen.refl _⟩
  rintro multi _ _ ⟨-, rfl, -⟩
  split
  · exact .raise ⟨rfl, Seen.refl _⟩
  · exact .pure ⟨rfl, hbnd⟩

-- The first record of an operation: nothing is known under its id, and its target stands.
theorem recordOk_prepared (hok : HostOk h) (hfile : h.file = none) {target : Container}
    (hstand : Standing h target) (hnew : st.operationId ∉ h.operations)
    (hstg : st.stage = .prepared) (htgt : st.targetId = target.id) (hcand : st.candidateId = none)
    (htime : 0 ≤ st.stopTimeoutSeconds ∧ st.stopTimeoutSeconds ≤ 300) :
    RecordOk (saveRecord st { h with operations := st.operationId :: h.operations }) st where
  drawn := List.mem_cons_self
  target_old := by
    rw [htgt]
    exact hok.fresh target hstand.1
  target_foreign := fun c hc _ hlab => hnew (hok.labelled c hc _ hlab)
  loads := by
    refine fromJson_eq_some.mpr ⟨htime, ?_, ?_⟩
    · rw [hstg]
      intro h; cases h
    · rw [hstg]
      intro h; cases h
  prepared := by
    intro _
    refine ⟨hcand, ?_, target, hstand.1, htgt.symm, hstand.2⟩
    simp only [saveRecord, hfile, Option.isNone_none, if_true]
  succeeded := by
    rw [hstg]
    intro h; cases h
  rolledBack := by
    rw [hstg]
    intro h; cases h
  accepted := by
    rintro ⟨o, ho, hop, -⟩
    exact absurd (hop ▸ hok.reported o ho) hnew

theorem runs_beginInstall (hi : Idling h) {target : Container} (hstand : Standing h target)
    (generation : Nat) (oldImage desired : Image) {timeout : Int}
    (htime : 0 ≤ timeout ∧ timeout ≤ 300) :
    Runs config () h (beginInstall config generation target oldImage desired timeout)
      (fun _ _ _ => True) Anyhow := by
  refine .go (runs_claimReady () h _) ?_
  rintro claimed _ h ⟨-, rfl, -⟩
  split
  · exact .pure trivial
  split
  · exact .raise trivial
  · exact .raise trivial
  rename_i token leaseGeneration _ _
  refine .bind (runs_uuid4 hi.file) ?_
  rintro operation _ _ ⟨-, hnew, rfl⟩
  have hhost : HostOk { h with operations := operation :: h.operations } :=
    ⟨hi.host.fresh, hi.host.unique,
      fun c hc op hop => List.mem_cons_of_mem _ (hi.host.labelled c hc op hop),
      fun o ho => List.mem_cons_of_mem _ (hi.host.reported o ho)⟩
  refine .bind (runs_save _ hhost
    (recordOk_prepared hi.host hi.file hstand hnew rfl rfl rfl htime) ?_) ?_
  · rintro ⟨o, ho, hop, -⟩
    have hdrawn : o.operation ∈ h.operations := hi.host.reported o ho
    rw [hop] at hdrawn
    exact absurd hdrawn hnew
  rintro _ _ h₁ ⟨-, -, hon⟩
  refine .go (runs_renew () h₁ token _) ?_
  rintro renewed _ _ ⟨-, rfl, -⟩
  split
  · exact .within (runs_executeInstall hon rfl target oldImage desired)
      (fun _ _ _ hQ => hQ) fun _ _ _ hE => hE
  · exact .raise trivial

theorem runs_checkAndInstall (hi : Idling h) :
    Runs config () h (checkAndInstall config) (fun _ _ _ => True) Anyhow := by
  refine .go (runs_eligibility () h) ?_
  rintro eligibility _ h ⟨-, rfl, -⟩
  split
  · exact .pure trivial
  refine .bind (runs_reportingFailure
    _ rfl (runs_preflight _)) ?_
  intro found _ h₁ hgot
  split
  · exact .pure trivial
  rcases hgot _ rfl with ⟨hseen, hstand⟩
  replace hi := hi.seen hseen
  split
  · exact .mono (runs_checkOutcome () h₁ _ rfl) (fun _ _ _ _ => trivial) fun _ _ _ _ => trivial
  refine .go (runs_checkOutcome () h₁ _ rfl) ?_
  rintro _ _ h₁ ⟨-, rfl⟩
  split
  · exact .pure trivial
  refine .bind (runs_reportingFailure
    _ rfl (runs_planInstall _ _ _)) ?_
  intro planned _ h₂ hplanned
  split
  · exact .pure trivial
  rename_i timeout
  rcases hplanned timeout rfl with ⟨rfl, htime⟩
  exact runs_beginInstall hi hstand _ _ _ htime

theorem runs_runOnce (h : Host) : Runs config () h (runOnce config) (fun _ _ _ => True) Anyhow := by
  refine .go (runs_load () h) ?_
  rintro pending _ _ ⟨-, rfl, hpend, hhost, hon⟩
  split
  · rename_i st
    exact .within (runs_resume (hon st rfl)) (fun _ _ _ hQ => hQ) fun _ _ _ hE => hE
  · exact runs_checkAndInstall ⟨hpend.symm, hhost⟩

-- **The updater keeps its contract**, wherever it is cut short.
theorem keeps_machine (config : UpdaterConfig) : Keeps (machine config) (contract config) where
  main := by
    intro w hinv
    have hrun : Runs config () _ (runOnce config) _ _ :=
      runs_runOnce ((machine config).boot w).host
    refine Safe.bind _ _ _ hrun ?_
    intro _ _ _
    exact trivial
  boot := by
    intro w hinv
    have hseen : HostOk { w.host with observed := [] } :=
      ⟨hinv.host.fresh, hinv.host.unique, hinv.host.labelled, hinv.host.reported⟩
    refine ⟨hinv.onHost rfl rfl hseen ?_, ?_⟩
    · intro st hst
      have hrec := hinv.record st hst
      exact ⟨hrec.drawn, hrec.target_old, hrec.target_foreign, hrec.loads, hrec.prepared,
        hrec.succeeded, hrec.rolledBack, hrec.accepted⟩
    · exact allowed_of_ids (fun c hc => ⟨c, hc, rfl⟩) id fun _ ho => ho
  event := by
    intro call w w' hinv hev
    simp only [machine, Option.map_eq_some_iff] at hev
    rcases hev with ⟨⟨answer, s⟩, hrun, rfl⟩
    exact ⟨hinv.onService (kept_of_endpoint (fun P hP => keeps_meanwhile hP [call]) hrun), rfl⟩
  stutter := allowed_refl config.imageRef

end Updater

end PlexManager
