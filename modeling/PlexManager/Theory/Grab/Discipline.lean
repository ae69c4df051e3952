import PlexManager.Theory.Grab.Effects

/-!
# The order of a grab's operations

A grab reuses a row only right after it has passed the guard of the reuse, and
never while it is still reviving another. All parts of it but one ask for no
reuse at all, and `Run.Asks` says so of each. The part that does asks for it
directly behind the guard, and its callers come to it outside of any reuse.

So the phase of a call is never `unguarded`, whatever the answers are and
whatever happens between its operations.

## Main definitions

* `Op.quiet`, `Quiet`: The operations that leave the transaction alone.
* `Op.swaps`, `Unswapping`: The operations that are no reuse.
* `calls`, `guards`: A call alone, and that it is never unguarded.
* `Call.Guarded`: Whatever comes next, no swap of a call comes without its guard.

## Theorems

* `guarded_reuseTerminalRow`: The reuse comes right behind its guard.
* `guarded_grab`: A grab is guarded.
* `guarded_start`, `guarded_next`: A call begins guarded and stays so.
-/

namespace PlexManager

namespace Grab

open Effects

/-! ### Parts without a reuse -/

/-- The operations that neither write nor end a transaction. -/
def Op.quiet : Op → Bool
  | .create _ | .reuse _ | .lockIfActive _ | .lockIfTerminal _ | .ensureScope _ _ _ _
  | .ensureCoverageClaim _ _ _ | .ensureSeason _ _ | .setSeasonStatusIfIn _ _ _
  | .setRequestStatusIfIn _ _ | .commit | .rollback => false
  | _ => true

abbrev Quiet {α : Type} (x : GrabRun α) : Prop := x.Asks fun op => op.quiet = true

def Op.swaps : Op → Bool
  | .reuse _ => true
  | _ => false

abbrev Unswapping {α : Type} (x : GrabRun α) : Prop := x.Asks fun op => op.swaps = false

variable {α : Type}

theorem unswapping_of_quiet {x : GrabRun α} (h : Quiet x) : Unswapping x := by
  refine h.mono fun op hop => ?_
  cases op <;> first | rfl | simp [Op.quiet] at hop

variable {op : Op} {outside : Bool}

theorem quiet_call (h : op.quiet = true) : Quiet (call op) := Run.asks_perform h

theorem unswapping_call (h : op.swaps = false) : Unswapping (call op) :=
  Run.asks_perform h

theorem quiet_activeConflictForTargets (requestId : Nat) (torrentHash : String)
    (seasons : List (Option Int)) :
    Quiet (activeConflictForTargets requestId torrentHash seasons) := by
  induction seasons with
  | nil => exact Run.asks_pure _
  | cons season rest ih =>
    refine (quiet_call rfl).bind fun active => ?_
    refine Run.Asks.ite (Run.asks_pure _) ?_
    refine (quiet_call rfl).bind fun covered => ?_
    exact Run.Asks.ite (Run.asks_pure _) ih

variable (d : Decision) (t : TvGrab) (fuel : Nat) (torrentHash : String) (g : Grabbed)
  (added : AddResult) {answer : Ans op} {phase : Phase}

theorem quiet_removeTorrentIfAdded : Quiet (removeTorrentIfAdded torrentHash) :=
  Run.asks_record.bind fun _ => Run.Asks.ite (quiet_call rfl) (Run.asks_pure _)

theorem quiet_refuseOnConflict (requestId : Nat) (guardSeasons : List (Option Int))
    (torrentHash : String) : Quiet (refuseOnConflict requestId guardSeasons torrentHash) := by
  refine (quiet_activeConflictForTargets _ _ _).bind fun active => ?_
  refine Run.Asks.ite ?_ (Run.asks_pure _)
  exact (quiet_removeTorrentIfAdded _).bind fun _ => Run.asks_raise _

theorem quiet_giveWay : Quiet (giveWay d torrentHash) := by
  unfold giveWay
  split
  · exact quiet_refuseOnConflict _ _ _
  · exact Run.asks_pure _

theorem quiet_attachedTargetScopes : Quiet (attachedTargetScopes t torrentHash) := by
  refine (quiet_call rfl).bind fun scopes => ?_
  exact (quiet_call rfl).bind fun rows => Run.asks_pure _

theorem quiet_convergeOnSameHashOwner (owner : Download) :
    Quiet (convergeOnSameHashOwner t owner) :=
  (quiet_attachedTargetScopes _ _).bind fun _ =>
    Run.Asks.ite (Run.asks_pure _) (Run.asks_raise _)

theorem quiet_removeReserved : Quiet (removeReserved t torrentHash) := by
  refine (quiet_removeTorrentIfAdded _).bind fun _ => ?_
  exact (quiet_call rfl).bind fun _ => Run.asks_raise _

theorem quiet_scopeStillGrabbable : Quiet (scopeStillGrabbable t) := by
  refine (quiet_call rfl).bind fun request => ?_
  cases request with
  | none => exact Run.asks_pure _
  | some request =>
    refine Run.Asks.ite (Run.asks_pure _) ?_
    exact (quiet_call rfl).bind fun rows => Run.asks_pure _

theorem quiet_answered (answer : Option α) : Quiet (answered answer) :=
  Run.asks_ofExcept _

theorem quiet_heldOrphanIntent : Quiet (heldOrphanIntent torrentHash) := by
  refine (quiet_call rfl).bind fun answer => ?_
  refine (quiet_answered _).bind fun status => ?_
  cases status with
  | none => exact Run.asks_pure _
  | some status =>
    -- A client that does not answer ends the check before the manifest is asked for.
    have hmani : Quiet (hasManifest torrentHash status) := by
      refine Run.Asks.ite (Run.asks_pure _) ?_
      exact (quiet_call rfl).bind fun answer => quiet_answered _
    exact hmani.bind fun _ => Run.Asks.ite (Run.asks_pure _) (Run.asks_pure _)

theorem quiet_payloadIntent (tracked : Bool) (added : AddResult) :
    Quiet (payloadIntent torrentHash tracked added) :=
  Run.Asks.ite (quiet_heldOrphanIntent _) (Run.asks_pure _)

theorem quiet_guardParallelGrab : Quiet (guardParallelGrab d torrentHash) := by
  unfold guardParallelGrab
  split
  · exact Run.asks_pure _
  · refine (quiet_activeConflictForTargets _ _ _).bind fun active => ?_
    exact Run.Asks.ite (Run.asks_raise _) (Run.asks_pure _)

theorem quiet_gate (a : GrabArgs) (source : String) : Quiet (gate a source) := by
  unfold gate
  split
  · exact Run.asks_pure _
  refine (quiet_call rfl).bind fun request => ?_
  split
  · exact Run.asks_pure _
  split
  · split
    · exact Run.asks_raise _
    · refine (quiet_call rfl).bind fun rows => ?_
      exact Run.Asks.ite (Run.asks_raise _) (Run.asks_pure _)
  · exact Run.Asks.ite (Run.asks_raise _) (Run.asks_pure _)

theorem unswapping_claimCoveredSeasons (requestId : Nat) (seasons : List (Option Int)) :
    Unswapping (claimCoveredSeasons torrentHash requestId seasons) := by
  induction seasons with
  | nil => exact Run.asks_pure _
  | cons season rest ih =>
    cases season with
    | none => exact ih
    | some season =>
      refine (unswapping_call rfl).bind fun answer => ?_
      exact (Run.asks_ofExcept _).bind fun _ => ih

theorem unswapping_removeIfStillTerminal : Unswapping (removeIfStillTerminal t torrentHash) := by
  have hrem := unswapping_of_quiet (quiet_removeReserved t torrentHash)
  refine (unswapping_call rfl).bind fun _ => ?_
  refine (unswapping_call rfl).bind fun stillTerminal => ?_
  refine (unswapping_call rfl).bind fun _ => ?_
  -- A row that has a new owner by now is joined, and the torrent is left alone.
  refine Run.Asks.ite hrem ?_
  refine (unswapping_call rfl).bind fun reowned => ?_
  cases reowned with
  | none => exact hrem
  | some owner =>
    refine Run.Asks.ite (Run.Asks.tryCatch ?_ fun e => ?_) hrem
    · refine (unswapping_of_quiet (quiet_convergeOnSameHashOwner t owner)).bind fun _ => ?_
      exact (unswapping_call rfl).bind fun _ => Run.asks_pure _
    · exact (unswapping_call rfl).bind fun _ => Run.asks_raise _

theorem unswapping_resolveSameHashOwner : Unswapping (resolveSameHashOwner t torrentHash) := by
  refine (unswapping_call rfl).bind fun owner => ?_
  cases owner with
  | none =>
    exact (unswapping_of_quiet (quiet_removeTorrentIfAdded _)).bind fun _ => Run.asks_raise _
  | some owner =>
    exact Run.Asks.ite (unswapping_of_quiet (quiet_convergeOnSameHashOwner t owner))
      (unswapping_removeIfStillTerminal t torrentHash)

theorem unswapping_attachSeasons (seasons : List Int) :
    Unswapping (attachSeasons t torrentHash seasons) := by
  induction seasons with
  | nil => exact (unswapping_claimCoveredSeasons _ _ _).bind fun _ => Run.asks_pure _
  | cons season rest ih =>
    refine (unswapping_call rfl).bind fun answer => ?_
    refine (Run.asks_ofExcept _).bind fun _ => ?_
    refine (unswapping_call rfl).bind fun _ => ?_
    refine (unswapping_call rfl).bind fun answer => ?_
    refine (Run.asks_ofExcept _).bind fun moved => ?_
    refine Run.Asks.ite ih ?_
    refine (unswapping_call rfl).bind fun _ => ?_
    exact (unswapping_resolveSameHashOwner t torrentHash).bind fun _ => Run.asks_pure _

theorem unswapping_attachTargetScopes (existing : Download) :
    Unswapping (attachTargetScopes t fuel existing) := by
  -- The induction is on the attempts: a collision looks at the record again.
  induction fuel generalizing existing with
  | zero => exact Run.asks_raise _
  | succ fuel ih =>
    refine Run.Asks.ite ?_ (Run.asks_pure _)
    refine (unswapping_of_quiet (quiet_activeConflictForTargets _ _ _)).bind fun conflict => ?_
    refine Run.Asks.ite (Run.asks_raise _) ?_
    refine (unswapping_call rfl).bind fun locked => ?_
    refine Run.Asks.ite ?_ ((unswapping_call rfl).bind fun _ => Run.asks_pure _)
    refine (Run.Asks.tryCatch (unswapping_attachSeasons t _ _) fun e => ?_).bind fun outcome => ?_
    · refine Run.Asks.ite ?_ (Run.asks_raise _)
      refine (unswapping_call rfl).bind fun _ => ?_
      refine (unswapping_of_quiet (quiet_refuseOnConflict _ _ _)).bind fun _ => ?_
      refine (unswapping_call rfl).bind fun record => ?_
      cases record with
      | none => exact Run.asks_raise _
      | some record =>
        refine (unswapping_of_quiet (quiet_attachedTargetScopes _ _)).bind fun _ => ?_
        refine Run.Asks.ite (Run.asks_pure _) (Run.Asks.ite ?_ (Run.asks_pure _))
        exact (ih record).bind fun _ => Run.asks_pure _
    -- Without a collision the claims are committed, and the row is read back.
    · cases outcome with
      | answered record => exact Run.asks_pure _
      | ready =>
        refine (unswapping_call rfl).bind fun _ => ?_
        refine (unswapping_call rfl).bind fun record => ?_
        cases record with
        | none => exact Run.asks_raise _
        | some record => exact Run.asks_pure _

theorem unswapping_refuseUnsafeRecovery : Unswapping (refuseUnsafeRecovery t torrentHash) := by
  have hrefuse : Unswapping (do
      call .rollback
      .raise (.requestNotActive t.requestId) : GrabRun Unit) :=
    (unswapping_call rfl).bind fun _ => Run.asks_raise _
  refine (unswapping_call rfl).bind fun _ => ?_
  refine (unswapping_call rfl).bind fun blocklisted => ?_
  refine Run.Asks.ite hrefuse ?_
  refine (unswapping_of_quiet (quiet_scopeStillGrabbable t)).bind fun grabbable => ?_
  refine Run.Asks.ite ?_ hrefuse
  refine (unswapping_call rfl).bind fun _ => ?_
  refine (unswapping_call rfl).bind fun inFlight => ?_
  exact Run.Asks.ite (Run.asks_raise _) (Run.asks_pure _)

theorem unswapping_dropClaim : Unswapping (dropClaimAfterAttachmentLoss t torrentHash) := by
  refine (unswapping_refuseUnsafeRecovery t torrentHash).bind fun _ => ?_
  refine (unswapping_call rfl).bind fun answer => ?_
  refine (Run.asks_ofExcept _).bind fun status => ?_
  exact Run.Asks.ite (Run.asks_raise _) (Run.asks_modifyRecord _)

theorem unswapping_joinTracked (record : Download) {lost : TvGrab → GrabRun Unit}
    (hlost : ∀ t, Unswapping (lost t)) : Unswapping (joinTracked d fuel record lost) := by
  refine Run.Asks.ite (Run.asks_raise _) ?_
  cases d.tv with
  | none => exact Run.asks_pure _
  | some t =>
    refine (unswapping_attachTargetScopes t fuel record).bind fun attached => ?_
    cases attached with
    | none => exact (hlost t).bind fun _ => Run.asks_pure _
    | some record => exact Run.asks_pure _

theorem unswapping_joinIfTracked
    (record : Option Download) : Unswapping (joinIfTracked d fuel torrentHash record) := by
  cases record with
  | none => exact Run.asks_pure _
  | some record =>
    exact Run.Asks.ite
      (unswapping_joinTracked d fuel record fun t => unswapping_dropClaim t torrentHash)
      (Run.asks_pure _)

theorem unswapping_onCollision (e : GrabError) :
    Unswapping (onCollision d torrentHash e : GrabRun α) := by
  refine Run.Asks.ite ?_ (Run.asks_raise _)
  refine (unswapping_call rfl).bind fun _ => ?_
  exact (unswapping_of_quiet (quiet_giveWay d torrentHash)).bind fun _ => Run.asks_raise _

theorem unswapping_attachPackSeasons (seasons : List Int) :
    Unswapping (attachPackSeasons t torrentHash seasons) := by
  induction seasons with
  | nil => exact unswapping_claimCoveredSeasons _ _ _
  | cons season rest ih =>
    refine Run.Asks.ite ih ?_
    refine (unswapping_call rfl).bind fun answer => ?_
    refine (Run.asks_ofExcept _).bind fun _ => ?_
    refine (unswapping_call rfl).bind fun _ => ?_
    refine (unswapping_call rfl).bind fun answer => ?_
    refine (Run.asks_ofExcept _).bind fun moved => ?_
    refine Run.Asks.ite ih ?_
    refine (unswapping_call rfl).bind fun _ => ?_
    exact (unswapping_of_quiet (quiet_removeTorrentIfAdded _)).bind fun _ => Run.asks_raise _

theorem unswapping_moveToDownloading : Unswapping (moveToDownloading d torrentHash) := by
  -- Both ways to lose the request roll back before the torrent is removed.
  have hlose : ∀ requestId, Unswapping (moveToDownloading.lose torrentHash requestId) := by
    intro requestId
    refine (unswapping_call rfl).bind fun _ => ?_
    exact (unswapping_of_quiet (quiet_removeTorrentIfAdded _)).bind fun _ => Run.asks_raise _
  unfold moveToDownloading
  split
  · exact Run.asks_pure _
  split
  · refine (unswapping_call rfl).bind fun _ => ?_
    refine (unswapping_call rfl).bind fun answer => ?_
    refine (Run.asks_ofExcept _).bind fun moved => ?_
    refine Run.Asks.ite ?_ (hlose _)
    exact Run.Asks.tryCatch (unswapping_attachPackSeasons _ _ _)
      fun e => unswapping_onCollision d torrentHash e
  · refine (unswapping_call rfl).bind fun answer => ?_
    refine (Run.asks_ofExcept _).bind fun moved => ?_
    exact Run.Asks.ite (Run.asks_pure _) (hlose _)

theorem unswapping_finishGrab (arrival : Arrival) :
    Unswapping (finishGrab d torrentHash arrival) := by
  cases arrival with
  | answered record => exact Run.asks_pure _
  | claimed record =>
    refine (unswapping_moveToDownloading d torrentHash).bind fun _ => ?_
    refine (unswapping_call rfl).bind fun _ => ?_
    exact (unswapping_call rfl).bind fun refreshed => Run.asks_pure _

theorem unswapping_settleKnownHash (knownHash : Option String) :
    Unswapping (settleKnownHash d fuel knownHash) := by
  cases knownHash with
  | none => exact Run.asks_pure _
  | some torrentHash =>
    have hprecheck : Unswapping (precheck d fuel torrentHash) := by
      refine (unswapping_call rfl).bind fun pre => ?_
      cases pre with
      | none => exact Run.asks_pure _
      | some pre =>
        refine Run.Asks.ite ?_ ((unswapping_call rfl).bind fun inFlight => ?_)
        · exact unswapping_joinTracked d fuel pre
            fun t => unswapping_refuseUnsafeRecovery t torrentHash
        · exact Run.Asks.ite (Run.asks_raise _) (Run.asks_pure _)
    refine hprecheck.bind fun joined => ?_
    cases joined with
    | some record => exact Run.asks_pure _
    | none =>
      exact (unswapping_of_quiet (quiet_guardParallelGrab d torrentHash)).bind
        fun _ => Run.asks_pure _

/-! ### The phases -/

variable (titles : Titles)

def calls : Machine Op Ans (Shared × Session) Choice Empty where
  exec := exec titles
  event := fun e _ => nomatch e
  boot := id
  main := .ret ()

def guards : Contract (Shared × Session) Phase where
  view := fun w => w.2.phase
  Inv := fun _ => True
  Guarantee := fun _ phase => phase ≠ .unguarded

def Phase.Calm (phase : Phase) : Prop := phase ≠ .unguarded ∧ ∀ k, phase ≠ .reviving k

theorem after_guarded (hop : op.swaps = false) (hph : phase ≠ .unguarded) :
    phase.after op answer outside ≠ .unguarded := by
  unfold Phase.after
  split
  · exact absurd rfl hph
  · split
    · exact Phase.noConfusion
    · exact Phase.noConfusion
    · simp [Op.swaps] at hop
    · exact Phase.noConfusion
  -- A reuse of its own torrent is what a poised call may do next.
  · split
    · simp [Op.swaps] at hop
    · split <;> exact Phase.noConfusion
    · exact Phase.noConfusion
    · exact Phase.noConfusion
    · split
      · split <;> exact Phase.noConfusion
      · exact Phase.noConfusion
      · exact Phase.noConfusion

theorem after_calm (hop : op.swaps = false) (hph : phase.Calm) :
    (phase.after op answer outside).Calm := by
  refine ⟨after_guarded hop hph.1, ?_⟩
  intro k
  unfold Phase.after
  split
  · exact Phase.noConfusion
  · exact absurd rfl (hph.2 _)
  · split
    · simp [Op.swaps] at hop
    · split <;> exact Phase.noConfusion
    · exact Phase.noConfusion
    · exact Phase.noConfusion
    · split
      · split <;> exact Phase.noConfusion
      · exact Phase.noConfusion
      · exact Phase.noConfusion

-- The end of a transaction ends a reuse.
theorem after_rollback_calm {answer : Ans .rollback}
    (hph : phase ≠ .unguarded) : (phase.after .rollback answer outside).Calm := by
  by_cases hcalm : phase.Calm
  · exact after_calm rfl hcalm
  -- Only a reuse under way is not calm, and the rollback ends it.
  cases phase with
  | reviving k => exact ⟨Phase.noConfusion, fun _ => Phase.noConfusion⟩
  | unguarded => exact absurd rfl hph
  | free | poised k | reserved k | settled k =>
    exact absurd ⟨Phase.noConfusion, fun _ => Phase.noConfusion⟩ hcalm

theorem phase_rollback (s : Shared) (v : Session) : (v.rollback s).2.phase = v.phase := by
  unfold Session.rollback
  split <;> rfl

section Guarded

variable {titles : Titles} {record : Bool} {phase : Phase} {α : Type} {x : GrabRun α}

/-- However a part of a call ends, the call is guarded. -/
abbrev Guarding (titles : Titles) (record : Bool) (phase : Phase) (x : GrabRun α) : Prop :=
  Spec (calls titles) guards record phase x (fun _ _ p => p ≠ .unguarded)
    fun _ _ p => p ≠ .unguarded

theorem spec_call {Q : Ans op → Bool → Phase → Prop} {E : GrabError → Bool → Phase → Prop}
    (h : ∀ answer outside, phase.after op answer outside ≠ .unguarded ∧
      Q answer record (phase.after op answer outside)) :
    Spec (calls titles) guards record phase (call op) Q E := by
  refine .perform ?_
  rintro ⟨s, v⟩ c answer ⟨s', v'⟩ - rfl hexec
  rcases exec_eq_some hexec with ⟨u, -, -, rfl⟩
  rcases h answer v.pending.isNone with ⟨hgrd, hQ⟩
  exact ⟨hgrd, trivial, hQ⟩

theorem guarded_of_unswapping (hx : Unswapping x) (hph : phase ≠ .unguarded) :
    Guarding titles record phase x := by
  refine .of_asks hx hph ?_
  rintro op hop ⟨s, v⟩ c answer ⟨s', v'⟩ - hph hexec
  rcases exec_eq_some hexec with ⟨u, -, -, rfl⟩
  exact ⟨after_guarded hop hph, trivial, after_guarded hop hph⟩

theorem calm_of_unswapping (hx : Unswapping x) (hph : phase.Calm) :
    Spec (calls titles) guards record phase x (fun _ _ p => p.Calm) (fun _ _ p => p.Calm) := by
  refine .of_asks hx hph ?_
  rintro op hop ⟨s, v⟩ c answer ⟨s', v'⟩ - hph hexec
  rcases exec_eq_some hexec with ⟨u, -, -, rfl⟩
  have hcalm : (v.phase.after op answer v.pending.isNone).Calm := after_calm hop hph
  exact ⟨hcalm.1, trivial, hcalm⟩

-- What a calm part raises leaves the call guarded.
theorem calm_or_of_unswapping (hx : Unswapping x) (hph : phase.Calm) :
    Spec (calls titles) guards record phase x (fun _ _ p => p.Calm) (fun _ _ p => p ≠ .unguarded) :=
  (calm_of_unswapping hx hph).mono (fun _ _ _ h => h) (fun _ _ _ h => h.1)

theorem guarded_reuseTerminalRow (hph : phase.Calm) :
    Spec (calls titles) guards record phase (reuseTerminalRow g)
      (fun r _ p => p ≠ .unguarded ∧ (r.2 = false → p.Calm)) (fun _ _ p => p ≠ .unguarded) := by
  -- Both ends read the row back, and a call that has not claimed it is calm there.
  have hread : ∀ record (phase : Phase) (claimed : Bool)
      (k : Option Download → GrabRun (Download × Bool)),
      k none = .raise (.lookup g.torrentHash) → (∀ row, k (some row) = pure (row, claimed)) →
      phase ≠ .unguarded → (claimed = false → phase.Calm) →
      Spec (calls titles) guards record phase (call (.getByHash g.torrentHash) >>= k)
        (fun r _ p => p ≠ .unguarded ∧ (r.2 = false → p.Calm)) (fun _ _ p => p ≠ .unguarded) := by
    intro record phase claimed k hnone hsome hgrd hcalm
    refine .bind (Q := fun _ _ p => p ≠ .unguarded ∧ (claimed = false → p.Calm))
      (spec_call fun answer outside => ?_) ?_
    · exact ⟨after_guarded rfl hgrd, after_guarded rfl hgrd,
        fun hcl => after_calm rfl (hcalm hcl)⟩
    · intro row record phase hph
      cases row with
      | none =>
        rw [hnone]
        exact .raise hph.1
      | some row =>
        rw [hsome]
        exact .pure hph
  refine .bind (Q := fun inFlight _ p => p.Calm ∧
      (inFlight = false → p = .poised g.torrentHash)) (spec_call fun inFlight outside => ?_) ?_
  -- The guard poises the call exactly where no removal is in flight.
  · have haft : phase.after (.removalInFlight g.torrentHash) inFlight outside =
        if inFlight then .free else .poised g.torrentHash := by
      cases phase with
      | unguarded => exact absurd rfl hph.1
      | reviving k => exact absurd rfl (hph.2 k)
      | free | poised k | reserved k | settled k => rfl
    rw [haft]
    cases inFlight with
    | true =>
      exact ⟨Phase.noConfusion, ⟨Phase.noConfusion, fun _ => Phase.noConfusion⟩,
        nofun⟩
    | false =>
      exact ⟨Phase.noConfusion, ⟨Phase.noConfusion, fun _ => Phase.noConfusion⟩, fun _ => rfl⟩
  · rintro inFlight record phase ⟨hcalm, hpoised⟩
    cases inFlight with
    | true =>
      refine .bind (guarded_of_unswapping
        (unswapping_of_quiet (quiet_removeTorrentIfAdded g.torrentHash)) hcalm.1) ?_
      intro _ record phase hgrd
      exact .raise hgrd
    | false =>
      -- The swap follows the guard with nothing in between.
      obtain rfl := hpoised rfl
      refine .bind (Q := fun _ _ p => p = .reviving g.torrentHash)
        (spec_call fun answer outside => ?_) ?_
      · have haft : (Phase.poised g.torrentHash).after (.reuse g) answer outside =
            .reviving g.torrentHash := by
          simp [Phase.after]
        rw [haft]
        exact ⟨Phase.noConfusion, rfl⟩
      · rintro answer record phase rfl
        refine .bind (Q := fun _ _ p => p = .reviving g.torrentHash)
          (.ofExcept (fun _ _ => rfl) fun _ _ => Phase.noConfusion) ?_
        rintro claimed record phase rfl
        cases claimed with
        | true => exact hread _ _ _ _ rfl (fun _ => rfl) Phase.noConfusion nofun
        -- The row was no longer terminal: the reuse is rolled back before the read.
        | false =>
          refine .bind (Q := fun _ _ p => p.Calm) (spec_call fun answer outside => ?_) ?_
          · have hcalm : ((Phase.reviving g.torrentHash).after .rollback answer outside).Calm :=
              after_rollback_calm Phase.noConfusion
            exact ⟨hcalm.1, hcalm⟩
          · intro _ record phase hcalm
            exact hread _ _ _ _ rfl (fun _ => rfl) hcalm.1 fun _ => hcalm

-- A handler that raises again leaves the call guarded.
theorem guarded_onCollision (e : GrabError) {Q : α → Bool → Phase → Prop}
    (hph : phase ≠ .unguarded) :
    Spec (calls titles) guards record phase (onCollision d torrentHash e) Q
      (fun _ _ p => p ≠ .unguarded) := by
  unfold onCollision
  split
  · refine .bind (guarded_of_unswapping (unswapping_call rfl) hph) ?_
    intro _ record phase hph
    refine .bind (guarded_of_unswapping (unswapping_of_quiet (quiet_giveWay d torrentHash))
      hph) ?_
    intro _ record phase hph
    exact .raise hph
  · exact .raise hph

-- The loop reuses only as its last step, or rolls back.
theorem guarded_reuseLoop {reuse : GrabRun (Download × Bool)}
    (hreu : ∀ record (phase : Phase), phase.Calm → Spec (calls titles) guards record phase reuse
      (fun r _ p => p ≠ .unguarded ∧ (r.2 = false → p.Calm)) (fun _ _ p => p ≠ .unguarded))
    (fuel : Nat) (hph : phase.Calm) :
    Guarding titles record phase (reuseLoop d g reuse fuel) := by
  induction fuel generalizing record phase with
  | zero => exact .raise hph.1
  | succ fuel ih =>
    refine .bind (hreu record phase hph) ?_
    rintro ⟨row, claimed⟩ record phase ⟨hgrd, hcalm⟩
    cases claimed with
    | true => exact .pure hgrd
    | false =>
      -- A row that is active again is joined, and a lost join tries the reuse once more.
      by_cases hact : row.active = true
      · simp only [hact, if_true]
        refine .bind (calm_or_of_unswapping (unswapping_joinTracked d fuel row
          fun t => unswapping_dropClaim t g.torrentHash) (hcalm rfl)) ?_
        intro joined record phase hph
        cases joined with
        | some row => exact .pure hph.1
        | none => exact ih hph
      · simp only [hact]
        exact .raise hgrd

theorem guarded_reuseRow (hph : phase.Calm) : Guarding titles record phase (reuseRow d fuel g) := by
  refine .tryCatch (guarded_reuseLoop d g ?_ fuel hph) ?_
  · intro record phase hph
    exact guarded_reuseTerminalRow g hph
  · intro e record phase hph
    exact guarded_onCollision d g.torrentHash e hph

theorem guarded_settleWithWinner (winner : Download) (hph : phase.Calm) :
    Guarding titles record phase (settleWithWinner d fuel g winner) := by
  refine .bind (calm_or_of_unswapping
    (unswapping_joinIfTracked d fuel g.torrentHash (some winner)) hph) ?_
  intro joined record phase hph
  cases joined with
  | some row => exact .pure hph.1
  | none =>
    -- Here each reuse of the loop has the handler, not the loop as a whole.
    refine guarded_reuseLoop d g ?_ fuel hph
    intro record phase hph
    refine .tryCatch (guarded_reuseTerminalRow g hph) ?_
    intro e record phase hph
    exact guarded_onCollision d g.torrentHash e hph

theorem guarded_createRow (hph : phase.Calm) :
    Guarding titles record phase (createRow d fuel g) := by
  have hcre : Unswapping (do
      let record ← settled (← call (.create g))
      pure (.claimed record) : GrabRun Arrival) :=
    (unswapping_call rfl).bind fun _ => (Run.asks_ofExcept _).bind fun _ => Run.asks_pure _
  refine .tryCatch ((calm_of_unswapping hcre hph).mono (fun _ _ _ h => h.1)
    fun _ _ _ h => h) ?_
  intro e record phase hph
  -- A collision on the hash gives way to the winner, any other error is raised again.
  split
  · refine .bind (calm_or_of_unswapping (unswapping_call rfl) hph) ?_
    intro _ record phase hph
    refine .bind (calm_or_of_unswapping
      (unswapping_of_quiet (quiet_giveWay d g.torrentHash)) hph) ?_
    intro _ record phase hph
    refine .bind (calm_or_of_unswapping (unswapping_call rfl) hph) ?_
    intro winner record phase hph
    cases winner with
    | none => exact .raise hph.1
    | some winner => exact guarded_settleWithWinner d fuel g winner hph
  · exact .raise hph.1

theorem guarded_claimRow (existing : Option Download) (hph : phase.Calm) :
    Guarding titles record phase (claimRow d fuel g existing) := by
  unfold claimRow
  split
  · exact guarded_reuseRow d fuel g hph
  · exact guarded_createRow d fuel g hph

theorem guarded_trackTorrent (hph : phase.Calm) :
    Guarding titles record phase (trackTorrent d fuel torrentHash added) := by
  refine .bind (calm_or_of_unswapping (unswapping_call rfl) hph) ?_
  intro existing record phase hph
  refine .bind (calm_or_of_unswapping
    (unswapping_joinIfTracked d fuel torrentHash existing) hph) ?_
  intro joined record phase hph
  cases joined with
  | some row => exact .pure hph.1
  | none =>
    refine .bind (calm_or_of_unswapping
      (unswapping_of_quiet (quiet_giveWay d torrentHash)) hph) ?_
    intro _ record phase hph
    refine .bind (calm_or_of_unswapping
      (unswapping_of_quiet (quiet_payloadIntent _ _ _)) hph) ?_
    intro intent record phase hph
    refine .bind (guarded_claimRow d fuel _ existing hph) ?_
    intro arrival record phase hph
    exact guarded_of_unswapping (unswapping_finishGrab d torrentHash arrival) hph

theorem guarded_track (knownHash : Option String) (added : AddResult) (hph : phase.Calm) :
    Guarding titles record phase (track d fuel knownHash added) := by
  refine .bind_modifyRecord ?_
  dsimp only
  -- Whatever hash the client reports, the rest does not look into it.
  generalize (if added.torrentHash = "" then knownHash.getD "" else lower added.torrentHash) = k
  split
  · exact .raise hph.1
  · exact guarded_trackTorrent d fuel k added hph

theorem guarded_grab (a : GrabArgs) (hph : phase.Calm) :
    Guarding titles record phase (grab fuel a) := by
  unfold grab
  split
  · exact .raise hph.1
  refine .bind (calm_or_of_unswapping (unswapping_of_quiet (quiet_gate a _)) hph) ?_
  intro d record phase hph
  refine .bind (calm_or_of_unswapping (unswapping_settleKnownHash d fuel _) hph) ?_
  intro joined record phase hph
  cases joined with
  | some row => exact .pure hph.1
  | none =>
    refine .bind (calm_or_of_unswapping (unswapping_call rfl) hph) ?_
    intro answer record phase hph
    refine .bind (calm_or_of_unswapping
      (unswapping_of_quiet (quiet_answered answer)) hph) ?_
    intro added record phase hph
    exact guarded_track d fuel _ added hph

end Guarded

/-! ### Calls -/

def Call.Guarded (a : Call) : Prop :=
  a.session.phase ≠ .unguarded ∧
    Safe (calls titles) guards (fun _ _ => True) a.program a.session.phase

theorem guarded_start (fuel id : Nat) (args : GrabArgs) :
    (Call.start fuel id args).Guarded titles := by
  refine ⟨Phase.noConfusion, ?_⟩
  have hgrab : Guarding titles false .free (grab fuel args) :=
    guarded_grab fuel args ⟨Phase.noConfusion, fun _ => Phase.noConfusion⟩
  exact Safe.mono _ _ hgrab fun _ _ _ => trivial

theorem guarded_next {titles : Titles} {c : Choice} {s : Shared} {a : Call}
    (h : a.Guarded titles) : (a.next titles c s).2.Guarded titles := by
  unfold Call.next
  split
  · rename_i r hret
    refine ⟨?_, ?_⟩
    · rw [phase_rollback]
      exact h.1
    · rw [hret]
      trivial
  · rename_i op next hcall
    split
    · exact h
    rename_i answer s' v hexec
    have hsafe := h.2
    rw [hcall] at hsafe
    rcases hsafe (s, a.session) trivial rfl c answer (s', v) hexec with ⟨hgrd, -, hrest⟩
    exact ⟨hgrd, hrest⟩

end Grab

end PlexManager
