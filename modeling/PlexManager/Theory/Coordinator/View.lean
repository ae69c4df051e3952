import PlexManager.Core.Coordinator

/-!
# What a coordinator operation can do

The coordinator row carries twenty-eight columns, and almost all of them are
reports: nothing decides anything by them. A `CoordinatorView` keeps the rest,
the six columns and the lease table that operations branch on, and `ViewStep`
lists what one operation can do to them, guards included.

`viewStep_of_perform` says that the source's operations do nothing else. It is
the only place where their bodies are opened; every invariant of the
coordinator is a case analysis over `ViewStep` instead.

## Theorems

* `mem_cleanupExpired`: Cleanup keeps exactly the unexpired leases.
* `view_cleanupExpired`, `view_backfill`: The observation effects commute
  with the projection.
* `viewStep_of_perform`: Every operation is a view step.
-/

namespace PlexManager

namespace Coordinator

open UpdateRecovery

/-- The columns an operation branches on, and the lease table. -/
structure CoordinatorView where
  phase : CoordinatorPhase
  action : RequestedAction
  generation : Nat
  startedAt : Option Int
  requestedAt : Option Int
  seenAt : Option Int
  leases : List MaintenanceLease

def view (db : CoordinatorDb) : CoordinatorView where
  phase := db.state.phase
  action := db.state.requestedAction
  generation := db.state.actionGeneration
  startedAt := db.state.lastStartedAt
  requestedAt := db.state.requestedAt
  seenAt := db.state.updaterLastSeenAt
  leases := db.leases

namespace CoordinatorView

def drainExpired (now : Int) (v : CoordinatorView) : Bool :=
  v.leases.any fun lease => isDrain lease && decide (lease.expiresAt ≤ now)

/-- The view after the expired leases are swept. -/
def expire (now : Int) (v : CoordinatorView) : CoordinatorView :=
  { v with
    leases := v.leases.filter fun lease => decide (now < lease.expiresAt)
    phase := if v.drainExpired now && drainPhase v.phase then .idle else v.phase
    startedAt := if v.drainExpired now && drainPhase v.phase then none else v.startedAt }

def anchor (v : CoordinatorView) : Option Int := v.startedAt.or v.requestedAt

def backfill (now : Int) (v : CoordinatorView) : CoordinatorView :=
  if !busyCoordinatorPhase v.phase || v.anchor.isSome then v
  else
    { v with
      startedAt := some (match v.seenAt with
        | some heartbeat => if heartbeat ≤ now then heartbeat else now
        | none => now) }

/-- Enter a phase: the age anchor follows the transition. -/
def enter (now : Int) (phase : CoordinatorPhase) (v : CoordinatorView) : CoordinatorView :=
  { v with phase := phase, startedAt := phaseTimestamp v.phase phase now v.startedAt }

def hasDrain (v : CoordinatorView) : Prop := ∃ lease ∈ v.leases, isDrain lease = true

end CoordinatorView

open CoordinatorView

/-- What one operation can do to a view. The first three cases are shared: an
    operation that is refused or only writes reports, one that is refused after
    it swept the leases, and one that observes. -/
inductive ViewStep (now : Int) (v : CoordinatorView) : CoordinatorOp → CoordinatorView → Prop where
  | stutter (op : CoordinatorOp) : ViewStep now v op v
  | expire (op : CoordinatorOp) : ViewStep now v op (v.expire now)
  | observe (op : CoordinatorOp) : ViewStep now v op ((v.expire now).backfill now)
  | dispatch (hbusy : busyCoordinatorPhase v.phase = true) :
      ViewStep now v .markBusyWorkDispatched { v with startedAt := some now }
  | touchMissed (phase : Option HeartbeatPhase) (g : Option Nat) :
      ViewStep now v (.touchUpdater phase g) (v.backfill now)
  | touch (phase : Option HeartbeatPhase) (g : Option Nat)
      (hknown : knownCoordinatorPhase v.phase = true) :
      ViewStep now v (.touchUpdater phase g)
        { (v.backfill now).enter now ((phase.map (·.toPhase)).getD v.phase) with
          seenAt := some now }
  | request (action : UpdateAction) (hidle : busyCoordinatorPhase v.phase = false)
      (hnone : v.action = .none) :
      ViewStep now v (.requestAction action)
        { v with
          action := action.toRequested
          generation := v.generation + 1
          requestedAt := some now }
  | grantCritical (tokenHash : TokenHash) (owner operation : String) (ttl : Int)
      (row : MaintenanceLease) (hkind : row.kind = .critical)
      (hdrain : ¬ (v.expire now).hasDrain) (htoken : row.tokenHash = tokenHash) :
      ViewStep now v (.acquireCritical tokenHash owner operation ttl)
        { v.expire now with leases := (v.expire now).leases ++ [row] }
  | claimDrain (tokenHash : TokenHash) (owner : String) (g : Option Nat)
      (materialize requireIdle : Bool) (ttl : Int) (v' : CoordinatorView)
      (row : MaintenanceLease) (hkind : row.kind = .drain)
      (hgen : row.actionGeneration = some v'.generation)
      (hknown : knownCoordinatorPhase (v.expire now).phase = true)
      (hdrain : ¬ (v.expire now).hasDrain)
      (hv' : v' = v.expire now ∨
        v' = { v.expire now with
          action := .install
          generation := v.generation + 1
          requestedAt := some now })
      (htoken : row.tokenHash = tokenHash) :
      ViewStep now v (.claimDrain tokenHash owner g materialize requireIdle ttl)
        { v'.enter now .draining with leases := v'.leases ++ [row] }
  | renew (tokenHash : TokenHash) (ttl : Int) :
      ViewStep now v (.renew tokenHash ttl)
        { v.expire now with leases := renewRows now ttl tokenHash (v.expire now).leases }
  | progress (tokenHash : TokenHash) (ttl : Int) (phase : Option RenewPhase) (ready : Bool)
      (hready : ready = true ↔ ∀ l ∈ (v.expire now).leases, isCritical l = false)
      (hdrain : (v.expire now).hasDrain) :
      ViewStep now v (.renewDrainProgress tokenHash ttl phase)
        { (v.expire now).enter now
            (drainProgressPhase (phase.map (·.toPhase)) ready (v.expire now).phase) with
          leases := renewRows now ttl tokenHash (v.expire now).leases
          seenAt := some now }
  | releaseCritical (tokenHash : TokenHash) (lease : MaintenanceLease)
      (hlease : lease ∈ (v.expire now).leases) (hkind : isDrain lease = false) :
      ViewStep now v (.release tokenHash)
        { v.expire now with
          leases := (v.expire now).leases.filter fun l => l.tokenHash != lease.tokenHash }
  | releaseDrain (tokenHash : TokenHash) (lease : MaintenanceLease)
      (hlease : lease ∈ (v.expire now).leases) (hkind : isDrain lease = true) :
      ViewStep now v (.release tokenHash)
        { v.expire now with
          leases := (v.expire now).leases.filter fun l => l.tokenHash != lease.tokenHash
          phase := .idle
          startedAt := none }
  | reset (recoveryMaxAge : Int) (fence : Bool) (phase : CoordinatorPhase)
      (startedAt : Option Int) (action : RequestedAction)
      (hphase : phase = .idle ∨
        phase = ((v.expire now).backfill now).phase ∧ busyCoordinatorPhase phase = false)
      (hdrain : ¬ (v.expire now).hasDrain) (haction : action = v.action ∨ action = .none) :
      ViewStep now v (.forceResetPhase recoveryMaxAge)
        { (v.expire now).backfill now with
          phase := phase
          startedAt := startedAt
          action := action
          generation := if fence then v.generation + 1 else v.generation }
  | checkOutcome (result : UpdateResult) (errorCode : Option String) (imageValues : ImageValues)
      (preserveAction : Bool) (hknown : knownCoordinatorPhase v.phase = true) :
      ViewStep now v
        (.acknowledgeAction v.generation result errorCode imageValues preserveAction)
        { v.enter now (phaseForResult result) with
          action := if preserveAction then v.action else .none
          seenAt := some now }
  | installOutcome (tokenHash : TokenHash) (fingerprint : OutcomeFingerprint)
      (lease : MaintenanceLease) (action : RequestedAction)
      (hlease : lease ∈ (v.expire now).leases) (hkind : isDrain lease = true)
      (hgen : ∀ g, fingerprint.expectedGeneration = some g →
        lease.actionGeneration = some g ∧ v.generation = g)
      (haction : action = v.action ∨ action = .none) :
      ViewStep now v (.acknowledgeOutcome tokenHash fingerprint)
        { (v.expire now).enter now (phaseForResult fingerprint.result) with
          leases := (v.expire now).leases.filter fun l => l.tokenHash != lease.tokenHash
          action := action
          seenAt := some now }

variable (now : Int) (db : CoordinatorDb) (v : CoordinatorView) (tokenHash : TokenHash)

@[simp] theorem view_phase : (view db).phase = db.state.phase := rfl

@[simp] theorem view_action :
    (view db).action = db.state.requestedAction := rfl

@[simp] theorem view_generation :
    (view db).generation = db.state.actionGeneration := rfl

@[simp] theorem view_leases : (view db).leases = db.leases := rfl

/-! ### The observation effects -/

theorem mem_cleanupExpired (l : MaintenanceLease) :
    l ∈ (cleanupExpired now db).leases ↔ l ∈ db.leases ∧ now < l.expiresAt := by
  simp [cleanupExpired]

theorem mem_expire (l : MaintenanceLease) :
    l ∈ (v.expire now).leases ↔ l ∈ v.leases ∧ now < l.expiresAt := by
  simp [CoordinatorView.expire]

@[simp] theorem expire_generation :
    (v.expire now).generation = v.generation := rfl

@[simp] theorem expire_action :
    (v.expire now).action = v.action := rfl

theorem backfill_eq : ∃ started, v.backfill now = { v with startedAt := started } := by
  unfold CoordinatorView.backfill
  split
  · exact ⟨v.startedAt, rfl⟩
  · exact ⟨_, rfl⟩

@[simp] theorem backfill_phase : (v.backfill now).phase = v.phase := by
  rcases backfill_eq now v with ⟨started, h⟩
  rw [h]

@[simp] theorem backfill_action : (v.backfill now).action = v.action := by
  rcases backfill_eq now v with ⟨started, h⟩
  rw [h]

@[simp] theorem backfill_generation : (v.backfill now).generation = v.generation := by
  rcases backfill_eq now v with ⟨started, h⟩
  rw [h]

@[simp] theorem backfill_leases : (v.backfill now).leases = v.leases := by
  rcases backfill_eq now v with ⟨started, h⟩
  rw [h]

theorem view_cleanupExpired : view (cleanupExpired now db) = (view db).expire now := by
  simp only [CoordinatorView.expire, CoordinatorView.drainExpired, view, cleanupExpired]
  by_cases h : ((db.leases.any fun lease => isDrain lease && decide (lease.expiresAt ≤ now)) &&
      drainPhase db.state.phase) = true
  · simp only [h, if_true]
  · simp only [h, if_false, Bool.false_eq_true]

theorem view_backfill : view (backfillLegacyBusyAnchor now db) = (view db).backfill now := by
  simp only [backfillLegacyBusyAnchor, CoordinatorView.backfill, CoordinatorView.anchor, view,
    Option.isSome_or, Bool.or_assoc]
  by_cases h : (!busyCoordinatorPhase db.state.phase ||
      (db.state.lastStartedAt.isSome || db.state.requestedAt.isSome)) = true
  · simp only [h, if_true]
  · simp only [h, if_false, Bool.false_eq_true]
    rfl

theorem view_observe : view (observe now db) = ((view db).expire now).backfill now := by
  rw [observe, view_backfill, view_cleanupExpired]

theorem activeDrain_isSome_iff : (activeDrain db).isSome = true ↔ (view db).hasDrain := by
  simp [activeDrain, CoordinatorView.hasDrain, view, List.find?_isSome]

theorem criticalCount_eq_zero_iff :
    criticalCount db = 0 ↔ ∀ l ∈ db.leases, isCritical l = false := by
  simp [criticalCount, List.filter_eq_nil_iff]

/-! ### Opening the operations -/

variable {α : Type} {db : CoordinatorDb} {op : CoordinatorOp}

theorem requireKnownPhase_bind (db : CoordinatorDb) (f : Unit → Except CoordinationError α)
    (r : α) :
    (requireKnownPhase db >>= f) = .ok r ↔
      knownCoordinatorPhase db.state.phase = true ∧ f () = .ok r := by
  unfold requireKnownPhase
  by_cases h : knownCoordinatorPhase db.state.phase = true
  · simp [h, bind, Except.bind]
  · simp [h, bind, Except.bind]

theorem insertLease_bind (db : CoordinatorDb) (lease : MaintenanceLease)
    (f : CoordinatorDb → Except CoordinationError α) (r : α)
    (h : (insertLease db lease >>= f) = .ok r) :
    (∀ l ∈ db.leases, l.tokenHash ≠ lease.tokenHash) ∧
      f { db with leases := db.leases ++ [lease] } = .ok r := by
  unfold insertLease at h
  split at h
  · simp [bind, Except.bind] at h
  · rename_i hfree
    refine ⟨?_, h⟩
    intro l hl heq
    exact hfree (List.any_eq_true.mpr ⟨l, hl, by simp [heq]⟩)

theorem viewStep_of_answered {answer : α → CoordinatorAnswer} {now : Int}
    {body : CoordinatorDb → Except CoordinationError (CoordinatorDb × α)}
    (h : ∀ db' a, body db = .ok (db', a) → ViewStep now (view db) op (view db')) :
    ViewStep now (view db) op (view (answered answer db body).1) := by
  unfold answered
  split
  · rename_i db' a hbody
    exact h db' a hbody
  · exact ViewStep.stutter op

theorem viewStep_of_positiveTtl {now ttl : Int}
    {call : CoordinatorDb × CoordinatorAnswer} (h : ViewStep now (view db) op (view call.1)) :
    ViewStep now (view db) op (view (withPositiveTtl ttl db call).1) := by
  unfold withPositiveTtl
  split
  · exact ViewStep.stutter op
  · exact h

theorem mem_of_leaseForToken {tokenHash : TokenHash} {kind : Option LeaseKind}
    {lease : MaintenanceLease} (h : leaseForToken db tokenHash kind = some lease) :
    lease ∈ db.leases ∧ lease.tokenHash = tokenHash ∧ (kind = none ∨ kind = some lease.kind) := by
  refine ⟨List.mem_of_find?_eq_some h, ?_⟩
  have hp := List.find?_some h
  simp only [Bool.and_eq_true, beq_iff_eq, Bool.or_eq_true, Option.isNone_iff_eq_none] at hp
  exact hp

theorem viewStep_touchUpdater (phase : Option HeartbeatPhase) (g : Option Nat)
    (db db' : CoordinatorDb) (done : Bool)
    (h : touchUpdater now (phase.map (·.toPhase)) g db = .ok (db', done)) :
    ViewStep now (view db) (.touchUpdater phase g) (view db') := by
  rw [touchUpdater, requireKnownPhase_bind] at h
  rcases h with ⟨hknown, h⟩
  have hph : (backfillLegacyBusyAnchor now db).state.phase = db.state.phase := by
    have := congrArg CoordinatorView.phase (view_backfill now db)
    rwa [backfill_phase] at this
  simp only at h
  split at h
  · cases h
    rw [view_backfill]
    exact ViewStep.touchMissed phase g
  · cases h
    have hstep : ViewStep now (view db) _ _ := ViewStep.touch phase g hknown
    rw [← view_backfill] at hstep
    rw [hph]
    exact hstep

theorem viewStep_requestAction (action : UpdateAction) (db db' : CoordinatorDb)
    (g : Option Nat) (h : requestAction now action.toRequested db = .ok (db', g)) :
    ViewStep now (view db) (.requestAction action) (view db') := by
  rw [requestAction, requireKnownPhase_bind] at h
  rcases h with ⟨hknown, h⟩
  split at h
  · cases h
    exact ViewStep.stutter _
  rename_i hbusy
  split at h
  · cases h
    exact ViewStep.stutter _
  · rename_i hnone
    cases h
    exact ViewStep.request action (by simpa using hbusy) (by simpa using hnone)

theorem viewStep_acquireCritical (owner operation : String)
    (ttl : Int) (db db' : CoordinatorDb) (answer : Option MaintenanceLease)
    (h : acquireCritical now tokenHash owner operation ttl db = .ok (db', answer)) :
    ViewStep now (view db) (.acquireCritical tokenHash owner operation ttl) (view db') := by
  simp only [acquireCritical] at h
  split at h
  · cases h
    rw [view_cleanupExpired]
    exact ViewStep.expire _
  rename_i hdr
  rw [activeDrain_isSome_iff, view_cleanupExpired] at hdr
  rcases insertLease_bind _ _ _ _ h with ⟨-, hok⟩
  cases hok
  have hstep : ViewStep now (view db) _ _ := ViewStep.grantCritical tokenHash owner operation ttl
    { tokenHash, kind := .critical, owner, operation := some operation,
      actionGeneration := none, createdAt := now, renewedAt := now, expiresAt := now + ttl }
    rfl hdr rfl
  rw [← view_cleanupExpired] at hstep
  exact hstep

theorem view_materializeInstall (db : CoordinatorDb) :
    view (materializeInstall now db) =
      { view db with
        action := .install
        generation := (view db).generation + 1
        requestedAt := some now } := rfl

theorem viewStep_claimDrain (owner : String) (g : Option Nat) (materialize requireIdle : Bool)
    (ttl : Int) (db db' : CoordinatorDb) (answer : Option (MaintenanceLease × Bool))
    (h : claimDrain now tokenHash owner g materialize requireIdle ttl db = .ok (db', answer)) :
    ViewStep now (view db) (.claimDrain tokenHash owner g materialize requireIdle ttl)
      (view db') := by
  have hexpire : ViewStep now (view db) (.claimDrain tokenHash owner g materialize requireIdle ttl)
      (view (cleanupExpired now db)) := by
    rw [view_cleanupExpired]
    exact ViewStep.expire _
  simp only [claimDrain] at h
  rw [requireKnownPhase_bind] at h
  rcases h with ⟨hknown, h⟩
  -- Four refusals leave only the sweep behind.
  split at h
  · cases h
    exact hexpire
  rename_i hdr
  split at h
  · cases h
    exact hexpire
  split at h
  · cases h
    exact hexpire
  split at h
  · cases h
    exact hexpire
  rcases insertLease_bind _ _ _ _ h with ⟨-, hok⟩
  cases hok
  rw [activeDrain_isSome_iff, view_cleanupExpired] at hdr
  have hknown' : knownCoordinatorPhase ((view db).expire now).phase = true := by
    rw [← view_cleanupExpired]
    exact hknown
  cases materialize with
  | false =>
    have hstep : ViewStep now (view db) _ _ := ViewStep.claimDrain tokenHash owner g false
      requireIdle ttl ((view db).expire now)
      { tokenHash, kind := .drain, owner, operation := some "container_update",
        actionGeneration := some (cleanupExpired now db).state.actionGeneration,
        createdAt := now, renewedAt := now, expiresAt := now + ttl }
      rfl (by rw [← view_cleanupExpired]; rfl) hknown' hdr (.inl rfl) rfl
    rw [← view_cleanupExpired] at hstep
    exact hstep
  | true =>
    have hstep : ViewStep now (view db) _ _ := ViewStep.claimDrain tokenHash owner g true
      requireIdle ttl (view (materializeInstall now (cleanupExpired now db)))
      { tokenHash, kind := .drain, owner, operation := some "container_update",
        actionGeneration :=
          some (materializeInstall now (cleanupExpired now db)).state.actionGeneration,
        createdAt := now, renewedAt := now, expiresAt := now + ttl }
      rfl rfl hknown' hdr
      (.inr (by rw [view_materializeInstall, view_cleanupExpired]; rfl)) rfl
    exact hstep

theorem viewStep_renew (ttl : Int) (db : CoordinatorDb) :
    ViewStep now (view db) (.renew tokenHash ttl) (view (renew now tokenHash ttl db).1) := by
  have hstep : ViewStep now (view db) _ _ := ViewStep.renew tokenHash ttl
  rw [← view_cleanupExpired] at hstep
  exact hstep

theorem viewStep_renewDrainProgress (ttl : Int)
    (phase : Option RenewPhase) (db db' : CoordinatorDb) (answer : Option Bool)
    (h : renewDrainProgress now tokenHash ttl (phase.map (·.toPhase)) db = .ok (db', answer)) :
    ViewStep now (view db) (.renewDrainProgress tokenHash ttl phase) (view db') := by
  simp only [renewDrainProgress] at h
  rw [requireKnownPhase_bind] at h
  rcases h with ⟨-, h⟩
  split at h
  · cases h
    rw [view_cleanupExpired]
    exact ViewStep.expire _
  rename_i drain hdr
  rcases mem_of_leaseForToken hdr with ⟨hmem, htok, hkind⟩
  cases h
  have hrdy : (criticalCount (cleanupExpired now db) == 0) = true ↔
      ∀ l ∈ ((view db).expire now).leases, isCritical l = false := by
    rw [beq_iff_eq, criticalCount_eq_zero_iff, ← view_cleanupExpired, view_leases]
  have hhas : ((view db).expire now).hasDrain := by
    refine ⟨drain, hmem, ?_⟩
    rcases hkind with hkind | hkind
    · simp at hkind
    · simpa [isDrain] using (Option.some.inj hkind).symm
  have hstep : ViewStep now (view db) _ _ := ViewStep.progress tokenHash ttl phase _ hrdy hhas
  rw [← view_cleanupExpired] at hstep
  rw [htok]
  exact hstep

theorem viewStep_release (db db' : CoordinatorDb)
    (done : Bool) (h : release now tokenHash db = .ok (db', done)) :
    ViewStep now (view db) (.release tokenHash) (view db') := by
  simp only [release] at h
  split at h
  · cases h
    rw [view_cleanupExpired]
    exact ViewStep.expire _
  rename_i lease hls
  have hmem : lease ∈ ((view db).expire now).leases := by
    exact (mem_of_leaseForToken hls).1
  split at h
  · rename_i hkind
    cases h
    have hstep : ViewStep now (view db) _ _ := ViewStep.releaseCritical tokenHash lease hmem
      (by simpa [isDrain] using hkind)
    rw [← view_cleanupExpired] at hstep
    exact hstep
  · rename_i hkind
    rw [requireKnownPhase_bind] at h
    cases h.2
    have hstep : ViewStep now (view db) _ _ := ViewStep.releaseDrain tokenHash lease hmem
      (by simpa [isDrain] using hkind)
    rw [← view_cleanupExpired] at hstep
    exact hstep

theorem viewStep_acknowledgeAction (g : Nat) (result : UpdateResult)
    (errorCode : Option String) (imageValues : ImageValues) (preserveAction : Bool)
    (db db' : CoordinatorDb) (done : Bool)
    (h : acknowledgeAction now g (phaseForResult result) result errorCode imageValues
      preserveAction db = .ok (db', done)) :
    ViewStep now (view db) (.acknowledgeAction g result errorCode imageValues preserveAction)
      (view db') := by
  rw [acknowledgeAction, requireKnownPhase_bind] at h
  rcases h with ⟨hknown, h⟩
  split at h
  · cases h
    exact ViewStep.stutter _
  rename_i hgen
  cases h
  rw [ne_eq, Decidable.not_not] at hgen
  subst hgen
  exact ViewStep.checkOutcome result errorCode imageValues preserveAction hknown

theorem viewStep_acknowledgeOutcome
    (fingerprint : OutcomeFingerprint) (db db' : CoordinatorDb) (done : Bool)
    (h : acknowledgeOutcome now tokenHash (phaseForResult fingerprint.result) fingerprint db =
      .ok (db', done)) :
    ViewStep now (view db) (.acknowledgeOutcome tokenHash fingerprint) (view db') := by
  have hexpire : ViewStep now (view db) (.acknowledgeOutcome tokenHash fingerprint)
      (view (cleanupExpired now db)) := by
    rw [view_cleanupExpired]
    exact ViewStep.expire _
  simp only [acknowledgeOutcome] at h
  rw [requireKnownPhase_bind] at h
  rcases h with ⟨-, h⟩
  split at h
  · cases h
    exact hexpire
  rename_i drain hdr
  rcases mem_of_leaseForToken hdr with ⟨hmem, -, hkind⟩
  split at h
  · cases h
    exact hexpire
  rename_i hmatch
  cases h
  have hmem' : drain ∈ ((view db).expire now).leases := by
    exact hmem
  have hdrainKind : isDrain drain = true := by
    rcases hkind with hkind | hkind
    · simp at hkind
    · simpa [isDrain] using (Option.some.inj hkind).symm
  -- The outcome is of the generation of the drain, and that is the one of the row.
  have hgen : ∀ g, fingerprint.expectedGeneration = some g →
      drain.actionGeneration = some g ∧ (view db).generation = g := by
    intro g hg
    have hst : (cleanupExpired now db).state.actionGeneration = (view db).generation := by
      have := congrArg CoordinatorView.generation (view_cleanupExpired now db)
      exact this
    rw [hg, hst] at hmatch
    simp only [Option.isSome_some, Bool.true_and, Bool.or_eq_true, bne_iff_ne, ne_eq, not_or,
      Decidable.not_not, Option.some.injEq] at hmatch
    exact hmatch
  -- The action is answered and cleared, or stays queued.
  have hact : (recordInstallOutcome now tokenHash (phaseForResult fingerprint.result)
        fingerprint drain.actionGeneration (cleanupExpired now db).state).requestedAction =
          (view db).action ∨
      (recordInstallOutcome now tokenHash (phaseForResult fingerprint.result)
        fingerprint drain.actionGeneration (cleanupExpired now db).state).requestedAction =
          .none := by
    have hsame := congrArg CoordinatorView.action (view_cleanupExpired now db)
    simp only [view_action, expire_action] at hsame
    simp only [recordInstallOutcome, hsame, view_action]
    split
    · exact .inr rfl
    · exact .inl rfl
  have hstep : ViewStep now (view db) _ _ := ViewStep.installOutcome tokenHash fingerprint drain
    (recordInstallOutcome now tokenHash (phaseForResult fingerprint.result) fingerprint
      drain.actionGeneration (cleanupExpired now db).state).requestedAction
    hmem' hdrainKind hgen hact
  rw [← view_cleanupExpired] at hstep
  exact hstep

theorem viewStep_forceResetPhase (recoveryMaxAge : Int) (db : CoordinatorDb) :
    ViewStep now (view db) (.forceResetPhase recoveryMaxAge)
      (view (forceResetPhase now recoveryMaxAge db).1) := by
  have hobserve : ViewStep now (view db) (.forceResetPhase recoveryMaxAge)
      (view (observe now db)) := by
    rw [view_observe]
    exact ViewStep.observe _
  simp only [forceResetPhase]
  -- The decision is opened only where it leads to a write.
  generalize hdec : decideRecovery (observe now db).state.phase
    (observe now db).state.requestedAction (activeDrain (observe now db)).isSome
    (phaseStartedAt (observe now db).state) now recoveryMaxAge = decision
  have hwr : decision.action = .actionOnly ∨ decision.action = .reanchor →
      ViewStep now (view db) (.forceResetPhase recoveryMaxAge)
        (view ((observe now db).updateState (applyRecovery now decision))) := by
    intro hact
    rw [← hdec] at hact
    have hdr : ¬ ((view db).expire now).hasDrain := by
      intro hhas
      have hsome : (activeDrain (observe now db)).isSome = true := by
        rw [activeDrain_isSome_iff, view_observe]
        simpa only [CoordinatorView.hasDrain, backfill_leases] using hhas
      rw [hsome, decideRecovery_of_live_drain] at hact
      simp at hact
    have hph : (applyRecovery now decision (observe now db).state).phase = .idle ∨
        (applyRecovery now decision (observe now db).state).phase =
            (((view db).expire now).backfill now).phase ∧
          busyCoordinatorPhase
            (applyRecovery now decision (observe now db).state).phase = false := by
      rcases hact with hact | hact
      · refine .inr ?_
        have hsame : (applyRecovery now decision (observe now db).state).phase =
            (observe now db).state.phase := by
          simp [applyRecovery, ← hdec, hact]
        rw [hsame, ← view_observe]
        exact ⟨rfl, (decideRecovery_actionOnly _ _ _ _ _ _ hact).2⟩
      · exact .inl (by simp [applyRecovery, ← hdec, hact])
    have hq : (applyRecovery now decision (observe now db).state).requestedAction =
          (view db).action ∨
        (applyRecovery now decision (observe now db).state).requestedAction = .none := by
      have hsame := congrArg CoordinatorView.action (view_observe now db)
      simp only [view_action, backfill_action, expire_action] at hsame
      simp only [applyRecovery, hsame, view_action]
      split
      · exact .inr rfl
      · exact .inl rfl
    have hstep : ViewStep now (view db) _ _ := ViewStep.reset recoveryMaxAge
      decision.fenceGeneration (applyRecovery now decision (observe now db).state).phase
      (applyRecovery now decision (observe now db).state).lastStartedAt
      (applyRecovery now decision (observe now db).state).requestedAction hph hdr hq
    rw [← view_observe] at hstep
    have hgen : (view db).generation = (observe now db).state.actionGeneration := by
      rw [← view_generation, view_observe, backfill_generation, expire_generation]
    rw [hgen] at hstep
    exact hstep
  cases hact : decision.action with
  | noop | wait | liveDrain => exact hobserve
  | actionOnly => exact hwr (.inl hact)
  | reanchor => exact hwr (.inr hact)

theorem viewStep_of_perform (op : CoordinatorOp) (now : Int) (db : CoordinatorDb) :
    ViewStep now (view db) op (view (perform op now db).1) := by
  cases op with
  | snapshot =>
    change ViewStep now (view db) _ (view (observe now db))
    rw [view_observe]
    exact ViewStep.observe _
  | recordUpdaterIdentity build digest =>
    refine viewStep_of_answered fun db' a h => ?_
    rw [recordUpdaterIdentity, requireKnownPhase_bind] at h
    cases h.2
    exact ViewStep.stutter _
  | recordRefreshOutcome result detailCode fromBuild toBuild =>
    refine viewStep_of_answered fun db' a h => ?_
    rw [recordRefreshOutcome, requireKnownPhase_bind] at h
    cases h.2
    exact ViewStep.stutter _
  | markBusyWorkDispatched =>
    simp only [perform, markBusyWorkDispatched]
    split
    · exact ViewStep.stutter _
    · rename_i hbusy
      exact ViewStep.dispatch (by simpa using hbusy)
  | touchUpdater phase g =>
    exact viewStep_of_answered fun db' a h => viewStep_touchUpdater now phase g db db' a h
  | requestAction action =>
    exact viewStep_of_answered fun db' a h => viewStep_requestAction now action db db' a h
  | acquireCritical tokenHash owner operation ttl =>
    refine viewStep_of_positiveTtl (viewStep_of_answered fun db' a h => ?_)
    exact viewStep_acquireCritical now tokenHash owner operation ttl db db' a h
  | claimDrain tokenHash owner g materialize requireIdle ttl =>
    refine viewStep_of_positiveTtl (viewStep_of_answered fun db' a h => ?_)
    exact viewStep_claimDrain now tokenHash owner g materialize requireIdle ttl db db' a h
  | renew tokenHash ttl => exact viewStep_of_positiveTtl (viewStep_renew now tokenHash ttl db)
  | renewDrainProgress tokenHash ttl phase =>
    refine viewStep_of_positiveTtl (viewStep_of_answered fun db' a h => ?_)
    exact viewStep_renewDrainProgress now tokenHash ttl phase db db' a h
  | release tokenHash =>
    exact viewStep_of_answered fun db' a h => viewStep_release now tokenHash db db' a h
  | forceResetPhase recoveryMaxAge =>
    refine viewStep_of_positiveTtl ?_
    have hstep := viewStep_forceResetPhase now recoveryMaxAge db
    split
    · rename_i hres
      rwa [hres] at hstep
    · rename_i hres
      rwa [hres] at hstep
  | acknowledgeAction g result errorCode imageValues preserveAction =>
    refine viewStep_of_answered fun db' a h => ?_
    exact viewStep_acknowledgeAction now g result errorCode imageValues preserveAction db db' a h
  | acknowledgeOutcome tokenHash fingerprint =>
    refine viewStep_of_answered fun db' a h => ?_
    exact viewStep_acknowledgeOutcome now tokenHash fingerprint db db' a h

end Coordinator

end PlexManager
