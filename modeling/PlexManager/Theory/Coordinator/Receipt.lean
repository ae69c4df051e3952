import Mathlib.Data.Set.Function
import PlexManager.Lib.Json
import PlexManager.Theory.Coordinator.Generation
import PlexManager.Theory.Coordinator.Settled

/-!
# The receipt of an outcome

The answer to an outcome may be lost on its way, so the updater sends the outcome again.
By then the drain is gone that would say who is asking. What says it is the receipt: the
row keeps the token of the last outcome, its fingerprint, its result and the generation it
was acknowledged for, and the same outcome under the same token is told yes once more.

Four columns are written in two places, and the row goes on to be written by everything
else. The invariant says that they still belong together, that the token holds no drain
and that the phase can be read. Only an outcome that is recorded, of an install or of a
check, writes any of the four, and a token is never drawn twice.

Nothing but leases that have run out is written by a second answer. Where the first one
was given to the holder of the drain, there is no drain left to run out until the next one
is claimed, and so the row stays as it is.

## Theorems

* `outcomeFingerprint_eq_iff`: The digest says as much as what is hashed.
* `outcome_acknowledged_once`: Every retry.
-/

namespace PlexManager

namespace Coordinator

open UpdateRecovery CoordinatorView Transition JsonText

/-! ### The fingerprint -/

def UpdateResult.value : UpdateResult → String
  | .noUpdate => "no_update"
  | .updateAvailable => "update_available"
  | .success => "success"
  | .failed => "failed"
  | .rolledBack => "rolled_back"
  | .cancelled => "cancelled"

def ofText : Option String → Json
  | none => .null
  | some text => .str text

/-- The list that `_outcome_fingerprint` makes. -/
def outcomePayload (o : OutcomeFingerprint) : Json :=
  .arr [match o.expectedGeneration with | none => .null | some g => .int g,
    .str o.result.value, ofText o.errorCode, ofText o.fromBuild, ofText o.toBuild,
    ofText o.currentBuild, ofText o.currentDigest, ofText o.availableBuild,
    ofText o.availableDigest]

def outcomeFingerprint {δ : Type} (sha256 : List Char → δ) (o : OutcomeFingerprint) : δ :=
  sha256 (render (outcomePayload o))

theorem value_injective : Function.Injective UpdateResult.value := by
  intro r r' h
  cases r <;> cases r' <;> first | rfl | exact absurd h (by decide)

theorem ofText_injective : Function.Injective ofText := by
  intro a b h
  cases a with
  | none =>
    cases b with
    | none => rfl
    | some text => exact nomatch h
  | some text =>
    cases b with
    | none => exact nomatch h
    | some text' => rw [Json.str.inj h]

theorem wellFormed_ofText (text : Option String) : WellFormed (ofText text) := by
  cases text <;> trivial

theorem wellFormed_outcomePayload (o : OutcomeFingerprint) : WellFormed (outcomePayload o) := by
  refine ⟨?_, trivial, wellFormed_ofText _, wellFormed_ofText _, wellFormed_ofText _,
    wellFormed_ofText _, wellFormed_ofText _, wellFormed_ofText _, wellFormed_ofText _, trivial⟩
  cases o.expectedGeneration <;> trivial

theorem outcomePayload_injective : Function.Injective outcomePayload := by
  rintro ⟨g, result, code, fromBuild, toBuild, build, digest, nextBuild, nextDigest⟩
    ⟨g', result', code', fromBuild', toBuild', build', digest', nextBuild', nextDigest'⟩ h
  simp only [outcomePayload, Json.arr.injEq, List.cons.injEq, and_true] at h
  rcases h with ⟨hg, hres, hcode, hfrom, hto, hbld, hdig, hnextBuild, hnextDigest⟩
  have hgen : g = g' := by
    cases g with
    | none =>
      cases g' with
      | none => rfl
      | some n => exact nomatch hg
    | some n =>
      cases g' with
      | none => exact nomatch hg
      | some n' =>
        have hn := Json.int.inj hg
        rw [Int.ofNat.inj hn]
  rw [hgen, value_injective (Json.str.inj hres), ofText_injective hcode,
    ofText_injective hfrom, ofText_injective hto, ofText_injective hbld,
    ofText_injective hdig, ofText_injective hnextBuild, ofText_injective hnextDigest]

theorem outcomeFingerprint_eq_iff {δ : Type} {sha256 : List Char → δ}
    (hinj : Set.InjOn sha256 (Set.range fun o => render (outcomePayload o)))
    (o o' : OutcomeFingerprint) :
    outcomeFingerprint sha256 o = outcomeFingerprint sha256 o' ↔ o = o' := by
  constructor
  · intro h
    have htext := hinj ⟨o, rfl⟩ ⟨o', rfl⟩ h
    exact outcomePayload_injective
      (render_injective (wellFormed_outcomePayload o) (wellFormed_outcomePayload o') htext)
  · rintro rfl
    rfl

theorem outcomeFingerprint_tells_generations :
    outcomeFingerprint id ⟨some 1, .noUpdate, none, none, none, none, none, none, none⟩ ≠
      outcomeFingerprint id ⟨some 2, .noUpdate, none, none, none, none, none, none, none⟩ :=
  fun h => nomatch (outcomeFingerprint_eq_iff Function.injective_id.injOn _ _).mp h

/-! ### The four columns -/

/-- What a row keeps of the last outcome. -/
def receipt (s : UpdateCoordinatorState) :
    Option TokenHash × Option OutcomeFingerprint × Option UpdateResult × Nat :=
  (s.lastOutcomeTokenHash, s.lastOutcomeFingerprint, s.lastResult, s.acknowledgedGeneration)

variable {s : UpdateCoordinatorState} {token : TokenHash} {o : OutcomeFingerprint}

theorem receiptMatches_congr {s' : UpdateCoordinatorState} (h : receipt s = receipt s')
    (token : TokenHash) (o : OutcomeFingerprint) :
    receiptMatches token o s = receiptMatches token o s' := by
  simp only [receipt, Prod.mk.injEq] at h
  simp only [receiptMatches, h.1, h.2.1, h.2.2.1, h.2.2.2]

theorem receiptMatches_other {o' : OutcomeFingerprint} (h : receiptMatches token o s = true)
    (hne : o' ≠ o) : receiptMatches token o' s = false := by
  simp only [receiptMatches, Bool.and_eq_true, beq_iff_eq] at h
  have hoth : (s.lastOutcomeFingerprint == some o') = false := by
    rw [h.1.2]
    simpa using hne.symm
  simp only [receiptMatches, hoth, Bool.and_false, Bool.false_and]

@[simp] theorem receipt_cleanupExpired (now : Int) (db : CoordinatorDb) :
    receipt (cleanupExpired now db).state = receipt db.state := by
  simp only [cleanupExpired]
  split <;> rfl

@[simp] theorem receipt_backfill (now : Int) (db : CoordinatorDb) :
    receipt (backfillLegacyBusyAnchor now db).state = receipt db.state := by
  simp only [backfillLegacyBusyAnchor]
  split <;> rfl

theorem receipt_observe (now : Int) (db : CoordinatorDb) :
    receipt (observe now db).state = receipt db.state := by
  rw [observe, receipt_backfill, receipt_cleanupExpired]

variable {db db' : CoordinatorDb} {now : Int} {v v' : CoordinatorView} {op : CoordinatorOp}

theorem receipt_answered {α : Type} {answer : α → CoordinatorAnswer}
    {body : CoordinatorDb → Except CoordinationError (CoordinatorDb × α)}
    (h : ∀ db' a, body db = .ok (db', a) → receipt db'.state = receipt db.state) :
    receipt (answered answer db body).1.state = receipt db.state := by
  unfold answered
  split
  · rename_i db' a hbody
    exact h db' a hbody
  · rfl

theorem receipt_positiveTtl {ttl : Int} {call : CoordinatorDb × CoordinatorAnswer}
    (h : receipt call.1.state = receipt db.state) :
    receipt (withPositiveTtl ttl db call).1.state = receipt db.state := by
  unfold withPositiveTtl
  split
  · rfl
  · exact h

theorem receipt_touchUpdater (now : Int) (phase : Option CoordinatorPhase) (g : Option Nat)
    {done : Bool} (h : touchUpdater now phase g db = .ok (db', done)) :
    receipt db'.state = receipt db.state := by
  rw [touchUpdater, requireKnownPhase_bind] at h
  have hbody := h.2
  simp only at hbody
  split at hbody
  · cases hbody
    exact receipt_backfill now db
  · cases hbody
    exact receipt_backfill now db

theorem receipt_requestAction (now : Int) (action : RequestedAction) {g : Option Nat}
    (h : requestAction now action db = .ok (db', g)) : receipt db'.state = receipt db.state := by
  rw [requestAction, requireKnownPhase_bind] at h
  have hbody := h.2
  split at hbody
  · cases hbody
    rfl
  split at hbody
  · cases hbody
    rfl
  · cases hbody
    rfl

theorem receipt_acquireCritical (now : Int) (token : TokenHash) (owner operation : String)
    (ttl : Int) {answer : Option MaintenanceLease}
    (h : acquireCritical now token owner operation ttl db = .ok (db', answer)) :
    receipt db'.state = receipt db.state := by
  simp only [acquireCritical] at h
  split at h
  · cases h
    exact receipt_cleanupExpired now db
  · rcases insertLease_bind _ _ _ _ h with ⟨-, hok⟩
    cases hok
    exact receipt_cleanupExpired now db

theorem receipt_claimDrain (now : Int) (token : TokenHash) (owner : String) (g : Option Nat)
    (materialize requireIdle : Bool) (ttl : Int) {answer : Option (MaintenanceLease × Bool)}
    (h : claimDrain now token owner g materialize requireIdle ttl db = .ok (db', answer)) :
    receipt db'.state = receipt db.state := by
  simp only [claimDrain] at h
  rw [requireKnownPhase_bind] at h
  replace h := h.2
  split at h
  · cases h
    exact receipt_cleanupExpired now db
  split at h
  · cases h
    exact receipt_cleanupExpired now db
  split at h
  · cases h
    exact receipt_cleanupExpired now db
  split at h
  · cases h
    exact receipt_cleanupExpired now db
  rcases insertLease_bind _ _ _ _ h with ⟨-, hok⟩
  cases hok
  cases materialize with
  | false | true => exact receipt_cleanupExpired now db

theorem receipt_renewDrainProgress (now : Int) (token : TokenHash) (ttl : Int)
    (phase : Option CoordinatorPhase) {answer : Option Bool}
    (h : renewDrainProgress now token ttl phase db = .ok (db', answer)) :
    receipt db'.state = receipt db.state := by
  simp only [renewDrainProgress] at h
  rw [requireKnownPhase_bind] at h
  replace h := h.2
  split at h
  · cases h
    exact receipt_cleanupExpired now db
  · cases h
    exact receipt_cleanupExpired now db

theorem receipt_release (now : Int) (token : TokenHash) {answer : Bool}
    (h : release now token db = .ok (db', answer)) : receipt db'.state = receipt db.state := by
  simp only [release] at h
  split at h
  · cases h
    exact receipt_cleanupExpired now db
  split at h
  · cases h
    exact receipt_cleanupExpired now db
  · rw [requireKnownPhase_bind] at h
    cases h.2
    exact receipt_cleanupExpired now db

theorem receipt_forceResetPhase (now recoveryMaxAge : Int) (db : CoordinatorDb) :
    receipt (forceResetPhase now recoveryMaxAge db).1.state = receipt db.state := by
  simp only [forceResetPhase]
  split <;> exact receipt_observe now db

/-! ### What records an outcome -/

/-- A call records an outcome: of a check, or of an install that is reported by the holder
    of the drain. -/
def Records (now : Int) (db : CoordinatorDb) : CoordinatorOp → Prop
  | .acknowledgeAction g result code imageValues preserve =>
      (perform (.acknowledgeAction g result code imageValues preserve) now db).2 = .flag true
  | .acknowledgeOutcome token o =>
      drainHeld now token db = true ∧ (perform (.acknowledgeOutcome token o) now db).2 = .flag true
  | _ => False

instance (now : Int) (db : CoordinatorDb) (op : CoordinatorOp) : Decidable (Records now db op) := by
  unfold Records
  split <;> infer_instance

theorem acknowledgeOutcome_of_not_held (hheld : drainHeld now token db = false)
    (hknown : knownCoordinatorPhase (cleanupExpired now db).state.phase = true) :
    perform (.acknowledgeOutcome token o) now db =
      (cleanupExpired now db, .flag (receiptMatches token o (cleanupExpired now db).state)) := by
  have hnone : leaseForToken (cleanupExpired now db) token (some .drain) = none := by
    simpa [drainHeld] using hheld
  have hbody : acknowledgeOutcome now token (phaseForResult o.result) o db =
      .ok (cleanupExpired now db, receiptMatches token o (cleanupExpired now db).state) := by
    rw [acknowledgeOutcome, requireKnownPhase_bind]
    refine ⟨hknown, ?_⟩
    rw [hnone]
    rfl
  simp only [perform, answered, hbody]

theorem receipt_perform (op : CoordinatorOp) (now : Int) (db : CoordinatorDb)
    (hnot : ¬Records now db op) : receipt (perform op now db).1.state = receipt db.state := by
  cases op with
  | snapshot => exact receipt_observe now db
  | recordUpdaterIdentity build digest =>
    refine receipt_answered fun db' a h => ?_
    rw [recordUpdaterIdentity, requireKnownPhase_bind] at h
    cases h.2
    rfl
  | recordRefreshOutcome result code fromBuild toBuild =>
    refine receipt_answered fun db' a h => ?_
    rw [recordRefreshOutcome, requireKnownPhase_bind] at h
    cases h.2
    rfl
  | markBusyWorkDispatched =>
    simp only [perform, markBusyWorkDispatched]
    split <;> rfl
  | touchUpdater phase g => exact receipt_answered fun db' a h => receipt_touchUpdater _ _ _ h
  | requestAction action => exact receipt_answered fun db' a h => receipt_requestAction _ _ h
  | acquireCritical token owner operation ttl =>
    exact receipt_positiveTtl (receipt_answered fun db' a h => receipt_acquireCritical _ _ _ _ _ h)
  | claimDrain token owner g materialize requireIdle ttl =>
    exact receipt_positiveTtl (receipt_answered fun db' a h => receipt_claimDrain _ _ _ _ _ _ _ h)
  | renew token ttl => exact receipt_positiveTtl (receipt_cleanupExpired now db)
  | renewDrainProgress token ttl phase =>
    exact receipt_positiveTtl (receipt_answered fun db' a h => receipt_renewDrainProgress _ _ _ _ h)
  | release token => exact receipt_answered fun db' a h => receipt_release _ _ h
  | forceResetPhase maxAge =>
    refine receipt_positiveTtl ?_
    have hkept := receipt_forceResetPhase now maxAge db
    split
    · rename_i db' result heq
      rwa [heq] at hkept
    · rename_i db' e heq
      rwa [heq] at hkept
  | acknowledgeAction g result code imageValues preserve =>
    refine receipt_answered fun db' a h => ?_
    have hbody := h
    rw [acknowledgeAction, requireKnownPhase_bind] at h
    have hrest := h.2
    split at hrest
    · cases hrest
      rfl
    -- it has gone through, and so it has been recorded
    cases hrest
    refine absurd ?_ hnot
    change (answered .flag db _).2 = .flag true
    rw [answered, hbody]
  | acknowledgeOutcome token o =>
    refine receipt_answered fun db' a h => ?_
    have hbody := h
    rw [acknowledgeOutcome, requireKnownPhase_bind] at h
    have hrest := h.2
    split at hrest
    · cases hrest
      exact receipt_cleanupExpired now db
    rename_i drain hdr
    split at hrest
    · cases hrest
      exact receipt_cleanupExpired now db
    cases hrest
    refine absurd ⟨?_, ?_⟩ hnot
    · rw [drainHeld, hdr]
      rfl
    · change (answered .flag db _).2 = .flag true
      rw [answered, hbody]

/-! ### The invariant -/

/-- The receipt of an outcome is there, and its token holds no drain. -/
structure Receipted (token : TokenHash) (o : OutcomeFingerprint) (db : CoordinatorDb) : Prop where
  known : knownCoordinatorPhase db.state.phase = true
  no_drain : ∀ l ∈ db.leases, l.tokenHash = token → isDrain l = false
  matches_outcome : receiptMatches token o db.state = true

theorem known_of_busy {phase : CoordinatorPhase} (h : busyCoordinatorPhase phase = true) :
    knownCoordinatorPhase phase = true := by
  cases phase with
  | other name => exact nomatch h
  | _ => rfl

theorem known_expire (now : Int) (h : knownCoordinatorPhase v.phase = true) :
    knownCoordinatorPhase (v.expire now).phase = true := by
  rcases expire_phase_cases now v with ⟨hsame, -⟩ | hidle
  · rw [hsame]
    exact h
  · rw [hidle]
    rfl

theorem known_of_viewStep (hstep : ViewStep now v op v')
    (h : knownCoordinatorPhase v.phase = true) : knownCoordinatorPhase v'.phase = true := by
  have hexp := known_expire now h
  cases hstep with
  | stutter | dispatch | request => exact h
  | expire | grantCritical | renew | releaseCritical => exact hexp
  | observe => simpa using hexp
  | touchMissed => simpa using h
  | touch phase g =>
    cases phase with
    | none => exact h
    | some phase => cases phase; rfl
  | claimDrain | releaseDrain => rfl
  | progress token ttl phase ready =>
    exact known_of_busy (known_drainProgressPhase phase ready (v.expire now).phase)
  | reset maxAge fence phase startedAt action hph =>
    rcases hph with rfl | ⟨rfl, -⟩
    · rfl
    · simpa using hexp
  | checkOutcome result => exact known_phaseForResult result
  | installOutcome token o => exact known_phaseForResult o.result

theorem no_drain_of_viewStep (hstep : ViewStep now v op v') (hdrawn : drawnToken op ≠ some token)
    (h : ∀ l ∈ v.leases, l.tokenHash = token → isDrain l = false) :
    ∀ l ∈ v'.leases, l.tokenHash = token → isDrain l = false := by
  intro l hl htok
  rcases lease_origin hstep l hl with ⟨old, hold, hsame, hkind⟩ | hnew
  · rw [hkind]
    exact h old hold (hsame ▸ htok)
  · rw [htok] at hnew
    exact absurd hnew hdrawn

theorem hasDrain_of_viewStep (hstep : ViewStep now v op v')
    (hcl : ∀ token owner g materialize requireIdle ttl,
      op ≠ .claimDrain token owner g materialize requireIdle ttl)
    (h : ¬v.hasDrain) : ¬v'.hasDrain := by
  rintro ⟨l, hl, hdr⟩
  have hold : ∀ {l'}, l' ∈ v.leases → isDrain l' = isDrain l → False :=
    fun hmem hkind => h ⟨_, hmem, hkind.trans hdr⟩
  have hexp : l ∈ (v.expire now).leases → False :=
    fun hmem => hold ((mem_expire now v l).mp hmem).1 rfl
  have hrenew : ∀ {ttl : Int} {token : TokenHash},
      l ∈ renewRows now ttl token (v.expire now).leases → False := by
    intro ttl token hmem
    rcases mem_renewRows now ttl token _ l hmem with ⟨old, hmem', hkind, -⟩
    exact hold ((mem_expire now v old).mp hmem').1 (by simp only [isDrain, hkind])
  cases hstep with
  | stutter | dispatch | request | checkOutcome => exact hold hl rfl
  | expire => exact hexp hl
  | observe | reset => exact hexp (by simpa using hl)
  | touchMissed => exact hold (by simpa using hl) rfl
  | touch => exact hold (by simpa [CoordinatorView.enter] using hl) rfl
  | grantCritical token owner operation ttl row hkind =>
    rcases List.mem_append.mp hl with hmem | hmem
    · exact hexp hmem
    · rw [List.mem_singleton.mp hmem, isDrain, hkind] at hdr
      cases hdr
  | claimDrain token owner g materialize requireIdle ttl =>
    exact hcl token owner g materialize requireIdle ttl rfl
  | renew | progress => exact hrenew hl
  | releaseCritical | releaseDrain | installOutcome => exact hexp (List.mem_filter.mp hl).1

/-- A call that comes between an outcome and its retry: no other outcome is recorded, and
    the token is not drawn again. -/
def Between (token : TokenHash) (w : CoordinatorWorld) (call : Int × CoordinatorOp) : Prop :=
  drawnToken call.2 ≠ some token ∧ ¬Records call.1 w.db call.2

instance (token : TokenHash) (w : CoordinatorWorld) (call : Int × CoordinatorOp) :
    Decidable (Between token w call) := inferInstanceAs (Decidable (_ ∧ _))

section Receipts

variable {token : TokenHash} {o : OutcomeFingerprint}

theorem Receipted.step {w w' : CoordinatorWorld} {call : Int × CoordinatorOp}
    (h : Receipted token o w.db) (hbetween : Between token w call)
    (hstep : step w call = some w') : Receipted token o w'.db := by
  have hview := viewStep_of_perform call.2 call.1 w.db
  rw [(step_eq_some w w' call hstep).2.2]
  refine ⟨known_of_viewStep hview h.known, no_drain_of_viewStep hview hbetween.1 h.no_drain, ?_⟩
  rw [receiptMatches_congr (receipt_perform call.2 call.1 w.db hbetween.2)]
  exact h.matches_outcome

theorem not_drainHeld (now : Int) (h : ∀ l ∈ db.leases, l.tokenHash = token → isDrain l = false) :
    drainHeld now token db = false := by
  by_contra hheld
  have hsome : (leaseForToken (cleanupExpired now db) token (some .drain)).isSome = true := by
    simpa only [drainHeld, Bool.not_eq_false] using hheld
  rcases Option.isSome_iff_exists.mp hsome with ⟨l, hl⟩
  rcases mem_of_leaseForToken hl with ⟨hmem, htok, hkind⟩
  have hnot := h l ((mem_cleanupExpired now db l).mp hmem).1 htok
  rcases hkind with hkind | hkind
  · cases hkind
  · rw [isDrain, ← Option.some.inj hkind] at hnot
    cases hnot

theorem receipted_of_acknowledged
    (hyes : (perform (.acknowledgeOutcome token o) now db).2 = .flag true) :
    Receipted token o (perform (.acknowledgeOutcome token o) now db).1 ∧
      (drainHeld now token db = true → Exclusive (view db) →
        ¬(view (perform (.acknowledgeOutcome token o) now db).1).hasDrain) := by
  simp only [perform, answered] at hyes ⊢
  split at hyes
  · rename_i db' done hbody
    obtain rfl := CoordinatorAnswer.flag.inj hyes
    rw [acknowledgeOutcome, requireKnownPhase_bind] at hbody
    rcases hbody with ⟨hknown, hbody⟩
    cases hfind : leaseForToken (cleanupExpired now db) token (some .drain) with
    | none =>
      rw [hfind] at hbody
      simp only [pure, Except.pure, Except.ok.injEq, Prod.mk.injEq] at hbody
      rcases hbody with ⟨rfl, hmatches⟩
      refine ⟨⟨hknown, ?_, hmatches⟩, fun hheld => ?_⟩
      · intro l hl htok
        by_contra hdr
        have hkind : l.kind = .drain := by simpa [isDrain] using hdr
        have hmiss := List.find?_eq_none.mp hfind l hl
        exact hmiss (by simp [htok, hkind])
      · rw [drainHeld, hfind] at hheld
        cases hheld
    | some drain =>
      rw [hfind] at hbody
      rcases mem_of_leaseForToken hfind with ⟨hmem, htok, hkind⟩
      simp only at hbody
      split at hbody
      · cases hbody
      rename_i hmatch
      cases hbody
      refine ⟨⟨known_phaseForResult o.result, ?_, ?_⟩, ?_⟩
      · intro l hl htok'
        have hne := (List.mem_filter.mp hl).2
        rw [htok', htok] at hne
        simp at hne
      · -- the generation of the outcome is that of the row
        cases hg : o.expectedGeneration with
        | none => simp [receiptMatches, recordInstallOutcome, CoordinatorDb.updateState, hg]
        | some g =>
          simp only [hg, Option.isSome_some, Bool.true_and, Bool.or_eq_true, bne_iff_ne,
            ne_eq, not_or, Decidable.not_not, Option.some.injEq] at hmatch
          simp [receiptMatches, recordInstallOutcome, CoordinatorDb.updateState, deleteLease,
            hg, hmatch.1, hmatch.2]
      · rintro - hex ⟨l, hl, hdr⟩
        have hl' := List.mem_filter.mp hl
        have hone : drain = l := by
          have hdr' : isDrain drain = true := by
            rcases hkind with hkind | hkind
            · cases hkind
            · rw [isDrain, ← Option.some.inj hkind]
              rfl
          exact eq_of_countP_le_one hex.one_drain ((mem_cleanupExpired now db drain).mp hmem).1
            ((mem_cleanupExpired now db l).mp hl'.1).1 hdr' hdr
        have hne := hl'.2
        rw [hone] at hne
        simp at hne
  · cases hyes

theorem state_cleanupExpired (now : Int) (h : ¬(view db).hasDrain) :
    (cleanupExpired now db).state = db.state := by
  have hnone : (db.leases.any fun l => isDrain l && decide (l.expiresAt ≤ now)) = false := by
    rw [List.any_eq_false]
    intro l hl hdr
    rw [Bool.and_eq_true] at hdr
    exact h ⟨l, hl, hdr.1⟩
  simp only [cleanupExpired, hnone, Bool.false_and, Bool.false_eq_true, if_false]

/-- After an outcome has been acknowledged, and whatever is called between that does not
    record another and does not draw its token again, the same outcome is told yes, any
    other is told no under its token, and nothing is written but what expires. If it was
    reported by the holder of the drain and no drain was claimed since, the row stays as it
    is. -/
theorem outcome_acknowledged_once (w₀ w w₁ w₂ : CoordinatorWorld)
    (before calls : List (Int × CoordinatorOp)) (now : Int) (token : TokenHash)
    (o : OutcomeFingerprint) (hfresh : Fresh w₀) (hbefore : run step w₀ before = some w)
    (hstep : step w (now, .acknowledgeOutcome token o) = some w₁)
    (hyes : (perform (.acknowledgeOutcome token o) now w.db).2 = .flag true)
    (hmeet : StepsMeet step (Between token) w₁ calls) (hrun : run step w₁ calls = some w₂)
    (later : Int) :
    perform (.acknowledgeOutcome token o) later w₂.db = (cleanupExpired later w₂.db, .flag true) ∧
      (∀ o', o' ≠ o → perform (.acknowledgeOutcome token o') later w₂.db =
        (cleanupExpired later w₂.db, .flag false)) ∧
      (drainHeld now token w.db = true →
        (∀ call ∈ calls, ∀ token' owner g materialize requireIdle ttl,
          call.2 ≠ .claimDrain token' owner g materialize requireIdle ttl) →
        (cleanupExpired later w₂.db).state = w₂.db.state) := by
  rcases receipted_of_acknowledged hyes with ⟨hfst, hnone⟩
  rw [← (step_eq_some w w₁ _ hstep).2.2] at hfst hnone
  have hrec : Receipted token o w₂.db :=
    invariant_of_meeting_run (I := fun u => Receipted token o u.db)
      (fun u call u' hu hbetween hcall => hu.step hbetween hcall) w₁ w₂ calls hfst hmeet hrun
  -- Nobody holds a drain under the token any more, so the receipt alone decides.
  have hheld : drainHeld later token w₂.db = false := not_drainHeld later hrec.no_drain
  have hknown : knownCoordinatorPhase (cleanupExpired later w₂.db).state.phase = true := by
    have hview := known_expire (v := view w₂.db) later hrec.known
    rwa [← view_cleanupExpired] at hview
  have hmatches : receiptMatches token o (cleanupExpired later w₂.db).state = true := by
    rw [receiptMatches_congr (receipt_cleanupExpired later w₂.db)]
    exact hrec.matches_outcome
  refine ⟨?_, ?_, ?_⟩
  · rw [acknowledgeOutcome_of_not_held hheld hknown, hmatches]
  · intro o' hne
    rw [acknowledgeOutcome_of_not_held hheld hknown, receiptMatches_other hmatches hne]
  · intro hhold hclaims
    have hex : Exclusive (view w.db) :=
      exclusive_of_run w₀ w before (exclusive_of_fresh w₀ hfresh) hbefore
    refine state_cleanupExpired later ?_
    refine invariant_of_meeting_run (I := fun u => ¬(view u.db).hasDrain)
      (C := fun _ call => ∀ token' owner g materialize requireIdle ttl,
        call.2 ≠ .claimDrain token' owner g materialize requireIdle ttl)
      ?_ w₁ w₂ calls (hnone hhold hex) (stepsMeet_of_mem w₁ calls hclaims) hrun
    intro u call u' hu hcl hcall
    rw [(step_eq_some u u' call hcall).2.2]
    exact hasDrain_of_viewStep (viewStep_of_perform call.2 call.1 u.db) hcl hu

end Receipts

def installedOnce : List (Int × CoordinatorOp) :=
  [(0, .requestAction .install), (1, .claimDrain 7 "updater" (some 1) false true 60)]

/-- A heartbeat, a critical lease that runs out and another request. -/
def afterwards : List (Int × CoordinatorOp) :=
  [(3, .touchUpdater none none), (4, .acquireCritical 8 "app" "scan" 5), (5, .snapshot),
    (6, .requestAction .check)]

/-- The outcome of an install is reported again after some more has happened. -/
theorem outcome_acknowledged_again :
    ∃ w₂, perform (.acknowledgeOutcome 7 installSucceeded) 20 w₂ =
      (cleanupExpired 20 w₂, .flag true) ∧ w₂.state.requestedAction = .check ∧
      (cleanupExpired 20 w₂).state = w₂.state := by
  let w₀ : CoordinatorWorld := { db := { state := {}, leases := [] }, clock := 0 }
  have hend : ((run step w₀ installedOnce).bind fun w =>
      (step w (2, .acknowledgeOutcome 7 installSucceeded)).bind
        fun w₁ => (run step w₁ afterwards).map fun w₂ => w₂.db.state.requestedAction) =
      some .check := by decide +kernel
  rcases Option.bind_eq_some_iff.mp hend with ⟨w, hw, hrest⟩
  rcases Option.bind_eq_some_iff.mp hrest with ⟨w₁, hw₁, hrest'⟩
  rcases Option.map_eq_some_iff.mp hrest' with ⟨w₂, hw₂, hact⟩
  have hheld : ((run step w₀ installedOnce).all fun w =>
      (perform (.acknowledgeOutcome 7 installSucceeded) 2
        w.db).2 = .flag true && drainHeld 2 7 w.db) = true := by decide +kernel
  rw [hw, Option.all_some, Bool.and_eq_true, decide_eq_true_eq] at hheld
  have hmeet : ((run step w₀ installedOnce).bind fun w =>
      step w (2, .acknowledgeOutcome 7 installSucceeded)).all
        (fun w₁ => decide (StepsMeet step (Between 7) w₁ afterwards)) = true := by decide +kernel
  rw [hw, Option.bind_some, hw₁, Option.all_some, decide_eq_true_eq] at hmeet
  have honce := outcome_acknowledged_once w₀ w w₁ w₂ installedOnce afterwards 2 7 _
    ⟨rfl, rfl⟩ hw hw₁ hheld.1 hmeet hw₂ 20
  refine ⟨w₂.db, honce.1, hact, honce.2.2 hheld.2 ?_⟩
  intro call hcall
  simp only [afterwards, List.mem_cons, List.not_mem_nil, or_false] at hcall
  rcases hcall with rfl | rfl | rfl | rfl
  all_goals exact fun _ _ _ _ _ _ => nofun

end Coordinator

end PlexManager
