import PlexManager.Core.UpdateEndpoints
import PlexManager.Theory.Coordinator.Recovery

/-!
# What an accepted outcome leaves behind

When the coordinator accepts an install outcome it clears the queued action and
deletes the drain. `Settled` is what that means for the token and the
generation the outcome came with: the token holds no drain, and an install of
that generation is not queued. Neither ever comes back. A token is not drawn
twice, and an install is only queued under a new generation.

So whoever still has the token and the generation is turned away: a renewal
finds no lease, and a recovery claim finds no matching action. The endpoints
are looked at transaction by transaction, with anything of others in between.

## Theorems

* `lease_origin`: Where the leases after an operation come from.
* `settled_of_viewStep`: No operation unsettles.
* `keeps_transact_answer`, `Endpoint.Keeps.bind`: The rules for endpoints.
* `renewEndpoint_refused`, `claimEndpoint_refused`: The endpoints turn the
  holder away.
* `outcomeEndpoint_settles`: An accepted outcome settles.
-/

namespace PlexManager

namespace Coordinator

open UpdateRecovery CoordinatorView

/-! ### The tables -/

/-- A token holds no drain any more, and no install of a generation is queued
    or will be. -/
structure Settled (token : TokenHash) (g : Nat) (v : CoordinatorView) : Prop where
  generation_le : g ≤ v.generation
  not_queued : v.generation = g → v.action ≠ .install
  no_drain : ∀ l ∈ v.leases, l.tokenHash = token → isDrain l = false

variable {token : TokenHash} {g : Nat} {now : Int} {op : CoordinatorOp} {s s' : Service}
  {v v' : CoordinatorView} {db : CoordinatorDb} {body : UpdateOutcomeRequest}

-- Every lease after an operation was there before, under the same token and of the same kind,
-- or the operation drew its token.
theorem lease_origin (hstep : ViewStep now v op v') (l : MaintenanceLease) (hl : l ∈ v'.leases) :
    (∃ old ∈ v.leases, l.tokenHash = old.tokenHash ∧ isDrain l = isDrain old) ∨
      drawnToken op = some l.tokenHash := by
  have hold : ∀ {leases : List MaintenanceLease}, (∀ l ∈ leases, l ∈ v.leases) → l ∈ leases →
      ∃ old ∈ v.leases, l.tokenHash = old.tokenHash ∧ isDrain l = isDrain old :=
    fun hsub h => ⟨l, hsub l h, rfl, rfl⟩
  have hexp : ∀ l ∈ (v.expire now).leases, l ∈ v.leases :=
    fun l h => ((mem_expire now v l).mp h).1
  have hrenew : ∀ {ttl : Int} {token : TokenHash},
      l ∈ renewRows now ttl token (v.expire now).leases →
      ∃ old ∈ v.leases, l.tokenHash = old.tokenHash ∧ isDrain l = isDrain old := by
    intro ttl token h
    rcases mem_renewRows now ttl token _ l h with ⟨old, hmem, hkind, -, htok⟩
    exact ⟨old, hexp old hmem, htok, by simp only [isDrain, hkind]⟩
  have hkept : ∀ {p : MaintenanceLease → Bool}, l ∈ (v.expire now).leases.filter p →
      ∃ old ∈ v.leases, l.tokenHash = old.tokenHash ∧ isDrain l = isDrain old :=
    fun h => ⟨l, hexp l (List.mem_filter.mp h).1, rfl, rfl⟩
  cases hstep with
  | stutter => exact .inl (hold (fun _ h => h) hl)
  | expire => exact .inl (hold hexp hl)
  | observe => exact .inl (hold hexp (by simpa using hl))
  | dispatch => exact .inl (hold (fun _ h => h) hl)
  | touchMissed => exact .inl (hold (fun _ h => h) (by simpa using hl))
  | touch => exact .inl (hold (fun _ h => h) (by simpa [CoordinatorView.enter] using hl))
  | request => exact .inl (hold (fun _ h => h) hl)
  | grantCritical token owner operation ttl row hkind hdr htok =>
    rcases List.mem_append.mp hl with h | h
    · exact .inl (hold hexp h)
    · exact .inr (by rw [List.mem_singleton.mp h, htok]; rfl)
  | claimDrain token owner g materialize requireIdle ttl w row hkind hgen hknown hdr hw
      htok =>
      have hls : w.leases = (v.expire now).leases := by
        rcases hw with hw | hw
        · rw [hw]
        · rw [hw]
      rcases List.mem_append.mp hl with h | h
      · exact .inl (hold hexp (hls ▸ h))
      · exact .inr (by rw [List.mem_singleton.mp h, htok]; rfl)
  | renew | progress => exact .inl (hrenew hl)
  | releaseCritical | releaseDrain => exact .inl (hkept hl)
  | reset => exact .inl (hold hexp (by simpa using hl))
  | checkOutcome => exact .inl (hold (fun _ h => h) hl)
  | installOutcome => exact .inl (hkept hl)

theorem not_queued_of_viewStep (hstep : ViewStep now v op v') (hgen : v'.generation = v.generation)
    (hact : v.action ≠ .install) : v'.action ≠ .install := by
  have hsame : ∀ {action : RequestedAction}, action = v.action ∨ action = .none →
      action ≠ .install := by
    intro action h
    rcases h with h | h
    · rw [h]
      exact hact
    · rw [h]
      exact nofun
  cases hstep with
  | request => exact absurd hgen (Nat.succ_ne_self _)
  | claimDrain token owner g materialize requireIdle ttl w row hkind hrow hknown hdr hw =>
    rcases hw with hw | hw
    · rw [hw]
      exact hact
    · rw [hw] at hgen
      exact absurd hgen (Nat.succ_ne_self _)
  | reset recoveryMaxAge fence phase startedAt action hph hdr hq => exact hsame hq
  | installOutcome token fingerprint lease action hls hkind hmatch hq =>
    exact hsame hq
  | checkOutcome result errorCode imageValues preserveAction =>
    cases preserveAction with
    | true => exact hact
    | false => exact nofun
  | observe | touchMissed => simpa using hact
  | touch => simpa [CoordinatorView.enter] using hact
  | _ => exact hact

-- No operation unsettles a token it does not draw.
theorem settled_of_viewStep (hstep : ViewStep now v op v') (h : Settled token g v)
    (hnew : drawnToken op ≠ some token) : Settled token g v' where
  generation_le := Nat.le_trans h.generation_le (generation_le_of_viewStep hstep)
  not_queued := by
    intro hgen
    have hle := generation_le_of_viewStep hstep
    have hge := h.generation_le
    have hsame : v'.generation = v.generation := by omega
    exact not_queued_of_viewStep hstep hsame (h.not_queued (by omega))
  no_drain := by
    intro l hl htok
    rcases lease_origin hstep l hl with ⟨old, hold, hsame, hkind⟩ | hdrawn
    · rw [hkind]
      exact h.no_drain old hold (hsame ▸ htok)
    · exact absurd (htok ▸ hdrawn) hnew

/-! ### Endpoints -/

/-- Every token in the tables was drawn. -/
def Service.Sane (s : Service) : Prop := ∀ l ∈ s.db.leases, l.tokenHash ∈ s.issued

/-- A service where a token it has drawn, and a generation, are settled. -/
structure SettledService (token : TokenHash) (g : Nat) (s : Service) : Prop where
  sane : s.Sane
  drawn : token ∈ s.issued
  settled : Settled token g (view s.db)

/-- An endpoint keeps `P`, and what it answers normally is as `Q` says. -/
def Endpoint.Keeps {α : Type} (P : Service → Prop) (x : Endpoint α) (Q : α → Prop) : Prop :=
  ∀ s r s', P s → x s = some (r, s') → P s' ∧ ∀ a, r = .ok a → Q a

section Rules

variable {α β : Type} {P : Service → Prop} {x : Endpoint α} {f : α → Endpoint β} {Q : α → Prop}

theorem bind_eq_some {r : Except Refusal β} (h : (x >>= f) s = some (r, s')) :
    (∃ a t, x s = some (.ok a, t) ∧ f a t = some (r, s')) ∨
      ∃ e, x s = some (.error e, s') ∧ r = .error e := by
  cases hrun : x s with
  | none => simp [Bind.bind, hrun] at h
  | some result =>
    rcases result with ⟨answer, t⟩
    cases answer with
    | ok a => exact .inl ⟨a, t, rfl, by simpa [Bind.bind, hrun] using h⟩
    | error e =>
      simp only [Bind.bind, hrun, Option.some.injEq, Prod.mk.injEq] at h
      rcases h with ⟨rfl, rfl⟩
      exact .inr ⟨e, rfl, rfl⟩

theorem Endpoint.Keeps.bind {R : β → Prop}
    (hx : Keeps P x Q) (hf : ∀ a, Q a → Keeps P (f a) R) : Keeps P (x >>= f) R := by
  intro s r s' hs h
  rcases bind_eq_some h with ⟨a, t, hrun, hrest⟩ | ⟨e, hrun, rfl⟩
  · have hstep := hx s (.ok a) t hs hrun
    exact hf a (hstep.2 a rfl) t r s' hstep.1 hrest
  · exact ⟨(hx s (.error e) s' hs hrun).1, fun b hb => by cases hb⟩

theorem bind_eq_ok {b : β} (h : (x >>= f) s = some (.ok b, s')) :
    ∃ a t, x s = some (.ok a, t) ∧ f a t = some (.ok b, s') := by
  rcases bind_eq_some h with hboth | ⟨e, -, he⟩
  · exact hboth
  · cases he

theorem Endpoint.Keeps.pure {a : α} (h : Q a) : Keeps P (Pure.pure a : Endpoint α) Q := by
  intro s r s' hs hrun
  cases hrun
  exact ⟨hs, fun b hb => by cases hb; exact h⟩

theorem Endpoint.Keeps.refuse {code : Refusal} : Keeps P (Endpoint.refuse code : Endpoint α) Q := by
  intro s r s' hs hrun
  cases hrun
  exact ⟨hs, nofun⟩

theorem Endpoint.Keeps.impossible : Keeps P (Endpoint.impossible : Endpoint α) Q :=
  fun _ _ _ _ hrun => nomatch hrun

theorem Endpoint.Keeps.ite {c : Prop} [Decidable c] {y : Endpoint α}
    (hx : c → Keeps P x Q) (hy : ¬ c → Keeps P y Q) : Keeps P (if c then x else y) Q := by
  by_cases h : c
  · rw [if_pos h]
    exact hx h
  · rw [if_neg h]
    exact hy h

end Rules

open Endpoint

theorem transact_eq_some {r : Except Refusal CoordinatorAnswer}
    (h : transact now op s = some (r, s')) :
    (∀ token, drawnToken op = some token → token ∉ s.issued) ∧
      r = .ok (perform op now s.db).2 ∧
      s' = { db := (perform op now s.db).1
             clock := now
             issued := (drawnToken op).toList ++ s.issued } := by
  unfold transact at h
  split at h
  · simp at h
  rename_i hnew
  simp only [Option.some.injEq, Prod.mk.injEq] at h
  refine ⟨?_, h.1.symm, h.2.symm⟩
  intro token hdrawn hissued
  exact hnew (by simp [hdrawn, hissued])

theorem transact_of_guardUnknownPhase {answer : CoordinatorAnswer}
    (h : guardUnknownPhase now op s = some (.ok answer, s')) :
    transact now op s = some (.ok answer, s') := by
  rcases bind_eq_ok h with ⟨given, t, htransact, hrest⟩
  split at hrest
  · exact nomatch hrest
  cases hrest
  exact htransact

theorem keeps_transact_sane (now : Int) (op : CoordinatorOp) :
    Keeps Service.Sane (transact now op) fun _ => True := by
  intro s r s' hs hrun
  rcases transact_eq_some hrun with ⟨-, -, rfl⟩
  refine ⟨?_, fun _ _ => trivial⟩
  intro l hl
  rcases lease_origin (viewStep_of_perform op now s.db) l hl with ⟨old, hold, htok, -⟩ | hdrawn
  · rw [htok]
    exact List.mem_append_right _ (hs old hold)
  · simp [hdrawn]

theorem keeps_transact_settled (now : Int) (op : CoordinatorOp) :
    Keeps (SettledService token g) (transact now op) fun _ => True := by
  intro s r s' hs hrun
  have hsane := (keeps_transact_sane now op s r s' hs.sane hrun).1
  rcases transact_eq_some hrun with ⟨hnew, -, rfl⟩
  refine ⟨⟨hsane, List.mem_append_right _ hs.drawn, ?_⟩, fun _ _ => trivial⟩
  refine settled_of_viewStep (viewStep_of_perform op now s.db) hs.settled ?_
  exact fun hdrawn => hnew token hdrawn hs.drawn

section Closed

variable {P : Service → Prop} (hP : ∀ now op, Keeps P (transact now op) fun _ => True)
include hP

theorem keeps_readSnapshot (now : Int) : Keeps P (readSnapshot now) fun _ => True := by
  refine .bind (hP now .snapshot) fun answer _ => ?_
  cases answer with
  | snapshot status => exact .pure trivial
  | _ => exact .impossible

theorem keeps_guardUnknownPhase (now : Int) (op : CoordinatorOp) :
    Keeps P (guardUnknownPhase now op) fun _ => True := by
  refine .bind (hP now op) fun answer _ => ?_
  split
  · exact .refuse
  · exact .pure trivial

theorem keeps_knownSnapshot (now : Int) : Keeps P (knownSnapshot now) fun _ => True := by
  refine .bind (keeps_readSnapshot hP now) fun snapshot _ => ?_
  exact .ite (fun _ => .pure trivial) fun _ => .refuse

theorem keeps_meanwhile (calls : List (Int × CoordinatorOp)) :
    Keeps P (meanwhile calls) fun _ => True := by
  induction calls with
  | nil => exact .pure trivial
  | cons call calls ih =>
    unfold meanwhile
    split
    · exact .bind (hP call.1 call.2) fun _ _ => ih
    · exact .impossible

variable (visit : Visit)

theorem keeps_eligibility : Keeps P (eligibility visit) fun _ => True := by
  refine .bind (hP _ _) fun _ _ => ?_
  refine .bind (hP _ _) fun _ _ => ?_
  refine .bind (keeps_readSnapshot hP _) fun snapshot _ => ?_
  refine .ite (fun _ => .pure trivial) fun _ => ?_
  refine .ite (fun _ => .pure trivial) fun _ => ?_
  refine .ite (fun _ => ?_) fun _ => .pure trivial
  exact .bind (hP _ _) fun _ _ => .pure trivial

theorem keeps_eligibilityEndpoint : Keeps P (eligibilityEndpoint visit) fun _ => True :=
  .bind (keeps_eligibility hP visit) fun _ _ => .pure trivial

theorem keeps_heartbeatEndpoint (generation : Nat) :
    Keeps P (heartbeatEndpoint visit generation) fun _ => True := by
  refine .bind (keeps_knownSnapshot hP _) fun _ _ => ?_
  refine .bind (keeps_meanwhile hP _) fun _ _ => ?_
  refine .bind (keeps_guardUnknownPhase hP _ _) fun _ _ => ?_
  refine .bind (keeps_guardUnknownPhase hP _ _) fun answer _ => ?_
  split
  · exact .bind (keeps_readSnapshot hP _) fun _ _ => .pure trivial
  · exact .refuse
  · exact .impossible

theorem keeps_claimEligibility (body : UpdateClaimRequest) :
    Keeps P (claimEligibility visit body) fun _ => True := by
  unfold claimEligibility
  split
  · refine .bind (keeps_knownSnapshot hP _) fun snapshot _ => ?_
    exact .ite (fun _ => .pure trivial) fun _ => .refuse
  · refine .bind (keeps_eligibility hP _) fun answer _ => ?_
    exact .ite (fun _ => .refuse) fun _ => .pure trivial

theorem keeps_claimEndpoint (body : UpdateClaimRequest) :
    Keeps P (claimEndpoint visit body) fun _ => True := by
  refine .bind (keeps_claimEligibility hP visit body) fun eligible _ => ?_
  refine .ite (fun _ => .refuse) fun _ => ?_
  refine .ite (fun _ => .pure trivial) fun _ => ?_
  refine .bind (keeps_meanwhile hP _) fun _ _ => ?_
  refine .bind (keeps_guardUnknownPhase hP _ _) fun answer _ => ?_
  split
  · exact .bind (keeps_readSnapshot hP _) fun _ _ => .pure trivial
  · exact .pure trivial
  · exact .impossible

theorem keeps_renewEndpoint (token : TokenHash) (phase : Option RenewPhase) :
    Keeps P (renewEndpoint visit token phase) fun _ => True := by
  refine .bind (keeps_knownSnapshot hP _) fun _ _ => ?_
  refine .bind (keeps_meanwhile hP _) fun _ _ => ?_
  refine .bind (keeps_guardUnknownPhase hP _ _) fun answer _ => ?_
  split
  · exact .refuse
  · refine .ite (fun _ => ?_) fun _ => .pure trivial
    exact .bind (keeps_readSnapshot hP _) fun _ _ => .pure trivial
  · exact .impossible

theorem keeps_releaseEndpoint (token : TokenHash) :
    Keeps P (releaseEndpoint visit token) fun _ => True := by
  refine .bind (keeps_knownSnapshot hP _) fun _ _ => ?_
  refine .bind (keeps_meanwhile hP _) fun _ _ => ?_
  refine .bind (keeps_guardUnknownPhase hP _ _) fun answer _ => ?_
  split
  · exact .pure trivial
  · exact .impossible

theorem keeps_transact_answer (now : Int) (op : CoordinatorOp) :
    Keeps P (transact now op) fun answer => ∃ s, P s ∧ answer = (perform op now s.db).2 := by
  intro s r s' hs hrun
  refine ⟨(hP now op s r s' hs hrun).1, ?_⟩
  rcases transact_eq_some hrun with ⟨-, rfl, -⟩
  intro a ha
  exact ⟨s, hs, (Except.ok.inj ha).symm⟩

theorem keeps_guardUnknownPhase_answer (now : Int) (op : CoordinatorOp) :
    Keeps P (guardUnknownPhase now op) fun answer =>
      ∃ s, P s ∧ answer = (perform op now s.db).2 := by
  refine .bind (keeps_transact_answer hP now op) fun answer hans => ?_
  split
  · exact .refuse
  · exact .pure hans

theorem keeps_knownSnapshot_answer (now : Int) :
    Keeps P (knownSnapshot now) fun status => ∃ s, P s ∧ status = (snapshot now s.db).2 := by
  have hread : Keeps P (readSnapshot now) fun status =>
      ∃ s, P s ∧ status = (snapshot now s.db).2 := by
    refine .bind (keeps_transact_answer hP now .snapshot) fun answer hans => ?_
    rcases hans with ⟨s, hs, rfl⟩
    exact .pure ⟨s, hs, rfl⟩
  refine .bind hread fun status hst => ?_
  exact .ite (fun _ => .pure hst) fun _ => .refuse

theorem keeps_outcomeEndpoint (visit : Visit) (body : UpdateOutcomeRequest) :
    Keeps P (outcomeEndpoint visit body) fun _ => True := by
  refine .bind (keeps_knownSnapshot hP _) fun snapshot _ => ?_
  refine .bind (keeps_meanwhile hP _) fun _ _ => ?_
  cases body.leaseToken with
  | none =>
    refine .bind (keeps_guardUnknownPhase hP _ _) fun answer _ => ?_
    split
    · exact .pure trivial
    · exact .refuse
    · exact .impossible
  | some token =>
    intro s r s' hs hrun
    refine ⟨?_, fun _ _ => trivial⟩
    dsimp only [acknowledgeInstall] at hrun
    have hkept := keeps_guardUnknownPhase hP visit.later
      (.acknowledgeOutcome token body.fingerprint) s
    split at hrun
    · rename_i heq
      cases hrun
      exact (hkept _ _ hs heq).1
    · rename_i heq
      cases hrun
      exact (hkept _ _ hs heq).1
    · exact nomatch hrun
    · rename_i heq
      cases hrun
      exact (hkept _ _ hs heq).1
    · exact nomatch hrun

end Closed

/-! ### Who is turned away -/

theorem leaseForToken_of_settled (now : Int) (h : Settled token g (view db)) :
    leaseForToken (cleanupExpired now db) token (some .drain) = none := by
  cases hfind : leaseForToken (cleanupExpired now db) token (some .drain) with
  | none => rfl
  | some lease =>
    rcases mem_of_leaseForToken hfind with ⟨hmem, htok, hkind⟩
    have hls := h.no_drain lease ((mem_cleanupExpired now db lease).mp hmem).1 htok
    rcases hkind with hkind | hkind
    · simp at hkind
    · have hdr : isDrain lease = true := by
        simpa [isDrain] using (Option.some.inj hkind).symm
      simp [hls] at hdr

theorem progress_of_settled (now ttl : Int) (phase : Option RenewPhase)
    (h : Settled token g (view db)) (ready : Bool) :
    (perform (.renewDrainProgress token ttl phase) now db).2 ≠ .progress (some ready) := by
  simp only [perform, withPositiveTtl]
  split
  · intro h; cases h
  simp only [answered]
  split
  · rename_i db' answer hbody
    rw [renewDrainProgress, requireKnownPhase_bind] at hbody
    simp only [leaseForToken_of_settled now h] at hbody
    cases hbody.2
    intro h; cases h
  · intro h; cases h

theorem renewEndpoint_refused (visit : Visit) (phase : Option RenewPhase) :
    Keeps (SettledService token g) (renewEndpoint visit token phase) fun _ => False := by
  have hshut := @keeps_transact_settled token g
  refine .bind (keeps_knownSnapshot hshut _) fun _ _ => ?_
  refine .bind (keeps_meanwhile hshut _) fun _ _ => ?_
  refine .bind (keeps_guardUnknownPhase_answer hshut _ _) fun answer hans => ?_
  rcases hans with ⟨s, hs, rfl⟩
  split
  · exact .refuse
  · rename_i ready hrdy
    exact absurd hrdy (progress_of_settled _ _ _ hs.settled ready)
  · exact .impossible

theorem claimEndpoint_refused (visit : Visit) :
    Keeps (SettledService token g) (claimEndpoint visit ⟨true, some g⟩) fun _ => False := by
  have hshut := @keeps_transact_settled token g
  have hrefu : Keeps (SettledService token g) (claimEligibility visit ⟨true, some g⟩)
      fun _ => False := by
    refine .bind (keeps_knownSnapshot_answer hshut _) fun status hst => ?_
    rcases hst with ⟨s, hs, rfl⟩
    refine .ite (fun hmatch => ?_) fun _ => .refuse
    have hact := congrArg CoordinatorView.action (view_observe visit.now s.db)
    have hgen := congrArg CoordinatorView.generation (view_observe visit.now s.db)
    simp only [view_action, backfill_action, expire_action, view_generation,
      backfill_generation, expire_generation] at hact hgen
    simp only [snapshot, hact, hgen, Option.some.injEq] at hmatch
    exact absurd hmatch.1 (hs.settled.not_queued hmatch.2)
  exact .bind hrefu fun _ h => h.elim

/-! ### What settles -/

theorem settled_of_accepted {fingerprint : OutcomeFingerprint}
    (hexp : fingerprint.expectedGeneration = some g) (hheld : drainHeld now token db = true)
    (hyes : (perform (.acknowledgeOutcome token fingerprint) now db).2 = .flag true) :
    Settled token g (view (perform (.acknowledgeOutcome token fingerprint) now db).1) ∧
      ∃ l ∈ db.leases, l.tokenHash = token := by
  simp only [perform, answered] at hyes ⊢
  split at hyes
  · rename_i db' answer hbody
    simp only [CoordinatorAnswer.flag.injEq] at hyes
    subst hyes
    rw [acknowledgeOutcome, requireKnownPhase_bind] at hbody
    cases hfind : leaseForToken (cleanupExpired now db) token (some .drain) with
    | none => simp [drainHeld, hfind] at hheld
    | some drain =>
      rcases mem_of_leaseForToken hfind with ⟨hmem, htok, -⟩
      have hbody' := hbody.2
      simp only [hfind, hexp] at hbody'
      split at hbody'
      · cases hbody'
      rename_i hmatch
      cases hbody'
      simp only [Option.isSome_some, Bool.true_and, Bool.or_eq_true, bne_iff_ne, ne_eq,
        not_or, Decidable.not_not, Option.some.injEq] at hmatch
      refine ⟨⟨?_, ?_, ?_⟩, drain, ((mem_cleanupExpired now db drain).mp hmem).1, htok⟩
      · exact Nat.le_of_eq hmatch.2.symm
      · intro _
        simp only [view_action, CoordinatorDb.updateState, recordInstallOutcome]
        rw [if_pos (by simp [deleteLease, hmatch.1, hmatch.2])]
        intro h; cases h
      · intro l hl htok'
        have hne := (List.mem_filter.mp hl).2
        rw [htok', htok] at hne
        simp at hne
  · cases hyes

theorem acknowledgeInstall_settles {visit : Visit} (hs : s.Sane)
    (hrun : acknowledgeInstall visit token body s = some (.ok true, s')) :
    SettledService token body.actionGeneration s' := by
  dsimp only [acknowledgeInstall] at hrun
  split at hrun
  · rename_i t hgrd
    simp only [Option.some.injEq, Prod.mk.injEq, Except.ok.injEq] at hrun
    rcases hrun with ⟨hheld, rfl⟩
    have hsane := (keeps_guardUnknownPhase keeps_transact_sane _ _ s _ _ hs hgrd).1
    have htransact := transact_of_guardUnknownPhase hgrd
    rcases transact_eq_some htransact with ⟨-, hans, rfl⟩
    rcases settled_of_accepted rfl hheld (Except.ok.inj hans).symm with ⟨hset, l, hl, htok⟩
    exact ⟨hsane, List.mem_append_right _ (htok ▸ hs l hl), hset⟩
  · exact nomatch hrun
  · exact nomatch hrun
  · exact nomatch hrun
  · exact nomatch hrun

-- Where an install outcome is accepted from the holder of the drain, its token and its
-- generation are settled.
theorem outcomeEndpoint_settles {visit : Visit} (htok : body.leaseToken = some token) (hs : s.Sane)
    (hrun : outcomeEndpoint visit body s = some (.ok true, s')) :
    SettledService token body.actionGeneration s' := by
  rcases bind_eq_ok hrun with ⟨snapshot, t, hsnap, hrest⟩
  rcases bind_eq_ok hrest with ⟨_, u, hmeanwhile, hlast⟩
  have ht := (keeps_knownSnapshot keeps_transact_sane _ s _ t hs hsnap).1
  have hu := (keeps_meanwhile keeps_transact_sane _ t _ u ht hmeanwhile).1
  simp only [htok] at hlast
  exact acknowledgeInstall_settles hu hlast

end Coordinator

end PlexManager
