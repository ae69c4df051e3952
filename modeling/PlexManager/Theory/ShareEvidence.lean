import PlexManager.Theory.SessionLifecycle
import PlexManager.Theory.ShareSweep

/-!
# On what evidence a session is cut

A sweep cuts sessions on what plex.tv said of a token some time ago. Until it writes,
the user may have signed in again, and the server may have been changed. The guard
compares the stored token with the one that was asked about, and the update compares
the ciphertext with the one that the guard saw, so the token that lost its access is
the one that is stored when sessions are cut.

Who signs in again with the same token keeps the ciphertext. The session of that
sign-in is to be spared by the bound on the creation time. But the database writes
that time in whole seconds, so a session that was created in the second of the guard
looks older than it is, and is cut.

## Theorems

* `cut_on_evidence`: Both, for every turn of a sweep.
* `fresh_session_cut`: A session that is cut although it came after the guard.
-/

namespace PlexManager

namespace ShareSweep

open KeyedTable Sessions

variable {decrypt : String → String} {cfg : Config}

/-! ### What is observed -/

/-- A session is alive before and revoked after. -/
def Revokes (db db' : Db) (s : AuthSession) : Prop :=
  db.store.session s.tokenHash = some s ∧ s.revokedAt = none ∧
    ∃ s', db'.store.session s.tokenHash = some s' ∧ s'.revokedAt ≠ none

/-- A session was there when the guard looked, or is of a sign-in that inserted it no
    later than that. -/
def CreatedByGuard (w : Write) (t : Turn) (s : AuthSession) : Prop :=
  (w.guarded.store.session s.tokenHash).isSome ∨
    ∃ inserted user token ciphertext,
      Event.signIn inserted user token ciphertext s.tokenHash ∈ t.whileGuarded ∧
        inserted ≤ t.guardMoment

/-- If the verdict is a loss, nobody signs the user in behind the guard within the
    second of the guard. -/
def Timely (cfg : Config) (c : DueShareCandidate) (t : Turn) : Prop :=
  (∃ verdict, checkShare cfg.machineIdentifier c.token t.fetched = some verdict ∧
      verdict.isLoss = true) →
    ∀ inserted user token ciphertext tokenHash,
      Event.signIn inserted user token ciphertext tokenHash ∈ t.whileGuarded →
      user.id = c.userId →
      ¬ (t.guardMoment < inserted ∧ currentTimestamp inserted ≤ t.guardMoment)

def othersIn (cfg : Config) (c : DueShareCandidate) (t : Turn) : List Event :=
  match checkShare cfg.machineIdentifier c.token t.fetched with
  | none => t.whileChecking
  | some verdict => untilGuard t verdict ++ t.whileGuarded

def Account.access (a : Account) :
    Option ShareVerdict × Option Int × Option (List String) × Option String × Option Int :=
  (a.shareState, a.shareCheckedAt, a.entitledSectionKeys, a.entitlementsMachineId,
    a.entitlementsCapturedAt)

/-- Sessions, verdicts and entitlements are the same. -/
def SameAccess (db db' : Db) : Prop :=
  db'.store = db.store ∧
    ∀ id, (db'.account id).map Account.access = (db.account id).map Account.access

/-! ### Sessions of others -/

/-- When a session was created, and whose it is. -/
def origin (s : AuthSession) : Int × Option Nat := (s.createdAt, s.userId)

theorem origin_revoke (p : AuthSession → Bool) (stamp : Int) (s : AuthSession) :
    origin (s.revoke p stamp) = origin s := by
  unfold AuthSession.revoke
  split
  · rfl
  · rfl

theorem session_revoke (store : Store) (p : AuthSession → Bool) (stamp : Int) (h : String) :
    (store.revoke p stamp).session h = (store.session h).map (AuthSession.revoke p stamp) :=
  session_rewrite store _ _ _ h

variable {s s' : Sweep} {db : Db} {h : String} {c : DueShareCandidate} {t : Turn}
  {outcome : ShareVerdictOutcome}

theorem origin_of_revoke {store : Store} {p : AuthSession → Bool} {stamp : Int} {s : AuthSession}
    (hs : (store.revoke p stamp).session h = some s) :
    ∃ s', store.session h = some s' ∧ origin s' = origin s := by
  rw [session_revoke] at hs
  rcases Option.map_eq_some_iff.mp hs with ⟨s', hs', rfl⟩
  exact ⟨s', hs', (origin_revoke p stamp s').symm⟩

theorem session_after {e : Event} {s : AuthSession}
    (hs : (db.after decrypt e).store.session h = some s) :
    (∃ s', db.store.session h = some s' ∧ origin s' = origin s) ∨
      ∃ inserted user token ciphertext, e = .signIn inserted user token ciphertext h ∧
        origin s = (currentTimestamp inserted, some user.id) := by
  cases e with
  | signIn inserted user token ciphertext tokenHash =>
    simp only [Db.after] at hs
    split at hs
    · exact .inl ⟨s, hs, rfl⟩
    split at hs
    · exact .inl ⟨s, hs, rfl⟩
    rename_i store hstg
    rw [(session_stageBrowserSession hstg).2.2 h] at hs
    split at hs
    · rename_i heq
      cases hs
      exact .inr ⟨inserted, user, token, ciphertext, by rw [heq], rfl⟩
    · exact .inl ⟨s, hs, rfl⟩
  | repoint machineIdentifier now =>
    cases machineIdentifier with
    | none => exact .inl ⟨s, hs, rfl⟩
    | some machineIdentifier => exact .inl (origin_of_revoke hs)
  | promote userId permissions =>
    simp only [Db.after] at hs
    split at hs
    · exact .inl ⟨s, hs, rfl⟩
    · exact .inl ⟨s, hs, rfl⟩
  | logout tokenHash now | revokeUser userId now => exact .inl (origin_of_revoke hs)
  | sweepDead now =>
    have hkeep : (sweepDeadSessions db.store now).session h = some s := hs
    rw [sweepDeadSessions, session_keep] at hkeep
    exact .inl ⟨s, (Option.filter_eq_some_iff.mp hkeep).1, rfl⟩

theorem session_afterAll {es : List Event} {s : AuthSession}
    (hs : (db.afterAll decrypt es).store.session h = some s) :
    (∃ s', db.store.session h = some s' ∧ origin s' = origin s) ∨
      ∃ inserted user token ciphertext, Event.signIn inserted user token ciphertext h ∈ es ∧
        origin s = (currentTimestamp inserted, some user.id) := by
  induction es generalizing db with
  | nil => exact .inl ⟨s, hs, rfl⟩
  | cons e es ih =>
    rcases ih hs with ⟨s₁, hs₁, horig⟩ | ⟨inserted, user, token, ciphertext, hmem, horig⟩
    · rcases session_after hs₁ with
        ⟨s', hs', horig'⟩ | ⟨inserted, user, token, ciphertext, rfl, horig'⟩
      · exact .inl ⟨s', hs', horig'.trans horig⟩
      · exact .inr ⟨inserted, user, token, ciphertext, List.mem_cons_self,
          horig.symm.trans horig'⟩
    · exact .inr ⟨inserted, user, token, ciphertext, List.mem_cons_of_mem e hmem, horig⟩

/-! ### The anchor -/

def Confirmed (cfg : Config) (s : Sweep) : Prop :=
  s.anchor = some .confirmed → Probe.answered cfg.machineIdentifier ∈ s.probes

theorem confirmShareAnchor_eq {machineIdentifier : String} {probe : Probe}
    (h : confirmShareAnchor machineIdentifier probe = .confirmed) :
    probe = .answered machineIdentifier := by
  cases probe with
  | answered identifier =>
    by_cases heq : identifier = machineIdentifier
    · rw [heq]
    · simp [confirmShareAnchor, heq] at h
  | absent | failed | raised errorType => contradiction

theorem confirmed_anchorConfirmed (h : Confirmed cfg s) (refresh : Bool)
    (probe : Probe) : Confirmed cfg (s.anchorConfirmed cfg.machineIdentifier refresh probe).2 := by
  unfold Sweep.anchorConfirmed
  split
  · intro hanch
    have hprobe := confirmShareAnchor_eq (Option.some.inj hanch)
    simp [hprobe]
  · exact h

theorem probe_of_anchorHolds (h : Confirmed cfg s) {probe : Probe}
    (hhold : anchorHolds cfg.machineIdentifier s.anchor probe = true) :
    Probe.answered cfg.machineIdentifier ∈
      (s.anchorConfirmed cfg.machineIdentifier false probe).2.probes := by
  unfold anchorHolds at hhold
  unfold Sweep.anchorConfirmed
  cases hanch : s.anchor with
  | none =>
    rw [hanch, decide_eq_true_eq] at hhold
    simp [confirmShareAnchor_eq hhold]
  | some anchor =>
    rw [hanch, decide_eq_true_eq] at hhold
    simpa using h (hanch.trans (congrArg some hhold))

theorem confirmed_during (decrypt : String → String) (h : Confirmed cfg s) (es : List Event) :
    Confirmed cfg (s.during decrypt es) := h

theorem confirmed_captureFor (h : Confirmed cfg s) (c : DueShareCandidate)
    (t : CaptureTurn) : Confirmed cfg (captureFor decrypt cfg c t s) := by
  unfold captureFor
  split
  · exact h
  split
  · exact h
  · exact h
  · split
    · exact h
    split
    · exact h
    · exact h
    · split
      · exact h
      have hprobed := confirmed_anchorConfirmed h false t.probe
      have hread := confirmed_during decrypt hprobed t.whileReading
      have hrefr := confirmed_anchorConfirmed hread true t.refreshProbe
      unfold captureInSlot
      dsimp only
      split
      · exact hprobed
      split
      · exact hread
      · exact hread
      · split
        · exact hrefr
        split
        · exact hrefr
        · split
          · exact hrefr
          · exact hrefr

def Prepared.sweep : Prepared → Sweep
  | errored _ s => s
  | deferred s => s
  | skipped s => s
  | write w => w.sweep

theorem confirmed_prepareWrite (h : Confirmed cfg s) (c : DueShareCandidate) (t : Turn)
    (verdict : ShareVerdict) : Confirmed cfg (prepareWrite decrypt c t verdict s).sweep := by
  unfold prepareWrite
  split
  · dsimp only
    split
    · exact h
    · exact h
  · exact h

theorem confirmed_prepare (decrypt : String → String) (h : Confirmed cfg s) (c : DueShareCandidate)
    (t : Turn) : Confirmed cfg (prepare decrypt cfg c t s).sweep := by
  have hchk : Confirmed cfg
      { s.during decrypt t.whileChecking with visited := s.visited ++ [c.userId] } := h
  unfold prepare
  dsimp only
  split
  · exact hchk
  split
  · have hprobed := confirmed_anchorConfirmed hchk false t.probe
    split
    · exact confirmed_prepareWrite (confirmed_during decrypt hprobed _) c t _
    · exact hprobed
  · exact confirmed_prepareWrite hchk c t _

theorem turn_confirmed (h : Confirmed cfg s)
    (hturn : turn decrypt cfg c t s = .ok s') : Confirmed cfg s' := by
  have hprep := confirmed_prepare decrypt h c t
  unfold turn at hturn
  split at hturn
  · rename_i errorType s₁ heq
    rw [heq] at hprep
    obtain rfl := Except.ok.inj hturn
    split
    · exact hprep
    · exact hprep
  · rename_i s₁ heq
    rw [heq] at hprep
    obtain rfl := Except.ok.inj hturn
    exact hprep
  · rename_i s₁ heq
    rw [heq] at hprep
    obtain rfl := Except.ok.inj hturn
    exact hprep
  · rename_i w heq
    rw [heq] at hprep
    split at hturn
    · contradiction
    obtain rfl := Except.ok.inj hturn
    split
    · refine confirmed_captureFor ?_ c t.capture
      exact hprep
    · exact hprep

theorem turns_confirmed {turnOf : Nat → Turn} {cs : List DueShareCandidate} (h : Confirmed cfg s)
    (hturns : turns decrypt cfg turnOf cs s = .ok s') : Confirmed cfg s' := by
  induction cs generalizing s with
  | nil =>
    obtain rfl := Except.ok.inj hturns
    exact h
  | cons c cs ih =>
    simp only [turns] at hturns
    split at hturns
    · contradiction
    rename_i s₁ hturn
    exact ih (turn_confirmed h hturn) hturns

/-! ### Cuts -/

-- What a verdict revokes belongs to its user, is no younger than the guard as far as the row
-- says, and the stored ciphertext is the one of the guard.
theorem apply_revokes {db' : Db} {user : User} {loaded row : Account} {verdict : ShareVerdict}
    {now guardMoment : Int} {storedCiphertext : Option String}
    (hrow : db.account loaded.userId = some row)
    (happ : applyShareVerdict db user loaded verdict now guardMoment storedCiphertext =
      some (outcome, db')) {s : AuthSession} (hcut : Revokes db db' s) :
    verdict.isLoss = true ∧ user.permissions ≤ 0 ∧ s.userId = some user.id ∧
      s.createdAt ≤ guardMoment ∧ row.encryptedPlexToken = storedCiphertext := by
  rcases hcut with ⟨hs, hlive, s', hs', hrev⟩
  rcases apply_spec hrow user verdict now guardMoment storedCiphertext with
    ⟨outcome', db₁, happ', -, hstore⟩
  obtain ⟨-, rfl⟩ := Prod.mk.injEq _ _ _ _ ▸ Option.some.inj (happ'.symm.trans happ)
  by_cases hacts : verdict.isLoss = true ∧ user.permissions ≤ 0
  · rw [if_pos hacts] at hstore
    have haft : (db₁.store.session s.tokenHash) = some (s.revoke (fun s =>
        ofUser user.id (some guardMoment) s && decide (row.encryptedPlexToken = storedCiphertext))
        guardMoment) := by
      rw [hstore, cutStore, revokeUserSessions, session_revoke, hs, Option.map_some]
    obtain rfl := Option.some.inj (hs'.symm.trans haft)
    by_cases hmatch : (ofUser user.id (some guardMoment) s &&
        decide (row.encryptedPlexToken = storedCiphertext)) = true
    · have hboth := Bool.and_eq_true_iff.mp hmatch
      simp only [ofUser, Option.all_some, Bool.and_eq_true, decide_eq_true_eq] at hboth
      exact ⟨hacts.1, hacts.2, hboth.1.1, hboth.1.2, hboth.2⟩
    · have hspr : (s.revoke (fun s => ofUser user.id (some guardMoment) s &&
          decide (row.encryptedPlexToken = storedCiphertext)) guardMoment) = s := by
        unfold AuthSession.revoke
        rw [if_neg fun h => hmatch (Bool.and_eq_true_iff.mp h).2]
      rw [hspr] at hrev
      exact absurd hlive hrev
  · rw [if_neg hacts] at hstore
    rw [hstore] at hs'
    obtain rfl := Option.some.inj (hs'.symm.trans hs)
    exact absurd hlive hrev

/-- What plex.tv said of a token, and of which server. -/
def Disproved (cfg : Config) (fetched : Fetched) (probes : List Probe) : Prop :=
  fetched = .verifyError codeTokenInvalid ∨
    ∃ resources, fetched = .resources resources ∧
      accountServerResource resources cfg.machineIdentifier = none ∧
      Probe.answered cfg.machineIdentifier ∈ probes

theorem cut_evidence {w : Write} (hconf : Confirmed cfg s)
    (hprep : prepare decrypt cfg c t s = .write w) (hcom : w.commit t = some (outcome, db))
    (htimely : Timely cfg c t) {r : AuthSession} (hcut : Revokes w.sweep.db db r) :
    w.user.permissions ≤ 0 ∧ r.userId = some c.userId ∧
      (∃ token ciphertext row, c.token = some token ∧
        w.sweep.db.account c.userId = some row ∧
        row.encryptedPlexToken = some ciphertext ∧ decrypt ciphertext = token) ∧
      Disproved cfg t.fetched w.sweep.probes ∧ CreatedByGuard w t r := by
  have hspec := prepare_spec decrypt cfg c t s
  rw [hprep] at hspec
  rcases hspec with
    ⟨hchk, hanch, hgrd, hdb, htoken, hciph, huser, hload, -⟩
  have hid : w.loaded.userId = c.userId := Table.key_of_find hload
  have huserId : w.user.id = c.userId := Table.key_of_find huser
  unfold Write.commit at hcom
  split at hcom
  · cases hrow : w.sweep.db.account w.loaded.userId with
    | none =>
      rw [apply_none hrow] at hcom
      contradiction
    | some row =>
      rcases apply_revokes hrow hcom hcut with ⟨hloss, hadm, hown, hmade, hsame⟩
      have hfetch : c.token.isSome ∧ Disproved cfg t.fetched w.sweep.probes := by
        rcases isLoss_iff.mp hloss with hrev | hstale
        · rw [hrev] at hchk
          rcases checkShare_shareRevoked hchk with ⟨htok, resources, hres, hnone⟩
          rcases hanch hrev with ⟨hhold, hprobes⟩
          refine ⟨htok, .inr ⟨resources, hres, hnone, ?_⟩⟩
          rw [hprobes]
          exact probe_of_anchorHolds hconf hhold
        · rw [hstale] at hchk
          rcases checkShare_tokenStale hchk with ⟨htok, hres⟩
          exact ⟨htok, .inl hres⟩
      refine ⟨hadm, huserId ▸ hown, ?_, hfetch.2, ?_⟩
      · rcases Option.isSome_iff_exists.mp hfetch.1 with ⟨token, htok⟩
        rw [htok] at htoken
        rcases Option.bind_eq_some_iff.mp htoken with ⟨seen, hseen, hdecrypt⟩
        rcases Option.map_eq_some_iff.mp hdecrypt with ⟨ciphertext, hstored, hpl⟩
        refine ⟨token, ciphertext, row, htok, hid ▸ hrow, ?_, hpl⟩
        rw [hsame, hciph, hseen]
        exact hstored
      · -- A session that came after the guard is of a sign-in, and not in its second.
        have hsess : (w.guarded.afterAll decrypt t.whileGuarded).store.session r.tokenHash =
            some r := hdb ▸ hcut.1
        rcases session_afterAll hsess with
          ⟨r', hr', -⟩ | ⟨inserted, user, token, ciphertext, hmem, horig⟩
        · exact .inl (hr' ▸ rfl)
        · simp only [origin, Prod.mk.injEq] at horig
          have hown' : user.id = c.userId := by
            have heq := Option.some.inj (horig.2.symm.trans hown)
            exact heq.trans huserId
          have hbnd := htimely ⟨w.verdict, hchk, hloss⟩ inserted user token ciphertext
            r.tokenHash hmem hown'
          refine .inr ⟨inserted, user, token, ciphertext, hmem, ?_⟩
          by_contra hlate
          exact hbnd ⟨by omega, by omega⟩
  · contradiction

/-! ### Checks without a result -/

theorem SameAccess.refl (db : Db) : SameAccess db db := ⟨rfl, fun _ => rfl⟩

theorem sameAccess_update {db' : Db} {userId : Nat} {f : Account → Account}
    {hf : ∀ a, (f a).userId = a.userId} (hstore : db'.store = db.store)
    (hacct : db'.accounts = (db.update userId f hf).accounts)
    (haccess : ∀ a, (f a).access = a.access) : SameAccess db db' := by
  refine ⟨hstore, fun id => ?_⟩
  have heq : db'.account id = (db.update userId f hf).account id := by
    unfold Db.account
    rw [hacct]
  rw [heq, account_update, Option.map_map]
  congr 1
  funext a
  split
  · exact haccess a
  · rfl

theorem flushed_self {α : Type} [DecidableEq α] (loaded current : α) :
    flushed loaded loaded current = current := if_pos rfl

-- A check that fails or ends in no verdict changes no access, whether it is written down or
-- not: the tables are as others have left them.
theorem inconclusive_keeps (hchk : checkShare cfg.machineIdentifier c.token t.fetched = none ∨
      checkShare cfg.machineIdentifier c.token t.fetched = some .unknown)
    (hturn : turn decrypt cfg c t s = .ok s' ∨ turn decrypt cfg c t s = .error s') :
    ∃ es, es <+: othersIn cfg c t ∧ SameAccess (s.db.afterAll decrypt es) s'.db := by
  have hspec := prepare_spec decrypt cfg c t s
  unfold turn at hturn
  cases hprep : prepare decrypt cfg c t s with
  | errored errorType s₁ =>
    rw [hprep] at hspec hturn
    rcases hspec with ⟨hnone, hdb, -⟩
    refine ⟨t.whileChecking, by simp [othersIn, hnone], ?_⟩
    rw [← hdb]
    obtain rfl : s' = _ := (Except.ok.inj (hturn.resolve_right nofun)).symm
    split
    · exact sameAccess_update rfl rfl fun _ => rfl
    · exact .refl _
  | deferred s₁ =>
    rw [hprep] at hspec
    rcases hspec with ⟨hrev, -⟩
    rw [hrev] at hchk
    rcases hchk with hnone | hunk
    · contradiction
    · simp at hunk
  | skipped s₁ =>
    rw [hprep] at hspec hturn
    rcases hspec with ⟨verdict, hverd, -, -, es, hes, hdb⟩
    obtain rfl : s' = _ := (Except.ok.inj (hturn.resolve_right nofun)).symm
    refine ⟨es, ?_, hdb ▸ .refl _⟩
    simp only [othersIn, hverd]
    exact hes.trans (List.prefix_append _ _)
  | write w =>
    rw [hprep] at hspec hturn
    rcases hspec with ⟨hverd, -, hgrd, hdb, -⟩
    have hunk : w.verdict = .unknown := by
      rcases hchk with hnone | hunk
      · rw [hnone] at hverd
        contradiction
      · exact Option.some.inj (hverd.symm.trans hunk)
    have hoth : s.db.afterAll decrypt (othersIn cfg c t) = w.sweep.db := by
      simp only [othersIn, hverd]
      rw [afterAll_append, hdb, hgrd]
    refine ⟨othersIn cfg c t, List.prefix_rfl, ?_⟩
    rw [hoth]
    cases hcom : w.commit t with
    | none =>
      simp only [hcom] at hturn
      obtain rfl : s' = _ := (Except.error.inj (hturn.resolve_left nofun)).symm
      exact .refl _
    | some result =>
      rcases result with ⟨outcome, db⟩
      simp only [hcom] at hturn
      obtain rfl : s' = _ := (Except.ok.inj (hturn.resolve_right nofun)).symm
      rw [if_neg (by rw [hunk]; nofun)]
      unfold Write.commit at hcom
      split at hcom
      · cases hrow : w.sweep.db.account w.loaded.userId with
        | none =>
          rw [apply_none hrow] at hcom
          contradiction
        | some row =>
          rcases apply_spec hrow w.user w.verdict t.now t.guardMoment w.storedCiphertext with
            ⟨outcome', db', happ, hacct, hstore⟩
          have hboth := Option.some.inj (happ.symm.trans hcom)
          obtain rfl : db' = db := congrArg Prod.snd hboth
          rw [hunk] at hacct hstore
          refine sameAccess_update ?_ hacct fun a => ?_
          · exact hstore.trans (if_neg nofun)
          -- an attempt without a result only counts
          · simp [Account.flush, Account.access, stamped, flushed_self]
      · contradiction

/-! ### Every turn of a sweep -/

/-- In the turn of every user of a sweep: if nobody is signed in behind the guard
    within its second, a session is only cut of a user who is no administrator, on what
    plex.tv said of the token that is still stored, and if the session was there by the
    time of the guard. Where the share is said to be gone, a probe of this sweep has
    confirmed the server. And a check without a result changes no access. -/
theorem cut_on_evidence {db : Db} {turnOf : Nat → Turn} {before : List DueShareCandidate}
    {c : DueShareCandidate} {s : Sweep} (hturns : turns decrypt cfg turnOf before { db } = .ok s)
    (htimely : Timely cfg c (turnOf c.userId)) :
    (∀ w outcome db', prepare decrypt cfg c (turnOf c.userId) s = .write w →
      w.commit (turnOf c.userId) = some (outcome, db') →
      ∀ r, Revokes w.sweep.db db' r →
        w.user.permissions ≤ 0 ∧ r.userId = some c.userId ∧
        (∃ token ciphertext row, c.token = some token ∧
          w.sweep.db.account c.userId = some row ∧
          row.encryptedPlexToken = some ciphertext ∧ decrypt ciphertext = token) ∧
        Disproved cfg (turnOf c.userId).fetched w.sweep.probes ∧
        CreatedByGuard w (turnOf c.userId) r) ∧
    (checkShare cfg.machineIdentifier c.token (turnOf c.userId).fetched = none ∨
        checkShare cfg.machineIdentifier c.token (turnOf c.userId).fetched = some .unknown →
      ∀ s', turn decrypt cfg c (turnOf c.userId) s = .ok s' ∨
          turn decrypt cfg c (turnOf c.userId) s = .error s' →
        ∃ es, es <+: othersIn cfg c (turnOf c.userId) ∧
          SameAccess (s.db.afterAll decrypt es) s'.db) := by
  have hbeg : Confirmed cfg { db } := nofun
  refine ⟨?_, fun hchk s' hturn => inconclusive_keeps hchk hturn⟩
  intro w outcome db' hprep hcom r hcut
  exact cut_evidence (turns_confirmed hbeg hturns) hprep hcom htimely hcut

/-! ### One user -/

def alone : Db where
  store :=
    { users := ⟨[{ id := 1, plexId := 1, username := "one" }], by decide⟩
      sessions := ⟨[{ tokenHash := "old", userId := some 1, createdAt := 0
                      expiresAt := sessionLifetime }], by decide⟩
      minted := ["old"]
      owned := by decide
      known := by decide }
  accounts := ⟨[{ userId := 1, encryptedPlexToken := some "a" }], by decide⟩
  machineIdentifier := some "server"
  audit := []

def aloneConfig : Config := { machineIdentifier := "server", revalidateAfter := 0, limit := 1 }

def aloneCandidate : DueShareCandidate :=
  { userId := 1, token := some "a", tokenCiphertext := some "a" }

variable (whileGuarded : List Event)

/-- plex.tv rejects the token. The guard looks in the middle of a second. -/
def rejectedTurn : Turn :=
  { fetched := .verifyError codeTokenInvalid
    guardMoment := 300000, now := 300000, whileGuarded }

def Prepared.toWrite : Prepared → Option Write
  | write w => some w
  | _ => none

theorem eq_write {p : Prepared} {w : Write} (h : p.toWrite = some w) : p = .write w := by
  cases p with
  | write w' => exact congrArg Prepared.write (Option.some.inj h)
  | errored errorType s | deferred s | skipped s => contradiction

instance (db db' : Db) (s : AuthSession) : Decidable (Revokes db db' s) :=
  decidable_of_iff (db.store.session s.tokenHash = some s ∧ s.revokedAt = none ∧
      (db'.store.session s.tokenHash).any fun s' => decide (s'.revokedAt ≠ none))
    (by simp [Revokes, Option.any_eq_true])

def cuts (r : AuthSession) : Bool :=
  (prepare id aloneConfig aloneCandidate (rejectedTurn whileGuarded) { db := alone }).toWrite.any
    fun w => (w.commit (rejectedTurn whileGuarded)).any fun result =>
      decide (Revokes w.sweep.db result.2 r)

theorem of_cuts (r : AuthSession) (h : cuts whileGuarded r = true) :
    ∃ w outcome db, prepare id aloneConfig aloneCandidate (rejectedTurn whileGuarded)
        { db := alone } = .write w ∧
      w.commit (rejectedTurn whileGuarded) = some (outcome, db) ∧ Revokes w.sweep.db db r := by
  rcases (Option.any_eq_true _ _).mp h with ⟨w, hw, hres⟩
  rcases (Option.any_eq_true _ _).mp hres with ⟨result, hcom, hcut⟩
  exact ⟨w, result.1, result.2, eq_write hw, hcom, of_decide_eq_true hcut⟩

def oldSession : AuthSession :=
  { tokenHash := "old", userId := some 1, createdAt := 0, expiresAt := sessionLifetime }

/-- The session that there was is cut, and the guard has seen it. -/
theorem old_session_cut :
    ∃ w outcome db, prepare id aloneConfig aloneCandidate (rejectedTurn []) { db := alone } =
        .write w ∧ w.commit (rejectedTurn []) = some (outcome, db) ∧
      Revokes w.sweep.db db oldSession ∧ CreatedByGuard w (rejectedTurn []) oldSession := by
  rcases of_cuts [] oldSession (by decide) with ⟨w, outcome, db, hprep, hcom, hcut⟩
  have hbeg : turns id aloneConfig (fun _ => rejectedTurn []) [] { db := alone } =
      .ok { db := alone } := rfl
  have htimely : Timely aloneConfig aloneCandidate (rejectedTurn []) :=
    fun _ _ _ _ _ _ hmem => nomatch hmem
  have hevid := (cut_on_evidence hbeg htimely).1 w outcome db hprep hcom oldSession hcut
  exact ⟨w, outcome, db, hprep, hcom, hcut, hevid.2.2.2.2⟩

/-- The user signs in again with the same token, three tenths of a second behind the
    guard. -/
def freshSignIn : Event :=
  .signIn 600000 { id := 1, plexId := 1, username := "one" } "a" "a" "fresh"

/-- The session of that sign-in is cut, although it came after the guard. -/
theorem fresh_session_cut :
    selectDueCandidates id alone 1 0 1 = [aloneCandidate] ∧
    ∃ w outcome db, prepare id aloneConfig aloneCandidate (rejectedTurn [freshSignIn])
        { db := alone } = .write w ∧
      w.commit (rejectedTurn [freshSignIn]) = some (outcome, db) ∧
      Revokes w.sweep.db db (mintedSession 600000 "fresh" (some 1)) ∧
      ¬ CreatedByGuard w (rejectedTurn [freshSignIn]) (mintedSession 600000 "fresh" (some 1)) := by
  refine ⟨by decide, ?_⟩
  rcases of_cuts [freshSignIn] (mintedSession 600000 "fresh" (some 1)) (by decide) with
    ⟨w, outcome, db, hprep, hcom, hcut⟩
  refine ⟨w, outcome, db, hprep, hcom, hcut, ?_⟩
  have hspec := prepare_spec id aloneConfig aloneCandidate (rejectedTurn [freshSignIn])
    { db := alone }
  rw [hprep] at hspec
  rcases hspec with ⟨hchk, -, hgrd, -⟩
  rintro (hseen | ⟨inserted, user, token, ciphertext, hmem, hpre⟩)
  · have hstale : w.verdict = .tokenStale := (Option.some.inj hchk).symm
    rw [hgrd, hstale] at hseen
    revert hseen
    decide
  · have hev := List.mem_singleton.mp hmem
    simp only [freshSignIn, Event.signIn.injEq] at hev
    have hmoment : (rejectedTurn [freshSignIn]).guardMoment = 300000 := rfl
    omega

end ShareSweep

end PlexManager
