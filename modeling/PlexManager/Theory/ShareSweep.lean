import PlexManager.Core.ShareSweep

/-!
# What a turn of the share sweep does

A turn waits at several points, and other transactions are committed there. None of
them touches the columns that say how a user was checked, and none takes a user away.
The turn itself writes at most one row: that of the user it is about.

What a turn comes to is decided before it writes. `PrepareSpec` says for each of the
four ends what has happened until then, and `apply_spec` what a verdict writes.
Everything that is claimed of the sweep is read off these two.

## Theorems

* `keeps_afterAll`: Transactions of others keep users and checks.
* `prepare_spec`: The first part of a turn ends as specified.
* `apply_spec`: What a verdict writes.
* `captureFor_spec`: A capture keeps users and checks.
-/

namespace PlexManager

namespace ShareSweep

open KeyedTable Sessions

variable {decrypt : String → String}

/-! ### What others leave alone -/

/-- The columns that say how a user was checked. -/
def Account.share (a : Account) : Option ShareVerdict × Option Int × Nat × Option Int :=
  (a.shareState, a.shareCheckedAt, a.shareCheckFailures, a.shareCheckFailedAt)

theorem lastAttemptAt_of_share {a b : Account} (h : a.share = b.share) :
    lastAttemptAt a = lastAttemptAt b := by
  simp only [Account.share, Prod.mk.injEq] at h
  unfold lastAttemptAt
  rw [h.2.1, h.2.2.2]

/-- Users stay, and how they were checked stays. Who is new was never checked. -/
structure Keeps (db db' : Db) : Prop where
  users : ∀ id, (db.store.users.find id).isSome → (db'.store.users.find id).isSome
  share : ∀ id a, db.account id = some a → ∃ a', db'.account id = some a' ∧ a'.share = a.share
  fresh : ∀ id a', db.account id = none → db'.account id = some a' →
    a'.share = (none, none, 0, none)

variable (cfg : Config) (c : DueShareCandidate) (s : Sweep) (db : Db) (machineIdentifier : String)
  (userId : Nat) (probe : Probe) {db' : Db} {token : Option String} {fetched : Fetched}
  {verdict : ShareVerdict} {loaded : Account}

theorem Keeps.refl : Keeps db db where
  users := fun _ h => h
  share := fun _ a h => ⟨a, h, rfl⟩
  fresh := by
    intro id a hnone hsome
    rw [hnone] at hsome
    contradiction

theorem Keeps.trans {db db'' : Db} (h : Keeps db db') (h' : Keeps db' db'') :
    Keeps db db'' where
  users := fun id hid => h'.users id (h.users id hid)
  share := by
    intro id a ha
    rcases h.share id a ha with ⟨b, hb, hsame⟩
    rcases h'.share id b hb with ⟨c, hc, hsame'⟩
    exact ⟨c, hc, hsame'.trans hsame⟩
  fresh := by
    intro id a hnone ha
    cases hb : db'.account id with
    | none => exact h'.fresh id a hb ha
    | some b =>
      rcases h'.share id b hb with ⟨c, hc, hsame⟩
      obtain rfl := Option.some.inj (ha.symm.trans hc)
      exact hsame.trans (h.fresh id b hnone hb)

theorem Keeps.of_users {db : Db}
    (husers : ∀ id, (db.store.users.find id).isSome → (db'.store.users.find id).isSome)
    (hacct : db'.accounts = db.accounts) : Keeps db db' where
  users := husers
  share := by
    intro id a ha
    refine ⟨a, ?_, rfl⟩
    unfold Db.account at ha ⊢
    rw [hacct]
    exact ha
  fresh := by
    intro id a hnone ha
    unfold Db.account at hnone ha
    rw [hacct, hnone] at ha
    contradiction

theorem users_putUser (store : Store) (user : User) (id : Nat)
    (h : (store.users.find id).isSome) : ((putUser store user).users.find id).isSome := by
  unfold putUser
  split
  · rw [Table.find_modify, Option.isSome_map]
    exact h
  · rw [Table.find_insert, Option.isSome_or, h, Bool.true_or]

theorem users_stageBrowserSession {store store' : Store} {now : Int} {tokenHash : String}
    {userId : Option Nat} (h : stageBrowserSession store now tokenHash userId = some store') :
    store'.users = store.users := by
  unfold stageBrowserSession at h
  split at h
  · contradiction
  split at h
  · cases h
    rfl
  · contradiction

theorem share_signedIn (token ciphertext : String) (a : Account) :
    (a.signedIn decrypt token ciphertext).share = a.share := by
  unfold Account.signedIn
  split
  · rfl
  · rfl

theorem account_update (id : Nat) (f : Account → Account) (hf : ∀ a, (f a).userId = a.userId) :
    (db.update userId f hf).account id =
      (db.account id).map fun a => if id = userId then f a else a :=
  Table.find_modify db.accounts userId f hf id

theorem find_signedInAccounts (accounts : Table Account.userId) (userId id : Nat)
    (token ciphertext : String) :
    (signedInAccounts decrypt accounts userId token ciphertext).find id =
      match accounts.find id with
      | some a => some (if id = userId then a.signedIn decrypt token ciphertext else a)
      | none => if id = userId then some { userId, encryptedPlexToken := some ciphertext }
        else none := by
  unfold signedInAccounts
  split
  · rename_i hat
    rw [Table.find_modify]
    cases hid : accounts.find id with
    | some a => rfl
    | none =>
      have hne : id ≠ userId := by
        rintro rfl
        simp [hid] at hat
      simp [hne]
  · rename_i hnew
    rw [Table.find_insert]
    cases hid : accounts.find id with
    | some a =>
      have hne : id ≠ userId := by
        rintro rfl
        simp [hid] at hnew
      simp [hne]
    | none => simp [eq_comm]

-- After a transaction of somebody else the row of a user is the one it was, or a fresh one, up
-- to the token.
theorem account_after {db : Db} {e : Event} {id : Nat} {a : Account}
    (h : (db.after decrypt e).account id = some a) :
    ∃ ciphertext, a =
      { (db.account id).getD { userId := id } with encryptedPlexToken := ciphertext } := by
  have hkept : db.account id = some a → ∃ ciphertext, a =
      { (db.account id).getD { userId := id } with encryptedPlexToken := ciphertext } := by
    intro ha
    exact ⟨a.encryptedPlexToken, by rw [ha, Option.getD_some]⟩
  cases e with
  | signIn inserted user token ciphertext tokenHash =>
    simp only [Db.after] at h
    split at h
    · exact hkept h
    split at h
    · exact hkept h
    unfold Db.account at h ⊢
    rw [find_signedInAccounts] at h
    cases hold : db.accounts.find id with
    | some old =>
      rw [hold] at h
      cases h
      split
      · unfold Account.signedIn
        split
        · exact ⟨old.encryptedPlexToken, rfl⟩
        · exact ⟨some ciphertext, rfl⟩
      · exact ⟨old.encryptedPlexToken, rfl⟩
    | none =>
      rw [hold] at h
      dsimp only at h
      split at h
      · rename_i hid
        refine ⟨some ciphertext, ?_⟩
        rw [← Option.some.inj h, hid, Option.getD_none]
      · contradiction
  | repoint machineIdentifier now =>
    cases machineIdentifier with
    | none | some machineIdentifier => exact hkept h
  | promote userId permissions =>
    simp only [Db.after] at h
    split at h
    · exact hkept h
    · exact hkept h
  | logout tokenHash now | revokeUser userId now | sweepDead now => exact hkept h

theorem keeps_after (e : Event) : Keeps db (db.after decrypt e) := by
  cases e with
  | signIn inserted user token ciphertext tokenHash =>
    simp only [Db.after]
    split
    · exact .refl db
    split
    · exact .refl db
    rename_i store hstg
    refine ⟨?_, ?_, ?_⟩
    · intro id hid
      rw [users_stageBrowserSession hstg]
      exact users_putUser _ _ _ hid
    · intro id a ha
      refine ⟨if id = user.id then a.signedIn decrypt token ciphertext else a, ?_, ?_⟩
      · unfold Db.account at ha ⊢
        rw [find_signedInAccounts, ha]
      · split
        · exact share_signedIn _ _ _
        · rfl
    · intro id a hnone ha
      unfold Db.account at hnone ha
      rw [find_signedInAccounts, hnone] at ha
      dsimp only at ha
      split at ha
      · cases ha
        rfl
      · contradiction
  | repoint machineIdentifier now =>
    cases machineIdentifier with
    | none | some machineIdentifier => exact .of_users (fun _ h => h) rfl
  | promote userId permissions =>
    simp only [Db.after]
    split
    · exact .refl db
    · exact .of_users (fun id h => users_putUser _ _ id h) rfl
  | logout tokenHash now => exact .of_users (fun _ h => h) rfl
  | revokeUser userId now | sweepDead now => exact .of_users (fun _ h => h) rfl

theorem afterAll_append (es fs : List Event) :
    db.afterAll decrypt (es ++ fs) = (db.afterAll decrypt es).afterAll decrypt fs :=
  List.foldl_append

theorem keeps_afterAll (es : List Event) : Keeps db (db.afterAll decrypt es) := by
  induction es generalizing db with
  | nil => exact .refl db
  | cons e es ih => exact (keeps_after db e).trans (ih (db.after decrypt e))

theorem keeps_update (f : Account → Account) (hf : ∀ a, (f a).userId = a.userId)
    (hshare : ∀ a, (f a).share = a.share) :
    Keeps db (db.update userId f hf) where
  users := fun _ h => h
  share := by
    intro id a ha
    refine ⟨if id = userId then f a else a, ?_, ?_⟩
    · rw [account_update, ha, Option.map_some]
    · split
      · exact hshare a
      · rfl
  fresh := by
    intro id a hnone ha
    rw [account_update, hnone] at ha
    contradiction

/-! ### Captures -/

theorem keeps_storeEntitlements (capture : EntitlementCapture)
    (expectedTokenCiphertext : Option String) :
    Keeps db (storeEntitlements db userId capture expectedTokenCiphertext).2 := by
  unfold storeEntitlements
  split
  · exact .refl db
  · split
    · exact keeps_update _ _ _ _ fun _ => rfl
    · exact .refl db

@[simp] theorem db_anchorConfirmed (refresh : Bool)
    (probe : Probe) : (s.anchorConfirmed machineIdentifier refresh probe).2.db = s.db := by
  unfold Sweep.anchorConfirmed
  split
  · rfl
  · rfl

@[simp] theorem visited_anchorConfirmed (refresh : Bool) (probe : Probe) :
    (s.anchorConfirmed machineIdentifier refresh probe).2.visited = s.visited := by
  unfold Sweep.anchorConfirmed
  split
  · rfl
  · rfl

theorem captureInSlot_spec (t : CaptureTurn) (s : Sweep) :
    Keeps s.db (captureInSlot decrypt cfg c t s).db ∧
      (captureInSlot decrypt cfg c t s).visited = s.visited := by
  have hread : Keeps s.db (s.db.afterAll decrypt t.whileReading) := keeps_afterAll _ _
  have hprobed : Keeps s.db
      ((s.db.afterAll decrypt t.whileReading).afterAll decrypt t.whileProbing) :=
    hread.trans (keeps_afterAll _ _)
  unfold captureInSlot
  dsimp only
  split
  · simp [Keeps.refl]
  split
  · simpa [Sweep.during] using hread
  · simpa [Sweep.during] using hread
  · rename_i sectionKeys capturedAt hsections
    split
    · simpa [Sweep.during] using hread
    split
    · simpa [Sweep.during] using hprobed
    have hstored := hprobed.trans (keeps_storeEntitlements _ c.userId
      { sectionKeys, machineIdentifier := cfg.machineIdentifier, capturedAt }
      c.tokenCiphertext)
    split
    · simpa [Sweep.during] using hstored
    · simpa [Sweep.during] using hstored

theorem captureFor_spec (decrypt : String → String) (cfg : Config) (c : DueShareCandidate)
    (t : CaptureTurn) (s : Sweep) :
    Keeps s.db (captureFor decrypt cfg c t s).db ∧
      (captureFor decrypt cfg c t s).visited = s.visited := by
  have hsame : Keeps s.db s.db ∧ s.visited = s.visited := ⟨.refl _, rfl⟩
  unfold captureFor
  split
  · exact hsame
  split
  · exact hsame
  · exact hsame
  · split
    · exact hsame
    split
    · exact hsame
    · exact hsame
    · split
      · exact hsame
      · exact captureInSlot_spec cfg c t s

/-! ### Verdicts -/

theorem checkShare_tokenStale {machineIdentifier : String}
    (h : checkShare machineIdentifier token fetched = some .tokenStale) :
    token.isSome ∧ fetched = .verifyError codeTokenInvalid := by
  cases token with
  | none => simp [checkShare] at h
  | some token =>
    cases fetched with
    | resources resources | verifyError code => grind [checkShare]
    | raised errorType => simp [checkShare] at h

theorem checkShare_shareRevoked {machineIdentifier : String}
    (h : checkShare machineIdentifier token fetched = some .shareRevoked) :
    token.isSome ∧ ∃ resources, fetched = .resources resources ∧
      accountServerResource resources machineIdentifier = none := by
  cases token with
  | none => simp [checkShare] at h
  | some token =>
    cases fetched with
    | resources resources =>
      refine ⟨rfl, resources, rfl, ?_⟩
      by_cases hnone : accountServerResource resources machineIdentifier = none
      · exact hnone
      · simp [checkShare, hnone] at h
    | verifyError code => grind [checkShare]
    | raised errorType => simp [checkShare] at h

/-! ### Up to the first write -/

/-- The server is taken for the configured one: by the latest answer, or by the one
    that the probe gets. -/
def anchorHolds (machineIdentifier : String) (anchor : Option AnchorCheck) (probe : Probe) :
    Bool :=
  match anchor with
  | none => confirmShareAnchor machineIdentifier probe = .confirmed
  | some anchor => anchor = .confirmed

theorem anchorConfirmed_fst :
    (s.anchorConfirmed machineIdentifier false probe).1 =
      anchorHolds machineIdentifier s.anchor probe := by
  unfold Sweep.anchorConfirmed anchorHolds
  cases s.anchor with
  | none => rfl
  | some anchor => simp

def untilLoad (t : Turn) (verdict : ShareVerdict) : List Event :=
  t.whileChecking ++ if verdict = .shareRevoked then t.whileProbing else []

def untilGuard (t : Turn) (verdict : ShareVerdict) : List Event :=
  untilLoad t verdict ++ t.whileLoading

def Present (db : Db) (id : Nat) : Prop :=
  (db.store.users.find id).isSome ∧ (db.account id).isSome

theorem Present.keeps {db : Db} {id : Nat} (h : Present db id) (hkeep : Keeps db db') :
    Present db' id := by
  refine ⟨hkeep.users id h.1, ?_⟩
  rcases Option.isSome_iff_exists.mp h.2 with ⟨a, ha⟩
  rcases hkeep.share id a ha with ⟨a', ha', -⟩
  rw [ha']
  rfl

/-- What holds at each end of the first part of a turn. -/
def PrepareSpec (decrypt : String → String) (cfg : Config) (c : DueShareCandidate) (t : Turn)
    (s : Sweep) : Prepared → Prop
  | .errored _ s' => checkShare cfg.machineIdentifier c.token t.fetched = none ∧
      s'.db = s.db.afterAll decrypt t.whileChecking ∧ s'.visited = s.visited ++ [c.userId]
  | .deferred s' => checkShare cfg.machineIdentifier c.token t.fetched = some .shareRevoked ∧
      anchorHolds cfg.machineIdentifier s.anchor t.probe = false ∧
      s'.visited = s.visited ++ [c.userId]
  | .skipped s' => ∃ verdict, checkShare cfg.machineIdentifier c.token t.fetched = some verdict ∧
      (¬ Present s.db c.userId ∨
        ((s.db.afterAll decrypt (untilGuard t verdict)).account c.userId).bind
          (Account.token decrypt) ≠ c.token) ∧
      s'.visited = s.visited ++ [c.userId] ∧
      ∃ es, es <+: untilGuard t verdict ∧ s'.db = s.db.afterAll decrypt es
  | .write w => checkShare cfg.machineIdentifier c.token t.fetched = some w.verdict ∧
      (w.verdict = .shareRevoked →
        anchorHolds cfg.machineIdentifier s.anchor t.probe = true ∧
        w.sweep.probes =
          (s.anchorConfirmed cfg.machineIdentifier false t.probe).2.probes) ∧
      w.guarded = s.db.afterAll decrypt (untilGuard t w.verdict) ∧
      w.sweep.db = w.guarded.afterAll decrypt t.whileGuarded ∧
      (w.guarded.account c.userId).bind (Account.token decrypt) = c.token ∧
      w.storedCiphertext = (w.guarded.account c.userId).bind Account.encryptedPlexToken ∧
      (s.db.afterAll decrypt (untilLoad t w.verdict)).store.users.find c.userId = some w.user ∧
      (s.db.afterAll decrypt (untilLoad t w.verdict)).account c.userId = some w.loaded ∧
      w.sweep.visited = s.visited ++ [c.userId]

theorem prepareWrite_cases (decrypt : String → String) (c : DueShareCandidate) (t : Turn)
    (verdict : ShareVerdict) (s : Sweep) :
    (∃ user loaded, s.db.store.users.find c.userId = some user ∧
        s.db.account c.userId = some loaded ∧
        ((s.db.afterAll decrypt t.whileLoading).account c.userId).bind
          (Account.token decrypt) = c.token ∧
        prepareWrite decrypt c t verdict s = .write
          { verdict, user, loaded
            guarded := s.db.afterAll decrypt t.whileLoading
            storedCiphertext := ((s.db.afterAll decrypt t.whileLoading).account c.userId).bind
              Account.encryptedPlexToken
            sweep := (s.during decrypt t.whileLoading).during decrypt t.whileGuarded }) ∨
      (∃ s', prepareWrite decrypt c t verdict s = .skipped s' ∧ s'.visited = s.visited ∧
        (¬ Present s.db c.userId ∨
          ((s.db.afterAll decrypt t.whileLoading).account c.userId).bind
            (Account.token decrypt) ≠ c.token) ∧
        ∃ es, es <+: t.whileLoading ∧ s'.db = s.db.afterAll decrypt es) := by
  unfold prepareWrite
  cases huser : s.db.store.users.find c.userId with
  | none =>
    refine .inr ⟨s, rfl, rfl, .inl fun hat => ?_, [], List.nil_prefix, rfl⟩
    have huser' := hat.1
    rw [huser] at huser'
    contradiction
  | some user =>
    cases hload : s.db.account c.userId with
    | none =>
      refine .inr ⟨s, rfl, rfl, .inl fun hat => ?_, [], List.nil_prefix, rfl⟩
      have hload' := hat.2
      rw [hload] at hload'
      contradiction
    | some loaded =>
      dsimp only
      split
      · rename_i hchg
        exact .inr ⟨_, rfl, rfl, .inr hchg, t.whileLoading, List.prefix_rfl, rfl⟩
      · rename_i hsame
        exact .inl ⟨user, loaded, rfl, rfl, not_not.mp hsame, rfl⟩

theorem prepare_spec (decrypt : String → String) (cfg : Config) (c : DueShareCandidate) (t : Turn)
    (s : Sweep) :
    PrepareSpec decrypt cfg c t s (prepare decrypt cfg c t s) := by
  unfold prepare
  cases hchk : checkShare cfg.machineIdentifier c.token t.fetched with
  | none => exact ⟨hchk, rfl, rfl⟩
  | some verdict =>
    dsimp only
    -- What the load of the row begins on, in either case.
    have hload : ∀ s₁ : Sweep, s₁.db = s.db.afterAll decrypt (untilLoad t verdict) →
        s₁.visited = s.visited ++ [c.userId] →
        (verdict = .shareRevoked → anchorHolds cfg.machineIdentifier s.anchor t.probe = true ∧
          s₁.probes = (s.anchorConfirmed cfg.machineIdentifier false t.probe).2.probes) →
        PrepareSpec decrypt cfg c t s (prepareWrite decrypt c t verdict s₁) := by
      intro s₁ hdb hvis hanch
      rcases prepareWrite_cases decrypt c t verdict s₁ with
        ⟨user, loaded, huser, hloaded, htok, heq⟩ | ⟨s₂, heq, hvis₂, hwhy, es, hes, hdb₂⟩
      · rw [heq]
        rw [hdb] at huser hloaded htok
        refine ⟨hchk, hanch, ?_, rfl, ?_, rfl, huser, hloaded, hvis⟩
        · dsimp only
          rw [hdb, untilGuard, afterAll_append]
        · dsimp only
          rw [hdb]
          exact htok
      · rw [heq]
        rw [hdb] at hwhy
        refine ⟨verdict, hchk, ?_, hvis₂.trans hvis, untilLoad t verdict ++ es,
          (List.prefix_append_right_inj _).mpr hes, ?_⟩
        swap
        · rw [hdb₂, hdb, afterAll_append]
        rcases hwhy with hgone | hchg
        · exact .inl fun hat => hgone (hat.keeps (keeps_afterAll _ _))
        · refine .inr ?_
          rw [untilGuard, afterAll_append]
          exact hchg
    by_cases hrev : verdict = .shareRevoked
    · rw [if_pos hrev]
      have hfst := anchorConfirmed_fst
        { s.during decrypt t.whileChecking with visited := s.visited ++ [c.userId] }
        cfg.machineIdentifier t.probe
      split
      · rename_i hhold
        refine hload _ ?_ ?_ ?_
        · simp [Sweep.during, untilLoad, hrev, afterAll_append]
        · simp [Sweep.during]
        · intro _
          refine ⟨hfst.symm.trans hhold, ?_⟩
          unfold Sweep.during Sweep.anchorConfirmed
          split
          · rfl
          · rfl
      · rename_i hfails
        refine ⟨hrev ▸ hchk, ?_, by simp [Sweep.during]⟩
        exact hfst.symm.trans (Bool.not_eq_true _ ▸ hfails)
    · rw [if_neg hrev]
      refine hload _ ?_ rfl fun h => absurd h hrev
      simp [Sweep.during, untilLoad, hrev]

/-! ### What a verdict writes -/

def ShareVerdict.isLoss : ShareVerdict → Bool
  | shareRevoked => true
  | tokenStale => true
  | _ => false

theorem isLoss_iff : verdict.isLoss = true ↔ verdict = .shareRevoked ∨ verdict = .tokenStale := by
  cases verdict <;> simp [ShareVerdict.isLoss]

/-- The sessions as the revocation of a verdict leaves them. -/
def cutStore (store : Store) (user : User) (guardMoment : Int) (matching : Bool) : Store :=
  (revokeUserSessions store user.id guardMoment (some guardMoment) matching true).2

-- A verdict is written to the row of its user, and to the sessions only if it is a loss and
-- the user is no administrator.
theorem apply_spec {db : Db} {row : Account} (hrow : db.account loaded.userId = some row)
    (user : User) (verdict : ShareVerdict) (now guardMoment : Int)
    (storedCiphertext : Option String) :
    ∃ outcome db', applyShareVerdict db user loaded verdict now guardMoment storedCiphertext =
        some (outcome, db') ∧
      db'.accounts = (db.update loaded.userId
        (Account.flush loaded (stamped loaded verdict now)) (fun _ => rfl)).accounts ∧
      db'.store =
        if verdict.isLoss = true ∧ user.permissions ≤ 0
        then cutStore db.store user guardMoment (row.encryptedPlexToken = storedCiphertext)
        else db.store := by
  unfold applyShareVerdict
  rw [hrow]
  dsimp only
  by_cases hloss : verdict.isLoss = true
  · rw [if_pos (isLoss_iff.mp hloss)]
    by_cases hadm : 0 < user.permissions
    · rw [if_pos hadm, if_neg (by omega)]
      exact ⟨_, _, rfl, rfl, rfl⟩
    · rw [if_neg hadm, if_pos ⟨hloss, by omega⟩]
      exact ⟨_, _, rfl, rfl, rfl⟩
  · rw [if_neg fun h => hloss (isLoss_iff.mpr h), if_neg fun h => hloss h.1]
    exact ⟨_, _, rfl, rfl, rfl⟩

theorem apply_none {db : Db} {user : User} {now guardMoment : Int}
    {storedCiphertext : Option String} (hrow : db.account loaded.userId = none) :
    applyShareVerdict db user loaded verdict now guardMoment storedCiphertext = none := by
  unfold applyShareVerdict
  rw [hrow]

end ShareSweep

end PlexManager
