import PlexManager.Core.EventStreams
import PlexManager.Theory.SessionLifecycle

/-!
# What an action takes away, and what it closes

An action commits what it has computed and then closes the streams of a principal. A commit
takes away the recovery key, a session, or the permissions of a user. Whatever it takes away
belongs to a principal whose streams are about to be closed, but for two kinds of action. A
repoint revokes the sessions of the recovery key too, and closes what goes by a Plex
account. A sweep that revokes sessions all of which have run out closes nothing.
-/

namespace PlexManager

namespace EventStreams

open KeyedTable Sessions

/-! ### What an action closes -/

/-- The streams of a principal are among those that are closed. -/
def Effect.covers (e : Effect) (principal : AuthMethod × Option Nat) : Prop :=
  ∃ closing, e.closing = some closing ∧ (∀ m, closing.authMethod = some m → m = principal.1) ∧
    ∀ id, closing.userId = some id → principal.2 = some id

/-- Where an action closes less than it revokes: a repoint leaves out what is not of Plex,
    and a sweep that has found no live session closes nothing. -/
def Kind.misses (kind : Kind) (e : Effect) (authMethod : Option String) : Bool :=
  match kind with
  | .putSettings _ => authMethod ≠ some AuthMethod.plexSession.value
  | .signOut _ _ _ _ => e.closing = none
  | _ => false

/-- What an action is about to write, told by what it closes. -/
structure Describes (kind : Kind) (e : Effect) : Prop where
  key : e.appApiKey ≠ none → e.covers (.apiKey, none)
  rows : ∀ h u, (h, u) ∈ e.revoked → e.covers (Ground.row h u).principal ∨
    kind.misses e (some (Ground.row h u).principal.1.value) = true
  user : ∀ id name mail avatar p, e.user = some (.update id name mail avatar (some p)) →
    0 < p ∨ e.covers (.plexSession, some id)

/-- Whatever the database holds of permissions is not negative. -/
def Db.Nonneg (db : Db) : Prop := ∀ u ∈ db.store.users.rows, 0 ≤ u.permissions

variable {e : Effect} {db : Db} {h : String} {now : Int} {store store' : Store} {id : Nat}
  {u : Option Nat} {s : AuthSession} {kind : Kind} {reason : String} {observed : Option String}
  {write : UserWrite}

theorem mem_hit {p : AuthSession → Bool}
    (hmem : (h, u) ∈ db.hit p) : ∃ s, p s = true ∧ s.userId = u := by
  have hgot := List.mem_map.mp hmem
  rcases hgot with ⟨s, hs, heq⟩
  have htest := (List.mem_filter.mp hs).2
  rw [Bool.and_eq_true] at htest
  exact ⟨s, htest.2, congrArg Prod.snd heq⟩

section

variable (hclosing : e.closing = some { reason, authMethod := some .apiKey })
include hclosing

theorem covers_recovery (hu : u.isNone = true) : e.covers (Ground.row h u).principal := by
  have hnone := Option.isNone_iff_eq_none.mp hu
  subst hnone
  refine ⟨_, hclosing, ?_, fun id hid => by simp at hid⟩
  intro m hm
  exact (Option.some.inj hm).symm

theorem covers_hit {p : AuthSession → Bool} (hp : ∀ s, p s = true → s.userId.isNone = true)
    (hmem : (h, u) ∈ db.hit p) : e.covers (Ground.row h u).principal := by
  rcases mem_hit hmem with ⟨s, hs, hu⟩
  exact covers_recovery hclosing (hu ▸ hp s hs)

theorem Describes.of_recovery {p : AuthSession → Bool} (huser : e.user = none)
    (hrev : e.revoked = db.hit p)
    (hp : ∀ s, p s = true → s.userId.isNone = true) : Describes kind e where
  key _ := ⟨_, hclosing, fun m hm => (Option.some.inj hm).symm, fun id hid => by simp at hid⟩
  rows h u hmem := .inl (covers_hit hclosing hp (hrev ▸ hmem))
  user _ _ _ _ _ hwr := by simp [huser] at hwr

end

theorem covers_user
    (hclosing : e.closing = some { reason, authMethod := some .plexSession, userId := some id }) :
    e.covers (Ground.row h (some id)).principal := by
  refine ⟨_, hclosing, ?_, ?_⟩
  · intro m hm
    exact (Option.some.inj hm).symm
  · intro id' hid'
    have heq := Option.some.inj hid'
    rw [← heq]
    rfl

theorem userId_of_ofUser {bound : Option Int}
    (h : ofUser id bound s = true) : s.userId = some id := by
  unfold ofUser at h
  rw [Bool.and_eq_true] at h
  exact of_decide_eq_true h.1

theorem describes_logout (hstg : logout db now h = some e) : Describes (.logout h) e := by
  unfold logout at hstg
  cases hfind : (db.store.session h).filter (·.revokedAt.isNone) with
  | none => simp [hfind] at hstg
  | some s =>
    simp only [hfind, Option.some.injEq] at hstg
    subst hstg
    refine ⟨fun hkey => absurd rfl hkey, ?_, fun _ _ _ _ _ huser => by simp at huser⟩
    intro h' u hmem
    have heq := List.mem_singleton.mp hmem
    have hu : u = s.userId := congrArg Prod.snd heq
    -- The filter is chosen by the user of the row that was read.
    cases hown : s.userId with
    | none =>
      refine .inl (covers_recovery rfl ?_)
      rw [hu, hown]
      rfl
    | some id =>
      rw [hu, hown]
      exact .inl (covers_user rfl)

theorem describes_revokeUser (db : Db) (now : Int) (id : Nat) :
    Describes (.revokeUser id) (revokeUser db now id) := by
  refine ⟨fun hkey => absurd rfl hkey, ?_, fun _ _ _ _ _ huser => by simp [revokeUser] at huser⟩
  intro h u hmem
  have hany : db.hit (ofUser id none) ≠ [] := List.ne_nil_of_mem hmem
  have hrow := mem_hit hmem
  rcases hrow with ⟨s, hs, hu⟩
  have hown := userId_of_ofUser hs
  rw [← hu, hown]
  exact .inl (covers_user (by simp only [revokeUser, if_neg hany]; rfl))

theorem describes_revokeRecovery (db : Db) (now : Int) :
    Describes .revokeRecovery (revokeRecovery db now) := by
  refine ⟨fun hkey => absurd rfl hkey, ?_,
    fun _ _ _ _ _ huser => by simp [revokeRecovery] at huser⟩
  intro h u hmem
  have hany : db.hit (fun s => s.userId.isNone) ≠ [] := List.ne_nil_of_mem hmem
  exact .inl (covers_hit (by simp only [revokeRecovery, if_neg hany]; rfl) (fun _ hs => hs) hmem)

theorem describes_rotateAppKey {newKey : String} {acting : Option String}
    (hstg : rotateAppKey db now observed newKey acting = some e) :
    Describes (.rotateAppKey observed newKey acting) e := by
  simp only [rotateAppKey, Option.ite_none_right_eq_some, Option.some.injEq] at hstg
  have heff := hstg.2
  subst heff
  refine .of_recovery rfl rfl rfl fun s hs => ?_
  rw [Bool.and_eq_true] at hs
  exact hs.1

theorem describes_revokeAppKey
    (hstg : revokeAppKey db now observed = some e) : Describes (.revokeAppKey observed) e := by
  simp only [revokeAppKey, Option.ite_none_left_eq_some, Option.some.injEq] at hstg
  have heff := hstg.2
  subst heff
  exact .of_recovery rfl rfl rfl fun _ hs => hs

theorem describes_putSettings (db : Db) (now : Int) (verified : Option String) :
    Describes (.putSettings verified) (putSettings db now verified) := by
  cases verified with
  | none =>
    exact ⟨fun hkey => absurd rfl hkey, fun h u hmem => by simp [putSettings] at hmem,
      fun _ _ _ _ _ huser => by simp [putSettings] at huser⟩
  | some m =>
    unfold putSettings
    by_cases hsame : db.plexMachineIdentifier = some m
    · simp only [if_pos hsame]
      exact ⟨fun hkey => absurd rfl hkey, fun h u hmem => by simp at hmem,
        fun _ _ _ _ _ huser => by simp at huser⟩
    simp only [if_neg hsame]
    refine ⟨fun hkey => absurd rfl hkey, ?_, fun _ _ _ _ _ huser => by simp at huser⟩
    intro h u _
    cases u with
    | none => exact .inr rfl
    | some id =>
      refine .inl ⟨_, rfl, fun m hm => (Option.some.inj hm).symm, ?_⟩
      intro id' hid'
      simp at hid'

theorem describes_signIn (hdb : db.Nonneg) (now : Int) (account : Account) (isAdmin : Bool)
    (userId : Nat) (h : String) :
    Describes (.signIn account isAdmin userId h) (signIn db now account isAdmin userId h) := by
  refine ⟨fun hkey => absurd rfl hkey, fun h u hmem => by simp [signIn] at hmem, ?_⟩
  intro id name mail avatar p huser
  unfold signIn upsertUser at huser
  unfold signIn upsertUser
  cases hfind : db.store.users.rows.find? (fun user => user.plexId = account.plexId) with
  | none => simp [hfind] at huser
  | some user =>
    simp only [hfind, Option.some.injEq, UserWrite.update.injEq] at huser ⊢
    have hold : 0 ≤ user.permissions := hdb user (List.mem_of_find?_eq_some hfind)
    have hid : user.id = id := huser.1
    have hperm := huser.2.2.2.2
    by_cases hadm : isAdmin = true
    · left
      rw [if_pos hadm, Option.ite_none_left_eq_some] at hperm
      have hp := Option.some.inj hperm.2
      omega
    right
    simp only [if_neg hadm, Option.ite_none_left_eq_some] at hperm ⊢
    -- What is written differs from what was read, so it is less.
    have hless : (0 : Int) < user.permissions := by
      omega
    refine ⟨{ reason := "permission_downgraded", authMethod := some .plexSession
              userId := some user.id }, ?_, ?_, ?_⟩
    · simp [hless]
    · intro m hm
      exact (Option.some.inj hm).symm
    · intro id' hid'
      have heq := Option.some.inj hid'
      rw [← heq, hid]

theorem describes_signOut {verdict : ShareSweep.ShareVerdict} {guardMoment : Int}
    {userMatches : Bool} (hstg : signOut db id verdict guardMoment userMatches = some e) :
    Describes (.signOut id verdict guardMoment userMatches) e := by
  unfold signOut at hstg
  cases hfind : db.store.users.find id with
  | none => simp [hfind] at hstg
  | some user =>
    simp only [hfind, Option.ite_none_left_eq_some, Option.some.injEq] at hstg
    have heff := hstg.2
    subst heff
    refine ⟨fun hkey => absurd rfl hkey, ?_, fun _ _ _ _ _ huser => by simp at huser⟩
    intro h u hmem
    have hrow := mem_hit hmem
    rcases hrow with ⟨s, hs, hu⟩
    rw [Bool.and_eq_true] at hs
    have hown := userId_of_ofUser hs.1
    by_cases hnone : (revokeUserSessions db.store id guardMoment (some guardMoment) userMatches
        true).1 = 0
    · right
      simp [Kind.misses, hnone]
    · left
      rw [← hu, hown]
      exact covers_user (by simp only [if_neg hnone]; rfl)

theorem describes_stage (hdb : db.Nonneg)
    (hstg : stage db now kind = some e) : Describes kind e := by
  cases kind with
  | logout h => exact describes_logout hstg
  | revokeUser id => exact Option.some.inj hstg ▸ describes_revokeUser db now id
  | revokeRecovery => exact Option.some.inj hstg ▸ describes_revokeRecovery db now
  | rotateAppKey observed newKey acting => exact describes_rotateAppKey hstg
  | revokeAppKey observed => exact describes_revokeAppKey hstg
  | putSettings verified => exact Option.some.inj hstg ▸ describes_putSettings db now verified
  | signIn account isAdmin id h =>
    exact Option.some.inj hstg ▸ describes_signIn hdb now account isAdmin id h
  | exchangeApiKey provided h =>
    simp only [stage, exchangeApiKey, Option.ite_none_right_eq_some, Option.some.injEq] at hstg
    have heff := hstg.2
    subst heff
    exact ⟨fun hkey => absurd rfl hkey, fun h u hmem => by simp at hmem,
      fun _ _ _ _ _ huser => by simp at huser⟩
  | signOut id verdict guardMoment userMatches => exact describes_signOut hstg

/-! ### What a commit takes away -/

/-- What a sign-in writes of permissions. -/
def UserWrite.Nonneg : UserWrite → Prop
  | create user => 0 ≤ user.permissions
  | update _ _ _ _ permissions => ∀ p, permissions = some p → 0 ≤ p

def Effect.Nonneg (e : Effect) : Prop := ∀ write, e.user = some write → write.Nonneg

theorem nonneg_signIn (db : Db) (now : Int) (account : Account) (isAdmin : Bool) (userId : Nat)
    (h : String) : (signIn db now account isAdmin userId h).Nonneg := by
  intro write hwr
  have hgranted : (0 : Int) ≤ if isAdmin then 1 else 0 := by
    by_cases hadm : isAdmin = true
    · rw [if_pos hadm]
      decide
    · rw [if_neg hadm]
  unfold signIn upsertUser at hwr
  cases hfind : db.store.users.rows.find? (fun user => user.plexId = account.plexId) with
  | none =>
    simp only [hfind, Option.some.injEq] at hwr
    rw [← hwr]
    exact hgranted
  | some user =>
    simp only [hfind, Option.some.injEq] at hwr
    rw [← hwr]
    intro p hp
    have heq := Option.some.inj (Option.ite_none_left_eq_some.mp hp).2
    rw [← heq]
    exact hgranted

theorem nonneg_stage (hstg : stage db now kind = some e) : e.Nonneg := by
  -- Nobody but a sign-in writes to a user.
  have hnone : e.user = none → e.Nonneg := fun h write hwr => by simp [h] at hwr
  cases kind with
  | logout h =>
    have hlogout : logout db now h = some e := hstg
    unfold logout at hlogout
    split at hlogout
    · contradiction
    exact hnone (by rw [← Option.some.inj hlogout])
  | revokeUser id | revokeRecovery => exact hnone (by rw [← Option.some.inj hstg]; rfl)
  | rotateAppKey observed newKey acting | exchangeApiKey provided h =>
    have heff := (Option.ite_none_right_eq_some.mp hstg).2
    exact hnone (by rw [← Option.some.inj heff])
  | revokeAppKey observed =>
    have heff := (Option.ite_none_left_eq_some.mp hstg).2
    exact hnone (by rw [← Option.some.inj heff])
  | putSettings verified =>
    refine hnone ?_
    cases hstg
    cases verified with
    | none => rfl
    | some m =>
      by_cases hsame : db.plexMachineIdentifier = some m
      · simp only [putSettings, if_pos hsame]
      · simp only [putSettings, if_neg hsame]
  | signIn account isAdmin id h =>
    exact Option.some.inj hstg ▸ nonneg_signIn db now account isAdmin id h
  | signOut id verdict guardMoment userMatches =>
    have hsignOut : signOut db id verdict guardMoment userMatches = some e := hstg
    unfold signOut at hsignOut
    split at hsignOut
    · contradiction
    have heff := (Option.ite_none_left_eq_some.mp hsignOut).2
    exact hnone (by rw [← Option.some.inj heff])

theorem users_stageBrowserSession (hmint : stageBrowserSession store now h u = some store') :
    store'.users = store.users := by
  unfold stageBrowserSession at hmint
  split at hmint
  · contradiction
  split at hmint
  · rw [← Option.some.inj hmint]
  · contradiction

theorem session_mint (hmint : stageBrowserSession store now h u = some store') {h' : String}
    (hs : store.session h' = some s) : store'.session h' = some s := by
  have hspec := session_stageBrowserSession hmint
  have hknown : h' ∈ store.minted := by
    have hrow := Table.find_eq_some.mp hs
    exact hrow.2 ▸ store.known s hrow.1
  have hne : h ≠ h' := fun heq => hspec.1 (heq ▸ hknown)
  rw [hspec.2.2 h', if_neg hne]
  exact hs

section

variable (hcommit : write.commit store = some store')
include hcommit

theorem sessions_write : store'.sessions = store.sessions := by
  cases write with
  | create user =>
    have hstore := Option.some.inj (Option.ite_none_left_eq_some.mp hcommit).2
    rw [← hstore]
    rfl
  | update id name mail avatar permissions =>
    cases hcommit
    rfl

theorem UserWrite.find_commit {u : User} (hu : store.users.find id = some u) :
    ∃ u', store'.users.find id = some u' ∧ (u'.permissions = u.permissions ∨
      ∃ name mail avatar p, write = .update id name mail avatar (some p) ∧
        u'.permissions = p) := by
  cases write with
  | create user =>
    have hstore := Option.some.inj (Option.ite_none_left_eq_some.mp hcommit).2
    rw [← hstore]
    refine ⟨u, ?_, .inl rfl⟩
    show (store.users.insert user).find id = _
    rw [Table.find_insert, hu]
    rfl
  | update id' name mail avatar permissions =>
    have hstore := Option.some.inj hcommit
    rw [← hstore]
    have hfind : (modifyUser store id' (UserWrite.row name mail avatar permissions)
        fun _ => rfl).users.find id =
        (some u).map fun r => if id = id' then UserWrite.row name mail avatar permissions r
          else r := by
      have hmodify := Table.find_modify store.users id'
        (UserWrite.row name mail avatar permissions) (fun _ => rfl) id
      rw [hu] at hmodify
      exact hmodify
    refine ⟨_, hfind, ?_⟩
    by_cases hid : id = id'
    · subst hid
      simp only [if_true]
      cases permissions with
      | none => exact .inl rfl
      | some p => exact .inr ⟨name, mail, avatar, p, rfl, rfl⟩
    · simp only [if_neg hid]
      exact .inl trivial

theorem UserWrite.nonneg_commit
    (hwr : write.Nonneg) (hstore : ∀ u ∈ store.users.rows, 0 ≤ u.permissions) :
    ∀ u ∈ store'.users.rows, 0 ≤ u.permissions := by
  intro u hu
  cases write with
  | create user =>
    have hnew := Option.some.inj (Option.ite_none_left_eq_some.mp hcommit).2
    rw [← hnew] at hu
    cases Table.mem_insert hu with
    | inl hold => exact hstore u hold
    | inr hsame => exact hsame ▸ hwr
  | update id name mail avatar permissions =>
    have hnew := Option.some.inj hcommit
    rw [← hnew] at hu
    have hmem : u ∈ (store.users.modify id (UserWrite.row name mail avatar permissions)
        fun _ => rfl).rows := hu
    cases Table.mem_modify hmem with
    | inl hold => exact hstore u hold
    | inr hchg =>
      rcases hchg with ⟨r, hr, -, heq⟩
      rw [heq]
      cases permissions with
      | none => exact hstore r hr
      | some p => exact hwr p rfl

end

theorem commitStore_parts (hcommit : commitStore store e = some store') :
    ∃ written, (∀ write, e.user = some write →
        write.commit (store.revoke (fun s => (s.tokenHash, s.userId) ∈ e.revoked) e.stamp) =
          some written) ∧
      (e.user = none →
        written = store.revoke (fun s => (s.tokenHash, s.userId) ∈ e.revoked) e.stamp) ∧
      (store' = written ∨
        ∃ h u, stageBrowserSession written e.stamp h u = some store') := by
  cases huser : e.user with
  | none =>
    simp only [commitStore, huser, Option.bind_eq_bind, Option.bind_some] at hcommit
    refine ⟨_, fun write hwr => by simp at hwr, fun _ => rfl, ?_⟩
    split at hcommit
    · exact .inl (Option.some.inj hcommit).symm
    · exact .inr ⟨_, _, hcommit⟩
  | some write =>
    simp only [commitStore, huser, Option.bind_eq_bind, Option.bind_eq_some_iff] at hcommit
    rcases hcommit with ⟨written, hwrit, hrest⟩
    refine ⟨written, fun write' heq => ?_, fun hnone => by simp at hnone, ?_⟩
    · cases heq
      exact hwrit
    · split at hrest
      · exact .inl (Option.some.inj hrest).symm
      · exact .inr ⟨_, _, hrest⟩

theorem users_minted {written : Store} (hminted : store' = written ∨
    ∃ h u, stageBrowserSession written e.stamp h u = some store') :
    store'.users = written.users := by
  cases hminted with
  | inl hsame => rw [hsame]
  | inr hmint =>
    rcases hmint with ⟨h', o, hmint⟩
    exact users_stageBrowserSession hmint

theorem session_commitStore (hcommit : commitStore store e = some store')
    (hs : store.session h = some s) :
    store'.session h =
      some (s.revoke (fun r => (r.tokenHash, r.userId) ∈ e.revoked) e.stamp) := by
  rcases commitStore_parts hcommit with ⟨written, hwr, hnone, hminted⟩
  have hrev : (store.revoke (fun r => (r.tokenHash, r.userId) ∈ e.revoked) e.stamp).session h =
      some (s.revoke (fun r => (r.tokenHash, r.userId) ∈ e.revoked) e.stamp) := by
    unfold Store.revoke
    rw [session_rewrite, hs]
    rfl
  have hwrit : written.session h =
      some (s.revoke (fun r => (r.tokenHash, r.userId) ∈ e.revoked) e.stamp) := by
    cases huser : e.user with
    | none =>
      rw [hnone huser]
      exact hrev
    | some write =>
      unfold Store.session at hrev ⊢
      rw [sessions_write (hwr write huser)]
      exact hrev
  cases hminted with
  | inl hsame => exact hsame ▸ hwrit
  | inr hmint =>
    rcases hmint with ⟨h', u, hmint⟩
    exact session_mint hmint hwrit

theorem user_commitStore (hcommit : commitStore store e = some store') {u : User}
    (hu : store.users.find id = some u) :
    ∃ u', store'.users.find id = some u' ∧ (u'.permissions = u.permissions ∨
      ∃ name mail avatar p, e.user = some (.update id name mail avatar (some p)) ∧
        u'.permissions = p) := by
  rcases commitStore_parts hcommit with ⟨written, hwr, hnone, hmint⟩
  rw [users_minted hmint]
  cases huser : e.user with
  | none =>
    rw [hnone huser]
    exact ⟨u, hu, .inl rfl⟩
  | some write =>
    have hfind := UserWrite.find_commit (hwr write huser) hu
    rcases hfind with ⟨u', hu', hperm⟩
    refine ⟨u', hu', ?_⟩
    cases hperm with
    | inl hsame => exact .inl hsame
    | inr hnew =>
      rcases hnew with ⟨name, mail, avatar, p, heq, hp⟩
      exact .inr ⟨name, mail, avatar, p, congrArg some heq, hp⟩

theorem Db.Nonneg.commit {db' : Db} (hdb : db.Nonneg) (he : e.Nonneg)
    (hcommit : db.commit e = some db') : db'.Nonneg := by
  have hstore := Option.map_eq_some_iff.mp hcommit
  rcases hstore with ⟨store, hstore, hdb'⟩
  rcases commitStore_parts hstore with ⟨written, hwr, hnone, hmint⟩
  intro u hu
  rw [← hdb'] at hu
  have hmem : u ∈ written.users.rows := users_minted hmint ▸ hu
  cases huser : e.user with
  | none =>
    rw [hnone huser] at hmem
    exact hdb u hmem
  | some write => exact UserWrite.nonneg_commit (hwr write huser) (he write huser) hdb u hmem

-- A commit takes away only what the action is going to close, or misses.
theorem covers_of_falsified {db' : Db} (hdescr : Describes kind e)
    (hcommit : db.commit e = some db') {g : Ground} (hbef : g.holds db = true)
    (haft : g.holds db' = false) :
    e.covers g.principal ∨ kind.misses e (some g.principal.1.value) = true := by
  have hstore := Option.map_eq_some_iff.mp hcommit
  rcases hstore with ⟨store, hstore, hdb'⟩
  subst hdb'
  cases g with
  | key value =>
    have hstored : db.appApiKey = some value := of_decide_eq_true hbef
    left
    refine hdescr.key fun hnone => ?_
    -- A key that is not written is the one that was there.
    have hsame : Ground.holds { store, appApiKey := e.appApiKey.getD db.appApiKey
                                plexMachineIdentifier := e.plexMachineIdentifier.getD
                                  db.plexMachineIdentifier } (.key value) = true := by
      simp only [Ground.holds, hnone, Option.getD_none]
      exact decide_eq_true hstored
    exact Bool.false_ne_true (haft.symm.trans hsame)
  | row h u =>
    have hrow := Option.any_eq_true .. |>.mp hbef
    rcases hrow with ⟨s, hs, htest⟩
    rw [Bool.and_eq_true] at htest
    have hown : s.userId = u := of_decide_eq_true htest.2
    have hhash : s.tokenHash = h := Table.key_of_find hs
    have hnew := session_commitStore hstore hs
    by_cases hrev : (h, u) ∈ e.revoked
    · exact hdescr.rows h u hrev
    exfalso
    have hkept : s.revoke (fun r => (r.tokenHash, r.userId) ∈ e.revoked) e.stamp = s := by
      refine if_neg ?_
      simp [hhash, hown, hrev]
    rw [hkept] at hnew
    have hhold : (Ground.row h u).holds { store, appApiKey := e.appApiKey.getD db.appApiKey
                                          plexMachineIdentifier :=
                                            e.plexMachineIdentifier.getD
                                              db.plexMachineIdentifier } = true := by
      simp only [Ground.holds, hnew, Option.any_some, Bool.and_eq_true]
      exact htest
    exact Bool.false_ne_true (haft.symm.trans hhold)
  | admin id =>
    have huser := Option.any_eq_true .. |>.mp hbef
    rcases huser with ⟨u, hu, hadm⟩
    have hold : 0 < u.permissions := of_decide_eq_true hadm
    rcases user_commitStore hstore hu with ⟨u', hu', hperm⟩
    have hlost : ¬ 0 < u'.permissions := by
      simp only [Ground.holds, hu', Option.any_some, decide_eq_false_iff_not] at haft
      exact haft
    cases hperm with
    | inl hsame => exact absurd (hsame ▸ hold) hlost
    | inr hwrit =>
      rcases hwrit with ⟨name, mail, avatar, p, heq, hp⟩
      cases hdescr.user id name mail avatar p heq with
      | inl hpos => exact absurd (hp ▸ hpos) hlost
      | inr hcov => exact .inl hcov

end EventStreams

end PlexManager
