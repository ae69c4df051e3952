import Mathlib.Data.List.Chain
import PlexManager.Core.SessionLifecycle

/-!
# When a session is alive

Whether a session is alive is asked in three places: by a request with its cookie,
by the queries for the live ones, and by the sweep that deletes the dead ones. The
first two agree on every row. The third lags behind by the time for which a dead row
is kept, measured from the one instant at which the session died.

Over a run, a session is in one row from its sign-in on. No step takes back a
revocation or moves the end of the session, and the time it was last seen is only
moved by requests that were accepted, or by none. A use that finds the stored time to
be young leaves it, so what is stored can lag behind the last use, but only by less
than the interval between two refreshes. A session used again before the window less
that interval has passed is therefore still alive.

## Theorems

* `session_lifecycle`: All of it, for every run.
-/

namespace PlexManager

namespace Sessions

open KeyedTable Transition

variable {hash : String → String} {h : String}

/-! ### What is observed of a run -/

def shows (hash : String → String) (h : String) (r : Request) (enforceCsrf : Bool) : Bool :=
  (r.cookie.any fun token => token ≠ "" && hash token = h) && !(enforceCsrf && !r.passesCsrf)

/-- The stored time is old enough to be written again. -/
def refreshDue (h : String) (db : Store) (now : Int) : Bool :=
  (db.session h).any fun s => sessionLastSeenRefreshInterval ≤ now - effectiveLastSeen s

def refreshes (hash : String → String) (h : String) (db : Store) (e : Int × Event) : Bool :=
  match e.2 with
  | .request r enforceCsrf writes =>
      shows hash h r enforceCsrf &&
        (sessionAuthContext hash db r e.1 enforceCsrf writes).1.accepted &&
        refreshDue h db e.1 && writes
  | _ => false

/-- A request would have to write that down and cannot. -/
def refreshFails (hash : String → String) (h : String) (db : Store) (e : Int × Event) : Bool :=
  match e.2 with
  | .request r enforceCsrf writes =>
      shows hash h r enforceCsrf && refreshDue h db e.1 && !writes
  | _ => false

def Event.mints (hash : String → String) (h : String) : Event → Bool
  | .signIn token _ => hash token = h
  | _ => false

/-- The last time that was written down: by the sign-in, or by a request. -/
def lastActivity (hash : String → String) (h : String) :
    Option Int → World → List (Int × Event) → Option Int
  | last, _, [] => last
  | last, w, e :: es => match step hash w e with
    | none => last
    | some w' => lastActivity hash h
        (if e.2.mints hash h || refreshes hash h w.db e then some e.1 else last) w' es

def uses (hash : String → String) (h : String) (es : List (Int × Event)) : List Int :=
  es.filterMap fun e => match e.2 with
    | .request r enforceCsrf _ => if shows hash h r enforceCsrf then some e.1 else none
    | _ => none

def Visits (hash : String → String) (w : World) (es : List (Int × Event)) (m : World) : Prop :=
  ∃ as bs, es = as ++ bs ∧ run (step hash) w as = some m

/-- When a session died, or will if nothing else happens to it: with its revocation,
    or else with its end or the end of its idle window, whichever comes first. -/
def deathTime (s : AuthSession) : Int :=
  match s.revokedAt with
  | some revokedAt => revokedAt
  | none => min s.expiresAt (idleDeadline s)

/-! ### Being alive -/

variable {s : AuthSession} {db : Store} {now moment : Int} {w w' : World} {r : Request}
  {enforceCsrf writes : Bool} {es : List (Int × Event)} {e : Int × Event}

theorem active_iff :
    activeSessionConditions now s = true ↔
      s.revokedAt = none ∧ now < s.expiresAt ∧ now < idleDeadline s := by
  have hidle : now - sessionIdleWindow < s.lastSeenAt.getD s.createdAt ↔ now < idleDeadline s := by
    unfold idleDeadline effectiveLastSeen
    omega
  unfold activeSessionConditions
  simp only [Bool.and_eq_true, decide_eq_true_eq, Option.isNone_iff_eq_none, hidle, and_assoc]

theorem active_iff_deathTime :
    activeSessionConditions now s = true ↔ s.revokedAt = none ∧ now < deathTime s := by
  rw [active_iff]
  refine and_congr_right fun hrev => ?_
  simp only [deathTime, hrev]
  omega

theorem sweepable_iff :
    sweepable moment s = true ↔ deathTime s + sessionSweepRetention ≤ moment := by
  unfold sweepable deathTime
  cases s.revokedAt with
  | some revokedAt =>
    simp only [decide_eq_true_eq]
    omega
  | none =>
    simp only [Bool.or_eq_true, decide_eq_true_eq]
    unfold idleDeadline effectiveLastSeen
    omega

theorem retention_nonneg : 0 ≤ sessionSweepRetention := by decide

theorem not_sweepable_of_active
    (hact : activeSessionConditions moment s = true) : sweepable moment s = false := by
  rw [Bool.eq_false_iff]
  intro hsweep
  have hdeath := (active_iff_deathTime.mp hact).2
  have hlate := sweepable_iff.mp hsweep
  have hret := retention_nonneg
  omega

/-! ### Requests -/

theorem shows_iff :
    shows hash h r enforceCsrf = true ↔
      (∃ token, r.cookie = some token ∧ token ≠ "" ∧ hash token = h) ∧
        (enforceCsrf && !r.passesCsrf) = false := by
  unfold shows
  rw [Bool.and_eq_true, Option.any_eq_true]
  simp only [Bool.and_eq_true, decide_eq_true_eq, Bool.not_eq_true']

theorem contextOf_accepted (lastSeen : Int)
    (hown : ∀ id, s.userId = some id → (db.users.find id).isSome) :
    (contextOf db s lastSeen).accepted = true := by
  unfold contextOf
  cases huser : s.userId with
  | none => rfl
  | some id =>
    rcases Option.isSome_iff_exists.mp (hown id huser) with ⟨user, hfind⟩
    simp only [hfind]
    rfl

theorem users_maybeRefreshLastSeen (db : Store) (s : AuthSession) (now : Int) (writes : Bool) :
    (maybeRefreshLastSeen db s now writes).2.users = db.users := by
  unfold maybeRefreshLastSeen
  dsimp only
  split
  · rfl
  · split
    · rfl
    · rfl

theorem sessionAuthContext_of_shows (writes : Bool) (hshow : shows hash h r enforceCsrf = true)
    (hs : db.session h = some s) (hact : activeSessionConditions now s = true) :
    sessionAuthContext hash db r now enforceCsrf writes =
      (contextOf (maybeRefreshLastSeen db s now writes).2 s
          (maybeRefreshLastSeen db s now writes).1,
        (maybeRefreshLastSeen db s now writes).2) := by
  rcases shows_iff.mp hshow with ⟨⟨token, hcook, hne, hhash⟩, hcsrf⟩
  rcases active_iff.mp hact with ⟨hrev, hexp, hidle⟩
  have hfind : (db.session (hash token)).filter (·.revokedAt.isNone) = some s := by
    rw [hhash, hs, Option.filter_some_pos (hrev ▸ rfl)]
  have hlive : isIdleExpired s now = false := by
    unfold isIdleExpired
    rw [decide_eq_false_iff_not]
    omega
  simp only [sessionAuthContext, hcook, if_neg hne, hfind, if_neg (Int.not_le.mpr hexp), hlive,
    hcsrf, Bool.false_eq_true, if_false]

theorem sessionAuthContext_cases (hash : String → String) (db : Store) (r : Request)
    (now : Int) (enforceCsrf writes : Bool) :
    (∃ h s, shows hash h r enforceCsrf = true ∧ db.session h = some s ∧
        activeSessionConditions now s = true) ∨
      ((sessionAuthContext hash db r now enforceCsrf writes).1.accepted = false ∧
        (sessionAuthContext hash db r now enforceCsrf writes).2 = db) := by
  cases hcook : r.cookie with
  | none => exact .inr ⟨by simp [sessionAuthContext, hcook, Answer.accepted],
      by simp [sessionAuthContext, hcook]⟩
  | some token =>
    by_cases hne : token = ""
    · exact .inr ⟨by simp [sessionAuthContext, hcook, hne, Answer.accepted],
        by simp [sessionAuthContext, hcook, hne]⟩
    cases hfind : (db.session (hash token)).filter (·.revokedAt.isNone) with
    | none =>
      refine .inr ⟨?_, ?_⟩
      · simp only [sessionAuthContext, hcook, if_neg hne, hfind, Answer.accepted]
      · simp only [sessionAuthContext, hcook, if_neg hne, hfind]
    | some s =>
      have hs := Option.filter_eq_some_iff.mp hfind
      simp only [sessionAuthContext, hcook, if_neg hne, hfind]
      split
      · exact .inr ⟨rfl, rfl⟩
      rename_i hexp
      split
      · exact .inr ⟨rfl, rfl⟩
      rename_i hidle
      split
      · exact .inr ⟨rfl, rfl⟩
      rename_i hcsrf
      refine .inl ⟨hash token, s, ?_, hs.1, ?_⟩
      · exact shows_iff.mpr ⟨⟨token, hcook, hne, rfl⟩, by simpa using hcsrf⟩
      · refine active_iff.mpr ⟨Option.isNone_iff_eq_none.mp hs.2, Int.not_le.mp hexp, ?_⟩
        unfold isIdleExpired at hidle
        simpa using hidle

theorem accepted_iff_active (hshow : shows hash h r enforceCsrf = true)
    (hs : db.session h = some s) :
    (sessionAuthContext hash db r now enforceCsrf writes).1.accepted = true ↔
      activeSessionConditions now s = true := by
  constructor
  · intro hacc
    rcases sessionAuthContext_cases hash db r now enforceCsrf writes with
      ⟨h', s', hshow', hs', hact⟩ | ⟨hno, -⟩
    · rcases shows_iff.mp hshow with ⟨⟨token, hcook, -, rfl⟩, -⟩
      rcases shows_iff.mp hshow' with ⟨⟨token', hcook', -, rfl⟩, -⟩
      obtain rfl := Option.some.inj (hcook.symm.trans hcook')
      obtain rfl := Option.some.inj (hs.symm.trans hs')
      exact hact
    · rw [hno] at hacc
      contradiction
  · intro hact
    rw [sessionAuthContext_of_shows writes hshow hs hact]
    refine contextOf_accepted _ fun id hid => ?_
    rw [users_maybeRefreshLastSeen]
    exact db.owned s (Table.find_eq_some.mp hs).1 id hid

theorem accepted_iff :
    (sessionAuthContext hash db r now enforceCsrf writes).1.accepted = true ↔
      ∃ h s, shows hash h r enforceCsrf = true ∧ db.session h = some s ∧
        activeSessionConditions now s = true := by
  constructor
  · intro hacc
    rcases sessionAuthContext_cases hash db r now enforceCsrf writes with
      hcase | ⟨hno, -⟩
    · exact hcase
    · rw [hno] at hacc
      contradiction
  · intro ⟨h, s, hshow, hs, hact⟩
    exact (accepted_iff_active hshow hs).mpr hact

/-! ### What a step does to a row -/

/-- What an event can do to the row of a session. -/
inductive RowChange (hash : String → String) (h : String) (db : Store) (e : Int × Event) :
    Option AuthSession → Option AuthSession → Prop
  | kept (row : Option AuthSession) : e.2.mints hash h = false →
      refreshes hash h db e = false → RowChange hash h db e row row
  | minted (userId : Option Nat) : e.2.mints hash h = true → h ∉ db.minted →
      RowChange hash h db e none (some (mintedSession e.1 h userId))
  | seen (s : AuthSession) : e.2.mints hash h = false → refreshes hash h db e = true →
      activeSessionConditions e.1 s = true →
      RowChange hash h db e (some s) (some { s with lastSeenAt := some e.1 })
  | revoked (s : AuthSession) (stamp : Int) : e.2.mints hash h = false →
      refreshes hash h db e = false → s.revokedAt = none →
      RowChange hash h db e (some s) (some { s with revokedAt := some stamp })
  | swept (s : AuthSession) : e.2.mints hash h = false → refreshes hash h db e = false →
      sweepable e.1 s = true → RowChange hash h db e (some s) none

theorem mem_minted (hs : db.session h = some s) : h ∈ db.minted := by
  rcases Table.find_eq_some.mp hs with ⟨hmem, rfl⟩
  exact db.known s hmem

theorem session_stageBrowserSession {db' : Store} {tokenHash : String} {userId : Option Nat}
    (hstg : stageBrowserSession db now tokenHash userId = some db') :
    tokenHash ∉ db.minted ∧ db'.minted = tokenHash :: db.minted ∧
      ∀ h, db'.session h = if tokenHash = h then some (mintedSession now h userId)
        else db.session h := by
  unfold stageBrowserSession at hstg
  split at hstg
  · contradiction
  rename_i hnew
  split at hstg
  · cases hstg
    refine ⟨hnew, rfl, fun h => ?_⟩
    -- No row has the digest yet, for it would have been minted before.
    have hnone : db.session tokenHash = none := by
      cases hfind : db.session tokenHash with
      | none => rfl
      | some s => exact absurd (mem_minted hfind) hnew
    by_cases hh : tokenHash = h
    · subst hh
      unfold Store.session at hnone ⊢
      rw [Table.find_insert, hnone, if_pos rfl]
      simp [mintedSession]
    · unfold Store.session
      rw [Table.find_insert, if_neg hh]
      simp [mintedSession, hh]
  · contradiction

theorem session_rewrite (db : Store) (f : AuthSession → AuthSession)
    (hhash : ∀ s, (f s).tokenHash = s.tokenHash) (huser : ∀ s, (f s).userId = s.userId)
    (h : String) : (db.rewrite f hhash huser).session h = (db.session h).map f :=
  Table.find_rewrite _ f hhash h

theorem session_keep (db : Store) (p : AuthSession → Bool) (h : String) :
    (db.keep p).session h = (db.session h).filter p :=
  Table.find_filter _ _ _

theorem session_maybeRefreshLastSeen (db : Store) (s : AuthSession) (now : Int) (writes : Bool)
    (h : String) :
    (maybeRefreshLastSeen db s now writes).2.session h =
      if sessionLastSeenRefreshInterval ≤ now - effectiveLastSeen s && writes
      then (db.session h).map (AuthSession.seen now s.tokenHash) else db.session h := by
  unfold maybeRefreshLastSeen
  by_cases hdue : sessionLastSeenRefreshInterval ≤ now - effectiveLastSeen s
  · have hnot : ¬ now - effectiveLastSeen s < sessionLastSeenRefreshInterval := by omega
    cases writes with
    | false => simp [hnot]
    | true => simp [hnot, hdue, session_rewrite]
  · have hyoung : now - effectiveLastSeen s < sessionLastSeenRefreshInterval := by omega
    simp [hyoung, hdue]

theorem rowChange_revoke (hmint : e.2.mints hash h = false) (hqt : refreshes hash h db e = false)
    (p : AuthSession → Bool) (stamp : Int) :
    RowChange hash h db e (db.session h) ((db.revoke p stamp).session h) := by
  unfold Store.revoke
  rw [session_rewrite]
  cases db.session h with
  | none => exact .kept none hmint hqt
  | some s =>
    rw [Option.map_some]
    unfold AuthSession.revoke
    split
    · rename_i hstm
      refine .revoked s stamp hmint hqt ?_
      exact Option.isNone_iff_eq_none.mp (Bool.and_eq_true_iff.mp hstm).1
    · exact .kept (some s) hmint hqt

theorem rowChange_sweep :
    RowChange hash h db (now, .sweep) (db.session h) ((sweepDeadSessions db now).session h) := by
  unfold sweepDeadSessions
  rw [session_keep]
  cases db.session h with
  | none => exact .kept none rfl rfl
  | some s =>
    by_cases hsweep : sweepable now s = true
    · rw [Option.filter_some_neg (by simp [hsweep])]
      exact .swept s rfl rfl hsweep
    · rw [Option.filter_some_pos (by simpa using hsweep)]
      exact .kept (some s) rfl rfl

theorem rowChange_request :
    RowChange hash h db (now, .request r enforceCsrf writes) (db.session h)
      ((sessionAuthContext hash db r now enforceCsrf writes).2.session h) := by
  rcases sessionAuthContext_cases hash db r now enforceCsrf writes with
    ⟨h', s, hshow, hs, hact⟩ | ⟨hno, hsame⟩
  · have hacc : (sessionAuthContext hash db r now enforceCsrf writes).1.accepted = true :=
      (accepted_iff_active hshow hs).mpr hact
    rw [sessionAuthContext_of_shows writes hshow hs hact]
    rw [session_maybeRefreshLastSeen, Table.key_of_find hs]
    by_cases hh : h' = h
    · subst hh
      have hdue : refreshDue h' db now =
          decide (sessionLastSeenRefreshInterval ≤ now - effectiveLastSeen s) := by
        unfold refreshDue
        rw [hs, Option.any_some]
      have hkey := Table.key_of_find hs
      have hrefr : refreshes hash h' db (now, .request r enforceCsrf writes) =
          (decide (sessionLastSeenRefreshInterval ≤ now - effectiveLastSeen s) && writes) := by
        simp only [refreshes, hshow, hacc, hdue, Bool.true_and]
      split
      · rename_i hwr
        rw [hs, Option.map_some, AuthSession.seen, if_pos hkey]
        exact .seen s rfl (hrefr.trans hwr) hact
      · rename_i hwr
        exact .kept _ rfl (hrefr.trans (Bool.not_eq_true _ ▸ hwr))
    · -- The cookie belongs to another row, and this one is not its own.
      have hoth : shows hash h r enforceCsrf = false := by
        rw [Bool.eq_false_iff]
        intro hshow'
        rcases shows_iff.mp hshow with ⟨⟨token, hcook, -, rfl⟩, -⟩
        rcases shows_iff.mp hshow' with ⟨⟨token', hcook', -, rfl⟩, -⟩
        exact hh (congrArg hash (Option.some.inj (hcook.symm.trans hcook')))
      have hqt : refreshes hash h db (now, .request r enforceCsrf writes) = false := by
        simp only [refreshes, hoth, Bool.false_and]
      have hkeep : (db.session h).map (AuthSession.seen now h') = db.session h := by
        cases hrow : db.session h with
        | none => rfl
        | some s' =>
          have hne : s'.tokenHash ≠ h' := by
            rw [Table.key_of_find hrow]
            exact fun heq => hh heq.symm
          rw [Option.map_some, AuthSession.seen, if_neg hne]
      rw [hkeep, ite_self]
      exact .kept _ rfl hqt
  · rw [hsame]
    refine .kept _ rfl ?_
    simp only [refreshes, hno, Bool.and_false, Bool.false_and]

theorem step_row (hstep : step hash w e = some w') :
    w'.clock = e.1 ∧ w.clock ≤ e.1 ∧ (∀ k ∈ w.db.minted, k ∈ w'.db.minted) ∧
      RowChange hash h w.db e (w.db.session h) (w'.db.session h) := by
  rcases e with ⟨now, event⟩
  unfold step at hstep
  split at hstep
  · contradiction
  rename_i hclk
  have hle : w.clock ≤ now := Int.not_lt.mp hclk
  cases event with
  | signIn token userId =>
    rcases Option.map_eq_some_iff.mp hstep with ⟨db, hstg, rfl⟩
    rcases session_stageBrowserSession hstg with ⟨hnew, hmint, hsess⟩
    refine ⟨rfl, hle, fun k hk => hmint ▸ List.mem_cons_of_mem _ hk, ?_⟩
    rw [hsess]
    split
    · rename_i heq
      subst heq
      cases hrow : w.db.session (hash token) with
      | none => exact .minted userId (decide_eq_true rfl) hnew
      | some s => exact absurd (mem_minted hrow) hnew
    · rename_i hne
      exact .kept _ (decide_eq_false hne) rfl
  | request r enforceCsrf writes =>
    cases hstep
    refine ⟨rfl, hle, ?_, rowChange_request⟩
    rcases sessionAuthContext_cases hash w.db r now enforceCsrf writes with
      ⟨h', s, hshow, hs, hact⟩ | ⟨-, hsame⟩
    · rw [sessionAuthContext_of_shows writes hshow hs hact]
      intro k hk
      unfold maybeRefreshLastSeen
      dsimp only
      split
      · exact hk
      · split
        · exact hk
        · exact hk
    · rw [hsame]
      exact fun k hk => hk
  | revokeUser userId stamp createdAtOrBefore userMatches | revokeRecovery | logout token =>
    cases hstep
    exact ⟨rfl, hle, fun k hk => hk, rowChange_revoke rfl rfl _ _⟩
  | sweep =>
    cases hstep
    exact ⟨rfl, hle, fun k hk => hk, rowChange_sweep⟩

/-! ### Runs -/

theorem visits_start (w : World) (es : List (Int × Event)) : Visits hash w es w :=
  ⟨[], es, rfl, rfl⟩

theorem Visits.cons {m : World} (hstep : step hash w e = some w') (hvis : Visits hash w' es m) :
    Visits hash w (e :: es) m := by
  rcases hvis with ⟨as, bs, rfl, hrun⟩
  exact ⟨e :: as, bs, rfl, (run_cons_eq_some _ _ _ _).mpr ⟨w', hstep, hrun⟩⟩

section

variable (hrun : run (step hash) w es = some w')
include hrun

theorem run_clock : w.clock ≤ w'.clock := by
  refine invariant_of_run (I := fun m : World => w.clock ≤ m.clock) ?_ w w' es (Int.le_refl _) hrun
  intro m e m' hle hstep
  rcases step_row (h := "") hstep with ⟨hclk, htime, -, -⟩
  omega

theorem clock_le_uses
 : ∀ u ∈ uses hash h es, w.clock ≤ u := by
  induction es generalizing w with
  | nil =>
    intro u hu
    cases hu
  | cons e es ih =>
    rcases (run_cons_eq_some _ _ _ _).mp hrun with ⟨w₁, hstep, hrest⟩
    rcases step_row (h := h) hstep with ⟨hclk, htime, -, -⟩
    intro u hu
    rcases List.mem_filterMap.mp hu with ⟨e', he', hshow⟩
    rcases List.mem_cons.mp he' with rfl | he'
    · have hat : e'.1 = u := by
        revert hshow
        cases e'.2 with
        | request r enforceCsrf writes =>
          dsimp only
          split
          · exact Option.some.inj
          · intro hnone
            cases hnone
        | _ =>
          intro hnone
          cases hnone
      omega
    · have hnext := ih hrest u (List.mem_filterMap.mpr ⟨e', he', hshow⟩)
      omega

theorem run_gone (hmint : h ∈ w.db.minted)
    (hgone : w.db.session h = none) : w'.db.session h = none := by
  refine (invariant_of_run (I := fun m : World => h ∈ m.db.minted ∧ m.db.session h = none)
    ?_ w w' es ⟨hmint, hgone⟩ hrun).2
  intro m e m' ⟨hmint, hgone⟩ hstep
  rcases step_row hstep with ⟨-, -, hkeep, hrow⟩
  refine ⟨hkeep h hmint, ?_⟩
  rw [hgone] at hrow
  generalize m'.db.session h = row at hrow
  cases hrow with
  | kept => rfl
  | minted userId _ hnew => exact absurd hmint hnew

theorem run_unrevoked {s' : AuthSession}
    (hs' : w'.db.session h = some s') (hrev : s'.revokedAt = none) :
    ∀ s, w.db.session h = some s → s.revokedAt = none ∧ s.expiresAt = s'.expiresAt := by
  induction es generalizing w with
  | nil =>
    cases hrun
    intro s hs
    obtain rfl := Option.some.inj (hs.symm.trans hs')
    exact ⟨hrev, rfl⟩
  | cons e es ih =>
    rcases (run_cons_eq_some _ _ _ _).mp hrun with ⟨w₁, hstep, hrest⟩
    rcases step_row hstep with ⟨-, -, hkeep, hrow⟩
    intro s hs
    have hmint : h ∈ w₁.db.minted := hkeep h (mem_minted hs)
    cases hs₁ : w₁.db.session h with
    | none =>
      -- The row would be gone for good.
      have hgone := run_gone hrest hmint hs₁
      rw [hs'] at hgone
      contradiction
    | some s₁ =>
      have hlast := ih hrest s₁ hs₁
      rw [hs, hs₁] at hrow
      cases hrow with
      | kept | seen => exact hlast
      | revoked _ stamp =>
        have hnone : some stamp = none := hlast.1
        contradiction

end

theorem run_activity {last : Option Int}
    (hlast : ∀ s, w.db.session h = some s → last = some (effectiveLastSeen s))
    (hrun : run (step hash) w es = some w') :
    ∀ s, w'.db.session h = some s →
      lastActivity hash h last w es = some (effectiveLastSeen s) := by
  induction es generalizing w last with
  | nil =>
    cases hrun
    exact hlast
  | cons e es ih =>
    rcases (run_cons_eq_some _ _ _ _).mp hrun with ⟨w₁, hstep, hrest⟩
    rcases step_row hstep with ⟨-, -, -, hrow⟩
    simp only [lastActivity, hstep]
    refine ih ?_ hrest
    intro s₁ hs₁
    rw [hs₁] at hrow
    generalize w.db.session h = row at hrow hlast
    cases hrow with
    | kept _ hmint hqt =>
      rw [hmint, hqt]
      exact hlast s₁ rfl
    | minted userId hmint hnew =>
      rw [hmint]
      rfl
    | seen s hmint hrefr =>
      rw [hmint, hrefr]
      rfl
    | revoked s stamp hmint hqt =>
      rw [hmint, hqt]
      exact hlast s rfl

/-! ### Steady use -/

-- The row of a live session after a step. It is only revoked or kept, and its time of being
-- seen is that of the step if this refreshes it.
theorem step_of_active (hstep : step hash w e = some w') (hs : w.db.session h = some s)
    (hact : activeSessionConditions e.1 s = true) :
    ∃ s', w'.db.session h = some s' ∧ s'.expiresAt = s.expiresAt ∧
      effectiveLastSeen s' = if refreshes hash h w.db e then e.1 else effectiveLastSeen s := by
  rcases step_row hstep with ⟨-, -, -, hrow⟩
  rw [hs] at hrow
  generalize w'.db.session h = row at hrow
  cases hrow with
  | kept _ hmint hqt => exact ⟨s, rfl, rfl, by rw [hqt]; rfl⟩
  | seen _ hmint hrefr => exact ⟨_, rfl, rfl, by rw [hrefr]; rfl⟩
  | revoked _ stamp hmint hqt => exact ⟨_, rfl, rfl, by rw [hqt]; rfl⟩
  | swept _ hmint hqt hsweep =>
    rw [not_sweepable_of_active hact] at hsweep
    contradiction

-- The use of a live session refreshes it if that is due and the write goes through.
theorem refreshes_of_active (hshow : shows hash h r enforceCsrf = true)
    (hs : db.session h = some s) (hact : activeSessionConditions now s = true)
    (hsucc : refreshFails hash h db (now, .request r enforceCsrf writes) = false) :
    refreshes hash h db (now, .request r enforceCsrf writes) = true ↔
      sessionLastSeenRefreshInterval ≤ now - effectiveLastSeen s := by
  have hacc : (sessionAuthContext hash db r now enforceCsrf writes).1.accepted = true :=
    (accepted_iff_active hshow hs).mpr hact
  have hdue : refreshDue h db now =
      decide (sessionLastSeenRefreshInterval ≤ now - effectiveLastSeen s) := by
    unfold refreshDue
    rw [hs, Option.any_some]
  simp only [refreshFails, hshow, hdue, Bool.true_and] at hsucc
  simp only [refreshes, hshow, hacc, hdue, Bool.true_and, Bool.and_eq_true, decide_eq_true_eq]
  refine and_iff_left_of_imp fun hold => ?_
  rw [decide_eq_true hold, Bool.true_and, Bool.not_eq_false'] at hsucc
  exact hsucc

theorem uses_cons (hash : String → String) (h : String) (e : Int × Event)
    (es : List (Int × Event)) :
    (∃ r enforceCsrf writes, e.2 = .request r enforceCsrf writes ∧
        shows hash h r enforceCsrf = true ∧ uses hash h (e :: es) = e.1 :: uses hash h es) ∨
      (uses hash h (e :: es) = uses hash h es ∧ ∀ db, refreshes hash h db e = false) := by
  rcases e with ⟨now, event⟩
  cases event with
  | request r enforceCsrf writes =>
    by_cases hshow : shows hash h r enforceCsrf = true
    · exact .inl ⟨r, enforceCsrf, writes, rfl, hshow, by simp [uses, hshow]⟩
    · refine .inr ⟨by simp [uses, hshow], fun db => ?_⟩
      simp only [refreshes, (by simpa using hshow), Bool.false_and]
  | signIn => exact .inr ⟨by simp [uses], fun _ => rfl⟩
  | revokeUser | revokeRecovery | logout | sweep => exact .inr ⟨by simp [uses], fun _ => rfl⟩

theorem le_head_of_forall {us : List Int} {t u : Int} (hus : ∀ u ∈ us, now ≤ u) (ht : now ≤ t)
    (hhead : u ∈ (us ++ [t]).head?) : now ≤ u := by
  have hmem : u ∈ us ++ [t] := List.mem_of_head? hhead
  rcases List.mem_append.mp hmem with hu | hu
  · exact hus u hu
  · rw [List.mem_singleton] at hu
    omega

-- A session that is used again before its window less the refresh interval has passed, and is
-- not revoked, is alive until its end.
theorem run_steady {last t : Int} (hrun : run (step hash) w es = some w')
    (hs : w.db.session h = some s)
    (hrev : ∀ m, Visits hash w es m → ∀ s', m.db.session h = some s' → s'.revokedAt = none)
    (hsucc : StepsMeet (step hash) (fun m e => refreshFails hash h m.db e = false) w es)
    (hlast : last - effectiveLastSeen s < sessionLastSeenRefreshInterval) (ht : w'.clock ≤ t)
    (hexp : t < s.expiresAt)
    (huses : List.IsChain (fun a b => b ≤ a + (sessionIdleWindow - sessionLastSeenRefreshInterval))
      (last :: (uses hash h es ++ [t]))) :
    ∃ s', w'.db.session h = some s' ∧ activeSessionConditions t s' = true := by
  induction es generalizing w s last with
  | nil =>
    obtain rfl := Option.some.inj hrun
    have hgap := (List.isChain_cons.mp huses).1 t rfl
    refine ⟨s, hs, active_iff.mpr ⟨hrev w (visits_start w []) s hs, hexp, ?_⟩⟩
    unfold idleDeadline
    omega
  | cons e es ih =>
    rcases (run_cons_eq_some _ _ _ _).mp hrun with ⟨w₁, hstep, hrest⟩
    rcases step_row (h := h) hstep with ⟨hclk, -, -, -⟩
    have hthen := run_clock hrest
    have hus : ∀ u ∈ uses hash h es, e.1 ≤ u := fun u hu => hclk ▸ clock_le_uses hrest u hu
    -- The session is alive at this event, since the next use is not far off.
    have hlive : e.1 ≤ last + (sessionIdleWindow - sessionLastSeenRefreshInterval) →
        activeSessionConditions e.1 s = true := by
      intro hgap
      refine active_iff.mpr ⟨hrev w (visits_start w _) s hs, by omega, ?_⟩
      unfold idleDeadline
      omega
    have hrev' : ∀ m, Visits hash w₁ es m → ∀ s', m.db.session h = some s' →
        s'.revokedAt = none := fun m hm => hrev m (hm.cons hstep)
    simp only [StepsMeet, hstep] at hsucc
    rcases uses_cons hash h e es with
      ⟨r, enforceCsrf, writes, hev, hshow, huse⟩ | ⟨huse, hqt⟩
    · rw [huse, List.cons_append, List.isChain_cons] at huses
      have hact := hlive (huses.1 e.1 rfl)
      rcases step_of_active hstep hs hact with ⟨s₁, hs₁, hexp₁, hseen⟩
      have hrefr := refreshes_of_active hshow hs hact (by rw [← hev]; exact hsucc.1)
      rw [← hev] at hrefr
      refine ih hrest hs₁ hrev' hsucc.2 ?_ (by omega) huses.2
      rw [hseen]
      split
      · have hpos : 0 < sessionLastSeenRefreshInterval := by decide
        omega
      · rename_i hyoung
        exact Int.not_le.mp fun hold => hyoung (hrefr.mpr hold)
    · rw [huse] at huses
      have hnext : ∀ u ∈ (uses hash h es ++ [t]).head?, e.1 ≤ u :=
        fun u hu => le_head_of_forall hus (by omega) hu
      have hgap : e.1 ≤ last + (sessionIdleWindow - sessionLastSeenRefreshInterval) := by
        have hch := (List.isChain_cons.mp huses).1
        cases hhead : (uses hash h es ++ [t]).head? with
        | none => simp at hhead
        | some u =>
          have hu := hnext u hhead
          have hle := hch u hhead
          omega
      rcases step_of_active hstep hs (hlive hgap) with ⟨s₁, hs₁, hexp₁, hseen⟩
      rw [hqt w.db] at hseen
      refine ih hrest hs₁ hrev' hsucc.2 ?_ (by omega) huses
      rw [hseen]
      exact hlast

/-! ### The sweep -/

theorem mem_sweepDeadSessions :
    s ∈ (sweepDeadSessions db moment).sessions.rows ↔
      s ∈ db.sessions.rows ∧
        ¬ (activeSessionConditions moment s = false ∧
          deathTime s + sessionSweepRetention ≤ moment) := by
  have hdead : activeSessionConditions moment s = false ∧
      deathTime s + sessionSweepRetention ≤ moment ↔ sweepable moment s = true := by
    rw [sweepable_iff]
    refine and_iff_right_of_imp fun hlate => ?_
    rw [Bool.eq_false_iff]
    intro hact
    have hdeath := (active_iff_deathTime.mp hact).2
    have hret := retention_nonneg
    omega
  rw [hdead]
  unfold sweepDeadSessions Store.keep
  simp only [Table.filter, List.mem_filter, Bool.not_eq_true', Bool.not_eq_true]

/-! ### The lifecycle -/

/-- The events of a run, and what holds at any time after it. The query for live
    sessions agrees with the check of a request. A request is only accepted for a
    session that was never revoked in the run, has not reached its end, and was seen
    within the window before it. A session in steady use whose refreshes go through is
    accepted until it ends or is revoked. And the sweep deletes the rows that have been
    dead for long enough. -/
theorem session_lifecycle {w w' : World} {es : List (Int × Event)}
    (hrun : run (step hash) w es = some w') {t : Int} (ht : w'.clock ≤ t) :
    (∀ s ∈ w'.db.sessions.rows, ∀ r enforceCsrf writes,
      shows hash s.tokenHash r enforceCsrf = true →
      (activeSessionConditions t s = true ↔
        (sessionAuthContext hash w'.db r t enforceCsrf writes).1.accepted = true)) ∧
    (∀ r enforceCsrf writes,
      (sessionAuthContext hash w'.db r t enforceCsrf writes).1.accepted = true →
      ∃ h s, shows hash h r enforceCsrf = true ∧ w'.db.session h = some s ∧
        (∀ m, Visits hash w es m → ∀ s', m.db.session h = some s' →
          s'.revokedAt = none ∧ t < s'.expiresAt) ∧
        ∃ last, lastActivity hash h ((w.db.session h).map effectiveLastSeen) w es = some last ∧
          t < last + sessionIdleWindow) ∧
    (∀ h s last r enforceCsrf writes, w.db.session h = some s →
      last - effectiveLastSeen s < sessionLastSeenRefreshInterval →
      StepsMeet (step hash) (fun m e => refreshFails hash h m.db e = false) w es →
      List.IsChain (fun a b => b ≤ a + (sessionIdleWindow - sessionLastSeenRefreshInterval))
        (last :: (uses hash h es ++ [t])) →
      shows hash h r enforceCsrf = true →
      (sessionAuthContext hash w'.db r t enforceCsrf writes).1.accepted = true ∨
        s.expiresAt ≤ t ∨
        ∃ m, Visits hash w es m ∧ ∃ s', m.db.session h = some s' ∧ s'.revokedAt ≠ none) ∧
    (∀ s, s ∈ (sweepDeadSessions w'.db t).sessions.rows ↔
      s ∈ w'.db.sessions.rows ∧
        ¬ (activeSessionConditions t s = false ∧ deathTime s + sessionSweepRetention ≤ t)) := by
  refine ⟨?_, ?_, ?_, fun s => mem_sweepDeadSessions⟩
  · intro s hs r enforceCsrf writes hshow
    have hrow : w'.db.session s.tokenHash = some s := Table.find_eq_some.mpr ⟨hs, rfl⟩
    exact (accepted_iff_active hshow hrow).symm
  · intro r enforceCsrf writes hacc
    rcases accepted_iff.mp hacc with ⟨h, s, hshow, hs, hact⟩
    rcases active_iff.mp hact with ⟨hrev, hexp, hidle⟩
    refine ⟨h, s, hshow, hs, ?_, ?_⟩
    · intro m ⟨as, bs, hspl, hto⟩ s' hs'
      rw [hspl] at hrun
      rcases (run_append_eq_some _ _ _ _).mp hrun with ⟨m', hto', hfrom⟩
      obtain rfl := Option.some.inj (hto.symm.trans hto')
      -- Had it been revoked on the way, it would be so at the end.
      rcases run_unrevoked hfrom hs hrev s' hs' with ⟨hrev', hsame⟩
      exact ⟨hrev', by omega⟩
    · refine ⟨effectiveLastSeen s, run_activity ?_ hrun s hs, hidle⟩
      intro s' hs'
      rw [hs', Option.map_some]
  · intro h s last r enforceCsrf writes hs hlast hsucc huses hshow
    by_cases hexp : s.expiresAt ≤ t
    · exact .inr (.inl hexp)
    by_cases hrev : ∃ m, Visits hash w es m ∧
        ∃ s', m.db.session h = some s' ∧ s'.revokedAt ≠ none
    · exact .inr (.inr hrev)
    -- Not over and never revoked, the session was in steady use.
    · refine .inl ?_
      have hunrevoked : ∀ m, Visits hash w es m → ∀ s', m.db.session h = some s' →
          s'.revokedAt = none := by
        intro m hm s' hs'
        by_contra hrevoked
        exact hrev ⟨m, hm, s', hs', hrevoked⟩
      rcases run_steady hrun hs hunrevoked hsucc hlast ht (by omega) huses with
        ⟨s', hs', hact⟩
      exact (accepted_iff_active hshow hs').mpr hact

def vacant : World where
  clock := 0
  db :=
    { users := Table.empty, sessions := Table.empty, minted := []
      owned := Store.owned_empty
      known := Store.known_empty }

/-- A recovery session that is used once, six days in. -/
def recoveryVisit : List (Int × Event) :=
  [(0, .signIn "token" none),
    (seconds 518400, .request { cookie := some "token" } true true)]

/-- It is still accepted twelve days in. -/
theorem recoveryVisit_accepted :
    ∃ w, run (step id) vacant recoveryVisit = some w ∧
      (sessionAuthContext id w.db { cookie := some "token" } (seconds 1036800) true true).1.accepted
        = true := by
  refine exists_run (P := fun w => w.clock ≤ seconds 1036800 ∧ ∃ s ∈ w.db.sessions.rows,
    shows id s.tokenHash { cookie := some "token" } true = true ∧
      activeSessionConditions (seconds 1036800) s = true) (by decide) ?_
  rintro w hw ⟨hclk, s, hs, hshow, hact⟩
  exact ((session_lifecycle hw hclk).1 s hs _ true true hshow).mp hact

end Sessions

end PlexManager
