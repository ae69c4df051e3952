import PlexManager.Lib.KeyedTable
import PlexManager.Lib.Transition

/-!
# Browser sessions

A browser signs in once and is known by a cookie from then on. Of the cookie only
a digest is stored, in a row with the time at which the session ends at the
latest. It ends before that if it is revoked, or if it has not been seen for a
week. Being seen is written down at most once an hour, and where that write fails
the request goes on without it.

What has ended is kept for another week, counted from the revocation if there was
one, and then a sweep deletes it.

Instants and durations are in microseconds. The time at which a row was created is
the one column that the database fills in, and its clock shows whole seconds.
-/

namespace PlexManager

namespace Sessions

open KeyedTable

/-! ### Durations -/

def seconds (n : Int) : Int := n * 1000000

def sessionIdleWindow : Int := seconds (7 * 24 * 3600)

def sessionLastSeenRefreshInterval : Int := seconds 3600

def sessionSweepRetention : Int := seconds (7 * 24 * 3600)

/-- `_SESSION_DAYS`. -/
def sessionLifetime : Int := seconds (30 * 24 * 3600)

variable (db : Store) (p : AuthSession → Bool) (s : AuthSession) (now : Int) (tokenHash : String)
  (stamp : Int)

def currentTimestamp : Int := now / 1000000 * 1000000

/-! ### Rows -/

structure User where
  id : Nat
  plexId : Int
  username : String
  email : Option String := none
  avatarUrl : Option String := none
  permissions : Int := 0
  deriving DecidableEq, Repr

/-- A session without a user was minted with the recovery key. -/
structure AuthSession where
  tokenHash : String
  userId : Option Nat
  createdAt : Int
  expiresAt : Int
  revokedAt : Option Int := none
  lastSeenAt : Option Int := none
  deriving DecidableEq, Repr

/-- The sessions and their users. The digests of all tokens there have been are
    kept: a token is drawn at random and is not drawn again. -/
structure Store where
  users : Table User.id
  sessions : Table AuthSession.tokenHash
  minted : List String
  owned : ∀ s ∈ sessions.rows, ∀ id, s.userId = some id → (users.find id).isSome
  known : ∀ s ∈ sessions.rows, s.tokenHash ∈ minted

theorem Store.owned_empty : ∀ s ∈ (Table.empty : Table AuthSession.tokenHash).rows, ∀ id,
    s.userId = some id → ((Table.empty : Table User.id).find id).isSome :=
  nofun

theorem Store.known_empty : ∀ s ∈ (Table.empty : Table AuthSession.tokenHash).rows,
    s.tokenHash ∈ ([] : List String) :=
  nofun

def Store.session : Option AuthSession :=
  db.sessions.find tokenHash

/-! ### The idle window -/

/-- `session_effective_last_seen`. -/
def effectiveLastSeen : Int := s.lastSeenAt.getD s.createdAt

/-- `session_idle_deadline`. -/
def idleDeadline : Int := effectiveLastSeen s + sessionIdleWindow

/-- `session_is_idle_expired`. -/
def isIdleExpired : Bool := idleDeadline s ≤ now

def activeSessionConditions (s : AuthSession) : Bool :=
  s.revokedAt.isNone && now < s.expiresAt &&
    now - sessionIdleWindow < s.lastSeenAt.getD s.createdAt

/-! ### Writes that keep the rows -/

def Store.rewrite (db : Store) (f : AuthSession → AuthSession)
    (hhash : ∀ s, (f s).tokenHash = s.tokenHash) (huser : ∀ s, (f s).userId = s.userId) :
    Store where
  users := db.users
  sessions := db.sessions.rewrite f hhash
  minted := db.minted
  owned := by
    intro s hs id hid
    rcases List.mem_map.mp hs with ⟨r, hr, rfl⟩
    rw [huser] at hid
    exact db.owned r hr id hid
  known := by
    intro s hs
    rcases List.mem_map.mp hs with ⟨r, hr, rfl⟩
    rw [hhash]
    exact db.known r hr

def Store.keep : Store where
  users := db.users
  sessions := db.sessions.filter p
  minted := db.minted
  owned := fun s hs => db.owned s (List.mem_of_mem_filter hs)
  known := fun s hs => db.known s (List.mem_of_mem_filter hs)

/-! ### Sign-in -/

def mintedSession (userId : Option Nat) : AuthSession :=
  { tokenHash, userId
    createdAt := currentTimestamp now
    expiresAt := now + sessionLifetime
    lastSeenAt := some now }

/-- `_stage_browser_session` with its commit, or `none` where the token was there
    before or there is no such user. -/
def stageBrowserSession (userId : Option Nat) :
    Option Store :=
  if hfresh : tokenHash ∈ db.minted then none
  else if howner : ∀ id, userId = some id → (db.users.find id).isSome then
    some
      { users := db.users
        sessions := db.sessions.insert (mintedSession now tokenHash userId)
        minted := tokenHash :: db.minted
        owned := by
          intro s hs id hid
          rcases Table.mem_insert hs with hs | rfl
          · exact db.owned s hs id hid
          · exact howner id hid
        known := by
          intro s hs
          rcases Table.mem_insert hs with hs | rfl
          · exact List.mem_cons_of_mem _ (db.known s hs)
          · exact List.mem_cons_self }
  else none

/-! ### Requests -/

/-- What a request carries: the session cookie, whether its method is an unsafe one,
    and both halves of the CSRF token. -/
structure Request where
  cookie : Option String
  unsafeMethod : Bool := false
  csrfHeader : Option String := none
  csrfCookie : Option String := none
  deriving DecidableEq, Repr

/-- `_require_csrf_for_session`, as a test. -/
def Request.passesCsrf (r : Request) : Bool :=
  !r.unsafeMethod || match r.csrfHeader, r.csrfCookie with
    | some header, some cookie => header ≠ "" && cookie ≠ "" && header = cookie
    | _, _ => false

inductive AuthMethod where
  | apiKey
  | plexSession
  deriving DecidableEq, Repr

structure AuthContext where
  method : AuthMethod
  user : Option User
  isAdmin : Bool
  sessionExpiresAt : Int
  sessionIdleDeadline : Int
  deriving DecidableEq, Repr

def AuthSession.seen (s : AuthSession) : AuthSession :=
  if s.tokenHash = tokenHash then { s with lastSeenAt := some now } else s

theorem AuthSession.tokenHash_seen (s : AuthSession) :
    (s.seen now tokenHash).tokenHash = s.tokenHash := by
  unfold seen
  split
  · rfl
  · rfl

theorem AuthSession.userId_seen (s : AuthSession) : (s.seen now tokenHash).userId = s.userId := by
  unfold seen
  split
  · rfl
  · rfl

/-- `_maybe_refresh_last_seen`, with whether the write goes through. -/
def maybeRefreshLastSeen (writes : Bool) :
    Int × Store :=
  let effective := effectiveLastSeen s
  if now - effective < sessionLastSeenRefreshInterval then (effective, db)
  else if writes then
    (now, db.rewrite (AuthSession.seen now s.tokenHash)
      (AuthSession.tokenHash_seen now s.tokenHash) (AuthSession.userId_seen now s.tokenHash))
  else (effective, db)

/-- The answer to a request: a context or none, or `csrf_token_required`. -/
inductive Answer where
  | context (c : AuthContext)
  | anonymous
  | csrfTokenRequired
  deriving DecidableEq, Repr

def Answer.accepted : Answer → Bool
  | context _ => true
  | _ => false

def contextOf (lastSeen : Int) : Answer :=
  match s.userId with
  | none => .context
      { method := .apiKey, user := none, isAdmin := true, sessionExpiresAt := s.expiresAt
        sessionIdleDeadline := lastSeen + sessionIdleWindow }
  | some id =>
      match db.users.find id with
      | none => .anonymous
      | some user => .context
          { method := .plexSession, user := some user, isAdmin := 0 < user.permissions
            sessionExpiresAt := s.expiresAt
            sessionIdleDeadline := lastSeen + sessionIdleWindow }

def sessionAuthContext (hash : String → String) (db : Store) (r : Request) (now : Int)
    (enforceCsrf writes : Bool) : Answer × Store :=
  match r.cookie with
  | none => (.anonymous, db)
  | some token =>
      if token = "" then (.anonymous, db)
      else match (db.session (hash token)).filter (·.revokedAt.isNone) with
        | none => (.anonymous, db)
        | some s =>
            if s.expiresAt ≤ now then (.anonymous, db)
            else if isIdleExpired s now then (.anonymous, db)
            else if enforceCsrf && !r.passesCsrf then (.csrfTokenRequired, db)
            else
              let refreshed := maybeRefreshLastSeen db s now writes
              (contextOf refreshed.2 s refreshed.1, refreshed.2)

/-! ### Revocation -/

def AuthSession.revoke (s : AuthSession) : AuthSession :=
  if s.revokedAt.isNone && p s then { s with revokedAt := some stamp } else s

theorem AuthSession.tokenHash_revoke (s : AuthSession) :
    (s.revoke p stamp).tokenHash = s.tokenHash := by
  unfold revoke
  split
  · rfl
  · rfl

theorem AuthSession.userId_revoke (s : AuthSession) : (s.revoke p stamp).userId = s.userId := by
  unfold revoke
  split
  · rfl
  · rfl

def Store.revoke (db : Store) (p : AuthSession → Bool) (stamp : Int) : Store :=
  db.rewrite (AuthSession.revoke p stamp) (AuthSession.tokenHash_revoke p stamp)
    (AuthSession.userId_revoke p stamp)

/-- A session of a user, from no later than a given time. -/
def ofUser (userId : Nat) (createdAtOrBefore : Option Int) (s : AuthSession) : Bool :=
  s.userId = some userId && createdAtOrBefore.all fun bound => s.createdAt ≤ bound

/-- `revoke_user_sessions`. The condition on the row of the user is the same for each
    session. It answers how many were stamped, or how many of them were alive. -/
def revokeUserSessions (userId : Nat) (stamp : Int)
    (createdAtOrBefore : Option Int) (userMatches countOnlyActive : Bool) : Nat × Store :=
  let p := fun s => ofUser userId createdAtOrBefore s && userMatches
  let stamped := db.sessions.rows.countP fun s => s.revokedAt.isNone && p s
  let active := db.sessions.rows.countP fun s =>
    ofUser userId createdAtOrBefore s && activeSessionConditions stamp s
  (if countOnlyActive then if stamped = 0 then 0 else active else stamped, db.revoke p stamp)

def revokeRecoverySessions : Nat × Store :=
  let p := fun s : AuthSession => s.userId.isNone
  (db.sessions.rows.countP fun s => s.revokedAt.isNone && p s, db.revoke p stamp)

/-- What `logout_endpoint` does to the session of the cookie. -/
def logout (now : Int) : Store :=
  db.revoke (fun s => s.tokenHash = tokenHash) now

/-! ### The sweep -/

/-- The rows that `sweep_dead_sessions` deletes. -/
def sweepable (moment : Int) (s : AuthSession) : Bool :=
  let retentionCutoff := moment - sessionSweepRetention
  let idleDeathCutoff := retentionCutoff - sessionIdleWindow
  match s.revokedAt with
  | some revokedAt => revokedAt ≤ retentionCutoff
  | none => s.expiresAt ≤ retentionCutoff || s.lastSeenAt.getD s.createdAt ≤ idleDeathCutoff

def sweepDeadSessions (moment : Int) : Store :=
  db.keep fun s => !sweepable moment s

/-! ### Runs -/

/-- What happens at a time. A user revocation may be given the time to stamp. -/
inductive Event where
  | signIn (token : String) (userId : Option Nat)
  | request (r : Request) (enforceCsrf writes : Bool)
  | revokeUser (userId : Nat) (stamp createdAtOrBefore : Option Int) (userMatches : Bool)
  | revokeRecovery
  | logout (token : String)
  | sweep
  deriving DecidableEq, Repr

structure World where
  clock : Int
  db : Store

/-- One event. Time does not go back. -/
def step (hash : String → String) (w : World) (e : Int × Event) : Option World :=
  if e.1 < w.clock then none
  else match e.2 with
    | .signIn token userId =>
        (stageBrowserSession w.db e.1 (hash token) userId).map fun db => ⟨e.1, db⟩
    | .request r enforceCsrf writes =>
        some ⟨e.1, (sessionAuthContext hash w.db r e.1 enforceCsrf writes).2⟩
    | .revokeUser userId stamp createdAtOrBefore userMatches =>
        some ⟨e.1, (revokeUserSessions w.db userId (stamp.getD e.1) createdAtOrBefore userMatches
          false).2⟩
    | .revokeRecovery => some ⟨e.1, (revokeRecoverySessions w.db e.1).2⟩
    | .logout token => some ⟨e.1, logout w.db (hash token) e.1⟩
    | .sweep => some ⟨e.1, sweepDeadSessions w.db e.1⟩

end Sessions

end PlexManager
