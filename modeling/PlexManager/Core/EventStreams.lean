import PlexManager.Core.EventHub
import PlexManager.Core.ShareSweep

/-!
# Event streams and what ends them

A browser of an administrator keeps one request open and is sent events on it. The request
is authenticated once, with a database session that is closed before the first event, so
that nothing is read again while the stream is open. Who takes an authority away has to end
the streams that rest on it: the transaction is committed, and then the hub closes the
subscriptions of a principal.

Connects and such actions run side by side, each a step at a time between two waits. A step
of a connect is one statement of its authentication, the subscription, the reader that takes
an item from its queue, or a round of the loop that sends. An action computes what it
writes, commits it, and closes. The locks that actions hold only rule out some of these
orders, and so does the database; a sign-in writes the columns that it changes. What was
rolled back may be tried again.

Beside the state, it is on record for each connect what it was admitted on, which commits
have taken any of it away, and which action ended its stream.
-/

namespace PlexManager

namespace EventStreams

open KeyedTable Sessions Realtime

/-! ### The database -/

/-- The sessions and users, the recovery key, and the identifier of the configured Plex
    server. -/
structure Db where
  store : Store
  appApiKey : Option String := none
  plexMachineIdentifier : Option String := none

def apiKeyMatches (provided expected : Option String) : Bool :=
  match provided, expected with
  | some p, some k => p ≠ "" && k ≠ "" && p = k
  | _, _ => false

/-- What authentication has read: the recovery key, a session that is not revoked, with its
    user, and a user who is an administrator. -/
inductive Ground where
  | key (value : String)
  | row (tokenHash : String) (userId : Option Nat)
  | admin (userId : Nat)
  deriving DecidableEq, Repr

def Ground.holds (db : Db) : Ground → Bool
  | key value => db.appApiKey = some value
  | row tokenHash userId => (db.store.session tokenHash).any fun s =>
      s.revokedAt.isNone && s.userId = userId
  | admin userId => (db.store.users.find userId).any fun user => 0 < user.permissions

/-! ### Connects -/

inductive AuthMethod where
  | apiKey
  | plexSession
  | devBypass
  deriving DecidableEq, Repr

def AuthMethod.value : AuthMethod → String
  | apiKey => "api_key"
  | plexSession => "plex_session"
  | devBypass => "dev_bypass"

/-- What of `deps.AuthContext` a stream has a use for. -/
structure AuthContext where
  method : AuthMethod
  userId : Option Nat := none
  isAdmin : Bool := false
  sessionExpiresAt : Option Int := none
  sessionIdleDeadline : Option Int := none
  deriving DecidableEq, Repr

/-- Whom a ground is about, as the hub knows them. -/
def Ground.principal : Ground → AuthMethod × Option Nat
  | key _ => (.apiKey, none)
  | row _ none => (.apiKey, none)
  | row _ (some userId) => (.plexSession, some userId)
  | admin userId => (.plexSession, some userId)

def sessionExpiredReason : String := "session_expired"

def sessionIdleReason : String := "session_idle_timeout"

variable (store : Store) (auth : AuthContext)

/-- The tighter of the two bounds of a session, with the reason it goes by. -/
def leaseBound : Option (Int × String) :=
  match auth.sessionIdleDeadline, auth.sessionExpiresAt with
  | some idle, some absolute =>
      if idle < absolute then some (idle, sessionIdleReason)
      else some (absolute, sessionExpiredReason)
  | some idle, none => some (idle, sessionIdleReason)
  | none, some absolute => some (absolute, sessionExpiredReason)
  | none, none => none

/-- When the stream of a context ends at the latest. -/
def lease (now : Int) : Option (Int × String) :=
  (leaseBound auth).map fun bound => (max now bound.1, bound.2)

/-- The task that waits for the next item. -/
inductive Getter where
  | absent
  | pending
  | done (item : Item)
  deriving DecidableEq, Repr

/-- A stream that is open: its subscription, when it has to end and why, its getter, and
    whether the loop waits for that getter. -/
structure Stream where
  subscription : Nat
  lease : Option (Int × String)
  getter : Getter := .absent
  waiting : Bool := false
  deriving DecidableEq, Repr

inductive Frame where
  | ping
  | realtime (e : RealtimeEvent)
  | closed (reason : String)
  deriving DecidableEq, Repr

/-- Why a stream has ended: the client has gone away, its session has, or the hub has
    closed it. -/
inductive Cause where
  | silent
  | lease (reason : String)
  | hub (reason : String)
  deriving DecidableEq, Repr

def Cause.frames : Cause → List Frame
  | silent => []
  | lease reason => [.closed reason]
  | hub reason => [.closed reason]

inductive Phase where
  | arrived
  | cookie
  | found (s : AuthSession)
  | identified (userId : Nat) (expiresAt idleDeadline : Int)
  | admitted (auth : AuthContext)
  | streaming (stream : Stream)
  | ended (subscription : Nat) (cause : Cause)
  | refused (statusCode : Nat) (detail : String)
  deriving DecidableEq, Repr

/-- A request for events, what has been sent, and what is on record of it: what it was
    admitted on, the actions that took any of it away, and the one that closed its
    stream. -/
structure Connect where
  provided : Option String
  cookie : Option String
  phase : Phase := .arrived
  frames : List Frame := []
  grounds : List Ground := []
  struckBy : List Nat := []
  cutBy : Option Nat := none
  deriving DecidableEq, Repr

def Connect.subscription (c : Connect) : Option Nat :=
  match c.phase with
  | .streaming stream => some stream.subscription
  | .ended subscription _ => some subscription
  | _ => none

/-- `HTTP_401_UNAUTHORIZED`. -/
def unauthorized : Phase := .refused 401 "invalid_api_key"

/-- `require_admin_short_session`. -/
def requireAdmin : Phase :=
  if auth.isAdmin then .admitted auth else .refused 403 "admin_required"

section
variable (hash : String → String) (devAuthBypass : Bool)

def Connect.readKey (db : Db) (c : Connect) : Connect :=
  if devAuthBypass then { c with phase := requireAdmin { method := .devBypass, isAdmin := true } }
  else if apiKeyMatches c.provided db.appApiKey then
    { c with
      phase := requireAdmin { method := .apiKey, isAdmin := true }
      grounds := c.grounds ++ [.key (c.provided.getD "")] }
  else { c with phase := .cookie }

def Connect.readSession (db : Db) (now : Int) (c : Connect) : Connect :=
  match c.cookie with
  | none => { c with phase := unauthorized }
  | some token =>
      if token = "" then { c with phase := unauthorized }
      else match (db.store.session (hash token)).filter (·.revokedAt.isNone) with
        | none => { c with phase := unauthorized }
        | some s =>
            if s.expiresAt ≤ now then { c with phase := unauthorized }
            else if isIdleExpired s now then { c with phase := unauthorized }
            else { c with phase := .found s, grounds := c.grounds ++ [.row s.tokenHash s.userId] }

/-- `_maybe_refresh_last_seen`, and the context of a session without a user. -/
def Connect.refresh (db : Db) (now : Int) (writes : Bool) (s : AuthSession) (c : Connect) :
    Connect × Db :=
  let refreshed := maybeRefreshLastSeen db.store s now writes
  let idleDeadline := refreshed.1 + sessionIdleWindow
  (match s.userId with
    | none =>
        { c with
          phase := requireAdmin
            { method := .apiKey, isAdmin := true, sessionExpiresAt := some s.expiresAt
              sessionIdleDeadline := some idleDeadline } }
    | some userId => { c with phase := .identified userId s.expiresAt idleDeadline },
    { db with store := refreshed.2 })

def Connect.readUser (db : Db) (userId : Nat) (expiresAt idleDeadline : Int) (c : Connect) :
    Connect :=
  match db.store.users.find userId with
  | none => { c with phase := unauthorized }
  | some user =>
      { c with
        phase := requireAdmin
          { method := .plexSession, userId := some userId, isAdmin := 0 < user.permissions
            sessionExpiresAt := some expiresAt, sessionIdleDeadline := some idleDeadline }
        grounds :=
          if 0 < user.permissions then c.grounds ++ [.admin userId] else c.grounds }

def Connect.subscribe (hub : EventHub) (now : Int) (auth : AuthContext) (c : Connect) :
    Connect × EventHub :=
  let subscribed := hub.subscribe (some auth.method.value) auth.userId
  ({ c with phase := .streaming { subscription := subscribed.1, lease := lease auth now } },
    subscribed.2)

variable (hub : EventHub)

/-- The loop is left: the last frame is sent, and the subscription is closed. -/
def Connect.leave (stream : Stream) (cause : Cause) (c : Connect) :
    Connect × EventHub :=
  ({ c with phase := .ended stream.subscription cause, frames := c.frames ++ cause.frames },
    hub.modify stream.subscription (·.close none))

/-- Whether the lease has run out, and what it is called. -/
def Stream.lapsed (stream : Stream) (now : Int) : Option String :=
  match stream.lease with
  | none => none
  | some bound => if bound.1 ≤ now then some bound.2 else none

def Connect.poll (now : Int) (isDisconnected : Bool) (stream : Stream)
    (c : Connect) : Connect × EventHub :=
  if isDisconnected then c.leave hub stream .silent
  else match stream.lapsed now with
    | some reason => c.leave hub stream (.lease reason)
    | none =>
        let getter := if stream.getter = .absent then Getter.pending else stream.getter
        ({ c with phase := .streaming { stream with getter, waiting := true } }, hub)

def Connect.take (stream : Stream) (c : Connect) : Option (Connect × EventHub) :=
  if stream.getter = .pending then
    match hub.subscriptions[stream.subscription]?.bind EventSubscription.get with
    | none => none
    | some (item, subscription) => some
        ({ c with phase := .streaming { stream with getter := .done item } },
          hub.modify stream.subscription fun _ => subscription)
  else none

/-- The loop goes on after its wait, whether it was the getter or the clock that ended it. -/
def Connect.resume (now : Int) (stream : Stream) (c : Connect) :
    Connect × EventHub :=
  match stream.getter with
  | .done (.event e) =>
      ({ c with
          phase := .streaming { stream with getter := .absent, waiting := false }
          frames := c.frames ++ [.realtime e] }, hub)
  | .done (.streamClosed (some reason)) => c.leave hub stream (.hub reason)
  | .done (.streamClosed none) => c.leave hub stream .silent
  | .absent | .pending => match stream.lapsed now with
      | some reason => c.leave hub stream (.lease reason)
      | none =>
          ({ c with
              phase := .streaming { stream with waiting := false }
              frames := c.frames ++ [.ping] }, hub)

end

/-! ### Actions -/

structure Closing where
  reason : String
  authMethod : Option AuthMethod := none
  userId : Option Nat := none
  deriving DecidableEq, Repr

inductive UserWrite where
  | create (user : User)
  | update (userId : Nat) (username : String) (email avatarUrl : Option String)
      (permissions : Option Int)
  deriving DecidableEq, Repr

/-- What an action is about to commit, and what it closes afterwards. The sessions that it
    revokes are given with their users. -/
structure Effect where
  stamp : Int
  revoked : List (String × Option Nat) := []
  appApiKey : Option (Option String) := none
  plexMachineIdentifier : Option (Option String) := none
  user : Option UserWrite := none
  minted : Option (String × Option Nat) := none
  closing : Option Closing := none
  deriving DecidableEq, Repr

structure Account where
  plexId : Int
  username : String
  email : Option String := none
  avatarUrl : Option String := none
  deriving DecidableEq, Repr

/-- Who does something, and with what. A sign-in has the id and the digest that are drawn
    for it. -/
inductive Kind where
  | logout (tokenHash : String)
  | revokeUser (userId : Nat)
  | revokeRecovery
  | rotateAppKey (observed : Option String) (newKey : String) (acting : Option String)
  | revokeAppKey (observed : Option String)
  | putSettings (verifiedServer : Option String)
  | signIn (account : Account) (isAdmin : Bool) (userId : Nat) (tokenHash : String)
  | exchangeApiKey (provided : Option String) (tokenHash : String)
  | signOut (userId : Nat) (verdict : ShareSweep.ShareVerdict) (guardMoment : Int)
      (userMatches : Bool)
  deriving DecidableEq, Repr

section
variable (db : Db) (now : Int)

/-- The sessions that an update revokes. -/
def Db.hit (p : AuthSession → Bool) : List (String × Option Nat) :=
  (db.store.sessions.rows.filter fun s => s.revokedAt.isNone && p s).map fun s =>
    (s.tokenHash, s.userId)

/-- `logout_endpoint`. -/
def logout (tokenHash : String) : Option Effect :=
  match (db.store.session tokenHash).filter (·.revokedAt.isNone) with
  | none => none
  | some s => some
      { stamp := now
        revoked := [(s.tokenHash, s.userId)]
        closing := match s.userId with
          | none => some { reason := "session_logged_out", authMethod := some .apiKey }
          | some userId => some
              { reason := "session_logged_out", authMethod := some .plexSession
                userId := some userId } }

/-- `revoke_user_sessions_endpoint`, for a user. -/
def revokeUser (userId : Nat) : Effect :=
  let revoked := db.hit (ofUser userId none)
  { stamp := now
    revoked
    closing := if revoked = [] then none else some
      { reason := "sessions_revoked", authMethod := some .plexSession, userId := some userId } }

/-- `revoke_user_sessions_endpoint`, for the recovery sessions. -/
def revokeRecovery : Effect :=
  let revoked := db.hit fun s => s.userId.isNone
  { stamp := now
    revoked
    closing := if revoked = [] then none else some
      { reason := "sessions_revoked", authMethod := some .apiKey } }

/-- `rotate_app_key_endpoint`. The key has to be the one that was observed. -/
def rotateAppKey (observed : Option String) (newKey : String) (acting : Option String) :
    Option Effect :=
  let unchanged := if db.appApiKey = none then observed = none
    else apiKeyMatches observed db.appApiKey
  if unchanged then some
    { stamp := now
      revoked := db.hit fun s => s.userId.isNone && acting.all fun h => s.tokenHash ≠ h
      appApiKey := some (some newKey)
      closing := some { reason := "app_key_rotated", authMethod := some .apiKey } }
  else none

/-- `revoke_app_key_endpoint`. -/
def revokeAppKey (observed : Option String) : Option Effect :=
  if db.appApiKey ≠ none ∧ apiKeyMatches observed db.appApiKey = false then none
  else some
    { stamp := now
      revoked := db.hit fun s => s.userId.isNone
      appApiKey := some none
      closing := some { reason := "app_key_revoked", authMethod := some .apiKey } }

/-- `write_settings`, for a change of the Plex server. -/
def putSettings : Option String → Effect
  | none => { stamp := now, plexMachineIdentifier := some none }
  | some verified =>
      -- The server is only reached another way.
      if db.plexMachineIdentifier = some verified then { stamp := now }
      else
        { stamp := now
          revoked := db.hit fun _ => true
          plexMachineIdentifier := some (some verified)
          closing := some
            { reason := "plex_server_repointed", authMethod := some .plexSession } }

/-- `_upsert_user` and `_apply_signin_fields`, with whether the account was demoted. -/
def upsertUser (account : Account) (isAdmin : Bool) (userId : Nat) : UserWrite × Nat × Bool :=
  let permissions : Int := if isAdmin then 1 else 0
  match db.store.users.rows.find? fun user => user.plexId = account.plexId with
  | none =>
      (.create
        { id := userId, plexId := account.plexId, username := account.username
          email := account.email, avatarUrl := account.avatarUrl, permissions }, userId, false)
  | some user =>
      (.update user.id account.username account.email account.avatarUrl
        (if permissions = user.permissions then none else some permissions),
        user.id, permissions < user.permissions)

/-- `plex_sign_in_endpoint`, once it is decided whether the account is an administrator. -/
def signIn (account : Account) (isAdmin : Bool) (userId : Nat) (tokenHash : String) : Effect :=
  let (write, id, demoted) := upsertUser db account isAdmin userId
  { stamp := now
    user := some write
    minted := some (tokenHash, some id)
    closing := if demoted then some
      { reason := "permission_downgraded", authMethod := some .plexSession, userId := some id }
      else none }

/-- `exchange_api_key_endpoint`. -/
def exchangeApiKey (provided : Option String) (tokenHash : String) : Option Effect :=
  if apiKeyMatches provided db.appApiKey then
    some { stamp := now, minted := some (tokenHash, none) }
  else none

/-- `_SHARE_SWEEP_CLOSE_REASONS`. -/
def shareSweepCloseReason : ShareSweep.ShareVerdict → String
  | .shareRevoked => "share_revalidation_share_revoked"
  | .tokenStale => "share_revalidation_token_stale"
  | _ => "share_revalidation_signed_out"

/-- What `apply_share_verdict` does to the sessions of a user who has lost the share, with
    the streams that `_close_signed_out_stream` closes. Whether the stored token is still
    the one that was asked about is part of the action. -/
def signOut (userId : Nat) (verdict : ShareSweep.ShareVerdict) (guardMoment : Int)
    (userMatches : Bool) : Option Effect :=
  match db.store.users.find userId with
  | none => none
  | some user =>
      if 0 < user.permissions then none
      else some
        { stamp := guardMoment
          revoked := db.hit fun s => ofUser userId (some guardMoment) s && userMatches
          closing :=
            if (revokeUserSessions db.store userId guardMoment (some guardMoment) userMatches
              true).1 = 0 then none
            else some
              { reason := shareSweepCloseReason verdict, authMethod := some .plexSession
                userId := some userId } }

/-- What an action writes, or `none` where it leaves without a commit. -/
def stage : Kind → Option Effect
  | .logout tokenHash => logout db now tokenHash
  | .revokeUser userId => some (revokeUser db now userId)
  | .revokeRecovery => some (revokeRecovery db now)
  | .rotateAppKey observed newKey acting => rotateAppKey db now observed newKey acting
  | .revokeAppKey observed => revokeAppKey db now observed
  | .putSettings verified => some (putSettings db now verified)
  | .signIn account isAdmin userId tokenHash =>
    some (signIn db now account isAdmin userId tokenHash)
  | .exchangeApiKey provided tokenHash => exchangeApiKey db now provided tokenHash
  | .signOut userId verdict guardMoment userMatches =>
      signOut db userId verdict guardMoment userMatches

end

/-! ### Commits -/

def modifyUser (userId : Nat) (f : User → User) (hid : ∀ u, (f u).id = u.id) :
    Store where
  users := store.users.modify userId f hid
  sessions := store.sessions
  minted := store.minted
  owned := by
    intro s hs id hid'
    rw [Table.find_modify, Option.isSome_map]
    exact store.owned s hs id hid'
  known := store.known

def insertUser (user : User) : Store where
  users := store.users.insert user
  sessions := store.sessions
  minted := store.minted
  owned := by
    intro s hs id hid
    rw [Table.find_insert, Option.isSome_or, store.owned s hs id hid, Bool.true_or]
  known := store.known

def UserWrite.row (username : String) (email avatarUrl : Option String)
    (permissions : Option Int) (user : User) : User :=
  { user with username, email, avatarUrl, permissions := permissions.getD user.permissions }

/-- The users after a sign-in, or `none` where a unique column is taken. -/
def UserWrite.commit : UserWrite → Option Store
  | create user =>
      if store.users.rows.any fun other => other.id = user.id || other.plexId = user.plexId
      then none
      else some (insertUser store user)
  | update userId username email avatarUrl permissions =>
      some (modifyUser store userId (UserWrite.row username email avatarUrl permissions)
        fun _ => rfl)

def commitStore (e : Effect) : Option Store := do
  let store := store.revoke (fun s => (s.tokenHash, s.userId) ∈ e.revoked) e.stamp
  let store ← match e.user with
    | none => some store
    | some write => write.commit store
  match e.minted with
    | none => some store
    | some (tokenHash, userId) => stageBrowserSession store e.stamp tokenHash userId

/-- The database after a commit, or `none` where it fails. -/
def Db.commit (db : Db) (e : Effect) : Option Db :=
  (commitStore db.store e).map fun store =>
    { store
      appApiKey := e.appApiKey.getD db.appApiKey
      plexMachineIdentifier := e.plexMachineIdentifier.getD db.plexMachineIdentifier }

/-- How far an action has come. What it had said when it closed its streams is kept: an
    event has been published before if its number is below. -/
inductive Progress where
  | begun
  | staged (e : Effect)
  | committed (e : Effect)
  | returned (e : Effect) (nextSeq : Nat)
  | left
  deriving DecidableEq, Repr

structure Action where
  kind : Kind
  progress : Progress := .begun
  deriving DecidableEq, Repr

/-! ### Side by side -/

structure World where
  clock : Int
  db : Db
  hub : EventHub := {}
  connects : List Connect := []
  actions : List Action := []

inductive Event where
  | connect (provided cookie : Option String)
  | authenticate (i : Nat) (writes : Bool)
  | subscribe (i : Nat)
  | poll (i : Nat) (isDisconnected : Bool)
  | take (i : Nat)
  | resume (i : Nat)
  | cancel (i : Nat)
  | publish (topics : List String) (reason : String)
  | begin (kind : Kind)
  | stage (j : Nat)
  | commit (j : Nat)
  | finish (j : Nat)
  | abandon (j : Nat)
  | sweepDead
  deriving DecidableEq, Repr

/-- A commit takes away what one was admitted on. -/
def Connect.strike (db db' : Db) (j : Nat) (c : Connect) : Connect :=
  if c.grounds.any fun g => g.holds db && !g.holds db' then
    { c with struckBy := j :: c.struckBy }
  else c

def Closing.isAbout (closing : Closing) (s : EventSubscription) : Bool :=
  s.isMatching (closing.authMethod.map AuthMethod.value) closing.userId

/-- An action closes the stream of a request. -/
def Connect.cut (hub : EventHub) (closing : Closing) (j : Nat) (c : Connect) : Connect :=
  match c.phase with
  | .streaming stream =>
      if (hub.subscriptions[stream.subscription]?).any fun s =>
          s.subscribed && closing.isAbout s
      then { c with cutBy := some j }
      else c
  | _ => c

def closeStreams (hub : EventHub) : Option Closing → EventHub
  | none => hub
  | some closing =>
      hub.closeMatching closing.reason (closing.authMethod.map AuthMethod.value) closing.userId

section
variable (hash : String → String) (devAuthBypass : Bool)

variable (w : World)

def World.put (i : Nat) (c : Connect) : World :=
  { w with connects := w.connects.set i c }

def World.send (i : Nat) (sent : Connect × EventHub) : World :=
  { w with connects := w.connects.set i sent.1, hub := sent.2 }

def World.authenticate (i : Nat) (writes : Bool) (c : Connect) : Option World :=
  match c.phase with
  | .arrived => some (w.put i (c.readKey devAuthBypass w.db))
  | .cookie => some (w.put i (c.readSession hash w.db w.clock))
  | .found s =>
      let refreshed := c.refresh w.db w.clock writes s
      some { w.put i refreshed.1 with db := refreshed.2 }
  | .identified userId expiresAt idleDeadline =>
      some (w.put i (c.readUser w.db userId expiresAt idleDeadline))
  | _ => none

def World.stream (w : World) (i : Nat) (event : Event) (c : Connect) : Option World :=
  match c.phase with
  | .streaming stream => match event with
      | .poll _ isDisconnected =>
          if stream.waiting then none
          else some (w.send i (c.poll w.hub w.clock isDisconnected stream))
      | .take _ => (c.take w.hub stream).map (w.send i)
      | .resume _ =>
          if stream.waiting then some (w.send i (c.resume w.hub w.clock stream)) else none
      | .cancel _ => some (w.send i (c.leave w.hub stream .silent))
      | _ => none
  | _ => none

def World.act (j : Nat) (event : Event) (a : Action) : Option World :=
  match event, a.progress with
  | .stage _, .begun => some
      { w with
        actions := w.actions.set j
          { a with progress := match stage w.db w.clock a.kind with
              | none => .left
              | some e => .staged e } }
  | .commit _, .staged e => match w.db.commit e with
      | none => some { w with actions := w.actions.set j { a with progress := .begun } }
      | some db => some
          { w with
            db
            connects := w.connects.map (Connect.strike w.db db j)
            actions := w.actions.set j { a with progress := .committed e } }
  | .finish _, .committed e => some
      { w with
        hub := closeStreams w.hub e.closing
        connects := match e.closing with
          | none => w.connects
          | some closing => w.connects.map (Connect.cut w.hub closing j)
        actions := w.actions.set j { a with progress := .returned e w.hub.nextSeq } }
  | .abandon _, .begun => some { w with actions := w.actions.set j { a with progress := .left } }
  | .abandon _, .staged _ => some
      { w with actions := w.actions.set j { a with progress := .left } }
  | _, _ => none

def World.happens : Event → Option World
  | .connect provided cookie =>
      some { w with connects := w.connects ++ [{ provided, cookie }] }
  | .authenticate i writes => w.connects[i]?.bind (w.authenticate hash devAuthBypass i writes)
  | .subscribe i => w.connects[i]?.bind fun c => match c.phase with
      | .admitted auth => some (w.send i (c.subscribe w.hub w.clock auth))
      | _ => none
  | .poll i isDisconnected => w.connects[i]?.bind (w.stream i (.poll i isDisconnected))
  | .take i => w.connects[i]?.bind (w.stream i (.take i))
  | .resume i => w.connects[i]?.bind (w.stream i (.resume i))
  | .cancel i => w.connects[i]?.bind (w.stream i (.cancel i))
  | .publish topics reason => (w.hub.publish topics reason).map fun published =>
      { w with hub := published.2 }
  | .begin kind => some { w with actions := w.actions ++ [{ kind }] }
  | .stage j => w.actions[j]?.bind (w.act j (.stage j))
  | .commit j => w.actions[j]?.bind (w.act j (.commit j))
  | .finish j => w.actions[j]?.bind (w.act j (.finish j))
  | .abandon j => w.actions[j]?.bind (w.act j (.abandon j))
  | .sweepDead => some { w with db := { w.db with store := sweepDeadSessions w.db.store w.clock } }

/-- One event. Time does not go back. -/
def step (e : Int × Event) : Option World :=
  if e.1 < w.clock then none else { w with clock := e.1 }.happens hash devAuthBypass e.2

end

end EventStreams

end PlexManager
