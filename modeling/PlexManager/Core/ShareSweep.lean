import Mathlib.Data.List.Sort
import PlexManager.Core.SessionLifecycle

/-!
# The share sweep

Every quarter of an hour the users who are signed in and have not been checked for
a while are checked again: plex.tv is asked whether the token of a user still
reaches the configured server. If plex.tv rejects the token, or lists the servers it
reaches and the configured one is not among them, the user is signed out.

The network calls run between transactions, and other requests run meanwhile. So
before it writes, the sweep looks whether the token it asked about is still stored,
and lets the update look again. The server may have been rebuilt under another
identifier, so before it believes that one has been taken from everybody the sweep
asks the server who it is.

What the environment does is in a `Turn` for every user: what plex.tv and the server
answer, at which times, whether the database can be written, and which transactions
of others are committed at each point where the sweep waits. A transaction of the
sweep holds the write lock from its first write to its commit.
-/

namespace PlexManager

namespace ShareSweep

open KeyedTable Sessions

/-! ### Verdicts -/

inductive ShareVerdict where
  | authorized
  | shareRevoked
  | tokenStale
  | unknown
  | unverifiable
  deriving DecidableEq, Repr

def ShareVerdict.value : ShareVerdict → String
  | authorized => "authorized"
  | shareRevoked => "share_revoked"
  | tokenStale => "token_stale"
  | unknown => "unknown"
  | unverifiable => "unverifiable"

structure PlexResource where
  clientIdentifier : Option String
  provides : List String
  deriving DecidableEq, Repr

def accountServerResource (resources : List PlexResource) (machineIdentifier : String) :
    Option PlexResource :=
  resources.find? fun r =>
    r.provides.contains "server" && r.clientIdentifier = some machineIdentifier

def codeTokenInvalid : String := "plex_token_invalid"

/-- How `fetch_resources` ends: with a list, a `PlexVerifyError` of some code, or any
    other exception. -/
inductive Fetched where
  | resources (resources : List PlexResource)
  | verifyError (code : String)
  | raised (errorType : String)
  deriving DecidableEq, Repr

/-- The verdict of `check_share`, or `none` where it raises. -/
def checkShare (machineIdentifier : String) (token : Option String) (fetched : Fetched) :
    Option ShareVerdict :=
  match token with
  | none => some .unverifiable
  | some _ => match fetched with
    | .verifyError code => some (if code = codeTokenInvalid then .tokenStale else .unknown)
    | .raised _ => none
    | .resources resources =>
        some (if (accountServerResource resources machineIdentifier).isNone then .shareRevoked
          else .authorized)

inductive AnchorCheck where
  | confirmed
  | mismatched
  | unconfirmed
  deriving DecidableEq, Repr

/-- What becomes of a probe of the configured server: there is nothing to probe or to
    probe with, it answers with an identifier, it does not answer, or an unexpected
    exception comes out. -/
inductive Probe where
  | absent
  | answered (identifier : String)
  | failed
  | raised (errorType : String)
  deriving DecidableEq, Repr

/-- `_confirm_share_anchor`, and what the sweep takes it for where it raises. -/
def confirmShareAnchor (machineIdentifier : String) : Probe → AnchorCheck
  | .answered identifier => if identifier = machineIdentifier then .confirmed else .mismatched
  | .absent => .unconfirmed
  | .failed => .unconfirmed
  | .raised _ => .unconfirmed

/-! ### Rows -/

/-- The columns of a user that have to do with the share. The token is a ciphertext. -/
structure Account where
  userId : Nat
  encryptedPlexToken : Option String := none
  shareState : Option ShareVerdict := none
  shareCheckedAt : Option Int := none
  shareCheckFailures : Nat := 0
  shareCheckFailedAt : Option Int := none
  entitledSectionKeys : Option (List String) := none
  entitlementsMachineId : Option String := none
  entitlementsCapturedAt : Option Int := none
  deriving DecidableEq, Repr

structure AuditEntry where
  actionType : String
  entityId : Nat
  oldShareState : Option ShareVerdict
  newShareState : ShareVerdict
  sessionsRevoked : Nat
  adminExempt : Bool
  username : String
  description : String
  deriving DecidableEq, Repr

/-- The sessions with what they need of a user, the other columns of the users, the
    stored identifier of the configured server, and the audit log. -/
structure Db where
  store : Store
  accounts : Table Account.userId
  machineIdentifier : Option String
  audit : List AuditEntry

def Db.account (db : Db) (userId : Nat) : Option Account := db.accounts.find userId

def Db.update (db : Db) (userId : Nat) (f : Account → Account)
    (hf : ∀ a, (f a).userId = a.userId) : Db :=
  { db with accounts := db.accounts.modify userId f hf }

/-! ### Transactions of others -/

def putUser (store : Store) (user : User) : Store where
  users := if (store.users.find user.id).isSome
    then store.users.modify user.id (fun row => { user with id := row.id }) (fun _ => rfl)
    else store.users.insert user
  sessions := store.sessions
  minted := store.minted
  owned := by
    intro s hs id hid
    have hold := store.owned s hs id hid
    split
    · rw [Table.find_modify, Option.isSome_map]
      exact hold
    · rw [Table.find_insert, Option.isSome_or, hold, Bool.true_or]
  known := store.known

/-- A committed transaction of somebody else. A sign-in inserts its session at some
    time before it commits. -/
inductive Event where
  | signIn (inserted : Int) (user : User) (token ciphertext tokenHash : String)
  | repoint (machineIdentifier : Option String) (now : Int)
  | promote (userId : Nat) (permissions : Int)
  | logout (tokenHash : String) (now : Int)
  | revokeUser (userId : Nat) (now : Int)
  | sweepDead (now : Int)
  deriving DecidableEq, Repr

section
variable (decrypt : String → String)

def Account.token (a : Account) : Option String := a.encryptedPlexToken.map decrypt

/-- A token that is already stored is not encrypted again. -/
def Account.signedIn (token ciphertext : String) (a : Account) : Account :=
  if a.token decrypt = some token then a else { a with encryptedPlexToken := some ciphertext }

theorem Account.userId_signedIn (token ciphertext : String) (a : Account) :
    (a.signedIn decrypt token ciphertext).userId = a.userId := by
  unfold signedIn
  split
  · rfl
  · rfl

def signedInAccounts (accounts : Table Account.userId) (userId : Nat)
    (token ciphertext : String) : Table Account.userId :=
  if (accounts.find userId).isSome
  then accounts.modify userId (Account.signedIn decrypt token ciphertext)
    (Account.userId_signedIn decrypt token ciphertext)
  else accounts.insert { userId, encryptedPlexToken := some ciphertext }

/-- The tables after the transaction of somebody else. What cannot be committed
    changes nothing. -/
def Db.after (db : Db) : Event → Db
  | .signIn inserted user token ciphertext tokenHash =>
      if decrypt ciphertext ≠ token then db
      else match stageBrowserSession (putUser db.store user) inserted tokenHash (some user.id) with
        | none => db
        | some store =>
            { db with
              store
              accounts := signedInAccounts decrypt db.accounts user.id token ciphertext }
  | .repoint none _ => { db with machineIdentifier := none }
  | .repoint (some machineIdentifier) now =>
      { db with
        store := db.store.revoke (fun _ => true) now
        machineIdentifier := some machineIdentifier }
  | .promote userId permissions =>
      match db.store.users.find userId with
      | none => db
      | some user => { db with store := putUser db.store { user with permissions } }
  | .logout tokenHash now => { db with store := logout db.store tokenHash now }
  | .revokeUser userId now =>
      { db with store := (revokeUserSessions db.store userId now none true false).2 }
  | .sweepDead now => { db with store := sweepDeadSessions db.store now }

def Db.afterAll (db : Db) (events : List Event) : Db := events.foldl (Db.after decrypt) db

/-! ### Selection -/

def duePredicate (now revalidateAfter : Int) (a : Account) : Bool :=
  a.shareCheckedAt.all fun checkedAt => checkedAt < now - revalidateAfter

def holdsLiveSession (store : Store) (now : Int) (userId : Nat) : Bool :=
  store.sessions.rows.any fun s => s.userId = some userId && activeSessionConditions now s

def neverAttempted : Int := 0

def lastAttemptAt (a : Account) : Int :=
  let checked := a.shareCheckedAt.getD neverAttempted
  let failed := a.shareCheckFailedAt.getD neverAttempted
  if failed < checked then checked else failed

/-- The order of the selection: by the last attempt, and then by `id`. -/
def attemptedFirst (a b : Account) : Prop :=
  lastAttemptAt a < lastAttemptAt b ∨ lastAttemptAt a = lastAttemptAt b ∧ a.userId ≤ b.userId

instance : DecidableRel attemptedFirst := fun _ _ =>
  inferInstanceAs (Decidable (_ ∨ _))

structure DueShareCandidate where
  userId : Nat
  token : Option String
  tokenCiphertext : Option String
  deriving DecidableEq, Repr

def dueAccounts (db : Db) (now revalidateAfter : Int) : List Account :=
  db.accounts.rows.filter fun a =>
    holdsLiveSession db.store now a.userId && duePredicate now revalidateAfter a

def selectDueCandidates (db : Db) (now revalidateAfter : Int) (limit : Nat) :
    List DueShareCandidate :=
  (((dueAccounts db now revalidateAfter).insertionSort attemptedFirst).take limit).map fun a =>
    { userId := a.userId, token := a.token decrypt, tokenCiphertext := a.encryptedPlexToken }

/-! ### Writes -/

def recordFailedAttempt (db : Db) (userId : Nat) (now : Int) : Db :=
  db.update userId
    (fun a => { a with
      shareCheckFailures := a.shareCheckFailures + 1
      shareCheckFailedAt := some now })
    (fun _ => rfl)

/-- `_clear_entitlements`, on the loaded row. -/
def clearEntitlements (user : Account) : Account :=
  { user with
    entitledSectionKeys := none
    entitlementsMachineId := none
    entitlementsCapturedAt := none }

/-- What `apply_share_verdict` assigns to the attributes of the loaded row. -/
def stamped (user : Account) (verdict : ShareVerdict) (now : Int) : Account :=
  if verdict = .unknown then
    { user with
      shareCheckFailures := user.shareCheckFailures + 1
      shareCheckFailedAt := some now }
  else
    let user := { user with
      shareState := some verdict
      shareCheckedAt := some now
      shareCheckFailures := 0
      shareCheckFailedAt := none }
    if verdict = .shareRevoked then clearEntitlements user else user

/-- A flush writes a column only if the attribute was given another value than the one
    that was loaded. -/
def flushed {α : Type} [DecidableEq α] (loaded assigned current : α) : α :=
  if assigned = loaded then current else assigned

def Account.flush (loaded assigned row : Account) : Account :=
  { row with
    shareState := flushed loaded.shareState assigned.shareState row.shareState
    shareCheckedAt := flushed loaded.shareCheckedAt assigned.shareCheckedAt row.shareCheckedAt
    shareCheckFailures :=
      flushed loaded.shareCheckFailures assigned.shareCheckFailures row.shareCheckFailures
    shareCheckFailedAt :=
      flushed loaded.shareCheckFailedAt assigned.shareCheckFailedAt row.shareCheckFailedAt
    entitledSectionKeys :=
      flushed loaded.entitledSectionKeys assigned.entitledSectionKeys row.entitledSectionKeys
    entitlementsMachineId :=
      flushed loaded.entitlementsMachineId assigned.entitlementsMachineId
        row.entitlementsMachineId
    entitlementsCapturedAt :=
      flushed loaded.entitlementsCapturedAt assigned.entitlementsCapturedAt
        row.entitlementsCapturedAt }

structure ShareVerdictOutcome where
  signedOut : Bool
  sessionsRevoked : Nat
  adminExempt : Bool := false
  deriving DecidableEq, Repr

variable (cfg : Config) (c : DueShareCandidate) (verdict : ShareVerdict)

/-- `SHARE_REVOKED_ACTION` or `PLEX_SIGN_IN_EXPIRED_ACTION`. -/
def lossAction : String :=
  if verdict = .shareRevoked then "user.share_revoked" else "user.plex_sign_in_expired"

def adminExemptAction (actionType : String) : String := actionType ++ "_admin_exempt"

def finding : String :=
  if verdict = .shareRevoked then
    "Automatic share revalidation: this Plex account no longer has access to the " ++
      "configured server."
  else
    "Automatic share revalidation: token stale -- this account's Plex sign-in expired, " ++
      "so its access could no longer be verified. Access to the server was not removed; " ++
      "signing in with Plex again restores it."

def adminDescription : String :=
  "Automatic share revalidation recorded " ++
    "'" ++ verdict.value ++ "' for this ADMIN account, but did NOT sign it out: an " ++
    "administrator is the only principal who can repair a wrong Plex server " ++
    "configuration from the web, so this sweep never cuts the session that repair " ++
    "needs. Review it and revoke by hand from the sessions page if the removal is " ++
    "genuine."

def description (revoked : Nat) : String :=
  if revoked = 0 then
    finding verdict ++ " No browser session was signed out -- none was still active by the " ++
      "time the revocation ran."
  else
    finding verdict ++ " " ++ toString revoked ++ " browser " ++
      (if revoked = 1 then "session" else "sessions") ++ " signed out."

/-- `apply_share_verdict` from its first write to the commit, with the loaded row of
    the user, and the ciphertext and the time of the guard. It fails where the row is
    gone. -/
def applyShareVerdict (db : Db) (user : User) (loaded : Account) (verdict : ShareVerdict)
    (now guardMoment : Int) (storedCiphertext : Option String) :
    Option (ShareVerdictOutcome × Db) :=
  match db.account loaded.userId with
  | none => none
  | some row =>
      let flushedDb := db.update loaded.userId
        (Account.flush loaded (stamped loaded verdict now)) (fun _ => rfl)
      if verdict = .shareRevoked ∨ verdict = .tokenStale then
        if 0 < user.permissions then
          some ({ signedOut := false, sessionsRevoked := 0, adminExempt := true },
            { flushedDb with audit := flushedDb.audit ++
              [{ actionType := adminExemptAction (lossAction verdict), entityId := user.id
                 oldShareState := loaded.shareState, newShareState := verdict
                 sessionsRevoked := 0, adminExempt := true, username := user.username
                 description := adminDescription verdict }] })
        else
          let revoked := revokeUserSessions flushedDb.store user.id guardMoment
            (some guardMoment) (row.encryptedPlexToken = storedCiphertext) true
          some ({ signedOut := revoked.1 ≠ 0, sessionsRevoked := revoked.1 },
            { flushedDb with
              store := revoked.2
              audit := flushedDb.audit ++
                [{ actionType := lossAction verdict, entityId := user.id
                   oldShareState := loaded.shareState, newShareState := verdict
                   sessionsRevoked := revoked.1, adminExempt := false
                   username := user.username
                   description := description verdict revoked.1 }] })
      else some ({ signedOut := false, sessionsRevoked := 0 }, flushedDb)

structure EntitlementCapture where
  sectionKeys : List String
  machineIdentifier : String
  capturedAt : Int
  deriving DecidableEq, Repr

def Account.captured (capture : EntitlementCapture) (a : Account) : Account :=
  { a with
    entitledSectionKeys := some capture.sectionKeys
    entitlementsMachineId := some capture.machineIdentifier
    entitlementsCapturedAt := some capture.capturedAt }

/-- `store_entitlements` with its commit. A ciphertext that is not there matches a
    token that is not there. -/
def storeEntitlements (db : Db) (userId : Nat) (capture : EntitlementCapture)
    (expectedTokenCiphertext : Option String) : Bool × Db :=
  match db.account userId with
  | none => (false, db)
  | some row =>
      if db.machineIdentifier = some capture.machineIdentifier ∧
          row.encryptedPlexToken = expectedTokenCiphertext ∧
          (row.entitlementsCapturedAt.all fun at' => at' ≤ capture.capturedAt) = true
      then (true, db.update userId (Account.captured capture) (fun _ => rfl))
      else (false, db)

/-! ### The sweep -/

/-- What the composition root hands the sweep for captures. -/
inductive CaptureMode where
  | absent
  | unavailable
  | context
  deriving DecidableEq, Repr

structure Config where
  machineIdentifier : String
  revalidateAfter : Int
  limit : Nat
  capture : CaptureMode := .absent
  deriving DecidableEq, Repr

/-- How `library_for_token` ends. -/
inductive LibraryBuilt where
  | raised
  | missing
  | built
  deriving DecidableEq, Repr

/-- How the read of the sections ends, and when. -/
inductive CaptureRead where
  | refused
  | unavailable
  | sections (keys : List String) (capturedAt : Int)
  deriving DecidableEq, Repr

structure CaptureTurn where
  library : LibraryBuilt := .missing
  slotFree : Bool := true
  probe : Probe := .absent
  whileReading : List Event := []
  read : CaptureRead := .unavailable
  refreshProbe : Probe := .absent
  whileProbing : List Event := []
  writes : Bool := true
  deriving DecidableEq, Repr

structure Turn where
  fetched : Fetched
  whileChecking : List Event := []
  probe : Probe := .absent
  whileProbing : List Event := []
  whileLoading : List Event := []
  guardMoment : Int
  whileGuarded : List Event := []
  now : Int
  writes : Bool := true
  onSignedOut : Option String := none
  capture : CaptureTurn := {}
  deriving DecidableEq, Repr

/-- The state of a sweep, with the users it has checked and the probes it has made. -/
structure Sweep where
  db : Db
  anchor : Option AnchorCheck := none
  captureCircuitOpen : Bool := false
  visited : List Nat := []
  probes : List Probe := []
  checked : Nat := 0
  tallies : List ShareVerdict := []
  skipped : Nat := 0
  adminsExempted : Nat := 0
  anchorDeferred : Nat := 0
  sessionsRevoked : Nat := 0
  signedOut : List Nat := []
  captured : Nat := 0
  captureFailed : Nat := 0
  captureSkipped : Nat := 0
  captureAnchorBlocked : Nat := 0
  lastError : Option String := none

def Sweep.during (s : Sweep) (events : List Event) : Sweep :=
  { s with db := s.db.afterAll decrypt events }

def Sweep.anchorConfirmed (s : Sweep) (machineIdentifier : String) (refresh : Bool)
    (probe : Probe) : Bool × Sweep :=
  if s.anchor.isNone || (refresh && s.anchor = some .confirmed) then
    let anchor := confirmShareAnchor machineIdentifier probe
    let raised := match probe with
      | .raised errorType => some errorType
      | _ => s.lastError
    (anchor = .confirmed,
      { s with
        anchor := some anchor
        probes := s.probes ++ [probe]
        lastError :=
          if anchor = .confirmed then raised
          else if anchor = .mismatched then some "PlexAnchorMismatch"
          else some (raised.getD "PlexAnchorUnconfirmed") })
  else (s.anchor = some .confirmed, s)

def captureInSlot (t : CaptureTurn) (s : Sweep) : Sweep :=
  let blocked := fun s : Sweep => { s with
    captureSkipped := s.captureSkipped + 1
    captureAnchorBlocked := s.captureAnchorBlocked + 1 }
  let probed := s.anchorConfirmed cfg.machineIdentifier false t.probe
  if !probed.1 then blocked probed.2
  else
    let s := probed.2.during decrypt t.whileReading
    match t.read with
    | .refused => { s with captureFailed := s.captureFailed + 1 }
    | .unavailable =>
        { s with captureCircuitOpen := true, captureFailed := s.captureFailed + 1 }
    | .sections sectionKeys capturedAt =>
        let probed := s.anchorConfirmed cfg.machineIdentifier true t.refreshProbe
        if !probed.1 then blocked probed.2
        else
          let s := probed.2.during decrypt t.whileProbing
          if !t.writes then { s with captureFailed := s.captureFailed + 1 }
          else
            let stored := storeEntitlements s.db c.userId
              { sectionKeys, machineIdentifier := cfg.machineIdentifier, capturedAt }
              c.tokenCiphertext
            if stored.1 then { s with db := stored.2, captured := s.captured + 1 }
            else { s with db := stored.2, captureFailed := s.captureFailed + 1 }

def captureFor (t : CaptureTurn) (s : Sweep) : Sweep :=
  match c.token with
  | none => s
  | some _ => match cfg.capture with
    | .unavailable => { s with captureSkipped := s.captureSkipped + 1 }
    | .absent => s
    | .context =>
        if s.captureCircuitOpen then { s with captureSkipped := s.captureSkipped + 1 }
        else match t.library with
          | .raised => { s with captureFailed := s.captureFailed + 1 }
          | .missing => s
          | .built =>
              if !t.slotFree then { s with captureSkipped := s.captureSkipped + 1 }
              else captureInSlot decrypt cfg c t s

/-- A verdict that is about to be written: what was loaded, what the guard read, and
    the state of the sweep at the first write. -/
structure Write where
  verdict : ShareVerdict
  user : User
  loaded : Account
  guarded : Db
  storedCiphertext : Option String
  sweep : Sweep

/-- How far a turn gets before it writes. -/
inductive Prepared where
  | errored (errorType : String) (s : Sweep)
  | deferred (s : Sweep)
  | skipped (s : Sweep)
  | write (w : Write)

def prepareWrite (t : Turn) (verdict : ShareVerdict) (s : Sweep) :
    Prepared :=
  match s.db.store.users.find c.userId, s.db.account c.userId with
  | some user, some loaded =>
      let guarded := s.during decrypt t.whileLoading
      let stored := guarded.db.account c.userId
      if stored.bind (Account.token decrypt) ≠ c.token then .skipped guarded
      else .write
        { verdict, user, loaded
          guarded := guarded.db
          storedCiphertext := stored.bind Account.encryptedPlexToken
          sweep := guarded.during decrypt t.whileGuarded }
  | _, _ => .skipped s

def prepare (t : Turn) (s : Sweep) : Prepared :=
  let s := { s.during decrypt t.whileChecking with visited := s.visited ++ [c.userId] }
  match checkShare cfg.machineIdentifier c.token t.fetched with
  | none => .errored (match t.fetched with
      | .raised errorType => errorType
      | _ => "") s
  | some verdict =>
      if verdict = .shareRevoked then
        let probed := s.anchorConfirmed cfg.machineIdentifier false t.probe
        let s := probed.2.during decrypt t.whileProbing
        if probed.1 then prepareWrite decrypt c t verdict s else .deferred s
      else prepareWrite decrypt c t verdict s

def Write.commit (w : Write) (t : Turn) : Option (ShareVerdictOutcome × Db) :=
  if t.writes then
    applyShareVerdict w.sweep.db w.user w.loaded w.verdict t.now t.guardMoment w.storedCiphertext
  else none

def Sweep.tally (s : Sweep) (c : DueShareCandidate) (t : Turn) (outcome : ShareVerdictOutcome) :
    Sweep :=
  { s with
    adminsExempted := s.adminsExempted + if outcome.adminExempt then 1 else 0
    signedOut := if outcome.signedOut then s.signedOut ++ [c.userId] else s.signedOut
    lastError := if outcome.signedOut then t.onSignedOut.or s.lastError else s.lastError }

/-- The turn of a user. An exception ends the sweep. -/
def turn (t : Turn) (s : Sweep) : Except Sweep Sweep :=
  match prepare decrypt cfg c t s with
  | .errored errorType s =>
      let s := { s with lastError := some errorType }
      .ok (if t.writes then { s with db := recordFailedAttempt s.db c.userId t.now } else s)
  | .deferred s => .ok { s with anchorDeferred := s.anchorDeferred + 1 }
  | .skipped s => .ok { s with skipped := s.skipped + 1 }
  | .write w => match w.commit t with
    | none => .error w.sweep
    | some (outcome, db) =>
        let s := { w.sweep with
          db
          checked := w.sweep.checked + 1
          tallies := w.sweep.tallies ++ [w.verdict]
          sessionsRevoked := w.sweep.sessionsRevoked + outcome.sessionsRevoked }
        let s := if w.verdict = .authorized then captureFor decrypt cfg c t.capture s else s
        .ok (s.tally c t outcome)

def turns (cfg : Config) (turnOf : Nat → Turn) :
    List DueShareCandidate → Sweep → Except Sweep Sweep
  | [], s => .ok s
  | c :: cs, s => match turn decrypt cfg c (turnOf c.userId) s with
    | .error s => .error s
    | .ok s => turns cfg turnOf cs s

/-- `sweep_shares`, with what the environment does in the turn of every user. -/
def sweepShares (db : Db) (moment : Int) (turnOf : Nat → Turn) :
    Except Sweep Sweep :=
  turns decrypt cfg turnOf
    (selectDueCandidates decrypt db moment cfg.revalidateAfter cfg.limit) { db }

/-! ### Ticks -/

/-- A tick of the loop, with what others commit before it. -/
structure Tick where
  before : List Event := []
  moment : Int
  turnOf : Nat → Turn

/-- The time of the last tick, the tables, and the users who have been checked. -/
structure World where
  clock : Int
  db : Db
  visited : List Nat
  epoch : neverAttempted ≤ clock

def Tick.db (t : Tick) (w : World) : Db := w.db.afterAll decrypt t.before

def Tick.candidates (t : Tick) (w : World) : List DueShareCandidate :=
  selectDueCandidates decrypt (t.db decrypt w) t.moment cfg.revalidateAfter cfg.limit

def Tick.sweep (t : Tick) (w : World) : Sweep :=
  match sweepShares decrypt cfg (t.db decrypt w) t.moment t.turnOf with
  | .ok s => s
  | .error s => s

/-- One tick. It is later than the one before, and stamps no time before it began. -/
def tick (w : World) (t : Tick) : Option World :=
  if hlater : w.clock < t.moment ∧
      ∀ c ∈ t.candidates decrypt cfg w, t.moment ≤ (t.turnOf c.userId).now then
    some
      { clock := t.moment
        db := (t.sweep decrypt cfg w).db
        visited := w.visited ++ (t.sweep decrypt cfg w).visited
        epoch := Int.le_trans w.epoch (Int.le_of_lt hlater.1) }
  else none

end

end ShareSweep

end PlexManager
