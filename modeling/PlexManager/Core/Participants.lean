import PlexManager.Core.SeasonPlan
import PlexManager.Lib.Interleaving
import Mathlib.Data.List.Sort

/-!
# Participants of a shared request

Any number of users ask for one title, and they share one request for it. A
request has an owner, or none, and it has subscribers, who are the users that
see it. Users join by asking for the title again, leave by withdrawing, and an
owner or an administrator cancels the request for everyone.

The rows are those of one title. Four calls of the services work on them at the
same time. A call is a program counter with what the call has read, and one
step of it is one statement on the database, so that any other call may run at
every `await`. What a call writes is pending until it commits and is not seen
by others before. The lock of the title is held from its acquisition to the
commit or the rollback that ends the transaction, and an acquisition of a lock
that is taken waits.

Everything from outside is in the label of a step: what Plex and the download
client answer, which season list a plan came to, and whether the call is
cancelled or a statement fails, which rolls its transaction back. The pipeline
moves the status of a request on at any time.
-/

namespace PlexManager

namespace Participants

open KeyedTable Interleaving
open Seasons (settledRequestStatuses)

/-! ### The rows -/

structure Subscriber where
  user : Nat
  subscribedAt : Nat
  deriving DecidableEq, Repr

/-- A request, with its rows of `request_subscribers`. The owner is the column
    `user_id`. -/
structure MediaRequest where
  id : Nat
  status : RequestStatus
  owner : Option Nat
  subscribers : List Subscriber
  deriving DecidableEq, Repr

variable (r : MediaRequest) (db : Db) (user : Nat) (c : Outside) (s : Shared) (p : CreateArgs)
  (id : Nat) (status : RequestStatus)

def MediaRequest.users : List Nat := r.subscribers.map Subscriber.user

/-- The order `subscribed_at ASC, user_id ASC`. -/
def Subscriber.before (a b : Subscriber) : Prop :=
  a.subscribedAt < b.subscribedAt ∨ (a.subscribedAt = b.subscribedAt ∧ a.user ≤ b.user)

instance : DecidableRel Subscriber.before := fun a b => by
  unfold Subscriber.before
  infer_instance

def MediaRequest.listSubscribers : List Nat :=
  (r.subscribers.insertionSort Subscriber.before).map Subscriber.user

/-- The requests for one title, in the order of their ids. -/
structure Db where
  tv : Bool
  rows : Table MediaRequest.id
  nextId : Nat

def cancellableRequestStatuses : List RequestStatus :=
  [.pending, .searching, .noAcceptableRelease, .waitingForAirDate, .downloading]

/-- Whether the index `uq_media_requests_active` covers a row. -/
def MediaRequest.active : Bool := r.status ∉ settledRequestStatuses

def Db.findActive : Option MediaRequest := db.rows.rows.find? MediaRequest.active

def Db.findEarliestAvailable : Option MediaRequest :=
  db.rows.rows.find? fun r => r.status = .available

/-- `find_in_library`: among the rows in the library, newest first, one of the
    user's own, else one of nobody's, else any. Without a user it is the newest. -/
def Db.findInLibrary (preferUserId : Option Nat) : Option MediaRequest :=
  let rows := db.rows.rows.reverse.filter fun r =>
    r.status = .available ∨ r.status = .completed
  match preferUserId with
  | none => rows.head?
  | some user =>
      (rows.find? fun r => r.owner = some user).or
        ((rows.find? fun r => r.owner = none).or rows.head?)

/-! ### Writes -/

/-- A statement of a transaction that writes to one row. -/
inductive Write where
  | addSubscriber (id user subscribedAt : Nat)
  | removeSubscriber (id user : Nat)
  | setOwner (id : Nat) (owner : Option Nat)
  | claimIfUnowned (id user : Nat)
  | setStatus (id : Nat) (status : RequestStatus)
  | delete (id : Nat)
  deriving DecidableEq, Repr

/-- `ON CONFLICT DO NOTHING`. -/
def MediaRequest.addSubscriber (subscribedAt : Nat) (r : MediaRequest) : MediaRequest :=
  if user ∈ r.users then r
  else { r with subscribers := r.subscribers ++ [⟨user, subscribedAt⟩] }

def MediaRequest.removeSubscriber (r : MediaRequest) : MediaRequest :=
  { r with subscribers := r.subscribers.filter fun s => s.user ≠ user }

def MediaRequest.setOwner (owner : Option Nat) (r : MediaRequest) : MediaRequest :=
  { r with owner := owner }

/-- `UPDATE ... WHERE user_id IS NULL`. -/
def MediaRequest.claimIfUnowned (r : MediaRequest) : MediaRequest :=
  if r.owner = none then { r with owner := some user } else r

def MediaRequest.setStatus (r : MediaRequest) : MediaRequest :=
  { r with status := status }

@[simp] theorem MediaRequest.addSubscriber_id (u t : Nat) (r : MediaRequest) :
    (r.addSubscriber u t).id = r.id := by
  unfold addSubscriber
  split <;> rfl

@[simp] theorem MediaRequest.removeSubscriber_id (u : Nat) (r : MediaRequest) :
    (r.removeSubscriber u).id = r.id := rfl

@[simp] theorem MediaRequest.setOwner_id (o : Option Nat) (r : MediaRequest) :
    (r.setOwner o).id = r.id := rfl

@[simp] theorem MediaRequest.claimIfUnowned_id (u : Nat) (r : MediaRequest) :
    (r.claimIfUnowned u).id = r.id := by
  unfold claimIfUnowned
  split <;> rfl

@[simp] theorem MediaRequest.setStatus_id (st : RequestStatus) (r : MediaRequest) :
    (r.setStatus st).id = r.id := rfl

def Db.write : Write → Db
  | .addSubscriber id user subscribedAt =>
      { db with
        rows := db.rows.modify id (MediaRequest.addSubscriber user subscribedAt)
          (MediaRequest.addSubscriber_id user subscribedAt) }
  | .removeSubscriber id user =>
      { db with
        rows := db.rows.modify id (MediaRequest.removeSubscriber user)
          (MediaRequest.removeSubscriber_id user) }
  | .setOwner id owner =>
      { db with
        rows := db.rows.modify id (MediaRequest.setOwner owner)
          (MediaRequest.setOwner_id owner) }
  | .claimIfUnowned id user =>
      { db with
        rows := db.rows.modify id (MediaRequest.claimIfUnowned user)
          (MediaRequest.claimIfUnowned_id user) }
  | .setStatus id status =>
      { db with
        rows := db.rows.modify id (MediaRequest.setStatus status)
          (MediaRequest.setStatus_id status) }
  | .delete id => { db with rows := db.rows.erase id }

/-- The writes of a transaction become visible with its commit, in order. -/
def Db.apply (writes : List Write) : Db := writes.foldl Db.write db

/-- `create`, with the row of its owner in `request_subscribers`. -/
def Db.create (user : Option Nat) (now : Nat) : Db :=
  { db with
    rows := db.rows.insert
      { id := db.nextId
        status := status
        owner := user
        subscribers := user.toList.map fun u => ⟨u, now⟩ }
    nextId := db.nextId + 1 }

/-! ### Calls and their surroundings -/

/-- The answers from outside the database that a step may need.

`fails` says that the statement raises or the task is cancelled there.
`plexPresent` is what Plex says of the title, for a show whether it has any
season. `evicted` is `latest_request_evicted`, `corroborated` that the path an
earlier request left is confirmed, and `superset` that every season the call
names is present and none was just evicted. `rolled` is the status that
`ensure_seasons` comes to. `refuses` stands for the reasons of a cancel to
refuse that lie with seasons and downloads, and `hasSeasons` says that a show
has a season to settle. -/
structure Outside where
  fails : Bool := false
  plexPresent : Bool := false
  evicted : Bool := false
  corroborated : Bool := true
  superset : Bool := false
  rolled : RequestStatus := .pending
  refuses : Bool := false
  hasSeasons : Bool := true
  now : Nat := 0
  deriving DecidableEq, Repr

/-- The rows and the lock of the title. -/
structure Shared where
  db : Db
  locked : Bool

def Shared.unlock : Shared := { s with locked := false }

/-- The arguments of `create_request_result` that decide about participants. -/
structure CreateArgs where
  userId : Option Nat
  actorIsAdmin : Bool := false
  library : Bool := true
  episodeScoped : Bool := false
  force : Bool := false
  expandSharedTv : Bool := false
  attempt : Nat := 0
  deriving DecidableEq, Repr

def maxDedupJoinAttempts : Nat := 3

def ownedByAnotherUser : Bool :=
  match p.userId, r.owner with
  | some user, some owner => !p.actorIsAdmin && owner ≠ user
  | _, _ => false

def dedupPreferenceUserId : Option Nat :=
  if p.actorIsAdmin then none else p.userId

/-- The places from which a create call subscribes its user: the join at the
    top, its second subscription, the join onto an active and onto a library row
    under the lock, and the recovery of a lost insertion. -/
inductive Site where
  | join (foreign : Bool)
  | again
  | active (foreign : Bool)
  | inLibrary
  | recovered (foreign : Bool)
  deriving DecidableEq, Repr

/-- Whether the subscription is written under the lock of the title. -/
def Site.locked : Site → Bool
  | .again => false
  | _ => true

inductive CreatePc where
  | findActive
  | joinLock
  | joinReread
  | subscribe (id user : Nat) (site : Site)
  | subscribeCommit (id user : Nat) (site : Site) (writes : List Write)
  | growLock (id : Nat)
  | growCheck (id : Nat)
  | resolve
  | libraryLock
  | libraryReread
  | libraryDecide
  | insert (locked : Bool) (status : RequestStatus)
  | recoverLock
  | recoverReread
  | collapseFind (own : Nat)
  | collapseClaim (own winner user : Nat)
  | collapseAdd (own winner : Nat) (writes : List Write)
  | collapseCopy (own winner : Nat) (writes : List Write)
  | collapseCommit (own winner : Nat) (writes : List Write)
  deriving DecidableEq, Repr

/-- The statements of `_cancel_request_locked`. -/
inductive LockedPc where
  | fresh
  | guards
  | settle
  deriving DecidableEq, Repr

inductive WithdrawPc where
  | get
  | lock
  | fresh
  | list (status : RequestStatus) (owner : Option Nat)
  | remove (owner : Option (Option Nat))
  | commit (writes : List Write)
  | cancelling (pc : LockedPc)
  | relock
  | refresh
  deriving DecidableEq, Repr

inductive CancelPc where
  | get
  | lock
  | check
  | list
  | locked (pc : LockedPc)
  deriving DecidableEq, Repr

inductive Call where
  | create (args : CreateArgs) (pc : CreatePc)
  | withdraw (id user : Nat) (pc : WithdrawPc)
  | cancel (id : Nat) (owner : Option Nat) (pc : CancelPc)
  | returned
  deriving DecidableEq, Repr

def acquireMediaLock (wait go : Call) : Shared × Call :=
  if s.locked then (s, wait) else ({ s with locked := true }, go)

/-- Commit the writes of a transaction that holds the lock. -/
def Shared.commit (writes : List Write) : Shared :=
  { db := s.db.apply writes, locked := false }

/-! ### `create_request_result` -/

/-- Start over once the target of a join has settled, a bounded number of
    times. -/
def retry : Call :=
  if p.attempt + 1 ≥ maxDedupJoinAttempts then .returned
  else .create { p with attempt := p.attempt + 1 } .findActive

/-- Where a call goes that has joined a row without writing a subscription. -/
def afterJoin (tv : Bool) (p : CreateArgs) (id : Nat) : Call :=
  if tv then .create p (.growLock id) else .returned

/-- Where a call goes once its subscription is committed. -/
def afterSubscribe (tv : Bool) (p : CreateArgs) (id user : Nat) : Site → Call
  | .join foreign =>
      if foreign && (!tv || !p.expandSharedTv) then .returned
      else .create p (.subscribe id user .again)
  | .again => afterJoin tv p id
  | .active foreign => if foreign && !p.expandSharedTv then .returned else afterJoin tv p id
  | .inLibrary => .returned
  | .recovered foreign =>
      if foreign && (!tv || !p.expandSharedTv) then .returned else afterJoin tv p id

/-- Join a row under the lock. A caller without a user has nothing to write and
    gives the lock back. -/
def joinUnderLock (r : MediaRequest) (site : Site) (unowned : Call) : Shared × Call :=
  match p.userId with
  | none => (s.unlock, unowned)
  | some user => (s, .create p (.subscribe r.id user site))

/-- `add_subscriber` on what is committed. The foreign key refuses a row that is
    gone. -/
def addSubscriberWrites (now : Nat) : List Write :=
  if user ∈ r.users then [] else [.addSubscriber r.id user now]

/-- `copy_subscribers`. -/
def copySubscribersWrites (source target : MediaRequest) (now : Nat) : List Write :=
  source.users.flatMap fun user => addSubscriberWrites target user now

def createNext : CreatePc → Shared × Call
  | .findActive =>
      if s.db.findActive.isSome then (s, .create p .joinLock) else (s, .create p .resolve)
  | .joinLock => acquireMediaLock s (.create p .joinLock) (.create p .joinReread)
  | .joinReread =>
      match s.db.findActive with
      | none => (s.unlock, .create p .resolve)
      | some r =>
          joinUnderLock s p r (.join (ownedByAnotherUser r p)) (afterJoin s.db.tv p r.id)
  | .subscribe id user site =>
      match s.db.rows.find id with
      | none => (if site.locked then s.unlock else s, .returned)
      | some r =>
          (s, .create p (.subscribeCommit id user site (addSubscriberWrites r user c.now)))
  | .subscribeCommit id user site writes =>
      (if site.locked then s.commit writes else { s with db := s.db.apply writes },
        afterSubscribe s.db.tv p id user site)
  | .growLock id => acquireMediaLock s (.create p (.growLock id)) (.create p (.growCheck id))
  | .growCheck id =>
      -- The season writes move the status of the row like the pipeline does.
      match s.db.rows.find id with
      | none => (s.unlock, retry p)
      | some fresh => (s.unlock, if fresh.active then .returned else retry p)
  | .resolve =>
      if s.db.tv then
        if p.library && !p.episodeScoped && c.plexPresent then (s, .create p .libraryLock)
        else (s, .create p (.insert false .pending))
      else if p.library && (p.force || c.plexPresent) then (s, .create p .libraryLock)
      else (s, .create p (.insert false .pending))
  | .libraryLock => acquireMediaLock s (.create p .libraryLock) (.create p .libraryReread)
  | .libraryReread =>
      match s.db.findActive with
      | some r =>
          joinUnderLock s p r (.active (ownedByAnotherUser r p)) (afterJoin s.db.tv p r.id)
      | none => (s, .create p .libraryDecide)
  | .libraryDecide =>
      if s.db.tv then
        match if c.superset then s.db.findInLibrary (dedupPreferenceUserId p) else none with
        | some r => joinUnderLock s p r .inLibrary .returned
        | none => (s.unlock, .create p (.insert false .pending))
      else if p.force || c.evicted then (s, .create p (.insert true .pending))
      else
        match s.db.findInLibrary (dedupPreferenceUserId p) with
        | some r => joinUnderLock s p r .inLibrary .returned
        | none => (s, .create p (.insert true (if c.corroborated then .available else .pending)))
  | .insert locked status =>
      -- A show is inserted as `pending` and rolled up before the commit.
      if s.db.findActive.isSome && (s.db.tv || status = .pending) then
        (if locked then s.unlock else s, .create p .recoverLock)
      else
        let final := if s.db.tv then c.rolled else status
        let created := s.db.create final p.userId c.now
        ({ db := created, locked := if locked then false else s.locked },
          if final = .available then .create p (.collapseFind s.db.nextId) else .returned)
  | .recoverLock => acquireMediaLock s (.create p .recoverLock) (.create p .recoverReread)
  | .recoverReread =>
      match s.db.findActive with
      | none => (s.unlock, retry p)
      | some r =>
          joinUnderLock s p r (.recovered (ownedByAnotherUser r p)) (afterJoin s.db.tv p r.id)
  | .collapseFind own =>
      match s.db.findEarliestAvailable with
      | none => (s, .returned)
      | some winner =>
          if winner.id = own then (s, .returned)
          else if ownedByAnotherUser winner p then (s, .create p (.collapseAdd own winner.id []))
          else
            match winner.owner, p.userId with
            | none, some user => (s, .create p (.collapseClaim own winner.id user))
            | _, _ => (s, .create p (.collapseAdd own winner.id []))
  | .collapseClaim own winner user =>
      (s, .create p (.collapseAdd own winner [.claimIfUnowned winner user]))
  | .collapseAdd own winner writes =>
      match p.userId with
      | none => (s, .create p (.collapseCopy own winner writes))
      | some user =>
          match s.db.rows.find winner with
          | none => (s, .returned)
          | some r =>
              (s, .create p
                (.collapseCopy own winner (writes ++ addSubscriberWrites r user c.now)))
  | .collapseCopy own winner writes =>
      match s.db.rows.find own, s.db.rows.find winner with
      | some source, some target =>
          (s, .create p
            (.collapseCommit own winner (writes ++ copySubscribersWrites source target c.now)))
      | none, _ => (s, .create p (.collapseCommit own winner writes))
      | some _, none => (s, .returned)
  | .collapseCommit own _ writes =>
      ({ s with db := s.db.apply (writes ++ [.delete own]) }, .returned)

/-! ### Withdrawing and cancelling -/

/-- One statement of `_cancel_request_locked`, with what the caller does after
    it. The status of a show is the rollup of its cancelled seasons. -/
def lockedNext (stay : LockedPc → Call) (done : Call) :
    LockedPc → Shared × Call
  | .fresh =>
      match s.db.rows.find id with
      | none => (s.unlock, .returned)
      | some r =>
          if r.status ∈ cancellableRequestStatuses then (s, stay .guards)
          else (s.unlock, .returned)
  | .guards => if c.refuses then (s.unlock, .returned) else (s, stay .settle)
  | .settle =>
      (s.commit (if s.db.tv && !c.hasSeasons then [] else [.setStatus id .cancelled]), done)

def removalWrites (owner : Option (Option Nat)) : List Write :=
  (if user ∈ r.users then [.removeSubscriber r.id user] else []) ++
    owner.toList.map (.setOwner r.id)

def withdrawNext (user : Nat) : WithdrawPc → Shared × Call
  | .get =>
      if (s.db.rows.find id).isSome then (s, .withdraw id user .lock) else (s, .returned)
  | .lock => acquireMediaLock s (.withdraw id user .lock) (.withdraw id user .fresh)
  | .fresh =>
      match s.db.rows.find id with
      | none => (s.unlock, .returned)
      | some r => (s, .withdraw id user (.list r.status r.owner))
  | .list status owner =>
      match s.db.rows.find id with
      | none => (s.unlock, .returned)
      | some r =>
          match r.listSubscribers.filter (· ≠ user) with
          | newOwner :: _ =>
              (s, .withdraw id user
                (.remove (if owner = some user then some (some newOwner) else none)))
          | [] =>
              if status ∈ cancellableRequestStatuses then
                (s, .withdraw id user (.cancelling .fresh))
              else if status ∈ settledRequestStatuses then
                (s, .withdraw id user (.remove (if owner = some user then some none else none)))
              else (s.unlock, .returned)
  | .remove owner =>
      match s.db.rows.find id with
      | none => (s.unlock, .returned)
      | some r => (s, .withdraw id user (.commit (removalWrites r user owner)))
  | .commit writes => (s.commit writes, .returned)
  | .cancelling pc =>
      lockedNext c s id (fun pc => .withdraw id user (.cancelling pc))
        (.withdraw id user .relock) pc
  | .relock => acquireMediaLock s (.withdraw id user .relock) (.withdraw id user .refresh)
  | .refresh =>
      match s.db.rows.find id with
      | none => (s.unlock, .returned)
      | some settled =>
          (s, .withdraw id user (.remove (if settled.owner = some user then some none else none)))

/-- `cancel_request`, and `cancel_request_as_owner` for a given user. -/
def cancelNext (owner : Option Nat) :
    CancelPc → Shared × Call
  | .get =>
      if (s.db.rows.find id).isSome then (s, .cancel id owner .lock) else (s, .returned)
  | .lock =>
      acquireMediaLock s (.cancel id owner .lock)
        (.cancel id owner (if owner.isSome then .check else .locked .fresh))
  | .check =>
      if (s.db.rows.find id).isSome then (s, .cancel id owner .list) else (s.unlock, .returned)
  | .list =>
      match s.db.rows.find id with
      | none => (s.unlock, .returned)
      | some r =>
          if r.listSubscribers.any fun uid => owner ≠ some uid then (s.unlock, .returned)
          else (s, .cancel id owner (.locked .fresh))
  | .locked pc => lockedNext c s id (fun pc => .cancel id owner (.locked pc)) .returned pc

/-! ### One step of a call -/

def Call.holdsLock : Call → Bool
  | .create _ pc =>
      match pc with
      | .joinReread | .growCheck _ | .libraryReread | .libraryDecide | .recoverReread => true
      | .subscribe _ _ site | .subscribeCommit _ _ site _ => site.locked
      | .insert locked _ => locked
      | _ => false
  | .withdraw _ _ pc =>
      match pc with
      | .get | .lock | .relock => false
      | _ => true
  | .cancel _ _ pc =>
      match pc with
      | .get | .lock => false
      | _ => true
  | .returned => false

def Call.next (c : Outside) (s : Shared) (call : Call) : Shared × Call :=
  if c.fails then (if call.holdsLock then s.unlock else s, .returned)
  else
    match call with
    | .create p pc => createNext c s p pc
    | .withdraw id user pc => withdrawNext c s id user pc
    | .cancel id owner pc => cancelNext c s id owner pc
    | .returned => (s, .returned)

inductive Request where
  | create (args : CreateArgs)
  | withdraw (id user : Nat)
  | cancel (id : Nat)
  | cancelAsOwner (id user : Nat)
  deriving DecidableEq, Repr

def Request.start : Request → Call
  | .create p => .create { p with attempt := 0 } .findActive
  | .withdraw id user => .withdraw id user .get
  | .cancel id => .cancel id none .get
  | .cancelAsOwner id user => .cancel id (some user) .get

abbrev World := Interleaving.World Shared Call

def World.idle : World := ⟨⟨db, false⟩, []⟩

/-- A call begins, some call takes its next step, or the pipeline moves a
    request on, which the unique index may refuse. -/
inductive Action where
  | arrive (request : Request)
  | act (i : Nat) (c : Outside)
  | move (id : Nat) (status : RequestStatus)
  deriving DecidableEq, Repr

/-- The moves of the pipeline. It cancels nothing. -/
def Db.movable : Bool :=
  status ≠ .cancelled &&
    (status ∈ settledRequestStatuses || db.findActive.all fun r => r.id = id)

def step (w : World) : Action → Option World
  | .arrive request => some (w.spawn request.start)
  | .act i c => w.act Call.next i c
  | .move id status =>
      if w.shared.db.movable id status then
        some { w with shared := { w.shared with db := w.shared.db.write (.setStatus id status) } }
      else none

end Participants

end PlexManager
