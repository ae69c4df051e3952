import PlexManager.Core.Participants

/-!
# What a step does to the participants of a request

A call that has read something about a request relies on it until it writes,
and other calls take their steps in between. What they can do to a request in
one step is said once here, as a relation between the row before and the row
after: `Kept`. A subscription only goes away by a withdrawal of that user, and a
request is only cancelled by a call that holds the lock. Under the lock a call
is therefore safe from all others, and outside it from all but two: the
withdrawal of its own user, and the cancellation of the request itself.

Two stretches of a create call write participants outside the lock. A join at
the top subscribes twice, and the first commit gives the lock back. And of two
rows that are available at once the younger is collapsed onto the older after
its commit.

## Main definitions

* `OwnersSubscribed`, `JoinsLive`: What is to hold of the rows.
* `Clash`, `Beside`, `Undisturbed`: The calls that must not be under way
  together.
* `Effect`: The ways a step may change the rows.
* `Relies`: What a call relies on where it stands.
* `Kept`: What is left of a row after a step.
-/

namespace PlexManager

namespace Participants

open KeyedTable Interleaving
open Seasons (settledRequestStatuses)

/-! ### What a write does to a row -/

def Write.onRow (id : Nat) (r : MediaRequest) : Write → Option MediaRequest
  | .addSubscriber i user now => some (if id = i then r.addSubscriber user now else r)
  | .removeSubscriber i user => some (if id = i then r.removeSubscriber user else r)
  | .setOwner i owner => some (if id = i then r.setOwner owner else r)
  | .claimIfUnowned i user => some (if id = i then r.claimIfUnowned user else r)
  | .setStatus i status => some (if id = i then r.setStatus status else r)
  | .delete i => if id = i then none else some r

variable (db : Db) (u : Nat)

theorem find_write (x : Write) (id : Nat) :
    (db.write x).rows.find id = (db.rows.find id).bind fun r => x.onRow id r := by
  cases x with
  | delete i =>
    simp only [Db.write, Table.find_erase, Write.onRow]
    by_cases h : id = i
    · cases db.rows.find id <;> simp [h]
    · cases db.rows.find id <;> simp [h]
  | _ =>
    simp only [Db.write, Table.find_modify, Write.onRow]
    cases db.rows.find id <;> rfl

@[simp] theorem write_nextId (x : Write) : (db.write x).nextId = db.nextId := by
  cases x <;> rfl

@[simp] theorem apply_nil : db.apply [] = db := rfl

theorem apply_cons (x : Write) (ws : List Write) :
    db.apply (x :: ws) = (db.write x).apply ws := rfl

@[simp] theorem apply_nextId (ws : List Write) : (db.apply ws).nextId = db.nextId := by
  induction ws generalizing db with
  | nil => rfl
  | cons x ws ih => rw [apply_cons, ih, write_nextId]

variable {id user winner id' own : Nat} {db : Db} {r' r : MediaRequest} {ws : List Write} {a : Call}
  {p : CreateArgs} {owner : Option (Option Nat)} {s : Shared}

theorem find_apply {P : MediaRequest → MediaRequest → Prop} (hrefl : ∀ r, P r r)
    (htrans : ∀ r s t, P r s → P s t → P r t)
    (hwr : ∀ x ∈ ws, ∀ r r', r.id = id → x.onRow id r = some r' → P r r')
    (h : (db.apply ws).rows.find id = some r') : ∃ r, db.rows.find id = some r ∧ P r r' := by
  induction ws generalizing db with
  | nil => exact ⟨r', h, hrefl r'⟩
  | cons x ws ih =>
    rcases ih (fun y hy => hwr y (List.mem_cons_of_mem x hy)) h with ⟨s, hs, hsr⟩
    rw [find_write] at hs
    cases hr : db.rows.find id with
    | none =>
      rw [hr] at hs
      simp at hs
    | some r =>
      rw [hr, Option.bind_some] at hs
      have hrid : r.id = id := Table.key_of_find hr
      exact ⟨r, rfl, htrans r s r' (hwr x List.mem_cons_self r s hrid hs) hsr⟩

/-! ### Users and owners of a row -/

theorem users_addSubscriber (user now : Nat) (r : MediaRequest) :
    ∀ u, u ∈ (r.addSubscriber user now).users ↔ u ∈ r.users ∨ u = user := by
  intro u
  unfold MediaRequest.addSubscriber
  split
  · rename_i hin
    constructor
    · exact .inl
    · rintro (h | rfl)
      · exact h
      · exact hin
  · simp [MediaRequest.users]

theorem users_removeSubscriber (user : Nat) (r : MediaRequest) :
    ∀ u, u ∈ (r.removeSubscriber user).users ↔ u ∈ r.users ∧ u ≠ user := by
  intro u
  simp only [MediaRequest.users, MediaRequest.removeSubscriber, List.mem_map, List.mem_filter,
    decide_eq_true_eq]
  constructor
  · rintro ⟨s, ⟨hs, hne⟩, rfl⟩
    exact ⟨⟨s, hs, rfl⟩, hne⟩
  · rintro ⟨⟨s, hs, rfl⟩, hne⟩
    exact ⟨s, ⟨hs, hne⟩, rfl⟩

theorem mem_listSubscribers (r : MediaRequest) (u : Nat) : u ∈ r.listSubscribers ↔ u ∈ r.users := by
  simp [MediaRequest.listSubscribers, MediaRequest.users, List.mem_insertionSort]

@[simp] theorem users_claimIfUnowned (r : MediaRequest) : (r.claimIfUnowned u).users = r.users := by
  unfold MediaRequest.claimIfUnowned
  split <;> rfl

@[simp] theorem status_addSubscriber (t : Nat) (r : MediaRequest) :
    (r.addSubscriber u t).status = r.status := by
  unfold MediaRequest.addSubscriber
  split <;> rfl

@[simp] theorem owner_addSubscriber (t : Nat) (r : MediaRequest) :
    (r.addSubscriber u t).owner = r.owner := by
  unfold MediaRequest.addSubscriber
  split <;> rfl

@[simp] theorem status_claimIfUnowned (r : MediaRequest) :
    (r.claimIfUnowned u).status = r.status := by
  unfold MediaRequest.claimIfUnowned
  split <;> rfl

theorem owner_claimIfUnowned (r : MediaRequest) :
    (r.claimIfUnowned u).owner = r.owner ∨
      (r.owner = none ∧ (r.claimIfUnowned u).owner = some u) := by
  unfold MediaRequest.claimIfUnowned
  split
  · rename_i h
    exact .inr ⟨h, rfl⟩
  · exact .inl rfl

/-! ### What is to hold -/

def MediaRequest.Owned (r : MediaRequest) : Prop := ∀ u, r.owner = some u → u ∈ r.users

def OwnersSubscribed (db : Db) : Prop := ∀ r ∈ db.rows.rows, r.Owned

/-- No subscription that is new was inserted for a request that was cancelled
    before. -/
def JoinsLive (db db' : Db) : Prop :=
  ∀ r ∈ db.rows.rows, ∀ r' ∈ db'.rows.rows, r'.id = r.id →
    ∀ u ∈ r'.users, u ∉ r.users → r.status ≠ .cancelled

structure Db.Sound (db : Db) : Prop where
  numbered : ∀ r ∈ db.rows.rows, r.id < db.nextId
  owned : OwnersSubscribed db

/-! ### Calls that disturb one another -/

/-- The request whose participants a create call writes outside the lock, with
    the user it writes for: between the two subscriptions of a join, and during
    the collapse of two available rows. -/
def Call.writesOutside : Call → Option (Nat × Nat)
  | .create _ (.subscribe id user .again) => some (id, user)
  | .create _ (.subscribeCommit id user .again _) => some (id, user)
  | .create _ (.collapseClaim _ winner user) => some (winner, user)
  | .create p (.collapseAdd _ winner _) => p.userId.map (winner, ·)
  | .create p (.collapseCopy _ winner _) => p.userId.map (winner, ·)
  | .create p (.collapseCommit _ winner _) => p.userId.map (winner, ·)
  | _ => none

def Call.collapsesOnto : Call → Option Nat
  | .create _ (.collapseClaim _ winner _) => some winner
  | .create _ (.collapseAdd _ winner _) => some winner
  | .create _ (.collapseCopy _ winner _) => some winner
  | .create _ (.collapseCommit _ winner _) => some winner
  | _ => none

def Call.withdraws : Call → Option (Nat × Nat)
  | .withdraw _ _ .get => none
  | .withdraw _ _ .lock => none
  | .withdraw id user _ => some (id, user)
  | _ => none

def Call.cancels : Call → Option Nat
  | .withdraw id _ (.cancelling .settle) => some id
  | .cancel id _ (.locked .settle) => some id
  | _ => none

/-- A create call writes outside the lock what another call is about to take
    away. -/
def Clash (a b : Call) : Prop :=
  (a.writesOutside.isSome ∧ a.writesOutside = b.withdraws) ∨
    (a.collapsesOnto.isSome ∧ a.collapsesOnto = b.cancels)

instance (a b : Call) : Decidable (Clash a b) :=
  inferInstanceAs (Decidable (_ ∨ _))

def Beside (a b : Call) : Prop := ¬Clash a b ∧ ¬Clash b a

instance : DecidableRel Beside := fun _ _ => inferInstanceAs (Decidable (_ ∧ _))

/-- No user withdraws from a request while a create call of the same user writes
    its participants outside the lock, and none is cancelled while another row
    is collapsed onto it. -/
def Undisturbed (w : World) : Prop := w.actors.Pairwise Beside

instance (w : World) : Decidable (Undisturbed w) :=
  inferInstanceAs (Decidable (List.Pairwise _ _))

/-! ### What the step of a call does to the rows -/

/-- The ways a step of a call may change the rows. The moves of the pipeline are
    no step of any call under way. -/
inductive Effect (s : Shared) : Call → Db → Prop where
  | reads (a : Call) : Effect s a s.db
  | subscribes (p : CreateArgs) (id user : Nat) (site : Site) (ws : List Write) :
      Effect s (.create p (.subscribeCommit id user site ws)) (s.db.apply ws)
  | collapses (p : CreateArgs) (own winner : Nat) (ws : List Write) :
      Effect s (.create p (.collapseCommit own winner ws)) (s.db.apply (ws ++ [.delete own]))
  | inserts (p : CreateArgs) (locked : Bool) (status final : RequestStatus) (now : Nat) :
      Effect s (.create p (.insert locked status)) (s.db.create final p.userId now)
  | removes (id user : Nat) (ws : List Write) :
      Effect s (.withdraw id user (.commit ws)) (s.db.apply ws)
  | settles (a : Call) (id : Nat) (h : a.cancels = some id) :
      Effect s a (s.db.apply [.setStatus id .cancelled])
  | moves (id : Nat) (status : RequestStatus) (h : status ≠ .cancelled) :
      Effect s .returned (s.db.apply [.setStatus id status])

theorem acquire_db (s : Shared) (wait go : Call) : (acquireMediaLock s wait go).1.db = s.db := by
  unfold acquireMediaLock
  split <;> rfl

theorem join_db (s : Shared) (p : CreateArgs) (r : MediaRequest) (site : Site) (unowned : Call) :
    (joinUnderLock s p r site unowned).1.db = s.db := by
  unfold joinUnderLock
  split <;> rfl

theorem Effect.of_eq (h : db = s.db) : Effect s a db :=
  h ▸ .reads a

theorem effect_of_create (c : Outside) (s : Shared) (p : CreateArgs) (pc : CreatePc) :
    Effect s (.create p pc) (createNext c s p pc).1.db := by
  -- A subscription, an insert and a collapse write; every other step reads.
  cases pc with
  | joinLock | growLock | libraryLock | recoverLock => exact .of_eq (acquire_db s _ _)
  | joinReread | libraryReread | recoverReread =>
    simp only [createNext]
    split
    · exact .of_eq (by first | rfl | exact join_db s p _ _ _)
    · exact .of_eq (by first | rfl | exact join_db s p _ _ _)
  | subscribeCommit id user site ws =>
    have hdb : (createNext c s p (.subscribeCommit id user site ws)).1.db = s.db.apply ws := by
      simp only [createNext]
      split <;> rfl
    rw [hdb]
    exact .subscribes p id user site ws
  | collapseCommit own winner ws => exact .collapses p own winner ws
  | insert locked status =>
    simp only [createNext]
    split
    · refine .of_eq ?_
      split <;> rfl
    · exact .inserts p locked status _ c.now
  | findActive | growCheck id | collapseCopy own winner ws =>
    simp only [createNext]
    split <;> exact .reads _
  | subscribe id user site =>
    simp only [createNext]
    split
    · refine .of_eq ?_
      split <;> rfl
    · exact .reads _
  | resolve =>
    simp only [createNext]
    split <;> split <;> exact .reads _
  | libraryDecide =>
    simp only [createNext]
    split
    · split
      · exact .of_eq (join_db s p _ _ _)
      · exact .reads _
    · split
      · exact .reads _
      · split
        · exact .of_eq (join_db s p _ _ _)
        · exact .reads _
  | collapseFind own =>
    simp only [createNext]
    split
    · exact .reads _
    split
    · exact .reads _
    · split
      · exact .reads _
      · split <;> exact .reads _
  | collapseClaim own winner user => exact .reads _
  | collapseAdd own winner ws =>
    simp only [createNext]
    split
    · exact .reads _
    · split <;> exact .reads _

theorem effect_of_locked (c : Outside) (s : Shared) (id : Nat) (stay : LockedPc → Call)
    (done a : Call) (pc : LockedPc) (hcan : pc = .settle → a.cancels = some id) :
    Effect s a (lockedNext c s id stay done pc).1.db := by
  cases pc with
  | fresh =>
    simp only [lockedNext]
    split
    · exact .reads _
    · split <;> exact .reads _
  | guards =>
    simp only [lockedNext]
    split <;> exact .reads _
  | settle =>
    simp only [lockedNext, Shared.commit]
    split
    · exact .reads _
    · exact .settles a id (hcan rfl)

theorem effect_of_next (c : Outside) (s : Shared) (a : Call) : Effect s a (a.next c s).1.db := by
  unfold Call.next
  split
  · refine .of_eq ?_
    split <;> rfl
  cases a with
  | returned => exact .reads _
  | create p pc => exact effect_of_create c s p pc
  | withdraw id user pc =>
    cases pc with
    | lock | relock => exact .of_eq (acquire_db s _ _)
    | commit ws => exact .removes id user ws
    | cancelling pc =>
      refine effect_of_locked c s id _ _ _ pc ?_
      rintro rfl
      rfl
    | get | fresh | remove | refresh =>
      simp only [withdrawNext]
      split <;> exact .reads _
    | list status owner =>
      simp only [withdrawNext]
      split
      · exact .reads _
      split
      · exact .reads _
      · split
        · exact .reads _
        · split <;> exact .reads _
  | cancel id owner pc =>
    cases pc with
    | lock => exact .of_eq (acquire_db s _ _)
    | locked pc =>
      refine effect_of_locked c s id _ _ _ pc ?_
      rintro rfl
      rfl
    | get | check =>
      simp only [cancelNext]
      split <;> exact .reads _
    | list =>
      simp only [cancelNext]
      split
      · exact .reads _
      · split <;> exact .reads _

/-! ### What a call relies on -/

def Db.Live (db : Db) (id : Nat) : Prop :=
  id < db.nextId ∧ ∀ r, db.rows.find id = some r → r.status ≠ .cancelled

def Db.Subscribed (db : Db) (id user : Nat) : Prop :=
  id < db.nextId ∧ ∀ r, db.rows.find id = some r → user ∈ r.users

def Db.OwnerRead (db : Db) (id user : Nat) (owner : Option Nat) : Prop :=
  id < db.nextId ∧ ∀ r, db.rows.find id = some r → (r.owner = some user ↔ owner = some user)

/-- Once the user is removed, the owner that a withdrawal leaves takes part. -/
def Handoff (user : Nat) (r : MediaRequest) : Option (Option Nat) → Prop
  | none => r.owner ≠ some user
  | some none => True
  | some (some owner) => owner ∈ r.users ∧ owner ≠ user

def Db.Leaves (db : Db) (id user : Nat) (owner : Option (Option Nat)) : Prop :=
  id < db.nextId ∧ ∀ r, db.rows.find id = some r → Handoff user r owner

/-- The writes of a collapse only add subscribers to the winner, and who claims
    it is one of them. -/
def Db.Widens (db : Db) (p : CreateArgs) (winner : Nat) (ws : List Write) : Prop :=
  ∀ x ∈ ws, (∃ u t, x = .addSubscriber winner u t) ∨
    ∃ u, p.userId = some u ∧ x = .claimIfUnowned winner u ∧
      (db.Subscribed winner u ∨ ∃ t, Write.addSubscriber winner u t ∈ ws)

def Relies (db : Db) : Call → Prop
  | .create p pc =>
      match pc with
      | .subscribe id user site => if site.locked then db.Live id else db.Subscribed id user
      | .subscribeCommit id user site ws =>
          if site.locked then
            db.Live id ∧ (db.Subscribed id user ∧ ws = [] ∨ ∃ t, ws = [.addSubscriber id user t])
          else ws = []
      | .collapseClaim _ winner user => db.Live winner ∧ p.userId = some user
      | .collapseAdd _ winner ws =>
          db.Live winner ∧ (ws = [] ∨ ∃ u, p.userId = some u ∧ ws = [.claimIfUnowned winner u])
      | .collapseCopy _ winner ws => db.Live winner ∧ db.Widens p winner ws
      | .collapseCommit _ winner ws => db.Live winner ∧ db.Widens p winner ws
      | _ => True
  | .withdraw id user pc =>
      match pc with
      | .list _ owner => db.OwnerRead id user owner
      | .remove owner => db.Leaves id user owner
      | .commit ws =>
          ∃ owner, db.Leaves id user owner ∧
            (ws = .removeSubscriber id user :: owner.toList.map (.setOwner id) ∨
              ws = owner.toList.map (.setOwner id))
      | _ => True
  | _ => True

/-- What is left of a row after the step of a call. -/
structure Kept (a : Call) (r r' : MediaRequest) : Prop where
  cancelled : r'.status = .cancelled →
    r.status = .cancelled ∨ (a.cancels = some r.id ∧ a.holdsLock = true)
  stays : ∀ u ∈ r.users, u ∈ r'.users ∨ (a.withdraws = some (r.id, u) ∧ a.holdsLock = true)
  owner : r'.owner = r.owner ∨ a.holdsLock = true ∨
    (r.owner = none ∧ ∃ u, r'.owner = some u ∧ a.writesOutside = some (r.id, u))
  joins : ∀ u ∈ r'.users, u ∉ r.users → r.status ≠ .cancelled
  owned : r.Owned → r'.Owned

theorem Kept.refl (a : Call) (r : MediaRequest) : Kept a r r where
  cancelled := .inl
  stays := fun _ hu => .inl hu
  owner := .inl rfl
  joins := fun _ hu hnu => absurd hu hnu
  owned := fun h => h

/-! ### Each effect on a row -/

theorem holdsLock_of_cancels (h : a.cancels = some id) : a.holdsLock = true := by
  unfold Call.cancels at h
  split at h
  · rfl
  · rfl
  · simp at h

theorem find_create (status : RequestStatus) (user : Option Nat) (now : Nat)
    (hid : id < db.nextId) : (db.create status user now).rows.find id = db.rows.find id := by
  have hne : db.nextId ≠ id := by omega
  simp only [Db.create, Table.find_insert]
  rw [if_neg hne, Option.or_none]

/-- How the writes of a collapse change the rows. -/
structure Widened (winner : Nat) (ws : List Write) (r r' : MediaRequest) : Prop where
  id : r'.id = r.id
  status : r'.status = r.status
  stays : ∀ u ∈ r.users, u ∈ r'.users
  joins : ∀ u ∈ r'.users, u ∉ r.users → r.id = winner
  owner : r'.owner = r.owner ∨
    (r.owner = none ∧ r.id = winner ∧
      ∃ u, r'.owner = some u ∧ Write.claimIfUnowned winner u ∈ ws)

theorem Widened.refl (winner : Nat) (ws : List Write) (r : MediaRequest) : Widened winner ws r r :=
  ⟨rfl, rfl, fun _ h => h, fun _ h hn => absurd h hn, .inl rfl⟩

theorem Widened.trans {s t : MediaRequest} (h : Widened winner ws r s)
    (h' : Widened winner ws s t) : Widened winner ws r t where
  id := h'.id.trans h.id
  status := h'.status.trans h.status
  stays := fun u hu => h'.stays u (h.stays u hu)
  joins := by
    intro u hu hnu
    by_cases hs : u ∈ s.users
    · exact h.joins u hs hnu
    · rw [← h.id]
      exact h'.joins u hu hs
  owner := by
    rcases h'.owner with heq | ⟨hnone, hid, hu⟩
    · rw [heq]
      exact h.owner
    · rcases h.owner with heq | ⟨_, _, u, hsome, _⟩
      · exact .inr ⟨heq ▸ hnone, h.id ▸ hid, hu⟩
      · rw [hsome] at hnone
        simp at hnone

theorem widened_add (winner user now : Nat) (ws : List Write) (hid : r.id = id)
    (h : (Write.addSubscriber winner user now).onRow id r = some r') : Widened winner ws r r' := by
  simp only [Write.onRow, Option.some.injEq] at h
  by_cases hw : id = winner
  · rw [if_pos hw] at h
    subst h
    exact ⟨by simp, by simp, fun u hu => (users_addSubscriber user now r u).mpr (.inl hu),
      fun _ _ _ => hid.trans hw, .inl (by simp)⟩
  · rw [if_neg hw] at h
    exact h ▸ Widened.refl winner ws r

theorem widened_claim (hmem : Write.claimIfUnowned winner user ∈ ws) (hid : r.id = id)
    (h : (Write.claimIfUnowned winner user).onRow id r = some r') : Widened winner ws r r' := by
  simp only [Write.onRow, Option.some.injEq] at h
  by_cases hw : id = winner
  · rw [if_pos hw] at h
    subst h
    refine ⟨by simp, by simp, fun u hu => by simpa using hu,
      fun u hu hnu => absurd (by simpa using hu) hnu, ?_⟩
    rcases owner_claimIfUnowned user r with heq | ⟨hnone, hsome⟩
    · exact .inl heq
    · exact .inr ⟨hnone, hid.trans hw, user, hsome, hmem⟩
  · rw [if_neg hw] at h
    exact h ▸ Widened.refl winner ws r

theorem widened_of_apply {db₀ : Db} {xs : List Write} (hws : db₀.Widens p winner ws)
    (hxs : ∀ x ∈ xs, x ∈ ws ∨ x = .delete own) (h : (db.apply xs).rows.find id = some r') :
    ∃ r, db.rows.find id = some r ∧ Widened winner ws r r' := by
  refine find_apply (Widened.refl winner ws) (fun _ _ _ => Widened.trans) ?_ h
  intro x hx r s hid hrow
  rcases hxs x hx with hx | rfl
  · rcases hws x hx with ⟨u, t, rfl⟩ | ⟨u, _, rfl, _⟩
    · exact widened_add winner u t ws hid hrow
    · exact widened_claim hx hid hrow
  · simp only [Write.onRow] at hrow
    split at hrow
    · simp at hrow
    simp only [Option.some.injEq] at hrow
    exact hrow ▸ Widened.refl winner ws r

theorem apply_append (db : Db) (xs ys : List Write) :
    db.apply (xs ++ ys) = (db.apply xs).apply ys := by
  simp only [Db.apply, List.foldl_append]

theorem mem_users_of_add {db₀ : Db} {u t : Nat} (hws : db₀.Widens p winner ws)
    (hmem : Write.addSubscriber winner u t ∈ ws)
    (h : (db.apply (ws ++ [.delete own])).rows.find winner = some r') : u ∈ r'.users := by
  rcases List.append_of_mem hmem with ⟨before, after, heq⟩
  have hspl : ws ++ [.delete own] =
      before ++ .addSubscriber winner u t :: (after ++ [.delete own]) := by
    simp [heq]
  rw [hspl, apply_append, apply_cons] at h
  have haft : ∀ x ∈ after ++ [Write.delete own], x ∈ ws ∨ x = .delete own := by
    intro x hx
    rcases List.mem_append.mp hx with hx | hx
    · exact .inl (by simp [heq, hx])
    · exact .inr (List.mem_singleton.mp hx)
  rcases widened_of_apply hws haft h with ⟨s, hs, hwiden⟩
  refine hwiden.stays u ?_
  rw [find_write] at hs
  cases hr : (db.apply before).rows.find winner with
  | none =>
    rw [hr] at hs
    simp at hs
  | some r =>
    rw [hr, Option.bind_some] at hs
    simp only [Write.onRow, if_true, Option.some.injEq] at hs
    subst hs
    exact (users_addSubscriber u t r u).mpr (.inr rfl)

theorem kept_of_collapse (hlive : db.Live winner) (hws : db.Widens p winner ws)
    (h : (db.apply (ws ++ [.delete own])).rows.find id = some r') :
    ∃ r, db.rows.find id = some r ∧
      Kept (.create p (.collapseCommit own winner ws)) r r' := by
  have hall : ∀ x ∈ ws ++ [Write.delete own], x ∈ ws ∨ x = .delete own := by
    intro x hx
    rcases List.mem_append.mp hx with hx | hx
    · exact .inl hx
    · exact .inr (List.mem_singleton.mp hx)
  rcases widened_of_apply hws hall h with ⟨r, hr, hwiden⟩
  have hid : r.id = id := Table.key_of_find hr
  refine ⟨r, hr, fun hc => .inl (hwiden.status ▸ hc), fun u hu => .inl (hwiden.stays u hu),
    ?_, ?_, ?_⟩
  · rcases hwiden.owner with heq | ⟨hnone, hw, u, hsome, hcl⟩
    · exact .inl heq
    rcases hws _ hcl with ⟨_, _, hbad⟩ | ⟨v, hv, heq, _⟩
    · simp at hbad
    · simp only [Write.claimIfUnowned.injEq, true_and] at heq
      subst heq
      exact .inr (.inr ⟨hnone, u, hsome, by simp [Call.writesOutside, hv, hw]⟩)
  · intro u hu hnu
    have hw : r.id = winner := hwiden.joins u hu hnu
    rw [hid] at hw
    subst hw
    exact hlive.2 r hr
  · intro hown u hu
    rcases hwiden.owner with heq | ⟨hnone, hw, v, hsome, hcl⟩
    · exact hwiden.stays u (hown u (heq ▸ hu))
    rw [hsome, Option.some.injEq] at hu
    subst hu
    rw [hid] at hw
    subst hw
    rcases hws _ hcl with ⟨_, _, hbad⟩ | ⟨w, _, heq, hcover⟩
    · simp at hbad
    rcases hcover with hsub | ⟨t, ht⟩
    · simp only [Write.claimIfUnowned.injEq, true_and] at heq
      subst heq
      exact hwiden.stays v (hsub.2 r hr)
    · simp only [Write.claimIfUnowned.injEq, true_and] at heq
      subst heq
      exact mem_users_of_add hws ht h

theorem find_apply_one {x : Write} (h : (db.apply [x]).rows.find id = some r') :
    ∃ r, db.rows.find id = some r ∧ x.onRow id r = some r' := by
  rw [apply_cons, apply_nil, find_write] at h
  exact Option.bind_eq_some_iff.mp h

theorem kept_of_subscribe {site : Site}
    (hrel : Relies db (.create p (.subscribeCommit id' user site ws)))
    (h : (db.apply ws).rows.find id = some r') :
    ∃ r, db.rows.find id = some r ∧
      Kept (.create p (.subscribeCommit id' user site ws)) r r' := by
  have hnone : ws = [] → ∃ r, db.rows.find id = some r ∧
      Kept (.create p (.subscribeCommit id' user site ws)) r r' := by
    rintro rfl
    exact ⟨r', h, .refl _ _⟩
  simp only [Relies] at hrel
  split at hrel
  · rcases hrel with ⟨hlive, ⟨_, hws⟩ | ⟨t, hws⟩⟩
    · exact hnone hws
    subst hws
    rcases find_apply_one h with ⟨r, hr, hrow⟩
    simp only [Write.onRow, Option.some.injEq] at hrow
    refine ⟨r, hr, ?_⟩
    by_cases hw : id = id'
    · rw [if_pos hw] at hrow
      subst hrow hw
      refine ⟨fun hc => .inl (by simpa using hc), fun u hu => .inl ?_, .inl (by simp),
        fun _ _ _ => hlive.2 r hr, fun hown u hu => ?_⟩
      · exact (users_addSubscriber user t r u).mpr (.inl hu)
      · exact (users_addSubscriber user t r u).mpr (.inl (hown u (by simpa using hu)))
    · rw [if_neg hw] at hrow
      exact hrow ▸ .refl _ r
  · exact hnone hrel

structure Departed (user : Nat) (owner : Option (Option Nat)) (r r' : MediaRequest) : Prop where
  status : r'.status = r.status
  subset : ∀ u ∈ r'.users, u ∈ r.users
  others : ∀ u ∈ r.users, u ≠ user → u ∈ r'.users
  owner : r'.owner = owner.getD r.owner

theorem departed_setOwner (user : Nat)
    (h : (db.apply (owner.toList.map (.setOwner id))).rows.find id = some r') :
    ∃ r, db.rows.find id = some r ∧ Departed user owner r r' ∧ r'.users = r.users := by
  cases owner with
  | none => exact ⟨r', h, ⟨rfl, fun _ hu => hu, fun _ hu _ => hu, rfl⟩, rfl⟩
  | some o =>
    rcases find_apply_one h with ⟨r, hr, hrow⟩
    simp only [Write.onRow, if_true, Option.some.injEq] at hrow
    subst hrow
    exact ⟨r, hr, ⟨rfl, fun _ hu => hu, fun _ hu _ => hu, rfl⟩, rfl⟩

theorem departed_of_apply (hws : ws = .removeSubscriber id user :: owner.toList.map (.setOwner id) ∨
      ws = owner.toList.map (.setOwner id)) (h : (db.apply ws).rows.find id = some r') :
    ∃ r, db.rows.find id = some r ∧ Departed user owner r r' := by
  rcases hws with rfl | rfl
  · rw [apply_cons] at h
    rcases departed_setOwner user h with ⟨s, hs, hdep, _⟩
    rw [find_write] at hs
    rcases Option.bind_eq_some_iff.mp hs with ⟨r, hr, hrow⟩
    simp only [Write.onRow, if_true, Option.some.injEq] at hrow
    subst hrow
    refine ⟨r, hr, hdep.status, fun u hu => ?_, fun u hu hne => ?_, hdep.owner⟩
    · exact ((users_removeSubscriber user r u).mp (hdep.subset u hu)).1
    · exact hdep.others u ((users_removeSubscriber user r u).mpr ⟨hu, hne⟩) hne
  · rcases departed_setOwner user h with ⟨r, hr, hdep, _⟩
    exact ⟨r, hr, hdep⟩

theorem find_departed_of_ne
    (hws : ws = .removeSubscriber id' user :: owner.toList.map (.setOwner id') ∨
      ws = owner.toList.map (.setOwner id')) (hne : id ≠ id')
    (h : (db.apply ws).rows.find id = some r') : db.rows.find id = some r' := by
  have hall : ∀ x ∈ ws, ∀ r, x.onRow id r = some r := by
    intro x hx r
    have hcas : x = .removeSubscriber id' user ∨ ∃ o, x = .setOwner id' o := by
      rcases hws with rfl | rfl
      · rcases List.mem_cons.mp hx with hx | hx
        · exact .inl hx
        · rcases List.mem_map.mp hx with ⟨o, _, rfl⟩
          exact .inr ⟨o, rfl⟩
      · rcases List.mem_map.mp hx with ⟨o, _, rfl⟩
        exact .inr ⟨o, rfl⟩
    rcases hcas with rfl | ⟨o, rfl⟩
    · simp [Write.onRow, hne]
    · simp [Write.onRow, hne]
  have hsame : ∃ r, db.rows.find id = some r ∧ r = r' := by
    refine find_apply (fun _ => rfl) (fun _ _ _ => Eq.trans) ?_ h
    intro x hx r s _ hrow
    rw [hall x hx r, Option.some.injEq] at hrow
    exact hrow
  rcases hsame with ⟨r, hr, rfl⟩
  exact hr

theorem owned_of_departed (hdep : Departed user owner r r') (hhand : Handoff user r owner)
    (hown : r.Owned) : r'.Owned := by
  intro u hu
  rw [hdep.owner] at hu
  cases owner with
  | none =>
    have hne : u ≠ user := by
      rintro rfl
      exact hhand hu
    exact hdep.others u (hown u hu) hne
  | some o =>
    subst hu
    exact hdep.others u hhand.1 hhand.2

theorem kept_of_removal (hrel : Relies db (.withdraw id' user (.commit ws)))
    (h : (db.apply ws).rows.find id = some r') :
    ∃ r, db.rows.find id = some r ∧ Kept (.withdraw id' user (.commit ws)) r r' := by
  rcases hrel with ⟨owner, hleav, hws⟩
  by_cases hw : id = id'
  · subst hw
    rcases departed_of_apply hws h with ⟨r, hr, hdep⟩
    have hid : r.id = id := Table.key_of_find hr
    refine ⟨r, hr, fun hc => .inl (hdep.status ▸ hc), fun u hu => ?_, .inr (.inl rfl),
      fun u hu hnu => absurd (hdep.subset u hu) hnu,
      owned_of_departed hdep (hleav.2 r hr)⟩
    by_cases hu' : u = user
    · subst hu' hid
      exact .inr ⟨rfl, rfl⟩
    · exact .inl (hdep.others u hu hu')
  · exact ⟨r', find_departed_of_ne hws hw h, .refl _ _⟩

theorem kept_of_setStatus {status : RequestStatus}
    (hst : status ≠ .cancelled ∨ a.cancels = some id')
    (h : (db.apply [.setStatus id' status]).rows.find id = some r') :
    ∃ r, db.rows.find id = some r ∧ Kept a r r' := by
  rcases find_apply_one h with ⟨r, hr, hrow⟩
  have hid : r.id = id := Table.key_of_find hr
  simp only [Write.onRow, Option.some.injEq] at hrow
  refine ⟨r, hr, ?_⟩
  by_cases hw : id = id'
  · rw [if_pos hw] at hrow
    subst hrow hw
    refine ⟨fun hc => ?_, fun _ hu => .inl hu, .inl rfl, fun _ hu hnu => absurd hu hnu,
      fun hown => hown⟩
    rcases hst with hne | hcan
    · exact absurd hc hne
    · exact .inr ⟨hid ▸ hcan, holdsLock_of_cancels hcan⟩
  · rw [if_neg hw] at hrow
    exact hrow ▸ .refl a r

-- What a step leaves of a row that was there before it, whichever call takes it: every
-- invariant below is a consequence of this.
theorem kept_of_effect (hrel : Relies s.db a) (heff : Effect s a db) (hid : id < s.db.nextId)
    (h : db.rows.find id = some r') : ∃ r, s.db.rows.find id = some r ∧ Kept a r r' := by
  cases heff with
  | reads => exact ⟨r', h, .refl a r'⟩
  | subscribes p id user site ws => exact kept_of_subscribe hrel h
  | collapses p own winner ws => exact kept_of_collapse hrel.1 hrel.2 h
  | inserts p locked status final now =>
    rw [find_create final p.userId now hid] at h
    exact ⟨r', h, .refl _ r'⟩
  | removes id user ws => exact kept_of_removal hrel h
  | settles _ _ hcan => exact kept_of_setStatus (.inr hcan) h
  | moves id status hst => exact kept_of_setStatus (.inl hst) h

theorem nextId_of_effect (heff : Effect s a db) : s.db.nextId ≤ db.nextId := by
  cases heff with
  | reads => exact Nat.le_refl _
  | inserts => exact Nat.le_succ _
  | subscribes | collapses | removes | settles | moves => simp

end Participants

end PlexManager
