import PlexManager.Theory.Participants.Effects

/-!
# What a call relies on

A call establishes what it relies on with the statement that reads it, and no
step of another call takes it away. For the second half it is enough to know
what a step leaves of a row. The lock rules out most of it, and what it does not
rule out is what undisturbed runs do.
-/

namespace PlexManager

namespace Participants

open KeyedTable Interleaving
open Seasons (settledRequestStatuses)

/-! ### What a call relies on survives the others -/

variable {db : Db} {s : Shared} {a : Call} {id user winner : Nat} {r : MediaRequest}
  {p : CreateArgs} {ws : List Write}

theorem live_of_effect (hrel : Relies s.db a) (heff : Effect s a db) (hlive : s.db.Live id)
    (hcancel : a.cancels = some id → a.holdsLock = true → False) : db.Live id := by
  refine ⟨Nat.lt_of_lt_of_le hlive.1 (nextId_of_effect heff), ?_⟩
  intro r' hr'
  rcases kept_of_effect hrel heff hlive.1 hr' with ⟨r, hr, hkept⟩
  have hid : r.id = id := Table.key_of_find hr
  intro hc
  -- Only a cancel under the lock takes a row out of those that are alive.
  rcases hkept.cancelled hc with hold | ⟨hcan, hlock⟩
  · exact hlive.2 r hr hold
  · exact hcancel (hid ▸ hcan) hlock

theorem subscribed_of_effect (hrel : Relies s.db a) (heff : Effect s a db)
    (hsub : s.db.Subscribed id user)
    (hwithdraws : a.withdraws = some (id, user) → a.holdsLock = true → False) :
    db.Subscribed id user := by
  refine ⟨Nat.lt_of_lt_of_le hsub.1 (nextId_of_effect heff), ?_⟩
  intro r' hr'
  rcases kept_of_effect hrel heff hsub.1 hr' with ⟨r, hr, hkept⟩
  have hid : r.id = id := Table.key_of_find hr
  rcases hkept.stays user (hsub.2 r hr) with hin | ⟨hw, hlock⟩
  · exact hin
  · exact (hwithdraws (hid ▸ hw) hlock).elim

-- Only a collapse of the user's own gives them a request that nobody owns.
theorem owner_iff_of_kept {r' : MediaRequest} (hkept : Kept a r r') (hlock : a.holdsLock = false)
    (hoff : a.writesOutside ≠ some (r.id, user)) : r'.owner = some user ↔ r.owner = some user := by
  rcases hkept.owner with heq | hheld | ⟨hnone, v, hsome, hw⟩
  · rw [heq]
  · rw [hlock] at hheld
    simp at hheld
  · constructor
    · intro huser
      rw [hsome, Option.some.injEq] at huser
      subst huser
      exact absurd hw hoff
    · intro huser
      rw [hnone] at huser
      simp at huser

theorem ownerRead_of_effect (hrel : Relies s.db a) (heff : Effect s a db) {owner : Option Nat}
    (hread : s.db.OwnerRead id user owner) (hlock : a.holdsLock = false)
    (hoff : a.writesOutside ≠ some (id, user)) : db.OwnerRead id user owner := by
  refine ⟨Nat.lt_of_lt_of_le hread.1 (nextId_of_effect heff), ?_⟩
  intro r' hr'
  rcases kept_of_effect hrel heff hread.1 hr' with ⟨r, hr, hkept⟩
  have hid : r.id = id := Table.key_of_find hr
  rw [owner_iff_of_kept hkept hlock (hid ▸ hoff)]
  exact hread.2 r hr

theorem leaves_of_effect (hrel : Relies s.db a) (heff : Effect s a db) {owner : Option (Option Nat)}
    (hleav : s.db.Leaves id user owner) (hlock : a.holdsLock = false)
    (hoff : a.writesOutside ≠ some (id, user)) : db.Leaves id user owner := by
  refine ⟨Nat.lt_of_lt_of_le hleav.1 (nextId_of_effect heff), ?_⟩
  intro r' hr'
  rcases kept_of_effect hrel heff hleav.1 hr' with ⟨r, hr, hkept⟩
  have hid : r.id = id := Table.key_of_find hr
  have hhand := hleav.2 r hr
  -- Without an heir the row has another owner, which only its own collapse changes.
  cases owner with
  | none =>
    intro hown
    exact hhand ((owner_iff_of_kept hkept hlock (hid ▸ hoff)).mp hown)
  | some o =>
    cases o with
    | none => trivial
    | some v =>
      refine ⟨?_, hhand.2⟩
      rcases hkept.stays v hhand.1 with hin | ⟨_, hheld⟩
      · exact hin
      · rw [hlock] at hheld
        simp at hheld

theorem widens_of_effect (hrel : Relies s.db a) (heff : Effect s a db)
    (hwidens : s.db.Widens p winner ws)
    (hoff : ∀ user, p.userId = some user → a.withdraws ≠ some (winner, user)) :
    db.Widens p winner ws := by
  intro x hx
  rcases hwidens x hx with hadd | ⟨u, hu, rfl, hcover⟩
  · exact .inl hadd
  · refine .inr ⟨u, hu, rfl, ?_⟩
    rcases hcover with hsub | hadd
    · exact .inl (subscribed_of_effect hrel heff hsub fun hw _ => hoff u hu hw)
    · exact .inr hadd

theorem relies_of_effect {b : Call} (hrel : Relies s.db a) (heff : Effect s a db)
    (hb : Relies s.db b) (hby : Beside a b)
    (hlock : b.holdsLock = true → a.holdsLock = false) : Relies db b := by
  -- The lock is exclusive, so the other call does not write under it as well.
  have hcancel : ∀ id, b.holdsLock = true → a.cancels = some id → a.holdsLock = true → False := by
    intro id hheld _ ha
    rw [hlock hheld] at ha
    simp at ha
  have hwithdraw : ∀ x, b.holdsLock = true → a.withdraws = some x → a.holdsLock = true → False := by
    intro x hheld _ ha
    rw [hlock hheld] at ha
    simp at ha
  -- Outside the lock it is `Beside` that keeps the writes of the two apart.
  have hwin : ∀ x, b.writesOutside = some x → a.withdraws ≠ some x := by
    intro x hx hw
    exact hby.2 (.inl ⟨by simp [hx], hx.trans hw.symm⟩)
  have hcollapse : ∀ id, b.collapsesOnto = some id → a.cancels ≠ some id := by
    intro id hc hcan
    exact hby.2 (.inr ⟨by simp [hc], hc.trans hcan.symm⟩)
  have hoff : ∀ x, b.withdraws = some x → a.writesOutside ≠ some x := by
    intro x hx hw
    exact hby.1 (.inl ⟨by simp [hw], hw.trans hx.symm⟩)
  cases b with
  | returned | cancel => trivial
  | create p pc =>
    cases pc with
    | subscribe id user site =>
      cases site with
      -- A subscription made again relies on the first, which only a withdrawal ends.
      | again =>
        exact subscribed_of_effect hrel heff hb fun hw _ => hwin _ rfl hw
      | join | active | inLibrary | recovered =>
        exact live_of_effect hrel heff hb (hcancel id rfl)
    | subscribeCommit id user site ws =>
      cases site with
      | again => exact hb
      | join | active | inLibrary | recovered =>
        refine ⟨live_of_effect hrel heff hb.1 (hcancel id rfl), ?_⟩
        rcases hb.2 with ⟨hsub, hws⟩ | hadd
        · exact .inl ⟨subscribed_of_effect hrel heff hsub (hwithdraw _ rfl), hws⟩
        · exact .inr hadd
    | collapseClaim own winner user | collapseAdd own winner ws =>
      exact ⟨live_of_effect hrel heff hb.1 fun hc _ => hcollapse winner rfl hc, hb.2⟩
    | collapseCopy own winner ws | collapseCommit own winner ws =>
      refine ⟨live_of_effect hrel heff hb.1 fun hc _ => hcollapse winner rfl hc, ?_⟩
      refine widens_of_effect hrel heff hb.2 ?_
      intro user huser
      exact hwin _ (by simp [Call.writesOutside, huser])
    | _ => trivial
  | withdraw id user pc =>
    cases pc with
    | list status owner =>
      exact ownerRead_of_effect hrel heff hb (hlock rfl) (hoff _ rfl)
    | remove owner => exact leaves_of_effect hrel heff hb (hlock rfl) (hoff _ rfl)
    | commit ws =>
      rcases hb with ⟨owner, hleav, hws⟩
      exact ⟨owner, leaves_of_effect hrel heff hleav (hlock rfl) (hoff _ rfl), hws⟩
    | _ => trivial

/-! ### What a call relies on at its next step -/

/-- What holds of the row that an id finds holds of every row it finds. -/
theorem Db.all_of_find {P : MediaRequest → Prop} (hr : db.rows.find id = some r) (h : P r) :
    ∀ r', db.rows.find id = some r' → P r' := by
  intro r' hr'
  rw [hr, Option.some.injEq] at hr'
  exact hr' ▸ h

theorem Db.Sound.live (h : db.Sound) (hr : r ∈ db.rows.rows)
    (hst : r.status ≠ .cancelled) : db.Live r.id :=
  ⟨h.numbered r hr, Db.all_of_find (Table.find_eq_some.mpr ⟨hr, rfl⟩) hst⟩

theorem Db.Sound.lt_of_find (h : db.Sound) (hr : db.rows.find id = some r) : id < db.nextId := by
  rcases Table.find_eq_some.mp hr with ⟨hmem, rfl⟩
  exact h.numbered r hmem

theorem findActive_spec (h : db.findActive = some r) :
    r ∈ db.rows.rows ∧ r.status ≠ .cancelled := by
  refine ⟨List.mem_of_find?_eq_some h, ?_⟩
  have hact : r.active = true := List.find?_some h
  intro hc
  simp [MediaRequest.active, settledRequestStatuses, hc] at hact

theorem findEarliestAvailable_spec
    (h : db.findEarliestAvailable = some r) : r ∈ db.rows.rows ∧ r.status ≠ .cancelled := by
  refine ⟨List.mem_of_find?_eq_some h, ?_⟩
  have hav := List.find?_some h
  simp only [decide_eq_true_eq] at hav
  rw [hav]
  simp

theorem findInLibrary_spec {user : Option Nat}
    (h : db.findInLibrary user = some r) : r ∈ db.rows.rows ∧ r.status ≠ .cancelled := by
  have hmem : r ∈ db.rows.rows.reverse.filter fun r =>
      r.status = .available ∨ r.status = .completed := by
    -- A user's own request comes first, then one nobody owns, then the latest.
    cases user with
    | none => exact List.mem_of_mem_head? h
    | some user =>
      simp only [Db.findInLibrary, Option.or_eq_some_iff] at h
      rcases h with h | ⟨_, h | ⟨_, h⟩⟩
      · exact List.mem_of_find?_eq_some h
      · exact List.mem_of_find?_eq_some h
      · exact List.mem_of_mem_head? h
  rcases List.mem_filter.mp hmem with ⟨hr, hst⟩
  refine ⟨List.mem_reverse.mp hr, ?_⟩
  intro hc
  simp [hc] at hst

theorem relies_afterJoin (db : Db) (tv : Bool) (p : CreateArgs) (id : Nat) :
    Relies db (afterJoin tv p id) := by
  unfold afterJoin
  split <;> trivial

theorem relies_retry (db : Db) (p : CreateArgs) : Relies db (retry p) := by
  unfold retry
  split <;> trivial

theorem relies_acquire {wait go : Call} (hwait : Relies db wait)
    (hgo : Relies db go) : Relies db (acquireMediaLock s wait go).2 := by
  unfold acquireMediaLock
  split
  · exact hwait
  · exact hgo

theorem relies_join {site : Site} {unowned : Call} (hlock : site.locked = true)
    (hlive : s.db.Live r.id) (hunowned : Relies s.db unowned) :
    Relies (joinUnderLock s p r site unowned).1.db (joinUnderLock s p r site unowned).2 := by
  unfold joinUnderLock
  split
  · exact hunowned
  · simp only [Relies, hlock, if_true]
    exact hlive

theorem subscribed_of_commit (hlt : id < db.nextId)
    (hws : db.Subscribed id user ∧ ws = [] ∨ ∃ t, ws = [.addSubscriber id user t]) :
    (db.apply ws).Subscribed id user := by
  rcases hws with ⟨hsub, rfl⟩ | ⟨t, rfl⟩
  · exact hsub
  refine ⟨by simpa using hlt, ?_⟩
  intro r' hr'
  rcases find_apply_one hr' with ⟨r, _, hrow⟩
  simp only [Write.onRow, if_true, Option.some.injEq] at hrow
  subst hrow
  exact (users_addSubscriber user t r user).mpr (.inr rfl)

theorem relies_afterSubscribe {tv : Bool} (site : Site)
    (hsub : site.locked = true → db.Subscribed id user) :
    Relies db (afterSubscribe tv p id user site) := by
  cases site with
  | join foreign =>
    simp only [afterSubscribe]
    split
    · trivial
    · exact hsub rfl
  | again => exact relies_afterJoin db tv p id
  | active foreign | recovered foreign =>
    simp only [afterSubscribe]
    split
    · trivial
    · exact relies_afterJoin db tv p id
  | inLibrary => trivial

theorem widens_claim {now : Nat} (hsound : db.Sound) (huser : p.userId = some user)
    (hr : db.rows.find winner = some r)
    (hws : ws = [] ∨ ∃ u, p.userId = some u ∧ ws = [.claimIfUnowned winner u]) :
    db.Widens p winner (ws ++ addSubscriberWrites r user now) := by
  have hid : r.id = winner := Table.key_of_find hr
  -- Whoever claims the row is on it already, or is added by the same writes.
  have hcover : db.Subscribed winner user ∨
      ∃ t, Write.addSubscriber winner user t ∈ ws ++ addSubscriberWrites r user now := by
    unfold addSubscriberWrites
    by_cases hin : user ∈ r.users
    · exact .inl ⟨hsound.lt_of_find hr, Db.all_of_find hr hin⟩
    · rw [if_neg hin, hid]
      exact .inr ⟨now, by simp⟩
  intro x hx
  rcases List.mem_append.mp hx with hx | hx
  · rcases hws with rfl | ⟨u, hu, rfl⟩
    · simp at hx
    · rw [huser, Option.some.injEq] at hu
      subst hu
      exact .inr ⟨user, huser, List.mem_singleton.mp hx, hcover⟩
  · unfold addSubscriberWrites at hx
    split at hx
    · simp at hx
    exact .inl ⟨user, now, hid ▸ List.mem_singleton.mp hx⟩

theorem widens_copy {now : Nat} (hws : db.Widens p winner ws) {source target : MediaRequest}
    (htgt : db.rows.find winner = some target) :
    db.Widens p winner (ws ++ copySubscribersWrites source target now) := by
  have hid : target.id = winner := Table.key_of_find htgt
  intro x hx
  rcases List.mem_append.mp hx with hx | hx
  · rcases hws x hx with hadd | ⟨u, hu, heq, hcover⟩
    · exact .inl hadd
    · refine .inr ⟨u, hu, heq, ?_⟩
      rcases hcover with hsub | ⟨t, ht⟩
      · exact .inl hsub
      · exact .inr ⟨t, List.mem_append_left _ ht⟩
  · rcases List.mem_flatMap.mp hx with ⟨u, _, hu⟩
    unfold addSubscriberWrites at hu
    split at hu
    · simp at hu
    exact .inl ⟨u, now, hid ▸ List.mem_singleton.mp hu⟩

variable (c : Outside)

theorem relies_create {pc : CreatePc} (hsound : s.db.Sound) (hrel : Relies s.db (.create p pc)) :
    Relies (createNext c s p pc).1.db (createNext c s p pc).2 := by
  -- A row that a lookup has just found is alive.
  have hread : ∀ {r : MediaRequest}, s.db.findActive = some r → s.db.Live r.id := fun h =>
    hsound.live (findActive_spec h).1 (findActive_spec h).2
  have hlib : ∀ {r : MediaRequest} {user : Option Nat},
      s.db.findInLibrary user = some r → s.db.Live r.id := fun h =>
    hsound.live (findInLibrary_spec h).1 (findInLibrary_spec h).2
  cases pc with
  | findActive =>
    simp only [createNext]
    split <;> trivial
  | joinLock | growLock | libraryLock | recoverLock => exact relies_acquire trivial trivial
  | joinReread =>
    simp only [createNext]
    split
    · trivial
    · rename_i r hr
      exact relies_join rfl (hread hr) (relies_afterJoin _ _ p r.id)
  | subscribe id user site =>
    simp only [createNext]
    split
    · trivial
    rename_i r hr
    have hid : r.id = id := Table.key_of_find hr
    simp only [Relies] at hrel ⊢
    unfold addSubscriberWrites
    -- Under the lock the row is looked at; outside it, the user was there before.
    by_cases hlock : site.locked = true
    · rw [if_pos hlock] at hrel ⊢
      refine ⟨hrel, ?_⟩
      by_cases hin : user ∈ r.users
      · exact .inl ⟨⟨hrel.1, Db.all_of_find hr hin⟩, if_pos hin⟩
      · rw [if_neg hin, hid]
        exact .inr ⟨c.now, rfl⟩
    · rw [if_neg hlock] at hrel ⊢
      exact if_pos (hrel.2 r hr)
  | subscribeCommit id user site ws =>
    have hdb : (createNext c s p (.subscribeCommit id user site ws)).1.db = s.db.apply ws := by
      simp only [createNext]
      split <;> rfl
    rw [hdb]
    refine relies_afterSubscribe site ?_
    intro hlock
    simp only [Relies, hlock, if_true] at hrel
    exact subscribed_of_commit hrel.1.1 hrel.2
  | growCheck id =>
    simp only [createNext]
    split
    · exact relies_retry _ p
    · dsimp only
      split
      · trivial
      · exact relies_retry _ p
  | resolve =>
    simp only [createNext]
    split <;> split <;> trivial
  | libraryReread =>
    simp only [createNext]
    split
    · rename_i r hr
      exact relies_join rfl (hread hr) (relies_afterJoin _ _ p r.id)
    · trivial
  | libraryDecide =>
    simp only [createNext]
    split
    · split
      · rename_i r hr
        refine relies_join rfl ?_ trivial
        split at hr
        · exact hlib hr
        · simp at hr
      · trivial
    · split
      · trivial
      · split
        · rename_i r hr
          exact relies_join rfl (hlib hr) trivial
        · trivial
  | insert locked status =>
    simp only [createNext]
    split
    · trivial
    by_cases hfin : (if s.db.tv then c.rolled else status) = .available
    · simp only [hfin, if_true]
      trivial
    · simp only [hfin, if_false]
      trivial
  | recoverReread =>
    simp only [createNext]
    split
    · exact relies_retry _ p
    · rename_i r hr
      exact relies_join rfl (hread hr) (relies_afterJoin _ _ p r.id)
  | collapseFind own =>
    simp only [createNext]
    split
    · trivial
    rename_i winner hwinner
    have hlive : s.db.Live winner.id :=
      hsound.live (findEarliestAvailable_spec hwinner).1 (findEarliestAvailable_spec hwinner).2
    split
    · trivial
    split
    · exact ⟨hlive, .inl rfl⟩
    · split
      · rename_i hp
        exact ⟨hlive, hp⟩
      · exact ⟨hlive, .inl rfl⟩
  | collapseClaim own winner user => exact ⟨hrel.1, .inr ⟨user, hrel.2, rfl⟩⟩
  | collapseAdd own winner ws =>
    simp only [createNext]
    split
    · rename_i hp
      refine ⟨hrel.1, ?_⟩
      rcases hrel.2 with rfl | ⟨u, hu, _⟩
      · exact fun x hx => by cases hx
      · rw [hp] at hu
        simp at hu
    · rename_i user hp
      split
      · trivial
      · rename_i r hr
        exact ⟨hrel.1, widens_claim hsound hp hr hrel.2⟩
  | collapseCopy own winner ws =>
    simp only [createNext]
    split
    · rename_i hr
      exact ⟨hrel.1, widens_copy hrel.2 hr⟩
    · exact hrel
    · trivial
  | collapseCommit own winner ws => trivial

theorem relies_locked (s : Shared) (id : Nat) {stay : LockedPc → Call} {done : Call}
    (pc : LockedPc) (hstay : ∀ db pc, Relies db (stay pc)) (hdone : ∀ db, Relies db done) :
    Relies (lockedNext c s id stay done pc).1.db (lockedNext c s id stay done pc).2 := by
  cases pc with
  | fresh =>
    simp only [lockedNext]
    split
    · trivial
    · split
      · exact hstay _ _
      · trivial
  | guards =>
    simp only [lockedNext]
    split
    · trivial
    · exact hstay _ _
  | settle => exact hdone _

theorem relies_withdraw {pc : WithdrawPc} (hsound : s.db.Sound)
    (hrel : Relies s.db (.withdraw id user pc)) :
    Relies (withdrawNext c s id user pc).1.db (withdrawNext c s id user pc).2 := by
  cases pc with
  | get =>
    simp only [withdrawNext]
    split <;> trivial
  | lock | relock => exact relies_acquire trivial trivial
  | fresh =>
    simp only [withdrawNext]
    split
    · trivial
    rename_i r hr
    exact ⟨hsound.lt_of_find hr, Db.all_of_find hr Iff.rfl⟩
  | list status owner =>
    -- A user who is not the owner leaves the ownership as it is.
    have hnone : owner ≠ some user → s.db.Leaves id user none := by
      intro hne
      exact ⟨hrel.1, fun r hr hown => hne ((hrel.2 r hr).mp hown)⟩
    simp only [withdrawNext]
    split
    · trivial
    rename_i r hr
    split
    · rename_i newOwner rest hoth
      have hmem : newOwner ∈ r.listSubscribers.filter (· ≠ user) := by
        rw [hoth]
        exact List.mem_cons_self
      rcases List.mem_filter.mp hmem with ⟨hin, hne⟩
      by_cases hown : owner = some user
      · rw [if_pos hown]
        refine ⟨hrel.1, Db.all_of_find hr ?_⟩
        exact ⟨(mem_listSubscribers r newOwner).mp hin, by simpa using hne⟩
      · rw [if_neg hown]
        exact hnone hown
    · split
      · trivial
      split
      -- The last subscriber to leave takes the ownership along.
      · by_cases hown : owner = some user
        · rw [if_pos hown]
          exact ⟨hrel.1, fun _ _ => trivial⟩
        · rw [if_neg hown]
          exact hnone hown
      · trivial
  | remove owner =>
    simp only [withdrawNext]
    split
    · trivial
    rename_i r hr
    have hid : r.id = id := Table.key_of_find hr
    refine ⟨owner, hrel, ?_⟩
    unfold removalWrites
    rw [hid]
    split
    · exact .inl rfl
    · exact .inr rfl
  | commit ws => trivial
  | cancelling pc => exact relies_locked c s id pc (fun _ _ => trivial) fun _ => trivial
  | refresh =>
    simp only [withdrawNext]
    split
    · trivial
    rename_i r hr
    refine ⟨hsound.lt_of_find hr, Db.all_of_find hr ?_⟩
    by_cases hown : r.owner = some user
    · rw [if_pos hown]
      trivial
    · rw [if_neg hown]
      exact hown

theorem relies_next (hsound : s.db.Sound)
    (hrel : Relies s.db a) : Relies (a.next c s).1.db (a.next c s).2 := by
  unfold Call.next
  split
  · trivial
  cases a with
  | returned => trivial
  | create p pc => exact relies_create c hsound hrel
  | withdraw id user pc => exact relies_withdraw c hsound hrel
  | cancel id owner pc =>
    cases pc with
    | lock =>
      refine relies_acquire trivial ?_
      split <;> trivial
    | locked pc => exact relies_locked c s id pc (fun _ _ => trivial) fun _ => trivial
    | get | check =>
      simp only [cancelNext]
      split <;> trivial
    | list =>
      simp only [cancelNext]
      split
      · trivial
      · split <;> trivial

end Participants

end PlexManager
