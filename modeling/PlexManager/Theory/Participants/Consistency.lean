import PlexManager.Theory.Participants.Reliance
import PlexManager.Lib.Transition

/-!
# Participants stay consistent

Nobody is subscribed to a request that is cancelled already, and the owner of a
request takes part in it, as long as no user withdraws while a call of their own
writes outside the lock, and no request is cancelled while another is collapsed
onto it. Both may happen. The second subscription of a join is written without
the lock and without another look at the request, so that a withdrawal between
the two leaves a subscription to a request that it has just cancelled, and a
claim of the collapse may meet a withdrawal that has read no owner.

## Theorems

* `participants_consistent`: What is to hold does, in every undisturbed run.
* `zombie_subscription`: A user withdraws between their own two subscriptions.
-/

namespace PlexManager

namespace Participants

open KeyedTable Interleaving Transition
open Seasons (settledRequestStatuses)

/-! ### The lock -/

def Call.weight (a : Call) : Nat := if a.holdsLock then 1 else 0

def Shared.held (s : Shared) : Nat := if s.locked then 1 else 0

/-- A step keeps account of the lock: it takes it where it was free, and gives
    it back where it held it. -/
def Accounts (s : Shared) (a : Call) (next : Shared × Call) : Prop :=
  next.1.held + a.weight = s.held + next.2.weight

variable {s : Shared} {a : Call} {db : Db}

theorem accounts_acquire {wait go : Call} (ha : a.weight = 0) (hwait : wait.weight = 0)
    (hgo : go.weight = 1) : Accounts s a (acquireMediaLock s wait go) := by
  unfold acquireMediaLock Accounts
  split
  · dsimp only
    omega
  rename_i hfree
  have hs : s.held = 0 := by simp [Shared.held, hfree]
  have ht : ({ s with locked := true } : Shared).held = 1 := rfl
  dsimp only
  omega

theorem accounts_stay {t : Shared} {b : Call} (hlock : t.locked = s.locked)
    (hwt : b.weight = a.weight) : Accounts s a (t, b) := by
  simp only [Accounts, Shared.held, hlock, hwt]

theorem accounts_release {t : Shared} {b : Call} (hheld : a.weight ≤ s.held) (ha : a.weight = 1)
    (ht : t.locked = false) (hb : b.weight = 0) : Accounts s a (t, b) := by
  have hs : s.held ≤ 1 := by
    unfold Shared.held
    split <;> omega
  have htheld : t.held = 0 := by simp [Shared.held, ht]
  simp only [Accounts]
  omega

theorem weight_afterJoin (tv : Bool) (p : CreateArgs) (id : Nat) :
    (afterJoin tv p id).weight = 0 := by
  unfold afterJoin
  split <;> rfl

variable (c : Outside) (p : CreateArgs)

theorem weight_retry : (retry p).weight = 0 := by
  unfold retry
  split <;> rfl

theorem weight_afterSubscribe (tv : Bool) (p : CreateArgs) (id user : Nat) (site : Site) :
    (afterSubscribe tv p id user site).weight = 0 := by
  cases site with
  | join foreign =>
    simp only [afterSubscribe]
    split <;> rfl
  | again => exact weight_afterJoin tv p id
  | active foreign | recovered foreign =>
    simp only [afterSubscribe]
    split
    · rfl
    · exact weight_afterJoin tv p id
  | inLibrary => rfl

theorem accounts_join {p : CreateArgs} {r : MediaRequest} {site : Site} {unowned : Call}
    (hheld : a.weight ≤ s.held) (ha : a.weight = 1) (hsite : site.locked = true)
    (hunowned : unowned.weight = 0) : Accounts s a (joinUnderLock s p r site unowned) := by
  unfold joinUnderLock
  split
  · exact accounts_release hheld ha rfl hunowned
  · exact accounts_stay rfl (by simp [Call.weight, Call.holdsLock, hsite] at ha ⊢; omega)

theorem accounts_create {p : CreateArgs} {pc : CreatePc}
    (hheld : (Call.create p pc).weight ≤ s.held) :
    Accounts s (.create p pc) (createNext c s p pc) := by
  -- A step under the lock keeps it, or gives it back in the same step.
  cases pc with
  | findActive | collapseCopy own winner ws =>
    simp only [createNext]
    split <;> exact accounts_stay rfl rfl
  | joinLock | growLock | libraryLock | recoverLock => exact accounts_acquire rfl rfl rfl
  | joinReread =>
    simp only [createNext]
    split
    · exact accounts_release hheld rfl rfl rfl
    · exact accounts_join hheld rfl rfl (weight_afterJoin _ p _)
  | subscribe id user site =>
    simp only [createNext]
    split
    · by_cases hlock : site.locked = true
      · rw [if_pos hlock]
        exact accounts_release hheld (if_pos hlock) rfl rfl
      · rw [if_neg hlock]
        exact accounts_stay rfl (if_neg hlock).symm
    · exact accounts_stay rfl rfl
  | subscribeCommit id user site ws =>
    simp only [createNext]
    by_cases hlock : site.locked = true
    · rw [if_pos hlock]
      exact accounts_release hheld (if_pos hlock) rfl (weight_afterSubscribe _ p id user site)
    · rw [if_neg hlock]
      refine accounts_stay rfl ?_
      rw [weight_afterSubscribe]
      exact (if_neg hlock).symm
  | growCheck id =>
    simp only [createNext]
    split
    · exact accounts_release hheld rfl rfl (weight_retry p)
    · refine accounts_release hheld rfl rfl ?_
      split
      · rfl
      · exact weight_retry p
  | resolve =>
    simp only [createNext]
    split <;> split <;> exact accounts_stay rfl rfl
  | libraryReread =>
    simp only [createNext]
    split
    · exact accounts_join hheld rfl rfl (weight_afterJoin _ p _)
    · exact accounts_stay rfl rfl
  | libraryDecide =>
    simp only [createNext]
    split
    · split
      · exact accounts_join hheld rfl rfl rfl
      · exact accounts_release hheld rfl rfl rfl
    · split
      · exact accounts_stay rfl rfl
      · split
        · exact accounts_join hheld rfl rfl rfl
        · exact accounts_stay rfl rfl
  | insert locked status =>
    -- Neither end of an insert has the lock.
    have hfin : ∀ (b : Prop) [Decidable b] (own : Nat),
        (if b then Call.create p (.collapseFind own) else .returned).weight = 0 := by
      intro b _ own
      split <;> rfl
    simp only [createNext]
    cases locked with
    | true =>
      split
      · exact accounts_release hheld rfl rfl rfl
      · exact accounts_release hheld rfl rfl (hfin _ _)
    | false =>
      split
      · exact accounts_stay rfl rfl
      · exact accounts_stay rfl (hfin _ _)
  | recoverReread =>
    simp only [createNext]
    split
    · exact accounts_release hheld rfl rfl (weight_retry p)
    · exact accounts_join hheld rfl rfl (weight_afterJoin _ p _)
  | collapseFind own =>
    simp only [createNext]
    split
    · exact accounts_stay rfl rfl
    split
    · exact accounts_stay rfl rfl
    · split
      · exact accounts_stay rfl rfl
      · split <;> exact accounts_stay rfl rfl
  | collapseClaim own winner user | collapseCommit own winner ws => exact accounts_stay rfl rfl
  | collapseAdd own winner ws =>
    simp only [createNext]
    split
    · exact accounts_stay rfl rfl
    · split <;> exact accounts_stay rfl rfl

theorem accounts_locked (id : Nat) {stay : LockedPc → Call} {done : Call} (pc : LockedPc)
    (hheld : a.weight ≤ s.held) (ha : a.weight = 1) (hstay : ∀ pc, (stay pc).weight = 1)
    (hdone : done.weight = 0) : Accounts s a (lockedNext c s id stay done pc) := by
  cases pc with
  | fresh =>
    simp only [lockedNext]
    split
    · exact accounts_release hheld ha rfl rfl
    · split
      · exact accounts_stay rfl ((hstay _).trans ha.symm)
      · exact accounts_release hheld ha rfl rfl
  | guards =>
    simp only [lockedNext]
    split
    · exact accounts_release hheld ha rfl rfl
    · exact accounts_stay rfl ((hstay _).trans ha.symm)
  | settle => exact accounts_release hheld ha rfl hdone

theorem accounts_withdraw {id user : Nat} {pc : WithdrawPc}
    (hheld : (Call.withdraw id user pc).weight ≤ s.held) :
    Accounts s (.withdraw id user pc) (withdrawNext c s id user pc) := by
  cases pc with
  | get =>
    simp only [withdrawNext]
    split <;> exact accounts_stay rfl rfl
  | lock | relock => exact accounts_acquire rfl rfl rfl
  | fresh | remove | refresh =>
    simp only [withdrawNext]
    split
    · exact accounts_release hheld rfl rfl rfl
    · exact accounts_stay rfl rfl
  | list status owner =>
    simp only [withdrawNext]
    split
    · exact accounts_release hheld rfl rfl rfl
    split
    · exact accounts_stay rfl rfl
    split
    · exact accounts_stay rfl rfl
    · split
      · exact accounts_stay rfl rfl
      · exact accounts_release hheld rfl rfl rfl
  | commit ws => exact accounts_release hheld rfl rfl rfl
  | cancelling pc => exact accounts_locked c id pc hheld rfl (fun _ => rfl) rfl

theorem accounts_cancel {id : Nat} {owner : Option Nat} {pc : CancelPc}
    (hheld : (Call.cancel id owner pc).weight ≤ s.held) :
    Accounts s (.cancel id owner pc) (cancelNext c s id owner pc) := by
  cases pc with
  | get =>
    simp only [cancelNext]
    split <;> exact accounts_stay rfl rfl
  | lock => exact accounts_acquire rfl rfl (by split <;> rfl)
  | check =>
    simp only [cancelNext]
    split
    · exact accounts_stay rfl rfl
    · exact accounts_release hheld rfl rfl rfl
  | list =>
    simp only [cancelNext]
    split
    · exact accounts_release hheld rfl rfl rfl
    · split
      · exact accounts_release hheld rfl rfl rfl
      · exact accounts_stay rfl rfl
  | locked pc => exact accounts_locked c id pc hheld rfl (fun _ => rfl) rfl

theorem accounts_next (hheld : a.weight ≤ s.held) : Accounts s a (a.next c s) := by
  unfold Call.next
  split
  · by_cases hlock : a.holdsLock = true
    · rw [if_pos hlock]
      exact accounts_release hheld (if_pos hlock) rfl rfl
    · rw [if_neg hlock]
      exact accounts_stay rfl (if_neg hlock).symm
  · cases a with
    | returned => exact accounts_stay rfl rfl
    | create p pc => exact accounts_create c hheld
    | withdraw id user pc => exact accounts_withdraw c hheld
    | cancel id owner pc => exact accounts_cancel c hheld

/-! ### Runs -/

-- A row is there before the step unless the step inserts it.
theorem numbered_of_effect (hsound : s.db.Sound) (heff : Effect s a db) : ∀ r ∈ db.rows.rows,
      r.id < db.nextId ∧ (s.db.nextId ≤ r.id → r.users = r.owner.toList) := by
  have happ : ∀ ws : List Write, ∀ r ∈ (s.db.apply ws).rows.rows, r.id < s.db.nextId := by
    intro ws r hr
    have hfind : (s.db.apply ws).rows.find r.id = some r := Table.find_eq_some.mpr ⟨hr, rfl⟩
    rcases find_apply (fun _ => trivial) (fun _ _ _ _ _ => trivial)
      (fun _ _ _ _ _ _ => trivial) hfind with ⟨r₀, hr₀, _⟩
    exact hsound.lt_of_find hr₀
  intro r hr
  cases heff with
  | reads =>
    have := hsound.numbered r hr
    exact ⟨this, fun h => by omega⟩
  | inserts p locked status final now =>
    rcases Table.mem_insert hr with hr | rfl
    · have := hsound.numbered r hr
      refine ⟨?_, fun h => by omega⟩
      show r.id < s.db.nextId + 1
      omega
    · refine ⟨Nat.lt_succ_self _, fun _ => ?_⟩
      cases hp : p.userId <;> simp [MediaRequest.users]
  | subscribes | collapses | removes | settles | moves =>
    have := happ _ r hr
    rw [apply_nextId]
    exact ⟨this, fun h => by omega⟩

theorem sound_of_effect (hsound : s.db.Sound) (hrel : Relies s.db a)
    (heff : Effect s a db) : db.Sound := by
  have hnumbered := numbered_of_effect hsound heff
  refine ⟨fun r hr => (hnumbered r hr).1, ?_⟩
  intro r hr
  by_cases hid : r.id < s.db.nextId
  · have hfind : db.rows.find r.id = some r := Table.find_eq_some.mpr ⟨hr, rfl⟩
    rcases kept_of_effect hrel heff hid hfind with ⟨r₀, hr₀, hkept⟩
    exact hkept.owned (hsound.owned r₀ (Table.find_eq_some.mp hr₀).1)
  · intro u hu
    rw [(hnumbered r hr).2 (by omega), hu]
    simp

/-- What holds of the rows, the lock and the calls in every run. -/
def outline : Outline Shared Call where
  Shared := fun s => s.db.Sound
  Local := fun s a => Relies s.db a
  Apart := fun _ _ => True
  weight := Call.weight
  held := Shared.held

theorem held_le_one (s : Shared) : s.held ≤ 1 := by
  unfold Shared.held
  split <;> omega

theorem outline_sound :
    outline.SoundBeside Call.next (fun _ _ _ => True) Beside where
  symm := fun _ _ _ => trivial
  own := fun s a c hs ha _ _ =>
    ⟨sound_of_effect hs ha (effect_of_next c s a), relies_next c hs ha⟩
  frame := by
    intro s a b c _ ha hb _ hby hboth _
    refine relies_of_effect ha (effect_of_next c s a) hb hby ?_
    intro hlock
    have hle := held_le_one s
    have hwt : b.weight = 1 := if_pos hlock
    by_cases hheld : a.holdsLock = true
    · have ha' : a.weight = 1 := if_pos hheld
      simp only [outline] at hboth
      omega
    · simpa using hheld
  apart := fun _ _ _ _ _ _ _ _ _ _ => trivial
  account := fun s a c _ _ hheld => accounts_next c hheld

theorem beside_symm (a b : Call) (h : Beside a b) : Beside b a := ⟨h.2, h.1⟩

theorem beside_returned (a : Call) : Beside .returned a := by
  constructor
  · rintro (⟨h, _⟩ | ⟨h, _⟩)
    · simp [Call.writesOutside] at h
    · simp [Call.collapsesOnto] at h
  · rintro (⟨h, heq⟩ | ⟨h, heq⟩)
    · simp [heq, Call.withdraws] at h
    · simp [heq, Call.cancels] at h

theorem joinsLive_of_effect (hsound : s.db.Sound) (hrel : Relies s.db a)
    (heff : Effect s a db) : JoinsLive s.db db := by
  intro r hr r' hr' hid u hu hnu
  have hfind : db.rows.find r.id = some r' := Table.find_eq_some.mpr ⟨hr', hid⟩
  rcases kept_of_effect hrel heff (hsound.numbered r hr) hfind with ⟨r₀, hr₀, hkept⟩
  have hsame : s.db.rows.find r.id = some r := Table.find_eq_some.mpr ⟨hr, rfl⟩
  rw [hsame, Option.some.injEq] at hr₀
  subst hr₀
  exact hkept.joins u hu hnu

theorem joinsLive_refl (db : Db) : JoinsLive db db := by
  intro r hr r' hr' hid u hu hnu
  have hr₁ : db.rows.find r.id = some r := Table.find_eq_some.mpr ⟨hr, rfl⟩
  have hr₂ : db.rows.find r.id = some r' := Table.find_eq_some.mpr ⟨hr', hid⟩
  rw [hr₁, Option.some.injEq] at hr₂
  subst hr₂
  exact absurd hu hnu

theorem relies_start (db : Db) (request : Request) : Relies db request.start := by
  cases request <;> trivial

theorem holds_of_step {w w' : World} {a : Action} (h : outline.Holds w) (hfree : Undisturbed w)
    (hstep : step w a = some w') : outline.Holds w' ∧ JoinsLive w.shared.db w'.shared.db := by
  cases a with
  | arrive request =>
    simp only [step, Option.some.injEq] at hstep
    subst hstep
    refine ⟨h.spawn (fun _ _ => outline_sound.symm _ _) (relies_start _ request)
      (fun _ _ => trivial) ?_, joinsLive_refl _⟩
    cases request <;> rfl
  | act i c =>
    have hby : w.StandsBeside Beside i :=
      fun _ _ _ hne hi hj => pairwise_of_ne beside_symm hfree hi hj hne.symm
    refine ⟨outline_sound.act h hby (fun _ _ => trivial) hstep, ?_⟩
    rcases World.act_eq_some hstep with ⟨a, before, after, hi, hact, rfl⟩
    have hmem : a ∈ w.actors := List.mem_of_getElem? hi
    exact joinsLive_of_effect h.shared (h.locals a hmem) (effect_of_next c w.shared a)
  | move id status =>
    simp only [step] at hstep
    split at hstep
    · rename_i hmovable
      simp only [Option.some.injEq] at hstep
      subst hstep
      have hst : status ≠ .cancelled := by
        simp only [Db.movable, Bool.and_eq_true, decide_eq_true_eq] at hmovable
        exact hmovable.1
      have heff : Effect w.shared .returned (w.shared.db.apply [.setStatus id status]) :=
        .moves id status hst
      have hrel : Relies w.shared.db .returned := trivial
      refine ⟨⟨sound_of_effect h.shared hrel heff, ?_, h.apart, h.account⟩,
        joinsLive_of_effect h.shared hrel heff⟩
      intro b hb
      exact relies_of_effect hrel heff (h.locals b hb) (beside_returned b) fun _ => rfl
    · simp at hstep

theorem holds_idle (hdb : db.Sound) : outline.Holds (World.idle db) where
  shared := hdb
  locals := fun _ ha => absurd ha nofun
  apart := List.Pairwise.nil
  account := rfl

theorem holds_of_run (hdb : db.Sound) {as : List Action} {w : World}
    (hmeet : StepsMeet step (fun w _ => Undisturbed w) (World.idle db) as)
    (hrun : run step (World.idle db) as = some w) : outline.Holds w :=
  invariant_of_meeting_run
    (fun _ _ _ h hfree hstep => (holds_of_step h hfree hstep).1) _ w as (holds_idle hdb) hmeet hrun

/-- In every run in which no user withdraws while their own call writes outside
    the lock, and no request is cancelled while another is collapsed onto it,
    nobody is subscribed to a cancelled request and every owner takes part. -/
theorem participants_consistent {db : Db} (hdb : db.Sound) {as : List Action} {a : Action}
    {w w' : World} (hmeet : StepsMeet step (fun w _ => Undisturbed w) (World.idle db) (as ++ [a]))
    (hrun : run step (World.idle db) as = some w) (hstep : step w a = some w') :
    JoinsLive w.shared.db w'.shared.db ∧ OwnersSubscribed w'.shared.db := by
  rcases (stepsMeet_append _ as [a]).mp hmeet with ⟨hbef, hlast⟩
  have hhold := holds_of_run hdb hbef hrun
  have hnext := holds_of_step hhold (hlast w hrun).1 hstep
  exact ⟨hnext.2, hnext.1.shared.owned⟩

instance (db db' : Db) : Decidable (JoinsLive db db') :=
  inferInstanceAs (Decidable (∀ r ∈ _, ∀ r' ∈ _, _ → ∀ u ∈ _, _ → _))

/-- A movie that one user asked for. -/
def soleRequest : Db where
  tv := false
  rows := ⟨[⟨1, .searching, some 7, [⟨7, 0⟩]⟩], by simp⟩
  nextId := 2

theorem soleRequest_sound : soleRequest.Sound := by
  refine ⟨by decide, ?_⟩
  intro r hr u hu
  rcases List.mem_singleton.mp hr with rfl
  simpa [MediaRequest.users] using hu.symm

def reached (as : List Action) : World :=
  (run step (World.idle soleRequest) as).getD (World.idle soleRequest)

theorem step_reached (as : List Action) (a : Action)
    (h : (run step (World.idle soleRequest) (as ++ [a])).isSome = true) :
    run step (World.idle soleRequest) as = some (reached as) ∧
      step (reached as) a = some (reached (as ++ [a])) := by
  rcases Option.isSome_iff_exists.mp h with ⟨t, ht⟩
  rcases (run_snoc_eq_some _ t as a).mp ht with ⟨m, hm, hstep⟩
  simp only [reached, hm, ht, Option.getD_some]
  exact ⟨trivial, hstep⟩

def turns (i n : Nat) : List Action := List.replicate n (.act i {})

/-- Another user joins, and the owner hands over to them. -/
def handover : List Action :=
  [.arrive (.create { userId := some 8 }), .arrive (.withdraw 1 7)] ++ turns 0 8 ++ turns 1 5

theorem consistent_handover :
    (reached (handover ++ turns 1 1)).shared.db.rows.rows = [⟨1, .searching, some 8, [⟨8, 0⟩]⟩] ∧
      JoinsLive (reached handover).shared.db (reached (handover ++ turns 1 1)).shared.db ∧
      OwnersSubscribed (reached (handover ++ turns 1 1)).shared.db := by
  have hreach := step_reached handover (.act 1 {}) (by decide +kernel)
  exact ⟨by decide +kernel, participants_consistent soleRequest_sound (by decide +kernel)
    hreach.1 hreach.2⟩

/-- The only participant asks for the movie again and withdraws while that call
    stands between its two subscriptions. -/
def withdrawnRejoin : List Action :=
  [.arrive (.create { userId := some 7 }), .arrive (.withdraw 1 7)] ++ turns 0 5 ++ turns 1 11 ++
    turns 0 1

theorem zombie_subscription :
    soleRequest.Sound ∧
      run step (World.idle soleRequest) withdrawnRejoin = some (reached withdrawnRejoin) ∧
      step (reached withdrawnRejoin) (.act 0 {}) = some (reached (withdrawnRejoin ++ turns 0 1)) ∧
      (reached withdrawnRejoin).shared.db.rows.rows = [⟨1, .cancelled, none, []⟩] ∧
      (reached (withdrawnRejoin ++ turns 0 1)).shared.db.rows.rows =
        [⟨1, .cancelled, none, [⟨7, 0⟩]⟩] ∧
      ¬JoinsLive (reached withdrawnRejoin).shared.db
        (reached (withdrawnRejoin ++ turns 0 1)).shared.db := by
  have hreach := step_reached withdrawnRejoin (.act 0 {}) (by decide +kernel)
  exact ⟨soleRequest_sound, hreach.1, hreach.2, by decide +kernel, by decide +kernel,
    by decide +kernel⟩

/-- A movie that was evicted and that nobody owns, with one subscriber. -/
def evictedRequest : Db where
  tv := false
  rows := ⟨[⟨1, .evicted, none, [⟨7, 0⟩]⟩], by simp⟩
  nextId := 2

/-- The subscriber asks again and gets a row of their own, the eviction is taken
    back, and the collapse claims the old row while its user withdraws from it. -/
example : (run step (World.idle evictedRequest)
    ([.arrive (.create { userId := some 7 }), .arrive (.withdraw 1 7), .act 0 {},
      .act 0 { plexPresent := true }] ++ turns 0 4 ++ [.move 1 .available] ++ turns 0 4 ++
      turns 1 6 ++ turns 0 1)).map (fun w => w.shared.db.rows.rows) =
    some [⟨1, .available, some 7, []⟩] := by
  decide +kernel

end Participants

end PlexManager
