import PlexManager.Core.CaptureSlot
import PlexManager.Theory.ShareSweep

/-!
# One capture at a time

The slot of a user has at most one holder, since a lock has: two holders would hold
slots with different serials, and a user has only one slot as long as anybody holds or
awaits it.

## Theorems

* `SlotInv.move`: A task changes, together with a slot.
* `SlotInv.alone_of_user`: Two tasks that hold the slot of a user are one.
* `slotInv_step`: Every step keeps slots and tasks in order.
-/

namespace PlexManager

namespace CaptureSlots

open KeyedTable FairLock Sessions ShareSweep

variable {decrypt : String → String}

/-! ### Slots -/

structure SlotInv (w : World) : Prop where
  good : ∀ n s, w.slots.find n = some s → s.lock.Good
  count : ∀ n s, w.slots.find n = some s → s.occupants = s.lock.occupied
  queued : ∀ n s, w.slots.find n = some s → ∀ id ∈ s.lock.queue,
    ∃ t, w.tasks.find id = some t ∧ t.phase = .waiting ∧ t.serial = n
  registered : ∀ id t, w.tasks.find id = some t → t.phase.occupies = true →
    ∃ e, w.registry.find t.userId = some e ∧ e.serial = t.serial
  there : ∀ u e, w.registry.find u = some e → (w.slots.find e.serial).isSome
  apart : ∀ u u' e e', w.registry.find u = some e → w.registry.find u' = some e' →
    e.serial = e'.serial → u = u'
  known : ∀ n s, w.slots.find n = some s → n < w.nextSerial
  held : ∀ id t, w.tasks.find id = some t → t.phase.holds = true →
    ∀ s, w.slots.find t.serial = some s → s.lock.locked = true
  alone : ∀ id id' t t', w.tasks.find id = some t → w.tasks.find id' = some t' →
    t.phase.holds = true → t'.phase.holds = true → t.serial = t'.serial → id = id'
  tries : ∀ id t, w.tasks.find id = some t → t.form = .tries → t.phase ≠ .waiting

theorem Phase.occupies_of_holds {p : Phase} (h : p.holds = true) : p.occupies = true := by
  unfold Phase.occupies
  rw [h]
  rfl

theorem Phase.occupies_iff {p : Phase} : p.occupies = true ↔ p.holds = true ∨ p = .waiting := by
  unfold Phase.occupies
  rw [Bool.or_eq_true, decide_eq_true_eq]

variable {w w' : World} {task : Task} {id : Nat} {slot : Slot}

theorem SlotInv.slot_of_task (h : SlotInv w) {t : Task} (ht : w.tasks.find id = some t)
    (hocc : t.phase.occupies = true) :
    ∃ s, w.slots.find t.serial = some s ∧ t.serial < w.nextSerial := by
  rcases h.registered id t ht hocc with ⟨e, he, hser⟩
  rcases Option.isSome_iff_exists.mp (h.there _ e he) with ⟨s, hs⟩
  rw [hser] at hs
  exact ⟨s, hs, h.known _ s hs⟩

theorem SlotInv.alone_of_user (h : SlotInv w) {id' : Nat} {t t' : Task}
    (ht : w.tasks.find id = some t) (ht' : w.tasks.find id' = some t')
    (hhold : t.phase.holds = true) (hhold' : t'.phase.holds = true)
    (huser : t.userId = t'.userId) : id = id' := by
  rcases h.registered id t ht (Phase.occupies_of_holds hhold) with ⟨e, he, hser⟩
  rcases h.registered id' t' ht' (Phase.occupies_of_holds hhold') with ⟨e', he', hser'⟩
  rw [huser] at he
  obtain rfl := Option.some.inj (he.symm.trans he')
  exact h.alone id id' t t' ht ht' hhold hhold' (hser.symm.trans hser')

theorem find_setTask (htask : w.tasks.find id = some task) (f : Task → Task)
    (hf : ∀ t, (f t).id = t.id) (i : Nat) :
    (w.setTask id f hf).tasks.find i = if i = id then some (f task) else w.tasks.find i :=
  Table.find_modify_row htask f hf i

theorem find_setSlot {serial : Nat} (hslot : w.slots.find serial = some slot) (lock : Lock Nat)
    (occupants : Nat) (n : Nat) :
    (w.setSlot serial lock occupants).slots.find n =
      if n = serial then some { slot with lock, occupants } else w.slots.find n :=
  Table.find_modify_row hslot (fun s => { s with lock, occupants }) (fun _ => rfl) n

section

variable (h : SlotInv w)
include h

theorem SlotInv.of_tasks (hslot : w'.slots = w.slots)
    (hreg : w'.registry = w.registry) (hnext : w'.nextSerial = w.nextSerial)
    (hback : ∀ i t', w'.tasks.find i = some t' → t'.phase.occupies = true →
      ∃ t, w.tasks.find i = some t ∧ t.phase.occupies = true ∧ t'.userId = t.userId ∧
        t'.form = t.form ∧ t'.serial = t.serial ∧ t'.phase.holds = t.phase.holds)
    (hwait : ∀ i t, w.tasks.find i = some t → t.phase = .waiting →
      w'.tasks.find i = some t) : SlotInv w' where
  good := by rw [hslot]; exact h.good
  count := by rw [hslot]; exact h.count
  queued := by
    intro n s hs id hid
    rw [hslot] at hs
    rcases h.queued n s hs id hid with ⟨t, ht, hph, hser⟩
    exact ⟨t, hwait id t ht hph, hph, hser⟩
  registered := by
    intro id t' ht' hocc
    rcases hback id t' ht' hocc with ⟨t, ht, hoccupied, huser, -, hser, -⟩
    rw [hreg, huser, hser]
    exact h.registered id t ht hoccupied
  there := by rw [hslot, hreg]; exact h.there
  apart := by rw [hreg]; exact h.apart
  known := by rw [hslot, hnext]; exact h.known
  held := by
    intro id t' ht' hhold s hs
    rcases hback id t' ht' (Phase.occupies_of_holds hhold) with ⟨t, ht, -, -, -, hser, hsame⟩
    rw [hslot, hser] at hs
    exact h.held id t ht (hsame ▸ hhold) s hs
  alone := by
    intro i j t' u' ht' hu' hhold hhold' hsame
    rcases hback i t' ht' (Phase.occupies_of_holds hhold) with ⟨t, ht, -, -, -, hser, hkept⟩
    rcases hback j u' hu' (Phase.occupies_of_holds hhold') with
      ⟨u, hu, -, -, -, hser', hkept'⟩
    refine h.alone i j t u ht hu (hkept ▸ hhold) (hkept' ▸ hhold') ?_
    rw [← hser, ← hser', hsame]
  tries := by
    intro id t' ht' hform hwaits
    have hocc : t'.phase.occupies = true := Phase.occupies_iff.mpr (.inr hwaits)
    rcases hback id t' ht' hocc with ⟨t, ht, hoccupied, -, hsame, -, hkept⟩
    have hfree : t.phase.holds = false := by
      rw [← hkept, hwaits]
      rfl
    refine h.tries id t ht (hsame ▸ hform) ?_
    rcases Phase.occupies_iff.mp hoccupied with hhold | hwaited
    · rw [hfree] at hhold
      contradiction
    · exact hwaited

theorem SlotInv.move {serial : Nat} {slot' : Slot} {task' : Task}
    (hslot : w.slots.find serial = some slot) (htask : w.tasks.find id = some task)
    (hslots : ∀ n, w'.slots.find n = if n = serial then some slot' else w.slots.find n)
    (htasks : ∀ i, w'.tasks.find i = if i = id then some task' else w.tasks.find i)
    (hreg : w'.registry = w.registry) (hnext : w'.nextSerial = w.nextSerial)
    (hgood : slot'.lock.Good) (hcnt : slot'.occupants = slot'.lock.occupied)
    (hq : ∀ i ∈ slot'.lock.queue, i ∈ slot.lock.queue ∧ i ≠ id ∨
      i = id ∧ task'.phase = .waiting) (hser : task'.serial = serial)
    (hwas : task.phase = .waiting → task.serial = serial)
    (hregistered : ∃ e, w.registry.find task'.userId = some e ∧ e.serial = serial)
    (hheld : task'.phase.holds = true → slot'.lock.locked = true)
    (hoth : ∀ i t, i ≠ id → w.tasks.find i = some t → t.phase.holds = true →
      t.serial = serial → slot'.lock.locked = true ∧ task'.phase.holds = false)
    (htries : task'.form = .tries → task'.phase ≠ .waiting) : SlotInv w' where
  good := Table.forall_put hslots hgood fun n s _ => h.good n s
  count := Table.forall_put hslots hcnt fun n s _ => h.count n s
  queued := by
    intro n s hs i hi
    rw [hslots] at hs
    rw [htasks]
    split at hs
    · rename_i hn
      rw [← Option.some.inj hs] at hi
      rcases hq i hi with ⟨hold, hother⟩ | ⟨hself, hwait⟩
      · rw [if_neg hother, hn]
        exact h.queued serial slot hslot i hold
      · rw [if_pos hself]
        exact ⟨task', rfl, hwait, hser.trans hn.symm⟩
    · rename_i hn
      rcases h.queued n s hs i hi with ⟨t, ht, hwait, hat⟩
      -- The task that changes is in no other queue.
      have hother : i ≠ id := by
        intro hself
        rw [hself] at ht
        obtain rfl := Option.some.inj (htask.symm.trans ht)
        exact hn (hat.symm.trans (hwas hwait))
      rw [if_neg hother]
      exact ⟨t, ht, hwait, hat⟩
  registered := by
    rw [hreg]
    refine Table.forall_put htasks (fun _ => ?_) fun i t _ => h.registered i t
    rw [hser]
    exact hregistered
  there := by
    intro u e he
    rw [hreg] at he
    rw [hslots]
    split
    · rfl
    · exact h.there u e he
  apart := by rw [hreg]; exact h.apart
  known := by
    rw [hnext]
    exact Table.forall_put hslots (h.known serial slot hslot) fun n s _ => h.known n s
  held := by
    refine Table.forall_put htasks (fun hhold s hs => ?_) fun i t hother ht hhold s hs => ?_
    · rw [hslots, if_pos hser] at hs
      cases hs
      exact hheld hhold
    · rw [hslots] at hs
      split at hs
      · rename_i hat
        cases hs
        exact (hoth i t hother ht hhold hat).1
      · exact h.held i t ht hhold s hs
  alone := by
    intro i j t u ht hu hhold hhold' hsame
    rw [htasks] at ht hu
    split at ht
    · rename_i hi
      split at hu
      · rename_i hj
        rw [hi, hj]
      rename_i hj
      cases ht
      have hfree := (hoth j u hj hu hhold' (hsame.symm.trans hser)).2
      rw [hhold] at hfree
      contradiction
    · rename_i hi
      split at hu
      · cases hu
        have hfree := (hoth i t hi ht hhold (hsame.trans hser)).2
        rw [hhold'] at hfree
        contradiction
      · exact h.alone i j t u ht hu hhold hhold' hsame
  tries := Table.forall_put htasks htries fun i t _ => h.tries i t

/-! ### Coming and going -/

theorem slotInv_captureSlot (userId : Nat) :
    SlotInv (captureSlot w userId).2 ∧
      (∃ e, (captureSlot w userId).2.registry.find userId = some e ∧
        e.serial = (captureSlot w userId).1) ∧
      (captureSlot w userId).2.tasks = w.tasks := by
  unfold captureSlot
  split
  · rename_i e he
    exact ⟨h, ⟨e, he, rfl⟩, rfl⟩
  rename_i hnone
  -- No slot has the next serial yet.
  have hnew : w.slots.find w.nextSerial = none := by
    cases hfind : w.slots.find w.nextSerial with
    | none => rfl
    | some s => exact absurd (h.known _ s hfind) (Nat.lt_irrefl _)
  have hslot : ∀ n, (w.slots.insert { serial := w.nextSerial }).find n =
      if n = w.nextSerial then some { serial := w.nextSerial } else w.slots.find n :=
    Table.find_insert_new hnew
  have hreg : ∀ u, (w.registry.insert { userId, serial := w.nextSerial }).find u =
      if u = userId then some { userId, serial := w.nextSerial } else w.registry.find u :=
    Table.find_insert_new hnone
  have hser : ∀ u e, w.registry.find u = some e → e.serial < w.nextSerial := by
    intro u e he
    rcases Option.isSome_iff_exists.mp (h.there u e he) with ⟨s, hs⟩
    exact h.known _ s hs
  refine ⟨?_, ⟨_, by rw [hreg, if_pos rfl], rfl⟩, rfl⟩
  constructor
  · exact Table.forall_put hslot Lock.good_free fun n s _ => h.good n s
  · exact Table.forall_put hslot rfl fun n s _ => h.count n s
  · exact Table.forall_put hslot nofun fun n s _ => h.queued n s
  · intro id t ht hocc
    rcases h.registered id t ht hocc with ⟨e, he, hsame⟩
    refine ⟨e, ?_, hsame⟩
    rw [hreg, if_neg, he]
    intro huser
    rw [huser, hnone] at he
    contradiction
  · refine Table.forall_put hreg ?_ fun u e _ he => ?_
    · rw [hslot, if_pos rfl]
      rfl
    · rw [hslot]
      split
      · rfl
      · exact h.there u e he
  · intro u u' e e' he he' hsame
    rw [hreg] at he he'
    split at he
    · rename_i hu
      split at he'
      · rename_i hu'
        rw [hu, hu']
      · have hold := hser u' e' he'
        rw [← hsame, ← Option.some.inj he] at hold
        exact absurd hold (Nat.lt_irrefl _)
    · split at he'
      · have hold := hser u e he
        rw [hsame, ← Option.some.inj he'] at hold
        exact absurd hold (Nat.lt_irrefl _)
      · exact h.apart u u' e e' he he' hsame
  · exact Table.forall_put hslot (Nat.lt_succ_self _) fun n s _ hs =>
      Nat.lt_succ_of_lt (h.known n s hs)
  · intro id t ht hhold s hs
    rw [hslot] at hs
    rcases h.slot_of_task ht (Phase.occupies_of_holds hhold) with ⟨_, _, hless⟩
    rw [if_neg (Nat.ne_of_lt hless)] at hs
    exact h.held id t ht hhold s hs
  · exact h.alone
  · exact h.tries

section

variable (htask : w.tasks.find task.id = some task)
include htask

theorem slotInv_enter
    (hph : task.phase = .pending) (hin : enter w task = some w') : SlotInv w' := by
  rcases slotInv_captureSlot h task.userId with ⟨h₁, hent, htasks⟩
  rw [← htasks] at htask
  unfold enter at hin
  dsimp only at hin
  split at hin
  · contradiction
  rename_i slot hslot
  split at hin
  · cases hin
    refine h₁.of_tasks rfl rfl rfl ?_ ?_
    · refine Table.forall_put (find_setTask htask _ _) nofun fun i t' _ ht' hocc => ?_
      exact ⟨t', ht', hocc, rfl, rfl, rfl, rfl⟩
    · intro i t ht hwaits
      rw [find_setTask htask, if_neg]
      · exact ht
      · intro hi
        rw [hi] at ht
        obtain rfl := Option.some.inj (htask.symm.trans ht)
        rw [hph] at hwaits
        contradiction
  · rename_i hadmitted
    cases hin
    have hgood := h₁.good _ slot hslot
    -- Whoever is pending is in no queue.
    have hnew : task.id ∉ slot.lock.queue := by
      intro hq
      rcases h₁.queued _ slot hslot _ hq with ⟨t, ht, hwaits, -⟩
      obtain rfl := Option.some.inj (htask.symm.trans ht)
      rw [hph] at hwaits
      contradiction
    refine h₁.move hslot htask (fun n => find_setSlot hslot _ _ n)
      (fun i => find_setTask htask _ _ i) rfl rfl (Lock.good_acquire hgood hnew) ?_ ?_ rfl ?_
      hent ?_ ?_ ?_
    · dsimp only
      rw [Lock.occupied_acquire, h₁.count _ slot hslot]
    · intro i hi
      rcases Lock.mem_queue_acquire hi with hold | ⟨rfl, hwait⟩
      · exact .inl ⟨hold, fun heq => hnew (heq ▸ hold)⟩
      · refine .inr ⟨rfl, ?_⟩
        simp [hwait]
    · intro hwaits
      rw [hph] at hwaits
      contradiction
    · intro hhold
      split at hhold
      · rename_i hgot
        exact (Lock.acquire_free hgot).2
      · contradiction
    · intro i t hoth ht hhold hsame
      have hlock := h₁.held i t ht hhold slot (hsame ▸ hslot)
      cases hgot : (slot.lock.acquire task.id).1 with
      | true =>
        rw [(Lock.acquire_free hgot).1] at hlock
        contradiction
      | false =>
        refine ⟨(Lock.locked_acquire hgot).trans hlock, ?_⟩
        simp [Phase.holds]
    · -- A task that does not wait is admitted only to a slot that nobody occupies.
      intro hform
      have hvacant : slot.lock.occupied = 0 := by
        rw [← h₁.count _ slot hslot]
        by_cases hzero : slot.occupants = 0
        · exact hzero
        · exact absurd ⟨hform, hzero⟩ hadmitted
      simp [Lock.acquire_of_vacant hvacant]

theorem slotInv_resume
    (hph : task.phase = .waiting) (hres : resume w task = some w') : SlotInv w' := by
  have hocc : task.phase.occupies = true := Phase.occupies_iff.mpr (.inr hph)
  have hent := h.registered _ task htask hocc
  unfold resume at hres
  split at hres
  · contradiction
  rename_i slot hslot
  have hgood := h.good _ slot hslot
  have hcnt := h.count _ slot hslot
  split at hres
  · contradiction
  · rename_i lock hlock
    cases hres
    refine h.move hslot htask (fun n => find_setSlot hslot _ _ n)
      (fun i => find_setTask htask _ _ i) rfl rfl (Lock.good_resume hgood hlock) ?_ ?_ rfl
      (fun _ => rfl) hent ?_ ?_ ?_
    · dsimp only
      rw [hcnt, Lock.occupied_resume hgood hlock, if_pos rfl]
    · exact fun i hi => .inl (Lock.mem_queue_resume hlock hi)
    · exact fun _ => (Lock.resume_free hgood hlock).2
    · intro i t hoth ht hhold hsame
      have hlocked := h.held i t ht hhold slot (hsame ▸ hslot)
      rw [(Lock.resume_free hgood hlock).1] at hlocked
      contradiction
    · exact fun _ => nofun
  · rename_i lock hlock
    cases hres
    refine h.move hslot htask (fun n => find_setSlot hslot _ _ n)
      (fun i => find_setTask htask _ _ i) rfl rfl (Lock.good_resume hgood hlock) ?_ ?_ rfl
      (fun _ => rfl) hent nofun ?_ ?_
    · dsimp only
      rw [hcnt, Lock.occupied_resume hgood hlock]
      rfl
    · exact fun i hi => .inl (Lock.mem_queue_resume hlock hi)
    · intro i t hoth ht hhold hsame
      exact ⟨(Lock.locked_resume hlock).trans (h.held i t ht hhold slot (hsame ▸ hslot)), rfl⟩
    · exact fun _ => nofun

theorem slotInv_leave
    (hhold : task.phase.holds = true) (hleave : leave w task = some w') : SlotInv w' := by
  have hent := h.registered _ task htask (Phase.occupies_of_holds hhold)
  unfold leave at hleave
  split at hleave
  · contradiction
  rename_i slot hslot
  cases hleave
  have hlock := h.held _ task htask hhold slot hslot
  have hnotqueued : task.id ∉ slot.lock.queue := by
    intro hq
    rcases h.queued _ slot hslot _ hq with ⟨t, ht, hwait, -⟩
    obtain rfl := Option.some.inj (htask.symm.trans ht)
    rw [hwait] at hhold
    contradiction
  refine h.move hslot htask (fun n => find_setSlot hslot _ _ n)
    (fun i => find_setTask htask _ _ i) rfl rfl (Lock.good_release (h.good _ slot hslot)) ?_ ?_
    rfl (fun _ => rfl) hent nofun ?_ ?_
  · dsimp only
    rw [Lock.occupied_release hlock, h.count _ slot hslot]
  · intro i hi
    rw [Lock.queue_release] at hi
    exact .inl ⟨hi, fun heq => hnotqueued (heq ▸ hi)⟩
  · intro i t hoth ht hhold' hsame
    exact absurd (h.alone i _ t task ht htask hhold' hhold hsame) hoth
  · exact fun _ => nofun

theorem slotInv_cancel
    (hph : task.phase = .waiting) (hslot : w.slots.find task.serial = some slot) :
    SlotInv (w.setSlot task.serial (slot.lock.cancel task.id) slot.occupants) := by
  have hocc : task.phase.occupies = true := Phase.occupies_iff.mpr (.inr hph)
  have hfree : task.phase.holds = false := by
    rw [hph]
    rfl
  have htasks : ∀ i, w.tasks.find i = if i = task.id then some task else w.tasks.find i := by
    intro i
    split
    · rename_i hi
      rw [hi, htask]
    · rfl
  refine h.move hslot htask (fun n => find_setSlot hslot _ _ n) htasks rfl rfl
    (Lock.good_cancel (h.good _ slot hslot) _) ?_ ?_ rfl (fun _ => rfl)
    (h.registered _ task htask hocc) ?_ ?_ ?_
  · dsimp only
    rw [Lock.occupied_cancel, h.count _ slot hslot]
  · intro i hi
    rw [Lock.queue_cancel] at hi
    by_cases hself : i = task.id
    · exact .inr ⟨hself, hph⟩
    · exact .inl ⟨hi, hself⟩
  · intro hhold
    rw [hfree] at hhold
    contradiction
  · intro i t hoth ht hhold hsame
    exact ⟨h.held i t ht hhold slot (hsame ▸ hslot), hfree⟩
  · exact fun hform => absurd hph (h.tries _ task htask hform)

end

theorem slotInv_collect {userId : Nat} {entry : Entry} (hent : w.registry.find userId = some entry)
    (hunused : ∀ task ∈ w.tasks.rows, task.phase.occupies = true → task.serial ≠ entry.serial) :
    SlotInv { w with
      registry := w.registry.erase userId
      slots := w.slots.erase entry.serial } := by
  have hslot : ∀ n s, (w.slots.erase entry.serial).find n = some s →
      w.slots.find n = some s ∧ n ≠ entry.serial := by
    intro n s hs
    rw [Table.find_erase] at hs
    split at hs
    · contradiction
    rename_i hn
    exact ⟨hs, hn⟩
  have hreg : ∀ u e, (w.registry.erase userId).find u = some e →
      w.registry.find u = some e ∧ u ≠ userId := by
    intro u e he
    rw [Table.find_erase] at he
    split at he
    · contradiction
    rename_i hu
    exact ⟨he, hu⟩
  refine
    { good := fun n s hs => h.good n s (hslot n s hs).1
      count := fun n s hs => h.count n s (hslot n s hs).1
      queued := fun n s hs => h.queued n s (hslot n s hs).1
      registered := ?_
      there := ?_
      apart := ?_
      known := fun n s hs => h.known n s (hslot n s hs).1
      held := fun id t ht hhold s hs => h.held id t ht hhold s (hslot _ s hs).1
      alone := h.alone
      tries := h.tries }
  · intro id t ht hocc
    rcases h.registered id t ht hocc with ⟨e, he, hser⟩
    refine ⟨e, ?_, hser⟩
    rw [Table.find_erase, if_neg]
    · exact he
    -- An entry whose slot is still occupied would be in use.
    · intro huser
      rw [huser, hent] at he
      have hsame : t.serial = entry.serial := by
        rw [← hser, Option.some.inj he]
      exact hunused t (Table.find_eq_some.mp ht).1 hocc hsame
  · intro u e he
    rcases hreg u e he with ⟨hold, hoth⟩
    rw [Table.find_erase, if_neg]
    · exact h.there u e hold
    · exact fun hsame => hoth (h.apart u userId e entry hold hent hsame)
  · intro u u' e e' he he' hsame
    exact h.apart u u' e e' (hreg u e he).1 (hreg u' e' he').1 hsame

end

theorem spawn_eq_some {userId : Nat} {form : Form} {machineIdentifier : String}
    (h : spawn decrypt w id userId form machineIdentifier = some w') :
    ∃ task : Task, w' = { w with tasks := w.tasks.insert task } ∧ task.id = id ∧
      w.tasks.find id = none ∧ task.phase = .pending ∧
      task.tokenCiphertext.map decrypt = some task.token := by
  unfold spawn at h
  split at h
  · contradiction
  split at h
  · contradiction
  rename_i row _ token htok
  split at h
  · contradiction
  rename_i hfree
  exact ⟨_, (Option.some.inj h).symm, rfl, Option.not_isSome_iff_eq_none.mp hfree, rfl,
    htok⟩

theorem slotInv_insert (h : SlotInv w) (hnew : w.tasks.find task.id = none)
    (hph : task.phase = .pending) : SlotInv { w with tasks := w.tasks.insert task } := by
  refine h.of_tasks rfl rfl rfl ?_ ?_
  · refine Table.forall_put (Table.find_insert_new hnew) (fun hocc => ?_) ?_
    · rw [hph] at hocc
      contradiction
    · exact fun i t _ ht hocc => ⟨t, ht, hocc, rfl, rfl, rfl, rfl⟩
  · intro i t ht hwait
    rw [Table.find_insert_new hnew, if_neg]
    · exact ht
    · intro hi
      rw [hi, hnew] at ht
      contradiction

theorem slotInv_holding (h : SlotInv w) {phase : Phase} (htask : w.tasks.find id = some task)
    (hhold : task.phase.holds = true) (hph : phase.holds = true) (hslot : w'.slots = w.slots)
    (hreg : w'.registry = w.registry) (hnext : w'.nextSerial = w.nextSerial)
    (htasks : w'.tasks = (w.setTask id (fun t => { t with phase }) (fun _ => rfl)).tasks) :
    SlotInv w' := by
  refine h.of_tasks hslot hreg hnext ?_ ?_
  · rw [htasks]
    refine Table.forall_put (find_setTask htask _ _) (fun _ => ?_) ?_
    · exact ⟨task, htask, Phase.occupies_of_holds hhold, rfl, rfl, rfl,
        hph.trans hhold.symm⟩
    · exact fun i t' _ ht' hocc => ⟨t', ht', hocc, rfl, rfl, rfl, rfl⟩
  · intro i t ht hwait
    rw [htasks, find_setTask htask, if_neg]
    · exact ht
    · intro hi
      rw [hi] at ht
      obtain rfl := Option.some.inj (htask.symm.trans ht)
      rw [hwait] at hhold
      contradiction

theorem slotInv_nobody (hslots : w.slots = Table.empty) (hreg : w.registry = Table.empty)
    (htasks : w.tasks = Table.empty) : SlotInv w := by
  have hslot : ∀ n s, w.slots.find n ≠ some s := by
    rw [hslots]
    nofun
  have hent : ∀ u e, w.registry.find u ≠ some e := by
    rw [hreg]
    nofun
  have htask : ∀ id t, w.tasks.find id ≠ some t := by
    rw [htasks]
    nofun
  exact
    { good := fun n s hs => absurd hs (hslot n s)
      count := fun n s hs => absurd hs (hslot n s)
      queued := fun n s hs => absurd hs (hslot n s)
      registered := fun id t ht => absurd ht (htask id t)
      there := fun u e he => absurd he (hent u e)
      apart := fun u _ e _ he => absurd he (hent u e)
      known := fun n s hs => absurd hs (hslot n s)
      held := fun id t ht => absurd ht (htask id t)
      alone := fun id _ t _ ht => absurd ht (htask id t)
      tries := fun id t ht => absurd ht (htask id t) }

theorem SlotInv.of_eq (h : SlotInv w) (hslot : w'.slots = w.slots) (hreg : w'.registry = w.registry)
    (hnext : w'.nextSerial = w.nextSerial) (htasks : w'.tasks = w.tasks) : SlotInv w' := by
  refine h.of_tasks hslot hreg hnext ?_ ?_
  · intro i t ht hocc
    rw [htasks] at ht
    exact ⟨t, ht, hocc, rfl, rfl, rfl, rfl⟩
  · intro i t ht _
    rw [htasks]
    exact ht

theorem of_task {p : Task → Prop} [DecidablePred p] {f : Task → Option World}
    (h : (match w.tasks.find id with
      | none => none
      | some task => if p task then f task else none) = some w') :
    ∃ task, w.tasks.find task.id = some task ∧ task.id = id ∧ p task ∧ f task = some w' := by
  split at h
  · contradiction
  rename_i task htask
  obtain rfl := Table.key_of_find htask
  split at h
  · rename_i hp
    exact ⟨task, htask, rfl, hp, h⟩
  · contradiction

theorem slotInv_step (h : SlotInv w) {a : Action}
    (hstep : step decrypt w a = some w') : SlotInv w' := by
  cases a with
  | others e =>
    cases hstep
    exact h.of_eq rfl rfl rfl rfl
  | signIn id inserted user token ciphertext tokenHash machineIdentifier =>
    simp only [step] at hstep
    split at hstep
    · rcases spawn_eq_some hstep with ⟨task, rfl, rfl, hnew, hph, -⟩
      have hsame : SlotInv { w with
          db := w.db.after decrypt (.signIn inserted user token ciphertext tokenHash) } :=
        h.of_eq rfl rfl rfl rfl
      exact slotInv_insert hsame hnew hph
    · contradiction
  | select id userId machineIdentifier =>
    rcases spawn_eq_some hstep with ⟨task, rfl, rfl, hnew, hph, -⟩
    exact slotInv_insert h hnew hph
  | enter id =>
    rcases of_task hstep with ⟨task, htask, rfl, hph, hstep⟩
    exact slotInv_enter h htask hph hstep
  | resume id =>
    rcases of_task hstep with ⟨task, htask, rfl, hph, hstep⟩
    exact slotInv_resume h htask hph hstep
  | cancel id =>
    rcases of_task hstep with ⟨task, htask, rfl, hph, hstep⟩
    rcases Option.map_eq_some_iff.mp hstep with ⟨slot, hslot, rfl⟩
    exact slotInv_cancel h htask hph hslot
  | read id sectionKeys capturedAt =>
    rcases of_task hstep with ⟨task, htask, rfl, hph, hstep⟩
    cases hstep
    exact slotInv_holding h htask (hph ▸ rfl) rfl rfl rfl rfl rfl
  | store id =>
    simp only [step] at hstep
    split at hstep
    · contradiction
    rename_i task htask
    split at hstep
    · rename_i number capture hph
      cases hstep
      obtain rfl := Table.key_of_find htask
      exact slotInv_holding h htask (hph ▸ rfl) rfl rfl rfl rfl rfl
    · contradiction
  | leave id =>
    rcases of_task hstep with ⟨task, htask, rfl, hhold, hstep⟩
    exact slotInv_leave h htask hhold hstep
  | collect userId =>
    simp only [step] at hstep
    split at hstep
    · contradiction
    rename_i entry hent
    split at hstep
    · rename_i hunused
      cases hstep
      exact slotInv_collect h hent hunused
    · contradiction
  | load key userId =>
    simp only [step] at hstep
    split at hstep
    · contradiction
    split at hstep
    · contradiction
    cases hstep
    exact h.of_eq rfl rfl rfl rfl
  | verdict key verdict now =>
    simp only [step] at hstep
    split at hstep
    · contradiction
    cases hstep
    exact h.of_eq rfl rfl rfl rfl
  | restart =>
    cases hstep
    exact slotInv_nobody rfl rfl rfl

end CaptureSlots

end PlexManager
