import PlexManager.Core.UpdateSchedule
import PlexManager.Lib.Gather
import Mathlib.Algebra.GroupWithZero.Nat

/-!
# Which dates an open window can start on

`current_window` looks for the window of an instant on two dates, the local date
of the instant and the day before. Both rules about the clock are kept in the
windows themselves: the whole of a repeated hour is inside a window that starts
or ends in it. But then an instant can lie in a window whose date is not one of
the two. Where the clock is set back over midnight just after a window has
started, the local date is the day before its start again, and for as long as
the repetition lasts the window is found shut.

What an instant lies in is read off the clock: it has come to the time at which
the window of a date starts, and it comes to the time at which it ends later on.
`isOpen_exact` says exactly when an answer is right. The dates that matter are
those the clock is set back from.

## Theorems

* `heldBy_iff_runs`: The windows an instant lies in, by the clock.
* `isOpen_exact`: When `is_open` is right.
* `isOpen_overlooks`: A window that is overlooked.
-/

namespace PlexManager

namespace UpdateSchedule

open Gather

def HeldBy (s : UpdateSchedule) (now d : Int) : Prop :=
  ∃ w, s.windowForStartDate d = .ok (some w) ∧ w.contains now = true

/-! ### The clock -/

/-- The timezone gives the instant for a wall time, and shows the wall time at it. -/
def Shows (zone : Zone) (naive t : Int) : Prop :=
  zone.toLocal t = naive ∧ (t = zone.toUtc naive false ∨ t = zone.toUtc naive true)

/-- The clock comes to a wall time at an instant: it shows it, or the first minute of the
    two days after it that it shows at all. -/
def ComesTo (zone : Zone) (naive t : Int) : Prop :=
  ∃ k : Nat, k ≤ 48 * 60 ∧ Shows zone (naive + k * minute) t ∧
    ∀ j : Nat, j < k → ∀ u, ¬ Shows zone (naive + j * minute) u

/-- The date is selected, the clock has come to the start of its window, and comes to the
    end later on. -/
structure Runs (s : UpdateSchedule) (now d : Int) : Prop where
  selected : weekdayOf d ∈ s.weekdays
  begun : ∃ t ≤ now, ComesTo s.timezone (combine d s.windowStart) t
  lasts : ∃ t, now < t ∧ ComesTo s.timezone (combine (s.endDate d) s.windowEnd) t

/-- The clock comes to both ends of the window of a date, if it is selected. -/
def Placed (s : UpdateSchedule) (d : Int) : Prop :=
  weekdayOf d ∈ s.weekdays → (∃ t, ComesTo s.timezone (combine d s.windowStart) t) ∧
    ∃ t, ComesTo s.timezone (combine (s.endDate d) s.windowEnd) t

/-- The clock is set back with the window of a date: it has come to the start, and shows a
    date before that of the start; or it comes to the end later, and shows a date behind
    that of the end. -/
structure SetBack (s : UpdateSchedule) (now d : Int) : Prop where
  runs : s.Runs now d
  away : s.localDate now < d ∨ d + 1 < s.localDate now

/-! ### Resolving -/

variable {naive now t : Int} {zone : Zone} {boundary : Boundary}

theorem mem_wallCandidates : t ∈ wallCandidates naive zone ↔ Shows zone naive t := by
  have hshow : t ∈ [zone.toUtc naive false, zone.toUtc naive true].filter
      (fun instant => zone.toLocal instant = naive) ↔ Shows zone naive t := by
    simp [Shows, and_comm]
  unfold wallCandidates
  split
  · rename_i early late heq
    rw [← hshow, heq]
    split
    · simp only [List.mem_cons, List.not_mem_nil, or_false]
      omega
    · simp only [List.mem_cons, List.not_mem_nil, or_false]
      omega
  · exact hshow

theorem wallCandidates_eq_nil : wallCandidates naive zone = [] ↔ ∀ u, ¬ Shows zone naive u := by
  rw [List.eq_nil_iff_forall_not_mem]
  exact forall_congr' fun u => not_congr mem_wallCandidates

theorem Boundary.pick_mem (boundary : Boundary) (c : Int) (others : List Int) :
    boundary.pick c others ∈ c :: others := by
  cases boundary with
  | start => exact List.min?_mem List.min?_cons'
  | stop => exact List.max?_mem List.max?_cons'

theorem foldl_min_le (c : Int) (others : List Int) : ∀ u ∈ c :: others, others.foldl min c ≤ u :=
  (List.le_min?_iff List.min?_cons').mp (Int.le_refl _)

theorem le_foldl_max (c : Int) (others : List Int) : ∀ u ∈ c :: others, u ≤ others.foldl max c :=
  (List.max?_le_iff List.max?_cons').mp (Int.le_refl _)

-- What is found is picked from the candidates of the first minute that has any.
theorem resolveFrom_eq_ok_iff (boundary : Boundary) (probes : Nat) (naive t : Int) :
    resolveFrom zone boundary probes naive = .ok t ↔
      ∃ k < probes, (∀ j : Nat, j < k → wallCandidates (naive + j * minute) zone = []) ∧
        ∃ c others, wallCandidates (naive + k * minute) zone = c :: others ∧
          boundary.pick c others = t := by
  induction probes generalizing naive with
  | zero => exact ⟨nofun, fun ⟨k, hk, _⟩ => absurd hk (Nat.not_lt_zero k)⟩
  | succ probes ih =>
    have hzero : naive + (0 : Nat) * minute = naive := by simp
    have hnext (j : Nat) : naive + minute + j * minute = naive + (j + 1 : Nat) * minute := by
      simp only [minute]
      omega
    rw [resolveFrom]
    cases hcands : wallCandidates naive zone with
    | nil =>
      simp only [ih, hnext]
      constructor
      · rintro ⟨k, hk, hnone, hsome⟩
        refine ⟨k + 1, Nat.succ_lt_succ hk, fun j hj => ?_, hsome⟩
        cases j with
        | zero => rwa [hzero]
        | succ j => exact hnone j (Nat.lt_of_succ_lt_succ hj)
      · rintro ⟨k, hk, hnone, c, others, hsome, hpick⟩
        cases k with
        | zero =>
          rw [hzero, hcands] at hsome
          exact nomatch hsome
        | succ k =>
          exact ⟨k, Nat.lt_of_succ_lt_succ hk, fun j hj => hnone (j + 1) (Nat.succ_lt_succ hj),
            c, others, hsome, hpick⟩
    | cons c others =>
      constructor
      · intro h
        exact ⟨0, Nat.succ_pos probes, nofun, c, others, by rw [hzero, hcands], Except.ok.inj h⟩
      · rintro ⟨k, -, hnone, c', others', hsome, hpick⟩
        cases k with
        | zero =>
          rw [hzero, hcands] at hsome
          cases hsome
          exact congrArg _ hpick
        | succ k =>
          have hnil := hnone 0 (Nat.succ_pos k)
          rw [hzero, hcands] at hnil
          exact nomatch hnil

theorem comesTo_of_resolve (h : resolveWallTime naive zone boundary = .ok t) :
    ∃ c others, boundary.pick c others = t ∧ ∀ u, u ∈ c :: others ↔ ComesTo zone naive u := by
  rcases (resolveFrom_eq_ok_iff ..).mp h with ⟨k, hk, hnone, c, others, hsome, hpick⟩
  refine ⟨c, others, hpick, fun u => ?_⟩
  rw [← hsome, mem_wallCandidates]
  constructor
  · intro hshow
    exact ⟨k, by omega, hshow, fun j hj => wallCandidates_eq_nil.mp (hnone j hj)⟩
  · rintro ⟨k', -, hshow, hskip⟩
    -- both minutes are the first that is shown
    rcases Nat.lt_trichotomy k k' with hlt | rfl | hlt
    · refine absurd (mem_wallCandidates.mp ?_) (hskip k hlt c)
      rw [hsome]
      exact List.mem_cons_self
    · exact hshow
    · exact absurd hshow (wallCandidates_eq_nil.mp (hnone k' hlt) u)

theorem resolve_of_comesTo (boundary : Boundary) (h : ComesTo zone naive t) :
    ∃ u, resolveWallTime naive zone boundary = .ok u := by
  rcases h with ⟨k, hk, hshow, hskip⟩
  have hmem := mem_wallCandidates.mpr hshow
  rcases List.exists_cons_of_ne_nil (List.ne_nil_of_mem hmem) with ⟨c, others, hsome⟩
  exact ⟨_, (resolveFrom_eq_ok_iff ..).mpr ⟨k, by omega,
    fun j hj => wallCandidates_eq_nil.mpr (hskip j hj), c, others, hsome, rfl⟩⟩

theorem exists_resolve_iff (boundary : Boundary) :
    (∃ u, resolveWallTime naive zone boundary = .ok u) ↔ ∃ u, ComesTo zone naive u := by
  constructor
  · rintro ⟨t, h⟩
    rcases comesTo_of_resolve h with ⟨c, others, -, hcomes⟩
    exact ⟨c, (hcomes c).mp List.mem_cons_self⟩
  · rintro ⟨u, h⟩
    exact resolve_of_comesTo boundary h

theorem start_le_iff (h : resolveWallTime naive zone .start = .ok t) :
    t ≤ now ↔ ∃ u ≤ now, ComesTo zone naive u := by
  rcases comesTo_of_resolve h with ⟨c, others, rfl, hcomes⟩
  constructor
  · exact fun hle => ⟨_, hle, (hcomes _).mp (Boundary.pick_mem .start c others)⟩
  · rintro ⟨u, hle, hu⟩
    exact Int.le_trans (foldl_min_le c others u ((hcomes u).mpr hu)) hle

theorem lt_stop_iff (h : resolveWallTime naive zone .stop = .ok t) :
    now < t ↔ ∃ u, now < u ∧ ComesTo zone naive u := by
  rcases comesTo_of_resolve h with ⟨c, others, rfl, hcomes⟩
  constructor
  · exact fun hlt => ⟨_, hlt, (hcomes _).mp (Boundary.pick_mem .stop c others)⟩
  · rintro ⟨u, hlt, hu⟩
    exact Int.lt_of_lt_of_le hlt (le_foldl_max c others u ((hcomes u).mpr hu))

/-! ### One window -/

variable {s : UpdateSchedule}

theorem windowForStartDate_eq_some {d : Int} {w : ScheduleWindow}
    (h : s.windowForStartDate d = .ok (some w)) :
    resolveWallTime (combine d s.windowStart) s.timezone .start = .ok w.start ∧
      resolveWallTime (combine (s.endDate d) s.windowEnd) s.timezone .stop = .ok w.stop ∧
      w.start < w.stop := by
  dsimp only [windowForStartDate] at h
  split at h
  · exact nomatch h
  rcases bind_eq_ok h with ⟨start, hbeg, h⟩
  rcases bind_eq_ok h with ⟨stop, hstop, h⟩
  split at h
  · exact nomatch h
  rename_i hlt
  cases h
  exact ⟨hbeg, hstop, Int.not_le.mp hlt⟩

theorem windowForStartDate_eq_ok {d start stop : Int} (hsel : weekdayOf d ∈ s.weekdays)
    (hbeg : resolveWallTime (combine d s.windowStart) s.timezone .start = .ok start)
    (hstop : resolveWallTime (combine (s.endDate d) s.windowEnd) s.timezone .stop = .ok stop)
    (hlt : start < stop) : s.windowForStartDate d = .ok (some ⟨start, stop, weekdayOf d⟩) := by
  dsimp only [windowForStartDate]
  rw [if_neg (fun h => h hsel), hbeg, hstop]
  have hproper : ¬ stop ≤ start := by omega
  simp [bind, Except.bind, pure, Except.pure, hproper]

theorem contains_iff (w : ScheduleWindow) (now : Int) :
    w.contains now = true ↔ w.start ≤ now ∧ now < w.stop := by
  simp [ScheduleWindow.contains]

theorem selected_of_eq_some {d : Int} {w : ScheduleWindow}
    (h : s.windowForStartDate d = .ok (some w)) : weekdayOf d ∈ s.weekdays := by
  refine Decidable.byContradiction fun hsel => ?_
  dsimp only [windowForStartDate] at h
  rw [if_pos hsel] at h
  exact nomatch h

variable (s : UpdateSchedule) (d : Int)

theorem combine_bounds (time : Fin 1440) :
    d * day ≤ combine d time ∧ combine d time < (d + 1) * day := by
  simp only [combine, day, minute]
  omega

theorem endDate_bounds : d ≤ s.endDate d ∧ s.endDate d ≤ d + 1 := by
  unfold endDate
  split
  · omega
  · omega

theorem localDate_bounds (now : Int) :
    s.localDate now * day ≤ s.timezone.toLocal now ∧
      s.timezone.toLocal now < (s.localDate now + 1) * day := by
  simp only [localDate, dateOf, day]
  omega

theorem heldBy_iff_runs (now : Int) : s.HeldBy now d ↔ s.Runs now d := by
  constructor
  · rintro ⟨w, hwin, hcont⟩
    rcases windowForStartDate_eq_some hwin with ⟨hbeg, hstop, -⟩
    rw [contains_iff] at hcont
    exact ⟨selected_of_eq_some hwin, (start_le_iff hbeg).mp hcont.1, (lt_stop_iff hstop).mp hcont.2⟩
  · rintro ⟨hsel, ⟨t, hle, ht⟩, ⟨u, hlt, hu⟩⟩
    rcases resolve_of_comesTo .start ht with ⟨start, hbeg⟩
    rcases resolve_of_comesTo .stop hu with ⟨stop, hstop⟩
    have hbefore := (start_le_iff hbeg).mpr ⟨t, hle, ht⟩
    have hafter := (lt_stop_iff hstop).mpr ⟨u, hlt, hu⟩
    exact ⟨_, windowForStartDate_eq_ok hsel hbeg hstop (by omega),
      (contains_iff _ _).mpr ⟨hbefore, hafter⟩⟩

theorem Runs.placed (h : s.Runs now d) : s.Placed d := fun _ =>
  ⟨h.begun.imp fun _ ht => ht.2, h.lasts.imp fun _ ht => ht.2⟩

theorem resolves_iff_placed : (∃ found, s.windowForStartDate d = .ok found) ↔ s.Placed d := by
  unfold Placed
  rw [← exists_resolve_iff .start, ← exists_resolve_iff .stop]
  dsimp only [windowForStartDate]
  by_cases hsel : weekdayOf d ∈ s.weekdays
  · rw [if_neg (not_not_intro hsel)]
    constructor
    · rintro ⟨found, h⟩ -
      rcases bind_eq_ok h with ⟨start, hbeg, h⟩
      rcases bind_eq_ok h with ⟨stop, hstop, -⟩
      exact ⟨⟨start, hbeg⟩, ⟨stop, hstop⟩⟩
    · intro h
      rcases h hsel with ⟨⟨start, hbeg⟩, ⟨stop, hstop⟩⟩
      rw [hbeg, hstop]
      exact ⟨_, rfl⟩
  · rw [if_pos hsel]
    exact iff_of_true ⟨_, rfl⟩ fun h => absurd h hsel

-- For a date after the local one, the clock has already been past the midnight it begins with.
-- For one before yesterday, it will be set back to before today, or it never shows the wall
-- time the window ends at.
theorem SetBack.clock {s : UpdateSchedule} {d : Int} (h : s.SetBack now d) :
    (s.localDate now < d ∧ ∃ t ≤ now, d * day ≤ s.timezone.toLocal t) ∨
      (d + 1 < s.localDate now ∧
        ((∃ t, now < t ∧ s.timezone.toLocal t < (d + 2) * day) ∨
          ∀ u, ¬ Shows s.timezone (combine (s.endDate d) s.windowEnd) u)) := by
  rcases h.away with haway | haway
  · rcases h.runs.begun with ⟨t, hle, k, -, hshow, -⟩
    have hbnd := combine_bounds d s.windowStart
    have hafter : 0 ≤ (k : Int) * minute := by
      simp only [minute]
      omega
    exact .inl ⟨haway, t, hle, by rw [hshow.1]; omega⟩
  · rcases h.runs.lasts with ⟨t, hlt, k, -, hshow, hskip⟩
    refine .inr ⟨haway, ?_⟩
    cases k with
    | zero =>
      have hbnd := combine_bounds (s.endDate d) s.windowEnd
      have hend := endDate_bounds s d
      refine .inl ⟨t, hlt, ?_⟩
      rw [hshow.1]
      simp only [day, minute] at hbnd ⊢
      omega
    | succ k => exact .inr (by simpa using hskip 0 (Nat.succ_pos k))

/-! ### The two dates -/

-- A date is found open by its own window, or passed over for the dates after it if its window
-- can be worked out.
theorem firstOpen_cons (now d : Int) (others : List Int) :
    (s.firstOpen now (d :: others)).map Option.isSome = .ok true ↔
      s.Runs now d ∨
        s.Placed d ∧ (s.firstOpen now others).map Option.isSome = .ok true := by
  rw [firstOpen, ← heldBy_iff_runs, ← resolves_iff_placed]
  cases hwin : s.windowForStartDate d with
  | error e => simp [HeldBy, hwin, bind, Except.bind, Except.map]
  | ok found =>
    cases found with
    | none => simp [HeldBy, hwin, bind, Except.bind]
    | some w =>
      by_cases hcont : w.contains now = true
      · simp [HeldBy, hwin, hcont, bind, Except.bind, pure, Except.pure, Except.map]
      · simp [HeldBy, hwin, hcont, bind, Except.bind]

theorem isOpen_iff (henabled : s.enabled = true) (now : Int) :
    s.isOpen now = .ok true ↔
      s.Runs now (s.localDate now - 1) ∨
        s.Placed (s.localDate now - 1) ∧ s.Runs now (s.localDate now) := by
  rw [isOpen, currentWindow, henabled, Bool.not_true, if_neg Bool.false_ne_true, firstOpen_cons,
    firstOpen_cons]
  constructor
  · rintro (h | ⟨hplaced, h | ⟨-, h⟩⟩)
    · exact .inl h
    · exact .inr ⟨hplaced, h⟩
    · exact absurd h nofun
  · rintro (h | ⟨hplaced, h⟩)
    · exact .inl h
    · exact .inr ⟨hplaced, .inl h⟩

/-- `is_open` answers that the window is open exactly where some date's window contains the
    instant, if and only if the window of the local date or of the day before runs wherever
    the clock is set back with that of another. (Where the window of the day before cannot
    be worked out, there is no answer, and then no window may run.) -/
theorem isOpen_exact (s : UpdateSchedule) (henabled : s.enabled = true) (now : Int) :
    ((s.isOpen now = .ok true ↔ ∃ d, s.HeldBy now d) ↔
      (s.Placed (s.localDate now - 1) →
        ∀ d, s.SetBack now d → s.Runs now (s.localDate now - 1) ∨ s.Runs now (s.localDate now)) ∧
      (¬ s.Placed (s.localDate now - 1) → ∀ d, ¬ s.Runs now d)) ∧
    ∀ d, s.SetBack now d →
      (s.localDate now < d ∧ ∃ t ≤ now, d * day ≤ s.timezone.toLocal t) ∨
        (d + 1 < s.localDate now ∧
          ((∃ t, now < t ∧ s.timezone.toLocal t < (d + 2) * day) ∨
            ∀ u, ¬ Shows s.timezone (combine (s.endDate d) s.windowEnd) u)) := by
  refine ⟨?_, fun d => SetBack.clock⟩
  simp only [isOpen_iff s henabled now, heldBy_iff_runs]
  by_cases hplaced : s.Placed (s.localDate now - 1)
  · simp only [hplaced, true_and, forall_const, not_true, false_implies, and_true]
    constructor
    · exact fun hright d hback => hright.mpr ⟨d, hback.runs⟩
    · intro hcovered
      constructor
      · rintro (h | h)
        · exact ⟨_, h⟩
        · exact ⟨_, h⟩
      · rintro ⟨d, hruns⟩
        -- the date is one of the two, or the clock is set back with its window
        by_cases hyesterday : d = s.localDate now - 1
        · exact .inl (hyesterday ▸ hruns)
        by_cases htoday : d = s.localDate now
        · exact .inr (htoday ▸ hruns)
        · exact hcovered d ⟨hruns, by omega⟩
  · have hclosed : ¬ s.Runs now (s.localDate now - 1) := fun h => hplaced (Runs.placed s _ h)
    simp only [hplaced, hclosed, false_and, or_false, false_implies, not_false_eq_true,
      forall_const, true_and, false_iff, not_exists]

/-- A clock that is set back by an hour, from three to four hours behind, at one
    minute past a midnight. -/
def setBackZone : Zone where
  toLocal t := if t < 6 * day + 181 * minute then t - 180 * minute else t - 240 * minute
  toUtc w fold :=
    let early := w + 180 * minute
    let late := w + 240 * minute
    if fold then if 6 * day + 181 * minute ≤ late then late else early
    else if early < 6 * day + 181 * minute then early else late

theorem neZero_dayMinutes : NeZero 1440 := ⟨by decide⟩

theorem sunday_ne_nil : [Weekday.sunday] ≠ [] := by decide

attribute [local instance] neZero_dayMinutes in
def sundayMorning : UpdateSchedule where
  enabled := true
  timezone := setBackZone
  weekdays := [.sunday]
  windowStart := 0
  windowEnd := 240
  some_weekday := sunday_ne_nil
  boundaries_differ := by decide

theorem comesTo_midnight : ComesTo setBackZone (combine 6 0) (6 * day + 180 * minute) :=
  ⟨0, by decide, ⟨by decide, by decide⟩, nofun⟩

theorem comesTo_four : ComesTo setBackZone (combine 6 240) (6 * day + 480 * minute) :=
  ⟨0, by decide, ⟨by decide, by decide⟩, nofun⟩

/-- An hour after the clock was set back, it is Sunday again, and Sunday's window runs. -/
theorem isOpen_exact_sunday :
    sundayMorning.isOpen (6 * day + 300 * minute) = .ok true ↔
      ∃ d, sundayMorning.HeldBy (6 * day + 300 * minute) d := by
  refine (isOpen_exact sundayMorning rfl (6 * day + 300 * minute)).1.mpr ⟨fun _ d _ => .inr ?_, ?_⟩
  · exact ⟨by decide, ⟨_, by decide, comesTo_midnight⟩, ⟨_, by decide, comesTo_four⟩⟩
  · exact fun h => absurd (fun hsat => absurd hsat (by decide)) h

/-- One minute into the window the clock is set back to Saturday, and the window
    is found shut while it goes on. -/
theorem isOpen_overlooks :
    ¬ ∀ (s : UpdateSchedule) (now : Int), s.enabled = true →
      (s.isOpen now = .ok true ↔ ∃ d, s.HeldBy now d) := by
  intro h
  have hshut : sundayMorning.isOpen (6 * day + 181 * minute) = .ok false := by rfl
  have hheld : sundayMorning.HeldBy (6 * day + 181 * minute) 6 :=
    (heldBy_iff_runs sundayMorning 6 _).mpr
      ⟨by decide, ⟨_, by decide, comesTo_midnight⟩, ⟨_, by decide, comesTo_four⟩⟩
  have hopen := (h sundayMorning (6 * day + 181 * minute) rfl).mpr ⟨6, hheld⟩
  exact nomatch hshut.symm.trans hopen

/-! ### The next window -/

theorem mem_notEnded {s : UpdateSchedule} {now : Int} {dates : List Int} {ws : List ScheduleWindow}
    (h : s.notEnded now dates = .ok ws) (w : ScheduleWindow) :
    w ∈ ws ↔ ∃ d ∈ dates, s.windowForStartDate d = .ok (some w) ∧ now < w.stop := by
  induction dates generalizing ws with
  | nil =>
    obtain rfl := Except.ok.inj h
    simp
  | cons d others ih =>
    rw [notEnded] at h
    rcases bind_eq_ok h with ⟨found, hwin, h⟩
    rcases bind_eq_ok h with ⟨later, hthen, h⟩
    obtain rfl := Except.ok.inj h
    rw [List.mem_append, ih hthen, List.mem_filter, Option.mem_toList]
    simp only [List.mem_cons, or_and_right, exists_or, exists_eq_left, hwin,
      Except.ok.injEq, decide_eq_true_eq]

theorem earliest_spec (w : ScheduleWindow) (others : List ScheduleWindow) :
    earliest w others ∈ w :: others ∧ ∀ w' ∈ w :: others, (earliest w others).start ≤ w'.start := by
  induction others generalizing w with
  | nil => simp [earliest]
  | cons v others ih =>
    rw [earliest]
    by_cases hlt : v.start < w.start
    · rw [if_pos hlt]
      have hv := ih v
      refine ⟨List.mem_cons_of_mem _ hv.1, ?_⟩
      intro w' hw'
      rcases List.mem_cons.mp hw' with rfl | hw'
      · have hfst := hv.2 v List.mem_cons_self
        omega
      · exact hv.2 w' hw'
    · rw [if_neg hlt]
      have hw := ih w
      constructor
      · rcases List.mem_cons.mp hw.1 with h | h
        · rw [h]
          exact List.mem_cons_self
        · exact List.mem_cons_of_mem _ (List.mem_cons_of_mem _ h)
      · intro w' hw'
        have hfst := hw.2 w List.mem_cons_self
        rcases List.mem_cons.mp hw' with rfl | hw'
        · exact hfst
        · rcases List.mem_cons.mp hw' with rfl | hw'
          · omega
          · exact hw.2 w' (List.mem_cons_of_mem _ hw')

end UpdateSchedule

end PlexManager
