import PlexManager.Theory.UpdateWindow

/-!
# How far ahead the next window is looked for

`next_window` takes the earliest window of ten dates, from the day before to eight
days ahead, and holds that a selected weekday must be among them. It is, but the
window of a date can be missing: where the clock is set forward over the whole of it,
both of its boundaries are the same instant. With one weekday selected the next such
date can be the only one in reach, and then there is no next window at all, although
the week after has one.

This is worked out for clocks that change as with summer time: seldom, and by a few
hours. Then a window of one of the eight days ahead has not ended, windows start in
the order of their dates, and a window that runs since before yesterday is the one
other thing that can be missed: the clock is set back over midnight while it ends.

## Theorems

* `nextWindow_exact`: When the next window is the earliest of all.
* `nextWindow_exhausted`: A week in which there is none.
-/

namespace PlexManager

namespace UpdateSchedule

/-- A clock as it is with summer time. It is less than a day from universal time, and
    within twenty days it is changed once at most and by three hours at most. The
    library knows all instants that show a wall time. -/
structure Zone.DSTLike (zone : Zone) : Prop where
  offset : ∀ t, t - day < zone.toLocal t ∧ zone.toLocal t < t + day
  change : ∀ u, ∃ c before after, before ≤ after + 180 * minute ∧ after ≤ before + 180 * minute ∧
    ∀ t, u - 10 * day ≤ t → t ≤ u + 10 * day →
      zone.toLocal t = t + if t < c then before else after
  known : ∀ t, t = zone.toUtc (zone.toLocal t) false ∨ t = zone.toUtc (zone.toLocal t) true

/-- An instant as a boundary of a wall time: it shows the first minute from the wall
    time on that the clock ever shows, and is the first or the last to do so. -/
structure Resolved (zone : Zone) (boundary : Boundary) (naive t : Int) (k : Nat) : Prop where
  shown : zone.toLocal t = naive + k * minute
  first : ∀ j < k, ∀ u, zone.toLocal u ≠ naive + j * minute
  outer : ∀ u, zone.toLocal u = naive + k * minute →
    match boundary with
    | .start => t ≤ u
    | .stop => u ≤ t

variable (s : UpdateSchedule)

def NotEnded (now d : Int) : Prop :=
  ∃ w, s.windowForStartDate d = .ok (some w) ∧ now < w.stop

/-- The next window is found, and of all dates' windows that have not ended none
    starts earlier. -/
def FindsNext (now : Int) : Prop :=
  ∃ w, s.nextWindow now = .ok (some w) ∧
    (∃ d, s.windowForStartDate d = .ok (some w)) ∧ now < w.stop ∧
    ∀ d w', s.windowForStartDate d = .ok (some w') → now < w'.stop → w.start ≤ w'.start

/-- Yesterday's or today's window still runs, or one of the next eight days is
    selected and its window is not skipped by the clock. No window runs since the day
    before yesterday. -/
def InReach (now : Int) : Prop :=
  ¬ s.NotEnded now (s.localDate now - 2) ∧
    (s.NotEnded now (s.localDate now - 1) ∨ s.NotEnded now (s.localDate now) ∨
      ∃ d, s.localDate now < d ∧ d ≤ s.localDate now + 8 ∧ weekdayOf d ∈ s.weekdays ∧
        s.windowForStartDate d ≠ .ok none)

/-! ### Resolving -/

variable {zone : Zone} {s : UpdateSchedule} {d : Int} {w : ScheduleWindow}

theorem mem_wallCandidates_iff (hzone : zone.DSTLike) (naive t : Int) :
    t ∈ wallCandidates naive zone ↔ zone.toLocal t = naive := by
  rw [mem_wallCandidates, Shows, and_iff_left_of_imp]
  rintro rfl
  exact hzone.known t

section

variable (hzone : zone.DSTLike)
include hzone

theorem resolveFrom_ok (boundary : Boundary) (probes n : Nat) (naive : Int)
    (hshow : ∃ u, zone.toLocal u = naive + n * minute) (hn : n < probes) :
    ∃ t k, resolveFrom zone boundary probes naive = .ok t ∧ k ≤ n ∧
      Resolved zone boundary naive t k := by
  induction probes generalizing naive n with
  | zero => exact absurd hn (by omega)
  | succ probes ih =>
    rw [resolveFrom]
    cases hcands : wallCandidates naive zone with
    | nil =>
      have hnone : ∀ u, zone.toLocal u ≠ naive := fun u hu => by
        have hu := (mem_wallCandidates_iff hzone naive u).mpr hu
        rw [hcands] at hu
        cases hu
      cases n with
      | zero =>
        rcases hshow with ⟨u, hu⟩
        exact absurd (hu.trans (by simp)) (hnone u)
      | succ n =>
        have hnext : ∀ j : Nat, naive + minute + j * minute =
            naive + (j + 1 : Nat) * minute := by
          simp only [minute]
          omega
        rcases ih n (naive + minute) (by rw [hnext]; exact hshow) (by omega) with
          ⟨t, k, hok, hk, hres⟩
        refine ⟨t, k + 1, hok, by omega, (hnext k) ▸ hres.shown, ?_, (hnext k) ▸ hres.outer⟩
        intro j hj u hu
        cases j with
        | zero => exact hnone u (hu.trans (by simp))
        | succ j => exact hres.first j (by omega) u (hu.trans (hnext j).symm)
    | cons c others =>
      have hmem : ∀ u, u ∈ c :: others ↔ zone.toLocal u = naive := fun u => by
        rw [← hcands]
        exact mem_wallCandidates_iff hzone naive u
      have hzero : naive + (0 : Nat) * minute = naive := by simp
      refine ⟨boundary.pick c others, 0, rfl, by omega, ?_, by omega, ?_⟩
      · exact ((hmem _).mp (boundary.pick_mem c others)).trans hzero.symm
      · intro u hu
        have hu := (hmem u).mpr (hu.trans hzero)
        cases boundary with
        | start => exact foldl_min_le c others u hu
        | stop => exact le_foldl_max c others u hu

-- A wall time is at most three hours before one that is shown.
theorem shown_near (naive : Int) :
    ∃ n : Nat, n ≤ 180 ∧ ∃ u, zone.toLocal u = naive + n * minute := by
  rcases hzone.change naive with ⟨c, before, after, hfall, hjump, hloc⟩
  have hhere := hloc naive (by simp only [day]; omega) (by simp only [day]; omega)
  have hoff := hzone.offset naive
  simp only [day, minute] at hfall hjump hloc hoff ⊢
  by_cases hbef : naive - before < c
  · refine ⟨0, by omega, naive - before, ?_⟩
    have hnext := hloc (naive - before) (by split at hhere <;> omega) (by split at hhere <;> omega)
    omega
  -- The first minute after the change is shown if this one is not.
  let n := ((c - (naive - after)) + 59999999) / 60000000
  by_cases haft : c ≤ naive - after
  · refine ⟨0, by omega, naive - after, ?_⟩
    have hnext := hloc (naive - after) (by split at hhere <;> omega) (by split at hhere <;> omega)
    omega
  · have hn : n = ((c - (naive - after)) + 59999999) / 60000000 := rfl
    refine ⟨n.toNat, by omega, naive + n * 60000000 - after, ?_⟩
    have hnext := hloc (naive + n * 60000000 - after) (by split at hhere <;> omega)
      (by split at hhere <;> omega)
    omega

theorem resolveWallTime_ok (boundary : Boundary) (naive : Int) :
    ∃ t k, resolveWallTime naive zone boundary = .ok t ∧ k ≤ 180 ∧
      Resolved zone boundary naive t k := by
  rcases shown_near hzone naive with ⟨n, hn, hshow⟩
  rcases resolveFrom_ok hzone boundary (48 * 60 + 1) n naive hshow (by omega) with
    ⟨t, k, hok, hk, hres⟩
  exact ⟨t, k, hok, by omega, hres⟩

theorem resolved_of_ok {boundary : Boundary} {naive t : Int}
    (h : resolveWallTime naive zone boundary = .ok t) :
    ∃ k ≤ 180, Resolved zone boundary naive t k := by
  rcases resolveWallTime_ok hzone boundary naive with ⟨u, k, hok, hk, hres⟩
  obtain rfl : t = u := Except.ok.inj (h.symm.trans hok)
  exact ⟨k, hk, hres⟩

/-! ### The order of the windows -/

-- A wall time that is half a day later is a later instant.
theorem lt_of_resolved {b b' : Boundary} {naive naive' t t' : Int} {k k' : Nat}
    (h : Resolved zone b naive t k) (h' : Resolved zone b' naive' t' k') (hk : k ≤ 180)
    (hnext : naive + 720 * minute ≤ naive') : t < t' := by
  refine Int.not_le.mp fun hle => ?_
  have hoff := hzone.offset t
  have hoff' := hzone.offset t'
  have hshow := h.shown
  have hshow' := h'.shown
  rcases hzone.change t with ⟨c, before, after, hfall, hjump, hloc⟩
  simp only [day, minute] at *
  -- Were it not, the two would be days apart at most, with one change between.
  have ht := hloc t (by omega) (by omega)
  have ht' := hloc t' (by omega) (by omega)
  split at ht <;> split at ht' <;> omega

end

section

variable (hzone : s.timezone.DSTLike)
include hzone

theorem start_lt_of_lt {d' : Int} {w' : ScheduleWindow} (h : s.windowForStartDate d = .ok (some w))
    (h' : s.windowForStartDate d' = .ok (some w')) (hlt : d < d') : w.start < w'.start := by
  rcases resolved_of_ok hzone (windowForStartDate_eq_some h).1 with ⟨k, hk, hres⟩
  rcases resolved_of_ok hzone (windowForStartDate_eq_some h').1 with ⟨k', -, hres'⟩
  refine lt_of_resolved hzone hres hres' hk ?_
  simp only [combine, day, minute]
  omega

theorem not_notEnded_of_old {now : Int} (hold : d < s.localDate now - 2) : ¬ s.NotEnded now d := by
  rintro ⟨w, hw, hstop⟩
  rcases resolved_of_ok hzone (windowForStartDate_eq_some hw).2.1 with ⟨k, hk, hres⟩
  have hdate := localDate_bounds s now
  have hend := endDate_bounds s d
  have hbnd := combine_bounds (s.endDate d) s.windowEnd
  have hoff := hzone.offset now
  have hoff' := hzone.offset w.stop
  have hshow := hres.shown
  rcases hzone.change now with ⟨c, before, after, hfall, hjump, hloc⟩
  simp only [day, minute] at *
  have ht := hloc now (by omega) (by omega)
  have ht' := hloc w.stop (by omega) (by omega)
  split at ht <;> split at ht' <;> omega

-- A window of a day ahead has not ended: the clock shows the time it ends at, or shows it once
-- more.
theorem lt_stop_of_ahead {now : Int}
    (hw : s.windowForStartDate d = .ok (some w)) (hahead : s.localDate now < d) : now < w.stop := by
  refine Int.not_le.mp fun hle => ?_
  rcases resolved_of_ok hzone (windowForStartDate_eq_some hw).2.1 with ⟨k, hk, hres⟩
  have hdate := localDate_bounds s now
  have hend := endDate_bounds s d
  have hbnd := combine_bounds (s.endDate d) s.windowEnd
  have hoff := hzone.offset now
  have hoff' := hzone.offset w.stop
  have hshow := hres.shown
  rcases hzone.change now with ⟨c, before, after, hfall, hjump, hloc⟩
  have hagain := hres.outer (s.timezone.toLocal w.stop - after)
  simp only [day, minute] at *
  have ht := hloc now (by omega) (by omega)
  have ht' := hloc w.stop (by omega) (by omega)
  have hnext := hloc (s.timezone.toLocal w.stop - after)
  split at ht
  · split at ht' <;> omega
  · split at ht'
    · -- The clock was set back in between, and comes by the same time again.
      omega
    · omega

/-! ### The next window -/

theorem windowForStartDate_ok (d : Int) : ∃ found, s.windowForStartDate d = .ok found := by
  rcases resolveWallTime_ok hzone .start (combine d s.windowStart) with ⟨start, -, hbeg, -⟩
  rcases resolveWallTime_ok hzone .stop (combine (s.endDate d) s.windowEnd) with
    ⟨stop, -, hstop, -⟩
  dsimp only [windowForStartDate]
  split
  · exact ⟨_, rfl⟩
  · rw [hbeg, hstop]
    exact ⟨_, rfl⟩

theorem notEnded_ok (now : Int) (dates : List Int) : ∃ ws, s.notEnded now dates = .ok ws := by
  induction dates with
  | nil => exact ⟨[], rfl⟩
  | cons d others ih =>
    rcases windowForStartDate_ok hzone d with ⟨found, hgot⟩
    rcases ih with ⟨later, hnext⟩
    rw [notEnded, hgot, hnext]
    exact ⟨_, rfl⟩

-- One of the ten dates is in reach exactly where one of their windows has not ended.
theorem probed_iff (now : Int) :
    (∃ k ∈ horizon, s.NotEnded now (s.localDate now + k)) ↔
      s.NotEnded now (s.localDate now - 1) ∨ s.NotEnded now (s.localDate now) ∨
        ∃ d, s.localDate now < d ∧ d ≤ s.localDate now + 8 ∧ weekdayOf d ∈ s.weekdays ∧
          s.windowForStartDate d ≠ .ok none := by
  have hhor : ∀ k, k ∈ horizon ↔ -1 ≤ k ∧ k ≤ 8 := fun k => by
    simp only [horizon, List.mem_cons, List.not_mem_nil, or_false]
    omega
  constructor
  · rintro ⟨k, hk, w, hw, hstop⟩
    rw [hhor] at hk
    by_cases hahead : 0 < k
    · have hsel : weekdayOf (s.localDate now + k) ∈ s.weekdays := by
        refine Classical.byContradiction fun hnot => ?_
        rw [show s.windowForStartDate (s.localDate now + k) = .ok none by
          dsimp only [windowForStartDate]
          rw [if_pos hnot]] at hw
        exact nomatch hw
      exact .inr (.inr ⟨_, by omega, by omega, hsel, by rw [hw]; simp⟩)
    · by_cases hzero : k = 0
      · rw [hzero, Int.add_zero] at hw
        exact .inr (.inl ⟨w, hw, hstop⟩)
      · rw [show s.localDate now + k = s.localDate now - 1 by omega] at hw
        exact .inl ⟨w, hw, hstop⟩
  · rintro (h | h | ⟨d, hlo, hhi, -, hreal⟩)
    · exact ⟨-1, (hhor _).mpr (by omega), h⟩
    · exact ⟨0, (hhor _).mpr (by omega), by rwa [Int.add_zero]⟩
    · refine ⟨d - s.localDate now, (hhor _).mpr (by omega), ?_⟩
      rw [show s.localDate now + (d - s.localDate now) = d by omega]
      rcases windowForStartDate_ok hzone d with ⟨found, hgot⟩
      cases found with
      | none => exact absurd hgot hreal
      | some w => exact ⟨w, hgot, lt_stop_of_ahead hzone hgot hlo⟩

end

/-- On a clock with summer time, the next window is found and is the earliest of all
    dates' windows exactly where it is in reach. -/
theorem nextWindow_exact (s : UpdateSchedule) (hzone : s.timezone.DSTLike)
    (henabled : s.enabled = true) (now : Int) : s.FindsNext now ↔ s.InReach now := by
  rcases notEnded_ok hzone now (horizon.map (s.localDate now + ·)) with ⟨ws, hws⟩
  have hmem := mem_notEnded hws
  simp only [List.mem_map] at hmem
  have hnext : s.nextWindow now = .ok (ws.head?.map fun w => earliest w ws.tail) := by
    simp only [nextWindow, henabled, hws, Bool.not_true, Bool.false_eq_true, if_false]
    cases ws <;> rfl
  rw [FindsNext, InReach, ← probed_iff hzone now, hnext]
  constructor
  · rintro ⟨w, hgot, -, -, hleast⟩
    cases ws with
    | nil => exact nomatch hgot
    | cons v others =>
      obtain rfl : earliest v others = w := Option.some.inj (Except.ok.inj hgot)
      rcases (hmem _).mp (earliest_spec v others).1 with ⟨_, ⟨k, hk, rfl⟩, hwin, hstop⟩
      refine ⟨?_, k, hk, _, hwin, hstop⟩
      -- The window from before yesterday would start earlier.
      rintro ⟨w', hw', hstop'⟩
      have hle := hleast _ w' hw' hstop'
      have hreach : -1 ≤ k := by
        simp only [horizon, List.mem_cons, List.not_mem_nil, or_false] at hk
        omega
      have hlt := start_lt_of_lt hzone hw' hwin (by omega)
      omega
  · rintro ⟨hold, k, hk, w, hwin, hstop⟩
    have hw : w ∈ ws := (hmem w).mpr ⟨_, ⟨k, hk, rfl⟩, hwin, hstop⟩
    cases ws with
    | nil => exact nomatch hw
    | cons v others =>
      have hspec := earliest_spec v others
      rcases (hmem _).mp hspec.1 with ⟨_, ⟨k', hk', rfl⟩, hwin', hstop'⟩
      refine ⟨earliest v others, rfl, ⟨_, hwin'⟩, hstop', ?_⟩
      intro d w' hw' hlate
      by_cases hfar : s.localDate now + 8 < d
      · have hreach : k' ≤ 8 := by
          simp only [horizon, List.mem_cons, List.not_mem_nil, or_false] at hk'
          omega
        have hlt := start_lt_of_lt hzone hwin' hw' (by omega)
        omega
      · by_cases hpast : d < s.localDate now - 1
        · by_cases hsince : d = s.localDate now - 2
          · exact absurd ⟨w', hsince ▸ hw', hlate⟩ hold
          · exact absurd ⟨w', hw', hlate⟩ (not_notEnded_of_old hzone (by omega))
        · refine hspec.2 w' ((hmem w').mpr ⟨d, ⟨d - s.localDate now, ?_, by omega⟩, hw', hlate⟩)
          simp only [horizon, List.mem_cons, List.not_mem_nil, or_false]
          omega

/-- A clock that is set forward by an hour at two o'clock on a Sunday. -/
def springZone : Zone where
  toLocal t := if t < 13 * day + 120 * minute then t else t + 60 * minute
  toUtc w _ := if w < 13 * day + 120 * minute then w else w - 60 * minute

theorem springZone_dstLike : springZone.DSTLike where
  offset t := by
    by_cases h : t < 13 * day + 120 * minute
    · have hshow : springZone.toLocal t = t := if_pos h
      simp only [hshow, day]
      omega
    · have hshow : springZone.toLocal t = t + 60 * minute := if_neg h
      simp only [hshow, day, minute]
      omega
  change u := by
    refine ⟨13 * day + 120 * minute, 0, 60 * minute, by decide, by decide, fun t _ _ => ?_⟩
    simp only [springZone]
    split <;> omega
  known t := by
    by_cases h : t < 13 * day + 120 * minute
    · simp only [springZone, if_pos h, true_or]
    have hnext : ¬ t + 60 * minute < 13 * day + 120 * minute := by
      simp only [minute] at h ⊢
      omega
    simp only [springZone, if_neg h, if_neg hnext]
    omega

attribute [local instance] neZero_dayMinutes in
def shortSunday : UpdateSchedule where
  enabled := true
  timezone := springZone
  weekdays := [.sunday]
  windowStart := 130
  windowEnd := 160
  some_weekday := sunday_ne_nil
  boundaries_differ := by decide

/-- On the Monday before, there is no next window. -/
theorem nextWindow_exhausted :
    ¬ ∀ (s : UpdateSchedule), s.timezone.DSTLike → s.enabled = true → ∀ now, s.FindsNext now := by
  intro h
  rcases h shortSunday springZone_dstLike rfl (7 * day) with ⟨w, hgot, -⟩
  have hnone : shortSunday.nextWindow (7 * day) = .ok none := by rfl
  exact nomatch hnone.symm.trans hgot

theorem nextWindow_exact_sunday : shortSunday.FindsNext (7 * day) ↔ shortSunday.InReach (7 * day) :=
  nextWindow_exact shortSunday springZone_dstLike rfl (7 * day)

end UpdateSchedule

end PlexManager
