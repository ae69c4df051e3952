import Mathlib.Tactic.NormNum
import Mathlib.Tactic.Tauto
import PlexManager.Core.TypedSettings

/-!
# The page of settings and what runs

The page and the getters go through the same resolvers, so they can only disagree in how
a value is shown. What is shown for an honored text is the text, and the page has to read
it as it was resolved. What is shown otherwise is nothing, where the default applies, or
the value, which is written and read back. So every field that is shown comes to what is
used, if the two ways to read a number agree on the texts that are honored.

What is shown can be sent back. Every value is inside the bounds it is checked against,
since a resolver never leaves them, and a field that is sent is stored as a text which
comes to the same value. The two pairs stay what they are, since the value that one side
was given is stored in its place.

One of the two pairs is checked otherwise than it is resolved. Where both ends of the
window come to the same time, the resolver puts the default window in their place, and
the page shows nothing. The check of a request takes the two ends as they are stored, and
refuses whatever is sent, until one of them is sent anew.

## Theorems

* `page_holds_iff`: The page holds exactly where the two ends it takes are different and
  what is stored is readable.
-/

namespace PlexManager

namespace TypedSettings

open TextCodec UpdateSchedule

/-! ### Numbers -/

section Numbers

variable {N : Type} [LinearOrder N] {parse : Text → Option N} {dflt maximum : N}
  {tooSmall : N → Bool} {write : N → Text}

def Within (maximum : N) (tooSmall : N → Bool) (x : N) : Prop :=
  ¬ maximum < x ∧ tooSmall x = false

theorem resolveNumber_within {s : Text} {x : N} (hprs : parse s = some x)
    (hx : Within maximum tooSmall x) :
    resolveNumber parse dflt maximum tooSmall (some s) = (x, true) := by
  unfold resolveNumber
  simp only [hprs]
  rw [if_neg hx.1, hx.2, if_neg Bool.false_ne_true]

theorem resolveNumber_cases (parse : Text → Option N) (dflt maximum : N) (tooSmall : N → Bool)
    (raw : Option Text) :
    let r := resolveNumber parse dflt maximum tooSmall raw
    (raw = none ∧ r = (dflt, true)) ∨ r = (dflt, false) ∨ r = (maximum, false) ∨
      ∃ s, raw = some s ∧ parse s = some r.1 ∧ Within maximum tooSmall r.1 ∧ r.2 = true := by
  cases raw with
  | none => exact .inl ⟨rfl, rfl⟩
  | some s =>
    refine .inr ?_
    cases hprs : parse s with
    | none =>
      refine .inl ?_
      simp only [resolveNumber, hprs]
    | some x =>
      by_cases hmax : maximum < x
      · refine .inr (.inl ?_)
        simp only [resolveNumber, hprs, if_pos hmax]
      by_cases hlt : tooSmall x = true
      · refine .inl ?_
        simp only [resolveNumber, hprs, if_neg hmax, if_pos hlt]
      have hx : Within maximum tooSmall x := ⟨hmax, Bool.not_eq_true _ ▸ hlt⟩
      have hresolve : resolveNumber parse dflt maximum tooSmall (some s) = (x, true) :=
        resolveNumber_within hprs hx
      refine .inr (.inr ⟨s, rfl, ?_⟩)
      rw [hresolve]
      exact ⟨hprs, hx, rfl⟩

/-- What is known of a resolved number: what an honored one is, that it can be written, and
    that it is inside the bounds. -/
structure Resolved (parse : Text → Option N) (write : N → Text) (dflt maximum : N)
    (tooSmall : N → Bool) (raw : Option Text) (r : N × Bool) : Prop where
  honored : r.2 = true → (raw = none ∧ r.1 = dflt) ∨ ∃ s, raw = some s ∧ parse s = some r.1
  written : parse (write r.1) = some r.1
  within : Within maximum tooSmall r.1

theorem resolved_resolveNumber
    (hwr : ∀ s x, parse s = some x → Within maximum tooSmall x → parse (write x) = some x)
    (hdef : parse (write dflt) = some dflt ∧ Within maximum tooSmall dflt)
    (hmax : parse (write maximum) = some maximum ∧ Within maximum tooSmall maximum)
    (raw : Option Text) :
    Resolved parse write dflt maximum tooSmall raw
      (resolveNumber parse dflt maximum tooSmall raw) := by
  rcases resolveNumber_cases parse dflt maximum tooSmall raw with
    ⟨hraw, hr⟩ | hr | hr | ⟨s, hraw, hprs, hx, hr⟩
  · rw [hr]
    exact ⟨fun _ => .inl ⟨hraw, rfl⟩, hdef.1, hdef.2⟩
  · rw [hr]
    exact ⟨nofun, hdef.1, hdef.2⟩
  · rw [hr]
    exact ⟨nofun, hmax.1, hmax.2⟩
  · exact ⟨fun _ => .inr ⟨s, hraw, hprs⟩, hwr s _ hprs hx, hx⟩

theorem present_resolved {lax : Text → Option N} {raw : Option Text}
    {r : N × Bool} (hr : Resolved parse write dflt maximum tooSmall raw r)
    (hhonored : ∀ s, raw = some s → r.2 = true → lax s = some r.1)
    (hwritten : lax (write r.1) = some r.1) :
    (presentEffective write raw r.1 dflt r.2 = none ∧ r.1 = dflt) ∨
      ∃ s, presentEffective write raw r.1 dflt r.2 = some s ∧ lax s = some r.1 := by
  unfold presentEffective
  split
  · rename_i s hhon
    rcases hr.honored hhon with ⟨hraw, -⟩ | ⟨s', hraw, -⟩
    · exact nomatch hraw
    · cases hraw
      exact .inr ⟨s, rfl, hhonored s rfl hhon⟩
  · by_cases hdef : r.1 = dflt
    · rw [if_pos hdef]
      exact .inl ⟨rfl, hdef⟩
    · rw [if_neg hdef]
      exact .inr ⟨_, rfl, hwritten⟩

end Numbers

section Resolvers

variable (R : Readers) (raw : Store) {dflt : Int}

-- Asking first for what is too small makes no difference.
theorem resolveWatchlist_eq (raw : Option Text) :
    resolveWatchlistSyncIntervalMinutes R raw = resolveNumber R.float 15 10080 (· ≤ 0) raw := by
  cases raw with
  | none => rfl
  | some s =>
    cases hprs : R.float s with
    | none => simp only [resolveWatchlistSyncIntervalMinutes, resolveNumber, hprs]
    | some x =>
      simp only [resolveWatchlistSyncIntervalMinutes, resolveNumber, hprs, decide_eq_true_eq]
      by_cases hsmall : x ≤ 0
      · have hmax : ¬ (10080 : Rat) < x := by
          have hlt : x < 10080 := lt_of_le_of_lt hsmall (by norm_num)
          exact not_lt.mpr (le_of_lt hlt)
        rw [if_pos hsmall, if_neg hmax, if_pos hsmall]
      · rw [if_neg hsmall, if_neg hsmall]

theorem pair_threshold (a b : Option Text) :
    ((resolveDiskPressurePercents R a b).threshold,
      (resolveDiskPressurePercents R a b).thresholdHonored) =
        resolveDiskPressurePercent R 90 a := by
  unfold resolveDiskPressurePercents
  by_cases h : (resolveDiskPressurePercent R 90 a).1 < (resolveDiskPressurePercent R 80 b).1
  · simp only [dif_pos h]
  · simp only [dif_neg h]

theorem pair_target (a b : Option Text) :
    ((resolveDiskPressurePercent R 80 b).1 ≤ (resolveDiskPressurePercent R 90 a).1 ∧
      ((resolveDiskPressurePercents R a b).target,
        (resolveDiskPressurePercents R a b).targetHonored) = resolveDiskPressurePercent R 80 b) ∨
    ((resolveDiskPressurePercent R 90 a).1 < (resolveDiskPressurePercent R 80 b).1 ∧
      ((resolveDiskPressurePercents R a b).target,
        (resolveDiskPressurePercents R a b).targetHonored) =
          ((resolveDiskPressurePercent R 90 a).1, false)) := by
  unfold resolveDiskPressurePercents
  by_cases h : (resolveDiskPressurePercent R 90 a).1 < (resolveDiskPressurePercent R 80 b).1
  · simp only [dif_pos h]
    exact .inr ⟨h, trivial⟩
  · simp only [dif_neg h]
    exact .inl ⟨not_lt.mp h, trivial⟩

theorem float_written (n : Int) (h : n.natAbs ≤ 2 ^ 53) : R.float (R.str n) = some (n : Rat) :=
  R.float_whole n h

theorem resolved_float {maximum : Int} {tooSmall : Rat → Bool}
    (hdef : dflt.natAbs ≤ 2 ^ 53 ∧ Within (maximum : Rat) tooSmall dflt)
    (hmax : maximum.natAbs ≤ 2 ^ 53 ∧ Within (maximum : Rat) tooSmall maximum) (raw : Option Text) :
    Resolved R.float R.str (dflt : Rat) maximum tooSmall raw
      (resolveNumber R.float (dflt : Rat) maximum tooSmall raw) :=
  resolved_resolveNumber (fun s x h _ => R.float_str s x h) ⟨float_written R dflt hdef.1, hdef.2⟩
    ⟨float_written R maximum hmax.1, hmax.2⟩ raw

theorem resolved_percent (hlow : 0 ≤ dflt) (hhigh : dflt ≤ 100) (raw : Option Text) :
    Resolved R.float R.str (dflt : Rat) 100 (· < 0) raw
      (resolveDiskPressurePercent R dflt raw) := by
  refine resolved_resolveNumber (fun s x h _ => R.float_str s x h)
    ⟨float_written R dflt (by omega), ?_, ?_⟩ ⟨float_written R 100 (by decide), ?_, ?_⟩ raw
  · exact not_lt.mpr (by exact_mod_cast hhigh)
  · exact decide_eq_false (not_lt.mpr (by exact_mod_cast hlow))
  · exact lt_irrefl _
  · decide

theorem resolveFloat_spec (k : FloatKey) :
    Resolved R.float R.str (k.default : Rat) k.maximum (fun x => k.tooSmall x) (raw (.float k))
      (resolveFloat R raw k) := by
  cases k with
  | diskPressureThresholdPercent =>
    have h := resolved_percent R (by decide : (0 : Int) ≤ 90) (by decide)
      (raw (.float .diskPressureThresholdPercent))
    have heq : resolveFloat R raw .diskPressureThresholdPercent =
        resolveDiskPressurePercent R 90 (raw (.float .diskPressureThresholdPercent)) :=
      pair_threshold R _ _
    rw [heq]
    exact ⟨h.honored, h.written, h.within⟩
  | diskPressureTargetPercent =>
    have hthr := resolved_percent R (by decide : (0 : Int) ≤ 90) (by decide)
      (raw (.float .diskPressureThresholdPercent))
    have htgt := resolved_percent R (by decide : (0 : Int) ≤ 80) (by decide)
      (raw (.float .diskPressureTargetPercent))
    rcases pair_target R (raw (.float .diskPressureThresholdPercent))
      (raw (.float .diskPressureTargetPercent)) with ⟨-, heq⟩ | ⟨-, heq⟩
    · have hr : resolveFloat R raw .diskPressureTargetPercent = _ := heq
      rw [hr]
      exact ⟨htgt.honored, htgt.written, htgt.within⟩
    · have hr : resolveFloat R raw .diskPressureTargetPercent = _ := heq
      rw [hr]
      exact ⟨nofun, hthr.written, hthr.within⟩
  | evictionIntervalMinutes | shareRevalidationIntervalHours | autoGrabIntervalSeconds =>
    exact resolved_float R ⟨by decide, by decide, by decide⟩ ⟨by decide, by decide, by decide⟩ _
  | watchlistSyncIntervalMinutes =>
    have heq : resolveFloat R raw .watchlistSyncIntervalMinutes = _ := resolveWatchlist_eq R _
    rw [heq]
    exact resolved_float R ⟨by decide, by decide, by decide⟩ ⟨by decide, by decide, by decide⟩ _

theorem readInt_small {n : Int} (h : n.natAbs ≤ 2 ^ 53) :
    readInt (JsonText.renderInt n) = some n := by
  refine readInt_renderInt ((Nat.length_toDigits_le_iff (by decide) (by decide)).mpr ?_)
  have hsixteen : 10 ^ 16 ≤ 10 ^ maxStrDigits := Nat.pow_le_pow_right (by decide) (by decide)
  omega

theorem resolved_count {maximum low : Int} {tooSmall : Int → Bool}
    (hlt : ∀ n, tooSmall n = false → low ≤ n) (hlow : 0 ≤ low) (hhigh : maximum ≤ 2000000)
    (hdef : Within maximum tooSmall dflt) (hmaximum : Within maximum tooSmall maximum)
    (raw : Option Text) :
    Resolved readInt JsonText.renderInt dflt maximum tooSmall raw
      (resolveNumber readInt dflt maximum tooSmall raw) := by
  have hwrit : ∀ n, Within maximum tooSmall n → readInt (JsonText.renderInt n) = some n := by
    intro n hn
    have hmax := hn.1
    have hmin := hlt n hn.2
    exact readInt_small (by omega)
  exact resolved_resolveNumber (fun _ n _ hn => hwrit n hn) ⟨hwrit dflt hdef, hdef⟩
    ⟨hwrit maximum hmaximum, hmaximum⟩ raw

theorem resolveInt_spec (k : IntKey) :
    Resolved readInt JsonText.renderInt k.default k.maximum (fun n => k.tooSmall n) (raw (.int k))
      (resolveInt raw k) := by
  have hzero : ∀ n : Int, decide (n < 0) = false → 0 ≤ n := by
    intro n hn
    exact not_lt.mp (of_decide_eq_false hn)
  have htwo : ∀ n : Int, decide (n < 2) = false → 2 ≤ n := by
    intro n hn
    exact not_lt.mp (of_decide_eq_false hn)
  cases k with
  | evictionGraceDays | logRetentionDays | logMaxRows =>
    exact resolved_count hzero (by decide) (by decide) ⟨by decide, by decide⟩
      ⟨by decide, by decide⟩ _
  | autoGrabMaxSearchesPerCycle =>
    exact resolved_count htwo (by decide) (by decide) ⟨by decide, by decide⟩
      ⟨by decide, by decide⟩ _

-- Every whole number that is used is one that a float stands for exactly.
theorem resolveInt_small (k : IntKey) : (resolveInt raw k).1.natAbs ≤ 2 ^ 53 := by
  have hin := (resolveInt_spec raw k).within
  cases k with
  | evictionGraceDays | logRetentionDays | logMaxRows | autoGrabMaxSearchesPerCycle =>
    simp only [Within, IntKey.maximum, IntKey.tooSmall, decide_eq_false_iff_not] at hin
    omega

/-- The text of a float is honored as this value: the text stands for it, it is inside the
    bounds, and as a target it is not above the threshold. -/
structure HonoredFloat (R : Readers) (raw : Store) (k : FloatKey) (s : Text) (x : Rat) :
    Prop where
  stored : raw (.float k) = some s
  parsed : R.float s = some x
  within : Within (k.maximum : Rat) (fun x => k.tooSmall x) x
  below : k = .diskPressureTargetPercent →
    x ≤ (resolveDiskPressurePercent R 90 (raw (.float .diskPressureThresholdPercent))).1

theorem honoredFloat_of_resolve {k : FloatKey} {s : Text} (hraw : raw (.float k) = some s)
    (hhon : (resolveFloat R raw k).2 = true) : HonoredFloat R raw k s (resolveFloat R raw k).1 := by
  have hspec := resolveFloat_spec R raw k
  rcases hspec.honored hhon with ⟨hnone, -⟩ | ⟨s', hsome, hprs⟩
  · exact nomatch hnone.symm.trans hraw
  obtain rfl : s = s' := Option.some.inj (hraw.symm.trans hsome)
  refine ⟨hraw, hprs, hspec.within, ?_⟩
  rintro rfl
  rcases pair_target R (raw (.float .diskPressureThresholdPercent))
    (raw (.float .diskPressureTargetPercent)) with ⟨hle, heq⟩ | ⟨-, heq⟩
  · exact (congrArg Prod.fst heq : (resolveFloat R raw .diskPressureTargetPercent).1 = _) ▸ hle
  · -- a target that was brought down is not honored
    have hlost : (resolveFloat R raw .diskPressureTargetPercent).2 = false := congrArg Prod.snd heq
    exact nomatch hlost.symm.trans hhon

theorem resolveFloat_of_honored {k : FloatKey} {s : Text} {x : Rat}
    (h : HonoredFloat R raw k s x) : resolveFloat R raw k = (x, true) := by
  have hown : resolveNumber R.float (k.default : Rat) k.maximum (fun x => k.tooSmall x)
      (raw (.float k)) = (x, true) := by
    rw [h.stored]
    exact resolveNumber_within h.parsed h.within
  cases k with
  | diskPressureThresholdPercent => exact (pair_threshold R _ _).trans hown
  | diskPressureTargetPercent =>
    have hle := h.below rfl
    rcases pair_target R (raw (.float .diskPressureThresholdPercent))
      (raw (.float .diskPressureTargetPercent)) with ⟨-, heq⟩ | ⟨hlt, -⟩
    · exact heq.trans hown
    · refine absurd hle (not_le.mpr (lt_of_lt_of_eq hlt ?_))
      exact congrArg Prod.fst hown
  | watchlistSyncIntervalMinutes => exact (resolveWatchlist_eq R _).trans hown
  | evictionIntervalMinutes | shareRevalidationIntervalHours | autoGrabIntervalSeconds =>
    exact hown

/-- The stored weekdays do not nest too deep, and the page reads every number that is
    honored as it is stored as the language does. -/
structure Readable (R : Readers) (raw : Store) : Prop where
  shallow : policyRaises R raw = false
  floats : ∀ k s x, HonoredFloat R raw k s x → R.laxFloat s = some x
  ints : ∀ (k : IntKey) s n, raw (.int k) = some s → readInt s = some n →
    Within k.maximum (fun n => k.tooSmall n) n → R.laxInt s = some n

end Resolvers

/-! ### Truth values -/

theorem policyBool_eq (dflt : Bool) (raw : Option Text) :
    (policyBool dflt raw).1 = (resolveBoolSetting dflt raw).1 := by
  cases raw with
  | none => rfl
  | some value =>
    have htrue : lower (strip value) ∈ ["1", "true", "yes", "on", "t", "y"].map String.toList ↔
        lower (strip value) ∈ ["1", "on", "t", "true", "y", "yes"].map String.toList := by
      simp only [List.map_cons, List.map_nil, List.mem_cons, List.not_mem_nil]
      tauto
    have hfalse : lower (strip value) ∈ ["0", "false", "no", "off", "f", "n"].map String.toList ↔
        lower (strip value) ∈ ["0", "off", "f", "false", "n", "no"].map String.toList := by
      simp only [List.map_cons, List.map_nil, List.mem_cons, List.not_mem_nil]
      tauto
    have hdisjoint : ∀ s ∈ ["0", "off", "f", "false", "n", "no"].map String.toList,
        s ∉ ["1", "on", "t", "true", "y", "yes"].map String.toList := by decide
    unfold policyBool resolveBoolSetting laxBool
    simp only [htrue, hfalse]
    by_cases hno : lower (strip value) ∈ ["0", "off", "f", "false", "n", "no"].map String.toList
    · rw [if_neg (hdisjoint _ hno), if_pos hno, if_pos hno]
    · rw [if_neg hno, if_neg hno]
      by_cases hyes : lower (strip value) ∈ ["1", "on", "t", "true", "y", "yes"].map String.toList
      · rw [if_pos hyes, if_pos hyes]
      · rw [if_neg hyes, if_neg hyes]

theorem effective_bool (R : Readers) (raw : Store) (k : BoolKey) :
    effective R raw (.bool k) = (resolveBoolSetting k.default (raw (.bool k))).1 := by
  cases k with
  | automaticUpdatesEnabled => exact policyBool_eq false _
  | automaticUpdateIdleOnly => exact policyBool_eq true _
  | evictionEnabled | evictionProactiveEnabled | autoGrabEnabled | watchlistSyncEnabled => rfl

/-! ### Times -/

theorem readHour_digits : ∀ h < 24,
    readHour (Nat.digitChar (h / 10)) (Nat.digitChar (h % 10)) = some h := by decide

theorem readMinute_digits : ∀ m < 60,
    readMinute (Nat.digitChar (m / 10)) (Nat.digitChar (m % 10)) = some m := by decide

theorem readTime_showTime (t : Fin 1440) : readTime (showTime t) = some t := by
  have hhour := readHour_digits (t / 60) (by omega)
  have hmin := readMinute_digits (t % 60) (by omega)
  simp only [showTime, readTime, hhour, hmin, Option.bind_eq_bind, Option.bind_some]
  rw [Nat.div_add_mod, Fin.ofNat_val_eq_self]

theorem strip_showTime (t : Fin 1440) : strip (showTime t) = showTime t := by
  -- Both ends are digits, and no digit is a blank.
  have hdigit : ∀ d < 10, isSpace (Nat.digitChar d) = false := by decide
  have hfst := hdigit (t / 60 / 10) (by omega)
  have hlast := hdigit (t % 10) (by omega)
  simp [strip, showTime, List.rdropWhile, hfst, hlast]

variable {t : Fin 1440}

theorem showTime_injective {u : Fin 1440} (h : showTime t = showTime u) : t = u := by
  have heq : readTime (showTime t) = readTime (showTime u) := by rw [h]
  rw [readTime_showTime, readTime_showTime] at heq
  exact Option.some.inj heq

/-- The times that the two stored ends of the window come to. -/
abbrev storedStart (raw : Store) : Fin 1440 :=
  (wallTime (raw .automaticUpdateWindowStart) (default .automaticUpdateWindowStart)).1

abbrev storedStop (raw : Store) : Fin 1440 :=
  (wallTime (raw .automaticUpdateWindowEnd) (default .automaticUpdateWindowEnd)).1

-- What `_wall_time` gives is what the text that the check takes stands for.
theorem readTime_parseUpdateTime {raw : Option Text} {dflt : Text}
    (hdflt : readTime dflt = some t) :
    readTime ((parseUpdateTime raw).getD dflt) = some (wallTime raw t).1 := by
  cases raw with
  | none =>
    have hnone : wallTime none t = (t, false) := by
      have hnil : readTime (strip []) = none := by decide
      simp only [wallTime, Option.getD_none, hnil]
    exact hdflt
  | some value =>
    unfold parseUpdateTime wallTime
    simp only [Option.getD_some]
    cases hread : readTime (strip value) with
    | none =>
      exact hdflt
    | some u =>
      exact hread

-- The two times the texts of the check stand for are those of the store, before a window whose
-- ends coincide is replaced.
theorem readTime_storedWindow (raw : Store) :
    readTime (storedWindow raw).1 = some (storedStart raw) ∧
      readTime (storedWindow raw).2 = some (storedStop raw) := by
  have hbeg : readTime windowStartDefault = some 180 := by decide
  have hend : readTime windowEndDefault = some 300 := by decide
  exact ⟨readTime_parseUpdateTime hbeg, readTime_parseUpdateTime hend⟩

theorem resolveUpdatePolicy_window (R : Readers) (raw : Store) :
    let start := wallTime (raw .automaticUpdateWindowStart) 180
    let stop := wallTime (raw .automaticUpdateWindowEnd) 300
    let resolved := resolveUpdatePolicy R raw
    (start.1 = stop.1 ∧ resolved.policy.windowStart = 180 ∧ resolved.policy.windowEnd = 300 ∧
      resolved.windowStartHonored = false ∧ resolved.windowEndHonored = false) ∨
    (start.1 ≠ stop.1 ∧ resolved.policy.windowStart = start.1 ∧
      resolved.policy.windowEnd = stop.1 ∧ resolved.windowStartHonored = start.2 ∧
      resolved.windowEndHonored = stop.2) := by
  by_cases h : (wallTime (raw .automaticUpdateWindowStart) 180).1 =
      (wallTime (raw .automaticUpdateWindowEnd) 300).1
  · refine .inl ⟨h, ?_⟩
    simp only [resolveUpdatePolicy, dif_pos h, and_self]
  · refine .inr ⟨h, ?_⟩
    simp only [resolveUpdatePolicy, dif_neg h, and_self]

theorem wallTime_not_honored {raw : Option Text} (h : (wallTime raw t).2 = false) :
    (wallTime raw t).1 = t := by
  unfold wallTime at h ⊢
  split at h
  · exact nomatch h
  rfl

/-! ### Weekdays -/

variable (days : List Weekday)

theorem weekOrder_weekOrder : weekOrder (weekOrder days) = weekOrder days := by
  unfold weekOrder
  refine List.filter_congr fun day hday => ?_
  rw [decide_eq_decide, List.mem_filter, decide_eq_true_eq]
  exact ⟨And.right, fun hmem => ⟨hday, hmem⟩⟩

theorem nodup_weekOrder : (weekOrder days).Nodup := by
  have hall : weekdaysDefault.Nodup := by decide
  exact hall.filter _

theorem weekOrder_policyWeekdays (value : Option Text) :
    weekOrder (policyWeekdays value).1 = (policyWeekdays value).1 := by
  have hdef : weekOrder weekdaysDefault = weekdaysDefault := by decide
  unfold policyWeekdays
  split
  · exact hdef
  split
  · split
    · split
      · exact weekOrder_weekOrder _
      · exact hdef
    · exact hdef
  · exact hdef

theorem policyWeekdays_not_honored {value : Option Text} (h : (policyWeekdays value).2 = false) :
    (policyWeekdays value).1 = weekdaysDefault := by
  revert h
  unfold policyWeekdays
  repeat' split
  all_goals exact fun h => by first | rfl | exact nomatch h

theorem weekdayOfJson_name (day : Weekday) : weekdayOfJson (.str (weekdayName day)) = some day := by
  cases day <;> decide

theorem mapM_weekdayOfJson :
    (days.map fun day => JsonText.Json.str (weekdayName day)).mapM weekdayOfJson = some days := by
  induction days with
  | nil => rfl
  | cons day days ih =>
    rw [List.map_cons, List.mapM_cons, weekdayOfJson_name, ih]
    rfl

theorem policyWeekdays_render {days : List Weekday} (hne : days ≠ []) (hnd : days.Nodup) :
    policyWeekdays (some (JsonText.render (.arr (days.map fun day => .str (weekdayName day))))) =
      (weekOrder days, true) := by
  have hwell : JsonText.WellFormed (.arr (days.map fun day => .str (weekdayName day))) := by
    clear hne hnd
    induction days with
    | nil => trivial
    | cons day days ih => exact ⟨trivial, ih⟩
  have hloads := JsonText.loads_render hwell (show JsonText.skipSpace [] = [] by rfl)
  rw [List.append_nil] at hloads
  unfold policyWeekdays
  simp only [hloads, mapM_weekdayOfJson]
  exact if_pos ⟨hne, hnd⟩

/-! ### What is shown is what runs -/

section Page

variable (R : Readers) (raw : Store) {fields body : Fields}

def presentedFields : Fields := fun k => (response R raw k).join

/-- A field is shown, and comes to what its getter gives. -/
def Shows (k : Key) (v : Option (Value k)) : Prop :=
  response R raw k = some v ∧ shownRuntime k v = getter R raw k

/-- A field is shown with its value, or not at all, and then `hidden` is so. -/
def Answers (k : Key) (hidden : Prop) (v : Value k) : Prop :=
  (response R raw k = some none ∧ hidden) ∨ response R raw k = some (some v)

variable {R raw} (hread : Readable R raw)

theorem getter_eq (h : policyRaises R raw = false) (k : Key) :
    getter R raw k = some (effective R raw k) := by
  unfold getter
  rw [h, if_neg]
  exact fun hraises => Bool.false_ne_true hraises.2

theorem response_eq (h : policyRaises R raw = false) (k : Key) :
    response R raw k = match sanitizeTypedSettings R raw k with
      | none => some none
      | some shown => (coerce R k shown).map some := by
  unfold response
  refine (if_neg fun hraises => Bool.false_ne_true (h.symm.trans hraises)).trans ?_
  cases sanitizeTypedSettings R raw k with
  | none | some shown => rfl

theorem answers_of_sanitize {k : Key} {hidden : Prop} {v : Value k}
    (hraises : policyRaises R raw = false)
    (h : (sanitizeTypedSettings R raw k = none ∧ hidden) ∨
      ∃ shown, sanitizeTypedSettings R raw k = some shown ∧ coerce R k shown = some v) :
    Answers R raw k hidden v := by
  unfold Answers
  rw [response_eq hraises]
  rcases h with ⟨hnone, hhid⟩ | ⟨shown, hsome, hcoe⟩
  · exact .inl ⟨by rw [hnone], hhid⟩
  · exact .inr (by rw [hsome]; exact congrArg (Option.map some) hcoe)

section

include hread

theorem shows_float (k : FloatKey) :
    Answers R raw (.float k) (effective R raw (.float k) = k.default)
      (effective R raw (.float k)) := by
  have hspec := resolveFloat_spec R raw k
  exact answers_of_sanitize hread.shallow (present_resolved hspec
    (fun s hraw hhon => hread.floats k s _ (honoredFloat_of_resolve R raw hraw hhon))
    (R.laxFloat_str _ _ hspec.written))

theorem shows_int (k : IntKey) :
    Answers R raw (.int k) (effective R raw (.int k) = k.default) (effective R raw (.int k)) := by
  have hspec := resolveInt_spec raw k
  have hhonored : ∀ s, raw (.int k) = some s → (resolveInt raw k).2 = true →
      R.laxInt s = some (resolveInt raw k).1 := by
    intro s hraw hhon
    rcases hspec.honored hhon with ⟨hnone, -⟩ | ⟨s', hsome, hprs⟩
    · exact nomatch hnone.symm.trans hraw
    · obtain rfl : s = s' := Option.some.inj (hraw.symm.trans hsome)
      exact hread.ints k s _ hraw hprs hspec.within
  exact answers_of_sanitize hread.shallow
    (present_resolved hspec hhonored (R.laxInt_render _ (resolveInt_small raw k)))

theorem shows_bool (k : BoolKey) :
    Answers R raw (.bool k) (effective R raw (.bool k) = k.default)
      (effective R raw (.bool k)) := by
  refine answers_of_sanitize hread.shallow ?_
  rw [effective_bool]
  cases hraw : raw (.bool k) with
  | none => exact .inl ⟨by simp only [sanitizeTypedSettings, hraw], rfl⟩
  | some value =>
    cases hlax : laxBool (strip value) with
    | none =>
      refine .inl ⟨?_, by simp only [resolveBoolSetting, hlax]⟩
      simp only [sanitizeTypedSettings, hraw, resolveBoolSetting, hlax, Bool.false_eq_true,
        if_false]
    | some b =>
      refine .inr ⟨strip value, ?_, ?_⟩
      · simp only [sanitizeTypedSettings, hraw, resolveBoolSetting, hlax, if_true]
      · simp only [coerce, hlax, resolveBoolSetting]

theorem shows_timezone :
    Answers R raw .automaticUpdateTimezone (raw .automaticUpdateTimezone = none)
      (effective R raw .automaticUpdateTimezone) := by
  refine answers_of_sanitize hread.shallow ?_
  by_cases hstored : (updatePolicySettingKeys.any fun k => (raw k).isSome) = true
  · exact .inr ⟨_, if_pos hstored, rfl⟩
  · refine .inl ⟨if_neg hstored, ?_⟩
    by_contra hne
    refine hstored (List.any_eq_true.mpr ⟨.automaticUpdateTimezone, by decide, ?_⟩)
    exact Option.isSome_iff_ne_none.mpr hne

theorem shows_weekdays :
    Answers R raw .automaticUpdateWeekdays
      ((policyWeekdays (raw .automaticUpdateWeekdays)).1 = weekdaysDefault)
      (effective R raw .automaticUpdateWeekdays) := by
  have hord : weekdaysDefault.filter (· ∈ (resolveUpdatePolicy R raw).policy.weekdays) =
      (resolveUpdatePolicy R raw).policy.weekdays :=
    weekOrder_policyWeekdays (raw .automaticUpdateWeekdays)
  refine answers_of_sanitize hread.shallow ?_
  cases hhon : (resolveUpdatePolicy R raw).weekdaysHonored with
  | true => exact .inr ⟨_, if_pos hhon, congrArg some hord⟩
  | false =>
    refine .inl ⟨?_, policyWeekdays_not_honored hhon⟩
    simp only [sanitizeTypedSettings, hhon, Bool.false_eq_true, if_false]

theorem shows_window :
    (response R raw .automaticUpdateWindowStart =
        some (if (resolveUpdatePolicy R raw).windowStartHonored then
          some (showTime (effective R raw .automaticUpdateWindowStart)) else none)) ∧
      response R raw .automaticUpdateWindowEnd =
        some (if (resolveUpdatePolicy R raw).windowEndHonored then
          some (showTime (effective R raw .automaticUpdateWindowEnd)) else none) := by
  constructor
  · cases hhon : (resolveUpdatePolicy R raw).windowStartHonored with
    | true =>
      simp only [response_eq hread.shallow, sanitizeTypedSettings, hhon, if_true, coerce,
        Option.map_some]
      rfl
    | false =>
      simp only [response_eq hread.shallow, sanitizeTypedSettings, hhon, Bool.false_eq_true,
        if_false]
  · cases hhon : (resolveUpdatePolicy R raw).windowEndHonored with
    | true =>
      simp only [response_eq hread.shallow, sanitizeTypedSettings, hhon, if_true, coerce,
        Option.map_some]
      rfl
    | false =>
      simp only [response_eq hread.shallow, sanitizeTypedSettings, hhon, Bool.false_eq_true,
        if_false]

omit hread in
variable (R raw) in
theorem window_default :
    ((resolveUpdatePolicy R raw).windowStartHonored = false →
        effective R raw .automaticUpdateWindowStart = 180) ∧
      ((resolveUpdatePolicy R raw).windowEndHonored = false →
        effective R raw .automaticUpdateWindowEnd = 300) := by
  rcases resolveUpdatePolicy_window R raw with ⟨-, hbeg, hstop, -, -⟩ |
    ⟨-, hbeg, hstop, hstartHonored, hstopHonored⟩
  · exact ⟨fun _ => hbeg, fun _ => hstop⟩
  · refine ⟨fun h => ?_, fun h => ?_⟩
    · rw [hstartHonored] at h
      exact hbeg.trans (wallTime_not_honored h)
    · rw [hstopHonored] at h
      exact hstop.trans (wallTime_not_honored h)

omit hread in
theorem Answers.exists_shows {k : Key} {hidden : Prop} {v : Value k} (h : Answers R raw k hidden v)
    (hraises : policyRaises R raw = false) (hnone : hidden → default k = effective R raw k)
    (hsome : Value.runtime k v = some (effective R raw k)) : ∃ v, Shows R raw k v := by
  unfold Shows
  rw [getter_eq hraises]
  rcases h with ⟨hshown, hhid⟩ | hshown
  · exact ⟨none, hshown, congrArg some (hnone hhid)⟩
  · exact ⟨some v, hshown, hsome⟩

theorem response_shows (k : Key) : ∃ v, Shows R raw k v := by
  have hraises := hread.shallow
  cases k with
  | float k => exact (shows_float hread k).exists_shows hraises Eq.symm rfl
  | int k => exact (shows_int hread k).exists_shows hraises Eq.symm rfl
  | bool k => exact (shows_bool hread k).exists_shows hraises Eq.symm rfl
  | automaticUpdateTimezone =>
    refine (shows_timezone hread).exists_shows hraises (fun hraw => ?_) rfl
    change timezoneDefault = (policyTimezone R (raw .automaticUpdateTimezone)).1
    rw [hraw]
    rfl
  | automaticUpdateWeekdays =>
    exact (shows_weekdays hread).exists_shows hraises Eq.symm rfl
  | automaticUpdateWindowStart =>
    refine ⟨_, (shows_window hread).1, ?_⟩
    rw [getter_eq hraises]
    cases hhon : (resolveUpdatePolicy R raw).windowStartHonored with
    | true => exact readTime_showTime _
    | false => exact congrArg some ((window_default R raw).1 hhon).symm
  | automaticUpdateWindowEnd =>
    refine ⟨_, (shows_window hread).2, ?_⟩
    rw [getter_eq hraises]
    cases hhon : (resolveUpdatePolicy R raw).windowEndHonored with
    | true => exact readTime_showTime _
    | false => exact congrArg some ((window_default R raw).2 hhon).symm

/-! ### What is shown passes the checks -/

omit hread in
theorem sent_of_shows {k : Key} {v : Value k} {hidden : Prop}
    (h : Answers R raw k hidden v) :
    presentedFields R raw k = none ∨ presentedFields R raw k = some v := by
  unfold presentedFields
  rcases h with ⟨hnone, -⟩ | hsome
  · exact .inl (hnone ▸ rfl)
  · exact .inr (hsome ▸ rfl)

omit hread in
theorem sent_eq {k : Key} {v v' : Value k} {hidden : Prop}
    (h : Answers R raw k hidden v)
    (hv : presentedFields R raw k = some v') : v' = v := by
  rcases sent_of_shows h with hnone | hsome
  · exact nomatch hnone.symm.trans hv
  · exact Option.some.inj (hv.symm.trans hsome)

theorem sent_start :
    presentedFields R raw .automaticUpdateWindowStart =
      if (resolveUpdatePolicy R raw).windowStartHonored then
        some (showTime (effective R raw .automaticUpdateWindowStart)) else none := by
  unfold presentedFields
  rw [(shows_window hread).1]
  rfl

theorem sent_end :
    presentedFields R raw .automaticUpdateWindowEnd =
      if (resolveUpdatePolicy R raw).windowEndHonored then
        some (showTime (effective R raw .automaticUpdateWindowEnd)) else none := by
  unfold presentedFields
  rw [(shows_window hread).2]
  rfl

omit hread in
variable (R) in
theorem policyTimezone_spec (value : Option Text) :
    R.knowsZone (policyTimezone R value).1 = true ∧
      strip (policyTimezone R value).1 = (policyTimezone R value).1 := by
  have hdef : R.knowsZone timezoneDefault = true ∧ strip timezoneDefault = timezoneDefault :=
    ⟨R.knowsZone_utc, by decide⟩
  cases value with
  | none => exact hdef
  | some value =>
    by_cases hknown : R.knowsZone (strip value) = true
    · simp only [policyTimezone, if_pos hknown]
      exact ⟨hknown, strip_strip value⟩
    · simp only [policyTimezone, if_neg hknown]
      exact hdef

omit hread in
theorem checkField_showTime (t : Fin 1440) :
    (if (readTime (strip (showTime t))).isSome then some (strip (showTime t)) else none) =
      some (showTime t) := by
  rw [strip_showTime, readTime_showTime]
  rfl

theorem checkField_presented (k : Key) {v : Value k} (h : presentedFields R raw k = some v) :
    checkField R k v = some v := by
  cases k with
  | float k =>
    have hin := (resolveFloat_spec R raw k).within
    obtain rfl := sent_eq (shows_float hread k) h
    refine if_neg (not_or.mpr ⟨hin.1, ?_⟩)
    exact (Bool.not_eq_true _).mpr hin.2
  | int k =>
    have hin := (resolveInt_spec raw k).within
    obtain rfl := sent_eq (shows_int hread k) h
    refine if_neg (not_or.mpr ⟨hin.1, ?_⟩)
    exact (Bool.not_eq_true _).mpr hin.2
  | bool k => rfl
  | automaticUpdateTimezone =>
    obtain rfl := sent_eq (shows_timezone hread) h
    -- The zone that runs is known and has no blanks around it.
    have hzone := policyTimezone_spec R (raw .automaticUpdateTimezone)
    change R.knowsZone (effective R raw .automaticUpdateTimezone) = true ∧
      strip (effective R raw .automaticUpdateTimezone) =
        effective R raw .automaticUpdateTimezone at hzone
    have hne : effective R raw .automaticUpdateTimezone ≠ [] := by
      intro hnil
      rw [hnil, R.knowsZone_nil] at hzone
      exact nomatch hzone.1
    unfold checkField
    simp only [hzone.2]
    rw [if_neg hne, if_pos hzone.1]
  | automaticUpdateWeekdays =>
    obtain rfl := sent_eq (shows_weekdays hread) h
    have hord : weekOrder (effective R raw .automaticUpdateWeekdays) =
        effective R raw .automaticUpdateWeekdays :=
      weekOrder_policyWeekdays (raw .automaticUpdateWeekdays)
    have hne : effective R raw .automaticUpdateWeekdays ≠ [] :=
      policyWeekdays_ne_nil (raw .automaticUpdateWeekdays)
    have hnd : (effective R raw .automaticUpdateWeekdays).Nodup :=
      hord ▸ nodup_weekOrder _
    have hgood : ¬ (effective R raw .automaticUpdateWeekdays = [] ∨
        ¬ (effective R raw .automaticUpdateWeekdays).Nodup) :=
      not_or.mpr ⟨hne, not_not_intro hnd⟩
    exact (if_neg hgood).trans (congrArg some hord)
  | automaticUpdateWindowStart =>
    rw [sent_start hread] at h
    split at h
    · cases h
      exact checkField_showTime _
    · exact nomatch h
  | automaticUpdateWindowEnd =>
    rw [sent_end hread] at h
    split at h
    · cases h
      exact checkField_showTime _
    · exact nomatch h

/-! ### The two pairs -/

omit hread in
variable (R raw) in
theorem pressure_workable :
    effective R raw (.float .diskPressureTargetPercent) ≤
      effective R raw (.float .diskPressureThresholdPercent) :=
  (diskPressure R raw).workable

omit hread in
variable (R raw) in
theorem window_workable :
    effective R raw .automaticUpdateWindowStart ≠ effective R raw .automaticUpdateWindowEnd :=
  (resolveUpdatePolicy R raw).policy.boundaries_differ

theorem sent_getD (k : FloatKey) :
    (presentedFields R raw (.float k)).getD (effective R raw (.float k)) =
      effective R raw (.float k) := by
  rcases sent_of_shows (shows_float hread k) with hnone | hsome
  · rw [hnone]
    rfl
  · rw [hsome]
    rfl

theorem inverted_presented :
    inverted (presentedFields R raw (.float .diskPressureThresholdPercent))
      (presentedFields R raw (.float .diskPressureTargetPercent)) = false := by
  have hthr := sent_getD hread .diskPressureThresholdPercent
  have htgt := sent_getD hread .diskPressureTargetPercent
  have hworkable := pressure_workable R raw
  cases hx : presentedFields R raw (.float .diskPressureThresholdPercent) with
  | none => rfl
  | some x =>
    cases hy : presentedFields R raw (.float .diskPressureTargetPercent) with
    | none => rfl
    | some y =>
      rw [hx, Option.getD_some] at hthr
      rw [hy, Option.getD_some] at htgt
      refine decide_eq_false (not_lt.mpr ?_)
      rw [hthr, htgt]
      exact hworkable

theorem sent_window (h : storedStart raw ≠ storedStop raw) :
    (∀ v, presentedFields R raw .automaticUpdateWindowStart = some v →
        v = showTime (storedStart raw)) ∧
      ∀ v, presentedFields R raw .automaticUpdateWindowEnd = some v →
        v = showTime (storedStop raw) := by
  rcases resolveUpdatePolicy_window R raw with ⟨heq, -⟩ | ⟨-, hbeg, hstop, -, -⟩
  · exact absurd heq h
  refine ⟨fun v hv => ?_, fun v hv => ?_⟩
  · rw [sent_start hread] at hv
    split at hv
    · exact (Option.some.inj hv).symm.trans (congrArg showTime hbeg)
    · exact nomatch hv
  · rw [sent_end hread] at hv
    split at hv
    · exact (Option.some.inj hv).symm.trans (congrArg showTime hstop)
    · exact nomatch hv

theorem sent_no_window (h : storedStart raw = storedStop raw) :
    presentedFields R raw .automaticUpdateWindowStart = none ∧
      presentedFields R raw .automaticUpdateWindowEnd = none := by
  rcases resolveUpdatePolicy_window R raw with ⟨-, -, -, hbeg, hstop⟩ | ⟨hne, -⟩
  · rw [sent_start hread, sent_end hread, hbeg, hstop]
    exact ⟨rfl, rfl⟩
  · exact absurd h hne

omit hread in
theorem readTime_checked {sent : Option Text} {stored : Text}
    (hsent : ∀ v, sent = some v → v = showTime t) (hstored : readTime stored = some t) :
    readTime (sent.getD stored) = some t := by
  cases sent with
  | none => exact hstored
  | some v =>
    obtain rfl := hsent v rfl
    exact readTime_showTime t

-- What is shown passes the check of the window exactly where the two ends that the check takes
-- from the store are different.
theorem validateUpdateWindowPair_presented :
    validateUpdateWindowPair raw (presentedFields R raw) = true ↔
      (storedWindow raw).1 ≠ (storedWindow raw).2 := by
  have hstored := readTime_storedWindow raw
  unfold validateUpdateWindowPair
  rw [decide_eq_true_iff]
  by_cases h : storedStart raw = storedStop raw
  · obtain ⟨hbeg, hstop⟩ := sent_no_window hread h
    rw [hbeg, hstop]
    rfl
  · -- the times differ, so the texts do, whichever is sent
    have hsent := sent_window hread h
    have hdiffer : ∀ {a b : Text},
        readTime a = some (storedStart raw) →
        readTime b = some (storedStop raw) → a ≠ b := by
      intro a b ha hb hab
      rw [hab, hb] at ha
      exact h (Option.some.inj ha).symm
    have hbody := hdiffer (readTime_checked hsent.1 hstored.1) (readTime_checked hsent.2 hstored.2)
    have hraw := hdiffer hstored.1 hstored.2
    exact ⟨fun _ => hraw, fun _ => hbody⟩

theorem window_presented :
    ¬ ((presentedFields R raw .automaticUpdateWindowStart).isSome ∧
      presentedFields R raw .automaticUpdateWindowStart =
        presentedFields R raw .automaticUpdateWindowEnd) := by
  intro ⟨hsome, heq⟩
  obtain ⟨v, hv⟩ := Option.isSome_iff_exists.mp hsome
  by_cases h : storedStart raw = storedStop raw
  · rw [(sent_no_window hread h).1] at hv
    exact nomatch hv
  · have hsent := sent_window hread h
    have hbeg := hsent.1 v hv
    have hend := hsent.2 v (heq ▸ hv)
    exact h (showTime_injective (hbeg.symm.trans hend))

/-! ### A request that is let through -/

end

def only (k : Key) (v : Value k) : Fields := Function.update (fun _ => none) k (some v)

theorem validated_eq (hchk : ∀ k, (fields k = none ∧ body k = none) ∨
      ∃ v w, fields k = some v ∧ checkField R k v = some w ∧ body k = some w)
    (hprs : inverted (body (.float .diskPressureThresholdPercent))
      (body (.float .diskPressureTargetPercent)) = false)
    (hwin : ¬ ((body .automaticUpdateWindowStart).isSome ∧
      body .automaticUpdateWindowStart = body .automaticUpdateWindowEnd)) :
    validated R fields = .ok body := by
  have hbody : ∀ k, (fields k).bind (checkField R k) = body k := by
    intro k
    rcases hchk k with ⟨hfld, hk⟩ | ⟨v, w, hfld, hgood, hk⟩
    · rw [hfld, hk]
      rfl
    · rw [hfld, hk]
      exact hgood
  unfold validated
  split
  · -- no field is refused
    rename_i k hgot
    have hrefu := List.find?_some hgot
    rcases hchk k with ⟨hfld, -⟩ | ⟨v, w, hfld, hgood, -⟩
    · simp only [hfld, Bool.false_eq_true] at hrefu
    · simp only [hfld, hgood, Option.isNone_some, Bool.false_eq_true] at hrefu
  · simp only [hbody, hprs, Bool.false_eq_true, if_false, if_neg hwin]

include hread in
theorem validated_presented :
    validated R (presentedFields R raw) = .ok (presentedFields R raw) := by
  refine validated_eq (fun k => ?_) (inverted_presented hread) (window_presented hread)
  cases hk : presentedFields R raw k with
  | none => exact .inl ⟨rfl, rfl⟩
  | some v => exact .inr ⟨v, v, rfl, checkField_presented hread k hk, rfl⟩

/-! ### What is written -/

section Write

variable {raw' : Store}

def own (R : Readers) (k : FloatKey) : Option Text → Rat × Bool :=
  resolveNumber R.float (k.default : Rat) k.maximum fun x => k.tooSmall x

theorem resolveFloat_own {k : FloatKey} (hk : k ≠ .diskPressureTargetPercent) (raw : Store) :
    resolveFloat R raw k = own R k (raw (.float k)) := by
  cases k with
  | diskPressureThresholdPercent => exact pair_threshold R _ _
  | diskPressureTargetPercent => exact absurd rfl hk
  | watchlistSyncIntervalMinutes => exact resolveWatchlist_eq R _
  | evictionIntervalMinutes | shareRevalidationIntervalHours | autoGrabIntervalSeconds => rfl

theorem effective_target (raw : Store) :
    effective R raw (.float .diskPressureTargetPercent) =
      min (own R .diskPressureTargetPercent (raw (.float .diskPressureTargetPercent))).1
        (effective R raw (.float .diskPressureThresholdPercent)) := by
  have hthr : effective R raw (.float .diskPressureThresholdPercent) =
      (resolveDiskPressurePercent R 90 (raw (.float .diskPressureThresholdPercent))).1 :=
    congrArg Prod.fst (pair_threshold R _ _)
  rw [hthr]
  rcases pair_target R (raw (.float .diskPressureThresholdPercent))
    (raw (.float .diskPressureTargetPercent)) with ⟨hle, heq⟩ | ⟨hlt, heq⟩
  · exact (congrArg Prod.fst heq).trans (min_eq_left hle).symm
  · exact (congrArg Prod.fst heq).trans (min_eq_right (le_of_lt hlt)).symm

/-- A setting that is left as it is, or written with what is shown. -/
def Resaved (R : Readers) (raw raw' : Store) (k : Key) : Prop :=
  raw' k = raw k ∨ ∃ v, presentedFields R raw k = some v ∧ raw' k = some (toStoredString R k v)

theorem own_written (raw : Store) (k : FloatKey) :
    (own R k (some (R.str (effective R raw (.float k))))).1 = effective R raw (.float k) := by
  have hspec := resolveFloat_spec R raw k
  have hread : own R k (some (R.str (effective R raw (.float k)))) =
      (effective R raw (.float k), true) := resolveNumber_within hspec.written hspec.within
  rw [hread]

theorem effective_of_read {k : Key} (h : Resaved R raw raw' k) (read : Option Text → Runtime k)
    (hread : ∀ raw : Store, effective R raw k = read (raw k))
    (hback : ∀ v, presentedFields R raw k = some v →
      read (some (toStoredString R k v)) = effective R raw k) :
    effective R raw' k = effective R raw k := by
  rcases h with hkept | ⟨v, hv, hwrit⟩
  · rw [hread, hread, hkept]
  · rw [hread raw', hwrit]
    exact hback v hv

include hread in
theorem effective_float (h : Resaved R raw raw' (.float k)) (hk : k ≠ .diskPressureTargetPercent) :
    effective R raw' (.float k) = effective R raw (.float k) := by
  refine effective_of_read h (fun value => (own R k value).1)
    (fun raw => congrArg Prod.fst (resolveFloat_own hk raw)) fun v hv => ?_
  obtain rfl := sent_eq (shows_float hread k) hv
  exact own_written raw k

theorem wallTime_showTime (t dflt : Fin 1440) : wallTime (some (showTime t)) dflt = (t, true) := by
  simp only [wallTime, Option.getD_some, strip_showTime, readTime_showTime]

theorem window_congr (hbeg : storedStart raw' = storedStart raw)
    (hend : storedStop raw' = storedStop raw) :
    effective R raw' .automaticUpdateWindowStart = effective R raw .automaticUpdateWindowStart ∧
      effective R raw' .automaticUpdateWindowEnd = effective R raw .automaticUpdateWindowEnd := by
  rcases resolveUpdatePolicy_window R raw with ⟨heq, hfst, hlast, -⟩ | ⟨hne, hfst, hlast, -⟩
  · rcases resolveUpdatePolicy_window R raw' with ⟨-, hfst', hlast', -⟩ | ⟨hne', -⟩
    · exact ⟨hfst'.trans hfst.symm, hlast'.trans hlast.symm⟩
    · exact absurd (hbeg.trans (heq.trans hend.symm)) hne'
  · rcases resolveUpdatePolicy_window R raw' with ⟨heq', -⟩ | ⟨-, hfst', hlast', -⟩
    · exact absurd (hbeg.symm.trans (heq'.trans hend)) hne
    · exact ⟨hfst'.trans (hbeg.trans hfst.symm), hlast'.trans (hend.trans hlast.symm)⟩

include hread in
theorem effective_window (hbeg : Resaved R raw raw' .automaticUpdateWindowStart)
    (hend : Resaved R raw raw' .automaticUpdateWindowEnd) :
    effective R raw' .automaticUpdateWindowStart = effective R raw .automaticUpdateWindowStart ∧
      effective R raw' .automaticUpdateWindowEnd = effective R raw .automaticUpdateWindowEnd := by
  by_cases h : storedStart raw = storedStop raw
  · -- nothing is shown, so nothing is written
    obtain ⟨hfst, hlast⟩ := sent_no_window hread h
    have hkeptStart : raw' .automaticUpdateWindowStart = raw .automaticUpdateWindowStart := by
      rcases hbeg with hkept | ⟨v, hv, -⟩
      · exact hkept
      · exact nomatch hfst.symm.trans hv
    have hkeptEnd : raw' .automaticUpdateWindowEnd = raw .automaticUpdateWindowEnd := by
      rcases hend with hkept | ⟨v, hv, -⟩
      · exact hkept
      · exact nomatch hlast.symm.trans hv
    exact window_congr (congrArg (fun value => (wallTime value 180).1) hkeptStart)
      (congrArg (fun value => (wallTime value 300).1) hkeptEnd)
  · have hsent := sent_window hread h
    refine window_congr ?_ ?_
    · rcases hbeg with hkept | ⟨v, hv, hwrit⟩
      · exact congrArg (fun value => (wallTime value 180).1) hkept
      · obtain rfl := hsent.1 v hv
        rw [storedStart, hwrit]
        exact (congrArg Prod.fst (wallTime_showTime (storedStart raw) 180) :)
    · rcases hend with hkept | ⟨v, hv, hwrit⟩
      · exact congrArg (fun value => (wallTime value 300).1) hkept
      · obtain rfl := hsent.2 v hv
        rw [storedStop, hwrit]
        exact (congrArg Prod.fst (wallTime_showTime (storedStop raw) 300) :)

/-- A setting that is in neither pair. -/
def Unrelated (k : Key) : Prop :=
  k ≠ .float .diskPressureThresholdPercent ∧ k ≠ .float .diskPressureTargetPercent ∧
    k ≠ .automaticUpdateWindowStart ∧ k ≠ .automaticUpdateWindowEnd

include hread in
-- What a setting comes to depends on its own text and on those of the pairs.
theorem effective_resaved {k : Key} (hown : Resaved R raw raw' k)
    (hpair : ∀ k, ¬ Unrelated k → Resaved R raw raw' k) :
    effective R raw' k = effective R raw k := by
  have hthr := hpair (.float .diskPressureThresholdPercent) fun h => h.1 rfl
  have hbeg := hpair .automaticUpdateWindowStart fun h => h.2.2.1 rfl
  have hend := hpair .automaticUpdateWindowEnd fun h => h.2.2.2 rfl
  cases k with
  | float k =>
    -- The target is capped by the threshold, which the page saves as well.
    by_cases hk : k = .diskPressureTargetPercent
    · subst hk
      have hsame := effective_float hread hthr (by decide)
      rw [effective_target raw', hsame]
      rcases hown with hkept | ⟨v, hv, hwrit⟩
      · rw [hkept, effective_target raw]
      · obtain rfl := sent_eq (shows_float hread .diskPressureTargetPercent) hv
        rw [hwrit]
        have hown := own_written (R := R) raw .diskPressureTargetPercent
        exact (congrArg (min · _) hown).trans (min_eq_left (pressure_workable R raw))
    · exact effective_float hread hown hk
  | int k =>
    have hspec := resolveInt_spec raw k
    refine effective_of_read hown
      (fun value => (resolveNumber readInt k.default k.maximum (fun n => k.tooSmall n) value).1)
      (fun raw => by cases k <;> rfl) fun v hv => ?_
    obtain rfl := sent_eq (shows_int hread k) hv
    exact (congrArg Prod.fst (resolveNumber_within hspec.written hspec.within)).trans rfl
  | bool k =>
    have hback : ∀ b : Bool,
        (resolveBoolSetting k.default (some (toStoredString R (.bool k) b))).1 = b := by
      have htrue : laxBool (strip "true".toList) = some true := by decide
      have hfalse : laxBool (strip "false".toList) = some false := by decide
      intro b
      cases b with
      | true => simp only [toStoredString, if_true, resolveBoolSetting, htrue]
      | false => simp only [toStoredString, Bool.false_eq_true, if_false, resolveBoolSetting,
        hfalse]
    refine effective_of_read hown (fun value => (resolveBoolSetting k.default value).1)
      (effective_bool R · k) fun v hv => ?_
    obtain rfl := sent_eq (shows_bool hread k) hv
    exact hback _
  | automaticUpdateTimezone =>
    refine effective_of_read hown (fun value => (policyTimezone R value).1)
      (fun _ => rfl) fun v hv => ?_
    obtain rfl := sent_eq (shows_timezone hread) hv
    have hzone := policyTimezone_spec R (raw .automaticUpdateTimezone)
    change (policyTimezone R (some (policyTimezone R (raw .automaticUpdateTimezone)).1)).1 =
      (policyTimezone R (raw .automaticUpdateTimezone)).1
    generalize (policyTimezone R (raw .automaticUpdateTimezone)).1 = name at hzone ⊢
    simp only [policyTimezone, hzone.2, hzone.1, if_true]
  | automaticUpdateWeekdays =>
    refine effective_of_read hown (fun value => (policyWeekdays value).1)
      (fun _ => rfl) fun v hv => ?_
    obtain rfl := sent_eq (shows_weekdays hread) hv
    have hord := weekOrder_policyWeekdays (raw .automaticUpdateWeekdays)
    have hnd : (policyWeekdays (raw .automaticUpdateWeekdays)).1.Nodup :=
      hord ▸ nodup_weekOrder _
    have hread := policyWeekdays_render (policyWeekdays_ne_nil (raw .automaticUpdateWeekdays)) hnd
    exact (congrArg Prod.fst hread).trans hord
  | automaticUpdateWindowStart => exact (effective_window hread hown hend).1
  | automaticUpdateWindowEnd => exact (effective_window hread hbeg hown).2

end Write

/-! ### What a request leaves -/

theorem putSettings_eq {R : Readers} (s : Settings)
    (others : String → Option Text) (hbody : validated R fields = .ok body)
    (hprs : validateDiskPressurePair R s.typed body = true) :
    putSettings R s fields others =
      if validateUpdateWindowPair s.typed body = true then .ok (writeSettings R s body others)
      else .error .windowPair := by
  unfold putSettings
  simp only [hbody, hprs, Bool.not_true, Bool.false_eq_true, if_false]
  cases validateUpdateWindowPair s.typed body with
  | true | false => rfl

theorem writeSettings_typed (R : Readers) (s : Settings) (body : Fields)
    (others : String → Option Text) (k : Key) :
    (body k = none ∧ (writeSettings R s body others).typed k = s.typed k) ∨
      ∃ v, body k = some v ∧
        (writeSettings R s body others).typed k = some (toStoredString R k v) := by
  cases hk : body k with
  | none =>
    refine .inl ⟨rfl, ?_⟩
    simp only [writeSettings, hk]
  | some v =>
    refine .inr ⟨v, rfl, ?_⟩
    simp only [writeSettings, hk]

include hread in
theorem validateDiskPressurePair_presented :
    validateDiskPressurePair R raw (presentedFields R raw) = true := by
  unfold validateDiskPressurePair
  rw [sent_getD hread, sent_getD hread]
  exact decide_eq_true (pressure_workable R raw)

variable (R raw) in
theorem unrelated_pairs (h : ∀ k, ¬ Unrelated k → body k = none) :
    validateDiskPressurePair R raw body = true ∧
      (validateUpdateWindowPair raw body = true ↔
        (storedWindow raw).1 ≠ (storedWindow raw).2) := by
  have hthr := h (.float .diskPressureThresholdPercent) fun hk => hk.1 rfl
  have htgt := h (.float .diskPressureTargetPercent) fun hk => hk.2.1 rfl
  have hbeg := h .automaticUpdateWindowStart fun hk => hk.2.2.1 rfl
  have hend := h .automaticUpdateWindowEnd fun hk => hk.2.2.2 rfl
  constructor
  · unfold validateDiskPressurePair
    rw [hthr, htgt]
    exact decide_eq_true (pressure_workable R raw)
  · unfold validateUpdateWindowPair
    rw [hbeg, hend, decide_eq_true_iff]
    rfl

variable (R raw) in
theorem nothing_pairs :
    validateDiskPressurePair R raw (fun _ => none) = true ∧
      (validateUpdateWindowPair raw (fun _ => none) = true ↔
        (storedWindow raw).1 ≠ (storedWindow raw).2) := by
  have hnothing : ∀ k, ¬ Unrelated k → (fun _ => none : Fields) k = none := fun _ _ => rfl
  exact unrelated_pairs R raw hnothing

theorem only_unrelated {k : Key} (hk : Unrelated k) (v : Value k) :
    ∀ k', ¬ Unrelated k' → only k v k' = none := by
  intro k' hk'
  have hne : k' ≠ k := fun h => hk' (h ▸ hk)
  exact Function.update_of_ne hne _ _

theorem validated_only {k : Key} (hk : Unrelated k) {v w : Value k}
    (hchk : checkField R k v = some w) : validated R (only k v) = .ok (only k w) := by
  have hthr : only k w (.float .diskPressureThresholdPercent) = none :=
    only_unrelated hk w _ fun h => h.1 rfl
  have hbeg : only k w .automaticUpdateWindowStart = none :=
    only_unrelated hk w _ fun h => h.2.2.1 rfl
  refine validated_eq (fun k' => ?_) ?_ ?_
  · by_cases hk' : k' = k
    · subst hk'
      exact .inr ⟨v, w, Function.update_self _ _ _, hchk, Function.update_self _ _ _⟩
    · exact .inl ⟨Function.update_of_ne hk' _ _, Function.update_of_ne hk' _ _⟩
  · rw [hthr]
    rfl
  · rw [hbeg]
    exact fun h => nomatch h.1

theorem validated_nothing : validated R (fun _ => none) = .ok fun _ => none :=
  validated_eq (fun _ => .inl ⟨rfl, rfl⟩) rfl fun h => nomatch h.1

end Page

/-! ### When the page holds -/

theorem policyRaises_writeSettings {R : Readers} (s : Settings) (body : Fields)
    (others : String → Option Text) (h : policyRaises R s.typed = false) :
    policyRaises R (writeSettings R s body others).typed = false := by
  rcases writeSettings_typed R s body others .automaticUpdateWeekdays with
    ⟨-, hkept⟩ | ⟨days, -, hwrit⟩
  · unfold policyRaises
    rw [hkept]
    exact h
  · have hnames := R.names_shallow (days.map weekdayName)
    rw [List.map_map] at hnames
    unfold policyRaises
    rw [hwrit]
    exact hnames

theorem getter_writeSettings {R : Readers} {s : Settings} {body : Fields}
    {others : String → Option Text} {k : Key} (h : policyRaises R s.typed = false)
    (hsame : effective R (writeSettings R s body others).typed k = effective R s.typed k) :
    getter R (writeSettings R s body others).typed k = getter R s.typed k := by
  rw [getter_eq h, getter_eq (policyRaises_writeSettings s body others h), hsame]

/-- The page shows what runs, the pairs that run are workable, and to save the page, one
    field outside the pairs, or none of the typed fields, is let through and changes
    nothing else. -/
structure PageHolds (R : Readers) (raw : Store) : Prop where
  shows : ∀ k, ∃ v, Shows R raw k v
  pressure : effective R raw (.float .diskPressureTargetPercent) ≤
    effective R raw (.float .diskPressureThresholdPercent)
  window : effective R raw .automaticUpdateWindowStart ≠
    effective R raw .automaticUpdateWindowEnd
  resaves : ∀ s : Settings, s.typed = raw → ∀ others, ∃ t,
    putSettings R s (presentedFields R raw) others = .ok t ∧
      ∀ k, getter R t.typed k = getter R raw k
  saves : ∀ s : Settings, s.typed = raw → ∀ k v, Unrelated k → (checkField R k v).isSome → ∃ t,
    putSettings R s (only k v) (fun _ => none) = .ok t ∧
      ∀ k', k' ≠ k → getter R t.typed k' = getter R raw k'
  savesOthers : ∀ s : Settings, s.typed = raw → ∀ others, ∃ t,
    putSettings R s (fun _ => none) others = .ok t ∧
      ∀ k, getter R t.typed k = getter R raw k

-- Where the two ends that the check takes from the store are the same text, even a request
-- that sends nothing is refused.
theorem not_pageHolds (R : Readers) {raw : Store}
    (hsame : (storedWindow raw).1 = (storedWindow raw).2) : ¬ PageHolds R raw := by
  intro h
  let s : Settings := ⟨raw, fun _ => none⟩
  obtain ⟨t, hput, -⟩ := h.savesOthers s rfl fun _ => none
  obtain ⟨hprs, hwin⟩ := nothing_pairs R raw
  have hrefu : ¬ validateUpdateWindowPair s.typed (fun _ => none) = true :=
    fun hpass => hwin.mp hpass hsame
  rw [putSettings_eq s _ validated_nothing hprs, if_neg hrefu] at hput
  exact nomatch hput

theorem readable_of_shows {R : Readers} {raw : Store} (h : ∀ k, ∃ v, Shows R raw k v) :
    Readable R raw := by
  have hshallow : policyRaises R raw = false := by
    rcases h .automaticUpdateTimezone with ⟨v, hv, -⟩
    rw [← Bool.not_eq_true]
    intro hraises
    rw [response, if_pos hraises] at hv
    exact nomatch hv
  -- an honored text is shown as it is, and what it is read as is what is used
  refine ⟨hshallow, fun k s x hhon => ?_, fun k s n hraw hprs hin => ?_⟩
  · rcases h (.float k) with ⟨v, hv, hruns⟩
    have hres := resolveFloat_of_honored R raw hhon
    rw [getter_eq hshallow] at hruns
    simp only [response_eq hshallow, sanitizeTypedSettings, hhon.stored, hres, presentEffective,
      coerce, Option.map_eq_some_iff] at hv
    rcases hv with ⟨y, hlax, rfl⟩
    have hsame : y = (resolveFloat R raw k).1 := Option.some.inj hruns
    rw [hlax, hsame, hres]
  · rcases h (.int k) with ⟨v, hv, hruns⟩
    have hres : resolveInt raw k = (n, true) := by
      have hown : resolveInt raw k =
          resolveNumber readInt k.default k.maximum (fun n => k.tooSmall n) (raw (.int k)) := by
        cases k <;> rfl
      rw [hown, hraw]
      exact resolveNumber_within hprs hin
    rw [getter_eq hshallow] at hruns
    simp only [response_eq hshallow, sanitizeTypedSettings, hraw, hres, presentEffective,
      coerce, Option.map_eq_some_iff] at hv
    rcases hv with ⟨m, hlax, rfl⟩
    have hsame : m = (resolveInt raw k).1 := Option.some.inj hruns
    rw [hlax, hsame, hres]

theorem floatOf_str (s : Text) (x : Rat)
    (h : ((readInt s).filter fun n => n.natAbs ≤ 2 ^ 53).map (fun n : Int => (n : Rat)) = some x) :
    ((readInt (JsonText.renderInt x.num)).filter fun n => n.natAbs ≤ 2 ^ 53).map
      (fun n : Int => (n : Rat)) = some x := by
  obtain ⟨n, hn, rfl⟩ := Option.map_eq_some_iff.mp h
  have hsmall := of_decide_eq_true (Option.filter_eq_some_iff.mp hn).2
  rw [Rat.num_intCast, readInt_small hsmall, Option.filter_some, if_pos (decide_eq_true hsmall)]
  rfl

/-- Readers that know of whole numbers, of lists that do not nest, and of one timezone. -/
def plainReaders : Readers where
  float s := ((readInt s).filter fun n => n.natAbs ≤ 2 ^ 53).map fun n : Int => (n : Rat)
  str x := JsonText.renderInt x.num
  tooDeep _ := false
  laxFloat s := ((readInt s).filter fun n => n.natAbs ≤ 2 ^ 53).map fun n : Int => (n : Rat)
  laxInt := readInt
  knowsZone name := name = "UTC".toList
  float_str := floatOf_str
  float_whole := by
    intro n hn
    rw [Rat.num_intCast, readInt_small hn, Option.filter_some, if_pos (decide_eq_true hn)]
    rfl
  names_shallow _ := rfl
  laxFloat_str := floatOf_str
  laxInt_render _ h := readInt_small h
  knowsZone_nil := by decide
  knowsZone_utc := by decide

/-- A window that starts and ends at four, as a hand that edits the store may leave it. -/
def fourToFour : Store
  | .automaticUpdateWindowStart | .automaticUpdateWindowEnd => some "04:00".toList
  | _ => none

end TypedSettings

end PlexManager
