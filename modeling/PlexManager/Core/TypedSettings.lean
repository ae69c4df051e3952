import Mathlib.Data.Rat.Init
import Mathlib.Algebra.Order.Ring.Unbundled.Rat
import PlexManager.Core.UpdateSchedule
import PlexManager.Lib.Numeral

/-!
# Typed settings

Settings are stored as texts, and some of them stand for something else: a number, a
truth value, a timezone, a list of weekdays, a time of day. What is stored may be
anything. Whoever needs a value resolves the text. What is too large comes down to the
largest value there is, and everything else that is no good becomes the default. Two
pairs of settings are resolved together: the used space that starts a sweep and the one
that ends it, and the two ends of the window for updates.

The page of settings shows what a text is resolved to. It shows the text itself where it
is honored, nothing where the default applies, and the value otherwise. What the page
sends back is checked field by field. The two pairs are then checked once more with what
is stored for a side that is not sent.

A float is a rational number, and so is what a text is read as. Which texts are floats and
how a float is written is taken from the language, and what is read leniently from the
library that checks the page. So is which texts of JSON nest too deep for the reader: what
is raised then is caught by nobody. A set of weekdays is kept in the order of the week.
What only reports is left out.
-/

namespace PlexManager

namespace TypedSettings

open TextCodec UpdateSchedule

/-- What is taken from the language and from the library that checks the page: which
    texts are finite floats and how one is written, for which texts `json.loads` raises
    `RecursionError`, what is read leniently as a number, and which timezones there are.
    The library reads the numbers that the language writes. What it makes of any other
    text is its own affair. -/
structure Readers where
  float : Text → Option Rat
  str : Rat → Text
  tooDeep : Text → Bool
  laxFloat : Text → Option Rat
  laxInt : Text → Option Int
  knowsZone : Text → Bool
  float_str : ∀ s x, float s = some x → float (str x) = some x
  float_whole : ∀ n : Int, n.natAbs ≤ 2 ^ 53 → float (str n) = some n
  names_shallow : ∀ names : List String,
    tooDeep (JsonText.render (.arr (names.map .str))) = false
  laxFloat_str : ∀ s x, float s = some x → laxFloat (str x) = some x
  laxInt_render : ∀ n : Int, n.natAbs ≤ 2 ^ 53 → laxInt (JsonText.renderInt n) = some n
  knowsZone_nil : knowsZone [] = false
  knowsZone_utc : knowsZone "UTC".toList = true

/-! ### The settings -/

inductive FloatKey where
  | diskPressureThresholdPercent
  | diskPressureTargetPercent
  | evictionIntervalMinutes
  | watchlistSyncIntervalMinutes
  | shareRevalidationIntervalHours
  | autoGrabIntervalSeconds
  deriving DecidableEq, Repr

inductive IntKey where
  | evictionGraceDays
  | logRetentionDays
  | logMaxRows
  | autoGrabMaxSearchesPerCycle
  deriving DecidableEq, Repr

/-- `_BOOL_SETTING_DEFAULTS`. -/
inductive BoolKey where
  | evictionEnabled
  | evictionProactiveEnabled
  | autoGrabEnabled
  | automaticUpdatesEnabled
  | automaticUpdateIdleOnly
  | watchlistSyncEnabled
  deriving DecidableEq, Repr

inductive Key where
  | float (k : FloatKey)
  | int (k : IntKey)
  | bool (k : BoolKey)
  | automaticUpdateTimezone
  | automaticUpdateWeekdays
  | automaticUpdateWindowStart
  | automaticUpdateWindowEnd
  deriving DecidableEq, Repr

def Key.all : List Key :=
  [.float .diskPressureThresholdPercent, .float .diskPressureTargetPercent,
    .float .evictionIntervalMinutes, .float .watchlistSyncIntervalMinutes,
    .float .shareRevalidationIntervalHours, .float .autoGrabIntervalSeconds,
    .int .evictionGraceDays, .int .logRetentionDays, .int .logMaxRows,
    .int .autoGrabMaxSearchesPerCycle, .bool .evictionEnabled, .bool .evictionProactiveEnabled,
    .bool .autoGrabEnabled, .bool .automaticUpdatesEnabled, .bool .automaticUpdateIdleOnly,
    .bool .watchlistSyncEnabled, .automaticUpdateTimezone, .automaticUpdateWeekdays,
    .automaticUpdateWindowStart, .automaticUpdateWindowEnd]

abbrev Store := Key → Option Text

/-- The value of a setting as the page sends it and gets it. -/
abbrev Value : Key → Type
  | .float _ => Rat
  | .int _ => Int
  | .bool _ => Bool
  | .automaticUpdateWeekdays => List Weekday
  | .automaticUpdateTimezone | .automaticUpdateWindowStart | .automaticUpdateWindowEnd => Text

/-- What a setting comes to where it is used. Times are minutes of a day. -/
abbrev Runtime : Key → Type
  | .float _ => Rat
  | .int _ => Int
  | .bool _ => Bool
  | .automaticUpdateTimezone => Text
  | .automaticUpdateWeekdays => List Weekday
  | .automaticUpdateWindowStart | .automaticUpdateWindowEnd => Fin 1440

/-! ### Defaults and bounds -/

/-- The constants of the settings that end in `_DEFAULT`. -/
def FloatKey.default : FloatKey → Int
  | .diskPressureThresholdPercent => 90
  | .diskPressureTargetPercent => 80
  | .evictionIntervalMinutes => 30
  | .watchlistSyncIntervalMinutes => 15
  | .shareRevalidationIntervalHours => 6
  | .autoGrabIntervalSeconds => 60

/-- The constants with `_MAX`. -/
def FloatKey.maximum : FloatKey → Int
  | .diskPressureThresholdPercent | .diskPressureTargetPercent => 100
  | .evictionIntervalMinutes | .watchlistSyncIntervalMinutes => 10080
  | .shareRevalidationIntervalHours => 168
  | .autoGrabIntervalSeconds => 3600

/-- Below the constant with `_MIN`, or not above zero. -/
def FloatKey.tooSmall (x : Rat) : FloatKey → Bool
  | .diskPressureThresholdPercent | .diskPressureTargetPercent => x < 0
  | .evictionIntervalMinutes | .watchlistSyncIntervalMinutes => x ≤ 0
  | .shareRevalidationIntervalHours => x < 1
  | .autoGrabIntervalSeconds => x < 15

def IntKey.default : IntKey → Int
  | .evictionGraceDays => 30
  | .logRetentionDays => 7
  | .logMaxRows => 100000
  | .autoGrabMaxSearchesPerCycle => 5

def IntKey.maximum : IntKey → Int
  | .evictionGraceDays | .logRetentionDays => 3650
  | .logMaxRows => 2000000
  | .autoGrabMaxSearchesPerCycle => 50

/-- Below zero, or below `AUTO_GRAB_MAX_SEARCHES_PER_CYCLE_MIN`. -/
def IntKey.tooSmall (n : Int) : IntKey → Bool
  | .evictionGraceDays | .logRetentionDays | .logMaxRows => n < 0
  | .autoGrabMaxSearchesPerCycle => n < 2

def BoolKey.default : BoolKey → Bool
  | .evictionEnabled | .autoGrabEnabled | .automaticUpdateIdleOnly | .watchlistSyncEnabled => true
  | .evictionProactiveEnabled | .automaticUpdatesEnabled => false

def timezoneDefault : Text := "UTC".toList

def weekdaysDefault : List Weekday :=
  [.monday, .tuesday, .wednesday, .thursday, .friday, .saturday, .sunday]

def windowStartDefault : Text := "03:00".toList

def windowEndDefault : Text := "05:00".toList

/-! ### Numbers and truth values -/

/-- What a resolver does with a text: the value it comes to, and whether that is the
    value of the text. -/
def resolveNumber {N : Type} [LinearOrder N] (parse : Text → Option N) (default maximum : N)
    (tooSmall : N → Bool) : Option Text → N × Bool
  | none => (default, true)
  | some raw => match parse raw with
    | none => (default, false)
    | some x =>
        if maximum < x then (maximum, false)
        else if tooSmall x then (default, false)
        else (x, true)

section Resolvers

variable (R : Readers)

def resolveDiskPressurePercent (default : Rat) : Option Text → Rat × Bool :=
  resolveNumber R.float default 100 (· < 0)

/-- The pair a sweep runs with. -/
structure DiskPressurePercents where
  threshold : Rat
  target : Rat
  thresholdHonored : Bool
  targetHonored : Bool
  workable : target ≤ threshold

def resolveDiskPressurePercents (rawThreshold rawTarget : Option Text) : DiskPressurePercents :=
  let threshold := resolveDiskPressurePercent R 90 rawThreshold
  let target := resolveDiskPressurePercent R 80 rawTarget
  if h : threshold.1 < target.1 then
    { threshold := threshold.1, target := threshold.1, thresholdHonored := threshold.2
      targetHonored := false, workable := le_refl _ }
  else
    { threshold := threshold.1, target := target.1, thresholdHonored := threshold.2
      targetHonored := target.2, workable := not_lt.mp h }

def resolveEvictionIntervalMinutes : Option Text → Rat × Bool :=
  resolveNumber R.float 30 10080 (· ≤ 0)

/-- `resolve_watchlist_sync_interval_minutes`, which asks first whether the value is too
    small. -/
def resolveWatchlistSyncIntervalMinutes : Option Text → Rat × Bool
  | none => (15, true)
  | some raw => match R.float raw with
    | none => (15, false)
    | some x =>
        if x ≤ 0 then (15, false)
        else if 10080 < x then (10080, false)
        else (x, true)

def resolveShareRevalidationIntervalHours : Option Text → Rat × Bool :=
  resolveNumber R.float 6 168 (· < 1)

def resolveAutoGrabIntervalSeconds : Option Text → Rat × Bool :=
  resolveNumber R.float 60 3600 (· < 15)

def resolveAutoGrabMaxSearchesPerCycle : Option Text → Int × Bool :=
  resolveNumber readInt 5 50 (· < 2)

def resolveBoundedCount (default maximum : Int) : Option Text → Int × Bool :=
  resolveNumber readInt default maximum (· < 0)

def resolveEvictionGraceDays : Option Text → Int × Bool := resolveBoundedCount 30 3650

def resolveLogRetentionDays : Option Text → Int × Bool := resolveBoundedCount 7 3650

def resolveLogMaxRows : Option Text → Int × Bool := resolveBoundedCount 100000 2000000

/-- `str.lower`, as far as it matters: no other letter becomes one of these tokens. -/
def lower (s : Text) : Text := s.map Char.toLower

/-- What is read leniently as a truth value, in either case. -/
def laxBool (s : Text) : Option Bool :=
  if lower s ∈ ["0", "off", "f", "false", "n", "no"].map String.toList then some false
  else if lower s ∈ ["1", "on", "t", "true", "y", "yes"].map String.toList then some true
  else none

def resolveBoolSetting (default : Bool) : Option Text → Bool × Bool
  | none => (default, true)
  | some raw => match laxBool (strip raw) with
    | some b => (b, true)
    | none => (default, false)

/-! ### The policy for updates -/

/-- `_bool` of the policy. -/
def policyBool (default : Bool) : Option Text → Bool × Bool
  | none => (default, false)
  | some value =>
      if lower (strip value) ∈ ["1", "true", "yes", "on", "t", "y"].map String.toList then
        (true, true)
      else if lower (strip value) ∈ ["0", "false", "no", "off", "f", "n"].map String.toList then
        (false, true)
      else (default, false)

/-- `_timezone`. -/
def policyTimezone : Option Text → Text × Bool
  | none => (timezoneDefault, false)
  | some value => if R.knowsZone (strip value) then (strip value, true)
    else (timezoneDefault, false)

end Resolvers

/-- `Weekday(item)`, backwards. -/
def weekdayName : Weekday → String
  | .monday => "monday"
  | .tuesday => "tuesday"
  | .wednesday => "wednesday"
  | .thursday => "thursday"
  | .friday => "friday"
  | .saturday => "saturday"
  | .sunday => "sunday"

/-- `Weekday(item)`, of an item that is a text. -/
def weekdayOfJson : JsonText.Json → Option Weekday
  | .str name => weekdaysDefault.find? fun day => weekdayName day = name
  | _ => none

def weekOrder (days : List Weekday) : List Weekday := weekdaysDefault.filter (· ∈ days)

/-- `_weekdays`, where `json.loads` does not raise `RecursionError`. -/
def policyWeekdays : Option Text → List Weekday × Bool
  | none => (weekdaysDefault, false)
  | some value => match JsonText.loads value with
    | some (.arr items) => match items.mapM weekdayOfJson with
      | some days =>
          if days ≠ [] ∧ days.Nodup then (weekOrder days, true) else (weekdaysDefault, false)
      | none => (weekdaysDefault, false)
    | _ => (weekdaysDefault, false)

/-- `int` of two digits, the first of which is plain. -/
def twoDigits (tens : Nat) (ones : Char) : Option Nat := (decimalDigit ones).map (10 * tens + ·)

/-- `[01]\d|2[0-3]`. -/
def readHour (a b : Char) : Option Nat :=
  if a = '0' then twoDigits 0 b
  else if a = '1' then twoDigits 1 b
  else if a = '2' ∧ b ∈ ['0', '1', '2', '3'] then twoDigits 2 b
  else none

/-- `[0-5]\d`. -/
def readMinute (a b : Char) : Option Nat :=
  if a ∈ ['0', '1', '2', '3', '4', '5'] then twoDigits (a.toNat - '0'.toNat) b else none

/-- `_TIME_RE`, with the time that a text which matches stands for. -/
def readTime : Text → Option (Fin 1440)
  | [a, b, ':', c, d] => do
      let hour ← readHour a b
      let minute ← readMinute c d
      some (Fin.ofNat 1440 (60 * hour + minute))
  | _ => none

/-- `strftime("%H:%M")`. -/
def showTime (t : Fin 1440) : Text :=
  [Nat.digitChar (t / 60 / 10), Nat.digitChar (t / 60 % 10), ':', Nat.digitChar (t % 60 / 10),
    Nat.digitChar (t % 60 % 10)]

def wallTime (value : Option Text) (default : Fin 1440) : Fin 1440 × Bool :=
  match readTime (strip (value.getD [])) with
  | some t => (t, true)
  | none => (default, false)

/-- `AutomaticUpdatePolicy`, with the schedule as it is validated. -/
structure AutomaticUpdatePolicy where
  enabled : Bool
  timezoneName : Text
  weekdays : List Weekday
  windowStart : Fin 1440
  windowEnd : Fin 1440
  idleOnly : Bool
  some_weekday : weekdays ≠ []
  boundaries_differ : windowStart ≠ windowEnd

/-- `ResolvedUpdatePolicy`, with the fields among the honored ones that are asked for. -/
structure ResolvedUpdatePolicy where
  policy : AutomaticUpdatePolicy
  weekdaysHonored : Bool
  windowStartHonored : Bool
  windowEndHonored : Bool

theorem weekOrder_ne_nil {days : List Weekday} (h : days ≠ []) : weekOrder days ≠ [] := by
  rcases List.exists_mem_of_ne_nil days h with ⟨day, hday⟩
  have hmem : day ∈ weekOrder days := by
    rw [weekOrder, List.mem_filter, decide_eq_true_eq]
    refine ⟨?_, hday⟩
    cases day <;> decide
  exact List.ne_nil_of_mem hmem

theorem policyWeekdays_ne_nil (value : Option Text) : (policyWeekdays value).1 ≠ [] := by
  have hdef : weekdaysDefault ≠ [] := by decide
  unfold policyWeekdays
  split
  · exact hdef
  split
  · split
    · split
      · exact weekOrder_ne_nil (And.left ‹_›)
      · exact hdef
    · exact hdef
  · exact hdef

variable (R : Readers) (raw : Store)

/-- `resolve_update_policy`. A window whose ends coincide is replaced by the default one. -/
def resolveUpdatePolicy : ResolvedUpdatePolicy :=
  let start := wallTime (raw .automaticUpdateWindowStart) 180
  let stop := wallTime (raw .automaticUpdateWindowEnd) 300
  let weekdays := policyWeekdays (raw .automaticUpdateWeekdays)
  let window : { w : (Fin 1440 × Bool) × Fin 1440 × Bool // w.1.1 ≠ w.2.1 } :=
    if h : start.1 = stop.1 then ⟨((180, false), 300, false), by decide⟩ else ⟨(start, stop), h⟩
  { policy :=
      { enabled := (policyBool false (raw (.bool .automaticUpdatesEnabled))).1
        timezoneName := (policyTimezone R (raw .automaticUpdateTimezone)).1
        weekdays := weekdays.1
        windowStart := window.val.1.1
        windowEnd := window.val.2.1
        idleOnly := (policyBool true (raw (.bool .automaticUpdateIdleOnly))).1
        some_weekday := policyWeekdays_ne_nil _
        boundaries_differ := window.property }
    weekdaysHonored := weekdays.2
    windowStartHonored := window.val.1.2
    windowEndHonored := window.val.2.2 }

def AutomaticUpdatePolicy.schedule (policy : AutomaticUpdatePolicy) (zoneInfo : Text → Zone) :
    UpdateSchedule where
  enabled := policy.enabled
  timezone := zoneInfo policy.timezoneName
  weekdays := policy.weekdays
  windowStart := policy.windowStart
  windowEnd := policy.windowEnd
  some_weekday := policy.some_weekday
  boundaries_differ := policy.boundaries_differ

/-! ### What is used -/

section Getters

variable (R : Readers) (raw : Store)

def diskPressure : DiskPressurePercents :=
  resolveDiskPressurePercents R (raw (.float .diskPressureThresholdPercent))
    (raw (.float .diskPressureTargetPercent))

def resolveFloat : FloatKey → Rat × Bool
  | .diskPressureThresholdPercent =>
      ((diskPressure R raw).threshold, (diskPressure R raw).thresholdHonored)
  | .diskPressureTargetPercent => ((diskPressure R raw).target, (diskPressure R raw).targetHonored)
  | .evictionIntervalMinutes =>
      resolveEvictionIntervalMinutes R (raw (.float .evictionIntervalMinutes))
  | .watchlistSyncIntervalMinutes =>
      resolveWatchlistSyncIntervalMinutes R (raw (.float .watchlistSyncIntervalMinutes))
  | .shareRevalidationIntervalHours =>
      resolveShareRevalidationIntervalHours R (raw (.float .shareRevalidationIntervalHours))
  | .autoGrabIntervalSeconds =>
      resolveAutoGrabIntervalSeconds R (raw (.float .autoGrabIntervalSeconds))

/-- The resolver of a whole number, and whether the text is honored. -/
def resolveInt : IntKey → Int × Bool
  | .evictionGraceDays => resolveEvictionGraceDays (raw (.int .evictionGraceDays))
  | .logRetentionDays => resolveLogRetentionDays (raw (.int .logRetentionDays))
  | .logMaxRows => resolveLogMaxRows (raw (.int .logMaxRows))
  | .autoGrabMaxSearchesPerCycle =>
      resolveAutoGrabMaxSearchesPerCycle (raw (.int .autoGrabMaxSearchesPerCycle))

/-- What the getters give where they return: `get_` and the name of the setting, and
    `load_update_policy` for those of the policy but the first two. -/
def effective : (k : Key) → Runtime k
  | .float k => (resolveFloat R raw k).1
  | .int k => (resolveInt raw k).1
  | .bool .automaticUpdatesEnabled => (resolveUpdatePolicy R raw).policy.enabled
  | .bool .automaticUpdateIdleOnly => (resolveUpdatePolicy R raw).policy.idleOnly
  | .bool k => (resolveBoolSetting k.default (raw (.bool k))).1
  | .automaticUpdateTimezone => (resolveUpdatePolicy R raw).policy.timezoneName
  | .automaticUpdateWeekdays => (resolveUpdatePolicy R raw).policy.weekdays
  | .automaticUpdateWindowStart => (resolveUpdatePolicy R raw).policy.windowStart
  | .automaticUpdateWindowEnd => (resolveUpdatePolicy R raw).policy.windowEnd

/-- `resolve_update_policy` raises: the stored weekdays nest too deep. -/
def policyRaises : Bool := (raw .automaticUpdateWeekdays).any R.tooDeep

def updatePolicySettingKeys : List Key :=
  [.bool .automaticUpdatesEnabled, .automaticUpdateTimezone, .automaticUpdateWeekdays,
    .automaticUpdateWindowStart, .automaticUpdateWindowEnd, .bool .automaticUpdateIdleOnly]

/-- A getter, if it returns. -/
def getter (k : Key) : Option (Runtime k) :=
  if k ∈ updatePolicySettingKeys ∧ policyRaises R raw = true then none
  else some (effective R raw k)

end Getters

def default : (k : Key) → Runtime k
  | .float k => k.default
  | .int k => k.default
  | .bool k => k.default
  | .automaticUpdateTimezone => timezoneDefault
  | .automaticUpdateWeekdays => weekdaysDefault
  | .automaticUpdateWindowStart => 180
  | .automaticUpdateWindowEnd => 300

def Value.runtime : (k : Key) → Value k → Option (Runtime k)
  | .float _, x => some x
  | .int _, n => some n
  | .bool _, b => some b
  | .automaticUpdateTimezone, name => some name
  | .automaticUpdateWeekdays, days => some days
  | .automaticUpdateWindowStart, time => readTime time
  | .automaticUpdateWindowEnd, time => readTime time

def shownRuntime (k : Key) : Option (Value k) → Option (Runtime k)
  | none => some (default k)
  | some v => Value.runtime k v

/-! ### What the page shows -/

def presentEffective {N : Type} [DecidableEq N] (str : N → Text) (raw : Option Text)
    (effective default : N) (honored : Bool) : Option Text :=
  match raw, honored with
  | some raw, true => some raw
  | _, _ => if effective = default then none else some (str effective)

abbrev Presented : Key → Type
  | .automaticUpdateWeekdays => List Weekday
  | _ => Text

/-- `_sanitize_typed_settings`, where the policy is resolved. -/
def sanitizeTypedSettings : (k : Key) → Option (Presented k)
  | .float k =>
      presentEffective R.str (raw (.float k)) (resolveFloat R raw k).1 k.default
        (resolveFloat R raw k).2
  | .int k =>
      presentEffective JsonText.renderInt (raw (.int k)) (resolveInt raw k).1 k.default
        (resolveInt raw k).2
  | .bool k => match raw (.bool k) with
    | none => none
    | some value =>
        if (resolveBoolSetting k.default (some value)).2 then some (strip value) else none
  | .automaticUpdateTimezone =>
      if updatePolicySettingKeys.any fun k => (raw k).isSome then
        some (resolveUpdatePolicy R raw).policy.timezoneName
      else none
  | .automaticUpdateWeekdays =>
      if (resolveUpdatePolicy R raw).weekdaysHonored then
        some (weekdaysDefault.filter (· ∈ (resolveUpdatePolicy R raw).policy.weekdays))
      else none
  | .automaticUpdateWindowStart =>
      if (resolveUpdatePolicy R raw).windowStartHonored then
        some (showTime (resolveUpdatePolicy R raw).policy.windowStart)
      else none
  | .automaticUpdateWindowEnd =>
      if (resolveUpdatePolicy R raw).windowEndHonored then
        some (showTime (resolveUpdatePolicy R raw).policy.windowEnd)
      else none

/-- What the response model makes of a field. -/
def coerce : (k : Key) → Presented k → Option (Value k)
  | .float _, s => R.laxFloat s
  | .int _, s => R.laxInt s
  | .bool _, s => laxBool s
  | .automaticUpdateTimezone, s => some s
  | .automaticUpdateWeekdays, days => some days
  | .automaticUpdateWindowStart, s => some s
  | .automaticUpdateWindowEnd, s => some s

/-- A field of `GET /settings`, if it can be answered. -/
def response (k : Key) : Option (Option (Value k)) :=
  if policyRaises R raw then none
  else match sanitizeTypedSettings R raw k with
    | none => some none
    | some shown => (coerce R k shown).map some

/-! ### What the page sends -/

/-- What is sent for each setting, where nothing is sent for one that is left as it is. -/
abbrev Fields := (k : Key) → Option (Value k)

/-- The checks of `SettingsUpdate` for one field. -/
def checkField : (k : Key) → Value k → Option (Value k)
  | .float k, x => if (k.maximum : Rat) < x ∨ k.tooSmall x = true then none else some x
  | .int k, n => if k.maximum < n ∨ k.tooSmall n = true then none else some n
  | .bool _, b => some b
  | .automaticUpdateTimezone, name =>
      if strip name = [] then none
      else if R.knowsZone (strip name) then some (strip name)
      else none
  | .automaticUpdateWeekdays, days =>
      if days = [] ∨ ¬ days.Nodup then none else some (weekOrder days)
  | .automaticUpdateWindowStart, time | .automaticUpdateWindowEnd, time =>
      if (readTime (strip time)).isSome then some (strip time) else none

inductive Refusal where
  | field (k : Key)
  | pressurePair
  | windowPair
  deriving DecidableEq, Repr

def Refusal.detail : Refusal → Option String
  | .field _ => none
  | .pressurePair => some <|
      "disk_pressure_target_percent must be <= disk_pressure_threshold_percent " ++
      "(a target above the trigger leaves the whole threshold-to-target band " ++
      "under 'pressure' with nothing to evict)"
  | .windowPair => some "automatic update window start and end must differ"

def inverted (threshold target : Option Rat) : Bool :=
  match threshold, target with
  | some threshold, some target => threshold < target
  | _, _ => false

/-- `SettingsUpdate`: every field is checked, and then the pairs that are sent whole. -/
def validated (fields : Fields) : Except Refusal Fields :=
  match Key.all.find? fun k => match fields k with
      | none => false
      | some v => (checkField R k v).isNone with
  | some k => .error (.field k)
  | none =>
      let body : Fields := fun k => (fields k).bind (checkField R k)
      if inverted (body (.float .diskPressureThresholdPercent))
          (body (.float .diskPressureTargetPercent)) then .error .pressurePair
      else if (body .automaticUpdateWindowStart).isSome ∧
          body .automaticUpdateWindowStart = body .automaticUpdateWindowEnd then
        .error .windowPair
      else .ok body

def parseUpdateTime : Option Text → Option Text
  | none => none
  | some value => if (readTime (strip value)).isSome then some (strip value) else none

/-- The two texts that `_validate_update_window_pair` takes from the store. -/
def storedWindow : Text × Text :=
  ((parseUpdateTime (raw .automaticUpdateWindowStart)).getD windowStartDefault,
    (parseUpdateTime (raw .automaticUpdateWindowEnd)).getD windowEndDefault)

def validateUpdateWindowPair (body : Fields) : Bool :=
  (body .automaticUpdateWindowStart).getD (storedWindow raw).1 ≠
    (body .automaticUpdateWindowEnd).getD (storedWindow raw).2

def validateDiskPressurePair (body : Fields) : Bool :=
  (body (.float .diskPressureTargetPercent)).getD
      (effective R raw (.float .diskPressureTargetPercent)) ≤
    (body (.float .diskPressureThresholdPercent)).getD
      (effective R raw (.float .diskPressureThresholdPercent))

def toStoredString : (k : Key) → Value k → Text
  | .float _, x => R.str x
  | .int _, n => JsonText.renderInt n
  | .bool _, b => (if b then "true" else "false").toList
  | .automaticUpdateTimezone, name => name
  | .automaticUpdateWeekdays, days =>
      JsonText.render (.arr (days.map fun day => .str (weekdayName day)))
  | .automaticUpdateWindowStart, time => time
  | .automaticUpdateWindowEnd, time => time

/-- All settings that are stored, with those that are texts. -/
structure Settings where
  typed : Store
  others : String → Option Text

/-- The loop of `write_settings`. What is not sent is left as it is. -/
def writeSettings (s : Settings) (body : Fields) (others : String → Option Text) :
    Settings where
  typed k := match body k with
    | none => s.typed k
    | some v => some (toStoredString R k v)
  others name := (others name).or (s.others name)

/-- `PUT /settings`, for the typed settings, up to its reply, which is the page. The
    others have passed their own checks. -/
def putSettings (s : Settings) (fields : Fields) (others : String → Option Text) :
    Except Refusal Settings :=
  match validated R fields with
  | .error e => .error e
  | .ok body =>
      if !validateDiskPressurePair R s.typed body then .error .pressurePair
      else if !validateUpdateWindowPair s.typed body then .error .windowPair
      else .ok (writeSettings R s body others)

end TypedSettings

end PlexManager
