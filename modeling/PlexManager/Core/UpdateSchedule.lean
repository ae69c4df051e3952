import PlexManager.Core.DownloadState

/-!
# The schedule of automatic updates

An update may be installed inside a recurring window of local time: on the
selected weekdays, from one wall time to another. A window belongs to the date
it starts on, so one that ends before it starts runs into the next date.

A wall time is turned into an instant by asking the timezone. It may have none,
where the clock is set forward, and then the next minute that has one stands
for it; and it may have several, where the clock is set back, and then a start
is the earliest of them and an end the latest.

Instants and wall times are counted in microseconds, dates in days from the
first of the calendar, whose bounds are not part of the model. The timezone is
any pair of functions, as the library answers: what the clock shows at an
instant, and which instant it gives for a wall time and a fold.
-/

namespace PlexManager

namespace UpdateSchedule

def minute : Int := 60000000

def day : Int := 86400000000

/-- `astimezone(zone)` without its zone, and `replace(tzinfo=zone, fold=fold)`
    as an instant. -/
structure Zone where
  toLocal : Int → Int
  toUtc : Int → Bool → Int

inductive Weekday where
  | monday
  | tuesday
  | wednesday
  | thursday
  | friday
  | saturday
  | sunday
  deriving DecidableEq, Repr

/-- `tuple(Weekday)[date.weekday()]`. The calendar starts on a Monday. -/
def weekdayOf (d : Int) : Weekday :=
  match d % 7 with
  | 0 => .monday
  | 1 => .tuesday
  | 2 => .wednesday
  | 3 => .thursday
  | 4 => .friday
  | 5 => .saturday
  | _ => .sunday

end UpdateSchedule

open UpdateSchedule in
/-- A validated schedule. Its boundaries are minutes of a day. -/
structure UpdateSchedule where
  enabled : Bool
  timezone : Zone
  weekdays : List Weekday
  windowStart : Fin 1440
  windowEnd : Fin 1440
  some_weekday : weekdays ≠ []
  boundaries_differ : windowStart ≠ windowEnd

namespace UpdateSchedule

/-- One concrete window, with its boundaries as instants. -/
structure ScheduleWindow where
  start : Int
  stop : Int
  startingWeekday : Weekday
  deriving DecidableEq, Repr

/-- Whether an instant lies in `[start, stop)`. -/
def ScheduleWindow.contains (w : ScheduleWindow) (instant : Int) : Bool :=
  decide (w.start ≤ instant) && decide (instant < w.stop)

inductive ScheduleError where
  /-- `could not resolve local wall time in configured timezone`. -/
  | unresolved
  deriving DecidableEq, Repr

/-- `datetime.date`. -/
def dateOf (w : Int) : Int := w / day

def combine (d : Int) (time : Fin 1440) : Int := d * day + time.val * minute

/-! ### Wall times -/

inductive Boundary where
  | start
  | stop
  deriving DecidableEq, Repr

/-- `_wall_candidates`: the instants that show a wall time, in order and without
    the repetition of one that both folds give. -/
def wallCandidates (naive : Int) (zone : Zone) : List Int :=
  match [zone.toUtc naive false, zone.toUtc naive true].filter
      (fun instant => zone.toLocal instant = naive) with
  | [early, late] => if early = late then [early] else [min early late, max early late]
  | others => others

/-- The candidate that is taken: the first for a start, the last for an end. -/
def Boundary.pick (boundary : Boundary) (c : Int) (others : List Int) : Int :=
  match boundary with
  | .start => others.foldl min c
  | .stop => others.foldl max c

/-- The loop of `_resolve_wall_time`, from one probe on. -/
def resolveFrom (zone : Zone) (boundary : Boundary) : Nat → Int → Except ScheduleError Int
  | 0, _ => .error .unresolved
  | probes + 1, probe =>
      match wallCandidates probe zone with
      | [] => resolveFrom zone boundary probes (probe + minute)
      | c :: others => .ok (boundary.pick c others)

/-- `_resolve_wall_time`: up to two days of minutes are tried. -/
def resolveWallTime (naive : Int) (zone : Zone) (boundary : Boundary) :
    Except ScheduleError Int :=
  resolveFrom zone boundary (48 * 60 + 1) naive

/-! ### Windows -/

variable (s : UpdateSchedule) (now : Int)

def overnight : Bool := s.windowEnd < s.windowStart

def endDate (startDate : Int) : Int :=
  if s.overnight then startDate + 1 else startDate

def windowForStartDate (startDate : Int) :
    Except ScheduleError (Option ScheduleWindow) :=
  let startingWeekday := weekdayOf startDate
  if startingWeekday ∉ s.weekdays then .ok none
  else do
    let start ← resolveWallTime (combine startDate s.windowStart) s.timezone .start
    let stop ← resolveWallTime (combine (s.endDate startDate) s.windowEnd) s.timezone .stop
    return if stop ≤ start then none else some ⟨start, stop, startingWeekday⟩

/-- The loop of `current_window` over its candidate dates. -/
def firstOpen (s : UpdateSchedule) (now : Int) :
    List Int → Except ScheduleError (Option ScheduleWindow)
  | [] => .ok none
  | candidateDate :: others => do
      match ← s.windowForStartDate candidateDate with
      | some window => if window.contains now then return some window else s.firstOpen now others
      | none => s.firstOpen now others

def localDate : Int := dateOf (s.timezone.toLocal now)

def currentWindow : Except ScheduleError (Option ScheduleWindow) :=
  if !s.enabled then .ok none
  else s.firstOpen now [s.localDate now - 1, s.localDate now]

/-- The dates `next_window` looks at, as offsets. -/
def horizon : List Int := [-1, 0, 1, 2, 3, 4, 5, 6, 7, 8]

def notEnded (s : UpdateSchedule) (now : Int) :
    List Int → Except ScheduleError (List ScheduleWindow)
  | [] => .ok []
  | d :: others => do
      let window ← s.windowForStartDate d
      let later ← s.notEnded now others
      return (window.toList.filter fun w => now < w.stop) ++ later

def earliest : ScheduleWindow → List ScheduleWindow → ScheduleWindow
  | w, [] => w
  | w, w' :: others => earliest (if w'.start < w.start then w' else w) others

def nextWindow : Except ScheduleError (Option ScheduleWindow) :=
  if !s.enabled then .ok none
  else do
    match ← s.notEnded now (horizon.map (s.localDate now + ·)) with
    | [] => return none
    | w :: others => return some (earliest w others)

def isOpen : Except ScheduleError Bool :=
  (s.currentWindow now).map Option.isSome

end UpdateSchedule

end PlexManager
