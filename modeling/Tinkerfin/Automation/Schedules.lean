import Mathlib.Data.List.Sort
import Mathlib.Data.List.Dedup
import Tinkerfin.Automation.Errors
import Tinkerfin.Lib.Bytes

/-!
# Schedules

One-time, interval and cron schedules, the next instant of a schedule, and the due instants of one
scheduler wakeup under a misfire policy.  Dates are day numbers counted from the first representable
date, and wall-clock times are microseconds on the same scale.  The timezone database is a parameter:
a zone converts between instants and its wall clock.
-/

namespace Tinkerfin.Automation

/-! ## Calendar -/

def microsecondsPerSecond : Nat := 1000000

def microsecondsPerDay : Nat := 86400 * microsecondsPerSecond

/-- Number of representable dates. -/
def calendarDays : Nat := 3652059

def isLeapYear (year : Nat) : Bool :=
  year % 4 == 0 && (year % 100 != 0 || year % 400 == 0)

/-- Days before the first day of a year. -/
def daysBeforeYear (year : Nat) : Nat :=
  (year - 1) * 365 + (year - 1) / 4 - (year - 1) / 100 + (year - 1) / 400

/-- Lengths of the months of a year. -/
def monthLengths (year : Nat) : List Nat :=
  [31, if isLeapYear year then 29 else 28, 31, 30, 31, 30, 31, 31, 30, 31, 30, 31]

structure CalendarDate where
  year : Nat
  month : Nat
  day : Nat
  deriving DecidableEq, Repr

/-- Month and day of a zero-based day of a year, counted through the month lengths. -/
def monthAndDay : (month dayOfYear : Nat) → List Nat → Nat × Nat
  | month, dayOfYear, length :: lengths =>
    if dayOfYear < length then
      (month, dayOfYear + 1)
    else
      monthAndDay (month + 1) (dayOfYear - length) lengths
  | month, dayOfYear, [] => (month, dayOfYear + 1)

/-- Year of a day number. -/
def yearOfDay (day : Nat) : Nat :=
  let n400 := day / 146097
  let in400 := day % 146097
  let n100 := min (in400 / 36524) 3
  let in100 := in400 - n100 * 36524
  let n4 := in100 / 1461
  let in4 := in100 % 1461
  n400 * 400 + n100 * 100 + n4 * 4 + min (in4 / 365) 3 + 1

/-- The proleptic Gregorian date of a day number. -/
def calendarDate (day : Nat) : CalendarDate :=
  let year := yearOfDay day
  let (month, dayOfMonth) := monthAndDay 1 (day - daysBeforeYear year) (monthLengths year)
  { year, month, day := dayOfMonth }

/-- Weekday of a day number, Monday first. -/
def weekday (day : Nat) : Nat := day % 7

example : (calendarDate 739675, weekday 739675) = (⟨2026, 3, 1⟩, 6) := by decide

/-- A timezone: its wall clock at an instant, and the instant of a wall time on either side of a
fold. -/
structure Zone where
  wall : Nat → Nat
  instant : (fold : Bool) → Nat → Nat

/-! ## Schedules -/

def minIntervalSeconds : Nat := 60

def maxIntervalSeconds : Nat := 365 * 24 * 60 * 60

theorem minInterval_bounded : minIntervalSeconds ≤ 60 ∧ 60 ≤ maxIntervalSeconds := by decide

/-- A validated schedule declaration. -/
inductive Schedule
  | once (runAt : Nat)
  | interval (everySeconds startAt : Nat)
      (bounded : minIntervalSeconds ≤ everySeconds ∧ everySeconds ≤ maxIntervalSeconds := by
        first | exact minInterval_bounded | decide)
  | cron (expression timezone : String)
  deriving DecidableEq, Repr

def maxCronSearchYears : Nat := 8

def maxMisfireScan : Nat := 100000

def monthNames : List (String × Nat) :=
  [("jan", 1), ("feb", 2), ("mar", 3), ("apr", 4), ("may", 5), ("jun", 6), ("jul", 7), ("aug", 8),
    ("sep", 9), ("oct", 10), ("nov", 11), ("dec", 12)]

def weekdayNames : List (String × Nat) :=
  [("mon", 0), ("tue", 1), ("wed", 2), ("thu", 3), ("fri", 4), ("sat", 5), ("sun", 6)]

/-- Decimal digits that may be grouped by single underscores. -/
def parseDigits : (value : Nat) → List Char → Option Nat
  | value, [] => some value
  | value, '_' :: char :: chars =>
    if char.isDigit then parseDigits (value * 10 + (char.toNat - 48)) chars else none
  | value, char :: chars =>
    if char.isDigit then parseDigits (value * 10 + (char.toNat - 48)) chars else none

/-- An integer literal with an optional sign. -/
def parseInt (text : String) : Option Int :=
  match text.toList with
  | '-' :: char :: chars =>
    if char.isDigit then (parseDigits 0 (char :: chars)).map fun value => -(value : Int) else none
  | '+' :: char :: chars =>
    if char.isDigit then (parseDigits 0 (char :: chars)).map fun value => (value : Int) else none
  | char :: chars =>
    if char.isDigit then (parseDigits 0 (char :: chars)).map fun value => (value : Int) else none
  | [] => none

/-- One value of a cron field. -/
def parseValue (value : String) (minimum maximum : Nat) (names : List (String × Nat)) :
    Except Raised Nat :=
  let normalized := value.toLower
  match names.lookup normalized with
  | some named => .ok named
  | none =>
    match parseInt normalized with
    | none =>
      .error (.invalidSchedule "Cron field contains an unsupported value"
        [("value", .text value)])
    | some parsed =>
      if minimum ≤ parsed ∧ parsed ≤ maximum then
        .ok parsed.toNat
      else
        .error (.invalidSchedule "Cron field value is outside its allowed range"
          [("value", .text value), ("minimum", .number minimum), ("maximum", .number maximum)])

/-- The step behind a slash, one when there is none. -/
def parseStep (separator : Bool) (stepText : String) : Except Raised Nat :=
  if separator then
    match parseInt stepText with
    | none =>
      .error (.invalidSchedule "Cron step must be a positive integer" [("value", .text stepText)])
    | some step =>
      if step < 1 then
        .error (.invalidSchedule "Cron step must be a positive integer" [])
      else
        .ok step.toNat
  else
    .ok 1

/-- First and last value of one list item of a cron field. -/
def parseRange (base : List Char) (minimum maximum : Nat) (names : List (String × Nat)) :
    Except Raised (Nat × Nat) := do
  if base = ['*'] then
    return (minimum, maximum)
  else if '-' ∈ base then
    let start ← parseValue (String.ofList (base.takeWhile (· ≠ '-'))) minimum maximum names
    let stop ← parseValue (String.ofList ((base.dropWhile (· ≠ '-')).drop 1)) minimum maximum names
    if start > stop then
      throw (.invalidSchedule "Cron ranges must be ordered from lower to higher" [])
    return (start, stop)
  else
    let start ← parseValue (String.ofList base) minimum maximum names
    return (start, start)

/-- The values one list item of a cron field selects. -/
def parseItem (item : List Char) (minimum maximum : Nat) (names : List (String × Nat)) :
    Except Raised (List Nat) := do
  if item.isEmpty then
    throw (.invalidSchedule "Cron fields cannot contain empty list items" [])
  let step ← parseStep ('/' ∈ item) (String.ofList ((item.dropWhile (· ≠ '/')).drop 1))
  let (start, stop) ← parseRange (item.takeWhile (· ≠ '/')) minimum maximum names
  return (List.range' start (stop + 1 - start)).filter fun value => (value - start) % step = 0

/-- The sorted values a cron field selects. -/
def parseField (field : List Char) (minimum maximum : Nat) (names : List (String × Nat) := []) :
    Except Raised (List Nat) := do
  let selected ← (field.splitOn ',').mapM fun item => parseItem item minimum maximum names
  return selected.flatten.dedup.insertionSort (· ≤ ·)

structure CompiledCron where
  minutes : List Nat
  hours : List Nat
  days : List Nat
  months : List Nat
  weekdays : List Nat

/-- Compile a five-field cron expression. -/
def compileCron (expression : String) : Except Raised CompiledCron := do
  match (expression.toList.splitOnP Bytes.isSpace).filter (¬·.isEmpty) with
  | [minutes, hours, days, months, weekdays] =>
    return {
      minutes := ← parseField minutes 0 59
      hours := ← parseField hours 0 23
      days := ← parseField days 1 31
      months := ← parseField months 1 12 monthNames
      weekdays := ← parseField weekdays 0 6 weekdayNames }
  | _ => throw (.invalidSchedule "Cron expression must contain exactly five fields" [])

/-- The earliest instant of a wall time; none inside a gap. -/
def earliestCandidate (zone : Zone) (wall : Nat) : Option Nat :=
  let candidates := [zone.instant false wall, zone.instant true wall].filter fun candidate =>
    zone.wall candidate = wall
  candidates.min?

/-- Wall times of one day that a cron expression selects, in order. -/
def CompiledCron.wallTimes (compiled : CompiledCron) (day : Nat) : List Nat :=
  let date := calendarDate day
  if date.month ∈ compiled.months ∧ date.day ∈ compiled.days ∧ weekday day ∈ compiled.weekdays then
    compiled.hours.flatMap fun hour => compiled.minutes.map fun minute =>
      day * microsecondsPerDay + (hour * 60 + minute) * 60 * microsecondsPerSecond
  else
    []

/-- The first selected instant of a day after a bound. -/
def CompiledCron.firstOnDay (compiled : CompiledCron) (zone : Zone) (after day : Nat) :
    Option Nat :=
  (compiled.wallTimes day).findSome? fun wall =>
    (earliestCandidate zone wall).filter fun candidate => after < candidate

/-- Search a number of consecutive days. -/
def CompiledCron.search (compiled : CompiledCron) (zone : Zone) (after : Nat) :
    (days day : Nat) → Option Nat
  | 0, _ => none
  | days + 1, day =>
    (compiled.firstOnDay zone after day).or (compiled.search zone after days (day + 1))

/-- Whole seconds of a length of time whose quotient is rounded to a double: on long spans the last
microseconds of a second count as the next one. -/
def wholeSeconds (microseconds : Nat) : Nat :=
  let seconds := microseconds / microsecondsPerSecond
  let missing := microsecondsPerSecond - microseconds % microsecondsPerSecond
  -- Doubles between two powers of two differ by the lower one over `2 ^ 52`.
  if missing * 2 ^ (53 - seconds.log2) ≤ microsecondsPerSecond then seconds + 1 else seconds

/-- The first instant of a schedule strictly after a bound. -/
def nextRunAfter (zones : String → Zone) (schedule : Schedule) (after : Nat) :
    Except Raised (Option Nat) :=
  match schedule with
  | .once runAt => .ok (if after < runAt then some runAt else none)
  | .interval everySeconds startAt _ =>
    if after < startAt then
      .ok (some startAt)
    else
      let steps := max 1 (wholeSeconds (after - startAt) / everySeconds + 1)
      (later startAt (steps * everySeconds * microsecondsPerSecond : Nat)).map some
  | .cron expression timezone => do
    let compiled ← compileCron expression
    let zone := zones timezone
    let startDay := zone.wall after / microsecondsPerDay
    let endYear := yearOfDay startDay + maxCronSearchYears
    -- The last representable date ends the search before its horizon does.
    let stop := min (daysBeforeYear (endYear + 1)) calendarDays
    match compiled.search zone after (stop - startDay) startDay with
    | some found => return some found
    | none =>
      if calendarDays ≤ daysBeforeYear (endYear + 1) then
        throw (.overflowError "date value out of range")
      else
        throw (.invalidSchedule "Cron schedule has no run time within the supported search range"
          [("timezone", .text timezone)])

/-! ## Missed wakeups -/

/-- How missed schedule times become execution records. -/
inductive MisfireMode
  | skip
  | latest
  | catchUp
  deriving DecidableEq, Repr

theorem defaultGrace_nonneg : (0 : Int) ≤ 60 * microsecondsPerSecond := by decide

theorem defaultWindow_positive : (0 : Int) < 24 * 3600 * microsecondsPerSecond := by decide

theorem defaultCatchUp_positive : 1 ≤ 100 := by decide

/-- How task times missed while unavailable are materialised. -/
structure MisfirePolicy where
  mode : MisfireMode := .latest
  grace : Int := 60 * microsecondsPerSecond
  catchUpWindow : Int := 24 * 3600 * microsecondsPerSecond
  maxCatchUp : Nat := 100
  graceNonneg : 0 ≤ grace := by first | exact defaultGrace_nonneg | decide
  windowPositive : 0 < catchUpWindow := by first | exact defaultWindow_positive | decide
  catchUpPositive : 1 ≤ maxCatchUp := by first | exact defaultCatchUp_positive | decide
  deriving DecidableEq

/-- Due instants and the next wakeup of one materialisation. -/
structure MaterializedSchedule where
  dueAt : List Nat
  nextRunAt : Option Nat
  skippedBefore : Option Nat
  deriving DecidableEq

/-- The latest instant of an interval schedule between a due instant and now. -/
def latestIntervalDue (everySeconds firstDue now : Nat) : Nat :=
  let every := everySeconds * microsecondsPerSecond
  firstDue + (now - firstDue) / every * every

/-- Instants of a schedule after a cursor and up to now, at most `rounds` of them. -/
def scanMisfires (zones : String → Zone) (schedule : Schedule) (now : Nat) :
    (rounds cursor : Nat) → Except Raised (List Nat)
  | 0, _ =>
    .error (.invalidSchedule "Misfire scan exceeded its bounded candidate limit"
      [("limit", .number maxMisfireScan)])
  | rounds + 1, cursor => do
    match ← nextRunAfter zones schedule cursor with
    | none => return []
    | some candidate =>
      if now < candidate then
        return []
      else
        return candidate :: (← scanMisfires zones schedule now rounds candidate)

/-- Apply a misfire policy to one persisted wakeup. -/
def materializeSchedule (zones : String → Zone) (schedule : Schedule) (nextRunAt now : Nat)
    (policy : MisfirePolicy) : Except Raised MaterializedSchedule := do
  let firstDue := nextRunAt
  if now < firstDue then
    return { dueAt := [], nextRunAt := some firstDue, skippedBefore := none }
  let future ← nextRunAfter zones schedule now
  let graceBoundary ← later now (-policy.grace)
  let windowBoundary ← later now (-policy.catchUpWindow)
  match policy.mode, schedule with
  | .skip, _ =>
    if firstDue < graceBoundary then
      return { dueAt := [], nextRunAt := future, skippedBefore := some firstDue }
    else
      return { dueAt := [firstDue], nextRunAt := future, skippedBefore := none }
  | .latest, .interval everySeconds _ _ =>
    let latest := latestIntervalDue everySeconds firstDue now
    return {
      dueAt := if windowBoundary ≤ latest then [latest] else []
      nextRunAt := future
      skippedBefore := if latest ≠ firstDue then some firstDue else none }
  | mode, _ =>
    let scanStart := max firstDue windowBoundary
    let cursor ← later scanStart (-1)
    let dueTimes ← scanMisfires zones schedule now maxMisfireScan cursor
    let selected := match mode with
      | .catchUp => dueTimes.take policy.maxCatchUp
      | _ => dueTimes.drop (dueTimes.length - 1)
    return {
      dueAt := selected
      nextRunAt := future
      skippedBefore :=
        if firstDue < scanStart ∨ selected.length < dueTimes.length then some firstDue else none }

end Tinkerfin.Automation
