import Tinkerfin.Automation.ScheduleInstants

/-!
# The next instant of a schedule

Behind every bound the next instant is the least one that the schedule stands for.  A preview therefore
lists consecutive instants.
-/

namespace Tinkerfin.Automation

variable {zones : String → Zone} {schedule : Schedule} {after found : Nat}

/-! ## Cron expressions -/

/-- The day on which the search of a cron schedule ends. -/
def cronSearchEnd (zone : Zone) (after : Nat) : Nat :=
  min (daysBeforeYear (yearOfDay (zone.wall after / microsecondsPerDay) + maxCronSearchYears + 1))
    calendarDays

theorem passed_of_day_lt {zone : Zone} (ordered : zone.Ordered) {wall instant : Nat}
    (earliest : earliestCandidate zone wall = some instant)
    (before : wall / microsecondsPerDay < zone.wall after / microsecondsPerDay) :
    instant ≤ after := by
  have below : wall < zone.wall after := by
    by_contra above
    exact absurd (Nat.div_le_div_right (c := microsecondsPerDay) (Nat.not_lt.mp above)) (by omega)
  obtain ⟨early, earliestAfter, passed⟩ := ordered.earliest after
  exact (ordered.monotone _ _ _ _ below.le earliest earliestAfter).trans passed

theorem cron_least {zone : Zone} (ordered : zone.Ordered) {compiled : CompiledCron}
    (fields : compiled.Ordered) {days : Nat}
    (first : compiled.search zone after days (zone.wall after / microsecondsPerDay) = some found) :
    IsLeast {instant | (∃ wall, compiled.Matches wall ∧
      earliestCandidate zone wall = some instant) ∧ after < instant} found := by
  obtain ⟨wall, selected, low, earliest, before⟩ := search_some fields first
  refine ⟨⟨⟨wall, selected, earliest⟩, CompiledCron.search_gt first⟩, ?_⟩
  rintro instant ⟨⟨other, otherSelected, otherEarliest⟩, later⟩
  by_contra smaller
  have below : other < wall := by
    by_contra above
    exact smaller (ordered.monotone _ _ _ _ (Nat.not_lt.mp above) earliest otherEarliest)
  rcases Nat.lt_or_ge (other / microsecondsPerDay) (zone.wall after / microsecondsPerDay) with
    yesterday | today
  · exact absurd (passed_of_day_lt ordered otherEarliest yesterday) (Nat.not_le.mpr later)
  · exact absurd (before other ⟨otherSelected, today, below⟩ instant otherEarliest)
      (Nat.not_le.mpr later)

theorem cron_none {zone : Zone} (ordered : zone.Ordered) {compiled : CompiledCron}
    (fields : compiled.Ordered) {stop : Nat}
    (none : compiled.search zone after (stop - zone.wall after / microsecondsPerDay)
      (zone.wall after / microsecondsPerDay) = none) {wall instant : Nat}
    (selected : compiled.Matches wall) (earliest : earliestCandidate zone wall = some instant)
    (inside : wall / microsecondsPerDay < stop) : instant ≤ after := by
  rcases Nat.lt_or_ge (wall / microsecondsPerDay) (zone.wall after / microsecondsPerDay) with
    yesterday | today
  · exact passed_of_day_lt ordered earliest yesterday
  · exact search_none fields none wall ⟨selected, today, by omega⟩ instant earliest

/-! ## Intervals -/

/-- The quotient that counts whole seconds is not rounded up. -/
def ExactSeconds (microseconds : Nat) : Prop :=
  wholeSeconds microseconds = microseconds / microsecondsPerSecond

instance (microseconds : Nat) : Decidable (ExactSeconds microseconds) :=
  inferInstanceAs (Decidable (_ = _))

/-- Whole seconds of the calendar are counted exactly. -/
theorem exactSeconds_of_whole {seconds : Nat} (representable : seconds < 2 ^ 53) :
    ExactSeconds (seconds * microsecondsPerSecond) := by
  have none : seconds * microsecondsPerSecond % microsecondsPerSecond = 0 := Nat.mul_mod_left _ _
  have all : seconds * microsecondsPerSecond / microsecondsPerSecond = seconds :=
    Nat.mul_div_cancel _ (by decide)
  have bits : seconds.log2 < 53 := by
    rcases Nat.eq_zero_or_pos seconds with rfl | positive
    · decide
    · exact (Nat.log2_lt positive.ne').mpr representable
  have power : 2 ^ 1 ≤ 2 ^ (53 - seconds.log2) := Nat.pow_le_pow_right (by decide) (by omega)
  have far : ¬microsecondsPerSecond * 2 ^ (53 - seconds.log2) ≤ microsecondsPerSecond := by
    have doubled := Nat.mul_le_mul_left microsecondsPerSecond power
    have positive : 0 < microsecondsPerSecond := by decide
    omega
  rw [ExactSeconds, wholeSeconds]
  simp only [none, all, Nat.sub_zero]
  rw [if_neg far]

/-- The first instant of a running interval schedule behind a bound. -/
theorem interval_least {everySeconds startAt : Nat} (positive : 0 < everySeconds)
    (started : startAt ≤ after) (exact : ExactSeconds (after - startAt)) :
    IsLeast {instant | (∃ steps, instant = startAt + steps * (everySeconds * microsecondsPerSecond)) ∧
      after < instant}
      (startAt + max 1 (wholeSeconds (after - startAt) / everySeconds + 1) * everySeconds *
        microsecondsPerSecond) := by
  refine ⟨⟨⟨_, by rw [Nat.mul_assoc]⟩, nextPeriod_gt started positive⟩, ?_⟩
  rintro instant ⟨⟨steps, rfl⟩, later⟩
  have counted : wholeSeconds (after - startAt) < steps * everySeconds := by
    rw [exact, Nat.div_lt_iff_lt_mul (by decide), Nat.mul_assoc]
    omega
  have enough : max 1 (wholeSeconds (after - startAt) / everySeconds + 1) ≤ steps := by
    have below := (Nat.div_lt_iff_lt_mul positive).mpr counted
    exact max_le (Nat.lt_of_le_of_lt (Nat.zero_le _) below) below
  have scaled := Nat.mul_le_mul_right (everySeconds * microsecondsPerSecond) enough
  rw [Nat.mul_assoc]
  omega

theorem lastInstant_lt_of_error {instant elapsed : Nat} {raised : Raised}
    (outcome : later instant elapsed = .error raised) : lastInstant < instant + elapsed := by
  by_contra representable
  have moved : later instant elapsed = .ok (instant + elapsed) :=
    later_eq_ok.mpr ⟨by omega, Nat.not_lt.mp representable⟩
  cases moved.symm.trans outcome

/-! ## All schedules -/

/-- The instants that the search covers. -/
def Schedule.InHorizon (zones : String → Zone) (after : Nat) : Schedule → Nat → Prop
  | .once _, _ => True
  | .interval .., instant => instant ≤ lastInstant
  | .cron _ timezone, instant =>
    (zones timezone).wall instant / microsecondsPerDay < cronSearchEnd (zones timezone) after

/-- The timezone of the schedule keeps the promises of the database. -/
def Schedule.Zoned (zones : String → Zone) : Schedule → Prop
  | .cron _ timezone => (zones timezone).Ordered
  | _ => True

/-- The time since the anchor of an interval is counted exactly. -/
def Schedule.Counted (after : Nat) : Schedule → Prop
  | .interval _ startAt _ => startAt ≤ after → ExactSeconds (after - startAt)
  | _ => True

/-- What the search for the next instant promises. -/
def NextRunSpec (zones : String → Zone) (schedule : Schedule) (after : Nat) :
    Except Raised (Option Nat) → Prop
  | .ok (some found) => IsLeast {instant | schedule.IsInstant zones instant ∧ after < instant} found
  | .ok none => ∀ instant, schedule.IsInstant zones instant → instant ≤ after
  | .error _ => ∀ instant, schedule.IsInstant zones instant →
      schedule.InHorizon zones after instant → instant ≤ after

theorem nextRunAfter_cron (expression timezone : String) (ordered : (zones timezone).Ordered) :
    NextRunSpec zones (.cron expression timezone) after
      (nextRunAfter zones (.cron expression timezone) after) := by
  simp only [nextRunAfter]
  cases outcome : compileCron expression with
  | error raised =>
    rintro instant ⟨compiled, again, -⟩
    cases outcome.symm.trans again
  | ok compiled =>
    have fields := compileCron_ordered outcome
    simp only [bind, Except.bind]
    split
    · next first =>
        obtain ⟨⟨⟨wall, selected, earliest⟩, later⟩, least⟩ := cron_least ordered fields first
        refine ⟨⟨⟨compiled, outcome, wall, selected, earliest⟩, later⟩, ?_⟩
        rintro instant ⟨⟨again, same, others⟩, behind⟩
        obtain rfl := Except.ok.inj (outcome.symm.trans same)
        exact least ⟨others, behind⟩
    · next nothing =>
        have passed (instant : Nat)
            (member : (Schedule.cron expression timezone).IsInstant zones instant)
            (inside : (Schedule.cron expression timezone).InHorizon zones after instant) :
            instant ≤ after := by
          obtain ⟨again, same, wall, selected, earliest⟩ := member
          obtain rfl := Except.ok.inj (outcome.symm.trans same)
          refine cron_none ordered fields nothing selected earliest ?_
          rw [← wall_of_earliest earliest]
          exact inside
        split <;> exact passed

/-- The next instant is the least one behind the bound; without one the search covers none. -/
theorem nextRunAfter_spec (schedule : Schedule) (after : Nat) (zoned : schedule.Zoned zones)
    (counted : schedule.Counted after) :
    NextRunSpec zones schedule after (nextRunAfter zones schedule after) := by
  cases schedule with
  | once runAt =>
    simp only [nextRunAfter]
    split
    · next waits =>
        refine ⟨⟨rfl, waits⟩, ?_⟩
        rintro instant ⟨rfl, -⟩
        exact le_rfl
    · next passed =>
        rintro instant rfl
        exact Nat.not_lt.mp passed
  | interval everySeconds startAt bounded =>
    have positive : 0 < everySeconds := Nat.lt_of_lt_of_le (by decide) bounded.1
    simp only [nextRunAfter]
    split
    · next early =>
        refine ⟨⟨⟨0, by simp⟩, early⟩, ?_⟩
        rintro instant ⟨⟨steps, rfl⟩, -⟩
        exact Nat.le_add_right _ _
    · next started =>
        have least := interval_least positive (Nat.not_lt.mp started)
          (counted (Nat.not_lt.mp started))
        generalize max 1 (wholeSeconds (after - startAt) / everySeconds + 1) * everySeconds *
          microsecondsPerSecond = elapsed at least
        cases moved : later startAt elapsed with
        | error raised =>
          rintro instant member inside
          by_contra behind
          have reached := least.2 ⟨member, Nat.not_le.mp behind⟩
          have beyond := lastInstant_lt_of_error moved
          simp only [Schedule.InHorizon] at inside
          omega
        | ok instant =>
          have sum : instant = startAt + elapsed := by
            have sum := (later_eq_ok.mp moved).1
            omega
          rw [sum]
          exact least
  | cron expression timezone => exact nextRunAfter_cron expression timezone zoned

/-! ## Previews -/

/-- Follow the instants of a schedule from a cursor on. -/
def previewFrom (zones : String → Zone) (schedule : Schedule) :
    (count cursor : Nat) → Except Raised (List Nat)
  | 0, _ => .ok []
  | count + 1, cursor => do
    match ← nextRunAfter zones schedule cursor with
    | none => return []
    | some candidate => return candidate :: (← previewFrom zones schedule count candidate)

/-- A bounded list of the instants behind a bound. -/
def previewSchedule (zones : String → Zone) (schedule : Schedule) (after : Nat) (count : Int := 5) :
    Except Raised (List Nat) :=
  if 1 ≤ count ∧ count ≤ 100 then
    previewFrom zones schedule count.toNat after
  else
    .error (.valueError "count must be between 1 and 100")

/-- Each instant of the list is the least one behind the instant before it. -/
def Consecutive (zones : String → Zone) (schedule : Schedule) : (after : Nat) → List Nat → Prop
  | _, [] => True
  | after, instant :: instants =>
    IsLeast {other | schedule.IsInstant zones other ∧ after < other} instant ∧
      Consecutive zones schedule instant instants

/-- Behind an instant that the schedule has reached the time since the anchor is exact. -/
theorem counted_of_next (zoned : schedule.Zoned zones) (counted : schedule.Counted after)
    (next : nextRunAfter zones schedule after = .ok (some found)) : schedule.Counted found := by
  cases schedule with
  | once runAt => trivial
  | cron expression timezone => trivial
  | interval everySeconds startAt bounded =>
    have least := nextRunAfter_spec _ after zoned counted
    rw [next] at least
    obtain ⟨⟨⟨steps, same⟩, -⟩, -⟩ := least
    intro started
    have whole : found - startAt = steps * everySeconds * microsecondsPerSecond := by
      rw [Nat.mul_assoc]
      omega
    rw [whole]
    have representable : found ≤ lastInstant ∨ found = startAt := by
      simp only [nextRunAfter] at next
      split at next
      · exact .inr (Option.some.inj (Except.ok.inj next)).symm
      · cases moved : later startAt (max 1 (wholeSeconds (after - startAt) / everySeconds + 1) *
          everySeconds * microsecondsPerSecond : Nat) with
        | error raised => rw [moved] at next; cases next
        | ok instant =>
          rw [moved] at next
          obtain rfl := Option.some.inj (Except.ok.inj next)
          exact .inl (later_eq_ok.mp moved).2
    refine exactSeconds_of_whole ?_
    simp only [microsecondsPerSecond, lastInstant] at whole representable
    omega

theorem previewFrom_consecutive {count : Nat} {instants : List Nat} (zoned : schedule.Zoned zones)
    (counted : schedule.Counted after)
    (listed : previewFrom zones schedule count after = .ok instants) :
    Consecutive zones schedule after instants ∧ (instants.length = count ∨
      ∀ instant, schedule.IsInstant zones instant → instant ≤ instants.getLast?.getD after) := by
  induction count generalizing after instants with
  | zero =>
    obtain rfl := Except.ok.inj listed
    exact ⟨trivial, .inl rfl⟩
  | succ count induction =>
    have spec := nextRunAfter_spec schedule after zoned counted
    rw [previewFrom] at listed
    cases next : nextRunAfter zones schedule after with
    | error raised => simp [next, bind, Except.bind] at listed
    | ok candidate =>
      rw [next] at spec
      simp only [next, bind, Except.bind] at listed
      cases candidate with
      | none =>
        obtain rfl := Except.ok.inj listed
        exact ⟨trivial, .inr spec⟩
      | some candidate =>
        cases rest : previewFrom zones schedule count candidate with
        | error raised => simp [rest] at listed
        | ok later =>
          simp only [rest] at listed
          obtain rfl := Except.ok.inj listed
          obtain ⟨consecutive, complete⟩ :=
            induction (counted_of_next zoned counted next) rest
          refine ⟨⟨spec, consecutive⟩, complete.imp (congrArg Nat.succ) fun passed => ?_⟩
          simpa [List.getLast?_cons] using passed

/-- Consecutive instants increase and leave nothing out. -/
theorem Consecutive.spec {instants : List Nat} (consecutive : Consecutive zones schedule after instants) :
    instants.Pairwise (· < ·) ∧ ∀ instant, instant ∈ instants ↔ schedule.IsInstant zones instant ∧
      after < instant ∧ instant ≤ instants.getLast?.getD after := by
  induction instants generalizing after with
  | nil =>
    refine ⟨.nil, fun instant => iff_of_false List.not_mem_nil ?_⟩
    rintro ⟨-, later, before⟩
    exact absurd before (Nat.not_le.mpr later)
  | cons first rest induction =>
    obtain ⟨⟨⟨member, later⟩, least⟩, consecutive⟩ := consecutive
    obtain ⟨sorted, complete⟩ := induction consecutive
    have bound : (first :: rest).getLast?.getD after = rest.getLast?.getD first := by
      simp [List.getLast?_cons]
    have ahead (instant : Nat) (listed : instant ∈ rest) : first < instant :=
      ((complete instant).mp listed).2.1
    have reached : first ≤ rest.getLast?.getD first := by
      cases last : rest.getLast? with
      | none => exact le_rfl
      | some instant => exact (ahead instant (List.mem_of_getLast? last)).le
    refine ⟨List.pairwise_cons.mpr ⟨ahead, sorted⟩, fun instant => ?_⟩
    rw [bound, List.mem_cons, complete instant]
    constructor
    · rintro (rfl | ⟨listed, behind, before⟩)
      · exact ⟨member, later, reached⟩
      · exact ⟨listed, later.trans behind, before⟩
    · rintro ⟨listed, behind, before⟩
      rcases (least ⟨listed, behind⟩).eq_or_lt with rfl | beyond
      · exact .inl rfl
      · exact .inr ⟨listed, beyond, before⟩

/-- Coordinated universal time has neither gaps nor folds. -/
def utc : Zone := ⟨id, fun _ wall => wall⟩

theorem earliestCandidate_utc (wall : Nat) : earliestCandidate utc wall = some wall := by
  simp [earliestCandidate, utc, List.min?]

theorem utc_ordered : utc.Ordered where
  monotone first second early late below earlyOf lateOf := by
    rw [earliestCandidate_utc] at earlyOf lateOf
    obtain rfl := Option.some.inj earlyOf
    obtain rfl := Option.some.inj lateOf
    exact below
  found instant := ⟨false, rfl⟩

end Tinkerfin.Automation
