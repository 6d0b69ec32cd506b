import Mathlib.Order.Bounds.Basic
import Tinkerfin.Automation.CronFields

/-!
# Instants of a schedule

A schedule stands for a set of instants.  The search for the next instant walks through days, hours
and minutes of the wall clock; since the earliest instants of existing wall times come in the order of
the wall times, the first candidate behind the bound is the least one.
-/

namespace Tinkerfin.Automation

variable {zones : String → Zone} {zone : Zone} {compiled : CompiledCron} {after found day : Nat}

def microsecondsPerMinute : Nat := 60 * microsecondsPerSecond

/-- The wall time is a full minute that every field of the expression selects. -/
def CompiledCron.Matches (compiled : CompiledCron) (wall : Nat) : Prop :=
  let day := wall / microsecondsPerDay
  let minute := wall % microsecondsPerDay / microsecondsPerMinute
  wall % microsecondsPerMinute = 0 ∧ (calendarDate day).month ∈ compiled.months ∧
    (calendarDate day).day ∈ compiled.days ∧ weekday day ∈ compiled.weekdays ∧
      minute / 60 ∈ compiled.hours ∧ minute % 60 ∈ compiled.minutes

/-- The instants that a schedule stands for. -/
def Schedule.IsInstant (zones : String → Zone) : Schedule → Nat → Prop
  | .once runAt, instant => instant = runAt
  | .interval everySeconds startAt _, instant =>
    ∃ steps, instant = startAt + steps * (everySeconds * microsecondsPerSecond)
  | .cron expression timezone, instant =>
    ∃ compiled, compileCron expression = .ok compiled ∧
      ∃ wall, compiled.Matches wall ∧ earliestCandidate (zones timezone) wall = some instant

/-- What a zone of the timezone database promises: earliest instants follow the order of the wall
times that exist, and every instant is found under its own wall time. -/
structure Zone.Ordered (zone : Zone) : Prop where
  monotone : ∀ first second early late, first ≤ second →
    earliestCandidate zone first = some early → earliestCandidate zone second = some late →
      early ≤ late
  found : ∀ instant, ∃ fold, zone.instant fold (zone.wall instant) = instant

/-! ## Candidates -/

theorem wall_of_earliest {wall : Nat} (earliest : earliestCandidate zone wall = some found) :
    zone.wall found = wall := by
  have member := List.min?_mem earliest
  simpa using (List.mem_filter.mp member).2

/-- The wall time of an instant has a candidate that is not later. -/
theorem Zone.Ordered.earliest (ordered : zone.Ordered) (instant : Nat) :
    ∃ early, earliestCandidate zone (zone.wall instant) = some early ∧ early ≤ instant := by
  obtain ⟨fold, same⟩ := ordered.found instant
  have listed : instant ∈ [zone.instant false (zone.wall instant),
      zone.instant true (zone.wall instant)].filter fun candidate =>
        zone.wall candidate = zone.wall instant := by
    refine List.mem_filter.mpr ⟨?_, by simp⟩
    cases fold with
    | false => simp [same]
    | true => simp [same]
  cases least : earliestCandidate zone (zone.wall instant) with
  | none =>
    rw [earliestCandidate, List.min?_eq_none_iff] at least
    rw [least] at listed
    cases listed
  | some early => exact ⟨early, rfl, (List.min?_eq_some_iff.mp least).2 instant listed⟩

/-! ## One day -/

theorem mem_wallTimes (ordered : compiled.Ordered) {wall : Nat} :
    wall ∈ compiled.wallTimes day ↔ wall / microsecondsPerDay = day ∧ compiled.Matches wall := by
  unfold CompiledCron.wallTimes
  simp only
  split
  · next selected =>
      obtain ⟨month, dayOfMonth, dayOfWeek⟩ := selected
      simp only [List.mem_flatMap, List.mem_map]
      constructor
      · rintro ⟨hour, hourSelected, minute, minuteSelected, rfl⟩
        have hourBound := ordered.hours.below hour hourSelected
        have minuteBound := ordered.minutes.below minute minuteSelected
        have same : (day * microsecondsPerDay + (hour * 60 + minute) * 60 * microsecondsPerSecond) /
            microsecondsPerDay = day := by
          simp only [microsecondsPerDay, microsecondsPerSecond]
          omega
        refine ⟨same, ?_, by rwa [same], by rwa [same], by rwa [same], ?_, ?_⟩
        · simp only [microsecondsPerDay, microsecondsPerSecond, microsecondsPerMinute]
          omega
        · convert hourSelected using 1
          simp only [microsecondsPerDay, microsecondsPerSecond, microsecondsPerMinute]
          omega
        · convert minuteSelected using 1
          simp only [microsecondsPerDay, microsecondsPerSecond, microsecondsPerMinute]
          omega
      · rintro ⟨rfl, full, -, -, -, hour, minute⟩
        refine ⟨_, hour, _, minute, ?_⟩
        simp only [microsecondsPerDay, microsecondsPerSecond, microsecondsPerMinute] at full ⊢
        omega
  · next unselected =>
      refine iff_of_false List.not_mem_nil ?_
      rintro ⟨rfl, -, month, dayOfMonth, dayOfWeek, -⟩
      exact unselected ⟨month, dayOfMonth, dayOfWeek⟩

theorem wallTimes_sorted (ordered : compiled.Ordered) (day : Nat) :
    (compiled.wallTimes day).Pairwise (· < ·) := by
  unfold CompiledCron.wallTimes
  simp only
  split
  · rw [List.pairwise_flatMap]
    constructor
    · intro hour _
      refine ordered.minutes.sorted.map _ fun first second before => ?_
      simp only [microsecondsPerSecond]
      omega
    · refine ordered.hours.sorted.imp fun {first second} before early earlyMem late lateMem => ?_
      obtain ⟨minute, minuteSelected, rfl⟩ := List.mem_map.mp earlyMem
      obtain ⟨other, otherSelected, rfl⟩ := List.mem_map.mp lateMem
      have bound := ordered.minutes.below minute minuteSelected
      simp only [microsecondsPerSecond]
      omega
  · exact .nil

/-- No wall time among these has an earliest instant behind the bound. -/
def NoneAfter (zone : Zone) (after : Nat) (walls : Nat → Prop) : Prop :=
  ∀ wall, walls wall → ∀ instant, earliestCandidate zone wall = some instant → instant ≤ after

theorem firstOnDay_none (none : compiled.firstOnDay zone after day = none) :
    NoneAfter zone after (· ∈ compiled.wallTimes day) := by
  intro wall member instant earliest
  rw [CompiledCron.firstOnDay, List.findSome?_eq_none_iff] at none
  have skipped := none wall member
  rw [earliest] at skipped
  by_contra later
  simp [Option.filter, Nat.not_le.mp later] at skipped

theorem firstOnDay_some (ordered : compiled.Ordered)
    (first : compiled.firstOnDay zone after day = some found) :
    ∃ wall ∈ compiled.wallTimes day, earliestCandidate zone wall = some found ∧
      NoneAfter zone after fun other => other ∈ compiled.wallTimes day ∧ other < wall := by
  obtain ⟨early, wall, late, split, candidate, skipped⟩ := List.findSome?_eq_some_iff.mp first
  have sorted := wallTimes_sorted ordered day
  rw [split] at sorted ⊢
  refine ⟨wall, by simp, (Option.filter_eq_some_iff.mp candidate).1, ?_⟩
  rintro other ⟨member, before⟩ instant earliest
  rcases List.mem_append.mp member with here | there
  · have passed := skipped other here
    rw [earliest] at passed
    by_contra later
    simp [Option.filter, Nat.not_le.mp later] at passed
  · have above : wall ≤ other := by
      rcases List.mem_cons.mp there with rfl | behind
      · exact le_rfl
      · exact ((List.pairwise_cons.mp (List.pairwise_append.mp sorted).2.1).1 other behind).le
    omega

/-! ## The search -/

theorem search_none (ordered : compiled.Ordered) {days : Nat}
    (none : compiled.search zone after days day = none) :
    NoneAfter zone after fun wall => compiled.Matches wall ∧ day ≤ wall / microsecondsPerDay ∧
      wall / microsecondsPerDay < day + days := by
  induction days generalizing day with
  | zero =>
    rintro wall ⟨-, low, high⟩
    omega
  | succ days induction =>
    rw [CompiledCron.search, Option.or_eq_none_iff] at none
    rintro wall ⟨selected, low, high⟩ instant earliest
    by_cases today : wall / microsecondsPerDay = day
    · exact firstOnDay_none none.1 wall ((mem_wallTimes ordered).mpr ⟨today, selected⟩) instant
        earliest
    · exact induction none.2 wall ⟨selected, by omega, by omega⟩ instant earliest

theorem search_some (ordered : compiled.Ordered) {days : Nat}
    (first : compiled.search zone after days day = some found) :
    ∃ wall, compiled.Matches wall ∧ day ≤ wall / microsecondsPerDay ∧
      earliestCandidate zone wall = some found ∧
        NoneAfter zone after fun other =>
          compiled.Matches other ∧ day ≤ other / microsecondsPerDay ∧ other < wall := by
  induction days generalizing day with
  | zero => cases first
  | succ days induction =>
    rw [CompiledCron.search, Option.or_eq_some_iff] at first
    rcases first with today | ⟨skipped, later⟩
    · obtain ⟨wall, member, earliest, before⟩ := firstOnDay_some ordered today
      obtain ⟨same, selected⟩ := (mem_wallTimes ordered).mp member
      refine ⟨wall, selected, same.ge, earliest, ?_⟩
      rintro other ⟨otherSelected, low, below⟩ instant earliestOther
      have high : other / microsecondsPerDay ≤ wall / microsecondsPerDay :=
        Nat.div_le_div_right below.le
      refine before other ⟨(mem_wallTimes ordered).mpr ⟨?_, otherSelected⟩, below⟩ instant
        earliestOther
      omega
    · obtain ⟨wall, selected, low, earliest, before⟩ := induction later
      refine ⟨wall, selected, by omega, earliest, ?_⟩
      rintro other ⟨otherSelected, otherLow, below⟩ instant earliestOther
      by_cases today : other / microsecondsPerDay = day
      · exact firstOnDay_none skipped other
          ((mem_wallTimes ordered).mpr ⟨today, otherSelected⟩) instant earliestOther
      · exact before other ⟨otherSelected, by omega, below⟩ instant earliestOther

end Tinkerfin.Automation
