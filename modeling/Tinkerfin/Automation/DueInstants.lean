import Tinkerfin.Automation.Schedules

/-!
# What one wakeup materialises

The next instant of a schedule lies strictly after its bound.  The due instants of a wakeup therefore
increase strictly from the persisted wakeup to the present, and the next wakeup lies after all of them.
-/

namespace Tinkerfin.Automation

variable {zones : String → Zone} {schedule : Schedule} {after found : Nat}

/-! ## The next instant -/

theorem CompiledCron.firstOnDay_gt {compiled : CompiledCron} {zone : Zone} {day : Nat}
    (first : compiled.firstOnDay zone after day = some found) : after < found := by
  obtain ⟨wall, -, candidate⟩ := List.exists_of_findSome?_eq_some first
  simpa using (Option.filter_eq_some_iff.mp candidate).2

theorem CompiledCron.search_gt {compiled : CompiledCron} {zone : Zone} {days day : Nat}
    (first : compiled.search zone after days day = some found) : after < found := by
  induction days generalizing day with
  | zero => cases first
  | succ days ih =>
    rw [CompiledCron.search, Option.or_eq_some_iff] at first
    rcases first with today | ⟨-, later⟩
    · exact firstOnDay_gt today
    · exact ih later

theorem le_wholeSeconds (microseconds : Nat) :
    microseconds / microsecondsPerSecond ≤ wholeSeconds microseconds := by
  simp only [wholeSeconds]
  split <;> omega

/-- The first multiple of a period behind an instant. -/
theorem nextPeriod_gt {startAt everySeconds : Nat} (started : startAt ≤ after)
    (positive : 0 < everySeconds) :
    after < startAt + max 1 (wholeSeconds (after - startAt) / everySeconds + 1) * everySeconds *
      microsecondsPerSecond := by
  have counted := le_wholeSeconds (after - startAt)
  generalize wholeSeconds (after - startAt) = seconds at counted
  have steps : max 1 (seconds / everySeconds + 1) = seconds / everySeconds + 1 :=
    max_eq_right (Nat.le_add_left 1 _)
  have passed : seconds < (seconds / everySeconds + 1) * everySeconds := by
    rw [Nat.add_mul, Nat.one_mul]
    exact Nat.lt_div_mul_add positive
  have reached := Nat.mul_le_mul_right microsecondsPerSecond (Nat.succ_le_of_lt passed)
  have elapsed : after - startAt < (seconds + 1) * microsecondsPerSecond :=
    (Nat.div_lt_iff_lt_mul (by decide)).mp (Nat.lt_succ_of_le counted)
  rw [steps]
  simp only [microsecondsPerSecond] at reached elapsed ⊢
  omega

/-- The next instant of a schedule lies strictly after the bound. -/
theorem nextRunAfter_gt (next : nextRunAfter zones schedule after = .ok (some found)) :
    after < found := by
  cases schedule with
  | once runAt =>
    simp only [nextRunAfter, Except.ok.injEq] at next
    split at next <;> simp_all
  | interval everySeconds startAt bounded =>
    have positive : 0 < everySeconds := Nat.lt_of_lt_of_le (by decide) bounded.1
    simp only [nextRunAfter] at next
    split at next
    · next early => exact Option.some.inj (Except.ok.inj next) ▸ early
    · next started =>
        have passed := nextPeriod_gt (Nat.not_lt.mp started) positive
        generalize max 1 (wholeSeconds (after - startAt) / everySeconds + 1) * everySeconds *
          microsecondsPerSecond = elapsed at passed next
        cases moved : later startAt elapsed with
        | error raised => rw [moved] at next; cases next
        | ok instant =>
          rw [moved] at next
          obtain rfl := Option.some.inj (Except.ok.inj next)
          have sum := (later_eq_ok.mp moved).1
          omega
  | cron expression timezone =>
    simp only [nextRunAfter] at next
    cases compiled : compileCron expression with
    | error raised => simp [compiled, bind, Except.bind] at next
    | ok cron =>
      simp only [compiled, bind, Except.bind] at next
      split at next
      · next first =>
          obtain rfl := Option.some.inj (Except.ok.inj next)
          exact CompiledCron.search_gt first
      · split at next <;> cases next

/-! ## Due instants -/

/-- Instants that increase strictly between two bounds, both included. -/
structure Increasing (low high : Nat) (instants : List Nat) : Prop where
  ordered : instants.Pairwise (· < ·)
  above : ∀ instant ∈ instants, low ≤ instant
  below : ∀ instant ∈ instants, instant ≤ high

namespace Increasing

variable {low high : Nat} {instants : List Nat}

theorem nil : Increasing low high [] := ⟨.nil, by simp, by simp⟩

theorem singleton {instant : Nat} (above : low ≤ instant) (below : instant ≤ high) :
    Increasing low high [instant] :=
  ⟨List.pairwise_singleton _ _, by simpa using above, by simpa using below⟩

theorem sublist {kept : List Nat} (increasing : Increasing low high instants)
    (part : kept.Sublist instants) : Increasing low high kept where
  ordered := increasing.ordered.sublist part
  above instant member := increasing.above instant (part.subset member)
  below instant member := increasing.below instant (part.subset member)

theorem lower {lowest : Nat} (increasing : Increasing low high instants) (wider : lowest ≤ low) :
    Increasing lowest high instants where
  ordered := increasing.ordered
  above instant member := wider.trans (increasing.above instant member)
  below := increasing.below

theorem cons {instant : Nat} (increasing : Increasing (instant + 1) high instants)
    (above : low ≤ instant) (below : instant ≤ high) : Increasing low high (instant :: instants) where
  ordered := List.pairwise_cons.mpr ⟨fun later member => increasing.above later member,
    increasing.ordered⟩
  above later member := by
    rcases List.mem_cons.mp member with rfl | member
    · exact above
    · exact above.trans ((Nat.le_succ _).trans (increasing.above later member))
  below later member := by
    rcases List.mem_cons.mp member with rfl | member
    · exact below
    · exact increasing.below later member

end Increasing

theorem scanMisfires_increasing {now rounds cursor : Nat} {instants : List Nat}
    (scanned : scanMisfires zones schedule now rounds cursor = .ok instants) :
    Increasing (cursor + 1) now instants := by
  induction rounds generalizing cursor instants with
  | zero => cases scanned
  | succ rounds ih =>
    cases next : nextRunAfter zones schedule cursor with
    | error raised => simp [scanMisfires, next, bind, Except.bind] at scanned
    | ok candidate =>
      simp only [scanMisfires, next, bind, Except.bind] at scanned
      cases candidate with
      | none => exact Except.ok.inj scanned ▸ .nil
      | some candidate =>
        simp only at scanned
        split at scanned
        · exact Except.ok.inj scanned ▸ .nil
        · next due =>
            cases rest : scanMisfires zones schedule now rounds candidate with
            | error raised => simp [rest] at scanned
            | ok later =>
              rw [rest] at scanned
              exact Except.ok.inj scanned ▸
                (ih rest).cons (nextRunAfter_gt next) (Nat.not_lt.mp due)

/-- What a wakeup materialises: due instants from the wakeup up to now, and a next wakeup that lies
after all of them and not before the present one. -/
structure MaterializedSchedule.Sound (materialized : MaterializedSchedule) (firstDue now : Nat) :
    Prop where
  due : Increasing firstDue now materialized.dueAt
  ahead : ∀ next, materialized.nextRunAt = some next →
    firstDue ≤ next ∧ ∀ instant ∈ materialized.dueAt, instant < next

theorem MaterializedSchedule.Sound.of_future {materialized : MaterializedSchedule}
    {firstDue now : Nat} (due : Increasing firstDue now materialized.dueAt)
    (started : firstDue ≤ now)
    (future : nextRunAfter zones schedule now = .ok materialized.nextRunAt) :
    materialized.Sound firstDue now where
  due := due
  ahead next waits := by
    have ahead := nextRunAfter_gt (waits ▸ future)
    exact ⟨started.trans ahead.le, fun instant member => (due.below instant member).trans_lt ahead⟩

theorem latestIntervalDue_between (everySeconds : Nat) {firstDue now : Nat}
    (started : firstDue ≤ now) :
    firstDue ≤ latestIntervalDue everySeconds firstDue now ∧
      latestIntervalDue everySeconds firstDue now ≤ now := by
  have covered := Nat.div_mul_le_self (now - firstDue) (everySeconds * microsecondsPerSecond)
  simp only [latestIntervalDue]
  omega

/-- A scan behind the misfire window selects some of the instants it finds. -/
theorem scan_sound {firstDue windowBoundary now : Nat} {next : Option Nat}
    {selected : List Nat → List Nat} {skipped : List Nat → Option Nat}
    {materialized : MaterializedSchedule} (part : ∀ instants, (selected instants).Sublist instants)
    (started : firstDue ≤ now) (future : nextRunAfter zones schedule now = .ok next)
    (outcome : (do
      let cursor ← later (max firstDue windowBoundary) (-1)
      let dueTimes ← scanMisfires zones schedule now maxMisfireScan cursor
      return {
        dueAt := selected dueTimes
        nextRunAt := next
        skippedBefore := skipped dueTimes } : Except Raised MaterializedSchedule) =
      .ok materialized) :
    materialized.Sound firstDue now := by
  cases start : later (max firstDue windowBoundary) (-1) with
  | error raised => simp [start, bind, Except.bind] at outcome
  | ok cursor =>
    rw [start] at outcome
    generalize maxMisfireScan = rounds at outcome
    cases scanned : scanMisfires zones schedule now rounds cursor with
    | error raised => simp [scanned, bind, Except.bind] at outcome
    | ok dueTimes =>
      simp only [scanned, bind, Except.bind] at outcome
      obtain rfl := Except.ok.inj outcome
      have behind := (later_eq_ok.mp start).1
      have increasing : Increasing firstDue now dueTimes :=
        (scanMisfires_increasing scanned).lower (by omega)
      exact .of_future (increasing.sublist (part dueTimes)) started future

theorem materializeSchedule_sound {firstDue now : Nat} {policy : MisfirePolicy}
    {materialized : MaterializedSchedule}
    (outcome : materializeSchedule zones schedule firstDue now policy = .ok materialized) :
    materialized.Sound firstDue now := by
  simp only [materializeSchedule] at outcome
  split at outcome
  · next early =>
      obtain rfl := Except.ok.inj outcome
      exact ⟨.nil, fun next waits => by simp_all⟩
  · next due =>
      have started : firstDue ≤ now := Nat.not_lt.mp due
      cases future : nextRunAfter zones schedule now with
      | error raised => simp [future, bind, Except.bind] at outcome
      | ok next =>
      cases grace : later now (-policy.grace) with
      | error raised => simp [future, grace, bind, Except.bind] at outcome
      | ok graceBoundary =>
      cases window : later now (-policy.catchUpWindow) with
      | error raised => simp [future, grace, window, bind, Except.bind] at outcome
      | ok windowBoundary =>
      rw [future, grace, window] at outcome
      cases mode : policy.mode with
      | skip =>
        simp only [mode, bind, Except.bind] at outcome
        split at outcome
        · exact Except.ok.inj outcome ▸ .of_future .nil started future
        · exact Except.ok.inj outcome ▸ .of_future (.singleton le_rfl started) started future
      | catchUp =>
        rw [mode] at outcome
        exact scan_sound (fun _ => List.take_sublist _ _) started future outcome
      | latest =>
        rw [mode] at outcome
        cases schedule with
        | interval everySeconds startAt bounded =>
          obtain rfl := Except.ok.inj outcome
          obtain ⟨above, below⟩ := latestIntervalDue_between everySeconds started
          refine .of_future ?_ started future
          simp only
          split
          · exact .singleton above below
          · exact .nil
        | once | cron =>
          exact scan_sound (fun _ => List.drop_sublist _ _) started future outcome

end Tinkerfin.Automation
