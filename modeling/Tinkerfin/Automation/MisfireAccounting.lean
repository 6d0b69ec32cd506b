import Tinkerfin.Automation.NextRun

/-!
# Accounting of missed instants

A wakeup turns the instants of its schedule since the persisted wakeup into due instants, or reports
that it skipped some.  Over successive wakeups no instant is due twice.
-/

namespace Tinkerfin.Automation

variable {zones : String → Zone} {schedule : Schedule} {firstDue now : Nat} {policy : MisfirePolicy}
  {materialized : MaterializedSchedule}

/-- The anchor of an interval is near enough for its seconds to be counted exactly. -/
def Schedule.Recent (now : Nat) : Schedule → Prop
  | .interval _ startAt _ => now < startAt + 2 ^ 34 * microsecondsPerSecond
  | _ => True

theorem exactSeconds_of_lt {microseconds : Nat}
    (near : microseconds < 2 ^ 34 * microsecondsPerSecond) : ExactSeconds microseconds := by
  have seconds : microseconds / microsecondsPerSecond < 2 ^ 34 :=
    (Nat.div_lt_iff_lt_mul (by decide)).mpr near
  have bits : (microseconds / microsecondsPerSecond).log2 < 34 := by
    rcases Nat.eq_zero_or_pos (microseconds / microsecondsPerSecond) with none | some
    · rw [none]
      decide
    · exact (Nat.log2_lt some.ne').mpr seconds
  have power : 2 ^ 20 ≤ 2 ^ (53 - (microseconds / microsecondsPerSecond).log2) :=
    Nat.pow_le_pow_right (by decide) (by omega)
  have missing : 1 ≤ microsecondsPerSecond - microseconds % microsecondsPerSecond := by
    have rest := Nat.mod_lt microseconds (by decide : 0 < microsecondsPerSecond)
    omega
  have far := Nat.mul_le_mul missing power
  rw [ExactSeconds, wholeSeconds, if_neg]
  simp only [microsecondsPerSecond] at far ⊢
  omega

theorem Schedule.Recent.counted (recent : schedule.Recent now) {after : Nat} (before : after ≤ now) :
    schedule.Counted after := by
  cases schedule with
  | once runAt => trivial
  | cron expression timezone => trivial
  | interval everySeconds startAt bounded =>
    intro started
    refine exactSeconds_of_lt ?_
    simp only [Schedule.Recent] at recent
    omega

/-! ## Scans -/

/-- A scan finds every instant behind its cursor up to now. -/
theorem mem_scanMisfires (zoned : schedule.Zoned zones) (recent : schedule.Recent now)
    {rounds cursor : Nat} {instants : List Nat}
    (scanned : scanMisfires zones schedule now rounds cursor = .ok instants) (begun : cursor ≤ now)
    (instant : Nat) :
    instant ∈ instants ↔ schedule.IsInstant zones instant ∧ cursor < instant ∧ instant ≤ now := by
  induction rounds generalizing cursor instants with
  | zero => cases scanned
  | succ rounds induction =>
    have spec := nextRunAfter_spec schedule cursor zoned (recent.counted begun)
    cases next : nextRunAfter zones schedule cursor with
    | error raised => simp [scanMisfires, next, bind, Except.bind] at scanned
    | ok candidate =>
      rw [next] at spec
      simp only [scanMisfires, next, bind, Except.bind] at scanned
      cases candidate with
      | none =>
        obtain rfl := Except.ok.inj scanned
        refine iff_of_false List.not_mem_nil ?_
        rintro ⟨member, behind, -⟩
        exact absurd (spec instant member) (Nat.not_le.mpr behind)
      | some candidate =>
        obtain ⟨⟨member, later⟩, least⟩ := spec
        simp only at scanned
        split at scanned
        · next future =>
            obtain rfl := Except.ok.inj scanned
            refine iff_of_false List.not_mem_nil ?_
            rintro ⟨other, behind, due⟩
            have reached := least ⟨other, behind⟩
            omega
        · next due =>
            cases rest : scanMisfires zones schedule now rounds candidate with
            | error raised => simp [rest] at scanned
            | ok found =>
              rw [rest] at scanned
              obtain rfl := Except.ok.inj scanned
              rw [List.mem_cons, induction rest (Nat.not_lt.mp due)]
              constructor
              · rintro (rfl | ⟨other, behind, before⟩)
                · exact ⟨member, later, Nat.not_lt.mp due⟩
                · exact ⟨other, later.trans behind, before⟩
              · rintro ⟨other, behind, before⟩
                rcases (least ⟨other, behind⟩).eq_or_lt with rfl | beyond
                · exact .inl rfl
                · exact .inr ⟨other, beyond, before⟩

/-! ## One wakeup -/

/-- How far back a mode reaches for due instants. -/
def MisfirePolicy.reach (policy : MisfirePolicy) : Int :=
  match policy.mode with
  | .skip => policy.grace
  | _ => policy.catchUpWindow

/-- The two cases in which a wakeup says nothing about instants that it passes over: more instants
than the first within the grace, and a single interval outside the window. -/
def Unreported (zones : String → Zone) (schedule : Schedule) (firstDue now : Nat)
    (policy : MisfirePolicy) : Prop :=
  match policy.mode, schedule with
  | .skip, _ => (now : Int) - policy.grace ≤ firstDue ∧
      ∃ instant, schedule.IsInstant zones instant ∧ firstDue < instant ∧ instant ≤ now
  | .latest, .interval everySeconds _ _ => (firstDue : Int) < now - policy.catchUpWindow ∧
      now < firstDue + everySeconds * microsecondsPerSecond
  | _, _ => False

/-- What a wakeup says about the instants of its schedule. -/
structure MaterializedSchedule.Accounts (materialized : MaterializedSchedule)
    (zones : String → Zone) (schedule : Schedule) (firstDue now : Nat) (policy : MisfirePolicy) :
    Prop where
  increasing : materialized.dueAt.Pairwise (· < ·)
  real : ∀ instant ∈ materialized.dueAt,
    schedule.IsInstant zones instant ∧ firstDue ≤ instant ∧ instant ≤ now
  reached : ∀ instant ∈ materialized.dueAt, (now : Int) - policy.reach ≤ instant
  early : now < firstDue → materialized.nextRunAt = some firstDue
  next : firstDue ≤ now → NextRunSpec zones schedule now (.ok materialized.nextRunAt)
  covered : ¬Unreported zones schedule firstDue now policy → ∀ instant,
    schedule.IsInstant zones instant → firstDue ≤ instant → instant ≤ now →
      instant ∈ materialized.dueAt ∨ materialized.skippedBefore = some firstDue

theorem accounts_early (waits : now < firstDue) :
    MaterializedSchedule.Accounts { dueAt := [], nextRunAt := some firstDue, skippedBefore := none }
      zones schedule firstDue now policy where
  increasing := .nil
  real := by simp
  reached := by simp
  early _ := rfl
  next due := absurd due (Nat.not_le.mpr waits)
  covered _ instant _ above below := absurd (above.trans below) (Nat.not_le.mpr waits)

theorem isInstant_latest {everySeconds startAt : Nat}
    {bounded : minIntervalSeconds ≤ everySeconds ∧ everySeconds ≤ maxIntervalSeconds}
    (first : (Schedule.interval everySeconds startAt bounded).IsInstant zones firstDue) :
    (Schedule.interval everySeconds startAt bounded).IsInstant zones
      (latestIntervalDue everySeconds firstDue now) := by
  obtain ⟨steps, rfl⟩ := first
  refine ⟨steps + (now - (startAt + steps * (everySeconds * microsecondsPerSecond))) /
    (everySeconds * microsecondsPerSecond), ?_⟩
  simp only [latestIntervalDue]
  rw [Nat.add_mul, Nat.add_assoc]

theorem latestIntervalDue_eq_first {everySeconds : Nat} (positive : 0 < everySeconds)
    (started : firstDue ≤ now) :
    latestIntervalDue everySeconds firstDue now = firstDue ↔
      now < firstDue + everySeconds * microsecondsPerSecond := by
  have period : 0 < everySeconds * microsecondsPerSecond := Nat.mul_pos positive (by decide)
  simp only [latestIntervalDue]
  generalize everySeconds * microsecondsPerSecond = every at period
  rw [Nat.add_eq_left, Nat.mul_eq_zero, Nat.div_eq_zero_iff]
  omega

section Wakeup

variable {next : Option Nat} {windowBoundary : Nat}

/-- The latest instant of an interval is the only one that is due. -/
theorem accounts_latest {everySeconds startAt : Nat}
    {bounded : minIntervalSeconds ≤ everySeconds ∧ everySeconds ≤ maxIntervalSeconds}
    (mode : policy.mode = .latest) (started : firstDue ≤ now)
    (first : (Schedule.interval everySeconds startAt bounded).IsInstant zones firstDue)
    (future : NextRunSpec zones (.interval everySeconds startAt bounded) now (.ok next))
    (window : (windowBoundary : Int) = now - policy.catchUpWindow) :
    MaterializedSchedule.Accounts {
      dueAt := if windowBoundary ≤ latestIntervalDue everySeconds firstDue now then
        [latestIntervalDue everySeconds firstDue now] else []
      nextRunAt := next
      skippedBefore := if latestIntervalDue everySeconds firstDue now ≠ firstDue then some firstDue
        else none } zones (.interval everySeconds startAt bounded) firstDue now policy := by
  have positive : 0 < everySeconds := Nat.lt_of_lt_of_le (by decide) bounded.1
  have single := latestIntervalDue_eq_first positive started
  have between := latestIntervalDue_between everySeconds started
  have real : (Schedule.interval everySeconds startAt bounded).IsInstant zones
      (latestIntervalDue everySeconds firstDue now) := isInstant_latest first
  generalize latestIntervalDue everySeconds firstDue now = latest at single between real
  refine ⟨?_, ?_, ?_, fun waits => absurd started (Nat.not_le.mpr waits), fun _ => future, ?_⟩
  · simp only
    split
    · exact List.pairwise_singleton _ _
    · exact .nil
  · intro instant member
    simp only at member
    split at member
    · obtain rfl := List.mem_singleton.mp member
      exact ⟨real, between⟩
    · cases member
  · intro instant member
    simp only at member
    split at member
    · next inside =>
        obtain rfl := List.mem_singleton.mp member
        simp only [MisfirePolicy.reach, mode]
        omega
    · cases member
  · intro reported instant instants above below
    by_cases only : latest = firstDue
    · -- Without further instants the first one must lie in the window.
      have soon := single.mp only
      have inside : windowBoundary ≤ latest := by
        by_contra outside
        refine reported ?_
        simp only [Unreported, mode]
        omega
      have same : instant = latest := by
        obtain ⟨steps, rfl⟩ := first
        obtain ⟨others, rfl⟩ := instants
        have period : 0 < everySeconds * microsecondsPerSecond := Nat.mul_pos positive (by decide)
        generalize everySeconds * microsecondsPerSecond = every at *
        have least : steps ≤ others := by
          by_contra fewer
          have scaled := Nat.mul_lt_mul_of_pos_right (Nat.not_le.mp fewer) period
          omega
        have most : others < steps + 1 := by
          by_contra more
          have scaled := Nat.mul_le_mul_right every (Nat.not_lt.mp more)
          rw [Nat.add_mul, Nat.one_mul] at scaled
          omega
        obtain rfl : others = steps := by omega
        exact only.symm
      simp [inside, same]
    · exact .inr (if_pos only)

/-- A scan selects some of the instants in the window and reports that it left others out. -/
theorem accounts_scan {selected dueTimes : List Nat} {cursor : Nat}
    (mode : policy.mode ≠ .skip) (started : firstDue ≤ now) (zoned : schedule.Zoned zones)
    (recent : schedule.Recent now) (part : selected.Sublist dueTimes)
    (future : NextRunSpec zones schedule now (.ok next))
    (window : (windowBoundary : Int) = now - policy.catchUpWindow)
    (start : (cursor : Int) = (max firstDue windowBoundary : Nat) + -1) {rounds : Nat}
    (scanned : scanMisfires zones schedule now rounds cursor = .ok dueTimes) :
    MaterializedSchedule.Accounts {
      dueAt := selected
      nextRunAt := next
      skippedBefore := if firstDue < max firstDue windowBoundary ∨
        selected.length < dueTimes.length then some firstDue else none }
      zones schedule firstDue now policy := by
  have behind : windowBoundary ≤ now := by
    have positive := policy.windowPositive
    omega
  have found := mem_scanMisfires zoned recent scanned (by omega)
  refine ⟨?_, ?_, ?_, fun waits => absurd started (Nat.not_le.mpr waits), fun _ => future, ?_⟩
  · exact (scanMisfires_increasing scanned).ordered.sublist part
  · intro instant member
    obtain ⟨real, above, below⟩ := (found instant).mp (part.subset member)
    exact ⟨real, by omega, below⟩
  · intro instant member
    obtain ⟨-, above, -⟩ := (found instant).mp (part.subset member)
    have reach : policy.reach = policy.catchUpWindow := by
      unfold MisfirePolicy.reach
      split
      · next skip => exact absurd skip mode
      · rfl
    rw [reach]
    omega
  · intro _ instant real above below
    by_cases left : firstDue < max firstDue windowBoundary ∨ selected.length < dueTimes.length
    · exact .inr (if_pos left)
    · push Not at left
      have all : selected = dueTimes := part.eq_of_length_le left.2
      exact .inl (all ▸ (found instant).mpr ⟨real, by omega, below⟩)

/-- The skip mode looks at the first instant alone. -/
theorem accounts_skip {graceBoundary : Nat} (mode : policy.mode = .skip) (started : firstDue ≤ now)
    (first : schedule.IsInstant zones firstDue) (future : NextRunSpec zones schedule now (.ok next))
    (grace : (graceBoundary : Int) = now - policy.grace) :
    MaterializedSchedule.Accounts (if firstDue < graceBoundary then
      { dueAt := [], nextRunAt := next, skippedBefore := some firstDue }
      else { dueAt := [firstDue], nextRunAt := next, skippedBefore := none })
      zones schedule firstDue now policy := by
  split
  · exact ⟨.nil, by simp, by simp, fun waits => absurd started (Nat.not_le.mpr waits),
      fun _ => future, fun _ _ _ _ _ => .inr rfl⟩
  · next inside =>
      refine ⟨List.pairwise_singleton _ _, ?_, ?_, fun waits => absurd started (Nat.not_le.mpr waits),
        fun _ => future, fun reported instant real above below => ?_⟩
      · intro instant member
        obtain rfl := List.mem_singleton.mp member
        exact ⟨first, le_rfl, started⟩
      · intro instant member
        obtain rfl := List.mem_singleton.mp member
        simp only [MisfirePolicy.reach, mode]
        omega
      · refine .inl (List.mem_singleton.mpr ?_)
        by_contra other
        refine reported ?_
        simp only [Unreported, mode]
        exact ⟨by omega, instant, real, by omega, below⟩

end Wakeup

theorem materializeSchedule_accounts (zoned : schedule.Zoned zones) (recent : schedule.Recent now)
    (first : schedule.IsInstant zones firstDue)
    (outcome : materializeSchedule zones schedule firstDue now policy = .ok materialized) :
    materialized.Accounts zones schedule firstDue now policy := by
  simp only [materializeSchedule] at outcome
  split at outcome
  · next waits =>
      obtain rfl := Except.ok.inj outcome
      exact accounts_early waits
  · next due =>
      have started : firstDue ≤ now := Nat.not_lt.mp due
      have spec := nextRunAfter_spec schedule now zoned (recent.counted le_rfl)
      cases future : nextRunAfter zones schedule now with
      | error raised => simp [future, bind, Except.bind] at outcome
      | ok next =>
      cases grace : later now (-policy.grace) with
      | error raised => simp [future, grace, bind, Except.bind] at outcome
      | ok graceBoundary =>
      cases window : later now (-policy.catchUpWindow) with
      | error raised => simp [future, grace, window, bind, Except.bind] at outcome
      | ok windowBoundary =>
      rw [future] at spec
      rw [future, grace, window] at outcome
      have graceAt : (graceBoundary : Int) = now - policy.grace := (later_eq_ok.mp grace).1
      have windowAt : (windowBoundary : Int) = now - policy.catchUpWindow :=
        (later_eq_ok.mp window).1
      have scan (selected : List Nat → List Nat) (mode : policy.mode ≠ .skip)
          (part : ∀ instants, (selected instants).Sublist instants)
          (outcome : (do
            let cursor ← later (max firstDue windowBoundary) (-1)
            let dueTimes ← scanMisfires zones schedule now maxMisfireScan cursor
            return {
              dueAt := selected dueTimes
              nextRunAt := next
              skippedBefore := if firstDue < max firstDue windowBoundary ∨
                (selected dueTimes).length < dueTimes.length then some firstDue else none } :
                Except Raised MaterializedSchedule) = .ok materialized) :
          materialized.Accounts zones schedule firstDue now policy := by
        cases start : later (max firstDue windowBoundary) (-1) with
        | error raised => simp [start, bind, Except.bind] at outcome
        | ok cursor =>
          rw [start] at outcome
          generalize maxMisfireScan = rounds at outcome
          cases scanned : scanMisfires zones schedule now rounds cursor with
          | error raised => simp [scanned, bind, Except.bind] at outcome
          | ok dueTimes =>
            simp only [scanned, bind, Except.bind] at outcome
            obtain rfl := Except.ok.inj outcome
            exact accounts_scan mode started zoned recent (part dueTimes) spec windowAt
              (later_eq_ok.mp start).1 scanned
      cases mode : policy.mode with
      | skip =>
        simp only [mode, bind, Except.bind] at outcome
        have accounts := accounts_skip mode started first spec graceAt
        split at outcome
        · next outside =>
            rw [if_pos outside] at accounts
            exact Except.ok.inj outcome ▸ accounts
        · next inside =>
            rw [if_neg inside] at accounts
            exact Except.ok.inj outcome ▸ accounts
      | catchUp =>
        rw [mode] at outcome
        exact scan _ (by simp [mode]) (fun _ => List.take_sublist _ _) outcome
      | latest =>
        rw [mode] at outcome
        cases schedule with
        | interval everySeconds startAt bounded =>
          obtain rfl := Except.ok.inj outcome
          exact accounts_latest mode started first spec windowAt
        | once | cron =>
          exact scan _ (by simp [mode]) (fun _ => List.drop_sublist _ _) outcome

/-! ## Successive wakeups -/

/-- Due instants of successive wakeups, each at its time and under its policy. -/
def materializeAll (zones : String → Zone) (schedule : Schedule) :
    (nextRunAt : Option Nat) → List (Nat × MisfirePolicy) → Except Raised (List Nat)
  | some firstDue, (now, policy) :: wakeups => do
    let materialized ← materializeSchedule zones schedule firstDue now policy
    return materialized.dueAt ++
      (← materializeAll zones schedule materialized.nextRunAt wakeups)
  | _, _ => .ok []

/-- No instant before the next wakeup becomes due, and none becomes due twice. -/
theorem materializeAll_increasing {next : Option Nat} {wakeups : List (Nat × MisfirePolicy)}
    {instants : List Nat} (listed : materializeAll zones schedule next wakeups = .ok instants) :
    instants.Pairwise (· < ·) ∧ ∀ firstDue ∈ next, ∀ instant ∈ instants, firstDue ≤ instant := by
  induction wakeups generalizing next instants with
  | nil =>
    obtain rfl : instants = [] := by
      cases next <;> exact (Except.ok.inj listed).symm
    exact ⟨.nil, by simp⟩
  | cons wakeup wakeups induction =>
    obtain ⟨now, policy⟩ := wakeup
    cases next with
    | none =>
      obtain rfl := Except.ok.inj listed
      exact ⟨.nil, by simp⟩
    | some firstDue =>
      rw [materializeAll] at listed
      cases outcome : materializeSchedule zones schedule firstDue now policy with
      | error raised => simp [outcome, bind, Except.bind] at listed
      | ok materialized =>
        cases rest : materializeAll zones schedule materialized.nextRunAt wakeups with
        | error raised => simp [outcome, rest, bind, Except.bind] at listed
        | ok laterInstants =>
          simp only [outcome, rest, bind, Except.bind] at listed
          obtain rfl := Except.ok.inj listed
          obtain ⟨increasing, above⟩ := induction rest
          have sound := materializeSchedule_sound outcome
          -- Later instants exist only when there is a next wakeup.
          have ahead (instant : Nat) (member : instant ∈ laterInstants) :
              ∃ next, materialized.nextRunAt = some next ∧ next ≤ instant := by
            cases waits : materialized.nextRunAt with
            | none =>
              rw [waits] at rest
              cases wakeups <;> cases Except.ok.inj rest <;> cases member
            | some next => exact ⟨next, rfl, above next waits instant member⟩
          refine ⟨List.pairwise_append.mpr ⟨sound.due.ordered, increasing, ?_⟩, ?_⟩
          · intro early earlyMember late lateMember
            obtain ⟨next, waits, reached⟩ := ahead late lateMember
            exact ((sound.ahead next waits).2 early earlyMember).trans_le reached
          · intro first same instant member
            obtain rfl := Option.some.inj same
            rcases List.mem_append.mp member with now | later
            · exact sound.due.above instant now
            · obtain ⟨next, waits, reached⟩ := ahead instant later
              exact (sound.ahead next waits).1.trans reached

end Tinkerfin.Automation
