import Mathlib.Data.List.Basic
import Mathlib.Data.List.Induction
import Mathlib.Tactic.Common

/-!
# Runs of an event-driven machine

A machine is a total function `next` from a state and an event to a state.  A run folds `next` over
a list of events, and a log concatenates what `emit` reports at each event.  The rules turn facts
about one event into facts about runs and logs: a preserved invariant holds along every run, a
bound that new entries satisfy and events preserve holds of every logged entry, and entries that
are related to everything already bounded form a pairwise related log.  The last section states the
same rules for runs in which every event meets a condition on the state it finds.
-/

namespace Machine

variable {σ ε ω : Type*} (next : σ → ε → σ)

/-- The state after a list of events. -/
def run (state : σ) (events : List ε) : σ := events.foldl next state

@[simp] theorem run_nil (state : σ) : run next state [] = state := rfl

@[simp] theorem run_cons (state : σ) (event : ε) (events : List ε) :
    run next state (event :: events) = run next (next state event) events := rfl

theorem run_append (state : σ) (first second : List ε) :
    run next state (first ++ second) = run next (run next state first) second := by
  simp [run, List.foldl_append]

variable {next}

theorem run_invariant {Inv : σ → Prop}
    (preserved : ∀ state event, Inv state → Inv (next state event))
    {events : List ε} {state : σ} (holds : Inv state) : Inv (run next state events) := by
  induction events generalizing state with
  | nil => exact holds
  | cons event events ih => exact ih (preserved state event holds)

theorem exists_change {Holds : σ → Prop} {events : List ε} {state : σ} (starts : Holds state)
    (stops : ¬Holds (run next state events)) :
    ∃ before event after, events = before ++ event :: after ∧ Holds (run next state before) ∧
      ¬Holds (next (run next state before) event) := by
  induction events generalizing state with
  | nil => exact absurd starts stops
  | cons event events ih =>
    by_cases still : Holds (next state event)
    · obtain ⟨before, change, after, rfl, holds, fails⟩ := ih still stops
      exact ⟨event :: before, change, after, rfl, holds, fails⟩
    · exact ⟨[], event, events, rfl, starts, still⟩

variable (next) in
/-- Entries reported along a run, oldest first. -/
def log (emit : σ → ε → List ω) : σ → List ε → List ω
  | _, [] => []
  | state, event :: events => emit state event ++ log emit (next state event) events

variable {emit : σ → ε → List ω}

@[simp] theorem log_nil (state : σ) : log next emit state [] = [] := rfl

@[simp] theorem log_cons (state : σ) (event : ε) (events : List ε) :
    log next emit state (event :: events) =
      emit state event ++ log next emit (next state event) events := rfl

theorem log_append (state : σ) (first second : List ε) :
    log next emit state (first ++ second) =
      log next emit state first ++ log next emit (run next state first) second := by
  induction first generalizing state with
  | nil => rfl
  | cons event events ih => simp [ih, List.append_assoc]

/-- A logged entry was reported by one event, at the state the run had reached before it. -/
theorem mem_log_iff {state : σ} {events : List ε} {entry : ω} :
    entry ∈ log next emit state events ↔
      ∃ before event after, events = before ++ event :: after ∧
        entry ∈ emit (run next state before) event := by
  induction events generalizing state with
  | nil => simp
  | cons event events ih =>
    rw [log_cons, List.mem_append, ih]
    constructor
    · rintro (reported | ⟨before, later, after, rfl, reported⟩)
      · exact ⟨[], event, events, rfl, reported⟩
      · exact ⟨event :: before, later, after, rfl, reported⟩
    · rintro ⟨before, later, after, equal, reported⟩
      cases before with
      | nil =>
        obtain ⟨rfl, rfl⟩ := List.cons.inj equal
        exact .inl reported
      | cons first before =>
        obtain ⟨rfl, rfl⟩ := List.cons.inj equal
        exact .inr ⟨before, later, after, rfl, reported⟩

section Bounded

variable {Inv : σ → Prop} {Bound : ω → σ → Prop}
  (preserved : ∀ state event, Inv state → Inv (next state event))
  (reported : ∀ state event entry, Inv state → entry ∈ emit state event →
    Bound entry (next state event))
  (kept : ∀ state event entry, Inv state → Bound entry state → Bound entry (next state event))

include preserved kept in
theorem run_bound {events : List ε} {state : σ} (holds : Inv state) {entry : ω}
    (bound : Bound entry state) : Bound entry (run next state events) := by
  have paired : ∀ state event, Inv state ∧ Bound entry state →
      Inv (next state event) ∧ Bound entry (next state event) :=
    fun state event ⟨holds, bound⟩ =>
      ⟨preserved state event holds, kept state event entry holds bound⟩
  exact (run_invariant paired ⟨holds, bound⟩).2

include preserved reported kept in
theorem log_bound {events : List ε} {state : σ} (holds : Inv state) {entry : ω}
    (logged : entry ∈ log next emit state events) : Bound entry (run next state events) := by
  obtain ⟨before, event, after, rfl, member⟩ := mem_log_iff.mp logged
  have holdsBefore : Inv (run next state before) := run_invariant preserved holds
  rw [run_append, run_cons]
  exact run_bound preserved kept (preserved _ event holdsBefore)
    (reported _ event entry holdsBefore member)

include preserved reported kept in
/-- If every new entry is related to all bounded ones, the whole log is pairwise related. -/
theorem log_pairwise {Related : ω → ω → Prop}
    (single : ∀ state event, Inv state → (emit state event).Pairwise Related)
    (related : ∀ state event old entry, Inv state → Bound old state →
      entry ∈ emit state event → Related old entry)
    {events : List ε} {state : σ} (holds : Inv state) :
    (log next emit state events).Pairwise Related := by
  induction events using List.reverseRecOn with
  | nil => exact .nil
  | append_singleton events event ih =>
    have reached : Inv (run next state events) := run_invariant preserved holds
    rw [log_append, List.pairwise_append]
    simp only [log_cons, log_nil, List.append_nil]
    refine ⟨ih, single _ event reached, ?_⟩
    intro old logged entry member
    have bound := log_bound preserved reported kept holds logged
    exact related _ event old entry reached bound member

end Bounded

/-! ## Guarded runs -/

/-- Every event of a run meets a condition on the state it finds. -/
def Guarded (next : σ → ε → σ) (guard : σ → ε → Prop) : σ → List ε → Prop
  | _, [] => True
  | state, event :: events => guard state event ∧ Guarded next guard (next state event) events

variable {guard : σ → ε → Prop}

instance guardedDecidable [∀ state event, Decidable (guard state event)] :
    (events : List ε) → (state : σ) → Decidable (Guarded next guard state events)
  | [], _ => .isTrue trivial
  | event :: events, state =>
    have := guardedDecidable events (next state event)
    inferInstanceAs (Decidable (guard state event ∧ Guarded next guard (next state event) events))

theorem guarded_append {state : σ} {first second : List ε} :
    Guarded next guard state (first ++ second) ↔
      Guarded next guard state first ∧ Guarded next guard (run next state first) second := by
  induction first generalizing state with
  | nil => simp [Guarded]
  | cons event events ih => simp [Guarded, ih, and_assoc]

theorem guarded_of_forall {holds : ε → Prop} {events : List ε} (each : ∀ event ∈ events, holds event)
    (state : σ) : Guarded next (fun _ event => holds event) state events := by
  induction events generalizing state with
  | nil => trivial
  | cons event events ih =>
    exact ⟨each event List.mem_cons_self, ih (fun other member => each other (.tail _ member)) _⟩

theorem Guarded.and {other : σ → ε → Prop} {events : List ε} {state : σ}
    (first : Guarded next guard state events) (second : Guarded next other state events) :
    Guarded next (fun state event => guard state event ∧ other state event) state events := by
  induction events generalizing state with
  | nil => trivial
  | cons event events ih => exact ⟨⟨first.1, second.1⟩, ih first.2 second.2⟩

theorem guarded_invariant {Inv : σ → Prop}
    (preserved : ∀ state event, Inv state → guard state event → Inv (next state event))
    {events : List ε} {state : σ} (guarded : Guarded next guard state events) (holds : Inv state) :
    Inv (run next state events) := by
  induction events generalizing state with
  | nil => exact holds
  | cons event events ih => exact ih guarded.2 (preserved state event holds guarded.1)

section GuardedBounded

variable {Inv : σ → Prop} {Bound : ω → σ → Prop}
  (preserved : ∀ state event, Inv state → guard state event → Inv (next state event))
  (reported : ∀ state event entry, Inv state → guard state event → entry ∈ emit state event →
    Bound entry (next state event))
  (kept : ∀ state event entry, Inv state → guard state event → Bound entry state →
    Bound entry (next state event))

include preserved kept in
theorem guarded_bound {events : List ε} {state : σ} (guarded : Guarded next guard state events)
    (holds : Inv state) {entry : ω} (bound : Bound entry state) :
    Bound entry (run next state events) := by
  induction events generalizing state with
  | nil => exact bound
  | cons event events ih =>
    exact ih guarded.2 (preserved state event holds guarded.1)
      (kept state event entry holds guarded.1 bound)

include preserved reported kept in
theorem guarded_log_bound {events : List ε} {state : σ}
    (guarded : Guarded next guard state events) (holds : Inv state) {entry : ω}
    (logged : entry ∈ log next emit state events) : Bound entry (run next state events) := by
  obtain ⟨before, event, after, rfl, member⟩ := mem_log_iff.mp logged
  obtain ⟨guardedBefore, guardedEvent, guardedAfter⟩ := guarded_append.mp guarded
  have holdsBefore := guarded_invariant preserved guardedBefore holds
  rw [run_append, run_cons]
  exact guarded_bound preserved kept guardedAfter (preserved _ event holdsBefore guardedEvent)
    (reported _ event entry holdsBefore guardedEvent member)

include preserved reported kept in
/-- If every new entry is related to all bounded ones, the log of a guarded run is pairwise
related. -/
theorem guarded_log_pairwise {Related : ω → ω → Prop}
    (single : ∀ state event, Inv state → guard state event →
      (emit state event).Pairwise Related)
    (related : ∀ state event old entry, Inv state → guard state event → Bound old state →
      entry ∈ emit state event → Related old entry)
    {events : List ε} {state : σ} (guarded : Guarded next guard state events) (holds : Inv state) :
    (log next emit state events).Pairwise Related := by
  induction events using List.reverseRecOn with
  | nil => exact .nil
  | append_singleton events event ih =>
    obtain ⟨guardedBefore, guardedEvent, -⟩ := guarded_append.mp guarded
    have reached := guarded_invariant preserved guardedBefore holds
    rw [log_append, List.pairwise_append]
    simp only [log_cons, log_nil, List.append_nil]
    refine ⟨ih guardedBefore, single _ event reached guardedEvent, ?_⟩
    intro old logged entry member
    have bound := guarded_log_bound preserved reported kept guardedBefore holds logged
    exact related _ event old entry reached guardedEvent bound member

end GuardedBounded

end Machine
