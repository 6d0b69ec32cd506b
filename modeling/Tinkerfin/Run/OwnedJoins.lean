import Tinkerfin.Lib.Machine
import Tinkerfin.Run.FailureEvidence

/-!
# Owned joins

A caller joins a task that it owns.  The task settles at any time, the caller can be cancelled at
any time and any number of times, and a cancellation is raised where the caller waits.  The join
catches it, goes on waiting until the task has settled, and only then decides what to raise.  An
owned operation is joined through a task that hands over even its process-control errors.
-/

namespace Tinkerfin.Run

/-- The exceptions an operation and the caller know of; those the caller is cancelled with are new.
`ambient` is the exception the caller is handling, the context of its cancellations. -/
structure JoinSetting where
  heap : ErrorHeap
  closed : ∀ error, ∀ other ∈ heap.references error, other < heap.length
  ambient : Option (Fin heap.length) := none

abbrev JoinSetting.Failure (setting : JoinSetting) := Fin setting.heap.length

variable {setting : JoinSetting} {R V : Type}

def JoinSetting.kind (failure : setting.Failure) : ErrorKind := (setting.heap.get failure).kind

/-- How a task ends: with its result, or raising, be it its own cancellation. -/
inductive TaskOutcome (setting : JoinSetting) (R : Type)
  | result (value : R)
  | raised (error : setting.Failure)

/-- Where the caller is: waiting with the first cancellation it has caught, or behind the join. -/
inductive JoinFrame (R : Type)
  | waiting (callerCancellation : Option ErrorId)
  | returned (value : Option R)
  | raised (error : ErrorId)

/-- A joined task and its caller.  `callerRequested` is a cancellation of the caller that has not
been raised yet, `callerCancelled` says whether one was requested during the join. -/
structure JoinWorld (setting : JoinSetting) (R : Type) where
  heap : ErrorHeap
  outcome : Option (TaskOutcome setting R)
  cancelRequests : Nat
  callerRequested : Bool
  callerCancelled : Bool
  frame : JoinFrame R

inductive JoinEvent (setting : JoinSetting) (R : Type)
  | settles (outcome : TaskOutcome setting R)
  | cancelCaller
  | resume

/-! ## Joining a task -/

/-- The join requests a cancellation if none is pending, and waits. -/
def JoinWorld.start (outcome : Option (TaskOutcome setting R)) (cancelRequests : Nat)
    (cancel : Bool) : JoinWorld setting R where
  heap := setting.heap
  outcome
  cancelRequests :=
    if cancel ∧ outcome.isNone ∧ cancelRequests = 0 then cancelRequests + 1 else cancelRequests
  callerRequested := false
  callerCancelled := false
  frame := .waiting none

/-- What is raised or returned once the task has settled. -/
def joinOutcome (suppressTaskCancellation : Bool) (callerCancellation : Option ErrorId)
    (heap : ErrorHeap) (outcome : TaskOutcome setting R) : ErrorHeap × JoinFrame R :=
  let settled (taskError : Option setting.Failure) (result : Option R) :
      ErrorHeap × JoinFrame R :=
    match callerCancellation, taskError with
    | some cancellation, some error =>
      (retainFailure heap cancellation error "owned task also failed", .raised cancellation)
    | some cancellation, none => (heap, .raised cancellation)
    | none, some error => (heap, .raised error)
    | none, none => (heap, .returned result)
  match outcome with
  | .result value => settled none (some value)
  | .raised error =>
    match JoinSetting.kind error with
    | .control => (heap, .raised error)
    | .cancelled => if suppressTaskCancellation then settled none none else settled (some error) none
    | .ordinary => settled (some error) none

/-- The new exception that cancels the caller. -/
def callerCancelledError (setting : JoinSetting) : ErrorObject where
  kind := .cancelled
  typeName := "CancelledError"
  text := ""
  context := setting.ambient.map (·.val)

/-- The caller runs again: with a cancellation if one was requested, else if the task is done. -/
def JoinWorld.resume (suppressTaskCancellation : Bool) (world : JoinWorld setting R) :
    JoinWorld setting R :=
  match world.frame with
  | .waiting caught =>
    if world.callerRequested then
      let heap := world.heap ++ [callerCancelledError setting]
      let caught := caught.getD world.heap.length
      match world.outcome with
      | none => { world with heap, callerRequested := false, frame := .waiting (some caught) }
      | some outcome =>
        let (heap, frame) := joinOutcome suppressTaskCancellation (some caught) heap outcome
        { world with heap, callerRequested := false, frame }
    else
      match world.outcome with
      | none => world
      | some outcome =>
        let (heap, frame) := joinOutcome suppressTaskCancellation caught world.heap outcome
        { world with heap, frame }
  | _ => world

def JoinWorld.step (suppressTaskCancellation : Bool) (world : JoinWorld setting R) :
    JoinEvent setting R → JoinWorld setting R
  | .settles outcome => { world with outcome := world.outcome.or (some outcome) }
  | .cancelCaller =>
    match world.frame with
    | .waiting _ => { world with callerRequested := true, callerCancelled := true }
    | _ => world
  | .resume => world.resume suppressTaskCancellation

/-! ## Joining an operation -/

/-- `_TaskValue` and `_TaskFailure`. -/
inductive WorkResult (setting : JoinSetting) (V : Type)
  | value (value : V)
  | failure (error : setting.Failure)

/-- How an operation ends. -/
abbrev OperationOutcome (setting : JoinSetting) (V : Type) := TaskOutcome setting V

/-- The task of an operation returns what the operation raises. -/
def work : OperationOutcome setting V → WorkResult setting V
  | .result value => .value value
  | .raised error => .failure error

inductive RunFrame (V : Type)
  | joining
  | returned (value : V)
  | raised (error : ErrorId)
  | assertionFailed

/-- The join of an operation, with the failures that the enclosing run has recorded. -/
structure OwnedWorld (setting : JoinSetting) (V : Type) where
  join : JoinWorld setting (WorkResult setting V)
  scope : Option (List ErrorId)
  frame : RunFrame V

inductive OwnedEvent (setting : JoinSetting) (V : Type)
  | settles (outcome : OperationOutcome setting V)
  | cancelCaller
  | resume

def OwnedEvent.ofTask : OwnedEvent setting V → JoinEvent setting (WorkResult setting V)
  | .settles outcome => .settles (.result (work outcome))
  | .cancelCaller => .cancelCaller
  | .resume => .resume

/-- Retain each failure once. -/
def recordFailure (failures : List ErrorId) (failure : ErrorId) : List ErrorId :=
  if failure ∈ failures then failures else failures ++ [failure]

def OwnedWorld.start (setting : JoinSetting) (V : Type) (scope : Option (List ErrorId)) :
    OwnedWorld setting V :=
  ⟨.start none 0 false, scope, .joining⟩

def OwnedWorld.withHeap (world : OwnedWorld setting V) (heap : ErrorHeap) : OwnedWorld setting V :=
  { world with join := { world.join with heap } }

def OwnedWorld.record (world : OwnedWorld setting V) (failure : ErrorId) : OwnedWorld setting V :=
  { world with scope := world.scope.map fun failures => recordFailure failures failure }

/-- What follows the join of the task. -/
def OwnedWorld.afterJoin (world : OwnedWorld setting V) : OwnedWorld setting V :=
  match world.join.frame with
  | .waiting _ => world
  | .returned none => { world with frame := .assertionFailed }
  | .returned (some (.value value)) => { world with frame := .returned value }
  | .returned (some (.failure error)) => { world.record error with frame := .raised error }
  | .raised cancellation =>
    match world.join.outcome with
    | some (.result (.failure failure)) =>
      let world := world.record failure
      if JoinSetting.kind failure = .control then
        let noted := world.join.heap.update failure fun object =>
          object.addNote "Caller cancellation also occurred during the owned operation"
        { world.withHeap (retainFailure noted failure cancellation "Caller cancellation") with
          frame := .raised failure }
      else
        { world.withHeap (retainFailure world.join.heap cancellation failure
            "Owned operation also failed") with
          frame := .raised cancellation }
    | _ => { world with frame := .raised cancellation }

def OwnedWorld.step (world : OwnedWorld setting V) (event : OwnedEvent setting V) :
    OwnedWorld setting V :=
  match world.frame with
  | .joining => { world with join := world.join.step false event.ofTask }.afterJoin
  | _ => world

/-! ## Ends of a join -/

/-- How a join can end, once the task has settled: with the value of the task if the caller was not
cancelled, with its own error then or if that is process control, and else with a cancellation of
the caller that retains the error. -/
inductive JoinEnd (suppress callerCancelled : Bool) (heap : ErrorHeap) :
    TaskOutcome setting R → JoinFrame R → Prop
  | returned {value : R} (quiet : callerCancelled = false) :
      JoinEnd suppress callerCancelled heap (.result value) (.returned (some value))
  | suppressed {error : setting.Failure} (quiet : callerCancelled = false)
      (expected : suppress = true) (own : JoinSetting.kind error = .cancelled) :
      JoinEnd suppress callerCancelled heap (.raised error) (.returned none)
  | failed {error : setting.Failure}
      (first : callerCancelled = false ∨ JoinSetting.kind error = .control) :
      JoinEnd suppress callerCancelled heap (.raised error) (.raised error)
  | cancelled {outcome : TaskOutcome setting R} {cancellation : ErrorId}
      (requested : callerCancelled = true) (new : setting.heap.length ≤ cancellation)
      (kept : ∀ error, outcome = .raised error → JoinSetting.kind error ≠ .control ∧
        (suppress = true ∧ JoinSetting.kind error = .cancelled ∨
          heap.Retains cancellation error
            (failureNotes "owned task also failed" (setting.heap.get error)))) :
      JoinEnd suppress callerCancelled heap outcome (.raised cancellation)

/-- How a join of an operation can end; a failure is recorded with the enclosing run. -/
inductive OwnedEnd (callerCancelled : Bool) (heap : ErrorHeap) (scope : Option (List ErrorId)) :
    OperationOutcome setting V → RunFrame V → Prop
  | returned {value : V} (quiet : callerCancelled = false) :
      OwnedEnd callerCancelled heap scope (.result value) (.returned value)
  | failed {error : setting.Failure} (recorded : ∀ failures ∈ scope, error.val ∈ failures)
      (first : callerCancelled = false ∨ JoinSetting.kind error = .control) :
      OwnedEnd callerCancelled heap scope (.raised error) (.raised error)
  | cancelled {outcome : OperationOutcome setting V} {cancellation : ErrorId}
      (requested : callerCancelled = true) (new : setting.heap.length ≤ cancellation)
      (kept : ∀ error, outcome = .raised error → JoinSetting.kind error ≠ .control ∧
        (∀ failures ∈ scope, error.val ∈ failures) ∧
          heap.Retains cancellation error
            (failureNotes "Owned operation also failed" (setting.heap.get error))) :
      OwnedEnd callerCancelled heap scope outcome (.raised cancellation)

/-! ## Exceptions during a join -/

/-- Only cancellations of the caller have been added. -/
def JoinSetting.Extended (setting : JoinSetting) (heap : ErrorHeap) : Prop :=
  ∃ count, heap = setting.heap ++ List.replicate count (callerCancelledError setting)

/-- A cancellation of the caller that has been raised. -/
def JoinSetting.Cancels (setting : JoinSetting) (heap : ErrorHeap) (cancellation : ErrorId) : Prop :=
  setting.heap.length ≤ cancellation ∧ cancellation < heap.length

variable {heap : ErrorHeap} {cancellation : ErrorId}

theorem JoinSetting.Extended.snoc (extended : setting.Extended heap) :
    setting.Extended (heap ++ [callerCancelledError setting]) := by
  obtain ⟨count, rfl⟩ := extended
  exact ⟨count + 1, by rw [List.append_assoc, List.replicate_succ']⟩

theorem JoinSetting.Extended.le (extended : setting.Extended heap) :
    setting.heap.length ≤ heap.length := by
  obtain ⟨count, rfl⟩ := extended
  simp

theorem JoinSetting.Extended.stored (extended : setting.Extended heap) (error : setting.Failure) :
    heap[error.val]? = some (setting.heap.get error) := by
  obtain ⟨count, rfl⟩ := extended
  rw [List.getElem?_append_left error.isLt, List.getElem?_eq_getElem error.isLt]
  rfl

/-- Nothing refers to a cancellation of the caller. -/
theorem JoinSetting.Extended.isolated (extended : setting.Extended heap)
    (cancels : setting.Cancels heap cancellation) : heap.Isolated cancellation := by
  obtain ⟨count, rfl⟩ := extended
  intro error refers
  refine absurd cancels.1 (Nat.not_le.mpr ?_)
  by_cases old : error < setting.heap.length
  · have same : ErrorHeap.references (setting.heap ++ List.replicate count
        (callerCancelledError setting)) error = ErrorHeap.references setting.heap error := by
      rw [ErrorHeap.references, ErrorHeap.references, List.getElem?_append_left old]
    exact setting.closed error cancellation (same ▸ refers)
  · rw [ErrorHeap.references, List.getElem?_append_right (Nat.le_of_not_lt old),
      List.getElem?_replicate] at refers
    split at refers
    · obtain ⟨ambient, -, rfl⟩ : ∃ ambient, setting.ambient = some ambient ∧
          ambient.val = cancellation := by
        simpa [ErrorObject.references, callerCancelledError] using refers
      exact ambient.isLt
    · cases refers

theorem JoinSetting.Extended.retains (extended : setting.Extended heap)
    (cancels : setting.Cancels heap cancellation) (error : setting.Failure) (label : String) :
    (retainFailure heap cancellation error label).Retains cancellation error
      (failureNotes label (setting.heap.get error)) := by
  have different : cancellation ≠ error := fun same =>
    absurd error.isLt (Nat.not_lt.mpr (same ▸ cancels.1))
  have retained := retainFailure_retains (extended.isolated cancels) label cancels.2 different
  rwa [extended.stored error] at retained

/-! ## Joins of a task -/

/-- What holds of a join at any time. -/
def JoinWorld.Sound (suppress : Bool) (world : JoinWorld setting R) : Prop :=
  match world.frame with
  | .waiting caught =>
    setting.Extended world.heap ∧ (∀ cancellation ∈ caught, setting.Cancels world.heap cancellation) ∧
      world.callerCancelled = (caught.isSome || world.callerRequested)
  | frame => ∃ outcome, world.outcome = some outcome ∧
      JoinEnd suppress world.callerCancelled world.heap outcome frame ∧
        ∀ value, outcome = .result value → setting.Extended world.heap ∧
          ∀ error, frame = .raised error → setting.Cancels world.heap error

theorem joinOutcome_spec (suppress : Bool) {cancelled : Bool} (caught : Option ErrorId)
    (extended : setting.Extended heap)
    (valid : ∀ cancellation ∈ caught, setting.Cancels heap cancellation)
    (requested : cancelled = caught.isSome) (outcome : TaskOutcome setting R) :
    let after := joinOutcome suppress caught heap outcome
    (∀ caught, after.2 ≠ .waiting caught) ∧ JoinEnd suppress cancelled after.1 outcome after.2 ∧
      ∀ value, outcome = .result value → setting.Extended after.1 ∧
        ∀ error, after.2 = .raised error → setting.Cancels after.1 error := by
  cases outcome with
  | result value =>
    cases caught with
    | none => exact ⟨fun _ => nofun, .returned requested, fun _ _ => ⟨extended, nofun⟩⟩
    | some cancellation =>
      have cancels := valid cancellation rfl
      refine ⟨fun _ => nofun, .cancelled requested cancels.1 nofun, fun _ _ => ⟨extended, ?_⟩⟩
      rintro error ⟨⟩
      exact cancels
  | raised error =>
    have failing (ordinary : JoinSetting.kind error ≠ .control) :
        let after : ErrorHeap × JoinFrame R :=
          match caught with
          | some cancellation =>
            (retainFailure heap cancellation error "owned task also failed", .raised cancellation)
          | none => (heap, .raised error)
        (∀ caught, after.2 ≠ .waiting caught) ∧
          JoinEnd suppress cancelled after.1 (.raised error) after.2 := by
      cases caught with
      | none => exact ⟨fun _ => nofun, .failed (.inl requested)⟩
      | some cancellation =>
        have cancels := valid cancellation rfl
        refine ⟨fun _ => nofun, .cancelled requested cancels.1 ?_⟩
        rintro other ⟨⟩
        exact ⟨ordinary, .inr (extended.retains cancels error _)⟩
    cases kind : JoinSetting.kind error with
    | control =>
      simp only [joinOutcome, kind]
      exact ⟨fun _ => nofun, .failed (.inr kind), nofun⟩
    | ordinary =>
      obtain ⟨finished, ends⟩ := failing (by simp [kind])
      simp only [joinOutcome, kind]
      cases caught <;> exact ⟨finished, ends, nofun⟩
    | cancelled =>
      simp only [joinOutcome, kind]
      split
      · next expected =>
        cases caught with
        | none => exact ⟨fun _ => nofun, .suppressed requested expected kind, nofun⟩
        | some cancellation =>
          refine ⟨fun _ => nofun, .cancelled requested (valid cancellation rfl).1 ?_, nofun⟩
          rintro other ⟨⟩
          exact ⟨by simp [kind], .inl ⟨expected, kind⟩⟩
      · obtain ⟨finished, ends⟩ := failing (by simp [kind])
        cases caught <;> exact ⟨finished, ends, nofun⟩

/-- A join that is done stays as it is; the caller has left it. -/
theorem JoinWorld.step_of_done {suppress : Bool} {world : JoinWorld setting R}
    (done : ∀ caught, world.frame ≠ .waiting caught) {outcome : TaskOutcome setting R}
    (settled : world.outcome = some outcome) (event : JoinEvent setting R) :
    world.step suppress event = world := by
  obtain ⟨heap, outcome?, requests, requested, cancelled, frame⟩ := world
  cases frame with
  | waiting caught => exact absurd rfl (done caught)
  | returned value | raised error =>
    obtain rfl : outcome? = some outcome := settled
    cases event <;> rfl

theorem JoinWorld.Sound.of_done {suppress : Bool} {world : JoinWorld setting R}
    (done : ∀ caught, world.frame ≠ .waiting caught) (sound : world.Sound suppress) :
    ∃ outcome, world.outcome = some outcome ∧
      JoinEnd suppress world.callerCancelled world.heap outcome world.frame ∧
        ∀ value, outcome = .result value → setting.Extended world.heap ∧
          ∀ error, world.frame = .raised error → setting.Cancels world.heap error := by
  unfold JoinWorld.Sound at sound
  split at sound
  · next caught waiting => exact absurd waiting (done caught)
  · exact sound

theorem JoinWorld.sound_of_done {suppress : Bool} {world : JoinWorld setting R}
    {outcome : TaskOutcome setting R} (settled : world.outcome = some outcome)
    (spec : (∀ caught, world.frame ≠ .waiting caught) ∧
      JoinEnd suppress world.callerCancelled world.heap outcome world.frame ∧
        ∀ value, outcome = .result value → setting.Extended world.heap ∧
          ∀ error, world.frame = .raised error → setting.Cancels world.heap error) :
    world.Sound suppress := by
  unfold JoinWorld.Sound
  split
  · next caught waiting => exact absurd waiting (spec.1 caught)
  · exact ⟨outcome, settled, spec.2⟩

theorem JoinWorld.Sound.step {suppress : Bool} {world : JoinWorld setting R}
    (sound : world.Sound suppress) (event : JoinEvent setting R) :
    (world.step suppress event).Sound suppress := by
  obtain ⟨heap, outcome?, requests, requested, cancelled, frame⟩ := world
  cases frame with
  | returned value | raised error =>
    obtain ⟨outcome, settled, -⟩ := sound.of_done (by rintro _ ⟨⟩)
    rw [step_of_done (by rintro _ ⟨⟩) settled]
    exact sound
  | waiting caught =>
    obtain ⟨extended, valid, same⟩ := sound
    cases event with
    | settles outcome => exact ⟨extended, valid, same⟩
    | cancelCaller => exact ⟨extended, valid, (Bool.or_true _).symm⟩
    | resume =>
      cases requested with
      | true =>
        have length : (heap ++ [callerCancelledError setting]).length = heap.length + 1 := by simp
        have caughtValid : setting.Cancels (heap ++ [callerCancelledError setting])
            (caught.getD heap.length) := by
          cases caught with
          | none => exact ⟨extended.le, length ▸ Nat.lt_succ_self _⟩
          | some cancellation =>
            obtain ⟨new, old⟩ := valid cancellation rfl
            exact ⟨new, length ▸ Nat.lt_succ_of_lt old⟩
        cases outcome? with
        | none =>
          refine ⟨extended.snoc, ?_, ?_⟩
          · rintro cancellation ⟨⟩
            exact caughtValid
          · exact same.trans (Bool.or_true _)
        | some outcome =>
          have ends := joinOutcome_spec suppress (some (caught.getD heap.length)) extended.snoc
            (by rintro cancellation ⟨⟩; exact caughtValid) (same.trans (Bool.or_true _)) outcome
          exact sound_of_done rfl ends
      | false =>
        cases outcome? with
        | none => exact ⟨extended, valid, same⟩
        | some outcome =>
          have ends := joinOutcome_spec suppress caught extended valid
            (same.trans (Bool.or_false _)) outcome
          exact sound_of_done rfl ends

theorem JoinWorld.sound_start (suppress cancel : Bool)
    (outcome : Option (TaskOutcome setting R)) (cancelRequests : Nat) :
    (JoinWorld.start outcome cancelRequests cancel).Sound suppress :=
  ⟨⟨0, by simp [start]⟩, nofun, rfl⟩

theorem JoinWorld.step_cancelRequests {suppress : Bool} {world : JoinWorld setting R}
    (event : JoinEvent setting R) :
    (world.step suppress event).cancelRequests = world.cancelRequests := by
  obtain ⟨heap, outcome, requests, requested, cancelled, frame⟩ := world
  cases frame <;> cases event <;> cases requested <;> cases outcome <;> rfl

theorem joinOutcome_done (suppress : Bool) (caught : Option ErrorId)
    (outcome : TaskOutcome setting R) (again : Option ErrorId) :
    (joinOutcome suppress caught heap outcome).2 ≠ .waiting again := by
  unfold joinOutcome
  cases outcome with
  | result value => cases caught <;> exact nofun
  | raised error =>
    simp only
    split
    · exact nofun
    · split <;> cases caught <;> exact nofun
    · cases caught <;> exact nofun

/-- Once the task has settled, the caller leaves the join the next time it runs. -/
theorem JoinWorld.resume_done {suppress : Bool} {world : JoinWorld setting R}
    {outcome : TaskOutcome setting R} (settled : world.outcome = some outcome)
    (caught : Option ErrorId) : (world.resume suppress).frame ≠ .waiting caught := by
  obtain ⟨heap, outcome?, requests, requested, cancelled, frame⟩ := world
  obtain rfl : outcome? = some outcome := settled
  cases frame with
  | returned value => exact nofun
  | raised error => exact nofun
  | waiting first =>
    cases requested with
    | false => exact joinOutcome_done suppress first outcome caught
    | true => exact joinOutcome_done suppress (some (first.getD heap.length)) outcome caught

/-! ## Joins of an operation -/

/-- The task of an operation settles with what the operation ended with. -/
def JoinWorld.Works (join : JoinWorld setting (WorkResult setting V)) : Prop :=
  ∀ outcome, join.outcome = some outcome → ∃ operation, outcome = .result (work operation)

/-- What holds of an operation's join at any time. -/
def OwnedWorld.Sound (world : OwnedWorld setting V) : Prop :=
  match world.frame with
  | .joining => world.join.Sound false ∧ world.join.Works ∧ ∃ caught, world.join.frame = .waiting caught
  | frame => ∃ operation, world.join.outcome = some (.result (work operation)) ∧
      OwnedEnd world.join.callerCancelled world.join.heap world.scope operation frame

theorem mem_recordFailure (failures : List ErrorId) (failure : ErrorId) :
    failure ∈ recordFailure failures failure := by
  unfold recordFailure
  split
  · assumption
  · simp

theorem OwnedWorld.mem_record (world : OwnedWorld setting V) (failure : ErrorId) :
    ∀ failures ∈ (world.record failure).scope, failure ∈ failures := by
  intro failures recorded
  obtain ⟨before, -, rfl⟩ := Option.map_eq_some_iff.mp recorded
  exact mem_recordFailure before failure

/-- The task of an operation does not raise, so its join ends with the operation's outcome or with
a cancellation of the caller, and has left the exceptions as they were. -/
theorem JoinWorld.Sound.of_works {join : JoinWorld setting (WorkResult setting V)}
    (sound : join.Sound false) (works : join.Works) (done : ∀ caught, join.frame ≠ .waiting caught) :
    ∃ operation, join.outcome = some (.result (work operation)) ∧ setting.Extended join.heap ∧
      ((join.callerCancelled = false ∧ join.frame = .returned (some (work operation))) ∨
        (join.callerCancelled = true ∧ ∃ cancellation, join.frame = .raised cancellation ∧
          setting.Cancels join.heap cancellation)) := by
  obtain ⟨outcome, settled, ends, kept⟩ := sound.of_done done
  obtain ⟨operation, rfl⟩ := works outcome settled
  obtain ⟨extended, cancels⟩ := kept _ rfl
  refine ⟨operation, settled, extended, ?_⟩
  generalize join.frame = frame at ends cancels ⊢
  cases ends with
  | returned quiet => exact .inl ⟨quiet, rfl⟩
  | cancelled requested new _ => exact .inr ⟨requested, _, rfl, cancels _ rfl⟩

/-- Whatever the join of the task ends with, the operation's join ends accordingly. -/
theorem OwnedWorld.sound_afterJoin {world : OwnedWorld setting V} (joining : world.frame = .joining)
    (sound : world.join.Sound false) (works : world.join.Works) : world.afterJoin.Sound := by
  by_cases waits : ∃ caught, world.join.frame = .waiting caught
  · obtain ⟨caught, waiting⟩ := waits
    simp only [afterJoin, waiting]
    unfold Sound
    rw [joining]
    exact ⟨sound, works, caught, waiting⟩
  · obtain ⟨operation, settled, extended, ends⟩ :=
      sound.of_works works fun caught waiting => waits ⟨caught, waiting⟩
    rcases ends with ⟨quiet, returned⟩ | ⟨requested, cancellation, raised, cancels⟩
    · cases operation with
      | result value =>
        simp only [afterJoin, returned, work]
        exact ⟨.result value, settled, .returned quiet⟩
      | raised error =>
        simp only [afterJoin, returned, work]
        exact ⟨.raised error, settled, .failed (world.mem_record error) (.inl quiet)⟩
    · cases operation with
      | result value =>
        simp only [afterJoin, raised, settled, work]
        exact ⟨.result value, settled, .cancelled requested cancels.1 nofun⟩
      | raised error =>
        simp only [afterJoin, raised, settled, work]
        split
        · next control =>
          exact ⟨.raised error, settled, .failed (world.mem_record error) (.inr control)⟩
        · next ordinary =>
          refine ⟨.raised error, settled, .cancelled requested cancels.1 ?_⟩
          rintro other ⟨⟩
          exact ⟨ordinary, world.mem_record error, extended.retains cancels error _⟩

theorem JoinWorld.Works.step {join : JoinWorld setting (WorkResult setting V)} (works : join.Works)
    (event : OwnedEvent setting V) : (join.step false event.ofTask).Works := by
  intro outcome settled
  cases event with
  | settles operation =>
    rcases Option.or_eq_some_iff.mp settled with before | ⟨-, now⟩
    · exact works outcome before
    · exact ⟨operation, (Option.some.inj now).symm⟩
  | cancelCaller =>
    refine works outcome (settled ▸ ?_)
    obtain ⟨heap, outcome?, requests, requested, cancelled, frame⟩ := join
    cases frame <;> rfl
  | resume =>
    refine works outcome (settled ▸ ?_)
    obtain ⟨heap, outcome?, requests, requested, cancelled, frame⟩ := join
    cases frame <;> cases requested <;> cases outcome? <;> rfl

theorem OwnedWorld.Sound.step {world : OwnedWorld setting V} (sound : world.Sound)
    (event : OwnedEvent setting V) : (world.step event).Sound := by
  cases joining : world.frame with
  | joining =>
    unfold Sound at sound
    rw [joining] at sound
    obtain ⟨joins, works, -⟩ := sound
    simp only [OwnedWorld.step, joining]
    exact sound_afterJoin rfl (joins.step event.ofTask) (works.step event)
  | returned value => simpa only [OwnedWorld.step, joining] using sound
  | raised error => simpa only [OwnedWorld.step, joining] using sound
  | assertionFailed => simpa only [OwnedWorld.step, joining] using sound

theorem OwnedWorld.sound_start (scope : Option (List ErrorId)) :
    (OwnedWorld.start setting V scope).Sound :=
  ⟨JoinWorld.sound_start false false none 0, nofun, none, rfl⟩

/-- Behind the join of the task only exceptions change. -/
theorem OwnedWorld.afterJoin_join (world : OwnedWorld setting V) :
    ∃ heap, world.afterJoin.join = { world.join with heap } := by
  unfold afterJoin
  split
  · exact ⟨_, rfl⟩
  · exact ⟨_, rfl⟩
  · exact ⟨_, rfl⟩
  · exact ⟨_, rfl⟩
  · split
    · split <;> exact ⟨_, rfl⟩
    · exact ⟨_, rfl⟩

theorem OwnedWorld.step_cancelRequests (world : OwnedWorld setting V)
    (event : OwnedEvent setting V) :
    (world.step event).join.cancelRequests = world.join.cancelRequests := by
  cases joining : world.frame with
  | joining =>
    obtain ⟨heap, same⟩ := afterJoin_join
      { world with join := world.join.step false event.ofTask }
    simp only [step, joining] at same ⊢
    rw [same]
    exact JoinWorld.step_cancelRequests _
  | returned value | raised error | assertionFailed => simp only [step, joining]

/-- Once the operation has ended, so does its join the next time the caller runs. -/
theorem OwnedWorld.step_resume_done {world : OwnedWorld setting V} (sound : world.Sound)
    (settled : world.join.outcome.isSome) : (world.step .resume).frame ≠ .joining := by
  intro joining
  obtain ⟨outcome, settled⟩ := Option.isSome_iff_exists.mp settled
  have next := sound.step .resume
  unfold Sound at next
  rw [joining] at next
  obtain ⟨-, -, caught, waiting⟩ := next
  cases here : world.frame with
  | joining =>
    obtain ⟨heap, same⟩ := afterJoin_join { world with join := world.join.step false .resume }
    simp only [step, here] at same waiting
    rw [OwnedEvent.ofTask, same] at waiting
    exact JoinWorld.resume_done settled caught waiting
  | returned value | raised error | assertionFailed =>
    simp only [step, here] at joining
    cases joining

/-! ## Every schedule -/

/-- Whatever the task does and however often the caller is cancelled, a join ends only after the
task has settled, as `JoinEnd` says, and then does end when the caller runs; it requests at most one
cancellation of the task, and none if one is pending.  The same holds of the join of an operation,
which requests none and ends as `OwnedEnd` says. -/
theorem owned_joins_settle (setting : JoinSetting) (R V : Type) :
    (∀ (suppress cancel : Bool) (outcome : Option (TaskOutcome setting R)) (cancelRequests : Nat)
      (events : List (JoinEvent setting R)),
      let world := Machine.run (JoinWorld.step suppress) (.start outcome cancelRequests cancel) events
      (world.cancelRequests = cancelRequests ∨ world.cancelRequests = 1 ∧ cancelRequests = 0) ∧
      ((∃ caught, world.frame = .waiting caught) ∨ ∃ outcome, world.outcome = some outcome ∧
        JoinEnd suppress world.callerCancelled world.heap outcome world.frame) ∧
      (world.outcome.isSome → ∀ caught, (world.step suppress .resume).frame ≠ .waiting caught)) ∧
    ∀ (scope : Option (List ErrorId)) (events : List (OwnedEvent setting V)),
      let world := Machine.run OwnedWorld.step (.start setting V scope) events
      world.join.cancelRequests = 0 ∧
      (world.frame = .joining ∨ ∃ operation, world.join.outcome = some (.result (work operation)) ∧
        OwnedEnd world.join.callerCancelled world.join.heap world.scope operation world.frame) ∧
      (world.join.outcome.isSome → (world.step .resume).frame ≠ .joining) := by
  refine ⟨fun suppress cancel outcome cancelRequests events => ?_, fun scope events => ?_⟩
  · intro world
    have sound : world.Sound suppress := Machine.run_invariant
      (fun _ event sound => sound.step event) (JoinWorld.sound_start _ _ _ _)
    have requests := @Machine.run_invariant _ _ (JoinWorld.step suppress)
      (fun world : JoinWorld setting R => world.cancelRequests =
        (JoinWorld.start outcome cancelRequests cancel).cancelRequests)
      (fun _ event same => (JoinWorld.step_cancelRequests event).trans same) events _ rfl
    refine ⟨?_, ?_, fun settled caught => ?_⟩
    · rw [requests, JoinWorld.start]
      split
      · next first => exact .inr ⟨by rw [first.2.2], first.2.2⟩
      · exact .inl rfl
    · by_cases waits : ∃ caught, world.frame = .waiting caught
      · exact .inl waits
      · obtain ⟨outcome, settled, ends, -⟩ :=
          sound.of_done fun caught waiting => waits ⟨caught, waiting⟩
        exact .inr ⟨outcome, settled, ends⟩
    · obtain ⟨outcome, settled⟩ := Option.isSome_iff_exists.mp settled
      exact JoinWorld.resume_done settled caught
  · intro world
    have sound : world.Sound := Machine.run_invariant
      (fun _ event sound => sound.step event) (OwnedWorld.sound_start scope)
    have requests := @Machine.run_invariant _ _ OwnedWorld.step
      (fun world : OwnedWorld setting V => world.join.cancelRequests = 0)
      (fun world event same => (world.step_cancelRequests event).trans same) events
      (.start setting V scope) rfl
    refine ⟨requests, ?_, fun settled joining => ?_⟩
    · unfold OwnedWorld.Sound at sound
      split at sound
      · next joining => exact .inl joining
      · exact .inr sound
    · exact OwnedWorld.step_resume_done sound settled joining

end Tinkerfin.Run
