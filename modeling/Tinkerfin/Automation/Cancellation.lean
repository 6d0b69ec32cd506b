import Tinkerfin.Automation.StoreRuns

/-!
# Requested cancellations

A worker settles a target's outcome by one call of the store.  Once the cancellation of an execution
was requested, its status stays requested until it ends or becomes uncertain, unless a worker marks
the execution interrupted: the rule for interruptions does not look at the status it replaces.
-/

namespace Tinkerfin.Automation

open MemoryAutomationStore (opened next perform Promised sampleExecution sampleEnqueue sampleRequest)

/-! ## Settling an outcome -/

/-- A safe explicit failure returned by a target or an interrupt callback. -/
structure ExecutionFailure where
  code : String
  message : String
  canonical : (isPersistedText code none && isPersistedText message none) = true

/-- What a target returned. -/
inductive ExecutionOutcome
  | succeeded (result : Option Json)
  | failed (failure : ExecutionFailure)
  | uncertain (failure : ExecutionFailure)
  | interrupted (interruptIds : List String)

/-- How the interrupt callback ended, if there is one. -/
inductive CallbackOutcome
  | absent
  | accepted
  | failure (failure : ExecutionFailure)
  | invalid
  | raised
  | deadlinePassed
  | cancelled

/-- The call by which a worker settles the outcome of a target. -/
def applyOutcome (outcome : ExecutionOutcome) (callback : CallbackOutcome) (claim : WorkItemClaim)
    (checkedAt now : Nat) (workItemId : String) : StoreCall :=
  let finish := fun report => StoreCall.finishExecution claim report checkedAt now
  match outcome with
  | .succeeded result => finish { status := .succeeded, result }
  | .failed failure =>
    finish {
      status := .failed
      failureCode := some failure.code
      failureMessage := some failure.message }
  | .uncertain failure =>
    finish {
      status := .needsAttention
      failureCode := some failure.code
      failureMessage := some failure.message }
  | .interrupted interruptIds =>
    match callback with
    | .deadlinePassed =>
      finish {
        status := .timedOut
        failureCode := some "automation.execution_timeout"
        failureMessage := some "Interrupt callback exceeded the execution deadline" }
    | .cancelled => finish { status := .cancelled }
    | .raised =>
      finish {
        status := .failed
        failureCode := some "automation.interrupt_callback_failed"
        failureMessage := some "Interrupt callback failed" }
    | .invalid =>
      finish {
        status := .failed
        failureCode := some "automation.interrupt_callback_failed"
        failureMessage := some "Interrupt callback returned an invalid result" }
    | .failure failure =>
      finish {
        status := .failed
        failureCode := some failure.code
        failureMessage := some failure.message }
    | .absent | .accepted =>
      .markInterrupted claim interruptIds checkedAt now workItemId

namespace StoreRun

variable {store : MemoryAutomationStore} {call : StoreCall} {executionId : String}

/-- A call marks an execution interrupted while its cancellation is requested. -/
def InterruptsRequested (store : MemoryAutomationStore) : StoreCall → Prop
  | .markInterrupted claim interruptIds checkedAt _ _ => ∃ item execution,
      store.Owns claim checkedAt item execution ∧ execution.status = .cancelRequested ∧
        interruptIds ≠ [] ∧ interruptIds.all (isPersistedText · none) = true ∧
        store.HasWorkRoom (execution.namespace, execution.executionId, .expireInterrupt)
  | _ => False

/-- A status that a requested cancellation may take. -/
def CancellationKept (status : ExecutionStatus) : Prop :=
  status = .cancelRequested ∨ status = .needsAttention ∨ status.isTerminal = true

/-- An execution was asked to stop, and nothing set it going again. -/
def Stopping (executionId : String) (store : MemoryAutomationStore) : Prop :=
  ∃ life, store.lifecycle executionId = some life ∧ CancellationKept life.execution.status

theorem settled_step {action : LifecycleAction} {life later : Lifecycle}
    (step : LifecycleStep action life later) (valid : life.Valid)
    (settled : life.execution.status = .needsAttention ∨ life.execution.status.isTerminal = true) :
    later.execution.status = .needsAttention ∨ later.execution.status.isTerminal = true := by
  rcases step.of_settled valid settled with same | ⟨rfl, -⟩
  · rwa [same]
  · cases step with
    | resolved resolution _ _ _ decided =>
      obtain ⟨-, _, _, rfl⟩ := resolveExecution_eq_ok decided
      exact .inr resolution.status_isTerminal

theorem cancellationKept_step {action : LifecycleAction} {life later : Lifecycle}
    (step : LifecycleStep action life later) (valid : life.Valid) (other : action ≠ .interrupt)
    (kept : CancellationKept life.execution.status) : CancellationKept later.execution.status := by
  rcases kept with requested | settled
  · exact step.of_cancelRequested valid requested other
  · exact .inr (settled_step step valid settled)

/-- An interruption that succeeds meets its conditions. -/
theorem interrupts_requested (sound : Sound store) {claim : WorkItemClaim}
    {interruptIds : List String} {checkedAt now : Nat} {workItemId : String} {life : Lifecycle}
    (living : store.lifecycle claim.executionId = some life)
    (requested : life.execution.status = .cancelRequested)
    (spared : ¬InterruptsRequested store
      (.markInterrupted claim interruptIds checkedAt now workItemId)) :
    store.next (.markInterrupted claim interruptIds checkedAt now workItemId) = store := by
  have unchanged : (MemoryAutomationStore.markInterrupted claim interruptIds checkedAt now
      workItemId).Ensures store (fun _ after => after = store) (fun _ after => after = store) := by
    refine (MemoryAutomationStore.markInterrupted_spec claim interruptIds checkedAt now
      workItemId).mono ?_ fun _ _ same => same
    rintro value after ⟨item, execution, transition, owns, decided, room, -, -⟩
    obtain ⟨other, present, rfl, -⟩ := owns.living sound.consistent
    obtain rfl := Option.some.inj (living.symm.trans present)
    obtain ⟨some, canonical⟩ := interruptExecution_ids decided
    have same := interruptExecution_sameAttempt decided
    rw [same.namespace, same.executionId] at room
    exact absurd ⟨item, life.execution, owns, requested, some, canonical, room⟩ spared
  simpa [next, perform] using unchanged.final

/-- A call that interrupts no requested cancellation keeps it. -/
theorem Stopping.next (sound : Sound store) (promised : store.Promised call)
    (spared : ¬InterruptsRequested store call) (stopping : Stopping executionId store) :
    Stopping executionId (store.next call) := by
  obtain ⟨life, living, kept⟩ := stopping
  obtain ⟨globalConcurrency, requested⟩ := MemoryAutomationStore.requests_some call
  have refines := MemoryAutomationStore.next_refines sound.consistent promised requested
  by_cases interrupts : (call.permit globalConcurrency).performed .interrupt executionId
  · rcases kept with waiting | settled
    · cases call with
      | markInterrupted claim interruptIds checkedAt now workItemId =>
        obtain ⟨-, rfl⟩ := interrupts
        rw [interrupts_requested sound living waiting spared]
        exact ⟨life, living, .inl waiting⟩
      | _ => simp [StoreCall.permit, StoreCall.Performs] at interrupts
    · obtain ⟨later, present, stays⟩ := Lives.follow
        (fun later => later.execution.status = .needsAttention ∨
          later.execution.status.isTerminal = true) sound.valid
        (fun _ _ _ valid _ step settled => settled_step step valid settled) refines.steps living
        settled
      exact ⟨later, present, .inr stays⟩
  · refine Lives.follow (fun later => CancellationKept later.execution.status) sound.valid ?_
      refines.steps living kept
    rintro action before later valid performed step kept
    refine cancellationKept_step step valid ?_ kept
    rintro rfl
    exact interrupts performed

/-- In a run that marks no execution interrupted while its cancellation is requested, a requested
cancellation stays requested until the execution ends or becomes uncertain. -/
theorem cancellation_kept (run : StoreRun)
    (spared : Machine.Guarded next (fun store call => ¬InterruptsRequested store call)
      (opened run.limits) run.calls)
    (point : run.Point) (executionId : String) (execution : AutomationExecution)
    (found : point.before.store.executions.get? executionId = some execution)
    (requested : execution.status = .cancelRequested) :
    ∃ later, run.store.executions.get? executionId = some later ∧ CancellationKept later.status := by
  obtain ⟨life, living, rfl⟩ := MemoryAutomationStore.lifecycle_of_stored found
  rw [point.calls, Machine.guarded_append, ← point.limits] at spared
  have stopping : Stopping executionId point.before.store := ⟨life, living, .inl requested⟩
  have kept : ∀ store call, Sound store ∧ Stopping executionId store →
      store.Promised call ∧ ¬InterruptsRequested store call →
        Sound (store.next call) ∧ Stopping executionId (store.next call) :=
    fun _ _ ⟨sound, stopping⟩ ⟨promised, spared⟩ =>
      ⟨sound.next promised, stopping.next sound promised spared⟩
  have reached := Machine.guarded_invariant kept (point.promised.and spared.2)
    ⟨point.before.sound, stopping⟩
  obtain ⟨-, later, present, stays⟩ := reached
  rw [point.store_eq]
  exact ⟨later.execution, (MemoryAutomationStore.lifecycle_eq_some.mp present).1, stays⟩

/-! ## A lost cancellation -/

/-- The owner of the sample execution asks it to stop. -/
def sampleCancel : StoreCall :=
  .cancelExecution {
    «namespace» := "tenant"
    ownerId := "owner"
    executionId := "execution"
    requestId := none
    inputDigest := "" } 0

/-- The claim of the sample execution. -/
def startedClaim : WorkItemClaim where
  workItemId := "execution"
  «namespace» := "tenant"
  executionId := "execution"
  kind := .execute
  claimToken := "token"
  fence := 1
  leaseUntil := 60

/-- The sample execution is started and asked to stop. -/
def stoppingRun : StoreRun where
  limits := {}
  calls := [sampleEnqueue sampleExecution, .claimWork (sampleRequest 0 60),
    .authorizeStart startedClaim 60 0 0 "start", sampleCancel]
  promised := ⟨⟨⟨rfl, rfl, rfl, rfl⟩, rfl⟩, trivial, trivial, trivial, trivial⟩

/-- The sample execution after its worker settled an outcome. -/
def settledRun (outcome : ExecutionOutcome) (promised : stoppingRun.store.Promised
    (applyOutcome outcome .absent startedClaim 0 0 "deadline")) : StoreRun where
  limits := {}
  calls := stoppingRun.calls ++ [applyOutcome outcome .absent startedClaim 0 0 "deadline"]
  promised := Machine.guarded_append.mpr ⟨stoppingRun.promised, promised, trivial⟩

/-- The point at which the sample execution was asked to stop. -/
def stoppingPoint (outcome : ExecutionOutcome) (promised : stoppingRun.store.Promised
    (applyOutcome outcome .absent startedClaim 0 0 "deadline")) :
    (settledRun outcome promised).Point where
  before := stoppingRun
  after := [applyOutcome outcome .absent startedClaim 0 0 "deadline"]
  limits := rfl
  calls := rfl

theorem deadline_fresh : stoppingRun.store.work.get? "deadline" = none := by decide +kernel

theorem stopping_requested : ∃ execution, stoppingRun.store.executions.get? "execution" =
    some execution ∧ execution.status = .cancelRequested := by
  have requested : ((stoppingRun.store.executions.get? "execution").map (·.status)) =
      some .cancelRequested := by decide +kernel
  exact Option.map_eq_some_iff.mp requested

/-- A worker that marks an execution interrupted after its cancellation was requested loses the
request. -/
theorem interrupted_cancellation_lost : ¬∀ (run : StoreRun) (point : run.Point) executionId execution,
    point.before.store.executions.get? executionId = some execution →
    execution.status = .cancelRequested →
      ∃ later, run.store.executions.get? executionId = some later ∧
        CancellationKept later.status := by
  intro kept
  obtain ⟨execution, found, requested⟩ := stopping_requested
  obtain ⟨later, present, stays⟩ :=
    kept _ (stoppingPoint (.interrupted ["interrupt"]) deadline_fresh) "execution" execution found
      requested
  have lost : (((settledRun (.interrupted ["interrupt"]) deadline_fresh).store.executions.get?
      "execution").map (·.status)) = some .interrupted := by decide +kernel
  rw [present] at lost
  simp [CancellationKept, Option.some.inj lost, ExecutionStatus.isTerminal] at stays

/-- A worker that settles another outcome keeps it. -/
theorem cancellation_kept_succeeded : ∃ later, (settledRun (.succeeded none)
    trivial).store.executions.get? "execution" = some later ∧ CancellationKept later.status := by
  obtain ⟨execution, found, requested⟩ := stopping_requested
  exact cancellation_kept (settledRun (.succeeded none) trivial) ⟨id, id, id, id, id, trivial⟩
    (stoppingPoint (.succeeded none) trivial) "execution" execution found requested

end StoreRun

end Tinkerfin.Automation
