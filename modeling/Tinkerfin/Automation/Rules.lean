import Tinkerfin.Automation.Models

/-!
# Automation state changes

Decisions about tasks and executions from one store's atomic facts and time.  They own no locks,
clocks, tokens or capacity records: the store applies each returned change inside the boundary that
read its facts.
-/

namespace Tinkerfin.Automation

/-- Which of an execution's work items a change completes. -/
inductive CompleteWork
  | none
  | current
  | all
  deriving DecidableEq, Repr

/-- An execution snapshot with the work and capacity changes committed with it. -/
structure ExecutionTransition where
  execution : AutomationExecution
  completeWork : CompleteWork := .none
  releaseCapacity : Bool := false
  deadlineWorkAt : Option Nat := none

/-- Protect a task snapshot selected by the caller. -/
def requireTaskRevision (task : AutomationTask) (expectedRevision : Option Int) :
    Except Raised Unit :=
  match expectedRevision with
  | none => .ok ()
  | some expected =>
    if expected < 1 then
      .error (.valueError "expected_revision must be positive")
    else if task.revision ≠ expected then
      .error (.taskRevisionChanged task.taskId expected task.revision)
    else
      .ok ()

/-- The task or taskless-owner scope within an execution's namespace. -/
def executionScope (execution : AutomationExecution) : String × String :=
  match execution.taskId with
  | none => ("owner", execution.ownerId)
  | some taskId => ("task", taskId)

/-- Whether two executions share a namespace and a capacity scope. -/
def sameExecutionScope (candidate execution : AutomationExecution) : Bool :=
  candidate.namespace == execution.namespace && executionScope candidate == executionScope execution

/-- Whether a scheduler still owns the task occurrence it observed. -/
def materializationIsCurrent (current proposed : AutomationTask) (expectedNextRunAt : Nat) : Bool :=
  current.nextRunAt == some expectedNextRunAt && current.revision == proposed.revision &&
    current.status == .enabled

/-- The first snapshot of each occurrence key that was not seen, in order. -/
def pendingOccurrences (seen : List String) :
    List (ScheduledExecution × String) → List (ScheduledExecution × String)
  | [] => []
  | item :: items =>
    if item.1.occurrenceKey ∈ seen then
      pendingOccurrences seen items
    else
      item :: pendingOccurrences (item.1.occurrenceKey :: seen) items

/-- Reject new occurrences that would exceed their shared queue bound. -/
def requireQueueCapacity (queued additional maximum : Nat) (scopeId : String) :
    Except Raised Unit :=
  if queued + additional > maximum then .error (.queueFull scopeId) else .ok ()

/-- Check an optional text that a replacement brings in. -/
def validateOptionalText (value : Option String) (name : String) : Except Raised Unit :=
  match value with
  | none => .ok ()
  | some value => validatePersistedText value name none

/-- Check the texts that a replacement of an execution can bring in. -/
def replaced (execution : AutomationExecution) : Except Raised AutomationExecution := do
  validateOptionalText execution.failureCode "failure_code"
  validateOptionalText execution.failureMessage "failure_message"
  execution.interruptIds.zipIdx.forM fun indexed =>
    validatePersistedText indexed.1 s!"interrupt_ids[{indexed.2}]" none
  return execution

/-- Whether the texts that a replacement checks are canonical. -/
def AutomationExecution.canonical (execution : AutomationExecution) : Bool :=
  execution.failureCode.all (isPersistedText · none) &&
    execution.failureMessage.all (isPersistedText · none) &&
      execution.interruptIds.all (isPersistedText · none)

/-- Release even a previously admitted attempt when its queue deadline expires. -/
def expireQueued (execution : AutomationExecution) (now : Nat) : ExecutionTransition where
  execution := { execution with
    status := .timedOut
    finishedAt := some now
    failureCode := some "automation.queue_timeout"
    failureMessage := some "Execution exceeded its queue deadline"
    updatedAt := now }
  completeWork := .current
  releaseCapacity := true

/-- A non-claimable work change, or nothing when admission may proceed. -/
def claimCandidate (execution : AutomationExecution) (kind : WorkKind) (now : Nat) :
    Option ExecutionTransition :=
  match kind with
  | .execute =>
    if execution.status ≠ .queued then
      some { execution, completeWork := .current }
    else if execution.queueDeadline ≤ now then
      some (expireQueued execution now)
    else
      none
  | .expireInterrupt =>
    if execution.status ≠ .interrupted then
      some { execution, completeWork := .current }
    else
      none

/-- Grant the only target start after ownership and admission checks. -/
def authorizeStart (execution : AutomationExecution) (kind : WorkKind) (admitted : Bool)
    (now : Nat) (executionTimeout : Int) (startToken : String) :
    Except Raised StartAuthorization := do
  if kind ≠ .execute then
    throw (.claimLost "Only executable work can authorize a target")
  if execution.startAuthorizedAt.isSome then
    throw (.startAlreadyAuthorized execution.executionId)
  if execution.status ≠ .queued ∨ admitted = false then
    throw (.claimLost "Execution is no longer eligible to start")
  let deadline ← later now executionTimeout
  return {
    execution := { execution with
      status := .running
      executionStartedAt := some now
      executionDeadline := some deadline
      startAuthorizedAt := some now
      startToken := some startToken
      updatedAt := now }
    startToken }

/-- Retain admission and schedule only the interrupted run's original deadline. -/
def interruptExecution (execution : AutomationExecution) (interruptIds : List String) (now : Nat) :
    Except Raised ExecutionTransition := do
  if interruptIds.isEmpty then
    throw (.valueError "interrupt_ids must not be empty")
  match execution.executionDeadline with
  | none => throw (.claimLost "Execution has no active deadline")
  | some deadline =>
    let interrupted ← replaced { execution with
      status := .interrupted
      interruptIds := interruptIds.reverse.dedup.reverse
      updatedAt := now }
    return {
      execution := interrupted
      completeWork := .current
      deadlineWorkAt := some deadline }

/-- What a worker reports when it finishes an execution. -/
structure FinishReport where
  status : ExecutionStatus
  result : Option Json := none
  failureCode : Option String := none
  failureMessage : Option String := none

/-- Complete work while retaining admission for uncertain external outcomes. -/
def finishExecution (execution : AutomationExecution) (report : FinishReport) (now : Nat) :
    Except Raised ExecutionTransition := do
  if report.status.isTerminal = false ∧ report.status ≠ .needsAttention then
    throw (.valueError "finish status must be terminal or needs_attention")
  let finished ← replaced { execution with
    status := report.status
    result := report.result
    failureCode := report.failureCode
    failureMessage := report.failureMessage
    finishedAt := if report.status.isTerminal then some now else none
    updatedAt := now }
  return {
    execution := finished
    completeWork := .all
    releaseCapacity := report.status.isTerminal }

/-- Cancel unstarted work or record intent without claiming that a running target stopped. -/
def cancelExecution (execution : AutomationExecution) (now : Nat) :
    Except Raised ExecutionTransition :=
  match execution.status with
  | .needsAttention =>
    .error (.resolutionNotAllowed "Uncertain execution requires explicit resolution"
      execution.executionId)
  | .queued | .interrupted =>
    .ok {
      execution := { execution with
        status := .cancelled
        finishedAt := some now
        updatedAt := now }
      completeWork := .all
      releaseCapacity := true }
  | .running => .ok { execution := { execution with status := .cancelRequested, updatedAt := now } }
  | .cancelRequested | .succeeded | .failed | .timedOut | .cancelled => .ok { execution }

/-- Record an explicit outcome before releasing uncertain execution capacity. -/
def resolveExecution (execution : AutomationExecution) (resolution : AttentionResolution)
    (reason : String) (now : Nat) : Except Raised ExecutionTransition := do
  if reason.isEmpty || !(reason == Bytes.strip reason) then
    throw (.valueError "reason must be a non-empty canonical value")
  if execution.status ≠ .needsAttention then
    throw (.resolutionNotAllowed "Only uncertain execution can be resolved" execution.executionId)
  let failed := resolution = .failed
  let resolved ← replaced { execution with
    status := resolution.status
    failureCode := if failed then some "automation.explicit_resolution" else execution.failureCode
    failureMessage := if failed then some reason else none
    finishedAt := some now
    updatedAt := now }
  return { execution := resolved, releaseCapacity := true }

/-- Stop automatic restart after authorization; otherwise allow fenced reclaim. -/
def recoverExpiredClaim (execution : AutomationExecution) (kind : WorkKind) (now : Nat) :
    ExecutionTransition :=
  if kind = .execute ∧ execution.startAuthorizedAt.isSome then
    { execution := { execution with
        status := .needsAttention
        failureCode := some "automation.claim_lost_after_start"
        failureMessage := some "Execution ownership expired after start"
        updatedAt := now }
      completeWork := .current }
  else
    { execution }

/-! ## What the rules decide -/

/-- Two snapshots of one execution: identity, scope and limits are the same. -/
structure SameAttempt (before after : AutomationExecution) : Prop where
  executionId : after.executionId = before.executionId
  «namespace» : after.namespace = before.namespace
  taskId : after.taskId = before.taskId
  ownerId : after.ownerId = before.ownerId
  limits : after.limits = before.limits

theorem SameAttempt.refl (execution : AutomationExecution) : SameAttempt execution execution :=
  ⟨rfl, rfl, rfl, rfl, rfl⟩

theorem SameAttempt.trans {first second third : AutomationExecution}
    (left : SameAttempt first second) (right : SameAttempt second third) :
    SameAttempt first third :=
  ⟨right.executionId.trans left.executionId, right.namespace.trans left.namespace,
    right.taskId.trans left.taskId, right.ownerId.trans left.ownerId,
    right.limits.trans left.limits⟩

theorem SameAttempt.executionScope {before after : AutomationExecution}
    (same : SameAttempt before after) : executionScope after = executionScope before := by
  unfold Automation.executionScope
  rw [same.taskId, same.ownerId]

section

variable {execution updated : AutomationExecution} {transition : ExecutionTransition}
  {kind : WorkKind} {admitted : Bool} {now : Nat} {timeout : Int} {token reason : String}
  {authorization : StartAuthorization} {interruptIds : List String} {report : FinishReport}
  {resolution : AttentionResolution}

theorem requireQueueCapacity_eq_ok {queued additional maximum : Nat} {scopeId : String} :
    requireQueueCapacity queued additional maximum scopeId = .ok () ↔
      queued + additional ≤ maximum := by
  unfold requireQueueCapacity
  split <;> simp_all

theorem validateOptionalText_eq_ok (value : Option String) (name : String) :
    validateOptionalText value name = .ok () ↔ value.all (isPersistedText · none) = true := by
  cases value with
  | none => simp [validateOptionalText]
  | some value => simp [validateOptionalText, validatePersistedText_eq_ok]

theorem validateTexts_eq_ok (values : List String) (first : Nat) (name : String × Nat → String) :
    (values.zipIdx first).forM (fun indexed =>
        validatePersistedText indexed.1 (name indexed) none) = .ok () ↔
      values.all (isPersistedText · none) = true := by
  induction values generalizing first with
  | nil => simp [pure, Except.pure]
  | cons value values ih =>
    have head : validatePersistedText value (name (value, first)) none = .ok () ↔ _ :=
      validatePersistedText_eq_ok
    rw [List.zipIdx_cons, List.all_cons, Bool.and_eq_true, ← ih (first + 1), ← head]
    simp only [List.forM_eq_forM, List.forM_cons]
    cases validatePersistedText value (name (value, first)) none with
    | error raised => simp [bind, Except.bind]
    | ok done => simp [bind, Except.bind]

theorem replaced_eq_ok_iff :
    replaced execution = .ok updated ↔ updated = execution ∧ execution.canonical = true := by
  unfold replaced AutomationExecution.canonical
  rw [Bool.and_eq_true, Bool.and_eq_true, ← validateOptionalText_eq_ok _ "failure_code",
    ← validateOptionalText_eq_ok _ "failure_message",
    ← validateTexts_eq_ok execution.interruptIds 0 fun indexed => s!"interrupt_ids[{indexed.2}]"]
  generalize validateOptionalText execution.failureCode "failure_code" = code
  generalize validateOptionalText execution.failureMessage "failure_message" = message
  generalize (execution.interruptIds.zipIdx 0).forM (fun indexed =>
    validatePersistedText indexed.1 s!"interrupt_ids[{indexed.2}]" none) = texts
  cases code <;> cases message <;> cases texts <;>
    simp [bind, Except.bind, pure, Except.pure, eq_comm]

theorem replaced_eq_ok (outcome : replaced execution = .ok updated) : updated = execution :=
  (replaced_eq_ok_iff.mp outcome).1

theorem claimCandidate_eq_none : claimCandidate execution kind now = none ↔
    kind = .execute ∧ execution.status = .queued ∧ now < execution.queueDeadline ∨
      kind = .expireInterrupt ∧ execution.status = .interrupted := by
  cases kind with
  | execute =>
    simp only [claimCandidate, true_and, reduceCtorEq, false_and, or_false]
    split
    · simp_all
    · split <;> simp_all
  | expireInterrupt =>
    simp only [claimCandidate, reduceCtorEq, false_and, true_and, false_or]
    split <;> simp_all

/-- Work that is not claimable is completed, and a queued execution past its deadline times out. -/
theorem claimCandidate_eq_some (decided : claimCandidate execution kind now = some transition) :
    (transition = { execution, completeWork := .current } ∧
      (kind = .execute ∧ execution.status ≠ .queued ∨
        kind = .expireInterrupt ∧ execution.status ≠ .interrupted)) ∨
      transition = expireQueued execution now ∧ kind = .execute ∧ execution.status = .queued := by
  cases kind with
  | execute =>
    simp only [claimCandidate] at decided
    split at decided
    · next started => exact .inl ⟨(Option.some.inj decided).symm, .inl ⟨rfl, started⟩⟩
    · next queued =>
        split at decided
        · exact .inr ⟨(Option.some.inj decided).symm, rfl, not_not.mp queued⟩
        · cases decided
  | expireInterrupt =>
    simp only [claimCandidate] at decided
    split at decided
    · next settled => exact .inl ⟨(Option.some.inj decided).symm, .inr ⟨rfl, settled⟩⟩
    · cases decided

theorem authorizeStart_eq_ok
    (outcome : authorizeStart execution kind admitted now timeout token = .ok authorization) :
    kind = .execute ∧ execution.startAuthorizedAt = none ∧ execution.status = .queued ∧
      admitted = true ∧ ∃ deadline, authorization.execution = { execution with
        status := .running
        executionStartedAt := some now
        executionDeadline := some deadline
        startAuthorizedAt := some now
        startToken := some token
        updatedAt := now } := by
  unfold authorizeStart at outcome
  simp only [bind, Except.bind, throw, throwThe, MonadExceptOf.throw] at outcome
  split at outcome
  · cases outcome
  · next executable =>
      split at outcome
      · cases outcome
      · next unstarted =>
          split at outcome
          · cases outcome
          · next eligible =>
              split at outcome
              · cases outcome
              · next deadline _ =>
                  obtain rfl := (Except.ok.inj outcome).symm
                  simp only [not_or, not_not, Bool.not_eq_false] at eligible
                  exact ⟨not_not.mp executable, by simpa using unstarted, eligible.1, eligible.2,
                    deadline, rfl⟩

theorem interruptExecution_eq_ok
    (outcome : interruptExecution execution interruptIds now = .ok transition) :
    ∃ deadline, execution.executionDeadline = some deadline ∧
      transition = {
        execution := { execution with
          status := .interrupted
          interruptIds := interruptIds.reverse.dedup.reverse
          updatedAt := now }
        completeWork := .current
        deadlineWorkAt := some deadline } := by
  unfold interruptExecution at outcome
  simp only [bind, Except.bind, throw, throwThe, MonadExceptOf.throw] at outcome
  split at outcome
  · cases outcome
  · split at outcome
    · cases outcome
    · next deadline running =>
        split at outcome
        · cases outcome
        · next interrupted valid =>
            obtain rfl := replaced_eq_ok valid
            exact ⟨deadline, running, (Except.ok.inj outcome).symm⟩

/-- A finish leaves a terminal or an uncertain execution. -/
theorem finishExecution_eq_ok (outcome : finishExecution execution report now = .ok transition) :
    (report.status.isTerminal = true ∨ report.status = .needsAttention) ∧
      transition = {
        execution := { execution with
          status := report.status
          result := report.result
          failureCode := report.failureCode
          failureMessage := report.failureMessage
          finishedAt := if report.status.isTerminal then some now else none
          updatedAt := now }
        completeWork := .all
        releaseCapacity := report.status.isTerminal } := by
  unfold finishExecution at outcome
  simp only [bind, Except.bind, throw, throwThe, MonadExceptOf.throw] at outcome
  split at outcome
  · cases outcome
  · next settled =>
      split at outcome
      · cases outcome
      · next finished valid =>
          obtain rfl := replaced_eq_ok valid
          refine ⟨?_, (Except.ok.inj outcome).symm⟩
          by_cases terminal : report.status.isTerminal = true
          · exact .inl terminal
          · exact .inr (by simpa [terminal] using settled)

/-- What a cancellation decides: unstarted work ends, running work is asked to stop, and everything
else stays. -/
theorem cancelExecution_eq_ok (outcome : cancelExecution execution now = .ok transition) :
    ((execution.status = .queued ∨ execution.status = .interrupted) ∧ transition = {
        execution := { execution with
          status := .cancelled
          finishedAt := some now
          updatedAt := now }
        completeWork := .all
        releaseCapacity := true }) ∨
      (execution.status = .running ∧ transition =
        { execution := { execution with status := .cancelRequested, updatedAt := now } }) ∨
      ((execution.status = .cancelRequested ∨ execution.status.isTerminal = true) ∧
        transition = { execution }) := by
  unfold cancelExecution at outcome
  split at outcome <;> rename_i status <;> cases outcome
  · exact .inl ⟨.inl status, rfl⟩
  · exact .inl ⟨.inr status, rfl⟩
  · exact .inr (.inl ⟨status, rfl⟩)
  · exact .inr (.inr ⟨.inl status, rfl⟩)
  all_goals exact .inr (.inr ⟨.inr (by rw [status]; rfl), rfl⟩)

theorem resolveExecution_eq_ok
    (outcome : resolveExecution execution resolution reason now = .ok transition) :
    execution.status = .needsAttention ∧ ∃ failureCode failureMessage, transition = {
      execution := { execution with
        status := resolution.status
        failureCode
        failureMessage
        finishedAt := some now
        updatedAt := now }
      releaseCapacity := true } := by
  unfold resolveExecution at outcome
  simp only [bind, Except.bind, throw, throwThe, MonadExceptOf.throw] at outcome
  split at outcome
  · cases outcome
  · split at outcome
    · cases outcome
    · next uncertain =>
        split at outcome
        · cases outcome
        · next resolved valid =>
            obtain rfl := replaced_eq_ok valid
            exact ⟨not_not.mp uncertain, _, _, (Except.ok.inj outcome).symm⟩

theorem recoverExpiredClaim_cases (execution : AutomationExecution) (kind : WorkKind) (now : Nat) :
    (kind = .execute ∧ execution.startAuthorizedAt.isSome = true ∧
      recoverExpiredClaim execution kind now = {
        execution := { execution with
          status := .needsAttention
          failureCode := some "automation.claim_lost_after_start"
          failureMessage := some "Execution ownership expired after start"
          updatedAt := now }
        completeWork := .current }) ∨
      ¬(kind = .execute ∧ execution.startAuthorizedAt.isSome = true) ∧
        recoverExpiredClaim execution kind now = { execution } := by
  unfold recoverExpiredClaim
  split
  · next started => exact .inl ⟨started.1, started.2, rfl⟩
  · next other => exact .inr ⟨other, rfl⟩

/-! ## Rules keep the attempt -/

theorem claimCandidate_sameAttempt (decided : claimCandidate execution kind now = some transition) :
    SameAttempt execution transition.execution := by
  rcases claimCandidate_eq_some decided with ⟨rfl, _⟩ | ⟨rfl, _⟩ <;> exact ⟨rfl, rfl, rfl, rfl, rfl⟩

theorem authorizeStart_sameAttempt
    (outcome : authorizeStart execution kind admitted now timeout token = .ok authorization) :
    SameAttempt execution authorization.execution := by
  obtain ⟨-, -, -, -, deadline, same⟩ := authorizeStart_eq_ok outcome
  rw [same]
  exact ⟨rfl, rfl, rfl, rfl, rfl⟩

theorem interruptExecution_sameAttempt
    (outcome : interruptExecution execution interruptIds now = .ok transition) :
    SameAttempt execution transition.execution := by
  obtain ⟨deadline, -, rfl⟩ := interruptExecution_eq_ok outcome
  exact ⟨rfl, rfl, rfl, rfl, rfl⟩

theorem finishExecution_sameAttempt
    (outcome : finishExecution execution report now = .ok transition) :
    SameAttempt execution transition.execution := by
  obtain ⟨-, rfl⟩ := finishExecution_eq_ok outcome
  exact ⟨rfl, rfl, rfl, rfl, rfl⟩

theorem cancelExecution_sameAttempt (outcome : cancelExecution execution now = .ok transition) :
    SameAttempt execution transition.execution := by
  rcases cancelExecution_eq_ok outcome with ⟨-, rfl⟩ | ⟨-, rfl⟩ | ⟨-, rfl⟩ <;>
    exact ⟨rfl, rfl, rfl, rfl, rfl⟩

theorem resolveExecution_sameAttempt
    (outcome : resolveExecution execution resolution reason now = .ok transition) :
    SameAttempt execution transition.execution := by
  obtain ⟨-, _, _, rfl⟩ := resolveExecution_eq_ok outcome
  exact ⟨rfl, rfl, rfl, rfl, rfl⟩

theorem recoverExpiredClaim_sameAttempt (execution : AutomationExecution) (kind : WorkKind)
    (now : Nat) : SameAttempt execution (recoverExpiredClaim execution kind now).execution := by
  rcases recoverExpiredClaim_cases execution kind now with ⟨-, -, same⟩ | ⟨-, same⟩ <;>
    rw [same] <;> exact ⟨rfl, rfl, rfl, rfl, rfl⟩

/-! ## Rules keep texts canonical -/

theorem claimCandidate_canonical (decided : claimCandidate execution kind now = some transition)
    (canonical : execution.canonical = true) : transition.execution.canonical = true := by
  rcases claimCandidate_eq_some decided with ⟨rfl, _⟩ | ⟨rfl, _⟩
  · exact canonical
  · simp only [AutomationExecution.canonical, Bool.and_eq_true] at canonical
    simp only [AutomationExecution.canonical, expireQueued, canonical.2, Bool.and_true]
    decide +kernel

theorem authorizeStart_canonical
    (outcome : authorizeStart execution kind admitted now timeout token = .ok authorization)
    (canonical : execution.canonical = true) : authorization.execution.canonical = true := by
  obtain ⟨-, -, -, -, deadline, same⟩ := authorizeStart_eq_ok outcome
  rw [same]
  exact canonical

theorem interruptExecution_canonical
    (outcome : interruptExecution execution interruptIds now = .ok transition) :
    transition.execution.canonical = true := by
  unfold interruptExecution at outcome
  simp only [bind, Except.bind, throw, throwThe, MonadExceptOf.throw] at outcome
  split at outcome
  · cases outcome
  · split at outcome
    · cases outcome
    · split at outcome
      · cases outcome
      · next interrupted valid =>
          obtain ⟨rfl, canonical⟩ := replaced_eq_ok_iff.mp valid
          obtain rfl := Except.ok.inj outcome
          exact canonical

theorem interruptExecution_ids
    (outcome : interruptExecution execution interruptIds now = .ok transition) :
    interruptIds ≠ [] ∧ interruptIds.all (isPersistedText · none) = true := by
  constructor
  · rintro rfl
    simp [interruptExecution, bind, Except.bind, throw, throwThe, MonadExceptOf.throw] at outcome
  · have canonical := interruptExecution_canonical outcome
    obtain ⟨deadline, -, rfl⟩ := interruptExecution_eq_ok outcome
    simp only [AutomationExecution.canonical, Bool.and_eq_true, List.all_eq_true, List.mem_reverse,
      List.mem_dedup] at canonical
    simpa only [List.all_eq_true] using canonical.2

theorem finishExecution_canonical
    (outcome : finishExecution execution report now = .ok transition) :
    transition.execution.canonical = true := by
  unfold finishExecution at outcome
  simp only [bind, Except.bind, throw, throwThe, MonadExceptOf.throw] at outcome
  split at outcome
  · cases outcome
  · split at outcome
    · cases outcome
    · next finished valid =>
        obtain ⟨rfl, canonical⟩ := replaced_eq_ok_iff.mp valid
        obtain rfl := Except.ok.inj outcome
        exact canonical

theorem cancelExecution_canonical (outcome : cancelExecution execution now = .ok transition)
    (canonical : execution.canonical = true) : transition.execution.canonical = true := by
  rcases cancelExecution_eq_ok outcome with ⟨-, rfl⟩ | ⟨-, rfl⟩ | ⟨-, rfl⟩ <;> exact canonical

theorem resolveExecution_canonical
    (outcome : resolveExecution execution resolution reason now = .ok transition) :
    transition.execution.canonical = true := by
  unfold resolveExecution at outcome
  simp only [bind, Except.bind, throw, throwThe, MonadExceptOf.throw] at outcome
  split at outcome
  · cases outcome
  · split at outcome
    · cases outcome
    · split at outcome
      · cases outcome
      · next resolved valid =>
          obtain ⟨rfl, canonical⟩ := replaced_eq_ok_iff.mp valid
          obtain rfl := Except.ok.inj outcome
          exact canonical

theorem recoverExpiredClaim_canonical (kind : WorkKind) (now : Nat)
    (canonical : execution.canonical = true) :
    (recoverExpiredClaim execution kind now).execution.canonical = true := by
  rcases recoverExpiredClaim_cases execution kind now with ⟨-, -, same⟩ | ⟨-, same⟩ <;> rw [same]
  · simp only [AutomationExecution.canonical, Bool.and_eq_true] at canonical
    simp only [AutomationExecution.canonical, canonical.2, Bool.and_true]
    decide +kernel
  · exact canonical

/-- An uncertain execution can be resolved with every canonical reason. -/
theorem resolveExecution_accepts (canonical : execution.canonical = true)
    (uncertain : execution.status = .needsAttention)
    (reasonable : isPersistedText reason none = true) (resolution : AttentionResolution)
    (now : Nat) :
    ∃ transition, resolveExecution execution resolution reason now = .ok transition := by
  have trimmed : (reason.isEmpty || !(reason == Bytes.strip reason)) = false := by
    simp only [isPersistedText, Bool.and_eq_true, Bool.not_eq_true'] at reasonable
    simp [reasonable.1.1.1, reasonable.1.1.2]
  have accepted : ∃ resolved, replaced { execution with
      status := resolution.status
      failureCode := if resolution = .failed then some "automation.explicit_resolution" else
        execution.failureCode
      failureMessage := if resolution = .failed then some reason else none
      finishedAt := some now
      updatedAt := now } = .ok resolved := by
    refine ⟨_, replaced_eq_ok_iff.mpr ⟨rfl, ?_⟩⟩
    simp only [AutomationExecution.canonical, Bool.and_eq_true] at canonical ⊢
    refine ⟨⟨?_, ?_⟩, canonical.2⟩ <;> split
    · decide +kernel
    · exact canonical.1.1
    · exact reasonable
    · rfl
  obtain ⟨resolved, accepted⟩ := accepted
  refine ⟨{ execution := resolved, releaseCapacity := true }, ?_⟩
  simp [resolveExecution, trimmed, uncertain, accepted, bind, Except.bind, pure, Except.pure]

end

end Tinkerfin.Automation
