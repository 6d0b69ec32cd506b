import Tinkerfin.Automation.Schedules
import Tinkerfin.Lib.Json
import Tinkerfin.Messaging.Contract

/-!
# Tasks, executions and the store contract

Persisted tasks and execution attempts, the limits they run under, and the values a store exchanges
with schedulers and workers.  A task carries the canonical form of its texts; an execution is built
from a task or from validated command input.
-/

namespace Tinkerfin.Automation

open Messaging (RunIdentity)

/-! ## Persisted text -/

/-- Whether a text is non-empty, trimmed, free of NUL and at most so many characters long. -/
def isPersistedText (value : String) (maximum : Option Nat) : Bool :=
  !value.isEmpty && value == Bytes.strip value && !value.toList.contains (Char.ofNat 0) &&
    maximum.all (value.length ≤ ·)

/-- Reject text values that differ across the supported backends. -/
def validatePersistedText (value name : String) (maximum : Option Nat) : Except Raised Unit :=
  if value.isEmpty || !(value == Bytes.strip value) then
    .error (.valueError s!"{name} must be a non-empty canonical value")
  else if value.toList.contains (Char.ofNat 0) then
    .error (.valueError s!"{name} must not contain NUL bytes")
  else if maximum.all (value.length ≤ ·) then
    .ok ()
  else
    .error (.valueError s!"{name} must contain at most {maximum.getD 0} characters")

theorem validatePersistedText_eq_ok {value name : String} {maximum : Option Nat} :
    validatePersistedText value name maximum = .ok () ↔ isPersistedText value maximum = true := by
  unfold validatePersistedText isPersistedText
  generalize value.isEmpty = empty
  generalize (value == Bytes.strip value) = trimmed
  generalize value.toList.contains (Char.ofNat 0) = nul
  generalize maximum.all (value.length ≤ ·) = short
  cases empty <;> cases trimmed <;> cases nul <;> cases short <;> simp

/-! ## Policies -/

theorem defaultExecution_positive : (0 : Int) < 30 * 60 * microsecondsPerSecond := by decide

/-- Queueing and execution bounds of one task or one-time owner. -/
structure ExecutionLimits where
  maxConcurrentRuns : Nat := 1
  maxQueuedRuns : Nat := 10
  executionTimeout : Int := 30 * 60 * microsecondsPerSecond
  queueTimeout : Int := 24 * 3600 * microsecondsPerSecond
  concurrencyPositive : 1 ≤ maxConcurrentRuns := by first | exact Nat.one_pos | decide
  executionPositive : 0 < executionTimeout := by
    first | exact defaultExecution_positive | decide
  queuePositive : 0 < queueTimeout := by first | exact defaultWindow_positive | decide

/-! ## Tasks and executions -/

/-- The members of a JSON object. -/
abbrev JsonObject := List (String × Json)

/-- Whether a task may create new scheduled executions. -/
inductive TaskStatus
  | enabled
  | paused
  deriving DecidableEq, Repr

/-- Framework-owned state of one execution attempt. -/
inductive ExecutionStatus
  | queued
  | running
  | interrupted
  | cancelRequested
  | succeeded
  | failed
  | timedOut
  | cancelled
  | needsAttention
  deriving DecidableEq, Repr

/-- Whether no automatic transition may execute the run. -/
def ExecutionStatus.isTerminal : ExecutionStatus → Bool
  | .succeeded | .failed | .timedOut | .cancelled => true
  | .queued | .running | .interrupted | .cancelRequested | .needsAttention => false

/-- Reason an execution was created. -/
inductive ExecutionOrigin
  | scheduled
  | manual
  | oneTime
  | retry
  deriving DecidableEq, Repr

/-- Audited outcomes of an execution with uncertain external state. -/
inductive AttentionResolution
  | succeeded
  | failed
  | cancelled
  deriving DecidableEq, Repr

/-- The execution status that a resolution names. -/
def AttentionResolution.status : AttentionResolution → ExecutionStatus
  | .succeeded => .succeeded
  | .failed => .failed
  | .cancelled => .cancelled

theorem AttentionResolution.status_isTerminal (resolution : AttentionResolution) :
    resolution.status.isTerminal = true := by
  cases resolution <;> rfl

/-- Whether the texts of a task are canonical. -/
def canonicalTask (taskId «namespace» ownerId name target : String) : Bool :=
  isPersistedText taskId (some 36) && isPersistedText «namespace» (some 128) &&
    isPersistedText ownerId (some 191) && isPersistedText name (some 255) &&
      isPersistedText target (some 191)

/-- The checks on the texts of a new or replaced task. -/
def validateTask (taskId «namespace» ownerId name target : String) : Except Raised Unit := do
  validatePersistedText taskId "task_id" (some 36)
  validatePersistedText «namespace» "namespace" (some 128)
  validatePersistedText ownerId "owner_id" (some 191)
  validatePersistedText name "name" (some 255)
  validatePersistedText target "target" (some 191)

theorem validateTask_eq_ok {taskId «namespace» ownerId name target : String} :
    validateTask taskId «namespace» ownerId name target = .ok () ↔
      canonicalTask taskId «namespace» ownerId name target = true := by
  have bind_eq_ok : ∀ {first second : Except Raised Unit},
      (first >>= fun _ => second) = .ok () ↔ first = .ok () ∧ second = .ok () := by
    intro first second
    cases first <;> simp [bind, Except.bind]
  simp only [validateTask, canonicalTask, bind_eq_ok, validatePersistedText_eq_ok,
    Bool.and_eq_true, and_assoc]

/-- A persisted task definition of one owner. -/
structure AutomationTask where
  taskId : String
  «namespace» : String
  ownerId : String
  name : String
  target : String
  input : JsonObject
  schedule : Schedule
  status : TaskStatus
  revision : Int
  nextRunAt : Option Nat
  misfirePolicy : MisfirePolicy
  limits : ExecutionLimits
  createdAt : Nat
  updatedAt : Nat
  canonical : canonicalTask taskId «namespace» ownerId name target = true

/-- A persisted attempt to run a task snapshot or one-time input. -/
structure AutomationExecution where
  executionId : String
  taskId : Option String
  «namespace» : String
  ownerId : String
  identity : RunIdentity
  target : String
  input : JsonObject
  limits : ExecutionLimits
  origin : ExecutionOrigin
  status : ExecutionStatus
  attempt : Nat
  retryOf : Option String
  scheduledFor : Option Nat
  queuedAt : Nat
  queueDeadline : Nat
  executionStartedAt : Option Nat := none
  executionDeadline : Option Nat := none
  finishedAt : Option Nat := none
  failureCode : Option String := none
  failureMessage : Option String := none
  result : Option Json := none
  interruptIds : List String := []
  startAuthorizedAt : Option Nat := none
  startToken : Option String := none
  createdAt : Nat
  updatedAt : Nat

/-! ## Store contract -/

/-- Durable action of one claimable work item. -/
inductive WorkKind
  | execute
  | expireInterrupt
  deriving DecidableEq, Repr

/-- Fenced ownership of one work item. -/
structure WorkItemClaim where
  workItemId : String
  «namespace» : String
  executionId : String
  kind : WorkKind
  claimToken : String
  fence : Nat
  leaseUntil : Nat
  deriving DecidableEq, Repr

/-- The only permission to invoke a target for one execution. -/
structure StartAuthorization where
  execution : AutomationExecution
  startToken : String

/-- One due execution and its schedule occurrence key. -/
structure ScheduledExecution where
  execution : AutomationExecution
  occurrenceKey : String

/-- Task wakeup advancement and the executions persisted with it. -/
structure MaterializationResult where
  task : AutomationTask
  executions : List AutomationExecution

/-- One page of tasks. -/
structure TaskPage where
  items : List AutomationTask
  nextCursor : Option String := none

/-- One page of executions. -/
structure ExecutionPage where
  items : List AutomationExecution
  nextCursor : Option String := none

end Tinkerfin.Automation
