import Tinkerfin.Automation.Identity
import Tinkerfin.Automation.Memory

/-!
# The service

Task commands and execution commands over the store.  A command checks its input, reads the records it
builds on, and then makes one store call; the records it read are not locked in between.  Scheduler
wakeups materialise a task in the same three phases.  Clock readings and fresh identifiers are
arguments.
-/

namespace Tinkerfin.Automation

open MemoryAutomationStore

/-! ## Input checks -/

/-- Whether a text is a canonical identifier of at most so many characters. -/
def isIdentifier (value : String) (maximum : Nat) : Bool := isPersistedText value (some maximum)

def validateIdentifier (value name : String) (maximum : Nat) : Except Raised Unit :=
  if value.toList.contains (Char.ofNat 0) then
    .error (.valueError s!"{name} must not contain NUL bytes")
  else if value.isEmpty || !(value == Bytes.strip value) || decide (maximum < value.length) then
    .error (.valueError s!"{name} must be a non-empty canonical value")
  else
    .ok ()

def validateOwner (ownerId : String) : Except Raised Unit :=
  validateIdentifier ownerId "owner_id" 191

def validateName (name : String) : Except Raised Unit := validateIdentifier name "name" 255

def validateTarget (target : String) : Except Raised Unit :=
  validateIdentifier target "target" 191

def validateRequestId : Option String → Except Raised Unit
  | none => .ok ()
  | some requestId => validateIdentifier requestId "request_id" 128

/-- Canonical JSON input, empty when there is none. -/
def jsonInput (value : Option JsonObject) : JsonObject := Json.normalizedMembers (value.getD [])

/-! ## Digested values -/

def MisfireMode.value : MisfireMode → String
  | .skip => "skip"
  | .latest => "latest"
  | .catchUp => "catch_up"

/-- A length of time in seconds. -/
def secondsJson (duration : Int) : Json := .float (Double.secondsText duration.toNat)

def misfireJson (policy : MisfirePolicy) : Json := .object [
  ("mode", .string policy.mode.value),
  ("grace_seconds", secondsJson policy.grace),
  ("catch_up_window_seconds", secondsJson policy.catchUpWindow),
  ("max_catch_up", .int policy.maxCatchUp)]

def limitsJson (limits : ExecutionLimits) : Json := .object [
  ("max_concurrent_runs", .int limits.maxConcurrentRuns),
  ("max_queued_runs", .int limits.maxQueuedRuns),
  ("execution_timeout_seconds", secondsJson limits.executionTimeout),
  ("queue_timeout_seconds", secondsJson limits.queueTimeout)]

/-! ## The service -/

/-- A service over one namespace, with the installed timezones. -/
structure AutomationService where
  «namespace» : String
  zones : String → Zone
  closed : Bool := false
  canonical : isIdentifier «namespace» 128 = true

namespace AutomationService

variable (service : AutomationService)

def ensureOpen : StoreM Unit := do
  if service.closed then
    throw .serviceClosed

/-- Prepare storage before an operation can observe it. -/
def setupStore : StoreM Unit := do
  service.ensureOpen
  setup
  service.ensureOpen

def getTask (ownerId taskId : String) : StoreM AutomationTask := do
  service.setupStore
  ofExcept (validateOwner ownerId)
  MemoryAutomationStore.getTask service.namespace ownerId taskId

/-- The next instant of a schedule that a task is to wait for. -/
def futureRun (schedule : Schedule) (now : Nat) : Except Raised Nat := do
  match ← nextRunAfter service.zones schedule now with
  | none => throw (.invalidSchedule "Task schedule has no future run" [])
  | some nextRunAt => return nextRunAt

end AutomationService

/-! ## Creating a task -/

namespace CreateTask

variable (command : CreateTask)

end CreateTask

/-! ## Changing a task -/

/-- Fields that an update replaces; absent ones keep their values. -/
structure TaskChanges where
  name : Option String := none
  schedule : Option Schedule := none
  target : Option String := none
  input : Option JsonObject := none
  misfirePolicy : Option MisfirePolicy := none
  limits : Option ExecutionLimits := none

/-- What a task command does to its task. -/
inductive TaskAction
  | update (changes : TaskChanges)
  | pause
  | enable

/-- A command that replaces a task at an expected revision. -/
structure TaskCommand where
  ownerId : String
  taskId : String
  expectedRevision : Int
  requestId : Option String := none
  action : TaskAction

namespace TaskCommand

variable (service : AutomationService) (command : TaskCommand)

/-- Check the input and read the task that the command builds on. -/
def fetch : StoreM AutomationTask := do
  service.setupStore
  match command.action with
  | .update changes =>
    ofExcept (validateOwner command.ownerId)
    ofExcept (validateRequestId command.requestId)
    let current ← service.getTask command.ownerId command.taskId
    ofExcept (validateName (changes.name.getD current.name))
    ofExcept (validateTarget (changes.target.getD current.target))
    return current
  | .pause | .enable =>
    ofExcept (validateRequestId command.requestId)
    service.getTask command.ownerId command.taskId

/-- The schedule that the command writes. -/
def schedule (current : AutomationTask) : Schedule :=
  match command.action with
  | .update changes => changes.schedule.getD current.schedule
  | .pause | .enable => current.schedule

/-- The next wakeup that the command writes. -/
def nextRunAt (current : AutomationTask) (now : Nat) : Except Raised (Option Nat) :=
  match command.action with
  | .update changes =>
    if current.status = .enabled ∧ changes.schedule.isSome then
      some <$> service.futureRun (command.schedule current) now
    else
      .ok current.nextRunAt
  | .pause => .ok current.nextRunAt
  | .enable => some <$> service.futureRun (command.schedule current) now

/-- The task that the command writes, computed from the task it read. -/
def replacement (current : AutomationTask) (now : Nat) : Except Raised AutomationTask :=
  match command.nextRunAt service current now with
  | .error raised => .error raised
  | .ok nextRunAt =>
    match command.action with
    | .update changes =>
      match checked : validateTask current.taskId current.namespace current.ownerId
          (changes.name.getD current.name) (changes.target.getD current.target) with
      | .error raised => .error raised
      | .ok () => .ok { current with
          name := changes.name.getD current.name
          target := changes.target.getD current.target
          input := if changes.input.isSome then jsonInput changes.input else current.input
          schedule := command.schedule current
          revision := command.expectedRevision + 1
          nextRunAt
          misfirePolicy := changes.misfirePolicy.getD current.misfirePolicy
          limits := changes.limits.getD current.limits
          updatedAt := now
          canonical := validateTask_eq_ok.mp checked }
    | .pause => .ok { current with
        status := .paused
        revision := command.expectedRevision + 1
        updatedAt := now }
    | .enable => .ok { current with
        status := .enabled
        revision := command.expectedRevision + 1
        nextRunAt
        updatedAt := now }

/-- The digest of the command; an update is digested with the fields it leaves. -/
def digest (updated : AutomationTask) : String :=
  match command.action with
  | .update _ => canonicalDigest [
      ("operation", .string "update_task"),
      ("task_id", .string command.taskId),
      ("expected_revision", .int command.expectedRevision),
      ("name", .string updated.name),
      ("target", .string updated.target),
      ("input", .object updated.input),
      ("schedule", scheduleToJson updated.schedule),
      ("misfire_policy", misfireJson updated.misfirePolicy),
      ("limits", limitsJson updated.limits)]
  | .pause => canonicalDigest [
      ("operation", .string "pause_task"),
      ("task_id", .string command.taskId),
      ("expected_revision", .int command.expectedRevision)]
  | .enable => canonicalDigest [
      ("operation", .string "enable_task"),
      ("task_id", .string command.taskId),
      ("expected_revision", .int command.expectedRevision)]

/-- The store call of a command that read a task and the clock. -/
def call (current : AutomationTask) (now : Nat) : Except Raised StoreCall :=
  (command.replacement service current now).map fun updated =>
    .updateTask updated command.expectedRevision command.requestId (command.digest updated)

end TaskCommand

/-! ## Queueing executions -/

/-- The queued execution of a task snapshot. -/
def newExecution (task : AutomationTask) (occurrence : String) (origin : ExecutionOrigin)
    (attempt : Nat) (retryOf : Option String) (scheduledFor : Option Nat) (now : Nat) :
    Except Raised AutomationExecution := do
  let (executionId, identity) :=
    executionIdentity task.namespace task.ownerId (some task.taskId) occurrence attempt
  let queueDeadline ← later now task.limits.queueTimeout
  return {
    executionId
    taskId := some task.taskId
    «namespace» := task.namespace
    ownerId := task.ownerId
    identity
    target := task.target
    input := task.input
    limits := task.limits
    origin
    status := .queued
    attempt
    retryOf
    scheduledFor
    queuedAt := now
    queueDeadline
    createdAt := now
    updatedAt := now }

/-! ## Scheduler wakeups -/

namespace AutomationService

variable (service : AutomationService)

/-- The due execution of a task snapshot at one instant. -/
def dueExecution (task : AutomationTask) (now scheduledFor : Nat) :
    Except Raised ScheduledExecution := do
  let occurrence := occurrenceKey [service.namespace, task.ownerId, task.taskId,
    toString task.revision, isoformat scheduledFor]
  let execution ← newExecution task occurrence .scheduled 1 none (some scheduledFor) now
  return { execution, occurrenceKey := occurrence }

/-- The task snapshot that a wakeup builds on, unless the task does not wait. -/
def fetchDueTask (taskId : String) : StoreM (Option AutomationTask) := do
  let task ← getScheduledTask service.namespace taskId
  return if task.status = .enabled ∧ task.nextRunAt.isSome then some task else none

/-- The store call of a wakeup that read a task and the clock, with the identifiers and the clock
reading of the work items that the store creates. -/
def materialization (task : AutomationTask) (now : Nat) (workItemId : Nat → String)
    (createdAt : Nat) : Except Raised StoreCall := do
  -- A task without a next wakeup was left alone by the read.
  let firstDue := task.nextRunAt.getD 0
  let materialized ← materializeSchedule service.zones task.schedule firstDue now task.misfirePolicy
  let executions ← materialized.dueAt.mapM (service.dueExecution task now)
  return .materializeTask { task with nextRunAt := materialized.nextRunAt } firstDue
    (executions.zipIdx.map fun indexed => (indexed.1, workItemId indexed.2)) createdAt

end AutomationService

/-! ## Commands -/

namespace AutomationService

end AutomationService

end Tinkerfin.Automation
