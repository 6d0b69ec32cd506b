import Mathlib.Data.Finset.Basic
import Mathlib.Data.List.Sort
import Tinkerfin.Automation.Rules
import Tinkerfin.Lib.Dict

/-!
# The in-memory store

Task and execution records, work items and slot allocations of one process.  An operation runs while
the store's lock is held; it reads and writes the maps in the order of its statements, and whatever
it wrote before raising stays written.  Clock readings, random tokens and fresh identifiers are
arguments of the operations that draw them.
-/

namespace Tinkerfin.Automation

/-! ## Records -/

theorem defaultLimits_positive : 0 < 10000 ∧ 0 < 100000 ∧ 0 < 100000 ∧ 0 < 100000 := by decide

/-- Bounds on the records of one store, all positive. -/
structure MemoryStoreLimits where
  maxTasks : Nat := 10000
  maxExecutions : Nat := 100000
  maxWorkItems : Nat := 100000
  maxOperations : Nat := 100000
  positive : 0 < maxTasks ∧ 0 < maxExecutions ∧ 0 < maxWorkItems ∧ 0 < maxOperations := by
    first | exact defaultLimits_positive | decide
  deriving DecidableEq

inductive WorkStatus
  | pending
  | claimed
  | completed
  deriving DecidableEq, Repr

structure WorkItem where
  workItemId : String
  «namespace» : String
  executionId : String
  kind : WorkKind
  availableAt : Nat
  createdAt : Nat
  status : WorkStatus := .pending
  workerId : Option String := none
  claimToken : Option String := none
  fence : Nat := 0
  leaseUntil : Option Nat := none
  deriving DecidableEq, Repr

namespace WorkItem

/-- The item without an owner, under a status. -/
def released (item : WorkItem) (status : WorkStatus) : WorkItem :=
  { item with status, workerId := none, claimToken := none, leaseUntil := none }

/-- The item pending again at an instant. -/
def rescheduled (item : WorkItem) (availableAt : Nat) : WorkItem :=
  { item.released .pending with availableAt }

/-- The item owned by a worker under the next fence; the lease is set separately. -/
def claimedBy (item : WorkItem) (workerId claimToken : String) : WorkItem :=
  { item with
    status := .claimed
    workerId := some workerId
    claimToken := some claimToken
    fence := item.fence + 1 }

/-- The item under a new lease. -/
def leased (item : WorkItem) (leaseUntil : Nat) : WorkItem :=
  { item with leaseUntil := some leaseUntil }

/-- Queue order: availability, then creation, then identity. -/
def before (left right : WorkItem) : Prop :=
  left.availableAt < right.availableAt ∨
    left.availableAt = right.availableAt ∧
      (left.createdAt < right.createdAt ∨
        left.createdAt = right.createdAt ∧ left.workItemId ≤ right.workItemId)

instance : DecidableRel before := fun _ _ => inferInstanceAs (Decidable (_ ∨ _))

end WorkItem

/-- What a recorded command returned. -/
inductive OperationResult
  | task (task : AutomationTask)
  | execution (execution : AutomationExecution)
  | text (value : String)

structure Operation where
  inputDigest : String
  result : OperationResult

/-- Namespace, kind and key of a concurrency scope. -/
abbrev ScopeKey := String × String × String

/-- The scope every execution of a namespace shares. -/
def globalScope («namespace» : String) : ScopeKey := («namespace», "global", "global")

/-- The task or owner scope of an execution. -/
def taskScope (execution : AutomationExecution) : ScopeKey :=
  (execution.namespace, executionScope execution)

structure MemoryAutomationStore where
  limits : MemoryStoreLimits := {}
  tasks : Dict String AutomationTask := .empty
  executions : Dict String AutomationExecution := .empty
  occurrences : Dict (String × String) String := .empty
  work : Dict String WorkItem := .empty
  workKeys : Dict (String × String × WorkKind) String := .empty
  operations : Dict (String × String × String) Operation := .empty
  scopeAllocations : Dict ScopeKey Nat := .empty
  admitted : Finset String := ∅
  closed : Bool := false

/-- Operations on the store. -/
abbrev StoreM := EStateM Raised MemoryAutomationStore

namespace MemoryAutomationStore

/-- A store before any operation. -/
def opened (limits : MemoryStoreLimits) : MemoryAutomationStore := { limits }

/-! ## Checks -/

def ensureOpen : StoreM Unit := do
  if (← get).closed then
    throw .storeClosed

def ensureCapacity (kind : String) (current maximum : Nat) : StoreM Unit := do
  if maximum ≤ current then
    throw (.capacityExhausted kind maximum)

/-- Validate direct ownership inputs. -/
def validateScope («namespace» ownerId : String) : StoreM Unit := do
  ofExcept (validatePersistedText «namespace» "namespace" (some 128))
  ofExcept (validatePersistedText ownerId "owner_id" (some 191))

def ownedTask («namespace» ownerId taskId : String) : StoreM AutomationTask := do
  match (← get).tasks.get? taskId with
  | none => throw (.taskNotFound taskId)
  | some task =>
    if task.namespace ≠ «namespace» ∨ task.ownerId ≠ ownerId then
      throw (.taskNotFound taskId)
    return task

def ownedExecution («namespace» ownerId executionId : String) : StoreM AutomationExecution := do
  match (← get).executions.get? executionId with
  | none => throw (.executionNotFound executionId)
  | some execution =>
    if execution.namespace ≠ «namespace» ∨ execution.ownerId ≠ ownerId then
      throw (.executionNotFound executionId)
    return execution

/-! ## Recorded operations -/

/-- The recorded result of a command, if its request was recorded with the same digest. -/
def operationResult («namespace» ownerId : String) (requestId : Option String)
    (inputDigest : String) : StoreM (Option OperationResult) := do
  match requestId with
  | none => return none
  | some requestId =>
    match (← get).operations.get? («namespace», ownerId, requestId) with
    | none => return none
    | some operation =>
      if operation.inputDigest ≠ inputDigest then
        throw (.requestReused requestId)
      return some operation.result

def requireOperationCapacity (requestId : Option String) : StoreM Unit := do
  match requestId with
  | none => return
  | some _ =>
    let store ← get
    ensureCapacity "operations" store.operations.size store.limits.maxOperations

def saveOperation («namespace» ownerId : String) (requestId : Option String)
    (inputDigest : String) (result : OperationResult) : StoreM Unit := do
  match requestId with
  | none => return
  | some requestId =>
    let store ← get
    ensureCapacity "operations" store.operations.size store.limits.maxOperations
    modify fun store => { store with
      operations := store.operations.insert («namespace», ownerId, requestId)
        { inputDigest, result } }

def expectTask : OperationResult → StoreM AutomationTask
  | .task task => return task
  | .execution _ | .text _ => throw .storedResultInvalid

def expectExecution : OperationResult → StoreM AutomationExecution
  | .execution execution => return execution
  | .task _ | .text _ => throw .storedResultInvalid

def expectText : OperationResult → StoreM String
  | .text value => return value
  | .task _ | .execution _ => throw .storedResultInvalid

/-! ## Work items and slots -/

/-- Change one work item in place. -/
def modifyWork (store : MemoryAutomationStore) (workItemId : String) (change : WorkItem → WorkItem) :
    MemoryAutomationStore :=
  match store.work.get? workItemId with
  | none => store
  | some item => { store with work := store.work.insert workItemId (change item) }

/-- Replace one execution. -/
def putExecution (store : MemoryAutomationStore) (execution : AutomationExecution) :
    MemoryAutomationStore :=
  { store with executions := store.executions.insert execution.executionId execution }

/-- Create a work item of an execution, or make the existing one of its kind pending again. -/
def createWork (execution : AutomationExecution) (kind : WorkKind) (availableAt : Nat)
    (workItemId : String) (createdAt : Nat) : StoreM Unit := do
  let store ← get
  match store.workKeys.get? (execution.namespace, execution.executionId, kind) with
  | some existing => modify fun store => store.modifyWork existing (·.rescheduled availableAt)
  | none =>
    ensureCapacity "work_items" store.work.size store.limits.maxWorkItems
    modify fun store => { store with
      work := store.work.insert workItemId
        { workItemId
          «namespace» := execution.namespace
          executionId := execution.executionId
          kind
          availableAt
          createdAt }
      workKeys := store.workKeys.insert (execution.namespace, execution.executionId, kind)
        workItemId }

/-- Complete every work item of an execution. -/
def completeExecutionWork (store : MemoryAutomationStore) (executionId : String) :
    MemoryAutomationStore :=
  { store with work := store.work.mapValues fun _ item =>
      if item.executionId = executionId then item.released .completed else item }

/-- Slots allocated in a scope. -/
def allocated (store : MemoryAutomationStore) (scope : ScopeKey) : Nat :=
  (store.scopeAllocations.get? scope).getD 0

/-- Give one slot of a scope back. -/
def releaseScope (allocations : Dict ScopeKey Nat) (scope : ScopeKey) : Dict ScopeKey Nat :=
  let allocated := (allocations.get? scope).getD 0
  if allocated ≤ 1 then allocations.erase scope else allocations.insert scope (allocated - 1)

/-- Give back the slots of an execution, if it holds any. -/
def releaseScopes (store : MemoryAutomationStore) (execution : AutomationExecution) :
    MemoryAutomationStore :=
  if execution.executionId ∉ store.admitted then
    store
  else
    { store with
      scopeAllocations := releaseScope
        (releaseScope store.scopeAllocations (globalScope execution.namespace)) (taskScope execution)
      admitted := store.admitted.erase execution.executionId }

/-- Take one slot of a scope. -/
def reserveScope (allocations : Dict ScopeKey Nat) (scope : ScopeKey) : Dict ScopeKey Nat :=
  allocations.insert scope ((allocations.get? scope).getD 0 + 1)

/-- Take the slots of an execution when both of its scopes have room. -/
def reserveScopes (execution : AutomationExecution) (globalConcurrency : Int) : StoreM Bool := do
  let store ← get
  if execution.executionId ∈ store.admitted then
    return true
  if globalConcurrency ≤ store.allocated (globalScope execution.namespace) then
    return false
  if execution.limits.maxConcurrentRuns ≤ store.allocated (taskScope execution) then
    return false
  modify fun store => { store with
    scopeAllocations := reserveScope
      (reserveScope store.scopeAllocations (globalScope execution.namespace)) (taskScope execution)
    admitted := insert execution.executionId store.admitted }
  return true

/-- Commit an execution change with its work and capacity effects. -/
def applyTransition (transition : ExecutionTransition) (item : Option String)
    (workItemId : String) (createdAt : Nat) : StoreM AutomationExecution := do
  let execution := transition.execution
  if transition.deadlineWorkAt.isSome then
    let store ← get
    if !store.workKeys.contains (execution.namespace, execution.executionId, .expireInterrupt) then
      ensureCapacity "work_items" store.work.size store.limits.maxWorkItems
  modify (·.putExecution execution)
  match transition.completeWork with
  | .none => pure ()
  | .all => modify (·.completeExecutionWork execution.executionId)
  | .current =>
    match item with
    | none => throw .assertionError
    | some item => modify (·.modifyWork item (·.released .completed))
  if transition.releaseCapacity then
    modify (·.releaseScopes execution)
  match transition.deadlineWorkAt with
  | none => pure ()
  | some deadline => createWork execution .expireInterrupt deadline workItemId createdAt
  return execution

/-- Whether a work item holds an expired lease in a namespace. -/
def leaseExpired (item : WorkItem) («namespace» : String) (now : Nat) : Bool :=
  item.namespace == «namespace» && item.status == .claimed && item.leaseUntil.any (· ≤ now)

/-- Recover one work item whose lease expired. -/
def recoverClaim («namespace» : String) (now : Nat) (workItemId : String) : StoreM Unit := do
  match (← get).work.get? workItemId with
  | none => return
  | some item =>
    if leaseExpired item «namespace» now then
      match (← get).executions.get? item.executionId with
      | none => throw (.keyError item.executionId)
      | some execution =>
        let transition := recoverExpiredClaim execution item.kind now
        discard <| applyTransition transition (some workItemId) "" now
        if transition.completeWork = .none then
          modify (·.modifyWork workItemId fun item => { item with status := .pending })
        modify (·.modifyWork workItemId fun item =>
          { item with workerId := none, claimToken := none, leaseUntil := none })

/-- Recover every work item of a namespace whose lease expired. -/
def recoverExpiredClaims («namespace» : String) (now : Nat) : StoreM Unit := do
  (← get).work.keys.forM (recoverClaim «namespace» now)

/-- Pending work of a namespace that is due, in queue order. -/
def dueWork (store : MemoryAutomationStore) («namespace» : String) (now : Nat) : List WorkItem :=
  ((store.work.entries.map Prod.snd).filter fun item =>
    item.namespace == «namespace» && item.status == .pending && decide (item.availableAt ≤ now))
    |>.insertionSort WorkItem.before

/-- The claim a work item backs. -/
def claimFrom (item : WorkItem) (claimToken : String) (leaseUntil : Nat) : WorkItemClaim where
  workItemId := item.workItemId
  «namespace» := item.namespace
  executionId := item.executionId
  kind := item.kind
  claimToken
  fence := item.fence
  leaseUntil

/-- Arguments and readings of one request for work. -/
structure WorkRequest where
  «namespace» : String
  workerId : String
  limit : Int
  leaseDuration : Int
  globalConcurrency : Int
  now : Nat
  /-- Random tokens, by the number of claims made before. -/
  claimToken : Nat → String

/-- Give one due item to the worker, unless it is not claimable or has no free slot. -/
def claimItem (request : WorkRequest) (claims : List WorkItemClaim) (workItemId : String) :
    StoreM (List WorkItemClaim) := do
  match (← get).work.get? workItemId with
  | none => return claims
  | some item =>
    match (← get).executions.get? item.executionId with
    | none => throw (.keyError item.executionId)
    | some execution =>
      match claimCandidate execution item.kind request.now with
      | some transition =>
        discard <| applyTransition transition (some workItemId) "" request.now
        return claims
      | none =>
        let reserved ← if item.kind = .execute then
            reserveScopes execution request.globalConcurrency
          else
            pure true
        if !reserved then
          return claims
        let token := request.claimToken claims.length
        modify (·.modifyWork workItemId (·.claimedBy request.workerId token))
        let leaseUntil ← ofExcept (later request.now request.leaseDuration)
        modify (·.modifyWork workItemId (·.leased leaseUntil))
        return claims ++ [claimFrom (item.claimedBy request.workerId token) token leaseUntil]

/-- Offer due items in order until the limit is reached. -/
def claimItems (request : WorkRequest) (claims : List WorkItemClaim) :
    List String → StoreM (List WorkItemClaim)
  | [] => return claims
  | workItemId :: rest => do
    if request.limit ≤ claims.length then
      return claims
    let claims ← claimItem request claims workItemId
    claimItems request claims rest

/-- The work item a valid claim owns. -/
def validClaim (claim : WorkItemClaim) (now : Nat) : StoreM WorkItem := do
  ensureOpen
  match (← get).work.get? claim.workItemId with
  | none => throw (.claimInvalid claim.workItemId)
  | some item =>
    if item.namespace ≠ claim.namespace ∨ item.executionId ≠ claim.executionId ∨
        item.status ≠ .claimed ∨ item.claimToken ≠ some claim.claimToken ∨
        item.fence ≠ claim.fence ∨ item.leaseUntil.all (· ≤ now) then
      throw (.claimInvalid claim.workItemId)
    return item

/-- The execution of a work item. -/
def executionOf (item : WorkItem) : StoreM AutomationExecution := do
  match (← get).executions.get? item.executionId with
  | none => throw (.keyError item.executionId)
  | some execution => return execution

/-! ## Task operations -/

def createTask (task : AutomationTask) (requestId : Option String) (inputDigest : String) :
    StoreM AutomationTask := do
  ensureOpen
  match ← operationResult task.namespace task.ownerId requestId inputDigest with
  | some previous => expectTask previous
  | none =>
    let store ← get
    if store.tasks.contains task.taskId then
      throw (.taskExists task.taskId)
    ensureCapacity "tasks" store.tasks.size store.limits.maxTasks
    requireOperationCapacity requestId
    modify fun store => { store with tasks := store.tasks.insert task.taskId task }
    saveOperation task.namespace task.ownerId requestId inputDigest (.task task)
    return task

def updateTask (task : AutomationTask) (expectedRevision : Int) (requestId : Option String)
    (inputDigest : String) : StoreM AutomationTask := do
  ensureOpen
  match ← operationResult task.namespace task.ownerId requestId inputDigest with
  | some previous => expectTask previous
  | none =>
    let current ← ownedTask task.namespace task.ownerId task.taskId
    if current.revision ≠ expectedRevision then
      throw (.taskRevisionChanged task.taskId expectedRevision current.revision)
    if task.revision ≠ expectedRevision + 1 then
      throw (.taskRevisionSkipped task.taskId)
    requireOperationCapacity requestId
    modify fun store => { store with tasks := store.tasks.insert task.taskId task }
    saveOperation task.namespace task.ownerId requestId inputDigest (.task task)
    return task

/-- Cancel one execution of a deleted task if it has not started. -/
def cancelQueued (taskId : String) (now : Nat) (executionId : String) : StoreM Unit := do
  match (← get).executions.get? executionId with
  | none => return
  | some execution =>
    if execution.taskId = some taskId ∧ execution.status = .queued then
      let transition ← ofExcept (cancelExecution execution now)
      discard <| applyTransition transition none "" now

def deleteTask («namespace» ownerId taskId : String) (expectedRevision : Int)
    (requestId : Option String) (inputDigest : String) (now : Nat) : StoreM Unit := do
  validateScope «namespace» ownerId
  ensureOpen
  match ← operationResult «namespace» ownerId requestId inputDigest with
  | some previous => discard <| expectText previous
  | none =>
    let task ← ownedTask «namespace» ownerId taskId
    if task.revision ≠ expectedRevision then
      throw (.taskRevisionChanged taskId expectedRevision task.revision)
    requireOperationCapacity requestId
    modify fun store => { store with tasks := store.tasks.erase taskId }
    (← get).executions.keys.forM (cancelQueued taskId now)
    saveOperation «namespace» ownerId requestId inputDigest (.text taskId)

def getTask («namespace» ownerId taskId : String) : StoreM AutomationTask := do
  validateScope «namespace» ownerId
  ensureOpen
  ownedTask «namespace» ownerId taskId

def getScheduledTask («namespace» taskId : String) : StoreM AutomationTask := do
  ofExcept (validatePersistedText «namespace» "namespace" (some 128))
  ensureOpen
  match (← get).tasks.get? taskId with
  | none => throw (.taskNotFound taskId)
  | some task =>
    if task.namespace ≠ «namespace» then
      throw (.taskNotFound taskId)
    return task

/-! ## Queueing -/

/-- Queued executions that satisfy a condition. -/
def queuedCount (store : MemoryAutomationStore) (counted : AutomationExecution → Bool) : Nat :=
  (store.executions.entries.filter fun entry =>
    counted entry.2 && entry.2.status == .queued).length

/-- Persist one due execution with its occurrence and its work item. -/
def materializeItem («namespace» : String) (now : Nat) (item : ScheduledExecution × String) :
    StoreM Unit := do
  let execution := item.1.execution
  modify fun store => { store.putExecution execution with
    occurrences := store.occurrences.insert («namespace», item.1.occurrenceKey)
      execution.executionId }
  createWork execution .execute execution.queuedAt item.2 now

/-- Occurrence keys known in a namespace. -/
def knownOccurrences (store : MemoryAutomationStore) («namespace» : String) : List String :=
  (store.occurrences.keys.filter fun key => key.1 == «namespace»).map Prod.snd

/-- Persist due executions, each with the fresh identifier of its work item, and advance one task
wakeup. -/
def materializeTask (task : AutomationTask) (expectedNextRunAt : Nat)
    (executions : List (ScheduledExecution × String)) (now : Nat) :
    StoreM MaterializationResult := do
  ensureOpen
  let current ← ownedTask task.namespace task.ownerId task.taskId
  if !materializationIsCurrent current task expectedNextRunAt then
    return { task := current, executions := [] }
  let store ← get
  let pending := pendingOccurrences (store.knownOccurrences task.namespace) executions
  let queued := store.queuedCount fun execution => execution.taskId == some task.taskId
  ofExcept (requireQueueCapacity queued pending.length task.limits.maxQueuedRuns task.taskId)
  if store.limits.maxExecutions < store.executions.size + pending.length then
    ensureCapacity "executions" store.limits.maxExecutions store.limits.maxExecutions
  if store.limits.maxWorkItems < store.work.size + pending.length then
    ensureCapacity "work_items" store.limits.maxWorkItems store.limits.maxWorkItems
  modify fun store => { store with tasks := store.tasks.insert task.taskId task }
  pending.forM (materializeItem task.namespace now)
  return { task, executions := pending.map fun item => item.1.execution }

/-- Arguments of one enqueue. -/
structure EnqueueRequest where
  execution : AutomationExecution
  occurrenceKey : String
  requestId : Option String
  inputDigest : String
  expectedTaskRevision : Option Int := none
  /-- Fresh identifier of the work item. -/
  workItemId : String
  now : Nat

/-- Check the task revision of new task-backed work. -/
def requireTaskBacking (execution : AutomationExecution) (expectedTaskRevision : Option Int) :
    StoreM Unit := do
  match execution.retryOf, execution.taskId with
  | none, some taskId =>
    let task ← ownedTask execution.namespace execution.ownerId taskId
    ofExcept (requireTaskRevision task expectedTaskRevision)
  | _, _ =>
    if expectedTaskRevision.isSome then
      throw (.valueError "expected_task_revision requires new task-backed work")

def enqueueExecution (request : EnqueueRequest) : StoreM AutomationExecution := do
  let execution := request.execution
  ensureOpen
  match ← operationResult execution.namespace execution.ownerId request.requestId
      request.inputDigest with
  | some previous => expectExecution previous
  | none =>
    let store ← get
    match store.occurrences.get? (execution.namespace, request.occurrenceKey) with
    | some existing =>
      match store.executions.get? existing with
      | none => throw (.keyError existing)
      | some stored => return stored
    | none =>
      if execution.status ≠ .queued then
        throw (.valueError "new execution status must be queued")
      if store.executions.contains execution.executionId then
        throw (.executionExists execution.executionId)
      requireTaskBacking execution request.expectedTaskRevision
      let queued := store.queuedCount fun item => sameExecutionScope item execution
      ofExcept (requireQueueCapacity queued 1 execution.limits.maxQueuedRuns
        (execution.taskId.getD execution.ownerId))
      ensureCapacity "executions" store.executions.size store.limits.maxExecutions
      requireOperationCapacity request.requestId
      ensureCapacity "work_items" store.work.size store.limits.maxWorkItems
      modify fun store => { store.putExecution execution with
        occurrences := store.occurrences.insert (execution.namespace, request.occurrenceKey)
          execution.executionId }
      createWork execution .execute execution.queuedAt request.workItemId request.now
      saveOperation execution.namespace execution.ownerId request.requestId request.inputDigest
        (.execution execution)
      return execution

def getExecution («namespace» ownerId executionId : String) : StoreM AutomationExecution := do
  validateScope «namespace» ownerId
  ensureOpen
  ownedExecution «namespace» ownerId executionId

def getScheduledExecution («namespace» executionId : String) : StoreM AutomationExecution := do
  ofExcept (validatePersistedText «namespace» "namespace" (some 128))
  ensureOpen
  match (← get).executions.get? executionId with
  | none => throw (.executionNotFound executionId)
  | some execution =>
    if execution.namespace ≠ «namespace» then
      throw (.executionNotFound executionId)
    return execution

/-! ## Worker operations -/

def claimWork (request : WorkRequest) : StoreM (List WorkItemClaim) := do
  ofExcept (validatePersistedText request.namespace "namespace" (some 128))
  ofExcept (validatePersistedText request.workerId "worker_id" (some 191))
  if request.limit < 1 then
    throw (.valueError "limit must be at least 1")
  if request.leaseDuration ≤ 0 then
    throw (.valueError "lease_duration must be positive")
  if request.globalConcurrency < 1 then
    throw (.valueError "global_concurrency must be at least 1")
  ensureOpen
  recoverExpiredClaims request.namespace request.now
  let candidates := (← get).dueWork request.namespace request.now
  claimItems request [] (candidates.map (·.workItemId))

def renewClaim (claim : WorkItemClaim) (leaseDuration : Int) (checkedAt now : Nat) :
    StoreM WorkItemClaim := do
  if leaseDuration ≤ 0 then
    throw (.valueError "lease_duration must be positive")
  let item ← validClaim claim checkedAt
  let leaseUntil ← ofExcept (later now leaseDuration)
  modify (·.modifyWork item.workItemId (·.leased leaseUntil))
  return claimFrom item claim.claimToken leaseUntil

def authorizeClaimStart (claim : WorkItemClaim) (executionTimeout : Int) (checkedAt now : Nat)
    (startToken : String) : StoreM StartAuthorization := do
  if executionTimeout ≤ 0 then
    throw (.valueError "execution_timeout must be positive")
  let item ← validClaim claim checkedAt
  let execution ← executionOf item
  let admitted := decide (execution.executionId ∈ (← get).admitted)
  let authorization ← ofExcept
    (authorizeStart execution item.kind admitted now executionTimeout startToken)
  modify (·.putExecution authorization.execution)
  return authorization

def markInterrupted (claim : WorkItemClaim) (interruptIds : List String) (checkedAt now : Nat)
    (workItemId : String) : StoreM AutomationExecution := do
  if interruptIds.isEmpty then
    throw (.valueError "interrupt_ids must not be empty")
  let item ← validClaim claim checkedAt
  let execution ← executionOf item
  let transition ← ofExcept (interruptExecution execution interruptIds now)
  applyTransition transition (some item.workItemId) workItemId now

def finishClaimed (claim : WorkItemClaim) (report : FinishReport) (checkedAt now : Nat) :
    StoreM AutomationExecution := do
  if report.status.isTerminal = false ∧ report.status ≠ .needsAttention then
    throw (.valueError "finish status must be terminal or needs_attention")
  let item ← validClaim claim checkedAt
  let execution ← executionOf item
  let transition ← ofExcept (finishExecution execution report now)
  applyTransition transition (some item.workItemId) "" now

/-! ## Owner operations -/

/-- Address and idempotency key of an owner's command. -/
structure OwnerCommand where
  «namespace» : String
  ownerId : String
  executionId : String
  requestId : Option String
  inputDigest : String

/-- Commit the transition that a rule decides for an owned execution. -/
def commitOwned (command : OwnerCommand)
    (decide : AutomationExecution → Except Raised ExecutionTransition) (now : Nat) :
    StoreM AutomationExecution := do
  ensureOpen
  match ← operationResult command.namespace command.ownerId command.requestId
      command.inputDigest with
  | some previous => expectExecution previous
  | none =>
    let execution ← ownedExecution command.namespace command.ownerId command.executionId
    let transition ← ofExcept (decide execution)
    requireOperationCapacity command.requestId
    let updated ← applyTransition transition none "" now
    saveOperation command.namespace command.ownerId command.requestId command.inputDigest
      (.execution updated)
    return updated

def cancelOwned (command : OwnerCommand) (now : Nat) : StoreM AutomationExecution := do
  validateScope command.namespace command.ownerId
  commitOwned command (fun execution => cancelExecution execution now) now

def resolveOwned (command : OwnerCommand) (resolution : AttentionResolution) (reason : String)
    (now : Nat) : StoreM AutomationExecution := do
  validateScope command.namespace command.ownerId
  ofExcept (validatePersistedText reason "reason" none)
  commitOwned command (fun execution => resolveExecution execution resolution reason now) now

/-! ## Lifecycle and pages -/

def setup : StoreM Unit := ensureOpen

def currentTime (now : Nat) : StoreM Nat := do
  ensureOpen
  return now

def close : StoreM Unit := modify fun store => { store with closed := true }

def validatePageLimit (limit : Int) : Except Raised Unit :=
  if 1 ≤ limit ∧ limit ≤ 100 then .ok () else .error (.valueError "limit must be between 1 and 100")

/-- The items behind a cursor, one more than the page holds. -/
def pageAfter {α : Type} (items : List α) (identity : α → String) (cursor : Option String)
    (limit : Nat) : List α :=
  match cursor with
  | none => items.take (limit + 1)
  | some cursor =>
    ((items.dropWhile fun item => identity item != cursor).drop 1).take (limit + 1)

/-- The cursor of a page that has a successor. -/
def nextCursor {α : Type} (page : List α) (identity : α → String) (limit : Nat) : Option String :=
  if limit < page.length then (page[limit - 1]?).map identity else none

/-- Tasks in creation order. -/
def sortedTasks (store : MemoryAutomationStore) (listed : AutomationTask → Bool) :
    List AutomationTask :=
  ((store.tasks.entries.map Prod.snd).filter listed).insertionSort fun left right =>
    left.createdAt < right.createdAt ∨
      left.createdAt = right.createdAt ∧ left.taskId ≤ right.taskId

/-- One page of the tasks that are listed. -/
def pageTasks (listed : AutomationTask → Bool) (limit : Int) (cursor : Option String) :
    StoreM TaskPage := do
  ofExcept (validatePageLimit limit)
  ensureOpen
  let page := pageAfter ((← get).sortedTasks listed) (·.taskId) cursor limit.toNat
  return {
    items := page.take limit.toNat
    nextCursor := nextCursor page (·.taskId) limit.toNat }

def listTasks («namespace» ownerId : String) (limit : Int) (cursor : Option String) :
    StoreM TaskPage := do
  validateScope «namespace» ownerId
  pageTasks (fun task => task.namespace == «namespace» && task.ownerId == ownerId) limit cursor

def listScheduledTasks («namespace» : String) (limit : Int) (cursor : Option String) :
    StoreM TaskPage := do
  ofExcept (validatePersistedText «namespace» "namespace" (some 128))
  pageTasks (fun task => task.namespace == «namespace» && task.status == .enabled) limit cursor

/-- Executions in reverse queue order. -/
def sortedExecutions (store : MemoryAutomationStore) (listed : AutomationExecution → Bool) :
    List AutomationExecution :=
  ((store.executions.entries.map Prod.snd).filter listed).insertionSort fun left right =>
    right.queuedAt < left.queuedAt ∨
      right.queuedAt = left.queuedAt ∧ right.executionId ≤ left.executionId

def listExecutions («namespace» ownerId : String) (taskId : Option String) (limit : Int)
    (cursor : Option String) : StoreM ExecutionPage := do
  validateScope «namespace» ownerId
  ofExcept (validatePageLimit limit)
  ensureOpen
  let listed := fun execution : AutomationExecution =>
    execution.namespace == «namespace» && execution.ownerId == ownerId &&
      taskId.all fun taskId => execution.taskId == some taskId
  let page := pageAfter ((← get).sortedExecutions listed) (·.executionId) cursor limit.toNat
  return {
    items := page.take limit.toNat
    nextCursor := nextCursor page (·.executionId) limit.toNat }

end MemoryAutomationStore

/-! ## Calls -/

/-- One call of a store operation with its arguments, clock readings and random draws. -/
inductive StoreCall
  | setup
  | currentTime (now : Nat)
  | createTask (task : AutomationTask) (requestId : Option String) (inputDigest : String)
  | updateTask (task : AutomationTask) (expectedRevision : Int) (requestId : Option String)
      (inputDigest : String)
  | deleteTask («namespace» ownerId taskId : String) (expectedRevision : Int)
      (requestId : Option String) (inputDigest : String) (now : Nat)
  | getTask («namespace» ownerId taskId : String)
  | listTasks («namespace» ownerId : String) (limit : Int) (cursor : Option String)
  | getScheduledTask («namespace» taskId : String)
  | listScheduledTasks («namespace» : String) (limit : Int) (cursor : Option String)
  | materializeTask (task : AutomationTask) (expectedNextRunAt : Nat)
      (executions : List (ScheduledExecution × String)) (now : Nat)
  | enqueueExecution (request : MemoryAutomationStore.EnqueueRequest)
  | getExecution («namespace» ownerId executionId : String)
  | getScheduledExecution («namespace» executionId : String)
  | listExecutions («namespace» ownerId : String) (taskId : Option String) (limit : Int)
      (cursor : Option String)
  | claimWork (request : MemoryAutomationStore.WorkRequest)
  | renewClaim (claim : WorkItemClaim) (leaseDuration : Int) (checkedAt now : Nat)
  | authorizeStart (claim : WorkItemClaim) (executionTimeout : Int) (checkedAt now : Nat)
      (startToken : String)
  | markInterrupted (claim : WorkItemClaim) (interruptIds : List String) (checkedAt now : Nat)
      (workItemId : String)
  | finishExecution (claim : WorkItemClaim) (report : FinishReport) (checkedAt now : Nat)
  | cancelExecution (command : MemoryAutomationStore.OwnerCommand) (now : Nat)
  | resolveExecution (command : MemoryAutomationStore.OwnerCommand)
      (resolution : AttentionResolution) (reason : String) (now : Nat)
  | close

/-- What a call returns. -/
inductive StoreReply
  | nothing
  | instant (now : Nat)
  | task (task : AutomationTask)
  | tasks (page : TaskPage)
  | materialized (result : MaterializationResult)
  | execution (execution : AutomationExecution)
  | executions (page : ExecutionPage)
  | claims (claims : List WorkItemClaim)
  | claim (claim : WorkItemClaim)
  | authorization (authorization : StartAuthorization)

namespace MemoryAutomationStore

/-- Perform one call. -/
def perform : StoreCall → StoreM StoreReply
  | .setup => (fun _ => .nothing) <$> setup
  | .currentTime now => .instant <$> currentTime now
  | .createTask task requestId inputDigest => .task <$> createTask task requestId inputDigest
  | .updateTask task expectedRevision requestId inputDigest =>
    .task <$> updateTask task expectedRevision requestId inputDigest
  | .deleteTask «namespace» ownerId taskId expectedRevision requestId inputDigest now =>
    (fun _ => .nothing) <$>
      deleteTask «namespace» ownerId taskId expectedRevision requestId inputDigest now
  | .getTask «namespace» ownerId taskId => .task <$> getTask «namespace» ownerId taskId
  | .listTasks «namespace» ownerId limit cursor =>
    .tasks <$> listTasks «namespace» ownerId limit cursor
  | .getScheduledTask «namespace» taskId => .task <$> getScheduledTask «namespace» taskId
  | .listScheduledTasks «namespace» limit cursor =>
    .tasks <$> listScheduledTasks «namespace» limit cursor
  | .materializeTask task expectedNextRunAt executions now =>
    .materialized <$> materializeTask task expectedNextRunAt executions now
  | .enqueueExecution request => .execution <$> enqueueExecution request
  | .getExecution «namespace» ownerId executionId =>
    .execution <$> getExecution «namespace» ownerId executionId
  | .getScheduledExecution «namespace» executionId =>
    .execution <$> getScheduledExecution «namespace» executionId
  | .listExecutions «namespace» ownerId taskId limit cursor =>
    .executions <$> listExecutions «namespace» ownerId taskId limit cursor
  | .claimWork request => .claims <$> claimWork request
  | .renewClaim claim leaseDuration checkedAt now =>
    .claim <$> renewClaim claim leaseDuration checkedAt now
  | .authorizeStart claim executionTimeout checkedAt now startToken =>
    .authorization <$> authorizeClaimStart claim executionTimeout checkedAt now startToken
  | .markInterrupted claim interruptIds checkedAt now workItemId =>
    .execution <$> markInterrupted claim interruptIds checkedAt now workItemId
  | .finishExecution claim report checkedAt now =>
    .execution <$> finishClaimed claim report checkedAt now
  | .cancelExecution command now => .execution <$> cancelOwned command now
  | .resolveExecution command resolution reason now =>
    .execution <$> resolveOwned command resolution reason now
  | .close => (fun _ => .nothing) <$> close

/-- The store after one call, whatever its outcome. -/
def next (store : MemoryAutomationStore) (call : StoreCall) : MemoryAutomationStore :=
  (perform call).final store

end MemoryAutomationStore

end Tinkerfin.Automation
