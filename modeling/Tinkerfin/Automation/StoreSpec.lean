import Tinkerfin.Automation.StoreRecords

/-!
# What each operation of the store does

One lemma for each operation that writes: the store it leaves when it returns, as a value computed
from the store it found, and the store it leaves when it raises.  Only a request for work can raise
after its first write.
-/

namespace Tinkerfin.Automation

namespace MemoryAutomationStore

open EStateM

variable {store : MemoryAutomationStore} {«namespace» ownerId taskId inputDigest : String}
  {requestId : Option String}

/-- A command was recorded with the same digest and this result. -/
def Replayed (store : MemoryAutomationStore) («namespace» ownerId : String)
    (requestId : Option String) (inputDigest : String) (result : OperationResult) : Prop :=
  ∃ operation, store.recorded «namespace» ownerId requestId = some operation ∧
    operation.inputDigest = inputDigest ∧ operation.result = result

/-- The store with one task written. -/
def putTask (store : MemoryAutomationStore) (task : AutomationTask) : MemoryAutomationStore :=
  { store with tasks := store.tasks.insert task.taskId task }

/-! ## Tasks -/

theorem createTask_spec (task : AutomationTask) (requestId : Option String) (inputDigest : String) :
    (createTask task requestId inputDigest).Ensures store
      (fun value after =>
        store.Replayed task.namespace task.ownerId requestId inputDigest (.task value) ∧
            after = store ∨
          store.recorded task.namespace task.ownerId requestId = none ∧
            store.tasks.contains task.taskId = false ∧
            store.tasks.size < store.limits.maxTasks ∧ store.HasOperationRoom requestId ∧
            value = task ∧
            after = (store.putTask task).recordOperation task.namespace task.ownerId requestId
              inputDigest (.task task))
      (fun _ after => after = store) := by
  simp only [createTask, ensures_bind, ensures_ensureOpen, ensures_operationResult,
    ensures_expectTask, ensures_get, ensures_ite, ensures_throw, ensures_ensureCapacity,
    ensures_requireOperationCapacity, ensures_modify]
  refine ⟨fun _ => trivial, fun _ => ⟨fun fresh => ⟨fun _ => trivial, fun absent => ⟨fun _ => trivial,
    fun room => ⟨fun operationRoom => ?_, fun _ => trivial⟩⟩⟩, fun operation found =>
      ⟨fun same => ⟨fun task result => ?_, fun _ => trivial⟩, fun _ _ _ => trivial⟩⟩⟩
  · have saved : (store.putTask task).HasOperationRoom requestId := operationRoom
    exact (ensures_saveOperation saved).mpr
      (Or.inr ⟨fresh, by simpa using absent, room, operationRoom, rfl, rfl⟩)
  · exact .inl ⟨⟨operation, found, same, result⟩, trivial⟩

theorem updateTask_spec (task : AutomationTask) (expectedRevision : Int)
    (requestId : Option String) (inputDigest : String) :
    (updateTask task expectedRevision requestId inputDigest).Ensures store
      (fun value after =>
        store.Replayed task.namespace task.ownerId requestId inputDigest (.task value) ∧
            after = store ∨
          store.recorded task.namespace task.ownerId requestId = none ∧
            store.HasOperationRoom requestId ∧
            (∃ current, store.tasks.get? task.taskId = some current ∧
              current.namespace = task.namespace ∧ current.ownerId = task.ownerId ∧
              current.revision = expectedRevision) ∧
            task.revision = expectedRevision + 1 ∧ value = task ∧
            after = (store.putTask task).recordOperation task.namespace task.ownerId requestId
              inputDigest (.task task))
      (fun _ after => after = store) := by
  simp only [updateTask, ensures_bind, ensures_ensureOpen, ensures_operationResult,
    ensures_expectTask, ensures_ite, ensures_throw, ensures_ownedTask,
    ensures_requireOperationCapacity, ensures_modify]
  refine ⟨fun _ => trivial, fun _ => ⟨fun fresh => ⟨fun current found sameNamespace sameOwner =>
    ⟨fun _ => trivial, fun revision => ⟨fun _ => trivial, fun advanced => ⟨fun operationRoom => ?_,
      fun _ => trivial⟩⟩⟩, fun _ => trivial⟩, fun operation found =>
      ⟨fun same => ⟨fun task result => ?_, fun _ => trivial⟩, fun _ _ _ => trivial⟩⟩⟩
  · have saved : (store.putTask task).HasOperationRoom requestId := operationRoom
    exact (ensures_saveOperation saved).mpr (Or.inr ⟨fresh, operationRoom,
      ⟨current, found, sameNamespace, sameOwner, not_not.mp revision⟩, not_not.mp advanced, rfl, rfl⟩)
  · exact .inl ⟨⟨operation, found, same, result⟩, trivial⟩

/-- The transition that cancels a queued execution. -/
def cancellation (execution : AutomationExecution) (now : Nat) : ExecutionTransition where
  execution := { execution with
    status := .cancelled
    finishedAt := some now
    updatedAt := now }
  completeWork := .all
  releaseCapacity := true

/-- The store after the deletion of a task reached one execution. -/
def queuedCancelled (taskId : String) (now : Nat) (store : MemoryAutomationStore)
    (executionId : String) : MemoryAutomationStore :=
  match store.executions.get? executionId with
  | none => store
  | some execution =>
    if execution.taskId = some taskId ∧ execution.status = .queued then
      store.transitioned (cancellation execution now) none "" now
    else
      store

theorem ensures_cancelQueued {now : Nat} {executionId : String}
    {returned : Unit → MemoryAutomationStore → Prop}
    {raised : Raised → MemoryAutomationStore → Prop} :
    (cancelQueued taskId now executionId).Ensures store returned raised ↔
      returned () (queuedCancelled taskId now store executionId) := by
  simp only [cancelQueued, queuedCancelled, ensures_bind, ensures_get]
  cases store.executions.get? executionId with
  | none => simp
  | some execution =>
    by_cases queued : execution.taskId = some taskId ∧ execution.status = .queued
    · have decided : cancelExecution execution now = .ok (cancellation execution now) := by
        simp [cancelExecution, queued.2, cancellation]
      simp only [if_pos queued, decided, ensures_bind, ensures_ofExcept, ensures_discard,
        Except.ok.injEq, forall_eq', reduceCtorEq, false_implies, implies_true, and_true]
      exact ensures_applyTransition_now rfl (by simp [cancellation])
    · simp only [if_neg queued, ensures_pure]

/-- The store after the deletion of a task. -/
def taskDeleted (store : MemoryAutomationStore) (taskId : String) (now : Nat) :
    MemoryAutomationStore :=
  store.executions.keys.foldl (queuedCancelled taskId now)
    { store with tasks := store.tasks.erase taskId }

theorem queuedCancelled_operations {now : Nat} {executionId : String} :
    (queuedCancelled taskId now store executionId).operations = store.operations ∧
      (queuedCancelled taskId now store executionId).limits = store.limits := by
  unfold queuedCancelled
  split
  · exact ⟨rfl, rfl⟩
  · split
    · exact ⟨transitioned_sameFacts.operations, transitioned_sameFacts.limits⟩
    · exact ⟨rfl, rfl⟩

theorem taskDeleted_operations {now : Nat} :
    (store.taskDeleted taskId now).operations = store.operations ∧
      (store.taskDeleted taskId now).limits = store.limits := by
  unfold taskDeleted
  generalize store.executions.keys = executionIds
  induction executionIds using List.reverseRecOn with
  | nil => exact ⟨rfl, rfl⟩
  | append_singleton executionIds executionId ih =>
    rw [List.foldl_append]
    exact ⟨queuedCancelled_operations.1.trans ih.1, queuedCancelled_operations.2.trans ih.2⟩

theorem deleteTask_spec («namespace» ownerId taskId : String) (expectedRevision : Int)
    (requestId : Option String) (inputDigest : String) (now : Nat) :
    (deleteTask «namespace» ownerId taskId expectedRevision requestId inputDigest now).Ensures store
      (fun _ after =>
        (∃ value, store.Replayed «namespace» ownerId requestId inputDigest (.text value)) ∧
            after = store ∨
          store.recorded «namespace» ownerId requestId = none ∧ store.HasOperationRoom requestId ∧
            (∃ task, store.tasks.get? taskId = some task ∧ task.namespace = «namespace» ∧
              task.ownerId = ownerId ∧ task.revision = expectedRevision) ∧
            after = (store.taskDeleted taskId now).recordOperation «namespace» ownerId requestId
              inputDigest (.text taskId))
      (fun _ after => after = store) := by
  refine ensures_bind.mpr (ensures_validateScope (fun _ _ => ?_) fun _ => rfl)
  simp only [ensures_bind, ensures_ensureOpen, ensures_operationResult, ensures_discard,
    ensures_expectText, ensures_ite, ensures_throw, ensures_ownedTask,
    ensures_requireOperationCapacity, ensures_modify, ensures_get]
  refine ⟨fun _ => trivial, fun _ => ⟨fun fresh => ⟨fun task found sameNamespace sameOwner =>
    ⟨fun _ => trivial, fun revision => ⟨fun operationRoom => ?_, fun _ => trivial⟩⟩,
      fun _ => trivial⟩, fun operation found =>
      ⟨fun same => ⟨fun value result => ?_, fun _ => trivial⟩, fun _ _ _ => trivial⟩⟩⟩
  · refine ensures_forM_foldl (fun _ => True) trivial (fun _ _ _ _ => trivial)
      (fun executionId _ state returned _ left => ensures_cancelQueued.mpr left) ?_
    have saved : (store.taskDeleted taskId now).HasOperationRoom requestId := by
      unfold HasOperationRoom
      rw [taskDeleted_operations.1, taskDeleted_operations.2]
      exact operationRoom
    exact (ensures_saveOperation saved).mpr (Or.inr ⟨fresh, operationRoom,
      ⟨task, found, sameNamespace, sameOwner, not_not.mp revision⟩, rfl⟩)
  · exact .inl ⟨⟨value, operation, found, same, result⟩, trivial⟩

/-! ## Queueing -/

/-- The store with one new execution and its work item. -/
def queued (store : MemoryAutomationStore) (execution : AutomationExecution)
    (occurrence : String × String) (workItemId : String) (createdAt : Nat) :
    MemoryAutomationStore :=
  withWork { store.putExecution execution with
    occurrences := store.occurrences.insert occurrence execution.executionId }
    execution .execute execution.queuedAt workItemId createdAt

/-- The store with one due execution persisted. -/
def materialized («namespace» : String) (now : Nat) (store : MemoryAutomationStore)
    (item : ScheduledExecution × String) : MemoryAutomationStore :=
  store.queued item.1.execution («namespace», item.1.occurrenceKey) item.2 now

theorem queued_limits (execution : AutomationExecution) (occurrence : String × String)
    (workItemId : String) (createdAt : Nat) :
    (store.queued execution occurrence workItemId createdAt).limits = store.limits :=
  withWork_sameFacts.limits

theorem queued_size (execution : AutomationExecution) (occurrence : String × String)
    (workItemId : String) (createdAt : Nat) :
    (store.queued execution occurrence workItemId createdAt).work.size ≤ store.work.size + 1 := by
  unfold queued withWork
  split
  · simp [putExecution]
  · simp only [Dict.size_insert, putExecution]
    split <;> omega

theorem materializeItems_ensures {now : Nat} {items : List (ScheduledExecution × String)}
    (room : store.work.size + items.length ≤ store.limits.maxWorkItems)
    {returned : Unit → MemoryAutomationStore → Prop}
    {raised : Raised → MemoryAutomationStore → Prop}
    (holds : returned () (items.foldl (materialized «namespace» now) store)) :
    (items.forM (materializeItem «namespace» now)).Ensures store returned raised := by
  induction items generalizing store with
  | nil => simpa using holds
  | cons item items ih =>
    simp only [List.length_cons] at room
    simp only [List.forM_eq_forM, List.forM_cons, ensures_bind, materializeItem, ensures_modify,
      ensures_createWork]
    have free : HasWorkRoom { store.putExecution item.1.execution with
        occurrences := store.occurrences.insert («namespace», item.1.occurrenceKey)
          item.1.execution.executionId } (item.1.execution.namespace,
            item.1.execution.executionId, .execute) :=
      .inr (by simp only [putExecution]; omega)
    refine ⟨fun _ => ?_, fun full => absurd free full⟩
    have grown : (materialized «namespace» now store item).work.size + items.length ≤
        (materialized «namespace» now store item).limits.maxWorkItems := by
      have one := store.queued_size item.1.execution («namespace», item.1.occurrenceKey) item.2 now
      have same := store.queued_limits item.1.execution («namespace», item.1.occurrenceKey)
        item.2 now
      rw [materialized, same]
      omega
    exact ih grown holds

/-- The offered occurrences of a task that are not known yet. -/
def unknownOccurrences (store : MemoryAutomationStore) (task : AutomationTask)
    (executions : List (ScheduledExecution × String)) : List (ScheduledExecution × String) :=
  pendingOccurrences (store.knownOccurrences task.namespace) executions

theorem materializeTask_spec (task : AutomationTask) (expectedNextRunAt : Nat)
    (executions : List (ScheduledExecution × String)) (now : Nat) :
    (materializeTask task expectedNextRunAt executions now).Ensures store
      (fun value after => ∃ current, store.tasks.get? task.taskId = some current ∧
        current.namespace = task.namespace ∧ current.ownerId = task.ownerId ∧
        (materializationIsCurrent current task expectedNextRunAt = false ∧
            value = { task := current, executions := [] } ∧ after = store ∨
          materializationIsCurrent current task expectedNextRunAt = true ∧
            store.queuedCount (fun execution => execution.taskId == some task.taskId) +
              (store.unknownOccurrences task executions).length ≤ task.limits.maxQueuedRuns ∧
            store.executions.size + (store.unknownOccurrences task executions).length ≤
              store.limits.maxExecutions ∧
            store.work.size + (store.unknownOccurrences task executions).length ≤
              store.limits.maxWorkItems ∧
            value = {
              task
              executions := (store.unknownOccurrences task executions).map (·.1.execution) } ∧
            after = (store.unknownOccurrences task executions).foldl
              (materialized task.namespace now) (store.putTask task)))
      (fun _ after => after = store) := by
  simp only [materializeTask, ensures_bind, ensures_ensureOpen, ensures_ownedTask, ensures_ite,
    ensures_pure, ensures_get, ensures_ofExcept, ensures_ensureCapacity, ensures_modify]
  refine ⟨fun _ => trivial, fun _ => ⟨fun current found sameNamespace sameOwner =>
    ⟨fun stale => ?_, fun fresh => ⟨fun _ capacity => ?_, fun _ _ => trivial⟩⟩, fun _ => trivial⟩⟩
  · exact ⟨current, found, sameNamespace, sameOwner, .inl ⟨by simpa using stale, rfl, trivial⟩⟩
  · refine ⟨fun _ => ⟨fun _ => trivial, fun impossible => absurd impossible (lt_irrefl _)⟩,
      fun executionRoom => ⟨fun _ => ⟨fun _ => trivial, fun impossible => absurd impossible
        (lt_irrefl _)⟩, fun workRoom => ?_⟩⟩
    have room : (store.putTask task).work.size + (store.unknownOccurrences task executions).length ≤
        (store.putTask task).limits.maxWorkItems := Nat.not_lt.mp workRoom
    refine materializeItems_ensures room ?_
    exact ⟨current, found, sameNamespace, sameOwner, .inr ⟨by simpa using fresh,
      requireQueueCapacity_eq_ok.mp capacity, Nat.not_lt.mp executionRoom, Nat.not_lt.mp workRoom,
      rfl, rfl⟩⟩

theorem enqueueExecution_spec (request : EnqueueRequest) :
    (enqueueExecution request).Ensures store
      (fun value after =>
        store.Replayed request.execution.namespace request.execution.ownerId request.requestId
              request.inputDigest (.execution value) ∧ after = store ∨
          store.recorded request.execution.namespace request.execution.ownerId request.requestId =
              none ∧
            ((∃ existing, store.occurrences.get?
                  (request.execution.namespace, request.occurrenceKey) = some existing ∧
                store.executions.get? existing = some value ∧ after = store) ∨
              store.occurrences.get? (request.execution.namespace, request.occurrenceKey) = none ∧
                request.execution.status = .queued ∧
                store.executions.contains request.execution.executionId = false ∧
                store.queuedCount (fun item => sameExecutionScope item request.execution) + 1 ≤
                  request.execution.limits.maxQueuedRuns ∧
                store.executions.size < store.limits.maxExecutions ∧
                store.HasOperationRoom request.requestId ∧
                store.work.size < store.limits.maxWorkItems ∧ value = request.execution ∧
                after = (store.queued request.execution
                    (request.execution.namespace, request.occurrenceKey) request.workItemId
                    request.now).recordOperation request.execution.namespace
                  request.execution.ownerId request.requestId request.inputDigest
                  (.execution request.execution)))
      (fun _ after => after = store) := by
  simp only [enqueueExecution, ensures_bind, ensures_ensureOpen, ensures_operationResult,
    ensures_expectExecution, ensures_get]
  refine ⟨fun _ => trivial, fun _ => ⟨fun fresh => ?_, fun operation found =>
      ⟨fun same => ⟨fun execution result => ?_, fun _ => trivial⟩, fun _ _ _ => trivial⟩⟩⟩
  · cases known : store.occurrences.get? (request.execution.namespace, request.occurrenceKey) with
    | some existing =>
      dsimp only
      split
      · rfl
      · next execution stored => exact Or.inr ⟨fresh, .inl ⟨existing, rfl, stored, rfl⟩⟩
    | none =>
      simp only [ensures_bind, ensures_ite, ensures_throw]
      refine ⟨fun _ => trivial, fun status => ⟨fun _ => trivial, fun absent => ?_⟩⟩
      refine ensures_requireTaskBacking ?_ fun _ => rfl
      simp only [ensures_ofExcept, ensures_ensureCapacity, ensures_requireOperationCapacity,
        ensures_modify, ensures_createWork]
      refine ⟨fun _ capacity => ⟨fun _ => trivial, fun executionRoom => ⟨fun operationRoom =>
        ⟨fun _ => trivial, fun workRoom => ⟨fun _ => ?_, fun full => ?_⟩⟩, fun _ => trivial⟩⟩,
          fun _ _ => trivial⟩
      · have saved : (store.queued request.execution
            (request.execution.namespace, request.occurrenceKey) request.workItemId
            request.now).HasOperationRoom request.requestId := by
          unfold HasOperationRoom
          rw [queued_limits, queued, withWork_sameFacts.operations]
          exact operationRoom
        exact (ensures_saveOperation saved).mpr (Or.inr ⟨fresh, Or.inr ⟨trivial, not_not.mp status,
          by simpa using absent, requireQueueCapacity_eq_ok.mp capacity, executionRoom,
          operationRoom, workRoom, rfl, rfl⟩⟩)
      · exact absurd (Or.inr workRoom) full
  · exact .inl ⟨⟨operation, found, same, result⟩, trivial⟩

/-! ## Worker operations -/

/-- The store after the recovery of one work item, if its lease expired. -/
def claimRecovered («namespace» : String) (now : Nat) (store : MemoryAutomationStore)
    (workItemId : String) : MemoryAutomationStore :=
  match store.work.get? workItemId with
  | none => store
  | some item =>
    if leaseExpired item «namespace» now then
      match store.executions.get? item.executionId with
      | none => store
      | some execution =>
        let transition := recoverExpiredClaim execution item.kind now
        (store.putExecution transition.execution).modifyWork workItemId
          (·.released (if transition.completeWork = .none then .pending else .completed))
    else
      store

theorem modifyWork_modifyWork (itemId : String) (first second : WorkItem → WorkItem) :
    (store.modifyWork itemId first).modifyWork itemId second =
      store.modifyWork itemId (fun item => second (first item)) := by
  cases found : store.work.get? itemId with
  | none => simp [modifyWork, found]
  | some item => simp [modifyWork, found]

theorem ensures_recoverClaim (stored : store.Stored) {now : Nat} {workItemId : String}
    {returned : Unit → MemoryAutomationStore → Prop}
    {raised : Raised → MemoryAutomationStore → Prop} :
    (recoverClaim «namespace» now workItemId).Ensures store returned raised ↔
      returned () (claimRecovered «namespace» now store workItemId) := by
  simp only [recoverClaim, claimRecovered, ensures_bind, ensures_get]
  cases found : store.work.get? workItemId with
  | none => simp
  | some item =>
    obtain ⟨execution, owner⟩ := Option.isSome_iff_exists.mp (stored.owned found)
    by_cases expired : leaseExpired item «namespace» now = true
    · have released : ∀ status (item : WorkItem), item.released status =
          { { item with status } with workerId := none, claimToken := none, leaseUntil := none } :=
        fun _ _ => rfl
      simp only [expired, if_true, ensures_bind, ensures_get, owner, ensures_discard]
      rcases recoverExpiredClaim_cases execution item.kind now with ⟨-, -, decided⟩ | ⟨-, decided⟩
      · rw [ensures_applyTransition_now (by rw [decided]) (fun _ => rfl)]
        simp [decided, transitioned, settled, completeWork, modifyWork_modifyWork, WorkItem.released]
      · rw [ensures_applyTransition_now (by rw [decided]) (fun _ => rfl)]
        simp [decided, transitioned, settled, completeWork, modifyWork_modifyWork,
          WorkItem.released]
    · simp [expired]

theorem Stored.claimRecovered (stored : store.Stored) (now : Nat) (workItemId : String) :
    (claimRecovered «namespace» now store workItemId).Stored := by
  unfold MemoryAutomationStore.claimRecovered
  split
  · exact stored
  · next item found =>
      split
      · split
        · exact stored
        · next execution owner =>
            refine (stored.putExecution (.inl ?_)).modifyWork fun _ => rfl
            rw [(recoverExpiredClaim_sameAttempt execution item.kind now).executionId,
              stored.identified owner]
            simp [Dict.contains, owner]
      · exact stored

/-- The store after the recovery of every expired lease of a namespace. -/
def claimsRecovered (store : MemoryAutomationStore) («namespace» : String) (now : Nat) :
    MemoryAutomationStore :=
  store.work.keys.foldl (claimRecovered «namespace» now) store

theorem ensures_recoverExpiredClaims (stored : store.Stored) {now : Nat}
    {returned : Unit → MemoryAutomationStore → Prop}
    {raised : Raised → MemoryAutomationStore → Prop}
    (holds : returned () (store.claimsRecovered «namespace» now)) :
    (recoverExpiredClaims «namespace» now).Ensures store returned raised := by
  simp only [recoverExpiredClaims, ensures_bind, ensures_get]
  exact ensures_forM_foldl Stored stored
    (fun workItemId _ _ stored => stored.claimRecovered now workItemId)
    (fun _ _ _ _ stored left => (ensures_recoverClaim stored).mpr left) holds

theorem Stored.claimsRecovered (stored : store.Stored) (now : Nat) :
    (store.claimsRecovered «namespace» now).Stored := by
  unfold MemoryAutomationStore.claimsRecovered
  generalize store.work.keys = workItemIds
  induction workItemIds generalizing store with
  | nil => exact stored
  | cons workItemId workItemIds ih => exact ih (stored.claimRecovered now workItemId)

/-- Whether an execution holds slots or both of its scopes have room. -/
def CanReserve (store : MemoryAutomationStore) (execution : AutomationExecution)
    (globalConcurrency : Int) : Prop :=
  execution.executionId ∈ store.admitted ∨
    (store.allocated (globalScope execution.namespace) : Int) < globalConcurrency ∧
      store.allocated (taskScope execution) < execution.limits.maxConcurrentRuns

instance (store : MemoryAutomationStore) (execution : AutomationExecution)
    (globalConcurrency : Int) : Decidable (store.CanReserve execution globalConcurrency) :=
  inferInstanceAs (Decidable (_ ∨ _))

/-- The store with the slots of an execution taken. -/
def reserved (store : MemoryAutomationStore) (execution : AutomationExecution) :
    MemoryAutomationStore :=
  if execution.executionId ∈ store.admitted then
    store
  else
    { store with
      scopeAllocations := reserveScope
        (reserveScope store.scopeAllocations (globalScope execution.namespace)) (taskScope execution)
      admitted := insert execution.executionId store.admitted }

theorem ensures_reserveScopes {execution : AutomationExecution} {globalConcurrency : Int}
    {returned : Bool → MemoryAutomationStore → Prop}
    {raised : Raised → MemoryAutomationStore → Prop} :
    (reserveScopes execution globalConcurrency).Ensures store returned raised ↔
      (store.CanReserve execution globalConcurrency → returned true (store.reserved execution)) ∧
        (¬store.CanReserve execution globalConcurrency → returned false store) := by
  simp only [reserveScopes, CanReserve, reserved, ensures_bind, ensures_get, ensures_ite,
    ensures_pure, ensures_modify]
  by_cases held : execution.executionId ∈ store.admitted
  · simp [held]
  · by_cases globalRoom : (store.allocated (globalScope execution.namespace) : Int) < globalConcurrency
    · by_cases room : store.allocated (taskScope execution) < execution.limits.maxConcurrentRuns
      · simp [held, globalRoom, room]
      · simp [held, globalRoom, room, Nat.not_lt.mp room]
    · simp [held, globalRoom, Int.not_lt.mp globalRoom]

/-- The decision about one due item: the store it leaves, and the item if it is to be granted. -/
def offer (request : WorkRequest) (store : MemoryAutomationStore) (workItemId : String) :
    MemoryAutomationStore × Option WorkItem :=
  match store.work.get? workItemId with
  | none => (store, none)
  | some item =>
    match store.executions.get? item.executionId with
    | none => (store, none)
    | some execution =>
      match claimCandidate execution item.kind request.now with
      | some transition => (store.transitioned transition (some workItemId) "" request.now, none)
      | none =>
        if item.kind = .execute then
          if store.CanReserve execution request.globalConcurrency then
            (store.reserved execution, some item)
          else
            (store, none)
        else
          (store, some item)

/-- An offered item is passed over, granted, or left claimed without a lease when the lease would end
too late. -/
theorem ensures_claimItem (stored : store.Stored) {request : WorkRequest}
    {claims : List WorkItemClaim} {workItemId : String}
    {returned : List WorkItemClaim → MemoryAutomationStore → Prop}
    {raised : Raised → MemoryAutomationStore → Prop} :
    (claimItem request claims workItemId).Ensures store returned raised ↔
      match offer request store workItemId with
      | (after, none) => returned claims after
      | (after, some item) =>
        let token := request.claimToken claims.length
        match later request.now request.leaseDuration with
        | .ok leaseUntil => returned
            (claims ++ [claimFrom (item.claimedBy request.workerId token) token leaseUntil])
            (after.modifyWork workItemId fun item =>
              (item.claimedBy request.workerId token).leased leaseUntil)
        | .error error =>
          raised error (after.modifyWork workItemId (·.claimedBy request.workerId token)) := by
  simp only [claimItem, offer, ensures_bind, ensures_get]
  cases found : store.work.get? workItemId with
  | none => simp
  | some item =>
    obtain ⟨execution, owner⟩ := Option.isSome_iff_exists.mp (stored.owned found)
    simp only [ensures_bind, ensures_get, owner]
    cases decided : claimCandidate execution item.kind request.now with
    | some transition =>
      have unscheduled : transition.deadlineWorkAt = none := by
        rcases claimCandidate_eq_some decided with ⟨rfl, -⟩ | ⟨rfl, -⟩ <;> rfl
      simp only [ensures_bind, ensures_discard]
      rw [ensures_applyTransition_now unscheduled (fun _ => rfl)]
      simp
    | none =>
      have granted : ∀ after : MemoryAutomationStore, EStateM.Ensures (do
            modify (·.modifyWork workItemId (·.claimedBy request.workerId
              (request.claimToken claims.length)))
            let leaseUntil ← ofExcept (later request.now request.leaseDuration)
            modify (·.modifyWork workItemId (·.leased leaseUntil))
            return claims ++ [claimFrom (item.claimedBy request.workerId
              (request.claimToken claims.length)) (request.claimToken claims.length)
                leaseUntil] : StoreM _) after returned raised ↔
          match later request.now request.leaseDuration with
          | .ok leaseUntil => returned
              (claims ++ [claimFrom (item.claimedBy request.workerId
                (request.claimToken claims.length)) (request.claimToken claims.length)
                  leaseUntil])
              (after.modifyWork workItemId fun item => (item.claimedBy request.workerId
                (request.claimToken claims.length)).leased leaseUntil)
          | .error error => raised error (after.modifyWork workItemId
              (·.claimedBy request.workerId (request.claimToken claims.length))) := by
        intro after
        simp only [ensures_bind, ensures_modify, ensures_ofExcept, ensures_pure]
        cases later request.now request.leaseDuration <;> simp [modifyWork_modifyWork]
      by_cases execute : item.kind = .execute
      · simp only [execute, if_true, ensures_bind, ensures_reserveScopes]
        by_cases room : store.CanReserve execution request.globalConcurrency
        · simp only [room, if_true, true_implies, not_true_eq_false, false_implies, and_true,
            Bool.not_true, Bool.false_eq_true, if_false]
          exact granted _
        · simp [room]
      · simpa only [execute, if_false, ensures_bind, ensures_pure, Bool.not_true,
          Bool.false_eq_true] using granted store

/-- The work item and the execution that a valid claim owns. -/
structure Owns (store : MemoryAutomationStore) (claim : WorkItemClaim) (now : Nat)
    (item : WorkItem) (execution : AutomationExecution) : Prop where
  opened : store.closed = false
  found : store.work.get? claim.workItemId = some item
  backs : item.Backs claim now
  owner : store.executions.get? item.executionId = some execution

theorem renewClaim_spec (claim : WorkItemClaim) (leaseDuration : Int) (checkedAt now : Nat) :
    (renewClaim claim leaseDuration checkedAt now).Ensures store
      (fun value after => ∃ item leaseUntil, store.work.get? claim.workItemId = some item ∧
        item.Backs claim checkedAt ∧ later now leaseDuration = .ok leaseUntil ∧
        value = claimFrom item claim.claimToken leaseUntil ∧
        after = store.modifyWork item.workItemId (·.leased leaseUntil))
      (fun _ after => after = store) := by
  simp only [renewClaim, ensures_bind, ensures_ite, ensures_throw, ensures_validClaim,
    ensures_ofExcept, ensures_modify, ensures_pure]
  refine ⟨fun _ => trivial, fun _ => ⟨fun _ => trivial, fun _ => ⟨fun item found backs =>
    ⟨fun leaseUntil fits => ?_, fun _ _ => trivial⟩, fun _ => trivial⟩⟩⟩
  exact ⟨item, leaseUntil, found, backs, fits, rfl, rfl⟩

theorem authorizeClaimStart_spec (claim : WorkItemClaim) (executionTimeout : Int)
    (checkedAt now : Nat) (startToken : String) :
    (authorizeClaimStart claim executionTimeout checkedAt now startToken).Ensures store
      (fun value after => ∃ item execution, store.Owns claim checkedAt item execution ∧
        authorizeStart execution item.kind (decide (execution.executionId ∈ store.admitted)) now
          executionTimeout startToken = .ok value ∧
        after = store.putExecution value.execution)
      (fun _ after => after = store) := by
  simp only [authorizeClaimStart, ensures_bind, ensures_ite, ensures_throw, ensures_validClaim,
    ensures_executionOf, ensures_get, ensures_ofExcept, ensures_modify, ensures_pure]
  refine ⟨fun _ => trivial, fun _ => ⟨fun _ => trivial, fun opened => ⟨fun item found backs =>
    ⟨fun execution owner => ⟨fun authorization decided => ?_, fun _ _ => trivial⟩,
      fun _ => trivial⟩, fun _ => trivial⟩⟩⟩
  exact ⟨item, execution, ⟨opened, found, backs, owner⟩, decided, trivial⟩

theorem markInterrupted_spec (claim : WorkItemClaim) (interruptIds : List String)
    (checkedAt now : Nat) (workItemId : String) :
    (markInterrupted claim interruptIds checkedAt now workItemId).Ensures store
      (fun value after => ∃ item execution transition, store.Owns claim checkedAt item execution ∧
        interruptExecution execution interruptIds now = .ok transition ∧
        store.HasWorkRoom (transition.execution.namespace, transition.execution.executionId,
          .expireInterrupt) ∧
        value = transition.execution ∧
        after = store.transitioned transition (some item.workItemId) workItemId now)
      (fun _ after => after = store) := by
  simp only [markInterrupted, ensures_bind, ensures_ite, ensures_throw, ensures_validClaim,
    ensures_executionOf, ensures_ofExcept]
  refine ⟨fun _ => trivial, fun _ => ⟨fun _ => trivial, fun opened => ⟨fun item found backs =>
    ⟨fun execution owner => ⟨fun transition decided => ?_, fun _ _ => trivial⟩, fun _ => trivial⟩,
      fun _ => trivial⟩⟩⟩
  refine (ensures_applyTransition fun _ => rfl).mpr ⟨fun room => ?_, fun _ _ => rfl⟩
  have scheduled : transition.deadlineWorkAt.isSome = true := by
    obtain ⟨deadline, -, rfl⟩ := interruptExecution_eq_ok decided
    rfl
  exact ⟨item, execution, transition, ⟨opened, found, backs, owner⟩, decided, room scheduled, rfl,
    rfl⟩

theorem finishClaimed_spec (claim : WorkItemClaim) (report : FinishReport) (checkedAt now : Nat) :
    (finishClaimed claim report checkedAt now).Ensures store
      (fun value after => ∃ item execution transition, store.Owns claim checkedAt item execution ∧
        finishExecution execution report now = .ok transition ∧ value = transition.execution ∧
        after = store.transitioned transition (some item.workItemId) "" now)
      (fun _ after => after = store) := by
  simp only [finishClaimed, ensures_bind, ensures_ite, ensures_throw, ensures_validClaim,
    ensures_executionOf, ensures_ofExcept]
  refine ⟨fun _ => trivial, fun _ => ⟨fun _ => trivial, fun opened => ⟨fun item found backs =>
    ⟨fun execution owner => ⟨fun transition decided => ?_, fun _ _ => trivial⟩, fun _ => trivial⟩,
      fun _ => trivial⟩⟩⟩
  have unscheduled : transition.deadlineWorkAt = none := by
    obtain ⟨-, rfl⟩ := finishExecution_eq_ok decided
    rfl
  exact (ensures_applyTransition_now unscheduled fun _ => rfl).mpr
    ⟨item, execution, transition, ⟨opened, found, backs, owner⟩, decided, rfl, rfl⟩

/-! ## Owner operations -/

/-- An owned execution that a command addresses. -/
structure Addressed (store : MemoryAutomationStore) (command : OwnerCommand)
    (execution : AutomationExecution) : Prop where
  found : store.executions.get? command.executionId = some execution
  «namespace» : execution.namespace = command.namespace
  ownerId : execution.ownerId = command.ownerId

/-- What an owner's command leaves: its recorded result, or the committed transition. -/
def Committed (store : MemoryAutomationStore) (command : OwnerCommand)
    (decide : AutomationExecution → Except Raised ExecutionTransition) (now : Nat)
    (value : AutomationExecution) (after : MemoryAutomationStore) : Prop :=
  store.Replayed command.namespace command.ownerId command.requestId command.inputDigest
      (.execution value) ∧ after = store ∨
    store.recorded command.namespace command.ownerId command.requestId = none ∧
      store.HasOperationRoom command.requestId ∧
      ∃ execution transition, store.Addressed command execution ∧
        decide execution = .ok transition ∧ value = transition.execution ∧
        after = (store.transitioned transition none "" now).recordOperation command.namespace
          command.ownerId command.requestId command.inputDigest (.execution transition.execution)

theorem commitOwned_spec {command : OwnerCommand}
    {decide : AutomationExecution → Except Raised ExecutionTransition} {now : Nat}
    (whole : ∀ execution transition, decide execution = .ok transition →
      transition.deadlineWorkAt = none ∧ transition.completeWork ≠ .current) :
    (commitOwned command decide now).Ensures store (store.Committed command decide now)
      (fun _ after => after = store) := by
  simp only [commitOwned, ensures_bind, ensures_ensureOpen, ensures_operationResult,
    ensures_expectExecution, ensures_ownedExecution, ensures_ofExcept,
    ensures_requireOperationCapacity]
  refine ⟨fun _ => trivial, fun _ => ⟨fun fresh => ⟨fun execution found sameNamespace sameOwner =>
    ⟨fun transition decided => ⟨fun operationRoom => ?_, fun _ => trivial⟩, fun _ _ => trivial⟩,
      fun _ => trivial⟩, fun operation found =>
      ⟨fun same => ⟨fun execution result => ?_, fun _ => trivial⟩, fun _ _ _ => trivial⟩⟩⟩
  · obtain ⟨unscheduled, other⟩ := whole execution transition decided
    refine (ensures_applyTransition_now unscheduled fun current => absurd current other).mpr ?_
    have facts : SameFacts store (store.transitioned transition none "" now) :=
      transitioned_sameFacts
    have saved : (store.transitioned transition none "" now).HasOperationRoom
        command.requestId := by
      unfold HasOperationRoom
      rw [facts.operations, facts.limits]
      exact operationRoom
    exact (ensures_saveOperation saved).mpr (Or.inr ⟨fresh, operationRoom, execution, transition,
      ⟨found, sameNamespace, sameOwner⟩, decided, rfl, rfl⟩)
  · exact .inl ⟨⟨operation, found, same, result⟩, rfl⟩

theorem cancelOwned_spec (command : OwnerCommand) (now : Nat) :
    (cancelOwned command now).Ensures store
      (store.Committed command (fun execution => cancelExecution execution now) now)
      (fun _ after => after = store) := by
  refine ensures_bind.mpr (ensures_validateScope (fun _ _ => commitOwned_spec ?_) fun _ => rfl)
  intro execution transition decided
  rcases cancelExecution_eq_ok decided with ⟨-, rfl⟩ | ⟨-, rfl⟩ | ⟨-, rfl⟩ <;> simp

theorem resolveOwned_spec (command : OwnerCommand) (resolution : AttentionResolution)
    (reason : String) (now : Nat) :
    (resolveOwned command resolution reason now).Ensures store
      (store.Committed command (fun execution => resolveExecution execution resolution reason now)
        now)
      (fun _ after => after = store) := by
  refine ensures_bind.mpr (ensures_validateScope (fun _ _ => ?_) fun _ => rfl)
  simp only [ensures_bind, ensures_ofExcept]
  refine ⟨fun _ _ => commitOwned_spec ?_, fun _ _ => trivial⟩
  intro execution transition decided
  obtain ⟨-, _, _, rfl⟩ := resolveExecution_eq_ok decided
  simp

end MemoryAutomationStore

end Tinkerfin.Automation
