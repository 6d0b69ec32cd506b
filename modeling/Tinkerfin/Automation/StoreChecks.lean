import Tinkerfin.Automation.Memory

/-!
# What the checks of the store ensure

Every check of a store operation has one equation: it leaves the store alone, and what holds after
it depends on the fact it tests.
-/

namespace Tinkerfin.Automation

/-- Whether a work item backs a claim at an instant. -/
structure WorkItem.Backs (item : WorkItem) (claim : WorkItemClaim) (now : Nat) : Prop where
  «namespace» : item.namespace = claim.namespace
  executionId : item.executionId = claim.executionId
  claimed : item.status = .claimed
  claimToken : item.claimToken = some claim.claimToken
  fence : item.fence = claim.fence
  leased : ∃ leaseUntil, item.leaseUntil = some leaseUntil ∧ now < leaseUntil

namespace MemoryAutomationStore

open EStateM

variable {store : MemoryAutomationStore} {raised : Raised → MemoryAutomationStore → Prop}
  {returned : Unit → MemoryAutomationStore → Prop}

theorem ensures_ensureOpen : ensureOpen.Ensures store returned raised ↔
    (store.closed = true → raised .storeClosed store) ∧
      (store.closed = false → returned () store) := by
  simp only [ensureOpen, ensures_bind, ensures_get, ensures_guard, Bool.not_eq_true]

theorem ensures_ensureCapacity {kind : String} {current maximum : Nat} :
    (ensureCapacity kind current maximum).Ensures store returned raised ↔
      (maximum ≤ current → raised (.capacityExhausted kind maximum) store) ∧
        (current < maximum → returned () store) := by
  simp only [ensureCapacity, ensures_guard, Nat.not_le]

theorem ensures_validateScope {«namespace» ownerId : String}
    (checked : isPersistedText «namespace» (some 128) = true →
      isPersistedText ownerId (some 191) = true → returned () store)
    (onRaise : ∀ error, raised error store) :
    (validateScope «namespace» ownerId).Ensures store returned raised := by
  simp only [validateScope, ensures_bind, ensures_ofExcept]
  refine ⟨fun _ first => ⟨fun _ second => ?_, fun _ _ => onRaise _⟩, fun _ _ => onRaise _⟩
  exact checked (validatePersistedText_eq_ok.mp first) (validatePersistedText_eq_ok.mp second)

theorem ensures_ownedTask {«namespace» ownerId taskId : String}
    {returned : AutomationTask → MemoryAutomationStore → Prop} :
    (ownedTask «namespace» ownerId taskId).Ensures store returned raised ↔
      (∀ task, store.tasks.get? taskId = some task → task.namespace = «namespace» →
        task.ownerId = ownerId → returned task store) ∧
      ((∀ task, store.tasks.get? taskId = some task → task.namespace = «namespace» →
        task.ownerId ≠ ownerId) → raised (.taskNotFound taskId) store) := by
  simp only [ownedTask, ensures_bind, ensures_get]
  cases found : store.tasks.get? taskId with
  | none => simp
  | some task =>
    simp only [ensures_bind, ensures_ite, ensures_throw, ensures_pure, Option.some.injEq,
      forall_eq']
    grind

theorem ensures_ownedExecution {«namespace» ownerId executionId : String}
    {returned : AutomationExecution → MemoryAutomationStore → Prop} :
    (ownedExecution «namespace» ownerId executionId).Ensures store returned raised ↔
      (∀ execution, store.executions.get? executionId = some execution →
        execution.namespace = «namespace» → execution.ownerId = ownerId →
          returned execution store) ∧
      ((∀ execution, store.executions.get? executionId = some execution →
        execution.namespace = «namespace» → execution.ownerId ≠ ownerId) →
          raised (.executionNotFound executionId) store) := by
  simp only [ownedExecution, ensures_bind, ensures_get]
  cases found : store.executions.get? executionId with
  | none => simp
  | some execution =>
    simp only [ensures_bind, ensures_ite, ensures_throw, ensures_pure, Option.some.injEq,
      forall_eq']
    grind

theorem ensures_executionOf {item : WorkItem}
    {returned : AutomationExecution → MemoryAutomationStore → Prop} :
    (executionOf item).Ensures store returned raised ↔
      (∀ execution, store.executions.get? item.executionId = some execution →
        returned execution store) ∧
      (store.executions.get? item.executionId = none →
        raised (.keyError item.executionId) store) := by
  simp only [executionOf, ensures_bind, ensures_get]
  cases store.executions.get? item.executionId <;> simp

/-! ## Recorded operations -/

/-- The operation recorded for a request. -/
def recorded (store : MemoryAutomationStore) («namespace» ownerId : String)
    (requestId : Option String) : Option Operation :=
  requestId.bind fun requestId => store.operations.get? («namespace», ownerId, requestId)

/-- Whether the operation of a request can be recorded. -/
def HasOperationRoom (store : MemoryAutomationStore) (requestId : Option String) : Prop :=
  requestId.isSome = true → store.operations.size < store.limits.maxOperations

/-- The store with the operation of a request recorded. -/
def recordOperation (store : MemoryAutomationStore) («namespace» ownerId : String)
    (requestId : Option String) (inputDigest : String) (result : OperationResult) :
    MemoryAutomationStore :=
  match requestId with
  | none => store
  | some requestId => { store with
      operations := store.operations.insert («namespace», ownerId, requestId)
        { inputDigest, result } }

theorem ensures_operationResult {«namespace» ownerId inputDigest : String}
    {requestId : Option String}
    {returned : Option OperationResult → MemoryAutomationStore → Prop} :
    (operationResult «namespace» ownerId requestId inputDigest).Ensures store returned raised ↔
      (store.recorded «namespace» ownerId requestId = none → returned none store) ∧
      ∀ operation, store.recorded «namespace» ownerId requestId = some operation →
        (operation.inputDigest = inputDigest → returned (some operation.result) store) ∧
        (operation.inputDigest ≠ inputDigest →
          ∀ request, requestId = some request → raised (.requestReused request) store) := by
  cases requestId with
  | none => simp [operationResult, recorded]
  | some request =>
    simp only [operationResult, recorded, Option.bind_some, ensures_bind, ensures_get]
    cases store.operations.get? («namespace», ownerId, request) with
    | none => simp
    | some operation =>
      simp only [ensures_bind, ensures_ite, ensures_throw, ensures_pure, Option.some.injEq,
        forall_eq', reduceCtorEq, false_implies, true_and, not_not]
      grind

theorem ensures_requireOperationCapacity {requestId : Option String} :
    (requireOperationCapacity requestId).Ensures store returned raised ↔
      (store.HasOperationRoom requestId → returned () store) ∧
      (¬store.HasOperationRoom requestId →
        raised (.capacityExhausted "operations" store.limits.maxOperations) store) := by
  cases requestId with
  | none => simp [requireOperationCapacity, HasOperationRoom]
  | some request =>
    simp only [requireOperationCapacity, HasOperationRoom, ensures_bind, ensures_get,
      ensures_ensureCapacity, Option.isSome_some, true_implies, Nat.not_lt]
    grind

theorem ensures_saveOperation {«namespace» ownerId inputDigest : String}
    {requestId : Option String} {result : OperationResult}
    (room : store.HasOperationRoom requestId) :
    (saveOperation «namespace» ownerId requestId inputDigest result).Ensures store returned raised ↔
      returned () (store.recordOperation «namespace» ownerId requestId inputDigest result) := by
  cases requestId with
  | none => simp [saveOperation, recordOperation]
  | some request =>
    simp only [saveOperation, recordOperation, ensures_bind, ensures_get, ensures_ensureCapacity,
      ensures_modify]
    have := room rfl
    constructor
    · exact fun ensured => ensured.2 this
    · exact fun ensured => ⟨fun full => absurd this (by omega), fun _ => ensured⟩

theorem ensures_expectTask {result : OperationResult}
    {returned : AutomationTask → MemoryAutomationStore → Prop} :
    (expectTask result).Ensures store returned raised ↔
      (∀ task, result = .task task → returned task store) ∧
      ((∀ task, result ≠ .task task) → raised .storedResultInvalid store) := by
  cases result <;> simp [expectTask]

theorem ensures_expectExecution {result : OperationResult}
    {returned : AutomationExecution → MemoryAutomationStore → Prop} :
    (expectExecution result).Ensures store returned raised ↔
      (∀ execution, result = .execution execution → returned execution store) ∧
      ((∀ execution, result ≠ .execution execution) → raised .storedResultInvalid store) := by
  cases result <;> simp [expectExecution]

theorem ensures_expectText {result : OperationResult}
    {returned : String → MemoryAutomationStore → Prop} :
    (expectText result).Ensures store returned raised ↔
      (∀ value, result = .text value → returned value store) ∧
      ((∀ value, result ≠ .text value) → raised .storedResultInvalid store) := by
  cases result <;> simp [expectText]

/-! ## Claims -/

/-- A claim is valid exactly when its work item backs it. -/
theorem ensures_validClaim {claim : WorkItemClaim} {now : Nat}
    {returned : WorkItem → MemoryAutomationStore → Prop} :
    (validClaim claim now).Ensures store returned raised ↔
      (store.closed = true → raised .storeClosed store) ∧
      (store.closed = false →
        (∀ item, store.work.get? claim.workItemId = some item → item.Backs claim now →
          returned item store) ∧
        ((∀ item, store.work.get? claim.workItemId = some item → ¬item.Backs claim now) →
          raised (.claimInvalid claim.workItemId) store)) := by
  simp only [validClaim, ensures_bind, ensures_ensureOpen, ensures_get]
  refine and_congr_right fun _ => forall_congr' fun _ => ?_
  cases store.work.get? claim.workItemId with
  | none => simp
  | some item =>
    have backs : item.Backs claim now ↔ ¬(item.namespace ≠ claim.namespace ∨
        item.executionId ≠ claim.executionId ∨ item.status ≠ .claimed ∨
        item.claimToken ≠ some claim.claimToken ∨ item.fence ≠ claim.fence ∨
        item.leaseUntil.all (· ≤ now) = true) := by
      have leased : (∃ leaseUntil, item.leaseUntil = some leaseUntil ∧ now < leaseUntil) ↔
          item.leaseUntil.all (· ≤ now) ≠ true := by
        cases item.leaseUntil <;> simp
      constructor
      · rintro ⟨sameNamespace, sameExecution, claimed, token, fence, lease⟩
        simp [sameNamespace, sameExecution, claimed, token, fence, leased.mp lease]
      · intro valid
        simp only [not_or, not_not] at valid
        obtain ⟨sameNamespace, sameExecution, claimed, token, fence, lease⟩ := valid
        exact ⟨sameNamespace, sameExecution, claimed, token, fence, leased.mpr lease⟩
    simp only [ensures_bind, ensures_ite, ensures_throw, ensures_pure, Option.some.injEq,
      forall_eq', backs]
    grind

theorem ensures_requireTaskBacking {execution : AutomationExecution}
    {expectedTaskRevision : Option Int} (returns : returned () store)
    (onRaise : ∀ error, raised error store) :
    (requireTaskBacking execution expectedTaskRevision).Ensures store returned raised := by
  unfold requireTaskBacking
  split
  · simp only [ensures_bind, ensures_ownedTask, ensures_ofExcept]
    exact ⟨fun _ _ _ _ => ⟨fun _ _ => returns, fun _ _ => onRaise _⟩, fun _ => onRaise _⟩
  · simp only [ensures_guard]
    exact ⟨fun _ => onRaise _, fun _ => returns⟩

/-! ## Work items -/

/-- Whether the work item of a key exists or may be created. -/
def HasWorkRoom (store : MemoryAutomationStore) (key : String × String × WorkKind) : Prop :=
  store.workKeys.contains key = true ∨ store.work.size < store.limits.maxWorkItems

/-- The store with the work item of an execution created, or made pending again. -/
def withWork (store : MemoryAutomationStore) (execution : AutomationExecution) (kind : WorkKind)
    (availableAt : Nat) (workItemId : String) (createdAt : Nat) : MemoryAutomationStore :=
  match store.workKeys.get? (execution.namespace, execution.executionId, kind) with
  | some existing => store.modifyWork existing (·.rescheduled availableAt)
  | none => { store with
      work := store.work.insert workItemId
        { workItemId
          «namespace» := execution.namespace
          executionId := execution.executionId
          kind
          availableAt
          createdAt }
      workKeys := store.workKeys.insert (execution.namespace, execution.executionId, kind)
        workItemId }

theorem ensures_createWork {execution : AutomationExecution} {kind : WorkKind}
    {availableAt createdAt : Nat} {workItemId : String} :
    (createWork execution kind availableAt workItemId createdAt).Ensures store returned raised ↔
      (store.HasWorkRoom (execution.namespace, execution.executionId, kind) →
        returned () (store.withWork execution kind availableAt workItemId createdAt)) ∧
      (¬store.HasWorkRoom (execution.namespace, execution.executionId, kind) →
        raised (.capacityExhausted "work_items" store.limits.maxWorkItems) store) := by
  simp only [createWork, withWork, HasWorkRoom, Dict.contains, ensures_bind, ensures_get]
  cases store.workKeys.get? (execution.namespace, execution.executionId, kind) with
  | some existing => simp
  | none =>
    simp only [ensures_bind, ensures_ensureCapacity, ensures_modify, Option.isSome_none,
      Bool.false_eq_true, false_or, Nat.not_lt]
    grind

/-- The work items after a transition decided for one of them. -/
def completeWork (store : MemoryAutomationStore) (which : CompleteWork) (executionId : String)
    (item : Option String) : MemoryAutomationStore :=
  match which, item with
  | .none, _ | .current, none => store
  | .current, some item => store.modifyWork item (·.released .completed)
  | .all, _ => store.completeExecutionWork executionId

/-- The store after a transition, without the deadline check it schedules. -/
def settled (store : MemoryAutomationStore) (transition : ExecutionTransition)
    (item : Option String) : MemoryAutomationStore :=
  let changed := (store.putExecution transition.execution).completeWork transition.completeWork
    transition.execution.executionId item
  if transition.releaseCapacity then changed.releaseScopes transition.execution else changed

/-- The store after a transition. -/
def transitioned (store : MemoryAutomationStore) (transition : ExecutionTransition)
    (item : Option String) (workItemId : String) (createdAt : Nat) : MemoryAutomationStore :=
  match transition.deadlineWorkAt with
  | none => store.settled transition item
  | some deadline => (store.settled transition item).withWork transition.execution
      .expireInterrupt deadline workItemId createdAt

/-! ## Transitions -/

/-- Two stores with the same limits, tasks, occurrences, recorded operations and openness. -/
structure SameFacts (before after : MemoryAutomationStore) : Prop where
  limits : after.limits = before.limits
  tasks : after.tasks = before.tasks
  occurrences : after.occurrences = before.occurrences
  operations : after.operations = before.operations
  closed : after.closed = before.closed

theorem SameFacts.refl (store : MemoryAutomationStore) : SameFacts store store :=
  ⟨rfl, rfl, rfl, rfl, rfl⟩

theorem SameFacts.trans {first second third : MemoryAutomationStore}
    (left : SameFacts first second) (right : SameFacts second third) : SameFacts first third :=
  ⟨right.limits.trans left.limits, right.tasks.trans left.tasks,
    right.occurrences.trans left.occurrences, right.operations.trans left.operations,
    right.closed.trans left.closed⟩

section

variable {execution : AutomationExecution} {transition : ExecutionTransition} {item : Option String}
  {itemId executionId : String} {change : WorkItem → WorkItem} {which : CompleteWork}

@[simp] theorem modifyWork_executions :
    (store.modifyWork itemId change).executions = store.executions := by
  unfold modifyWork
  split <;> rfl

@[simp] theorem modifyWork_workKeys : (store.modifyWork itemId change).workKeys = store.workKeys := by
  unfold modifyWork
  split <;> rfl

@[simp] theorem modifyWork_limits : (store.modifyWork itemId change).limits = store.limits := by
  unfold modifyWork
  split <;> rfl

theorem modifyWork_of_ne {other : String} (different : other ≠ itemId) :
    (store.modifyWork itemId change).work.get? other = store.work.get? other := by
  unfold modifyWork
  split
  · rfl
  · exact Dict.get?_insert_of_ne _ _ different

@[simp] theorem modifyWork_size : (store.modifyWork itemId change).work.size = store.work.size := by
  unfold modifyWork
  split
  · rfl
  · next found => simp [Dict.size_insert, found]

@[simp] theorem completeWork_executions :
    (store.completeWork which executionId item).executions = store.executions := by
  unfold completeWork
  split <;> simp [completeExecutionWork]

@[simp] theorem completeWork_workKeys :
    (store.completeWork which executionId item).workKeys = store.workKeys := by
  unfold completeWork
  split <;> simp [completeExecutionWork]

@[simp] theorem completeWork_limits :
    (store.completeWork which executionId item).limits = store.limits := by
  unfold completeWork
  split <;> simp [completeExecutionWork]

@[simp] theorem completeWork_size :
    (store.completeWork which executionId item).work.size = store.work.size := by
  unfold completeWork
  split <;> simp [completeExecutionWork]

@[simp] theorem releaseScopes_executions :
    (store.releaseScopes execution).executions = store.executions := by
  unfold releaseScopes
  split <;> rfl

@[simp] theorem releaseScopes_work : (store.releaseScopes execution).work = store.work := by
  unfold releaseScopes
  split <;> rfl

@[simp] theorem releaseScopes_workKeys :
    (store.releaseScopes execution).workKeys = store.workKeys := by
  unfold releaseScopes
  split <;> rfl

@[simp] theorem releaseScopes_limits : (store.releaseScopes execution).limits = store.limits := by
  unfold releaseScopes
  split <;> rfl

@[simp] theorem withWork_executions {kind : WorkKind} {availableAt createdAt : Nat}
    {workItemId : String} : (store.withWork execution kind availableAt workItemId
      createdAt).executions = store.executions := by
  unfold withWork
  split <;> simp

@[simp] theorem settled_executions : (store.settled transition item).executions =
    store.executions.insert transition.execution.executionId transition.execution := by
  unfold settled
  cases transition.releaseCapacity <;> simp [putExecution]

theorem modifyWork_sameFacts : SameFacts store (store.modifyWork itemId change) := by
  unfold modifyWork
  split <;> exact ⟨rfl, rfl, rfl, rfl, rfl⟩

theorem completeWork_sameFacts : SameFacts store (store.completeWork which executionId item) := by
  unfold completeWork
  split
  · exact .refl store
  · exact .refl store
  · exact modifyWork_sameFacts
  · exact ⟨rfl, rfl, rfl, rfl, rfl⟩

theorem releaseScopes_sameFacts : SameFacts store (store.releaseScopes execution) := by
  unfold releaseScopes
  split <;> exact ⟨rfl, rfl, rfl, rfl, rfl⟩

theorem withWork_sameFacts {kind : WorkKind} {availableAt createdAt : Nat} {workItemId : String} :
    SameFacts store (store.withWork execution kind availableAt workItemId createdAt) := by
  unfold withWork
  split
  · exact modifyWork_sameFacts
  · exact ⟨rfl, rfl, rfl, rfl, rfl⟩

theorem settled_sameFacts : SameFacts store (store.settled transition item) := by
  have put : SameFacts store (store.putExecution transition.execution) := ⟨rfl, rfl, rfl, rfl, rfl⟩
  unfold settled
  split
  · exact (put.trans completeWork_sameFacts).trans releaseScopes_sameFacts
  · exact put.trans completeWork_sameFacts

theorem transitioned_sameFacts {workItemId : String} {createdAt : Nat} :
    SameFacts store (store.transitioned transition item workItemId createdAt) := by
  unfold transitioned
  split
  · exact settled_sameFacts
  · exact settled_sameFacts.trans withWork_sameFacts

theorem settled_hasWorkRoom {key : String × String × WorkKind} :
    (store.settled transition item).HasWorkRoom key ↔ store.HasWorkRoom key := by
  unfold HasWorkRoom settled
  cases transition.releaseCapacity <;> simp [putExecution]

/-- A transition is committed whole or refused before anything changes. -/
theorem ensures_applyTransition {workItemId : String} {createdAt : Nat}
    {returned : AutomationExecution → MemoryAutomationStore → Prop}
    (given : transition.completeWork = .current → item.isSome = true) :
    (applyTransition transition item workItemId createdAt).Ensures store returned raised ↔
      ((transition.deadlineWorkAt.isSome = true → store.HasWorkRoom
          (transition.execution.namespace, transition.execution.executionId, .expireInterrupt)) →
        returned transition.execution (store.transitioned transition item workItemId createdAt)) ∧
      (transition.deadlineWorkAt.isSome = true → ¬store.HasWorkRoom
          (transition.execution.namespace, transition.execution.executionId, .expireInterrupt) →
        raised (.capacityExhausted "work_items" store.limits.maxWorkItems) store) := by
  have room : ∀ key, (store.settled transition item).HasWorkRoom key ↔ store.HasWorkRoom key :=
    fun _ => settled_hasWorkRoom
  obtain ⟨execution, which, release, deadline⟩ := transition
  cases deadline with
  | none =>
    cases which <;> cases release <;> cases item <;>
      simp_all [applyTransition, transitioned, settled, completeWork, ensures_bind]
  | some deadline =>
    simp only [Option.isSome_some, true_implies]
    -- the room for the deadline check is tested before anything is written
    by_cases free : store.HasWorkRoom
        (execution.namespace, execution.executionId, .expireInterrupt)
    · have later := (room (execution.namespace, execution.executionId, .expireInterrupt)).mpr free
      have unchecked : store.workKeys.contains
          (execution.namespace, execution.executionId, .expireInterrupt) = false →
          store.work.size < store.limits.maxWorkItems := fun absent => by
        simpa [HasWorkRoom, absent] using free
      cases contained : store.workKeys.contains
          (execution.namespace, execution.executionId, .expireInterrupt) <;>
        cases which <;> cases release <;> cases item <;>
        simp_all [applyTransition, transitioned, settled, completeWork, ensures_bind,
          ensures_ensureCapacity, ensures_createWork]
    · obtain ⟨absent, full⟩ : store.workKeys.contains
          (execution.namespace, execution.executionId, .expireInterrupt) = false ∧
          store.limits.maxWorkItems ≤ store.work.size := by
        simpa [HasWorkRoom] using free
      simp [applyTransition, ensures_bind, ensures_ensureCapacity, free, absent, full]

theorem ensures_applyTransition_now {workItemId : String} {createdAt : Nat}
    {returned : AutomationExecution → MemoryAutomationStore → Prop}
    (unscheduled : transition.deadlineWorkAt = none)
    (given : transition.completeWork = .current → item.isSome = true) :
    (applyTransition transition item workItemId createdAt).Ensures store returned raised ↔
      returned transition.execution (store.transitioned transition item workItemId createdAt) := by
  rw [ensures_applyTransition given, unscheduled]
  simp

end

end MemoryAutomationStore

end Tinkerfin.Automation
