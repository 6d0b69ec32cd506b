import Tinkerfin.Automation.StoreChecks

/-!
# The records of a store

`Stored` says that the records of a store fit together and within its limits.  Every change an
operation makes keeps it.
-/

namespace Tinkerfin.Automation

namespace MemoryAutomationStore

open EStateM

/-- Executions are stored under their identity, work items belong to stored executions, and no kind
of record exceeds its limit. -/
structure Stored (store : MemoryAutomationStore) : Prop where
  identified : ∀ {executionId execution}, store.executions.get? executionId = some execution →
    execution.executionId = executionId
  owned : ∀ {workItemId item}, store.work.get? workItemId = some item →
    store.executions.contains item.executionId = true
  tasks : store.tasks.size ≤ store.limits.maxTasks
  executions : store.executions.size ≤ store.limits.maxExecutions
  workItems : store.work.size ≤ store.limits.maxWorkItems
  operations : store.operations.size ≤ store.limits.maxOperations

theorem stored_opened (limits : MemoryStoreLimits) : (opened limits).Stored where
  identified found := by simp [opened] at found
  owned found := by simp [opened] at found
  tasks := Nat.zero_le _
  executions := Nat.zero_le _
  workItems := Nat.zero_le _
  operations := Nat.zero_le _

variable {store : MemoryAutomationStore}

/-! ## Changes keep the records -/

section

variable {taskId ownerId «namespace» inputDigest executionId itemId workItemId : String}
  {task : AutomationTask} {execution : AutomationExecution} {transition : ExecutionTransition}
  {requestId : Option String} {result : OperationResult} {change : WorkItem → WorkItem}
  {item : Option String} {kind : WorkKind} {availableAt createdAt : Nat}

theorem Stored.insertTask (stored : store.Stored)
    (room : store.tasks.contains taskId = true ∨ store.tasks.size < store.limits.maxTasks) :
    Stored { store with tasks := store.tasks.insert taskId task } where
  identified := stored.identified
  owned := stored.owned
  tasks := by
    have := stored.tasks
    simp only [Dict.size_insert]
    unfold Dict.contains at room
    split <;> grind
  executions := stored.executions
  workItems := stored.workItems
  operations := stored.operations

theorem Stored.eraseTask (stored : store.Stored) :
    Stored { store with tasks := store.tasks.erase taskId } where
  identified := stored.identified
  owned := stored.owned
  tasks := (Dict.size_erase_le ..).trans stored.tasks
  executions := stored.executions
  workItems := stored.workItems
  operations := stored.operations

theorem Stored.recordOperation (stored : store.Stored) (room : store.HasOperationRoom requestId) :
    (store.recordOperation «namespace» ownerId requestId inputDigest result).Stored := by
  cases requestId with
  | none => exact stored
  | some requestId =>
    have free := room rfl
    refine { stored with operations := ?_ }
    simp only [MemoryAutomationStore.recordOperation, Dict.size_insert]
    split <;> omega

theorem Stored.putExecution (stored : store.Stored)
    (room : store.executions.contains execution.executionId = true ∨
      store.executions.size < store.limits.maxExecutions) :
    (store.putExecution execution).Stored := by
  refine { stored with identified := ?_, owned := ?_, executions := ?_ }
  · intro executionId found present
    simp only [MemoryAutomationStore.putExecution, Dict.get?_insert] at present
    split at present
    · next same => rw [← Option.some.inj present, same]
    · exact stored.identified present
  · intro workItemId item present
    have owner := stored.owned present
    simp only [MemoryAutomationStore.putExecution, Dict.contains, Dict.get?_insert] at owner ⊢
    split <;> simp_all
  · have := stored.executions
    simp only [MemoryAutomationStore.putExecution, Dict.size_insert]
    unfold Dict.contains at room
    split <;> grind

theorem Stored.modifyWork (stored : store.Stored)
    (same : ∀ item, (change item).executionId = item.executionId) :
    (store.modifyWork itemId change).Stored := by
  unfold MemoryAutomationStore.modifyWork
  split
  · exact stored
  · next item found =>
      refine { stored with owned := ?_, workItems := ?_ }
      · intro workItemId other present
        simp only [Dict.get?_insert] at present
        split at present
        · rw [← Option.some.inj present, same]
          exact stored.owned found
        · exact stored.owned present
      · simpa [Dict.size_insert, found] using stored.workItems

theorem Stored.completeExecutionWork (stored : store.Stored) :
    (store.completeExecutionWork executionId).Stored := by
  refine { stored with owned := ?_, workItems := ?_ }
  · intro workItemId item present
    simp only [MemoryAutomationStore.completeExecutionWork, Dict.get?_mapValues,
      Option.map_eq_some_iff] at present
    obtain ⟨before, found, rfl⟩ := present
    have owner := stored.owned found
    split <;> exact owner
  · simpa [MemoryAutomationStore.completeExecutionWork] using stored.workItems

theorem Stored.releaseScopes (stored : store.Stored) : (store.releaseScopes execution).Stored := by
  unfold MemoryAutomationStore.releaseScopes
  split
  · exact stored
  · exact { stored with }

theorem Stored.withWork (stored : store.Stored)
    (owner : store.executions.contains execution.executionId = true)
    (room : store.HasWorkRoom (execution.namespace, execution.executionId, kind)) :
    (store.withWork execution kind availableAt workItemId createdAt).Stored := by
  unfold MemoryAutomationStore.withWork
  split
  · exact stored.modifyWork fun _ => rfl
  · next absent =>
      have free : store.work.size < store.limits.maxWorkItems := by
        simpa [HasWorkRoom, Dict.contains, absent] using room
      refine { stored with owned := ?_, workItems := ?_ }
      · intro other item present
        simp only [Dict.get?_insert] at present
        split at present
        · rw [← Option.some.inj present]
          exact owner
        · exact stored.owned present
      · simp only [Dict.size_insert]
        split <;> omega

theorem Stored.settled (stored : store.Stored)
    (owner : store.executions.contains transition.execution.executionId = true) :
    (store.settled transition item).Stored := by
  have put := stored.putExecution (.inl owner)
  have completed : ((store.putExecution transition.execution).completeWork transition.completeWork
      transition.execution.executionId item).Stored := by
    unfold completeWork
    split
    · exact put
    · exact put
    · exact put.modifyWork fun _ => rfl
    · exact put.completeExecutionWork
  unfold MemoryAutomationStore.settled
  split
  · exact completed.releaseScopes
  · exact completed

theorem Stored.transitioned (stored : store.Stored)
    (owner : store.executions.contains transition.execution.executionId = true)
    (room : transition.deadlineWorkAt.isSome = true → store.HasWorkRoom
      (transition.execution.namespace, transition.execution.executionId, .expireInterrupt)) :
    (store.transitioned transition item workItemId createdAt).Stored := by
  unfold MemoryAutomationStore.transitioned
  split
  · exact stored.settled owner
  · next scheduled =>
      exact (stored.settled owner).withWork (by simp [Dict.contains])
        (settled_hasWorkRoom.mpr (room (by simp [scheduled])))

end

end MemoryAutomationStore

end Tinkerfin.Automation
