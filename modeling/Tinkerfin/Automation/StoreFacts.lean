import Tinkerfin.Automation.StoreAtomicity

/-!
# What calls leave of the facts

Most calls write executions and work items only.  The tasks, the occurrences and the recorded
operations are written by a few calls.
-/

namespace Tinkerfin.Automation

open EStateM

/-- A call that may write tasks, occurrences or recorded operations, or closes the store. -/
def StoreCall.WritesFacts : StoreCall → Prop
  | .createTask _ _ _ | .updateTask _ _ _ _ | .deleteTask _ _ _ _ _ _ _ | .materializeTask _ _ _ _
  | .enqueueExecution _ | .cancelExecution _ _ | .resolveExecution _ _ _ _ | .close => True
  | _ => False

namespace MemoryAutomationStore

variable {store : MemoryAutomationStore}

theorem claimRecovered_sameFacts {«namespace» workItemId : String} {now : Nat} :
    SameFacts store (claimRecovered «namespace» now store workItemId) := by
  unfold claimRecovered
  split
  · exact .refl store
  · split
    · split
      · exact .refl store
      · have put : ∀ execution, SameFacts store (store.putExecution execution) :=
          fun _ => ⟨rfl, rfl, rfl, rfl, rfl⟩
        exact (put _).trans modifyWork_sameFacts
    · exact .refl store

theorem claimsRecovered_sameFacts {«namespace» : String} {now : Nat} :
    SameFacts store (store.claimsRecovered «namespace» now) := by
  unfold claimsRecovered
  generalize store.work.keys = workItemIds
  induction workItemIds generalizing store with
  | nil => exact .refl store
  | cons workItemId workItemIds ih => exact claimRecovered_sameFacts.trans ih

theorem offer_sameFacts (request : WorkRequest) (workItemId : String) :
    SameFacts store (offer request store workItemId).1 := by
  rcases offer_cases request store workItemId with same | ⟨item, execution, found, owner,
    ⟨transition, decided, same⟩ | ⟨-, ⟨-, -, same⟩ | ⟨-, same⟩⟩⟩ <;> rw [same]
  · exact .refl store
  · exact transitioned_sameFacts
  · unfold reserved
    split <;> exact ⟨rfl, rfl, rfl, rfl, rfl⟩
  · exact .refl store

theorem claimWork_sameFacts (stored : store.Stored) (request : WorkRequest) :
    (claimWork request).Ensures store (fun _ after => SameFacts store after)
      (fun _ after => SameFacts store after) := by
  refine ensures_claimWork stored (fun _ _ => .refl store) fun _ _ => ?_
  refine (claimItems_keeps (SameFacts store) request
    (fun _ workItemId _ same => same.trans (offer_sameFacts request workItemId))
    (fun _ _ _ same => same.trans modifyWork_sameFacts) [] _
    (stored.claimsRecovered request.now) claimsRecovered_sameFacts).mono ?_ ?_ <;>
    exact fun _ _ kept => kept.2

theorem next_of_clean {α : Type} {operation : StoreM α} {reply : α → StoreReply}
    (left : MemoryAutomationStore → Prop) (same : left store)
    (ensures : operation.Ensures store (fun _ => left) (fun _ after => after = store)) :
    left ((reply <$> operation).final store) := by
  rw [final_map]
  exact (ensures.mono (fun _ _ => id) fun _ _ unchanged => unchanged ▸ same).final

theorem next_of_reads {α : Type} {operation : StoreM α} {reply : α → StoreReply}
    (reads : ReadsOnly operation) : (reply <$> operation).final store = store := by
  rw [final_map]
  exact (reads store).final

theorem next_sameFacts (stored : store.Stored) {call : StoreCall} (silent : ¬call.WritesFacts) :
    SameFacts store (store.next call) := by
  have reads : ∀ {after : MemoryAutomationStore}, after = store → SameFacts store after :=
    fun same => same ▸ .refl store
  cases call with
  | createTask | updateTask | deleteTask | materializeTask | enqueueExecution | cancelExecution
  | resolveExecution | close => exact absurd trivial silent
  | setup => exact reads (next_of_reads setup_readsOnly)
  | currentTime now => exact reads (next_of_reads (currentTime_readsOnly now))
  | getTask «namespace» ownerId taskId =>
    exact reads (next_of_reads (getTask_readsOnly «namespace» ownerId taskId))
  | listTasks «namespace» ownerId limit cursor =>
    exact reads (next_of_reads (listTasks_readsOnly «namespace» ownerId limit cursor))
  | getScheduledTask «namespace» taskId =>
    exact reads (next_of_reads (getScheduledTask_readsOnly «namespace» taskId))
  | listScheduledTasks «namespace» limit cursor =>
    exact reads (next_of_reads (listScheduledTasks_readsOnly «namespace» limit cursor))
  | getExecution «namespace» ownerId executionId =>
    exact reads (next_of_reads (getExecution_readsOnly «namespace» ownerId executionId))
  | getScheduledExecution «namespace» executionId =>
    exact reads (next_of_reads (getScheduledExecution_readsOnly «namespace» executionId))
  | listExecutions «namespace» ownerId taskId limit cursor =>
    exact reads (next_of_reads (listExecutions_readsOnly «namespace» ownerId taskId limit cursor))
  | claimWork request =>
    simp only [next, perform, final_map]
    exact (claimWork_sameFacts stored request).final
  | renewClaim claim leaseDuration checkedAt now =>
    refine next_of_clean (SameFacts store) (.refl store)
      ((renewClaim_spec claim leaseDuration checkedAt now).mono ?_ fun _ _ => id)
    rintro value after ⟨item, leaseUntil, -, -, -, -, rfl⟩
    exact modifyWork_sameFacts
  | authorizeStart claim executionTimeout checkedAt now startToken =>
    refine next_of_clean (SameFacts store) (.refl store)
      ((authorizeClaimStart_spec claim executionTimeout checkedAt now startToken).mono ?_
        fun _ _ => id)
    rintro value after ⟨item, execution, -, -, rfl⟩
    exact ⟨rfl, rfl, rfl, rfl, rfl⟩
  | markInterrupted claim interruptIds checkedAt now workItemId =>
    refine next_of_clean (SameFacts store) (.refl store)
      ((markInterrupted_spec claim interruptIds checkedAt now workItemId).mono ?_ fun _ _ => id)
    rintro value after ⟨item, execution, transition, -, -, -, -, rfl⟩
    exact transitioned_sameFacts
  | finishExecution claim report checkedAt now =>
    refine next_of_clean (SameFacts store) (.refl store)
      ((finishClaimed_spec claim report checkedAt now).mono ?_ fun _ _ => id)
    rintro value after ⟨item, execution, transition, -, -, -, rfl⟩
    exact transitioned_sameFacts

/-! ## Tasks -/

theorem recordOperation_tasks {«namespace» ownerId inputDigest : String}
    {requestId : Option String} {result : OperationResult} :
    (store.recordOperation «namespace» ownerId requestId inputDigest result).tasks =
      store.tasks := by
  unfold recordOperation
  split <;> rfl

theorem queuedCancelled_sameFacts {taskId executionId : String} {now : Nat} :
    SameFacts store (queuedCancelled taskId now store executionId) := by
  unfold queuedCancelled
  split
  · exact .refl store
  · split
    · exact transitioned_sameFacts
    · exact .refl store

theorem taskDeleted_sameFacts {taskId : String} {now : Nat} :
    SameFacts { store with tasks := store.tasks.erase taskId } (store.taskDeleted taskId now) := by
  unfold taskDeleted
  generalize { store with tasks := store.tasks.erase taskId } = erased
  generalize store.executions.keys = executionIds
  induction executionIds generalizing erased with
  | nil => exact .refl erased
  | cons executionId executionIds ih => exact queuedCancelled_sameFacts.trans (ih _)

theorem queued_tasks {execution : AutomationExecution} {occurrence : String × String}
    {workItemId : String} {createdAt : Nat} :
    (store.queued execution occurrence workItemId createdAt).tasks = store.tasks :=
  withWork_sameFacts.tasks

theorem queued_operations {execution : AutomationExecution} {occurrence : String × String}
    {workItemId : String} {createdAt : Nat} :
    (store.queued execution occurrence workItemId createdAt).operations = store.operations :=
  withWork_sameFacts.operations

theorem materialized_facts {items : List (ScheduledExecution × String)} {«namespace» : String}
    {now : Nat} :
    (items.foldl (materialized «namespace» now) store).tasks = store.tasks ∧
      (items.foldl (materialized «namespace» now) store).operations = store.operations := by
  induction items generalizing store with
  | nil => exact ⟨rfl, rfl⟩
  | cons item items ih => exact ⟨ih.1.trans queued_tasks, ih.2.trans queued_operations⟩

/-- How one call changes the tasks. -/
inductive TaskStep (store : MemoryAutomationStore) (tasks : Dict String AutomationTask) :
    StoreCall → Prop
  | kept {call : StoreCall} (same : tasks = store.tasks) : TaskStep store tasks call
  | created {task : AutomationTask} {requestId : Option String} {inputDigest : String}
      (absent : store.tasks.get? task.taskId = none)
      (written : tasks = store.tasks.insert task.taskId task) :
      TaskStep store tasks (.createTask task requestId inputDigest)
  | updated {task current : AutomationTask} {expectedRevision : Int} {requestId : Option String}
      {inputDigest : String} (found : store.tasks.get? task.taskId = some current)
      (revision : current.revision = expectedRevision)
      (written : tasks = store.tasks.insert task.taskId task) :
      TaskStep store tasks (.updateTask task expectedRevision requestId inputDigest)
  | deleted {«namespace» ownerId taskId : String} {expectedRevision : Int}
      {requestId : Option String} {inputDigest : String} {now : Nat}
      (written : tasks = store.tasks.erase taskId) :
      TaskStep store tasks
        (.deleteTask «namespace» ownerId taskId expectedRevision requestId inputDigest now)
  | materialized {task current : AutomationTask} {expectedNextRunAt : Nat}
      {executions : List (ScheduledExecution × String)} {now : Nat}
      (found : store.tasks.get? task.taskId = some current)
      (fresh : materializationIsCurrent current task expectedNextRunAt = true)
      (written : tasks = store.tasks.insert task.taskId task) :
      TaskStep store tasks (.materializeTask task expectedNextRunAt executions now)

theorem next_taskStep (stored : store.Stored) (call : StoreCall) :
    TaskStep store (store.next call).tasks call := by
  let step := fun after : MemoryAutomationStore => TaskStep store after.tasks call
  have same : step store := .kept rfl
  by_cases writes : call.WritesFacts
  · cases call with
    | createTask task requestId inputDigest =>
      refine next_of_clean step same
        ((createTask_spec task requestId inputDigest).mono ?_ fun _ _ => id)
      rintro value after (⟨-, rfl⟩ | ⟨-, absent, -, -, -, rfl⟩)
      · exact same
      · exact .created (by simpa [Dict.contains] using absent) recordOperation_tasks
    | updateTask task expectedRevision requestId inputDigest =>
      refine next_of_clean step same
        ((updateTask_spec task expectedRevision requestId inputDigest).mono ?_ fun _ _ => id)
      rintro value after (⟨-, rfl⟩ | ⟨-, -, ⟨current, found, -, -, revision⟩, -, -, rfl⟩)
      · exact same
      · exact .updated found revision recordOperation_tasks
    | deleteTask «namespace» ownerId taskId expectedRevision requestId inputDigest now =>
      refine next_of_clean step same ((deleteTask_spec «namespace» ownerId taskId expectedRevision
        requestId inputDigest now).mono ?_ fun _ _ => id)
      rintro value after (⟨-, rfl⟩ | ⟨-, -, -, rfl⟩)
      · exact same
      · exact .deleted (recordOperation_tasks.trans taskDeleted_sameFacts.tasks)
    | materializeTask task expectedNextRunAt executions now =>
      refine next_of_clean step same
        ((materializeTask_spec task expectedNextRunAt executions now).mono ?_ fun _ _ => id)
      rintro value after ⟨current, found, -, -, ⟨-, -, rfl⟩ | ⟨fresh, -, -, -, -, rfl⟩⟩
      · exact same
      · exact .materialized found fresh materialized_facts.1
    | enqueueExecution request =>
      refine next_of_clean step same ((enqueueExecution_spec request).mono ?_ fun _ _ => id)
      rintro value after (⟨-, rfl⟩ | ⟨-, ⟨_, -, -, rfl⟩ | ⟨-, -, -, -, -, -, -, -, rfl⟩⟩)
      · exact same
      · exact same
      · exact .kept (recordOperation_tasks.trans queued_tasks)
    | cancelExecution command now =>
      refine next_of_clean step same ((cancelOwned_spec command now).mono ?_ fun _ _ => id)
      rintro value after (⟨-, rfl⟩ | ⟨-, -, execution, transition, -, -, -, rfl⟩)
      · exact same
      · exact .kept (recordOperation_tasks.trans transitioned_sameFacts.tasks)
    | resolveExecution command resolution reason now =>
      refine next_of_clean step same
        ((resolveOwned_spec command resolution reason now).mono ?_ fun _ _ => id)
      rintro value after (⟨-, rfl⟩ | ⟨-, -, execution, transition, -, -, -, rfl⟩)
      · exact same
      · exact .kept (recordOperation_tasks.trans transitioned_sameFacts.tasks)
    | close => exact .kept rfl
    | _ => exact writes.elim
  · exact .kept (next_sameFacts stored writes).tasks

end MemoryAutomationStore

end Tinkerfin.Automation
