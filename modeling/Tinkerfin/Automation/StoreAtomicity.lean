import Tinkerfin.Automation.StoreSpec
import Tinkerfin.Lib.Machine

/-!
# Operations commit whole or not at all

An operation that returns keeps the records of a store together and within its limits; an operation
that raises leaves the store as it was, with one exception: a request for work whose lease would end
past the last representable instant raises after it has begun to claim an item.
-/

namespace Tinkerfin.Automation

namespace MemoryAutomationStore

open EStateM

variable {store : MemoryAutomationStore}

/-! ## Operations that read -/

/-- An operation leaves the store as it was, whether it returns or raises. -/
def ReadsOnly {α : Type} (operation : StoreM α) : Prop :=
  ∀ store, operation.Ensures store (fun _ after => after = store) (fun _ after => after = store)

namespace ReadsOnly

variable {α β : Type} {operation : StoreM α}

end ReadsOnly

theorem setup_readsOnly : ReadsOnly setup := by
  intro store
  simp [setup, ensures_ensureOpen]

theorem currentTime_readsOnly (now : Nat) : ReadsOnly (currentTime now) := by
  intro store
  simp [currentTime, ensures_ensureOpen]

theorem getTask_readsOnly («namespace» ownerId taskId : String) :
    ReadsOnly (getTask «namespace» ownerId taskId) := by
  intro store
  refine ensures_bind.mpr (ensures_validateScope (fun _ _ => ?_) fun _ => rfl)
  simp [ensures_bind, ensures_ensureOpen, ensures_ownedTask]

theorem getScheduledTask_readsOnly («namespace» taskId : String) :
    ReadsOnly (getScheduledTask «namespace» taskId) := by
  intro store
  simp only [getScheduledTask, ensures_bind, ensures_ofExcept, ensures_ensureOpen, ensures_get]
  refine ⟨fun _ _ => ⟨fun _ => trivial, fun _ => ?_⟩, fun _ _ => trivial⟩
  split <;> simp [ensures_ite]

theorem getExecution_readsOnly («namespace» ownerId executionId : String) :
    ReadsOnly (getExecution «namespace» ownerId executionId) := by
  intro store
  refine ensures_bind.mpr (ensures_validateScope (fun _ _ => ?_) fun _ => rfl)
  simp [ensures_bind, ensures_ensureOpen, ensures_ownedExecution]

theorem getScheduledExecution_readsOnly («namespace» executionId : String) :
    ReadsOnly (getScheduledExecution «namespace» executionId) := by
  intro store
  simp only [getScheduledExecution, ensures_bind, ensures_ofExcept, ensures_ensureOpen, ensures_get]
  refine ⟨fun _ _ => ⟨fun _ => trivial, fun _ => ?_⟩, fun _ _ => trivial⟩
  split <;> simp [ensures_ite]

theorem pageTasks_readsOnly (listed : AutomationTask → Bool) (limit : Int)
    (cursor : Option String) : ReadsOnly (pageTasks listed limit cursor) := by
  intro store
  simp [pageTasks, ensures_bind, ensures_ofExcept, ensures_ensureOpen]

theorem listTasks_readsOnly («namespace» ownerId : String) (limit : Int)
    (cursor : Option String) : ReadsOnly (listTasks «namespace» ownerId limit cursor) := by
  intro store
  exact ensures_bind.mpr (ensures_validateScope (fun _ _ => pageTasks_readsOnly _ _ _ _)
    fun _ => rfl)

theorem listScheduledTasks_readsOnly («namespace» : String) (limit : Int)
    (cursor : Option String) : ReadsOnly (listScheduledTasks «namespace» limit cursor) := by
  intro store
  simp only [listScheduledTasks, ensures_bind, ensures_ofExcept]
  exact ⟨fun _ _ => pageTasks_readsOnly _ _ _ _, fun _ _ => trivial⟩

theorem listExecutions_readsOnly («namespace» ownerId : String) (taskId : Option String)
    (limit : Int) (cursor : Option String) :
    ReadsOnly (listExecutions «namespace» ownerId taskId limit cursor) := by
  intro store
  refine ensures_bind.mpr (ensures_validateScope (fun _ _ => ?_) fun _ => rfl)
  simp [ensures_bind, ensures_ofExcept, ensures_ensureOpen]

/-! ## Operations that write -/

/-- An operation that returns keeps the records of a store, and one that raises changes nothing. -/
def Commits {α : Type} (operation : StoreM α) (store : MemoryAutomationStore) : Prop :=
  operation.Ensures store (fun _ after => after.Stored ∧ after.limits = store.limits)
    (fun _ after => after = store)

theorem ReadsOnly.commits {α : Type} {operation : StoreM α} (reads : ReadsOnly operation)
    (stored : store.Stored) : Commits operation store :=
  (reads store).mono (fun _ after same => by subst after; exact ⟨stored, rfl⟩) fun _ _ same => same

theorem Stored.recordOperation_of {requestId : Option String} {«namespace» ownerId digest : String}
    {result : OperationResult} {changed : MemoryAutomationStore} (stored : changed.Stored)
    (operations : changed.operations = store.operations) (limits : changed.limits = store.limits)
    (room : store.HasOperationRoom requestId) :
    (changed.recordOperation «namespace» ownerId requestId digest result).Stored ∧
      (changed.recordOperation «namespace» ownerId requestId digest result).limits =
        store.limits := by
  have saved : changed.HasOperationRoom requestId := by
    unfold HasOperationRoom
    rw [operations, limits]
    exact room
  refine ⟨stored.recordOperation saved, ?_⟩
  cases requestId <;> exact limits

theorem createTask_commits (stored : store.Stored) (task : AutomationTask)
    (requestId : Option String) (inputDigest : String) :
    Commits (createTask task requestId inputDigest) store := by
  refine (createTask_spec task requestId inputDigest).mono ?_ fun _ _ same => same
  rintro value after (⟨-, rfl⟩ | ⟨-, -, room, operationRoom, -, rfl⟩)
  · exact ⟨stored, rfl⟩
  · exact Stored.recordOperation_of (stored.insertTask (.inr room)) rfl rfl operationRoom

theorem updateTask_commits (stored : store.Stored) (task : AutomationTask) (expectedRevision : Int)
    (requestId : Option String) (inputDigest : String) :
    Commits (updateTask task expectedRevision requestId inputDigest) store := by
  refine (updateTask_spec task expectedRevision requestId inputDigest).mono ?_ fun _ _ same => same
  rintro value after (⟨-, rfl⟩ | ⟨-, operationRoom, ⟨current, found, -⟩, -, -, rfl⟩)
  · exact ⟨stored, rfl⟩
  · exact Stored.recordOperation_of (stored.insertTask (.inl (by simp [Dict.contains, found])))
      rfl rfl operationRoom

theorem Stored.queuedCancelled (stored : store.Stored) (taskId : String) (now : Nat)
    (executionId : String) : (queuedCancelled taskId now store executionId).Stored := by
  unfold MemoryAutomationStore.queuedCancelled
  split
  · exact stored
  · next execution found =>
      split
      · refine stored.transitioned ?_ (by simp [cancellation])
        rw [cancellation, stored.identified found]
        simp [Dict.contains, found]
      · exact stored

theorem Stored.taskDeleted (stored : store.Stored) (taskId : String) (now : Nat) :
    (store.taskDeleted taskId now).Stored := by
  unfold MemoryAutomationStore.taskDeleted
  generalize store.executions.keys = executionIds
  induction executionIds using List.reverseRecOn with
  | nil => exact stored.eraseTask
  | append_singleton executionIds executionId ih =>
    rw [List.foldl_append]
    exact ih.queuedCancelled taskId now executionId

theorem deleteTask_commits (stored : store.Stored) («namespace» ownerId taskId : String)
    (expectedRevision : Int) (requestId : Option String) (inputDigest : String) (now : Nat) :
    Commits (deleteTask «namespace» ownerId taskId expectedRevision requestId inputDigest now)
      store := by
  refine (deleteTask_spec «namespace» ownerId taskId expectedRevision requestId inputDigest
    now).mono ?_ fun _ _ same => same
  rintro - after (⟨-, rfl⟩ | ⟨-, operationRoom, -, rfl⟩)
  · exact ⟨stored, rfl⟩
  · exact Stored.recordOperation_of (stored.taskDeleted taskId now) taskDeleted_operations.1
      taskDeleted_operations.2 operationRoom

theorem Stored.queued (stored : store.Stored) {execution : AutomationExecution}
    {occurrence : String × String} {workItemId : String} {createdAt : Nat}
    (executionRoom : store.executions.size < store.limits.maxExecutions)
    (workRoom : store.work.size < store.limits.maxWorkItems) :
    (store.queued execution occurrence workItemId createdAt).Stored := by
  have put : (store.putExecution execution).Stored := stored.putExecution (.inr executionRoom)
  have noted : Stored { store.putExecution execution with
      occurrences := store.occurrences.insert occurrence execution.executionId } := { put with }
  exact noted.withWork (by simp [MemoryAutomationStore.putExecution, Dict.contains]) (.inr workRoom)

theorem queued_executions (execution : AutomationExecution) (occurrence : String × String)
    (workItemId : String) (createdAt : Nat) :
    (store.queued execution occurrence workItemId createdAt).executions =
      store.executions.insert execution.executionId execution := by
  simp [MemoryAutomationStore.queued, putExecution]

theorem Stored.materialized {items : List (ScheduledExecution × String)}
    (stored : store.Stored) («namespace» : String) (now : Nat)
    (executionRoom : store.executions.size + items.length ≤ store.limits.maxExecutions)
    (workRoom : store.work.size + items.length ≤ store.limits.maxWorkItems) :
    (items.foldl (materialized «namespace» now) store).Stored ∧
      (items.foldl (materialized «namespace» now) store).limits = store.limits := by
  induction items generalizing store with
  | nil => exact ⟨stored, rfl⟩
  | cons item items ih =>
    simp only [List.length_cons] at executionRoom workRoom
    have next : (MemoryAutomationStore.materialized «namespace» now store item).Stored :=
      stored.queued (by omega) (by omega)
    have size := store.queued_size item.1.execution («namespace», item.1.occurrenceKey) item.2 now
    have limits : (MemoryAutomationStore.materialized «namespace» now store item).limits =
        store.limits := queued_limits ..
    have grown : (MemoryAutomationStore.materialized «namespace» now store item).executions.size ≤
        store.executions.size + 1 := by
      rw [MemoryAutomationStore.materialized, queued_executions, Dict.size_insert]
      split <;> omega
    have kept := ih next (by rw [limits]; omega)
      (by rw [limits, MemoryAutomationStore.materialized]; omega)
    exact ⟨kept.1, kept.2.trans limits⟩

theorem materializeTask_commits (stored : store.Stored) (task : AutomationTask)
    (expectedNextRunAt : Nat) (executions : List (ScheduledExecution × String)) (now : Nat) :
    Commits (materializeTask task expectedNextRunAt executions now) store := by
  refine (materializeTask_spec task expectedNextRunAt executions now).mono ?_ fun _ _ same => same
  rintro value after ⟨current, found, -, -, ⟨-, -, rfl⟩ |
    ⟨-, -, executionRoom, workRoom, -, rfl⟩⟩
  · exact ⟨stored, rfl⟩
  · have put : (store.putTask task).Stored :=
      stored.insertTask (.inl (by simp [Dict.contains, found]))
    exact put.materialized task.namespace now executionRoom workRoom

theorem enqueueExecution_commits (stored : store.Stored) (request : EnqueueRequest) :
    Commits (enqueueExecution request) store := by
  refine (enqueueExecution_spec request).mono ?_ fun _ _ same => same
  rintro value after (⟨-, rfl⟩ | ⟨-, ⟨_, -, -, rfl⟩ |
    ⟨-, -, -, -, executionRoom, operationRoom, workRoom, -, rfl⟩⟩)
  · exact ⟨stored, rfl⟩
  · exact ⟨stored, rfl⟩
  · exact Stored.recordOperation_of (stored.queued executionRoom workRoom)
      withWork_sameFacts.operations (queued_limits ..) operationRoom

theorem renewClaim_commits (stored : store.Stored) (claim : WorkItemClaim) (leaseDuration : Int)
    (checkedAt now : Nat) : Commits (renewClaim claim leaseDuration checkedAt now) store := by
  refine (renewClaim_spec claim leaseDuration checkedAt now).mono ?_ fun _ _ same => same
  rintro value after ⟨item, leaseUntil, -, -, -, -, rfl⟩
  exact ⟨stored.modifyWork fun _ => rfl, modifyWork_limits⟩

theorem Stored.contains_of_same (stored : store.Stored) {executionId : String}
    {execution changed : AutomationExecution}
    (found : store.executions.get? executionId = some execution)
    (same : SameAttempt execution changed) :
    store.executions.contains changed.executionId = true := by
  rw [same.executionId, stored.identified found]
  simp [Dict.contains, found]

theorem authorizeClaimStart_commits (stored : store.Stored) (claim : WorkItemClaim)
    (executionTimeout : Int) (checkedAt now : Nat) (startToken : String) :
    Commits (authorizeClaimStart claim executionTimeout checkedAt now startToken) store := by
  refine (authorizeClaimStart_spec claim executionTimeout checkedAt now startToken).mono ?_
    fun _ _ same => same
  rintro value after ⟨item, execution, owns, decided, rfl⟩
  exact ⟨stored.putExecution (.inl (stored.contains_of_same owns.owner
    (authorizeStart_sameAttempt decided))), rfl⟩

theorem markInterrupted_commits (stored : store.Stored) (claim : WorkItemClaim)
    (interruptIds : List String) (checkedAt now : Nat) (workItemId : String) :
    Commits (markInterrupted claim interruptIds checkedAt now workItemId) store := by
  refine (markInterrupted_spec claim interruptIds checkedAt now workItemId).mono ?_
    fun _ _ same => same
  rintro value after ⟨item, execution, transition, owns, decided, room, -, rfl⟩
  exact ⟨stored.transitioned (stored.contains_of_same owns.owner
    (interruptExecution_sameAttempt decided)) fun _ => room, transitioned_sameFacts.limits⟩

theorem finishClaimed_commits (stored : store.Stored) (claim : WorkItemClaim)
    (report : FinishReport) (checkedAt now : Nat) :
    Commits (finishClaimed claim report checkedAt now) store := by
  refine (finishClaimed_spec claim report checkedAt now).mono ?_ fun _ _ same => same
  rintro value after ⟨item, execution, transition, owns, decided, -, rfl⟩
  have unscheduled : transition.deadlineWorkAt = none := by
    obtain ⟨-, rfl⟩ := finishExecution_eq_ok decided
    rfl
  exact ⟨stored.transitioned (stored.contains_of_same owns.owner
    (finishExecution_sameAttempt decided)) (by simp [unscheduled]), transitioned_sameFacts.limits⟩

theorem Stored.committed (stored : store.Stored) {command : OwnerCommand}
    {decide : AutomationExecution → Except Raised ExecutionTransition} {now : Nat}
    (decided : ∀ execution transition, decide execution = .ok transition →
      SameAttempt execution transition.execution ∧ transition.deadlineWorkAt = none)
    {value : AutomationExecution} {after : MemoryAutomationStore}
    (committed : store.Committed command decide now value after) :
    after.Stored ∧ after.limits = store.limits := by
  rcases committed with ⟨-, rfl⟩ | ⟨-, operationRoom, execution, transition, addressed, outcome, -,
    rfl⟩
  · exact ⟨stored, rfl⟩
  · obtain ⟨same, unscheduled⟩ := decided execution transition outcome
    exact Stored.recordOperation_of (stored.transitioned
      (stored.contains_of_same addressed.found same) (by simp [unscheduled]))
      transitioned_sameFacts.operations transitioned_sameFacts.limits operationRoom

theorem cancelOwned_commits (stored : store.Stored) (command : OwnerCommand) (now : Nat) :
    Commits (cancelOwned command now) store := by
  refine (cancelOwned_spec command now).mono ?_ fun _ _ same => same
  intro value after committed
  refine stored.committed (fun execution transition outcome => ?_) committed
  refine ⟨cancelExecution_sameAttempt outcome, ?_⟩
  rcases cancelExecution_eq_ok outcome with ⟨-, rfl⟩ | ⟨-, rfl⟩ | ⟨-, rfl⟩ <;> rfl

theorem resolveOwned_commits (stored : store.Stored) (command : OwnerCommand)
    (resolution : AttentionResolution) (reason : String) (now : Nat) :
    Commits (resolveOwned command resolution reason now) store := by
  refine (resolveOwned_spec command resolution reason now).mono ?_ fun _ _ same => same
  intro value after committed
  refine stored.committed (fun execution transition outcome => ?_) committed
  refine ⟨resolveExecution_sameAttempt outcome, ?_⟩
  obtain ⟨-, _, _, rfl⟩ := resolveExecution_eq_ok outcome
  rfl

/-! ## Requests for work -/

/-- Work items stay, and their fences never fall. -/
def FencesKept (before after : MemoryAutomationStore) : Prop :=
  ∀ workItemId item, before.work.get? workItemId = some item →
    ∃ later, after.work.get? workItemId = some later ∧ item.fence ≤ later.fence

theorem FencesKept.refl (store : MemoryAutomationStore) : FencesKept store store :=
  fun _ item found => ⟨item, found, le_rfl⟩

theorem FencesKept.trans {first second third : MemoryAutomationStore}
    (left : FencesKept first second) (right : FencesKept second third) :
    FencesKept first third := by
  intro workItemId item found
  obtain ⟨between, present, lower⟩ := left workItemId item found
  obtain ⟨later, stays, upper⟩ := right workItemId between present
  exact ⟨later, stays, lower.trans upper⟩

theorem putExecution_fencesKept {execution : AutomationExecution} :
    FencesKept store (store.putExecution execution) := fun _ item found => ⟨item, found, le_rfl⟩

theorem modifyWork_fencesKept {itemId : String} {change : WorkItem → WorkItem}
    (grows : ∀ item, item.fence ≤ (change item).fence) :
    FencesKept store (store.modifyWork itemId change) := by
  intro workItemId item found
  unfold modifyWork
  split
  · exact ⟨item, found, le_rfl⟩
  · next changed present =>
      simp only [Dict.get?_insert]
      split
      · next same =>
          obtain rfl : changed = item := Option.some.inj ((present.symm.trans (same ▸ found)))
          exact ⟨_, rfl, grows _⟩
      · exact ⟨item, found, le_rfl⟩

theorem completeWork_fencesKept {which : CompleteWork} {executionId : String}
    {item : Option String} : FencesKept store (store.completeWork which executionId item) := by
  unfold completeWork
  split
  · exact .refl store
  · exact .refl store
  · exact modifyWork_fencesKept fun _ => le_rfl
  · intro workItemId item found
    simp only [completeExecutionWork, Dict.get?_mapValues, found, Option.map_some,
      Option.some.injEq, exists_eq_left']
    split <;> exact le_rfl

theorem settled_fencesKept {transition : ExecutionTransition} {item : Option String} :
    FencesKept store (store.settled transition item) := by
  have completed : FencesKept (store.putExecution transition.execution)
      ((store.putExecution transition.execution).completeWork transition.completeWork
        transition.execution.executionId item) := completeWork_fencesKept
  unfold settled
  split
  · intro workItemId item found
    rw [releaseScopes_work]
    exact completed workItemId item found
  · exact completed

theorem claimRecovered_fencesKept {«namespace» : String} {now : Nat} {workItemId : String} :
    FencesKept store (claimRecovered «namespace» now store workItemId) := by
  unfold claimRecovered
  split
  · exact .refl store
  · split
    · split
      · exact .refl store
      · next execution _ =>
          exact putExecution_fencesKept.trans (modifyWork_fencesKept fun _ => le_rfl)
    · exact .refl store

theorem claimsRecovered_fencesKept {«namespace» : String} {now : Nat} :
    FencesKept store (store.claimsRecovered «namespace» now) := by
  unfold claimsRecovered
  generalize store.work.keys = workItemIds
  induction workItemIds generalizing store with
  | nil => exact .refl store
  | cons workItemId workItemIds ih => exact claimRecovered_fencesKept.trans ih

theorem claimCandidate_unscheduled {execution : AutomationExecution} {kind : WorkKind} {now : Nat}
    {transition : ExecutionTransition}
    (decided : claimCandidate execution kind now = some transition) :
    transition.deadlineWorkAt = none := by
  rcases claimCandidate_eq_some decided with ⟨rfl, -⟩ | ⟨rfl, -⟩ <;> rfl

/-- What an offer leaves: one settled execution, taken slots, or nothing new. -/
theorem offer_cases (request : WorkRequest) (store : MemoryAutomationStore) (workItemId : String) :
    offer request store workItemId = (store, none) ∨
    ∃ item execution, store.work.get? workItemId = some item ∧
      store.executions.get? item.executionId = some execution ∧
      ((∃ transition, claimCandidate execution item.kind request.now = some transition ∧
          offer request store workItemId =
            (store.transitioned transition (some workItemId) "" request.now, none)) ∨
        claimCandidate execution item.kind request.now = none ∧
          (item.kind = .execute ∧ store.CanReserve execution request.globalConcurrency ∧
              offer request store workItemId = (store.reserved execution, some item) ∨
            item.kind ≠ .execute ∧ offer request store workItemId = (store, some item))) := by
  cases found : store.work.get? workItemId with
  | none => exact .inl (by simp [offer, found])
  | some item =>
    cases owner : store.executions.get? item.executionId with
    | none => exact .inl (by simp [offer, found, owner])
    | some execution =>
      cases decided : claimCandidate execution item.kind request.now with
      | some transition =>
        exact .inr ⟨item, execution, rfl, owner, .inl ⟨transition, decided, by
          simp [offer, found, owner, decided]⟩⟩
      | none =>
        by_cases execute : item.kind = .execute
        · by_cases room : store.CanReserve execution request.globalConcurrency
          · refine .inr ⟨item, execution, rfl, owner, .inr ⟨decided, .inl ⟨execute, room, ?_⟩⟩⟩
            rw [execute] at decided
            simp [offer, found, owner, decided, execute, room]
          · rw [execute] at decided
            exact .inl (by simp [offer, found, owner, decided, execute, room])
        · exact .inr ⟨item, execution, rfl, owner, .inr ⟨decided, .inr ⟨execute, by
            simp [offer, found, owner, decided, execute]⟩⟩⟩

theorem Stored.reserved (stored : store.Stored) (execution : AutomationExecution) :
    (store.reserved execution).Stored := by
  unfold MemoryAutomationStore.reserved
  split
  · exact stored
  · exact { stored with }

theorem Stored.offer (stored : store.Stored) (request : WorkRequest) (workItemId : String) :
    (offer request store workItemId).1.Stored ∧
      (MemoryAutomationStore.offer request store workItemId).1.limits = store.limits := by
  rcases offer_cases request store workItemId with same | ⟨item, execution, found, owner,
    ⟨transition, decided, same⟩ | ⟨-, ⟨-, -, same⟩ | ⟨-, same⟩⟩⟩ <;> rw [same]
  · exact ⟨stored, rfl⟩
  · refine ⟨stored.transitioned (stored.contains_of_same owner (claimCandidate_sameAttempt decided))
      ?_, transitioned_sameFacts.limits⟩
    simp [claimCandidate_unscheduled decided]
  · refine ⟨stored.reserved execution, ?_⟩
    unfold MemoryAutomationStore.reserved
    split <;> rfl
  · exact ⟨stored, rfl⟩

theorem offer_fencesKept (request : WorkRequest) (workItemId : String) :
    FencesKept store (offer request store workItemId).1 := by
  rcases offer_cases request store workItemId with same | ⟨item, execution, found, owner,
    ⟨transition, decided, same⟩ | ⟨-, ⟨-, -, same⟩ | ⟨-, same⟩⟩⟩ <;> rw [same]
  · exact .refl store
  · simp only [transitioned, claimCandidate_unscheduled decided]
    exact settled_fencesKept
  · intro workItemId item found
    refine ⟨item, ?_, le_rfl⟩
    unfold MemoryAutomationStore.reserved
    split <;> exact found
  · exact .refl store

/-- Whether a request grants none of the items it offers in order. -/
def grantsNothing (request : WorkRequest) : MemoryAutomationStore → List String → Bool
  | _, [] => true
  | store, workItemId :: rest =>
    (offer request store workItemId).2.isNone &&
      grantsNothing request (offer request store workItemId).1 rest

/-- A loop of offers keeps what an offer and a change of a work item's owner keep. -/
theorem claimItems_keeps (Kept : MemoryAutomationStore → Prop) (request : WorkRequest)
    (offers : ∀ store workItemId, store.Stored → Kept store →
      Kept (offer request store workItemId).1)
    (changes : ∀ store workItemId change, Kept store → Kept (store.modifyWork workItemId change))
    (claims : List WorkItemClaim) (workItemIds : List String) (stored : store.Stored)
    (kept : Kept store) :
    (claimItems request claims workItemIds).Ensures store
      (fun _ after => after.Stored ∧ Kept after) (fun _ after => after.Stored ∧ Kept after) := by
  induction workItemIds generalizing store claims with
  | nil => exact ⟨stored, kept⟩
  | cons workItemId rest ih =>
    simp only [claimItems, ensures_bind, ensures_ite, ensures_pure]
    refine ⟨fun _ => ⟨stored, kept⟩, fun _ => (ensures_claimItem stored).mpr ?_⟩
    have offered := (stored.offer request workItemId).1
    have still := offers store workItemId stored kept
    split
    · next after decided =>
        rw [decided] at offered still
        exact ih _ offered still
    · next after item decided =>
        rw [decided] at offered still
        dsimp only
        split
        · exact ih _ (offered.modifyWork fun _ => rfl) (changes _ _ _ still)
        · exact ⟨offered.modifyWork fun _ => rfl, changes _ _ _ still⟩

theorem claimItems_stored (stored : store.Stored) (request : WorkRequest)
    (claims : List WorkItemClaim) (workItemIds : List String) :
    (claimItems request claims workItemIds).Ensures store
      (fun _ after => after.Stored ∧ after.limits = store.limits)
      (fun _ after => after.Stored ∧ after.limits = store.limits) :=
  claimItems_keeps (fun other => other.limits = store.limits) request
    (fun _ workItemId stored same => (stored.offer request workItemId).2.trans same)
    (fun _ _ _ same => modifyWork_limits.trans same) claims workItemIds stored rfl

/-- Offers raise only when an item is granted and its lease would end too late. -/
theorem claimItems_returns (stored : store.Stored) {request : WorkRequest}
    (claims : List WorkItemClaim) (workItemIds : List String)
    (fits : (∃ leaseUntil, later request.now request.leaseDuration = .ok leaseUntil) ∨
      grantsNothing request store workItemIds = true) :
    (claimItems request claims workItemIds).Ensures store (fun _ _ => True) (fun _ _ => False) := by
  induction workItemIds generalizing store claims with
  | nil => trivial
  | cons workItemId rest ih =>
    simp only [claimItems, ensures_bind, ensures_ite, ensures_pure]
    refine ⟨fun _ => trivial, fun _ => (ensures_claimItem stored).mpr ?_⟩
    have offered := (stored.offer request workItemId).1
    split
    · next after decided =>
        rw [decided] at offered
        refine ih offered claims (fits.imp_right fun none => ?_)
        simp only [grantsNothing, decided, Bool.and_eq_true] at none
        exact none.2
    · next after item decided =>
        rw [decided] at offered
        rcases fits with ⟨leaseUntil, fits⟩ | none
        · simp only [fits]
          have leased : (after.modifyWork workItemId fun item => (item.claimedBy request.workerId
              (request.claimToken claims.length)).leased leaseUntil).Stored :=
            offered.modifyWork fun _ => rfl
          exact ih leased _ (.inl ⟨leaseUntil, fits⟩)
        · simp [grantsNothing, decided] at none

/-- Otherwise they raise with the item claimed under a new fence. -/
theorem claimItems_raises (stored : store.Stored) {request : WorkRequest} {error : Raised}
    (overflow : later request.now request.leaseDuration = .error error)
    (claims : List WorkItemClaim) (room : (claims.length : Int) < request.limit)
    (workItemIds : List String) (grants : grantsNothing request store workItemIds = false) :
    (claimItems request claims workItemIds).Ensures store (fun _ _ => False) (fun _ after =>
      ∃ workItemId later, after.work.get? workItemId = some later ∧
        ∀ item, store.work.get? workItemId = some item → item.fence < later.fence) := by
  induction workItemIds generalizing store with
  | nil => simp [grantsNothing] at grants
  | cons workItemId rest ih =>
    simp only [claimItems, ensures_bind, ensures_ite, ensures_pure]
    refine ⟨fun full => absurd room (Int.not_lt.mpr full), fun _ =>
      (ensures_claimItem stored).mpr ?_⟩
    have offered := (stored.offer request workItemId).1
    have kept : FencesKept store (offer request store workItemId).1 :=
      offer_fencesKept request workItemId
    split
    · next after decided =>
        rw [decided] at offered kept
        simp only [grantsNothing, decided, Option.isNone_none, Bool.true_and] at grants
        refine (ih offered grants).mono (fun _ _ => id) ?_
        rintro _ final ⟨granted, later, present, grown⟩
        refine ⟨granted, later, present, fun item found => ?_⟩
        obtain ⟨between, stays, lower⟩ := kept granted item found
        exact lower.trans_lt (grown between stays)
    · next after item decided =>
        rw [decided] at kept
        have found : store.work.get? workItemId = some item := by
          rcases offer_cases request store workItemId with same | ⟨_, _, found, _,
            ⟨_, _, same⟩ | ⟨-, ⟨-, -, same⟩ | ⟨-, same⟩⟩⟩ <;>
            simp only [decided, Prod.mk.injEq, Option.some.injEq, reduceCtorEq, and_false] at same
          · exact same.2 ▸ found
          · exact same.2 ▸ found
        obtain ⟨between, stays, lower⟩ := kept workItemId item found
        simp only [overflow]
        refine ⟨workItemId, between.claimedBy request.workerId
          (request.claimToken claims.length), by simp [modifyWork, stays], fun other same => ?_⟩
        obtain rfl := Option.some.inj (found.symm.trans same)
        exact Nat.lt_succ_of_le lower

/-- The arguments of a request for work pass their checks. -/
structure WorkRequest.Accepted (request : WorkRequest) : Prop where
  «namespace» : isPersistedText request.namespace (some 128) = true
  workerId : isPersistedText request.workerId (some 191) = true
  limit : 1 ≤ request.limit
  leaseDuration : 0 < request.leaseDuration
  globalConcurrency : 1 ≤ request.globalConcurrency

/-- A request passes its checks, or it raises before it changes anything. -/
theorem ensures_claimWork {request : WorkRequest}
    {returned : List WorkItemClaim → MemoryAutomationStore → Prop}
    {raised : Raised → MemoryAutomationStore → Prop} (stored : store.Stored)
    (onRaise : (request.Accepted → store.closed = true) → ∀ error, raised error store)
    (onClaim : request.Accepted → store.closed = false →
      (claimItems request [] (((store.claimsRecovered request.namespace request.now).dueWork
        request.namespace request.now).map (·.workItemId))).Ensures
        (store.claimsRecovered request.namespace request.now) returned raised) :
    (claimWork request).Ensures store returned raised := by
  have invalid : ∀ {text name : String} {maximum : Option Nat} {error : Raised},
      validatePersistedText text name maximum = .error error →
        isPersistedText text maximum ≠ true := by
    intro text name maximum error failed valid
    rw [validatePersistedText_eq_ok.mpr valid] at failed
    cases failed
  simp only [claimWork, ensures_bind, ensures_ofExcept, ensures_ite, ensures_throw,
    ensures_ensureOpen]
  refine ⟨fun _ validNamespace => ⟨fun _ validWorker => ⟨fun small => ?_, fun limit =>
    ⟨fun short => ?_, fun duration => ⟨fun few => ?_, fun concurrency =>
      ⟨fun closed => onRaise (fun _ => closed) _, fun opened => ?_⟩⟩⟩⟩, fun _ failed => ?_⟩,
        fun _ failed => ?_⟩
  · exact onRaise (fun accepted => absurd accepted.limit (by omega)) _
  · exact onRaise (fun accepted => absurd accepted.leaseDuration (by omega)) _
  · exact onRaise (fun accepted => absurd accepted.globalConcurrency (by omega)) _
  · refine ensures_recoverExpiredClaims stored ?_
    simp only [ensures_get]
    exact onClaim ⟨validatePersistedText_eq_ok.mp validNamespace,
      validatePersistedText_eq_ok.mp validWorker, by omega, by omega, by omega⟩ opened
  · exact onRaise (fun accepted => absurd accepted.workerId (invalid failed)) _
  · exact onRaise (fun accepted => absurd accepted.namespace (invalid failed)) _

theorem claimsRecovered_limits {«namespace» : String} {now : Nat} :
    (store.claimsRecovered «namespace» now).limits = store.limits := by
  have one : ∀ (store : MemoryAutomationStore) workItemId,
      (claimRecovered «namespace» now store workItemId).limits = store.limits := by
    intro store workItemId
    unfold claimRecovered
    split
    · rfl
    · split
      · split
        · rfl
        · exact modifyWork_limits
      · rfl
  unfold claimsRecovered
  generalize store.work.keys = workItemIds
  induction workItemIds generalizing store with
  | nil => rfl
  | cons workItemId workItemIds ih => exact ih.trans (one store workItemId)

/-- A request for work that grants an item whose lease would end past the last instant. -/
def Overflows (store : MemoryAutomationStore) : StoreCall → Prop
  | .claimWork request => request.Accepted ∧ store.closed = false ∧
      (lastInstant : Int) < request.now + request.leaseDuration ∧
      grantsNothing request (store.claimsRecovered request.namespace request.now)
        (((store.claimsRecovered request.namespace request.now).dueWork request.namespace
          request.now).map (·.workItemId)) = false
  | _ => False

theorem claimWork_stored (stored : store.Stored) (request : WorkRequest) :
    (claimWork request).Ensures store
      (fun _ after => after.Stored ∧ after.limits = store.limits)
      (fun _ after => after.Stored ∧ after.limits = store.limits) := by
  refine ensures_claimWork stored (fun _ _ => ⟨stored, rfl⟩) fun _ _ => ?_
  refine (claimItems_stored (stored.claimsRecovered request.now) request [] _).mono ?_ ?_ <;>
    exact fun _ _ kept => ⟨kept.1, kept.2.trans claimsRecovered_limits⟩

theorem claimWork_commits (stored : store.Stored) (request : WorkRequest)
    (fits : ¬store.Overflows (.claimWork request)) : Commits (claimWork request) store := by
  have unchanged : (claimWork request).Ensures store (fun _ _ => True)
      (fun _ after => after = store) := by
    refine ensures_claimWork stored (fun _ _ => rfl) fun accepted opened => ?_
    refine (claimItems_returns (stored.claimsRecovered request.now) [] _ ?_).mono
      (fun _ _ => id) fun _ _ => False.elim
    by_cases late : (lastInstant : Int) < request.now + request.leaseDuration
    · refine .inr ?_
      by_contra grants
      exact fits ⟨accepted, opened, late, by simpa using grants⟩
    · have positive := accepted.leaseDuration
      refine .inl ⟨(request.now + request.leaseDuration).toNat, later_eq_ok.mpr ?_⟩
      omega
  exact ((claimWork_stored stored request).and unchanged).mono (fun _ _ both => both.1)
    fun _ _ both => both.2

/-- A request that overflows raises, and leaves an item claimed under a new fence. -/
theorem claimWork_overflows (stored : store.Stored) (request : WorkRequest)
    (overflows : store.Overflows (.claimWork request)) :
    ∃ error after, (claimWork request).run store = .error error after ∧ after ≠ store ∧
      after ≠ store.claimsRecovered request.namespace request.now := by
  obtain ⟨accepted, opened, late, grants⟩ := overflows
  obtain ⟨error, overflow⟩ : ∃ error, later request.now request.leaseDuration = .error error := by
    cases fits : later request.now request.leaseDuration with
    | ok leaseUntil => have := later_eq_ok.mp fits; omega
    | error error => exact ⟨error, rfl⟩
  have limited := accepted.limit
  have raises : (claimWork request).Ensures store (fun _ _ => False) (fun _ after =>
      ∃ workItemId later, after.work.get? workItemId = some later ∧
        ∀ item, (store.claimsRecovered request.namespace request.now).work.get? workItemId =
          some item → item.fence < later.fence) := by
    refine ensures_claimWork stored (fun refused => ?_) fun _ _ => ?_
    · simp [refused accepted] at opened
    · exact claimItems_raises (stored.claimsRecovered request.now) overflow []
        (by simp only [List.length_nil]; omega) _ grants
  obtain ⟨error, after, outcome⟩ : ∃ error after,
      (claimWork request).run store = .error error after := by
    cases outcome : (claimWork request).run store with
    | ok value after => exact (raises.of_ok outcome).elim
    | error error after => exact ⟨error, after, rfl⟩
  obtain ⟨workItemId, later, present, grown⟩ := raises.of_error outcome
  refine ⟨error, after, outcome, ?_, ?_⟩
  · rintro rfl
    obtain ⟨between, stays, lower⟩ := claimsRecovered_fencesKept workItemId later present
    exact absurd (grown between stays) (Nat.not_lt.mpr lower)
  · rintro rfl
    exact absurd (grown later present) (lt_irrefl _)

/-- One call keeps the records of a store within its limits, and changes nothing when it raises
unless it overflows. -/
theorem perform_commits (stored : store.Stored) (call : StoreCall)
    (fits : ¬store.Overflows call) : Commits (perform call) store := by
  cases call with
  | setup => exact ensures_map.mpr (setup_readsOnly.commits stored)
  | currentTime now => exact ensures_map.mpr ((currentTime_readsOnly now).commits stored)
  | createTask task requestId inputDigest =>
    exact ensures_map.mpr (createTask_commits stored task requestId inputDigest)
  | updateTask task expectedRevision requestId inputDigest =>
    exact ensures_map.mpr (updateTask_commits stored task expectedRevision requestId inputDigest)
  | deleteTask «namespace» ownerId taskId expectedRevision requestId inputDigest now =>
    exact ensures_map.mpr (deleteTask_commits stored «namespace» ownerId taskId expectedRevision
      requestId inputDigest now)
  | getTask «namespace» ownerId taskId =>
    exact ensures_map.mpr ((getTask_readsOnly «namespace» ownerId taskId).commits stored)
  | listTasks «namespace» ownerId limit cursor =>
    exact ensures_map.mpr ((listTasks_readsOnly «namespace» ownerId limit cursor).commits stored)
  | getScheduledTask «namespace» taskId =>
    exact ensures_map.mpr ((getScheduledTask_readsOnly «namespace» taskId).commits stored)
  | listScheduledTasks «namespace» limit cursor =>
    exact ensures_map.mpr ((listScheduledTasks_readsOnly «namespace» limit cursor).commits stored)
  | materializeTask task expectedNextRunAt executions now =>
    exact ensures_map.mpr (materializeTask_commits stored task expectedNextRunAt executions now)
  | enqueueExecution request => exact ensures_map.mpr (enqueueExecution_commits stored request)
  | getExecution «namespace» ownerId executionId =>
    exact ensures_map.mpr ((getExecution_readsOnly «namespace» ownerId executionId).commits stored)
  | getScheduledExecution «namespace» executionId =>
    exact ensures_map.mpr
      ((getScheduledExecution_readsOnly «namespace» executionId).commits stored)
  | listExecutions «namespace» ownerId taskId limit cursor =>
    exact ensures_map.mpr
      ((listExecutions_readsOnly «namespace» ownerId taskId limit cursor).commits stored)
  | claimWork request => exact ensures_map.mpr (claimWork_commits stored request fits)
  | renewClaim claim leaseDuration checkedAt now =>
    exact ensures_map.mpr (renewClaim_commits stored claim leaseDuration checkedAt now)
  | authorizeStart claim executionTimeout checkedAt now startToken =>
    exact ensures_map.mpr
      (authorizeClaimStart_commits stored claim executionTimeout checkedAt now startToken)
  | markInterrupted claim interruptIds checkedAt now workItemId =>
    exact ensures_map.mpr
      (markInterrupted_commits stored claim interruptIds checkedAt now workItemId)
  | finishExecution claim report checkedAt now =>
    exact ensures_map.mpr (finishClaimed_commits stored claim report checkedAt now)
  | cancelExecution command now => exact ensures_map.mpr (cancelOwned_commits stored command now)
  | resolveExecution command resolution reason now =>
    exact ensures_map.mpr (resolveOwned_commits stored command resolution reason now)
  | close => exact ensures_map.mpr ⟨{ stored with }, rfl⟩

theorem perform_stored (stored : store.Stored) (call : StoreCall) :
    (perform call).Ensures store (fun _ after => after.Stored ∧ after.limits = store.limits)
      (fun _ after => after.Stored ∧ after.limits = store.limits) := by
  by_cases overflows : store.Overflows call
  · cases call <;> try exact overflows.elim
    exact ensures_map.mpr (claimWork_stored stored _)
  · refine (perform_commits stored call overflows).mono (fun _ _ kept => kept) ?_
    rintro - after rfl
    exact ⟨stored, rfl⟩

theorem next_stored (stored : store.Stored) (call : StoreCall) :
    (store.next call).Stored ∧ (store.next call).limits = store.limits :=
  (perform_stored stored call).final

/-- A call that raises changes nothing, or only recovers claims that had expired. -/
def RaisesCleanly (store : MemoryAutomationStore) (call : StoreCall) : Prop :=
  ∀ error after, (perform call).run store = .error error after → after = store ∨
    ∃ request, call = .claimWork request ∧
      after = store.claimsRecovered request.namespace request.now

theorem not_raisesCleanly (stored : store.Stored) {call : StoreCall}
    (overflows : store.Overflows call) : ¬store.RaisesCleanly call := by
  intro clean
  cases call <;> try exact overflows.elim
  next request =>
    obtain ⟨error, after, outcome, changed, more⟩ := claimWork_overflows stored request overflows
    have raised : (perform (.claimWork request)).run store = .error error after := by
      simp only [EStateM.run] at outcome
      simp only [perform, EStateM.run, Functor.map, EStateM.map, outcome]
    rcases clean error after raised with same | ⟨_, named, recovered⟩
    · exact changed same
    · obtain rfl := StoreCall.claimWork.inj named
      exact more recovered

/-- No kind of record exceeds its limit. -/
structure WithinLimits (store : MemoryAutomationStore) (limits : MemoryStoreLimits) : Prop where
  tasks : store.tasks.size ≤ limits.maxTasks
  executions : store.executions.size ≤ limits.maxExecutions
  workItems : store.work.size ≤ limits.maxWorkItems
  operations : store.operations.size ≤ limits.maxOperations

theorem run_stored (limits : MemoryStoreLimits) (calls : List StoreCall) :
    (Machine.run next (opened limits) calls).Stored ∧
      (Machine.run next (opened limits) calls).limits = limits := by
  have preserved : ∀ (store : MemoryAutomationStore) (call : StoreCall),
      store.Stored ∧ store.limits = limits →
        (store.next call).Stored ∧ (store.next call).limits = limits := by
    intro store call ⟨stored, same⟩
    obtain ⟨kept, limited⟩ := next_stored stored call
    exact ⟨kept, limited.trans same⟩
  exact Machine.run_invariant preserved ⟨stored_opened limits, rfl⟩

/-- In every reachable state, a call that raises leaves the records as they were exactly when it is
no request whose lease would end past the last instant, and no call exceeds the limits. -/
theorem raises_cleanly_iff (limits : MemoryStoreLimits) (calls : List StoreCall)
    (call : StoreCall) :
    ((Machine.run next (opened limits) calls).RaisesCleanly call ↔
        ¬(Machine.run next (opened limits) calls).Overflows call) ∧
      ((Machine.run next (opened limits) calls).next call).WithinLimits limits := by
  obtain ⟨stored, same⟩ := run_stored limits calls
  refine ⟨⟨fun clean overflows => not_raisesCleanly stored overflows clean,
    fun fits error after raised => ?_⟩, ?_⟩
  · exact .inl ((perform_commits stored call fits).of_error raised)
  · obtain ⟨kept, limited⟩ := next_stored stored call
    rw [same] at limited
    exact ⟨by simpa only [limited] using kept.tasks, by simpa only [limited] using kept.executions,
      by simpa only [limited] using kept.workItems, by simpa only [limited] using kept.operations⟩

/-- A queued one-time execution. -/
def sampleExecution : AutomationExecution where
  executionId := "execution"
  taskId := none
  «namespace» := "tenant"
  ownerId := "owner"
  identity := ⟨⟨"tenant", "thread"⟩, "run"⟩
  target := "target"
  input := []
  limits := {}
  origin := .oneTime
  status := .queued
  attempt := 1
  retryOf := none
  scheduledFor := none
  queuedAt := 0
  queueDeadline := lastInstant
  createdAt := 0
  updatedAt := 0

/-- A task that waits for its first wakeup. -/
def sampleTask : AutomationTask where
  taskId := "task"
  «namespace» := "tenant"
  ownerId := "owner"
  name := "name"
  target := "target"
  input := []
  schedule := .interval 60 0
  status := .enabled
  revision := 1
  nextRunAt := some 0
  misfirePolicy := {}
  limits := {}
  createdAt := 0
  updatedAt := 0
  canonical := by decide +kernel

/-- The call that queues an execution under its own identity. -/
def sampleEnqueue (execution : AutomationExecution) : StoreCall :=
  .enqueueExecution {
    execution
    occurrenceKey := execution.executionId
    requestId := none
    inputDigest := ""
    workItemId := execution.executionId
    now := 0 }

/-- A request for one work item at an instant. -/
def sampleRequest (now : Nat) (leaseDuration : Int) : WorkRequest where
  «namespace» := "tenant"
  workerId := "worker"
  limit := 1
  leaseDuration
  globalConcurrency := 1
  now
  claimToken := fun _ => "token"

/-- The longest length of time leaves the item claimed and its slots taken. -/
theorem overflowing_claim_changes_records : ¬∀ limits calls call,
    (Machine.run next (opened limits) calls).RaisesCleanly call := by
  intro clean
  refine not_raisesCleanly (run_stored {} [sampleEnqueue sampleExecution]).1 ?_
    (clean {} [sampleEnqueue sampleExecution]
      (.claimWork (sampleRequest 63902908800000000 86399999999999999999)))
  exact ⟨⟨by decide +kernel, by decide +kernel, by decide, by decide, by decide⟩,
    by decide +kernel, by decide, by decide +kernel⟩

end MemoryAutomationStore

end Tinkerfin.Automation
