import Tinkerfin.Automation.StoreFacts
import Tinkerfin.Automation.StoreRuns

/-!
# Occurrences and queues

An occurrence key names one execution for ever, and an execution is created only under a key that was
not known.  Under fixed limits no queue holds more executions than its bound: a call that would exceed
it raises and leaves the store, with the task's next wakeup, as it is.
-/

namespace Tinkerfin.Automation

open EStateM
open MemoryAutomationStore (opened next perform Promised Refines WorkRequest claimRecovered
  claimItems offer SameFacts)

/-- A call that may queue executions. -/
def StoreCall.Queues : StoreCall → Prop
  | .enqueueExecution _ | .materializeTask _ _ _ _ => True
  | _ => False

namespace MemoryAutomationStore

variable {store : MemoryAutomationStore}

/-! ## Calls that queue nothing -/

theorem recordOperation_occurrences {«namespace» ownerId inputDigest : String}
    {requestId : Option String} {result : OperationResult} :
    (store.recordOperation «namespace» ownerId requestId inputDigest result).occurrences =
      store.occurrences := by
  unfold recordOperation
  split <;> rfl

theorem Committed.occurrences {command : OwnerCommand}
    {decide : AutomationExecution → Except Raised ExecutionTransition} {now : Nat}
    {value : AutomationExecution} {after : MemoryAutomationStore}
    (committed : store.Committed command decide now value after) :
    after.occurrences = store.occurrences := by
  rcases committed with ⟨-, rfl⟩ | ⟨-, -, execution, transition, -, -, -, rfl⟩
  · rfl
  · exact recordOperation_occurrences.trans transitioned_sameFacts.occurrences

/-- A call that queues nothing keeps the occurrences. -/
theorem keeps_occurrences (stored : store.Stored) {call : StoreCall} (other : ¬call.Queues) :
    (store.next call).occurrences = store.occurrences := by
  let kept := fun after : MemoryAutomationStore => after.occurrences = store.occurrences
  by_cases writes : call.WritesFacts
  · cases call with
    | createTask task requestId inputDigest =>
      refine next_of_clean kept rfl ((createTask_spec task requestId inputDigest).mono ?_ fun _ _ => id)
      rintro value after (⟨-, rfl⟩ | ⟨-, -, -, -, -, rfl⟩)
      · rfl
      · exact recordOperation_occurrences
    | updateTask task expectedRevision requestId inputDigest =>
      refine next_of_clean kept rfl
        ((updateTask_spec task expectedRevision requestId inputDigest).mono ?_ fun _ _ => id)
      rintro value after (⟨-, rfl⟩ | ⟨-, -, -, -, -, rfl⟩)
      · rfl
      · exact recordOperation_occurrences
    | deleteTask «namespace» ownerId taskId expectedRevision requestId inputDigest now =>
      refine next_of_clean kept rfl ((deleteTask_spec «namespace» ownerId taskId expectedRevision requestId
        inputDigest now).mono ?_ fun _ _ => id)
      rintro value after (⟨-, rfl⟩ | ⟨-, -, -, rfl⟩)
      · rfl
      · exact recordOperation_occurrences.trans taskDeleted_sameFacts.occurrences
    | cancelExecution command now =>
      exact next_of_clean kept rfl ((cancelOwned_spec command now).mono
        (fun _ _ committed => committed.occurrences) fun _ _ => id)
    | resolveExecution command resolution reason now =>
      exact next_of_clean kept rfl ((resolveOwned_spec command resolution reason now).mono
        (fun _ _ committed => committed.occurrences) fun _ _ => id)
    | close => rfl
    | materializeTask | enqueueExecution => exact absurd trivial other
    | _ => exact writes.elim
  · exact (next_sameFacts stored writes).occurrences

/-! ## What a call adds -/

/-- Every execution that was added has an occurrence that was not known, and everything known stays. -/
structure Extends (store after : MemoryAutomationStore) : Prop where
  kept : ∀ occurrence executionId, store.occurrences.get? occurrence = some executionId →
    after.occurrences.get? occurrence = some executionId
  stays : ∀ executionId execution, store.executions.get? executionId = some execution →
    ∃ later, after.executions.get? executionId = some later ∧
      later.namespace = execution.namespace
  created : ∀ executionId execution, after.executions.get? executionId = some execution →
    store.executions.get? executionId = none → ∃ key,
      store.occurrences.get? (execution.namespace, key) = none ∧
        after.occurrences.get? (execution.namespace, key) = some executionId
  named : ∀ occurrence executionId, after.occurrences.get? occurrence = some executionId →
    store.occurrences.get? occurrence = some executionId ∨ ∃ execution,
      after.executions.get? executionId = some execution ∧ execution.namespace = occurrence.1

theorem Extends.refl (store : MemoryAutomationStore) : Extends store store where
  kept _ _ := id
  stays _ execution found := ⟨execution, found, rfl⟩
  created _ _ found absent := by simp [found] at absent
  named _ _ := .inl

theorem Extends.trans {between after : MemoryAutomationStore} (first : Extends store between)
    (second : Extends between after) : Extends store after where
  kept occurrence executionId known := second.kept _ _ (first.kept _ _ known)
  stays executionId execution found := by
    obtain ⟨middle, present, same⟩ := first.stays _ _ found
    obtain ⟨later, stored, equal⟩ := second.stays _ _ present
    exact ⟨later, stored, equal.trans same⟩
  created executionId execution found absent := by
    cases middle : between.executions.get? executionId with
    | none =>
      obtain ⟨key, unknown, known⟩ := second.created _ _ found middle
      refine ⟨key, ?_, known⟩
      by_contra early
      obtain ⟨other, present⟩ := Option.ne_none_iff_exists'.mp early
      simp [first.kept _ _ present] at unknown
    | some early =>
      obtain ⟨key, unknown, known⟩ := first.created _ _ middle absent
      obtain ⟨later, stored, same⟩ := second.stays _ _ middle
      obtain rfl := Option.some.inj (found.symm.trans stored)
      rw [← same] at unknown known
      exact ⟨key, unknown, second.kept _ _ known⟩
  named occurrence executionId known := by
    rcases second.named _ _ known with early | late
    · rcases first.named _ _ early with known | ⟨execution, found, same⟩
      · exact .inl known
      · obtain ⟨later, stored, equal⟩ := second.stays _ _ found
        exact .inr ⟨later, stored, equal.trans same⟩
    · exact .inr late

theorem Extends.of_same {after : MemoryAutomationStore}
    (executions : after.executions = store.executions)
    (occurrences : after.occurrences = store.occurrences) : Extends store after where
  kept _ _ known := by rwa [occurrences]
  stays _ execution found := ⟨execution, by rwa [executions], rfl⟩
  created _ _ found absent := by simp [executions, absent] at found
  named _ _ known := .inl (by rwa [occurrences] at known)

theorem queued_occurrences (execution : AutomationExecution) (occurrence : String × String)
    (workItemId : String) (createdAt : Nat) :
    (store.queued execution occurrence workItemId createdAt).occurrences =
      store.occurrences.insert occurrence execution.executionId :=
  withWork_sameFacts.occurrences

/-- A new execution under an unknown key. -/
theorem queued_extends {execution : AutomationExecution} {key workItemId : String} {createdAt : Nat}
    (absent : store.executions.get? execution.executionId = none)
    (unknown : store.occurrences.get? (execution.namespace, key) = none) :
    Extends store
      (store.queued execution (execution.namespace, key) workItemId createdAt) where
  kept occurrence executionId known := by
    rw [queued_occurrences]
    exact (Dict.get?_insert_of_ne _ _ fun same => by simp [← same, known] at unknown).trans known
  stays executionId stored found := by
    refine ⟨stored, ?_, rfl⟩
    rw [queued_executions]
    exact (Dict.get?_insert_of_ne _ _ fun same => by simp [← same, found] at absent).trans found
  created executionId stored found fresh := by
    rw [queued_executions, Dict.get?_insert] at found
    split at found
    · next same =>
        obtain rfl := Option.some.inj found
        exact ⟨key, unknown, by simp [queued_occurrences, same]⟩
    · simp [fresh] at found
  named occurrence executionId known := by
    rw [queued_occurrences, Dict.get?_insert] at known
    split at known
    · next same =>
        obtain rfl := Option.some.inj known
        exact .inr ⟨execution, by simp [queued_executions], by rw [same]⟩
    · exact .inl known

theorem mem_knownOccurrences {«namespace» key : String} :
    key ∈ store.knownOccurrences «namespace» ↔
      store.occurrences.get? («namespace», key) ≠ none := by
  rw [knownOccurrences, List.mem_map, ← Option.isSome_iff_ne_none, ← Dict.mem_keys_iff]
  constructor
  · rintro ⟨⟨other, _⟩, member, rfl⟩
    obtain ⟨known, same⟩ := List.mem_filter.mp member
    obtain rfl : other = «namespace» := by simpa using same
    exact known
  · exact fun known => ⟨(«namespace», key), List.mem_filter.mpr ⟨known, by simp⟩, rfl⟩

/-- Pending occurrences have distinct keys that were not seen. -/
theorem pendingOccurrences_keys (seen : List String) (items : List (ScheduledExecution × String)) :
    ((pendingOccurrences seen items).map (·.1.occurrenceKey)).Nodup ∧
      ∀ item ∈ pendingOccurrences seen items, item.1.occurrenceKey ∉ seen := by
  induction items generalizing seen with
  | nil => simp [pendingOccurrences]
  | cons item items ih =>
    simp only [pendingOccurrences]
    split
    · exact ih seen
    · next unseen =>
        obtain ⟨distinct, fresh⟩ := ih (item.1.occurrenceKey :: seen)
        refine ⟨List.nodup_cons.mpr ⟨fun member => ?_, distinct⟩, fun other member => ?_⟩
        · obtain ⟨other, pending, same⟩ := List.mem_map.mp member
          exact fresh other pending (by simp [same])
        · rcases List.mem_cons.mp member with rfl | member
          · exact unseen
          · exact fun known => fresh other member (.tail _ known)

/-- A batch of new executions under unknown keys. -/
theorem materialized_extends {items : List (ScheduledExecution × String)} {«namespace» : String}
    {now : Nat} (keys : (items.map (·.1.occurrenceKey)).Nodup)
    (executions : (items.map (·.1.execution.executionId)).Nodup)
    (fresh : ∀ item ∈ items, item.1.execution.namespace = «namespace» ∧
      store.executions.get? item.1.execution.executionId = none ∧
      store.occurrences.get? («namespace», item.1.occurrenceKey) = none) :
    Extends store (items.foldl (materialized «namespace» now) store) := by
  induction items generalizing store with
  | nil => exact .refl store
  | cons item items ih =>
    simp only [List.map_cons, List.nodup_cons, List.mem_map, not_exists, not_and] at keys executions
    obtain ⟨same, absent, unknown⟩ := fresh item List.mem_cons_self
    have first : Extends store (materialized «namespace» now store item) := by
      unfold materialized
      rw [← same] at unknown ⊢
      exact queued_extends absent unknown
    refine first.trans (ih keys.2 executions.2 fun other member => ?_)
    obtain ⟨otherNamespace, otherAbsent, otherUnknown⟩ := fresh other (.tail _ member)
    refine ⟨otherNamespace, ?_, ?_⟩
    · rw [materialized, queued_executions]
      exact (Dict.get?_insert_of_ne _ _ fun same => executions.1 other member same).trans otherAbsent
    · rw [materialized, queued_occurrences]
      refine (Dict.get?_insert_of_ne _ _ fun same => keys.1 other member ?_).trans otherUnknown
      exact (Prod.mk.inj same).2

theorem enqueueExecution_extends (request : EnqueueRequest) :
    (enqueueExecution request).Ensures store (fun _ after => Extends store after)
      (fun _ after => Extends store after) := by
  refine (enqueueExecution_spec request).mono ?_ fun _ _ same => same ▸ .refl store
  rintro value after (⟨-, rfl⟩ | ⟨-, ⟨_, -, -, rfl⟩ | ⟨unknown, -, absent, -, -, -, -, -, rfl⟩⟩)
  · exact .refl _
  · exact .refl _
  · refine (queued_extends (by simpa [Dict.contains] using absent) unknown).trans
      (.of_same ?_ recordOperation_occurrences)
    unfold recordOperation
    split <;> rfl

theorem materializeTask_extends (task : AutomationTask) (expectedNextRunAt : Nat)
    (executions : List (ScheduledExecution × String)) (now : Nat)
    (promised : store.Promised (.materializeTask task expectedNextRunAt executions now)) :
    (materializeTask task expectedNextRunAt executions now).Ensures store
      (fun _ after => Extends store after) (fun _ after => Extends store after) := by
  refine (materializeTask_spec task expectedNextRunAt executions now).mono ?_
    fun _ _ same => same ▸ .refl store
  rintro value after ⟨current, -, -, -, ⟨-, -, rfl⟩ | ⟨-, -, -, -, -, rfl⟩⟩
  · exact .refl _
  · obtain ⟨fresh, distinct, -⟩ := promised
    obtain ⟨keys, unseen⟩ := pendingOccurrences_keys (store.knownOccurrences task.namespace) executions
    have put : Extends store (store.putTask task) := .of_same rfl rfl
    refine put.trans (materialized_extends keys distinct fun item member => ?_)
    obtain ⟨-, sameNamespace, -, absent, -⟩ := fresh item member
    exact ⟨sameNamespace, absent, not_not.mp (mem_knownOccurrences.not.mp (unseen item member))⟩

/-- What a call adds, it adds under keys that were not known. -/
theorem next_extends (consistent : store.Consistent) (valid : store.lifecycle.Valid)
    {call : StoreCall} (promised : store.Promised call) : Extends store (store.next call) := by
  by_cases queues : call.Queues
  · cases call with
    | enqueueExecution request =>
      simpa [next, perform] using (enqueueExecution_extends request).final
    | materializeTask task expectedNextRunAt executions now =>
      simpa [next, perform] using
        (materializeTask_extends task expectedNextRunAt executions now promised).final
    | _ => exact queues.elim
  · have unoffered : ∀ execution, ¬call.Offers execution := by
      cases call <;> first | exact fun _ => id | exact absurd trivial queues
    obtain ⟨globalConcurrency, requested⟩ := requests_some call
    have refines := next_refines consistent promised requested
    have occurrences := keeps_occurrences consistent.toStored queues
    refine ⟨fun _ _ known => by rwa [occurrences], fun executionId execution found => ?_,
      fun executionId execution found absent => ?_, fun _ _ known => .inl (by rwa [occurrences] at known)⟩
    · obtain ⟨life, living, rfl⟩ := lifecycle_of_stored found
      obtain ⟨later, present, same⟩ := Lives.keeps_attempt valid refines.steps living
      exact ⟨later.execution, (lifecycle_eq_some.mp present).1, same.namespace⟩
    · obtain ⟨later, present, rfl⟩ := lifecycle_of_stored found
      obtain ⟨life, living, -⟩ := Lives.of_unoffered refines.steps unoffered present
      simp [(lifecycle_eq_some.mp living).1] at absent

/-! ## Queues -/

/-- The queued executions of a scope. -/
def queuedIn (store : MemoryAutomationStore) (scope : ScopeKey) : Set String :=
  {executionId | ∃ execution, store.executions.get? executionId = some execution ∧
    execution.status = .queued ∧ taskScope execution = scope}

/-- The count of a table is the number of executions it counts. -/
theorem queuedCount_eq (counted : AutomationExecution → Bool) :
    (store.queuedCount counted : ℕ∞) = {executionId | ∃ execution,
      store.executions.get? executionId = some execution ∧ execution.status = .queued ∧
        counted execution = true}.encard := by
  have distinct : ((store.executions.entries.filter fun entry =>
      counted entry.2 && entry.2.status == .queued).map Prod.fst).Nodup :=
    store.executions.nodup.sublist (List.filter_sublist.map _)
  have listed : {executionId | ∃ execution, store.executions.get? executionId = some execution ∧
      execution.status = .queued ∧ counted execution = true} =
        ((store.executions.entries.filter fun entry =>
          counted entry.2 && entry.2.status == .queued).map Prod.fst).toFinset := by
    ext executionId
    simp only [Set.mem_ofPred_eq, Dict.get?_eq_some_iff, List.coe_toFinset, List.mem_map,
      List.mem_filter, Bool.and_eq_true, beq_iff_eq]
    constructor
    · rintro ⟨execution, member, queued, counted⟩
      exact ⟨(executionId, execution), ⟨member, counted, queued⟩, rfl⟩
    · rintro ⟨⟨_, execution⟩, ⟨member, counted, queued⟩, rfl⟩
      exact ⟨execution, member, queued, counted⟩
  rw [listed, Set.encard_coe_eq_coe_finsetCard, List.toFinset_card_of_nodup distinct, queuedCount,
    List.length_map]

theorem queuedCount_scope (execution : AutomationExecution) :
    ((store.queuedCount fun item => sameExecutionScope item execution : ℕ) : ℕ∞) =
      (store.queuedIn (taskScope execution)).encard := by
  rw [queuedCount_eq]
  congr 1
  ext executionId
  simp [queuedIn, sameExecutionScope, taskScope, Prod.ext_iff]

theorem queuedIn_task_le («namespace» taskId : String) :
    (store.queuedIn («namespace», "task", taskId)).encard ≤
      store.queuedCount fun execution => execution.taskId == some taskId := by
  rw [queuedCount_eq]
  refine Set.encard_le_encard ?_
  rintro executionId ⟨execution, found, queued, same⟩
  refine ⟨execution, found, queued, ?_⟩
  simp only [taskScope, executionScope, Prod.mk.injEq] at same
  cases owner : execution.taskId with
  | none => simp [owner] at same
  | some taskId => simpa [owner] using same.2

theorem queuedIn_of_same {after : MemoryAutomationStore} (same : after.executions = store.executions)
    (scope : ScopeKey) : after.queuedIn scope = store.queuedIn scope := by
  simp only [queuedIn, same]

theorem recordOperation_executions {«namespace» ownerId inputDigest : String}
    {requestId : Option String} {result : OperationResult} :
    (store.recordOperation «namespace» ownerId requestId inputDigest result).executions =
      store.executions := by
  unfold recordOperation
  split <;> rfl

theorem queued_queuedIn (execution : AutomationExecution) (occurrence : String × String)
    (workItemId : String) (createdAt : Nat) (scope : ScopeKey) :
    (store.queued execution occurrence workItemId createdAt).queuedIn scope ⊆
      {executionId | executionId = execution.executionId ∧ taskScope execution = scope} ∪
        store.queuedIn scope := by
  rintro executionId ⟨stored, found, queued, same⟩
  rw [queued_executions, Dict.get?_insert] at found
  split at found
  · next equal =>
      obtain rfl := Option.some.inj found
      exact .inl ⟨equal, same⟩
  · exact .inr ⟨stored, found, queued, same⟩

theorem queued_encard_le (execution : AutomationExecution) (occurrence : String × String)
    (workItemId : String) (createdAt : Nat) (scope : ScopeKey) :
    ((store.queued execution occurrence workItemId createdAt).queuedIn scope).encard ≤
      (store.queuedIn scope).encard + if taskScope execution = scope then 1 else 0 := by
  refine (Set.encard_le_encard (queued_queuedIn ..)).trans ((Set.encard_union_le _ _).trans ?_)
  rw [add_comm]
  refine add_le_add_right ?_ _
  split
  · next same =>
      simp [same]
  · next other => simp [other]

/-- A batch joins the queue of its task. -/
theorem materialized_encard_le {items : List (ScheduledExecution × String)} {«namespace» : String}
    {now : Nat} {queue : ScopeKey} (scope : ScopeKey)
    (joined : ∀ item ∈ items, taskScope item.1.execution = queue) :
    ((items.foldl (materialized «namespace» now) store).queuedIn scope).encard ≤
      (store.queuedIn scope).encard + if queue = scope then (items.length : ℕ∞) else 0 := by
  induction items generalizing store with
  | nil => simp
  | cons item items ih =>
    have first : ((materialized «namespace» now store item).queuedIn scope).encard ≤ _ :=
      queued_encard_le item.1.execution («namespace», item.1.occurrenceKey) item.2 now scope
    rw [joined item List.mem_cons_self] at first
    refine (ih fun other member => joined other (.tail _ member)).trans ?_
    split
    · next same =>
        rw [if_pos same] at first
        rw [List.length_cons, Nat.cast_add, Nat.cast_one, add_comm (items.length : ℕ∞), ← add_assoc]
        exact add_le_add_left first _
    · next other =>
        rw [if_neg other] at first
        simpa using first

/-- No queue holds more executions than its bound. -/
def QueuesBounded (limit : ScopeKey → Nat) (store : MemoryAutomationStore) : Prop :=
  ∀ scope, (store.queuedIn scope).encard ≤ limit scope

theorem queuesBounded_opened (limit : ScopeKey → Nat) (limits : MemoryStoreLimits) :
    QueuesBounded limit (opened limits) := by
  intro scope
  simp [queuedIn, opened]

end MemoryAutomationStore

/-- A call queues under the bound of its queue. -/
def StoreCall.QueueLimit (limit : ScopeKey → Nat) : StoreCall → Prop
  | .enqueueExecution request =>
    request.execution.limits.maxQueuedRuns = limit (taskScope request.execution)
  | .materializeTask task _ _ _ =>
    task.limits.maxQueuedRuns = limit (task.namespace, "task", task.taskId)
  | _ => True

namespace MemoryAutomationStore

variable {store : MemoryAutomationStore} {limit : ScopeKey → Nat}

theorem enqueueExecution_bounded (bounded : store.QueuesBounded limit) (request : EnqueueRequest)
    (limited : request.execution.limits.maxQueuedRuns = limit (taskScope request.execution)) :
    (enqueueExecution request).Ensures store (fun _ after => after.QueuesBounded limit)
      (fun _ after => after.QueuesBounded limit) := by
  refine (enqueueExecution_spec request).mono ?_ fun _ _ same => same ▸ bounded
  rintro value after (⟨-, rfl⟩ | ⟨-, ⟨_, -, -, rfl⟩ | ⟨-, -, -, room, -, -, -, -, rfl⟩⟩) scope
  · exact bounded scope
  · exact bounded scope
  · rw [queuedIn_of_same recordOperation_executions]
    refine (queued_encard_le ..).trans ?_
    split
    · next same =>
        subst same
        rw [← queuedCount_scope, ← limited]
        exact_mod_cast room
    · simpa using bounded scope

theorem materializeTask_bounded (bounded : store.QueuesBounded limit) (task : AutomationTask)
    (expectedNextRunAt : Nat) (executions : List (ScheduledExecution × String)) (now : Nat)
    (promised : store.Promised (.materializeTask task expectedNextRunAt executions now))
    (limited : task.limits.maxQueuedRuns = limit (task.namespace, "task", task.taskId)) :
    (materializeTask task expectedNextRunAt executions now).Ensures store
      (fun _ after => after.QueuesBounded limit) (fun _ after => after.QueuesBounded limit) := by
  refine (materializeTask_spec task expectedNextRunAt executions now).mono ?_
    fun _ _ same => same ▸ bounded
  rintro value after ⟨current, -, -, -, ⟨-, -, rfl⟩ | ⟨-, room, -, -, -, rfl⟩⟩ scope
  · exact bounded scope
  · have joined : ∀ item ∈ store.unknownOccurrences task executions,
        taskScope item.1.execution = (task.namespace, "task", task.taskId) := by
      intro item member
      obtain ⟨-, sameNamespace, sameTask, -⟩ := promised.1 item member
      simp [taskScope, executionScope, sameNamespace, sameTask]
    refine (materialized_encard_le scope joined).trans ?_
    have same : (store.putTask task).executions = store.executions := rfl
    rw [queuedIn_of_same same]
    split
    · next same =>
        subst same
        refine (add_le_add_left (queuedIn_task_le task.namespace task.taskId) _).trans ?_
        rw [← limited]
        exact_mod_cast room
    · simpa using bounded scope

/-- A call under the bounds of its queue exceeds none. -/
theorem QueuesBounded.next (bounded : store.QueuesBounded limit) (consistent : store.Consistent)
    {call : StoreCall} (promised : store.Promised call) (limited : call.QueueLimit limit) :
    (store.next call).QueuesBounded limit := by
  by_cases queues : call.Queues
  · cases call with
    | enqueueExecution request =>
      simpa [MemoryAutomationStore.next, perform] using
        (enqueueExecution_bounded bounded request limited).final
    | materializeTask task expectedNextRunAt executions now =>
      simpa [MemoryAutomationStore.next, perform] using
        (materializeTask_bounded bounded task expectedNextRunAt executions now promised
          limited).final
    | _ => exact queues.elim
  · have unoffered : ∀ execution, ¬call.Offers execution := by
      cases call <;> first | exact fun _ => id | exact absurd trivial queues
    obtain ⟨globalConcurrency, requested⟩ := requests_some call
    have refines := next_refines consistent promised requested
    intro scope
    refine (Set.encard_le_encard ?_).trans (bounded scope)
    rintro executionId ⟨execution, found, queued, same⟩
    obtain ⟨later, present, rfl⟩ := lifecycle_of_stored found
    obtain ⟨life, living, attempt, waits⟩ := Lives.of_unoffered refines.steps unoffered present
    refine ⟨life.execution, (lifecycle_eq_some.mp living).1, waits queued, ?_⟩
    rw [← same]
    simp only [taskScope, attempt.namespace, attempt.executionScope]

end MemoryAutomationStore

/-! ## Runs -/

/-- A run in which every queue has a fixed bound. -/
structure QueueRun extends StoreRun where
  queueLimit : ScopeKey → Nat
  limited : ∀ call ∈ calls, call.QueueLimit queueLimit

namespace QueueRun

theorem bounded (run : QueueRun) : run.store.QueuesBounded run.queueLimit := by
  have kept : ∀ store call, StoreRun.Sound store ∧ store.QueuesBounded run.queueLimit →
      store.Promised call ∧ call.QueueLimit run.queueLimit →
        StoreRun.Sound (store.next call) ∧ (store.next call).QueuesBounded run.queueLimit :=
    fun _ _ ⟨sound, bounded⟩ ⟨promised, limited⟩ =>
      ⟨sound.next promised, bounded.next sound.consistent promised limited⟩
  exact (Machine.guarded_invariant kept (run.promised.and (Machine.guarded_of_forall run.limited _))
    ⟨StoreRun.sound_opened run.limits,
      MemoryAutomationStore.queuesBounded_opened run.queueLimit run.limits⟩).2

/-- Every known occurrence names an execution of its namespace. -/
def Named (store : MemoryAutomationStore) : Prop :=
  ∀ occurrence executionId, store.occurrences.get? occurrence = some executionId →
    ∃ execution, store.executions.get? executionId = some execution ∧
      execution.namespace = occurrence.1

theorem Named.extends {store after : MemoryAutomationStore} (named : Named store)
    (grown : MemoryAutomationStore.Extends store after) : Named after := by
  intro occurrence executionId known
  rcases grown.named _ _ known with early | found
  · obtain ⟨execution, found, same⟩ := named _ _ early
    obtain ⟨later, present, equal⟩ := grown.stays _ _ found
    exact ⟨later, present, equal.trans same⟩
  · exact found

theorem run_extends {store : MemoryAutomationStore} {calls : List StoreCall}
    (sound : StoreRun.Sound store) (promised : Machine.Guarded next Promised store calls) :
    MemoryAutomationStore.Extends store (Machine.run next store calls) := by
  induction calls generalizing store with
  | nil => exact .refl store
  | cons call calls ih =>
    exact (MemoryAutomationStore.next_extends sound.consistent sound.valid promised.1).trans
      (ih (sound.next promised.1) promised.2)

theorem named (run : StoreRun) : Named run.store := by
  have unknown : Named (opened run.limits) := by
    intro occurrence executionId known
    simp [opened] at known
  exact unknown.extends (run_extends (StoreRun.sound_opened run.limits) run.promised)

theorem known_enqueue {store : MemoryAutomationStore}
    (request : MemoryAutomationStore.EnqueueRequest) {executionId : String}
    (known : store.occurrences.get? (request.execution.namespace, request.occurrenceKey) =
      some executionId) :
    (MemoryAutomationStore.enqueueExecution request).Ensures store
      (fun value after => after = store ∧ (store.executions.get? executionId = some value ∨
        store.Replayed request.execution.namespace request.execution.ownerId request.requestId
          request.inputDigest (.execution value)))
      (fun _ after => after = store) := by
  refine (MemoryAutomationStore.enqueueExecution_spec request).mono ?_ fun _ _ same => same
  rintro value after (⟨replayed, rfl⟩ | ⟨-, ⟨existing, same, found, rfl⟩ | ⟨unknown, -⟩⟩)
  · exact ⟨rfl, .inr replayed⟩
  · obtain rfl := Option.some.inj (known.symm.trans same)
    exact ⟨rfl, .inl found⟩
  · simp [known] at unknown

/-- An enqueue of an execution of the sample's owner under a key. -/
def keyedEnqueue (executionId occurrenceKey : String) (requestId : Option String) :
    MemoryAutomationStore.EnqueueRequest where
  execution := { MemoryAutomationStore.sampleExecution with executionId }
  occurrenceKey
  requestId
  inputDigest := "digest"
  workItemId := executionId
  now := 0

/-- One execution is queued by a request under its key, and another under another key. -/
def keyedRun : QueueRun where
  limits := {}
  calls := [.enqueueExecution (keyedEnqueue "first" "one" (some "request")),
    .enqueueExecution (keyedEnqueue "second" "two" none)]
  promised := ⟨⟨⟨rfl, rfl, rfl, rfl⟩, rfl⟩, ⟨⟨rfl, rfl, rfl, rfl⟩, by decide +kernel⟩, trivial⟩
  queueLimit := fun _ => 10
  limited := by
    intro call member
    simp only [List.mem_cons, List.not_mem_nil, or_false] at member
    rcases member with rfl | rfl <;> rfl

end QueueRun

end Tinkerfin.Automation
