import Tinkerfin.Automation.Lives
import Tinkerfin.Automation.StoreSpec

/-!
# The lives a store holds

`lifecycle` reads the life of an execution off the tables of a store.  `Consistent` links the tables:
every work item is found under its key and belongs to a stored execution, and each scope has as many
allocated slots as holders.  Each change an operation makes is a change of one life.
-/

namespace Tinkerfin.Automation

open Function (update)

namespace MemoryAutomationStore

/-- The work item of an execution of one kind. -/
def workOf (store : MemoryAutomationStore) (execution : AutomationExecution) (kind : WorkKind) :
    Option WorkItem :=
  (store.workKeys.get? (execution.namespace, execution.executionId, kind)).bind store.work.get?

/-- The life of an execution. -/
def lifecycle (store : MemoryAutomationStore) : Lives := fun executionId =>
  (store.executions.get? executionId).map fun execution =>
    { execution
      work := store.workOf execution
      admitted := decide (executionId ∈ store.admitted) }

/-- The tables of a store agree. -/
structure Consistent (store : MemoryAutomationStore) : Prop extends Stored store where
  keyed : ∀ {workItemId item}, store.work.get? workItemId = some item →
    item.workItemId = workItemId ∧
      store.workKeys.get? (item.namespace, item.executionId, item.kind) = some workItemId ∧
      ∃ execution, store.executions.get? item.executionId = some execution ∧
        execution.namespace = item.namespace
  backed : ∀ {«namespace» executionId kind workItemId},
    store.workKeys.get? («namespace», executionId, kind) = some workItemId →
      ∃ item, store.work.get? workItemId = some item ∧ item.namespace = «namespace» ∧
        item.executionId = executionId ∧ item.kind = kind
  holding : ∀ executionId ∈ store.admitted, store.executions.contains executionId = true
  counted : ∀ scope, (store.allocated scope : ℕ∞) = (store.lifecycle.holders scope).encard

theorem consistent_opened (limits : MemoryStoreLimits) : (opened limits).Consistent where
  toStored := stored_opened limits
  keyed found := by simp [opened] at found
  backed found := by simp [opened] at found
  holding := by simp [opened]
  counted scope := by simp [opened, allocated, Lives.holders, lifecycle]

variable {store after : MemoryAutomationStore} {executionId : String} {life : Lifecycle}
  {kind : WorkKind} {item : WorkItem}

/-! ## Reading the life of an execution -/

theorem lifecycle_eq_some : store.lifecycle executionId = some life ↔
    store.executions.get? executionId = some life.execution ∧
      life.work = store.workOf life.execution ∧
      life.admitted = decide (executionId ∈ store.admitted) := by
  rw [lifecycle, Option.map_eq_some_iff]
  constructor
  · rintro ⟨execution, found, rfl⟩
    exact ⟨found, rfl, rfl⟩
  · rintro ⟨found, work, admitted⟩
    exact ⟨life.execution, found, by rw [← work, ← admitted]⟩

theorem lifecycle_of_stored {execution : AutomationExecution}
    (found : store.executions.get? executionId = some execution) :
    ∃ life, store.lifecycle executionId = some life ∧ life.execution = execution :=
  ⟨⟨execution, store.workOf execution, decide (executionId ∈ store.admitted)⟩,
    lifecycle_eq_some.mpr ⟨found, rfl, rfl⟩, rfl⟩

theorem lifecycle_eq_none : store.lifecycle executionId = none ↔
    store.executions.get? executionId = none := by
  rw [lifecycle, Option.map_eq_none_iff]

theorem Consistent.of_work (consistent : store.Consistent)
    (found : store.lifecycle executionId = some life) (work : life.work kind = some item) :
    store.work.get? item.workItemId = some item ∧ item.executionId = executionId ∧
      item.kind = kind ∧ item.namespace = life.execution.namespace := by
  obtain ⟨stored, same, -⟩ := lifecycle_eq_some.mp found
  rw [same, workOf, Option.bind_eq_some_iff] at work
  obtain ⟨workItemId, key, present⟩ := work
  obtain ⟨rfl, -⟩ := consistent.keyed present
  obtain ⟨backing, backed, sameNamespace, sameExecution, sameKind⟩ := consistent.backed key
  obtain rfl := Option.some.inj (present.symm.trans backed)
  exact ⟨present, sameExecution.trans (consistent.identified stored), sameKind, sameNamespace⟩

theorem Consistent.life_of_work (consistent : store.Consistent) {workItemId : String}
    (found : store.work.get? workItemId = some item) :
    ∃ life, store.lifecycle item.executionId = some life ∧ life.work item.kind = some item ∧
      life.execution.namespace = item.namespace := by
  obtain ⟨-, key, execution, owner, same⟩ := consistent.keyed found
  refine ⟨⟨execution, store.workOf execution, decide (item.executionId ∈ store.admitted)⟩,
    lifecycle_eq_some.mpr ⟨owner, rfl, rfl⟩, ?_, same⟩
  simp only [workOf, same, consistent.identified owner, key, Option.bind_some, found]

/-! ## One change of one life -/

/-- A store whose life of one execution was replaced. -/
structure Changed (store : MemoryAutomationStore) (executionId : String) (life : Lifecycle)
    (after : MemoryAutomationStore) : Prop where
  lives : after.lifecycle = update store.lifecycle executionId (some life)
  consistent : after.Consistent

theorem Changed.found (changed : store.Changed executionId life after) :
    after.lifecycle executionId = some life := by
  rw [changed.lives, Function.update_self]

theorem Changed.trans {between : MemoryAutomationStore} {later : Lifecycle}
    (first : store.Changed executionId life between)
    (second : between.Changed executionId later after) :
    store.Changed executionId later after where
  lives := by rw [second.lives, first.lives, Function.update_idem]
  consistent := second.consistent

theorem holders_update_same {lives : Lives} {scope : ScopeKey} {later : Lifecycle}
    (found : lives executionId = some life) (scopes : later.scopes = life.scopes)
    (held : later.admitted = life.admitted) :
    Lives.holders (update lives executionId (some later)) scope = lives.holders scope := by
  apply Set.Subset.antisymm
  · exact Lives.holders_update_subset found scopes fun _ taken => held ▸ taken
  · rintro other ⟨life', present, taken, member⟩
    by_cases same : other = executionId
    · subst same
      obtain rfl := Option.some.inj (found.symm.trans present)
      exact ⟨later, by simp, held.trans taken, scopes ▸ member⟩
    · exact ⟨life', by simpa [same] using present, taken, member⟩

theorem scopes_eq_of_same {execution : AutomationExecution}
    (same : SameAttempt life.execution execution) :
    Lifecycle.scopes { life with execution } = life.scopes := by
  simp only [Lifecycle.scopes, globalScope, taskScope, same.namespace, same.executionScope]

theorem Consistent.counted_of (consistent : store.Consistent)
    (found : store.lifecycle executionId = some life) {later : Lifecycle}
    (lives : after.lifecycle = update store.lifecycle executionId (some later))
    (scopes : later.scopes = life.scopes) (held : later.admitted = life.admitted)
    (allocations : after.scopeAllocations = store.scopeAllocations) (scope : ScopeKey) :
    (after.allocated scope : ℕ∞) = (after.lifecycle.holders scope).encard := by
  rw [lives, holders_update_same found scopes held, allocated, allocations]
  exact consistent.counted scope

theorem changed_putExecution (consistent : store.Consistent)
    (found : store.lifecycle executionId = some life) {execution : AutomationExecution}
    (same : SameAttempt life.execution execution) :
    store.Changed executionId { life with execution } (store.putExecution execution) := by
  obtain ⟨stored, work, admitted⟩ := lifecycle_eq_some.mp found
  have identity : execution.executionId = executionId :=
    same.executionId.trans (consistent.identified stored)
  have view : (store.putExecution execution).lifecycle =
      update store.lifecycle executionId (some { life with execution }) := by
    funext other
    by_cases equal : other = executionId
    · subst equal
      rw [Function.update_self, lifecycle_eq_some]
      refine ⟨by simp [putExecution, identity], ?_, admitted⟩
      funext kind
      simp only [work, workOf, same.namespace, same.executionId, putExecution]
    · rw [Function.update_of_ne equal]
      have kept : (putExecution store execution).executions.get? other =
          store.executions.get? other :=
        Dict.get?_insert_of_ne _ _ (by rwa [identity])
      simp only [lifecycle, kept]
      rfl
  refine ⟨view, { consistent.toStored.putExecution (.inl ?_) with
    keyed := ?_
    backed := consistent.backed
    holding := ?_
    counted := consistent.counted_of found view (scopes_eq_of_same same) rfl rfl }⟩
  · simp [Dict.contains, identity, stored]
  · intro workItemId item present
    obtain ⟨named, key, owner, sameOwner, sameNamespace⟩ := consistent.keyed present
    refine ⟨named, key, ?_⟩
    by_cases equal : item.executionId = execution.executionId
    · refine ⟨execution, by simp [putExecution, equal], ?_⟩
      rw [equal, identity, stored] at sameOwner
      rw [same.namespace, Option.some.inj sameOwner, sameNamespace]
    · exact ⟨owner, by simpa [putExecution, Dict.get?_insert, equal]
        using sameOwner, sameNamespace⟩
  · intro other member
    have present := consistent.holding other member
    simp only [putExecution, Dict.contains, Dict.get?_insert] at present ⊢
    split <;> simp_all

/-- Two work items of one identity. -/
structure SameItem (before after : WorkItem) : Prop where
  workItemId : after.workItemId = before.workItemId
  «namespace» : after.namespace = before.namespace
  executionId : after.executionId = before.executionId
  kind : after.kind = before.kind

theorem Consistent.key_unique (consistent : store.Consistent) {workItemId : String}
    (found : store.work.get? workItemId = some item) {key : String × String × WorkKind}
    (keyed : store.workKeys.get? key = some workItemId) :
    key = (item.namespace, item.executionId, item.kind) := by
  obtain ⟨«namespace», owner, kind⟩ := key
  obtain ⟨backing, backed, rfl, rfl, rfl⟩ := consistent.backed keyed
  obtain rfl := Option.some.inj (found.symm.trans backed)
  rfl

theorem changed_modifyWork (consistent : store.Consistent)
    (found : store.lifecycle executionId = some life) (work : life.work kind = some item)
    {change : WorkItem → WorkItem} (same : ∀ item, SameItem item (change item)) :
    store.Changed executionId { life with work := update life.work kind (some (change item)) }
      (store.modifyWork item.workItemId change) := by
  obtain ⟨stored, works, admitted⟩ := lifecycle_eq_some.mp found
  obtain ⟨present, rfl, rfl, sameNamespace⟩ := consistent.of_work found work
  obtain ⟨-, key, -⟩ := consistent.keyed present
  have modified : store.modifyWork item.workItemId change =
      { store with work := store.work.insert item.workItemId (change item) } := by
    simp [modifyWork, present]
  rw [modified]
  -- another key never leads to the changed item
  have workOf_eq : ∀ (execution : AutomationExecution) other,
      (execution.namespace, execution.executionId, other) ≠
        (item.namespace, item.executionId, item.kind) →
      workOf { store with work := store.work.insert item.workItemId (change item) } execution other =
        store.workOf execution other := by
    intro execution other different
    simp only [workOf]
    cases keyed : store.workKeys.get? (execution.namespace, execution.executionId, other) with
    | none => rfl
    | some workItemId =>
      refine Dict.get?_insert_of_ne _ _ fun equal => different ?_
      subst equal
      exact consistent.key_unique present keyed
  have view : lifecycle { store with work := store.work.insert item.workItemId (change item) } =
      update store.lifecycle item.executionId
        (some { life with work := update life.work item.kind (some (change item)) }) := by
    funext other
    by_cases equal : other = item.executionId
    · subst equal
      rw [Function.update_self, lifecycle_eq_some]
      refine ⟨stored, ?_, admitted⟩
      funext other
      by_cases sameKind : other = item.kind
      · subst sameKind
        simp only [Function.update_self, workOf, ← sameNamespace, consistent.identified stored, key,
          Option.bind_some, Dict.get?_insert_self]
      · dsimp only
        rw [Function.update_of_ne sameKind, works, workOf_eq _ _ (by simp [sameKind])]
    · rw [Function.update_of_ne equal]
      simp only [lifecycle]
      cases owner : store.executions.get? other with
      | none => rfl
      | some execution =>
        simp only [Option.map_some, Option.some.injEq, Lifecycle.mk.injEq, true_and, and_true]
        funext kind
        exact workOf_eq _ _ (by simp [consistent.identified owner, equal])
  have owned : Stored { store with work := store.work.insert item.workItemId (change item) } :=
    modified ▸ consistent.toStored.modifyWork fun item => (same item).executionId
  refine ⟨view, { owned with
    keyed := ?_
    backed := ?_
    holding := consistent.holding
    counted := consistent.counted_of found view rfl rfl rfl }⟩
  · intro workItemId other found
    rw [Dict.get?_insert] at found
    split at found
    · next equal =>
        obtain rfl := Option.some.inj found
        obtain ⟨-, keyed, owner⟩ := consistent.keyed present
        rw [(same item).namespace, (same item).executionId, (same item).kind, (same item).workItemId]
        exact ⟨equal.symm, equal ▸ keyed, owner⟩
    · exact consistent.keyed found
  · intro «namespace» executionId kind workItemId keyed
    obtain ⟨backing, backed, rest⟩ := consistent.backed keyed
    simp only [Dict.get?_insert]
    split
    · next equal =>
        rw [equal, present] at backed
        obtain rfl := Option.some.inj backed
        exact ⟨_, rfl, by rw [(same _).namespace, (same _).executionId, (same _).kind]; exact rest⟩
    · exact ⟨backing, backed, rest⟩

theorem changed_completeExecutionWork (consistent : store.Consistent)
    (found : store.lifecycle executionId = some life) :
    store.Changed executionId
      { life with work := fun kind => (life.work kind).map (·.released .completed) }
      (store.completeExecutionWork executionId) := by
  obtain ⟨stored, works, admitted⟩ := lifecycle_eq_some.mp found
  have completed : ∀ workItemId, (store.completeExecutionWork executionId).work.get? workItemId =
      (store.work.get? workItemId).map fun item =>
        if item.executionId = executionId then item.released .completed else item := by
    intro workItemId
    simp only [completeExecutionWork, Dict.get?_mapValues]
  have view : (store.completeExecutionWork executionId).lifecycle = update store.lifecycle executionId
      (some { life with work := fun kind => (life.work kind).map (·.released .completed) }) := by
    funext other
    by_cases equal : other = executionId
    · subst equal
      rw [Function.update_self, lifecycle_eq_some]
      refine ⟨stored, ?_, admitted⟩
      funext kind
      simp only [works, workOf, completeExecutionWork]
      cases key : store.workKeys.get?
          (life.execution.namespace, life.execution.executionId, kind) with
      | none => rfl
      | some workItemId =>
        obtain ⟨item, present, -, sameExecution, -⟩ := consistent.backed key
        have own : item.executionId = other :=
          sameExecution.trans (consistent.identified stored)
        simp [Dict.get?_mapValues, present, own]
    · rw [Function.update_of_ne equal]
      simp only [lifecycle]
      cases owner : store.executions.get? other with
      | none => simp [completeExecutionWork, owner]
      | some execution =>
        simp only [completeExecutionWork, owner, Option.map_some, Option.some.injEq,
          Lifecycle.mk.injEq, true_and]
        refine ⟨?_, rfl⟩
        funext kind
        simp only [workOf]
        cases key : store.workKeys.get? (execution.namespace, execution.executionId, kind) with
        | none => rfl
        | some workItemId =>
          obtain ⟨item, present, -, sameExecution, -⟩ := consistent.backed key
          have different : item.executionId ≠ executionId := fun same =>
            equal ((consistent.identified owner).symm.trans (sameExecution.symm.trans same))
          simp [Dict.get?_mapValues, present, different]
  refine ⟨view, { consistent.toStored.completeExecutionWork with
    keyed := ?_
    backed := ?_
    holding := consistent.holding
    counted := consistent.counted_of found view rfl rfl rfl }⟩
  · intro workItemId item present
    rw [completed, Option.map_eq_some_iff] at present
    obtain ⟨before, present, rfl⟩ := present
    have keyed := consistent.keyed present
    split <;> exact keyed
  · intro «namespace» owner kind workItemId keyed
    obtain ⟨backing, backed, rest⟩ := consistent.backed keyed
    refine ⟨_, by rw [completed, backed, Option.map_some], ?_⟩
    split <;> exact rest

/-! ## Slots -/

theorem getD_releaseScope (allocations : Dict ScopeKey Nat) (scope other : ScopeKey) :
    ((releaseScope allocations scope).get? other).getD 0 =
      (allocations.get? other).getD 0 - if other = scope then 1 else 0 := by
  unfold releaseScope
  dsimp only
  split
  · next few =>
      rw [Dict.get?_erase]
      split
      · next same => subst same; simp only [Option.getD_none]; omega
      · simp
  · rw [Dict.get?_insert]
    split
    · next same => subst same; rfl
    · simp

theorem getD_reserveScope (allocations : Dict ScopeKey Nat) (scope other : ScopeKey) :
    ((reserveScope allocations scope).get? other).getD 0 =
      (allocations.get? other).getD 0 + if other = scope then 1 else 0 := by
  rw [reserveScope, Dict.get?_insert]
  split
  · next same => subst same; rfl
  · simp

theorem globalScope_ne_taskScope («namespace» : String) (execution : AutomationExecution) :
    globalScope «namespace» ≠ taskScope execution := by
  simp only [globalScope, taskScope, executionScope]
  cases execution.taskId <;> simp

theorem sum_scopes (life : Lifecycle) (scope : ScopeKey) :
    ((if scope = globalScope life.execution.namespace then 1 else 0) +
      if scope = taskScope life.execution then 1 else 0) = if scope ∈ life.scopes then 1 else 0 := by
  have different := globalScope_ne_taskScope life.execution.namespace life.execution
  simp only [Lifecycle.scopes, List.mem_cons, List.not_mem_nil, or_false]
  by_cases first : scope = globalScope life.execution.namespace
  · subst first
    simp [different]
  · simp [first]

/-- A change of the slots alone changes one life if it counts right. -/
theorem changed_slots (consistent : store.Consistent)
    (found : store.lifecycle executionId = some life) {allocations : Dict ScopeKey Nat}
    {admitted : Finset String} {held : Bool} (own : decide (executionId ∈ admitted) = held)
    (others : ∀ other, other ≠ executionId → (other ∈ admitted ↔ other ∈ store.admitted))
    (counted : ∀ scope, (((allocations.get? scope).getD 0 : Nat) : ℕ∞) =
      (Lives.holders (update store.lifecycle executionId
        (some { life with admitted := held })) scope).encard) :
    store.Changed executionId { life with admitted := held }
      { store with scopeAllocations := allocations, admitted } := by
  obtain ⟨stored, works, -⟩ := lifecycle_eq_some.mp found
  have view : lifecycle { store with scopeAllocations := allocations, admitted } =
      update store.lifecycle executionId (some { life with admitted := held }) := by
    funext other
    by_cases equal : other = executionId
    · subst equal
      rw [Function.update_self, lifecycle_eq_some]
      exact ⟨stored, works, own.symm⟩
    · rw [Function.update_of_ne equal]
      simp only [lifecycle, others other equal]
      rfl
  refine ⟨view, { consistent.toStored with
    keyed := consistent.keyed
    backed := consistent.backed
    holding := ?_
    counted := fun scope => view ▸ counted scope }⟩
  intro other member
  by_cases equal : other = executionId
  · subst equal
    simp [Dict.contains, stored]
  · exact consistent.holding other ((others other equal).mp member)

theorem mem_holders (found : store.lifecycle executionId = some life)
    (held : life.admitted = true) {scope : ScopeKey} :
    executionId ∈ store.lifecycle.holders scope ↔ scope ∈ life.scopes := by
  constructor
  · rintro ⟨other, present, -, member⟩
    rwa [Option.some.inj (found.symm.trans present)]
  · exact fun member => ⟨life, found, held, member⟩

theorem changed_releaseScopes (consistent : store.Consistent)
    (found : store.lifecycle executionId = some life) :
    store.Changed executionId { life with admitted := false }
      (store.releaseScopes life.execution) := by
  obtain ⟨stored, works, admitted⟩ := lifecycle_eq_some.mp found
  have identity : life.execution.executionId = executionId := consistent.identified stored
  by_cases held : executionId ∈ store.admitted
  · simp only [releaseScopes, identity, held, not_true_eq_false, if_false]
    refine changed_slots consistent found (by simp) (fun other different => by simp [different]) ?_
    intro scope
    have less : ((releaseScope (releaseScope store.scopeAllocations
        (globalScope life.execution.namespace)) (taskScope life.execution)).get? scope).getD 0 =
          store.allocated scope - if scope ∈ life.scopes then 1 else 0 := by
      rw [getD_releaseScope, getD_releaseScope, ← sum_scopes life scope, Nat.sub_sub, allocated]
    have holder : executionId ∈ store.lifecycle.holders scope ↔ scope ∈ life.scopes :=
      mem_holders found (by simpa [held] using admitted)
    have removed : Lives.holders (update store.lifecycle executionId
        (some { life with admitted := false })) scope =
          store.lifecycle.holders scope \ {executionId} := by
      rw [Lives.holders_update]
      ext other
      simp [and_comm]
    rw [less, removed]
    by_cases member : scope ∈ life.scopes
    · rw [Set.encard_sdiff_singleton_of_mem (holder.mpr member), ← consistent.counted scope,
        if_pos member, ENat.natCast_sub]
      rfl
    · rw [Set.sdiff_singleton_eq_self fun inside => member (holder.mp inside), if_neg member,
        Nat.sub_zero]
      exact consistent.counted scope
  · have unchanged : store.releaseScopes life.execution = store := by
      simp [releaseScopes, identity, held]
    have free : ({ life with admitted := false } : Lifecycle) = life := by
      have : life.admitted = false := by simpa [held] using admitted
      rw [← this]
    rw [unchanged, free]
    exact ⟨(Function.update_eq_self_iff.mpr found.symm).symm, consistent⟩

theorem changed_reserved (consistent : store.Consistent)
    (found : store.lifecycle executionId = some life) :
    store.Changed executionId { life with admitted := true } (store.reserved life.execution) := by
  obtain ⟨stored, works, admitted⟩ := lifecycle_eq_some.mp found
  have identity : life.execution.executionId = executionId := consistent.identified stored
  by_cases held : executionId ∈ store.admitted
  · have taken : ({ life with admitted := true } : Lifecycle) = life := by
      have : life.admitted = true := by simpa [held] using admitted
      rw [← this]
    have unchanged : store.reserved life.execution = store := by
      simp [reserved, identity, held]
    rw [unchanged, taken]
    exact ⟨(Function.update_eq_self_iff.mpr found.symm).symm, consistent⟩
  · simp only [reserved, identity, held, if_false]
    refine changed_slots consistent found (by simp) (fun other different => by simp [different]) ?_
    intro scope
    have more : ((reserveScope (reserveScope store.scopeAllocations
        (globalScope life.execution.namespace)) (taskScope life.execution)).get? scope).getD 0 =
          store.allocated scope + if scope ∈ life.scopes then 1 else 0 := by
      rw [getD_reserveScope, getD_reserveScope, ← sum_scopes life scope, Nat.add_assoc, allocated]
    have free : executionId ∉ store.lifecycle.holders scope := by
      rintro ⟨other, present, taken, -⟩
      obtain rfl := Option.some.inj (found.symm.trans present)
      simp [admitted, held] at taken
    rw [more]
    by_cases member : scope ∈ life.scopes
    · have added : Lives.holders (update store.lifecycle executionId
          (some { life with admitted := true })) scope =
            insert executionId (store.lifecycle.holders scope) := by
        rw [Lives.holders_update]
        ext other
        have same : scope ∈ Lifecycle.scopes { life with admitted := true } := member
        by_cases equal : other = executionId <;> simp [equal, same]
      rw [added, Set.encard_insert_of_notMem free, ← consistent.counted scope, if_pos member]
      rfl
    · have same : Lives.holders (update store.lifecycle executionId
          (some { life with admitted := true })) scope = store.lifecycle.holders scope := by
        rw [Lives.holders_update]
        ext other
        have other' : scope ∉ Lifecycle.scopes { life with admitted := true } := member
        by_cases equal : other = executionId
        · subst equal
          simp [other', free]
        · simp [equal]
      rw [same, if_neg member]
      exact consistent.counted scope

/-! ## New work items -/

theorem changed_withWork (consistent : store.Consistent)
    (found : store.lifecycle executionId = some life) {availableAt createdAt : Nat}
    {workItemId : String} (fresh : life.work kind = none → store.work.get? workItemId = none)
    (room : store.HasWorkRoom (life.execution.namespace, life.execution.executionId, kind)) :
    store.Changed executionId
      { life with work := update life.work kind (some ((life.work kind).elim
        (Lifecycle.newWork life.execution kind availableAt workItemId createdAt)
        (·.rescheduled availableAt))) }
      (store.withWork life.execution kind availableAt workItemId createdAt) := by
  obtain ⟨stored, works, admitted⟩ := lifecycle_eq_some.mp found
  have identity : life.execution.executionId = executionId := consistent.identified stored
  cases work : life.work kind with
  | some item =>
    obtain ⟨present, sameExecution, sameKind, sameNamespace⟩ := consistent.of_work found work
    have key := (consistent.keyed present).2.1
    rw [sameExecution, sameKind, sameNamespace] at key
    simp only [withWork, identity, key, Option.elim_some]
    have same : ∀ item : WorkItem, SameItem item (item.rescheduled availableAt) :=
      fun _ => ⟨rfl, rfl, rfl, rfl⟩
    exact changed_modifyWork consistent found work same
  | none =>
    have absent := fresh work
    have unkeyed : store.workKeys.get?
        (life.execution.namespace, life.execution.executionId, kind) = none := by
      cases key : store.workKeys.get?
          (life.execution.namespace, life.execution.executionId, kind) with
      | none => rfl
      | some workItemId =>
        obtain ⟨item, present, -⟩ := consistent.backed key
        simp [works, workOf, key, present] at work
    have owned : (store.withWork life.execution kind availableAt workItemId createdAt).Stored :=
      consistent.toStored.withWork (by simp [Dict.contains, identity, stored]) room
    simp only [withWork, unkeyed, Option.elim_none] at owned ⊢
    have kept : ∀ (execution : AutomationExecution) other,
        (execution.namespace, execution.executionId, other) ≠
          (life.execution.namespace, life.execution.executionId, kind) →
        workOf { store with
          work := store.work.insert workItemId
            (Lifecycle.newWork life.execution kind availableAt workItemId createdAt)
          workKeys := store.workKeys.insert
            (life.execution.namespace, life.execution.executionId, kind) workItemId }
          execution other = store.workOf execution other := by
      intro execution other different
      simp only [workOf, Dict.get?_insert_of_ne _ _ different]
      cases keyed : store.workKeys.get? (execution.namespace, execution.executionId, other) with
      | none => rfl
      | some existing =>
        obtain ⟨item, present, -⟩ := consistent.backed keyed
        refine Dict.get?_insert_of_ne _ _ fun equal => ?_
        rw [equal, absent] at present
        cases present
    have view : lifecycle { store with
          work := store.work.insert workItemId
            (Lifecycle.newWork life.execution kind availableAt workItemId createdAt)
          workKeys := store.workKeys.insert
            (life.execution.namespace, life.execution.executionId, kind) workItemId } =
        update store.lifecycle executionId (some { life with
          work := update life.work kind (some
            (Lifecycle.newWork life.execution kind availableAt workItemId createdAt)) }) := by
      funext other
      by_cases equal : other = executionId
      · subst equal
        rw [Function.update_self, lifecycle_eq_some]
        refine ⟨stored, ?_, admitted⟩
        funext other
        by_cases sameKind : other = kind
        · subst sameKind
          simp [workOf]
        · dsimp only
          rw [Function.update_of_ne sameKind, works, kept _ _ (by simp [sameKind])]
      · rw [Function.update_of_ne equal]
        simp only [lifecycle]
        cases owner : store.executions.get? other with
        | none => rfl
        | some execution =>
          simp only [Option.map_some, Option.some.injEq, Lifecycle.mk.injEq, true_and, and_true]
          funext kind
          exact kept _ _ (by simp [consistent.identified owner, identity, equal])
    refine ⟨view, { owned with
      keyed := ?_
      backed := ?_
      holding := consistent.holding
      counted := consistent.counted_of found view rfl rfl rfl }⟩
    · intro other item present
      simp only [Dict.get?_insert] at present ⊢
      split at present
      · next same =>
          subst same
          obtain rfl := Option.some.inj present
          exact ⟨rfl, by simp, life.execution, by simpa [identity] using stored, rfl⟩
      · obtain ⟨named, key, owner⟩ := consistent.keyed present
        refine ⟨named, ?_, owner⟩
        rw [if_neg, key]
        intro same
        rw [same, unkeyed] at key
        cases key
    · intro «namespace» owner other existing key
      simp only [Dict.get?_insert] at key ⊢
      split at key
      · next same =>
          obtain rfl := Option.some.inj key
          obtain ⟨rfl, rfl, rfl⟩ : «namespace» = life.execution.namespace ∧
              owner = life.execution.executionId ∧ other = kind := by simpa using same
          exact ⟨Lifecycle.newWork life.execution other availableAt workItemId createdAt,
            by simp [Lifecycle.newWork], rfl, rfl, rfl⟩
      · obtain ⟨item, present, rest⟩ := consistent.backed key
        refine ⟨item, ?_, rest⟩
        rw [if_neg, present]
        intro same
        rw [same, absent] at present
        cases present

/-! ## Transitions -/

theorem completed_eq_none {which : CompleteWork} {current other : WorkKind} :
    Lifecycle.completed life.work which current other = none ↔ life.work other = none := by
  cases which with
  | none => rfl
  | all => simp [Lifecycle.completed]
  | current =>
    by_cases equal : other = current
    · subst equal
      simp [Lifecycle.completed]
    · simp [Lifecycle.completed, equal]

theorem changed_completeWork (consistent : store.Consistent)
    (found : store.lifecycle executionId = some life) {which : CompleteWork} {current : WorkKind}
    {chosen : Option String} (given : which = .current →
      ∃ own, life.work current = some own ∧ chosen = some own.workItemId) :
    store.Changed executionId { life with work := Lifecycle.completed life.work which current }
      (store.completeWork which executionId chosen) := by
  cases which with
  | none => exact ⟨(Function.update_eq_self_iff.mpr found.symm).symm, consistent⟩
  | all => exact changed_completeExecutionWork consistent found
  | current =>
    obtain ⟨own, work, rfl⟩ := given rfl
    have same : ∀ item : WorkItem, SameItem item (item.released .completed) :=
      fun _ => ⟨rfl, rfl, rfl, rfl⟩
    have changed := changed_modifyWork consistent found work same
    simp only [Lifecycle.completed, work, Option.map_some]
    exact changed

/-- Settling an execution creates no work item. -/
theorem settled_absent {transition : ExecutionTransition} {chosen : Option String}
    {workItemId : String} (absent : store.work.get? workItemId = none) :
    (store.settled transition chosen).work.get? workItemId = none := by
  have done : ((store.putExecution transition.execution).completeWork transition.completeWork
      transition.execution.executionId chosen).work.get? workItemId = none := by
    unfold completeWork
    split
    · exact absent
    · exact absent
    · unfold modifyWork
      split
      · exact absent
      · next item present =>
          refine (Dict.get?_insert_of_ne _ _ fun equal => ?_).trans absent
          subst equal
          simp [putExecution, absent] at present
    · simp [completeExecutionWork, Dict.get?_mapValues, putExecution, absent]
  unfold settled
  split
  · rwa [releaseScopes_work]
  · exact done

/-- A committed transition is the transition of one life. -/
theorem changed_transitioned (consistent : store.Consistent)
    (found : store.lifecycle executionId = some life) {transition : ExecutionTransition}
    (same : SameAttempt life.execution transition.execution) {current : WorkKind}
    {chosen : Option String} {workItemId : String} {createdAt : Nat}
    (given : transition.completeWork = .current →
      ∃ own, life.work current = some own ∧ chosen = some own.workItemId)
    (fresh : transition.deadlineWorkAt.isSome = true → life.work .expireInterrupt = none →
      store.work.get? workItemId = none)
    (room : transition.deadlineWorkAt.isSome = true → store.HasWorkRoom
      (transition.execution.namespace, transition.execution.executionId, .expireInterrupt)) :
    store.Changed executionId (life.applied transition current workItemId createdAt)
      (store.transitioned transition chosen workItemId createdAt) := by
  have identity : transition.execution.executionId = executionId :=
    same.executionId.trans (consistent.identified (lifecycle_eq_some.mp found).1)
  have put := changed_putExecution consistent found same
  have done := put.trans (changed_completeWork put.consistent put.found given)
  have settled : store.Changed executionId
      { execution := transition.execution
        work := Lifecycle.completed life.work transition.completeWork current
        admitted := life.admitted && !transition.releaseCapacity }
      (store.settled transition chosen) := by
    unfold MemoryAutomationStore.settled
    rw [identity]
    cases released : transition.releaseCapacity with
    | false => simpa using done
    | true => simpa using done.trans (changed_releaseScopes done.consistent done.found)
  unfold MemoryAutomationStore.transitioned
  cases scheduled : transition.deadlineWorkAt with
  | none => simpa only [Lifecycle.applied, Lifecycle.scheduled, scheduled] using settled
  | some deadline =>
    simp only [scheduled, Option.isSome_some, true_implies] at fresh room
    have checked : (store.settled transition chosen).Changed executionId _
        ((store.settled transition chosen).withWork transition.execution .expireInterrupt deadline
          workItemId createdAt) :=
      changed_withWork settled.consistent settled.found
        (fun absent => settled_absent (fresh (completed_eq_none.mp absent)))
        (settled_hasWorkRoom.mpr room)
    simpa only [Lifecycle.applied, Lifecycle.scheduled, scheduled] using settled.trans checked

/-- The life of a newly queued execution. -/
def queuedLife (execution : AutomationExecution) (workItemId : String) (createdAt : Nat) :
    Lifecycle where
  execution
  work := update (fun _ => none) .execute
    (some (Lifecycle.newWork execution .execute execution.queuedAt workItemId createdAt))
  admitted := false

theorem changed_queued (consistent : store.Consistent) {execution : AutomationExecution}
    {occurrence : String × String} {workItemId : String} {createdAt : Nat}
    (newExecution : store.executions.get? execution.executionId = none)
    (newItem : store.work.get? workItemId = none)
    (executionRoom : store.executions.size < store.limits.maxExecutions)
    (workRoom : store.work.size < store.limits.maxWorkItems) :
    store.Changed execution.executionId (queuedLife execution workItemId createdAt)
      (store.queued execution occurrence workItemId createdAt) := by
  have unkeyed : ∀ kind, store.workKeys.get?
      (execution.namespace, execution.executionId, kind) = none := by
    intro kind
    cases key : store.workKeys.get? (execution.namespace, execution.executionId, kind) with
    | none => rfl
    | some workItemId =>
      obtain ⟨item, present, -, sameExecution, -⟩ := consistent.backed key
      obtain ⟨-, -, owner, stored, -⟩ := consistent.keyed present
      rw [sameExecution, newExecution] at stored
      cases stored
  have free : execution.executionId ∉ store.admitted := by
    intro member
    simpa [Dict.contains, newExecution] using consistent.holding _ member
  let noted : MemoryAutomationStore := { store.putExecution execution with
    occurrences := store.occurrences.insert occurrence execution.executionId }
  have view : noted.lifecycle = update store.lifecycle execution.executionId
      (some { execution, work := fun _ => none, admitted := false }) := by
    funext other
    by_cases equal : other = execution.executionId
    · subst equal
      rw [Function.update_self, lifecycle_eq_some]
      refine ⟨by simp [noted, putExecution], ?_, by simp [noted, putExecution, free]⟩
      funext kind
      simp [noted, putExecution, workOf, unkeyed]
    · rw [Function.update_of_ne equal]
      have kept : noted.executions.get? other = store.executions.get? other :=
        Dict.get?_insert_of_ne _ _ equal
      simp only [lifecycle, kept]
      rfl
  have other_owner : ∀ {owner : String} {found : AutomationExecution},
      store.executions.get? owner = some found → noted.executions.get? owner = some found := by
    intro owner found stored
    refine (Dict.get?_insert_of_ne _ _ fun equal => ?_).trans stored
    rw [equal, newExecution] at stored
    cases stored
  have consistentNoted : noted.Consistent :=
    { consistent.toStored.putExecution (.inr executionRoom) with
      keyed := fun present => by
        obtain ⟨named, key, owner, stored, same⟩ := consistent.keyed present
        exact ⟨named, key, owner, other_owner stored, same⟩
      backed := consistent.backed
      holding := fun other member => by
        obtain ⟨found, stored⟩ := Option.isSome_iff_exists.mp (consistent.holding other member)
        simp [Dict.contains, other_owner stored]
      counted := fun scope => by
        have same : noted.lifecycle.holders scope = store.lifecycle.holders scope := by
          rw [view, Lives.holders_update]
          ext other
          constructor
          · rintro (⟨-, member⟩ | ⟨-, held, -⟩)
            · exact member
            · cases held
          · intro member
            refine .inl ⟨?_, member⟩
            rintro rfl
            obtain ⟨life, found, -⟩ := member
            rw [lifecycle_eq_none.mpr newExecution] at found
            cases found
        rw [same]
        exact consistent.counted scope }
  have begun : store.Changed execution.executionId
      { execution, work := fun _ => none, admitted := false } noted := ⟨view, consistentNoted⟩
  exact begun.trans (changed_withWork begun.consistent begun.found (fun _ => newItem)
    (.inr workRoom))

end MemoryAutomationStore

end Tinkerfin.Automation
