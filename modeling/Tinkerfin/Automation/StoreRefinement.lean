import Tinkerfin.Automation.StoreAtomicity
import Tinkerfin.Automation.StoreLives

/-!
# Every call moves lives on

A call of the store, whatever its outcome, is a sequence of steps of the lives it holds: the tables
still agree, the executions it queued were offered to it, and what it did to an execution is what its
operation may do.  `Promised` is what a caller owes: offered executions are unstarted and new, and
identifiers drawn at random are fresh.
-/

namespace Tinkerfin.Automation

open Function (update)
open Relation (ReflTransGen)

/-! ## What a call may do -/

/-- Executions that a call may queue. -/
def StoreCall.Offers : StoreCall → AutomationExecution → Prop
  | .enqueueExecution request, execution => execution = request.execution
  | .materializeTask _ _ executions _, execution =>
    ∃ item ∈ executions, execution = item.1.execution
  | _, _ => False

/-- Actions of a call on an execution. -/
def StoreCall.Performs : StoreCall → LifecycleAction → String → Prop
  | .claimWork _, action, _ =>
    action = .recover ∨ action = .skip ∨ action = .claim ∨ action = .renew
  | .renewClaim claim _ _ _, action, executionId =>
    action = .renew ∧ executionId = claim.executionId
  | .authorizeStart claim _ _ _ _, action, executionId =>
    action = .start ∧ executionId = claim.executionId
  | .markInterrupted claim _ _ _ _, action, executionId =>
    action = .interrupt ∧ executionId = claim.executionId
  | .finishExecution claim _ _ _, action, executionId =>
    action = .finish ∧ executionId = claim.executionId
  | .cancelExecution command _, action, executionId =>
    action = .cancel ∧ executionId = command.executionId
  | .resolveExecution command _ _ _, action, executionId =>
    action = .resolve ∧ executionId = command.executionId
  | .deleteTask _ _ _ _ _ _ _, action, _ => action = .cancel
  | _, _, _ => False

/-- What a call may do when each namespace has so many slots. -/
def StoreCall.permit (call : StoreCall) (globalConcurrency : String → Int) : Permit where
  globalConcurrency := fun «namespace» => ((globalConcurrency «namespace»).toNat : ℕ∞)
  offered := call.Offers
  performed := call.Performs

/-- A request for work names the slots of its namespace. -/
def StoreCall.Requests (globalConcurrency : String → Int) : StoreCall → Prop
  | .claimWork request => request.globalConcurrency = globalConcurrency request.namespace
  | _ => True

/-- A queued execution that nothing happened to. -/
structure AutomationExecution.Unstarted (execution : AutomationExecution) : Prop where
  queued : execution.status = .queued
  unauthorized : execution.startAuthorizedAt = none
  noDeadline : execution.executionDeadline = none
  canonical : execution.canonical = true

namespace MemoryAutomationStore

/-- What a caller owes the store. -/
def Promised (store : MemoryAutomationStore) : StoreCall → Prop
  | .enqueueExecution request =>
    request.execution.Unstarted ∧ store.work.get? request.workItemId = none
  | .materializeTask task _ executions _ =>
    (∀ item ∈ store.unknownOccurrences task executions, item.1.execution.Unstarted ∧
      item.1.execution.namespace = task.namespace ∧
      item.1.execution.taskId = some task.taskId ∧
      store.executions.get? item.1.execution.executionId = none ∧
      store.work.get? item.2 = none) ∧
    ((store.unknownOccurrences task executions).map (·.1.execution.executionId)).Nodup ∧
    ((store.unknownOccurrences task executions).map (·.2)).Nodup
  | .markInterrupted _ _ _ _ workItemId => store.work.get? workItemId = none
  | _ => True

/-- The tables still agree, and the lives moved on by permitted steps. -/
structure Refines (permit : Permit) (store after : MemoryAutomationStore) : Prop where
  consistent : after.Consistent
  steps : LivesSteps permit store.lifecycle after.lifecycle

variable {store between after : MemoryAutomationStore} {permit : Permit} {executionId : String}
  {life later : Lifecycle} {action : LifecycleAction}

theorem Refines.refl (consistent : store.Consistent) : Refines permit store store :=
  ⟨consistent, .refl⟩

theorem Refines.trans (first : Refines permit store between)
    (second : Refines permit between after) : Refines permit store after :=
  ⟨second.consistent, first.steps.trans second.steps⟩

theorem Changed.refines (changed : store.Changed executionId later after)
    (found : store.lifecycle executionId = some life) (step : LifecycleStep action life later)
    (performed : permit.performed action executionId)
    (room : life.admitted = false → later.admitted = true →
      store.lifecycle.HasRoom permit.globalConcurrency life.execution) :
    Refines permit store after :=
  ⟨changed.consistent, changed.lives ▸ .single (.moved executionId action life later found step
    performed room)⟩

/-- Two stores that hold the same executions, work items and slots. -/
structure SameTables (before after : MemoryAutomationStore) : Prop where
  executions : after.executions = before.executions
  work : after.work = before.work
  workKeys : after.workKeys = before.workKeys
  scopeAllocations : after.scopeAllocations = before.scopeAllocations
  admitted : after.admitted = before.admitted

theorem SameTables.lifecycle (same : SameTables store after) : after.lifecycle = store.lifecycle := by
  funext executionId
  simp only [MemoryAutomationStore.lifecycle, same.executions, same.admitted]
  congr 1
  funext execution
  simp only [Lifecycle.mk.injEq, true_and, and_true]
  funext kind
  simp only [workOf, same.workKeys, same.work]

theorem SameTables.consistent (same : SameTables store after) (stored : after.Stored)
    (consistent : store.Consistent) : after.Consistent :=
  { stored with
    keyed := fun found => by
      rw [same.work] at found
      rw [same.workKeys, same.executions]
      exact consistent.keyed found
    backed := fun found => by
      rw [same.workKeys] at found
      rw [same.work]
      exact consistent.backed found
    holding := fun executionId member => by
      rw [same.admitted] at member
      rw [same.executions]
      exact consistent.holding executionId member
    counted := fun scope => by
      rw [same.lifecycle, allocated, same.scopeAllocations]
      exact consistent.counted scope }

theorem SameTables.refines (same : SameTables store after) (stored : after.Stored)
    (consistent : store.Consistent) : Refines permit store after :=
  ⟨same.consistent stored consistent, same.lifecycle ▸ .refl⟩

theorem recordOperation_sameTables {«namespace» ownerId inputDigest : String}
    {requestId : Option String} {result : OperationResult} :
    SameTables store (store.recordOperation «namespace» ownerId requestId inputDigest result) := by
  unfold recordOperation
  split <;> exact ⟨rfl, rfl, rfl, rfl, rfl⟩

/-! ## Recovery and offers -/

/-- Recovery of an expired lease moves one life on. -/
theorem claimRecovered_refines (consistent : store.Consistent) {«namespace» : String} {now : Nat}
    (workItemId : String) (performed : ∀ executionId, permit.performed .recover executionId) :
    Refines permit store (claimRecovered «namespace» now store workItemId) := by
  unfold claimRecovered
  split
  · exact .refl consistent
  · next item found =>
      split
      · next expired =>
          split
          · exact .refl consistent
          · next execution owner =>
              obtain ⟨life, living, work, -⟩ := consistent.life_of_work found
              obtain ⟨stored, -⟩ := lifecycle_eq_some.mp living
              obtain rfl := Option.some.inj (stored.symm.trans owner)
              have claimed : item.status = .claimed := by
                simp only [leaseExpired, Bool.and_eq_true, beq_iff_eq] at expired
                exact expired.1.2
              have put := changed_putExecution consistent living
                (recoverExpiredClaim_sameAttempt life.execution item.kind now)
              have same : ∀ status (item : WorkItem), SameItem item (item.released status) :=
                fun _ _ => ⟨rfl, rfl, rfl, rfl⟩
              have changed := put.trans (changed_modifyWork put.consistent put.found work (same (if
                (recoverExpiredClaim life.execution item.kind now).completeWork = .none then .pending
                else .completed)))
              rw [(consistent.keyed found).1] at changed
              have recovered : store.Changed item.executionId (life.recovered item.kind now)
                  ((store.putExecution (recoverExpiredClaim life.execution item.kind
                    now).execution).modifyWork workItemId (·.released (if (recoverExpiredClaim
                      life.execution item.kind now).completeWork = .none then .pending
                        else .completed))) := by
                simpa only [Lifecycle.recovered, work, Option.map_some] using changed
              refine recovered.refines living (.recovered item.kind item work claimed now)
                (performed _) fun free held => ?_
              simp [Lifecycle.recovered, free] at held
      · exact .refl consistent

theorem recoveries_refine (consistent : store.Consistent) {«namespace» : String} {now : Nat}
    (workItemIds : List String)
    (performed : ∀ executionId, permit.performed .recover executionId) :
    Refines permit store (workItemIds.foldl (claimRecovered «namespace» now) store) := by
  induction workItemIds generalizing store with
  | nil => exact .refl consistent
  | cons workItemId workItemIds ih =>
    have first : Refines permit store (claimRecovered «namespace» now store workItemId) :=
      claimRecovered_refines consistent workItemId performed
    exact first.trans (ih first.consistent)

theorem claimsRecovered_refines (consistent : store.Consistent) («namespace» : String) (now : Nat)
    (performed : ∀ executionId, permit.performed .recover executionId) :
    Refines permit store (store.claimsRecovered «namespace» now) :=
  recoveries_refine consistent store.work.keys performed

/-- A claim was granted on the way from some lives to others. -/
def Grants (permit : Permit) (before after : Lives) (now : Nat) (claim : WorkItemClaim) : Prop :=
  ∃ lives life item workerId, LivesSteps permit before lives ∧
    lives claim.executionId = some life ∧ life.work claim.kind = some item ∧
    item.workItemId = claim.workItemId ∧ item.status = .pending ∧
    claimCandidate life.execution claim.kind now = none ∧ claim.fence = item.fence + 1 ∧
    LivesSteps permit (update lives claim.executionId
      (some (life.granted claim.kind (item.claimedBy workerId claim.claimToken)))) after

theorem Grants.of_later {before middle after : Lives} {now : Nat} {claim : WorkItemClaim}
    (steps : LivesSteps permit before middle) (grants : Grants permit middle after now claim) :
    Grants permit before after now claim := by
  obtain ⟨lives, life, item, workerId, start, rest⟩ := grants
  exact ⟨lives, life, item, workerId, steps.trans start, rest⟩

theorem Grants.mono {wider : Permit} {before after : Lives} {now : Nat} {claim : WorkItemClaim}
    (grants : Grants permit before after now claim) (le : permit.Le wider) :
    Grants wider before after now claim := by
  obtain ⟨lives, life, item, workerId, start, found, work, same, pending, claimable, fence, rest⟩ :=
    grants
  exact ⟨lives, life, item, workerId, start.mono le, found, work, same, pending, claimable, fence,
    rest.mono le⟩

/-- An item that waits to be offered. -/
def Offerable (store : MemoryAutomationStore) («namespace» workItemId : String) : Prop :=
  ∃ item, store.work.get? workItemId = some item ∧ item.status = .pending ∧
    item.namespace = «namespace»

/-- An offer changes the offered item only. -/
theorem offer_frame (request : WorkRequest) (store : MemoryAutomationStore) {workItemId other : String}
    (different : other ≠ workItemId) :
    (offer request store workItemId).1.work.get? other = store.work.get? other := by
  rcases offer_cases request store workItemId with same | ⟨item, execution, found, owner,
    ⟨transition, decided, same⟩ | ⟨-, ⟨-, -, same⟩ | ⟨-, same⟩⟩⟩ <;> rw [same]
  · have current : transition.completeWork = .current ∧ transition.deadlineWorkAt = none := by
      rcases claimCandidate_eq_some decided with ⟨rfl, -⟩ | ⟨rfl, -⟩ <;> exact ⟨rfl, rfl⟩
    have done : ((store.putExecution transition.execution).modifyWork workItemId
        (·.released .completed)).work.get? other = store.work.get? other :=
      modifyWork_of_ne different
    simp only [transitioned, current.2, settled, completeWork, current.1]
    split
    · rw [releaseScopes_work]
      exact done
    · exact done
  · unfold reserved
    split <;> rfl

theorem Offerable.kept (request : WorkRequest) {«namespace» workItemId other : String}
    (offerable : store.Offerable «namespace» other) (different : other ≠ workItemId) :
    (offer request store workItemId).1.Offerable «namespace» other := by
  obtain ⟨item, found, rest⟩ := offerable
  exact ⟨item, (offer_frame request store different).trans found, rest⟩

theorem Offerable.modifyWork {«namespace» workItemId other : String}
    {change : WorkItem → WorkItem} (offerable : store.Offerable «namespace» other)
    (different : other ≠ workItemId) :
    (store.modifyWork workItemId change).Offerable «namespace» other := by
  obtain ⟨item, found, rest⟩ := offerable
  exact ⟨item, (modifyWork_of_ne different).trans found, rest⟩

theorem Consistent.hasRoom (consistent : store.Consistent) {globalConcurrency : String → Int}
    {execution : AutomationExecution}
    (room : store.CanReserve execution (globalConcurrency execution.namespace))
    (free : execution.executionId ∉ store.admitted) :
    store.lifecycle.HasRoom (fun «namespace» => ((globalConcurrency «namespace»).toNat : ℕ∞))
      execution := by
  rcases room with held | ⟨inNamespace, inScope⟩
  · exact absurd held free
  · constructor
    · rw [← consistent.counted, Nat.cast_lt]
      omega
    · rw [← consistent.counted, Nat.cast_lt]
      exact inScope

/-- An offer that grants nothing moves at most one life on. -/
theorem offer_passes (consistent : store.Consistent) {request : WorkRequest} {workItemId : String}
    (performed : ∀ executionId, permit.performed .skip executionId)
    (offerable : store.Offerable request.namespace workItemId)
    (passed : (offer request store workItemId).2 = none) :
    Refines permit store (offer request store workItemId).1 := by
  obtain ⟨offered, waiting, pending, -⟩ := offerable
  rcases offer_cases request store workItemId with same | ⟨item, execution, found, owner,
    ⟨transition, decided, same⟩ | ⟨-, ⟨-, -, same⟩ | ⟨-, same⟩⟩⟩
  · rw [same]
    exact .refl consistent
  · rw [same]
    obtain ⟨life, living, work, -⟩ := consistent.life_of_work found
    obtain ⟨stored, -⟩ := lifecycle_eq_some.mp living
    obtain rfl := Option.some.inj (stored.symm.trans owner)
    obtain rfl := Option.some.inj (waiting.symm.trans found)
    have unscheduled := claimCandidate_unscheduled decided
    have changed : store.Changed offered.executionId
        (life.applied transition offered.kind "" request.now)
        (store.transitioned transition (some workItemId) "" request.now) :=
      changed_transitioned consistent living (claimCandidate_sameAttempt decided)
        (fun _ => ⟨offered, work, by rw [(consistent.keyed found).1]⟩)
        (by simp [unscheduled]) (by simp [unscheduled])
    refine changed.refines living (.skipped offered.kind offered work pending request.now transition
      decided "") (performed _) fun free held => ?_
    simp [Lifecycle.applied, free] at held
  · rw [same] at passed
    cases passed
  · rw [same] at passed
    cases passed

/-- An offer that grants an item leaves its life with the slots it needs. -/
theorem offer_grants (consistent : store.Consistent) {request : WorkRequest}
    {workItemId : String} {globalConcurrency : String → Int}
    (requested : request.globalConcurrency = globalConcurrency request.namespace)
    (offerable : store.Offerable request.namespace workItemId) {item : WorkItem}
    (granted : (offer request store workItemId).2 = some item) :
    ∃ life, store.lifecycle item.executionId = some life ∧ life.work item.kind = some item ∧
      item.workItemId = workItemId ∧ item.status = .pending ∧
      claimCandidate life.execution item.kind request.now = none ∧
      (life.admitted = false → item.kind = .execute →
        store.lifecycle.HasRoom (fun «namespace» => ((globalConcurrency «namespace»).toNat : ℕ∞))
          life.execution) ∧
      ∀ change : WorkItem → WorkItem, (∀ item, SameItem item (change item)) →
        store.Changed item.executionId (life.granted item.kind (change item))
          ((offer request store workItemId).1.modifyWork workItemId change) := by
  obtain ⟨offered, waiting, pending, sameNamespace⟩ := offerable
  rcases offer_cases request store workItemId with same | ⟨found, execution, present, owner,
    ⟨transition, decided, same⟩ | ⟨claimable, ⟨execute, room, same⟩ | ⟨other, same⟩⟩⟩
  · simp [same] at granted
  · simp [same] at granted
  all_goals
    obtain rfl : found = item := by simpa [same] using granted
    obtain rfl := Option.some.inj (waiting.symm.trans present)
    obtain ⟨life, living, work, ownNamespace⟩ := consistent.life_of_work present
    obtain ⟨stored, works, admitted⟩ := lifecycle_eq_some.mp living
    obtain rfl := Option.some.inj (stored.symm.trans owner)
    have named := (consistent.keyed present).1
    refine ⟨life, living, work, named, pending, claimable, ?_, fun change keeps => ?_⟩
  · intro free _
    refine consistent.hasRoom ?_ ?_
    · rwa [ownNamespace, sameNamespace, ← requested]
    · rw [consistent.identified stored]
      simpa [admitted] using free
  · have taken := changed_reserved consistent living
    have changed := taken.trans (changed_modifyWork taken.consistent taken.found work keeps)
    rw [named] at changed
    rw [same]
    simpa only [Lifecycle.granted, execute, beq_self_eq_true, Bool.or_true] using changed
  · exact fun _ execute => absurd execute other
  · have changed := changed_modifyWork consistent living work keeps
    rw [named] at changed
    have kept : (offered.kind == .execute) = false := by simpa using other
    rw [same]
    simpa only [Lifecycle.granted, kept, Bool.or_false] using changed

/-- What a loop of offers leaves: permitted steps, with every returned claim granted on the way. -/
theorem claimItems_refines (permit : Permit) (consistent : store.Consistent)
    {request : WorkRequest}
    {globalConcurrency : String → Int}
    (requested : request.globalConcurrency = globalConcurrency request.namespace)
    (slots : permit.globalConcurrency = fun «namespace» =>
      ((globalConcurrency «namespace»).toNat : ℕ∞))
    (performed : ∀ action executionId, action = .recover ∨ action = .skip ∨ action = .claim ∨
      action = .renew → permit.performed action executionId)
    (claims : List WorkItemClaim) {workItemIds : List String} (distinct : workItemIds.Nodup)
    (offerable : ∀ workItemId ∈ workItemIds, store.Offerable request.namespace workItemId) :
    (claimItems request claims workItemIds).Ensures store
      (fun value after => Refines permit store after ∧ ∃ granted, value = claims ++ granted ∧
        (granted.map (·.workItemId)).Sublist workItemIds ∧
        ∀ claim ∈ granted, Grants permit store.lifecycle after.lifecycle request.now claim)
      (fun _ after => Refines permit store after) := by
  induction workItemIds generalizing store claims with
  | nil => exact ⟨.refl consistent, [], by simp, by simp, by simp⟩
  | cons workItemId rest ih =>
    obtain ⟨fresh, distinct⟩ := List.nodup_cons.mp distinct
    simp only [claimItems, EStateM.ensures_bind, EStateM.ensures_ite, EStateM.ensures_pure]
    refine ⟨fun _ => ⟨.refl consistent, [], by simp, by simp, by simp⟩, fun _ =>
      (ensures_claimItem consistent.toStored).mpr ?_⟩
    have waits := offerable workItemId List.mem_cons_self
    have others : ∀ other ∈ rest, store.Offerable request.namespace other ∧ other ≠ workItemId :=
      fun other member => ⟨offerable other (.tail _ member), fun same => fresh (same ▸ member)⟩
    split
    · next next decided =>
        have passed : Refines permit store next := by
          have := offer_passes consistent (fun _ => performed _ _ (.inr (.inl rfl))) waits
            (by rw [decided])
          rwa [decided] at this
        have left : ∀ other ∈ rest, next.Offerable request.namespace other := fun other member => by
          have := (others other member).1.kept request (others other member).2
          rwa [decided] at this
        refine (ih passed.consistent claims distinct left).mono ?_ ?_
        · rintro value after ⟨refines, granted, rfl, sublist, grants⟩
          exact ⟨passed.trans refines, granted, rfl, sublist.cons _, fun claim member =>
            (grants claim member).of_later passed.steps⟩
        · exact fun _ after refines => passed.trans refines
    · next next item decided =>
        obtain ⟨life, living, work, named, pending, claimable, room, changes⟩ :=
          offer_grants consistent requested waits (by rw [decided])
        rw [decided] at changes
        let token := request.claimToken claims.length
        let owned := item.claimedBy request.workerId token
        have claimStep : LivesStep permit store.lifecycle (update store.lifecycle item.executionId
            (some (life.granted item.kind owned))) := by
          refine .moved item.executionId .claim life _ living (.claimed item.kind item work pending
            request.now claimable request.workerId token) (performed _ _ (.inr (.inr (.inl rfl)))) ?_
          intro free held
          rw [slots]
          exact room free (by simpa [free] using held)
        have keepsOwner : ∀ item : WorkItem, SameItem item (item.claimedBy request.workerId token) :=
          fun _ => ⟨rfl, rfl, rfl, rfl⟩
        dsimp only
        split
        · next leaseUntil fits =>
            have keeps : ∀ item : WorkItem, SameItem item
                ((item.claimedBy request.workerId token).leased leaseUntil) :=
              fun _ => ⟨rfl, rfl, rfl, rfl⟩
            have changed := changes _ keeps
            have renewStep : LivesStep permit
                (update store.lifecycle item.executionId (some (life.granted item.kind owned)))
                (next.modifyWork workItemId fun item =>
                  (item.claimedBy request.workerId token).leased leaseUntil).lifecycle := by
              have moved : LivesStep permit
                  (update store.lifecycle item.executionId (some (life.granted item.kind owned)))
                  (update (update store.lifecycle item.executionId
                    (some (life.granted item.kind owned))) item.executionId
                      (some { life.granted item.kind owned with
                        work := update (life.granted item.kind owned).work item.kind
                          (some (owned.leased leaseUntil)) })) :=
                .moved item.executionId .renew (life.granted item.kind owned) _ (by simp)
                  (.renewed item.kind owned (by simp) rfl leaseUntil)
                  (performed _ _ (.inr (.inr (.inr rfl)))) fun free held => by
                    simp only [free, Bool.false_eq_true] at held
              rw [Function.update_idem] at moved
              rw [changed.lives]
              simpa only [Lifecycle.granted, Function.update_idem] using moved
            have refines : Refines permit store (next.modifyWork workItemId fun item =>
                (item.claimedBy request.workerId token).leased leaseUntil) :=
              ⟨changed.consistent, (ReflTransGen.single claimStep).tail renewStep⟩
            have left : ∀ other ∈ rest, (next.modifyWork workItemId fun item =>
                (item.claimedBy request.workerId token).leased leaseUntil).Offerable
                  request.namespace other := by
              intro other member
              have kept := (others other member).1.kept request
                (others other member).2
              rw [decided] at kept
              exact kept.modifyWork (others other member).2
            refine (ih refines.consistent _ distinct left).mono ?_ ?_
            · rintro value after ⟨onward, granted, rfl, sublist, grants⟩
              refine ⟨refines.trans onward, claimFrom owned token leaseUntil :: granted, by
                simp [owned, token], ?_, ?_⟩
              · rw [List.map_cons]
                exact named ▸ sublist.cons_cons _
              · intro claim member
                rcases List.mem_cons.mp member with rfl | member
                · exact ⟨store.lifecycle, life, item, request.workerId, .refl, living, work, rfl,
                    pending, claimable, rfl, (ReflTransGen.single renewStep).trans onward.steps⟩
                · exact (grants claim member).of_later refines.steps
            · exact fun _ after onward => refines.trans onward
        · have changed := changes _ keepsOwner
          exact ⟨changed.consistent, changed.lives ▸ .single claimStep⟩

/-! ## Worker operations -/

/-- Due items are distinct and wait to be offered. -/
theorem Consistent.dueWork (consistent : store.Consistent) («namespace» : String) (now : Nat) :
    ((store.dueWork «namespace» now).map (·.workItemId)).Nodup ∧
      ∀ workItemId ∈ (store.dueWork «namespace» now).map (·.workItemId),
        store.Offerable «namespace» workItemId := by
  have named : ∀ item ∈ store.work.entries.map Prod.snd,
      store.work.get? item.workItemId = some item := by
    intro item member
    obtain ⟨⟨workItemId, _⟩, entry, rfl⟩ := List.mem_map.mp member
    have found := Dict.get?_eq_some_iff.mpr entry
    rwa [(consistent.keyed found).1]
  have sorted := List.perm_insertionSort WorkItem.before
    ((store.work.entries.map Prod.snd).filter fun item =>
      item.namespace == «namespace» && item.status == .pending && decide (item.availableAt ≤ now))
  constructor
  · rw [MemoryAutomationStore.dueWork, (sorted.map _).nodup_iff]
    refine List.Nodup.sublist (List.filter_sublist.map _) ?_
    have keys : (store.work.entries.map Prod.snd).map (·.workItemId) =
        store.work.entries.map Prod.fst := by
      rw [List.map_map]
      apply List.map_congr_left
      intro entry member
      exact (consistent.keyed (Dict.get?_eq_some_iff.mpr member)).1
    rw [keys]
    exact store.work.nodup
  · intro workItemId member
    obtain ⟨item, due, rfl⟩ := List.mem_map.mp member
    obtain ⟨stored, chosen⟩ := List.mem_filter.mp (sorted.mem_iff.mp due)
    simp only [Bool.and_eq_true, beq_iff_eq, decide_eq_true_eq] at chosen
    exact ⟨item, named item stored, chosen.1.2, chosen.1.1⟩

theorem claimWork_refines (consistent : store.Consistent) {request : WorkRequest}
    {globalConcurrency : String → Int}
    (requested : request.globalConcurrency = globalConcurrency request.namespace) :
    (claimWork request).Ensures store
      (fun value after =>
        Refines ((StoreCall.claimWork request).permit globalConcurrency) store after ∧
          (value.map (·.workItemId)).Nodup ∧ ∀ claim ∈ value,
            Grants ((StoreCall.claimWork request).permit globalConcurrency) store.lifecycle
              after.lifecycle request.now claim)
      (fun _ after => Refines ((StoreCall.claimWork request).permit globalConcurrency) store
        after) := by
  refine ensures_claimWork consistent.toStored (fun _ _ => .refl consistent) fun _ _ => ?_
  have recovered : Refines ((StoreCall.claimWork request).permit globalConcurrency) store
      (store.claimsRecovered request.namespace request.now) :=
    claimsRecovered_refines consistent _ _ fun _ => .inl rfl
  obtain ⟨distinct, offerable⟩ := recovered.consistent.dueWork request.namespace request.now
  have offers := claimItems_refines ((StoreCall.claimWork request).permit globalConcurrency)
    recovered.consistent requested rfl (fun _ _ => id) [] distinct offerable
  refine offers.mono ?_ fun _ after onward => recovered.trans onward
  rintro value after ⟨onward, granted, rfl, sublist, grants⟩
  refine ⟨recovered.trans onward, ?_, fun claim member => ?_⟩
  · simpa using sublist.nodup distinct
  · exact (grants claim (by simpa using member)).of_later recovered.steps

theorem Owns.living (consistent : store.Consistent) {claim : WorkItemClaim} {now : Nat}
    {item : WorkItem} {execution : AutomationExecution}
    (owns : store.Owns claim now item execution) :
    ∃ life, store.lifecycle claim.executionId = some life ∧ life.execution = execution ∧
      life.work item.kind = some item ∧ item.workItemId = claim.workItemId ∧
      life.admitted = decide (execution.executionId ∈ store.admitted) := by
  obtain ⟨life, living, work, -⟩ := consistent.life_of_work owns.found
  obtain ⟨stored, -, admitted⟩ := lifecycle_eq_some.mp living
  have same : life.execution = execution := Option.some.inj (stored.symm.trans owns.owner)
  refine ⟨life, owns.backs.executionId ▸ living, same, work, (consistent.keyed owns.found).1, ?_⟩
  rw [admitted, ← same, consistent.identified stored]

theorem renewClaim_refines (consistent : store.Consistent) {globalConcurrency : String → Int}
    (claim : WorkItemClaim) (leaseDuration : Int) (checkedAt now : Nat) :
    (renewClaim claim leaseDuration checkedAt now).Ensures store
      (fun _ after => Refines ((StoreCall.renewClaim claim leaseDuration checkedAt now).permit
        globalConcurrency) store after)
      (fun _ after => after = store) := by
  refine (renewClaim_spec claim leaseDuration checkedAt now).mono ?_ fun _ _ same => same
  rintro value after ⟨item, leaseUntil, found, backs, -, -, rfl⟩
  obtain ⟨life, living, work, -⟩ := consistent.life_of_work found
  have same : ∀ item : WorkItem, SameItem item (item.leased leaseUntil) :=
    fun _ => ⟨rfl, rfl, rfl, rfl⟩
  refine (changed_modifyWork consistent living work same).refines living
    (.renewed item.kind item work backs.claimed leaseUntil) ⟨rfl, backs.executionId⟩
    fun free held => ?_
  simp [free] at held

theorem authorizeClaimStart_refines (consistent : store.Consistent)
    (globalConcurrency : String → Int) (claim : WorkItemClaim) (executionTimeout : Int)
    (checkedAt now : Nat) (startToken : String) :
    (authorizeClaimStart claim executionTimeout checkedAt now startToken).Ensures store
      (fun value after => Refines ((StoreCall.authorizeStart claim executionTimeout checkedAt now
          startToken).permit globalConcurrency) store after ∧
        ∃ before later, store.lifecycle claim.executionId = some before ∧
          before.execution.startAuthorizedAt = none ∧
          after.lifecycle claim.executionId = some later ∧ later.execution = value.execution ∧
          later.execution.startAuthorizedAt.isSome = true)
      (fun _ after => after = store) := by
  refine (authorizeClaimStart_spec claim executionTimeout checkedAt now startToken).mono ?_
    fun _ _ same => same
  rintro value after ⟨item, execution, owns, decided, rfl⟩
  obtain ⟨life, living, rfl, work, -, admitted⟩ := owns.living consistent
  rw [← admitted] at decided
  have changed := changed_putExecution consistent living (authorizeStart_sameAttempt decided)
  obtain ⟨leaseUntil, leased, -⟩ := owns.backs.leased
  obtain ⟨-, unstarted, -, -, deadline, started⟩ := authorizeStart_eq_ok decided
  refine ⟨changed.refines living (.started item.kind item work owns.backs.claimed (by simp [leased])
    now executionTimeout startToken value decided) ⟨rfl, rfl⟩ fun free held => ?_, life, _, living,
      unstarted, changed.found, rfl, by rw [started]; rfl⟩
  simp [free] at held

theorem markInterrupted_refines (consistent : store.Consistent)
    {globalConcurrency : String → Int} (claim : WorkItemClaim) (interruptIds : List String)
    (checkedAt now : Nat) (workItemId : String) (fresh : store.work.get? workItemId = none) :
    (markInterrupted claim interruptIds checkedAt now workItemId).Ensures store
      (fun _ after => Refines ((StoreCall.markInterrupted claim interruptIds checkedAt now
        workItemId).permit globalConcurrency) store after)
      (fun _ after => after = store) := by
  refine (markInterrupted_spec claim interruptIds checkedAt now workItemId).mono ?_
    fun _ _ same => same
  rintro value after ⟨item, execution, transition, owns, decided, room, -, rfl⟩
  obtain ⟨life, living, rfl, work, -⟩ := owns.living consistent
  have changed : store.Changed claim.executionId
      (life.applied transition item.kind workItemId now)
      (store.transitioned transition (some item.workItemId) workItemId now) :=
    changed_transitioned consistent living (interruptExecution_sameAttempt decided)
      (fun _ => ⟨item, work, rfl⟩) (fun _ _ => fresh) fun _ => room
  refine changed.refines living (.interrupted item.kind item work owns.backs.claimed interruptIds now
    transition decided workItemId) ⟨rfl, rfl⟩ fun free held => ?_
  simp [Lifecycle.applied, free] at held

theorem finishClaimed_refines (consistent : store.Consistent) {globalConcurrency : String → Int}
    (claim : WorkItemClaim) (report : FinishReport) (checkedAt now : Nat) :
    (finishClaimed claim report checkedAt now).Ensures store
      (fun _ after => Refines ((StoreCall.finishExecution claim report checkedAt now).permit
        globalConcurrency) store after)
      (fun _ after => after = store) := by
  refine (finishClaimed_spec claim report checkedAt now).mono ?_ fun _ _ same => same
  rintro value after ⟨item, execution, transition, owns, decided, -, rfl⟩
  obtain ⟨life, living, rfl, work, -⟩ := owns.living consistent
  have unscheduled : transition.deadlineWorkAt = none := by
    obtain ⟨-, rfl⟩ := finishExecution_eq_ok decided
    rfl
  have changed : store.Changed claim.executionId (life.applied transition item.kind "" now)
      (store.transitioned transition (some item.workItemId) "" now) :=
    changed_transitioned consistent living (finishExecution_sameAttempt decided)
      (fun _ => ⟨item, work, rfl⟩) (by simp [unscheduled]) (by simp [unscheduled])
  refine changed.refines living (.finished item.kind item work owns.backs.claimed report now
    transition decided "") ⟨rfl, rfl⟩ fun free held => ?_
  simp [Lifecycle.applied, free] at held

/-! ## Owner and task operations -/

theorem transitioned_refines (consistent : store.Consistent)
    (found : store.lifecycle executionId = some life) {transition : ExecutionTransition} {now : Nat}
    (same : SameAttempt life.execution transition.execution)
    (unscheduled : transition.deadlineWorkAt = none) (whole : transition.completeWork ≠ .current)
    (step : LifecycleStep action life (life.applied transition .execute "" now))
    (performed : permit.performed action executionId) :
    Refines permit store (store.transitioned transition none "" now) := by
  have changed : store.Changed executionId (life.applied transition .execute "" now)
      (store.transitioned transition none "" now) :=
    changed_transitioned consistent found same (fun current => absurd current whole)
      (by simp [unscheduled]) (by simp [unscheduled])
  refine changed.refines found step performed fun free held => ?_
  simp [Lifecycle.applied, free] at held

theorem Committed.refines (consistent : store.Consistent) {command : OwnerCommand}
    {decide : AutomationExecution → Except Raised ExecutionTransition} {now : Nat}
    {value : AutomationExecution} (stored : after.Stored)
    (committed : store.Committed command decide now value after)
    (steps : ∀ life transition, store.lifecycle command.executionId = some life →
      decide life.execution = .ok transition →
        Refines permit store (store.transitioned transition none "" now)) :
    Refines permit store after := by
  rcases committed with ⟨-, rfl⟩ | ⟨-, -, execution, transition, addressed, decided, -, rfl⟩
  · exact .refl consistent
  · obtain ⟨life, living, same⟩ := lifecycle_of_stored addressed.found
    have changed := steps life transition living (same ▸ decided)
    exact changed.trans (recordOperation_sameTables.refines stored changed.consistent)

theorem cancelOwned_refines (consistent : store.Consistent) {globalConcurrency : String → Int}
    (command : OwnerCommand) (now : Nat) :
    (cancelOwned command now).Ensures store
      (fun _ after => after.Stored → Refines ((StoreCall.cancelExecution command now).permit
        globalConcurrency) store after)
      (fun _ after => after = store) := by
  refine (cancelOwned_spec command now).mono (fun value after committed stored => ?_)
    fun _ _ same => same
  refine Committed.refines consistent stored committed fun life transition living decided => ?_
  have whole : transition.deadlineWorkAt = none ∧ transition.completeWork ≠ .current := by
    rcases cancelExecution_eq_ok decided with ⟨-, rfl⟩ | ⟨-, rfl⟩ | ⟨-, rfl⟩ <;> simp
  exact transitioned_refines consistent living (cancelExecution_sameAttempt decided) whole.1 whole.2
    (.cancelled now transition decided .execute "") ⟨rfl, rfl⟩

theorem resolveOwned_refines (consistent : store.Consistent) {globalConcurrency : String → Int}
    (command : OwnerCommand) (resolution : AttentionResolution) (reason : String) (now : Nat) :
    (resolveOwned command resolution reason now).Ensures store
      (fun _ after => after.Stored → Refines ((StoreCall.resolveExecution command resolution reason
        now).permit globalConcurrency) store after)
      (fun _ after => after = store) := by
  refine (resolveOwned_spec command resolution reason now).mono
    (fun value after committed stored => ?_) fun _ _ same => same
  refine Committed.refines consistent stored committed fun life transition living decided => ?_
  have whole : transition.deadlineWorkAt = none ∧ transition.completeWork ≠ .current := by
    obtain ⟨-, _, _, rfl⟩ := resolveExecution_eq_ok decided
    simp
  exact transitioned_refines consistent living (resolveExecution_sameAttempt decided) whole.1
    whole.2 (.resolved resolution reason now transition decided .execute "") ⟨rfl, rfl⟩

theorem queuedCancelled_refines (consistent : store.Consistent) (taskId : String) (now : Nat)
    (executionId : String) (performed : ∀ executionId, permit.performed .cancel executionId) :
    Refines permit store (queuedCancelled taskId now store executionId) := by
  unfold queuedCancelled
  split
  · exact .refl consistent
  · next execution found =>
      split
      · next queued =>
          obtain ⟨life, living, rfl⟩ := lifecycle_of_stored found
          have decided : cancelExecution life.execution now =
              .ok (cancellation life.execution now) := by
            simp [cancelExecution, queued.2, cancellation]
          exact transitioned_refines consistent living (cancelExecution_sameAttempt decided) rfl
            (by simp [cancellation]) (.cancelled now _ decided .execute "") (performed _)
      · exact .refl consistent

theorem taskDeleted_refines (consistent : store.Consistent) (taskId : String) (now : Nat)
    (performed : ∀ executionId, permit.performed .cancel executionId) :
    Refines permit store (store.taskDeleted taskId now) := by
  unfold taskDeleted
  generalize store.executions.keys = executionIds
  induction executionIds using List.reverseRecOn with
  | nil =>
    have same : SameTables store { store with tasks := store.tasks.erase taskId } :=
      ⟨rfl, rfl, rfl, rfl, rfl⟩
    exact same.refines consistent.toStored.eraseTask consistent
  | append_singleton executionIds executionId ih =>
    rw [List.foldl_append]
    exact ih.trans (queuedCancelled_refines ih.consistent taskId now executionId performed)

theorem deleteTask_refines (consistent : store.Consistent) {globalConcurrency : String → Int}
    («namespace» ownerId taskId : String) (expectedRevision : Int) (requestId : Option String)
    (inputDigest : String) (now : Nat) :
    (deleteTask «namespace» ownerId taskId expectedRevision requestId inputDigest now).Ensures store
      (fun _ after => after.Stored → Refines ((StoreCall.deleteTask «namespace» ownerId taskId
        expectedRevision requestId inputDigest now).permit globalConcurrency) store after)
      (fun _ after => after = store) := by
  refine (deleteTask_spec «namespace» ownerId taskId expectedRevision requestId inputDigest
    now).mono ?_ fun _ _ same => same
  rintro - after (⟨-, rfl⟩ | ⟨-, -, -, rfl⟩) stored
  · exact .refl consistent
  · have deleted : Refines ((StoreCall.deleteTask «namespace» ownerId taskId expectedRevision
        requestId inputDigest now).permit globalConcurrency) store (store.taskDeleted taskId now) :=
      taskDeleted_refines consistent taskId now fun _ => rfl
    exact deleted.trans (recordOperation_sameTables.refines stored deleted.consistent)

/-! ## Queueing -/

/-- A newly queued execution begins a life. -/
theorem queued_refines (consistent : store.Consistent) {execution : AutomationExecution}
    {occurrence : String × String} {workItemId : String} {createdAt : Nat}
    (unstarted : execution.Unstarted)
    (newExecution : store.executions.get? execution.executionId = none)
    (newItem : store.work.get? workItemId = none)
    (executionRoom : store.executions.size < store.limits.maxExecutions)
    (workRoom : store.work.size < store.limits.maxWorkItems)
    (offered : permit.offered execution) :
    Refines permit store (store.queued execution occurrence workItemId createdAt) := by
  have changed : store.Changed execution.executionId (queuedLife execution workItemId createdAt)
      (store.queued execution occurrence workItemId createdAt) :=
    changed_queued consistent newExecution newItem executionRoom workRoom
  have entered : (queuedLife execution workItemId createdAt).Entered :=
    { status := unstarted.queued
      unstarted := unstarted.unauthorized
      noDeadline := unstarted.noDeadline
      canonical := unstarted.canonical
      work := ⟨Lifecycle.newWork execution .execute execution.queuedAt workItemId createdAt,
        by simp [queuedLife], rfl⟩
      noDeadlineWork := by simp [queuedLife]
      notAdmitted := rfl }
  refine ⟨changed.consistent, changed.lives ▸ .single (.entered execution.executionId _ ?_ rfl entered
    offered)⟩
  exact lifecycle_eq_none.mpr newExecution

theorem enqueueExecution_refines (consistent : store.Consistent)
    {globalConcurrency : String → Int} (request : EnqueueRequest)
    (promised : store.Promised (.enqueueExecution request)) :
    (enqueueExecution request).Ensures store
      (fun _ after => after.Stored → Refines ((StoreCall.enqueueExecution request).permit
        globalConcurrency) store after)
      (fun _ after => after = store) := by
  refine (enqueueExecution_spec request).mono ?_ fun _ _ same => same
  rintro value after (⟨-, rfl⟩ | ⟨-, ⟨_, -, -, rfl⟩ |
    ⟨-, -, absent, -, executionRoom, -, workRoom, -, rfl⟩⟩) stored
  · exact .refl consistent
  · exact .refl consistent
  · have queued : Refines ((StoreCall.enqueueExecution request).permit globalConcurrency) store
        (store.queued request.execution (request.execution.namespace, request.occurrenceKey)
          request.workItemId request.now) :=
      queued_refines consistent promised.1 (by simpa [Dict.contains] using absent) promised.2
        executionRoom workRoom rfl
    exact queued.trans (recordOperation_sameTables.refines stored queued.consistent)

theorem queued_absent {execution : AutomationExecution} {occurrence : String × String}
    {workItemId other : String} {createdAt : Nat} (absent : store.work.get? other = none)
    (different : other ≠ workItemId) :
    (store.queued execution occurrence workItemId createdAt).work.get? other = none := by
  unfold queued withWork
  split
  · unfold modifyWork
    split
    · exact absent
    · next item present =>
        refine (Dict.get?_insert_of_ne _ _ fun equal => ?_).trans absent
        subst equal
        simp [putExecution, absent] at present
  · exact (Dict.get?_insert_of_ne _ _ different).trans absent

/-- A batch of new executions begins as many lives. -/
theorem materialized_refines (consistent : store.Consistent)
    {items : List (ScheduledExecution × String)} {«namespace» : String} {now : Nat}
    (fresh : ∀ item ∈ items, item.1.execution.Unstarted ∧
      store.executions.get? item.1.execution.executionId = none ∧
      store.work.get? item.2 = none ∧ permit.offered item.1.execution)
    (executions : (items.map (·.1.execution.executionId)).Nodup)
    (workItems : (items.map (·.2)).Nodup)
    (executionRoom : store.executions.size + items.length ≤ store.limits.maxExecutions)
    (workRoom : store.work.size + items.length ≤ store.limits.maxWorkItems) :
    Refines permit store (items.foldl (materialized «namespace» now) store) := by
  induction items generalizing store with
  | nil => exact .refl consistent
  | cons item items ih =>
    simp only [List.length_cons] at executionRoom workRoom
    simp only [List.map_cons, List.nodup_cons, List.mem_map, not_exists, not_and] at executions
    simp only [List.map_cons, List.nodup_cons, List.mem_map, not_exists, not_and] at workItems
    obtain ⟨unstarted, newExecution, newItem, offered⟩ := fresh item List.mem_cons_self
    have first : Refines permit store (materialized «namespace» now store item) :=
      queued_refines consistent unstarted newExecution newItem (by omega) (by omega) offered
    have size := store.queued_size item.1.execution («namespace», item.1.occurrenceKey) item.2 now
    have limits : (materialized «namespace» now store item).limits = store.limits :=
      queued_limits ..
    have grown : (materialized «namespace» now store item).executions.size ≤
        store.executions.size + 1 := by
      rw [materialized, queued_executions, Dict.size_insert]
      split <;> omega
    refine first.trans (ih first.consistent ?_ executions.2 workItems.2 (by rw [limits]; omega)
      (by rw [limits, materialized]; omega))
    intro other member
    obtain ⟨otherUnstarted, otherNew, otherItem, otherOffered⟩ := fresh other (.tail _ member)
    refine ⟨otherUnstarted, ?_, queued_absent otherItem fun same =>
      workItems.1 other member same, otherOffered⟩
    rw [materialized, queued_executions]
    exact (Dict.get?_insert_of_ne _ _ fun same => executions.1 other member same).trans otherNew

theorem mem_of_mem_pendingOccurrences {seen : List String}
    {items : List (ScheduledExecution × String)} {item : ScheduledExecution × String}
    (member : item ∈ pendingOccurrences seen items) : item ∈ items := by
  induction items generalizing seen with
  | nil => simp [pendingOccurrences] at member
  | cons first items ih =>
    simp only [pendingOccurrences] at member
    split at member
    · exact .tail _ (ih member)
    · rcases List.mem_cons.mp member with rfl | member
      · exact List.mem_cons_self
      · exact .tail _ (ih member)

theorem materializeTask_refines (consistent : store.Consistent)
    {globalConcurrency : String → Int} (task : AutomationTask) (expectedNextRunAt : Nat)
    (executions : List (ScheduledExecution × String)) (now : Nat)
    (promised : store.Promised (.materializeTask task expectedNextRunAt executions now)) :
    (materializeTask task expectedNextRunAt executions now).Ensures store
      (fun _ after => Refines ((StoreCall.materializeTask task expectedNextRunAt executions
        now).permit globalConcurrency) store after)
      (fun _ after => after = store) := by
  refine (materializeTask_spec task expectedNextRunAt executions now).mono ?_ fun _ _ same => same
  rintro value after ⟨current, found, -, -, ⟨-, -, rfl⟩ |
    ⟨-, -, executionRoom, workRoom, -, rfl⟩⟩
  · exact .refl consistent
  · obtain ⟨fresh, distinctExecutions, distinctItems⟩ := promised
    have put : Refines ((StoreCall.materializeTask task expectedNextRunAt executions now).permit
        globalConcurrency) store (store.putTask task) :=
      SameTables.refines ⟨rfl, rfl, rfl, rfl, rfl⟩
        (consistent.toStored.insertTask (.inl (by simp [Dict.contains, found]))) consistent
    refine put.trans (materialized_refines put.consistent (fun item member => ?_)
      distinctExecutions distinctItems executionRoom workRoom)
    obtain ⟨unstarted, -, -, newExecution, newItem⟩ := fresh item member
    exact ⟨unstarted, newExecution, newItem, item, mem_of_mem_pendingOccurrences member, rfl⟩

/-! ## Every call -/

theorem ReadsOnly.refines {α : Type} {operation : StoreM α} (reads : ReadsOnly operation)
    (consistent : store.Consistent) :
    operation.Ensures store (fun _ after => Refines permit store after)
      (fun _ after => Refines permit store after) := by
  refine (reads store).mono ?_ ?_ <;> rintro - after rfl <;> exact .refl consistent

theorem refines_of_clean {α : Type} {operation : StoreM α} (consistent : store.Consistent)
    (stored : operation.Ensures store (fun _ after => after.Stored ∧ after.limits = store.limits)
      (fun _ after => after.Stored ∧ after.limits = store.limits))
    (clean : operation.Ensures store (fun _ after => after.Stored → Refines permit store after)
      (fun _ after => after = store)) :
    operation.Ensures store (fun _ after => Refines permit store after)
      (fun _ after => Refines permit store after) := by
  refine (stored.and clean).mono (fun _ after both => both.2 both.1.1) ?_
  rintro - after ⟨-, rfl⟩
  exact .refl consistent

theorem putTask_sameTables {«namespace» ownerId inputDigest : String} {requestId : Option String}
    {result : OperationResult} {task : AutomationTask} :
    SameTables store ((store.putTask task).recordOperation «namespace» ownerId requestId inputDigest
      result) := by
  unfold recordOperation
  split <;> exact ⟨rfl, rfl, rfl, rfl, rfl⟩

/-- A call, whatever its outcome, is a sequence of permitted steps. -/
theorem perform_refines (consistent : store.Consistent) {globalConcurrency : String → Int}
    (call : StoreCall) (promised : store.Promised call)
    (requested : call.Requests globalConcurrency) :
    (perform call).Ensures store
      (fun _ after => Refines (call.permit globalConcurrency) store after)
      (fun _ after => Refines (call.permit globalConcurrency) store after) := by
  have stored := perform_stored consistent.toStored call
  cases call with
  | setup => exact EStateM.ensures_map.mpr (setup_readsOnly.refines consistent)
  | currentTime now => exact EStateM.ensures_map.mpr ((currentTime_readsOnly now).refines consistent)
  | getTask «namespace» ownerId taskId =>
    exact EStateM.ensures_map.mpr ((getTask_readsOnly «namespace» ownerId taskId).refines consistent)
  | listTasks «namespace» ownerId limit cursor =>
    exact EStateM.ensures_map.mpr
      ((listTasks_readsOnly «namespace» ownerId limit cursor).refines consistent)
  | getScheduledTask «namespace» taskId =>
    exact EStateM.ensures_map.mpr
      ((getScheduledTask_readsOnly «namespace» taskId).refines consistent)
  | listScheduledTasks «namespace» limit cursor =>
    exact EStateM.ensures_map.mpr
      ((listScheduledTasks_readsOnly «namespace» limit cursor).refines consistent)
  | getExecution «namespace» ownerId executionId =>
    exact EStateM.ensures_map.mpr
      ((getExecution_readsOnly «namespace» ownerId executionId).refines consistent)
  | getScheduledExecution «namespace» executionId =>
    exact EStateM.ensures_map.mpr
      ((getScheduledExecution_readsOnly «namespace» executionId).refines consistent)
  | listExecutions «namespace» ownerId taskId limit cursor =>
    exact EStateM.ensures_map.mpr
      ((listExecutions_readsOnly «namespace» ownerId taskId limit cursor).refines consistent)
  | createTask task requestId inputDigest =>
    refine refines_of_clean consistent stored (EStateM.ensures_map.mpr
      ((createTask_spec task requestId inputDigest).mono ?_ fun _ _ same => same))
    rintro value after (⟨-, rfl⟩ | ⟨-, -, -, -, -, rfl⟩) kept
    · exact .refl consistent
    · exact putTask_sameTables.refines kept consistent
  | updateTask task expectedRevision requestId inputDigest =>
    refine refines_of_clean consistent stored (EStateM.ensures_map.mpr
      ((updateTask_spec task expectedRevision requestId inputDigest).mono ?_ fun _ _ same => same))
    rintro value after (⟨-, rfl⟩ | ⟨-, -, -, -, -, rfl⟩) kept
    · exact .refl consistent
    · exact putTask_sameTables.refines kept consistent
  | deleteTask «namespace» ownerId taskId expectedRevision requestId inputDigest now =>
    exact refines_of_clean consistent stored (EStateM.ensures_map.mpr
      (deleteTask_refines consistent «namespace» ownerId taskId expectedRevision requestId
        inputDigest now))
  | materializeTask task expectedNextRunAt executions now =>
    exact refines_of_clean consistent stored (EStateM.ensures_map.mpr
      ((materializeTask_refines consistent task expectedNextRunAt executions now promised).mono
        (fun _ _ refines _ => refines) fun _ _ same => same))
  | enqueueExecution request =>
    exact refines_of_clean consistent stored (EStateM.ensures_map.mpr
      (enqueueExecution_refines consistent request promised))
  | claimWork request =>
    exact EStateM.ensures_map.mpr ((claimWork_refines consistent requested).mono
      (fun _ _ both => both.1) fun _ _ refines => refines)
  | renewClaim claim leaseDuration checkedAt now =>
    exact refines_of_clean consistent stored (EStateM.ensures_map.mpr
      ((renewClaim_refines consistent claim leaseDuration checkedAt now).mono
        (fun _ _ refines _ => refines) fun _ _ same => same))
  | authorizeStart claim executionTimeout checkedAt now startToken =>
    exact refines_of_clean consistent stored (EStateM.ensures_map.mpr
      ((authorizeClaimStart_refines consistent globalConcurrency claim executionTimeout checkedAt
        now startToken).mono (fun _ _ refines _ => refines.1) fun _ _ same => same))
  | markInterrupted claim interruptIds checkedAt now workItemId =>
    exact refines_of_clean consistent stored (EStateM.ensures_map.mpr
      ((markInterrupted_refines consistent claim interruptIds checkedAt now workItemId
        promised).mono (fun _ _ refines _ => refines) fun _ _ same => same))
  | finishExecution claim report checkedAt now =>
    exact refines_of_clean consistent stored (EStateM.ensures_map.mpr
      ((finishClaimed_refines consistent claim report checkedAt now).mono
        (fun _ _ refines _ => refines) fun _ _ same => same))
  | cancelExecution command now =>
    exact refines_of_clean consistent stored (EStateM.ensures_map.mpr
      (cancelOwned_refines consistent command now))
  | resolveExecution command resolution reason now =>
    exact refines_of_clean consistent stored (EStateM.ensures_map.mpr
      (resolveOwned_refines consistent command resolution reason now))
  | close =>
    have same : SameTables store { store with closed := true } := ⟨rfl, rfl, rfl, rfl, rfl⟩
    exact EStateM.ensures_map.mpr (same.refines { consistent.toStored with } consistent)

theorem next_refines (consistent : store.Consistent) {globalConcurrency : String → Int}
    {call : StoreCall} (promised : store.Promised call)
    (requested : call.Requests globalConcurrency) :
    Refines (call.permit globalConcurrency) store (store.next call) :=
  (perform_refines consistent call promised requested).final

theorem requests_some (call : StoreCall) : ∃ globalConcurrency, call.Requests globalConcurrency := by
  cases call with
  | claimWork request => exact ⟨fun _ => request.globalConcurrency, rfl⟩
  | _ => exact ⟨fun _ => 0, trivial⟩

end MemoryAutomationStore

end Tinkerfin.Automation
