import Tinkerfin.Automation.StoreRefinement

/-!
# Runs of the store

A run is a list of calls, each with what its caller owes.  The store a run leaves is consistent and
its lives are valid, so what holds of every valid life holds in every reachable state, and what every
step keeps is kept from any point of a run to its end.
-/

namespace Tinkerfin.Automation

open MemoryAutomationStore (opened next Promised Refines Grants)

/-- Calls of a store from its opening on, in the order in which they held its lock. -/
structure StoreRun where
  limits : MemoryStoreLimits
  calls : List StoreCall
  promised : Machine.Guarded next Promised (opened limits) calls

namespace StoreRun

/-- The store after the calls of a run. -/
def store (run : StoreRun) : MemoryAutomationStore := Machine.run next (opened run.limits) run.calls

/-- A run and the calls after one of its points. -/
structure Point (run : StoreRun) where
  before : StoreRun
  after : List StoreCall
  limits : before.limits = run.limits
  calls : run.calls = before.calls ++ after

/-- Everything that some calls may do is permitted. -/
def Permits (permit : Permit) (calls : List StoreCall) : Prop :=
  ∀ call ∈ calls, ∃ globalConcurrency, call.Requests globalConcurrency ∧
    (call.permit globalConcurrency).Le permit

theorem permits_unrestricted (calls : List StoreCall) : Permits .unrestricted calls := by
  intro call _
  obtain ⟨globalConcurrency, requested⟩ := MemoryAutomationStore.requests_some call
  exact ⟨globalConcurrency, requested, Permit.le_unrestricted _⟩

theorem refines_run {permit : Permit} {store : MemoryAutomationStore} {calls : List StoreCall}
    (consistent : store.Consistent) (promised : Machine.Guarded next Promised store calls)
    (permitted : Permits permit calls) : Refines permit store (Machine.run next store calls) := by
  induction calls generalizing store with
  | nil => exact .refl consistent
  | cons call calls ih =>
    obtain ⟨globalConcurrency, requested, wider⟩ := permitted call List.mem_cons_self
    have first := MemoryAutomationStore.next_refines consistent promised.1 requested
    have widened : Refines permit store (store.next call) :=
      ⟨first.consistent, first.steps.mono wider⟩
    exact widened.trans (ih first.consistent promised.2 fun other member =>
      permitted other (.tail _ member))

theorem refines (run : StoreRun) {permit : Permit} (permitted : Permits permit run.calls) :
    Refines permit (opened run.limits) run.store :=
  refines_run (MemoryAutomationStore.consistent_opened run.limits) run.promised permitted

theorem consistent (run : StoreRun) : run.store.Consistent :=
  (run.refines (permits_unrestricted _)).consistent

theorem lifecycle_opened (limits : MemoryStoreLimits) :
    (opened limits).lifecycle = fun _ => none := by
  funext executionId
  exact MemoryAutomationStore.lifecycle_eq_none.mpr rfl

/-- The tables of a store agree and its lives are valid. -/
structure Sound (store : MemoryAutomationStore) : Prop where
  consistent : store.Consistent
  valid : store.lifecycle.Valid

theorem sound_opened (limits : MemoryStoreLimits) : Sound (opened limits) where
  consistent := MemoryAutomationStore.consistent_opened limits
  valid := by
    rw [lifecycle_opened]
    intro executionId life found
    cases found

theorem Sound.steps {store : MemoryAutomationStore} {call : StoreCall} (sound : Sound store)
    (promised : store.Promised call) :
    LivesSteps .unrestricted store.lifecycle (store.next call).lifecycle := by
  obtain ⟨globalConcurrency, requested⟩ := MemoryAutomationStore.requests_some call
  have refines := MemoryAutomationStore.next_refines sound.consistent promised requested
  exact refines.steps.mono (Permit.le_unrestricted _)

theorem Sound.next {store : MemoryAutomationStore} {call : StoreCall} (sound : Sound store)
    (promised : store.Promised call) : Sound (store.next call) where
  consistent := by
    obtain ⟨globalConcurrency, requested⟩ := MemoryAutomationStore.requests_some call
    exact (MemoryAutomationStore.next_refines sound.consistent promised requested).consistent
  valid := sound.valid.steps (sound.steps promised)

theorem valid (run : StoreRun) : run.store.lifecycle.Valid :=
  (sound_opened run.limits).valid.steps (run.refines (permits_unrestricted _)).steps

theorem sound (run : StoreRun) : Sound run.store := ⟨run.consistent, run.valid⟩

theorem canonical (run : StoreRun) : run.store.lifecycle.Canonical := by
  refine Lives.Canonical.steps ?_ (run.refines (permits_unrestricted _)).steps
  rw [lifecycle_opened]
  intro executionId life found
  cases found

namespace Point

variable {run : StoreRun} (point : run.Point)

theorem store_eq : run.store = Machine.run next point.before.store point.after := by
  rw [store, store, point.calls, Machine.run_append, point.limits]

theorem promised : Machine.Guarded next Promised point.before.store point.after := by
  have whole := run.promised
  rw [point.calls, Machine.guarded_append, ← point.limits] at whole
  exact whole.2

theorem steps {permit : Permit} (permitted : Permits permit point.after) :
    LivesSteps permit point.before.store.lifecycle run.store.lifecycle := by
  rw [point.store_eq]
  exact (refines_run point.before.consistent point.promised permitted).steps

end Point

/-! ## Logs -/

section

variable {ω : Type} (emit : MemoryAutomationStore → StoreCall → List ω)

/-- What the calls of a run report. -/
def log (run : StoreRun) : List ω := Machine.log next emit (opened run.limits) run.calls

/-- What the calls after a point report. -/
def Point.log {run : StoreRun} (point : run.Point) : List ω :=
  Machine.log next emit point.before.store point.after

end

/-- The claims a call grants. -/
def grantedClaims (store : MemoryAutomationStore) : StoreCall → List WorkItemClaim
  | .claimWork request => ((MemoryAutomationStore.claimWork request).value? store).getD []
  | _ => []

theorem granted_nodup {store : MemoryAutomationStore} (consistent : store.Consistent)
    (call : StoreCall) : ((grantedClaims store call).map (·.workItemId)).Nodup := by
  cases call with
  | claimWork request =>
    let slots : String → Int := fun _ => request.globalConcurrency
    have requested : request.globalConcurrency = slots request.namespace := rfl
    cases outcome : (MemoryAutomationStore.claimWork request).value? store with
    | none => simp [grantedClaims, outcome]
    | some claims =>
      simpa [grantedClaims, outcome] using
        ((MemoryAutomationStore.claimWork_refines consistent requested).of_value outcome).2.1
  | _ => exact .nil

/-- A granted claim took a pending work item on the way to the next store. -/
theorem grants_of_mem {store : MemoryAutomationStore} (consistent : store.Consistent)
    {call : StoreCall} {claim : WorkItemClaim} (granted : claim ∈ grantedClaims store call) :
    ∃ now, Grants .unrestricted store.lifecycle (store.next call).lifecycle now claim := by
  cases call with
  | claimWork request =>
    cases outcome : (MemoryAutomationStore.claimWork request).value? store with
    | none => simp [grantedClaims, outcome] at granted
    | some claims =>
      let slots : String → Int := fun _ => request.globalConcurrency
      have requested : request.globalConcurrency = slots request.namespace := rfl
      have claimed :=
        (MemoryAutomationStore.claimWork_refines consistent requested).of_value outcome
      rw [grantedClaims, outcome] at granted
      refine ⟨request.now, ?_⟩
      simpa [next, MemoryAutomationStore.perform] using
        (claimed.2.2 claim granted).mono (Permit.le_unrestricted _)
  | _ => simp [grantedClaims] at granted

/-! ## Lifecycle and work items -/

variable {run : StoreRun} {executionId : String} {execution : AutomationExecution}

/-- One unfinished work item of an execution. -/
structure Unfinished (run : StoreRun) (executionId : String) (kind : WorkKind)
    (workItemId : String) (item : WorkItem) : Prop where
  stored : run.store.work.get? workItemId = some item
  executionId : item.executionId = executionId
  kind : item.kind = kind
  unfinished : item.status ≠ .completed

/-- An execution has exactly one unfinished work item of a kind, and the item has a property. -/
def OneUnfinished (run : StoreRun) (executionId : String) (kind : WorkKind)
    (property : WorkItem → Prop) : Prop :=
  ∃ workItemId item, run.Unfinished executionId kind workItemId item ∧ property item ∧
    ∀ otherId other, run.Unfinished executionId kind otherId other → otherId = workItemId

theorem Unfinished.work {kind : WorkKind} {workItemId : String} {item : WorkItem}
    (unfinished : run.Unfinished executionId kind workItemId item) :
    ∃ life, run.store.lifecycle executionId = some life ∧ life.work kind = some item ∧
      item.workItemId = workItemId := by
  obtain ⟨life, living, work, -⟩ := run.consistent.life_of_work unfinished.stored
  exact ⟨life, unfinished.executionId ▸ living, unfinished.kind ▸ work,
    (run.consistent.keyed unfinished.stored).1⟩

theorem oneUnfinished_of_work {life : Lifecycle} (living : run.store.lifecycle executionId = some life)
    {kind : WorkKind} {item : WorkItem} (work : life.work kind = some item)
    (unfinished : item.status ≠ .completed) {property : WorkItem → Prop} (holds : property item) :
    run.OneUnfinished executionId kind property := by
  obtain ⟨stored, own, same, -⟩ := run.consistent.of_work living work
  refine ⟨item.workItemId, item, ⟨stored, own, same, unfinished⟩, holds, ?_⟩
  intro otherId other found
  obtain ⟨otherLife, otherLiving, otherWork, named⟩ := found.work
  obtain rfl := Option.some.inj (living.symm.trans otherLiving)
  obtain rfl := Option.some.inj (work.symm.trans otherWork)
  exact named.symm

theorem no_unfinished {life : Lifecycle} (living : run.store.lifecycle executionId = some life)
    (settled : life.execution.status = .needsAttention ∨ life.execution.status.isTerminal = true)
    (kind : WorkKind) (workItemId : String) (item : WorkItem) :
    ¬run.Unfinished executionId kind workItemId item := by
  intro found
  obtain ⟨other, otherLiving, work, -⟩ := found.work
  obtain rfl := Option.some.inj (living.symm.trans otherLiving)
  exact found.unfinished ((run.valid executionId life living).2.no_work settled work)

theorem some_unfinished {life : Lifecycle} (living : run.store.lifecycle executionId = some life)
    (settled : ¬(life.execution.status = .needsAttention ∨ life.execution.status.isTerminal = true)) :
    ∃ kind workItemId item, run.Unfinished executionId kind workItemId item := by
  have unfinished : ∃ kind item, life.work kind = some item ∧ item.status ≠ .completed := by
    cases (run.valid executionId life living).2 with
    | queued item _ work unfinished => exact ⟨.execute, item, work, unfinished⟩
    | active item _ work claimed => exact ⟨.execute, item, work, by simp [claimed]⟩
    | interrupted item _ _ work unfinished => exact ⟨.expireInterrupt, item, work, unfinished⟩
    | settled status => exact absurd status settled
  obtain ⟨kind, item, work, unfinished⟩ := unfinished
  obtain ⟨stored, own, same, -⟩ := run.consistent.of_work living work
  exact ⟨kind, item.workItemId, item, ⟨stored, own, same, unfinished⟩⟩

/-- Terminal executions stay as they are; queued and interrupted executions have exactly one
unfinished work item of their kind, the second at its deadline; terminal executions have none; and
every other execution has unfinished work or can be resolved with any canonical reason. -/
theorem lifecycle_and_work (run : StoreRun) :
    (∀ (point : run.Point) executionId execution,
      point.before.store.executions.get? executionId = some execution →
      execution.status.isTerminal = true →
        run.store.executions.get? executionId = some execution) ∧
    ∀ executionId execution, run.store.executions.get? executionId = some execution →
      (execution.status = .queued → run.OneUnfinished executionId .execute fun _ => True) ∧
      (execution.status = .interrupted → run.OneUnfinished executionId .expireInterrupt
        fun item => execution.executionDeadline = some item.availableAt) ∧
      (execution.status.isTerminal = true →
        ∀ kind workItemId item, ¬run.Unfinished executionId kind workItemId item) ∧
      (execution.status.isTerminal = false →
        (∃ kind workItemId item, run.Unfinished executionId kind workItemId item) ∨
          execution.status = .needsAttention ∧ ∀ resolution reason now,
            isPersistedText reason none = true →
              ∃ transition, resolveExecution execution resolution reason now = .ok transition) := by
  refine ⟨fun point executionId execution found terminal => ?_, fun executionId execution found => ?_⟩
  · obtain ⟨life, living, rfl⟩ := MemoryAutomationStore.lifecycle_of_stored found
    have kept := Lives.keeps_terminal point.before.valid
      (point.steps (permits_unrestricted _)) living terminal
    exact (MemoryAutomationStore.lifecycle_eq_some.mp kept).1
  · obtain ⟨life, living, rfl⟩ := MemoryAutomationStore.lifecycle_of_stored found
    have valid := (run.valid executionId life living).2
    refine ⟨fun queued => ?_, fun interrupted => ?_, fun terminal => ?_, fun unfinished => ?_⟩
    · cases valid with
      | queued item _ work unfinished => exact oneUnfinished_of_work living work unfinished trivial
      | active _ status => simp [queued] at status
      | interrupted _ status => simp [queued] at status
      | settled status => simp [queued, ExecutionStatus.isTerminal] at status
    · cases valid with
      | queued _ status => simp [interrupted] at status
      | active _ status => simp [interrupted] at status
      | interrupted item _ _ work unfinished atDeadline =>
        exact oneUnfinished_of_work living work unfinished atDeadline
      | settled status => simp [interrupted, ExecutionStatus.isTerminal] at status
    · exact no_unfinished living (.inr terminal)
    · by_cases uncertain : life.execution.status = .needsAttention
      · refine .inr ⟨uncertain, fun resolution reason now reasonable => ?_⟩
        exact resolveExecution_accepts (run.canonical executionId life living) uncertain reasonable
          resolution now
      · exact .inl (some_unfinished living (by simp [uncertain, unfinished]))

end StoreRun

end Tinkerfin.Automation
