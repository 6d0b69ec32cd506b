import Tinkerfin.Automation.StoreRuns

/-!
# Concurrency slots

Under fixed limits no scope has more holders than slots.  An admitted execution holds one slot of its
namespace and one of its task or owner until it ends, and gives them back in the call that ends it.
An execution that returns to the queue keeps its slots.
-/

namespace Tinkerfin.Automation

open MemoryAutomationStore (opened next Promised Refines sampleExecution sampleEnqueue WorkRequest)

/-- A run in which every scope has a fixed number of slots. -/
structure SlotRun extends StoreRun where
  limit : ScopeKey → Nat
  inNamespace : ∀ request, .claimWork request ∈ calls →
    request.globalConcurrency = (limit (globalScope request.namespace) : Int)
  inScope : ∀ call ∈ calls, ∀ execution, call.Offers execution →
    execution.limits.maxConcurrentRuns = limit (taskScope execution)

namespace MemoryAutomationStore

variable {store : MemoryAutomationStore} {scope : ScopeKey} {executionId : String}

/-- The executions that hold a slot of a scope. -/
def holding (store : MemoryAutomationStore) (scope : ScopeKey) : Set String :=
  {executionId | executionId ∈ store.admitted ∧ ∃ execution,
    store.executions.get? executionId = some execution ∧
      (scope = globalScope execution.namespace ∨ scope = taskScope execution)}

theorem holding_eq : store.holding scope = store.lifecycle.holders scope := by
  ext executionId
  constructor
  · rintro ⟨admitted, execution, found, named⟩
    obtain ⟨life, living, rfl⟩ := lifecycle_of_stored found
    refine ⟨life, living, ?_, by simpa [Lifecycle.scopes] using named⟩
    simp [(lifecycle_eq_some.mp living).2.2, admitted]
  · rintro ⟨life, living, admitted, named⟩
    obtain ⟨found, -, same⟩ := lifecycle_eq_some.mp living
    exact ⟨by simpa [admitted] using same.symm, life.execution, found,
      by simpa [Lifecycle.scopes] using named⟩

end MemoryAutomationStore

namespace StoreRun

variable {store : MemoryAutomationStore} {call : StoreCall} {executionId : String}

/-- The executions that give their slots back during a call. -/
def releasesOf (store : MemoryAutomationStore) (call : StoreCall) : List String :=
  store.executions.keys.filter fun executionId =>
    executionId ∈ store.admitted ∧ executionId ∉ (store.next call).admitted

/-- An execution ended. -/
def Ended (executionId : String) (store : MemoryAutomationStore) : Prop :=
  ∃ life, store.lifecycle executionId = some life ∧ life.execution.status.isTerminal = true

theorem ended_iff {execution : AutomationExecution}
    (found : store.executions.get? executionId = some execution) :
    Ended executionId store ↔ execution.status.isTerminal = true := by
  obtain ⟨life, living, rfl⟩ := MemoryAutomationStore.lifecycle_of_stored found
  constructor
  · rintro ⟨other, present, terminal⟩
    obtain rfl := Option.some.inj (living.symm.trans present)
    exact terminal
  · exact fun terminal => ⟨life, living, terminal⟩

theorem Ended.next (sound : Sound store) (promised : store.Promised call)
    (ended : Ended executionId store) : Ended executionId (store.next call) := by
  obtain ⟨life, living, terminal⟩ := ended
  exact ⟨life, Lives.keeps_terminal sound.valid (sound.steps promised) living terminal, terminal⟩

theorem Ended.not_admitted (sound : Sound store) (ended : Ended executionId store) :
    executionId ∉ store.admitted := by
  obtain ⟨life, living, terminal⟩ := ended
  have free := (sound.valid executionId life living).2.not_admitted terminal
  simpa [free] using (MemoryAutomationStore.lifecycle_eq_some.mp living).2.2.symm

theorem ended_of_released (sound : Sound store) (promised : store.Promised call)
    (held : executionId ∈ store.admitted) (free : executionId ∉ (store.next call).admitted) :
    Ended executionId (store.next call) := by
  obtain ⟨execution, found⟩ := Option.isSome_iff_exists.mp (sound.consistent.holding executionId held)
  obtain ⟨life, living, rfl⟩ := MemoryAutomationStore.lifecycle_of_stored found
  have admitted : life.admitted = true := by
    simp [(MemoryAutomationStore.lifecycle_eq_some.mp living).2.2, held]
  obtain ⟨later, present, kept⟩ :=
    Lives.keeps_slots sound.valid (sound.steps promised) living admitted
  refine ⟨later, present, ?_⟩
  have released : later.admitted = false := by
    simp [(MemoryAutomationStore.lifecycle_eq_some.mp present).2.2, free]
  simpa [released] using kept.symm

theorem mem_releasesOf (sound : Sound store) : executionId ∈ releasesOf store call ↔
    executionId ∈ store.admitted ∧ executionId ∉ (store.next call).admitted := by
  simp only [releasesOf, List.mem_filter, decide_eq_true_eq, and_iff_right_iff_imp]
  exact fun released => Dict.mem_keys_iff.mpr (sound.consistent.holding executionId released.1)

theorem ended_of_mem (sound : Sound store) (promised : store.Promised call)
    (released : executionId ∈ releasesOf store call) : Ended executionId (store.next call) :=
  have change := (mem_releasesOf sound).mp released
  ended_of_released sound promised change.1 change.2

theorem releases_nodup (run : StoreRun) : (run.log releasesOf).Nodup := by
  refine Machine.guarded_log_pairwise (fun _ _ sound promised => Sound.next sound promised)
    (fun _ _ _ sound promised released => ended_of_mem sound promised released)
    (fun _ _ executionId sound promised (ended : Ended executionId _) => ended.next sound promised)
    (fun store _ _ _ => (store.executions.nodup.filter _)) ?_ run.promised (sound_opened run.limits)
  rintro store call executionId _ sound promised ended released rfl
  exact ended.not_admitted sound ((mem_releasesOf sound).mp released).1

theorem Point.released_of_free {run : StoreRun} (point : run.Point)
    (held : executionId ∈ point.before.store.admitted)
    (free : executionId ∉ run.store.admitted) : executionId ∈ point.log releasesOf := by
  let Held := fun store : MemoryAutomationStore => executionId ∈ store.admitted
  have starts : Held point.before.store := held
  rw [point.store_eq] at free
  obtain ⟨before, call, after, split, admitted, released⟩ := Machine.exists_change starts free
  have promised := point.promised
  rw [split, Machine.guarded_append] at promised
  have sound := Machine.guarded_invariant (fun _ _ sound promised => Sound.next sound promised)
    promised.1 point.before.sound
  exact Machine.mem_log_iff.mpr ⟨before, call, after, split,
    (mem_releasesOf sound).mpr ⟨admitted, released⟩⟩

theorem Point.released_iff {run : StoreRun} (point : run.Point)
    (held : executionId ∈ point.before.store.admitted) :
    executionId ∈ point.log releasesOf ↔ Ended executionId run.store := by
  constructor
  · intro released
    rw [point.store_eq]
    exact Machine.guarded_log_bound (fun _ _ sound promised => Sound.next sound promised)
      (fun _ _ _ sound promised released => ended_of_mem sound promised released)
      (fun _ _ executionId sound promised (ended : Ended executionId _) =>
        ended.next sound promised) point.promised point.before.sound released
  · exact fun ended => point.released_of_free held (ended.not_admitted run.sound)

theorem Point.admitted_iff {run : StoreRun} (point : run.Point)
    (held : executionId ∈ point.before.store.admitted) :
    executionId ∈ run.store.admitted ↔ ¬Ended executionId run.store := by
  constructor
  · exact fun admitted ended => ended.not_admitted run.sound admitted
  · intro unended
    by_contra free
    exact unended ((point.released_iff held).mp (point.released_of_free held free))

end StoreRun

namespace SlotRun

/-- The permit of a run with fixed limits. -/
def permit (run : SlotRun) : Permit where
  globalConcurrency := fun «namespace» => (run.limit (globalScope «namespace») : ℕ∞)
  offered := fun execution => execution.limits.maxConcurrentRuns = run.limit (taskScope execution)
  performed := fun _ _ => True

theorem permits (run : SlotRun) : StoreRun.Permits run.permit run.calls := by
  intro call member
  refine ⟨fun «namespace» => run.limit (globalScope «namespace»), ?_, fun _ => le_rfl,
    run.inScope call member, fun _ _ _ => trivial⟩
  cases call with
  | claimWork request => exact run.inNamespace request member
  | _ => trivial

theorem slots_bounded (run : SlotRun) (scope : ScopeKey) :
    (run.store.holding scope).encard ≤ run.limit scope := by
  have unheld : ∀ limits, (opened limits).lifecycle.SlotsBounded run.limit ∧
      (opened limits).lifecycle.SlotsFixed run.limit := by
    intro limits
    rw [StoreRun.lifecycle_opened]
    exact ⟨fun scope => by simp [Lives.holders], fun _ _ found => by cases found⟩
  have bounded := Lives.slots_steps (unheld run.limits).1 (unheld run.limits).2
    ⟨fun _ => le_rfl, fun _ => id⟩ (run.refines run.permits).steps
  rw [MemoryAutomationStore.holding_eq]
  exact bounded.1 scope

theorem admitted_of_active (run : StoreRun) {executionId : String} {execution : AutomationExecution}
    (found : run.store.executions.get? executionId = some execution)
    (started : execution.status ≠ .queued) (unended : execution.status.isTerminal = false) :
    executionId ∈ run.store.admitted := by
  obtain ⟨life, living, rfl⟩ := MemoryAutomationStore.lifecycle_of_stored found
  have held : life.admitted = true := by
    cases (run.valid executionId life living).2 with
    | queued _ status => exact absurd status started
    | active _ _ _ _ _ _ _ _ held | interrupted _ _ _ _ _ _ _ held => exact held
    | settled _ _ held => simp [held, unended]
  simpa [held] using (MemoryAutomationStore.lifecycle_eq_some.mp living).2.2.symm

theorem admitted_of_claimed (run : StoreRun) {workItemId : String} {item : WorkItem}
    (found : run.store.work.get? workItemId = some item) (claimed : item.status = .claimed) :
    item.executionId ∈ run.store.admitted := by
  obtain ⟨life, living, work, -⟩ := run.consistent.life_of_work found
  have held := ((run.valid item.executionId life living).2.of_claimed work claimed).1
  simpa [held] using (MemoryAutomationStore.lifecycle_eq_some.mp living).2.2.symm

/-- A second execution beside the sample, of another owner. -/
def otherExecution : AutomationExecution :=
  { sampleExecution with executionId := "other", ownerId := "other" }

/-- A request for one of two slots. -/
def twoSlots (now : Nat) : WorkRequest :=
  { MemoryAutomationStore.sampleRequest now 60 with globalConcurrency := 2 }

/-- Two executions are claimed, both leases expire, and one of them is claimed again. -/
def returningRun : SlotRun where
  limits := {}
  calls := [sampleEnqueue sampleExecution, sampleEnqueue otherExecution, .claimWork (twoSlots 0),
    .claimWork (twoSlots 0), .claimWork (twoSlots 60)]
  promised := ⟨⟨⟨rfl, rfl, rfl, rfl⟩, rfl⟩, ⟨⟨rfl, rfl, rfl, rfl⟩, by decide +kernel⟩, trivial,
    trivial, trivial, trivial⟩
  limit := fun scope => if scope.2.1 = "global" then 2 else 1
  inNamespace := by
    intro request member
    simp only [sampleEnqueue, List.mem_cons, reduceCtorEq, StoreCall.claimWork.injEq,
      List.not_mem_nil, false_or, or_false] at member
    rcases member with rfl | rfl | rfl <;> rfl
  inScope := by
    intro call member execution offered
    simp only [List.mem_cons, List.not_mem_nil, or_false] at member
    rcases member with rfl | rfl | rfl | rfl | rfl <;> cases offered <;> rfl

end SlotRun

end Tinkerfin.Automation
