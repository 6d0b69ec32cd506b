import Tinkerfin.Automation.StoreRuns

/-!
# Starts

The store authorizes the start of an execution at most once.  A started execution is never granted
for execution again: when the lease of its work expires, the next request for work makes it uncertain,
and an uncertain execution stays as it is until a call resolves it.
-/

namespace Tinkerfin.Automation.StoreRun

open MemoryAutomationStore (opened next Promised Refines WorkRequest claimRecovered)

variable {store : MemoryAutomationStore} {call : StoreCall} {executionId : String}

/-- The executions whose start a call authorizes. -/
def startsOf (store : MemoryAutomationStore) : StoreCall → List String
  | .authorizeStart claim executionTimeout checkedAt now startToken =>
    ((MemoryAutomationStore.authorizeClaimStart claim executionTimeout checkedAt now
      startToken).value? store).toList.map (·.execution.executionId)
  | _ => []

/-- The executions a call grants to be executed. -/
def executeClaims (store : MemoryAutomationStore) (call : StoreCall) : List String :=
  ((grantedClaims store call).filter (·.kind == .execute)).map (·.executionId)

/-- An execution was started. -/
def Started (executionId : String) (store : MemoryAutomationStore) : Prop :=
  ∃ life, store.lifecycle executionId = some life ∧
    life.execution.startAuthorizedAt.isSome = true

/-- An authorized start leaves an unstarted execution started. -/
theorem started_of_mem (sound : Sound store) (promised : store.Promised call)
    (starts : executionId ∈ startsOf store call) :
    ¬Started executionId store ∧ Started executionId (store.next call) ∧
      startsOf store call = [executionId] := by
  have valid := (sound.next promised).valid
  cases call with
  | authorizeStart claim executionTimeout checkedAt now startToken =>
    cases outcome : (MemoryAutomationStore.authorizeClaimStart claim executionTimeout checkedAt now
      startToken).value? store with
    | none => simp [startsOf, outcome] at starts
    | some authorization =>
      have refines := MemoryAutomationStore.authorizeClaimStart_refines sound.consistent
        (fun _ => 0) claim executionTimeout checkedAt now startToken
      obtain ⟨-, before, after, found, unstarted, present, same, started⟩ :=
        refines.of_value outcome
      have present : (store.next (.authorizeStart claim executionTimeout checkedAt now
          startToken)).lifecycle claim.executionId = some after := by
        simpa [next, MemoryAutomationStore.perform] using present
      have named : authorization.execution.executionId = claim.executionId :=
        same ▸ (valid claim.executionId after present).1
      simp only [startsOf, outcome, Option.toList_some, List.map_cons, List.map_nil,
        List.mem_singleton, named] at starts ⊢
      subst starts
      refine ⟨?_, ⟨after, present, started⟩, rfl⟩
      rintro ⟨life, living, early⟩
      obtain rfl := Option.some.inj (found.symm.trans living)
      simp [unstarted] at early
  | _ => simp [startsOf] at starts

theorem Started.next (sound : Sound store) (promised : store.Promised call)
    (started : Started executionId store) : Started executionId (store.next call) := by
  obtain ⟨life, living, early⟩ := started
  exact Lives.keeps_start sound.valid (sound.steps promised) living early

theorem Started.not_claimed (sound : Sound store)
    (started : Started executionId store) : executionId ∉ executeClaims store call := by
  intro claimed
  simp only [executeClaims, List.mem_map, List.mem_filter, beq_iff_eq] at claimed
  obtain ⟨claim, ⟨granted, execute⟩, rfl⟩ := claimed
  obtain ⟨now, lives, life, item, workerId, before, found, -, -, -, claimable, -⟩ :=
    grants_of_mem sound.consistent granted
  obtain ⟨early, living, start⟩ := started
  obtain ⟨later, present, kept⟩ := Lives.keeps_start sound.valid before living start
  obtain rfl := Option.some.inj (found.symm.trans present)
  rw [execute] at claimable
  rcases claimCandidate_eq_none.mp claimable with ⟨-, queued, -⟩ | ⟨other, -⟩
  · have unstarted := (sound.valid.steps before claim.executionId life found).2.of_queued queued
    simp [unstarted] at kept
  · cases other

/-! ## Lost claims -/

theorem claimRecovered_frame {«namespace» workItemId other : String} {now : Nat}
    (different : other ≠ workItemId) :
    (claimRecovered «namespace» now store workItemId).work.get? other = store.work.get? other := by
  unfold claimRecovered
  split
  · rfl
  · split
    · split
      · rfl
      · exact MemoryAutomationStore.modifyWork_of_ne different
    · rfl

/-- Recovery of expired work of a started execution makes it uncertain. -/
theorem claimRecovered_uncertain (sound : Sound store) {«namespace» workItemId : String} {now : Nat}
    {item : WorkItem} (found : store.work.get? workItemId = some item)
    (execute : item.kind = .execute)
    (expired : MemoryAutomationStore.leaseExpired item «namespace» now = true)
    (started : Started item.executionId store) :
    ∃ life, (claimRecovered «namespace» now store workItemId).lifecycle item.executionId =
      some life ∧ life.execution.status = .needsAttention := by
  obtain ⟨life, living, start⟩ := started
  obtain ⟨stored, -⟩ := MemoryAutomationStore.lifecycle_eq_some.mp living
  rcases recoverExpiredClaim_cases life.execution item.kind now with ⟨-, -, decided⟩ | ⟨other, -⟩
  · have put : ((claimRecovered «namespace» now store workItemId).executions.get?
        item.executionId).map (·.status) = some .needsAttention := by
      have named := sound.consistent.identified stored
      simp [claimRecovered, found, expired, stored, decided, MemoryAutomationStore.putExecution, named]
    obtain ⟨execution, present, uncertain⟩ := Option.map_eq_some_iff.mp put
    obtain ⟨later, moved, rfl⟩ := MemoryAutomationStore.lifecycle_of_stored present
    exact ⟨later, moved, uncertain⟩
  · exact absurd ⟨execute, start⟩ other

/-- An execution is uncertain. -/
def Uncertain (executionId : String) (store : MemoryAutomationStore) : Prop :=
  ∃ life, store.lifecycle executionId = some life ∧ life.execution.status = .needsAttention

theorem Uncertain.of_refines {permit : Permit} {after : MemoryAutomationStore} (sound : Sound store)
    (refines : Refines permit store after) (unresolved : ¬permit.performed .resolve executionId)
    (uncertain : Uncertain executionId store) : Uncertain executionId after := by
  obtain ⟨life, living, status⟩ := uncertain
  exact ⟨life, Lives.keeps_uncertain sound.valid refines.steps living status unresolved, status⟩

/-- Recovery reaches every expired work item it comes to. -/
theorem recoveries_uncertain {permit : Permit} {«namespace» workItemId : String} {now : Nat}
    {item : WorkItem} (performed : ∀ executionId, permit.performed .recover executionId)
    (unresolved : ¬permit.performed .resolve item.executionId)
    (execute : item.kind = .execute)
    (expired : MemoryAutomationStore.leaseExpired item «namespace» now = true)
    {workItemIds : List String} (member : workItemId ∈ workItemIds) (sound : Sound store)
    (found : store.work.get? workItemId = some item) (started : Started item.executionId store) :
    Uncertain item.executionId (workItemIds.foldl (claimRecovered «namespace» now) store) := by
  induction workItemIds generalizing store with
  | nil => cases member
  | cons first rest ih =>
    have step : Refines permit store (claimRecovered «namespace» now store first) :=
      MemoryAutomationStore.claimRecovered_refines sound.consistent first performed
    have next : Sound (claimRecovered «namespace» now store first) :=
      ⟨step.consistent, sound.valid.steps step.steps⟩
    by_cases same : workItemId = first
    · subst same
      exact Uncertain.of_refines next
        (MemoryAutomationStore.recoveries_refine step.consistent rest performed) unresolved
        (claimRecovered_uncertain sound found execute expired started)
    · obtain ⟨life, living, start⟩ := started
      exact ih (List.mem_of_ne_of_mem same member) next ((claimRecovered_frame same).trans found)
        (Lives.keeps_start sound.valid step.steps living start)

/-- An accepted request for work makes started executions uncertain whose work it finds expired. -/
theorem lost_claim_uncertain (sound : Sound store) {request : WorkRequest}
    (accepted : request.Accepted) (opened : store.closed = false) {workItemId : String}
    {item : WorkItem} (found : store.work.get? workItemId = some item)
    (execute : item.kind = .execute)
    (expired : MemoryAutomationStore.leaseExpired item request.namespace request.now = true)
    (started : Started item.executionId store) :
    Uncertain item.executionId (store.next (.claimWork request)) := by
  let slots : String → Int := fun _ => request.globalConcurrency
  let permit := (StoreCall.claimWork request).permit slots
  have requested : request.globalConcurrency = slots request.namespace := rfl
  have performed : ∀ executionId, permit.performed .recover executionId := fun _ => .inl rfl
  have unresolved : ¬permit.performed .resolve item.executionId := by
    simp [permit, StoreCall.permit, StoreCall.Performs]
  have recovered : Uncertain item.executionId
      (store.claimsRecovered request.namespace request.now) :=
    recoveries_uncertain performed unresolved execute expired
      (Dict.mem_keys_iff.mpr (by simp [found])) sound found started
  have recovery := MemoryAutomationStore.claimsRecovered_refines sound.consistent request.namespace
    request.now performed
  have between : Sound (store.claimsRecovered request.namespace request.now) :=
    ⟨recovery.consistent, sound.valid.steps recovery.steps⟩
  obtain ⟨distinct, offerable⟩ := recovery.consistent.dueWork request.namespace request.now
  have offers := MemoryAutomationStore.claimItems_refines permit recovery.consistent requested rfl
    (fun _ _ => id) [] distinct offerable
  have uncertain : (MemoryAutomationStore.claimWork request).Ensures store
      (fun _ after => Uncertain item.executionId after)
      (fun _ after => Uncertain item.executionId after) := by
    refine MemoryAutomationStore.ensures_claimWork sound.consistent.toStored
      (fun closed => absurd (closed accepted) (by simp [opened])) fun _ _ => ?_
    exact offers.mono (fun _ after claimed => recovered.of_refines between claimed.1 unresolved)
      fun _ after refines => recovered.of_refines between refines unresolved
  simpa [next, MemoryAutomationStore.perform] using uncertain.final

/-- The calls that resolve an execution. -/
def Resolves (executionId : String) : StoreCall → Prop
  | .resolveExecution command _ _ _ => command.executionId = executionId
  | _ => False

/-- The permit that forbids only the resolution of one execution. -/
def unresolving (executionId : String) : Permit :=
  { Permit.unrestricted with
    performed := fun action other => ¬(action = .resolve ∧ other = executionId) }

theorem permits_unresolving {calls : List StoreCall}
    (unresolved : ∀ call ∈ calls, ¬Resolves executionId call) :
    Permits (unresolving executionId) calls := by
  intro call member
  obtain ⟨globalConcurrency, requested⟩ := MemoryAutomationStore.requests_some call
  refine ⟨globalConcurrency, requested, fun _ => le_top, fun _ _ => trivial, ?_⟩
  rintro action other performed ⟨rfl, rfl⟩
  have unresolved := unresolved call member
  cases call <;> simp_all [StoreCall.permit, StoreCall.Performs, Resolves]

/-! ## Runs -/

theorem started_of_log (run : StoreRun) (starts : executionId ∈ run.log startsOf) :
    Started executionId run.store :=
  Machine.guarded_log_bound (fun _ _ sound promised => Sound.next sound promised)
    (fun _ _ _ sound promised starts => (started_of_mem sound promised starts).2.1)
    (fun _ _ _ sound promised started => Started.next sound promised started)
    run.promised (sound_opened run.limits) starts

theorem starts_nodup (run : StoreRun) : (run.log startsOf).Nodup := by
  refine Machine.guarded_log_pairwise (fun _ _ sound promised => Sound.next sound promised)
    (fun _ _ _ sound promised starts => (started_of_mem sound promised starts).2.1)
    (fun _ _ executionId sound promised (started : Started executionId _) =>
      started.next sound promised) ?_ ?_ run.promised (sound_opened run.limits)
  · intro store call sound promised
    cases starts : startsOf store call with
    | nil => exact .nil
    | cons executionId others =>
      have single := (started_of_mem sound promised
        (starts ▸ List.mem_cons_self : executionId ∈ startsOf store call)).2.2
      rw [starts] at single
      rw [single]
      exact List.pairwise_singleton _ _
  · rintro store call executionId _ sound promised started starts rfl
    exact (started_of_mem sound promised starts).1 started

theorem Point.no_execute_claims {run : StoreRun} (point : run.Point)
    (started : Started executionId point.before.store) :
    executionId ∉ point.log executeClaims := by
  intro claimed
  obtain ⟨before, call, after, split, granted⟩ := Machine.mem_log_iff.mp claimed
  have promised := point.promised
  rw [split, Machine.guarded_append] at promised
  have kept : ∀ store call, Sound store ∧ Started executionId store → store.Promised call →
      Sound (store.next call) ∧ Started executionId (store.next call) :=
    fun _ _ ⟨sound, started⟩ promised => ⟨sound.next promised, started.next sound promised⟩
  have still := Machine.guarded_invariant kept promised.1 ⟨point.before.sound, started⟩
  exact still.2.not_claimed still.1 granted

theorem Started.not_queued (sound : Sound store) (started : Started executionId store) :
    ∃ execution, store.executions.get? executionId = some execution ∧
      execution.status ≠ .queued := by
  obtain ⟨life, living, start⟩ := started
  refine ⟨life.execution, (MemoryAutomationStore.lifecycle_eq_some.mp living).1, fun queued => ?_⟩
  simp [(sound.valid executionId life living).2.of_queued queued] at start

/-- The store authorizes the start of each execution once.  After it, the execution is neither queued
nor granted for execution; a request for work that finds the lease of its work expired makes it
uncertain; and an uncertain execution stays as it is until a call resolves it. -/
theorem started_at_most_once (run : StoreRun) :
    (run.log startsOf).Nodup ∧
    (∀ (point : run.Point) executionId, executionId ∈ point.before.log startsOf →
      executionId ∉ point.log executeClaims ∧
      (∃ execution, run.store.executions.get? executionId = some execution ∧
        execution.status ≠ .queued) ∧
      ∀ request rest workItemId item, point.after = .claimWork request :: rest →
        request.Accepted → point.before.store.closed = false →
        point.before.store.work.get? workItemId = some item → item.executionId = executionId →
        item.kind = .execute →
        MemoryAutomationStore.leaseExpired item request.namespace request.now = true →
          ∃ execution, (point.before.store.next (.claimWork request)).executions.get? executionId =
            some execution ∧ execution.status = .needsAttention) ∧
    ∀ (point : run.Point) executionId execution,
      point.before.store.executions.get? executionId = some execution →
      execution.status = .needsAttention → (∀ call ∈ point.after, ¬Resolves executionId call) →
        run.store.executions.get? executionId = some execution := by
  refine ⟨starts_nodup run, fun point executionId starts => ?_, ?_⟩
  · have started := started_of_log point.before starts
    refine ⟨point.no_execute_claims started, ?_, ?_⟩
    · obtain ⟨life, living, start⟩ := started
      exact Started.not_queued run.sound
        (Lives.keeps_start point.before.valid (point.steps (permits_unrestricted _)) living start)
    · rintro request rest workItemId item - accepted opened found rfl execute expired
      obtain ⟨life, living, uncertain⟩ :=
        lost_claim_uncertain point.before.sound accepted opened found execute expired started
      exact ⟨life.execution, (MemoryAutomationStore.lifecycle_eq_some.mp living).1, uncertain⟩
  · intro point executionId execution found uncertain unresolved
    obtain ⟨life, living, rfl⟩ := MemoryAutomationStore.lifecycle_of_stored found
    have kept := Lives.keeps_uncertain point.before.valid
      (point.steps (permits_unresolving unresolved)) living uncertain (by simp [unresolving])
    exact (MemoryAutomationStore.lifecycle_eq_some.mp kept).1

end Tinkerfin.Automation.StoreRun
