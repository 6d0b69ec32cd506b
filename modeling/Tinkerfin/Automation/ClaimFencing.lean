import Tinkerfin.Automation.StoreRuns

/-!
# Claim fencing

Successive claims of one work item carry increasing fences, and the work item backs only the last of
them.  A call made with a claim that was superseded, whose lease ended or whose work item is complete
raises and leaves the store as it is.
-/

namespace Tinkerfin.Automation

open EStateM
open MemoryAutomationStore (opened next perform Promised sampleExecution sampleTask sampleEnqueue
  sampleRequest)

namespace StoreRun

variable {store : MemoryAutomationStore} {call : StoreCall} {claim : WorkItemClaim}

/-! ## Fences -/

/-- The work item of a claim carries its fence or a later one. -/
def Fenced (claim : WorkItemClaim) (store : MemoryAutomationStore) : Prop :=
  ∃ item, store.work.get? claim.workItemId = some item ∧ claim.fence ≤ item.fence

theorem keeps_items (sound : Sound store) {after : MemoryAutomationStore}
    (consistent : after.Consistent) (steps : LivesSteps .unrestricted store.lifecycle after.lifecycle)
    {workItemId : String} {item : WorkItem} (found : store.work.get? workItemId = some item) :
    ∃ later, after.work.get? workItemId = some later ∧ later.executionId = item.executionId ∧
      later.kind = item.kind ∧ item.fence ≤ later.fence := by
  obtain ⟨life, living, work, -⟩ := sound.consistent.life_of_work found
  obtain ⟨last, present, kept⟩ := Lives.keeps_work sound.valid steps living
  obtain ⟨later, stays, same, grows⟩ := kept item.kind item work
  obtain ⟨stored, owner, kind, -⟩ := consistent.of_work present stays
  rw [same, (sound.consistent.keyed found).1] at stored
  exact ⟨later, stored, owner, kind, grows⟩

theorem Fenced.next (sound : Sound store) (promised : store.Promised call)
    (fenced : Fenced claim store) : Fenced claim (store.next call) := by
  obtain ⟨item, found, reached⟩ := fenced
  obtain ⟨later, present, -, -, grows⟩ :=
    keeps_items sound (sound.next promised).consistent (sound.steps promised) found
  exact ⟨later, present, reached.trans grows⟩

/-- A granted claim carries the next fence of its work item. -/
theorem fenced_of_granted (sound : Sound store) (promised : store.Promised call)
    (granted : claim ∈ grantedClaims store call) : Fenced claim (store.next call) ∧
      ∀ item, store.work.get? claim.workItemId = some item → item.fence < claim.fence := by
  obtain ⟨now, lives, life, item, workerId, before, living, work, named, pending, claimable, fence,
    after⟩ := grants_of_mem sound.consistent granted
  have valid := sound.valid.steps before
  have next := (sound.next promised).consistent
  have owned : Lives.Valid (Function.update lives claim.executionId
      (some (life.granted claim.kind (item.claimedBy workerId claim.claimToken)))) :=
    valid.update living rfl ((valid claim.executionId life living).2.claimed work claimable _ _)
  obtain ⟨last, present, kept⟩ := Lives.keeps_work owned after (Function.update_self ..)
  obtain ⟨later, stays, same, grows⟩ := kept claim.kind _ (Function.update_self ..)
  obtain ⟨stored, owner, kind, -⟩ := next.of_work present stays
  rw [same, WorkItem.claimedBy, named] at stored
  have reached : claim.fence ≤ later.fence := by simpa [WorkItem.claimedBy, fence] using grows
  refine ⟨⟨later, stored, reached⟩, fun earlier found => ?_⟩
  -- both items are the one the next store holds, so they belong to one life
  obtain ⟨other, also, sameOwner, sameKind, -⟩ := keeps_items sound next (sound.steps promised) found
  obtain rfl := Option.some.inj (stored.symm.trans also)
  obtain ⟨first, began, works, -⟩ := sound.consistent.life_of_work found
  obtain ⟨middle, moved, carried⟩ := Lives.keeps_work sound.valid before began
  obtain ⟨held, holds, -, lower⟩ := carried earlier.kind earlier works
  rw [← sameOwner, owner, living] at moved
  obtain rfl := Option.some.inj moved
  rw [← sameKind, kind, work] at holds
  obtain rfl := Option.some.inj holds
  omega

theorem fenced_of_log (run : StoreRun) (granted : claim ∈ run.log grantedClaims) :
    Fenced claim run.store :=
  Machine.guarded_log_bound (fun _ _ sound promised => Sound.next sound promised)
    (fun _ _ _ sound promised granted => (fenced_of_granted sound promised granted).1)
    (fun _ _ claim sound promised (fenced : Fenced claim _) => fenced.next sound promised)
    run.promised (sound_opened run.limits) granted

/-- Fences of one work item grow from claim to claim. -/
def Precedes (earlier later : WorkItemClaim) : Prop :=
  earlier.workItemId = later.workItemId → earlier.fence < later.fence

theorem grants_precede (run : StoreRun) : (run.log grantedClaims).Pairwise Precedes := by
  refine Machine.guarded_log_pairwise (fun _ _ sound promised => Sound.next sound promised)
    (fun _ _ _ sound promised granted => (fenced_of_granted sound promised granted).1)
    (fun _ _ claim sound promised (fenced : Fenced claim _) => fenced.next sound promised)
    (fun store call sound _ => ?_) ?_ run.promised (sound_opened run.limits)
  · have distinct := List.pairwise_map.mp (granted_nodup sound.consistent call)
    exact distinct.imp fun different same => absurd same different
  · rintro store call earlier later sound promised ⟨item, found, reached⟩ granted same
    rw [same] at found
    exact reached.trans_lt ((fenced_of_granted sound promised granted).2 item found)

/-! ## Lost claims -/

/-- The store accepts a claim at an instant. -/
def Accepts (store : MemoryAutomationStore) (claim : WorkItemClaim) (now : Nat) : Prop :=
  ∃ item, store.work.get? claim.workItemId = some item ∧ item.Backs claim now

/-- A claim was superseded, its lease ended, or its work item is complete. -/
inductive Lost (run : StoreRun) (claim : WorkItemClaim) (now : Nat) : Prop
  | superseded (later : WorkItemClaim) (granted : later ∈ run.log grantedClaims)
      (same : later.workItemId = claim.workItemId) (newer : claim.fence < later.fence)
  | expired (item : WorkItem) (found : run.store.work.get? claim.workItemId = some item)
      (ended : item.leaseUntil.all (· ≤ now) = true)
  | complete (item : WorkItem) (found : run.store.work.get? claim.workItemId = some item)
      (completed : item.status = .completed)

theorem Lost.not_accepted {run : StoreRun} {now : Nat} (lost : run.Lost claim now) :
    ¬Accepts run.store claim now := by
  rintro ⟨item, found, backs⟩
  cases lost with
  | superseded later granted same newer =>
    obtain ⟨held, present, reached⟩ := fenced_of_log run granted
    rw [same] at present
    obtain rfl := Option.some.inj (found.symm.trans present)
    have fence := backs.fence
    omega
  | expired held present ended =>
    obtain rfl := Option.some.inj (found.symm.trans present)
    obtain ⟨leaseUntil, leased, valid⟩ := backs.leased
    simp only [leased, Option.all_some, decide_eq_true_eq] at ended
    omega
  | complete held present completed =>
    obtain rfl := Option.some.inj (found.symm.trans present)
    simp [backs.claimed] at completed

end StoreRun

/-- A call made with a claim, which the store checks at an instant. -/
def StoreCall.Presents (claim : WorkItemClaim) (checkedAt : Nat) : StoreCall → Prop
  | .renewClaim presented _ instant _ | .authorizeStart presented _ instant _ _
  | .markInterrupted presented _ instant _ _ | .finishExecution presented _ instant _ =>
    presented = claim ∧ instant = checkedAt
  | _ => False

/-- The other arguments of a call made with a claim are valid. -/
def StoreCall.ValidArguments : StoreCall → Prop
  | .renewClaim _ leaseDuration _ _ => 0 < leaseDuration
  | .authorizeStart _ executionTimeout _ _ _ => 0 < executionTimeout
  | .markInterrupted _ interruptIds _ _ _ => interruptIds ≠ []
  | .finishExecution _ report _ _ =>
    report.status.isTerminal = true ∨ report.status = .needsAttention
  | _ => True

namespace StoreRun

variable {store : MemoryAutomationStore} {call : StoreCall} {claim : WorkItemClaim}

theorem ensures_refused {checkedAt : Nat} (lost : ¬Accepts store claim checkedAt)
    {returned : WorkItem → MemoryAutomationStore → Prop} {valid : Prop} :
    (MemoryAutomationStore.validClaim claim checkedAt).Ensures store returned fun error after =>
      after = store ∧ (valid → store.closed = false → error = .claimInvalid claim.workItemId) := by
  refine MemoryAutomationStore.ensures_validClaim.mpr ⟨fun closed => ⟨rfl, fun _ opened => ?_⟩,
    fun _ => ⟨fun item found backs => absurd ⟨item, found, backs⟩ lost, fun _ => ⟨rfl, fun _ _ => rfl⟩⟩⟩
  simp [closed] at opened

/-- A call with a claim that the store does not accept raises and changes nothing. -/
theorem presents_raises {checkedAt : Nat} (lost : ¬Accepts store claim checkedAt)
    (presents : call.Presents claim checkedAt) :
    (perform call).Ensures store (fun _ _ => False) fun error after => after = store ∧
      (call.ValidArguments → store.closed = false → error = .claimInvalid claim.workItemId) := by
  cases call with
  | renewClaim presented leaseDuration instant now =>
    obtain ⟨rfl, rfl⟩ := presents
    simp only [perform, MemoryAutomationStore.renewClaim, ensures_map, ensures_bind, ensures_ite,
      ensures_throw]
    refine ⟨fun invalid => ⟨trivial, fun valid => ?_⟩, fun _ => ensures_refused lost⟩
    exact absurd valid (not_lt.mpr invalid)
  | authorizeStart presented executionTimeout instant now startToken =>
    obtain ⟨rfl, rfl⟩ := presents
    simp only [perform, MemoryAutomationStore.authorizeClaimStart, ensures_map, ensures_bind,
      ensures_ite, ensures_throw]
    refine ⟨fun invalid => ⟨trivial, fun valid => ?_⟩, fun _ => ensures_refused lost⟩
    exact absurd valid (not_lt.mpr invalid)
  | markInterrupted presented interruptIds instant now workItemId =>
    obtain ⟨rfl, rfl⟩ := presents
    simp only [perform, MemoryAutomationStore.markInterrupted, ensures_map, ensures_bind,
      ensures_ite, ensures_throw]
    refine ⟨fun invalid => ⟨trivial, fun valid => ?_⟩, fun _ => ensures_refused lost⟩
    exact absurd (List.isEmpty_iff.mp invalid) valid
  | finishExecution presented report instant now =>
    obtain ⟨rfl, rfl⟩ := presents
    simp only [perform, MemoryAutomationStore.finishClaimed, ensures_map, ensures_bind,
      ensures_ite, ensures_throw]
    refine ⟨fun both => ⟨trivial, fun valid => ?_⟩, fun _ => ensures_refused lost⟩
    obtain ⟨unsettled, certain⟩ := both
    rcases valid with terminal | uncertain
    · simp [terminal] at unsettled
    · exact absurd uncertain certain
  | _ => cases presents

/-! ## Runs -/

theorem accepted_unique (run : StoreRun) {other : WorkItemClaim} {now later : Nat}
    (granted : claim ∈ run.log grantedClaims) (others : other ∈ run.log grantedClaims)
    (same : claim.workItemId = other.workItemId) (accepted : Accepts run.store claim now)
    (accepts : Accepts run.store other later) : claim = other := by
  obtain ⟨item, found, backs⟩ := accepted
  obtain ⟨held, present, backed⟩ := accepts
  rw [same] at found
  obtain rfl := Option.some.inj (found.symm.trans present)
  by_contra different
  let Apart := fun earlier later : WorkItemClaim =>
    earlier.workItemId = later.workItemId → earlier.fence ≠ later.fence
  have apart : (run.log grantedClaims).Pairwise Apart :=
    (grants_precede run).imp fun precedes same => (precedes same).ne
  have symmetric : Std.Symm Apart := ⟨fun _ _ apart same => (apart same.symm).symm⟩
  exact apart.forall granted others different same (backs.fence.symm.trans backed.fence)

/-- A materialization of a wakeup the task no longer waits for changes nothing. -/
def StaleMaterialization (store : MemoryAutomationStore) (task : AutomationTask)
    (expectedNextRunAt : Nat) (current : AutomationTask) : Prop :=
  store.closed = false ∧ store.tasks.get? task.taskId = some current ∧
    current.namespace = task.namespace ∧ current.ownerId = task.ownerId ∧
    materializationIsCurrent current task expectedNextRunAt = false

theorem stale_materialization {task current : AutomationTask} {expectedNextRunAt : Nat}
    (stale : StaleMaterialization store task expectedNextRunAt current)
    (executions : List (ScheduledExecution × String)) (now : Nat) :
    (perform (.materializeTask task expectedNextRunAt executions now)).Ensures store
      (fun reply after => reply = .materialized { task := current, executions := [] } ∧
        after = store) (fun _ _ => False) := by
  obtain ⟨opened, found, sameNamespace, sameOwner, outdated⟩ := stale
  simp only [perform, MemoryAutomationStore.materializeTask, ensures_map, ensures_bind,
    MemoryAutomationStore.ensures_ensureOpen, MemoryAutomationStore.ensures_ownedTask, ensures_ite,
    ensures_pure]
  refine ⟨fun closed => by simp [closed] at opened, fun _ => ⟨fun stored present _ _ => ?_, ?_⟩⟩
  · obtain rfl := Option.some.inj (found.symm.trans present)
    exact ⟨fun _ => ⟨rfl, trivial⟩, fun fresh => absurd (by simp [outdated]) fresh⟩
  · exact fun foreign => foreign current found sameNamespace sameOwner

/-- Fences of successive claims of one work item grow, and the store accepts at most one of them.  A
call made with a claim that was superseded, whose lease ended or whose work item is complete raises
and changes nothing; it raises the loss of the claim unless its other arguments are invalid or the
store is closed.  A materialization takes no claim: one of a wakeup that has passed returns the
stored task and changes nothing. -/
theorem claims_fenced (run : StoreRun) :
    (run.log grantedClaims).Pairwise Precedes ∧
    (∀ claim ∈ run.log grantedClaims, ∀ other ∈ run.log grantedClaims,
      claim.workItemId = other.workItemId → ∀ now, Accepts run.store claim now →
        Accepts run.store other now → claim = other) ∧
    (∀ claim checkedAt call, run.Lost claim checkedAt → call.Presents claim checkedAt →
      (perform call).Ensures run.store (fun _ _ => False) fun error after => after = run.store ∧
        (call.ValidArguments → run.store.closed = false →
          error = .claimInvalid claim.workItemId)) ∧
    ∀ task expectedNextRunAt current executions now,
      StaleMaterialization run.store task expectedNextRunAt current →
        (perform (.materializeTask task expectedNextRunAt executions now)).Ensures run.store
          (fun reply after => reply = .materialized { task := current, executions := [] } ∧
            after = run.store) (fun _ _ => False) :=
  ⟨grants_precede run, fun _ granted _ others same _ accepted accepts =>
    accepted_unique run granted others same accepted accepts,
    fun _ _ _ lost presents => presents_raises lost.not_accepted presents,
    fun _ _ _ executions now stale => stale_materialization stale executions now⟩

/-- A call raises the loss of a claim. -/
def RaisesClaimLost (store : MemoryAutomationStore) (call : StoreCall) : Prop :=
  ∃ message context after,
    (perform call).run store = .error (.automation .claimLost message context) after

theorem not_raisesClaimLost
    (ensures : (perform call).Ensures store (fun _ _ => True) fun error _ =>
      ∀ message context, error ≠ .automation .claimLost message context) :
    ¬RaisesClaimLost store call := by
  rintro ⟨message, context, after, outcome⟩
  exact ensures.of_error outcome message context rfl

/-- The sample execution is claimed, and then some other calls follow. -/
def claimedRun (calls : List StoreCall) (promised : Machine.Guarded next Promised
    (Machine.run next (opened {}) [sampleEnqueue sampleExecution, .claimWork (sampleRequest 0 60)])
      calls) : StoreRun where
  limits := {}
  calls := [sampleEnqueue sampleExecution, .claimWork (sampleRequest 0 60)] ++ calls
  promised := Machine.guarded_append.mpr ⟨⟨⟨⟨rfl, rfl, rfl, rfl⟩, rfl⟩, trivial, trivial⟩, promised⟩

/-- The claim of that run. -/
def sampleClaim : WorkItemClaim where
  workItemId := "execution"
  «namespace» := "tenant"
  executionId := "execution"
  kind := .execute
  claimToken := "token"
  fence := 1
  leaseUntil := 60

/-- An invalid argument and a closed store are raised before the loss of the claim, and a stale
materialization does not raise. -/
theorem lost_claims_raise_otherwise :
    (¬∀ (run : StoreRun) claim checkedAt call, run.Lost claim checkedAt →
      call.Presents claim checkedAt → run.store.closed = false → RaisesClaimLost run.store call) ∧
    (¬∀ (run : StoreRun) claim checkedAt call, run.Lost claim checkedAt →
      call.Presents claim checkedAt → call.ValidArguments → RaisesClaimLost run.store call) ∧
    ¬∀ (run : StoreRun) task expectedNextRunAt current executions now,
      StaleMaterialization run.store task expectedNextRunAt current →
        RaisesClaimLost run.store (.materializeTask task expectedNextRunAt executions now) := by
  let held := ((Lifecycle.newWork sampleExecution .execute 0 "execution" 0).claimedBy "worker"
    "token").leased 60
  refine ⟨fun raises => ?_, fun raises => ?_, fun raises => ?_⟩
  · let run := claimedRun [] trivial
    have found : run.store.work.get? "execution" = some held := by decide +kernel
    have invalid : ¬RaisesClaimLost run.store (.renewClaim sampleClaim 0 60 60) := by
      refine not_raisesClaimLost ?_
      simp [perform, MemoryAutomationStore.renewClaim, ensures_bind]
    exact invalid (raises run sampleClaim 60 _ (.expired held found rfl) ⟨rfl, rfl⟩
      (by decide +kernel))
  · let run := claimedRun [.close] ⟨trivial, trivial⟩
    have found : run.store.work.get? "execution" = some held := by decide +kernel
    have shut : run.store.closed = true := by decide +kernel
    have closed : ¬RaisesClaimLost run.store (.renewClaim sampleClaim 60 60 60) := by
      refine not_raisesClaimLost ?_
      simp [perform, MemoryAutomationStore.renewClaim, ensures_bind,
        MemoryAutomationStore.ensures_validClaim, shut, Raised.storeClosed]
    exact closed (raises run sampleClaim 60 _ (.expired held found rfl) ⟨rfl, rfl⟩
      (by decide : (0 : Int) < 60))
  · let run : StoreRun := ⟨{}, [.createTask sampleTask none ""], trivial, trivial⟩
    have found : run.store.tasks.get? "task" = some sampleTask := by rfl
    have stale : StaleMaterialization run.store sampleTask 1 sampleTask :=
      ⟨by decide +kernel, found, rfl, rfl, by decide +kernel⟩
    have returns : ¬RaisesClaimLost run.store (.materializeTask sampleTask 1 [] 0) :=
      not_raisesClaimLost ((stale_materialization stale [] 0).mono (fun _ _ _ => trivial)
        fun _ _ => False.elim)
    exact returns (raises run sampleTask 1 sampleTask [] 0 stale)

end StoreRun

end Tinkerfin.Automation
