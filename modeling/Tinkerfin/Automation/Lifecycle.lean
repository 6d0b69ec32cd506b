import Mathlib.Logic.Function.Basic
import Tinkerfin.Automation.Memory

/-!
# The life of one execution

What a store holds about one execution: its record, its work item of each kind, and whether it holds
concurrency slots.  `LifecycleStep` lists everything an operation can do to it, each step through the
rule that decides it.  `Lifecycle.Valid` links the status, the work items and the slots; every step
keeps it.
-/

namespace Tinkerfin.Automation

open Function (update)

/-- One execution with its work items and its admission. -/
structure Lifecycle where
  execution : AutomationExecution
  work : WorkKind → Option WorkItem
  admitted : Bool

namespace Lifecycle

/-- The work items once a change has completed some of them. -/
def completed (work : WorkKind → Option WorkItem) (which : CompleteWork) (current : WorkKind) :
    WorkKind → Option WorkItem :=
  match which with
  | .none => work
  | .current => update work current ((work current).map (·.released .completed))
  | .all => fun kind => (work kind).map (·.released .completed)

/-- A new work item of an execution. -/
def newWork (execution : AutomationExecution) (kind : WorkKind) (availableAt : Nat)
    (workItemId : String) (createdAt : Nat) : WorkItem where
  workItemId
  «namespace» := execution.namespace
  executionId := execution.executionId
  kind
  availableAt
  createdAt

/-- The work items once a deadline check has been scheduled. -/
def scheduled (work : WorkKind → Option WorkItem) (execution : AutomationExecution)
    (deadline : Option Nat) (workItemId : String) (createdAt : Nat) :
    WorkKind → Option WorkItem :=
  match deadline with
  | none => work
  | some deadline =>
    update work .expireInterrupt (some ((work .expireInterrupt).elim
      (newWork execution .expireInterrupt deadline workItemId createdAt)
      (·.rescheduled deadline)))

/-- The effect of a rule's transition, decided for the work item of one kind. -/
def applied (life : Lifecycle) (transition : ExecutionTransition) (current : WorkKind)
    (workItemId : String) (createdAt : Nat) : Lifecycle where
  execution := transition.execution
  work := scheduled (completed life.work transition.completeWork current) transition.execution
    transition.deadlineWorkAt workItemId createdAt
  admitted := life.admitted && !transition.releaseCapacity

/-- Recovery of the work item of one kind whose lease expired. -/
def recovered (life : Lifecycle) (kind : WorkKind) (now : Nat) : Lifecycle :=
  let transition := recoverExpiredClaim life.execution kind now
  { life with
    execution := transition.execution
    work := update life.work kind ((life.work kind).map fun item =>
      item.released (if transition.completeWork = .none then .pending else .completed)) }

/-- One work item granted to a worker; work to execute takes slots. -/
def granted (life : Lifecycle) (kind : WorkKind) (item : WorkItem) : Lifecycle :=
  { life with
    work := update life.work kind (some item)
    admitted := life.admitted || kind == .execute }

@[simp] theorem granted_execution (life : Lifecycle) (kind : WorkKind) (item : WorkItem) :
    (life.granted kind item).execution = life.execution := rfl

@[simp] theorem granted_work (life : Lifecycle) (kind : WorkKind) (item : WorkItem) :
    (life.granted kind item).work = update life.work kind (some item) := rfl

@[simp] theorem granted_admitted (life : Lifecycle) (kind : WorkKind) (item : WorkItem) :
    (life.granted kind item).admitted = (life.admitted || kind == .execute) := rfl

/-- The concurrency scopes of an execution. -/
def scopes (life : Lifecycle) : List ScopeKey :=
  [globalScope life.execution.namespace, taskScope life.execution]

end Lifecycle

/-- The operation behind a change of one execution. -/
inductive LifecycleAction
  | skip
  | claim
  | recover
  | renew
  | start
  | interrupt
  | finish
  | cancel
  | resolve
  deriving DecidableEq, Repr

open Lifecycle in
/-- Everything an operation can do to one execution. -/
inductive LifecycleStep : LifecycleAction → Lifecycle → Lifecycle → Prop
  | skipped {life : Lifecycle} (kind : WorkKind) (item : WorkItem)
      (work : life.work kind = some item) (pending : item.status = .pending) (now : Nat)
      (transition : ExecutionTransition)
      (decided : claimCandidate life.execution kind now = some transition) (workItemId : String) :
      LifecycleStep .skip life (life.applied transition kind workItemId now)
  | claimed {life : Lifecycle} (kind : WorkKind) (item : WorkItem)
      (work : life.work kind = some item) (pending : item.status = .pending) (now : Nat)
      (claimable : claimCandidate life.execution kind now = none) (workerId claimToken : String) :
      LifecycleStep .claim life (life.granted kind (item.claimedBy workerId claimToken))
  | recovered {life : Lifecycle} (kind : WorkKind) (item : WorkItem)
      (work : life.work kind = some item) (claimed : item.status = .claimed) (now : Nat) :
      LifecycleStep .recover life (life.recovered kind now)
  | renewed {life : Lifecycle} (kind : WorkKind) (item : WorkItem)
      (work : life.work kind = some item) (claimed : item.status = .claimed) (leaseUntil : Nat) :
      LifecycleStep .renew life { life with
        work := update life.work kind (some (item.leased leaseUntil)) }
  | started {life : Lifecycle} (kind : WorkKind) (item : WorkItem)
      (work : life.work kind = some item) (claimed : item.status = .claimed)
      (leased : item.leaseUntil.isSome = true) (now : Nat) (timeout : Int) (token : String)
      (authorization : StartAuthorization)
      (decided : authorizeStart life.execution kind life.admitted now timeout token =
        .ok authorization) :
      LifecycleStep .start life { life with execution := authorization.execution }
  | interrupted {life : Lifecycle} (kind : WorkKind) (item : WorkItem)
      (work : life.work kind = some item) (claimed : item.status = .claimed)
      (interruptIds : List String) (now : Nat) (transition : ExecutionTransition)
      (decided : interruptExecution life.execution interruptIds now = .ok transition)
      (workItemId : String) :
      LifecycleStep .interrupt life (life.applied transition kind workItemId now)
  | finished {life : Lifecycle} (kind : WorkKind) (item : WorkItem)
      (work : life.work kind = some item) (claimed : item.status = .claimed)
      (report : FinishReport) (now : Nat) (transition : ExecutionTransition)
      (decided : finishExecution life.execution report now = .ok transition) (workItemId : String) :
      LifecycleStep .finish life (life.applied transition kind workItemId now)
  | cancelled {life : Lifecycle} (now : Nat) (transition : ExecutionTransition)
      (decided : cancelExecution life.execution now = .ok transition) (kind : WorkKind)
      (workItemId : String) :
      LifecycleStep .cancel life (life.applied transition kind workItemId now)
  | resolved {life : Lifecycle} (resolution : AttentionResolution) (reason : String) (now : Nat)
      (transition : ExecutionTransition)
      (decided : resolveExecution life.execution resolution reason now = .ok transition)
      (kind : WorkKind) (workItemId : String) :
      LifecycleStep .resolve life (life.applied transition kind workItemId now)

/-- Status, work items and slots of an execution agree. -/
inductive Lifecycle.Valid (life : Lifecycle) : Prop
  | queued (item : WorkItem) (status : life.execution.status = .queued)
      (work : life.work .execute = some item) (unfinished : item.status ≠ .completed)
      (noDeadlineWork : life.work .expireInterrupt = none)
      (unstarted : life.execution.startAuthorizedAt = none)
      (noDeadline : life.execution.executionDeadline = none)
      (held : item.status = .claimed → life.admitted = true)
  | active (item : WorkItem)
      (status : life.execution.status = .running ∨ life.execution.status = .cancelRequested)
      (work : life.work .execute = some item) (claimed : item.status = .claimed)
      (leased : item.leaseUntil.isSome = true) (noDeadlineWork : life.work .expireInterrupt = none)
      (started : life.execution.startAuthorizedAt.isSome = true)
      (deadline : life.execution.executionDeadline.isSome = true) (held : life.admitted = true)
  | interrupted (item : WorkItem) (status : life.execution.status = .interrupted)
      (finished : ∀ item, life.work .execute = some item → item.status = .completed)
      (work : life.work .expireInterrupt = some item) (unfinished : item.status ≠ .completed)
      (atDeadline : life.execution.executionDeadline = some item.availableAt)
      (started : life.execution.startAuthorizedAt.isSome = true) (held : life.admitted = true)
  | settled
      (status : life.execution.status = .needsAttention ∨ life.execution.status.isTerminal = true)
      (finished : ∀ kind item, life.work kind = some item → item.status = .completed)
      (held : life.admitted = !life.execution.status.isTerminal)

namespace Lifecycle

/-- A newly queued execution with its work item. -/
structure Entered (life : Lifecycle) : Prop where
  status : life.execution.status = .queued
  unstarted : life.execution.startAuthorizedAt = none
  noDeadline : life.execution.executionDeadline = none
  canonical : life.execution.canonical = true
  work : ∃ item, life.work .execute = some item ∧ item.status = .pending
  noDeadlineWork : life.work .expireInterrupt = none
  notAdmitted : life.admitted = false

theorem Entered.valid {life : Lifecycle} (entered : life.Entered) : life.Valid := by
  obtain ⟨item, work, pending⟩ := entered.work
  exact .queued item entered.status work (by simp [pending]) entered.noDeadlineWork
    entered.unstarted entered.noDeadline fun claimed => by simp [pending] at claimed

variable {life after : Lifecycle} {kind : WorkKind} {item : WorkItem}

/-! ## Reading a valid life -/

theorem Valid.of_pending_execute (valid : life.Valid) (work : life.work .execute = some item)
    (pending : item.status = .pending) : life.execution.status = .queued := by
  cases valid with
  | queued _ status => exact status
  | active other _ found claimed =>
    obtain rfl := Option.some.inj (work.symm.trans found)
    simp [pending] at claimed
  | interrupted _ _ finished => simp [finished item work] at pending
  | settled _ finished => simp [finished _ item work] at pending

theorem Valid.of_pending_expiry (valid : life.Valid)
    (work : life.work .expireInterrupt = some item) (pending : item.status = .pending) :
    life.execution.status = .interrupted := by
  cases valid with
  | queued _ _ _ _ none | active _ _ _ _ _ none => simp [none] at work
  | interrupted _ status => exact status
  | settled _ finished => simp [finished _ item work] at pending

theorem Valid.of_queued (valid : life.Valid) (queued : life.execution.status = .queued) :
    life.execution.startAuthorizedAt = none := by
  cases valid with
  | queued _ _ _ _ _ unstarted => exact unstarted
  | active _ status => simp [queued] at status
  | interrupted _ status => simp [queued] at status
  | settled status => simp [queued, ExecutionStatus.isTerminal] at status

theorem Valid.skipped_expires (valid : life.Valid) (work : life.work kind = some item)
    (pending : item.status = .pending) {now : Nat} {transition : ExecutionTransition}
    (decided : claimCandidate life.execution kind now = some transition) :
    kind = .execute ∧ life.execution.status = .queued ∧
      transition = expireQueued life.execution now := by
  rcases claimCandidate_eq_some decided with ⟨-, ⟨rfl, other⟩ | ⟨rfl, other⟩⟩ | ⟨expired, rfl, queued⟩
  · exact absurd (valid.of_pending_execute work pending) other
  · exact absurd (valid.of_pending_expiry work pending) other
  · exact ⟨rfl, queued, expired⟩

/-- A claimed work item belongs to an admitted, unsettled execution. -/
theorem Valid.of_claimed (valid : life.Valid) (work : life.work kind = some item)
    (claimed : item.status = .claimed) :
    life.admitted = true ∧
      (kind = .execute ∧ (life.execution.status = .queued ∨ life.execution.status = .running ∨
          life.execution.status = .cancelRequested) ∨
        kind = .expireInterrupt ∧ life.execution.status = .interrupted) := by
  cases valid with
  | queued own status found _ none _ _ held =>
    cases kind with
    | execute =>
      obtain rfl := Option.some.inj (found.symm.trans work)
      exact ⟨held claimed, .inl ⟨rfl, .inl status⟩⟩
    | expireInterrupt => simp [none] at work
  | active own status found _ _ none _ _ held =>
    cases kind with
    | execute => exact ⟨held, .inl ⟨rfl, .inr status⟩⟩
    | expireInterrupt => simp [none] at work
  | interrupted own status finished found _ _ _ held =>
    cases kind with
    | execute => simp [finished item work] at claimed
    | expireInterrupt => exact ⟨held, .inr ⟨rfl, status⟩⟩
  | settled _ finished => simp [finished _ item work] at claimed

theorem Valid.not_admitted (valid : life.Valid) (terminal : life.execution.status.isTerminal = true) :
    life.admitted = false := by
  cases valid with
  | queued _ status | interrupted _ status => rw [status] at terminal; cases terminal
  | active _ status => rcases status with status | status <;> rw [status] at terminal <;> cases terminal
  | settled _ _ held => rw [held, terminal]; rfl

/-! ## Every step keeps a valid life -/

/-- A change that completes all work settles an execution. -/
theorem applied_all_valid {transition : ExecutionTransition} {current : WorkKind}
    {workItemId : String} {createdAt : Nat} (all : transition.completeWork = .all)
    (noDeadline : transition.deadlineWorkAt = none)
    (status : transition.execution.status = .needsAttention ∨
      transition.execution.status.isTerminal = true)
    (released : transition.releaseCapacity = transition.execution.status.isTerminal)
    (held : life.admitted = true ∨ transition.execution.status.isTerminal = true) :
    (life.applied transition current workItemId createdAt).Valid := by
  refine .settled status ?_ ?_
  · intro kind item found
    simp only [applied, scheduled, noDeadline, completed, all] at found
    obtain ⟨before, -, rfl⟩ := Option.map_eq_some_iff.mp found
    rfl
  · simp only [applied, released]
    rcases held with held | terminal
    · rw [held, Bool.true_and]
    · rw [terminal, Bool.not_true, Bool.and_false]

theorem Valid.skipped (valid : life.Valid) (work : life.work kind = some item)
    (pending : item.status = .pending) {now : Nat} {transition : ExecutionTransition}
    (decided : claimCandidate life.execution kind now = some transition) (workItemId : String) :
    (life.applied transition kind workItemId now).Valid := by
  obtain ⟨rfl, queued, rfl⟩ := valid.skipped_expires work pending decided
  refine .settled (.inr rfl) ?_ (by simp [applied, expireQueued, ExecutionStatus.isTerminal])
  intro kind found member
  simp only [applied, scheduled, completed, expireQueued] at member
  cases kind with
  | execute =>
    simp only [Function.update_self, work, Option.map_some, Option.some.injEq] at member
    exact member ▸ rfl
  | expireInterrupt =>
    rw [Function.update_of_ne (by simp)] at member
    cases valid with
    | queued _ _ _ _ none => simp [none] at member
    | active _ status => simp [queued] at status
    | interrupted _ status => simp [queued] at status
    | settled status => simp [queued, ExecutionStatus.isTerminal] at status

theorem Valid.claimed (valid : life.Valid) (work : life.work kind = some item) {now : Nat}
    (claimable : claimCandidate life.execution kind now = none) (workerId claimToken : String) :
    (life.granted kind (item.claimedBy workerId claimToken)).Valid := by
  rcases claimCandidate_eq_none.mp claimable with ⟨rfl, queued, -⟩ | ⟨rfl, waiting⟩
  · cases valid with
    | queued own status found unfinished none unstarted noDeadline held =>
      refine .queued (item.claimedBy workerId claimToken) queued (by simp)
        (by simp [WorkItem.claimedBy]) ?_ unstarted noDeadline fun _ => by simp
      simpa using none
    | active _ status => simp [queued] at status
    | interrupted _ status => simp [queued] at status
    | settled status => simp [queued, ExecutionStatus.isTerminal] at status
  · cases valid with
    | queued _ status => simp [waiting] at status
    | active _ status => simp [waiting] at status
    | interrupted own status finished found unfinished atDeadline started held =>
      obtain rfl := Option.some.inj (work.symm.trans found)
      refine .interrupted (item.claimedBy workerId claimToken) waiting ?_ (by simp)
        (by simp [WorkItem.claimedBy]) atDeadline started (by simp [held])
      simpa using finished
    | settled status => simp [waiting, ExecutionStatus.isTerminal] at status

theorem Valid.recovered (valid : life.Valid) (work : life.work kind = some item)
    (claimed : item.status = .claimed) (now : Nat) : (life.recovered kind now).Valid := by
  have recovered : (life.recovered kind now).work = update life.work kind (some (item.released
      (if (recoverExpiredClaim life.execution kind now).completeWork = .none then .pending
        else .completed))) := by
    simp only [Lifecycle.recovered, work, Option.map_some]
  rcases recoverExpiredClaim_cases life.execution kind now with ⟨rfl, started, decided⟩ |
    ⟨unstarted, decided⟩
  · refine .settled (.inl (by simp [Lifecycle.recovered, decided])) ?_ ?_
    · intro kind found member
      rw [recovered, decided] at member
      cases kind with
      | execute =>
        simp only [reduceCtorEq, if_false, Function.update_self, Option.some.injEq] at member
        exact member ▸ rfl
      | expireInterrupt =>
        rw [Function.update_of_ne (by simp)] at member
        cases valid with
        | queued _ _ _ _ none | active _ _ _ _ _ none => simp [none] at member
        | interrupted _ _ finished => simp [finished _ work] at claimed
        | settled _ finished => exact finished _ _ member
    · have held := (valid.of_claimed work claimed).1
      simp [Lifecycle.recovered, decided, held, ExecutionStatus.isTerminal]
  · have same : life.recovered kind now =
        { life with work := update life.work kind (some (item.released .pending)) } := by
      simp only [Lifecycle.recovered, decided, work, Option.map_some, if_true]
    rw [same]
    cases valid with
    | queued own status found _ none noStart noDeadline _ =>
      cases kind with
      | execute =>
        exact .queued (item.released .pending) status (by simp)
          (by simp [WorkItem.released]) (by simpa using none) noStart noDeadline fun claimed => by
            simp [WorkItem.released] at claimed
      | expireInterrupt => simp [none] at work
    | active own _ found _ _ none started =>
      cases kind with
      | execute => exact absurd ⟨rfl, started⟩ unstarted
      | expireInterrupt => simp [none] at work
    | interrupted own status finished found _ atDeadline started held =>
      cases kind with
      | execute => simp [finished item work] at claimed
      | expireInterrupt =>
        obtain rfl := Option.some.inj (work.symm.trans found)
        exact .interrupted (item.released .pending) status (by simpa using finished)
          (by simp) (by simp [WorkItem.released]) atDeadline started held
    | settled _ finished => simp [finished _ item work] at claimed

theorem Valid.renewed (valid : life.Valid) (work : life.work kind = some item)
    (claimed : item.status = .claimed) (leaseUntil : Nat) :
    Valid { life with
      work := update life.work kind (some (item.leased leaseUntil)) } := by
  cases valid with
  | queued own status found unfinished none unstarted noDeadline held =>
    cases kind with
    | execute =>
      obtain rfl := Option.some.inj (work.symm.trans found)
      exact .queued (item.leased leaseUntil) status (by simp) unfinished (by simpa using none)
        unstarted noDeadline held
    | expireInterrupt => simp [none] at work
  | active own status found owned leased none started deadline held =>
    cases kind with
    | execute =>
      exact .active (item.leased leaseUntil) status (by simp) claimed rfl (by simpa using none)
        started deadline held
    | expireInterrupt => simp [none] at work
  | interrupted own status finished found unfinished atDeadline started held =>
    cases kind with
    | execute => simp [finished item work] at claimed
    | expireInterrupt =>
      obtain rfl := Option.some.inj (work.symm.trans found)
      exact .interrupted (item.leased leaseUntil) status (by simpa using finished) (by simp)
        unfinished atDeadline started held
  | settled _ finished => simp [finished _ item work] at claimed

theorem Valid.started (valid : life.Valid) (work : life.work kind = some item)
    (claimed : item.status = .claimed) (leased : item.leaseUntil.isSome = true) {now : Nat}
    {timeout : Int} {token : String} {authorization : StartAuthorization}
    (decided : authorizeStart life.execution kind life.admitted now timeout token =
      .ok authorization) :
    Valid { life with execution := authorization.execution } := by
  obtain ⟨rfl, -, queued, held, deadline, started⟩ := authorizeStart_eq_ok decided
  rw [started]
  cases valid with
  | queued own _ found _ none =>
    exact .active item (.inl rfl) work claimed leased none rfl rfl held
  | active _ status => simp [queued] at status
  | interrupted _ status => simp [queued] at status
  | settled status => simp [queued, ExecutionStatus.isTerminal] at status

theorem Valid.interrupt (valid : life.Valid) (work : life.work kind = some item)
    (claimed : item.status = .claimed) {interruptIds : List String} {now : Nat}
    {transition : ExecutionTransition}
    (decided : interruptExecution life.execution interruptIds now = .ok transition)
    (workItemId : String) : (life.applied transition kind workItemId now).Valid := by
  obtain ⟨deadline, running, rfl⟩ := interruptExecution_eq_ok decided
  have held := (valid.of_claimed work claimed).1
  have completedItem : ∀ found, update life.work kind ((life.work kind).map
      (·.released .completed)) .execute = some found → found.status = .completed := by
    intro found member
    cases kind with
    | execute =>
      simp only [Function.update_self, work, Option.map_some, Option.some.injEq] at member
      exact member ▸ rfl
    | expireInterrupt =>
      rw [Function.update_of_ne (by simp)] at member
      cases valid with
      | queued _ _ _ _ none | active _ _ _ _ _ none => simp [none] at work
      | interrupted _ _ finished => exact finished _ member
      | settled _ finished => exact finished _ _ member
  have started : life.execution.startAuthorizedAt.isSome = true := by
    cases valid with
    | queued _ _ _ _ _ _ noDeadline => simp [noDeadline] at running
    | active _ _ _ _ _ _ started => exact started
    | interrupted _ _ _ _ _ _ started => exact started
    | settled _ finished => simp [finished _ item work] at claimed
  have checked : ∃ check : WorkItem, (life.applied {
        execution := { life.execution with
          status := .interrupted
          interruptIds := interruptIds.reverse.dedup.reverse
          updatedAt := now }
        completeWork := .current
        deadlineWorkAt := some deadline } kind workItemId now).work .expireInterrupt = some check ∧
      check.status = .pending ∧ check.availableAt = deadline := by
    simp only [applied, scheduled, Function.update_self, Option.some.injEq, exists_eq_left']
    cases completed life.work .current kind .expireInterrupt <;> exact ⟨rfl, rfl⟩
  obtain ⟨check, found, pending, atDeadline⟩ := checked
  refine .interrupted check rfl ?_ found (by simp [pending]) ?_ started (by simp [applied, held])
  · intro found member
    simp only [applied, scheduled, ne_eq, reduceCtorEq, not_false_eq_true,
      Function.update_of_ne] at member
    exact completedItem found member
  · rw [atDeadline]
    exact running

theorem Valid.finish (valid : life.Valid) (work : life.work kind = some item)
    (claimed : item.status = .claimed) {report : FinishReport} {now : Nat}
    {transition : ExecutionTransition}
    (decided : finishExecution life.execution report now = .ok transition) (workItemId : String) :
    (life.applied transition kind workItemId now).Valid := by
  obtain ⟨status, rfl⟩ := finishExecution_eq_ok decided
  exact applied_all_valid rfl rfl status.symm rfl (.inl (valid.of_claimed work claimed).1)

theorem Valid.cancel (valid : life.Valid) {now : Nat} {transition : ExecutionTransition}
    (decided : cancelExecution life.execution now = .ok transition) (kind : WorkKind)
    (workItemId : String) : (life.applied transition kind workItemId now).Valid := by
  rcases cancelExecution_eq_ok decided with ⟨-, rfl⟩ | ⟨running, rfl⟩ | ⟨-, rfl⟩
  · exact applied_all_valid rfl rfl (.inr rfl) rfl (.inr rfl)
  · have kept : (life.applied { execution := { life.execution with
        status := .cancelRequested, updatedAt := now } } kind workItemId now) =
        { life with execution := { life.execution with
          status := .cancelRequested, updatedAt := now } } := by
      simp [applied, scheduled, completed]
    rw [kept]
    cases valid with
    | queued _ status => simp [running] at status
    | active item _ work claimed leased none started deadline held =>
      exact .active item (.inr rfl) work claimed leased none started deadline held
    | interrupted _ status => simp [running] at status
    | settled status => simp [running, ExecutionStatus.isTerminal] at status
  · have kept : life.applied { execution := life.execution } kind workItemId now = life := by
      simp [applied, scheduled, completed]
    rwa [kept]

theorem Valid.resolve (valid : life.Valid) {resolution : AttentionResolution} {reason : String}
    {now : Nat} {transition : ExecutionTransition}
    (decided : resolveExecution life.execution resolution reason now = .ok transition)
    (kind : WorkKind) (workItemId : String) :
    (life.applied transition kind workItemId now).Valid := by
  obtain ⟨uncertain, _, _, rfl⟩ := resolveExecution_eq_ok decided
  have terminal := resolution.status_isTerminal
  refine .settled (.inr terminal) ?_ (by simp [applied, terminal])
  simp only [applied, scheduled, completed]
  cases valid with
  | queued _ status => simp [uncertain] at status
  | active _ status => simp [uncertain] at status
  | interrupted _ status => simp [uncertain] at status
  | settled _ finished => exact finished

end Lifecycle

/-- Every step keeps a valid life. -/
theorem LifecycleStep.valid {action : LifecycleAction} {life after : Lifecycle}
    (step : LifecycleStep action life after)
    (valid : life.Valid) : after.Valid := by
  cases step with
  | skipped kind item work pending now transition decided workItemId =>
    exact valid.skipped work pending decided workItemId
  | claimed kind item work pending now claimable workerId claimToken =>
    exact valid.claimed work claimable workerId claimToken
  | recovered kind item work claimed now => exact valid.recovered work claimed now
  | renewed kind item work claimed leaseUntil => exact valid.renewed work claimed leaseUntil
  | started kind item work claimed leased now timeout token authorization decided =>
    exact valid.started work claimed leased decided
  | interrupted kind item work claimed interruptIds now transition decided workItemId =>
    exact valid.interrupt work claimed decided workItemId
  | finished kind item work claimed report now transition decided workItemId =>
    exact valid.finish work claimed decided workItemId
  | cancelled now transition decided kind workItemId => exact valid.cancel decided kind workItemId
  | resolved resolution reason now transition decided kind workItemId =>
    exact valid.resolve decided kind workItemId

/-! ## What a step keeps -/

section

variable {action : LifecycleAction} {life after : Lifecycle}

theorem Lifecycle.recovered_execution (kind : WorkKind) (now : Nat) :
    (life.recovered kind now).execution =
      (recoverExpiredClaim life.execution kind now).execution := rfl

theorem LifecycleStep.sameAttempt (step : LifecycleStep action life after) :
    SameAttempt life.execution after.execution := by
  cases step with
  | skipped _ _ _ _ _ _ decided => exact claimCandidate_sameAttempt decided
  | claimed | renewed => exact .refl _
  | recovered kind _ _ _ now => exact recoverExpiredClaim_sameAttempt life.execution kind now
  | started _ _ _ _ _ _ _ _ _ decided => exact authorizeStart_sameAttempt decided
  | interrupted _ _ _ _ _ _ _ decided => exact interruptExecution_sameAttempt decided
  | finished _ _ _ _ _ _ _ decided => exact finishExecution_sameAttempt decided
  | cancelled _ _ decided => exact cancelExecution_sameAttempt decided
  | resolved _ _ _ _ decided => exact resolveExecution_sameAttempt decided

theorem LifecycleStep.scopes (step : LifecycleStep action life after) :
    after.scopes = life.scopes := by
  have same := step.sameAttempt
  simp only [Lifecycle.scopes, globalScope, taskScope, same.namespace, same.executionScope]

/-- A started execution stays started. -/
theorem LifecycleStep.keeps_start (step : LifecycleStep action life after)
    (started : life.execution.startAuthorizedAt.isSome = true) :
    after.execution.startAuthorizedAt.isSome = true := by
  cases step with
  | skipped _ _ _ _ _ _ decided =>
    rcases claimCandidate_eq_some decided with ⟨rfl, -⟩ | ⟨rfl, -⟩ <;> exact started
  | claimed | renewed => exact started
  | recovered kind _ _ _ now =>
    rw [Lifecycle.recovered_execution]
    rcases recoverExpiredClaim_cases life.execution kind now with ⟨-, -, decided⟩ | ⟨-, decided⟩ <;>
      rw [decided] <;> exact started
  | started _ _ _ _ _ _ _ _ _ decided =>
    obtain ⟨-, unstarted, -⟩ := authorizeStart_eq_ok decided
    simp [unstarted] at started
  | interrupted _ _ _ _ _ _ _ decided =>
    obtain ⟨_, -, rfl⟩ := interruptExecution_eq_ok decided
    exact started
  | finished _ _ _ _ _ _ _ decided =>
    obtain ⟨-, rfl⟩ := finishExecution_eq_ok decided
    exact started
  | cancelled _ _ decided =>
    rcases cancelExecution_eq_ok decided with ⟨-, rfl⟩ | ⟨-, rfl⟩ | ⟨-, rfl⟩ <;> exact started
  | resolved _ _ _ _ decided =>
    obtain ⟨-, _, _, rfl⟩ := resolveExecution_eq_ok decided
    exact started

/-- No step queues an execution. -/
theorem LifecycleStep.queued_before (step : LifecycleStep action life after)
    (queued : after.execution.status = .queued) : life.execution.status = .queued := by
  cases step with
  | skipped _ _ _ _ _ _ decided =>
    rcases claimCandidate_eq_some decided with ⟨rfl, -⟩ | ⟨rfl, -⟩
    · exact queued
    · cases queued
  | claimed | renewed => exact queued
  | recovered kind _ _ _ now =>
    rw [Lifecycle.recovered_execution] at queued
    rcases recoverExpiredClaim_cases life.execution kind now with ⟨-, -, decided⟩ | ⟨-, decided⟩ <;>
      rw [decided] at queued
    · cases queued
    · exact queued
  | started _ _ _ _ _ _ _ _ _ decided => exact (authorizeStart_eq_ok decided).2.2.1
  | interrupted _ _ _ _ _ _ _ decided =>
    obtain ⟨_, -, rfl⟩ := interruptExecution_eq_ok decided
    cases queued
  | finished _ _ _ _ report _ _ decided =>
    obtain ⟨settled, rfl⟩ := finishExecution_eq_ok decided
    have reported : report.status = .queued := queued
    simp [reported, ExecutionStatus.isTerminal] at settled
  | cancelled _ _ decided =>
    rcases cancelExecution_eq_ok decided with ⟨-, rfl⟩ | ⟨-, rfl⟩ | ⟨-, rfl⟩
    · cases queued
    · cases queued
    · exact queued
  | resolved resolution _ _ _ decided =>
    obtain ⟨-, _, _, rfl⟩ := resolveExecution_eq_ok decided
    have terminal := resolution.status_isTerminal
    have reported : resolution.status = .queued := queued
    simp [reported, ExecutionStatus.isTerminal] at terminal

theorem LifecycleStep.keeps_canonical (step : LifecycleStep action life after)
    (canonical : life.execution.canonical = true) : after.execution.canonical = true := by
  cases step with
  | skipped _ _ _ _ _ _ decided => exact claimCandidate_canonical decided canonical
  | claimed | renewed => exact canonical
  | recovered kind _ _ _ now => exact recoverExpiredClaim_canonical kind now canonical
  | started _ _ _ _ _ _ _ _ _ decided => exact authorizeStart_canonical decided canonical
  | interrupted _ _ _ _ _ _ _ decided => exact interruptExecution_canonical decided
  | finished _ _ _ _ _ _ _ decided => exact finishExecution_canonical decided
  | cancelled _ _ decided => exact cancelExecution_canonical decided canonical
  | resolved _ _ _ _ decided => exact resolveExecution_canonical decided

theorem Lifecycle.Valid.no_work (valid : life.Valid)
    (status : life.execution.status = .needsAttention ∨ life.execution.status.isTerminal = true)
    {kind : WorkKind} {item : WorkItem} (work : life.work kind = some item) :
    item.status = .completed := by
  cases valid with
  | settled _ finished => exact finished kind item work
  | queued _ other | interrupted _ other => simp [other, ExecutionStatus.isTerminal] at status
  | active _ other =>
    rcases other with other | other <;> simp [other, ExecutionStatus.isTerminal] at status

/-- Only a cancellation, which changes nothing, and a resolution reach a settled execution. -/
theorem LifecycleStep.of_settled (step : LifecycleStep action life after) (valid : life.Valid)
    (status : life.execution.status = .needsAttention ∨ life.execution.status.isTerminal = true) :
    after = life ∨ action = .resolve ∧ life.execution.status = .needsAttention := by
  have none : ∀ kind item, life.work kind = some item → item.status = .completed :=
    fun _ _ work => valid.no_work status work
  cases step with
  | skipped kind item work pending | claimed kind item work pending =>
    simp [none kind item work] at pending
  | recovered kind item work claimed | renewed kind item work claimed
  | started kind item work claimed | interrupted kind item work claimed
  | finished kind item work claimed => simp [none kind item work] at claimed
  | cancelled now transition decided kind workItemId =>
    left
    rcases cancelExecution_eq_ok decided with ⟨other, rfl⟩ | ⟨other, rfl⟩ | ⟨-, rfl⟩
    · rcases other with other | other <;> simp [other, ExecutionStatus.isTerminal] at status
    · simp [other, ExecutionStatus.isTerminal] at status
    · simp [Lifecycle.applied, Lifecycle.scheduled, Lifecycle.completed]
  | resolved _ _ _ _ decided => exact .inr ⟨rfl, (resolveExecution_eq_ok decided).1⟩

theorem LifecycleStep.of_terminal (step : LifecycleStep action life after) (valid : life.Valid)
    (terminal : life.execution.status.isTerminal = true) : after = life := by
  rcases step.of_settled valid (.inr terminal) with same | ⟨-, uncertain⟩
  · exact same
  · simp [uncertain, ExecutionStatus.isTerminal] at terminal

/-- An execution whose cancellation was requested ends, becomes uncertain or waits, unless a worker
interrupts it. -/
theorem LifecycleStep.of_cancelRequested (step : LifecycleStep action life after)
    (valid : life.Valid) (requested : life.execution.status = .cancelRequested)
    (other : action ≠ .interrupt) :
    after.execution.status = .cancelRequested ∨ after.execution.status = .needsAttention ∨
      after.execution.status.isTerminal = true := by
  cases step with
  | skipped kind item work pending _ _ decided =>
    have queued := (valid.skipped_expires work pending decided).2.1
    simp [requested] at queued
  | claimed | renewed => exact .inl requested
  | recovered kind _ _ _ now =>
    rw [Lifecycle.recovered_execution]
    rcases recoverExpiredClaim_cases life.execution kind now with ⟨-, -, decided⟩ | ⟨-, decided⟩ <;>
      rw [decided]
    · exact .inr (.inl rfl)
    · exact .inl requested
  | started _ _ _ _ _ _ _ _ _ decided =>
    obtain ⟨-, -, queued, -⟩ := authorizeStart_eq_ok decided
    simp [requested] at queued
  | interrupted => exact absurd rfl other
  | finished _ _ _ _ _ _ _ decided =>
    obtain ⟨status, rfl⟩ := finishExecution_eq_ok decided
    exact .inr (Or.symm status)
  | cancelled _ _ decided =>
    rcases cancelExecution_eq_ok decided with ⟨queued, rfl⟩ | ⟨running, rfl⟩ | ⟨-, rfl⟩
    · exact .inr (.inr rfl)
    · exact .inl rfl
    · exact .inl requested
  | resolved resolution _ _ _ decided =>
    obtain ⟨-, _, _, rfl⟩ := resolveExecution_eq_ok decided
    exact .inr (.inr resolution.status_isTerminal)

/-- The work item of each kind stays, and its fence never falls. -/
def Lifecycle.WorkKept (life after : Lifecycle) : Prop :=
  ∀ kind item, life.work kind = some item → ∃ later, after.work kind = some later ∧
    later.workItemId = item.workItemId ∧ item.fence ≤ later.fence

theorem Lifecycle.workKept_update {kind : WorkKind} {item changed : WorkItem}
    {execution : AutomationExecution} {admitted : Bool} (work : life.work kind = some item)
    (same : changed.workItemId = item.workItemId) (grows : item.fence ≤ changed.fence) :
    life.WorkKept ⟨execution, update life.work kind (some changed), admitted⟩ := by
  intro other found present
  by_cases equal : other = kind
  · subst equal
    obtain rfl := Option.some.inj (work.symm.trans present)
    exact ⟨changed, by simp, same, grows⟩
  · exact ⟨found, by simpa [equal] using present, rfl, le_rfl⟩

theorem Lifecycle.workKept_applied (transition : ExecutionTransition) (current : WorkKind)
    (workItemId : String) (createdAt : Nat) :
    life.WorkKept (life.applied transition current workItemId createdAt) := by
  have done : ∀ kind item, life.work kind = some item →
      ∃ later, completed life.work transition.completeWork current kind = some later ∧
        later.workItemId = item.workItemId ∧ item.fence ≤ later.fence := by
    intro kind item work
    cases transition.completeWork with
    | none => exact ⟨item, work, rfl, le_rfl⟩
    | all => exact ⟨item.released .completed, by simp [completed, work], rfl, le_rfl⟩
    | current =>
      by_cases equal : kind = current
      · subst equal
        exact ⟨item.released .completed, by simp [completed, work], rfl, le_rfl⟩
      · exact ⟨item, by simpa [completed, equal] using work, rfl, le_rfl⟩
  intro kind item work
  obtain ⟨between, found, same, lower⟩ := done kind item work
  simp only [applied, scheduled]
  cases transition.deadlineWorkAt with
  | none => exact ⟨between, found, same, lower⟩
  | some deadline =>
    cases kind with
    | execute => exact ⟨between, by simpa using found, same, lower⟩
    | expireInterrupt => exact ⟨between.rescheduled deadline, by simp [found], same, lower⟩

theorem LifecycleStep.workKept (step : LifecycleStep action life after) : life.WorkKept after := by
  cases step with
  | skipped kind _ _ _ now transition _ workItemId =>
    exact Lifecycle.workKept_applied transition kind workItemId now
  | claimed _ item work => exact Lifecycle.workKept_update work rfl (Nat.le_succ _)
  | recovered kind item work _ now =>
    simp only [Lifecycle.recovered, work, Option.map_some]
    exact Lifecycle.workKept_update work rfl le_rfl
  | renewed _ item work => exact Lifecycle.workKept_update work rfl le_rfl
  | started => exact fun kind item work => ⟨item, work, rfl, le_rfl⟩
  | interrupted kind _ _ _ _ now transition _ workItemId
  | finished kind _ _ _ _ now transition _ workItemId =>
    exact Lifecycle.workKept_applied transition kind workItemId now
  | cancelled now transition _ kind workItemId | resolved _ _ now transition _ kind workItemId =>
    exact Lifecycle.workKept_applied transition kind workItemId now

/-- Slots are given back only when an execution ends. -/
theorem LifecycleStep.keeps_slots (step : LifecycleStep action life after)
    (held : life.admitted = true) (running : after.execution.status.isTerminal = false) :
    after.admitted = true := by
  have kept : ∀ (transition : ExecutionTransition) kind workItemId now,
      (transition.releaseCapacity = true → transition.execution.status.isTerminal = true) →
      after = life.applied transition kind workItemId now → after.admitted = true := by
    rintro transition kind workItemId now ends rfl
    cases released : transition.releaseCapacity with
    | false => simp [Lifecycle.applied, held, released]
    | true => simp [Lifecycle.applied, ends released] at running
  cases step with
  | skipped _ _ _ _ _ transition decided =>
    refine kept transition _ _ _ (fun released => ?_) rfl
    rcases claimCandidate_eq_some decided with ⟨rfl, -⟩ | ⟨rfl, -⟩
    · cases released
    · rfl
  | claimed => simp [held]
  | recovered => exact held
  | renewed => exact held
  | started => exact held
  | interrupted _ _ _ _ _ _ transition decided =>
    refine kept transition _ _ _ (fun released => ?_) rfl
    obtain ⟨_, -, rfl⟩ := interruptExecution_eq_ok decided
    cases released
  | finished _ _ _ _ _ _ transition decided =>
    refine kept transition _ _ _ (fun released => ?_) rfl
    obtain ⟨-, rfl⟩ := finishExecution_eq_ok decided
    exact released
  | cancelled _ transition decided =>
    refine kept transition _ _ _ (fun released => ?_) rfl
    rcases cancelExecution_eq_ok decided with ⟨-, rfl⟩ | ⟨-, rfl⟩ | ⟨-, rfl⟩ <;>
      first | rfl | cases released
  | resolved resolution _ _ transition decided =>
    refine kept transition _ _ _ (fun _ => ?_) rfl
    obtain ⟨-, _, _, rfl⟩ := resolveExecution_eq_ok decided
    exact resolution.status_isTerminal

end

end Tinkerfin.Automation
