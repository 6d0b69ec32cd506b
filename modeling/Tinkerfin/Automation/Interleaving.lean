import Tinkerfin.Automation.DueInstants
import Tinkerfin.Automation.Service
import Tinkerfin.Automation.StoreFacts
import Tinkerfin.Lib.Machine

/-!
# Task commands and wakeups that interleave

A task command and a wakeup read a task, then the clock, and then write; any other work may happen in
between.  The instants that wakeups materialised under a task's present schedule are kept beside the
store.  They stay pairwise distinct as long as no command leaves a task enabled with a wakeup that it
computed before one of them.
-/

namespace Tinkerfin.Automation

open EStateM
open MemoryAutomationStore (opened next perform currentTime TaskStep ReadsOnly setup_readsOnly)

/-! ## Sessions -/

/-- A command or a wakeup in flight: the task it read, and the clock once it was read. -/
inductive Session
  | change (command : TaskCommand) (current : AutomationTask) (now : Option Nat)
  | wakeup (task : AutomationTask) (now : Option Nat)

/-- The session after it read the clock. -/
def Session.timed (now : Nat) : Session → Session
  | .change command current _ => .change command current (some now)
  | .wakeup task _ => .wakeup task (some now)

/-- The store call of a session that read the clock. -/
def Session.call (service : AutomationService) (workItemId : Nat → String) (createdAt : Nat) :
    Session → Option StoreCall
  | .change command current (some now) => (command.call service current now).toOption
  | .wakeup task (some now) => (service.materialization task now workItemId createdAt).toOption
  | .change _ _ none | .wakeup _ none => none

/-- A call that replaces a task; only sessions make it. -/
def StoreCall.ReplacesTask : StoreCall → Prop
  | .updateTask _ _ _ _ | .materializeTask _ _ _ _ => True
  | _ => False

/-- One step of some session or of anybody else who uses the store. -/
inductive ServiceEvent
  | issue (session : Nat) (command : TaskCommand)
  | wake (session : Nat) (taskId : String)
  | readClock (session now : Nat)
  | commit (session : Nat) (workItemId : Nat → String) (createdAt : Nat)
  | call (call : StoreCall) (other : ¬call.ReplacesTask)

/-- The store, the sessions in flight, and the instants materialised for each task since its schedule
was last changed. -/
structure ServiceState where
  store : MemoryAutomationStore
  sessions : Nat → Option Session
  instants : String → List Nat

/-- The schedule of a stored task. -/
def MemoryAutomationStore.scheduleOf (store : MemoryAutomationStore) (taskId : String) :
    Option Schedule :=
  (store.tasks.get? taskId).map (·.schedule)

/-- The instants that one call materialises for a task. -/
def MemoryAutomationStore.materializedInstants (store : MemoryAutomationStore) (taskId : String) :
    StoreCall → List Nat
  | .materializeTask task expectedNextRunAt executions now =>
    match (MemoryAutomationStore.materializeTask task expectedNextRunAt executions now).value?
        store with
    | some result =>
      if task.taskId = taskId then result.executions.filterMap (·.scheduledFor) else []
    | none => []
  | _ => []

namespace ServiceState

/-- A store before any operation, without sessions. -/
def started (limits : MemoryStoreLimits) : ServiceState where
  store := opened limits
  sessions := fun _ => none
  instants := fun _ => []

/-- The state after one store call. -/
def performed (state : ServiceState) (call : StoreCall) : ServiceState :=
  { state with
    store := state.store.next call
    instants := fun taskId =>
      (if (state.store.next call).scheduleOf taskId = state.store.scheduleOf taskId then
        state.instants taskId
      else
        []) ++ state.store.materializedInstants taskId call }

/-- The state with one session replaced. -/
def withSession (state : ServiceState) (session : Nat) (held : Option Session) : ServiceState :=
  { state with sessions := Function.update state.sessions session held }

/-- The state after one event. -/
def step (service : AutomationService) (state : ServiceState) : ServiceEvent → ServiceState
  | .issue session command =>
    state.withSession session
      (((command.fetch service).value? state.store).map fun current =>
        .change command current none)
  | .wake session taskId =>
    state.withSession session
      (((service.fetchDueTask taskId).value? state.store).join.map fun task => .wakeup task none)
  | .readClock session now =>
    state.withSession session
      (((currentTime now).value? state.store).bind fun now =>
        (state.sessions session).map (Session.timed now))
  | .commit session workItemId createdAt =>
    match (state.sessions session).bind (Session.call service workItemId createdAt) with
    | some call => (state.performed call).withSession session none
    | none => state.withSession session none
  | .call call _ => state.performed call

end ServiceState

/-! ## Timely writes -/

/-- What a command computes its wakeup from lies behind every instant that was materialised: the
wakeup it read, or the clock when it asks the schedule again.  A command that leaves the task paused
may use any. -/
def TaskAction.Timely (action : TaskAction) (current : AutomationTask) (now : Nat)
    (instants : List Nat) : Prop :=
  match action with
  | .update changes =>
    current.status = .enabled →
      if changes.schedule.isSome then
        ∀ instant ∈ instants, instant ≤ now
      else
        ∀ nextRunAt ∈ current.nextRunAt, ∀ instant ∈ instants, instant < nextRunAt
  | .pause => True
  | .enable => ∀ instant ∈ instants, instant ≤ now

instance (action : TaskAction) (current : AutomationTask) (now : Nat) (instants : List Nat) :
    Decidable (action.Timely current now instants) :=
  match action with
  | .update _ => inferInstanceAs (Decidable (_ → ite _ _ _))
  | .pause => .isTrue trivial
  | .enable => inferInstanceAs (Decidable (∀ instant ∈ instants, instant ≤ now))

/-- A session that is to write the stored task under its present schedule is timely. -/
def Session.Timely (state : ServiceState) : Option Session → Prop
  | some (.change command current (some now)) =>
    ∀ stored ∈ state.store.tasks.get? current.taskId,
      stored.revision = command.expectedRevision →
        command.schedule current = stored.schedule →
          command.action.Timely current now (state.instants current.taskId)
  | _ => True

instance (state : ServiceState) (held : Option Session) : Decidable (Session.Timely state held) :=
  match held with
  | some (.change command current (some now)) =>
    inferInstanceAs (Decidable (∀ stored ∈ state.store.tasks.get? current.taskId,
      stored.revision = command.expectedRevision →
        command.schedule current = stored.schedule →
          command.action.Timely current now (state.instants current.taskId)))
  | some (.change _ _ none) | some (.wakeup _ _) | none => .isTrue trivial

/-- An event that commits a session commits a timely one. -/
def ServiceState.Timely (state : ServiceState) : ServiceEvent → Prop
  | .commit session _ _ => Session.Timely state (state.sessions session)
  | _ => True

instance (state : ServiceState) (event : ServiceEvent) : Decidable (state.Timely event) :=
  match event with
  | .commit session _ _ => inferInstanceAs (Decidable (Session.Timely state (state.sessions session)))
  | .issue _ _ | .wake _ _ | .readClock _ _ | .call _ _ => .isTrue trivial

/-! ## What the writes of a session are -/

theorem AutomationService.futureRun_gt {service : AutomationService} {schedule : Schedule}
    {now found : Nat} (next : service.futureRun schedule now = .ok found) : now < found := by
  unfold AutomationService.futureRun at next
  cases outcome : nextRunAfter service.zones schedule now with
  | error raised => simp [outcome, bind, Except.bind] at next
  | ok candidate =>
    cases candidate with
    | none => simp [outcome, bind, Except.bind, throw, throwThe, MonadExceptOf.throw] at next
    | some candidate =>
      simp only [outcome, bind, Except.bind, pure, Except.pure, Except.ok.injEq] at next
      exact next ▸ nextRunAfter_gt outcome

namespace TaskCommand

variable {service : AutomationService} {command : TaskCommand} {current updated : AutomationTask}
  {now : Nat}

/-- The status that the command writes. -/
def status (command : TaskCommand) (current : AutomationTask) : TaskStatus :=
  match command.action with
  | .update _ => current.status
  | .pause => .paused
  | .enable => .enabled

theorem replacement_eq_ok (outcome : command.replacement service current now = .ok updated) :
    updated.taskId = current.taskId ∧ updated.schedule = command.schedule current ∧
      updated.status = command.status current ∧
      command.nextRunAt service current now = .ok updated.nextRunAt := by
  unfold replacement at outcome
  split at outcome
  · cases outcome
  · next nextRunAt waits =>
      cases action : command.action with
      | update changes =>
        simp only [action] at outcome
        split at outcome
        · cases outcome
        · obtain rfl := Except.ok.inj outcome
          exact ⟨rfl, rfl, by simp [status, action], waits⟩
      | pause =>
        simp only [action] at outcome
        obtain rfl := Except.ok.inj outcome
        refine ⟨rfl, by simp [schedule, action], by simp [status, action], ?_⟩
        simp [TaskCommand.nextRunAt, action]
      | enable =>
        simp only [action] at outcome
        obtain rfl := Except.ok.inj outcome
        exact ⟨rfl, by simp [schedule, action], by simp [status, action], waits⟩

/-- A timely command that leaves its task enabled leaves it waiting behind the instants. -/
theorem ahead_of_timely {instants : List Nat} {nextRunAt : Nat}
    (timely : command.action.Timely current now instants)
    (enabled : command.status current = .enabled)
    (waits : command.nextRunAt service current now = .ok (some nextRunAt)) :
    ∀ instant ∈ instants, instant < nextRunAt := by
  have future : ∀ {schedule : Schedule}, (∀ instant ∈ instants, instant ≤ now) →
      some <$> service.futureRun schedule now = .ok (some nextRunAt) →
        ∀ instant ∈ instants, instant < nextRunAt := by
    intro schedule passed asked
    cases next : service.futureRun schedule now with
    | error raised => simp [next] at asked
    | ok found =>
      simp only [next, Except.map_ok, Except.ok.injEq, Option.some.injEq] at asked
      intro instant member
      exact asked ▸ (passed instant member).trans_lt (AutomationService.futureRun_gt next)
  cases action : command.action with
  | update changes =>
    simp only [status, TaskCommand.nextRunAt, action, TaskAction.Timely] at enabled waits timely
    by_cases given : changes.schedule.isSome = true
    · rw [if_pos ⟨enabled, given⟩] at waits
      exact future (by simpa [given] using timely enabled) waits
    · rw [if_neg fun both => given both.2] at waits
      have kept := timely enabled
      rw [if_neg given] at kept
      exact kept nextRunAt (Except.ok.inj waits)
  | pause => simp [status, action] at enabled
  | enable =>
    simp only [TaskCommand.nextRunAt, action, TaskAction.Timely] at waits timely
    exact future timely waits

end TaskCommand

theorem map_of_mapM {α β γ ε : Type} {f : α → Except ε β} {left : β → γ} {right : α → γ}
    (each : ∀ item made, f item = .ok made → left made = right item) {items : List α}
    {results : List β} (outcome : items.mapM f = .ok results) :
    results.map left = items.map right := by
  induction items generalizing results with
  | nil => exact Except.ok.inj outcome ▸ rfl
  | cons item items ih =>
    rw [List.mapM_cons] at outcome
    cases made : f item with
    | error raised => simp [made, bind, Except.bind] at outcome
    | ok first =>
      cases rest : items.mapM f with
      | error raised => simp [made, rest, bind, Except.bind] at outcome
      | ok others =>
        simp only [made, rest, bind, Except.bind, pure, Except.pure, Except.ok.injEq] at outcome
        rw [← outcome, List.map_cons, List.map_cons, each item first made, ih rest]

theorem AutomationService.dueExecution_scheduledFor {service : AutomationService}
    {task : AutomationTask} {now scheduledFor : Nat} {due : ScheduledExecution}
    (outcome : service.dueExecution task now scheduledFor = .ok due) :
    due.execution.scheduledFor = some scheduledFor := by
  unfold AutomationService.dueExecution newExecution at outcome
  cases deadline : later now task.limits.queueTimeout with
  | error raised => simp [deadline, bind, Except.bind] at outcome
  | ok queueDeadline =>
    simp only [deadline, bind, Except.bind, pure, Except.pure, Except.ok.injEq] at outcome
    rw [← outcome]

/-- The call of a wakeup: increasing instants from the wakeup on, and a later next wakeup. -/
theorem AutomationService.materialization_eq_ok {service : AutomationService}
    {task : AutomationTask} {now createdAt : Nat} {workItemId : Nat → String} {call : StoreCall}
    (outcome : service.materialization task now workItemId createdAt = .ok call) :
    ∃ (materialized : MaterializedSchedule) (executions : List (ScheduledExecution × String)),
      call = .materializeTask { task with nextRunAt := materialized.nextRunAt }
        (task.nextRunAt.getD 0) executions createdAt ∧
      materialized.Sound (task.nextRunAt.getD 0) now ∧
      executions.map (·.1.execution.scheduledFor) = materialized.dueAt.map some := by
  unfold AutomationService.materialization at outcome
  cases decided : materializeSchedule service.zones task.schedule (task.nextRunAt.getD 0) now
      task.misfirePolicy with
  | error raised => simp [decided, bind, Except.bind] at outcome
  | ok materialized =>
    cases built : materialized.dueAt.mapM (service.dueExecution task now) with
    | error raised => simp [decided, built, bind, Except.bind] at outcome
    | ok executions =>
      simp only [decided, built, bind, Except.bind, pure, Except.pure, Except.ok.injEq] at outcome
      refine ⟨materialized, _, outcome.symm, materializeSchedule_sound decided, ?_⟩
      rw [List.map_map]
      have scheduled := map_of_mapM (fun _ _ => dueExecution_scheduledFor) built
      rw [← scheduled]
      conv_rhs => rw [← List.zipIdx_map_fst 0 executions]
      rw [List.map_map]
      rfl

/-! ## Distinct instants -/

theorem pendingOccurrences_sublist (seen : List String)
    (items : List (ScheduledExecution × String)) :
    (pendingOccurrences seen items).Sublist items := by
  induction items generalizing seen with
  | nil => exact .slnil
  | cons item items ih =>
    rw [pendingOccurrences]
    split
    · exact (ih seen).cons item
    · exact (ih _).cons_cons item

/-- A materialisation changes nothing, or it advances the enabled task it waited for and
materialises a part of the offered instants. -/
theorem materializeTask_outcome (store : MemoryAutomationStore) (task : AutomationTask)
    (expectedNextRunAt now : Nat) (executions : List (ScheduledExecution × String)) :
    let call := StoreCall.materializeTask task expectedNextRunAt executions now
    store.next call = store ∧ (∀ taskId, store.materializedInstants taskId call = []) ∨
      (∃ current, store.tasks.get? task.taskId = some current ∧ current.status = .enabled ∧
        current.nextRunAt = some expectedNextRunAt) ∧
        (store.next call).tasks = store.tasks.insert task.taskId task ∧
        (store.materializedInstants task.taskId call).Sublist
          (executions.filterMap (·.1.execution.scheduledFor)) ∧
        ∀ taskId, taskId ≠ task.taskId → store.materializedInstants taskId call = [] := by
  intro call
  have final : store.next call =
      (MemoryAutomationStore.materializeTask task expectedNextRunAt executions now).final store := by
    simp [call, next, perform]
  rw [final]
  rcases (MemoryAutomationStore.materializeTask_spec task expectedNextRunAt executions
    now).outcome with ⟨result, outcome, current, found, -, -, ⟨-, rfl, same⟩ | ⟨fresh, -, -, -, rfl,
      written⟩⟩ | ⟨outcome, error, same⟩
  · exact .inl ⟨same, fun taskId => by simp [call, MemoryAutomationStore.materializedInstants, outcome]⟩
  · simp only [materializationIsCurrent, Bool.and_eq_true, beq_iff_eq] at fresh
    refine .inr ⟨⟨current, found, fresh.2, fresh.1.1⟩, ?_, ?_, fun taskId different => ?_⟩
    · rw [written]
      exact MemoryAutomationStore.materialized_facts.1
    · have part := (pendingOccurrences_sublist (store.knownOccurrences task.namespace)
        executions).filterMap (·.1.execution.scheduledFor)
      simpa [call, MemoryAutomationStore.materializedInstants, outcome, List.filterMap_map,
        MemoryAutomationStore.unknownOccurrences, Function.comp_def] using part
    · simp [call, MemoryAutomationStore.materializedInstants, outcome, different.symm]
  · exact .inl ⟨same, fun taskId => by simp [call, MemoryAutomationStore.materializedInstants, outcome]⟩

namespace ServiceState

variable {service : AutomationService} {state : ServiceState}

/-- The instants of each task are pairwise distinct, and an enabled task waits behind them. -/
structure Distinct (state : ServiceState) : Prop where
  stored : state.store.Stored
  distinct : ∀ taskId, (state.instants taskId).Nodup
  ahead : ∀ taskId task, state.store.tasks.get? taskId = some task → task.status = .enabled →
    ∀ nextRunAt, task.nextRunAt = some nextRunAt →
      ∀ instant ∈ state.instants taskId, instant < nextRunAt

theorem started_distinct (limits : MemoryStoreLimits) : (started limits).Distinct where
  stored := MemoryAutomationStore.stored_opened limits
  distinct _ := .nil
  ahead _ _ _ _ _ _ _ member := by simp [started] at member

/-- What a call has to keep for the task it writes. -/
structure Keeps (state : ServiceState) (call : StoreCall) (taskId : String) : Prop where
  distinct : ((state.performed call).instants taskId).Nodup
  ahead : ∀ task, (state.store.next call).tasks.get? taskId = some task → task.status = .enabled →
    ∀ nextRunAt, task.nextRunAt = some nextRunAt →
      ∀ instant ∈ (state.performed call).instants taskId, instant < nextRunAt

theorem Distinct.performed_of_keeps (distinct : state.Distinct) {call : StoreCall}
    (keeps : ∀ taskId, state.Keeps call taskId) : (state.performed call).Distinct where
  stored := (MemoryAutomationStore.next_stored distinct.stored call).1
  distinct taskId := (keeps taskId).distinct
  ahead taskId := (keeps taskId).ahead

theorem Distinct.keeps_same (distinct : state.Distinct) {call : StoreCall} {taskId : String}
    (same : (state.store.next call).tasks.get? taskId = state.store.tasks.get? taskId)
    (silent : state.store.materializedInstants taskId call = []) : state.Keeps call taskId := by
  have kept : (state.performed call).instants taskId = state.instants taskId := by
    simp [performed, MemoryAutomationStore.scheduleOf, same, silent]
  exact ⟨kept ▸ distinct.distinct taskId, fun task found enabled nextRunAt waits =>
    kept ▸ distinct.ahead taskId task (same ▸ found) enabled nextRunAt waits⟩

theorem keeps_of_rescheduled {call : StoreCall} {taskId : String}
    (changed : (state.store.next call).scheduleOf taskId ≠ state.store.scheduleOf taskId)
    (silent : state.store.materializedInstants taskId call = []) : state.Keeps call taskId := by
  have none : (state.performed call).instants taskId = [] := by
    simp [performed, changed, silent]
  exact ⟨none ▸ .nil, fun _ _ _ _ _ instant member => by simp [none] at member⟩

/-- An update that waits behind the instants whenever it keeps the schedule. -/
theorem Distinct.updated (distinct : state.Distinct) {task : AutomationTask}
    {expectedRevision : Int} {requestId : Option String} {inputDigest : String}
    (behind : ∀ stored, state.store.tasks.get? task.taskId = some stored →
      stored.revision = expectedRevision → task.schedule = stored.schedule →
        task.status = .enabled → ∀ nextRunAt, task.nextRunAt = some nextRunAt →
          ∀ instant ∈ state.instants task.taskId, instant < nextRunAt) :
    (state.performed (.updateTask task expectedRevision requestId inputDigest)).Distinct := by
  refine distinct.performed_of_keeps fun taskId => ?_
  cases MemoryAutomationStore.next_taskStep distinct.stored
    (.updateTask task expectedRevision requestId inputDigest) with
  | kept same => exact distinct.keeps_same (by rw [same]) rfl
  | updated found revision written =>
    next current =>
    by_cases own : taskId = task.taskId
    · subst own
      have now : (state.store.next (.updateTask task expectedRevision requestId
          inputDigest)).tasks.get? task.taskId = some task := by simp [written]
      by_cases same : task.schedule = current.schedule
      · have kept : (state.performed (.updateTask task expectedRevision requestId
            inputDigest)).instants task.taskId = state.instants task.taskId := by
          simp [performed, MemoryAutomationStore.scheduleOf, now, found, same,
            MemoryAutomationStore.materializedInstants]
        refine ⟨kept ▸ distinct.distinct _, fun stored present enabled nextRunAt waits => ?_⟩
        obtain rfl := Option.some.inj (now.symm.trans present)
        exact kept ▸ behind current found revision same enabled nextRunAt waits
      · exact keeps_of_rescheduled
          (by simp [MemoryAutomationStore.scheduleOf, now, found, same]) rfl
    · exact distinct.keeps_same (by rw [written, Dict.get?_insert_of_ne _ _ own]) rfl

/-- A materialisation of increasing instants from the wakeup on, with a later next wakeup. -/
theorem Distinct.materialized (distinct : state.Distinct) {task : AutomationTask}
    {materialized : MaterializedSchedule} {expectedNextRunAt now createdAt : Nat}
    {executions : List (ScheduledExecution × String)}
    (waits : task.nextRunAt = materialized.nextRunAt)
    (sound : materialized.Sound expectedNextRunAt now)
    (scheduled : executions.map (·.1.execution.scheduledFor) = materialized.dueAt.map some) :
    (state.performed (.materializeTask task expectedNextRunAt executions createdAt)).Distinct := by
  have offered : executions.filterMap (·.1.execution.scheduledFor) = materialized.dueAt := by
    have listed := congrArg (List.filterMap id) scheduled
    simpa [List.filterMap_map, Function.comp_def] using listed
  refine distinct.performed_of_keeps fun taskId => ?_
  rcases materializeTask_outcome state.store task expectedNextRunAt createdAt executions with
    ⟨same, silent⟩ | ⟨⟨current, found, enabled, expected⟩, written, part, silent⟩
  · exact distinct.keeps_same (by rw [same]) (silent taskId)
  · by_cases own : taskId = task.taskId
    · subst own
      rw [offered] at part
      have due := sound.due.sublist part
      have now : (state.store.next (.materializeTask task expectedNextRunAt executions
          createdAt)).tasks.get? task.taskId = some task := by simp [written]
      have earlier : ∀ instant ∈ state.instants task.taskId, instant < expectedNextRunAt :=
        distinct.ahead _ current found enabled _ expected
      have members : ∀ instant ∈ (state.performed (.materializeTask task expectedNextRunAt executions
          createdAt)).instants task.taskId, instant ∈ state.instants task.taskId ∨
            instant ∈ state.store.materializedInstants task.taskId
              (.materializeTask task expectedNextRunAt executions createdAt) := by
        intro instant member
        simp only [performed, List.mem_append] at member
        split at member <;> simp_all
      refine ⟨?_, fun stored present enabled nextRunAt later instant member => ?_⟩
      · simp only [performed]
        split
        · refine List.nodup_append.mpr ⟨distinct.distinct _, due.ordered.imp Nat.ne_of_lt, ?_⟩
          intro old oldMember new newMember same
          have := earlier old oldMember
          have := due.above new newMember
          omega
        · exact due.ordered.imp Nat.ne_of_lt
      · obtain rfl := Option.some.inj (now.symm.trans present)
        obtain ⟨further, ahead⟩ := sound.ahead nextRunAt (waits ▸ later)
        rcases members instant member with old | new
        · exact (earlier instant old).trans_le further
        · exact ahead instant (part.subset new)
    · exact distinct.keeps_same (by rw [written, Dict.get?_insert_of_ne _ _ own])
        (silent taskId own)

/-- A call that replaces no task. -/
theorem Distinct.other (distinct : state.Distinct) {call : StoreCall} (other : ¬call.ReplacesTask) :
    (state.performed call).Distinct := by
  have silent : ∀ taskId, state.store.materializedInstants taskId call = [] := by
    intro taskId
    cases call <;> first | rfl | exact absurd trivial other
  refine distinct.performed_of_keeps fun taskId => ?_
  have step := MemoryAutomationStore.next_taskStep distinct.stored call
  cases step with
  | kept same => exact distinct.keeps_same (by rw [same]) (silent taskId)
  | created absent written =>
    next task _ _ =>
    by_cases own : taskId = task.taskId
    · subst own
      refine keeps_of_rescheduled ?_ (silent _)
      simp [MemoryAutomationStore.scheduleOf, written, absent]
    · exact distinct.keeps_same (by rw [written, Dict.get?_insert_of_ne _ _ own]) (silent taskId)
  | deleted written =>
    next deletedId _ _ _ _ =>
    by_cases own : taskId = deletedId
    · subst own
      cases stored : state.store.tasks.get? taskId with
      | none => exact distinct.keeps_same (by simp [written, stored]) (silent taskId)
      | some task =>
        refine keeps_of_rescheduled ?_ (silent taskId)
        simp [MemoryAutomationStore.scheduleOf, written, stored]
    · exact distinct.keeps_same (by rw [written, Dict.get?_erase_of_ne _ own]) (silent taskId)
  | updated | materialized => exact absurd trivial other

/-- A timely event keeps the instants distinct. -/
theorem Distinct.step (distinct : state.Distinct) {event : ServiceEvent}
    (timely : state.Timely event) : (state.step service event).Distinct := by
  have held : ∀ {state : ServiceState} {session held}, state.Distinct →
      (state.withSession session held).Distinct := fun kept => ⟨kept.1, kept.2, kept.3⟩
  cases event with
  | issue | wake | readClock => exact held distinct
  | call call other => exact distinct.other other
  | commit session workItemId createdAt =>
    cases current : state.sessions session with
    | none => simpa [ServiceState.step, current] using held distinct
    | some inFlight =>
      cases decided : inFlight.call service workItemId createdAt with
      | none => simpa [ServiceState.step, current, decided] using held distinct
      | some call =>
        have committed : state.step service (.commit session workItemId createdAt) =
            (state.performed call).withSession session none := by
          simp [ServiceState.step, current, decided]
        rw [committed]
        refine held ?_
        cases inFlight with
        | change command read now =>
          cases now with
          | none => cases decided
          | some now =>
            cases written : command.replacement service read now with
            | error raised => simp [Session.call, TaskCommand.call, written, Except.map,
                Except.toOption] at decided
            | ok updated =>
              simp only [Session.call, TaskCommand.call, written, Except.map,
                Except.toOption, Option.some.injEq] at decided
              obtain ⟨taskId, schedule, status, waits⟩ :=
                TaskCommand.replacement_eq_ok written
              rw [← decided]
              refine distinct.updated fun stored found revision same enabled nextRunAt
                later => ?_
              rw [taskId] at found ⊢
              simp only [Timely, current, Session.Timely] at timely
              have behind := timely stored found revision (schedule.symm.trans same)
              exact TaskCommand.ahead_of_timely behind (status.symm.trans enabled)
                (later ▸ waits)
        | wakeup task now =>
          cases now with
          | none => cases decided
          | some now =>
            cases written : service.materialization task now workItemId createdAt with
            | error raised => simp [Session.call, written, Except.toOption] at decided
            | ok made =>
              simp only [Session.call, written, Except.toOption,
                Option.some.injEq] at decided
              obtain ⟨materialized, executions, rfl, sound, scheduled⟩ :=
                AutomationService.materialization_eq_ok written
              rw [← decided]
              exact distinct.materialized rfl sound scheduled

/-! ## Instants of a schedule -/

/-- A service over one namespace, with timezones that all are UTC. -/
def sampleService : AutomationService where
  «namespace» := "tenant"
  zones := fun _ => ⟨id, fun _ => id⟩
  canonical := by decide +kernel

/-- An instant at which the sample task is due. -/
def sampleDue : Nat := 63902908800000000

/-- A task that waits for an instant of its schedule. -/
def dueTask : AutomationTask := { MemoryAutomationStore.sampleTask with
  schedule := .interval 60 sampleDue
  nextRunAt := some sampleDue }

/-- A command of the owner of the sample task at its first revision. -/
def sampleCommand (action : TaskAction) : TaskCommand where
  ownerId := "owner"
  taskId := "task"
  expectedRevision := 1
  action

/-- A wakeup of the sample task from its read to its write. -/
def sampleWakeup (session : Nat) : List ServiceEvent :=
  [.wake session "task", .readClock session sampleDue,
    .commit session (fun index => Nat.repr session ++ Nat.repr index) 0]

/-- The sample task is created, renamed between two wakeups, and each wakeup finds it due. -/
def renamedBetween : List ServiceEvent :=
  [.call (.createTask dueTask none "") id] ++ sampleWakeup 1 ++
    [.issue 0 (sampleCommand (.update { name := some "renamed" })), .readClock 0 sampleDue,
      .commit 0 (fun _ => "") 0] ++ sampleWakeup 2

/-- As long as every command that writes its task is timely, no instant of a schedule is materialised
twice. -/
theorem instants_once (service : AutomationService) (limits : MemoryStoreLimits)
    (events : List ServiceEvent)
    (timely : Machine.Guarded (step service) Timely (started limits) events) (taskId : String) :
    ((Machine.run (step service) (started limits) events).instants taskId).Nodup :=
  (Machine.guarded_invariant (fun _ _ distinct timely => Distinct.step distinct timely) timely
    (started_distinct limits)).distinct taskId

/-- A rename between two wakeups keeps their instants apart. -/
theorem instants_once_renamed :
    ((Machine.run (step sampleService) (started {}) renamedBetween).instants "task").Nodup :=
  instants_once sampleService {} renamedBetween (by decide +kernel) "task"

/-- A rename that reads the task before a wakeup and writes it afterwards lets a second wakeup
materialise the same instant again. -/
theorem renamed_task_runs_twice : ¬∀ service limits events taskId,
    ((Machine.run (step service) (started limits) events).instants taskId).Nodup := by
  intro distinct
  have twice := distinct sampleService {} ([.call (.createTask dueTask none "") id,
    .issue 0 (sampleCommand (.update { name := some "renamed" }))] ++ sampleWakeup 1 ++
      [.readClock 0 sampleDue, .commit 0 (fun _ => "") 0] ++ sampleWakeup 2) "task"
  revert twice
  decide +kernel

end ServiceState

end Tinkerfin.Automation
