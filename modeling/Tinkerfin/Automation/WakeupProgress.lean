import Mathlib.Data.Finset.Card
import Tinkerfin.Automation.Interleaving
import Tinkerfin.Automation.MisfireAccounting

/-!
# Progress of overdue wakeups

A wakeup that finds more instants to make up for than its task may queue is rejected as a whole and
put off by a minute, so it finds them again.
-/

namespace Tinkerfin.Automation

open EStateM

/-! ## The wakeup -/

/-- What becomes of a wakeup. -/
inductive Wakeup
  /-- The task does not wait any more. -/
  | removed
  | materialized (reply : StoreReply)
  /-- The queue was full; the task is looked at again later. -/
  | postponed (retryAt : Nat)

namespace AutomationService

variable (service : AutomationService)

/-- Materialise the wakeup of a task; nothing for a task that does not wait. -/
def materializeWakeup (taskId : String) (now : Nat) (workItemId : Nat → String) (createdAt : Nat) :
    StoreM (Option StoreReply) := do
  match ← service.fetchDueTask taskId with
  | none => return none
  | some task =>
    let call ← ofExcept (service.materialization task now workItemId createdAt)
    return some (← MemoryAutomationStore.perform call)

/-- The scheduler's callback for a task. -/
def materializeDueTask (taskId : String) (now : Nat) (workItemId : Nat → String) (createdAt : Nat) :
    StoreM Wakeup :=
  tryCatch
    (do
      match ← service.materializeWakeup taskId now workItemId createdAt with
      | none => return .removed
      | some reply => return .materialized reply)
    fun
      | .automation .queueFull _ _ =>
        .postponed <$> ofExcept (later now (60 * microsecondsPerSecond))
      | raised => throw raised

/-- The occurrence key of a task at an instant of its schedule. -/
def occurrenceAt (task : AutomationTask) (scheduledFor : Nat) : String :=
  occurrenceKey [service.namespace, task.ownerId, task.taskId, toString task.revision,
    isoformat scheduledFor]

end AutomationService

/-! ## Errors of schedules -/

/-- A computation that does not report a full queue. -/
def Spares {α : Type} (program : Except Raised α) : Prop :=
  ∀ scopeId, program ≠ .error (.queueFull scopeId)

section Spares

variable {α β : Type} {first : Except Raised α}

theorem spares_ok (value : α) : Spares (.ok value : Except Raised α) := nofun

theorem spares_bind {next : α → Except Raised β} (head : Spares first)
    (tail : ∀ value, Spares (next value)) : Spares (first >>= next) := by
  cases first with
  | error raised => exact fun scopeId same => head scopeId (congrArg Except.error (Except.error.inj same))
  | ok value => exact tail value

theorem spares_map {f : α → β} (head : Spares first) : Spares (f <$> first) := by
  cases first with
  | error raised => exact fun scopeId same => head scopeId (congrArg Except.error (Except.error.inj same))
  | ok value => exact spares_ok _

theorem spares_invalid (message : String) (context : List (String × ContextValue)) :
    Spares (.error (.invalidSchedule message context) : Except Raised α) := nofun

theorem spares_mapM {items : List β} {f : β → Except Raised α} (each : ∀ item, Spares (f item)) :
    Spares (items.mapM f) := by
  induction items with
  | nil => exact spares_ok _
  | cons item items induction =>
    rw [List.mapM_cons]
    exact spares_bind (each item) fun _ => spares_bind induction fun _ => spares_ok _

theorem spares_later (instant : Nat) (duration : Int) : Spares (later instant duration) := by
  unfold later
  split
  · exact spares_ok _
  · exact nofun

theorem spares_parseValue (text : String) (minimum maximum : Nat) (names : List (String × Nat)) :
    Spares (parseValue text minimum maximum names) := by
  unfold parseValue
  simp only
  split
  · exact spares_ok _
  · split
    · exact spares_invalid _ _
    · split
      · exact spares_ok _
      · exact spares_invalid _ _

theorem spares_parseItem (chars : List Char) (minimum maximum : Nat) (names : List (String × Nat)) :
    Spares (parseItem chars minimum maximum names) := by
  have step (separator : Bool) (text : String) : Spares (parseStep separator text) := by
    unfold parseStep
    split
    · split
      · exact spares_invalid _ _
      · split
        · exact spares_invalid _ _
        · exact spares_ok _
    · exact spares_ok _
  have range (base : List Char) : Spares (parseRange base minimum maximum names) := by
    unfold parseRange
    split
    · exact spares_ok _
    · split
      · refine spares_bind (spares_parseValue _ _ _ _) fun start => ?_
        refine spares_bind (spares_parseValue _ _ _ _) fun stop => ?_
        split
        · exact spares_bind (spares_invalid _ _) fun _ => spares_ok _
        · exact spares_ok _
      · exact spares_bind (spares_parseValue _ _ _ _) fun _ => spares_ok _
  unfold parseItem
  split
  · exact spares_bind (spares_invalid _ _) fun _ =>
      spares_bind (step _ _) fun _ => spares_bind (range _) fun _ => spares_ok _
  · exact spares_bind (step _ _) fun _ => spares_bind (range _) fun _ => spares_ok _

theorem spares_compileCron (expression : String) : Spares (compileCron expression) := by
  have field (chars : List Char) (minimum maximum : Nat) (names : List (String × Nat)) :
      Spares (parseField chars minimum maximum names) :=
    spares_bind (spares_mapM fun _ => spares_parseItem _ _ _ _) fun _ => spares_ok _
  unfold compileCron
  split
  · exact spares_bind (field _ _ _ _) fun _ => spares_bind (field _ _ _ _) fun _ =>
      spares_bind (field _ _ _ _) fun _ => spares_bind (field _ _ _ _) fun _ =>
        spares_bind (field _ _ _ _) fun _ => spares_ok _
  · exact spares_invalid _ _

theorem spares_nextRunAfter (zones : String → Zone) (schedule : Schedule) (after : Nat) :
    Spares (nextRunAfter zones schedule after) := by
  cases schedule with
  | once runAt => exact spares_ok _
  | interval everySeconds startAt bounded =>
    simp only [nextRunAfter]
    split
    · exact spares_ok _
    · exact spares_map (spares_later _ _)
  | cron expression timezone =>
    refine spares_bind (spares_compileCron expression) fun compiled => ?_
    simp only
    split
    · exact spares_ok _
    · split
      · rintro _ ⟨⟩
      · exact spares_invalid _ _

theorem spares_scanMisfires (zones : String → Zone) (schedule : Schedule) (now rounds cursor : Nat) :
    Spares (scanMisfires zones schedule now rounds cursor) := by
  induction rounds generalizing cursor with
  | zero => exact spares_invalid _ _
  | succ rounds induction =>
    refine spares_bind (spares_nextRunAfter zones schedule cursor) fun candidate => ?_
    cases candidate with
    | none => exact spares_ok _
    | some candidate =>
      simp only
      split
      · exact spares_ok _
      · exact spares_bind (induction candidate) fun _ => spares_ok _

theorem spares_materializeSchedule (zones : String → Zone) (schedule : Schedule)
    (firstDue now : Nat) (policy : MisfirePolicy) :
    Spares (materializeSchedule zones schedule firstDue now policy) := by
  unfold materializeSchedule
  simp only
  split
  · exact spares_ok _
  · refine spares_bind (spares_nextRunAfter zones schedule now) fun future => ?_
    refine spares_bind (spares_later _ _) fun graceBoundary => ?_
    refine spares_bind (spares_later _ _) fun windowBoundary => ?_
    split
    · split <;> exact spares_ok _
    · exact spares_ok _
    · refine spares_bind (spares_later _ _) fun cursor => ?_
      exact spares_bind (spares_scanMisfires _ _ _ _ _) fun _ => spares_ok _

theorem spares_materialization (service : AutomationService) (task : AutomationTask)
    (now createdAt : Nat) (workItemId : Nat → String) :
    Spares (service.materialization task now workItemId createdAt) := by
  refine spares_bind (spares_materializeSchedule _ _ _ _ _) fun materialized => ?_
  refine spares_bind (spares_mapM fun scheduledFor => ?_) fun executions => spares_ok _
  exact spares_bind (spares_bind (spares_later _ _) fun _ => spares_ok _) fun _ => spares_ok _

end Spares

/-! ## The queue of a task -/

/-- A computation raises that a queue is full. -/
def QueuesFull {α : Type} (program : StoreM α) (store : MemoryAutomationStore) : Prop :=
  ∃ scopeId, program.outcome store = .error (.queueFull scopeId)

section Queue

variable {store : MemoryAutomationStore} {task current : AutomationTask} {expectedNextRunAt now : Nat}
  {executions : List (ScheduledExecution × String)} {α : Type} {program : StoreM α}

theorem not_queuesFull_iff : ¬QueuesFull program store ↔
    program.Ensures store (fun _ _ => True) fun raised _ =>
      ∀ scopeId, raised ≠ .queueFull scopeId := by
  unfold QueuesFull EStateM.Ensures EStateM.outcome
  split
  · simp
  · simp

theorem queuesFull_map {β : Type} {f : α → β} :
    QueuesFull (f <$> program) store ↔ QueuesFull program store := by
  rw [← not_iff_not, not_queuesFull_iff, ensures_map, ← not_queuesFull_iff]

open MemoryAutomationStore in
/-- A current materialisation whose new occurrences do not fit the queue changes nothing. -/
theorem materializeTask_overfull (opened : store.closed = false)
    (stored : store.tasks.get? task.taskId = some current)
    (owned : current.namespace = task.namespace ∧ current.ownerId = task.ownerId)
    (isCurrent : materializationIsCurrent current task expectedNextRunAt = true)
    (exceeded : task.limits.maxQueuedRuns <
      store.queuedCount (fun execution => execution.taskId == some task.taskId) +
        (store.unknownOccurrences task executions).length) :
    (materializeTask task expectedNextRunAt executions now).Fails store
      (· = .queueFull task.taskId) := by
  have full : requireQueueCapacity
      (store.queuedCount fun execution => execution.taskId == some task.taskId)
      (store.unknownOccurrences task executions).length task.limits.maxQueuedRuns task.taskId =
        .error (.queueFull task.taskId) := if_pos exceeded
  simp only [EStateM.Fails, materializeTask, ensures_bind, ensures_ensureOpen, ensures_ownedTask,
    ensures_ite, ensures_pure, ensures_get, ensures_ofExcept, ensures_ensureCapacity,
    ensures_modify]
  refine ⟨fun closed => by simp [opened] at closed, fun _ => ⟨fun found same _ _ => ?_,
    fun others => absurd owned.2 (others current stored owned.1)⟩⟩
  obtain rfl := Option.some.inj (stored.symm.trans same)
  refine ⟨fun outdated => by simp [isCurrent] at outdated, fun _ => ⟨fun value room => ?_,
    fun raised error => ?_⟩⟩
  · cases room.symm.trans full
  · exact ⟨Except.error.inj (error.symm.trans full), trivial⟩

open MemoryAutomationStore in
/-- A current materialisation is rejected exactly when its new occurrences do not fit the queue. -/
theorem queuesFull_materializeTask_iff (opened : store.closed = false)
    (stored : store.tasks.get? task.taskId = some current)
    (owned : current.namespace = task.namespace ∧ current.ownerId = task.ownerId)
    (isCurrent : materializationIsCurrent current task expectedNextRunAt = true) :
    QueuesFull (materializeTask task expectedNextRunAt executions now) store ↔
      task.limits.maxQueuedRuns <
        store.queuedCount (fun execution => execution.taskId == some task.taskId) +
          (store.unknownOccurrences task executions).length := by
  constructor
  · intro full
    by_contra fits
    refine not_queuesFull_iff.mpr ?_ full
    have room : requireQueueCapacity
        (store.queuedCount fun execution => execution.taskId == some task.taskId)
        (store.unknownOccurrences task executions).length task.limits.maxQueuedRuns task.taskId =
          .ok () := requireQueueCapacity_eq_ok.mpr (Nat.not_lt.mp fits)
    simp only [materializeTask, ensures_bind, ensures_ensureOpen, ensures_ownedTask, ensures_ite,
      ensures_pure, ensures_get, ensures_ofExcept, ensures_ensureCapacity, ensures_modify]
    have items (after : MemoryAutomationStore) (pending : List (ScheduledExecution × String)) :
        (pending.forM (materializeItem task.namespace now)).Ensures after (fun _ _ => True)
          fun raised _ => ∀ scopeId, raised ≠ .queueFull scopeId := by
      rw [List.forM_eq_forM]
      refine ensures_forM trivial fun item _ after _ => ?_
      simp only [materializeItem, ensures_bind, ensures_modify, ensures_createWork]
      exact ⟨fun _ => trivial, fun _ => nofun⟩
    refine ⟨fun _ => nofun, fun _ => ⟨fun found _ _ _ => ⟨fun _ => trivial, fun _ =>
      ⟨fun _ _ => ?_, fun raised exceeded => ?_⟩⟩, fun _ => nofun⟩⟩
    · exact ⟨fun _ => ⟨fun _ => nofun, fun impossible => absurd impossible (lt_irrefl _)⟩,
        fun _ => ⟨fun _ => ⟨fun _ => nofun, fun impossible => absurd impossible (lt_irrefl _)⟩,
          fun _ => items _ _⟩⟩
    · exact absurd (room.symm.trans exceeded) nofun
  · intro full
    obtain ⟨raised, outcome, rfl, -⟩ :=
      (materializeTask_overfull opened stored owned isCurrent full).raises
    exact ⟨task.taskId, outcome⟩

end Queue

/-- New occurrences are counted by their distinct keys. -/
theorem length_pendingOccurrences (seen : List String) (items : List (ScheduledExecution × String)) :
    (pendingOccurrences seen items).length =
      ((items.map (·.1.occurrenceKey)).toFinset \ seen.toFinset).card := by
  induction items generalizing seen with
  | nil => simp [pendingOccurrences]
  | cons item items induction =>
    rw [pendingOccurrences]
    split
    · next known =>
        rw [induction seen, List.map_cons, List.toFinset_cons,
          Finset.insert_sdiff_of_mem _ (List.mem_toFinset.mpr known)]
    · next fresh =>
        have unseen : item.1.occurrenceKey ∉ seen.toFinset := mt List.mem_toFinset.mp fresh
        rw [List.length_cons, induction, List.map_cons, List.toFinset_cons, List.toFinset_cons,
          Finset.insert_sdiff_of_notMem _ unseen, Finset.sdiff_insert,
          ← Finset.card_erase_add_one (Finset.mem_insert_self _ _), Finset.erase_insert_eq_erase]

/-! ## Run times up to now -/

theorem bind_eq_ok {α β : Type} {first : Except Raised α} {next : α → Except Raised β} {value : β} :
    first >>= next = .ok value ↔ ∃ middle, first = .ok middle ∧ next middle = .ok value := by
  cases first <;> simp [bind, Except.bind]

/-- The run times of a schedule behind a cursor and up to now, one after another. -/
inductive RunTimes (zones : String → Zone) (schedule : Schedule) (now : Nat) :
    (cursor : Nat) → (instants : List Nat) → Prop
  | ended {cursor : Nat} (none : nextRunAfter zones schedule cursor = .ok none) :
      RunTimes zones schedule now cursor []
  | future {cursor candidate : Nat}
      (some : nextRunAfter zones schedule cursor = .ok (some candidate)) (beyond : now < candidate) :
      RunTimes zones schedule now cursor []
  | due {cursor candidate : Nat} {instants : List Nat}
      (some : nextRunAfter zones schedule cursor = .ok (some candidate)) (reached : candidate ≤ now)
      (rest : RunTimes zones schedule now candidate instants) :
      RunTimes zones schedule now cursor (candidate :: instants)

section RunTimes

variable {zones : String → Zone} {schedule : Schedule} {now cursor : Nat} {instants : List Nat}

/-- A scan finds the run times when they are fewer than its rounds. -/
theorem scanMisfires_eq_ok {rounds : Nat} :
    scanMisfires zones schedule now rounds cursor = .ok instants ↔
      RunTimes zones schedule now cursor instants ∧ instants.length < rounds := by
  constructor
  · intro scanned
    induction rounds generalizing cursor instants with
    | zero => cases scanned
    | succ rounds induction =>
      simp only [scanMisfires, bind_eq_ok] at scanned
      obtain ⟨candidate, next, found⟩ := scanned
      cases candidate with
      | none =>
        obtain rfl := Except.ok.inj found
        exact ⟨.ended next, Nat.succ_pos rounds⟩
      | some candidate =>
        simp only at found
        split at found
        · next beyond =>
            obtain rfl := Except.ok.inj found
            exact ⟨.future next beyond, Nat.succ_pos rounds⟩
        · next reached =>
            obtain ⟨others, rest, same⟩ := bind_eq_ok.mp found
            obtain rfl := Except.ok.inj same
            obtain ⟨times, fewer⟩ := induction rest
            exact ⟨.due next (Nat.not_lt.mp reached) times, Nat.succ_lt_succ fewer⟩
  · rintro ⟨times, fewer⟩
    induction times generalizing rounds with
    | ended next =>
      obtain ⟨rounds, rfl⟩ := Nat.exists_eq_succ_of_ne_zero (Nat.ne_zero_of_lt fewer)
      simp only [scanMisfires, next]
      rfl
    | future next beyond =>
      obtain ⟨rounds, rfl⟩ := Nat.exists_eq_succ_of_ne_zero (Nat.ne_zero_of_lt fewer)
      simp only [scanMisfires, next]
      exact if_pos beyond
    | due next reached times induction =>
      obtain ⟨rounds, rfl⟩ := Nat.exists_eq_succ_of_ne_zero (Nat.ne_zero_of_lt fewer)
      rw [scanMisfires, next]
      refine (if_neg (Nat.not_lt.mpr reached)).trans ?_
      rw [induction (Nat.lt_of_succ_lt_succ fewer)]
      rfl

end RunTimes

/-! ## The condition -/

/-- A wakeup in catch-up mode finds some run times to make up for, and nothing that it computes
before it reaches the store fails. -/
structure CatchesUp (service : AutomationService) (task : AutomationTask) (firstDue now : Nat)
    (instants : List Nat) : Prop where
  mode : task.misfirePolicy.mode = .catchUp
  due : firstDue ≤ now
  next : ∃ future, nextRunAfter service.zones task.schedule now = .ok future
  grace : ∃ boundary, later now (-task.misfirePolicy.grace) = .ok boundary
  missed : ∃ boundary cursor, later now (-task.misfirePolicy.catchUpWindow) = .ok boundary ∧
    later (max firstDue boundary) (-1) = .ok cursor ∧
      RunTimes service.zones task.schedule now cursor instants
  bounded : instants.length < maxMisfireScan
  deadline : ∃ deadline, later now task.limits.queueTimeout = .ok deadline

/-- The occurrences that a catch-up would create: one for every selected run time whose key is not
recorded. -/
def newOccurrences (service : AutomationService) (store : MemoryAutomationStore)
    (task : AutomationTask) (instants : List Nat) : Finset String :=
  ((instants.take task.misfirePolicy.maxCatchUp).map (service.occurrenceAt task)).toFinset \
    (store.knownOccurrences task.namespace).toFinset

section Condition

variable {service : AutomationService} {store : MemoryAutomationStore} {task : AutomationTask}
  {firstDue now createdAt : Nat} {workItemId : Nat → String} {call : StoreCall}

theorem dueExecution_eq_ok {scheduledFor : Nat} {due : ScheduledExecution}
    (outcome : service.dueExecution task now scheduledFor = .ok due) :
    due.occurrenceKey = service.occurrenceAt task scheduledFor ∧
      ∃ deadline, later now task.limits.queueTimeout = .ok deadline := by
  simp only [AutomationService.dueExecution, newExecution, bind_eq_ok] at outcome
  obtain ⟨execution, ⟨deadline, made, -⟩, same⟩ := outcome
  exact ⟨Except.ok.inj same ▸ rfl, deadline, made⟩

/-- The call of a wakeup offers one occurrence for every due instant. -/
theorem materialization_keys
    (outcome : service.materialization task now workItemId createdAt = .ok call) :
    ∃ (materialized : MaterializedSchedule) (executions : List (ScheduledExecution × String)),
      materializeSchedule service.zones task.schedule (task.nextRunAt.getD 0) now
        task.misfirePolicy = .ok materialized ∧
      call = .materializeTask { task with nextRunAt := materialized.nextRunAt }
        (task.nextRunAt.getD 0) executions createdAt ∧
      executions.map (·.1.occurrenceKey) = materialized.dueAt.map (service.occurrenceAt task) ∧
      (materialized.dueAt ≠ [] → ∃ deadline, later now task.limits.queueTimeout = .ok deadline) := by
  simp only [AutomationService.materialization, bind_eq_ok] at outcome
  obtain ⟨materialized, decided, executions, built, same⟩ := outcome
  refine ⟨materialized, _, decided, (Except.ok.inj same).symm, ?_, ?_⟩
  · have keys := map_of_mapM (fun _ _ made => (dueExecution_eq_ok made).1) built
    rw [← keys, List.map_map]
    conv_rhs => rw [← List.zipIdx_map_fst 0 executions]
    rw [List.map_map]
    rfl
  · intro some
    obtain ⟨instant, others, same⟩ := List.exists_cons_of_ne_nil some
    rw [same, List.mapM_cons] at built
    obtain ⟨due, made, -⟩ := bind_eq_ok.mp built
    exact (dueExecution_eq_ok made).2

/-- A wakeup that can compute its deadlines reaches the store. -/
theorem materialization_returns {materialized : MaterializedSchedule}
    (decided : materializeSchedule service.zones task.schedule (task.nextRunAt.getD 0) now
      task.misfirePolicy = .ok materialized)
    (deadline : ∃ deadline, later now task.limits.queueTimeout = .ok deadline) :
    ∃ call, service.materialization task now workItemId createdAt = .ok call := by
  obtain ⟨deadline, made⟩ := deadline
  have each (instants : List Nat) :
      ∃ executions, instants.mapM (service.dueExecution task now) = .ok executions := by
    induction instants with
    | nil => exact ⟨[], rfl⟩
    | cons instant instants induction =>
      obtain ⟨executions, built⟩ := induction
      rw [List.mapM_cons, built]
      simp only [AutomationService.dueExecution, newExecution, made]
      exact ⟨_, rfl⟩
  obtain ⟨executions, built⟩ := each materialized.dueAt
  simp only [AutomationService.materialization, decided, bind, Except.bind, built]
  exact ⟨_, rfl⟩

/-- A catch-up makes up for the first run times. -/
theorem materializeSchedule_catchUp {policy : MisfirePolicy} {schedule : Schedule}
    {zones : String → Zone} {materialized : MaterializedSchedule} (mode : policy.mode = .catchUp)
    (due : firstDue ≤ now) :
    materializeSchedule zones schedule firstDue now policy = .ok materialized ↔
      ∃ future grace boundary cursor instants, nextRunAfter zones schedule now = .ok future ∧
        later now (-policy.grace) = .ok grace ∧
        later now (-policy.catchUpWindow) = .ok boundary ∧
        later (max firstDue boundary) (-1) = .ok cursor ∧
        (RunTimes zones schedule now cursor instants ∧ instants.length < maxMisfireScan) ∧
        materialized = {
          dueAt := instants.take policy.maxCatchUp
          nextRunAt := future
          skippedBefore := if firstDue < max firstDue boundary ∨
            (instants.take policy.maxCatchUp).length < instants.length then some firstDue
              else none } := by
  simp only [materializeSchedule, if_neg (Nat.not_lt.mpr due), mode, bind_eq_ok, pure, Except.pure,
    Except.ok.injEq, scanMisfires_eq_ok]
  constructor
  · rintro ⟨future, next, grace, graced, boundary, bounded, cursor, start, instants, times, same⟩
    exact ⟨future, grace, boundary, cursor, instants, next, graced, bounded, start, times, same.symm⟩
  · rintro ⟨future, grace, boundary, cursor, instants, next, graced, bounded, start, times, same⟩
    exact ⟨future, next, grace, graced, boundary, bounded, cursor, start, instants, times, same.symm⟩

/-- A mode other than the catch-up makes up for one instant at most. -/
theorem dueAt_length_le_one {policy : MisfirePolicy} {schedule : Schedule}
    {zones : String → Zone} {materialized : MaterializedSchedule} (mode : policy.mode ≠ .catchUp)
    (outcome : materializeSchedule zones schedule firstDue now policy = .ok materialized) :
    materialized.dueAt.length ≤ 1 := by
  simp only [materializeSchedule] at outcome
  split at outcome
  · exact Except.ok.inj outcome ▸ Nat.zero_le 1
  simp only [bind_eq_ok] at outcome
  obtain ⟨future, -, grace, -, boundary, -, outcome⟩ := outcome
  have scan (outcome : (do
      let cursor ← later (max firstDue boundary) (-1)
      let dueTimes ← scanMisfires zones schedule now maxMisfireScan cursor
      return {
        dueAt := dueTimes.drop (dueTimes.length - 1)
        nextRunAt := future
        skippedBefore := if firstDue < max firstDue boundary ∨
          (dueTimes.drop (dueTimes.length - 1)).length < dueTimes.length then some firstDue
            else none } : Except Raised MaterializedSchedule) = .ok materialized) :
      materialized.dueAt.length ≤ 1 := by
    simp only [bind_eq_ok] at outcome
    obtain ⟨cursor, -, dueTimes, -, same⟩ := outcome
    obtain rfl := Except.ok.inj same
    simp only [List.length_drop]
    omega
  cases which : policy.mode with
  | catchUp => exact absurd which mode
  | skip =>
    simp only [which] at outcome
    split at outcome
    · exact Except.ok.inj outcome ▸ Nat.zero_le 1
    · exact Except.ok.inj outcome ▸ le_rfl
  | latest =>
    rw [which] at outcome
    cases schedule with
    | interval everySeconds startAt bounded =>
      obtain rfl := Except.ok.inj outcome
      simp only
      split <;> simp
    | once | cron => exact scan outcome

theorem length_unknownOccurrences {executions : List (ScheduledExecution × String)}
    {dueAt : List Nat} {next : Option Nat}
    (keys : executions.map (·.1.occurrenceKey) = dueAt.map (service.occurrenceAt task)) :
    (store.unknownOccurrences { task with nextRunAt := next } executions).length =
      ((dueAt.map (service.occurrenceAt task)).toFinset \
        (store.knownOccurrences task.namespace).toFinset).card := by
  rw [MemoryAutomationStore.unknownOccurrences, length_pendingOccurrences, keys]

/-- A task of the service that waits for a due instant, on an open store. -/
structure Waits (service : AutomationService) (store : MemoryAutomationStore)
    (task : AutomationTask) (firstDue : Nat) : Prop where
  opened : store.closed = false
  stored : store.tasks.get? task.taskId = some task
  owned : task.namespace = service.namespace
  enabled : task.status = .enabled
  scheduled : task.nextRunAt = some firstDue

namespace Waits

variable (waits : Waits service store task firstDue)
include waits

theorem ensures_fetchDueTask {returned : Option AutomationTask → MemoryAutomationStore → Prop}
    {raised : Raised → MemoryAutomationStore → Prop} :
    (service.fetchDueTask task.taskId).Ensures store returned raised ↔
      returned (some task) store := by
  have canonical : validatePersistedText service.namespace "namespace" (some 128) = .ok () :=
    validatePersistedText_eq_ok.mpr service.canonical
  simp only [AutomationService.fetchDueTask, MemoryAutomationStore.getScheduledTask, ensures_bind,
    canonical, ensures_ofExcept, MemoryAutomationStore.ensures_ensureOpen, waits.opened, ensures_get,
    waits.stored]
  simp [waits.owned, waits.enabled, waits.scheduled]

theorem ensures_materializeWakeup
    {returned : Option StoreReply → MemoryAutomationStore → Prop}
    {raised : Raised → MemoryAutomationStore → Prop} :
    (service.materializeWakeup task.taskId now workItemId createdAt).Ensures store returned raised ↔
      (∀ call, service.materialization task now workItemId createdAt = .ok call →
        (MemoryAutomationStore.perform call).Ensures store (fun reply => returned (some reply))
          raised) ∧
      ∀ error, service.materialization task now workItemId createdAt = .error error →
        raised error store := by
  simp only [AutomationService.materializeWakeup, ensures_bind, waits.ensures_fetchDueTask,
    ensures_ofExcept, ensures_pure]

theorem queuesFull_materializeWakeup_iff :
    QueuesFull (service.materializeWakeup task.taskId now workItemId createdAt) store ↔
      ∃ call, service.materialization task now workItemId createdAt = .ok call ∧
        QueuesFull (MemoryAutomationStore.perform call) store := by
  rw [← not_iff_not, not_queuesFull_iff, waits.ensures_materializeWakeup]
  push Not
  simp only [not_queuesFull_iff]
  refine and_iff_left fun error failed scopeId full => ?_
  exact spares_materialization service task now createdAt workItemId scopeId (full ▸ failed)

/-- What the store decides about a call of this wakeup while nothing of the task is queued. -/
theorem queuesFull_perform_iff {dueAt : List Nat} {next : Option Nat}
    {executions : List (ScheduledExecution × String)}
    (idle : store.queuedCount (fun execution => execution.taskId == some task.taskId) = 0)
    (keys : executions.map (·.1.occurrenceKey) = dueAt.map (service.occurrenceAt task)) :
    QueuesFull (MemoryAutomationStore.perform (.materializeTask
      { task with nextRunAt := next } firstDue executions createdAt)) store ↔
      task.limits.maxQueuedRuns < ((dueAt.map (service.occurrenceAt task)).toFinset \
        (store.knownOccurrences task.namespace).toFinset).card := by
  rw [MemoryAutomationStore.perform, queuesFull_map]
  have proposal : (store.unknownOccurrences { task with nextRunAt := next } executions).length =
      ((dueAt.map (service.occurrenceAt task)).toFinset \
        (store.knownOccurrences task.namespace).toFinset).card := length_unknownOccurrences keys
  have isCurrent : materializationIsCurrent task { task with nextRunAt := next } firstDue = true := by
    simp [materializationIsCurrent, waits.scheduled, waits.enabled]
  generalize same : ({ task with nextRunAt := next } : AutomationTask) = proposed at *
  have id : proposed.taskId = task.taskId := same ▸ rfl
  have limits : proposed.limits = task.limits := same ▸ rfl
  have owner : task.namespace = proposed.namespace ∧ task.ownerId = proposed.ownerId :=
    same ▸ ⟨rfl, rfl⟩
  rw [queuesFull_materializeTask_iff waits.opened (id ▸ waits.stored) owner isCurrent, id, idle,
    Nat.zero_add, limits, proposal]

/-- With nothing queued, a wakeup finds the queue full exactly when it catches up with more
occurrences than the queue holds. -/
theorem queuesFull_iff (positive : 1 ≤ task.limits.maxQueuedRuns)
    (idle : store.queuedCount (fun execution => execution.taskId == some task.taskId) = 0) :
    QueuesFull (service.materializeWakeup task.taskId now workItemId createdAt) store ↔
      ∃ instants, CatchesUp service task firstDue now instants ∧
        task.limits.maxQueuedRuns < (newOccurrences service store task instants).card := by
  rw [waits.queuesFull_materializeWakeup_iff]
  have first : task.nextRunAt.getD 0 = firstDue := by rw [waits.scheduled, Option.getD_some]
  constructor
  · rintro ⟨call, made, full⟩
    obtain ⟨materialized, executions, decided, rfl, keys, deadline⟩ := materialization_keys made
    rw [first] at decided full
    rw [waits.queuesFull_perform_iff idle keys] at full
    have distinct : (materialized.dueAt.map (service.occurrenceAt task)).toFinset.card ≤
        materialized.dueAt.length := by
      simpa using List.toFinset_card_le (materialized.dueAt.map (service.occurrenceAt task))
    have fewer := Finset.card_le_card (Finset.sdiff_subset
      (s := (materialized.dueAt.map (service.occurrenceAt task)).toFinset)
      (t := (store.knownOccurrences task.namespace).toFinset))
    have mode : task.misfirePolicy.mode = .catchUp := by
      by_contra other
      have single := dueAt_length_le_one other decided
      omega
    have due : firstDue ≤ now := by
      by_contra early
      rw [materializeSchedule, if_pos (Nat.not_le.mp early)] at decided
      obtain rfl := Except.ok.inj decided
      simp at full
    have created : materialized.dueAt ≠ [] := by
      intro empty
      simp [empty] at full
    have timely := deadline created
    obtain ⟨future, grace, boundary, cursor, instants, next, graced, bounded, start,
      ⟨times, short⟩, rfl⟩ := (materializeSchedule_catchUp mode due).mp decided
    refine ⟨instants, ⟨mode, due, ⟨future, next⟩, ⟨grace, graced⟩,
      ⟨boundary, cursor, bounded, start, times⟩, short, timely⟩, full⟩
  · rintro ⟨instants, catches, full⟩
    obtain ⟨future, next⟩ := catches.next
    obtain ⟨grace, graced⟩ := catches.grace
    obtain ⟨boundary, cursor, bounded, start, times⟩ := catches.missed
    have decided := (materializeSchedule_catchUp catches.mode catches.due).mpr
      ⟨future, grace, boundary, cursor, instants, next, graced, bounded, start,
        ⟨times, catches.bounded⟩, rfl⟩
    rw [← first] at decided
    obtain ⟨call, made⟩ := materialization_returns decided catches.deadline
    obtain ⟨materialized, executions, again, rfl, keys, -⟩ := materialization_keys made
    obtain rfl := Except.ok.inj (decided.symm.trans again)
    refine ⟨_, made, ?_⟩
    rw [first, waits.queuesFull_perform_iff idle keys]
    exact full

theorem proposal_fails {next : Option Nat} {executions : List (ScheduledExecution × String)}
    (full : QueuesFull (MemoryAutomationStore.materializeTask { task with nextRunAt := next }
      firstDue executions createdAt) store) :
    (MemoryAutomationStore.materializeTask { task with nextRunAt := next } firstDue executions
      createdAt).Fails store (· = .queueFull task.taskId) := by
  have isCurrent : materializationIsCurrent task { task with nextRunAt := next } firstDue = true := by
    simp [materializationIsCurrent, waits.scheduled, waits.enabled]
  generalize same : ({ task with nextRunAt := next } : AutomationTask) = proposed at *
  have id : proposed.taskId = task.taskId := same ▸ rfl
  have owner : task.namespace = proposed.namespace ∧ task.ownerId = proposed.ownerId :=
    same ▸ ⟨rfl, rfl⟩
  have stored : store.tasks.get? proposed.taskId = some task := id ▸ waits.stored
  rw [← id]
  exact materializeTask_overfull waits.opened stored owner isCurrent
    ((queuesFull_materializeTask_iff waits.opened stored owner isCurrent).mp full)

theorem materializeWakeup_fails
    (full : QueuesFull (service.materializeWakeup task.taskId now workItemId createdAt) store) :
    (service.materializeWakeup task.taskId now workItemId createdAt).Fails store
      (· = .queueFull task.taskId) := by
  obtain ⟨call, made, refused⟩ := waits.queuesFull_materializeWakeup_iff.mp full
  obtain ⟨materialized, executions, -, same, -, -⟩ := materialization_keys made
  rw [same, MemoryAutomationStore.perform, queuesFull_map, waits.scheduled, Option.getD_some]
    at refused
  refine waits.ensures_materializeWakeup.mpr ⟨fun other again => ?_, fun error failed => ?_⟩
  · obtain rfl := Except.ok.inj (made.symm.trans again)
    rw [same, MemoryAutomationStore.perform, ensures_map, waits.scheduled, Option.getD_some]
    exact waits.proposal_fails refused
  · cases made.symm.trans failed

theorem materializeDueTask_of_full {retryAt : Nat}
    (full : QueuesFull (service.materializeWakeup task.taskId now workItemId createdAt) store)
    (soon : later now (60 * microsecondsPerSecond) = .ok retryAt) :
    (service.materializeDueTask task.taskId now workItemId createdAt).Ensures store
      (fun wakeup after => wakeup = .postponed retryAt ∧ after = store) fun _ _ => False := by
  rw [AutomationService.materializeDueTask, ensures_tryCatch, ensures_bind]
  refine (waits.materializeWakeup_fails full).mono (fun _ _ => False.elim) ?_
  rintro _ _ ⟨rfl, rfl⟩
  simp only [Raised.queueFull, ensures_map, ensures_ofExcept, soon]
  simp

end Waits

/-- While nothing of its task is queued, a due wakeup never finds the queue full exactly when it does
not catch up with more new occurrences than the task may queue.  Otherwise it is put off by a minute
and leaves the store as it is. -/
theorem wakeup_progresses (waits : Waits service store task firstDue)
    (positive : 1 ≤ task.limits.maxQueuedRuns)
    (idle : store.queuedCount (fun execution => execution.taskId == some task.taskId) = 0)
    (now createdAt : Nat) (workItemId : Nat → String) :
    (¬QueuesFull (service.materializeWakeup task.taskId now workItemId createdAt) store ↔
      ∀ instants, CatchesUp service task firstDue now instants →
        (newOccurrences service store task instants).card ≤ task.limits.maxQueuedRuns) ∧
    (QueuesFull (service.materializeWakeup task.taskId now workItemId createdAt) store →
      ∀ retryAt, later now (60 * microsecondsPerSecond) = .ok retryAt →
        (service.materializeDueTask task.taskId now workItemId createdAt).Ensures store
          (fun wakeup after => wakeup = .postponed retryAt ∧ after = store) fun _ _ => False) := by
  refine ⟨?_, fun full retryAt => waits.materializeDueTask_of_full full⟩
  rw [waits.queuesFull_iff positive idle]
  push Not
  exact Iff.rfl

end Condition

/-! ## A wedged task -/

open ServiceState (sampleService sampleDue dueTask)

/-- The waiting task with a queue of one execution that catches up. -/
def catchUpTask : AutomationTask := { dueTask with
  misfirePolicy := { mode := .catchUp }
  limits := { maxQueuedRuns := 1 } }

/-- A store that holds the waiting task alone. -/
def waitingStore (task : AutomationTask) : MemoryAutomationStore where
  tasks := Dict.empty.insert task.taskId task

theorem waitingStore_waits {task : AutomationTask} {firstDue : Nat} (owned : task.namespace = "tenant")
    (enabled : task.status = .enabled) (scheduled : task.nextRunAt = some firstDue) :
    Waits sampleService (waitingStore task) task firstDue where
  opened := rfl
  stored := by simp [waitingStore]
  owned := owned
  enabled := enabled
  scheduled := scheduled

/-- A task that runs its latest missed instant progresses. -/
theorem wakeup_progresses_latest :
    ¬QueuesFull (sampleService.materializeWakeup dueTask.taskId
      (sampleDue + 3600 * microsecondsPerSecond) Nat.repr 0) (waitingStore dueTask) := by
  have waits : Waits sampleService (waitingStore dueTask) dueTask sampleDue :=
    waitingStore_waits rfl rfl rfl
  have positive : 1 ≤ dueTask.limits.maxQueuedRuns := by decide
  refine (wakeup_progresses waits positive rfl (sampleDue + 3600 * microsecondsPerSecond) 0
    Nat.repr).1.mpr fun instants catches => ?_
  exact absurd catches.mode (by decide)

/-- A task with a queue of one execution that missed two instants never gets them queued. -/
theorem wakeup_progresses_fails : ¬∀ (service : AutomationService) (store : MemoryAutomationStore)
    (task : AutomationTask) (firstDue : Nat), Waits service store task firstDue →
      1 ≤ task.limits.maxQueuedRuns →
      store.queuedCount (fun execution => execution.taskId == some task.taskId) = 0 →
      ∀ (now createdAt : Nat) (workItemId : Nat → String),
        ¬QueuesFull (service.materializeWakeup task.taskId now workItemId createdAt) store := by
  intro progresses
  have waits : Waits sampleService (waitingStore catchUpTask) catchUpTask sampleDue :=
    waitingStore_waits rfl rfl rfl
  have times : RunTimes sampleService.zones catchUpTask.schedule
      (sampleDue + 60 * microsecondsPerSecond) (sampleDue - 1)
      [sampleDue, sampleDue + 60 * microsecondsPerSecond] :=
    .due rfl (by decide) (.due rfl le_rfl (.future rfl (by decide)))
  have catches : CatchesUp sampleService catchUpTask sampleDue
      (sampleDue + 60 * microsecondsPerSecond)
      [sampleDue, sampleDue + 60 * microsecondsPerSecond] :=
    ⟨rfl, by decide, ⟨_, rfl⟩, ⟨_, rfl⟩, ⟨_, _, rfl, rfl, times⟩, by decide, ⟨_, rfl⟩⟩
  have more : 1 < (newOccurrences sampleService (waitingStore catchUpTask) catchUpTask
      [sampleDue, sampleDue + 60 * microsecondsPerSecond]).card := by
    decide +kernel
  exact progresses _ _ _ _ waits le_rfl rfl (sampleDue + 60 * microsecondsPerSecond) 0 Nat.repr
    ((waits.queuesFull_iff le_rfl rfl).mpr ⟨_, catches, more⟩)

end Tinkerfin.Automation
