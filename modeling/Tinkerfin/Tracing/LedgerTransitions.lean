import Mathlib.Data.List.Pairwise
import Tinkerfin.Tracing.MemoryLedger

/-!
# What a commit does to the rows

A committed change leaves every row alone or replaces one thread.  `ThreadTransition` names all ways
in which it does, with the guards that the code checked and the deltas that it reports; invariants of
the rows are proved from it without reading the reducer again.
-/

namespace Tinkerfin.Tracing

open Messaging (RunIdentity ThreadIdentity bind_eq_ok)

theorem agree_of_pairwise {α β : Type} {f : α → β} {items : List α}
    (pairs : items.Pairwise fun left right => f left = f right) {left right : α}
    (leftMember : left ∈ items) (rightMember : right ∈ items) : f left = f right := by
  have symmetric : Std.Symm fun left right => f left = f right := ⟨fun _ _ => Eq.symm⟩
  exact List.Pairwise.forall_of_forall (R := fun left right => f left = f right)
    (fun _ _ => rfl) pairs leftMember rightMember

/-! ## Guards of the reducer -/

section Guards

variable {change : TraceLedgerChange} {state : TraceLedgerState} {key : TraceThreadKey}
  {thread : TraceLedgerThreadState} {writer : TraceLedgerWriterState}

theorem requireExactThread_eq_ok :
    requireExactThread state key = .ok thread ↔ state.thread = some thread ∧ thread.key = key := by
  unfold requireExactThread
  split
  · next absent => simp [absent]
  · next stored present =>
      split
      · next same =>
          simp only [present, Except.ok.injEq, Option.some.injEq]
          constructor
          · rintro rfl
            exact ⟨rfl, same⟩
          · rintro ⟨rfl, -⟩
            rfl
      · next different =>
          simp only [present, Option.some.injEq, reduceCtorEq, false_iff, not_and]
          rintro rfl
          exact different

theorem ownedWriter_eq_ok {requireUnexpired : Bool}
    (owned : ownedWriter change state requireUnexpired = .ok (thread, writer)) :
    change.key = some thread.key ∧ change.runId = some writer.runId ∧
      state.thread = some thread ∧ state.targetWriter = some writer ∧ writer.OwnedBy change ∧
      (requireUnexpired = true → state.observedAt < writer.leaseExpiresAt) := by
  unfold ownedWriter at owned
  split at owned
  · next key runId hasKey hasRun =>
      obtain ⟨found, exact, owned⟩ := bind_eq_ok.mp owned
      obtain ⟨present, same⟩ := requireExactThread_eq_ok.mp exact
      split at owned
      · cases owned
      · next stored target =>
          simp only [bind_eq_ok, reject_eq_ok, pure, Except.pure, Except.ok.injEq, Prod.mk.injEq,
            not_not, not_or, not_and, not_le] at owned
          obtain ⟨-, run, -, ⟨ownedBy, unexpired⟩, rfl, rfl⟩ := owned
          exact ⟨same ▸ hasKey, run ▸ hasRun, present, target, ownedBy, unexpired⟩
  · cases owned

/-- The thread that a change names, when its scope is valid. -/
theorem scope_identity {identity : ThreadIdentity} {runId : Option String}
    (valid : validateChangeScope change state = .ok ())
    (target : change.target = .ok (identity, runId)) :
    (∀ key, change.key = some key → key.toThreadIdentity = identity) ∧
      (∀ checkpoint, change.checkpoint = some checkpoint →
        checkpoint.key.toThreadIdentity = identity) ∧
      identity.namespace = change.namespace := by
  simp only [validateChangeScope, bind_eq_ok, reject_eq_ok, not_or, not_not] at valid
  obtain ⟨-, ⟨spaces, threads⟩, -⟩ := valid
  have agree : ∀ named ∈ scopeKeys change state, named.namespace = change.namespace := by
    simpa using spaces
  have same : ∀ left ∈ scopeKeys change state, ∀ right ∈ scopeKeys change state,
      left.threadId = right.threadId := fun left leftMember right rightMember =>
    agree_of_pairwise threads leftMember rightMember
  have named : identity ∈ scopeKeys change state ∧ identity.namespace = change.namespace := by
    unfold TraceLedgerChange.target at target
    split at target
    · next run hasIdentity =>
        obtain ⟨rfl, -⟩ := Prod.mk.inj (Except.ok.inj target)
        have member : run.toThreadIdentity ∈ scopeKeys change state := by
          simp [scopeKeys, hasIdentity]
        have space := agree _ member
        refine ⟨?_, rfl⟩
        rw [← space]
        exact member
    · next key noIdentity hasKey =>
        obtain ⟨rfl, -⟩ := Prod.mk.inj (Except.ok.inj target)
        have member : key.toThreadIdentity ∈ scopeKeys change state := by
          simp [scopeKeys, hasKey]
        have space := agree _ member
        refine ⟨?_, rfl⟩
        rw [← space]
        exact member
    · cases target
  have equal : ∀ other ∈ scopeKeys change state, other = identity := by
    intro other member
    have space : other.namespace = identity.namespace := (agree _ member).trans named.2.symm
    have thread : other.threadId = identity.threadId := same _ member _ named.1
    cases other
    cases identity
    simp_all
  refine ⟨fun key has => equal _ ?_, fun checkpoint has => equal _ ?_, named.2⟩
  · simp [scopeKeys, has]
  · simp [scopeKeys, has]

theorem scope_run {runId : String} (valid : validateChangeScope change state = .ok ())
    (named : change.runId = some runId) (target : state.targetWriter = some writer) :
    writer.runId = runId := by
  simp only [validateChangeScope, bind_eq_ok, reject_eq_ok, not_or, not_not] at valid
  obtain ⟨-, -, -, -, -, runs, -⟩ := valid
  exact agree_of_pairwise (f := id) runs (by simp [scopeRunIds, target])
    (by simp [scopeRunIds, named])

end Guards

/-! ## Transitions of one thread -/

/-- The sums that admission of one more writer must leave within the limits. -/
structure Admissible (change : TraceLedgerChange) (ledger : MemoryLedger) (thread : MemoryThread) :
    Prop where
  events : thread.state.nextSeq - 1 + thread.reservedEvents +
    change.limits.terminalReserveEventsPerRun ≤ change.limits.maxThreadEvents
  bytes : thread.state.persistedBytes + thread.reservedBytes +
    change.limits.terminalReserveBytesPerRun ≤ change.limits.maxThreadBytes
  tracerBytes : ledger.namespacePersistedBytes change.namespace +
    ledger.namespaceReservedBytes change.namespace +
      change.limits.terminalReserveBytesPerRun ≤ change.limits.maxTracerBytes

/-- The row of a Run that was just admitted. -/
def admittedWriter (change : TraceLedgerChange) (runId ownerToken : String) (leaseExpiresAt : Nat) :
    TraceLedgerWriterState where
  runId := runId
  ownerToken := ownerToken
  fence := 1
  leaseExpiresAt := leaseExpiresAt
  active := true
  terminalCommitted := false
  closedCommitted := false
  committedEvents := 0
  remainingEventReserve := change.limits.terminalReserveEventsPerRun
  remainingByteReserve := change.limits.terminalReserveBytesPerRun

/-- A thread with one writer row replaced. -/
def MemoryThread.withWriter (thread : MemoryThread) (writer : TraceLedgerWriterState) :
    MemoryThread :=
  { thread with writers := thread.writers.insert writer.runId writer }

/-- The thread after a committed batch. -/
def MemoryThread.extended (thread : MemoryThread) (events : List TraceEvent)
    (drafts : List TraceStoredFact) (writer : TraceLedgerWriterState) : MemoryThread :=
  { thread with
    state :=
      { key := thread.state.key
        nextSeq := thread.state.nextSeq + events.length
        persistedBytes := thread.state.persistedBytes + persistedBytesOf events }
    writers := thread.writers.insert writer.runId writer
    events := thread.events ++ List.zipWith memoryStoredEvent events drafts }

/-- A row that closed with everything it reserved returned. -/
def TraceLedgerWriterState.released (writer : TraceLedgerWriterState) : TraceLedgerWriterState :=
  { writer with active := false, remainingEventReserve := 0, remainingByteReserve := 0 }

/-- The change names the stored generation and Run, and proves the token and fence of the writer. -/
structure HeldBy (change : TraceLedgerChange) (identity : ThreadIdentity) (thread : MemoryThread)
    (writer : TraceLedgerWriterState) : Prop where
  target : change.target = .ok (identity, some writer.runId)
  generation : change.key = some thread.state.key
  owned : writer.OwnedBy change

/-- All ways in which a change replaces a thread, and what it adds to the account. -/
inductive ThreadTransition (encodedLength : TraceEvent → Nat) (change : TraceLedgerChange)
    (now : Nat) (ledger : MemoryLedger) (identity : ThreadIdentity) :
    Option MemoryThread → LedgerAccount → Prop
  | created (key : TraceThreadKey) (runId ownerToken : String) (leaseExpiresAt : Nat)
      (kind : change.kind = .openWriter)
      (absent : ledger.get? identity = none)
      (named : key.toThreadIdentity = identity)
      (room : ledger.namespaceThreadCount change.namespace < change.limits.maxTracerThreads)
      (admissible : Admissible change ledger { state := ⟨key, 1, 0⟩ }) :
      ThreadTransition encodedLength change now ledger identity
        (some (MemoryThread.withWriter { state := ⟨key, 1, 0⟩ }
          (admittedWriter change runId ownerToken leaseExpiresAt)))
        ⟨1, 0, change.limits.terminalReserveBytesPerRun⟩
  | admitted (thread : MemoryThread) (runId ownerToken : String) (leaseExpiresAt : Nat)
      (kind : change.kind = .openWriter)
      (stored : ledger.get? identity = some thread)
      (absent : thread.writers.get? runId = none)
      (admissible : Admissible change ledger thread) :
      ThreadTransition encodedLength change now ledger identity
        (some (thread.withWriter (admittedWriter change runId ownerToken leaseExpiresAt)))
        ⟨0, 0, change.limits.terminalReserveBytesPerRun⟩
  | renewed (thread : MemoryThread) (writer : TraceLedgerWriterState) (leaseExpiresAt : Nat)
      (stored : ledger.get? identity = some thread)
      (held : thread.writers.get? writer.runId = some writer)
      (active : writer.active = true)
      (token : some writer.ownerToken = change.ownerToken)
      (owned : change.kind = .openWriter ∨ HeldBy change identity thread writer) :
      ThreadTransition encodedLength change now ledger identity
        (some (thread.withWriter { writer with leaseExpiresAt })) {}
  | takenOver (thread : MemoryThread) (writer : TraceLedgerWriterState) (ownerToken : String)
      (leaseExpiresAt : Nat)
      (kind : change.kind = .openWriter)
      (stored : ledger.get? identity = some thread)
      (held : thread.writers.get? writer.runId = some writer)
      (active : writer.active = true)
      (open_ : writer.closedCommitted = false)
      (expired : writer.leaseExpiresAt ≤ now)
      (other : writer.ownerToken ≠ ownerToken) :
      ThreadTransition encodedLength change now ledger identity
        (some (thread.withWriter
          { writer with ownerToken, fence := writer.fence + 1, leaseExpiresAt })) {}
  | appended (thread : MemoryThread) (writer : TraceLedgerWriterState) (flags : Bool × Bool)
      (events : List TraceEvent) (leaseExpiresAt : Nat) (runId : Option String)
      (request : Option TraceCheckpointRequest) (includeActive : Bool)
      (kind : change.kind = .appendEvents)
      (stored : ledger.get? identity = some thread)
      (held : thread.writers.get? writer.runId = some writer)
      (owned : HeldBy change identity thread writer)
      (unexpired : change.enforceWriterLease = true → now < writer.leaseExpiresAt)
      (batch : checkBatch change (change.facts.map (·.fact)) = .ok ())
      (flagged : lifecycleFlags change.mandatory writer (change.facts.map (·.fact)) = .ok flags)
      (made : appendedEvents encodedLength change thread.state writer thread.state.nextSeq
        change.facts = .ok events)
      (fits : checkCapacity change (ledger.loadState identity runId request includeActive now)
        thread.state writer events = .ok ()) :
      ThreadTransition encodedLength change now ledger identity
        (some (thread.extended events change.facts
          (appendedWriter change writer events flags leaseExpiresAt)))
        ⟨0, persistedBytesOf events,
          (appendedWriter change writer events flags leaseExpiresAt).remainingByteReserve -
            writer.remainingByteReserve⟩
  | discarded (thread : MemoryThread) (writer : TraceLedgerWriterState)
      (kind : change.kind = .closeWriter)
      (stored : ledger.get? identity = some thread)
      (held : thread.writers.get? writer.runId = some writer)
      (owned : HeldBy change identity thread writer)
      (unused : writer.committedEvents = 0) :
      ThreadTransition encodedLength change now ledger identity
        (some { thread with writers := thread.writers.erase writer.runId })
        ⟨0, 0, -writer.remainingByteReserve⟩
  | removed (thread : MemoryThread) (writer : TraceLedgerWriterState)
      (kind : change.kind = .closeWriter)
      (stored : ledger.get? identity = some thread)
      (held : thread.writers.get? writer.runId = some writer)
      (owned : HeldBy change identity thread writer)
      (unused : writer.committedEvents = 0)
      (empty : thread.state.nextSeq = 1)
      (only : thread.writers.size = 1) :
      ThreadTransition encodedLength change now ledger identity none
        ⟨-1, 0, -writer.remainingByteReserve⟩
  | closed (thread : MemoryThread) (writer : TraceLedgerWriterState)
      (kind : change.kind = .closeWriter)
      (stored : ledger.get? identity = some thread)
      (held : thread.writers.get? writer.runId = some writer)
      (owned : HeldBy change identity thread writer)
      (used : writer.committedEvents ≠ 0) :
      ThreadTransition encodedLength change now ledger identity
        (some (thread.withWriter writer.released)) ⟨0, 0, -writer.remainingByteReserve⟩
  | checkpointed (thread : MemoryThread)
      (checkpoints : Dict (String × Option String) (List StoredTraceCheckpoint))
      (kind : change.kind = .saveProjectionCheckpoint)
      (stored : ledger.get? identity = some thread) :
      ThreadTransition encodedLength change now ledger identity
        (some { thread with checkpoints }) {}
  | deleted (thread : MemoryThread)
      (kind : change.kind = .deleteGeneration)
      (stored : ledger.get? identity = some thread)
      (named : change.key = some thread.state.key)
      (inactive : thread.activeWriters now = []) :
      ThreadTransition encodedLength change now ledger identity none
        ⟨-1, -thread.state.persistedBytes, -thread.reservedBytes⟩

/-- The rows with one thread replaced or removed. -/
def MemoryLedger.replaced (ledger : MemoryLedger) (identity : ThreadIdentity)
    (after : Option MemoryThread) : MemoryLedger :=
  after.elim (ledger.erase identity) (ledger.insert identity)

/-- Threads are filed under their own identity and writers under their own Run. -/
structure MemoryLedger.Linked (ledger : MemoryLedger) : Prop where
  threads : ∀ identity thread, ledger.get? identity = some thread →
    thread.state.key.toThreadIdentity = identity
  writers : ∀ identity thread, ledger.get? identity = some thread →
    ∀ runId writer, thread.writers.get? runId = some writer → writer.runId = runId

/-! ## Application of an effect -/

/-- What an effect adds to the account of its namespace. -/
def TraceLedgerStorageEffect.charge (effect : TraceLedgerStorageEffect) : LedgerAccount where
  threads := effect.namespaceThreadDelta
  persistedBytes := effect.namespacePersistedBytesDelta
  reservedBytes := effect.namespaceReservedBytesDelta

/-- What a resolved change does: nothing, or one transition of one thread. -/
def Outcome (encodedLength : TraceEvent → Nat) (ledger : MemoryLedger) (change : TraceLedgerChange)
    (now : Nat) (effect : TraceLedgerStorageEffect) : Prop :=
  (ledger.applyEffect change effect = ledger ∧ effect.charge = {}) ∨
    ∃ identity after, identity.namespace = change.namespace ∧
      ThreadTransition encodedLength change now ledger identity after effect.charge ∧
      ledger.applyEffect change effect = ledger.replaced identity after

section Application

variable {encodedLength : TraceEvent → Nat} {ledger : MemoryLedger} {change : TraceLedgerChange}
  {effect : TraceLedgerStorageEffect} {key : TraceThreadKey} {thread : MemoryThread} {now : Nat}
  {identity : ThreadIdentity} {runId : Option String} {request : Option TraceCheckpointRequest}
  {includeActive : Bool}

theorem applyEffect_writer {writer : TraceLedgerWriterState} {result : TraceLedgerCommitResult}
    {threads persisted reserved : Int} (named : result.key = some key)
    (stored : ledger.get? key.toThreadIdentity = some thread) :
    ledger.applyEffect change
        { result
          writer := some writer
          namespaceThreadDelta := threads
          namespacePersistedBytesDelta := persisted
          namespaceReservedBytesDelta := reserved } =
      ledger.replaced key.toThreadIdentity (some (thread.withWriter writer)) := by
  simp [MemoryLedger.applyEffect, MemoryLedger.withThread, named, stored, MemoryLedger.replaced,
    MemoryThread.written, MemoryThread.withWriter]

theorem applyEffect_result (ledger : MemoryLedger) (change : TraceLedgerChange)
    (result : TraceLedgerCommitResult) : ledger.applyEffect change { result } = ledger := by
  unfold MemoryLedger.applyEffect
  split
  · simp [MemoryLedger.withThread]
  · next key named =>
      simp only [Bool.false_eq_true, or_self, if_false, MemoryLedger.withThread]
      split
      · rfl
      · next thread stored =>
          simp [MemoryThread.written, Dict.insert_of_get? stored]

theorem loadState_thread {state : TraceLedgerThreadState} :
    (ledger.loadState identity runId request includeActive now).thread = some state ↔
      ∃ thread, ledger.get? identity = some thread ∧ thread.state = state := by
  simp [MemoryLedger.loadState]

theorem loadState_targetWriter {writer : TraceLedgerWriterState} :
    (ledger.loadState identity runId request includeActive now).targetWriter = some writer ↔
      ∃ thread, ledger.get? identity = some thread ∧
        ∃ run, runId = some run ∧ thread.writers.get? run = some writer := by
  simp [MemoryLedger.loadState, Option.bind_eq_some_iff]

theorem loadState_held (linked : ledger.Linked) {writer : TraceLedgerWriterState}
    (stored : ledger.get? identity = some thread)
    (target : (ledger.loadState identity runId request includeActive now).targetWriter =
      some writer) : thread.writers.get? writer.runId = some writer := by
  obtain ⟨found, present, run, -, held⟩ := loadState_targetWriter.mp target
  obtain rfl := Option.some.inj (stored.symm.trans present)
  rwa [linked.writers identity thread stored run writer held]

theorem loadState_heldBy (linked : ledger.Linked) {writer : TraceLedgerWriterState}
    (target : change.target = .ok (identity, runId)) (stored : ledger.get? identity = some thread)
    (found : (ledger.loadState identity runId request includeActive now).targetWriter =
      some writer) (generation : change.key = some thread.state.key)
    (mine : writer.OwnedBy change) : HeldBy change identity thread writer := by
  obtain ⟨other, present, run, rfl, held⟩ := loadState_targetWriter.mp found
  obtain rfl := Option.some.inj (stored.symm.trans present)
  obtain rfl := linked.writers identity thread stored run writer held
  exact ⟨target, generation, mine⟩

/-! ## Outcomes of the single operations -/

section Outcomes

variable (linked : ledger.Linked) (space : identity.namespace = change.namespace)

include linked space

theorem reopenWriter_outcome {run : RunIdentity} {ownerToken : String}
    {existing : TraceLedgerWriterState} (kind : change.kind = .openWriter)
    (owner : change.ownerToken = some ownerToken) (stored : ledger.get? identity = some thread)
    (held : thread.writers.get? existing.runId = some existing)
    (resolved : reopenWriter change
      (ledger.loadState identity runId request includeActive now) run ownerToken thread.state
      existing = .ok effect) : Outcome encodedLength ledger change now effect := by
  have named : thread.state.key.toThreadIdentity = identity := linked.threads identity thread stored
  unfold reopenWriter at resolved
  split at resolved
  · next mine =>
      simp only [bind_eq_ok, pure, Except.pure, Except.ok.injEq] at resolved
      obtain ⟨leaseExpiresAt, -, rfl⟩ := resolved
      refine .inr ⟨identity, _, space, .renewed thread existing leaseExpiresAt stored held
        mine.2.1 (by rw [owner, mine.1]) (.inl kind), ?_⟩
      rw [← named] at stored ⊢
      simpa [mine.2.1] using applyEffect_writer rfl stored
  · next other =>
      simp only [bind_eq_ok, reject_eq_ok, pure, Except.pure, Except.ok.injEq] at resolved
      obtain ⟨-, usable, -, lapsed, leaseExpiresAt, -, rfl⟩ := resolved
      simp only [not_or, Bool.not_eq_true, Bool.not_eq_false] at usable
      simp only [not_or, not_not, gt_iff_lt, not_lt] at lapsed
      have different : existing.ownerToken ≠ ownerToken := by
        intro same
        exact other ⟨same, usable.1, by simp [usable.2]⟩
      refine .inr ⟨identity, _, space, .takenOver thread existing ownerToken leaseExpiresAt kind
        stored held usable.1 usable.2 lapsed.2 different, ?_⟩
      rw [← named] at stored ⊢
      simpa [usable.1] using applyEffect_writer rfl stored

theorem admitWriter_outcome {run : RunIdentity} {ownerToken : String}
    (kind : change.kind = .openWriter) (stored : ledger.get? identity = some thread)
    (absent : thread.writers.get? run.runId = none)
    (resolved : admitWriter change (ledger.loadState identity runId request includeActive now) run
      ownerToken thread.state false = .ok effect) :
    Outcome encodedLength ledger change now effect := by
  have named : thread.state.key.toThreadIdentity = identity := linked.threads identity thread stored
  simp only [admitWriter, bind_eq_ok, reject_eq_ok, pure, Except.pure, Except.ok.injEq, gt_iff_lt,
    not_lt, MemoryLedger.loadState, stored, Option.elim_some, space] at resolved
  obtain ⟨-, events, -, bytes, -, tracerBytes, leaseExpiresAt, -, rfl⟩ := resolved
  refine .inr ⟨identity, _, space, .admitted thread run.runId ownerToken leaseExpiresAt kind stored
    absent ⟨events, bytes, tracerBytes⟩, ?_⟩
  rw [← named] at stored ⊢
  exact applyEffect_writer rfl stored

omit linked in
theorem createThread_outcome {run : RunIdentity} {ownerToken : String} {key : TraceThreadKey}
    (kind : change.kind = .openWriter) (absent : ledger.get? identity = none)
    (named : key.toThreadIdentity = identity)
    (room : ledger.namespaceThreadCount change.namespace < change.limits.maxTracerThreads)
    (resolved : admitWriter change (ledger.loadState identity runId request includeActive now) run
      ownerToken ⟨key, 1, 0⟩ true = .ok effect) :
    Outcome encodedLength ledger change now effect := by
  simp only [admitWriter, bind_eq_ok, reject_eq_ok, pure, Except.pure, Except.ok.injEq, gt_iff_lt,
    not_lt, MemoryLedger.loadState, absent, Option.elim_none, space, if_true] at resolved
  obtain ⟨-, events, -, bytes, -, tracerBytes, leaseExpiresAt, -, rfl⟩ := resolved
  refine .inr ⟨identity, _, space, .created key run.runId ownerToken leaseExpiresAt kind absent named
    room ⟨by simpa [MemoryThread.reservedEvents] using events,
      by simpa [MemoryThread.reservedBytes] using bytes, tracerBytes⟩, ?_⟩
  subst named
  simp [MemoryLedger.applyEffect, MemoryLedger.withThread, absent, MemoryLedger.replaced,
    MemoryThread.written, MemoryThread.withWriter, admittedWriter]

theorem resolveOpenWriter_outcome {fresh : String} (kind : change.kind = .openWriter)
    (target : change.target = .ok (identity, runId))
    (resolved : resolveOpenWriter change
      (ledger.loadState identity runId request includeActive now) fresh = .ok effect) :
    Outcome encodedLength ledger change now effect := by
  unfold resolveOpenWriter at resolved
  split at resolved
  · next run ownerToken hasIdentity hasOwner =>
      obtain ⟨rfl, rfl⟩ : identity = ⟨change.namespace, run.threadId⟩ ∧ runId = some run.runId := by
        simp only [TraceLedgerChange.target, hasIdentity, Except.ok.injEq, Prod.mk.injEq] at target
        exact ⟨target.1.symm, target.2.symm⟩
      obtain ⟨opened, found, resolved⟩ := bind_eq_ok.mp resolved
      cases stored : ledger.get? ⟨change.namespace, run.threadId⟩ with
      | none =>
        simp only [openedThread, MemoryLedger.loadState, stored, Option.map_none, bind_eq_ok,
          reject_eq_ok, ge_iff_le, not_le, pure, Except.pure, Except.ok.injEq] at found
        obtain ⟨-, room, rfl⟩ := found
        have noTarget : (ledger.loadState ⟨change.namespace, run.threadId⟩ (some run.runId) request
            includeActive now).targetWriter = none := by
          simp [MemoryLedger.loadState, stored]
        have noThread : (ledger.loadState ⟨change.namespace, run.threadId⟩ (some run.runId) request
            includeActive now).thread = none := by
          simp [MemoryLedger.loadState, stored]
        simp only [noTarget, noThread, Option.isNone_none] at resolved
        exact createThread_outcome space kind stored rfl room resolved
      | some thread =>
        simp only [openedThread, MemoryLedger.loadState, stored, Option.map_some, bind_eq_ok,
          reject_eq_ok, pure, Except.pure, Except.ok.injEq] at found
        obtain ⟨-, -, rfl⟩ := found
        have someThread : (ledger.loadState ⟨change.namespace, run.threadId⟩ (some run.runId)
            request includeActive now).thread = some thread.state := by
          simp [MemoryLedger.loadState, stored]
        simp only [someThread, Option.isNone_some] at resolved
        split at resolved
        · next existing target =>
            exact reopenWriter_outcome linked space kind hasOwner stored
              (loadState_held linked stored target) resolved
        · next target =>
            refine admitWriter_outcome linked space kind stored ?_ resolved
            simpa [MemoryLedger.loadState, stored] using target
  · cases resolved

omit space in
theorem ownedWriter_held {requireUnexpired : Bool} {state : TraceLedgerThreadState}
    {writer : TraceLedgerWriterState} (target : change.target = .ok (identity, runId))
    (owned : ownedWriter change (ledger.loadState identity runId request includeActive now)
      requireUnexpired = .ok (state, writer)) :
    ∃ thread, ledger.get? identity = some thread ∧ thread.state = state ∧
      thread.writers.get? writer.runId = some writer ∧ HeldBy change identity thread writer ∧
      (requireUnexpired = true → now < writer.leaseExpiresAt) := by
  obtain ⟨generation, -, present, found, mine, unexpired⟩ := ownedWriter_eq_ok owned
  obtain ⟨thread, stored, rfl⟩ := loadState_thread.mp present
  exact ⟨thread, stored, rfl, loadState_held linked stored found,
    loadState_heldBy linked target stored found generation mine, unexpired⟩

theorem resolveProvenAppend_outcome (target : change.target = .ok (identity, runId))
    (resolved : resolveProvenAppend change
      (ledger.loadState identity runId request includeActive now) = .ok effect) :
    Outcome encodedLength ledger change now effect := by
  unfold resolveProvenAppend at resolved
  split at resolved
  · cases resolved
  · next key hasKey =>
      simp only [bind_eq_ok, pure, Except.pure, Except.ok.injEq] at resolved
      obtain ⟨state, exact, renewed, renewal, rfl⟩ := resolved
      obtain ⟨present, rfl⟩ := requireExactThread_eq_ok.mp exact
      obtain ⟨thread, stored, rfl⟩ := loadState_thread.mp present
      unfold renewedByProof at renewal
      split at renewal
      · obtain rfl := Except.ok.inj renewal
        exact .inl ⟨applyEffect_result ledger change _, rfl⟩
      · next writer found =>
          split at renewal
          · next mine =>
              obtain ⟨leaseExpiresAt, -, rfl⟩ : ∃ leaseExpiresAt,
                  writerLeaseExpiration change
                      (ledger.loadState identity runId request includeActive now) =
                    .ok leaseExpiresAt ∧
                  some { writer with leaseExpiresAt, active := true } = renewed := by
                cases lease : writerLeaseExpiration change
                  (ledger.loadState identity runId request includeActive now) with
                | error error => simp [lease, Except.map] at renewal
                | ok leaseExpiresAt =>
                  simp only [lease, Except.map, Except.ok.injEq] at renewal
                  exact ⟨leaseExpiresAt, rfl, renewal⟩
              have named := linked.threads identity thread stored
              refine .inr ⟨identity, _, space, .renewed thread writer leaseExpiresAt stored
                (loadState_held linked stored found) mine.1 mine.2.1
                (.inr (loadState_heldBy linked target stored found hasKey mine)), ?_⟩
              rw [← named] at stored ⊢
              simpa [mine.1] using applyEffect_writer rfl stored
          · obtain rfl := Except.ok.inj renewal
            exact .inl ⟨applyEffect_result ledger change _, rfl⟩

theorem resolveRenewWriter_outcome (target : change.target = .ok (identity, runId))
    (resolved : resolveRenewWriter change
      (ledger.loadState identity runId request includeActive now) = .ok effect) :
    Outcome encodedLength ledger change now effect := by
  simp only [resolveRenewWriter, bind_eq_ok, pure, Except.pure, Except.ok.injEq,
    Prod.exists] at resolved
  obtain ⟨state, writer, owned, leaseExpiresAt, -, rfl⟩ := resolved
  obtain ⟨thread, stored, rfl, held, mine, -⟩ := ownedWriter_held linked target owned
  have named := linked.threads identity thread stored
  refine .inr ⟨identity, _, space, .renewed thread writer leaseExpiresAt stored held mine.owned.1
    mine.owned.2.1 (.inr mine), ?_⟩
  rw [← named] at stored ⊢
  exact applyEffect_writer rfl stored

theorem resolveAppendEvents_outcome (kind : change.kind = .appendEvents)
    (target : change.target = .ok (identity, runId))
    (resolved : resolveAppendEvents encodedLength change
      (ledger.loadState identity runId request includeActive now) = .ok effect) :
    Outcome encodedLength ledger change now effect := by
  unfold resolveAppendEvents at resolved
  split at resolved
  · exact resolveProvenAppend_outcome linked space target resolved
  · split at resolved
    · cases resolved
    · simp only [bind_eq_ok, pure, Except.pure, Except.ok.injEq, Prod.exists] at resolved
      obtain ⟨state, writer, owned, ⟨⟩, batch, terminal, closed, flagged, events, made, ⟨⟩, fits,
        leaseExpiresAt, -, mutations, -, rfl⟩ := resolved
      obtain ⟨thread, stored, rfl, held, mine, unexpired⟩ := ownedWriter_held linked target owned
      have named := linked.threads identity thread stored
      refine .inr ⟨identity, _, space, .appended thread writer (terminal, closed) events
        leaseExpiresAt _ _ _ kind stored held mine unexpired batch flagged made fits, ?_⟩
      rw [← named] at stored ⊢
      simp [MemoryLedger.applyEffect, MemoryLedger.withThread, stored, MemoryLedger.replaced,
        MemoryThread.written, MemoryThread.extended]

theorem resolveCloseWriter_outcome (kind : change.kind = .closeWriter)
    (target : change.target = .ok (identity, runId))
    (valid : validateChangeScope change
      (ledger.loadState identity runId request includeActive now) = .ok ())
    (resolved : resolveCloseWriter change
      (ledger.loadState identity runId request includeActive now) = .ok effect) :
    Outcome encodedLength ledger change now effect := by
  unfold resolveCloseWriter at resolved
  split at resolved
  · next key run hasKey hasRun =>
      dsimp only at resolved
      split at resolved
      · next state writer present found =>
          obtain ⟨thread, stored, rfl⟩ := loadState_thread.mp present
          have held := loadState_held linked stored found
          have named := linked.threads identity thread stored
          obtain rfl := scope_run valid hasRun found
          split at resolved
          · obtain rfl := Except.ok.inj resolved
            exact .inl ⟨applyEffect_result ledger change _, rfl⟩
          · next mine =>
              simp only [not_or, not_not] at mine
              obtain ⟨rfl, mine⟩ := mine
              have mine := loadState_heldBy linked target stored found hasKey mine
              split at resolved
              · next unused =>
                  obtain rfl := Except.ok.inj resolved
                  by_cases last : thread.state.nextSeq = 1 ∧ (thread.writers.size : Int) = 1
                  · refine .inr ⟨identity, none, space, ?_, ?_⟩
                    · simpa [TraceLedgerStorageEffect.charge, last, MemoryLedger.loadState, stored]
                        using ThreadTransition.removed thread writer kind stored held mine unused
                          last.1 (by exact_mod_cast last.2)
                    · simp [MemoryLedger.applyEffect, MemoryLedger.loadState, stored, last,
                        MemoryLedger.replaced, named]
                  · have stays : ¬(thread.state.nextSeq = 1 ∧
                        (ledger.loadState identity runId request includeActive now).writerCount =
                          1) := by
                      simpa [MemoryLedger.loadState, stored] using last
                    refine .inr ⟨identity,
                      some { thread with writers := thread.writers.erase writer.runId }, space,
                      ?_, ?_⟩
                    · simpa [TraceLedgerStorageEffect.charge, stays] using
                        ThreadTransition.discarded thread writer kind stored held mine unused
                    · rw [← named] at stored stays ⊢
                      simp [MemoryLedger.applyEffect, MemoryLedger.withThread, stays, stored,
                        MemoryLedger.replaced, MemoryThread.written]
              · next used =>
                  obtain rfl := Except.ok.inj resolved
                  refine .inr ⟨identity, _, space, .closed thread writer kind stored held mine used,
                    ?_⟩
                  rw [← named] at stored ⊢
                  exact applyEffect_writer rfl stored
      · obtain rfl := Except.ok.inj resolved
        exact .inl ⟨applyEffect_result ledger change _, rfl⟩
  · cases resolved

omit linked in
theorem advanceCheckpoint_outcome {checkpoint : TraceProjectionCheckpoint} {payload : List UInt8}
    {digest : String} (kind : change.kind = .saveProjectionCheckpoint)
    (named : checkpoint.key.toThreadIdentity = identity)
    (stored : ledger.get? identity = some thread)
    (resolved : advanceCheckpoint change
      (ledger.loadState identity runId request includeActive now) checkpoint payload digest =
        .ok effect) : Outcome encodedLength ledger change now effect := by
  simp only [advanceCheckpoint, bind_eq_ok, pure, Except.pure, Except.ok.injEq] at resolved
  obtain ⟨-, -, -, -, rfl⟩ := resolved
  refine .inr ⟨identity, _, space, .checkpointed thread
    (thread.checkpoints.insert (checkpoint.projectionName, checkpoint.runId)
      ((thread.checkpoints.get? (checkpoint.projectionName, checkpoint.runId)).getD [] ++
        [{ key := checkpoint.key
           projectionName := checkpoint.projectionName
           runId := checkpoint.runId
           asOfSeq := checkpoint.asOfSeq
           canonicalState := payload
           stateDigest := digest }])) kind stored, ?_⟩
  simp [MemoryLedger.applyEffect, MemoryLedger.withThread, named, stored, MemoryLedger.replaced,
    MemoryThread.written]

omit linked in
theorem resolveSaveCheckpoint_outcome (kind : change.kind = .saveProjectionCheckpoint)
    (valid : validateChangeScope change
      (ledger.loadState identity runId request includeActive now) = .ok ())
    (target : change.target = .ok (identity, runId))
    (resolved : resolveSaveCheckpoint change
      (ledger.loadState identity runId request includeActive now) = .ok effect) :
    Outcome encodedLength ledger change now effect := by
  unfold resolveSaveCheckpoint at resolved
  split at resolved
  · next checkpoint payload digest hasCheckpoint _ _ =>
      have named := (scope_identity valid target).2.1 checkpoint hasCheckpoint
      obtain ⟨state, exact, resolved⟩ := bind_eq_ok.mp resolved
      obtain ⟨present, -⟩ := requireExactThread_eq_ok.mp exact
      obtain ⟨thread, stored, rfl⟩ := loadState_thread.mp present
      obtain ⟨-, -, resolved⟩ := bind_eq_ok.mp resolved
      split at resolved
      · split at resolved
        · simp only [bind_eq_ok, pure, Except.pure, Except.ok.injEq] at resolved
          obtain ⟨-, -, rfl⟩ := resolved
          exact .inl ⟨applyEffect_result ledger change _, rfl⟩
        · exact advanceCheckpoint_outcome space kind named stored resolved
      · exact advanceCheckpoint_outcome space kind named stored resolved
  · cases resolved

theorem resolveDeleteGeneration_outcome (kind : change.kind = .deleteGeneration)
    (includes : includeActive = true)
    (resolved : resolveDeleteGeneration change
      (ledger.loadState identity runId request includeActive now) = .ok effect) :
    Outcome encodedLength ledger change now effect := by
  unfold resolveDeleteGeneration at resolved
  split at resolved
  · cases resolved
  · next key hasKey =>
      simp only [bind_eq_ok, reject_eq_ok, not_not, pure, Except.pure, Except.ok.injEq] at resolved
      obtain ⟨state, exact, -, inactive, rfl⟩ := resolved
      obtain ⟨present, rfl⟩ := requireExactThread_eq_ok.mp exact
      obtain ⟨thread, stored, rfl⟩ := loadState_thread.mp present
      have named := linked.threads identity thread stored
      simp only [MemoryLedger.loadState, stored, includes, if_true, Option.elim_some,
        List.isEmpty_iff] at inactive
      refine .inr ⟨identity, none, space, ?_, ?_⟩
      · simpa [TraceLedgerStorageEffect.charge, MemoryLedger.loadState, stored] using
          ThreadTransition.deleted thread kind stored hasKey inactive
      · simp [MemoryLedger.applyEffect, MemoryLedger.replaced, named]

end Outcomes

/-- Every accepted change does nothing or makes one transition of one thread. -/
theorem resolved_outcome (linked : ledger.Linked) {event : LedgerEvent}
    (resolved : LedgerState.resolved encodedLength ledger event = .ok effect) :
    Outcome encodedLength ledger event.change event.now effect := by
  unfold LedgerState.resolved at resolved
  obtain ⟨state, loaded, resolved⟩ := bind_eq_ok.mp resolved
  unfold MemoryLedger.stateForChange at loaded
  cases target : event.change.target with
  | error error => simp [target, Except.map] at loaded
  | ok found =>
    obtain ⟨identity, runId⟩ := found
    simp only [target, Except.map, Except.ok.injEq] at loaded
    subst loaded
    obtain ⟨⟨⟩, valid, resolved⟩ := bind_eq_ok.mp resolved
    have space := (scope_identity valid target).2.2
    cases kind : event.change.kind with
    | openWriter =>
      simp only [kind] at resolved
      exact resolveOpenWriter_outcome linked space kind target resolved
    | appendEvents =>
      simp only [kind] at resolved
      exact resolveAppendEvents_outcome linked space kind target resolved
    | renewWriter =>
      simp only [kind] at resolved
      exact resolveRenewWriter_outcome linked space target resolved
    | closeWriter =>
      simp only [kind] at valid resolved
      exact resolveCloseWriter_outcome linked space kind target valid resolved
    | saveProjectionCheckpoint =>
      simp only [kind] at valid resolved
      exact resolveSaveCheckpoint_outcome space kind valid target resolved
    | deleteGeneration =>
      simp only [kind] at resolved
      exact resolveDeleteGeneration_outcome linked space kind (by simp) resolved

end Application

/-! ## Rows after a transition -/

theorem MemoryLedger.get?_replaced (ledger : MemoryLedger) (identity other : ThreadIdentity)
    (after : Option MemoryThread) : (ledger.replaced identity after).get? other =
      if other = identity then after else ledger.get? other := by
  cases after with
  | none => simp [MemoryLedger.replaced, Dict.get?_erase]
  | some thread => simp [MemoryLedger.replaced, Dict.get?_insert]

theorem withWriter_linked {thread : MemoryThread} {writer : TraceLedgerWriterState}
    (linked : ∀ runId writer, thread.writers.get? runId = some writer → writer.runId = runId) :
    ∀ runId stored, (thread.withWriter writer).writers.get? runId = some stored →
      stored.runId = runId := by
  intro runId stored held
  simp only [MemoryThread.withWriter, Dict.get?_insert] at held
  split at held
  · next same => exact Option.some.inj held ▸ same.symm
  · exact linked runId stored held

section Linked

variable {encodedLength : TraceEvent → Nat} {change : TraceLedgerChange} {now : Nat}
  {ledger : MemoryLedger} {identity : ThreadIdentity} {after : Option MemoryThread}
  {charge : LedgerAccount}

theorem ThreadTransition.linked (linked : ledger.Linked)
    (transition : ThreadTransition encodedLength change now ledger identity after charge) :
    ∀ thread, after = some thread → thread.state.key.toThreadIdentity = identity ∧
      ∀ runId writer, thread.writers.get? runId = some writer → writer.runId = runId := by
  intro left equal
  cases transition with
  | created key runId ownerToken leaseExpiresAt kind absent named room admissible =>
    obtain rfl := Option.some.inj equal
    exact ⟨named, withWriter_linked (by simp)⟩
  | admitted thread runId ownerToken leaseExpiresAt kind stored absent admissible =>
    obtain rfl := Option.some.inj equal
    exact ⟨linked.threads _ thread stored, withWriter_linked (linked.writers _ _ stored)⟩
  | renewed thread writer leaseExpiresAt stored held active token owned =>
    obtain rfl := Option.some.inj equal
    exact ⟨linked.threads _ thread stored, withWriter_linked (linked.writers _ _ stored)⟩
  | takenOver thread writer ownerToken leaseExpiresAt kind stored held active _ expired other =>
    obtain rfl := Option.some.inj equal
    exact ⟨linked.threads _ thread stored, withWriter_linked (linked.writers _ _ stored)⟩
  | appended thread writer flags events leaseExpiresAt runId request includeActive kind stored held
      owned unexpired batch flagged made fits =>
      obtain rfl := Option.some.inj equal
      exact ⟨linked.threads _ thread stored, withWriter_linked (linked.writers _ _ stored)⟩
  | discarded thread writer kind stored held owned unused =>
    obtain rfl := Option.some.inj equal
    refine ⟨linked.threads _ thread stored, fun runId other kept => ?_⟩
    simp only [Dict.get?_erase] at kept
    split at kept
    · cases kept
    · exact linked.writers _ _ stored runId other kept
  | removed thread writer kind stored held owned unused empty only => cases equal
  | closed thread writer kind stored held owned used =>
    obtain rfl := Option.some.inj equal
    exact ⟨linked.threads _ thread stored, withWriter_linked (linked.writers _ _ stored)⟩
  | checkpointed thread checkpoints kind stored =>
    obtain rfl := Option.some.inj equal
    exact ⟨linked.threads _ thread stored, linked.writers _ thread stored⟩
  | deleted thread kind stored named inactive => cases equal

theorem MemoryLedger.Linked.replaced (linked : ledger.Linked)
    (transition : ThreadTransition encodedLength change now ledger identity after charge) :
    (ledger.replaced identity after).Linked := by
  have left := transition.linked linked
  constructor
  · intro other thread stored
    rw [MemoryLedger.get?_replaced] at stored
    split at stored
    · next same => exact same ▸ (left thread stored).1
    · exact linked.threads other thread stored
  · intro other thread stored
    rw [MemoryLedger.get?_replaced] at stored
    split at stored
    · exact (left thread stored).2
    · exact linked.writers other thread stored

end Linked

namespace LedgerState

variable (encodedLength : TraceEvent → Nat) (limits : TraceLimits) {state : LedgerState}
  (event : LedgerEvent)

/-- One request leaves the backend alone or makes one transition of one thread. -/
theorem step_cases (linked : state.ledger.Linked) :
    ((step encodedLength limits state event).ledger = state.ledger ∧
      ∀ «namespace», (step encodedLength limits state event).accounts «namespace» =
        state.accounts «namespace») ∨
    ∃ effect identity after, resolved encodedLength state.ledger (event.limited limits) = .ok effect ∧
      identity.namespace = event.change.namespace ∧
      ThreadTransition encodedLength (event.limited limits).change event.now state.ledger identity
        after effect.charge ∧
      (step encodedLength limits state event).ledger = state.ledger.replaced identity after ∧
      (step encodedLength limits state event).accounts =
        Function.update state.accounts event.change.namespace
          ((state.accounts event.change.namespace).charged effect) := by
  unfold step
  cases outcome : resolved encodedLength state.ledger (event.limited limits) with
  | error error => exact .inl ⟨rfl, fun _ => rfl⟩
  | ok effect =>
    have same : state.ledger.applyEffect event.change effect =
        state.ledger.applyEffect (event.limited limits).change effect := rfl
    obtain ⟨unchanged, free⟩ | ⟨identity, after, space, transition, replaced⟩ :=
      resolved_outcome linked outcome
    · refine .inl ⟨same.trans unchanged, fun «namespace» => ?_⟩
      simp only [committed, Function.update_apply]
      split
      · next named =>
          obtain ⟨threads, persisted, reserved⟩ : effect.namespaceThreadDelta = 0 ∧
              effect.namespacePersistedBytesDelta = 0 ∧
              effect.namespaceReservedBytesDelta = 0 := by
            simpa [TraceLedgerStorageEffect.charge] using free
          simp [named, LedgerAccount.charged, threads, persisted, reserved]
      · rfl
    · exact .inr ⟨effect, identity, after, rfl, space, transition, same.trans replaced, rfl⟩

end LedgerState

end Tinkerfin.Tracing
