import Tinkerfin.Lib.Dict
import Tinkerfin.Tracing.Ledger

/-!
# The in-memory ledger backend

Threads with their writers, committed events and checkpoints.  A commit reads the state that the
change names, resolves the change, and applies the effect.  Next to it an account of each namespace
adds up the deltas that the effects report.  The disposable graph index is left out: it is written
after these rows and never read by the reducer.
-/

namespace Tinkerfin.Tracing

open Messaging (RunIdentity ThreadIdentity)

/-- A stored record with the event that the framework validated. -/
structure MemoryStoredTraceEvent extends StoredTraceEvent where
  validatedEvent : TraceEvent

structure MemoryThread where
  state : TraceLedgerThreadState
  writers : Dict String TraceLedgerWriterState := .empty
  events : List MemoryStoredTraceEvent := []
  checkpoints : Dict (String × Option String) (List StoredTraceCheckpoint) := .empty

/-- The threads of all namespaces. -/
abbrev MemoryLedger := Dict ThreadIdentity MemoryThread

def memoryStoredEvent (event : TraceEvent) (prepared : TraceStoredFact) :
    MemoryStoredTraceEvent where
  eventId := event.eventId
  traceSeq := event.traceSeq
  runId := event.fact.identity.runId
  factKind := event.fact.kind
  occurredAt := event.fact.occurredAt
  canonicalPayload := prepared.canonicalPayload
  payloadDigest := prepared.payloadDigest
  persistedBytes := event.persistedBytes
  validatedEvent := event

/-! ## Sums -/

namespace MemoryThread

/-- Events that the active writers of the thread may still commit. -/
def reservedEvents (thread : MemoryThread) : Int :=
  thread.writers.weight fun _ writer => if writer.active then writer.remainingEventReserve else 0

/-- Bytes that the active writers of the thread may still commit. -/
def reservedBytes (thread : MemoryThread) : Int :=
  thread.writers.weight fun _ writer => if writer.active then writer.remainingByteReserve else 0

end MemoryThread

namespace MemoryLedger

/-- Sum of a weight over the threads of one namespace. -/
def namespaceSum (ledger : MemoryLedger) («namespace» : String) (weigh : MemoryThread → Int) :
    Int :=
  ledger.weight fun key thread => if key.namespace = «namespace» then weigh thread else 0

def namespaceThreadCount (ledger : MemoryLedger) («namespace» : String) : Int :=
  ledger.namespaceSum «namespace» fun _ => 1

def namespacePersistedBytes (ledger : MemoryLedger) («namespace» : String) : Int :=
  ledger.namespaceSum «namespace» (·.state.persistedBytes)

def namespaceReservedBytes (ledger : MemoryLedger) («namespace» : String) : Int :=
  ledger.namespaceSum «namespace» (·.reservedBytes)

end MemoryLedger

/-! ## Loading the state of a change -/

/-- Which checkpoint a change competes with. -/
structure TraceCheckpointRequest where
  key : TraceThreadKey
  projectionName : String
  runId : Option String
  asOfSeq : Int

/-- The active writers of a thread whose lease has not expired, in Run order. -/
def MemoryThread.activeWriters (thread : MemoryThread) (now : Nat) : List StoreWriterSnapshot :=
  let unexpired := (thread.writers.entries.map Prod.snd).filter fun writer =>
    writer.active && decide (now < writer.leaseExpiresAt)
  (unexpired.insertionSort fun left right => left.runId ≤ right.runId).map fun writer =>
    { runId := writer.runId, committedEvents := writer.committedEvents }

/-- The state of a namespace and one of its threads. -/
def MemoryLedger.loadState (ledger : MemoryLedger) (identity : ThreadIdentity)
    (runId : Option String) (checkpointRequest : Option TraceCheckpointRequest)
    (includeActiveWriters : Bool) (now : Nat) : TraceLedgerState :=
  let thread := ledger.get? identity
  { observedAt := now
    namespaceThreadCount := ledger.namespaceThreadCount identity.namespace
    namespacePersistedBytes := ledger.namespacePersistedBytes identity.namespace
    namespaceReservedBytes := ledger.namespaceReservedBytes identity.namespace
    thread := thread.map (·.state)
    targetWriter := thread.bind fun thread => runId.bind thread.writers.get?
    writerCount := thread.elim 0 fun thread => thread.writers.size
    threadReservedEvents := thread.elim 0 (·.reservedEvents)
    threadReservedBytes := thread.elim 0 (·.reservedBytes)
    activeWriters :=
      if includeActiveWriters then thread.elim [] (·.activeWriters now) else []
    currentCheckpoint := thread.bind fun thread => checkpointRequest.bind fun request =>
      (thread.checkpoints.get? (request.projectionName, request.runId)).bind List.getLast? }

/-- The thread and the Run that a change is about. -/
def TraceLedgerChange.target (change : TraceLedgerChange) :
    Except TracingError (ThreadIdentity × Option String) :=
  match change.identity, change.key with
  | some identity, _ =>
    .ok ({ «namespace» := change.namespace, threadId := identity.threadId }, some identity.runId)
  | none, some key =>
    .ok ({ «namespace» := change.namespace, threadId := key.threadId }, change.runId)
  | none, none => .error (.storeProtocol "Trace Ledger change has no thread identity")

def MemoryLedger.stateForChange (ledger : MemoryLedger) (change : TraceLedgerChange) (now : Nat) :
    Except TracingError TraceLedgerState :=
  change.target.map fun (identity, runId) =>
    let checkpointRequest := change.checkpoint.map fun checkpoint =>
      { key := checkpoint.key
        projectionName := checkpoint.projectionName
        runId := checkpoint.runId
        asOfSeq := checkpoint.asOfSeq : TraceCheckpointRequest }
    ledger.loadState identity runId checkpointRequest (change.kind = .deleteGeneration) now

/-! ## Applying effects -/

/-- The thread after the rows of an effect were written to it. -/
def MemoryThread.written (thread : MemoryThread) (change : TraceLedgerChange)
    (effect : TraceLedgerStorageEffect) : MemoryThread :=
  let kept := effect.removeWriterRunId.elim thread.writers thread.writers.erase
  { thread with
    writers := effect.writer.elim kept fun writer => kept.insert writer.runId writer
    events :=
      thread.events ++ List.zipWith memoryStoredEvent effect.validatedEvents change.facts
    checkpoints := effect.checkpoint.elim thread.checkpoints fun checkpoint =>
      let scope := (checkpoint.projectionName, checkpoint.runId)
      thread.checkpoints.insert scope
        ((thread.checkpoints.get? scope).getD [] ++ [checkpoint]) }

/-- The thread rows after the thread of an effect was written. -/
def MemoryLedger.withThread (ledger : MemoryLedger) (effect : TraceLedgerStorageEffect) :
    MemoryLedger :=
  match effect.thread with
  | none => ledger
  | some state =>
    let identity := state.key.toThreadIdentity
    ledger.insert identity
      ((ledger.get? identity).elim { state } fun thread => { thread with state })

/-- Apply one resolved effect. -/
def MemoryLedger.applyEffect (ledger : MemoryLedger) (change : TraceLedgerChange)
    (effect : TraceLedgerStorageEffect) : MemoryLedger :=
  match effect.result.key <|> change.key with
  | none =>
    if effect.deleteGeneration ∨ effect.removeThread then ledger else ledger.withThread effect
  | some key =>
    let identity := key.toThreadIdentity
    if effect.deleteGeneration ∨ effect.removeThread then
      ledger.erase identity
    else
      let stored := ledger.withThread effect
      match stored.get? identity with
      | none => stored
      | some thread => stored.insert identity (thread.written change effect)

/-! ## Commits -/

/-- One commit request with the readings of its clock and of the generation source. -/
structure LedgerEvent where
  change : TraceLedgerChange
  now : Nat
  fresh : String

/-- The event under the limits of the backend. -/
def LedgerEvent.limited (limits : TraceLimits) (event : LedgerEvent) : LedgerEvent :=
  { event with change := { event.change with limits } }

/-- What the deltas of a namespace add up to. -/
structure LedgerAccount where
  threads : Int := 0
  persistedBytes : Int := 0
  reservedBytes : Int := 0
  deriving DecidableEq

/-- The account after one effect. -/
def LedgerAccount.charged (account : LedgerAccount) (effect : TraceLedgerStorageEffect) :
    LedgerAccount where
  threads := account.threads + effect.namespaceThreadDelta
  persistedBytes := account.persistedBytes + effect.namespacePersistedBytesDelta
  reservedBytes := account.reservedBytes + effect.namespaceReservedBytesDelta

/-- The rows of the backend and the accounts of its namespaces. -/
structure LedgerState where
  ledger : MemoryLedger
  accounts : String → LedgerAccount

namespace LedgerState

/-- A backend without threads. -/
def empty : LedgerState := ⟨Dict.empty, fun _ => {}⟩

variable (encodedLength : TraceEvent → Nat)

/-- The effect of one request on the current rows. -/
def resolved (ledger : MemoryLedger) (event : LedgerEvent) :
    Except TracingError TraceLedgerStorageEffect :=
  (ledger.stateForChange event.change event.now).bind fun state =>
    resolveLedgerChange encodedLength event.change state event.fresh

/-- The backend after one effect. -/
def committed (state : LedgerState) (change : TraceLedgerChange)
    (effect : TraceLedgerStorageEffect) : LedgerState where
  ledger := state.ledger.applyEffect change effect
  accounts := Function.update state.accounts change.namespace
    ((state.accounts change.namespace).charged effect)

/-- One request against a backend with fixed limits; a rejected request changes nothing. -/
def step (limits : TraceLimits) (state : LedgerState) (event : LedgerEvent) : LedgerState :=
  match resolved encodedLength state.ledger (event.limited limits) with
  | .error _ => state
  | .ok effect => state.committed event.change effect

end LedgerState

end Tinkerfin.Tracing
