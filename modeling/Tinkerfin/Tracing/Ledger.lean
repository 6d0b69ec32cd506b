import Tinkerfin.Tracing.GraphReducer

/-!
# The semantic reducer of the Trace Ledger

One change request and the current storage state determine the complete storage effect of the
change, or the error that rejects it.  The text of a committed event is written by the serialisation
library; its length is the parameter `encodedLength`.
-/

namespace Tinkerfin.Tracing

open Messaging (RunIdentity ThreadIdentity)

/-- Capacity limits of each namespace. -/
structure TraceLimits where
  maxEventBytes : Nat := 1024 * 1024
  maxThreadEvents : Nat := 100000
  maxThreadBytes : Nat := 256 * 1024 * 1024
  maxTracerThreads : Nat := 10000
  maxTracerBytes : Nat := 1024 * 1024 * 1024
  terminalReserveEventsPerRun : Nat := 4
  terminalReserveBytesPerRun : Nat := 4 * 1024 * 1024
  deriving DecidableEq

/-- Ownership settings; the lease duration is in microseconds. -/
structure TraceStoreOptions where
  writerLease : Nat := 30000000
  deriving DecidableEq

inductive TraceLedgerChangeKind
  | openWriter | appendEvents | renewWriter | closeWriter | saveProjectionCheckpoint
  | deleteGeneration
  deriving DecidableEq, Repr

/-- One validated fact and its canonical evidence. -/
structure TraceStoredFact where
  eventId : String
  fact : TraceSemanticFact
  canonicalPayload : List UInt8 := []
  payloadDigest : String := ""
  exactByteCount : Nat := 0

/-- One backend event record. -/
structure StoredTraceEvent where
  eventId : String
  traceSeq : Int
  runId : String
  factKind : String
  occurredAt : Nat
  canonicalPayload : List UInt8
  payloadDigest : String
  persistedBytes : Int

/-- One disposable Projection state at an exact prefix. -/
structure TraceProjectionCheckpoint where
  key : TraceThreadKey
  projectionName : String
  runId : Option String := none
  asOfSeq : Int
  state : Json

/-- One canonical Projection checkpoint record. -/
structure StoredTraceCheckpoint where
  key : TraceThreadKey
  projectionName : String
  runId : Option String
  asOfSeq : Int
  canonicalState : List UInt8
  stateDigest : String

/-- Ownership and terminal capacity of one Run writer. -/
structure TraceLedgerWriterState where
  runId : String
  ownerToken : String
  fence : Int
  leaseExpiresAt : Nat
  active : Bool
  terminalCommitted : Bool
  closedCommitted : Bool
  committedEvents : Int
  remainingEventReserve : Int
  remainingByteReserve : Int
  deriving DecidableEq

/-- The head of one generation. -/
structure TraceLedgerThreadState where
  key : TraceThreadKey
  nextSeq : Int
  persistedBytes : Int
  deriving DecidableEq

/-- An active Run writer as a snapshot shows it. -/
structure StoreWriterSnapshot where
  runId : String
  committedEvents : Int
  deriving DecidableEq

/-- The state that one atomic change needs. -/
structure TraceLedgerState where
  observedAt : Nat
  namespaceThreadCount : Int
  namespacePersistedBytes : Int
  namespaceReservedBytes : Int
  thread : Option TraceLedgerThreadState
  targetWriter : Option TraceLedgerWriterState
  writerCount : Int
  threadReservedEvents : Int
  threadReservedBytes : Int
  activeWriters : List StoreWriterSnapshot
  currentCheckpoint : Option StoredTraceCheckpoint

/-- One requested state transition. -/
structure TraceLedgerChange where
  kind : TraceLedgerChangeKind
  «namespace» : String
  limits : TraceLimits
  options : TraceStoreOptions := {}
  identity : Option RunIdentity := none
  key : Option TraceThreadKey := none
  runId : Option String := none
  ownerToken : Option String := none
  fence : Option Int := none
  facts : List TraceStoredFact := []
  mandatory : Bool := false
  checkpoint : Option TraceProjectionCheckpoint := none
  canonicalCheckpointState : Option (List UInt8) := none
  checkpointStateDigest : Option String := none
  expectedCheckpointAsOfSeq : Option Int := none
  provenEvents : List TraceEvent := []
  provenRenewal : Bool := false
  enforceWriterLease : Bool := true
  persistCanonicalEventRecords : Bool := true

/-- What one committed change returns. -/
structure TraceLedgerCommitResult where
  kind : TraceLedgerChangeKind
  key : Option TraceThreadKey := none
  runId : Option String := none
  ownerToken : Option String := none
  fence : Option Int := none
  events : List TraceEvent := []
  checkpoint : Option TraceProjectionCheckpoint := none

/-- The complete physical effect of a change. -/
structure TraceLedgerStorageEffect where
  result : TraceLedgerCommitResult
  thread : Option TraceLedgerThreadState := none
  removeThread : Bool := false
  writer : Option TraceLedgerWriterState := none
  removeWriterRunId : Option String := none
  events : List StoredTraceEvent := []
  validatedEvents : List TraceEvent := []
  graphNodeMutations : List TraceGraphNodeMutation := []
  checkpoint : Option StoredTraceCheckpoint := none
  deleteGeneration : Bool := false
  namespaceThreadDelta : Int := 0
  namespacePersistedBytesDelta : Int := 0
  namespaceReservedBytesDelta : Int := 0

/-! ## Sized events -/

variable (encodedLength : TraceEvent → Nat)

/-- Look for the size that an event has once it states its own size. -/
def sizedEvent (event : TraceEvent) : Nat → Except TracingError TraceEvent
  | 0 => .error (.storeProtocol "Trace event size did not converge")
  | attempts + 1 =>
    let encoded := encodedLength event
    if encoded = event.persistedBytes then .ok event
    else sizedEvent { event with persistedBytes := encoded } attempts

def makeEvent (eventId : String) (traceSeq : Int) (generation : String) (fact : TraceSemanticFact) :
    Except TracingError TraceEvent :=
  sizedEvent encodedLength { eventId, traceSeq, generation, fact, persistedBytes := 1 } 4

variable (change : TraceLedgerChange) (state : TraceLedgerState)

/-! ## Ownership -/

/-- The largest time there is. -/
def maxTime : Nat := 253402300799999999

def writerLeaseExpiration : Except TracingError Nat :=
  if !change.enforceWriterLease then .ok maxTime
  else if maxTime < state.observedAt + change.options.writerLease then .error .overflow
  else .ok (state.observedAt + change.options.writerLease)

def requireExactThread (key : TraceThreadKey) : Except TracingError TraceLedgerThreadState :=
  match state.thread with
  | none => .error (.threadNotFound "Trace generation does not exist" key.threadId)
  | some thread =>
    if thread.key = key then .ok thread
    else .error (.threadNotFound "Trace generation does not exist" key.threadId)

/-- The owner token and fence of the change are those of the writer, which is active. -/
def TraceLedgerWriterState.OwnedBy (writer : TraceLedgerWriterState)
    (change : TraceLedgerChange) : Prop :=
  writer.active = true ∧ some writer.ownerToken = change.ownerToken ∧
    some writer.fence = change.fence

instance (writer : TraceLedgerWriterState) : Decidable (writer.OwnedBy change) :=
  inferInstanceAs (Decidable (_ ∧ _ ∧ _))

def ownedWriter (requireUnexpired : Bool) :
    Except TracingError (TraceLedgerThreadState × TraceLedgerWriterState) :=
  match change.key, change.runId with
  | some key, some runId => do
    let thread ← requireExactThread state key
    match state.targetWriter with
    | none => .error (.storeProtocol "Trace writer no longer owns its Run")
    | some writer => do
      reject (writer.runId ≠ runId) (.storeProtocol "Trace writer no longer owns its Run")
      reject
        (¬writer.OwnedBy change ∨ requireUnexpired ∧ writer.leaseExpiresAt ≤ state.observedAt)
        (.storeProtocol "Trace writer lease ownership was lost")
      return (thread, writer)
  | _, _ => .error (.storeProtocol "Owned writer change is incomplete")

/-! ## Scope -/

/-- The thread identities that a change and its state name. -/
def scopeKeys : List ThreadIdentity :=
  (change.identity.map (·.toThreadIdentity)).toList ++
    (change.key.map (·.toThreadIdentity)).toList ++
    (change.checkpoint.map (·.key.toThreadIdentity)).toList ++
    (state.thread.map (·.key.toThreadIdentity)).toList

/-- The Run identities that a change and its state name. -/
def scopeRunIds : List String :=
  change.runId.toList ++ (change.identity.map (·.runId)).toList ++
    (change.checkpoint.bind (·.runId)).toList ++ (state.targetWriter.map (·.runId)).toList

/-- Reject contradictory identities before any effect. -/
def validateChangeScope : Except TracingError Unit := do
  let keys := scopeKeys change state
  reject
    ((keys.any fun key => key.namespace ≠ change.namespace) ∨
      ¬keys.Pairwise fun left right => left.threadId = right.threadId)
    (.storeProtocol "Trace Ledger thread identities conflict")
  reject (change.checkpoint.any fun checkpoint => change.key.any (checkpoint.key ≠ ·))
    (.storeProtocol "Trace checkpoint generation identities conflict")
  let runIds := scopeRunIds change state
  reject (¬runIds.Pairwise (· = ·)) (.storeProtocol "Trace Ledger Run identities conflict")
  let facts := change.facts.map (·.fact) ++ change.provenEvents.map (·.fact)
  reject
    (facts.any fun fact => keys.head?.all fun key =>
      fact.identity.namespace ≠ change.namespace ∨ fact.identity.threadId ≠ key.threadId ∨
        fact.identity.runId ∉ runIds)
    (.storeProtocol "Trace writer can append facts only for its bound Run")
  reject (change.key.any fun key => change.provenEvents.any (·.generation ≠ key.generation))
    (.storeProtocol "Proven Trace events belong to another generation")

/-! ## Opening a writer -/

/-- Admit a Run that has no writer row. -/
def admitWriter (identity : RunIdentity) (ownerToken : String) (thread : TraceLedgerThreadState)
    (created : Bool) : Except TracingError TraceLedgerStorageEffect := do
  let eventReserve : Int := change.limits.terminalReserveEventsPerRun
  let byteReserve : Int := change.limits.terminalReserveBytesPerRun
  reject
    (thread.nextSeq - 1 + state.threadReservedEvents + eventReserve > change.limits.maxThreadEvents)
    (.quotaExceeded "Thread cannot reserve terminal events" "thread_events")
  reject
    (thread.persistedBytes + state.threadReservedBytes + byteReserve > change.limits.maxThreadBytes)
    (.quotaExceeded "Thread cannot reserve terminal bytes" "thread_bytes")
  reject
    (state.namespacePersistedBytes + state.namespaceReservedBytes + byteReserve >
      change.limits.maxTracerBytes)
    (.quotaExceeded "Tracer cannot reserve terminal bytes" "tracer_bytes")
  let leaseExpiresAt ← writerLeaseExpiration change state
  let writer : TraceLedgerWriterState :=
    { runId := identity.runId
      ownerToken
      fence := 1
      leaseExpiresAt
      active := true
      terminalCommitted := false
      closedCommitted := false
      committedEvents := 0
      remainingEventReserve := eventReserve
      remainingByteReserve := byteReserve }
  return {
    result :=
      { kind := .openWriter
        key := some thread.key
        runId := some identity.runId
        ownerToken := some ownerToken
        fence := some writer.fence }
    thread := if created then some thread else none
    writer := some writer
    namespaceThreadDelta := if created then 1 else 0
    namespaceReservedBytesDelta := byteReserve }

/-- Open a writer for a Run whose writer row exists. -/
def reopenWriter (identity : RunIdentity) (ownerToken : String) (thread : TraceLedgerThreadState)
    (existing : TraceLedgerWriterState) : Except TracingError TraceLedgerStorageEffect :=
  let result (fence : Int) : TraceLedgerCommitResult :=
    { kind := .openWriter
      key := some thread.key
      runId := some identity.runId
      ownerToken := some ownerToken
      fence := some fence }
  if existing.ownerToken = ownerToken ∧ existing.active ∧ ¬existing.closedCommitted then do
    let leaseExpiresAt ← writerLeaseExpiration change state
    return {
      result := result existing.fence
      writer := some { existing with leaseExpiresAt, active := true } }
  else do
    reject (¬existing.active ∨ existing.closedCommitted)
      (.runConflict "Trace Run identity already exists" none)
    reject (¬change.enforceWriterLease ∨ existing.leaseExpiresAt > state.observedAt)
      (.runConflict "Trace Run writer is still active" none)
    let leaseExpiresAt ← writerLeaseExpiration change state
    let replacement :=
      { existing with ownerToken, fence := existing.fence + 1, leaseExpiresAt, active := true }
    return { result := result replacement.fence, writer := some replacement }

/-- The thread a writer is opened in; one that does not exist yet gets the generation `fresh`. -/
def openedThread (identity : RunIdentity) (fresh : String) :
    Except TracingError TraceLedgerThreadState :=
  match state.thread with
  | none => do
    reject (state.namespaceThreadCount ≥ change.limits.maxTracerThreads)
      (.quotaExceeded "Tracer thread quota is exhausted" "tracer_threads")
    return {
      key :=
        { «namespace» := change.namespace
          threadId := identity.threadId
          generation := fresh }
      nextSeq := 1
      persistedBytes := 0 }
  | some thread => do
    reject (thread.key.namespace ≠ change.namespace)
      (.storeProtocol "Trace namespace state is inconsistent")
    return thread

def resolveOpenWriter (fresh : String) : Except TracingError TraceLedgerStorageEffect :=
  match change.identity, change.ownerToken with
  | some identity, some ownerToken => do
    let thread ← openedThread change state identity fresh
    match state.targetWriter with
    | some existing => reopenWriter change state identity ownerToken thread existing
    | none => admitWriter change state identity ownerToken thread state.thread.isNone
  | _, _ => .error (.storeProtocol "Writer open change is incomplete")

/-! ## Appending events -/

/-- The writer of a proven append with a new lease, while it is still its own. -/
def renewedByProof : Except TracingError (Option TraceLedgerWriterState) :=
  match state.targetWriter with
  | none => .ok none
  | some writer =>
    if writer.OwnedBy change then
      (writerLeaseExpiration change state).map fun leaseExpiresAt =>
        some { writer with leaseExpiresAt, active := true }
    else
      .ok none

/-- Return committed events again. -/
def resolveProvenAppend : Except TracingError TraceLedgerStorageEffect :=
  match change.key with
  | none => .error (.storeProtocol "Proven append has no generation")
  | some key => do
    let thread ← requireExactThread state key
    let renewed ← renewedByProof change state
    return {
      result :=
        { kind := .appendEvents
          key := some thread.key
          runId := change.runId
          events := change.provenEvents }
      writer := renewed }

def TraceSemanticFact.isTerminal (fact : TraceSemanticFact) : Bool :=
  fact.runPhase? = some .terminal || fact.runPhase? = some .closed

/-- The lifecycle flags after a batch, unless the batch breaks the order of the lifecycle. -/
def lifecycleFlags (mandatory : Bool) (writer : TraceLedgerWriterState)
    (facts : List TraceSemanticFact) : Except TracingError (Bool × Bool) :=
  if mandatory then do
    let phases := facts.filterMap (·.runPhase?)
    reject (phases.count .terminal > 1 ∨ phases.count .closed > 1)
      (.storeProtocol "Run terminal and closed facts must be exactly-once")
    reject (writer.terminalCommitted ∧ .terminal ∈ phases)
      (.storeProtocol "Run terminal fact is already committed")
    reject (writer.closedCommitted) (.storeProtocol "Run closed fact is already committed")
    reject
      (.closed ∈ phases ∧ ¬(writer.terminalCommitted ∨
        .terminal ∈ phases ∧ phases.idxOf .terminal < phases.idxOf .closed))
      (.storeProtocol "Run closed fact requires a committed terminal fact")
    return (writer.terminalCommitted || decide (.terminal ∈ phases), decide (.closed ∈ phases))
  else do
    reject (writer.terminalCommitted ∨ writer.closedCommitted)
      (.storeProtocol "Ordinary Trace facts cannot follow the Run terminal")
    return (writer.terminalCommitted, writer.closedCommitted)

/-- The committed events of the drafts, from the next sequence of the thread on. -/
def appendedEvents (thread : TraceLedgerThreadState) (writer : TraceLedgerWriterState) :
    Int → List TraceStoredFact → Except TracingError (List TraceEvent)
  | _, [] => .ok []
  | nextSeq, draft :: drafts => do
    let identity := draft.fact.identity
    reject
      (identity.toThreadIdentity ≠ thread.key.toThreadIdentity ∨ identity.runId ≠ writer.runId)
      (.storeProtocol "Trace writer can append facts only for its bound Run")
    let event ← makeEvent encodedLength draft.eventId nextSeq thread.key.generation draft.fact
    reject (event.persistedBytes > change.limits.maxEventBytes)
      (.quotaExceeded "Trace event exceeds max_event_bytes" "event_bytes")
    let rest ← appendedEvents thread writer (nextSeq + 1) drafts
    return event :: rest

/-- The backend record of a committed event. -/
def storedEvent (writer : TraceLedgerWriterState) (event : TraceEvent) (draft : TraceStoredFact) :
    StoredTraceEvent where
  eventId := event.eventId
  traceSeq := event.traceSeq
  runId := writer.runId
  factKind := draft.fact.kind
  occurredAt := draft.fact.occurredAt
  canonicalPayload := draft.canonicalPayload
  payloadDigest := draft.payloadDigest
  persistedBytes := event.persistedBytes

/-- Bytes that the events take together. -/
def persistedBytesOf (events : List TraceEvent) : Int := (events.map (·.persistedBytes)).sum

/-- A mandatory batch spends the reserve of its writer; any other must leave all reserves free. -/
def checkCapacity (thread : TraceLedgerThreadState) (writer : TraceLedgerWriterState)
    (events : List TraceEvent) : Except TracingError Unit :=
  let addedBytes := persistedBytesOf events
  if change.mandatory then
    reject
      (events.length > writer.remainingEventReserve ∨ addedBytes > writer.remainingByteReserve)
      (.quotaExceeded "Run terminal reserve is exhausted" "terminal_reserve")
  else do
    reject
      (thread.nextSeq + events.length - 1 + state.threadReservedEvents >
        change.limits.maxThreadEvents)
      (.quotaExceeded "Thread event quota is exhausted" "thread_events")
    reject
      (thread.persistedBytes + addedBytes + state.threadReservedBytes >
        change.limits.maxThreadBytes)
      (.quotaExceeded "Thread byte quota is exhausted" "thread_bytes")
    reject
      (state.namespacePersistedBytes + addedBytes + state.namespaceReservedBytes >
        change.limits.maxTracerBytes)
      (.quotaExceeded "Tracer byte quota is exhausted" "tracer_bytes")

/-- The kind of the batch agrees with what the change says it is. -/
def checkBatch (facts : List TraceSemanticFact) : Except TracingError Unit := do
  reject (¬change.mandatory ∧ facts.any (·.isTerminal))
    (.storeProtocol "Terminal and closed Run facts require a mandatory append")
  reject (change.mandatory ≠ facts.all (·.isTerminal))
    (.storeProtocol "mandatory append is reserved for terminal and closed Run facts")
  reject
    (facts.any fun fact => fact.runPhase?.isSome &&
      (decide (fact.base.graphNamespace ≠ []) || fact.base.inSubagentScope))
    (.storeProtocol "Run lifecycle facts require the root scope")

/-- The writer row after its batch was committed. -/
def appendedWriter (writer : TraceLedgerWriterState) (events : List TraceEvent)
    (flags : Bool × Bool) (leaseExpiresAt : Nat) : TraceLedgerWriterState where
  runId := writer.runId
  ownerToken := writer.ownerToken
  fence := writer.fence
  leaseExpiresAt := leaseExpiresAt
  active := true
  terminalCommitted := flags.1
  closedCommitted := flags.2
  committedEvents := writer.committedEvents + events.length
  remainingEventReserve :=
    if !change.mandatory then writer.remainingEventReserve
    else if flags.2 then 0
    else writer.remainingEventReserve - events.length
  remainingByteReserve :=
    if !change.mandatory then writer.remainingByteReserve
    else if flags.2 then 0
    else writer.remainingByteReserve - persistedBytesOf events

def resolveAppendEvents : Except TracingError TraceLedgerStorageEffect :=
  if ¬change.provenEvents.isEmpty then
    resolveProvenAppend change state
  else if change.facts.isEmpty then
    .error (.storeProtocol "Trace append requires at least one fact")
  else do
    let (thread, writer) ← ownedWriter change state change.enforceWriterLease
    let facts := change.facts.map (·.fact)
    checkBatch change facts
    let flags ← lifecycleFlags change.mandatory writer facts
    let events ← appendedEvents encodedLength change thread writer thread.nextSeq change.facts
    checkCapacity change state thread writer events
    let leaseExpiresAt ← writerLeaseExpiration change state
    let updated := appendedWriter change writer events flags leaseExpiresAt
    let mutations ← graphNodeMutations events
    return {
      result :=
        { kind := .appendEvents
          key := some thread.key
          runId := some writer.runId
          events }
      thread := some
        { key := thread.key
          nextSeq := thread.nextSeq + events.length
          persistedBytes := thread.persistedBytes + persistedBytesOf events }
      writer := some updated
      events :=
        if change.persistCanonicalEventRecords then
          List.zipWith (storedEvent writer) events change.facts
        else
          []
      validatedEvents := events
      graphNodeMutations := mutations
      namespacePersistedBytesDelta := persistedBytesOf events
      namespaceReservedBytesDelta := updated.remainingByteReserve - writer.remainingByteReserve }

/-! ## Renewing and closing a writer -/

def resolveRenewWriter : Except TracingError TraceLedgerStorageEffect := do
  let (thread, writer) ←
    ownedWriter change state (change.enforceWriterLease && !change.provenRenewal)
  let leaseExpiresAt ← writerLeaseExpiration change state
  return {
    result := { kind := .renewWriter, key := some thread.key, runId := some writer.runId }
    writer := some { writer with leaseExpiresAt } }

def resolveCloseWriter : Except TracingError TraceLedgerStorageEffect :=
  match change.key, change.runId with
  | some key, some runId =>
    let result : TraceLedgerCommitResult :=
      { kind := .closeWriter, key := some key, runId := some runId }
    match state.thread, state.targetWriter with
    | some thread, some writer =>
      if thread.key ≠ key ∨ ¬writer.OwnedBy change then
        .ok { result }
      else if writer.committedEvents = 0 then
        let removeThread := decide (thread.nextSeq = 1 ∧ state.writerCount = 1)
        .ok
          { result
            removeThread
            removeWriterRunId := some runId
            namespaceThreadDelta := if removeThread then -1 else 0
            namespaceReservedBytesDelta := -writer.remainingByteReserve }
      else
        .ok
          { result
            writer := some
              { writer with
                active := false
                remainingEventReserve := 0
                remainingByteReserve := 0 }
            namespaceReservedBytesDelta := -writer.remainingByteReserve }
    | _, _ => .ok { result }
  | _, _ => .error (.storeProtocol "Writer close change is incomplete")

/-! ## Checkpoints and deletion -/

/-- Replace the current checkpoint by a later one. -/
def advanceCheckpoint (checkpoint : TraceProjectionCheckpoint) (payload : List UInt8)
    (digest : String) : Except TracingError TraceLedgerStorageEffect := do
  let currentSeq := state.currentCheckpoint.map (·.asOfSeq)
  reject (currentSeq ≠ change.expectedCheckpointAsOfSeq)
    (.projectionCheckpointConflict "Projection checkpoint compare-and-swap failed"
      checkpoint.projectionName currentSeq)
  reject (currentSeq.any (checkpoint.asOfSeq ≤ ·))
    (.projectionCheckpointConflict "Projection checkpoint must advance its fixed prefix"
      checkpoint.projectionName currentSeq)
  return {
    result :=
      { kind := .saveProjectionCheckpoint
        key := some checkpoint.key
        checkpoint := some checkpoint }
    checkpoint := some
      { key := checkpoint.key
        projectionName := checkpoint.projectionName
        runId := checkpoint.runId
        asOfSeq := checkpoint.asOfSeq
        canonicalState := payload
        stateDigest := digest } }

def resolveSaveCheckpoint : Except TracingError TraceLedgerStorageEffect :=
  match change.checkpoint, change.canonicalCheckpointState, change.checkpointStateDigest with
  | some checkpoint, some payload, some digest => do
    let thread ← requireExactThread state checkpoint.key
    reject (checkpoint.asOfSeq > thread.nextSeq - 1)
      (.storeProtocol "Projection checkpoint exceeds the committed Trace prefix")
    match state.currentCheckpoint with
    | some current =>
      if current.asOfSeq = checkpoint.asOfSeq then do
        reject (current.stateDigest ≠ digest ∨ current.canonicalState ≠ payload)
          (.storeProtocol "Projection checkpoint idempotency evidence conflicts")
        return {
          result :=
            { kind := .saveProjectionCheckpoint
              key := some checkpoint.key
              checkpoint := some checkpoint } }
      else
        advanceCheckpoint change state checkpoint payload digest
    | none => advanceCheckpoint change state checkpoint payload digest
  | _, _, _ => .error (.storeProtocol "Projection checkpoint change is incomplete")

def resolveDeleteGeneration : Except TracingError TraceLedgerStorageEffect :=
  match change.key with
  | none => .error (.storeProtocol "Generation delete change is incomplete")
  | some key => do
    let thread ← requireExactThread state key
    reject (¬state.activeWriters.isEmpty)
      (.runConflict "Active Trace writers prevent deletion" (some state.activeWriters.length))
    return {
      result := { kind := .deleteGeneration, key := some key }
      deleteGeneration := true
      namespaceThreadDelta := -1
      namespacePersistedBytesDelta := -thread.persistedBytes
      namespaceReservedBytesDelta := -state.threadReservedBytes }

/-- Resolve one change against the locked current state. -/
def resolveLedgerChange (fresh : String) : Except TracingError TraceLedgerStorageEffect := do
  validateChangeScope change state
  match change.kind with
  | .openWriter => resolveOpenWriter change state fresh
  | .appendEvents => resolveAppendEvents encodedLength change state
  | .renewWriter => resolveRenewWriter change state
  | .closeWriter => resolveCloseWriter change state
  | .saveProjectionCheckpoint => resolveSaveCheckpoint change state
  | .deleteGeneration => resolveDeleteGeneration change state

end Tinkerfin.Tracing
