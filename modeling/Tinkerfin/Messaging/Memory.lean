import Tinkerfin.Messaging.Capacity
import Tinkerfin.Messaging.Reads

/-!
# The in-memory backend

Channels, stream generations and runs are dictionaries; totals of bytes and records are counters
that are charged and released by hand.  An operation runs without yielding, so it is a function from
a backend to its outcome and the backend it leaves behind, also when it raises.  A channel that was
never configured is not registered: it is created for one operation and dropped with it.
-/

namespace Tinkerfin.Messaging

/-! ## State -/

/-- Clock readings taken by one operation, in the order of their use. -/
structure ClockReadings where
  /-- Monotonic reading against which other threads are reclaimed. -/
  reclaimedAt : Nat
  /-- Monotonic reading against which the addressed thread is expired. -/
  checkedAt : Nat
  observedAt : Nat
  /-- Monotonic reading from which a terminal deadline starts. -/
  retainedAt : Nat

structure RunRecord where
  identity : RunIdentity
  startSeq : Nat
  endSeq : Nat
  ownerToken : Option String
  fence : Nat
  cancellable : Bool
  recoverable : Bool
  status : RunStatus
  settling : Bool
  publicationClosed : Bool
  publicationReady : Bool
  error : Option BaseException
  checkpoint : Option RecoveryCheckpoint
  deriving DecidableEq

/-- A run record as it is constructed, before its other fields are assigned. -/
def RunRecord.opened (identity : RunIdentity) (startSeq : Nat) (ownerToken : String)
    (cancellable recoverable : Bool) : RunRecord where
  identity
  startSeq
  endSeq := startSeq
  ownerToken := some ownerToken
  fence := 1
  cancellable
  recoverable
  status := .running
  settling := false
  publicationClosed := false
  publicationReady := false
  error := none
  checkpoint := none

/-- The content that a message signature covers. -/
structure SignedContent where
  runId : String
  codec : String
  payload : List UInt8
  checkpoint : Option RecoveryCheckpoint
  deriving DecidableEq

/-- One in-memory generation with its active run and terminal deadline. -/
structure StreamState where
  generation : Nat
  disposition : MessagingStreamDisposition := .active
  messages : List MessageEnvelope := []
  byMessageId : Dict String MessageEnvelope := .empty
  signatures : Dict String SignedContent := .empty
  runs : Dict String RunRecord := .empty
  activeIdentity : Option RunIdentity := none
  payloadBytes : Nat := 0
  retainedBytes : Int := 0
  retainedRecords : Int := 1
  expiresAtMonotonic : Option Nat := none
  controlSequence : Nat := 0
  deriving DecidableEq

/-- The thread generations of a channel and the dispositions of retired ones. -/
structure ChannelState where
  channel : String
  codec : Option String := none
  streams : Dict ThreadIdentity StreamState := .empty
  nextGenerations : Dict ThreadIdentity Nat := .empty
  tombstones : Dict ThreadIdentity (Dict Nat MessagingCleanupReason) := .empty
  deriving DecidableEq

structure MemoryBackend where
  channels : Dict String ChannelState := .empty
  totalBytes : Int := 0
  totalRecords : Int := 0
  expirations : ExpiryIndex Nat := .empty
  limits : MessagingLimits
  retentionPolicy : MessagingRetentionPolicy
  deriving DecidableEq

/-- The state of a channel, an empty one when it is not registered. -/
def MemoryBackend.channel (backend : MemoryBackend) (channel : String) : ChannelState :=
  (backend.channels.get? channel).getD { channel }

/-- A channel with one of its generations replaced. -/
def ChannelState.withStream (channel : ChannelState) (thread : ThreadIdentity)
    (state : StreamState) : ChannelState :=
  { channel with streams := channel.streams.insert thread state }

/-- Keep the changes of a channel state; one without a codec was never registered. -/
def MemoryBackend.keep (backend : MemoryBackend) (channel : ChannelState) : MemoryBackend :=
  if channel.codec.isSome then
    { backend with channels := backend.channels.insert channel.channel channel }
  else
    backend

/-! ## Tombstones and expiry -/

/-- Tombstones of one thread. -/
def ChannelState.threadTombstones (channel : ChannelState) (thread : ThreadIdentity) :
    Dict Nat MessagingCleanupReason :=
  (channel.tombstones.get? thread).getD .empty

/-- An exact or latest unavailable generation and why it is unavailable. -/
def ChannelState.tombstoneReason (channel : ChannelState) (thread : ThreadIdentity)
    (generation : Option Nat) : Option (Nat × MessagingCleanupReason) :=
  let tombstones := channel.threadTombstones thread
  (generation.or tombstones.keys.max?).bind fun retired =>
    (tombstones.get? retired).map fun reason => (retired, reason)

/-- Remember why a generation can no longer satisfy a bound cursor. -/
def ChannelState.recordTombstone (channel : ChannelState) (thread : ThreadIdentity)
    (generation : Nat) (reason : MessagingCleanupReason) : ChannelState :=
  { channel with
    tombstones := channel.tombstones.insert thread
      ((channel.threadTombstones thread).insert generation reason) }

/-- A channel after one of its generations became a tombstone. -/
def ChannelState.retire (channel : ChannelState) (thread : ThreadIdentity) (state : StreamState)
    (reason : MessagingCleanupReason) : ChannelState :=
  ChannelState.recordTombstone
    { channel with
      streams := channel.streams.erase thread
      nextGenerations := channel.nextGenerations.insert thread (state.generation + 1) }
    thread state.generation reason

/-- Turn a generation record into its tombstone, which needs no spare quota. -/
def MemoryBackend.retireMemoryGeneration (backend : MemoryBackend) (channel : ChannelState)
    (thread : ThreadIdentity) (state : StreamState) (reason : MessagingCleanupReason) :
    MemoryBackend :=
  MemoryBackend.keep
    { backend with
      totalBytes := backend.totalBytes - state.retainedBytes
      totalRecords := backend.totalRecords - (state.retainedRecords - 1)
      expirations := backend.expirations.set ⟨channel.channel, thread⟩ none }
    (channel.retire thread state reason)

/-- Lazily retire one terminal generation whose deadline passed. -/
def MemoryBackend.expireIfDue (backend : MemoryBackend) (key : StreamKey) (now : Nat) :
    MemoryBackend :=
  let channel := backend.channel key.channel
  match channel.streams.get? key.thread with
  | none => backend
  | some state =>
    match state.expiresAtMonotonic with
    | none => backend
    | some deadline =>
      if now < deadline then backend
      else backend.retireMemoryGeneration channel key.thread state .expired

/-- Retire up to a number of due threads. -/
def MemoryBackend.reclaimWithin (now : Nat) : Nat → MemoryBackend → MemoryBackend
  | 0, backend => backend
  | rounds + 1, backend =>
    match backend.expirations.popDue now with
    | (none, expirations) => { backend with expirations }
    | (some key, expirations) =>
      (MemoryBackend.expireIfDue { backend with expirations } key now).reclaimWithin now rounds

/-- Bounded admission work that releases the records of other threads. -/
def MemoryBackend.reclaimExpired (backend : MemoryBackend) (now : Nat) : MemoryBackend :=
  backend.reclaimWithin now 64

/-! ## Snapshots -/

/-- The stored form of a run record; its lease is held by every unfinished owner. -/
def RunRecord.stored (record : RunRecord) (generation : Nat) : StoredMessagingRun where
  identity := record.identity
  generation
  startSequence := record.startSeq
  endSequence := record.endSeq
  status := record.status
  settlementStarted := record.settling
  publicationClosed := record.publicationClosed
  publicationReady := record.publicationReady
  cancellable := record.cancellable
  recoverable := record.recoverable
  producerToken := record.ownerToken
  producerFence := record.fence
  producerLeaseActive := !isFinalRunStatus record.status && record.ownerToken.isSome
  checkpoint := record.checkpoint
  failureClass := (failureEvidence record.error).1
  failureMessage := (failureEvidence record.error).2
  localFailure := record.error

/-- The fence above all fences of a generation's runs. -/
def StreamState.nextFence (state : StreamState) : Nat :=
  1 + (state.runs.entries.map fun entry => entry.2.fence).foldl max 0

/-- The stored form of a generation's metadata. -/
def StreamState.stored (state : StreamState) (key : StreamKey) : StoredMessagingStream where
  channel := key.channel
  threadId := key.thread.threadId
  generation := state.generation
  disposition := state.disposition
  latestSequence := state.messages.length
  payloadBytes := state.payloadBytes
  nextProducerFence := state.nextFence
  activeRunId := state.activeIdentity.map RunIdentity.runId
  retentionExpired := false
  messageSequence := state.messages.length
  controlSequence := state.controlSequence

/-- Stored evidence of a committed message, signed again from its stored content. -/
def StreamState.evidence (state : StreamState) (thread : ThreadIdentity) (messageId : String) :
    Except MessagingError (Option StoredMessageEvidence) :=
  match state.byMessageId.get? messageId, state.signatures.get? messageId with
  | some envelope, some signed => do
    let signature ← messagingMessageSignature ⟨thread, signed.runId⟩ signed.codec signed.payload
      signed.checkpoint
    return some { envelope, signature, checkpoint := signed.checkpoint }
  | _, _ => .ok none

/-- Evidence for an optional identifier. -/
def StreamState.requestedEvidence (state : StreamState) (thread : ThreadIdentity) :
    Option String → Except MessagingError (Option StoredMessageEvidence)
  | none => .ok none
  | some messageId => state.evidence thread messageId

/-- The owner of a generation, unless it is the addressed run. -/
def StreamState.otherActiveRun (state : StreamState) (runId : String) : Option RunRecord :=
  (state.activeIdentity.filter fun active => decide (active.runId ≠ runId)).bind fun active =>
    state.runs.get? active.runId

/-- A view of the durable state that one operation needs. -/
structure MessagingStateQuery where
  channel : String
  identity : RunIdentity
  generation : Option Nat := none
  messageId : Option String := none
  includeActiveRun : Bool := false

/-- The stream addressed by a state query. -/
def MessagingStateQuery.key (query : MessagingStateQuery) : StreamKey :=
  ⟨query.channel, threadKey query.identity⟩

/-- Stored configuration of a channel under the settings of its backend. -/
def MemoryBackend.storedChannel (backend : MemoryBackend) (channel : String) :
    Option StoredMessagingChannel :=
  (backend.channel channel).codec.map fun codecId =>
    { channel
      codecId
      limits := backend.limits
      retentionPolicy := backend.retentionPolicy }

/-- The snapshot of a generation, or of the tombstone that replaced it. -/
def MemoryBackend.memoryStateSnapshot (backend : MemoryBackend) (observedAt : Nat)
    (query : MessagingStateQuery) : Except MessagingError MessagingStateSnapshot := do
  let channel := backend.channel query.channel
  let selected := (channel.streams.get? query.key.thread).filter fun state =>
    decide (∀ generation ∈ query.generation, state.generation = generation)
  let tombstone := channel.tombstoneReason query.key.thread query.generation
  let empty : MessagingStateSnapshot :=
    { observedAt
      channel := backend.storedChannel query.channel
      stream := none
      targetRun := none
      activeRun := none
      matchingMessage := none
      tombstoneGeneration := tombstone.map Prod.fst
      tombstoneReason := tombstone.map Prod.snd }
  match selected with
  | none => return empty
  | some state => do
    let matchingMessage ← state.requestedEvidence query.key.thread query.messageId
    return { empty with
      stream := some (state.stored query.key)
      targetRun := (state.runs.get? query.identity.runId).map fun record =>
        record.stored state.generation
      activeRun := if query.includeActiveRun then
          (state.otherActiveRun query.identity.runId).map fun record =>
            record.stored state.generation
        else
          none
      matchingMessage }

/-! ## Effects -/

/-- Bytes and records that an effect adds in total, and the records it adds to its generation. -/
structure EffectCapacity where
  bytes : Int
  records : Int
  generationRecords : Int

/-- One when a condition holds. -/
def chargeIf (condition : Bool) : Int := if condition then 1 else 0

/-- Bytes added by a run record that replaces a previous one. -/
def runBytes (state : Option StreamState) (run : StoredMessagingRun) : Int :=
  let previous := state.bind fun state => state.runs.get? run.identity.runId
  checkpointBytes run.checkpoint - checkpointBytes (previous.bind RunRecord.checkpoint)

/-- Whether a run is recorded for the first time. -/
def isNewRun (state : Option StreamState) (run : StoredMessagingRun) : Bool :=
  (state.bind fun state => state.runs.get? run.identity.runId).isNone

/-- The message of an effect, unless its identifier is already committed. -/
def newMessage (state : Option StreamState) (effect : MessagingStorageEffect) :
    Option StoredMessageEvidence :=
  effect.message.filter fun message =>
    (state.bind fun state => state.byMessageId.get? message.envelope.messageId).isNone

/-- Retained bytes of a message and its checkpoint evidence. -/
def messageBytes (message : StoredMessageEvidence) : Int :=
  message.envelope.payload.length + checkpointBytes message.checkpoint

def ChannelState.effectCapacity (channel : ChannelState) (thread : ThreadIdentity)
    (effect : MessagingStorageEffect) : EffectCapacity :=
  let state := channel.streams.get? thread
  let records := chargeIf (channel.codec.isNone && effect.channel.isSome) +
    if effect.stream.isSome ∧ state.isNone then
      1 + chargeIf (!channel.nextGenerations.contains thread)
    else
      0
  let message := newMessage state effect
  let generationRecords :=
    (effect.runs.map fun run => chargeIf (isNewRun state run)).sum + chargeIf message.isSome
  { bytes := (effect.runs.map (runBytes state)).sum + message.elim 0 messageBytes
    records := records + generationRecords
    generationRecords }

/-- Reject an effect that exceeds the total limits. -/
def MemoryBackend.requireTotalRoom (backend : MemoryBackend) (capacity : EffectCapacity) :
    Except MessagingError Unit := do
  require (backend.totalBytes + capacity.bytes ≤ backend.limits.maxTotalBytes)
    (.quotaExceeded "total_bytes" backend.limits.maxTotalBytes)
  require (backend.totalRecords + capacity.records ≤ backend.limits.maxTotalRecords)
    (.quotaExceeded "total_records" backend.limits.maxTotalRecords)

/-- Configure the codec of a new channel, or check the codec of a configured one. -/
def ChannelState.configure (channel : ChannelState) (effect : MessagingStorageEffect) :
    Except MessagingError ChannelState :=
  match effect.channel, channel.codec with
  | none, _ => .ok channel
  | some stored, none => .ok { channel with codec := some stored.codecId }
  | some stored, some codec => do
    require (codec = stored.codecId) (.codecMismatch codec stored.codecId)
    return channel

/-- The generation that an effect writes: the live one, or a new one that replaces it. -/
def ChannelState.effectStream (channel : ChannelState) (thread : ThreadIdentity)
    (effect : MessagingStorageEffect) : Option StreamState :=
  match effect.stream, channel.streams.get? thread with
  | none, state => state
  | some stream, none => some { generation := stream.generation }
  | some stream, some state =>
    if state.generation ≠ stream.generation then some { generation := stream.generation }
    else some state

/-- Assign the metadata of an effect. -/
def StreamState.describe (state : StreamState) (thread : ThreadIdentity)
    (effect : MessagingStorageEffect) : StreamState :=
  match effect.stream with
  | none => state
  | some stream =>
    { state with
      disposition := stream.disposition
      payloadBytes := stream.payloadBytes
      controlSequence := stream.controlSequence
      activeIdentity := stream.activeRunId.map fun runId => ⟨thread, runId⟩ }

/-- Assign every field of a run record but its identity. -/
def RunRecord.assign (record : RunRecord) (run : StoredMessagingRun) : RunRecord :=
  { record with
    startSeq := run.startSequence
    endSeq := run.endSequence
    ownerToken := run.producerToken
    fence := run.producerFence
    cancellable := run.cancellable
    recoverable := run.recoverable
    status := run.status
    settling := run.settlementStarted
    publicationClosed := run.publicationClosed
    publicationReady := run.publicationReady
    error := run.localFailure
    checkpoint := run.checkpoint }

/-- Record one run of an effect. -/
def StreamState.writeRun (state : StreamState) (run : StoredMessagingRun) : StreamState :=
  let record := (state.runs.get? run.identity.runId).getD
    (.opened run.identity run.startSequence (run.producerToken.getD "") run.cancellable
      run.recoverable)
  { state with runs := state.runs.insert run.identity.runId (record.assign run) }

/-- Record the message of an effect, unless its identifier is already committed. -/
def StreamState.writeMessage (state : StreamState) (message : StoredMessageEvidence) :
    StreamState :=
  let envelope := message.envelope
  if state.byMessageId.contains envelope.messageId then
    state
  else
    { state with
      messages := state.messages ++ [envelope]
      byMessageId := state.byMessageId.insert envelope.messageId envelope
      signatures := state.signatures.insert envelope.messageId
        { runId := envelope.identity.runId
          codec := envelope.codec
          payload := envelope.payload
          checkpoint := message.checkpoint } }

/-- Start or clear the terminal deadline of a generation. -/
def StreamState.retain (state : StreamState) (policy : MessagingRetentionPolicy) (now : Nat)
    (action : MessagingRetentionAction) : StreamState :=
  match action with
  | .none => state
  | .clear => { state with expiresAtMonotonic := none }
  | .start =>
    { state with expiresAtMonotonic := policy.terminalTtl.map fun terminalTtl =>
        now + terminalTtl }

/-- The generation after the replacements and additions of an effect. -/
def StreamState.write (state : StreamState) (thread : ThreadIdentity)
    (effect : MessagingStorageEffect) : StreamState :=
  let recorded := effect.runs.foldl StreamState.writeRun (state.describe thread effect)
  effect.message.elim recorded recorded.writeMessage

/-- Charge an effect to the counters of its generation. -/
def StreamState.charge (state : StreamState) (capacity : EffectCapacity) : StreamState :=
  { state with
    retainedBytes := state.retainedBytes + capacity.bytes
    retainedRecords := state.retainedRecords + capacity.generationRecords }

/-- Failure of an effect whose generation is missing. -/
def requireStreamless (effect : MessagingStorageEffect) : Except MessagingError Unit := do
  require (effect.runs = []) (.runtimeError "Messaging run effect requires a stream")
  require (effect.message = none) (.runtimeError "Messaging message effect requires a stream")
  require (effect.tombstoneReason = none)
    (.runtimeError "Messaging tombstone effect requires a stream")

/-- Store an effect; quotas and the codec are checked before anything changes. -/
def MemoryBackend.applyMemoryEffect (backend : MemoryBackend) (clock : ClockReadings)
    (key : StreamKey) (effect : MessagingStorageEffect) :
    Except MessagingError Unit × MemoryBackend :=
  let channel := backend.channel key.channel
  let capacity := channel.effectCapacity key.thread effect
  match (do backend.requireTotalRoom capacity; channel.configure effect) with
  | .error error => (.error error, backend)
  | .ok configured =>
    let charged : MemoryBackend :=
      { backend with
        totalBytes := backend.totalBytes + capacity.bytes
        totalRecords := backend.totalRecords + capacity.records }
    match configured.effectStream key.thread effect with
    | none => (requireStreamless effect, charged.keep configured)
    | some state =>
      let written := ((state.write key.thread effect).charge capacity).retain
        backend.retentionPolicy clock.retainedAt effect.retentionAction
      let stored := configured.withStream key.thread written
      let scheduled : MemoryBackend :=
        { charged with
          expirations :=
            if effect.retentionAction ≠ .none then
              charged.expirations.set key written.expiresAtMonotonic
            else
              charged.expirations }
      match effect.tombstoneReason with
      | none => (.ok (), scheduled.keep stored)
      | some reason =>
        (.ok (), scheduled.retireMemoryGeneration stored key.thread written reason)

/-! ## Operations -/

/-- The records that a transition is resolved against. -/
def MessagingTransition.query (transition : MessagingTransition) : MessagingStateQuery where
  channel := transition.channel
  identity := transition.identity
  generation := selectedGeneration transition
  messageId := transition.messageId
  includeActiveRun := true

/-- Kinds of transition that first reclaim due threads. -/
def MessagingTransitionKind.reclaims : MessagingTransitionKind → Bool
  | .prepareRun | .appendMessage | .publishMessage => true
  | .beginSettlement | .finishRun | .requestCancellation | .renewProducerOwnership
  | .reconcileProducerOwnership | .beginGenerationCleanup | .finishGenerationCleanup => false

/-- The backend after the expiry work that precedes a transition. -/
def MemoryBackend.housekept (backend : MemoryBackend) (clock : ClockReadings)
    (transition : MessagingTransition) : MemoryBackend :=
  let reclaimed := if transition.kind.reclaims then
      backend.reclaimExpired clock.reclaimedAt
    else
      backend
  reclaimed.expireIfDue transition.key clock.checkedAt

/-- Resolve one transition and store its effect. -/
def MemoryBackend.commitMessagingTransition (backend : MemoryBackend) (clock : ClockReadings)
    (transition : MessagingTransition) :
    Except MessagingError MessagingTransitionResult × MemoryBackend :=
  let kept := backend.housekept clock transition
  let resolved := do
    let snapshot ← kept.memoryStateSnapshot clock.observedAt transition.query
    resolveMessagingTransition transition snapshot
  match resolved with
  | .error error => (.error error, kept)
  | .ok effect =>
    let (applied, stored) := kept.applyMemoryEffect clock transition.key effect
    (applied.map fun _ => effect.result, stored)

/-- Load one snapshot; an unregistered channel has an empty one. -/
def MemoryBackend.loadMessagingState (backend : MemoryBackend) (clock : ClockReadings)
    (query : MessagingStateQuery) : Except MessagingError MessagingStateSnapshot × MemoryBackend :=
  let checked := do
    let _ ← requiredIdentifier "channel" query.channel
    requiredIdentity query.identity
  match checked with
  | .error error => (.error error, backend)
  | .ok _ =>
    let kept := backend.expireIfDue query.key clock.checkedAt
    (kept.memoryStateSnapshot clock.observedAt query, kept)

/-- Failure of a request for a generation that is not live. -/
def MemoryBackend.generationUnavailable (backend : MemoryBackend) (key : StreamKey)
    (identity : RunIdentity) (generation : Nat) : MessagingError :=
  match (backend.channel key.channel).tombstoneReason key.thread (some generation) with
  | some (retired, .expired) => .streamExpired key.channel identity retired
  | some (retired, .deleted) => .streamDeleted key.channel identity retired
  | none => .streamDeleted key.channel identity generation

/-- The exact active generation named by a read or a wait. -/
def MemoryBackend.requireGeneration (backend : MemoryBackend) (key : StreamKey)
    (identity : RunIdentity) (generation : Nat) : Except MessagingError StreamState :=
  match (backend.channel key.channel).streams.get? key.thread with
  | none => .error (backend.generationUnavailable key identity generation)
  | some state => do
    require (state.generation = generation)
      (backend.generationUnavailable key identity generation)
    require (state.disposition = .active)
      (raiseStreamDisposition key.channel identity generation state.disposition)
    return state

/-- Last sequence that a page may contain. -/
def StreamState.pageEnd (state : StreamState) (query : CommittedMessageQuery) : Int :=
  let latest : Int := state.messages.length
  let through := query.throughSequence.elim latest fun through => min through latest
  let through := match state.runs.get? query.identity.runId with
    | some record =>
      if query.stopAtRunTerminal ∧ isFinalRunStatus record.status then
        min through record.endSeq
      else
        through
    | none => through
  min through (query.afterSequence + query.limit)

/-- Read one page of an exact generation. -/
def MemoryBackend.readCommittedMessages (backend : MemoryBackend) (clock : ClockReadings)
    (query : CommittedMessageQuery) : Except MessagingError CommittedMessagePage × MemoryBackend :=
  let checked := do
    require (0 ≤ query.afterSequence) (.valueError "after_sequence must be non-negative")
    require (1 ≤ query.limit ∧ query.limit ≤ 1000) (.valueError "limit must be between 1 and 1000")
  match checked with
  | .error error => (.error error, backend)
  | .ok () =>
    let kept := backend.expireIfDue query.key clock.checkedAt
    let page := do
      let state ← kept.requireGeneration query.key query.identity query.generation
      require (query.afterSequence ≤ state.messages.length)
        (.invalidCursor query.afterSequence state.messages.length)
      return {
        generation := state.generation
        latestSequence := state.messages.length
        messages := slice state.messages query.afterSequence (state.pageEnd query)
        changeCursor := ⟨state.messages.length, state.controlSequence⟩
        runState := (state.runs.get? query.identity.runId).map fun record =>
          record.stored state.generation }
    (page, kept)

/-- Whether a wait finds its generation already changed. -/
def MemoryBackend.waitForMessagingChange (backend : MemoryBackend) (clock : ClockReadings)
    (wait : MessagingChangeWait) : Except MessagingError Bool × MemoryBackend :=
  let kept := backend.expireIfDue wait.key clock.checkedAt
  let changed := do
    let state ← kept.requireGeneration wait.key wait.identity wait.generation
    return decide (state.messages.length ≠ wait.cursor.messageSequence ∨
      state.controlSequence ≠ wait.cursor.controlSequence)
  (changed, kept)

/-! ## Purging -/

/-- One bounded batch of removals from a sealed generation. -/
structure StreamGenerationPurge where
  channel : String
  identity : RunIdentity
  generation : Nat
  maximumRecords : Int

structure StreamGenerationPurgeResult where
  removedRecords : Nat
  complete : Bool
  deriving DecidableEq, Repr

/-- The stream addressed by a purge. -/
def StreamGenerationPurge.key (purge : StreamGenerationPurge) : StreamKey :=
  ⟨purge.channel, threadKey purge.identity⟩

/-- Totals, generation and removed records of a batch in progress. -/
structure PurgeBatch where
  backend : MemoryBackend
  state : StreamState
  removed : Nat

/-- Release the bytes of one record in the totals and in its generation. -/
def PurgeBatch.releaseMemoryRecord (batch : PurgeBatch) (releasedBytes : Int) : PurgeBatch where
  backend :=
    { batch.backend with
      totalBytes := batch.backend.totalBytes - releasedBytes
      totalRecords := batch.backend.totalRecords - 1 }
  state :=
    { batch.state with
      retainedBytes := batch.state.retainedBytes - releasedBytes
      retainedRecords := batch.state.retainedRecords - 1 }
  removed := batch.removed + 1

/-- Remove the last message. -/
def PurgeBatch.dropMessage (batch : PurgeBatch) (message : MessageEnvelope) : PurgeBatch :=
  let signed := batch.state.signatures.get? message.messageId
  PurgeBatch.releaseMemoryRecord
    { batch with
      state := { batch.state with
        messages := batch.state.messages.dropLast
        byMessageId := batch.state.byMessageId.erase message.messageId
        signatures := batch.state.signatures.erase message.messageId } }
    (message.payload.length + checkpointBytes (signed.bind SignedContent.checkpoint))

/-- Remove one run. -/
def PurgeBatch.dropRun (batch : PurgeBatch) (runId : String) (record : RunRecord) : PurgeBatch :=
  PurgeBatch.releaseMemoryRecord
    { batch with state := { batch.state with runs := batch.state.runs.erase runId } }
    (checkpointBytes record.checkpoint)

/-- Remove messages from the tail while there are any and the batch has room. -/
def PurgeBatch.dropMessages : Nat → PurgeBatch → PurgeBatch
  | 0, batch => batch
  | room + 1, batch =>
    match batch.state.messages.getLast? with
    | none => batch
    | some message => (batch.dropMessage message).dropMessages room

/-- Remove the oldest runs while there are any and the batch has room. -/
def PurgeBatch.dropRuns : Nat → PurgeBatch → PurgeBatch
  | 0, batch => batch
  | room + 1, batch =>
    match batch.state.runs.first? with
    | none => batch
    | some (runId, record) => (batch.dropRun runId record).dropRuns room

/-- One batch: messages first, then runs. -/
def MemoryBackend.purgeBatch (backend : MemoryBackend) (state : StreamState) (maximum : Nat) :
    PurgeBatch :=
  let drained := PurgeBatch.dropMessages maximum { backend, state, removed := 0 }
  drained.dropRuns (maximum - drained.removed)

/-- Remove one batch of records from a sealed generation. -/
def MemoryBackend.purgeStreamGeneration (backend : MemoryBackend)
    (purge : StreamGenerationPurge) :
    Except MessagingError StreamGenerationPurgeResult × MemoryBackend :=
  if purge.maximumRecords < 1 then
    (.error (.valueError "maximum_records must be positive"), backend)
  else
    let channel := backend.channel purge.channel
    match channel.streams.get? purge.key.thread with
    | none => (.ok { removedRecords := 0, complete := true }, backend)
    | some state =>
      if state.generation ≠ purge.generation then
        (.ok { removedRecords := 0, complete := true }, backend)
      else if state.disposition.isSealed = false then
        (.error (.streamDeleteConflict purge.channel purge.identity
          (state.activeIdentity.getD purge.identity)), backend)
      else
        let batch := backend.purgeBatch state purge.maximumRecords.toNat
        (.ok
          { removedRecords := batch.removed
            complete := batch.state.messages.isEmpty && batch.state.runs.entries.isEmpty },
          batch.backend.keep (channel.withStream purge.key.thread batch.state))

/-! ## Runs -/

/-- Settings of the backend; its producers keep their ownership until they settle. -/
def MemoryBackend.messagingSettings (backend : MemoryBackend) : MessagingBackendSettings where
  limits := backend.limits
  retentionPolicy := backend.retentionPolicy
  producerLease := none

/-- A transition under the settings of the backend it is committed to. -/
def LedgerTransition.under (transition : LedgerTransition) (settings : MessagingBackendSettings) :
    LedgerTransition where
  toMessagingTransition := { transition.toMessagingTransition with settings }
  unselected := transition.unselected

/-- One operation on the backend; a transition is committed under the backend's settings. -/
inductive MemoryEvent
  | commit (clock : ClockReadings) (transition : LedgerTransition)
  | load (clock : ClockReadings) (query : MessagingStateQuery)
  | read (clock : ClockReadings) (query : CommittedMessageQuery)
  | wait (clock : ClockReadings) (wait : MessagingChangeWait)
  | purge (purge : StreamGenerationPurge)

/-- The backend after one operation, whatever its outcome. -/
def MemoryBackend.next (backend : MemoryBackend) : MemoryEvent → MemoryBackend
  | .commit clock transition =>
    (backend.commitMessagingTransition clock
      (transition.under backend.messagingSettings).toMessagingTransition).2
  | .load clock query => (backend.loadMessagingState clock query).2
  | .read clock query => (backend.readCommittedMessages clock query).2
  | .wait clock wait => (backend.waitForMessagingChange clock wait).2
  | .purge purge => (backend.purgeStreamGeneration purge).2

/-- The backend after a list of operations. -/
abbrev MemoryBackend.after (backend : MemoryBackend) (events : List MemoryEvent) : MemoryBackend :=
  Machine.run MemoryBackend.next backend events

/-- The backend before any operation. -/
def MemoryBackend.opened (limits : MessagingLimits) (retentionPolicy : MessagingRetentionPolicy) :
    MemoryBackend :=
  { limits, retentionPolicy }

end Tinkerfin.Messaging
