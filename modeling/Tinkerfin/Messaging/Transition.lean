import Tinkerfin.Messaging.Contract

/-!
# Pure lifecycle transitions

`resolveMessagingTransition` maps a transition and a bounded state snapshot to the storage effect
that a backend applies.  The definitions follow the source function by function; the branches of a
long source function are named after the effect they return.
-/

namespace Tinkerfin.Messaging

open Bytes

/-! ## Message signatures -/

/-- Values framed into a signature, in order. -/
def signedValues (identity : RunIdentity) (codecId : String) (payload : List UInt8)
    (checkpoint : Option RecoveryCheckpoint) : List (List UInt8) :=
  [utf8 identity.runId, utf8 codecId, payload] ++
    match checkpoint with
    | none => []
    | some checkpoint => [checkpoint.position, utf8 (checkpoint.lastMessageId.getD "")]

/-- The byte string hashed as evidence of one message commit. -/
def signaturePreimage (identity : RunIdentity) (codecId : String) (payload : List UInt8)
    (checkpoint : Option RecoveryCheckpoint) : List UInt8 :=
  utf8 "tinkerfin-messaging:redis-message" ++ 0 ::
    (signedValues identity codecId payload checkpoint).flatMap frame ++
      utf8 (if checkpoint.isSome then "1" else "0")

/-- Stable digest of one idempotent message commit. -/
def messagingMessageSignature (identity : RunIdentity) (codecId : String) (payload : List UInt8)
    (checkpoint : Option RecoveryCheckpoint) : Except MessagingError String := do
  let _ ← requiredIdentity identity
  let _ ← requiredIdentifier "codec_id" codecId
  require (∀ value ∈ signedValues identity codecId payload checkpoint, value.length < frameLimit)
    (.overflowError "int too big to convert")
  return Sha256.hexdigest (signaturePreimage identity codecId payload checkpoint)

/-! ## Shared checks -/

/-- Raise the tombstone of the referenced generation when the snapshot reports one. -/
def raiseReferenceTombstone (transition : MessagingTransition) (state : MessagingStateSnapshot)
    (generation : Option Nat) : Except MessagingError Unit :=
  match state.tombstoneGeneration with
  | none => .ok ()
  | some tombstoneGeneration =>
    if generation.isSome ∧ generation ≠ some tombstoneGeneration then
      .ok ()
    else
      match state.tombstoneReason with
      | some .expired =>
        .error (.streamExpired transition.channel transition.identity tombstoneGeneration)
      | some .deleted =>
        .error (.streamDeleted transition.channel transition.identity tombstoneGeneration)
      | none => .ok ()

/-- Failure for a stream that is sealed or retired. -/
def unavailableStream (transition : MessagingTransition) (stream : StoredMessagingStream) :
    MessagingError :=
  if stream.disposition = .expired ∨ stream.disposition = .expiring then
    .streamExpired transition.channel transition.identity stream.generation
  else
    .streamDeleted transition.channel transition.identity stream.generation

/-- The producer reference that owner transitions must carry. -/
def requiredReference (transition : MessagingTransition) :
    Except MessagingError MessagingRunReference :=
  match transition.runReference with
  | none => .error (.typeError "run_reference must be a MessagingRunReference")
  | some reference => do
    require (reference.channel = transition.channel ∧ reference.identity = transition.identity)
      (.valueError "run_reference conflicts with the transition identity")
    require (reference.producerToken.isSome ∧ reference.producerFence.isSome)
      (.backendOwnershipLost "Run " transition.identity.runId
        " has no producer ownership evidence")
    return reference

def requiredTargetRun (transition : MessagingTransition) (state : MessagingStateSnapshot) :
    Except MessagingError StoredMessagingRun :=
  match state.targetRun with
  | some run => .ok run
  | none => do
    raiseReferenceTombstone transition state
      (transition.runReference.map MessagingRunReference.generation)
    .error (.runNotFound transition.identity)

def requiredStream (transition : MessagingTransition) (state : MessagingStateSnapshot) :
    Except MessagingError StoredMessagingStream :=
  match state.stream with
  | none => do
    raiseReferenceTombstone transition state
      (transition.runReference.map MessagingRunReference.generation)
    .error (.runNotFound transition.identity)
  | some stream =>
    if stream.disposition = .active then .ok stream
    else .error (unavailableStream transition stream)

/-- Whether a reference names the stored owner of a run. -/
def referenceMatchesRun (reference : MessagingRunReference) (run : StoredMessagingRun) : Bool :=
  decide (run.generation = reference.generation ∧ run.identity = reference.identity ∧
    run.producerToken = reference.producerToken ∧ some run.producerFence = reference.producerFence)

/-- Admit a transition of the current live owner. -/
def ownedRun (transition : MessagingTransition) (state : MessagingStateSnapshot) :
    Except MessagingError (StoredMessagingRun × StoredMessagingStream × MessagingRunReference) := do
  let reference ← requiredReference transition
  let run ← requiredTargetRun transition state
  let stream ← requiredStream transition state
  if stream.generation ≠ reference.generation then do
    raiseReferenceTombstone transition state (some reference.generation)
    .error (.backendOwnershipLost "Producer for run " transition.identity.runId
      " lost its generation")
  else do
    require (referenceMatchesRun reference run ∧ run.producerLeaseActive)
      (.backendOwnershipLost "Producer for run " transition.identity.runId
        " lost its ownership fence")
    require (isFinalRunStatus run.status = false)
      (.backendOwnershipLost "Producer for run " transition.identity.runId " is already terminal")
    return (run, stream, reference)

/-- A run whose producer lost its lease. -/
def ownerLostRun (run : StoredMessagingRun) (endSequence : Nat) (message : String) :
    StoredMessagingRun :=
  { run with
    endSequence
    status := .ownerLost
    settlementStarted := true
    producerToken := none
    producerLeaseActive := false
    failureClass := "tinkerfin_messaging.OwnerLost"
    failureMessage := message
    localFailure := some (runtimeFailure message) }

/-- Class name and text recorded for an optional failure. -/
def failureEvidence : Option BaseException → String × String
  | none => ("", "")
  | some error => (error.module ++ "." ++ error.qualname, error.text)

/-! ## Preparation -/

/-- Channel configuration to create, after checking an existing one. -/
def prepareChannel (transition : MessagingTransition) (state : MessagingStateSnapshot)
    (codecId : String) : Except MessagingError (Option StoredMessagingChannel) :=
  match state.channel with
  | none =>
    .ok (some
      { channel := transition.channel
        codecId
        limits := transition.settings.limits
        retentionPolicy := transition.settings.retentionPolicy })
  | some stored => do
    require (stored.codecId = codecId) (.codecMismatch stored.codecId codecId)
    require (stored.limits = transition.settings.limits)
      (.backendProtocol "Messaging channel uses different capacity limits")
    require (stored.retentionPolicy = transition.settings.retentionPolicy)
      (.backendProtocol "Messaging channel uses a different retention policy")
    return none

/-- The empty generation that follows the previous one. -/
def freshStream (transition : MessagingTransition) (previousGeneration : Option Nat) :
    StoredMessagingStream where
  channel := transition.channel
  threadId := transition.identity.threadId
  generation := match previousGeneration with
    | none => 1
    | some generation => generation + 1
  disposition := .active
  latestSequence := 0
  payloadBytes := 0
  nextProducerFence := 1
  activeRunId := none
  retentionExpired := false
  messageSequence := 0
  controlSequence := 0

/-- Start a generation after an absent or retired one, unless an expired cursor asks for replay. -/
def replaceStream (transition : MessagingTransition) (state : MessagingStateSnapshot) :
    Except MessagingError StoredMessagingStream := do
  let previousGeneration := state.tombstoneGeneration.or
    (state.stream.map StoredMessagingStream.generation)
  let unavailableExpired : Bool := match state.tombstoneReason with
    | some reason => decide (reason = .expired)
    | none => decide (state.stream.map StoredMessagingStream.disposition = some .expired)
  require (¬(unavailableExpired ∧ transition.afterSequence ≠ none ∧
      transition.afterSequence ≠ some 0))
    (.streamExpired transition.channel transition.identity (max 1 (previousGeneration.getD 1)))
  return freshStream transition previousGeneration

/-- The generation a preparation joins or creates. -/
def prepareStream (transition : MessagingTransition) (state : MessagingStateSnapshot) :
    Except MessagingError StoredMessagingStream :=
  match state.stream with
  | none => replaceStream transition state
  | some stream =>
    match stream.disposition with
    | .active => .ok stream
    | .deleting | .expiring => .error (unavailableStream transition stream)
    | .deleted | .expired => replaceStream transition state

/-- Validated exclusive replay cursor. -/
def prepareCursor (transition : MessagingTransition) (stream : StoredMessagingStream) :
    Except MessagingError Int := do
  let cursor := transition.afterSequence.getD stream.latestSequence
  require (0 ≤ cursor ∧ cursor ≤ stream.latestSequence)
    (.invalidCursor cursor stream.latestSequence)
  return cursor

/-- Result handed to an observer that does not own the run. -/
def attachmentResult (transition : MessagingTransition) (stream : StoredMessagingStream)
    (cursor : Int) : MessagingTransitionResult where
  kind := transition.kind
  runReference := some
    { channel := transition.channel
      identity := transition.identity
      generation := stream.generation }
  afterSequence := some cursor
  isProducerOwner := some false

/-- Result handed to a producer that was granted ownership. -/
def ownerResult (transition : MessagingTransition) (stream : StoredMessagingStream) (cursor : Int)
    (recovered : Bool) (checkpoint : Option RecoveryCheckpoint) (status : RunStatus) :
    MessagingTransitionResult where
  kind := transition.kind
  runReference := some
    { channel := transition.channel
      identity := transition.identity
      generation := stream.generation
      producerToken := some transition.transitionId
      producerFence := some stream.nextProducerFence }
  afterSequence := some cursor
  isProducerOwner := some true
  checkpoint
  recovered
  runStatus := some status

/-- Stream metadata after its active run ended. -/
def releasedStream (stream : StoredMessagingStream) (activeRunId : Option String) :
    StoredMessagingStream :=
  { stream with activeRunId, controlSequence := stream.controlSequence + 1 }

/-- Attach to a run that is terminal or still owned. -/
def preparedAttachment (transition : MessagingTransition) (stream : StoredMessagingStream)
    (cursor : Int) (channel : Option StoredMessagingChannel) : MessagingStorageEffect where
  result := attachmentResult transition stream cursor
  channel

/-- Record the lost owner of the prepared run and attach to it. -/
def preparedLoss (transition : MessagingTransition) (stream : StoredMessagingStream)
    (cursor : Int) (channel : Option StoredMessagingChannel) (run : StoredMessagingRun)
    (message : String) : MessagingStorageEffect where
  result := attachmentResult transition stream cursor
  channel
  stream := some (releasedStream stream none)
  runs := [ownerLostRun run stream.latestSequence message]
  leaseAction := .release
  leaseRunId := some run.identity.runId
  retentionAction := .start

/-- The prepared run under its new owner. -/
def recoveredRun (transition : MessagingTransition) (stream : StoredMessagingStream)
    (run : StoredMessagingRun) : StoredMessagingRun :=
  { run with
    status := if run.status = .cancelRequested then .cancelRequested else .running
    settlementStarted := false
    cancellable := transition.cancellable
    producerToken := some transition.transitionId
    producerFence := stream.nextProducerFence
    producerLeaseActive := true
    failureClass := ""
    failureMessage := ""
    localFailure := none }

/-- Stream metadata after the prepared run was handed to a new owner. -/
def recoveredStream (transition : MessagingTransition) (stream : StoredMessagingStream) :
    StoredMessagingStream :=
  { stream with
    nextProducerFence := stream.nextProducerFence + 1
    activeRunId := some transition.identity.runId
    retentionExpired := false
    controlSequence := stream.controlSequence + 1 }

/-- Hand the prepared run to a new owner under the next fence. -/
def preparedRecovery (transition : MessagingTransition) (stream : StoredMessagingStream)
    (cursor : Int) (channel : Option StoredMessagingChannel) (run : StoredMessagingRun) :
    MessagingStorageEffect where
  result := ownerResult transition stream cursor true run.checkpoint
    (recoveredRun transition stream run).status
  channel
  stream := some (recoveredStream transition stream)
  runs := [recoveredRun transition stream run]
  leaseAction := .acquire
  leaseRunId := some transition.identity.runId
  retentionAction := .clear

/-- The run record created for a new owner. -/
def createdRun (transition : MessagingTransition) (stream : StoredMessagingStream) :
    StoredMessagingRun where
  identity := transition.identity
  generation := stream.generation
  startSequence := stream.latestSequence
  endSequence := stream.latestSequence
  status := .running
  settlementStarted := false
  cancellable := transition.cancellable
  recoverable := transition.recoverable
  producerToken := some transition.transitionId
  producerFence := stream.nextProducerFence
  producerLeaseActive := true
  checkpoint := none
  failureClass := ""
  failureMessage := ""

/-- Stream metadata after a new run started. -/
def startedStream (transition : MessagingTransition) (stream : StoredMessagingStream)
    (superseded : Option StoredMessagingRun) : StoredMessagingStream :=
  { stream with
    nextProducerFence := stream.nextProducerFence + 1
    activeRunId := some transition.identity.runId
    retentionExpired := false
    controlSequence := stream.controlSequence + if superseded.isSome then 1 else 0 }

/-- Start a new run, superseding an active run whose lease expired. -/
def preparedStart (transition : MessagingTransition) (stream : StoredMessagingStream)
    (cursor : Int) (channel : Option StoredMessagingChannel)
    (superseded : Option StoredMessagingRun) : MessagingStorageEffect where
  result := ownerResult transition stream cursor false none .running
  channel
  stream := some (startedStream transition stream superseded)
  runs := (superseded.map fun run =>
      ownerLostRun run stream.latestSequence "producer lease expired").toList ++
    [createdRun transition stream]
  leaseAction := .acquire
  leaseRunId := some transition.identity.runId
  retentionAction := .clear

/-- Join, settle or recover an existing run. -/
def prepareTarget (transition : MessagingTransition) (stream : StoredMessagingStream)
    (cursor : Int) (channel : Option StoredMessagingChannel) (run : StoredMessagingRun) :
    Except MessagingError MessagingStorageEffect := do
  require (run.generation = stream.generation)
    (.backendProtocol "Messaging run generation conflicts with its stream")
  return if isFinalRunStatus run.status ∨ run.producerLeaseActive then
    preparedAttachment transition stream cursor channel
  else if run.status = .cancelRequested ∧ run.settlementStarted then
    preparedLoss transition stream cursor channel run
      "producer lease expired during cancellation settlement"
  else if run.recoverable ∧ transition.recoverable then
    preparedRecovery transition stream cursor channel run
  else
    preparedLoss transition stream cursor channel run "producer lease expired"

def resolvePrepareRun (transition : MessagingTransition) (state : MessagingStateSnapshot) :
    Except MessagingError MessagingStorageEffect := do
  let codecId ← requiredText "codec_id" transition.codecId
  let channel ← prepareChannel transition state codecId
  let stream ← prepareStream transition state
  let cursor ← prepareCursor transition stream
  match state.targetRun with
  | some run => prepareTarget transition stream cursor channel run
  | none =>
    match state.activeRun with
    | some active => do
      require (active.producerLeaseActive = false)
        (.runAlreadyActive active.identity transition.identity)
      return preparedStart transition stream cursor channel (some active)
    | none => return preparedStart transition stream cursor channel none

/-! ## Messages -/

/-- Admit an external publication to the referenced generation. -/
def publicationTarget (transition : MessagingTransition) (state : MessagingStateSnapshot) :
    Except MessagingError (StoredMessagingRun × StoredMessagingStream) := do
  let run ← requiredTargetRun transition state
  let stream ← requiredStream transition state
  require (transition.runReference.map MessagingRunReference.generation = some stream.generation)
    (.publicationRejected transition.identity "generation_changed")
  require (transition.checkpoint = none ∧ transition.closesPublication = false)
    (.valueError "External publication cannot change source recovery or lifecycle")
  return (run, stream)

/-- The run a message is appended to: the owner's run, or a publication's target. -/
def appendTarget (transition : MessagingTransition) (state : MessagingStateSnapshot) :
    Except MessagingError (StoredMessagingRun × StoredMessagingStream) :=
  if transition.kind = .publishMessage then
    publicationTarget transition state
  else do
    let (run, stream, _) ← ownedRun transition state
    return (run, stream)

/-- A message that passed the checks independent of the stored messages. -/
structure ValidMessage where
  codecId : String
  messageId : String
  payload : List UInt8
  signature : String

/-- Validate the message fields of an append against limits and channel codec. -/
def validateMessage (transition : MessagingTransition) (state : MessagingStateSnapshot) :
    Except MessagingError ValidMessage := do
  let codecId ← requiredText "codec_id" transition.codecId
  let messageId ← requiredText "message_id" transition.messageId
  match transition.payload with
  | none => .error (.typeError "payload must be bytes")
  | some payload => do
    require (∀ checkpoint ∈ transition.checkpoint, checkpoint.lastMessageId = some messageId)
      (.valueError "checkpoint.last_message_id must match message_id")
    let limits := transition.settings.limits
    require (payload.length ≤ limits.maxMessagePayloadBytes)
      (.quotaExceeded "message_payload_bytes" limits.maxMessagePayloadBytes)
    require (∀ checkpoint ∈ transition.checkpoint,
        checkpoint.position.length ≤ limits.maxCheckpointBytes)
      (.quotaExceeded "checkpoint_bytes" limits.maxCheckpointBytes)
    match state.channel with
    | none => .error (.backendProtocol "Messaging channel state is missing")
    | some channel => do
      require (channel.codecId = codecId) (.codecMismatch channel.codecId codecId)
      let signature ←
        messagingMessageSignature transition.identity codecId payload transition.checkpoint
      return { codecId, messageId, payload, signature }

/-- Whether the run still accepts a new message; only external publications are restricted. -/
def requirePublishable (transition : MessagingTransition) (run : StoredMessagingRun) :
    Except MessagingError Unit :=
  if transition.kind = .publishMessage then do
    require (run.status = .running ∧ run.settlementStarted = false ∧ run.publicationClosed = false)
      (.publicationRejected transition.identity "run_closed")
    require run.producerLeaseActive (.publicationRejected transition.identity "owner_lost")
    require run.publicationReady (.publicationRejected transition.identity "run_not_ready")
  else
    .ok ()

/-- Whether the thread has room for one more message. -/
def requireThreadRoom (transition : MessagingTransition) (stream : StoredMessagingStream)
    (message : ValidMessage) : Except MessagingError Unit := do
  let limits := transition.settings.limits
  require (stream.latestSequence < limits.maxThreadMessages)
    (.quotaExceeded "thread_messages" limits.maxThreadMessages)
  require (stream.payloadBytes + message.payload.length ≤ limits.maxThreadPayloadBytes)
    (.quotaExceeded "thread_payload_bytes" limits.maxThreadPayloadBytes)

/-- Evidence of a message committed at the next sequence. -/
def appendedEvidence (transition : MessagingTransition) (observedAt : Nat)
    (stream : StoredMessagingStream) (message : ValidMessage) : StoredMessageEvidence where
  envelope :=
    { channel := transition.channel
      identity := transition.identity
      seq := stream.latestSequence + 1
      messageId := message.messageId
      codec := message.codecId
      payload := message.payload
      createdAt := observedAt }
  signature := message.signature
  checkpoint := transition.checkpoint

/-- The run after one of its messages was committed. -/
def appendedRun (transition : MessagingTransition) (stream : StoredMessagingStream)
    (run : StoredMessagingRun) : StoredMessagingRun :=
  { run with
    endSequence := stream.latestSequence + 1
    publicationReady := run.publicationReady ||
      (decide (transition.kind ≠ .publishMessage) && transition.opensPublication)
    publicationClosed := run.publicationClosed || transition.closesPublication
    checkpoint := transition.checkpoint.or run.checkpoint }

/-- Stream metadata after a message was committed. -/
def appendedStream (stream : StoredMessagingStream) (message : ValidMessage) :
    StoredMessagingStream :=
  { stream with
    latestSequence := stream.latestSequence + 1
    payloadBytes := stream.payloadBytes + message.payload.length
    messageSequence := stream.latestSequence + 1 }

/-- Commit one new message. -/
def appendedEffect (transition : MessagingTransition) (observedAt : Nat)
    (run : StoredMessagingRun) (stream : StoredMessagingStream) (message : ValidMessage) :
    MessagingStorageEffect where
  result :=
    { kind := transition.kind
      envelope := some (appendedEvidence transition observedAt stream message).envelope
      runStatus := some run.status }
  stream := some (appendedStream stream message)
  runs := [appendedRun transition stream run]
  message := some (appendedEvidence transition observedAt stream message)
  leaseRunId := if transition.kind = .publishMessage then none else some transition.identity.runId

/-- Return the envelope committed by an earlier identical append. -/
def retriedEffect (transition : MessagingTransition) (run : StoredMessagingRun)
    (existing : StoredMessageEvidence) : MessagingStorageEffect where
  result :=
    { kind := transition.kind
      envelope := some existing.envelope
      runStatus := some run.status }

def resolveAppendMessage (transition : MessagingTransition) (state : MessagingStateSnapshot) :
    Except MessagingError MessagingStorageEffect := do
  let (run, stream) ← appendTarget transition state
  let message ← validateMessage transition state
  match state.matchingMessage with
  | some existing => do
    require (existing.signature = message.signature)
      (.messageIdConflict transition.identity message.messageId)
    return retriedEffect transition run existing
  | none => do
    -- Deduplicated retries return above, even after settlement.
    requirePublishable transition run
    requireThreadRoom transition stream message
    return appendedEffect transition state.observedAt run stream message

/-! ## Settlement and cancellation -/

/-- Claim the settlement of a run for its owner. -/
def settlingEffect (transition : MessagingTransition) (run : StoredMessagingRun) :
    MessagingStorageEffect where
  result :=
    { kind := transition.kind
      cancellationPrecededSettlement := some (decide (run.status = .cancelRequested))
      runStatus := some run.status }
  runs := [{ run with settlementStarted := true }]

def resolveBeginSettlement (transition : MessagingTransition) (state : MessagingStateSnapshot) :
    Except MessagingError MessagingStorageEffect := do
  let (run, _, _) ← ownedRun transition state
  require (run.settlementStarted = false ∧
      (run.status = .running ∨ run.status = .cancelRequested))
    (.backendOwnershipLost "Producer for run " transition.identity.runId
      " cannot begin settlement")
  return settlingEffect transition run

/-- Terminal status and failure of a finish; completion cannot drop an accepted cancellation. -/
def finishOutcome (run : StoredMessagingRun) (finalStatus : RunStatus)
    (failure : Option BaseException) : RunStatus × Option BaseException :=
  if run.status = .cancelRequested ∧ finalStatus = .completed then
    (.failed, some (runtimeFailure "producer completed without settling accepted cancellation"))
  else
    (finalStatus, failure)

/-- The run record after its producer finished. -/
def finishedRun (stream : StoredMessagingStream) (run : StoredMessagingRun)
    (outcome : RunStatus × Option BaseException) : StoredMessagingRun :=
  { run with
    endSequence := stream.latestSequence
    status := outcome.1
    settlementStarted := true
    producerToken := none
    producerLeaseActive := false
    failureClass := (failureEvidence outcome.2).1
    failureMessage := (failureEvidence outcome.2).2
    localFailure := outcome.2 }

/-- Active run identifier after one run ended. -/
def releasedActiveRun (stream : StoredMessagingStream) (runId : String) : Option String :=
  if stream.activeRunId = some runId then none else stream.activeRunId

def finishedEffect (transition : MessagingTransition) (stream : StoredMessagingStream)
    (run : StoredMessagingRun) (outcome : RunStatus × Option BaseException) :
    MessagingStorageEffect where
  result := { kind := transition.kind, runStatus := some outcome.1 }
  stream := some (releasedStream stream (releasedActiveRun stream transition.identity.runId))
  runs := [finishedRun stream run outcome]
  leaseAction := .release
  leaseRunId := some transition.identity.runId
  retentionAction := .start

def resolveFinishRun (transition : MessagingTransition) (state : MessagingStateSnapshot) :
    Except MessagingError MessagingStorageEffect := do
  let (run, stream, _) ← ownedRun transition state
  match transition.finalStatus with
  | none => .error (.typeError "final_status must be a terminal run status")
  | some finalStatus => do
    require (isFinalRunStatus finalStatus)
      (.typeError "final_status must be a terminal run status")
    return finishedEffect transition stream run
      (finishOutcome run finalStatus transition.failure)

/-- An effect that reports a run status and stores nothing. -/
def statusEffect (result : MessagingTransitionResult) : MessagingStorageEffect := { result }

def cancelledEffect (transition : MessagingTransition) (stream : StoredMessagingStream)
    (run : StoredMessagingRun) : MessagingStorageEffect where
  result :=
    { kind := transition.kind
      cancellationRequestedByTransition := some true
      runStatus := some .cancelRequested }
  stream := some { stream with controlSequence := stream.controlSequence + 1 }
  runs := [{ run with status := .cancelRequested }]

def resolveRequestCancellation (transition : MessagingTransition)
    (state : MessagingStateSnapshot) : Except MessagingError MessagingStorageEffect := do
  let run ← requiredTargetRun transition state
  let stream ← requiredStream transition state
  let unchanged := statusEffect
    { kind := transition.kind
      cancellationRequestedByTransition := some false
      runStatus := some run.status }
  if isFinalRunStatus run.status ∨ run.settlementStarted then
    return unchanged
  else do
    require run.cancellable (.cancellationUnsupported transition.identity)
    if run.status = .cancelRequested then
      return unchanged
    else do
      require (run.status = .running)
        (.backendProtocol "Messaging run has an invalid active cancellation status")
      return cancelledEffect transition stream run

/-! ## Producer ownership -/

/-- An ownership decision without a storage change. -/
def renewalDenied (transition : MessagingTransition) (status : Option RunStatus) :
    MessagingStorageEffect :=
  statusEffect
    { kind := transition.kind
      producerOwnershipConfirmed := some false
      runStatus := status }

def resolveRenewProducerOwnership (transition : MessagingTransition)
    (state : MessagingStateSnapshot) : Except MessagingError MessagingStorageEffect := do
  let reference ← requiredReference transition
  match state.targetRun with
  | none => do
    raiseReferenceTombstone transition state (some reference.generation)
    return renewalDenied transition none
  | some run =>
    return if referenceMatchesRun reference run = false then
      renewalDenied transition none
    else if run.producerLeaseActive = false ∨ isFinalRunStatus run.status then
      renewalDenied transition (some run.status)
    else
      { result :=
          { kind := transition.kind
            producerOwnershipConfirmed := some true
            runStatus := some run.status }
        leaseAction := .renew
        leaseRunId := some transition.identity.runId }

/-- Reject a reconciliation reference that names another run or generation. -/
def checkReconcileReference (transition : MessagingTransition) (state : MessagingStateSnapshot)
    (run : StoredMessagingRun) (stream : StoredMessagingStream) : Except MessagingError Unit :=
  match transition.runReference with
  | none => .ok ()
  | some reference => do
    require (reference.channel = transition.channel ∧ reference.identity = transition.identity)
      (.valueError "run_reference conflicts with the transition identity")
    if reference.generation = stream.generation ∧ reference.generation = run.generation then
      .ok ()
    else do
      raiseReferenceTombstone transition state (some reference.generation)
      .error (.backendProtocol
        "Messaging ownership snapshot does not match the requested generation")

/-- The run record after reconciliation found its lease expired. -/
def reconciledRun (stream : StoredMessagingStream) (run : StoredMessagingRun) :
    StoredMessagingRun :=
  ownerLostRun run stream.latestSequence
    (if run.status = .cancelRequested ∧ run.settlementStarted then
      "producer lease expired during cancellation settlement"
    else
      "producer lease expired")

def reconciledEffect (transition : MessagingTransition) (stream : StoredMessagingStream)
    (run : StoredMessagingRun) : MessagingStorageEffect where
  result := { kind := transition.kind, runStatus := some .ownerLost }
  stream := some (releasedStream stream (releasedActiveRun stream transition.identity.runId))
  runs := [reconciledRun stream run]
  leaseAction := .release
  leaseRunId := some transition.identity.runId
  retentionAction := .start

def resolveReconcileProducerOwnership (transition : MessagingTransition)
    (state : MessagingStateSnapshot) : Except MessagingError MessagingStorageEffect := do
  let run ← requiredTargetRun transition state
  let stream ← requiredStream transition state
  checkReconcileReference transition state run stream
  return if isFinalRunStatus run.status ∨ run.producerLeaseActive then
    statusEffect { kind := transition.kind, runStatus := some run.status }
  else
    reconciledEffect transition stream run

/-! ## Generation cleanup -/

/-- A cleanup decision without a storage change. -/
def cleanupDecision (transition : MessagingTransition) (generation : Option Nat)
    (reason : Option MessagingCleanupReason) (cleanupRequired : Bool) : MessagingStorageEffect :=
  statusEffect
    { kind := transition.kind
      cleanupGeneration := generation
      cleanupReason := reason
      cleanupRequired }

/-- The snapshot's record of the run that owns the stream. -/
def cleanupOwner (state : MessagingStateSnapshot) (activeRunId : String) :
    Option StoredMessagingRun :=
  match state.targetRun with
  | some run => if run.identity.runId = activeRunId then some run else state.activeRun
  | none => state.activeRun

/-- The expired owner that sealing a generation must fence, or the conflict with a live one. -/
def sealedOwner (transition : MessagingTransition) (state : MessagingStateSnapshot)
    (stream : StoredMessagingStream) : Except MessagingError (Option StoredMessagingRun) :=
  match stream.activeRunId with
  | none => .ok none
  | some activeRunId =>
    match cleanupOwner state activeRunId with
    | none =>
      .error (.streamDeleteConflict transition.channel transition.identity
        { transition.identity with runId := activeRunId })
    | some run => do
      require (run.producerLeaseActive = false)
        (.streamDeleteConflict transition.channel transition.identity run.identity)
      return some run

/-- Seal a generation for cleanup, fencing an expired owner. -/
def sealedEffect (transition : MessagingTransition) (stream : StoredMessagingStream)
    (reason : MessagingCleanupReason) (owner : Option StoredMessagingRun) :
    MessagingStorageEffect where
  result :=
    { kind := transition.kind
      cleanupGeneration := some stream.generation
      cleanupReason := some reason
      cleanupRequired := true }
  stream := some { releasedStream stream none with disposition := reason.sealing }
  runs := (owner.map fun run =>
    ownerLostRun run stream.latestSequence "producer lease expired").toList
  leaseAction := if owner.isSome then .release else .none
  leaseRunId := owner.map fun run => run.identity.runId
  retentionAction := .clear

def resolveBeginGenerationCleanup (transition : MessagingTransition)
    (state : MessagingStateSnapshot) : Except MessagingError MessagingStorageEffect :=
  match transition.cleanupReason with
  | none => .error (.typeError "cleanup_reason must be deleted or expired")
  | some reason =>
    match state.stream with
    | none => do
      require (state.tombstoneGeneration.isNone = state.tombstoneReason.isNone)
        (.backendProtocol "Messaging cleanup tombstone evidence is incomplete")
      return cleanupDecision transition state.tombstoneGeneration state.tombstoneReason false
    | some stream =>
      match stream.disposition with
      | .deleted => .ok (cleanupDecision transition (some stream.generation) (some .deleted) false)
      | .expired => .ok (cleanupDecision transition (some stream.generation) (some .expired) false)
      | .deleting => .ok (cleanupDecision transition (some stream.generation) (some .deleted) true)
      | .expiring => .ok (cleanupDecision transition (some stream.generation) (some .expired) true)
      | .active => do
        let owner ← sealedOwner transition state stream
        return if reason = .expired ∧ stream.retentionExpired = false then
          cleanupDecision transition none none false
        else
          sealedEffect transition stream reason owner

/-- Retire a sealed generation behind its tombstone. -/
def retiredEffect (transition : MessagingTransition) (stream : StoredMessagingStream)
    (generation : Nat) (reason : MessagingCleanupReason) : MessagingStorageEffect where
  result :=
    { kind := transition.kind
      cleanupGeneration := some generation
      cleanupReason := some reason }
  stream := some { releasedStream stream none with disposition := reason.retired }
  tombstoneReason := some reason

def resolveFinishGenerationCleanup (transition : MessagingTransition)
    (state : MessagingStateSnapshot) : Except MessagingError MessagingStorageEffect :=
  match transition.cleanupReason, transition.cleanupGeneration with
  | none, _ => .error (.typeError "cleanup_reason must be deleted or expired")
  | some _, none => .error (.typeError "cleanup_generation must be an integer")
  | some reason, some generation => do
    require (1 ≤ generation) (.valueError "cleanup_generation must be positive")
    match state.stream with
    | none =>
      if state.tombstoneGeneration = some generation ∧ state.tombstoneReason = some reason then
        return cleanupDecision transition (some generation) (some reason) false
      else if state.tombstoneGeneration = some generation then
        .error (.backendProtocol
          "Messaging generation was finalized for a different cleanup reason")
      else
        .error (.backendProtocol "Messaging generation cleanup state is missing")
    | some stream => do
      require (stream.generation = generation)
        (.backendProtocol
          "Messaging cleanup snapshot does not match the requested generation")
      if stream.disposition = reason.retired then
        return cleanupDecision transition (some generation) (some reason) false
      else do
        require (stream.disposition = reason.sealing)
          (.backendProtocol "Messaging generation is not sealed for the requested cleanup")
        return retiredEffect transition stream generation reason

/-! ## Dispatch -/

def validateTransitionIdentity (transition : MessagingTransition) : Except MessagingError Unit := do
  let _ ← requiredIdentifier "transition_id" transition.transitionId
  let _ ← requiredIdentifier "channel" transition.channel
  let _ ← requiredIdentity transition.identity
  return ()

/-- Resolve one transition against a consistent bounded snapshot. -/
def resolveMessagingTransition (transition : MessagingTransition)
    (state : MessagingStateSnapshot) : Except MessagingError MessagingStorageEffect := do
  validateTransitionIdentity transition
  match transition.kind with
  | .prepareRun => resolvePrepareRun transition state
  | .appendMessage | .publishMessage => resolveAppendMessage transition state
  | .beginSettlement => resolveBeginSettlement transition state
  | .finishRun => resolveFinishRun transition state
  | .requestCancellation => resolveRequestCancellation transition state
  | .renewProducerOwnership => resolveRenewProducerOwnership transition state
  | .reconcileProducerOwnership => resolveReconcileProducerOwnership transition state
  | .beginGenerationCleanup => resolveBeginGenerationCleanup transition state
  | .finishGenerationCleanup => resolveFinishGenerationCleanup transition state

end Tinkerfin.Messaging
