import Tinkerfin.Lib.Dict
import Tinkerfin.Messaging.Contract

/-!
# Appending a message in Redis

The Redis backend hashes a message on its own and commits it in one Lua script.  The state holds the
keys that the script touches: the control record, the metadata of channel, stream and run, the lease,
the capacity record, the message stream and one deduplication record for each message identifier.
Numbers that Redis keeps as text are numbers here.
-/

namespace Tinkerfin.Messaging.RedisBackend

open Bytes

/-! ## Signatures -/

/-- The byte string that the journal hashes for one message. -/
def messageSignatureBytes (identity : RunIdentity) (codec : String) (payload : List UInt8)
    (checkpoint : Option RecoveryCheckpoint) : List UInt8 :=
  let values := [utf8 identity.runId, utf8 codec, payload]
  let values := match checkpoint with
    | some checkpoint =>
      values ++ [checkpoint.position, utf8 (checkpoint.lastMessageId.getD "")]
    | none => values
  values.foldl (fun digest value => digest ++ bigEndian 8 value.length ++ value)
      (utf8 "tinkerfin-messaging:redis-message" ++ [0]) ++
    utf8 (if checkpoint.isSome then "1" else "0")

def messageSignature (identity : RunIdentity) (codec : String) (payload : List UInt8)
    (checkpoint : Option RecoveryCheckpoint) : Except MessagingError String := do
  require (∀ value ∈ [utf8 identity.runId, utf8 codec, payload], value.length < frameLimit)
    (.overflowError "int too big to convert")
  require (∀ position ∈ checkpoint, position.position.length < frameLimit ∧
      (utf8 (position.lastMessageId.getD "")).length < frameLimit)
    (.overflowError "int too big to convert")
  return Sha256.hexdigest (messageSignatureBytes identity codec payload checkpoint)

/-! ## Records -/

/-- One run with the optional producer ownership of a caller. -/
structure BackendRunHandle where
  channel : String
  identity : RunIdentity
  ownerToken : Option String
  fence : Option Nat
  generation : Option Nat := none

/-- The hash of one run. -/
structure RunRecord where
  status : RunStatus
  ownerToken : Option String
  fence : Option Nat
  settling : Bool
  publicationClosed : Bool
  publicationReady : Bool
  endSeq : Nat
  checkpoint : Option RecoveryCheckpoint

/-- The deduplication record of one message identifier. -/
structure DedupeRecord where
  signature : String
  checkpoint : Option RecoveryCheckpoint
  seq : Nat
  createdAt : Nat

/-- The capacity record shared by all streams of a scope. -/
structure CapacityRecord where
  maxTotalBytes : Nat
  maxTotalRecords : Nat
  totalBytes : Int
  totalRecords : Int

/-- What the script reads and writes. -/
structure AppendState where
  /-- Generation of the control record while its state is active. -/
  activeGeneration : Option Nat
  retainedBytes : Int
  retainedRecords : Int
  codec : Option String
  run : Option RunRecord
  /-- Owner token and fence that the lease holds until it expires. -/
  lease : Option (String × Nat)
  capacity : CapacityRecord
  seq : Nat
  payloadBytes : Nat
  messages : List MessageEnvelope
  /-- Keyed by the digest of the message identifier. -/
  dedupe : Dict String DedupeRecord

/-- Arguments of one append. -/
structure AppendRequest where
  messageId : String
  codec : String
  payload : List UInt8
  checkpoint : Option RecoveryCheckpoint := none
  external : Bool := false
  closesPublication : Bool := false
  opensPublication : Bool := true

/-- The reply of the script. -/
inductive AppendReply
  | streamDeleted
  | ownershipLost
  | codecMismatch (stored : String)
  | limitsMismatch
  | messageConflict
  | idempotent (seq createdAt : Nat)
  | publicationRejected (reason : String)
  | quotaExceeded (resource : String) (limit : Nat)
  | appended (seq createdAt : Nat)

/-! ## The script -/

/-- Whether the caller still owns the run. -/
def ownsRun (state : AppendState) (handle : BackendRunHandle) : Bool :=
  match handle.ownerToken, handle.fence, state.run with
  | some token, some fence, some run =>
    state.lease == some (token, fence) && run.ownerToken == some token &&
      run.fence == some fence && (run.status == .running || run.status == .cancelRequested)
  | _, _, _ => false

/-- Why an external message may not be published; the lease is observed, never extended. -/
def publicationRejection (state : AppendState) : Option String :=
  match state.run with
  | none => some "run_closed"
  | some run =>
    if run.status ≠ .running ∨ run.settling ∨ run.publicationClosed then
      some "run_closed"
    else
      match run.ownerToken, run.fence with
      | some token, some fence =>
        if state.lease ≠ some (token, fence) then some "owner_lost"
        else if run.publicationReady then none else some "run_not_ready"
      | _, _ => some "owner_lost"

/-- Bytes that a message adds to the retained total; a new checkpoint replaces the one before. -/
def additionalBytes (state : AppendState) (request : AppendRequest) : Int :=
  request.payload.length +
    match request.checkpoint with
    | none => 0
    | some checkpoint =>
      2 * (checkpointBytes (some checkpoint) : Int) -
        checkpointBytes (state.run.bind RunRecord.checkpoint)

/-- The run after its message was committed. -/
def RunRecord.appended (run : RunRecord) (request : AppendRequest) (seq : Nat) : RunRecord :=
  { run with
    endSeq := seq
    publicationClosed := run.publicationClosed || request.closesPublication
    publicationReady := run.publicationReady || (request.opensPublication && !request.external)
    checkpoint := request.checkpoint.or run.checkpoint }

/-- The state after one new message was committed. -/
def committed (state : AppendState) (handle : BackendRunHandle) (request : AppendRequest)
    (signature : String) (now : Nat) : AppendState :=
  let seq := state.seq + 1
  let bytes := additionalBytes state request
  { state with
    retainedBytes := state.retainedBytes + bytes
    retainedRecords := state.retainedRecords + 1
    run := state.run.map fun run => run.appended request seq
    capacity := { state.capacity with
      totalBytes := state.capacity.totalBytes + bytes
      totalRecords := state.capacity.totalRecords + 1 }
    seq
    payloadBytes := state.payloadBytes + request.payload.length
    messages := state.messages ++ [{
      channel := handle.channel
      identity := handle.identity
      seq
      messageId := request.messageId
      codec := request.codec
      payload := request.payload
      createdAt := now }]
    dedupe := state.dedupe.insert (Sha256.hexdigest (utf8 request.messageId))
      { signature, checkpoint := request.checkpoint, seq, createdAt := now } }

/-- Commit a message that no deduplication record names. -/
def appendFresh (limits : MessagingLimits) (state : AppendState) (handle : BackendRunHandle)
    (request : AppendRequest) (signature : String) (now : Nat) : AppendReply × AppendState :=
  match if request.external then publicationRejection state else none with
  | some reason => (.publicationRejected reason, state)
  | none =>
    if limits.maxThreadMessages ≤ state.seq then
      (.quotaExceeded "thread_messages" limits.maxThreadMessages, state)
    else if limits.maxThreadPayloadBytes < state.payloadBytes + request.payload.length then
      (.quotaExceeded "thread_payload_bytes" limits.maxThreadPayloadBytes, state)
    else if limits.maxTotalBytes < state.capacity.totalBytes + additionalBytes state request then
      (.quotaExceeded "total_bytes" limits.maxTotalBytes, state)
    else if limits.maxTotalRecords < state.capacity.totalRecords + 1 then
      (.quotaExceeded "total_records" limits.maxTotalRecords, state)
    else
      (.appended (state.seq + 1) now, committed state handle request signature now)

/-- One run of the script; everything up to the reply happens at once. -/
def appendScript (limits : MessagingLimits) (state : AppendState) (handle : BackendRunHandle)
    (generation : Nat) (request : AppendRequest) (signature : String) (now : Nat) :
    AppendReply × AppendState :=
  if state.activeGeneration ≠ some generation then
    (.streamDeleted, state)
  else if !request.external && !ownsRun state handle then
    (.ownershipLost, state)
  else if state.codec ≠ some request.codec then
    (.codecMismatch (state.codec.getD ""), state)
  else if state.capacity.maxTotalBytes ≠ limits.maxTotalBytes ∨
      state.capacity.maxTotalRecords ≠ limits.maxTotalRecords then
    (.limitsMismatch, state)
  else
    match state.dedupe.get? (Sha256.hexdigest (utf8 request.messageId)) with
    | some existing =>
      if existing.signature ≠ signature then
        (.messageConflict, state)
      else
        (.idempotent existing.seq existing.createdAt, state)
    | none => appendFresh limits state handle request signature now

/-! ## The append operation -/

/-- Reject caller-controlled values before committing an append. -/
def validateAppendInput (limits : MessagingLimits) (handle : BackendRunHandle)
    (request : AppendRequest) : Except MessagingError Unit := do
  let _ ← requiredIdentifier "channel" handle.channel
  let _ ← requiredIdentity handle.identity
  let _ ← requiredIdentifier "message_id" request.messageId
  let _ ← requiredIdentifier "codec" request.codec
  require (∀ checkpoint ∈ request.checkpoint, checkpoint.lastMessageId = some request.messageId)
    (.valueError "checkpoint.last_message_id must match message_id")
  require (request.payload.length ≤ limits.maxMessagePayloadBytes)
    (.quotaExceeded "message_payload_bytes" limits.maxMessagePayloadBytes)
  require (∀ checkpoint ∈ request.checkpoint,
      checkpoint.position.length ≤ limits.maxCheckpointBytes)
    (.quotaExceeded "checkpoint_bytes" limits.maxCheckpointBytes)

/-- The generation that an append is fenced with. -/
def fencedGeneration (handle : BackendRunHandle) (external : Bool) : Except MessagingError Nat :=
  let lost := .error (.backendOwnershipLost "Run " handle.identity.runId
    " has no complete producer ownership identity")
  match handle.generation with
  | none => lost
  | some generation =>
    if !external ∧ (handle.ownerToken.isNone ∨ handle.fence.isNone) then lost else .ok generation

/-- What the caller of an append gets for a reply. -/
def appendOutcome (handle : BackendRunHandle) (generation : Nat) (request : AppendRequest) :
    AppendReply → Except MessagingError MessageEnvelope
  | .streamDeleted => .error (.streamDeleted handle.channel handle.identity generation)
  | .publicationRejected reason => .error (.publicationRejected handle.identity reason)
  | .ownershipLost =>
    .error (.backendOwnershipLost "Producer for run " handle.identity.runId " lost its Redis fence")
  | .codecMismatch stored => .error (.codecMismatch stored request.codec)
  | .messageConflict => .error (.messageIdConflict handle.identity request.messageId)
  | .limitsMismatch =>
    .error (.backendProtocol "Redis scope was opened with different total capacity limits")
  | .quotaExceeded resource limit => .error (.quotaExceeded resource limit)
  | .appended seq createdAt | .idempotent seq createdAt =>
    .ok {
      channel := handle.channel
      identity := handle.identity
      seq
      messageId := request.messageId
      codec := request.codec
      payload := request.payload
      createdAt }

/-- Append one fenced, quota-checked, idempotent message and checkpoint. -/
def append (limits : MessagingLimits) (handle : BackendRunHandle) (request : AppendRequest)
    (now : Nat) (state : AppendState) : Except MessagingError MessageEnvelope × AppendState :=
  let checked : Except MessagingError (Nat × String) := do
    validateAppendInput limits handle request
    require (¬(request.external ∧ (request.checkpoint.isSome ∨ request.closesPublication)))
      (.valueError "External publication cannot change source recovery or lifecycle")
    let generation ← fencedGeneration handle request.external
    let signature ← messageSignature handle.identity request.codec request.payload
      request.checkpoint
    return (generation, signature)
  match checked with
  | .error error => (.error error, state)
  | .ok (generation, signature) =>
    let (reply, after) := appendScript limits state handle generation request signature now
    (appendOutcome handle generation request reply, after)

end Tinkerfin.Messaging.RedisBackend
