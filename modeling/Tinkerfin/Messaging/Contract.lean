import Tinkerfin.Lib.Bytes
import Tinkerfin.Lib.Sha256

/-!
# The Messaging storage contract

Records, transitions and effects exchanged between the Messaging framework and a storage backend.
A transition states one lifecycle intent, a snapshot is the bounded state it is resolved against,
and an effect lists the durable replacements a backend applies together with the result.  Payload
and checkpoint bytes are byte lists, sequences and generations are natural numbers, and clock
readings are natural numbers of the clock's own unit.
-/

namespace Tinkerfin.Messaging

/-! ## Identities -/

/-- A conversation inside one host namespace. -/
structure ThreadIdentity where
  «namespace» : String
  threadId : String
  deriving DecidableEq, Repr

/-- One semantic run of a namespaced conversation. -/
structure RunIdentity extends ThreadIdentity where
  runId : String
  deriving DecidableEq, Repr

/-- Storage key of the complete thread identity; its JSON text determines both components. -/
def threadKey (identity : RunIdentity) : ThreadIdentity := identity.toThreadIdentity

/-! ## Lifecycle enumerations -/

/-- Durable status of a run. -/
inductive RunStatus
  | running
  | cancelRequested
  | completed
  | cancelled
  | failed
  | ownerLost
  deriving DecidableEq, Repr

/-- Whether a status is an authoritative terminal state. -/
def isFinalRunStatus : RunStatus → Bool
  | .running | .cancelRequested => false
  | .completed | .cancelled | .failed | .ownerLost => true

/-- Whether a terminal status represents failed producer delivery. -/
def isFailedRunStatus : RunStatus → Bool
  | .failed | .ownerLost => true
  | .running | .cancelRequested | .completed | .cancelled => false

/-- Intent of one transition. -/
inductive MessagingTransitionKind
  | prepareRun
  | appendMessage
  | publishMessage
  | beginSettlement
  | finishRun
  | requestCancellation
  | renewProducerOwnership
  | reconcileProducerOwnership
  | beginGenerationCleanup
  | finishGenerationCleanup
  deriving DecidableEq, Repr

/-- Readable, sealed or retired state of one stream generation. -/
inductive MessagingStreamDisposition
  | active
  | deleting
  | deleted
  | expiring
  | expired
  deriving DecidableEq, Repr

/-- Why a generation is cleaned up. -/
inductive MessagingCleanupReason
  | deleted
  | expired
  deriving DecidableEq, Repr

/-- Disposition of a generation sealed for a cleanup reason. -/
def MessagingCleanupReason.sealing : MessagingCleanupReason → MessagingStreamDisposition
  | .deleted => .deleting
  | .expired => .expiring

/-- Disposition of a generation retired for a cleanup reason. -/
def MessagingCleanupReason.retired : MessagingCleanupReason → MessagingStreamDisposition
  | .deleted => .deleted
  | .expired => .expired

theorem MessagingCleanupReason.sealing_ne_active (reason : MessagingCleanupReason) :
    reason.sealing ≠ .active := by
  cases reason <;> decide

inductive MessagingLeaseAction
  | none
  | acquire
  | renew
  | release
  deriving DecidableEq, Repr

inductive MessagingRetentionAction
  | none
  | clear
  | start
  deriving DecidableEq, Repr

/-! ## Settings -/

theorem defaultLimits_positive : 0 < 16 * 1024 * 1024 ∧ 0 < 1024 * 1024 ∧ 0 < 100000 ∧
    0 < 1024 * 1024 * 1024 ∧ 0 < 1024 * 1024 * 1024 ∧ 0 < 100000 := by decide

theorem defaultLimits_holdMessage : 16 * 1024 * 1024 ≤ 1024 * 1024 * 1024 := by decide

/-- Capacity limits, positive and consistent with each other. -/
structure MessagingLimits where
  maxMessagePayloadBytes : Nat := 16 * 1024 * 1024
  maxCheckpointBytes : Nat := 1024 * 1024
  maxThreadMessages : Nat := 100000
  maxThreadPayloadBytes : Nat := 1024 * 1024 * 1024
  maxTotalBytes : Nat := 1024 * 1024 * 1024
  maxTotalRecords : Nat := 100000
  positive : 0 < maxMessagePayloadBytes ∧ 0 < maxCheckpointBytes ∧ 0 < maxThreadMessages ∧
    0 < maxThreadPayloadBytes ∧ 0 < maxTotalBytes ∧ 0 < maxTotalRecords := by
      first | exact defaultLimits_positive | decide
  threadHoldsMessage : maxMessagePayloadBytes ≤ maxThreadPayloadBytes := by
    first | exact defaultLimits_holdMessage | decide
  deriving DecidableEq

/-- How long a terminal stream stays replayable; `none` disables expiry. -/
structure MessagingRetentionPolicy where
  terminalTtl : Option Nat := none
  deriving DecidableEq, Repr

/-- Immutable behaviour shared by one backend deployment. -/
structure MessagingBackendSettings where
  limits : MessagingLimits := {}
  retentionPolicy : MessagingRetentionPolicy := {}
  /-- Producer ownership duration, `none` when ownership never expires on its own. -/
  producerLease : Option Nat := none
  deriving DecidableEq

/-! ## Messages -/

/-- Opaque source position committed together with a message. -/
structure RecoveryCheckpoint where
  position : List UInt8
  lastMessageId : Option String := none
  deriving DecidableEq, Repr

/-- Retained bytes of an optional checkpoint: its position and message identifier. -/
def checkpointBytes : Option RecoveryCheckpoint → Nat
  | none => 0
  | some checkpoint =>
    checkpoint.position.length + (Bytes.utf8 (checkpoint.lastMessageId.getD "")).length

/-- One payload committed to an ordered channel stream. -/
structure MessageEnvelope where
  channel : String
  identity : RunIdentity
  seq : Nat
  messageId : String
  codec : String
  payload : List UInt8
  createdAt : Nat
  deriving DecidableEq, Repr

/-- A committed envelope with its idempotency and checkpoint evidence. -/
structure StoredMessageEvidence where
  envelope : MessageEnvelope
  signature : String
  checkpoint : Option RecoveryCheckpoint
  deriving DecidableEq, Repr

/-- An exception value: the defining module, the qualified class name and the text. -/
structure BaseException where
  module : String
  qualname : String
  text : String
  deriving DecidableEq, Repr

/-- `RuntimeError(message)`. -/
def runtimeFailure (message : String) : BaseException := ⟨"builtins", "RuntimeError", message⟩

/-! ## Stored records -/

/-- One stream generation together with optional producer ownership. -/
structure MessagingRunReference where
  channel : String
  identity : RunIdentity
  generation : Nat
  producerToken : Option String := none
  producerFence : Option Nat := none
  deriving DecidableEq, Repr

/-- Durable configuration of one logical channel. -/
structure StoredMessagingChannel where
  channel : String
  codecId : String
  limits : MessagingLimits
  retentionPolicy : MessagingRetentionPolicy
  deriving DecidableEq

/-- Bounded metadata of one thread stream generation. -/
structure StoredMessagingStream where
  channel : String
  threadId : String
  generation : Nat
  disposition : MessagingStreamDisposition
  latestSequence : Nat
  payloadBytes : Nat
  nextProducerFence : Nat
  activeRunId : Option String
  retentionExpired : Bool
  messageSequence : Nat
  controlSequence : Nat
  deriving DecidableEq, Repr

/-- One durable semantic run. -/
structure StoredMessagingRun where
  identity : RunIdentity
  generation : Nat
  startSequence : Nat
  endSequence : Nat
  status : RunStatus
  settlementStarted : Bool
  cancellable : Bool
  recoverable : Bool
  producerToken : Option String
  producerFence : Nat
  producerLeaseActive : Bool
  checkpoint : Option RecoveryCheckpoint
  failureClass : String
  failureMessage : String
  localFailure : Option BaseException := none
  publicationClosed : Bool := false
  publicationReady : Bool := false
  deriving DecidableEq, Repr

/-- One consistent bounded view of the stored state. -/
structure MessagingStateSnapshot where
  observedAt : Nat
  channel : Option StoredMessagingChannel
  stream : Option StoredMessagingStream
  targetRun : Option StoredMessagingRun
  activeRun : Option StoredMessagingRun
  matchingMessage : Option StoredMessageEvidence
  tombstoneGeneration : Option Nat := none
  tombstoneReason : Option MessagingCleanupReason := none
  deriving DecidableEq

/-! ## Transitions and effects -/

/-- One framework-defined atomic state transition. -/
structure MessagingTransition where
  kind : MessagingTransitionKind
  transitionId : String
  channel : String
  identity : RunIdentity
  settings : MessagingBackendSettings := {}
  runReference : Option MessagingRunReference := none
  codecId : Option String := none
  afterSequence : Option Int := none
  cancellable : Bool := false
  recoverable : Bool := false
  messageId : Option String := none
  payload : Option (List UInt8) := none
  checkpoint : Option RecoveryCheckpoint := none
  closesPublication : Bool := false
  opensPublication : Bool := true
  finalStatus : Option RunStatus := none
  failure : Option BaseException := none
  cleanupGeneration : Option Nat := none
  cleanupReason : Option MessagingCleanupReason := none
  deriving DecidableEq

/-- Observable value of one committed transition. -/
structure MessagingTransitionResult where
  kind : MessagingTransitionKind
  runReference : Option MessagingRunReference := none
  afterSequence : Option Int := none
  isProducerOwner : Option Bool := none
  checkpoint : Option RecoveryCheckpoint := none
  recovered : Bool := false
  envelope : Option MessageEnvelope := none
  cancellationRequestedByTransition : Option Bool := none
  cancellationPrecededSettlement : Option Bool := none
  producerOwnershipConfirmed : Option Bool := none
  runStatus : Option RunStatus := none
  cleanupGeneration : Option Nat := none
  cleanupReason : Option MessagingCleanupReason := none
  cleanupRequired : Bool := false
  deriving DecidableEq, Repr

/-- Complete durable replacements of one resolved transition. -/
structure MessagingStorageEffect where
  result : MessagingTransitionResult
  channel : Option StoredMessagingChannel := none
  stream : Option StoredMessagingStream := none
  runs : List StoredMessagingRun := []
  message : Option StoredMessageEvidence := none
  leaseAction : MessagingLeaseAction := .none
  leaseRunId : Option String := none
  retentionAction : MessagingRetentionAction := .none
  tombstoneReason : Option MessagingCleanupReason := none
  deriving DecidableEq

/-! ## Failures -/

/-- Failures of validating, resolving or applying a transition or a read. -/
inductive MessagingError
  | typeError (message : String)
  | valueError (message : String)
  | overflowError (message : String)
  | runtimeError (message : String)
  | invalidCursor (after : Int) (latest : Nat)
  | codecMismatch (expected actual : String)
  | messageIdConflict (identity : RunIdentity) (messageId : String)
  | publicationRejected (identity : RunIdentity) (reason : String)
  | quotaExceeded (resource : String) (limit : Nat)
  | runAlreadyActive (activeIdentity requestedIdentity : RunIdentity)
  | runNotFound (identity : RunIdentity)
  | runProducerFailed (identity : RunIdentity) (cause : BaseException)
  | cancellationUnsupported (identity : RunIdentity)
  /-- The message quotes the run identifier between the two texts. -/
  | backendOwnershipLost (before runId after : String)
  | streamDeleted (channel : String) (identity : RunIdentity) (generation : Nat)
  | streamExpired (channel : String) (identity : RunIdentity) (generation : Nat)
  | streamDeleteConflict (channel : String) (identity activeIdentity : RunIdentity)
  | backendProtocol (message : String)
  deriving DecidableEq, Repr

/-- Raise a failure unless a condition holds. -/
def require (condition : Prop) [Decidable condition] (error : MessagingError) :
    Except MessagingError Unit :=
  if condition then .ok () else .error error

@[simp] theorem require_eq_ok {condition : Prop} [Decidable condition] {error : MessagingError}
    {result : Unit} : require condition error = .ok result ↔ condition := by
  unfold require
  split <;> simp_all

theorem bind_eq_ok {ε α β : Type} {first : Except ε α} {next : α → Except ε β} {value : β} :
    first >>= next = .ok value ↔ ∃ middle, first = .ok middle ∧ next middle = .ok value := by
  cases first <;> simp [bind, Except.bind]

/-! ## Identifier validation -/

/-- Validate non-blank text without surrounding whitespace. -/
def requiredCanonicalText (name value : String) : Except MessagingError String := do
  require (Bytes.strip value ≠ "" ∧ value = Bytes.strip value)
    (.valueError (name ++ " must be non-blank without surrounding whitespace"))
  return value

/-- Validate one bounded public identifier. -/
def requiredIdentifier (name value : String) : Except MessagingError String := do
  let _ ← requiredCanonicalText name value
  require (value.length ≤ 1024) (.valueError (name ++ " must contain at most 1024 characters"))
  return value

/-- Validate the thread and run identifiers of an identity. -/
def requiredIdentity (identity : RunIdentity) : Except MessagingError RunIdentity := do
  let _ ← requiredIdentifier "identity.thread_id" identity.threadId
  let _ ← requiredIdentifier "identity.run_id" identity.runId
  return identity

/-- Validate a transition field that must be present. -/
def requiredText (name : String) : Option String → Except MessagingError String
  | none => .error (.typeError (name ++ " must be a string"))
  | some value => requiredIdentifier name value

theorem requiredIdentifier_eq_ok {name value result : String}
    (valid : requiredIdentifier name value = .ok result) : result = value := by
  simp only [requiredIdentifier, bind_eq_ok, pure, Except.pure, Except.ok.injEq] at valid
  obtain ⟨_, _, _, _, rfl⟩ := valid
  rfl

theorem requiredText_eq_ok {name : String} {value : Option String} {result : String}
    (valid : requiredText name value = .ok result) : value = some result := by
  cases value with
  | none => simp [requiredText] at valid
  | some value => rw [requiredIdentifier_eq_ok valid]

end Tinkerfin.Messaging
