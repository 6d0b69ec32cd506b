import Tinkerfin.Lib.Json
import Tinkerfin.Messaging.Contract

/-!
# Semantic facts and committed events

The facts a Trace Ledger stores, one record for each kind, and the event that wraps a committed fact
with its sequence.  Times are microseconds since the epoch, in UTC.
-/

namespace Tinkerfin.Tracing

open Messaging (RunIdentity ThreadIdentity)

/-- One thread generation. -/
structure TraceThreadKey extends ThreadIdentity where
  generation : String
  deriving DecidableEq, Repr

/-- A captured payload; only an inline one has a value and only an omitted one has a reason. -/
inductive CapturedValue
  | inline (safeSizeBytes : Nat) (value : Json)
  | omitted (safeSizeBytes : Nat) (reason : String)

inductive RunInputKind
  | ordinary | branch | resume | abandon
  deriving DecidableEq, Repr

inductive RunTerminalOutcome
  | succeeded | interrupted | failed | cancelled | abandoned
  deriving DecidableEq, Repr

/-- What every fact carries. -/
structure TraceFactBase where
  occurredAt : Nat
  monotonicNs : Nat := 0
  sourceObservationId : String := "observation"
  identity : RunIdentity
  graphNamespace : List String := []
  inSubagentScope : Bool := false

structure TurnFact extends TraceFactBase where
  turnId : String
  userMessageId : Option String := none
  parentRunId : Option String := none

inductive RunPhase
  | started | input | resumed | resumeCheckpointed | observerFailed | terminal | closed
  deriving DecidableEq, Repr

structure RunFact extends TraceFactBase where
  phase : RunPhase
  inputKind : Option RunInputKind := none
  parentRunId : Option String := none
  outcome : Option RunTerminalOutcome := none
  code : Option String := none
  errorType : Option String := none
  observerName : Option String := none
  interruptIds : List String := []
  input : Option CapturedValue := none
  config : Option CapturedValue := none
  failureOrigin : Bool := false

inductive MessagePhase
  | started | content | completed | reconciled | removed | cancelled | interrupted | abandoned
  deriving DecidableEq, Repr

inductive MessageRole
  | user | assistant | tool | system | other
  deriving DecidableEq, Repr

structure MessageFact extends TraceFactBase where
  phase : MessagePhase
  messageId : String
  sourceMessageId : Option String := none
  role : MessageRole
  content : Option CapturedValue := none
  fingerprint : Option String := none
  fromStateSnapshot : Bool := false
  name : Option String := none
  toolCallId : Option String := none

inductive ReasoningPhase
  | content | reconciled | completed
  deriving DecidableEq, Repr

structure ReasoningFact extends TraceFactBase where
  phase : ReasoningPhase
  reasoningId : String
  messageId : String
  sourceMessageId : String
  extractor : String
  content : Option CapturedValue := none

inductive ToolPhase
  | started | arguments | completed | result | cancelled | abandoned
  deriving DecidableEq, Repr

inductive ToolResultStatus
  | success | error
  deriving DecidableEq, Repr

structure ToolFact extends TraceFactBase where
  phase : ToolPhase
  toolCallId : String
  sourceToolCallId : String
  parentCallId : Option String := none
  toolName : String
  content : Option CapturedValue := none
  resultStatus : Option ToolResultStatus := none
  failureOrigin : Bool := false

structure StateRevisionFact extends TraceFactBase where
  revisionId : String
  changes : CapturedValue
  removedKeys : List String := []

inductive InteractionPhase
  | opened | resolved
  deriving DecidableEq, Repr

inductive InteractionStatus
  | pending | resolved | cancelled
  deriving DecidableEq, Repr

structure InteractionFact extends TraceFactBase where
  phase : InteractionPhase
  interactionId : String
  sourceInteractionId : String
  interactionKind : String
  toolCallIds : List String := []
  status : InteractionStatus
  payload : Option CapturedValue := none

inductive SubagentPhase
  | started | updated | completed
  deriving DecidableEq, Repr

inductive SubagentStatus
  | running | waiting | succeeded | failed | cancelled | abandoned
  deriving DecidableEq, Repr

structure SubagentFact extends TraceFactBase where
  phase : SubagentPhase
  subagentId : String
  agentName : Option String := none
  parentToolCallId : Option String := none
  parentExecutionId : Option String := none
  modelCallId : Option String := none
  input : Option CapturedValue := none
  status : SubagentStatus

structure PlanRevisionFact extends TraceFactBase where
  revisionId : String
  revision : Option Nat := none
  status : Option String := none
  plan : CapturedValue

inductive NativeExtraMode
  | updates | checkpoints | debug | custom
  deriving DecidableEq, Repr

structure NativeExtraFact extends TraceFactBase where
  mode : NativeExtraMode
  dataType : String
  topLevelKeys : List String := []

inductive ModelCallPhase
  | started | firstOutput | completed | failed | cancelled | interrupted | abandoned
  deriving DecidableEq, Repr

structure ModelCallFact extends TraceFactBase where
  phase : ModelCallPhase
  callId : String
  parentCallId : Option String := none
  agentName : Option String := none
  provider : Option String := none
  model : Option String := none
  contextStartedAt : Option Nat := none
  request : Option CapturedValue := none
  usage : Option CapturedValue := none
  responseMetadata : Option CapturedValue := none
  systemMessagePositions : List Nat := []
  outputMessageIds : List String := []
  toolCallIds : List String := []
  errorType : Option String := none
  errorMessage : Option CapturedValue := none
  failureOrigin : Bool := false

/-- The phases of a Tool execution and of a context contribution. -/
inductive ExecutionPhase
  | started | completed | failed | cancelled | interrupted | abandoned
  deriving DecidableEq, Repr

structure ToolExecutionFact extends TraceFactBase where
  phase : ExecutionPhase
  executionId : String
  parentCallId : Option String := none
  agentName : Option String := none
  sourceToolCallId : Option String := none
  toolName : String
  input : Option CapturedValue := none
  output : Option CapturedValue := none
  errorType : Option String := none
  errorMessage : Option CapturedValue := none
  failureOrigin : Bool := false

inductive ContextKind
  | memory | guardrail | retrieval | custom
  deriving DecidableEq, Repr

structure ContextContributionFact extends TraceFactBase where
  phase : ExecutionPhase
  contributionId : String
  parentCallId : Option String := none
  contextKind : ContextKind
  name : String
  input : Option CapturedValue := none
  output : Option CapturedValue := none
  errorType : Option String := none
  failureOrigin : Bool := false

inductive TraceSemanticFact
  | turn (fact : TurnFact)
  | run (fact : RunFact)
  | message (fact : MessageFact)
  | reasoning (fact : ReasoningFact)
  | tool (fact : ToolFact)
  | stateRevision (fact : StateRevisionFact)
  | interaction (fact : InteractionFact)
  | subagent (fact : SubagentFact)
  | planRevision (fact : PlanRevisionFact)
  | nativeExtra (fact : NativeExtraFact)
  | callTracking (fact : TraceFactBase)
  | modelCall (fact : ModelCallFact)
  | toolExecution (fact : ToolExecutionFact)
  | contextContribution (fact : ContextContributionFact)

namespace TraceSemanticFact

/-- The part that every fact carries. -/
def base : TraceSemanticFact → TraceFactBase
  | .turn fact => fact.toTraceFactBase
  | .run fact => fact.toTraceFactBase
  | .message fact => fact.toTraceFactBase
  | .reasoning fact => fact.toTraceFactBase
  | .tool fact => fact.toTraceFactBase
  | .stateRevision fact => fact.toTraceFactBase
  | .interaction fact => fact.toTraceFactBase
  | .subagent fact => fact.toTraceFactBase
  | .planRevision fact => fact.toTraceFactBase
  | .nativeExtra fact => fact.toTraceFactBase
  | .callTracking fact => fact
  | .modelCall fact => fact.toTraceFactBase
  | .toolExecution fact => fact.toTraceFactBase
  | .contextContribution fact => fact.toTraceFactBase

/-- The discriminator of the fact. -/
def kind : TraceSemanticFact → String
  | .turn _ => "turn.started"
  | .run _ => "run"
  | .message _ => "message"
  | .reasoning _ => "reasoning"
  | .tool _ => "tool"
  | .stateRevision _ => "state.revision"
  | .interaction _ => "interaction"
  | .subagent _ => "subagent"
  | .planRevision _ => "plan.revision"
  | .nativeExtra _ => "native.extra"
  | .callTracking _ => "call.tracking"
  | .modelCall _ => "model.call"
  | .toolExecution _ => "tool.execution"
  | .contextContribution _ => "context.contribution"

def identity (fact : TraceSemanticFact) : RunIdentity := fact.base.identity

def occurredAt (fact : TraceSemanticFact) : Nat := fact.base.occurredAt

/-- The lifecycle phase of a Run fact. -/
def runPhase? : TraceSemanticFact → Option RunPhase
  | .run fact => some fact.phase
  | _ => none

end TraceSemanticFact

/-- One committed fact of a generation. -/
structure TraceEvent where
  eventId : String
  traceSeq : Int
  generation : String
  fact : TraceSemanticFact
  persistedBytes : Int

/-- Failures of tracing operations. -/
inductive TracingError
  | threadNotFound (message threadId : String)
  | runNotFound (message headRunId : String)
  | ambiguousHead (message : String) (headRunIds : List String)
  | runConflict (message : String) (activeRunCount : Option Nat)
  | corruption (message : String)
  | storeProtocol (message : String)
  | quotaExceeded (message resource : String)
  | projectionCheckpointConflict (message projection : String) (currentAsOfSeq : Option Int)
  | invalidValue (message : String)
  | overflow
  deriving DecidableEq, Repr

/-- Raise an error when a condition holds. -/
def reject (condition : Prop) [Decidable condition] (error : TracingError) :
    Except TracingError Unit :=
  if condition then .error error else .ok ()

@[simp] theorem reject_eq_ok {condition : Prop} [Decidable condition] {error : TracingError}
    {result : Unit} : reject condition error = .ok result ↔ ¬condition := by
  unfold reject
  split <;> simp_all

@[simp] theorem reject_eq_error {condition : Prop} [Decidable condition]
    {error raised : TracingError} :
    reject condition error = .error raised ↔ condition ∧ error = raised := by
  unfold reject
  split <;> simp_all

theorem bind_eq_error {α β : Type} {first : Except TracingError α}
    {next : α → Except TracingError β} {error : TracingError} :
    first >>= next = .error error ↔
      first = .error error ∨ ∃ middle, first = .ok middle ∧ next middle = .error error := by
  cases first <;> simp [bind, Except.bind]

end Tinkerfin.Tracing
