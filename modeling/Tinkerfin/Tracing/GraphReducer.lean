import Tinkerfin.Lib.Dict
import Tinkerfin.Lib.Bytes
import Tinkerfin.Tracing.Facts

/-!
# Reduction of committed facts to graph revisions

Each fact proposes partial updates of graph nodes.  One batch of facts is coalesced to one update of
each node and Run, and an update applied to the stored revisions creates, changes or removes one of
them.  Text identities are never empty and sequences are positive, so the source's `or` between two
of them is `<|>` here.
-/

namespace Tinkerfin.Tracing

inductive TraceGraphNodeKind
  | humanMessage | assistantMessage | context | model | tool | subagent | memory | guardrail
  | retrieval | custom | plan | interaction
  deriving DecidableEq, Repr

inductive TraceGraphNodeStatus
  | running | waiting | succeeded | failed | cancelled | abandoned | unknown
  deriving DecidableEq, Repr

inductive TraceGraphLinkIssue
  | missingSubagent | missingModelCall | missingToolProposal
  deriving DecidableEq, Repr

def maxSubagentScopeDepth : Nat := 64

/-- The text of a node kind. -/
def TraceGraphNodeKind.value : TraceGraphNodeKind → String
  | .humanMessage => "human_message"
  | .assistantMessage => "assistant_message"
  | .context => "context"
  | .model => "model"
  | .tool => "tool"
  | .subagent => "subagent"
  | .memory => "memory"
  | .guardrail => "guardrail"
  | .retrieval => "retrieval"
  | .custom => "custom"
  | .plan => "plan"
  | .interaction => "interaction"

/-- One partial update of a node in one Run; `modelCallId` and `modelCallSeq` come together. -/
structure TraceGraphNodeMutation where
  nodeId : String
  updatedSeq : Int
  runId : String
  remove : Bool := false
  kind : Option TraceGraphNodeKind := none
  status : Option TraceGraphNodeStatus := none
  name : Option String := none
  parentSubagentId : Option String := none
  modelCallId : Option String := none
  modelCallSeq : Option Int := none
  graphNamespace : Option (List String) := none
  agentName : Option String := none
  provider : Option String := none
  model : Option String := none
  startedAt : Option Nat := none
  firstOutputAt : Option Nat := none
  completedAt : Option Nat := none
  startedSeq : Option Int := none
  requestSeq : Option Int := none
  resultSeq : Option Int := none
  failureSeq : Option Int := none
  linkIssue : Option TraceGraphLinkIssue := none
  deriving DecidableEq

/-- One payload-free event revision. -/
structure ReducedTraceGraphNode where
  nodeId : String
  parentSubagentId : Option String
  modelCallId : Option String
  modelCallSeq : Option Int
  kind : TraceGraphNodeKind
  status : TraceGraphNodeStatus
  name : String
  runId : String
  graphNamespace : List String
  agentName : Option String
  provider : Option String
  model : Option String
  startedAt : Nat
  firstOutputAt : Option Nat
  completedAt : Option Nat
  startedSeq : Int
  updatedSeq : Int
  requestSeq : Option Int
  resultSeq : Option Int
  failureSeq : Option Int
  linkIssue : Option TraceGraphLinkIssue
  deriving DecidableEq

/-- A node revision, or the tombstone of a removed one. -/
inductive ReducedTraceGraphRevision
  | node (row : ReducedTraceGraphNode)
  | tombstone (nodeId runId : String) (updatedSeq : Int)
  deriving DecidableEq

/-- Stored revisions by node and Run. -/
abbrev GraphRevisions := Dict (String × String) ReducedTraceGraphRevision

/-! ## Identities and statuses -/

/-- The identity of a source value in a graph scope. -/
def scopeId (kind : String) («namespace» : List String) (sourceId : String) : String :=
  let encoded := Bytes.utf8 (Json.dumps (.array («namespace».map .string)))
  let scope := String.ofList ((Sha256.hexdigest encoded).toList.take 24)
  kind ++ ":" ++ scope ++ ":" ++ sourceId

def toolNode (graphNamespace : List String) (sourceToolCallId : String) : String :=
  scopeId "tool" graphNamespace sourceToolCallId

def subagentOwner (graphNamespace : List String) : Option String :=
  graphNamespace.getLast?.map fun last => scopeId "subagent" graphNamespace last

def outerSubagentOwner (graphNamespace : List String) : Option String :=
  subagentOwner graphNamespace.dropLast

def factSubagentOwner (fact : TraceFactBase) : Option String :=
  if fact.inSubagentScope then subagentOwner fact.graphNamespace else none

def subagentInputNode (fact : SubagentFact) : String :=
  scopeId "subagent-input" fact.graphNamespace fact.subagentId

/-- A missing-link marker is dropped once its relationship is there. -/
def resolveGraphLinkIssue (parentSubagentId modelCallId : Option String)
    (linkIssue : Option TraceGraphLinkIssue) : Option TraceGraphLinkIssue :=
  if parentSubagentId.isSome ∧ linkIssue = some .missingSubagent then none
  else if modelCallId.isSome ∧ linkIssue = some .missingModelCall then none
  else linkIssue

/-- The kind of a node never changes. -/
def resolveGraphNodeKind (current incoming : Option TraceGraphNodeKind) :
    Except TracingError (Option TraceGraphNodeKind) :=
  match current, incoming with
  | none, incoming => .ok incoming
  | some current, none => .ok (some current)
  | some current, some incoming =>
    if incoming = current then .ok (some current)
    else
      .error (.storeProtocol
        ("Trace Graph node kind changed from " ++ current.value ++ " to " ++ incoming.value))

/-- The status of a Subagent that is no longer running. -/
def subagentStatus : SubagentStatus → Except TracingError TraceGraphNodeStatus
  | .succeeded => .ok .succeeded
  | .failed => .ok .failed
  | .cancelled => .ok .cancelled
  | .abandoned => .ok .abandoned
  | .waiting => .ok .waiting
  | .running => .error (.storeProtocol "Subagent status is not projectable")

/-- The status that a phase of an execution proves. -/
def ExecutionPhase.phaseStatus : ExecutionPhase → TraceGraphNodeStatus
  | .completed => .succeeded
  | .failed => .failed
  | .cancelled => .cancelled
  | .interrupted => .waiting
  | .abandoned => .abandoned
  | .started => .unknown

/-- The status that a phase of a Model call proves. -/
def ModelCallPhase.phaseStatus : ModelCallPhase → TraceGraphNodeStatus
  | .completed => .succeeded
  | .failed => .failed
  | .cancelled => .cancelled
  | .interrupted => .waiting
  | .abandoned => .abandoned
  | .started | .firstOutput => .unknown

/-- The status that a phase of a message proves. -/
def MessagePhase.phaseStatus : MessagePhase → TraceGraphNodeStatus
  | .completed => .succeeded
  | .cancelled => .cancelled
  | .interrupted => .waiting
  | .abandoned => .abandoned
  | .started | .content | .reconciled | .removed => .unknown

/-- The status that a phase of a Tool proposal proves. -/
def ToolPhase.phaseStatus : ToolPhase → TraceGraphNodeStatus
  | .completed => .succeeded
  | .cancelled => .cancelled
  | .abandoned => .abandoned
  | .started | .arguments | .result => .unknown

/-- Whether a node with the status is still open. -/
def TraceGraphNodeStatus.Open (status : TraceGraphNodeStatus) : Prop :=
  status = .running ∨ status = .waiting

instance (status : TraceGraphNodeStatus) : Decidable status.Open :=
  inferInstanceAs (Decidable (_ ∨ _))

def terminalTime (status : TraceGraphNodeStatus) (occurredAt : Nat) : Option Nat :=
  if status.Open then none else some occurredAt

/-! ## Mutations of one fact -/

section

variable (event : TraceEvent)

def turnMutations (fact : TurnFact) : List TraceGraphNodeMutation :=
  [{ nodeId := scopeId "message" [] (fact.userMessageId.getD fact.turnId)
     updatedSeq := event.traceSeq
     kind := some .humanMessage
     status := some .succeeded
     name := some "HumanMessage"
     runId := fact.identity.runId
     graphNamespace := some []
     startedAt := some fact.occurredAt
     completedAt := some fact.occurredAt
     startedSeq := some event.traceSeq }]

def messageMutations (fact : MessageFact) : List TraceGraphNodeMutation :=
  let resultSeq := if fact.content.isSome then some event.traceSeq else none
  if fact.phase = .removed then
    [{ nodeId := fact.messageId
       updatedSeq := event.traceSeq
       runId := fact.identity.runId
       remove := true }]
  else
    match fact.role with
    | .tool | .other | .system => []
    | .user =>
      if fact.graphNamespace ≠ [] ∨ fact.phase = .content then
        []
      else
        [{ nodeId := fact.messageId
           updatedSeq := event.traceSeq
           runId := fact.identity.runId
           resultSeq }]
    | .assistant =>
      if fact.phase = .content then
        []
      else
        let status : TraceGraphNodeStatus :=
          match fact.phase with
          | .started => .running
          | .cancelled | .interrupted | .abandoned => fact.phase.phaseStatus
          | _ => .succeeded
        [{ nodeId := fact.messageId
           updatedSeq := event.traceSeq
           kind := some .assistantMessage
           status := some status
           name := some "AssistantMessage"
           runId := fact.identity.runId
           parentSubagentId := factSubagentOwner fact.toTraceFactBase
           graphNamespace := some fact.graphNamespace
           startedAt := some fact.occurredAt
           completedAt := terminalTime status fact.occurredAt
           startedSeq := some event.traceSeq
           resultSeq
           linkIssue := some .missingModelCall }]

/-- The Assistant message that a Model call put out. -/
def outputMutation (fact : ModelCallFact) (status : TraceGraphNodeStatus)
    (sourceMessageId : String) : TraceGraphNodeMutation where
  nodeId := scopeId "message" fact.graphNamespace sourceMessageId
  updatedSeq := event.traceSeq
  kind := some .assistantMessage
  status := some status
  name := some "AssistantMessage"
  runId := fact.identity.runId
  parentSubagentId := factSubagentOwner fact.toTraceFactBase
  modelCallId := some fact.callId
  modelCallSeq := some event.traceSeq
  graphNamespace := some fact.graphNamespace
  agentName := fact.agentName
  startedAt := some fact.occurredAt
  completedAt := terminalTime status fact.occurredAt
  startedSeq := some event.traceSeq
  requestSeq := if status = .succeeded then some event.traceSeq else none

def modelCallMutations (fact : ModelCallFact) :
    Except TracingError (List TraceGraphNodeMutation) :=
  match fact.phase with
  | .started =>
    match fact.contextStartedAt with
    | none => .error (.storeProtocol "Model call context start is unavailable")
    | some contextStartedAt => .ok
        [{ nodeId := scopeId "context" fact.graphNamespace fact.callId
           updatedSeq := event.traceSeq
           kind := some .context
           status := some .succeeded
           name := some "Context"
           runId := fact.identity.runId
           parentSubagentId := factSubagentOwner fact.toTraceFactBase
           graphNamespace := some fact.graphNamespace
           agentName := fact.agentName
           provider := fact.provider
           model := fact.model
           startedAt := some contextStartedAt
           completedAt := some fact.occurredAt
           startedSeq := some event.traceSeq
           requestSeq := some event.traceSeq },
         { nodeId := fact.callId
           updatedSeq := event.traceSeq
           kind := some .model
           status := some .running
           name := some (fact.model.getD "Model")
           runId := fact.identity.runId
           parentSubagentId := factSubagentOwner fact.toTraceFactBase
           graphNamespace := some fact.graphNamespace
           agentName := fact.agentName
           provider := fact.provider
           model := fact.model
           startedAt := some fact.occurredAt
           startedSeq := some event.traceSeq
           requestSeq := some event.traceSeq }]
  | .firstOutput => .ok <|
      { nodeId := fact.callId
        updatedSeq := event.traceSeq
        runId := fact.identity.runId
        firstOutputAt := some fact.occurredAt } ::
      fact.outputMessageIds.map (outputMutation event fact .running)
  | _ =>
    let status := fact.phase.phaseStatus
    let settled : TraceGraphNodeMutation :=
      { nodeId := fact.callId
        updatedSeq := event.traceSeq
        runId := fact.identity.runId
        status := some status
        completedAt := terminalTime status fact.occurredAt
        resultSeq := some event.traceSeq
        failureSeq :=
          if fact.phase = .failed ∧ fact.failureOrigin then some event.traceSeq else none }
    if fact.phase = .completed then
      .ok (settled :: fact.outputMessageIds.map (outputMutation event fact .succeeded) ++
        fact.toolCallIds.map fun sourceToolCallId =>
          { nodeId := toolNode fact.graphNamespace sourceToolCallId
            updatedSeq := event.traceSeq
            runId := fact.identity.runId
            modelCallId := some fact.callId
            modelCallSeq := some event.traceSeq })
    else
      .ok [settled]

/-- What every Tool fact says of its node. -/
def toolMutation (fact : ToolFact) (status : TraceGraphNodeStatus) : TraceGraphNodeMutation where
  nodeId := toolNode fact.graphNamespace fact.sourceToolCallId
  updatedSeq := event.traceSeq
  kind := some .tool
  status := some status
  name := some fact.toolName
  runId := fact.identity.runId
  parentSubagentId := factSubagentOwner fact.toTraceFactBase
  modelCallId := fact.parentCallId
  modelCallSeq := if fact.parentCallId.isSome then some event.traceSeq else none
  graphNamespace := some fact.graphNamespace
  startedAt := some fact.occurredAt
  completedAt := terminalTime status fact.occurredAt
  startedSeq := some event.traceSeq

def toolMutations (fact : ToolFact) : List TraceGraphNodeMutation :=
  if fact.toolName = "task" then
    []
  else
    match fact.phase with
    | .started | .arguments =>
      [{ toolMutation event fact .waiting with
         requestSeq :=
           if fact.phase = .arguments ∧ fact.content.isSome then some event.traceSeq else none
         linkIssue := if fact.parentCallId.isSome then none else some .missingModelCall }]
    | .result =>
      let status := if fact.resultStatus = some .success then .succeeded else .failed
      [{ toolMutation event fact status with
         resultSeq := some event.traceSeq
         failureSeq :=
           if fact.resultStatus = some .error ∧ fact.failureOrigin then some event.traceSeq
           else none }]
    | .cancelled | .abandoned =>
      [{ toolMutation event fact fact.phase.phaseStatus with
         completedAt := some fact.occurredAt }]
    | .completed => []

def toolExecutionMutations (fact : ToolExecutionFact) : List TraceGraphNodeMutation :=
  if fact.toolName = "task" then
    []
  else
    let nodeId := (fact.sourceToolCallId.map (toolNode fact.graphNamespace)).getD fact.executionId
    if fact.phase = .started then
      [{ nodeId
         updatedSeq := event.traceSeq
         kind := some .tool
         status := some .running
         name := some fact.toolName
         runId := fact.identity.runId
         parentSubagentId := factSubagentOwner fact.toTraceFactBase
         modelCallId := fact.parentCallId
         modelCallSeq := if fact.parentCallId.isSome then some event.traceSeq else none
         graphNamespace := some fact.graphNamespace
         agentName := fact.agentName
         startedAt := some fact.occurredAt
         startedSeq := some event.traceSeq
         requestSeq := some event.traceSeq
         linkIssue :=
           if fact.sourceToolCallId.isNone then some .missingToolProposal
           else if fact.parentCallId.isNone then some .missingModelCall
           else none }]
    else
      [{ nodeId
         updatedSeq := event.traceSeq
         runId := fact.identity.runId
         status := some fact.phase.phaseStatus
         completedAt := terminalTime fact.phase.phaseStatus fact.occurredAt
         resultSeq := some event.traceSeq
         failureSeq :=
           if fact.phase = .failed ∧ fact.failureOrigin then some event.traceSeq else none }]

def subagentMutations (fact : SubagentFact) : Except TracingError (List TraceGraphNodeMutation) :=
  let parentSubagentId := outerSubagentOwner fact.graphNamespace
  if fact.phase = .started then
    .ok <|
      { nodeId := fact.subagentId
        updatedSeq := event.traceSeq
        kind := some .subagent
        status := some .running
        name := some (fact.agentName.getD "Subagent")
        runId := fact.identity.runId
        parentSubagentId
        modelCallId := fact.modelCallId
        modelCallSeq := if fact.modelCallId.isSome then some event.traceSeq else none
        graphNamespace := some fact.graphNamespace
        agentName := fact.agentName
        startedAt := some fact.occurredAt
        startedSeq := some event.traceSeq
        requestSeq := some event.traceSeq
        linkIssue :=
          if fact.parentToolCallId.isNone then some .missingToolProposal
          else if fact.modelCallId.isNone then some .missingModelCall
          else none } ::
      if fact.input.isSome then
        [{ nodeId := subagentInputNode fact
           updatedSeq := event.traceSeq
           kind := some .humanMessage
           status := some .succeeded
           name := some "HumanMessage"
           runId := fact.identity.runId
           parentSubagentId := some fact.subagentId
           graphNamespace := some fact.graphNamespace
           agentName := fact.agentName
           startedAt := some fact.occurredAt
           completedAt := some fact.occurredAt
           startedSeq := some event.traceSeq
           resultSeq := some event.traceSeq }]
      else
        []
  else
    (subagentStatus fact.status).map fun status =>
      [{ nodeId := fact.subagentId
         updatedSeq := event.traceSeq
         kind := some .subagent
         runId := fact.identity.runId
         status := some status
         name := some (fact.agentName.getD "Subagent")
         parentSubagentId
         graphNamespace := some fact.graphNamespace
         agentName := fact.agentName
         startedAt := some fact.occurredAt
         completedAt := terminalTime status fact.occurredAt
         startedSeq := some event.traceSeq
         resultSeq := some event.traceSeq }]

/-- The node kind of a contribution. -/
def ContextKind.nodeKind : ContextKind → TraceGraphNodeKind
  | .memory => .memory
  | .guardrail => .guardrail
  | .retrieval => .retrieval
  | .custom => .custom

def contributionMutations (fact : ContextContributionFact) : List TraceGraphNodeMutation :=
  if fact.phase = .started then
    [{ nodeId := fact.contributionId
       updatedSeq := event.traceSeq
       kind := some fact.contextKind.nodeKind
       status := some .running
       name := some fact.name
       runId := fact.identity.runId
       parentSubagentId := factSubagentOwner fact.toTraceFactBase
       graphNamespace := some fact.graphNamespace
       startedAt := some fact.occurredAt
       startedSeq := some event.traceSeq
       requestSeq := some event.traceSeq }]
  else
    [{ nodeId := fact.contributionId
       updatedSeq := event.traceSeq
       runId := fact.identity.runId
       status := some fact.phase.phaseStatus
       completedAt := terminalTime fact.phase.phaseStatus fact.occurredAt
       resultSeq := some event.traceSeq
       failureSeq :=
         if fact.phase = .failed ∧ fact.failureOrigin then some event.traceSeq else none }]

def planMutations (fact : PlanRevisionFact) : List TraceGraphNodeMutation :=
  let waiting := fact.status ∈ [some "awaiting_input", some "awaiting_review", some "draft"]
  let status : TraceGraphNodeStatus := if waiting then .waiting else .succeeded
  [{ nodeId := scopeId "plan" fact.graphNamespace fact.identity.runId
     updatedSeq := event.traceSeq
     kind := some .plan
     status := some status
     name := some "Plan"
     runId := fact.identity.runId
     parentSubagentId := factSubagentOwner fact.toTraceFactBase
     graphNamespace := some fact.graphNamespace
     startedAt := some fact.occurredAt
     completedAt := terminalTime status fact.occurredAt
     startedSeq := some event.traceSeq
     resultSeq := some event.traceSeq }]

def interactionMutations (fact : InteractionFact) : List TraceGraphNodeMutation :=
  let status : TraceGraphNodeStatus :=
    match fact.status with
    | .pending => .waiting
    | .cancelled => .cancelled
    | .resolved => .succeeded
  [{ nodeId := fact.interactionId
     updatedSeq := event.traceSeq
     kind := some .interaction
     status := some status
     name := some fact.interactionKind
     runId := fact.identity.runId
     parentSubagentId := factSubagentOwner fact.toTraceFactBase
     graphNamespace := some fact.graphNamespace
     startedAt := some fact.occurredAt
     completedAt := terminalTime status fact.occurredAt
     startedSeq := some event.traceSeq
     resultSeq := some event.traceSeq }]

/-- The mutations that one event proposes. -/
def eventMutations : Except TracingError (List TraceGraphNodeMutation) :=
  match event.fact with
  | .turn fact => .ok (turnMutations event fact)
  | .message fact => .ok (messageMutations event fact)
  | .modelCall fact => modelCallMutations event fact
  | .tool fact => .ok (toolMutations event fact)
  | .toolExecution fact => .ok (toolExecutionMutations event fact)
  | .subagent fact => subagentMutations event fact
  | .contextContribution fact => .ok (contributionMutations event fact)
  | .planRevision fact => .ok (planMutations event fact)
  | .interaction fact => .ok (interactionMutations event fact)
  | .run _ | .reasoning _ | .stateRevision _ | .nativeExtra _ | .callTracking _ => .ok []

end

/-! ## Coalescing -/

namespace TraceGraphNodeMutation

def key (mutation : TraceGraphNodeMutation) : String × String := (mutation.nodeId, mutation.runId)

/-- Whether the mutation reports an execution start. -/
def Starts (mutation : TraceGraphNodeMutation) : Prop :=
  mutation.status = some .running ∧ mutation.startedAt.isSome ∧ mutation.startedSeq.isSome

instance (mutation : TraceGraphNodeMutation) : Decidable mutation.Starts :=
  inferInstanceAs (Decidable (_ ∧ _ ∧ _))

/-- Two updates of one revision as one. -/
def merge (current mutation : TraceGraphNodeMutation) :
    Except TracingError TraceGraphNodeMutation := do
  let kind ← resolveGraphNodeKind current.kind mutation.kind
  let replaceToolStart := kind = some .tool ∧ current.status = some .waiting ∧ mutation.Starts
  let status := mutation.status <|> current.status
  let parentSubagentId := mutation.parentSubagentId <|> current.parentSubagentId
  let modelCallId := mutation.modelCallId <|> current.modelCallId
  return {
    nodeId := mutation.nodeId
    updatedSeq := mutation.updatedSeq
    runId := mutation.runId
    kind
    status
    name := current.name <|> mutation.name
    parentSubagentId
    modelCallId
    modelCallSeq := mutation.modelCallSeq <|> current.modelCallSeq
    graphNamespace := current.graphNamespace <|> mutation.graphNamespace
    agentName := mutation.agentName <|> current.agentName
    provider := mutation.provider <|> current.provider
    model := mutation.model <|> current.model
    startedAt :=
      if replaceToolStart then mutation.startedAt else current.startedAt <|> mutation.startedAt
    firstOutputAt := mutation.firstOutputAt <|> current.firstOutputAt
    completedAt :=
      if status = some .running ∨ status = some .waiting then none
      else mutation.completedAt <|> current.completedAt
    startedSeq :=
      if replaceToolStart then mutation.startedSeq else current.startedSeq <|> mutation.startedSeq
    requestSeq := mutation.requestSeq <|> current.requestSeq
    resultSeq := mutation.resultSeq <|> current.resultSeq
    failureSeq := mutation.failureSeq <|> current.failureSeq
    linkIssue := resolveGraphLinkIssue parentSubagentId modelCallId
      (current.linkIssue <|> mutation.linkIssue) }

end TraceGraphNodeMutation

/-- One mutation joins those of its batch. -/
def coalesceMutation (values : Dict (String × String) TraceGraphNodeMutation)
    (mutation : TraceGraphNodeMutation) :
    Except TracingError (Dict (String × String) TraceGraphNodeMutation) :=
  match values.get? mutation.key with
  | none => .ok (values.insert mutation.key mutation)
  | some current =>
    if mutation.remove ∨ current.remove then
      .ok (values.insert mutation.key mutation)
    else
      (current.merge mutation).map (values.insert mutation.key)

/-- A batch with at most one write of each revision. -/
def coalesceGraphMutations (mutations : List TraceGraphNodeMutation) :
    Except TracingError (List TraceGraphNodeMutation) :=
  (mutations.foldlM coalesceMutation Dict.empty).map fun values => values.entries.map Prod.snd

/-- The mutations of one ordered batch of facts. -/
def graphNodeMutations (events : List TraceEvent) :
    Except TracingError (List TraceGraphNodeMutation) := do
  let mutations ← events.mapM eventMutations
  coalesceGraphMutations mutations.flatten

/-! ## Application -/

/-- The row that a mutation creates, if it says enough. -/
def TraceGraphNodeMutation.created (mutation : TraceGraphNodeMutation) :
    Option ReducedTraceGraphNode := do
  let kind ← mutation.kind
  let status ← mutation.status
  let name ← mutation.name
  let graphNamespace ← mutation.graphNamespace
  let startedAt ← mutation.startedAt
  let startedSeq ← mutation.startedSeq
  return {
    nodeId := mutation.nodeId
    parentSubagentId := mutation.parentSubagentId
    modelCallId := mutation.modelCallId
    modelCallSeq := mutation.modelCallSeq
    kind
    status
    name
    runId := mutation.runId
    graphNamespace
    agentName := mutation.agentName
    provider := mutation.provider
    model := mutation.model
    startedAt
    firstOutputAt := mutation.firstOutputAt
    completedAt := mutation.completedAt
    startedSeq
    updatedSeq := mutation.updatedSeq
    requestSeq := mutation.requestSeq
    resultSeq := mutation.resultSeq
    failureSeq := mutation.failureSeq
    linkIssue := resolveGraphLinkIssue mutation.parentSubagentId mutation.modelCallId
      mutation.linkIssue }

/-- The row after a mutation that fits it. -/
def ReducedTraceGraphNode.updated (row : ReducedTraceGraphNode)
    (mutation : TraceGraphNodeMutation) : ReducedTraceGraphNode :=
  let parentSubagentId := mutation.parentSubagentId <|> row.parentSubagentId
  let modelCallId := mutation.modelCallId <|> row.modelCallId
  let replaceToolStart := row.kind = .tool ∧ row.status = .waiting ∧ mutation.Starts
  let opened := mutation.status = some .running ∨ mutation.status = some .waiting
  let kept := resolveGraphLinkIssue parentSubagentId modelCallId row.linkIssue
  { row with
    parentSubagentId
    modelCallId
    modelCallSeq := if mutation.modelCallId.isSome then mutation.modelCallSeq else row.modelCallSeq
    startedAt := if replaceToolStart then mutation.startedAt.getD row.startedAt else row.startedAt
    startedSeq :=
      if replaceToolStart then mutation.startedSeq.getD row.startedSeq else row.startedSeq
    status := mutation.status.getD row.status
    agentName := mutation.agentName <|> row.agentName
    provider := mutation.provider <|> row.provider
    model := mutation.model <|> row.model
    firstOutputAt := mutation.firstOutputAt <|> row.firstOutputAt
    completedAt := mutation.completedAt <|> if opened then none else row.completedAt
    requestSeq := mutation.requestSeq <|> row.requestSeq
    resultSeq := mutation.resultSeq <|> row.resultSeq
    failureSeq := mutation.failureSeq <|> row.failureSeq
    linkIssue := kept <|> resolveGraphLinkIssue parentSubagentId modelCallId mutation.linkIssue
    updatedSeq := mutation.updatedSeq }

/-- Apply a mutation to a stored row; its identity fields never change. -/
def ReducedTraceGraphNode.apply (row : ReducedTraceGraphNode) (mutation : TraceGraphNodeMutation) :
    Except TracingError ReducedTraceGraphNode := do
  reject (mutation.updatedSeq < row.updatedSeq)
    (.storeProtocol "Trace Graph node sequence moved backwards")
  let _ ← resolveGraphNodeKind (some row.kind) mutation.kind
  reject (mutation.name.any (· ≠ row.name)) (.storeProtocol "Trace Graph node name changed")
  reject (mutation.graphNamespace.any (· ≠ row.graphNamespace))
    (.storeProtocol "Trace Graph node namespace changed")
  reject (mutation.parentSubagentId.any fun incoming => row.parentSubagentId.any (incoming ≠ ·))
    (.storeProtocol "Trace Graph Subagent owner changed")
  reject (mutation.modelCallId.any fun incoming => row.modelCallId.any (incoming ≠ ·))
    (.storeProtocol "Trace Graph model call changed")
  return row.updated mutation

/-- What a mutation makes of the revision stored under its key. -/
def TraceGraphNodeMutation.revise (mutation : TraceGraphNodeMutation)
    (stored : Option ReducedTraceGraphRevision) :
    Except TracingError (Option ReducedTraceGraphRevision) :=
  if mutation.remove then
    .ok (some (.tombstone mutation.nodeId mutation.runId mutation.updatedSeq))
  else
    match stored with
    | some (.node row) => (row.apply mutation).map fun row => some (.node row)
    | some (.tombstone _ _ _) =>
      match mutation.created with
      | some row => .ok (some (.node row))
      | none => .error
          (.storeProtocol "Trace Graph removal revision cannot accept a partial update")
    | none => .ok (mutation.created.map .node)

/-- Apply one mutation to the stored revisions. -/
def applyGraphNodeMutation (revisions : GraphRevisions) (mutation : TraceGraphNodeMutation) :
    Except TracingError GraphRevisions :=
  (mutation.revise (revisions.get? mutation.key)).map fun
    | some revision => revisions.insert mutation.key revision
    | none => revisions

/-- How a Run terminal closes an unmatched Assistant delivery. -/
def assistantRunTerminalStatus (fact : RunFact) : Option TraceGraphNodeStatus :=
  if fact.phase ≠ .terminal then none
  else if fact.outcome = some .cancelled then some .cancelled
  else if fact.outcome = some .interrupted then some .waiting
  else some .abandoned

/-- The closures of running Assistant messages of the Run that an event terminates. -/
def assistantRunTerminalMutations (event : TraceEvent)
    (revisions : List ReducedTraceGraphRevision) : List TraceGraphNodeMutation :=
  match event.fact with
  | .run fact =>
    match assistantRunTerminalStatus fact with
    | none => []
    | some status => revisions.filterMap fun
        | .tombstone _ _ _ => none
        | .node row =>
          if row.runId = fact.identity.runId ∧ row.kind = .assistantMessage ∧
              row.status = .running ∧ row.updatedSeq < event.traceSeq then
            some
              { nodeId := row.nodeId
                runId := row.runId
                updatedSeq := event.traceSeq
                status := some status
                completedAt := terminalTime status fact.occurredAt }
          else
            none
  | _ => []

/-- The stored values, oldest key first. -/
def GraphRevisions.values (revisions : GraphRevisions) : List ReducedTraceGraphRevision :=
  revisions.entries.map Prod.snd

/-- Replay one event. -/
def applyGraphEvent (revisions : GraphRevisions) (event : TraceEvent) :
    Except TracingError GraphRevisions := do
  let mutations ← graphNodeMutations [event]
  let explicit ← mutations.foldlM applyGraphNodeMutation revisions
  (assistantRunTerminalMutations event explicit.values).foldlM applyGraphNodeMutation explicit

/-- Replay explicit facts and proven Run closures one at a time. -/
def applyGraphEvents (revisions : GraphRevisions) (events : List TraceEvent) :
    Except TracingError GraphRevisions :=
  events.foldlM applyGraphEvent revisions

end Tinkerfin.Tracing
