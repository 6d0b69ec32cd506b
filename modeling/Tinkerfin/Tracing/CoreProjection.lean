import Tinkerfin.Lib.Dict
import Tinkerfin.Lib.Forest
import Tinkerfin.Tracing.Facts

/-!
# The incremental core projection

Lineage, heads, Turns and cumulative views of all Runs of a generation, advanced event by event, and
the selection of a head.  A set of Runs is kept as its sorted list.
-/

namespace Tinkerfin.Tracing

/-! ## Views -/

inductive DeliveryStatus
  | streaming | completed
  deriving DecidableEq, Repr

/-- One projected message; content that is not there is `null`. -/
structure TraceMessage where
  id : String
  traceSeq : Int
  sourceId : Option String := none
  graphNamespace : List String := []
  runId : String
  role : MessageRole
  content : Json := .null
  contentOmitted : Bool := false
  name : Option String := none
  toolCallId : Option String := none
  status : DeliveryStatus
  createdAt : Nat
  completedAt : Option Nat := none

/-- One reasoning stream of a message. -/
structure TraceReasoning where
  id : String
  traceSeq : Int
  messageId : String
  graphNamespace : List String := []
  runId : String
  extractor : String
  content : Json := .null
  contentOmitted : Bool := false
  status : DeliveryStatus
  createdAt : Nat
  completedAt : Option Nat := none

/-- The root state and the state of every subgraph. -/
structure TraceState where
  root : Dict String Json := .empty
  subgraphs : Dict String (Dict String Json) := .empty

def TraceMessage.same (left right : TraceMessage) : Bool :=
  decide (left.id = right.id ∧ left.traceSeq = right.traceSeq ∧ left.sourceId = right.sourceId ∧
    left.graphNamespace = right.graphNamespace ∧ left.runId = right.runId ∧
    left.role = right.role) &&
  decide (left.contentOmitted = right.contentOmitted ∧ left.name = right.name ∧
    left.toolCallId = right.toolCallId ∧ left.status = right.status ∧
    left.createdAt = right.createdAt ∧ left.completedAt = right.completedAt) &&
  left.content.same right.content

def TraceReasoning.same (left right : TraceReasoning) : Bool :=
  decide (left.id = right.id ∧ left.traceSeq = right.traceSeq ∧ left.messageId = right.messageId ∧
    left.graphNamespace = right.graphNamespace ∧ left.runId = right.runId ∧
    left.extractor = right.extractor) &&
  decide (left.contentOmitted = right.contentOmitted ∧ left.status = right.status ∧
    left.createdAt = right.createdAt ∧ left.completedAt = right.completedAt) &&
  left.content.same right.content

/-! ## State of the projection -/

/-- Lineage, state and completeness of one Run. -/
structure CoreRunCheckpoint where
  runId : String
  firstSeq : Int
  lastSeq : Int
  startedAt : Nat
  lastOccurredAt : Nat
  parentRunId : Option String := none
  lineageBound : Bool := false
  inputKind : Option RunInputKind := none
  turnId : Option String := none
  terminal : Option RunTerminalOutcome := none
  completedAt : Option Nat := none
  state : TraceState := {}
  callHistoryKnown : Bool := false
  hasStateChanges : Bool := false
  messages : List TraceMessage := []
  reasoning : List TraceReasoning := []
  hasViewChanges : Bool := false
  ownToolCallCount : Nat := 0
  payloadOmitted : Bool := false
  missingPrefix : Bool := false
  interactionFacts : List InteractionFact := []
  interactionSequences : List Int := []

/-- Runs and sequence range of one Turn. -/
structure CoreTurnCheckpoint where
  turnId : String
  firstSeq : Int
  lastSeq : Int
  runIds : List String
  userMessageId : Option String := none

structure CoreProjectionState where
  generation : Option String := none
  asOfSeq : Int := 0
  runs : Dict String CoreRunCheckpoint := .empty
  heads : List String := []
  turns : Dict String CoreTurnCheckpoint := .empty
  turnOrder : List String := []

/-- The lineage of one Run as selection reads it. -/
structure RunInfo where
  runId : String
  startedAt : Nat
  firstSeq : Int := 1
  parentRunId : Option String := none
  inputKind : Option RunInputKind := none
  turnId : Option String := none
  terminal : Option RunTerminalOutcome := none
  completedAt : Option Nat := none

def emptyCoreProjectionState : CoreProjectionState := {}

/-! ## Content -/

/-- Content after a delta; different kinds of content replace each other. -/
def appendContent (current delta : Json) : Json :=
  match current, delta with
  | current, .null => current
  | .null, delta => delta
  | .string current, .string delta => .string (current ++ delta)
  | .array current, .array delta => .array (current ++ delta)
  | _, delta => delta

/-- Unwrap a value that was selected at the root of a document. -/
def toolContentValue : Json → Json
  | .object [("", value)] => value
  | value => value

def messageWithContent (message : TraceMessage) (content : CapturedValue) (replace : Bool)
    (toolContent : Bool) : TraceMessage :=
  match content with
  | .omitted _ _ => { message with contentOmitted := true }
  | .inline _ captured =>
    let value := if toolContent then toolContentValue captured else captured
    { message with content := if replace then value else appendContent message.content value }

/-- Replace the entry of an identifier, or append it. -/
def replaceEntry {α : Type} (identify : α → String) (items : List α) (item : α) : List α :=
  if items.any (identify · = identify item) then
    items.map fun other => if identify other = identify item then item else other
  else
    items ++ [item]

/-- Phases that end the delivery of a message. -/
def MessagePhase.isFinal (phase : MessagePhase) : Bool :=
  phase = .completed || phase = .reconciled || phase = .cancelled || phase = .interrupted ||
    phase = .abandoned

/-- One message or Tool result against the messages of a Run. -/
def advanceMessages (current : List TraceMessage) (fact : TraceSemanticFact) (traceSeq : Int) :
    List TraceMessage :=
  match fact with
  | .tool fact =>
    match fact.phase, fact.content with
    | .result, some content =>
      current.map fun message =>
        if message.role = .tool ∧ message.graphNamespace = fact.graphNamespace ∧
            message.toolCallId = some fact.sourceToolCallId then
          messageWithContent message content true true
        else
          message
    | _, _ => current
  | .message fact =>
    if fact.phase = .removed then current.filter (·.id ≠ fact.messageId)
    else
      let message := (current.find? (·.id = fact.messageId)).getD
        { id := fact.messageId
          traceSeq
          sourceId := fact.sourceMessageId
          graphNamespace := fact.graphNamespace
          runId := fact.identity.runId
          role := fact.role
          name := fact.name
          toolCallId := fact.toolCallId
          status := .streaming
          createdAt := fact.occurredAt }
      let message := fact.content.elim message fun content =>
        messageWithContent message content (fact.phase ≠ .content) false
      let message :=
        if fact.phase = .started then { message with status := .streaming, completedAt := none }
        else message
      let message :=
        if fact.phase.isFinal then
          { message with status := .completed, completedAt := some fact.occurredAt }
        else message
      replaceEntry (·.id) current message
  | _ => current

/-- One reasoning delta, reconciliation or completion against the streams of a Run. -/
def advanceReasoning (current : List TraceReasoning) (fact : TraceSemanticFact) (traceSeq : Int) :
    Except TracingError (List TraceReasoning) :=
  match fact with
  | .reasoning fact => do
    let stored := current.find? (·.id = fact.reasoningId)
    reject (stored.any fun item => item.messageId ≠ fact.messageId || item.extractor ≠ fact.extractor)
      (.corruption "Reasoning identity changed inside one stream")
    let item : TraceReasoning := stored.getD
      { id := fact.reasoningId
        traceSeq
        messageId := fact.messageId
        graphNamespace := fact.graphNamespace
        runId := fact.identity.runId
        extractor := fact.extractor
        status := .streaming
        createdAt := fact.occurredAt }
    let item := match fact.content with
      | none => item
      | some (.omitted _ _) => { item with contentOmitted := true }
      | some (.inline _ value) =>
        { item with
          content :=
            if fact.phase = .reconciled then value else appendContent item.content value }
    let item :=
      if fact.phase = .completed then
        { item with status := .completed, completedAt := some fact.occurredAt }
      else item
    return replaceEntry (·.id) current item
  | _ => .ok current

/-! ## Graph state -/

/-- The name of a subgraph scope. -/
def namespaceKey (graphNamespace : List String) : String :=
  (Json.array (graphNamespace.map .string)).dumps

/-- Update the scope of a graph namespace. -/
def TraceState.updated (state : TraceState) (graphNamespace : List String)
    (update : Dict String Json → Dict String Json) : TraceState :=
  if graphNamespace = [] then { state with root := update state.root }
  else
    let key := namespaceKey graphNamespace
    { state with
      subgraphs := state.subgraphs.insert key (update ((state.subgraphs.get? key).getD .empty)) }

/-- Apply a fact that carries state. -/
def applyIncrementalState (current : TraceState) : TraceSemanticFact → TraceState
  | .planRevision fact =>
    current.updated fact.graphNamespace fun target =>
      match fact.plan with
      | .inline _ value => target.insert "tinkerfin_plan" value
      | .omitted _ _ => target
  | .stateRevision fact =>
    current.updated fact.graphNamespace fun target =>
      let kept := fact.removedKeys.foldl Dict.erase target
      match fact.changes with
      | .inline _ (.object members) =>
        members.foldl (fun target (key, value) => target.insert key value) kept
      | _ => kept
  | _ => current

/-! ## Omitted payloads -/

mutual

/-- A captured value somewhere inside the value says that it was omitted. -/
def containsOmitted : Json → Bool
  | .object members => containsOmittedMembers members
  | .array items => containsOmittedItems items
  | _ => false

def containsOmittedItems : List Json → Bool
  | [] => false
  | item :: items => containsOmitted item || containsOmittedItems items

def containsOmittedMembers : List (String × Json) → Bool
  | [] => false
  | (key, value) :: members =>
    (key = "disposition" && value.same (.string "omitted")) || containsOmitted value ||
      containsOmittedMembers members

end

/-- The captured values of a fact. -/
def TraceSemanticFact.captured : TraceSemanticFact → List CapturedValue
  | .run fact => fact.input.toList ++ fact.config.toList
  | .message fact => fact.content.toList
  | .reasoning fact => fact.content.toList
  | .tool fact => fact.content.toList
  | .stateRevision fact => [fact.changes]
  | .interaction fact => fact.payload.toList
  | .subagent fact => fact.input.toList
  | .planRevision fact => [fact.plan]
  | .modelCall fact =>
    fact.request.toList ++ fact.usage.toList ++ fact.responseMetadata.toList ++
      fact.errorMessage.toList
  | .toolExecution fact => fact.input.toList ++ fact.output.toList ++ fact.errorMessage.toList
  | .contextContribution fact => fact.input.toList ++ fact.output.toList
  | .turn _ | .nativeExtra _ | .callTracking _ => []

def payloadOmitted (fact : TraceSemanticFact) : Bool :=
  fact.captured.any fun
    | .omitted _ _ => true
    | .inline _ value => containsOmitted value

/-! ## One event -/

section Advance

variable (state : CoreProjectionState) (event : TraceEvent)

/-- A new Run with the views of its parent. -/
def inheritedRun (runs : Dict String CoreRunCheckpoint) (runId : String) (occurredAt : Nat)
    (traceSeq : Int) (parentRunId : Option String) : CoreRunCheckpoint :=
  let parent := parentRunId.bind runs.get?
  { runId
    firstSeq := traceSeq
    lastSeq := traceSeq
    startedAt := occurredAt
    lastOccurredAt := occurredAt
    parentRunId
    state := parent.elim {} (·.state)
    messages := parent.elim [] (·.messages)
    reasoning := parent.elim [] (·.reasoning)
    payloadOmitted := parent.any (·.payloadOmitted)
    missingPrefix := (parentRunId.isSome && parent.isNone) || parent.any (·.missingPrefix) }

/-- Give a Run its parent and, where it has none of its own, the views of the parent. -/
def bindParent (runs : Dict String CoreRunCheckpoint) (info : CoreRunCheckpoint)
    (parentRunId : Option String) : Except TracingError CoreRunCheckpoint := do
  reject (parentRunId = some info.runId) (.corruption "Run lineage cannot reference itself")
  reject (parentRunId.isSome ∧ info.parentRunId.isSome ∧ parentRunId ≠ info.parentRunId)
    (.corruption "Run lineage parent changed after start")
  if parentRunId.isNone ∨ info.parentRunId = parentRunId then
    return info
  else
    let parent := parentRunId.bind runs.get?
    return { info with
      parentRunId
      state := if info.hasStateChanges then info.state else parent.elim info.state (·.state)
      messages := if info.hasViewChanges then info.messages else parent.elim info.messages (·.messages)
      reasoning :=
        if info.hasViewChanges then info.reasoning else parent.elim info.reasoning (·.reasoning)
      payloadOmitted := info.payloadOmitted || parent.any (·.payloadOmitted)
      missingPrefix := info.missingPrefix || parent.isNone || parent.any (·.missingPrefix) }

/-- Put a Run into a Turn that reaches up to a sequence. -/
def assignTurn (info : CoreRunCheckpoint) (turnId : String) (traceSeq : Int)
    (userMessageId : Option String) : CoreRunCheckpoint × CoreProjectionState :=
  let previous := state.turns.get? turnId
  let turn : CoreTurnCheckpoint :=
    { turnId
      firstSeq := previous.elim info.firstSeq fun turn => min turn.firstSeq info.firstSeq
      lastSeq := previous.elim traceSeq fun turn => max turn.lastSeq traceSeq
      runIds := previous.elim [info.runId] fun turn =>
        if info.runId ∈ turn.runIds then turn.runIds else turn.runIds ++ [info.runId]
      userMessageId := userMessageId <|> previous.bind (·.userMessageId) }
  ({ info with turnId := some turnId },
    { state with
      turns := state.turns.insert turnId turn
      turnOrder :=
        if turnId ∈ state.turnOrder then state.turnOrder else state.turnOrder ++ [turnId] })

/-- Add a Run to a sorted set of Runs. -/
def insertRun (runId : String) (runs : List String) : List String :=
  (runs.filter (· ≠ runId)).orderedInsert (· ≤ ·) runId

/-- The phases that start or continue a Run. -/
def RunPhase.isLifecycle (phase : RunPhase) : Bool :=
  phase = .started || phase = .input || phase = .resumed

/-- The explicit parent, or the only other head when it has completed and the Run is not bound yet. -/
def inferredParent (fact : RunFact) (info : Option CoreRunCheckpoint) : Option String :=
  fact.parentRunId <|>
    if info.any (·.lineageBound) then none
    else
      match state.heads.filter (· ≠ fact.identity.runId) with
      | [candidate] =>
        if ((state.runs.get? candidate).bind (·.terminal)).isSome then some candidate else none
      | _ => none

/-- The fact goes on with an interrupted Run. -/
def RunFact.continues (fact : RunFact) : Bool :=
  fact.inputKind = some .resume || fact.inputKind = some .abandon

/-- The Run of a lifecycle fact with its parent; a continuation without any parent is incomplete. -/
def boundRun (fact : RunFact) (info : Option CoreRunCheckpoint) :
    Except TracingError CoreRunCheckpoint :=
  let parentRunId := inferredParent state fact info
  let inherited := inheritedRun state.runs fact.identity.runId fact.occurredAt event.traceSeq
  -- repeated evidence that omits the parent keeps the one that is bound
  if (parentRunId <|> info.bind (·.parentRunId)) = none ∧ fact.continues then
    bindParent state.runs { info.getD (inherited none) with missingPrefix := true } parentRunId
  else
    info.elim (.ok (inherited parentRunId)) fun info => bindParent state.runs info parentRunId

/-- A continuation joins the Turn of its parent, or one of its own where it has none. -/
def continuedTurn (fact : RunFact) (info : CoreRunCheckpoint) :
    CoreRunCheckpoint × CoreProjectionState :=
  if fact.continues then
    match (info.parentRunId.bind state.runs.get?).bind (·.turnId) with
    | some turnId => assignTurn state info turnId event.traceSeq none
    | none =>
      if info.turnId.isNone then
        assignTurn state info s!"turn-partial:{fact.identity.runId}" event.traceSeq none
      else
        (info, state)
  else
    (info, state)

/-- A start, input or resumption binds the lineage of its Run and makes it a head. -/
def advanceLifecycle (fact : RunFact) (info : Option CoreRunCheckpoint) :
    Except TracingError (CoreRunCheckpoint × CoreProjectionState) := do
  let info ← boundRun state event fact info
  reject (fact.inputKind.isSome ∧ info.inputKind.isSome ∧ fact.inputKind ≠ info.inputKind)
    (.corruption "Run input kind changed after start")
  let (info, state) := continuedTurn state event fact
    { info with
      inputKind := fact.inputKind <|> info.inputKind
      lineageBound := info.lineageBound || decide (fact.phase = .started)
      lastSeq := event.traceSeq }
  return (info, { state with
    heads := insertRun fact.identity.runId
      (state.heads.filter fun head => info.parentRunId ≠ some head) })

/-- The Run of an event after the lineage part of the event. -/
def advanceLineage (info : Option CoreRunCheckpoint) :
    Except TracingError (CoreRunCheckpoint × CoreProjectionState) :=
  let other : CoreRunCheckpoint :=
    info.elim
      (inheritedRun state.runs event.fact.identity.runId event.fact.occurredAt event.traceSeq none)
      fun info => { info with lastSeq := event.traceSeq }
  match event.fact with
  | .run fact =>
    if fact.phase.isLifecycle then advanceLifecycle state event fact info else .ok (other, state)
  | _ => .ok (other, state)

/-- The Run of an event after its Turn, state, outcome or call tracking. -/
def advanceOutcome (info : CoreRunCheckpoint) : CoreRunCheckpoint × CoreProjectionState :=
  match event.fact with
  | .turn fact => assignTurn state info fact.turnId event.traceSeq fact.userMessageId
  | .stateRevision _ | .planRevision _ =>
    ({ info with
      state := applyIncrementalState info.state event.fact
      hasStateChanges := true }, state)
  | .run fact =>
    if fact.phase = .terminal then
      ({ info with
        terminal := fact.outcome
        completedAt := some fact.occurredAt
        callHistoryKnown := info.callHistoryKnown ||
          (fact.outcome = some .failed && fact.code = some "runtime_initialization_error") },
        state)
    else
      (info, state)
  | .callTracking _ => ({ info with callHistoryKnown := true }, state)
  | _ => (info, state)

/-- The Run of an event after its views. -/
def advanceViews (info : CoreRunCheckpoint) : Except TracingError CoreRunCheckpoint := do
  let fact := event.fact
  let messages := advanceMessages info.messages fact event.traceSeq
  let reasoning ← advanceReasoning info.reasoning fact event.traceSeq
  let (facts, sequences) := match fact with
    | .interaction fact => ([fact], [event.traceSeq])
    | _ => ([], [])
  let startsTool := match fact with
    | .tool fact => decide (fact.phase = ToolPhase.started)
    | _ => false
  return { info with
    messages
    reasoning
    ownToolCallCount := info.ownToolCallCount + startsTool.toNat
    hasViewChanges := info.hasViewChanges ||
      !messages.isEqv info.messages TraceMessage.same ||
      !reasoning.isEqv info.reasoning TraceReasoning.same
    interactionFacts := info.interactionFacts ++ facts
    interactionSequences := info.interactionSequences ++ sequences
    lastOccurredAt := max info.lastOccurredAt fact.occurredAt
    payloadOmitted := info.payloadOmitted || payloadOmitted fact }

/-- Apply the next event of the generation. -/
def advanceEvent : Except TracingError CoreProjectionState := do
  reject (event.traceSeq ≠ state.asOfSeq + 1)
    (.corruption "Core Projection event sequence is not contiguous")
  reject (state.generation.any (event.generation ≠ ·))
    (.corruption "Core Projection crossed a Trace generation")
  let state :=
    { state with
      generation := state.generation <|> some event.generation
      asOfSeq := event.traceSeq }
  let runId := event.fact.identity.runId
  let (info, state) ← advanceLineage state event (state.runs.get? runId)
  let (info, state) := advanceOutcome state event info
  let info ← advanceViews event info
  let (info, state) := match info.turnId with
    | some turnId => assignTurn state info turnId event.traceSeq none
    | none => (info, state)
  return { state with runs := state.runs.insert runId info }

end Advance

/-- Apply one contiguous batch of events. -/
def advanceCoreProjectionState (state : CoreProjectionState) (events : List TraceEvent) :
    Except TracingError CoreProjectionState :=
  events.foldlM advanceEvent state

/-! ## Selection -/

def ancestorLineage (runs : Dict String RunInfo) (head : String) :
    Except TracingError (List String) :=
  match Forest.climb (fun runId => (runs.get? runId).bind (·.parentRunId)) (runs.size + 1) []
      (some head) with
  | some lineage => .ok lineage
  | none => .error (.corruption "Run lineage contains a cycle")

/-- The head of a requested Run, which is itself or its only descendant head. -/
def resolveRequestedHead (runs : Dict String RunInfo) (heads : List String) (requested : String) :
    Except TracingError String :=
  if requested ∈ heads then .ok requested
  else do
    reject ((runs.get? requested).isNone)
      (.runNotFound "Selected Run does not exist in this Trace generation" requested)
    let descendants ← heads.filterM fun head =>
      (ancestorLineage runs head).map fun lineage => decide (requested ∈ lineage)
    match descendants with
    | [] => .error (.corruption "Selected Run is disconnected from every current Trace head")
    | [head] => .ok head
    | heads => .error (.ambiguousHead "Selected Trace branch has multiple Run heads" heads)

def CoreRunCheckpoint.runInfo (info : CoreRunCheckpoint) : RunInfo where
  runId := info.runId
  startedAt := info.startedAt
  parentRunId := info.parentRunId
  inputKind := info.inputKind
  turnId := info.turnId
  terminal := info.terminal
  completedAt := info.completedAt

def CoreProjectionState.runInfos (state : CoreProjectionState) : Dict String RunInfo :=
  state.runs.mapValues fun _ info => info.runInfo

/-- The head that a request selects. -/
def selectHead (state : CoreProjectionState) (headRunId : Option String) :
    Except TracingError String :=
  match state.heads, headRunId with
  | [], _ => .error (.corruption "Trace has no selectable Run head")
  | [head], none => .ok head
  | heads, none => .error (.ambiguousHead "Trace has multiple Run heads" heads)
  | heads, some requested => resolveRequestedHead state.runInfos heads requested

end Tinkerfin.Tracing
