import Tinkerfin.Plan.Models

/-!
# The planning graph

The five nodes of the planning graph and the edges between them.  A node reads the saved Plan state,
validates it, and saves an updated copy without validating that; a node that fails saves nothing
and stays next.  A user turn merges its messages and starts at the first node again.
-/

namespace Tinkerfin.Plan

/-! ## Messages -/

inductive MessageRole
  | human
  | other
  deriving DecidableEq

structure BaseMessage where
  id : String
  role : MessageRole
  deriving DecidableEq

/-- A message replaces the one with its identity, or comes last. -/
def addMessage (messages : List BaseMessage) (message : BaseMessage) : List BaseMessage :=
  if messages.any (·.id == message.id) then
    messages.map fun old => if old.id = message.id then message else old
  else messages ++ [message]

/-- The messages of a thread with those of an update merged in. -/
def addMessages (messages update : List BaseMessage) : List BaseMessage :=
  update.foldl addMessage messages

/-- The identity of the last user message. -/
def requestMessageId (messages : List BaseMessage) : Except PlanError String :=
  match messages.reverse.find? (·.role == .human) with
  | none => .error (.configuration "Plan Mode requires a current user message")
  | some message =>
    if message.id = "" then
      .error (.configuration "Plan Mode requires a stable ID on the current user message")
    else .ok message.id

/-! ## Options and checkpoints -/

/-- A host-selected clarification contract: forms of a type `F` and their JSON. -/
structure ClarificationSchemaBinding (F : Type) where
  fingerprint : String
  serializeForm : F → Except PlanError (F × List (String × Json))
  buildResponseSchema : F → Except PlanError (List (String × Json))
  restoreForm : List (String × Json) → Except PlanError F
  validateAndNormalizeResponse : F → List (String × Json) → Json →
    Except PlanError (List RequirementAnswer)

structure PlanOptions (F C : Type) where
  clarification : ClarificationSchemaBinding F
  content : PlanContentBinding C

/-- The nodes of the graph; `done` is its end. -/
inductive PlanNode
  | initializePlan
  | createPlan
  | clarifyPlan
  | reviewPlan
  | respondToReview
  | done
  deriving DecidableEq

/-- The channels of a thread that the graph uses, and the node that runs next. -/
structure PlanningState (C : Type) where
  messages : List BaseMessage := []
  plan : Option (PlanState C) := none
  schemaFingerprint : Option String := none
  contentSchemaFingerprint : Option String := none
  next : PlanNode := .done

variable {F C : Type} (options : PlanOptions F C)

def requireSchemaFingerprints (state : PlanningState C) : Except PlanError Unit :=
  if state.schemaFingerprint ≠ some options.clarification.fingerprint then
    .error (.configuration "checkpoint clarification schema does not match this Runtime")
  else if state.contentSchemaFingerprint ≠ some options.content.reference.fingerprint then
    .error (.configuration "checkpoint Plan content schema does not match this Runtime")
  else .ok ()

/-! ## Starting a turn -/

/-- A Plan that waits for input, resumed under a new request. -/
def PlanState.continued (current : PlanState C) (id : String) : PlanState C :=
  { current with
    status := .planning, effectiveMode := .plan, requestMessageId := some id
    pendingClarification := none, pendingEdit := none, confirmedPlan := none, handoff := none
    reviewAction := none, reviewReason := none }

/-- The saved Plan if it waits for input. -/
def awaitedPlan (state : PlanningState C) : Except PlanError (Option (PlanState C)) :=
  match state.plan with
  | none => .ok none
  | some saved => do
    let current ← readPlanState options.content (some saved)
    return if current.status = .awaitingInput then some current else none

def initializeNode (state : PlanningState C) : Except PlanError (PlanningState C) := do
  match ← awaitedPlan options state with
  | some current =>
    requireSchemaFingerprints options state
    let id ← requestMessageId state.messages
    -- the copy keeps the identity as the message spells it
    return { state with plan := some (current.continued id), next := .createPlan }
  | none =>
    let id ← requestMessageId state.messages
    let validated ← NonBlankText.validate id
    return { state with
      plan := some { requestMessageId := some validated.text }
      schemaFingerprint := some options.clarification.fingerprint
      contentSchemaFingerprint := some options.content.reference.fingerprint
      next := .createPlan }

/-! ## Planning -/

/-- What the planner answers. -/
inductive PlannerOutcome (F C : Type)
  | clarify (clarification : F)
  | draft (draft : Option C)
  | acceptEdit

/-- The digest that binds a form to its response schema. -/
def pendingContractDigest (form responseSchema : List (String × Json)) : String :=
  Sha256.hexdigest (Bytes.utf8 (Json.dumps (.object
    [("domain", .string "tinkerfin.plan-clarification-pending"), ("form", .object form),
     ("responseSchema", .object responseSchema)])))

/-- Every answered form is restored for the planner. -/
def clarificationContext (current : PlanState C) : Except PlanError (List F) :=
  current.clarificationHistory.mapM fun exchange =>
    options.clarification.restoreForm exchange.form

def serializePlanContent (content : C) : Except PlanError C :=
  match options.content.restore content with
  | .ok restored => .ok restored
  | .error _ =>
    .error (.structuredOutput "structured draft failed its JSON checkpoint round-trip")

/-- The content that an outcome offers for review: an edit wins over a draft. -/
def outcomeContent (current : PlanState C) : PlannerOutcome F C → Except PlanError C
  | .acceptEdit =>
    match current.pendingEdit with
    | some edited => .ok edited
    | none => .error (.structuredOutput
        "Planner cannot accept an edit when no edited draft exists")
  | .draft draft =>
    match current.pendingEdit, draft with
    | some _, _ => .error (.structuredOutput
        "Planner must clarify or accept the authoritative edited draft")
    | none, some draft => .ok draft
    | none, none => .error (.structuredOutput
        "Planner cannot accept an edit when no edited draft exists")
  | .clarify _ => .error (.structuredOutput
      "Planner must clarify or accept the authoritative edited draft")

def PlanState.clarifying (current : PlanState C) (pending : PendingClarification) : PlanState C :=
  { current with
    status := .awaitingClarification, effectiveMode := .plan, pendingClarification := some pending
    reviewAction := none, reviewReason := none }

/-- The draft of the next revision. -/
def PlanState.nextDraft (current : PlanState C) (content : C) : PlanDraft C where
  revision := current.revision + 1
  contentSchema := options.content.reference
  content := content
  revision_pos := Nat.succ_pos _

def PlanState.drafted (current : PlanState C) (content : C) : PlanState C :=
  { current with
    status := .awaitingReview, effectiveMode := .plan, pendingClarification := none
    draft := some (current.nextDraft options content), pendingEdit := none, confirmedPlan := none
    handoff := none, revision := current.revision + 1, reviewAction := none, reviewReason := none }

def plannerNode (state : PlanningState C) :
    PlannerOutcome F C → Except PlanError (PlanState C)
  | .clarify clarification => do
    requireSchemaFingerprints options state
    let current ← readPlanState options.content state.plan
    let _ ← clarificationContext options current
    let (form, payload) ← options.clarification.serializeForm clarification
    let responseSchema ← options.clarification.buildResponseSchema form
    return current.clarifying
      { form := payload, responseSchema
        contractDigest := pendingContractDigest payload responseSchema }
  | outcome => do
    requireSchemaFingerprints options state
    let current ← readPlanState options.content state.plan
    let _ ← clarificationContext options current
    let raw ← outcomeContent current outcome
    let content ← serializePlanContent options raw
    return current.drafted options content

def plannerPath (plan : PlanState C) : Except PlanError PlanNode := do
  let current ← readPlanState options.content (some plan)
  return if current.pendingClarification.isSome then .clarifyPlan else .reviewPlan

/-! ## Clarification -/

def PlanState.answered (current : PlanState C) (exchange : ClarificationExchange) : PlanState C :=
  { current with
    status := .planning, effectiveMode := .plan, pendingClarification := none
    clarificationHistory := current.clarificationHistory ++ [exchange], reviewReason := none }

def ClarificationExchange.validate (form : List (String × Json))
    (answers : List RequirementAnswer) : Except PlanError ClarificationExchange :=
  if answered : answers ≠ [] then .ok { form, answers, answered } else .error .validation

def answerClarification (state : PlanningState C) (response : Json) :
    Except PlanError (PlanState C) := do
  requireSchemaFingerprints options state
  let current ← readPlanState options.content state.plan
  match current.pendingClarification with
  | none => .error (.runtime "Plan clarification requires a pending form")
  | some pending =>
    let form ← options.clarification.restoreForm pending.form
    if pending.contractDigest ≠ pendingContractDigest pending.form pending.responseSchema then
      .error (.configuration "checkpoint clarification contract digest is invalid")
    else
      let answers ← options.clarification.validateAndNormalizeResponse form
        pending.responseSchema response
      let exchange ← ClarificationExchange.validate pending.form answers
      return current.answered exchange

/-! ## Review -/

/-- A validated review response, with the revision that it is about. -/
inductive PlanReviewResponse (C : Type)
  | approve (baseRevision : Nat)
  | cancel (baseRevision : Nat)
  | edit (baseRevision : Nat) (content : C)
  | respond (baseRevision : Nat) (message : NonBlankText)
  | reject (baseRevision : Nat) (message : Option NonBlankText)

def PlanReviewResponse.baseRevision : PlanReviewResponse C → Nat
  | .approve baseRevision => baseRevision
  | .cancel baseRevision => baseRevision
  | .edit baseRevision _ => baseRevision
  | .respond baseRevision _ => baseRevision
  | .reject baseRevision _ => baseRevision

def ConfirmedPlan.fromDraft (draft : PlanDraft C) : Except PlanError (ConfirmedPlan C) :=
  draft.validate options.content.freeze

/-- The JSON of a draft, under its public field names. -/
def PlanDraft.dump (draft : PlanDraft C) : Json :=
  .object
    [("revision", .int draft.revision),
     ("contentSchema", .object
       [("fingerprint", .string draft.contentSchema.fingerprint),
        ("mediaType", .string draft.contentSchema.mediaType)]),
     ("content", options.content.dump draft.content)]

def createHandoff (confirmed : ConfirmedPlan C) (messageId : String) :
    Except PlanError PlanHandoff := do
  let encoded := Bytes.utf8 (Json.dumps (.object
    [("messageId", .string messageId), ("confirmedPlan", confirmed.dump options)]))
  let messageId ← NonBlankText.validate messageId
  return { messageId, digest := Sha256.hexdigest encoded
           accepted := by simp, completed := by simp }

def PlanState.approved (current : PlanState C) (confirmed : ConfirmedPlan C)
    (handoff : PlanHandoff) : PlanState C :=
  { current with
    status := .approved, effectiveMode := .default, confirmedPlan := some confirmed
    handoff := some handoff, reviewAction := some .approve, reviewReason := none }

def PlanState.cancelled (current : PlanState C) : PlanState C :=
  { current with
    status := .awaitingInput, effectiveMode := .plan, pendingClarification := none
    pendingEdit := none, confirmedPlan := none, handoff := none, reviewAction := some .cancel
    reviewReason := none }

def PlanState.edited (current : PlanState C) (content : C) : PlanState C :=
  { current with
    status := .planning, effectiveMode := .plan, pendingEdit := some content
    reviewAction := some .edit, reviewReason := none }

def PlanState.responded (current : PlanState C) (message : NonBlankText) : PlanState C :=
  { current with
    status := .planning, effectiveMode := .plan, pendingEdit := none
    feedback := current.feedback ++ [message], reviewAction := some .respond
    reviewReason := none }

def PlanState.rejected (current : PlanState C) (message : Option NonBlankText) : PlanState C :=
  { current with
    status := .awaitingInput, effectiveMode := .plan, pendingClarification := none
    pendingEdit := none, confirmedPlan := none, handoff := none
    feedback := current.feedback ++ message.toList, reviewAction := some .reject
    reviewReason := message }

def reviewNode (state : PlanningState C) (response : PlanReviewResponse C) :
    Except PlanError (PlanState C) := do
  requireSchemaFingerprints options state
  let current ← readPlanState options.content state.plan
  match current.draft with
  | none => .error (.runtime "Plan review requires a current draft")
  | some draft =>
    if response.baseRevision ≠ draft.revision then
      .error (.value "Plan review baseRevision is stale")
    else
      match response with
      | .approve _ =>
        match current.requestMessageId with
        | none => .error (.runtime "Plan approval requires its request message ID")
        | some messageId =>
          let confirmed ← ConfirmedPlan.fromDraft options draft
          let handoff ← createHandoff options confirmed messageId
          return current.approved confirmed handoff
      | .cancel _ => return current.cancelled
      | .edit _ content => return current.edited content
      | .respond _ message => return current.responded message
      | .reject _ message => return current.rejected message

def reviewPath (plan : PlanState C) : Except PlanError PlanNode := do
  let current ← readPlanState options.content (some plan)
  match current.reviewAction with
  | none => .error (.runtime "Plan review did not record an action")
  | some .approve => return .done
  | some .cancel => return .respondToReview
  | some .edit => return .createPlan
  | some .respond => return .createPlan
  | some .reject => return .respondToReview

/-! ## Replies -/

def respondToReview (state : PlanningState C) (reply : BaseMessage) :
    Except PlanError (List BaseMessage) := do
  requireSchemaFingerprints options state
  let current ← readPlanState options.content state.plan
  if current.status ≠ .awaitingInput then
    .error (.runtime "Plan review reply requires awaiting input state")
  else return addMessages state.messages [reply]

/-! ## The graph -/

/-- What reaches a thread. -/
inductive PlanningEvent (F C : Type)
  /-- A user turn with its messages. -/
  | turn (update : List BaseMessage)
  | initializePlan
  | plan (outcome : PlannerOutcome F C)
  | answer (response : Json)
  | review (response : PlanReviewResponse C)
  | reply (message : BaseMessage)

/-- A node runs where it is next. -/
def runNode (state : PlanningState C) (node : PlanNode)
    (run : Except PlanError (PlanningState C)) : Except PlanError (PlanningState C) :=
  if state.next = node then run else .error (.runtime "another node is next")

/-- What an event makes of a thread. -/
def step (state : PlanningState C) : PlanningEvent F C → Except PlanError (PlanningState C)
  | .turn update => .ok { state with
      messages := addMessages state.messages update, next := .initializePlan }
  | .initializePlan => runNode state .initializePlan (initializeNode options state)
  | .plan outcome => runNode state .createPlan do
      let plan ← plannerNode options state outcome
      let next ← plannerPath options plan
      return { state with plan := some plan, next }
  | .answer response => runNode state .clarifyPlan do
      let plan ← answerClarification options state response
      return { state with plan := some plan, next := .createPlan }
  | .review response => runNode state .reviewPlan do
      let plan ← reviewNode options state response
      let next ← reviewPath options plan
      return { state with plan := some plan, next }
  | .reply message => runNode state .respondToReview do
      let messages ← respondToReview options state message
      return { state with messages, next := .done }

/-- A node that fails saves nothing. -/
def next (state : PlanningState C) (event : PlanningEvent F C) : PlanningState C :=
  match step options state event with
  | .ok after => after
  | .error _ => state

end Tinkerfin.Plan
