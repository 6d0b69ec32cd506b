import Tinkerfin.Checkpoint.Saver
import Tinkerfin.Lib.Bytes
import Tinkerfin.Lib.Json
import Tinkerfin.Lib.Machine
import Tinkerfin.Lib.Uuid
import Tinkerfin.Messaging.Contract

/-!
# Review of a batch of tool calls

The middleware selects the calls of a batch that need a review, pauses its task until decisions
arrive, and hands the decisions out by position.  Before the pause becomes visible it saves a record
with the digest of the batch beside the checkpoint of the task; every later attempt of the task is
held to that record.
-/

namespace Tinkerfin.Checkpoint

open Messaging (bind_eq_ok)

/-! ## The batch -/

inductive HitlError
  | value (message : String)
  | type (message : String)
  | attribute (message : String)
  | index
  | lifecycle (message : String)
  /-- Raised by the review policy or by the decision processing of the library. -/
  | native (message : String)

structure ToolCall where
  name : String
  args : List (String × Json)
  id : Option String
  type : Option String := none

def ToolCall.json (call : ToolCall) : Json :=
  .object ([("name", .string call.name), ("args", .object call.args),
    ("id", call.id.elim .null .string)] ++ call.type.elim [] fun type => [("type", .string type)])

/-- How one attempt selects calls.  Predicates and descriptions may consult anything, so each call
of the batch gets an answer of its own. -/
structure ReviewPolicy (γ : Type) where
  interruptOn : Dict String γ
  shouldInterrupt : Nat → ToolCall → γ → Except HitlError Bool
  createActionAndConfig : Nat → ToolCall → γ → Except HitlError (Json × Json)

/-- A call of the batch that needs a review. -/
structure ReviewedCall (γ : Type) where
  index : Nat
  config : γ
  action : Json
  review : Json

variable {γ : Type}

/-- The calls that a policy selects, from one position on. -/
def selectCalls (policy : ReviewPolicy γ) : Nat → List ToolCall →
    Except HitlError (List (ReviewedCall γ))
  | _, [] => .ok []
  | index, call :: calls =>
    match policy.interruptOn.get? call.name with
    | none => selectCalls policy (index + 1) calls
    | some config => do
      if ← policy.shouldInterrupt index call config then
        let (action, review) ← policy.createActionAndConfig index call config
        let rest ← selectCalls policy (index + 1) calls
        return { index, config, action, review } :: rest
      else
        selectCalls policy (index + 1) calls

/-- The identities of the selected calls. -/
def reviewedIds (calls : List ToolCall) (selected : List (ReviewedCall γ)) :
    Except HitlError (List String) :=
  selected.mapM fun reviewed =>
    match calls[reviewed.index]?.bind (·.id) with
    | some id =>
      if id = "" then .error (.value "tool review requires stable tool call IDs") else .ok id
    | none => .error (.value "tool review requires stable tool call IDs")

/-- The request that shows the selected calls. -/
def reviewRequest (selected : List (ReviewedCall γ)) : Json :=
  .object [("action_requests", .array (selected.map (·.action))),
    ("review_configs", .array (selected.map (·.review)))]

/-- Binds decisions to the request, the selected identities and the whole batch. -/
def toolReviewDigest (request : Json) (calls : List ToolCall) (reviewedIds : List String) : String :=
  Sha256.hexdigest (Bytes.utf8 (Json.dumps (.object
    [("request", request), ("tools", .array (calls.map ToolCall.json)),
      ("reviewed_ids", .array (reviewedIds.map .string))])))

/-- What one attempt makes of its batch. -/
structure ReviewBatch (γ : Type) where
  selected : List (ReviewedCall γ)
  digest : String

def reviewBatch (policy : ReviewPolicy γ) (calls : List ToolCall) :
    Except HitlError (ReviewBatch γ) := do
  let selected ← selectCalls policy 0 calls
  let ids ← reviewedIds calls selected
  return { selected, digest := toolReviewDigest (reviewRequest selected) calls ids }

/-- The policy entry of a selected position. -/
def ReviewBatch.config? (batch : ReviewBatch γ) (index : Nat) : Option γ :=
  (batch.selected.find? fun reviewed => reviewed.index = index).map (·.config)

/-! ## Decisions -/

structure ToolMessage where
  content : String
  name : Option String
  toolCallId : String
  id : Option String
  status : String
  additionalKwargs : Json

/-- What a decision makes of a call: the call to pass on and a result. -/
abbrev DecisionResult := Option ToolCall × Option ToolMessage

def hitlContractId : String := "tinkerfin.deepagents.hitl-cancel"

def cancelDecisionType : String := "tinkerfin_cancel"

/-- Bytes of the predefined namespace of URLs. -/
def urlNamespace : List UInt8 :=
  [0x6b, 0xa7, 0xb8, 0x11, 0x9d, 0xad, 0x11, 0xd1, 0x80, 0xb4, 0x00, 0xc0, 0x4f, 0xd4, 0x30, 0xc8]

/-- The result of a call that was cancelled. -/
def cancelledMessage (name toolCallId : String) : ToolMessage where
  content := "Tool call `" ++ name ++ "` was cancelled before execution."
  name := some name
  toolCallId
  id := some (Uuid.uuid5 urlNamespace s!"{hitlContractId}:{name}:{toolCallId}")
  status := "error"
  additionalKwargs := .object [("tinkerfin", .object [("schema", .string hitlContractId),
    ("outcome", .string "cancelled"), ("executed", .bool false)])]

/-- The decision cancels its call. -/
def isCancel : Json → Bool
  | .object members =>
    match members.lookup "type" with
    | some (.string type) => type = cancelDecisionType
    | _ => false
  | _ => false

/-- Apply one decision; all but cancellations are left to the library. -/
def processDecision (native : Json → ToolCall → γ → Except HitlError DecisionResult)
    (decision : Json) (call : ToolCall) (config : γ) : Except HitlError DecisionResult :=
  match decision with
  | .object _ =>
    if isCancel decision then
      match call.id with
      | none => .error (.value "cancelled Tool call requires a stable ID")
      | some id =>
        if id = "" then .error (.value "cancelled Tool call requires a stable ID")
        else if call.name = "" then
          .error (.value "cancelled Tool call requires a stable name")
        else .ok (none, some (cancelledMessage call.name id))
    else native decision call config
  | _ => .error (.attribute "decision has no attribute 'get'")

/-- Hand the decisions out to the selected calls in the order of the batch. -/
def applyDecisions (native : Json → ToolCall → γ → Except HitlError DecisionResult)
    (batch : ReviewBatch γ) : Nat → List ToolCall → List Json → Except HitlError (List DecisionResult)
  | _, [], _ => .ok []
  | index, call :: calls, decisions =>
    match batch.config? index with
    | none => do
      let rest ← applyDecisions native batch (index + 1) calls decisions
      return (some call, none) :: rest
    | some config =>
      match decisions with
      | [] => .error .index
      | decision :: decisions => do
        let result ← processDecision native decision call config
        let rest ← applyDecisions native batch (index + 1) calls decisions
        return result :: rest

/-- The decisions of a response. -/
def responseDecisions : Json → Except HitlError (List Json)
  | .object members =>
    match members.lookup "decisions" with
    | some (.array decisions) => .ok decisions
    | _ => .error (.type "tool review decisions must be a list")
  | _ => .error (.type "tool review decisions must be a mapping")

/-- Use a response for a batch. -/
def resumeBatch (native : Json → ToolCall → γ → Except HitlError DecisionResult)
    (batch : ReviewBatch γ) (calls : List ToolCall) (response : Json) :
    Except HitlError (List DecisionResult) := do
  let decisions ← responseDecisions response
  if decisions.length ≠ batch.selected.length then
    throw (.value "tool review decisions must cover the complete action batch")
  applyDecisions native batch 0 calls decisions

/-! ## The evidence -/

/-- Proves which task produced a pending review. -/
structure PendingToolReview where
  graphNamespace : String
  runId : Option String
  taskId : String
  interruptId : String
  batchDigest : String

/-- A record of a review, or a value of another writer. -/
inductive SavedValue
  | review (record : PendingToolReview)
  | other

def toolReviewChannel : String := "_tinkerfin_tool_review"

def toolReviewOwner (taskId : String) : String := "tinkerfin-tool-review:" ++ taskId

/-- The record that the dedicated owner of a task saved. -/
def pendingToolReview (writes : List (PendingWrite SavedValue)) (taskId : String) :
    Except HitlError (Option PendingToolReview) :=
  match writes.filter fun write =>
      write.owner = toolReviewOwner taskId ∧ write.channel = toolReviewChannel with
  | [] => .ok none
  | [{ value := .review record, .. }] => .ok (some record)
  | [{ value := .other, .. }] => .error (.value "pending tool review is invalid")
  | _ => .error (.lifecycle "pending tool review has conflicting evidence")

/-- The task of the middleware, as the graph engine names it. -/
structure ReviewTask where
  threadId : String
  checkpointNs : String
  checkpointId : String
  taskId : String

/-- Where a checkpoint is kept. -/
structure CheckpointConfig where
  threadId : String
  checkpointNs : String
  checkpointId : String
  deriving DecidableEq

/-- The scope of the graph: the namespace without its last component. -/
def ReviewTask.graphNamespace (task : ReviewTask) : String :=
  String.ofList ((task.checkpointNs.toList.reverse.dropWhile (· ≠ '|')).drop 1).reverse

/-- The checkpoint that the task started from. -/
def ReviewTask.source (task : ReviewTask) : CheckpointConfig where
  threadId := task.threadId
  checkpointNs := task.graphNamespace
  checkpointId := task.checkpointId

/-- The task runs with a checkpointer. -/
structure ReviewExecution where
  task : ReviewTask
  durability : Option String

/-- How the write of the record ends. -/
inductive SaveOutcome
  | completes
  | fails (landed : Bool)
  | crashes (landed : Bool)

/-- One attempt of a task, with the policy it was rebuilt with and what happens to it. -/
structure ReviewAttempt (γ : Type) where
  toolCalls : List ToolCall
  policy : ReviewPolicy γ
  execution : Option ReviewExecution
  runId : Option String := none
  /-- The value that resumes the task, if there is one. -/
  response : Option Json := none
  interruptIds : List String := []
  crashes : Bool := false
  saving : SaveOutcome := .completes
  /-- Only a checkpoint can hold a value to resume with. -/
  unresumed : execution = none → response = none

inductive ReviewOutcome
  /-- No call needs a review. -/
  | passed
  | resumed (toolCalls : List ToolCall) (results : List ToolMessage)
  /-- The interrupt is visible. -/
  | paused (interruptId : String)
  | failed (error : HitlError)
  | crashed

namespace ReviewAttempt

variable (native : Json → ToolCall → γ → Except HitlError DecisionResult) (attempt : ReviewAttempt γ)
  (saver : Saver CheckpointConfig SavedValue)

/-- Refuse a task whose saved record is of another scope or batch. -/
def checkSaved (batch : ReviewBatch γ) : Except HitlError Unit :=
  match attempt.execution with
  | none => .ok ()
  | some execution =>
    if execution.durability ≠ some "sync" then
      .error (.value "TinkerFin tool review requires durability='sync'")
    else
      match saver.getTuple execution.task.source with
      | none => .error (.lifecycle "tool review source checkpoint is unavailable")
      | some writes => do
        match ← pendingToolReview writes execution.task.taskId with
        | none => return ()
        | some saved =>
          if saved.taskId ≠ execution.task.taskId ∨
              saved.graphNamespace ≠ execution.task.graphNamespace ∨
              saved.batchDigest ≠ batch.digest then
            throw (.lifecycle "tool review changed while awaiting a decision")

/-- Save the record of a batch and then show its interrupt. -/
def pause (batch : ReviewBatch γ) : Saver CheckpointConfig SavedValue × ReviewOutcome :=
  match attempt.execution, attempt.interruptIds with
  | none, _ =>
    (saver, .failed (.lifecycle "tool review requires an asynchronous checkpointer"))
  | some execution, [interruptId] =>
    if attempt.runId = some "" ∨ execution.task.taskId = "" ∨ interruptId = "" then
      (saver, .failed (.value "pending tool review is invalid"))
    else
      let record : PendingToolReview :=
        { graphNamespace := execution.task.graphNamespace
          runId := attempt.runId
          taskId := execution.task.taskId
          interruptId
          batchDigest := batch.digest }
      let saved := saver.putWrites execution.task.source [(toolReviewChannel, .review record)]
        (toolReviewOwner execution.task.taskId)
      match attempt.saving with
      | .completes => (saved, .paused interruptId)
      | .fails landed =>
        (if landed then saved else saver,
          .failed (.lifecycle "could not save pending tool review"))
      | .crashes landed => (if landed then saved else saver, .crashed)
  | some _, _ =>
    (saver, .failed (.lifecycle "tool review requires one native interrupt group"))

/-- One attempt of the middleware on the batch of the last model message. -/
def afterModel : Saver CheckpointConfig SavedValue × ReviewOutcome :=
  if attempt.crashes then (saver, .crashed)
  else
    match reviewBatch attempt.policy attempt.toolCalls with
    | .error error => (saver, .failed error)
    | .ok batch =>
      match attempt.checkSaved saver batch with
      | .error error => (saver, .failed error)
      | .ok () =>
        if batch.selected.isEmpty then (saver, .passed)
        else
          match attempt.response with
          | none => attempt.pause saver batch
          | some response =>
            match resumeBatch native batch attempt.toolCalls response with
            | .error error => (saver, .failed error)
            | .ok results =>
              (saver, .resumed (results.filterMap (·.1)) (results.filterMap (·.2)))

end ReviewAttempt

/-- What happens to a saver: an attempt of a task, or writes and checkpoints of others. -/
inductive ReviewEvent (γ : Type)
  | run (attempt : ReviewAttempt γ)
  | write (config : CheckpointConfig) (writes : List (String × SavedValue)) (owner : String)
    (foreign : ∀ taskId, owner ≠ toolReviewOwner taskId)
  | checkpoint (config : CheckpointConfig)

/-- The saver after an event. -/
def ReviewEvent.next (native : Json → ToolCall → γ → Except HitlError DecisionResult)
    (saver : Saver CheckpointConfig SavedValue) : ReviewEvent γ → Saver CheckpointConfig SavedValue
  | .run attempt => (attempt.afterModel native saver).1
  | .write config writes owner _ => saver.putWrites config writes owner
  | .checkpoint config => { saver with checkpoints := saver.checkpoints ++ [config] }

/-! ## Selection and decisions by position -/

/-- A policy selects the call at a position. -/
def ReviewPolicy.Reviews (policy : ReviewPolicy γ) (index : Nat) (call : ToolCall) (config : γ) :
    Prop :=
  policy.interruptOn.get? call.name = some config ∧
    policy.shouldInterrupt index call config = .ok true

section Selection

variable {policy : ReviewPolicy γ} {calls : List ToolCall} {selected : List (ReviewedCall γ)}
  {start : Nat}

/-- The head of a batch is selected or not, and the rest is selected after it. -/
theorem selectCalls_cons {call : ToolCall}
    (selects : selectCalls policy start (call :: calls) = .ok selected) :
    ∃ rest, selectCalls policy (start + 1) calls = .ok rest ∧
      (selected = rest ∧ (∀ config, ¬policy.Reviews start call config) ∨
        ∃ reviewed, selected = reviewed :: rest ∧ reviewed.index = start ∧
          policy.Reviews start call reviewed.config) := by
  unfold selectCalls at selects
  split at selects
  · next absent =>
      refine ⟨selected, selects, .inl ⟨rfl, fun config reviews => ?_⟩⟩
      rw [reviews.1] at absent
      cases absent
  · next config named =>
      obtain ⟨asked, answer, selects⟩ := bind_eq_ok.mp selects
      split at selects
      · next yes =>
          obtain ⟨⟨action, review⟩, -, selects⟩ := bind_eq_ok.mp selects
          obtain ⟨rest, others, selects⟩ := bind_eq_ok.mp selects
          obtain rfl := Except.ok.inj selects
          exact ⟨rest, others, .inr ⟨_, rfl, rfl, named, yes ▸ answer⟩⟩
      · next no =>
          refine ⟨selected, selects, .inl ⟨rfl, fun other reviews => no ?_⟩⟩
          obtain rfl := Option.some.inj (named.symm.trans reviews.1)
          exact Except.ok.inj (answer.symm.trans reviews.2)

theorem selectCalls_start_le (selects : selectCalls policy start calls = .ok selected) :
    ∀ reviewed ∈ selected, start ≤ reviewed.index := by
  induction calls generalizing start selected with
  | nil =>
    obtain rfl := Except.ok.inj selects
    exact fun _ member => absurd member List.not_mem_nil
  | cons call calls ih =>
    obtain ⟨rest, others, ⟨rfl, -⟩ | ⟨head, rfl, here, -⟩⟩ := selectCalls_cons selects
    · exact fun reviewed member => (Nat.le_succ _).trans (ih others reviewed member)
    · intro reviewed member
      rcases List.mem_cons.mp member with rfl | member
      · exact here.ge
      · exact (Nat.le_succ _).trans (ih others reviewed member)

/-- The selection has exactly the positions that the policy selects. -/
theorem selectCalls_find (selects : selectCalls policy start calls = .ok selected) {offset : Nat}
    {call : ToolCall} (here : calls[offset]? = some call) (config : γ) :
    (selected.find? fun reviewed => reviewed.index = start + offset).map (·.config) = some config ↔
      policy.Reviews (start + offset) call config := by
  induction calls generalizing start selected offset with
  | nil => simp at here
  | cons head calls ih =>
    obtain ⟨rest, others, split⟩ := selectCalls_cons selects
    cases offset with
    | zero =>
      obtain rfl : head = call := by simpa using here
      rw [Nat.add_zero]
      have later : (rest.find? fun reviewed => reviewed.index = start) = none := by
        refine List.find?_eq_none.mpr fun reviewed member => ?_
        have := selectCalls_start_le others reviewed member
        simp only [decide_eq_true_eq]
        omega
      rcases split with ⟨rfl, never⟩ | ⟨first, rfl, isFirst, reviews⟩
      · rw [later]
        exact ⟨fun found => (nomatch found), fun reviews => absurd reviews (never config)⟩
      · rw [List.find?_cons_of_pos (by simpa using isFirst), Option.map_some, Option.some.injEq]
        refine ⟨fun same => same ▸ reviews, fun other => ?_⟩
        exact Option.some.inj (reviews.1.symm.trans other.1)
    | succ offset =>
      have shifted : start + 1 + offset = start + (offset + 1) := by omega
      have rested := ih others (show calls[offset]? = some call by simpa using here)
      rw [shifted] at rested
      rcases split with ⟨rfl, -⟩ | ⟨first, rfl, isFirst, -⟩
      · exact rested
      · rw [List.find?_cons_of_neg (by simp only [decide_eq_true_eq]; omega)]
        exact rested

/-- There are as many selected calls as selected positions. -/
theorem selectCalls_length (selects : selectCalls policy start calls = .ok selected) :
    selected.length = (List.range calls.length).countP fun offset =>
      (selected.find? fun reviewed => reviewed.index = start + offset).isSome := by
  induction calls generalizing start selected with
  | nil =>
    obtain rfl := Except.ok.inj selects
    rfl
  | cons call calls ih =>
    obtain ⟨rest, others, split⟩ := selectCalls_cons selects
    have later := selectCalls_start_le others
    have counted := ih others
    rw [List.length_cons, List.range_succ_eq_map, List.countP_cons, List.countP_map]
    have shifted (found : List (ReviewedCall γ)) :
        (fun offset : Nat => (found.find? fun reviewed =>
          reviewed.index = start + 1 + offset).isSome) =
        (fun offset : Nat => (found.find? fun reviewed =>
          reviewed.index = start + offset).isSome) ∘ Nat.succ := by
      funext offset
      rw [Function.comp_apply, Nat.succ_eq_add_one, Nat.add_right_comm, Nat.add_assoc]
    rcases split with ⟨rfl, -⟩ | ⟨first, rfl, isFirst, -⟩
    · have none : (selected.find? fun reviewed => reviewed.index = start + 0) = none := by
        refine List.find?_eq_none.mpr fun reviewed member => ?_
        have := later reviewed member
        simp only [decide_eq_true_eq]
        omega
      rw [none, ← shifted, ← counted]
      rfl
    · have here : (List.find? (fun reviewed => reviewed.index = start + 0) (first :: rest)) =
          some first := List.find?_cons_of_pos (by simpa using isFirst)
      have past : (fun offset : Nat => ((first :: rest).find? fun reviewed =>
          reviewed.index = start + 1 + offset).isSome) =
            fun offset => (rest.find? fun reviewed =>
              reviewed.index = start + 1 + offset).isSome := by
        funext offset
        rw [List.find?_cons_of_neg (by simp only [decide_eq_true_eq]; omega)]
      rw [here, ← shifted, past, ← counted]
      rfl

end Selection

/-- How many positions of a batch from one on are selected before an offset. -/
def ReviewBatch.reviewedBefore (batch : ReviewBatch γ) (start offset : Nat) : Nat :=
  (List.range offset).countP fun index => (batch.config? (start + index)).isSome

section Decisions

variable {native : Json → ToolCall → γ → Except HitlError DecisionResult} {batch : ReviewBatch γ}
  {calls : List ToolCall} {decisions : List Json} {results : List DecisionResult} {start : Nat}

theorem reviewedBefore_succ (offset : Nat) :
    batch.reviewedBefore start (offset + 1) =
      (if (batch.config? start).isSome then 1 else 0) + batch.reviewedBefore (start + 1) offset := by
  simp only [ReviewBatch.reviewedBefore, List.range_succ_eq_map, List.countP_cons, List.countP_map,
    Nat.add_zero, Function.comp_def]
  have shifted : (fun index : Nat => (batch.config? (start + index.succ)).isSome) =
      fun index => (batch.config? (start + 1 + index)).isSome := by
    funext index
    rw [Nat.succ_eq_add_one, Nat.add_right_comm, Nat.add_assoc]
  rw [shifted]
  exact Nat.add_comm _ _

/-- The result at a position: a call without a review passes, and a reviewed one meets the decision
of its rank. -/
theorem applyDecisions_ok (applied : applyDecisions native batch start calls decisions = .ok results) :
    results.length = calls.length ∧ ∀ offset call, calls[offset]? = some call →
      (batch.config? (start + offset) = none → results[offset]? = some (some call, none)) ∧
      ∀ config, batch.config? (start + offset) = some config → ∃ decision result,
        decisions[batch.reviewedBefore start offset]? = some decision ∧
          processDecision native decision call config = .ok result ∧
            results[offset]? = some result := by
  induction calls generalizing start decisions results with
  | nil =>
    obtain rfl := Except.ok.inj applied
    exact ⟨rfl, fun offset call here => absurd here (by simp)⟩
  | cons head calls ih =>
    unfold applyDecisions at applied
    have shifted (offset : Nat) : start + 1 + offset = start + (offset + 1) := by omega
    split at applied
    · next unreviewed =>
        obtain ⟨rest, others, applied⟩ := bind_eq_ok.mp applied
        obtain rfl := Except.ok.inj applied
        obtain ⟨same, each⟩ := ih others
        refine ⟨congrArg (· + 1) same, fun offset call here => ?_⟩
        cases offset with
        | zero =>
          obtain rfl : head = call := by simpa using here
          exact ⟨fun _ => rfl, fun config named => (nomatch unreviewed.symm.trans named)⟩
        | succ offset =>
          obtain ⟨passes, meets⟩ := each offset call (by simpa using here)
          rw [shifted] at passes meets
          refine ⟨by simpa using passes, fun config named => ?_⟩
          obtain ⟨decision, result, ranked, processed, shown⟩ := meets config named
          refine ⟨decision, result, ?_, processed, by simpa using shown⟩
          simpa [reviewedBefore_succ, unreviewed] using ranked
    · next config reviewed =>
        split at applied
        · cases applied
        · next decision decisions =>
            obtain ⟨result, processed, applied⟩ := bind_eq_ok.mp applied
            obtain ⟨rest, others, applied⟩ := bind_eq_ok.mp applied
            obtain rfl := Except.ok.inj applied
            obtain ⟨same, each⟩ := ih others
            refine ⟨congrArg (· + 1) same, fun offset call here => ?_⟩
            cases offset with
            | zero =>
              obtain rfl : head = call := by simpa using here
              refine ⟨fun none => (nomatch reviewed.symm.trans none), fun other named => ?_⟩
              obtain rfl := Option.some.inj (reviewed.symm.trans named)
              exact ⟨decision, result, rfl, processed, rfl⟩
            | succ offset =>
              obtain ⟨passes, meets⟩ := each offset call (by simpa using here)
              rw [shifted] at passes meets
              refine ⟨by simpa using passes, fun config named => ?_⟩
              obtain ⟨later, result, ranked, processed, shown⟩ := meets config named
              refine ⟨later, result, ?_, processed, by simpa using shown⟩
              simpa [reviewedBefore_succ, reviewed, Nat.add_comm 1] using ranked

/-- A cancelled call is not passed on and has one result, which carries its identity; every other
decision is the one that the library makes. -/
theorem processDecision_ok {decision : Json} {call : ToolCall} {config : γ} {result : DecisionResult}
    (processed : processDecision native decision call config = .ok result) :
    (isCancel decision = true → ∃ id, call.id = some id ∧
      result = (none, some (cancelledMessage call.name id))) ∧
      (isCancel decision = false → native decision call config = .ok result) := by
  unfold processDecision at processed
  split at processed
  · split at processed
    · next cancels =>
        rw [cancels]
        refine ⟨fun _ => ?_, fun other => (nomatch other)⟩
        split at processed
        · cases processed
        · next id named =>
            split_ifs at processed
            exact ⟨id, named, (Except.ok.inj processed).symm⟩
    · next other => exact ⟨fun cancels => absurd cancels other, fun _ => processed⟩
  · cases processed

theorem resumeBatch_ok {response : Json}
    (resumed : resumeBatch native batch calls response = .ok results) :
    ∃ decisions, responseDecisions response = .ok decisions ∧
      decisions.length = batch.selected.length ∧
        applyDecisions native batch 0 calls decisions = .ok results := by
  obtain ⟨decisions, read, resumed⟩ := bind_eq_ok.mp resumed
  split at resumed
  · cases resumed
  · next complete => exact ⟨decisions, read, not_not.mp complete, resumed⟩

end Decisions

/-! ## The saved records -/

theorem toolReviewOwner_inj {taskId other : String}
    (same : toolReviewOwner taskId = toolReviewOwner other) : taskId = other :=
  (String.append_right_inj _).mp same

/-- The dedicated owners hold records of reviews only. -/
def OnlyReviews (slots : WriteSlots SavedValue) : Prop :=
  ∀ taskId position stored, slots.get? (toolReviewOwner taskId, position) = some stored →
    position = 0 ∧ ∃ record, stored = (toolReviewChannel, .review record)

/-- This holds of every checkpoint. -/
def Clean (saver : Saver CheckpointConfig SavedValue) : Prop :=
  ∀ config, OnlyReviews (saver.slots config)

/-- The record of a task. -/
def record? (slots : WriteSlots SavedValue) (taskId : String) : Option PendingToolReview :=
  (slots.get? (toolReviewOwner taskId, 0)).bind fun stored =>
    match stored.2 with
    | .review record => some record
    | .other => none

section Records

variable {slots : WriteSlots SavedValue} {taskId : String} {record : PendingToolReview}

/-- Reading the pending writes finds the record of the task. -/
theorem pendingToolReview_eq (only : OnlyReviews slots) :
    pendingToolReview slots.pendingWrites taskId = .ok (record? slots taskId) := by
  have rows : slots.pendingWrites.filter (fun write =>
      write.owner = toolReviewOwner taskId ∧ write.channel = toolReviewChannel) =
        (slots.get? (toolReviewOwner taskId, 0)).toList.map fun stored =>
          { owner := toolReviewOwner taskId, channel := stored.1, value := stored.2 } := by
    have same : slots.entries.filter (fun entry =>
        decide (entry.1.1 = toolReviewOwner taskId ∧ entry.2.1 = toolReviewChannel)) =
          slots.entries.filter fun entry => entry.1 = (toolReviewOwner taskId, 0) := by
      refine List.filter_congr fun entry member => ?_
      obtain ⟨⟨owner, position⟩, stored⟩ := entry
      rw [decide_eq_decide]
      constructor
      · rintro ⟨rfl, -⟩
        obtain ⟨rfl, -⟩ := only _ _ _ (Dict.get?_eq_some_iff.mpr member)
        rfl
      · intro same
        obtain ⟨rfl, rfl⟩ := Prod.mk.inj same
        obtain ⟨-, record, rfl⟩ := only _ _ _ (Dict.get?_eq_some_iff.mpr member)
        exact ⟨rfl, rfl⟩
    rw [WriteSlots.pendingWrites, List.filter_map]
    refine (congrArg _ same).trans ?_
    rw [Dict.filter_entries_key, List.map_map]
    rfl
  unfold pendingToolReview
  rw [rows, record?]
  cases stored : slots.get? (toolReviewOwner taskId, 0) with
  | none => rfl
  | some value =>
    obtain ⟨-, record, rfl⟩ := only _ _ _ stored
    rfl

/-- Saving a record keeps the one that is there. -/
theorem record?_putAll (only : OnlyReviews slots) (other : String) :
    record? (slots.putAll (toolReviewOwner taskId) [(toolReviewChannel, .review record)]) other =
      (record? slots other <|> if other = taskId then some record else none) := by
  have ordinary : specialSlot? toolReviewChannel = none := by decide
  unfold record?
  rw [WriteSlots.get?_putAll_ordinary ordinary]
  cases stored : slots.get? (toolReviewOwner other, 0) with
  | some value =>
    obtain ⟨-, record, rfl⟩ := only _ _ _ stored
    rfl
  | none =>
    by_cases same : other = taskId
    · simp [same]
    · have apart : toolReviewOwner other ≠ toolReviewOwner taskId := fun equal =>
        same (toolReviewOwner_inj equal)
      simp [same, apart]

theorem OnlyReviews.putAll (only : OnlyReviews slots) :
    OnlyReviews
      (slots.putAll (toolReviewOwner taskId) [(toolReviewChannel, .review record)]) := by
  have ordinary : specialSlot? toolReviewChannel = none := by decide
  intro other position stored found
  rw [WriteSlots.get?_putAll_ordinary ordinary] at found
  cases before : slots.get? (toolReviewOwner other, position) with
  | some value =>
    rw [before] at found
    exact only _ _ _ (before.trans found)
  | none =>
    rw [before] at found
    have new : (if toolReviewOwner other = toolReviewOwner taskId ∧ position = 0
      then some (toolReviewChannel, SavedValue.review record) else none) = some stored := found
    split at new
    · next here => exact ⟨here.2, record, (Option.some.inj new).symm⟩
    · cases new

theorem OnlyReviews.foreign (only : OnlyReviews slots) {writes : List (String × SavedValue)}
    {owner : String} (foreign : ∀ taskId, owner ≠ toolReviewOwner taskId) :
    OnlyReviews (slots.putAll owner writes) := by
  intro other position stored found
  rw [WriteSlots.get?_putAll_of_owner_ne (foreign other).symm] at found
  exact only _ _ _ found

theorem record?_foreign {writes : List (String × SavedValue)} {owner : String}
    (foreign : ∀ taskId, owner ≠ toolReviewOwner taskId) :
    record? (slots.putAll owner writes) taskId = record? slots taskId := by
  rw [record?, WriteSlots.get?_putAll_of_owner_ne (foreign taskId).symm, record?]

end Records

/-! ## Attempts -/

namespace ReviewAttempt

variable {native : Json → ToolCall → γ → Except HitlError DecisionResult} {attempt : ReviewAttempt γ}
  {saver : Saver CheckpointConfig SavedValue} {batch : ReviewBatch γ}

/-- The record of the task of an attempt, if it runs with a checkpointer. -/
def saved? (attempt : ReviewAttempt γ) (saver : Saver CheckpointConfig SavedValue) :
    Option PendingToolReview :=
  attempt.execution.bind fun execution =>
    record? (saver.slots execution.task.source) execution.task.taskId

/-- A record is of the scope of the attempt and of the batch. -/
structure Matches (attempt : ReviewAttempt γ) (batch : ReviewBatch γ) (record : PendingToolReview) :
    Prop where
  task : attempt.execution.map (·.task.taskId) = some record.taskId
  scope : attempt.execution.map (·.task.graphNamespace) = some record.graphNamespace
  digest : record.batchDigest = batch.digest

/-- The check passes only a task whose record, if there is one, matches the batch. -/
theorem checkSaved_ok (clean : Clean saver)
    (checked : attempt.checkSaved saver batch = .ok ()) :
    ∀ record, attempt.saved? saver = some record → attempt.Matches batch record := by
  unfold checkSaved at checked
  intro record saved
  cases runs : attempt.execution with
  | none => simp [saved?, runs] at saved
  | some execution =>
    simp only [saved?, runs, Option.bind_some] at saved
    simp only [runs] at checked
    split at checked
    · cases checked
    · split at checked
      · cases checked
      · next writes present =>
          have rows : (saver.slots execution.task.source).pendingWrites = writes := by
            unfold Saver.getTuple at present
            split at present
            · exact Option.some.inj present
            · cases present
          rw [← rows, pendingToolReview_eq (clean _), saved] at checked
          simp only [bind, Except.bind] at checked
          split at checked
          · cases checked
          · next same =>
              simp only [not_or, not_not] at same
              exact ⟨by rw [runs, same.1]; rfl, by rw [runs, same.2.1]; rfl, same.2.2⟩

theorem checkSaved_refuses (clean : Clean saver)
    {record : PendingToolReview} (saved : attempt.saved? saver = some record)
    (other : ¬attempt.Matches batch record) : ∃ error, attempt.checkSaved saver batch = .error error := by
  cases checked : attempt.checkSaved saver batch with
  | error error => exact ⟨error, rfl⟩
  | ok => exact absurd (checkSaved_ok clean checked record saved) other

/-- The batch of an attempt was accepted. -/
structure Accepted (attempt : ReviewAttempt γ) (saver : Saver CheckpointConfig SavedValue)
    (batch : ReviewBatch γ) : Prop where
  made : reviewBatch attempt.policy attempt.toolCalls = .ok batch
  checked : attempt.checkSaved saver batch = .ok ()

/-- The record that an attempt saves for its batch. -/
structure Saves (attempt : ReviewAttempt γ) (saver after : Saver CheckpointConfig SavedValue)
    (batch : ReviewBatch γ) (execution : ReviewExecution) (record : PendingToolReview) : Prop where
  accepted : attempt.Accepted saver batch
  runs : attempt.execution = some execution
  isMatch : attempt.Matches batch record
  written : after = saver.putWrites execution.task.source [(toolReviewChannel, .review record)]
    (toolReviewOwner execution.task.taskId)

/-- What a pause does: it fails or crashes, or it shows the interrupt after the record is saved. -/
theorem pause_cases (accepted : attempt.Accepted saver batch) :
    ((attempt.pause saver batch).1 = saver ∨ ∃ execution record,
      attempt.Saves saver (attempt.pause saver batch).1 batch execution record) ∧
      ((∃ error, (attempt.pause saver batch).2 = .failed error) ∨
        (attempt.pause saver batch).2 = .crashed ∨
        ∃ interruptId execution record, (attempt.pause saver batch).2 = .paused interruptId ∧
          attempt.Saves saver (attempt.pause saver batch).1 batch execution record) := by
  unfold pause
  split
  · exact ⟨.inl rfl, .inl ⟨_, rfl⟩⟩
  · next execution interruptId runs _ =>
      split
      · exact ⟨.inl rfl, .inl ⟨_, rfl⟩⟩
      · have saves := fun after written => (⟨accepted, runs, ⟨by rw [runs]; rfl, by rw [runs]; rfl,
          rfl⟩, written⟩ : attempt.Saves saver after batch execution
            { graphNamespace := execution.task.graphNamespace
              runId := attempt.runId
              taskId := execution.task.taskId
              interruptId
              batchDigest := batch.digest })
        dsimp only
        split
        · exact ⟨.inr ⟨_, _, saves _ rfl⟩, .inr (.inr ⟨_, _, _, rfl, saves _ rfl⟩)⟩
        · next landed _ =>
            refine ⟨?_, .inl ⟨_, rfl⟩⟩
            cases landed
            · exact .inl rfl
            · exact .inr ⟨_, _, saves _ rfl⟩
        · next landed _ =>
            refine ⟨?_, .inr (.inl rfl)⟩
            cases landed
            · exact .inl rfl
            · exact .inr ⟨_, _, saves _ rfl⟩
  · exact ⟨.inl rfl, .inl ⟨_, rfl⟩⟩

variable (attempt native saver) in
/-- What one attempt does to the saver. -/
theorem afterModel_saver : (attempt.afterModel native saver).1 = saver ∨
    ∃ batch execution record,
      attempt.Saves saver (attempt.afterModel native saver).1 batch execution record := by
  unfold afterModel
  split
  · exact .inl rfl
  · split
    · exact .inl rfl
    · next batch made =>
        split
        · exact .inl rfl
        · next checked =>
            split
            · exact .inl rfl
            · split
              · exact (pause_cases ⟨made, checked⟩).1.imp_right fun ⟨execution, record, saves⟩ =>
                  ⟨batch, execution, record, saves⟩
              · split <;> exact .inl rfl

/-- Decisions are used for an accepted batch only. -/
theorem afterModel_resumed {calls : List ToolCall} {results : List ToolMessage}
    (resumed : (attempt.afterModel native saver).2 = .resumed calls results) :
    ∃ batch response decided, attempt.Accepted saver batch ∧ attempt.response = some response ∧
      resumeBatch native batch attempt.toolCalls response = .ok decided ∧
        calls = decided.filterMap (·.1) ∧ results = decided.filterMap (·.2) := by
  unfold afterModel at resumed
  split at resumed
  · cases resumed
  · split at resumed
    · cases resumed
    · next batch made =>
        split at resumed
        · cases resumed
        · next checked =>
            split at resumed
            · cases resumed
            · split at resumed
              · have accepted : attempt.Accepted saver batch := ⟨made, checked⟩
                obtain ⟨-, ⟨_, failed⟩ | crashed | ⟨_, _, _, paused, -⟩⟩ := pause_cases accepted
                · cases failed.symm.trans resumed
                · cases crashed.symm.trans resumed
                · cases paused.symm.trans resumed
              · next response given =>
                  split at resumed
                  · cases resumed
                  · next decided applied =>
                      obtain ⟨rfl, rfl⟩ := ReviewOutcome.resumed.inj resumed
                      exact ⟨batch, response, decided, ⟨made, checked⟩, given, applied, rfl, rfl⟩

/-- Only the pause of an accepted batch shows an interrupt. -/
theorem afterModel_eq_pause {interruptId : String} :
    (attempt.afterModel native saver).2 = .paused interruptId →
      ∃ batch, attempt.Accepted saver batch ∧
        attempt.afterModel native saver = attempt.pause saver batch := by
  unfold afterModel
  cases attempt.crashes with
  | true => exact fun paused => (nomatch paused)
  | false =>
    cases made : reviewBatch attempt.policy attempt.toolCalls with
    | error error => exact fun paused => (nomatch paused)
    | ok batch =>
      dsimp only
      cases checked : attempt.checkSaved saver batch with
      | error error => exact fun paused => (nomatch paused)
      | ok =>
        dsimp only
        cases batch.selected.isEmpty with
        | true => exact fun paused => (nomatch paused)
        | false =>
          cases attempt.response with
          | none => exact fun _ => ⟨batch, ⟨made, checked⟩, rfl⟩
          | some response =>
            dsimp only
            cases resumeBatch native batch attempt.toolCalls response with
            | error error => exact fun paused => (nomatch paused)
            | ok decided => exact fun paused => (nomatch paused)

theorem afterModel_paused {interruptId : String}
    (paused : (attempt.afterModel native saver).2 = .paused interruptId) :
    ∃ batch execution record,
      attempt.Saves saver (attempt.afterModel native saver).1 batch execution record := by
  obtain ⟨batch, accepted, same⟩ := afterModel_eq_pause paused
  rw [same] at paused ⊢
  obtain ⟨-, ⟨_, failed⟩ | crashed | ⟨_, execution, record, -, saves⟩⟩ := pause_cases accepted
  · cases failed.symm.trans paused
  · cases crashed.symm.trans paused
  · exact ⟨batch, execution, record, saves⟩

theorem afterModel_refuses (clean : Clean saver)
    (made : reviewBatch attempt.policy attempt.toolCalls = .ok batch) {record : PendingToolReview}
    (saved : attempt.saved? saver = some record) (other : ¬attempt.Matches batch record) :
    (attempt.afterModel native saver).1 = saver ∧
      ((attempt.afterModel native saver).2 = .crashed ∨
        ∃ error, (attempt.afterModel native saver).2 = .failed error) := by
  obtain ⟨error, refused⟩ := checkSaved_refuses clean saved other
  unfold afterModel
  split
  · exact ⟨rfl, .inl rfl⟩
  · simp only [made, refused]
    exact ⟨trivial, .inr ⟨error, rfl⟩⟩

end ReviewAttempt

/-! ## Runs -/

section Runs

variable {native : Json → ToolCall → γ → Except HitlError DecisionResult}
  {saver : Saver CheckpointConfig SavedValue}

theorem next_clean (event : ReviewEvent γ) (clean : Clean saver) :
    Clean (event.next native saver) := by
  intro config
  cases event with
  | run attempt =>
    rcases attempt.afterModel_saver native saver with same | ⟨_, _, _, saves⟩
    · rw [ReviewEvent.next, same]
      exact clean config
    · rw [ReviewEvent.next, saves.written, Saver.slots_putWrites]
      split
      · exact (clean _).putAll
      · exact clean config
  | write other writes owner foreign =>
    rw [ReviewEvent.next, Saver.slots_putWrites]
    split
    · exact (clean _).foreign foreign
    · exact clean config
  | checkpoint other => exact clean config

/-- A record stays as it is. -/
theorem next_record (event : ReviewEvent γ) (clean : Clean saver)
    {config : CheckpointConfig} {taskId : String} {record : PendingToolReview}
    (saved : record? (saver.slots config) taskId = some record) :
    record? ((event.next native saver).slots config) taskId = some record := by
  cases event with
  | run attempt =>
    rcases attempt.afterModel_saver native saver with same | ⟨_, _, _, saves⟩
    · rw [ReviewEvent.next, same, saved]
    · rw [ReviewEvent.next, saves.written, Saver.slots_putWrites]
      split
      · next here =>
          subst here
          rw [record?_putAll (clean _), saved]
          rfl
      · exact saved
  | write other writes owner foreign =>
    rw [ReviewEvent.next, Saver.slots_putWrites]
    split
    · next here =>
        subst here
        rw [record?_foreign foreign, saved]
    · exact saved
  | checkpoint other => exact saved

theorem run_clean (clean : Clean saver)
    (events : List (ReviewEvent γ)) :
    Clean (Machine.run (ReviewEvent.next native) saver events) :=
  Machine.run_invariant (fun _ event clean => next_clean event clean) clean

variable (native) in
theorem run_record (clean : Clean saver)
    (events : List (ReviewEvent γ)) {config : CheckpointConfig} {taskId : String}
    {record : PendingToolReview} (saved : record? (saver.slots config) taskId = some record) :
    record? ((Machine.run (ReviewEvent.next native) saver events).slots config) taskId =
      some record := by
  let Kept (saver : Saver CheckpointConfig SavedValue) : Prop :=
    Clean saver ∧ record? (saver.slots config) taskId = some record
  have both : Kept (Machine.run (ReviewEvent.next native) saver events) :=
    Machine.run_invariant (fun _ event ⟨clean, saved⟩ =>
      ⟨next_clean event clean, next_record event clean saved⟩) ⟨clean, saved⟩
  exact both.2

variable {attempt : ReviewAttempt γ} {batch : ReviewBatch γ}

/-- After a pause the task has a record of the batch. -/
theorem ReviewAttempt.Saves.saved {after : Saver CheckpointConfig SavedValue}
    {execution : ReviewExecution} {record : PendingToolReview}
    (saves : attempt.Saves saver after batch execution record)
    (clean : Clean saver) :
    ∃ kept, attempt.saved? after = some kept ∧ attempt.Matches batch kept := by
  have slots : record? (after.slots execution.task.source) execution.task.taskId =
      (record? (saver.slots execution.task.source) execution.task.taskId <|> some record) := by
    rw [saves.written, Saver.slots_putWrites, if_pos rfl, record?_putAll (clean _), if_pos rfl]
  cases before : record? (saver.slots execution.task.source) execution.task.taskId with
  | none =>
    rw [before] at slots
    exact ⟨record, by rw [saved?, saves.runs]; exact slots, saves.isMatch⟩
  | some kept =>
    rw [before] at slots
    have stays : attempt.saved? saver = some kept := by
      rw [saved?, saves.runs]
      exact before
    exact ⟨kept, by rw [saved?, saves.runs]; exact slots,
      checkSaved_ok clean saves.accepted.checked kept stays⟩

/-- How the decisions of a response meet the calls of a batch. -/
structure ReviewAttempt.Consumes (native : Json → ToolCall → γ → Except HitlError DecisionResult)
    (attempt : ReviewAttempt γ) (batch : ReviewBatch γ) (decisions : List Json)
    (decided : List DecisionResult) : Prop where
  given : ∃ response, attempt.response = some response ∧ responseDecisions response = .ok decisions
  complete : decisions.length = batch.selected.length
  reviewed : batch.selected.length = batch.reviewedBefore 0 attempt.toolCalls.length
  each : decided.length = attempt.toolCalls.length
  selected : ∀ index call, attempt.toolCalls[index]? = some call → ∀ config,
    batch.config? index = some config ↔ attempt.policy.Reviews index call config
  passes : ∀ index call, attempt.toolCalls[index]? = some call → batch.config? index = none →
    decided[index]? = some (some call, none)
  meets : ∀ index call config, attempt.toolCalls[index]? = some call →
    batch.config? index = some config → ∃ decision result,
      decisions[batch.reviewedBefore 0 index]? = some decision ∧ decided[index]? = some result ∧
        (isCancel decision = true → ∃ id, call.id = some id ∧
          result = (none, some (cancelledMessage call.name id))) ∧
        (isCancel decision = false → native decision call config = .ok result)

theorem ReviewAttempt.Accepted.consumes {response : Json} {decided : List DecisionResult}
    (accepted : attempt.Accepted saver batch) (given : attempt.response = some response)
    (resumed : resumeBatch native batch attempt.toolCalls response = .ok decided) :
    ∃ decisions, attempt.Consumes native batch decisions decided := by
  obtain ⟨decisions, read, complete, applied⟩ := resumeBatch_ok resumed
  obtain ⟨selected, selects, made⟩ := bind_eq_ok.mp accepted.made
  obtain ⟨ids, -, made⟩ := bind_eq_ok.mp made
  obtain rfl := Except.ok.inj made
  obtain ⟨same, each⟩ := applyDecisions_ok applied
  refine ⟨decisions, ⟨response, given, read⟩, complete, ?_, same, ?_, ?_, ?_⟩
  · have counted := selectCalls_length selects
    simpa only [ReviewBatch.reviewedBefore, ReviewBatch.config?, Option.isSome_map] using counted
  · intro index call here config
    have found := selectCalls_find selects here config
    rw [Nat.zero_add] at found
    exact found
  · intro index call here unreviewed
    exact (each index call here).1 (by rwa [Nat.zero_add])
  · intro index call config here reviewed
    obtain ⟨decision, result, ranked, processed, shown⟩ :=
      (each index call here).2 config (by rwa [Nat.zero_add])
    obtain ⟨cancels, native⟩ := processDecision_ok processed
    exact ⟨decision, result, ranked, shown, cancels, native⟩

/-- Two attempts are of one task. -/
def ReviewAttempt.SameTask (first second : ReviewAttempt γ) : Prop :=
  ∃ execution other, first.execution = some execution ∧ second.execution = some other ∧
    execution.task.source = other.task.source ∧ execution.task.taskId = other.task.taskId

theorem ReviewAttempt.SameTask.saved? {first second : ReviewAttempt γ}
    (same : first.SameTask second) (saver : Saver CheckpointConfig SavedValue) :
    first.saved? saver = second.saved? saver := by
  obtain ⟨execution, other, runs, runsToo, source, taskId⟩ := same
  simp only [ReviewAttempt.saved?, runs, runsToo, Option.bind_some, source, taskId]

end Runs

/-- Along every run, an attempt uses decisions only for a batch that matches the record of its task,
and then hands them out by position; an interrupt is visible only with a record of its batch; a task
with another record is refused, whatever it selects now; and decisions that follow a visible
interrupt of the task are for the batch that the interrupt showed. -/
theorem decisions_reach_batch (native : Json → ToolCall → γ → Except HitlError DecisionResult)
    (saver : Saver CheckpointConfig SavedValue) (clean : Clean saver)
    (events : List (ReviewEvent γ)) (attempt : ReviewAttempt γ) :
    let reached := Machine.run (ReviewEvent.next native) saver events
    let (after, outcome) := attempt.afterModel native reached
    (∀ calls results, outcome = .resumed calls results → ∃ batch decisions decided,
      reviewBatch attempt.policy attempt.toolCalls = .ok batch ∧
        (∀ record, attempt.saved? reached = some record → attempt.Matches batch record) ∧
        attempt.Consumes native batch decisions decided ∧
        calls = decided.filterMap (·.1) ∧ results = decided.filterMap (·.2) ∧
        ∀ before earlier rest interruptId, events = before ++ .run earlier :: rest →
          (earlier.afterModel native (Machine.run (ReviewEvent.next native) saver before)).2 =
            .paused interruptId → earlier.SameTask attempt →
              (reviewBatch earlier.policy earlier.toolCalls).map (·.digest) = .ok batch.digest) ∧
    (∀ interruptId, outcome = .paused interruptId → ∃ batch record,
      reviewBatch attempt.policy attempt.toolCalls = .ok batch ∧
        attempt.saved? after = some record ∧ attempt.Matches batch record) ∧
    ∀ batch record, reviewBatch attempt.policy attempt.toolCalls = .ok batch →
      attempt.saved? reached = some record → ¬attempt.Matches batch record →
        after = reached ∧ (outcome = .crashed ∨ ∃ error, outcome = .failed error) := by
  intro reached
  have reachedClean : Clean reached := run_clean clean events
  refine ⟨fun calls results resumed => ?_, fun interruptId paused => ?_,
    fun batch record made saved other => ReviewAttempt.afterModel_refuses reachedClean made saved other⟩
  · obtain ⟨batch, response, decided, accepted, given, applied, passed, shown⟩ :=
      ReviewAttempt.afterModel_resumed resumed
    obtain ⟨decisions, consumes⟩ := accepted.consumes given applied
    refine ⟨batch, decisions, decided, accepted.made,
      ReviewAttempt.checkSaved_ok reachedClean accepted.checked, consumes, passed, shown, ?_⟩
    rintro before earlier rest interruptId rfl paused same
    obtain ⟨first, execution, record, saves⟩ := ReviewAttempt.afterModel_paused paused
    have early : Clean (Machine.run (ReviewEvent.next native) saver before) :=
      run_clean clean before
    obtain ⟨kept, saved, matched⟩ := saves.saved early
    -- The record of the pause is still there when the attempt starts.
    have still : attempt.saved? reached = some kept := by
      rw [← same.saved?]
      rw [ReviewAttempt.saved?, saves.runs] at saved ⊢
      have later := run_record native (next_clean (.run earlier) early) rest saved
      rwa [← Machine.run_cons, ← Machine.run_append] at later
    have agrees := ReviewAttempt.checkSaved_ok reachedClean accepted.checked kept still
    rw [saves.accepted.made]
    exact congrArg Except.ok (matched.digest.symm.trans agrees.digest)
  · obtain ⟨batch, execution, record, saves⟩ := ReviewAttempt.afterModel_paused paused
    obtain ⟨kept, saved, matched⟩ := saves.saved reachedClean
    exact ⟨batch, kept, saves.accepted.made, saved, matched⟩

/-- A saver with one checkpoint and no writes. -/
def sampleSaver : Saver CheckpointConfig SavedValue where
  checkpoints := [{ threadId := "thread", checkpointNs := "", checkpointId := "source" }]

/-- Reads need no review, deletions do; the deletion is cancelled. -/
def sampleReview : ReviewAttempt Unit where
  toolCalls := [{ name := "read", args := [], id := some "call-1" },
    { name := "delete", args := [], id := some "call-2" }]
  policy :=
    { interruptOn := Dict.empty.insert "delete" ()
      shouldInterrupt := fun _ _ _ => .ok true
      createActionAndConfig := fun _ _ _ => .ok (.object [], .object []) }
  execution := some
    { task := { threadId := "thread", checkpointNs := "middleware:1", checkpointId := "source",
                taskId := "task" }
      durability := some "sync" }
  response := some (.object [("decisions",
    .array [.object [("type", .string cancelDecisionType)]])])
  unresumed := nofun

theorem decisions_reach_batch_cancelled :
    ∃ batch decisions decided,
      reviewBatch sampleReview.policy sampleReview.toolCalls = .ok batch ∧
        sampleReview.Consumes (fun _ call _ => .ok (some call, none)) batch decisions decided ∧
        decided.filterMap (·.1) = [{ name := "read", args := [], id := some "call-1" }] ∧
        decided.filterMap (·.2) = [cancelledMessage "delete" "call-2"] := by
  have clean : Clean sampleSaver := fun config taskId position stored found => nomatch found
  obtain ⟨resumes, -⟩ := decisions_reach_batch
    (fun _ call _ => .ok (some call, none)) sampleSaver clean [] sampleReview
  obtain ⟨batch, decisions, decided, made, -, consumes, passed, shown, -⟩ :=
    resumes [{ name := "read", args := [], id := some "call-1" }]
      [cancelledMessage "delete" "call-2"] rfl
  exact ⟨batch, decisions, decided, made, consumes, passed.symm, shown.symm⟩

end Tinkerfin.Checkpoint
