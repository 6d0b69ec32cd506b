import Tinkerfin.Plan.Workflow

/-!
# Handing an approved Plan to the native graph

One request after another is routed between the planning graph and the native graph, which share the
channels of a thread.  A request stages an approved Plan on the native graph, marks it accepted, runs
native work and marks it completed, each by one atomic update, and a crash may end it between any two
of them.  What the execution engine reports about pending native work comes with the events.
-/

namespace Tinkerfin.Plan

/-! ## Threads -/

inductive CheckpointRole
  | native
  | planning
  deriving DecidableEq

/-- A saved checkpoint, with the channels that the native graph reads back. -/
structure NativeCheckpoint where
  id : NonBlankText
  role : CheckpointRole
  messages : List BaseMessage
  digest : Option String
  deriving DecidableEq

/-- The channels of a thread and its checkpoints, newest first.  A channel keeps its value until a
graph writes it; `digest` is the native graph's private record of the Plan staged on it. -/
structure PlanThread (C : Type) where
  planning : PlanningState C := {}
  digest : Option String := none
  checkpoints : List NativeCheckpoint := []

inductive HandoffError
  | plan (error : PlanError)
  | stateConflict (message : String)
  /-- The event does not apply where the request stands. -/
  | disabled
  deriving DecidableEq

def readable {α : Type} (read : Except PlanError α) : Except HandoffError α :=
  read.mapError .plan

variable {F C : Type}

def PlanThread.role (thread : PlanThread C) : Option CheckpointRole :=
  thread.checkpoints.head?.map (·.role)

/-- One atomic update: the channels that it leaves, under a new identity. -/
def PlanThread.commit (thread : PlanThread C) (role : CheckpointRole) (id : NonBlankText)
    (planning : PlanningState C) (digest : Option String) : Except HandoffError (PlanThread C) :=
  if thread.checkpoints.any (·.id = id) then .error .disabled
  else .ok
    { planning, digest
      checkpoints := { id, role, messages := planning.messages, digest } :: thread.checkpoints }

/-! ## Native evidence -/

/-- What the native graph reads from one checkpoint. -/
structure NativeSnapshot where
  id : Option NonBlankText
  messages : List BaseMessage
  digest : Option String

def nativeCheckpointIdForPlan (plan : PlanState C) : Option NonBlankText :=
  plan.handoff.bind fun handoff => handoff.completedCheckpointId <|> handoff.nativeCheckpointId

/-- The checkpoint that proves the hand-off of a Plan, or else the newest one. -/
def nativeSnapshotForPlan (thread : PlanThread C) (plan : PlanState C) : NativeSnapshot :=
  match nativeCheckpointIdForPlan plan with
  | none =>
    { id := thread.checkpoints.head?.map (·.id)
      messages := thread.planning.messages, digest := thread.digest }
  | some id =>
    match thread.checkpoints.find? (·.id = id) with
    | none => { id := none, messages := [], digest := none }
    | some saved => { id := some saved.id, messages := saved.messages, digest := saved.digest }

/-- The user messages with an identity. -/
def requestsNamed (messages : List BaseMessage) (id : String) : List BaseMessage :=
  messages.filter fun message => message.role = .human && message.id = id

/-- The request that a hand-off is for, as the planning graph keeps it.  `exposes` tells whether the
text of a message holds the public marker of a digest. -/
def handoffUserMessage (exposes : BaseMessage → String → Bool) (messages : List BaseMessage)
    (handoff : PlanHandoff) : Except HandoffError BaseMessage :=
  match requestsNamed messages handoff.messageId.text with
  | [message] =>
    if exposes message handoff.digest then
      .error (.stateConflict "Planning checkpoint contains a public handoff marker")
    else .ok message
  | _ => .error (.plan (.runtime "Plan handoff message is missing or duplicated"))

/-- The request that a native checkpoint has staged for a hand-off. -/
def snapshotHandoffMessage (exposes : BaseMessage → String → Bool) (snapshot : NativeSnapshot)
    (handoff : PlanHandoff) : Except HandoffError (Option BaseMessage) :=
  match snapshot.digest with
  | none => .ok none
  | some marker =>
    if marker ≠ handoff.digest then
      .error (.stateConflict "native checkpoint handoff digest conflicts")
    else
      match requestsNamed snapshot.messages handoff.messageId.text with
      | [] => .error (.stateConflict "native checkpoint handoff lost its user request")
      | [message] =>
        if exposes message handoff.digest then
          .error (.stateConflict "native checkpoint exposes its private handoff")
        else .ok (some message)
      | _ => .error (.stateConflict "native checkpoint duplicates the Plan handoff")

/-! ## Phases -/

/-- The native progress that a phase is evidence of. -/
inductive HandoffProgress
  | accepted (native : NonBlankText)
  | completed (native completed : NonBlankText)

def HandoffProgress.phase : HandoffProgress → PlanHandoffPhase
  | .accepted _ => .accepted
  | .completed _ _ => .completed

def PlanHandoff.mark (handoff : PlanHandoff) : HandoffProgress → PlanHandoff
  | .accepted native =>
    { handoff with
      phase := .accepted, nativeCheckpointId := some native, completedCheckpointId := none
      accepted := by simp, completed := by simp }
  | .completed native completed =>
    { handoff with
      phase := .completed, nativeCheckpointId := some native
      completedCheckpointId := some completed
      accepted := by simp, completed := by simp }

def PlanHandoffPhase.text : PlanHandoffPhase → String
  | .pending => "pending"
  | .accepted => "accepted"
  | .completed => "completed"

/-- The phase after this one. -/
def PlanHandoffPhase.expected : PlanHandoffPhase → Option PlanHandoffPhase
  | .pending => some .accepted
  | .accepted => some .completed
  | .completed => none

/-- The Plan with its hand-off in the next phase, or nothing to save where it is there already. -/
def markHandoffPhase (plan : PlanState C) (progress : HandoffProgress) :
    Except HandoffError (Option (PlanState C)) :=
  match plan.handoff with
  | none => .error (.plan (.runtime "only an approved Plan can advance a native handoff"))
  | some handoff =>
    if plan.status ≠ .approved then
      .error (.plan (.runtime "only an approved Plan can advance a native handoff"))
    else if handoff.phase = progress.phase then .ok none
    else if handoff.phase.expected ≠ some progress.phase then
      .error (.plan (.runtime ("invalid Plan handoff transition: " ++ handoff.phase.text ++
        " -> " ++ progress.phase.text)))
    else .ok (some { plan with handoff := some (handoff.mark progress) })

/-- The Plan whose native work an ordinary turn continues or shows. -/
def nativePlanOverlay (options : PlanOptions F C) (thread : PlanThread C) :
    Except HandoffError (Option (PlanState C)) :=
  match thread.planning.plan with
  | none => .ok none
  | some saved => do
    let plan ← readable (readPlanState options.content (some saved))
    match plan.status, plan.handoff with
    | .approved, some handoff =>
      if handoff.phase = .pending then
        .error (.stateConflict "approved Plan has no native checkpoint evidence")
      else return some plan
    | .approved, none =>
      .error (.stateConflict "approved Plan has no native checkpoint evidence")
    | .cancelled, _ => return some plan
    | _, _ => return none

/-! ## Routing one request -/

/-- A decision about what the planning graph asks. -/
inductive PlanningResponse (C : Type)
  | answer (response : Json)
  | review (response : PlanReviewResponse C)

inductive GraphInput (C : Type)
  /-- No input; `resumeIntent` where every decision of a resume was consumed before. -/
  | retry (resumeIntent : Bool)
  | resume (response : PlanningResponse C)
  | update (messages : List BaseMessage)

structure PlanRequest (C : Type) where
  preferPlan : Bool
  input : GraphInput C

/-- What the engine reports about the tasks of the native checkpoint that is read. -/
structure NativeReport where
  pending : Bool
  interrupted : Bool

/-- Where a request stands between two atomic updates. -/
inductive Control (C : Type)
  | idle
  /-- The planning graph runs; `offered` is the decision that its interrupted node takes. -/
  | planning (offered : Option (PlanningResponse C))
  | handoff (plan : PlanState C)
  | staged (plan : PlanState C) (checkpoint : NonBlankText)
  | executing (plan : PlanState C)
  | native (overlay : Option (PlanState C))

variable (options : PlanOptions F C)

/-- The Plan of a thread as a request reads it. -/
def savedPlan (state : PlanningState C) : Except PlanError (Option (PlanState C)) :=
  state.plan.mapM fun saved => readPlanState options.content (some saved)

/-- A response is checked against its form before the graph is resumed. -/
def checkClarification (state : PlanningState C) (plan : PlanState C)
    (response : PlanningResponse C) : Except HandoffError Unit :=
  if state.schemaFingerprint ≠ some options.clarification.fingerprint then
    .error (.plan (.configuration
      "checkpoint clarification schema does not match this Definition"))
  else
    match plan.pendingClarification, response with
    | none, _ => .error (.stateConflict "clarification resume has no pending form")
    | some pending, .answer response =>
      if pending.contractDigest ≠ pendingContractDigest pending.form pending.responseSchema then
        .error (.stateConflict "clarification resume has an invalid contract digest")
      else do
        let form ← readable (options.clarification.restoreForm pending.form)
        let _ ← readable (options.clarification.validateAndNormalizeResponse form
          pending.responseSchema response)
        return ()
    | some _, .review _ => .error (.plan .validation)

/-- Whether a decision goes to the planning graph; nothing where the request only shows the Plan. -/
def resumesPlanning (thread : PlanThread C) (plan : Option (PlanState C))
    (response : PlanningResponse C) (report : NativeReport) : Except HandoffError (Option Bool) :=
  match thread.role with
  | none => .error (.stateConflict "resume input has no canonical thread checkpoint")
  | some role => do
    let planningPending := role == .planning && thread.planning.next != .done
    let nativePending := report.pending &&
      (role == .native || (plan.bind nativeCheckpointIdForPlan).isSome)
    if planningPending && nativePending then
      .error (.stateConflict "Planning and native Graphs both contain pending work")
    else if planningPending then
      match plan with
      | none => .error (.stateConflict "pending Planning checkpoint has no Plan state")
      | some plan =>
        if plan.status = .awaitingClarification then
          checkClarification options thread.planning plan response
        return some true
    else if nativePending then
      return some (plan.any fun plan => plan.status = .approved &&
        plan.handoff.any (·.phase = .pending))
    else if plan.any fun plan => plan.status = .approved || plan.status = .awaitingInput ||
        plan.status = .cancelled then
      return none
    else .error (.stateConflict "resume input has no pending Planning or native checkpoint")

/-- What follows when the planning graph has no more work. -/
def finishPlanning (plan : Option (PlanState C)) : Except HandoffError (Control C) :=
  match plan with
  | none => .ok .idle
  | some plan =>
    match plan.status with
    | .awaitingInput => .ok .idle
    | .cancelled => .ok .idle
    | .approved =>
      if plan.handoff.isSome then .ok (.handoff plan)
      else .error (.plan (.runtime "approved Plan state requires handoff metadata"))
    | _ => .error (.plan
        (.runtime "Planning ended without an interrupt or approved handoff"))

/-- A turn starts the planning graph, unless the newest checkpoint is the planning graph's own and
no input is awaited: then the engine takes it for a replay. -/
def startsTurn (thread : PlanThread C) (plan : Option (PlanState C)) : Bool :=
  thread.role ≠ some .planning || plan.any (·.status = .awaitingInput)

/-- The thread and the place of a request on the planning route. -/
def planningRoute (thread : PlanThread C) (plan : Option (PlanState C)) (id : NonBlankText) :
    GraphInput C → Except HandoffError (PlanThread C × Control C)
  | .retry _ => .ok (thread, .planning none)
  | .resume response =>
    if plan.any fun plan => plan.status = .approved || plan.status = .cancelled then do
      let control ← finishPlanning plan
      return (thread, control)
    else .ok (thread, .planning (some response))
  | .update messages =>
    if startsTurn thread plan then do
      let planning ← readable (step options thread.planning (.turn messages))
      let thread ← thread.commit .planning id planning thread.digest
      return (thread, .planning none)
    else .ok (thread, .planning none)

def nativeRoute (thread : PlanThread C) : Except HandoffError (PlanThread C × Control C) := do
  let overlay ← nativePlanOverlay options thread
  return (thread, .native overlay)

/-- The graph that a request belongs to; nothing where it only shows the Plan. -/
def usesPlanning (thread : PlanThread C) (plan : Option (PlanState C)) (request : PlanRequest C)
    (report : NativeReport) : Except HandoffError (Option Bool) :=
  match request.input with
  | .retry true =>
    match thread.role with
    | none => .error (.stateConflict "resume retry has no checkpoint")
    | some role => .ok (some (role == .planning))
  | .retry false => .ok (some request.preferPlan)
  | .resume response => resumesPlanning options thread plan response report
  | .update _ => .ok (some request.preferPlan)

/-- A request that knows nothing of planning. -/
def PlanRequest.ordinary (request : PlanRequest C) : Bool :=
  !request.preferPlan && match request.input with
    | .resume _ => false
    | _ => true

/-- Where a request goes. -/
def route (thread : PlanThread C) (request : PlanRequest C) (report : NativeReport)
    (id : NonBlankText) : Except HandoffError (PlanThread C × Control C) :=
  if request.ordinary && thread.planning.plan.isNone then .ok (thread, .native none)
  else do
    let plan ← readable (savedPlan options thread.planning)
    match ← usesPlanning options thread plan request report with
    | none => return (thread, .idle)
    | some true => planningRoute options thread plan id request.input
    | some false => nativeRoute options thread

/-! ## The log -/

/-- The request message and the digest that a hand-off carries. -/
structure Handed where
  messageId : String
  digest : String
  deriving DecidableEq

def PlanHandoff.handed (handoff : PlanHandoff) : Handed :=
  { messageId := handoff.messageId.text, digest := handoff.digest }

/-- What a thread records about hand-offs. -/
inductive HandoffEffect
  | approved (handed : Handed)
  | staged (handed : Handed)
  | accepted (handed : Handed)
  /-- Native work under a Plan starts from a checkpoint whose private digest is `held`. -/
  | started (handed : Handed) (held : Option String)
  | completed (handed : Handed)
  deriving DecidableEq

/-- A thread with the request that is on it. -/
structure HandoffState (C : Type) where
  thread : PlanThread C := {}
  control : Control C := .idle
  log : List HandoffEffect := []

def HandoffProgress.effect : HandoffProgress → Handed → HandoffEffect
  | .accepted _ => .accepted
  | .completed _ _ => .completed

/-- The effects of a hand-off that a Plan has. -/
def PlanState.effects (plan : PlanState C) (effect : Handed → HandoffEffect) :
    List HandoffEffect :=
  (plan.handoff.map fun handoff => effect handoff.handed).toList

/-- A phase is committed on the planning head, unless the Plan shows it already. -/
def commitPhase (thread : PlanThread C) (plan : PlanState C) (progress : HandoffProgress)
    (id : NonBlankText) :
    Except HandoffError (PlanThread C × PlanState C × List HandoffEffect) := do
  match ← markHandoffPhase plan progress with
  | none => return (thread, plan, [])
  | some updated =>
    let thread ← thread.commit .planning id { thread.planning with plan := some updated }
      thread.digest
    return (thread, updated, updated.effects progress.effect)

/-! ## Steps -/

/-- What moves a thread. -/
inductive HandoffEvent (F C : Type)
  | request (request : PlanRequest C) (report : NativeReport) (id : NonBlankText)
  /-- A node of the planning graph commits. -/
  | planning (event : PlanningEvent F C) (id : NonBlankText)
  | planningEnded
  | handoff (report : NativeReport) (id : NonBlankText)
  | accept (report : NativeReport) (id : NonBlankText)
  /-- A node of the native graph commits. -/
  | native (messages : List BaseMessage) (id : NonBlankText)
  | nativeEnded (interrupted : Bool) (head id : NonBlankText)
  | crash

/-- The nodes that the planning graph may run for a request. -/
def permits (offered : Option (PlanningResponse C)) : PlanningEvent F C → Bool
  | .turn _ => false
  | .answer _ => offered.any fun | .answer _ => true | .review _ => false
  | .review _ => offered.any fun | .answer _ => false | .review _ => true
  | _ => true

/-- The decision that is left after a node ran. -/
def remaining (offered : Option (PlanningResponse C)) :
    PlanningEvent F C → Option (PlanningResponse C)
  | .answer _ => none
  | .review _ => none
  | _ => offered

def approvals (plan : Option (PlanState C)) : PlanningEvent F C → List HandoffEffect
  | .review (.approve _) => (plan.map fun plan => plan.effects .approved).getD []
  | _ => []

def planningStep (state : HandoffState C) (offered : Option (PlanningResponse C))
    (event : PlanningEvent F C) (id : NonBlankText) : Except HandoffError (HandoffState C) := do
  if !permits offered event then .error .disabled
  else
    let planning ← readable (step options state.thread.planning event)
    let thread ← state.thread.commit .planning id planning state.thread.digest
    return { thread, control := .planning (remaining offered event)
             log := state.log ++ approvals planning.plan event }

def planningEnded (state : HandoffState C) : Except HandoffError (HandoffState C) :=
  match state.thread.planning.next with
  | .clarifyPlan => .ok { state with control := .idle }
  | .reviewPlan => .ok { state with control := .idle }
  | .done => do
    let plan ← readable (savedPlan options state.thread.planning)
    let control ← finishPlanning plan
    return { state with control }
  | _ => .error .disabled

variable (exposes : BaseMessage → String → Bool)

/-- The request message and the digest of a hand-off in one native update. -/
def stageHandoff (state : HandoffState C) (plan : PlanState C) (handoff : PlanHandoff)
    (report : NativeReport) (id : NonBlankText) : Except HandoffError (HandoffState C) := do
  if report.pending then
    .error (.stateConflict "native Graph has pending work before Plan handoff")
  else
    let message ← handoffUserMessage exposes state.thread.planning.messages handoff
    let planning := { state.thread.planning with
      messages := addMessages state.thread.planning.messages [message] }
    let thread ← state.thread.commit .native id planning (some handoff.digest)
    return { thread, control := .staged plan id
             log := state.log ++ [.staged handoff.handed] }

/-- A hand-off goes on from what the native checkpoint shows. -/
def handoffStep (state : HandoffState C) (plan : PlanState C) (report : NativeReport)
    (id : NonBlankText) : Except HandoffError (HandoffState C) :=
  match plan.handoff with
  | none => .error (.stateConflict "approved Plan has no handoff metadata")
  | some handoff => do
    let snapshot := nativeSnapshotForPlan state.thread plan
    let existing ← snapshotHandoffMessage exposes snapshot handoff
    match handoff.phase, existing with
    | .pending, none => stageHandoff exposes state plan handoff report id
    | .pending, some _ =>
      match snapshot.id with
      | none => .error (.stateConflict "native checkpoint has no stable checkpoint_id")
      | some checkpoint => return { state with control := .staged plan checkpoint }
    | _, none =>
      .error (.stateConflict "accepted Plan handoff is missing from the native checkpoint")
    | .completed, some _ => return { state with control := .idle }
    | .accepted, some _ =>
      match report.pending, report.interrupted, snapshot.id with
      | false, _, some checkpoint =>
        let native := handoff.nativeCheckpointId.getD checkpoint
        let (thread, _, effects) ← commitPhase state.thread plan
          (.completed native checkpoint) id
        return { thread, control := .idle, log := state.log ++ effects }
      | false, _, none =>
        .error (.stateConflict "native checkpoint has no stable checkpoint_id")
      | true, true, _ => return { state with control := .idle }
      | true, false, _ =>
        return { state with
          control := .executing plan
          log := state.log ++ [.started handoff.handed snapshot.digest] }

/-- A staged hand-off is marked accepted, and native work starts unless it waits for a decision. -/
def acceptStep (state : HandoffState C) (plan : PlanState C) (checkpoint : NonBlankText)
    (report : NativeReport) (id : NonBlankText) : Except HandoffError (HandoffState C) := do
  let (thread, updated, effects) ← commitPhase state.thread plan (.accepted checkpoint) id
  let log := state.log ++ effects
  if report.interrupted then return { thread, control := .idle, log }
  else
    let held := (state.thread.checkpoints.find? (·.id = checkpoint)).bind (·.digest)
    return { thread, control := .executing updated, log := log ++ updated.effects (.started · held) }

/-- Work under a Plan that was accepted but not completed. -/
def continues (overlay : Option (PlanState C)) : Option (PlanState C) :=
  overlay.filter fun plan => plan.handoff.any (·.phase = .accepted)

def requestStep (state : HandoffState C) (request : PlanRequest C) (report : NativeReport)
    (id : NonBlankText) : Except HandoffError (HandoffState C) := do
  let (thread, control) ← route options state.thread request report id
  match control with
  | .native overlay =>
    let effects := ((continues overlay).map fun plan =>
      plan.effects (.started · thread.digest)).getD []
    return { thread, control, log := state.log ++ effects }
  | control => return { state with thread, control }

def nativeStep (state : HandoffState C) (messages : List BaseMessage) (id : NonBlankText) :
    Except HandoffError (HandoffState C) := do
  let thread ← state.thread.commit .native id { state.thread.planning with messages }
    state.thread.digest
  return { state with thread }

/-- Native work that ended without an interrupt completes the Plan that it was under. -/
def completeStep (state : HandoffState C) (plan : Option (PlanState C)) (interrupted : Bool)
    (head id : NonBlankText) : Except HandoffError (HandoffState C) :=
  match interrupted, plan.bind fun plan => plan.handoff.map (plan, ·) with
  | false, some (plan, handoff) => do
    let native := handoff.nativeCheckpointId.getD head
    let (thread, _, effects) ← commitPhase state.thread plan (.completed native head) id
    return { thread, control := .idle, log := state.log ++ effects }
  | _, _ => .ok { state with control := .idle }

def handoffMachine (state : HandoffState C) :
    HandoffEvent F C → Except HandoffError (HandoffState C)
  | .request request report id =>
    match state.control with
    | .idle => requestStep options state request report id
    | _ => .error .disabled
  | .planning event id =>
    match state.control with
    | .planning offered => planningStep options state offered event id
    | _ => .error .disabled
  | .planningEnded =>
    match state.control with
    | .planning _ => planningEnded options state
    | _ => .error .disabled
  | .handoff report id =>
    match state.control with
    | .handoff plan => handoffStep exposes state plan report id
    | _ => .error .disabled
  | .accept report id =>
    match state.control with
    | .staged plan checkpoint => acceptStep state plan checkpoint report id
    | _ => .error .disabled
  | .native messages id =>
    match state.control with
    | .executing _ => nativeStep state messages id
    | .native _ => nativeStep state messages id
    | _ => .error .disabled
  | .nativeEnded interrupted head id =>
    match state.control with
    | .executing plan => completeStep state (some plan) interrupted head id
    | .native overlay => completeStep state (continues overlay) interrupted head id
    | _ => .error .disabled
  | .crash => .ok { state with control := .idle }

/-- A step that fails ends its request and saves nothing. -/
def handoffNext (state : HandoffState C) (event : HandoffEvent F C) : HandoffState C :=
  match handoffMachine options exposes state event with
  | .ok after => after
  | .error .disabled => state
  | .error _ => { state with control := .idle }

end Tinkerfin.Plan
