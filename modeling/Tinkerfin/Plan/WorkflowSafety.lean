import Tinkerfin.Lib.Machine
import Tinkerfin.Messaging.Contract
import Tinkerfin.Plan.Workflow

/-!
# Runs of the planning graph

Whatever the planner and the user answer, a saved Plan shows what its status says, an edit comes
back for review as it was written, and an approval confirms the draft that was on display.  The
request identity is the exception: the first node of a continued Plan saves it as the message spells
it, every other reader trims it, and a hand-off then looks for a message that does not exist.
-/

namespace Tinkerfin.Plan

open Messaging (bind_eq_ok)

variable {F C : Type} {options : PlanOptions F C}

/-! ## What one node saves -/

/-- A Plan as the next node reads it: only the request identity may differ. -/
def Reads (saved : Option (PlanState C)) (current : PlanState C) : Prop :=
  ∀ plan, saved = some plan → ∃ id, current = { plan with requestMessageId := id }

theorem reads_of_ok (faithful : options.content.RoundTrips) {saved : Option (PlanState C)}
    {current : PlanState C} (read : readPlanState options.content saved = .ok current) :
    Reads saved current := by
  rintro plan rfl
  obtain ⟨id, same, -⟩ := readPlanState_ok faithful read
  exact ⟨id, same⟩

theorem awaitedPlan_ok (faithful : options.content.RoundTrips) {state : PlanningState C}
    {awaited : Option (PlanState C)} (found : awaitedPlan options state = .ok awaited) :
    (∃ saved id, state.plan = some saved ∧ saved.status = .awaitingInput ∧
      awaited = some { saved with requestMessageId := id }) ∨
    (∀ saved, state.plan = some saved → saved.status ≠ .awaitingInput) ∧ awaited = none := by
  unfold awaitedPlan at found
  split at found
  · next absent =>
      obtain rfl := Except.ok.inj found
      exact .inr ⟨fun saved stored => (nomatch absent.symm.trans stored), rfl⟩
  · next saved stored =>
      obtain ⟨current, read, chosen⟩ := bind_eq_ok.mp found
      obtain ⟨id, rfl⟩ := reads_of_ok faithful read saved rfl
      obtain rfl := Except.ok.inj chosen
      by_cases waiting : saved.status = .awaitingInput
      · exact .inl ⟨saved, id, stored, waiting, if_pos waiting⟩
      · refine .inr ⟨fun other same => ?_, if_neg waiting⟩
        obtain rfl := Option.some.inj (stored.symm.trans same)
        exact waiting

/-- A turn continues a Plan that waits for input, and otherwise starts a new one. -/
theorem initializeNode_ok (faithful : options.content.RoundTrips) {state after : PlanningState C}
    (ran : initializeNode options state = .ok after) :
    ∃ id, requestMessageId state.messages = .ok id ∧
      ((∃ saved, state.plan = some saved ∧ saved.status = .awaitingInput ∧
          (∃ current, awaitedPlan options state = .ok (some current)) ∧
          after = { state with plan := some (saved.continued id), next := .createPlan }) ∨
        ∃ validated, NonBlankText.validate id = .ok validated ∧
          awaitedPlan options state = .ok none ∧
          after = { state with
            plan := some { requestMessageId := some validated.text }
            schemaFingerprint := some options.clarification.fingerprint
            contentSchemaFingerprint := some options.content.reference.fingerprint
            next := .createPlan }) := by
  obtain ⟨awaited, found, ran⟩ := bind_eq_ok.mp ran
  obtain ⟨saved, request, stored, waiting, rfl⟩ | ⟨-, rfl⟩ := awaitedPlan_ok faithful found
  · obtain ⟨-, -, ran⟩ := bind_eq_ok.mp ran
    obtain ⟨id, asked, ran⟩ := bind_eq_ok.mp ran
    obtain rfl := Except.ok.inj ran
    exact ⟨id, asked, .inl ⟨saved, stored, waiting, ⟨_, found⟩, rfl⟩⟩
  · obtain ⟨id, asked, ran⟩ := bind_eq_ok.mp ran
    obtain ⟨validated, checked, ran⟩ := bind_eq_ok.mp ran
    obtain rfl := Except.ok.inj ran
    exact ⟨id, asked, .inr ⟨validated, checked, found, rfl⟩⟩

/-- The planner either asks or offers a draft with the content that its outcome stands for. -/
theorem plannerNode_ok {state : PlanningState C} {outcome : PlannerOutcome F C}
    {plan : PlanState C} (ran : plannerNode options state outcome = .ok plan) :
    ∃ current, readPlanState options.content state.plan = .ok current ∧
      ((∃ pending, plan = current.clarifying pending) ∨
        ∃ raw content, outcomeContent current outcome = .ok raw ∧
          serializePlanContent options raw = .ok content ∧
          plan = current.drafted options content) := by
  cases outcome with
  | clarify clarification =>
    obtain ⟨-, -, ran⟩ := bind_eq_ok.mp ran
    obtain ⟨current, read, ran⟩ := bind_eq_ok.mp ran
    obtain ⟨-, -, ran⟩ := bind_eq_ok.mp ran
    obtain ⟨⟨form, payload⟩, -, ran⟩ := bind_eq_ok.mp ran
    obtain ⟨responseSchema, -, ran⟩ := bind_eq_ok.mp ran
    exact ⟨current, read, .inl ⟨_, (Except.ok.inj ran).symm⟩⟩
  | draft _ | acceptEdit =>
    obtain ⟨-, -, ran⟩ := bind_eq_ok.mp ran
    obtain ⟨current, read, ran⟩ := bind_eq_ok.mp ran
    obtain ⟨-, -, ran⟩ := bind_eq_ok.mp ran
    obtain ⟨raw, chosen, ran⟩ := bind_eq_ok.mp ran
    obtain ⟨content, kept, ran⟩ := bind_eq_ok.mp ran
    exact ⟨current, read, .inr ⟨raw, content, chosen, kept, (Except.ok.inj ran).symm⟩⟩

theorem serializePlanContent_ok (faithful : options.content.RoundTrips) {raw content : C}
    (kept : serializePlanContent options raw = .ok content) : content = raw := by
  unfold serializePlanContent at kept
  rw [faithful.restore] at kept
  exact (Except.ok.inj kept).symm

theorem outcomeContent_of_pendingEdit {current : PlanState C} {outcome : PlannerOutcome F C}
    {edited content : C} (pending : current.pendingEdit = some edited)
    (chosen : outcomeContent current outcome = .ok content) : content = edited := by
  unfold outcomeContent at chosen
  rw [pending] at chosen
  cases outcome with
  | clarify _ | draft _ => cases chosen
  | acceptEdit => exact (Except.ok.inj chosen).symm

theorem plannerPath_ok (faithful : options.content.RoundTrips) {plan : PlanState C}
    {node : PlanNode} (ran : plannerPath options plan = .ok node) :
    node = if plan.pendingClarification.isSome then .clarifyPlan else .reviewPlan := by
  obtain ⟨current, read, ran⟩ := bind_eq_ok.mp ran
  obtain ⟨id, rfl⟩ := reads_of_ok faithful read plan rfl
  exact (Except.ok.inj ran).symm

theorem answerClarification_ok {state : PlanningState C} {response : Json} {plan : PlanState C}
    (ran : answerClarification options state response = .ok plan) :
    ∃ current exchange, readPlanState options.content state.plan = .ok current ∧
      plan = current.answered exchange := by
  obtain ⟨-, -, ran⟩ := bind_eq_ok.mp ran
  obtain ⟨current, read, ran⟩ := bind_eq_ok.mp ran
  split at ran
  · cases ran
  · obtain ⟨form, -, ran⟩ := bind_eq_ok.mp ran
    split at ran
    · cases ran
    · obtain ⟨answers, -, ran⟩ := bind_eq_ok.mp ran
      obtain ⟨exchange, -, ran⟩ := bind_eq_ok.mp ran
      exact ⟨current, exchange, read, (Except.ok.inj ran).symm⟩

theorem fromDraft_ok (faithful : options.content.RoundTrips) {draft : PlanDraft C}
    {confirmed : ConfirmedPlan C} (frozen : ConfirmedPlan.fromDraft options draft = .ok confirmed) :
    confirmed = draft := by
  rw [ConfirmedPlan.fromDraft, PlanDraft.validate, faithful.freeze] at frozen
  exact (Except.ok.inj frozen).symm

theorem createHandoff_ok {confirmed : ConfirmedPlan C} {messageId : String} {handoff : PlanHandoff}
    (created : createHandoff options confirmed messageId = .ok handoff) :
    NonBlankText.validate messageId = .ok handoff.messageId := by
  obtain ⟨validated, checked, created⟩ := bind_eq_ok.mp created
  obtain rfl := Except.ok.inj created
  exact checked

/-- What a review response saves. -/
inductive Reviewed (options : PlanOptions F C) (current : PlanState C) (draft : PlanDraft C) :
    PlanReviewResponse C → PlanState C → Prop
  | approve {messageId : String} {handoff : PlanHandoff} (baseRevision : Nat)
      (requested : current.requestMessageId = some messageId)
      (created : createHandoff options draft messageId = .ok handoff) :
      Reviewed options current draft (.approve baseRevision) (current.approved draft handoff)
  | cancel (baseRevision : Nat) :
      Reviewed options current draft (.cancel baseRevision) current.cancelled
  | edit (baseRevision : Nat) (content : C) :
      Reviewed options current draft (.edit baseRevision content) (current.edited content)
  | respond (baseRevision : Nat) (message : NonBlankText) :
      Reviewed options current draft (.respond baseRevision message) (current.responded message)
  | reject (baseRevision : Nat) (message : Option NonBlankText) :
      Reviewed options current draft (.reject baseRevision message) (current.rejected message)

/-- A review response is about the draft on display, and an approval confirms it. -/
theorem reviewNode_ok (faithful : options.content.RoundTrips) {state : PlanningState C}
    {response : PlanReviewResponse C} {plan : PlanState C}
    (ran : reviewNode options state response = .ok plan) :
    ∃ current draft, readPlanState options.content state.plan = .ok current ∧
      current.draft = some draft ∧ response.baseRevision = draft.revision ∧
      Reviewed options current draft response plan := by
  obtain ⟨-, -, ran⟩ := bind_eq_ok.mp ran
  obtain ⟨current, read, ran⟩ := bind_eq_ok.mp ran
  split at ran
  · cases ran
  · next draft shown =>
      split at ran
      · cases ran
      · next current_revision =>
          refine ⟨current, draft, read, shown, not_not.mp current_revision, ?_⟩
          cases response with
          | approve baseRevision =>
            dsimp only at ran
            split at ran
            · cases ran
            · next messageId requested =>
                obtain ⟨confirmed, frozen, ran⟩ := bind_eq_ok.mp ran
                obtain ⟨handoff, created, ran⟩ := bind_eq_ok.mp ran
                obtain rfl := Except.ok.inj ran
                rw [fromDraft_ok faithful frozen] at created ⊢
                exact .approve baseRevision requested created
          | cancel baseRevision =>
            obtain rfl := Except.ok.inj ran
            exact .cancel baseRevision
          | edit baseRevision content =>
            obtain rfl := Except.ok.inj ran
            exact .edit baseRevision content
          | respond baseRevision message =>
            obtain rfl := Except.ok.inj ran
            exact .respond baseRevision message
          | reject baseRevision message =>
            obtain rfl := Except.ok.inj ran
            exact .reject baseRevision message

/-- The node after a review. -/
def PlanReviewResponse.path : PlanReviewResponse C → PlanNode
  | .approve _ => .done
  | .cancel _ => .respondToReview
  | .edit _ _ => .createPlan
  | .respond _ _ => .createPlan
  | .reject _ _ => .respondToReview

theorem reviewPath_ok (faithful : options.content.RoundTrips) {current plan : PlanState C}
    {draft : PlanDraft C} {response : PlanReviewResponse C} {node : PlanNode}
    (reviewed : Reviewed options current draft response plan)
    (ran : reviewPath options plan = .ok node) : node = response.path := by
  obtain ⟨read, same, ran⟩ := bind_eq_ok.mp ran
  obtain ⟨id, rfl⟩ := reads_of_ok faithful same plan rfl
  cases reviewed <;> exact (Except.ok.inj ran).symm

/-! ## Saved Plans -/

/-- A Plan that shows what its status says. -/
structure PlanState.Coherent (plan : PlanState C) : Prop where
  form : plan.pendingClarification.isSome ↔ plan.status = .awaitingClarification
  confirmed : plan.confirmedPlan.isSome ↔ plan.status = .approved
  handoff : plan.handoff.isSome ↔ plan.status = .approved
  frozen : ∀ confirmed, plan.confirmedPlan = some confirmed → plan.draft = some confirmed
  revision : ∀ draft, plan.draft = some draft → draft.revision = plan.revision

/-- The status that a node waits for. -/
def PlanState.Waits (plan : PlanState C) : PlanNode → Prop
  | .initializePlan => True
  | .createPlan => plan.status = .planning
  | .clarifyPlan => plan.status = .awaitingClarification
  | .reviewPlan => plan.status = .awaitingReview
  | .respondToReview => plan.status = .awaitingInput
  | .done => plan.status = .awaitingInput ∨ plan.status = .approved

/-- A thread before its first turn, or with a Plan that the next node can read. -/
inductive PlanningState.Sound : PlanningState C → Prop
  | unplanned {state : PlanningState C} (absent : state.plan = none)
      (idle : state.next = .done ∨ state.next = .initializePlan) : Sound state
  | planned {state : PlanningState C} {plan : PlanState C} (saved : state.plan = some plan)
      (coherent : plan.Coherent) (waits : plan.Waits state.next) : Sound state

variable {state after : PlanningState C}

theorem PlanningState.Sound.saved (sound : state.Sound) {node : PlanNode} (next : state.next = node)
    (busy : node ≠ .done ∧ node ≠ .initializePlan) :
    ∃ plan, state.plan = some plan ∧ plan.Coherent ∧ plan.Waits node := by
  cases sound with
  | unplanned _ idle =>
    rw [next] at idle
    exact absurd idle (not_or.mpr busy)
  | planned saved coherent waits => exact ⟨_, saved, coherent, next ▸ waits⟩

variable {plan : PlanState C}

theorem PlanState.Coherent.unrequested (coherent : plan.Coherent) (id : Option String) :
    PlanState.Coherent { plan with requestMessageId := id } :=
  ⟨coherent.form, coherent.confirmed, coherent.handoff, coherent.frozen, coherent.revision⟩

theorem PlanState.Coherent.continued (coherent : plan.Coherent) (id : String) :
    (plan.continued id).Coherent where
  form := by simp [PlanState.continued]
  confirmed := by simp [PlanState.continued]
  handoff := by simp [PlanState.continued]
  frozen := by simp [PlanState.continued]
  revision := coherent.revision

theorem PlanState.Coherent.idle (coherent : plan.Coherent)
    (asking : plan.status ≠ .awaitingClarification) (approved : plan.status ≠ .approved) :
    plan.pendingClarification = none ∧ plan.confirmedPlan = none ∧ plan.handoff = none :=
  ⟨Option.not_isSome_iff_eq_none.mp fun some => asking (coherent.form.mp some),
   Option.not_isSome_iff_eq_none.mp fun some => approved (coherent.confirmed.mp some),
   Option.not_isSome_iff_eq_none.mp fun some => approved (coherent.handoff.mp some)⟩

theorem PlanState.Coherent.clarifying (coherent : plan.Coherent) (planning : plan.status = .planning)
    (pending : PendingClarification) : (plan.clarifying pending).Coherent := by
  obtain ⟨-, unconfirmed, unhanded⟩ := coherent.idle (by simp [planning]) (by simp [planning])
  refine ⟨?_, ?_, ?_, ?_, coherent.revision⟩ <;>
    simp [PlanState.clarifying, unconfirmed, unhanded]

theorem PlanState.Coherent.drafted (content : C) : (plan.drafted options content).Coherent where
  form := by simp [PlanState.drafted]
  confirmed := by simp [PlanState.drafted]
  handoff := by simp [PlanState.drafted]
  frozen := by simp [PlanState.drafted]
  revision := by
    rintro draft shown
    obtain rfl := Option.some.inj shown
    rfl

theorem PlanState.Coherent.answered (coherent : plan.Coherent)
    (asking : plan.status = .awaitingClarification) (exchange : ClarificationExchange) :
    (plan.answered exchange).Coherent := by
  have unconfirmed : plan.confirmedPlan = none :=
    Option.not_isSome_iff_eq_none.mp fun some => by
      simpa [asking] using coherent.confirmed.mp some
  have unhanded : plan.handoff = none :=
    Option.not_isSome_iff_eq_none.mp fun some => by simpa [asking] using coherent.handoff.mp some
  refine ⟨?_, ?_, ?_, ?_, coherent.revision⟩ <;>
    simp [PlanState.answered, unconfirmed, unhanded]

theorem Reviewed.coherent {current : PlanState C} {draft : PlanDraft C}
    {response : PlanReviewResponse C} (reviewed : Reviewed options current draft response plan)
    (coherent : current.Coherent) (reviewing : current.status = .awaitingReview)
    (shown : current.draft = some draft) : plan.Coherent := by
  obtain ⟨formless, unconfirmed, unhanded⟩ :=
    coherent.idle (by simp [reviewing]) (by simp [reviewing])
  cases reviewed with
  | approve _ _ _ =>
    refine ⟨?_, ?_, ?_, ?_, coherent.revision⟩ <;>
      simp [PlanState.approved, formless, shown]
  | cancel _ =>
    refine ⟨?_, ?_, ?_, ?_, coherent.revision⟩ <;> simp [PlanState.cancelled]
  | edit _ _ =>
    refine ⟨?_, ?_, ?_, ?_, coherent.revision⟩ <;>
      simp [PlanState.edited, formless, unconfirmed, unhanded]
  | respond _ _ =>
    refine ⟨?_, ?_, ?_, ?_, coherent.revision⟩ <;>
      simp [PlanState.responded, formless, unconfirmed, unhanded]
  | reject _ _ =>
    refine ⟨?_, ?_, ?_, ?_, coherent.revision⟩ <;> simp [PlanState.rejected]

theorem Reviewed.waits {current : PlanState C} {draft : PlanDraft C}
    {response : PlanReviewResponse C} (reviewed : Reviewed options current draft response plan) :
    plan.Waits response.path := by
  cases reviewed with
  | approve _ _ _ => exact .inr rfl
  | cancel _ | edit _ _ | respond _ _ | reject _ _ => rfl

/-! ## One event -/

/-- What the nodes of one event do to a thread. -/
inductive Steps (options : PlanOptions F C) :
    PlanningState C → PlanningEvent F C → PlanningState C → Prop
  | turn (state : PlanningState C) (update : List BaseMessage) :
      Steps options state (.turn update) { state with
        messages := addMessages state.messages update, next := .initializePlan }
  | resume {state : PlanningState C} {saved : PlanState C} {id : String}
      (starting : state.next = .initializePlan) (stored : state.plan = some saved)
      (waiting : saved.status = .awaitingInput)
      (awaited : ∃ current, awaitedPlan options state = .ok (some current))
      (asked : requestMessageId state.messages = .ok id) :
      Steps options state .initializePlan
        { state with plan := some (saved.continued id), next := .createPlan }
  | start {state : PlanningState C} {id : String} {validated : NonBlankText}
      (starting : state.next = .initializePlan) (fresh : awaitedPlan options state = .ok none)
      (asked : requestMessageId state.messages = .ok id)
      (valid : NonBlankText.validate id = .ok validated) :
      Steps options state .initializePlan
        { state with
          plan := some { requestMessageId := some validated.text }
          schemaFingerprint := some options.clarification.fingerprint
          contentSchemaFingerprint := some options.content.reference.fingerprint
          next := .createPlan }
  | clarify {state : PlanningState C} {current : PlanState C} {outcome : PlannerOutcome F C}
      (planning : state.next = .createPlan)
      (read : readPlanState options.content state.plan = .ok current)
      (pending : PendingClarification) :
      Steps options state (.plan outcome)
        { state with plan := some (current.clarifying pending), next := .clarifyPlan }
  | draft {state : PlanningState C} {current : PlanState C} {outcome : PlannerOutcome F C}
      {content : C} (planning : state.next = .createPlan)
      (read : readPlanState options.content state.plan = .ok current)
      (chosen : outcomeContent current outcome = .ok content) :
      Steps options state (.plan outcome)
        { state with plan := some (current.drafted options content), next := .reviewPlan }
  | answer {state : PlanningState C} {current : PlanState C} {response : Json}
      (asking : state.next = .clarifyPlan)
      (read : readPlanState options.content state.plan = .ok current)
      (exchange : ClarificationExchange) :
      Steps options state (.answer response)
        { state with plan := some (current.answered exchange), next := .createPlan }
  | review {state : PlanningState C} {current plan : PlanState C} {draft : PlanDraft C}
      {response : PlanReviewResponse C} (reviewing : state.next = .reviewPlan)
      (read : readPlanState options.content state.plan = .ok current)
      (shown : current.draft = some draft) (about : response.baseRevision = draft.revision)
      (reviewed : Reviewed options current draft response plan) :
      Steps options state (.review response)
        { state with plan := some plan, next := response.path }
  | reply {state : PlanningState C} (message : BaseMessage)
      (responding : state.next = .respondToReview) :
      Steps options state (.reply message)
        { state with messages := addMessages state.messages [message], next := .done }

theorem runNode_ok {node : PlanNode} {run : Except PlanError (PlanningState C)}
    (ran : runNode state node run = .ok after) : state.next = node ∧ run = .ok after := by
  unfold runNode at ran
  split at ran
  · next waited => exact ⟨waited, ran⟩
  · cases ran

theorem steps_of_ok (faithful : options.content.RoundTrips) {event : PlanningEvent F C}
    (ran : step options state event = .ok after) : Steps options state event after := by
  cases event with
  | turn update =>
    obtain rfl := Except.ok.inj ran
    exact .turn state update
  | initializePlan =>
    obtain ⟨starting, ran⟩ := runNode_ok ran
    obtain ⟨id, asked, ⟨saved, stored, waiting, awaited, rfl⟩ | ⟨validated, valid, fresh, rfl⟩⟩ :=
      initializeNode_ok faithful ran
    · exact .resume starting stored waiting awaited asked
    · exact .start starting fresh asked valid
  | plan outcome =>
    obtain ⟨planning, ran⟩ := runNode_ok ran
    obtain ⟨plan, made, ran⟩ := bind_eq_ok.mp ran
    obtain ⟨node, path, ran⟩ := bind_eq_ok.mp ran
    obtain rfl := Except.ok.inj ran
    rw [plannerPath_ok faithful path]
    obtain ⟨current, read, ⟨pending, rfl⟩ | ⟨raw, content, chosen, kept, rfl⟩⟩ :=
      plannerNode_ok made
    · exact .clarify planning read pending
    · obtain rfl := serializePlanContent_ok faithful kept
      exact .draft planning read chosen
  | answer response =>
    obtain ⟨asking, ran⟩ := runNode_ok ran
    obtain ⟨plan, made, ran⟩ := bind_eq_ok.mp ran
    obtain rfl := Except.ok.inj ran
    obtain ⟨current, exchange, read, rfl⟩ := answerClarification_ok made
    exact .answer asking read exchange
  | review response =>
    obtain ⟨reviewing, ran⟩ := runNode_ok ran
    obtain ⟨plan, made, ran⟩ := bind_eq_ok.mp ran
    obtain ⟨node, path, ran⟩ := bind_eq_ok.mp ran
    obtain rfl := Except.ok.inj ran
    obtain ⟨current, draft, read, shown, about, reviewed⟩ := reviewNode_ok faithful made
    rw [reviewPath_ok faithful reviewed path]
    exact .review reviewing read shown about reviewed
  | reply message =>
    obtain ⟨responding, ran⟩ := runNode_ok ran
    obtain ⟨messages, replied, ran⟩ := bind_eq_ok.mp ran
    obtain rfl := Except.ok.inj ran
    obtain ⟨-, -, replied⟩ := bind_eq_ok.mp replied
    obtain ⟨current, -, replied⟩ := bind_eq_ok.mp replied
    split at replied
    · cases replied
    · obtain rfl := Except.ok.inj replied
      exact .reply message responding

theorem next_cases (faithful : options.content.RoundTrips) (state : PlanningState C)
    (event : PlanningEvent F C) :
    next options state event = state ∨ Steps options state event (next options state event) := by
  unfold next
  split
  · next ran => exact .inr (steps_of_ok faithful ran)
  · exact .inl rfl

theorem Steps.sound (faithful : options.content.RoundTrips) {event : PlanningEvent F C}
    (steps : Steps options state event after) (sound : state.Sound) : after.Sound := by
  cases steps with
  | turn update =>
    cases sound with
    | unplanned absent _ => exact .unplanned absent (.inr rfl)
    | planned saved coherent _ => exact .planned saved coherent trivial
  | resume starting stored waiting _ asked =>
    cases sound with
    | unplanned absent _ => cases absent.symm.trans stored
    | planned saved coherent _ =>
      obtain rfl := Option.some.inj (saved.symm.trans stored)
      exact .planned rfl (coherent.continued _) rfl
  | start starting fresh asked valid =>
    refine .planned rfl ⟨?_, ?_, ?_, ?_, ?_⟩ rfl <;> simp
  | clarify planning read pending =>
    obtain ⟨plan, saved, coherent, waits⟩ := sound.saved planning (by simp)
    obtain ⟨id, rfl⟩ := reads_of_ok faithful read plan saved
    exact .planned rfl ((coherent.unrequested id).clarifying waits pending) rfl
  | draft planning read chosen => exact .planned rfl (.drafted _) rfl
  | answer asking read exchange =>
    obtain ⟨plan, saved, coherent, waits⟩ := sound.saved asking (by simp)
    obtain ⟨id, rfl⟩ := reads_of_ok faithful read plan saved
    exact .planned rfl ((coherent.unrequested id).answered waits exchange) rfl
  | review reviewing read shown about reviewed =>
    obtain ⟨plan, saved, coherent, waits⟩ := sound.saved reviewing (by simp)
    obtain ⟨id, rfl⟩ := reads_of_ok faithful read plan saved
    exact .planned rfl (reviewed.coherent (coherent.unrequested id) waits shown) reviewed.waits
  | reply message responding =>
    obtain ⟨plan, saved, coherent, waits⟩ := sound.saved responding (by simp)
    exact .planned saved coherent (.inl waits)

theorem next_sound (faithful : options.content.RoundTrips) (state : PlanningState C)
    (event : PlanningEvent F C) (sound : state.Sound) : (next options state event).Sound := by
  obtain same | steps := next_cases faithful state event
  · rw [same]
    exact sound
  · exact steps.sound faithful sound

/-! ## Drafts on display -/

variable (options) in
/-- The draft that the review of a thread shows. -/
def offered (state : PlanningState C) : Option (PlanDraft C) :=
  if state.next = .reviewPlan then
    match readPlanState options.content state.plan with
    | .ok current => current.draft
    | .error _ => none
  else none

theorem offered_of_read {current : PlanState C} (reviewing : state.next = .reviewPlan)
    (read : readPlanState options.content state.plan = .ok current) :
    offered options state = current.draft := by
  rw [offered, if_pos reviewing, read]

theorem offered_of_ne (elsewhere : state.next ≠ .reviewPlan) : offered options state = none :=
  if_neg elsewhere

theorem readPlanState_drafted (faithful : options.content.RoundTrips)
    {saved : Option (PlanState C)} {current : PlanState C}
    (read : readPlanState options.content saved = .ok current) (content : C) :
    readPlanState options.content (some (current.drafted options content)) =
      .ok (current.drafted options content) := by
  refine readPlanState_canonical faithful fun id requested => ?_
  have requested : current.requestMessageId = some id := requested
  cases saved with
  | none =>
    obtain rfl := Except.ok.inj read
    cases requested
  | some saved =>
    obtain ⟨request, rfl, canonical⟩ := readPlanState_ok faithful read
    exact canonical id requested

theorem Steps.approve {baseRevision : Nat}
    (steps : Steps options state (.review (.approve baseRevision)) after) :
    ∃ draft plan, offered options state = some draft ∧ draft.revision = baseRevision ∧
      after.plan = some plan ∧ plan.confirmedPlan = some draft := by
  cases steps with
  | @review current plan draft _ reviewing read shown about reviewed =>
    refine ⟨draft, plan, (offered_of_read reviewing read).trans shown, about.symm, rfl, ?_⟩
    cases reviewed
    rfl

/-! ## Edits -/

/-- An edit that has not come back for review. -/
def EditPending (content : C) (state : PlanningState C) : Prop :=
  (state.next = .createPlan ∨ state.next = .clarifyPlan) ∧
    ∃ plan, state.plan = some plan ∧ plan.pendingEdit = some content

theorem Steps.edit {baseRevision : Nat} {content : C}
    (steps : Steps options state (.review (.edit baseRevision content)) after) :
    EditPending content after := by
  cases steps with
  | review reviewing read shown about reviewed =>
    cases reviewed
    exact ⟨.inl rfl, _, rfl, rfl⟩

/-- A pending edit stays pending until it is the draft on display. -/
theorem EditPending.next (faithful : options.content.RoundTrips) {content : C}
    (pending : EditPending content state) {event : PlanningEvent F C}
    (answered : ∀ update, event ≠ .turn update) :
    EditPending content (next options state event) ∨
      ∃ draft, offered options (next options state event) = some draft ∧
        draft.content = content := by
  obtain ⟨waits, plan, saved, edited⟩ := pending
  obtain same | steps := next_cases faithful state event
  · rw [same]
    exact .inl ⟨waits, plan, saved, edited⟩
  · generalize Plan.next options state event = after at steps ⊢
    cases steps with
    | turn update => exact absurd rfl (answered update)
    | resume starting _ _ _ _ | start starting _ _ _ => simp [starting] at waits
    | clarify planning read _ =>
      obtain ⟨id, rfl⟩ := reads_of_ok faithful read plan saved
      exact .inl ⟨.inr rfl, _, rfl, edited⟩
    | @draft current _ offer planning read chosen =>
      refine .inr ⟨current.nextDraft options offer, ?_, ?_⟩
      · rw [offered_of_read rfl (readPlanState_drafted faithful read offer)]
        rfl
      · obtain ⟨id, rfl⟩ := reads_of_ok faithful read plan saved
        exact outcomeContent_of_pendingEdit edited chosen
    | answer asking read _ =>
      obtain ⟨id, rfl⟩ := reads_of_ok faithful read plan saved
      exact .inl ⟨.inl rfl, _, rfl, edited⟩
    | review reviewing _ _ _ _ => simp [reviewing] at waits
    | reply _ responding => simp [responding] at waits

theorem EditPending.not_offered {content : C} (pending : EditPending content state) :
    offered options state = none := by
  apply offered_of_ne
  obtain waits | waits := pending.1 <;> simp [waits]

/-- The first draft that is offered after an edit has the content of the edit. -/
theorem EditPending.offered (faithful : options.content.RoundTrips) {content : C}
    {events : List (PlanningEvent F C)} (pending : EditPending content state)
    (answered : ∀ update, .turn update ∉ events)
    (first : ∀ shorter, shorter <+: events → shorter ≠ events →
      offered options (Machine.run (Plan.next options) state shorter) = none)
    {draft : PlanDraft C}
    (shown : Plan.offered options (Machine.run (Plan.next options) state events) = some draft) :
    draft.content = content := by
  induction events generalizing state with
  | nil =>
    rw [Machine.run_nil, pending.not_offered] at shown
    cases shown
  | cons event events ih =>
    have quiet : ∀ update, event ≠ .turn update := fun update same =>
      answered update (same ▸ List.mem_cons_self)
    obtain still | ⟨back, comes, same⟩ := pending.next faithful quiet
    · refine ih still (fun update member => answered update (.tail _ member)) ?_ shown
      intro shorter isPrefix proper
      exact first (event :: shorter) (List.cons_prefix_cons.mpr ⟨rfl, isPrefix⟩)
        fun equal => proper (List.cons.inj equal).2
    · cases events with
      | nil =>
        obtain rfl := Option.some.inj (comes.symm.trans shown)
        exact same
      | cons other events =>
        have early := first [event] ⟨other :: events, rfl⟩ (by simp)
        cases comes.symm.trans early

/-! ## Revisions -/

variable (options) in
/-- No turn starts a new Plan. -/
def StaysInCycle (state : PlanningState C) (event : PlanningEvent F C) : Prop :=
  event = .initializePlan → awaitedPlan options state ≠ .ok none

variable (options) in
/-- The revision of the draft that a planner run offers. -/
def draftRevisions (state : PlanningState C) : PlanningEvent F C → List Nat
  | .plan outcome =>
    if state.next = .createPlan then
      ((offered options (next options state (.plan outcome))).map (·.revision)).toList
    else []
  | _ => []

theorem draftRevisions_plan (state : PlanningState C) (outcome : PlannerOutcome F C) :
    draftRevisions options state (.plan outcome) =
      if state.next = .createPlan then
        ((offered options (next options state (.plan outcome))).map (·.revision)).toList
      else [] := rfl

/-- The revisions up to here. -/
def RevisionBound (revision : Nat) (state : PlanningState C) : Prop :=
  ∀ plan, state.plan = some plan → revision ≤ plan.revision

/-- A new draft takes the next revision of its Plan. -/
theorem mem_draftRevisions (faithful : options.content.RoundTrips) {event : PlanningEvent F C}
    {entry : Nat} (sound : state.Sound) (drafted : entry ∈ draftRevisions options state event) :
    ∃ plan updated, state.plan = some plan ∧ (next options state event).plan = some updated ∧
      entry = plan.revision + 1 ∧ updated.revision = entry := by
  cases event with
  | plan outcome =>
    rw [draftRevisions_plan] at drafted
    split at drafted
    · next planning =>
        obtain ⟨plan, saved, -, -⟩ := sound.saved planning (by simp)
        have shown := Option.mem_toList.mp drafted
        obtain same | steps := next_cases faithful state (.plan outcome)
        · rw [same, offered_of_ne (by simp [planning])] at shown
          cases shown
        · generalize next options state (.plan outcome) = after at steps shown ⊢
          cases steps with
          | clarify _ _ _ =>
            rw [offered_of_ne (by simp)] at shown
            cases shown
          | @draft current _ content _ read chosen =>
            rw [offered_of_read rfl (readPlanState_drafted faithful read content)] at shown
            obtain rfl := Option.some.inj shown
            obtain ⟨id, rfl⟩ := reads_of_ok faithful read plan saved
            exact ⟨plan, _, saved, rfl, rfl, rfl⟩
    · cases drafted
  | turn _ | initializePlan | answer _ | review _ | reply _ => cases drafted

theorem Reviewed.revision {current plan : PlanState C} {draft : PlanDraft C}
    {response : PlanReviewResponse C} (reviewed : Reviewed options current draft response plan) :
    plan.revision = current.revision := by
  cases reviewed <;> rfl

/-- Within a cycle the revision of the saved Plan never falls. -/
theorem RevisionBound.next (faithful : options.content.RoundTrips) {event : PlanningEvent F C}
    {revision : Nat} (sound : state.Sound) (stays : StaysInCycle options state event)
    (bound : RevisionBound revision state) :
    RevisionBound revision (next options state event) := by
  obtain same | steps := next_cases faithful state event
  · rw [same]
    exact bound
  · generalize Plan.next options state event = after at steps ⊢
    cases steps with
    | turn _ | reply _ _ => exact bound
    | resume _ stored _ _ _ =>
      have continued := bound _ stored
      rintro plan same
      obtain rfl := Option.some.inj same
      exact continued
    | start _ fresh _ _ => exact absurd fresh (stays rfl)
    | clarify planning read _ =>
      obtain ⟨plan, saved, -, -⟩ := sound.saved planning (by simp)
      obtain ⟨id, rfl⟩ := reads_of_ok faithful read plan saved
      rintro updated same
      obtain rfl := Option.some.inj same
      exact bound plan saved
    | draft planning read _ =>
      obtain ⟨plan, saved, -, -⟩ := sound.saved planning (by simp)
      obtain ⟨id, rfl⟩ := reads_of_ok faithful read plan saved
      rintro updated same
      obtain rfl := Option.some.inj same
      exact Nat.le_succ_of_le (bound plan saved)
    | answer asking read _ =>
      obtain ⟨plan, saved, -, -⟩ := sound.saved asking (by simp)
      obtain ⟨id, rfl⟩ := reads_of_ok faithful read plan saved
      rintro updated same
      obtain rfl := Option.some.inj same
      exact bound plan saved
    | review reviewing read _ _ reviewed =>
      obtain ⟨plan, saved, -, -⟩ := sound.saved reviewing (by simp)
      obtain ⟨id, rfl⟩ := reads_of_ok faithful read plan saved
      rintro updated same
      obtain rfl := Option.some.inj same
      rw [reviewed.revision]
      exact bound plan saved

theorem draftRevisions_pairwise (faithful : options.content.RoundTrips) (sound : state.Sound)
    {cycle : List (PlanningEvent F C)}
    (stays : Machine.Guarded (next options) (StaysInCycle options) state cycle) :
    (Machine.log (next options) (draftRevisions options) state cycle).Pairwise (· < ·) := by
  have preserved (state : PlanningState C) (event : PlanningEvent F C) (sound : state.Sound)
      (_ : StaysInCycle options state event) : (next options state event).Sound :=
    next_sound faithful state event sound
  have reported (state : PlanningState C) (event : PlanningEvent F C) (entry : Nat)
      (sound : state.Sound) (_ : StaysInCycle options state event)
      (drafted : entry ∈ draftRevisions options state event) :
      RevisionBound entry (next options state event) := by
    intro updated saved
    obtain ⟨plan, other, -, stored, -, same⟩ := mem_draftRevisions faithful sound drafted
    obtain rfl := Option.some.inj (stored.symm.trans saved)
    omega
  refine Machine.guarded_log_pairwise preserved reported ?_ ?_ ?_ stays sound
  · intro state event entry sound stays bound
    exact bound.next faithful sound stays
  · intro state event _ _
    cases event with
    | plan outcome =>
      rw [draftRevisions_plan]
      split
      · cases offered options (next options state (.plan outcome)) with
        | none => exact .nil
        | some draft => exact List.pairwise_singleton _ _
      · exact .nil
    | turn _ | initializePlan | answer _ | review _ | reply _ => exact .nil
  · intro state event old entry sound _ bound drafted
    obtain ⟨plan, -, saved, -, rfl, -⟩ := mem_draftRevisions faithful sound drafted
    have := bound plan saved
    omega

/-! ## Request identities -/

/-- The user message that a turn is about has an identity without surrounding whitespace. -/
def TrimmedRequest (state : PlanningState C) (event : PlanningEvent F C) : Prop :=
  event = .initializePlan → ∀ id, requestMessageId state.messages = .ok id → trim id = id

theorem requestMessageId_ok {messages : List BaseMessage} {id : String}
    (asked : requestMessageId messages = .ok id) :
    id ≠ "" ∧ ∃ message ∈ messages, message.role = .human ∧ message.id = id := by
  unfold requestMessageId at asked
  split at asked
  · cases asked
  · next message found =>
      split at asked
      · cases asked
      · next stable =>
          obtain rfl := Except.ok.inj asked
          refine ⟨stable, message, ?_, ?_, rfl⟩
          · exact List.mem_reverse.mp (List.mem_of_find?_eq_some found)
          · simpa using List.find?_some found

/-- A thread whose Plan names its request as the messages do. -/
structure Anchored (state : PlanningState C) : Prop where
  canonical : ∀ plan id, state.plan = some plan → plan.requestMessageId = some id → Canonical id
  request : ∀ plan, state.plan = some plan →
    state.next = .createPlan ∨ state.next = .clarifyPlan ∨ state.next = .reviewPlan →
      ∃ id, plan.requestMessageId = some id ∧ requestMessageId state.messages = .ok id
  handoff : ∀ plan handoff, state.plan = some plan → plan.handoff = some handoff →
    state.next = .done → requestMessageId state.messages = .ok handoff.messageId.text

theorem Anchored.read (anchored : Anchored state) (faithful : options.content.RoundTrips)
    {plan : PlanState C} (saved : state.plan = some plan) :
    readPlanState options.content (some plan) = .ok plan :=
  readPlanState_canonical faithful fun id requested => anchored.canonical plan id saved requested

theorem Anchored.current (anchored : Anchored state) (faithful : options.content.RoundTrips)
    {plan current : PlanState C} (saved : state.plan = some plan)
    (read : readPlanState options.content state.plan = .ok current) : current = plan := by
  rw [saved, anchored.read faithful saved] at read
  exact (Except.ok.inj read).symm

theorem Anchored.keep (anchored : Anchored state) {plan updated : PlanState C}
    (saved : state.plan = some plan) {node : PlanNode}
    (kept : updated.requestMessageId = plan.requestMessageId)
    (busy : state.next = .createPlan ∨ state.next = .clarifyPlan ∨ state.next = .reviewPlan)
    (unfinished : node ≠ .done) : Anchored { state with plan := some updated, next := node } where
  canonical := by
    rintro other id same requested
    obtain rfl := Option.some.inj same
    exact anchored.canonical plan id saved (kept.symm.trans requested)
  request := by
    rintro other same -
    obtain rfl := Option.some.inj same
    obtain ⟨id, requested, asked⟩ := anchored.request plan saved busy
    exact ⟨id, kept.trans requested, asked⟩
  handoff := fun _ _ _ _ finished => absurd finished unfinished

theorem Canonical.of_validate {id : String} {validated : NonBlankText}
    (trimmed : trim id = id) (valid : NonBlankText.validate id = .ok validated) :
    validated.text = id := by
  unfold NonBlankText.validate at valid
  split at valid
  · cases valid
  · obtain rfl := Except.ok.inj valid
    exact trimmed

theorem Steps.anchored (faithful : options.content.RoundTrips) {event : PlanningEvent F C}
    (steps : Steps options state event after) (trimmed : TrimmedRequest state event)
    (sound : state.Sound) (anchored : Anchored state) : Anchored after := by
  cases steps with
  | turn update =>
    exact ⟨anchored.canonical, fun _ _ busy => by simp at busy, fun _ _ _ _ finished => by
      simp at finished⟩
  | resume _ _ _ _ asked =>
    refine ⟨?_, ?_, fun _ _ _ _ finished => by simp at finished⟩
    · rintro plan id same requested
      obtain rfl := Option.some.inj same
      obtain rfl := Option.some.inj requested
      exact ⟨trimmed rfl _ asked, (requestMessageId_ok asked).1⟩
    · rintro plan same -
      obtain rfl := Option.some.inj same
      exact ⟨_, rfl, asked⟩
  | start _ _ asked valid =>
    have same := Canonical.of_validate (trimmed rfl _ asked) valid
    refine ⟨?_, ?_, fun _ _ _ _ finished => by simp at finished⟩
    · rintro plan id stored requested
      obtain rfl := Option.some.inj stored
      obtain rfl := Option.some.inj requested
      exact NonBlankText.canonical _
    · rintro plan stored -
      obtain rfl := Option.some.inj stored
      exact ⟨_, rfl, same.symm ▸ asked⟩
  | clarify planning read _ =>
    obtain ⟨plan, saved, -, -⟩ := sound.saved planning (by simp)
    obtain rfl := anchored.current faithful saved read
    exact anchored.keep saved rfl (.inl planning) (by simp)
  | draft planning read _ =>
    obtain ⟨plan, saved, -, -⟩ := sound.saved planning (by simp)
    obtain rfl := anchored.current faithful saved read
    exact anchored.keep saved rfl (.inl planning) (by simp)
  | answer asking read _ =>
    obtain ⟨plan, saved, -, -⟩ := sound.saved asking (by simp)
    obtain rfl := anchored.current faithful saved read
    exact anchored.keep saved rfl (.inr (.inl asking)) (by simp)
  | review reviewing read _ _ reviewed =>
    obtain ⟨plan, saved, -, -⟩ := sound.saved reviewing (by simp)
    obtain rfl := anchored.current faithful saved read
    cases reviewed with
    | @approve messageId handoff _ requested created =>
      have canonical := anchored.canonical _ _ saved requested
      obtain ⟨id, named, asked⟩ := anchored.request _ saved (.inr (.inr reviewing))
      obtain rfl := Option.some.inj (requested.symm.trans named)
      have same := Canonical.of_validate canonical.1 (createHandoff_ok created)
      refine ⟨?_, fun _ _ busy => by simp [PlanReviewResponse.path] at busy, ?_⟩
      · rintro updated other stored named
        obtain rfl := Option.some.inj stored
        exact anchored.canonical _ other saved named
      · rintro updated found stored handed -
        obtain rfl := Option.some.inj stored
        obtain rfl := Option.some.inj handed
        exact same.symm ▸ asked
    | cancel _ | edit _ _ | respond _ _ | reject _ _ =>
      exact anchored.keep saved rfl (.inr (.inr reviewing)) (by simp [PlanReviewResponse.path])
  | reply message responding =>
    obtain ⟨plan, saved, coherent, waits⟩ := sound.saved responding (by simp)
    refine ⟨anchored.canonical, fun _ _ busy => by simp at busy, ?_⟩
    intro other handoff stored handed
    obtain rfl := Option.some.inj (saved.symm.trans stored)
    have unhanded := (coherent.idle (by rw [waits]; decide) (by rw [waits]; decide)).2.2
    cases unhanded.symm.trans handed

/-! ## Every run -/

/-- In every run a saved Plan is coherent, an approval confirms the draft on display, the first draft
offered after an edit is the edit, and revisions increase within a cycle.  Where every turn names
its user message without surrounding whitespace, a saved Plan is read as it was saved and a
hand-off finds the message that it is for. -/
theorem plan_workflow_safe (faithful : options.content.RoundTrips)
    (events : List (PlanningEvent F C)) :
    let reached := Machine.run (next options) {} events
    (∀ plan, reached.plan = some plan → plan.Coherent) ∧
    (∀ baseRevision after, step options reached (.review (.approve baseRevision)) = .ok after →
      ∃ draft plan, offered options reached = some draft ∧ draft.revision = baseRevision ∧
        after.plan = some plan ∧ plan.confirmedPlan = some draft) ∧
    (∀ baseRevision content edited later,
      step options reached (.review (.edit baseRevision content)) = .ok edited →
      (∀ update, .turn update ∉ later) →
      (∀ shorter, shorter <+: later → shorter ≠ later →
        offered options (Machine.run (next options) edited shorter) = none) →
      ∀ draft, offered options (Machine.run (next options) edited later) = some draft →
        draft.content = content) ∧
    (∀ cycle, Machine.Guarded (next options) (StaysInCycle options) reached cycle →
      (Machine.log (next options) (draftRevisions options) reached cycle).Pairwise (· < ·)) ∧
    (Machine.Guarded (next options) TrimmedRequest {} events →
      ∀ plan, reached.plan = some plan → readPlanState options.content (some plan) = .ok plan ∧
        ∀ handoff, plan.handoff = some handoff → reached.next = .done →
          requestMessageId reached.messages = .ok handoff.messageId.text ∧
          ∃ message ∈ reached.messages,
            message.role = .human ∧ message.id = handoff.messageId.text) := by
  intro reached
  have start : PlanningState.Sound ({} : PlanningState C) := .unplanned rfl (.inl rfl)
  have sound : reached.Sound := Machine.run_invariant (next_sound faithful) start
  refine ⟨?_, ?_, ?_, ?_, ?_⟩
  · intro plan saved
    cases sound with
    | unplanned absent _ => cases absent.symm.trans saved
    | planned stored coherent _ =>
      obtain rfl := Option.some.inj (stored.symm.trans saved)
      exact coherent
  · intro baseRevision after ran
    exact (steps_of_ok faithful ran).approve
  · intro baseRevision content edited later ran answered first draft shown
    exact (steps_of_ok faithful ran).edit.offered faithful answered first shown
  · intro cycle stays
    exact draftRevisions_pairwise faithful sound stays
  · intro trimmed plan saved
    have preserved (state : PlanningState C) (event : PlanningEvent F C)
        (holds : state.Sound ∧ Anchored state) (trimmed : TrimmedRequest state event) :
        (next options state event).Sound ∧ Anchored (next options state event) := by
      refine ⟨next_sound faithful state event holds.1, ?_⟩
      obtain same | steps := next_cases faithful state event
      · rw [same]
        exact holds.2
      · exact steps.anchored faithful trimmed holds.1 holds.2
    have anchored := Machine.guarded_invariant preserved trimmed
      ⟨start, by simp, by simp, by simp⟩
    refine ⟨anchored.2.read faithful saved, fun handoff handed finished => ?_⟩
    have asked := anchored.2.handoff plan handoff saved handed finished
    exact ⟨asked, (requestMessageId_ok asked).2⟩

/-- Markdown Plans under a clarification contract without questions. -/
def markdownOptions : PlanOptions Unit MarkdownPlanContent where
  clarification :=
    { fingerprint := "0"
      serializeForm := fun form => .ok (form, [])
      buildResponseSchema := fun _ => .ok []
      restoreForm := fun _ => .ok ()
      validateAndNormalizeResponse := fun _ _ _ => .ok [] }
  content := markdownBinding "1"

theorem planText_nonblank : Bytes.strip "# Plan" ≠ "" := by decide

/-- A turn whose first draft is approved. -/
def approvalRun (id : String) : List (PlanningEvent Unit MarkdownPlanContent) :=
  [.turn [{ id, role := .human }], .initializePlan,
   .plan (.draft (some { markdown := "# Plan", nonblank := planText_nonblank })),
   .review (.approve 1)]

theorem plan_workflow_safe_markdown :
    ∃ plan handoff, (Machine.run (next markdownOptions) {} (approvalRun "m1")).plan = some plan ∧
      plan.handoff = some handoff ∧ plan.Coherent ∧
      requestMessageId (Machine.run (next markdownOptions) {} (approvalRun "m1")).messages =
        .ok handoff.messageId.text := by
  obtain ⟨coherent, -, -, -, anchored⟩ := @plan_workflow_safe _ _ markdownOptions
    (markdownBinding_roundTrips "1") (approvalRun "m1")
  refine ⟨_, _, rfl, rfl, coherent _ rfl, ((anchored ?_ _ rfl).2 _ rfl rfl).1⟩
  refine ⟨by simp [TrimmedRequest], ?_, by simp [TrimmedRequest], by simp [TrimmedRequest], trivial⟩
  rintro - id asked
  obtain rfl := Except.ok.inj asked
  decide

/-- The identity of a user message with a leading blank reaches the hand-off without it. -/
theorem padded_request_is_lost :
    ∃ plan handoff, (Machine.run (next markdownOptions) {} (approvalRun " m1")).plan = some plan ∧
      plan.handoff = some handoff ∧
      ∀ message ∈ (Machine.run (next markdownOptions) {} (approvalRun " m1")).messages,
        message.id ≠ handoff.messageId.text :=
  ⟨_, _, rfl, rfl, by decide⟩

end Tinkerfin.Plan
