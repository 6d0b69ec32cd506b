import Tinkerfin.Plan.Handoff
import Tinkerfin.Plan.WorkflowSafety

/-!
# Every approved Plan is handed off once

The log of a thread is read by an automaton that follows one Plan at a time from its approval to the
end of its native work, and fails where a hand-off is staged, accepted or completed out of turn.  A
thread on which no Plan was staged before an approval keeps in step with the automaton, whatever
requests and crashes come.  A Plan that is approved after another one was staged is never handed
off: its native evidence is compared with the digest of the earlier Plan.
-/

namespace Tinkerfin.Plan

open Messaging (bind_eq_ok)

variable {F C : Type} {options : PlanOptions F C} {exposes : BaseMessage → String → Bool}

/-! ## The life of a hand-off -/

/-- How far the newest approved Plan of a thread got. -/
inductive HandoffStage
  | unapproved
  | approved (handed : Handed)
  | staged (handed : Handed)
  | accepted (handed : Handed)
  | completed (handed : Handed)
  deriving DecidableEq

namespace HandoffStage

/-- The stage after an effect.  A Plan that was not staged yet cannot make way for another. -/
def advance : HandoffStage → HandoffEffect → Option HandoffStage
  | .approved _, .approved _ => none
  | _, .approved handed => some (.approved handed)
  | .approved handed, .staged other => if other = handed then some (.staged handed) else none
  | .staged handed, .accepted other => if other = handed then some (.accepted handed) else none
  | .accepted handed, .started other held =>
    if other = handed ∧ held = some handed.digest then some (.accepted handed) else none
  | .accepted handed, .completed other =>
    if other = handed then some (.completed handed) else none
  | _, _ => none

/-- The stage that a log leads to, if its hand-offs are in order. -/
def ofLog (log : List HandoffEffect) : Option HandoffStage :=
  log.foldlM advance .unapproved

theorem ofLog_append {log : List HandoffEffect} {stage : HandoffStage}
    (reached : ofLog log = some stage) (effects : List HandoffEffect) : ofLog (log ++ effects) = effects.foldlM advance stage := by
  rw [ofLog, List.foldlM_append]
  exact congrArg (· >>= _) reached

/-- The digest of the Plan that is on the native graph. -/
def digest : HandoffStage → Option String
  | .unapproved => none
  | .approved _ => none
  | .staged handed => some handed.digest
  | .accepted handed => some handed.digest
  | .completed handed => some handed.digest

/-- The phase that a hand-off in this stage shows. -/
def phase : HandoffStage → Option (Handed × PlanHandoffPhase)
  | .unapproved => none
  | .approved handed => some (handed, .pending)
  | .staged handed => some (handed, .pending)
  | .accepted handed => some (handed, .accepted)
  | .completed handed => some (handed, .completed)

end HandoffStage

/-! ## Inversions -/

theorem readable_ok {α : Type} {read : Except PlanError α} {value : α} :
    readable read = .ok value ↔ read = .ok value := by
  cases read <;> simp [readable, Except.mapError]

section Commit

variable {thread after : PlanThread C} {role : CheckpointRole} {id : NonBlankText}
  {planning : PlanningState C} {digest : Option String}

theorem PlanThread.commit_ok (committed : thread.commit role id planning digest = .ok after) :
    after = { planning, digest, checkpoints :=
      { id, role, messages := planning.messages, digest } :: thread.checkpoints } := by
  unfold commit at committed
  split at committed
  · cases committed
  · exact (Except.ok.inj committed).symm

theorem PlanThread.commit_fresh (fresh : ∀ saved ∈ thread.checkpoints, saved.id ≠ id) :
    thread.commit role id planning digest = .ok { planning, digest, checkpoints :=
      { id, role, messages := planning.messages, digest } :: thread.checkpoints } := by
  apply if_neg
  simpa using fresh

end Commit

/-- A Plan as a request reads it. -/
def PlanThread.Reads (thread : PlanThread C) (plan : PlanState C) : Prop :=
  ∃ saved id, thread.planning.plan = some saved ∧ plan = { saved with requestMessageId := id }

theorem savedPlan_ok (faithful : options.content.RoundTrips) {thread : PlanThread C}
    {plan : Option (PlanState C)} (read : savedPlan options thread.planning = .ok plan) :
    (thread.planning.plan = none ∧ plan = none) ∨ ∃ current, plan = some current ∧
      thread.Reads current := by
  unfold savedPlan at read
  cases saved : thread.planning.plan with
  | none =>
    rw [saved] at read
    exact .inl ⟨rfl, (Except.ok.inj read).symm⟩
  | some stored =>
    rw [saved, Option.mapM_some] at read
    obtain ⟨current, read, chosen⟩ := bind_eq_ok.mp read
    obtain ⟨id, same⟩ := reads_of_ok faithful read stored rfl
    exact .inr ⟨current, (Except.ok.inj chosen).symm, stored, id, saved, same⟩

theorem finishPlanning_ok {plan : Option (PlanState C)} {control : Control C}
    (finished : finishPlanning plan = .ok control) :
    control = .idle ∨ ∃ current, plan = some current ∧ control = .handoff current := by
  unfold finishPlanning at finished
  split at finished
  · exact .inl (Except.ok.inj finished).symm
  · next current =>
      split at finished
      · exact .inl (Except.ok.inj finished).symm
      · exact .inl (Except.ok.inj finished).symm
      · split at finished
        · exact .inr ⟨current, rfl, (Except.ok.inj finished).symm⟩
        · cases finished
      · cases finished

/-- An overlay is the saved Plan, and its hand-off has native evidence. -/
theorem nativePlanOverlay_ok (faithful : options.content.RoundTrips) {thread : PlanThread C}
    {overlay : Option (PlanState C)} (shown : nativePlanOverlay options thread = .ok overlay) :
    (∀ saved handoff, thread.planning.plan = some saved → saved.status = .approved →
      saved.handoff = some handoff → handoff.phase ≠ .pending) ∧
    ∀ plan, overlay = some plan → thread.Reads plan := by
  unfold nativePlanOverlay at shown
  cases stored : thread.planning.plan with
  | none =>
    rw [stored] at shown
    obtain rfl := Except.ok.inj shown
    exact ⟨fun _ _ absent => (nomatch absent), fun _ absent => (nomatch absent)⟩
  | some saved =>
    rw [stored] at shown
    obtain ⟨current, read, shown⟩ := bind_eq_ok.mp shown
    obtain ⟨id, rfl⟩ := reads_of_ok faithful (readable_ok.mp read) saved rfl
    have reads : thread.Reads { saved with requestMessageId := id } := ⟨saved, id, stored, rfl⟩
    constructor
    · rintro _ handoff same approved handed pending
      obtain rfl := Option.some.inj same
      simp only [approved, handed, if_pos pending] at shown
      cases shown
    · rintro plan rfl
      split at shown
      · split at shown
        · cases shown
        · exact Option.some.inj (Except.ok.inj shown) ▸ reads
      · cases shown
      · exact Option.some.inj (Except.ok.inj shown) ▸ reads
      · cases shown

/-- Where a request can go. -/
inductive Routed (thread : PlanThread C) : PlanThread C → Control C → Prop
  | shown : Routed thread thread .idle
  | planning (offered : Option (PlanningResponse C)) : Routed thread thread (.planning offered)
  | handoff {plan : PlanState C} (reads : thread.Reads plan) : Routed thread thread (.handoff plan)
  | turn {after : PlanThread C} {id : NonBlankText} {messages : List BaseMessage}
      (starts : thread.role ≠ some .planning ∨
        ∃ plan, thread.Reads plan ∧ plan.status = .awaitingInput)
      (committed : thread.commit .planning id { thread.planning with
        messages := addMessages thread.planning.messages messages, next := .initializePlan }
        thread.digest = .ok after) :
      Routed thread after (.planning none)
  | unplanned (absent : thread.planning.plan = none) : Routed thread thread (.native none)
  | native {overlay : Option (PlanState C)}
      (evidence : ∀ saved handoff, thread.planning.plan = some saved →
        saved.status = .approved → saved.handoff = some handoff → handoff.phase ≠ .pending)
      (reads : ∀ plan, overlay = some plan → thread.Reads plan) :
      Routed thread thread (.native overlay)

section Route

variable {thread after : PlanThread C} {control : Control C} {plan : Option (PlanState C)}

theorem planningRoute_ok
    (read : ∀ current, plan = some current → thread.Reads current) {id : NonBlankText}
    {input : GraphInput C}
    (routed : planningRoute options thread plan id input = .ok (after, control)) :
    Routed thread after control := by
  cases input with
  | retry resumeIntent =>
    cases routed
    exact .planning none
  | resume response =>
    dsimp only [planningRoute] at routed
    split at routed
    · obtain ⟨ended, finished, routed⟩ := bind_eq_ok.mp routed
      cases routed
      obtain rfl | ⟨current, same, rfl⟩ := finishPlanning_ok finished
      · exact .shown
      · exact .handoff (read current same)
    · cases routed
      exact .planning _
  | update messages =>
    dsimp only [planningRoute] at routed
    split at routed
    · next starts =>
        obtain ⟨planning, ran, routed⟩ := bind_eq_ok.mp routed
        obtain rfl := Except.ok.inj (readable_ok.mp ran)
        obtain ⟨started, committed, routed⟩ := bind_eq_ok.mp routed
        cases routed
        refine .turn ?_ committed
        obtain native | awaited := Bool.or_eq_true_iff.mp starts
        · exact .inl (of_decide_eq_true native)
        · obtain ⟨current, same, waiting⟩ := (Option.any_eq_true _ _).mp awaited
          exact .inr ⟨current, read current same, of_decide_eq_true waiting⟩
    · cases routed
      exact .planning none

theorem route_ok (faithful : options.content.RoundTrips) {request : PlanRequest C}
    {report : NativeReport} {id : NonBlankText}
    (routed : route options thread request report id = .ok (after, control)) :
    Routed thread after control := by
  unfold route at routed
  split at routed
  · next ordinary =>
      cases routed
      exact .unplanned (Option.isNone_iff_eq_none.mp (Bool.and_eq_true_iff.mp ordinary).2)
  · obtain ⟨plan, saved, routed⟩ := bind_eq_ok.mp routed
    have read (current : PlanState C) (same : plan = some current) : thread.Reads current := by
      obtain ⟨-, absent⟩ | ⟨found, rfl, reads⟩ := savedPlan_ok faithful (readable_ok.mp saved)
      · cases absent.symm.trans same
      · exact Option.some.inj same ▸ reads
    obtain ⟨uses, -, routed⟩ := bind_eq_ok.mp routed
    split at routed
    · cases routed
      exact .shown
    · exact planningRoute_ok read routed
    · obtain ⟨overlay, shown, routed⟩ := bind_eq_ok.mp routed
      cases routed
      obtain ⟨evidence, reads⟩ := nativePlanOverlay_ok faithful shown
      exact .native evidence reads

end Route

/-! ## Threads in step with their log -/

/-- What the place of a request says about the hand-off. -/
def Control.Holds (thread : PlanThread C) (stage : HandoffStage) : Control C → Prop
  | .idle => True
  | .planning _ => True
  | .handoff plan => thread.Reads plan
  | .staged plan checkpoint => thread.Reads plan ∧ ∃ handed, stage = .staged handed ∧
      (thread.checkpoints.find? (·.id = checkpoint)).bind (·.digest) = some handed.digest
  | .executing plan => thread.Reads plan ∧ ∃ handed, stage = .accepted handed
  | .native overlay => (∀ handed, stage ≠ .approved handed) ∧
      ∀ plan, continues overlay = some plan → thread.Reads plan ∧ ∃ handed, stage = .accepted handed

/-- A thread whose log leads to a stage that its channels show. -/
structure Tracked (state : HandoffState C) (stage : HandoffStage) : Prop where
  logged : HandoffStage.ofLog state.log = some stage
  sound : state.thread.planning.Sound
  digest : state.thread.digest = stage.digest
  newest : ∀ saved, state.thread.checkpoints.head? = some saved →
    saved.digest = state.thread.digest
  shows : ∀ plan handoff, state.thread.planning.plan = some plan → plan.handoff = some handoff →
    stage.phase = some (handoff.handed, handoff.phase)
  waiting : ∀ handed, stage = .approved handed → state.thread.role = some .planning ∧
    state.thread.planning.next = .done ∧ ∃ plan, state.thread.planning.plan = some plan ∧
      plan.status = .approved ∧ ∀ id, plan.requestMessageId = some id → Canonical id
  control : state.control.Holds state.thread stage

section Tracked

variable {state after : HandoffState C} {stage : HandoffStage} {id : NonBlankText}
  {report : NativeReport}

theorem Tracked.idle (tracked : Tracked state stage) :
    Tracked { state with control := .idle } stage :=
  { tracked with control := trivial }

theorem Tracked.reads (tracked : Tracked state stage) {plan : PlanState C} {handoff : PlanHandoff}
    (reads : state.thread.Reads plan) (handed : plan.handoff = some handoff) :
    stage.phase = some (handoff.handed, handoff.phase) := by
  obtain ⟨saved, id, stored, rfl⟩ := reads
  exact tracked.shows saved handoff stored handed

theorem Tracked.approved (tracked : Tracked state stage) {plan : PlanState C} {handoff : PlanHandoff}
    (reads : state.thread.Reads plan) (handed : plan.handoff = some handoff) :
    plan.status = .approved := by
  obtain ⟨saved, id, stored, rfl⟩ := reads
  cases tracked.sound with
  | unplanned absent _ => cases absent.symm.trans stored
  | planned found coherent _ =>
    obtain rfl := Option.some.inj (found.symm.trans stored)
    exact coherent.handoff.mp (Option.isSome_of_eq_some handed)

theorem Tracked.marked (tracked : Tracked state stage) {plan : PlanState C}
    {handoff marked : PlanHandoff} (reads : state.thread.Reads plan)
    (handed : plan.handoff = some handoff) :
    PlanningState.Sound
      { state.thread.planning with plan := some { plan with handoff := some marked } } := by
  have approved := tracked.approved reads handed
  obtain ⟨saved, id, stored, rfl⟩ := reads
  cases tracked.sound with
  | unplanned absent _ => cases absent.symm.trans stored
  | planned found coherent waits =>
    obtain rfl := Option.some.inj (found.symm.trans stored)
    refine .planned rfl ⟨coherent.form, coherent.confirmed, ?_, coherent.frozen,
      coherent.revision⟩ waits
    exact iff_of_true rfl approved

theorem stage_accepted {handed : Handed} (shown : stage.phase = some (handed, .accepted)) :
    stage = .accepted handed := by
  cases stage with
  | accepted => exact congrArg _ (Prod.mk.inj (Option.some.inj shown)).1
  | unapproved | approved | staged | completed => simp [HandoffStage.phase] at shown

theorem stage_pending {handed : Handed} (shown : stage.phase = some (handed, .pending)) :
    stage = .approved handed ∨ stage = .staged handed := by
  cases stage with
  | approved => exact .inl (congrArg _ (Prod.mk.inj (Option.some.inj shown)).1)
  | staged => exact .inr (congrArg _ (Prod.mk.inj (Option.some.inj shown)).1)
  | unapproved | accepted | completed => simp [HandoffStage.phase] at shown

/-! ## Requests -/

theorem continues_eq {overlay : Option (PlanState C)} {plan : PlanState C}
    (continued : continues overlay = some plan) :
    overlay = some plan ∧ ∃ handoff, plan.handoff = some handoff ∧ handoff.phase = .accepted := by
  obtain ⟨same, accepted⟩ := Option.filter_eq_some_iff.mp continued
  obtain ⟨handoff, handed, phase⟩ := (Option.any_eq_true _ _).mp accepted
  exact ⟨same, handoff, handed, of_decide_eq_true phase⟩

theorem Tracked.overlay (tracked : Tracked state stage) {overlay : Option (PlanState C)}
    {plan : PlanState C} (continued : continues overlay = some plan)
    (reads : state.thread.Reads plan) :
    ∃ handoff, plan.handoff = some handoff ∧ stage = .accepted handoff.handed := by
  obtain ⟨-, handoff, handed, accepted⟩ := continues_eq continued
  refine ⟨handoff, handed, stage_accepted ?_⟩
  rw [tracked.reads reads handed, accepted]

theorem Tracked.not_approved (tracked : Tracked state stage)
    (evidence : ∀ saved handoff, state.thread.planning.plan = some saved →
      saved.status = .approved → saved.handoff = some handoff → handoff.phase ≠ .pending)
    (handed : Handed) : stage ≠ .approved handed := by
  rintro rfl
  obtain ⟨-, -, plan, saved, approved, -⟩ := tracked.waiting handed rfl
  cases tracked.sound with
  | unplanned absent _ => cases absent.symm.trans saved
  | planned found coherent _ =>
    obtain rfl := Option.some.inj (found.symm.trans saved)
    obtain ⟨handoff, shown⟩ := Option.isSome_iff_exists.mp (coherent.handoff.mpr approved)
    have phase := tracked.shows _ handoff saved shown
    exact evidence _ handoff saved approved shown
      (Prod.mk.inj (Option.some.inj phase)).2.symm

theorem Tracked.routed (tracked : Tracked state stage) {thread : PlanThread C} {control : Control C}
    (routed : Routed state.thread thread control) :
    Tracked { state with thread, control } stage ∧
      (∀ overlay, control = .native overlay → thread = state.thread) := by
  cases routed with
  | shown => exact ⟨{ tracked with control := trivial }, fun _ other => nomatch other⟩
  | planning offered => exact ⟨{ tracked with control := trivial }, fun _ other => nomatch other⟩
  | handoff reads => exact ⟨{ tracked with control := reads }, fun _ other => nomatch other⟩
  | turn starts committed =>
    obtain rfl := PlanThread.commit_ok committed
    refine ⟨⟨tracked.logged, ?_, tracked.digest, ?_, tracked.shows, ?_, trivial⟩,
      fun _ other => nomatch other⟩
    · cases tracked.sound with
      | unplanned absent _ => exact .unplanned absent (.inr rfl)
      | planned saved coherent _ => exact .planned saved coherent trivial
    · rintro saved newest
      obtain rfl := Option.some.inj newest
      rfl
    · intro handed same
      obtain ⟨role, -, plan, stored, approved, -⟩ := tracked.waiting handed same
      obtain native | ⟨_, ⟨saved, id, found, rfl⟩, waiting⟩ := starts
      · exact absurd role native
      · obtain rfl := Option.some.inj (stored.symm.trans found)
        cases approved.symm.trans waiting
  | unplanned absent =>
    refine ⟨{ tracked with control := ⟨tracked.not_approved fun _ _ saved => ?_, ?_⟩ },
      fun _ _ => rfl⟩
    · cases absent.symm.trans saved
    · exact fun _ continued => nomatch continued
  | native evidence reads =>
    refine ⟨{ tracked with control := ⟨tracked.not_approved evidence, ?_⟩ }, fun _ _ => rfl⟩
    intro plan continued
    have current := reads plan (continues_eq continued).1
    obtain ⟨handoff, -, accepted⟩ := tracked.overlay continued current
    exact ⟨current, _, accepted⟩

theorem Tracked.request (tracked : Tracked state stage) (faithful : options.content.RoundTrips)
    {request : PlanRequest C} (ran : requestStep options state request report id = .ok after) :
    Tracked after stage := by
  obtain ⟨⟨thread, control⟩, routed, ran⟩ := bind_eq_ok.mp ran
  obtain ⟨reached, kept⟩ := tracked.routed (route_ok faithful routed)
  dsimp only at ran
  split at ran
  · next overlay =>
      cases ran
      obtain rfl := kept overlay rfl
      refine { reached with logged := ?_ }
      cases continued : continues overlay with
      | none => simpa [continued] using reached.logged
      | some plan =>
        obtain ⟨handoff, handed, rfl⟩ := tracked.overlay continued
          (reached.control.2 plan continued).1
        simp [PlanState.effects, handed, HandoffStage.ofLog_append tracked.logged,
          HandoffStage.advance, tracked.digest, HandoffStage.digest]
  · cases ran
    exact reached

/-! ## The planning graph -/

theorem PlanningState.Sound.unhanded {planning : PlanningState C} (sound : planning.Sound)
    (busy : planning.next ≠ .done ∧ planning.next ≠ .initializePlan) {plan : PlanState C}
    (saved : planning.plan = some plan) : plan.handoff = none := by
  obtain ⟨found, stored, coherent, waits⟩ := sound.saved rfl busy
  obtain rfl := Option.some.inj (stored.symm.trans saved)
  apply Option.not_isSome_iff_eq_none.mp
  intro handed
  have approved := coherent.handoff.mp handed
  cases next : planning.next <;> rw [next] at waits busy <;>
    simp [PlanState.Waits, approved] at waits busy

/-- A node either approves the draft on display or leaves no hand-off behind. -/
theorem Steps.handoff (faithful : options.content.RoundTrips) {before result : PlanningState C}
    {event : PlanningEvent F C} (steps : Steps options before event result) (sound : before.Sound)
    (node : ∀ update, event ≠ .turn update) :
    before.next ≠ .done ∧
      ((∃ baseRevision plan handoff, event = .review (.approve baseRevision) ∧
          result.plan = some plan ∧ plan.handoff = some handoff ∧ handoff.phase = .pending ∧
          result.next = .done ∧ plan.status = .approved ∧
          ∀ id, plan.requestMessageId = some id → Canonical id) ∨
        approvals result.plan event = [] ∧ ∀ plan, result.plan = some plan → plan.handoff = none) := by
  have kept := steps.sound faithful sound
  cases steps with
  | turn update => exact absurd rfl (node update)
  | resume starting | start starting =>
    refine ⟨by simp [starting], .inr ⟨rfl, fun plan saved => ?_⟩⟩
    exact kept.unhanded (by simp) saved
  | clarify busy | draft busy | answer busy =>
    refine ⟨by simp [busy], .inr ⟨rfl, fun plan saved => ?_⟩⟩
    exact kept.unhanded (by simp) saved
  | reply message responding =>
    refine ⟨by simp [responding], .inr ⟨rfl, fun plan saved => ?_⟩⟩
    exact sound.unhanded (by simp [responding]) saved
  | review reviewing read shown about reviewed =>
    refine ⟨by simp [reviewing], ?_⟩
    cases reviewed with
    | @approve messageId handoff baseRevision requested created =>
      refine .inl ⟨baseRevision, _, handoff, rfl, rfl, rfl, ?_, rfl, rfl, ?_⟩
      · obtain ⟨validated, -, made⟩ := bind_eq_ok.mp created
        cases made
        rfl
      · obtain ⟨plan, saved, -, -⟩ := sound.saved reviewing (by simp)
        rw [saved] at read
        obtain ⟨id, rfl, canonical⟩ := readPlanState_ok faithful read
        exact canonical
    | cancel | edit | respond | reject =>
      exact .inr ⟨rfl, fun plan saved => kept.unhanded (by simp [PlanReviewResponse.path]) saved⟩

/-- A Plan is approved on a thread that holds no digest of a staged Plan. -/
def FirstHandoff (state : HandoffState C) : HandoffEvent F C → Prop
  | .planning (.review (.approve _)) _ => state.thread.digest = none
  | _ => True

theorem Tracked.planning (tracked : Tracked state stage) (faithful : options.content.RoundTrips)
    {offered : Option (PlanningResponse C)} {event : PlanningEvent F C}
    (first : FirstHandoff state (.planning event id))
    (ran : planningStep options state offered event id = .ok after) :
    ∃ stage, Tracked after stage := by
  unfold planningStep at ran
  split at ran
  · cases ran
  · next permitted =>
      obtain ⟨planning, stepped, ran⟩ := bind_eq_ok.mp ran
      obtain ⟨thread, committed, ran⟩ := bind_eq_ok.mp ran
      cases ran
      obtain rfl := PlanThread.commit_ok committed
      have steps := steps_of_ok faithful (readable_ok.mp stepped)
      have node (update : List BaseMessage) : event ≠ .turn update := by
        rintro rfl
        simp [permits] at permitted
      have sound := steps.sound faithful tracked.sound
      have newest (saved : NativeCheckpoint)
          (same : some { id, role := .planning, messages := planning.messages
                         digest := state.thread.digest } = some saved) :
          saved.digest = state.thread.digest := Option.some.inj same ▸ rfl
      obtain ⟨running, ⟨baseRevision, plan, handoff, rfl, saved, handed, pending, finished,
        approved, canonical⟩ | ⟨silent, unhanded⟩⟩ := steps.handoff faithful tracked.sound node
      · have unstaged : stage = .unapproved := by
          have absent : stage.digest = none := tracked.digest.symm.trans first
          cases stage with
          | unapproved => rfl
          | approved other => exact absurd (tracked.waiting other rfl).2.1 running
          | staged | accepted | completed => cases absent
        subst unstaged
        refine ⟨.approved handoff.handed, ?_, sound, first, newest, ?_, ?_, trivial⟩
        · simp [approvals, saved, PlanState.effects, handed,
            HandoffStage.ofLog_append tracked.logged, HandoffStage.advance]
        · rintro other found stored shown
          obtain rfl := Option.some.inj (saved.symm.trans stored)
          obtain rfl := Option.some.inj (handed.symm.trans shown)
          rw [pending]
          rfl
        · exact fun _ _ => ⟨rfl, finished, plan, saved, approved, canonical⟩
      · refine ⟨stage, ?_, sound, tracked.digest, newest, ?_, ?_, trivial⟩
        · simpa [silent] using tracked.logged
        · intro plan handoff stored shown
          cases (unhanded plan stored).symm.trans shown
        · intro handed same
          exact absurd (tracked.waiting handed same).2.1 running

theorem Tracked.planningEnded (tracked : Tracked state stage) (faithful : options.content.RoundTrips)
    (ran : planningEnded options state = .ok after) : Tracked after stage := by
  unfold Plan.planningEnded at ran
  split at ran
  · cases ran
    exact tracked.idle
  · cases ran
    exact tracked.idle
  · obtain ⟨plan, read, ran⟩ := bind_eq_ok.mp ran
    obtain ⟨control, finished, ran⟩ := bind_eq_ok.mp ran
    cases ran
    obtain rfl | ⟨current, rfl, rfl⟩ := finishPlanning_ok finished
    · exact tracked.idle
    · obtain ⟨-, absent⟩ | ⟨found, same, reads⟩ := savedPlan_ok faithful (readable_ok.mp read)
      · cases absent
      · obtain rfl := Option.some.inj same
        exact { tracked with control := reads }
  · cases ran

/-! ## Phases -/

/-- The stage that a phase leads to. -/
def HandoffProgress.reached : HandoffProgress → Handed → HandoffStage
  | .accepted _, handed => .accepted handed
  | .completed _ _, handed => .completed handed

theorem PlanHandoff.mark_handed (handoff : PlanHandoff) (progress : HandoffProgress) :
    (handoff.mark progress).handed = handoff.handed := by
  cases progress <;> rfl

theorem PlanHandoff.mark_phase (handoff : PlanHandoff) (progress : HandoffProgress) :
    (handoff.mark progress).phase = progress.phase := by
  cases progress <;> rfl

/-- A phase in turn is committed on the planning head. -/
theorem commitPhase_ok {thread committed : PlanThread C} {plan updated : PlanState C}
    {handoff : PlanHandoff} {progress : HandoffProgress} {effects : List HandoffEffect}
    (approved : plan.status = .approved) (handed : plan.handoff = some handoff)
    (turn : handoff.phase.expected = some progress.phase)
    (ran : commitPhase thread plan progress id = .ok (committed, updated, effects)) :
    updated = { plan with handoff := some (handoff.mark progress) } ∧
      effects = [progress.effect handoff.handed] ∧
      thread.commit .planning id { thread.planning with plan := some updated } thread.digest =
        .ok committed := by
  have ahead : handoff.phase ≠ progress.phase := by
    intro same
    rw [same] at turn
    cases progress <;> cases turn
  have marked : markHandoffPhase plan progress =
      .ok (some { plan with handoff := some (handoff.mark progress) }) := by
    simp [markHandoffPhase, handed, approved, ahead, turn]
  obtain ⟨result, same, ran⟩ := bind_eq_ok.mp ran
  obtain rfl := Except.ok.inj (marked.symm.trans same)
  obtain ⟨after, kept, ran⟩ := bind_eq_ok.mp ran
  cases ran
  refine ⟨rfl, ?_, kept⟩
  simp [PlanState.effects, PlanHandoff.mark_handed]

/-- A phase in turn moves the thread to the next stage. -/
theorem Tracked.advanced (tracked : Tracked state stage) {plan updated : PlanState C}
    {handoff : PlanHandoff} {progress : HandoffProgress} {thread : PlanThread C}
    {effects : List HandoffEffect} (reads : state.thread.Reads plan)
    (handed : plan.handoff = some handoff) (turn : handoff.phase.expected = some progress.phase)
    (next : stage.advance (progress.effect handoff.handed) = some (progress.reached handoff.handed))
    (same : (progress.reached handoff.handed).digest = stage.digest)
    (ran : commitPhase state.thread plan progress id = .ok (thread, updated, effects)) :
    Tracked { thread, control := .idle, log := state.log ++ effects }
        (progress.reached handoff.handed) ∧
      thread.Reads updated ∧ updated.handoff = some (handoff.mark progress) := by
  obtain ⟨rfl, rfl, committed⟩ :=
    commitPhase_ok (tracked.approved reads handed) handed turn ran
  obtain rfl := PlanThread.commit_ok committed
  refine ⟨⟨?_, tracked.marked reads handed, tracked.digest.trans same.symm, ?_, ?_, ?_, trivial⟩,
    ⟨_, _, rfl, rfl⟩, rfl⟩
  · rw [HandoffStage.ofLog_append tracked.logged, List.foldlM_cons, next]
    rfl
  · rintro saved newest
    obtain rfl := Option.some.inj newest
    rfl
  · rintro other found stored shown
    obtain rfl := Option.some.inj stored
    obtain rfl := Option.some.inj shown
    rw [PlanHandoff.mark_handed, PlanHandoff.mark_phase]
    cases progress <;> rfl
  · rintro other waiting
    cases progress <;> cases waiting

theorem Tracked.complete {handed : Handed} (tracked : Tracked state (.accepted handed))
    {plan : PlanState C} {handoff : PlanHandoff} (reads : state.thread.Reads plan)
    (shown : plan.handoff = some handoff) {native completed : NonBlankText}
    {thread : PlanThread C} {updated : PlanState C} {effects : List HandoffEffect}
    (ran : commitPhase state.thread plan (.completed native completed) id =
      .ok (thread, updated, effects)) :
    Tracked { thread, control := .idle, log := state.log ++ effects } (.completed handed) := by
  have phase := Option.some.inj (tracked.reads reads shown)
  obtain ⟨rfl, accepted⟩ := Prod.mk.inj phase
  refine (tracked.advanced reads shown ?_ ?_ rfl ran).1
  · rw [← accepted]
    rfl
  · exact if_pos rfl

/-! ## The hand-off -/

theorem snapshotHandoffMessage_some {snapshot : NativeSnapshot} {handoff : PlanHandoff}
    {message : BaseMessage}
    (found : snapshotHandoffMessage exposes snapshot handoff = .ok (some message)) :
    snapshot.digest = some handoff.digest := by
  unfold snapshotHandoffMessage at found
  split at found
  · cases found
  · next marker held =>
      split at found
      · cases found
      · next same => exact held.trans (congrArg some (not_not.mp same))

theorem snapshotHandoffMessage_none {snapshot : NativeSnapshot} {handoff : PlanHandoff}
    (found : snapshotHandoffMessage exposes snapshot handoff = .ok none) :
    snapshot.digest = none := by
  unfold snapshotHandoffMessage at found
  split at found
  · next unstaged => exact unstaged
  · split at found
    · cases found
    · split at found
      · cases found
      · split at found <;> cases found
      · cases found

theorem nativeSnapshotForPlan_pending {thread : PlanThread C} {plan : PlanState C}
    {handoff : PlanHandoff} (handed : plan.handoff = some handoff)
    (pending : handoff.phase = .pending) :
    nativeSnapshotForPlan thread plan =
      { id := thread.checkpoints.head?.map (·.id)
        messages := thread.planning.messages, digest := thread.digest } := by
  have unproven : nativeCheckpointIdForPlan plan = none := by
    have completed : handoff.completedCheckpointId = none := by
      rw [← Option.not_isSome_iff_eq_none, handoff.completed, pending]
      simp
    simp [nativeCheckpointIdForPlan, handed, completed, handoff.accepted.mpr pending]
  rw [nativeSnapshotForPlan, unproven]

theorem PlanningState.Sound.messages {planning : PlanningState C} (sound : planning.Sound)
    (messages : List BaseMessage) : PlanningState.Sound { planning with messages } := by
  cases sound with
  | unplanned absent idle => exact .unplanned absent idle
  | planned saved coherent waits => exact .planned saved coherent waits

theorem Tracked.stageHandoff (tracked : Tracked state stage) {plan : PlanState C} {handoff : PlanHandoff}
    (reads : state.thread.Reads plan) (handed : plan.handoff = some handoff)
    (pending : handoff.phase = .pending) (absent : state.thread.digest = none)
    (ran : stageHandoff exposes state plan handoff report id = .ok after) :
    Tracked after (.staged handoff.handed) := by
  have approved : stage = .approved handoff.handed := by
    have shown := tracked.reads reads handed
    rw [pending] at shown
    obtain same | rfl := stage_pending shown
    · exact same
    · cases absent.symm.trans tracked.digest
  subst approved
  unfold Plan.stageHandoff at ran
  split at ran
  · cases ran
  · obtain ⟨message, -, ran⟩ := bind_eq_ok.mp ran
    obtain ⟨thread, committed, ran⟩ := bind_eq_ok.mp ran
    cases ran
    obtain rfl := PlanThread.commit_ok committed
    refine ⟨?_, tracked.sound.messages _, rfl, ?_, tracked.shows, fun _ other => (nomatch other),
      reads, _, rfl, ?_⟩
    · simp [HandoffStage.ofLog_append tracked.logged, HandoffStage.advance]
    · rintro saved newest
      obtain rfl := Option.some.inj newest
      rfl
    · simp [PlanHandoff.handed]

theorem Tracked.newest_digest (tracked : Tracked state stage) {checkpoint : NonBlankText}
    {digest : String} (newest : state.thread.checkpoints.head?.map (·.id) = some checkpoint)
    (held : state.thread.digest = some digest) :
    (state.thread.checkpoints.find? (·.id = checkpoint)).bind (·.digest) = some digest := by
  obtain ⟨saved, first, rfl⟩ := Option.map_eq_some_iff.mp newest
  obtain ⟨rest, same⟩ := List.head?_eq_some_iff.mp first
  rw [same, List.find?_cons_of_pos (by simp)]
  exact (tracked.newest saved first).trans held

theorem Tracked.handoff (tracked : Tracked state stage) {plan : PlanState C}
    (reads : state.thread.Reads plan)
    (ran : handoffStep exposes state plan report id = .ok after) :
    ∃ stage, Tracked after stage := by
  unfold handoffStep at ran
  split at ran
  · cases ran
  · next handoff handed =>
      obtain ⟨existing, found, ran⟩ := bind_eq_ok.mp ran
      have shown := tracked.reads reads handed
      cases phase : handoff.phase with
      | pending =>
        rw [nativeSnapshotForPlan_pending handed phase] at found ran
        cases existing with
        | none =>
          simp only [phase] at ran
          have absent := snapshotHandoffMessage_none found
          exact ⟨_, tracked.stageHandoff reads handed phase absent ran⟩
        | some message =>
          simp only [phase] at ran
          split at ran
          · cases ran
          · next checkpoint newest =>
              cases ran
              have held := snapshotHandoffMessage_some found
              rw [phase] at shown
              obtain rfl | rfl := stage_pending shown
              · cases tracked.digest.symm.trans held
              · refine ⟨_, { tracked with control := ⟨reads, _, rfl, ?_⟩ }⟩
                exact tracked.newest_digest newest held
      | accepted =>
        rw [phase] at shown
        obtain rfl := stage_accepted shown
        cases existing with
        | none =>
          simp only [phase] at ran
          cases ran
        | some message =>
          simp only [phase] at ran
          split at ran
          · obtain ⟨⟨thread, updated, effects⟩, committed, ran⟩ := bind_eq_ok.mp ran
            cases ran
            exact ⟨_, tracked.complete reads handed committed⟩
          · cases ran
          · cases ran
            exact ⟨_, tracked.idle⟩
          · cases ran
            refine ⟨.accepted handoff.handed, { tracked with
              control := ⟨reads, _, rfl⟩, logged := ?_ }⟩
            simp [HandoffStage.ofLog_append tracked.logged, HandoffStage.advance,
              snapshotHandoffMessage_some found, PlanHandoff.handed]
      | completed =>
        cases existing with
        | none =>
          simp only [phase] at ran
          cases ran
        | some message =>
          simp only [phase] at ran
          cases ran
          exact ⟨_, tracked.idle⟩

theorem Tracked.accept {handed : Handed} (tracked : Tracked state (.staged handed))
    {plan : PlanState C} {checkpoint : NonBlankText} (reads : state.thread.Reads plan)
    (held : (state.thread.checkpoints.find? (·.id = checkpoint)).bind (·.digest) =
      some handed.digest)
    (ran : acceptStep state plan checkpoint report id = .ok after) :
    Tracked after (.accepted handed) := by
  obtain ⟨⟨thread, updated, effects⟩, committed, ran⟩ := bind_eq_ok.mp ran
  cases shown : plan.handoff with
  | none =>
    obtain ⟨result, marked, -⟩ := bind_eq_ok.mp committed
    rw [markHandoffPhase, shown] at marked
    cases marked
  | some handoff =>
    obtain ⟨rfl, pending⟩ := Prod.mk.inj (Option.some.inj (tracked.reads reads shown))
    have turn : handoff.phase.expected = some (HandoffProgress.accepted checkpoint).phase := by
      rw [← pending]
      rfl
    obtain ⟨reached, current, marked⟩ :=
      tracked.advanced reads shown turn (if_pos rfl) rfl committed
    dsimp only at ran
    split at ran
    · cases ran
      exact reached
    · cases ran
      refine { reached with control := ⟨current, _, rfl⟩, logged := ?_ }
      rw [HandoffStage.ofLog_append reached.logged]
      simp [PlanState.effects, marked, HandoffProgress.reached, HandoffStage.advance, held,
        PlanHandoff.mark_handed]

/-! ## Native work -/

theorem Tracked.native (tracked : Tracked state stage) (unblocked : ∀ handed, stage ≠ .approved handed)
    (running : (∃ plan, state.control = .executing plan) ∨ ∃ overlay, state.control = .native overlay)
    {messages : List BaseMessage} (ran : nativeStep state messages id = .ok after) :
    Tracked after stage := by
  obtain ⟨thread, committed, ran⟩ := bind_eq_ok.mp ran
  cases ran
  obtain rfl := PlanThread.commit_ok committed
  refine ⟨tracked.logged, tracked.sound.messages messages, tracked.digest, ?_, tracked.shows,
    fun handed same => absurd same (unblocked handed), ?_⟩
  · rintro saved newest
    obtain rfl := Option.some.inj newest
    rfl
  · have holds := tracked.control
    obtain ⟨plan, same⟩ | ⟨overlay, same⟩ := running <;> rw [same] at holds ⊢ <;> exact holds

theorem Tracked.ended (tracked : Tracked state stage) {plan : Option (PlanState C)}
    (current : ∀ found, plan = some found →
      state.thread.Reads found ∧ ∃ handed, stage = .accepted handed)
    {interrupted : Bool} {head : NonBlankText}
    (ran : completeStep state plan interrupted head id = .ok after) :
    ∃ stage, Tracked after stage := by
  unfold completeStep at ran
  split at ran
  · next found handoff chosen =>
      obtain ⟨plan, rfl, paired⟩ := Option.bind_eq_some_iff.mp chosen
      obtain ⟨other, shown, same⟩ := Option.map_eq_some_iff.mp paired
      obtain ⟨rfl, rfl⟩ := Prod.mk.inj same
      obtain ⟨reads, handed, rfl⟩ := current plan rfl
      obtain ⟨⟨thread, updated, effects⟩, committed, ran⟩ := bind_eq_ok.mp ran
      cases ran
      exact ⟨_, tracked.complete reads shown committed⟩
  · cases ran
    exact ⟨stage, tracked.idle⟩

/-! ## Every step -/

theorem Tracked.step (tracked : Tracked state stage) (faithful : options.content.RoundTrips)
    {event : HandoffEvent F C} (first : FirstHandoff state event)
    (ran : handoffMachine options exposes state event = .ok after) :
    ∃ stage, Tracked after stage := by
  have holds := tracked.control
  cases event with
  | request request report id =>
    cases place : state.control <;> simp only [handoffMachine, place, reduceCtorEq] at ran
    exact ⟨stage, tracked.request faithful ran⟩
  | planning event id =>
    cases place : state.control <;> simp only [handoffMachine, place, reduceCtorEq] at ran
    exact tracked.planning faithful first ran
  | planningEnded =>
    cases place : state.control <;> simp only [handoffMachine, place, reduceCtorEq] at ran
    exact ⟨stage, tracked.planningEnded faithful ran⟩
  | handoff report id =>
    cases place : state.control <;> simp only [handoffMachine, place, reduceCtorEq] at ran
    rw [place] at holds
    exact tracked.handoff holds ran
  | accept report id =>
    cases place : state.control <;> simp only [handoffMachine, place, reduceCtorEq] at ran
    rw [place] at holds
    obtain ⟨reads, handed, rfl, held⟩ := holds
    exact ⟨_, tracked.accept reads held ran⟩
  | native messages id =>
    cases place : state.control <;> simp only [handoffMachine, place, reduceCtorEq] at ran <;>
      rw [place] at holds
    · obtain ⟨-, handed, rfl⟩ := holds
      exact ⟨_, tracked.native (fun _ other => nomatch other) (.inl ⟨_, place⟩) ran⟩
    · exact ⟨_, tracked.native holds.1 (.inr ⟨_, place⟩) ran⟩
  | nativeEnded interrupted head id =>
    cases place : state.control <;> simp only [handoffMachine, place, reduceCtorEq] at ran <;>
      rw [place] at holds
    · refine tracked.ended (fun plan same => ?_) ran
      obtain rfl := Option.some.inj same
      exact holds
    · exact tracked.ended holds.2 ran
  | crash =>
    cases ran
    exact ⟨stage, tracked.idle⟩

theorem Tracked.next (tracked : Tracked state stage) (faithful : options.content.RoundTrips)
    {event : HandoffEvent F C} (first : FirstHandoff state event) :
    ∃ stage, Tracked (handoffNext options exposes state event) stage := by
  unfold handoffNext
  split
  · next ran => exact tracked.step faithful first ran
  · exact ⟨stage, tracked⟩
  · exact ⟨stage, tracked.idle⟩

/-! ## Retries -/

variable {thread : PlanThread C} {plan : PlanState C} {handoff : PlanHandoff}

theorem route_retry (saved : thread.planning.plan = some plan)
    (read : savedPlan options thread.planning = .ok (some plan))
    (role : thread.role = some .planning) (prefer : Bool) :
    route options thread { preferPlan := prefer, input := .retry true } report id =
      .ok (thread, .planning none) := by
  simp [route, saved, read, readable, Except.mapError, usesPlanning, role, planningRoute, bind,
    Except.bind]

theorem planningEnded_approved (finished : state.thread.planning.next = .done)
    (read : savedPlan options state.thread.planning = .ok (some plan))
    (approved : plan.status = .approved) (handed : plan.handoff = some handoff) :
    planningEnded options state = .ok { state with control := .handoff plan } := by
  simp [planningEnded, finished, read, readable, Except.mapError, finishPlanning, approved, handed,
    bind, Except.bind, pure, Except.pure]

/-- A hand-off that nothing is staged for stages its request. -/
theorem handoffStep_unstaged (handed : plan.handoff = some handoff)
    (pending : handoff.phase = .pending) (unstaged : state.thread.digest = none)
    (idle : report.pending = false) (fresh : ∀ saved ∈ state.thread.checkpoints, saved.id ≠ id)
    {message : BaseMessage}
    (requested : requestsNamed state.thread.planning.messages handoff.messageId.text = [message])
    (unmarked : exposes message handoff.digest = false) :
    ∃ after, handoffStep exposes state plan report id = .ok after ∧
      after.log = state.log ++ [.staged handoff.handed] := by
  have snapshot : snapshotHandoffMessage exposes (nativeSnapshotForPlan state.thread plan) handoff =
      .ok none := by
    rw [nativeSnapshotForPlan_pending handed pending, snapshotHandoffMessage, unstaged]
  have asked : handoffUserMessage exposes state.thread.planning.messages handoff = .ok message := by
    simp [handoffUserMessage, requested, unmarked]
  let messages := addMessages state.thread.planning.messages [message]
  refine ⟨{
    thread :=
      { planning := { state.thread.planning with messages }
        digest := some handoff.digest
        checkpoints := { id, role := .native, messages, digest := some handoff.digest } ::
          state.thread.checkpoints }
    control := .staged plan id
    log := state.log ++ [.staged handoff.handed] }, ?_, rfl⟩
  simp only [handoffStep, handed, snapshot, pending, stageHandoff, idle, asked,
    PlanThread.commit_fresh fresh, bind, Except.bind, pure, Except.pure, Bool.false_eq_true,
    if_false, messages]

/-- A hand-off that was interrupted after its approval goes on with the next retry. -/
theorem Tracked.retried {handed : Handed} (tracked : Tracked state (.approved handed))
    (faithful : options.content.RoundTrips) (place : state.control = .idle) (prefer : Bool)
    {seen staging : NativeReport} {next : NonBlankText} {message : BaseMessage}
    (idle : staging.pending = false) (fresh : ∀ saved ∈ state.thread.checkpoints, saved.id ≠ next)
    (requested : requestsNamed state.thread.planning.messages handed.messageId = [message])
    (unmarked : exposes message handed.digest = false) :
    HandoffStage.ofLog (Machine.run (handoffNext options exposes) state
      [.request { preferPlan := prefer, input := .retry true } seen id, .planningEnded,
       .handoff staging next]).log = some (.staged handed) := by
  obtain ⟨role, finished, plan, saved, approved, canonical⟩ := tracked.waiting handed rfl
  have read : savedPlan options state.thread.planning = .ok (some plan) := by
    rw [savedPlan, saved, Option.mapM_some, readPlanState_canonical faithful canonical]
    rfl
  obtain ⟨handoff, shown⟩ : ∃ handoff, plan.handoff = some handoff := by
    cases tracked.sound with
    | unplanned absent _ => cases absent.symm.trans saved
    | planned found coherent _ =>
      obtain rfl := Option.some.inj (found.symm.trans saved)
      exact Option.isSome_iff_exists.mp (coherent.handoff.mpr approved)
  obtain ⟨rfl, pending⟩ := Prod.mk.inj (Option.some.inj (tracked.shows plan handoff saved shown))
  have routed : handoffNext options exposes state
      (.request { preferPlan := prefer, input := .retry true } seen id) =
        { state with control := .planning none } := by
    simp [handoffNext, handoffMachine, place, requestStep, route_retry saved read role, bind,
      Except.bind, pure, Except.pure]
  have ended : handoffNext options exposes { state with control := .planning none }
      .planningEnded = { state with control := .handoff plan } := by
    have ran := @planningEnded_approved _ _ options { state with control := .planning none } _ _
      finished read approved shown
    simp [handoffNext, handoffMachine, ran]
  obtain ⟨after, staged, logged⟩ := @handoffStep_unstaged _ exposes
    { state with control := .handoff plan } next staging _ _ shown pending.symm tracked.digest idle
    fresh _ requested unmarked
  have handing : handoffNext options exposes { state with control := .handoff plan }
      (.handoff staging next) = after := by
    simp [handoffNext, handoffMachine, staged]
  rw [Machine.run_cons, routed, Machine.run_cons, ended, Machine.run_cons, Machine.run_nil, handing,
    logged, HandoffStage.ofLog_append tracked.logged]
  simp [HandoffStage.advance]

end Tracked

/-! ## Every run -/

/-- Each hand-off of a thread is in order, and one that was approved but not staged yet is staged
by the next retry that finds its request on the thread and no other native work. -/
structure HandsOffOnce (options : PlanOptions F C) (exposes : BaseMessage → String → Bool)
    (state : HandoffState C) : Prop where
  ordered : (HandoffStage.ofLog state.log).isSome
  retried : ∀ handed, HandoffStage.ofLog state.log = some (.approved handed) →
    state.control = .idle → ∀ prefer seen id staging next message, staging.pending = false →
    (∀ saved ∈ state.thread.checkpoints, saved.id ≠ next) →
    requestsNamed state.thread.planning.messages handed.messageId = [message] →
    exposes message handed.digest = false →
    HandoffStage.ofLog (Machine.run (handoffNext options exposes) state
      [.request { preferPlan := prefer, input := .retry true } seen id, .planningEnded,
       .handoff staging next]).log = some (.staged handed)

/-- Distinct checkpoint identities, one for each number. -/
def sampleCheckpoint (n : Nat) : NonBlankText where
  text := String.ofList (List.replicate (n + 1) 'c')
  trimmed := by
    have front : (List.replicate (n + 1) 'c').dropWhile isWhitespace =
        List.replicate (n + 1) 'c' := by
      rw [List.replicate_succ, List.dropWhile_cons_of_neg (by decide)]
    have back : (List.replicate (n + 1) 'c').rdropWhile isWhitespace =
        List.replicate (n + 1) 'c' := by
      rw [List.rdropWhile_eq_self_iff]
      intro nonempty
      rw [List.getLast_replicate]
      decide
    rw [trim, String.toList_ofList, front, back]
  nonblank := by simp [String.ext_iff]

def sampleReport : NativeReport := { pending := false, interrupted := false }

/-- A Plan that is asked for, drafted and approved, up to its hand-off. -/
def approvalRequests (message : String) (n : Nat) : List (HandoffEvent Unit MarkdownPlanContent) :=
  [.request { preferPlan := true, input := .update [{ id := message, role := .human }] }
     sampleReport (sampleCheckpoint n),
   .planning .initializePlan (sampleCheckpoint (n + 1)),
   .planning (.plan (.draft (some { markdown := "# Plan", nonblank := planText_nonblank })))
     (sampleCheckpoint (n + 2)),
   .planningEnded,
   .request { preferPlan := false, input := .resume (.review (.approve 1)) } sampleReport
     (sampleCheckpoint (n + 3)),
   .planning (.review (.approve 1)) (sampleCheckpoint (n + 3)), .planningEnded]

/-- The hand-off of a Plan, and native work that ends. -/
def handoffRequests (n : Nat) : List (HandoffEvent Unit MarkdownPlanContent) :=
  [.handoff sampleReport (sampleCheckpoint n),
   .accept { pending := true, interrupted := false } (sampleCheckpoint (n + 1)),
   .native [{ id := "m1", role := .human }] (sampleCheckpoint (n + 2)),
   .nativeEnded false (sampleCheckpoint (n + 2)) (sampleCheckpoint (n + 3))]

/-- A thread of Markdown Plans whose messages hold no public marker. -/
def sampleThread (events : List (HandoffEvent Unit MarkdownPlanContent)) :
    HandoffState MarkdownPlanContent :=
  Machine.run (handoffNext markdownOptions fun _ _ => false) {} events

def Control.isIdle : Control C → Bool
  | .idle => true
  | _ => false

theorem Control.eq_idle {control : Control C} (idle : control.isIdle = true) : control = .idle := by
  cases control with
  | idle => rfl
  | planning | handoff | staged | executing | native => cases idle

/-- A Plan that ran, an ordinary turn, and a second Plan whose approval goes to its hand-off. -/
def twoPlans : List (HandoffEvent Unit MarkdownPlanContent) :=
  approvalRequests "m1" 0 ++ handoffRequests 4 ++
  [.request { preferPlan := false, input := .update [{ id := "m2", role := .human }] } sampleReport
     (sampleCheckpoint 8),
   .native [{ id := "m1", role := .human }, { id := "m2", role := .human }] (sampleCheckpoint 8),
   .nativeEnded false (sampleCheckpoint 8) (sampleCheckpoint 9)] ++
  approvalRequests "m3" 10 ++ [.handoff sampleReport (sampleCheckpoint 14)]

/-- The request and digest of the second Plan. -/
def secondHanded : Handed where
  messageId := "m3"
  digest := "6b3b0c4e08a788e92248da50bd6c9cb56f5ee0f1792dfae561bf66f4446374ce"

/-- A retry of the second hand-off. -/
def secondRetry : List (HandoffEvent Unit MarkdownPlanContent) :=
  [.request { preferPlan := false, input := .retry true } sampleReport (sampleCheckpoint 15),
   .planningEnded, .handoff sampleReport (sampleCheckpoint 15)]

end Tinkerfin.Plan
