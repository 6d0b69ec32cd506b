import Tinkerfin.Lib.Segment
import Tinkerfin.Messaging.Reads
import Tinkerfin.Messaging.Sequence

/-!
# Following a run

A follower reads pages of one generation after its cursor, delivers them, and stops at the terminal
boundary of its run.  Each iteration of its loop is one read, one reconciliation or one wait, and any
events of the store may happen between two of them.
-/

namespace Tinkerfin.Messaging

/-! ## The loop -/

/-- A run handle bound to one generation by a ledger that validated its identifiers. -/
structure BackendRunHandle extends MessagingRunReference where
  canonical : requiredIdentifier "channel" channel = .ok channel ∧
    requiredIdentity identity = .ok identity

/-- An identifier generated for one transition. -/
structure TransitionId where
  value : String
  canonical : requiredIdentifier "transition_id" value = .ok value

/-- What a follower does next. -/
inductive FollowPhase
  | reading
  | reconciling
  | waiting (cursor : MessagingChangeCursor)

/-- How the iteration of a follower ended. -/
inductive FollowOutcome
  | finished
  | failed (error : MessagingError)
  deriving DecidableEq

structure Follower where
  handle : BackendRunHandle
  settings : MessagingBackendSettings
  cursor : Int
  delivered : List MessageEnvelope := []
  phase : FollowPhase := .reading
  outcome : Option FollowOutcome := none

/-- A follower before its first read. -/
def follow (settings : MessagingBackendSettings) (handle : BackendRunHandle) (after : Int) :
    Follower where
  handle
  settings
  cursor := after

/-- The stream of a handle. -/
def BackendRunHandle.key (handle : BackendRunHandle) : StreamKey :=
  ⟨handle.channel, threadKey handle.identity⟩

/-- The page that a follower reads next. -/
def Follower.query (follower : Follower) : CommittedMessageQuery where
  channel := follower.handle.channel
  identity := follower.handle.identity
  generation := follower.handle.generation
  afterSequence := follower.cursor
  limit := 1000
  stopAtRunTerminal := true

/-- The wait for a change after a page. -/
def Follower.wait (follower : Follower) (cursor : MessagingChangeCursor) : MessagingChangeWait where
  channel := follower.handle.channel
  identity := follower.handle.identity
  generation := follower.handle.generation
  cursor

/-- The reconciliation of a run without a live owner. -/
def Follower.reconciliation (follower : Follower) (transitionId : TransitionId) :
    LedgerTransition where
  kind := .reconcileProducerOwnership
  transitionId := transitionId.value
  channel := follower.handle.channel
  identity := follower.handle.identity
  settings := follower.settings
  runReference := some follower.handle.toMessagingRunReference
  unselected := nofun

/-- The exception a failed run is reported with. -/
def runFailure (run : StoredMessagingRun) : BaseException :=
  match run.localFailure with
  | some failure => failure
  | none =>
    let summary := if run.failureMessage = "" then "producer stopped without failure details"
      else run.failureMessage
    runtimeFailure (if run.failureClass = "" then summary
      else run.failureClass ++ ": " ++ summary)

def Follower.fail (follower : Follower) (error : MessagingError) : Follower :=
  { follower with outcome := some (.failed error) }

/-- Yield the messages of a page. -/
def Follower.deliver (follower : Follower) (messages : List MessageEnvelope) : Follower :=
  { follower with
    cursor := messages.foldl (fun _ message => message.seq) follower.cursor
    delivered := follower.delivered ++ messages }

/-- Decide from the run record of a delivered page how to go on. -/
def Follower.decide (follower : Follower) (page : CommittedMessagePage)
    (run : StoredMessagingRun) : Follower :=
  if isFinalRunStatus run.status ∧ run.endSequence ≤ follower.cursor then
    { follower with
      outcome := some (if isFailedRunStatus run.status then
        .failed (.runProducerFailed follower.handle.identity (runFailure run))
      else
        .finished) }
  else if isFinalRunStatus run.status = false ∧ run.producerLeaseActive = false then
    { follower with phase := .reconciling }
  else if follower.cursor < run.endSequence then
    { follower with phase := .reading }
  else
    { follower with phase := .waiting page.changeCursor }

/-- Handle the answer of a read. -/
def Follower.observe (follower : Follower) :
    Except MessagingError CommittedMessagePage → Follower
  | .error error => follower.fail error
  | .ok page =>
    match page.runState with
    | none =>
      follower.fail
        (.backendProtocol "Messaging backend omitted the requested run boundary")
    | some run => (follower.deliver page.messages).decide page run

/-- The run status that a reconciliation must report. -/
def reconciledStatus (outcome : Except MessagingError (MessagingTransitionResult × StreamStore)) :
    Except MessagingError RunStatus := do
  let (result, _) ← outcome
  match result.runStatus with
  | none => .error (.backendProtocol "Messaging backend returned no reconciled run status")
  | some status => return status

/-- Handle the answer of a reconciliation or a wait. -/
def Follower.resume {α : Type} (follower : Follower) : Except MessagingError α → Follower
  | .error error => follower.fail error
  | .ok _ => { follower with phase := .reading }

/-- A follower and the store it follows. -/
structure FollowState where
  store : StreamStore
  follower : Follower

/-- One iteration of the follower's loop. -/
def FollowState.iterate (state : FollowState) (observedAt : Nat) (transitionId : TransitionId) :
    FollowState :=
  match state.follower.phase with
  | .reading =>
    { state with
      follower := state.follower.observe
        (state.store.readCommittedMessages state.follower.query) }
  | .reconciling =>
    let reconciliation := state.follower.reconciliation transitionId
    { store := state.store.next (.commit observedAt reconciliation)
      follower := state.follower.resume (reconciledStatus
        (state.store.commit observedAt reconciliation.toMessagingTransition)) }
  | .waiting cursor =>
    { state with
      follower := state.follower.resume
        (state.store.waitForMessagingChange (state.follower.wait cursor)) }

/-- A step of the follower or of the store it follows. -/
inductive FollowEvent
  | store (event : StreamEvent)
  | follow (observedAt : Nat) (transitionId : TransitionId)

/-- The state after one event; an ended follower does nothing. -/
def FollowState.next (state : FollowState) : FollowEvent → FollowState
  | .store event => { state with store := state.store.next event }
  | .follow observedAt transitionId =>
    if state.follower.outcome.isSome then state else state.iterate observedAt transitionId

/-- The state after a list of events. -/
abbrev FollowState.after (state : FollowState) (events : List FollowEvent) : FollowState :=
  Machine.run FollowState.next state events

/-! ## Pages of a sequenced generation -/

variable {key : StreamKey} {live next : Generation} {store : StreamStore} {state : FollowState}
  {handle : BackendRunHandle} {after : Int} {delivered : List MessageEnvelope}
  {follower : Follower} {run : StoredMessagingRun} {runId : String}

/-- The committed envelopes of a generation. -/
def Generation.envelopes (generation : Generation) : List MessageEnvelope :=
  generation.messages.map StoredMessageEvidence.envelope

theorem Generation.length_envelopes : live.envelopes.length = live.messages.length :=
  List.length_map _

/-- Last sequence that a follower may deliver from a generation. -/
def Generation.boundary (generation : Generation) (runId : String) : Nat :=
  match generation.runs runId with
  | some run =>
    if isFinalRunStatus run.status then min generation.messages.length run.endSequence
    else generation.messages.length
  | none => generation.messages.length

theorem Generation.boundary_le : live.boundary runId ≤ live.messages.length := by
  unfold Generation.boundary
  split
  · split
    · exact Nat.min_le_left _ _
    · exact le_rfl
  · exact le_rfl

/-- A page ends at the boundary of the run or after a thousand messages. -/
theorem Follower.pageEnd_eq (follower : Follower) (live : Generation) {position : Nat} (cursor : follower.cursor = position) :
    live.pageEnd follower.query =
      (min (live.boundary follower.handle.identity.runId) (position + 1000) : Nat) := by
  simp only [Generation.pageEnd, Generation.boundary, Follower.query, Option.elim_none, cursor]
  cases live.runs follower.handle.identity.runId with
  | none =>
    simp only
    omega
  | some run =>
    cases final : isFinalRunStatus run.status with
    | true =>
      simp only [final, and_self, if_true]
      omega
    | false =>
      simp only [final, Bool.false_eq_true, and_false, if_false]
      omega

theorem slice_eq_segment {α : Type} {values : List α} {start stop : Nat} :
    slice values start stop = values.segment start stop := by
  have nonneg : ¬(stop : Int) < 0 := by omega
  simp [slice, List.segment, nonneg]

theorem Follower.page_messages (follower : Follower) (live : Generation) {position : Nat}
    (cursor : follower.cursor = position) :
    (live.page follower.query).messages = live.envelopes.segment position
      (min (live.boundary follower.handle.identity.runId) (position + 1000)) := by
  rw [Generation.page, follower.pageEnd_eq live cursor]
  simp only [Follower.query, cursor]
  exact slice_eq_segment

theorem Generation.Sequenced.segment_seq (sequenced : live.Sequenced)
    (active : live.stream.disposition = .active) (start : Nat) {stop : Nat}
    (inside : stop ≤ live.messages.length) :
    (live.envelopes.segment start stop).map MessageEnvelope.seq =
      List.range' (start + 1) (stop - start) := by
  have numbered : live.envelopes.map MessageEnvelope.seq =
      List.range' 1 live.stream.latestSequence := by
    rw [Generation.envelopes, List.map_map]
    exact (sequenced active).numbered
  rw [List.map_segment, numbered]
  exact List.segment_range' ((sequenced active).length ▸ inside)

theorem foldl_seq {messages : List MessageEnvelope} {position : Nat}
    (numbered : messages.map MessageEnvelope.seq = List.range' (position + 1) messages.length) :
    messages.foldl (fun (_ : Int) message => message.seq) position =
      ((position + messages.length : Nat) : Int) := by
  induction messages generalizing position with
  | nil => simp
  | cons first rest ih =>
    simp only [List.map_cons, List.length_cons, List.range'_succ, List.cons.injEq] at numbered
    rw [List.foldl_cons, numbered.1, ih numbered.2, List.length_cons]
    omega

/-! ## What was delivered -/

/-- The delivered messages are the committed ones after the start, none past the run's end. -/
structure DeliveredFrom (live : Generation) (runId : String) (after : Int)
    (delivered : List MessageEnvelope) : Prop where
  exact : delivered = live.envelopes.segment after.toNat (after.toNat + delivered.length)
  inside : delivered ≠ [] → after.toNat + delivered.length ≤ live.messages.length
  terminal : ∀ run, live.runs runId = some run → isFinalRunStatus run.status = true →
    delivered ≠ [] → after.toNat + delivered.length ≤ run.endSequence

theorem DeliveredFrom.nil : DeliveredFrom live runId after [] where
  exact := (List.segment_eq_nil le_rfl).symm
  inside nonempty := absurd rfl nonempty
  terminal _ _ _ nonempty := absurd rfl nonempty

theorem RunStep.ended_after {changed : StoredMessagingRun} (wellFormed : live.WellFormed key)
    (stored : live.runs runId = some run) (unfinished : isFinalRunStatus run.status = false)
    (step : RunStep key live runId run changed) : live.stream.latestSequence ≤ changed.endSequence := by
  have tail := wellFormed.openEnded _ _ stored unfinished
  cases step with
  | kept => exact le_of_eq tail.symm
  | leaseExpired => exact le_of_eq tail.symm
  | fenced => exact le_rfl
  | rewritten addressed named change =>
    have rewrites := change.rewrites wellFormed (named ▸ stored)
    rw [rewrites.ended]
    exact rewrites.tail

/-- Steps of an active generation keep what was delivered from it. -/
theorem DeliveredFrom.step (wellFormed : live.WellFormed key) (sequenced : live.Sequenced)
    (step : GenerationStep key live next) (active : next.stream.disposition = .active)
    (from_ : DeliveredFrom live runId after delivered) :
    DeliveredFrom next runId after delivered := by
  by_cases nothing : delivered = []
  · subst nothing
    exact .nil
  have before := step.active_before active
  obtain ⟨extra, grown⟩ := step.messages_grow wellFormed active
  have inside := from_.inside nothing
  refine ⟨?_, fun _ => ?_, ?_⟩
  · have same : next.envelopes = live.envelopes ++ extra.map StoredMessageEvidence.envelope := by
      simp [Generation.envelopes, grown]
    rw [same, List.segment_append_right (Generation.length_envelopes ▸ inside)]
    exact from_.exact
  · rw [grown, List.length_append]
    omega
  · intro changed found final _
    rcases step.run_cases wellFormed found with
      ⟨_, _, transition, _, _, rfl⟩ | ⟨run, stored, runStep⟩
    · cases final
    · cases finished : isFinalRunStatus run.status with
      | true =>
        obtain rfl := runStep.final_kept wellFormed stored finished
        exact from_.terminal _ stored finished nothing
      | false =>
        have ended := runStep.ended_after wellFormed stored finished
        have tail := (sequenced before).length
        omega

/-- What holds of a follower and its store after any events. -/
structure Following (handle : BackendRunHandle) (after : Int) (state : FollowState) : Prop where
  valid : state.store.Valid
  sequenced : state.store.Sequenced
  bound : state.follower.handle = handle
  counted : state.follower.cursor = after + state.follower.delivered.length
  ordered : state.follower.delivered.map MessageEnvelope.seq =
    List.range' (after.toNat + 1) state.follower.delivered.length
  begun : state.follower.delivered ≠ [] →
    0 ≤ after ∧ (state.store.threads handle.key).Reached handle.generation
  delivered : ∀ live, (state.store.threads handle.key).live = some live →
    live.stream.generation = handle.generation → live.stream.disposition = .active →
    DeliveredFrom live handle.identity.runId after state.follower.delivered

/-- The active generation that a handle is bound to. -/
structure FollowState.Readable (state : FollowState) (handle : BackendRunHandle)
    (live : Generation) : Prop where
  lookup : (state.store.threads handle.key).live = some live
  generation : live.stream.generation = handle.generation
  active : live.stream.disposition = .active

theorem follow_following (settings : MessagingBackendSettings) (handle : BackendRunHandle)
    (after : Int) (valid : store.Valid) (sequenced : store.Sequenced) :
    Following handle after ⟨store, follow settings handle after⟩ where
  valid := valid
  sequenced := sequenced
  bound := rfl
  counted := (Int.add_zero after).symm
  ordered := rfl
  begun nonempty := absurd rfl nonempty
  delivered _ _ _ _ := .nil

/-- A store event keeps what is known of the follower. -/
theorem Following.store_step (following : Following handle after state) (event : StreamEvent) :
    Following handle after { state with store := state.store.next event } := by
  have step := next_eventStep following.valid event handle.key
  have reached : state.follower.delivered ≠ [] →
      ((state.store.next event).threads handle.key).Reached handle.generation := fun nonempty =>
    (following.begun nonempty).2.step (following.valid _) step
  refine
    { valid := following.valid.next event
      sequenced := sequenced_next following.valid following.sequenced event
      bound := following.bound
      counted := following.counted
      ordered := following.ordered
      begun := fun nonempty => ⟨(following.begun nonempty).1, reached nonempty⟩
      delivered := ?_ }
  intro next found same active
  by_cases nothing : state.follower.delivered = []
  · rw [nothing]
    exact .nil
  rcases step.generationStep (following.valid _) found with
    ⟨live, lookup, sameNumber, generationStep⟩ | ⟨idle, transition, _, _, -, rfl⟩
  · exact (following.delivered live lookup (sameNumber.trans same)
      (generationStep.active_before active)).step ((following.valid _).wellFormed live lookup)
      (following.sequenced _ _ lookup) generationStep active
  · exact absurd same (ne_of_gt (freshStream_newer transition idle (following.begun nothing).2))

theorem Following.redirect (following : Following handle after state)
    (phase : FollowPhase) (outcome : Option FollowOutcome) :
    Following handle after { state with follower := { state.follower with phase, outcome } } :=
  ⟨following.valid, following.sequenced, following.bound, following.counted, following.ordered,
    following.begun, following.delivered⟩

theorem Following.position (following : Following handle after state)
    (nonneg : 0 ≤ state.follower.cursor) :
    0 ≤ after ∧ state.follower.cursor =
      ((after.toNat + state.follower.delivered.length : Nat) : Int) := by
  have counted := following.counted
  have started : 0 ≤ after := by
    by_cases nothing : state.follower.delivered = []
    · have unmoved : state.follower.cursor = after := by simpa [nothing] using counted
      exact unmoved ▸ nonneg
    · exact (following.begun nothing).1
  refine ⟨started, ?_⟩
  omega

/-- Yielding a page keeps what is known of a follower. -/
theorem Following.deliver (following : Following handle after state)
    (readable : state.Readable handle live) (nonneg : 0 ≤ state.follower.cursor) :
    Following handle after
      { state with
        follower := state.follower.deliver (live.page state.follower.query).messages } := by
  obtain ⟨started, position⟩ := following.position nonneg
  have from_ := following.delivered live readable.lookup readable.generation readable.active
  have sequenced := following.sequenced _ _ readable.lookup
  have wellFormed := (following.valid _).wellFormed live readable.lookup
  have messages := state.follower.page_messages live position
  rw [following.bound] at messages
  generalize positioned : after.toNat + state.follower.delivered.length = start at *
  generalize stopped : min (live.boundary handle.identity.runId) (start + 1000) = stop at *
  have bounded : stop ≤ live.messages.length := by
    rw [← stopped]
    exact le_trans (Nat.min_le_left _ _) Generation.boundary_le
  have counted : (live.envelopes.segment start stop).length = stop - start :=
    List.length_segment (Generation.length_envelopes ▸ bounded)
  have numbered := sequenced.segment_seq readable.active start bounded
  rw [← counted] at numbered
  rw [messages]
  by_cases nothing : live.envelopes.segment start stop = []
  · rw [nothing]
    simpa [Follower.deliver] using following.redirect state.follower.phase state.follower.outcome
  have advanced : start < stop := by
    by_contra reversed
    exact nothing (List.segment_eq_nil (Nat.le_of_not_lt reversed))
  have total : after.toNat + (state.follower.delivered ++ live.envelopes.segment start stop).length =
      stop := by
    rw [List.length_append, counted]
    omega
  refine
    { valid := following.valid
      sequenced := following.sequenced
      bound := following.bound
      counted := ?_
      ordered := ?_
      begun := fun _ => ⟨started, .inr ⟨live, readable.lookup, le_of_eq readable.generation.symm⟩⟩
      delivered := ?_ }
  · simp only [Follower.deliver, position, foldl_seq numbered]
    omega
  · simp only [Follower.deliver, List.map_append, following.ordered, numbered, List.length_append]
    rw [← positioned, Nat.add_right_comm, List.range'_append_1]
  · intro other again _ _
    obtain rfl := Option.some.inj (readable.lookup.symm.trans again)
    refine ⟨?_, fun _ => by simpa only [Follower.deliver, total] using bounded, ?_⟩
    · simp only [Follower.deliver, total]
      rw [from_.exact, positioned]
      exact List.segment_append (by omega) (le_of_lt advanced)
    · intro run stored final _
      simp only [Follower.deliver, total]
      have limit : stop ≤ live.boundary handle.identity.runId := by
        rw [← stopped]
        exact Nat.min_le_left _ _
      simp only [Generation.boundary, stored, final, if_true] at limit
      exact le_trans limit (Nat.min_le_right _ _)

/-! ## One iteration -/

theorem Following.read_eq_ok (following : Following handle after state) {page : CommittedMessagePage}
    (read : state.store.readCommittedMessages state.follower.query = .ok page) :
    ∃ live, state.Readable handle live ∧ 0 ≤ state.follower.cursor ∧
      state.follower.cursor ≤ live.messages.length ∧ page = live.page state.follower.query := by
  obtain ⟨nonneg, -, live, lookup, generation, active, inside, rfl⟩ :=
    readCommittedMessages_eq_ok.mp read
  refine ⟨live, ⟨?_, ?_, active⟩, nonneg, inside, rfl⟩
  · rw [← following.bound]
    exact lookup
  · rw [← following.bound]
    exact generation

theorem Follower.decide_eq (follower : Follower) (page : CommittedMessagePage)
    (run : StoredMessagingRun) : ∃ phase outcome,
      follower.decide page run = { follower with phase, outcome } := by
  unfold Follower.decide
  split
  · exact ⟨follower.phase, _, rfl⟩
  · split
    · exact ⟨_, follower.outcome, rfl⟩
    · split
      · exact ⟨_, follower.outcome, rfl⟩
      · exact ⟨_, follower.outcome, rfl⟩

/-- One iteration keeps what is known of a follower. -/
theorem Following.iterate (following : Following handle after state) (observedAt : Nat)
    (transitionId : TransitionId) :
    Following handle after (state.iterate observedAt transitionId) := by
  have resumed : ∀ {α : Type} (next : FollowState) (answer : Except MessagingError α),
      Following handle after next →
      Following handle after { next with follower := next.follower.resume answer } := by
    intro α next answer known
    cases answer with
    | error error => exact known.redirect next.follower.phase _
    | ok value => exact known.redirect .reading next.follower.outcome
  unfold FollowState.iterate
  cases state.follower.phase with
  | reconciling =>
    simp only
    generalize StreamEvent.commit observedAt (state.follower.reconciliation transitionId) = event
    exact resumed ⟨state.store.next event, state.follower⟩ _ (following.store_step event)
  | waiting cursor => exact resumed state _ following
  | reading =>
    cases answer : state.store.readCommittedMessages state.follower.query with
    | error error => exact following.redirect state.follower.phase _
    | ok page =>
      obtain ⟨live, readable, nonneg, -, rfl⟩ := following.read_eq_ok answer
      simp only [Follower.observe]
      split
      · exact following.redirect state.follower.phase _
      · next run stored =>
          obtain ⟨phase, outcome, decided⟩ :=
            (state.follower.deliver (live.page state.follower.query).messages).decide_eq
              (live.page state.follower.query) run
          rw [decided]
          exact (following.deliver readable nonneg).redirect phase outcome

theorem Following.step (following : Following handle after state) (event : FollowEvent) :
    Following handle after (state.next event) := by
  cases event with
  | store event => exact following.store_step event
  | follow observedAt transitionId =>
    simp only [FollowState.next]
    split
    · exact following
    · exact following.iterate observedAt transitionId

theorem Following.after_events (following : Following handle after state)
    (events : List FollowEvent) : Following handle after (state.after events) :=
  Machine.run_invariant (fun _ event following => following.step event) following

/-! ## How a follower ends -/

/-- Why an iteration ended the follower, and what it had delivered. -/
inductive Ending (handle : BackendRunHandle) (after : Int) (state : FollowState)
    (delivered : List MessageEnvelope) : FollowOutcome → Prop
  | finished {live : Generation} {run : StoredMessagingRun} (readable : state.Readable handle live)
      (stored : live.runs handle.identity.runId = some run)
      (status : run.status = .completed ∨ run.status = .cancelled) (started : 0 ≤ after)
      (complete : delivered = live.envelopes.segment after.toNat run.endSequence) :
      Ending handle after state delivered .finished
  | producerFailed {live : Generation} {run : StoredMessagingRun}
      (readable : state.Readable handle live)
      (stored : live.runs handle.identity.runId = some run)
      (status : run.status = .failed ∨ run.status = .ownerLost) (started : 0 ≤ after)
      (complete : delivered = live.envelopes.segment after.toNat run.endSequence) :
      Ending handle after state delivered
        (.failed (.runProducerFailed handle.identity (runFailure run)))
  | beyond {live : Generation} (readable : state.Readable handle live)
      (outside : live.messages.length < after) (nothing : delivered = []) :
      Ending handle after state delivered (.failed (.invalidCursor after live.messages.length))
  | negative (outside : after < 0) (nothing : delivered = []) :
      Ending handle after state delivered
        (.failed (.valueError "after_sequence must be non-negative"))
  | unavailable {error : MessagingError} (gone : ∀ live, ¬state.Readable handle live) :
      Ending handle after state delivered (.failed error)
  | missing {live : Generation} {error : MessagingError} (readable : state.Readable handle live)
      (absent : live.runs handle.identity.runId = none) :
      Ending handle after state delivered (.failed error)

/-- A reconciliation of a stored run of a readable generation is answered. -/
theorem Following.reconciled (following : Following handle after state)
    (readable : state.Readable handle live)
    (stored : live.runs handle.identity.runId = some run) (observedAt : Nat)
    (transitionId : TransitionId) :
    ∃ status, reconciledStatus (state.store.commit observedAt
      (state.follower.reconciliation transitionId).toMessagingTransition) = .ok status := by
  obtain rfl := following.bound
  have key : (state.follower.reconciliation transitionId).toMessagingTransition.key =
      state.follower.handle.key := rfl
  have selected : (state.store.threads state.follower.handle.key).selected
      (selectedGeneration (state.follower.reconciliation transitionId).toMessagingTransition) =
        some live := by
    refine StreamThread.selected_eq_some.mpr ⟨readable.lookup, ?_⟩
    rintro _ ⟨⟩
    exact readable.generation
  have snapshot : ((state.store.snapshot observedAt
        (state.follower.reconciliation transitionId).toMessagingTransition).targetRun = some run) ∧
      (state.store.snapshot observedAt
        (state.follower.reconciliation transitionId).toMessagingTransition).stream =
          some live.stream :=
    ⟨snapshot_targetRun_eq_some.mpr ⟨live, key ▸ selected, stored⟩,
      snapshot_stream_eq_some.mpr ⟨live, key ▸ selected, rfl⟩⟩
  generalize taken : state.store.snapshot observedAt
    (state.follower.reconciliation transitionId).toMessagingTransition = view at snapshot
  have named := ((following.valid _).wellFormed live readable.lookup).named _ _ stored
  have target : requiredTargetRun
      (state.follower.reconciliation transitionId).toMessagingTransition view = .ok run :=
    requiredTargetRun_eq_ok.mpr snapshot.1
  have found : requiredStream
      (state.follower.reconciliation transitionId).toMessagingTransition view = .ok live.stream :=
    requiredStream_eq_ok.mpr ⟨snapshot.2, readable.active⟩
  have identified : validateTransitionIdentity
      (state.follower.reconciliation transitionId).toMessagingTransition = .ok () := by
    simp [validateTransitionIdentity, Follower.reconciliation, transitionId.canonical,
      state.follower.handle.canonical, bind, Except.bind, pure, Except.pure]
  have checked : checkReconcileReference
      (state.follower.reconciliation transitionId).toMessagingTransition view run live.stream =
        .ok () := by
    simp [checkReconcileReference, Follower.reconciliation, require, readable.generation, named.2,
      bind, Except.bind]
  have kind : (state.follower.reconciliation transitionId).toMessagingTransition.kind =
    .reconcileProducerOwnership := rfl
  simp only [reconciledStatus, StreamStore.commit, taken, resolveMessagingTransition, identified,
    kind, resolveReconcileProducerOwnership, target, found, checked, bind, Except.bind, pure,
    Except.pure]
  by_cases settled : isFinalRunStatus run.status = true ∨ run.producerLeaseActive = true
  · exact ⟨run.status, by rw [if_pos settled]; rfl⟩
  · exact ⟨.ownerLost, by rw [if_neg settled]; rfl⟩

theorem Following.waited (following : Following handle after state)
    (readable : state.Readable handle live) (cursor : MessagingChangeCursor) :
    ∃ changed, state.store.waitForMessagingChange (state.follower.wait cursor) = .ok changed := by
  obtain rfl := following.bound
  exact waitForMessagingChange_answered readable.lookup readable.generation readable.active

/-- A failed read of a follower. -/
theorem Following.read_error (following : Following handle after state) {error : MessagingError}
    (read : state.store.readCommittedMessages state.follower.query = .error error) :
    Ending handle after state state.follower.delivered (.failed error) := by
  have counted := following.counted
  by_cases nonneg : 0 ≤ state.follower.cursor
  · cases found : (state.store.threads handle.key).requireGeneration handle.channel handle.identity
        handle.generation with
    | error other =>
      refine .unavailable fun live readable => ?_
      have available : (state.store.threads handle.key).requireGeneration handle.channel
          handle.identity handle.generation = .ok live :=
        requireGeneration_eq_ok.mpr ⟨readable.lookup, readable.generation, readable.active⟩
      exact nomatch found.symm.trans available
    | ok live =>
      obtain ⟨lookup, generation, active⟩ := requireGeneration_eq_ok.mp found
      have readable : state.Readable handle live := ⟨lookup, generation, active⟩
      rw [← following.bound] at found
      have rejected : ¬state.follower.cursor ≤ live.messages.length := by
        intro inside
        have accepted : state.store.readCommittedMessages state.follower.query =
            .ok (live.page state.follower.query) :=
          readCommittedMessages_eq_ok.mpr ⟨nonneg, by simp [Follower.query], live,
            (requireGeneration_eq_ok.mp found).1, (requireGeneration_eq_ok.mp found).2.1, active,
            inside, rfl⟩
        exact nomatch read.symm.trans accepted
      have nothing : state.follower.delivered = [] := by
        by_contra nonempty
        have inside := (following.delivered live lookup generation active).inside nonempty
        obtain ⟨-, position⟩ := following.position nonneg
        omega
      have unmoved : state.follower.cursor = after := by simpa [nothing] using counted
      have invalid : error = .invalidCursor after live.messages.length := by
        have failed : state.store.readCommittedMessages state.follower.query =
            .error (.invalidCursor state.follower.cursor live.messages.length) := by
          have key : state.follower.query.key = state.follower.handle.key := rfl
          simp only [StreamStore.readCommittedMessages, key]
          simp [Follower.query, found, require, nonneg, rejected, bind, Except.bind]
        rw [← unmoved]
        exact Except.error.inj (read.symm.trans failed)
      rw [invalid]
      exact .beyond readable (by omega) nothing
  · have nothing : state.follower.delivered = [] := by
      by_contra nonempty
      have started := (following.begun nonempty).1
      omega
    have invalid : error = .valueError "after_sequence must be non-negative" := by
      have failed : state.store.readCommittedMessages state.follower.query =
          .error (.valueError "after_sequence must be non-negative") := by
        simp [StreamStore.readCommittedMessages, Follower.query, require, nonneg, bind, Except.bind]
      exact Except.error.inj (read.symm.trans failed)
    rw [invalid]
    rw [nothing, List.length_nil] at counted
    exact .negative (by omega) nothing

theorem Follower.resume_outcome {α : Type} {answer : Except MessagingError α}
    {outcome : FollowOutcome} (running : follower.outcome = none)
    (ended : (follower.resume answer).outcome = some outcome) :
    ∃ error, answer = .error error ∧ outcome = .failed error := by
  cases answer with
  | error error => exact ⟨error, rfl, (Option.some.inj ended).symm⟩
  | ok value => exact nomatch running.symm.trans ended

/-- How the iteration that sees the end of a run ends. -/
def endOutcome (handle : BackendRunHandle) (run : StoredMessagingRun) : FollowOutcome :=
  if isFailedRunStatus run.status then
    .failed (.runProducerFailed handle.identity (runFailure run))
  else
    .finished

theorem Follower.decide_outcome {page : CommittedMessagePage} {outcome : FollowOutcome}
    (running : follower.outcome = none)
    (ended : (follower.decide page run).outcome = some outcome) :
    isFinalRunStatus run.status = true ∧ run.endSequence ≤ follower.cursor ∧
      outcome = endOutcome follower.handle run := by
  unfold Follower.decide at ended
  split at ended
  · next final => exact ⟨final.1, final.2, (Option.some.inj ended).symm⟩
  · split at ended
    · exact nomatch running.symm.trans ended
    · split at ended <;> exact nomatch running.symm.trans ended

theorem Following.complete (following : Following handle after state)
    (readable : state.Readable handle live)
    (stored : live.runs handle.identity.runId = some run)
    (final : isFinalRunStatus run.status = true) (started : 0 ≤ after)
    (reached : run.endSequence ≤ state.follower.cursor) :
    state.follower.delivered = live.envelopes.segment after.toNat run.endSequence := by
  have from_ := following.delivered live readable.lookup readable.generation readable.active
  have counted := following.counted
  by_cases nothing : state.follower.delivered = []
  · rw [nothing, List.length_nil] at counted
    rw [nothing, List.segment_eq_nil (by omega)]
  · have terminal := from_.terminal run stored final nothing
    have last : after.toNat + state.follower.delivered.length = run.endSequence := by omega
    rw [← last]
    exact from_.exact

theorem Ending.of_final (readable : state.Readable handle live)
    (stored : live.runs handle.identity.runId = some run)
    (final : isFinalRunStatus run.status = true) (started : 0 ≤ after)
    (complete : delivered = live.envelopes.segment after.toNat run.endSequence) :
    Ending handle after state delivered (endOutcome handle run) := by
  unfold endOutcome
  cases status : run.status with
  | running | cancelRequested => simp [status, isFinalRunStatus] at final
  | completed => exact .finished readable stored (.inl status) started complete
  | cancelled => exact .finished readable stored (.inr status) started complete
  | failed => exact .producerFailed readable stored (.inl status) started complete
  | ownerLost => exact .producerFailed readable stored (.inr status) started complete

/-- Every way in which an iteration ends a follower. -/
theorem Following.ending (following : Following handle after state) {observedAt : Nat}
    {transitionId : TransitionId} {outcome : FollowOutcome}
    (running : state.follower.outcome = none)
    (ended : (state.iterate observedAt transitionId).follower.outcome = some outcome) :
    Ending handle after state (state.iterate observedAt transitionId).follower.delivered
      outcome := by
  unfold FollowState.iterate at ended ⊢
  cases phase : state.follower.phase with
  | reconciling =>
    simp only [phase] at ended ⊢
    obtain ⟨error, rejected, rfl⟩ := Follower.resume_outcome running ended
    by_cases available : ∃ live, state.Readable handle live
    · obtain ⟨live, readable⟩ := available
      cases stored : live.runs handle.identity.runId with
      | none => exact .missing readable stored
      | some run =>
        obtain ⟨status, answered⟩ :=
          following.reconciled readable stored observedAt transitionId
        exact nomatch rejected.symm.trans answered
    · exact .unavailable fun live readable => available ⟨live, readable⟩
  | waiting cursor =>
    simp only [phase] at ended ⊢
    obtain ⟨error, rejected, rfl⟩ := Follower.resume_outcome running ended
    refine .unavailable fun live readable => ?_
    obtain ⟨changed, answered⟩ := following.waited readable cursor
    exact nomatch rejected.symm.trans answered
  | reading =>
    simp only [phase] at ended ⊢
    cases answer : state.store.readCommittedMessages state.follower.query with
    | error error =>
      rw [answer] at ended
      obtain rfl : .failed error = outcome := Option.some.inj ended
      exact following.read_error answer
    | ok page =>
      obtain ⟨live, readable, nonneg, -, rfl⟩ := following.read_eq_ok answer
      have runState : (live.page state.follower.query).runState =
          live.runs handle.identity.runId := by
        rw [← following.bound]
        rfl
      rw [answer] at ended
      simp only [Follower.observe, runState] at ended ⊢
      cases stored : live.runs handle.identity.runId with
      | none =>
        simp only [stored] at ended
        obtain rfl := Option.some.inj ended
        exact .missing readable stored
      | some run =>
        simp only [stored] at ended
        obtain ⟨final, reached, rfl⟩ :=
          Follower.decide_outcome (by simpa [Follower.deliver] using running) ended
        have known := following.deliver readable nonneg
        obtain ⟨decidedPhase, decidedOutcome, decided⟩ := (state.follower.deliver
          (live.page state.follower.query).messages).decide_eq
            (live.page state.follower.query) run
        have bound : (state.follower.deliver
            (live.page state.follower.query).messages).handle = handle := known.bound
        simp only [decided, bound]
        have ready : FollowState.Readable ⟨state.store, state.follower.deliver
            (live.page state.follower.query).messages⟩ handle live :=
          ⟨readable.lookup, readable.generation, readable.active⟩
        exact .of_final readable stored final (following.position nonneg).1
          (known.complete ready stored final (following.position nonneg).1 reached)

/-! ## Termination -/

/-- Iterations that a follower still needs to reach the end of its run. -/
def FollowState.remaining (state : FollowState) (endSequence : Nat) : Nat :=
  (endSequence - state.follower.cursor.toNat) +
    match state.follower.phase with
    | .reading => 1
    | .reconciling | .waiting _ => 2

def FollowEvent.isIteration : FollowEvent → Bool
  | .store _ => false
  | .follow _ _ => true

theorem FollowState.ended_kept {outcome : FollowOutcome}
    (ended : state.follower.outcome = some outcome) (events : List FollowEvent) :
    (state.after events).follower = state.follower := by
  induction events generalizing state with
  | nil => rfl
  | cons event events ih =>
    have kept : (state.next event).follower = state.follower := by
      cases event with
      | store event => rfl
      | follow observedAt transitionId => simp [FollowState.next, ended]
    rw [FollowState.after, Machine.run_cons, ih (kept ▸ ended), kept]

/-- A finished run keeps its record and its messages while its generation stays readable. -/
theorem Following.final_kept (following : Following handle after state) {event : FollowEvent}
    (readable : state.Readable handle live)
    (stored : live.runs handle.identity.runId = some run)
    (final : isFinalRunStatus run.status = true)
    (still : (state.next event).Readable handle next) :
    next.runs handle.identity.runId = some run ∧
      live.messages.length ≤ next.messages.length := by
  have changes : (state.next event).store = state.store ∨
      ∃ storeEvent, (state.next event).store = state.store.next storeEvent := by
    cases event with
    | store event => exact .inr ⟨event, rfl⟩
    | follow observedAt transitionId =>
      simp only [FollowState.next]
      split
      · exact .inl rfl
      · unfold FollowState.iterate
        cases state.follower.phase with
        | reading | waiting => exact .inl rfl
        | reconciling =>
          simp only
          generalize StreamEvent.commit observedAt (state.follower.reconciliation
            transitionId) = event
          exact .inr ⟨event, rfl⟩
  rcases changes with same | ⟨storeEvent, changed⟩
  · have again := still.lookup
    rw [same] at again
    obtain rfl := Option.some.inj (readable.lookup.symm.trans again)
    exact ⟨stored, le_rfl⟩
  · have found := still.lookup
    rw [changed] at found
    have wellFormed := (following.valid _).wellFormed live readable.lookup
    rcases (next_eventStep following.valid storeEvent handle.key).generationStep
        (following.valid _) found with ⟨before, lookup, -, step⟩ | ⟨idle, -⟩
    · obtain rfl := Option.some.inj (readable.lookup.symm.trans lookup)
      obtain ⟨extra, grown⟩ := step.messages_grow wellFormed still.active
      refine ⟨?_, by rw [grown, List.length_append]; omega⟩
      rcases step.run_present wellFormed stored with ⟨changed, present⟩ | ⟨-, inactive⟩
      · rcases step.run_cases wellFormed present with ⟨absent, -⟩ | ⟨old, again, runStep⟩
        · exact nomatch absent.symm.trans stored
        · obtain rfl := Option.some.inj (stored.symm.trans again)
          rw [present, runStep.final_kept wellFormed stored final]
      · exact absurd still.active inactive
    · exact nomatch idle.symm.trans readable.lookup

/-- The cursor after a page of a readable generation. -/
theorem Following.deliver_cursor (following : Following handle after state)
    (readable : state.Readable handle live) (nonneg : 0 ≤ state.follower.cursor) :
    (state.follower.deliver (live.page state.follower.query).messages).cursor =
      max state.follower.cursor
        (min (live.boundary handle.identity.runId : Int) (state.follower.cursor + 1000)) := by
  obtain ⟨-, position⟩ := following.position nonneg
  have counted := (following.deliver readable nonneg).counted
  have messages := state.follower.page_messages live position
  rw [following.bound] at messages
  have bounded : min (live.boundary handle.identity.runId)
      (after.toNat + state.follower.delivered.length + 1000) ≤ live.envelopes.length := by
    rw [Generation.length_envelopes]
    exact le_trans (Nat.min_le_left _ _) Generation.boundary_le
  have length : (live.page state.follower.query).messages.length = _ :=
    messages ▸ List.length_segment bounded
  have total : (state.follower.deliver (live.page state.follower.query).messages).delivered.length =
      state.follower.delivered.length + (live.page state.follower.query).messages.length :=
    List.length_append
  have before := following.counted
  rw [counted, total, length]
  omega

/-- Once its run is final, every iteration of a follower ends it or brings it closer to the end. -/
theorem Following.iterate_progress (following : Following handle after state)
    (running : state.follower.outcome = none) (readable : state.Readable handle live)
    (stored : live.runs handle.identity.runId = some run)
    (final : isFinalRunStatus run.status = true) (started : 0 ≤ after)
    (inside : after ≤ live.messages.length) (observedAt : Nat) (transitionId : TransitionId) :
    (state.iterate observedAt transitionId).follower.outcome = some (endOutcome handle run) ∨
      ((state.iterate observedAt transitionId).follower.outcome = none ∧
        (state.iterate observedAt transitionId).remaining run.endSequence <
          state.remaining run.endSequence) := by
  have counted := following.counted
  unfold FollowState.iterate FollowState.remaining
  cases phase : state.follower.phase with
  | reconciling =>
    obtain ⟨status, answered⟩ := following.reconciled readable stored observedAt transitionId
    simp only [answered, Follower.resume]
    exact .inr ⟨running, by omega⟩
  | waiting cursor =>
    obtain ⟨changed, answered⟩ := following.waited readable cursor
    simp only [answered, Follower.resume]
    exact .inr ⟨running, by omega⟩
  | reading =>
    have nonneg : 0 ≤ state.follower.cursor := by omega
    have wellFormed := (following.valid _).wellFormed live readable.lookup
    have tail := (following.sequenced _ _ readable.lookup readable.active).length
    have ended : run.endSequence ≤ live.messages.length := tail ▸ wellFormed.ended _ _ stored
    have limited : state.follower.cursor ≤ live.messages.length := by
      by_cases nothing : state.follower.delivered = []
      · rw [nothing, List.length_nil] at counted
        omega
      · have delivered := (following.delivered live readable.lookup readable.generation
          readable.active).inside nothing
        omega
    have answer : state.store.readCommittedMessages state.follower.query =
        .ok (live.page state.follower.query) := by
      obtain rfl := following.bound
      exact readCommittedMessages_eq_ok.mpr ⟨nonneg, by simp [Follower.query], live,
        readable.lookup, readable.generation, readable.active, limited, rfl⟩
    have runState : (live.page state.follower.query).runState = some run := by
      rw [← stored, ← following.bound]
      rfl
    have moved := following.deliver_cursor readable nonneg
    have boundary : live.boundary handle.identity.runId = run.endSequence := by
      simp only [Generation.boundary, stored, final, if_true]
      exact Nat.min_eq_right ended
    have bound := (following.deliver readable nonneg).bound
    rw [boundary] at moved
    simp only [answer, Follower.observe, runState, Follower.decide, final, true_and,
      Bool.true_eq_false, false_and, if_false]
    by_cases reached : run.endSequence ≤
        (state.follower.deliver (live.page state.follower.query).messages).cursor
    · simp only [if_pos reached]
      exact .inl (by rw [← bound]; rfl)
    · have before : (state.follower.deliver (live.page state.follower.query).messages).cursor <
          run.endSequence := by omega
      simp only [if_neg reached, if_pos before]
      refine .inr ⟨running, ?_⟩
      omega

/-- A follower of a finished run ends after enough iterations while its generation stays
readable. -/
theorem Following.terminates (following : Following handle after state)
    (running : state.follower.outcome = none) (readable : state.Readable handle live)
    (stored : live.runs handle.identity.runId = some run)
    (final : isFinalRunStatus run.status = true) (started : 0 ≤ after)
    (inside : after ≤ live.messages.length) {events : List FollowEvent}
    (stays : ∀ before rest, events = before ++ rest →
      ∃ next, (state.after before).Readable handle next)
    (enough : state.remaining run.endSequence ≤ events.countP FollowEvent.isIteration) :
    (state.after events).follower.outcome = some (endOutcome handle run) := by
  induction events generalizing state live with
  | nil =>
    have positive : 0 < state.remaining run.endSequence := by
      unfold FollowState.remaining
      split <;> omega
    rw [List.countP_nil] at enough
    omega
  | cons event events ih =>
    obtain ⟨next, still⟩ := stays [event] events rfl
    obtain ⟨kept, grown⟩ := following.final_kept readable stored final still
    have later : ∀ before rest, events = before ++ rest →
        ∃ next, ((state.next event).after before).Readable handle next := by
      rintro before rest rfl
      exact stays (event :: before) rest rfl
    have continued : (state.next event).follower.outcome = none →
        (state.next event).remaining run.endSequence ≤
          events.countP FollowEvent.isIteration →
        ((state.next event).after events).follower.outcome = some (endOutcome handle run) :=
      fun running enough => ih (following.step event) running still kept (by omega) later enough
    rw [FollowState.after, Machine.run_cons]
    cases event with
    | store event =>
      refine continued running ?_
      rwa [List.countP_cons_of_neg (by simp [FollowEvent.isIteration])] at enough
    | follow observedAt transitionId =>
      rw [List.countP_cons_of_pos rfl] at enough
      have iterated : state.next (.follow observedAt transitionId) =
          state.iterate observedAt transitionId := by simp [FollowState.next, running]
      rw [iterated] at continued ⊢
      rcases following.iterate_progress running readable stored final started inside observedAt
        transitionId with ended | ⟨running, closer⟩
      · exact (congrArg Follower.outcome (FollowState.ended_kept ended events)).trans ended
      · exact continued running (by omega)

/-! ## Exact delivery -/

/-- A follower delivers the tail of its run exactly, and ends as its run did. -/
structure FollowerExact (handle : BackendRunHandle) (after : Int) (state : FollowState) : Prop where
  /-- The delivered sequences follow the start without gap or duplicate. -/
  ordered : state.follower.delivered.map MessageEnvelope.seq =
    List.range' (after.toNat + 1) state.follower.delivered.length
  /-- The delivered messages are the committed ones, none past the end of a finished run. -/
  delivered : ∀ live, state.Readable handle live →
    DeliveredFrom live handle.identity.runId after state.follower.delivered
  /-- An iteration that ends the follower has one of the listed reasons. -/
  ended : ∀ observedAt transitionId outcome, state.follower.outcome = none →
    (state.next (.follow observedAt transitionId)).follower.outcome = some outcome →
    Ending handle after state
      (state.next (.follow observedAt transitionId)).follower.delivered outcome
  /-- An ended follower delivers nothing more. -/
  stopped : ∀ outcome events, state.follower.outcome = some outcome →
    (state.after events).follower = state.follower
  /-- A follower of a finished run ends with the run's outcome after enough iterations. -/
  terminates : ∀ live run events, state.follower.outcome = none → state.Readable handle live →
    live.runs handle.identity.runId = some run → isFinalRunStatus run.status = true →
    0 ≤ after → after ≤ live.messages.length →
    (∀ before rest, events = before ++ rest →
      ∃ next, (state.after before).Readable handle next) →
    state.remaining run.endSequence ≤ events.countP FollowEvent.isIteration →
    (state.after events).follower.outcome = some (endOutcome handle run)
  /-- A cursor past the tail, and a generation that is sealed or retired, is rejected. -/
  rejected : ∀ observedAt transitionId, state.follower.outcome = none →
    state.follower.phase = .reading →
    (∀ live, state.Readable handle live → live.messages.length < after) →
    ∃ error, (state.next (.follow observedAt transitionId)).follower.outcome =
      some (.failed error)

theorem Following.exact (following : Following handle after state) :
    FollowerExact handle after state where
  ordered := following.ordered
  delivered live readable :=
    following.delivered live readable.lookup readable.generation readable.active
  ended observedAt transitionId outcome running ended := by
    have iterated : state.next (.follow observedAt transitionId) =
        state.iterate observedAt transitionId := by simp [FollowState.next, running]
    rw [iterated] at ended ⊢
    exact following.ending running ended
  stopped _ events ended := FollowState.ended_kept ended events
  terminates _ _ _ running readable stored final started inside stays enough :=
    following.terminates running readable stored final started inside stays enough
  rejected observedAt transitionId running phase outside := by
    have iterated : state.next (.follow observedAt transitionId) =
        state.iterate observedAt transitionId := by simp [FollowState.next, running]
    rw [iterated, FollowState.iterate, phase]
    cases answer : state.store.readCommittedMessages state.follower.query with
    | error error => exact ⟨error, rfl⟩
    | ok page =>
      obtain ⟨live, readable, nonneg, inside, -⟩ := following.read_eq_ok answer
      have beyond := outside live readable
      have counted := following.counted
      omega

private def followedIdentity (runId : String) : RunIdentity := ⟨⟨"host", "thread"⟩, runId⟩

private def followedPreparation (runId : String) : LedgerTransition where
  kind := .prepareRun
  transitionId := "owner"
  channel := "chat"
  identity := followedIdentity runId
  codecId := some "json"
  unselected := unselected_none

private def followedReference (runId : String) (fence : Nat) : MessagingRunReference where
  channel := "chat"
  identity := followedIdentity runId
  generation := 1
  producerToken := some "owner"
  producerFence := some fence

private def followedFinish : LedgerTransition where
  kind := .finishRun
  transitionId := "finish"
  channel := "chat"
  identity := followedIdentity "first"
  runReference := some (followedReference "first" 1)
  finalStatus := some .completed
  unselected := nofun

private def followedAppend : LedgerTransition where
  kind := .appendMessage
  transitionId := "append"
  channel := "chat"
  identity := followedIdentity "second"
  runReference := some (followedReference "second" 2)
  codecId := some "json"
  messageId := some "message"
  payload := some [0]
  unselected := nofun

private def followedHandle : BackendRunHandle where
  toMessagingRunReference := followedReference "first" 1
  canonical := by decide +kernel

private def followedEvents : List StreamEvent :=
  [.commit 0 (followedPreparation "first"), .commit 0 followedFinish,
    .commit 0 (followedPreparation "second"), .commit 0 followedAppend]

end Tinkerfin.Messaging
