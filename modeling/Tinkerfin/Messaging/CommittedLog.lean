import Mathlib.Data.List.Infix
import Tinkerfin.Messaging.Follow

/-!
# What a reader may rely on

A generation that stays live and active only appends, so a page once read is never revised and a
later read of the same range extends it.  The change cursor of a page covers what the page shows: as
long as it matches, nothing that a reader was shown has changed.
-/

namespace Tinkerfin.Messaging

variable {key : StreamKey} {live next last : Generation}   {transition : MessagingTransition} {state : MessagingStateSnapshot}
  {stream : StoredMessagingStream} {effect : MessagingStorageEffect}
  {run changed : StoredMessagingRun} {query : CommittedMessageQuery}

/-! ## Changes that a reader is shown -/

/-- What a page tells about a run, apart from its lease and its settlement. -/
def StoredMessagingRun.shown (run : StoredMessagingRun) :
    RunStatus × Nat × Option RecoveryCheckpoint × String × String :=
  (run.status, run.endSequence, run.checkpoint, run.failureClass, run.failureMessage)

/-- A reader learns nothing from the later record: it is shown alike, or it is a run that has begun
since and goes on. -/
def ShownAlike : Option StoredMessagingRun → Option StoredMessagingRun → Prop
  | some run, some later => later.shown = run.shown
  | none, some later => isFinalRunStatus later.status = false
  | none, none => True
  | some _, none => False

theorem ShownAlike.refl : ∀ run : Option StoredMessagingRun, ShownAlike run run
  | some _ => rfl
  | none => trivial

theorem ShownAlike.trans : ∀ {first second third : Option StoredMessagingRun},
    ShownAlike first second → ShownAlike second third → ShownAlike first third
  | some _, some _, some _, left, right => Eq.trans right left
  | none, some _, some _, left, right =>
    (congrArg isFinalRunStatus (congrArg Prod.fst right)).trans left
  | none, none, _, _, right => right
  | some _, none, _, left, _ => left.elim
  | _, some _, none, _, right => right.elim

/-- The log grew, no run ends earlier in it, and a record is shown differently only if a counter of
the change cursor moved. -/
structure Generation.Covers (live next : Generation) : Prop where
  control : live.stream.controlSequence ≤ next.stream.controlSequence
  messages : live.messages <+: next.messages
  bounded : ∀ runId, live.boundary runId ≤ next.boundary runId
  kept : next.stream.controlSequence = live.stream.controlSequence →
    next.messages.length = live.messages.length →
      ∀ runId, ShownAlike (live.runs runId) (next.runs runId)

theorem Generation.Covers.refl : live.Covers live :=
  ⟨le_rfl, List.prefix_rfl, fun _ => le_rfl, fun _ _ _ => .refl _⟩

theorem Generation.Covers.trans (first : live.Covers next) (second : next.Covers last) :
    live.Covers last where
  control := first.control.trans second.control
  messages := first.messages.trans second.messages
  bounded runId := (first.bounded runId).trans (second.bounded runId)
  kept control length runId := by
    have grown := first.messages.length_le
    have grownAgain := second.messages.length_le
    have risen := first.control
    have risenAgain := second.control
    exact (first.kept (by omega) (by omega) runId).trans
      (second.kept (by omega) (by omega) runId)

/-- A rewritten record is shown alike, or the rewrite moves a counter. -/
theorem RunChange.covers (change : RunChange transition state stream run effect changed) :
    stream.controlSequence ≤ (effect.stream.getD stream).controlSequence ∧
      (changed.shown = run.shown ∨
        stream.controlSequence < (effect.stream.getD stream).controlSequence ∨
          effect.message.isSome) := by
  cases change with
  | appended => exact ⟨le_rfl, .inr (.inr rfl)⟩
  | settling => exact ⟨le_rfl, .inl rfl⟩
  | lost | recovered | finished | cancelled | reconciled =>
    exact ⟨Nat.le_succ _, .inr (.inl (Nat.lt_succ_self _))⟩

/-- The boundary of a run never moves back. -/
theorem GenerationStep.boundary_mono (wellFormed : live.WellFormed key)
    (sequenced : live.Sequenced) (step : GenerationStep key live next)
    (active : next.stream.disposition = .active) (runId : String) :
    live.boundary runId ≤ next.boundary runId := by
  have before := step.active_before active
  have length := (sequenced before).length
  obtain ⟨extra, grown⟩ := step.messages_grow wellFormed active
  have grown : live.messages.length ≤ next.messages.length := by simp [grown]
  have below : live.boundary runId ≤ live.messages.length := Generation.boundary_le
  cases found : next.runs runId with
  | none =>
    simp only [Generation.boundary, found] at below ⊢
    omega
  | some changed =>
    rcases step.run_cases wellFormed found with ⟨-, -, transition, -, -, rfl⟩ | ⟨run, stored, step⟩
    · simp only [Generation.boundary, found, createdRun, isFinalRunStatus] at below ⊢
      simpa using below.trans grown
    · cases final : isFinalRunStatus run.status with
      | true =>
        obtain rfl := step.final_kept wellFormed stored final
        simp only [Generation.boundary, found, stored, final, if_true]
        omega
      | false =>
        have ended := step.ended_after wellFormed stored final
        simp only [Generation.boundary, found, stored, final, Bool.false_eq_true, if_false]
        split <;> omega

theorem GenerationStep.covers (wellFormed : live.WellFormed key) (sequenced : live.Sequenced)
    (step : GenerationStep key live next) (active : next.stream.disposition = .active) :
    live.Covers next := by
  obtain ⟨extra, grown⟩ := step.messages_grow wellFormed active
  have messages : live.messages <+: next.messages := ⟨extra, grown.symm⟩
  have bounded := step.boundary_mono wellFormed sequenced active
  cases step with
  | untouched => exact .refl
  | @started transition channel cursor superseded addressed isActive absent =>
    rw [Generation.revise_preparedStart] at messages bounded ⊢
    refine ⟨Nat.le_add_right _ _, messages, bounded, fun same _ other => ?_⟩
    cases superseded with
    | some lost => simp [startedStream] at same
    | none =>
      by_cases named : other = transition.identity.runId
      · subst named
        rw [absent]
        simp [ShownAlike, createdRun, isFinalRunStatus]
      · simpa [Generation.released, named] using ShownAlike.refl (live.runs other)
  | @rewritten transition _ effect run changed addressed isActive stored change =>
    rw [change.revise_eq wellFormed stored] at messages bounded ⊢
    obtain ⟨control, shown⟩ := change.covers
    refine ⟨control, messages, bounded, fun same unmoved other => ?_⟩
    by_cases named : other = transition.identity.runId
    · subst named
      rw [stored]
      simp only [Function.update_self]
      rcases shown with alike | moved | committed
      · exact alike
      · exact absurd same (ne_of_gt moved)
      · obtain ⟨message, found⟩ := Option.isSome_iff_exists.mp committed
        simp [found] at unmoved
    · simpa [named] using ShownAlike.refl (live.runs other)
  | sealed =>
    rw [Generation.revise_sealedEffect] at active
    exact absurd active (MessagingCleanupReason.sealing_ne_active _)
  | environment step =>
    have control : next.stream.controlSequence = live.stream.controlSequence := by
      cases step with
      | purged => rw [Generation.purge_stream]
      | leaseExpired | retentionObserved | unexpired => rfl
    refine ⟨control.ge, messages, bounded, fun _ _ runId => ?_⟩
    cases found : next.runs runId with
    | some changed =>
      obtain ⟨before, leased, again, rfl, -⟩ := step.run_kept found
      rw [again]
      rfl
    | none =>
      cases stored : live.runs runId with
      | none => trivial
      | some run =>
        rcases (GenerationStep.environment step).run_present wellFormed stored with
          ⟨changed, again⟩ | ⟨-, sealed⟩
        · cases found.symm.trans again
        · exact absurd active sealed

/-- What later events do to a generation that is still active. -/
theorem StreamStore.covers_after (events : List StreamEvent)
    (lookup : ((StreamStore.empty.after events).threads key).live = some live)
    (later : List StreamEvent) :
    (((StreamStore.empty.after events).after later).threads key).Holds live.stream.generation
      fun next => next.Sequenced ∧ (next.stream.disposition = .active → live.Covers next) := by
  refine (generation_rule (fun middle next wellFormed _ step holds => ?_)
    (StreamStore.empty_valid.after_events events) (.inr ⟨live, lookup, le_rfl⟩) ?_ later).2
  · obtain ⟨numbered, covers⟩ := holds
    refine ⟨step.sequenced wellFormed numbered, fun active => ?_⟩
    exact (covers (step.active_before active)).trans (step.covers wellFormed numbered active)
  · intro other again _
    obtain rfl := Option.some.inj (lookup.symm.trans again)
    exact ⟨StreamStore.sequenced_after events key live lookup, fun _ => .refl⟩

/-- After any events the messages of an active generation are numbered from one to the tail, carry
distinct identifiers and add up to the recorded byte count, and whatever happens later they stay the
beginning of the log. -/
theorem committed_log_append_only (events : List StreamEvent) :
    let store := StreamStore.empty.after events
    (∀ key live, (store.threads key).live = some live → live.stream.disposition = .active →
      Messaging.Sequenced live.stream live.messages) ∧
    ∀ later key live next, (store.threads key).live = some live →
      ((store.after later).threads key).live = some next →
        next.stream.generation = live.stream.generation → next.stream.disposition = .active →
          live.messages <+: next.messages := by
  intro store
  refine ⟨StreamStore.sequenced_after events, fun later key live next lookup found same active => ?_⟩
  exact ((StreamStore.covers_after events lookup later next found same).2 active).messages

/-! ## Pages -/

/-- A run that is shown alike bounds a log that did not grow where it did before. -/
theorem Generation.boundary_congr {runId : String}
    (alike : ShownAlike (live.runs runId) (next.runs runId))
    (log : next.messages = live.messages) : next.boundary runId = live.boundary runId := by
  unfold Generation.boundary
  generalize live.runs runId = before, next.runs runId = after at alike
  match before, after with
  | none, none => simp only [log]
  | none, some run => simp only [log, show isFinalRunStatus run.status = false from alike,
      Bool.false_eq_true, if_false]
  | some run, some later =>
    have shown : later.shown = run.shown := alike
    have status : later.status = run.status := congrArg Prod.fst shown
    have tail : later.endSequence = run.endSequence := congrArg (·.2.1) shown
    simp only [log, status, tail]
  | some _, none => exact alike.elim

/-- The last sequence of a page, if the log has a length and the run of the query a boundary. -/
def CommittedMessageQuery.ends (query : CommittedMessageQuery) (length boundary : Nat) : Int :=
  min (min (query.throughSequence.elim (length : Int) (min · length))
    (if query.stopAtRunTerminal then boundary else length : Nat)) (query.afterSequence + query.limit)

/-- Where the page stops, counted from the beginning of the log. -/
def CommittedMessageQuery.stop (query : CommittedMessageQuery) (length boundary : Nat) : Nat :=
  let stop := query.ends length boundary
  (if stop < 0 then length + stop else stop).toNat

theorem CommittedMessageQuery.stop_mono (query : CommittedMessageQuery)
    {length boundary longer later : Nat} (grown : length ≤ longer) (bounded : boundary ≤ later)
    (inside : boundary ≤ length) :
    query.stop length boundary ≤ min length (query.stop longer later) := by
  unfold CommittedMessageQuery.stop CommittedMessageQuery.ends
  cases query.throughSequence <;> cases query.stopAtRunTerminal <;>
    simp only [Option.elim, Bool.false_eq_true, if_false, if_true] <;> split <;> split <;> omega

theorem Generation.pageEnd_eq (query : CommittedMessageQuery) : live.pageEnd query =
    query.ends live.messages.length (live.boundary query.identity.runId) := by
  simp only [Generation.pageEnd, Generation.boundary, CommittedMessageQuery.ends]
  have inside : query.throughSequence.elim (live.messages.length : Int)
      (min · (live.messages.length : Int)) ≤ live.messages.length := by
    cases query.throughSequence <;> simp only [Option.elim] <;> omega
  generalize query.throughSequence.elim (live.messages.length : Int)
    (min · (live.messages.length : Int)) = through at inside ⊢
  cases live.runs query.identity.runId with
  | none => simp only [ite_self]; omega
  | some run =>
    cases query.stopAtRunTerminal <;> cases final : isFinalRunStatus run.status <;>
      simp only [final, Bool.false_eq_true, false_and, and_false, and_self, if_true,
        if_false] <;> omega

theorem Generation.page_messages : (live.page query).messages =
    live.envelopes.segment query.afterSequence.toNat
      (query.stop live.messages.length (live.boundary query.identity.runId)) := by
  simp only [Generation.page, slice, List.segment, Generation.pageEnd_eq, Generation.envelopes,
    List.length_map, CommittedMessageQuery.stop]

theorem Generation.stop_le (live : Generation) (query : CommittedMessageQuery) :
    query.stop live.messages.length (live.boundary query.identity.runId) ≤ live.messages.length :=
  (query.stop_mono le_rfl le_rfl Generation.boundary_le).trans (min_le_left _ _)

/-- A page keeps its beginning. -/
theorem Generation.page_grows (covers : live.Covers next) :
    (live.page query).messages <+: (next.page query).messages := by
  have stops := (query.stop_mono covers.messages.length_le
    (covers.bounded query.identity.runId) Generation.boundary_le).trans (min_le_right _ _)
  have envelopes : live.envelopes <+: next.envelopes := covers.messages.map _
  rw [Generation.page_messages, Generation.page_messages]
  refine List.IsPrefix.drop ((List.IsPrefix.take envelopes _).trans ?_) _
  exact List.take_prefix_take_left stops

/-- Two reads of one query, the second after some more events. -/
theorem StreamStore.reread (events : List StreamEvent) {later : List StreamEvent}
    {page again : CommittedMessagePage}
    (read : (StreamStore.empty.after events).readCommittedMessages query = .ok page)
    (reread : ((StreamStore.empty.after events).after later).readCommittedMessages query =
      .ok again) :
    ∃ live next : Generation, page = live.page query ∧ again = next.page query ∧
      live.Covers next := by
  obtain ⟨-, -, live, lookup, same, -, -, rfl⟩ := readCommittedMessages_eq_ok.mp read
  obtain ⟨-, -, next, found, sameNext, active, -, rfl⟩ := readCommittedMessages_eq_ok.mp reread
  exact ⟨live, next, rfl, rfl, (StreamStore.covers_after events lookup later next found
    (sameNext.trans same.symm)).2 active⟩

/-- After any events every page is numbered from its cursor on, and reading the same range of the
generation later returns the same messages again, and maybe more. -/
theorem page_reads_stable (events : List StreamEvent) :
    let store := StreamStore.empty.after events
    (∀ query page, store.readCommittedMessages query = .ok page →
      page.messages.map MessageEnvelope.seq =
        List.range' (query.afterSequence.toNat + 1) page.messages.length) ∧
    ∀ later query page again, store.readCommittedMessages query = .ok page →
      (store.after later).readCommittedMessages query = .ok again →
        page.messages <+: again.messages := by
  intro store
  constructor
  · intro query page read
    obtain ⟨-, -, live, lookup, -, active, -, rfl⟩ := readCommittedMessages_eq_ok.mp read
    have inside := live.stop_le query
    have numbered := StreamStore.sequenced_after events _ _ lookup
    rw [Generation.page_messages,
      numbered.segment_seq active query.afterSequence.toNat inside,
      List.length_segment (Generation.length_envelopes ▸ inside)]
  · intro later query page again read reread
    obtain ⟨live, next, rfl, rfl, covers⟩ := StreamStore.reread events read reread
    exact Generation.page_grows covers

/-- After any events the change cursors of a generation only move forward, and while the cursor of
a page still matches, so that a wait on it goes on, reading again shows the same messages and tells
the same of the run. -/
theorem change_cursor_covers (events : List StreamEvent) :
    let store := StreamStore.empty.after events
    (∀ later query page again, store.readCommittedMessages query = .ok page →
      (store.after later).readCommittedMessages query = .ok again →
        page.changeCursor.messageSequence ≤ again.changeCursor.messageSequence ∧
          page.changeCursor.controlSequence ≤ again.changeCursor.controlSequence) ∧
    ∀ later query page, store.readCommittedMessages query = .ok page →
      (store.after later).waitForMessagingChange
          ⟨query.channel, query.identity, page.generation, page.changeCursor⟩ = .ok false →
        ∃ again, (store.after later).readCommittedMessages query = .ok again ∧
          again.messages = page.messages ∧ ShownAlike page.runState again.runState := by
  intro store
  constructor
  · intro later query page again read reread
    obtain ⟨live, next, rfl, rfl, covers⟩ := StreamStore.reread events read reread
    exact ⟨covers.messages.length_le, covers.control⟩
  · intro later query page read unchanged
    obtain ⟨nonneg, limited, live, lookup, same, -, inside, rfl⟩ :=
      readCommittedMessages_eq_ok.mp read
    simp only [StreamStore.waitForMessagingChange, bind_eq_ok, requireGeneration_eq_ok, pure,
      Except.pure, Except.ok.injEq, decide_eq_false_iff_not, not_or, not_not] at unchanged
    obtain ⟨next, ⟨found, generation, active⟩, length, control⟩ := unchanged
    have covers := (StreamStore.covers_after events lookup later next found generation).2 active
    have alike := covers.kept control length query.identity.runId
    have log : next.messages = live.messages :=
      (covers.messages.eq_of_length length.symm).symm
    refine ⟨next.page query, readCommittedMessages_eq_ok.mpr ⟨nonneg, limited, next, found,
      generation.trans same, active, log ▸ inside, rfl⟩, ?_, alike⟩
    have ended := Generation.boundary_congr alike log
    rw [Generation.page_messages, Generation.page_messages, ended, Generation.envelopes,
      Generation.envelopes, log]

end Tinkerfin.Messaging
