import Mathlib.Data.List.Nodup
import Mathlib.Data.List.Range
import Tinkerfin.Messaging.Store

/-!
# What one event does to a stream

`resolved_threadStep` turns a committed transition into one of five steps of its stream: nothing is
written, a run starts, one unfinished run is rewritten, the live generation is sealed, or it is
retired.  `RunChange` lists the rewrites of a single run.
-/

namespace Tinkerfin.Messaging

open Function (update)

/-! ## Steps of one stream -/

/-- How a transition rewrites an unfinished run of an active generation. -/
inductive RunChange (transition : MessagingTransition) (state : MessagingStateSnapshot)
    (stream : StoredMessagingStream) (run : StoredMessagingRun) :
    MessagingStorageEffect → StoredMessagingRun → Prop
  | lost {channel : Option StoredMessagingChannel} {cursor : Int} {message : String}
      (kind : transition.kind = .prepareRun)
      (unfinished : isFinalRunStatus run.status = false)
      (expired : run.producerLeaseActive = false)
      (unrecovered : (run.status = .cancelRequested ∧ run.settlementStarted = true) ∨
        ¬(run.recoverable = true ∧ transition.recoverable = true)) :
      RunChange transition state stream run
        (preparedLoss transition stream cursor channel run message)
        (ownerLostRun run stream.latestSequence message)
  | recovered {channel : Option StoredMessagingChannel} {cursor : Int}
      (kind : transition.kind = .prepareRun)
      (unfinished : isFinalRunStatus run.status = false)
      (expired : run.producerLeaseActive = false)
      (unsettled : ¬(run.status = .cancelRequested ∧ run.settlementStarted = true))
      (recoverable : run.recoverable = true ∧ transition.recoverable = true) :
      RunChange transition state stream run
        (preparedRecovery transition stream cursor channel run)
        (recoveredRun transition stream run)
  | appended {message : ValidMessage}
      (kind : transition.kind = .appendMessage ∨ transition.kind = .publishMessage)
      (target : appendTarget transition state = .ok (run, stream))
      (valid : validateMessage transition state = .ok message)
      (fresh : state.matchingMessage = none)
      (publishable : transition.kind = .publishMessage → Publishable run)
      (room : requireThreadRoom transition stream message = .ok ()) :
      RunChange transition state stream run
        (appendedEffect transition state.observedAt run stream message)
        (appendedRun transition stream run)
  | settling {reference : MessagingRunReference}
      (kind : transition.kind = .beginSettlement)
      (owned : Owned transition state run stream reference)
      (unsettled : run.settlementStarted = false)
      (running : run.status = .running ∨ run.status = .cancelRequested) :
      RunChange transition state stream run (settlingEffect transition run)
        { run with settlementStarted := true }
  | finished {reference : MessagingRunReference} {finalStatus : RunStatus}
      (kind : transition.kind = .finishRun)
      (owned : Owned transition state run stream reference)
      (requested : transition.finalStatus = some finalStatus)
      (final : isFinalRunStatus finalStatus = true) :
      RunChange transition state stream run
        (finishedEffect transition stream run (finishOutcome run finalStatus transition.failure))
        (finishedRun stream run (finishOutcome run finalStatus transition.failure))
  | cancelled (kind : transition.kind = .requestCancellation)
      (unsettled : run.settlementStarted = false) (cancellable : run.cancellable = true)
      (running : run.status = .running) :
      RunChange transition state stream run (cancelledEffect transition stream run)
        { run with status := .cancelRequested }
  | reconciled (kind : transition.kind = .reconcileProducerOwnership)
      (unfinished : isFinalRunStatus run.status = false)
      (expired : run.producerLeaseActive = false) :
      RunChange transition state stream run (reconciledEffect transition stream run)
        (reconciledRun stream run)

/-- The generation a preparation works on: the active one, or the next empty one. -/
inductive StreamThread.Opens (thread : StreamThread) (transition : MessagingTransition) :
    Generation → Prop
  | live {generation : Generation} (lookup : thread.live = some generation)
      (active : generation.stream.disposition = .active) : thread.Opens transition generation
  | fresh (idle : thread.live = none) :
      thread.Opens transition (Generation.opened (freshStream transition thread.retired))

/-- What a committed transition does to its stream. -/
inductive ThreadStep (transition : MessagingTransition) (state : MessagingStateSnapshot)
    (thread : StreamThread) : MessagingStorageEffect → StreamThread → Prop
  | quiet {effect : MessagingStorageEffect}
      (kind : transition.kind ≠ .beginSettlement ∧ transition.kind ≠ .finishRun)
      (uncommitted : effect.message = none) (unowned : effect.result.isProducerOwner ≠ some true)
      (uncancelled : effect.result.cancellationRequestedByTransition ≠ some true) :
      ThreadStep transition state thread effect thread
  | started {base : Generation} {channel : Option StoredMessagingChannel} {cursor : Int}
      {superseded : Option StoredMessagingRun}
      (kind : transition.kind = .prepareRun)
      (opens : thread.Opens transition base)
      (absent : base.runs transition.identity.runId = none)
      (active : base.otherActiveRun transition.identity.runId = superseded)
      (expired : ∀ run ∈ superseded, run.producerLeaseActive = false) :
      ThreadStep transition state thread
        (preparedStart transition base.stream cursor channel superseded)
        { thread with
          live := some (base.revise
            (preparedStart transition base.stream cursor channel superseded)) }
  | rewritten {live : Generation} {run changed : StoredMessagingRun}
      {effect : MessagingStorageEffect}
      (lookup : thread.live = some live) (active : live.stream.disposition = .active)
      (stored : live.runs transition.identity.runId = some run)
      (change : RunChange transition state live.stream run effect changed)
      (fresh : ∀ message ∈ effect.message, live.matching message.envelope.messageId = none) :
      ThreadStep transition state thread effect
        { thread with live := some (live.revise effect) }
  | sealed {live : Generation} {reason : MessagingCleanupReason}
      {owner : Option StoredMessagingRun}
      (kind : transition.kind = .beginGenerationCleanup)
      (lookup : thread.live = some live) (active : live.stream.disposition = .active)
      (owned : live.stream.activeRunId.bind live.runs = owner)
      (expired : ∀ run ∈ owner, run.producerLeaseActive = false)
      (requested : transition.cleanupReason = some reason) :
      ThreadStep transition state thread (sealedEffect transition live.stream reason owner)
        { thread with
          live := some (live.revise (sealedEffect transition live.stream reason owner)) }
  | retired {live : Generation} {reason : MessagingCleanupReason}
      (kind : transition.kind = .finishGenerationCleanup)
      (lookup : thread.live = some live)
      (closing : live.stream.disposition = reason.sealing)
      (claimed : transition.cleanupGeneration = some live.stream.generation) :
      ThreadStep transition state thread
        (retiredEffect transition live.stream live.stream.generation reason)
        (thread.retire live.stream.generation reason)

/-! ## The invariant of a stream -/

/-- The run records of a generation agree with its stream record. -/
structure Generation.WellFormed (generation : Generation) (key : StreamKey) : Prop where
  positive : 1 ≤ generation.stream.generation
  /-- A retired generation is no longer live. -/
  present : generation.stream.disposition = .active ∨
    generation.stream.disposition.isSealed = true
  named : ∀ runId run, generation.runs runId = some run →
    run.identity = ⟨key.thread, runId⟩ ∧ run.generation = generation.stream.generation
  activeStored : ∀ runId, generation.stream.activeRunId = some runId →
    ∃ run, generation.runs runId = some run ∧ isFinalRunStatus run.status = false
  unfinishedActive : ∀ runId run, generation.runs runId = some run →
    isFinalRunStatus run.status = false → generation.stream.activeRunId = some runId
  fenced : ∀ runId run, generation.runs runId = some run →
    run.producerFence < generation.stream.nextProducerFence
  released : ∀ runId run, generation.runs runId = some run →
    isFinalRunStatus run.status = true →
    run.producerToken = none ∧ run.producerLeaseActive = false
  ended : ∀ runId run, generation.runs runId = some run →
    run.endSequence ≤ generation.stream.latestSequence
  openEnded : ∀ runId run, generation.runs runId = some run →
    isFinalRunStatus run.status = false → run.endSequence = generation.stream.latestSequence
  sealedIdle : generation.stream.disposition ≠ .active → generation.stream.activeRunId = none

/-- The live generation is well formed and newer than every retired one. -/
structure StreamThread.Valid (thread : StreamThread) (key : StreamKey) : Prop where
  wellFormed : ∀ live, thread.live = some live → live.WellFormed key
  newer : ∀ live, thread.live = some live → ∀ retired, thread.retired = some retired →
    retired < live.stream.generation
  remembered : ∀ retired, thread.retired = some retired → (thread.tombstones retired).isSome
  latest : ∀ generation reason, thread.tombstones generation = some reason →
    ∃ retired, thread.retired = some retired ∧ generation ≤ retired
  positive : ∀ generation reason, thread.tombstones generation = some reason → 1 ≤ generation

/-- Every stream of the store is valid. -/
def StreamStore.Valid (store : StreamStore) : Prop :=
  ∀ key, (store.threads key).Valid key

theorem StreamStore.empty_valid : StreamStore.empty.Valid := fun _ =>
  ⟨nofun, nofun, nofun, nofun, nofun⟩

/-! ## Reading a snapshot -/

variable {store : StreamStore} {transition : MessagingTransition} {observedAt : Nat}
  {key : StreamKey} {thread : StreamThread} {live : Generation}

theorem StreamThread.selected_eq_some {generation : Option Nat} :
    thread.selected generation = some live ↔
      thread.live = some live ∧ ∀ wanted ∈ generation, live.stream.generation = wanted := by
  simp [StreamThread.selected, Option.filter_eq_some_iff]

theorem StreamThread.selected_none : thread.selected none = thread.live := by
  cases lookup : thread.live <;> simp [StreamThread.selected, lookup]

theorem snapshot_stream_eq_some {stream : StoredMessagingStream} :
    (store.snapshot observedAt transition).stream = some stream ↔
      ∃ live, (store.threads transition.key).selected (selectedGeneration transition) = some live ∧
        live.stream = stream := by
  simp [StreamStore.snapshot]

theorem snapshot_targetRun_eq_some {run : StoredMessagingRun} :
    (store.snapshot observedAt transition).targetRun = some run ↔
      ∃ live, (store.threads transition.key).selected (selectedGeneration transition) = some live ∧
        live.runs transition.identity.runId = some run := by
  simp [StreamStore.snapshot, Option.bind_eq_some_iff]

theorem snapshot_live {stream : StoredMessagingStream} {run : StoredMessagingRun}
    (found : (store.snapshot observedAt transition).stream = some stream)
    (target : (store.snapshot observedAt transition).targetRun = some run) :
    ∃ live, (store.threads transition.key).live = some live ∧ live.stream = stream ∧
      live.runs transition.identity.runId = some run := by
  obtain ⟨live, selected, rfl⟩ := snapshot_stream_eq_some.mp found
  obtain ⟨other, again, stored⟩ := snapshot_targetRun_eq_some.mp target
  obtain rfl : live = other := Option.some.inj (selected.symm.trans again)
  exact ⟨live, (StreamThread.selected_eq_some.mp selected).1, rfl, stored⟩

/-! ## Applying an effect -/

variable {effect : MessagingStorageEffect}

theorem StreamThread.apply_of_live (lookup : thread.live = some live)
    (same : ∀ stream ∈ effect.stream, live.stream.generation = stream.generation)
    (kept : effect.tombstoneReason = none) :
    thread.apply effect = { thread with live := some (live.revise effect) } := by
  have base : thread.base effect = some live := by
    unfold StreamThread.base
    cases replaced : effect.stream with
    | none => exact lookup
    | some stream => simp [lookup, Option.filter_some, same stream replaced]
  simp only [StreamThread.apply, base, kept]

theorem StreamThread.apply_of_silent (stream : effect.stream = none) (runs : effect.runs = [])
    (message : effect.message = none) (tombstone : effect.tombstoneReason = none) :
    thread.apply effect = thread := by
  cases lookup : thread.live with
  | none => simp [StreamThread.apply, StreamThread.base, stream, lookup]
  | some live =>
    rw [StreamThread.apply_of_live lookup (by simp [stream]) tombstone]
    have unrevised : live.revise effect = live := by
      simp [Generation.revise, recordRuns, stream, runs, message]
    rw [unrevised, ← lookup]

@[simp] theorem StreamStore.onThread_threads_self {change : StreamThread → StreamThread} :
    (store.onThread key change).threads key = change (store.threads key) := by
  simp [StreamStore.onThread]

theorem StreamStore.onThread_threads_of_ne {change : StreamThread → StreamThread}
    {other : StreamKey} (different : other ≠ key) :
    (store.onThread key change).threads other = store.threads other := by
  simp [StreamStore.onThread, different]

theorem StreamStore.apply_of_silent (silent : effect.Silent) : store.apply key effect = store := by
  have kept : (store.threads key).apply effect = store.threads key :=
    StreamThread.apply_of_silent silent.stream silent.runs silent.message silent.tombstone
  cases store
  simp_all [StreamStore.apply, StreamStore.onThread, silent.channel]

theorem StreamStore.commit_eq_ok {result : MessagingTransitionResult} {after : StreamStore} :
    store.commit observedAt transition = .ok (result, after) ↔
      ∃ effect, resolveMessagingTransition transition (store.snapshot observedAt transition) =
          .ok effect ∧
        result = effect.result ∧ after = store.apply transition.key effect := by
  simp only [StreamStore.commit, bind_eq_ok, pure, Except.pure, Except.ok.injEq, Prod.mk.injEq]
  constructor
  · rintro ⟨effect, resolved, rfl, rfl⟩
    exact ⟨effect, resolved, rfl, rfl⟩
  · rintro ⟨effect, resolved, rfl, rfl⟩
    exact ⟨effect, resolved, rfl, rfl⟩

theorem StreamStore.accepted_eq_some {result : MessagingTransitionResult} {after : StreamStore} :
    store.accepted observedAt transition = some (result, after) ↔
      store.commit observedAt transition = .ok (result, after) := by
  unfold StreamStore.accepted
  cases store.commit observedAt transition <;> simp [Except.toOption]

/-! ## The step of a commit -/

theorem StreamThread.Valid.tombstone_fst (valid : thread.Valid key) :
    (thread.tombstone none).map Prod.fst = thread.retired := by
  cases retired : thread.retired with
  | none => simp [StreamThread.tombstone, retired]
  | some generation =>
    obtain ⟨reason, tombstone⟩ := Option.isSome_iff_exists.mp (valid.remembered _ retired)
    simp [StreamThread.tombstone, retired, tombstone]

theorem replaceStream_eq_ok {state : MessagingStateSnapshot} {stream : StoredMessagingStream}
    (chosen : replaceStream transition state = .ok stream) :
    stream = freshStream transition (state.tombstoneGeneration.or
      (state.stream.map StoredMessagingStream.generation)) := by
  simp only [replaceStream, bind_eq_ok, pure, Except.pure, Except.ok.injEq] at chosen
  obtain ⟨_, _, rfl⟩ := chosen
  rfl

/-- A preparation works on the active generation, or on a fresh one of an idle stream. -/
theorem prepared_opens {channel : Option StoredMessagingChannel} {stream : StoredMessagingStream}
    {cursor : Int} (valid : (store.threads transition.key).Valid transition.key)
    (unselected : transition.runReference = none)
    (prepared : Prepared transition (store.snapshot observedAt transition) channel stream cursor) :
    ∃ base, (store.threads transition.key).Opens transition base ∧ base.stream = stream ∧
      (store.snapshot observedAt transition).targetRun =
        base.runs transition.identity.runId ∧
      (store.snapshot observedAt transition).activeRun =
        base.otherActiveRun transition.identity.runId := by
  have selection : selectedGeneration transition = none := by
    simp [selectedGeneration, prepared.kind, unselected]
  have chosen := prepared.streamChosen
  cases lookup : (store.threads transition.key).live with
  | none =>
    have unseen : (store.snapshot observedAt transition).stream = none := by
      simp [StreamStore.snapshot, selection, StreamThread.selected_none, lookup]
    have tombstone : (store.snapshot observedAt transition).tombstoneGeneration =
        (store.threads transition.key).retired := by
      rw [← valid.tombstone_fst, ← selection]
      rfl
    simp only [prepareStream, unseen] at chosen
    have fresh := replaceStream_eq_ok chosen
    rw [tombstone, unseen, Option.map_none, Option.or_none] at fresh
    refine ⟨_, .fresh lookup, fresh.symm, ?_, ?_⟩
    · simp [StreamStore.snapshot, selection, StreamThread.selected_none, lookup,
        Generation.opened]
    · simp [StreamStore.snapshot, selection, StreamThread.selected_none, lookup,
        Generation.opened, Generation.otherActiveRun, freshStream]
  | some live =>
    have seen : (store.snapshot observedAt transition).stream = some live.stream := by
      simp [StreamStore.snapshot, selection, StreamThread.selected_none, lookup]
    simp only [prepareStream, seen] at chosen
    have present := (valid.wellFormed live lookup).present
    cases disposition : live.stream.disposition with
    | active =>
      simp only [disposition, Except.ok.injEq] at chosen
      refine ⟨live, .live lookup disposition, chosen, ?_, ?_⟩
      · simp [StreamStore.snapshot, selection, StreamThread.selected_none, lookup]
      · simp [StreamStore.snapshot, selection, StreamThread.selected_none, lookup]
    | deleting | expiring => simp [disposition] at chosen
    | deleted | expired => simp [disposition, MessagingStreamDisposition.isSealed] at present

theorem StreamThread.Opens.live_of_run {base : Generation} {runId : String}
    {run : StoredMessagingRun} (opens : thread.Opens transition base)
    (stored : base.runs runId = some run) :
    thread.live = some base ∧ base.stream.disposition = .active := by
  cases opens with
  | live lookup active => exact ⟨lookup, active⟩
  | fresh idle => simp [Generation.opened] at stored

theorem appendTarget_eq_ok {state : MessagingStateSnapshot} {run : StoredMessagingRun}
    {stream : StoredMessagingStream} (target : appendTarget transition state = .ok (run, stream)) :
    state.targetRun = some run ∧ state.stream = some stream ∧ stream.disposition = .active ∧
      (transition.kind ≠ .publishMessage → ∃ reference,
        Owned transition state run stream reference) ∧
      (transition.kind = .publishMessage →
        transition.runReference.map MessagingRunReference.generation = some stream.generation ∧
        transition.checkpoint = none ∧ transition.closesPublication = false) := by
  unfold appendTarget at target
  split at target
  · next publishing =>
      simp only [publicationTarget, bind_eq_ok, require_eq_ok, pure, Except.pure,
        Except.ok.injEq, Prod.mk.injEq] at target
      obtain ⟨_, run, _, found, _, generation, _, unchanged, rfl, rfl⟩ := target
      obtain ⟨found, active⟩ := requiredStream_eq_ok.mp found
      exact ⟨requiredTargetRun_eq_ok.mp run, found, active,
        fun other => absurd publishing other, fun _ => ⟨generation, unchanged⟩⟩
  · next appending =>
      simp only [bind_eq_ok, pure, Except.pure, Except.ok.injEq, Prod.mk.injEq] at target
      obtain ⟨⟨_, _, reference⟩, owned, rfl, rfl⟩ := target
      have owned := ownedRun_eq_ok.mp owned
      exact ⟨owned.target, owned.found, owned.active, fun _ => ⟨reference, owned⟩,
        fun publishing => absurd publishing appending⟩

theorem validateMessage_messageId {state : MessagingStateSnapshot} {message : ValidMessage}
    (valid : validateMessage transition state = .ok message) :
    transition.messageId = some message.messageId := by
  simp only [validateMessage, bind_eq_ok] at valid
  obtain ⟨_, _, messageId, named, valid⟩ := valid
  rw [requiredText_eq_ok named]
  split at valid
  · cases valid
  · simp only [bind_eq_ok] at valid
    obtain ⟨_, _, _, _, _, _, valid⟩ := valid
    split at valid
    · cases valid
    · simp only [bind_eq_ok, pure, Except.pure, Except.ok.injEq] at valid
      obtain ⟨_, _, _, _, rfl⟩ := valid
      rfl

theorem appended_unmatched {run : StoredMessagingRun} {message : ValidMessage}
    (found : (store.snapshot observedAt transition).stream = some live.stream)
    (lookup : (store.threads transition.key).live = some live)
    (valid : validateMessage transition (store.snapshot observedAt transition) = .ok message)
    (fresh : (store.snapshot observedAt transition).matchingMessage = none) :
    ∀ evidence ∈ (appendedEffect transition (store.snapshot observedAt transition).observedAt run
      live.stream message).message, live.matching evidence.envelope.messageId = none := by
  rintro _ ⟨⟩
  obtain ⟨other, selected, -⟩ := snapshot_stream_eq_some.mp found
  obtain rfl := Option.some.inj (lookup.symm.trans (StreamThread.selected_eq_some.mp selected).1)
  have unmatched : live.matching message.messageId = none := by
    simpa [StreamStore.snapshot, selected, validateMessage_messageId valid] using fresh
  exact unmatched

/-- Sealing fences the run that owns the generation. -/
theorem sealedOwner_eq_ok {owner : Option StoredMessagingRun} (wellFormed : live.WellFormed key)
    (selected : (store.threads transition.key).selected (selectedGeneration transition) = some live)
    (fenced : sealedOwner transition (store.snapshot observedAt transition) live.stream =
      .ok owner) :
    live.stream.activeRunId.bind live.runs = owner ∧
      ∀ run ∈ owner, run.producerLeaseActive = false := by
  have targetRun : (store.snapshot observedAt transition).targetRun =
      live.runs transition.identity.runId := by
    simp [StreamStore.snapshot, selected]
  have activeRun : (store.snapshot observedAt transition).activeRun =
      live.otherActiveRun transition.identity.runId := by
    simp [StreamStore.snapshot, selected]
  unfold sealedOwner at fenced
  cases active : live.stream.activeRunId with
  | none =>
    simp only [active, Except.ok.injEq] at fenced
    subst fenced
    simp
  | some activeRunId =>
    obtain ⟨run, stored, -⟩ := wellFormed.activeStored _ active
    have chosen : cleanupOwner (store.snapshot observedAt transition) activeRunId =
        some run := by
      rw [cleanupOwner, targetRun, activeRun]
      by_cases addressed : activeRunId = transition.identity.runId
      · have named := (wellFormed.named _ _ stored).1
        simp [← addressed, stored, named]
      · have other : live.otherActiveRun transition.identity.runId = some run := by
          simp [Generation.otherActiveRun, active, Option.filter_some, addressed, stored]
        cases target : live.runs transition.identity.runId with
        | none => exact other
        | some requested =>
          have named := (wellFormed.named _ _ target).1
          have different : requested.identity.runId ≠ activeRunId := by
            rw [named]
            exact Ne.symm addressed
          simp only [different, if_false, other]
    simp only [active, chosen, bind_eq_ok, require_eq_ok, pure,
      Except.pure, Except.ok.injEq] at fenced
    obtain ⟨_, expired, rfl⟩ := fenced
    exact ⟨stored, by simpa using expired⟩

theorem StreamThread.Opens.apply_started {base : Generation}
    {channel : Option StoredMessagingChannel} {cursor : Int}
    {superseded : Option StoredMessagingRun} (opens : thread.Opens transition base) :
    thread.apply (preparedStart transition base.stream cursor channel superseded) =
      { thread with
        live := some (base.revise
          (preparedStart transition base.stream cursor channel superseded)) } := by
  cases opens with
  | live lookup active =>
    refine StreamThread.apply_of_live lookup ?_ rfl
    rintro _ ⟨⟩
    rfl
  | fresh idle =>
    simp [StreamThread.apply, StreamThread.base, idle, preparedStart, Generation.revise,
      Generation.opened]

theorem apply_retiredEffect {reason : MessagingCleanupReason} (lookup : thread.live = some live) :
    thread.apply (retiredEffect transition live.stream live.stream.generation reason) =
      thread.retire live.stream.generation reason := by
  have base : thread.base
      (retiredEffect transition live.stream live.stream.generation reason) = some live := by
    simp [StreamThread.base, retiredEffect, releasedStream, lookup, Option.filter_some]
  unfold StreamThread.apply
  rw [base]
  rfl

/-- The effect of a committed transition is one step of the addressed stream. -/
theorem resolved_threadStep (valid : (store.threads transition.key).Valid transition.key)
    (unselected : transition.kind = .prepareRun → transition.runReference = none)
    (resolved : Resolved transition (store.snapshot observedAt transition) effect) :
    ThreadStep transition (store.snapshot observedAt transition) (store.threads transition.key)
      effect ((store.threads transition.key).apply effect) := by
  cases resolved with
  | silent kind nothing =>
    rw [StreamThread.apply_of_silent nothing.stream nothing.runs nothing.message
      nothing.tombstone]
    refine .quiet ?_ nothing.message (by simp [nothing.unowned]) nothing.uncancelled
    constructor <;> intro loud <;> simp [loud, MessagingTransitionKind.mayBeSilent] at kind
  | attached prepared target generation settled =>
    rw [StreamThread.apply_of_silent rfl rfl rfl rfl]
    exact .quiet (by simp [prepared.kind]) rfl (by simp [preparedAttachment, attachmentResult])
      nofun
  | lost prepared orphaned unrecovered =>
    obtain ⟨base, opens, rfl, target, -⟩ :=
      prepared_opens valid (unselected prepared.kind) prepared
    have stored := target.symm.trans orphaned.target
    obtain ⟨lookup, active⟩ := opens.live_of_run stored
    rw [StreamThread.apply_of_live lookup (by rintro _ ⟨⟩; rfl) rfl]
    exact .rewritten lookup active stored
      (.lost prepared.kind orphaned.unfinished orphaned.expired unrecovered) nofun
  | recovered prepared orphaned unsettled recoverable =>
    obtain ⟨base, opens, rfl, target, -⟩ :=
      prepared_opens valid (unselected prepared.kind) prepared
    have stored := target.symm.trans orphaned.target
    obtain ⟨lookup, active⟩ := opens.live_of_run stored
    rw [StreamThread.apply_of_live lookup (by rintro _ ⟨⟩; rfl) rfl]
    exact .rewritten lookup active stored
      (.recovered prepared.kind orphaned.unfinished orphaned.expired unsettled recoverable) nofun
  | started prepared absent active expired =>
    obtain ⟨base, opens, rfl, target, other⟩ :=
      prepared_opens valid (unselected prepared.kind) prepared
    rw [opens.apply_started]
    exact .started prepared.kind opens (target.symm.trans absent) (other.symm.trans active)
      expired
  | retried kind target valid found same =>
    rw [StreamThread.apply_of_silent rfl rfl rfl rfl]
    refine .quiet ?_ rfl (by simp [retriedEffect]) nofun
    rcases kind with kind | kind <;> simp [kind]
  | appended kind target valid fresh publishable room =>
    obtain ⟨targetRun, found, active, -, -⟩ := appendTarget_eq_ok target
    obtain ⟨live, lookup, rfl, stored⟩ := snapshot_live found targetRun
    rw [StreamThread.apply_of_live lookup (by rintro _ ⟨⟩; rfl) rfl]
    exact .rewritten lookup active stored
      (.appended kind target valid fresh (requirePublishable_eq_ok.mp publishable) room)
      (appended_unmatched found lookup valid fresh)
  | settling kind owned unsettled running =>
    obtain ⟨live, lookup, rfl, stored⟩ := snapshot_live owned.found owned.target
    rw [StreamThread.apply_of_live lookup (by rintro _ ⟨⟩) rfl]
    exact .rewritten lookup owned.active stored (.settling kind owned unsettled running) nofun
  | finished kind owned requested final =>
    obtain ⟨live, lookup, rfl, stored⟩ := snapshot_live owned.found owned.target
    rw [StreamThread.apply_of_live lookup (by rintro _ ⟨⟩; rfl) rfl]
    exact .rewritten lookup owned.active stored (.finished kind owned requested final) nofun
  | cancelled kind target found active unsettled cancellable running =>
    obtain ⟨live, lookup, rfl, stored⟩ := snapshot_live found target
    rw [StreamThread.apply_of_live lookup (by rintro _ ⟨⟩; rfl) rfl]
    exact .rewritten lookup active stored (.cancelled kind unsettled cancellable running) nofun
  | reconciled kind target found active unfinished expired =>
    obtain ⟨live, lookup, rfl, stored⟩ := snapshot_live found target
    rw [StreamThread.apply_of_live lookup (by rintro _ ⟨⟩; rfl) rfl]
    exact .rewritten lookup active stored (.reconciled kind unfinished expired) nofun
  | sealed kind requested found active fenced due =>
    obtain ⟨live, selected, rfl⟩ := snapshot_stream_eq_some.mp found
    have lookup := (StreamThread.selected_eq_some.mp selected).1
    rw [StreamThread.apply_of_live lookup (by rintro _ ⟨⟩; rfl) rfl]
    obtain ⟨owned, expired⟩ := sealedOwner_eq_ok (valid.wellFormed _ lookup) selected fenced
    exact .sealed kind lookup active owned expired requested
  | @retired stream reason _ kind requested claimed found same closing =>
    obtain ⟨live, selected, rfl⟩ := snapshot_stream_eq_some.mp found
    have lookup := (StreamThread.selected_eq_some.mp selected).1
    subst same
    rw [apply_retiredEffect lookup]
    exact .retired kind lookup closing claimed

end Tinkerfin.Messaging
