import Tinkerfin.Messaging.MemoryWrite

/-!
# Effects that the in-memory backend stores

A resolved transition either stores nothing, writes an effect that its generation accepts, or
retires a sealed generation.  Unfinished runs of this backend never lose their owner, so no effect
replaces one.
-/

namespace Tinkerfin.Messaging

variable {backend : MemoryBackend} {state : StreamState} {key : StreamKey} {live : Generation}
  {transition : MessagingTransition} {effect : MessagingStorageEffect} {observedAt : Nat}
  {run : StoredMessagingRun} {runId : String}

/-- How an effect is stored in the channel that a transition addresses. -/
inductive MemoryBackend.Stores (backend : MemoryBackend) (transition : MessagingTransition)
    (effect : MessagingStorageEffect) : Prop
  | nothing
      (absent : (backend.channel transition.key.channel).streams.get? transition.key.thread =
        none)
      (configures : effect.channel = none) (stream : effect.stream = none)
      (runs : effect.runs = []) (message : effect.message = none)
      (tombstone : effect.tombstoneReason = none)
  | written (state : StreamState)
      (base : (backend.channel transition.key.channel).streams.get? transition.key.thread =
          some state ∨
        ((backend.channel transition.key.channel).streams.get? transition.key.thread = none ∧
          effect.stream.isSome ∧ state = { generation := state.generation }))
      (configures : ∀ stored ∈ effect.channel,
        (backend.channel transition.key.channel).codec = none ∧ stored =
          { channel := transition.key.channel
            codecId := stored.codecId
            limits := backend.limits
            retentionPolicy := backend.retentionPolicy })
      (configured : (backend.channel transition.key.channel).codec.isSome ∨ effect.channel.isSome)
      (accepts : state.Accepts transition.key effect) (tombstone : effect.tombstoneReason = none)
  | retired (state : StreamState) (reason : MessagingCleanupReason)
      (lookup : (backend.channel transition.key.channel).streams.get? transition.key.thread =
        some state)
      (closing : state.disposition = reason.sealing)
      (retires : effect =
        retiredEffect transition (state.stored transition.key) state.generation reason)

/-! ## Reading the view -/

theorem MemoryBackend.view_live : (backend.view.threads key).live = some live ↔
    ∃ state, (backend.channel key.channel).streams.get? key.thread = some state ∧
      state.view key = live := by
  simp [MemoryBackend.view, ChannelState.view]

theorem StreamState.view_runs : (state.view key).runs runId = some run ↔
    ∃ record, state.runs.get? runId = some record ∧ record.stored state.generation = run := by
  simp [StreamState.view]

theorem StreamState.Valid.leased (valid : state.Valid key)
    (stored : (state.view key).runs runId = some run)
    (unfinished : isFinalRunStatus run.status = false) : run.producerLeaseActive = true := by
  obtain ⟨record, found, rfl⟩ := StreamState.view_runs.mp stored
  have open_ : isFinalRunStatus record.status = false := unfinished
  have owner := valid.owned _ _ found open_
  simp [RunRecord.stored, open_, owner]

theorem MemoryBackend.Valid.configured (valid : backend.Valid)
    (lookup : (backend.channel key.channel).streams.get? key.thread = some state) :
    (backend.channel key.channel).codec.isSome := by
  unfold MemoryBackend.channel at lookup ⊢
  cases stored : backend.channels.get? key.channel with
  | none => simp [stored] at lookup
  | some channel => exact (valid.registered _ _ stored).2

theorem prepareChannel_eq_ok {state : MessagingStateSnapshot} {codecId : String}
    {channel : Option StoredMessagingChannel}
    (checked : prepareChannel transition state codecId = .ok channel) :
    (state.channel.isSome ∧ channel = none) ∨
      (state.channel = none ∧ channel = some
        { channel := transition.channel
          codecId
          limits := transition.settings.limits
          retentionPolicy := transition.settings.retentionPolicy }) := by
  unfold prepareChannel at checked
  cases stored : state.channel with
  | none =>
    simp only [stored, Except.ok.injEq] at checked
    exact .inr ⟨rfl, checked.symm⟩
  | some _ =>
    simp only [stored, bind_eq_ok, pure, Except.pure, Except.ok.injEq] at checked
    obtain ⟨_, _, _, _, _, _, rfl⟩ := checked
    exact .inl ⟨rfl, rfl⟩

/-- The channel that a preparation configures is read back under the settings of the backend. -/
theorem Prepared.configures {channel : Option StoredMessagingChannel}
    {stream : StoredMessagingStream} {cursor : Int}
    (settled : transition.settings = backend.messagingSettings)
    (prepared : Prepared transition (backend.view.snapshot observedAt transition) channel stream
      cursor) :
    ((backend.channel transition.key.channel).codec.isSome ∨ channel.isSome) ∧
      ∀ stored ∈ channel, (backend.channel transition.key.channel).codec = none ∧ stored =
        { channel := transition.key.channel
          codecId := stored.codecId
          limits := backend.limits
          retentionPolicy := backend.retentionPolicy } := by
  obtain ⟨codecId, -, checked⟩ := prepared.channelChecked
  have observed : (backend.view.snapshot observedAt transition).channel =
      backend.storedChannel transition.key.channel := rfl
  rcases prepareChannel_eq_ok checked with ⟨present, rfl⟩ | ⟨absent, rfl⟩
  · rw [observed, MemoryBackend.storedChannel, Option.isSome_map] at present
    exact ⟨.inl present, nofun⟩
  · rw [observed, MemoryBackend.storedChannel, Option.map_eq_none_iff] at absent
    refine ⟨.inr rfl, ?_⟩
    rintro _ ⟨⟩
    rw [settled]
    exact ⟨absent, rfl⟩

/-! ## Runs that are read back -/

theorem StreamState.Valid.acceptsRun {record : RunRecord} {changed : StoredMessagingRun}
    (valid : state.Valid key) (stored : state.runs.get? runId = some record)
    (named : changed.identity = record.identity)
    (readBack : (RunRecord.ofStored changed).stored state.generation = changed)
    (owned : isFinalRunStatus changed.status = false → changed.producerToken.isSome)
    (fence : changed.producerFence = record.fence) : state.AcceptsRun key changed where
  addressed := by rw [named, valid.named _ _ stored]
  readBack := readBack
  owned := owned
  fenced other found := by
    rw [named, valid.named _ _ stored] at found
    obtain rfl := Option.some.inj (stored.symm.trans found)
    exact fence.ge

theorem foldl_max_of_lt {written : List StoredMessagingRun} {fence : Nat}
    (below : ∀ run ∈ written, run.producerFence < fence) :
    written.foldl (fun fence run => max fence (run.producerFence + 1)) fence = fence := by
  induction written with
  | nil => rfl
  | cons run rest ih =>
    rw [List.foldl_cons, max_eq_left (below run List.mem_cons_self)]
    exact ih fun other member => below other (List.mem_cons_of_mem _ member)

/-- An effect that grants no fence is accepted when it only describes its generation. -/
theorem StreamState.accepts_fenced (next : StoredMessagingStream)
    (single : effect.runs.length ≤ 1)
    (runs : ∀ run ∈ effect.runs, state.AcceptsRun key run ∧ run.producerFence < state.nextFence)
    (message : ∀ message ∈ effect.message, state.AcceptsMessage key message)
    (described : state.recorded key effect =
      { state.stored key with
        disposition := next.disposition
        payloadBytes := next.payloadBytes
        controlSequence := next.controlSequence
        activeRunId := next.activeRunId
        latestSequence := state.messages.length + effect.message.toList.length
        messageSequence := state.messages.length + effect.message.toList.length })
    (present : next.disposition = .active ∨ next.disposition.isSealed = true)
    (idle : effect.retentionAction = .start →
      next.disposition = .active ∧ next.activeRunId = none)
    (unretained : effect.retentionAction = .none → next.disposition = state.disposition ∧
      next.activeRunId = (state.stored key).activeRunId) :
    state.Accepts key effect where
  single := single
  runs run member := (runs run member).1
  message := message
  addressed := by
    rw [described]
    exact ⟨rfl, rfl⟩
  generation := by rw [described]; rfl
  present := by
    rw [described]
    exact present
  unexpired := by rw [described]; rfl
  tail := by rw [described]
  notified := by rw [described]
  fences := by
    rw [described, foldl_max_of_lt fun run member => (runs run member).2]
    rfl
  idle := by
    rw [described]
    exact idle
  unretained := by
    rw [described]
    exact unretained

/-- A run started in a generation without an owner is accepted under the next fence. -/
theorem StreamState.accepts_started {cursor : Int} {channel : Option StoredMessagingChannel}
    (active : state.disposition = .active) (addressed : transition.key = key)
    (absent : state.runs.get? transition.identity.runId = none) :
    state.Accepts key (preparedStart transition (state.stored key) cursor channel none) where
  single := le_rfl
  runs := by
    intro run member
    obtain rfl := List.mem_singleton.mp member
    exact
      { addressed := addressed ▸ rfl
        readBack := rfl
        owned := fun _ => rfl
        fenced := fun record stored => nomatch absent.symm.trans stored }
  message := nofun
  addressed := ⟨rfl, rfl⟩
  generation := rfl
  present := .inl active
  unexpired := rfl
  tail := rfl
  notified := rfl
  fences := (max_eq_right (Nat.le_succ _)).symm
  idle := nofun
  unretained := nofun

/-! ## Resolved effects -/

theorem MemoryBackend.Valid.thread_valid (valid : backend.Valid)
    (found : (backend.view.threads key).live = some live) :
    ∃ state, (backend.channel key.channel).streams.get? key.thread = some state ∧
      state.view key = live ∧ state.Valid key := by
  obtain ⟨state, lookup, rfl⟩ := MemoryBackend.view_live.mp found
  exact ⟨state, lookup, rfl, valid.streams _ _ lookup⟩

theorem stores_of_silent (valid : backend.Valid) (channel : effect.channel = none)
    (stream : effect.stream = none) (runs : effect.runs = []) (message : effect.message = none)
    (retention : effect.retentionAction = .none) (tombstone : effect.tombstoneReason = none) :
    backend.Stores transition effect := by
  cases lookup : (backend.channel transition.key.channel).streams.get? transition.key.thread with
  | none => exact .nothing lookup channel stream runs message tombstone
  | some state =>
    exact .written state (.inl lookup) (by simp [channel]) (.inl (valid.configured lookup))
      (StreamState.accepts_of_silent (valid.streams _ _ lookup) stream runs message retention)
      tombstone

theorem stores_of_accepts (valid : backend.Valid)
    (lookup : (backend.channel transition.key.channel).streams.get? transition.key.thread =
      some state)
    (channel : effect.channel = none) (accepts : state.Accepts transition.key effect)
    (tombstone : effect.tombstoneReason = none) : backend.Stores transition effect :=
  .written state (.inl lookup) (by simp [channel]) (.inl (valid.configured lookup)) accepts
    tombstone

theorem MemoryBackend.Valid.snapshot_record {stream : StoredMessagingStream}
    (valid : backend.Valid)
    (found : (backend.view.snapshot observedAt transition).stream = some stream)
    (target : (backend.view.snapshot observedAt transition).targetRun = some run) :
    ∃ state record, (backend.channel transition.key.channel).streams.get? transition.key.thread =
        some state ∧ state.Valid transition.key ∧
      stream = state.stored transition.key ∧
      state.runs.get? transition.identity.runId = some record ∧
      run = record.stored state.generation := by
  obtain ⟨live, shown, rfl, stored⟩ := snapshot_live found target
  obtain ⟨state, lookup, rfl, streamValid⟩ := valid.thread_valid shown
  obtain ⟨record, recorded, rfl⟩ := StreamState.view_runs.mp stored
  exact ⟨state, record, lookup, streamValid, rfl, recorded, rfl⟩

theorem MemoryBackend.Valid.target_leased (valid : backend.Valid)
    (target : (backend.view.snapshot observedAt transition).targetRun = some run)
    (unfinished : isFinalRunStatus run.status = false) : run.producerLeaseActive = true := by
  obtain ⟨live, selected, stored⟩ := snapshot_targetRun_eq_some.mp target
  obtain ⟨state, -, rfl, streamValid⟩ :=
    valid.thread_valid (StreamThread.selected_eq_some.mp selected).1
  exact streamValid.leased stored unfinished

theorem validateMessage_signature {snapshot : MessagingStateSnapshot} {message : ValidMessage}
    (valid : validateMessage transition snapshot = .ok message) :
    messagingMessageSignature transition.identity message.codecId message.payload
      transition.checkpoint = .ok message.signature := by
  simp only [validateMessage, bind_eq_ok] at valid
  obtain ⟨_, _, _, _, valid⟩ := valid
  split at valid
  · cases valid
  · simp only [bind_eq_ok] at valid
    obtain ⟨_, _, _, _, _, _, valid⟩ := valid
    split at valid
    · cases valid
    · simp only [bind_eq_ok, pure, Except.pure, Except.ok.injEq] at valid
      obtain ⟨_, _, signature, computed, rfl⟩ := valid
      exact computed

/-- A resolved transition of a valid stream is stored by the backend. -/
theorem resolved_stores (valid : backend.Valid)
    (thread : (backend.view.threads transition.key).Valid transition.key)
    (settled : transition.settings = backend.messagingSettings)
    (unselected : transition.kind = .prepareRun → transition.runReference = none)
    (resolved : Resolved transition (backend.view.snapshot observedAt transition) effect) :
    backend.Stores transition effect := by
  cases resolved with
  | silent kind nothing =>
    exact stores_of_silent valid nothing.channel nothing.stream nothing.runs nothing.message
      nothing.retention nothing.tombstone
  | @attached channel stream cursor run prepared target generation finished =>
    obtain ⟨live, selected, -⟩ := snapshot_targetRun_eq_some.mp target
    obtain ⟨state, lookup, -, -⟩ :=
      valid.thread_valid (StreamThread.selected_eq_some.mp selected).1
    have configured := valid.configured lookup
    have unconfigured : channel = none := by
      cases configures : channel with
      | none => rfl
      | some stored =>
        have absent := ((prepared.configures settled).2 stored configures).1
        rw [absent] at configured
        cases configured
    exact stores_of_silent valid unconfigured rfl rfl rfl rfl rfl
  | lost prepared orphaned =>
    cases orphaned.expired.symm.trans
      (valid.target_leased orphaned.target orphaned.unfinished)
  | recovered prepared orphaned =>
    cases orphaned.expired.symm.trans
      (valid.target_leased orphaned.target orphaned.unfinished)
  | reconciled kind target found active unfinished expired =>
    cases expired.symm.trans (valid.target_leased target unfinished)
  | @started channel stream cursor superseded prepared absent active expired =>
    obtain ⟨base, opens, rfl, target, other⟩ :=
      prepared_opens thread (unselected prepared.kind) prepared
    obtain ⟨configured, configures⟩ := prepared.configures settled
    have vacant := target.symm.trans absent
    cases opens with
    | live shown isActive =>
      obtain ⟨state, lookup, rfl, streamValid⟩ := valid.thread_valid shown
      have alone : superseded = none := by
        cases owner : superseded with
        | none => rfl
        | some run =>
          have stored := other.symm.trans (active.trans owner)
          simp only [Generation.otherActiveRun, Option.bind_eq_some_iff,
            Option.filter_eq_some_iff] at stored
          obtain ⟨activeRunId, ⟨owns, -⟩, stored⟩ := stored
          obtain ⟨again, found, unfinished⟩ :=
            (thread.wellFormed _ shown).activeStored _ owns
          obtain rfl := Option.some.inj (stored.symm.trans found)
          cases (expired run owner).symm.trans
            (streamValid.leased stored unfinished)
      subst alone
      have unrecorded : state.runs.get? transition.identity.runId = none := by
        simpa [StreamState.view] using vacant
      exact .written state (.inl lookup) configures configured
        (StreamState.accepts_started isActive rfl unrecorded) rfl
    | fresh idle =>
      have lookup : (backend.channel transition.key.channel).streams.get?
          transition.key.thread = none := by
        simpa [MemoryBackend.view, ChannelState.view] using idle
      obtain rfl : superseded = none := by
        simpa [Generation.opened, Generation.otherActiveRun, freshStream] using
          (other.symm.trans active).symm
      let opened : StreamState :=
        { generation := (freshStream transition
            (backend.view.threads transition.key).retired).generation }
      have accepts : opened.Accepts transition.key (preparedStart transition
          (opened.stored transition.key) cursor channel none) :=
        StreamState.accepts_started rfl rfl rfl
      exact .written opened (.inr ⟨lookup, rfl, rfl⟩) configures configured accepts rfl
  | retried kind target valid_ found same =>
    exact stores_of_silent valid rfl rfl rfl rfl rfl rfl
  | @appended run stream message kind target checked fresh publishable room =>
    obtain ⟨targetRun, found, active, -, -⟩ := appendTarget_eq_ok target
    obtain ⟨state, record, lookup, streamValid, rfl, stored, rfl⟩ :=
      valid.snapshot_record found targetRun
    have shown := MemoryBackend.view_live.mpr ⟨state, lookup, rfl⟩
    have unmatched : ∀ evidence ∈ (appendedEffect transition
        (backend.view.snapshot observedAt transition).observedAt (record.stored state.generation)
        (state.view transition.key).stream message).message,
        (state.view transition.key).matching evidence.envelope.messageId = none :=
      appended_unmatched found shown checked fresh
    refine stores_of_accepts valid lookup rfl ?_ rfl
    refine StreamState.accepts_fenced (appendedStream (state.stored transition.key) message)
      le_rfl ?_ ?_ rfl (.inl active) (fun h => by cases h) fun _ => ⟨rfl, rfl⟩
    · intro run member
      obtain rfl := List.mem_singleton.mp member
      exact ⟨streamValid.acceptsRun stored rfl rfl (streamValid.owned _ _ stored) rfl,
        StreamState.fence_lt_nextFence stored⟩
    · intro evidence member
      have unstored := unmatched evidence member
      rw [StreamState.matching_view streamValid, Option.map_eq_none_iff] at unstored
      obtain rfl := Option.some.inj member
      exact ⟨unstored, ⟨rfl, rfl⟩, rfl, validateMessage_signature checked⟩
  | settling kind owned unsettled running =>
    obtain ⟨state, record, lookup, streamValid, rfl, stored, rfl⟩ :=
      valid.snapshot_record owned.found owned.target
    refine stores_of_accepts valid lookup rfl ?_ rfl
    refine StreamState.accepts_fenced (state.stored transition.key)
      le_rfl ?_ (by simp [settlingEffect]) rfl (.inl owned.active) (fun h => by cases h) fun _ => ⟨rfl, rfl⟩
    intro run member
    obtain rfl := List.mem_singleton.mp member
    exact ⟨streamValid.acceptsRun stored rfl rfl (streamValid.owned _ _ stored) rfl,
      StreamState.fence_lt_nextFence stored⟩
  | @finished _ _ _ finalStatus kind owned requested final =>
    obtain ⟨state, record, lookup, streamValid, rfl, stored, rfl⟩ :=
      valid.snapshot_record owned.found owned.target
    have shown := MemoryBackend.view_live.mpr ⟨state, lookup, rfl⟩
    have owner : (state.stored transition.key).activeRunId =
        some transition.identity.runId :=
      (thread.wellFormed _ shown).unfinishedActive _ _
        (StreamState.view_runs.mpr ⟨record, stored, rfl⟩) owned.unfinished
    have released : releasedActiveRun (state.stored transition.key)
        transition.identity.runId = none := by
      rw [releasedActiveRun, owner, if_pos rfl]
    refine stores_of_accepts valid lookup rfl ?_ rfl
    refine StreamState.accepts_fenced (releasedStream (state.stored transition.key)
        (releasedActiveRun (state.stored transition.key) transition.identity.runId))
      le_rfl ?_ (by simp [finishedEffect]) rfl (.inl owned.active) (fun _ => ⟨owned.active, released⟩)
      fun h => by cases h
    intro run member
    obtain rfl := List.mem_singleton.mp member
    have ended : isFinalRunStatus (finishOutcome (record.stored state.generation) finalStatus
        transition.failure).1 = true := isFinalRunStatus_finishOutcome final
    refine ⟨streamValid.acceptsRun stored rfl ?_ (fun open_ => ?_) rfl,
      StreamState.fence_lt_nextFence stored⟩
    · simp [RunRecord.stored, RunRecord.ofStored, RunRecord.assign, RunRecord.opened,
        finishedRun]
    · cases ended.symm.trans open_
  | cancelled kind target found active unsettled cancellable running =>
    obtain ⟨state, record, lookup, streamValid, rfl, stored, rfl⟩ :=
      valid.snapshot_record found target
    refine stores_of_accepts valid lookup rfl ?_ rfl
    refine StreamState.accepts_fenced { state.stored transition.key with
        controlSequence := state.controlSequence + 1 }
      le_rfl ?_ (by simp [cancelledEffect]) rfl (.inl active) (fun h => by cases h) fun _ => ⟨rfl, rfl⟩
    intro run member
    obtain rfl := List.mem_singleton.mp member
    have isRunning : record.status = .running := running
    have owner := streamValid.owned _ _ stored (by rw [isRunning]; rfl)
    refine ⟨streamValid.acceptsRun stored rfl ?_ (fun _ => owner) rfl,
      StreamState.fence_lt_nextFence stored⟩
    simp [RunRecord.stored, RunRecord.ofStored, RunRecord.assign, RunRecord.opened, isRunning,
      isFinalRunStatus]
  | @sealed stream reason owner kind requested found active fenced due =>
    obtain ⟨live, selected, rfl⟩ := snapshot_stream_eq_some.mp found
    have shown := (StreamThread.selected_eq_some.mp selected).1
    obtain ⟨state, lookup, rfl, streamValid⟩ := valid.thread_valid shown
    have wellFormed := thread.wellFormed _ shown
    obtain ⟨owned, expired⟩ := sealedOwner_eq_ok wellFormed selected fenced
    have idle : owner = none := by
      cases owner with
      | none => rfl
      | some run =>
        obtain ⟨runId, owns, stored⟩ := Option.bind_eq_some_iff.mp owned
        obtain ⟨again, found, unfinished⟩ := wellFormed.activeStored _ owns
        obtain rfl := Option.some.inj (stored.symm.trans found)
        cases (expired run rfl).symm.trans (streamValid.leased stored unfinished)
    subst idle
    refine stores_of_accepts valid lookup rfl ?_ rfl
    have sealing : reason.sealing.isSealed = true := by cases reason <;> rfl
    exact StreamState.accepts_fenced
      { releasedStream (state.stored transition.key) none with disposition := reason.sealing }
      (by simp [sealedEffect]) (by simp [sealedEffect]) (by simp [sealedEffect]) rfl
      (.inr sealing) (by simp [sealedEffect]) (by simp [sealedEffect])
  | @retired stream reason _ kind requested claimed found same closing =>
    obtain ⟨live, selected, rfl⟩ := snapshot_stream_eq_some.mp found
    obtain ⟨state, lookup, rfl, -⟩ :=
      valid.thread_valid (StreamThread.selected_eq_some.mp selected).1
    exact .retired state reason lookup closing (by rw [← same]; rfl)

/-! ## Sealed generations -/

variable {store : StreamStore}

/-- A preparation is not resolved against a sealed generation. -/
theorem Prepared.not_sealed {channel : Option StoredMessagingChannel}
    {stream : StoredMessagingStream} {cursor : Int}
    (lookup : (store.threads transition.key).live = some live)
    (sealed : live.stream.disposition.isSealed = true)
    (unselected : transition.kind = .prepareRun → transition.runReference = none)
    (prepared : Prepared transition (store.snapshot observedAt transition) channel stream cursor) :
    False := by
  have selection : selectedGeneration transition = none := by
    simp [selectedGeneration, prepared.kind, unselected prepared.kind]
  have seen : (store.snapshot observedAt transition).stream = some live.stream := by
    simp [StreamStore.snapshot, selection, StreamThread.selected_none, lookup]
  have chosen := prepared.streamChosen
  simp only [prepareStream, seen] at chosen
  cases disposition : live.stream.disposition with
  | deleting | expiring => simp [disposition] at chosen
  | active | deleted | expired => simp [disposition, MessagingStreamDisposition.isSealed] at sealed

/-- On a sealed generation a resolved transition stores nothing or retires the generation. -/
theorem resolved_sealed (lookup : (store.threads transition.key).live = some live)
    (sealed : live.stream.disposition.isSealed = true)
    (unselected : transition.kind = .prepareRun → transition.runReference = none)
    (resolved : Resolved transition (store.snapshot observedAt transition) effect) :
    effect.Silent ∨ ∃ reason, transition.kind = .finishGenerationCleanup ∧
      transition.cleanupReason = some reason ∧
      transition.cleanupGeneration = some live.stream.generation ∧
      live.stream.disposition = reason.sealing ∧
      effect = retiredEffect transition live.stream live.stream.generation reason := by
  have inactive : ∀ stream, (store.snapshot observedAt transition).stream = some stream →
      stream.disposition ≠ .active := by
    intro stream found active
    obtain ⟨other, selected, rfl⟩ := snapshot_stream_eq_some.mp found
    obtain rfl := Option.some.inj (lookup.symm.trans (StreamThread.selected_eq_some.mp selected).1)
    rw [active] at sealed
    cases sealed
  cases resolved with
  | silent kind nothing => exact .inl nothing
  | attached prepared | lost prepared | recovered prepared | started prepared =>
    exact (prepared.not_sealed lookup sealed unselected).elim
  | retried kind target | appended kind target =>
    obtain ⟨-, found, active, -⟩ := appendTarget_eq_ok target
    exact absurd active (inactive _ found)
  | settling kind owned | finished kind owned => exact absurd owned.active (inactive _ owned.found)
  | cancelled kind target found active | reconciled kind target found active =>
    exact absurd active (inactive _ found)
  | sealed kind requested found active => exact absurd active (inactive _ found)
  | @retired stream reason _ kind requested claimed found same closing =>
    obtain ⟨other, selected, rfl⟩ := snapshot_stream_eq_some.mp found
    obtain rfl :=
      Option.some.inj (lookup.symm.trans (StreamThread.selected_eq_some.mp selected).1)
    subst same
    exact .inr ⟨reason, kind, requested, claimed, closing, rfl⟩

theorem resolved_stores_of_sealed (valid : backend.Valid)
    (lookup : (backend.channel transition.key.channel).streams.get? transition.key.thread =
      some state)
    (sealed : state.disposition.isSealed = true)
    (unselected : transition.kind = .prepareRun → transition.runReference = none)
    (resolved : Resolved transition (backend.view.snapshot observedAt transition) effect) :
    backend.Stores transition effect := by
  have shown := MemoryBackend.view_live.mpr ⟨state, lookup, rfl⟩
  rcases resolved_sealed shown sealed unselected resolved with
    nothing | ⟨reason, -, -, -, closing, rfl⟩
  · exact stores_of_silent valid nothing.channel nothing.stream nothing.runs nothing.message
      nothing.retention nothing.tombstone
  · exact .retired state reason lookup closing rfl

end Tinkerfin.Messaging
