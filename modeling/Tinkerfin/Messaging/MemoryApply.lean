import Tinkerfin.Messaging.MemoryStep

/-!
# Storing an effect in the in-memory backend

A stored effect is rejected by the total limits and changes nothing, or it leaves a valid backend
whose view is the view before with the effect applied.  Retiring a due generation is the expiry step
of its stream.
-/

namespace Tinkerfin.Messaging

open Function (update)

variable {backend : MemoryBackend} {channel : ChannelState} {state : StreamState} {key : StreamKey}
  {transition : MessagingTransition} {effect : MessagingStorageEffect} {clock : ClockReadings}
  {reason : MessagingCleanupReason} {name : String}

/-! ## Keeping a channel -/

theorem MemoryBackend.Valid.channel_channel (valid : backend.Valid) (name : String) :
    (backend.channel name).channel = name := by
  unfold MemoryBackend.channel
  cases stored : backend.channels.get? name with
  | none => rfl
  | some channel => exact (valid.registered _ _ stored).1

theorem MemoryBackend.channel_keep (configured : channel.codec.isSome) (name : String) :
    (backend.keep channel).channel name =
      if name = channel.channel then channel else backend.channel name := by
  simp only [MemoryBackend.keep, configured, if_true, MemoryBackend.channel, Dict.get?_insert]
  split <;> rfl

theorem MemoryBackend.Valid.keep_channel (valid : backend.Valid) (name : String) :
    backend.keep (backend.channel name) = backend := by
  unfold MemoryBackend.keep
  split
  · next configured =>
      cases stored : backend.channels.get? name with
      | none => simp [MemoryBackend.channel, stored] at configured
      | some channel =>
        have same : backend.channel name = channel := by
          rw [MemoryBackend.channel, stored, Option.getD_some]
        rw [same, (valid.registered _ _ stored).1, Dict.insert_of_get? stored]
  · rfl

theorem MemoryBackend.keep_limits (backend : MemoryBackend) (channel : ChannelState) :
    (backend.keep channel).limits = backend.limits ∧
      (backend.keep channel).retentionPolicy = backend.retentionPolicy := by
  unfold MemoryBackend.keep
  split <;> exact ⟨rfl, rfl⟩

/-- Keeping a channel in which one stream changed changes this stream of the view. -/
theorem MemoryBackend.view_keep_threads (configured : channel.codec.isSome)
    (named : channel.channel = key.channel)
    (others : ∀ other : StreamKey, other.channel = key.channel → other.thread ≠ key.thread →
      channel.view other = backend.view.threads other) :
    (backend.keep channel).view.threads =
      update backend.view.threads key (channel.view key) := by
  funext other
  simp only [MemoryBackend.view, MemoryBackend.channel_keep configured, named]
  by_cases same : other = key
  · rw [same, if_pos rfl, Function.update_self]
  · rw [Function.update_of_ne same]
    split
    · next sameChannel =>
        have different : other.thread ≠ key.thread := fun equal =>
          same (by cases other; cases key; simp_all)
        exact others other sameChannel different
    · rfl

theorem MemoryBackend.view_keep_channels (configured : channel.codec.isSome)
    (named : channel.channel = name) :
    (backend.keep channel).view.channels =
      update backend.view.channels name (channel.codec.map fun codecId =>
        { channel := name
          codecId
          limits := backend.limits
          retentionPolicy := backend.retentionPolicy }) := by
  obtain ⟨limits, policy⟩ := backend.keep_limits channel
  funext other
  simp only [MemoryBackend.view, MemoryBackend.storedChannel,
    MemoryBackend.channel_keep configured, limits, policy, named, Function.update_apply]
  split
  · next same => rw [same]
  · rfl

/-- Keeping a channel of valid generations keeps the backend valid. -/
theorem MemoryBackend.Valid.keep {bytes records : Int} {expirations : ExpiryIndex Nat}
    (valid : backend.Valid) (configured : channel.codec.isSome)
    (streams : ∀ thread state, channel.streams.get? thread = some state →
      state.Valid ⟨channel.channel, thread⟩)
    (scheduled : ∀ other deadline, expirations.deadlines.get? other = some deadline →
      other.channel = channel.channel ∨ (backend.channels.get? other.channel).isSome) :
    (MemoryBackend.keep
      { backend with totalBytes := bytes, totalRecords := records, expirations }
      channel).Valid where
  registered name other stored := by
    simp only [MemoryBackend.keep, configured, if_true, Dict.get?_insert] at stored
    split at stored
    · next same =>
        cases stored
        exact ⟨same.symm, configured⟩
    · exact valid.registered _ _ stored
  streams key state stored := by
    rw [MemoryBackend.channel_keep configured] at stored
    split at stored
    · next same =>
        have found := streams key.thread state stored
        rwa [← same] at found
    · exact valid.streams key state stored
  scheduled key deadline stored := by
    simp only [MemoryBackend.keep, configured, if_true] at stored ⊢
    rw [Dict.get?_insert]
    split
    · rfl
    · next other => exact (scheduled _ _ stored).resolve_left other

theorem MemoryBackend.Valid.recharge (valid : backend.Valid) {bytes records : Int}
    {expirations : ExpiryIndex Nat}
    (scheduled : ∀ key deadline, expirations.deadlines.get? key = some deadline →
      (backend.channels.get? key.channel).isSome) :
    MemoryBackend.Valid
      { backend with totalBytes := bytes, totalRecords := records, expirations } :=
  ⟨valid.registered, valid.streams, scheduled⟩

/-! ## Retiring a generation -/

theorem ChannelState.tombstones_retire (channel : ChannelState) (thread other : ThreadIdentity)
    (state : StreamState) (reason : MessagingCleanupReason) :
    (channel.retire thread state reason).threadTombstones other =
      if other = thread then
        (channel.threadTombstones thread).insert state.generation reason
      else
        channel.threadTombstones other := by
  simp only [ChannelState.threadTombstones, ChannelState.retire, ChannelState.recordTombstone,
    Dict.get?_insert]
  split <;> rfl

theorem max?_keys_insert {tombstones : Dict Nat MessagingCleanupReason} {generation : Nat}
    (newer : ∀ retired, tombstones.keys.max? = some retired → retired < generation) :
    (tombstones.insert generation reason).keys.max? = some generation := by
  rw [List.max?_eq_some_iff]
  have older : ∀ retired ∈ tombstones.keys, retired ≤ generation := by
    intro retired member
    cases latest : tombstones.keys.max? with
    | none => simp [List.max?_eq_none_iff.mp latest] at member
    | some last =>
      have bound := (List.max?_eq_some_iff.mp latest).2 retired member
      exact le_of_lt (lt_of_le_of_lt bound (newer last latest))
  refine ⟨Dict.mem_keys_insert.mpr (.inl rfl), fun retired member => ?_⟩
  rcases Dict.mem_keys_insert.mp member with rfl | old
  · exact le_rfl
  · exact older retired old

theorem ChannelState.view_retire
    (newer : ∀ retired, (channel.view key).retired = some retired → retired < state.generation) :
    (channel.retire key.thread state reason).view key =
      (channel.view key).retire state.generation reason := by
  have erased : (channel.retire key.thread state reason).streams.get? key.thread = none :=
    Dict.get?_erase_self _ _
  simp only [ChannelState.view, ChannelState.tombstones_retire, if_true, erased, Option.map_none,
    StreamThread.retire, max?_keys_insert newer]
  congr 1
  funext generation
  simp only [Dict.get?_insert, Function.update_apply]

theorem ChannelState.view_retire_of_ne {other : StreamKey} (different : other.thread ≠ key.thread) :
    (channel.retire key.thread state reason).view other = channel.view other := by
  have kept : (channel.retire key.thread state reason).streams.get? other.thread =
      channel.streams.get? other.thread := Dict.get?_erase_of_ne _ different
  simp only [ChannelState.view, ChannelState.tombstones_retire, different, if_false, kept]

theorem StreamStore.ext_fields {left right : StreamStore} (channels : left.channels = right.channels)
    (threads : left.threads = right.threads) : left = right := by
  cases left
  cases right
  congr

/-- Retiring a generation of a configured channel retires it in the view. -/
theorem MemoryBackend.view_retire (configured : channel.codec.isSome)
    (named : channel.channel = key.channel)
    (codec : channel.codec = (backend.channel key.channel).codec)
    (others : ∀ other : StreamKey, other.channel = key.channel → other.thread ≠ key.thread →
      channel.view other = backend.view.threads other)
    (newer : ∀ retired, (channel.view key).retired = some retired → retired < state.generation) :
    (backend.retireMemoryGeneration channel key.thread state reason).view =
      { backend.view with
        threads := update backend.view.threads key
          ((channel.view key).retire state.generation reason) } := by
  have retired : (channel.retire key.thread state reason).codec.isSome := configured
  apply StreamStore.ext_fields
  · rw [MemoryBackend.retireMemoryGeneration, MemoryBackend.view_keep_channels retired named]
    have unchanged : (channel.retire key.thread state reason).codec =
        (backend.channel key.channel).codec := codec
    rw [unchanged]
    exact Function.update_eq_self key.channel backend.view.channels
  · rw [MemoryBackend.retireMemoryGeneration, MemoryBackend.view_keep_threads retired named,
      ChannelState.view_retire newer]
    · rfl
    · intro other sameChannel different
      rw [ChannelState.view_retire_of_ne different, others other sameChannel different]
      rfl

/-- The stored generations after one of them was retired. -/
theorem MemoryBackend.stream?_retire {other : StreamKey} (configured : channel.codec.isSome)
    (named : channel.channel = key.channel)
    (others : ∀ thread, thread ≠ key.thread →
      channel.streams.get? thread = (backend.channel key.channel).streams.get? thread) :
    (backend.retireMemoryGeneration channel key.thread state reason).stream? other =
      if other = key then none else backend.stream? other := by
  have retired : (channel.retire key.thread state reason).codec.isSome := configured
  have renamed : (channel.retire key.thread state reason).channel = key.channel := named
  simp only [MemoryBackend.stream?, MemoryBackend.retireMemoryGeneration,
    MemoryBackend.channel_keep retired, renamed]
  by_cases same : other = key
  · subst same
    simp only [if_true]
    exact Dict.get?_erase_self _ _
  · rw [if_neg same]
    split
    · next sameChannel =>
        have different : other.thread ≠ key.thread := fun equal =>
          same (by cases other; cases key; simp_all)
        rw [sameChannel, ← others _ different]
        exact Dict.get?_erase_of_ne _ different
    · rfl

/-! ## Storing an effect -/

/-- The channel after an effect configured its codec. -/
def ChannelState.configured (channel : ChannelState) (effect : MessagingStorageEffect) :
    ChannelState :=
  { channel with codec := channel.codec.or (effect.channel.map StoredMessagingChannel.codecId) }

theorem ChannelState.configure_eq
    (unconfigured : ∀ stored ∈ effect.channel, channel.codec = none) :
    channel.configure effect = .ok (channel.configured effect) := by
  unfold ChannelState.configure ChannelState.configured
  cases configures : effect.channel with
  | none => simp
  | some stored =>
    have absent := unconfigured stored configures
    simp [absent]

/-- The generation of a stored effect is the live one or a new one. -/
theorem ChannelState.effectStream_eq
    (base : channel.streams.get? key.thread = some state ∨
      (channel.streams.get? key.thread = none ∧ effect.stream.isSome ∧
        state = { generation := state.generation }))
    (accepts : state.Accepts key effect) :
    channel.effectStream key.thread effect = some state := by
  have generation := accepts.generation
  unfold ChannelState.effectStream
  cases described : effect.stream with
  | none =>
    rcases base with lookup | ⟨-, described', -⟩
    · exact lookup
    · simp [described] at described'
  | some stream =>
    rw [StreamState.recorded, described, Option.getD_some] at generation
    rcases base with lookup | ⟨absent, -, fresh⟩
    · simp [lookup, generation]
    · rw [absent, fresh]
      simp only [generation]

theorem StreamState.view_retain (state : StreamState) (key : StreamKey) (capacity : EffectCapacity)
    (policy : MessagingRetentionPolicy) (now : Nat) (action : MessagingRetentionAction) :
    ((state.charge capacity).retain policy now action).view key = state.view key := by
  cases action <;> rfl

theorem StreamState.view_opened {stream : StoredMessagingStream} {generation : Nat}
    (described : effect.stream = some stream) :
    (StreamState.view { generation } key).revise effect =
      (Generation.opened stream).revise effect := by
  simp only [Generation.revise, described, Option.getD_some]
  rfl

/-- A stream after an accepted effect that retires nothing. -/
theorem ChannelState.apply_view {stored : ChannelState} {written : StreamState}
    (base : channel.streams.get? key.thread = some state ∨
      (channel.streams.get? key.thread = none ∧ effect.stream.isSome ∧
        state = { generation := state.generation }))
    (accepts : state.Accepts key effect) (kept : effect.tombstoneReason = none)
    (streams : stored.streams.get? key.thread = some written)
    (tombstones : stored.tombstones = channel.tombstones)
    (revised : written.view key = (state.view key).revise effect) :
    stored.view key = (channel.view key).apply effect := by
  have shown : stored.view key =
      { channel.view key with live := some ((state.view key).revise effect) } := by
    simp only [ChannelState.view, streams, Option.map_some, revised,
      ChannelState.threadTombstones, tombstones]
  rw [shown]
  rcases base with lookup | ⟨absent, described, fresh⟩
  · have live : (channel.view key).live = some (state.view key) := by
      simp [ChannelState.view, lookup]
    rw [StreamThread.apply_of_live live ?_ kept]
    intro stream described
    have generation := accepts.generation
    rw [StreamState.recorded, described, Option.getD_some] at generation
    exact generation.symm
  · obtain ⟨stream, described⟩ := Option.isSome_iff_exists.mp described
    have idle : (channel.view key).live = none := by simp [ChannelState.view, absent]
    rw [fresh, StreamState.view_opened described]
    simp [StreamThread.apply, StreamThread.base, described, idle, kept]

theorem ChannelState.effectCapacity_nothing (thread : ThreadIdentity)
    (configures : effect.channel = none) (stream : effect.stream = none)
    (runs : effect.runs = []) (message : effect.message = none) :
    channel.effectCapacity thread effect = ⟨0, 0, 0⟩ := by
  simp [ChannelState.effectCapacity, configures, stream, runs, message, newMessage, chargeIf]

/-- Storing an effect without a generation leaves the backend as it is. -/
theorem applyMemoryEffect_of_absent (valid : backend.Valid)
    (absent : (backend.channel key.channel).streams.get? key.thread = none)
    (configures : effect.channel = none) (stream : effect.stream = none)
    (runs : effect.runs = []) (message : effect.message = none)
    (tombstone : effect.tombstoneReason = none)
    (room : backend.requireTotalRoom ⟨0, 0, 0⟩ = .ok ()) :
    backend.applyMemoryEffect clock key effect = (.ok (), backend) := by
  have capacity := (backend.channel key.channel).effectCapacity_nothing key.thread configures
    stream runs message
  have configured : (backend.channel key.channel).configure effect =
      .ok (backend.channel key.channel) := by
    simp [ChannelState.configure, configures]
  have unwritten : (backend.channel key.channel).effectStream key.thread effect = none := by
    simp [ChannelState.effectStream, stream, absent]
  have streamless : requireStreamless effect = .ok () := by
    simp [requireStreamless, runs, message, tombstone, require, bind, Except.bind]
  have kept := valid.keep_channel key.channel
  simp only [MemoryBackend.applyMemoryEffect, capacity, room, configured, bind, Except.bind,
    unwritten, streamless, add_zero]
  exact congrArg _ kept

/-- The generation that an effect leaves behind. -/
def MemoryBackend.writtenState (backend : MemoryBackend) (clock : ClockReadings) (key : StreamKey)
    (effect : MessagingStorageEffect) (state : StreamState) : StreamState :=
  ((state.write key.thread effect).charge
      ((backend.channel key.channel).effectCapacity key.thread effect)).retain
    backend.retentionPolicy clock.retainedAt effect.retentionAction

/-- The channel that an effect leaves behind. -/
def MemoryBackend.writtenChannel (backend : MemoryBackend) (clock : ClockReadings)
    (key : StreamKey) (effect : MessagingStorageEffect) (state : StreamState) : ChannelState :=
  ((backend.channel key.channel).configured effect).withStream key.thread
    (backend.writtenState clock key effect state)

/-- The backend after an effect was charged and its deadline scheduled. -/
def MemoryBackend.chargedBackend (backend : MemoryBackend) (clock : ClockReadings)
    (key : StreamKey) (effect : MessagingStorageEffect) (state : StreamState) : MemoryBackend :=
  { backend with
    totalBytes := backend.totalBytes +
      ((backend.channel key.channel).effectCapacity key.thread effect).bytes
    totalRecords := backend.totalRecords +
      ((backend.channel key.channel).effectCapacity key.thread effect).records
    expirations :=
      if effect.retentionAction ≠ .none then
        backend.expirations.set key (backend.writtenState clock key effect state).expiresAtMonotonic
      else
        backend.expirations }

theorem applyMemoryEffect_of_stream
    (room : backend.requireTotalRoom
      ((backend.channel key.channel).effectCapacity key.thread effect) = .ok ())
    (configured : (backend.channel key.channel).configure effect =
      .ok ((backend.channel key.channel).configured effect))
    (base : (backend.channel key.channel).effectStream key.thread effect = some state) :
    backend.applyMemoryEffect clock key effect = (.ok (),
      match effect.tombstoneReason with
      | none =>
        (backend.chargedBackend clock key effect state).keep
          (backend.writtenChannel clock key effect state)
      | some reason =>
        (backend.chargedBackend clock key effect state).retireMemoryGeneration
          (backend.writtenChannel clock key effect state) key.thread
          (backend.writtenState clock key effect state) reason) := by
  have again : ((backend.channel key.channel).configured effect).effectStream key.thread effect =
      some state := base
  simp only [MemoryBackend.applyMemoryEffect, room, configured, bind, Except.bind, again]
  cases effect.tombstoneReason <;> rfl

theorem MemoryBackend.Valid.scheduled_set (valid : backend.Valid) {requested : Option Nat}
    {other : StreamKey} {deadline : Nat}
    (stored : (backend.expirations.set key requested).deadlines.get? other = some deadline) :
    other.channel = key.channel ∨ (backend.channels.get? other.channel).isSome := by
  rw [ExpiryIndex.set_deadlines] at stored
  split at stored
  · next same => exact .inl (congrArg StreamKey.channel same)
  · exact .inr (valid.scheduled _ _ stored)

theorem MemoryBackend.writtenChannel_streams {other : ThreadIdentity} :
    (backend.writtenChannel clock key effect state).streams.get? other =
      if other = key.thread then some (backend.writtenState clock key effect state)
      else (backend.channel key.channel).streams.get? other :=
  Dict.get?_insert _ _ _ _

theorem MemoryBackend.Valid.writtenChannel_channel (valid : backend.Valid) :
    (backend.writtenChannel clock key effect state).channel = key.channel :=
  valid.channel_channel key.channel

theorem MemoryBackend.writtenChannel_view {other : StreamKey}
    (sameChannel : other.channel = key.channel) (different : other.thread ≠ key.thread) :
    (backend.writtenChannel clock key effect state).view other = backend.view.threads other := by
  simp only [ChannelState.view, MemoryBackend.view, sameChannel,
    MemoryBackend.writtenChannel_streams, different, if_false]
  rfl

/-- Writing an accepted effect keeps the backend valid. -/
theorem MemoryBackend.Valid.written (valid : backend.Valid)
    (streamValid : state.Valid key)
    (configured : (backend.writtenChannel clock key effect state).codec.isSome)
    (accepts : state.Accepts key effect) :
    ((backend.chargedBackend clock key effect state).keep
      (backend.writtenChannel clock key effect state)).Valid := by
  have named : (backend.writtenChannel clock key effect state).channel = key.channel :=
    valid.writtenChannel_channel
  refine valid.keep configured ?_ ?_
  · intro thread other stored
    rw [MemoryBackend.writtenChannel_streams] at stored
    rw [named]
    split at stored
    · next same =>
        cases stored
        subst same
        exact streamValid.write accepts _ _ _
    · exact valid.streams ⟨key.channel, thread⟩ other stored
  · intro other deadline stored
    rw [named]
    split at stored
    · exact valid.scheduled_set stored
    · exact .inr (valid.scheduled _ _ stored)

/-- Writing an accepted effect applies it to the view. -/
theorem MemoryBackend.view_written (valid : backend.Valid)
    (streamValid : state.Valid key)
    (base : (backend.channel key.channel).streams.get? key.thread = some state ∨
      ((backend.channel key.channel).streams.get? key.thread = none ∧ effect.stream.isSome ∧
        state = { generation := state.generation }))
    (configures : ∀ stored ∈ effect.channel, (backend.channel key.channel).codec = none ∧ stored =
      { channel := key.channel
        codecId := stored.codecId
        limits := backend.limits
        retentionPolicy := backend.retentionPolicy })
    (configured : (backend.writtenChannel clock key effect state).codec.isSome)
    (accepts : state.Accepts key effect) (kept : effect.tombstoneReason = none) :
    ((backend.chargedBackend clock key effect state).keep
      (backend.writtenChannel clock key effect state)).view = backend.view.apply key effect := by
  have named : (backend.writtenChannel clock key effect state).channel = key.channel :=
    valid.writtenChannel_channel
  apply StreamStore.ext_fields
  · rw [MemoryBackend.view_keep_channels configured named]
    cases created : effect.channel with
    | none =>
      have unchanged : (backend.writtenChannel clock key effect state).codec =
          (backend.channel key.channel).codec := by
        simp [MemoryBackend.writtenChannel, ChannelState.withStream, ChannelState.configured,
          created]
      rw [unchanged, StreamStore.apply, created]
      exact Function.update_eq_self key.channel backend.view.channels
    | some stored =>
      obtain ⟨absent, readBack⟩ := configures stored created
      have codec : (backend.writtenChannel clock key effect state).codec =
          some stored.codecId := by
        simp [MemoryBackend.writtenChannel, ChannelState.withStream, ChannelState.configured,
          created, absent]
      rw [codec, StreamStore.apply, created, readBack]
      rfl
  · have written := (backend.writtenState clock key effect state).view key
    have revised : (backend.writtenState clock key effect state).view key =
        (state.view key).revise effect :=
      (StreamState.view_retain _ _ _ _ _ _).trans (StreamState.view_write streamValid accepts)
    have applied : (backend.writtenChannel clock key effect state).view key =
        (backend.view.threads key).apply effect :=
      ChannelState.apply_view base accepts kept
        (MemoryBackend.writtenChannel_streams.trans (if_pos rfl)) rfl revised
    rw [MemoryBackend.view_keep_threads configured named, applied]
    · rfl
    · exact fun other sameChannel different =>
        MemoryBackend.writtenChannel_view sameChannel different

theorem StreamState.opened_valid (generation : Nat) : StreamState.Valid { generation } key where
  present := .inl rfl
  named := by simp
  owned := by simp
  indexed := by simp
  signed := by simp
  evidenced := by simp
  addressed := by simp
  numbered := rfl
  distinct := .nil
  idle := by simp

/-- Retiring a generation of a configured channel keeps the backend valid. -/
theorem MemoryBackend.Valid.retire {bytes records : Int} (valid : backend.Valid)
    (configured : channel.codec.isSome) (named : channel.channel = key.channel)
    (streams : ∀ thread other, thread ≠ key.thread → channel.streams.get? thread = some other →
      other.Valid ⟨key.channel, thread⟩) :
    (MemoryBackend.retireMemoryGeneration
      { backend with totalBytes := bytes, totalRecords := records } channel key.thread state
      reason).Valid := by
  refine valid.keep configured ?_ ?_
  · intro thread other stored
    rw [ChannelState.retire, ChannelState.recordTombstone, Dict.get?_erase] at stored
    split at stored
    · cases stored
    · next different =>
        have otherValid := streams thread other different stored
        rwa [← named] at otherValid
  · intro other deadline stored
    exact valid.scheduled_set stored

/-! ## Stored effects -/

/-- A stored effect with room leaves a valid backend whose view is the view with the effect
applied. -/
theorem MemoryBackend.Stores.applied (clock : ClockReadings) (valid : backend.Valid)
    (newer : ∀ state, (backend.channel transition.key.channel).streams.get?
        transition.key.thread = some state →
      ∀ retired, (backend.view.threads transition.key).retired = some retired →
        retired < state.generation)
    (stores : backend.Stores transition effect)
    (room : backend.requireTotalRoom ((backend.channel transition.key.channel).effectCapacity
      transition.key.thread effect) = .ok ()) :
    ∃ after, backend.applyMemoryEffect clock transition.key effect = (.ok (), after) ∧
      after.Valid ∧ after.view = backend.view.apply transition.key effect := by
  cases stores with
  | nothing absent configures stream runs message tombstone =>
    rw [ChannelState.effectCapacity_nothing _ configures stream runs message] at room
    refine ⟨backend, applyMemoryEffect_of_absent valid absent configures stream runs message
      tombstone room, valid, ?_⟩
    have untouched : (backend.view.threads transition.key).apply effect =
        backend.view.threads transition.key :=
      StreamThread.apply_of_silent stream runs message tombstone
    apply StreamStore.ext_fields
    · rw [StreamStore.apply, configures]
      rfl
    · simp only [StreamStore.apply, StreamStore.onThread, untouched, Function.update_eq_self]
  | written state base configures configured accepts tombstone =>
    have unconfigured : ∀ stored ∈ effect.channel,
        (backend.channel transition.key.channel).codec = none :=
      fun stored created => (configures stored created).1
    have streamValid : state.Valid transition.key := by
      rcases base with lookup | ⟨-, -, fresh⟩
      · exact valid.streams _ _ lookup
      · rw [fresh]
        exact StreamState.opened_valid _
    have codec : (backend.writtenChannel clock transition.key effect state).codec.isSome := by
      simpa [MemoryBackend.writtenChannel, ChannelState.withStream, ChannelState.configured] using configured
    have stored : backend.applyMemoryEffect clock transition.key effect = _ :=
      applyMemoryEffect_of_stream room (ChannelState.configure_eq unconfigured)
        (ChannelState.effectStream_eq base accepts)
    rw [tombstone] at stored
    exact ⟨_, stored, valid.written streamValid codec accepts,
      MemoryBackend.view_written valid streamValid base configures codec accepts tombstone⟩
  | retired state reason lookup closing retires =>
    have unconfigured : ∀ stored ∈ effect.channel,
        (backend.channel transition.key.channel).codec = none := by
      rw [retires]
      simp [retiredEffect]
    have base : (backend.channel transition.key.channel).effectStream transition.key.thread
        effect = some state := by
      simp [ChannelState.effectStream, lookup, retires, retiredEffect, releasedStream,
        StreamState.stored]
    have stored : backend.applyMemoryEffect clock transition.key effect = _ :=
      applyMemoryEffect_of_stream room (ChannelState.configure_eq unconfigured) base
    have tombstone : effect.tombstoneReason = some reason := by rw [retires]; rfl
    have same : (backend.writtenState clock transition.key effect state).generation =
        state.generation := by
      rw [retires]
      rfl
    have codec : (backend.writtenChannel clock transition.key effect state).codec =
        (backend.channel transition.key.channel).codec := by
      simp [MemoryBackend.writtenChannel, ChannelState.withStream, ChannelState.configured,
          retires, retiredEffect]
    have configured : (backend.writtenChannel clock transition.key effect state).codec.isSome :=
      codec ▸ valid.configured lookup
    have charged : backend.chargedBackend clock transition.key effect state =
        { backend with
          totalBytes := backend.totalBytes +
            ((backend.channel transition.key.channel).effectCapacity transition.key.thread
              effect).bytes
          totalRecords := backend.totalRecords +
            ((backend.channel transition.key.channel).effectCapacity transition.key.thread
              effect).records } := by
      rw [retires]
      rfl
    have named : (backend.writtenChannel clock transition.key effect state).channel =
        transition.key.channel := valid.writtenChannel_channel
    rw [tombstone] at stored
    simp only at stored
    refine ⟨_, stored, ?_, ?_⟩
    · rw [charged]
      refine valid.retire configured named ?_
      intro thread other different found
      rw [MemoryBackend.writtenChannel_streams, if_neg different] at found
      exact valid.streams ⟨transition.key.channel, thread⟩ other found
    · have shown := MemoryBackend.view_live.mpr ⟨state, lookup, rfl⟩
      have applied : (backend.view.threads transition.key).apply effect =
          (backend.view.threads transition.key).retire state.generation reason := by
        rw [retires]
        exact apply_retiredEffect shown
      have latest := newer state lookup
      have others : ∀ other : StreamKey, other.channel = transition.key.channel →
          other.thread ≠ transition.key.thread →
          (backend.writtenChannel clock transition.key effect state).view other =
            (backend.chargedBackend clock transition.key effect state).view.threads other :=
        fun other sameChannel different =>
          MemoryBackend.writtenChannel_view sameChannel different
      have unchanged : (backend.writtenChannel clock transition.key effect state).codec =
          ((backend.chargedBackend clock transition.key effect state).channel
            transition.key.channel).codec := codec
      rw [MemoryBackend.view_retire configured named unchanged others
        fun retired last => same ▸ latest retired last, same]
      apply StreamStore.ext_fields
      · rw [StreamStore.apply, retires]
        rfl
      · rw [StreamStore.apply, StreamStore.onThread]
        simp only [applied]
        rfl

end Tinkerfin.Messaging
