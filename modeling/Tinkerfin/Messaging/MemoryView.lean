import Tinkerfin.Messaging.Memory
import Tinkerfin.Messaging.StoreInvariant

/-!
# The in-memory backend as a stream store

`MemoryBackend.view` reads the representation of the backend as a stream store.  On a valid
representation every snapshot is the snapshot of the view, and writing an effect that its generation
accepts revises the view exactly by the replacements and additions of the effect.
-/

namespace Tinkerfin.Messaging

variable {state : StreamState} {key : StreamKey} {effect : MessagingStorageEffect}

/-! ## Views -/

/-- Evidence of a committed message with the signature of its stored content. -/
def StreamState.committed (state : StreamState) (thread : ThreadIdentity)
    (envelope : MessageEnvelope) : StoredMessageEvidence where
  envelope
  signature := (state.signatures.get? envelope.messageId).elim "" fun signed =>
    (messagingMessageSignature ⟨thread, signed.runId⟩ signed.codec signed.payload
      signed.checkpoint).toOption.getD ""
  checkpoint := (state.signatures.get? envelope.messageId).bind SignedContent.checkpoint

/-- The generation that a stream state stands for. -/
def StreamState.view (state : StreamState) (key : StreamKey) : Generation where
  stream := state.stored key
  runs runId := (state.runs.get? runId).map fun record => record.stored state.generation
  messages := state.messages.map (state.committed key.thread)

/-- The stream that a channel state stands for. -/
def ChannelState.view (channel : ChannelState) (key : StreamKey) : StreamThread where
  live := (channel.streams.get? key.thread).map fun state => state.view key
  retired := (channel.threadTombstones key.thread).keys.max?
  tombstones := (channel.threadTombstones key.thread).get?

/-- The store that a backend stands for. -/
def MemoryBackend.view (backend : MemoryBackend) : StreamStore where
  channels := backend.storedChannel
  threads key := (backend.channel key.channel).view key

/-- The stored generation of a stream. -/
def MemoryBackend.stream? (backend : MemoryBackend) (key : StreamKey) : Option StreamState :=
  (backend.channel key.channel).streams.get? key.thread

/-! ## The representation invariant -/

/-- The dictionaries of a generation agree with its messages and runs. -/
structure StreamState.Valid (state : StreamState) (key : StreamKey) : Prop where
  present : state.disposition = .active ∨ state.disposition.isSealed = true
  named : ∀ runId record, state.runs.get? runId = some record →
    record.identity = ⟨key.thread, runId⟩
  /-- An unfinished run never loses its owner. -/
  owned : ∀ runId record, state.runs.get? runId = some record →
    isFinalRunStatus record.status = false → record.ownerToken.isSome
  indexed : ∀ messageId, state.byMessageId.get? messageId =
    state.messages.find? fun message => decide (message.messageId = messageId)
  signed : ∀ messageId content, state.signatures.get? messageId = some content →
    ∃ message ∈ state.messages, message.messageId = messageId ∧
      content.runId = message.identity.runId ∧ content.codec = message.codec ∧
      content.payload = message.payload ∧
      ∃ signature, messagingMessageSignature ⟨key.thread, content.runId⟩ content.codec
        content.payload content.checkpoint = .ok signature
  evidenced : ∀ message ∈ state.messages, (state.signatures.get? message.messageId).isSome
  addressed : ∀ message ∈ state.messages,
    message.channel = key.channel ∧ message.identity.toThreadIdentity = key.thread
  numbered : state.messages.map MessageEnvelope.seq = List.range' 1 state.messages.length
  distinct : (state.messages.map MessageEnvelope.messageId).Nodup
  /-- Only an idle active generation has a terminal deadline. -/
  idle : ∀ deadline, state.expiresAtMonotonic = some deadline →
    state.disposition = .active ∧ state.activeIdentity = none

/-- Registered channels are configured under their names and every generation is valid. -/
structure MemoryBackend.Valid (backend : MemoryBackend) : Prop where
  registered : ∀ name channel, backend.channels.get? name = some channel →
    channel.channel = name ∧ channel.codec.isSome
  streams : ∀ key state, (backend.channel key.channel).streams.get? key.thread = some state →
    state.Valid key
  /-- Every scheduled thread belongs to a registered channel. -/
  scheduled : ∀ key deadline, backend.expirations.deadlines.get? key = some deadline →
    (backend.channels.get? key.channel).isSome

theorem MemoryBackend.opened_valid (limits : MessagingLimits) (policy : MessagingRetentionPolicy) :
    (MemoryBackend.opened limits policy).Valid :=
  ⟨nofun, nofun, nofun⟩

/-! ## Snapshots of the view -/

/-- The records of a store that a state query selects. -/
def StreamStore.stateSnapshot (store : StreamStore) (observedAt : Nat)
    (query : MessagingStateQuery) : MessagingStateSnapshot :=
  let thread := store.threads query.key
  let selected := thread.selected query.generation
  let tombstone := thread.tombstone query.generation
  { observedAt
    channel := store.channels query.channel
    stream := selected.map Generation.stream
    targetRun := selected.bind fun live => live.runs query.identity.runId
    activeRun := if query.includeActiveRun then
        selected.bind fun live => live.otherActiveRun query.identity.runId
      else
        none
    matchingMessage := selected.bind fun live => query.messageId.bind live.matching
    tombstoneGeneration := tombstone.map Prod.fst
    tombstoneReason := tombstone.map Prod.snd }

theorem StreamStore.stateSnapshot_query (store : StreamStore) (observedAt : Nat)
    (transition : MessagingTransition) :
    store.stateSnapshot observedAt transition.query = store.snapshot observedAt transition := rfl

theorem StreamState.matching_view (valid : state.Valid key) (messageId : String) :
    (state.view key).matching messageId =
      (state.byMessageId.get? messageId).map (state.committed key.thread) := by
  rw [valid.indexed, Generation.matching, StreamState.view, List.find?_map]
  rfl

/-- Evidence is found and signed for exactly the committed identifiers. -/
theorem StreamState.evidence_eq (valid : state.Valid key) (messageId : String) :
    state.evidence key.thread messageId = .ok ((state.view key).matching messageId) := by
  rw [matching_view valid]
  unfold StreamState.evidence
  cases stored : state.byMessageId.get? messageId with
  | none => rfl
  | some envelope =>
    have found := stored
    rw [valid.indexed] at found
    have same : envelope.messageId = messageId := by simpa using List.find?_some found
    obtain ⟨content, signedBy⟩ := Option.isSome_iff_exists.mp
      (valid.evidenced envelope (List.mem_of_find?_eq_some found))
    rw [same] at signedBy
    obtain ⟨-, -, -, -, -, -, signature, computed⟩ := valid.signed _ _ signedBy
    simp only [signedBy, computed, StreamState.committed, same, Option.map_some,
      Option.elim_some, Option.bind_some]
    rfl

theorem StreamState.requestedEvidence_eq (valid : state.Valid key) (messageId : Option String) :
    state.requestedEvidence key.thread messageId = .ok (messageId.bind (state.view key).matching) :=
  match messageId with
  | none => rfl
  | some messageId => StreamState.evidence_eq valid messageId

theorem StreamState.otherActiveRun_view (runId : String) :
    (state.view key).otherActiveRun runId =
      (state.otherActiveRun runId).map fun record => record.stored state.generation := by
  simp only [Generation.otherActiveRun, StreamState.otherActiveRun, StreamState.view,
    StreamState.stored]
  cases state.activeIdentity with
  | none => rfl
  | some active =>
    simp only [Option.map_some, Option.filter_some]
    split <;> simp_all

theorem ChannelState.tombstone_view (channel : ChannelState) (key : StreamKey)
    (generation : Option Nat) :
    (channel.view key).tombstone generation =
      channel.tombstoneReason key.thread generation :=
  rfl

theorem ChannelState.view_withStream (channel : ChannelState) (thread : ThreadIdentity)
    (state : StreamState) :
    (channel.withStream thread state).view key =
      if key.thread = thread then { channel.view key with live := some (state.view key) }
      else channel.view key := by
  simp only [ChannelState.view, ChannelState.withStream, Dict.get?_insert]
  split <;> rfl

theorem ChannelState.selected_view (channel : ChannelState) (key : StreamKey)
    (generation : Option Nat) :
    (channel.view key).selected generation =
      ((channel.streams.get? key.thread).filter fun state =>
        decide (∀ wanted ∈ generation, state.generation = wanted)).map fun state =>
          state.view key := by
  simp only [StreamThread.selected, ChannelState.view]
  cases channel.streams.get? key.thread with
  | none => rfl
  | some state =>
    simp only [Option.map_some, Option.filter_some, StreamState.view, StreamState.stored]
    split <;> rfl

/-- Every snapshot of a valid backend is the snapshot of its view. -/
theorem MemoryBackend.memoryStateSnapshot_eq {backend : MemoryBackend} (valid : backend.Valid)
    (observedAt : Nat) (query : MessagingStateQuery) :
    backend.memoryStateSnapshot observedAt query =
      .ok (backend.view.stateSnapshot observedAt query) := by
  have selection := (backend.channel query.channel).selected_view query.key query.generation
  have tombstone := (backend.channel query.channel).tombstone_view query.key query.generation
  have stored := valid.streams query.key
  simp only [MemoryBackend.memoryStateSnapshot, StreamStore.stateSnapshot, MemoryBackend.view]
  rw [show query.key.channel = query.channel from rfl] at stored ⊢
  rw [selection, tombstone]
  cases chosen : ((backend.channel query.channel).streams.get? query.key.thread).filter fun state =>
      decide (∀ wanted ∈ query.generation, state.generation = wanted) with
  | none => simp [pure, Except.pure]
  | some state =>
    have streamValid := stored state (Option.filter_eq_some_iff.mp chosen).1
    have evidence := StreamState.requestedEvidence_eq streamValid query.messageId
    simp only [evidence, bind, Except.bind, pure, Except.pure, Option.map_some,
      Option.bind_some, StreamState.otherActiveRun_view]
    rfl

/-! ## Fences -/

theorem foldl_max_le_iff {fences : List Nat} {start bound : Nat} :
    fences.foldl max start ≤ bound ↔ start ≤ bound ∧ ∀ fence ∈ fences, fence ≤ bound := by
  induction fences generalizing start with
  | nil => simp
  | cons fence fences ih =>
    rw [List.foldl_cons, ih, Nat.max_le, List.forall_mem_cons, and_assoc]

theorem StreamState.nextFence_le_iff {bound : Nat} :
    state.nextFence ≤ bound ↔ 1 ≤ bound ∧
      ∀ runId record, state.runs.get? runId = some record → record.fence < bound := by
  have bounded : (state.runs.entries.map fun entry => entry.2.fence).foldl max 0 ≤ bound - 1 ↔
      ∀ runId record, state.runs.get? runId = some record → record.fence ≤ bound - 1 := by
    simp only [foldl_max_le_iff, Nat.zero_le, true_and, List.forall_mem_map,
      Dict.get?_eq_some_iff, Prod.forall]
  rw [StreamState.nextFence]
  constructor
  · intro below
    refine ⟨by omega, fun runId record stored => ?_⟩
    have := bounded.mp (by omega) runId record stored
    omega
  · rintro ⟨positive, below⟩
    have := bounded.mpr fun runId record stored => Nat.le_pred_of_lt (below runId record stored)
    omega

theorem StreamState.fence_lt_nextFence {runId : String} {record : RunRecord}
    (stored : state.runs.get? runId = some record) : record.fence < state.nextFence :=
  (StreamState.nextFence_le_iff.mp le_rfl).2 runId record stored

end Tinkerfin.Messaging
