import Mathlib.Algebra.BigOperators.Group.List.Basic
import Mathlib.Algebra.GroupWithZero.Nat
import Tinkerfin.Messaging.StoreRules

/-!
# Sequence numbers

While a generation is active its committed messages are numbered without gap from one to the tail,
carry distinct identifiers, and their payload sizes add up to the byte count of the stream record.
Only an append adds a message, under the next number and an identifier that no stored message has.
-/

namespace Tinkerfin.Messaging

variable {key : StreamKey} {live next : Generation} {store : StreamStore}
  {transition : MessagingTransition} {state : MessagingStateSnapshot}
  {effect : MessagingStorageEffect} {run changed : StoredMessagingRun}
  {stream other : StoredMessagingStream} {messages : List StoredMessageEvidence}

/-- The messages agree with the counters of a stream record. -/
structure Sequenced (stream : StoredMessagingStream) (messages : List StoredMessageEvidence) :
    Prop where
  numbered : messages.map (fun message => message.envelope.seq) =
    List.range' 1 stream.latestSequence
  notified : stream.messageSequence = stream.latestSequence
  distinct : (messages.map fun message => message.envelope.messageId).Nodup
  measured : (messages.map fun message => message.envelope.payload.length).sum =
    stream.payloadBytes

theorem Sequenced.length (sequenced : Sequenced stream messages) :
    messages.length = stream.latestSequence := by
  simpa using congrArg List.length sequenced.numbered

theorem Sequenced.congr (sequenced : Sequenced stream messages)
    (tail : other.latestSequence = stream.latestSequence)
    (notified : other.messageSequence = stream.messageSequence)
    (bytes : other.payloadBytes = stream.payloadBytes) : Sequenced other messages where
  numbered := tail ▸ sequenced.numbered
  notified := notified.trans (sequenced.notified.trans tail.symm)
  distinct := sequenced.distinct
  measured := bytes ▸ sequenced.measured

/-- Appending a message under the next number and a fresh identifier keeps the messages
sequenced. -/
theorem Sequenced.append {message : ValidMessage} {observedAt : Nat}
    (sequenced : Sequenced stream messages)
    (fresh : ∀ old ∈ messages, old.envelope.messageId ≠ message.messageId) :
    Sequenced (appendedStream stream message)
      (messages ++ [appendedEvidence transition observedAt stream message]) where
  numbered := by
    rw [List.map_append, sequenced.numbered]
    simp [appendedStream, appendedEvidence, List.range'_concat, Nat.add_comm]
  notified := rfl
  distinct := by
    rw [List.map_append, List.nodup_append]
    refine ⟨sequenced.distinct, by simp, ?_⟩
    intro old oldMem new newMem
    obtain ⟨stored, storedMem, rfl⟩ := List.mem_map.mp oldMem
    obtain rfl : new = message.messageId := by simpa [appendedEvidence] using newMem
    exact fresh stored storedMem
  measured := by
    simp [sequenced.measured, appendedStream, appendedEvidence]

theorem RunChange.message_cases (change : RunChange transition state stream run effect changed) :
    (effect.message = none ∧ ∀ messages, Sequenced stream messages →
        Sequenced (effect.stream.getD stream) messages) ∨
      ∃ message, effect.message =
          some (appendedEvidence transition state.observedAt stream message) ∧
        effect.stream = some (appendedStream stream message) := by
  cases change with
  | appended => exact .inr ⟨_, rfl, rfl⟩
  | lost | recovered | settling | finished | cancelled | reconciled =>
    exact .inl ⟨rfl, fun messages sequenced => sequenced.congr rfl rfl rfl⟩

theorem Generation.matching_eq_none {messageId : String} :
    live.matching messageId = none ↔
      ∀ message ∈ live.messages, message.envelope.messageId ≠ messageId := by
  simp [Generation.matching]

/-- The messages of a generation are sequenced while it is active. -/
def Generation.Sequenced (generation : Generation) : Prop :=
  generation.stream.disposition = .active →
    Messaging.Sequenced generation.stream generation.messages

theorem GenerationStep.sequenced (wellFormed : live.WellFormed key)
    (step : GenerationStep key live next) (sequenced : live.Sequenced) : next.Sequenced := by
  intro active
  cases step with
  | untouched => exact sequenced active
  | started addressed isActive =>
    rw [Generation.revise_preparedStart]
    exact (sequenced isActive).congr rfl rfl rfl
  | rewritten addressed isActive stored change fresh =>
    rw [change.revise_eq wellFormed stored]
    rcases change.message_cases with ⟨uncommitted, kept⟩ | ⟨message, committed, counted⟩
    · simpa [uncommitted] using kept _ (sequenced isActive)
    · rw [committed, counted]
      exact (sequenced isActive).append (Generation.matching_eq_none.mp (fresh _ committed))
  | sealed =>
    rw [Generation.revise_sealedEffect] at active
    exact absurd active (MessagingCleanupReason.sealing_ne_active _)
  | environment step =>
    cases step with
    | leaseExpired | unexpired => exact sequenced active
    | retentionObserved => exact (sequenced active).congr rfl rfl rfl
    | purged =>
      rw [Generation.purge_stream] at active
      unfold Generation.purge
      simp only [active, MessagingStreamDisposition.isSealed, Bool.false_eq_true, and_false,
        if_false]
      exact sequenced active

/-- Every active generation of a store is sequenced. -/
def StreamStore.Sequenced (store : StreamStore) : Prop :=
  ∀ key live, (store.threads key).live = some live → live.Sequenced

theorem sequenced_next (valid : store.Valid) (sequenced : store.Sequenced)
    (event : StreamEvent) : (store.next event).Sequenced := by
  intro key next found
  rcases (next_eventStep valid event key).generationStep (valid key) found with
    ⟨live, lookup, -, step⟩ | ⟨-, transition, channel, cursor, -, rfl⟩
  · exact step.sequenced ((valid key).wellFormed live lookup) (sequenced key live lookup)
  · exact fun _ => ⟨rfl, rfl, .nil, rfl⟩

theorem StreamStore.sequenced_after (events : List StreamEvent) :
    (StreamStore.empty.after events).Sequenced := by
  induction events using List.reverseRecOn with
  | nil => exact fun _ _ lookup => nomatch lookup
  | append_singleton events event ih =>
    rw [StreamStore.after, Machine.run_append, Machine.run_cons, Machine.run_nil]
    exact sequenced_next (StreamStore.empty_valid.after_events events) ih event

end Tinkerfin.Messaging
