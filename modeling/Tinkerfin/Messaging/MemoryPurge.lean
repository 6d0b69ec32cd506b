import Tinkerfin.Messaging.MemoryView

/-!
# Purging a sealed generation

A batch removes messages from the tail and then the oldest runs.  `MemoryBackend.purgeBatch_invariant`
turns what one removal preserves into what a batch of any size preserves.
-/

namespace Tinkerfin.Messaging

variable {backend : MemoryBackend} {batch : PurgeBatch} {state : StreamState} {key : StreamKey}
  {message : MessageEnvelope} {record : RunRecord} {runId : String}

/-! ## The induction over a batch -/

section Invariant

variable {Inv : PurgeBatch → Prop}
  (dropsMessage : ∀ batch message, Inv batch → batch.state.messages.getLast? = some message →
    Inv (batch.dropMessage message))
  (dropsRun : ∀ batch runId record, Inv batch → batch.state.runs.first? = some (runId, record) →
    Inv (batch.dropRun runId record))

include dropsMessage in
theorem PurgeBatch.dropMessages_invariant (room : Nat) (holds : Inv batch) :
    Inv (batch.dropMessages room) := by
  induction room generalizing batch with
  | zero => exact holds
  | succ room ih =>
    unfold PurgeBatch.dropMessages
    cases last : batch.state.messages.getLast? with
    | none => exact holds
    | some message => exact ih (dropsMessage batch message holds last)

include dropsRun in
theorem PurgeBatch.dropRuns_invariant (room : Nat) (holds : Inv batch) :
    Inv (batch.dropRuns room) := by
  induction room generalizing batch with
  | zero => exact holds
  | succ room ih =>
    unfold PurgeBatch.dropRuns
    cases oldest : batch.state.runs.first? with
    | none => exact holds
    | some entry => exact ih (dropsRun batch entry.1 entry.2 holds oldest)

include dropsMessage dropsRun in
theorem MemoryBackend.purgeBatch_invariant {maximum : Nat}
    (holds : Inv { backend, state, removed := 0 }) : Inv (backend.purgeBatch state maximum) :=
  PurgeBatch.dropRuns_invariant dropsRun _ (PurgeBatch.dropMessages_invariant dropsMessage _ holds)

end Invariant

/-! ## Validity along a batch -/

/-- The messages of a generation before its last one. -/
theorem StreamState.Valid.dropMessage (valid : state.Valid key)
    (last : state.messages.getLast? = some message) :
    StreamState.Valid
      { state with
        messages := state.messages.dropLast
        byMessageId := state.byMessageId.erase message.messageId
        signatures := state.signatures.erase message.messageId } key := by
  have split : state.messages.dropLast ++ [message] = state.messages :=
    List.dropLast_append_getLast? message last
  have distinct := valid.distinct
  rw [← split, List.map_append, List.nodup_append] at distinct
  obtain ⟨earlier, -, apart⟩ := distinct
  have other : ∀ envelope ∈ state.messages.dropLast, envelope.messageId ≠ message.messageId :=
    fun envelope member => apart _ (List.mem_map_of_mem member) _ (by simp)
  have kept : ∀ envelope ∈ state.messages.dropLast, envelope ∈ state.messages :=
    fun envelope member => split ▸ List.mem_append_left _ member
  exact
    { present := valid.present
      named := valid.named
      owned := valid.owned
      indexed := by
        intro messageId
        simp only [Dict.get?_erase, valid.indexed]
        rw [← split, List.find?_append, List.dropLast_concat]
        by_cases same : messageId = message.messageId
        · have unfound : (state.messages.dropLast.find? fun envelope =>
              decide (envelope.messageId = messageId)) = none := by
            rw [List.find?_eq_none]
            intro envelope member
            simpa [same] using other envelope member
          simp [same ▸ unfound, same]
        · simp [same, Ne.symm same]
      signed := by
        intro messageId content stored
        rw [Dict.get?_erase] at stored
        split at stored
        · cases stored
        · next different =>
            obtain ⟨envelope, member, named, facts⟩ := valid.signed messageId content stored
            refine ⟨envelope, ?_, named, facts⟩
            rw [← split, List.mem_append] at member
            refine member.resolve_right fun isLast => different ?_
            rw [← named, List.mem_singleton.mp isLast]
      evidenced := by
        intro envelope member
        rw [Dict.get?_erase_of_ne _ (other envelope member)]
        exact valid.evidenced envelope (kept envelope member)
      addressed := fun envelope member => valid.addressed envelope (kept envelope member)
      numbered := by
        rw [List.map_dropLast, valid.numbered, List.dropLast_eq_take, List.length_range',
          List.take_range'_of_length_ge (Nat.sub_le _ _), List.length_dropLast]
      distinct := earlier
      idle := valid.idle }

theorem StreamState.Valid.dropRun (valid : state.Valid key) (runId : String) :
    StreamState.Valid { state with runs := state.runs.erase runId } key where
  present := valid.present
  named other record stored := by
    rw [Dict.get?_erase] at stored
    split at stored
    · cases stored
    · exact valid.named other record stored
  owned other record stored := by
    rw [Dict.get?_erase] at stored
    split at stored
    · cases stored
    · exact valid.owned other record stored
  indexed := valid.indexed
  signed := valid.signed
  evidenced := valid.evidenced
  addressed := valid.addressed
  numbered := valid.numbered
  distinct := valid.distinct
  idle := valid.idle

/-- A batch in progress only removes records of its generation and releases them in the totals. -/
structure PurgeBatch.Purges (batch : PurgeBatch) (backend : MemoryBackend) (state : StreamState)
    (key : StreamKey) : Prop where
  valid : batch.state.Valid key
  generation : batch.state.generation = state.generation
  disposition : batch.state.disposition = state.disposition
  totals : batch.backend =
    { backend with
      totalBytes := batch.backend.totalBytes
      totalRecords := batch.backend.totalRecords }

theorem PurgeBatch.Purges.dropMessage (purges : batch.Purges backend state key)
    (last : batch.state.messages.getLast? = some message) :
    (batch.dropMessage message).Purges backend state key where
  valid :=
    have valid := purges.valid.dropMessage last
    ⟨valid.present, valid.named, valid.owned, valid.indexed, valid.signed, valid.evidenced,
      valid.addressed, valid.numbered, valid.distinct, valid.idle⟩
  generation := purges.generation
  disposition := purges.disposition
  totals := by
    have totals := purges.totals
    simp only [PurgeBatch.dropMessage, PurgeBatch.releaseMemoryRecord]
    rw [totals]

theorem PurgeBatch.Purges.dropRun (purges : batch.Purges backend state key) :
    (batch.dropRun runId record).Purges backend state key where
  valid :=
    have valid := purges.valid.dropRun runId
    ⟨valid.present, valid.named, valid.owned, valid.indexed, valid.signed, valid.evidenced,
      valid.addressed, valid.numbered, valid.distinct, valid.idle⟩
  generation := purges.generation
  disposition := purges.disposition
  totals := by
    have totals := purges.totals
    simp only [PurgeBatch.dropRun, PurgeBatch.releaseMemoryRecord]
    rw [totals]

theorem MemoryBackend.purgeBatch_purges (valid : state.Valid key) (maximum : Nat) :
    (backend.purgeBatch state maximum).Purges backend state key := by
  have start : PurgeBatch.Purges { backend, state, removed := 0 } backend state key :=
    ⟨valid, rfl, rfl, rfl⟩
  exact MemoryBackend.purgeBatch_invariant
    (fun _ _ purges last => PurgeBatch.Purges.dropMessage purges last)
    (fun _ _ _ purges _ => PurgeBatch.Purges.dropRun purges) start

/-- A purge either answers without a change or removes one batch of a sealed generation. -/
theorem MemoryBackend.purgeStreamGeneration_cases (backend : MemoryBackend)
    (purge : StreamGenerationPurge) :
    (backend.purgeStreamGeneration purge).2 = backend ∨
      ∃ state, (backend.channel purge.key.channel).streams.get? purge.key.thread = some state ∧
        state.disposition.isSealed = true ∧
        (backend.purgeStreamGeneration purge).2 =
          (backend.purgeBatch state purge.maximumRecords.toNat).backend.keep
            ((backend.channel purge.key.channel).withStream purge.key.thread
              (backend.purgeBatch state purge.maximumRecords.toNat).state) := by
  unfold MemoryBackend.purgeStreamGeneration
  split
  · exact .inl rfl
  · simp only
    split
    · exact .inl rfl
    · next state lookup =>
        split
        · exact .inl rfl
        · split
          · exact .inl rfl
          · next sealed =>
              exact .inr ⟨state, lookup, by simpa using sealed, rfl⟩

end Tinkerfin.Messaging
