import Tinkerfin.Messaging.MemoryView

/-!
# Writing an effect to a generation

`StreamState.Accepts` lists what an effect must satisfy so that a generation can store it and read
it back.  A generation that accepts an effect stays valid, and its view is revised by the effect.
-/

namespace Tinkerfin.Messaging

open Function (update)

variable {state : StreamState} {key : StreamKey} {effect : MessagingStorageEffect}
  {run : StoredMessagingRun} {message : StoredMessageEvidence}

/-! ## Accepted effects -/

/-- The record that storing a run leaves behind. -/
def RunRecord.ofStored (run : StoredMessagingRun) : RunRecord :=
  (RunRecord.opened run.identity run.startSequence "" run.cancellable run.recoverable).assign run

/-- A run that is stored under its name and read back unchanged. -/
structure StreamState.AcceptsRun (state : StreamState) (key : StreamKey)
    (run : StoredMessagingRun) : Prop where
  addressed : run.identity.toThreadIdentity = key.thread
  readBack : (RunRecord.ofStored run).stored state.generation = run
  owned : isFinalRunStatus run.status = false → run.producerToken.isSome
  fenced : ∀ record, state.runs.get? run.identity.runId = some record →
    record.fence ≤ run.producerFence

/-- A message that is committed at the tail under a fresh identifier. -/
structure StreamState.AcceptsMessage (state : StreamState) (key : StreamKey)
    (message : StoredMessageEvidence) : Prop where
  fresh : state.byMessageId.get? message.envelope.messageId = none
  addressed : message.envelope.channel = key.channel ∧
    message.envelope.identity.toThreadIdentity = key.thread
  numbered : message.envelope.seq = state.messages.length + 1
  signed : messagingMessageSignature ⟨key.thread, message.envelope.identity.runId⟩
    message.envelope.codec message.envelope.payload message.checkpoint = .ok message.signature

/-- The stream record that an effect leaves behind. -/
def StreamState.recorded (state : StreamState) (key : StreamKey)
    (effect : MessagingStorageEffect) : StoredMessagingStream :=
  effect.stream.getD (state.stored key)

/-- An effect that a generation can store and read back. -/
structure StreamState.Accepts (state : StreamState) (key : StreamKey)
    (effect : MessagingStorageEffect) : Prop where
  single : effect.runs.length ≤ 1
  runs : ∀ run ∈ effect.runs, state.AcceptsRun key run
  message : ∀ message ∈ effect.message, state.AcceptsMessage key message
  addressed : (state.recorded key effect).channel = key.channel ∧
    (state.recorded key effect).threadId = key.thread.threadId
  generation : (state.recorded key effect).generation = state.generation
  present : (state.recorded key effect).disposition = .active ∨
    (state.recorded key effect).disposition.isSealed = true
  unexpired : (state.recorded key effect).retentionExpired = false
  tail : (state.recorded key effect).latestSequence =
    state.messages.length + effect.message.toList.length
  notified : (state.recorded key effect).messageSequence =
    state.messages.length + effect.message.toList.length
  fences : (state.recorded key effect).nextProducerFence =
    effect.runs.foldl (fun fence run => max fence (run.producerFence + 1)) state.nextFence
  idle : effect.retentionAction = .start →
    (state.recorded key effect).disposition = .active ∧
      (state.recorded key effect).activeRunId = none
  unretained : effect.retentionAction = .none →
    (state.recorded key effect).disposition = state.disposition ∧
      (state.recorded key effect).activeRunId = (state.stored key).activeRunId

/-- An effect that stores nothing is accepted by every valid generation. -/
theorem StreamState.accepts_of_silent (valid : state.Valid key) (stream : effect.stream = none)
    (runs : effect.runs = []) (message : effect.message = none)
    (retention : effect.retentionAction = .none) : state.Accepts key effect := by
  have recorded : state.recorded key effect = state.stored key := by
    rw [StreamState.recorded, stream, Option.getD_none]
  exact
    { single := by simp [runs]
      runs := by simp [runs]
      message := by simp [message]
      addressed := by
        rw [recorded]
        exact ⟨rfl, rfl⟩
      generation := by rw [recorded]; rfl
      present := by
        rw [recorded]
        exact valid.present
      unexpired := by rw [recorded]; rfl
      tail := by
        rw [recorded, message]
        rfl
      notified := by
        rw [recorded, message]
        rfl
      fences := by
        rw [recorded, runs]
        rfl
      idle := by simp [retention]
      unretained := by
        rw [recorded]
        exact fun _ => ⟨rfl, rfl⟩ }

/-! ## The written generation -/

/-- Run records after an effect. -/
def recordedRuns (runs : Dict String RunRecord) (written : List StoredMessagingRun) :
    Dict String RunRecord :=
  written.foldl (fun runs run => runs.insert run.identity.runId (RunRecord.ofStored run)) runs

/-- Signed content of a committed message. -/
def StoredMessageEvidence.content (message : StoredMessageEvidence) : SignedContent where
  runId := message.envelope.identity.runId
  codec := message.envelope.codec
  payload := message.envelope.payload
  checkpoint := message.checkpoint

theorem StreamState.describe_fields (state : StreamState) (thread : ThreadIdentity)
    (effect : MessagingStorageEffect) :
    (state.describe thread effect).generation = state.generation ∧
      (state.describe thread effect).messages = state.messages ∧
      (state.describe thread effect).byMessageId = state.byMessageId ∧
      (state.describe thread effect).signatures = state.signatures ∧
      (state.describe thread effect).runs = state.runs := by
  unfold StreamState.describe
  split <;> simp

theorem StreamState.writeRun_eq (valid : state.Valid key) (accepts : state.AcceptsRun key run)
    {described : StreamState} (same : described.runs = state.runs) :
    described.writeRun run =
      { described with
        runs := described.runs.insert run.identity.runId (RunRecord.ofStored run) } := by
  unfold StreamState.writeRun
  rw [same]
  cases stored : state.runs.get? run.identity.runId with
  | none => rfl
  | some record =>
    have named : record.identity = run.identity := by
      rw [valid.named _ _ stored, ← accepts.addressed]
    have assigned : record.assign run = RunRecord.ofStored run := by
      simp only [RunRecord.assign, RunRecord.ofStored, RunRecord.opened, named]
    simp only [Option.getD_some, assigned]

/-- Writing an accepted effect assigns the described fields and extends the dictionaries. -/
theorem StreamState.write_eq (valid : state.Valid key) (accepts : state.Accepts key effect) :
    state.write key.thread effect =
      { state.describe key.thread effect with
        runs := recordedRuns state.runs effect.runs
        messages := state.messages ++ effect.message.toList.map StoredMessageEvidence.envelope
        byMessageId := effect.message.elim state.byMessageId fun message =>
          state.byMessageId.insert message.envelope.messageId message.envelope
        signatures := effect.message.elim state.signatures fun message =>
          state.signatures.insert message.envelope.messageId message.content } := by
  obtain ⟨-, messages, byMessageId, signatures, runs⟩ :=
    state.describe_fields key.thread effect
  have recorded : effect.runs.foldl StreamState.writeRun (state.describe key.thread effect) =
      { state.describe key.thread effect with runs := recordedRuns state.runs effect.runs } := by
    rcases written : effect.runs with _ | ⟨run, _ | ⟨other, rest⟩⟩
    · simp only [List.foldl_nil, recordedRuns, ← runs]
    · have accepted := accepts.runs run (by simp [written])
      simp only [List.foldl_cons, List.foldl_nil, recordedRuns,
        StreamState.writeRun_eq valid accepted runs, runs]
    · have := accepts.single
      simp [written] at this
  unfold StreamState.write
  rw [recorded]
  cases committed : effect.message with
  | none =>
    simp only [Option.elim_none, Option.toList_none, List.map_nil, List.append_nil, ← messages,
      ← byMessageId, ← signatures]
  | some message =>
    have fresh := (accepts.message message committed).fresh
    simp only [Option.elim_some, Option.toList_some, List.map_cons, List.map_nil,
      StreamState.writeMessage, messages, byMessageId, signatures, Dict.contains, fresh,
      Option.isSome_none, Bool.false_eq_true, if_false]
    rfl

/-! ## The view of a written generation -/

theorem recordedRuns_nextFence (accepts : state.Accepts key effect) :
    StreamState.nextFence { state with runs := recordedRuns state.runs effect.runs } =
      effect.runs.foldl (fun fence run => max fence (run.producerFence + 1)) state.nextFence := by
  rcases written : effect.runs with _ | ⟨run, _ | ⟨other, rest⟩⟩
  · rfl
  · have accepted := accepts.runs run (by simp [written])
    apply eq_of_forall_ge_iff
    intro bound
    simp only [List.foldl_cons, List.foldl_nil, recordedRuns, Nat.max_le,
      StreamState.nextFence_le_iff, Dict.get?_insert]
    constructor
    · rintro ⟨positive, below⟩
      refine ⟨⟨positive, fun runId record stored => ?_⟩, ?_⟩
      · by_cases same : runId = run.identity.runId
        · have replaced := below runId (RunRecord.ofStored run) (by simp [same])
          exact lt_of_le_of_lt (accepted.fenced record (same ▸ stored)) replaced
        · exact below runId record (by simp [same, stored])
      · exact below run.identity.runId (RunRecord.ofStored run) (by simp)
    · rintro ⟨⟨positive, below⟩, fence⟩
      refine ⟨positive, fun runId record stored => ?_⟩
      split at stored
      · cases stored
        exact fence
      · exact below runId record stored
  · have := accepts.single
    simp [written] at this

/-- The stream record of a written generation is the one that the effect describes. -/
theorem StreamState.stored_write (valid : state.Valid key) (accepts : state.Accepts key effect) :
    (state.write key.thread effect).stored key = state.recorded key effect := by
  have fence := (recordedRuns_nextFence accepts).trans accepts.fences.symm
  have tail := accepts.tail
  have notified := accepts.notified
  obtain ⟨channel, threadId⟩ := accepts.addressed
  have generation := accepts.generation
  have unexpired := accepts.unexpired
  rw [StreamState.write_eq valid accepts]
  cases described : effect.stream with
  | none =>
    simp only [StreamState.recorded, described, Option.getD_none, StreamState.stored] at fence tail notified ⊢
    simp only [StreamState.describe, described, StreamState.stored, List.length_append,
      List.length_map, StoredMessagingStream.mk.injEq, true_and, and_true]
    exact ⟨tail.symm, fence, notified.symm⟩
  | some stream =>
    have recorded : state.recorded key effect = stream := by
      rw [StreamState.recorded, described, Option.getD_some]
    rw [recorded] at fence tail notified channel threadId generation unexpired ⊢
    obtain ⟨_, _, _, _, _, _, _, activeRunId, _, _, _⟩ := stream
    simp only [StreamState.describe, described, StreamState.stored, List.length_append,
      List.length_map, StoredMessagingStream.mk.injEq, true_and, and_true]
    refine ⟨channel.symm, threadId.symm, generation.symm, tail.symm, fence, ?_, unexpired.symm,
      notified.symm⟩
    cases activeRunId <;> rfl

theorem StreamState.runs_write (accepts : state.Accepts key effect) (runId : String) :
    ((recordedRuns state.runs effect.runs).get? runId).map
        (fun record => record.stored state.generation) =
      recordRuns (state.view key).runs effect.runs runId := by
  rcases written : effect.runs with _ | ⟨run, _ | ⟨other, rest⟩⟩
  · rfl
  · have accepted := accepts.runs run (by simp [written])
    simp only [recordedRuns, List.foldl_cons, List.foldl_nil, recordRuns_cons, recordRuns_nil,
      Dict.get?_insert]
    by_cases same : runId = run.identity.runId
    · simp [same, accepted.readBack]
    · simp [same, StreamState.view]
  · have := accepts.single
    simp [written] at this

/-- Committing a message keeps the evidence of the other messages and adds its own. -/
theorem StreamState.committed_write {described : StreamState} (valid : state.Valid key)
    (accepts : state.Accepts key effect)
    (signatures : described.signatures = effect.message.elim state.signatures fun message =>
      state.signatures.insert message.envelope.messageId message.content) :
    (state.messages ++ effect.message.toList.map StoredMessageEvidence.envelope).map
        (described.committed key.thread) =
      state.messages.map (state.committed key.thread) ++ effect.message.toList := by
  cases committed : effect.message with
  | none =>
    rw [committed, Option.elim_none] at signatures
    simp only [Option.toList_none, List.map_nil, List.append_nil]
    apply List.map_congr_left
    intro envelope _
    simp only [StreamState.committed, signatures]
  | some message =>
    have accepted := accepts.message message committed
    rw [committed, Option.elim_some] at signatures
    simp only [Option.toList_some, List.map_cons, List.map_nil, List.map_append]
    congr 1
    · apply List.map_congr_left
      intro envelope member
      have other : envelope.messageId ≠ message.envelope.messageId := by
        have fresh := accepted.fresh
        rw [valid.indexed, List.find?_eq_none] at fresh
        simpa using fresh envelope member
      simp only [StreamState.committed, signatures, Dict.get?_insert_of_ne _ _ other]
    · simp only [StreamState.committed, signatures, Dict.get?_insert_self, Option.elim_some,
        StoredMessageEvidence.content, accepted.signed, Option.bind_some]
      rfl

theorem StreamState.view_write (valid : state.Valid key) (accepts : state.Accepts key effect) :
    (state.write key.thread effect).view key = (state.view key).revise effect := by
  have generation := (state.describe_fields key.thread effect).1
  have stored := StreamState.stored_write valid accepts
  have committed := StreamState.committed_write valid accepts
    (congrArg StreamState.signatures (StreamState.write_eq valid accepts))
  rw [StreamState.view, Generation.revise, Generation.mk.injEq]
  refine ⟨stored, funext fun runId => ?_, ?_⟩
  · have runs := StreamState.runs_write accepts runId
    rw [StreamState.write_eq valid accepts]
    simpa only [generation] using runs
  · rw [StreamState.view, ← committed]
    rw [StreamState.write_eq valid accepts]

/-! ## Validity of a written generation -/

theorem StreamState.find_write (valid : state.Valid key) (accepts : state.Accepts key effect)
    (messageId : String) :
    (effect.message.elim state.byMessageId fun message =>
        state.byMessageId.insert message.envelope.messageId message.envelope).get? messageId =
      (state.messages ++ effect.message.toList.map StoredMessageEvidence.envelope).find?
        fun message => decide (message.messageId = messageId) := by
  cases committed : effect.message with
  | none => simp [valid.indexed]
  | some message =>
    have fresh := (accepts.message message committed).fresh
    rw [valid.indexed] at fresh
    simp only [Option.elim_some, Dict.get?_insert, Option.toList_some, List.map_cons,
      List.map_nil, List.find?_append, valid.indexed]
    by_cases same : messageId = message.envelope.messageId
    · simp [same, fresh]
    · simp [same, Ne.symm same]

theorem StreamState.retain_eq (state : StreamState) (policy : MessagingRetentionPolicy) (now : Nat)
    (action : MessagingRetentionAction) :
    ∃ deadline, state.retain policy now action = { state with expiresAtMonotonic := deadline } ∧
      (deadline.isSome → action = .start ∨ (action = .none ∧ deadline = state.expiresAtMonotonic)) := by
  cases action with
  | none => exact ⟨state.expiresAtMonotonic, rfl, fun _ => .inr ⟨rfl, rfl⟩⟩
  | clear => exact ⟨none, rfl, nofun⟩
  | start => exact ⟨_, rfl, fun _ => .inl rfl⟩

theorem recordedRuns_get? {runs : Dict String RunRecord} {written : List StoredMessagingRun}
    {runId : String} {record : RunRecord}
    (stored : (recordedRuns runs written).get? runId = some record) :
    (∃ run ∈ written, run.identity.runId = runId ∧ record = RunRecord.ofStored run) ∨
      runs.get? runId = some record := by
  induction written generalizing runs with
  | nil => exact .inr stored
  | cons run rest ih =>
    rcases ih stored with ⟨other, member, found⟩ | kept
    · exact .inl ⟨other, List.mem_cons_of_mem _ member, found⟩
    · rw [Dict.get?_insert] at kept
      split at kept
      · next same =>
          cases kept
          exact .inl ⟨run, List.mem_cons_self, same.symm, rfl⟩
      · exact .inr kept

/-- A generation that accepts an effect stays valid when the effect is written, charged and
retained. -/
theorem StreamState.Valid.write (valid : state.Valid key) (accepts : state.Accepts key effect)
    (capacity : EffectCapacity) (policy : MessagingRetentionPolicy) (now : Nat) :
    (((state.write key.thread effect).charge capacity).retain policy now
      effect.retentionAction).Valid key := by
  obtain ⟨deadline, retained, caused⟩ :=
    ((state.write key.thread effect).charge capacity).retain_eq policy now effect.retentionAction
  have written := StreamState.write_eq valid accepts
  have stored := StreamState.stored_write valid accepts
  have runs := congrArg StreamState.runs written
  have messages := congrArg StreamState.messages written
  have byMessageId := congrArg StreamState.byMessageId written
  have signatures := congrArg StreamState.signatures written
  have disposition : (state.write key.thread effect).disposition =
      (state.recorded key effect).disposition := congrArg StoredMessagingStream.disposition stored
  have owner : (state.write key.thread effect).activeIdentity.map RunIdentity.runId =
      (state.recorded key effect).activeRunId := congrArg StoredMessagingStream.activeRunId stored
  have expires : (state.write key.thread effect).expiresAtMonotonic = state.expiresAtMonotonic := by
    rw [written]
    cases described : effect.stream <;> simp [StreamState.describe, described]
  rw [retained]
  simp only at runs messages byMessageId signatures
  refine
    { present := ?_
      named := ?_
      owned := ?_
      indexed := ?_
      signed := ?_
      evidenced := ?_
      addressed := ?_
      numbered := ?_
      distinct := ?_
      idle := ?_ }
  all_goals
    simp only [StreamState.charge, runs, messages, byMessageId, signatures, disposition]
  · exact accepts.present
  · intro runId record found
    rcases recordedRuns_get? found with ⟨run, member, rfl, rfl⟩ | kept
    · rw [← (accepts.runs run member).addressed]
      rfl
    · exact valid.named _ _ kept
  · intro runId record found open_
    rcases recordedRuns_get? found with ⟨run, member, rfl, rfl⟩ | kept
    · exact (accepts.runs run member).owned open_
    · exact valid.owned _ _ kept open_
  · exact StreamState.find_write valid accepts
  · intro messageId content found
    have origin : state.signatures.get? messageId = some content ∨
        ∃ message ∈ effect.message, message.envelope.messageId = messageId ∧
          content = message.content := by
      cases committed : effect.message with
      | none => exact .inl (by simpa [committed] using found)
      | some message =>
        simp only [committed, Option.elim_some, Dict.get?_insert] at found
        split at found
        · next same => exact .inr ⟨message, rfl, same.symm, (Option.some.inj found).symm⟩
        · exact .inl found
    rcases origin with kept | ⟨message, committed, named, rfl⟩
    · obtain ⟨envelope, member, facts⟩ := valid.signed messageId content kept
      exact ⟨envelope, List.mem_append_left _ member, facts⟩
    · have added : message.envelope ∈
          effect.message.toList.map StoredMessageEvidence.envelope :=
        List.mem_map_of_mem (by simpa using committed)
      exact ⟨message.envelope, List.mem_append_right _ added, named, rfl, rfl, rfl, _,
        (accepts.message message committed).signed⟩
  · intro envelope member
    cases committed : effect.message with
    | none => simpa using valid.evidenced envelope (by simpa [committed] using member)
    | some message =>
      simp only [Option.elim_some, Dict.get?_insert]
      split
      · rfl
      · next other =>
          refine valid.evidenced envelope ?_
          rcases List.mem_append.mp member with old | added
          · exact old
          · obtain rfl : envelope = message.envelope := by simpa [committed] using added
            exact absurd rfl other
  · intro envelope member
    rcases List.mem_append.mp member with old | added
    · exact valid.addressed envelope old
    · obtain ⟨message, committed, rfl⟩ := List.mem_map.mp added
      exact (accepts.message message (by simpa using committed)).addressed
  · cases committed : effect.message with
    | none => simpa using valid.numbered
    | some message =>
      have numbered := (accepts.message message committed).numbered
      simp [valid.numbered, numbered, List.range'_concat, Nat.add_comm]
  · cases committed : effect.message with
    | none => simpa using valid.distinct
    | some message =>
      have fresh := (accepts.message message committed).fresh
      rw [valid.indexed, List.find?_eq_none] at fresh
      simp only [Option.toList_some, List.map_cons, List.map_nil, List.map_append,
        List.nodup_append]
      refine ⟨valid.distinct, by simp, ?_⟩
      intro old oldMember new newMember
      obtain ⟨envelope, stored, rfl⟩ := List.mem_map.mp oldMember
      obtain rfl : new = message.envelope.messageId := by simpa using newMember
      simpa using fresh envelope stored
  · rintro at_ rfl
    have idle : (state.recorded key effect).disposition = .active ∧
        (state.recorded key effect).activeRunId = none := by
      rcases caused rfl with started | ⟨unchanged, same⟩
      · exact accepts.idle started
      · obtain ⟨kept, owned⟩ := accepts.unretained unchanged
        obtain ⟨active, released⟩ := valid.idle at_ (by rw [← expires]; exact same.symm)
        exact ⟨kept.trans active, owned.trans (by simp [StreamState.stored, released])⟩
    exact ⟨idle.1, Option.map_eq_none_iff.mp (owner.trans idle.2)⟩

end Tinkerfin.Messaging
