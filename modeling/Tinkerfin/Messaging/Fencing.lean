import Tinkerfin.Messaging.StoreRules

/-!
# Fencing of stale producers

A producer transition is admitted only under the reference of the live owner; otherwise it changes
nothing.  Each committed message is recorded with the reference it was committed under, and along
the record the sequences of a generation increase while the fences of its owners never decrease.
-/

namespace Tinkerfin.Messaging

open Function (update)

variable {key : StreamKey} {thread after : StreamThread} {live next : Generation}
  {run changed : StoredMessagingRun} {runId : String} {store : StreamStore} {number : Nat}
  {transition : MessagingTransition} {observedAt : Nat} {state : MessagingStateSnapshot}
  {effect : MessagingStorageEffect}

/-! ## The live owner -/

/-- Transitions that only the owner of a run may take. -/
def MessagingTransitionKind.isProducer : MessagingTransitionKind → Bool
  | .appendMessage | .beginSettlement | .renewProducerOwnership | .finishRun => true
  | .prepareRun | .publishMessage | .requestCancellation | .reconcileProducerOwnership
  | .beginGenerationCleanup | .finishGenerationCleanup => false

/-- Whether a reference carries the generation, token and fence stored for a live run. -/
def StreamStore.LiveOwner (store : StreamStore) (key : StreamKey) (runId : String)
    (reference : MessagingRunReference) : Prop :=
  ∃ live run, (store.threads key).live = some live ∧ live.runs runId = some run ∧
    run.generation = reference.generation ∧ run.producerToken = reference.producerToken ∧
    some run.producerFence = reference.producerFence ∧ run.producerLeaseActive = true ∧
    isFinalRunStatus run.status = false

theorem Owned.liveOwner {stream : StoredMessagingStream} {reference : MessagingRunReference}
    (owned : Owned transition (store.snapshot observedAt transition) run stream reference) :
    store.LiveOwner transition.key transition.identity.runId reference := by
  obtain ⟨live, lookup, -, stored⟩ := snapshot_live owned.found owned.target
  obtain ⟨generation, -, token, fence⟩ := referenceMatchesRun_iff.mp owned.matched
  exact ⟨live, run, lookup, stored, generation, token, fence, owned.leased, owned.unfinished⟩

/-- Appends, settlements and finishes are only resolved for an owner. -/
theorem Resolved.owned (resolved : Resolved transition state effect)
    (producer : transition.kind.isProducer = true)
    (other : transition.kind ≠ .renewProducerOwnership) :
    ∃ run stream reference, Owned transition state run stream reference := by
  have appending : ∀ {run : StoredMessagingRun} {stream : StoredMessagingStream},
      (transition.kind = .appendMessage ∨ transition.kind = .publishMessage) →
      appendTarget transition state = .ok (run, stream) →
      ∃ run stream reference, Owned transition state run stream reference := by
    intro run stream kind target
    rcases kind with kind | kind
    · obtain ⟨-, -, -, owned, -⟩ := appendTarget_eq_ok target
      obtain ⟨reference, owned⟩ := owned (by simp [kind])
      exact ⟨run, stream, reference, owned⟩
    · simp [kind, MessagingTransitionKind.isProducer] at producer
  cases resolved with
  | silent kind =>
    cases named : transition.kind <;>
      simp_all [MessagingTransitionKind.isProducer, MessagingTransitionKind.mayBeSilent]
  | attached prepared | lost prepared | recovered prepared | started prepared =>
    simp [prepared.kind, MessagingTransitionKind.isProducer] at producer
  | retried kind target | appended kind target => exact appending kind target
  | settling _ owned | finished _ owned => exact ⟨_, _, _, owned⟩
  | cancelled kind | reconciled kind | sealed kind | retired kind =>
    simp [kind, MessagingTransitionKind.isProducer] at producer

/-- A renewal stores nothing, and it confirms only the live owner. -/
theorem resolveRenew_eq_ok (kind : transition.kind = .renewProducerOwnership)
    (resolved : resolveMessagingTransition transition state = .ok effect) :
    effect.Silent ∧
      (effect.result.producerOwnershipConfirmed = some false ∨
        ∃ reference run, transition.runReference = some reference ∧ state.targetRun = some run ∧
          referenceMatchesRun reference run = true ∧ run.producerLeaseActive = true ∧
          isFinalRunStatus run.status = false) := by
  simp only [resolveMessagingTransition, kind, resolveRenewProducerOwnership,
    bind_eq_ok] at resolved
  obtain ⟨_, -, reference, carried, resolved⟩ := resolved
  have carried := (requiredReference_eq_ok.mp carried).1
  cases target : state.targetRun with
  | none =>
    simp only [target, bind_eq_ok, pure, Except.pure, Except.ok.injEq] at resolved
    obtain ⟨_, -, rfl⟩ := resolved
    exact ⟨statusEffect_silent rfl (by simp), .inl rfl⟩
  | some run =>
    simp only [target, pure, Except.pure, Except.ok.injEq] at resolved
    subst resolved
    split
    · exact ⟨statusEffect_silent rfl (by simp), .inl rfl⟩
    · next matched =>
        split
        · exact ⟨statusEffect_silent rfl (by simp), .inl rfl⟩
        · next owner =>
            exact ⟨⟨rfl, rfl, rfl, rfl, rfl, rfl, rfl, by simp⟩,
              .inr ⟨reference, run, carried, rfl, by simpa using matched,
                by simpa using (not_or.mp owner).1, by simpa using (not_or.mp owner).2⟩⟩

/-- A producer transition under a stale reference is rejected or denied and changes nothing. -/
theorem stale_reference_rejected {ledger : LedgerTransition} {reference : MessagingRunReference}
    (producer : ledger.kind.isProducer = true) (carried : ledger.runReference = some reference)
    (stale : ¬store.LiveOwner ledger.key ledger.identity.runId reference) :
    store.next (.commit observedAt ledger) = store ∧
      ∀ result after, store.commit observedAt ledger.toMessagingTransition = .ok (result, after) →
        ledger.kind = .renewProducerOwnership ∧ after = store ∧
          result.producerOwnershipConfirmed = some false := by
  have denied : ∀ result after,
      store.commit observedAt ledger.toMessagingTransition = .ok (result, after) →
      ledger.kind = .renewProducerOwnership ∧ after = store ∧
        result.producerOwnershipConfirmed = some false := by
    intro result after committed
    obtain ⟨effect, resolved, rfl, rfl⟩ := StreamStore.commit_eq_ok.mp committed
    by_cases renewal : ledger.kind = .renewProducerOwnership
    · obtain ⟨silent, denied | ⟨other, run, again, target, matched, leased, unfinished⟩⟩ :=
        resolveRenew_eq_ok renewal resolved
      · exact ⟨renewal, StreamStore.apply_of_silent silent, denied⟩
      · obtain rfl := Option.some.inj (carried.symm.trans again)
        obtain ⟨live, selected, stored⟩ := snapshot_targetRun_eq_some.mp target
        have lookup := (StreamThread.selected_eq_some.mp selected).1
        obtain ⟨generation, -, token, fence⟩ := referenceMatchesRun_iff.mp matched
        exact absurd ⟨live, run, lookup, stored, generation, token, fence, leased, unfinished⟩ stale
    · obtain ⟨run, stream, other, owned⟩ := (resolve_cases resolved).owned producer renewal
      obtain rfl := Option.some.inj (carried.symm.trans owned.carried)
      exact absurd owned.liveOwner stale
  refine ⟨?_, denied⟩
  rw [StreamStore.next]
  cases accepted : store.accepted observedAt ledger.toMessagingTransition with
  | none => rfl
  | some outcome => exact (denied _ _ (StreamStore.accepted_eq_some.mp accepted)).2.1

/-! ## Committed messages -/

/-- One committed message with the reference it was committed under. -/
structure CommitRecord where
  key : StreamKey
  reference : MessagingRunReference
  /-- Whether the message is an external publication instead of a source message. -/
  isExternal : Bool
  message : StoredMessageEvidence
  deriving DecidableEq, Repr

/-- The message that one transition commits. -/
def StreamStore.commitRecord (store : StreamStore) (observedAt : Nat)
    (transition : MessagingTransition) : Option CommitRecord := do
  let effect ← (resolveMessagingTransition transition
    (store.snapshot observedAt transition)).toOption
  let message ← effect.message
  let reference ← transition.runReference
  return {
    key := transition.key
    reference
    isExternal := decide (transition.kind = .publishMessage)
    message }

/-- The message that one event commits. -/
def StreamStore.commitRecords (store : StreamStore) : StreamEvent → List CommitRecord
  | .commit observedAt ledger =>
    (store.commitRecord observedAt ledger.toMessagingTransition).toList
  | .environment .. => []

/-- Every committed message along a run, oldest first. -/
abbrev StreamStore.commitLog (store : StreamStore) (events : List StreamEvent) :
    List CommitRecord :=
  Machine.log StreamStore.next StreamStore.commitRecords store events

/-- What holds of a message at the moment it is committed. -/
structure CommitRecord.Commits (record : CommitRecord) (store after : StreamStore) (live next : Generation)
    (run changed : StoredMessagingRun) : Prop where
  lookup : (store.threads record.key).live = some live
  found : (after.threads record.key).live = some next
  generation : live.stream.generation = record.reference.generation
  sameGeneration : next.stream.generation = record.reference.generation
  stored : live.runs record.message.envelope.identity.runId = some run
  unfinished : isFinalRunStatus run.status = false
  sequence : record.message.envelope.seq = live.stream.latestSequence + 1
  tail : next.stream.latestSequence = live.stream.latestSequence + 1
  messages : next.messages = live.messages ++ [record.message]
  owner : record.isExternal = false → store.LiveOwner record.key
    record.message.envelope.identity.runId record.reference ∧
    record.reference.producerFence = some run.producerFence
  published : record.isExternal = true → Publishable run ∧
    changed.producerToken = run.producerToken ∧ changed.checkpoint = run.checkpoint
  runs : next.runs = update live.runs record.message.envelope.identity.runId (some changed)
  fence : changed.producerFence = run.producerFence
  fences : next.stream.nextProducerFence = live.stream.nextProducerFence
  below : run.producerFence < live.stream.nextProducerFence

theorem mem_commitRecords {ledger : LedgerTransition} {record : CommitRecord} :
    record ∈ store.commitRecords (.commit observedAt ledger) ↔
      ∃ effect message reference,
        resolveMessagingTransition ledger.toMessagingTransition
          (store.snapshot observedAt ledger.toMessagingTransition) = .ok effect ∧
        effect.message = some message ∧ ledger.runReference = some reference ∧
        record = ⟨ledger.key, reference, decide (ledger.kind = .publishMessage), message⟩ := by
  rw [StreamStore.commitRecords, Option.mem_toList, StreamStore.commitRecord]
  simp only [Option.bind_eq_bind, Option.bind_eq_some_iff, Option.pure_def, Option.some.injEq]
  constructor
  · rintro ⟨effect, resolved, message, committed, reference, carried, rfl⟩
    refine ⟨effect, message, reference, ?_, committed, carried, rfl⟩
    cases outcome : resolveMessagingTransition ledger.toMessagingTransition
      (store.snapshot observedAt ledger.toMessagingTransition) with
    | error => simp [outcome, Except.toOption] at resolved
    | ok other =>
      rw [outcome] at resolved
      exact congrArg Except.ok (Option.some.inj resolved)
  · rintro ⟨effect, message, reference, resolved, committed, carried, rfl⟩
    exact ⟨effect, by rw [resolved]; rfl, message, committed, reference, carried, rfl⟩

theorem commitRecords_commits (valid : store.Valid) {event : StreamEvent} {record : CommitRecord}
    (committed : record ∈ store.commitRecords event) :
    ∃ live next run changed, record.Commits store (store.next event) live next run changed := by
  cases event with
  | commit observedAt ledger =>
    obtain ⟨effect, message, reference, resolved, written, carried, rfl⟩ :=
      mem_commitRecords.mp committed
    have step := resolved_threadStep (valid _) ledger.unselected (resolve_cases resolved)
    have after : (store.next (.commit observedAt ledger)).threads ledger.key =
        (store.threads ledger.key).apply effect := by
      rw [next_of_resolved resolved]
      simp [StreamStore.apply]
    rw [← after] at step
    generalize found : (store.next (.commit observedAt ledger)).threads ledger.key = thread at step
    cases step with
    | quiet _ uncommitted => cases uncommitted.symm.trans written
    | started | sealed | retired => cases written
    | @rewritten live run changed _ lookup active stored change =>
      have wellFormed := (valid _).wellFormed _ lookup
      have rewrites := change.rewrites wellFormed stored
      have revised := change.revise_eq wellFormed stored
      cases change with
      | @appended validMessage kind target valid fresh publishable room =>
        obtain rfl := Option.some.inj written
        have unfinished := (RunChange.appended kind target valid fresh publishable
          room).unfinished
        obtain ⟨targetRun, seen, -, owned, external⟩ := appendTarget_eq_ok target
        have generation : live.stream.generation = reference.generation := by
          rcases kind with appending | publishing
          · obtain ⟨other, owned⟩ := owned (by simp [appending])
            obtain rfl := Option.some.inj (carried.symm.trans owned.carried)
            exact owned.generation
          · have selected := (external publishing).1
            rw [carried] at selected
            exact (Option.some.inj selected).symm
        refine ⟨live, live.revise (appendedEffect ledger.toMessagingTransition observedAt run
            live.stream validMessage), run,
          appendedRun ledger.toMessagingTransition live.stream run,
          { lookup
            found := by rw [found]; rfl
            generation
            sameGeneration := generation
            stored
            unfinished
            sequence := rfl
            tail := rfl
            messages := rfl
            owner := ?_
            published := ?_
            runs := congrArg Generation.runs revised
            fence := rfl
            fences := rfl
            below := wellFormed.fenced _ _ stored }⟩
        · intro source
          have appending : ledger.kind ≠ .publishMessage := by simpa using source
          obtain ⟨other, owned⟩ := owned appending
          obtain rfl := Option.some.inj (carried.symm.trans owned.carried)
          exact ⟨owned.liveOwner, (referenceMatchesRun_iff.mp owned.matched).2.2.2.symm⟩
        · intro publishing
          have publishing : ledger.kind = .publishMessage := by simpa using publishing
          refine ⟨publishable publishing, rfl, ?_⟩
          simp [appendedRun, (external publishing).2.1]
      | lost | recovered | settling | finished | cancelled | reconciled => cases written
  | environment => cases committed

/-! ## Order of the committed messages -/

/-- A committed message lies below the tail, its fence below the next owner's. -/
def CommitRecord.Passed (record : CommitRecord) (live : Generation) : Prop :=
  record.message.envelope.seq ≤ live.stream.latestSequence ∧
    (record.isExternal = false → ∀ fence ∈ record.reference.producerFence,
      fence < live.stream.nextProducerFence ∧ ∀ runId run, live.runs runId = some run →
        isFinalRunStatus run.status = false → fence ≤ run.producerFence)

theorem RunStep.fence_cases (step : RunStep key live runId run changed)
    (unfinished : isFinalRunStatus changed.status = false) :
    isFinalRunStatus run.status = false ∧
      (changed.producerFence = run.producerFence ∨
        changed.producerFence = live.stream.nextProducerFence) := by
  cases step with
  | kept | leaseExpired => exact ⟨unfinished, .inl rfl⟩
  | fenced => cases unfinished
  | rewritten _ _ change =>
    refine ⟨change.unfinished, ?_⟩
    cases change with
    | recovered => exact .inr rfl
    | lost | appended | settling | finished | cancelled | reconciled => exact .inl rfl

theorem CommitRecord.Passed.step {record : CommitRecord} (passed : record.Passed live)
    (wellFormed : live.WellFormed key) (step : GenerationStep key live next) :
    record.Passed next := by
  have grow := step.countersGrow wellFormed
  refine ⟨le_trans passed.1 grow.tail, fun source fence carried => ?_⟩
  obtain ⟨below, owners⟩ := passed.2 source fence carried
  refine ⟨lt_of_lt_of_le below grow.fences, fun runId changed found unfinished => ?_⟩
  rcases step.run_cases wellFormed found with
    ⟨-, -, transition, -, -, rfl⟩ | ⟨run, stored, runStep⟩
  · exact le_of_lt below
  · obtain ⟨before, same | fresh⟩ := runStep.fence_cases unfinished
    · exact same ▸ owners runId run stored before
    · exact fresh ▸ le_of_lt below

/-- The stream of a record reached its generation and passed the record. -/
def CommitRecord.PassedIn (record : CommitRecord) (store : StreamStore) : Prop :=
  (store.threads record.key).Reached record.reference.generation ∧
    (store.threads record.key).Holds record.reference.generation record.Passed

theorem CommitRecord.PassedIn.step {record : CommitRecord} (valid : store.Valid)
    (passed : record.PassedIn store) (event : StreamEvent) : record.PassedIn (store.next event) :=
  generation_step_rule (fun _ _ wellFormed _ step passed => passed.step wellFormed step)
    valid passed.1 passed.2 event

theorem commitRecords_passed (valid : store.Valid) {event : StreamEvent} {record : CommitRecord}
    (committed : record ∈ store.commitRecords event) : record.PassedIn (store.next event) := by
  obtain ⟨live, next, run, changed, commits⟩ := commitRecords_commits valid committed
  have wellFormed := (valid record.key).wellFormed _ commits.lookup
  refine ⟨.inr ⟨next, commits.found, le_of_eq commits.sameGeneration.symm⟩, ?_⟩
  intro found again _
  obtain rfl := Option.some.inj (commits.found.symm.trans again)
  refine ⟨le_of_eq (commits.sequence.trans commits.tail.symm), fun source fence carried => ?_⟩
  obtain rfl : run.producerFence = fence :=
    Option.some.inj ((commits.owner source).2.symm.trans carried)
  refine ⟨commits.fences ▸ commits.below, fun other stored found unfinished => ?_⟩
  rw [commits.runs] at found
  by_cases same : other = record.message.envelope.identity.runId
  · obtain rfl : changed = stored := by simpa [same] using found
    exact le_of_eq commits.fence.symm
  · have before : live.runs other = some stored := by simpa [same] using found
    have active := wellFormed.unfinishedActive _ _ before unfinished
    have owner := wellFormed.unfinishedActive _ _ commits.stored commits.unfinished
    exact absurd (Option.some.inj (active.symm.trans owner)) same

/-- Of two messages of one generation, the earlier one has the smaller sequence and no newer
fence. -/
def CommitRecord.Precedes (older newer : CommitRecord) : Prop :=
  older.key = newer.key → older.reference.generation = newer.reference.generation →
    older.message.envelope.seq < newer.message.envelope.seq ∧
      (older.isExternal = false → newer.isExternal = false →
        ∀ olderFence ∈ older.reference.producerFence,
          ∀ newerFence ∈ newer.reference.producerFence, olderFence ≤ newerFence)

theorem commitRecords_precede (valid : store.Valid) {event : StreamEvent}
    {older newer : CommitRecord} (passed : older.PassedIn store)
    (committed : newer ∈ store.commitRecords event) : older.Precedes newer := by
  intro sameKey sameGeneration
  obtain ⟨live, next, run, changed, commits⟩ := commitRecords_commits valid committed
  obtain ⟨tail, fences⟩ := passed.2 live (sameKey ▸ commits.lookup)
    (commits.generation.trans sameGeneration.symm)
  refine ⟨commits.sequence ▸ Nat.lt_succ_of_le tail, ?_⟩
  intro olderSource newerSource olderFence olderCarried newerFence newerCarried
  obtain rfl : run.producerFence = newerFence :=
    Option.some.inj ((commits.owner newerSource).2.symm.trans newerCarried)
  exact (fences olderSource olderFence olderCarried).2 _ run commits.stored commits.unfinished

theorem commitRecords_pairwise (store : StreamStore) (event : StreamEvent) :
    (store.commitRecords event).Pairwise CommitRecord.Precedes := by
  cases event with
  | commit observedAt ledger =>
    rw [StreamStore.commitRecords]
    cases store.commitRecord observedAt ledger.toMessagingTransition <;> simp
  | environment => exact .nil

private theorem passed_reported (store : StreamStore) (event : StreamEvent) (record : CommitRecord)
    (valid : store.Valid) (committed : record ∈ store.commitRecords event) :
    record.PassedIn (store.next event) := commitRecords_passed valid committed

private theorem passed_kept (store : StreamStore) (event : StreamEvent) (record : CommitRecord)
    (valid : store.Valid) (passed : record.PassedIn store) : record.PassedIn (store.next event) :=
  passed.step valid event

theorem commitLog_pairwise (events : List StreamEvent) :
    (StreamStore.empty.commitLog events).Pairwise CommitRecord.Precedes :=
  Machine.log_pairwise (fun _ event valid => valid.next event) passed_reported passed_kept
    (fun store event _ => commitRecords_pairwise store event)
    (fun _ _ _ _ valid passed committed => commitRecords_precede valid passed committed)
    StreamStore.empty_valid

private theorem pairwise_related {α : Type} {R : α → α → Prop} {entries : List α}
    (pairwise : entries.Pairwise R) {first second : α} (firstMem : first ∈ entries)
    (secondMem : second ∈ entries) : first = second ∨ R first second ∨ R second first := by
  induction pairwise with
  | nil => cases firstMem
  | cons related _ ih =>
    rcases List.mem_cons.mp firstMem with rfl | firstTail <;>
      rcases List.mem_cons.mp secondMem with rfl | secondTail
    · exact .inl rfl
    · exact .inr (.inl (related _ secondTail))
    · exact .inr (.inr (related _ firstTail))
    · exact ih firstTail secondTail

theorem commitLog_fences (events : List StreamEvent) {older newer : CommitRecord}
    (olderMem : older ∈ StreamStore.empty.commitLog events)
    (newerMem : newer ∈ StreamStore.empty.commitLog events) (sameKey : older.key = newer.key)
    (sameGeneration : older.reference.generation = newer.reference.generation)
    (olderSource : older.isExternal = false) (newerSource : newer.isExternal = false)
    (before : older.message.envelope.seq < newer.message.envelope.seq) :
    ∀ olderFence ∈ older.reference.producerFence,
      ∀ newerFence ∈ newer.reference.producerFence, olderFence ≤ newerFence := by
  rcases pairwise_related (commitLog_pairwise events) olderMem newerMem with rfl | ordered | ordered
  · exact absurd before (lt_irrefl _)
  · exact (ordered sameKey sameGeneration).2 olderSource newerSource
  · exact absurd before (lt_asymm (ordered sameKey.symm sameGeneration.symm).1)

/-! ## Every stored message was committed -/

/-- A message stored after an event was stored before it in the same generation, or committed by
it. -/
theorem next_messages (valid : store.Valid) {event : StreamEvent} {message : StoredMessageEvidence}
    (found : ((store.next event).threads key).live = some next) (stored : message ∈ next.messages) :
    (∃ live, (store.threads key).live = some live ∧
        live.stream.generation = next.stream.generation ∧ message ∈ live.messages) ∨
      ∃ record ∈ store.commitRecords event, record.key = key ∧
        record.reference.generation = next.stream.generation ∧ record.message = message := by
  cases event with
  | environment changedKey event =>
    by_cases same : key = changedKey
    · subst same
      rw [StreamStore.next, StreamStore.onThread_threads_self] at found
      obtain ⟨live, lookup, generation, step⟩ := environment_step found
      refine .inl ⟨live, lookup, generation, ?_⟩
      cases step with
      | leaseExpired | retentionObserved | unexpired => exact stored
      | purged =>
        unfold Generation.purge at stored
        split at stored
        · exact List.mem_of_mem_filter stored
        · exact stored
    · rw [StreamStore.next, StreamStore.onThread_threads_of_ne same] at found
      exact .inl ⟨next, found, rfl, stored⟩
  | commit observedAt ledger =>
    cases outcome : resolveMessagingTransition ledger.toMessagingTransition
      (store.snapshot observedAt ledger.toMessagingTransition) with
    | error =>
      have rejected : store.accepted observedAt ledger.toMessagingTransition = none := by
        rw [StreamStore.accepted, StreamStore.commit, outcome]
        rfl
      rw [StreamStore.next, rejected] at found
      exact .inl ⟨next, found, rfl, stored⟩
    | ok effect =>
      rw [next_of_resolved outcome] at found
      by_cases same : key = ledger.key
      · subst same
        have step := resolved_threadStep (valid _) ledger.unselected (resolve_cases outcome)
        rw [show (store.apply ledger.key effect).threads ledger.key =
            (store.threads ledger.key).apply effect by simp [StreamStore.apply]] at found
        generalize applied : (store.threads ledger.key).apply effect = thread at step found
        cases step with
        | quiet => exact .inl ⟨next, found, rfl, stored⟩
        | started kind opens =>
          obtain rfl := Option.some.inj found
          rw [Generation.revise_preparedStart] at stored
          cases opens with
          | live lookup => exact .inl ⟨_, lookup, rfl, stored⟩
          | fresh => cases stored
        | @rewritten live run changed _ lookup active before change =>
          obtain rfl := Option.some.inj found
          have sameGeneration :=
            (change.rewrites ((valid _).wellFormed _ lookup) before).sameGeneration
          rcases List.mem_append.mp stored with old | new
          · exact .inl ⟨live, lookup, sameGeneration.symm, old⟩
          · have written : effect.message = some message := Option.mem_toList.mp new
            right
            obtain ⟨reference, carried⟩ : ∃ reference,
                ledger.runReference = some reference := by
              cases change with
              | @appended _ kind target =>
                obtain ⟨-, -, -, owned, external⟩ := appendTarget_eq_ok target
                rcases kind with appending | publishing
                · obtain ⟨reference, owned⟩ := owned (by simp [appending])
                  exact ⟨reference, owned.carried⟩
                · obtain ⟨reference, carried, -⟩ :=
                    Option.map_eq_some_iff.mp (external publishing).1
                  exact ⟨reference, carried⟩
              | lost | recovered | settling | finished | cancelled | reconciled =>
                cases written
            have recorded := mem_commitRecords.mpr
              ⟨effect, message, reference, outcome, written, carried, rfl⟩
            obtain ⟨_, after, _, _, commits⟩ := commitRecords_commits valid recorded
            refine ⟨_, recorded, rfl, ?_, rfl⟩
            have again := commits.found
            rw [next_of_resolved outcome, show (store.apply ledger.key effect).threads
                ledger.key = (store.threads ledger.key).apply effect by
              simp [StreamStore.apply], applied] at again
            exact commits.sameGeneration.symm.trans (by rw [← Option.some.inj again])
        | @sealed live reason owner kind lookup =>
          obtain rfl := Option.some.inj found
          rw [Generation.revise_sealedEffect] at stored
          exact .inl ⟨live, lookup, rfl, stored⟩
        | retired => cases found
      · rw [show (store.apply ledger.key effect).threads key = store.threads key by
          simp [StreamStore.apply, StreamStore.onThread_threads_of_ne same]] at found
        exact .inl ⟨next, found, rfl, stored⟩

/-- Whether every stored message of a store is among the records. -/
def StreamStore.MessagesCommitted (store : StreamStore) (records : List CommitRecord) : Prop :=
  ∀ key live message, (store.threads key).live = some live → message ∈ live.messages →
    ∃ record ∈ records, record.key = key ∧
      record.reference.generation = live.stream.generation ∧ record.message = message

theorem commitLog_messages (events : List StreamEvent) :
    (StreamStore.empty.after events).MessagesCommitted (StreamStore.empty.commitLog events) := by
  induction events using List.reverseRecOn with
  | nil =>
    intro key live message lookup
    cases lookup
  | append_singleton events event ih =>
    have valid := StreamStore.empty_valid.after_events events
    intro key next message found stored
    rw [StreamStore.after, Machine.run_append, Machine.run_cons, Machine.run_nil] at found
    rw [StreamStore.commitLog, Machine.log_append, Machine.log_cons, Machine.log_nil,
      List.append_nil]
    rcases next_messages valid found stored with
      ⟨live, lookup, generation, before⟩ | ⟨record, committed, rest⟩
    · obtain ⟨record, logged, sameKey, sameGeneration, sameMessage⟩ :=
        ih key live message lookup before
      exact ⟨record, List.mem_append_left _ logged, sameKey, sameGeneration.trans generation,
        sameMessage⟩
    · exact ⟨record, List.mem_append_right _ committed, rest⟩

/-! ## Fencing -/

private def sampleIdentity : RunIdentity := ⟨⟨"host", "thread"⟩, "run"⟩

private def samplePreparation : LedgerTransition where
  kind := .prepareRun
  transitionId := "owner"
  channel := "chat"
  identity := sampleIdentity
  codecId := some "json"
  unselected := unselected_none

/-- A renewal that carries the fence after the granted one. -/
private def staleRenewal : LedgerTransition where
  kind := .renewProducerOwnership
  transitionId := "renewal"
  channel := "chat"
  identity := sampleIdentity
  runReference := some
    { channel := "chat"
      identity := sampleIdentity
      generation := 1
      producerToken := some "owner"
      producerFence := some 2 }
  unselected := nofun

end Tinkerfin.Messaging
