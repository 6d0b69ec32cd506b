import Tinkerfin.Messaging.Reads

/-!
# Generation cleanup

Deletion and retention expiry clean a generation up in steps that any number of workers interleave:
the first step seals it under a reason, batches remove its records, and a last step retires it behind
a tombstone.  `StreamThread.SealedAs` is the reason a stream records for a generation; it is set once
and every later decision, read and failure reports it.
-/

namespace Tinkerfin.Messaging

open Function (update)

variable {key : StreamKey} {thread after : StreamThread} {live next : Generation} {number : Nat}
  {reason : MessagingCleanupReason} {store : StreamStore} {transition : MessagingTransition}
  {state : MessagingStateSnapshot} {effect : MessagingStorageEffect} {observedAt : Nat}

theorem MessagingCleanupReason.sealing_injective {other : MessagingCleanupReason}
    (same : reason.sealing = other.sealing) : reason = other := by
  cases reason <;> cases other <;> first | rfl | cases same

/-! ## The recorded reason -/

/-- The cleanup reason that a stream records for a generation. -/
inductive StreamThread.SealedAs (thread : StreamThread) (number : Nat)
    (reason : MessagingCleanupReason) : Prop
  | sealing {live : Generation} (lookup : thread.live = some live)
      (same : live.stream.generation = number)
      (sealed : live.stream.disposition = reason.sealing) : thread.SealedAs number reason
  | retired (tombstone : thread.tombstones number = some reason) : thread.SealedAs number reason

theorem StreamThread.Valid.tombstone_lt (valid : thread.Valid key) (lookup : thread.live = some live)
    (tombstone : thread.tombstones number = some reason) : number < live.stream.generation := by
  obtain ⟨retired, last, bound⟩ := valid.latest _ _ tombstone
  exact lt_of_le_of_lt bound (valid.newer _ lookup _ last)

theorem StreamThread.SealedAs.unique {other : MessagingCleanupReason} (valid : thread.Valid key)
    (first : thread.SealedAs number reason) (second : thread.SealedAs number other) :
    reason = other := by
  cases first with
  | sealing lookup same sealed =>
    cases second with
    | sealing again _ otherSealed =>
      obtain rfl := Option.some.inj (lookup.symm.trans again)
      exact MessagingCleanupReason.sealing_injective (sealed.symm.trans otherSealed)
    | retired tombstone => exact absurd same.symm (ne_of_lt (valid.tombstone_lt lookup tombstone))
  | retired tombstone =>
    cases second with
    | sealing lookup same => exact absurd same.symm (ne_of_lt (valid.tombstone_lt lookup tombstone))
    | retired again => exact Option.some.inj (tombstone.symm.trans again)

/-- Retiring the live generation keeps the recorded reasons. -/
theorem StreamThread.SealedAs.retire {closing : MessagingCleanupReason} (valid : thread.Valid key)
    (lookup : thread.live = some live)
    (same : live.stream.disposition ≠ .active → live.stream.disposition = closing.sealing)
    (sealed : thread.SealedAs number reason) :
    (thread.retire live.stream.generation closing).SealedAs number reason := by
  refine .retired ?_
  cases sealed with
  | sealing again named disposition =>
    obtain rfl := Option.some.inj (lookup.symm.trans again)
    have inactive : live.stream.disposition ≠ .active :=
      disposition ▸ reason.sealing_ne_active
    obtain rfl := MessagingCleanupReason.sealing_injective
      (disposition.symm.trans (same inactive))
    simp [StreamThread.retire, named]
  | retired tombstone =>
    have older := ne_of_lt (valid.tombstone_lt lookup tombstone)
    simpa [StreamThread.retire, older] using tombstone

/-- An event keeps the recorded reason of a generation. -/
theorem EventStep.sealedAs (valid : thread.Valid key) (step : EventStep key thread after)
    (sealed : thread.SealedAs number reason) : after.SealedAs number reason := by
  have ofActive : ∀ live next, thread.live = some live → live.stream.disposition = .active →
      StreamThread.SealedAs { thread with live := some next } number reason := by
    intro live next lookup active
    cases sealed with
    | sealing again _ disposition =>
      obtain rfl := Option.some.inj (lookup.symm.trans again)
      exact absurd (disposition.symm.trans active) reason.sealing_ne_active
    | retired tombstone => exact .retired tombstone
  have ofLive : ∀ change : Generation → Generation,
      (∀ live, (change live).stream.generation = live.stream.generation) →
      (∀ live, (change live).stream.disposition = live.stream.disposition) →
      StreamThread.SealedAs { thread with live := thread.live.map change } number reason := by
    intro change numbered disposed
    cases sealed with
    | @sealing live lookup same disposition =>
      exact .sealing (by rw [lookup]; rfl) ((numbered live).trans same)
        ((disposed live).trans disposition)
    | retired tombstone => exact .retired tombstone
  cases step with
  | untouched => exact sealed
  | committed addressed step =>
    cases step with
    | quiet => exact sealed
    | started kind opens =>
      cases opens with
      | live lookup active => exact ofActive _ _ lookup active
      | fresh idle =>
        cases sealed with
        | sealing lookup => exact nomatch idle.symm.trans lookup
        | retired tombstone => exact .retired tombstone
    | rewritten lookup active => exact ofActive _ _ lookup active
    | sealed kind lookup active => exact ofActive _ _ lookup active
    | retired kind lookup closing => exact sealed.retire valid lookup fun _ => closing
  | environment event =>
    cases event with
    | expireLease | observeRetention => exact ofLive _ (fun _ => rfl) fun _ => rfl
    | purge =>
      exact ofLive _ (fun _ => by rw [Generation.purge_stream])
        fun _ => by rw [Generation.purge_stream]
    | expire =>
      simp only [StreamThread.environment, StreamThread.expire]
      split
      · exact sealed
      · next live lookup =>
          split
          · next idle => exact sealed.retire valid lookup fun inactive => absurd idle.1 inactive
          · exact sealed

theorem sealedAs_after (valid : store.Valid) (sealed : (store.threads key).SealedAs number reason)
    (events : List StreamEvent) : ((store.after events).threads key).SealedAs number reason := by
  induction events generalizing store with
  | nil => exact sealed
  | cons event events ih =>
    exact ih (valid.next event) ((next_eventStep valid event key).sealedAs (valid key) sealed)

/-! ## Steps of a cleanup -/

/-- A step that some worker takes in the cleanup of one generation. -/
inductive CleanupStep (store : StreamStore) (key : StreamKey) (number : Nat) : StreamEvent → Prop
  | begun {observedAt : Nat} {ledger : LedgerTransition} {result : MessagingTransitionResult}
      {after : StreamStore} (kind : ledger.kind = .beginGenerationCleanup)
      (addressed : ledger.key = key)
      (committed : store.commit observedAt ledger.toMessagingTransition = .ok (result, after))
      (claimed : result.cleanupGeneration = some number) :
      CleanupStep store key number (.commit observedAt ledger)
  | purged {keepMessage : StoredMessageEvidence → Bool} {keepRun : String → Bool} :
      CleanupStep store key number (.environment key (.purge number keepMessage keepRun))
  | finished {observedAt : Nat} {ledger : LedgerTransition}
      (kind : ledger.kind = .finishGenerationCleanup) (addressed : ledger.key = key)
      (claimed : ledger.cleanupGeneration = some number) :
      CleanupStep store key number (.commit observedAt ledger)
  | expired {live : Generation} (lookup : (store.threads key).live = some live)
      (same : live.stream.generation = number) :
      CleanupStep store key number (.environment key .expire)

/-- Whether at most the records of one generation differ between two states of a stream. -/
structure StreamThread.ChangesOnly (number : Nat) (thread after : StreamThread) : Prop where
  live : after.live = thread.live ∨ ∃ live, thread.live = some live ∧
    live.stream.generation = number ∧
    ∀ next, after.live = some next → next.stream.generation = number
  tombstones : ∀ other, other ≠ number → after.tombstones other = thread.tombstones other

theorem StreamThread.ChangesOnly.refl : thread.ChangesOnly number thread :=
  ⟨.inl rfl, fun _ _ => rfl⟩

theorem StreamThread.ChangesOnly.retire (lookup : thread.live = some live) :
    thread.ChangesOnly live.stream.generation (thread.retire live.stream.generation reason) where
  live := .inr ⟨live, lookup, rfl, nofun⟩
  tombstones other different := by simp [StreamThread.retire, different]

theorem RunChange.kind_ne {stream : StoredMessagingStream} {run changed : StoredMessagingRun}
    (change : RunChange transition state stream run effect changed) :
    transition.kind ≠ .beginGenerationCleanup ∧ transition.kind ≠ .finishGenerationCleanup := by
  cases change with
  | appended kind => rcases kind with kind | kind <;> simp [kind]
  | lost kind | recovered kind | settling kind | finished kind | cancelled kind
  | reconciled kind => simp [kind]

/-- A committed cleanup step changes only the generation that it claims. -/
theorem ThreadStep.changesOnly
    (step : ThreadStep transition state thread effect after)
    (cleanup : (transition.kind = .beginGenerationCleanup ∧
        effect.result.cleanupGeneration = some number) ∨
      (transition.kind = .finishGenerationCleanup ∧
        transition.cleanupGeneration = some number)) :
    thread.ChangesOnly number after := by
  cases step with
  | quiet => exact .refl
  | started kind => simp [kind] at cleanup
  | rewritten _ _ _ change =>
    rcases cleanup with ⟨begun, -⟩ | ⟨finished, -⟩
    · exact absurd begun change.kind_ne.1
    · exact absurd finished change.kind_ne.2
  | @sealed live reason owner kind lookup =>
    rcases cleanup with ⟨-, claimed⟩ | ⟨finished, -⟩
    · have same : live.stream.generation = number := Option.some.inj claimed
      refine ⟨.inr ⟨live, lookup, same, ?_⟩, fun _ _ => rfl⟩
      rintro _ ⟨⟩
      exact same
    · exact nomatch kind.symm.trans finished
  | retired kind lookup closing named =>
    rcases cleanup with ⟨begun, -⟩ | ⟨-, claimed⟩
    · exact nomatch kind.symm.trans begun
    · obtain rfl := Option.some.inj (named.symm.trans claimed)
      exact .retire lookup

/-- A cleanup step changes only the generation that it claims, and no other stream. -/
theorem CleanupStep.changesOnly {event : StreamEvent} (valid : store.Valid)
    (step : CleanupStep store key number event) :
    (store.threads key).ChangesOnly number ((store.next event).threads key) ∧
      ∀ other, other ≠ key → (store.next event).threads other = store.threads other := by
  have ofCommit : ∀ observedAt (ledger : LedgerTransition), ledger.key = key →
      (∀ effect, resolveMessagingTransition ledger.toMessagingTransition
          (store.snapshot observedAt ledger.toMessagingTransition) = .ok effect →
        (ledger.kind = .beginGenerationCleanup ∧
            effect.result.cleanupGeneration = some number) ∨
          (ledger.kind = .finishGenerationCleanup ∧ ledger.cleanupGeneration = some number)) →
      (store.threads key).ChangesOnly number
          ((store.next (.commit observedAt ledger)).threads key) ∧
        ∀ other, other ≠ key →
          (store.next (.commit observedAt ledger)).threads other = store.threads other := by
    rintro observedAt ledger rfl cleanup
    cases outcome : resolveMessagingTransition ledger.toMessagingTransition
        (store.snapshot observedAt ledger.toMessagingTransition) with
    | error error =>
      rw [next_of_rejected outcome]
      exact ⟨.refl, fun _ _ => rfl⟩
    | ok effect =>
      have step := resolved_threadStep (valid _) ledger.unselected (resolve_cases outcome)
      rw [next_of_resolved outcome]
      constructor
      · simpa [StreamStore.apply] using step.changesOnly (cleanup effect outcome)
      · intro other different
        simp [StreamStore.apply, StreamStore.onThread_threads_of_ne different]
  cases step with
  | begun kind addressed committed claimed =>
    obtain ⟨effect, resolved, rfl, -⟩ := StreamStore.commit_eq_ok.mp committed
    refine ofCommit _ _ addressed fun other again => .inl ⟨kind, ?_⟩
    obtain rfl := Except.ok.inj (resolved.symm.trans again)
    exact claimed
  | finished kind addressed claimed => exact ofCommit _ _ addressed fun _ _ => .inr ⟨kind, claimed⟩
  | purged =>
    rw [StreamStore.next, StreamStore.onThread_threads_self]
    refine ⟨⟨?_, fun _ _ => rfl⟩, fun other different =>
      StreamStore.onThread_threads_of_ne different⟩
    cases lookup : (store.threads key).live with
    | none => exact .inl (by simp [StreamThread.environment, lookup])
    | some live =>
      by_cases same : live.stream.generation = number
      · refine .inr ⟨live, rfl, same, fun next found => ?_⟩
        obtain ⟨before, again, generation, -⟩ := environment_step found
        obtain rfl := Option.some.inj (lookup.symm.trans again)
        exact generation.symm.trans same
      · exact .inl (by simp [StreamThread.environment, lookup, Generation.purge, same])
  | expired lookup same =>
    subst same
    rw [StreamStore.next, StreamStore.onThread_threads_self]
    refine ⟨?_, fun other different => StreamStore.onThread_threads_of_ne different⟩
    simp only [StreamThread.environment, StreamThread.expire, lookup]
    split
    · exact .retire lookup
    · exact .refl

/-! ## Generation numbers -/

/-- The generation number that an event opens in a stream. -/
def StreamStore.openings (key : StreamKey) (store : StreamStore) (event : StreamEvent) : List Nat :=
  if (store.threads key).live.isNone then
    (((store.next event).threads key).live.map fun live => live.stream.generation).toList
  else
    []

/-- The generation numbers opened in a stream along a run, oldest first. -/
abbrev StreamStore.openingLog (key : StreamKey) (store : StreamStore) (events : List StreamEvent) :
    List Nat :=
  Machine.log StreamStore.next (StreamStore.openings key) store events

theorem mem_openings {event : StreamEvent} :
    number ∈ store.openings key event ↔ (store.threads key).live = none ∧
      ∃ live, ((store.next event).threads key).live = some live ∧
        live.stream.generation = number := by
  unfold StreamStore.openings
  cases (store.threads key).live <;> simp

/-- Every opened number is reached from then on and exceeded by the next one. -/
theorem openingLog_increasing (events : List StreamEvent) :
    (StreamStore.empty.openingLog key events).Pairwise (· < ·) := by
  refine Machine.log_pairwise
    (fun store event (valid : store.Valid) => valid.next event)
    (fun store event number valid opened => ?_)
    (fun store event number valid (reached : (store.threads key).Reached number) =>
      reached.step (valid key) (next_eventStep valid event key))
    (fun store event _ => ?_) (fun store event old number valid reached opened => ?_)
    StreamStore.empty_valid
  · obtain ⟨-, live, lookup, same⟩ := mem_openings.mp opened
    exact .inr ⟨live, lookup, le_of_eq same.symm⟩
  · unfold StreamStore.openings
    split
    · cases ((store.next event).threads key).live <;> simp
    · exact .nil
  · obtain ⟨idle, live, lookup, rfl⟩ := mem_openings.mp opened
    rcases (next_eventStep valid event key).generationStep (valid key) lookup with
      ⟨before, again, -⟩ | ⟨-, transition, channel, cursor, -, rfl⟩
    · exact nomatch idle.symm.trans again
    · exact freshStream_newer transition idle reached

/-! ## Failures report the recorded reason -/

/-- Whether a failure that names an unavailable generation gives its reason. -/
def MessagingError.Reports (P : Nat → MessagingCleanupReason → Prop) : MessagingError → Prop
  | .streamExpired _ _ generation => P generation .expired
  | .streamDeleted _ _ generation => P generation .deleted
  | .typeError _ | .valueError _ | .overflowError _ | .runtimeError _ | .invalidCursor _ _
  | .codecMismatch _ _ | .messageIdConflict _ _ | .publicationRejected _ _ | .quotaExceeded _ _
  | .runAlreadyActive _ _ | .runNotFound _ | .runProducerFailed _ _ | .cancellationUnsupported _
  | .backendOwnershipLost _ _ _ | .streamDeleteConflict _ _ _ | .backendProtocol _ => True

/-- Whether every failure of a computation gives the reasons in `P`. -/
def Honest (P : Nat → MessagingCleanupReason → Prop) {α : Type} (result : Except MessagingError α) :
    Prop :=
  ∀ error, result = .error error → error.Reports P

section Honest

variable {P : Nat → MessagingCleanupReason → Prop} {α β : Type} {error : MessagingError}

theorem honest_ok (value : α) : Honest P (.ok value) := nofun

theorem honest_error (reports : error.Reports P) : Honest P (.error error : Except _ α) := by
  rintro _ ⟨⟩
  exact reports

theorem honest_bind {first : Except MessagingError α} {rest : α → Except MessagingError β}
    (honest : Honest P first) (continued : ∀ value, Honest P (rest value)) :
    Honest P (first >>= rest) := by
  intro error failed
  cases outcome : first with
  | error other =>
    rw [outcome] at failed
    obtain rfl : other = error := Except.error.inj failed
    exact honest _ outcome
  | ok value =>
    rw [outcome] at failed
    exact continued value error failed

theorem honest_require {condition : Prop} [Decidable condition] (reports : error.Reports P) :
    Honest P (require condition error) := by
  unfold require
  split
  · exact honest_ok ()
  · exact honest_error reports

theorem honest_requiredIdentifier (name value : String) :
    Honest P (requiredIdentifier name value) :=
  honest_bind (honest_bind (honest_require trivial) fun _ => honest_ok _)
    fun _ => honest_bind (honest_require trivial) fun _ => honest_ok _

theorem honest_requiredText (name : String) (value : Option String) :
    Honest P (requiredText name value) := by
  cases value with
  | none => exact honest_error trivial
  | some value => exact honest_requiredIdentifier name value

theorem honest_requiredIdentity (identity : RunIdentity) : Honest P (requiredIdentity identity) :=
  honest_bind (honest_requiredIdentifier _ _)
    fun _ => honest_bind (honest_requiredIdentifier _ _) fun _ => honest_ok _

/-- Whether the stream and tombstone of a snapshot show reasons in `P`. -/
structure MessagingStateSnapshot.Shows (state : MessagingStateSnapshot)
    (P : Nat → MessagingCleanupReason → Prop) : Prop where
  tombstone : ∀ generation reason, state.tombstoneGeneration = some generation →
    state.tombstoneReason = some reason → P generation reason
  paired : state.tombstoneReason.isSome = true → ∃ generation,
    state.tombstoneGeneration = some generation ∧ 1 ≤ generation
  stream : ∀ stream, state.stream = some stream →
    stream.disposition = .active ∨ ∃ reason : MessagingCleanupReason,
      stream.disposition = reason.sealing ∧ P stream.generation reason

variable (shows : state.Shows P)

include shows

theorem honest_raiseReferenceTombstone (generation : Option Nat) :
    Honest P (raiseReferenceTombstone transition state generation) := by
  unfold raiseReferenceTombstone
  split
  · exact honest_ok ()
  · next number found =>
      split
      · exact honest_ok ()
      · split
        · next given => exact honest_error (shows.tombstone _ _ found given)
        · next given => exact honest_error (shows.tombstone _ _ found given)
        · exact honest_ok ()

theorem unavailableStream_reports {stream : StoredMessagingStream} (found : state.stream = some stream)
    (inactive : stream.disposition ≠ .active) : (unavailableStream transition stream).Reports P := by
  rcases shows.stream stream found with active | ⟨reason, sealed, given⟩
  · exact absurd active inactive
  · unfold unavailableStream
    cases reason with
    | deleted => simpa [sealed, MessagingCleanupReason.sealing, MessagingError.Reports] using given
    | expired => simpa [sealed, MessagingCleanupReason.sealing, MessagingError.Reports] using given

theorem honest_requiredTargetRun : Honest P (requiredTargetRun transition state) := by
  unfold requiredTargetRun
  split
  · exact honest_ok _
  · exact honest_bind (honest_raiseReferenceTombstone shows _) fun _ => honest_error trivial

theorem honest_requiredStream : Honest P (requiredStream transition state) := by
  unfold requiredStream
  split
  · exact honest_bind (honest_raiseReferenceTombstone shows _) fun _ => honest_error trivial
  · next stream found =>
      split
      · exact honest_ok stream
      · next inactive => exact honest_error (unavailableStream_reports shows found inactive)

theorem honest_ownedRun : Honest P (ownedRun transition state) := by
  have reference : Honest P (requiredReference transition) := by
    unfold requiredReference
    split
    · exact honest_error trivial
    · exact honest_bind (honest_require trivial)
        fun _ => honest_bind (honest_require trivial) fun _ => honest_ok _
  refine honest_bind reference fun reference => honest_bind (honest_requiredTargetRun shows)
    fun run => honest_bind (honest_requiredStream shows) fun stream => ?_
  split
  · exact honest_bind (honest_raiseReferenceTombstone shows _) fun _ => honest_error trivial
  · exact honest_bind (honest_require trivial)
      fun _ => honest_bind (honest_require trivial) fun _ => honest_ok _

theorem honest_prepareStream : Honest P (prepareStream transition state) := by
  unfold prepareStream
  split
  · next absent =>
      refine honest_bind ?_ fun _ => honest_ok _
      cases given : state.tombstoneReason with
      | none => simpa [absent, require] using honest_ok (P := P) ()
      | some reason =>
        obtain ⟨generation, found, positive⟩ := shows.paired (by rw [given]; rfl)
        cases reason with
        | deleted => simpa [require] using honest_ok (P := P) ()
        | expired =>
          refine honest_require ?_
          simpa [MessagingError.Reports, found, positive]
            using shows.tombstone _ _ found given
  · next stream found =>
      split
      · exact honest_ok stream
      · next sealed =>
          exact honest_error (unavailableStream_reports shows found (by simp [sealed]))
      · next sealed =>
          exact honest_error (unavailableStream_reports shows found (by simp [sealed]))
      · next retired =>
          rcases shows.stream stream found with active | ⟨reason, sealed, -⟩
          · exact nomatch retired.symm.trans active
          · cases reason <;> exact nomatch retired.symm.trans sealed
      · next retired =>
          rcases shows.stream stream found with active | ⟨reason, sealed, -⟩
          · exact nomatch retired.symm.trans active
          · cases reason <;> exact nomatch retired.symm.trans sealed

theorem honest_resolvePrepareRun : Honest P (resolvePrepareRun transition state) := by
  have channel : ∀ codecId, Honest P (prepareChannel transition state codecId) := by
    intro codecId
    unfold prepareChannel
    split
    · exact honest_ok _
    · exact honest_bind (honest_require trivial) fun _ => honest_bind (honest_require trivial)
        fun _ => honest_bind (honest_require trivial) fun _ => honest_ok _
  refine honest_bind (honest_requiredText _ _) fun codecId => honest_bind (channel codecId)
    fun channel => honest_bind (honest_prepareStream shows) fun stream =>
      honest_bind (honest_bind (honest_require trivial) fun _ => honest_ok _) fun cursor => ?_
  split
  · exact honest_bind (honest_require trivial) fun _ => honest_ok _
  · split
    · exact honest_bind (honest_require trivial) fun _ => honest_ok _
    · exact honest_ok _

theorem honest_resolveAppendMessage : Honest P (resolveAppendMessage transition state) := by
  have target : Honest P (appendTarget transition state) := by
    unfold appendTarget
    split
    · exact honest_bind (honest_requiredTargetRun shows) fun run =>
        honest_bind (honest_requiredStream shows) fun stream =>
          honest_bind (honest_require trivial) fun _ => honest_bind (honest_require trivial)
            fun _ => honest_ok _
    · exact honest_bind (honest_ownedRun shows) fun _ => honest_ok _
  have message : Honest P (validateMessage transition state) := by
    refine honest_bind (honest_requiredText _ _) fun codecId =>
      honest_bind (honest_requiredText _ _) fun messageId => ?_
    split
    · exact honest_error trivial
    · refine honest_bind (honest_require trivial) fun _ => honest_bind (honest_require trivial)
        fun _ => honest_bind (honest_require trivial) fun _ => ?_
      split
      · exact honest_error trivial
      · refine honest_bind (honest_require trivial) fun _ => honest_bind ?_ fun _ => honest_ok _
        exact honest_bind (honest_requiredIdentity _) fun _ =>
          honest_bind (honest_requiredIdentifier _ _) fun _ => honest_bind (honest_require trivial)
            fun _ => honest_ok _
  refine honest_bind target fun _ => honest_bind message fun _ => ?_
  split
  · exact honest_bind (honest_require trivial) fun _ => honest_ok _
  · refine honest_bind ?_ fun _ => honest_bind
      (honest_bind (honest_require trivial) fun _ => honest_require trivial) fun _ => honest_ok _
    unfold requirePublishable
    split
    · exact honest_bind (honest_require trivial) fun _ => honest_bind (honest_require trivial)
        fun _ => honest_require trivial
    · exact honest_ok _

theorem honest_resolveRequestCancellation :
    Honest P (resolveRequestCancellation transition state) := by
  refine honest_bind (honest_requiredTargetRun shows) fun run =>
    honest_bind (honest_requiredStream shows) fun stream => ?_
  split
  · exact honest_ok _
  · refine honest_bind (honest_require trivial) fun _ => ?_
    split
    · exact honest_ok _
    · exact honest_bind (honest_require trivial) fun _ => honest_ok _

theorem honest_resolveRenewProducerOwnership :
    Honest P (resolveRenewProducerOwnership transition state) := by
  refine honest_bind ?_ fun reference => ?_
  · unfold requiredReference
    split
    · exact honest_error trivial
    · exact honest_bind (honest_require trivial)
        fun _ => honest_bind (honest_require trivial) fun _ => honest_ok _
  · split
    · exact honest_bind (honest_raiseReferenceTombstone shows _) fun _ => honest_ok _
    · exact honest_ok _

theorem honest_resolveReconcileProducerOwnership :
    Honest P (resolveReconcileProducerOwnership transition state) := by
  refine honest_bind (honest_requiredTargetRun shows) fun run =>
    honest_bind (honest_requiredStream shows) fun stream => honest_bind ?_ fun _ => honest_ok _
  unfold checkReconcileReference
  split
  · exact honest_ok _
  · refine honest_bind (honest_require trivial) fun _ => ?_
    split
    · exact honest_ok _
    · exact honest_bind (honest_raiseReferenceTombstone shows _) fun _ => honest_error trivial

omit shows in
theorem honest_resolveBeginGenerationCleanup :
    Honest P (resolveBeginGenerationCleanup transition state) := by
  unfold resolveBeginGenerationCleanup
  split
  · exact honest_error trivial
  · split
    · exact honest_bind (honest_require trivial) fun _ => honest_ok _
    · split
      · exact honest_ok _
      · exact honest_ok _
      · exact honest_ok _
      · exact honest_ok _
      · refine honest_bind ?_ fun _ => honest_ok _
        unfold sealedOwner
        split
        · exact honest_ok _
        · split
          · exact honest_error trivial
          · exact honest_bind (honest_require trivial) fun _ => honest_ok _

omit shows in
theorem honest_resolveFinishGenerationCleanup :
    Honest P (resolveFinishGenerationCleanup transition state) := by
  unfold resolveFinishGenerationCleanup
  split
  · exact honest_error trivial
  · exact honest_error trivial
  · refine honest_bind (honest_require trivial) fun _ => ?_
    split
    · split
      · exact honest_ok _
      · split
        · exact honest_error trivial
        · exact honest_error trivial
    · refine honest_bind (honest_require trivial) fun _ => ?_
      split
      · exact honest_ok _
      · exact honest_bind (honest_require trivial) fun _ => honest_ok _

/-- Every failure of a transition that names an unavailable generation gives its reason. -/
theorem honest_resolveMessagingTransition :
    Honest P (resolveMessagingTransition transition state) := by
  have validated : Honest P (validateTransitionIdentity transition) :=
    honest_bind (honest_requiredIdentifier _ _) fun _ =>
      honest_bind (honest_requiredIdentifier _ _) fun _ =>
        honest_bind (honest_requiredIdentity _) fun _ => honest_ok _
  refine honest_bind validated fun _ => ?_
  cases transition.kind with
  | prepareRun => exact honest_resolvePrepareRun shows
  | appendMessage | publishMessage => exact honest_resolveAppendMessage shows
  | beginSettlement =>
    exact honest_bind (honest_ownedRun shows) fun _ => honest_bind (honest_require trivial)
      fun _ => honest_ok _
  | finishRun =>
    refine honest_bind (honest_ownedRun shows) fun ⟨run, stream, _⟩ => ?_
    cases requested : transition.finalStatus with
    | none => exact honest_error trivial
    | some _ => exact honest_bind (honest_require trivial) fun _ => honest_ok _
  | requestCancellation => exact honest_resolveRequestCancellation shows
  | renewProducerOwnership => exact honest_resolveRenewProducerOwnership shows
  | reconcileProducerOwnership => exact honest_resolveReconcileProducerOwnership shows
  | beginGenerationCleanup => exact honest_resolveBeginGenerationCleanup
  | finishGenerationCleanup => exact honest_resolveFinishGenerationCleanup

end Honest

theorem snapshot_tombstone (found :
      (store.snapshot observedAt transition).tombstoneGeneration = some number) :
    ∃ reason, (store.snapshot observedAt transition).tombstoneReason = some reason ∧
      (store.threads transition.key).tombstones number = some reason := by
  obtain ⟨⟨retired, reason⟩, tombstone, rfl⟩ := Option.map_eq_some_iff.mp found
  obtain ⟨selected, -, recorded⟩ := Option.bind_eq_some_iff.mp tombstone
  obtain ⟨other, again, same⟩ := Option.map_eq_some_iff.mp recorded
  obtain ⟨rfl, rfl⟩ := Prod.mk.inj same
  exact ⟨other, by simp [StreamStore.snapshot, tombstone], again⟩

theorem MessagingStreamDisposition.eq_sealing {disposition : MessagingStreamDisposition}
    (sealed : disposition.isSealed = true) :
    ∃ reason : MessagingCleanupReason, disposition = reason.sealing := by
  cases disposition with
  | deleting => exact ⟨.deleted, rfl⟩
  | expiring => exact ⟨.expired, rfl⟩
  | active | deleted | expired => cases sealed

theorem StreamStore.Valid.shows (valid : store.Valid) :
    (store.snapshot observedAt transition).Shows (store.threads transition.key).SealedAs where
  tombstone generation reason found given := by
    obtain ⟨other, again, recorded⟩ := snapshot_tombstone found
    obtain rfl := Option.some.inj (given.symm.trans again)
    exact .retired recorded
  paired given := by
    obtain ⟨reason, given⟩ := Option.isSome_iff_exists.mp given
    obtain ⟨⟨generation, _⟩, tombstone, -⟩ := Option.map_eq_some_iff.mp given
    have found : (store.snapshot observedAt transition).tombstoneGeneration = some generation := by
      simp [StreamStore.snapshot, tombstone]
    obtain ⟨_, -, recorded⟩ := snapshot_tombstone found
    exact ⟨generation, found, (valid transition.key).positive _ _ recorded⟩
  stream stream found := by
    obtain ⟨live, selected, rfl⟩ := snapshot_stream_eq_some.mp found
    have lookup := (StreamThread.selected_eq_some.mp selected).1
    rcases ((valid _).wellFormed live lookup).present with active | isSealed
    · exact .inl active
    · obtain ⟨reason, sealed⟩ := MessagingStreamDisposition.eq_sealing isSealed
      exact .inr ⟨reason, sealed, .sealing lookup rfl sealed⟩

theorem commit_reports (valid : store.Valid) {error : MessagingError}
    (rejected : store.commit observedAt transition = .error error) :
    error.Reports (store.threads transition.key).SealedAs := by
  have honest : Honest (store.threads transition.key).SealedAs
      (store.commit observedAt transition) :=
    honest_bind (honest_resolveMessagingTransition valid.shows) fun _ => honest_ok _
  exact honest error rejected

/-- The failure that reports a cleanup reason. -/
def MessagingCleanupReason.unavailable (reason : MessagingCleanupReason) (channel : String)
    (identity : RunIdentity) (generation : Nat) : MessagingError :=
  match reason with
  | .deleted => .streamDeleted channel identity generation
  | .expired => .streamExpired channel identity generation

/-- A generation with a recorded reason is never read again. -/
theorem requireGeneration_reports (valid : thread.Valid key) (sealed : thread.SealedAs number reason)
    (channel : String) (identity : RunIdentity) :
    thread.requireGeneration channel identity number =
      .error (reason.unavailable channel identity number) := by
  cases sealed with
  | sealing lookup same sealed =>
    cases reason with
    | deleted | expired =>
      simp [StreamThread.requireGeneration, lookup, same, sealed, require,
        MessagingCleanupReason.sealing, raiseStreamDisposition,
        MessagingCleanupReason.unavailable, bind, Except.bind]
  | retired tombstone =>
    have given : thread.generationUnavailable channel identity number =
        reason.unavailable channel identity number := by
      cases reason <;> simp [StreamThread.generationUnavailable, tombstone,
        MessagingCleanupReason.unavailable]
    unfold StreamThread.requireGeneration
    cases lookup : thread.live with
    | none => rw [given]
    | some live =>
      have older := ne_of_gt (valid.tombstone_lt lookup tombstone)
      simp [older, require, given, bind, Except.bind]

/-! ## Decisions and retirement -/

theorem EventStep.tombstone_kept (valid : thread.Valid key) (step : EventStep key thread after)
    (tombstone : thread.tombstones number = some reason) :
    after.tombstones number = some reason := by
  cases step.sealedAs valid (.retired tombstone) with
  | retired kept => exact kept
  | sealing found same =>
    rcases step.generationStep valid found with
      ⟨live, lookup, sameNumber, -⟩ | ⟨idle, transition, _, _, -, rfl⟩
    · exact absurd (sameNumber.trans same).symm (ne_of_lt (valid.tombstone_lt lookup tombstone))
    · obtain ⟨retired, last, bound⟩ := valid.latest _ _ tombstone
      exact absurd same (ne_of_gt (freshStream_newer transition idle (.inl ⟨_, last, bound⟩)))

theorem tombstone_after (valid : store.Valid)
    (tombstone : (store.threads key).tombstones number = some reason) (events : List StreamEvent) :
    ((store.after events).threads key).tombstones number = some reason ∧
      ∀ live, ((store.after events).threads key).live = some live →
        live.stream.generation ≠ number := by
  have kept : ((store.after events).threads key).tombstones number = some reason := by
    induction events generalizing store with
    | nil => exact tombstone
    | cons event events ih =>
      exact ih (valid.next event) ((next_eventStep valid event key).tombstone_kept (valid key)
        tombstone)
  exact ⟨kept, fun live lookup =>
    ne_of_gt ((valid.after_events events key).tombstone_lt lookup kept)⟩

/-- A begin decision for a generation reports its recorded reason, or records the requested one. -/
theorem begin_decides (valid : store.Valid) (kind : transition.kind = .beginGenerationCleanup)
    (resolved : resolveMessagingTransition transition (store.snapshot observedAt transition) =
      .ok effect)
    (claimed : effect.result.cleanupGeneration = some number) :
    ∃ reason, effect.result.cleanupReason = some reason ∧
      ((store.threads transition.key).apply effect).SealedAs number reason ∧
      ((store.threads transition.key).SealedAs number reason ∨
        transition.cleanupReason = some reason) := by
  have decided : ∀ generation reason required,
      effect = cleanupDecision transition (some generation) (some reason) required →
      (store.threads transition.key).SealedAs generation reason →
      ∃ reason, effect.result.cleanupReason = some reason ∧
        ((store.threads transition.key).apply effect).SealedAs number reason ∧
        ((store.threads transition.key).SealedAs number reason ∨
          transition.cleanupReason = some reason) := by
    rintro generation reason required rfl sealed
    obtain rfl := Option.some.inj claimed
    refine ⟨reason, rfl, ?_, .inl sealed⟩
    rw [StreamThread.apply_of_silent rfl rfl rfl rfl]
    exact sealed
  simp only [resolveMessagingTransition, bind_eq_ok, kind] at resolved
  obtain ⟨_, _, resolved⟩ := resolved
  unfold resolveBeginGenerationCleanup at resolved
  obtain ⟨requestedReason, requested⟩ : ∃ requested, transition.cleanupReason = some requested := by
    cases requested : transition.cleanupReason with
    | none => simp [requested] at resolved
    | some requestedReason => exact ⟨requestedReason, rfl⟩
  cases found : (store.snapshot observedAt transition).stream with
  | none =>
    simp only [requested, found, bind_eq_ok, pure, Except.pure, Except.ok.injEq] at resolved
    obtain ⟨_, _, rfl⟩ := resolved
    have tombstoned : (store.snapshot observedAt transition).tombstoneGeneration = some number :=
      claimed
    obtain ⟨reason, given, tombstone⟩ := snapshot_tombstone tombstoned
    exact decided number reason false (by rw [given, tombstoned]) (.retired tombstone)
  | some stream =>
    obtain ⟨live, selected, rfl⟩ := snapshot_stream_eq_some.mp found
    have lookup := (StreamThread.selected_eq_some.mp selected).1
    have present := ((valid _).wellFormed live lookup).present
    cases disposition : live.stream.disposition with
    | deleted | expired =>
      simp [disposition, MessagingStreamDisposition.isSealed] at present
    | deleting =>
      simp only [requested, found, disposition, Except.ok.injEq] at resolved
      exact decided _ .deleted _ resolved.symm (.sealing lookup rfl disposition)
    | expiring =>
      simp only [requested, found, disposition, Except.ok.injEq] at resolved
      exact decided _ .expired _ resolved.symm (.sealing lookup rfl disposition)
    | active =>
      simp only [requested, found, disposition, bind_eq_ok, pure, Except.pure,
        Except.ok.injEq] at resolved
      obtain ⟨owner, -, rfl⟩ := resolved
      split at claimed
      · cases claimed
      · next due =>
          rw [if_neg due]
          obtain rfl := Option.some.inj claimed
          refine ⟨requestedReason, rfl, ?_, .inr requested⟩
          rw [StreamThread.apply_of_live lookup (by rintro _ ⟨⟩; rfl) rfl]
          exact .sealing rfl rfl rfl

/-- A finish decision retires the generation that it names, or finds it retired. -/
theorem finish_decides (valid : store.Valid) (kind : transition.kind = .finishGenerationCleanup)
    (resolved : resolveMessagingTransition transition (store.snapshot observedAt transition) =
      .ok effect) :
    ∃ generation reason, transition.cleanupGeneration = some generation ∧
      effect.result.cleanupGeneration = some generation ∧
      effect.result.cleanupReason = some reason ∧
      ((store.threads transition.key).apply effect).tombstones generation = some reason ∧
      (store.threads transition.key).SealedAs generation reason := by
  simp only [resolveMessagingTransition, bind_eq_ok, kind] at resolved
  obtain ⟨_, _, resolved⟩ := resolved
  unfold resolveFinishGenerationCleanup at resolved
  cases requested : transition.cleanupReason with
  | none => simp [requested] at resolved
  | some reason =>
    cases claimed : transition.cleanupGeneration with
    | none => simp [requested, claimed] at resolved
    | some generation =>
      simp only [requested, claimed, bind_eq_ok, require_eq_ok] at resolved
      obtain ⟨_, _, resolved⟩ := resolved
      refine ⟨generation, reason, rfl, ?_⟩
      cases found : (store.snapshot observedAt transition).stream with
      | none =>
        simp only [found] at resolved
        split at resolved
        · next same =>
            cases resolved
            obtain ⟨recorded, given, tombstone⟩ := snapshot_tombstone same.1
            obtain rfl := Option.some.inj (same.2.symm.trans given)
            rw [StreamThread.apply_of_silent rfl rfl rfl rfl]
            exact ⟨rfl, rfl, tombstone, .retired tombstone⟩
        · split at resolved <;> cases resolved
      | some stream =>
        simp only [found, bind_eq_ok, require_eq_ok] at resolved
        obtain ⟨_, same, resolved⟩ := resolved
        obtain ⟨live, selected, rfl⟩ := snapshot_stream_eq_some.mp found
        have lookup := (StreamThread.selected_eq_some.mp selected).1
        subst same
        split at resolved
        · next retired =>
            have present := ((valid _).wellFormed live lookup).present
            cases reason <;> simp [retired, MessagingCleanupReason.retired,
              MessagingStreamDisposition.isSealed] at present
        · simp only [bind_eq_ok, require_eq_ok, pure, Except.pure,
            Except.ok.injEq] at resolved
          obtain ⟨_, closing, rfl⟩ := resolved
          rw [apply_retiredEffect lookup]
          exact ⟨rfl, rfl, by simp [StreamThread.retire], .sealing lookup rfl closing⟩

/-- A finish for a generation that is not live changes nothing. -/
theorem finish_unchanged {ledger : LedgerTransition}
    (kind : ledger.kind = .finishGenerationCleanup)
    (claimed : ledger.cleanupGeneration = some number)
    (retired : ∀ live, (store.threads ledger.key).live = some live →
      live.stream.generation ≠ number) :
    store.next (.commit observedAt ledger) = store := by
  have unselected : (store.snapshot observedAt ledger.toMessagingTransition).stream = none := by
    refine Option.eq_none_iff_forall_ne_some.mpr fun stream found => ?_
    obtain ⟨live, selected, rfl⟩ := snapshot_stream_eq_some.mp found
    obtain ⟨lookup, same⟩ := StreamThread.selected_eq_some.mp selected
    exact retired live lookup (same number (by simp [selectedGeneration, kind, claimed]))
  cases outcome : resolveMessagingTransition ledger.toMessagingTransition
      (store.snapshot observedAt ledger.toMessagingTransition) with
  | error error => exact next_of_rejected outcome
  | ok effect =>
    rw [next_of_resolved outcome]
    cases resolve_cases outcome with
    | silent _ silent => exact StreamStore.apply_of_silent silent
    | retired _ _ _ found => cases unselected.symm.trans found
    | attached prepared | lost prepared | recovered prepared | started prepared =>
      cases kind.symm.trans prepared.kind
    | retried other | appended other =>
      rcases other with other | other <;> cases kind.symm.trans other
    | settling other | finished other | cancelled other | reconciled other | sealed other =>
      cases kind.symm.trans other

/-! ## Cleanup of a generation -/

/-- What concurrent cleanups of one store cannot break. -/
structure StreamStore.CleanupSafe (store : StreamStore) : Prop where
  /-- A cleanup step touches only the generation that it claims. -/
  bounded : ∀ key number event, CleanupStep store key number event →
    (store.threads key).ChangesOnly number ((store.next event).threads key) ∧
      ∀ other, other ≠ key → (store.next event).threads other = store.threads other
  /-- A begin decision reports the recorded reason, or records the requested one. -/
  begun : ∀ observedAt (ledger : LedgerTransition) result after number,
    ledger.kind = .beginGenerationCleanup →
    store.commit observedAt ledger.toMessagingTransition = .ok (result, after) →
    result.cleanupGeneration = some number →
    ∃ reason, result.cleanupReason = some reason ∧
      (after.threads ledger.key).SealedAs number reason ∧
      ((store.threads ledger.key).SealedAs number reason ∨ ledger.cleanupReason = some reason)
  /-- Recorded reasons are unique and kept. -/
  recorded : ∀ key number reason, (store.threads key).SealedAs number reason →
    (∀ other, (store.threads key).SealedAs number other → other = reason) ∧
      ∀ later, ((store.after later).threads key).SealedAs number reason
  /-- A failed transition that names an unavailable generation reports its recorded reason. -/
  failed : ∀ observedAt (ledger : LedgerTransition) error,
    store.commit observedAt ledger.toMessagingTransition = .error error →
    error.Reports (store.threads ledger.key).SealedAs
  /-- A valid read of a sealed or retired generation reports its recorded reason. -/
  unread : ∀ query reason, (store.threads query.key).SealedAs query.generation reason →
    0 ≤ query.afterSequence → 1 ≤ query.limit ∧ query.limit ≤ 1000 →
    store.readCommittedMessages query =
      .error (reason.unavailable query.channel query.identity query.generation)
  /-- So does a wait. -/
  unwatched : ∀ wait reason, (store.threads wait.key).SealedAs wait.generation reason →
    store.waitForMessagingChange wait =
      .error (reason.unavailable wait.channel wait.identity wait.generation)
  /-- A finish leaves the tombstone of its generation and none of its records, for good. -/
  finished : ∀ observedAt (ledger : LedgerTransition) result after,
    ledger.kind = .finishGenerationCleanup →
    store.commit observedAt ledger.toMessagingTransition = .ok (result, after) →
    ∃ number reason, ledger.cleanupGeneration = some number ∧
      result.cleanupReason = some reason ∧ (store.threads ledger.key).SealedAs number reason ∧
      ∀ later, ((after.after later).threads ledger.key).tombstones number = some reason ∧
        ∀ live, ((after.after later).threads ledger.key).live = some live →
          live.stream.generation ≠ number
  /-- Once a generation is not live, finishing its cleanup changes nothing. -/
  finishedOnce : ∀ observedAt (ledger : LedgerTransition) number,
    ledger.kind = .finishGenerationCleanup → ledger.cleanupGeneration = some number →
    (∀ live, (store.threads ledger.key).live = some live → live.stream.generation ≠ number) →
    store.next (.commit observedAt ledger) = store

theorem StreamStore.Valid.cleanupSafe (valid : store.Valid) : store.CleanupSafe where
  bounded _ _ _ step := step.changesOnly valid
  begun observedAt ledger result after number kind committed claimed := by
    obtain ⟨effect, resolved, rfl, rfl⟩ := StreamStore.commit_eq_ok.mp committed
    obtain ⟨reason, given, sealed, origin⟩ := begin_decides valid kind resolved claimed
    exact ⟨reason, given, by simpa [StreamStore.apply] using sealed, origin⟩
  recorded key _ _ sealed :=
    ⟨fun _ other => other.unique (valid key) sealed, fun later => sealedAs_after valid sealed later⟩
  failed _ _ _ rejected := commit_reports valid rejected
  unread query reason sealed nonneg limited := by
    have reported := requireGeneration_reports (valid query.key) sealed query.channel query.identity
    simp [StreamStore.readCommittedMessages, require, nonneg, limited, reported, bind, Except.bind]
  unwatched wait reason sealed := by
    have reported := requireGeneration_reports (valid wait.key) sealed wait.channel wait.identity
    simp [StreamStore.waitForMessagingChange, reported, bind, Except.bind]
  finished observedAt ledger result after kind committed := by
    obtain ⟨effect, resolved, rfl, rfl⟩ := StreamStore.commit_eq_ok.mp committed
    obtain ⟨number, reason, claimed, -, given, tombstone, sealed⟩ :=
      finish_decides valid kind resolved
    have next : store.apply ledger.key effect = store.next (.commit observedAt ledger) :=
      (next_of_resolved resolved).symm
    refine ⟨number, reason, claimed, given, sealed, fun later => ?_⟩
    refine tombstone_after (next ▸ valid.next _) ?_ later
    simpa [StreamStore.apply] using tombstone
  finishedOnce _ _ _ kind claimed retired := finish_unchanged kind claimed retired

private def cleanupIdentity : RunIdentity := ⟨⟨"host", "thread"⟩, "run"⟩

private def cleanupPreparation : LedgerTransition where
  kind := .prepareRun
  transitionId := "owner"
  channel := "chat"
  identity := cleanupIdentity
  codecId := some "json"
  unselected := unselected_none

private def cleanupSettlement : LedgerTransition where
  kind := .finishRun
  transitionId := "finish"
  channel := "chat"
  identity := cleanupIdentity
  runReference := some
    { channel := "chat"
      identity := cleanupIdentity
      generation := 1
      producerToken := some "owner"
      producerFence := some 1 }
  finalStatus := some .completed
  unselected := nofun

private def cleanupClaim (worker : String) : LedgerTransition where
  kind := .beginGenerationCleanup
  transitionId := worker
  channel := "chat"
  identity := cleanupIdentity
  cleanupReason := some .deleted
  unselected := nofun

private def cleanupFinish : LedgerTransition where
  kind := .finishGenerationCleanup
  transitionId := "finish"
  channel := "chat"
  identity := cleanupIdentity
  cleanupGeneration := some 1
  cleanupReason := some .deleted
  unselected := nofun

end Tinkerfin.Messaging
