import Tinkerfin.Messaging.Transition

/-!
# What a resolved transition stores

`Resolved` lists every effect that `resolveMessagingTransition` can return together with the checks
that lead to it, and `resolve_cases` inverts the resolver once for all later modules.
-/

namespace Tinkerfin.Messaging

variable {transition : MessagingTransition} {state : MessagingStateSnapshot}

/-! ## Shared checks -/

theorem raiseReferenceTombstone_bind_ne_ok {α : Type} {generation : Option Nat}
    {error : MessagingError} {value : α} :
    (raiseReferenceTombstone transition state generation >>= fun _ => Except.error error) ≠
      .ok value := by
  intro accepted
  obtain ⟨_, _, impossible⟩ := bind_eq_ok.mp accepted
  cases impossible

theorem requiredTargetRun_eq_ok {run : StoredMessagingRun} :
    requiredTargetRun transition state = .ok run ↔ state.targetRun = some run := by
  unfold requiredTargetRun
  cases state.targetRun with
  | none => simp only [raiseReferenceTombstone_bind_ne_ok, reduceCtorEq]
  | some stored => simp only [Except.ok.injEq, Option.some.injEq]

theorem requiredStream_eq_ok {stream : StoredMessagingStream} :
    requiredStream transition state = .ok stream ↔
      state.stream = some stream ∧ stream.disposition = .active := by
  unfold requiredStream
  cases state.stream with
  | none => simp only [raiseReferenceTombstone_bind_ne_ok, reduceCtorEq, false_and]
  | some stored =>
    simp only [Option.some.injEq]
    split
    · next active =>
        constructor
        · intro accepted
          cases accepted
          exact ⟨rfl, active⟩
        · rintro ⟨rfl, -⟩
          rfl
    · next sealed =>
        constructor
        · intro accepted
          cases accepted
        · rintro ⟨rfl, active⟩
          exact absurd active sealed

theorem requiredReference_eq_ok {reference : MessagingRunReference} :
    requiredReference transition = .ok reference ↔
      transition.runReference = some reference ∧
        (reference.channel = transition.channel ∧ reference.identity = transition.identity) ∧
        (reference.producerToken.isSome ∧ reference.producerFence.isSome) := by
  unfold requiredReference
  cases transition.runReference with
  | none => simp
  | some stored =>
    simp only [bind_eq_ok, require_eq_ok, pure, Except.pure, Except.ok.injEq, Option.some.injEq]
    constructor
    · rintro ⟨_, same, _, evidence, rfl⟩
      exact ⟨rfl, same, evidence⟩
    · rintro ⟨rfl, same, evidence⟩
      exact ⟨(), same, (), evidence, rfl⟩

theorem referenceMatchesRun_iff {reference : MessagingRunReference} {run : StoredMessagingRun} :
    referenceMatchesRun reference run = true ↔
      run.generation = reference.generation ∧ run.identity = reference.identity ∧
        run.producerToken = reference.producerToken ∧
        some run.producerFence = reference.producerFence := by
  simp [referenceMatchesRun]

/-- Evidence that a transition is carried out by the live owner of a run. -/
structure Owned (transition : MessagingTransition) (state : MessagingStateSnapshot)
    (run : StoredMessagingRun) (stream : StoredMessagingStream)
    (reference : MessagingRunReference) : Prop where
  carried : transition.runReference = some reference
  addressed : reference.channel = transition.channel ∧ reference.identity = transition.identity
  evidence : reference.producerToken.isSome ∧ reference.producerFence.isSome
  target : state.targetRun = some run
  found : state.stream = some stream
  active : stream.disposition = .active
  generation : stream.generation = reference.generation
  matched : referenceMatchesRun reference run = true
  leased : run.producerLeaseActive = true
  unfinished : isFinalRunStatus run.status = false

theorem ownedRun_eq_ok {run : StoredMessagingRun} {stream : StoredMessagingStream}
    {reference : MessagingRunReference} :
    ownedRun transition state = .ok (run, stream, reference) ↔
      Owned transition state run stream reference := by
  simp only [ownedRun, bind_eq_ok]
  constructor
  · rintro ⟨_, carried, _, target, _, found, accepted⟩
    obtain ⟨carried, addressed, evidence⟩ := requiredReference_eq_ok.mp carried
    obtain ⟨found, active⟩ := requiredStream_eq_ok.mp found
    split at accepted
    · exact absurd accepted raiseReferenceTombstone_bind_ne_ok
    · next generation =>
        simp only [bind_eq_ok, require_eq_ok, pure, Except.pure, Except.ok.injEq,
          Prod.mk.injEq] at accepted
        obtain ⟨_, ⟨matched, leased⟩, _, unfinished, rfl, rfl, rfl⟩ := accepted
        exact
          { carried
            addressed
            evidence
            target := requiredTargetRun_eq_ok.mp target
            found
            active
            generation := not_not.mp generation
            matched
            leased
            unfinished }
  · intro owned
    refine ⟨reference,
      requiredReference_eq_ok.mpr ⟨owned.carried, owned.addressed, owned.evidence⟩,
      run, requiredTargetRun_eq_ok.mpr owned.target,
      stream, requiredStream_eq_ok.mpr ⟨owned.found, owned.active⟩, ?_⟩
    rw [if_neg (not_not.mpr owned.generation)]
    simp only [bind_eq_ok, require_eq_ok, pure, Except.pure]
    exact ⟨(), ⟨owned.matched, owned.leased⟩, (), owned.unfinished, trivial⟩

/-- A run that accepts a new external publication. -/
structure Publishable (run : StoredMessagingRun) : Prop where
  running : run.status = .running
  unsettled : run.settlementStarted = false
  unclosed : run.publicationClosed = false
  leased : run.producerLeaseActive = true
  ready : run.publicationReady = true

theorem requirePublishable_eq_ok {run : StoredMessagingRun} :
    requirePublishable transition run = .ok () ↔
      (transition.kind = .publishMessage → Publishable run) := by
  unfold requirePublishable
  split
  · next publishing =>
      simp only [bind_eq_ok, require_eq_ok, publishing, forall_const]
      constructor
      · rintro ⟨_, ⟨running, unsettled, unclosed⟩, _, leased, ready⟩
        exact ⟨running, unsettled, unclosed, leased, ready⟩
      · rintro ⟨running, unsettled, unclosed, leased, ready⟩
        exact ⟨(), ⟨running, unsettled, unclosed⟩, (), leased, ready⟩
  · next other => simp [other]

/-! ## The effects of a transition -/

/-- Intermediate values of an accepted preparation. -/
structure Prepared (transition : MessagingTransition) (state : MessagingStateSnapshot)
    (channel : Option StoredMessagingChannel) (stream : StoredMessagingStream) (cursor : Int) :
    Prop where
  kind : transition.kind = .prepareRun
  channelChecked : ∃ codecId, requiredText "codec_id" transition.codecId = .ok codecId ∧
    prepareChannel transition state codecId = .ok channel
  streamChosen : prepareStream transition state = .ok stream
  cursorChecked : prepareCursor transition stream = .ok cursor

/-- The run a preparation found without a live owner. -/
structure Orphaned (state : MessagingStateSnapshot) (stream : StoredMessagingStream)
    (run : StoredMessagingRun) : Prop where
  target : state.targetRun = some run
  generation : run.generation = stream.generation
  unfinished : isFinalRunStatus run.status = false
  expired : run.producerLeaseActive = false

/-- An effect without any durable replacement. -/
structure MessagingStorageEffect.Silent (effect : MessagingStorageEffect) : Prop where
  channel : effect.channel = none
  stream : effect.stream = none
  runs : effect.runs = []
  message : effect.message = none
  retention : effect.retentionAction = .none
  tombstone : effect.tombstoneReason = none
  unowned : effect.result.isProducerOwner = none
  uncancelled : effect.result.cancellationRequestedByTransition ≠ some true

/-- Kinds whose effect may store nothing. -/
def MessagingTransitionKind.mayBeSilent : MessagingTransitionKind → Bool
  | .prepareRun | .appendMessage | .publishMessage | .beginSettlement | .finishRun => false
  | .requestCancellation | .renewProducerOwnership | .reconcileProducerOwnership
  | .beginGenerationCleanup | .finishGenerationCleanup => true

/-- Every effect of a resolved transition, with the checks that lead to it. -/
inductive Resolved (transition : MessagingTransition) (state : MessagingStateSnapshot) :
    MessagingStorageEffect → Prop
  | silent {effect : MessagingStorageEffect} (kind : transition.kind.mayBeSilent = true)
      (nothing : effect.Silent) : Resolved transition state effect
  | attached {channel : Option StoredMessagingChannel} {stream : StoredMessagingStream}
      {cursor : Int} {run : StoredMessagingRun}
      (prepared : Prepared transition state channel stream cursor)
      (target : state.targetRun = some run) (generation : run.generation = stream.generation)
      (settled : isFinalRunStatus run.status = true ∨ run.producerLeaseActive = true) :
      Resolved transition state (preparedAttachment transition stream cursor channel)
  | lost {channel : Option StoredMessagingChannel} {stream : StoredMessagingStream}
      {cursor : Int} {run : StoredMessagingRun} {message : String}
      (prepared : Prepared transition state channel stream cursor)
      (orphaned : Orphaned state stream run)
      (unrecovered : (run.status = .cancelRequested ∧ run.settlementStarted = true) ∨
        ¬(run.recoverable = true ∧ transition.recoverable = true)) :
      Resolved transition state (preparedLoss transition stream cursor channel run message)
  | recovered {channel : Option StoredMessagingChannel} {stream : StoredMessagingStream}
      {cursor : Int} {run : StoredMessagingRun}
      (prepared : Prepared transition state channel stream cursor)
      (orphaned : Orphaned state stream run)
      (unsettled : ¬(run.status = .cancelRequested ∧ run.settlementStarted = true))
      (recoverable : run.recoverable = true ∧ transition.recoverable = true) :
      Resolved transition state (preparedRecovery transition stream cursor channel run)
  | started {channel : Option StoredMessagingChannel} {stream : StoredMessagingStream}
      {cursor : Int} {superseded : Option StoredMessagingRun}
      (prepared : Prepared transition state channel stream cursor)
      (absent : state.targetRun = none) (active : state.activeRun = superseded)
      (expired : ∀ run ∈ superseded, run.producerLeaseActive = false) :
      Resolved transition state (preparedStart transition stream cursor channel superseded)
  | retried {run : StoredMessagingRun} {stream : StoredMessagingStream} {message : ValidMessage}
      {existing : StoredMessageEvidence}
      (kind : transition.kind = .appendMessage ∨ transition.kind = .publishMessage)
      (target : appendTarget transition state = .ok (run, stream))
      (valid : validateMessage transition state = .ok message)
      (found : state.matchingMessage = some existing)
      (same : existing.signature = message.signature) :
      Resolved transition state (retriedEffect transition run existing)
  | appended {run : StoredMessagingRun} {stream : StoredMessagingStream} {message : ValidMessage}
      (kind : transition.kind = .appendMessage ∨ transition.kind = .publishMessage)
      (target : appendTarget transition state = .ok (run, stream))
      (valid : validateMessage transition state = .ok message)
      (fresh : state.matchingMessage = none)
      (publishable : requirePublishable transition run = .ok ())
      (room : requireThreadRoom transition stream message = .ok ()) :
      Resolved transition state (appendedEffect transition state.observedAt run stream message)
  | settling {run : StoredMessagingRun} {stream : StoredMessagingStream}
      {reference : MessagingRunReference}
      (kind : transition.kind = .beginSettlement)
      (owned : Owned transition state run stream reference)
      (unsettled : run.settlementStarted = false)
      (running : run.status = .running ∨ run.status = .cancelRequested) :
      Resolved transition state (settlingEffect transition run)
  | finished {run : StoredMessagingRun} {stream : StoredMessagingStream}
      {reference : MessagingRunReference} {finalStatus : RunStatus}
      (kind : transition.kind = .finishRun)
      (owned : Owned transition state run stream reference)
      (requested : transition.finalStatus = some finalStatus)
      (final : isFinalRunStatus finalStatus = true) :
      Resolved transition state (finishedEffect transition stream run
        (finishOutcome run finalStatus transition.failure))
  | cancelled {run : StoredMessagingRun} {stream : StoredMessagingStream}
      (kind : transition.kind = .requestCancellation)
      (target : state.targetRun = some run)
      (found : state.stream = some stream) (active : stream.disposition = .active)
      (unsettled : run.settlementStarted = false) (cancellable : run.cancellable = true)
      (running : run.status = .running) :
      Resolved transition state (cancelledEffect transition stream run)
  | reconciled {run : StoredMessagingRun} {stream : StoredMessagingStream}
      (kind : transition.kind = .reconcileProducerOwnership)
      (target : state.targetRun = some run)
      (found : state.stream = some stream) (active : stream.disposition = .active)
      (unfinished : isFinalRunStatus run.status = false)
      (expired : run.producerLeaseActive = false) :
      Resolved transition state (reconciledEffect transition stream run)
  | sealed {stream : StoredMessagingStream} {reason : MessagingCleanupReason}
      {owner : Option StoredMessagingRun}
      (kind : transition.kind = .beginGenerationCleanup)
      (requested : transition.cleanupReason = some reason)
      (found : state.stream = some stream) (active : stream.disposition = .active)
      (fenced : sealedOwner transition state stream = .ok owner)
      (due : ¬(reason = .expired ∧ stream.retentionExpired = false)) :
      Resolved transition state (sealedEffect transition stream reason owner)
  | retired {stream : StoredMessagingStream} {reason : MessagingCleanupReason}
      {generation : Nat}
      (kind : transition.kind = .finishGenerationCleanup)
      (requested : transition.cleanupReason = some reason)
      (claimed : transition.cleanupGeneration = some generation)
      (found : state.stream = some stream) (same : stream.generation = generation)
      (closing : stream.disposition = reason.sealing) :
      Resolved transition state (retiredEffect transition stream generation reason)

/-! ## Inversion of the resolver -/

variable {effect : MessagingStorageEffect}

theorem statusEffect_silent {result : MessagingTransitionResult}
    (unowned : result.isProducerOwner = none)
    (uncancelled : result.cancellationRequestedByTransition ≠ some true) :
    (statusEffect result).Silent :=
  ⟨rfl, rfl, rfl, rfl, rfl, rfl, unowned, uncancelled⟩

private theorem resolvePrepareRun_cases (kind : transition.kind = .prepareRun)
    (resolved : resolvePrepareRun transition state = .ok effect) :
    Resolved transition state effect := by
  simp only [resolvePrepareRun, bind_eq_ok] at resolved
  obtain ⟨codecId, codec, channel, checked, stream, chosen, cursor, cursorChecked, resolved⟩ :=
    resolved
  have prepared : Prepared transition state channel stream cursor :=
    ⟨kind, ⟨codecId, codec, checked⟩, chosen, cursorChecked⟩
  cases target : state.targetRun with
  | some run =>
    simp only [target, prepareTarget, bind_eq_ok, require_eq_ok, pure, Except.pure,
      Except.ok.injEq] at resolved
    obtain ⟨_, generation, rfl⟩ := resolved
    split
    · next settled => exact .attached prepared target generation settled
    · next open_ =>
        have orphaned : Orphaned state stream run :=
          { target, generation, unfinished := by simp_all, expired := by simp_all }
        split
        · next settling => exact .lost prepared orphaned (.inl settling)
        · next unsettled =>
            split
            · next recoverable => exact .recovered prepared orphaned unsettled recoverable
            · next unrecoverable => exact .lost prepared orphaned (.inr unrecoverable)
  | none =>
    cases active : state.activeRun with
    | none =>
      simp only [target, active, pure, Except.pure, Except.ok.injEq] at resolved
      subst resolved
      exact .started prepared target active (by simp)
    | some run =>
      simp only [target, active, bind_eq_ok, require_eq_ok, pure, Except.pure,
        Except.ok.injEq] at resolved
      obtain ⟨_, expired, rfl⟩ := resolved
      exact .started prepared target active (by simpa using expired)

private theorem resolveAppendMessage_cases
    (kind : transition.kind = .appendMessage ∨ transition.kind = .publishMessage)
    (resolved : resolveAppendMessage transition state = .ok effect) :
    Resolved transition state effect := by
  simp only [resolveAppendMessage, bind_eq_ok] at resolved
  obtain ⟨⟨run, stream⟩, target, message, valid, resolved⟩ := resolved
  cases matching : state.matchingMessage with
  | some existing =>
    simp only [matching, bind_eq_ok, require_eq_ok, pure, Except.pure,
      Except.ok.injEq] at resolved
    obtain ⟨_, same, rfl⟩ := resolved
    exact .retried kind target valid matching same
  | none =>
    simp only [matching, bind_eq_ok, pure, Except.pure, Except.ok.injEq] at resolved
    obtain ⟨_, publishable, _, room, rfl⟩ := resolved
    exact .appended kind target valid matching publishable room

private theorem resolveBeginSettlement_cases (kind : transition.kind = .beginSettlement)
    (resolved : resolveBeginSettlement transition state = .ok effect) :
    Resolved transition state effect := by
  simp only [resolveBeginSettlement, bind_eq_ok, require_eq_ok, pure, Except.pure,
    Except.ok.injEq] at resolved
  obtain ⟨⟨run, stream, reference⟩, owned, _, ⟨unsettled, running⟩, rfl⟩ := resolved
  exact .settling kind (ownedRun_eq_ok.mp owned) unsettled running

private theorem resolveFinishRun_cases (kind : transition.kind = .finishRun)
    (resolved : resolveFinishRun transition state = .ok effect) :
    Resolved transition state effect := by
  simp only [resolveFinishRun, bind_eq_ok] at resolved
  obtain ⟨⟨run, stream, reference⟩, owned, resolved⟩ := resolved
  cases requested : transition.finalStatus with
  | none => simp [requested] at resolved
  | some finalStatus =>
    simp only [requested, bind_eq_ok, require_eq_ok, pure, Except.pure,
      Except.ok.injEq] at resolved
    obtain ⟨_, final, rfl⟩ := resolved
    exact .finished kind (ownedRun_eq_ok.mp owned) requested final

private theorem resolveRequestCancellation_cases (kind : transition.kind = .requestCancellation)
    (resolved : resolveRequestCancellation transition state = .ok effect) :
    Resolved transition state effect := by
  have quiet : transition.kind.mayBeSilent = true := by rw [kind]; rfl
  simp only [resolveRequestCancellation, bind_eq_ok] at resolved
  obtain ⟨run, target, stream, found, resolved⟩ := resolved
  obtain ⟨found, active⟩ := requiredStream_eq_ok.mp found
  split at resolved
  · cases resolved
    exact .silent quiet (statusEffect_silent rfl (by simp))
  · next unsettled =>
      simp only [bind_eq_ok, require_eq_ok] at resolved
      obtain ⟨_, cancellable, resolved⟩ := resolved
      split at resolved
      · cases resolved
        exact .silent quiet (statusEffect_silent rfl (by simp))
      · simp only [bind_eq_ok, require_eq_ok, pure, Except.pure, Except.ok.injEq] at resolved
        obtain ⟨_, running, rfl⟩ := resolved
        exact .cancelled kind (requiredTargetRun_eq_ok.mp target) found active
          (by simp_all) cancellable running

private theorem resolveRenewProducerOwnership_cases
    (kind : transition.kind = .renewProducerOwnership)
    (resolved : resolveRenewProducerOwnership transition state = .ok effect) :
    Resolved transition state effect := by
  have quiet : transition.kind.mayBeSilent = true := by rw [kind]; rfl
  simp only [resolveRenewProducerOwnership, bind_eq_ok] at resolved
  obtain ⟨reference, _, resolved⟩ := resolved
  cases target : state.targetRun with
  | none =>
    simp only [target, bind_eq_ok, pure, Except.pure, Except.ok.injEq] at resolved
    obtain ⟨_, _, rfl⟩ := resolved
    exact .silent quiet (statusEffect_silent rfl nofun)
  | some run =>
    simp only [target, pure, Except.pure, Except.ok.injEq] at resolved
    subst resolved
    split
    · exact .silent quiet (statusEffect_silent rfl nofun)
    · split
      · exact .silent quiet (statusEffect_silent rfl nofun)
      · exact .silent quiet ⟨rfl, rfl, rfl, rfl, rfl, rfl, rfl, nofun⟩

private theorem resolveReconcileProducerOwnership_cases
    (kind : transition.kind = .reconcileProducerOwnership)
    (resolved : resolveReconcileProducerOwnership transition state = .ok effect) :
    Resolved transition state effect := by
  have quiet : transition.kind.mayBeSilent = true := by rw [kind]; rfl
  simp only [resolveReconcileProducerOwnership, bind_eq_ok, pure, Except.pure,
    Except.ok.injEq] at resolved
  obtain ⟨run, target, stream, found, _, _, rfl⟩ := resolved
  obtain ⟨found, active⟩ := requiredStream_eq_ok.mp found
  split
  · exact .silent quiet (statusEffect_silent rfl nofun)
  · next open_ =>
      exact .reconciled kind (requiredTargetRun_eq_ok.mp target) found active
        (by simp_all) (by simp_all)

private theorem resolveBeginGenerationCleanup_cases
    (kind : transition.kind = .beginGenerationCleanup)
    (resolved : resolveBeginGenerationCleanup transition state = .ok effect) :
    Resolved transition state effect := by
  have quiet : transition.kind.mayBeSilent = true := by rw [kind]; rfl
  unfold resolveBeginGenerationCleanup at resolved
  cases requested : transition.cleanupReason with
  | none => simp [requested] at resolved
  | some reason =>
    cases found : state.stream with
    | none =>
      simp only [requested, found, bind_eq_ok, pure, Except.pure, Except.ok.injEq] at resolved
      obtain ⟨_, _, rfl⟩ := resolved
      exact .silent quiet (statusEffect_silent rfl (by simp))
    | some stream =>
      cases disposition : stream.disposition with
      | active =>
        simp only [requested, found, disposition, bind_eq_ok, pure, Except.pure,
          Except.ok.injEq] at resolved
        obtain ⟨owner, fenced, rfl⟩ := resolved
        split
        · exact .silent quiet (statusEffect_silent rfl (by simp))
        · next due => exact .sealed kind requested found disposition fenced due
      | deleting | deleted | expiring | expired =>
        simp only [requested, found, disposition, Except.ok.injEq] at resolved
        subst resolved
        exact .silent quiet (statusEffect_silent rfl (by simp))

private theorem resolveFinishGenerationCleanup_cases
    (kind : transition.kind = .finishGenerationCleanup)
    (resolved : resolveFinishGenerationCleanup transition state = .ok effect) :
    Resolved transition state effect := by
  have quiet : transition.kind.mayBeSilent = true := by rw [kind]; rfl
  unfold resolveFinishGenerationCleanup at resolved
  cases requested : transition.cleanupReason with
  | none => simp [requested] at resolved
  | some reason =>
    cases claimed : transition.cleanupGeneration with
    | none => simp [requested, claimed] at resolved
    | some generation =>
      simp only [requested, claimed, bind_eq_ok, require_eq_ok] at resolved
      obtain ⟨_, _, resolved⟩ := resolved
      cases found : state.stream with
      | none =>
        simp only [found] at resolved
        split at resolved
        · cases resolved
          exact .silent quiet (statusEffect_silent rfl nofun)
        · split at resolved <;> cases resolved
      | some stream =>
        simp only [found, bind_eq_ok, require_eq_ok] at resolved
        obtain ⟨_, same, resolved⟩ := resolved
        split at resolved
        · cases resolved
          exact .silent quiet (statusEffect_silent rfl nofun)
        · simp only [bind_eq_ok, require_eq_ok, pure, Except.pure,
            Except.ok.injEq] at resolved
          obtain ⟨_, closing, rfl⟩ := resolved
          exact .retired kind requested claimed found same closing

/-- Every resolved transition returns one of the listed effects after the listed checks. -/
theorem resolve_cases (resolved : resolveMessagingTransition transition state = .ok effect) :
    Resolved transition state effect := by
  simp only [resolveMessagingTransition, bind_eq_ok] at resolved
  obtain ⟨_, _, resolved⟩ := resolved
  cases kind : transition.kind with
  | prepareRun => exact resolvePrepareRun_cases kind (by simpa only [kind] using resolved)
  | appendMessage =>
    exact resolveAppendMessage_cases (.inl kind) (by simpa only [kind] using resolved)
  | publishMessage =>
    exact resolveAppendMessage_cases (.inr kind) (by simpa only [kind] using resolved)
  | beginSettlement =>
    exact resolveBeginSettlement_cases kind (by simpa only [kind] using resolved)
  | finishRun => exact resolveFinishRun_cases kind (by simpa only [kind] using resolved)
  | requestCancellation =>
    exact resolveRequestCancellation_cases kind (by simpa only [kind] using resolved)
  | renewProducerOwnership =>
    exact resolveRenewProducerOwnership_cases kind (by simpa only [kind] using resolved)
  | reconcileProducerOwnership =>
    exact resolveReconcileProducerOwnership_cases kind (by simpa only [kind] using resolved)
  | beginGenerationCleanup =>
    exact resolveBeginGenerationCleanup_cases kind (by simpa only [kind] using resolved)
  | finishGenerationCleanup =>
    exact resolveFinishGenerationCleanup_cases kind (by simpa only [kind] using resolved)

end Tinkerfin.Messaging
