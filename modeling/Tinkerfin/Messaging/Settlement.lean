import Tinkerfin.Messaging.Fencing

/-!
# Cancellation, settlement and the publication gate

An accepted cancellation rules completion out, a settlement is claimed at most once under a fence,
and external publications pass only while the run is open.  Closing the gate is permanent; a claimed
settlement keeps it shut until another owner recovers the run under a newer fence.
-/

namespace Tinkerfin.Messaging

open Function (update)

variable {key : StreamKey} {thread after : StreamThread} {live next : Generation}
  {run changed : StoredMessagingRun} {runId : String} {store afterStore : StreamStore}
  {number : Nat} {observedAt : Nat} {state : MessagingStateSnapshot}
  {effect : MessagingStorageEffect} {ledger : LedgerTransition}
  {result : MessagingTransitionResult}

/-! ## Cancellation -/

/-- A run that can no longer complete. -/
def CannotComplete (run : StoredMessagingRun) : Prop :=
  run.status ≠ .running ∧ run.status ≠ .completed

theorem finishOutcome_cannotComplete {finalStatus : RunStatus} {failure : Option BaseException}
    (requested : run.status = .cancelRequested) (final : isFinalRunStatus finalStatus = true) :
    (finishOutcome run finalStatus failure).1 ≠ .running ∧
      (finishOutcome run finalStatus failure).1 ≠ .completed := by
  unfold finishOutcome
  split
  · exact ⟨nofun, nofun⟩
  · next other =>
      refine ⟨?_, fun completed => other ⟨requested, completed⟩⟩
      rintro rfl
      cases final

theorem RunStep.cannotComplete (step : RunStep key live runId run changed)
    (cancelled : CannotComplete run) : CannotComplete changed := by
  cases step with
  | kept | leaseExpired => exact cancelled
  | fenced => simp [CannotComplete, ownerLostRun]
  | rewritten _ _ change =>
    have unfinished := change.unfinished
    have requested : run.status = .cancelRequested := by
      cases status : run.status with
      | cancelRequested => rfl
      | running => exact absurd status cancelled.1
      | completed | cancelled | failed | ownerLost => simp [status, isFinalRunStatus] at unfinished
    cases change with
    | lost | reconciled => constructor <;> rintro ⟨⟩
    | recovered => simp [CannotComplete, recoveredRun, requested]
    | appended | settling => exact cancelled
    | finished _ _ _ final => exact finishOutcome_cannotComplete requested final
    | cancelled => exact ⟨by simp, by simp⟩

/-- A transition that accepts a cancellation stores it in the addressed run. -/
theorem cancellation_stored (valid : store.Valid)
    (committed : store.commit observedAt ledger.toMessagingTransition = .ok (result, afterStore))
    (accepted : result.cancellationRequestedByTransition = some true) :
    ∃ next run, (afterStore.threads ledger.key).live = some next ∧
      next.runs ledger.identity.runId = some run ∧ run.status = .cancelRequested := by
  obtain ⟨effect, rfl, step, -⟩ := commit_threadStep valid committed
  generalize afterStore.threads ledger.key = thread at step ⊢
  cases step with
  | quiet _ _ _ uncancelled => exact absurd accepted uncancelled
  | started | sealed | retired => cases accepted
  | @rewritten live run changed _ lookup active stored change =>
    have revised := change.revise_eq ((valid _).wellFormed _ lookup) stored
    refine ⟨_, changed, rfl, by rw [revised]; simp, ?_⟩
    cases change with
    | cancelled => rfl
    | lost | recovered | appended | settling | finished | reconciled => cases accepted

/-- A run whose cancellation was accepted never completes. -/
theorem cancelled_never_completes (valid : store.Valid)
    (committed : store.commit observedAt ledger.toMessagingTransition = .ok (result, afterStore))
    (accepted : result.cancellationRequestedByTransition = some true) (later : List StreamEvent) :
    ∃ live, (afterStore.threads ledger.key).live = some live ∧
      ((afterStore.after later).threads ledger.key).Holds live.stream.generation fun next =>
        next.RunHolds ledger.identity.runId fun run => run.status ≠ .completed := by
  have afterValid : afterStore.Valid := by
    have next := valid.next (.commit observedAt ledger)
    rwa [StreamStore.next, StreamStore.accepted_eq_some.mpr committed] at next
  obtain ⟨live, run, lookup, stored, requested⟩ := cancellation_stored valid committed accepted
  have holds : live.RunHolds ledger.identity.runId CannotComplete :=
    .inl ⟨run, stored, by simp [CannotComplete, requested]⟩
  refine ⟨live, lookup, fun next found same => ?_⟩
  rcases run_rule (fun _ _ _ _ _ _ step cancelled => step.cannotComplete cancelled) afterValid
      lookup rfl holds later next found same with ⟨changed, kept, cancelled⟩ | removed
  · exact .inl ⟨changed, kept, cancelled.2⟩
  · exact .inr removed

/-! ## Settlement -/

/-- A settlement claimed under the fence of a run's owner. -/
structure SettlementRecord where
  key : StreamKey
  generation : Nat
  runId : String
  fence : Nat
  deriving DecidableEq, Repr

/-- The settlement that one transition claims. -/
def StreamStore.settlement (store : StreamStore) (observedAt : Nat)
    (transition : MessagingTransition) : Option SettlementRecord :=
  if transition.kind = .beginSettlement then do
    let _ ← store.accepted observedAt transition
    let reference ← transition.runReference
    let fence ← reference.producerFence
    return ⟨transition.key, reference.generation, transition.identity.runId, fence⟩
  else
    none

/-- The settlement that one event claims. -/
def StreamStore.settlements (store : StreamStore) : StreamEvent → List SettlementRecord
  | .commit observedAt ledger => (store.settlement observedAt ledger.toMessagingTransition).toList
  | .environment .. => []

/-- Every settlement claimed along a run, oldest first. -/
abbrev StreamStore.settlementLog (store : StreamStore) (events : List StreamEvent) :
    List SettlementRecord :=
  Machine.log StreamStore.next StreamStore.settlements store events

/-- A run that has passed the settlement claimed under a fence. -/
def PastSettlement (fence : Nat) (run : StoredMessagingRun) : Prop :=
  fence < run.producerFence ∨ (run.producerFence = fence ∧ run.settlementStarted = true)

theorem RunStep.pastSettlement {fence : Nat} (wellFormed : live.WellFormed key)
    (stored : live.runs runId = some run) (step : RunStep key live runId run changed)
    (past : PastSettlement fence run) : PastSettlement fence changed := by
  have below := wellFormed.fenced _ _ stored
  have claimed : run.producerFence = changed.producerFence → changed.settlementStarted = true →
      PastSettlement fence changed := by
    intro same started
    rcases past with newer | ⟨own, -⟩
    · exact .inl (same ▸ newer)
    · exact .inr ⟨same.symm.trans own, started⟩
  cases step with
  | kept | leaseExpired => exact past
  | fenced => exact claimed rfl rfl
  | rewritten _ _ change =>
    cases change with
    | lost | settling | finished | reconciled => exact claimed rfl rfl
    | recovered =>
      refine .inl ?_
      rcases past with newer | ⟨own, -⟩
      · exact lt_trans newer below
      · exact own ▸ below
    | appended | cancelled => exact past

/-- What holds when a settlement is claimed. -/
structure SettlementRecord.Claims (record : SettlementRecord) (store after : StreamStore)
    (live next : Generation) (run changed : StoredMessagingRun) : Prop where
  lookup : (store.threads record.key).live = some live
  found : (after.threads record.key).live = some next
  generation : live.stream.generation = record.generation
  sameGeneration : next.stream.generation = record.generation
  stored : live.runs record.runId = some run
  unsettled : run.settlementStarted = false
  fence : run.producerFence = record.fence
  claimed : next.runs record.runId = some changed
  started : changed.settlementStarted = true
  sameFence : changed.producerFence = record.fence

theorem settlements_cases {record : SettlementRecord}
    (claimed : record ∈ store.settlements (.commit observedAt ledger)) :
    ledger.kind = .beginSettlement ∧ ∃ outcome reference fence,
      store.accepted observedAt ledger.toMessagingTransition = some outcome ∧
      ledger.runReference = some reference ∧ reference.producerFence = some fence ∧
      record = ⟨ledger.key, reference.generation, ledger.identity.runId, fence⟩ := by
  rw [StreamStore.settlements, Option.mem_toList, StreamStore.settlement] at claimed
  split at claimed
  · next kind =>
      simp only [Option.bind_eq_bind, Option.bind_eq_some_iff, Option.pure_def,
        Option.some.injEq] at claimed
      obtain ⟨outcome, accepted, reference, carried, fence, own, rfl⟩ := claimed
      exact ⟨kind, outcome, reference, fence, accepted, carried, own, rfl⟩
  · cases claimed

/-- A claimed settlement was unclaimed under its fence, and its result reports whether a
cancellation came first. -/
theorem settlement_step {thread : StreamThread} (valid : thread.Valid key)
    (kind : ledger.kind = .beginSettlement)
    (step : ThreadStep ledger.toMessagingTransition state thread effect after) :
    ∃ live run reference, thread.live = some live ∧ live.runs ledger.identity.runId = some run ∧
      Owned ledger.toMessagingTransition state run live.stream reference ∧
      run.settlementStarted = false ∧
      effect.result.cancellationPrecededSettlement =
        some (decide (run.status = .cancelRequested)) ∧
      after.live = some { live with
        runs := update live.runs ledger.identity.runId
          (some { run with settlementStarted := true }) } := by
  cases step with
  | quiet other => exact absurd kind other.1
  | started other | sealed other | retired other => cases kind.symm.trans other
  | @rewritten live run changed _ lookup active stored change =>
    have revised := change.revise_eq (valid.wellFormed _ lookup) stored
    cases change with
    | @settling reference _ owned unsettled running =>
      refine ⟨live, run, reference, lookup, stored, owned, unsettled, rfl, ?_⟩
      rw [revised]
      simp [settlingEffect]
    | lost other | recovered other | finished other | cancelled other | reconciled other =>
      cases kind.symm.trans other
    | appended other => rcases other with other | other <;> cases kind.symm.trans other

theorem settlements_claim (valid : store.Valid) {event : StreamEvent} {record : SettlementRecord}
    (claimed : record ∈ store.settlements event) :
    ∃ live next run changed, record.Claims store (store.next event) live next run changed := by
  cases event with
  | commit observedAt ledger =>
    obtain ⟨kind, ⟨result, afterStore⟩, reference, fence, accepted, carried, own, rfl⟩ :=
      settlements_cases claimed
    obtain ⟨effect, rfl, step, -⟩ :=
      commit_threadStep valid (StreamStore.accepted_eq_some.mp accepted)
    obtain ⟨live, run, other, lookup, stored, owned, unsettled, -, found⟩ :=
      settlement_step (valid _) kind step
    obtain rfl := Option.some.inj (carried.symm.trans owned.carried)
    have sameFence : run.producerFence = fence :=
      Option.some.inj ((referenceMatchesRun_iff.mp owned.matched).2.2.2.trans own)
    refine ⟨live,
      { live with
        runs := update live.runs ledger.identity.runId
          (some { run with settlementStarted := true }) },
      run, { run with settlementStarted := true },
      { lookup
        found := by rw [StreamStore.next, accepted]; exact found
        generation := owned.generation
        sameGeneration := owned.generation
        stored
        unsettled
        fence := sameFence
        claimed := by simp
        started := rfl
        sameFence }⟩
  | environment => cases claimed

/-- The stream of a settlement reached its generation, and the run has passed the settlement. -/
def SettlementRecord.ClaimedIn (record : SettlementRecord) (store : StreamStore) : Prop :=
  (store.threads record.key).Reached record.generation ∧
    (store.threads record.key).Holds record.generation fun live =>
      live.RunHolds record.runId (PastSettlement record.fence)

theorem SettlementRecord.ClaimedIn.step {record : SettlementRecord} (valid : store.Valid)
    (claimed : record.ClaimedIn store) (event : StreamEvent) :
    record.ClaimedIn (store.next event) :=
  generation_step_rule (fun _ _ wellFormed same step holds =>
    step.runHolds (fun _ _ _ wellFormed _ stored step past =>
      step.pastSettlement wellFormed stored past) wellFormed same holds)
    valid claimed.1 claimed.2 event

theorem settlements_claimed (valid : store.Valid) {event : StreamEvent} {record : SettlementRecord}
    (settled : record ∈ store.settlements event) : record.ClaimedIn (store.next event) := by
  obtain ⟨live, next, run, changed, claims⟩ := settlements_claim valid settled
  refine ⟨.inr ⟨next, claims.found, le_of_eq claims.sameGeneration.symm⟩, ?_⟩
  intro found again _
  obtain rfl := Option.some.inj (claims.found.symm.trans again)
  exact .inl ⟨changed, claims.claimed, .inr ⟨claims.sameFence, claims.started⟩⟩

theorem settlements_ne (valid : store.Valid) {event : StreamEvent} {older newer : SettlementRecord}
    (claimed : older.ClaimedIn store) (settled : newer ∈ store.settlements event) :
    older ≠ newer := by
  rintro rfl
  obtain ⟨live, next, run, changed, claims⟩ := settlements_claim valid settled
  rcases claimed.2 live claims.lookup claims.generation with ⟨other, again, past⟩ | ⟨absent, -⟩
  · obtain rfl := Option.some.inj (claims.stored.symm.trans again)
    rcases past with newer | ⟨-, started⟩
    · exact absurd claims.fence (ne_of_gt newer)
    · exact nomatch claims.unsettled.symm.trans started
  · exact nomatch absent.symm.trans claims.stored

theorem settlements_pairwise (store : StreamStore) (event : StreamEvent) :
    (store.settlements event).Pairwise (· ≠ ·) := by
  cases event with
  | commit observedAt ledger =>
    rw [StreamStore.settlements]
    cases store.settlement observedAt ledger.toMessagingTransition <;> simp
  | environment => exact .nil

private theorem claimed_reported (store : StreamStore) (event : StreamEvent)
    (record : SettlementRecord) (valid : store.Valid) (settled : record ∈ store.settlements event) :
    record.ClaimedIn (store.next event) := settlements_claimed valid settled

private theorem claimed_kept (store : StreamStore) (event : StreamEvent)
    (record : SettlementRecord) (valid : store.Valid) (claimed : record.ClaimedIn store) :
    record.ClaimedIn (store.next event) := claimed.step valid event

theorem settlementLog_pairwise (events : List StreamEvent) :
    (StreamStore.empty.settlementLog events).Pairwise (· ≠ ·) :=
  Machine.log_pairwise (fun _ event valid => valid.next event) claimed_reported claimed_kept
    (fun store event _ => settlements_pairwise store event)
    (fun _ _ _ _ valid claimed settled => settlements_ne valid claimed settled)
    StreamStore.empty_valid

/-- A cancellation request that finds the settlement claimed changes nothing. -/
theorem settling_cancellation (kind : ledger.kind = .requestCancellation)
    (lookup : (store.threads ledger.key).live = some live)
    (stored : live.runs ledger.identity.runId = some run) (settling : run.settlementStarted = true)
    (committed : store.commit observedAt ledger.toMessagingTransition = .ok (result, afterStore)) :
    afterStore = store ∧ result.cancellationRequestedByTransition = some false := by
  obtain ⟨effect, resolved, rfl, rfl⟩ := StreamStore.commit_eq_ok.mp committed
  simp only [resolveMessagingTransition, kind, resolveRequestCancellation, bind_eq_ok] at resolved
  obtain ⟨_, -, target, targetRun, stream, -, resolved⟩ := resolved
  obtain ⟨other, selected, again⟩ :=
    snapshot_targetRun_eq_some.mp (requiredTargetRun_eq_ok.mp targetRun)
  obtain rfl := Option.some.inj
    (lookup.symm.trans (StreamThread.selected_eq_some.mp selected).1)
  obtain rfl := Option.some.inj (stored.symm.trans again)
  rw [if_pos (.inr settling)] at resolved
  cases resolved
  exact ⟨StreamStore.apply_of_silent (statusEffect_silent rfl (by simp)), rfl⟩

/-! ## The publication gate -/

/-- A publication leaves the owner, the fence and the checkpoint of every run as they were. -/
theorem publication_keeps_owner (valid : store.Valid) (kind : ledger.kind = .publishMessage)
    (committed : store.commit observedAt ledger.toMessagingTransition = .ok (result, afterStore))
    (found : (afterStore.threads key).live = some next)
    (changedStored : next.runs runId = some changed) :
    ∃ live run, (store.threads key).live = some live ∧ live.runs runId = some run ∧
      changed.producerToken = run.producerToken ∧ changed.producerFence = run.producerFence ∧
      changed.checkpoint = run.checkpoint := by
  obtain ⟨effect, rfl, step, others⟩ := commit_threadStep valid committed
  by_cases same : key = ledger.key
  · subst same
    generalize afterStore.threads ledger.key = thread at step found
    cases step with
    | quiet => exact ⟨next, changed, found, changedStored, rfl, rfl, rfl⟩
    | started other | sealed other | retired other => cases kind.symm.trans other
    | @rewritten live run rewritten _ lookup active stored change =>
      obtain rfl := Option.some.inj found
      rw [change.revise_eq ((valid _).wellFormed _ lookup) stored] at changedStored
      by_cases addressed : runId = ledger.identity.runId
      · subst addressed
        obtain rfl : rewritten = changed := by simpa using changedStored
        refine ⟨live, run, lookup, stored, ?_⟩
        cases change with
        | appended _ target =>
          obtain ⟨-, -, -, -, external⟩ := appendTarget_eq_ok target
          exact ⟨rfl, rfl, by simp [appendedRun, (external kind).2.1]⟩
        | lost other | recovered other | settling other | finished other | cancelled other
        | reconciled other => cases kind.symm.trans other
      · exact ⟨live, changed, lookup, by simpa [addressed] using changedStored, rfl, rfl, rfl⟩
  · rw [others key same] at found
    exact ⟨next, changed, found, changedStored, rfl, rfl, rfl⟩

theorem RunStep.publicationClosed (step : RunStep key live runId run changed)
    (closed : run.publicationClosed = true) : changed.publicationClosed = true := by
  cases step with
  | kept | leaseExpired | fenced => exact closed
  | rewritten _ _ change =>
    cases change with
    | appended => simp [appendedRun, closed]
    | lost | recovered | settling | finished | cancelled | reconciled => exact closed

/-- An external publication of a run in a store. -/
structure PublishesTo (record : CommitRecord) (store : StreamStore) (event : StreamEvent)
    (key : StreamKey) (generation : Nat) (runId : String) : Prop where
  committed : record ∈ store.commitRecords event
  isExternal : record.isExternal = true
  key : record.key = key
  generation : record.reference.generation = generation
  runId : record.message.envelope.identity.runId = runId

theorem PublishesTo.publishable {record : CommitRecord} {event : StreamEvent} (valid : store.Valid)
    (publishes : PublishesTo record store event key number runId) :
    ∃ live run, (store.threads key).live = some live ∧ live.stream.generation = number ∧
      live.runs runId = some run ∧ Publishable run := by
  obtain ⟨live, next, run, changed, commits⟩ := commitRecords_commits valid publishes.committed
  obtain ⟨-, isExternal, rfl, rfl, rfl⟩ := publishes
  exact ⟨live, run, commits.lookup, commits.generation, commits.stored,
    (commits.published isExternal).1⟩

theorem closed_gate_stays_closed {record : CommitRecord} {event : StreamEvent}
    (valid : store.Valid) (lookup : (store.threads key).live = some live)
    (stored : live.runs runId = some run) (closed : run.publicationClosed = true)
    (later : List StreamEvent) :
    ¬PublishesTo record (store.after later) event key live.stream.generation runId := by
  intro publishes
  obtain ⟨next, open_, found, same, kept, publishable⟩ :=
    publishes.publishable (valid.after_events later)
  have holds : live.RunHolds runId fun run => run.publicationClosed = true :=
    .inl ⟨run, stored, closed⟩
  rcases run_rule (fun _ _ _ _ _ _ step closed => step.publicationClosed closed) valid lookup rfl
      holds later next found same with ⟨other, again, closed⟩ | ⟨absent, -⟩
  · obtain rfl := Option.some.inj (kept.symm.trans again)
    exact nomatch publishable.unclosed.symm.trans closed
  · exact nomatch absent.symm.trans kept

/-- Once a settlement is claimed, a publication is committed only under a newer fence. -/
theorem settling_gate_needs_recovery {record : CommitRecord} {event : StreamEvent}
    (valid : store.Valid) (lookup : (store.threads key).live = some live)
    (stored : live.runs runId = some run) (settling : run.settlementStarted = true)
    (later : List StreamEvent)
    (publishes : PublishesTo record (store.after later) event key live.stream.generation runId) :
    ∃ next changed, ((store.after later).threads key).live = some next ∧
      next.runs runId = some changed ∧ run.producerFence < changed.producerFence := by
  obtain ⟨next, changed, found, same, kept, publishable⟩ :=
    publishes.publishable (valid.after_events later)
  have holds : live.RunHolds runId (PastSettlement run.producerFence) :=
    .inl ⟨run, stored, .inr ⟨rfl, settling⟩⟩
  rcases run_rule (fun _ _ _ wellFormed _ stored step past =>
      step.pastSettlement wellFormed stored past) valid lookup rfl holds later next found same with
    ⟨other, again, newer | ⟨-, started⟩⟩ | ⟨absent, -⟩
  · obtain rfl := Option.some.inj (kept.symm.trans again)
    exact ⟨next, changed, found, kept, newer⟩
  · obtain rfl := Option.some.inj (kept.symm.trans again)
    exact nomatch publishable.unsettled.symm.trans started
  · exact nomatch absent.symm.trans kept

/-- In every reachable state: a run with an accepted cancellation never completes; a settlement is
claimed at most once under a fence and reports whether a cancellation came first; a cancellation
request after the claim changes nothing; a publication finds the run open and keeps its owner, fence
and checkpoint; a closed gate stays closed, and after a claimed settlement a publication needs a
newer fence. -/
theorem cancellation_settlement_gate (events : List StreamEvent) :
    (∀ observedAt (ledger : LedgerTransition) result after later,
        (StreamStore.empty.after events).commit observedAt ledger.toMessagingTransition =
          .ok (result, after) →
        result.cancellationRequestedByTransition = some true →
        ∃ live, (after.threads ledger.key).live = some live ∧
          ((after.after later).threads ledger.key).Holds live.stream.generation fun next =>
            next.RunHolds ledger.identity.runId fun run => run.status ≠ .completed) ∧
      (StreamStore.empty.settlementLog events).Pairwise (· ≠ ·) ∧
      (∀ observedAt (ledger : LedgerTransition) result after, ledger.kind = .beginSettlement →
        (StreamStore.empty.after events).commit observedAt ledger.toMessagingTransition =
          .ok (result, after) →
        ∃ live run, ((StreamStore.empty.after events).threads ledger.key).live = some live ∧
          live.runs ledger.identity.runId = some run ∧ run.settlementStarted = false ∧
          result.cancellationPrecededSettlement =
            some (decide (run.status = .cancelRequested))) ∧
      (∀ observedAt (ledger : LedgerTransition) live run result after,
        ledger.kind = .requestCancellation →
        ((StreamStore.empty.after events).threads ledger.key).live = some live →
        live.runs ledger.identity.runId = some run → run.settlementStarted = true →
        (StreamStore.empty.after events).commit observedAt ledger.toMessagingTransition =
          .ok (result, after) →
        after = StreamStore.empty.after events ∧
          result.cancellationRequestedByTransition = some false) ∧
      (∀ record event key number runId,
        PublishesTo record (StreamStore.empty.after events) event key number runId →
        ∃ live run, ((StreamStore.empty.after events).threads key).live = some live ∧
          live.stream.generation = number ∧ live.runs runId = some run ∧ Publishable run) ∧
      (∀ observedAt (ledger : LedgerTransition) result after key next runId changed,
        ledger.kind = .publishMessage →
        (StreamStore.empty.after events).commit observedAt ledger.toMessagingTransition =
          .ok (result, after) →
        (after.threads key).live = some next → next.runs runId = some changed →
        ∃ live run, ((StreamStore.empty.after events).threads key).live = some live ∧
          live.runs runId = some run ∧ changed.producerToken = run.producerToken ∧
          changed.producerFence = run.producerFence ∧ changed.checkpoint = run.checkpoint) ∧
      (∀ key live runId run, ((StreamStore.empty.after events).threads key).live = some live →
        live.runs runId = some run → ∀ later record event,
        PublishesTo record ((StreamStore.empty.after events).after later) event key
          live.stream.generation runId →
        run.publicationClosed = false ∧ (run.settlementStarted = true →
          ∃ next changed,
            (((StreamStore.empty.after events).after later).threads key).live = some next ∧
            next.runs runId = some changed ∧ run.producerFence < changed.producerFence)) := by
  have valid := StreamStore.empty_valid.after_events events
  refine ⟨fun _ _ _ _ later committed accepted =>
      cancelled_never_completes valid committed accepted later,
    settlementLog_pairwise events, ?_, fun _ _ _ _ _ _ kind lookup stored settling committed =>
      settling_cancellation kind lookup stored settling committed,
    fun _ _ _ _ _ publishes => publishes.publishable valid,
    fun _ _ _ _ _ _ _ _ kind committed found stored =>
      publication_keeps_owner valid kind committed found stored, ?_⟩
  · intro observedAt ledger result after kind committed
    obtain ⟨effect, rfl, step, -⟩ := commit_threadStep valid committed
    obtain ⟨live, run, _, lookup, stored, -, unsettled, reported, -⟩ :=
      settlement_step (valid _) kind step
    exact ⟨live, run, lookup, stored, unsettled, reported⟩
  · intro key live runId run lookup stored later record event publishes
    refine ⟨Bool.eq_false_iff.mpr fun closed => ?_, fun settling =>
      settling_gate_needs_recovery valid lookup stored settling later publishes⟩
    exact closed_gate_stays_closed valid lookup stored closed later publishes

private def gateIdentity : RunIdentity := ⟨⟨"host", "thread"⟩, "run"⟩

private def gateReference (token : String) (fence : Nat) : MessagingRunReference :=
  ⟨"chat", gateIdentity, 1, some token, some fence⟩

/-- Prepare a recoverable and cancellable run. -/
private def gatePreparation (token : String) : LedgerTransition where
  kind := .prepareRun
  transitionId := token
  channel := "chat"
  identity := gateIdentity
  codecId := some "json"
  cancellable := true
  recoverable := true
  unselected := unselected_none

private def gateCancellation : LedgerTransition where
  kind := .requestCancellation
  transitionId := "cancel"
  channel := "chat"
  identity := gateIdentity
  unselected := nofun

private def gateSettlement : LedgerTransition where
  kind := .beginSettlement
  transitionId := "settle"
  channel := "chat"
  identity := gateIdentity
  runReference := some (gateReference "first" 1)
  unselected := nofun

private def gateAppend : LedgerTransition where
  kind := .appendMessage
  transitionId := "append"
  channel := "chat"
  identity := gateIdentity
  runReference := some (gateReference "first" 1)
  codecId := some "json"
  messageId := some "started"
  payload := some []
  unselected := nofun

private def gatePublication : LedgerTransition where
  kind := .publishMessage
  transitionId := "publish"
  channel := "chat"
  identity := gateIdentity
  runReference := some (gateReference "observer" 1)
  codecId := some "json"
  messageId := some "external"
  payload := some []
  unselected := nofun

/-- A settlement is claimed after an accepted cancellation, and a publication is committed after a
claimed settlement once another owner recovered the run. -/
theorem settlement_after_cancellation :
    ¬((∀ events (cancellation settlement : LedgerTransition),
        ((StreamStore.empty.after events).accepted 0 cancellation.toMessagingTransition).bind
          (fun outcome => outcome.1.cancellationRequestedByTransition) = some true →
        settlement.key = cancellation.key →
        settlement.identity.runId = cancellation.identity.runId →
        (StreamStore.empty.after (events ++ [.commit 0 cancellation])).settlements
          (.commit 0 settlement) = []) ∨
      ∀ events settlement later publication record, record ∈
        (StreamStore.empty.after events).settlements (.commit 0 settlement) →
        ∀ published ∈ (StreamStore.empty.after (events ++ .commit 0 settlement ::
          later)).commitRecords (.commit 0 publication), published.isExternal = true →
        published.key = record.key → published.reference.generation = record.generation →
        published.message.envelope.identity.runId ≠ record.runId) := by
  rintro (unclaimed | unpublished)
  · have claimed : (StreamStore.empty.after ([.commit 0 (gatePreparation "first")] ++
        [.commit 0 gateCancellation])).settlements (.commit 0 gateSettlement) ≠ [] := by
      decide +kernel
    exact claimed (unclaimed [.commit 0 (gatePreparation "first")] gateCancellation gateSettlement
      (by decide +kernel) rfl rfl)
  · have settled : ⟨gateSettlement.key, 1, "run", 1⟩ ∈ (StreamStore.empty.after
        [.commit 0 (gatePreparation "first"), .commit 0 gateAppend]).settlements
          (.commit 0 gateSettlement) := by
      decide +kernel
    have published : ∃ published ∈ (StreamStore.empty.after
        ([.commit 0 (gatePreparation "first"), .commit 0 gateAppend] ++
          .commit 0 gateSettlement :: [.environment gateSettlement.key (.expireLease "run"),
            .commit 0 (gatePreparation "second")])).commitRecords (.commit 0 gatePublication),
        published.isExternal = true ∧ published.key = gateSettlement.key ∧
          published.reference.generation = 1 ∧
          published.message.envelope.identity.runId = "run" := by
      decide +kernel
    obtain ⟨published, member, isExternal, sameKey, generation, sameRun⟩ := published
    exact unpublished _ _ _ _ _ settled published member isExternal sameKey generation sameRun

end Tinkerfin.Messaging
