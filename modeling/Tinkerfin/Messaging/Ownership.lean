import Tinkerfin.Messaging.StoreRules

/-!
# Ownership of runs

A generation has at most one unfinished run, the one its stream record names.  Fences handed to
successive owners of a generation increase, a finished run never changes, and the owner check
accepts at most one reference of a stream.
-/

namespace Tinkerfin.Messaging

open Function (update)

variable {key : StreamKey} {thread after : StreamThread} {live next : Generation}
  {run changed : StoredMessagingRun} {runId : String} {store : StreamStore} {number : Nat}
  {transition : MessagingTransition} {observedAt : Nat}

/-! ## Grants -/

/-- Producer ownership handed out by one preparation. -/
structure OwnerGrant where
  key : StreamKey
  generation : Nat
  runId : String
  token : String
  fence : Nat
  deriving DecidableEq, Repr

/-- The ownership a transition result hands to its caller. -/
def MessagingTransitionResult.grant (result : MessagingTransitionResult) : Option OwnerGrant :=
  if result.isProducerOwner = some true then do
    let reference ← result.runReference
    let token ← reference.producerToken
    let fence ← reference.producerFence
    return {
      key := ⟨reference.channel, threadKey reference.identity⟩
      generation := reference.generation
      runId := reference.identity.runId
      token
      fence }
  else
    none

/-- The ownership handed out by one event. -/
def StreamStore.grants (store : StreamStore) : StreamEvent → List OwnerGrant
  | .commit observedAt ledger =>
    ((store.accepted observedAt ledger.toMessagingTransition).bind fun outcome =>
      outcome.1.grant).toList
  | .environment .. => []

/-- Every grant along a run, oldest first. -/
abbrev StreamStore.grantLog (store : StreamStore) (events : List StreamEvent) : List OwnerGrant :=
  Machine.log StreamStore.next StreamStore.grants store events

theorem grant_of_unowned {result : MessagingTransitionResult}
    (unowned : result.isProducerOwner ≠ some true) : result.grant = none := by
  simp [MessagingTransitionResult.grant, unowned]

theorem ownerResult_grant {stream : StoredMessagingStream} {cursor : Int} {recovered : Bool}
    {checkpoint : Option RecoveryCheckpoint} {status : RunStatus} :
    (ownerResult transition stream cursor recovered checkpoint status).grant =
      some
        { key := transition.key
          generation := stream.generation
          runId := transition.identity.runId
          token := transition.transitionId
          fence := stream.nextProducerFence } := rfl

/-- A grant takes the next fence of the prepared generation and stores the owner. -/
structure Granted (thread after : StreamThread) (transition : MessagingTransition)
    (grant : OwnerGrant) : Prop where
  key : grant.key = transition.key
  step : ∃ base next run, thread.Opens transition base ∧ after.live = some next ∧
    base.stream.generation = grant.generation ∧ next.stream.generation = grant.generation ∧
    base.stream.nextProducerFence = grant.fence ∧
    next.stream.nextProducerFence = grant.fence + 1 ∧
    next.runs grant.runId = some run ∧ run.producerToken = some grant.token ∧
    run.producerFence = grant.fence

theorem ThreadStep.granted {state : MessagingStateSnapshot} {effect : MessagingStorageEffect}
    {grant : OwnerGrant} (valid : thread.Valid key)
    (step : ThreadStep transition state thread effect after)
    (granted : effect.result.grant = some grant) : Granted thread after transition grant := by
  cases step with
  | quiet _ _ unowned => exact nomatch (grant_of_unowned unowned).symm.trans granted
  | @started base channel cursor superseded kind opens absent active expired =>
    obtain rfl := Option.some.inj (ownerResult_grant.symm.trans granted)
    refine ⟨rfl, base, _, createdRun transition base.stream, opens, rfl, rfl, rfl, rfl, rfl, ?_,
      rfl, rfl⟩
    rw [Generation.revise_preparedStart]
    simp
  | @rewritten live run changed _ lookup active stored change =>
    have wellFormed := valid.wellFormed _ lookup
    have revised := change.revise_eq wellFormed stored
    cases change with
    | recovered =>
      obtain rfl := Option.some.inj (ownerResult_grant.symm.trans granted)
      refine ⟨rfl, live, _, recoveredRun transition live.stream run, .live lookup active, rfl,
        rfl, rfl, rfl, rfl, ?_, rfl, rfl⟩
      rw [revised]
      simp
    | lost | appended | settling | finished | cancelled | reconciled => cases granted
  | sealed | retired => cases granted

theorem commit_granted {ledger : LedgerTransition} {grant : OwnerGrant} (valid : store.Valid)
    (granted : grant ∈ store.grants (.commit observedAt ledger)) :
    Granted (store.threads ledger.key) ((store.next (.commit observedAt ledger)).threads ledger.key)
      ledger.toMessagingTransition grant := by
  obtain ⟨⟨result, afterStore⟩, accepted, granted⟩ :=
    Option.bind_eq_some_iff.mp (Option.mem_toList.mp granted)
  obtain ⟨effect, rfl, step, -⟩ :=
    commit_threadStep valid (StreamStore.accepted_eq_some.mp accepted)
  rw [StreamStore.next, accepted]
  exact step.granted (valid _) granted

/-- A grant of a reached generation lies below the next fence while the generation is live. -/
def OwnerGrant.Issued (grant : OwnerGrant) (store : StreamStore) : Prop :=
  (store.threads grant.key).Reached grant.generation ∧
    (store.threads grant.key).Holds grant.generation fun live =>
      grant.fence < live.stream.nextProducerFence

theorem grants_issued (valid : store.Valid) {event : StreamEvent} {grant : OwnerGrant}
    (granted : grant ∈ store.grants event) : grant.Issued (store.next event) := by
  cases event with
  | commit observedAt ledger =>
    obtain ⟨sameKey, base, next, run, -, found, -, generation, -, fence, -⟩ :=
      commit_granted valid granted
    rw [OwnerGrant.Issued, sameKey]
    refine ⟨.inr ⟨next, found, le_of_eq generation.symm⟩, ?_⟩
    intro live lookup _
    obtain rfl := Option.some.inj (found.symm.trans lookup)
    omega
  | environment => cases granted

theorem OwnerGrant.Issued.step (valid : store.Valid) {grant : OwnerGrant}
    (issued : grant.Issued store) (event : StreamEvent) : grant.Issued (store.next event) := by
  refine generation_step_rule ?_ valid issued.1 issued.2 event
  intro live next wellFormed _ step bound
  exact lt_of_lt_of_le bound (step.countersGrow wellFormed).fences

/-- Fences of one generation increase along the log. -/
def OwnerGrant.Before (older newer : OwnerGrant) : Prop :=
  older.key = newer.key → older.generation = newer.generation → older.fence < newer.fence

theorem grants_after_issued (valid : store.Valid) {event : StreamEvent} {older newer : OwnerGrant}
    (issued : older.Issued store) (granted : newer ∈ store.grants event) : older.Before newer := by
  intro sameKey sameGeneration
  cases event with
  | commit observedAt ledger =>
    obtain ⟨newerKey, base, _, _, opens, -, generation, -, fence, -⟩ :=
      commit_granted valid granted
    obtain ⟨reached, holds⟩ := issued
    rw [sameKey, newerKey, sameGeneration] at reached holds
    cases opens with
    | live lookup =>
      have bound := holds base lookup generation
      omega
    | fresh idle =>
      have newer := freshStream_newer ledger.toMessagingTransition idle reached
      have same : (freshStream ledger.toMessagingTransition _).generation = _ := generation
      omega
  | environment => cases granted

theorem grants_pairwise (store : StreamStore) (event : StreamEvent) :
    (store.grants event).Pairwise OwnerGrant.Before := by
  cases event with
  | commit observedAt ledger =>
    rw [StreamStore.grants]
    cases (store.accepted observedAt ledger.toMessagingTransition).bind _ <;> simp
  | environment => exact .nil

section Log

variable (events : List StreamEvent)

private theorem valid_step (store : StreamStore) (event : StreamEvent) (valid : store.Valid) :
    (store.next event).Valid := valid.next event

private theorem issued_kept (store : StreamStore) (event : StreamEvent) (grant : OwnerGrant)
    (valid : store.Valid) (issued : grant.Issued store) : grant.Issued (store.next event) :=
  issued.step valid event

private theorem issued_reported (store : StreamStore) (event : StreamEvent) (grant : OwnerGrant)
    (valid : store.Valid) (granted : grant ∈ store.grants event) :
    grant.Issued (store.next event) := grants_issued valid granted

theorem grantLog_pairwise : (StreamStore.empty.grantLog events).Pairwise OwnerGrant.Before :=
  Machine.log_pairwise valid_step issued_reported issued_kept
    (fun store event _ => grants_pairwise store event)
    (fun _ _ _ _ valid issued granted => grants_after_issued valid issued granted)
    StreamStore.empty_valid

theorem grantLog_issued {grant : OwnerGrant} (granted : grant ∈ StreamStore.empty.grantLog events) :
    grant.Issued (StreamStore.empty.after events) :=
  Machine.log_bound valid_step issued_reported issued_kept StreamStore.empty_valid granted

end Log

/-! ## Every stored owner was granted -/

/-- Whether the owners of all stored runs are among the grants. -/
def StreamStore.OwnersGranted (store : StreamStore) (grants : List OwnerGrant) : Prop :=
  ∀ key live runId run token, (store.threads key).live = some live →
    live.runs runId = some run → run.producerToken = some token →
    ⟨key, live.stream.generation, runId, token, run.producerFence⟩ ∈ grants

/-- A stored owner was stored under the same fence before a commit, or granted by it. -/
theorem ThreadStep.owner_cases {state : MessagingStateSnapshot} {effect : MessagingStorageEffect}
    {token : String} (valid : thread.Valid key)
    (step : ThreadStep transition state thread effect after) (found : after.live = some next)
    (stored : next.runs runId = some changed) (owner : changed.producerToken = some token) :
    (∃ live run, thread.live = some live ∧
        live.stream.generation = next.stream.generation ∧ live.runs runId = some run ∧
        run.producerToken = some token ∧ run.producerFence = changed.producerFence) ∨
      effect.result.grant =
        some ⟨transition.key, next.stream.generation, runId, token, changed.producerFence⟩ := by
  have released : ∀ (base : Generation) (owners : Option StoredMessagingRun), base.WellFormed key →
      base.stream.activeRunId.bind base.runs = owners →
      (∀ run ∈ owners, run.producerLeaseActive = false) →
      (base.released owners).runs runId = some changed → base.runs runId = some changed := by
    intro base owners wellFormed owned expired kept
    rcases Generation.released_runs wellFormed owned expired runId with
      same | ⟨_, _, _, _, fenced⟩
    · exact same.symm.trans kept
    · obtain rfl := Option.some.inj (fenced.symm.trans kept)
      cases owner
  cases step with
  | quiet => exact .inl ⟨next, changed, found, rfl, stored, owner, rfl⟩
  | @started base channel cursor superseded kind opens absent active expired =>
    obtain rfl := Option.some.inj found
    rw [Generation.revise_preparedStart] at stored
    have wellFormed := opens.wellFormed valid
    by_cases same : runId = transition.identity.runId
    · subst same
      obtain rfl : createdRun transition base.stream = changed := by simpa using stored
      obtain rfl := Option.some.inj owner
      exact .inr rfl
    · have before := released base superseded wellFormed
        ((wellFormed.otherActiveRun_eq absent).symm.trans active) expired
        (by simpa [same] using stored)
      exact .inl ⟨base, changed, (opens.live_of_run before).1, rfl, before, owner, rfl⟩
  | @rewritten live run rewritten _ lookup active before change =>
    obtain rfl := Option.some.inj found
    have wellFormed := valid.wellFormed _ lookup
    have rewrites := change.rewrites wellFormed before
    rw [change.revise_eq wellFormed before] at stored ⊢
    by_cases same : runId = transition.identity.runId
    · subst same
      obtain rfl : rewritten = changed := by simpa using stored
      cases change with
      | recovered =>
        obtain rfl := Option.some.inj owner
        exact .inr rfl
      | appended | settling | cancelled => exact .inl ⟨live, run, lookup, rfl, before, owner, rfl⟩
      | lost | finished | reconciled => cases owner
    · exact .inl ⟨live, changed, lookup, rewrites.sameGeneration.symm,
        by simpa [same] using stored, owner, rfl⟩
  | @sealed live reason owners kind lookup active owned expired =>
    obtain rfl := Option.some.inj found
    rw [Generation.revise_sealedEffect] at stored
    have before := released live owners (valid.wellFormed _ lookup) owned expired stored
    exact .inl ⟨live, changed, lookup, rfl, before, owner, rfl⟩
  | retired => cases found

theorem grants_of_accepted {ledger : LedgerTransition}
    {outcome : MessagingTransitionResult × StreamStore}
    (accepted : store.accepted observedAt ledger.toMessagingTransition = some outcome) :
    store.grants (.commit observedAt ledger) = outcome.1.grant.toList := by
  rw [StreamStore.grants, accepted]
  rfl

/-- Every event grants the owners it stores. -/
theorem ownersGranted_next {grants : List OwnerGrant} (valid : store.Valid)
    (granted : store.OwnersGranted grants) (event : StreamEvent) :
    (store.next event).OwnersGranted (grants ++ store.grants event) := by
  intro key next runId changed token found stored owner
  have untouched : (store.threads key).live = some next →
      ⟨key, next.stream.generation, runId, token, changed.producerFence⟩ ∈
        grants ++ store.grants event :=
    fun lookup => List.mem_append_left _ (granted key next runId changed token lookup stored owner)
  cases event with
  | commit observedAt ledger =>
    rw [StreamStore.next] at found
    cases accepted : store.accepted observedAt ledger.toMessagingTransition with
    | none =>
      rw [accepted] at found
      exact untouched found
    | some outcome =>
      obtain ⟨effect, sameResult, step, others⟩ :=
        commit_threadStep valid (StreamStore.accepted_eq_some.mp accepted)
      rw [accepted, Option.map_some, Option.getD_some] at found
      by_cases same : key = ledger.key
      · subst same
        rcases step.owner_cases (valid _) found stored owner with
          ⟨live, run, lookup, generation, before, sameToken, sameFence⟩ | granting
        · rw [← generation, ← sameFence]
          exact List.mem_append_left _
            (granted _ live runId run token lookup before sameToken)
        · rw [grants_of_accepted accepted, sameResult, granting]
          exact List.mem_append_right _ (by simp)
      · rw [others key same] at found
        exact untouched found
  | environment changedKey event =>
    by_cases same : key = changedKey
    · subst same
      rw [StreamStore.next, StreamStore.onThread_threads_self] at found
      obtain ⟨live, lookup, generation, step⟩ := environment_step found
      obtain ⟨run, leased, before, rfl, -⟩ := step.run_kept stored
      rw [← generation]
      exact List.mem_append_left _ (granted key live runId run token lookup before owner)
    · rw [StreamStore.next, StreamStore.onThread_threads_of_ne same] at found
      exact untouched found

theorem grantLog_owners (events : List StreamEvent) :
    (StreamStore.empty.after events).OwnersGranted (StreamStore.empty.grantLog events) := by
  induction events using List.reverseRecOn with
  | nil =>
    intro key live runId run token lookup
    cases lookup
  | append_singleton events event ih =>
    have valid := StreamStore.empty_valid.after_events events
    simp only [StreamStore.after, StreamStore.grantLog, Machine.run_append, Machine.log_append,
      Machine.run_cons, Machine.run_nil, Machine.log_cons, Machine.log_nil,
      List.append_nil] at ih ⊢
    exact ownersGranted_next valid ih event

/-! ## The ownership invariant -/

/-- The active run identifier names exactly the unfinished run of a generation. -/
def StreamStore.SingleOwner (store : StreamStore) : Prop :=
  ∀ key live, (store.threads key).live = some live → ∀ runId,
    live.stream.activeRunId = some runId ↔
      ∃ run, live.runs runId = some run ∧ isFinalRunStatus run.status = false

theorem StreamStore.Valid.singleOwner (valid : store.Valid) : store.SingleOwner := by
  intro key live lookup runId
  have wellFormed := (valid key).wellFormed live lookup
  constructor
  · exact wellFormed.activeStored runId
  · rintro ⟨run, stored, unfinished⟩
    exact wellFormed.unfinishedActive runId run stored unfinished

/-- A finished run of a generation keeps its record until a cleanup of the generation removes
it. -/
def StreamStore.FinalRunsKept (store later : StreamStore) : Prop :=
  ∀ key live runId run next, (store.threads key).live = some live →
    live.runs runId = some run → isFinalRunStatus run.status = true →
    (later.threads key).live = some next → next.stream.generation = live.stream.generation →
    next.RunHolds runId fun kept => kept = run

theorem StreamStore.Valid.finalRunsKept (valid : store.Valid) (events : List StreamEvent) :
    store.FinalRunsKept (store.after events) := by
  intro key live runId run next lookup stored final found same
  have holds : live.RunHolds runId fun kept => kept = run := .inl ⟨run, stored, rfl⟩
  refine run_rule ?_ valid lookup rfl holds events next found same
  rintro live _ changed wellFormed _ before step rfl
  exact step.final_kept wellFormed before final

/-- The references that the owner check of a store accepts for a stream. -/
def StreamStore.Accepts (store : StreamStore) (key : StreamKey)
    (reference : MessagingRunReference) : Prop :=
  ∃ observedAt transition run stream, transition.key = key ∧
    ownedRun transition (store.snapshot observedAt transition) = .ok (run, stream, reference)

theorem StreamStore.Valid.accepts_unique (valid : store.Valid)
    {first second : MessagingRunReference} (firstAccepted : store.Accepts key first)
    (secondAccepted : store.Accepts key second) : first = second := by
  have owner : ∀ reference, store.Accepts key reference → ∃ live runId run,
      (store.threads key).live = some live ∧ live.stream.activeRunId = some runId ∧
      live.runs runId = some run ∧ reference =
        ⟨key.channel, run.identity, run.generation, run.producerToken, some run.producerFence⟩ := by
    rintro reference ⟨observedAt, transition, run, stream, rfl, accepted⟩
    have owned := ownedRun_eq_ok.mp accepted
    obtain ⟨live, lookup, rfl, stored⟩ := snapshot_live owned.found owned.target
    have wellFormed := (valid _).wellFormed live lookup
    obtain ⟨generation, identity, token, fence⟩ := referenceMatchesRun_iff.mp owned.matched
    refine ⟨live, _, run, lookup,
      wellFormed.unfinishedActive _ run stored owned.unfinished, stored, ?_⟩
    rw [generation, identity, token, fence]
    cases reference
    simpa [MessagingTransition.key] using owned.addressed.1
  obtain ⟨live, runId, run, lookup, active, stored, rfl⟩ := owner first firstAccepted
  obtain ⟨other, otherRunId, otherRun, again, otherActive, otherStored, rfl⟩ :=
    owner second secondAccepted
  obtain rfl := Option.some.inj (lookup.symm.trans again)
  obtain rfl := Option.some.inj (active.symm.trans otherActive)
  obtain rfl := Option.some.inj (stored.symm.trans otherStored)
  rfl

/-- Run ownership in every reachable state: one unfinished run that the stream names, increasing
fences below the next one, finished runs that never change, and one accepted owner reference. -/
theorem run_ownership (events later : List StreamEvent) :
    (StreamStore.empty.after events).SingleOwner ∧
      ((StreamStore.empty.grantLog events).Pairwise OwnerGrant.Before ∧
        (∀ grant ∈ StreamStore.empty.grantLog events,
          grant.Issued (StreamStore.empty.after events)) ∧
        (StreamStore.empty.after events).OwnersGranted (StreamStore.empty.grantLog events)) ∧
      (StreamStore.empty.after events).FinalRunsKept
        ((StreamStore.empty.after events).after later) ∧
      ∀ key first second, (StreamStore.empty.after events).Accepts key first →
        (StreamStore.empty.after events).Accepts key second → first = second := by
  have valid := StreamStore.empty_valid.after_events events
  refine ⟨valid.singleOwner, ⟨grantLog_pairwise events, ?_, grantLog_owners events⟩,
    valid.finalRunsKept later, fun _ _ _ => valid.accepts_unique⟩
  intro grant granted
  exact grantLog_issued events granted

end Tinkerfin.Messaging
