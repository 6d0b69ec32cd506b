import Tinkerfin.Messaging.StoreInvariant

/-!
# Rules for one generation

Facts about a generation are proved per step and carried along runs by `generation_rule`: a stream
that reached a generation number never opens that number again, so whatever holds of its live
generation is only changed by the steps of `GenerationStep`.  `RunStep` is the view of one record.
-/

namespace Tinkerfin.Messaging

open Function (update)

variable {key : StreamKey} {thread after : StreamThread} {live next : Generation}
  {run changed : StoredMessagingRun} {runId : String} {store : StreamStore} {number : Nat}

/-! ## Steps of a generation that stays live -/

/-- What a step of the environment does to a generation that stays live. -/
inductive EnvironmentStep (live : Generation) : Generation → Prop
  | leaseExpired (runId : String) : EnvironmentStep live (live.expireLease runId)
  | retentionObserved (expired : Bool) : EnvironmentStep live (live.observeRetention expired)
  | purged (generation : Nat) (keepMessage : StoredMessageEvidence → Bool)
      (keepRun : String → Bool) :
      EnvironmentStep live (live.purge generation keepMessage keepRun)
  | unexpired : EnvironmentStep live live

/-- What one event does to a generation that stays live. -/
inductive GenerationStep (key : StreamKey) (live : Generation) : Generation → Prop
  | untouched : GenerationStep key live live
  | started {transition : MessagingTransition} {channel : Option StoredMessagingChannel}
      {cursor : Int} {superseded : Option StoredMessagingRun}
      (addressed : transition.key = key) (isActive : live.stream.disposition = .active)
      (absent : live.runs transition.identity.runId = none)
      (active : live.otherActiveRun transition.identity.runId = superseded)
      (expired : ∀ run ∈ superseded, run.producerLeaseActive = false) :
      GenerationStep key live
        (live.revise (preparedStart transition live.stream cursor channel superseded))
  | rewritten {transition : MessagingTransition} {state : MessagingStateSnapshot}
      {effect : MessagingStorageEffect} {run changed : StoredMessagingRun}
      (addressed : transition.key = key) (isActive : live.stream.disposition = .active)
      (stored : live.runs transition.identity.runId = some run)
      (change : RunChange transition state live.stream run effect changed)
      (fresh : ∀ message ∈ effect.message, live.matching message.envelope.messageId = none) :
      GenerationStep key live (live.revise effect)
  | sealed {transition : MessagingTransition} {reason : MessagingCleanupReason}
      {owner : Option StoredMessagingRun}
      (addressed : transition.key = key) (isActive : live.stream.disposition = .active)
      (owned : live.stream.activeRunId.bind live.runs = owner)
      (expired : ∀ run ∈ owner, run.producerLeaseActive = false) :
      GenerationStep key live (live.revise (sealedEffect transition live.stream reason owner))
  | environment {next : Generation} (step : EnvironmentStep live next) :
      GenerationStep key live next

/-- Whether a stream has opened a generation number. -/
def StreamThread.Reached (thread : StreamThread) (number : Nat) : Prop :=
  (∃ retired, thread.retired = some retired ∧ number ≤ retired) ∨
    ∃ live, thread.live = some live ∧ number ≤ live.stream.generation

theorem Generation.purge_stream {keepMessage : StoredMessageEvidence → Bool}
    {keepRun : String → Bool} :
    (live.purge number keepMessage keepRun).stream = live.stream := by
  unfold Generation.purge
  split <;> rfl

/-- A live generation after an environment step was live before it. -/
theorem environment_step {event : EnvironmentEvent}
    (found : (thread.environment event).live = some next) :
    ∃ live, thread.live = some live ∧ live.stream.generation = next.stream.generation ∧
      EnvironmentStep live next := by
  cases event with
  | expireLease runId =>
    obtain ⟨live, lookup, rfl⟩ := Option.map_eq_some_iff.mp found
    exact ⟨live, lookup, rfl, .leaseExpired runId⟩
  | observeRetention expired =>
    obtain ⟨live, lookup, rfl⟩ := Option.map_eq_some_iff.mp found
    exact ⟨live, lookup, rfl, .retentionObserved expired⟩
  | purge generation keepMessage keepRun =>
    obtain ⟨live, lookup, rfl⟩ := Option.map_eq_some_iff.mp found
    exact ⟨live, lookup, by rw [Generation.purge_stream], .purged _ _ _⟩
  | expire =>
    simp only [StreamThread.environment, StreamThread.expire] at found
    split at found
    · exact ⟨next, found, rfl, .unexpired⟩
    · split at found
      · cases found
      · exact ⟨next, found, rfl, .unexpired⟩

/-- A live generation after an event was live before it, or was opened by it on an idle stream. -/
theorem EventStep.generationStep (valid : thread.Valid key) (step : EventStep key thread after)
    (found : after.live = some next) :
    (∃ live, thread.live = some live ∧ live.stream.generation = next.stream.generation ∧
        GenerationStep key live next) ∨
      (thread.live = none ∧ ∃ transition channel cursor, transition.key = key ∧
        next = (Generation.opened (freshStream transition thread.retired)).revise
          (preparedStart transition (freshStream transition thread.retired) cursor channel
            none)) := by
  cases step with
  | untouched => exact .inl ⟨next, found, rfl, .untouched⟩
  | @committed transition _ _ _ addressed step =>
    cases step with
    | quiet => exact .inl ⟨next, found, rfl, .untouched⟩
    | started kind opens absent active expired =>
      obtain rfl := Option.some.inj found
      cases opens with
      | live lookup isActive =>
        exact .inl ⟨_, lookup, rfl, .started addressed isActive absent active expired⟩
      | fresh idle =>
        have alone : (Generation.opened (freshStream transition thread.retired)).otherActiveRun
            transition.identity.runId = none := rfl
        obtain rfl := alone.symm.trans active
        exact .inr ⟨idle, _, _, _, addressed, rfl⟩
    | rewritten lookup isActive stored change fresh =>
      obtain rfl := Option.some.inj found
      have rewrites := change.rewrites (valid.wellFormed _ lookup) stored
      exact .inl ⟨_, lookup, rewrites.sameGeneration.symm,
        .rewritten addressed isActive stored change fresh⟩
    | sealed kind lookup isActive owned expired =>
      obtain rfl := Option.some.inj found
      exact .inl ⟨_, lookup, rfl, .sealed addressed isActive owned expired⟩
    | retired => cases found
  | environment event =>
    obtain ⟨live, lookup, same, step⟩ := environment_step found
    exact .inl ⟨live, lookup, same, .environment step⟩

theorem freshStream_newer (transition : MessagingTransition) (idle : thread.live = none)
    (reached : thread.Reached number) :
    number < (freshStream transition thread.retired).generation := by
  rcases reached with ⟨retired, last, bound⟩ | ⟨live, lookup, -⟩
  · rw [last]
    exact Nat.lt_succ_of_le bound
  · exact nomatch idle.symm.trans lookup

/-- Reached generation numbers stay reached. -/
theorem StreamThread.Reached.step (valid : thread.Valid key) (reached : thread.Reached number)
    (step : EventStep key thread after) : after.Reached number := by
  have retirement : ∀ live reason, thread.live = some live →
      (thread.retire live.stream.generation reason).Reached number := by
    intro live reason lookup
    rcases reached with ⟨retired, last, bound⟩ | ⟨other, again, bound⟩
    · exact .inl ⟨_, rfl, le_of_lt (lt_of_le_of_lt bound (valid.newer _ lookup _ last))⟩
    · obtain rfl := Option.some.inj (lookup.symm.trans again)
      exact .inl ⟨_, rfl, bound⟩
  cases lookup : after.live with
  | some next =>
    rcases step.generationStep valid lookup with
      ⟨live, before, same, -⟩ | ⟨idle, transition, channel, cursor, -, rfl⟩
    · rcases reached with ⟨retired, last, bound⟩ | ⟨other, again, bound⟩
      · exact .inr ⟨next, lookup, same ▸ le_of_lt (lt_of_le_of_lt bound
          (valid.newer _ before _ last))⟩
      · obtain rfl := Option.some.inj (before.symm.trans again)
        exact .inr ⟨next, lookup, same ▸ bound⟩
    · exact .inr ⟨_, lookup, le_of_lt (freshStream_newer transition idle reached)⟩
  | none =>
    cases step with
    | untouched => exact reached
    | committed addressed step =>
      cases step with
      | quiet => exact reached
      | started | rewritten | sealed => cases lookup
      | retired _ before => exact retirement _ _ before
    | environment event =>
      cases event with
      | expireLease | observeRetention | purge =>
        rcases reached with ⟨retired, last, bound⟩ | ⟨live, again, -⟩
        · exact .inl ⟨retired, last, bound⟩
        · exact nomatch (Option.map_eq_none_iff.mp lookup).symm.trans again
      | expire =>
        simp only [StreamThread.environment, StreamThread.expire] at lookup ⊢
        split
        · exact reached
        · next live before =>
            split
            · exact retirement _ _ before
            · exact reached

/-- A property of the live generation with a given number, if it is still live. -/
def StreamThread.Holds (thread : StreamThread) (number : Nat) (P : Generation → Prop) : Prop :=
  ∀ live, thread.live = some live → live.stream.generation = number → P live

section GenerationRule

variable {P : Generation → Prop}
  (preserved : ∀ live next, live.WellFormed key → live.stream.generation = number →
    GenerationStep key live next → P live → P next)

include preserved

theorem generation_step_rule (valid : store.Valid) (reached : (store.threads key).Reached number)
    (holds : (store.threads key).Holds number P) (event : StreamEvent) :
    ((store.next event).threads key).Reached number ∧
      ((store.next event).threads key).Holds number P := by
  have step := next_eventStep valid event key
  refine ⟨reached.step (valid key) step, ?_⟩
  intro next found same
  rcases step.generationStep (valid key) found with
    ⟨live, lookup, sameNumber, generationStep⟩ | ⟨idle, transition, channel, cursor, -, rfl⟩
  · exact preserved live next ((valid key).wellFormed _ lookup) (sameNumber.trans same)
      generationStep (holds live lookup (sameNumber.trans same))
  · exact absurd same (ne_of_gt (freshStream_newer transition idle reached))

theorem generation_rule (valid : store.Valid) (reached : (store.threads key).Reached number)
    (holds : (store.threads key).Holds number P) (events : List StreamEvent) :
    ((store.after events).threads key).Reached number ∧
      ((store.after events).threads key).Holds number P := by
  induction events generalizing store with
  | nil => exact ⟨reached, holds⟩
  | cons event events ih =>
    obtain ⟨reached, holds⟩ := generation_step_rule preserved valid reached holds event
    exact ih (valid.next event) reached holds

end GenerationRule

/-! ## Counters of the stream record -/

/-- Counters of a generation that no step decreases, and the number and place it keeps. -/
structure CountersGrow (stream next : StoredMessagingStream) : Prop where
  generation : next.generation = stream.generation
  fences : stream.nextProducerFence ≤ next.nextProducerFence
  tail : stream.latestSequence ≤ next.latestSequence

theorem GenerationStep.countersGrow (wellFormed : live.WellFormed key)
    (step : GenerationStep key live next) : CountersGrow live.stream next.stream := by
  cases step with
  | untouched => exact ⟨rfl, le_rfl, le_rfl⟩
  | started => exact ⟨rfl, Nat.le_succ _, le_rfl⟩
  | rewritten addressed isActive stored change =>
    have rewrites := change.rewrites wellFormed stored
    exact ⟨rewrites.sameGeneration, rewrites.fences, rewrites.tail⟩
  | sealed => exact ⟨rfl, le_rfl, le_rfl⟩
  | environment step =>
    cases step with
    | leaseExpired | retentionObserved | unexpired => exact ⟨rfl, le_rfl, le_rfl⟩
    | purged =>
      rw [Generation.purge_stream]
      exact ⟨rfl, le_rfl, le_rfl⟩

/-! ## Steps of one run record -/

/-- What one event does to a run record that stays stored. -/
inductive RunStep (key : StreamKey) (live : Generation) (runId : String)
    (run : StoredMessagingRun) : StoredMessagingRun → Prop
  | kept : RunStep key live runId run run
  | leaseExpired : RunStep key live runId run { run with producerLeaseActive := false }
  | fenced (unfinished : isFinalRunStatus run.status = false)
      (expired : run.producerLeaseActive = false) :
      RunStep key live runId run
        (ownerLostRun run live.stream.latestSequence "producer lease expired")
  | rewritten {transition : MessagingTransition} {state : MessagingStateSnapshot}
      {effect : MessagingStorageEffect} {changed : StoredMessagingRun}
      (addressed : transition.key = key) (named : transition.identity.runId = runId)
      (change : RunChange transition state live.stream run effect changed) :
      RunStep key live runId run changed

theorem RunStep.final_kept (wellFormed : live.WellFormed key) (stored : live.runs runId = some run)
    (final : isFinalRunStatus run.status = true) (step : RunStep key live runId run changed) :
    changed = run := by
  cases step with
  | kept => rfl
  | leaseExpired => rw [← (wellFormed.released _ _ stored final).2]
  | fenced unfinished => exact nomatch unfinished.symm.trans final
  | rewritten _ _ change => exact nomatch change.unfinished.symm.trans final

theorem Generation.WellFormed.owner_run {owner : Option StoredMessagingRun}
    (wellFormed : live.WellFormed key)
    (owned : live.stream.activeRunId.bind live.runs = owner) {lost : StoredMessagingRun}
    (isOwner : lost ∈ owner) :
    live.runs lost.identity.runId = some lost ∧ isFinalRunStatus lost.status = false := by
  obtain ⟨owningRunId, isActive, stored⟩ := Option.bind_eq_some_iff.mp (owned.trans isOwner)
  obtain ⟨run, again, unfinished⟩ := wellFormed.activeStored _ isActive
  obtain rfl := Option.some.inj (stored.symm.trans again)
  rw [(wellFormed.named _ _ stored).1]
  exact ⟨stored, unfinished⟩

/-- Releasing the owner rewrites at most the owner's record. -/
theorem Generation.released_runs {owner : Option StoredMessagingRun}
    (wellFormed : live.WellFormed key)
    (owned : live.stream.activeRunId.bind live.runs = owner)
    (expired : ∀ run ∈ owner, run.producerLeaseActive = false) (runId : String) :
    (live.released owner).runs runId = live.runs runId ∨
      ∃ run, live.runs runId = some run ∧ isFinalRunStatus run.status = false ∧
        run.producerLeaseActive = false ∧
        (live.released owner).runs runId =
          some (ownerLostRun run live.stream.latestSequence "producer lease expired") := by
  cases owner with
  | none => exact .inl rfl
  | some lost =>
    obtain ⟨stored, unfinished⟩ := wellFormed.owner_run owned rfl
    by_cases same : runId = lost.identity.runId
    · subst same
      exact .inr ⟨lost, stored, unfinished, expired lost rfl,
        by simp [Generation.released, ownerLostRun]⟩
    · exact .inl (by simp [Generation.released, ownerLostRun, same])

/-- A record after an environment step is the record before it, possibly without its lease. -/
theorem EnvironmentStep.run_kept (step : EnvironmentStep live next)
    (found : next.runs runId = some changed) :
    ∃ run leased, live.runs runId = some run ∧
      changed = { run with producerLeaseActive := leased } ∧
      (leased = true → run.producerLeaseActive = true) := by
  cases step with
  | leaseExpired => exact Generation.expireLease_runs found
  | retentionObserved | unexpired => exact ⟨changed, changed.producerLeaseActive, found, rfl, id⟩
  | purged =>
    refine ⟨changed, changed.producerLeaseActive, ?_, rfl, id⟩
    unfold Generation.purge at found
    split at found
    · simp only at found
      split at found
      · exact found
      · cases found
    · exact found

/-- A record after one event was created by it, or is a step of the record before it. -/
theorem GenerationStep.run_cases (wellFormed : live.WellFormed key)
    (step : GenerationStep key live next) (found : next.runs runId = some changed) :
    (live.runs runId = none ∧ live.stream.disposition = .active ∧ ∃ transition,
        transition.identity.runId = runId ∧ transition.key = key ∧
        changed = createdRun transition live.stream) ∨
      ∃ run, live.runs runId = some run ∧ RunStep key live runId run changed := by
  have releasedStep : ∀ owner, live.stream.activeRunId.bind live.runs = owner →
      (∀ run ∈ owner, run.producerLeaseActive = false) →
      (live.released owner).runs runId = some changed →
      ∃ run, live.runs runId = some run ∧ RunStep key live runId run changed := by
    intro owner owned expired stored
    rcases Generation.released_runs wellFormed owned expired runId with
      same | ⟨run, before, unfinished, lost, fenced⟩
    · exact ⟨changed, same.symm.trans stored, .kept⟩
    · obtain rfl := Option.some.inj (fenced.symm.trans stored)
      exact ⟨run, before, .fenced unfinished lost⟩
  cases step with
  | untouched => exact .inr ⟨changed, found, .kept⟩
  | @started transition _ _ superseded addressed isActive absent active expired =>
    rw [Generation.revise_preparedStart] at found
    have owned := (wellFormed.otherActiveRun_eq absent).symm.trans active
    by_cases same : runId = transition.identity.runId
    · subst same
      obtain rfl : createdRun transition live.stream = changed := by simpa using found
      exact .inl ⟨absent, isActive, transition, rfl, addressed, rfl⟩
    · exact .inr (releasedStep superseded owned expired (by simpa [same] using found))
  | @rewritten transition state effect run rewritten addressed isActive stored change =>
    rw [change.revise_eq wellFormed stored] at found
    by_cases same : runId = transition.identity.runId
    · subst same
      obtain rfl : rewritten = changed := by simpa using found
      exact .inr ⟨run, stored, .rewritten addressed rfl change⟩
    · exact .inr ⟨changed, by simpa [same] using found, .kept⟩
  | @sealed transition reason owner addressed isActive owned expired =>
    rw [Generation.revise_sealedEffect] at found
    exact .inr (releasedStep owner owned expired found)
  | environment step =>
    obtain ⟨run, leased, stored, rfl, released⟩ := step.run_kept found
    refine .inr ⟨run, stored, ?_⟩
    cases leased with
    | false => exact .leaseExpired
    | true =>
      have unchanged : { run with producerLeaseActive := true } = run := by
        rw [← released rfl]
      rw [unchanged]
      exact .kept

/-- Of the environment steps, only a purge of a sealed generation removes a record. -/
theorem EnvironmentStep.run_present (step : EnvironmentStep live next)
    (stored : live.runs runId = some run) :
    (∃ changed, next.runs runId = some changed) ∨
      (next.runs runId = none ∧ next.stream.disposition ≠ .active) := by
  cases step with
  | retentionObserved | unexpired => exact .inl ⟨run, stored⟩
  | leaseExpired other =>
    by_cases same : runId = other
    · exact .inl ⟨{ run with producerLeaseActive := false },
        by simp [Generation.expireLease, ← same, stored]⟩
    · exact .inl ⟨run, by simp [Generation.expireLease, same, stored]⟩
  | purged number keepMessage keepRun =>
    unfold Generation.purge
    split
    · next sealed =>
        by_cases keep : keepRun runId = true
        · exact .inl ⟨run, by simp only [keep, if_true, stored]⟩
        · refine .inr ⟨by simp [keep], fun active => ?_⟩
          have isActive : live.stream.disposition = .active := active
          simp [isActive, MessagingStreamDisposition.isSealed] at sealed
    · exact .inl ⟨run, stored⟩

/-- Only a purge removes a record, and it needs a sealed generation. -/
theorem GenerationStep.run_present (wellFormed : live.WellFormed key)
    (step : GenerationStep key live next) (stored : live.runs runId = some run) :
    (∃ changed, next.runs runId = some changed) ∨
      (next.runs runId = none ∧ next.stream.disposition ≠ .active) := by
  have releasedPresent : ∀ owner, live.stream.activeRunId.bind live.runs = owner →
      (∀ run ∈ owner, run.producerLeaseActive = false) →
      ∃ changed, (live.released owner).runs runId = some changed := by
    intro owner owned expired
    rcases Generation.released_runs wellFormed owned expired runId with
      same | ⟨_, _, _, _, fenced⟩
    · exact ⟨run, same.trans stored⟩
    · exact ⟨_, fenced⟩
  cases step with
  | untouched => exact .inl ⟨run, stored⟩
  | @started transition _ _ superseded addressed isActive absent active expired =>
    have owned := (wellFormed.otherActiveRun_eq absent).symm.trans active
    obtain ⟨changed, present⟩ := releasedPresent superseded owned expired
    rw [Generation.revise_preparedStart]
    by_cases same : runId = transition.identity.runId
    · exact nomatch (same ▸ absent).symm.trans stored
    · exact .inl ⟨changed, by simp [same, present]⟩
  | @rewritten transition _ _ _ changed addressed isActive before change =>
    rw [change.revise_eq wellFormed before]
    by_cases same : runId = transition.identity.runId
    · exact .inl ⟨changed, by simp [same]⟩
    · exact .inl ⟨run, by simp [same, stored]⟩
  | @sealed transition reason owner addressed isActive owned expired =>
    obtain ⟨changed, present⟩ := releasedPresent owner owned expired
    exact .inl ⟨changed, by rw [Generation.revise_sealedEffect]; exact present⟩
  | environment step => exact step.run_present stored

theorem GenerationStep.sealed_kept (step : GenerationStep key live next)
    (sealed : live.stream.disposition ≠ .active) :
    next.stream.disposition = live.stream.disposition := by
  cases step with
  | untouched => rfl
  | started _ isActive | rewritten _ isActive | sealed _ isActive => exact absurd isActive sealed
  | environment step =>
    cases step with
    | leaseExpired | retentionObserved | unexpired => rfl
    | purged => rw [Generation.purge_stream]

theorem GenerationStep.active_before (step : GenerationStep key live next)
    (active : next.stream.disposition = .active) : live.stream.disposition = .active := by
  by_contra inactive
  exact inactive ((step.sealed_kept inactive).symm.trans active)

/-- The messages of a generation that stays active only grow. -/
theorem GenerationStep.messages_grow (wellFormed : live.WellFormed key)
    (step : GenerationStep key live next) (active : next.stream.disposition = .active) :
    ∃ extra, next.messages = live.messages ++ extra := by
  have before := step.active_before active
  cases step with
  | untouched => exact ⟨[], (List.append_nil _).symm⟩
  | started =>
    rw [Generation.revise_preparedStart]
    exact ⟨[], (List.append_nil _).symm⟩
  | rewritten _ _ stored change =>
    rw [change.revise_eq wellFormed stored]
    exact ⟨_, rfl⟩
  | sealed =>
    rw [Generation.revise_sealedEffect]
    exact ⟨[], (List.append_nil _).symm⟩
  | environment step =>
    cases step with
    | leaseExpired | retentionObserved | unexpired => exact ⟨[], (List.append_nil _).symm⟩
    | purged =>
      refine ⟨[], ?_⟩
      unfold Generation.purge
      simp [before, MessagingStreamDisposition.isSealed]

/-- A record satisfies a property, or a cleanup of its generation removed it. -/
def Generation.RunHolds (generation : Generation) (runId : String)
    (Q : StoredMessagingRun → Prop) : Prop :=
  (∃ run, generation.runs runId = some run ∧ Q run) ∨
    (generation.runs runId = none ∧ generation.stream.disposition ≠ .active)

section RunRule

variable {Q : StoredMessagingRun → Prop}
  (preserved : ∀ live run changed, live.WellFormed key → live.stream.generation = number →
    live.runs runId = some run → RunStep key live runId run changed → Q run → Q changed)

include preserved

/-- What the steps of a record preserve, a step of its generation preserves. -/
theorem GenerationStep.runHolds (wellFormed : live.WellFormed key)
    (same : live.stream.generation = number) (step : GenerationStep key live next)
    (holds : live.RunHolds runId Q) : next.RunHolds runId Q := by
  rcases holds with ⟨run, stored, holds⟩ | ⟨absent, sealed⟩
  · rcases step.run_present wellFormed stored with ⟨changed, found⟩ | removed
    · rcases step.run_cases wellFormed found with ⟨absent, -⟩ | ⟨before, again, runStep⟩
      · exact nomatch absent.symm.trans stored
      · obtain rfl := Option.some.inj (stored.symm.trans again)
        exact .inl ⟨changed, found, preserved live run changed wellFormed same stored runStep holds⟩
    · exact .inr removed
  · refine .inr ⟨?_, step.sealed_kept sealed ▸ sealed⟩
    cases found : next.runs runId with
    | none => rfl
    | some changed =>
      rcases step.run_cases wellFormed found with ⟨-, isActive, -⟩ | ⟨_, stored, -⟩
      · exact absurd isActive sealed
      · exact nomatch absent.symm.trans stored

theorem run_rule (valid : store.Valid) (lookup : (store.threads key).live = some live)
    (same : live.stream.generation = number) (holds : live.RunHolds runId Q)
    (events : List StreamEvent) :
    ((store.after events).threads key).Holds number fun next => next.RunHolds runId Q := by
  refine (generation_rule (fun _ _ wellFormed same step holds =>
    step.runHolds preserved wellFormed same holds) valid (.inr ⟨live, lookup, le_of_eq same.symm⟩)
    ?_ events).2
  intro other again _
  obtain rfl := Option.some.inj (lookup.symm.trans again)
  exact holds

end RunRule

end Tinkerfin.Messaging
