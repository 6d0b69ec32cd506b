import Tinkerfin.Messaging.StoreSpec

/-!
# The stream invariant along runs

Every event keeps every stream valid.  Transitions are treated by the step they are: a rewritten
run goes through `Generation.WellFormed.rewrite`, a started one through
`Generation.WellFormed.start`.
-/

namespace Tinkerfin.Messaging

open Function (update)

variable {transition : MessagingTransition} {state : MessagingStateSnapshot}
  {effect : MessagingStorageEffect} {key : StreamKey} {thread after : StreamThread}
  {live : Generation} {run changed : StoredMessagingRun} {runId : String}

@[simp] theorem recordRuns_nil (runs : String → Option StoredMessagingRun) :
    recordRuns runs [] = runs := rfl

@[simp] theorem recordRuns_cons (runs : String → Option StoredMessagingRun)
    (first : StoredMessagingRun) (rest : List StoredMessagingRun) :
    recordRuns runs (first :: rest) =
      recordRuns (update runs first.identity.runId (some first)) rest := rfl

/-! ## Rewriting one run -/

theorem RunChange.unfinished {stream : StoredMessagingStream}
    (change : RunChange transition state stream run effect changed) :
    isFinalRunStatus run.status = false := by
  cases change with
  | lost _ unfinished | recovered _ unfinished | reconciled _ unfinished => exact unfinished
  | appended kind target _ _ publishable =>
    obtain ⟨-, -, -, owned, -⟩ := appendTarget_eq_ok target
    rcases kind with appending | publishing
    · obtain ⟨_, owned⟩ := owned (by simp [appending])
      exact owned.unfinished
    · rw [(publishable publishing).running]
      rfl
  | settling _ owned | finished _ owned => exact owned.unfinished
  | cancelled _ _ _ running =>
    rw [running]
    rfl

/-- What every rewrite of an unfinished run guarantees. -/
structure Rewrites (stream : StoredMessagingStream) (runId : String) (run : StoredMessagingRun)
    (next : StoredMessagingStream) (changed : StoredMessagingRun) : Prop where
  identity : changed.identity = run.identity
  generation : changed.generation = run.generation
  sameGeneration : next.generation = stream.generation
  disposition : next.disposition = stream.disposition
  fences : stream.nextProducerFence ≤ next.nextProducerFence
  fence : changed.producerFence < next.nextProducerFence
  tail : stream.latestSequence ≤ next.latestSequence
  ended : changed.endSequence = next.latestSequence
  outcome : (isFinalRunStatus changed.status = false ∧ next.activeRunId = some runId) ∨
    (isFinalRunStatus changed.status = true ∧ next.activeRunId = none ∧
      changed.producerToken = none ∧ changed.producerLeaseActive = false)

theorem isFinalRunStatus_finishOutcome {finalStatus : RunStatus} {failure : Option BaseException}
    (final : isFinalRunStatus finalStatus = true) :
    isFinalRunStatus (finishOutcome run finalStatus failure).1 = true := by
  unfold finishOutcome
  split
  · rfl
  · exact final

/-- Each rewrite keeps the run under its name and ends it together with its ownership. -/
theorem RunChange.rewrites (wellFormed : live.WellFormed key)
    (stored : live.runs transition.identity.runId = some run)
    (change : RunChange transition state live.stream run effect changed) :
    Rewrites live.stream transition.identity.runId run (effect.stream.getD live.stream) changed := by
  have owner := wellFormed.unfinishedActive _ _ stored change.unfinished
  have fence := wellFormed.fenced _ _ stored
  have open_ := wellFormed.openEnded _ _ stored change.unfinished
  have released : releasedActiveRun live.stream transition.identity.runId = none := by
    simp [releasedActiveRun, owner]
  cases change with
  | lost => exact ⟨rfl, rfl, rfl, rfl, le_rfl, fence, le_rfl, rfl, .inr ⟨rfl, rfl, rfl, rfl⟩⟩
  | recovered =>
    refine ⟨rfl, rfl, rfl, rfl, Nat.le_succ _, Nat.lt_succ_self _, le_rfl, open_,
      .inl ⟨?_, rfl⟩⟩
    simp only [recoveredRun]
    split <;> rfl
  | appended kind target valid fresh publishable room =>
    refine ⟨rfl, rfl, rfl, rfl, le_rfl, fence, Nat.le_succ _, rfl, .inl ⟨?_, owner⟩⟩
    exact (RunChange.appended kind target valid fresh publishable room).unfinished
  | settling _ owned =>
    exact ⟨rfl, rfl, rfl, rfl, le_rfl, fence, le_rfl, open_, .inl ⟨owned.unfinished, owner⟩⟩
  | finished _ _ _ final =>
    refine ⟨rfl, rfl, rfl, rfl, le_rfl, fence, le_rfl, rfl, .inr ⟨?_, released, rfl, rfl⟩⟩
    exact isFinalRunStatus_finishOutcome final
  | cancelled =>
    exact ⟨rfl, rfl, rfl, rfl, le_rfl, fence, le_rfl, open_, .inl ⟨rfl, owner⟩⟩
  | reconciled =>
    exact ⟨rfl, rfl, rfl, rfl, le_rfl, fence, le_rfl, rfl, .inr ⟨rfl, released, rfl, rfl⟩⟩

theorem RunChange.revise_eq (wellFormed : live.WellFormed key)
    (stored : live.runs transition.identity.runId = some run)
    (change : RunChange transition state live.stream run effect changed) :
    live.revise effect =
      { stream := effect.stream.getD live.stream
        runs := update live.runs transition.identity.runId (some changed)
        messages := live.messages ++ effect.message.toList } := by
  have named := congrArg RunIdentity.runId
    ((change.rewrites wellFormed stored).identity.trans (wellFormed.named _ _ stored).1)
  have written : effect.runs = [changed] := by cases change <;> rfl
  simp only [Generation.revise, written, recordRuns_cons, recordRuns_nil, named]

/-- Rewriting one unfinished run keeps a generation well formed. -/
theorem Generation.WellFormed.rewrite {next : StoredMessagingStream}
    {messages : List StoredMessageEvidence} (wellFormed : live.WellFormed key)
    (stored : live.runs runId = some run) (active : live.stream.disposition = .active)
    (unfinished : isFinalRunStatus run.status = false)
    (rewrites : Rewrites live.stream runId run next changed) :
    Generation.WellFormed ⟨next, update live.runs runId (some changed), messages⟩ key := by
  have owner := wellFormed.unfinishedActive _ _ stored unfinished
  have otherFinal : ∀ other kept, other ≠ runId → live.runs other = some kept →
      isFinalRunStatus kept.status = true := by
    intro other kept different found
    by_contra open_
    have := wellFormed.unfinishedActive _ _ found (Bool.eq_false_iff.mpr open_)
    exact different (Option.some.inj (this.symm.trans owner))
  have nextActive := rewrites.disposition.trans active
  refine
    { positive := rewrites.sameGeneration ▸ wellFormed.positive
      present := .inl nextActive
      named := ?_
      activeStored := ?_
      unfinishedActive := ?_
      fenced := ?_
      released := ?_
      ended := ?_
      openEnded := ?_
      sealedIdle := fun sealed => absurd nextActive sealed }
  · intro other kept found
    by_cases same : other = runId
    · obtain rfl : changed = kept := by simpa [same] using found
      have named := wellFormed.named _ _ stored
      exact ⟨by rw [rewrites.identity, named.1, same],
        by rw [rewrites.generation, named.2, rewrites.sameGeneration]⟩
    · have named := wellFormed.named _ _ (by simpa [same] using found)
      exact ⟨named.1, named.2.trans rewrites.sameGeneration.symm⟩
  · intro other isActive
    rcases rewrites.outcome with ⟨open_, continued⟩ | ⟨-, ended, -⟩
    · obtain rfl : runId = other := Option.some.inj (continued.symm.trans isActive)
      exact ⟨changed, by simp, open_⟩
    · exact absurd (ended.symm.trans isActive) nofun
  · intro other kept found open_
    by_cases same : other = runId
    · obtain rfl : changed = kept := by simpa [same] using found
      rcases rewrites.outcome with ⟨-, continued⟩ | ⟨final, -⟩
      · rw [same]
        exact continued
      · rw [final] at open_
        cases open_
    · have final := otherFinal other kept same (by simpa [same] using found)
      rw [final] at open_
      cases open_
  · intro other kept found
    by_cases same : other = runId
    · obtain rfl : changed = kept := by simpa [same] using found
      exact rewrites.fence
    · exact lt_of_lt_of_le (wellFormed.fenced other kept (by simpa [same] using found))
        rewrites.fences
  · intro other kept found final
    by_cases same : other = runId
    · obtain rfl : changed = kept := by simpa [same] using found
      rcases rewrites.outcome with ⟨open_, -⟩ | ⟨-, -, released⟩
      · rw [open_] at final
        cases final
      · exact released
    · exact wellFormed.released other kept (by simpa [same] using found) final
  · intro other kept found
    by_cases same : other = runId
    · obtain rfl : changed = kept := by simpa [same] using found
      exact le_of_eq rewrites.ended
    · exact le_trans (wellFormed.ended other kept (by simpa [same] using found)) rewrites.tail
  · intro other kept found open_
    by_cases same : other = runId
    · obtain rfl : changed = kept := by simpa [same] using found
      exact rewrites.ended
    · have final := otherFinal other kept same (by simpa [same] using found)
      rw [final] at open_
      cases open_

/-! ## Starting, sealing and retiring -/

/-- Adding a run under a fresh name and fence to an idle active generation keeps it well formed. -/
theorem Generation.WellFormed.start {superseded : Option StoredMessagingRun}
    {messages : List StoredMessageEvidence} (addressed : transition.identity.toThreadIdentity =
      key.thread)
    (wellFormed : live.WellFormed key) (active : live.stream.disposition = .active)
    (idle : live.stream.activeRunId = none) :
    Generation.WellFormed
      ⟨startedStream transition live.stream superseded,
        update live.runs transition.identity.runId (some (createdRun transition live.stream)),
        messages⟩ key := by
  have allFinal : ∀ other kept, live.runs other = some kept →
      isFinalRunStatus kept.status = true := by
    intro other kept found
    by_contra open_
    have := wellFormed.unfinishedActive _ _ found (Bool.eq_false_iff.mpr open_)
    exact nomatch idle.symm.trans this
  refine
    { positive := wellFormed.positive
      present := .inl active
      named := ?_
      activeStored := ?_
      unfinishedActive := ?_
      fenced := ?_
      released := ?_
      ended := ?_
      openEnded := ?_
      sealedIdle := fun sealed => absurd active sealed }
  · intro other kept found
    by_cases same : other = transition.identity.runId
    · obtain rfl : createdRun transition live.stream = kept := by simpa [same] using found
      exact ⟨by rw [same, ← addressed]; rfl, rfl⟩
    · exact wellFormed.named other kept (by simpa [same] using found)
  · intro other isActive
    obtain rfl : transition.identity.runId = other := Option.some.inj isActive
    exact ⟨createdRun transition live.stream, by simp, rfl⟩
  · intro other kept found open_
    by_cases same : other = transition.identity.runId
    · rw [same]
      rfl
    · have final := allFinal other kept (by simpa [same] using found)
      rw [final] at open_
      cases open_
  · intro other kept found
    by_cases same : other = transition.identity.runId
    · obtain rfl : createdRun transition live.stream = kept := by simpa [same] using found
      exact Nat.lt_succ_self _
    · exact Nat.lt_succ_of_lt (wellFormed.fenced other kept (by simpa [same] using found))
  · intro other kept found final
    by_cases same : other = transition.identity.runId
    · obtain rfl : createdRun transition live.stream = kept := by simpa [same] using found
      cases final
    · exact wellFormed.released other kept (by simpa [same] using found) final
  · intro other kept found
    by_cases same : other = transition.identity.runId
    · obtain rfl : createdRun transition live.stream = kept := by simpa [same] using found
      exact le_rfl
    · exact wellFormed.ended other kept (by simpa [same] using found)
  · intro other kept found open_
    by_cases same : other = transition.identity.runId
    · obtain rfl : createdRun transition live.stream = kept := by simpa [same] using found
      rfl
    · have final := allFinal other kept (by simpa [same] using found)
      rw [final] at open_
      cases open_

/-- A generation without runs is well formed. -/
theorem Generation.opened_wellFormed {stream : StoredMessagingStream}
    (positive : 1 ≤ stream.generation) (active : stream.disposition = .active)
    (idle : stream.activeRunId = none) : (Generation.opened stream).WellFormed key := by
  have empty : ∀ runId run, (Generation.opened stream).runs runId = some run → False := by
    simp [Generation.opened]
  exact
    { positive
      present := .inl active
      named := fun _ _ stored => (empty _ _ stored).elim
      activeStored := fun _ owner => by cases idle.symm.trans owner
      unfinishedActive := fun _ _ stored => (empty _ _ stored).elim
      fenced := fun _ _ stored => (empty _ _ stored).elim
      released := fun _ _ stored => (empty _ _ stored).elim
      ended := fun _ _ stored => (empty _ _ stored).elim
      openEnded := fun _ _ stored => (empty _ _ stored).elim
      sealedIdle := fun _ => idle }

/-- The generation after its owner, if it had one, lost an expired lease. -/
def Generation.released (generation : Generation) (owner : Option StoredMessagingRun) :
    Generation where
  stream := releasedStream generation.stream none
  runs := recordRuns generation.runs (owner.map fun run =>
    ownerLostRun run generation.stream.latestSequence "producer lease expired").toList
  messages := generation.messages

theorem Generation.WellFormed.released_owner {owner : Option StoredMessagingRun}
    (wellFormed : live.WellFormed key) (active : live.stream.disposition = .active)
    (owned : live.stream.activeRunId.bind live.runs = owner) :
    (live.released owner).WellFormed key := by
  cases isActive : live.stream.activeRunId with
  | none =>
    obtain rfl : none = owner := by simpa [isActive] using owned
    exact
      { positive := wellFormed.positive
        present := wellFormed.present
        named := wellFormed.named
        activeStored := nofun
        unfinishedActive := fun other kept found open_ =>
          nomatch isActive.symm.trans (wellFormed.unfinishedActive other kept found open_)
        fenced := wellFormed.fenced
        released := wellFormed.released
        ended := wellFormed.ended
        openEnded := wellFormed.openEnded
        sealedIdle := fun _ => rfl }
  | some owningRunId =>
    obtain ⟨run, stored, unfinished⟩ := wellFormed.activeStored _ isActive
    obtain rfl : some run = owner := by simpa [isActive, stored] using owned
    have named := congrArg RunIdentity.runId (wellFormed.named _ _ stored).1
    have fence := wellFormed.fenced _ _ stored
    have rewrites : Rewrites live.stream owningRunId run (releasedStream live.stream none)
        (ownerLostRun run live.stream.latestSequence "producer lease expired") :=
      ⟨rfl, rfl, rfl, rfl, le_rfl, fence, le_rfl, rfl, .inr ⟨rfl, rfl, rfl, rfl⟩⟩
    have rewritten : (Generation.mk (releasedStream live.stream none) _ live.messages).WellFormed
        key := wellFormed.rewrite stored active unfinished rewrites
    simpa [Generation.released, ownerLostRun, named] using rewritten

/-- An idle generation stays well formed when its disposition is sealed. -/
theorem Generation.WellFormed.seal {next : StoredMessagingStream} {reason : MessagingCleanupReason}
    (wellFormed : live.WellFormed key) (idle : live.stream.activeRunId = none)
    (sealed : next = { live.stream with disposition := reason.sealing }) :
    Generation.WellFormed { live with stream := next } key := by
  subst sealed
  exact
    { positive := wellFormed.positive
      present := .inr (by cases reason <;> rfl)
      named := wellFormed.named
      activeStored := wellFormed.activeStored
      unfinishedActive := wellFormed.unfinishedActive
      fenced := wellFormed.fenced
      released := wellFormed.released
      ended := wellFormed.ended
      openEnded := wellFormed.openEnded
      sealedIdle := fun _ => idle }

theorem StreamThread.Opens.wellFormed {base : Generation} (valid : thread.Valid key)
    (opens : thread.Opens transition base) : base.WellFormed key := by
  cases opens with
  | live lookup => exact valid.wellFormed _ lookup
  | fresh idle =>
    refine Generation.opened_wellFormed ?_ rfl rfl
    simp only [freshStream]
    split
    · exact le_rfl
    · exact Nat.succ_pos _

theorem StreamThread.Opens.active {base : Generation} (opens : thread.Opens transition base) :
    base.stream.disposition = .active := by
  cases opens with
  | live _ active => exact active
  | fresh => rfl

theorem StreamThread.Opens.newer {base : Generation} (valid : thread.Valid key)
    (opens : thread.Opens transition base) {retired : Nat} (last : thread.retired = some retired) :
    retired < base.stream.generation := by
  cases opens with
  | live lookup => exact valid.newer _ lookup _ last
  | fresh =>
    rw [last]
    exact Nat.lt_succ_self _

theorem Generation.WellFormed.otherActiveRun_eq (wellFormed : live.WellFormed key)
    (absent : live.runs runId = none) :
    live.otherActiveRun runId = live.stream.activeRunId.bind live.runs := by
  cases isActive : live.stream.activeRunId with
  | none => simp [Generation.otherActiveRun, isActive]
  | some owningRunId =>
    obtain ⟨run, stored, -⟩ := wellFormed.activeStored _ isActive
    have different : owningRunId ≠ runId := by
      rintro rfl
      cases absent.symm.trans stored
    simp [Generation.otherActiveRun, isActive, Option.filter_some, different]

theorem Generation.revise_preparedStart {base : Generation}
    {channel : Option StoredMessagingChannel} {cursor : Int}
    {superseded : Option StoredMessagingRun} :
    base.revise (preparedStart transition base.stream cursor channel superseded) =
      { stream := startedStream transition base.stream superseded
        runs := update (base.released superseded).runs transition.identity.runId
          (some (createdRun transition base.stream))
        messages := base.messages } := by
  cases superseded <;> simp [Generation.revise, preparedStart, Generation.released, createdRun]

theorem Generation.revise_sealedEffect {reason : MessagingCleanupReason}
    {owner : Option StoredMessagingRun} :
    live.revise (sealedEffect transition live.stream reason owner) =
      { live.released owner with
        stream := { (live.released owner).stream with disposition := reason.sealing } } := by
  simp [Generation.revise, sealedEffect, Generation.released]

theorem Generation.WellFormed.started {base : Generation}
    {channel : Option StoredMessagingChannel} {cursor : Int}
    {superseded : Option StoredMessagingRun}
    (addressed : transition.identity.toThreadIdentity = key.thread)
    (wellFormed : base.WellFormed key) (isActive : base.stream.disposition = .active)
    (absent : base.runs transition.identity.runId = none)
    (active : base.otherActiveRun transition.identity.runId = superseded) :
    (base.revise (preparedStart transition base.stream cursor channel superseded)).WellFormed
      key := by
  have released := wellFormed.released_owner isActive
    ((wellFormed.otherActiveRun_eq absent).symm.trans active)
  have started : (Generation.mk (startedStream transition _ superseded) _ base.messages).WellFormed
      key := released.start addressed isActive rfl
  rw [Generation.revise_preparedStart]
  exact
    { positive := started.positive
      present := started.present
      named := started.named
      activeStored := started.activeStored
      unfinishedActive := started.unfinishedActive
      fenced := started.fenced
      released := started.released
      ended := started.ended
      openEnded := started.openEnded
      sealedIdle := started.sealedIdle }

/-! ## Every event keeps every stream valid -/

theorem StreamThread.Valid.revised {next : Generation} (valid : thread.Valid key)
    (wellFormed : next.WellFormed key)
    (newer : ∀ retired, thread.retired = some retired → retired < next.stream.generation) :
    StreamThread.Valid { thread with live := some next } key where
  wellFormed := by
    rintro _ ⟨⟩
    exact wellFormed
  newer := by
    rintro _ ⟨⟩
    exact newer
  remembered := valid.remembered
  latest := valid.latest
  positive := valid.positive

/-- Retiring the live generation keeps a stream valid. -/
theorem StreamThread.Valid.retire {reason : MessagingCleanupReason} (valid : thread.Valid key)
    (lookup : thread.live = some live) :
    (thread.retire live.stream.generation reason).Valid key where
  wellFormed := nofun
  newer := nofun
  remembered := by
    rintro _ ⟨⟩
    simp [StreamThread.retire]
  latest := by
    intro generation recorded found
    refine ⟨live.stream.generation, rfl, ?_⟩
    by_cases same : generation = live.stream.generation
    · exact le_of_eq same
    · obtain ⟨retired, last, bound⟩ :=
        valid.latest generation recorded (by simpa [StreamThread.retire, same] using found)
      exact le_of_lt (lt_of_le_of_lt bound (valid.newer _ lookup _ last))
  positive := by
    intro generation recorded found
    by_cases same : generation = live.stream.generation
    · exact same ▸ (valid.wellFormed _ lookup).positive
    · exact valid.positive generation recorded (by simpa [StreamThread.retire, same] using found)

/-- Every step of a transition keeps its stream valid. -/
theorem ThreadStep.valid (addressed : transition.identity.toThreadIdentity = key.thread)
    (valid : thread.Valid key) (step : ThreadStep transition state thread effect after) :
    after.Valid key := by
  cases step with
  | quiet => exact valid
  | started kind opens absent active expired =>
    refine valid.revised ?_ fun retired last => opens.newer valid last
    exact (opens.wellFormed valid).started addressed opens.active absent active
  | @rewritten live run changed _ lookup active stored change =>
    have wellFormed := valid.wellFormed _ lookup
    have rewrites := change.rewrites wellFormed stored
    rw [change.revise_eq wellFormed stored]
    refine valid.revised (wellFormed.rewrite stored active change.unfinished rewrites) ?_
    intro retired last
    rw [rewrites.sameGeneration]
    exact valid.newer _ lookup _ last
  | @sealed live reason owner kind lookup active owned expired =>
    have released := (valid.wellFormed _ lookup).released_owner active owned
    refine valid.revised ?_ fun retired last => valid.newer _ lookup _ last
    rw [Generation.revise_sealedEffect]
    exact released.seal rfl rfl
  | retired kind lookup closing => exact valid.retire lookup

theorem Generation.WellFormed.purge {number : Nat} {keepMessage : StoredMessageEvidence → Bool}
    {keepRun : String → Bool} (wellFormed : live.WellFormed key) :
    (live.purge number keepMessage keepRun).WellFormed key := by
  unfold Generation.purge
  split
  · next sealed =>
      have kept : ∀ other run, (if keepRun other then live.runs other else none) = some run →
          live.runs other = some run := by
        intro other run found
        split at found
        · exact found
        · cases found
      have idle : live.stream.activeRunId = none := by
        apply wellFormed.sealedIdle
        intro active
        simp [active, MessagingStreamDisposition.isSealed] at sealed
      exact
        { positive := wellFormed.positive
          present := wellFormed.present
          named := fun other run found => wellFormed.named other run (kept _ _ found)
          activeStored := fun other owner => by cases idle.symm.trans owner
          unfinishedActive := fun other run found =>
            wellFormed.unfinishedActive other run (kept _ _ found)
          fenced := fun other run found => wellFormed.fenced other run (kept _ _ found)
          released := fun other run found => wellFormed.released other run (kept _ _ found)
          ended := fun other run found => wellFormed.ended other run (kept _ _ found)
          openEnded := fun other run found => wellFormed.openEnded other run (kept _ _ found)
          sealedIdle := wellFormed.sealedIdle }
  · exact wellFormed

theorem Generation.expireLease_runs {other : String}
    (found : (live.expireLease runId).runs other = some changed) :
    ∃ run leased, live.runs other = some run ∧ changed = { run with producerLeaseActive := leased } ∧
      (leased = true → run.producerLeaseActive = true) := by
  by_cases same : other = runId
  · simp only [Generation.expireLease, same, Function.update_self, Option.map_eq_some_iff] at found
    obtain ⟨run, stored, rfl⟩ := found
    exact ⟨run, false, same ▸ stored, rfl, nofun⟩
  · exact ⟨changed, changed.producerLeaseActive,
      by simpa [Generation.expireLease, same] using found, rfl, id⟩

theorem Generation.WellFormed.expireLease (wellFormed : live.WellFormed key) :
    (live.expireLease runId).WellFormed key where
  positive := wellFormed.positive
  present := wellFormed.present
  named other changed found := by
    obtain ⟨run, leased, stored, rfl, -⟩ := Generation.expireLease_runs found
    have named := wellFormed.named other run stored
    exact named
  activeStored other owner := by
    obtain ⟨run, stored, unfinished⟩ := wellFormed.activeStored other owner
    by_cases same : other = runId
    · subst same
      exact ⟨{ run with producerLeaseActive := false }, by simp [Generation.expireLease, stored],
        unfinished⟩
    · exact ⟨run, by simp [Generation.expireLease, same, stored], unfinished⟩
  unfinishedActive other changed found open_ := by
    obtain ⟨run, leased, stored, rfl, -⟩ := Generation.expireLease_runs found
    exact wellFormed.unfinishedActive other run stored open_
  fenced other changed found := by
    obtain ⟨run, leased, stored, rfl, -⟩ := Generation.expireLease_runs found
    have fence := wellFormed.fenced other run stored
    exact fence
  released other changed found final := by
    obtain ⟨run, leased, stored, rfl, kept⟩ := Generation.expireLease_runs found
    obtain ⟨token, lease⟩ := wellFormed.released other run stored final
    refine ⟨token, Bool.eq_false_iff.mpr fun isLeased => ?_⟩
    exact nomatch lease.symm.trans (kept isLeased)
  ended other changed found := by
    obtain ⟨run, leased, stored, rfl, -⟩ := Generation.expireLease_runs found
    have ended := wellFormed.ended other run stored
    exact ended
  openEnded other changed found open_ := by
    obtain ⟨run, leased, stored, rfl, -⟩ := Generation.expireLease_runs found
    have ended := wellFormed.openEnded other run stored open_
    exact ended
  sealedIdle := wellFormed.sealedIdle

theorem Generation.WellFormed.observeRetention {expired : Bool}
    (wellFormed : live.WellFormed key) : (live.observeRetention expired).WellFormed key :=
  ⟨wellFormed.positive, wellFormed.present, wellFormed.named, wellFormed.activeStored,
    wellFormed.unfinishedActive, wellFormed.fenced, wellFormed.released, wellFormed.ended,
    wellFormed.openEnded, wellFormed.sealedIdle⟩

/-- An environment step on the live generation keeps a stream valid. -/
theorem StreamThread.Valid.mapLive {change : Generation → Generation} (valid : thread.Valid key)
    (wellFormed : ∀ live, live.WellFormed key → (change live).WellFormed key)
    (numbered : ∀ live, (change live).stream.generation = live.stream.generation) :
    StreamThread.Valid { thread with live := thread.live.map change } key where
  wellFormed := by
    intro next found
    obtain ⟨live, lookup, rfl⟩ := Option.map_eq_some_iff.mp found
    exact wellFormed live (valid.wellFormed _ lookup)
  newer := by
    intro next found retired last
    obtain ⟨live, lookup, rfl⟩ := Option.map_eq_some_iff.mp found
    rw [numbered]
    exact valid.newer _ lookup _ last
  remembered := valid.remembered
  latest := valid.latest
  positive := valid.positive

theorem StreamThread.Valid.expire (valid : thread.Valid key) : thread.expire.Valid key := by
  unfold StreamThread.expire
  split
  · exact valid
  · next live lookup =>
      split
      · exact valid.retire lookup
      · exact valid

theorem StreamThread.Valid.environment (valid : thread.Valid key) (event : EnvironmentEvent) :
    (thread.environment event).Valid key := by
  cases event with
  | expireLease => exact valid.mapLive (fun _ wellFormed => wellFormed.expireLease) fun _ => rfl
  | observeRetention =>
    exact valid.mapLive (fun _ wellFormed => wellFormed.observeRetention) fun _ => rfl
  | purge =>
    refine valid.mapLive (fun _ wellFormed => wellFormed.purge) fun live => ?_
    unfold Generation.purge
    split <;> rfl
  | expire => exact valid.expire

/-- What one event does to one stream. -/
inductive EventStep (key : StreamKey) (thread : StreamThread) : StreamThread → Prop
  | untouched : EventStep key thread thread
  | committed {transition : MessagingTransition} {state : MessagingStateSnapshot}
      {effect : MessagingStorageEffect} {after : StreamThread} (addressed : transition.key = key)
      (step : ThreadStep transition state thread effect after) : EventStep key thread after
  | environment (event : EnvironmentEvent) : EventStep key thread (thread.environment event)

theorem EventStep.valid (valid : thread.Valid key) (step : EventStep key thread after) :
    after.Valid key := by
  cases step with
  | untouched => exact valid
  | committed addressed step => exact step.valid (by rw [← addressed]; rfl) valid
  | environment event => exact valid.environment event

variable {store : StreamStore} {observedAt : Nat}

theorem commit_threadStep {ledger : LedgerTransition} {result : MessagingTransitionResult}
    {afterStore : StreamStore} (valid : store.Valid)
    (committed : store.commit observedAt ledger.toMessagingTransition = .ok (result, afterStore)) :
    ∃ effect, result = effect.result ∧
      ThreadStep ledger.toMessagingTransition (store.snapshot observedAt ledger.toMessagingTransition)
        (store.threads ledger.key) effect (afterStore.threads ledger.key) ∧
      ∀ other, other ≠ ledger.key → afterStore.threads other = store.threads other := by
  obtain ⟨effect, resolved, rfl, rfl⟩ := StreamStore.commit_eq_ok.mp committed
  have step := resolved_threadStep (valid _) ledger.unselected (resolve_cases resolved)
  refine ⟨effect, rfl, ?_, ?_⟩
  · simpa [StreamStore.apply] using step
  · intro other different
    simp [StreamStore.apply, StreamStore.onThread_threads_of_ne different]

theorem next_of_resolved {ledger : LedgerTransition}
    (resolved : resolveMessagingTransition ledger.toMessagingTransition
      (store.snapshot observedAt ledger.toMessagingTransition) = .ok effect) :
    store.next (.commit observedAt ledger) = store.apply ledger.key effect := by
  have committed := StreamStore.accepted_eq_some.mpr
    (StreamStore.commit_eq_ok.mpr ⟨effect, resolved, rfl, rfl⟩)
  rw [StreamStore.next, committed]
  rfl

theorem next_of_rejected {ledger : LedgerTransition} {error : MessagingError}
    (rejected : resolveMessagingTransition ledger.toMessagingTransition
      (store.snapshot observedAt ledger.toMessagingTransition) = .error error) :
    store.next (.commit observedAt ledger) = store := by
  rw [StreamStore.next, StreamStore.accepted, StreamStore.commit, rejected]
  rfl

/-- One event is one step of each stream. -/
theorem next_eventStep (valid : store.Valid) (event : StreamEvent) (key : StreamKey) :
    EventStep key (store.threads key) ((store.next event).threads key) := by
  cases event with
  | commit observedAt ledger =>
    rw [StreamStore.next]
    cases accepted : store.accepted observedAt ledger.toMessagingTransition with
    | none => exact .untouched
    | some outcome =>
      obtain ⟨effect, -, step, others⟩ :=
        commit_threadStep valid (StreamStore.accepted_eq_some.mp accepted)
      by_cases same : key = ledger.key
      · subst same
        exact .committed rfl step
      · rw [Option.map_some, Option.getD_some, others key same]
        exact .untouched
  | environment changedKey event =>
    by_cases same : key = changedKey
    · subst same
      rw [StreamStore.next, StreamStore.onThread_threads_self]
      exact .environment event
    · rw [StreamStore.next, StreamStore.onThread_threads_of_ne same]
      exact .untouched

theorem StreamStore.Valid.next (valid : store.Valid) (event : StreamEvent) :
    (store.next event).Valid :=
  fun key => (next_eventStep valid event key).valid (valid key)

theorem StreamStore.Valid.after_events (valid : store.Valid) (events : List StreamEvent) :
    (store.after events).Valid :=
  Machine.run_invariant (fun _ event valid => valid.next event) valid

end Tinkerfin.Messaging
