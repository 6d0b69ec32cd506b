import Tinkerfin.Messaging.MemorySimulation

/-!
# The in-memory backend refines the transition model

A commit first retires generations whose terminal deadline passed.  It then raises and leaves
everything else as it was, or it leaves a backend from which every snapshot of the addressed stream
is read back as the stream before with the effect applied.
-/

namespace Tinkerfin.Messaging

open Function (update)

variable {backend kept after : MemoryBackend} {store : StreamStore} {key : StreamKey}
  {state : StreamState} {clock : ClockReadings} {bound later : Nat}

/-! ## Expiry of due generations -/

/-- A stream is as before, or its generation was due at a bound and is retired. -/
inductive MemoryBackend.StreamExpires (backend kept : MemoryBackend) (bound : Nat)
    (key : StreamKey) : Prop
  | untouched (stream : kept.stream? key = backend.stream? key)
      (shown : kept.view.threads key = backend.view.threads key)
  | retired (state : StreamState) (deadline : Nat) (lookup : backend.stream? key = some state)
      (expires : state.expiresAtMonotonic = some deadline) (due : deadline ≤ bound)
      (removed : kept.stream? key = none)
      (shown : kept.view.threads key =
        (backend.view.threads key).retire state.generation .expired)

/-- Only due generations are retired and channels keep their configuration. -/
structure MemoryBackend.ExpiresDue (backend kept : MemoryBackend) (bound : Nat) : Prop where
  channels : kept.view.channels = backend.view.channels
  streams : ∀ key, backend.StreamExpires kept bound key

theorem MemoryBackend.ExpiresDue.refl (backend : MemoryBackend) (bound : Nat) :
    backend.ExpiresDue backend bound :=
  ⟨rfl, fun _ => .untouched rfl rfl⟩

theorem MemoryBackend.ExpiresDue.trans (first : backend.ExpiresDue kept bound)
    (second : kept.ExpiresDue after bound) : backend.ExpiresDue after bound where
  channels := second.channels.trans first.channels
  streams key := by
    cases first.streams key with
    | untouched stream shown =>
      cases second.streams key with
      | untouched streamAfter shownAfter =>
        exact .untouched (streamAfter.trans stream) (shownAfter.trans shown)
      | retired state deadline lookup expires due removed shownAfter =>
        exact .retired state deadline (stream ▸ lookup) expires due removed
          (shown ▸ shownAfter)
    | retired state deadline lookup expires due removed shown =>
      cases second.streams key with
      | untouched streamAfter shownAfter =>
        exact .retired state deadline lookup expires due (streamAfter.trans removed)
          (shownAfter.trans shown)
      | retired other _ found => exact nomatch removed.symm.trans found

theorem MemoryBackend.ExpiresDue.mono (expires : backend.ExpiresDue kept bound)
    (later_le : bound ≤ later) : backend.ExpiresDue kept later where
  channels := expires.channels
  streams key := by
    cases expires.streams key with
    | untouched stream shown => exact .untouched stream shown
    | retired state deadline lookup expires due removed shown =>
      exact .retired state deadline lookup expires (due.trans later_le) removed shown

theorem MemoryBackend.Tracks.expireIfDue_expires (tracks : backend.Tracks store) (key : StreamKey)
    (now : Nat) : backend.ExpiresDue (backend.expireIfDue key now) now := by
  rcases backend.expireIfDue_cases key now with unchanged | ⟨state, deadline, lookup, expires, due,
    retired⟩
  · rw [unchanged]
    exact .refl backend now
  · have view := tracks.view_retire_live .expired lookup
    have kept : ∀ other, (backend.retireMemoryGeneration (backend.channel key.channel) key.thread
        state .expired).stream? other = if other = key then none else backend.stream? other :=
      fun other => MemoryBackend.stream?_retire (tracks.valid.configured lookup)
        (tracks.valid.channel_channel key.channel) fun _ _ => rfl
    rw [retired]
    refine ⟨by rw [view], fun other => ?_⟩
    have shown := congrFun (congrArg StreamStore.threads view) other
    simp only [Function.update_apply] at shown
    split at shown
    · next same =>
        subst same
        exact .retired state deadline lookup expires due ((kept other).trans (if_pos rfl)) shown
    · next different => exact .untouched ((kept other).trans (if_neg different)) shown

theorem MemoryBackend.Tracks.reclaimWithin_expires (rounds now : Nat)
    (tracks : backend.Tracks store) :
    backend.ExpiresDue (backend.reclaimWithin now rounds) now := by
  induction rounds generalizing backend store with
  | zero => exact .refl backend now
  | succ rounds ih =>
    unfold MemoryBackend.reclaimWithin
    cases popped : backend.expirations.popDue now with
    | mk due expirations =>
      have unscheduled := tracks.unscheduled popped
      have dropped : backend.ExpiresDue { backend with expirations } now :=
        ⟨rfl, fun _ => .untouched rfl rfl⟩
      cases due with
      | none => exact dropped
      | some key =>
        obtain ⟨events, expired⟩ := unscheduled.expireIfDue key now
        exact dropped.trans
          ((unscheduled.expireIfDue_expires key now).trans (ih expired))

theorem MemoryBackend.Tracks.housekept_expires (tracks : backend.Tracks store)
    (clock : ClockReadings) (transition : MessagingTransition) :
    backend.ExpiresDue (backend.housekept clock transition)
      (max clock.reclaimedAt clock.checkedAt) := by
  unfold MemoryBackend.housekept
  split
  · obtain ⟨events, reclaimed⟩ := tracks.reclaimWithin 64 clock.reclaimedAt
    exact ((tracks.reclaimWithin_expires 64 clock.reclaimedAt).mono (Nat.le_max_left _ _)).trans
      ((reclaimed.expireIfDue_expires transition.key clock.checkedAt).mono (Nat.le_max_right _ _))
  · exact (tracks.expireIfDue_expires transition.key clock.checkedAt).mono (Nat.le_max_right _ _)

/-! ## Commits -/

/-- Snapshots of another stream only change in the channel record that an effect creates. -/
theorem StreamStore.stateSnapshot_apply {effect : MessagingStorageEffect} {observedAt : Nat}
    {query : MessagingStateQuery} (different : query.key ≠ key) :
    (store.apply key effect).stateSnapshot observedAt query =
      { store.stateSnapshot observedAt query with
        channel := if query.channel = key.channel then
            effect.channel.or (store.channels query.channel)
          else
            store.channels query.channel } := by
  have threads : (store.apply key effect).threads query.key = store.threads query.key :=
    Function.update_of_ne different _ _
  have channels : (store.apply key effect).channels query.channel =
      if query.channel = key.channel then effect.channel.or (store.channels query.channel)
      else store.channels query.channel := by
    cases created : effect.channel with
    | none => simp [StreamStore.apply, StreamStore.onThread, created]
    | some channel => simp [StreamStore.apply, created, Function.update_apply]
  simp only [StreamStore.stateSnapshot, threads, channels]

/-- What a commit does to the backend left by its expiry work. -/
inductive MemoryBackend.Commits (kept : MemoryBackend) (clock : ClockReadings)
    (transition : MessagingTransition) :
    Except MessagingError MessagingTransitionResult × MemoryBackend → Prop
  | raised (error : MessagingError) : kept.Commits clock transition (.error error, kept)
  | stored (snapshot : MessagingStateSnapshot) (effect : MessagingStorageEffect)
      (after : MemoryBackend)
      (read : kept.memoryStateSnapshot clock.observedAt transition.query = .ok snapshot)
      (resolved : resolveMessagingTransition transition snapshot = .ok effect)
      (reread : ∀ observedAt query, after.memoryStateSnapshot observedAt query =
        .ok ((kept.view.apply transition.key effect).stateSnapshot observedAt query))
      (others : ∀ observedAt query, query.key ≠ transition.key →
        ∃ snapshot, kept.memoryStateSnapshot observedAt query = .ok snapshot ∧
          after.memoryStateSnapshot observedAt query = .ok { snapshot with
            channel := if query.channel = transition.channel then
                effect.channel.or snapshot.channel
              else
                snapshot.channel }) :
      kept.Commits clock transition (.ok effect.result, after)

/-- A commit refines the resolution of its transition against what the backend shows. -/
structure MemoryBackend.CommitRefines (backend : MemoryBackend) (clock : ClockReadings)
    (transition : MessagingTransition) : Prop where
  expires : backend.ExpiresDue (backend.housekept clock transition)
    (max clock.reclaimedAt clock.checkedAt)
  /-- The view is what every snapshot is read from. -/
  shown : ∀ observedAt query,
    (backend.housekept clock transition).memoryStateSnapshot observedAt query =
      .ok ((backend.housekept clock transition).view.stateSnapshot observedAt query)
  commits : (backend.housekept clock transition).Commits clock transition
    (backend.commitMessagingTransition clock transition)

/-- In every reachable backend a commit retires due generations and then raises without a change,
or applies exactly its effect to what the backend shows. -/
theorem memory_refines_transitions (limits : MessagingLimits) (policy : MessagingRetentionPolicy)
    (events : List MemoryEvent) (clock : ClockReadings) (ledger : LedgerTransition) :
    ((MemoryBackend.opened limits policy).after events).CommitRefines clock
      (ledger.under ((MemoryBackend.opened limits policy).after
        events).messagingSettings).toMessagingTransition := by
  obtain ⟨storeEvents, tracks⟩ := MemoryBackend.tracks_after limits policy events
  generalize (MemoryBackend.opened limits policy).after events = backend at tracks
  obtain ⟨more, housekept, outcome⟩ := tracks.commits clock ledger
  have shown := MemoryBackend.memoryStateSnapshot_eq housekept.valid
  refine ⟨tracks.housekept_expires clock _, shown, ?_⟩
  generalize backend.commitMessagingTransition clock
    (ledger.under backend.messagingSettings).toMessagingTransition = committed at outcome
  cases outcome with
  | rejected | full => exact .raised _
  | @stored effect after resolved stores room applied valid view =>
    refine .stored _ effect after (shown _ _) resolved ?_ ?_
    · intro observedAt query
      rw [MemoryBackend.memoryStateSnapshot_eq valid, view]
    · intro observedAt query different
      refine ⟨_, shown observedAt query, ?_⟩
      rw [MemoryBackend.memoryStateSnapshot_eq valid, view,
        StreamStore.stateSnapshot_apply different]
      rfl

private def refinedIdentity : RunIdentity := ⟨⟨"host", "thread"⟩, "run"⟩

private def refinedReference : MessagingRunReference where
  channel := "chat"
  identity := refinedIdentity
  generation := 1
  producerToken := some "owner"
  producerFence := some 1

private def refinedPreparation : LedgerTransition where
  kind := .prepareRun
  transitionId := "owner"
  channel := "chat"
  identity := refinedIdentity
  codecId := some "json"
  unselected := unselected_none

private def refinedFinish : LedgerTransition where
  kind := .finishRun
  transitionId := "finish"
  channel := "chat"
  identity := refinedIdentity
  runReference := some refinedReference
  finalStatus := some .completed
  unselected := nofun

private def refinedSettlement : LedgerTransition where
  kind := .beginSettlement
  transitionId := "settle"
  channel := "chat"
  identity := refinedIdentity
  runReference := some refinedReference
  unselected := nofun

private def refinedEvents : List MemoryEvent :=
  [.commit ⟨0, 0, 0, 0⟩ refinedPreparation, .commit ⟨0, 0, 0, 0⟩ refinedFinish]

/-- A raising commit that finds its generation due still retires it. -/
theorem raising_commit_retires :
    ¬∀ limits policy events clock (ledger : LedgerTransition) error after,
      ((MemoryBackend.opened limits policy).after events).commitMessagingTransition clock
        (ledger.under ((MemoryBackend.opened limits policy).after
          events).messagingSettings).toMessagingTransition = (.error error, after) →
      after = (MemoryBackend.opened limits policy).after events := by
  intro unchanged
  let backend := (MemoryBackend.opened {} { terminalTtl := some 10 }).after refinedEvents
  let committed := backend.commitMessagingTransition ⟨20, 20, 20, 20⟩
    (refinedSettlement.under backend.messagingSettings).toMessagingTransition
  have raised : (match committed.1 with | .ok _ => false | .error _ => true) = true := by
    decide +kernel
  have retired : (backend.totalRecords, committed.2.totalRecords) = (4, 3) := by decide +kernel
  cases outcome : committed with
  | mk result after =>
    cases result with
    | ok result =>
      rw [outcome] at raised
      cases raised
    | error error =>
      have same := unchanged {} { terminalTtl := some 10 } refinedEvents ⟨20, 20, 20, 20⟩
        refinedSettlement error after outcome
      rw [outcome] at retired
      simp only [same, Prod.mk.injEq] at retired
      exact absurd (retired.1.symm.trans retired.2) (by decide)

end Tinkerfin.Messaging
