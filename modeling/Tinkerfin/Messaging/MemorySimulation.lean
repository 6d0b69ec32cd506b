import Tinkerfin.Messaging.MemoryApply
import Tinkerfin.Messaging.MemoryPurge

/-!
# The in-memory backend implements the stream store

Every operation of the backend is a list of events of the stream store: the expiry work becomes
expiry events and a stored effect becomes one commit.  The store and the view agree on everything
but the records of a sealed generation, which the backend purges in place.
-/

namespace Tinkerfin.Messaging

open Function (update)

variable {backend : MemoryBackend} {store : StreamStore} {key : StreamKey} {state : StreamState}
  {shown thread : StreamThread} {live : Generation} {transition : MessagingTransition}
  {effect : MessagingStorageEffect} {observedAt now : Nat}

/-! ## Agreement -/

/-- A shown stream is the stored one, up to the records of a sealed generation. -/
inductive StreamThread.Agrees (shown thread : StreamThread) : Prop
  | same (equal : shown = thread)
  | sealed {visible live : Generation} (shows : shown = { thread with live := some visible })
      (lookup : thread.live = some live)
      (generation : visible.stream.generation = live.stream.generation)
      (disposition : visible.stream.disposition = live.stream.disposition)
      (closed : live.stream.disposition.isSealed = true)

/-- A valid backend whose view agrees with a valid store. -/
structure MemoryBackend.Tracks (backend : MemoryBackend) (store : StreamStore) : Prop where
  valid : backend.Valid
  storeValid : store.Valid
  channels : backend.view.channels = store.channels
  threads : ∀ key, (backend.view.threads key).Agrees (store.threads key)

theorem MemoryBackend.opened_tracks (limits : MessagingLimits)
    (policy : MessagingRetentionPolicy) :
    (MemoryBackend.opened limits policy).Tracks StreamStore.empty where
  valid := MemoryBackend.opened_valid limits policy
  storeValid := StreamStore.empty_valid
  channels := rfl
  threads _ := .same rfl

theorem StreamThread.Agrees.retired (agrees : shown.Agrees thread) :
    shown.retired = thread.retired := by
  cases agrees with
  | same equal => rw [equal]
  | sealed shows => rw [shows]

theorem StreamThread.Agrees.stored (agrees : shown.Agrees thread)
    (lookup : shown.live = some live) :
    ∃ stored, thread.live = some stored ∧ stored.stream.generation = live.stream.generation ∧
      stored.stream.disposition = live.stream.disposition ∧
      shown = { thread with live := some live } := by
  cases agrees with
  | same equal =>
    subst equal
    exact ⟨live, lookup, rfl, rfl, by rw [← lookup]⟩
  | sealed shows stored generation disposition =>
    rw [shows] at lookup
    cases lookup
    exact ⟨_, stored, generation.symm, disposition.symm, shows⟩

theorem StreamThread.Agrees.of_active (agrees : shown.Agrees thread)
    (lookup : shown.live = some live) (active : live.stream.disposition = .active) :
    shown = thread := by
  cases agrees with
  | same equal => exact equal
  | sealed shows stored generation disposition closed =>
    rw [shows] at lookup
    cases lookup
    rw [← disposition, active] at closed
    cases closed

theorem MemoryBackend.Tracks.newer (tracks : backend.Tracks store)
    (lookup : (backend.channel key.channel).streams.get? key.thread = some state) {retired : Nat}
    (latest : (backend.view.threads key).retired = some retired) : retired < state.generation := by
  have agrees := tracks.threads key
  obtain ⟨stored, found, generation, -⟩ :=
    agrees.stored (MemoryBackend.view_live.mpr ⟨state, lookup, rfl⟩)
  have newer := (tracks.storeValid key).newer _ found _ (agrees.retired ▸ latest)
  rwa [generation] at newer

theorem MemoryBackend.Tracks.change {after : MemoryBackend} {afterStore : StreamStore}
    (tracks : backend.Tracks store) (valid : after.Valid) (storeValid : afterStore.Valid)
    (channels : after.view.channels = afterStore.channels)
    (changed : shown.Agrees thread)
    (view : after.view.threads = update backend.view.threads key shown)
    (stored : afterStore.threads = update store.threads key thread) : after.Tracks afterStore where
  valid := valid
  storeValid := storeValid
  channels := channels
  threads other := by
    rw [view, stored, Function.update_apply, Function.update_apply]
    split
    · exact changed
    · exact tracks.threads other

/-! ## Expiry -/

/-- The expiry check retires a generation whose deadline passed, or does nothing. -/
theorem MemoryBackend.expireIfDue_cases (backend : MemoryBackend) (key : StreamKey) (now : Nat) :
    backend.expireIfDue key now = backend ∨
      ∃ state deadline, (backend.channel key.channel).streams.get? key.thread = some state ∧
        state.expiresAtMonotonic = some deadline ∧ deadline ≤ now ∧
        backend.expireIfDue key now = backend.retireMemoryGeneration
          (backend.channel key.channel) key.thread state .expired := by
  cases lookup : (backend.channel key.channel).streams.get? key.thread with
  | none => exact .inl (by simp [MemoryBackend.expireIfDue, lookup])
  | some state =>
    cases expires : state.expiresAtMonotonic with
    | none => exact .inl (by simp [MemoryBackend.expireIfDue, lookup, expires])
    | some deadline =>
      rcases Nat.lt_or_ge now deadline with early | due
      · exact .inl (by simp [MemoryBackend.expireIfDue, lookup, expires, early])
      · refine .inr ⟨state, deadline, rfl, expires, due, ?_⟩
        simp [MemoryBackend.expireIfDue, lookup, expires, Nat.not_lt.mpr due]

/-- Retiring the live generation of a stream in the view. -/
theorem MemoryBackend.Tracks.view_retire_live (tracks : backend.Tracks store)
    (reason : MessagingCleanupReason)
    (lookup : (backend.channel key.channel).streams.get? key.thread = some state) :
    (backend.retireMemoryGeneration (backend.channel key.channel) key.thread state reason).view =
      { backend.view with
        threads := Function.update backend.view.threads key
          ((backend.view.threads key).retire state.generation reason) } := by
  have configured := tracks.valid.configured lookup
  have named := tracks.valid.channel_channel key.channel
  have others : ∀ other : StreamKey, other.channel = key.channel → other.thread ≠ key.thread →
      (backend.channel key.channel).view other = backend.view.threads other := by
    intro other sameChannel _
    rw [← sameChannel]
    rfl
  exact MemoryBackend.view_retire configured named rfl others
    fun retired latest => tracks.newer lookup latest

/-- Retiring a due generation is the expiry step of its stream. -/
theorem MemoryBackend.Tracks.retire_expired {deadline : Nat} (tracks : backend.Tracks store)
    (lookup : (backend.channel key.channel).streams.get? key.thread = some state)
    (expires : state.expiresAtMonotonic = some deadline) :
    (backend.retireMemoryGeneration (backend.channel key.channel) key.thread state
      .expired).Tracks (store.next (.environment key .expire)) := by
  have valid := tracks.valid
  have configured := valid.configured lookup
  have named := valid.channel_channel key.channel
  obtain ⟨active, idle⟩ := (valid.streams _ _ lookup).idle _ expires
  have live := MemoryBackend.view_live.mpr ⟨state, lookup, rfl⟩
  have same := (tracks.threads key).of_active live active
  have view : (backend.retireMemoryGeneration (backend.channel key.channel) key.thread state
      .expired).view = { backend.view with
        threads := update backend.view.threads key
          ((store.threads key).retire state.generation .expired) } := by
    rw [← same]
    exact tracks.view_retire_live .expired lookup
  have expired : (store.threads key).expire =
      (store.threads key).retire state.generation .expired := by
    rw [same] at live
    have released : (state.view key).stream.activeRunId = none := by
      simp [StreamState.view, StreamState.stored, idle]
    have isActive : (state.view key).stream.disposition = .active := active
    simp only [StreamThread.expire, live, isActive, released, and_self, if_true]
    rfl
  refine tracks.change ?_ (tracks.storeValid.next _) ?_ (.same rfl)
    (congrArg StreamStore.threads view) ?_
  · refine valid.retire configured named fun thread other _ stored => ?_
    exact valid.streams ⟨key.channel, thread⟩ other stored
  · exact (congrArg StreamStore.channels view).trans tracks.channels
  · rw [← expired]
    rfl

theorem MemoryBackend.Tracks.expireIfDue (tracks : backend.Tracks store) (key : StreamKey)
    (now : Nat) : ∃ events, (backend.expireIfDue key now).Tracks (store.after events) := by
  rcases backend.expireIfDue_cases key now with unchanged | ⟨state, deadline, lookup, expires, -,
    retired⟩
  · rw [unchanged]
    exact ⟨[], tracks⟩
  · rw [retired]
    exact ⟨[.environment key .expire], tracks.retire_expired lookup expires⟩

theorem MemoryBackend.Tracks.unschedule {expirations : ExpiryIndex Nat} (tracks : backend.Tracks store)
    (fewer : ∀ key deadline, expirations.deadlines.get? key = some deadline →
      backend.expirations.deadlines.get? key = some deadline) :
    MemoryBackend.Tracks { backend with expirations } store where
  valid := tracks.valid.recharge fun key deadline stored =>
    tracks.valid.scheduled key deadline (fewer key deadline stored)
  storeValid := tracks.storeValid
  channels := tracks.channels
  threads := tracks.threads

theorem MemoryBackend.Tracks.unscheduled {due : Option StreamKey} {expirations : ExpiryIndex Nat}
    (tracks : backend.Tracks store) (popped : backend.expirations.popDue now = (due, expirations)) :
    MemoryBackend.Tracks { backend with expirations } store := by
  refine tracks.unschedule fun other deadline stored => ?_
  cases due with
  | none => rwa [ExpiryIndex.popDueWithin_eq_none popped] at stored
  | some key =>
    rw [(ExpiryIndex.popDueWithin_eq_some popped).2, Dict.get?_erase] at stored
    split at stored
    · cases stored
    · exact stored

theorem MemoryBackend.Tracks.reclaimWithin (rounds now : Nat) (tracks : backend.Tracks store) :
    ∃ events, (backend.reclaimWithin now rounds).Tracks (store.after events) := by
  induction rounds generalizing backend store with
  | zero => exact ⟨[], tracks⟩
  | succ rounds ih =>
    unfold MemoryBackend.reclaimWithin
    cases popped : backend.expirations.popDue now with
    | mk due expirations =>
      have unscheduled := tracks.unscheduled popped
      cases due with
      | none => exact ⟨[], unscheduled⟩
      | some key =>
        obtain ⟨first, expired⟩ := unscheduled.expireIfDue key now
        obtain ⟨rest, reclaimed⟩ := ih expired
        refine ⟨first ++ rest, ?_⟩
        rw [StreamStore.after, Machine.run_append]
        exact reclaimed

theorem MemoryBackend.Tracks.housekept (tracks : backend.Tracks store) (clock : ClockReadings)
    (transition : MessagingTransition) :
    ∃ events, (backend.housekept clock transition).Tracks (store.after events) := by
  unfold MemoryBackend.housekept
  split
  · obtain ⟨first, reclaimed⟩ := tracks.reclaimWithin 64 clock.reclaimedAt
    obtain ⟨second, expired⟩ := reclaimed.expireIfDue transition.key clock.checkedAt
    refine ⟨first ++ second, ?_⟩
    rw [StreamStore.after, Machine.run_append]
    exact expired
  · exact tracks.expireIfDue transition.key clock.checkedAt

/-! ## Commits -/

theorem StreamStore.snapshot_congr {other : StreamStore} (channels : store.channels = other.channels)
    (threads : store.threads transition.key = other.threads transition.key) :
    store.snapshot observedAt transition = other.snapshot observedAt transition := by
  simp only [StreamStore.snapshot, channels, threads]

theorem StreamStore.apply_channels {other : StreamStore}
    (channels : store.channels = other.channels) :
    (store.apply key effect).channels = (other.apply key effect).channels := by
  simp only [StreamStore.apply, channels]

theorem resolve_retired {snapshot : MessagingStateSnapshot} {stream : StoredMessagingStream}
    {reason : MessagingCleanupReason} (kind : transition.kind = .finishGenerationCleanup)
    (identified : validateTransitionIdentity transition = .ok ())
    (requested : transition.cleanupReason = some reason)
    (claimed : transition.cleanupGeneration = some stream.generation)
    (positive : 1 ≤ stream.generation) (found : snapshot.stream = some stream)
    (closing : stream.disposition = reason.sealing) :
    resolveMessagingTransition transition snapshot =
      .ok (retiredEffect transition stream stream.generation reason) := by
  have unretired : reason.sealing ≠ reason.retired := by cases reason <;> decide
  simp only [resolveMessagingTransition, identified, bind, Except.bind, kind,
    resolveFinishGenerationCleanup, requested, claimed, found, require, positive, if_true,
    unretired, if_false, closing]
  rfl

/-- Storing a resolved effect is one commit of the store, or nothing on a sealed generation. -/
theorem MemoryBackend.Tracks.stored {ledger : LedgerTransition} {after : MemoryBackend}
    (tracks : backend.Tracks store) (valid : after.Valid)
    (resolved : resolveMessagingTransition ledger.toMessagingTransition
      (backend.view.snapshot observedAt ledger.toMessagingTransition) = .ok effect)
    (view : after.view = backend.view.apply ledger.key effect) :
    ∃ events, after.Tracks (store.after events) := by
  cases tracks.threads ledger.key with
  | same equal =>
    have committed := resolved
    rw [StreamStore.snapshot_congr tracks.channels equal] at committed
    refine ⟨[.commit observedAt ledger], ?_⟩
    rw [StreamStore.after, Machine.run_cons, Machine.run_nil, next_of_resolved committed]
    refine tracks.change valid ?_ ?_ (.same rfl) ?_ rfl
    · have next := tracks.storeValid.next (.commit observedAt ledger)
      rwa [next_of_resolved committed] at next
    · rw [view]
      exact StreamStore.apply_channels tracks.channels
    · rw [view, StreamStore.apply, StreamStore.onThread, equal]
  | @sealed visible live shows lookup generation disposition closed =>
    have shown : (backend.view.threads ledger.key).live = some visible := by rw [shows]
    rcases resolved_sealed shown (disposition ▸ closed) ledger.unselected
      (resolve_cases resolved) with nothing | ⟨reason, kind, requested, claimed, closing, rfl⟩
    · rw [StreamStore.apply_of_silent nothing] at view
      exact ⟨[], valid, tracks.storeValid, view ▸ tracks.channels, view ▸ tracks.threads⟩
    · simp only [resolveMessagingTransition, bind_eq_ok] at resolved
      obtain ⟨_, identified, -⟩ := resolved
      have found : (store.snapshot observedAt ledger.toMessagingTransition).stream =
          some live.stream := by
        refine snapshot_stream_eq_some.mpr ⟨live, ?_, rfl⟩
        rw [selectedGeneration, if_pos kind, claimed, generation]
        exact StreamThread.selected_eq_some.mpr ⟨lookup, fun wanted named => by simpa using named⟩
      have committed := resolve_retired kind identified requested (generation ▸ claimed)
        ((tracks.storeValid _).wellFormed live lookup).positive found
        (disposition ▸ closing)
      have retired : (backend.view.threads ledger.key).apply
          (retiredEffect ledger.toMessagingTransition visible.stream visible.stream.generation
            reason) = (store.threads ledger.key).apply
          (retiredEffect ledger.toMessagingTransition live.stream live.stream.generation
            reason) := by
        rw [apply_retiredEffect shown, apply_retiredEffect lookup, shows, generation]
        rfl
      refine ⟨[.commit observedAt ledger], ?_⟩
      rw [StreamStore.after, Machine.run_cons, Machine.run_nil, next_of_resolved committed]
      refine tracks.change valid ?_ ?_ (.same rfl) ?_ rfl
      · have next := tracks.storeValid.next (.commit observedAt ledger)
        rwa [next_of_resolved committed] at next
      · rw [view]
        exact tracks.channels
      · rw [view, StreamStore.apply, StreamStore.onThread]
        simp only [retired]

/-- What a commit of a tracked backend does after its expiry work. -/
inductive CommitOutcome (kept : MemoryBackend) (clock : ClockReadings)
    (transition : MessagingTransition) :
    Except MessagingError MessagingTransitionResult × MemoryBackend → Prop
  | rejected {error : MessagingError}
      (resolved : resolveMessagingTransition transition
        (kept.view.snapshot clock.observedAt transition) = .error error) :
      CommitOutcome kept clock transition (.error error, kept)
  | full {effect : MessagingStorageEffect} {error : MessagingError}
      (resolved : resolveMessagingTransition transition
        (kept.view.snapshot clock.observedAt transition) = .ok effect)
      (full : kept.requireTotalRoom ((kept.channel transition.key.channel).effectCapacity
        transition.key.thread effect) = .error error) :
      CommitOutcome kept clock transition (.error error, kept)
  | stored {effect : MessagingStorageEffect} {after : MemoryBackend}
      (resolved : resolveMessagingTransition transition
        (kept.view.snapshot clock.observedAt transition) = .ok effect)
      (stores : kept.Stores transition effect)
      (room : kept.requireTotalRoom ((kept.channel transition.key.channel).effectCapacity
        transition.key.thread effect) = .ok ())
      (applied : kept.applyMemoryEffect clock transition.key effect = (.ok (), after))
      (valid : after.Valid) (view : after.view = kept.view.apply transition.key effect) :
      CommitOutcome kept clock transition (.ok effect.result, after)

theorem MemoryBackend.Tracks.resolved_stores {ledger : LedgerTransition}
    (tracks : backend.Tracks store)
    (settled : ledger.settings = backend.messagingSettings)
    (resolved : resolveMessagingTransition ledger.toMessagingTransition
      (backend.view.snapshot observedAt ledger.toMessagingTransition) = .ok effect) :
    backend.Stores ledger.toMessagingTransition effect := by
  cases tracks.threads ledger.key with
  | same equal =>
    exact Messaging.resolved_stores tracks.valid (equal ▸ tracks.storeValid ledger.key) settled
      ledger.unselected (resolve_cases resolved)
  | @sealed visible live shows lookup generation disposition closed =>
    have shown : (backend.view.threads ledger.key).live = some visible := by rw [shows]
    obtain ⟨state, found, rfl, -⟩ := tracks.valid.thread_valid shown
    have sealed : state.disposition.isSealed = true := by
      have same : state.disposition = live.stream.disposition := disposition
      rw [same, closed]
    exact resolved_stores_of_sealed tracks.valid found sealed ledger.unselected
      (resolve_cases resolved)

/-- A commit resolves its transition against the view and stores the effect, or changes nothing
beyond its expiry work. -/
theorem MemoryBackend.Tracks.commit_outcome {kept : MemoryBackend} {clock : ClockReadings}
    {ledger : LedgerTransition}
    (housekept : kept = backend.housekept clock ledger.toMessagingTransition)
    (tracks : kept.Tracks store) (settled : ledger.settings = kept.messagingSettings) :
    CommitOutcome kept clock ledger.toMessagingTransition
      (backend.commitMessagingTransition clock ledger.toMessagingTransition) := by
  have snapshot := MemoryBackend.memoryStateSnapshot_eq tracks.valid clock.observedAt
    ledger.toMessagingTransition.query
  rw [StreamStore.stateSnapshot_query] at snapshot
  rw [MemoryBackend.commitMessagingTransition, ← housekept]
  simp only [snapshot, bind, Except.bind]
  cases resolved : resolveMessagingTransition ledger.toMessagingTransition
      (kept.view.snapshot clock.observedAt ledger.toMessagingTransition) with
  | error error => exact .rejected resolved
  | ok effect =>
    have stores := tracks.resolved_stores settled resolved
    cases room : kept.requireTotalRoom ((kept.channel ledger.key.channel).effectCapacity
        ledger.key.thread effect) with
    | error error =>
      have unapplied : kept.applyMemoryEffect clock ledger.key effect =
          (.error error, kept) := by
        simp only [MemoryBackend.applyMemoryEffect, room, bind, Except.bind]
      simp only [unapplied]
      exact .full resolved room
    | ok _ =>
      obtain ⟨after, applied, valid, view⟩ :=
        stores.applied clock tracks.valid (fun state lookup retired latest =>
          tracks.newer lookup latest) room
      simp only [applied]
      exact .stored resolved stores room applied valid view

/-! ## Settings -/

/-- Operations never change the settings of a backend. -/
def MemoryBackend.SameSettings (backend after : MemoryBackend) : Prop :=
  after.limits = backend.limits ∧ after.retentionPolicy = backend.retentionPolicy

theorem MemoryBackend.expireIfDue_settings (key : StreamKey) (now : Nat) :
    backend.SameSettings (backend.expireIfDue key now) := by
  rcases backend.expireIfDue_cases key now with unchanged | ⟨state, deadline, -, -, -, retired⟩
  · rw [unchanged]
    exact ⟨rfl, rfl⟩
  · rw [retired]
    exact MemoryBackend.keep_limits _ _

theorem MemoryBackend.SameSettings.trans {first second third : MemoryBackend}
    (left : first.SameSettings second) (right : second.SameSettings third) :
    first.SameSettings third :=
  ⟨right.1.trans left.1, right.2.trans left.2⟩

theorem MemoryBackend.reclaimWithin_settings (rounds : Nat) (now : Nat) :
    backend.SameSettings (backend.reclaimWithin now rounds) := by
  induction rounds generalizing backend with
  | zero => exact ⟨rfl, rfl⟩
  | succ rounds ih =>
    unfold MemoryBackend.reclaimWithin
    split
    · exact ⟨rfl, rfl⟩
    · next key expirations _ =>
        have expired : MemoryBackend.SameSettings { backend with expirations }
            (MemoryBackend.expireIfDue { backend with expirations } key now) :=
          MemoryBackend.expireIfDue_settings key now
        have reclaimed := expired.trans ih
        exact reclaimed

theorem MemoryBackend.housekept_settings (clock : ClockReadings)
    (transition : MessagingTransition) :
    backend.SameSettings (backend.housekept clock transition) := by
  unfold MemoryBackend.housekept
  split
  · exact (MemoryBackend.reclaimWithin_settings _ _).trans
      (MemoryBackend.expireIfDue_settings _ _)
  · exact MemoryBackend.expireIfDue_settings _ _

theorem MemoryBackend.SameSettings.settings {after : MemoryBackend}
    (same : backend.SameSettings after) : after.messagingSettings = backend.messagingSettings := by
  rw [MemoryBackend.messagingSettings, same.1, same.2]
  rfl

/-! ## Runs -/

theorem MemoryBackend.Tracks.commits (tracks : backend.Tracks store) (clock : ClockReadings)
    (ledger : LedgerTransition) :
    ∃ events, (backend.housekept clock
        (ledger.under backend.messagingSettings).toMessagingTransition).Tracks
        (store.after events) ∧
      CommitOutcome (backend.housekept clock
          (ledger.under backend.messagingSettings).toMessagingTransition) clock
        (ledger.under backend.messagingSettings).toMessagingTransition
        (backend.commitMessagingTransition clock
          (ledger.under backend.messagingSettings).toMessagingTransition) := by
  obtain ⟨events, housekept⟩ :=
    tracks.housekept clock (ledger.under backend.messagingSettings).toMessagingTransition
  refine ⟨events, housekept, housekept.commit_outcome rfl ?_⟩
  exact (MemoryBackend.housekept_settings _ _).settings.symm

theorem MemoryBackend.Tracks.purge (tracks : backend.Tracks store)
    (purge : StreamGenerationPurge) : (backend.purgeStreamGeneration purge).2.Tracks store := by
  rcases backend.purgeStreamGeneration_cases purge with unchanged | ⟨state, lookup, closed, purged⟩
  · rwa [unchanged]
  · have valid := tracks.valid
    have purges : (backend.purgeBatch state purge.maximumRecords.toNat).Purges backend state
        purge.key := MemoryBackend.purgeBatch_purges (valid.streams _ _ lookup) _
    rw [purged]
    generalize backend.purgeBatch state purge.maximumRecords.toNat = batch at purges
    obtain ⟨bytes, records, totals⟩ : ∃ bytes records, batch.backend =
        { backend with totalBytes := bytes, totalRecords := records } := ⟨_, _, purges.totals⟩
    rw [totals]
    obtain ⟨live, stored, generation, disposition, shows⟩ :=
      (tracks.threads purge.key).stored (MemoryBackend.view_live.mpr ⟨state, lookup, rfl⟩)
    have shown : (backend.channel purge.key.channel).view purge.key =
        { store.threads purge.key with live := some (state.view purge.key) } := shows
    have configured : ((backend.channel purge.key.channel).withStream purge.key.thread
        batch.state).codec.isSome := valid.configured lookup
    have named : ((backend.channel purge.key.channel).withStream purge.key.thread
        batch.state).channel = purge.key.channel := valid.channel_channel purge.key.channel
    refine tracks.change (valid.keep configured ?_ ?_) tracks.storeValid ?_ ?_
      (MemoryBackend.view_keep_threads configured named ?_) (Function.update_eq_self _ _).symm
    · intro thread other found
      rw [ChannelState.withStream, Dict.get?_insert] at found
      rw [named]
      split at found
      · next same =>
          cases found
          rw [same]
          exact purges.valid
      · exact valid.streams ⟨purge.key.channel, thread⟩ other found
    · exact fun other deadline found => .inr (valid.scheduled other deadline found)
    · rw [MemoryBackend.view_keep_channels configured named, ← tracks.channels]
      exact Function.update_eq_self purge.key.channel backend.view.channels
    · have visible : ((backend.channel purge.key.channel).withStream purge.key.thread
          batch.state).view purge.key =
          { store.threads purge.key with live := some (batch.state.view purge.key) } := by
        rw [ChannelState.view_withStream, if_pos rfl, shown]
      exact .sealed visible stored (purges.generation.trans generation.symm)
        (purges.disposition.trans disposition.symm) (disposition ▸ closed)
    · intro other sameChannel different
      rw [ChannelState.view_withStream, if_neg different, ← sameChannel]
      rfl

/-- Every operation of a tracked backend is a list of events of the store. -/
theorem MemoryBackend.Tracks.next (tracks : backend.Tracks store) (event : MemoryEvent) :
    ∃ events, (backend.next event).Tracks (store.after events) := by
  cases event with
  | commit clock ledger =>
    obtain ⟨events, housekept, outcome⟩ := tracks.commits clock ledger
    rw [MemoryBackend.next]
    generalize backend.commitMessagingTransition clock
      (ledger.under backend.messagingSettings).toMessagingTransition = committed at outcome
    cases outcome with
    | rejected | full => exact ⟨events, housekept⟩
    | stored resolved stores room applied valid view =>
      obtain ⟨more, stored⟩ := housekept.stored valid resolved view
      refine ⟨events ++ more, ?_⟩
      rw [StreamStore.after, Machine.run_append]
      exact stored
  | load clock query =>
    rw [MemoryBackend.next, MemoryBackend.loadMessagingState]
    simp only
    split
    · exact ⟨[], tracks⟩
    · exact tracks.expireIfDue query.key clock.checkedAt
  | read clock query =>
    rw [MemoryBackend.next, MemoryBackend.readCommittedMessages]
    simp only
    split
    · exact ⟨[], tracks⟩
    · exact tracks.expireIfDue query.key clock.checkedAt
  | wait clock wait => exact tracks.expireIfDue wait.key clock.checkedAt
  | purge purge => exact ⟨[], tracks.purge purge⟩

theorem MemoryBackend.tracks_after (limits : MessagingLimits) (policy : MessagingRetentionPolicy)
    (events : List MemoryEvent) :
    ∃ storeEvents, ((MemoryBackend.opened limits policy).after events).Tracks
      (StreamStore.empty.after storeEvents) := by
  induction events using List.reverseRecOn with
  | nil => exact ⟨[], MemoryBackend.opened_tracks limits policy⟩
  | append_singleton events event ih =>
    obtain ⟨storeEvents, tracks⟩ := ih
    obtain ⟨more, next⟩ := tracks.next event
    refine ⟨storeEvents ++ more, ?_⟩
    rw [MemoryBackend.after, StreamStore.after, Machine.run_append, Machine.run_append]
    exact next

end Tinkerfin.Messaging
