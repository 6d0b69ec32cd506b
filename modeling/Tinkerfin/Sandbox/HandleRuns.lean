import Tinkerfin.Sandbox.HandleWaits

/-!
# Runs of a Sandbox handle

Over every interleaving: counts are numbers of running calls, calls keep their connection, admission
ends with retirement, and a wait ends only after the moment in which its connection was idle.
-/

namespace Tinkerfin.Sandbox

namespace HandleSystem

variable {system : HandleSystem} {call : CallId} {backend first : HandleBackend} {wait : WaitId}
  {found : IdleWait} {events : List HandleEvent}

/-! ## Registered waits and threads -/

/-- A registered wait stays registered for its connection and its loop. -/
theorem registered_next (stored : system.waits.get? wait = some found) (event : HandleEvent) :
    ∃ moved, (system.next event).waits.get? wait = some moved ∧
      moved.backend = found.backend ∧ moved.loop = found.loop := by
  have same (after : HandleSystem) (waits : after.waits = system.waits) :
      ∃ moved, after.waits.get? wait = some moved ∧
        moved.backend = found.backend ∧ moved.loop = found.loop :=
    ⟨found, waits ▸ stored, rfl, rfl⟩
  cases event with
  | startCall call =>
    rcases system.startCall_cases call with kept | started
    · exact same _ (by rw [next, kept])
    · exact same _ started.sameWaits.waits
  | finishCall call =>
    rcases system.finishCall_cases call with kept | ⟨_, _, left⟩ | ⟨_, drained⟩
    · exact same _ (by rw [next, kept])
    · exact same _ left.sameWaits.waits
    · exact same _ (by rw [next, drained.after_eq])
  | trackRemote call => exact same _ (sameWaits_trackRemote call).waits
  | wakeWaiter waiter =>
    refine same _ ?_
    simp only [next, wakeWaiter]
    (repeat' split) <;> rfl
  | completeWaiter other =>
    simp only [next, completeWaiter]
    split
    · exact same _ rfl
    · next entry live =>
        split
        · exact same _ rfl
        · split
          · exact registered_setPhase (live?_eq_some.mp live).1 stored
          · exact same _ rfl
  | replace backend => exact same _ (sameWaits_replace backend).waits
  | suspend reason => exact same _ rfl
  | allow => exact same _ rfl
  | close => exact same _ rfl
  | awaitIdle other loop backend =>
    simp only [next, awaitIdle]
    split
    · exact same _ rfl
    · next fresh =>
        have different : wait ≠ other := by
          rintro rfl
          exact fresh (.inl (by simp [stored]))
        exact ⟨found, (Dict.get?_insert_of_ne _ _ different).trans stored, rfl, rfl⟩
  | remoteSettled other idle =>
    simp only [next, remoteSettled]
    split
    · next entry live =>
        split
        · exact registered_setPhase (live?_eq_some.mp live).1 stored
        · exact same _ rfl
    · exact same _ rfl
  | cancelWait other =>
    simp only [next, cancelWait]
    split
    · next entry live =>
        split
        · exact registered_setPhase (live?_eq_some.mp live).1 stored
        · exact same _ rfl
    · exact same _ rfl
  | forgetWait other =>
    simp only [next, forgetWait]
    split
    · next entry live =>
        split
        · exact registered_setPhase (live?_eq_some.mp live).1 stored
        · exact same _ rfl
    · exact same _ rfl
  | closeLoop loop => exact same _ rfl
  | threadWait thread backend =>
    refine same _ ?_
    simp only [next, threadWait]
    split <;> rfl
  | threadRetire thread =>
    refine same _ ?_
    simp only [next, threadRetire]
    split <;> rfl
  | threadWakes thread =>
    refine same _ ?_
    simp only [next, threadWakes]
    (repeat' split) <;> rfl

theorem thread_enterWait {thread other : ThreadId} {entry : ThreadWait}
    (stored : (system.enterWait thread backend).threads.get? other = some entry)
    (completed : entry.phase = .completed) :
    system.threads.get? other = some entry ∨ system.leases entry.backend = 0 := by
  rw [enterWait, Dict.get?_insert] at stored
  split at stored
  · obtain rfl := Option.some.inj stored
    refine .inr ?_
    by_contra busy
    simp [busy] at completed
  · exact .inl stored

/-- A thread ends its wait under the lock, when the count of its connection is zero. -/
theorem thread_next {thread : ThreadId} {entry : ThreadWait} {event : HandleEvent}
    (stored : (system.next event).threads.get? thread = some entry)
    (completed : entry.phase = .completed) :
    system.threads.get? thread = some entry ∨ (system.next event).leases entry.backend = 0 := by
  have same {after : HandleSystem} (stored : after.threads.get? thread = some entry)
      (threads : after.threads = system.threads) : system.threads.get? thread = some entry :=
    threads ▸ stored
  cases event with
  | startCall call =>
    rcases system.startCall_cases call with kept | started
    · exact .inl (same stored (by rw [next, kept]))
    · exact .inl (same stored started.sameWaits.threads)
  | finishCall call =>
    rcases system.finishCall_cases call with kept | ⟨_, _, left⟩ | ⟨_, drained⟩
    · exact .inl (same stored (by rw [next, kept]))
    · exact .inl (same stored left.sameWaits.threads)
    · rw [next, drained.after_eq] at stored
      rw [notifyAll, Dict.get?_mapValues, Option.map_eq_some_iff] at stored
      obtain ⟨before, known, moved⟩ := stored
      split at moved
      · simp [← moved] at completed
      · exact .inl (moved ▸ known)
  | trackRemote call => exact .inl (same stored (sameWaits_trackRemote call).threads)
  | wakeWaiter waiter =>
    refine .inl (same stored ?_)
    simp only [next, wakeWaiter]
    (repeat' split) <;> rfl
  | completeWaiter wait =>
    refine .inl (same stored ?_)
    simp only [next, completeWaiter]
    (repeat' split) <;> rfl
  | replace backend => exact .inl (same stored (sameWaits_replace backend).threads)
  | suspend reason => exact .inl stored
  | allow => exact .inl stored
  | close => exact .inl stored
  | awaitIdle wait loop backend =>
    refine .inl (same stored ?_)
    simp only [next, awaitIdle]
    split <;> rfl
  | remoteSettled wait idle =>
    refine .inl (same stored ?_)
    simp only [next, remoteSettled]
    (repeat' split) <;> rfl
  | cancelWait wait =>
    refine .inl (same stored ?_)
    simp only [next, cancelWait]
    (repeat' split) <;> rfl
  | forgetWait wait =>
    refine .inl (same stored ?_)
    simp only [next, forgetWait]
    (repeat' split) <;> rfl
  | closeLoop loop => exact .inl stored
  | threadWait other backend =>
    simp only [next, threadWait] at stored ⊢
    split at stored
    · exact .inl stored
    · next fresh =>
        rw [if_neg fresh]
        exact thread_enterWait stored completed
  | threadRetire other =>
    simp only [next, threadRetire] at stored ⊢
    split at stored
    · exact .inl stored
    · next fresh =>
        rw [if_neg fresh]
        exact thread_enterWait stored completed
  | threadWakes other =>
    simp only [next, threadWakes] at stored ⊢
    split at stored
    · split at stored
      · next entry known awake =>
          simp only [if_pos awake]
          exact thread_enterWait stored completed
      · exact .inl stored
    · exact .inl stored

/-! ## Runs -/

/-- A new handle on its first connection. -/
def initial (first : HandleBackend) : HandleSystem := { handle := { backend := first } }

/-- The system after some events on a new handle. -/
abbrev after (first : HandleBackend) (events : List HandleEvent) : HandleSystem :=
  Machine.run next (initial first) events

theorem accounted_after (first : HandleBackend) (events : List HandleEvent) :
    (after first events).Accounted := by
  refine Machine.run_invariant (fun _ event accounted => accounted.next event) ?_
  exact ⟨fun _ => rfl, fun _ => nofun⟩

theorem waiting_initial : (initial first).Waiting where
  queued backend waiter member := by cases member
  waking waiter member := by cases member
  scheduled wait member := by cases member
  pending wait found live := by cases (live?_eq_some.mp live).1
  asleep thread entry stored := by cases stored

theorem waiting_after (first : HandleBackend) (events : List HandleEvent) :
    (after first events).Waiting :=
  Machine.run_invariant (fun _ event waiting => waiting.next event) waiting_initial

theorem after_concat (events : List HandleEvent) (event : HandleEvent) :
    after first (events ++ [event]) = (after first events).next event := by
  rw [after, Machine.run_append]
  rfl

theorem woken_after (woken : (after first events).Woken wait backend) :
    ∃ past rest, events = past ++ rest ∧ (∃ found, (after first past).waits.get? wait = some found ∧
      found.backend = backend) ∧ (after first past).leases backend = 0 := by
  induction events using List.reverseRecOn with
  | nil =>
    obtain ⟨found, stored, -⟩ := woken
    cases stored
  | append_singleton events event induction =>
    have stepped := woken
    rw [after_concat] at stepped
    rcases woken_next (waiting_after first events) stepped with before | idle
    · obtain ⟨past, rest, rfl, known, idle⟩ := induction before
      exact ⟨past, rest ++ [event], by simp, known, idle⟩
    · obtain ⟨found, stored, same, -⟩ := woken
      exact ⟨events ++ [event], [], by simp, ⟨found, stored, same⟩, by rw [after_concat, idle]⟩

theorem leases_of_retired (waiting : system.Waiting) (retired : system.Retired backend)
    (settled : system.Woken wait backend → system.leases backend = 0)
    (unpublished : .replace backend ∉ events)
    (woken : (Machine.run next system events).Woken wait backend) :
    (Machine.run next system events).leases backend = 0 := by
  induction events generalizing system with
  | nil => exact settled woken
  | cons event events induction =>
    obtain ⟨now, later⟩ := List.ne_and_not_mem_of_not_mem_cons unpublished
    refine induction (waiting.next event) (retired.next now.symm) (fun released => ?_) later woken
    rcases woken_next waiting released with before | idle
    · have grown := retired.leases_le event
      rw [settled before] at grown
      exact Nat.le_zero.mp grown
    · exact idle

theorem unqueued_run (stored : system.waits.get? wait = some found) {loop : LoopId}
    (unqueued : ∀ backend, (loop, wait) ∉ system.handle.waitersOf backend)
    (backend : HandleBackend) :
    (loop, wait) ∉ (Machine.run next system events).handle.waitersOf backend := by
  induction events generalizing system found with
  | nil => exact unqueued backend
  | cons event events induction =>
    obtain ⟨moved, known, -⟩ := registered_next stored event
    refine induction known fun other queued => ?_
    rcases queued_next queued with before | fresh
    · exact unqueued other before
    · cases fresh.symm.trans stored

/-- The two steps that complete a released wait. -/
def completion (wait : WaitId) (found : IdleWait) : List HandleEvent :=
  [.wakeWaiter (found.loop, wait), .completeWaiter wait]

/-- A released wait completes once its event loop has run these steps. -/
theorem run_completion (live : system.live? wait = some found) (pending : found.phase = .pending)
    (released : (found.loop, wait) ∈ system.waking ∨ wait ∈ system.callbacks) :
    (Machine.run next system (completion wait found)).waits.get? wait =
      some { found with phase := .settling } := by
  have running := (live?_eq_some.mp live).2
  have scheduled : wait ∈ (system.wakeWaiter (found.loop, wait)).callbacks := by
    unfold wakeWaiter
    split
    · next absent => exact released.resolve_left absent
    · simp
  have still : (system.wakeWaiter (found.loop, wait)).live? wait = some found := by
    unfold wakeWaiter
    split <;> exact live
  simp only [completion, Machine.run_cons, Machine.run_nil, next, completeWaiter, still]
  rw [if_neg (not_not_intro scheduled), if_pos pending]
  exact Dict.get?_insert_self _ _ _

/-- A pending wait whose connection has been idle since it began is on its way out. -/
theorem completes_of_idle {past rest : List HandleEvent} {before : IdleWait}
    (stored : (after first past).waits.get? wait = some before)
    (idle : (after first past).leases before.backend = 0)
    (live : (after first (past ++ rest)).live? wait = some found)
    (pending : found.phase = .pending) :
    (Machine.run next (after first (past ++ rest)) (completion wait found)).waits.get? wait =
      some { found with phase := .settling } := by
  have unqueued (loop : LoopId) (backend : HandleBackend) :
      (loop, wait) ∉ (after first past).handle.waitersOf backend := by
    intro queued
    obtain ⟨busy, entry, known, rfl, -⟩ := (waiting_after first past).queued backend _ queued
    obtain rfl := Option.some.inj (known.symm.trans stored)
    omega
  have later : after first (past ++ rest) = Machine.run next (after first past) rest :=
    Machine.run_append next _ _ _
  refine run_completion live pending ?_
  rcases (waiting_after first (past ++ rest)).pending wait found live pending with queued | released
  · rw [later] at queued
    exact absurd queued (unqueued_run stored (unqueued found.loop) found.backend)
  · exact released

/-! ## The contract of a handle -/

/-- What holds of a new handle after some events. -/
structure LeaseContract (first : HandleBackend) (events : List HandleEvent) : Prop where
  /-- The count of a connection is the number of calls that run on it. -/
  counted : ∀ backend,
    ((after first events).leases backend : Int) = (after first events).running backend
  /-- A call runs on one connection until it ends. -/
  pinned : ∀ call backend event, (after first events).calls.get? call = some backend →
    event ≠ .finishCall call → ((after first events).next event).calls.get? call = some backend
  ended : ∀ call, ((after first events).next (.finishCall call)).calls.get? call = none
  /-- Calls start on the current connection of a handle that is neither retired nor suspended. -/
  admitted : ∀ call backend event, (after first events).calls.get? call = none →
    ((after first events).next event).calls.get? call = some backend →
      event = .startCall call ∧ (after first events).handle.closed = false ∧
        (after first events).handle.blockedReason = none ∧
          backend = (after first events).handle.backend
  retirement : ∀ event, (after first events).handle.closed = true →
    ((after first events).next event).handle.closed = true
  /-- A wait that completed has seen its connection idle since it began. -/
  idleSeen : ∀ wait found, (after first events).waits.get? wait = some found →
    found.phase = .completed → ∃ past rest, events = past ++ rest ∧
      (∃ before, (after first past).waits.get? wait = some before ∧
        before.backend = found.backend) ∧
      (after first past).leases found.backend = 0
  /-- A wait for a connection that stays retired completes only while the connection is idle. -/
  idleRetired : ∀ past wait loop backend rest, events = past ++ .awaitIdle wait loop backend :: rest →
    (after first past).waits.get? wait = none → (after first past).Retired backend →
    .replace backend ∉ rest → ∀ found, (after first events).waits.get? wait = some found →
      found.backend = backend → found.phase = .completed →
        (after first events).leases backend = 0
  /-- A thread ends its wait only while its connection is idle. -/
  threads : ∀ event thread found,
    ((after first events).next event).threads.get? thread = some found →
    found.phase = .completed → (after first events).threads.get? thread = some found ∨
      ((after first events).next event).leases found.backend = 0
  /-- No thread sleeps on an idle connection. -/
  notified : ∀ thread found, (after first events).threads.get? thread = some found →
    found.phase = .asleep → 0 < (after first events).leases found.backend
  /-- A live pending wait is registered under a positive count or about to complete. -/
  pending : ∀ wait found, (after first events).live? wait = some found → found.phase = .pending →
    0 < (after first events).leases found.backend ∨
      (Machine.run next (after first events) (completion wait found)).waits.get? wait =
        some { found with phase := .settling }
  /-- Once its connection has been idle, a live pending wait is about to complete. -/
  woken : ∀ past rest wait before found, events = past ++ rest →
    (after first past).waits.get? wait = some before → (after first past).leases before.backend = 0 →
    (after first events).live? wait = some found → found.phase = .pending →
      (Machine.run next (after first events) (completion wait found)).waits.get? wait =
        some { found with phase := .settling }

theorem finished_call (accounted : system.Accounted) (call : CallId) :
    (system.next (.finishCall call)).calls.get? call = none := by
  rcases system.finishCall_cases call with same | ⟨_, _, left⟩ | ⟨_, drained⟩
  · cases leased : system.calls.get? call with
    | none => rw [next, same, leased]
    | some backend =>
      -- A running call has a count, so its release cannot fail.
      have counted := accounted.counted backend
      have positive := running_pos leased
      have active : ∃ count, system.handle.activeCalls.get? backend = some count := by
        by_contra absent
        have none : system.handle.activeCalls.get? backend = none := by
          simpa [Option.eq_none_iff_forall_ne_some] using absent
        simp only [HandleSystem.leases, OpenSandboxHandle.leases, none] at counted
        simp at counted
        omega
      obtain ⟨count, active⟩ := active
      have erased : (system.finishCall call).calls = system.calls.erase call := by
        simp [finishCall, leased, OpenSandboxHandle.releaseBackend, active]
      rw [next, erased, Dict.get?_erase_self]
  · rw [next, left.after_eq, Dict.get?_erase_self]
  · rw [next, drained.after_eq, Dict.get?_erase_self]

/-- Every interleaving of calls, replacements, waits and retirement keeps the contract. -/
theorem lease_contract (first : HandleBackend) (events : List HandleEvent) :
    LeaseContract first events where
  counted := (accounted_after first events).counted
  pinned _ _ _ leased runs := next_leased leased runs
  ended := finished_call (accounted_after first events)
  admitted _ _ _ absent leased := started_of_next absent leased
  retirement event closed := next_closed closed event
  idleSeen wait found stored completed :=
    woken_after ⟨found, stored, rfl, .inr (.inr (.inr completed))⟩
  idleRetired past wait loop backend rest split unknown retired unpublished found stored same
      completed := by
    subst split
    have run : after first (past ++ .awaitIdle wait loop backend :: rest) =
        Machine.run next (after first past) (.awaitIdle wait loop backend :: rest) :=
      Machine.run_append next _ _ _
    have woken : (after first (past ++ .awaitIdle wait loop backend :: rest)).Woken wait backend :=
      ⟨found, stored, same, .inr (.inr (.inr completed))⟩
    rw [run] at woken ⊢
    refine leases_of_retired (waiting_after first past) retired ?_ (by simpa using unpublished) woken
    rintro ⟨before, known, -⟩
    cases unknown.symm.trans known
  threads _ _ _ stored completed := thread_next stored completed
  notified := (waiting_after first events).asleep
  pending wait found live pending := by
    rcases (waiting_after first events).pending wait found live pending with queued | released
    · exact .inl ((waiting_after first events).queued found.backend _ queued).1
    · exact .inr (run_completion live pending released)
  woken past rest wait before found split stored idle live pending := by
    subst split
    exact completes_of_idle stored idle live pending

/-- A wait on the current connection may complete while a later call runs there. -/
theorem lease_contract_current :
    let events : List HandleEvent := [.awaitIdle 0 0 ⟨0, "a"⟩, .startCall 1, .remoteSettled 0 true]
    let system := after ⟨0, "a"⟩ events
    system.waits.get? 0 = some ⟨⟨0, "a"⟩, 0, .completed⟩ ∧ system.leases ⟨0, "a"⟩ = 1 := by
  decide

end HandleSystem

end Tinkerfin.Sandbox
