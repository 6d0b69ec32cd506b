import Mathlib.Tactic.Push
import Tinkerfin.Sandbox.HandleLeases

/-!
# Accounting of a Sandbox handle

Only the start and the end of a call touch the lease counts, and both keep them equal to the number
of running calls.  A running call keeps the connection that it leased.
-/

namespace Tinkerfin.Sandbox

namespace OpenSandboxHandle

variable (handle : OpenSandboxHandle)

@[simp] theorem trackRemote_activeCalls (backend : HandleBackend) :
    (handle.trackRemote backend).activeCalls = handle.activeCalls := by
  unfold trackRemote
  split <;> rfl

@[simp] theorem trackRemote_idleWaiters (backend : HandleBackend) :
    (handle.trackRemote backend).idleWaiters = handle.idleWaiters := by
  unfold trackRemote
  split <;> rfl

@[simp] theorem trackRemote_backend (backend : HandleBackend) :
    (handle.trackRemote backend).backend = handle.backend := by
  unfold trackRemote
  split <;> rfl

@[simp] theorem trackRemote_closed (backend : HandleBackend) :
    (handle.trackRemote backend).closed = handle.closed := by
  unfold trackRemote
  split <;> rfl

@[simp] theorem registerWaiter_activeCalls (backend : HandleBackend) (waiter : IdleWaiter) :
    (handle.registerWaiter backend waiter).activeCalls = handle.activeCalls := by
  unfold registerWaiter
  split <;> rfl

@[simp] theorem registerWaiter_backend (backend : HandleBackend) (waiter : IdleWaiter) :
    (handle.registerWaiter backend waiter).backend = handle.backend := by
  unfold registerWaiter
  split <;> rfl

@[simp] theorem registerWaiter_closed (backend : HandleBackend) (waiter : IdleWaiter) :
    (handle.registerWaiter backend waiter).closed = handle.closed := by
  unfold registerWaiter
  split <;> rfl

@[simp] theorem forgetWaiter_activeCalls (backend : HandleBackend) (waiter : IdleWaiter) :
    (handle.forgetWaiter backend waiter).activeCalls = handle.activeCalls := by
  unfold forgetWaiter
  (repeat' split) <;> rfl

@[simp] theorem forgetWaiter_backend (backend : HandleBackend) (waiter : IdleWaiter) :
    (handle.forgetWaiter backend waiter).backend = handle.backend := by
  unfold forgetWaiter
  (repeat' split) <;> rfl

@[simp] theorem forgetWaiter_closed (backend : HandleBackend) (waiter : IdleWaiter) :
    (handle.forgetWaiter backend waiter).closed = handle.closed := by
  unfold forgetWaiter
  (repeat' split) <;> rfl

@[simp] theorem settleRemote_activeCalls (backend : HandleBackend) (idle : Bool) :
    (handle.settleRemote backend idle).activeCalls = handle.activeCalls := by
  unfold settleRemote
  split <;> rfl

@[simp] theorem settleRemote_idleWaiters (backend : HandleBackend) (idle : Bool) :
    (handle.settleRemote backend idle).idleWaiters = handle.idleWaiters := by
  unfold settleRemote
  split <;> rfl

@[simp] theorem settleRemote_backend (backend : HandleBackend) (idle : Bool) :
    (handle.settleRemote backend idle).backend = handle.backend := by
  unfold settleRemote
  split <;> rfl

@[simp] theorem settleRemote_closed (backend : HandleBackend) (idle : Bool) :
    (handle.settleRemote backend idle).closed = handle.closed := by
  unfold settleRemote
  split <;> rfl

variable {handle}

theorem leases_congr {other : OpenSandboxHandle} (same : other.activeCalls = handle.activeCalls)
    (backend : HandleBackend) : other.leases backend = handle.leases backend := by
  rw [leases, leases, same]

/-- A lease is granted on the current connection of an open handle that admits calls. -/
theorem acquireBackend_eq_ok {result : HandleBackend × OpenSandboxHandle}
    (granted : handle.acquireBackend = .ok result) :
    handle.closed = false ∧ handle.blockedReason = none ∧
      result = (handle.backend, { handle with
        activeCalls := handle.activeCalls.insert handle.backend
          (handle.leases handle.backend + 1) }) := by
  unfold acquireBackend at granted
  split at granted
  · cases granted
  · next isOpen =>
      split at granted
      · split at granted
        · cases granted
        · split at granted <;> cases granted
      · next unblocked =>
          cases granted
          exact ⟨by simpa using isOpen, unblocked, rfl⟩

end OpenSandboxHandle

namespace HandleSystem

variable {system : HandleSystem}

/-! ## What a step does to the calls -/

/-- A call starts on the current connection. -/
structure Starts (before after : HandleSystem) (call : CallId) : Prop where
  fresh : before.calls.get? call = none
  isOpen : before.handle.closed = false
  admits : before.handle.blockedReason = none
  after_eq : after = { before with
    handle := { before.handle with
      activeCalls := before.handle.activeCalls.insert before.handle.backend
        (before.leases before.handle.backend + 1) }
    calls := before.calls.insert call before.handle.backend }

/-- A call ends on the connection that it leased and leaves other leases behind. -/
structure Leaves (before after : HandleSystem) (call : CallId) (backend : HandleBackend)
    (remaining : Nat) : Prop where
  leased : before.calls.get? call = some backend
  active : before.handle.activeCalls.get? backend = some (remaining + 1)
  positive : 0 < remaining
  after_eq : after = { before with
    handle := { before.handle with
      activeCalls := before.handle.activeCalls.insert backend remaining }
    calls := before.calls.erase call }

/-- The last call on a connection ends and takes the waiters. -/
structure Drains (before after : HandleSystem) (call : CallId) (backend : HandleBackend) : Prop where
  leased : before.calls.get? call = some backend
  active : (before.handle.activeCalls.get? backend).isSome
  last : before.leases backend ≤ 1
  after_eq : after = { before with
    handle := { before.handle with
      activeCalls := before.handle.activeCalls.erase backend
      idleWaiters := before.handle.idleWaiters.erase backend }
    calls := before.calls.erase call
    waking := before.waking ++ (before.handle.idleWaiters.get? backend).getD []
    threads := notifyAll before.threads }

theorem startCall_cases (call : CallId) :
    system.startCall call = system ∨ Starts system (system.startCall call) call := by
  unfold startCall
  split
  · next fresh granted =>
      obtain ⟨isOpen, admits, same⟩ := OpenSandboxHandle.acquireBackend_eq_ok granted
      obtain ⟨rfl, rfl⟩ := Prod.mk.inj same
      exact .inr ⟨fresh, isOpen, admits, rfl⟩
  · exact .inl rfl

theorem finishCall_cases (call : CallId) :
    system.finishCall call = system ∨
      (∃ backend remaining, Leaves system (system.finishCall call) call backend remaining) ∨
      ∃ backend, Drains system (system.finishCall call) call backend := by
  unfold finishCall
  split
  · exact .inl rfl
  · next backend leased =>
      unfold OpenSandboxHandle.releaseBackend
      cases active : system.handle.activeCalls.get? backend with
      | none => exact .inl rfl
      | some count =>
        by_cases last : count - 1 = 0
        · refine .inr (.inr ⟨backend, leased, by simp [active], ?_, ?_⟩)
          · simp [OpenSandboxHandle.leases, active]
            omega
          · simp [last]
        · obtain ⟨remaining, rfl⟩ : ∃ remaining, count = remaining + 1 := ⟨count - 1, by omega⟩
          have positive : 0 < remaining := by omega
          refine .inr (.inl ⟨backend, remaining, leased, active, positive, ?_⟩)
          simp [positive.ne']

/-- The calls and their counts stay as they are. -/
def SameCalls (before after : HandleSystem) : Prop :=
  after.handle.activeCalls = before.handle.activeCalls ∧ after.calls = before.calls

/-- Only the start and the end of a call touch the calls and the counts. -/
theorem sameCalls_next {event : HandleEvent} (starts : ∀ call, event ≠ .startCall call)
    (finishes : ∀ call, event ≠ .finishCall call) : SameCalls system (system.next event) := by
  cases event with
  | startCall call => exact absurd rfl (starts call)
  | finishCall call => exact absurd rfl (finishes call)
  | trackRemote call =>
    simp only [next]
    split
    · exact ⟨OpenSandboxHandle.trackRemote_activeCalls _ _, rfl⟩
    · exact ⟨rfl, rfl⟩
  | wakeWaiter waiter =>
    simp only [next, wakeWaiter]
    (repeat' split) <;> exact ⟨rfl, rfl⟩
  | completeWaiter wait =>
    simp only [next, completeWaiter]
    (repeat' split) <;> exact ⟨rfl, rfl⟩
  | replace backend =>
    simp only [next, OpenSandboxHandle.replaceBackend]
    cases system.handle.closed <;> exact ⟨rfl, rfl⟩
  | suspend reason => exact ⟨rfl, rfl⟩
  | allow => exact ⟨rfl, rfl⟩
  | close => exact ⟨rfl, rfl⟩
  | awaitIdle wait loop backend =>
    simp only [next, awaitIdle]
    split
    · exact ⟨rfl, rfl⟩
    · exact ⟨OpenSandboxHandle.registerWaiter_activeCalls _ _ _, rfl⟩
  | remoteSettled wait idle =>
    simp only [next, remoteSettled]
    split
    · split
      · exact ⟨OpenSandboxHandle.settleRemote_activeCalls _ _ _, rfl⟩
      · exact ⟨rfl, rfl⟩
    · exact ⟨rfl, rfl⟩
  | cancelWait wait =>
    simp only [next, cancelWait]
    (repeat' split) <;> exact ⟨rfl, rfl⟩
  | forgetWait wait =>
    simp only [next, forgetWait]
    split
    · split
      · exact ⟨OpenSandboxHandle.forgetWaiter_activeCalls _ _ _, rfl⟩
      · exact ⟨rfl, rfl⟩
    · exact ⟨rfl, rfl⟩
  | closeLoop loop => exact ⟨rfl, rfl⟩
  | threadWait thread backend =>
    simp only [next, threadWait]
    split <;> exact ⟨rfl, rfl⟩
  | threadRetire thread =>
    simp only [next, threadRetire]
    split <;> exact ⟨rfl, rfl⟩
  | threadWakes thread =>
    simp only [next, threadWakes]
    (repeat' split) <;> exact ⟨rfl, rfl⟩

/-- What one step does to the calls. -/
theorem next_calls (event : HandleEvent) :
    SameCalls system (system.next event) ∨
      (∃ call, event = .startCall call ∧ Starts system (system.next event) call) ∨
      (∃ call backend remaining, event = .finishCall call ∧
        Leaves system (system.next event) call backend remaining) ∨
      ∃ call backend, event = .finishCall call ∧ Drains system (system.next event) call backend := by
  by_cases starts : ∃ call, event = .startCall call
  · obtain ⟨call, rfl⟩ := starts
    rcases system.startCall_cases call with same | started
    · exact .inl (by rw [next, same]; exact ⟨rfl, rfl⟩)
    · exact .inr (.inl ⟨call, rfl, started⟩)
  by_cases finishes : ∃ call, event = .finishCall call
  · obtain ⟨call, rfl⟩ := finishes
    rcases system.finishCall_cases call with same | ⟨backend, remaining, left⟩ | ⟨backend, drained⟩
    · exact .inl (by rw [next, same]; exact ⟨rfl, rfl⟩)
    · exact .inr (.inr (.inl ⟨call, backend, remaining, rfl, left⟩))
    · exact .inr (.inr (.inr ⟨call, backend, rfl, drained⟩))
  · push Not at starts finishes
    exact .inl (sameCalls_next starts finishes)

/-! ## Lease counts -/

/-- Number of running calls on a connection. -/
def running (system : HandleSystem) (backend : HandleBackend) : Int :=
  system.calls.weight fun _ leased => if leased = backend then 1 else 0

theorem running_pos {call : CallId} {backend : HandleBackend}
    (leased : system.calls.get? call = some backend) : 0 < system.running backend := by
  have counted := Dict.weight_le_of_get? (fun (_ : CallId) (leased : HandleBackend) =>
    if leased = backend then 1 else 0) system.calls leased fun _ _ => by split <;> omega
  simp only [if_true] at counted
  exact counted

/-- Every count is the number of running calls, and no count of zero is stored. -/
structure Accounted (system : HandleSystem) : Prop where
  counted : ∀ backend, (system.leases backend : Int) = system.running backend
  positive : ∀ backend, system.handle.activeCalls.get? backend ≠ some 0

variable {after : HandleSystem} {call : CallId} {backend : HandleBackend} {remaining : Nat}

theorem SameCalls.leases (same : SameCalls system after) (backend : HandleBackend) :
    after.leases backend = system.leases backend :=
  OpenSandboxHandle.leases_congr same.1 backend

theorem Starts.leases (started : Starts system after call) (other : HandleBackend) :
    after.leases other =
      if other = system.handle.backend then system.leases other + 1 else system.leases other := by
  rw [started.after_eq]
  simp only [HandleSystem.leases, OpenSandboxHandle.leases, Dict.get?_insert]
  split
  · next same => simp [same]
  · rfl

theorem Leaves.leases (left : Leaves system after call backend remaining) (other : HandleBackend) :
    after.leases other = if other = backend then remaining else system.leases other := by
  rw [left.after_eq]
  simp only [HandleSystem.leases, OpenSandboxHandle.leases, Dict.get?_insert]
  split <;> rfl

theorem Drains.leases (drained : Drains system after call backend) (other : HandleBackend) :
    after.leases other = if other = backend then 0 else system.leases other := by
  rw [drained.after_eq]
  simp only [HandleSystem.leases, OpenSandboxHandle.leases, Dict.get?_erase]
  split <;> rfl

theorem running_erase (leased : system.calls.get? call = some backend) (other : HandleBackend)
    (ended : after.calls = system.calls.erase call) :
    after.running other = system.running other - if backend = other then 1 else 0 := by
  rw [running, ended, Dict.weight_erase, Dict.weightAt_of_get? leased]
  rfl

theorem Accounted.next (accounted : system.Accounted) (event : HandleEvent) :
    (system.next event).Accounted := by
  rcases system.next_calls event with same | ⟨call, -, started⟩ | ⟨call, backend, remaining, -, left⟩ |
    ⟨call, backend, -, drained⟩
  · refine ⟨fun backend => ?_, fun backend => ?_⟩
    · rw [same.leases, accounted.counted, running, running, same.2]
    · rw [same.1]
      exact accounted.positive backend
  · refine ⟨fun other => ?_, fun other => ?_⟩
    · have counted := accounted.counted other
      have grown : (system.next event).running other =
          system.running other + if system.handle.backend = other then 1 else 0 := by
        rw [started.after_eq, running, Dict.weight_insert, Dict.weightAt_of_absent started.fresh]
        simp [running]
      rw [started.leases, grown]
      by_cases same : other = system.handle.backend
      · simp only [same, if_true] at counted ⊢
        omega
      · simp only [if_neg same, if_neg (Ne.symm same)]
        omega
    · rw [started.after_eq]
      simp only [Dict.get?_insert]
      split
      · simp
      · exact accounted.positive other
  · refine ⟨fun other => ?_, fun other => ?_⟩
    · have counted := accounted.counted other
      have ended : (system.next event).calls = system.calls.erase call := by rw [left.after_eq]
      have shrunk := running_erase left.leased other ended
      have held : system.leases backend = remaining + 1 := by
        simp [HandleSystem.leases, OpenSandboxHandle.leases, left.active]
      rw [left.leases, shrunk]
      by_cases same : other = backend
      · subst same
        simp only [if_true]
        omega
      · simp only [if_neg same, if_neg (Ne.symm same)]
        omega
    · rw [left.after_eq]
      simp only [Dict.get?_insert]
      split
      · simpa using left.positive.ne'
      · exact accounted.positive other
  · refine ⟨fun other => ?_, fun other => ?_⟩
    · have counted := accounted.counted other
      have ended : (system.next event).calls = system.calls.erase call := by rw [drained.after_eq]
      have shrunk := running_erase drained.leased other ended
      have held := running_pos drained.leased
      have last := drained.last
      rw [drained.leases, shrunk]
      by_cases same : other = backend
      · subst same
        simp only [if_true]
        omega
      · simp only [if_neg same, if_neg (Ne.symm same)]
        omega
    · rw [drained.after_eq]
      simp only [Dict.get?_erase]
      split
      · simp
      · exact accounted.positive other

/-! ## Calls -/

/-- A call that has not ended keeps the connection that it leased. -/
theorem next_leased (leased : system.calls.get? call = some backend) {event : HandleEvent}
    (runs : event ≠ .finishCall call) : (system.next event).calls.get? call = some backend := by
  rcases system.next_calls event with same | ⟨other, -, started⟩ | ⟨other, _, _, rfl, left⟩ |
    ⟨other, _, rfl, drained⟩
  · rw [same.2, leased]
  · have different : call ≠ other := by
      rintro rfl
      cases started.fresh.symm.trans leased
    rw [started.after_eq]
    exact (Dict.get?_insert_of_ne _ _ different).trans leased
  · have different : call ≠ other := fun same => runs (by rw [same])
    rw [left.after_eq]
    exact (Dict.get?_erase_of_ne _ different).trans leased
  · have different : call ≠ other := fun same => runs (by rw [same])
    rw [drained.after_eq]
    exact (Dict.get?_erase_of_ne _ different).trans leased

/-- A call that was not running and is running now was admitted to the current connection. -/
theorem started_of_next {event : HandleEvent} (absent : system.calls.get? call = none)
    (leased : (system.next event).calls.get? call = some backend) :
    event = .startCall call ∧ system.handle.closed = false ∧
      system.handle.blockedReason = none ∧ backend = system.handle.backend := by
  rcases system.next_calls event with same | ⟨other, rfl, started⟩ | ⟨other, _, _, -, left⟩ |
    ⟨other, _, -, drained⟩
  · rw [same.2, absent] at leased
    cases leased
  · rw [started.after_eq] at leased
    by_cases same : call = other
    · subst same
      rw [Dict.get?_insert_self] at leased
      exact ⟨rfl, started.isOpen, started.admits, (Option.some.inj leased).symm⟩
    · rw [Dict.get?_insert_of_ne _ _ same, absent] at leased
      cases leased
  · rw [left.after_eq, Dict.get?_erase] at leased
    split at leased
    · cases leased
    · cases absent.symm.trans leased
  · rw [drained.after_eq, Dict.get?_erase] at leased
    split at leased
    · cases leased
    · cases absent.symm.trans leased

/-! ## Retirement -/

/-- The current connection and the closing of the handle stay as they are. -/
def SameAdmission (before after : HandleSystem) : Prop :=
  after.handle.backend = before.handle.backend ∧ after.handle.closed = before.handle.closed

/-- What a step does to the current connection and to the closing of the handle. -/
theorem next_admission (event : HandleEvent) :
    SameAdmission system (system.next event) ∨
      ((system.next event).handle.closed = true ∧
        (system.next event).handle.backend = system.handle.backend) ∨
      ∃ backend, event = .replace backend ∧ system.handle.closed = false ∧
        (system.next event).handle.closed = false ∧
          (system.next event).handle.backend = backend := by
  cases event with
  | startCall call =>
    rcases system.startCall_cases call with same | started
    · exact .inl (by rw [next, same]; exact ⟨rfl, rfl⟩)
    · exact .inl (by rw [next, started.after_eq]; exact ⟨rfl, rfl⟩)
  | finishCall call =>
    rcases system.finishCall_cases call with same | ⟨_, _, left⟩ | ⟨_, drained⟩
    · exact .inl (by rw [next, same]; exact ⟨rfl, rfl⟩)
    · exact .inl (by rw [next, left.after_eq]; exact ⟨rfl, rfl⟩)
    · exact .inl (by rw [next, drained.after_eq]; exact ⟨rfl, rfl⟩)
  | trackRemote call =>
    refine .inl ?_
    simp only [next]
    split
    · exact ⟨OpenSandboxHandle.trackRemote_backend _ _, OpenSandboxHandle.trackRemote_closed _ _⟩
    · exact ⟨rfl, rfl⟩
  | wakeWaiter waiter =>
    refine .inl ?_
    simp only [next, wakeWaiter]
    (repeat' split) <;> exact ⟨rfl, rfl⟩
  | completeWaiter wait =>
    refine .inl ?_
    simp only [next, completeWaiter]
    (repeat' split) <;> exact ⟨rfl, rfl⟩
  | replace backend =>
    simp only [next, OpenSandboxHandle.replaceBackend]
    cases closed : system.handle.closed with
    | true => exact .inl ⟨rfl, rfl⟩
    | false => exact .inr (.inr ⟨backend, rfl, rfl, by simpa using closed, rfl⟩)
  | suspend reason => exact .inl ⟨rfl, rfl⟩
  | allow => exact .inl ⟨rfl, rfl⟩
  | close => exact .inr (.inl ⟨rfl, rfl⟩)
  | awaitIdle wait loop backend =>
    refine .inl ?_
    simp only [next, awaitIdle]
    split
    · exact ⟨rfl, rfl⟩
    · exact ⟨OpenSandboxHandle.registerWaiter_backend _ _ _,
        OpenSandboxHandle.registerWaiter_closed _ _ _⟩
  | remoteSettled wait idle =>
    refine .inl ?_
    simp only [next, remoteSettled]
    split
    · split
      · exact ⟨OpenSandboxHandle.settleRemote_backend _ _ _,
          OpenSandboxHandle.settleRemote_closed _ _ _⟩
      · exact ⟨rfl, rfl⟩
    · exact ⟨rfl, rfl⟩
  | cancelWait wait =>
    refine .inl ?_
    simp only [next, cancelWait]
    (repeat' split) <;> exact ⟨rfl, rfl⟩
  | forgetWait wait =>
    refine .inl ?_
    simp only [next, forgetWait]
    split
    · split
      · exact ⟨OpenSandboxHandle.forgetWaiter_backend _ _ _,
          OpenSandboxHandle.forgetWaiter_closed _ _ _⟩
      · exact ⟨rfl, rfl⟩
    · exact ⟨rfl, rfl⟩
  | closeLoop loop => exact .inl ⟨rfl, rfl⟩
  | threadWait thread backend =>
    refine .inl ?_
    simp only [next, threadWait]
    split <;> exact ⟨rfl, rfl⟩
  | threadRetire thread =>
    simp only [next, threadRetire]
    split
    · exact .inl ⟨rfl, rfl⟩
    · exact .inr (.inl ⟨rfl, rfl⟩)
  | threadWakes thread =>
    refine .inl ?_
    simp only [next, threadWakes]
    (repeat' split) <;> exact ⟨rfl, rfl⟩

theorem next_closed (closed : system.handle.closed = true) (event : HandleEvent) :
    (system.next event).handle.closed = true := by
  rcases system.next_admission event with ⟨-, same⟩ | ⟨now, -⟩ | ⟨_, -, isOpen, -⟩
  · rw [same, closed]
  · exact now
  · cases isOpen.symm.trans closed

/-- No call can lease the connection. -/
def Retired (system : HandleSystem) (backend : HandleBackend) : Prop :=
  system.handle.closed = true ∨ system.handle.backend ≠ backend

theorem Retired.next (retired : system.Retired backend) {event : HandleEvent}
    (unpublished : event ≠ .replace backend) : (system.next event).Retired backend := by
  rcases retired with closed | other
  · exact .inl (next_closed closed event)
  · rcases system.next_admission event with ⟨same, -⟩ | ⟨now, -⟩ | ⟨published, rfl, -, -, current⟩
    · exact .inr (same ▸ other)
    · exact .inl now
    · refine .inr ?_
      rw [current]
      rintro rfl
      exact unpublished rfl

/-- The count of a retired connection does not grow. -/
theorem Retired.leases_le (retired : system.Retired backend) (event : HandleEvent) :
    (system.next event).leases backend ≤ system.leases backend := by
  rcases system.next_calls event with same | ⟨call, -, started⟩ | ⟨call, other, remaining, -, left⟩ |
    ⟨call, other, -, drained⟩
  · exact (same.leases backend).le
  · rw [started.leases, if_neg]
    rintro rfl
    rcases retired with closed | other
    · cases started.isOpen.symm.trans closed
    · exact other rfl
  · rw [left.leases]
    split
    · next same =>
        have held : system.leases backend = remaining + 1 := by
          rw [same]
          simp [HandleSystem.leases, OpenSandboxHandle.leases, left.active]
        omega
    · exact le_rfl
  · rw [drained.leases]
    split
    · exact Nat.zero_le _
    · exact le_rfl

end HandleSystem

end Tinkerfin.Sandbox
