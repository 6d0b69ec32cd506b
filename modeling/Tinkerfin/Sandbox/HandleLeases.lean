import Tinkerfin.Lib.Dict
import Tinkerfin.Lib.Machine

/-!
# Calls and connections of a Sandbox handle

A handle keeps its identity while the manager replaces the connection behind it.  Calls lease the
connection that is current when they start and release it when they end; whoever replaces or retires
a connection waits until its leases are gone.  An event is what one task or thread does in one
critical section or between two awaits, so a list of events is an interleaving.
-/

namespace Tinkerfin.Sandbox

/-- A connection: its identity in this process and the Sandbox it speaks to. -/
structure HandleBackend where
  key : Nat
  id : String
  deriving DecidableEq, Repr

abbrev CallId := Nat
abbrev LoopId := Nat
abbrev WaitId := Nat
abbrev ThreadId := Nat

/-- A waiter's event loop and its future, which belongs to one wait. -/
abbrev IdleWaiter := LoopId × WaitId

inductive HandleError
  | closed (message : String)
  | paused (message : String)
  | lifecycleUncertain (message : String)
  | busy (message : String)
  deriving DecidableEq, Repr

/-! ## The handle -/

structure OpenSandboxHandle where
  backend : HandleBackend
  activeCalls : Dict HandleBackend Nat := .empty
  idleWaiters : Dict HandleBackend (List IdleWaiter) := .empty
  closed : Bool := false
  blockedReason : Option String := none
  /-- Connections whose remote work is tracked, with the Sandbox each spoke to. -/
  remoteOperations : Dict HandleBackend String := .empty

namespace OpenSandboxHandle

variable (handle : OpenSandboxHandle)

/-- The lease count of a connection. -/
def leases (backend : HandleBackend) : Nat := (handle.activeCalls.get? backend).getD 0

def acquireBackend : Except HandleError (HandleBackend × OpenSandboxHandle) :=
  if handle.closed then
    .error (.closed "OpenSandbox handle is closed")
  else
    match handle.blockedReason with
    | some reason =>
      if reason = "paused" then
        .error (.paused "Sandbox is paused; call resume before using it")
      else if reason ∈ ["pausing", "resuming", "uncertain"] then
        .error (.lifecycleUncertain "Sandbox lifecycle transition is not yet confirmed")
      else
        .error (.busy "Sandbox is not accepting operations during lifecycle coordination")
    | none =>
      .ok (handle.backend, { handle with
        activeCalls := handle.activeCalls.insert handle.backend
          (handle.leases handle.backend + 1) })

/-- The second critical section of an asynchronous lease. -/
def trackRemote (backend : HandleBackend) : OpenSandboxHandle :=
  if (handle.remoteOperations.get? backend).isSome then handle
  else { handle with remoteOperations := handle.remoteOperations.insert backend backend.id }

def suspendCalls (reason : String) : OpenSandboxHandle := { handle with blockedReason := some reason }

def allowCalls : OpenSandboxHandle := { handle with blockedReason := none }

/-- What a finished call leaves behind. -/
structure Released where
  handle : OpenSandboxHandle
  /-- Waiters that the finishing call has yet to wake. -/
  waiters : List IdleWaiter
  /-- Sleeping threads are notified. -/
  notified : Bool

/-- End one lease; without one there is nothing to end. -/
def releaseBackend (backend : HandleBackend) : Option Released :=
  (handle.activeCalls.get? backend).map fun active =>
    let remaining := active - 1
    if remaining ≠ 0 then
      { handle := { handle with activeCalls := handle.activeCalls.insert backend remaining }
        waiters := []
        notified := false }
    else
      { handle := { handle with
          activeCalls := handle.activeCalls.erase backend
          idleWaiters := handle.idleWaiters.erase backend }
        waiters := (handle.idleWaiters.get? backend).getD []
        notified := true }

def replaceBackend (backend : HandleBackend) :
    Except HandleError (HandleBackend × OpenSandboxHandle) :=
  if handle.closed then .error (.closed "OpenSandbox handle is closed")
  else .ok (handle.backend, { handle with backend })

/-- Register a waiter unless the connection is idle. -/
def registerWaiter (backend : HandleBackend) (waiter : IdleWaiter) : OpenSandboxHandle :=
  if handle.leases backend = 0 then handle
  else
    { handle with
      idleWaiters := handle.idleWaiters.insert backend
        ((handle.idleWaiters.get? backend).getD [] ++ [waiter]) }

/-- Take the waiter of an interrupted wait back. -/
def forgetWaiter (backend : HandleBackend) (waiter : IdleWaiter) : OpenSandboxHandle :=
  match handle.idleWaiters.get? backend with
  | none => handle
  | some waiters =>
    if waiter ∉ waiters then handle
    else
      let rest := waiters.erase waiter
      { handle with
        idleWaiters := if rest = [] then handle.idleWaiters.erase backend
          else handle.idleWaiters.insert backend rest }

/-- A wait has awaited the remote work of its connection. -/
def settleRemote (backend : HandleBackend) (idle : Bool) : OpenSandboxHandle :=
  if backend ≠ handle.backend ∧ idle then
    { handle with remoteOperations := handle.remoteOperations.erase backend }
  else handle

end OpenSandboxHandle

/-! ## Tasks and threads -/

/-- Where an asynchronous wait stands. -/
inductive WaitPhase
  /-- Its future is pending. -/
  | pending
  /-- No lease was left, and remote work is awaited. -/
  | settling
  | completed
  /-- Its task was cancelled and has not run since. -/
  | cancelling
  | cancelled
  deriving DecidableEq, Repr

structure IdleWait where
  backend : HandleBackend
  loop : LoopId
  phase : WaitPhase
  deriving DecidableEq, Repr

/-- Where a waiting thread stands. -/
inductive ThreadPhase
  | asleep
  | awake
  | completed
  deriving DecidableEq, Repr

structure ThreadWait where
  backend : HandleBackend
  phase : ThreadPhase
  deriving DecidableEq, Repr

structure HandleSystem where
  handle : OpenSandboxHandle
  /-- The running calls, each with the connection that it leased. -/
  calls : Dict CallId HandleBackend := .empty
  waits : Dict WaitId IdleWait := .empty
  /-- Waiters that finished calls took from the handle and have not scheduled. -/
  waking : List IdleWaiter := []
  /-- Completions scheduled in the event loops. -/
  callbacks : List WaitId := []
  closedLoops : List LoopId := []
  threads : Dict ThreadId ThreadWait := .empty

inductive HandleEvent
  | startCall (call : CallId)
  | trackRemote (call : CallId)
  | finishCall (call : CallId)
  /-- A finished call schedules the completion of a waiter that it took. -/
  | wakeWaiter (waiter : IdleWaiter)
  /-- An event loop runs a scheduled completion. -/
  | completeWaiter (wait : WaitId)
  | replace (backend : HandleBackend)
  | suspend (reason : String)
  | allow
  /-- The asynchronous retirement stops admission; it then awaits the current connection. -/
  | close
  | awaitIdle (wait : WaitId) (loop : LoopId) (backend : HandleBackend)
  /-- The remote work that a wait awaits has settled, confirmed or not. -/
  | remoteSettled (wait : WaitId) (idle : Bool)
  | cancelWait (wait : WaitId)
  /-- The task of a cancelled wait runs its handler. -/
  | forgetWait (wait : WaitId)
  | closeLoop (loop : LoopId)
  | threadWait (thread : ThreadId) (backend : HandleBackend)
  | threadRetire (thread : ThreadId)
  /-- A notified thread has the lock again. -/
  | threadWakes (thread : ThreadId)

namespace HandleSystem

variable (system : HandleSystem)

/-- The lease count of a connection. -/
abbrev leases (backend : HandleBackend) : Nat := system.handle.leases backend

/-- A wait whose event loop still runs. -/
def live? (wait : WaitId) : Option IdleWait :=
  (system.waits.get? wait).filter fun found => found.loop ∉ system.closedLoops

def setPhase (wait : WaitId) (found : IdleWait) (phase : WaitPhase) : HandleSystem :=
  { system with waits := system.waits.insert wait { found with phase } }

def startCall (call : CallId) : HandleSystem :=
  match system.calls.get? call, system.handle.acquireBackend with
  | none, .ok (backend, handle) =>
    { system with handle, calls := system.calls.insert call backend }
  | _, _ => system

/-- Every sleeping thread runs again. -/
def notifyAll (threads : Dict ThreadId ThreadWait) : Dict ThreadId ThreadWait :=
  threads.mapValues fun _ thread =>
    if thread.phase = .asleep then { thread with phase := .awake } else thread

def finishCall (call : CallId) : HandleSystem :=
  match system.calls.get? call with
  | none => system
  | some backend =>
    match system.handle.releaseBackend backend with
    | none => system
    | some released =>
      { system with
        handle := released.handle
        calls := system.calls.erase call
        waking := system.waking ++ released.waiters
        threads := if released.notified then notifyAll system.threads else system.threads }

def wakeWaiter (waiter : IdleWaiter) : HandleSystem :=
  if waiter ∉ system.waking then system
  else
    let taken := { system with waking := system.waking.erase waiter }
    if waiter.1 ∈ system.closedLoops then taken
    else { taken with callbacks := system.callbacks ++ [waiter.2] }

def completeWaiter (wait : WaitId) : HandleSystem :=
  match system.live? wait with
  | none => system
  | some found =>
    if wait ∉ system.callbacks then system
    else
      let ran := { system with callbacks := system.callbacks.erase wait }
      if found.phase = .pending then ran.setPhase wait found .settling else ran

def awaitIdle (wait : WaitId) (loop : LoopId) (backend : HandleBackend) : HandleSystem :=
  if (system.waits.get? wait).isSome ∨ loop ∈ system.closedLoops then system
  else
    let phase := if system.leases backend = 0 then WaitPhase.settling else WaitPhase.pending
    { system with
      handle := system.handle.registerWaiter backend (loop, wait)
      waits := system.waits.insert wait { backend, loop, phase } }

def remoteSettled (wait : WaitId) (idle : Bool) : HandleSystem :=
  match system.live? wait with
  | some found =>
    if found.phase = .settling then
      { system.setPhase wait found .completed with
        handle := system.handle.settleRemote found.backend idle }
    else system
  | none => system

def cancelWait (wait : WaitId) : HandleSystem :=
  match system.live? wait with
  | some found =>
    if found.phase = .pending ∨ found.phase = .settling then
      system.setPhase wait found .cancelling
    else system
  | none => system

def forgetWait (wait : WaitId) : HandleSystem :=
  match system.live? wait with
  | some found =>
    if found.phase = .cancelling then
      { system.setPhase wait found .cancelled with
        handle := system.handle.forgetWaiter found.backend (found.loop, wait) }
    else system
  | none => system

/-- A thread looks at the count of its connection under the lock. -/
def enterWait (thread : ThreadId) (backend : HandleBackend) : HandleSystem :=
  let phase := if system.leases backend = 0 then ThreadPhase.completed else ThreadPhase.asleep
  { system with threads := system.threads.insert thread { backend, phase } }

def threadWait (thread : ThreadId) (backend : HandleBackend) : HandleSystem :=
  if (system.threads.get? thread).isSome then system else system.enterWait thread backend

/-- A handle that is closed already is returned without a wait. -/
def threadRetire (thread : ThreadId) : HandleSystem :=
  if (system.threads.get? thread).isSome ∨ system.handle.closed then system
  else
    { system with handle := { system.handle with closed := true } }.enterWait thread
      system.handle.backend

def threadWakes (thread : ThreadId) : HandleSystem :=
  match system.threads.get? thread with
  | some found => if found.phase = .awake then system.enterWait thread found.backend else system
  | none => system

def next (system : HandleSystem) : HandleEvent → HandleSystem
  | .startCall call => system.startCall call
  | .trackRemote call =>
    match system.calls.get? call with
    | some backend => { system with handle := system.handle.trackRemote backend }
    | none => system
  | .finishCall call => system.finishCall call
  | .wakeWaiter waiter => system.wakeWaiter waiter
  | .completeWaiter wait => system.completeWaiter wait
  | .replace backend =>
    match system.handle.replaceBackend backend with
    | .ok (_, handle) => { system with handle }
    | .error _ => system
  | .suspend reason => { system with handle := system.handle.suspendCalls reason }
  | .allow => { system with handle := system.handle.allowCalls }
  | .close => { system with handle := { system.handle with closed := true } }
  | .awaitIdle wait loop backend => system.awaitIdle wait loop backend
  | .remoteSettled wait idle => system.remoteSettled wait idle
  | .cancelWait wait => system.cancelWait wait
  | .forgetWait wait => system.forgetWait wait
  | .closeLoop loop => { system with closedLoops := loop :: system.closedLoops }
  | .threadWait thread backend => system.threadWait thread backend
  | .threadRetire thread => system.threadRetire thread
  | .threadWakes thread => system.threadWakes thread

end HandleSystem

end Tinkerfin.Sandbox
