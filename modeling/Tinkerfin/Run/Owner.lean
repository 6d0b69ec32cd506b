import Mathlib.Data.List.Basic
import Tinkerfin.Lib.Machine

/-!
# Run ownership

Two tasks own a run.  The supervisor enters the coordinator's scope, starts the native task and
leaves the scope again; the native task prepares, serves one command at a time and closes.  A step
is what one task does between two awaits, so a list of events is an interleaving.  A cancellation is
recorded when it is requested and delivered when its task runs next; a task that is cancelled before
its first step never runs at all.
-/

namespace Tinkerfin.Run

/-! ## Tasks -/

inductive OwnerTask
  | supervisor
  | native
  deriving DecidableEq

/-- Where the coordination supervisor stands. -/
inductive SupervisorPoint
  | absent
  /-- The task exists and has not run. -/
  | created
  | entering
  | waiting
  | exiting
  | joining
  | ended
  deriving DecidableEq

/-- Where the native task stands. -/
inductive NativePoint
  | absent
  | created
  | preparing
  /-- The task waits for the next command. -/
  | idle
  | running (call : Nat)
  | closing
  | ended
  deriving DecidableEq

/-- What a run records. -/
inductive OwnerEffect
  | scopeEntered (task : OwnerTask)
  | scopeExited (task : OwnerTask)
  /-- The native task has closed its resources and asks for the coordinator's exit. -/
  | resourcesReleased
  | closeFinished
  /-- A controller cancels the native task. -/
  | cancelled (settling : Bool) (closingIterators : Nat)
  | operationStarted (call : Nat) (settling : Bool)
  deriving DecidableEq

structure RunOwner where
  coordinator : Bool := true
  supervisor : SupervisorPoint := .absent
  native : NativePoint := .absent
  /-- The coordinator's scope was entered. -/
  scope : Bool := false
  release : Bool := false
  released : Bool := false
  /-- The preparation that a caller awaits has a value or an error. -/
  ready : Bool := false
  stopping : Bool := false
  settling : Bool := false
  closingIterators : Nat := 0
  closeBound : Bool := false
  /-- For each operation that was accepted, whether its result is set. -/
  results : List Bool := []
  pending : Bool := false
  failPending : Option Nat := none
  /-- The command queue, of one place. -/
  commands : Option Nat := none
  /-- Operations whose callers were cancelled. -/
  abandoned : List Nat := []
  /-- How many cancellations of the native task were requested and not taken back, by controllers and
  by timers of the work itself. -/
  controllerCancels : Nat := 0
  timerCancels : Nat := 0
  /-- Whether a cancellation is still to be delivered. -/
  nativeCancelled : Bool := false
  supervisorCancelling : Nat := 0
  supervisorCancelled : Bool := false
  log : List OwnerEffect := []

namespace RunOwner

/-! ## Stopping -/

def cancelling (owner : RunOwner) : Nat := owner.controllerCancels + owner.timerCancels

/-- Whether a stop request cancels the native task. -/
def cancellable (owner : RunOwner) : Bool :=
  !owner.settling && owner.closingIterators == 0 && owner.native != .ended && owner.cancelling == 0

/-- Request one work cancellation, from a task other than the native one. -/
def stop (owner : RunOwner) : RunOwner :=
  match owner.native with
  | .absent =>
    if owner.supervisor ≠ .absent ∧ owner.supervisor ≠ .ended ∧ owner.supervisorCancelling = 0 then
      { owner with stopping := true, supervisorCancelling := 1, supervisorCancelled := true }
    else { owner with stopping := true }
  | _ =>
    if owner.cancellable then
      { owner with
        stopping := true, controllerCancels := owner.controllerCancels + 1
        nativeCancelled := true
        log := owner.log ++ [.cancelled owner.settling owner.closingIterators] }
    else { owner with stopping := true }

/-! ## Native steps -/

/-- The result of an operation is set once. -/
def resolve (owner : RunOwner) (call : Nat) : RunOwner :=
  { owner with results := owner.results.set call true }

/-- The native task ends after its close operation. -/
def finish (owner : RunOwner) : RunOwner :=
  let owner := match owner.failPending with
    | none => owner
    | some call => owner.resolve call
  { owner with
    release := true, native := .ended, nativeCancelled := false
    log := owner.log ++ [.closeFinished] }

/-- The command loop ends and the stream that the run owns is closed. -/
def settle (owner : RunOwner) : RunOwner :=
  let owner := { owner with settling := true, nativeCancelled := false }
  if owner.closeBound then { owner with native := .closing } else owner.finish

def takeCommand (owner : RunOwner) (call : Nat) : RunOwner :=
  { owner with
    native := .running call, commands := none
    log := owner.log ++ [.operationStarted call owner.settling] }

/-- The head of the command loop. -/
def loop (owner : RunOwner) : RunOwner :=
  if owner.stopping then owner.settle
  else match owner.commands with
    | some call => owner.takeCommand call
    | none => { owner with native := .idle }

/-- Whether the native task runs a preparation, an operation or the close operation. -/
def busy (owner : RunOwner) : Bool :=
  match owner.native with
  | .preparing => true
  | .running _ => true
  | .closing => true
  | _ => false

/-- Whether the work of the native task may end here: no iterator closes and no timer is armed. -/
def atRest (owner : RunOwner) : Bool :=
  owner.closingIterators == 0 && owner.timerCancels == 0

/-! ## Supervisor steps -/

/-- After admission the supervisor starts the native task, unless the run was closed before. -/
def launch (owner : RunOwner) : RunOwner :=
  if owner.stopping && !owner.scope then
    { owner with ready := true, released := true, supervisor := .ended }
  else { owner with native := .created, supervisor := .waiting }

end RunOwner

/-! ## Events -/

inductive OwnerEvent
  /-- A caller asks for the preparation. -/
  | prepare
  /-- A caller asks for an operation. -/
  | call
  /-- The result of an operation reaches its caller. -/
  | callReturns (call : Nat)
  | callCancelled (call : Nat)
  /-- A close, a cancelled preparation or a failed watcher. -/
  | stop
  | supervisorStarts
  | coordinatorEnters (entered : Bool)
  /-- The coordinator cancels the task that entered its scope. -/
  | ownershipLost
  | supervisorWakes
  | coordinatorExits
  | supervisorJoins
  | nativeStarts
  | prepared (succeeded : Bool)
  | nativeWakes
  | operationEnds
  | closeEnds
  /-- What native work does with the owner on its way. -/
  | bindClose
  | cleanupBegins
  | cleanupEnds
  | timerFires
  | timerEnds
  | stopsItself
  | beginSettlement
  | releaseCoordination
  deriving DecidableEq

namespace RunOwner

/-- A caller's operation, refused where the loop is over or another one is pending. -/
def accept (owner : RunOwner) : RunOwner :=
  if owner.native = .absent ∨ owner.native = .ended ∨ owner.stopping ∨ owner.pending then owner
  else if owner.commands.isSome then { owner with pending := true }
  else
    let call := owner.results.length
    { owner with
      pending := true, failPending := some call, commands := some call
      results := owner.results ++ [false] }

/-- A caller leaves with its result, or cancelled after the whole run was closed. -/
def leave (owner : RunOwner) (call : Nat) : RunOwner :=
  if owner.failPending = some call ∧
      (owner.results[call]? = some true ∨ call ∈ owner.abandoned ∧ owner.supervisor = .ended) then
    { owner with pending := false, failPending := none }
  else owner

def startSupervisor (owner : RunOwner) : RunOwner :=
  if owner.supervisor ≠ .created then owner
  else if owner.supervisorCancelled then
    -- a task that is cancelled before its first step runs none of its body
    { owner with supervisor := .ended, supervisorCancelled := false }
  else if owner.coordinator then { owner with supervisor := .entering }
  else owner.launch

def enter (owner : RunOwner) (entered : Bool) : RunOwner :=
  if owner.supervisor ≠ .entering then owner
  else
    let log := if entered then owner.log ++ [.scopeEntered .supervisor] else owner.log
    { owner with scope := entered, supervisorCancelled := false, log }.launch

def wakeSupervisor (owner : RunOwner) : RunOwner :=
  if owner.supervisor ≠ .waiting then owner
  else if owner.supervisorCancelled then { owner with supervisorCancelled := false }.stop
  else if !owner.release then owner
  else if owner.scope then
    { owner with
      supervisor := .exiting, log := owner.log ++ [.scopeExited .supervisor] }
  else { owner with supervisor := .joining, released := true }

def startNative (owner : RunOwner) : RunOwner :=
  if owner.native ≠ .created then owner
  else if owner.nativeCancelled then { owner with native := .ended, nativeCancelled := false }
  else { owner with native := .preparing }

def endPreparation (owner : RunOwner) (succeeded : Bool) : RunOwner :=
  if owner.native = .preparing ∧ owner.atRest then
    { owner with
      ready := true, nativeCancelled := false
      stopping := owner.stopping || !succeeded }.loop
  else owner

def wakeNative (owner : RunOwner) : RunOwner :=
  if owner.native ≠ .idle then owner
  -- the queue keeps its command when the wait for it is cancelled
  else if owner.nativeCancelled then owner.settle
  else match owner.commands with
    | none => owner
    | some call => owner.takeCommand call

def endOperation (owner : RunOwner) : RunOwner :=
  match owner.native with
  | .running call =>
    if owner.atRest then ({ owner with nativeCancelled := false }.resolve call).loop else owner
  | _ => owner

def endClose (owner : RunOwner) : RunOwner :=
  if owner.native = .closing ∧ owner.atRest then owner.finish else owner

def next (owner : RunOwner) : OwnerEvent → RunOwner
  | .prepare => if owner.supervisor = .absent then { owner with supervisor := .created } else owner
  | .call => owner.accept
  | .callReturns call => owner.leave call
  | .callCancelled call => { owner with abandoned := call :: owner.abandoned }.stop
  | .stop => owner.stop
  | .supervisorStarts => owner.startSupervisor
  | .coordinatorEnters entered => owner.enter entered
  | .ownershipLost =>
    if owner.supervisor = .waiting then { owner with supervisorCancelled := true } else owner
  | .supervisorWakes => owner.wakeSupervisor
  | .coordinatorExits =>
    if owner.supervisor = .exiting then { owner with supervisor := .joining, released := true }
    else owner
  | .supervisorJoins =>
    if owner.supervisor = .joining ∧ owner.native = .ended then { owner with supervisor := .ended }
    else owner
  | .nativeStarts => owner.startNative
  | .prepared succeeded => owner.endPreparation succeeded
  | .nativeWakes => owner.wakeNative
  | .operationEnds => owner.endOperation
  | .closeEnds => owner.endClose
  | .bindClose => if owner.busy then { owner with closeBound := true } else owner
  | .cleanupBegins =>
    if owner.busy then { owner with closingIterators := owner.closingIterators + 1 } else owner
  | .cleanupEnds =>
    if owner.busy then { owner with closingIterators := owner.closingIterators - 1 } else owner
  | .timerFires =>
    if owner.busy then
      { owner with timerCancels := owner.timerCancels + 1, nativeCancelled := true }
    else owner
  | .timerEnds =>
    if owner.busy then { owner with timerCancels := owner.timerCancels - 1 } else owner
  | .stopsItself => if owner.busy then { owner with stopping := true } else owner
  | .beginSettlement =>
    if owner.busy then { owner with settling := true, stopping := true } else owner
  | .releaseCoordination =>
    if owner.busy ∧ owner.settling then
      { owner with
        release := true, log := owner.log ++ [.resourcesReleased] }
    else owner

end RunOwner

end Tinkerfin.Run
