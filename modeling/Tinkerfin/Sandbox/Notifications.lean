import Tinkerfin.Lib.Dict
import Tinkerfin.Lib.Machine

/-!
# Lifecycle notifications

The manager keeps one outage entry for an owner whose Sandbox it has seen fail and suppresses repeated
observations of it.  Health checks run beside everything else; each carries a ticket that newer facts
invalidate.  Accepted events form one log: no observer queue overflows.
-/

namespace Tinkerfin.Sandbox

/-! ## Events -/

/-- Changes visible to lifecycle observers. -/
inductive LifecycleEventType
  | unavailable
  | recovering
  | recovered
  | replaced
  | recoveryFailed
  | destroyed
  | paused
  | resumed
  | workspaceReset
  | warmCapacityDegraded
  | warmCapacityRestored
  deriving DecidableEq, Repr

/-- Stable causes of a change. -/
inductive LifecycleReason
  | notFound
  | unreachable
  | unhealthy
  | timeout
  | authentication
  | permission
  | providerRejected
  | protocolError
  | initializationFailed
  | stateFailure
  | unexpectedFailure
  | connectionRestored
  | bindingChanged
  | explicitRecreate
  | explicitReset
  | explicitDestroy
  | explicitPause
  | explicitResume
  | warmCapacityUnavailable
  | warmCapacityAvailable
  deriving DecidableEq, Repr

/-- One observed change; warm capacity has no owner. -/
structure LifecycleEvent where
  type : LifecycleEventType
  ownerKey : Option String
  reason : LifecycleReason
  sandboxId : Option String := none
  previousSandboxId : Option String := none
  workspaceMayHaveChanged : Bool := false
  deriving DecidableEq, Repr

/-! ## State -/

structure Outage where
  sandboxId : String
  reason : LifecycleReason
  workspaceMayHaveChanged : Bool := false
  recovering : Bool := false
  failure : Option (LifecycleReason × Bool) := none
  deriving DecidableEq, Repr

/-- The ticket of a health check. -/
abbrev HealthCheck := Nat

structure LifecycleNotifications where
  /-- Whether there are observers at all. -/
  observed : Bool := true
  outages : Dict String Outage := .empty
  /-- Tickets of the checks in flight. -/
  checks : Dict String (List HealthCheck) := .empty
  /-- Tickets that are no longer current. -/
  invalidated : List HealthCheck := []
  nextCheck : HealthCheck := 0
  warmDegraded : Bool := false
  events : List LifecycleEvent := []

namespace LifecycleNotifications

variable (state : LifecycleNotifications)

def emit (event : LifecycleEvent) : LifecycleNotifications :=
  if state.observed then { state with events := state.events ++ [event] } else state

def setOutage (ownerKey : String) (outage : Outage) : LifecycleNotifications :=
  { state with outages := state.outages.insert ownerKey outage }

def popOutage (ownerKey : String) : LifecycleNotifications :=
  { state with outages := state.outages.erase ownerKey }

/-- The outage of an owner while it names one Sandbox. -/
def outageOf (ownerKey sandboxId : String) : Option Outage :=
  (state.outages.get? ownerKey).filter fun outage => outage.sandboxId = sandboxId

/-! ## Health checks -/

/-- Start a health check; its ticket is the next one. -/
def beginCheck (ownerKey : String) : LifecycleNotifications :=
  let started := { state with nextCheck := state.nextCheck + 1 }
  if state.observed then
    { started with
      checks := state.checks.insert ownerKey
        (state.nextCheck :: (state.checks.get? ownerKey).getD []) }
  else started

def endCheck (ownerKey : String) (check : HealthCheck) : LifecycleNotifications :=
  match state.checks.get? ownerKey with
  | none => state
  | some checks =>
    let rest := checks.filter (· ≠ check)
    { state with
      checks := if rest = [] then state.checks.erase ownerKey
        else state.checks.insert ownerKey rest }

def invalidateChecks (ownerKey : String) : LifecycleNotifications :=
  { state with
    checks := state.checks.erase ownerKey
    invalidated := (state.checks.get? ownerKey).getD [] ++ state.invalidated }

/-! ## Outages -/

/-- Reasons that are evidence of a changed workspace. -/
def isAbsenceEvidence (reason : LifecycleReason) : Bool :=
  reason == .notFound || reason == .initializationFailed

def unavailable (ownerKey sandboxId : String) (reason : LifecycleReason)
    (workspaceMayHaveChanged : Bool := false) : LifecycleNotifications :=
  if !state.observed then state
  else
    let state := state.invalidateChecks ownerKey
    let changed := workspaceMayHaveChanged || isAbsenceEvidence reason
    let announced (outage : Outage) : LifecycleNotifications :=
      (state.setOutage ownerKey outage).emit {
        type := .unavailable
        ownerKey
        reason
        sandboxId
        workspaceMayHaveChanged := outage.workspaceMayHaveChanged }
    match state.outageOf ownerKey sandboxId with
    | some outage =>
      let updated := { outage with
        reason
        workspaceMayHaveChanged := outage.workspaceMayHaveChanged || changed }
      if (outage.reason, outage.workspaceMayHaveChanged) =
          (updated.reason, updated.workspaceMayHaveChanged) then
        state.setOutage ownerKey updated
      else announced updated
    | none => announced { sandboxId, reason, workspaceMayHaveChanged := changed }

def recovering (ownerKey sandboxId : String) (reason : LifecycleReason) :
    LifecycleNotifications :=
  if !state.observed then state
  else
    let outage := (state.outageOf ownerKey sandboxId).getD { sandboxId, reason }
    let outage := { outage with
      reason := if reason = LifecycleReason.explicitRecreate then reason else outage.reason
      workspaceMayHaveChanged := true }
    let announced := state.setOutage ownerKey { outage with recovering := true }
    if outage.recovering then announced
    else
      announced.emit {
        type := .recovering
        ownerKey
        reason
        sandboxId
        workspaceMayHaveChanged := true }

def recoveryStarted (ownerKey sandboxId : String) : LifecycleNotifications :=
  match state.outageOf ownerKey sandboxId with
  | some outage => state.recovering ownerKey sandboxId outage.reason
  | none => state

def failed (ownerKey sandboxId : String) (reason : LifecycleReason) : LifecycleNotifications :=
  if !state.observed then state
  else
    let outage := (state.outageOf ownerKey sandboxId).getD { sandboxId, reason }
    let outage := { outage with
      workspaceMayHaveChanged := outage.workspaceMayHaveChanged || isAbsenceEvidence reason }
    let failure := some (reason, outage.workspaceMayHaveChanged)
    if outage.failure = failure then state.setOutage ownerKey outage
    else
      (state.setOutage ownerKey { outage with failure }).emit {
        type := .recoveryFailed
        ownerKey
        reason
        sandboxId
        workspaceMayHaveChanged := outage.workspaceMayHaveChanged }

def available (ownerKey sandboxId : String) : LifecycleNotifications :=
  let outage := state.outageOf ownerKey sandboxId
  let state := (state.invalidateChecks ownerKey).popOutage ownerKey
  match outage with
  | some outage =>
    state.emit {
      type := .recovered
      ownerKey
      reason := .connectionRestored
      sandboxId
      workspaceMayHaveChanged := outage.workspaceMayHaveChanged }
  | none => state

def published (ownerKey sandboxId : String) (previousSandboxId : Option String)
    (reason : LifecycleReason := .explicitRecreate) : LifecycleNotifications :=
  let outage := state.outages.get? ownerKey
  let state := (state.invalidateChecks ownerKey).popOutage ownerKey
  match previousSandboxId.filter (· ≠ sandboxId) with
  | some previous =>
    state.emit {
      type := .replaced
      ownerKey
      reason := (outage.map Outage.reason).getD reason
      sandboxId
      previousSandboxId := some previous
      workspaceMayHaveChanged := true }
  | none => state

/-- The Sandbox that a connection replaces.  An empty identifier counts as none. -/
def previousOf (ownerKey : String) (previousSandboxId : Option String) : Option String :=
  (previousSandboxId.filter (· ≠ "")).or ((state.outages.get? ownerKey).map Outage.sandboxId)

def connected (ownerKey sandboxId : String) (previousSandboxId : Option String) :
    LifecycleNotifications :=
  match (state.previousOf ownerKey previousSandboxId).filter (· ≠ sandboxId) with
  | some previous => state.published ownerKey sandboxId (some previous) .bindingChanged
  | none =>
    match state.outages.get? ownerKey with
    | some outage =>
      (state.setOutage ownerKey { outage with workspaceMayHaveChanged := true }).available
        ownerKey sandboxId
    | none => state.available ownerKey sandboxId

/-- An explicit change of the lifecycle ends the outage of its owner. -/
def settled (type : LifecycleEventType) (reason : LifecycleReason) (changed : Bool)
    (ownerKey : String) (sandboxId : Option String) : LifecycleNotifications :=
  ((state.invalidateChecks ownerKey).popOutage ownerKey).emit {
    type
    ownerKey
    reason
    sandboxId
    workspaceMayHaveChanged := changed }

def paused (ownerKey sandboxId : String) : LifecycleNotifications :=
  state.settled .paused .explicitPause false ownerKey (some sandboxId)

def resumed (ownerKey sandboxId : String) : LifecycleNotifications :=
  state.settled .resumed .explicitResume true ownerKey (some sandboxId)

def destroyed (ownerKey : String) (sandboxId : Option String) : LifecycleNotifications :=
  state.settled .destroyed .explicitDestroy true ownerKey sandboxId

def workspaceReset (ownerKey sandboxId : String) : LifecycleNotifications :=
  state.emit {
    type := .workspaceReset
    ownerKey
    reason := .explicitReset
    sandboxId
    workspaceMayHaveChanged := true }

def warmCapacity (ready : Bool) : LifecycleNotifications :=
  if state.warmDegraded = !ready then state
  else
    { state with warmDegraded := !ready }.emit {
      type := if ready then .warmCapacityRestored else .warmCapacityDegraded
      ownerKey := none
      reason := if ready then .warmCapacityAvailable else .warmCapacityUnavailable }

/-- A health check has its result, no reason when the Sandbox is healthy. -/
def checked (ownerKey sandboxId : String) (check : HealthCheck)
    (reason : Option LifecycleReason) : LifecycleNotifications :=
  if check ∈ state.invalidated then state
  else
    match reason with
    | none => state.available ownerKey sandboxId
    | some reason => state.unavailable ownerKey sandboxId reason

end LifecycleNotifications

/-! ## Calls -/

/-- One call of the manager. -/
inductive NotificationCall
  | beginCheck (ownerKey : String)
  | endCheck (ownerKey : String) (check : HealthCheck)
  | checked (ownerKey sandboxId : String) (check : HealthCheck) (reason : Option LifecycleReason)
  | unavailable (ownerKey sandboxId : String) (reason : LifecycleReason)
      (workspaceMayHaveChanged : Bool)
  | recovering (ownerKey sandboxId : String) (reason : LifecycleReason)
  | recoveryStarted (ownerKey sandboxId : String)
  | failed (ownerKey sandboxId : String) (reason : LifecycleReason)
  | available (ownerKey sandboxId : String)
  | connected (ownerKey sandboxId : String) (previousSandboxId : Option String)
  | published (ownerKey sandboxId : String) (previousSandboxId : Option String)
      (reason : LifecycleReason)
  | paused (ownerKey sandboxId : String)
  | resumed (ownerKey sandboxId : String)
  | workspaceReset (ownerKey sandboxId : String)
  | destroyed (ownerKey : String) (sandboxId : Option String)
  | warmCapacity (ready : Bool)

namespace LifecycleNotifications

def next (state : LifecycleNotifications) : NotificationCall → LifecycleNotifications
  | .beginCheck ownerKey => state.beginCheck ownerKey
  | .endCheck ownerKey check => state.endCheck ownerKey check
  | .checked ownerKey sandboxId check reason => state.checked ownerKey sandboxId check reason
  | .unavailable ownerKey sandboxId reason changed =>
    state.unavailable ownerKey sandboxId reason changed
  | .recovering ownerKey sandboxId reason => state.recovering ownerKey sandboxId reason
  | .recoveryStarted ownerKey sandboxId => state.recoveryStarted ownerKey sandboxId
  | .failed ownerKey sandboxId reason => state.failed ownerKey sandboxId reason
  | .available ownerKey sandboxId => state.available ownerKey sandboxId
  | .connected ownerKey sandboxId previous => state.connected ownerKey sandboxId previous
  | .published ownerKey sandboxId previous reason =>
    state.published ownerKey sandboxId previous reason
  | .paused ownerKey sandboxId => state.paused ownerKey sandboxId
  | .resumed ownerKey sandboxId => state.resumed ownerKey sandboxId
  | .workspaceReset ownerKey sandboxId => state.workspaceReset ownerKey sandboxId
  | .destroyed ownerKey sandboxId => state.destroyed ownerKey sandboxId
  | .warmCapacity ready => state.warmCapacity ready

end LifecycleNotifications

end Tinkerfin.Sandbox
