import Mathlib.Tactic.Common

/-!
# Sandbox availability

The availability intent of one owner binding, its holders, and the transitions between its phases.
-/

namespace Tinkerfin.Sandbox

/-- Failures of State operations. -/
inductive StateError
  | state (message : String)
  | ownership (message : String)
  | configuration (message : String)
  | invalidValue (message : String)
  deriving DecidableEq, Repr

inductive OpenSandboxAvailabilityPhase
  | running | draining | pausing | paused | resuming | uncertain
  deriving DecidableEq, Repr

/-- The intent of one owner binding. -/
structure OpenSandboxAvailability where
  ownerDigest : String
  sandboxId : String
  bindingGeneration : Nat
  sequence : Nat
  phase : OpenSandboxAvailabilityPhase
  connectionGeneration : Nat
  deriving DecidableEq, Repr

/-- One registered holder and the intent of its owner. -/
structure OpenSandboxHolderUpdate where
  holderId : String
  ownerDigest : String
  sandboxId : String
  bindingGeneration : Nat
  acknowledgedSequence : Option Nat
  availability : OpenSandboxAvailability
  deriving DecidableEq, Repr

def OpenSandboxAvailabilityPhase.name : OpenSandboxAvailabilityPhase → String
  | .running => "running"
  | .draining => "draining"
  | .pausing => "pausing"
  | .paused => "paused"
  | .resuming => "resuming"
  | .uncertain => "uncertain"

/-- The phases that may follow a phase. -/
def OpenSandboxAvailabilityPhase.transitions :
    OpenSandboxAvailabilityPhase → List OpenSandboxAvailabilityPhase
  | .running => [.draining, .resuming]
  | .draining => [.running, .paused, .pausing]
  | .pausing => [.paused, .running, .uncertain]
  | .paused => [.resuming, .draining]
  | .resuming => [.running, .paused, .uncertain]
  | .uncertain => []

def nextAvailability (expected : OpenSandboxAvailability) (phase : OpenSandboxAvailabilityPhase)
    (refreshConnection : Bool) : Except StateError OpenSandboxAvailability :=
  if phase ∉ expected.phase.transitions then
    .error (.ownership
      s!"Sandbox availability cannot change from {expected.phase.name} to {phase.name}")
  else if refreshConnection ∧ phase ≠ .running then
    .error (.invalidValue "refresh_connection requires the running phase")
  else
    .ok { expected with
      phase
      sequence := expected.sequence + 1
      connectionGeneration := expected.connectionGeneration + refreshConnection.toNat }

def validateHolderId (holderId : String) : Except StateError Unit :=
  if holderId = "" ∨ 36 < holderId.length then
    .error (.invalidValue "holder_id must contain between 1 and 36 characters")
  else
    .ok ()

end Tinkerfin.Sandbox
