import Tinkerfin.Lib.Stateful

/-!
# Instants and failures of Automation

Instants are natural numbers of microseconds counted from the first representable date in UTC, and
lengths of time are integers of microseconds.  Adding a length of time fails outside the
representable range of dates.
-/

namespace Tinkerfin.Automation

/-- The last microsecond of the year 9999. -/
def lastInstant : Nat := 315537897599999999

/-- Stable machine-readable categories of failures. -/
inductive AutomationErrorCode
  | invalidSchedule
  | taskNotFound
  | executionNotFound
  | taskConflict
  | requestConflict
  | queueFull
  | startAlreadyAuthorized
  | claimLost
  | retryNotAllowed
  | resolutionNotAllowed
  | storeUnavailable
  | lifecycle
  deriving DecidableEq, Repr

/-- One safe value attached to a failure. -/
inductive ContextValue
  | text (value : String)
  | number (value : Int)
  deriving DecidableEq, Repr

/-- What an operation raises: a public failure or an error of the language. -/
inductive Raised
  | automation (code : AutomationErrorCode) (message : String)
      (context : List (String × ContextValue))
  | valueError (message : String)
  | overflowError (message : String)
  | assertionError
  | keyError (key : String)
  deriving DecidableEq, Repr

namespace Raised

def invalidSchedule (message : String) (context : List (String × ContextValue)) : Raised :=
  .automation .invalidSchedule message context

def taskNotFound (taskId : String) : Raised :=
  .automation .taskNotFound "Task was not found" [("task_id", .text taskId)]

def executionNotFound (executionId : String) : Raised :=
  .automation .executionNotFound "Execution was not found" [("execution_id", .text executionId)]

def taskExists (taskId : String) : Raised :=
  .automation .taskConflict "Task identity already exists" [("task_id", .text taskId)]

def taskRevisionChanged (taskId : String) (expected actual : Int) : Raised :=
  .automation .taskConflict "Task revision changed"
    [("task_id", .text taskId), ("expected_revision", .number expected),
      ("actual_revision", .number actual)]

def taskRevisionSkipped (taskId : String) : Raised :=
  .automation .taskConflict "Replacement task must advance revision exactly once"
    [("task_id", .text taskId)]

def requestReused (requestId : String) : Raised :=
  .automation .requestConflict "Request ID was reused with different input"
    [("request_id", .text requestId)]

def executionExists (executionId : String) : Raised :=
  .automation .requestConflict "Execution identity already exists"
    [("execution_id", .text executionId)]

def queueFull (scopeId : String) : Raised :=
  .automation .queueFull "Execution queue is full" [("scope_id", .text scopeId)]

def startAlreadyAuthorized (executionId : String) : Raised :=
  .automation .startAlreadyAuthorized "Execution start was already authorized"
    [("execution_id", .text executionId)]

def claimLost (message : String) (context : List (String × ContextValue) := []) : Raised :=
  .automation .claimLost message context

/-- A claim that its work item no longer backs. -/
def claimInvalid (workItemId : String) : Raised :=
  claimLost "Work item claim is no longer valid" [("work_item_id", .text workItemId)]

def resolutionNotAllowed (message executionId : String) : Raised :=
  .automation .resolutionNotAllowed message [("execution_id", .text executionId)]

def storeClosed : Raised :=
  .automation .storeUnavailable "Memory Automation Store is closed" []

def storedResultInvalid : Raised :=
  .automation .storeUnavailable "Stored operation result has an invalid type" []

def capacityExhausted (recordKind : String) (maximum : Nat) : Raised :=
  .automation .storeUnavailable "Memory Automation Store capacity is exhausted"
    [("record_kind", .text recordKind), ("maximum", .number maximum)]

def serviceClosed : Raised :=
  .automation .lifecycle "Automation Service is closed" []

end Raised

/-- The instant a length of time later, when it is representable. -/
def later (instant : Nat) (duration : Int) : Except Raised Nat :=
  if 0 ≤ instant + duration ∧ instant + duration ≤ lastInstant then
    .ok (instant + duration).toNat
  else
    .error (.overflowError "date value out of range")

theorem later_eq_ok {instant moved : Nat} {duration : Int} :
    later instant duration = .ok moved ↔
      (moved : Int) = instant + duration ∧ moved ≤ lastInstant := by
  unfold later
  split
  · next fits =>
      rw [Except.ok.injEq]
      omega
  · next outside =>
      simp only [reduceCtorEq, false_iff, not_and, Nat.not_le]
      omega

end Tinkerfin.Automation
