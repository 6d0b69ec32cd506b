import Tinkerfin.Lib.Custody
import Tinkerfin.Lib.Machine
import Tinkerfin.Sandbox.MemoryState

/-!
# Histories of the in-memory State

The State together with every claim it returned.  A call draws a token that no earlier claim carries,
passes a claim that State returned, and binds or publishes a Sandbox that was never bound or published
before or that its claim names.  Owners, warm slots and cleanup targets are the fenced records of
`Custody`, and the Sandbox of a binding or a slot is the item of its record.
-/

namespace Tinkerfin.Sandbox

/-! ## Claims and records -/

/-- A record that claims are made on. -/
inductive StateRecord
  | owner (digest : String)
  | slot (index : Nat)
  | cleanup (sandboxId : String)
  deriving DecidableEq, Repr

/-- A claim that State returns. -/
inductive StateClaim
  | owner (claim : OpenSandboxOwnerClaim)
  | warm (claim : OpenSandboxWarmClaim)
  | ready (claim : OpenSandboxReadyWarmClaim)
  | cleanup (claim : OpenSandboxCleanupClaim)
  deriving DecidableEq, Repr

/-- The claim of `Custody`; an owner claim names the binding it found and a ready claim its Sandbox. -/
def StateClaim.custody : StateClaim → Custody.Claim StateRecord String String
  | .owner claim =>
    { record := .owner claim.ownerDigest
      token := claim.token
      generation := claim.generation
      item := claim.binding.map (·.sandboxId) }
  | .warm claim =>
    { record := .slot claim.slot
      token := claim.token
      generation := claim.generation
      item := none }
  | .ready claim =>
    { record := .slot claim.slot
      token := claim.token
      generation := claim.generation
      item := some claim.sandboxId }
  | .cleanup claim =>
    { record := .cleanup claim.sandboxId
      token := claim.token
      generation := claim.generation
      item := none }

/-- What a claim can be passed as: a ready claim is also a warm claim. -/
def StateClaim.forms : StateClaim → List StateClaim
  | .ready claim => [.ready claim, .warm claim.toOpenSandboxWarmClaim]
  | claim => [claim]

/-- The claim a request passes. -/
def StateRequest.claim? : StateRequest → Option StateClaim
  | .bindOwner claim _ => some (.owner claim)
  | .renewOwner claim => some (.owner claim)
  | .unbindOwner claim => some (.owner claim)
  | .releaseOwner claim => some (.owner claim)
  | .registerHolder claim _ => some (.owner claim)
  | .changeAvailability claim _ _ _ => some (.owner claim)
  | .holdersAreIdle claim _ => some (.owner claim)
  | .discardReadyWarmSlot claim => some (.ready claim)
  | .publishWarm claim _ => some (.warm claim)
  | .renewWarm claim => some (.warm claim)
  | .releaseWarm claim => some (.warm claim)
  | .consumeWarm claim => some (.owner claim)
  | .renewCleanup claim => some (.cleanup claim)
  | .completeCleanup claim => some (.cleanup claim)
  | .releaseCleanup claim => some (.cleanup claim)
  | .start _ | .acquireOwner _ | .readBinding _ | .readAvailability _ | .getHolderUpdates _
  | .acknowledgeIdle _ _ | .unregisterHolder _ _ | .claimWarmSlot | .claimReadyWarmSlot _
  | .warmPoolReady | .enqueueCleanup _ | .claimCleanup | .shutdownSandboxIds | .aclose => none

/-- The Sandbox a request binds or publishes. -/
def StateRequest.placed? : StateRequest → Option String
  | .bindOwner _ sandboxId => some sandboxId
  | .publishWarm _ sandboxId => some sandboxId
  | _ => none

/-- A call that only gives its claim up. -/
def StateRequest.isRelease : StateRequest → Bool
  | .releaseOwner _ | .releaseWarm _ | .releaseCleanup _ => true
  | _ => false

/-- A call that only asks for its claim. -/
def StateRequest.isRenewal : StateRequest → Bool
  | .renewOwner _ | .renewWarm _ | .renewCleanup _ => true
  | _ => false

/-- A call after which its claim is no longer held. -/
def StateRequest.endsClaim : StateRequest → Bool
  | .discardReadyWarmSlot _ | .publishWarm _ _ | .completeCleanup _ => true
  | request => request.isRelease

/-- The record a request removes. -/
def StateRequest.removed? : StateRequest → Option StateRecord
  | .completeCleanup claim => some (.cleanup claim.sandboxId)
  | _ => none

/-- The claim a response grants. -/
def StateResponse.claim? : StateResponse → Option StateClaim
  | .ownerClaim claim => some (.owner claim)
  | .warmClaim claim => claim.map .warm
  | .readyClaim claim => claim.map .ready
  | .cleanupClaim claim => claim.map .cleanup
  | _ => none

/-! ## Histories -/

/-- The State and its claims: all of them, those whose record was not removed since, and those that were
released or superseded; with every Sandbox a call tried to bind or publish. -/
structure StateHistory where
  state : InMemoryOpenSandboxState
  issued : List StateClaim := []
  standing : List StateClaim := []
  ended : List StateClaim := []
  offered : List String := []

structure StateCall where
  token : String
  request : StateRequest

namespace StateHistory

/-- The issued claims that can be passed as a given one. -/
def passedAs (history : StateHistory) (claim : StateClaim) : List StateClaim :=
  history.issued.filter fun issued => claim ∈ issued.forms

/-- The history after a call that gave a response, or raised, and left a state. -/
def advance (history : StateHistory) (request : StateRequest) (response : Option StateResponse)
    (state : InMemoryOpenSandboxState) : StateHistory :=
  let granted := response.bind (·.claim?)
  let ending := if response.isSome ∧ request.endsClaim then request.claim? else none
  let removed := if response.isSome then request.removed? else none
  { state
    issued := history.issued ++ granted.toList
    standing := history.standing.filter (fun claim => removed ≠ some claim.custody.record) ++
      granted.toList
    ended := history.ended ++ ending.toList.flatMap history.passedAs ++
      granted.toList.flatMap fun claim =>
        history.issued.filter fun old => old.custody.record = claim.custody.record
    offered := history.offered ++ request.placed?.toList }

def next (history : StateHistory) (call : StateCall) : StateHistory :=
  let performed := InMemoryOpenSandboxState.perform call.token call.request
  history.advance call.request (performed.value? history.state) (performed.final history.state)

/-- What every caller promises: a new token, and a claim that State returned. -/
structure Passes (history : StateHistory) (call : StateCall) : Prop where
  token : ∀ claim ∈ history.issued, claim.custody.token ≠ call.token
  claim : ∀ claim ∈ call.request.claim?, history.passedAs claim ≠ []

/-- The Sandbox of a call was never bound or published, or the claim of the call names it. -/
def Names (history : StateHistory) (request : StateRequest) : Prop :=
  ∀ claim ∈ request.claim?, ∀ sandboxId ∈ request.placed?,
    sandboxId ∉ history.offered ∨
      ∃ issued ∈ history.passedAs claim, issued.custody.item = some sandboxId

/-- What careful callers promise. -/
structure Legal (history : StateHistory) (call : StateCall) : Prop extends
    history.Passes call where
  sandbox : history.Names call.request

instance (history : StateHistory) (call : StateCall) : Decidable (history.Passes call) :=
  decidable_of_iff
    ((∀ claim ∈ history.issued, claim.custody.token ≠ call.token) ∧
      ∀ claim ∈ call.request.claim?, history.passedAs claim ≠ [])
    ⟨fun ⟨token, claim⟩ => ⟨token, claim⟩, fun passes => ⟨passes.1, passes.2⟩⟩

instance (history : StateHistory) (request : StateRequest) : Decidable (history.Names request) :=
  inferInstanceAs (Decidable (∀ claim ∈ request.claim?, ∀ sandboxId ∈ request.placed?, _ ∨ _))

instance (history : StateHistory) (call : StateCall) : Decidable (history.Legal call) :=
  decidable_of_iff (history.Passes call ∧ history.Names call.request)
    ⟨fun ⟨passes, names⟩ => ⟨passes, names⟩, fun legal => ⟨legal.toPasses, legal.sandbox⟩⟩

end StateHistory

/-! ## The records of a state -/

namespace InMemoryOpenSandboxState

def fence (state : InMemoryOpenSandboxState) : StateRecord → Option (Custody.Fence String)
  | .owner digest => (state.records.get? digest).map fun record =>
    { generation := record.generation, token := record.activeToken }
  | .slot index => state.warmSlots[index]?.map fun slot =>
    { generation := slot.generation, token := slot.activeToken }
  | .cleanup sandboxId => (state.cleanup.get? sandboxId).map fun record =>
    { generation := record.generation, token := record.activeToken }

/-- The Sandbox in a binding or a warm slot. -/
def sandbox (state : InMemoryOpenSandboxState) : StateRecord → Option String
  | .owner digest => ((state.records.get? digest).bind (·.binding)).map (·.sandboxId)
  | .slot index => state.warmSlots[index]?.bind (·.sandboxId)
  | .cleanup _ => none

end InMemoryOpenSandboxState

namespace StateHistory

/-- The history as one of `Custody`. -/
def custody (history : StateHistory) : Custody.History StateRecord String String where
  fence := history.state.fence
  item := history.state.sandbox
  issued := history.issued.map StateClaim.custody
  standing := history.standing.map StateClaim.custody
  offered := history.offered

/-- The State accepts the claim. -/
def Accepts (history : StateHistory) (claim : StateClaim) : Prop :=
  history.custody.Accepts claim.custody

end StateHistory

end Tinkerfin.Sandbox
