import Mathlib.Data.List.Sort
import Tinkerfin.Lib.Dict
import Tinkerfin.Lib.Sha256
import Tinkerfin.Lib.Stateful
import Tinkerfin.Sandbox.Availability

/-!
# The in-memory Sandbox State

Owner bindings, warm slots and cleanup targets of one process, each with the token and generation of
its claim.  No method waits between its check and its change, so each is one step; a method that waits
for the lock of an owner returns nothing yet.  Tokens are drawn by the caller of a step.
-/

namespace Tinkerfin.Sandbox

/-! ## Claims -/

/-- The Sandbox of an owner and the claim generation that committed it. -/
structure OpenSandboxBinding where
  sandboxId : String
  generation : Nat
  deriving DecidableEq, Repr

structure OpenSandboxOwnerClaim where
  ownerKey : String
  ownerDigest : String
  token : String
  generation : Nat
  binding : Option OpenSandboxBinding
  deriving DecidableEq, Repr

structure OpenSandboxWarmClaim where
  slot : Nat
  token : String
  generation : Nat
  deriving DecidableEq, Repr

structure OpenSandboxReadyWarmClaim extends OpenSandboxWarmClaim where
  sandboxId : String
  deriving DecidableEq, Repr

structure OpenSandboxCleanupClaim where
  sandboxId : String
  token : String
  generation : Nat
  deriving DecidableEq, Repr

/-- The opaque name of an owner in a namespace. -/
def ownerDigest («namespace» ownerKey : String) : String :=
  String.ofList (Bytes.base64Url (Sha256.digest
    (Bytes.utf8 («namespace» ++ String.singleton (Char.ofNat 0) ++ ownerKey))))

/-! ## Records -/

/-- The record of an owner; its lock is held while it has an active token. -/
structure MemoryOwnerRecord where
  generation : Nat := 0
  binding : Option OpenSandboxBinding := none
  activeToken : Option String := none
  availability : Option OpenSandboxAvailability := none

structure MemoryWarmSlot where
  slot : Nat
  generation : Nat := 0
  sandboxId : Option String := none
  activeToken : Option String := none

structure MemoryCleanupRecord where
  generation : Nat := 0
  activeToken : Option String := none

/-- The claim is the active one of an owner record. -/
def MemoryOwnerRecord.ClaimedBy (record : MemoryOwnerRecord) (claim : OpenSandboxOwnerClaim) :
    Prop :=
  record.activeToken = some claim.token ∧ record.generation = claim.generation

/-- The claim is the active one of a warm slot. -/
def MemoryWarmSlot.ClaimedBy (slot : MemoryWarmSlot) (claim : OpenSandboxWarmClaim) : Prop :=
  slot.activeToken = some claim.token ∧ slot.generation = claim.generation

/-- The claim is the active one of a cleanup record. -/
def MemoryCleanupRecord.ClaimedBy (record : MemoryCleanupRecord)
    (claim : OpenSandboxCleanupClaim) : Prop :=
  record.activeToken = some claim.token ∧ record.generation = claim.generation

instance (record : MemoryOwnerRecord) (claim : OpenSandboxOwnerClaim) :
    Decidable (record.ClaimedBy claim) :=
  inferInstanceAs (Decidable (_ ∧ _))

instance (slot : MemoryWarmSlot) (claim : OpenSandboxWarmClaim) : Decidable (slot.ClaimedBy claim) :=
  inferInstanceAs (Decidable (_ ∧ _))

instance (record : MemoryCleanupRecord) (claim : OpenSandboxCleanupClaim) :
    Decidable (record.ClaimedBy claim) :=
  inferInstanceAs (Decidable (_ ∧ _))

structure InMemoryOpenSandboxState where
  «namespace» : String := ""
  records : Dict String MemoryOwnerRecord := .empty
  warmSlots : List MemoryWarmSlot := []
  warmPoolSize : Option Nat := none
  cleanup : Dict String MemoryCleanupRecord := .empty
  holders : Dict (String × String) OpenSandboxHolderUpdate := .empty
  started : Bool := false
  closed : Bool := false

abbrev StateOperation := EStateM StateError InMemoryOpenSandboxState

namespace InMemoryOpenSandboxState

/-! ## Opening -/

def start (warmPoolSize : Int) : StateOperation Unit := do
  let state ← get
  if warmPoolSize < 0 then
    throw (.invalidValue "warm_pool_size must not be negative")
  else if state.closed then
    throw (.state "OpenSandbox state is closed")
  else if state.started then
    if state.warmPoolSize = some warmPoolSize.toNat then
      return
    else
      throw (.configuration
        "OpenSandbox State is already started with a different warm_pool_size")
  else
    set { state with
      warmSlots := (List.range warmPoolSize.toNat).map fun index => { slot := index }
      warmPoolSize := some warmPoolSize.toNat
      started := true }

def ensureOpen : StateOperation Unit := do
  let state ← get
  if ¬state.started then
    throw (.state "OpenSandbox state has not been started")
  else if state.closed then
    throw (.state "OpenSandbox state is closed")
  else
    return

def aclose : StateOperation Unit := modify fun state => { state with closed := true }

/-! ## Owners -/

def withRecord (state : InMemoryOpenSandboxState) (digest : String) (record : MemoryOwnerRecord) :
    InMemoryOpenSandboxState :=
  { state with records := state.records.insert digest record }

def setRecord (digest : String) (record : MemoryOwnerRecord) : StateOperation Unit :=
  modify (·.withRecord digest record)

/-- The record of an owner, made when there is none yet. -/
def record (ownerKey : String) : StateOperation (String × MemoryOwnerRecord) := do
  ensureOpen
  let state ← get
  let digest := ownerDigest state.namespace ownerKey
  match state.records.get? digest with
  | some record => return (digest, record)
  | none => do
    setRecord digest {}
    return (digest, {})

/-- Claim an owner, or wait while its lock is held. -/
def acquireOwner (ownerKey token : String) : StateOperation (Option OpenSandboxOwnerClaim) := do
  let (digest, record) ← record ownerKey
  if record.activeToken.isSome then
    return none
  else do
    setRecord digest { record with
      generation := record.generation + 1
      activeToken := some token }
    return some
      { ownerKey
        ownerDigest := digest
        token
        generation := record.generation + 1
        binding := record.binding }

/-- The record of a current claim. -/
def claimedRecord (claim : OpenSandboxOwnerClaim) : StateOperation MemoryOwnerRecord := do
  ensureOpen
  let state ← get
  match state.records.get? claim.ownerDigest with
  | some record =>
    if record.ClaimedBy claim then
      return record
    else
      throw (.ownership s!"Owner claim for '{claim.ownerKey}' is no longer current")
  | none => throw (.ownership s!"Owner claim for '{claim.ownerKey}' is no longer current")

/-- Bind a Sandbox to the owner of a claim; a binding that changes starts out running. -/
def commitBinding (record : MemoryOwnerRecord) (claim : OpenSandboxOwnerClaim)
    (sandboxId : String) : StateOperation OpenSandboxBinding := do
  let binding : OpenSandboxBinding := { sandboxId, generation := claim.generation }
  if record.binding = some binding ∧ record.availability.isSome then
    return binding
  else do
    setRecord claim.ownerDigest { record with
      binding := some binding
      availability := some
        { ownerDigest := claim.ownerDigest
          sandboxId
          bindingGeneration := claim.generation
          sequence := 0
          phase := .running
          connectionGeneration := 0 } }
    return binding

def bindOwner (claim : OpenSandboxOwnerClaim) (sandboxId : String) :
    StateOperation OpenSandboxBinding := do
  let record ← claimedRecord claim
  commitBinding record claim sandboxId

/-- Whether a check of a claim succeeds; only the loss of ownership counts as failure. -/
def confirmed {α : Type} (check : StateOperation α) : StateOperation Bool :=
  tryCatch (discard check *> pure true) fun
    | .ownership _ => pure false
    | error => throw error

def renewOwner (claim : OpenSandboxOwnerClaim) : StateOperation Bool :=
  confirmed (claimedRecord claim)

/-- The binding of an owner, or nothing yet while its lock is held. -/
def readBinding (ownerKey : String) : StateOperation (Option (Option OpenSandboxBinding)) := do
  let (_, record) ← record ownerKey
  if record.activeToken.isSome then return none else return some record.binding

def unbindOwner (claim : OpenSandboxOwnerClaim) : StateOperation Unit := do
  let record ← claimedRecord claim
  modify fun state => { state with
    holders := state.holders.filter fun _ holder => holder.ownerDigest ≠ claim.ownerDigest }
  setRecord claim.ownerDigest { record with binding := none, availability := none }

/-- Release a claim; the release by any other claim does nothing. -/
def releaseOwner (claim : OpenSandboxOwnerClaim) : StateOperation Unit := do
  let state ← get
  match state.records.get? claim.ownerDigest with
  | some record =>
    if record.activeToken = some claim.token then
      setRecord claim.ownerDigest { record with activeToken := none }
    else
      return
  | none => return

/-! ## Availability and holders -/

/-- The holder is registered for the binding of an intent. -/
def holderMatches (holder : OpenSandboxHolderUpdate) (availability : OpenSandboxAvailability) :
    Bool :=
  holder.ownerDigest = availability.ownerDigest && holder.sandboxId = availability.sandboxId &&
    holder.bindingGeneration = availability.bindingGeneration

/-- The record of a current claim whose intent is the expected one. -/
def expectedAvailability (claim : OpenSandboxOwnerClaim) (expected : OpenSandboxAvailability) :
    StateOperation MemoryOwnerRecord := do
  let record ← claimedRecord claim
  if record.availability = some expected then
    return record
  else
    throw (.ownership "Sandbox availability is no longer current")

def registerHolder (claim : OpenSandboxOwnerClaim) (holderId : String) :
    StateOperation OpenSandboxAvailability := do
  ofExcept (validateHolderId holderId)
  let record ← claimedRecord claim
  match record.availability with
  | some availability =>
    if availability.phase = .running then do
      modify fun state => { state with
        holders := state.holders.insert (holderId, claim.ownerDigest)
          { holderId
            ownerDigest := claim.ownerDigest
            sandboxId := availability.sandboxId
            bindingGeneration := availability.bindingGeneration
            acknowledgedSequence := none
            availability } }
      return availability
    else
      throw (.ownership "Sandbox binding is not running")
  | none => throw (.ownership "Sandbox binding is not running")

def readAvailability (ownerKey : String) : StateOperation (Option OpenSandboxAvailability) := do
  ensureOpen
  let state ← get
  return (state.records.get? (ownerDigest state.namespace ownerKey)).bind (·.availability)

/-- The registrations of a holder with the latest intents, by owner. -/
def getHolderUpdates (holderId : String) : StateOperation (List OpenSandboxHolderUpdate) := do
  ensureOpen
  let state ← get
  let updates := state.holders.entries.filterMap fun ((registered, digest), holder) =>
    if registered = holderId then
      ((state.records.get? digest).bind (·.availability)).map fun availability =>
        { holder with availability }
    else
      none
  return updates.insertionSort fun left right => left.ownerDigest ≤ right.ownerDigest

/-- All holders of the binding of an intent have acknowledged its sequence. -/
def allHoldersIdle (state : InMemoryOpenSandboxState) (availability : OpenSandboxAvailability) :
    Bool :=
  state.holders.entries.all fun (_, holder) =>
    !holderMatches holder availability ||
      decide (holder.acknowledgedSequence = some availability.sequence)

def changeAvailability (claim : OpenSandboxOwnerClaim) (expected : OpenSandboxAvailability)
    (phase : OpenSandboxAvailabilityPhase) (refreshConnection : Bool) :
    StateOperation OpenSandboxAvailability := do
  let record ← expectedAvailability claim expected
  let updated ← ofExcept (nextAvailability expected phase refreshConnection)
  let state ← get
  if phase = .pausing ∧ ¬state.allHoldersIdle expected then
    throw (.ownership "Sandbox holders have not all acknowledged idle")
  else do
    setRecord claim.ownerDigest { record with availability := some updated }
    return updated

def acknowledgeIdle (holderId : String) (availability : OpenSandboxAvailability) :
    StateOperation Bool := do
  ensureOpen
  let state ← get
  let key := (holderId, availability.ownerDigest)
  match state.holders.get? key with
  | some holder =>
    if availability.phase = .draining ∧
        (state.records.get? availability.ownerDigest).bind (·.availability) = some availability ∧
        holderMatches holder availability then do
      set { state with
        holders := state.holders.insert key
          { holder with acknowledgedSequence := some availability.sequence } }
      return true
    else
      return false
  | none => return false

def holdersAreIdle (claim : OpenSandboxOwnerClaim) (availability : OpenSandboxAvailability) :
    StateOperation Bool := do
  discard (expectedAvailability claim availability)
  if availability.phase = .draining then do
    let state ← get
    return state.allHoldersIdle availability
  else
    throw (.ownership "Sandbox availability is not draining")

def unregisterHolder (holderId : String) (availability : OpenSandboxAvailability) :
    StateOperation Unit := do
  ensureOpen
  let state ← get
  let key := (holderId, availability.ownerDigest)
  match state.holders.get? key with
  | some holder =>
    if holderMatches holder availability then
      set { state with holders := state.holders.erase key }
    else
      return
  | none => return

/-! ## Warm slots -/

def withSlot (state : InMemoryOpenSandboxState) (slot : MemoryWarmSlot) :
    InMemoryOpenSandboxState :=
  { state with warmSlots := state.warmSlots.set slot.slot slot }

def setSlot (slot : MemoryWarmSlot) : StateOperation Unit := modify (·.withSlot slot)

/-- Claim the first empty slot. -/
def claimWarmSlot (token : String) : StateOperation (Option OpenSandboxWarmClaim) := do
  ensureOpen
  let state ← get
  match state.warmSlots.find? fun slot => slot.sandboxId.isNone && slot.activeToken.isNone with
  | some slot => do
    setSlot { slot with generation := slot.generation + 1, activeToken := some token }
    return some { slot := slot.slot, token, generation := slot.generation + 1 }
  | none => return none

/-- Claim the first published slot outside the excluded ones. -/
def claimReadyWarmSlot (excludeSlots : List Nat) (token : String) :
    StateOperation (Option OpenSandboxReadyWarmClaim) := do
  ensureOpen
  let state ← get
  let ready := state.warmSlots.findSome? fun slot =>
    if slot.slot ∈ excludeSlots ∨ slot.activeToken.isSome then none
    else slot.sandboxId.map fun sandboxId => (slot, sandboxId)
  match ready with
  | some (slot, sandboxId) => do
    setSlot { slot with generation := slot.generation + 1, activeToken := some token }
    return some { slot := slot.slot, token, generation := slot.generation + 1, sandboxId }
  | none => return none

/-- The slot of a current claim. -/
def claimedWarmSlot (claim : OpenSandboxWarmClaim) : StateOperation MemoryWarmSlot := do
  ensureOpen
  let state ← get
  match state.warmSlots[claim.slot]? with
  | some slot =>
    if slot.ClaimedBy claim then
      return slot
    else
      throw (.ownership s!"Warm slot {claim.slot} is no longer current")
  | none => throw (.ownership s!"Warm slot {claim.slot} is no longer current")

def withCleanup (state : InMemoryOpenSandboxState) (sandboxId : String)
    (record : MemoryCleanupRecord) : InMemoryOpenSandboxState :=
  { state with cleanup := state.cleanup.insert sandboxId record }

def setCleanup (sandboxId : String) (record : MemoryCleanupRecord) : StateOperation Unit :=
  modify (·.withCleanup sandboxId record)

/-- Keep a cleanup target, or add it. -/
def addCleanup (sandboxId : String) : StateOperation Unit := do
  let state ← get
  match state.cleanup.get? sandboxId with
  | some _ => return
  | none => setCleanup sandboxId {}

def discardReadyWarmSlot (claim : OpenSandboxReadyWarmClaim) : StateOperation Unit := do
  let slot ← claimedWarmSlot claim.toOpenSandboxWarmClaim
  if slot.sandboxId = some claim.sandboxId then do
    setSlot { slot with sandboxId := none, activeToken := none }
    addCleanup claim.sandboxId
  else
    throw (.ownership s!"Warm slot {claim.slot} no longer contains the claimed Sandbox")

def warmPoolReady : StateOperation Bool := do
  ensureOpen
  let state ← get
  return state.warmSlots.all (·.sandboxId.isSome)

def publishWarm (claim : OpenSandboxWarmClaim) (sandboxId : String) : StateOperation Unit := do
  let slot ← claimedWarmSlot claim
  setSlot { slot with sandboxId := some sandboxId, activeToken := none }

def renewWarm (claim : OpenSandboxWarmClaim) : StateOperation Bool :=
  confirmed (claimedWarmSlot claim)

/-- Release a slot; the release by any other claim does nothing. -/
def releaseWarm (claim : OpenSandboxWarmClaim) : StateOperation Unit := do
  let state ← get
  match state.warmSlots[claim.slot]? with
  | some slot =>
    if slot.activeToken = some claim.token then
      setSlot { slot with activeToken := none }
    else
      return
  | none => return

/-- Bind the first ready Sandbox to the owner of a claim. -/
def consumeWarm (claim : OpenSandboxOwnerClaim) : StateOperation (Option OpenSandboxBinding) := do
  let record ← claimedRecord claim
  let state ← get
  let ready := state.warmSlots.findSome? fun slot =>
    if slot.activeToken.isSome then none
    else slot.sandboxId.map fun sandboxId => (slot, sandboxId)
  match ready with
  | some (slot, sandboxId) => do
    let binding ← commitBinding record claim sandboxId
    setSlot { slot with sandboxId := none }
    return some binding
  | none => return none

/-! ## Cleanup -/

def enqueueCleanup (sandboxId : String) : StateOperation Unit := do
  ensureOpen
  addCleanup sandboxId

/-- Claim the oldest free target. -/
def claimCleanup (token : String) : StateOperation (Option OpenSandboxCleanupClaim) := do
  ensureOpen
  let state ← get
  match state.cleanup.entries.find? fun (_, record) => record.activeToken.isNone with
  | some (sandboxId, record) => do
    setCleanup sandboxId { generation := record.generation + 1, activeToken := some token }
    return some { sandboxId, token, generation := record.generation + 1 }
  | none => return none

/-- The target of a current claim. -/
def claimedCleanup (claim : OpenSandboxCleanupClaim) : StateOperation MemoryCleanupRecord := do
  ensureOpen
  let state ← get
  match state.cleanup.get? claim.sandboxId with
  | some record =>
    if record.ClaimedBy claim then
      return record
    else
      throw (.ownership s!"Cleanup claim for '{claim.sandboxId}' is no longer current")
  | none => throw (.ownership s!"Cleanup claim for '{claim.sandboxId}' is no longer current")

def renewCleanup (claim : OpenSandboxCleanupClaim) : StateOperation Bool :=
  confirmed (claimedCleanup claim)

def completeCleanup (claim : OpenSandboxCleanupClaim) : StateOperation Unit := do
  discard (claimedCleanup claim)
  modify fun state => { state with cleanup := state.cleanup.erase claim.sandboxId }

/-- Release a target; the release by any other claim does nothing. -/
def releaseCleanup (claim : OpenSandboxCleanupClaim) : StateOperation Unit := do
  let state ← get
  match state.cleanup.get? claim.sandboxId with
  | some record =>
    if record.activeToken = some claim.token then
      setCleanup claim.sandboxId { record with activeToken := none }
    else
      return
  | none => return

/-- Every Sandbox that only this State knows, sorted. -/
def shutdownSandboxIds : StateOperation (List String) := do
  ensureOpen
  let state ← get
  let bound := state.records.entries.filterMap fun (_, record) => record.binding.map (·.sandboxId)
  let warm := state.warmSlots.filterMap (·.sandboxId)
  return ((bound ++ warm ++ state.cleanup.keys).dedup).insertionSort (· ≤ ·)

end InMemoryOpenSandboxState

/-! ## Requests -/

/-- One call of a State method. -/
inductive StateRequest
  | start (warmPoolSize : Int)
  | acquireOwner (ownerKey : String)
  | bindOwner (claim : OpenSandboxOwnerClaim) (sandboxId : String)
  | renewOwner (claim : OpenSandboxOwnerClaim)
  | unbindOwner (claim : OpenSandboxOwnerClaim)
  | readBinding (ownerKey : String)
  | releaseOwner (claim : OpenSandboxOwnerClaim)
  | registerHolder (claim : OpenSandboxOwnerClaim) (holderId : String)
  | readAvailability (ownerKey : String)
  | getHolderUpdates (holderId : String)
  | changeAvailability (claim : OpenSandboxOwnerClaim) (expected : OpenSandboxAvailability)
      (phase : OpenSandboxAvailabilityPhase) (refreshConnection : Bool)
  | acknowledgeIdle (holderId : String) (availability : OpenSandboxAvailability)
  | holdersAreIdle (claim : OpenSandboxOwnerClaim) (availability : OpenSandboxAvailability)
  | unregisterHolder (holderId : String) (availability : OpenSandboxAvailability)
  | claimWarmSlot
  | claimReadyWarmSlot (excludeSlots : List Nat)
  | discardReadyWarmSlot (claim : OpenSandboxReadyWarmClaim)
  | warmPoolReady
  | publishWarm (claim : OpenSandboxWarmClaim) (sandboxId : String)
  | renewWarm (claim : OpenSandboxWarmClaim)
  | releaseWarm (claim : OpenSandboxWarmClaim)
  | consumeWarm (claim : OpenSandboxOwnerClaim)
  | enqueueCleanup (sandboxId : String)
  | claimCleanup
  | renewCleanup (claim : OpenSandboxCleanupClaim)
  | completeCleanup (claim : OpenSandboxCleanupClaim)
  | releaseCleanup (claim : OpenSandboxCleanupClaim)
  | shutdownSandboxIds
  | aclose

/-- What a call returns; a call that still waits has returned nothing. -/
inductive StateResponse
  | done
  | waiting
  | flag (value : Bool)
  | ownerClaim (claim : OpenSandboxOwnerClaim)
  | binding (binding : Option OpenSandboxBinding)
  | availability (availability : Option OpenSandboxAvailability)
  | holderUpdates (updates : List OpenSandboxHolderUpdate)
  | warmClaim (claim : Option OpenSandboxWarmClaim)
  | readyClaim (claim : Option OpenSandboxReadyWarmClaim)
  | cleanupClaim (claim : Option OpenSandboxCleanupClaim)
  | sandboxIds (sandboxIds : List String)
  deriving DecidableEq, Repr

namespace InMemoryOpenSandboxState

/-- Perform a request; `token` is the token that a claim draws. -/
def perform (token : String) : StateRequest → StateOperation StateResponse
  | .start warmPoolSize => do start warmPoolSize; return .done
  | .acquireOwner ownerKey => do
    let claim ← acquireOwner ownerKey token
    return claim.elim .waiting .ownerClaim
  | .bindOwner claim sandboxId => do
    let binding ← bindOwner claim sandboxId
    return .binding (some binding)
  | .renewOwner claim => return .flag (← renewOwner claim)
  | .unbindOwner claim => do unbindOwner claim; return .done
  | .readBinding ownerKey => do
    let binding ← readBinding ownerKey
    return binding.elim .waiting .binding
  | .releaseOwner claim => do releaseOwner claim; return .done
  | .registerHolder claim holderId => do
    let availability ← registerHolder claim holderId
    return .availability (some availability)
  | .readAvailability ownerKey => return .availability (← readAvailability ownerKey)
  | .getHolderUpdates holderId => return .holderUpdates (← getHolderUpdates holderId)
  | .changeAvailability claim expected phase refreshConnection => do
    let availability ← changeAvailability claim expected phase refreshConnection
    return .availability (some availability)
  | .acknowledgeIdle holderId availability =>
    return .flag (← acknowledgeIdle holderId availability)
  | .holdersAreIdle claim availability => return .flag (← holdersAreIdle claim availability)
  | .unregisterHolder holderId availability => do
    unregisterHolder holderId availability
    return .done
  | .claimWarmSlot => return .warmClaim (← claimWarmSlot token)
  | .claimReadyWarmSlot excludeSlots => return .readyClaim (← claimReadyWarmSlot excludeSlots token)
  | .discardReadyWarmSlot claim => do discardReadyWarmSlot claim; return .done
  | .warmPoolReady => return .flag (← warmPoolReady)
  | .publishWarm claim sandboxId => do publishWarm claim sandboxId; return .done
  | .renewWarm claim => return .flag (← renewWarm claim)
  | .releaseWarm claim => do releaseWarm claim; return .done
  | .consumeWarm claim => return .binding (← consumeWarm claim)
  | .enqueueCleanup sandboxId => do enqueueCleanup sandboxId; return .done
  | .claimCleanup => return .cleanupClaim (← claimCleanup token)
  | .renewCleanup claim => return .flag (← renewCleanup claim)
  | .completeCleanup claim => do completeCleanup claim; return .done
  | .releaseCleanup claim => do releaseCleanup claim; return .done
  | .shutdownSandboxIds => return .sandboxIds (← shutdownSandboxIds)
  | .aclose => do aclose; return .done

end InMemoryOpenSandboxState

end Tinkerfin.Sandbox
