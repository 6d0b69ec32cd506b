import Tinkerfin.Sandbox.StateHistory

/-!
# The in-memory State keeps custody

Every operation changes the records of a State by steps of `Custody`.
-/

namespace Tinkerfin.Sandbox

open EStateM Relation

namespace InMemoryOpenSandboxState

variable {state : InMemoryOpenSandboxState}

/-! ## Records after an update -/

theorem fence_withRecord {digest : String} {record : MemoryOwnerRecord} :
    (state.withRecord digest record).fence = Function.update state.fence (.owner digest)
      (some { generation := record.generation, token := record.activeToken }) := by
  funext target
  cases target with
  | owner other =>
    simp only [fence, withRecord, Dict.get?_insert, Function.update_apply, StateRecord.owner.injEq]
    split <;> rfl
  | slot index => rfl
  | cleanup sandboxId => rfl

theorem sandbox_withRecord {digest : String} {record : MemoryOwnerRecord} :
    (state.withRecord digest record).sandbox = Function.update state.sandbox (.owner digest)
      (record.binding.map (·.sandboxId)) := by
  funext target
  cases target with
  | owner other =>
    simp only [sandbox, withRecord, Dict.get?_insert, Function.update_apply,
      StateRecord.owner.injEq]
    split <;> rfl
  | slot index => rfl
  | cleanup sandboxId => rfl

theorem fence_withSlot {slot : MemoryWarmSlot} {generation : Nat}
    {sandboxId activeToken : Option String}
    (found : state.warmSlots[slot.slot]? = some slot) :
    (state.withSlot { slot := slot.slot, generation, sandboxId, activeToken }).fence =
      Function.update state.fence (.slot slot.slot) (some { generation, token := activeToken }) := by
  funext target
  have inside := (List.getElem?_eq_some_iff.mp found).1
  cases target with
  | slot index =>
    simp only [fence, withSlot, List.getElem?_set, Function.update_apply, StateRecord.slot.injEq]
    grind
  | owner digest => rfl
  | cleanup sandboxId => rfl

theorem sandbox_withSlot {slot : MemoryWarmSlot} {generation : Nat}
    {sandboxId activeToken : Option String}
    (found : state.warmSlots[slot.slot]? = some slot) :
    (state.withSlot { slot := slot.slot, generation, sandboxId, activeToken }).sandbox =
      Function.update state.sandbox (.slot slot.slot) sandboxId := by
  funext target
  have inside := (List.getElem?_eq_some_iff.mp found).1
  cases target with
  | slot index =>
    simp only [sandbox, withSlot, List.getElem?_set, Function.update_apply, StateRecord.slot.injEq]
    grind
  | owner digest => rfl
  | cleanup sandboxId => rfl

theorem fence_withCleanup {sandboxId : String} {record : MemoryCleanupRecord} :
    (state.withCleanup sandboxId record).fence = Function.update state.fence (.cleanup sandboxId)
      (some { generation := record.generation, token := record.activeToken }) := by
  funext target
  cases target with
  | cleanup other =>
    simp only [fence, withCleanup, Dict.get?_insert, Function.update_apply,
      StateRecord.cleanup.injEq]
    split <;> rfl
  | owner digest => rfl
  | slot index => rfl

theorem sandbox_withCleanup {sandboxId : String} {record : MemoryCleanupRecord} :
    (state.withCleanup sandboxId record).sandbox = state.sandbox := by
  funext target
  cases target <;> rfl

theorem fence_eraseCleanup {sandboxId : String} :
    ({ state with cleanup := state.cleanup.erase sandboxId } : InMemoryOpenSandboxState).fence =
      Function.update state.fence (.cleanup sandboxId) none := by
  funext target
  cases target with
  | cleanup other =>
    simp only [fence, Dict.get?_erase, Function.update_apply, StateRecord.cleanup.injEq]
    split <;> rfl
  | owner digest => rfl
  | slot index => rfl

theorem sandbox_eraseCleanup {sandboxId : String} :
    ({ state with cleanup := state.cleanup.erase sandboxId } : InMemoryOpenSandboxState).sandbox =
      state.sandbox := by
  funext target
  cases target <;> rfl

theorem fence_of_record {digest : String} {record : MemoryOwnerRecord}
    (found : state.records.get? digest = some record) : state.fence (.owner digest) =
      some { generation := record.generation, token := record.activeToken } := by
  simp [fence, found]

theorem sandbox_of_record {digest : String} {record : MemoryOwnerRecord}
    (found : state.records.get? digest = some record) :
    state.sandbox (.owner digest) = record.binding.map (·.sandboxId) := by
  simp [sandbox, found]

theorem fence_of_slot {index : Nat} {slot : MemoryWarmSlot}
    (found : state.warmSlots[index]? = some slot) : state.fence (.slot index) =
      some { generation := slot.generation, token := slot.activeToken } := by
  simp [fence, found]

theorem sandbox_of_slot {index : Nat} {slot : MemoryWarmSlot}
    (found : state.warmSlots[index]? = some slot) :
    state.sandbox (.slot index) = slot.sandboxId := by
  simp [sandbox, found]

theorem fence_of_cleanup {sandboxId : String} {record : MemoryCleanupRecord}
    (found : state.cleanup.get? sandboxId = some record) : state.fence (.cleanup sandboxId) =
      some { generation := record.generation, token := record.activeToken } := by
  simp [fence, found]

/-! ## Slots -/

/-- Slots carry their index, and a State has none before it is started. -/
structure Consistent (state : InMemoryOpenSandboxState) : Prop where
  numbered : ∀ (index : Nat) (slot : MemoryWarmSlot), state.warmSlots[index]? = some slot → slot.slot = index
  unstarted : state.started = false → state.warmSlots = []

theorem consistent_withSlot (consistent : state.Consistent) {slot : MemoryWarmSlot} :
    (state.withSlot slot).Consistent where
  numbered index other found := by
    simp only [withSlot, List.getElem?_set] at found
    split at found
    · next same =>
        split at found
        · obtain rfl := Option.some.inj found
          exact same
        · cases found
    · exact consistent.numbered index other found
  unstarted notStarted := by
    simp [withSlot, consistent.unstarted notStarted]

theorem consistent_withRecord (consistent : state.Consistent) {digest : String}
    {record : MemoryOwnerRecord} : (state.withRecord digest record).Consistent :=
  ⟨consistent.numbered, consistent.unstarted⟩

theorem consistent_withCleanup (consistent : state.Consistent) {sandboxId : String}
    {record : MemoryCleanupRecord} : (state.withCleanup sandboxId record).Consistent :=
  ⟨consistent.numbered, consistent.unstarted⟩

theorem Consistent.slot_found (consistent : state.Consistent) {slot : MemoryWarmSlot}
    (member : slot ∈ state.warmSlots) : state.warmSlots[slot.slot]? = some slot := by
  obtain ⟨index, found⟩ := List.mem_iff_getElem?.mp member
  rw [consistent.numbered index slot found, found]

/-! ## Shared checks -/

/-- The State is started and not closed. -/
def Open (state : InMemoryOpenSandboxState) : Prop := state.started = true ∧ state.closed = false

variable {raised : StateError → InMemoryOpenSandboxState → Prop}

theorem ensures_ensureOpen {returned : Unit → InMemoryOpenSandboxState → Prop}
    (opened : state.Open → returned ⟨⟩ state)
    (closed : ¬state.Open → ∀ message, raised (.state message) state) :
    ensureOpen.Ensures state returned raised := by
  simp only [ensureOpen, ensures_bind, ensures_get, ensures_ite, ensures_throw, ensures_pure]
  unfold Open at *
  grind

theorem ensures_claimedRecord {claim : OpenSandboxOwnerClaim}
    {returned : MemoryOwnerRecord → InMemoryOpenSandboxState → Prop}
    (found : ∀ record, state.records.get? claim.ownerDigest = some record →
      record.ClaimedBy claim → returned record state)
    (closed : ¬state.Open → ∀ message, raised (.state message) state)
    (refused : state.Open → ∀ message, raised (.ownership message) state) :
    (claimedRecord claim).Ensures state returned raised := by
  rw [claimedRecord, ensures_bind]
  refine ensures_ensureOpen (fun opened => ?_) closed
  rw [ensures_bind, ensures_get]
  cases stored : state.records.get? claim.ownerDigest with
  | none => exact refused opened _
  | some record =>
    dsimp only
    rw [ensures_ite]
    exact ⟨fun claimed => found record stored claimed, fun _ => refused opened _⟩

theorem ensures_claimedWarmSlot {claim : OpenSandboxWarmClaim}
    {returned : MemoryWarmSlot → InMemoryOpenSandboxState → Prop}
    (found : ∀ slot, state.warmSlots[claim.slot]? = some slot → slot.ClaimedBy claim →
      returned slot state)
    (closed : ¬state.Open → ∀ message, raised (.state message) state)
    (refused : state.Open → ∀ message, raised (.ownership message) state) :
    (claimedWarmSlot claim).Ensures state returned raised := by
  rw [claimedWarmSlot, ensures_bind]
  refine ensures_ensureOpen (fun opened => ?_) closed
  rw [ensures_bind, ensures_get]
  cases stored : state.warmSlots[claim.slot]? with
  | none => exact refused opened _
  | some slot =>
    dsimp only
    rw [ensures_ite]
    exact ⟨fun claimed => found slot stored claimed, fun _ => refused opened _⟩

theorem ensures_claimedCleanup {claim : OpenSandboxCleanupClaim}
    {returned : MemoryCleanupRecord → InMemoryOpenSandboxState → Prop}
    (found : ∀ record, state.cleanup.get? claim.sandboxId = some record →
      record.ClaimedBy claim → returned record state)
    (closed : ¬state.Open → ∀ message, raised (.state message) state)
    (refused : state.Open → ∀ message, raised (.ownership message) state) :
    (claimedCleanup claim).Ensures state returned raised := by
  rw [claimedCleanup, ensures_bind]
  refine ensures_ensureOpen (fun opened => ?_) closed
  rw [ensures_bind, ensures_get]
  cases stored : state.cleanup.get? claim.sandboxId with
  | none => exact refused opened _
  | some record =>
    dsimp only
    rw [ensures_ite]
    exact ⟨fun claimed => found record stored claimed, fun _ => refused opened _⟩

theorem ensures_setSlot {slot : MemoryWarmSlot}
    {returned : Unit → InMemoryOpenSandboxState → Prop} :
    (setSlot slot).Ensures state returned raised ↔ returned ⟨⟩ (state.withSlot slot) := Iff.rfl

theorem ensures_setCleanup {sandboxId : String} {record : MemoryCleanupRecord}
    {returned : Unit → InMemoryOpenSandboxState → Prop} :
    (setCleanup sandboxId record).Ensures state returned raised ↔
      returned ⟨⟩ (state.withCleanup sandboxId record) := Iff.rfl

/-! ## Operations that keep the records -/

/-- The records are as before. -/
structure SameRecords (state after : InMemoryOpenSandboxState) : Prop where
  fence : after.fence = state.fence
  sandbox : after.sandbox = state.sandbox
  consistent : state.Consistent → after.Consistent

theorem SameRecords.refl : state.SameRecords state := ⟨rfl, rfl, id⟩

/-- A program that keeps the records, and everything when it raises. -/
def KeepsRecords {α : Type} (program : StateOperation α) : Prop :=
  ∀ state, program.Ensures state (fun _ => state.SameRecords) fun _ after => after = state

theorem sameRecords_withRecord {digest : String} {record old : MemoryOwnerRecord}
    (found : state.records.get? digest = some old) (generation : record.generation = old.generation)
    (token : record.activeToken = old.activeToken) (binding : record.binding = old.binding) :
    state.SameRecords (state.withRecord digest record) where
  fence := by
    rw [fence_withRecord, generation, token, ← fence_of_record found, Function.update_eq_self]
  sandbox := by
    rw [sandbox_withRecord, binding, ← sandbox_of_record found, Function.update_eq_self]
  consistent := fun consistent => consistent_withRecord consistent

theorem sandbox_withSlot_same {slot : MemoryWarmSlot} {generation : Nat}
    {activeToken : Option String} (found : state.warmSlots[slot.slot]? = some slot) :
    (state.withSlot { slot with generation, activeToken }).sandbox = state.sandbox := by
  rw [sandbox_withSlot found]
  exact Function.update_eq_self_iff.mpr (sandbox_of_slot found).symm

/-- A check of a claim that writes nothing. -/
def Checks {α : Type} (check : StateOperation α) : Prop :=
  ∀ state, check.Ensures state (fun _ after => after = state) fun _ after => after = state

theorem checks_claimedRecord {claim : OpenSandboxOwnerClaim} : Checks (claimedRecord claim) :=
  fun _ => ensures_claimedRecord (fun _ _ _ => rfl) (fun _ _ => rfl) fun _ _ => rfl

theorem checks_claimedWarmSlot {claim : OpenSandboxWarmClaim} : Checks (claimedWarmSlot claim) :=
  fun _ => ensures_claimedWarmSlot (fun _ _ _ => rfl) (fun _ _ => rfl) fun _ _ => rfl

theorem checks_claimedCleanup {claim : OpenSandboxCleanupClaim} : Checks (claimedCleanup claim) :=
  fun _ => ensures_claimedCleanup (fun _ _ _ => rfl) (fun _ _ => rfl) fun _ _ => rfl

theorem ensures_confirmed {α : Type} {check : StateOperation α}
    {returned : Bool → InMemoryOpenSandboxState → Prop}
    (ensures : check.Ensures state (fun _ => returned true) fun error after =>
      match error with
      | .ownership _ => returned false after
      | error => raised error after) :
    (confirmed check).Ensures state returned raised := by
  rw [confirmed, ensures_tryCatch, seqRight_eq_bind, ensures_bind, ensures_discard]
  refine ensures.mono (fun _ _ => id) fun error after holds => ?_
  cases error with
  | ownership => exact holds
  | state => exact holds
  | configuration => exact holds
  | invalidValue => exact holds

theorem keeps_confirmed {α : Type} {check : StateOperation α} (checks : Checks check) :
    KeepsRecords (confirmed check) := by
  intro state
  refine ensures_confirmed ((checks state).mono ?_ ?_)
  · rintro _ after rfl
    exact .refl
  · rintro error after rfl
    cases error with
    | ownership => exact .refl
    | state => rfl
    | configuration => rfl
    | invalidValue => rfl

theorem sameRecords_holders {holders : Dict (String × String) OpenSandboxHolderUpdate} :
    state.SameRecords { state with holders } where
  fence := by funext target; cases target <;> rfl
  sandbox := by funext target; cases target <;> rfl
  consistent := fun consistent => ⟨consistent.numbered, consistent.unstarted⟩

theorem keeps_registerHolder {claim : OpenSandboxOwnerClaim} {holderId : String} :
    KeepsRecords (registerHolder claim holderId) := by
  intro state
  rw [registerHolder, ensures_bind, ensures_ofExcept]
  refine ⟨fun _ _ => ?_, fun _ _ => rfl⟩
  rw [ensures_bind]
  refine ensures_claimedRecord (fun record _ _ => ?_) (fun _ _ => rfl) fun _ _ => rfl
  cases record.availability with
  | none => rfl
  | some availability =>
    dsimp only
    rw [ensures_ite]
    exact ⟨fun _ => sameRecords_holders, fun _ => rfl⟩

theorem keeps_reading {α : Type} {read : InMemoryOpenSandboxState → α} :
    KeepsRecords (do ensureOpen; let state ← get; return read state) := by
  intro state
  rw [ensures_bind]
  exact ensures_ensureOpen (fun _ => .refl) fun _ _ => rfl

theorem ensures_expectedAvailability {claim : OpenSandboxOwnerClaim}
    {expected : OpenSandboxAvailability}
    {returned : MemoryOwnerRecord → InMemoryOpenSandboxState → Prop}
    (found : ∀ record, state.records.get? claim.ownerDigest = some record →
      record.ClaimedBy claim → record.availability = some expected → returned record state)
    (closed : ¬state.Open → ∀ message, raised (.state message) state)
    (refused : ∀ message, raised (.ownership message) state) :
    (expectedAvailability claim expected).Ensures state returned raised := by
  rw [expectedAvailability, ensures_bind]
  refine ensures_claimedRecord (fun record stored claimed => ?_) closed fun _ => refused
  rw [ensures_ite]
  exact ⟨fun same => found record stored claimed same, fun _ => refused _⟩

theorem keeps_changeAvailability {claim : OpenSandboxOwnerClaim}
    {expected : OpenSandboxAvailability} {phase : OpenSandboxAvailabilityPhase}
    {refreshConnection : Bool} :
    KeepsRecords (changeAvailability claim expected phase refreshConnection) := by
  intro state
  rw [changeAvailability, ensures_bind]
  refine ensures_expectedAvailability (fun record found _ _ => ?_) (fun _ _ => rfl) fun _ => rfl
  rw [ensures_bind, ensures_ofExcept]
  refine ⟨fun updated _ => ?_, fun _ _ => rfl⟩
  rw [ensures_bind, ensures_get, ensures_ite]
  exact ⟨fun _ => rfl, fun _ => sameRecords_withRecord found rfl rfl rfl⟩

theorem keeps_holdersAreIdle {claim : OpenSandboxOwnerClaim}
    {availability : OpenSandboxAvailability} :
    KeepsRecords (holdersAreIdle claim availability) := by
  intro state
  rw [holdersAreIdle, ensures_bind, ensures_discard]
  refine ensures_expectedAvailability (fun _ _ _ _ => ?_) (fun _ _ => rfl) fun _ => rfl
  rw [ensures_ite]
  exact ⟨fun _ => .refl, fun _ => rfl⟩

theorem keeps_acknowledgeIdle {holderId : String} {availability : OpenSandboxAvailability} :
    KeepsRecords (acknowledgeIdle holderId availability) := by
  intro state
  rw [acknowledgeIdle, ensures_bind]
  refine ensures_ensureOpen (fun _ => ?_) fun _ _ => rfl
  rw [ensures_bind, ensures_get]
  dsimp only
  cases state.holders.get? (holderId, availability.ownerDigest) with
  | none => exact .refl
  | some holder =>
    dsimp only
    rw [ensures_ite]
    exact ⟨fun _ => sameRecords_holders, fun _ => .refl⟩

theorem keeps_unregisterHolder {holderId : String} {availability : OpenSandboxAvailability} :
    KeepsRecords (unregisterHolder holderId availability) := by
  intro state
  rw [unregisterHolder, ensures_bind]
  refine ensures_ensureOpen (fun _ => ?_) fun _ _ => rfl
  rw [ensures_bind, ensures_get]
  dsimp only
  cases state.holders.get? (holderId, availability.ownerDigest) with
  | none => exact .refl
  | some holder =>
    dsimp only
    rw [ensures_ite]
    exact ⟨fun _ => sameRecords_holders, fun _ => .refl⟩

theorem keeps_aclose : KeepsRecords aclose := by
  intro state
  exact
    { fence := by funext target; cases target <;> rfl
      sandbox := by funext target; cases target <;> rfl
      consistent := fun consistent => ⟨consistent.numbered, consistent.unstarted⟩ }

end InMemoryOpenSandboxState

end Tinkerfin.Sandbox
