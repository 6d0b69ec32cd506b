import Tinkerfin.Sandbox.MemoryCustody

/-!
# Calls as steps of custody

A call with a new token and a claim that State returned continues the history by steps of `Custody`,
whatever it returns or raises; the steps are careful when the call names its Sandbox.
-/

namespace Tinkerfin.Sandbox

open EStateM Relation

namespace StateHistory

variable {careful : Prop} {history : StateHistory} {request : StateRequest}
  {response : StateResponse} {after : InMemoryOpenSandboxState}

/-- Steps of custody lead from one history to the other. -/
def Continues (careful : Prop) (history later : StateHistory) : Prop :=
  ReflTransGen (Custody.Step careful) history.custody later.custody

/-- The records of the history as another state has them. -/
def seen (history : StateHistory) (after : InMemoryOpenSandboxState) :
    Custody.History StateRecord String String :=
  { history.custody with fence := after.fence, item := after.sandbox }

/-- A call continues the history when it returns, and its claim holds its record. -/
structure Returned (careful : Prop) (history : StateHistory) (request : StateRequest)
    (response : StateResponse) (after : InMemoryOpenSandboxState) : Prop where
  continues : Continues careful history (history.advance request (some response) after)
  consistent : after.Consistent
  granted : ∀ claim, response.claim? = some claim → after.fence claim.custody.record =
    some { generation := claim.custody.generation, token := some claim.custody.token }

/-- A call continues the history when it raises. -/
def Raised (careful : Prop) (history : StateHistory) (request : StateRequest) (_ : StateError)
    (after : InMemoryOpenSandboxState) : Prop :=
  Continues careful history (history.advance request none after) ∧ after.Consistent

theorem custody_advance {outcome : Option StateResponse}
    (claimless : outcome.bind (·.claim?) = none)
    (kept : outcome.isSome → request.removed? = none) :
    (history.advance request outcome after).custody =
      { history.seen after with offered := history.offered ++ request.placed?.toList } := by
  have all : (if outcome.isSome then request.removed? else none) = none := by
    split
    · next returned => exact kept returned
    · rfl
  simp [advance, custody, seen, claimless, all]

theorem continues_of_steps {outcome : Option StateResponse}
    (steps : ReflTransGen (Custody.Step careful) history.custody (history.seen after))
    (claimless : outcome.bind (·.claim?) = none)
    (kept : outcome.isSome → request.removed? = none) :
    Continues careful history (history.advance request outcome after) := by
  rw [Continues, custody_advance claimless kept]
  cases placed : request.placed? with
  | none => simpa [seen, custody] using steps
  | some sandboxId => exact steps.tail .offered

theorem seen_of_sameRecords (same : history.state.SameRecords after) :
    history.seen after = history.custody := by
  rw [seen, same.fence, same.sandbox]
  rfl

theorem returned_of_steps (consistent : after.Consistent)
    (steps : ReflTransGen (Custody.Step careful) history.custody (history.seen after))
    (claimless : response.claim? = none) (kept : request.removed? = none) :
    Returned careful history request response after :=
  ⟨continues_of_steps steps claimless fun _ => kept, consistent, by simp [claimless]⟩

theorem returned_of_sameRecords (consistent : history.state.Consistent)
    (same : history.state.SameRecords after) (claimless : response.claim? = none)
    (kept : request.removed? = none) : Returned careful history request response after :=
  returned_of_steps (same.consistent consistent) (by rw [seen_of_sameRecords same]) claimless kept

theorem raised_of_steps {error : StateError} (consistent : after.Consistent)
    (steps : ReflTransGen (Custody.Step careful) history.custody (history.seen after)) :
    Raised careful history request error after :=
  ⟨continues_of_steps steps rfl fun returned => absurd returned (by simp), consistent⟩

theorem raised_unchanged {error : StateError} (consistent : history.state.Consistent) :
    Raised careful history request error history.state :=
  raised_of_steps consistent (by rw [seen_of_sameRecords .refl])

theorem ensures_keeps {α : Type} {program : StateOperation α} {answer : α → StateResponse}
    (keeps : InMemoryOpenSandboxState.KeepsRecords program)
    (consistent : history.state.Consistent) (claimless : ∀ value, (answer value).claim? = none)
    (kept : request.removed? = none) :
    (do let value ← program; return answer value).Ensures history.state
      (Returned careful history request) (Raised careful history request) := by
  rw [ensures_bind]
  refine (keeps history.state).mono ?_ ?_
  · intro value after same
    exact returned_of_sameRecords consistent same (claimless value) kept
  · rintro error after rfl
    exact raised_unchanged consistent

/-! ## Claims -/

theorem Returned.of_steps {middle : InMemoryOpenSandboxState}
    (steps : ReflTransGen (Custody.Step careful) history.custody (history.seen middle))
    (returned : Returned careful { history with state := middle } request response after) :
    Returned careful history request response after :=
  ⟨steps.trans returned.continues, returned.consistent, returned.granted⟩

/-- A call that claims a free record. -/
theorem returned_of_claim (claim : StateClaim) {generation : Nat} (consistent : after.Consistent)
    (granted : response.claim? = some claim) (kept : request.removed? = none)
    (placeless : request.placed? = none)
    (fence : after.fence = Function.update history.state.fence claim.custody.record
      (some { generation := generation + 1, token := some claim.custody.token }))
    (sandbox : after.sandbox = history.state.sandbox)
    (free : history.state.fence claim.custody.record = some { generation, token := none })
    (grows : claim.custody.generation = generation + 1)
    (names : claim.custody.item = history.state.sandbox claim.custody.record)
    (fresh : ∀ old ∈ history.issued, old.custody.token ≠ claim.custody.token) :
    Returned careful history request response after := by
  refine ⟨?_, consistent, fun other equal => ?_⟩
  rotate_left
  · obtain rfl := Option.some.inj (granted.symm.trans equal)
    rw [fence, Function.update_self, grows]
  have named : (⟨claim.custody.record, claim.custody.token, generation + 1,
      history.custody.item claim.custody.record⟩ : Custody.Claim _ _ _) = claim.custody := by
    rw [← grows]
    exact congrArg _ names.symm
  have step : Custody.Step careful history.custody (history.custody.withClaim claim.custody) := by
    rw [← named]
    exact .granted free (by simpa [custody] using fresh)
  have same : (history.advance request (some response) after).custody =
      history.custody.withClaim claim.custody := by
    simp [advance, custody, granted, kept, placeless, fence, sandbox, grows,
      Custody.History.withClaim, Custody.History.withFence]
  rw [Continues, same]
  exact .single step

/-! ## Owners -/

open InMemoryOpenSandboxState

theorem ensures_record {ownerKey : String} {state : InMemoryOpenSandboxState}
    {returned : String × MemoryOwnerRecord → InMemoryOpenSandboxState → Prop}
    {raised : StateError → InMemoryOpenSandboxState → Prop}
    (found : ∀ digest record, state.records.get? digest = some record →
      returned (digest, record) state)
    (made : ∀ digest, state.records.get? digest = none →
      returned (digest, {}) (state.withRecord digest {}))
    (closed : ∀ error, raised error state) :
    (record ownerKey).Ensures state returned raised := by
  rw [record, ensures_bind]
  refine ensures_ensureOpen (fun _ => ?_) fun _ _ => closed _
  rw [ensures_bind, ensures_get]
  dsimp only
  cases stored : state.records.get? (ownerDigest state.namespace ownerKey) with
  | none => exact made _ stored
  | some record => exact found _ _ stored

theorem steps_made {digest : String} (absent : history.state.records.get? digest = none) :
    ReflTransGen (Custody.Step careful) history.custody
      (history.seen (history.state.withRecord digest {})) := by
  have vacant : history.state.sandbox (.owner digest) = none := by simp [sandbox, absent]
  have same : history.seen (history.state.withRecord digest {}) =
      history.custody.withFence (.owner digest) (some ⟨0, none⟩) := by
    rw [seen, fence_withRecord, sandbox_withRecord, Option.map_none, ← vacant,
      Function.update_eq_self]
    rfl
  rw [same]
  exact .single (.opened (by simp [custody, fence, absent]))

theorem ensures_acquireOwner {ownerKey token : String} (consistent : history.state.Consistent)
    (fresh : ∀ old ∈ history.issued, old.custody.token ≠ token) :
    (perform token (.acquireOwner ownerKey)).Ensures history.state
      (Returned careful history (.acquireOwner ownerKey)) (Raised careful history (.acquireOwner ownerKey)) := by
  rw [perform, ensures_bind, acquireOwner, ensures_bind]
  refine ensures_record ?_ ?_ fun _ => raised_unchanged consistent
  · intro digest record found
    dsimp only
    rw [ensures_ite]
    refine ⟨fun _ => returned_of_sameRecords consistent .refl rfl rfl, fun free => ?_⟩
    simp only [Option.not_isSome_iff_eq_none] at free
    refine returned_of_claim (.owner _) (consistent_withRecord consistent) rfl rfl rfl
      fence_withRecord ?_ ((fence_of_record found).trans (by rw [free])) rfl ?_ fresh
    · rw [sandbox_withRecord, ← sandbox_of_record found, Function.update_eq_self]
    · exact (sandbox_of_record found).symm
  · intro digest absent
    dsimp only
    rw [ensures_ite]
    refine ⟨fun claimed => absurd claimed (by simp), fun _ => ?_⟩
    have found : (history.state.withRecord digest {}).records.get? digest = some {} :=
      Dict.get?_insert_self ..
    refine .of_steps (steps_made absent) (returned_of_claim (.owner _)
      (consistent_withRecord (consistent_withRecord consistent)) rfl rfl rfl fence_withRecord ?_
      (fence_of_record found) rfl ?_ fresh)
    · rw [sandbox_withRecord, ← sandbox_of_record found, Function.update_eq_self]
    · exact (sandbox_of_record found).symm

theorem ensures_readBinding {ownerKey token : String} (consistent : history.state.Consistent) :
    (perform token (.readBinding ownerKey)).Ensures history.state
      (Returned careful history (.readBinding ownerKey)) (Raised careful history (.readBinding ownerKey)) := by
  rw [perform, ensures_bind, readBinding, ensures_bind]
  refine ensures_record ?_ ?_ fun _ => raised_unchanged consistent
  · intro digest record _
    dsimp only
    rw [ensures_ite]
    exact ⟨fun _ => returned_of_sameRecords consistent .refl rfl rfl,
      fun _ => returned_of_sameRecords consistent .refl rfl rfl⟩
  · intro digest absent
    exact returned_of_steps (consistent_withRecord consistent) (steps_made absent) rfl rfl

theorem custody_of_forms {claim issued : StateClaim} (form : claim ∈ issued.forms) :
    claim.custody.record = issued.custody.record ∧ claim.custody.token = issued.custody.token ∧
      claim.custody.generation = issued.custody.generation := by
  cases issued with
  | ready =>
    simp only [StateClaim.forms, List.mem_cons, List.not_mem_nil, or_false] at form
    obtain rfl | rfl := form <;> exact ⟨rfl, rfl, rfl⟩
  | owner => obtain rfl := List.mem_singleton.mp form; exact ⟨rfl, rfl, rfl⟩
  | warm => obtain rfl := List.mem_singleton.mp form; exact ⟨rfl, rfl, rfl⟩
  | cleanup => obtain rfl := List.mem_singleton.mp form; exact ⟨rfl, rfl, rfl⟩

/-- A call may put its Sandbox into the record of its claim. -/
theorem Passes.placed {call : StateCall} {claim : StateClaim} {sandboxId : String}
    (passes : history.Passes call) (names : careful → history.Names call.request)
    (passed : call.request.claim? = some claim)
    (placed : call.request.placed? = some sandboxId)
    (held : history.state.fence claim.custody.record =
      some { generation := claim.custody.generation, token := some claim.custody.token }) :
    Custody.Step careful history.custody
      { history.custody.withItem claim.custody.record (some sandboxId) with
        offered := history.offered ++ [sandboxId] } := by
  have issued : ∃ issued ∈ history.passedAs claim,
      careful → sandboxId ∉ history.offered ∨ issued.custody.item = some sandboxId := by
    obtain ⟨some, member⟩ := List.exists_mem_of_ne_nil _ (passes.claim claim passed)
    by_cases cautious : careful
    · obtain fresh | ⟨issued, member, names⟩ := names cautious claim passed sandboxId placed
      · exact ⟨some, member, fun _ => .inl fresh⟩
      · exact ⟨issued, member, fun _ => .inr names⟩
    · exact ⟨some, member, fun holds => absurd holds cautious⟩
  obtain ⟨issued, member, allowed⟩ := issued
  obtain ⟨inHistory, form⟩ := List.mem_filter.mp member
  obtain ⟨record, token, generation⟩ := custody_of_forms (of_decide_eq_true form)
  rw [record, token, generation] at held
  rw [record]
  exact .placed (List.mem_map_of_mem inHistory) held allowed

theorem held_of_record {state : InMemoryOpenSandboxState} {claim : OpenSandboxOwnerClaim}
    {record : MemoryOwnerRecord} (found : state.records.get? claim.ownerDigest = some record)
    (claimed : record.ClaimedBy claim) : state.fence (.owner claim.ownerDigest) =
      some { generation := claim.generation, token := some claim.token } := by
  rw [fence_of_record found, claimed.1, claimed.2]

theorem held_of_slot {state : InMemoryOpenSandboxState} {claim : OpenSandboxWarmClaim}
    {slot : MemoryWarmSlot} (found : state.warmSlots[claim.slot]? = some slot)
    (claimed : slot.ClaimedBy claim) : state.fence (.slot claim.slot) =
      some { generation := claim.generation, token := some claim.token } := by
  rw [fence_of_slot found, claimed.1, claimed.2]

/-- The binding a commit writes, whether or not it was there before. -/
theorem ensures_commitBinding {record : MemoryOwnerRecord} {claim : OpenSandboxOwnerClaim}
    {sandboxId : String} {state : InMemoryOpenSandboxState}
    {returned : OpenSandboxBinding → InMemoryOpenSandboxState → Prop}
    {raised : StateError → InMemoryOpenSandboxState → Prop}
    (found : state.records.get? claim.ownerDigest = some record)
    (committed : ∀ after, after.fence = state.fence →
      after.sandbox = Function.update state.sandbox (.owner claim.ownerDigest) (some sandboxId) →
      after.warmSlots = state.warmSlots → (state.Consistent → after.Consistent) →
      returned { sandboxId, generation := claim.generation } after) :
    (commitBinding record claim sandboxId).Ensures state returned raised := by
  rw [commitBinding, ensures_ite]
  refine ⟨fun ⟨same, _⟩ => committed state rfl ?_ rfl id, fun _ => committed _ ?_ ?_ rfl
    fun consistent => consistent_withRecord consistent⟩
  · have bound := sandbox_of_record found
    rw [same] at bound
    exact (Function.update_eq_self_iff.mpr bound.symm).symm
  · rw [fence_withRecord, ← fence_of_record found, Function.update_eq_self]
  · rw [sandbox_withRecord]
    rfl

theorem ensures_bindOwner {token : String} {claim : OpenSandboxOwnerClaim} {sandboxId : String}
    (consistent : history.state.Consistent)
    (passes : history.Passes ⟨token, .bindOwner claim sandboxId⟩)
    (names : careful → history.Names (.bindOwner claim sandboxId)) :
    (perform token (.bindOwner claim sandboxId)).Ensures history.state
      (Returned careful history (.bindOwner claim sandboxId))
      (Raised careful history (.bindOwner claim sandboxId)) := by
  rw [perform, ensures_bind, bindOwner, ensures_bind]
  refine ensures_claimedRecord (fun record found claimed => ?_)
    (fun _ _ => raised_unchanged consistent) fun _ _ => raised_unchanged consistent
  refine ensures_commitBinding found fun after fence sandbox _ kept => ?_
  refine ⟨?_, kept consistent, fun _ granted => by cases granted⟩
  have step := passes.placed names rfl rfl (held_of_record found claimed)
  rw [Continues, custody_advance rfl fun _ => rfl, seen, fence, sandbox]
  exact .single step

theorem ensures_unbindOwner {token : String} {claim : OpenSandboxOwnerClaim}
    (consistent : history.state.Consistent) :
    (perform token (.unbindOwner claim)).Ensures history.state
      (Returned careful history (.unbindOwner claim)) (Raised careful history (.unbindOwner claim)) := by
  rw [perform, ensures_bind, unbindOwner, ensures_bind]
  refine ensures_claimedRecord (fun record found _ => ?_) (fun _ _ => raised_unchanged consistent)
    fun _ _ => raised_unchanged consistent
  refine returned_of_steps (consistent_withRecord (sameRecords_holders.consistent consistent))
    ?_ rfl rfl
  have fence : ∀ holders, (InMemoryOpenSandboxState.withRecord { history.state with holders }
      claim.ownerDigest { record with binding := none, availability := none }).fence =
        history.state.fence := by
    intro holders
    rw [fence_withRecord, sameRecords_holders.fence, ← fence_of_record found,
      Function.update_eq_self]
  rw [seen, fence, sandbox_withRecord, sameRecords_holders.sandbox]
  exact .single .taken

theorem ensures_releaseOwner {token : String} {claim : OpenSandboxOwnerClaim}
    (consistent : history.state.Consistent) :
    (perform token (.releaseOwner claim)).Ensures history.state
      (Returned careful history (.releaseOwner claim)) (Raised careful history (.releaseOwner claim)) := by
  rw [perform, ensures_bind, releaseOwner, ensures_bind, ensures_get]
  cases found : history.state.records.get? claim.ownerDigest with
  | none => exact returned_of_sameRecords consistent .refl rfl rfl
  | some record =>
    dsimp only
    rw [ensures_ite]
    refine ⟨fun _ => ?_, fun _ => returned_of_sameRecords consistent .refl rfl rfl⟩
    refine returned_of_steps (consistent_withRecord consistent) ?_ rfl rfl
    rw [seen, fence_withRecord, sandbox_withRecord, ← sandbox_of_record found,
      Function.update_eq_self]
    have held := fence_of_record found
    exact .single (.freed held)

/-! ## Warm slots -/

theorem slot_of_find {state : InMemoryOpenSandboxState} {slot : MemoryWarmSlot}
    {free : MemoryWarmSlot → Bool} (consistent : state.Consistent)
    (found : state.warmSlots.find? free = some slot) :
    state.warmSlots[slot.slot]? = some slot ∧ free slot = true :=
  ⟨consistent.slot_found (List.mem_of_find?_eq_some found), List.find?_some found⟩

theorem ensures_claimWarmSlot {token : String} (consistent : history.state.Consistent)
    (fresh : ∀ old ∈ history.issued, old.custody.token ≠ token) :
    (perform token .claimWarmSlot).Ensures history.state (Returned careful history .claimWarmSlot)
      (Raised careful history .claimWarmSlot) := by
  rw [perform, ensures_bind, claimWarmSlot, ensures_bind]
  refine ensures_ensureOpen (fun _ => ?_) fun _ _ => raised_unchanged consistent
  rw [ensures_bind, ensures_get]
  split
  · next slot found =>
      obtain ⟨stored, free⟩ := slot_of_find consistent found
      simp only [Bool.and_eq_true, Option.isNone_iff_eq_none] at free
      refine returned_of_claim (.warm _) (consistent_withSlot consistent) rfl rfl rfl
        (fence_withSlot stored) ?_ ((fence_of_slot stored).trans (by rw [free.2])) rfl ?_ fresh
      · exact sandbox_withSlot_same stored
      · exact ((sandbox_of_slot stored).trans free.1).symm
  · exact returned_of_sameRecords consistent .refl rfl rfl

theorem slot_of_findSome {state : InMemoryOpenSandboxState} {slot : MemoryWarmSlot}
    {sandboxId : String} {skipped : MemoryWarmSlot → Prop} [DecidablePred skipped]
    (consistent : state.Consistent)
    (found : (state.warmSlots.findSome? fun slot =>
      if skipped slot then none else slot.sandboxId.map fun sandboxId => (slot, sandboxId)) =
        some (slot, sandboxId)) :
    state.warmSlots[slot.slot]? = some slot ∧ ¬skipped slot ∧ slot.sandboxId = some sandboxId := by
  obtain ⟨other, member, chosen⟩ := List.exists_of_findSome?_eq_some found
  split at chosen
  · cases chosen
  · next kept =>
      obtain ⟨published, stored, same⟩ := Option.map_eq_some_iff.mp chosen
      obtain ⟨rfl, rfl⟩ := Prod.mk.inj same
      exact ⟨consistent.slot_found member, kept, stored⟩

theorem ensures_claimReadyWarmSlot {token : String} {excludeSlots : List Nat}
    (consistent : history.state.Consistent)
    (fresh : ∀ old ∈ history.issued, old.custody.token ≠ token) :
    (perform token (.claimReadyWarmSlot excludeSlots)).Ensures history.state
      (Returned careful history (.claimReadyWarmSlot excludeSlots))
      (Raised careful history (.claimReadyWarmSlot excludeSlots)) := by
  rw [perform, ensures_bind, claimReadyWarmSlot, ensures_bind]
  refine ensures_ensureOpen (fun _ => ?_) fun _ _ => raised_unchanged consistent
  rw [ensures_bind, ensures_get]
  dsimp only
  split
  · next slot sandboxId found =>
      obtain ⟨stored, kept, published⟩ := slot_of_findSome consistent found
      obtain ⟨-, free⟩ := not_or.mp kept
      simp only [Option.not_isSome_iff_eq_none] at free
      refine returned_of_claim (.ready _) (consistent_withSlot consistent) rfl rfl rfl
        (fence_withSlot stored) ?_ ((fence_of_slot stored).trans (by rw [free])) rfl ?_ fresh
      · exact sandbox_withSlot_same stored
      · exact ((sandbox_of_slot stored).trans published).symm
  · exact returned_of_sameRecords consistent .refl rfl rfl

theorem ensures_publishWarm {token : String} {claim : OpenSandboxWarmClaim} {sandboxId : String}
    (consistent : history.state.Consistent)
    (passes : history.Passes ⟨token, .publishWarm claim sandboxId⟩)
    (names : careful → history.Names (.publishWarm claim sandboxId)) :
    (perform token (.publishWarm claim sandboxId)).Ensures history.state
      (Returned careful history (.publishWarm claim sandboxId))
      (Raised careful history (.publishWarm claim sandboxId)) := by
  rw [perform, ensures_bind, publishWarm, ensures_bind]
  refine ensures_claimedWarmSlot (fun slot found claimed => ?_)
    (fun _ _ => raised_unchanged consistent) fun _ _ => raised_unchanged consistent
  rw [ensures_setSlot, ensures_pure]
  refine ⟨?_, consistent_withSlot consistent, fun _ granted => by cases granted⟩
  have placed := passes.placed names rfl rfl (held_of_slot found claimed)
  have same : slot.slot = claim.slot := consistent.numbered _ _ found
  have stored : history.state.warmSlots[slot.slot]? = some slot := by rw [same, found]
  have freed : Custody.Step careful
      { history.custody.withItem (.slot claim.slot) (some sandboxId) with
        offered := history.offered ++ [sandboxId] }
      ({ history.custody.withItem (.slot claim.slot) (some sandboxId) with
        offered := history.offered ++ [sandboxId] }.withFence (.slot claim.slot)
          (some ⟨slot.generation, none⟩)) :=
    .freed (fence_of_slot found)
  rw [Continues, custody_advance rfl fun _ => rfl, seen, fence_withSlot stored,
    sandbox_withSlot stored, same]
  exact (ReflTransGen.single placed).tail freed

theorem ensures_releaseWarm {token : String} {claim : OpenSandboxWarmClaim}
    (consistent : history.state.Consistent) :
    (perform token (.releaseWarm claim)).Ensures history.state
      (Returned careful history (.releaseWarm claim)) (Raised careful history (.releaseWarm claim)) := by
  rw [perform, ensures_bind, releaseWarm, ensures_bind, ensures_get]
  cases found : history.state.warmSlots[claim.slot]? with
  | none => exact returned_of_sameRecords consistent .refl rfl rfl
  | some slot =>
    dsimp only
    rw [ensures_ite]
    refine ⟨fun _ => ?_, fun _ => returned_of_sameRecords consistent .refl rfl rfl⟩
    rw [ensures_setSlot, ensures_pure]
    have same : slot.slot = claim.slot := consistent.numbered _ _ found
    have stored : history.state.warmSlots[slot.slot]? = some slot := by rw [same, found]
    refine returned_of_steps (consistent_withSlot consistent) ?_ rfl rfl
    rw [seen, fence_withSlot stored, sandbox_withSlot_same stored]
    exact .single (.freed (fence_of_slot stored))

/-! ## Cleanup targets -/

theorem ensures_addCleanup {sandboxId : String} {state : InMemoryOpenSandboxState}
    {returned : Unit → InMemoryOpenSandboxState → Prop}
    {raised : StateError → InMemoryOpenSandboxState → Prop}
    (kept : returned ⟨⟩ state)
    (added : state.fence (.cleanup sandboxId) = none →
      returned ⟨⟩ (state.withCleanup sandboxId {})) :
    (addCleanup sandboxId).Ensures state returned raised := by
  rw [addCleanup, ensures_bind, ensures_get]
  cases found : state.cleanup.get? sandboxId with
  | none => exact added (by simp [fence, found])
  | some record => exact kept

theorem steps_addCleanup {sandboxId : String} {middle : InMemoryOpenSandboxState}
    (absent : middle.fence (.cleanup sandboxId) = none)
    (steps : ReflTransGen (Custody.Step careful) history.custody (history.seen middle)) :
    ReflTransGen (Custody.Step careful) history.custody
      (history.seen (middle.withCleanup sandboxId {})) := by
  rw [seen, fence_withCleanup, sandbox_withCleanup]
  exact steps.tail (.opened absent)

theorem ensures_enqueueCleanup {token sandboxId : String} (consistent : history.state.Consistent) :
    (perform token (.enqueueCleanup sandboxId)).Ensures history.state
      (Returned careful history (.enqueueCleanup sandboxId))
      (Raised careful history (.enqueueCleanup sandboxId)) := by
  rw [perform, ensures_bind, enqueueCleanup, ensures_bind]
  refine ensures_ensureOpen (fun _ => ?_) fun _ _ => raised_unchanged consistent
  refine ensures_addCleanup (returned_of_sameRecords consistent .refl rfl rfl) fun absent => ?_
  exact returned_of_steps (consistent_withCleanup consistent)
    (steps_addCleanup absent (by rw [seen_of_sameRecords .refl])) rfl rfl

theorem ensures_discardReadyWarmSlot {token : String} {claim : OpenSandboxReadyWarmClaim}
    (consistent : history.state.Consistent) :
    (perform token (.discardReadyWarmSlot claim)).Ensures history.state
      (Returned careful history (.discardReadyWarmSlot claim))
      (Raised careful history (.discardReadyWarmSlot claim)) := by
  rw [perform, ensures_bind, discardReadyWarmSlot, ensures_bind]
  refine ensures_claimedWarmSlot (fun slot found _ => ?_)
    (fun _ _ => raised_unchanged consistent) fun _ _ => raised_unchanged consistent
  rw [ensures_ite, ensures_throw]
  refine ⟨fun _ => ?_, fun _ => raised_unchanged consistent⟩
  have same : slot.slot = claim.slot := consistent.numbered _ _ found
  have stored : history.state.warmSlots[slot.slot]? = some slot := by rw [same, found]
  rw [ensures_bind, ensures_setSlot]
  have emptied : ReflTransGen (Custody.Step careful) history.custody (history.seen
      (history.state.withSlot { slot with sandboxId := none, activeToken := none })) := by
    rw [seen, fence_withSlot stored, sandbox_withSlot stored]
    have freed : Custody.Step careful (history.custody.withItem (.slot slot.slot) none)
        ((history.custody.withItem (.slot slot.slot) none).withFence (.slot slot.slot)
          (some ⟨slot.generation, none⟩)) :=
      .freed (fence_of_slot stored)
    exact (ReflTransGen.single .taken).tail freed
  refine ensures_addCleanup
    (returned_of_steps (consistent_withSlot consistent) emptied rfl rfl) fun absent => ?_
  exact returned_of_steps (consistent_withCleanup (consistent_withSlot consistent))
    (steps_addCleanup absent emptied) rfl rfl

theorem ensures_consumeWarm {token : String} {claim : OpenSandboxOwnerClaim}
    (consistent : history.state.Consistent) :
    (perform token (.consumeWarm claim)).Ensures history.state
      (Returned careful history (.consumeWarm claim)) (Raised careful history (.consumeWarm claim)) := by
  rw [perform, ensures_bind, consumeWarm, ensures_bind]
  refine ensures_claimedRecord (fun record found claimed => ?_)
    (fun _ _ => raised_unchanged consistent) fun _ _ => raised_unchanged consistent
  rw [ensures_bind, ensures_get]
  dsimp only
  split
  · next slot sandboxId ready =>
      obtain ⟨stored, free, published⟩ := slot_of_findSome consistent ready
      simp only [Option.not_isSome_iff_eq_none] at free
      rw [ensures_bind]
      refine ensures_commitBinding found fun after fence sandbox slots kept => ?_
      have storedAfter : after.warmSlots[slot.slot]? = some slot := slots ▸ stored
      rw [ensures_bind, ensures_setSlot, ensures_pure]
      refine returned_of_steps (consistent_withSlot (kept consistent)) ?_ rfl rfl
      have moved : Custody.Step careful history.custody
          ((history.custody.withItem (.owner claim.ownerDigest) (some sandboxId)).withItem
            (.slot slot.slot) none) :=
        .moved ((sandbox_of_slot stored).trans published)
          ((fence_of_slot stored).trans (by rw [free])) (held_of_record found claimed) (by simp)
      rw [seen, fence_withSlot storedAfter, sandbox_withSlot storedAfter, sandbox,
        ← fence_of_slot storedAfter, Function.update_eq_self, fence]
      exact .single moved
  · exact returned_of_sameRecords consistent .refl rfl rfl

theorem ensures_claimCleanup {token : String} (consistent : history.state.Consistent)
    (fresh : ∀ old ∈ history.issued, old.custody.token ≠ token) :
    (perform token .claimCleanup).Ensures history.state (Returned careful history .claimCleanup)
      (Raised careful history .claimCleanup) := by
  rw [perform, ensures_bind, claimCleanup, ensures_bind]
  refine ensures_ensureOpen (fun _ => ?_) fun _ _ => raised_unchanged consistent
  rw [ensures_bind, ensures_get]
  split
  · next sandboxId record found =>
      have stored := Dict.get?_eq_some_iff.mpr (List.mem_of_find?_eq_some found)
      have free := List.find?_some found
      simp only [Option.isNone_iff_eq_none] at free
      exact returned_of_claim (.cleanup _) (consistent_withCleanup consistent) rfl rfl rfl
        fence_withCleanup sandbox_withCleanup ((fence_of_cleanup stored).trans (by rw [free])) rfl
        rfl fresh
  · exact returned_of_sameRecords consistent .refl rfl rfl

theorem ensures_completeCleanup {token : String} {claim : OpenSandboxCleanupClaim}
    (consistent : history.state.Consistent) :
    (perform token (.completeCleanup claim)).Ensures history.state
      (Returned careful history (.completeCleanup claim)) (Raised careful history (.completeCleanup claim)) := by
  rw [perform, ensures_bind, completeCleanup, ensures_bind, ensures_discard]
  refine ensures_claimedCleanup (fun _ _ _ => ?_) (fun _ _ => raised_unchanged consistent)
    fun _ _ => raised_unchanged consistent
  rw [ensures_modify, ensures_pure]
  refine ⟨?_, ⟨consistent.numbered, consistent.unstarted⟩, fun _ granted => by cases granted⟩
  have removed : Custody.Step careful history.custody
      (history.custody.without (.cleanup claim.sandboxId)) := .removed rfl
  have same : (history.advance (.completeCleanup claim) (some .done)
      { history.state with cleanup := history.state.cleanup.erase claim.sandboxId }).custody =
        history.custody.without (.cleanup claim.sandboxId) := by
    simp only [custody, advance, fence_eraseCleanup, sandbox_eraseCleanup, Custody.History.without,
      Custody.History.withFence, List.filter_map]
    simp [StateResponse.claim?, StateRequest.removed?, StateRequest.placed?, eq_comm,
      Function.comp_def]
  rw [Continues, same]
  exact .single removed

theorem ensures_releaseCleanup {token : String} {claim : OpenSandboxCleanupClaim}
    (consistent : history.state.Consistent) :
    (perform token (.releaseCleanup claim)).Ensures history.state
      (Returned careful history (.releaseCleanup claim)) (Raised careful history (.releaseCleanup claim)) := by
  rw [perform, ensures_bind, releaseCleanup, ensures_bind, ensures_get]
  cases found : history.state.cleanup.get? claim.sandboxId with
  | none => exact returned_of_sameRecords consistent .refl rfl rfl
  | some record =>
    dsimp only
    rw [ensures_ite]
    refine ⟨fun _ => ?_, fun _ => returned_of_sameRecords consistent .refl rfl rfl⟩
    rw [ensures_setCleanup, ensures_pure]
    refine returned_of_steps (consistent_withCleanup consistent) ?_ rfl rfl
    rw [seen, fence_withCleanup, sandbox_withCleanup]
    have held := fence_of_cleanup found
    exact .single (.freed held)

/-! ## Opening -/

/-- A State with new slots. -/
def withSlots (state : InMemoryOpenSandboxState) (size : Nat) : InMemoryOpenSandboxState :=
  { state with warmSlots := (List.range size).map fun index => { slot := index } }

theorem fence_withSlots_succ {state : InMemoryOpenSandboxState} {size : Nat} :
    (withSlots state (size + 1)).fence =
      Function.update (withSlots state size).fence (.slot size) (some ⟨0, none⟩) := by
  funext target
  cases target with
  | slot index =>
    simp only [fence, withSlots, List.getElem?_map, Function.update_apply,
      StateRecord.slot.injEq]
    grind
  | owner digest => rfl
  | cleanup sandboxId => rfl

theorem sandbox_withSlots {state : InMemoryOpenSandboxState} (empty : state.warmSlots = [])
    {size : Nat} : (withSlots state size).sandbox = state.sandbox := by
  funext target
  cases target with
  | slot index =>
    simp only [sandbox, withSlots, empty, List.getElem?_map, List.getElem?_nil, Option.bind_none]
    cases (List.range size)[index]? <;> rfl
  | owner digest => rfl
  | cleanup sandboxId => rfl

theorem steps_withSlots (empty : history.state.warmSlots = []) (size : Nat) :
    ReflTransGen (Custody.Step careful) history.custody (history.seen (withSlots history.state size)) := by
  induction size with
  | zero =>
    have same : withSlots history.state 0 = history.state := by
      rw [withSlots, List.range_zero, List.map_nil, ← empty]
    rw [same, seen_of_sameRecords .refl]
  | succ size ih =>
    rw [seen, fence_withSlots_succ, sandbox_withSlots empty, ← sandbox_withSlots empty]
    have absent : (withSlots history.state size).fence (.slot size) = none := by
      simp [fence, withSlots]
    exact ih.tail (.opened absent)

theorem ensures_start {token : String} {warmPoolSize : Int}
    (consistent : history.state.Consistent) :
    (perform token (.start warmPoolSize)).Ensures history.state
      (Returned careful history (.start warmPoolSize)) (Raised careful history (.start warmPoolSize)) := by
  rw [perform, ensures_bind, start, ensures_bind, ensures_get]
  simp only [ensures_ite, ensures_throw, ensures_pure, ensures_set]
  refine ⟨fun _ => raised_unchanged consistent, fun _ =>
    ⟨fun _ => raised_unchanged consistent, fun _ =>
      ⟨fun _ => ⟨fun _ => returned_of_sameRecords consistent .refl rfl rfl,
        fun _ => raised_unchanged consistent⟩, fun fresh => ?_⟩⟩⟩
  simp only [Bool.not_eq_true] at fresh
  refine returned_of_steps ?_ ?_ rfl rfl
  · refine ⟨fun index slot found => ?_, fun unstarted => absurd unstarted (by simp)⟩
    simp only [List.getElem?_map, Option.map_eq_some_iff] at found
    obtain ⟨other, stored, rfl⟩ := found
    obtain ⟨_, same⟩ := List.getElem?_eq_some_iff.mp stored
    simpa using same.symm
  · exact steps_withSlots (consistent.unstarted fresh) _

/-- A call continues the history. -/
theorem ensures_perform {call : StateCall} (passes : history.Passes call)
    (names : careful → history.Names call.request) (consistent : history.state.Consistent) :
    (perform call.token call.request).Ensures history.state (Returned careful history call.request)
      (Raised careful history call.request) := by
  obtain ⟨token, request⟩ := call
  have fresh := passes.token
  cases request with
  | start => exact ensures_start consistent
  | acquireOwner => exact ensures_acquireOwner consistent fresh
  | bindOwner => exact ensures_bindOwner consistent passes names
  | renewOwner =>
    exact ensures_keeps (keeps_confirmed checks_claimedRecord) consistent (fun _ => rfl) rfl
  | unbindOwner => exact ensures_unbindOwner consistent
  | readBinding => exact ensures_readBinding consistent
  | releaseOwner => exact ensures_releaseOwner consistent
  | registerHolder => exact ensures_keeps keeps_registerHolder consistent (fun _ => rfl) rfl
  | readAvailability => exact ensures_keeps keeps_reading consistent (fun _ => rfl) rfl
  | getHolderUpdates => exact ensures_keeps keeps_reading consistent (fun _ => rfl) rfl
  | changeAvailability =>
    exact ensures_keeps keeps_changeAvailability consistent (fun _ => rfl) rfl
  | acknowledgeIdle => exact ensures_keeps keeps_acknowledgeIdle consistent (fun _ => rfl) rfl
  | holdersAreIdle => exact ensures_keeps keeps_holdersAreIdle consistent (fun _ => rfl) rfl
  | unregisterHolder => exact ensures_keeps keeps_unregisterHolder consistent (fun _ => rfl) rfl
  | claimWarmSlot => exact ensures_claimWarmSlot consistent fresh
  | claimReadyWarmSlot => exact ensures_claimReadyWarmSlot consistent fresh
  | discardReadyWarmSlot => exact ensures_discardReadyWarmSlot consistent
  | warmPoolReady => exact ensures_keeps keeps_reading consistent (fun _ => rfl) rfl
  | publishWarm => exact ensures_publishWarm consistent passes names
  | renewWarm =>
    exact ensures_keeps (keeps_confirmed checks_claimedWarmSlot) consistent (fun _ => rfl) rfl
  | releaseWarm => exact ensures_releaseWarm consistent
  | consumeWarm => exact ensures_consumeWarm consistent
  | enqueueCleanup => exact ensures_enqueueCleanup consistent
  | claimCleanup => exact ensures_claimCleanup consistent fresh
  | renewCleanup =>
    exact ensures_keeps (keeps_confirmed checks_claimedCleanup) consistent (fun _ => rfl) rfl
  | completeCleanup => exact ensures_completeCleanup consistent
  | releaseCleanup => exact ensures_releaseCleanup consistent
  | shutdownSandboxIds => exact ensures_keeps keeps_reading consistent (fun _ => rfl) rfl
  | aclose => exact ensures_keeps keeps_aclose consistent (fun _ => rfl) rfl

end StateHistory

end Tinkerfin.Sandbox
