import Tinkerfin.Sandbox.MemorySteps

/-!
# Exclusive ownership

Along every run of legal calls a Sandbox is in one place at most, a record accepts one claim at most,
and a claim that was released or superseded is refused.
-/

namespace Tinkerfin.Sandbox

open EStateM Relation InMemoryOpenSandboxState

/-! ## Refused claims -/

/-- The errors of a call whose claim is refused. -/
def StateError.RefusesClaim (error : StateError) (state : InMemoryOpenSandboxState)
    (request : StateRequest) : Prop :=
  match error with
  | .ownership _ => state.Open
  | .state _ => ¬state.Open
  | .invalidValue _ => ∃ claim holderId, request = .registerHolder claim holderId ∧
      validateHolderId holderId = .error error
  | .configuration _ => False

/-- A refused release returns, and a refused renewal answers that the claim is lost. -/
def StateRequest.RefusalReturns (request : StateRequest) (state : InMemoryOpenSandboxState)
    (response : StateResponse) (after : InMemoryOpenSandboxState) : Prop :=
  after = state ∧
    (request.isRelease = true ∧ response = .done ∨
      request.isRenewal = true ∧ response = .flag false)

/-- Every other refused call raises. -/
def StateRequest.RefusalRaises (request : StateRequest) (state : InMemoryOpenSandboxState)
    (error : StateError) (after : InMemoryOpenSandboxState) : Prop :=
  after = state ∧ request.isRelease = false ∧ error.RefusesClaim state request

/-- The State refuses the request and changes nothing. -/
def StateRequest.RefusedBy (request : StateRequest) (state : InMemoryOpenSandboxState) : Prop :=
  ∀ token, (perform token request).Ensures state (request.RefusalReturns state)
    (request.RefusalRaises state)

theorem validateHolderId_error {holderId : String} {error : StateError}
    (invalid : validateHolderId holderId = .error error) :
    ∃ message, error = .invalidValue message := by
  rw [validateHolderId] at invalid
  split at invalid
  · obtain rfl := Except.error.inj invalid
    exact ⟨_, rfl⟩
  · cases invalid

variable {state : InMemoryOpenSandboxState} {request : StateRequest}

/-- A check that only raises, and changes nothing. -/
def Refuses {α : Type} (check : StateOperation α) (state : InMemoryOpenSandboxState)
    (request : StateRequest) : Prop :=
  check.Ensures state (fun _ _ => False) fun error after =>
    after = state ∧ error.RefusesClaim state request

theorem Refuses.bind {α β : Type} {check : StateOperation α} {rest : α → StateOperation β}
    (refuses : Refuses check state request) : Refuses (check >>= rest) state request :=
  ensures_bind.mpr (refuses.mono (fun _ _ => False.elim) fun _ _ => id)

theorem Refuses.refusedBy {perform : StateOperation StateResponse}
    (refuses : Refuses perform state request) (other : request.isRelease = false) :
    perform.Ensures state (request.RefusalReturns state) (request.RefusalRaises state) :=
  refuses.mono (fun _ _ => False.elim) fun _ _ ⟨same, error⟩ => ⟨same, other, error⟩

theorem refuses_claimedRecord {claim : OpenSandboxOwnerClaim}
    (refused : state.fence (.owner claim.ownerDigest) ≠
      some { generation := claim.generation, token := some claim.token }) :
    Refuses (claimedRecord claim) state request :=
  ensures_claimedRecord (fun _ found claimed => refused (StateHistory.held_of_record found claimed))
    (fun closed _ => ⟨rfl, closed⟩) fun opened _ => ⟨rfl, opened⟩

theorem refuses_claimedWarmSlot {claim : OpenSandboxWarmClaim}
    (refused : state.fence (.slot claim.slot) ≠
      some { generation := claim.generation, token := some claim.token }) :
    Refuses (claimedWarmSlot claim) state request :=
  ensures_claimedWarmSlot (fun _ found claimed => refused (StateHistory.held_of_slot found claimed))
    (fun closed _ => ⟨rfl, closed⟩) fun opened _ => ⟨rfl, opened⟩

theorem refuses_claimedCleanup {claim : OpenSandboxCleanupClaim}
    (refused : state.fence (.cleanup claim.sandboxId) ≠
      some { generation := claim.generation, token := some claim.token }) :
    Refuses (claimedCleanup claim) state request :=
  ensures_claimedCleanup
    (fun _ found claimed => refused ((fence_of_cleanup found).trans (by rw [claimed.1, claimed.2])))
    (fun closed _ => ⟨rfl, closed⟩) fun opened _ => ⟨rfl, opened⟩

theorem Refuses.discard {α : Type} {check : StateOperation α}
    (refuses : Refuses check state request) : Refuses (Functor.discard check) state request :=
  ensures_discard.mpr (refuses.mono (fun _ _ => False.elim) fun _ _ => id)

theorem ensures_lost {α : Type} {check : StateOperation α} (refuses : Refuses check state request)
    (renewal : request.isRenewal = true) (other : request.isRelease = false) :
    (do let held ← confirmed check; return StateResponse.flag held).Ensures state
      (request.RefusalReturns state) (request.RefusalRaises state) := by
  rw [ensures_bind]
  refine ensures_confirmed (refuses.mono (fun _ _ => False.elim) ?_)
  rintro error after ⟨same, refusal⟩
  cases error with
  | ownership => exact ⟨same, .inr ⟨renewal, rfl⟩⟩
  | state => exact ⟨same, other, refusal⟩
  | configuration => exact ⟨same, other, refusal⟩
  | invalidValue => exact ⟨same, other, refusal⟩

/-- Releases look at the token alone: a claim is refused when its record has another one. -/
def Stale (state : InMemoryOpenSandboxState) (claim : StateClaim) : Prop :=
  ∀ generation, state.fence claim.custody.record ≠
    some { generation, token := some claim.custody.token }

/-- A call with a stale claim is refused. -/
theorem refusedBy_of_stale {claim : StateClaim} (passed : request.claim? = some claim)
    (stale : Stale state claim) : request.RefusedBy state := by
  intro token
  have refused := stale claim.custody.generation
  cases request with
  | bindOwner =>
    obtain rfl := Option.some.inj passed
    exact (refuses_claimedRecord refused).bind.bind.refusedBy rfl
  | renewOwner =>
    obtain rfl := Option.some.inj passed
    refine ensures_lost (refuses_claimedRecord refused) ?_ ?_ <;> rfl
  | unbindOwner =>
    obtain rfl := Option.some.inj passed
    exact (refuses_claimedRecord refused).bind.bind.refusedBy rfl
  | releaseOwner claim =>
    obtain rfl := Option.some.inj passed
    rw [perform, ensures_bind, releaseOwner, ensures_bind, ensures_get]
    cases found : state.records.get? claim.ownerDigest with
    | none => exact ⟨rfl, .inl ⟨rfl, rfl⟩⟩
    | some record =>
      dsimp only
      rw [ensures_ite]
      refine ⟨fun held => ?_, fun _ => ⟨rfl, .inl ⟨rfl, rfl⟩⟩⟩
      exact absurd ((fence_of_record found).trans (by rw [held]; rfl)) (stale record.generation)
  | registerHolder claim holderId =>
    obtain rfl := Option.some.inj passed
    rw [perform, ensures_bind, registerHolder, ensures_bind, ensures_ofExcept]
    refine ⟨fun _ _ => ?_, fun error invalid => ⟨rfl, rfl, ?_⟩⟩
    · exact ensures_bind.mp ((refuses_claimedRecord refused).bind.bind.refusedBy rfl)
    · obtain ⟨message, rfl⟩ := validateHolderId_error invalid
      exact ⟨claim, holderId, rfl, invalid⟩
  | changeAvailability =>
    obtain rfl := Option.some.inj passed
    exact (refuses_claimedRecord refused).bind.bind.bind.refusedBy rfl
  | holdersAreIdle =>
    obtain rfl := Option.some.inj passed
    exact (refuses_claimedRecord refused).bind.discard.bind.bind.refusedBy rfl
  | discardReadyWarmSlot =>
    obtain rfl := Option.some.inj passed
    exact (refuses_claimedWarmSlot refused).bind.bind.refusedBy rfl
  | publishWarm =>
    obtain rfl := Option.some.inj passed
    exact (refuses_claimedWarmSlot refused).bind.bind.refusedBy rfl
  | renewWarm =>
    obtain rfl := Option.some.inj passed
    refine ensures_lost (refuses_claimedWarmSlot refused) ?_ ?_ <;> rfl
  | releaseWarm claim =>
    obtain rfl := Option.some.inj passed
    rw [perform, ensures_bind, releaseWarm, ensures_bind, ensures_get]
    cases found : state.warmSlots[claim.slot]? with
    | none => exact ⟨rfl, .inl ⟨rfl, rfl⟩⟩
    | some slot =>
      dsimp only
      rw [ensures_ite]
      refine ⟨fun held => ?_, fun _ => ⟨rfl, .inl ⟨rfl, rfl⟩⟩⟩
      exact absurd ((fence_of_slot found).trans (by rw [held]; rfl)) (stale slot.generation)
  | consumeWarm =>
    obtain rfl := Option.some.inj passed
    exact (refuses_claimedRecord refused).bind.bind.refusedBy rfl
  | renewCleanup =>
    obtain rfl := Option.some.inj passed
    refine ensures_lost (refuses_claimedCleanup refused) ?_ ?_ <;> rfl
  | completeCleanup =>
    obtain rfl := Option.some.inj passed
    exact (refuses_claimedCleanup refused).discard.bind.bind.refusedBy rfl
  | releaseCleanup claim =>
    obtain rfl := Option.some.inj passed
    rw [perform, ensures_bind, releaseCleanup, ensures_bind, ensures_get]
    cases found : state.cleanup.get? claim.sandboxId with
    | none => exact ⟨rfl, .inl ⟨rfl, rfl⟩⟩
    | some record =>
      dsimp only
      rw [ensures_ite]
      refine ⟨fun held => ?_, fun _ => ⟨rfl, .inl ⟨rfl, rfl⟩⟩⟩
      exact absurd ((fence_of_cleanup found).trans (by rw [held]; rfl)) (stale record.generation)
  | start | acquireOwner | readBinding | readAvailability | getHolderUpdates | acknowledgeIdle
  | unregisterHolder | claimWarmSlot | claimReadyWarmSlot | warmPoolReady | enqueueCleanup
  | claimCleanup | shutdownSandboxIds | aclose => cases passed

namespace StateHistory

variable {history : StateHistory} {call : StateCall}

/-! ## Calls that end a claim -/

/-- The claim does not hold its record. -/
def Ended (claim : StateClaim) (state : InMemoryOpenSandboxState) : Prop :=
  state.fence claim.custody.record ≠
    some { generation := claim.custody.generation, token := some claim.custody.token }

theorem ended_of_free {claim : StateClaim}
    (free : ∃ generation, state.fence claim.custody.record = some { generation, token := none }) :
    Ended claim state := by
  obtain ⟨generation, free⟩ := free
  rw [Ended, free]
  simp

theorem ended_of_other {claim : StateClaim} {generation : Nat} {token : Option String}
    (held : state.fence claim.custody.record = some { generation, token })
    (other : token ≠ some claim.custody.token) : Ended claim state := by
  rw [Ended, held]
  simpa using fun _ => other

theorem ended_of_absent {claim : StateClaim} (absent : state.fence claim.custody.record = none) :
    Ended claim state := by
  rw [Ended, absent]
  simp

theorem ended_withSlot {claim : StateClaim} {slot : MemoryWarmSlot} {index : Nat}
    {sandboxId : Option String} (consistent : state.Consistent)
    (found : state.warmSlots[index]? = some slot) (record : claim.custody.record = .slot index) :
    Ended claim (state.withSlot { slot with sandboxId, activeToken := none }) := by
  obtain rfl := consistent.numbered index slot found
  refine ended_of_free ⟨slot.generation, ?_⟩
  rw [record, fence_withSlot found, Function.update_self]

/-- After a call that ends its claim has returned, the claim does not hold its record. -/
theorem ensures_ended {token : String} {claim : StateClaim} (consistent : state.Consistent)
    (passed : request.claim? = some claim) (ends : request.endsClaim = true) :
    (perform token request).Ensures state (fun _ => Ended claim) fun _ _ => True := by
  cases request with
  | releaseOwner claim =>
    obtain rfl := Option.some.inj passed
    rw [perform, ensures_bind, releaseOwner, ensures_bind, ensures_get]
    cases found : state.records.get? claim.ownerDigest with
    | none => exact ended_of_absent (Option.map_eq_none_iff.mpr found)
    | some record =>
      dsimp only
      rw [ensures_ite]
      refine ⟨fun _ => ended_of_free ⟨record.generation, ?_⟩, fun other => ended_of_other (fence_of_record found) other⟩
      exact (congrFun fence_withRecord _).trans (Function.update_self ..)
  | releaseWarm claim =>
    obtain rfl := Option.some.inj passed
    rw [perform, ensures_bind, releaseWarm, ensures_bind, ensures_get]
    cases found : state.warmSlots[claim.slot]? with
    | none => exact ended_of_absent (Option.map_eq_none_iff.mpr found)
    | some slot =>
      dsimp only
      rw [ensures_ite]
      exact ⟨fun _ => ended_withSlot consistent found rfl,
        fun other => ended_of_other (fence_of_slot found) other⟩
  | releaseCleanup claim =>
    obtain rfl := Option.some.inj passed
    rw [perform, ensures_bind, releaseCleanup, ensures_bind, ensures_get]
    cases found : state.cleanup.get? claim.sandboxId with
    | none => exact ended_of_absent (Option.map_eq_none_iff.mpr found)
    | some record =>
      dsimp only
      rw [ensures_ite]
      refine ⟨fun _ => ended_of_free ⟨record.generation, ?_⟩,
        fun other => ended_of_other (fence_of_cleanup found) other⟩
      exact (congrFun fence_withCleanup _).trans (Function.update_self ..)
  | discardReadyWarmSlot claim =>
    obtain rfl := Option.some.inj passed
    rw [perform, ensures_bind, discardReadyWarmSlot, ensures_bind]
    refine ensures_claimedWarmSlot (fun slot found _ => ?_) (fun _ _ => trivial)
      fun _ _ => trivial
    rw [ensures_ite, ensures_bind, ensures_setSlot]
    refine ⟨fun _ => ?_, fun _ => trivial⟩
    have emptied : Ended (.ready claim)
        (state.withSlot { slot with sandboxId := none, activeToken := none }) :=
      ended_withSlot consistent found rfl
    refine ensures_addCleanup emptied fun _ => ?_
    rw [ensures_pure, Ended, fence_withCleanup, Function.update_of_ne]
    · exact emptied
    · intro same
      cases same
  | publishWarm claim =>
    obtain rfl := Option.some.inj passed
    rw [perform, ensures_bind, publishWarm, ensures_bind]
    exact ensures_claimedWarmSlot (fun slot found _ => ended_withSlot consistent found rfl)
      (fun _ _ => trivial) fun _ _ => trivial
  | completeCleanup claim =>
    obtain rfl := Option.some.inj passed
    rw [perform, ensures_bind, completeCleanup, ensures_bind, ensures_discard]
    refine ensures_claimedCleanup (fun _ _ _ => ended_of_absent ?_) (fun _ _ => trivial)
      fun _ _ => trivial
    exact (congrFun fence_eraseCleanup _).trans (Function.update_self ..)
  | start | acquireOwner | bindOwner | renewOwner | unbindOwner | readBinding | registerHolder
  | readAvailability | getHolderUpdates | changeAvailability | acknowledgeIdle | holdersAreIdle
  | unregisterHolder | claimWarmSlot | claimReadyWarmSlot | warmPoolReady | renewWarm | consumeWarm
  | enqueueCleanup | claimCleanup | renewCleanup | shutdownSandboxIds | aclose => cases ends

/-! ## Runs -/

/-- The history of a new State. -/
def initial («namespace» : String) : StateHistory := { state := { «namespace» } }

/-- What every call keeps. -/
structure Fenced (history : StateHistory) : Prop where
  custody : Custody.Fenced history.custody
  consistent : history.state.Consistent
  ended : ∀ claim ∈ history.ended, claim ∈ history.issued ∧ ¬history.Accepts claim

theorem custody_initial {«namespace» : String} :
    (initial «namespace»).custody = Custody.History.empty := by
  simp only [custody, initial, List.map_nil]
  rw [Custody.History.empty]
  congr 1 <;> funext record <;> cases record <;> rfl

theorem fenced_initial {«namespace» : String} : (initial «namespace»).Fenced where
  custody := custody_initial ▸ Custody.sound_empty.toFenced
  consistent := ⟨fun index slot found => by simp [initial] at found, fun _ => rfl⟩
  ended claim member := by cases member

theorem next_continues {careful : Prop} (passes : history.Passes call)
    (names : careful → history.Names call.request) (consistent : history.state.Consistent) :
    Continues careful history (history.next call) ∧ (history.next call).state.Consistent := by
  obtain ⟨response, value, returned⟩ | ⟨value, error, raised⟩ :=
    (ensures_perform passes names consistent).outcome
  · rw [next, value]
    exact ⟨returned.continues, returned.consistent⟩
  · rw [next, value]
    exact raised

/-- The claims that a call ends: its own, and the earlier ones of the record it claims. -/
theorem mem_ended_next {claim : StateClaim} (member : claim ∈ (history.next call).ended) :
    claim ∈ history.ended ∨
      ∃ response, (perform call.token call.request).value? history.state = some response ∧
        claim ∈ history.issued ∧
          ((∃ passed, call.request.claim? = some passed ∧ call.request.endsClaim = true ∧
              passed ∈ claim.forms) ∨
            ∃ granted, response.claim? = some granted ∧
              claim.custody.record = granted.custody.record) := by
  rw [next] at member
  cases value : (perform call.token call.request).value? history.state with
  | none => simpa [advance, value] using member
  | some response =>
    simp only [advance, value, Option.isSome_some, true_and, Option.bind_some,
      List.mem_append, List.mem_flatMap, List.mem_filter, Option.mem_toList, passedAs,
      decide_eq_true_eq] at member
    obtain (before | ⟨passed, ending, issued, form⟩) | ⟨granted, response, issued, same⟩ := member
    · exact .inl before
    · split at ending
      · next ends => exact .inr ⟨response, rfl, issued, .inl ⟨passed, ending, ends, form⟩⟩
      · cases ending
    · exact .inr ⟨_, rfl, issued, .inr ⟨granted, response, same⟩⟩

/-- After a call has granted a claim, no earlier claim of its record is accepted. -/
theorem superseded_not_accepted {claim granted : StateClaim} {response : StateResponse}
    (passes : history.Passes call) (fenced : history.Fenced)
    (value : (perform call.token call.request).value? history.state = some response)
    (grants : response.claim? = some granted) (issued : claim ∈ history.issued)
    (same : claim.custody.record = granted.custody.record) :
    ¬(history.next call).Accepts claim := by
  intro accepted
  have unnamed : False → history.Names call.request := False.elim
  have returned := (ensures_perform passes unnamed fenced.consistent).of_value value
  have held : (history.next call).state.fence claim.custody.record =
      some { generation := claim.custody.generation, token := some claim.custody.token } :=
    accepted
  rw [same] at held
  have equal := held.symm.trans (returned.granted granted grants)
  simp only [Option.some.injEq, Custody.Fence.mk.injEq] at equal
  obtain ⟨continues, -⟩ := next_continues passes unnamed fenced.consistent
  have tokens := (Custody.run_fenced continues fenced.custody).tokens
  have issues : (history.next call).issued = history.issued ++ [granted] := by
    rw [next, value]
    simp [advance, grants]
  simp only [custody, issues, List.map_append, List.map_cons, List.map_nil] at tokens
  have fresh := List.disjoint_of_nodup_append tokens
  exact fresh (List.mem_map_of_mem (List.mem_map_of_mem issued)) (by simp [equal.2])

theorem fenced_next (passes : history.Passes call) (fenced : history.Fenced) :
    (history.next call).Fenced := by
  have unnamed : False → history.Names call.request := False.elim
  obtain ⟨continues, consistent⟩ := next_continues passes unnamed fenced.consistent
  refine ⟨Custody.run_fenced continues fenced.custody, consistent, fun claim member => ?_⟩
  obtain before | ⟨response, value, issued, ending⟩ := mem_ended_next member
  · obtain ⟨issued, refused⟩ := fenced.ended claim before
    exact ⟨List.mem_append_left _ issued,
      Custody.run_refused continues (List.mem_map_of_mem issued) refused⟩
  · refine ⟨List.mem_append_left _ issued, ?_⟩
    obtain ⟨passed, same, ends, form⟩ | ⟨granted, grants, same⟩ := ending
    · have ended := (ensures_ended fenced.consistent same ends).of_value value
      obtain ⟨record, token, generation⟩ := custody_of_forms form
      rw [Ended, record, token, generation] at ended
      exact ended
    · exact superseded_not_accepted passes fenced value grants issued same

/-- What every call that names its Sandbox keeps. -/
structure Sound (history : StateHistory) : Prop extends Fenced history where
  sound : Custody.Sound history.custody

theorem sound_initial {«namespace» : String} : (initial «namespace»).Sound where
  toFenced := fenced_initial
  sound := custody_initial ▸ Custody.sound_empty

theorem sound_next (legal : history.Legal call) (sound : history.Sound) :
    (history.next call).Sound := by
  obtain ⟨continues, -⟩ := next_continues legal.toPasses (fun _ : True => legal.sandbox)
    sound.consistent
  exact ⟨fenced_next legal.toPasses sound.toFenced, Custody.run_sound continues sound.sound⟩

/-! ## Exclusive ownership -/

/-- The ownership of a history is exclusive. -/
structure Exclusive (history : StateHistory) : Prop where
  /-- A Sandbox is in one warm slot or binding at most. -/
  placed : ∀ left right sandboxId, history.state.sandbox left = some sandboxId →
    history.state.sandbox right = some sandboxId → left = right
  /-- Each record accepts one claim at most. -/
  accepted : ∀ left ∈ history.issued, ∀ right ∈ history.issued,
    left.custody.record = right.custody.record → history.Accepts left → history.Accepts right →
      left = right
  /-- The generations of the claims on each record increase. -/
  increasing : history.standing.Pairwise fun old new =>
    old.custody.record = new.custody.record → old.custody.generation < new.custody.generation
  /-- A released or superseded claim is not accepted. -/
  ended : ∀ claim ∈ history.ended, claim ∈ history.issued ∧ ¬history.Accepts claim
  /-- A call with a claim that is not accepted changes nothing. -/
  refused : ∀ claim ∈ history.issued, ¬history.Accepts claim → ∀ request : StateRequest,
    (∃ passed, request.claim? = some passed ∧ passed ∈ claim.forms) →
      request.RefusedBy history.state

theorem stale_of_refused {claim passed : StateClaim} (fenced : history.Fenced)
    (issued : claim ∈ history.issued) (refused : ¬history.Accepts claim)
    (form : passed ∈ claim.forms) : Stale history.state passed := by
  intro generation held
  obtain ⟨record, token, -⟩ := custody_of_forms form
  rw [record, token] at held
  exact refused (fenced.custody.accepts_of_token (List.mem_map_of_mem issued) held).2

theorem Sound.exclusive (sound : history.Sound) : history.Exclusive where
  placed _ _ _ left right := sound.sound.item_unique left right
  accepted left leftIssued right rightIssued same leftAccepted rightAccepted := by
    have equal := sound.custody.accepted_unique (List.mem_map_of_mem leftIssued)
      (List.mem_map_of_mem rightIssued) leftAccepted rightAccepted same
    have tokens := sound.custody.tokens
    simp only [StateHistory.custody, List.map_map] at tokens
    exact List.inj_on_of_nodup_map tokens leftIssued rightIssued
      (congrArg Custody.Claim.token equal)
  increasing := List.pairwise_map.mp sound.custody.increasing
  ended := sound.ended
  refused claim issued refused request := by
    rintro ⟨passed, same, form⟩
    exact refusedBy_of_stale same (stale_of_refused sound.toFenced issued refused form)

/-- In every run of legal calls ownership is exclusive. -/
theorem state_exclusive («namespace» : String) (calls : List StateCall)
    (legal : Machine.Guarded next Legal (initial «namespace») calls) :
    (Machine.run next (initial «namespace») calls).Exclusive := by
  have sound : (Machine.run next (initial «namespace») calls).Sound :=
    Machine.guarded_invariant (fun _ _ holds legal => sound_next legal holds) legal sound_initial
  exact sound.exclusive

/-- A claim on the only slot that is released, and then released again. -/
def releaseTwice : List StateCall :=
  [⟨"", .start 1⟩, ⟨"a", .claimWarmSlot⟩, ⟨"", .releaseWarm ⟨0, "a", 1⟩⟩,
    ⟨"", .releaseWarm ⟨0, "a", 1⟩⟩]

theorem state_exclusive_releaseTwice :
    Machine.Guarded next Legal (initial "") releaseTwice ∧
      (Machine.run next (initial "") releaseTwice).Exclusive :=
  ⟨by decide, state_exclusive "" releaseTwice (by decide)⟩

/-- The second release of a claim raises no error. -/
theorem stale_release_returns :
    ∃ calls claim, Machine.Guarded next Legal (initial "") calls ∧
      StateClaim.warm claim ∈ (Machine.run next (initial "") calls).ended ∧
        (perform "" (.releaseWarm claim)).value?
          (Machine.run next (initial "") calls).state = some .done :=
  ⟨releaseTwice.take 3, ⟨0, "a", 1⟩, by decide, by decide, by decide⟩

end StateHistory

end Tinkerfin.Sandbox
