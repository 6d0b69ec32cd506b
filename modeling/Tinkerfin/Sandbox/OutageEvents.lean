import Tinkerfin.Sandbox.Notifications

/-!
# Outages and announced events

Every call moves the outage of an owner in one of four ways: it keeps the entry without an announcement,
opens or updates it with one, closes it with one, or drops it silently.  Calls that drop an entry name
another Sandbox than the entry does or publish an unchanged identity.  Where no call drops the entry of
an owner, the last event announced for the owner tells whether the entry is there.
-/

namespace Tinkerfin.Sandbox

namespace LifecycleEventType

/-- The event announces an outage that goes on. -/
def opens : LifecycleEventType → Bool
  | .unavailable | .recovering | .recoveryFailed => true
  | _ => false

/-- The event announces the end of an outage. -/
def closes : LifecycleEventType → Bool
  | .recovered | .replaced | .paused | .resumed | .destroyed => true
  | _ => false

end LifecycleEventType

namespace LifecycleNotifications

variable {state after : LifecycleNotifications} {owner ownerKey sandboxId : String}
  {call : NotificationCall}

/-- The outage-related events announced for an owner, oldest first. -/
def outageEvents (state : LifecycleNotifications) (owner : String) : List LifecycleEventType :=
  (state.events.filter fun event =>
    event.ownerKey = some owner ∧ (event.type.opens ∨ event.type.closes)).map LifecycleEvent.type

/-- The owner has an open outage. -/
def IsOut (state : LifecycleNotifications) (owner : String) : Prop :=
  (state.outages.get? owner).isSome = true

instance : Decidable (state.IsOut owner) := by
  unfold IsOut
  infer_instance

/-! ## Parts of a call -/

section Parts

variable (state : LifecycleNotifications) (event : LifecycleEvent) (outage : Outage)

@[simp] theorem emit_outages : (state.emit event).outages = state.outages := by
  unfold emit
  split <;> rfl

@[simp] theorem emit_checks : (state.emit event).checks = state.checks := by
  unfold emit
  split <;> rfl

@[simp] theorem emit_invalidated : (state.emit event).invalidated = state.invalidated := by
  unfold emit
  split <;> rfl

@[simp] theorem emit_observed : (state.emit event).observed = state.observed := by
  unfold emit
  split <;> rfl

theorem emit_events (seen : state.observed = true) :
    (state.emit event).events = state.events ++ [event] := by
  simp [emit, seen]

theorem emit_of_unobserved (unseen : state.observed = false) : state.emit event = state := by
  simp [emit, unseen]

@[simp] theorem setOutage_observed :
    (state.setOutage ownerKey outage).observed = state.observed := rfl

@[simp] theorem setOutage_outages :
    (state.setOutage ownerKey outage).outages = state.outages.insert ownerKey outage := rfl

@[simp] theorem popOutage_observed : (state.popOutage ownerKey).observed = state.observed := rfl

@[simp] theorem popOutage_outages :
    (state.popOutage ownerKey).outages = state.outages.erase ownerKey := rfl

@[simp] theorem invalidateChecks_observed :
    (state.invalidateChecks ownerKey).observed = state.observed := rfl

@[simp] theorem invalidateChecks_outageOf :
    (state.invalidateChecks ownerKey).outageOf owner sandboxId = state.outageOf owner sandboxId :=
  rfl

end Parts

/-! ## What a call does to an outage -/

/-- How a call moves the outage of one owner. -/
inductive Moved (before after : LifecycleNotifications) (owner : String) (dropped : Prop) : Prop
  | kept (entry : after.IsOut owner ↔ before.IsOut owner)
      (events : after.outageEvents owner = before.outageEvents owner)
  | opened (type : LifecycleEventType) (opens : type.opens = true) (entry : after.IsOut owner)
      (events : after.outageEvents owner = before.outageEvents owner ++ [type])
  | closed (type : LifecycleEventType) (closes : type.closes = true) (entry : ¬after.IsOut owner)
      (events : after.outageEvents owner = before.outageEvents owner ++ [type])
  | dropped (drops : dropped) (was : before.IsOut owner) (entry : ¬after.IsOut owner)
      (events : after.outageEvents owner = before.outageEvents owner)

/-- The call removes the outage of an owner without announcing anything. -/
def Drops (state : LifecycleNotifications) (owner : String) : NotificationCall → Prop
  | .available ownerKey sandboxId => ownerKey = owner ∧
      ∃ outage, state.outages.get? owner = some outage ∧ outage.sandboxId ≠ sandboxId
  | .checked ownerKey sandboxId check none => check ∉ state.invalidated ∧ ownerKey = owner ∧
      ∃ outage, state.outages.get? owner = some outage ∧ outage.sandboxId ≠ sandboxId
  | .connected ownerKey sandboxId previous => ownerKey = owner ∧ previous = some sandboxId ∧
      sandboxId ≠ "" ∧
        ∃ outage, state.outages.get? owner = some outage ∧ outage.sandboxId ≠ sandboxId
  | .published ownerKey sandboxId previous _ => ownerKey = owner ∧ state.IsOut owner ∧
      ∀ other, previous = some other → other = sandboxId
  | _ => False

theorem outageEvents_congr (same : after.events = state.events) :
    after.outageEvents owner = state.outageEvents owner := by
  rw [outageEvents, same, outageEvents]

theorem outageEvents_emit {event : LifecycleEvent} (seen : state.observed = true)
    (named : event.ownerKey = some owner)
    (related : event.type.opens = true ∨ event.type.closes = true) :
    (state.emit event).outageEvents owner = state.outageEvents owner ++ [event.type] := by
  simp [outageEvents, emit_events _ _ seen, named, related]

theorem outageEvents_emit_unrelated {event : LifecycleEvent}
    (unrelated : event.ownerKey ≠ some owner ∨
      event.type.opens = false ∧ event.type.closes = false) :
    (state.emit event).outageEvents owner = state.outageEvents owner := by
  cases seen : state.observed with
  | false => rw [emit_of_unobserved _ _ seen]
  | true =>
    have absent : ¬(event.ownerKey = some owner ∧
        (event.type.opens = true ∨ event.type.closes = true)) := by
      rintro ⟨named, related⟩
      rcases unrelated with other | ⟨opens, closes⟩
      · exact other named
      · simp [opens, closes] at related
    simp [outageEvents, emit_events _ _ seen, List.filter_append, absent]

namespace Moved

variable {middle : LifecycleNotifications} {dropped : Prop}

theorem of_same (entry : after.outages.get? owner = state.outages.get? owner)
    (events : after.outageEvents owner = state.outageEvents owner) :
    Moved state after owner dropped :=
  .kept (by rw [IsOut, IsOut, entry]) events

/-- An entry is written or removed and then announced. -/
theorem announce {event : LifecycleEvent} (seen : middle.observed = true)
    (events : middle.events = state.events) (named : event.ownerKey = some ownerKey)
    (others : ∀ other, other ≠ ownerKey → middle.outages.get? other = state.outages.get? other)
    (result : event.type.opens = true ∧ middle.IsOut ownerKey ∨
      event.type.closes = true ∧ ¬middle.IsOut ownerKey) :
    Moved state (middle.emit event) owner dropped := by
  by_cases same : owner = ownerKey
  · subst same
    have announced : (middle.emit event).outageEvents owner =
        state.outageEvents owner ++ [event.type] := by
      rw [outageEvents_emit seen named (result.imp And.left And.left), outageEvents_congr events]
    have entry : (middle.emit event).IsOut owner ↔ middle.IsOut owner := by
      rw [IsOut, IsOut, emit_outages]
    rcases result with ⟨opens, out⟩ | ⟨closes, absent⟩
    · exact .opened event.type opens (entry.mpr out) announced
    · exact .closed event.type closes (mt entry.mp absent) announced
  · refine of_same (by rw [emit_outages, others owner same]) ?_
    rw [outageEvents_emit_unrelated (.inl ?_), outageEvents_congr events]
    simpa [named] using Ne.symm same

theorem silent (events : after.events = state.events)
    (others : ∀ other, other ≠ ownerKey → after.outages.get? other = state.outages.get? other)
    (result : (after.IsOut ownerKey ↔ state.IsOut ownerKey) ∨
      (ownerKey = owner → dropped) ∧ state.IsOut ownerKey ∧ ¬after.IsOut ownerKey) :
    Moved state after owner dropped := by
  by_cases same : owner = ownerKey
  · subst same
    rcases result with entry | ⟨drops, was, absent⟩
    · exact .kept entry (outageEvents_congr events)
    · exact .dropped (drops rfl) was absent (outageEvents_congr events)
  · exact of_same (others owner same) (outageEvents_congr events)

theorem mono {drops : Prop} (moved : Moved state after owner dropped) (weaker : dropped → drops) :
    Moved state after owner drops := by
  cases moved with
  | kept entry events => exact .kept entry events
  | opened type opens entry events => exact .opened type opens entry events
  | closed type closes entry events => exact .closed type closes entry events
  | dropped also was entry events => exact .dropped (weaker also) was entry events

theorem after_kept (moved : Moved middle after owner dropped)
    (entry : middle.IsOut owner ↔ state.IsOut owner)
    (same : middle.outageEvents owner = state.outageEvents owner) :
    Moved state after owner dropped := by
  cases moved with
  | kept also events => exact .kept (also.trans entry) (events.trans same)
  | opened type opens out events => exact .opened type opens out (same ▸ events)
  | closed type closes absent events => exact .closed type closes absent (same ▸ events)
  | dropped drops was absent events => exact .dropped drops (entry.mp was) absent (events.trans same)

end Moved

theorem get?_setOutage_of_ne (outage : Outage) (other : owner ≠ ownerKey) :
    (state.setOutage ownerKey outage).outages.get? owner = state.outages.get? owner :=
  Dict.get?_insert_of_ne _ _ other

theorem get?_popOutage_of_ne (other : owner ≠ ownerKey) :
    (state.popOutage ownerKey).outages.get? owner = state.outages.get? owner :=
  Dict.get?_erase_of_ne _ other

theorem isOut_setOutage (outage : Outage) : (state.setOutage ownerKey outage).IsOut ownerKey := by
  simp [IsOut, Dict.get?_insert_self]

theorem not_isOut_popOutage : ¬(state.popOutage ownerKey).IsOut ownerKey := by
  simp [IsOut, Dict.get?_erase_self]

theorem outageOf_eq_some {outage : Outage} :
    state.outageOf ownerKey sandboxId = some outage ↔
      state.outages.get? ownerKey = some outage ∧ outage.sandboxId = sandboxId := by
  simp [outageOf, Option.filter_eq_some_iff]

theorem isOut_of_outageOf {outage : Outage}
    (found : state.outageOf ownerKey sandboxId = some outage) : state.IsOut ownerKey := by
  rw [IsOut, (outageOf_eq_some.mp found).1]
  rfl

/-! ## Each call -/

section Calls

variable {reason : LifecycleReason} {dropped : Prop}

theorem moved_unavailable (changed : Bool) (seen : state.observed = true) :
    Moved state (state.unavailable ownerKey sandboxId reason changed) owner dropped := by
  have announced (outage : Outage) (event : LifecycleEvent) (named : event.ownerKey = some ownerKey)
      (opens : event.type.opens = true) :
      Moved state (((state.invalidateChecks ownerKey).setOutage ownerKey outage).emit event) owner
        dropped :=
    .announce seen rfl named (fun _ other => get?_setOutage_of_ne _ other)
      (.inl ⟨opens, isOut_setOutage outage⟩)
  simp only [unavailable, seen, Bool.not_true, Bool.false_eq_true, if_false,
    invalidateChecks_outageOf]
  split
  · next outage found =>
      split
      · refine .silent rfl (fun _ other => get?_setOutage_of_ne _ other) (.inl ?_)
        exact iff_of_true (isOut_setOutage _) (isOut_of_outageOf found)
      · exact announced _ _ rfl rfl
  · exact announced _ _ rfl rfl

theorem moved_recovering (seen : state.observed = true) :
    Moved state (state.recovering ownerKey sandboxId reason) owner dropped := by
  simp only [recovering, seen, Bool.not_true, Bool.false_eq_true, if_false]
  split
  · next again =>
      refine .silent rfl (fun _ other => get?_setOutage_of_ne _ other) (.inl ?_)
      -- Only an entry that was there can be recovering already.
      cases found : state.outageOf ownerKey sandboxId with
      | none => simp [found] at again
      | some outage => exact iff_of_true (isOut_setOutage _) (isOut_of_outageOf found)
  · exact .announce seen rfl rfl (fun _ other => get?_setOutage_of_ne _ other)
      (.inl ⟨rfl, isOut_setOutage _⟩)

theorem moved_recoveryStarted (seen : state.observed = true) :
    Moved state (state.recoveryStarted ownerKey sandboxId) owner dropped := by
  unfold recoveryStarted
  split
  · exact moved_recovering seen
  · exact .of_same rfl rfl

theorem moved_failed (seen : state.observed = true) :
    Moved state (state.failed ownerKey sandboxId reason) owner dropped := by
  simp only [failed, seen, Bool.not_true, Bool.false_eq_true, if_false]
  split
  · next again =>
      refine .silent rfl (fun _ other => get?_setOutage_of_ne _ other) (.inl ?_)
      -- Only an entry that was there can have failed already.
      cases found : state.outageOf ownerKey sandboxId with
      | none => simp [found] at again
      | some outage => exact iff_of_true (isOut_setOutage _) (isOut_of_outageOf found)
  · exact .announce seen rfl rfl (fun _ other => get?_setOutage_of_ne _ other)
      (.inl ⟨rfl, isOut_setOutage _⟩)

theorem moved_available (seen : state.observed = true) :
    Moved state (state.available ownerKey sandboxId) owner
      (state.Drops owner (.available ownerKey sandboxId)) := by
  simp only [available]
  split
  · exact .announce seen rfl rfl (fun _ other => get?_popOutage_of_ne other)
      (.inr ⟨rfl, not_isOut_popOutage⟩)
  · next absent =>
      refine .silent rfl (fun _ other => get?_popOutage_of_ne other) ?_
      cases found : state.outages.get? ownerKey with
      | none => exact .inl (iff_of_false not_isOut_popOutage (by simp [IsOut, found]))
      | some outage =>
        have other : outage.sandboxId ≠ sandboxId := fun same =>
          absurd (outageOf_eq_some.mpr ⟨found, same⟩) (by simp [absent])
        refine .inr ⟨?_, by simp [IsOut, found], not_isOut_popOutage⟩
        rintro rfl
        exact ⟨rfl, outage, found, other⟩

theorem moved_published {previous : Option String} (seen : state.observed = true) :
    Moved state (state.published ownerKey sandboxId previous reason) owner
      (state.Drops owner (.published ownerKey sandboxId previous reason)) := by
  simp only [published]
  split
  · exact .announce seen rfl rfl (fun _ other => get?_popOutage_of_ne other)
      (.inr ⟨rfl, not_isOut_popOutage⟩)
  · next unchanged =>
      refine .silent rfl (fun _ other => get?_popOutage_of_ne other) ?_
      by_cases was : state.IsOut ownerKey
      · refine .inr ⟨?_, was, not_isOut_popOutage⟩
        rintro rfl
        refine ⟨rfl, was, fun other named => ?_⟩
        simpa [named] using unchanged
      · exact .inl (iff_of_false not_isOut_popOutage was)

theorem moved_settled {type : LifecycleEventType} {changed : Bool} {sandbox : Option String}
    (closes : type.closes = true) (seen : state.observed = true) :
    Moved state (state.settled type reason changed ownerKey sandbox) owner dropped :=
  .announce seen rfl rfl (fun _ other => get?_popOutage_of_ne other)
    (.inr ⟨closes, not_isOut_popOutage⟩)

theorem named_of_unchanged {previous : Option String} {outage : Outage}
    (found : state.outages.get? ownerKey = some outage) (other : outage.sandboxId ≠ sandboxId)
    (unchanged : (state.previousOf ownerKey previous).filter (· ≠ sandboxId) = none) :
    previous = some sandboxId ∧ sandboxId ≠ "" := by
  simp only [previousOf, found, Option.map_some] at unchanged
  cases previous with
  | none => simp [other] at unchanged
  | some named =>
    by_cases empty : named = ""
    · subst empty
      exact absurd (by simpa [Option.filter] using unchanged) other
    · have same : named = sandboxId := by simpa [Option.filter, empty] using unchanged
      exact ⟨congrArg some same, same ▸ empty⟩

theorem moved_connected {previous : Option String} (seen : state.observed = true) :
    Moved state (state.connected ownerKey sandboxId previous) owner
      (state.Drops owner (.connected ownerKey sandboxId previous)) := by
  simp only [connected]
  split
  · next other changed =>
      refine (moved_published seen).mono ?_
      rintro ⟨_, _, same⟩
      have different := (Option.filter_eq_some_iff.mp changed).2
      simp [same other rfl] at different
  · next unchanged =>
      cases found : state.outages.get? ownerKey with
      | none =>
        refine (moved_available seen).mono ?_
        rintro ⟨rfl, outage, here, -⟩
        cases found.symm.trans here
      | some outage =>
        let noted := state.setOutage ownerKey { outage with workspaceMayHaveChanged := true }
        have moved : Moved noted (noted.available ownerKey sandboxId) owner
            (noted.Drops owner (.available ownerKey sandboxId)) := moved_available seen
        have entry : noted.IsOut owner ↔ state.IsOut owner := by
          by_cases same : owner = ownerKey
          · subst same
            exact iff_of_true (isOut_setOutage _) (by simp [IsOut, found])
          · rw [IsOut, IsOut, get?_setOutage_of_ne _ same]
        have events : noted.outageEvents owner = state.outageEvents owner := rfl
        refine (moved.after_kept entry events).mono ?_
        rintro ⟨rfl, updated, here, other⟩
        rw [setOutage_outages, Dict.get?_insert_self] at here
        obtain rfl := Option.some.inj here
        have named : previous = some sandboxId ∧ sandboxId ≠ "" :=
          named_of_unchanged found other unchanged
        exact ⟨rfl, named.1, named.2, outage, found, other⟩

theorem moved_checked {check : HealthCheck} {result : Option LifecycleReason}
    (seen : state.observed = true) :
    Moved state (state.checked ownerKey sandboxId check result) owner
      (state.Drops owner (.checked ownerKey sandboxId check result)) := by
  unfold checked
  split
  · exact .of_same rfl rfl
  · next current =>
      cases result with
      | none => exact (moved_available seen).mono fun drops => ⟨current, drops⟩
      | some reason => exact moved_unavailable false seen

end Calls

theorem endCheck_same (check : HealthCheck) :
    (state.endCheck ownerKey check).outages = state.outages ∧
      (state.endCheck ownerKey check).events = state.events := by
  unfold endCheck
  split <;> exact ⟨rfl, rfl⟩

/-- Every call keeps the outage of an owner, opens or closes it with one event, or drops it. -/
theorem moved_next (call : NotificationCall) (owner : String) (seen : state.observed = true) :
    Moved state (state.next call) owner (state.Drops owner call) := by
  cases call with
  | beginCheck ownerKey =>
    simp only [next, beginCheck, seen, if_true]
    exact .of_same rfl rfl
  | endCheck ownerKey check =>
    obtain ⟨outages, events⟩ : (state.endCheck ownerKey check).outages = state.outages ∧
      (state.endCheck ownerKey check).events = state.events := state.endCheck_same check
    exact .of_same (by rw [next, outages]) (outageEvents_congr events)
  | checked ownerKey sandboxId check result => exact moved_checked seen
  | unavailable ownerKey sandboxId reason changed => exact moved_unavailable changed seen
  | recovering ownerKey sandboxId reason => exact moved_recovering seen
  | recoveryStarted ownerKey sandboxId => exact moved_recoveryStarted seen
  | failed ownerKey sandboxId reason => exact moved_failed seen
  | available ownerKey sandboxId => exact moved_available seen
  | connected ownerKey sandboxId previous => exact moved_connected seen
  | published ownerKey sandboxId previous reason => exact moved_published seen
  | paused ownerKey sandboxId => exact moved_settled rfl seen
  | resumed ownerKey sandboxId => exact moved_settled rfl seen
  | destroyed ownerKey sandboxId => exact moved_settled rfl seen
  | workspaceReset ownerKey sandboxId =>
    exact .of_same (by rw [next, workspaceReset, emit_outages])
      (outageEvents_emit_unrelated (.inr ⟨rfl, rfl⟩))
  | warmCapacity ready =>
    simp only [next, warmCapacity]
    split
    · exact .of_same rfl rfl
    · exact .of_same (by rw [emit_outages]) (outageEvents_emit_unrelated (.inl (by simp)))

/-! ## Runs -/

/-- The last event announced for an owner tells of an outage that goes on. -/
def Announced (state : LifecycleNotifications) (owner : String) : Prop :=
  ∃ type, (state.outageEvents owner).getLast? = some type ∧ type.opens = true

theorem announced_of_append {type : LifecycleEventType}
    (events : after.outageEvents owner = state.outageEvents owner ++ [type]) :
    after.Announced owner ↔ type.opens = true := by
  simp [Announced, events]

theorem announced_of_same (events : after.outageEvents owner = state.outageEvents owner) :
    after.Announced owner ↔ state.Announced owner := by
  rw [Announced, Announced, events]

theorem not_opens_of_closes {type : LifecycleEventType} (closes : type.closes = true) :
    ¬type.opens = true := by
  cases type <;> simp_all [LifecycleEventType.opens, LifecycleEventType.closes]

theorem unavailable_observed {reason : LifecycleReason} {changed : Bool} :
    (state.unavailable ownerKey sandboxId reason changed).observed = state.observed := by
  simp only [unavailable]
  (repeat' split) <;> simp

theorem recovering_observed {reason : LifecycleReason} :
    (state.recovering ownerKey sandboxId reason).observed = state.observed := by
  simp only [recovering]
  (repeat' split) <;> simp

theorem available_observed :
    (state.available ownerKey sandboxId).observed = state.observed := by
  simp only [available]
  split <;> simp

theorem published_observed {previous : Option String} {reason : LifecycleReason} :
    (state.published ownerKey sandboxId previous reason).observed = state.observed := by
  simp only [published]
  split <;> simp

theorem next_observed (call : NotificationCall) : (state.next call).observed = state.observed := by
  cases call with
  | beginCheck ownerKey => simp only [next, beginCheck]; split <;> rfl
  | endCheck ownerKey check => simp only [next, endCheck]; split <;> rfl
  | checked ownerKey sandboxId check result =>
    simp only [next, checked]
    split
    · rfl
    · cases result with
      | none => exact available_observed
      | some reason => exact unavailable_observed
  | unavailable ownerKey sandboxId reason changed => exact unavailable_observed
  | recovering ownerKey sandboxId reason => exact recovering_observed
  | recoveryStarted ownerKey sandboxId =>
    simp only [next, recoveryStarted]
    split
    · exact recovering_observed
    · rfl
  | failed ownerKey sandboxId reason =>
    simp only [next, failed]
    (repeat' split) <;> simp
  | available ownerKey sandboxId => exact available_observed
  | connected ownerKey sandboxId previous =>
    simp only [next, connected]
    split
    · exact published_observed
    · split
      · exact available_observed
      · exact available_observed
  | published ownerKey sandboxId previous reason => exact published_observed
  | paused ownerKey sandboxId => exact emit_observed _ _
  | resumed ownerKey sandboxId => exact emit_observed _ _
  | destroyed ownerKey sandboxId => exact emit_observed _ _
  | workspaceReset ownerKey sandboxId => exact emit_observed _ _
  | warmCapacity ready => simp only [next, warmCapacity]; split <;> simp

/-- Without observers nothing is kept and nothing announced. -/
structure Idle (state : LifecycleNotifications) : Prop where
  unobserved : state.observed = false
  outages : ∀ owner, state.outages.get? owner = none
  events : state.events = []

namespace Idle

theorem popOutage (idle : state.Idle) : (state.popOutage ownerKey).Idle where
  unobserved := idle.unobserved
  outages owner := by
    by_cases same : owner = ownerKey
    · rw [popOutage_outages, same, Dict.get?_erase_self]
    · rw [get?_popOutage_of_ne same, idle.outages owner]
  events := idle.events

theorem emit (idle : state.Idle) (event : LifecycleEvent) : (state.emit event).Idle := by
  rw [emit_of_unobserved _ _ idle.unobserved]
  exact idle

theorem invalidateChecks (idle : state.Idle) : (state.invalidateChecks ownerKey).Idle :=
  ⟨idle.unobserved, idle.outages, idle.events⟩

theorem unavailable {reason : LifecycleReason} {changed : Bool} (idle : state.Idle) :
    (state.unavailable ownerKey sandboxId reason changed).Idle := by
  simpa [LifecycleNotifications.unavailable, idle.unobserved] using idle

theorem available (idle : state.Idle) : (state.available ownerKey sandboxId).Idle := by
  simp only [LifecycleNotifications.available]
  split
  · exact (idle.invalidateChecks.popOutage).emit _
  · exact idle.invalidateChecks.popOutage

theorem published {previous : Option String} {reason : LifecycleReason} (idle : state.Idle) :
    (state.published ownerKey sandboxId previous reason).Idle := by
  simp only [LifecycleNotifications.published]
  split
  · exact (idle.invalidateChecks.popOutage).emit _
  · exact idle.invalidateChecks.popOutage

theorem settled {type : LifecycleEventType} {reason : LifecycleReason} {changed : Bool}
    {sandbox : Option String} (idle : state.Idle) :
    (state.settled type reason changed ownerKey sandbox).Idle :=
  (idle.invalidateChecks.popOutage).emit _

theorem next (idle : state.Idle) (call : NotificationCall) : (state.next call).Idle := by
  have unseen := idle.unobserved
  cases call with
  | beginCheck ownerKey =>
    simp only [LifecycleNotifications.next, beginCheck, unseen, Bool.false_eq_true, if_false]
    exact ⟨rfl, idle.outages, idle.events⟩
  | endCheck ownerKey check =>
    obtain ⟨outages, events⟩ : (state.endCheck ownerKey check).outages = state.outages ∧
      (state.endCheck ownerKey check).events = state.events := state.endCheck_same check
    exact ⟨(next_observed (.endCheck ownerKey check)).trans unseen,
      fun owner => by rw [LifecycleNotifications.next, outages, idle.outages owner],
      events.trans idle.events⟩
  | checked ownerKey sandboxId check result =>
    simp only [LifecycleNotifications.next, checked]
    split
    · exact idle
    · cases result with
      | none => exact idle.available
      | some reason => exact idle.unavailable
  | unavailable ownerKey sandboxId reason changed => exact idle.unavailable
  | recovering ownerKey sandboxId reason =>
    simpa [LifecycleNotifications.next, recovering, unseen] using idle
  | recoveryStarted ownerKey sandboxId =>
    simpa [LifecycleNotifications.next, recoveryStarted, outageOf, idle.outages ownerKey]
      using idle
  | failed ownerKey sandboxId reason =>
    simpa [LifecycleNotifications.next, failed, unseen] using idle
  | available ownerKey sandboxId => exact idle.available
  | connected ownerKey sandboxId previous =>
    simp only [LifecycleNotifications.next, connected, idle.outages ownerKey]
    split
    · exact idle.published
    · exact idle.available
  | published ownerKey sandboxId previous reason => exact idle.published
  | paused ownerKey sandboxId => exact idle.settled
  | resumed ownerKey sandboxId => exact idle.settled
  | destroyed ownerKey sandboxId => exact idle.settled
  | workspaceReset ownerKey sandboxId => exact idle.emit _
  | warmCapacity ready =>
    simp only [LifecycleNotifications.next, warmCapacity]
    split
    · exact idle
    · have quiet : ({ state with warmDegraded := !ready } : LifecycleNotifications).Idle :=
        ⟨unseen, idle.outages, idle.events⟩
      exact quiet.emit _

end Idle

/-! ## Tickets -/

section Tickets

variable {check : HealthCheck} {middle : LifecycleNotifications}

/-- Two states have the same tickets. -/
def SameTickets (before after : LifecycleNotifications) : Prop :=
  after.checks = before.checks ∧ after.invalidated = before.invalidated

theorem SameTickets.emit (same : SameTickets state after) (event : LifecycleEvent) :
    SameTickets state (after.emit event) :=
  ⟨(emit_checks _ _).trans same.1, (emit_invalidated _ _).trans same.2⟩

theorem sameTickets_recovering {reason : LifecycleReason} :
    SameTickets state (state.recovering ownerKey sandboxId reason) := by
  simp only [recovering]
  split
  · exact ⟨rfl, rfl⟩
  · split
    · exact ⟨rfl, rfl⟩
    · exact SameTickets.emit ⟨rfl, rfl⟩ _

theorem sameTickets_failed {reason : LifecycleReason} :
    SameTickets state (state.failed ownerKey sandboxId reason) := by
  simp only [failed]
  split
  · exact ⟨rfl, rfl⟩
  · split
    · exact ⟨rfl, rfl⟩
    · exact SameTickets.emit ⟨rfl, rfl⟩ _

theorem sameTickets_unavailable {reason : LifecycleReason} {changed : Bool}
    (seen : state.observed = true) :
    SameTickets (state.invalidateChecks ownerKey)
      (state.unavailable ownerKey sandboxId reason changed) := by
  simp only [unavailable, seen, Bool.not_true, Bool.false_eq_true, if_false,
    invalidateChecks_outageOf]
  split
  · split
    · exact ⟨rfl, rfl⟩
    · exact SameTickets.emit ⟨rfl, rfl⟩ _
  · exact SameTickets.emit ⟨rfl, rfl⟩ _

theorem sameTickets_available :
    SameTickets (state.invalidateChecks ownerKey) (state.available ownerKey sandboxId) := by
  simp only [available]
  split
  · exact SameTickets.emit ⟨rfl, rfl⟩ _
  · exact ⟨rfl, rfl⟩

theorem sameTickets_published {previous : Option String} {reason : LifecycleReason} :
    SameTickets (state.invalidateChecks ownerKey)
      (state.published ownerKey sandboxId previous reason) := by
  simp only [published]
  split
  · exact SameTickets.emit ⟨rfl, rfl⟩ _
  · exact ⟨rfl, rfl⟩

theorem sameTickets_settled {type : LifecycleEventType} {reason : LifecycleReason} {changed : Bool}
    {sandbox : Option String} :
    SameTickets (state.invalidateChecks ownerKey)
      (state.settled type reason changed ownerKey sandbox) :=
  SameTickets.emit ⟨rfl, rfl⟩ _

/-- The owner about whom a call publishes a fact that checks in flight have not seen. -/
def publishedOwner (state : LifecycleNotifications) : NotificationCall → Option String
  | .unavailable ownerKey _ _ _ | .available ownerKey _ | .connected ownerKey _ _
  | .published ownerKey _ _ _ | .paused ownerKey _ | .resumed ownerKey _
  | .destroyed ownerKey _ => some ownerKey
  | .checked ownerKey _ check _ => if check ∈ state.invalidated then none else some ownerKey
  | _ => none

/-- The ticket of a check that was begun for an owner and has not ended. -/
def InFlight (state : LifecycleNotifications) (owner : String) (check : HealthCheck) : Prop :=
  check ∈ state.invalidated ∨ check ∈ (state.checks.get? owner).getD []

theorem SameTickets.inFlight (same : SameTickets state after)
    (flying : state.InFlight owner check) : after.InFlight owner check := by
  rwa [InFlight, same.1, same.2]

theorem inFlight_invalidateChecks (flying : state.InFlight owner check) :
    (state.invalidateChecks ownerKey).InFlight owner check := by
  by_cases same : owner = ownerKey
  · subst same
    refine .inl ?_
    simp only [invalidateChecks, List.mem_append]
    exact flying.symm
  · rcases flying with gone | listed
    · exact .inl (List.mem_append_right _ gone)
    · refine .inr ?_
      simpa [invalidateChecks, Dict.get?_erase_of_ne _ same] using listed

theorem mem_invalidated_invalidateChecks (flying : state.InFlight owner check) :
    check ∈ (state.invalidateChecks owner).invalidated := by
  simp only [invalidateChecks, List.mem_append]
  exact flying.symm

theorem inFlight_beginCheck (flying : state.InFlight owner check) :
    (state.beginCheck ownerKey).InFlight owner check := by
  simp only [beginCheck]
  split
  · rcases flying with gone | listed
    · exact .inl gone
    · refine .inr ?_
      by_cases same : owner = ownerKey
      · subst same
        simpa using Or.inr listed
      · simpa [Dict.get?_insert_of_ne _ _ same] using listed
  · exact flying

theorem inFlight_endCheck {ended : HealthCheck} (flying : state.InFlight owner check)
    (other : ¬(ownerKey = owner ∧ ended = check)) :
    (state.endCheck ownerKey ended).InFlight owner check := by
  simp only [endCheck]
  split
  · exact flying
  · next checks found =>
      rcases flying with gone | listed
      · exact .inl gone
      · refine .inr ?_
        by_cases same : owner = ownerKey
        · subst same
          have kept : check ∈ checks.filter (· ≠ ended) := by
            have listed : check ∈ checks := by simpa [found] using listed
            simpa [listed] using fun equal : check = ended => other ⟨rfl, equal.symm⟩
          rw [if_neg (List.ne_nil_of_mem kept)]
          simpa using kept
        · split
          · simpa [Dict.get?_erase_of_ne _ same] using listed
          · simpa [Dict.get?_insert_of_ne _ _ same] using listed

/-- What a call other than the start or the end of a check does to the tickets. -/
theorem sameTickets_next (seen : state.observed = true) {call : NotificationCall}
    (starts : ∀ ownerKey, call ≠ .beginCheck ownerKey)
    (ends : ∀ ownerKey ended, call ≠ .endCheck ownerKey ended) :
    SameTickets (((state.publishedOwner call).map state.invalidateChecks).getD state)
      (state.next call) := by
  cases call with
  | beginCheck ownerKey => exact absurd rfl (starts ownerKey)
  | endCheck ownerKey ended => exact absurd rfl (ends ownerKey ended)
  | checked ownerKey sandboxId ticket result =>
    simp only [publishedOwner, next, checked]
    split
    · exact ⟨rfl, rfl⟩
    · cases result with
      | none => exact sameTickets_available
      | some reason => exact sameTickets_unavailable seen
  | unavailable ownerKey sandboxId reason changed => exact sameTickets_unavailable seen
  | recovering ownerKey sandboxId reason => exact sameTickets_recovering
  | recoveryStarted ownerKey sandboxId =>
    simp only [publishedOwner, next, recoveryStarted]
    split
    · exact sameTickets_recovering
    · exact ⟨rfl, rfl⟩
  | failed ownerKey sandboxId reason => exact sameTickets_failed
  | available ownerKey sandboxId => exact sameTickets_available
  | connected ownerKey sandboxId previous =>
    simp only [publishedOwner, next, connected]
    split
    · exact sameTickets_published
    · split
      · exact sameTickets_available
      · exact sameTickets_available
  | published ownerKey sandboxId previous reason => exact sameTickets_published
  | paused ownerKey sandboxId => exact sameTickets_settled
  | resumed ownerKey sandboxId => exact sameTickets_settled
  | destroyed ownerKey sandboxId => exact sameTickets_settled
  | workspaceReset ownerKey sandboxId => exact SameTickets.emit ⟨rfl, rfl⟩ _
  | warmCapacity ready =>
    simp only [publishedOwner, next, warmCapacity]
    split
    · exact ⟨rfl, rfl⟩
    · exact SameTickets.emit ⟨rfl, rfl⟩ _

theorem inFlight_next (seen : state.observed = true) {call : NotificationCall}
    (flying : state.InFlight owner check) (running : call ≠ .endCheck owner check) :
    (state.next call).InFlight owner check := by
  by_cases starts : ∃ ownerKey, call = .beginCheck ownerKey
  · obtain ⟨ownerKey, rfl⟩ := starts
    exact inFlight_beginCheck flying
  by_cases ends : ∃ ownerKey ended, call = .endCheck ownerKey ended
  · obtain ⟨ownerKey, ended, rfl⟩ := ends
    exact inFlight_endCheck flying fun ⟨named, same⟩ => running (by rw [named, same])
  · push Not at starts ends
    refine (sameTickets_next seen starts ends).inFlight ?_
    cases state.publishedOwner call with
    | none => exact flying
    | some ownerKey => exact inFlight_invalidateChecks flying

theorem invalidated_of_published (seen : state.observed = true) {call : NotificationCall}
    (flying : state.InFlight owner check) (about : state.publishedOwner call = some owner) :
    check ∈ (state.next call).invalidated := by
  have same : SameTickets (((state.publishedOwner call).map state.invalidateChecks).getD state)
      (state.next call) :=
    sameTickets_next seen (fun _ equal => by simp [equal, publishedOwner] at about)
      fun _ _ equal => by simp [equal, publishedOwner] at about
  rw [about] at same
  rw [same.2]
  exact mem_invalidated_invalidateChecks flying

theorem invalidated_next (seen : state.observed = true) {call : NotificationCall}
    (gone : check ∈ state.invalidated) : check ∈ (state.next call).invalidated := by
  by_cases starts : ∃ ownerKey, call = .beginCheck ownerKey
  · obtain ⟨ownerKey, rfl⟩ := starts
    simpa [next, beginCheck, seen] using gone
  by_cases ends : ∃ ownerKey ended, call = .endCheck ownerKey ended
  · obtain ⟨ownerKey, ended, rfl⟩ := ends
    simp only [next, endCheck]
    split <;> exact gone
  · push Not at starts ends
    rw [(sameTickets_next seen starts ends).2]
    cases state.publishedOwner call with
    | none => exact gone
    | some ownerKey => exact List.mem_append_right _ gone

end Tickets

/-! ## Runs -/

section Runs

variable {calls : List NotificationCall}

theorem run_observed : (Machine.run next state calls).observed = state.observed := by
  induction calls generalizing state with
  | nil => rfl
  | cons call calls induction => rw [Machine.run_cons, induction, next_observed]

theorem announced_next (seen : state.observed = true) (mirrored : state.IsOut owner → state.Announced owner)
    (call : NotificationCall) (out : (state.next call).IsOut owner) :
    (state.next call).Announced owner := by
  cases moved_next call owner seen with
  | kept entry events => exact (announced_of_same events).mpr (mirrored (entry.mp out))
  | opened type opens _ events => exact (announced_of_append events).mpr opens
  | closed type closes entry events => exact absurd out entry
  | dropped drops was entry events => exact absurd out entry

theorem announced_run (seen : state.observed = true)
    (mirrored : state.IsOut owner → state.Announced owner)
    (out : (Machine.run next state calls).IsOut owner) :
    (Machine.run next state calls).Announced owner := by
  induction calls generalizing state with
  | nil => exact mirrored out
  | cons call calls induction =>
    exact induction ((next_observed call).trans seen) (announced_next seen mirrored call) out

theorem outageEvents_extends (seen : state.observed = true) :
    state.outageEvents owner <+: (Machine.run next state calls).outageEvents owner := by
  induction calls generalizing state with
  | nil => exact List.prefix_rfl
  | cons call calls induction =>
    refine List.IsPrefix.trans ?_ (induction ((next_observed call).trans seen))
    cases moved_next call owner seen with
    | kept entry events => exact events.symm ▸ List.prefix_rfl
    | opened type opens entry events => exact ⟨[type], events.symm⟩
    | closed type closes entry events => exact ⟨[type], events.symm⟩
    | dropped drops was entry events => exact events.symm ▸ List.prefix_rfl

/-- An owner without an entry has none until something is announced. -/
theorem not_isOut_of_quiet (seen : state.observed = true) (absent : ¬state.IsOut owner)
    (quiet : (Machine.run next state calls).outageEvents owner = state.outageEvents owner) :
    ¬(Machine.run next state calls).IsOut owner := by
  induction calls generalizing state with
  | nil => exact absent
  | cons call calls induction =>
    have later : (state.next call).observed = true := (next_observed call).trans seen
    have grown : ((state.next call).outageEvents owner).length ≤
        ((Machine.run next (state.next call) calls).outageEvents owner).length :=
      (outageEvents_extends later).length_le
    rw [Machine.run_cons] at quiet ⊢
    rw [quiet] at grown
    cases moved_next call owner seen with
    | kept entry events => exact induction later (mt entry.mp absent) (quiet.trans events.symm)
    | opened type opens entry events =>
      rw [events, List.length_append, List.length_singleton] at grown
      omega
    | closed type closes entry events =>
      rw [events, List.length_append, List.length_singleton] at grown
      omega
    | dropped drops was entry events => exact absurd was absent

/-- Since the last outage-related event of the owner, a call has dropped the entry. -/
def DroppedSince (start : LifecycleNotifications) (calls : List NotificationCall)
    (owner : String) : Prop :=
  ∃ before call after, calls = before ++ call :: after ∧
    (Machine.run next start before).Drops owner call ∧
    (Machine.run next start calls).outageEvents owner =
      (Machine.run next start before).outageEvents owner

theorem available_of_other {outage : Outage} (found : state.outages.get? ownerKey = some outage)
    (other : outage.sandboxId ≠ sandboxId) :
    state.available ownerKey sandboxId = (state.invalidateChecks ownerKey).popOutage ownerKey := by
  have absent : state.outageOf ownerKey sandboxId = none := by
    simp [outageOf, found, Option.filter, other]
  simp only [available, absent]

theorem published_of_unchanged {previous : Option String} {reason : LifecycleReason}
    (same : ∀ other, previous = some other → other = sandboxId) :
    state.published ownerKey sandboxId previous reason =
      (state.invalidateChecks ownerKey).popOutage ownerKey := by
  have unchanged : previous.filter (· ≠ sandboxId) = none := by
    cases previous with
    | none => rfl
    | some other => simp [Option.filter, same other rfl]
  simp only [published, unchanged]

/-- A call that drops an entry removes it and announces nothing about its owner. -/
theorem drops_spec (drops : state.Drops owner call) :
    state.IsOut owner ∧ ¬(state.next call).IsOut owner ∧
      (state.next call).outageEvents owner = state.outageEvents owner := by
  have popped : ¬((state.invalidateChecks owner).popOutage owner).IsOut owner ∧
      ((state.invalidateChecks owner).popOutage owner).outageEvents owner =
        state.outageEvents owner := ⟨not_isOut_popOutage, rfl⟩
  cases call with
  | available ownerKey sandboxId =>
    obtain ⟨rfl, outage, found, other⟩ := drops
    refine ⟨by simp [IsOut, found], ?_⟩
    rw [next, available_of_other found other]
    exact popped
  | checked ownerKey sandboxId check result =>
    cases result with
    | some reason => exact drops.elim
    | none =>
      obtain ⟨current, rfl, outage, found, other⟩ := drops
      refine ⟨by simp [IsOut, found], ?_⟩
      rw [next, checked, if_neg current, available_of_other found other]
      exact popped
  | connected ownerKey sandboxId previous =>
    obtain ⟨rfl, rfl, named, outage, found, other⟩ := drops
    refine ⟨by simp [IsOut, found], ?_⟩
    have unchanged :
        (state.previousOf ownerKey (some sandboxId)).filter (· ≠ sandboxId) = none := by
      simp [previousOf, Option.filter, named]
    let noted := state.setOutage ownerKey { outage with workspaceMayHaveChanged := true }
    have entry : noted.outages.get? ownerKey =
        some { outage with workspaceMayHaveChanged := true } := Dict.get?_insert_self _ _ _
    simp only [next, connected, unchanged, found]
    rw [available_of_other entry other]
    exact ⟨not_isOut_popOutage, rfl⟩
  | published ownerKey sandboxId previous reason =>
    obtain ⟨rfl, was, same⟩ := drops
    refine ⟨was, ?_⟩
    rw [next, published_of_unchanged same]
    exact popped
  | beginCheck | endCheck | unavailable | recovering | recoveryStarted | failed | paused | resumed
  | workspaceReset | destroyed | warmCapacity => exact drops.elim

/-- An announced outage without an entry was dropped after its last announcement. -/
theorem droppedSince_of_announced (seen : state.observed = true)
    (mirrored : state.Announced owner → state.IsOut owner)
    (announced : (Machine.run next state calls).Announced owner)
    (absent : ¬(Machine.run next state calls).IsOut owner) : DroppedSince state calls owner := by
  induction calls using List.reverseRecOn with
  | nil => exact absurd (mirrored announced) absent
  | append_singleton calls call induction =>
    rw [Machine.run_append, Machine.run_cons, Machine.run_nil] at announced absent
    have reached : (Machine.run next state calls).observed = true := run_observed.trans seen
    have final : Machine.run next state (calls ++ [call]) =
        (Machine.run next state calls).next call := by rw [Machine.run_append]; rfl
    cases moved_next call owner reached with
    | kept entry events =>
      obtain ⟨before, drop, after, rfl, drops, same⟩ :=
        induction ((announced_of_same events).mp announced) (mt entry.mpr absent)
      exact ⟨before, drop, after ++ [call], by simp, drops, by rw [final, events, same]⟩
    | opened type opens entry events => exact absurd entry absent
    | closed type closes entry events =>
      exact absurd ((announced_of_append events).mp announced) (not_opens_of_closes closes)
    | dropped drops was entry events => exact ⟨calls, call, [], rfl, drops, by rw [final, events]⟩

theorem not_isOut_of_droppedSince (seen : state.observed = true)
    (dropped : DroppedSince state calls owner) : ¬(Machine.run next state calls).IsOut owner := by
  obtain ⟨before, call, after, rfl, drops, same⟩ := dropped
  obtain ⟨-, absent, quiet⟩ := drops_spec drops
  have reached : ((Machine.run next state before).next call).observed = true :=
    (next_observed call).trans (run_observed.trans seen)
  rw [Machine.run_append, Machine.run_cons] at same ⊢
  exact not_isOut_of_quiet reached absent (same.trans quiet.symm)

theorem isOut_iff (seen : state.observed = true)
    (mirrored : state.IsOut owner ↔ state.Announced owner) :
    (Machine.run next state calls).IsOut owner ↔
      (Machine.run next state calls).Announced owner ∧ ¬DroppedSince state calls owner := by
  constructor
  · intro out
    have announced := announced_run seen mirrored.mp out
    exact ⟨announced, fun dropped => not_isOut_of_droppedSince seen dropped out⟩
  · rintro ⟨announced, undropped⟩
    by_contra absent
    exact undropped (droppedSince_of_announced seen mirrored.mpr announced absent)

theorem run_invalidated {check : HealthCheck} (seen : state.observed = true)
    (gone : check ∈ state.invalidated) : check ∈ (Machine.run next state calls).invalidated := by
  induction calls generalizing state with
  | nil => exact gone
  | cons call calls induction =>
    exact induction ((next_observed call).trans seen) (invalidated_next seen gone)

theorem run_inFlight {check : HealthCheck} (seen : state.observed = true)
    (flying : state.InFlight owner check) (running : .endCheck owner check ∉ calls) :
    (Machine.run next state calls).InFlight owner check := by
  induction calls generalizing state with
  | nil => exact flying
  | cons call calls induction =>
    obtain ⟨now, later⟩ := List.ne_and_not_mem_of_not_mem_cons running
    exact induction ((next_observed call).trans seen) (inFlight_next seen flying now.symm) later

/-- A fact published while a check is in flight makes its result obsolete. -/
theorem run_stale {before middle after : List NotificationCall} {fact : NotificationCall}
    (seen : state.observed = true)
    (running : .endCheck owner (Machine.run next state before).nextCheck ∉ middle)
    (about : (Machine.run next state (before ++ .beginCheck owner :: middle)).publishedOwner fact =
      some owner) :
    (Machine.run next state before).nextCheck ∈
      (Machine.run next state (before ++ .beginCheck owner :: middle ++ fact :: after)).invalidated := by
  let begun := (Machine.run next state before).beginCheck owner
  have reached : (Machine.run next state before).observed = true := run_observed.trans seen
  have begunSeen : begun.observed = true := (next_observed (.beginCheck owner)).trans reached
  have flying : begun.InFlight owner (Machine.run next state before).nextCheck := by
    refine .inr ?_
    simp [begun, beginCheck, reached]
  have later : Machine.run next state (before ++ .beginCheck owner :: middle) =
      Machine.run next begun middle := by
    rw [Machine.run_append, Machine.run_cons]
    rfl
  rw [Machine.run_append, Machine.run_cons]
  rw [later] at about ⊢
  have middleSeen : (Machine.run next begun middle).observed = true := run_observed.trans begunSeen
  exact run_invalidated ((next_observed fact).trans middleSeen)
    (invalidated_of_published middleSeen (run_inFlight begunSeen flying running) about)

theorem idle_run (idle : state.Idle) : (Machine.run next state calls).Idle :=
  Machine.run_invariant (fun _ call idle => idle.next call) idle

theorem Idle.isOut_iff (idle : state.Idle) : state.IsOut owner ↔ False := by
  simp [IsOut, idle.outages owner]

theorem Idle.announced_iff (idle : state.Idle) : state.Announced owner ↔ False := by
  simp [Announced, outageEvents, idle.events]

theorem idle_new : Idle { observed := false } := ⟨rfl, fun _ => rfl, rfl⟩

theorem checked_of_invalidated {check : HealthCheck} {reason : Option LifecycleReason}
    (gone : check ∈ state.invalidated) :
    state.next (.checked ownerKey sandboxId check reason) = state := by
  simp only [next, checked, if_pos gone]

end Runs

/-- Along every run of calls on a new table: an owner has an entry exactly when the last event about
its outages announces one that goes on and no call has dropped the entry since; a call that removes
the entry announces the end once unless it drops the entry; and a check in flight while a fact about
its owner is published announces nothing. -/
theorem outages_mirror_events (observed : Bool) (calls : List NotificationCall) (owner : String) :
    let start : LifecycleNotifications := { observed }
    let state := Machine.run next start calls
    (state.IsOut owner ↔ state.Announced owner ∧ ¬DroppedSince start calls owner) ∧
    (∀ call, state.IsOut owner → ¬(state.next call).IsOut owner →
      (state.Drops owner call ∧
          (state.next call).outageEvents owner = state.outageEvents owner) ∨
        (¬state.Drops owner call ∧ ∃ type, type.closes = true ∧
          (state.next call).outageEvents owner = state.outageEvents owner ++ [type])) ∧
    (∀ before middle fact after, calls = before ++ .beginCheck owner :: middle ++ fact :: after →
      .endCheck owner (Machine.run next start before).nextCheck ∉ middle →
      (Machine.run next start (before ++ .beginCheck owner :: middle)).publishedOwner fact =
        some owner →
      ∀ ownerKey sandboxId reason,
        (state.next (.checked ownerKey sandboxId (Machine.run next start before).nextCheck
          reason)).events = state.events) := by
  intro start state
  cases observed with
  | false =>
    have idle : state.Idle := idle_run idle_new
    refine ⟨by rw [idle.isOut_iff, idle.announced_iff, false_and], fun call out => ?_, ?_⟩
    · exact absurd out idle.isOut_iff.mp
    · intro before middle fact after _ _ _ ownerKey sandboxId reason
      rw [(idle.next _).events, idle.events]
  | true =>
    have seen : state.observed = true := run_observed
    have fresh : start.IsOut owner ↔ start.Announced owner :=
      iff_of_false (by simp [start, IsOut]) (by simp [start, Announced, outageEvents])
    refine ⟨isOut_iff rfl fresh, fun call out absent => ?_, ?_⟩
    · by_cases drops : state.Drops owner call
      · exact .inl ⟨drops, (drops_spec drops).2.2⟩
      · refine .inr ⟨drops, ?_⟩
        cases moved_next call owner seen with
        | kept entry events => exact absurd (entry.mpr out) absent
        | opened type opens entry events => exact absurd entry absent
        | closed type closes entry events => exact ⟨type, closes, events⟩
        | dropped also was entry events => exact absurd also drops
    · rintro before middle fact after rfl running about ownerKey sandboxId reason
      rw [checked_of_invalidated (run_stale rfl running about)]

/-- A check is overtaken by an outage that a pause then ends. -/
theorem outages_mirror_events_sample :
    let state := Machine.run next { observed := true }
      [.beginCheck "owner", .unavailable "owner" "first" .unreachable false]
    (∃ type, LifecycleEventType.closes type = true ∧
      (state.next (.paused "owner" "first")).outageEvents "owner" =
        state.outageEvents "owner" ++ [type]) ∧
    (state.next (.checked "owner" "first" 0 none)).events = state.events := by
  have general := outages_mirror_events true
    [.beginCheck "owner", .unavailable "owner" "first" .unreachable false] "owner"
  refine ⟨?_, general.2.2 [] [] (.unavailable "owner" "first" .unreachable false) [] rfl
    List.not_mem_nil rfl "owner" "first" none⟩
  rcases general.2.1 (.paused "owner" "first") (by decide) (by decide) with
    ⟨drops, -⟩ | ⟨-, closed⟩
  · exact drops.elim
  · exact closed

/-- A Sandbox that becomes available in place of the failed one ends the outage silently. -/
theorem outages_mirror_events_fails :
    let silent := Machine.run next {}
      [.unavailable "owner" "first" .unreachable false, .available "owner" "second"]
    let late := Machine.run next {}
      [.unavailable "owner" "first" .unreachable false, .beginCheck "owner",
        .recovering "owner" "first" .unreachable]
    (¬silent.IsOut "owner" ∧ silent.outageEvents "owner" = [.unavailable]) ∧
      late.events.length = 2 ∧
      (late.next (.checked "owner" "first" 0 none)).events.length = 3 := by
  decide

end LifecycleNotifications

end Tinkerfin.Sandbox
