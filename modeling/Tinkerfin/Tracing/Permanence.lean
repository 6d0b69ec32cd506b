import Tinkerfin.Lib.Separation
import Tinkerfin.Tracing.EventPages

/-!
# What later requests leave alone

Events that a generation committed stay as they are, whatever is requested later, until the whole
generation is deleted, and a deleted generation does not come back.  Requests for one namespace see
nothing of the others: their rows, their quotas and their answers are those of a backend to which
nobody else talks.
-/

namespace Tinkerfin.Tracing

open Messaging (ThreadIdentity)

variable {encodedLength : TraceEvent → Nat} {limits : TraceLimits} {identity : ThreadIdentity}

/-! ## Committed events -/

namespace LedgerState

variable {state : LedgerState}

theorem step_ledger (event : LedgerEvent) : (step encodedLength limits state event).ledger =
    state.ledger.landed encodedLength (event.limited limits) := by
  unfold step MemoryLedger.landed
  cases resolved encodedLength state.ledger (event.limited limits) <;> rfl

/-- What holds of the events of a generation and survives appending holds after any requests that
do not draw the name of the generation anew. -/
theorem generation_kept {generation : String} (Holds : List MemoryStoredTraceEvent → Prop)
    (grows : ∀ {old new}, old <+: new → Holds old → Holds new) {later : List LedgerEvent}
    (drawn : ∀ event ∈ later, event.fresh ≠ generation) (linked : state.ledger.Linked)
    (holds : ∀ thread, state.ledger.get? identity = some thread →
      thread.state.key.generation = generation → Holds thread.events) :
    ∀ thread, (Machine.run (step encodedLength limits) state later).ledger.get? identity =
      some thread → thread.state.key.generation = generation → Holds thread.events := by
  induction later generalizing state with
  | nil => exact holds
  | cons event later ih =>
    rw [List.forall_mem_cons] at drawn
    refine ih drawn.2 (step_ledger event ▸ landed_linked linked) fun thread stored named => ?_
    rw [step_ledger] at stored
    obtain fresh | ⟨old, present, same, grown⟩ := landed_thread linked stored
    · exact absurd (fresh.symm.trans named) drawn.1
    · exact grows grown (holds old present (same ▸ named))

/-- Whatever is requested later, the events that a thread committed stay the beginning of what its
generation commits, and a generation that is not there does not come back.  Page reads made at later
moments, as long as the generation is there, therefore serve the events committed now. -/
theorem committed_trace_stable (encodedLength : TraceEvent → Nat) (limits : TraceLimits)
    (events : List LedgerEvent) :
    let state := Machine.run (step encodedLength limits) empty events
    let after later := (Machine.run (step encodedLength limits) state later).ledger
    (∀ later identity generation, (∀ event ∈ later, event.fresh ≠ generation) →
      ∀ next, (after later).get? identity = some next → next.state.key.generation = generation →
        ∃ thread, state.ledger.get? identity = some thread ∧
          thread.state.key.generation = generation ∧ thread.events <+: next.events) ∧
    ∀ identity thread, state.ledger.get? identity = some thread →
      ∀ codec batch now (later : Nat → List LedgerEvent),
        (∀ call, (∀ event ∈ later call, event.fresh ≠ thread.state.key.generation) ∧
          ∃ next, (after (later call)).get? identity = some next ∧
            next.state.key.generation = thread.state.key.generation) →
        (memoryReads encodedLength codec thread.state.key batch (after <| later ·) now).Serves
          thread.committed := by
  intro state after
  have accounted : state.Accounted limits := run_accounted encodedLength limits events
  have stable (later identity generation) (drawn : ∀ event ∈ later, event.fresh ≠ generation) :
      ∀ next, (after later).get? identity = some next → next.state.key.generation = generation →
        ∃ thread, state.ledger.get? identity = some thread ∧
          thread.state.key.generation = generation ∧ thread.events <+: next.events := by
    refine generation_kept (fun events => ∃ thread, state.ledger.get? identity =
      some thread ∧ thread.state.key.generation = generation ∧ thread.events <+: events)
      ?_ drawn accounted.linked fun thread stored named => ⟨thread, stored, named, List.prefix_rfl⟩
    rintro old new grown ⟨thread, stored, named, begun⟩
    exact ⟨thread, stored, named, begun.trans grown⟩
  refine ⟨stable, fun identity thread stored codec batch now later kept => ?_⟩
  have reads (call) : ∃ next, (after (later call)).get? identity = some next ∧
      next.Accounted limits ∧ thread.committed <+: next.committed := by
    obtain ⟨drawn, next, present, same⟩ := kept call
    obtain ⟨old, again, -, begun⟩ := stable _ _ _ drawn next present same
    obtain rfl := Option.some.inj (stored.symm.trans again)
    have later : (Machine.run (step encodedLength limits) state (later call)).Accounted limits :=
      Machine.run_invariant (fun _ _ accounted => step_accounted accounted) accounted
    exact ⟨next, present, later.threads identity next present, begun.map _⟩
  rw [← accounted.linked.threads identity thread stored] at reads
  exact memoryReads_serves reads

end LedgerState

/-! ## Namespaces -/

section Rows

variable {left right : MemoryLedger} {change : TraceLedgerChange}
  {effect : TraceLedgerStorageEffect}

theorem withThread_congr (same : left.get? identity = right.get? identity) :
    (left.withThread effect).get? identity = (right.withThread effect).get? identity := by
  unfold MemoryLedger.withThread
  split
  · exact same
  · simp only [Dict.get?_insert]
    split
    · next named => rw [← named, same]
    · exact same

/-- An effect is applied to every thread apart. -/
theorem applyEffect_congr (same : left.get? identity = right.get? identity) :
    (left.applyEffect change effect).get? identity =
      (right.applyEffect change effect).get? identity := by
  have written : (left.withThread effect).get? identity =
      (right.withThread effect).get? identity := withThread_congr same
  unfold MemoryLedger.applyEffect
  split
  · split
    · exact same
    · exact written
  · next key named =>
      dsimp only
      split
      · simp only [Dict.get?_erase, same]
      · by_cases here : identity = key.toThreadIdentity
        · subst here
          rw [← written]
          cases (left.withThread effect).get? key.toThreadIdentity <;> simp [*]
        · cases (left.withThread effect).get? key.toThreadIdentity <;>
            cases (right.withThread effect).get? key.toThreadIdentity <;>
            simpa [Dict.get?_insert_of_ne _ _ here] using written

/-- A request is resolved by what its own namespace holds. -/
theorem resolved_congr {event : LedgerEvent}
    (rows : ∀ identity, identity.namespace = event.change.namespace →
      left.get? identity = right.get? identity)
    (sums : LedgerState.counted left event.change.namespace =
      LedgerState.counted right event.change.namespace) :
    LedgerState.resolved encodedLength left event =
      LedgerState.resolved encodedLength right event := by
  unfold LedgerState.resolved MemoryLedger.stateForChange
  cases target : event.change.target with
  | error error => rfl
  | ok found =>
    obtain ⟨identity, runId⟩ := found
    have here : identity.namespace = event.change.namespace := by
      unfold TraceLedgerChange.target at target
      split at target <;> cases target <;> rfl
    simp only [LedgerState.counted, LedgerAccount.mk.injEq] at sums
    simp only [Except.map, MemoryLedger.loadState, here, rows identity here, sums]

end Rows

namespace LedgerState

/-- What a namespace sees of the backend: its threads and its account. -/
def shown («namespace» : String) (state : LedgerState) :
    (ThreadIdentity → Option MemoryThread) × LedgerAccount :=
  (fun identity => if identity.namespace = «namespace» then state.ledger.get? identity else none,
    state.accounts «namespace»)

theorem shown_eq_iff {«namespace» : String} {left right : LedgerState} :
    shown «namespace» left = shown «namespace» right ↔
      (∀ identity, identity.namespace = «namespace» →
        left.ledger.get? identity = right.ledger.get? identity) ∧
      left.accounts «namespace» = right.accounts «namespace» := by
  simp only [shown, Prod.mk.injEq, funext_iff]
  refine and_congr_left' (forall_congr' fun identity => ?_)
  by_cases inside : identity.namespace = «namespace» <;> simp [inside]

theorem step_separated (encodedLength : TraceEvent → Nat) (limits : TraceLimits) :
    Machine.Separated (step encodedLength limits) (·.change.namespace) shown (Accounted limits) where
  preserved _ _ accounted := step_accounted accounted
  respects state event «namespace» accounted other := by
    obtain ⟨rows, accounts⟩ | ⟨effect, identity, after, -, space, -, rows, accounts⟩ :=
      step_cases encodedLength limits event accounted.linked
    · simp only [shown, rows, accounts]
    · refine shown_eq_iff.mpr ⟨fun named inside => ?_, ?_⟩
      · rw [rows, MemoryLedger.get?_replaced, if_neg]
        rintro rfl
        exact other (space.symm.trans inside)
      · rw [accounts, Function.update_of_ne (Ne.symm other)]
  consistent left right event accounted also same := by
    obtain ⟨rows, accounts⟩ := shown_eq_iff.mp same
    have answered : resolved encodedLength left.ledger (event.limited limits) =
        resolved encodedLength right.ledger (event.limited limits) := by
      refine resolved_congr rows ?_
      exact (accounted.accounts _).symm.trans (accounts.trans (also.accounts _))
    unfold step
    rw [answered]
    cases resolved encodedLength right.ledger (event.limited limits) with
    | error error => exact same
    | ok effect =>
      refine shown_eq_iff.mpr ⟨fun identity inside => applyEffect_congr (rows identity inside), ?_⟩
      simp only [committed, Function.update_self, accounts]

end LedgerState

end Tinkerfin.Tracing
