import Mathlib.Data.Set.Card
import Mathlib.Logic.Relation
import Tinkerfin.Automation.Lifecycle

/-!
# The lives of all executions

The purpose of a store, without its tables: a function from execution identities to lives, and steps
that begin one life or move one life on.  A step that gives an execution its slots needs room in both
of its scopes.  What holds of one life at each step holds along every sequence of steps.
-/

namespace Tinkerfin.Automation

open Function (update)
open Relation (ReflTransGen)

/-- The life of every execution that was queued. -/
abbrev Lives := String → Option Lifecycle

/-- What the operations behind a sequence of steps may do. -/
structure Permit where
  /-- Slots of each namespace. -/
  globalConcurrency : String → ℕ∞
  /-- Executions that may be queued. -/
  offered : AutomationExecution → Prop
  /-- Actions on an execution. -/
  performed : LifecycleAction → String → Prop

namespace Lives

variable {lives after : Lives} {permit : Permit} {executionId : String} {life : Lifecycle}
  {scope : ScopeKey}

/-- Executions that hold a slot of a scope. -/
def holders (lives : Lives) (scope : ScopeKey) : Set String :=
  {executionId | ∃ life, lives executionId = some life ∧ life.admitted = true ∧
    scope ∈ life.scopes}

/-- Both scopes of an execution have a free slot. -/
structure HasRoom (lives : Lives) (globalConcurrency : String → ℕ∞)
    (execution : AutomationExecution) : Prop where
  inNamespace : (lives.holders (globalScope execution.namespace)).encard <
    globalConcurrency execution.namespace
  inScope : (lives.holders (taskScope execution)).encard < execution.limits.maxConcurrentRuns

end Lives

/-- One life begins or moves on. -/
inductive LivesStep (permit : Permit) (lives : Lives) : Lives → Prop
  | entered (executionId : String) (life : Lifecycle) (fresh : lives executionId = none)
      (identity : life.execution.executionId = executionId) (entered : life.Entered)
      (offered : permit.offered life.execution) :
      LivesStep permit lives (update lives executionId (some life))
  | moved (executionId : String) (action : LifecycleAction) (life later : Lifecycle)
      (found : lives executionId = some life) (step : LifecycleStep action life later)
      (performed : permit.performed action executionId)
      (room : life.admitted = false → later.admitted = true →
        lives.HasRoom permit.globalConcurrency life.execution) :
      LivesStep permit lives (update lives executionId (some later))

/-- A permit under which every scope has a fixed number of slots. -/
structure Permit.Fixes (permit : Permit) (limit : ScopeKey → Nat) : Prop where
  inNamespace : ∀ «namespace», permit.globalConcurrency «namespace» ≤ limit (globalScope «namespace»)
  inScope : ∀ execution, permit.offered execution →
    execution.limits.maxConcurrentRuns = limit (taskScope execution)

/-- Any number of steps. -/
abbrev LivesSteps (permit : Permit) : Lives → Lives → Prop := ReflTransGen (LivesStep permit)

/-- Everything the first permit allows, the second allows. -/
structure Permit.Le (permit wider : Permit) : Prop where
  globalConcurrency : ∀ «namespace»,
    permit.globalConcurrency «namespace» ≤ wider.globalConcurrency «namespace»
  offered : ∀ execution, permit.offered execution → wider.offered execution
  performed : ∀ action executionId, permit.performed action executionId →
    wider.performed action executionId

/-- The permit that forbids nothing. -/
def Permit.unrestricted : Permit where
  globalConcurrency := fun _ => ⊤
  offered := fun _ => True
  performed := fun _ _ => True

theorem Permit.le_unrestricted (permit : Permit) : permit.Le .unrestricted :=
  ⟨fun _ => le_top, fun _ _ => trivial, fun _ _ _ => trivial⟩

theorem LivesStep.mono {permit wider : Permit} (le : permit.Le wider) {lives after : Lives}
    (step : LivesStep permit lives after) : LivesStep wider lives after := by
  cases step with
  | entered executionId life fresh identity entered offered =>
    exact .entered executionId life fresh identity entered (le.offered _ offered)
  | moved executionId action life later found step performed room =>
    refine .moved executionId action life later found step (le.performed _ _ performed) ?_
    intro free held
    obtain ⟨inNamespace, inScope⟩ := room free held
    exact ⟨inNamespace.trans_le (le.globalConcurrency _), inScope⟩

theorem LivesSteps.mono {permit wider : Permit} (le : permit.Le wider) {lives after : Lives}
    (steps : LivesSteps permit lives after) : LivesSteps wider lives after := by
  induction steps with
  | refl => exact .refl
  | tail _ step ih => exact ih.tail (step.mono le)

namespace Lives

variable {lives after : Lives} {permit : Permit} {executionId : String} {life : Lifecycle}
  {scope : ScopeKey}

/-! ## Invariants -/

/-- Every life is valid and stored under its identity. -/
def Valid (lives : Lives) : Prop :=
  ∀ executionId life, lives executionId = some life →
    life.execution.executionId = executionId ∧ life.Valid

theorem Valid.update (valid : lives.Valid) (found : lives executionId = some life)
    {later : Lifecycle} (same : later.execution.executionId = life.execution.executionId)
    (stays : later.Valid) : Valid (update lives executionId (some later)) := by
  intro other moved present
  by_cases equal : other = executionId
  · subst equal
    obtain rfl : later = moved := by simpa using present
    exact ⟨same.trans (valid other life found).1, stays⟩
  · exact valid other moved (by simpa [equal] using present)

theorem Valid.step (valid : lives.Valid) (step : LivesStep permit lives after) : after.Valid := by
  intro other life found
  cases step with
  | entered executionId begun _ identity entered =>
    by_cases same : other = executionId
    · subst same
      obtain rfl : begun = life := by simpa using found
      exact ⟨identity, entered.valid⟩
    · exact valid other life (by simpa [same] using found)
  | moved executionId action before later present step =>
    exact valid.update present step.sameAttempt.executionId
      (step.valid (valid executionId before present).2) other life found

theorem Valid.steps (valid : lives.Valid) (steps : LivesSteps permit lives after) :
    after.Valid := by
  induction steps with
  | refl => exact valid
  | tail _ step ih => exact ih.step step

/-- The texts of every execution are canonical. -/
def Canonical (lives : Lives) : Prop :=
  ∀ executionId life, lives executionId = some life → life.execution.canonical = true

/-! ## Following one execution -/

/-- A step either leaves an execution alone, begins it, or moves it on. -/
theorem step_at (step : LivesStep permit lives after) (executionId : String) :
    after executionId = lives executionId ∨
      (lives executionId = none ∧ ∃ life, after executionId = some life ∧ life.Entered ∧
        permit.offered life.execution ∧ life.execution.executionId = executionId) ∨
      ∃ action life later, lives executionId = some life ∧ after executionId = some later ∧
        LifecycleStep action life later ∧ permit.performed action executionId ∧
        (life.admitted = false → later.admitted = true →
          lives.HasRoom permit.globalConcurrency life.execution) := by
  cases step with
  | entered other begun fresh identity entered offered =>
    by_cases same : executionId = other
    · subst same
      exact .inr (.inl ⟨fresh, begun, by simp, entered, offered, identity⟩)
    · exact .inl (by simp [same])
  | moved other action before later present step performed room =>
    by_cases same : executionId = other
    · subst same
      exact .inr (.inr ⟨action, before, later, present, by simp, step, performed, room⟩)
    · exact .inl (by simp [same])

theorem Canonical.steps (canonical : lives.Canonical) (steps : LivesSteps permit lives after) :
    after.Canonical := by
  induction steps with
  | refl => exact canonical
  | tail _ step ih =>
    intro executionId life found
    rcases step_at step executionId with same | ⟨-, begun, present, entered, -⟩ |
      ⟨action, before, later, stored, moved, lifecycleStep, -⟩
    · exact ih executionId life (same.symm.trans found)
    · obtain rfl := Option.some.inj (present.symm.trans found)
      exact entered.canonical
    · obtain rfl := Option.some.inj (moved.symm.trans found)
      exact lifecycleStep.keeps_canonical (ih executionId before stored)

/-- Steps that may begin no life begin none, and queue none again. -/
theorem of_unoffered (steps : LivesSteps permit lives after)
    (unoffered : ∀ execution, ¬permit.offered execution) {later : Lifecycle}
    (found : after executionId = some later) : ∃ life, lives executionId = some life ∧
      SameAttempt life.execution later.execution ∧
        (later.execution.status = .queued → life.execution.status = .queued) := by
  induction steps generalizing later with
  | refl => exact ⟨later, found, .refl _, id⟩
  | tail _ step ih =>
    rcases step_at step executionId with same | ⟨-, begun, -, -, offered, -⟩ |
      ⟨action, before, moved, stored, present, lifecycleStep, -⟩
    · exact ih (same.symm.trans found)
    · exact absurd offered (unoffered _)
    · obtain rfl := Option.some.inj (present.symm.trans found)
      obtain ⟨life, living, attempt, waits⟩ := ih stored
      exact ⟨life, living, attempt.trans lifecycleStep.sameAttempt, fun queued =>
        waits (lifecycleStep.queued_before queued)⟩

/-- What every step of a living execution keeps, a sequence of steps keeps. -/
theorem follow (Kept : Lifecycle → Prop) (valid : lives.Valid)
    (step : ∀ action life later, life.Valid → permit.performed action executionId →
      LifecycleStep action life later → Kept life → Kept later)
    (steps : LivesSteps permit lives after) (found : lives executionId = some life)
    (kept : Kept life) : ∃ later, after executionId = some later ∧ Kept later := by
  induction steps with
  | refl => exact ⟨life, found, kept⟩
  | tail before last ih =>
    obtain ⟨between, present, holds⟩ := ih
    rcases step_at last executionId with same | ⟨fresh, -⟩ |
      ⟨action, current, later, stored, moved, lifecycleStep, performed, -⟩
    · exact ⟨between, same.trans present, holds⟩
    · simp [present] at fresh
    · obtain rfl := Option.some.inj (present.symm.trans stored)
      exact ⟨later, moved, step action between later
        ((valid.steps before) executionId between present).2 performed lifecycleStep holds⟩

theorem keeps_attempt (valid : lives.Valid) (steps : LivesSteps permit lives after)
    (found : lives executionId = some life) :
    ∃ later, after executionId = some later ∧ SameAttempt life.execution later.execution :=
  follow (fun later => SameAttempt life.execution later.execution) valid
    (fun _ _ _ _ _ step same => same.trans step.sameAttempt) steps found (.refl _)

theorem keeps_start (valid : lives.Valid) (steps : LivesSteps permit lives after)
    (found : lives executionId = some life)
    (started : life.execution.startAuthorizedAt.isSome = true) :
    ∃ later, after executionId = some later ∧
      later.execution.startAuthorizedAt.isSome = true :=
  follow (fun later => later.execution.startAuthorizedAt.isSome = true) valid
    (fun _ _ _ _ _ step started => step.keeps_start started) steps found started

theorem keeps_terminal (valid : lives.Valid) (steps : LivesSteps permit lives after)
    (found : lives executionId = some life)
    (terminal : life.execution.status.isTerminal = true) : after executionId = some life := by
  obtain ⟨later, present, same⟩ := follow (fun later => later = life) valid
    (fun action before later valid _ step same => by
      subst same
      exact step.of_terminal valid terminal) steps found rfl
  rw [present, same]

theorem keeps_uncertain (valid : lives.Valid) (steps : LivesSteps permit lives after)
    (found : lives executionId = some life) (uncertain : life.execution.status = .needsAttention)
    (unresolved : ¬permit.performed .resolve executionId) : after executionId = some life := by
  obtain ⟨later, present, same⟩ := follow (fun later => later = life) valid
    (fun action before later valid performed step same => by
      subst same
      rcases step.of_settled valid (.inl uncertain) with same | ⟨rfl, -⟩
      · exact same
      · exact absurd performed unresolved) steps found rfl
  rw [present, same]

theorem keeps_work (valid : lives.Valid) (steps : LivesSteps permit lives after)
    (found : lives executionId = some life) :
    ∃ later, after executionId = some later ∧ life.WorkKept later := by
  refine follow life.WorkKept valid (fun action before later _ _ step kept => ?_) steps found
    fun kind item work => ⟨item, work, rfl, le_rfl⟩
  intro kind item work
  obtain ⟨between, present, same, lower⟩ := kept kind item work
  obtain ⟨last, stays, equal, upper⟩ := step.workKept kind between present
  exact ⟨last, stays, equal.trans same, lower.trans upper⟩

/-! ## Slots -/

theorem holders_update (lives : Lives) (executionId : String) (life : Lifecycle)
    (scope : ScopeKey) : holders (update lives executionId (some life)) scope =
      {other | other ≠ executionId ∧ other ∈ lives.holders scope ∨
        other = executionId ∧ life.admitted = true ∧ scope ∈ life.scopes} := by
  ext other
  by_cases same : other = executionId
  · subst same
    simp [holders]
  · simp [holders, same]

theorem holders_update_subset (found : lives executionId = some life) {later : Lifecycle}
    (scopes : later.scopes = life.scopes)
    (held : scope ∈ life.scopes → later.admitted = true → life.admitted = true) :
    holders (update lives executionId (some later)) scope ⊆ lives.holders scope := by
  rw [holders_update]
  rintro other (⟨-, member⟩ | ⟨rfl, admitted, member⟩)
  · exact member
  · rw [scopes] at member
    exact ⟨life, found, held member admitted, member⟩

/-- No scope has more holders than slots. -/
def SlotsBounded (lives : Lives) (limit : ScopeKey → Nat) : Prop :=
  ∀ scope, (lives.holders scope).encard ≤ limit scope

/-- The executions of a scope agree on its slots. -/
def SlotsFixed (lives : Lives) (limit : ScopeKey → Nat) : Prop :=
  ∀ executionId life, lives executionId = some life →
    life.execution.limits.maxConcurrentRuns = limit (taskScope life.execution)

theorem SlotsFixed.step {limit : ScopeKey → Nat} (fixed : lives.SlotsFixed limit)
    (permitted : permit.Fixes limit) (step : LivesStep permit lives after) :
    after.SlotsFixed limit := by
  intro executionId life found
  rcases step_at step executionId with same | ⟨-, begun, present, -, offered, -⟩ |
    ⟨action, before, later, stored, moved, lifecycleStep, -⟩
  · exact fixed executionId life (same.symm.trans found)
  · obtain rfl := Option.some.inj (present.symm.trans found)
    exact permitted.inScope _ offered
  · obtain rfl := Option.some.inj (moved.symm.trans found)
    have same := lifecycleStep.sameAttempt
    have scope : taskScope later.execution = taskScope before.execution := by
      simp only [taskScope, same.namespace, same.executionScope]
    rw [same.limits, scope]
    exact fixed executionId before stored

theorem SlotsBounded.step {limit : ScopeKey → Nat} (bounded : lives.SlotsBounded limit)
    (fixed : lives.SlotsFixed limit) (permitted : permit.Fixes limit)
    (step : LivesStep permit lives after) : after.SlotsBounded limit := by
  intro scope
  cases step with
  | entered executionId begun fresh _ entered =>
    refine (Set.encard_le_encard ?_).trans (bounded scope)
    rw [holders_update]
    rintro other (⟨-, member⟩ | ⟨-, held, -⟩)
    · exact member
    · simp [entered.notAdmitted] at held
  | moved executionId action life later found step _ room =>
    by_cases gained : scope ∈ life.scopes ∧ life.admitted = false ∧ later.admitted = true
    · obtain ⟨member, free, taken⟩ := gained
      have within : (lives.holders scope).encard < limit scope := by
        obtain ⟨inNamespace, inScope⟩ := room free taken
        rw [fixed executionId life found] at inScope
        simp only [Lifecycle.scopes, List.mem_cons, List.not_mem_nil, or_false] at member
        rcases member with rfl | rfl
        · exact inNamespace.trans_le (permitted.inNamespace _)
        · exact inScope
      have added : holders (update lives executionId (some later)) scope ⊆
          insert executionId (lives.holders scope) := by
        rw [holders_update]
        rintro other (⟨-, member⟩ | ⟨rfl, -⟩)
        · exact .inr member
        · exact .inl rfl
      exact (Set.encard_le_encard added).trans ((Set.encard_insert_le _ _).trans
        (Order.add_one_le_of_lt within))
    · refine (Set.encard_le_encard (holders_update_subset found step.scopes ?_)).trans
        (bounded scope)
      intro member taken
      by_contra free
      exact gained ⟨member, by simpa using free, taken⟩

theorem slots_steps {limit : ScopeKey → Nat} (bounded : lives.SlotsBounded limit)
    (fixed : lives.SlotsFixed limit) (permitted : permit.Fixes limit)
    (steps : LivesSteps permit lives after) :
    after.SlotsBounded limit ∧ after.SlotsFixed limit := by
  induction steps with
  | refl => exact ⟨bounded, fixed⟩
  | tail _ step ih => exact ⟨ih.1.step ih.2 permitted step, ih.2.step permitted step⟩

/-- An execution that took slots holds them until it ends, and no longer. -/
theorem keeps_slots (valid : lives.Valid) (steps : LivesSteps permit lives after)
    (found : lives executionId = some life) (held : life.admitted = true) :
    ∃ later, after executionId = some later ∧
      later.admitted = !later.execution.status.isTerminal := by
  refine follow (fun later => later.admitted = !later.execution.status.isTerminal) valid ?_ steps
    found ?_
  · intro action before later valid _ step kept
    cases ended : before.execution.status.isTerminal with
    | true => rwa [step.of_terminal valid ended]
    | false =>
      rw [ended] at kept
      cases ends : later.execution.status.isTerminal with
      | true => exact (step.valid valid).not_admitted ends
      | false => exact step.keeps_slots kept ends
  · cases ended : life.execution.status.isTerminal with
    | true => simp [(valid executionId life found).2.not_admitted ended] at held
    | false => exact held

end Lives

end Tinkerfin.Automation
