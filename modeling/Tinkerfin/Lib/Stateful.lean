import Mathlib.Tactic.Common

/-!
# Stateful computations that may raise

A computation over a mutable state either returns or raises, and what it wrote before raising stays
written.  `Ensures` is its weakest precondition: one condition on the returned value and the state
left with it, one on the error and the state left with that.  Each combinator has an equation that
moves `Ensures` to its parts, so a program is verified along its own text.
-/

namespace EStateM

variable {ε σ α β : Type}

/-- What holds after a computation, whether it returns or raises. -/
def Ensures (program : EStateM ε σ α) (state : σ) (returned : α → σ → Prop)
    (raised : ε → σ → Prop) : Prop :=
  match program.run state with
  | .ok value final => returned value final
  | .error error final => raised error final

/-- The state a computation leaves, whatever its outcome. -/
def final (program : EStateM ε σ α) (state : σ) : σ :=
  match program.run state with
  | .ok _ final => final
  | .error _ final => final

/-- The value a computation returns, if it does not raise. -/
def value? (program : EStateM ε σ α) (state : σ) : Option α :=
  match program.run state with
  | .ok value _ => some value
  | .error _ _ => none

/-- What a computation returns or raises. -/
def outcome (program : EStateM ε σ α) (state : σ) : Except ε α :=
  match program.run state with
  | .ok value _ => .ok value
  | .error error _ => .error error

variable {program : EStateM ε σ α} {state after : σ} {returned stronger : α → σ → Prop}
  {raised raisedStronger : ε → σ → Prop} {value : α} {error : ε}

theorem Ensures.of_ok (ensures : program.Ensures state returned raised)
    (outcome : program.run state = .ok value after) : returned value after := by
  simpa [Ensures, outcome] using ensures

theorem Ensures.of_error (ensures : program.Ensures state returned raised)
    (outcome : program.run state = .error error after) : raised error after := by
  simpa [Ensures, outcome] using ensures

theorem Ensures.mono (ensures : program.Ensures state stronger raisedStronger)
    (onReturn : ∀ value after, stronger value after → returned value after)
    (onRaise : ∀ error after, raisedStronger error after → raised error after) :
    program.Ensures state returned raised := by
  unfold Ensures at *
  split
  · next outcome => exact onReturn _ _ (by simpa [outcome] using ensures)
  · next outcome => exact onRaise _ _ (by simpa [outcome] using ensures)

theorem Ensures.and (first : program.Ensures state returned raised)
    (second : program.Ensures state stronger raisedStronger) :
    program.Ensures state (fun value after => returned value after ∧ stronger value after)
      (fun error after => raised error after ∧ raisedStronger error after) := by
  unfold Ensures at *
  split
  · next outcome => exact ⟨by simpa [outcome] using first, by simpa [outcome] using second⟩
  · next outcome => exact ⟨by simpa [outcome] using first, by simpa [outcome] using second⟩

theorem Ensures.final {left : σ → Prop}
    (ensures : program.Ensures state (fun _ => left) (fun _ => left)) :
    left (program.final state) := by
  unfold Ensures at ensures
  unfold EStateM.final
  split <;> simp_all

theorem Ensures.of_value (ensures : program.Ensures state returned raised)
    (outcome : program.value? state = some value) : returned value (program.final state) := by
  unfold Ensures at ensures
  unfold value? at outcome
  unfold EStateM.final
  split at outcome <;> simp_all

theorem Ensures.outcome (ensures : program.Ensures state returned raised) :
    (∃ value, program.value? state = some value ∧ returned value (program.final state)) ∨
      program.value? state = none ∧ ∃ error, raised error (program.final state) := by
  unfold Ensures at ensures
  unfold value? EStateM.final
  split at ensures
  · next value after _ => exact .inl ⟨value, rfl, ensures⟩
  · next error after _ => exact .inr ⟨rfl, error, ensures⟩

theorem Ensures.runs (ensures : program.Ensures state returned raised) :
    (∃ value after, returned value after ∧
      ∀ stronger raisedStronger, program.Ensures state stronger raisedStronger ↔
        stronger value after) ∨
    ∃ error after, raised error after ∧
      ∀ stronger raisedStronger, program.Ensures state stronger raisedStronger ↔
        raisedStronger error after := by
  unfold Ensures at ensures ⊢
  cases outcome : program.run state with
  | ok value after =>
    rw [outcome] at ensures
    exact .inl ⟨value, after, ensures, fun _ _ => Iff.rfl⟩
  | error error after =>
    rw [outcome] at ensures
    exact .inr ⟨error, after, ensures, fun _ _ => Iff.rfl⟩

/-! ## Combinators -/

@[simp] theorem ensures_pure : (pure value : EStateM ε σ α).Ensures state returned raised ↔
    returned value state := Iff.rfl

theorem ensures_bind {next : α → EStateM ε σ β} {returned : β → σ → Prop} :
    (program >>= next).Ensures state returned raised ↔
      program.Ensures state (fun value after => (next value).Ensures after returned raised)
        raised := by
  unfold Ensures
  simp only [EStateM.run, bind, EStateM.bind]
  cases program state <;> rfl

@[simp] theorem ensures_map {f : α → β} {returned : β → σ → Prop} :
    (f <$> program).Ensures state returned raised ↔
      program.Ensures state (fun value after => returned (f value) after) raised := by
  unfold Ensures
  simp only [EStateM.run, Functor.map, EStateM.map]
  cases program state <;> rfl

@[simp] theorem final_map {f : α → β} : (f <$> program).final state = program.final state := by
  unfold EStateM.final
  simp only [EStateM.run, Functor.map, EStateM.map]
  cases program state <;> rfl

@[simp] theorem ensures_discard {returned : PUnit → σ → Prop} :
    (discard program).Ensures state returned raised ↔
      program.Ensures state (fun _ => returned ⟨⟩) raised := ensures_map

@[simp] theorem ensures_throw :
    (throw error : EStateM ε σ α).Ensures state returned raised ↔ raised error state := Iff.rfl

theorem ensures_tryCatch {handler : ε → EStateM ε σ α} :
    (tryCatch program handler).Ensures state returned raised ↔
      program.Ensures state returned fun error after =>
        (handler error).Ensures after returned raised := by
  unfold Ensures
  simp only [EStateM.run, tryCatch, tryCatchThe, MonadExceptOf.tryCatch, EStateM.tryCatch]
  cases program state <;> rfl

@[simp] theorem ensures_get {returned : σ → σ → Prop} :
    (get : EStateM ε σ σ).Ensures state returned raised ↔ returned state state := Iff.rfl

@[simp] theorem ensures_set {returned : PUnit → σ → Prop} :
    (set after : EStateM ε σ PUnit).Ensures state returned raised ↔ returned ⟨⟩ after := Iff.rfl

@[simp] theorem ensures_modify {f : σ → σ} {returned : PUnit → σ → Prop} :
    (modify f : EStateM ε σ PUnit).Ensures state returned raised ↔ returned ⟨⟩ (f state) := Iff.rfl

theorem ensures_ite {condition : Prop} [Decidable condition] {other : EStateM ε σ α} :
    (if condition then program else other).Ensures state returned raised ↔
      (condition → program.Ensures state returned raised) ∧
        (¬condition → other.Ensures state returned raised) := by
  split <;> simp_all

theorem ensures_guard {condition : Prop} [Decidable condition] {returned : PUnit → σ → Prop} :
    (if condition then throw error else pure ⟨⟩ : EStateM ε σ PUnit).Ensures state returned raised ↔
      (condition → raised error state) ∧ (¬condition → returned ⟨⟩ state) := by
  simp only [ensures_ite, ensures_throw, ensures_pure]

@[simp] theorem ensures_adaptExcept {ε' : Type} {f : ε → ε'} {raised : ε' → σ → Prop} :
    (program.adaptExcept f).Ensures state returned raised ↔
      program.Ensures state returned fun error => raised (f error) := by
  unfold Ensures
  simp only [EStateM.run, EStateM.adaptExcept]
  cases program state <;> rfl

theorem ensures_ofExcept {outcome : Except ε α} :
    (ofExcept outcome : EStateM ε σ α).Ensures state returned raised ↔
      (∀ value, outcome = .ok value → returned value state) ∧
        ∀ error, outcome = .error error → raised error state := by
  cases outcome <;> simp [ofExcept]

/-- A computation raises one of some errors and changes nothing. -/
def Fails (program : EStateM ε σ α) (state : σ) (errors : ε → Prop) : Prop :=
  program.Ensures state (fun _ _ => False) fun error after => errors error ∧ after = state

theorem Fails.raises {errors : ε → Prop} (fails : program.Fails state errors) :
    ∃ error, program.outcome state = .error error ∧ errors error ∧ program.final state = state := by
  unfold Fails Ensures at fails
  unfold outcome EStateM.final
  split at fails
  · exact fails.elim
  · next error _ _ => exact ⟨error, rfl, fails⟩

/-! ## Loops -/

theorem ensures_forM {items : List β} {body : β → EStateM ε σ PUnit} {kept : σ → Prop}
    (holds : kept state)
    (round : ∀ item ∈ items, ∀ state, kept state →
      (body item).Ensures state (fun _ => kept) raised) :
    (forM items body).Ensures state (fun _ => kept) raised := by
  induction items generalizing state with
  | nil => simpa using holds
  | cons item items ih =>
    simp only [List.forM_cons, ensures_bind]
    refine (round item List.mem_cons_self state holds).mono ?_ fun _ _ => id
    exact fun _ after kept => ih kept fun other member => round other (.tail _ member)

theorem ensures_forM_foldl {items : List β} {body : β → EStateM ε σ PUnit} {change : σ → β → σ}
    (kept : σ → Prop) {returned : PUnit → σ → Prop} (start : kept state)
    (preserved : ∀ item ∈ items, ∀ state, kept state → kept (change state item))
    (round : ∀ item ∈ items, ∀ state returned, kept state →
      returned ⟨⟩ (change state item) → (body item).Ensures state returned raised)
    (holds : returned ⟨⟩ (items.foldl change state)) :
    (forM items body).Ensures state returned raised := by
  induction items generalizing state with
  | nil => simpa using holds
  | cons item items ih =>
    simp only [List.forM_cons, ensures_bind]
    refine round item List.mem_cons_self state _ start ?_
    exact ih (preserved item List.mem_cons_self state start)
      (fun other member => preserved other (.tail _ member))
      (fun other member => round other (.tail _ member)) holds

end EStateM
