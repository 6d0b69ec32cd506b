import Tinkerfin.Lib.Machine

/-!
# Parties that share a machine

Every event belongs to a party, and each party sees a part of the state.  Parties are separated if an
event changes nothing that another party sees, and what it changes for its own party depends on
nothing else.  A party then sees a run as if the events of the others had not happened.
-/

namespace Machine

variable {σ ε κ ν : Type*} {next : σ → ε → σ} {owner : ε → κ} {view : κ → σ → ν} {Inv : σ → Prop}

/-- The unwinding conditions, on states that meet an invariant. -/
structure Separated (next : σ → ε → σ) (owner : ε → κ) (view : κ → σ → ν) (Inv : σ → Prop) :
    Prop where
  preserved : ∀ state event, Inv state → Inv (next state event)
  respects : ∀ state event party, Inv state → owner event ≠ party →
    view party (next state event) = view party state
  consistent : ∀ left right event, Inv left → Inv right →
    view (owner event) left = view (owner event) right →
      view (owner event) (next left event) = view (owner event) (next right event)

theorem Separated.view_run [DecidableEq κ] (separated : Separated next owner view Inv) (party : κ)
    (events : List ε) {left right : σ} (holds : Inv left) (also : Inv right)
    (same : view party left = view party right) :
    view party (run next left events) =
      view party (run next right (events.filter fun event => owner event = party)) := by
  induction events generalizing left right with
  | nil => exact same
  | cons event events ih =>
    have kept := separated.preserved left event holds
    by_cases mine : owner event = party
    · subst mine
      rw [List.filter_cons_of_pos (by simp), run_cons, run_cons]
      exact ih kept (separated.preserved right event also)
        (separated.consistent left right event holds also same)
    · rw [List.filter_cons_of_neg (by simp [mine]), run_cons]
      exact ih kept also ((separated.respects left event party holds mine).trans same)

end Machine
