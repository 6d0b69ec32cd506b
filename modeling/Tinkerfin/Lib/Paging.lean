import Mathlib.Tactic.Common

/-!
# Reading in pages

A reading follows the cursors that pages carry until a page carries none.  When every page shows the
piece between the place of its cursor and the place it reaches, a reading that goes on until no
cursor is left shows everything from its cursor on, whatever the lengths of the pieces.
-/

namespace Paging

variable {β γ ρ ε : Type*}

/-- A complete reading from a cursor: every page but the last one names the next cursor. -/
inductive Reads (query : Option γ → Except ε ρ) (next : ρ → Option γ) : Option γ → List ρ → Prop
  | last {cursor : Option γ} {page : ρ} (answer : query cursor = .ok page)
      (done : next page = none) : Reads query next cursor [page]
  | more {cursor : Option γ} {after : γ} {page : ρ} {pages : List ρ}
      (answer : query cursor = .ok page) (goes : next page = some after)
      (rest : Reads query next (some after) pages) : Reads query next cursor (page :: pages)

/-- There is one complete reading from a cursor at most. -/
theorem Reads.unique {query : Option γ → Except ε ρ} {next : ρ → Option γ} {cursor : Option γ}
    {pages others : List ρ} (reads : Reads query next cursor pages)
    (other : Reads query next cursor others) : others = pages := by
  induction reads generalizing others with
  | last answer done =>
    cases other with
    | last again _ => rw [Except.ok.inj (answer.symm.trans again)]
    | more again goes _ =>
      obtain rfl := Except.ok.inj (answer.symm.trans again)
      cases done.symm.trans goes
  | more answer goes _ ih =>
    cases other with
    | last again done =>
      obtain rfl := Except.ok.inj (answer.symm.trans again)
      cases done.symm.trans goes
    | more again leads rest =>
      obtain rfl := Except.ok.inj (answer.symm.trans again)
      obtain rfl := Option.some.inj (goes.symm.trans leads)
      rw [ih rest]

variable {query : Option γ → Except ε ρ} {shown : ρ → List β} {next : ρ → Option γ}

/-! ## Sweeps -/

/-- The pages of a sweep show adjacent pieces: each one what lies between the place of its cursor
and the place it reaches, which is the end unless it names a cursor there. -/
structure Sweeps (piece : Nat → Nat → List β) (total : Nat) (position : Option γ → Nat)
    (good : Option γ → Prop) (query : Option γ → Except ε ρ) (shown : ρ → List β)
    (next : ρ → Option γ) : Prop where
  joins : ∀ {start middle stop}, start ≤ middle → middle ≤ stop →
    piece start middle ++ piece middle stop = piece start stop
  reaches : ∀ cursor page, good cursor → query cursor = .ok page → ∃ reached,
    position cursor ≤ reached ∧ reached ≤ total ∧ shown page = piece (position cursor) reached ∧
      match next page with
      | none => reached = total
      | some after =>
        good (some after) ∧ position (some after) = reached ∧ position cursor < reached

variable {piece : Nat → Nat → List β} {total : Nat} {position : Option γ → Nat}
  {good : Option γ → Prop}

/-- A complete sweep shows everything from its cursor on. -/
theorem Sweeps.shows_all (sweeps : Sweeps piece total position good query shown next)
    {cursor : Option γ} {pages : List ρ} (start : good cursor)
    (reads : Reads query next cursor pages) :
    pages.flatMap shown = piece (position cursor) total := by
  suffices whole : pages.flatMap shown = piece (position cursor) total ∧
      position cursor ≤ total from whole.1
  induction reads with
  | @last cursor page answer done =>
    obtain ⟨reached, forward, inside, shows, ends⟩ := sweeps.reaches cursor page start answer
    rw [done] at ends
    simp only at ends
    subst ends
    exact ⟨by rw [List.flatMap_singleton, shows], forward⟩
  | @more cursor after page pages answer goes rest ih =>
    obtain ⟨reached, forward, inside, shows, follows⟩ := sweeps.reaches cursor page start answer
    rw [goes] at follows
    obtain ⟨again, same, -⟩ := follows
    obtain ⟨whole, -⟩ := ih again
    refine ⟨?_, Nat.le_trans forward inside⟩
    rw [List.flatMap_cons, whole, shows, same, sweeps.joins forward inside]

theorem Sweeps.ends (sweeps : Sweeps piece total position good query shown next)
    (answers : ∀ cursor, good cursor → ∃ page, query cursor = .ok page) {cursor : Option γ}
    (start : good cursor) : ∃ pages, Reads query next cursor pages := by
  induction remaining : total - position cursor using Nat.strongRecOn generalizing cursor with
  | ind count ih =>
    obtain ⟨page, answer⟩ := answers cursor start
    obtain ⟨reached, -, inside, -, follows⟩ := sweeps.reaches cursor page start answer
    cases goes : next page with
    | none => exact ⟨[page], .last answer goes⟩
    | some after =>
      rw [goes] at follows
      obtain ⟨again, same, advanced⟩ := follows
      obtain ⟨pages, reads⟩ := ih _ (by omega) again rfl
      exact ⟨page :: pages, .more answer goes reads⟩

end Paging
