import Mathlib.Data.List.Basic

/-!
# Bounded searches

A search appends its matches to those found before.  Under a bound it stops behind the first match
beyond the bound, and says so.
-/

/-- A search under an optional bound, from the matches found before. -/
abbrev BoundedSearch (α : Type*) := (bound : Option Nat) → (found : List α) → List α × Bool

namespace BoundedSearch

variable {α : Type*}

/-- Search for nothing. -/
def nothing : BoundedSearch α := fun _ found => (found, false)

/-- Find one match. -/
def single (item : α) : BoundedSearch α := fun bound found =>
  (found ++ [item], bound.any fun bound => bound < (found ++ [item]).length)

/-- Search on unless the first search stopped. -/
def andThen (first second : BoundedSearch α) : BoundedSearch α := fun bound found =>
  let (found, stopped) := first bound found
  if stopped then (found, true) else second bound found

/-- A search finds a list of matches, in order, and stops as soon as it holds one too many. -/
structure Collects (search : BoundedSearch α) (matched : List α) : Prop where
  unbounded : ∀ found, search none found = (found ++ matched, false)
  bounded : ∀ bound found, found.length ≤ bound → search (some bound) found =
    ((found ++ matched).take (bound + 1), decide (bound < (found ++ matched).length))

theorem Collects.nothing : Collects (nothing : BoundedSearch α) [] where
  unbounded := by simp [BoundedSearch.nothing]
  bounded bound found short := by
    have whole : found.take (bound + 1) = found := List.take_of_length_le (by omega)
    simp [BoundedSearch.nothing, whole, short]

theorem Collects.single (item : α) : Collects (single item) [item] where
  unbounded _ := rfl
  bounded bound found short := by
    have whole : (found ++ [item]).take (bound + 1) = found ++ [item] :=
      List.take_of_length_le (by simpa using short)
    rw [whole]
    rfl

/-- One search behind another finds the matches of both. -/
theorem Collects.andThen {first second : BoundedSearch α} {left right : List α}
    (here : Collects first left) (there : Collects second right) :
    Collects (andThen first second) (left ++ right) where
  unbounded found := by
    rw [BoundedSearch.andThen, here.unbounded]
    simp [there.unbounded]
  bounded bound found short := by
    rw [BoundedSearch.andThen, here.bounded bound found short]
    by_cases full : bound < (found ++ left).length
    · -- The first search is full, so the second one adds nothing to its beginning.
      have more : bound < (found ++ (left ++ right)).length := by
        rw [← List.append_assoc, List.length_append]
        omega
      have same : (found ++ (left ++ right)).take (bound + 1) = (found ++ left).take (bound + 1) := by
        rw [← List.append_assoc]
        exact List.take_append_of_le_length full
      simp only [decide_eq_true full, if_true, decide_eq_true more, same]
    · have whole : (found ++ left).take (bound + 1) = found ++ left :=
        List.take_of_length_le (by omega)
      simp only [decide_eq_false full, Bool.false_eq_true, if_false, whole]
      rw [there.bounded bound _ (by omega), List.append_assoc]

theorem Collects.take {search : BoundedSearch α} {matched : List α} (collects : Collects search matched)
    (bound : Nat) : (search (some bound) []).1 = matched.take (bound + 1) := by
  rw [collects.bounded bound [] (Nat.zero_le _), List.nil_append]

end BoundedSearch
