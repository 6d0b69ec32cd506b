import Mathlib.Data.List.Basic
import Mathlib.Data.List.TakeDrop

/-!
# Segments of a list

`segment values start stop` is the part of a list between two positions.  Adjacent segments append,
a segment of a growing list is stable once its end is inside the list, and the segment of numbers
counted from one is the range between the positions.
-/

namespace List

variable {α β : Type*} {values extra : List α} {start middle stop : Nat}

/-- The values from position `start` up to, and without, position `stop`. -/
def segment (values : List α) (start stop : Nat) : List α := (values.take stop).drop start

theorem length_segment (inside : stop ≤ values.length) :
    (values.segment start stop).length = stop - start := by
  simp [segment, Nat.min_eq_left inside]

theorem segment_eq_nil (reversed : stop ≤ start) : values.segment start stop = [] := by
  apply List.drop_eq_nil_of_le
  exact Nat.le_trans (List.length_take_le _ _) reversed

/-- Adjacent segments append. -/
theorem segment_append (first : start ≤ middle) (second : middle ≤ stop) :
    values.segment start middle ++ values.segment middle stop = values.segment start stop := by
  have split : values.take stop = values.take middle ++ (values.take stop).drop middle := by
    conv_lhs => rw [← List.take_append_drop middle (values.take stop)]
    rw [List.take_take, Nat.min_eq_left second]
  rcases Nat.lt_or_ge start middle with before | reached
  · rcases Nat.le_total start (values.take middle).length with inside | outside
    · rw [segment, segment, segment, split, List.drop_append_of_le_length inside, ← split]
    · have short : values.length ≤ middle := by
        rw [List.length_take] at outside
        omega
      have rest : values.segment middle stop = [] :=
        List.drop_eq_nil_of_le (Nat.le_trans (List.length_take_le' _ _) short)
      rw [rest, List.append_nil, segment, segment, List.take_of_length_le short,
        List.take_of_length_le (Nat.le_trans short second)]
  · obtain rfl := Nat.le_antisymm first reached
    rw [segment_eq_nil (Nat.le_refl _), List.nil_append]

theorem segment_append_right (inside : stop ≤ values.length) :
    (values ++ extra).segment start stop = values.segment start stop := by
  rw [segment, segment, List.take_append_of_le_length inside]

theorem map_segment (f : α → β) :
    (values.segment start stop).map f = (values.map f).segment start stop := by
  rw [segment, segment, List.map_drop, List.map_take]

theorem segment_range' {count : Nat} (inside : stop ≤ count) :
    (List.range' 1 count).segment start stop = List.range' (start + 1) (stop - start) := by
  rw [segment, List.take_range'_of_length_ge inside, List.drop_range', Nat.mul_one, Nat.add_comm]

end List
