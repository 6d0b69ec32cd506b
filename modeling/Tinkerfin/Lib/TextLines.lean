import Mathlib.Data.List.Basic
import Mathlib.Data.List.SplitOn

/-!
# Lines of a text

Carriage returns, alone or in front of a line feed, are read as line feeds.  A line ends behind its
line feed, and the last line may have none.
-/

namespace TextLines

/-- Read every line end as a line feed. -/
def translate : List Char → List Char
  | [] => []
  | '\r' :: '\n' :: rest => '\n' :: translate rest
  | char :: rest => (if char = '\r' then '\n' else char) :: translate rest

/-- The lines of a text with their line feeds. -/
def lines : List Char → List (List Char)
  | [] => []
  | char :: rest =>
    if char = '\n' then
      [char] :: lines rest
    else
      match lines rest with
      | [] => [[char]]
      | line :: others => (char :: line) :: others

/-- A text without the occurrences of a character at its end. -/
def rstrip (char : Char) (text : List Char) : List Char :=
  (text.reverse.dropWhile fun last => last = char).reverse

theorem flatten_lines (text : List Char) : (lines text).flatten = text := by
  induction text with
  | nil => rfl
  | cons char text induction =>
    rw [lines]
    split
    · rw [List.flatten_cons, induction, List.singleton_append]
    · cases rest : lines text with
      | nil =>
        rw [rest, List.flatten_nil] at induction
        rw [← induction]
        rfl
      | cons line others =>
        rw [rest, List.flatten_cons] at induction
        rw [List.flatten_cons, List.cons_append, induction]

theorem lines_ne_nil {text : List Char} (some : text ≠ []) : lines text ≠ [] := by
  intro none
  have whole := flatten_lines text
  rw [none] at whole
  exact some whole.symm

theorem translate_ne_nil {text : List Char} (some : text ≠ []) : translate text ≠ [] := by
  unfold translate
  split
  · exact absurd rfl some
  · exact List.cons_ne_nil _ _
  · exact List.cons_ne_nil _ _

theorem no_return_translate (text : List Char) : '\r' ∉ translate text := by
  induction text using translate.induct with
  | case1 => exact List.not_mem_nil
  | case2 rest ih => simpa [translate] using ih
  | case3 char rest single ih =>
    rw [translate.eq_3 char rest single, List.mem_cons, not_or]
    refine ⟨?_, ih⟩
    split
    · decide
    · next other => exact Ne.symm other

/-- Lines without their ends, put together again. -/
def joined (lines : List (List Char)) : List Char := ['\n'].intercalate lines

@[simp] theorem joined_nil : joined [] = [] := rfl

theorem joined_snoc (taken : List (List Char)) (line : List Char) :
    joined (taken ++ [line]) = joined taken ++ if taken.length = 0 then line else '\n' :: line := by
  induction taken with
  | nil => simp [joined]
  | cons first taken induction =>
    cases taken with
    | nil => simp [joined]
    | cons second taken =>
      simp only [joined, List.cons_append, List.intercalate_cons_cons] at induction ⊢
      rw [induction]
      simp

/-- No part of a split text holds the separator. -/
theorem notMem_of_mem_splitOn {text part : List Char} {separator : Char}
    (member : part ∈ text.splitOn separator) : separator ∉ part := by
  induction text generalizing part with
  | nil =>
    rw [List.splitOn_nil, List.mem_singleton] at member
    exact member ▸ List.not_mem_nil
  | cons char text induction =>
    rw [List.splitOn_cons_eq_if_modifyHead] at member
    split at member
    · rcases List.mem_cons.mp member with rfl | later
      · exact List.not_mem_nil
      · exact induction later
    · next other =>
        obtain ⟨first, rest, split⟩ := List.exists_cons_of_ne_nil (List.splitOn_ne_nil separator text)
        rw [split, List.modifyHead_cons] at member
        rcases List.mem_cons.mp member with rfl | later
        · refine fun inside => (List.mem_cons.mp inside).elim (fun same => ?_) ?_
          · exact other (beq_iff_eq.mpr same.symm)
          · exact induction (split ▸ List.mem_cons_self)
        · exact induction (split ▸ .tail first later)

end TextLines
