import Mathlib.Data.List.Induction
import Tinkerfin.Lib.TextLines

/-!
# Server-sent event streams

An event stream is read line by line.  A line names a field and its value, a line that starts with a
colon is a comment, and a blank line dispatches what the fields before it have collected.  A stream
of blocks of fields, each field written with one space behind its colon, is read back block by
block.
-/

namespace EventStream

/-- The name of a field and its value. -/
abbrev Field := List Char × List Char

/-- What the lines read so far have set; `fields` are those since the last blank line. -/
structure Buffers where
  data : List Char := []
  eventType : List Char := []
  lastEventId : List Char := []
  reconnectionTime : Option Nat := none
  fields : List Field := []

/-- A dispatched event with the reconnection time in force and the fields it came from. -/
structure Event where
  eventType : List Char
  data : List Char
  lastEventId : List Char
  reconnectionTime : Option Nat
  fields : List Field

/-! ## Reading -/

/-- The field of a line that is not blank; a comment is none. -/
def readField (line : List Char) : Option Field :=
  if line.head? = some ':' then none
  else
    match line.dropWhile (· ≠ ':') with
    | [] => some (line, [])
    | _ :: value =>
      some (line.takeWhile (· ≠ ':'), if value.head? = some ' ' then value.tail else value)

def Buffers.collect (buffers : Buffers) (field : Field) : Buffers :=
  { buffers with fields := buffers.fields ++ [field] }

/-- Process one field; a field of another name is ignored. -/
def Buffers.process (buffers : Buffers) (field : Field) : Buffers :=
  let collected := buffers.collect field
  if field.1 = "event".toList then { collected with eventType := field.2 }
  else if field.1 = "data".toList then { collected with data := buffers.data ++ field.2 ++ ['\n'] }
  else if field.1 = "id".toList then
    if '\x00' ∈ field.2 then collected else { collected with lastEventId := field.2 }
  else if field.1 = "retry".toList then
    if field.2 ≠ [] ∧ field.2.all Char.isDigit then
      { collected with reconnectionTime := some (Nat.ofDigitChars 10 field.2 0) }
    else collected
  else collected

/-- At a blank line an event is dispatched unless no data was read. -/
def Buffers.dispatch (buffers : Buffers) : List Event :=
  if buffers.data = [] then []
  else
    [{ buffers with
       data := if buffers.data.getLast? = some '\n' then buffers.data.dropLast else buffers.data }]

def Buffers.blank (buffers : Buffers) : Buffers :=
  { buffers with data := [], eventType := [], fields := [] }

def read (buffers : Buffers) : List (List Char) → List Event
  | [] => []
  | [] :: lines => buffers.dispatch ++ read buffers.blank lines
  | line :: lines => read ((readField line).elim buffers buffers.process) lines

/-- The lines that are ended by a line feed; an unfinished last line is discarded. -/
def completeLines (current : List Char) : List Char → List (List Char)
  | [] => []
  | char :: rest =>
    if char = '\n' then current :: completeLines [] rest
    else completeLines (current ++ [char]) rest

def byteOrderMark : Char := Char.ofNat 0xFEFF

/-- The events of a stream, which may start with a byte order mark. -/
def parse (stream : List Char) : List Event :=
  let text := if stream.head? = some byteOrderMark then stream.tail else stream
  read {} (completeLines [] (TextLines.translate text))

/-! ## Written blocks -/

/-- One space separates the value from the colon. -/
def fieldLine (field : Field) : List Char := field.1 ++ ':' :: ' ' :: field.2

/-- The lines of a block, with the blank line that ends it. -/
def blockText (fields : List Field) : List Char :=
  fields.flatMap (fun field => fieldLine field ++ ['\n']) ++ ['\n']

/-- A text in one line. -/
def InLine (text : List Char) : Prop := '\r' ∉ text ∧ '\n' ∉ text

/-- A field that can be written in a line and read from it. -/
structure Writable (field : Field) : Prop where
  named : field.1 ≠ []
  unmarked : byteOrderMark ∉ field.1
  uncolonised : ':' ∉ field.1
  name : InLine field.1
  value : InLine field.2

/-- The events of blocks of fields. -/
def replay (buffers : Buffers) : List (List Field) → List Event
  | [] => []
  | block :: blocks =>
    (block.foldl Buffers.process buffers).dispatch ++
      replay (block.foldl Buffers.process buffers).blank blocks

variable {buffers : Buffers} {field : Field} {fields block : List Field} {blocks : List (List Field)}

theorem readField_fieldLine (writable : Writable field) :
    readField (fieldLine field) = some field := by
  obtain ⟨name, value⟩ := field
  have named : name ≠ [] := writable.named
  have plain : ∀ char ∈ name, (decide (char ≠ ':')) = true := fun char member =>
    decide_eq_true fun colon => writable.uncolonised (colon ▸ member)
  have head : (fieldLine (name, value)).head? ≠ some ':' := by
    obtain ⟨first, rest, rfl⟩ := List.exists_cons_of_ne_nil named
    simpa [fieldLine] using plain first List.mem_cons_self
  rw [readField, if_neg head, fieldLine, List.dropWhile_append_of_pos plain,
    List.takeWhile_append_of_pos plain]
  simp

theorem fieldLine_ne_nil : fieldLine field ≠ [] := by simp [fieldLine]

theorem fieldLine_inLine (writable : Writable field) : InLine (fieldLine field) := by
  obtain ⟨-, -, -, name, value⟩ := writable
  simp only [InLine, fieldLine, List.mem_append, List.mem_cons, not_or]
  exact ⟨⟨name.1, by decide, by decide, value.1⟩, name.2, by decide, by decide, value.2⟩

theorem read_fields {lines : List (List Char)} (writable : ∀ field ∈ block, Writable field) :
    read buffers (block.map fieldLine ++ lines) =
      read (block.foldl Buffers.process buffers) lines := by
  induction block generalizing buffers with
  | nil => rfl
  | cons field block ih =>
    obtain ⟨first, others⟩ := List.forall_mem_cons.mp writable
    rw [List.foldl_cons, ← ih others, List.map_cons, List.cons_append, read.eq_def]
    split
    · next empty => cases empty
    · next empty => exact absurd (List.cons.inj empty).1 fieldLine_ne_nil
    · next equal =>
      obtain ⟨rfl, rfl⟩ := List.cons.inj equal
      rw [readField_fieldLine first]
      rfl

theorem read_blocks (writable : ∀ block ∈ blocks, ∀ field ∈ block, Writable field) :
    read buffers (blocks.flatMap fun block => block.map fieldLine ++ [[]]) =
      replay buffers blocks := by
  induction blocks generalizing buffers with
  | nil => rfl
  | cons block blocks ih =>
    obtain ⟨first, others⟩ := List.forall_mem_cons.mp writable
    rw [List.flatMap_cons, List.append_assoc, read_fields first, List.singleton_append, read,
      ih others, replay]

/-! ## Lines of a stream -/

theorem completeLines_line {current line rest : List Char} (inLine : '\n' ∉ line) :
    completeLines current (line ++ '\n' :: rest) = (current ++ line) :: completeLines [] rest := by
  induction line generalizing current with
  | nil => simp [completeLines]
  | cons char line ih =>
    obtain ⟨other, inner⟩ := List.ne_and_not_mem_of_not_mem_cons inLine
    rw [List.cons_append, completeLines, if_neg (Ne.symm other), ih inner, List.append_assoc]
    rfl

theorem completeLines_block {rest : List Char} (writable : ∀ field ∈ block, Writable field) :
    completeLines [] (blockText block ++ rest) =
      block.map fieldLine ++ [] :: completeLines [] rest := by
  induction block with
  | nil => simp [blockText, completeLines]
  | cons field block ih =>
    obtain ⟨first, others⟩ := List.forall_mem_cons.mp writable
    have text : blockText (field :: block) ++ rest =
        fieldLine field ++ '\n' :: (blockText block ++ rest) := by simp [blockText]
    rw [text, completeLines_line (fieldLine_inLine first).2, ih others]
    rfl

theorem completeLines_blocks (writable : ∀ block ∈ blocks, ∀ field ∈ block, Writable field) :
    completeLines [] (blocks.flatMap blockText) =
      blocks.flatMap fun block => block.map fieldLine ++ [[]] := by
  induction blocks with
  | nil => rfl
  | cons block blocks ih =>
    obtain ⟨first, others⟩ := List.forall_mem_cons.mp writable
    rw [List.flatMap_cons, completeLines_block first, ih others, List.flatMap_cons,
      List.append_assoc, List.singleton_append]

theorem translate_of_no_return {text : List Char} (plain : '\r' ∉ text) :
    TextLines.translate text = text := by
  induction text with
  | nil => rfl
  | cons char text ih =>
    obtain ⟨other, inner⟩ := List.ne_and_not_mem_of_not_mem_cons plain
    rw [TextLines.translate.eq_3, if_neg (Ne.symm other), ih inner]
    intro rest equal
    exact absurd equal.symm other

theorem no_return_blocks (writable : ∀ block ∈ blocks, ∀ field ∈ block, Writable field) :
    '\r' ∉ blocks.flatMap blockText := by
  intro member
  obtain ⟨block, stored, inside⟩ := List.mem_flatMap.mp member
  rcases List.mem_append.mp inside with lines | ends
  · obtain ⟨field, written, text⟩ := List.mem_flatMap.mp lines
    rcases List.mem_append.mp text with line | ends
    · exact (fieldLine_inLine (writable block stored field written)).1 line
    · simp at ends
  · simp at ends

theorem head?_blocks_ne (writable : ∀ block ∈ blocks, ∀ field ∈ block, Writable field) :
    (blocks.flatMap blockText).head? ≠ some byteOrderMark := by
  cases blocks with
  | nil => simp
  | cons block blocks =>
    cases block with
    | nil => simp [blockText, byteOrderMark]
    | cons field block =>
      have first := writable _ List.mem_cons_self field List.mem_cons_self
      obtain ⟨char, rest, name⟩ := List.exists_cons_of_ne_nil first.named
      have other : char ≠ byteOrderMark := fun same =>
        first.unmarked (name ▸ same ▸ List.mem_cons_self)
      simpa [blockText, fieldLine, name] using other

/-- Written blocks are read back: each block dispatches what its own fields say. -/
theorem parse_blocks (writable : ∀ block ∈ blocks, ∀ field ∈ block, Writable field) :
    parse (blocks.flatMap blockText) = replay {} blocks := by
  rw [parse, if_neg (head?_blocks_ne writable)]
  simp only [translate_of_no_return (no_return_blocks writable), completeLines_blocks writable]
  exact read_blocks writable

end EventStream
