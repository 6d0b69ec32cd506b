import Tinkerfin.Lib.Base64
import Tinkerfin.Lib.Paging
import Tinkerfin.Lib.TextLines
import Tinkerfin.Lib.Utf8
import Tinkerfin.Sandbox.RootedTree

/-!
# Paged reads

A page holds lines of a text from an offset on.  It ends at a number of lines, at the end of the file
or in front of the first line that would make it too large.
-/

namespace Tinkerfin.Sandbox.Rooted

attribute [local instance] Utf8.lawfulEvents

structure ReadResult where
  encoding : String := "utf-8"
  content : String := ""
  totalLines : Option Nat := none
  startLine : Option Nat := none
  endLine : Option Nat := none
  nextOffset : Option Nat := none
  noLinesRequested : Bool := false
  deriving DecidableEq

/-! ## The page -/

def truncationMessage : String :=
  "\n\n[Output was truncated due to size limits. " ++
  "This paginated read result exceeded the sandbox stdout limit. " ++
  "Continue reading with a larger offset or smaller limit to inspect " ++
  "the rest of the file.]"

/-- The bytes that a page may hold in front of the message. -/
@[irreducible] def effectiveOutputLimit : Nat := 500 * 1024 - (Utf8.encode truncationMessage.toList).length

structure PageState where
  lineCount : Nat
  returnedLines : Nat
  partsOut : List Char
  atEof : Bool
  outputTruncated : Bool
  currentBytes : Nat

def withoutLineEnd (rawLine : List Char) : List Char :=
  TextLines.rstrip '\r' (TextLines.rstrip '\n' rawLine)

/-- Skip the lines in front of the offset: the lines counted, whether the file ended, and the unread
lines. -/
def skipLines (offset : Nat) : (unread : List (List Char)) → (lineCount : Nat) →
    Nat × Bool × List (List Char)
  | [], lineCount => (lineCount, lineCount < offset, [])
  | rawLine :: unread, lineCount =>
    if lineCount < offset then
      skipLines offset unread (lineCount + 1)
    else
      (lineCount, false, rawLine :: unread)

/-- Take lines onto a page. -/
def takeLines (limit : Nat) : (unread : List (List Char)) → PageState →
    PageState × List (List Char)
  | [], page => (if page.returnedLines < limit then { page with atEof := true } else page, [])
  | rawLine :: unread, page =>
    if page.returnedLines < limit then
      let page := { page with lineCount := page.lineCount + 1 }
      let line := withoutLineEnd rawLine
      let piece := if page.returnedLines = 0 then line else '\n' :: line
      let encodedPiece := Utf8.encode piece
      if effectiveOutputLimit < page.currentBytes + encodedPiece.length then
        let remaining := effectiveOutputLimit - page.currentBytes
        let kept := Utf8.decode [] (encodedPiece.take remaining)
        ({ page with
            outputTruncated := true
            partsOut := page.partsOut ++ kept
            currentBytes := page.currentBytes + (Utf8.encode kept).length }, unread)
      else
        takeLines limit unread
          { page with
            partsOut := page.partsOut ++ piece
            currentBytes := page.currentBytes + encodedPiece.length
            returnedLines := page.returnedLines + 1 }
    else
      (page, rawLine :: unread)

/-- The standard alphabet, with padding. -/
def base64Encode (content : List UInt8) : String :=
  let chars := Base64.encode content
  String.ofList ((chars ++ Base64.padding chars.length).map fun char =>
    if char = '-' then '+' else if char = '_' then '/' else char)

/-- Whether the stream stands at the size of the file.  The position behind a carriage return at the
end is another number. -/
def PageState.reachesEnd (page : PageState) (unread : List (List Char)) (text : List Char) : Bool :=
  page.atEof || (unread.isEmpty && text.getLast? ≠ some '\r')

/-- What is reported about a page, of a file of some size with some number of lines. -/
def pageResult (size : Nat) (text : List Char) (lines offset : Nat) (page : PageState)
    (unread : List (List Char)) : Except Failure ReadResult := do
  let atEof := page.reachesEnd unread text
  if page.returnedLines = 0 ∧ page.outputTruncated = false then
    throw (.rooted "offset_exceeds_file_length" ("Line offset " ++ toString offset ++
      " exceeds file length (" ++ toString page.lineCount ++ " lines)"))
  let totalLines :=
    if atEof then some page.lineCount else if size ≤ 1024 * 1024 then some lines else none
  -- A page that is cut in its first line counts it as returned.
  let returnedLines :=
    if page.outputTruncated ∧ page.returnedLines = 0 then 1 else page.returnedLines
  let endLine := offset + returnedLines
  let nextOffset := if totalLines.any fun totalLines => totalLines ≤ endLine then none else some endLine
  return {
    content := String.ofList page.partsOut ++ if page.outputTruncated then truncationMessage else ""
    totalLines
    startLine := some (offset + 1)
    endLine := some endLine
    nextOffset }

/-- Read a page of a text, of a file of some size. -/
def readText (size : Nat) (text : List Char) (offset limit : Nat) : Except Failure ReadResult :=
  let lines := TextLines.lines (TextLines.translate text)
  let (lineCount, atEof, unread) := skipLines offset lines 0
  let page : PageState :=
    { lineCount, returnedLines := 0, partsOut := [], atEof, outputTruncated := false
      currentBytes := 0 }
  let (page, unread) := if atEof then (page, unread) else takeLines limit unread page
  pageResult size text lines.length offset page unread

def readFile (fs : FileSystem) (path : String) (offset limit : Int) (binary : Bool) :
    Except Failure ReadResult :=
  match validateVirtualPath path with
  | none => .error .exdev
  | some virtualParts => do
    let offset := (max offset 0).toNat
    let limit := (max limit 0).toNat
    let target ← fs.openPath virtualParts
    if target.kind ≠ .regular then
      throw (.rooted "not_a_file" "path is not a regular file")
    let content := fs.content target.identity
    if content.length = 0 then
      return { content := "System reminder: File exists but has empty contents" }
    if binary ∨ none ∈ (Utf8.scan none (content.take 8192)).1 then
      let maxBinaryBytes := 500 * 1024
      if maxBinaryBytes < content.length then
        throw (.rooted "binary_too_large" ("Binary file exceeds maximum preview size of " ++
          toString maxBinaryBytes ++ " bytes"))
      return { encoding := "base64", content := base64Encode content }
    if limit = 0 then
      return { noLinesRequested := true }
    -- Raised by the first read of the bad bytes; a page that ends before them is left out.
    match Utf8.decodeStrict content with
    | none => throw .undecodable
    | some text => readText content.length text offset limit

/-! ## One page -/

open TextLines (joined joined_snoc)

/-- The lines of a text, without their ends. -/
def fileLines (text : List Char) : List (List Char) :=
  (TextLines.lines (TextLines.translate text)).map withoutLineEnd

/-- The page holds complete lines. -/
structure PageState.Holds (page : PageState) (taken : List (List Char)) : Prop where
  count : page.returnedLines = taken.length
  text : page.partsOut = joined taken
  bytes : page.currentBytes = (Utf8.encode page.partsOut).length
  fits : page.currentBytes ≤ effectiveOutputLimit
  uncut : page.outputTruncated = false

/-- The page holds complete lines, and the beginning of one that would not fit. -/
structure PageState.Cut (page : PageState) (taken : List (List Char)) (line : List Char) : Prop where
  count : page.returnedLines = taken.length
  complete : joined taken <+: page.partsOut
  part : page.partsOut <+: joined (taken ++ [line])
  fits : (Utf8.encode page.partsOut).length ≤ effectiveOutputLimit
  large : effectiveOutputLimit < (Utf8.encode (joined (taken ++ [line]))).length
  cut : page.outputTruncated = true

section Taking

variable {limit offset : Nat} {page : PageState} {taken : List (List Char)}

theorem PageState.Holds.encode_snoc (holds : page.Holds taken) (line : List Char) :
    (Utf8.encode (joined (taken ++ [line]))).length = page.currentBytes +
      (Utf8.encode (if page.returnedLines = 0 then line else '\n' :: line)).length := by
  rw [joined_snoc, Utf8.encode_append, List.length_append, holds.bytes, holds.text, holds.count]

/-- Lines are taken up to the limit, to the end of the file, or in front of one that is cut. -/
theorem takeLines_spec (unread : List (List Char)) (holds : page.Holds taken)
    (short : taken.length ≤ limit) (unended : page.atEof = false) :
    ∃ more rest, unread = more ++ rest ∧
      let lines := taken ++ more.map withoutLineEnd
      let result := takeLines limit unread page
      lines.length ≤ limit ∧
      (result.1.Holds lines ∧ result.1.lineCount = page.lineCount + more.length ∧ result.2 = rest ∧
          (rest = [] ∨ lines.length = limit) ∧ (result.1.atEof = true → rest = []) ∨
        ∃ rawLine others, rest = rawLine :: others ∧ result.1.Cut lines (withoutLineEnd rawLine) ∧
          result.1.lineCount = page.lineCount + more.length + 1 ∧ result.2 = others ∧
          result.1.atEof = false) := by
  induction unread generalizing page taken with
  | nil =>
    refine ⟨[], [], rfl, ?_⟩
    simp only [List.map_nil, List.append_nil, takeLines]
    refine ⟨short, .inl ⟨?_, ?_, trivial, .inl trivial, fun _ => trivial⟩⟩
    · split
      · exact ⟨holds.count, holds.text, holds.bytes, holds.fits, holds.uncut⟩
      · exact holds
    · split <;> rfl
  | cons rawLine unread induction =>
    by_cases room : page.returnedLines < limit
    · have size := holds.encode_snoc (withoutLineEnd rawLine)
      have longer := joined_snoc taken (withoutLineEnd rawLine)
      rw [← holds.count, ← holds.text] at longer
      simp only [takeLines, if_pos room]
      generalize (if page.returnedLines = 0 then withoutLineEnd rawLine
        else '\n' :: withoutLineEnd rawLine) = piece at size longer ⊢
      split
      · next large =>
          refine ⟨[], rawLine :: unread, rfl, ?_⟩
          simp only [List.map_nil, List.append_nil]
          obtain ⟨kept, same, small⟩ :=
            Utf8.decode_take piece (effectiveOutputLimit - page.currentBytes)
          have complete : joined taken <+: page.partsOut := holds.text ▸ List.prefix_rfl
          refine ⟨short,
            .inr ⟨rawLine, unread, rfl, ⟨holds.count, ?_, ?_, ?_, ?_, rfl⟩, rfl, rfl, unended⟩⟩
          · exact complete.trans (List.prefix_append _ _)
          · rw [longer]
            exact (List.prefix_append_right_inj _).mpr (same ▸ List.take_prefix _ _)
          · have fits := holds.fits
            rw [same, Utf8.encode_append, List.length_append, ← holds.bytes]
            omega
          · exact size ▸ large
      · next small =>
          have next : PageState.Holds
              { page with
                lineCount := page.lineCount + 1
                partsOut := page.partsOut ++ piece
                currentBytes := page.currentBytes + (Utf8.encode piece).length
                returnedLines := page.returnedLines + 1 }
              (taken ++ [withoutLineEnd rawLine]) := by
            refine ⟨?_, longer.symm, ?_, Nat.not_lt.mp small, holds.uncut⟩
            · rw [List.length_append, ← holds.count]
              rfl
            · rw [Utf8.encode_append, List.length_append, ← holds.bytes]
          have length : (taken ++ [withoutLineEnd rawLine]).length ≤ limit := by
            rw [List.length_append, ← holds.count]
            exact room
          obtain ⟨more, rest, split, within, outcome⟩ := induction next length unended
          refine ⟨rawLine :: more, rest, by rw [split, List.cons_append], ?_⟩
          have shifted : page.lineCount + 1 + more.length =
              page.lineCount + (rawLine :: more).length := by
            rw [List.length_cons]
            omega
          simp only [List.append_assoc, List.singleton_append, shifted] at within outcome
          exact ⟨within, outcome⟩
    · refine ⟨[], rawLine :: unread, rfl, ?_⟩
      simp only [List.map_nil, List.append_nil, takeLines, if_neg room]
      refine ⟨short, .inl ⟨holds, rfl, trivial, .inr ?_, ?_⟩⟩
      · rw [holds.count] at room
        omega
      · rw [unended]
        nofun

theorem skipLines_spec {unread : List (List Char)} {lineCount : Nat} (before : lineCount ≤ offset)
    (inside : offset < lineCount + unread.length) :
    skipLines offset unread lineCount = (offset, false, unread.drop (offset - lineCount)) := by
  induction unread generalizing lineCount with
  | nil => exact absurd inside (by simpa using before)
  | cons rawLine unread induction =>
    rw [skipLines]
    split
    · next left =>
        rw [List.length_cons] at inside
        rw [induction left (by omega)]
        have one : offset - lineCount = (offset - (lineCount + 1)) + 1 := by omega
        rw [one, List.drop_succ_cons]
    · next reached =>
        obtain rfl : lineCount = offset := by omega
        rw [Nat.sub_self, List.drop_zero]

end Taking

/-! ## What a page reports -/

/-- Some lines of a file. -/
def slice (lines : List (List Char)) (offset finish : Nat) : List (List Char) :=
  (lines.drop offset).take (finish - offset)

/-- The bytes of lines on a page. -/
def sizeOf (lines : List (List Char)) : Nat := (Utf8.encode (joined lines)).length

/-- What stands on a page of the lines from an offset to another. -/
inductive Shows (lines : List (List Char)) (offset finish : Nat) (content : String) : Prop
  /-- The lines alone. -/
  | whole (fits : sizeOf (slice lines offset finish) ≤ effectiveOutputLimit)
      (same : content = String.ofList (joined (slice lines offset finish)))
  /-- The lines and the beginning of the next one, which does not fit. -/
  | cutBehind (part : List Char) (complete : joined (slice lines offset finish) <+: part)
      (beginning : part <+: joined (slice lines offset (finish + 1)))
      (fits : (Utf8.encode part).length ≤ effectiveOutputLimit)
      (large : effectiveOutputLimit < sizeOf (slice lines offset (finish + 1)))
      (inside : finish < lines.length)
      (marked : content = String.ofList part ++ truncationMessage)
  /-- The beginning of one line, which does not fit on any page. -/
  | cutInside (part : List Char) (single : finish = offset + 1)
      (beginning : part <+: joined (slice lines offset finish))
      (fits : (Utf8.encode part).length ≤ effectiveOutputLimit)
      (large : effectiveOutputLimit < sizeOf (slice lines offset finish))
      (marked : content = String.ofList part ++ truncationMessage)

/-- A page from an offset to another. -/
structure PageOf (lines : List (List Char)) (limit offset finish : Nat) (page : ReadResult) : Prop where
  starts : page.startLine = some (offset + 1)
  ends : page.endLine = some finish
  moves : offset < finish
  inside : finish ≤ lines.length
  bounded : finish ≤ offset + limit
  shows : Shows lines offset finish page.content
  total : ∀ total, page.totalLines = some total → total = lines.length
  next : page.nextOffset = if finish = lines.length then none else some finish

section Reporting

variable {size offset : Nat} {text : List Char} {page : PageState} {unread : List (List Char)}

/-- The report of a page that returned a line or was cut. -/
theorem pageResult_spec (size lines offset finish : Nat)
    (useful : page.returnedLines ≠ 0 ∨ page.outputTruncated = true)
    (ends : finish = offset + if page.outputTruncated ∧ page.returnedLines = 0 then 1
      else page.returnedLines)
    (counted : page.reachesEnd unread text = true → page.lineCount = lines)
    (inside : finish ≤ lines)
    (known : finish = lines → page.reachesEnd unread text = true ∨ size ≤ 1024 * 1024) :
    ∃ result, pageResult size text lines offset page unread = .ok result ∧
      result.startLine = some (offset + 1) ∧ result.endLine = some finish ∧
      result.content = String.ofList page.partsOut ++
        (if page.outputTruncated then truncationMessage else "") ∧
      (∀ total, result.totalLines = some total → total = lines) ∧
      result.nextOffset = if finish = lines then none else some finish := by
  have silent : ¬(page.returnedLines = 0 ∧ page.outputTruncated = false) := by
    rintro ⟨none, uncut⟩
    exact useful.elim (· none) fun cut => absurd (uncut.symm.trans cut) nofun
  simp only [pageResult, if_neg silent, ← ends]
  generalize page.reachesEnd unread text = atEof at counted known ⊢
  have right : ∀ total, (if atEof then some page.lineCount
      else if size ≤ 1024 * 1024 then some lines else none) = some total → total = lines := by
    intro total reported
    split at reported
    · next eof => exact Option.some.inj reported ▸ counted eof
    · split at reported
      · exact (Option.some.inj reported).symm
      · cases reported
  have atEnd : finish = lines → (if atEof then some page.lineCount
      else if size ≤ 1024 * 1024 then some lines else none) = some lines := by
    intro last
    rcases known last with eof | small
    · rw [if_pos eof, counted eof]
    · split
      · next eof => rw [counted eof]
      · rfl
  generalize (if atEof then some page.lineCount
    else if size ≤ 1024 * 1024 then some lines else none) = totalLines at right atEnd ⊢
  refine ⟨_, rfl, rfl, rfl, rfl, right, ?_⟩
  by_cases last : finish = lines
  · simp [atEnd last, last]
  · have more : (totalLines.any fun total => total ≤ finish) = false := by
      cases totalLines with
      | none => rfl
      | some total =>
        have same := right total rfl
        rw [Option.any_some, decide_eq_false_iff_not]
        omega
    simp [more, last]

/-- A page inside of a text. -/
theorem readText_spec {limit : Nat} (positive : 0 < limit) (inside : offset < (fileLines text).length)
    (ends : size ≤ 1024 * 1024 ∨ text.getLast? ≠ some '\r') :
    ∃ finish result, readText size text offset limit = .ok result ∧
      PageOf (fileLines text) limit offset finish result := by
  have same : fileLines text = (TextLines.lines (TextLines.translate text)).map withoutLineEnd := rfl
  have length : (fileLines text).length = (TextLines.lines (TextLines.translate text)).length :=
    List.length_map _
  have dropped : (fileLines text).drop offset =
      ((TextLines.lines (TextLines.translate text)).drop offset).map withoutLineEnd := by
    rw [same, List.map_drop]
  have remaining := congrArg List.length dropped
  rw [List.length_map, List.length_drop] at remaining
  simp only [readText]
  rw [skipLines_spec (Nat.zero_le offset) (by omega)]
  simp only [Nat.sub_zero, Bool.false_eq_true, if_false]
  rw [← length]
  generalize (TextLines.lines (TextLines.translate text)).drop offset = unread at dropped remaining ⊢
  obtain ⟨more, rest, rfl, within, outcome⟩ := takeLines_spec unread
    (show PageState.Holds { lineCount := offset, returnedLines := 0, partsOut := [], atEof := false
                            outputTruncated := false, currentBytes := 0 } [] from
      ⟨rfl, rfl, rfl, Nat.zero_le _, rfl⟩) (Nat.zero_le limit) rfl
  rw [List.nil_append, List.length_map] at within
  rw [List.map_append] at dropped
  rw [List.length_append] at remaining
  rw [List.nil_append] at outcome
  have complete : slice (fileLines text) offset (offset + more.length) = more.map withoutLineEnd := by
    rw [slice, dropped, Nat.add_sub_cancel_left]
    exact List.take_left' (List.length_map _)
  generalize takeLines limit (more ++ rest) _ = taken at outcome ⊢
  obtain ⟨page, unread⟩ := taken
  simp only at outcome ⊢
  rcases outcome with ⟨holds, counted, rfl, stopped, eof⟩ |
    ⟨rawLine, others, rfl, cut, counted, rfl, unended⟩
  · have returned : page.returnedLines = more.length := by rw [holds.count, List.length_map]
    have moves : more.length ≠ 0 := by
      rcases stopped with rfl | full
      · rw [List.length_nil] at remaining
        omega
      · rw [List.length_map] at full
        omega
    have atEnd (ended : page.reachesEnd unread text = true) : unread.length = 0 := by
      rw [PageState.reachesEnd, Bool.or_eq_true, Bool.and_eq_true, List.isEmpty_iff] at ended
      exact List.length_eq_zero_iff.mpr (ended.elim eof And.left)
    have known (last : offset + more.length = (fileLines text).length) :
        page.reachesEnd unread text = true ∨ size ≤ 1024 * 1024 := by
      have none : unread = [] := List.length_eq_zero_iff.mp (by omega)
      refine ends.symm.imp_left fun plain => ?_
      simp [PageState.reachesEnd, none, plain]
    obtain ⟨result, reported, starts, endLine, content, total, next⟩ := pageResult_spec
      size (fileLines text).length offset (offset + more.length) (.inl (returned ▸ moves))
      (by simp [holds.uncut, returned]) (fun ended => by have := atEnd ended; omega) (by omega) known
    refine ⟨_, result, reported, starts, endLine, by omega, by omega, by omega, ?_, total, next⟩
    refine .whole ?_ ?_
    · rw [sizeOf, complete, ← holds.text, ← holds.bytes]
      exact holds.fits
    · rw [content, complete, ← holds.text, holds.uncut]
      simp
  · have returned : page.returnedLines = more.length := by rw [cut.count, List.length_map]
    rw [List.length_cons] at remaining
    have atEnd (ended : page.reachesEnd unread text = true) : unread.length = 0 := by
      rw [PageState.reachesEnd, unended, Bool.false_or, Bool.and_eq_true, List.isEmpty_iff] at ended
      exact List.length_eq_zero_iff.mpr ended.1
    have following : slice (fileLines text) offset (offset + more.length + 1) =
        more.map withoutLineEnd ++ [withoutLineEnd rawLine] := by
      have split : (fileLines text).drop offset = (more.map withoutLineEnd ++ [withoutLineEnd rawLine]) ++
          unread.map withoutLineEnd := by
        rw [dropped]
        simp
      rw [slice, split, show offset + more.length + 1 - offset = more.length + 1 by omega]
      exact List.take_left' (by simp)
    have marked {result : ReadResult} (content : result.content = String.ofList page.partsOut ++
        if page.outputTruncated then truncationMessage else "") :
        result.content = String.ofList page.partsOut ++ truncationMessage := by
      rw [content, if_pos cut.cut]
    have counts (ended : page.reachesEnd unread text = true) :
        page.lineCount = (fileLines text).length := by
      have none := atEnd ended
      omega
    by_cases first : more.length = 0
    · -- The first line is too large, so it alone is returned.
      have known (last : offset + 1 = (fileLines text).length) :
          page.reachesEnd unread text = true ∨ size ≤ 1024 * 1024 := by
        have none : unread = [] := List.length_eq_zero_iff.mp (by omega)
        refine ends.symm.imp_left fun plain => ?_
        simp [PageState.reachesEnd, none, plain]
      obtain ⟨result, reported, starts, endLine, content, total, next⟩ := pageResult_spec
        size (fileLines text).length offset (offset + 1) (.inr cut.cut)
        (by simp [cut.cut, returned, first]) counts (by omega) known
      refine ⟨_, result, reported, starts, endLine, by omega, by omega, by omega, ?_, total, next⟩
      rw [first, Nat.add_zero] at following
      refine .cutInside page.partsOut rfl ?_ cut.fits ?_ (marked content)
      · rw [following]
        exact cut.part
      · rw [sizeOf, following]
        exact cut.large
    · obtain ⟨result, reported, starts, endLine, content, total, next⟩ := pageResult_spec
        size (fileLines text).length offset (offset + more.length) (.inr cut.cut)
        (by simp [returned, first]) counts (by omega) (fun last => by omega)
      refine ⟨_, result, reported, starts, endLine, by omega, by omega, by omega, ?_, total, next⟩
      refine .cutBehind page.partsOut ?_ ?_ cut.fits ?_ (by omega) (marked content)
      · rw [complete]
        exact cut.complete
      · rw [following]
        exact cut.part
      · rw [sizeOf, following]
        exact cut.large

end Reporting

/-! ## A whole reading -/

/-- Pages that follow each other from an offset to the end of a file. -/
inductive Covers (lines : List (List Char)) (limit : Nat) : (offset : Nat) → List ReadResult → Prop
  | done : Covers lines limit lines.length []
  | page {offset finish : Nat} {page : ReadResult} {pages : List ReadResult}
      (here : PageOf lines limit offset finish page) (rest : Covers lines limit finish pages) :
      Covers lines limit offset (page :: pages)

/-- A reading page by page from the front. -/
def PagedRead (fs : FileSystem) (path : String) (limit : Int) : List ReadResult → Prop :=
  Paging.Reads (fun offset => readFile fs path (offset.getD 0 : Nat) limit false)
    ReadResult.nextOffset none

section Reading

variable {fs : FileSystem} {path : String} {virtualParts : List String} {target : Stat}
  {text : List Char} {limit : Int}

/-- A file of UTF-8 is read as text. -/
theorem readFile_text (valid : validateVirtualPath path = some virtualParts)
    (opened : fs.openPath virtualParts = .ok target) (regular : target.kind = .regular)
    (utf8 : fs.content target.identity = Utf8.encode text) (some : text ≠ []) (positive : 0 < limit)
    (offset : Nat) : readFile fs path offset limit false =
      readText (Utf8.encode text).length text offset limit.toNat := by
  have bytes : (Utf8.encode text).length ≠ 0 := by
    intro none
    have decoded := Utf8.decode_encode [] text
    rw [List.length_eq_zero_iff.mp none] at decoded
    exact some decoded.symm
  have wanted : (max limit 0).toNat = limit.toNat := by omega
  have lines : limit.toNat ≠ 0 := by omega
  have front : (max (offset : Int) 0).toNat = offset := by omega
  have clean := Utf8.none_notMem_scan_take text 8192
  simp [readFile, valid, opened, regular, utf8, bind, Except.bind, bytes, wanted, lines, front, clean,
    Utf8.decodeStrict_encode]

theorem pagedRead_covers (valid : validateVirtualPath path = some virtualParts)
    (opened : fs.openPath virtualParts = .ok target) (regular : target.kind = .regular)
    (utf8 : fs.content target.identity = Utf8.encode text) (positive : 0 < limit)
    (ends : (Utf8.encode text).length ≤ 1024 * 1024 ∨ text.getLast? ≠ some '\r')
    (offset : Option Nat) (inside : offset.getD 0 < (fileLines text).length) :
    ∃ pages, Paging.Reads (fun offset => readFile fs path (offset.getD 0 : Nat) limit false)
        ReadResult.nextOffset offset pages ∧
      Covers (fileLines text) limit.toNat (offset.getD 0) pages := by
  have some : text ≠ [] := by
    rintro rfl
    exact absurd inside (Nat.not_lt_zero _)
  obtain ⟨finish, page, returned, here⟩ :=
    readText_spec (show 0 < limit.toNat by omega) inside ends
  rw [← readFile_text valid opened regular utf8 some positive] at returned
  have next := here.next
  by_cases last : finish = (fileLines text).length
  · rw [if_pos last] at next
    exact ⟨[page], .last returned next, .page here (last ▸ .done)⟩
  · have moves := here.moves
    have within := here.inside
    rw [if_neg last] at next
    obtain ⟨pages, reads, covers⟩ := pagedRead_covers valid opened regular utf8 positive ends
      (.some finish) (show finish < _ by omega)
    exact ⟨page :: pages, .more returned next reads, .page here covers⟩
termination_by (fileLines text).length - offset.getD 0
decreasing_by
  simp only [Option.getD_some]
  omega

/-- A reading comes to its end, and its pages cover the file. -/
theorem pagedRead_exact (valid : validateVirtualPath path = some virtualParts)
    (opened : fs.openPath virtualParts = .ok target) (regular : target.kind = .regular)
    (utf8 : fs.content target.identity = Utf8.encode text) (positive : 0 < limit)
    (ends : (Utf8.encode text).length ≤ 1024 * 1024 ∨ text.getLast? ≠ some '\r') :
    ∃ pages, PagedRead fs path limit pages ∧
      (∀ others, PagedRead fs path limit others → others = pages) ∧
      if text = [] then
        pages = [{ content := "System reminder: File exists but has empty contents" }]
      else
        Covers (fileLines text) limit.toNat 0 pages := by
  by_cases none : text = []
  · simp only [if_pos none]
    have returned (offset : Int) : readFile fs path offset limit false =
        .ok { content := "System reminder: File exists but has empty contents" } := by
      have empty : fs.content target.identity = [] := utf8.trans (none ▸ rfl)
      simp [readFile, valid, opened, regular, empty, bind, Except.bind]
      rfl
    have reads : PagedRead fs path limit
        [{ content := "System reminder: File exists but has empty contents" }] :=
      .last (returned _) rfl
    exact ⟨_, reads, fun others other => reads.unique other, rfl⟩
  · simp only [if_neg none]
    have inside : 0 < (fileLines text).length := by
      rw [fileLines, List.length_map]
      exact List.length_pos_of_ne_nil (TextLines.lines_ne_nil (TextLines.translate_ne_nil none))
    obtain ⟨pages, reads, covers⟩ :=
      pagedRead_covers valid opened regular utf8 positive ends .none inside
    exact ⟨pages, reads, fun others other => reads.unique other, covers⟩

end Reading

/-- A root with one file in it. -/
def singleFile (content : List UInt8) : FileSystem where
  root := ["srv"]
  rootIdentity := (0, 1)
  realpath parts := parts
  lookup directory name :=
    if directory = (0, 1) ∧ name = "notes" then some ⟨(0, 2), .regular⟩ else none
  listing directory := if directory = (0, 1) then ["notes"] else []
  content identity := if identity = (0, 2) then content else []
  identities := {(0, 1), (0, 2)}
  root_mem := by decide
  lookup_mem directory name stat found := by
    split_ifs at found
    obtain rfl := Option.some.inj found
    decide
  listing_nodup directory := by split_ifs <;> decide
  listing_names directory := by split_ifs <;> decide

theorem openPath_singleFile (content : List UInt8) :
    (singleFile content).openPath ["notes"] = .ok ⟨(0, 2), .regular⟩ := rfl

theorem pagedRead_exact_lines : ∃ pages,
    PagedRead (singleFile (Utf8.encode "é\r\nb".toList)) "/notes" 1 pages ∧
      Covers ["é".toList, "b".toList] 1 0 pages := by
  have valid : validateVirtualPath "/notes" = some ["notes"] := by decide
  have utf8 : (singleFile (Utf8.encode "é\r\nb".toList)).content (0, 2) =
      Utf8.encode "é\r\nb".toList := rfl
  obtain ⟨pages, reads, -, covers⟩ := pagedRead_exact valid (openPath_singleFile _) rfl utf8
    (show (0 : Int) < 1 by decide) (.inr (by decide))
  exact ⟨pages, reads, covers⟩

/-! ## Cut lines -/

theorem fileLines_replicate (count : Nat) :
    fileLines (List.replicate (count + 1) 'a') = [List.replicate (count + 1) 'a'] := by
  have plain (count : Nat) : TextLines.translate (List.replicate count 'a') =
      List.replicate count 'a' := by
    induction count with
    | zero => rfl
    | succ count induction => simp [List.replicate_succ, TextLines.translate, induction]
  have single (count : Nat) : TextLines.lines (List.replicate (count + 1) 'a') =
      [List.replicate (count + 1) 'a'] := by
    induction count with
    | zero => rfl
    | succ count induction =>
      rw [List.replicate_succ, TextLines.lines, if_neg (by decide), induction]
  have kept (char : Char) (other : char ≠ 'a') :
      TextLines.rstrip char (List.replicate (count + 1) 'a') = List.replicate (count + 1) 'a' := by
    rw [TextLines.rstrip, List.reverse_replicate, List.replicate_succ,
      List.dropWhile_cons_of_neg (by simpa using other.symm), ← List.replicate_succ,
      List.reverse_replicate]
  rw [fileLines, plain, single, List.map_singleton, withoutLineEnd, kept _ (by decide),
    kept _ (by decide)]

/-- Everything on a page that is cut in its only line is a beginning of the line, and no page
follows. -/
theorem readFile_cut {count : Nat} (long : effectiveOutputLimit ≤ count) : ∃ page part,
    readFile (singleFile (Utf8.encode (List.replicate (count + 1) 'a'))) "/notes" 0 1 false = .ok page ∧
      page.content = String.ofList part ++ truncationMessage ∧
      part <+: List.replicate (count + 1) 'a' ∧ part ≠ List.replicate (count + 1) 'a' ∧
      page.nextOffset = none := by
  have lines := fileLines_replicate count
  have valid : validateVirtualPath "/notes" = some ["notes"] := by decide
  have reads := readFile_text valid (openPath_singleFile (Utf8.encode (List.replicate (count + 1) 'a')))
    rfl rfl (List.cons_ne_nil _ _) (show (0 : Int) < 1 by decide) 0
  obtain ⟨finish, page, returned, here⟩ := readText_spec
    (show 0 < 1 by decide) (show 0 < (fileLines (List.replicate (count + 1) 'a')).length by simp [lines])
    (show (Utf8.encode (List.replicate (count + 1) 'a')).length ≤ 1024 * 1024 ∨ _ from
      .inr (by simp [List.getLast?_replicate]))
  have size := Utf8.length_le_encode (List.replicate (count + 1) 'a')
  rw [List.length_replicate] at size
  have last : finish = 1 := Nat.le_antisymm here.bounded here.moves
  have next := here.next
  have shows := here.shows
  subst last
  rw [lines] at shows next
  refine ⟨page, ?_⟩
  have answer := reads.trans returned
  have text : joined (slice [List.replicate (count + 1) 'a'] 0 1) = List.replicate (count + 1) 'a' := by
    simp [slice, joined]
  have large : effectiveOutputLimit < sizeOf (slice [List.replicate (count + 1) 'a'] 0 1) := by
    rw [sizeOf, text]
    omega
  cases shows with
  | whole fits same => omega
  | cutBehind part complete beginning fits _ inside marked => exact absurd inside (Nat.lt_irrefl 1)
  | cutInside part single beginning fits _ marked =>
    rw [text] at beginning
    refine ⟨part, answer, marked, beginning, ?_, next⟩
    rintro rfl
    omega

theorem pagedRead_skips : ∃ page part,
    readFile (singleFile (Utf8.encode (List.replicate 512001 'a'))) "/notes" 0 1 false = .ok page ∧
      page.content = String.ofList part ++ truncationMessage ∧
      part <+: List.replicate 512001 'a' ∧ part ≠ List.replicate 512001 'a' ∧
      page.nextOffset = none := by
  refine readFile_cut ?_
  unfold effectiveOutputLimit
  exact (Nat.sub_le _ _).trans (by decide)

end Tinkerfin.Sandbox.Rooted
