import Tinkerfin.Lib.JsonText

/-!
# Reading JSON text

The reader of a dynamic language: whitespace may stand between tokens, and strings may be escaped in
several ways, also to code units that are no character.  Compact text leaves one way only, and what
was read from it is written as it was.
-/

namespace JsonLoads

/-! ## Values -/

/-- An element of a text: a character, or a surrogate that stands alone. -/
inductive Code
  | char (value : Char)
  | surrogate (unit : Nat)
  deriving DecidableEq

/-- A text in which surrogates may stand alone. -/
abbrev Text := List Code

inductive Value
  | null
  | bool (value : Bool)
  | number (text : List Char)
  | string (text : Text)
  | array (items : List Value)
  | object (members : List (Text × Value))

/-- A text without surrogates. -/
def Text.ofChars (chars : List Char) : Text := chars.map .char

/-- The characters of a text without surrogates. -/
def Text.chars? : Text → Option (List Char)
  | [] => some []
  | .char char :: text => (Text.chars? text).map (char :: ·)
  | .surrogate _ :: _ => none

theorem Text.chars?_ofChars (chars : List Char) : Text.chars? (.ofChars chars) = some chars := by
  induction chars with
  | nil => rfl
  | cons char chars ih =>
    rw [Text.ofChars, List.map_cons, Text.chars?]
    exact congrArg (Option.map (char :: ·)) ih

theorem Text.ofChars_of_chars? {text : Text} {chars : List Char}
    (read : Text.chars? text = some chars) : text = .ofChars chars := by
  induction text generalizing chars with
  | nil =>
    obtain rfl := Option.some.inj read
    rfl
  | cons code text ih =>
    cases code with
    | surrogate => cases read
    | char char =>
      obtain ⟨rest, later, rfl⟩ := Option.map_eq_some_iff.mp read
      rw [ih later]
      rfl

/-! ## Strings -/

def hexDigit? (char : Char) : Option Nat :=
  if '0' ≤ char ∧ char ≤ '9' then some (char.toNat - 48)
  else if 'a' ≤ char ∧ char ≤ 'f' then some (char.toNat - 87)
  else if 'A' ≤ char ∧ char ≤ 'F' then some (char.toNat - 55)
  else none

/-- The code unit of four hexadecimal digits. -/
def unit? (a b c d : Char) : Option Nat := do
  let a ← hexDigit? a
  let b ← hexDigit? b
  let c ← hexDigit? c
  let d ← hexDigit? d
  some (((a * 16 + b) * 16 + c) * 16 + d)

def ofUnit (unit : Nat) : Code :=
  if 0xD800 ≤ unit ∧ unit < 0xE000 then .surrogate unit else .char (Char.ofNat unit)

/-- The character of a one-letter escape. -/
def short? : Char → Option Char
  | '"' => some '"'
  | '\\' => some '\\'
  | '/' => some '/'
  | 'b' => some (Char.ofNat 8)
  | 'f' => some (Char.ofNat 12)
  | 'n' => some '\n'
  | 'r' => some '\r'
  | 't' => some '\t'
  | _ => none

/-- Read the rest of a string up to its quote. -/
def scanString : List Char → Option (Text × List Char)
  | [] => none
  | ['\\'] => none
  | '\\' :: 'u' :: a :: b :: c :: d :: chars => do
    let unit ← unit? a b c d
    let (text, rest) ← scanString chars
    some (ofUnit unit :: text, rest)
  | '\\' :: letter :: chars => do
    let char ← short? letter
    let (text, rest) ← scanString chars
    some (.char char :: text, rest)
  | char :: chars =>
    if char = '"' then some ([], chars)
    else if char.toNat < 32 then none
    else do
      let (text, rest) ← scanString chars
      some (.char char :: text, rest)

/-- A high surrogate in front of a low one is one character with it. -/
def joinFront : Code → Text → Text
  | .surrogate high, .surrogate low :: text =>
    if high < 0xDC00 ∧ 0xDC00 ≤ low then
      .char (Char.ofNat (0x10000 + (high - 0xD800) * 1024 + (low - 0xDC00))) :: text
    else .surrogate high :: .surrogate low :: text
  | code, text => code :: text

def joinSurrogates (text : Text) : Text := text.foldr joinFront []

@[simp] theorem joinSurrogates_ofChars (chars : List Char) :
    joinSurrogates (.ofChars chars) = .ofChars chars := by
  induction chars with
  | nil => rfl
  | cons char chars ih => exact congrArg (joinFront (.char char)) ih

/-! ## Other tokens -/

def isSpace (char : Char) : Bool := char = ' ' || char = '\t' || char = '\n' || char = '\r'

def skip (chars : List Char) : List Char := chars.dropWhile isSpace

def isDigit (char : Char) : Bool := '0' ≤ char && char ≤ '9'

/-- A number without a sign, fraction and exponent, and what follows it. -/
def scanDigits : List Char → Option (List Char × List Char)
  | [] => none
  | '0' :: chars => some (['0'], chars)
  | char :: chars =>
    if isDigit char then some (char :: chars.takeWhile isDigit, chars.dropWhile isDigit) else none

/-- Some digits behind a mark, if they are there. -/
def scanMarked (mark digits : List Char) (whole : List Char) : List Char × List Char :=
  match digits.takeWhile isDigit with
  | [] => ([], whole)
  | figures => (mark ++ figures, digits.dropWhile isDigit)

def scanFraction : List Char → List Char × List Char
  | '.' :: chars => scanMarked ['.'] chars ('.' :: chars)
  | chars => ([], chars)

def scanExponent : List Char → List Char × List Char
  | mark :: sign :: chars =>
    if mark = 'e' ∨ mark = 'E' then
      if sign = '+' ∨ sign = '-' then scanMarked [mark, sign] chars (mark :: sign :: chars)
      else scanMarked [mark] (sign :: chars) (mark :: sign :: chars)
    else ([], mark :: sign :: chars)
  | chars => ([], chars)

def scanNumber (chars : List Char) : Option (Value × List Char) := do
  let (sign, unsigned) := match chars with
    | '-' :: chars => (['-'], chars)
    | chars => ([], chars)
  let (whole, chars) ← scanDigits unsigned
  let (fraction, chars) := scanFraction chars
  let (exponent, chars) := scanExponent chars
  some (.number (sign ++ whole ++ fraction ++ exponent), chars)

def scanWord (word : String) (value : Value) (chars : List Char) : Option (Value × List Char) :=
  if word.toList.isPrefixOf chars then some (value, chars.drop word.length) else none

/-- A word or a number. -/
def scanConstant (chars : List Char) : Option (Value × List Char) :=
  scanWord "null" .null chars <|> scanWord "true" (.bool true) chars <|>
    scanWord "false" (.bool false) chars <|> scanWord "NaN" (.number "NaN".toList) chars <|>
    scanWord "Infinity" (.number "Infinity".toList) chars <|>
    scanWord "-Infinity" (.number "-Infinity".toList) chars <|> scanNumber chars

/-! ## Values in text -/

mutual

/-- Read one value.  A value and the list of items in it take one round each, so that two rounds for
every character are enough. -/
def scanOnce : Nat → List Char → Option (Value × List Char)
  | 0, _ => none
  | _ + 1, [] => none
  | rounds + 1, char :: chars =>
    if char = '"' then
      (scanString chars).map fun (text, rest) => (.string (joinSurrogates text), rest)
    else if char = '[' then
      match skip chars with
      | ']' :: rest => some (.array [], rest)
      | inner => (scanItems rounds inner).map fun (items, rest) => (.array items, rest)
    else if char = '\x7b' then
      match skip chars with
      | '\x7d' :: rest => some (.object [], rest)
      | inner => (scanMembers rounds inner).map fun (members, rest) => (.object members, rest)
    else scanConstant (char :: chars)

/-- Read items up to the end of an array. -/
def scanItems : Nat → List Char → Option (List Value × List Char)
  | 0, _ => none
  | rounds + 1, chars => do
    let (value, rest) ← scanOnce rounds chars
    match skip rest with
    | ']' :: rest => some ([value], rest)
    | ',' :: rest =>
      match skip rest with
      | ']' :: _ => none
      | next =>
        let (values, rest) ← scanItems rounds next
        some (value :: values, rest)
    | _ => none

/-- Read members up to the end of an object. -/
def scanMembers : Nat → List Char → Option (List (Text × Value) × List Char)
  | 0, _ => none
  | _ + 1, [] => none
  | rounds + 1, char :: chars =>
    if char = '"' then do
      let (key, rest) ← scanString chars
      match skip rest with
      | ':' :: rest =>
        let (value, rest) ← scanOnce rounds (skip rest)
        match skip rest with
        | '\x7d' :: rest => some ([(joinSurrogates key, value)], rest)
        | ',' :: rest =>
          let (members, rest) ← scanMembers rounds (skip rest)
          some ((joinSurrogates key, value) :: members, rest)
        | _ => none
      | _ => none
    else none

end

/-- Read a whole text. -/
def loads (chars : List Char) : Option Value := do
  let (value, rest) ← scanOnce (2 * chars.length + 2) (skip chars)
  if skip rest = [] then some value else none

/-! ## Compact text -/

/-- The letters of the short escapes that are written. -/
def shortLetters : List Char := ['"', '\\', 'b', 'f', 'n', 'r', 't']

/-- The digits of the control characters without a short escape. -/
def controlDigits : List (List Char) :=
  ((List.range 32).filter fun code => code ∉ [8, 9, 10, 12, 13]).map fun code =>
    ['0', '0', Sha256.hexDigit (code / 16), Sha256.hexDigit (code % 16)]

/-- A writer escapes with this letter, in front of these characters. -/
def WrittenEscape (letter : Char) (chars : List Char) : Prop :=
  letter ∈ shortLetters ∨ letter = 'u' ∧ chars.take 4 ∈ controlDigits

/-- No whitespace between tokens, and no escapes but those that are written; inside a string or
outside of it. -/
def Compact : Bool → List Char → Prop
  | _, [] => True
  | false, char :: chars =>
    if char = '"' then Compact true chars else isSpace char = false ∧ Compact false chars
  | true, '\\' :: letter :: chars => WrittenEscape letter chars ∧ Compact true chars
  | true, char :: chars => if char = '"' then Compact false chars else Compact true chars

section Compact

variable {char letter : Char} {chars rest : List Char} {text : Text}

attribute [local simp] scanString Compact

theorem control_spec : ∀ code < 32, code ∉ [8, 9, 10, 12, 13] →
    unit? '0' '0' (Sha256.hexDigit (code / 16)) (Sha256.hexDigit (code % 16)) = some code ∧
      Json.escape (Char.ofNat code) = ['\\', 'u', '0', '0', Sha256.hexDigit (code / 16),
        Sha256.hexDigit (code % 16)] ∧ ofUnit code = .char (Char.ofNat code) := by
  decide

theorem short_spec : ∀ letter ∈ shortLetters, ∃ char, short? letter = some char ∧
    Json.escape char = ['\\', letter] := by
  simp only [shortLetters, List.forall_mem_cons, List.not_mem_nil, false_implies, implies_true,
    and_true]
  exact ⟨⟨_, rfl, by decide⟩, ⟨_, rfl, by decide⟩, ⟨_, rfl, by decide⟩, ⟨_, rfl, by decide⟩,
    ⟨_, rfl, by decide⟩, ⟨_, rfl, by decide⟩, ⟨_, rfl, by decide⟩⟩

theorem escape_plain (quoted : char ≠ '"') (slash : char ≠ '\\') (high : ¬char.toNat < 32) :
    Json.escape char = [char] := by
  have other {code : Nat} (small : code < 32) : char.toNat ≠ code := by omega
  have newline : char ≠ '\n' := fun equal => high (by rw [equal]; decide)
  have carriage : char ≠ '\r' := fun equal => high (by rw [equal]; decide)
  have tab : char ≠ '\t' := fun equal => high (by rw [equal]; decide)
  simp [Json.escape, quoted, slash, newline, carriage, tab, high, other (show 12 < 32 by decide),
    other (show 8 < 32 by decide)]

/-- A character is written as a short escape, as the digits of a control character, or plainly. -/
theorem escape_cases (char : Char) :
    (∃ letter ∈ shortLetters, short? letter = some char ∧ Json.escape char = ['\\', letter]) ∨
    (∃ code < 32, code ∉ [8, 9, 10, 12, 13] ∧ char = Char.ofNat code) ∨
    (char ≠ '"' ∧ char ≠ '\\' ∧ ¬char.toNat < 32 ∧ Json.escape char = [char]) := by
  have same : Char.ofNat char.toNat = char := Char.ofNat_toNat char
  by_cases control : char.toNat < 32
  · by_cases short : char.toNat ∈ [8, 9, 10, 12, 13]
    · left
      simp only [List.mem_cons, List.not_mem_nil, or_false] at short
      rw [← same]
      obtain code | code | code | code | code := short <;> rw [code]
      · exact ⟨'b', by decide, rfl, by decide⟩
      · exact ⟨'t', by decide, rfl, by decide⟩
      · exact ⟨'n', by decide, rfl, by decide⟩
      · exact ⟨'f', by decide, rfl, by decide⟩
      · exact ⟨'r', by decide, rfl, by decide⟩
    · exact .inr (.inl ⟨char.toNat, control, short, same.symm⟩)
  · by_cases quoted : char = '"'
    · exact .inl ⟨'"', by decide, by rw [quoted]; rfl, by rw [quoted]; decide⟩
    by_cases slash : char = '\\'
    · exact .inl ⟨'\\', by decide, by rw [slash]; rfl, by rw [slash]; decide⟩
    exact .inr (.inr ⟨quoted, slash, control, escape_plain quoted slash control⟩)

theorem scanString_short (listed : letter ∈ shortLetters) (read : short? letter = some char) :
    scanString ('\\' :: letter :: chars) =
      (scanString chars).map fun (text, rest) => (.char char :: text, rest) := by
  have plain : letter ≠ 'u' := by
    rintro rfl
    exact absurd listed (by decide)
  rw [scanString]
  · rw [read]
    cases scanString chars <;> rfl
  · rintro a b c d rest rfl
    exact absurd rfl plain

theorem scanString_unit {a b c d : Char} {unit : Nat} (read : unit? a b c d = some unit) :
    scanString ('\\' :: 'u' :: a :: b :: c :: d :: chars) =
      (scanString chars).map fun (text, rest) => (ofUnit unit :: text, rest) := by
  simp only [scanString, read]
  cases scanString chars <;> rfl

theorem scanString_plain (quoted : char ≠ '"') (slash : char ≠ '\\') (high : ¬char.toNat < 32) :
    scanString (char :: chars) =
      (scanString chars).map fun (text, rest) => (.char char :: text, rest) := by
  rw [scanString]
  · rw [if_neg quoted, if_neg high]
    cases scanString chars <;> rfl
  all_goals
    intros
    simp_all

theorem scanString_escape (char : Char) (chars : List Char) :
    scanString (Json.escape char ++ chars) =
      (scanString chars).map fun (text, rest) => (.char char :: text, rest) := by
  obtain ⟨letter, listed, read, written⟩ | ⟨code, small, other, rfl⟩ |
    ⟨quoted, slash, high, written⟩ := escape_cases char
  · rw [written]
    exact scanString_short listed read
  · obtain ⟨read, written, unit⟩ := control_spec code small other
    rw [written, ← unit]
    exact scanString_unit read
  · rw [written]
    exact scanString_plain quoted slash high

theorem scanString_quote (rest : List Char) : scanString ('"' :: rest) = some ([], rest) := by
  simp

theorem scanString_written (chars rest : List Char) :
    scanString (chars.flatMap Json.escape ++ '"' :: rest) = some (.ofChars chars, rest) := by
  induction chars with
  | nil => exact scanString_quote rest
  | cons char chars ih =>
    rw [List.flatMap_cons, List.append_assoc, scanString_escape, ih]
    rfl

theorem compact_plain (quoted : char ≠ '"') (slash : char ≠ '\\') :
    Compact true (char :: chars) ↔ Compact true chars := by
  rw [Compact]
  · rw [if_neg quoted]
  · rintro letter rest equal
    exact absurd equal slash

theorem compact_quote : Compact true ('"' :: chars) ↔ Compact false chars := by
  simp

theorem compact_open : Compact false ('"' :: chars) ↔ Compact true chars := by
  simp

theorem compact_token (plain : char ≠ '"') :
    Compact false (char :: chars) ↔ isSpace char = false ∧ Compact false chars := by
  simp [plain]

theorem digits_plain : ∀ code < 32, ∀ char ∈ ['0', '0', Sha256.hexDigit (code / 16),
    Sha256.hexDigit (code % 16)], char ≠ '"' ∧ char ≠ '\\' := by
  have all : (List.range 32).all (fun code => ['0', '0', Sha256.hexDigit (code / 16),
      Sha256.hexDigit (code % 16)].all fun char => char ≠ '"' ∧ char ≠ '\\') = true := by decide
  intro code small char member
  have one := List.all_eq_true.mp (List.all_eq_true.mp all code (List.mem_range.mpr small)) char
    member
  exact of_decide_eq_true one

theorem compact_digits {digits : List Char}
    (plain : ∀ char ∈ digits, char ≠ '"' ∧ char ≠ '\\') :
    Compact true (digits ++ chars) ↔ Compact true chars := by
  induction digits with
  | nil => rfl
  | cons digit digits ih =>
    obtain ⟨quoted, slash⟩ := plain digit List.mem_cons_self
    rw [List.cons_append, compact_plain quoted slash]
    exact ih fun char member => plain char (.tail _ member)

theorem compact_escape (char : Char) (chars : List Char) :
    Compact true (Json.escape char ++ chars) ↔ Compact true chars := by
  obtain ⟨letter, listed, -, written⟩ | ⟨code, small, other, rfl⟩ |
    ⟨quoted, slash, -, written⟩ := escape_cases char
  · rw [written]
    exact and_iff_right (.inl listed)
  · have listed : ['0', '0', Sha256.hexDigit (code / 16), Sha256.hexDigit (code % 16)] ∈
        controlDigits :=
      List.mem_map.mpr ⟨code, List.mem_filter.mpr ⟨List.mem_range.mpr small, by simpa using other⟩,
        rfl⟩
    rw [(control_spec code small other).2.1]
    exact (and_iff_right (.inr ⟨rfl, listed⟩)).trans (compact_digits (digits_plain code small))
  · rw [written]
    exact compact_plain quoted slash

theorem compact_written (chars rest : List Char) :
    Compact true (chars.flatMap Json.escape ++ '"' :: rest) ↔ Compact false rest := by
  induction chars with
  | nil => exact compact_quote
  | cons char chars ih =>
    rw [List.flatMap_cons, List.append_assoc, compact_escape]
    exact ih

/-- A string that is read from compact text is written as it was. -/
theorem scanString_compact (scanned : scanString chars = some (text, rest))
    (compact : Compact true chars) : ∃ read, text = .ofChars read ∧
      chars = read.flatMap Json.escape ++ '"' :: rest ∧ Compact false rest := by
  induction chars using scanString.induct generalizing text rest with
  | case1 => cases scanned
  | case2 => cases scanned
  | case3 a b c d chars ih =>
    obtain ⟨short | ⟨-, listed⟩, compact⟩ :
      WrittenEscape 'u' (a :: b :: c :: d :: chars) ∧ Compact true (a :: b :: c :: d :: chars) :=
        compact
    · exact absurd short (by decide)
    · obtain ⟨code, inside, digits⟩ := List.mem_map.mp listed
      obtain ⟨small, other⟩ := List.mem_filter.mp inside
      have small := List.mem_range.mp small
      simp only [List.take_succ_cons, List.take_zero, List.cons.injEq, and_true] at digits
      obtain ⟨rfl, rfl, rfl, rfl⟩ := digits
      obtain ⟨read, written, unit⟩ := control_spec code small (by simpa using other)
      rw [scanString_unit read] at scanned
      obtain ⟨⟨later, after⟩, inner, equal⟩ := Option.map_eq_some_iff.mp scanned
      obtain ⟨rfl, rfl⟩ := Prod.mk.inj equal
      obtain ⟨chars, rfl, rfl, follows⟩ := ih inner
        ((compact_digits (digits_plain code small)).mp compact)
      exact ⟨Char.ofNat code :: chars, by rw [unit]; rfl,
        by rw [List.flatMap_cons, written]; rfl, follows⟩
  | case4 letter chars other ih =>
    obtain ⟨short | ⟨rfl, listed⟩, compact⟩ :
      WrittenEscape letter chars ∧ Compact true chars := by
        rwa [Compact] at compact
    · obtain ⟨char, read, written⟩ := short_spec letter short
      rw [scanString_short short read] at scanned
      obtain ⟨⟨later, after⟩, inner, equal⟩ := Option.map_eq_some_iff.mp scanned
      obtain ⟨rfl, rfl⟩ := Prod.mk.inj equal
      obtain ⟨chars, rfl, rfl, follows⟩ := ih inner compact
      exact ⟨char :: chars, rfl, by rw [List.flatMap_cons, written]; rfl, follows⟩
    · obtain ⟨code, -, digits⟩ := List.mem_map.mp listed
      match chars with
      | [] | [_] | [_, _] | [_, _, _] => cases digits
      | a :: b :: c :: d :: chars => exact absurd rfl (other a b c d chars rfl)
  | case5 chars =>
    rw [scanString_quote] at scanned
    obtain ⟨rfl, rfl⟩ := Prod.mk.inj (Option.some.inj scanned)
    exact ⟨[], rfl, rfl, compact_quote.mp compact⟩
  | case6 char chars alone unit short quoted control =>
    have slash : char ≠ '\\' := by
      rintro rfl
      exact absurd control (by decide)
    rw [scanString] at scanned
    · rw [if_neg quoted, if_pos control] at scanned
      cases scanned
    all_goals
      intros
      simp_all
  | case7 char chars alone unit short quoted high ih =>
    have slash : char ≠ '\\' := by
      rintro rfl
      cases chars with
      | nil => exact alone rfl rfl
      | cons letter chars => exact short letter chars rfl rfl
    rw [scanString_plain quoted slash high] at scanned
    obtain ⟨⟨later, after⟩, inner, equal⟩ := Option.map_eq_some_iff.mp scanned
    obtain ⟨rfl, rfl⟩ := Prod.mk.inj equal
    obtain ⟨read, rfl, rfl, follows⟩ := ih inner ((compact_plain quoted slash).mp compact)
    exact ⟨char :: read, rfl,
      by rw [List.flatMap_cons, escape_plain quoted slash high]; rfl, follows⟩

end Compact

-- The text of a string would be computed to see what compact means for it.
attribute [irreducible] Compact

/-! ## Values of compact text -/

section Values

variable {rounds : Nat} {chars rest : List Char} {text : Text} {value : Value}
  {values : List Value}

/-- A word or a number is neither a string nor an array. -/
def Value.IsConstant : Value → Prop
  | .null | .bool _ | .number _ => True
  | .string _ | .array _ | .object _ => False

theorem scanWord_constant {word : String} {meant : Value} (plain : meant.IsConstant)
    (scanned : scanWord word meant chars = some (value, rest)) : value.IsConstant := by
  unfold scanWord at scanned
  split at scanned
  · rwa [← (Prod.mk.inj (Option.some.inj scanned)).1]
  · cases scanned

theorem scanNumber_constant (scanned : scanNumber chars = some (value, rest)) :
    value.IsConstant := by
  unfold scanNumber at scanned
  obtain ⟨⟨whole, after⟩, -, scanned⟩ := Option.bind_eq_some_iff.mp scanned
  rw [← (Prod.mk.inj (Option.some.inj scanned)).1]
  trivial

theorem scanConstant_constant (scanned : scanConstant chars = some (value, rest)) :
    value.IsConstant := by
  unfold scanConstant at scanned
  simp only [Option.orElse_eq_orElse, Option.orElse_eq_or, Option.or_eq_some_iff] at scanned
  obtain word | ⟨-, word | ⟨-, word | ⟨-, word | ⟨-, word | ⟨-, word | ⟨-, number⟩⟩⟩⟩⟩⟩ := scanned
  · exact scanWord_constant (show Value.IsConstant .null from trivial) word
  · exact scanWord_constant (show Value.IsConstant (.bool true) from trivial) word
  · exact scanWord_constant (show Value.IsConstant (.bool false) from trivial) word
  · exact scanWord_constant (show Value.IsConstant (.number _) from trivial) word
  · exact scanWord_constant (show Value.IsConstant (.number _) from trivial) word
  · exact scanWord_constant (show Value.IsConstant (.number _) from trivial) word
  · exact scanNumber_constant number

theorem skip_of_compact (compact : Compact false chars) : skip chars = chars := by
  cases chars with
  | nil => rfl
  | cons char chars =>
    have plain : isSpace char = false := by
      by_cases quoted : char = '"'
      · rw [quoted]
        rfl
      · exact ((compact_token quoted).mp compact).1
    rw [skip, List.dropWhile_cons_of_neg (by simp [plain])]

/-- A string in compact text is written as it was. -/
theorem scanOnce_string (scanned : scanOnce rounds chars = some (.string text, rest))
    (compact : Compact false chars) : ∃ read : String, text = .ofChars read.toList ∧
      chars = (Json.quote read).toList ++ rest ∧ Compact false rest := by
  cases rounds with
  | zero => rw [scanOnce] at scanned; cases scanned
  | succ rounds =>
  cases chars with
  | nil => rw [scanOnce] at scanned; cases scanned
  | cons char chars =>
    rw [scanOnce] at scanned
    split_ifs at scanned with quoted array object
    · subst quoted
      obtain ⟨⟨codes, after⟩, inner, equal⟩ := Option.map_eq_some_iff.mp scanned
      obtain ⟨same, rfl⟩ := Prod.mk.inj equal
      obtain ⟨read, rfl, rfl, follows⟩ := scanString_compact inner (compact_open.mp compact)
      rw [joinSurrogates_ofChars] at same
      refine ⟨String.ofList read, ?_, ?_, follows⟩
      · rw [String.toList_ofList]
        exact (Value.string.inj same).symm
      · rw [Json.toList_quote, String.toList_ofList]
        simp
    · split at scanned
      · cases scanned
      · obtain ⟨_, -, equal⟩ := Option.map_eq_some_iff.mp scanned
        cases equal
    · split at scanned
      · cases scanned
      · obtain ⟨_, -, equal⟩ := Option.map_eq_some_iff.mp scanned
        cases equal
    · exact (scanConstant_constant scanned).elim

/-- An array opens with a bracket. -/
theorem scanOnce_array (scanned : scanOnce rounds chars = some (.array values, rest)) :
    ∃ inner, chars = '[' :: inner ∧ ((values = [] ∧ skip inner = ']' :: rest) ∨
      ∃ rounds, scanItems rounds (skip inner) = some (values, rest)) := by
  cases rounds with
  | zero => rw [scanOnce] at scanned; cases scanned
  | succ rounds =>
  cases chars with
  | nil => rw [scanOnce] at scanned; cases scanned
  | cons char chars =>
    rw [scanOnce] at scanned
    split_ifs at scanned with quoted array object
    · obtain ⟨_, -, equal⟩ := Option.map_eq_some_iff.mp scanned
      cases equal
    · subst array
      refine ⟨chars, rfl, ?_⟩
      split at scanned
      · next after skipped =>
          obtain ⟨same, rfl⟩ := Prod.mk.inj (Option.some.inj scanned)
          exact .inl ⟨(Value.array.inj same).symm, skipped⟩
      · obtain ⟨⟨items, after⟩, inner, equal⟩ := Option.map_eq_some_iff.mp scanned
        obtain ⟨same, rfl⟩ := Prod.mk.inj equal
        obtain rfl := Value.array.inj same
        exact .inr ⟨rounds, inner⟩
    · split at scanned
      · cases scanned
      · obtain ⟨_, -, equal⟩ := Option.map_eq_some_iff.mp scanned
        cases equal
    · exact (scanConstant_constant scanned).elim

/-- Items are read one after another. -/
theorem scanItems_cases (scanned : scanItems rounds chars = some (values, rest)) :
    ∃ rounds value after, scanOnce rounds chars = some (value, after) ∧
      ((values = [value] ∧ skip after = ']' :: rest) ∨ ∃ more others,
        values = value :: others ∧ skip after = ',' :: more ∧
          scanItems rounds (skip more) = some (others, rest)) := by
  cases rounds with
  | zero => rw [scanItems] at scanned; cases scanned
  | succ rounds =>
    rw [scanItems] at scanned
    obtain ⟨⟨value, after⟩, one, scanned⟩ := Option.bind_eq_some_iff.mp scanned
    refine ⟨rounds, value, after, one, ?_⟩
    simp only at scanned
    split at scanned
    · next after skipped =>
        obtain ⟨rfl, rfl⟩ := Prod.mk.inj (Option.some.inj scanned)
        exact .inl ⟨rfl, skipped⟩
    · next more skipped =>
        split at scanned
        · cases scanned
        · obtain ⟨⟨others, after⟩, inner, scanned⟩ := Option.bind_eq_some_iff.mp scanned
          obtain ⟨rfl, rfl⟩ := Prod.mk.inj (Option.some.inj scanned)
          exact .inr ⟨more, others, rfl, skipped, inner⟩
    · cases scanned

/-- Items that are read from compact text are written as they were, when each of them is. -/
theorem scanItems_compact {Written : Value → Json → Prop}
    (each : ∀ value ∈ values, ∀ rounds chars rest, scanOnce rounds chars = some (value, rest) →
      Compact false chars → ∃ item : Json, Written value item ∧
        chars = item.dumps.toList ++ rest ∧ Compact false rest)
    (scanned : scanItems rounds chars = some (values, rest)) (compact : Compact false chars) :
    ∃ item items, List.Forall₂ Written values (item :: items) ∧
      chars = Json.arrayText (item :: items) ++ rest ∧ Compact false rest := by
  induction values generalizing rounds chars with
  | nil =>
    obtain ⟨_, _, _, -, ⟨equal, -⟩ | ⟨_, _, equal, -⟩⟩ := scanItems_cases scanned <;> cases equal
  | cons value values ih =>
    obtain ⟨inner, first, after, one, ended⟩ := scanItems_cases scanned
    obtain rfl : value = first := by
      obtain ⟨equal, -⟩ | ⟨_, _, equal, -⟩ := ended <;> exact (List.cons.inj equal).1
    obtain ⟨item, written, rfl, follows⟩ := each value List.mem_cons_self _ _ _ one compact
    rw [skip_of_compact follows] at ended
    obtain ⟨equal, rfl⟩ | ⟨more, others, equal, rfl, later⟩ := ended
    · obtain rfl := (List.cons.inj equal).2
      refine ⟨item, [], .cons written .nil, ?_, ((compact_token (by decide)).mp follows).2⟩
      simp [Json.arrayText, Json.listTail]
    · obtain rfl := (List.cons.inj equal).2
      have compact := ((compact_token (by decide)).mp follows).2
      rw [skip_of_compact compact] at later
      obtain ⟨next, items, each, rfl, final⟩ :=
        ih (fun value inside => each value (.tail _ inside)) later compact
      refine ⟨item, next :: items, .cons written each, ?_, final⟩
      simp [Json.arrayText, Json.listTail]

theorem scanOnce_compact {Written : Value → Json → Prop}
    (each : ∀ value ∈ values, ∀ rounds chars rest, scanOnce rounds chars = some (value, rest) →
      Compact false chars → ∃ item : Json, Written value item ∧
        chars = item.dumps.toList ++ rest ∧ Compact false rest)
    (scanned : scanOnce rounds chars = some (.array values, rest))
    (compact : Compact false chars) : ∃ items, List.Forall₂ Written values items ∧
      chars = (Json.dumps (.array items)).toList ++ rest ∧ Compact false rest := by
  obtain ⟨inner, rfl, ended⟩ := scanOnce_array scanned
  have compact := ((compact_token (by decide)).mp compact).2
  rw [skip_of_compact compact] at ended
  obtain ⟨rfl, rfl⟩ | ⟨rounds, scanned⟩ := ended
  · exact ⟨[], .nil, rfl, ((compact_token (by decide)).mp compact).2⟩
  · obtain ⟨item, items, written, rfl, follows⟩ := scanItems_compact each scanned compact
    exact ⟨item :: items, written, by rw [Json.toList_dumps_array]; rfl, follows⟩

end Values

/-! ## Reading what was written -/

section Written

variable {rounds bound : Nat} {rest : List Char}

/-- Every text of a value is read with so many rounds, and starts a value. -/
structure Readable (bound : Nat) (item : Json) (value : Value) : Prop where
  opens : ∃ char ∈ ['"', '['], ∃ chars, item.dumps.toList = char :: chars
  reads : ∀ rounds rest, bound ≤ rounds →
    scanOnce rounds (item.dumps.toList ++ rest) = some (value, rest)

theorem Readable.mono {item : Json} {value : Value} {more : Nat}
    (readable : Readable bound item value) (less : bound ≤ more) : Readable more item value :=
  ⟨readable.opens, fun rounds rest enough => readable.reads rounds rest (less.trans enough)⟩

theorem skip_token {char : Char} (plain : isSpace char = false) (chars : List Char) :
    skip (char :: chars) = char :: chars :=
  List.dropWhile_cons_of_neg (by simp [plain])

theorem Readable.head {item : Json} {value : Value} (readable : Readable bound item value)
    (rest : List Char) : ∃ char chars, item.dumps.toList ++ rest = char :: chars ∧ char ≠ ']' ∧
      skip (item.dumps.toList ++ rest) = item.dumps.toList ++ rest := by
  obtain ⟨char, listed, chars, written⟩ := readable.opens
  have token : isSpace char = false ∧ char ≠ ']' := by
    obtain rfl | rfl : char = '"' ∨ char = '[' := by simpa using listed
    · decide
    · decide
  rw [written]
  exact ⟨char, chars ++ rest, rfl, token.2, skip_token token.1 _⟩

theorem readable_string (text : String) :
    Readable 1 (.string text) (.string (.ofChars text.toList)) where
  opens := ⟨'"', by decide, _, Json.toList_quote text⟩
  reads rounds rest enough := by
    obtain ⟨rounds, rfl⟩ := Nat.exists_eq_add_of_le' enough
    have written : (Json.dumps (.string text)).toList ++ rest =
        '"' :: (text.toList.flatMap Json.escape ++ '"' :: rest) := by
      rw [Json.dumps, Json.toList_quote]
      simp
    rw [written, scanOnce, if_pos rfl, scanString_written, Option.map_some]
    simp only [joinSurrogates_ofChars]

/-- Written items are read up to the end of their array. -/
theorem scanItems_dumps {item : Json} {items : List Json} {values : List Value}
    (each : List.Forall₂ (Readable bound) (item :: items) values)
    (enough : items.length + bound < rounds) :
    scanItems rounds (Json.arrayText (item :: items) ++ rest) = some (values, rest) := by
  obtain ⟨rounds, rfl⟩ := Nat.exists_eq_add_of_lt enough
  clear enough
  induction items generalizing item values with
  | nil =>
    obtain ⟨value, _, readable, none, rfl⟩ := List.forall₂_cons_left_iff.mp each
    obtain rfl := List.forall₂_nil_left_iff.mp none
    have read :=
      readable.reads (([] : List Json).length + bound + rounds) (']' :: rest) (by omega)
    rw [Json.arrayText, List.map_nil, Json.listTail, List.append_assoc, List.singleton_append,
      scanItems, read, Option.bind_eq_bind, Option.bind_some]
    simp only [skip_token (show isSpace ']' = false by decide)]
  | cons next items ih =>
    obtain ⟨value, values, readable, others, rfl⟩ := List.forall₂_cons_left_iff.mp each
    obtain ⟨_, _, follows, _⟩ := List.forall₂_cons_left_iff.mp others
    have text : Json.arrayText (item :: next :: items) ++ rest =
        item.dumps.toList ++ ',' :: (Json.arrayText (next :: items) ++ rest) := by
      simp [Json.arrayText, Json.listTail]
    obtain ⟨char, chars, begun, plain, skipped⟩ := follows.head
      (Json.listTail ']' (items.map fun item => item.dumps.toList) ++ rest)
    have begun : Json.arrayText (next :: items) ++ rest = char :: chars := by
      rw [Json.arrayText, List.append_assoc, begun]
    have skipped : skip (Json.arrayText (next :: items) ++ rest) =
        Json.arrayText (next :: items) ++ rest := by
      rw [Json.arrayText, List.append_assoc, skipped]
    have read := readable.reads ((next :: items).length + bound + rounds)
      (',' :: (Json.arrayText (next :: items) ++ rest)) (by omega)
    rw [text, scanItems, read, Option.bind_eq_bind, Option.bind_some]
    simp only [skip_token (show isSpace ',' = false by decide), skipped]
    have later : scanItems ((next :: items).length + bound + rounds)
        (Json.arrayText (next :: items) ++ rest) = some (values, rest) := by
      rw [← ih others]
      congr 1
      simp only [List.length_cons]
      omega
    split
    · next same =>
        rw [begun] at same
        exact absurd (List.cons.inj same).1 plain
    · rw [later]
      rfl

/-- A written array is read. -/
theorem readable_array {items : List Json} {values : List Value}
    (each : List.Forall₂ (Readable bound) items values) :
    Readable (items.length + bound + 2) (.array items) (.array values) where
  opens := ⟨'[', by decide, _, Json.toList_dumps_array items⟩
  reads rounds rest enough := by
    obtain ⟨rounds, rfl⟩ := Nat.exists_eq_add_of_le' enough
    rw [Json.toList_dumps_array, List.cons_append, ← Nat.add_assoc, scanOnce,
      if_neg (by decide), if_pos rfl]
    cases items with
    | nil =>
      obtain rfl := List.forall₂_nil_left_iff.mp each
      rw [Json.arrayText, List.singleton_append, skip_token (by decide)]
      rfl
    | cons item items =>
      obtain ⟨_, _, first, _⟩ := List.forall₂_cons_left_iff.mp each
      obtain ⟨char, chars, begun, plain, skipped⟩ := first.head
        (Json.listTail ']' (items.map fun item => item.dumps.toList) ++ rest)
      rw [← List.append_assoc, ← Json.arrayText] at begun skipped
      have fewer : items.length + bound < rounds + ((item :: items).length + bound) + 1 := by
        rw [List.length_cons]
        omega
      have read : scanItems _ (Json.arrayText (item :: items) ++ rest) = some (values, rest) :=
        scanItems_dumps each fewer
      rw [skipped]
      split
      · next same =>
          rw [begun] at same
          exact absurd (List.cons.inj same).1 plain
      · rw [read]
        rfl

theorem loads_dumps {item : Json} {value : Value} (readable : Readable bound item value)
    (enough : bound ≤ 2 * item.dumps.toList.length + 2) :
    loads item.dumps.toList = some value := by
  obtain ⟨_, _, -, -, skipped⟩ := readable.head []
  have read := readable.reads _ [] enough
  rw [List.append_nil] at skipped read
  rw [loads, skipped, read]
  rfl

theorem compact_string (text : String) (follows : Compact false rest) :
    Compact false ((Json.dumps (.string text)).toList ++ rest) := by
  rw [Json.dumps, Json.toList_quote, List.cons_append, compact_open, List.append_assoc]
  exact (compact_written text.toList rest).mpr follows

/-- A written array is compact when its items are. -/
theorem compact_array {items : List Json} (each : ∀ item ∈ items, ∀ rest,
    Compact false rest → Compact false (item.dumps.toList ++ rest))
    (follows : Compact false rest) :
    Compact false ((Json.dumps (.array items)).toList ++ rest) := by
  have closed : Compact false (']' :: rest) := (compact_token (by decide)).mpr ⟨rfl, follows⟩
  have tail (items : List Json) (each : ∀ item ∈ items, ∀ rest,
      Compact false rest → Compact false (item.dumps.toList ++ rest)) :
      Compact false (Json.listTail ']' (items.map fun item => item.dumps.toList) ++ rest) := by
    induction items with
    | nil => exact closed
    | cons item items ih =>
      rw [List.map_cons, Json.listTail, List.append_assoc, List.cons_append]
      refine (compact_token (by decide)).mpr ⟨rfl, each item List.mem_cons_self _ ?_⟩
      exact ih fun item inside => each item (.tail _ inside)
  rw [Json.toList_dumps_array, List.cons_append]
  refine (compact_token (by decide)).mpr ⟨rfl, ?_⟩
  cases items with
  | nil => exact closed
  | cons item items =>
    rw [Json.arrayText, List.append_assoc]
    exact each item List.mem_cons_self _
      (tail items fun item inside => each item (.tail _ inside))

end Written

end JsonLoads
