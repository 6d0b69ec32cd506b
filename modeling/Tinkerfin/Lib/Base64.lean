import Mathlib.Data.List.Basic
import Mathlib.Tactic.Common

/-!
# URL-safe base 64

Bytes in groups of three become groups of four characters; the padding is left out.  The first
decoder is the lenient one of the C library: it skips characters outside of the alphabet, takes the
characters of both alphabets, and stops at a complete padding.  The second one is strict about all
but the two alphabets and the bits that belong to no byte.
-/

namespace Base64

/-- The character of a six-bit digit. -/
def digit (value : Nat) : Char :=
  if value < 26 then Char.ofNat (65 + value)
  else if value < 52 then Char.ofNat (71 + value)
  else if value < 62 then Char.ofNat (value - 4)
  else if value = 62 then '-' else '_'

/-- The digit of a character of one of the alphabets. -/
def value? (char : Char) : Option Nat :=
  if 'A' ≤ char ∧ char ≤ 'Z' then some (char.toNat - 65)
  else if 'a' ≤ char ∧ char ≤ 'z' then some (char.toNat - 71)
  else if '0' ≤ char ∧ char ≤ '9' then some (char.toNat + 4)
  else if char = '-' ∨ char = '+' then some 62
  else if char = '_' ∨ char = '/' then some 63
  else none

/-- The characters of a byte string. -/
def encode : List UInt8 → List Char
  | [] => []
  | [a] => [digit (a.toNat / 4), digit (a.toNat % 4 * 16)]
  | [a, b] =>
    [digit (a.toNat / 4), digit (a.toNat % 4 * 16 + b.toNat / 16), digit (b.toNat % 16 * 4)]
  | a :: b :: c :: bytes =>
    digit (a.toNat / 4) :: digit (a.toNat % 4 * 16 + b.toNat / 16) ::
      digit (b.toNat % 16 * 4 + c.toNat / 64) :: digit (c.toNat % 64) :: encode bytes

/-- Decode from a position inside a group, with the bits that the last digit left over and the
padding read so far. -/
def decodeFrom (position left pads : Nat) : List Char → Option (List UInt8)
  | [] => if position = 0 then some [] else none
  | char :: chars =>
    if char = '=' then
      if position < 2 then decodeFrom position left pads chars
      else if 4 ≤ position + (pads + 1) then some []
      else decodeFrom position left (pads + 1) chars
    else
      match value? char, position with
      | none, _ => decodeFrom position left pads chars
      | some value, 0 => decodeFrom 1 value 0 chars
      | some value, 1 =>
        (decodeFrom 2 (value % 16) 0 chars).map (UInt8.ofNat (left * 4 + value / 16) :: ·)
      | some value, 2 =>
        (decodeFrom 3 (value % 4) 0 chars).map (UInt8.ofNat (left * 16 + value / 4) :: ·)
      | some value, _ =>
        (decodeFrom 0 0 0 chars).map (UInt8.ofNat (left * 64 + value) :: ·)

/-- The padding that completes the last group. -/
def padding (length : Nat) : List Char := List.replicate ((4 - length % 4) % 4) '='

def decode (chars : List Char) : Option (List UInt8) := decodeFrom 0 0 0 chars

theorem digit_spec : ∀ value < 64, digit value ≠ '=' ∧ value? (digit value) = some value := by
  decide

section Steps

variable {value left pads : Nat} {chars : List Char}

attribute [local simp] decodeFrom

theorem decodeFrom_zero (fits : value < 64) :
    decodeFrom 0 left pads (digit value :: chars) = decodeFrom 1 value 0 chars := by
  obtain ⟨plain, read⟩ := digit_spec value fits
  simp [plain, read]

theorem decodeFrom_one (fits : value < 64) :
    decodeFrom 1 left pads (digit value :: chars) =
      (decodeFrom 2 (value % 16) 0 chars).map (UInt8.ofNat (left * 4 + value / 16) :: ·) := by
  obtain ⟨plain, read⟩ := digit_spec value fits
  simp [plain, read]

theorem decodeFrom_two (fits : value < 64) :
    decodeFrom 2 left pads (digit value :: chars) =
      (decodeFrom 3 (value % 4) 0 chars).map (UInt8.ofNat (left * 16 + value / 4) :: ·) := by
  obtain ⟨plain, read⟩ := digit_spec value fits
  simp [plain, read]

theorem decodeFrom_three (fits : value < 64) :
    decodeFrom 3 left pads (digit value :: chars) =
      (decodeFrom 0 0 0 chars).map (UInt8.ofNat (left * 64 + value) :: ·) := by
  obtain ⟨plain, read⟩ := digit_spec value fits
  simp [plain, read]

end Steps

theorem ofNat_eq (byte : UInt8) {value : Nat} (same : value = byte.toNat) :
    UInt8.ofNat value = byte := by
  rw [same, UInt8.ofNat_toNat]

theorem length_encode_mod (a b c : UInt8) (bytes : List UInt8) :
    padding (encode (a :: b :: c :: bytes)).length = padding (encode bytes).length := by
  simp only [encode, padding, List.length_cons]
  congr 1
  omega

/-- What was encoded is decoded again. -/
theorem decode_encode (bytes : List UInt8) :
    decode (encode bytes ++ padding (encode bytes).length) = some bytes := by
  have below (byte : UInt8) : byte.toNat < 256 := byte.toNat_lt
  induction bytes using encode.induct with
  | case1 => rfl
  | case2 a =>
    have := below a
    simp only [decode, encode, List.cons_append, List.nil_append]
    rw [decodeFrom_zero (by omega), decodeFrom_one (by omega), ofNat_eq a (by omega)]
    rfl
  | case3 a b =>
    have := below a
    have := below b
    simp only [decode, encode, List.cons_append, List.nil_append]
    rw [decodeFrom_zero (by omega), decodeFrom_one (by omega), decodeFrom_two (by omega),
      ofNat_eq a (by omega), ofNat_eq b (by omega)]
    rfl
  | case4 a b c bytes ih =>
    have := below a
    have := below b
    have := below c
    rw [length_encode_mod]
    simp only [decode, encode, List.cons_append] at ih ⊢
    rw [decodeFrom_zero (by omega), decodeFrom_one (by omega), decodeFrom_two (by omega),
      decodeFrom_three (by omega), ih, ofNat_eq a (by omega),
      ofNat_eq b (by omega), ofNat_eq c (by omega)]
    rfl

example : encode [0xfb, 0xff, 0x41, 0x42] = "-_9BQg".toList := by
  decide

/-! ## Strict decoding -/

/-- Decode as `decodeFrom` does, but refuse characters outside of the alphabets, padding where no
group was begun, and whatever follows a padding. -/
def decodeStrictFrom (position left pads : Nat) : List Char → Option (List UInt8)
  | [] => if position = 0 then some [] else none
  | char :: chars =>
    if char = '=' then
      if position = 0 then none
      else if position < 2 then decodeStrictFrom position left (pads + 1) chars
      else if 4 ≤ position + (pads + 1) then
        if chars = [] then some [] else none
      else decodeStrictFrom position left (pads + 1) chars
    else
      match value? char with
      | none => none
      | some value =>
        if pads ≠ 0 then none
        else
          match position with
          | 0 => decodeStrictFrom 1 value 0 chars
          | 1 => (decodeStrictFrom 2 (value % 16) 0 chars).map
              (UInt8.ofNat (left * 4 + value / 16) :: ·)
          | 2 => (decodeStrictFrom 3 (value % 4) 0 chars).map
              (UInt8.ofNat (left * 16 + value / 4) :: ·)
          | _ => (decodeStrictFrom 0 0 0 chars).map (UInt8.ofNat (left * 64 + value) :: ·)

def decodeStrict (chars : List Char) : Option (List UInt8) := decodeStrictFrom 0 0 0 chars

/-- The bits of the last group that belong to no byte are zero. -/
def SpareBitsZero : List Char → Prop
  | [_, last] => ∀ value, value? last = some value → value % 16 = 0
  | [_, _, last] => ∀ value, value? last = some value → value % 4 = 0
  | _ :: _ :: _ :: _ :: chars => SpareBitsZero chars
  | _ => True

section Strict

variable {value left : Nat} {char : Char} {chars : List Char} {bytes : List UInt8}

attribute [local simp] decodeStrictFrom

theorem decodeStrictFrom_zero (plain : char ≠ '=') (read : value? char = some value) :
    decodeStrictFrom 0 left 0 (char :: chars) = decodeStrictFrom 1 value 0 chars := by
  simp [plain, read]

theorem decodeStrictFrom_one (plain : char ≠ '=') (read : value? char = some value) :
    decodeStrictFrom 1 left 0 (char :: chars) =
      (decodeStrictFrom 2 (value % 16) 0 chars).map (UInt8.ofNat (left * 4 + value / 16) :: ·) := by
  simp [plain, read]

theorem decodeStrictFrom_two (plain : char ≠ '=') (read : value? char = some value) :
    decodeStrictFrom 2 left 0 (char :: chars) =
      (decodeStrictFrom 3 (value % 4) 0 chars).map (UInt8.ofNat (left * 16 + value / 4) :: ·) := by
  simp [plain, read]

theorem decodeStrictFrom_three (plain : char ≠ '=') (read : value? char = some value) :
    decodeStrictFrom 3 left 0 (char :: chars) =
      (decodeStrictFrom 0 0 0 chars).map (UInt8.ofNat (left * 64 + value) :: ·) := by
  simp [plain, read]

theorem value?_ascii : ∀ code < 128, (value? (Char.ofNat code)).all fun value =>
    value < 64 ∧ (Char.ofNat code = '+' ∨ Char.ofNat code = '/' ∨
      digit value = Char.ofNat code) := by
  decide +kernel

theorem value?_spec (read : value? char = some value) :
    value < 64 ∧ (char ≠ '+' → char ≠ '/' → digit value = char) := by
  have small : char.toNat < 128 := by
    have up {high : Char} (under : char ≤ high) : char.toNat ≤ high.toNat :=
      UInt32.le_iff_toNat_le.mp under
    unfold value? at read
    split_ifs at read with upper lower figure first second
    · exact Nat.lt_of_le_of_lt (up upper.2) (by decide)
    · exact Nat.lt_of_le_of_lt (up lower.2) (by decide)
    · exact Nat.lt_of_le_of_lt (up figure.2) (by decide)
    · obtain rfl | rfl := first <;> decide
    · obtain rfl | rfl := second <;> decide
  have known := value?_ascii char.toNat small
  rw [Char.ofNat_toNat, read, Option.all_some, decide_eq_true_eq] at known
  exact ⟨known.1, fun plus slash => (known.2.resolve_left plus).resolve_left slash⟩

theorem digit_plain : ∀ value < 64, digit value ≠ '=' ∧ digit value ≠ '+' ∧ digit value ≠ '/' := by
  decide

theorem decodeStrictFrom_cons {position : Nat} (plain : char ≠ '=')
    (decoded : decodeStrictFrom position left 0 (char :: chars) = some bytes) :
    ∃ value, value? char = some value ∧ value < 64 := by
  rw [decodeStrictFrom, if_neg plain] at decoded
  cases read : value? char with
  | none =>
    rw [read] at decoded
    cases decoded
  | some value => exact ⟨value, rfl, (value?_spec read).1⟩

theorem toNat_ofNat_of_lt (small : value < 256) : (UInt8.ofNat value).toNat = value :=
  Nat.mod_eq_of_lt small

theorem digit_of_decodeStrictFrom {position : Nat} (plain : '=' ∉ char :: chars)
    (safe : '+' ∉ char :: chars ∧ '/' ∉ char :: chars) {rest : List Char}
    (decoded : decodeStrictFrom position left 0 (char :: rest) = some bytes) :
    ∃ value, value? char = some value ∧ value < 64 ∧ digit value = char ∧ char ≠ '=' ∧
      '=' ∉ chars ∧ '+' ∉ chars ∧ '/' ∉ chars := by
  simp only [List.mem_cons, not_or] at plain safe
  have here : char ≠ '=' := fun same => plain.1 same.symm
  obtain ⟨value, read, small⟩ := decodeStrictFrom_cons here decoded
  exact ⟨value, read, small, (value?_spec read).2 (fun same => safe.1.1 same.symm)
    (fun same => safe.2.1 same.symm), here, plain.2, safe.1.2, safe.2.2⟩

/-- A text over the URL-safe alphabet without spare bits is the text of what it decodes to. -/
theorem encode_of_decodeStrict (plain : '=' ∉ chars) (safe : '+' ∉ chars ∧ '/' ∉ chars)
    (spare : SpareBitsZero chars)
    (decoded : decodeStrict (chars ++ padding chars.length) = some bytes) :
    encode bytes = chars := by
  rw [decodeStrict] at decoded
  induction chars using SpareBitsZero.induct generalizing bytes with
  | case1 a b =>
    obtain ⟨first, one, low, same, here, plain, safe⟩ :=
      digit_of_decodeStrictFrom plain safe decoded
    rw [List.cons_append, decodeStrictFrom_zero here one] at decoded
    obtain ⟨second, two, less, equal, here, -, -⟩ := digit_of_decodeStrictFrom plain safe decoded
    rw [List.cons_append, decodeStrictFrom_one here two] at decoded
    have zero := spare second two
    obtain rfl : [UInt8.ofNat (first * 4 + second / 16)] = bytes := Option.some.inj decoded
    rw [encode, toNat_ofNat_of_lt (by omega),
      show (first * 4 + second / 16) / 4 = first by omega,
      show (first * 4 + second / 16) % 4 * 16 = second by omega, same, equal]
  | case2 a b c =>
    obtain ⟨first, one, low, same, here, plain, safe⟩ :=
      digit_of_decodeStrictFrom plain safe decoded
    rw [List.cons_append, decodeStrictFrom_zero here one] at decoded
    obtain ⟨second, two, less, equal, here, plain, safe⟩ :=
      digit_of_decodeStrictFrom plain safe decoded
    rw [List.cons_append, decodeStrictFrom_one here two] at decoded
    obtain ⟨tail, inner, rfl⟩ := Option.map_eq_some_iff.mp decoded
    obtain ⟨third, three, least, alike, here, -, -⟩ := digit_of_decodeStrictFrom plain safe inner
    rw [List.cons_append, decodeStrictFrom_two here three] at inner
    have zero := spare third three
    obtain rfl : [UInt8.ofNat (second % 16 * 16 + third / 4)] = tail := Option.some.inj inner
    rw [encode, toNat_ofNat_of_lt (by omega), toNat_ofNat_of_lt (by omega),
      show (first * 4 + second / 16) / 4 = first by omega,
      show (first * 4 + second / 16) % 4 * 16 + (second % 16 * 16 + third / 4) / 16 = second by
        omega,
      show (second % 16 * 16 + third / 4) % 16 * 4 = third by omega, same, equal, alike]
  | case3 a b c d chars ih =>
    obtain ⟨first, one, low, same, here, plain, safe⟩ :=
      digit_of_decodeStrictFrom plain safe decoded
    rw [List.cons_append, decodeStrictFrom_zero here one] at decoded
    obtain ⟨second, two, less, equal, here, plain, safe⟩ :=
      digit_of_decodeStrictFrom plain safe decoded
    rw [List.cons_append, decodeStrictFrom_one here two] at decoded
    obtain ⟨tail, inner, rfl⟩ := Option.map_eq_some_iff.mp decoded
    obtain ⟨third, three, least, alike, here, plain, safe⟩ :=
      digit_of_decodeStrictFrom plain safe inner
    rw [List.cons_append, decodeStrictFrom_two here three] at inner
    obtain ⟨tail, deeper, rfl⟩ := Option.map_eq_some_iff.mp inner
    obtain ⟨fourth, four, last, also, here, plain, safe⟩ :=
      digit_of_decodeStrictFrom plain safe deeper
    rw [List.cons_append, decodeStrictFrom_three here four] at deeper
    obtain ⟨tail, rest, rfl⟩ := Option.map_eq_some_iff.mp deeper
    have length : padding (a :: b :: c :: d :: chars).length = padding chars.length := by
      simp only [padding, List.length_cons]
      congr 1
      omega
    rw [length] at rest
    rw [encode, ih plain safe spare rest, toNat_ofNat_of_lt (by omega),
      toNat_ofNat_of_lt (by omega), toNat_ofNat_of_lt (by omega),
      show (first * 4 + second / 16) / 4 = first by omega,
      show (first * 4 + second / 16) % 4 * 16 + (second % 16 * 16 + third / 4) / 16 = second by
        omega,
      show (second % 16 * 16 + third / 4) % 16 * 4 + (third % 4 * 64 + fourth) / 64 = third by
        omega,
      show (third % 4 * 64 + fourth) % 64 = fourth by omega, same, equal, alike, also]
  | case4 chars one two three =>
    match chars with
    | [] =>
      obtain rfl : [] = bytes := Option.some.inj decoded
      rfl
    | [a] =>
      obtain ⟨first, read, -, -, here, -⟩ := digit_of_decodeStrictFrom plain safe decoded
      rw [List.cons_append, decodeStrictFrom_zero here read] at decoded
      cases decoded
    | [a, b] => exact absurd rfl (one a b)
    | [a, b, c] => exact absurd rfl (two a b c)
    | a :: b :: c :: d :: chars => exact absurd rfl (three a b c d chars)

/-- The text of bytes is made of digits. -/
theorem mem_encode {bytes : List UInt8} (inside : char ∈ encode bytes) :
    ∃ value < 64, char = digit value := by
  induction bytes using encode.induct with
  | case1 => cases inside
  | case2 a =>
    have := a.toNat_lt
    simp only [encode, List.mem_cons, List.not_mem_nil, or_false] at inside
    obtain rfl | rfl := inside <;> exact ⟨_, by omega, rfl⟩
  | case3 a b =>
    have := a.toNat_lt
    have := b.toNat_lt
    simp only [encode, List.mem_cons, List.not_mem_nil, or_false] at inside
    obtain rfl | rfl | rfl := inside <;> exact ⟨_, by omega, rfl⟩
  | case4 a b c bytes ih =>
    have := a.toNat_lt
    have := b.toNat_lt
    have := c.toNat_lt
    simp only [encode, List.mem_cons] at inside
    obtain rfl | rfl | rfl | rfl | inside := inside
    iterate 4 exact ⟨_, by omega, rfl⟩
    exact ih inside

/-- The text of bytes is over the URL-safe alphabet and has no spare bits. -/
theorem encode_canonical (bytes : List UInt8) : '=' ∉ encode bytes ∧ '+' ∉ encode bytes ∧
    '/' ∉ encode bytes ∧ SpareBitsZero (encode bytes) := by
  have without {char : Char} (other : ∀ value < 64, digit value ≠ char) : char ∉ encode bytes := by
    intro inside
    obtain ⟨value, small, same⟩ := mem_encode inside
    exact other value small same.symm
  refine ⟨without fun value small => (digit_plain value small).1,
    without fun value small => (digit_plain value small).2.1,
    without fun value small => (digit_plain value small).2.2, ?_⟩
  clear without
  induction bytes using encode.induct with
  | case1 => trivial
  | case2 a =>
    have := a.toNat_lt
    intro value read
    rw [(digit_spec _ (by omega)).2] at read
    obtain rfl := Option.some.inj read
    omega
  | case3 a b =>
    have := b.toNat_lt
    intro value read
    rw [(digit_spec _ (by omega)).2] at read
    obtain rfl := Option.some.inj read
    omega
  | case4 a b c bytes ih => exact ih

/-- What was encoded is decoded strictly. -/
theorem decodeStrict_encode (bytes : List UInt8) :
    decodeStrict (encode bytes ++ padding (encode bytes).length) = some bytes := by
  have below (byte : UInt8) : byte.toNat < 256 := byte.toNat_lt
  have read {value : Nat} (small : value < 64) := digit_spec value small
  induction bytes using encode.induct with
  | case1 => rfl
  | case2 a =>
    have := below a
    have one := read (show a.toNat / 4 < 64 by omega)
    have two := read (show a.toNat % 4 * 16 < 64 by omega)
    simp only [decodeStrict, encode, List.cons_append, List.nil_append]
    rw [decodeStrictFrom_zero one.1 one.2, decodeStrictFrom_one two.1 two.2,
      ofNat_eq a (by omega)]
    rfl
  | case3 a b =>
    have := below a
    have := below b
    have one := read (show a.toNat / 4 < 64 by omega)
    have two := read (show a.toNat % 4 * 16 + b.toNat / 16 < 64 by omega)
    have three := read (show b.toNat % 16 * 4 < 64 by omega)
    simp only [decodeStrict, encode, List.cons_append, List.nil_append]
    rw [decodeStrictFrom_zero one.1 one.2, decodeStrictFrom_one two.1 two.2,
      decodeStrictFrom_two three.1 three.2, ofNat_eq a (by omega), ofNat_eq b (by omega)]
    rfl
  | case4 a b c bytes ih =>
    have := below a
    have := below b
    have := below c
    have one := read (show a.toNat / 4 < 64 by omega)
    have two := read (show a.toNat % 4 * 16 + b.toNat / 16 < 64 by omega)
    have three := read (show b.toNat % 16 * 4 + c.toNat / 64 < 64 by omega)
    have four := read (show c.toNat % 64 < 64 by omega)
    rw [length_encode_mod]
    simp only [decodeStrict, encode, List.cons_append] at ih ⊢
    rw [decodeStrictFrom_zero one.1 one.2, decodeStrictFrom_one two.1 two.2,
      decodeStrictFrom_two three.1 three.2, decodeStrictFrom_three four.1 four.2, ih,
      ofNat_eq a (by omega), ofNat_eq b (by omega), ofNat_eq c (by omega)]
    rfl

end Strict

end Base64
