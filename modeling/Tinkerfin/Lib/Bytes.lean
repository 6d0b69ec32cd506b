import Mathlib.Algebra.Group.Nat.Defs
import Mathlib.Data.List.Basic
import Mathlib.Tactic.Common

/-!
# Text and byte strings

UTF-8 encoding, big-endian numbers, length-prefixed framing and the whitespace rules of text
trimming.  The encodings come with the injectivity facts that make a concatenation of frames
readable from the front.
-/

namespace Bytes

/-! ## Big-endian numbers -/

/-- The `count` low bytes of a number, most significant first. -/
def bigEndian : (count value : Nat) → List UInt8
  | 0, _ => []
  | count + 1, value => bigEndian count (value / 256) ++ [UInt8.ofNat (value % 256)]

@[simp] theorem length_bigEndian (count value : Nat) : (bigEndian count value).length = count := by
  induction count generalizing value with
  | zero => rfl
  | succ count ih => simp [bigEndian, ih]

theorem bigEndian_injective {count left right : Nat} (leftFits : left < 256 ^ count)
    (rightFits : right < 256 ^ count) (same : bigEndian count left = bigEndian count right) :
    left = right := by
  induction count generalizing left right with
  | zero => simp_all
  | succ count ih =>
    obtain ⟨high, low⟩ := List.append_inj same (by simp)
    have lowByte : left % 256 = right % 256 := by
      have bytes := congrArg UInt8.toNat (List.singleton_inj.mp low)
      simpa [Nat.mod_mod] using bytes
    have highPart : left / 256 = right / 256 := by
      apply ih _ _ high
      · rw [Nat.div_lt_iff_lt_mul (by decide), ← Nat.pow_succ]
        exact leftFits
      · rw [Nat.div_lt_iff_lt_mul (by decide), ← Nat.pow_succ]
        exact rightFits
    omega

/-! ## Length-prefixed frames -/

/-- Largest length that an eight-byte prefix can carry, exclusive. -/
def frameLimit : Nat := 256 ^ 8

/-- A byte string behind its eight-byte length. -/
def frame (value : List UInt8) : List UInt8 := bigEndian 8 value.length ++ value

theorem frame_append_inj {left right leftRest rightRest : List UInt8}
    (leftFits : left.length < frameLimit) (rightFits : right.length < frameLimit)
    (same : frame left ++ leftRest = frame right ++ rightRest) :
    left = right ∧ leftRest = rightRest := by
  simp only [frame, List.append_assoc] at same
  obtain ⟨lengths, bodies⟩ := List.append_inj same (by simp)
  exact List.append_inj bodies (bigEndian_injective leftFits rightFits lengths)

/-! ## UTF-8 -/

/-- The UTF-8 encoding of a text. -/
def utf8 (text : String) : List UInt8 := text.toList.flatMap String.utf8EncodeChar

theorem utf8_injective {left right : String} (same : utf8 left = utf8 right) : left = right := by
  rw [← String.toByteArray_inj, ← String.utf8Encode_toList, ← String.utf8Encode_toList]
  exact congrArg List.toByteArray same

/-! ## Base 64 -/

/-- One digit of the URL-safe alphabet. -/
def base64Digit (value : Nat) : Char :=
  if value < 26 then Char.ofNat (65 + value)
  else if value < 52 then Char.ofNat (71 + value)
  else if value < 62 then Char.ofNat (value - 4)
  else if value = 62 then '-'
  else '_'

/-- URL-safe digits of a byte string without padding. -/
def base64Url : List UInt8 → List Char
  | a :: b :: c :: rest =>
    let bits := (a.toNat * 256 + b.toNat) * 256 + c.toNat
    base64Digit (bits / 262144) :: base64Digit (bits / 4096 % 64) ::
      base64Digit (bits / 64 % 64) :: base64Digit (bits % 64) :: base64Url rest
  | [a, b] =>
    let bits := (a.toNat * 256 + b.toNat) * 4
    [base64Digit (bits / 4096), base64Digit (bits / 64 % 64), base64Digit (bits % 64)]
  | [a] => [base64Digit (a.toNat / 4), base64Digit (a.toNat % 4 * 16)]
  | [] => []

example : String.ofList (base64Url [251, 255, 254, 0]) = "-__-AA" := by decide

/-! ## Trimming -/

/-- Whether a character counts as whitespace when text is trimmed. -/
def isSpace (char : Char) : Bool :=
  let code := char.toNat
  (9 ≤ code && code ≤ 13) || (28 ≤ code && code ≤ 32) || code == 0x85 || code == 0xa0 ||
    code == 0x1680 || (0x2000 ≤ code && code ≤ 0x200a) || code == 0x2028 || code == 0x2029 ||
    code == 0x202f || code == 0x205f || code == 0x3000

/-- The text without whitespace at either end. -/
def strip (text : String) : String :=
  String.ofList ((text.toList.dropWhile isSpace).reverse.dropWhile isSpace).reverse

end Bytes
