import Mathlib.Algebra.Group.Nat.Defs
import Mathlib.Data.Nat.Log
import Mathlib.Tactic.Common

/-!
# Seconds as binary floating-point text

A number of microseconds divided by a million is rounded to the nearest double and written with the
fewest digits that read back as the same double.  The magnitudes of interest are lengths of time, so
neither subnormal nor overflowing numbers occur.
-/

/-- A positive binary floating-point number `mantissa * 2 ^ exponent` of fifty-three bits. -/
structure Double where
  mantissa : Nat
  exponent : Int
  deriving DecidableEq, Repr

namespace Double

/-- The nearest integer to a quotient, the even one between two. -/
def roundDiv (numerator denominator : Nat) : Nat :=
  let quotient := numerator / denominator
  let rest := 2 * (numerator % denominator)
  if rest < denominator then quotient
  else if denominator < rest then quotient + 1
  else quotient + quotient % 2

/-- Numerator and denominator of a quotient scaled by a power of two. -/
def scaled (numerator denominator : Nat) (exponent : Int) : Nat × Nat :=
  (numerator * 2 ^ (-exponent).toNat, denominator * 2 ^ exponent.toNat)

/-- The nearest double to a positive quotient. -/
def nearest (numerator denominator : Nat) : Double :=
  let estimate := (Nat.log2 numerator : Int) - Nat.log2 denominator - 52
  let (top, bottom) := scaled numerator denominator estimate
  -- The estimate of the exponent is at most one too large.
  let exponent := if top / bottom < 2 ^ 52 then estimate - 1 else estimate
  let (top, bottom) := scaled numerator denominator exponent
  let mantissa := roundDiv top bottom
  if mantissa = 2 ^ 53 then ⟨2 ^ 52, exponent + 1⟩ else ⟨mantissa, exponent⟩

/-- The integer nearest to a double times a power of ten. -/
def decimal (double : Double) (places : Nat) : Nat :=
  roundDiv (double.mantissa * 10 ^ places * 2 ^ double.exponent.toNat)
    (2 ^ (-double.exponent).toNat)

/-- The fewest decimal places, at most so many more, that identify a double. -/
def places (double : Double) : (rounds from_ : Nat) → Nat
  | 0, from_ => from_
  | rounds + 1, from_ =>
    if nearest (double.decimal from_) (10 ^ from_) = double then from_
    else double.places rounds (from_ + 1)

/-- Decimal digits of a number, padded to a width with zeros. -/
def padded (width value : Nat) : List Char :=
  let digits := Nat.toDigits 10 value
  List.replicate (width - digits.length) '0' ++ digits

/-- The text of a number of microseconds as a number of seconds. -/
def secondsText (microseconds : Nat) : String :=
  if microseconds = 0 then
    "0.0"
  else
    let double := nearest microseconds 1000000
    let places := double.places 25 0
    let digits := double.decimal places
    if 100 ≤ microseconds then
      String.ofList (Nat.toDigits 10 (digits / 10 ^ places) ++ '.' ::
        if places = 0 then ['0'] else padded places (digits % 10 ^ places))
    else
      -- Below a ten-thousandth the text carries an exponent.
      let written := Nat.toDigits 10 digits
      let fraction := written.drop 1
      String.ofList (written.take 1 ++ (if fraction.isEmpty then [] else '.' :: fraction) ++
        'e' :: '-' :: padded 2 (places - fraction.length))

example : [0, 1, 99, 100, 60000000, 1800000000, 1500000, 8639999999999999999, 4611686018427387904].map
    secondsText = ["0.0", "1e-06", "9.9e-05", "0.0001", "60.0", "1800.0", "1.5", "8640000000000.0",
      "4611686018427.388"] := by
  decide +kernel

end Double
