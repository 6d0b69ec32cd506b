import Tinkerfin.Lib.Bytes

/-!
# SHA-256

An executable SHA-256 over byte lists, following the standard's padding, message schedule and
compression.  Nothing here claims collision resistance: statements about equal digests name the
two byte strings and leave a collision as an explicit alternative.
-/

namespace Sha256

open Bytes

/-- The eight working variables. -/
structure State where
  a : UInt32
  b : UInt32
  c : UInt32
  d : UInt32
  e : UInt32
  f : UInt32
  g : UInt32
  h : UInt32

/-- Fractional bits of the square roots of the first eight primes. -/
def initial : State where
  a := 0x6a09e667
  b := 0xbb67ae85
  c := 0x3c6ef372
  d := 0xa54ff53a
  e := 0x510e527f
  f := 0x9b05688c
  g := 0x1f83d9ab
  h := 0x5be0cd19

/-- Fractional bits of the cube roots of the first sixty-four primes. -/
def roundConstants : List UInt32 := [
  0x428a2f98, 0x71374491, 0xb5c0fbcf, 0xe9b5dba5, 0x3956c25b, 0x59f111f1, 0x923f82a4, 0xab1c5ed5,
  0xd807aa98, 0x12835b01, 0x243185be, 0x550c7dc3, 0x72be5d74, 0x80deb1fe, 0x9bdc06a7, 0xc19bf174,
  0xe49b69c1, 0xefbe4786, 0x0fc19dc6, 0x240ca1cc, 0x2de92c6f, 0x4a7484aa, 0x5cb0a9dc, 0x76f988da,
  0x983e5152, 0xa831c66d, 0xb00327c8, 0xbf597fc7, 0xc6e00bf3, 0xd5a79147, 0x06ca6351, 0x14292967,
  0x27b70a85, 0x2e1b2138, 0x4d2c6dfc, 0x53380d13, 0x650a7354, 0x766a0abb, 0x81c2c92e, 0x92722c85,
  0xa2bfe8a1, 0xa81a664b, 0xc24b8b70, 0xc76c51a3, 0xd192e819, 0xd6990624, 0xf40e3585, 0x106aa070,
  0x19a4c116, 0x1e376c08, 0x2748774c, 0x34b0bcb5, 0x391c0cb3, 0x4ed8aa4a, 0x5b9cca4f, 0x682e6ff3,
  0x748f82ee, 0x78a5636f, 0x84c87814, 0x8cc70208, 0x90befffa, 0xa4506ceb, 0xbef9a3f7, 0xc67178f2]

/-- Rotate a word right. -/
def rotr (word : UInt32) (count : UInt32) : UInt32 :=
  (word >>> count) ||| (word <<< (32 - count))

/-- Append the mandatory bit, zero bytes, and the bit length. -/
def pad (message : List UInt8) : List UInt8 :=
  message ++ 0x80 :: List.replicate ((119 - message.length % 64) % 64) 0 ++
    bigEndian 8 (8 * message.length)

/-- Regroup bytes into big-endian words, dropping an incomplete tail. -/
def words : List UInt8 → List UInt32
  | p :: q :: r :: s :: rest =>
    (p.toUInt32 <<< 24 ||| q.toUInt32 <<< 16 ||| r.toUInt32 <<< 8 ||| s.toUInt32) :: words rest
  | _ => []

/-- Emit `count` schedule words from a sliding window of sixteen. -/
def schedule : Nat → List UInt32 → List UInt32
  | count + 1, window@(w₀ :: w₁ :: _) =>
    let w₉ := window.getD 9 0
    let w₁₄ := window.getD 14 0
    let s₀ := rotr w₁ 7 ^^^ rotr w₁ 18 ^^^ (w₁ >>> 3)
    let s₁ := rotr w₁₄ 17 ^^^ rotr w₁₄ 19 ^^^ (w₁₄ >>> 10)
    w₀ :: schedule count (window.tail ++ [s₁ + w₉ + s₀ + w₀])
  | _, _ => []

/-- One compression round with its constant and schedule word. -/
def round (state : State) (input : UInt32 × UInt32) : State :=
  let s₁ := rotr state.e 6 ^^^ rotr state.e 11 ^^^ rotr state.e 25
  let choice := (state.e &&& state.f) ^^^ (~~~state.e &&& state.g)
  let t₁ := state.h + s₁ + choice + input.1 + input.2
  let s₀ := rotr state.a 2 ^^^ rotr state.a 13 ^^^ rotr state.a 22
  let majority := (state.a &&& state.b) ^^^ (state.a &&& state.c) ^^^ (state.b &&& state.c)
  { a := t₁ + (s₀ + majority), b := state.a, c := state.b, d := state.c
    e := state.d + t₁, f := state.e, g := state.f, h := state.g }

/-- Compress one sixty-four byte block into the chaining state. -/
def compress (state : State) (block : List UInt8) : State :=
  let final := (roundConstants.zip (schedule 64 (words block))).foldl round state
  { a := state.a + final.a, b := state.b + final.b, c := state.c + final.c, d := state.d + final.d
    e := state.e + final.e, f := state.f + final.f, g := state.g + final.g, h := state.h + final.h }

/-- Compress `count` consecutive blocks. -/
def compressBlocks : Nat → State → List UInt8 → State
  | 0, state, _ => state
  | count + 1, state, bytes =>
    compressBlocks count (compress state (bytes.take 64)) (bytes.drop 64)

/-- The thirty-two digest bytes. -/
def digest (message : List UInt8) : List UInt8 :=
  let padded := pad message
  let final := compressBlocks (padded.length / 64) initial padded
  [final.a, final.b, final.c, final.d, final.e, final.f, final.g, final.h].flatMap fun word =>
    bigEndian 4 word.toNat

/-- One lowercase hexadecimal digit. -/
def hexDigit (value : Nat) : Char :=
  Char.ofNat (if value < 10 then 48 + value else 87 + value)

/-- Lowercase hexadecimal digest. -/
def hexdigest (message : List UInt8) : String :=
  String.ofList ((digest message).flatMap fun byte =>
    [hexDigit (byte.toNat / 16), hexDigit (byte.toNat % 16)])

example : hexdigest [97, 98, 99] =
    "ba7816bf8f01cfea414140de5dae2223b00361a396177a9cb410ff61f20015ad" := by
  decide +kernel

end Sha256
