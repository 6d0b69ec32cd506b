import Tinkerfin.Lib.Sha256

/-!
# Name-based UUIDs

An executable SHA-1 over byte lists and the version 5 UUID that is built from it.  Nothing here
claims that distinct names have distinct UUIDs.
-/

namespace Sha1

open Bytes

/-- The five working variables. -/
structure State where
  a : UInt32
  b : UInt32
  c : UInt32
  d : UInt32
  e : UInt32

def initial : State where
  a := 0x67452301
  b := 0xefcdab89
  c := 0x98badcfe
  d := 0x10325476
  e := 0xc3d2e1f0

/-- Rotate a word left. -/
def rotl (word : UInt32) (count : UInt32) : UInt32 :=
  (word <<< count) ||| (word >>> (32 - count))

/-- Emit `count` schedule words from a sliding window of sixteen. -/
def schedule : Nat → List UInt32 → List UInt32
  | count + 1, window@(w₀ :: _) =>
    let mixed := window.getD 13 0 ^^^ window.getD 8 0 ^^^ window.getD 2 0 ^^^ w₀
    w₀ :: schedule count (window.tail ++ [rotl mixed 1])
  | _, _ => []

/-- The bit function and the constant of a round. -/
def roundFunction (index : Nat) (b c d : UInt32) : UInt32 × UInt32 :=
  if index < 20 then ((b &&& c) ||| (~~~b &&& d), 0x5a827999)
  else if index < 40 then (b ^^^ c ^^^ d, 0x6ed9eba1)
  else if index < 60 then ((b &&& c) ||| (b &&& d) ||| (c &&& d), 0x8f1bbcdc)
  else (b ^^^ c ^^^ d, 0xca62c1d6)

/-- One round with its index and schedule word. -/
def round (state : State) (input : UInt32 × Nat) : State :=
  let (mixed, constant) := roundFunction input.2 state.b state.c state.d
  { a := rotl state.a 5 + mixed + state.e + constant + input.1
    b := state.a
    c := rotl state.b 30
    d := state.c
    e := state.d }

/-- Compress one sixty-four byte block into the chaining state. -/
def compress (state : State) (block : List UInt8) : State :=
  let final := (schedule 80 (Sha256.words block)).zipIdx.foldl round state
  { a := state.a + final.a, b := state.b + final.b, c := state.c + final.c
    d := state.d + final.d, e := state.e + final.e }

/-- Compress `count` consecutive blocks. -/
def compressBlocks : Nat → State → List UInt8 → State
  | 0, state, _ => state
  | count + 1, state, bytes =>
    compressBlocks count (compress state (bytes.take 64)) (bytes.drop 64)

/-- The twenty digest bytes; the padding is that of SHA-256. -/
def digest (message : List UInt8) : List UInt8 :=
  let padded := Sha256.pad message
  let final := compressBlocks (padded.length / 64) initial padded
  [final.a, final.b, final.c, final.d, final.e].flatMap fun word => bigEndian 4 word.toNat

end Sha1

namespace Uuid

open Bytes

/-- Lowercase hexadecimal text of bytes. -/
def hex (bytes : List UInt8) : List Char :=
  bytes.flatMap fun byte =>
    [Sha256.hexDigit (byte.toNat / 16), Sha256.hexDigit (byte.toNat % 16)]

/-- The grouped text of sixteen bytes. -/
def text (bytes : List UInt8) : String :=
  let digits := hex bytes
  String.ofList (digits.take 8 ++ '-' :: (digits.drop 8).take 4 ++
    '-' :: (digits.drop 12).take 4 ++ '-' :: (digits.drop 16).take 4 ++ '-' :: digits.drop 20)

/-- Set the version and the variant bits of sixteen bytes. -/
def versioned (bytes : List UInt8) : List UInt8 :=
  (bytes.set 6 ((bytes.getD 6 0 &&& 0x0f) ||| 0x50)).set 8 ((bytes.getD 8 0 &&& 0x3f) ||| 0x80)

/-- The UUID of a name inside a namespace given by its sixteen bytes. -/
def uuid5 («namespace» : List UInt8) (name : String) : String :=
  text (versioned ((Sha1.digest («namespace» ++ utf8 name)).take 16))

/-- Bytes of the predefined namespace of domain names. -/
def dnsNamespace : List UInt8 :=
  [0x6b, 0xa7, 0xb8, 0x10, 0x9d, 0xad, 0x11, 0xd1, 0x80, 0xb4, 0x00, 0xc0, 0x4f, 0xd4, 0x30, 0xc8]

example : uuid5 dnsNamespace "python.org" = "886313e1-3b8a-5372-9b90-0c9aee199e5d" := by
  decide +kernel

end Uuid
