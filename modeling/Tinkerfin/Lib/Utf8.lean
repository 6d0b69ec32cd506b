import Mathlib.Data.List.Basic
import Mathlib.Tactic.Common

/-!
# Decoding UTF-8

The decoder takes one byte at a time.  Each maximal piece of a malformed sequence is one error, and
a sequence that the end of the input cuts short is one more.
-/

namespace Utf8

/-! ## The decoder -/

/-- A sequence that was begun: the bytes that it owes after the next one, the bounds of the next one
and the value so far. -/
structure Pending where
  owed : Nat
  low : Nat
  high : Nat
  value : Nat
  deriving DecidableEq

/-- A decoded character, or an error. -/
abbrev Event := Option Char

/-- The first byte of a sequence. -/
def start (byte : Nat) : List Event × Option Pending :=
  if byte < 0x80 then ([some (Char.ofNat byte)], none)
  else if byte < 0xC2 then ([none], none)
  else if byte < 0xE0 then ([], some ⟨0, 0x80, 0xBF, byte - 0xC0⟩)
  -- Shorter encodings, surrogates and values beyond the last one are excluded by the second byte.
  else if byte = 0xE0 then ([], some ⟨1, 0xA0, 0xBF, 0⟩)
  else if byte = 0xED then ([], some ⟨1, 0x80, 0x9F, 0xD⟩)
  else if byte < 0xF0 then ([], some ⟨1, 0x80, 0xBF, byte - 0xE0⟩)
  else if byte = 0xF0 then ([], some ⟨2, 0x90, 0xBF, 0⟩)
  else if byte < 0xF4 then ([], some ⟨2, 0x80, 0xBF, byte - 0xF0⟩)
  else if byte = 0xF4 then ([], some ⟨2, 0x80, 0x8F, 4⟩)
  else ([none], none)

/-- One byte in or between sequences. -/
def step : Option Pending → Nat → List Event × Option Pending
  | none, byte => start byte
  | some pending, byte =>
    if pending.low ≤ byte ∧ byte ≤ pending.high then
      let value := pending.value * 64 + (byte - 0x80)
      match pending.owed with
      | 0 => ([some (Char.ofNat value)], none)
      | owed + 1 => ([], some ⟨owed, 0x80, 0xBF, value⟩)
    else
      (none :: (start byte).1, (start byte).2)

/-- The events of a part of the input, and what is pending behind it. -/
def scan : Option Pending → List UInt8 → List Event × Option Pending
  | pending, [] => ([], pending)
  | pending, byte :: bytes =>
    let (events, pending) := step pending byte.toNat
    let (others, pending) := scan pending bytes
    (events ++ others, pending)

/-- Decode a whole input with a replacement for errors. -/
def decode (replacement : List Char) (bytes : List UInt8) : List Char :=
  let (events, pending) := scan none bytes
  events.flatMap (fun event => event.elim replacement fun char => [char]) ++
    if pending.isSome then replacement else []

/-- The bytes of a text. -/
def encode (text : List Char) : List UInt8 := text.flatMap String.utf8EncodeChar

/-! ## Decoding an encoded text -/

@[simp] theorem encode_nil : encode [] = [] := rfl

@[simp] theorem encode_cons (char : Char) (text : List Char) :
    encode (char :: text) = String.utf8EncodeChar char ++ encode text := List.flatMap_cons

@[simp] theorem encode_append (left right : List Char) :
    encode (left ++ right) = encode left ++ encode right := List.flatMap_append

theorem length_le_encode (text : List Char) : text.length ≤ (encode text).length := by
  induction text with
  | nil => exact Nat.zero_le _
  | cons char text induction =>
    have positive : 0 < (String.utf8EncodeChar char).length := by
      rw [String.length_utf8EncodeChar]
      exact char.utf8Size_pos
    rw [encode_cons, List.length_cons, List.length_append]
    omega

theorem scan_append (pending : Option Pending) (left right : List UInt8) :
    scan pending (left ++ right) = ((scan pending left).1 ++ (scan (scan pending left).2 right).1,
      (scan (scan pending left).2 right).2) := by
  induction left generalizing pending with
  | nil => rfl
  | cons byte left induction => simp [scan, induction]

section Lead

variable {byte : Nat}

theorem start_two (low : 0xC2 ≤ byte) (high : byte < 0xE0) :
    start byte = ([], some ⟨0, 0x80, 0xBF, byte - 0xC0⟩) := by
  rw [start, if_neg (by omega), if_neg (by omega), if_pos high]

theorem start_three (low : 0xE0 ≤ byte) (high : byte < 0xF0) :
    start byte = ([], some ⟨1, if byte = 0xE0 then 0xA0 else 0x80,
      if byte = 0xED then 0x9F else 0xBF, byte - 0xE0⟩) := by
  rw [start, if_neg (by omega), if_neg (by omega), if_neg (by omega)]
  split
  · next first => simp [first]
  · split
    · next surrogates => simp [surrogates]
    · simp [high]

theorem start_four (low : 0xF0 ≤ byte) (high : byte ≤ 0xF4) :
    start byte = ([], some ⟨2, if byte = 0xF0 then 0x90 else 0x80,
      if byte = 0xF4 then 0x8F else 0xBF, byte - 0xF0⟩) := by
  rw [start, if_neg (by omega), if_neg (by omega), if_neg (by omega), if_neg (by omega),
    if_neg (by omega), if_neg (by omega)]
  split
  · next first => simp [first]
  · split
    · next middle => simp [Nat.ne_of_lt middle]
    · obtain rfl : byte = 0xF4 := by omega
      rfl

end Lead

/-- The bytes of one character are one event. -/
theorem scan_encodeChar (char : Char) :
    scan none (String.utf8EncodeChar char) = ([some char], none) := by
  have valid : char.toNat < 0xD800 ∨ 0xDFFF < char.toNat ∧ char.toNat < 0x110000 := char.valid
  have same : Char.ofNat char.toNat = char := Char.ofNat_toNat char
  have byte {value : Nat} (small : value < 256) : (UInt8.ofNat value).toNat = value :=
    Nat.mod_eq_of_lt small
  have inside : char.val.toNat = char.toNat := rfl
  simp only [String.utf8EncodeChar, inside]
  generalize char.toNat = value at valid same
  split
  · next one =>
      have first : start value = ([some char], none) := by
        rw [start, if_pos (by omega), same]
      simp only [scan, step, byte (show value < 256 by omega), first]
      rfl
  split
  · next two =>
      simp only [scan, step, byte (show value / 64 % 32 + 192 < 256 by omega),
        byte (show value % 64 + 128 < 256 by omega),
        start_two (show 194 ≤ value / 64 % 32 + 192 by omega) (by omega)]
      rw [if_pos (by omega)]
      have whole : (value / 64 % 32 + 192 - 192) * 64 + (value % 64 + 128 - 128) = value := by omega
      simp only [whole, same]
      rfl
  split
  · next three =>
      simp only [scan, step, byte (show value / 4096 % 16 + 224 < 256 by omega),
        byte (show value / 64 % 64 + 128 < 256 by omega),
        byte (show value % 64 + 128 < 256 by omega),
        start_three (show 224 ≤ value / 4096 % 16 + 224 by omega) (by omega)]
      rw [if_pos (by split <;> split <;> omega)]
      simp only
      rw [if_pos (by omega)]
      have whole : ((value / 4096 % 16 + 224 - 224) * 64 + (value / 64 % 64 + 128 - 128)) * 64 +
          (value % 64 + 128 - 128) = value := by omega
      simp only [whole, same]
      rfl
  · next four =>
      simp only [scan, step, byte (show value / 262144 % 8 + 240 < 256 by omega),
        byte (show value / 4096 % 64 + 128 < 256 by omega),
        byte (show value / 64 % 64 + 128 < 256 by omega),
        byte (show value % 64 + 128 < 256 by omega),
        start_four (show 240 ≤ value / 262144 % 8 + 240 by omega) (by omega)]
      rw [if_pos (by split <;> split <;> omega)]
      simp only
      rw [if_pos (by omega)]
      simp only
      rw [if_pos (by omega)]
      have whole : (((value / 262144 % 8 + 240 - 240) * 64 + (value / 4096 % 64 + 128 - 128)) * 64 +
          (value / 64 % 64 + 128 - 128)) * 64 + (value % 64 + 128 - 128) = value := by omega
      simp only [whole, same]
      rfl

theorem scan_encode (text : List Char) : scan none (encode text) = (text.map some, none) := by
  induction text with
  | nil => rfl
  | cons char text induction =>
    rw [encode_cons, scan_append, scan_encodeChar]
    simp only [induction]
    rfl

theorem decode_encode (replacement : List Char) (text : List Char) :
    decode replacement (encode text) = text := by
  rw [decode, scan_encode]
  simp [List.flatMap_map]

/-! ## Strict decoding -/

theorem lawfulEvents : LawfulBEq (Option Char) := inferInstance

attribute [local instance] lawfulEvents

/-- Decode a whole input, or nothing when there is an error. -/
def decodeStrict (bytes : List UInt8) : Option (List Char) :=
  let (events, pending) := scan none bytes
  if none ∈ events ∨ pending.isSome then none else some (events.filterMap id)

theorem decodeStrict_encode (text : List Char) : decodeStrict (encode text) = some text := by
  rw [decodeStrict, scan_encode]
  simp [List.filterMap_map]

/-! ## Decoding a part of an encoded text -/

theorem none_notMem_scan_take (text : List Char) (count : Nat) :
    none ∉ (scan none ((encode text).take count)).1 := by
  have whole := congrArg Prod.fst (scan_encode text)
  rw [← List.take_append_drop count (encode text), scan_append] at whole
  intro error
  have member : (none : Event) ∈ text.map some :=
    (show _ = text.map some from whole) ▸ List.mem_append_left _ error
  obtain ⟨char, -, impossible⟩ := List.mem_map.mp member
  cases impossible

theorem start_progress (byte : Nat) : (start byte).2 = none → (start byte).1 ≠ [] := by
  rw [start]
  split_ifs <;> simp

theorem step_progress (pending : Option Pending) (byte : Nat) :
    (step pending byte).2 = none → (step pending byte).1 ≠ [] := by
  cases pending with
  | none => exact start_progress byte
  | some pending =>
    simp only [step]
    split
    · cases pending.owed with
      | zero => exact fun _ => List.cons_ne_nil _ _
      | succ owed => nofun
    · exact fun _ => List.cons_ne_nil _ _

theorem scan_progress (pending : Option Pending) {bytes : List UInt8} (some : bytes ≠ [])
    (done : (scan pending bytes).2 = none) : (scan pending bytes).1 ≠ [] := by
  induction bytes generalizing pending with
  | nil => exact absurd rfl some
  | cons byte bytes induction =>
    intro empty
    obtain ⟨here, later⟩ := List.append_eq_nil_iff.mp empty
    rcases eq_or_ne bytes [] with rfl | more
    · exact step_progress pending _ done here
    · exact induction _ more done later

theorem scan_take_encodeChar (char : Char) {count : Nat}
    (short : count < (String.utf8EncodeChar char).length) :
    (scan none ((String.utf8EncodeChar char).take count)).1 = [] := by
  have whole := scan_encodeChar char
  rw [← List.take_append_drop count (String.utf8EncodeChar char), scan_append] at whole
  obtain ⟨events, done⟩ := Prod.mk.inj whole
  have rest : (String.utf8EncodeChar char).drop count ≠ [] :=
    List.ne_nil_of_length_pos (by rw [List.length_drop]; omega)
  have later := scan_progress _ rest done
  -- The rest has an event, and there is only one.
  rcases List.append_eq_singleton_iff.mp events with ⟨none, -⟩ | ⟨-, none⟩
  · exact none
  · exact absurd none later

theorem decode_encodeChar_append (replacement : List Char) (char : Char) (bytes : List UInt8) :
    decode replacement (String.utf8EncodeChar char ++ bytes) =
      char :: decode replacement bytes := by
  rw [decode, scan_append, scan_encodeChar]
  rfl

/-- A part of an encoded text, without a character that was cut, is the beginning of the text. -/
theorem decode_take (text : List Char) (count : Nat) :
    ∃ kept, decode [] ((encode text).take count) = text.take kept ∧
      (encode (text.take kept)).length ≤ count := by
  induction text generalizing count with
  | nil => exact ⟨0, by simp [decode, scan], by simp⟩
  | cons char text induction =>
    rw [encode_cons]
    by_cases short : count < (String.utf8EncodeChar char).length
    · refine ⟨0, ?_, by simp⟩
      rw [List.take_append_of_le_length (Nat.le_of_lt short), decode]
      simp [scan_take_encodeChar char short]
    · obtain ⟨kept, same, small⟩ := induction (count - (String.utf8EncodeChar char).length)
      refine ⟨kept + 1, ?_, ?_⟩
      · rw [List.take_append, List.take_of_length_le (Nat.not_lt.mp short),
          decode_encodeChar_append, same]
        rfl
      · rw [List.take_succ_cons, encode_cons, List.length_append]
        omega

/-! ## Strictly decoded bytes -/

/-- A begun sequence goes on with a byte in its bounds. -/
theorem scan_pending {pending : Pending} {bytes : List UInt8} {events : List Event}
    (scanned : scan (some pending) bytes = (events, none)) (clean : none ∉ events) :
    ∃ byte rest, bytes = byte :: rest ∧ pending.low ≤ byte.toNat ∧ byte.toNat ≤ pending.high ∧
      match pending.owed with
      | 0 => ∃ later, events =
          some (Char.ofNat (pending.value * 64 + (byte.toNat - 0x80))) :: later ∧
            scan none rest = (later, none)
      | owed + 1 => scan
          (some ⟨owed, 0x80, 0xBF, pending.value * 64 + (byte.toNat - 0x80)⟩) rest =
            (events, none) := by
  cases bytes with
  | nil => cases scanned
  | cons byte rest =>
    refine ⟨byte, rest, rfl, ?_⟩
    simp only [scan, step] at scanned
    split at scanned
    · next inside =>
        refine ⟨inside.1, inside.2, ?_⟩
        cases owed : pending.owed with
        | zero =>
          simp only [owed] at scanned
          obtain ⟨same, ended⟩ := Prod.mk.inj scanned
          exact ⟨_, same.symm, Prod.ext rfl ended⟩
        | succ owed' =>
          simp only [owed, List.nil_append] at scanned
          exact scanned
    · refine absurd ?_ clean
      rw [← (Prod.mk.inj scanned).1]
      simp

theorem encodeChar_of_bytes {value : Nat} {bytes : List UInt8} (valid : value.isValidChar)
    (same : bytes.map UInt8.toNat =
      if value ≤ 0x7F then [value]
      else if value ≤ 0x7FF then [value / 64 % 32 + 192, value % 64 + 128]
      else if value ≤ 0xFFFF then
        [value / 4096 % 16 + 224, value / 64 % 64 + 128, value % 64 + 128]
      else [value / 262144 % 8 + 240, value / 4096 % 64 + 128, value / 64 % 64 + 128,
        value % 64 + 128]) : String.utf8EncodeChar (Char.ofNat value) = bytes := by
  have inside : (Char.ofNat value).val.toNat = value := by
    rw [Char.ofNat, dif_pos valid]
    rfl
  refine List.map_injective_iff.mpr (fun _ _ equal => UInt8.toNat_inj.mp equal) ?_
  rw [same]
  simp only [String.utf8EncodeChar, inside]
  split_ifs <;> simp <;> omega

/-- A clean scan read the bytes of its characters. -/
theorem encode_scan (bytes : List UInt8) (events : List Event)
    (scanned : scan none bytes = (events, none)) (clean : none ∉ events) :
    encode (events.filterMap id) = bytes := by
  induction size : bytes.length using Nat.strongRecOn generalizing bytes events with
  | _ total induction =>
  cases bytes with
  | nil =>
    obtain rfl : events = [] := (Prod.mk.inj scanned).1.symm
    rfl
  | cons first rest =>
    have below := first.toNat_lt
    rw [List.length_cons] at size
    -- What follows a sequence is shorter, and the sequence is the bytes of its character.
    have follows (value : Nat) (read after : List UInt8) {later : List Event}
        (shorter : after.length < total) (whole : events = some (Char.ofNat value) :: later)
        (ended : scan none after = (later, none))
        (written : String.utf8EncodeChar (Char.ofNat value) = read) :
        encode (events.filterMap id) = read ++ after := by
      subst whole
      have tail :=
        induction _ shorter after later ended (fun inside => clean (.tail _ inside)) rfl
      rw [List.filterMap_cons_some (rfl : id (some (Char.ofNat value)) = _), encode_cons, tail,
        written]
    by_cases one : first.toNat < 0x80
    · have started : start first.toNat = ([some (Char.ofNat first.toNat)], none) := if_pos one
      simp only [scan, step, started] at scanned
      obtain ⟨same, ended⟩ := Prod.mk.inj scanned
      refine follows first.toNat [first] rest (by omega) same.symm (Prod.ext rfl ended) ?_
      refine encodeChar_of_bytes (.inl (by omega)) ?_
      rw [if_pos (by omega)]
      rfl
    by_cases refused : first.toNat < 0xC2
    · have started : start first.toNat = ([none], none) := by
        rw [start, if_neg one, if_pos refused]
      simp only [scan, step, started] at scanned
      exact absurd ((Prod.mk.inj scanned).1 ▸ List.mem_cons_self) clean
    by_cases two : first.toNat < 0xE0
    · have started := start_two (Nat.not_lt.mp refused) two
      simp only [scan, step, started] at scanned
      obtain ⟨second, rest, rfl, low, high, later, whole, after⟩ := scan_pending scanned clean
      simp only at low high whole
      simp only [List.length_cons] at size
      refine follows _ [first, second] rest (by omega) whole after ?_
      refine encodeChar_of_bytes (.inl (by omega)) ?_
      rw [if_neg (by omega), if_pos (by omega)]
      simp only [List.map_cons, List.map_nil, List.cons.injEq, and_true]
      omega
    by_cases three : first.toNat < 0xF0
    · have started := start_three (Nat.not_lt.mp two) three
      simp only [scan, step, started] at scanned
      obtain ⟨second, rest, rfl, low, high, scanned⟩ := scan_pending scanned clean
      simp only at low high scanned
      obtain ⟨third, rest, rfl, lower, higher, later, whole, after⟩ :=
        scan_pending scanned clean
      simp only at lower higher whole
      simp only [List.length_cons] at size
      refine follows _ [first, second, third] rest (by omega) whole after ?_
      refine encodeChar_of_bytes ?_ ?_
      · split_ifs at low high <;> simp only [Nat.isValidChar] <;> omega
      · rw [if_neg (by split_ifs at low high <;> omega),
          if_neg (by split_ifs at low high <;> omega),
          if_pos (by split_ifs at low high <;> omega)]
        simp only [List.map_cons, List.map_nil, List.cons.injEq, and_true]
        split_ifs at low high <;> omega
    by_cases four : first.toNat ≤ 0xF4
    · have started := start_four (Nat.not_lt.mp three) four
      simp only [scan, step, started] at scanned
      obtain ⟨second, rest, rfl, low, high, scanned⟩ := scan_pending scanned clean
      simp only at low high scanned
      obtain ⟨third, rest, rfl, lower, higher, scanned⟩ := scan_pending scanned clean
      simp only at lower higher scanned
      obtain ⟨fourth, rest, rfl, least, most, later, whole, after⟩ := scan_pending scanned clean
      simp only at least most whole
      simp only [List.length_cons] at size
      refine follows _ [first, second, third, fourth] rest (by omega) whole after ?_
      refine encodeChar_of_bytes ?_ ?_
      · split_ifs at low high <;> simp only [Nat.isValidChar] <;> omega
      · rw [if_neg (by split_ifs at low high <;> omega),
          if_neg (by split_ifs at low high <;> omega),
          if_neg (by split_ifs at low high <;> omega)]
        simp only [List.map_cons, List.map_nil, List.cons.injEq, and_true]
        split_ifs at low high <;> omega
    · have started : start first.toNat = ([none], none) := by
        rw [start, if_neg one, if_neg refused, if_neg two, if_neg (by omega), if_neg (by omega),
          if_neg (by omega), if_neg (by omega), if_neg (by omega), if_neg (by omega)]
      simp only [scan, step, started] at scanned
      exact absurd ((Prod.mk.inj scanned).1 ▸ List.mem_cons_self) clean

theorem encode_of_decodeStrict {bytes : List UInt8} {text : List Char}
    (decoded : decodeStrict bytes = some text) : encode text = bytes := by
  rcases scanned : scan none bytes with ⟨events, pending⟩
  rw [decodeStrict, scanned] at decoded
  by_cases wrong : none ∈ events ∨ pending.isSome = true
  · simp [wrong] at decoded
  · obtain ⟨clean, complete⟩ := not_or.mp wrong
    obtain rfl : pending = none := by simpa using complete
    simp only [wrong, if_false, Option.some.injEq] at decoded
    rw [← decoded]
    exact encode_scan bytes events scanned clean

end Utf8
