import Tinkerfin.Lib.Utf8
import Tinkerfin.Tracing.Accounting

/-!
# The size an event states of itself

An event states the length of its own encoding, which depends on the number of digits of that
length.  Stating a size again and again settles: the first length fixes the number of digits up to
one, so that no further attempt than the fourth is needed.
-/

namespace Tinkerfin.Tracing

/-! ## Digits -/

theorem length_toDigits_mono {small large : Nat} (le : small ≤ large) :
    (Nat.toDigits 10 small).length ≤ (Nat.toDigits 10 large).length :=
  (Nat.length_toDigits_le_iff (by decide) (List.length_pos_iff.mpr Nat.toDigits_ne_nil)).mpr
    (le.trans_lt ((Nat.length_toDigits_le_iff (by decide)
      (List.length_pos_iff.mpr Nat.toDigits_ne_nil)).mp le_rfl))

/-- A length of a fixed base and the digits of the stated size settles in three steps: the size
stated first fixes the number of digits up to one. -/
theorem stated_size_settles (base : Nat) :
    let length (size : Nat) : Nat := base + (Nat.toDigits 10 size).length
    length^[4] 1 = length^[3] 1 := by
  intro length
  have one : length 1 = base + 1 := rfl
  simp only [Function.iterate_succ, Function.iterate_zero, Function.comp_apply, id, one]
  generalize counted : (Nat.toDigits 10 (base + 1)).length = first
  have second : length (base + 1) = base + first := by simp only [length, counted]
  rw [second]
  have some : 0 < first := counted ▸ List.length_pos_iff.mpr Nat.toDigits_ne_nil
  have low : base + 1 < 10 ^ first := (Nat.length_toDigits_le_iff (by decide) some).mp counted.le
  have room : first < 10 ^ first := Nat.lt_pow_self (by decide)
  have atLeast : first ≤ (Nat.toDigits 10 (base + first)).length :=
    counted ▸ length_toDigits_mono (by omega)
  have atMost : (Nat.toDigits 10 (base + (first + 1))).length ≤ first + 1 := by
    refine (Nat.length_toDigits_le_iff (by decide) (Nat.succ_pos _)).mpr ?_
    rw [pow_succ]
    omega
  have step : (Nat.toDigits 10 (base + first)).length ≤
      (Nat.toDigits 10 (base + (first + 1))).length := length_toDigits_mono (by omega)
  rcases atLeast.eq_or_lt with same | more
  · simp only [length, ← same]
  · have third : length (base + first) = base + (first + 1) := by
      simp only [length]
      omega
    rw [third]
    simp only [length]
    omega

theorem length_encode_of_isDigit {text : List Char} (digits : ∀ char ∈ text, char.isDigit) :
    (Utf8.encode text).length = text.length := by
  induction text with
  | nil => rfl
  | cons char text ih =>
    obtain ⟨first, others⟩ := List.forall_mem_cons.mp digits
    have ascii : char.utf8Size = 1 := by
      have small : char.val ≤ 57 := by
        simp only [Char.isDigit, Bool.and_eq_true, decide_eq_true_eq] at first
        exact first.2
      have bound : char.val ≤ 0x7F := UInt32.le_trans small (by decide)
      simp [Char.utf8Size, bound]
    rw [Utf8.encode_cons, List.length_append, ih others, String.length_utf8EncodeChar, ascii,
      List.length_cons, Nat.add_comm]

/-! ## The attempts -/

theorem sizedEvent_of_settled {encodedLength : TraceEvent → Nat} (event : TraceEvent)
    (length : Nat → Nat) {size attempts : Nat}
    (measured : ∀ size : Nat, encodedLength { event with persistedBytes := size } = length size)
    (settled : length^[attempts + 1] size = length^[attempts] size) :
    sizedEvent encodedLength { event with persistedBytes := size } (attempts + 1) =
      .ok { event with persistedBytes := (length^[attempts] size : Nat) } := by
  induction attempts generalizing size with
  | zero =>
    have fixed : length size = size := settled
    simp [sizedEvent, measured, fixed]
  | succ attempts ih =>
    unfold sizedEvent
    simp only [measured, Nat.cast_inj]
    split
    · next fixed => rw [Function.iterate_fixed fixed]
    · exact ih settled

/-- The length of the encoded dump of an event. -/
def dumpedLength (modelDumpJson : TraceEvent → List Char) (event : TraceEvent) : Nat :=
  (Utf8.encode (modelDumpJson event)).length

/-- Whatever an event is encoded to, if the decimal digits of its stated size stand between two
texts that do not depend on them, four attempts find the size: the event is made, and it states the
length of its own encoding. -/
theorem event_size_converges (modelDumpJson : TraceEvent → List Char)
    (written : ∀ event : TraceEvent, ∃ front back, ∀ size : Nat,
      modelDumpJson { event with persistedBytes := size } = front ++ Nat.toDigits 10 size ++ back)
    (eventId : String) (traceSeq : Int) (generation : String) (fact : TraceSemanticFact) :
    ∃ size : Nat,
      makeEvent (dumpedLength modelDumpJson) eventId traceSeq generation fact =
        .ok ⟨eventId, traceSeq, generation, fact, size⟩ ∧
      size = (Utf8.encode (modelDumpJson ⟨eventId, traceSeq, generation, fact, size⟩)).length := by
  obtain ⟨front, back, text⟩ := written ⟨eventId, traceSeq, generation, fact, 1⟩
  have ascii (size : Nat) : (Utf8.encode (Nat.toDigits 10 size)).length =
      (Nat.toDigits 10 size).length :=
    length_encode_of_isDigit fun _ digit =>
      Nat.isDigit_of_mem_toDigits (by decide) (by decide) digit
  have measured (size : Nat) :
      dumpedLength modelDumpJson ⟨eventId, traceSeq, generation, fact, size⟩ =
        (Utf8.encode front).length + (Utf8.encode back).length +
          (Nat.toDigits 10 size).length := by
    have one := text size
    simp only at one
    rw [dumpedLength, one, Utf8.encode_append, Utf8.encode_append, List.length_append, List.length_append,
      ascii]
    omega
  have made := sizedEvent_of_settled ⟨eventId, traceSeq, generation, fact, 1⟩ _ measured
    (stated_size_settles _)
  have settled := (makeEvent_eq_ok made).2.2.2.2
  exact ⟨_, made, Nat.cast_inj.mp settled⟩

/-- The encoded size of a call tracking fact has three digits. -/
theorem event_size_converges_sample :
    let front := "\x7b\"eventId\":\"event-1\",\"traceSeq\":1,\"generation\":\"first\",\"fact\":\x7b" ++
      "\"occurredAt\":\"1970-01-01T00:00:00Z\",\"monotonicNs\":0," ++
      "\"sourceObservationId\":\"observation\",\"identity\":\x7b\"namespace\":\"app\"," ++
      "\"threadId\":\"thread\",\"runId\":\"run\"\x7d,\"graphNamespace\":[]," ++
      "\"kind\":\"call.tracking\"\x7d,\"persistedBytes\":"
    let dump (event : TraceEvent) : List Char :=
      front.toList ++ Nat.toDigits 10 event.persistedBytes.toNat ++ "\x7d".toList
    let fact : TraceSemanticFact :=
      .callTracking { occurredAt := 0, identity := ⟨⟨"app", "thread"⟩, "run"⟩ }
    ∃ size : Nat,
      makeEvent (dumpedLength dump) "event-1" 1 "first" fact = .ok ⟨"event-1", 1, "first", fact, size⟩ ∧
      size = (Utf8.encode (dump ⟨"event-1", 1, "first", fact, size⟩)).length :=
  event_size_converges _ (fun _ => ⟨_, _, fun _ => rfl⟩) "event-1" 1 "first" _

end Tinkerfin.Tracing
