import Mathlib.Data.List.SplitOn
import Tinkerfin.Lib.EventStream
import Tinkerfin.Lib.Utf8

/-!
# Server-sent event frames

A payload with its event id is encoded as one frame: a block of fields and a blank line.  The data is
split into one field for each of its lines.  A reader of the frames gets one event for each payload,
made of that payload's fields alone.
-/

namespace Tinkerfin.Run

open EventStream

/-- What a mapper may set; the event name has no line breaks. -/
structure SsePayload where
  data : String
  event : Option String := none
  retry : Option Nat := none
  eventHasNoLineBreaks : ∀ name ∈ event, InLine name.toList

inductive SseEventId
  | text (value : String)
  | number (value : Int)

/-- The text of an event id. -/
def SseEventId.str : SseEventId → String
  | .text value => value
  | .number value => toString value

/-- `ValueError` with its message. -/
structure SseValueError where
  message : String
  deriving DecidableEq

/-- Encode validated payload fields as one complete UTF-8 frame. -/
def encodeSsePayload (payload : SsePayload) (eventId : Option SseEventId) :
    Except SseValueError (List UInt8) := do
  let idLines ← match eventId with
    | none => .ok []
    | some eventId =>
      let value := eventId.str.toList
      if '\r' ∈ value ∨ '\n' ∈ value ∨ '\x00' ∈ value then
        .error ⟨"SSE event ID must not contain line breaks or null bytes"⟩
      else .ok ["id: ".toList ++ value]
  let eventLines := payload.event.toList.map fun event => "event: ".toList ++ event.toList
  let retryLines := payload.retry.toList.map fun retry => "retry: ".toList ++ (toString retry).toList
  let normalizedData := TextLines.translate payload.data.toList
  let dataLines := (normalizedData.splitOn '\n').map fun line => "data: ".toList ++ line
  let lines := idLines ++ eventLines ++ retryLines ++ dataLines
  .ok (Utf8.encode (['\n'].intercalate lines ++ "\n\n".toList))

/-! ## What a reader gets -/

/-- The data of a payload with every line break written as a line feed. -/
def SsePayload.normalizedData (payload : SsePayload) : List Char :=
  TextLines.translate payload.data.toList

/-- The fields of one frame: those the payload sets, and one for each line of its data. -/
def frameFields (payload : SsePayload) (eventId : Option SseEventId) : List Field :=
  eventId.toList.map (fun eventId => ("id".toList, eventId.str.toList)) ++
  payload.event.toList.map (fun event => ("event".toList, event.toList)) ++
  payload.retry.toList.map (fun retry => ("retry".toList, (toString retry).toList)) ++
  (payload.normalizedData.splitOn '\n').map fun line => ("data".toList, line)

/-- The event of each payload: its id and retry value, or else those in force before it, its event
name, its data, and the fields of its own frame. -/
def deliveries (lastEventId : List Char) (reconnectionTime : Option Nat) :
    List (SsePayload × Option SseEventId) → List Event
  | [] => []
  | (payload, eventId) :: frames =>
    let lastEventId := eventId.elim lastEventId (·.str.toList)
    let reconnectionTime := payload.retry.or reconnectionTime
    { eventType := payload.event.elim [] String.toList
      data := payload.normalizedData
      lastEventId, reconnectionTime
      fields := frameFields payload eventId } :: deliveries lastEventId reconnectionTime frames

/-! ## One frame -/

variable {payload : SsePayload} {eventId : Option SseEventId} {encoded : List UInt8}
  {buffers : Buffers}

theorem intercalate_append_singleton {lines : List (List Char)} (some : lines ≠ []) :
    ['\n'].intercalate lines ++ ['\n'] = lines.flatMap fun line => line ++ ['\n'] := by
  induction lines with
  | nil => exact absurd rfl some
  | cons line lines ih =>
    cases lines with
    | nil => simp
    | cons next lines =>
      rw [List.intercalate_cons_cons, List.append_assoc, ih (List.cons_ne_nil _ _)]
      rfl

theorem lines_normalizedData :
    ((payload.normalizedData.splitOn '\n').flatMap fun line => line ++ ['\n']) =
      payload.normalizedData ++ ['\n'] := by
  rw [← intercalate_append_singleton (List.splitOn_ne_nil _ _), List.intercalate_splitOn]

theorem frameFields_ne_nil : frameFields payload eventId ≠ [] := by
  simp [frameFields, List.splitOn_ne_nil]

theorem encoded_blockText : Utf8.encode (blockText (frameFields payload eventId)) =
    Utf8.encode (['\n'].intercalate ((frameFields payload eventId).map fieldLine) ++
      "\n\n".toList) := by
  have breaks : "\n\n".toList = ['\n'] ++ ['\n'] := rfl
  rw [breaks, ← List.append_assoc, intercalate_append_singleton (by simpa using frameFields_ne_nil),
    blockText, List.flatMap_map]

/-- A frame is accepted unless its event id has line breaks or null characters. -/
theorem encodeSsePayload_eq_ok (accepted : encodeSsePayload payload eventId = .ok encoded) :
    encoded = Utf8.encode (blockText (frameFields payload eventId)) ∧
      ∀ value ∈ eventId, InLine value.str.toList ∧ '\x00' ∉ value.str.toList := by
  rw [encoded_blockText]
  cases eventId with
  | none =>
    obtain rfl := Except.ok.inj accepted
    refine ⟨?_, fun _ member => (by cases member)⟩
    simp only [frameFields, List.map_append, List.map_map]
    rfl
  | some eventId =>
    simp only [encodeSsePayload] at accepted
    split at accepted
    · cases accepted
    · next plain =>
      obtain rfl := Except.ok.inj accepted
      refine ⟨?_, fun value member => ?_⟩
      · simp only [frameFields, List.map_append, List.map_map]
        rfl
      · obtain rfl := Option.mem_some.mp member
        simp only [not_or] at plain
        exact ⟨⟨plain.1, plain.2.1⟩, plain.2.2⟩

theorem isDigit_of_mem_toString {value : Nat} {char : Char}
    (member : char ∈ (toString value).toList) : char.isDigit := by
  rw [Nat.toString_eq_ofList_toDigits, String.toList_ofList] at member
  exact Nat.isDigit_of_mem_toDigits (by decide) (by decide) member

theorem inLine_toString (value : Nat) : InLine (toString value).toList := by
  constructor <;> exact fun member => absurd (isDigit_of_mem_toString member) (by decide)

theorem writable_frameFields
    (plain : ∀ value ∈ eventId, InLine value.str.toList ∧ '\x00' ∉ value.str.toList) :
    ∀ field ∈ frameFields payload eventId, Writable field := by
  have named (name : List Char) (value : List Char)
      (known : name ∈ ["id".toList, "event".toList, "retry".toList, "data".toList])
      (inLine : InLine value) : Writable (name, value) := by
    have all : ∀ name ∈ ["id".toList, "event".toList, "retry".toList, "data".toList],
        name ≠ [] ∧ byteOrderMark ∉ name ∧ ':' ∉ name ∧ '\r' ∉ name ∧ '\n' ∉ name := by decide
    obtain ⟨some, unmarked, colon, return_, feed⟩ := all name known
    exact ⟨some, unmarked, colon, ⟨return_, feed⟩, inLine⟩
  intro field member
  simp only [frameFields, List.mem_append, List.mem_map, Option.mem_toList] at member
  rcases member with ((⟨value, given, rfl⟩ | ⟨name, given, rfl⟩) | ⟨retry, given, rfl⟩) |
    ⟨line, split, rfl⟩
  · exact named _ _ (by simp) (plain value given).1
  · exact named _ _ (by simp) (payload.eventHasNoLineBreaks name given)
  · exact named _ _ (by simp) (inLine_toString retry)
  · refine named _ _ (by simp) ⟨fun return_ => ?_, TextLines.notMem_of_mem_splitOn split⟩
    have inside : '\r' ∈ (payload.normalizedData.splitOn '\n').flatMap fun line => line ++ ['\n'] :=
      List.mem_flatMap.mpr ⟨line, split, List.mem_append_left _ return_⟩
    rw [lines_normalizedData] at inside
    rcases List.mem_append.mp inside with data | feed
    · exact TextLines.no_return_translate _ data
    · simp at feed

theorem process_data (lines : List (List Char)) :
    (lines.map fun line => ("data".toList, line)).foldl Buffers.process buffers =
      { buffers with
        data := buffers.data ++ lines.flatMap fun line => line ++ ['\n']
        fields := buffers.fields ++ lines.map fun line => ("data".toList, line) } := by
  induction lines generalizing buffers with
  | nil => simp
  | cons line lines ih =>
    rw [List.map_cons, List.foldl_cons, ih]
    simp [Buffers.process, Buffers.collect]

theorem process_retry (retry : Nat) :
    buffers.process ("retry".toList, (toString retry).toList) =
      { buffers.collect ("retry".toList, (toString retry).toList) with
        reconnectionTime := some retry } := by
  have digits : (toString retry).toList.all Char.isDigit = true :=
    List.all_eq_true.mpr fun _ member => isDigit_of_mem_toString member
  have value : (toString retry).toList = Nat.toDigits 10 retry := by
    rw [Nat.toString_eq_ofList_toDigits, String.toList_ofList]
  have filled : (toString retry).toList ≠ [] := value ▸ Nat.toDigits_ne_nil
  simp only [Buffers.process]
  rw [if_neg (by decide), if_neg (by decide), if_neg (by decide), if_pos trivial,
    if_pos ⟨filled, digits⟩, value, Nat.ofDigitChars_ten_toDigits]

/-- Reading the fields of a frame sets exactly what its payload says. -/
theorem process_frameFields
    (plain : ∀ value ∈ eventId, InLine value.str.toList ∧ '\x00' ∉ value.str.toList)
    (fresh : buffers.blank = buffers) :
    (frameFields payload eventId).foldl Buffers.process buffers =
      { eventType := payload.event.elim [] String.toList
        data := payload.normalizedData ++ ['\n']
        lastEventId := eventId.elim buffers.lastEventId (·.str.toList)
        reconnectionTime := payload.retry.or buffers.reconnectionTime
        fields := frameFields payload eventId } := by
  have identified : (eventId.toList.map fun eventId => ("id".toList, eventId.str.toList)).foldl
      Buffers.process buffers = { buffers with
        lastEventId := eventId.elim buffers.lastEventId (·.str.toList)
        fields := eventId.toList.map fun eventId => ("id".toList, eventId.str.toList) } := by
    rw [← fresh]
    cases eventId with
    | none => rfl
    | some value =>
      have present := (plain value rfl).2
      simp [Buffers.process, Buffers.collect, Buffers.blank, present]
  rw [frameFields, List.foldl_append, List.foldl_append, List.foldl_append, identified,
    process_data, lines_normalizedData, ← fresh]
  cases payload.event with
  | none =>
    cases payload.retry with
    | none => simp [Buffers.blank]
    | some retry =>
      simp only [Option.toList_some, Option.toList_none, List.map_cons, List.map_nil,
        List.foldl_cons, List.foldl_nil, process_retry]
      simp [Buffers.blank, Buffers.collect]
  | some name =>
    cases payload.retry with
    | none => simp [Buffers.blank, Buffers.process, Buffers.collect]
    | some retry =>
      simp only [Option.toList_some, List.map_cons, List.map_nil, List.foldl_cons, List.foldl_nil,
        process_retry]
      simp [Buffers.blank, Buffers.process, Buffers.collect]

/-! ## Streams of frames -/

theorem replay_frames {frames : List (SsePayload × Option SseEventId)}
    (plain : ∀ frame ∈ frames, ∀ value ∈ frame.2,
      InLine value.str.toList ∧ '\x00' ∉ value.str.toList)
    (fresh : buffers.blank = buffers) :
    replay buffers (frames.map fun frame => frameFields frame.1 frame.2) =
      deliveries buffers.lastEventId buffers.reconnectionTime frames := by
  induction frames generalizing buffers with
  | nil => rfl
  | cons frame frames ih =>
    obtain ⟨payload, eventId⟩ := frame
    obtain ⟨first, others⟩ := List.forall_mem_cons.mp plain
    rw [List.map_cons, replay, process_frameFields first fresh, ih others rfl, deliveries]
    simp [Buffers.dispatch, Buffers.blank]

theorem encoded_frames {frames : List (SsePayload × Option SseEventId)}
    {encoded : List (List UInt8)}
    (accepted : frames.mapM (fun frame => encodeSsePayload frame.1 frame.2) = .ok encoded) :
    encoded.flatten = Utf8.encode
      ((frames.map fun frame => frameFields frame.1 frame.2).flatMap blockText) ∧
    ∀ frame ∈ frames, ∀ value ∈ frame.2,
      InLine value.str.toList ∧ '\x00' ∉ value.str.toList := by
  induction frames generalizing encoded with
  | nil =>
    obtain rfl := Except.ok.inj accepted
    exact ⟨rfl, fun _ member => (by cases member)⟩
  | cons frame frames ih =>
    rw [List.mapM_cons] at accepted
    cases first : encodeSsePayload frame.1 frame.2 with
    | error failure => simp [first, bind, Except.bind] at accepted
    | ok bytes =>
      cases rest : frames.mapM fun frame => encodeSsePayload frame.1 frame.2 with
      | error failure => simp [first, rest, bind, Except.bind] at accepted
      | ok others =>
        simp only [first, rest, bind, Except.bind, pure, Except.pure, Except.ok.injEq] at accepted
        subst accepted
        obtain ⟨same, plain⟩ := encodeSsePayload_eq_ok first
        obtain ⟨sames, plains⟩ := ih rest
        refine ⟨?_, List.forall_mem_cons.mpr ⟨plain, plains⟩⟩
        rw [List.flatten_cons, same, sames, List.map_cons, List.flatMap_cons, Utf8.encode_append]

/-- Reading the frames of accepted payloads gives one event for each payload, made of the fields of
its own frame. -/
theorem sse_round_trip (frames : List (SsePayload × Option SseEventId))
    (encoded : List (List UInt8))
    (accepted : frames.mapM (fun frame => encodeSsePayload frame.1 frame.2) = .ok encoded) :
    parse (Utf8.decode [Char.ofNat 0xFFFD] encoded.flatten) = deliveries [] none frames := by
  obtain ⟨text, plain⟩ := encoded_frames accepted
  rw [text, Utf8.decode_encode, parse_blocks, replay_frames plain rfl]
  intro block member
  obtain ⟨frame, stored, rfl⟩ := List.mem_map.mp member
  exact writable_frameFields (plain frame stored)

/-- Data that looks like an event id and like the end of a frame stays data. -/
theorem sse_round_trip_sample :
    let payload : SsePayload := ⟨"a\r\rid: 7\n\n", some "note", some 5, by simp [InLine]⟩
    ∃ encoded, parse (Utf8.decode [Char.ofNat 0xFFFD] encoded) =
      deliveries [] none [(payload, some (.number 3)), (payload, none)] :=
  ⟨_, sse_round_trip [(_, some (.number 3)), (_, none)] _ rfl⟩

end Tinkerfin.Run
