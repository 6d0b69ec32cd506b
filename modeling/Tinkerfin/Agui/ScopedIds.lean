import Tinkerfin.Lib.Base64
import Tinkerfin.Lib.JsonLoads
import Tinkerfin.Lib.Utf8

/-!
# Scoped IDs

An ID of the event protocol is a prefix, a kind and an unpadded base 64 token of the JSON text of a
graph namespace and a native ID.  The adapter checks the IDs that a resumed run brings along by
decoding them, and keeps them as they came.
-/

namespace Tinkerfin.Agui

open JsonLoads (Text Value)

inductive ScopedIdKind
  | message
  | tool
  | reasoning
  | reasoningMessage
  deriving DecidableEq

namespace ScopedIdKind

def text : ScopedIdKind → String
  | message => "message"
  | tool => "tool"
  | reasoning => "reasoning"
  | reasoningMessage => "reasoning-message"

/-- The kind of a name. -/
def ofText? (name : List Char) : Option ScopedIdKind :=
  [message, tool, reasoning, reasoningMessage].find? fun kind => kind.text.toList = name

theorem ofText?_text (kind : ScopedIdKind) : ofText? kind.text.toList = some kind := by
  cases kind <;> decide +kernel

theorem text_of_ofText? {name : List Char} {kind : ScopedIdKind}
    (found : ofText? name = some kind) : name = kind.text.toList := by
  have same := List.find?_some found
  exact (of_decide_eq_true same).symm

theorem separator_notMem (kind : ScopedIdKind) : ':' ∉ kind.text.toList := by
  cases kind <;> decide +kernel

end ScopedIdKind

/-- What the codec raises. -/
inductive CodecError
  | valueError (message : String)
  /-- A surrogate that stands alone has no bytes. -/
  | unicodeEncodeError
  deriving DecidableEq

def invalidScopedId : CodecError := .valueError "invalid scoped ID"

/-- Cut a text at the first separator. -/
def cut (separator : Char) : List Char → Option (List Char × List Char)
  | [] => none
  | char :: chars =>
    if char = separator then some ([], chars)
    else (cut separator chars).map fun (left, right) => (char :: left, right)

namespace ScopedIdCodec

/-- A non-empty segment of a namespace. -/
def segment? : Value → Option Text
  | .string text => if text = [] then none else some text
  | _ => none

def validate (graphNamespace : List Value) (rawId : Text) : Except CodecError (List Text) :=
  match graphNamespace.mapM segment? with
  | none => .error (.valueError "graph_namespace must contain only non-empty strings")
  | some segments =>
    if rawId = [] then .error (.valueError "raw ID must be a non-empty string")
    else .ok segments

/-- A text without surrogates. -/
def string? (text : Text) : Option String := text.chars?.map String.ofList

/-- The JSON value of a namespace and an ID. -/
def payload (graphNamespace : List String) (rawId : String) : Json :=
  .array [.array (graphNamespace.map .string), .string rawId]

/-- The bytes of the JSON text. -/
def bytes? (graphNamespace : List Text) (rawId : Text) : Option (List UInt8) := do
  let names ← graphNamespace.mapM string?
  let id ← string? rawId
  some (Utf8.encode (payload names id).dumps.toList)

def spelling (kind : ScopedIdKind) (token : List Char) : String :=
  String.ofList ("tf".toList ++ ':' :: (kind.text.toList ++ ':' :: token))

def encode (kind : ScopedIdKind) (graphNamespace : List Text) (rawId : Text) :
    Except CodecError String :=
  match validate (graphNamespace.map .string) rawId with
  | .error error => .error error
  | .ok _ =>
    match bytes? graphNamespace rawId with
    | none => .error .unicodeEncodeError
    | some bytes => .ok (spelling kind (Base64.encode bytes))

/-- The text that a token stands for. -/
def text? (token : List Char) : Option (List Char) :=
  (Base64.decodeStrict (token ++ Base64.padding token.length)).bind Utf8.decodeStrict

/-- The parts of a text with two separators. -/
def parts? (value : String) : Option (List Char × List Char × List Char) := do
  let (front, rest) ← cut ':' value.toList
  let (rawKind, token) ← cut ':' rest
  some (front, rawKind, token)

def decode (value : String) : Except CodecError (ScopedIdKind × List Text × Text) :=
  match parts? value with
  | none => .error invalidScopedId
  | some (front, rawKind, token) =>
    match ScopedIdKind.ofText? rawKind with
    | none => .error invalidScopedId
    | some kind =>
      if front ≠ "tf".toList ∨ token = [] then .error invalidScopedId
      else if token.any fun char => 128 ≤ char.toNat then
        .error (.valueError "string argument should contain only ASCII characters")
      else
        match (text? token).bind JsonLoads.loads with
        | some (.array [.array graphNamespace, .string rawId]) =>
          match validate graphNamespace rawId with
          | .error error => .error error
          | .ok segments => .ok (kind, segments, rawId)
        | _ => .error invalidScopedId

/-! ## Parts -/

section Parts

variable {separator : Char} {left right chars : List Char}

theorem cut_append (plain : separator ∉ left) (right : List Char) :
    cut separator (left ++ separator :: right) = some (left, right) := by
  induction left with
  | nil => rw [List.nil_append, cut, if_pos rfl]
  | cons char left ih =>
    simp only [List.mem_cons, not_or] at plain
    rw [List.cons_append, cut, if_neg (Ne.symm plain.1), ih plain.2]
    rfl

theorem cut_eq (found : cut separator chars = some (left, right)) :
    chars = left ++ separator :: right := by
  induction chars generalizing left with
  | nil => cases found
  | cons char chars ih =>
    rw [cut] at found
    split_ifs at found with here
    · obtain ⟨rfl, rfl⟩ := Prod.mk.inj (Option.some.inj found)
      rw [here]
      rfl
    · obtain ⟨⟨front, back⟩, inner, equal⟩ := Option.map_eq_some_iff.mp found
      obtain ⟨rfl, rfl⟩ := Prod.mk.inj equal
      rw [ih inner]
      rfl

theorem parts?_spelling (kind : ScopedIdKind) (token : List Char) :
    parts? (spelling kind token) = some ("tf".toList, kind.text.toList, token) := by
  rw [parts?, spelling, String.toList_ofList, cut_append (by decide +kernel)]
  simp only [Option.bind_eq_bind, Option.bind_some, cut_append kind.separator_notMem]

theorem spelling_of_parts? {value : String} {kind : ScopedIdKind} {token : List Char}
    (found : parts? value = some ("tf".toList, kind.text.toList, token)) :
    value = spelling kind token := by
  obtain ⟨⟨front, rest⟩, first, found⟩ := Option.bind_eq_some_iff.mp found
  obtain ⟨⟨rawKind, last⟩, second, found⟩ := Option.bind_eq_some_iff.mp found
  simp only [Option.some.injEq, Prod.mk.injEq] at found
  obtain ⟨rfl, rfl, rfl⟩ := found
  apply String.toList_injective
  rw [spelling, String.toList_ofList, cut_eq first, cut_eq second]

end Parts

/-! ## What is accepted -/

/-- The text of a string. -/
def ofString (text : String) : Text := .ofChars text.toList

section Accepted

variable {kind : ScopedIdKind} {names : List Text} {rawId : Text} {values : List Value}

theorem segment?_eq {value : Value} {text : Text} :
    segment? value = some text ↔ value = .string text ∧ text ≠ [] := by
  cases value with
  | string read =>
    rw [segment?]
    split_ifs with empty
    · constructor
      · nofun
      · rintro ⟨equal, some⟩
        exact absurd (Value.string.inj equal ▸ empty) some
    · constructor
      · rintro equal
        obtain rfl := Option.some.inj equal
        exact ⟨rfl, empty⟩
      · rintro ⟨equal, -⟩
        exact congrArg some (Value.string.inj equal)
  | null | bool | number | array | object => simp [segment?]

/-- A list is read when each of its items is, and is what was written. -/
theorem mapM_read {α β : Type} {read : α → Option β} {write : β → α} {Good : β → Prop}
    (reads : ∀ item value, read item = some value ↔ item = write value ∧ Good value)
    {items : List α} {found : List β} :
    items.mapM read = some found ↔ items = found.map write ∧ ∀ value ∈ found, Good value := by
  induction items generalizing found with
  | nil => cases found <;> simp
  | cons item items ih =>
    simp only [List.mapM_cons, Option.bind_eq_bind, Option.bind_eq_some_iff, Option.pure_def,
      Option.some.injEq]
    constructor
    · rintro ⟨value, here, others, later, rfl⟩
      obtain ⟨rfl, good⟩ := (reads _ _).mp here
      obtain ⟨rfl, rest⟩ := ih.mp later
      exact ⟨rfl, List.forall_mem_cons.mpr ⟨good, rest⟩⟩
    · rintro ⟨equal, good⟩
      cases found with
      | nil => cases equal
      | cons value found =>
        obtain ⟨rfl, rfl⟩ := List.cons.inj equal
        obtain ⟨here, rest⟩ := List.forall_mem_cons.mp good
        exact ⟨value, (reads _ _).mpr ⟨rfl, here⟩, found, ih.mpr ⟨rfl, rest⟩, rfl⟩

theorem validate_eq : validate values rawId = .ok names ↔
    values = names.map .string ∧ (∀ name ∈ names, name ≠ []) ∧ rawId ≠ [] := by
  rw [← and_assoc, ← mapM_read fun _ _ => segment?_eq, validate]
  cases values.mapM segment? with
  | none => simp
  | some segments =>
    by_cases empty : rawId = []
    · simp [empty]
    · simp [empty]

theorem string?_eq {text : Text} {string : String} :
    string? text = some string ↔ text = ofString string ∧ True := by
  rw [string?, Option.map_eq_some_iff, and_true]
  constructor
  · rintro ⟨chars, read, rfl⟩
    rw [ofString, String.toList_ofList]
    exact Text.ofChars_of_chars? read
  · rintro rfl
    exact ⟨string.toList, Text.chars?_ofChars _, String.ofList_toList⟩

/-- What a namespace and an ID are encoded to. -/
theorem encode_eq {text : String} : encode kind names rawId = .ok text ↔
    (∀ name ∈ names, name ≠ []) ∧ rawId ≠ [] ∧ ∃ segments id, names = segments.map ofString ∧
      rawId = ofString id ∧ text = spelling kind
        (Base64.encode (Utf8.encode (payload segments id).dumps.toList)) := by
  rw [encode]
  cases checked : validate (names.map .string) rawId with
  | error error =>
    refine ⟨nofun, ?_⟩
    rintro ⟨plain, some, -⟩
    rw [validate_eq.mpr ⟨rfl, plain, some⟩] at checked
    cases checked
  | ok segments =>
    obtain ⟨same, plain, some⟩ := validate_eq.mp checked
    obtain rfl : names = segments :=
      List.map_injective_iff.mpr (fun _ _ => Value.string.inj) same
    simp only
    constructor
    · intro encoded
      cases read : bytes? names rawId with
      | none =>
        rw [read] at encoded
        cases encoded
      | some bytes =>
        rw [read] at encoded
        obtain ⟨segments, listed, rest⟩ := Option.bind_eq_some_iff.mp read
        obtain ⟨id, named, rest⟩ := Option.bind_eq_some_iff.mp rest
        obtain rfl := Option.some.inj rest
        refine ⟨plain, some, segments, id, ((mapM_read fun _ _ => string?_eq).mp listed).1,
          (string?_eq.mp named).1, ?_⟩
        exact (Except.ok.inj encoded).symm
    · rintro ⟨-, -, segments, id, rfl, rfl, rfl⟩
      have read : bytes? (segments.map ofString) (ofString id) =
          Option.some (Utf8.encode (payload segments id).dumps.toList) := by
        rw [bytes?, (mapM_read fun _ _ => string?_eq).mpr ⟨rfl, fun _ _ => trivial⟩,
          string?_eq.mpr ⟨rfl, trivial⟩]
        rfl
      rw [read]

/-- What a text is decoded to. -/
theorem decode_eq {text : String} : decode text = .ok (kind, names, rawId) ↔
    ∃ token chars, text = spelling kind token ∧ token ≠ [] ∧ (∀ char ∈ token, char.toNat < 128) ∧
      text? token = some chars ∧
      JsonLoads.loads chars = some (.array [.array (names.map .string), .string rawId]) ∧
      (∀ name ∈ names, name ≠ []) ∧ rawId ≠ [] := by
  constructor
  · intro decoded
    rw [decode] at decoded
    cases parts : parts? text with
    | none =>
      rw [parts] at decoded
      cases decoded
    | some found =>
    obtain ⟨front, rawKind, token⟩ := found
    rw [parts] at decoded
    simp only at decoded
    cases known : ScopedIdKind.ofText? rawKind with
    | none =>
      rw [known] at decoded
      cases decoded
    | some found =>
    rw [known] at decoded
    simp only at decoded
    split_ifs at decoded with wrong ascii
    obtain ⟨same, filled⟩ := not_or.mp wrong
    cases read : text? token with
    | none =>
      rw [read] at decoded
      cases decoded
    | some chars =>
    rw [read, Option.bind_some] at decoded
    split at decoded
    · next segments id loaded =>
        cases checked : validate segments id with
        | error =>
          rw [checked] at decoded
          cases decoded
        | ok listed =>
          rw [checked] at decoded
          obtain ⟨rfl, equal⟩ := Prod.mk.inj (Except.ok.inj decoded)
          obtain ⟨rfl, rfl⟩ := Prod.mk.inj equal
          obtain ⟨rfl, plain, some⟩ := validate_eq.mp checked
          rw [not_not.mp same, ScopedIdKind.text_of_ofText? known] at parts
          refine ⟨token, chars, spelling_of_parts? parts, filled, ?_, read, loaded, plain, some⟩
          intro char inside
          by_contra high
          exact ascii (List.any_eq_true.mpr ⟨char, inside, decide_eq_true (Nat.not_lt.mp high)⟩)
    · cases decoded
  · rintro ⟨token, chars, rfl, some, ascii, read, loaded, plain, raw⟩
    rw [decode, parts?_spelling]
    simp only [ScopedIdKind.ofText?_text]
    rw [if_neg (by simp [some]), if_neg, read, Option.bind_some, loaded]
    · simp only [validate_eq.mpr ⟨rfl, plain, raw⟩]
    · intro beyond
      obtain ⟨char, inside, high⟩ := List.any_eq_true.mp beyond
      exact absurd (ascii char inside) (Nat.not_lt.mpr (of_decide_eq_true high))

end Accepted

/-! ## Both directions -/

/-- The token of an ID. -/
def tokenOf (value : String) : List Char := (parts? value).elim [] fun parts => parts.2.2

/-- One of the spellings of a token: the URL-safe alphabet without padding, no bits that belong to
no byte, and JSON text without whitespace and without escapes other than those that are written. -/
def IsCanonical (value : String) : Prop :=
  '=' ∉ tokenOf value ∧ '+' ∉ tokenOf value ∧ '/' ∉ tokenOf value ∧
    Base64.SpareBitsZero (tokenOf value) ∧
    ∀ chars, text? (tokenOf value) = some chars → JsonLoads.Compact false chars

theorem tokenOf_spelling (kind : ScopedIdKind) (token : List Char) :
    tokenOf (spelling kind token) = token := by
  rw [tokenOf, parts?_spelling]
  rfl

section Directions

variable {kind : ScopedIdKind} {names : List Text} {rawId : Text} {text : String}

theorem text?_encode (chars : List Char) :
    text? (Base64.encode (Utf8.encode chars)) = some chars := by
  rw [text?, Base64.decodeStrict_encode, Option.bind_some, Utf8.decodeStrict_encode]

theorem readable_names (names : List String) :
    List.Forall₂ (JsonLoads.Readable 1) (names.map .string)
      ((names.map ofString).map .string) := by
  rw [List.map_map, List.forall₂_map_left_iff, List.forall₂_map_right_iff, List.forall₂_same]
  exact fun name _ => JsonLoads.readable_string name

theorem length_dumps_array (items : List Json) :
    items.length < (Json.dumps (.array items)).toList.length := by
  have tail (items : List Json) :
      items.length < (Json.listTail ']' (items.map fun item => item.dumps.toList)).length := by
    induction items with
    | nil => exact Nat.zero_lt_one
    | cons item items ih =>
      rw [List.map_cons, Json.listTail, List.length_append, List.length_cons, List.length_cons]
      omega
  rw [Json.toList_dumps_array, List.length_cons]
  cases items with
  | nil => exact Nat.zero_lt_succ _
  | cons item items =>
    have more := tail items
    rw [Json.arrayText, List.length_append, List.length_cons]
    omega

theorem loads_payload (names : List String) (id : String) :
    JsonLoads.loads (payload names id).dumps.toList =
      some (.array [.array ((names.map ofString).map .string), .string (ofString id)]) := by
  have inner := (JsonLoads.readable_array (readable_names names)).mono
    (show (names.map Json.string).length + 1 + 2 ≤ names.length + 3 by simp)
  have outer := JsonLoads.readable_array (List.Forall₂.cons inner (.cons
    ((JsonLoads.readable_string id).mono (show 1 ≤ names.length + 3 by omega)) .nil))
  refine JsonLoads.loads_dumps outer ?_
  have long := length_dumps_array (names.map .string)
  rw [List.length_map] at long
  rw [payload, Json.toList_dumps_array]
  simp only [Json.arrayText, List.map_cons, List.map_nil, Json.listTail, List.length_cons,
    List.length_append, List.length_nil]
  omega

/-- A payload is written compactly. -/
theorem compact_payload (names : List String) (id : String) :
    JsonLoads.Compact false (payload names id).dumps.toList := by
  have name (item : Json) (inside : item ∈ names.map Json.string) (rest : List Char)
      (follows : JsonLoads.Compact false rest) :
      JsonLoads.Compact false (item.dumps.toList ++ rest) := by
    obtain ⟨name, -, rfl⟩ := List.mem_map.mp inside
    exact JsonLoads.compact_string name follows
  have item (item : Json) (inside : item ∈ [Json.array (names.map .string), .string id])
      (rest : List Char) (follows : JsonLoads.Compact false rest) :
      JsonLoads.Compact false (item.dumps.toList ++ rest) := by
    obtain rfl | inside := List.mem_cons.mp inside
    · exact JsonLoads.compact_array name follows
    · obtain rfl := List.mem_singleton.mp inside
      exact JsonLoads.compact_string id follows
  have ended : JsonLoads.Compact false [] := by
    rw [JsonLoads.Compact]
    trivial
  have whole := JsonLoads.compact_array item ended
  rw [List.append_nil] at whole
  exact whole

/-- A string and its text. -/
def StringWritten (value : Value) (item : Json) : Prop :=
  ∃ text, value = .string (ofString text) ∧ item = .string text

/-- The items of a payload. -/
def ItemWritten (value : Value) (item : Json) : Prop :=
  (∃ names : List String, value = .array ((names.map ofString).map .string) ∧
    item = .array (names.map .string)) ∨ StringWritten value item

theorem stringWritten_of_scanOnce {rounds : Nat} {chars rest : List Char} {text : Text}
    (scanned : JsonLoads.scanOnce rounds chars = some (.string text, rest))
    (compact : JsonLoads.Compact false chars) : ∃ item : Json, StringWritten (.string text) item ∧
      chars = item.dumps.toList ++ rest ∧ JsonLoads.Compact false rest := by
  obtain ⟨read, rfl, written, follows⟩ := JsonLoads.scanOnce_string scanned compact
  exact ⟨.string read, ⟨read, rfl, rfl⟩, written, follows⟩

theorem names_of_stringWritten {items : List Json}
    (written : List.Forall₂ StringWritten (names.map .string) items) :
    ∃ segments : List String, names = segments.map ofString ∧
      items = segments.map .string := by
  induction names generalizing items with
  | nil => exact ⟨[], rfl, List.forall₂_nil_left_iff.mp written⟩
  | cons name names ih =>
    obtain ⟨item, items, ⟨segment, same, rfl⟩, later, rfl⟩ :=
      List.forall₂_cons_left_iff.mp written
    obtain ⟨segments, rfl, rfl⟩ := ih later
    exact ⟨segment :: segments, by rw [Value.string.inj same]; rfl, rfl⟩

/-- A payload that is loaded from compact text was written so. -/
theorem payload_of_loads {chars : List Char} (compact : JsonLoads.Compact false chars)
    (loaded : JsonLoads.loads chars =
      some (.array [.array (names.map .string), .string rawId])) :
    ∃ segments id, names = segments.map ofString ∧ rawId = ofString id ∧
      chars = (payload segments id).dumps.toList := by
  obtain ⟨⟨value, rest⟩, scanned, ended⟩ := Option.bind_eq_some_iff.mp loaded
  simp only at ended
  split_ifs at ended with done
  obtain rfl := Option.some.inj ended
  rw [JsonLoads.skip_of_compact compact] at scanned
  have each : ∀ value ∈ [Value.array (names.map .string), .string rawId], ∀ rounds chars rest,
      JsonLoads.scanOnce rounds chars = some (value, rest) → JsonLoads.Compact false chars →
        ∃ item : Json, ItemWritten value item ∧ chars = item.dumps.toList ++ rest ∧
          JsonLoads.Compact false rest := by
    intro value inside rounds chars rest scanned compact
    obtain rfl | rfl : value = .array (names.map .string) ∨ value = .string rawId := by
      simpa using inside
    · have name : ∀ value ∈ names.map Value.string, ∀ rounds chars rest,
          JsonLoads.scanOnce rounds chars = some (value, rest) → JsonLoads.Compact false chars →
            ∃ item : Json, StringWritten value item ∧ chars = item.dumps.toList ++ rest ∧
              JsonLoads.Compact false rest := by
        intro value inside rounds chars rest scanned compact
        obtain ⟨name, -, rfl⟩ := List.mem_map.mp inside
        exact stringWritten_of_scanOnce scanned compact
      obtain ⟨items, written, rfl, follows⟩ := JsonLoads.scanOnce_compact name scanned compact
      obtain ⟨segments, rfl, rfl⟩ := names_of_stringWritten written
      exact ⟨_, .inl ⟨segments, rfl, rfl⟩, rfl, follows⟩
    · obtain ⟨item, written, rest⟩ := stringWritten_of_scanOnce scanned compact
      exact ⟨item, .inr written, rest⟩
  obtain ⟨items, written, rfl, follows⟩ := JsonLoads.scanOnce_compact each scanned compact
  rw [JsonLoads.skip_of_compact follows] at done
  subst done
  obtain ⟨first, _, one, later, rfl⟩ := List.forall₂_cons_left_iff.mp written
  obtain ⟨second, _, two, last, rfl⟩ := List.forall₂_cons_left_iff.mp later
  obtain rfl := List.forall₂_nil_left_iff.mp last
  obtain ⟨segments, same, rfl⟩ | ⟨_, impossible, -⟩ := one
  · obtain ⟨_, impossible, -⟩ | ⟨id, equal, rfl⟩ := two
    · cases impossible
    · refine ⟨segments, id, ?_, Value.string.inj equal, List.append_nil _⟩
      exact List.map_injective_iff.mpr (fun _ _ => Value.string.inj) (Value.array.inj same)
  · cases impossible

theorem digit_ascii : ∀ value < 64, (Base64.digit value).toNat < 128 := by
  decide

theorem decode_encode (encoded : encode kind names rawId = .ok text) :
    decode text = .ok (kind, names, rawId) := by
  obtain ⟨plain, some, segments, id, rfl, rfl, rfl⟩ := encode_eq.mp encoded
  refine decode_eq.mpr ⟨_, _, rfl, ?_, ?_, text?_encode _, loads_payload segments id, plain, some⟩
  · intro empty
    have read := text?_encode (payload segments id).dumps.toList
    rw [empty, payload, Json.toList_dumps_array] at read
    cases Option.some.inj read
  · intro char inside
    obtain ⟨value, small, rfl⟩ := Base64.mem_encode inside
    exact digit_ascii value small

/-- An accepted text is what its parts are encoded to exactly when it is canonical. -/
theorem encode_decode (decoded : decode text = .ok (kind, names, rawId)) :
    encode kind names rawId = .ok text ↔ IsCanonical text := by
  constructor
  · intro encoded
    obtain ⟨-, -, segments, id, -, -, rfl⟩ := encode_eq.mp encoded
    obtain ⟨pad, plus, slash, spare⟩ :=
      Base64.encode_canonical (Utf8.encode (payload segments id).dumps.toList)
    rw [IsCanonical, tokenOf_spelling]
    refine ⟨pad, plus, slash, spare, ?_⟩
    intro chars read
    rw [text?_encode] at read
    rw [← Option.some.inj read]
    exact compact_payload segments id
  · intro canonical
    obtain ⟨token, chars, rfl, -, -, read, loaded, plain, some⟩ := decode_eq.mp decoded
    rw [IsCanonical, tokenOf_spelling] at canonical
    obtain ⟨pad, plus, slash, spare, compact⟩ := canonical
    obtain ⟨segments, id, rfl, rfl, rfl⟩ := payload_of_loads (compact chars read) loaded
    obtain ⟨bytes, decoded, text⟩ := Option.bind_eq_some_iff.mp read
    rw [encode_eq]
    refine ⟨plain, some, segments, id, rfl, rfl, ?_⟩
    rw [Utf8.encode_of_decodeStrict text,
      Base64.encode_of_decodeStrict pad ⟨plus, slash⟩ spare decoded]

theorem encode_strings (kind : ScopedIdKind) {segments : List String} {id : String}
    (plain : ∀ segment ∈ segments, segment ≠ "") (some : id ≠ "") :
    ∃ text, encode kind (segments.map ofString) (ofString id) = .ok text := by
  have filled {string : String} (nonempty : string ≠ "") : ofString string ≠ [] := by
    intro empty
    exact nonempty (String.toList_eq_nil_iff.mp (List.map_eq_nil_iff.mp empty))
  refine ⟨_, encode_eq.mpr ⟨?_, filled some, segments, id, rfl, rfl, rfl⟩⟩
  intro name inside
  obtain ⟨segment, listed, rfl⟩ := List.mem_map.mp inside
  exact filled (plain segment listed)

end Directions

end ScopedIdCodec

/-! ## The adapter -/

/-- The sets of tool calls of an adapter. -/
structure ToolCallIds where
  priorToolCallIds : List String := []
  startedToolIds : List String := []
  endedToolIds : List String := []

def priorError : CodecError :=
  .valueError "prior_tool_call_ids must contain complete scoped Tool IDs"

/-- A call that an earlier run proposed was started and ended there. -/
def ToolCallIds.add (ids : ToolCallIds) (eventId : String) : ToolCallIds where
  priorToolCallIds := ids.priorToolCallIds.insert eventId
  startedToolIds := ids.startedToolIds.insert eventId
  endedToolIds := ids.endedToolIds.insert eventId

/-- Check and keep the prior IDs, one after another. -/
def restorePrior (ids : ToolCallIds) : List String → Except CodecError ToolCallIds
  | [] => .ok ids
  | eventId :: priorToolCallIds =>
    match ScopedIdCodec.decode eventId with
    | .error _ => .error priorError
    | .ok (kind, _, _) =>
      if kind ≠ .tool then .error priorError
      else restorePrior (ids.add eventId) priorToolCallIds

namespace ScopedIdCodec

/-- All sets hold what they held and the prior IDs, which are IDs of tools. -/
theorem restorePrior_ok {ids restored : ToolCallIds} {prior : List String}
    (done : restorePrior ids prior = .ok restored) :
    (∀ id, (id ∈ restored.priorToolCallIds ↔ id ∈ ids.priorToolCallIds ∨ id ∈ prior) ∧
      (id ∈ restored.startedToolIds ↔ id ∈ ids.startedToolIds ∨ id ∈ prior) ∧
      (id ∈ restored.endedToolIds ↔ id ∈ ids.endedToolIds ∨ id ∈ prior)) ∧
    ∀ id ∈ prior, ∃ names rawId, decode id = .ok (.tool, names, rawId) := by
  induction prior generalizing ids with
  | nil =>
    obtain rfl := Except.ok.inj done
    simp
  | cons eventId prior ih =>
    rw [restorePrior] at done
    cases decoded : decode eventId with
    | error error =>
      rw [decoded] at done
      cases done
    | ok parts =>
      obtain ⟨kind, names, rawId⟩ := parts
      rw [decoded] at done
      simp only at done
      split_ifs at done with tool
      obtain rfl := not_not.mp tool
      obtain ⟨members, tools⟩ := ih done
      refine ⟨fun id => ?_, List.forall_mem_cons.mpr ⟨⟨names, rawId, decoded⟩, tools⟩⟩
      obtain ⟨first, second, third⟩ := members id
      have shift (held : List String) : (id ∈ held.insert eventId ∨ id ∈ prior) ↔
          id ∈ held ∨ id ∈ eventId :: prior := by
        rw [List.mem_insert_iff, List.mem_cons, or_assoc, or_left_comm]
      exact ⟨first.trans (shift _), second.trans (shift _), third.trans (shift _)⟩

/-- Encoding and decoding a scoped ID, and the keys of a resumed adapter. -/
theorem scoped_id_round_trip (text : String) (priorToolCallIds : List String) :
    (∀ (kind : ScopedIdKind) (graphNamespace : List String) (rawId : String),
      (∀ segment ∈ graphNamespace, segment ≠ "") → rawId ≠ "" →
        ∃ written, encode kind (graphNamespace.map ofString) (ofString rawId) = .ok written ∧
          decode written = .ok (kind, graphNamespace.map ofString, ofString rawId)) ∧
    (∀ (kind other : ScopedIdKind) (graphNamespace otherNamespace : List Text)
      (rawId otherId : Text), encode kind graphNamespace rawId = .ok text →
        encode other otherNamespace otherId = .ok text →
          kind = other ∧ graphNamespace = otherNamespace ∧ rawId = otherId) ∧
    (∀ (kind : ScopedIdKind) (graphNamespace : List Text) (rawId : Text),
      decode text = .ok (kind, graphNamespace, rawId) →
        (encode kind graphNamespace rawId = .ok text ↔ IsCanonical text)) ∧
    ∀ ids : ToolCallIds, restorePrior {} priorToolCallIds = .ok ids → ∀ eventId,
      (eventId ∈ ids.startedToolIds ↔ eventId ∈ priorToolCallIds) ∧
      (eventId ∈ ids.endedToolIds ↔ eventId ∈ priorToolCallIds) ∧
      (eventId ∈ ids.priorToolCallIds ↔ eventId ∈ priorToolCallIds) ∧
      (eventId ∈ priorToolCallIds → ∃ graphNamespace rawId,
        decode eventId = .ok (.tool, graphNamespace, rawId) ∧
          (encode .tool graphNamespace rawId = .ok eventId ↔ IsCanonical eventId)) := by
  refine ⟨?_, ?_, fun _ _ _ => encode_decode, ?_⟩
  · intro kind graphNamespace rawId plain some
    obtain ⟨written, encoded⟩ := encode_strings kind plain some
    exact ⟨written, encoded, decode_encode encoded⟩
  · intro kind other graphNamespace otherNamespace rawId otherId one two
    have same := (decode_encode one).symm.trans (decode_encode two)
    simpa using same
  · intro ids done eventId
    obtain ⟨members, tools⟩ := restorePrior_ok done
    obtain ⟨first, second, third⟩ := members eventId
    refine ⟨by simpa using second, by simpa using third, by simpa using first, ?_⟩
    intro listed
    obtain ⟨names, rawId, decoded⟩ := tools eventId listed
    exact ⟨names, rawId, decoded, encode_decode decoded⟩

/-- A call in a namespace with a separator in it. -/
theorem scoped_id_round_trip_separator : ∃ text,
    encode .tool (["tools:a"].map ofString) (ofString "call:\"1\"") = .ok text ∧
      decode text = .ok (.tool, ["tools:a"].map ofString, ofString "call:\"1\"") :=
  (scoped_id_round_trip "" []).1 .tool ["tools:a"] "call:\"1\"" (by decide) (by decide)

/-- An ID with its own padding is accepted, and written without it. -/
theorem scoped_id_own_padding : ¬∀ (text : String) (kind : ScopedIdKind)
    (graphNamespace : List Text) (rawId : Text), decode text = .ok (kind, graphNamespace, rawId) →
      encode kind graphNamespace rawId = .ok text := by
  intro claimed
  have padded : decode "tf:tool:W1tdLCJhIl0=" = .ok (.tool, [], [.char 'a']) := by
    decide +kernel
  have written := claimed _ _ _ _ padded
  have plain : encode .tool [] [.char 'a'] = .ok "tf:tool:W1tdLCJhIl0" := by decide +kernel
  have same := Except.ok.inj (plain.symm.trans written)
  exact absurd same (by decide)

end ScopedIdCodec

end Tinkerfin.Agui
