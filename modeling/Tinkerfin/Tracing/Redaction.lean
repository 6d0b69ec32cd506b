import Tinkerfin.Lib.JsonPatch

/-!
# Redaction of recorded values

Every value that the recorder keeps goes through three passes: attachment blocks with image bytes
become references, values under credential keys become markers, and private reasoning is removed.
A business redactor runs between two rounds of the passes and may return anything.
-/

namespace Tinkerfin.Tracing

/-- A capture that the recorder refuses. -/
structure TraceCaptureRejected where
  message : String
  deriving DecidableEq

/-! ## Credential keys -/

/-- The names of credentials. -/
def credentialKeys : List String :=
  ["access_token", "auth_token", "api_key", "apikey", "authorization", "client_secret", "cookie",
    "id_token", "password", "private_key", "proxy_authorization", "refresh_token", "secret",
    "secret_key", "session_token", "set_cookie", "token", "x_api_key"]

/-- A small ASCII letter or a digit. -/
def isWordChar (char : Char) : Bool :=
  ('a' ≤ char && char ≤ 'z') || ('0' ≤ char && char ≤ '9')

/-- A separator between a small letter or digit and a capital letter. -/
def separateWords : List Char → List Char
  | first :: second :: chars =>
    if isWordChar first && ('A' ≤ second && second ≤ 'Z') then
      first :: '_' :: separateWords (second :: chars)
    else first :: separateWords (second :: chars)
  | chars => chars

/-- The case folding of a character.  Characters whose folding has neither ASCII letters nor digits
stay as they are, for `credentialKey` does not tell them apart. -/
def casefold (char : Char) : List Char :=
  if 'A' ≤ char ∧ char ≤ 'Z' then [Char.ofNat (char.toNat + 32)]
  else
    match char.toNat with
    | 0xdf => ['s', 's']
    | 0x130 => ['i', Char.ofNat 0x307]
    | 0x149 => [Char.ofNat 0x2bc, 'n']
    | 0x17f => ['s']
    | 0x1f0 => ['j', Char.ofNat 0x30c]
    | 0x1e96 => ['h', Char.ofNat 0x331]
    | 0x1e97 => ['t', Char.ofNat 0x308]
    | 0x1e98 => ['w', Char.ofNat 0x30a]
    | 0x1e99 => ['y', Char.ofNat 0x30a]
    | 0x1e9a => ['a', Char.ofNat 0x2be]
    | 0x1e9e => ['s', 's']
    | 0x212a => ['k']
    | 0xfb00 => ['f', 'f']
    | 0xfb01 => ['f', 'i']
    | 0xfb02 => ['f', 'l']
    | 0xfb03 => ['f', 'f', 'i']
    | 0xfb04 => ['f', 'f', 'l']
    | 0xfb05 => ['s', 't']
    | 0xfb06 => ['s', 't']
    | _ => [char]

/-- One `_` for every run of other characters. -/
def collapse (gap : Bool) : List Char → List Char
  | [] => []
  | char :: chars =>
    if isWordChar char then char :: collapse false chars
    else if gap then collapse true chars
    else '_' :: collapse true chars

/-- The text without `_` at its ends. -/
def stripUnderscores (chars : List Char) : List Char :=
  ((chars.dropWhile (· = '_')).reverse.dropWhile (· = '_')).reverse

/-- The normal form of a key. -/
def credentialKey (value : String) : List Char :=
  stripUnderscores (collapse false ((separateWords value.toList).flatMap casefold))

/-- The normal form is a credential name or ends in one after a `_`. -/
def isCredentialKey (value : String) : Bool :=
  credentialKeys.any fun credential => credentialKey value == credential.toList ||
    ('_' :: credential.toList).isSuffixOf (credentialKey value)

example : isCredentialKey "X-OpenAI.ApiKey" = true ∧ isCredentialKey "tokens" = false := by
  decide

/-- What stands in the place of a redacted value. -/
def redactedMarker : Json := .object [("$type", .string "redacted")]

/-! ## Attachments -/

/-- The descriptor of a durable file. -/
structure Attachment where
  id : String
  name : String
  mimeType : String
  sizeBytes : Nat
  id_bounds : 1 ≤ id.length ∧ id.length ≤ 128
  name_bounds : 1 ≤ name.length ∧ name.length ≤ 255
  mimeType_bounds : 1 ≤ mimeType.length ∧ mimeType.length ≤ 128

/-- How a file is presented. -/
inductive AttachmentKind
  | image
  | document
  deriving DecidableEq

namespace Attachment

/-- The descriptor as JSON. -/
def modelDump (attachment : Attachment) : Json :=
  .object [("id", .string attachment.id), ("name", .string attachment.name),
    ("mime_type", .string attachment.mimeType), ("size_bytes", .int attachment.sizeBytes)]

def kind (attachment : Attachment) : AttachmentKind :=
  if "image/".toList.isPrefixOf attachment.mimeType.toList then .image else .document

/-- The message block that refers to the file. -/
def contentBlock (attachment : Attachment) : Json :=
  .object [
    ("type", .string (if attachment.kind = .image then "image" else "file")),
    ("file_id", .string attachment.id),
    ("mime_type", .string attachment.mimeType),
    ("extras", .object [("attachment", attachment.modelDump)])]

/-- A text field with its bounds. -/
def text? (limit : Nat) : Json → Option { text : String // 1 ≤ text.length ∧ text.length ≤ limit }
  | .string text =>
    if bounds : 1 ≤ text.length ∧ text.length ≤ limit then some ⟨text, bounds⟩ else none
  | _ => none

/-- A field for a natural number.  `laxInt` reads the scalars that the validation library takes for
integers; it takes no list and no object for one. -/
def natural? (laxInt : Json → Option Int) : Json → Option Nat
  | .array _ => none
  | .object _ => none
  | value => (laxInt value).bind Int.toNat?

/-- The descriptor in a JSON object without other members. -/
def modelValidate (laxInt : Json → Option Int) : Json → Option Attachment
  | .object members =>
    if (members.map Prod.fst).all (["id", "name", "mime_type", "size_bytes"].contains ·) then do
      let id ← (members.lookup "id").bind (text? 128)
      let name ← (members.lookup "name").bind (text? 255)
      let mimeType ← (members.lookup "mime_type").bind (text? 128)
      let sizeBytes ← (members.lookup "size_bytes").bind (natural? laxInt)
      return ⟨id.1, name.1, mimeType.1, sizeBytes, id.2, name.2, mimeType.2⟩
    else none
  | _ => none

end Attachment

/-! ## The passes -/

/-- The metadata of an image block that a request carries with its bytes. -/
def attachmentMetadata? (members : List (String × Json)) : Option Json :=
  match members.lookup "type", members.lookup "extras" with
  | some (.string "image_url"), some (.object extras) => extras.lookup "attachment"
  | _, _ => none

section Restoration

variable (laxInt : Json → Option Int)

mutual

/-- Image blocks with attachment metadata become references. -/
def restoreAttachmentReferences : Json → Except TraceCaptureRejected Json
  | .array items => return .array (← restoreItems items)
  | .object members =>
    match attachmentMetadata? members with
    | some metadata =>
      match Attachment.modelValidate laxInt metadata with
      | some attachment => .ok attachment.contentBlock
      | none => .error ⟨"Trace attachment metadata is invalid"⟩
    | none => return .object (← restoreMembers members)
  | value => .ok value

def restoreItems : List Json → Except TraceCaptureRejected (List Json)
  | [] => .ok []
  | item :: items => return (← restoreAttachmentReferences item) :: (← restoreItems items)

def restoreMembers : List (String × Json) → Except TraceCaptureRejected (List (String × Json))
  | [] => .ok []
  | (key, value) :: members =>
    return (key, ← restoreAttachmentReferences value) :: (← restoreMembers members)

end

end Restoration

/-- The key of a list of two elements that starts with a credential key. -/
def credentialPair? : List Json → Option String
  | [.string key, _] => if isCredentialKey key then some key else none
  | _ => none

mutual

/-- Values under credential keys become markers. -/
def redactCredentials : Json → Json
  | .array items =>
    match credentialPair? items with
    | some key => .array [.string key, redactedMarker]
    | none => .array (redactItems items)
  | .object members => .object (redactMembers members)
  | value => value

def redactItems : List Json → List Json
  | [] => []
  | item :: items => redactCredentials item :: redactItems items

def redactMembers : List (String × Json) → List (String × Json)
  | [] => []
  | (key, value) :: members =>
    (key, if isCredentialKey key then redactedMarker else redactCredentials value) ::
      redactMembers members

end

mutual

/-- The value without private reasoning.  `inside` says that the value is the one of
`additional_kwargs`, whose `reasoning_content` goes if it is an object. -/
def stripPrivateReasoning (inside : Bool) : Json → Json
  | .array items => .array (stripItems items)
  | .object members => .object (stripMembers inside members)
  | value => value

def stripItems : List Json → List Json
  | [] => []
  | item :: items => stripPrivateReasoning false item :: stripItems items

def stripMembers (inside : Bool) : List (String × Json) → List (String × Json)
  | [] => []
  | (key, value) :: members =>
    if inside && key == "reasoning_content" then stripMembers inside members
    else (key, stripPrivateReasoning (key == "additional_kwargs") value) ::
      stripMembers inside members

end

/-- What a business redactor does with its copy of a value. -/
inductive RedactorOutcome
  | rejected (error : TraceCaptureRejected)
  | failed
  | awaitable
  | mutated
  | notJson
  | returned (value : Json)

/-- The value of a redactor that kept to its contract. -/
def applyRedactor (redactor : Json → RedactorOutcome) (value : Json) :
    Except TraceCaptureRejected Json :=
  match redactor value with
  | .rejected error => .error error
  | .failed => .error ⟨"Trace business redaction failed"⟩
  | .awaitable => .error ⟨"Trace business redaction returned an awaitable"⟩
  | .mutated => .error ⟨"Trace business redaction mutated its input"⟩
  | .notJson => .error ⟨"Trace business redaction returned invalid JSON"⟩
  | .returned result => .ok result

/-- The passes around business redaction. -/
def secureRedact (laxInt : Json → Option Int) (redactor : Option (Json → RedactorOutcome))
    (value : Json) : Except TraceCaptureRejected Json := do
  let restored ← restoreAttachmentReferences laxInt value
  let safe := stripPrivateReasoning false (redactCredentials restored)
  match redactor with
  | none => return safe
  | some redactor =>
    let businessSafe ← applyRedactor redactor safe
    let restored ← restoreAttachmentReferences laxInt businessSafe
    return stripPrivateReasoning false (redactCredentials restored)

/-! ## What the passes leave -/

mutual

/-- Every value at a credential key is the marker, and no object under `additional_kwargs` has
private reasoning.  `inside` says that the value is the one of `additional_kwargs`. -/
def Concealed (inside : Bool) : Json → Prop
  | .array items => (∀ key second, items = [.string key, second] → isCredentialKey key = true →
      second = redactedMarker) ∧ ItemsConcealed items
  | .object members => MembersConcealed inside members
  | _ => True

def ItemsConcealed : List Json → Prop
  | [] => True
  | item :: items => Concealed false item ∧ ItemsConcealed items

def MembersConcealed (inside : Bool) : List (String × Json) → Prop
  | [] => True
  | (key, value) :: members =>
    ((isCredentialKey key = true → value = redactedMarker) ∧
      ¬(inside = true ∧ key = "reasoning_content") ∧
      Concealed (key == "additional_kwargs") value) ∧ MembersConcealed inside members

end

section Passes

variable {inside : Bool} {value : Json} {items : List Json} {members : List (String × Json)}

theorem concealed_marker : Concealed inside redactedMarker := by
  have plain : isCredentialKey "$type" = false := by decide
  simp [redactedMarker, Concealed, MembersConcealed, plain]

theorem strip_marker : stripPrivateReasoning inside redactedMarker = redactedMarker := by
  cases inside <;> rfl

theorem credentialPair?_eq_some {key : String} : credentialPair? items = some key ↔
    isCredentialKey key = true ∧ ∃ second, items = [.string key, second] := by
  unfold credentialPair?
  split
  · next other second =>
      split
      · next credential =>
          constructor
          · rintro ⟨⟩
            exact ⟨credential, second, rfl⟩
          · rintro ⟨-, _, same⟩
            cases same
            rfl
      · next plain =>
          refine ⟨fun none => (nomatch none), ?_⟩
          rintro ⟨credential, _, same⟩
          cases same
          exact absurd credential plain
  · next other =>
      refine ⟨fun none => (nomatch none), ?_⟩
      rintro ⟨-, second, rfl⟩
      exact (other key second rfl).elim

theorem passes_eq_string {text : String}
    (same : stripPrivateReasoning inside (redactCredentials value) = .string text) :
    value = .string text := by
  cases value with
  | string other => exact same
  | array items =>
    rw [redactCredentials] at same
    split at same <;> cases same
  | _ => cases same

theorem passes_eq_pair {key : String} {second : Json}
    (same : stripItems (redactItems items) = [.string key, second]) :
    ∃ before, items = [.string key, before] := by
  match items, same with
  | [first, before], same =>
    simp only [redactItems, stripItems, List.cons.injEq] at same
    exact ⟨before, by rw [passes_eq_string same.1]⟩
  | [], same => cases same
  | [_], same => simp [redactItems, stripItems] at same
  | _ :: _ :: _ :: _, same => simp [redactItems, stripItems] at same

mutual

/-- After both passes nothing is left to hide. -/
theorem concealed_passes (inside : Bool) :
    ∀ value, Concealed inside (stripPrivateReasoning inside (redactCredentials value))
  | .array items => by
    rw [redactCredentials]
    cases pair : credentialPair? items with
    | some key =>
      simp only [stripPrivateReasoning, stripItems, strip_marker, Concealed, ItemsConcealed,
        true_and, and_true]
      refine ⟨?_, concealed_marker⟩
      rintro _ _ ⟨⟩ -
      rfl
    | none =>
      refine ⟨fun key second same credential => ?_, itemsConcealed_passes items⟩
      obtain ⟨before, rfl⟩ := passes_eq_pair same
      have found := credentialPair?_eq_some.mpr ⟨credential, before, rfl⟩
      rw [pair] at found
      cases found
  | .object members => membersConcealed_passes inside members
  | .null => trivial
  | .bool _ => trivial
  | .int _ => trivial
  | .float _ => trivial
  | .string _ => trivial

theorem itemsConcealed_passes : ∀ items, ItemsConcealed (stripItems (redactItems items))
  | [] => trivial
  | item :: items => ⟨concealed_passes false item, itemsConcealed_passes items⟩

theorem membersConcealed_passes (inside : Bool) :
    ∀ members, MembersConcealed inside (stripMembers inside (redactMembers members))
  | [] => trivial
  | (key, value) :: members => by
    rw [redactMembers, stripMembers]
    split
    · exact membersConcealed_passes inside members
    · next kept =>
        refine ⟨⟨fun credential => ?_, by simpa using kept, ?_⟩,
          membersConcealed_passes inside members⟩
        · rw [if_pos credential, strip_marker]
        · split
          · rw [strip_marker]
            exact concealed_marker
          · exact concealed_passes _ value

end

mutual

theorem redact_concealed (inside : Bool) :
    ∀ value, Concealed inside value → redactCredentials value = value
  | .array items, concealed => by
    rw [redactCredentials]
    cases pair : credentialPair? items with
    | some key =>
      obtain ⟨credential, second, rfl⟩ := credentialPair?_eq_some.mp pair
      rw [concealed.1 key second rfl credential]
    | none => exact congrArg Json.array (redactItems_concealed items concealed.2)
  | .object members, concealed =>
    congrArg Json.object (redactMembers_concealed inside members concealed)
  | .null, _ => rfl
  | .bool _, _ => rfl
  | .int _, _ => rfl
  | .float _, _ => rfl
  | .string _, _ => rfl

theorem redactItems_concealed : ∀ items, ItemsConcealed items → redactItems items = items
  | [], _ => rfl
  | item :: items, concealed => by
    rw [redactItems, redact_concealed false item concealed.1,
      redactItems_concealed items concealed.2]

theorem redactMembers_concealed (inside : Bool) :
    ∀ members, MembersConcealed inside members → redactMembers members = members
  | [], _ => rfl
  | (key, value) :: members, ⟨⟨marked, _, concealed⟩, rest⟩ => by
    rw [redactMembers, redactMembers_concealed inside members rest]
    split
    · next credential => rw [marked credential]
    · rw [redact_concealed _ value concealed]

end

mutual

theorem strip_concealed (inside : Bool) :
    ∀ value, Concealed inside value → stripPrivateReasoning inside value = value
  | .array items, concealed => congrArg Json.array (stripItems_concealed items concealed.2)
  | .object members, concealed =>
    congrArg Json.object (stripMembers_concealed inside members concealed)
  | .null, _ => rfl
  | .bool _, _ => rfl
  | .int _, _ => rfl
  | .float _, _ => rfl
  | .string _, _ => rfl

theorem stripItems_concealed : ∀ items, ItemsConcealed items → stripItems items = items
  | [], _ => rfl
  | item :: items, concealed => by
    rw [stripItems, strip_concealed false item concealed.1,
      stripItems_concealed items concealed.2]

theorem stripMembers_concealed (inside : Bool) :
    ∀ members, MembersConcealed inside members → stripMembers inside members = members
  | [], _ => rfl
  | (key, value) :: members, ⟨⟨_, kept, concealed⟩, rest⟩ => by
    rw [stripMembers, if_neg (by simpa using kept), strip_concealed _ value concealed,
      stripMembers_concealed inside members rest]

end

end Passes

/-! ## Attachments are restored once -/

mutual

/-- No image block with attachment metadata is left. -/
def Restored : Json → Prop
  | .array items => ItemsRestored items
  | .object members => attachmentMetadata? members = none ∧ MembersRestored members
  | _ => True

def ItemsRestored : List Json → Prop
  | [] => True
  | item :: items => Restored item ∧ ItemsRestored items

def MembersRestored : List (String × Json) → Prop
  | [] => True
  | (_, value) :: members => Restored value ∧ MembersRestored members

end

/-- A pass made neither a text nor an object with an attachment where there was none. -/
def MakesNoBlock (before after : Json) : Prop :=
  (∀ text, after = .string text → before = .string text) ∧
    ∀ others, after = .object others → (others.lookup "attachment").isSome →
      ∃ members, before = .object members ∧ (members.lookup "attachment").isSome

section Restored

variable {laxInt : Json → Option Int} {inside : Bool} {value result : Json} {key : String}
  {items restored : List Json} {members others : List (String × Json)}

theorem restore_array : restoreAttachmentReferences laxInt (.array items) = .ok result ↔
    ∃ restored, restoreItems laxInt items = .ok restored ∧ result = .array restored := by
  rw [restoreAttachmentReferences]
  cases restoreItems laxInt items <;> simp [bind, Except.bind, pure, Except.pure, eq_comm]

theorem restore_object (absent : attachmentMetadata? members = none) :
    restoreAttachmentReferences laxInt (.object members) = .ok result ↔
      ∃ others, restoreMembers laxInt members = .ok others ∧ result = .object others := by
  rw [restoreAttachmentReferences, absent]
  cases restoreMembers laxInt members <;> simp [bind, Except.bind, pure, Except.pure, eq_comm]

theorem restore_block {metadata : Json} (present : attachmentMetadata? members = some metadata) :
    restoreAttachmentReferences laxInt (.object members) = .ok result ↔
      ∃ attachment, Attachment.modelValidate laxInt metadata = some attachment ∧
        result = attachment.contentBlock := by
  simp only [restoreAttachmentReferences, present]
  cases Attachment.modelValidate laxInt metadata <;> simp [eq_comm]

theorem restoreItems_cons : restoreItems laxInt (value :: items) = .ok restored ↔
    ∃ first rest, restoreAttachmentReferences laxInt value = .ok first ∧
      restoreItems laxInt items = .ok rest ∧ restored = first :: rest := by
  rw [restoreItems]
  cases restoreAttachmentReferences laxInt value <;> cases restoreItems laxInt items <;>
    simp [bind, Except.bind, pure, Except.pure, eq_comm]

theorem restoreMembers_cons : restoreMembers laxInt ((key, value) :: members) = .ok others ↔
    ∃ first rest, restoreAttachmentReferences laxInt value = .ok first ∧
      restoreMembers laxInt members = .ok rest ∧ others = (key, first) :: rest := by
  rw [restoreMembers]
  cases restoreAttachmentReferences laxInt value <;> cases restoreMembers laxInt members <;>
    simp [bind, Except.bind, pure, Except.pure, eq_comm]

theorem metadata_none (absent : attachmentMetadata? members = none)
    (kept : ∀ key, key = "type" ∨ key = "extras" → ∀ after, others.lookup key = some after →
      ∃ before, members.lookup key = some before ∧ MakesNoBlock before after) :
    attachmentMetadata? others = none := by
  by_contra present
  unfold attachmentMetadata? at present
  split at present
  · next extras kind named =>
      obtain ⟨before, here, same, -⟩ := kept "type" (.inl rfl) _ kind
      obtain ⟨outer, there, -, still⟩ := kept "extras" (.inr rfl) _ named
      obtain ⟨inner, rfl, attached⟩ := still extras rfl (Option.isSome_iff_ne_none.mpr present)
      rw [same _ rfl] at here
      simp only [attachmentMetadata?, here, there] at absent
      rw [absent] at attached
      cases attached
  · exact present rfl

theorem lookup_restoreMembers (restored : restoreMembers laxInt members = .ok others)
    (found : others.lookup key = some result) :
    ∃ value, members.lookup key = some value ∧
      restoreAttachmentReferences laxInt value = .ok result := by
  induction members generalizing others with
  | nil =>
    cases restored
    cases found
  | cons member members ih =>
    obtain ⟨name, value⟩ := member
    obtain ⟨first, rest, here, tail, rfl⟩ := restoreMembers_cons.mp restored
    rw [Json.lookup_member] at found ⊢
    split at found
    · cases found
      exact ⟨value, if_pos ‹_›, here⟩
    · rw [if_neg ‹_›]
      exact ih tail found

theorem lookup_redactMembers : (redactMembers members).lookup key =
    (members.lookup key).map fun value =>
      if isCredentialKey key then redactedMarker else redactCredentials value := by
  induction members with
  | nil => rfl
  | cons member members ih =>
    obtain ⟨name, value⟩ := member
    rw [redactMembers, Json.lookup_member, Json.lookup_member, ih]
    split
    · next same => rw [same, Option.map_some]
    · rfl

theorem lookup_stripMembers (kept : key ≠ "reasoning_content") :
    (stripMembers inside members).lookup key =
      (members.lookup key).map (stripPrivateReasoning (key == "additional_kwargs")) := by
  induction members with
  | nil => rfl
  | cons member members ih =>
    obtain ⟨name, value⟩ := member
    rw [stripMembers]
    split
    · next dropped =>
        have away : key ≠ name := by
          rintro rfl
          simp_all
        rw [ih, Json.lookup_member, if_neg away]
    · rw [Json.lookup_member, Json.lookup_member, ih]
      split
      · next same => rw [same, Option.map_some]
      · rfl

theorem makesNoBlock_restore (restored : restoreAttachmentReferences laxInt value = .ok result) :
    MakesNoBlock value result := by
  cases value with
  | array items =>
    obtain ⟨others, -, rfl⟩ := restore_array.mp restored
    exact ⟨fun _ same => (nomatch same), fun _ same => (nomatch same)⟩
  | object members =>
    cases block : attachmentMetadata? members with
    | some metadata =>
      obtain ⟨attachment, -, rfl⟩ := (restore_block block).mp restored
      refine ⟨fun _ same => (nomatch same), ?_⟩
      rintro _ ⟨⟩ attached
      cases attached
    | none =>
      obtain ⟨others, inner, rfl⟩ := (restore_object block).mp restored
      refine ⟨fun _ same => (nomatch same), ?_⟩
      rintro _ ⟨⟩ attached
      obtain ⟨after, found⟩ := Option.isSome_iff_exists.mp attached
      obtain ⟨before, there, -⟩ := lookup_restoreMembers inner found
      exact ⟨members, rfl, by rw [there]; rfl⟩
  | _ =>
    cases restored
    exact ⟨fun _ same => same, fun _ same => (nomatch same)⟩

theorem makesNoBlock_redact : MakesNoBlock value (redactCredentials value) := by
  cases value with
  | array items =>
    rw [redactCredentials]
    split <;> exact ⟨fun _ same => (nomatch same), fun _ same => (nomatch same)⟩
  | object members =>
    refine ⟨fun _ same => (nomatch same), ?_⟩
    rintro _ ⟨⟩ attached
    rw [lookup_redactMembers, Option.isSome_map] at attached
    exact ⟨members, rfl, attached⟩
  | _ => exact ⟨fun _ same => same, fun _ same => (nomatch same)⟩

theorem makesNoBlock_strip : MakesNoBlock value (stripPrivateReasoning inside value) := by
  cases value with
  | array items => exact ⟨fun _ same => (nomatch same), fun _ same => (nomatch same)⟩
  | object members =>
    refine ⟨fun _ same => (nomatch same), ?_⟩
    rintro _ ⟨⟩ attached
    rw [lookup_stripMembers (by decide), Option.isSome_map] at attached
    exact ⟨members, rfl, attached⟩
  | _ => exact ⟨fun _ same => same, fun _ same => (nomatch same)⟩

mutual

theorem restored_restore : ∀ value result,
    restoreAttachmentReferences laxInt value = .ok result → Restored result
  | .array items, result, done => by
    obtain ⟨others, inner, rfl⟩ := restore_array.mp done
    exact restoredItems_restore items others inner
  | .object members, result, done => by
    cases block : attachmentMetadata? members with
    | some metadata =>
      obtain ⟨attachment, -, rfl⟩ := (restore_block block).mp done
      have named : (if attachment.kind = .image then "image" else "file") ≠ "image_url" := by
        split <;> decide
      have dumped : Restored attachment.modelDump :=
        ⟨rfl, trivial, trivial, trivial, trivial, trivial⟩
      refine ⟨?_, trivial, trivial, trivial, ⟨rfl, dumped, trivial⟩, trivial⟩
      unfold attachmentMetadata?
      split
      · next kind extras =>
          have same : some (Json.string
              (if attachment.kind = .image then "image" else "file")) =
            some (.string "image_url") := kind
          exact absurd (Json.string.inj (Option.some.inj same)) named
      · rfl
    | none =>
      obtain ⟨others, inner, rfl⟩ := (restore_object block).mp done
      refine ⟨metadata_none block fun key _ after found => ?_,
        restoredMembers_restore members others inner⟩
      obtain ⟨before, there, done⟩ := lookup_restoreMembers inner found
      exact ⟨before, there, makesNoBlock_restore done⟩
  | .null, _, done => by cases done; trivial
  | .bool _, _, done => by cases done; trivial
  | .int _, _, done => by cases done; trivial
  | .float _, _, done => by cases done; trivial
  | .string _, _, done => by cases done; trivial

theorem restoredItems_restore : ∀ items others,
    restoreItems laxInt items = .ok others → ItemsRestored others
  | [], _, done => by cases done; trivial
  | item :: items, _, done => by
    obtain ⟨first, rest, here, tail, rfl⟩ := restoreItems_cons.mp done
    exact ⟨restored_restore item first here, restoredItems_restore items rest tail⟩

theorem restoredMembers_restore : ∀ members others,
    restoreMembers laxInt members = .ok others → MembersRestored others
  | [], _, done => by cases done; trivial
  | (key, value) :: members, _, done => by
    obtain ⟨first, rest, here, tail, rfl⟩ := restoreMembers_cons.mp done
    exact ⟨restored_restore value first here, restoredMembers_restore members rest tail⟩

end

theorem restored_marker : Restored redactedMarker := ⟨rfl, trivial, trivial⟩

mutual

theorem restored_redact : ∀ value, Restored value → Restored (redactCredentials value)
  | .array items, restored => by
    rw [redactCredentials]
    split
    · exact ⟨trivial, restored_marker, trivial⟩
    · exact restoredItems_redact items restored
  | .object members, restored => by
    refine ⟨metadata_none restored.1 fun key named after found => ?_,
      restoredMembers_redact members restored.2⟩
    rw [lookup_redactMembers] at found
    obtain ⟨before, there, rfl⟩ := Option.map_eq_some_iff.mp found
    have plain : isCredentialKey key = false := by
      obtain rfl | rfl := named <;> decide
    rw [if_neg (by simp [plain])]
    exact ⟨before, there, makesNoBlock_redact⟩
  | .null, _ => trivial
  | .bool _, _ => trivial
  | .int _, _ => trivial
  | .float _, _ => trivial
  | .string _, _ => trivial

theorem restoredItems_redact : ∀ items, ItemsRestored items → ItemsRestored (redactItems items)
  | [], _ => trivial
  | item :: items, restored =>
    ⟨restored_redact item restored.1, restoredItems_redact items restored.2⟩

theorem restoredMembers_redact :
    ∀ members, MembersRestored members → MembersRestored (redactMembers members)
  | [], _ => trivial
  | (key, value) :: members, restored => by
    refine ⟨?_, restoredMembers_redact members restored.2⟩
    split
    · exact restored_marker
    · exact restored_redact value restored.1

end

mutual

theorem restored_strip (inside : Bool) :
    ∀ value, Restored value → Restored (stripPrivateReasoning inside value)
  | .array items, restored => restoredItems_strip items restored
  | .object members, restored => by
    refine ⟨metadata_none restored.1 fun key named after found => ?_,
      restoredMembers_strip inside members restored.2⟩
    rw [lookup_stripMembers (by obtain rfl | rfl := named <;> decide)] at found
    obtain ⟨before, there, rfl⟩ := Option.map_eq_some_iff.mp found
    exact ⟨before, there, makesNoBlock_strip⟩
  | .null, _ => trivial
  | .bool _, _ => trivial
  | .int _, _ => trivial
  | .float _, _ => trivial
  | .string _, _ => trivial

theorem restoredItems_strip : ∀ items, ItemsRestored items → ItemsRestored (stripItems items)
  | [], _ => trivial
  | item :: items, restored =>
    ⟨restored_strip false item restored.1, restoredItems_strip items restored.2⟩

theorem restoredMembers_strip (inside : Bool) :
    ∀ members, MembersRestored members → MembersRestored (stripMembers inside members)
  | [], _ => trivial
  | (key, value) :: members, restored => by
    rw [stripMembers]
    split
    · exact restoredMembers_strip inside members restored.2
    · exact ⟨restored_strip _ value restored.1, restoredMembers_strip inside members restored.2⟩

end

mutual

theorem restore_restored : ∀ value, Restored value →
    restoreAttachmentReferences laxInt value = .ok value
  | .array items, restored => restore_array.mpr ⟨items, restoreItems_restored items restored, rfl⟩
  | .object members, restored =>
    (restore_object restored.1).mpr ⟨members, restoreMembers_restored members restored.2, rfl⟩
  | .null, _ => rfl
  | .bool _, _ => rfl
  | .int _, _ => rfl
  | .float _, _ => rfl
  | .string _, _ => rfl

theorem restoreItems_restored : ∀ items, ItemsRestored items →
    restoreItems laxInt items = .ok items
  | [], _ => rfl
  | item :: items, restored => restoreItems_cons.mpr ⟨item, items, restore_restored item restored.1,
      restoreItems_restored items restored.2, rfl⟩

theorem restoreMembers_restored : ∀ members, MembersRestored members →
    restoreMembers laxInt members = .ok members
  | [], _ => rfl
  | (_, value) :: members, restored => restoreMembers_cons.mpr ⟨value, members,
      restore_restored value restored.1, restoreMembers_restored members restored.2, rfl⟩

end

end Restored

/-! ## Values that differ only in what is hidden -/

mutual

/-- Two values differ at most below credential keys and in private reasoning.  `inside` says that
the values are those of `additional_kwargs`. -/
def Alike (inside : Bool) : Json → Json → Prop
  | .array items, .array others => (∃ key left right, isCredentialKey key = true ∧
      items = [.string key, left] ∧ others = [.string key, right]) ∨ ItemsAlike items others
  | .object members, .object others => MembersAlike inside members others
  | left, right => left = right

def ItemsAlike : List Json → List Json → Prop
  | [], [] => True
  | left :: items, right :: others => Alike false left right ∧ ItemsAlike items others
  | _, _ => False

def MembersAlike (inside : Bool) : List (String × Json) → List (String × Json) → Prop
  | [], [] => True
  | (key, left) :: members, (other, right) :: others =>
    (key = other ∧ (isCredentialKey key = true ∨ (inside = true ∧ key = "reasoning_content") ∨
      Alike (key == "additional_kwargs") left right)) ∧ MembersAlike inside members others
  | _, _ => False

end

section Alike

variable {laxInt : Json → Option Int} {inside : Bool} {left right leftAfter rightAfter : Json}
  {members others : List (String × Json)} {key : String}

theorem MembersAlike.keys (alike : MembersAlike inside members others) :
    members.map Prod.fst = others.map Prod.fst := by
  induction members generalizing others with
  | nil =>
    cases others with
    | nil => rfl
    | cons _ _ => exact alike.elim
  | cons member members ih =>
    cases others with
    | nil => exact alike.elim
    | cons other others => rw [List.map_cons, List.map_cons, alike.1.1, ih alike.2]

theorem MembersAlike.lookup (alike : MembersAlike inside members others) (key : String)
    (plain : isCredentialKey key = false) (kept : key ≠ "reasoning_content") :
    Option.Rel (Alike (key == "additional_kwargs")) (members.lookup key) (others.lookup key) := by
  induction members generalizing others with
  | nil =>
    cases others with
    | nil => exact .none
    | cons _ _ => exact alike.elim
  | cons member members ih =>
    cases others with
    | nil => exact alike.elim
    | cons other others =>
      obtain ⟨name, left⟩ := member
      obtain ⟨_, right⟩ := other
      obtain ⟨⟨rfl, hidden⟩, rest⟩ := alike
      rw [Json.lookup_member, Json.lookup_member]
      split
      · next same =>
          subst same
          obtain credential | ⟨-, reasoning⟩ | alike := hidden
          · exact absurd credential (by simp [plain])
          · exact absurd reasoning kept
          · exact .some alike
      · exact ih rest

theorem Alike.text? (alike : Alike inside left right) (limit : Nat) :
    Attachment.text? limit left = Attachment.text? limit right := by
  cases left <;> cases right <;> simp_all [Alike, Attachment.text?]

theorem Alike.natural? (alike : Alike inside left right) :
    Attachment.natural? laxInt left = Attachment.natural? laxInt right := by
  cases left <;> cases right <;> simp_all [Alike, Attachment.natural?]

theorem bind_eq_of_rel {α : Type} {related : Json → Json → Prop} (read : Json → Option α)
    (same : ∀ left right, related left right → read left = read right) {first second : Option Json}
    (rel : Option.Rel related first second) : first.bind read = second.bind read := by
  cases rel with
  | none => rfl
  | some related => exact same _ _ related

theorem Alike.modelValidate (alike : Alike false left right) :
    Attachment.modelValidate laxInt left = Attachment.modelValidate laxInt right := by
  cases left with
  | object members =>
    cases right with
    | object others =>
      have fields (name : String) (listed : name ∈ ["id", "name", "mime_type", "size_bytes"]) :
          Option.Rel (Alike false) (members.lookup name) (others.lookup name) := by
        have facts : isCredentialKey name = false ∧ name ≠ "reasoning_content" ∧
            (name == "additional_kwargs") = false := by
          simp only [List.mem_cons, List.not_mem_nil, or_false] at listed
          obtain rfl | rfl | rfl | rfl := listed <;> decide
        have found := MembersAlike.lookup alike name facts.1 facts.2.1
        rwa [facts.2.2] at found
      have text (name : String) (listed : name ∈ ["id", "name", "mime_type", "size_bytes"])
          (limit : Nat) : (members.lookup name).bind (Attachment.text? limit) =
            (others.lookup name).bind (Attachment.text? limit) :=
        bind_eq_of_rel (Attachment.text? limit) (fun _ _ alike => alike.text? limit)
          (fields name listed)
      have natural : (members.lookup "size_bytes").bind (Attachment.natural? laxInt) =
          (others.lookup "size_bytes").bind (Attachment.natural? laxInt) :=
        bind_eq_of_rel (Attachment.natural? laxInt) (fun _ _ => Alike.natural?)
          (fields "size_bytes" (by simp))
      simp only [Attachment.modelValidate, MembersAlike.keys alike, text "id" (by simp),
        text "name" (by simp), text "mime_type" (by simp), natural]
    | _ => simp [Alike] at alike
  | _ => cases right <;> simp_all [Alike, Attachment.modelValidate]

/-- Whether an object is an image block with metadata does not depend on what is hidden. -/
theorem MembersAlike.metadata (alike : MembersAlike inside members others) :
    Option.Rel (Alike false) (attachmentMetadata? members) (attachmentMetadata? others) := by
  have kinds : Option.Rel (Alike false) (members.lookup "type") (others.lookup "type") :=
    by simpa using alike.lookup "type" (by decide) (by decide)
  have extras : Option.Rel (Alike false) (members.lookup "extras") (others.lookup "extras") :=
    by simpa using alike.lookup "extras" (by decide) (by decide)
  unfold attachmentMetadata?
  generalize members.lookup "type" = kind, others.lookup "type" = otherKind at kinds
  generalize members.lookup "extras" = extra, others.lookup "extras" = otherExtra at extras
  have either : kind = otherKind ∨ (∀ text, kind ≠ some (.string text)) ∧
      ∀ text, otherKind ≠ some (.string text) := by
    cases kinds with
    | none => exact .inl rfl
    | @some left right alike => cases left <;> cases right <;> simp_all [Alike]
  obtain rfl | ⟨away, otherAway⟩ := either
  · split
    · next inner =>
        cases extras with
        | @some _ right alike =>
          cases right with
          | object outer =>
            simpa using MembersAlike.lookup alike "attachment" (by decide) (by decide)
          | _ => simp [Alike] at alike
    · next plain =>
        split
        · next outer =>
            cases extras with
            | @some left _ alike =>
              cases left with
              | object inner => exact (plain inner rfl rfl).elim
              | _ => simp [Alike] at alike
        · exact .none
  · split
    · exact (away _ rfl).elim
    · split
      · exact (otherAway _ rfl).elim
      · exact .none

mutual

theorem alike_refl (inside : Bool) : ∀ value, Alike inside value value
  | .array items => .inr (itemsAlike_refl items)
  | .object members => membersAlike_refl inside members
  | .null => rfl
  | .bool _ => rfl
  | .int _ => rfl
  | .float _ => rfl
  | .string _ => rfl

theorem itemsAlike_refl : ∀ items, ItemsAlike items items
  | [] => trivial
  | item :: items => ⟨alike_refl false item, itemsAlike_refl items⟩

theorem membersAlike_refl (inside : Bool) : ∀ members, MembersAlike inside members members
  | [] => trivial
  | (_, value) :: members =>
    ⟨⟨rfl, .inr (.inr (alike_refl _ value))⟩, membersAlike_refl inside members⟩

end

theorem Alike.scalar (alike : Alike inside left right)
    (plain : (∀ items, left ≠ .array items) ∧ ∀ members, left ≠ .object members) :
    left = right := by
  cases left with
  | array items => exact (plain.1 items rfl).elim
  | object members => exact (plain.2 members rfl).elim
  | _ => exact alike

mutual

/-- Restoring attachments reads nothing of what is hidden. -/
theorem alike_restore (inside : Bool) : ∀ left right leftAfter rightAfter,
    Alike inside left right → restoreAttachmentReferences laxInt left = .ok leftAfter →
      restoreAttachmentReferences laxInt right = .ok rightAfter → Alike inside leftAfter rightAfter
  | .array items, right, _, _, alike, done, also => by
    cases right with
    | array others =>
      obtain ⟨restored, inner, rfl⟩ := restore_array.mp done
      obtain ⟨otherRestored, outer, rfl⟩ := restore_array.mp also
      obtain ⟨key, before, otherBefore, credential, rfl, rfl⟩ | alike := alike
      · obtain ⟨_, _, ⟨⟩, tail, rfl⟩ := restoreItems_cons.mp inner
        obtain ⟨after, _, -, ⟨⟩, rfl⟩ := restoreItems_cons.mp tail
        obtain ⟨_, _, ⟨⟩, tail, rfl⟩ := restoreItems_cons.mp outer
        obtain ⟨otherAfter, _, -, ⟨⟩, rfl⟩ := restoreItems_cons.mp tail
        exact .inl ⟨key, after, otherAfter, credential, rfl, rfl⟩
      · exact .inr (itemsAlike_restore items others restored otherRestored alike inner outer)
    | _ => simp [Alike] at alike
  | .object members, right, leftAfter, rightAfter, alike, done, also => by
    cases right with
    | object others =>
      have metadata := MembersAlike.metadata alike
      cases block : attachmentMetadata? members with
      | none =>
        rw [block] at metadata
        cases otherBlock : attachmentMetadata? others with
        | some _ =>
          rw [otherBlock] at metadata
          cases metadata
        | none =>
          obtain ⟨restored, inner, rfl⟩ := (restore_object block).mp done
          obtain ⟨otherRestored, outer, rfl⟩ := (restore_object otherBlock).mp also
          exact membersAlike_restore inside members others restored otherRestored alike
            inner outer
      | some found =>
        rw [block] at metadata
        cases otherBlock : attachmentMetadata? others with
        | none =>
          rw [otherBlock] at metadata
          cases metadata
        | some otherFound =>
          rw [otherBlock] at metadata
          obtain ⟨attachment, valid, rfl⟩ := (restore_block block).mp done
          obtain ⟨otherAttachment, otherValid, rfl⟩ := (restore_block otherBlock).mp also
          cases metadata with
          | some same =>
            rw [same.modelValidate, otherValid] at valid
            cases valid
            exact alike_refl inside _
    | _ => simp [Alike] at alike
  | .null, right, _, _, alike, done, also => by
    obtain rfl := alike.scalar (by simp)
    cases done
    cases also
    rfl
  | .bool _, right, _, _, alike, done, also => by
    obtain rfl := alike.scalar (by simp)
    cases done
    cases also
    rfl
  | .int _, right, _, _, alike, done, also => by
    obtain rfl := alike.scalar (by simp)
    cases done
    cases also
    rfl
  | .float _, right, _, _, alike, done, also => by
    obtain rfl := alike.scalar (by simp)
    cases done
    cases also
    rfl
  | .string _, right, _, _, alike, done, also => by
    obtain rfl := alike.scalar (by simp)
    cases done
    cases also
    rfl

theorem itemsAlike_restore : ∀ items others restored otherRestored, ItemsAlike items others →
    restoreItems laxInt items = .ok restored → restoreItems laxInt others = .ok otherRestored →
      ItemsAlike restored otherRestored
  | [], others, _, _, alike, done, also => by
    cases others with
    | nil =>
      cases done
      cases also
      trivial
    | cons _ _ => exact alike.elim
  | item :: items, others, _, _, alike, done, also => by
    cases others with
    | nil => exact alike.elim
    | cons other others =>
      obtain ⟨first, rest, here, tail, rfl⟩ := restoreItems_cons.mp done
      obtain ⟨otherFirst, otherRest, there, otherTail, rfl⟩ := restoreItems_cons.mp also
      exact ⟨alike_restore false item other first otherFirst alike.1 here there,
        itemsAlike_restore items others rest otherRest alike.2 tail otherTail⟩

theorem membersAlike_restore (inside : Bool) : ∀ members others restored otherRestored,
    MembersAlike inside members others → restoreMembers laxInt members = .ok restored →
      restoreMembers laxInt others = .ok otherRestored →
      MembersAlike inside restored otherRestored
  | [], others, _, _, alike, done, also => by
    cases others with
    | nil =>
      cases done
      cases also
      trivial
    | cons _ _ => exact alike.elim
  | (key, value) :: members, others, _, _, alike, done, also => by
    cases others with
    | nil => exact alike.elim
    | cons other others =>
      obtain ⟨name, otherValue⟩ := other
      obtain ⟨first, rest, here, tail, rfl⟩ := restoreMembers_cons.mp done
      obtain ⟨otherFirst, otherRest, there, otherTail, rfl⟩ := restoreMembers_cons.mp also
      refine ⟨⟨alike.1.1, ?_⟩, membersAlike_restore inside members others rest otherRest alike.2
        tail otherTail⟩
      exact alike.1.2.imp_right (Or.imp_right fun alike =>
        alike_restore _ value otherValue first otherFirst alike here there)

end

theorem ItemsAlike.credentialPair? {items others : List Json} (alike : ItemsAlike items others) :
    Tracing.credentialPair? items = Tracing.credentialPair? others := by
  match items, others, alike with
  | [], [], _ => rfl
  | [_], [_], _ => simp [Tracing.credentialPair?]
  | [first, _], [other, _], ⟨same, _, _⟩ =>
    cases first <;> cases other <;> simp_all [Alike, Tracing.credentialPair?]
  | _ :: _ :: _ :: _, _ :: _ :: _ :: _, _ => simp [Tracing.credentialPair?]

mutual

/-- Both passes make alike values equal. -/
theorem alike_passes (inside : Bool) : ∀ left right, Alike inside left right →
    stripPrivateReasoning inside (redactCredentials left) =
      stripPrivateReasoning inside (redactCredentials right)
  | .array items, right, alike => by
    cases right with
    | array others =>
      rw [redactCredentials, redactCredentials]
      obtain ⟨key, before, otherBefore, credential, rfl, rfl⟩ | alike := alike
      · rw [credentialPair?_eq_some.mpr ⟨credential, before, rfl⟩,
          credentialPair?_eq_some.mpr ⟨credential, otherBefore, rfl⟩]
      · rw [alike.credentialPair?]
        split
        · rfl
        · exact congrArg Json.array (alikeItems_passes items others alike)
    | _ => simp [Alike] at alike
  | .object members, right, alike => by
    cases right with
    | object others =>
      exact congrArg Json.object (alikeMembers_passes inside members others alike)
    | _ => simp [Alike] at alike
  | .null, right, alike => by rw [alike.scalar (by simp)]
  | .bool _, right, alike => by rw [alike.scalar (by simp)]
  | .int _, right, alike => by rw [alike.scalar (by simp)]
  | .float _, right, alike => by rw [alike.scalar (by simp)]
  | .string _, right, alike => by rw [alike.scalar (by simp)]

theorem alikeItems_passes : ∀ items others, ItemsAlike items others →
    stripItems (redactItems items) = stripItems (redactItems others)
  | [], others, alike => by
    cases others with
    | nil => rfl
    | cons _ _ => exact alike.elim
  | item :: items, others, alike => by
    cases others with
    | nil => exact alike.elim
    | cons other others =>
      simp only [redactItems, stripItems]
      rw [alike_passes false item other alike.1, alikeItems_passes items others alike.2]

theorem alikeMembers_passes (inside : Bool) : ∀ members others, MembersAlike inside members others →
    stripMembers inside (redactMembers members) = stripMembers inside (redactMembers others)
  | [], others, alike => by
    cases others with
    | nil => rfl
    | cons _ _ => exact alike.elim
  | (key, value) :: members, others, alike => by
    cases others with
    | nil => exact alike.elim
    | cons other others =>
      obtain ⟨name, otherValue⟩ := other
      obtain ⟨⟨rfl, hidden⟩, rest⟩ := alike
      simp only [redactMembers, stripMembers]
      rw [alikeMembers_passes inside members others rest]
      split
      · rfl
      · next kept =>
          by_cases credential : isCredentialKey key = true
          · rw [if_pos credential, if_pos credential]
          · obtain secret | reasoning | alike := hidden
            · exact absurd secret credential
            · exact absurd (by simpa using reasoning) kept
            · rw [if_neg credential, if_neg credential, alike_passes _ value otherValue alike]

end

end Alike

/-! ## The guarantee -/

section SecureRedact

variable (laxInt : Json → Option Int)

theorem secureRedact_none {value result : Json} : secureRedact laxInt none value = .ok result ↔
    ∃ restored, restoreAttachmentReferences laxInt value = .ok restored ∧
      result = stripPrivateReasoning false (redactCredentials restored) := by
  unfold secureRedact
  cases restoreAttachmentReferences laxInt value <;>
    simp [bind, Except.bind, pure, Except.pure, eq_comm]

theorem secureRedact_some {redactor : Json → RedactorOutcome} {value result : Json}
    (done : secureRedact laxInt (some redactor) value = .ok result) :
    ∃ restored, result = stripPrivateReasoning false (redactCredentials restored) := by
  unfold secureRedact at done
  cases first : restoreAttachmentReferences laxInt value with
  | error error => simp [first, bind, Except.bind] at done
  | ok restored =>
    simp only [first, bind, Except.bind] at done
    split at done
    · cases done
    · next businessSafe applied =>
        split at done
        · cases done
        · next again restoredAgain =>
            exact ⟨again, (Except.ok.inj done).symm⟩

/-- Values that differ only in what is hidden have one result, whatever a business redactor returns
nothing hidden is left, and a second call changes nothing. -/
theorem secureRedact_conceals :
    (∀ left right leftResult rightResult, Alike false left right →
      secureRedact laxInt none left = .ok leftResult →
      secureRedact laxInt none right = .ok rightResult → leftResult = rightResult) ∧
    (∀ redactor value result, secureRedact laxInt redactor value = .ok result →
      Concealed false result) ∧
    ∀ value result, secureRedact laxInt none value = .ok result →
      secureRedact laxInt none result = .ok result := by
  refine ⟨?_, ?_, ?_⟩
  · intro left right leftResult rightResult alike done also
    obtain ⟨restored, inner, rfl⟩ := (secureRedact_none laxInt).mp done
    obtain ⟨otherRestored, outer, rfl⟩ := (secureRedact_none laxInt).mp also
    exact alike_passes false _ _ (alike_restore false left right _ _ alike inner outer)
  · intro redactor value result done
    cases redactor with
    | none =>
      obtain ⟨restored, -, rfl⟩ := (secureRedact_none laxInt).mp done
      exact concealed_passes false restored
    | some redactor =>
      obtain ⟨restored, rfl⟩ := secureRedact_some laxInt done
      exact concealed_passes false restored
  · intro value result done
    obtain ⟨restored, inner, rfl⟩ := (secureRedact_none laxInt).mp done
    have concealed := concealed_passes false restored
    have still := restored_strip false _ (restored_redact _ (restored_restore value restored inner))
    refine (secureRedact_none laxInt).mpr ⟨_, restore_restored _ still, ?_⟩
    rw [redact_concealed false _ concealed, strip_concealed false _ concealed]

end SecureRedact

end Tinkerfin.Tracing
