import Tinkerfin.Checkpoint.NamespaceView
import Tinkerfin.Lib.JsonText
import Tinkerfin.Lib.Machine

/-!
# Isolation of namespaces

Whatever metadata and configuration a caller brings, the three keys of the view read back as the
writer stamped them.  A checkpoint that a view returns was therefore written for the same identity,
through a view of the same namespace.
-/

namespace Tinkerfin.Checkpoint

open Messaging (ThreadIdentity RunIdentity bind_eq_ok)

/-! ## Canonical text -/

/-- The text of one character inside a canonical JSON string. -/
def asciiChar (char : Char) : List Char := (Json.escape char).flatMap asciiEscape

/-- The number that four hexadecimal digits denote. -/
def hexUnit (a b c d : Char) : Nat :=
  ((Json.hexValue a * 16 + Json.hexValue b) * 16 + Json.hexValue c) * 16 + Json.hexValue d

/-- Read one character of a canonical JSON string; a quote ends the string. -/
def readAscii : List Char → Option (Char × List Char)
  | '\\' :: 'u' :: a :: b :: c :: d :: rest =>
    let unit := hexUnit a b c d
    if 0xd800 ≤ unit ∧ unit < 0xdc00 then
      match rest with
      | '\\' :: 'u' :: a :: b :: c :: d :: rest =>
        some (Char.ofNat (0x10000 + (unit - 0xd800) * 1024 + (hexUnit a b c d - 0xdc00)), rest)
      | _ => none
    else some (Char.ofNat unit, rest)
  | chars => Json.unescape chars

theorem hexValue_hexDigit : ∀ digit < 16, Json.hexValue (Sha256.hexDigit digit) = digit := by
  decide

theorem hexUnit_digits {code : Nat} (fits : code < 65536) :
    hexUnit (Sha256.hexDigit (code / 4096 % 16)) (Sha256.hexDigit (code / 256 % 16))
      (Sha256.hexDigit (code / 16 % 16)) (Sha256.hexDigit (code % 16)) = code := by
  unfold hexUnit
  rw [hexValue_hexDigit _ (Nat.mod_lt _ (by omega)), hexValue_hexDigit _ (Nat.mod_lt _ (by omega)),
    hexValue_hexDigit _ (Nat.mod_lt _ (by omega)), hexValue_hexDigit _ (Nat.mod_lt _ (by omega))]
  omega

theorem asciiChar_low : ∀ code < 127,
    asciiChar (Char.ofNat code) = Json.escape (Char.ofNat code) := by
  decide

theorem escape_cases (char : Char) :
    (∃ plain, Json.escape char = [plain] ∧ plain ≠ '\\') ∨
      (∃ letter, Json.escape char = ['\\', letter] ∧ letter ≠ 'u') ∨
        char.toNat < 32 ∧ Json.escape char = Json.unicodeEscape char := by
  unfold Json.escape
  split_ifs with quoted slash newline carriage tab feed back control
  · exact .inr (.inl ⟨'"', rfl, by decide⟩)
  · exact .inr (.inl ⟨'\\', rfl, by decide⟩)
  · exact .inr (.inl ⟨'n', rfl, by decide⟩)
  · exact .inr (.inl ⟨'r', rfl, by decide⟩)
  · exact .inr (.inl ⟨'t', rfl, by decide⟩)
  · exact .inr (.inl ⟨'f', rfl, by decide⟩)
  · exact .inr (.inl ⟨'b', rfl, by decide⟩)
  · exact .inr (.inr ⟨control, rfl⟩)
  · exact .inl ⟨char, rfl, slash⟩

theorem readAscii_asciiChar (char : Char) (rest : List Char) :
    readAscii (asciiChar char ++ rest) = some (char, rest) := by
  by_cases low : char.toNat < 127
  · have same := asciiChar_low char.toNat low
    rw [Char.ofNat_toNat] at same
    have read := Json.unescape_escape char rest
    rw [same]
    obtain ⟨plain, escaped, other⟩ | ⟨letter, escaped, other⟩ | ⟨control, escaped⟩ :=
      escape_cases char
    · rw [escaped] at read ⊢
      rw [← read]
      simp only [List.singleton_append]
      unfold readAscii
      split
      · next starts => exact absurd (List.cons.inj starts).1 other
      · rfl
    · rw [escaped] at read ⊢
      rw [← read]
      simp only [List.cons_append, List.nil_append]
      unfold readAscii
      split
      · next starts => exact absurd (List.cons.inj (List.cons.inj starts).2).1 other
      · rfl
    · have unit : hexUnit '0' '0' (Sha256.hexDigit (char.toNat / 16))
          (Sha256.hexDigit (char.toNat % 16)) = char.toNat := by
        unfold hexUnit
        rw [hexValue_hexDigit _ (by omega), hexValue_hexDigit _ (Nat.mod_lt _ (by omega)),
          show Json.hexValue '0' = 0 from rfl]
        omega
      rw [escaped]
      simp only [Json.unicodeEscape, List.cons_append, List.nil_append, readAscii, unit]
      rw [if_neg (by omega), Char.ofNat_toNat]
  · have escaped : Json.escape char = [char] := by
      have differs {other : Char} (below : other.toNat < 127) : char ≠ other := by
        rintro rfl
        exact low below
      unfold Json.escape
      rw [if_neg (differs (by decide)), if_neg (differs (by decide)), if_neg (differs (by decide)),
        if_neg (differs (by decide)), if_neg (differs (by decide)), if_neg (by omega),
        if_neg (by omega), if_neg (by omega)]
    have valid : char.toNat < 0xd800 ∨ 0xdfff < char.toNat ∧ char.toNat < 0x110000 := char.valid
    rw [asciiChar, escaped, List.flatMap_singleton, asciiEscape, if_neg (by omega)]
    split
    · next basic =>
        simp only [List.cons_append, List.nil_append, readAscii, hexUnit_digits basic]
        rw [if_neg (by omega), Char.ofNat_toNat]
    · next high =>
        simp only [List.cons_append, List.nil_append, readAscii,
          hexUnit_digits (show 55296 + (char.toNat - 65536) / 1024 < 65536 by omega),
          hexUnit_digits (show 56320 + (char.toNat - 65536) % 1024 < 65536 by omega)]
        rw [if_pos (by omega)]
        have whole : 0x10000 + (55296 + (char.toNat - 65536) / 1024 - 0xd800) * 1024 +
            (56320 + (char.toNat - 65536) % 1024 - 0xdc00) = char.toNat := by omega
        simp only [whole, Char.ofNat_toNat]

/-- A quoted string in printable characters. -/
def asciiQuote (text : String) : List Char := (Json.quote text).toList.flatMap asciiEscape

theorem asciiQuote_eq (text : String) :
    asciiQuote text = '"' :: (text.toList.flatMap asciiChar ++ ['"']) := by
  rw [asciiQuote, Json.toList_quote, List.flatMap_cons, List.flatMap_append, List.flatMap_assoc]
  rfl

theorem asciiQuote_inj {left right : String} {leftRest rightRest : List Char}
    (same : asciiQuote left ++ leftRest = asciiQuote right ++ rightRest) :
    left = right ∧ leftRest = rightRest := by
  simp only [asciiQuote_eq, List.cons_append, List.append_assoc, List.nil_append, List.cons.injEq,
    true_and] at same
  obtain ⟨chars, rest⟩ := Json.flatMap_inj_of_read readAscii_asciiChar (fun _ => rfl) same
  exact ⟨String.toList_injective chars, rest⟩

theorem flatMap_listTail (items : List (List Char)) :
    (Json.listTail '\x7d' items).flatMap asciiEscape =
      Json.listTail '\x7d' (items.map (·.flatMap asciiEscape)) := by
  induction items with
  | nil => rfl
  | cons item items ih =>
    rw [Json.listTail, List.cons_append, List.flatMap_cons, List.flatMap_append, ih,
      show asciiEscape ',' = [','] by decide, List.singleton_append]
    rfl

/-- A member whose value is a string. -/
def stringMember (member : String × String) : String × Json := (member.1, .string member.2)

theorem flatMap_memberText (member : String × String) :
    (Json.memberText (stringMember member)).flatMap asciiEscape =
      asciiQuote member.1 ++ ':' :: asciiQuote member.2 := by
  rw [Json.memberText, List.flatMap_append, List.flatMap_cons,
    show asciiEscape ':' = [':'] by decide, List.singleton_append]
  rfl

theorem stringMembersTail_inj {left right : List (String × String)}
    (keys : left.map Prod.fst = right.map Prod.fst)
    (same : Json.listTail '\x7d' (left.map fun member =>
        asciiQuote member.1 ++ ':' :: asciiQuote member.2) =
      Json.listTail '\x7d' (right.map fun member =>
        asciiQuote member.1 ++ ':' :: asciiQuote member.2)) : left = right := by
  induction left generalizing right with
  | nil => exact (List.map_eq_nil_iff.mp keys.symm).symm
  | cons member left ih =>
    obtain ⟨next, right, rfl, key, keys⟩ := List.map_eq_cons_iff.mp keys.symm
    simp only [List.map_cons, Json.listTail, key, List.cons_append, List.append_assoc,
      List.append_cancel_left_eq, List.cons.injEq, true_and] at same
    obtain ⟨value, rest⟩ := asciiQuote_inj same
    rw [ih keys.symm rest]
    exact congrArg (· :: right) (Prod.ext key.symm value)

/-- Objects of strings over the same sorted keys with equal canonical texts are equal. -/
theorem asciiText_inj {left right : List (String × String)}
    (same : asciiText (.object (left.map stringMember)) =
      asciiText (.object (right.map stringMember)))
    (keys : left.map Prod.fst = right.map Prod.fst)
    (sorted : left.Pairwise fun left right => left.1 ≤ right.1) : left = right := by
  have ordered : right.Pairwise fun left right => left.1 ≤ right.1 := by
    have ranked : (left.map Prod.fst).Pairwise (· ≤ ·) := List.pairwise_map.mpr sorted
    rw [keys] at ranked
    exact List.pairwise_map.mp ranked
  have members {member : String × String} {rest : List (String × String)}
      (sorted : (member :: rest).Pairwise fun left right => left.1 ≤ right.1) :
      (Json.dumps (.object ((member :: rest).map stringMember))).toList.flatMap asciiEscape =
        '\x7b' :: (asciiQuote member.1 ++ ':' :: asciiQuote member.2 ++
          Json.listTail '\x7d' (rest.map fun member =>
            asciiQuote member.1 ++ ':' :: asciiQuote member.2)) := by
    have ranked : (stringMember member :: rest.map stringMember).Pairwise
        fun left right => left.1 ≤ right.1 := by
      rw [← List.map_cons, List.pairwise_map]
      exact sorted
    have each : (fun item : List Char => item.flatMap asciiEscape) ∘ Json.memberText ∘
        stringMember = fun member => asciiQuote member.1 ++ ':' :: asciiQuote member.2 := by
      funext member
      rw [Function.comp_apply, Function.comp_apply, flatMap_memberText]
    rw [List.map_cons, Json.toList_dumps_object ranked, List.flatMap_cons, List.flatMap_append,
      flatMap_memberText, flatMap_listTail, List.map_map, List.map_map, Function.comp_assoc, each,
      show asciiEscape '\x7b' = ['\x7b'] by decide, List.singleton_append]
  cases left with
  | nil => exact (List.map_eq_nil_iff.mp keys.symm).symm
  | cons member left =>
    obtain ⟨next, right, rfl, -, -⟩ := List.map_eq_cons_iff.mp keys.symm
    have chars := String.ofList_injective same
    rw [members sorted, members ordered] at chars
    refine stringMembersTail_inj keys ?_
    simp only [List.map_cons, Json.listTail, List.cons_append]
    exact congrArg (',' :: ·) (List.cons.inj chars).2

theorem identityJson_eq (identity : ThreadIdentity) :
    identityJson identity = asciiText (.object
      ([("namespace", identity.namespace), ("threadId", identity.threadId)].map stringMember)) :=
  rfl

theorem identityJson_injective {identity other : ThreadIdentity}
    (same : identityJson identity = identityJson other) : identity = other := by
  rw [identityJson_eq, identityJson_eq] at same
  have members := asciiText_inj same (by simp only [List.map_cons, List.map_nil]) (by simp)
  simp only [List.cons.injEq, Prod.mk.injEq, true_and, and_true] at members
  cases identity
  cases other
  exact congrArg₂ _ members.1 members.2

/-! ## Encodings -/

theorem mem_encode {bytes : List UInt8} {char : Char} (listed : char ∈ Base64.encode bytes) :
    ∃ value < 64, char = Base64.digit value := by
  induction bytes using Base64.encode.induct with
  | case1 => cases listed
  | case2 a =>
    have := a.toNat_lt
    simp only [Base64.encode, List.mem_cons, List.not_mem_nil, or_false] at listed
    obtain rfl | rfl := listed
    · exact ⟨_, by omega, rfl⟩
    · exact ⟨_, by omega, rfl⟩
  | case3 a b =>
    have := a.toNat_lt
    have := b.toNat_lt
    simp only [Base64.encode, List.mem_cons, List.not_mem_nil, or_false] at listed
    obtain rfl | rfl | rfl := listed
    · exact ⟨_, by omega, rfl⟩
    · exact ⟨_, by omega, rfl⟩
    · exact ⟨_, by omega, rfl⟩
  | case4 a b c bytes ih =>
    have := a.toNat_lt
    have := b.toNat_lt
    have := c.toNat_lt
    simp only [Base64.encode, List.mem_cons] at listed
    obtain rfl | rfl | rfl | rfl | listed := listed
    · exact ⟨_, by omega, rfl⟩
    · exact ⟨_, by omega, rfl⟩
    · exact ⟨_, by omega, rfl⟩
    · exact ⟨_, by omega, rfl⟩
    · exact ih listed

theorem digit_standard : ∀ value < 64,
    let char := Base64.digit value
    let standard := if char = '-' then '+' else if char = '_' then '/' else char
    (if standard = '+' then '-' else if standard = '/' then '_' else standard) = char ∧
      standard.toNat ≠ 0 := by
  decide

theorem b64encode_chars (text : String) : ∀ char ∈ (b64encode text).toList,
    ∃ plain, char = (if plain = '-' then '+' else if plain = '_' then '/' else plain) ∧
      (plain = '=' ∨ ∃ value < 64, plain = Base64.digit value) := by
  intro char listed
  simp only [b64encode, String.toList_ofList, List.mem_map, List.mem_append] at listed
  obtain ⟨plain, listed | padded, rfl⟩ := listed
  · exact ⟨plain, rfl, .inr (mem_encode listed)⟩
  · exact ⟨plain, rfl, .inl (List.eq_of_mem_replicate padded)⟩

@[simp] theorem stripNul_b64encode (text : String) : stripNul (b64encode text) = b64encode text := by
  have kept : (b64encode text).toList.filter (fun char => char.toNat ≠ 0) =
      (b64encode text).toList := by
    rw [List.filter_eq_self]
    intro char listed
    obtain ⟨plain, rfl, rfl | ⟨value, fits, rfl⟩⟩ := b64encode_chars text char listed
    · decide
    · exact decide_eq_true (digit_standard value fits).2
  rw [stripNul, kept, String.ofList_toList]

theorem fromUTF8?_utf8 (text : String) :
    String.fromUTF8? (Bytes.utf8 text).toByteArray = some text := by
  have bytes : (Bytes.utf8 text).toByteArray = text.toByteArray :=
    String.utf8Encode_toList
  rw [bytes]
  exact dif_pos text.isValidUTF8

theorem b64decode_b64encode (text : String) : b64decode (b64encode text) = some text := by
  have back : (b64encode text).toList.map (fun char =>
      if char = '+' then '-' else if char = '/' then '_' else char) =
      Base64.encode (Bytes.utf8 text) ++
        Base64.padding (Base64.encode (Bytes.utf8 text)).length := by
    rw [b64encode, String.toList_ofList, List.map_map]
    refine (List.map_congr_left fun char listed => ?_).trans (List.map_id _)
    obtain listed | padded := List.mem_append.mp listed
    · obtain ⟨value, fits, rfl⟩ := mem_encode listed
      exact (digit_standard value fits).1
    · obtain rfl := List.eq_of_mem_replicate padded
      rfl
  unfold b64decode
  rw [back, Base64.decode_encode]
  simp [fromUTF8?_utf8]

variable {ν κ : Type} {upstream : Upstream ν κ}

theorem canonicalThread_injective {identity other : ThreadIdentity}
    (same : canonicalThread upstream identity = canonicalThread upstream other) :
    identity = other := by
  unfold canonicalThread at same
  split at same
  · exact identityJson_injective same
  · next storage _ =>
      have text (identity : ThreadIdentity) : asciiText (.object
          [("checkpointPrefix", .string storage.checkpointPrefix),
           ("identity", .string (identityJson identity)),
           ("writePrefix", .string storage.writePrefix)]) = asciiText (.object
          ([("checkpointPrefix", storage.checkpointPrefix), ("identity", identityJson identity),
            ("writePrefix", storage.writePrefix)].map stringMember)) := by
        simp only [List.map_cons, List.map_nil, stringMember]
      rw [text, text] at same
      have members := asciiText_inj same (by simp only [List.map_cons, List.map_nil]) (by simp)
      simp only [List.cons.injEq, Prod.mk.injEq, true_and, and_true] at members
      exact identityJson_injective members

theorem b64encode_of_b64decode {value text : String} (decoded : b64decode value = some text) :
    b64encode text = value := by
  unfold b64decode at decoded
  simp only [Option.bind_eq_bind, Option.bind_eq_some_iff] at decoded
  obtain ⟨bytes, -, other, -, same⟩ := decoded
  split at same
  · next canonical =>
      obtain rfl := Option.some.inj same
      exact canonical
  · cases same

/-! ## Evidence -/

namespace NamespaceCheckpointer

/-- What the writer of a checkpoint is entitled to say under a key. -/
def evidenceOf (config : RunnableConfig ν) (identity : ThreadIdentity) (key : String) :
    Option String :=
  if key = threadIdentityKey then some (identityJson identity)
  else if key = lineageMetadataKey then config.lineage.map LineageMarker.canonicalJson
  else if key = resumeMetadataKey then config.resume.map ResumeIntent.canonicalJson
  else none

theorem stripNul_ownedKey : ∀ key ∈ ownedKeys, stripNul key = key := by
  decide

theorem ownedMetadataKey_of_mem {key : String} (owned : key ∈ ownedKeys) : ownedMetadataKey key := by
  rw [ownedMetadataKey, stripNul_ownedKey key owned]
  exact List.contains_iff_mem.mpr owned

theorem mem_ownedKeys_of_evidence {config : RunnableConfig ν} {identity : ThreadIdentity}
    {key value : String} (said : evidenceOf config identity key = some value) :
    key ∈ ownedKeys := by
  unfold evidenceOf at said
  simp only [ownedKeys, List.mem_cons, List.not_mem_nil, or_false]
  split at said
  · next same => exact .inl same
  · split at said
    · next same => exact .inr (.inl same)
    · split at said
      · next same => exact .inr (.inr same)
      · cases said

variable (upstream) in
/-- Under the keys of the view, and the keys that may become one, metadata hold the evidence. -/
def Stamped (metadata : Dict String ν) (evidence : String → Option String) : Prop :=
  ∀ key, ownedMetadataKey key →
    metadata.get? key = (evidence key).map fun text => upstream.text (b64encode text)

theorem get?_withoutOwnedKeys {entries : Dict String ν} {key : String}
    (owned : ownedMetadataKey key) : (withoutOwnedKeys entries).get? key = none := by
  rw [withoutOwnedKeys, Dict.get?_filter]
  simp [owned, Option.filter_eq_none_iff]

variable {view : NamespaceCheckpointer} {config located : RunnableConfig ν}
  {metadata owned : Dict String ν} {identity : ThreadIdentity}

theorem stamp_stamped (stamps : stamp upstream config metadata identity = .ok owned) :
    Stamped upstream owned (evidenceOf config identity) := by
  intro key ownedKey
  have clean : (withoutOwnedKeys metadata).get? key = none := get?_withoutOwnedKeys ownedKey
  obtain ⟨lineageThread, resumeThread, resumeLineage⟩ :
      lineageMetadataKey ≠ threadIdentityKey ∧ resumeMetadataKey ≠ threadIdentityKey ∧
        resumeMetadataKey ≠ lineageMetadataKey := by decide
  -- the keys are distinct, so the order of the stamps does not matter
  have first : (config.lineage.elim
      ((withoutOwnedKeys metadata).insert threadIdentityKey
        (upstream.text (b64encode (identityJson identity))))
      fun lineage => ((withoutOwnedKeys metadata).insert threadIdentityKey
        (upstream.text (b64encode (identityJson identity)))).insert lineageMetadataKey
          (upstream.text (b64encode lineage.canonicalJson))).get? key =
      (if key = threadIdentityKey then some (identityJson identity)
        else if key = lineageMetadataKey then config.lineage.map LineageMarker.canonicalJson
        else none).map fun text => upstream.text (b64encode text) := by
    cases config.lineage with
    | none =>
      simp only [Option.elim, Dict.get?_insert, clean, Option.map_none, ite_self]
      split <;> rfl
    | some lineage =>
      simp only [Option.elim, Dict.get?_insert, clean, Option.map_some]
      split_ifs with same other <;> simp_all
  unfold stamp at stamps
  unfold evidenceOf
  split at stamps
  · next absent =>
      obtain rfl := Except.ok.inj stamps
      rw [first, absent, Option.map_none, ite_self]
  · next intent present =>
      split at stamps
      · obtain rfl := Except.ok.inj stamps
        rw [Dict.get?_insert, first, present, Option.map_some]
        split_ifs with same <;> simp_all
      · cases stamps

/-- The scalars of a clean configuration leave the evidence alone. -/
theorem Stamped.merge (returns : upstream.Returns) {evidence : String → Option String}
    (stamped : Stamped upstream metadata evidence)
    (clean : ∀ key ∈ config.keys, ¬ownedMetadataKey key) :
    Stamped upstream (upstream.getCheckpointMetadata config metadata) evidence := by
  intro key owned
  have stored := stamped key owned
  cases said : evidence key with
  | some text =>
    rw [said, Option.map_some] at stored
    exact returns.mergeText _ _ _ _ stored (stripNul_b64encode text)
  | none =>
    rw [said, Option.map_none] at stored
    cases merged : (upstream.getCheckpointMetadata config metadata).get? key with
    | none => rfl
    | some value =>
      obtain listed | listed := returns.mergeKeys _ _ key (Dict.mem_keys_of_get? merged)
      · rw [Dict.mem_keys_iff, stored] at listed
        cases listed
      · exact absurd owned (clean key listed)

/-- A saver that may rename keys, and may add configuration, returns the evidence. -/
theorem Stamped.keep (returns : upstream.Returns) {evidence : String → Option String}
    (stamped : Stamped upstream metadata evidence)
    (entitled : ∀ key value, evidence key = some value → key ∈ ownedKeys)
    (clean : ∀ key ∈ config.keys, ¬ownedMetadataKey key) {key : String} (owned : key ∈ ownedKeys) :
    (upstream.keepMetadata config metadata).get? key =
      (evidence key).map fun text => upstream.text (b64encode text) := by
  -- among the entries that the saver gets, only the key itself can end under it
  have unaliased : ∀ source ∈ upstream.sources config metadata,
      stripNul source = key ∨ source = key → source = key ∧ (evidence source).isSome := by
    intro source listed same
    have ownedSource : ownedMetadataKey source := by
      obtain same | rfl := same
      · rw [ownedMetadataKey, same]
        exact List.contains_iff_mem.mpr owned
      · exact ownedMetadataKey_of_mem owned
    have stored : source ∈ metadata.keys := by
      obtain listed | listed := List.mem_append.mp listed
      · exact listed
      · split at listed
        · cases listed
        · exact absurd ownedSource (clean source listed)
    rw [Dict.mem_keys_iff, stamped source ownedSource, Option.isSome_map] at stored
    obtain ⟨value, said⟩ := Option.isSome_iff_exists.mp stored
    refine ⟨?_, stored⟩
    obtain same | same := same
    · rw [← same, stripNul_ownedKey source (entitled source value said)]
    · exact same
  have stored := stamped key (ownedMetadataKey_of_mem owned)
  cases said : evidence key with
  | some text =>
    rw [said, Option.map_some] at stored
    exact returns.keepText _ _ _ _ stored (stripNul_b64encode text) (stripNul_ownedKey key owned)
      fun source listed same => (unaliased source listed (.inl same)).1
  | none =>
    cases kept : (upstream.keepMetadata config metadata).get? key with
    | none => rfl
    | some value =>
      obtain ⟨source, listed, same⟩ := returns.keepKeys _ _ key (Dict.mem_keys_of_get? kept)
      obtain ⟨rfl, isSaid⟩ := unaliased source listed (same.symm.imp Eq.symm Eq.symm)
      rw [said] at isSaid
      cases isSaid

/-- The one value that a Redis saver gets is decoded to the metadata that it encodes. -/
theorem readRedisMetadata_keep (returns : upstream.Returns) {storage : RedisStorage ν}
    (redis : upstream.redis = some storage) :
    ∃ decoded, readRedisMetadata upstream storage
        (upstream.keepMetadata config (redisMetadata upstream storage metadata)) = .ok decoded ∧
      ∀ key, decoded.get? key = metadata.get? key := by
  have keys : ∀ key ∈ (redisMetadata upstream storage metadata).keys,
      key ∈ [redisMetadataKey, "source", "step"] := by
    intro key listed
    have unkeyed : key ∉ (Dict.empty : Dict String ν).keys := List.not_mem_nil
    unfold redisMetadata at listed
    cases source : metadata.get? "source" <;> cases step : metadata.get? "step" <;>
      simp only [source, step, Option.elim, Dict.mem_keys_insert, unkeyed, or_false] at listed <;>
      simp only [List.mem_cons, List.not_mem_nil, or_false] <;> tauto
  have encoded : (redisMetadata upstream storage metadata).get? redisMetadataKey =
      some (upstream.text (b64encode (storage.dumps metadata))) := by
    have apart : redisMetadataKey ≠ "source" ∧ redisMetadataKey ≠ "step" := by decide
    unfold redisMetadata
    cases metadata.get? "source" <;> cases metadata.get? "step" <;>
      simp [Dict.get?_insert, apart]
  have plain : ∀ key ∈ [redisMetadataKey, "source", "step"], stripNul key = key := by decide
  have kept := returns.keepText config _ _ _ encoded (stripNul_b64encode _)
    (plain _ List.mem_cons_self) fun source listed same => by
      rw [Upstream.sources, redis, Option.isSome_some, if_pos rfl, List.append_nil] at listed
      rw [← same, plain source (keys source listed)]
  obtain ⟨decoded, loads, same⟩ := storage.loads_dumps metadata
  refine ⟨decoded, ?_, same⟩
  unfold readRedisMetadata
  rw [kept]
  simp [decodeMetadata, upstream.text?_text, b64decode_b64encode, loads, bind, Except.bind, pure,
    Except.pure]

theorem decodeOwned_fold {evidence : String → Option String} {keys : List String}
    (distinct : keys.Nodup)
    (values : ∀ key ∈ keys, metadata.get? key =
      (evidence key).map fun text => upstream.text (b64encode text)) :
    ∃ decoded, keys.foldlM (decodeOwned upstream) metadata = .ok decoded ∧
      (∀ key ∈ keys, decoded.get? key = (evidence key).map upstream.text) ∧
      ∀ key ∉ keys, decoded.get? key = metadata.get? key := by
  induction keys generalizing metadata with
  | nil => exact ⟨metadata, rfl, by simp, fun _ _ => rfl⟩
  | cons key keys ih =>
    obtain ⟨fresh, distinct⟩ := List.nodup_cons.mp distinct
    obtain ⟨next, decodes, here, elsewhere⟩ : ∃ next, decodeOwned upstream metadata key = .ok next ∧
        next.get? key = (evidence key).map upstream.text ∧
        ∀ other, other ≠ key → next.get? other = metadata.get? other := by
      have stored := values key List.mem_cons_self
      unfold decodeOwned
      cases said : evidence key with
      | none =>
        rw [said, Option.map_none] at stored
        rw [stored]
        exact ⟨metadata, rfl, stored, fun _ _ => rfl⟩
      | some text =>
        rw [said, Option.map_some] at stored
        rw [stored]
        refine ⟨metadata.insert key (upstream.text text), ?_, by simp,
          fun other different => Dict.get?_insert_of_ne _ _ different⟩
        simp [decodeMetadata, upstream.text?_text, b64decode_b64encode, Except.map]
    obtain ⟨decoded, folds, values, kept⟩ := ih distinct fun other listed => by
      have different : other ≠ key := fun same => fresh (same ▸ listed)
      rw [elsewhere other different]
      exact values other (.tail _ listed)
    refine ⟨decoded, ?_, ?_, ?_⟩
    · rw [List.foldlM_cons, decodes]
      exact folds
    · intro other listed
      obtain rfl | listed := List.mem_cons.mp listed
      · rw [kept other fresh, here]
      · exact values other listed
    · intro other unlisted
      obtain ⟨different, unlisted⟩ := not_or.mp (mt List.mem_cons.mpr unlisted)
      rw [kept other unlisted, elsewhere other different]

theorem identity_ok (selects : view.identity config = .ok identity) :
    config.threadId = some identity.threadId ∧ identity.namespace = view.namespace ∧
      ∀ lineage, config.lineage = some lineage → lineage.toThreadIdentity = identity := by
  unfold NamespaceCheckpointer.identity at selects
  split at selects
  · cases selects
  · next threadId named =>
      obtain ⟨found, valid, selects⟩ := bind_eq_ok.mp selects
      have same : found = { «namespace» := view.namespace, threadId } := by
        unfold ThreadIdentity.validate at valid
        split at valid
        · exact (Except.ok.inj valid).symm
        · cases valid
      split at selects
      · next absent =>
          obtain rfl := Except.ok.inj selects
          subst same
          exact ⟨named, rfl, fun lineage present => by rw [absent] at present; cases present⟩
      · next lineage present =>
          split at selects
          · next owner =>
              obtain rfl := Except.ok.inj selects
              subst same
              refine ⟨named, rfl, fun other same => ?_⟩
              obtain rfl := Option.some.inj (present.symm.trans same)
              exact owner
          · cases selects

theorem physical_ok (translates : view.physical upstream config = .ok located) :
    ∃ identity, view.identity config = .ok identity ∧
      located.threadId = some (physicalThread upstream identity) ∧
      located.checkpointId = config.checkpointId ∧
      (located.checkpointNs.getD "" = if upstream.redis.isSome then
        b64encode (config.checkpointNs.getD "") else config.checkpointNs.getD "") ∧
      ∀ key ∈ located.keys, ¬ownedMetadataKey key := by
  obtain ⟨identity, selects, translates⟩ := bind_eq_ok.mp translates
  obtain rfl := Except.ok.inj translates
  refine ⟨identity, selects, rfl, rfl, ?_, ?_⟩
  · split <;> rfl
  · intro key listed owned
    obtain listed | listed := List.mem_append.mp listed
    · rw [Dict.mem_keys_iff, get?_withoutOwnedKeys owned] at listed
      cases listed
    · cases brought : config.metadata with
      | none =>
        rw [brought] at listed
        cases listed
      | some entries =>
        rw [brought] at listed
        have listed : key ∈ (withoutOwnedKeys entries).keys := listed
        rw [Dict.mem_keys_iff, get?_withoutOwnedKeys owned] at listed
        cases listed

variable {checkpoint : SavedState κ} {row : CheckpointTuple ν κ}

/-- A checkpoint that was put through a view reads back the evidence of its writer. -/
theorem putRow_ok (returns : upstream.Returns)
    (puts : view.putRow upstream config checkpoint metadata = .ok row) :
    ∃ identity decoded, view.identity config = .ok identity ∧ row.checkpoint = checkpoint ∧
      row.config.threadId = some (physicalThread upstream identity) ∧
      row.config.checkpointId = some checkpoint.id ∧
      (∀ parent, row.parentConfig = some parent →
        parent.threadId = some (physicalThread upstream identity)) ∧
      readMetadata upstream row.metadata = .ok decoded ∧
      ∀ key ∈ ownedKeys, decoded.get? key =
        (evidenceOf config identity key).map upstream.text := by
  obtain ⟨identity, selects, puts⟩ := bind_eq_ok.mp puts
  obtain ⟨owned, stamps, puts⟩ := bind_eq_ok.mp puts
  obtain ⟨located, translates, puts⟩ := bind_eq_ok.mp puts
  obtain rfl := Except.ok.inj puts
  obtain ⟨same, selected, thread, -, -, clean⟩ := physical_ok translates
  obtain rfl := Except.ok.inj (selects.symm.trans selected)
  have location := returns.location located checkpoint
  have merged := (stamp_stamped stamps).merge returns clean
  have read : ∃ decoded, readMetadata upstream (upstream.keepMetadata located
      (upstream.redis.elim (upstream.getCheckpointMetadata located owned) fun storage =>
        redisMetadata upstream storage (upstream.getCheckpointMetadata located owned))) =
          .ok decoded ∧
      ∀ key ∈ ownedKeys, decoded.get? key =
        (evidenceOf config identity key).map upstream.text := by
    have distinct : ownedKeys.Nodup := by decide
    unfold readMetadata
    cases redis : upstream.redis with
    | some storage =>
      obtain ⟨loaded, loads, same⟩ := @readRedisMetadata_keep _ _ _ located
        (upstream.getCheckpointMetadata located owned) returns _ redis
      obtain ⟨decoded, folds, values, -⟩ := decodeOwned_fold distinct fun key listed =>
        (same key).trans (merged key (ownedMetadataKey_of_mem listed))
      exact ⟨decoded, bind_eq_ok.mpr ⟨loaded, loads, folds⟩, values⟩
    | none =>
      obtain ⟨decoded, folds, values, -⟩ := decodeOwned_fold distinct
        fun key listed => merged.keep returns (fun _ _ => mem_ownedKeys_of_evidence) clean listed
      exact ⟨decoded, folds, values⟩
  obtain ⟨decoded, reads, values⟩ := read
  refine ⟨identity, decoded, selects, rfl, ?_, ?_, ?_, reads, values⟩
  · exact (congrArg Prod.fst location).trans thread
  · exact congrArg (·.2.2) location
  · intro parent kept
    exact (congrArg Prod.fst (returns.parent _ _ kept)).trans thread

/-! ## Reading back -/

theorem checkIdentity_ok (checked : checkIdentity upstream metadata identity = .ok ()) :
    (metadata.get? threadIdentityKey).bind upstream.text? = some (identityJson identity) := by
  unfold checkIdentity at checked
  split at checked
  · cases checked
  · next proof said =>
      split at checked
      · cases checked
      · split at checked
        · next same => rw [said, same.2, same.1]
        · cases checked

variable {saved tuple : CheckpointTuple ν κ} {found : RunnableConfig ν}

/-- A checkpoint that a view accepts carries the evidence of the identity it was asked for. -/
theorem logical_ok (accepts : logical upstream saved identity = .ok tuple) :
    saved.config.checkpointId = some saved.checkpoint.id ∧ tuple.checkpoint = saved.checkpoint ∧
      readMetadata upstream saved.metadata = .ok tuple.metadata ∧
      (tuple.metadata.get? threadIdentityKey).bind upstream.text? =
        some (identityJson identity) ∧
      logicalConfig upstream saved.config identity = .ok tuple.config ∧
      saved.parentConfig.mapM (logicalConfig upstream · identity) = .ok tuple.parentConfig := by
  unfold logical at accepts
  split at accepts
  · cases accepts
  · next coordinates =>
      obtain ⟨metadata, reads, accepts⟩ := bind_eq_ok.mp accepts
      obtain ⟨⟨⟩, checked, accepts⟩ := bind_eq_ok.mp accepts
      obtain ⟨lineage, -, accepts⟩ := bind_eq_ok.mp accepts
      obtain ⟨-, -, accepts⟩ := bind_eq_ok.mp accepts
      obtain ⟨config, translates, accepts⟩ := bind_eq_ok.mp accepts
      obtain ⟨parentConfig, parents, accepts⟩ := bind_eq_ok.mp accepts
      obtain rfl := Except.ok.inj accepts
      exact ⟨not_not.mp coordinates, rfl, reads, checkIdentity_ok checked, translates, parents⟩

theorem logicalConfig_ok (translates : logicalConfig upstream located identity = .ok found) :
    located.threadId = some (physicalThread upstream identity) ∧
      found.threadId = some identity.threadId ∧ found.lineage = none ∧
      found.checkpointId = located.checkpointId ∧
      located.checkpointNs.getD "" = if upstream.redis.isSome then
        b64encode (found.checkpointNs.getD "") else found.checkpointNs.getD "" := by
  unfold logicalConfig at translates
  split at translates
  · cases translates
  · next thread =>
      dsimp only at translates
      split at translates
      · next redis =>
          obtain ⟨scope, decodes, translates⟩ := bind_eq_ok.mp translates
          obtain rfl := Except.ok.inj translates
          refine ⟨not_not.mp thread, rfl, rfl, rfl, ?_⟩
          rw [if_pos redis]
          cases decoded : b64decode (located.checkpointNs.getD "") with
          | none =>
            rw [decodeGraphScope, decoded] at decodes
            cases decodes
          | some text =>
            rw [decodeGraphScope, decoded] at decodes
            obtain rfl := Except.ok.inj decodes
            exact (b64encode_of_b64decode decoded).symm
      · next plain =>
          obtain rfl := Except.ok.inj translates
          refine ⟨not_not.mp thread, rfl, rfl, rfl, ?_⟩
          rw [if_neg plain]

/-- What a view hands out leads back to where it lies. -/
theorem physical_logicalConfig (selects : view.identity config = .ok identity)
    (translates : logicalConfig upstream located identity = .ok found) :
    ∃ back, view.physical upstream found = .ok back ∧ back.location = located.location := by
  obtain ⟨thread, named, unmarked, checkpoint, scope⟩ := logicalConfig_ok translates
  have selected : view.identity found = .ok identity := by
    obtain ⟨asked, space, -⟩ := identity_ok selects
    unfold NamespaceCheckpointer.identity at selects ⊢
    rw [asked] at selects
    rw [named, unmarked]
    obtain ⟨other, valid, -⟩ := bind_eq_ok.mp selects
    have same : other = identity := by
      unfold ThreadIdentity.validate at valid
      split at valid
      · obtain rfl := Except.ok.inj valid
        cases identity
        exact congrArg₂ _ space.symm rfl
      · cases valid
    exact bind_eq_ok.mpr ⟨other, valid, congrArg _ same⟩
  refine ⟨_, bind_eq_ok.mpr ⟨identity, selected, rfl⟩, ?_⟩
  simp only [RunnableConfig.location, thread, checkpoint, scope]
  split <;> rfl

/-! ## Runs -/

variable (upstream) in
/-- A checkpoint that carries no evidence of the thread that it lies in. -/
def Unproven (row : CheckpointTuple ν κ) : Prop :=
  ∀ identity metadata, row.config.threadId = some (physicalThread upstream identity) →
    readMetadata upstream row.metadata = .ok metadata →
      (metadata.get? threadIdentityKey).bind upstream.text? ≠ some (identityJson identity)

variable (upstream) in
/-- A checkpoint that one of the operations put through a view. -/
def Written (operations : List (SaverOperation ν κ)) (row : CheckpointTuple ν κ) : Prop :=
  ∃ view config checkpoint metadata, .aput view config checkpoint metadata ∈ operations ∧
    view.putRow upstream config checkpoint metadata = .ok row

variable (upstream) in
/-- Every checkpoint of a saver was put through a view, or proves nothing. -/
def Sourced (operations : List (SaverOperation ν κ)) (saver : SaverState ν κ) : Prop :=
  ∀ key row, saver.rows.get? key = some row →
    Written upstream operations row ∨ Unproven upstream row

variable {operations : List (SaverOperation ν κ)} {saver : SaverState ν κ}

theorem Sourced.insert (sourced : Sourced upstream operations saver)
    (new : Written upstream operations row ∨ Unproven upstream row) :
    Sourced upstream operations { saver with rows := saver.rows.insert (rowKey row) row } := by
  intro key other stored
  simp only [Dict.get?_insert] at stored
  split at stored
  · obtain rfl := Option.some.inj stored
    exact new
  · exact sourced key other stored

@[simp] theorem rows_putWrites (key : String × String × String) (owner : String)
    (writes : List (String × ν)) : (saver.putWrites key owner writes).rows = saver.rows := rfl

theorem rows_aputWrites (groups : List (String × List (String × ν))) :
    (view.aputWrites upstream saver config groups).rows = saver.rows := by
  unfold aputWrites
  split
  · rfl
  · dsimp only
    induction groups generalizing saver with
    | nil => rfl
    | cons group groups ih => rw [List.foldl_cons, ih, rows_putWrites]

theorem Sourced.applyOperation (sourced : Sourced upstream operations saver)
    {operation : SaverOperation ν κ} (listed : operation ∈ operations)
    (raw : ∀ row, operation = .rawPut row → Unproven upstream row) :
    Sourced upstream operations (applyOperation upstream saver operation) := by
  cases operation with
  | aput view config checkpoint metadata =>
    rw [Checkpoint.applyOperation, aput]
    split
    · exact sourced
    · next row puts => exact sourced.insert (.inl ⟨view, config, checkpoint, metadata, listed, puts⟩)
  | aputWrites view config groups =>
    intro key row stored
    rw [Checkpoint.applyOperation, rows_aputWrites] at stored
    exact sourced key row stored
  | adeleteThread view threadId =>
    rw [Checkpoint.applyOperation, adeleteThread]
    split
    · exact sourced
    · intro key row stored
      simp only [Dict.get?_filter, Option.filter_eq_some_iff] at stored
      exact sourced key row stored.1
  | rawPut row => exact sourced.insert (.inr (raw row rfl))
  | rawWrites key owner writes => exact sourced

theorem sourced_run (raw : ∀ row, .rawPut row ∈ operations → Unproven upstream row) :
    Sourced upstream operations (Machine.run (applyOperation upstream) {} operations) := by
  have guarded : Machine.Guarded (Checkpoint.applyOperation upstream)
      (fun _ operation => operation ∈ operations) {} operations :=
    Machine.guarded_of_forall (fun _ listed => listed) _
  refine Machine.guarded_invariant (fun saver operation sourced listed => ?_) guarded ?_
  · exact Sourced.applyOperation sourced listed fun row same => raw row (same ▸ listed)
  · intro key row stored
    cases stored

/-! ## What a view returns -/

variable (upstream) in
/-- A checkpoint that a view may return: put through a view of its namespace for its thread, with the
evidence of that call, and with coordinates that lead back to where it and its parent lie. -/
structure IsReturned (operations : List (SaverOperation ν κ)) (saver : SaverState ν κ)
    (view : NamespaceCheckpointer) (identity : ThreadIdentity) (tuple : CheckpointTuple ν κ) :
    Prop where
  written : ∃ writer config metadata, .aput writer config tuple.checkpoint metadata ∈ operations ∧
    writer.namespace = view.namespace ∧ config.threadId = some identity.threadId ∧
    ∀ key ∈ ownedKeys,
      tuple.metadata.get? key = (evidenceOf config identity key).map upstream.text
  located : ∃ key row, saver.rows.get? key = some row ∧
    (∃ back, view.physical upstream tuple.config = .ok back ∧
      back.location = row.config.location) ∧
    ∀ parent, tuple.parentConfig = some parent →
      ∃ origin back, row.parentConfig = some origin ∧
        view.physical upstream parent = .ok back ∧ back.location = origin.location

theorem isReturned_of_logical (returns : upstream.Returns)
    (sourced : Sourced upstream operations saver) {key : String × String × String}
    (stored : saver.rows.get? key = some row) (selects : view.identity config = .ok identity)
    (accepts : logical upstream (saver.load (key, row)) identity = .ok tuple) :
    IsReturned upstream operations saver view identity tuple := by
  obtain ⟨-, same, reads, proof, translates, parents⟩ := logical_ok accepts
  obtain ⟨asked, space, -⟩ := identity_ok selects
  constructor
  · obtain ⟨writer, used, checkpoint, metadata, listed, puts⟩ | unproven := sourced key row stored
    · obtain ⟨other, decoded, selected, put, -, -, -, read, values⟩ := putRow_ok returns puts
      obtain rfl := Except.ok.inj (read.symm.trans reads)
      rw [values threadIdentityKey List.mem_cons_self, evidenceOf, if_pos rfl, Option.map_some,
        Option.bind_some, upstream.text?_text] at proof
      obtain rfl := identityJson_injective (Option.some.inj proof)
      obtain ⟨named, written, -⟩ := identity_ok selected
      have put : tuple.checkpoint = checkpoint := Eq.trans same put
      rw [put]
      exact ⟨writer, used, metadata, listed, written.symm.trans space, named, values⟩
    · exact absurd proof (unproven identity _ (logicalConfig_ok translates).1 reads)
  · refine ⟨key, row, stored, physical_logicalConfig selects translates, ?_⟩
    intro parent present
    have parents : row.parentConfig.mapM (logicalConfig upstream · identity) =
      .ok tuple.parentConfig := parents
    cases kept : row.parentConfig with
    | none =>
      rw [kept, present] at parents
      cases parents
    | some origin =>
      rw [kept, present, Option.mapM_some] at parents
      obtain ⟨found, translates, parents⟩ := bind_eq_ok.mp parents
      obtain rfl := Option.some.inj (Except.ok.inj parents)
      obtain ⟨back, leads, lies⟩ := physical_logicalConfig selects translates
      exact ⟨origin, back, rfl, leads, lies⟩

theorem savedTuple_mem (returns : upstream.Returns)
    (loads : savedTuple upstream saver config = some saved) :
    ∃ key row, saver.rows.get? key = some row ∧ saved = saver.load (key, row) := by
  have latest {rows : List ((String × String × String) × CheckpointTuple ν κ)}
      (listed : ∀ row ∈ rows, row ∈ saver.rows.entries)
      (loads : upstream.latest (rows.map saver.load) = some saved) :
      ∃ key row, saver.rows.get? key = some row ∧ saved = saver.load (key, row) := by
    obtain ⟨⟨key, row⟩, member, rfl⟩ := List.mem_map.mp (returns.latest _ _ loads)
    exact ⟨key, row, Dict.get?_eq_some_iff.mpr (listed _ member), rfl⟩
  unfold savedTuple at loads
  dsimp only at loads
  split at loads
  · exact latest (fun _ member => List.mem_of_mem_filter member) loads
  · exact latest (fun _ member => List.mem_of_mem_filter member) loads
  · obtain ⟨row, stored, rfl⟩ := Option.map_eq_some_iff.mp loads
    exact ⟨_, row, stored, rfl⟩

theorem isReturned_of_agetTuple (returns : upstream.Returns)
    (sourced : Sourced upstream operations saver)
    (reads : view.agetTuple upstream saver config = .ok (some tuple)) :
    ∃ identity, view.identity config = .ok identity ∧
      IsReturned upstream operations saver view identity tuple := by
  obtain ⟨identity, selects, reads⟩ := bind_eq_ok.mp reads
  obtain ⟨located, -, reads⟩ := bind_eq_ok.mp reads
  split at reads
  · cases reads
  · next saved loads =>
      obtain ⟨found, accepts, reads⟩ := bind_eq_ok.mp reads
      split at reads
      · cases reads
      · obtain rfl := Option.some.inj (Except.ok.inj reads)
        obtain ⟨key, row, stored, rfl⟩ := savedTuple_mem returns loads
        exact ⟨identity, selects, isReturned_of_logical returns sourced stored selects accepts⟩

/-! ## Listings -/

variable (upstream) in
/-- The history of a thread up to the first checkpoint that is not accepted. -/
def verifiedHistory (identity : ThreadIdentity) :
    List (CheckpointTuple ν κ) → List (CheckpointTuple ν κ)
  | [] => []
  | saved :: rest =>
    match logical upstream saved identity with
    | .ok row => row :: verifiedHistory identity rest
    | .error _ => []

theorem mem_verifiedHistory {rows : List (CheckpointTuple ν κ)}
    (listed : tuple ∈ verifiedHistory upstream identity rows) :
    ∃ saved ∈ rows, logical upstream saved identity = .ok tuple := by
  induction rows with
  | nil => cases listed
  | cons saved rows ih =>
    rw [verifiedHistory] at listed
    split at listed
    · next row accepts =>
        obtain rfl | listed := List.mem_cons.mp listed
        · exact ⟨saved, List.mem_cons_self, accepts⟩
        · obtain ⟨other, member, accepts⟩ := ih listed
          exact ⟨other, .tail _ member, accepts⟩
    · cases listed

variable [DecidableEq ν] {selection : Selection ν} {limit : Option Nat}
  {rows : List (CheckpointTuple ν κ)}

theorem yields_cons (limited : limit ≠ some 0) :
    yields upstream identity selection limit (saved :: rows) =
      match logical upstream saved identity with
      | .error error => ([], .error error)
      | .ok row =>
        if selection.matches upstream row then
          (row :: (yields upstream identity selection (limit.map (· - 1)) rows).1,
            (yields upstream identity selection (limit.map (· - 1)) rows).2)
        else yields upstream identity selection limit rows := by
  cases limit with
  | none => rfl
  | some limit =>
    cases limit with
    | zero => exact absurd rfl limited
    | succ limit => rfl

/-- A listing is the selected part of the verified history, cut at the limit. -/
theorem yields_fst : (yields upstream identity selection limit rows).1 =
    limit.elim id List.take ((verifiedHistory upstream identity rows).filter
      (selection.matches upstream)) := by
  induction rows generalizing limit with
  | nil =>
    cases limit with
    | none => rfl
    | some limit => cases limit <;> rfl
  | cons saved rows ih =>
    by_cases limited : limit = some 0
    · subst limited
      rfl
    · rw [yields_cons limited, verifiedHistory]
      cases logical upstream saved identity with
      | error error =>
        cases limit with
        | none => rfl
        | some limit => exact List.take_nil.symm
      | ok row =>
        dsimp only
        by_cases selected : selection.matches upstream row
        · rw [if_pos selected, List.filter_cons_of_pos selected, ih]
          cases limit with
          | none => rfl
          | some limit =>
            cases limit with
            | zero => exact absurd rfl limited
            | succ limit => rfl
        · rw [if_neg selected, List.filter_cons_of_neg selected, ih]

/-- A history that is accepted throughout is listed without an error. -/
theorem yields_snd
    (accepted : ∀ saved ∈ rows, ∃ row, logical upstream saved identity = .ok row) :
    (yields upstream identity selection limit rows).2 = .ok () := by
  induction rows generalizing limit with
  | nil =>
    cases limit with
    | none => rfl
    | some limit => cases limit <;> rfl
  | cons saved rows ih =>
    have rest := fun other member => accepted other (List.mem_cons_of_mem saved member)
    by_cases limited : limit = some 0
    · subst limited
      rfl
    · obtain ⟨row, accepts⟩ := accepted saved List.mem_cons_self
      rw [yields_cons limited, accepts]
      dsimp only
      split
      · exact ih rest
      · exact ih rest

omit [DecidableEq ν] in
theorem threadRows_mem (returns : upstream.Returns) {thread : String}
    (listed : saved ∈ threadRows upstream saver thread) :
    ∃ key row, saver.rows.get? key = some row ∧ saved = saver.load (key, row) := by
  obtain ⟨⟨key, row⟩, member, rfl⟩ := List.mem_map.mp ((returns.history _).mem_iff.mp listed)
  exact ⟨key, row, Dict.get?_eq_some_iff.mpr (List.mem_of_mem_filter member), rfl⟩

/-- What a request of a listing selects, if the request is valid. -/
def selectionOf (config : RunnableConfig ν) (before : Option (RunnableConfig ν))
    (filter : List (String × ν)) : Selection ν where
  checkpointNs := config.checkpointNs
  checkpointId := config.checkpointId
  before := before.bind (·.checkpointId)
  filter := filter

theorem alist_of_valid {before : Option (RunnableConfig ν)} {filter : List (String × ν)}
    {limit : Option Int} (selects : view.identity config = .ok identity)
    (nonneg : ¬limit.any (· < 0)) (positive : limit ≠ some 0)
    (cursors : ∀ cursor, before = some cursor →
      ¬cursor.threadId.any (· ≠ identity.threadId) ∧ cursor.checkpointId.isSome) :
    view.alist upstream saver config before filter limit =
      yields upstream identity (selectionOf config before filter) (limit.map Int.toNat)
        (threadRows upstream saver (physicalThread upstream identity)) := by
  unfold alist
  rw [if_neg nonneg, selects]
  dsimp only
  rw [if_neg positive]
  cases before with
  | none => rfl
  | some cursor =>
    obtain ⟨own, named⟩ := cursors cursor rfl
    obtain ⟨checkpoint, named⟩ := Option.isSome_iff_exists.mp named
    dsimp only
    rw [if_neg own, named]
    simp only [selectionOf, Option.bind_some, named]

/-- A valid request yields from the history of its thread; any other yields nothing. -/
theorem alist_cases (before : Option (RunnableConfig ν)) (filter : List (String × ν))
    (limit : Option Int) :
    (∃ identity, view.identity config = .ok identity ∧ ¬limit.any (· < 0) ∧
        (∀ cursor, before = some cursor →
          ¬cursor.threadId.any (· ≠ identity.threadId) ∧ cursor.checkpointId.isSome) ∧
        view.alist upstream saver config before filter limit =
          yields upstream identity (selectionOf config before filter) (limit.map Int.toNat)
            (threadRows upstream saver (physicalThread upstream identity))) ∨
      (view.alist upstream saver config before filter limit).1 = [] := by
  unfold alist
  split
  · exact .inr rfl
  · next nonneg =>
      cases selects : view.identity config with
      | error error => exact .inr rfl
      | ok identity =>
        dsimp only
        split
        · exact .inr rfl
        · cases before with
          | none =>
            exact .inl ⟨identity, rfl, nonneg, fun _ same => (nomatch same), rfl⟩
          | some before =>
            dsimp only
            split
            · exact .inr rfl
            · next own =>
                cases checkpoint : before.checkpointId with
                | none => exact .inr rfl
                | some cursor =>
                  refine .inl ⟨identity, rfl, nonneg, ?_, ?_⟩
                  · rintro other same
                    obtain rfl := Option.some.inj same
                    exact ⟨own, by rw [checkpoint]; rfl⟩
                  · simp only [selectionOf, Option.bind_some, checkpoint]

/-- Everything that a listing yields is a checkpoint that the view may return. -/
theorem isReturned_of_alist (returns : upstream.Returns)
    (sourced : Sourced upstream operations saver) {before : Option (RunnableConfig ν)}
    {filter : List (String × ν)} {limit : Option Int}
    (yielded : tuple ∈ (view.alist upstream saver config before filter limit).1) :
    ∃ identity, view.identity config = .ok identity ∧
      IsReturned upstream operations saver view identity tuple := by
  obtain ⟨identity, selects, -, -, same⟩ | empty :=
    @alist_cases _ _ upstream view config saver _ before filter limit
  · rw [same, yields_fst] at yielded
    have listed : tuple ∈ verifiedHistory upstream identity
        (threadRows upstream saver (physicalThread upstream identity)) := by
      cases limit with
      | none => exact List.mem_of_mem_filter yielded
      | some limit => exact List.mem_of_mem_filter (List.mem_of_mem_take yielded)
    obtain ⟨saved, member, accepts⟩ := mem_verifiedHistory listed
    obtain ⟨key, row, stored, rfl⟩ := threadRows_mem returns member
    exact ⟨identity, selects, isReturned_of_logical returns sourced stored selects accepts⟩
  · rw [empty] at yielded
    cases yielded

omit [DecidableEq ν]

theorem aput_ok (puts : (view.aput upstream saver config checkpoint metadata).2 = .ok found) :
    ∃ row back, view.putRow upstream config checkpoint metadata = .ok row ∧
      view.physical upstream found = .ok back ∧ back.location = row.config.location := by
  unfold aput at puts
  split at puts
  · cases puts
  · next row kept =>
      obtain ⟨identity, selects, translates⟩ := bind_eq_ok.mp puts
      obtain ⟨back, leads, lies⟩ := physical_logicalConfig selects translates
      exact ⟨row, back, kept, leads, lies⟩

theorem adeleteThread_own {threadId : String}
    (valid : ThreadIdentity.validate { «namespace» := view.namespace, threadId } = .ok identity)
    {key : String × String × String} (own : key.1 = physicalThread upstream identity) :
    (view.adeleteThread upstream saver threadId).rows.get? key = none ∧
      (view.adeleteThread upstream saver threadId).writes.get? key = none := by
  unfold adeleteThread
  rw [valid]
  simp [Dict.get?_filter, own]

theorem adeleteThread_other {threadId : String}
    (valid : ThreadIdentity.validate { «namespace» := view.namespace, threadId } = .ok identity)
    {key : String × String × String} (other : key.1 ≠ physicalThread upstream identity) :
    (view.adeleteThread upstream saver threadId).rows.get? key = saver.rows.get? key ∧
      (view.adeleteThread upstream saver threadId).writes.get? key = saver.writes.get? key := by
  have kept {α : Type} (dict : Dict (String × String × String) α) :
      (dict.filter fun key _ => key.1 ≠ physicalThread upstream identity).get? key =
        dict.get? key := by
    rw [Dict.get?_filter]
    cases dict.get? key <;> simp [other]
  unfold adeleteThread
  rw [valid]
  exact ⟨kept saver.rows, kept saver.writes⟩

variable (upstream) in
/-- The hash tells two threads apart. -/
def HashesApart (identity other : ThreadIdentity) : Prop :=
  physicalThread upstream identity = physicalThread upstream other →
    canonicalThread upstream identity = canonicalThread upstream other

theorem physicalThread_ne {identity other : ThreadIdentity} (different : identity ≠ other)
    (apart : HashesApart upstream identity other) :
    physicalThread upstream identity ≠ physicalThread upstream other :=
  fun same => different (canonicalThread_injective (apart same))

variable [DecidableEq ν]

/-- After any calls through views and any writes around them that prove nothing, a view returns what
was put through a view of its namespace for the same thread, with the evidence of that call; what it
hands out leads back to where it lies; a deletion removes one thread; and a listing yields the
selected part of the verified history up to its limit, which is the whole history unless a
checkpoint without evidence ends it. -/
theorem namespaces_isolated (returns : upstream.Returns)
    (raw : ∀ row, .rawPut row ∈ operations → Unproven upstream row) :
    let saver := Machine.run (applyOperation upstream) {} operations
    (∀ (view : NamespaceCheckpointer) config tuple,
      view.agetTuple upstream saver config = .ok (some tuple) →
        ∃ identity, view.identity config = .ok identity ∧
          IsReturned upstream operations saver view identity tuple) ∧
    (∀ (view : NamespaceCheckpointer) config before filter limit,
      ∀ tuple ∈ (view.alist upstream saver config before filter limit).1,
        ∃ identity, view.identity config = .ok identity ∧
          IsReturned upstream operations saver view identity tuple) ∧
    (∀ (view : NamespaceCheckpointer) config checkpoint metadata found,
      (view.aput upstream saver config checkpoint metadata).2 = .ok found →
        ∃ row back, view.putRow upstream config checkpoint metadata = .ok row ∧
          view.physical upstream found = .ok back ∧ back.location = row.config.location) ∧
    (∀ (view : NamespaceCheckpointer) threadId identity,
      ThreadIdentity.validate { «namespace» := view.namespace, threadId } = .ok identity →
        (∀ key, key.1 = physicalThread upstream identity →
          (view.adeleteThread upstream saver threadId).rows.get? key = none) ∧
        ∀ other, other ≠ identity → HashesApart upstream other identity →
          ∀ key, key.1 = physicalThread upstream other →
            (view.adeleteThread upstream saver threadId).rows.get? key = saver.rows.get? key ∧
            (view.adeleteThread upstream saver threadId).writes.get? key =
              saver.writes.get? key) ∧
    (∀ (view : NamespaceCheckpointer) config before filter limit identity,
      view.identity config = .ok identity → ¬limit.any (· < 0) → limit ≠ some 0 →
      (∀ cursor, before = some cursor →
        ¬cursor.threadId.any (· ≠ identity.threadId) ∧ cursor.checkpointId.isSome) →
      let history := threadRows upstream saver (physicalThread upstream identity)
      history.Perm ((saver.rows.entries.filter fun row =>
        row.1.1 = physicalThread upstream identity).map saver.load) ∧
      (view.alist upstream saver config before filter limit).1 =
        (limit.map Int.toNat).elim id List.take
          ((verifiedHistory upstream identity history).filter
            ((selectionOf config before filter).matches upstream)) ∧
      ((∀ saved ∈ history, ∃ row, logical upstream saved identity = .ok row) →
        (view.alist upstream saver config before filter limit).2 = .ok ())) := by
  intro saver
  have sourced : Sourced upstream operations saver := sourced_run raw
  refine ⟨?_, ?_, ?_, ?_, ?_⟩
  · intro view config tuple reads
    exact isReturned_of_agetTuple returns sourced reads
  · intro view config before filter limit tuple yielded
    exact isReturned_of_alist returns sourced yielded
  · intro view config checkpoint metadata found puts
    exact aput_ok puts
  · intro view threadId identity valid
    refine ⟨fun key own => (adeleteThread_own valid own).1, ?_⟩
    intro other different apart key own
    refine adeleteThread_other valid ?_
    rw [own]
    exact physicalThread_ne different apart
  · intro view config before filter limit identity selects nonneg positive cursors history
    refine ⟨returns.history _, ?_, ?_⟩
    · rw [alist_of_valid selects nonneg positive cursors]
      exact yields_fst
    · rw [alist_of_valid selects nonneg positive cursors]
      exact fun accepted => yields_snd accepted

/-- A saver in memory that adds nothing to what it is given, newest checkpoint first. -/
def memorySaver (thread : ThreadIdentity) : Upstream String Unit where
  text value := value
  text? value := some value
  text?_text _ := rfl
  null := ""
  readThread proof := if proof = identityJson thread then some thread else none
  readLineage _ := none
  readIntent _ := none
  getCheckpointMetadata _ metadata := metadata
  redis := none
  keepConfig config checkpoint :=
    { threadId := config.threadId, checkpointNs := some (config.checkpointNs.getD "")
      checkpointId := some checkpoint.id }
  keepMetadata _ metadata := metadata
  keepParent config := config.checkpointId.map fun checkpointId =>
    { threadId := config.threadId, checkpointNs := config.checkpointNs
      checkpointId := some checkpointId }
  history rows := rows.insertionSort fun left right => right.checkpoint.id ≤ left.checkpoint.id
  latest rows := (rows.insertionSort fun left right =>
    right.checkpoint.id ≤ left.checkpoint.id).head?

theorem memorySaver_returns (thread : ThreadIdentity) : (memorySaver thread).Returns where
  mergeText _ _ _ _ stored _ := stored
  mergeKeys _ _ _ listed := .inl listed
  location _ _ := rfl
  parent config parent kept := by
    obtain ⟨checkpointId, named, rfl⟩ := Option.map_eq_some_iff.mp kept
    simp [RunnableConfig.location, named]
  keepText _ _ _ _ stored _ _ _ := stored
  keepKeys _ metadata key listed := ⟨key, List.mem_append_left _ listed, .inl rfl⟩
  history rows := List.perm_insertionSort _ rows
  latest rows row first := (List.perm_insertionSort _ rows).mem_iff.mp (List.mem_of_mem_head? first)

def sampleView : NamespaceCheckpointer where
  «namespace» := "ns"
  valid := by decide

def sampleThread : ThreadIdentity := { «namespace» := "ns", threadId := "t" }

/-- One checkpoint through a view, and a newer one around it. -/
def sampleOperations : List (SaverOperation String Unit) :=
  [.aput sampleView { threadId := some "t" } { id := "1", channels := () } .empty,
   .rawPut {
    config :=
      { threadId := some (physicalThread (memorySaver sampleThread) sampleThread)
        checkpointNs := some "", checkpointId := some "2" }
    checkpoint := { id := "2", channels := () }, metadata := .empty }]

/-- The saver after the sample operations. -/
def sampleSaver : SaverState String Unit :=
  Machine.run (applyOperation (memorySaver sampleThread)) {} sampleOperations

theorem namespaces_isolated_sample :
    ∃ tuple identity, sampleView.agetTuple (memorySaver sampleThread) sampleSaver
        { threadId := some "t", checkpointId := some "1" } = .ok (some tuple) ∧
      IsReturned (memorySaver sampleThread) sampleOperations sampleSaver sampleView identity
        tuple := by
  have raw : ∀ row, .rawPut row ∈ sampleOperations → Unproven (memorySaver sampleThread) row := by
    intro row listed identity metadata _ reads proof
    obtain listed | listed := List.mem_cons.mp listed
    · cases listed
    · obtain rfl := SaverOperation.rawPut.inj (List.mem_singleton.mp listed)
      obtain rfl := Except.ok.inj reads
      cases proof
  have found : ((sampleView.agetTuple (memorySaver sampleThread) sampleSaver
      { threadId := some "t", checkpointId := some "1" }).toOption.bind id).isSome := by
    decide +kernel
  obtain ⟨tuple, found⟩ := Option.isSome_iff_exists.mp found
  obtain ⟨outcome, read, rfl⟩ := Option.bind_eq_some_iff.mp found
  have reads : sampleView.agetTuple (memorySaver sampleThread) sampleSaver
      { threadId := some "t", checkpointId := some "1" } = .ok (some tuple) := by
    unfold Except.toOption at read
    split at read
    · next ok =>
        rw [ok, Option.some.inj read]
    · cases read
  obtain ⟨identity, -, returned⟩ :=
    (namespaces_isolated (memorySaver_returns sampleThread) raw).1 _ _ _ reads
  exact ⟨tuple, identity, reads, returned⟩

/-- A checkpoint without evidence ends a listing before a checkpoint that the view returns. -/
theorem raw_checkpoint_ends_listing :
    ((sampleView.agetTuple (memorySaver sampleThread) sampleSaver
      { threadId := some "t", checkpointId := some "1" }).toOption.bind id).isSome ∧
    (sampleView.alist (memorySaver sampleThread) sampleSaver { threadId := some "t" } none []
      (some 1)).1.isEmpty ∧
    (sampleView.alist (memorySaver sampleThread) sampleSaver { threadId := some "t" } none []
      (some 1)).2 = .error (.lifecycle "checkpoint lacks canonical thread identity evidence") := by
  decide +kernel

end NamespaceCheckpointer

end Tinkerfin.Checkpoint
