import Tinkerfin.Lib.Json

/-!
# Reading JSON text back

A text without numbers shows where it ends, so it can be read off the front of whatever follows it.
Equal texts therefore come from equal values.
-/

namespace Json

/-! ## Strings -/

/-- The value of a lowercase hexadecimal digit. -/
def hexValue (char : Char) : Nat :=
  if char.toNat < 58 then char.toNat - 48 else char.toNat - 87

/-- Read one character inside a JSON string; a quote ends the string. -/
def unescape : List Char → Option (Char × List Char)
  | '\\' :: 'u' :: _ :: _ :: high :: low :: rest =>
    some (Char.ofNat (16 * hexValue high + hexValue low), rest)
  | '\\' :: 'n' :: rest => some ('\n', rest)
  | '\\' :: 'r' :: rest => some ('\r', rest)
  | '\\' :: 't' :: rest => some ('\t', rest)
  | '\\' :: 'f' :: rest => some (Char.ofNat 12, rest)
  | '\\' :: 'b' :: rest => some (Char.ofNat 8, rest)
  | '\\' :: char :: rest => some (char, rest)
  | '"' :: _ => none
  | char :: rest => some (char, rest)
  | [] => none

theorem hexValue_pair : ∀ value < 32,
    16 * hexValue (Sha256.hexDigit (value / 16)) + hexValue (Sha256.hexDigit (value % 16)) =
      value := by
  decide

theorem unescape_escape (char : Char) (rest : List Char) :
    unescape (escape char ++ rest) = some (char, rest) := by
  unfold escape
  split_ifs with quoted slash newline carriage tab feed back control
  · rw [quoted]; rfl
  · rw [slash]; rfl
  · rw [newline]; rfl
  · rw [carriage]; rfl
  · rw [tab]; rfl
  · rw [← char.ofNat_toNat, feed]; rfl
  · rw [← char.ofNat_toNat, back]; rfl
  · change some (Char.ofNat _, rest) = _
    rw [hexValue_pair char.toNat control, Char.ofNat_toNat]
  · simp only [List.singleton_append]
    unfold unescape
    split <;> simp_all

/-- Characters that a reader reads back one by one can be read up to a quote. -/
theorem flatMap_inj_of_read {write : Char → List Char}
    {read : List Char → Option (Char × List Char)}
    (reads : ∀ char rest, read (write char ++ rest) = some (char, rest))
    (ends : ∀ rest, read ('"' :: rest) = none) {left right leftRest rightRest : List Char}
    (same : left.flatMap write ++ '"' :: leftRest = right.flatMap write ++ '"' :: rightRest) :
    left = right ∧ leftRest = rightRest := by
  induction left generalizing right with
  | nil =>
    cases right with
    | nil => simpa using same
    | cons char right =>
      have found := congrArg read same
      simp only [List.flatMap_nil, List.nil_append, List.flatMap_cons, List.append_assoc, reads,
        ends] at found
      cases found
  | cons char left ih =>
    have found := congrArg read same
    simp only [List.flatMap_cons, List.append_assoc, reads] at found
    cases right with
    | nil =>
      simp only [List.flatMap_nil, List.nil_append, ends] at found
      cases found
    | cons other right =>
      simp only [List.flatMap_cons, List.append_assoc, reads, Option.some.injEq,
        Prod.mk.injEq] at found
      obtain ⟨rfl, rest⟩ := found
      obtain ⟨rfl, follows⟩ := ih rest
      exact ⟨rfl, follows⟩

theorem escapes_inj {left right leftRest rightRest : List Char}
    (same : left.flatMap escape ++ '"' :: leftRest = right.flatMap escape ++ '"' :: rightRest) :
    left = right ∧ leftRest = rightRest :=
  flatMap_inj_of_read unescape_escape (fun _ => rfl) same

theorem toList_quote (text : String) :
    (quote text).toList = '"' :: (text.toList.flatMap escape ++ ['"']) := by
  simp [quote]

theorem quote_inj {left right : String} {leftRest rightRest : List Char}
    (same : (quote left).toList ++ leftRest = (quote right).toList ++ rightRest) :
    left = right ∧ leftRest = rightRest := by
  simp only [toList_quote, List.cons_append, List.append_assoc, List.nil_append, List.cons.injEq,
    true_and] at same
  obtain ⟨chars, rest⟩ := escapes_inj same
  exact ⟨String.toList_injective chars, rest⟩

/-! ## Values without numbers -/

/-- A value built from null, strings and arrays. -/
inductive Plain : Json → Prop
  | null : Plain .null
  | string (text : String) : Plain (.string text)
  | array {items : List Json} (each : ∀ item ∈ items, Plain item) : Plain (.array items)

theorem dumpsItems_eq (items : List Json) : dumpsItems items = items.map dumps := by
  induction items with
  | nil => rfl
  | cons item items ih => simp only [dumpsItems, ih, List.map_cons]

theorem dumpsMembers_eq (members : List (String × Json)) :
    dumpsMembers members = members.map fun member => (member.1, dumps member.2) := by
  induction members with
  | nil => rfl
  | cons member members ih => simp only [dumpsMembers, ih, List.map_cons]

/-- What follows an item of a sequence up to its closing bracket. -/
def listTail (close : Char) : List (List Char) → List Char
  | [] => [close]
  | item :: items => ',' :: item ++ listTail close items

theorem intercalate_close (close : Char) (item : List Char) (items : List (List Char)) :
    [','].intercalate (item :: items) ++ [close] = item ++ listTail close items := by
  induction items generalizing item with
  | nil => simp [listTail]
  | cons next items ih => simp [List.intercalate_cons_cons, listTail, ih]

/-- An array after its opening bracket. -/
def arrayText : List Json → List Char
  | [] => [']']
  | item :: items => item.dumps.toList ++ listTail ']' (items.map fun item => item.dumps.toList)

theorem toList_dumps_array (items : List Json) :
    (dumps (.array items)).toList = '[' :: arrayText items := by
  cases items with
  | nil => rfl
  | cons item items =>
    rw [dumps, String.toList_append, String.toList_append, String.toList_intercalate,
      dumpsItems_eq, List.map_map, List.append_assoc]
    exact congrArg ('[' :: ·) (intercalate_close _ _ _)

/-- The texts of two rests of an array. -/
theorem listTail_inj {left right : List Json} {leftRest rightRest : List Char}
    (each : ∀ item ∈ left, ∀ other leftRest rightRest,
      Plain other → item.dumps.toList ++ leftRest = other.dumps.toList ++ rightRest →
        item = other ∧ leftRest = rightRest)
    (plain : ∀ item ∈ right, Plain item)
    (same : listTail ']' (left.map fun item => item.dumps.toList) ++ leftRest =
      listTail ']' (right.map fun item => item.dumps.toList) ++ rightRest) :
    left = right ∧ leftRest = rightRest := by
  induction left generalizing right with
  | nil =>
    cases right with
    | nil => simpa [listTail] using same
    | cons => simp [listTail] at same
  | cons item left ih =>
    cases right with
    | nil => simp [listTail] at same
    | cons other right =>
      simp only [List.map_cons, listTail, List.cons_append, List.append_assoc, List.cons.injEq,
        true_and] at same
      obtain ⟨rfl, rest⟩ := each item List.mem_cons_self other _ _
        (plain other List.mem_cons_self) same
      obtain ⟨rfl, follows⟩ := ih (fun item member => each item (.tail _ member))
        (fun item member => plain item (.tail _ member)) rest
      exact ⟨rfl, follows⟩

theorem Plain.head {value : Json} (plain : Plain value) (rest : List Char) :
    (value.dumps.toList ++ rest).head? = some (match value with
      | .null => 'n'
      | .string _ => '"'
      | _ => '[') := by
  cases plain with
  | null => rfl
  | string text => simp [dumps, toList_quote]
  | array _ => rw [toList_dumps_array]; rfl

/-- A text without numbers can be read off the front of whatever follows it. -/
theorem dumps_append_inj {left right : Json} (plain : Plain left) (other : Plain right)
    {leftRest rightRest : List Char}
    (same : left.dumps.toList ++ leftRest = right.dumps.toList ++ rightRest) :
    left = right ∧ leftRest = rightRest := by
  induction plain generalizing right leftRest rightRest with
  | null =>
    have head := (Plain.head .null leftRest).symm.trans ((congrArg _ same).trans (other.head _))
    cases other with
    | null => exact ⟨rfl, List.append_cancel_left same⟩
    | string | array => cases head
  | string text =>
    have head := (Plain.head (.string text) leftRest).symm.trans
      ((congrArg _ same).trans (other.head _))
    cases other with
    | string text =>
      obtain ⟨rfl, rest⟩ := quote_inj same
      exact ⟨rfl, rest⟩
    | null | array => cases head
  | @array items each ih =>
    have head := (Plain.head (.array each) leftRest).symm.trans
      ((congrArg _ same).trans (other.head _))
    cases other with
    | null | string => cases head
    | @array others plain =>
      rw [toList_dumps_array, toList_dumps_array] at same
      have rest : arrayText items ++ leftRest = arrayText others ++ rightRest :=
        (List.cons.inj same).2
      have close : ∀ {value : Json}, Plain value → ∀ rest chars : List Char,
          value.dumps.toList ++ rest ≠ ']' :: chars := by
        intro value plain rest chars equal
        have head := (plain.head rest).symm.trans (congrArg _ equal)
        cases plain <;> cases head
      cases items with
      | nil =>
        cases others with
        | nil => exact ⟨rfl, (List.cons.inj rest).2⟩
        | cons next others =>
          rw [arrayText, arrayText, List.append_assoc] at rest
          exact absurd rest.symm (close (plain next List.mem_cons_self) _ _)
      | cons item items =>
        cases others with
        | nil =>
          rw [arrayText, arrayText, List.append_assoc] at rest
          exact absurd rest (close (each item List.mem_cons_self) _ _)
        | cons next others =>
          rw [arrayText, arrayText, List.append_assoc, List.append_assoc] at rest
          obtain ⟨rfl, tails⟩ :=
            ih item List.mem_cons_self (plain next List.mem_cons_self) rest
          obtain ⟨rfl, follows⟩ := listTail_inj
            (fun item member other _ _ plain same => ih item (.tail _ member) plain same)
            (fun item member => plain item (.tail _ member)) tails
          exact ⟨rfl, follows⟩

/-! ## Objects over sorted keys -/

/-- The text of one member. -/
def memberText (member : String × Json) : List Char :=
  (quote member.1).toList ++ ':' :: member.2.dumps.toList

/-- Members that are in key order already are written in that order. -/
theorem toList_dumps_object {member : String × Json} {members : List (String × Json)}
    (sorted : (member :: members).Pairwise fun left right => left.1 ≤ right.1) :
    (dumps (.object (member :: members))).toList =
      '\x7b' :: (memberText member ++ listTail '\x7d' (members.map memberText)) := by
  have ordered : ((member :: members).map fun member => (member.1, dumps member.2)).Pairwise
      fun left right => left.1 ≤ right.1 := List.pairwise_map.mpr sorted
  rw [dumps, sortedMembers, dumpsMembers_eq, ordered.insertionSort_eq, String.toList_append,
    String.toList_append, String.toList_intercalate, List.append_assoc, List.map_map, List.map_map]
  refine congrArg ('\x7b' :: ·) ((intercalate_close '\x7d' _ _).trans ?_)
  have text : String.toList ∘ (fun member : String × String =>
      quote member.1 ++ ":" ++ member.2) ∘
        (fun member : String × Json => (member.1, dumps member.2)) = memberText := by
    funext member
    simp [memberText]
  rw [← text]
  rfl

end Json
