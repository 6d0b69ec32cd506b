import Mathlib.Data.List.Induction
import Mathlib.Tactic.Common
import Tinkerfin.Lib.Json

/-!
# JSON pointers and patches

A pointer names a place inside a document by reference tokens, in a text where `~` and `/` inside a
token are escaped.  The place is a lens: what is written there is read back, and a second write
replaces the first.  A patch adds, removes and replaces values at pointers one after the other and
fails as a whole when one operation has no target.
-/

namespace Json

/-- A property of the items of arrays and the members of objects holds of every value. -/
@[elab_as_elim]
theorem inductionOn {motive : Json → Prop}
    (scalar : ∀ value, (∀ items, value ≠ .array items) → (∀ members, value ≠ .object members) →
      motive value)
    (array : ∀ items, (∀ item ∈ items, motive item) → motive (.array items))
    (object : ∀ members, (∀ key value, (key, value) ∈ members → motive value) →
      motive (.object members)) (value : Json) : motive value := by
  match value with
  | .array items => exact array items fun item member => inductionOn scalar array object item
  | .object members =>
    exact object members fun key value member => inductionOn scalar array object value
  | .null => exact scalar _ (by simp) (by simp)
  | .bool _ => exact scalar _ (by simp) (by simp)
  | .int _ => exact scalar _ (by simp) (by simp)
  | .float _ => exact scalar _ (by simp) (by simp)
  | .string _ => exact scalar _ (by simp) (by simp)
  termination_by sizeOf value
  decreasing_by
  · have := List.sizeOf_lt_of_mem member
    simp only [Json.array.sizeOf_spec]
    omega
  · have := List.sizeOf_lt_of_mem member
    simp only [Json.object.sizeOf_spec, Prod.mk.sizeOf_spec] at this ⊢
    omega

/-! ## Members of an object -/

/-- The members with a value under one key, in the place of the old one or at the end. -/
def put : List (String × Json) → String → Json → List (String × Json)
  | [], key, value => [(key, value)]
  | (other, old) :: members, key, value =>
    if other = key then (key, value) :: members else (other, old) :: put members key value

/-- The members without one key. -/
def drop (members : List (String × Json)) (key : String) : List (String × Json) :=
  members.filter fun member => member.1 ≠ key

section Members

variable (members : List (String × Json)) (key other : String) (value again : Json)

theorem lookup_member (name : String) : ((name, value) :: members).lookup key =
    if key = name then some value else members.lookup key := by
  rw [List.lookup_cons]
  by_cases same : key = name
  · simp [same]
  · simp [same, beq_false_of_ne same]

theorem lookup_put : (put members key value).lookup other =
    if other = key then some value else members.lookup other := by
  induction members with
  | nil => simp [put, lookup_member]
  | cons member members ih =>
    obtain ⟨name, old⟩ := member
    unfold put
    split
    · next here =>
        subst here
        simp only [lookup_member]
        split <;> rfl
    · next away =>
        simp only [lookup_member, ih]
        by_cases first : other = name
        · simp [first, away]
        · simp [first]

theorem lookup_drop : (drop members key).lookup other =
    if other = key then none else members.lookup other := by
  induction members with
  | nil => simp [drop]
  | cons member members ih =>
    obtain ⟨name, old⟩ := member
    unfold drop at ih ⊢
    by_cases here : name = key
    · rw [List.filter_cons_of_neg (by simpa using here), ih, lookup_member, here]
      split <;> rfl
    · rw [List.filter_cons_of_pos (by simpa using here), lookup_member, lookup_member, ih]
      by_cases first : other = name
      · simp [first, here]
      · simp [first]

theorem put_put : put (put members key value) key again = put members key again := by
  induction members with
  | nil => simp [put]
  | cons member members ih =>
    obtain ⟨name, old⟩ := member
    by_cases here : name = key <;> simp [put, here, ih]

variable {members key value} in
theorem put_of_lookup (found : members.lookup key = some value) :
    put members key value = members := by
  induction members with
  | nil => simp at found
  | cons member members ih =>
    obtain ⟨name, old⟩ := member
    by_cases here : name = key
    · subst here
      simp_all [put]
    · simp only [put, here, if_false, List.cons.injEq, true_and]
      exact ih (by simpa [lookup_member, Ne.symm here] using found)

theorem lookup_isSome_iff : (members.lookup key).isSome ↔ key ∈ members.map Prod.fst := by
  simp [List.lookup_isSome_iff]

variable {members key value} in
theorem mem_of_lookup (found : members.lookup key = some value) : (key, value) ∈ members := by
  obtain ⟨before, after, rfl, -⟩ := List.lookup_eq_some_iff.mp found
  simp

variable {members key value} in
theorem lookup_of_mem (distinct : (members.map Prod.fst).Nodup) (member : (key, value) ∈ members) :
    members.lookup key = some value := by
  induction members with
  | nil => simp at member
  | cons first members ih =>
    obtain ⟨name, old⟩ := first
    simp only [List.map_cons, List.nodup_cons] at distinct
    obtain same | later := List.mem_cons.mp member
    · obtain ⟨rfl, rfl⟩ := Prod.mk.inj same
      simp
    · have away : key ≠ name := by
        rintro rfl
        exact distinct.1 (List.mem_map_of_mem later)
      rw [lookup_member, if_neg away]
      exact ih distinct.2 later

theorem keys_put : (put members key value).map Prod.fst =
    if key ∈ members.map Prod.fst then members.map Prod.fst
    else members.map Prod.fst ++ [key] := by
  induction members with
  | nil => simp [put]
  | cons member members ih =>
    obtain ⟨name, old⟩ := member
    by_cases here : name = key
    · simp [put, here]
    · have away : ¬key = name := Ne.symm here
      simp only [put, here, if_false, List.map_cons, ih, List.mem_cons, away, false_or]
      split <;> simp

end Members

/-! ## Distinct keys -/

mutual

/-- No object inside the value has two members of one key. -/
def isDistinct : Json → Bool
  | .array items => areDistinct items
  | .object members => decide (members.map Prod.fst).Nodup && membersDistinct members
  | _ => true

def areDistinct : List Json → Bool
  | [] => true
  | item :: items => isDistinct item && areDistinct items

def membersDistinct : List (String × Json) → Bool
  | [] => true
  | (_, value) :: members => isDistinct value && membersDistinct members

end

theorem areDistinct_iff {items : List Json} :
    areDistinct items = true ↔ ∀ item ∈ items, isDistinct item = true := by
  induction items with
  | nil => simp [areDistinct]
  | cons item items ih => simp [areDistinct, ih]

theorem membersDistinct_iff {members : List (String × Json)} :
    membersDistinct members = true ↔ ∀ key value, (key, value) ∈ members →
      isDistinct value = true := by
  induction members with
  | nil => simp [membersDistinct]
  | cons member members ih =>
    obtain ⟨name, old⟩ := member
    simp only [membersDistinct, Bool.and_eq_true, ih, List.mem_cons, Prod.mk.injEq]
    constructor
    · rintro ⟨first, rest⟩ key value (⟨rfl, rfl⟩ | member)
      · exact first
      · exact rest key value member
    · intro all
      exact ⟨all name old (.inl ⟨rfl, rfl⟩), fun key value member => all key value (.inr member)⟩

theorem isDistinct_object {members : List (String × Json)} :
    isDistinct (.object members) = true ↔ (members.map Prod.fst).Nodup ∧
      ∀ key value, members.lookup key = some value → isDistinct value = true := by
  simp only [isDistinct, Bool.and_eq_true, decide_eq_true_eq, membersDistinct_iff]
  refine and_congr_right fun distinct => forall₂_congr fun key value => ?_
  exact ⟨fun all found => all (mem_of_lookup found),
    fun all member => all (lookup_of_mem distinct member)⟩

theorem isDistinct_put {members : List (String × Json)} {key : String} {value : Json}
    (distinct : isDistinct (.object members) = true) (also : isDistinct value = true) :
    isDistinct (.object (put members key value)) = true := by
  obtain ⟨keys, values⟩ := isDistinct_object.mp distinct
  refine isDistinct_object.mpr ⟨?_, fun other found => ?_⟩
  · rw [keys_put]
    split
    · exact keys
    · next absent => exact keys.append (List.nodup_singleton _) (by simpa using absent)
  · rw [lookup_put]
    split
    · rintro ⟨⟩
      exact also
    · exact values other found

theorem isDistinct_sublist {members kept : List (String × Json)}
    (distinct : isDistinct (.object members) = true) (sublist : kept.Sublist members) :
    isDistinct (.object kept) = true := by
  simp only [isDistinct, Bool.and_eq_true, decide_eq_true_eq, membersDistinct_iff] at *
  exact ⟨distinct.1.sublist (sublist.map _), fun key value member =>
    distinct.2 key value (sublist.subset member)⟩

theorem isDistinct_drop {members : List (String × Json)} {key : String}
    (distinct : isDistinct (.object members) = true) :
    isDistinct (.object (drop members key)) = true :=
  isDistinct_sublist distinct List.filter_sublist

/-! ## Pointers -/

namespace Pointer

/-- One character of a reference token as a pointer writes it. -/
def escape (char : Char) : List Char :=
  if char = '~' then ['~', '0'] else if char = '/' then ['~', '1'] else [char]

/-- The characters of a written reference token; every `~` starts an escape. -/
def unescape? : List Char → Option (List Char)
  | [] => some []
  | '~' :: '0' :: chars => (unescape? chars).map ('~' :: ·)
  | '~' :: '1' :: chars => (unescape? chars).map ('/' :: ·)
  | '~' :: _ => none
  | char :: chars => (unescape? chars).map (char :: ·)

/-- One reference token with its separator. -/
def segment (token : String) : List Char := '/' :: token.toList.flatMap escape

/-- The text of a pointer. -/
def render (tokens : List String) : String := String.ofList (tokens.flatMap segment)

/-- The reference tokens of a pointer, unless its text is malformed. -/
def parse (text : String) : Option (List String) :=
  match text.toList with
  | [] => some []
  | '/' :: chars => (chars.splitOn '/').mapM fun part => (unescape? part).map String.ofList
  | _ => none

theorem unescape?_escape (chars : List Char) : unescape? (chars.flatMap escape) = some chars := by
  induction chars with
  | nil => rfl
  | cons char chars ih =>
    rw [List.flatMap_cons, escape]
    split
    · next tilde => simp [unescape?, ih, tilde]
    · next plain =>
        split
        · next slash => simp [unescape?, ih, slash]
        · simp [unescape?, ih, plain]

theorem slash_notMem_escape (chars : List Char) : '/' ∉ chars.flatMap escape := by
  rw [List.mem_flatMap]
  rintro ⟨char, -, member⟩
  unfold escape at member
  split at member
  · simp at member
  · split at member
    · simp at member
    · next other =>
        exact other (List.mem_singleton.mp member).symm

theorem flatMap_segment (token : String) (tokens : List String) :
    (token :: tokens).flatMap segment =
      '/' :: ['/'].intercalate ((token :: tokens).map fun token => token.toList.flatMap escape) := by
  induction tokens generalizing token with
  | nil => simp [segment]
  | cons next tokens ih =>
    rw [List.flatMap_cons, ih next, segment]
    simp [List.intercalate_cons_cons]

theorem mapM_unescape? (tokens : List String) :
    (tokens.map fun token => token.toList.flatMap escape).mapM
      (fun part => (unescape? part).map String.ofList) = some tokens := by
  induction tokens with
  | nil => rfl
  | cons token tokens ih => simp [List.mapM_cons, unescape?_escape, ih]

theorem parse_render (tokens : List String) : parse (render tokens) = some tokens := by
  unfold parse render
  rw [String.toList_ofList]
  cases tokens with
  | nil => rfl
  | cons token tokens =>
    rw [flatMap_segment]
    change ((['/'].intercalate _).splitOn '/').mapM _ = _
    rw [List.splitOn_intercalate, mapM_unescape?]
    · intro part member
      obtain ⟨other, -, rfl⟩ := List.mem_map.mp member
      exact slash_notMem_escape _
    · simp

theorem render_append (tokens : List String) (token : String) :
    render (tokens ++ [token]) = render tokens ++ String.ofList (segment token) := by
  simp [render, List.flatMap_append]

end Pointer

/-! ## The place of a pointer -/

/-- The array position that a reference token names. -/
def arrayIndex? (token : String) : Option Nat :=
  if token.all Char.isDigit ∧ (token = "0" ∨ token.front ≠ '0') then token.toNat? else none

/-- The member of an object or the item of an array that a reference token names. -/
def child? : Json → String → Option Json
  | .object members, token => members.lookup token
  | .array items, token => (arrayIndex? token).bind (items[·]?)
  | _, _ => none

/-- The value with another child in the place of an existing one. -/
def setChild : Json → String → Json → Json
  | .object members, token, value => .object (put members token value)
  | .array items, token, value => (arrayIndex? token).elim (.array items) fun index =>
    .array (items.set index value)
  | other, _, _ => other

/-- The value at a pointer. -/
def at? (document : Json) : List String → Option Json
  | [] => some document
  | token :: tokens => (document.child? token).bind fun child => child.at? tokens

/-- The document with another value at a pointer that it has. -/
def setAt (document : Json) : List String → Json → Json
  | [], value => value
  | token :: tokens, value =>
    match document.child? token with
    | some child => document.setChild token (child.setAt tokens value)
    | none => document

section Places

variable {document old value again : Json} {token : String} {tokens : List String}

theorem child?_setChild (found : document.child? token = some old) :
    (document.setChild token value).child? token = some value := by
  cases document with
  | object members => simp [setChild, child?, lookup_put]
  | array items =>
    simp only [child?, Option.bind_eq_some_iff] at found
    obtain ⟨index, named, found⟩ := found
    obtain ⟨inside, -⟩ := List.getElem?_eq_some_iff.mp found
    simp [setChild, child?, named, inside]
  | _ => cases found

theorem setChild_setChild :
    (document.setChild token value).setChild token again = document.setChild token again := by
  cases document with
  | object members => simp [setChild, put_put]
  | array items => cases named : arrayIndex? token <;> simp [setChild, named]
  | _ => rfl

theorem setChild_child? (found : document.child? token = some value) :
    document.setChild token value = document := by
  cases document with
  | object members => exact congrArg Json.object (put_of_lookup found)
  | array items =>
    simp only [child?, Option.bind_eq_some_iff] at found
    obtain ⟨index, named, found⟩ := found
    obtain ⟨inside, rfl⟩ := List.getElem?_eq_some_iff.mp found
    simp [setChild, named]
  | _ => rfl

theorem at?_setAt (value : Json) (found : document.at? tokens = some old) :
    (document.setAt tokens value).at? tokens = some value := by
  induction tokens generalizing document with
  | nil => rfl
  | cons token tokens ih =>
    obtain ⟨child, named, found⟩ := Option.bind_eq_some_iff.mp found
    simp only [setAt, named, at?, child?_setChild named, Option.bind_some]
    exact ih found

theorem setAt_setAt (found : document.at? tokens = some old) :
    (document.setAt tokens value).setAt tokens again = document.setAt tokens again := by
  induction tokens generalizing document with
  | nil => rfl
  | cons token tokens ih =>
    obtain ⟨child, named, found⟩ := Option.bind_eq_some_iff.mp found
    simp only [setAt, named, child?_setChild named, setChild_setChild, ih found]

theorem setAt_at? (found : document.at? tokens = some value) :
    document.setAt tokens value = document := by
  induction tokens generalizing document with
  | nil => exact (Option.some.inj found).symm
  | cons token tokens ih =>
    obtain ⟨child, named, found⟩ := Option.bind_eq_some_iff.mp found
    simp only [setAt, named, ih found, setChild_child? named]

theorem at?_append (document : Json) (tokens : List String) (token : String) :
    document.at? (tokens ++ [token]) = (document.at? tokens).bind fun parent =>
      parent.child? token := by
  induction tokens generalizing document with
  | nil => simp [at?]
  | cons first tokens ih => simp only [List.cons_append, at?, Option.bind_assoc, ih]

theorem setAt_append {parent : Json} (found : document.at? tokens = some parent)
    (named : parent.child? token = some old) :
    document.setAt (tokens ++ [token]) value =
      document.setAt tokens (parent.setChild token value) := by
  induction tokens generalizing document with
  | nil =>
    obtain rfl := Option.some.inj found
    simp [setAt, named]
  | cons first tokens ih =>
    obtain ⟨child, here, found⟩ := Option.bind_eq_some_iff.mp found
    simp only [List.cons_append, setAt, here, ih found]

theorem isDistinct_child (distinct : document.isDistinct = true)
    (found : document.child? token = some value) : value.isDistinct = true := by
  cases document with
  | object members => exact (isDistinct_object.mp distinct).2 token value found
  | array items =>
    obtain ⟨index, -, found⟩ := Option.bind_eq_some_iff.mp found
    exact areDistinct_iff.mp distinct value (List.mem_of_getElem? found)
  | _ => cases found

end Places

/-! ## Patches -/

/-- What one operation does at its target. -/
inductive Change
  | add (value : Json)
  | remove
  | replace (value : Json)

/-- One operation of a patch. -/
structure PatchOperation where
  change : Change
  path : String

namespace Change

/-- The parent of the target after the change. -/
def within (parent : Json) (token : String) : Change → Option Json
  | .add value =>
    match parent with
    | .object members => some (.object (put members token value))
    | .array items =>
      if token = "-" then some (.array (items ++ [value]))
      else (arrayIndex? token).bind fun index =>
        if index ≤ items.length then some (.array (items.insertIdx index value)) else none
    | _ => none
  | .replace value => (parent.child? token).map fun _ => parent.setChild token value
  | .remove =>
    match parent with
    | .object members => (members.lookup token).map fun _ => .object (drop members token)
    | .array items => (arrayIndex? token).bind fun index =>
      if index < items.length then some (.array (items.eraseIdx index)) else none
    | _ => none

/-- The document after the change; what is not there is neither removed nor replaced. -/
def apply (change : Change) (document : Json) : List String → Option Json
  | [] =>
    match change with
    | .add value | .replace value => some value
    | .remove => none
  | [token] => change.within document token
  | token :: tokens => (document.child? token).bind fun child =>
    (change.apply child tokens).map fun after => document.setChild token after

theorem apply_append (change : Change) (document : Json) (tokens : List String) (token : String) :
    change.apply document (tokens ++ [token]) = (document.at? tokens).bind fun parent =>
      (change.within parent token).map fun after => document.setAt tokens after := by
  induction tokens generalizing document with
  | nil => simp [apply, at?, setAt]
  | cons first tokens ih =>
    have deeper : (first :: tokens) ++ [token] = first :: (tokens ++ [token]) := rfl
    rw [deeper]
    cases rest : tokens ++ [token] with
    | nil => simp at rest
    | cons second others =>
      unfold apply
      rw [← rest]
      cases named : document.child? first with
      | none => simp [at?, named]
      | some child =>
        simp only [Option.bind_some, ih, at?, named, setAt, Option.map_bind]
        refine Option.bind_congr fun parent _ => ?_
        simp [Function.comp_def]

theorem apply_replace {document old : Json} {tokens : List String} (value : Json)
    (found : document.at? tokens = some old) :
    (Change.replace value).apply document tokens = some (document.setAt tokens value) := by
  cases tokens using List.reverseRecOn with
  | nil => rfl
  | append_singleton tokens token =>
    rw [at?_append, Option.bind_eq_some_iff] at found
    obtain ⟨parent, above, named⟩ := found
    rw [apply_append, above, setAt_append above named]
    simp [within, named]

end Change

/-- The document after one operation. -/
def patchWith (document : Json) (operation : PatchOperation) : Option Json :=
  (Pointer.parse operation.path).bind (operation.change.apply document)

/-- The document after a patch; no operation may fail. -/
def patch (document : Json) (operations : List PatchOperation) : Option Json :=
  operations.foldlM patchWith document

@[simp] theorem patch_nil (document : Json) : document.patch [] = some document := rfl

theorem patch_append (document : Json) (first second : List PatchOperation) :
    document.patch (first ++ second) = (document.patch first).bind fun middle =>
      middle.patch second := by
  simp [patch, List.foldlM_append]

@[simp] theorem patchWith_render (document : Json) (change : Change) (tokens : List String) :
    document.patchWith ⟨change, Pointer.render tokens⟩ = change.apply document tokens := by
  simp [patchWith, Pointer.parse_render]

end Json
