import Mathlib.Data.Option.Basic
import Tinkerfin.Lib.JsonPatch

/-!
# Root state of a client

Each root values part carries the whole state of the graph.  The adapter sends it as a snapshot once
and as patches from then on, built against the state that it sent last; a part with interrupts sends
a snapshot again.
-/

namespace Tinkerfin.Agui

/-! ## Equality of JSON values -/

/-- Equality of finite floats by their shortest decimal texts: only the zeros have two. -/
def floatsEqual (left right : String) : Bool :=
  left = right || (left ∈ ["0.0", "-0.0"] && right ∈ ["0.0", "-0.0"])

/-- Two objects have the same keys. -/
def sameKeys (left right : List (String × Json)) : Bool :=
  left.all (fun member => member.1 ∈ right.map Prod.fst) &&
    right.all fun member => member.1 ∈ left.map Prod.fst

mutual

/-- Compare JSON values without conflating booleans and number types. -/
def jsonValuesEqual : Json → Json → Bool
  | .null, .null => true
  | .bool left, .bool right => left = right
  | .int left, .int right => left = right
  | .float left, .float right => floatsEqual left right
  | .string left, .string right => left = right
  | .array left, .array right => itemsEqual left right
  | .object left, .object right => sameKeys left right && membersEqual left right
  | _, _ => false

def itemsEqual : List Json → List Json → Bool
  | [], [] => true
  | left :: lefts, right :: rights => jsonValuesEqual left right && itemsEqual lefts rights
  | _, _ => false

def membersEqual : List (String × Json) → List (String × Json) → Bool
  | [], _ => true
  | (key, value) :: members, others =>
    (match others.lookup key with
    | some other => jsonValuesEqual value other
    | none => false) && membersEqual members others

end

theorem floatsEqual_self (value : String) : floatsEqual value value = true := by
  simp [floatsEqual]

theorem floatsEqual_trans {first second third : String}
    (left : floatsEqual first second = true) (right : floatsEqual second third = true) :
    floatsEqual first third = true := by
  simp only [floatsEqual, Bool.or_eq_true, decide_eq_true_eq, Bool.and_eq_true] at *
  obtain rfl | ⟨zero, same⟩ := left
  · exact right
  · obtain rfl | ⟨-, zero'⟩ := right
    · exact .inr ⟨zero, same⟩
    · exact .inr ⟨zero, zero'⟩

theorem itemsEqual_iff {left right : List Json} : itemsEqual left right = true ↔
    List.Forall₂ (fun left right => jsonValuesEqual left right = true) left right := by
  induction left generalizing right with
  | nil => cases right <;> simp [itemsEqual]
  | cons item items ih => cases right <;> simp [itemsEqual, ih]

theorem membersEqual_iff {left right : List (String × Json)} : membersEqual left right = true ↔
    ∀ key value, (key, value) ∈ left →
      ∃ other, right.lookup key = some other ∧ jsonValuesEqual value other = true := by
  induction left with
  | nil => simp [membersEqual]
  | cons member members ih =>
    obtain ⟨name, old⟩ := member
    simp only [membersEqual, Bool.and_eq_true, ih, List.mem_cons, Prod.mk.injEq]
    constructor
    · rintro ⟨first, rest⟩ key value (⟨rfl, rfl⟩ | member)
      · cases found : right.lookup key with
        | none => simp [found] at first
        | some other => exact ⟨other, rfl, by simpa [found] using first⟩
      · exact rest key value member
    · intro all
      obtain ⟨other, found, equal⟩ := all name old (.inl ⟨rfl, rfl⟩)
      exact ⟨by rw [found]; exact equal, fun key value member => all key value (.inr member)⟩

/-- Objects are equal when every key finds equal values, or none, in both. -/
theorem objectsEqual_iff {left right : List (String × Json)}
    (distinct : (left.map Prod.fst).Nodup) :
    jsonValuesEqual (.object left) (.object right) = true ↔
      ∀ key, Option.Rel (fun left right => jsonValuesEqual left right = true) (left.lookup key)
        (right.lookup key) := by
  have keys (members : List (String × Json)) (key : String) :
      key ∈ members.map Prod.fst ↔ ∃ value, members.lookup key = some value := by
    rw [← Json.lookup_isSome_iff, Option.isSome_iff_exists]
  simp only [jsonValuesEqual, Bool.and_eq_true, membersEqual_iff, sameKeys, List.all_eq_true,
    decide_eq_true_eq]
  constructor
  · rintro ⟨⟨-, back⟩, values⟩ key
    cases found : left.lookup key with
    | none =>
      cases other : right.lookup key with
      | none => exact .none
      | some value =>
        obtain ⟨value, here⟩ := (keys left key).mp (back (key, value) (Json.mem_of_lookup other))
        cases found.symm.trans here
    | some value =>
      obtain ⟨other, here, equal⟩ := values key value (Json.mem_of_lookup found)
      rw [here]
      exact .some equal
  · intro related
    refine ⟨⟨fun (key, value) member => ?_, fun (key, value) member => ?_⟩,
      fun key value member => ?_⟩
    · have found := Json.lookup_of_mem distinct member
      have both := related key
      rw [found] at both
      cases here : right.lookup key with
      | none => rw [here] at both; cases both
      | some other => exact (keys right key).mpr ⟨other, here⟩
    · have both := related key
      obtain ⟨other, found⟩ := (keys right key).mp (List.mem_map_of_mem member)
      rw [found] at both
      cases here : left.lookup key with
      | none => rw [here] at both; cases both
      | some other => exact (keys left key).mpr ⟨other, here⟩
    · have both := related key
      rw [Json.lookup_of_mem distinct member] at both
      cases here : right.lookup key with
      | none => rw [here] at both; cases both
      | some other =>
        rw [here] at both
        cases both with
        | some equal => exact ⟨other, rfl, equal⟩

theorem jsonValuesEqual_self {value : Json} (distinct : value.isDistinct = true) :
    jsonValuesEqual value value = true := by
  induction value using Json.inductionOn with
  | scalar value notArray notObject =>
    cases value with
    | array items => exact absurd rfl (notArray items)
    | object members => exact absurd rfl (notObject members)
    | float text => exact floatsEqual_self text
    | _ => simp [jsonValuesEqual]
  | array items ih =>
    refine itemsEqual_iff.mpr (List.forall₂_same.mpr fun item member => ?_)
    exact ih item member (Json.areDistinct_iff.mp distinct item member)
  | object members ih =>
    obtain ⟨keys, values⟩ := Json.isDistinct_object.mp distinct
    refine (objectsEqual_iff keys).mpr fun key => ?_
    cases found : members.lookup key with
    | none => exact .none
    | some value => exact .some (ih key value (Json.mem_of_lookup found) (values key value found))

theorem forall₂_trans {α : Type} {related : α → α → Prop} {first second third : List α}
    (left : List.Forall₂ related first second) (right : List.Forall₂ related second third)
    (composes : ∀ a ∈ first, ∀ b ∈ second, ∀ c, related a b → related b c → related a c) :
    List.Forall₂ related first third := by
  induction left generalizing third with
  | nil => cases right; exact .nil
  | cons head _ ih =>
    cases right with
    | cons next rest =>
      refine .cons (composes _ (by simp) _ (by simp) _ head next) (ih rest ?_)
      exact fun a memberA b memberB => composes a (.tail _ memberA) b (.tail _ memberB)

theorem optionRel_trans {α : Type} {related : α → α → Prop} {first second third : Option α}
    (left : Option.Rel related first second) (right : Option.Rel related second third)
    (composes : ∀ a, first = some a → ∀ b, second = some b → ∀ c, related a b → related b c →
      related a c) : Option.Rel related first third := by
  cases left with
  | none => exact right
  | some left =>
    cases right with
    | some right => exact .some (composes _ rfl _ rfl _ left right)

theorem jsonValuesEqual_trans {first second third : Json} (distinct : first.isDistinct = true)
    (also : second.isDistinct = true) (left : jsonValuesEqual first second = true)
    (right : jsonValuesEqual second third = true) : jsonValuesEqual first third = true := by
  induction first using Json.inductionOn generalizing second third with
  | scalar value notArray notObject =>
    cases value with
    | array items => exact absurd rfl (notArray items)
    | object members => exact absurd rfl (notObject members)
    | float text =>
      cases second <;> simp only [jsonValuesEqual, reduceCtorEq] at left
      cases third <;> simp only [jsonValuesEqual, reduceCtorEq] at right
      exact floatsEqual_trans left right
    | _ =>
      cases second <;> simp only [jsonValuesEqual, reduceCtorEq, decide_eq_true_eq] at left
      cases third <;> simp_all [jsonValuesEqual]
  | array items ih =>
    cases second with
    | array middle =>
      cases third with
      | array others =>
        refine itemsEqual_iff.mpr (forall₂_trans (itemsEqual_iff.mp left)
          (itemsEqual_iff.mp right) fun a memberA b memberB c => ?_)
        exact ih a memberA (Json.areDistinct_iff.mp distinct a memberA)
          (Json.areDistinct_iff.mp also b memberB)
      | _ => simp [jsonValuesEqual] at right
    | _ => simp [jsonValuesEqual] at left
  | object members ih =>
    cases second with
    | object middle =>
      cases third with
      | object others =>
        obtain ⟨keys, values⟩ := Json.isDistinct_object.mp distinct
        obtain ⟨keys', values'⟩ := Json.isDistinct_object.mp also
        rw [objectsEqual_iff keys] at left ⊢
        rw [objectsEqual_iff keys'] at right
        refine fun key => optionRel_trans (left key) (right key) fun value found between here _ =>
          ih key value (Json.mem_of_lookup found) (values key value found)
            (values' key between here)
      | _ => simp [jsonValuesEqual] at right
    | _ => simp [jsonValuesEqual] at left

/-! ## Building a patch -/

abbrev JsonPatchOperation := Json.PatchOperation

/-- The text with every occurrence of a character replaced. -/
def replaceChar (text : String) (target : Char) (replacement : String) : String :=
  String.ofList (text.toList.flatMap fun char =>
    if char = target then replacement.toList else [char])

def escapeJsonPointer (value : String) : String :=
  replaceChar (replaceChar value '~' "~0") '/' "~1"

/-- Entries in the order of their keys. -/
def inKeyOrder {α : Type} (entries : List (String × α)) : List (String × α) :=
  entries.insertionSort fun left right => left.1 ≤ right.1

/-- The members whose key another object lacks. -/
def missingIn (members others : List (String × Json)) : List (String × Json) :=
  members.filter fun member => member.1 ∉ others.map Prod.fst

mutual

/-- Build a deterministically ordered patch between two JSON values. -/
def jsonPatch (previous current : Json) (path : String) : List JsonPatchOperation :=
  if jsonValuesEqual previous current then []
  else
    match previous, current with
    | .object previous, .object current =>
      (inKeyOrder (missingIn previous current)).map
          (fun (key, _) => ⟨.remove, path ++ "/" ++ escapeJsonPointer key⟩) ++
        (inKeyOrder (missingIn current previous)).map
          (fun (key, value) => ⟨.add value, path ++ "/" ++ escapeJsonPointer key⟩) ++
        (inKeyOrder (memberPatches previous current path)).flatMap Prod.snd
    | _, _ => [⟨.replace current, path⟩]

/-- The patches of the members that both objects have. -/
def memberPatches : List (String × Json) → List (String × Json) → String →
    List (String × List JsonPatchOperation)
  | [], _, _ => []
  | (key, previous) :: members, others, path =>
    match others.lookup key with
    | some current =>
      (key, jsonPatch previous current (path ++ "/" ++ escapeJsonPointer key)) ::
        memberPatches members others path
    | none => memberPatches members others path

end

theorem escapeJsonPointer_eq (value : String) :
    escapeJsonPointer value = String.ofList (value.toList.flatMap Json.Pointer.escape) := by
  simp only [escapeJsonPointer, replaceChar, String.toList_ofList, List.flatMap_assoc]
  congr 2
  funext char
  unfold Json.Pointer.escape
  split
  · rfl
  · next other =>
      by_cases slash : char = '/' <;> simp [slash]

theorem path_append (tokens : List String) (key : String) :
    Json.Pointer.render tokens ++ "/" ++ escapeJsonPointer key =
      Json.Pointer.render (tokens ++ [key]) := by
  rw [Json.Pointer.render_append, escapeJsonPointer_eq, String.append_assoc]
  congr 1
  apply String.toList_injective
  simp [Json.Pointer.segment]

section Order

variable {α : Type} {entries : List (String × α)}

theorem mem_inKeyOrder {entry : String × α} : entry ∈ inKeyOrder entries ↔ entry ∈ entries :=
  (List.perm_insertionSort _ _).mem_iff

theorem nodup_inKeyOrder (distinct : (entries.map Prod.fst).Nodup) :
    ((inKeyOrder entries).map Prod.fst).Nodup :=
  ((List.perm_insertionSort _ entries).map Prod.fst).nodup_iff.mpr distinct

end Order

theorem mem_missingIn {members others : List (String × Json)} {key : String} {value : Json} :
    (key, value) ∈ missingIn members others ↔
      (key, value) ∈ members ∧ others.lookup key = none := by
  simp only [missingIn, List.mem_filter, decide_eq_true_eq, ← Json.lookup_isSome_iff,
    Option.not_isSome_iff_eq_none]

theorem nodup_missingIn {members : List (String × Json)} (others : List (String × Json))
    (distinct : (members.map Prod.fst).Nodup) : ((missingIn members others).map Prod.fst).Nodup :=
  distinct.sublist (List.filter_sublist.map _)

theorem mem_memberPatches {members others : List (String × Json)} {path key : String}
    {operations : List JsonPatchOperation} :
    (key, operations) ∈ memberPatches members others path ↔
      ∃ previous current, (key, previous) ∈ members ∧ others.lookup key = some current ∧
        operations = jsonPatch previous current (path ++ "/" ++ escapeJsonPointer key) := by
  induction members with
  | nil => simp [memberPatches]
  | cons member members ih =>
    obtain ⟨name, old⟩ := member
    unfold memberPatches
    cases found : others.lookup name with
    | none =>
      simp only [ih, List.mem_cons, Prod.mk.injEq]
      constructor
      · rintro ⟨previous, current, member, rest⟩
        exact ⟨previous, current, .inr member, rest⟩
      · rintro ⟨previous, current, ⟨rfl, rfl⟩ | member, here, rest⟩
        · cases found.symm.trans here
        · exact ⟨previous, current, member, here, rest⟩
    | some now =>
      simp only [ih, List.mem_cons, Prod.mk.injEq]
      constructor
      · rintro (⟨rfl, rfl⟩ | ⟨previous, current, member, rest⟩)
        · exact ⟨old, now, .inl ⟨rfl, rfl⟩, found, rfl⟩
        · exact ⟨previous, current, .inr member, rest⟩
      · rintro ⟨previous, current, ⟨rfl, rfl⟩ | member, here, rfl⟩
        · obtain rfl := Option.some.inj (found.symm.trans here)
          exact .inl ⟨rfl, rfl⟩
        · exact .inr ⟨previous, current, member, here, rfl⟩

theorem nodup_memberPatches {members others : List (String × Json)} {path : String}
    (distinct : (members.map Prod.fst).Nodup) :
    ((memberPatches members others path).map Prod.fst).Nodup := by
  refine distinct.sublist ?_
  induction members with
  | nil => exact .slnil
  | cons member members ih =>
    obtain ⟨name, old⟩ := member
    simp only [List.map_cons, List.nodup_cons] at distinct
    unfold memberPatches
    split
    · exact (ih distinct.2).cons_cons _
    · exact (ih distinct.2).cons _

section Keys

variable {members others : List (String × Json)} {key : String}

theorem mem_keys_missingIn : key ∈ (inKeyOrder (missingIn members others)).map Prod.fst ↔
    (members.lookup key).isSome ∧ others.lookup key = none := by
  rw [Json.lookup_isSome_iff]
  simp only [List.mem_map, Prod.exists, mem_inKeyOrder, mem_missingIn]
  constructor
  · rintro ⟨name, value, ⟨member, absent⟩, rfl⟩
    exact ⟨⟨name, value, member, rfl⟩, absent⟩
  · rintro ⟨⟨name, value, member, rfl⟩, absent⟩
    exact ⟨name, value, ⟨member, absent⟩, rfl⟩

theorem lookup_missingIn (distinct : (members.map Prod.fst).Nodup) :
    (inKeyOrder (missingIn members others)).lookup key =
      if (others.lookup key).isSome then none else members.lookup key := by
  have sorted := nodup_inKeyOrder (nodup_missingIn others distinct)
  cases found : (inKeyOrder (missingIn members others)).lookup key with
  | some value =>
    obtain ⟨member, absent⟩ := mem_missingIn.mp (mem_inKeyOrder.mp (Json.mem_of_lookup found))
    simp [absent, Json.lookup_of_mem distinct member]
  | none =>
    split
    · rfl
    · next absent =>
        cases here : members.lookup key with
        | none => rfl
        | some value =>
          have member := mem_inKeyOrder.mpr (mem_missingIn.mpr
            ⟨Json.mem_of_lookup here, Option.not_isSome_iff_eq_none.mp absent⟩)
          cases found.symm.trans (Json.lookup_of_mem sorted member)

theorem mem_keys_memberPatches {path : String} :
    key ∈ (inKeyOrder (memberPatches members others path)).map Prod.fst ↔
      (members.lookup key).isSome ∧ (others.lookup key).isSome := by
  rw [Json.lookup_isSome_iff]
  simp only [List.mem_map, Prod.exists, mem_inKeyOrder, mem_memberPatches]
  constructor
  · rintro ⟨name, operations, ⟨previous, current, member, found, -⟩, rfl⟩
    exact ⟨⟨name, previous, member, rfl⟩, by simp [found]⟩
  · rintro ⟨⟨name, previous, member, rfl⟩, found⟩
    obtain ⟨current, found⟩ := Option.isSome_iff_exists.mp found
    exact ⟨name, _, ⟨previous, current, member, found, rfl⟩, rfl⟩

end Keys

/-! ## Applying the patch -/

section Phases

variable {document : Json} {tokens : List String} {members : List (String × Json)}

/-- Members that are there are removed one after the other. -/
theorem patch_removals (removed : List (String × Json))
    (place : document.at? tokens = some (.object members))
    (distinct : (removed.map Prod.fst).Nodup)
    (present : ∀ key ∈ removed.map Prod.fst, (members.lookup key).isSome) :
    document.patch (removed.map fun (key, _) =>
        ⟨.remove, Json.Pointer.render tokens ++ "/" ++ escapeJsonPointer key⟩) =
      some (document.setAt tokens
        (.object ((removed.map Prod.fst).foldl Json.drop members))) := by
  induction removed generalizing document members with
  | nil => simp [Json.setAt_at? place]
  | cons member removed ih =>
    obtain ⟨name, old⟩ := member
    simp only [List.map_cons, List.nodup_cons] at distinct
    obtain ⟨value, found⟩ := Option.isSome_iff_exists.mp (present name (by simp))
    have first : document.patchWith
        ⟨.remove, Json.Pointer.render tokens ++ "/" ++ escapeJsonPointer name⟩ =
          some (document.setAt tokens (.object (Json.drop members name))) := by
      rw [path_append, Json.patchWith_render, Json.Change.apply_append, place]
      simp [Json.Change.within, found]
    have rest := ih (Json.at?_setAt (.object (Json.drop members name)) place) distinct.2
      fun key member => by
        have away : key ≠ name := fun same => distinct.1 (same ▸ member)
        rw [Json.lookup_drop, if_neg away]
        exact present key (List.mem_cons_of_mem _ member)
    rw [List.map_cons, Json.patch, List.foldlM_cons, first]
    exact rest.trans (by rw [Json.setAt_setAt place]; rfl)

/-- Members are added one after the other. -/
theorem patch_additions (added : List (String × Json))
    (place : document.at? tokens = some (.object members)) :
    document.patch (added.map fun (key, value) =>
        ⟨.add value, Json.Pointer.render tokens ++ "/" ++ escapeJsonPointer key⟩) =
      some (document.setAt tokens
        (.object (added.foldl (fun members (key, value) => Json.put members key value) members))) := by
  induction added generalizing document members with
  | nil => simp [Json.setAt_at? place]
  | cons member added ih =>
    obtain ⟨name, value⟩ := member
    have first : document.patchWith
        ⟨.add value, Json.Pointer.render tokens ++ "/" ++ escapeJsonPointer name⟩ =
          some (document.setAt tokens (.object (Json.put members name value))) := by
      rw [path_append, Json.patchWith_render, Json.Change.apply_append, place]
      simp [Json.Change.within]
    have rest := ih (Json.at?_setAt (.object (Json.put members name value)) place)
    rw [List.map_cons, Json.patch, List.foldlM_cons, first]
    exact rest.trans (by rw [Json.setAt_setAt place]; rfl)

theorem lookup_removals (removed : List String) (key : String) :
    (removed.foldl Json.drop members).lookup key =
      if key ∈ removed then none else members.lookup key := by
  induction removed generalizing members with
  | nil => simp
  | cons name removed ih =>
    simp only [List.foldl_cons, ih, Json.lookup_drop, List.mem_cons]
    by_cases here : key = name <;> by_cases later : key ∈ removed <;> simp [here, later]

theorem lookup_additions {added : List (String × Json)} (distinct : (added.map Prod.fst).Nodup)
    (key : String) :
    (added.foldl (fun members (key, value) => Json.put members key value) members).lookup key =
      (added.lookup key <|> members.lookup key) := by
  induction added generalizing members with
  | nil => simp
  | cons member added ih =>
    obtain ⟨name, value⟩ := member
    simp only [List.map_cons, List.nodup_cons] at distinct
    simp only [List.foldl_cons, ih distinct.2, Json.lookup_put, Json.lookup_member]
    by_cases here : key = name
    · subst here
      have absent : added.lookup key = none := by
        rw [← Option.not_isSome_iff_eq_none, Json.lookup_isSome_iff]
        exact distinct.1
      simp [absent]
    · simp [here]

theorem isDistinct_removals {removed : List String}
    (distinct : Json.isDistinct (.object members) = true) :
    Json.isDistinct (.object (removed.foldl Json.drop members)) = true := by
  induction removed generalizing members with
  | nil => exact distinct
  | cons name removed ih => exact ih (Json.isDistinct_drop distinct)

theorem isDistinct_additions {added : List (String × Json)}
    (distinct : Json.isDistinct (.object members) = true)
    (also : ∀ key value, (key, value) ∈ added → value.isDistinct = true) :
    Json.isDistinct (.object
      (added.foldl (fun members (key, value) => Json.put members key value) members)) = true := by
  induction added generalizing members with
  | nil => exact distinct
  | cons member added ih =>
    exact ih (Json.isDistinct_put distinct (also _ _ List.mem_cons_self))
      fun key value member => also key value (List.mem_cons_of_mem _ member)

/-- Wherever the value stands, the operations at its pointer turn it into one equal to the target. -/
def Reaches (tokens : List String) (value : Json) (operations : List JsonPatchOperation)
    (target : Json) : Prop :=
  ∀ document : Json, document.at? tokens = some value →
    ∃ after, document.patch operations = some (document.setAt tokens after) ∧
      after.isDistinct = true ∧ jsonValuesEqual after target = true

/-- Patches of different members change each member on its own. -/
theorem patch_members (patches : List (String × List JsonPatchOperation)) (target : String → Json)
    (place : document.at? tokens = some (.object members))
    (keys : (patches.map Prod.fst).Nodup)
    (distinct : Json.isDistinct (.object members) = true)
    (reaches : ∀ key operations, (key, operations) ∈ patches →
      ∃ value, members.lookup key = some value ∧
        Reaches (tokens ++ [key]) value operations (target key)) :
    ∃ after, document.patch (patches.flatMap Prod.snd) =
        some (document.setAt tokens (.object after)) ∧
      Json.isDistinct (.object after) = true ∧
      (∀ key ∈ patches.map Prod.fst, ∃ value, after.lookup key = some value ∧
        jsonValuesEqual value (target key) = true) ∧
      ∀ key, key ∉ patches.map Prod.fst → after.lookup key = members.lookup key := by
  induction patches generalizing document members with
  | nil => exact ⟨members, by simp [Json.setAt_at? place], distinct, by simp⟩
  | cons patch patches ih =>
    obtain ⟨name, operations⟩ := patch
    simp only [List.map_cons, List.nodup_cons] at keys
    obtain ⟨value, found, reach⟩ := reaches name operations (by simp)
    have named : (Json.object members).child? name = some value := found
    obtain ⟨changed, first, also, equal⟩ := reach document (by simp [Json.at?_append, place, named])
    rw [Json.setAt_append place named] at first
    obtain ⟨after, rest, distinct', patched, kept⟩ :=
      ih (Json.at?_setAt (.object (Json.put members name changed)) place) keys.2
        (Json.isDistinct_put distinct also) fun key operations member => by
          obtain ⟨value, found, reach⟩ := reaches key operations (List.mem_cons_of_mem _ member)
          have away : key ≠ name := by
            rintro rfl
            exact keys.1 (List.mem_map_of_mem member)
          exact ⟨value, by rw [Json.lookup_put, if_neg away]; exact found, reach⟩
    refine ⟨after, ?_, distinct', fun key member => ?_, fun key absent => ?_⟩
    · rw [List.flatMap_cons, Json.patch_append, first, Option.bind_some, Json.setChild, rest,
        Json.setAt_setAt place]
    · rw [List.map_cons, List.mem_cons] at member
      by_cases later : key ∈ patches.map Prod.fst
      · exact patched key later
      · obtain rfl := member.resolve_right later
        exact ⟨changed, by rw [kept _ later, Json.lookup_put, if_pos rfl], equal⟩
    · rw [List.map_cons, List.mem_cons, not_or] at absent
      rw [kept key absent.2, Json.lookup_put, if_neg absent.1]

end Phases

theorem lookup_grown {previous current client : List (String × Json)} {key : String}
    (distinct : (current.map Prod.fst).Nodup)
    (shared : (client.lookup key).isSome = (previous.lookup key).isSome) :
    ((inKeyOrder (missingIn current previous)).foldl
        (fun members (key, value) => Json.put members key value)
        (((inKeyOrder (missingIn previous current)).map Prod.fst).foldl Json.drop client)).lookup
          key =
      if (previous.lookup key).isSome
      then (if (current.lookup key).isSome then client.lookup key else none)
      else current.lookup key := by
  rw [lookup_additions (nodup_inKeyOrder (nodup_missingIn _ distinct)), lookup_missingIn distinct,
    lookup_removals]
  simp only [mem_keys_missingIn]
  cases isBefore : previous.lookup key <;> cases isNow : current.lookup key <;>
    cases isMine : client.lookup key <;> simp [isBefore, isMine] at shared ⊢

theorem reaches_nil {tokens : List String} {client target : Json}
    (held : client.isDistinct = true) (equal : jsonValuesEqual client target = true) :
    Reaches tokens client [] target :=
  fun _ place => ⟨client, by simp [Json.setAt_at? place], held, equal⟩

theorem reaches_replace {tokens : List String} {client target : Json}
    (distinct : target.isDistinct = true) :
    Reaches tokens client [⟨.replace target, Json.Pointer.render tokens⟩] target := by
  intro document place
  refine ⟨target, ?_, distinct, jsonValuesEqual_self distinct⟩
  simp [Json.patch, Json.Change.apply_replace target place]

/-- Two objects are patched by removals, additions and the patches of common members. -/
theorem objects_reach {previous current client : List (String × Json)} {tokens : List String}
    (distinct : Json.isDistinct (.object previous) = true)
    (also : Json.isDistinct (.object current) = true)
    (held : Json.isDistinct (.object client) = true)
    (follows : jsonValuesEqual (.object client) (.object previous) = true)
    (common : ∀ key before after value, previous.lookup key = some before →
      current.lookup key = some after → client.lookup key = some value →
      jsonValuesEqual value before = true →
      Reaches (tokens ++ [key]) value
        (jsonPatch before after (Json.Pointer.render (tokens ++ [key]))) after) :
    Reaches tokens (.object client)
      ((inKeyOrder (missingIn previous current)).map
          (fun (key, _) => ⟨.remove, Json.Pointer.render tokens ++ "/" ++ escapeJsonPointer key⟩) ++
        (inKeyOrder (missingIn current previous)).map
          (fun (key, value) =>
            ⟨.add value, Json.Pointer.render tokens ++ "/" ++ escapeJsonPointer key⟩) ++
        (inKeyOrder (memberPatches previous current (Json.Pointer.render tokens))).flatMap Prod.snd)
      (.object current) := by
  intro document place
  obtain ⟨keys, values⟩ := Json.isDistinct_object.mp distinct
  obtain ⟨keys', values'⟩ := Json.isDistinct_object.mp also
  have related := (objectsEqual_iff (Json.isDistinct_object.mp held).1).mp follows
  have shared (key : String) : (client.lookup key).isSome = (previous.lookup key).isSome := by
    have both := related key
    revert both
    cases client.lookup key <;> cases previous.lookup key <;> rintro ⟨⟩ <;> rfl
  set removed := inKeyOrder (missingIn previous current) with isRemoved
  set added := inKeyOrder (missingIn current previous) with isAdded
  set patches := inKeyOrder (memberPatches previous current (Json.Pointer.render tokens))
    with isPatches
  set kept := (removed.map Prod.fst).foldl Json.drop client with isKept
  set grown := added.foldl (fun members (key, value) => Json.put members key value) kept with isGrown
  have removals := patch_removals removed place
    (nodup_inKeyOrder (nodup_missingIn _ keys)) fun key member => by
      rw [shared]
      exact (mem_keys_missingIn.mp member).1
  have additions := patch_additions added (Json.at?_setAt (.object kept) place)
  rw [Json.setAt_setAt place] at additions
  have distinctGrown : Json.isDistinct (.object grown) = true := by
    refine isDistinct_additions (isDistinct_removals held) fun key value member => ?_
    have here := (mem_missingIn.mp (mem_inKeyOrder.mp member)).1
    exact values' key value (Json.lookup_of_mem keys' here)
  have lookupGrown (key : String) : grown.lookup key = if (previous.lookup key).isSome
      then (if (current.lookup key).isSome then client.lookup key else none)
      else current.lookup key := lookup_grown keys' (shared key)
  obtain ⟨after, patched, distinctAfter, changed, same⟩ := patch_members patches
    (fun key => (current.lookup key).getD .null) (Json.at?_setAt (.object grown) place)
    (nodup_inKeyOrder (nodup_memberPatches keys)) distinctGrown fun key operations member => by
      obtain ⟨before, now, isBefore, isNow, rfl⟩ :=
        mem_memberPatches.mp (mem_inKeyOrder.mp member)
      have isBefore := Json.lookup_of_mem keys isBefore
      have both := related key
      rw [isBefore] at both
      cases found : client.lookup key with
      | none => rw [found] at both; cases both
      | some value =>
        rw [found] at both
        cases both with
        | some equal =>
          refine ⟨value, by simp [lookupGrown, isBefore, isNow, found], ?_⟩
          rw [path_append, isNow]
          exact common key before now value isBefore isNow found equal
  rw [Json.setAt_setAt place] at patched
  refine ⟨.object after, ?_, distinctAfter, ?_⟩
  · rw [Json.patch_append, Json.patch_append, removals, Option.bind_some, additions,
      Option.bind_some, patched]
  · refine (objectsEqual_iff (Json.isDistinct_object.mp distinctAfter).1).mpr fun key => ?_
    by_cases member : key ∈ patches.map Prod.fst
    · obtain ⟨value, found, equal⟩ := changed key member
      obtain ⟨now, isNow⟩ := Option.isSome_iff_exists.mp (mem_keys_memberPatches.mp member).2
      rw [isNow] at equal
      rw [found, isNow]
      exact .some equal
    · rw [same key member, lookupGrown]
      have one : ¬((previous.lookup key).isSome = true ∧ (current.lookup key).isSome = true) :=
        fun both => member (mem_keys_memberPatches.mpr both)
      cases isNow : current.lookup key with
      | none => simp
      | some now =>
        have absent : ¬(previous.lookup key).isSome = true := fun some => one ⟨some, by simp [isNow]⟩
        rw [if_neg absent]
        exact .some (jsonValuesEqual_self (values' key now isNow))

/-- The patch between two values turns whatever equals the first into something equal to the
second. -/
theorem jsonPatch_reaches {previous current : Json} (distinct : previous.isDistinct = true)
    (also : current.isDistinct = true) (tokens : List String) {client : Json}
    (held : client.isDistinct = true) (follows : jsonValuesEqual client previous = true) :
    Reaches tokens client (jsonPatch previous current (Json.Pointer.render tokens)) current := by
  induction previous using Json.inductionOn generalizing current tokens client with
  | scalar value notArray notObject =>
    unfold jsonPatch
    split
    · next same => exact reaches_nil held (jsonValuesEqual_trans held distinct follows same)
    · split
      · exact absurd rfl (notObject _)
      · exact reaches_replace also
  | array items ih =>
    unfold jsonPatch
    split
    · next same => exact reaches_nil held (jsonValuesEqual_trans held distinct follows same)
    · exact reaches_replace also
  | object members ih =>
    unfold jsonPatch
    split
    · next same => exact reaches_nil held (jsonValuesEqual_trans held distinct follows same)
    · cases current with
      | object others =>
        cases client with
        | object mine =>
          refine objects_reach distinct also held follows ?_
          intro key before after value isBefore isAfter isValue equal
          exact ih key before (Json.mem_of_lookup isBefore)
            ((Json.isDistinct_object.mp distinct).2 key before isBefore)
            ((Json.isDistinct_object.mp also).2 key after isAfter) _
            ((Json.isDistinct_object.mp held).2 key value isValue) equal
        | _ => simp [jsonValuesEqual] at follows
      | _ => exact reaches_replace also

theorem jsonPatch_eq_nil {previous current : Json} (distinct : previous.isDistinct = true)
    (also : current.isDistinct = true) :
    jsonPatch previous current "" = [] ↔ jsonValuesEqual previous current = true := by
  constructor
  · intro none
    obtain ⟨after, patched, -, equal⟩ := jsonPatch_reaches distinct also [] distinct
      (jsonValuesEqual_self distinct) previous rfl
    rw [show Json.Pointer.render [] = "" from rfl, none, Json.patch_nil, Option.some.injEq,
      Json.setAt] at patched
    exact patched ▸ equal
  · intro same
    unfold jsonPatch
    rw [if_pos same]

/-! ## Public state -/

mutual

/-- Remove verified provider metadata paths. -/
def filterProviderMetadata : Json → Json
  | .array items => .array (filterItems items)
  | .object members => .object (filterMembers members)
  | value => value

def filterItems : List Json → List Json
  | [] => []
  | item :: items => filterProviderMetadata item :: filterItems items

def filterMembers : List (String × Json) → List (String × Json)
  | [] => []
  | (key, child) :: members =>
    (key,
      match child with
      | .object nested =>
        if key = "additional_kwargs" then
          .object ((filterNested nested).filter fun member => member.1 ≠ "reasoning_content")
        else .object (filterMembers nested)
      | other => filterProviderMetadata other) :: filterMembers members

/-- The members of a metadata container. -/
def filterNested : List (String × Json) → List (String × Json)
  | [] => []
  | (key, child) :: members => (key, filterProviderMetadata child) :: filterNested members

end

/-- A member of an object that is no metadata container itself. -/
def filterMember (key : String) (child : Json) : Json :=
  match child with
  | .object nested =>
    if key = "additional_kwargs" then
      .object ((filterNested nested).filter fun member => member.1 ≠ "reasoning_content")
    else .object (filterMembers nested)
  | other => filterProviderMetadata other

theorem filterMembers_eq (members : List (String × Json)) :
    filterMembers members = members.map fun (key, child) => (key, filterMember key child) := by
  induction members with
  | nil => rfl
  | cons member members ih =>
    obtain ⟨key, child⟩ := member
    cases child <;> simp [filterMembers, filterMember, ih]

theorem filterItems_eq (items : List Json) : filterItems items = items.map filterProviderMetadata := by
  induction items with
  | nil => rfl
  | cons item items ih => simp [filterItems, ih]

theorem filterNested_eq (members : List (String × Json)) :
    filterNested members = members.map fun (key, child) => (key, filterProviderMetadata child) := by
  induction members with
  | nil => rfl
  | cons member members ih => simp [filterNested, ih]

theorem filterMember_cases (key : String) (child : Json) :
    filterMember key child = filterProviderMetadata child ∨ ∃ nested, child = .object nested ∧
      filterMember key child = .object ((filterNested nested).filter fun member =>
        member.1 ≠ "reasoning_content") := by
  unfold filterMember
  split
  · next nested =>
      split
      · exact .inr ⟨nested, rfl, rfl⟩
      · exact .inl rfl
  · exact .inl rfl

/-- Filtering keeps keys distinct, in a value and in the members of a metadata container. -/
theorem isDistinct_filter {value : Json} (distinct : value.isDistinct = true) :
    (filterProviderMetadata value).isDistinct = true ∧
      ∀ members, value = .object members → Json.isDistinct (.object (filterNested members)) = true := by
  induction value using Json.inductionOn with
  | scalar value notArray notObject =>
    refine ⟨?_, fun members same => absurd same (notObject members)⟩
    cases value with
    | array items => exact absurd rfl (notArray items)
    | object members => exact absurd rfl (notObject members)
    | _ => rfl
  | array items ih =>
    refine ⟨?_, by simp⟩
    rw [filterProviderMetadata, filterItems_eq]
    refine Json.areDistinct_iff.mpr fun item member => ?_
    obtain ⟨old, here, rfl⟩ := List.mem_map.mp member
    exact (ih old here (Json.areDistinct_iff.mp distinct old here)).1
  | object members ih =>
    simp only [Json.isDistinct, Bool.and_eq_true, decide_eq_true_eq,
      Json.membersDistinct_iff] at distinct
    obtain ⟨keys, values⟩ := distinct
    simp only [filterProviderMetadata, filterMembers_eq]
    constructor
    · simp only [Json.isDistinct, Bool.and_eq_true, decide_eq_true_eq, Json.membersDistinct_iff,
        List.map_map]
      refine ⟨keys, fun key value member => ?_⟩
      obtain ⟨⟨name, child⟩, here, same⟩ := List.mem_map.mp member
      obtain ⟨rfl, rfl⟩ := Prod.mk.inj same
      have filtered := ih name child here (values name child here)
      obtain plain | ⟨nested, rfl, container⟩ := filterMember_cases name child
      · exact plain ▸ filtered.1
      · exact container ▸ Json.isDistinct_sublist (filtered.2 nested rfl) List.filter_sublist
    · rintro _ ⟨⟩
      simp only [filterNested_eq, Json.isDistinct, Bool.and_eq_true, decide_eq_true_eq,
        Json.membersDistinct_iff, List.map_map]
      refine ⟨keys, fun key value member => ?_⟩
      obtain ⟨⟨name, child⟩, here, same⟩ := List.mem_map.mp member
      obtain ⟨rfl, rfl⟩ := Prod.mk.inj same
      exact (ih name child here (values name child here)).1

/-- A root values part: the state of the graph, the lifecycles that are open when it arrives, and
what comes of matching its interrupts with those of the child graphs, which may refuse it. -/
structure RootValuesPart where
  data : List (String × Json)
  distinct : Json.isDistinct (.object data) = true
  openLifecycles : List String := []
  preparedInterrupts : Except String (List String) := .ok []

/-- The state without messages and private channels. -/
def RootValuesPart.current (privateStateKeys : List String) (part : RootValuesPart) : Json :=
  filterProviderMetadata (.object (part.data.filter fun member =>
    member.1 ≠ "messages" ∧ member.1 ∉ privateStateKeys))

theorem RootValuesPart.isDistinct_current (privateStateKeys : List String) (part : RootValuesPart) :
    (part.current privateStateKeys).isDistinct = true :=
  (isDistinct_filter (Json.isDistinct_sublist part.distinct List.filter_sublist)).1

inductive RootEvent
  | lifecycleEnd (id : String)
  | stateSnapshot (snapshot : Json)
  | messagesSnapshot
  | stateDelta (delta : List JsonPatchOperation)

/-- Synchronize root state: the events of a part and the state that the client was sent last. -/
def emitValuesPart (privateStateKeys : List String) (previousRootState : Option Json)
    (part : RootValuesPart) : Except String (List RootEvent × Option Json) :=
  part.preparedInterrupts.map fun interrupts =>
    let current := part.current privateStateKeys
    let events := part.openLifecycles.map RootEvent.lifecycleEnd
    if interrupts ≠ [] then
      (events ++ [.stateSnapshot current, .messagesSnapshot], some current)
    else
      match previousRootState, current with
      | none, .object [] => (events, none)
      | none, _ => (events ++ [.stateSnapshot current], some current)
      | some previous, _ =>
        let operations := jsonPatch previous current ""
        (if operations ≠ [] then events ++ [.stateDelta operations] else events, some current)

/-! ## The client -/

/-- The state of a client after one event; a delta before any snapshot, or one that does not apply,
is an error. -/
def receive (client : Option Json) : RootEvent → Option (Option Json)
  | .stateSnapshot snapshot => some (some snapshot)
  | .stateDelta delta => client.bind fun document => (document.patch delta).map some
  | .lifecycleEnd _ | .messagesSnapshot => some client

/-- The adapter's record of the state that it sent, and the client. -/
structure RootSync where
  previousRootState : Option Json := none
  client : Option Json := none

/-- One part is processed and its events arrive; a part that is refused has none. -/
def RootSync.next (privateStateKeys : List String) (sync : RootSync) (part : RootValuesPart) :
    Option RootSync :=
  match emitValuesPart privateStateKeys sync.previousRootState part with
  | .error _ => some sync
  | .ok (events, previousRootState) =>
    (events.foldlM receive sync.client).map fun client => { previousRootState, client }

/-- Parts one after the other; nothing if the client met an error. -/
def RootSync.run (privateStateKeys : List String) (sync : RootSync) (parts : List RootValuesPart) :
    Option RootSync :=
  parts.foldlM (RootSync.next privateStateKeys) sync

/-- An event that changes the state of the client. -/
def RootEvent.isState : RootEvent → Bool
  | .stateSnapshot _ | .stateDelta _ => true
  | .lifecycleEnd _ | .messagesSnapshot => false

/-! ## The client follows -/

/-- The client holds what the adapter recorded, or neither holds anything. -/
def RootSync.Synced (sync : RootSync) : Prop :=
  match sync.previousRootState, sync.client with
  | none, none => True
  | some previous, some document => previous.isDistinct = true ∧ document.isDistinct = true ∧
      jsonValuesEqual document previous = true
  | _, _ => False

/-- What an accepted part does: the client holds its public state, unless there was nothing to hold
yet; patches apply to what the client held; and no state event is sent exactly when the state is the
one that was sent last, or empty before any, and the part has no interrupts. -/
structure Tracks (current : Json) (interrupts : List String) (events : List RootEvent)
    (before after : RootSync) : Prop where
  shown : ∀ document, after.client = some document → jsonValuesEqual document current = true
  hidden : after.client = none → before.client = none ∧ interrupts = [] ∧ current = .object []
  recorded : after.previousRootState = after.client.map fun _ => current
  applies : ∀ delta, .stateDelta delta ∈ events →
    ∃ document, before.client = some document ∧ (document.patch delta).isSome
  quiet : events.any RootEvent.isState = false ↔ interrupts = [] ∧
    match before.previousRootState with
    | none => current = .object []
    | some previous => jsonValuesEqual previous current = true

/-- The part leads from one state of adapter and client to the next, which the client tracks. -/
def RootValuesPart.Leads (part : RootValuesPart) (privateStateKeys : List String)
    (interrupts : List String) (sync after : RootSync) : Prop :=
  after.Synced ∧ ∃ events,
    emitValuesPart privateStateKeys sync.previousRootState part =
      .ok (events, after.previousRootState) ∧
    events.foldlM receive sync.client = some after.client ∧
    Tracks (part.current privateStateKeys) interrupts events sync after

@[simp] theorem receive_ends (ids : List String) (client : Option Json) :
    (ids.map RootEvent.lifecycleEnd).foldlM receive client = some client := by
  induction ids with
  | nil => rfl
  | cons id ids ih => simpa [receive] using ih

section Parts

variable {privateStateKeys interrupts : List String} {sync : RootSync} {part : RootValuesPart}

/-- Interrupts come with a snapshot. -/
theorem leads_interrupted (prepared : part.preparedInterrupts = .ok interrupts)
    (interrupted : interrupts ≠ []) :
    part.Leads privateStateKeys interrupts sync
      ⟨some (part.current privateStateKeys), some (part.current privateStateKeys)⟩ := by
  have distinct := part.isDistinct_current privateStateKeys
  have equal := jsonValuesEqual_self distinct
  refine ⟨⟨distinct, distinct, equal⟩, part.openLifecycles.map .lifecycleEnd ++
    [.stateSnapshot (part.current privateStateKeys), .messagesSnapshot],
    by simp [emitValuesPart, prepared, Except.map, interrupted], by simp [receive], ?_⟩
  constructor
  · rintro _ ⟨⟩
    exact equal
  · rintro ⟨⟩
  · rfl
  · simp
  · simp [RootEvent.isState, interrupted]

theorem leads_blank (prepared : part.preparedInterrupts = .ok [])
    (recorded : sync.previousRootState = none) (unsent : sync.client = none)
    (empty : part.current privateStateKeys = .object []) :
    part.Leads privateStateKeys [] sync ⟨none, none⟩ := by
  refine ⟨trivial, part.openLifecycles.map .lifecycleEnd,
    by simp [emitValuesPart, prepared, Except.map, recorded, empty], by simp [unsent], ?_⟩
  constructor
  · rintro _ ⟨⟩
  · exact fun _ => ⟨unsent, rfl, empty⟩
  · rfl
  · simp
  · simp [recorded, empty, RootEvent.isState]

/-- The first state to show is sent as a snapshot. -/
theorem leads_first (prepared : part.preparedInterrupts = .ok [])
    (recorded : sync.previousRootState = none) (filled : part.current privateStateKeys ≠ .object []) :
    part.Leads privateStateKeys [] sync
      ⟨some (part.current privateStateKeys), some (part.current privateStateKeys)⟩ := by
  have distinct := part.isDistinct_current privateStateKeys
  have equal := jsonValuesEqual_self distinct
  refine ⟨⟨distinct, distinct, equal⟩, part.openLifecycles.map .lifecycleEnd ++
    [.stateSnapshot (part.current privateStateKeys)], ?_, by simp [receive], ?_⟩
  · simp only [emitValuesPart, prepared, Except.map, recorded, ne_eq, not_true_eq_false, if_false]
  · constructor
    · rintro _ ⟨⟩
      exact equal
    · rintro ⟨⟩
    · rfl
    · simp
    · simp [recorded, filled, RootEvent.isState]

/-- Later states are sent as the patch from the one that was sent last. -/
theorem leads_later (prepared : part.preparedInterrupts = .ok []) {previous document : Json}
    (recorded : sync.previousRootState = some previous) (held : sync.client = some document)
    (was : previous.isDistinct = true) (mine : document.isDistinct = true)
    (follows : jsonValuesEqual document previous = true) :
    ∃ after, part.Leads privateStateKeys [] sync
      ⟨some (part.current privateStateKeys), some after⟩ := by
  have distinct := part.isDistinct_current privateStateKeys
  obtain ⟨after, patched, also, equal⟩ :=
    jsonPatch_reaches was distinct [] mine follows document rfl
  have nothing := jsonPatch_eq_nil was distinct
  change document.patch (jsonPatch previous _ "") = some after at patched
  set operations := jsonPatch previous (part.current privateStateKeys) "" with isPatch
  refine ⟨after, ⟨distinct, also, equal⟩, part.openLifecycles.map .lifecycleEnd ++
    (if operations = [] then [] else [.stateDelta operations]), ?_, ?_, ?_⟩
  · simp only [emitValuesPart, prepared, Except.map, recorded, ne_eq, not_true_eq_false, if_false,
      ← isPatch]
    by_cases same : operations = [] <;> simp [same]
  · by_cases same : operations = []
    · rw [same] at patched
      simp [same, held, Option.some.inj patched]
    · simp [same, held, receive, patched]
  · constructor
    · rintro _ ⟨⟩
      exact equal
    · rintro ⟨⟩
    · rfl
    · intro delta member
      by_cases same : operations = []
      · simp [same] at member
      · obtain rfl : delta = operations := by simpa [same] using member
        exact ⟨document, held, by simp [patched]⟩
    · by_cases same : operations = []
      · simpa [same, recorded, RootEvent.isState] using nothing.mp same
      · simpa [same, recorded, RootEvent.isState] using mt nothing.mpr same

/-- One part keeps the client in step. -/
theorem next_tracks (synced : sync.Synced) (privateStateKeys : List String)
    (part : RootValuesPart) : ∃ after, sync.next privateStateKeys part = some after ∧
      after.Synced ∧ match part.preparedInterrupts with
      | .error _ => after = sync
      | .ok interrupts => part.Leads privateStateKeys interrupts sync after := by
  have arrives {interrupts : List String} {after : RootSync}
      (leads : part.Leads privateStateKeys interrupts sync after) :
      sync.next privateStateKeys part = some after := by
    obtain ⟨-, events, emitted, received, -⟩ := leads
    simp [RootSync.next, emitted, received]
  cases prepared : part.preparedInterrupts with
  | error error =>
    exact ⟨sync, by simp [RootSync.next, emitValuesPart, prepared, Except.map], synced, rfl⟩
  | ok interrupts =>
    suffices leads : ∃ after, part.Leads privateStateKeys interrupts sync after by
      obtain ⟨after, leads⟩ := leads
      exact ⟨after, arrives leads, leads.1, leads⟩
    by_cases interrupted : interrupts = []
    · subst interrupted
      unfold RootSync.Synced at synced
      cases recorded : sync.previousRootState with
      | none =>
        cases held : sync.client with
        | none =>
          by_cases empty : part.current privateStateKeys = .object []
          · exact ⟨_, leads_blank prepared recorded held empty⟩
          · exact ⟨_, leads_first prepared recorded empty⟩
        | some document => simp [recorded, held] at synced
      | some previous =>
        cases held : sync.client with
        | none => simp [recorded, held] at synced
        | some document =>
          simp only [recorded, held] at synced
          obtain ⟨after, leads⟩ :=
            leads_later prepared recorded held synced.1 synced.2.1 synced.2.2
          exact ⟨_, leads⟩
    · exact ⟨_, leads_interrupted prepared interrupted⟩

end Parts

/-- A client that replaces its state on every snapshot and applies every delta never meets an error.
After each part that is accepted it holds the public state of the part, up to the order of members
and the sign of zeros, unless there was no state to send yet; no delta precedes a snapshot, and
without interrupts no state event is sent exactly when the state is the one that was sent last. -/
theorem client_tracks_root_state (privateStateKeys : List String) (parts : List RootValuesPart) :
    ∃ sync, RootSync.run privateStateKeys {} parts = some sync ∧
      ∀ part, ∃ after, sync.next privateStateKeys part = some after ∧
        match part.preparedInterrupts with
        | .error _ => after = sync
        | .ok interrupts => part.Leads privateStateKeys interrupts sync after := by
  obtain ⟨sync, reached, synced⟩ : ∃ sync, RootSync.run privateStateKeys {} parts = some sync ∧
      sync.Synced := by
    induction parts using List.reverseRecOn with
    | nil => exact ⟨{}, rfl, trivial⟩
    | append_singleton parts part ih =>
      obtain ⟨sync, reached, synced⟩ := ih
      obtain ⟨after, next, held, -⟩ := next_tracks synced privateStateKeys part
      refine ⟨after, ?_, held⟩
      unfold RootSync.run at reached ⊢
      simp [List.foldlM_append, reached, next]
  refine ⟨sync, reached, fun part => ?_⟩
  obtain ⟨after, next, -, leads⟩ := next_tracks synced privateStateKeys part
  exact ⟨after, next, leads⟩

/-- A part that shows one channel. -/
def samplePart (interrupts : List String) : RootValuesPart where
  data := [("step", .int 1)]
  distinct := by decide
  preparedInterrupts := .ok interrupts

/-- An interrupt repeats the snapshot of a state that the client holds already. -/
theorem interrupt_repeats_snapshot :
    ¬∀ (parts : List RootValuesPart) (part : RootValuesPart) (sync : RootSync),
      RootSync.run [] {} parts = some sync →
      sync.previousRootState.any (jsonValuesEqual · (part.current [])) = true →
      ∀ events previous, emitValuesPart [] sync.previousRootState part = .ok (events, previous) →
        events.any RootEvent.isState = false := by
  intro quiet
  have repeated := quiet [samplePart []] (samplePart ["interrupt"])
    ⟨some (.object [("step", .int 1)]), some (.object [("step", .int 1)])⟩ (by rfl) (by rfl) _ _ rfl
  simp [RootEvent.isState, samplePart] at repeated

end Tinkerfin.Agui
