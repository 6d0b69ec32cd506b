import Mathlib
import Tinkerfin.Lib.JsonPatch

/-!
# JSON in a heap of objects

Objects and arrays are cells of a heap, and values refer to them by address.  A value stands for a
JSON tree when its cells spell the tree and no cell is reached on two ways.  Such a tree can be
copied into fresh cells, and a write to one of its cells changes the tree in one place.
-/

namespace ObjectHeap

/-! ## The heap -/

inductive Value
  | scalar (value : Json)
  | reference (address : Nat)

inductive Content
  | object (properties : List (String × Value))
  | array (items : List Value)

/-- An object with its own properties; the prototype is the address of another one. -/
structure Cell where
  prototype : Nat
  content : Content

abbrev Heap := List Cell

/-- The prototypes of plain objects and of arrays are the first cells. -/
def objectPrototype : Nat := 0

def arrayPrototype : Nat := 1

/-- The place of a child: the key of a member, or the position of an item. -/
inductive Slot
  | key (name : String)
  | index (position : Nat)
  deriving DecidableEq

def Content.at? : Content → Slot → Option Value
  | .object properties, .key name => properties.lookup name
  | .array items, .index position => items[position]?
  | _, _ => none

/-- The child of a JSON value. -/
def slot? : Json → Slot → Option Json
  | .object members, .key name => members.lookup name
  | .array items, .index position => items[position]?
  | _, _ => none

/-- Content and value are of one kind, with the same keys or the same length. -/
def Content.Shapes : Content → Json → Prop
  | .object properties, .object members => properties.map Prod.fst = members.map Prod.fst
  | .array items, .array others => items.length = others.length
  | _, _ => False

def isScalar : Json → Bool
  | .array _ | .object _ => false
  | _ => true

/-- A value stands for a JSON tree with a set of cells.  The children of a cell have cells of their
own. -/
inductive Tree (heap : Heap) : Value → Json → Set Nat → Prop
  | scalar {value : Json} (plain : isScalar value = true) : Tree heap (.scalar value) value ∅
  | cell {address : Nat} {cell : Cell} {json : Json} {parts : Slot → Set Nat}
      (found : heap[address]? = some cell) (shape : cell.content.Shapes json)
      (children : ∀ slot value child, cell.content.at? slot = some value →
        slot? json slot = some child → Tree heap value child (parts slot))
      (empty : ∀ slot, cell.content.at? slot = none → parts slot = ∅)
      (outside : ∀ slot, address ∉ parts slot)
      (apart : ∀ slot other, slot ≠ other → Disjoint (parts slot) (parts other)) :
      Tree heap (.reference address) json (insert address (⋃ slot, parts slot))

section Shapes

variable {content : Content} {json child : Json} {slot : Slot} {value : Value}

/-- Both have the same children. -/
theorem Content.Shapes.isSome (shape : content.Shapes json) (slot : Slot) :
    (content.at? slot).isSome = (slot? json slot).isSome := by
  have sameKeys {properties : List (String × Value)} {members : List (String × Json)}
      (same : properties.map Prod.fst = members.map Prod.fst) (name : String) :
      (properties.lookup name).isSome = (members.lookup name).isSome := by
    rw [Bool.eq_iff_iff, Json.lookup_isSome_iff, List.lookup_isSome_iff, ← same]
    simp
  cases content with
  | object properties =>
    cases json with
    | object members =>
      cases slot with
      | key name => exact sameKeys shape name
      | index position => rfl
    | _ => exact shape.elim
  | array items =>
    cases json with
    | array others =>
      cases slot with
      | key name => rfl
      | index position =>
        change items.length = others.length at shape
        change items[position]?.isSome = others[position]?.isSome
        rw [Bool.eq_iff_iff, isSome_getElem?, isSome_getElem?,
          show items.length = others.length from shape]
    | _ => exact shape.elim

end Shapes

/-! ## Trees -/

section Trees

variable {heap after : Heap} {value : Value} {json : Json} {cells : Set Nat}

theorem Tree.frame (tree : Tree heap value json cells)
    (same : ∀ address ∈ cells, after[address]? = heap[address]?) : Tree after value json cells := by
  induction tree with
  | scalar plain => exact .scalar plain
  | cell found shape children empty outside apart induction =>
    refine .cell ((same _ (Set.mem_insert _ _)).trans found) shape ?_ empty outside apart
    intro slot value child here there
    refine induction slot value child here there fun address member => same address ?_
    exact Set.mem_insert_of_mem _ (Set.mem_iUnion.mpr ⟨slot, member⟩)

theorem Tree.bounded (tree : Tree heap value json cells) : ∀ address ∈ cells, address < heap.length := by
  induction tree with
  | scalar plain => exact fun _ member => member.elim
  | @cell _ cell _ parts found shape children empty outside apart induction =>
    rintro address (rfl | member)
    · exact (List.getElem?_eq_some_iff.mp found).1
    · obtain ⟨slot, member⟩ := Set.mem_iUnion.mp member
      cases here : cell.content.at? slot with
      | none =>
        rw [empty slot here] at member
        exact member.elim
      | some value =>
        have both := shape.isSome slot
        rw [here] at both
        obtain ⟨child, there⟩ := Option.isSome_iff_exists.mp both.symm
        exact induction slot value child here there address member

theorem Tree.eq_scalar {scalar : Json} (tree : Tree heap (.scalar scalar) json cells) :
    json = scalar ∧ isScalar json = true := by
  cases tree with
  | scalar plain => exact ⟨rfl, plain⟩

theorem Tree.isScalar_reference {address : Nat} (tree : Tree heap (.reference address) json cells) :
    isScalar json = false := by
  cases tree with
  | @cell _ cell _ _ found shape =>
    cases content : cell.content <;> cases json <;> simp_all [Content.Shapes, isScalar]

theorem Tree.mem_self {address : Nat} (tree : Tree heap (.reference address) json cells) :
    address ∈ cells := by
  cases tree with
  | cell => exact Set.mem_insert _ _

theorem Tree.empty {address prototype : Nat}
    (found : heap[address]? = some { prototype, content := .object [] }) :
    Tree heap (.reference address) (.object []) (insert address (⋃ _ : Slot, ∅)) := by
  refine .cell found rfl ?_ (fun _ _ => rfl) (fun _ => Set.notMem_empty _)
    fun _ _ _ => Set.disjoint_empty _
  intro slot value child here
  cases slot <;> cases here

/-- A cell whose children are those of another cell under a map of places, one place apart that has a
tree of its own. -/
theorem Tree.rebuild {address : Nat} {cell changed : Cell} {json altered fresh : Json}
    {parts : Slot → Set Nat} {own : Set Nat} {target : Slot} {source : Slot → Slot} {value : Value}
    (shape : cell.content.Shapes json)
    (children : ∀ slot value child, cell.content.at? slot = some value →
      slot? json slot = some child → Tree heap value child (parts slot))
    (empty : ∀ slot, cell.content.at? slot = none → parts slot = ∅)
    (outside : ∀ slot, address ∉ parts slot)
    (apart : ∀ slot other, slot ≠ other → Disjoint (parts slot) (parts other))
    (placed : after[address]? = some changed) (shaped : changed.content.Shapes altered)
    (kept : ∀ slot, slot ≠ target → changed.content.at? slot = cell.content.at? (source slot) ∧
      slot? altered slot = slot? json (source slot))
    (injective : ∀ slot other, slot ≠ target → other ≠ target → source slot = source other →
      slot = other)
    (same : ∀ slot, slot ≠ target → ∀ address ∈ parts (source slot),
      after[address]? = heap[address]?)
    (here : ∀ found child, changed.content.at? target = some found →
      slot? altered target = some child → found = value ∧ child = fresh)
    (tree : Tree after value fresh own)
    (gone : changed.content.at? target = none → own = ∅)
    (away : address ∉ own)
    (disjoint : ∀ slot, slot ≠ target → Disjoint own (parts (source slot))) :
    Tree after (.reference address) altered
      (insert address (⋃ slot, if slot = target then own else parts (source slot))) := by
  refine .cell placed shaped ?_ ?_ ?_ ?_
  · intro slot found child at_ there
    split
    · next isTarget =>
        subst isTarget
        obtain ⟨rfl, rfl⟩ := here found child at_ there
        exact tree
    · next other =>
        obtain ⟨old, oldJson⟩ := kept slot other
        exact (children _ found child (old ▸ at_) (oldJson ▸ there)).frame (same slot other)
  · intro slot none
    split
    · next isTarget => exact gone (isTarget ▸ none)
    · next other => exact empty _ ((kept slot other).1 ▸ none)
  · intro slot
    split
    · exact away
    · exact outside _
  · intro slot other distinct
    by_cases isTarget : slot = target
    · rw [if_pos isTarget, if_neg (isTarget ▸ distinct.symm)]
      exact disjoint other (isTarget ▸ distinct.symm)
    · rw [if_neg isTarget]
      by_cases otherTarget : other = target
      · rw [if_pos otherTarget]
        exact (disjoint slot isTarget).symm
      · rw [if_neg otherTarget]
        exact apart _ _ fun collide => distinct (injective slot other isTarget otherTarget collide)

end Trees

/-! ## Copies -/

def Value.relocated (offset : Nat) : Value → Value
  | .scalar value => .scalar value
  | .reference address => .reference (address + offset)

def Cell.relocated (offset : Nat) (cell : Cell) : Cell :=
  match cell.content with
  | .object properties =>
    { prototype := objectPrototype
      content := .object (properties.map fun (key, value) => (key, value.relocated offset)) }
  | .array items =>
    { prototype := arrayPrototype, content := .array (items.map (Value.relocated offset)) }

/-- A deep copy of a value.  All cells are copied, so that references among them, shared or circular,
become references among the copies; copies that the value does not reach are never used. -/
def structuredClone (heap : Heap) (value : Value) : Value × Heap :=
  (value.relocated heap.length, heap ++ heap.map (Cell.relocated heap.length))

section Copies

variable {heap : Heap} {value : Value} {json : Json} {cells : Set Nat}

theorem at?_relocated (cell : Cell) (offset : Nat) (slot : Slot) :
    (cell.relocated offset).content.at? slot =
      (cell.content.at? slot).map (Value.relocated offset) := by
  have lookup (properties : List (String × Value)) (name : String) :
      (properties.map fun (key, value) => (key, value.relocated offset)).lookup name =
        (properties.lookup name).map (Value.relocated offset) := by
    induction properties with
    | nil => rfl
    | cons member properties induction =>
      rw [List.map_cons, List.lookup_cons, List.lookup_cons, induction]
      split <;> rfl
  obtain ⟨prototype, content⟩ := cell
  cases content with
  | object properties =>
    cases slot with
    | key name => exact lookup properties name
    | index position => rfl
  | array items =>
    cases slot with
    | key name => rfl
    | index position => exact List.getElem?_map

theorem shapes_relocated {cell : Cell} (offset : Nat) (shape : cell.content.Shapes json) :
    (cell.relocated offset).content.Shapes json := by
  obtain ⟨prototype, content⟩ := cell
  cases content <;> cases json <;>
    simp_all [Content.Shapes, Cell.relocated, Function.comp_def]

/-- The copy of a tree is the same tree in fresh cells. -/
theorem Tree.clone (tree : Tree heap value json cells) :
    Tree (structuredClone heap value).2 (structuredClone heap value).1 json
      ((· + heap.length) '' cells) := by
  simp only [structuredClone]
  induction tree with
  | scalar plain =>
    rw [Set.image_empty]
    exact .scalar plain
  | @cell address cell json parts found shape children empty outside apart induction =>
    rw [Set.image_insert_eq, Set.image_iUnion]
    have copied : (heap ++ heap.map (Cell.relocated heap.length))[address + heap.length]? =
        some (cell.relocated heap.length) := by
      rw [List.getElem?_append_right (Nat.le_add_left _ _), Nat.add_sub_cancel, List.getElem?_map,
        found, Option.map_some]
    refine .cell copied (shapes_relocated _ shape) ?_ ?_ ?_ ?_
    · intro slot value child here there
      rw [at?_relocated, Option.map_eq_some_iff] at here
      obtain ⟨original, here, rfl⟩ := here
      exact induction slot original child here there
    · intro slot none
      rw [at?_relocated, Option.map_eq_none_iff] at none
      rw [empty slot none, Set.image_empty]
    · rintro slot ⟨other, member, same⟩
      obtain rfl : other = address := Nat.add_right_cancel same
      exact outside slot member
    · intro slot other distinct
      exact (Set.disjoint_image_iff fun _ _ same => Nat.add_right_cancel same).mpr (apart slot other distinct)

theorem fresh_clone : ∀ address ∈ (· + heap.length) '' cells, heap.length ≤ address := by
  rintro _ ⟨address, -, rfl⟩
  exact Nat.le_add_left _ _

theorem prefix_clone (heap : Heap) (value : Value) : heap <+: (structuredClone heap value).2 :=
  List.prefix_append _ _

end Copies

/-! ## Edits -/

/-- The properties with a value under one key, in the place of the old one or at the end. -/
def define : List (String × Value) → String → Value → List (String × Value)
  | [], key, value => [(key, value)]
  | (other, old) :: properties, key, value =>
    if other = key then (key, value) :: properties else (other, old) :: define properties key value

/-- The properties without one key. -/
def delete (properties : List (String × Value)) (key : String) : List (String × Value) :=
  properties.filter fun property => property.1 ≠ key

/-- The value with another child in the place of an existing one. -/
def setSlot : Json → Slot → Json → Json
  | .object members, .key name, child => .object (Json.put members name child)
  | .array items, .index position, child => .array (items.set position child)
  | other, _, _ => other

/-- Content and JSON value are changed alike: outside of one place their children come from places
of before, and that place has a given child or none. -/
structure Edit (content changed : Content) (json altered : Json) (target : Slot)
    (source : Slot → Slot) (child : Option (Value × Json)) : Prop where
  shaped : changed.Shapes altered
  kept : ∀ slot, slot ≠ target → changed.at? slot = content.at? (source slot) ∧
    slot? altered slot = slot? json (source slot)
  injective : ∀ slot other, slot ≠ target → other ≠ target → source slot = source other → slot = other
  value : changed.at? target = child.map Prod.fst
  json : slot? altered target = child.map Prod.snd

section Edits

variable {properties : List (String × Value)} {members : List (String × Json)}
  {items : List Value} {others : List Json} {value : Value} {child : Json} {name : String}
  {position : Nat}

theorem lookup_property (name key : String) (value : Value) (properties : List (String × Value)) :
    ((name, value) :: properties).lookup key =
      if key = name then some value else properties.lookup key := by
  rw [List.lookup_cons]
  by_cases same : key = name
  · simp [same]
  · simp [same, beq_false_of_ne same]

theorem lookup_define (key : String) : (define properties name value).lookup key =
    if key = name then some value else properties.lookup key := by
  induction properties with
  | nil => rw [define, lookup_property]
  | cons property properties induction =>
    obtain ⟨other, old⟩ := property
    rw [define]
    split
    · next same =>
        rw [lookup_property, lookup_property, same]
        split <;> rfl
    · next different =>
        rw [lookup_property, lookup_property, induction]
        by_cases here : key = other
        · rw [if_pos here, if_pos here, if_neg (here ▸ different)]
        · rw [if_neg here, if_neg here]

theorem keys_define : (define properties name value).map Prod.fst =
    if name ∈ properties.map Prod.fst then properties.map Prod.fst
    else properties.map Prod.fst ++ [name] := by
  induction properties with
  | nil => rfl
  | cons property properties induction =>
    obtain ⟨other, old⟩ := property
    rw [define]
    by_cases same : other = name
    · simp [same]
    · have different : ¬name = other := fun equal => same equal.symm
      simp only [if_neg same, List.map_cons, induction, List.mem_cons, different, false_or]
      split <;> rfl

theorem lookup_delete (key : String) : (delete properties name).lookup key =
    if key = name then none else properties.lookup key := by
  induction properties with
  | nil => simp [delete]
  | cons property properties induction =>
    obtain ⟨other, old⟩ := property
    rw [delete] at induction ⊢
    by_cases same : other = name
    · rw [List.filter_cons_of_neg (by simpa using same), induction, lookup_property, same]
      split <;> rfl
    · rw [List.filter_cons_of_pos (by simpa using same), lookup_property, lookup_property, induction]
      by_cases here : key = other
      · rw [if_pos here, if_pos here, if_neg (here ▸ same)]
      · rw [if_neg here, if_neg here]

theorem keys_delete : (delete properties name).map Prod.fst =
    (properties.map Prod.fst).filter fun key => key ≠ name := by
  rw [delete, List.filter_map]
  rfl

/-- A member is defined. -/
theorem Edit.define (same : properties.map Prod.fst = members.map Prod.fst) :
    Edit (.object properties) (.object (define properties name value)) (.object members)
      (.object (Json.put members name child)) (.key name) id (some (value, child)) where
  shaped := by
    change (ObjectHeap.define properties name value).map Prod.fst = (Json.put members name child).map Prod.fst
    rw [keys_define, Json.keys_put, same]
  kept slot other := by
    cases slot with
    | key key =>
      have different : key ≠ name := fun equal => other (equal ▸ rfl)
      simp only [Content.at?, slot?, lookup_define, Json.lookup_put, if_neg different, id]
      exact ⟨trivial, trivial⟩
    | index position => exact ⟨rfl, rfl⟩
  injective slot other _ _ equal := equal
  value := by simp [Content.at?, lookup_define]
  json := by simp [slot?, Json.lookup_put]

/-- A member is deleted. -/
theorem Edit.delete (same : properties.map Prod.fst = members.map Prod.fst) :
    Edit (.object properties) (.object (delete properties name)) (.object members)
      (.object (Json.drop members name)) (.key name) id none where
  shaped := by
    change (ObjectHeap.delete properties name).map Prod.fst = (Json.drop members name).map Prod.fst
    rw [keys_delete, same, Json.drop, List.filter_map]
    rfl
  kept slot other := by
    cases slot with
    | key key =>
      have different : key ≠ name := fun equal => other (equal ▸ rfl)
      simp only [Content.at?, slot?, lookup_delete, Json.lookup_drop, if_neg different, id]
      exact ⟨trivial, trivial⟩
    | index position => exact ⟨rfl, rfl⟩
  injective slot other _ _ equal := equal
  value := by simp [Content.at?, lookup_delete]
  json := by simp [slot?, Json.lookup_drop]

theorem Edit.set (same : items.length = others.length) (inside : position < others.length) :
    Edit (.array items) (.array (items.set position value)) (.array others)
      (.array (others.set position child)) (.index position) id (some (value, child)) where
  shaped := by simpa [Content.Shapes] using same
  kept slot other := by
    cases slot with
    | key key => exact ⟨rfl, rfl⟩
    | index index =>
      have different : position ≠ index := fun equal => other (equal ▸ rfl)
      exact ⟨List.getElem?_set_ne different, List.getElem?_set_ne different⟩
  injective slot other _ _ equal := equal
  value := List.getElem?_set_self (same ▸ inside)
  json := List.getElem?_set_self inside

/-- Where an item came from that another one was inserted before. -/
def beforeInsert (position : Nat) : Slot → Slot
  | .index index => .index (if index < position then index else index - 1)
  | slot => slot

/-- An item is inserted. -/
theorem Edit.insert (same : items.length = others.length) (inside : position ≤ others.length) :
    Edit (.array items) (.array (items.insertIdx position value)) (.array others)
      (.array (others.insertIdx position child)) (.index position) (beforeInsert position)
      (some (value, child)) where
  shaped := by
    change (items.insertIdx position value).length = (others.insertIdx position child).length
    rw [List.length_insertIdx, List.length_insertIdx, same]
  kept slot other := by
    cases slot with
    | key key => exact ⟨rfl, rfl⟩
    | index index =>
      have different : index ≠ position := fun equal => other (equal ▸ rfl)
      simp only [Content.at?, slot?, beforeInsert, List.getElem?_insertIdx, if_neg different]
      split <;> exact ⟨rfl, rfl⟩
  injective slot other first second equal := by
    cases slot with
    | key name => cases other <;> simp_all [beforeInsert]
    | index left =>
      cases other with
      | key name => simp [beforeInsert] at equal
      | index right =>
        have leftAway : left ≠ position := fun equal => first (equal ▸ rfl)
        have rightAway : right ≠ position := fun equal => second (equal ▸ rfl)
        simp only [beforeInsert, Slot.index.injEq] at equal ⊢
        split at equal <;> split at equal <;> omega
  value := by simp [Content.at?, List.getElem?_insertIdx, same, inside]
  json := by simp [slot?, List.getElem?_insertIdx, inside]

/-- Where an item came from that another one was removed before. -/
def beforeErase (position : Nat) : Slot → Slot
  | .index index => .index (if index < position then index else index + 1)
  | slot => slot

/-- An item is removed; the place behind the last item is none then. -/
theorem Edit.erase (same : items.length = others.length) :
    Edit (.array items) (.array (items.eraseIdx position)) (.array others)
      (.array (others.eraseIdx position)) (.index others.length) (beforeErase position) none where
  shaped := by
    change (items.eraseIdx position).length = (others.eraseIdx position).length
    rw [List.length_eraseIdx, List.length_eraseIdx, same]
  kept slot other := by
    cases slot with
    | key key => exact ⟨rfl, rfl⟩
    | index index =>
      simp only [Content.at?, slot?, beforeErase, List.getElem?_eraseIdx]
      split <;> exact ⟨rfl, rfl⟩
  injective slot other _ _ equal := by
    cases slot with
    | key name => cases other <;> simp_all [beforeErase]
    | index left =>
      cases other with
      | key name => simp [beforeErase] at equal
      | index right =>
        simp only [beforeErase, Slot.index.injEq] at equal ⊢
        split at equal <;> split at equal <;> omega
  value := by
    refine List.getElem?_eq_none ?_
    rw [List.length_eraseIdx, same]
    split <;> omega
  json := by
    refine List.getElem?_eq_none ?_
    rw [List.length_eraseIdx]
    split <;> omega

end Edits

/-! ## Writes -/

section Writes

variable {heap grown after : Heap} {address : Nat} {cell : Cell} {json : Json} {cells : Set Nat}

theorem getElem?_of_extends (grows : heap <+: grown) (inside : address < heap.length) :
    grown[address]? = heap[address]? := by
  obtain ⟨rest, rfl⟩ := grows
  exact List.getElem?_append_left inside

/-- A cell is edited: it stands for the altered value afterwards, with cells of before and fresh
ones. -/
theorem Tree.write {changed : Content} {altered : Json} {target : Slot} {source : Slot → Slot}
    {child : Option (Value × Json)} (tree : Tree heap (.reference address) json cells)
    (found : heap[address]? = some cell)
    (edit : Edit cell.content changed json altered target source child) (grows : heap <+: grown)
    (fresh : ∀ value fresh, child = some (value, fresh) → ∃ own,
      Tree grown value fresh own ∧ ∀ address ∈ own, heap.length ≤ address) :
    ∃ own, Tree (grown.set address { cell with content := changed }) (.reference address) altered own ∧
      ∀ other ∈ own, other ∈ cells ∨ heap.length ≤ other := by
  have bounded := tree.bounded
  cases tree with
  | @cell _ old _ parts was shape children empty outside apart =>
    obtain rfl := Option.some.inj (found.symm.trans was)
    have inside : address < heap.length := bounded address (Set.mem_insert _ _)
    have placed : (grown.set address { cell with content := changed })[address]? =
        some { cell with content := changed } :=
      List.getElem?_set_self (Nat.lt_of_lt_of_le inside grows.length_le)
    have elsewhere {other : Nat} (different : other ≠ address) :
        (grown.set address { cell with content := changed })[other]? = grown[other]? :=
      List.getElem?_set_ne different.symm
    have low (slot : Slot) : ∀ other ∈ parts slot, other < heap.length := fun other member =>
      bounded other (Set.mem_insert_of_mem _ (Set.mem_iUnion.mpr ⟨slot, member⟩))
    have same (slot : Slot) : ∀ other ∈ parts slot,
        (grown.set address { cell with content := changed })[other]? = heap[other]? := by
      intro other member
      rw [elsewhere fun equal => outside slot (equal ▸ member)]
      exact getElem?_of_extends grows (low slot other member)
    -- The tree of the new child, or a scalar in the place of none.
    obtain ⟨value, json', own, tree, here, gone, high⟩ : ∃ value json' own,
        Tree (grown.set address { cell with content := changed }) value json' own ∧
        (∀ found child, changed.at? target = some found → slot? altered target = some child →
          found = value ∧ child = json') ∧
        (changed.at? target = none → own = ∅) ∧ ∀ other ∈ own, heap.length ≤ other := by
      cases child with
      | none =>
        refine ⟨.scalar .null, .null, ∅, .scalar rfl, ?_, fun _ => rfl, fun _ => False.elim⟩
        intro found child at_
        cases edit.value.symm.trans at_
      | some child =>
        obtain ⟨value, json'⟩ := child
        obtain ⟨own, tree, high⟩ := fresh value json' rfl
        refine ⟨value, json', own, tree.frame fun other member => elsewhere ?_, ?_, ?_, high⟩
        · rintro rfl
          exact absurd (high other member) (Nat.not_le.mpr inside)
        · intro found child at_ there
          exact ⟨(Option.some.inj (edit.value.symm.trans at_)).symm,
            (Option.some.inj (edit.json.symm.trans there)).symm⟩
        · intro none
          cases edit.value.symm.trans none
    refine ⟨_, Tree.rebuild shape children empty outside apart placed edit.shaped edit.kept
      edit.injective (fun slot _ => same (source slot)) here tree gone ?_ ?_, ?_⟩
    · exact fun member => absurd (high address member) (Nat.not_le.mpr inside)
    · intro slot _
      rw [Set.disjoint_left]
      exact fun other member old => absurd (high other member) (Nat.not_le.mpr (low _ other old))
    · rintro other (rfl | member)
      · exact .inl (Set.mem_insert _ _)
      · obtain ⟨slot, member⟩ := Set.mem_iUnion.mp member
        split at member
        · exact .inr (high other member)
        · exact .inl (Set.mem_insert_of_mem _ (Set.mem_iUnion.mpr ⟨_, member⟩))

/-- Setting an existing child keeps the shape, and changes the child alone. -/
theorem Edit.child {content : Content} {slot : Slot} {value : Value} {old : Json} (new : Json)
    (shape : content.Shapes json) (here : content.at? slot = some value)
    (there : slot? json slot = some old) :
    Edit content content json (setSlot json slot new) slot id (some (value, new)) := by
  cases content with
  | object properties =>
    cases json with
    | object members =>
      cases slot with
      | index position => cases here
      | key name =>
        have same : properties.map Prod.fst = members.map Prod.fst := shape
        have listed : name ∈ members.map Prod.fst :=
          (Json.lookup_isSome_iff members name).mp (by rw [show members.lookup name = _ from there]; rfl)
        have edit : Edit (.object properties) (.object (ObjectHeap.define properties name value))
          (.object members) (.object (Json.put members name new)) (.key name) id
          (some (value, new)) := .define same
        refine ⟨?_, fun slot other => ⟨rfl, (edit.kept slot other).2⟩, fun _ _ _ _ equal => equal,
          here, edit.json⟩
        change properties.map Prod.fst = (Json.put members name new).map Prod.fst
        rw [Json.keys_put, if_pos listed, same]
    | _ => exact shape.elim
  | array items =>
    cases json with
    | array others =>
      cases slot with
      | key name => cases here
      | index position =>
        have same : items.length = others.length := shape
        have inside : position < others.length := (List.getElem?_eq_some_iff.mp there).1
        have edit : Edit (.array items) (.array (items.set position value)) (.array others)
          (.array (others.set position new)) (.index position) id (some (value, new)) :=
          .set same inside
        refine ⟨?_, fun slot other => ⟨rfl, (edit.kept slot other).2⟩, fun _ _ _ _ equal => equal,
          here, edit.json⟩
        change items.length = (others.set position new).length
        rw [List.length_set, same]
    | _ => exact shape.elim

/-- A child of a cell has a tree of its own, and another tree in its place makes another tree of the
cell. -/
theorem Tree.child {slot : Slot} {value : Value} (tree : Tree heap (.reference address) json cells)
    (found : heap[address]? = some cell) (here : cell.content.at? slot = some value) :
    ∃ old own, slot? json slot = some old ∧ Tree heap value old own ∧ (∀ other ∈ own, other ∈ cells) ∧
      ∀ after new part, (∀ other ∈ cells, other ∉ own → after[other]? = heap[other]?) →
        Tree after value new part → (∀ other ∈ part, other ∈ own ∨ heap.length ≤ other) →
        ∃ whole, Tree after (.reference address) (setSlot json slot new) whole ∧
          ∀ other ∈ whole, other ∈ cells ∨ heap.length ≤ other := by
  have bounded := tree.bounded
  cases tree with
  | @cell _ _ _ parts was shape children empty outside apart =>
    obtain rfl := Option.some.inj (found.symm.trans was)
    have both := shape.isSome slot
    rw [here] at both
    obtain ⟨old, there⟩ := Option.isSome_iff_exists.mp both.symm
    have part (slot : Slot) : ∀ other ∈ parts slot, other ∈ insert address (⋃ slot, parts slot) :=
      fun other member => Set.mem_insert_of_mem _ (Set.mem_iUnion.mpr ⟨slot, member⟩)
    refine ⟨old, parts slot, there, children slot value old here there, part slot, ?_⟩
    intro after new own same tree fresh
    have edit := Edit.child new shape here there
    refine ⟨_, Tree.rebuild shape children empty outside apart
      ((same address (Set.mem_insert _ _) (outside slot)).trans found) edit.shaped edit.kept
      edit.injective ?_ ?_ tree ?_ ?_ ?_, ?_⟩
    · intro other different address member
      exact same address (part other address member) fun collide =>
        Set.disjoint_left.mp (apart other slot different) member collide
    · intro found child at_ there
      exact ⟨(Option.some.inj (edit.value.symm.trans at_)).symm,
        (Option.some.inj (edit.json.symm.trans there)).symm⟩
    · intro none
      cases here.symm.trans none
    · intro member
      rcases fresh address member with inside | high
      · exact outside slot inside
      · exact absurd high (Nat.not_le.mpr (bounded address (Set.mem_insert _ _)))
    · intro other different
      rw [Set.disjoint_left]
      intro address member old
      rcases fresh address member with inside | high
      · exact Set.disjoint_left.mp (apart slot other different.symm) inside old
      · exact absurd high (Nat.not_le.mpr (bounded address (part other address old)))
    · rintro other (rfl | member)
      · exact .inl (Set.mem_insert _ _)
      · obtain ⟨place, member⟩ := Set.mem_iUnion.mp member
        split at member
        · exact (fresh other member).imp_left (part slot other)
        · exact .inl (part _ other member)

end Writes

end ObjectHeap
