import Tinkerfin.Agui.RootState
import Tinkerfin.Lib.ObjectHeap

/-!
# State deltas in the web client

The client copies its state and every value of a delta into fresh objects, and changes the copies
only.  On JSON this is the patch of the standard, apart from more reasons to fail.
-/

namespace Tinkerfin.Agui

open ObjectHeap

/-! ## The client -/

/-- What an operation does; its value is in the heap. -/
inductive DeltaChange
  | add (value : Value)
  | remove
  | replace (value : Value)

structure StateDeltaOperation where
  change : DeltaChange
  path : String

def DeltaChange.adds : DeltaChange → Bool
  | .add _ => true
  | _ => false

def decodeToken : List Char → Except String (List Char)
  | [] => .ok []
  | '~' :: '0' :: chars => (decodeToken chars).map ('~' :: ·)
  | '~' :: '1' :: chars => (decodeToken chars).map ('/' :: ·)
  | '~' :: _ => .error "JSON Pointer 包含非法转义"
  | char :: chars => (decodeToken chars).map (char :: ·)

def decodePointer (path : String) : Except String (List String) :=
  match path.toList with
  | [] => .ok []
  | '/' :: chars => (chars.splitOn '/').mapM fun token => (decodeToken token).map String.ofList
  | _ => .error "JSON Patch path 必须是 JSON Pointer"

def maxSafeInteger : Nat := 2 ^ 53 - 1

def arrayIndex (token : String) (length : Nat) (adds : Bool) : Except String Nat :=
  if token = "-" then
    if adds then .ok length else .error "只有 add 可以使用数组追加索引"
  else
    match Json.arrayIndex? token with
    | none => .error "JSON Patch 数组索引格式非法"
    | some index =>
      let maximum : Int := if adds then length else length - 1
      if maxSafeInteger < index then
        .error "JSON Patch 数组索引超出安全范围"
      else if maximum < index then
        .error "JSON Patch 数组索引越界"
      else
        .ok index

def requireContainer : Value → Except String Nat
  | .reference address => .ok address
  | .scalar _ => .error "JSON Patch 路径不是容器"

def contentAt (heap : Heap) (address : Nat) : Content :=
  (heap[address]?.map Cell.content).getD (.object [])

def ownValue (properties : List (String × Value)) (key : String) : Except String Value :=
  match properties.lookup key with
  | none => .error "JSON Patch 路径不存在"
  | some value => .ok value

def childOf (heap : Heap) (target : Nat) (token : String) : Except String Value :=
  match contentAt heap target with
  | .array items => do
    let index ← arrayIndex token items.length false
    return items[index]?.getD (.scalar .null)
  | .object properties => ownValue properties token

/-- Follow tokens from a container to a container. -/
def walk (heap : Heap) : (target : Nat) → (tokens : List String) → Except String Nat
  | target, [] => .ok target
  | target, token :: tokens => do
    let child ← childOf heap target token
    let target ← requireContainer child
    walk heap target tokens

def setContent (heap : Heap) (target : Nat) (content : Content) : Heap :=
  match heap[target]? with
  | some cell => heap.set target { cell with content }
  | none => heap

/-- Change the child of a container; every check comes before the first write. -/
def assign (heap : Heap) (target : Nat) (key : String) (change : DeltaChange) : Except String Heap :=
  match contentAt heap target with
  | .array items => do
    let index ← arrayIndex key items.length change.adds
    match change with
    | .remove => return setContent heap target (.array (items.eraseIdx index))
    | .add value =>
      let (value, heap) := structuredClone heap value
      return setContent heap target (.array (items.insertIdx index value))
    | .replace value =>
      let (value, heap) := structuredClone heap value
      return setContent heap target (.array (items.set index value))
  | .object properties =>
    let defineOwnValue (value : Value) : Heap :=
      let (value, heap) := structuredClone heap value
      setContent heap target (.object (define properties key value))
    match change with
    | .remove =>
      if properties.lookup key = none then .error "JSON Patch remove 目标不存在"
      else .ok (setContent heap target (.object (delete properties key)))
    | .replace value =>
      if properties.lookup key = none then .error "JSON Patch replace 目标不存在"
      else .ok (defineOwnValue value)
    | .add value => .ok (defineOwnValue value)

/-- Whether a value is a container other than an array. -/
def isObject (heap : Heap) : Value → Bool
  | .scalar _ => false
  | .reference address =>
    match contentAt heap address with
    | .object _ => true
    | .array _ => false

/-- One operation on the copied state. -/
def applyOperation (heap : Heap) (next : Value) (operation : StateDeltaOperation) :
    Except String (Value × Heap) := do
  let tokens ← decodePointer operation.path
  match tokens.getLast? with
  | none =>
    match operation.change with
    | .remove => .error "Studio 状态根不能被删除"
    | .add rootValue | .replace rootValue =>
      if isObject heap rootValue then .ok (structuredClone heap rootValue)
      else .error "Studio 状态根必须是对象"
  | some key =>
    let target ← requireContainer next
    let target ← walk heap target tokens.dropLast
    let heap ← assign heap target key operation.change
    return (next, heap)

/-- The operations in order, up to the first one that fails, with the heap that is left. -/
def applyOperations : Heap → (next : Value) → List StateDeltaOperation → Except String Value × Heap
  | heap, next, [] => (.ok next, heap)
  | heap, next, operation :: delta =>
    match applyOperation heap next operation with
    | .error message => (.error message, heap)
    | .ok (next, heap) => applyOperations heap next delta

def applyStateDelta (heap : Heap) (current : Option Value) (delta : List StateDeltaOperation) :
    Except String Value × Heap :=
  let (state, heap) :=
    match current with
    | some state => (state, heap)
    | none => (.reference heap.length, heap ++ [{ prototype := objectPrototype, content := .object [] }])
  let (next, heap) := structuredClone heap state
  match applyOperations heap next delta with
  | (.error message, heap) => (.error message, heap)
  | (.ok next, heap) =>
    (if isObject heap next then .ok next else .error "Studio 状态根必须是对象", heap)

/-! ## The same on JSON -/

def isObjectJson : Json → Bool
  | .object _ => true
  | _ => false

/-- The child that a token names. -/
def resolve : Json → (token : String) → Except String Slot
  | .array items, token => (arrayIndex token items.length false).map .index
  | .object members, token =>
    if members.lookup token = none then .error "JSON Patch 路径不存在" else .ok (.key token)
  | _, _ => .error "JSON Patch 路径不是容器"

/-- Change the container behind some tokens. -/
def modifyAt (change : Json → Except String Json) : (document : Json) → List String → Except String Json
  | document, [] => change document
  | document, token :: tokens => do
    let slot ← resolve document token
    let child := (slot? document slot).getD .null
    if isScalar child then
      throw "JSON Patch 路径不是容器"
    return setSlot document slot (← modifyAt change child tokens)

/-- Change the child of a container. -/
def assignJson (key : String) (change : Json.Change) : Json → Except String Json
  | .array items =>
    match change with
    | .remove => do return .array (items.eraseIdx (← arrayIndex key items.length false))
    | .add value => do return .array (items.insertIdx (← arrayIndex key items.length true) value)
    | .replace value => do return .array (items.set (← arrayIndex key items.length false) value)
  | .object members =>
    match change with
    | .remove =>
      if members.lookup key = none then .error "JSON Patch remove 目标不存在"
      else .ok (.object (Json.drop members key))
    | .replace value =>
      if members.lookup key = none then .error "JSON Patch replace 目标不存在"
      else .ok (.object (Json.put members key value))
    | .add value => .ok (.object (Json.put members key value))
  | _ => .error "JSON Patch 路径不是容器"

def applyJson (document : Json) (operation : JsonPatchOperation) : Except String Json := do
  let tokens ← decodePointer operation.path
  match tokens.getLast? with
  | none =>
    match operation.change with
    | .remove => .error "Studio 状态根不能被删除"
    | .add rootValue | .replace rootValue =>
      if isObjectJson rootValue then .ok rootValue else .error "Studio 状态根必须是对象"
  | some key =>
    if isScalar document then
      throw "JSON Patch 路径不是容器"
    modifyAt (assignJson key operation.change) document tokens.dropLast

/-! ## The heap follows the JSON -/

/-- A value in the heap stands for the JSON value of a change. -/
def DeltaChange.StandsFor (heap : Heap) : DeltaChange → Json.Change → Prop
  | .add value, .add json => ∃ cells, Tree heap value json cells
  | .remove, .remove => True
  | .replace value, .replace json => ∃ cells, Tree heap value json cells
  | _, _ => False

/-- The operation in the heap stands for an operation on JSON. -/
def StateDeltaOperation.StandsFor (heap : Heap) (operation : StateDeltaOperation)
    (json : JsonPatchOperation) : Prop :=
  operation.path = json.path ∧ operation.change.StandsFor heap json.change

section Following

variable {heap after : Heap} {address : Nat} {json : Json} {cells : Set Nat}

theorem exists_cell (tree : Tree heap (.reference address) json cells) :
    ∃ cell, heap[address]? = some cell ∧ contentAt heap address = cell.content ∧
      cell.content.Shapes json := by
  cases tree with
  | @cell _ cell _ _ found shape => exact ⟨cell, found, by simp [contentAt, found], shape⟩

/-- A value is an object when its JSON value is. -/
theorem isObject_iff {value : Value} (tree : Tree heap value json cells) :
    isObject heap value = isObjectJson json := by
  cases value with
  | scalar value =>
    obtain ⟨rfl, plain⟩ := tree.eq_scalar
    cases json <;> first | rfl | cases plain
  | reference address =>
    obtain ⟨cell, -, content, shape⟩ := exists_cell tree
    simp only [isObject, content]
    cases holds : cell.content with
    | object properties =>
      rw [holds] at shape
      cases json <;> first | rfl | exact shape.elim
    | array items =>
      rw [holds] at shape
      cases json <;> first | rfl | exact shape.elim

theorem arrayIndex_lt {token : String} {length index : Nat}
    (named : arrayIndex token length false = .ok index) : index < length := by
  unfold arrayIndex at named
  split at named
  · cases named
  · split at named
    · cases named
    · simp only [Bool.false_eq_true, if_false] at named
      split at named
      · cases named
      · split at named
        · cases named
        · obtain rfl := Except.ok.inj named
          omega

theorem arrayIndex_le {token : String} {length index : Nat}
    (named : arrayIndex token length true = .ok index) : index ≤ length := by
  unfold arrayIndex at named
  split at named
  · exact (Except.ok.inj named).symm.le
  · split at named
    · cases named
    · simp only [if_true] at named
      split at named
      · cases named
      · split at named
        · cases named
        · obtain rfl := Except.ok.inj named
          omega

/-- A token names a child of a cell as it names one of the JSON value. -/
theorem childOf_spec (tree : Tree heap (.reference address) json cells) (token : String) :
    match childOf heap address token with
    | .error message => resolve json token = .error message
    | .ok value => ∃ slot, resolve json token = .ok slot ∧
        (contentAt heap address).at? slot = some value := by
  obtain ⟨cell, found, content, shape⟩ := exists_cell tree
  rw [childOf, content]
  cases holds : cell.content with
  | object properties =>
    rw [holds] at shape
    cases json with
    | object members =>
      have both := shape.isSome (.key token)
      simp only [Content.at?, slot?] at both
      simp only [ownValue, resolve]
      cases here : properties.lookup token with
      | none =>
        rw [here, Option.isSome_none] at both
        have none : members.lookup token = none := by simpa using both.symm
        simp [none]
      | some value =>
        rw [here, Option.isSome_some] at both
        obtain ⟨member, there⟩ := Option.isSome_iff_exists.mp both.symm
        exact ⟨.key token, by simp [there], here⟩
    | _ => exact shape.elim
  | array items =>
    rw [holds] at shape
    cases json with
    | array others =>
      have same : items.length = others.length := shape
      simp only [resolve, ← same]
      cases named : arrayIndex token items.length false with
      | error message => rfl
      | ok index =>
        have inside := arrayIndex_lt named
        refine ⟨.index index, rfl, ?_⟩
        simp [Content.at?, List.getElem?_eq_getElem inside]
    | _ => exact shape.elim

/-- A walk through the heap is the walk through the JSON value: it fails alike, or it ends at a cell
whose tree is the place that is changed. -/
theorem walk_spec (tree : Tree heap (.reference address) json cells) (tokens : List String) :
    match walk heap address tokens with
    | .error message => ∀ change, modifyAt change json tokens = .error message
    | .ok target => ∃ place own, Tree heap (.reference target) place own ∧
        (∀ other ∈ own, other ∈ cells) ∧
        (∀ change message, change place = .error message →
          modifyAt change json tokens = .error message) ∧
        ∀ after new part, (∀ other ∈ cells, other ∉ own → after[other]? = heap[other]?) →
          Tree after (.reference target) new part →
          (∀ other ∈ part, other ∈ own ∨ heap.length ≤ other) →
          ∃ altered whole, Tree after (.reference address) altered whole ∧
            (∀ other ∈ whole, other ∈ cells ∨ heap.length ≤ other) ∧
            ∀ change, change place = .ok new → modifyAt change json tokens = .ok altered := by
  induction tokens generalizing address json cells with
  | nil =>
    refine ⟨json, cells, tree, fun _ member => member, fun _ _ fails => fails, ?_⟩
    exact fun after new part _ changed fresh => ⟨new, part, changed, fresh, fun _ holds => holds⟩
  | cons token tokens induction =>
    have named := childOf_spec tree token
    rw [walk]
    cases reached : childOf heap address token with
    | error message =>
      rw [reached] at named
      exact fun change => by simp only [modifyAt, named, bind, Except.bind]
    | ok value =>
      rw [reached] at named
      obtain ⟨slot, resolved, here⟩ := named
      obtain ⟨cell, found, content, -⟩ := exists_cell tree
      rw [content] at here
      obtain ⟨old, own, there, child, inside, replaced⟩ := tree.child found here
      have steps (change : Json → Except String Json) : modifyAt change json (token :: tokens) =
          if isScalar old then .error "JSON Patch 路径不是容器"
          else (modifyAt change old tokens).map (setSlot json slot) := by
        simp only [modifyAt, resolved, bind, Except.bind, there, Option.getD_some]
        split
        · rfl
        · cases modifyAt change old tokens <;> rfl
      cases value with
      | scalar scalar =>
        obtain ⟨rfl, plain⟩ := child.eq_scalar
        exact fun change => by rw [steps, if_pos plain]
      | reference next =>
        have container := child.isScalar_reference
        have deeper := induction child
        change match walk heap next tokens with | .error message => _ | .ok target => _
        cases walked : walk heap next tokens with
        | error message =>
          rw [walked] at deeper
          exact fun change => by
            rw [steps, container, if_neg Bool.false_ne_true, deeper change]
            rfl
        | ok target =>
          rw [walked] at deeper
          obtain ⟨place, last, ends, within, fails, changes⟩ := deeper
          refine ⟨place, last, ends, fun other member => inside other (within other member),
            ?_, ?_⟩
          · intro change message refused
            rw [steps, container, if_neg Bool.false_ne_true, fails change message refused]
            rfl
          · intro after new part same changed fresh
            obtain ⟨below, whole, altered, grown, holds⟩ := changes after new part
              (fun other member away => same other (inside other member) away) changed fresh
            obtain ⟨all, rebuilt, bounded⟩ := replaced after below whole
              (fun other member away => same other member fun last => away (within other last))
              altered grown
            refine ⟨_, all, rebuilt, bounded, fun change changed => ?_⟩
            rw [steps, container, if_neg Bool.false_ne_true, holds change changed]
            rfl

theorem fresh_copy {value : Value} (tree : Tree heap value json cells) : ∃ own,
    Tree (structuredClone heap value).2 (structuredClone heap value).1 json own ∧
      ∀ address ∈ own, heap.length ≤ address :=
  ⟨_, tree.clone, fresh_clone⟩

/-- What a change of a container leaves. -/
structure Assigned (heap after : Heap) (target : Nat) (new : Json) (cells : Set Nat) : Prop where
  frame : ∀ address < heap.length, address ≠ target → after[address]? = heap[address]?
  tree : ∃ own, Tree after (.reference target) new own ∧
    ∀ address ∈ own, address ∈ cells ∨ heap.length ≤ address

theorem assigned_setContent {target : Nat} {cell : Cell} {changed : Content} {altered : Json}
    {place : Slot} {source : Slot → Slot} {child : Option (Value × Json)}
    (tree : Tree heap (.reference target) json cells) (found : heap[target]? = some cell)
    (edit : Edit cell.content changed json altered place source child) (grows : heap <+: after)
    (fresh : ∀ value fresh, child = some (value, fresh) → ∃ own,
      Tree after value fresh own ∧ ∀ address ∈ own, heap.length ≤ address) :
    Assigned heap (setContent after target changed) target altered cells := by
  have inside : target < heap.length := (List.getElem?_eq_some_iff.mp found).1
  have still : after[target]? = some cell := (getElem?_of_extends grows inside).trans found
  rw [setContent, still]
  refine ⟨fun address low different => ?_, tree.write found edit grows fresh⟩
  rw [List.getElem?_set_ne different.symm]
  exact getElem?_of_extends grows low

/-- A container is changed in the heap as its JSON value is. -/
theorem assign_spec {target : Nat} (tree : Tree heap (.reference target) json cells) (key : String)
    {change : DeltaChange} {changeJson : Json.Change} (stands : change.StandsFor heap changeJson) :
    match assign heap target key change with
    | .error message => assignJson key changeJson json = .error message
    | .ok after => ∃ new, assignJson key changeJson json = .ok new ∧
        Assigned heap after target new cells := by
  obtain ⟨cell, found, content, shape⟩ := exists_cell tree
  have copied {value : Value} {json : Json} (holds : ∃ cells, Tree heap value json cells) :
      ∀ copy fresh, some ((structuredClone heap value).1, json) = some (copy, fresh) → ∃ own,
        Tree (structuredClone heap value).2 copy fresh own ∧ ∀ address ∈ own, heap.length ≤ address := by
    rintro copy fresh ⟨⟩
    obtain ⟨cells, tree⟩ := holds
    exact fresh_copy tree
  have nothing : ∀ value fresh, (none : Option (Value × Json)) = some (value, fresh) → ∃ own,
      Tree heap value fresh own ∧ ∀ address ∈ own, heap.length ≤ address := by
    rintro value fresh ⟨⟩
  rw [assign, content]
  cases holds : cell.content with
  | object properties =>
    rw [holds] at shape
    cases json with
    | object members =>
      have same : properties.map Prod.fst = members.map Prod.fst := shape
      have both : properties.lookup key = none ↔ members.lookup key = none := by
        have some := shape.isSome (.key key)
        simp only [Content.at?, slot?] at some
        rw [← Option.not_isSome_iff_eq_none, some, Option.not_isSome_iff_eq_none]
      have defined {value : Value} {new : Json} (held : ∃ cells, Tree heap value new cells) :
          Assigned heap (setContent (structuredClone heap value).2 target
            (.object (define properties key (structuredClone heap value).1))) target
            (.object (Json.put members key new)) cells :=
        assigned_setContent tree found (holds ▸ Edit.define same) (prefix_clone heap value)
          (copied held)
      cases change with
      | add value =>
        cases changeJson with
        | add new => exact ⟨_, rfl, defined stands⟩
        | _ => exact stands.elim
      | remove =>
        cases changeJson with
        | remove =>
          simp only [assignJson, both]
          by_cases absent : members.lookup key = none
          · simp only [if_pos absent]
          · simp only [if_neg absent]
            exact ⟨_, rfl, assigned_setContent tree found (holds ▸ Edit.delete same)
              List.prefix_rfl nothing⟩
        | _ => exact stands.elim
      | replace value =>
        cases changeJson with
        | replace new =>
          simp only [assignJson, both]
          by_cases absent : members.lookup key = none
          · simp only [if_pos absent]
          · simp only [if_neg absent]
            exact ⟨_, rfl, defined stands⟩
        | _ => exact stands.elim
    | _ => exact shape.elim
  | array items =>
    rw [holds] at shape
    cases json with
    | array others =>
      have same : items.length = others.length := shape
      cases change with
      | add value =>
        cases changeJson with
        | add new =>
          simp only [assignJson, DeltaChange.adds, same]
          cases named : arrayIndex key others.length true with
          | error message => rfl
          | ok index =>
            exact ⟨_, rfl, assigned_setContent tree found
              (holds ▸ Edit.insert same (arrayIndex_le named)) (prefix_clone heap value)
              (copied stands)⟩
        | _ => exact stands.elim
      | remove =>
        cases changeJson with
        | remove =>
          simp only [assignJson, DeltaChange.adds, same]
          cases named : arrayIndex key others.length false with
          | error message => rfl
          | ok index =>
            exact ⟨_, rfl, assigned_setContent tree found (holds ▸ Edit.erase same)
              List.prefix_rfl nothing⟩
        | _ => exact stands.elim
      | replace value =>
        cases changeJson with
        | replace new =>
          simp only [assignJson, DeltaChange.adds, same]
          cases named : arrayIndex key others.length false with
          | error message => rfl
          | ok index =>
            exact ⟨_, rfl, assigned_setContent tree found
              (holds ▸ Edit.set same (arrayIndex_lt named)) (prefix_clone heap value)
              (copied stands)⟩
        | _ => exact stands.elim
    | _ => exact shape.elim

/-- A heap in which the cells of an earlier one are as they were, and a document in other cells. -/
structure Copied (base heap : Heap) (next : Value) (document : Json) : Prop where
  kept : ∀ address < base.length, heap[address]? = base[address]?
  tree : ∃ cells, Tree heap next document cells ∧ ∀ address ∈ cells, base.length ≤ address

theorem length_le_of_kept {base : Heap} (kept : ∀ address < base.length, heap[address]? = base[address]?) :
    base.length ≤ heap.length := by
  by_contra short
  have last := kept heap.length (Nat.not_le.mp short)
  rw [List.getElem?_eq_none (Nat.le_refl _), List.getElem?_eq_getElem (Nat.not_le.mp short)] at last
  cases last

theorem DeltaChange.StandsFor.kept {base : Heap} {change : DeltaChange} {changeJson : Json.Change}
    (stands : change.StandsFor base changeJson)
    (kept : ∀ address < base.length, heap[address]? = base[address]?) :
    change.StandsFor heap changeJson := by
  have still {value : Value} {json : Json} (held : ∃ cells, Tree base value json cells) :
      ∃ cells, Tree heap value json cells := by
    obtain ⟨cells, tree⟩ := held
    exact ⟨cells, tree.frame fun address member => kept address (tree.bounded address member)⟩
  cases change <;> cases changeJson <;> first | exact stands.elim | exact still stands | trivial

theorem Copied.clone {base : Heap} {value : Value}
    (kept : ∀ address < base.length, heap[address]? = base[address]?)
    (tree : Tree heap value json cells) :
    Copied base (structuredClone heap value).2 (structuredClone heap value).1 json := by
  have grows := length_le_of_kept kept
  refine ⟨fun address low => ?_, _, tree.clone, fun address member => grows.trans ?_⟩
  · exact (getElem?_of_extends (prefix_clone heap value) (Nat.lt_of_lt_of_le low grows)).trans
      (kept address low)
  · exact fresh_clone address member

section Operations

variable {base : Heap} {next : Value} {document : Json}

/-- One operation changes the copy as it changes the document, and nothing else. -/
theorem applyOperation_spec (copied : Copied base heap next document)
    {operation : StateDeltaOperation} {operationJson : JsonPatchOperation}
    (stands : operation.StandsFor base operationJson) :
    match applyOperation heap next operation with
    | .error message => applyJson document operationJson = .error message
    | .ok (next, after) => ∃ new, applyJson document operationJson = .ok new ∧
        Copied base after next new := by
  obtain ⟨change, path⟩ := operation
  obtain ⟨changeJson, pathJson⟩ := operationJson
  obtain ⟨rfl, stands⟩ := stands
  have stands := DeltaChange.StandsFor.kept stands copied.kept
  obtain ⟨kept, cells, tree, high⟩ := copied
  simp only at stands
  simp only [applyOperation, applyJson]
  cases decodePointer path with
  | error message => rfl
  | ok tokens =>
    simp only [bind, Except.bind]
    cases tokens.getLast? with
    | none =>
      have replaced {rootValue : Value} {root : Json}
          (held : ∃ cells, Tree heap rootValue root cells) :
          match (if isObject heap rootValue then .ok (structuredClone heap rootValue)
            else .error "Studio 状态根必须是对象" : Except String (Value × Heap)) with
          | .error message => (if isObjectJson root then .ok root
              else .error "Studio 状态根必须是对象") = Except.error message
          | .ok (next, after) => ∃ new, (if isObjectJson root then .ok root
              else .error "Studio 状态根必须是对象") = Except.ok new ∧ Copied base after next new := by
        obtain ⟨cells, tree⟩ := held
        rw [isObject_iff tree]
        by_cases object : isObjectJson root = true
        · simp only [if_pos object]
          exact ⟨root, rfl, .clone kept tree⟩
        · simp only [if_neg object]
      cases change <;> cases changeJson <;>
        first | exact stands.elim | exact replaced stands | rfl
    | some key =>
      cases next with
      | scalar scalar =>
        obtain ⟨rfl, plain⟩ := tree.eq_scalar
        simp only [requireContainer, if_pos plain]
        rfl
      | reference address =>
        have container := tree.isScalar_reference
        simp only [requireContainer, container, Bool.false_eq_true, if_false]
        have reached := walk_spec tree tokens.dropLast
        cases walked : walk heap address tokens.dropLast with
        | error message =>
          rw [walked] at reached
          exact reached _
        | ok target =>
          rw [walked] at reached
          obtain ⟨place, own, ends, within, fails, changes⟩ := reached
          have assigned := assign_spec ends key stands
          cases result : assign heap target key change with
          | error message =>
            rw [result] at assigned
            simp only [result]
            exact fails _ message assigned
          | ok after =>
            rw [result] at assigned
            obtain ⟨new, holds, frame, part, changed, fresh⟩ := assigned
            simp only [result]
            have grows := length_le_of_kept kept
            have elsewhere (other : Nat) (member : other ∈ cells) (away : other ∉ own) :
                after[other]? = heap[other]? :=
              frame other (tree.bounded other member)
                fun equal => away (equal ▸ ends.mem_self)
            obtain ⟨altered, whole, grown, bounded, follows⟩ :=
              changes after new part elsewhere changed fresh
            refine ⟨altered, follows _ holds, fun other low => ?_, whole, grown, ?_⟩
            · have away : other ≠ target := by
                rintro rfl
                exact absurd (high other (within other ends.mem_self)) (Nat.not_le.mpr low)
              exact (frame other (Nat.lt_of_lt_of_le low grows) away).trans (kept other low)
            · exact fun other member => (bounded other member).elim (high other) grows.trans

/-- The operations one after the other. -/
theorem applyOperations_spec (copied : Copied base heap next document)
    {delta : List StateDeltaOperation} {operations : List JsonPatchOperation}
    (stands : List.Forall₂ (StateDeltaOperation.StandsFor base) delta operations) :
    (∀ address < base.length,
      (applyOperations heap next delta).2[address]? = base[address]?) ∧
    match (applyOperations heap next delta).1 with
    | .error message => operations.foldlM applyJson document = .error message
    | .ok final => ∃ new, operations.foldlM applyJson document = .ok new ∧
        Copied base (applyOperations heap next delta).2 final new := by
  induction stands generalizing heap next document with
  | nil => exact ⟨copied.kept, document, rfl, copied⟩
  | @cons operation operationJson delta operations first rest induction =>
    have step := applyOperation_spec copied first
    cases applied : applyOperation heap next operation with
    | error message =>
      rw [applied] at step
      simp only [applyOperations, applied, List.foldlM_cons, step, bind, Except.bind, and_true]
      exact copied.kept
    | ok result =>
      obtain ⟨following, after⟩ := result
      rw [applied] at step
      obtain ⟨new, holds, copied⟩ := step
      have run : applyOperations heap next (operation :: delta) =
          applyOperations after following delta := by
        rw [applyOperations, applied]
      rw [run, List.foldlM_cons, holds]
      exact induction copied

/-- The state of the client stands for a document; no state is the empty object. -/
def StateStandsFor (heap : Heap) : (current : Option Value) → (document : Json) → Prop
  | none, document => document = .object []
  | some state, document => ∃ cells, Tree heap state document cells

/-- A delta on JSON. -/
def applyJsonDelta (document : Json) (delta : List JsonPatchOperation) : Except String Json := do
  let next ← delta.foldlM applyJson document
  if isObjectJson next then return next else throw "Studio 状态根必须是对象"

/-- The client computes in fresh cells what the delta makes of the document. -/
theorem applyStateDelta_spec {current : Option Value} (state : StateStandsFor base current document)
    {delta : List StateDeltaOperation} {operations : List JsonPatchOperation}
    (stands : List.Forall₂ (StateDeltaOperation.StandsFor base) delta operations) :
    (∀ address < base.length,
      (applyStateDelta base current delta).2[address]? = base[address]?) ∧
    match (applyStateDelta base current delta).1 with
    | .error message => applyJsonDelta document operations = .error message
    | .ok next => ∃ new, applyJsonDelta document operations = .ok new ∧
        Copied base (applyStateDelta base current delta).2 next new := by
  -- The copy of the state, or of a new empty object.
  obtain ⟨heap, state, opens, kept, cells, tree⟩ : ∃ heap state,
      (match current with
        | some state => (state, base)
        | none => (.reference base.length,
            base ++ [{ prototype := objectPrototype, content := .object [] }])) = (state, heap) ∧
      (∀ address < base.length, heap[address]? = base[address]?) ∧
      ∃ cells, Tree heap state document cells := by
    cases current with
    | some value => exact ⟨base, value, rfl, fun _ _ => rfl, state⟩
    | none =>
      refine ⟨_, _, rfl, fun address low => List.getElem?_append_left low, ?_⟩
      obtain rfl : document = .object [] := state
      exact ⟨_, .empty List.getElem?_concat_length⟩
  have follows := applyOperations_spec (.clone kept tree) stands
  unfold applyStateDelta applyJsonDelta
  rw [opens]
  simp only [bind, Except.bind]
  rcases applied : applyOperations (structuredClone heap state).2 (structuredClone heap state).1 delta
    with ⟨result, after⟩
  rw [applied] at follows
  obtain ⟨unchanged, follows⟩ := follows
  cases result with
  | error message =>
    simp only at follows ⊢
    exact ⟨unchanged, by simp only [follows]⟩
  | ok next =>
    obtain ⟨new, holds, copied⟩ := follows
    obtain ⟨cells, tree, -⟩ := copied.tree
    simp only [holds]
    rw [isObject_iff tree]
    refine ⟨unchanged, ?_⟩
    by_cases object : isObjectJson new = true
    · simp only [if_pos object]
      exact ⟨new, rfl, copied⟩
    · simp only [if_neg object]
      rfl

end Operations

end Following

/-! ## Against the standard -/

section Standard

variable {document new : Json} {tokens : List String} {token key : String} {change : Json.Change}

theorem toOption_decodeToken (chars : List Char) :
    (decodeToken chars).toOption = Json.Pointer.unescape? chars := by
  fun_induction decodeToken chars with
  | case1 => rfl
  | case2 chars induction =>
    rw [Json.Pointer.unescape?, ← induction]
    cases decodeToken chars <;> rfl
  | case3 chars induction =>
    rw [Json.Pointer.unescape?, ← induction]
    cases decodeToken chars <;> rfl
  | case4 chars notZero notOne =>
    rw [Json.Pointer.unescape?]
    · rfl
    · exact notZero
    · exact notOne
  | case5 char chars notZero notOne plain induction =>
    rw [Json.Pointer.unescape?, ← induction]
    · cases decodeToken chars <;> rfl
    · exact notZero
    · exact notOne
    · exact plain

theorem toOption_decodePointer (path : String) :
    (decodePointer path).toOption = Json.Pointer.parse path := by
  have parts (parts : List (List Char)) :
      (parts.mapM fun token => (decodeToken token).map String.ofList).toOption =
        parts.mapM fun part => (Json.Pointer.unescape? part).map String.ofList := by
    induction parts with
    | nil => rfl
    | cons part parts induction =>
      rw [List.mapM_cons, List.mapM_cons, ← induction, ← toOption_decodeToken]
      cases decodeToken part with
      | error message => rfl
      | ok chars =>
        cases parts.mapM fun token => (decodeToken token).map String.ofList <;> rfl
  unfold decodePointer Json.Pointer.parse
  cases path.toList with
  | nil => rfl
  | cons first chars =>
    by_cases slash : first = '/'
    · subst slash
      exact parts _
    · simp [slash, Except.toOption]

theorem decodePointer_ok {path : String} (decoded : decodePointer path = .ok tokens) :
    Json.Pointer.parse path = some tokens := by
  rw [← toOption_decodePointer, decoded]
  rfl

theorem decodePointer_render (tokens : List String) :
    decodePointer (Json.Pointer.render tokens) = .ok tokens := by
  have parsed := toOption_decodePointer (Json.Pointer.render tokens)
  rw [Json.Pointer.parse_render] at parsed
  cases decoded : decodePointer (Json.Pointer.render tokens) with
  | error message =>
    rw [decoded] at parsed
    cases parsed
  | ok others =>
    rw [decoded] at parsed
    exact congrArg Except.ok (Option.some.inj parsed)

/-- An accepted index is the one that the token names, or the end of the array. -/
theorem arrayIndex_ok {length index : Nat} {adds : Bool} (named : arrayIndex token length adds = .ok index) :
    token = "-" ∧ adds = true ∧ index = length ∨
      token ≠ "-" ∧ Json.arrayIndex? token = some index := by
  unfold arrayIndex at named
  by_cases append : token = "-"
  · rw [if_pos append] at named
    cases adds with
    | false => cases named
    | true => exact .inl ⟨append, rfl, (Except.ok.inj named).symm⟩
  · rw [if_neg append] at named
    cases found : Json.arrayIndex? token with
    | none =>
      rw [found] at named
      cases named
    | some position =>
      rw [found] at named
      simp only at named
      generalize (if adds then (length : Int) else length - 1) = maximum at named
      by_cases tooLarge : maxSafeInteger < position
      · rw [if_pos tooLarge] at named
        cases named
      · rw [if_neg tooLarge] at named
        by_cases beyond : maximum < position
        · rw [if_pos beyond] at named
          cases named
        · rw [if_neg beyond] at named
          exact .inr ⟨append, congrArg some (Except.ok.inj named)⟩

theorem arrayIndex_existing {length index : Nat} (named : arrayIndex token length false = .ok index) :
    Json.arrayIndex? token = some index ∧ index < length :=
  ⟨((arrayIndex_ok named).resolve_left fun append => Bool.false_ne_true append.2.1).2,
    arrayIndex_lt named⟩

theorem assignJson_within {parent : Json} (assigned : assignJson key change parent = .ok new) :
    change.within parent key = some new := by
  cases parent with
  | object members =>
    cases change with
    | add value => exact congrArg some (Except.ok.inj assigned)
    | remove =>
      simp only [assignJson] at assigned
      split at assigned
      · cases assigned
      · next present =>
          obtain ⟨value, found⟩ := Option.ne_none_iff_exists'.mp present
          simp [Json.Change.within, found, ← Except.ok.inj assigned]
    | replace value =>
      simp only [assignJson] at assigned
      split at assigned
      · cases assigned
      · next present =>
          obtain ⟨old, found⟩ := Option.ne_none_iff_exists'.mp present
          simp [Json.Change.within, Json.child?, Json.setChild, found, ← Except.ok.inj assigned]
  | array items =>
    cases change with
    | add value =>
      simp only [assignJson] at assigned
      cases named : arrayIndex key items.length true with
      | error message => simp [named, bind, Except.bind] at assigned
      | ok index =>
        simp only [named, bind, Except.bind, pure, Except.pure, Except.ok.injEq] at assigned
        rcases arrayIndex_ok named with ⟨rfl, -, rfl⟩ | ⟨other, found⟩
        · simp [Json.Change.within, ← assigned]
        · simp [Json.Change.within, other, found, arrayIndex_le named, assigned]
    | remove =>
      simp only [assignJson] at assigned
      cases named : arrayIndex key items.length false with
      | error message => simp [named, bind, Except.bind] at assigned
      | ok index =>
        simp only [named, bind, Except.bind, pure, Except.pure, Except.ok.injEq] at assigned
        obtain ⟨found, inside⟩ := arrayIndex_existing named
        simp [Json.Change.within, found, inside, assigned]
    | replace value =>
      simp only [assignJson] at assigned
      cases named : arrayIndex key items.length false with
      | error message => simp [named, bind, Except.bind] at assigned
      | ok index =>
        simp only [named, bind, Except.bind, pure, Except.pure, Except.ok.injEq] at assigned
        obtain ⟨found, inside⟩ := arrayIndex_existing named
        simp [Json.Change.within, Json.child?, Json.setChild, found, inside, assigned]
  | _ => cases assigned

/-- The child that a token names is the child of the standard. -/
theorem resolve_child {slot : Slot} (resolved : resolve document token = .ok slot) :
    ∃ child, slot? document slot = some child ∧ document.child? token = some child ∧
      ∀ after, setSlot document slot after = document.setChild token after := by
  cases document with
  | object members =>
    simp only [resolve] at resolved
    split at resolved
    · cases resolved
    · next present =>
        obtain ⟨child, found⟩ := Option.ne_none_iff_exists'.mp present
        obtain rfl := Except.ok.inj resolved
        exact ⟨child, found, found, fun _ => rfl⟩
  | array items =>
    simp only [resolve] at resolved
    cases named : arrayIndex token items.length false with
    | error message => simp [named, Except.map] at resolved
    | ok index =>
      obtain ⟨found, inside⟩ := arrayIndex_existing named
      rw [named] at resolved
      obtain rfl := Except.ok.inj resolved
      refine ⟨items[index], List.getElem?_eq_getElem inside, ?_, fun after => ?_⟩
      · simp [Json.child?, found, inside]
      · simp [setSlot, Json.setChild, found]
  | _ => cases resolved

theorem apply_cons (change : Json.Change) (document : Json) (token : String) {tokens : List String}
    (some : tokens ≠ []) : change.apply document (token :: tokens) =
      (document.child? token).bind fun child =>
        (change.apply child tokens).map fun after => document.setChild token after := by
  cases tokens with
  | nil => exact absurd rfl some
  | cons next tokens =>
    rw [Json.Change.apply]
    exact List.cons_ne_nil _ _

theorem modifyAt_apply (modified : modifyAt (assignJson key change) document tokens = .ok new) :
    change.apply document (tokens ++ [key]) = some new := by
  induction tokens generalizing document new with
  | nil => exact assignJson_within modified
  | cons token tokens induction =>
    rw [modifyAt] at modified
    cases resolved : resolve document token with
    | error message => simp [resolved, bind, Except.bind] at modified
    | ok slot =>
      obtain ⟨child, found, named, sets⟩ := resolve_child resolved
      simp only [resolved, found, bind, Except.bind, Option.getD_some] at modified
      split at modified
      · cases modified
      · cases inner : modifyAt (assignJson key change) child tokens with
        | error message => simp [inner] at modified
        | ok after =>
          simp only [inner] at modified
          rw [List.cons_append, apply_cons _ _ _ (List.append_ne_nil_of_right_ne_nil _ (by simp)),
            named, Option.bind_some, induction inner, Option.map_some, ← sets]
          exact congrArg some (Except.ok.inj modified)

/-- An operation that succeeds does what the standard says. -/
theorem applyJson_patchWith {operation : JsonPatchOperation}
    (applied : applyJson document operation = .ok new) : document.patchWith operation = some new := by
  obtain ⟨change, path⟩ := operation
  simp only [applyJson] at applied
  cases decoded : decodePointer path with
  | error message => simp [decoded, bind, Except.bind] at applied
  | ok tokens =>
    simp only [decoded, bind, Except.bind] at applied
    rw [Json.patchWith, decodePointer_ok decoded, Option.bind_some]
    cases tokens using List.reverseRecOn with
    | nil =>
      simp only [List.getLast?_nil] at applied
      cases change with
      | remove => cases applied
      | add root =>
        simp only at applied
        split at applied
        · exact congrArg some (Except.ok.inj applied)
        · cases applied
      | replace root =>
        simp only at applied
        split at applied
        · exact congrArg some (Except.ok.inj applied)
        · cases applied
    | append_singleton tokens key =>
      simp only [List.getLast?_concat, List.dropLast_concat] at applied
      split at applied
      · cases applied
      · exact modifyAt_apply applied

theorem foldlM_patch {delta : List JsonPatchOperation}
    (applied : delta.foldlM applyJson document = .ok new) : document.patch delta = some new := by
  induction delta generalizing document with
  | nil => exact congrArg some (Except.ok.inj applied)
  | cons operation delta induction =>
    rw [List.foldlM_cons] at applied
    cases first : applyJson document operation with
    | error message => simp [first, bind, Except.bind] at applied
    | ok middle =>
      rw [first] at applied
      rw [Json.patch, List.foldlM_cons, applyJson_patchWith first]
      exact induction applied

end Standard

/-! ## The patches of the adapter -/

/-- Tokens lead through objects to a place. -/
inductive Through : (document : Json) → (tokens : List String) → (place : Json) → Prop
  | here {place : Json} : Through place [] place
  | inside {members : List (String × Json)} {token : String} {tokens : List String}
      {child place : Json} (found : members.lookup token = some child)
      (rest : Through child tokens place) : Through (.object members) (token :: tokens) place

section Adapter

variable {document place : Json} {tokens : List String} {members : List (String × Json)} {key : String}

theorem Through.at? (through : Through document tokens place) : document.at? tokens = some place := by
  induction through with
  | here => rfl
  | inside found _ induction =>
    rw [Json.at?, show (Json.object _).child? _ = _ from found, Option.bind_some]
    exact induction

theorem Through.setAt (through : Through document tokens place) (new : Json) :
    Through (document.setAt tokens new) tokens new := by
  induction through with
  | here => exact .here
  | @inside members token tokens child place found _ induction =>
    simp only [Json.setAt, show (Json.object members).child? token = _ from found, Json.setChild]
    exact .inside (by rw [Json.lookup_put, if_pos rfl]) induction

theorem Through.append (through : Through document tokens (.object members))
    (found : members.lookup key = some place) : Through document (tokens ++ [key]) place := by
  induction tokens generalizing document with
  | nil =>
    cases through
    exact .inside found .here
  | cons token tokens induction =>
    cases through with
    | inside here rest => exact .inside here (induction rest)

theorem Through.split (through : Through document (tokens ++ [key]) place) :
    ∃ members, Through document tokens (.object members) ∧ members.lookup key = some place := by
  induction tokens generalizing document with
  | nil =>
    cases through with
    | inside found rest =>
      cases rest
      exact ⟨_, .here, found⟩
  | cons token tokens induction =>
    cases through with
    | inside here rest =>
      obtain ⟨members, rest, found⟩ := induction rest
      exact ⟨members, .inside here rest, found⟩

theorem modifyAt_through (change : Json → Except String Json)
    (through : Through document tokens (.object members)) :
    modifyAt change document tokens = (change (.object members)).map (document.setAt tokens) := by
  induction tokens generalizing document with
  | nil =>
    cases through
    rw [modifyAt]
    cases change (.object members) <;> rfl
  | cons token tokens induction =>
    cases through with
    | @inside others _ _ child _ found rest =>
      have container : isScalar child = false := by
        cases rest with
        | here => rfl
        | inside => rfl
      have present : others.lookup token ≠ none := found ▸ Option.some_ne_none child
      have resolved : resolve (.object others) token = .ok (.key token) := if_neg present
      have child : slot? (.object others) (.key token) = some child := found
      simp only [modifyAt, resolved, child, Option.getD_some, container, Bool.false_eq_true,
        if_false, bind, Except.bind, induction rest, Json.setAt,
        show (Json.object others).child? token = _ from found]
      cases change (.object members) <;> rfl

theorem applyJson_member (change : Json.Change) (through : Through document tokens (.object members))
    (key : String) : applyJson document ⟨change, Json.Pointer.render (tokens ++ [key])⟩ =
      (assignJson key change (.object members)).map (document.setAt tokens) := by
  have container : isScalar document = false := by
    cases through with
    | here => rfl
    | inside => rfl
  simp only [applyJson, decodePointer_render, bind, Except.bind, List.getLast?_concat,
    List.dropLast_concat, container, Bool.false_eq_true, if_false]
  exact modifyAt_through _ through

theorem foldlM_ok {delta : List JsonPatchOperation} {after expected : Json}
    (runs : delta.foldlM applyJson document = .ok after)
    (patched : document.patch delta = some expected) : after = expected :=
  Option.some.inj ((foldlM_patch runs).symm.trans patched)

theorem foldlM_append_ok {first second : List JsonPatchOperation} {middle : Json}
    (runs : first.foldlM applyJson document = .ok middle) :
    (first ++ second).foldlM applyJson document = second.foldlM applyJson middle := by
  rw [List.foldlM_append, runs]
  rfl

theorem runs_removals (removed : List (String × Json))
    (through : Through document tokens (.object members)) (distinct : (removed.map Prod.fst).Nodup)
    (present : ∀ key ∈ removed.map Prod.fst, (members.lookup key).isSome) :
    ∃ after, (removed.map fun (key, _) => (⟨.remove, Json.Pointer.render tokens ++ "/" ++
      escapeJsonPointer key⟩ : JsonPatchOperation)).foldlM applyJson document = .ok after := by
  induction removed generalizing document members with
  | nil => exact ⟨document, rfl⟩
  | cons member removed induction =>
    obtain ⟨name, old⟩ := member
    simp only [List.map_cons, List.nodup_cons] at distinct
    have found : members.lookup name ≠ none := Option.isSome_iff_ne_none.mp (present name (by simp))
    have first := applyJson_member .remove through name
    rw [← path_append] at first
    simp only [assignJson, if_neg found, Except.map] at first
    simp only [List.map_cons, List.foldlM_cons, first, bind, Except.bind]
    refine induction (through.setAt _) distinct.2 fun key member => ?_
    have away : key ≠ name := fun same => distinct.1 (same ▸ member)
    rw [Json.lookup_drop, if_neg away]
    exact present key (List.mem_cons_of_mem _ member)

theorem runs_additions (added : List (String × Json))
    (through : Through document tokens (.object members)) :
    ∃ after, (added.map fun (key, value) => (⟨.add value, Json.Pointer.render tokens ++ "/" ++
      escapeJsonPointer key⟩ : JsonPatchOperation)).foldlM applyJson document = .ok after := by
  induction added generalizing document members with
  | nil => exact ⟨document, rfl⟩
  | cons member added induction =>
    obtain ⟨name, value⟩ := member
    have first := applyJson_member (.add value) through name
    rw [← path_append] at first
    simp only [assignJson, Except.map] at first
    simp only [List.map_cons, List.foldlM_cons, first, bind, Except.bind]
    exact induction (through.setAt _)

/-- Patches of different members, each of which the client accepts. -/
theorem runs_members (patches : List (String × List JsonPatchOperation))
    (through : Through document tokens (.object members)) (distinct : (patches.map Prod.fst).Nodup)
    (runs : ∀ key operations, (key, operations) ∈ patches → ∃ value, members.lookup key = some value ∧
      ∀ document, Through document (tokens ++ [key]) value →
        ∃ new, operations.foldlM applyJson document = .ok (document.setAt (tokens ++ [key]) new)) :
    ∃ after, (patches.flatMap Prod.snd).foldlM applyJson document = .ok after := by
  induction patches generalizing document members with
  | nil => exact ⟨document, rfl⟩
  | cons patch patches induction =>
    obtain ⟨name, operations⟩ := patch
    simp only [List.map_cons, List.nodup_cons] at distinct
    obtain ⟨value, found, accepted⟩ := runs name operations List.mem_cons_self
    obtain ⟨new, first⟩ := accepted document (through.append found)
    rw [Json.setAt_append through.at? (show (Json.object members).child? name = some value from found)]
      at first
    rw [List.flatMap_cons, foldlM_append_ok first]
    refine induction (through.setAt _) distinct.2 fun key others member => ?_
    obtain ⟨value, found, accepted⟩ := runs key others (List.mem_cons_of_mem _ member)
    have away : key ≠ name := by
      rintro rfl
      exact distinct.1 (List.mem_map_of_mem member)
    exact ⟨value, by rw [Json.lookup_put, if_neg away]; exact found, accepted⟩

theorem runs_replace {client : Json} (value : Json) (inside : tokens ≠ [])
    (through : Through document tokens client) :
    ∃ after, [(⟨.replace value, Json.Pointer.render tokens⟩ : JsonPatchOperation)].foldlM applyJson
      document = .ok after := by
  cases tokens using List.reverseRecOn with
  | nil => exact absurd rfl inside
  | append_singleton tokens key =>
    obtain ⟨members, above, found⟩ := through.split
    have present : members.lookup key ≠ none := found ▸ Option.some_ne_none client
    refine ⟨document.setAt tokens (.object (Json.put members key value)), ?_⟩
    rw [List.foldlM_cons, applyJson_member _ above, assignJson]
    simp only [if_neg present]
    rfl

/-- The client accepts the removals, additions and patches of common members between two objects. -/
theorem runs_objects {previous current client : List (String × Json)}
    (distinct : Json.isDistinct (.object previous) = true)
    (also : Json.isDistinct (.object current) = true)
    (held : Json.isDistinct (.object client) = true)
    (follows : jsonValuesEqual (.object client) (.object previous) = true)
    (through : Through document tokens (.object client))
    (common : ∀ key before after value, previous.lookup key = some before →
      current.lookup key = some after → client.lookup key = some value →
      jsonValuesEqual value before = true → ∀ document, Through document (tokens ++ [key]) value →
        ∃ new, (jsonPatch before after (Json.Pointer.render (tokens ++ [key]))).foldlM applyJson
          document = .ok (document.setAt (tokens ++ [key]) new)) :
    ∃ after, List.foldlM applyJson document
      ((inKeyOrder (missingIn previous current)).map
          (fun (key, _) => ⟨.remove, Json.Pointer.render tokens ++ "/" ++ escapeJsonPointer key⟩) ++
        (inKeyOrder (missingIn current previous)).map
          (fun (key, value) =>
            ⟨.add value, Json.Pointer.render tokens ++ "/" ++ escapeJsonPointer key⟩) ++
        (inKeyOrder (memberPatches previous current (Json.Pointer.render tokens))).flatMap
          Prod.snd) = .ok after := by
  obtain ⟨keys, -⟩ := Json.isDistinct_object.mp distinct
  obtain ⟨keys', -⟩ := Json.isDistinct_object.mp also
  have related := (objectsEqual_iff (Json.isDistinct_object.mp held).1).mp follows
  have shared (key : String) : (client.lookup key).isSome = (previous.lookup key).isSome := by
    have both := related key
    revert both
    cases client.lookup key <;> cases previous.lookup key <;> rintro ⟨⟩ <;> rfl
  have sorted := nodup_inKeyOrder (nodup_missingIn current keys)
  have present : ∀ key ∈ (inKeyOrder (missingIn previous current)).map Prod.fst,
      (client.lookup key).isSome := fun key member => by
    rw [shared]
    exact (mem_keys_missingIn.mp member).1
  obtain ⟨_, removed⟩ := runs_removals _ through sorted present
  obtain rfl := foldlM_ok removed (patch_removals _ through.at? sorted present)
  have kept := through.setAt (.object
    (((inKeyOrder (missingIn previous current)).map Prod.fst).foldl Json.drop client))
  obtain ⟨_, added⟩ := runs_additions (inKeyOrder (missingIn current previous)) kept
  obtain rfl := foldlM_ok added (patch_additions _ kept.at?)
  have grown := kept.setAt (.object ((inKeyOrder (missingIn current previous)).foldl
    (fun members (key, value) => Json.put members key value)
    (((inKeyOrder (missingIn previous current)).map Prod.fst).foldl Json.drop client)))
  obtain ⟨after, patched⟩ := runs_members
    (inKeyOrder (memberPatches previous current (Json.Pointer.render tokens))) grown
    (nodup_inKeyOrder (nodup_memberPatches keys)) fun key operations member => by
      obtain ⟨before, now, isBefore, isNow, rfl⟩ := mem_memberPatches.mp (mem_inKeyOrder.mp member)
      have isBefore := Json.lookup_of_mem keys isBefore
      have both := related key
      rw [isBefore] at both
      cases found : client.lookup key with
      | none =>
        rw [found] at both
        cases both
      | some value =>
        rw [found] at both
        cases both with
        | some equal =>
          refine ⟨value, ?_, ?_⟩
          · rw [lookup_grown keys' (shared key)]
            simp [isBefore, isNow, found]
          · rw [path_append]
            exact common key before now value isBefore isNow found equal
  refine ⟨after, ?_⟩
  rw [foldlM_append_ok ((foldlM_append_ok removed).trans added)]
  exact patched

/-- The client accepts the patch between two values at a place that holds the first one. -/
theorem runs_jsonPatch {previous current client : Json} (distinct : previous.isDistinct = true)
    (also : current.isDistinct = true) (held : client.isDistinct = true)
    (follows : jsonValuesEqual client previous = true) (through : Through document tokens client)
    (objects : tokens = [] → isObjectJson previous = true ∧ isObjectJson current = true) :
    ∃ after, (jsonPatch previous current (Json.Pointer.render tokens)).foldlM applyJson document =
      .ok after := by
  induction previous using Json.inductionOn generalizing current client document tokens with
  | scalar value notArray notObject =>
    unfold jsonPatch
    split
    · exact ⟨document, rfl⟩
    · split
      · exact absurd rfl (notObject _)
      · refine runs_replace _ (fun root => ?_) through
        cases value with
        | object members => exact notObject members rfl
        | _ => exact absurd (objects root).1 Bool.false_ne_true
  | array items =>
    unfold jsonPatch
    split
    · exact ⟨document, rfl⟩
    · exact runs_replace _ (fun root => absurd (objects root).1 Bool.false_ne_true) through
  | object members induction =>
    unfold jsonPatch
    split
    · exact ⟨document, rfl⟩
    · cases current with
      | object others =>
        cases client with
        | object mine =>
          refine runs_objects distinct also held follows through ?_
          intro key before after value isBefore isAfter isValue equal document inside
          have distinct := (Json.isDistinct_object.mp distinct).2 key before isBefore
          have also := (Json.isDistinct_object.mp also).2 key after isAfter
          have held := (Json.isDistinct_object.mp held).2 key value isValue
          obtain ⟨result, runs⟩ := induction key before (Json.mem_of_lookup isBefore) distinct
            also held equal inside fun root => absurd root (by simp)
          obtain ⟨new, patched, -, -⟩ :=
            jsonPatch_reaches distinct also (tokens ++ [key]) held equal document inside.at?
          exact ⟨new, foldlM_ok runs patched ▸ runs⟩
        | _ => simp [jsonValuesEqual] at follows
      | _ => exact runs_replace _ (fun root => absurd (objects root).2 Bool.false_ne_true) through

end Adapter

/-! ## What the client computes -/

/-- A heap with the prototypes and an object with one member. -/
def memberHeap (key : String) (value : Json) : Heap :=
  [{ prototype := objectPrototype, content := .object [] },
    { prototype := objectPrototype, content := .object [] },
    { prototype := objectPrototype, content := .object [(key, .scalar value)] }]

theorem tree_memberHeap (key : String) {value : Json} (plain : isScalar value = true) :
    ∃ cells, Tree (memberHeap key value) (.reference 2) (.object [(key, value)]) cells := by
  have children : ∀ slot found child,
      (Content.object [(key, .scalar value)]).at? slot = some found →
      slot? (.object [(key, value)]) slot = some child →
      Tree (memberHeap key value) found child ∅ := by
    intro slot found child here there
    cases slot with
    | index position => cases here
    | key name =>
      simp only [Content.at?, slot?, List.lookup_cons] at here there
      cases same : name == key with
      | false =>
        rw [same] at here
        cases here
      | true =>
        rw [same] at here there
        cases here
        cases there
        exact .scalar plain
  exact ⟨_, .cell rfl rfl children (fun _ _ => rfl) (fun _ => Set.notMem_empty _)
    fun _ _ _ => Set.disjoint_empty _⟩

end Tinkerfin.Agui
