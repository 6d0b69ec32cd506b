import Mathlib.Data.List.Sort
import Mathlib.Data.String.Basic
import Tinkerfin.Tracing.Redaction

/-!
# Redaction of selected paths

A redactor may name the values to hide by JSON pointers.  The pointers are applied one after the
other to one copy, shorter ones first, so that a later pointer can meet the marker that an earlier
one left.
-/

namespace Tinkerfin.Tracing

/-! ## Pointers -/

/-- Every `~` starts one of the two escapes. -/
def escapesAreCanonical : List Char → Bool
  | [] => true
  | '~' :: '0' :: chars => escapesAreCanonical chars
  | '~' :: '1' :: chars => escapesAreCanonical chars
  | '~' :: _ => false
  | _ :: chars => escapesAreCanonical chars

/-- The empty text, or a text that starts with `/` and has no other `~` than in escapes. -/
def isCanonicalPointer (path : String) : Bool :=
  path == "" || (path.toList.head? == some '/' && escapesAreCanonical path.toList)

/-- Every occurrence of two characters becomes one character. -/
def replacePair (first second target : Char) : List Char → List Char
  | [] => []
  | [char] => [char]
  | char :: next :: chars =>
    if char = first ∧ next = second then target :: replacePair first second target chars
    else char :: replacePair first second target (next :: chars)

/-- The reference tokens of a pointer: what follows each `/`, without escapes. -/
def pointerComponents (path : String) : List String :=
  (path.toList.splitOn '/').tail.map fun part =>
    String.ofList (replacePair '~' '0' '~' (replacePair '~' '1' '/' part))

/-- The value with the marker at a pointer, if it has something there. -/
def replacePointer (value : Json) (path : String) : Json :=
  value.setAt (pointerComponents path) redactedMarker

/-- Shorter pointers first, then in the order of their texts. -/
def precedes (left right : String) : Prop :=
  left.toList.count '/' < right.toList.count '/' ∨
    left.toList.count '/' = right.toList.count '/' ∧ left ≤ right

instance : DecidableRel precedes := fun left right => by
  unfold precedes
  infer_instance

/-- The value with markers at all paths. -/
def redactJsonPaths (value : Json) (paths : List String) : Except String Json :=
  if paths.any fun path => !isCanonicalPointer path then
    .error "paths must contain canonical JSON Pointers"
  else if ¬paths.Nodup then .error "paths must be unique"
  else if "" ∈ paths then
    if paths.length ≠ 1 then .error "the root path must be used alone" else .ok redactedMarker
  else .ok ((paths.insertionSort precedes).foldl replacePointer value)

/-! ## Locations -/

/-- One step into a value. -/
inductive Place
  | member (name : String)
  | item (index : Nat)
  deriving DecidableEq

/-- The step that a reference token stands for. -/
def Place.isNamed (token : String) : Place → Bool
  | .member name => token = name
  | .item index => Json.arrayIndex? token = some index

/-- The reference tokens lead to the location. -/
def addresses : List String → List Place → Bool
  | [], [] => true
  | token :: tokens, place :: location => place.isNamed token && addresses tokens location
  | _, _ => false

/-- One of the paths addresses the location. -/
def isSelected (paths : List String) (location : List Place) : Bool :=
  paths.any fun path => addresses (pointerComponents path) location

mutual

/-- The value with the marker at every selected location that is not below another one. -/
def marked (selected : List Place → Bool) : Json → Json
  | .array items => if selected [] then redactedMarker else .array (markedItems selected 0 items)
  | .object members =>
    if selected [] then redactedMarker else .object (markedMembers selected members)
  | value => if selected [] then redactedMarker else value

def markedItems (selected : List Place → Bool) (index : Nat) : List Json → List Json
  | [] => []
  | item :: items => marked (fun location => selected (.item index :: location)) item ::
      markedItems selected (index + 1) items

def markedMembers (selected : List Place → Bool) : List (String × Json) → List (String × Json)
  | [] => []
  | (key, value) :: members =>
    (key, marked (fun location => selected (.member key :: location)) value) ::
      markedMembers selected members

end

/-- The child of a value at a place. -/
def childAt? : Json → Place → Option Json
  | .object members, .member name => members.lookup name
  | .array items, .item index => items[index]?
  | _, _ => none

/-- The place that a reference token stands for in a value. -/
def placeOf? : Json → String → Option Place
  | .object _, token => some (.member token)
  | .array _, token => (Json.arrayIndex? token).map .item
  | _, _ => none

/-- The tokens go from a selected location of the value, which is not below another one, just to the
member that its marker has. -/
def EntersMarker (selected : List Place → Bool) (value : Json) : List String → Prop
  | [] => False
  | token :: tokens =>
    if selected [] then token = "$type" ∧ tokens = []
    else ∃ place child, placeOf? value token = some place ∧ childAt? value place = some child ∧
      EntersMarker (fun location => selected (place :: location)) child tokens

section Marked

variable {selected others : List Place → Bool} {value child : Json} {token name : String}
  {tokens : List String} {items : List Json} {members : List (String × Json)}

theorem setAt_of_child (found : value.child? token = some child) {target : Json} :
    value.setAt (token :: tokens) target = value.setChild token (child.setAt tokens target) := by
  rw [Json.setAt, found]

theorem setAt_of_missing (missing : value.child? token = none) {target : Json} :
    value.setAt (token :: tokens) target = value := by
  rw [Json.setAt, missing]

theorem marked_of_selected (here : selected [] = true) :
    marked selected value = redactedMarker := by
  cases value <;> simp [marked, here]

theorem getElem?_markedItems (start index : Nat) : (markedItems selected start items)[index]? =
    items[index]?.map (marked fun location => selected (.item (start + index) :: location)) := by
  induction items generalizing start index with
  | nil => rfl
  | cons item items ih =>
    cases index with
    | zero => rfl
    | succ index =>
      rw [markedItems, List.getElem?_cons_succ, List.getElem?_cons_succ, ih,
        Nat.add_right_comm, Nat.add_assoc]

theorem lookup_markedMembers : (markedMembers selected members).lookup name =
    (members.lookup name).map (marked fun location => selected (.member name :: location)) := by
  induction members with
  | nil => rfl
  | cons member members ih =>
    obtain ⟨key, value⟩ := member
    rw [markedMembers, Json.lookup_member, Json.lookup_member, ih]
    split
    · next same => rw [same, Option.map_some]
    · rfl

theorem markedMembers_congr (same : ∀ key ∈ members.map Prod.fst,
    (fun location => selected (.member key :: location)) =
      fun location => others (.member key :: location)) :
    markedMembers selected members = markedMembers others members := by
  induction members with
  | nil => rfl
  | cons member members ih =>
    rw [markedMembers, markedMembers, same member.1 (by simp),
      ih fun key listed => same key (List.mem_cons_of_mem _ listed)]

theorem markedItems_congr (start : Nat) (same : ∀ index, start ≤ index →
    (fun location => selected (.item index :: location)) =
      fun location => others (.item index :: location)) :
    markedItems selected start items = markedItems others start items := by
  induction items generalizing start with
  | nil => rfl
  | cons item items ih =>
    rw [markedItems, markedItems, same start le_rfl,
      ih (start + 1) fun index later => same index (Nat.le_of_succ_le later)]

variable (others) in
/-- Another selection at one member changes that member alone. -/
theorem put_markedMembers (distinct : (members.map Prod.fst).Nodup)
    (found : members.lookup name = some child)
    (same : ∀ key, key ≠ name → (fun location => selected (.member key :: location)) =
      fun location => others (.member key :: location)) :
    Json.put (markedMembers selected members) name
        (marked (fun location => others (.member name :: location)) child) =
      markedMembers others members := by
  induction members with
  | nil => cases found
  | cons member members ih =>
    obtain ⟨key, value⟩ := member
    rw [List.map_cons, List.nodup_cons] at distinct
    rw [Json.lookup_member] at found
    rw [markedMembers, markedMembers, Json.put]
    split at found
    · next here =>
        subst here
        obtain rfl := Option.some.inj found
        rw [if_pos rfl, markedMembers_congr fun other listed => same other ?_]
        rintro rfl
        exact distinct.1 listed
    · next away => rw [if_neg (Ne.symm away), ih distinct.2 found, same key (Ne.symm away)]

variable (others) in
/-- Another selection at one item changes that item alone. -/
theorem set_markedItems (start index : Nat) (found : items[index]? = some child)
    (same : ∀ other, other ≠ start + index → (fun location => selected (.item other :: location)) =
      fun location => others (.item other :: location)) :
    (markedItems selected start items).set index
        (marked (fun location => others (.item (start + index) :: location)) child) =
      markedItems others start items := by
  induction items generalizing start index with
  | nil => cases found
  | cons item items ih =>
    cases index with
    | zero =>
      obtain rfl := Option.some.inj found
      rw [markedItems, markedItems, List.set_cons_zero, Nat.add_zero,
        markedItems_congr (start + 1) fun other later => same other (by omega)]
    | succ index =>
      have rest := ih (start + 1) index found fun other away => same other (by omega)
      rw [Nat.add_right_comm, Nat.add_assoc] at rest
      rw [markedItems, markedItems, List.set_cons_succ, rest, same start (by omega)]

/-- The marker at a pointer that does not enter a marker selects one location more. -/
theorem setAt_marked (distinct : value.isDistinct = true)
    (outside : ¬EntersMarker selected value tokens) :
    (marked selected value).setAt tokens redactedMarker =
      marked (fun location => selected location || addresses tokens location) value := by
  induction tokens generalizing selected value with
  | nil =>
    have here : (selected [] || addresses [] []) = true := Bool.or_true _
    exact (marked_of_selected here).symm
  | cons token tokens ih =>
    by_cases here : selected [] = true
    · rw [marked_of_selected here, marked_of_selected (by rw [here, Bool.true_or])]
      rw [EntersMarker, if_pos here] at outside
      by_cases inside : token = "$type"
      · subst inside
        cases tokens with
        | nil => exact (outside ⟨rfl, rfl⟩).elim
        | cons next rest => rfl
      · refine setAt_of_missing ?_
        rw [redactedMarker, Json.child?, Json.lookup_member, if_neg inside]
        rfl
    · rw [EntersMarker, if_neg here] at outside
      have still : ¬(selected [] || addresses (token :: tokens) []) = true := by
        simpa [addresses] using here
      have apart (place : Place) (other : place.isNamed token = false) :
          (fun location => selected (place :: location)) = fun location =>
            selected (place :: location) || addresses (token :: tokens) (place :: location) := by
        funext location
        rw [addresses, other, Bool.false_and, Bool.or_false]
      have along (place : Place) (named : place.isNamed token = true) :
          (fun location => selected (place :: location) ||
              addresses (token :: tokens) (place :: location)) =
            fun location => selected (place :: location) || addresses tokens location := by
        funext location
        rw [addresses, named, Bool.true_and]
      cases value with
      | object members =>
        rw [marked, marked, if_neg here, if_neg still]
        have inner : (Json.object (markedMembers selected members)).child? token =
            (members.lookup token).map
              (marked fun location => selected (.member token :: location)) :=
          lookup_markedMembers
        cases found : members.lookup token with
        | none =>
          rw [setAt_of_missing (by rw [inner, found]; rfl)]
          refine congrArg Json.object (markedMembers_congr fun key listed => ?_)
          refine apart (.member key) (decide_eq_false ?_)
          rintro rfl
          have absent := (Json.lookup_isSome_iff members token).mpr listed
          rw [found] at absent
          cases absent
        | some child =>
          have step : (Json.object members).child? token = some child := found
          have deeper := ih (Json.isDistinct_child distinct step)
            fun enters => outside ⟨.member token, child, rfl, found, enters⟩
          rw [setAt_of_child (by rw [inner, found]; rfl), deeper,
            ← along (.member token) (decide_eq_true rfl)]
          refine congrArg Json.object (put_markedMembers
            (fun location => selected location || addresses (token :: tokens) location)
            (Json.isDistinct_object.mp distinct).1 found fun key away => ?_)
          exact apart (.member key) (decide_eq_false (Ne.symm away))
      | array items =>
        rw [marked, marked, if_neg here, if_neg still]
        cases named : Json.arrayIndex? token with
        | none =>
          rw [setAt_of_missing (by rw [Json.child?, named]; rfl)]
          refine congrArg Json.array (markedItems_congr 0 fun index _ => ?_)
          exact apart (.item index) (by simp [Place.isNamed, named])
        | some index =>
          have inner : (Json.array (markedItems selected 0 items)).child? token =
              items[index]?.map
                (marked fun location => selected (.item index :: location)) := by
            rw [Json.child?, named, Option.bind_some, getElem?_markedItems, Nat.zero_add]
          have others (other : Nat) (away : other ≠ 0 + index) :
              Place.isNamed token (.item other) = false := by
            simp [Place.isNamed, named, show index ≠ other by omega]
          cases found : items[index]? with
          | none =>
            rw [setAt_of_missing (by rw [inner, found]; rfl)]
            refine congrArg Json.array (List.ext_getElem? fun other => ?_)
            rw [getElem?_markedItems, getElem?_markedItems]
            by_cases same : other = index
            · rw [same, found]
              rfl
            · rw [Nat.zero_add, apart (.item other) (others other (by omega))]
          | some child =>
            have step : (Json.array items).child? token = some child := by
              rw [Json.child?, named, Option.bind_some, found]
            have deeper := ih (Json.isDistinct_child distinct step) fun enters =>
              outside ⟨.item index, child, by rw [placeOf?, named]; rfl, found, enters⟩
            rw [setAt_of_child (by rw [inner, found]; rfl), deeper,
              ← along (.item index) (by simp [Place.isNamed, named])]
            simp only [Json.setChild, named, Option.elim_some]
            have kept := set_markedItems
              (fun location => selected location || addresses (token :: tokens) location)
              0 index found fun other away => apart (.item other) (others other away)
            rw [Nat.zero_add] at kept
            exact congrArg Json.array kept
      | _ =>
        rw [marked, marked, if_neg here, if_neg still]
        · exact setAt_of_missing rfl
        all_goals simp

theorem length_eq_of_addresses {location : List Place} (named : addresses tokens location = true) :
    location.length = tokens.length := by
  induction tokens generalizing location with
  | nil =>
    cases location with
    | nil => rfl
    | cons _ _ => cases named
  | cons token tokens ih =>
    cases location with
    | nil => cases named
    | cons place location =>
      rw [addresses, Bool.and_eq_true] at named
      rw [List.length_cons, List.length_cons, ih named.2]

/-- A marker that is entered under fewer selections is entered under all, if the further ones lie
deeper. -/
theorem EntersMarker.mono (enters : EntersMarker selected value tokens)
    (grows : ∀ location, selected location = true → others location = true)
    (deep : ∀ location, location.length < tokens.length → others location = true →
      selected location = true) : EntersMarker others value tokens := by
  induction tokens generalizing selected others value with
  | nil => exact enters
  | cons token tokens ih =>
    rw [EntersMarker] at enters ⊢
    by_cases here : selected [] = true
    · rw [if_pos here] at enters
      rwa [if_pos (grows [] here)]
    · rw [if_neg here] at enters
      rw [if_neg fun there => here (deep [] (Nat.succ_pos _) there)]
      obtain ⟨place, child, named, found, enters⟩ := enters
      refine ⟨place, child, named, found, ih enters (fun location => grows _) ?_⟩
      exact fun location short => deep (place :: location) (Nat.succ_lt_succ short)

end Marked

/-! ## All paths -/

theorem length_splitOn (chars : List Char) :
    (chars.splitOn '/').length = chars.count '/' + 1 := by
  induction chars with
  | nil => rfl
  | cons char chars ih =>
    rw [List.splitOn_cons_eq_if_modifyHead, List.count_cons]
    split
    · next slash => rw [List.length_cons, ih]
    · next plain => rw [List.length_modifyHead, ih, Nat.add_zero]

theorem length_pointerComponents (path : String) :
    (pointerComponents path).length = path.toList.count '/' := by
  rw [pointerComponents, List.length_map, List.length_tail, length_splitOn, Nat.add_sub_cancel]

instance : Std.Total precedes := ⟨fun left right => by
  unfold precedes
  have := le_total left right
  grind⟩

instance : IsTrans String precedes := ⟨fun left middle right first second => by
  unfold precedes at *
  grind⟩

section Paths

variable {value : Json} {paths : List String}

/-- Applying pointers in their order marks what they select. -/
theorem foldl_replacePointer (distinct : value.isDistinct = true) (later : List String)
    (before : List String) (sorted : (before ++ later).Pairwise precedes)
    (outside : ∀ path ∈ before ++ later,
      ¬EntersMarker (isSelected (before ++ later)) value (pointerComponents path)) :
    later.foldl replacePointer (marked (isSelected before) value) =
      marked (isSelected (before ++ later)) value := by
  induction later generalizing before with
  | nil => rw [List.append_nil, List.foldl_nil]
  | cons path later ih =>
    have split : before ++ path :: later = before ++ [path] ++ later := by simp
    have enters : ¬EntersMarker (isSelected before) value (pointerComponents path) := by
      refine fun enters => outside path (by simp) (enters.mono ?_ ?_)
      · intro location selected
        rw [isSelected, List.any_append]
        simp [show (before.any fun path => addresses (pointerComponents path) location) = true
          from selected]
      · intro location short selected
        obtain ⟨other, listed, named⟩ := List.any_eq_true.mp selected
        refine List.any_eq_true.mpr ⟨other, ?_, named⟩
        -- a path that addresses a shorter location stands further in front
        obtain earlier | rfl | afterwards : other ∈ before ∨ other = path ∨ other ∈ later := by
          simpa using listed
        · exact earlier
        · exact absurd (length_eq_of_addresses named) (Nat.ne_of_lt short)
        · have ordered := (List.pairwise_append.mp sorted).2.1
          have behind := (List.pairwise_cons.mp ordered).1 other afterwards
          have long := length_eq_of_addresses named
          rw [length_pointerComponents] at long short
          obtain shorter | ⟨same, -⟩ := behind <;> omega
    have step : replacePointer (marked (isSelected before) value) path =
        marked (isSelected (before ++ [path])) value := by
      rw [replacePointer, setAt_marked distinct enters]
      congr 1
      funext location
      simp [isSelected, List.any_append]
    rw [List.foldl_cons, step, split]
    exact ih (before ++ [path]) (split ▸ sorted) (split ▸ outside)

theorem isSelected_perm {others : List String} (same : others.Perm paths) :
    isSelected others = isSelected paths := by
  funext location
  rw [isSelected, isSelected, Bool.eq_iff_iff, List.any_eq_true, List.any_eq_true]
  simp only [same.mem_iff]

mutual

theorem marked_nowhere : ∀ value, marked (fun _ => false) value = value
  | .array items => congrArg Json.array (markedItems_nowhere 0 items)
  | .object members => congrArg Json.object (markedMembers_nowhere members)
  | .null => rfl
  | .bool _ => rfl
  | .int _ => rfl
  | .float _ => rfl
  | .string _ => rfl

theorem markedItems_nowhere (index : Nat) :
    ∀ items, markedItems (fun _ => false) index items = items
  | [] => rfl
  | item :: items => by rw [markedItems, marked_nowhere item, markedItems_nowhere (index + 1) items]

theorem markedMembers_nowhere : ∀ members, markedMembers (fun _ => false) members = members
  | [] => rfl
  | (_, value) :: members => by
    rw [markedMembers, marked_nowhere value, markedMembers_nowhere members]

end

/-- Exactly the selected locations that are not below others hold the marker, in whatever order the
paths come.  The root pointer stands alone, and no path leads on into the marker of another one. -/
theorem redactJsonPaths_marks (distinct : value.isDistinct = true)
    (canonical : ∀ path ∈ paths, isCanonicalPointer path = true) (unique : paths.Nodup)
    (outside : ∀ path ∈ paths, ¬EntersMarker (isSelected paths) value (pointerComponents path)) :
    ∀ others : List String, others.Perm paths → redactJsonPaths value others =
      if "" ∈ paths ∧ paths ≠ [""] then .error "the root path must be used alone"
      else .ok (marked (isSelected paths) value) := by
  intro others same
  have wellFormed : ¬(others.any fun path => !isCanonicalPointer path) = true := by
    simpa using fun path listed => canonical path (same.mem_iff.mp listed)
  rw [redactJsonPaths, if_neg wellFormed, if_neg (not_not.mpr (same.nodup_iff.mpr unique))]
  by_cases root : "" ∈ others
  · rw [if_pos root]
    by_cases alone : paths = [""]
    · subst alone
      have single : isSelected [""] [] = true := by decide
      rw [if_neg (by simp [same.length_eq]), if_neg (by simp), marked_of_selected single]
    · have more : others.length ≠ 1 := by
        intro one
        obtain ⟨path, rfl⟩ := List.length_eq_one_iff.mp one
        obtain rfl := List.mem_singleton.mp root
        exact alone (List.singleton_perm.mp same).symm
      rw [if_pos more, if_pos ⟨same.mem_iff.mp root, alone⟩]
  · rw [if_neg root, if_neg fun both => root (same.mem_iff.mpr both.1)]
    have sorted := (List.perm_insertionSort precedes others).trans same
    have all : isSelected ([] ++ others.insertionSort precedes) = isSelected paths :=
      isSelected_perm sorted
    have marks := foldl_replacePointer distinct (others.insertionSort precedes) []
      (List.pairwise_insertionSort precedes others)
      fun path listed => all ▸ outside path (sorted.mem_iff.mp listed)
    rw [all, show isSelected [] = fun _ => false from rfl, marked_nowhere] at marks
    rw [marks]

theorem redactJsonPaths_marks_members :
    redactJsonPaths (.object [("a/b", .int 1), ("c", .int 2)]) ["/c", "/a~1b"] =
      .ok (.object [("a/b", redactedMarker), ("c", redactedMarker)]) := by
  have outside : ∀ path ∈ ["/a~1b", "/c"], ¬EntersMarker (isSelected ["/a~1b", "/c"])
      (.object [("a/b", .int 1), ("c", .int 2)]) (pointerComponents path) := by
    intro path listed
    have single : ∃ token, pointerComponents path = [token] := by
      obtain rfl | rfl : path = "/a~1b" ∨ path = "/c" := by simpa using listed
      · exact ⟨"a/b", by decide⟩
      · exact ⟨"c", by decide⟩
    obtain ⟨token, same⟩ := single
    rw [same, EntersMarker, if_neg (by decide)]
    rintro ⟨_, _, _, _, entered⟩
    exact entered
  exact redactJsonPaths_marks (by decide) (by decide) (by decide) outside ["/c", "/a~1b"] (.swap ..)

/-- The root pointer with another one is refused, and a pointer into the marker of another one
replaces the marker's own member. -/
theorem redactJsonPaths_enters_marker :
    redactJsonPaths (.object [("a", .int 1)]) ["", "/a"] =
      .error "the root path must be used alone" ∧
    redactJsonPaths (.object [("a", .int 1)]) ["/a", "/a/$type"] =
      .ok (.object [("a", .object [("$type", redactedMarker)])]) ∧
    marked (isSelected ["/a", "/a/$type"]) (.object [("a", .int 1)]) =
      .object [("a", redactedMarker)] :=
  ⟨rfl, rfl, rfl⟩

end Paths

end Tinkerfin.Tracing
