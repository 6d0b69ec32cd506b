import Mathlib.Data.List.Sort
import Tinkerfin.Lib.Sha256

/-!
# Canonical JSON text

JSON values and their compact text with sorted object keys and unescaped non-ASCII characters.
Numbers are integers or the decimal text of a finite float.
-/

inductive Json
  | null
  | bool (value : Bool)
  | int (value : Int)
  | float (text : String)
  | string (text : String)
  | array (items : List Json)
  | object (members : List (String × Json))
  deriving Repr, Inhabited

namespace Json

/-- Four lowercase hexadecimal digits of a control character. -/
def unicodeEscape (char : Char) : List Char :=
  '\\' :: 'u' :: '0' :: '0' :: Sha256.hexDigit (char.toNat / 16) ::
    [Sha256.hexDigit (char.toNat % 16)]

/-- One character inside a JSON string. -/
def escape (char : Char) : List Char :=
  if char = '"' then ['\\', '"']
  else if char = '\\' then ['\\', '\\']
  else if char = '\n' then ['\\', 'n']
  else if char = '\r' then ['\\', 'r']
  else if char = '\t' then ['\\', 't']
  else if char.toNat = 12 then ['\\', 'f']
  else if char.toNat = 8 then ['\\', 'b']
  else if char.toNat < 32 then unicodeEscape char
  else [char]

/-- A quoted JSON string. -/
def quote (text : String) : String :=
  String.ofList ('"' :: text.toList.flatMap escape ++ ['"'])

/-- Object members in key order, keys quoted. -/
def sortedMembers (members : List (String × String)) : List String :=
  (members.insertionSort fun left right => left.1 ≤ right.1).map fun member =>
    quote member.1 ++ ":" ++ member.2

mutual

/-- Compact text of a value with sorted object keys. -/
def dumps : Json → String
  | .null => "null"
  | .bool value => if value then "true" else "false"
  | .int value => toString value
  | .float text => text
  | .string text => quote text
  | .array items => "[" ++ ",".intercalate (dumpsItems items) ++ "]"
  | .object members => "\x7b" ++ ",".intercalate (sortedMembers (dumpsMembers members)) ++ "\x7d"

def dumpsItems : List Json → List String
  | [] => []
  | item :: items => dumps item :: dumpsItems items

def dumpsMembers : List (String × Json) → List (String × String)
  | [] => []
  | (key, value) :: members => (key, dumps value) :: dumpsMembers members

end

mutual

/-- The value with the members of every object in key order. -/
def normalized : Json → Json
  | .array items => .array (normalizedItems items)
  | .object members => .object (normalizedMembers members)
  | value => value

def normalizedItems : List Json → List Json
  | [] => []
  | item :: items => normalized item :: normalizedItems items

def normalizedMembers : List (String × Json) → List (String × Json)
  | [] => []
  | (key, value) :: members =>
    (normalizedMembers members).orderedInsert (fun left right => left.1 ≤ right.1)
      (key, normalized value)

end

/-- A scalar with truth values and integral floats as integers. -/
def numeric : Json → Json
  | .bool value => .int (if value then 1 else 0)
  | .float text =>
    match text.toList.reverse with
    | '0' :: '.' :: digits => ((String.ofList digits.reverse).toInt?).elim (.float text) .int
    | _ => .float text
  | value => value

/-- Equality of scalars: numbers by value, everything else by kind and value. -/
def sameScalar (left right : Json) : Bool :=
  match left.numeric, right.numeric with
  | .null, .null => true
  | .int left, .int right => left = right
  | .float left, .float right => left = right
  | .string left, .string right => left = right
  | _, _ => false

mutual

/-- Equality as a dynamic language has it: numbers by value and objects without regard to order. -/
def same : Json → Json → Bool
  | .array left, .array right => sameItems left right
  | .object left, .object right => left.length = right.length && sameMembers left right
  | left, right => sameScalar left right

def sameItems : List Json → List Json → Bool
  | [], [] => true
  | left :: lefts, right :: rights => same left right && sameItems lefts rights
  | _, _ => false

/-- Every member of the first object is in the second one. -/
def sameMembers : List (String × Json) → List (String × Json) → Bool
  | [], _ => true
  | (key, value) :: members, others =>
    (match others.lookup key with
    | some other => same value other
    | none => false) && sameMembers members others

end

example : dumps (.object [("b", .array [.int (-1), .null]), ("a", .string "x\"y")]) =
    "\x7b\"a\":\"x\\\"y\",\"b\":[-1,null]\x7d" := by
  decide +kernel

end Json
