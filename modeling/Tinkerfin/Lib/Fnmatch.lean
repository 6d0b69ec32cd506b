import Mathlib.Data.List.Basic

/-!
# Shell-style patterns

A star stands for any text and a question mark for one character.  Brackets stand for one character
of a set, or outside of it behind an exclamation mark; an opening bracket without its closing one is
a plain character.
-/

namespace Fnmatch

/-- One part of a pattern. -/
inductive Token
  | star
  | question
  /-- Inclusive ranges of characters. -/
  | set (negated : Bool) (ranges : List (Char × Char))
  | plain (char : Char)
  deriving DecidableEq

/-- The text between the brackets of a set; a closing bracket in front belongs to it. -/
def setBody (rest : List Char) : Option (List Char) :=
  let first := if rest.head? = some '!' then 1 else 0
  let second := if (rest.drop first).head? = some ']' then first + 1 else first
  let size := second + ((rest.drop second).takeWhile fun char => char ≠ ']').length
  if size < rest.length then some (rest.take size) else none

/-- Characters and ranges of a set. -/
def setRanges : List Char → List (Char × Char)
  | low :: '-' :: high :: rest => (low, high) :: setRanges rest
  | char :: rest => (char, char) :: setRanges rest
  | [] => []

def setToken (body : List Char) : Token :=
  match body with
  | '!' :: body => .set true (setRanges body)
  | body => .set false (setRanges body)

/-- The tokens of a pattern behind some characters that belong to a token already. -/
def tokensFrom : (skipped : Nat) → List Char → List Token
  | _, [] => []
  | skipped + 1, _ :: rest => tokensFrom skipped rest
  | 0, char :: rest =>
    if char = '*' then
      .star :: tokensFrom 0 rest
    else if char = '?' then
      .question :: tokensFrom 0 rest
    else if char = '[' then
      match setBody rest with
      | some body => setToken body :: tokensFrom (body.length + 1) rest
      | none => .plain char :: tokensFrom 0 rest
    else
      .plain char :: tokensFrom 0 rest

/-- Whether a matcher accepts some end of a text. -/
def acceptsEnd (accepts : List Char → Bool) : List Char → Bool
  | [] => accepts []
  | char :: text => accepts (char :: text) || acceptsEnd accepts text

/-- Whether tokens match a whole text. -/
def accepts : List Token → List Char → Bool
  | [], text => text.isEmpty
  | .star :: tokens, text => acceptsEnd (accepts tokens) text
  | _ :: _, [] => false
  | .question :: tokens, _ :: text => accepts tokens text
  | .set negated ranges :: tokens, char :: text =>
    (negated ^^ ranges.any fun range => range.1 ≤ char && char ≤ range.2) && accepts tokens text
  | .plain expected :: tokens, char :: text => expected = char && accepts tokens text

/-- Match a whole name, with case. -/
def fnmatchcase (name pattern : String) : Bool := accepts (tokensFrom 0 pattern.toList) name.toList

example : fnmatchcase "a.py" "*.p[xy]" = true := by decide

example : fnmatchcase "a]b" "a[!]-]b" = false := by decide

end Fnmatch
