import Tinkerfin.Lib.BoundedSearch
import Tinkerfin.Lib.TextLines
import Tinkerfin.Lib.Utf8
import Tinkerfin.Sandbox.GlobWalk

/-!
# Grep walks

A search appends its matches one after another and stops as soon as it holds one more than asked
for.  The stop is handed up through every directory.
-/

namespace Tinkerfin.Sandbox.Rooted

attribute [local instance] lawfulParts

structure GrepMatch where
  path : String
  line : Nat
  text : String
  deriving DecidableEq

structure GrepResult where
  found : List GrepMatch
  truncated : Bool
  partialError : Option String := none
  deriving DecidableEq

/-! ## The search -/

def grepPathIsIncluded (relativeParts : List String) (includeGlob : Option String) : Bool :=
  match includeGlob with
  | none => true
  | some includeGlob =>
    if '/' ∈ includeGlob.toList then
      let normalized := includeGlob.toList.dropWhile fun char => char = '/'
      let slashed := normalized.map fun char => if char = '\\' then '/' else char
      globPathMatches relativeParts ((slashed.splitOn '/').map String.ofList)
    else
      Fnmatch.fnmatchcase (relativeParts.getLast?.getD "") includeGlob

/-- A line without the line feeds at its end. -/
def withoutNewline (line : List Char) : String := String.ofList (TextLines.rstrip '\n' line)

/-- Search lines, counted from a number on. -/
def grepLines (displayPath pattern : String) (maxCount : Option Nat) :
    (lines : List (List Char)) → (lineNumber : Nat) → List GrepMatch → List GrepMatch × Bool
  | [], _, found => (found, false)
  | line :: lines, lineNumber, found =>
    if pattern.toList <:+: line then
      let found := found ++ [{ path := displayPath, line := lineNumber, text := withoutNewline line }]
      if maxCount.any fun maxCount => maxCount < found.length then
        (found, true)
      else
        grepLines displayPath pattern maxCount lines (lineNumber + 1) found
    else
      grepLines displayPath pattern maxCount lines (lineNumber + 1) found

/-- The lines of a file; bytes that are not UTF-8 are left out. -/
def textLines (content : List UInt8) : List (List Char) :=
  TextLines.lines (TextLines.translate (Utf8.decode [] content))

def grepOpenFile (fs : FileSystem) (identity : Identity) (displayPath pattern : String)
    (maxCount : Option Nat) (found : List GrepMatch) : List GrepMatch × Bool :=
  grepLines displayPath pattern maxCount (textLines (fs.content identity)) 1 found

def sortedListing (fs : FileSystem) (directory : Identity) : List String :=
  (fs.listing directory).mergeSort fun left right => left ≤ right

/-- Search behind some names of a directory. -/
def grepDirectory (fs : FileSystem) (baseParts : List String) (pattern : String)
    (includeGlob : Option String) (maxCount : Option Nat) :
    (names relativeParts : List String) → (ancestors : Finset Identity) → List GrepMatch →
      List GrepMatch × Bool
  | [], _, _, found => (found, false)
  | name :: names, relativeParts, ancestors, found =>
    let candidateRelative := relativeParts ++ [name]
    let candidateVirtual := baseParts ++ candidateRelative
    match opened : fs.openPath candidateVirtual with
    | .error _ =>
      grepDirectory fs baseParts pattern includeGlob maxCount names relativeParts ancestors found
    | .ok candidate =>
      let (found, stopped) :=
        if candidate.kind = .directory then
          if entered : candidate.identity ∉ ancestors then
            grepDirectory fs baseParts pattern includeGlob maxCount
              (sortedListing fs candidate.identity) candidateRelative
              (insert candidate.identity ancestors) found
          else
            (found, false)
        else if candidate.kind = .regular ∧ grepPathIsIncluded candidateRelative includeGlob then
          grepOpenFile fs candidate.identity (virtualPath candidateVirtual) pattern maxCount found
        else
          (found, false)
      if stopped then
        (found, true)
      else
        grepDirectory fs baseParts pattern includeGlob maxCount names relativeParts ancestors found
termination_by names _ ancestors _ => (unvisited fs ancestors, names.length)
decreasing_by
  · exact Prod.Lex.right _ (Nat.lt_succ_self _)
  · exact Prod.Lex.left _ _ (unvisited_lt (FileSystem.openPath_mem opened) entered)
  · exact Prod.Lex.right _ (Nat.lt_succ_self _)

/-- Whether a glob leads upwards or holds a null character. -/
def isUnsafeGlob (includeGlob : String) : Bool :=
  let normalized := includeGlob.toList.dropWhile fun char => char = '/'
  let slashed := normalized.map fun char => if char = '\\' then '/' else char
  Char.ofNat 0 ∈ includeGlob.toList || ['.', '.'] ∈ slashed.splitOn '/'

def grepPaths (fs : FileSystem) (path pattern : String) (includeGlob : Option String)
    (maxCount : Option Int) : Except Failure GrepResult :=
  match validateVirtualPath path with
  | none => .error .exdev
  | some virtualParts => do
    if includeGlob.any isUnsafeGlob then
      throw .exdev
    let includeGlob := includeGlob.filter fun glob => glob ≠ ""
    let maxCount := maxCount.map fun count => (max count 0).toNat
    let target ← fs.openPath virtualParts
    let found ← match target.kind with
      | .regular =>
        pure (grepOpenFile fs target.identity (virtualPath virtualParts) pattern maxCount []).1
      | .directory =>
        pure (grepDirectory fs virtualParts pattern includeGlob maxCount
          (sortedListing fs target.identity) [] {target.identity} []).1
      | _ => throw (.rooted "not_a_file" "path is not searchable")
    let truncated := maxCount.any fun maxCount => maxCount < found.length
    return {
      found := if truncated then found.take (maxCount.getD 0) else found
      truncated }

/-! ## The early stop -/

section Stopping

open BoundedSearch

variable (fs : FileSystem) (baseParts : List String) (pattern : String) (includeGlob : Option String)

theorem collects_grepLines (displayPath : String) (lines : List (List Char)) (lineNumber : Nat) :
    ∃ matched, Collects (fun maxCount found =>
      grepLines displayPath pattern maxCount lines lineNumber found) matched := by
  induction lines generalizing lineNumber with
  | nil => exact ⟨[], .nothing⟩
  | cons line lines induction =>
    obtain ⟨others, later⟩ := induction (lineNumber + 1)
    simp only [grepLines]
    by_cases holds : pattern.toList <:+: line
    · simp only [if_pos holds]
      exact ⟨_, (Collects.single _).andThen later⟩
    · simp only [if_neg holds]
      exact ⟨others, later⟩

theorem collects_grepOpenFile (identity : Identity) (displayPath : String) :
    ∃ matched, Collects (fun maxCount found =>
      grepOpenFile fs identity displayPath pattern maxCount found) matched :=
  collects_grepLines pattern displayPath _ 1

/-- The stop behind the first match too many is handed up from every directory. -/
theorem collects_grepDirectory (names relativeParts : List String) (ancestors : Finset Identity) :
    ∃ matched, Collects (fun maxCount found =>
      grepDirectory fs baseParts pattern includeGlob maxCount names relativeParts ancestors found)
      matched := by
  cases names with
  | nil =>
    simp only [grepDirectory]
    exact ⟨[], .nothing⟩
  | cons name names =>
    obtain ⟨others, later⟩ := collects_grepDirectory names relativeParts ancestors
    cases opened : fs.openPath (baseParts ++ (relativeParts ++ [name])) with
    | error failure =>
      refine ⟨others, ?_⟩
      have skipped (maxCount : Option Nat) (found : List GrepMatch) :
          grepDirectory fs baseParts pattern includeGlob maxCount (name :: names) relativeParts
            ancestors found =
          grepDirectory fs baseParts pattern includeGlob maxCount names relativeParts
            ancestors found := by
        rw [grepDirectory]
        split
        · rfl
        · next other => exact absurd (opened.symm.trans other) nofun
      simp only [skipped]
      exact later
    | ok candidate =>
      -- What is searched behind the name, before the other names.
      let here : BoundedSearch GrepMatch := fun maxCount found =>
        if candidate.kind = .directory then
          if candidate.identity ∉ ancestors then
            grepDirectory fs baseParts pattern includeGlob maxCount
              (sortedListing fs candidate.identity) (relativeParts ++ [name])
              (insert candidate.identity ancestors) found
          else
            (found, false)
        else if candidate.kind = .regular ∧
            grepPathIsIncluded (relativeParts ++ [name]) includeGlob then
          grepOpenFile fs candidate.identity (virtualPath (baseParts ++ (relativeParts ++ [name])))
            pattern maxCount found
        else
          (found, false)
      have searched : (fun maxCount found => grepDirectory fs baseParts pattern includeGlob maxCount
          (name :: names) relativeParts ancestors found) = here.andThen fun maxCount found =>
            grepDirectory fs baseParts pattern includeGlob maxCount names relativeParts ancestors
              found := by
        funext maxCount found
        rw [grepDirectory]
        split
        · next other => exact absurd (opened.symm.trans other) nofun
        · next other same =>
            obtain rfl := Except.ok.inj (opened.symm.trans same)
            simp only [here, BoundedSearch.andThen, dite_eq_ite]
      have found : ∃ matched, Collects here matched := by
        by_cases directory : candidate.kind = .directory
        · by_cases entered : candidate.identity ∉ ancestors
          · have smaller := unvisited_lt (FileSystem.openPath_mem opened) entered
            simp only [here, if_pos directory, if_pos entered]
            exact collects_grepDirectory _ _ _
          · simp only [here, if_pos directory, if_neg entered]
            exact ⟨[], .nothing⟩
        · simp only [here, if_neg directory]
          split
          · exact collects_grepOpenFile fs pattern _ _
          · exact ⟨[], .nothing⟩
      obtain ⟨matched, first⟩ := found
      rw [searched]
      exact ⟨matched ++ others, first.andThen later⟩
termination_by (unvisited fs ancestors, names.length)
decreasing_by
  · exact Prod.Lex.right _ (Nat.lt_succ_self _)
  · exact Prod.Lex.left _ _ smaller

/-- What a grep makes of the matches of its search. -/
def boundedResult (maxCount : Option Nat) (found : List GrepMatch) : GrepResult :=
  let truncated := maxCount.any fun maxCount => maxCount < found.length
  { found := if truncated then found.take (maxCount.getD 0) else found, truncated }

/-- A grep fails whatever its bound is, or runs one search under the bound. -/
theorem grepPaths_search (path : String) :
    (∃ failure, ∀ maxCount, grepPaths fs path pattern includeGlob maxCount = .error failure) ∨
    ∃ search matched, Collects search matched ∧ ∀ maxCount,
      let bound := maxCount.map fun count : Int => (max count 0).toNat
      grepPaths fs path pattern includeGlob maxCount =
        .ok (boundedResult bound (search bound []).1) := by
  unfold grepPaths
  cases validateVirtualPath path with
  | none => exact .inl ⟨_, fun _ => rfl⟩
  | some virtualParts =>
    by_cases refused : includeGlob.any isUnsafeGlob = true
    · exact .inl ⟨.exdev, fun _ => by simp only [refused, if_true]; rfl⟩
    cases opened : fs.openPath virtualParts with
    | error failure =>
      exact .inl ⟨failure, fun _ => by simp only [if_neg refused, opened]; rfl⟩
    | ok target =>
      simp only [if_neg refused, opened]
      cases kind : target.kind with
      | regular =>
        obtain ⟨matched, collects⟩ :=
          collects_grepOpenFile fs pattern target.identity (virtualPath virtualParts)
        refine .inr ⟨_, matched, collects, fun maxCount => ?_⟩
        simp only [bind, Except.bind, pure, Except.pure, kind]
        rfl
      | directory =>
        obtain ⟨matched, collects⟩ := collects_grepDirectory fs virtualParts pattern
          (includeGlob.filter fun glob => glob ≠ "") (sortedListing fs target.identity) []
          {target.identity}
        refine .inr ⟨_, matched, collects, fun maxCount => ?_⟩
        simp only [bind, Except.bind, pure, Except.pure, kind]
        rfl
      | link => exact .inl ⟨_, fun _ => by simp only [bind, Except.bind, pure, Except.pure, kind]; rfl⟩
      | other => exact .inl ⟨_, fun _ => by simp only [bind, Except.bind, pure, Except.pure, kind]; rfl⟩

/-- A bounded grep fails as the unlimited one does, or returns the first matches of it and whether
there are more. -/
def BoundedGrep (fs : FileSystem) (path pattern : String) (includeGlob : Option String)
    (maxCount : Int) : Prop :=
  match grepPaths fs path pattern includeGlob none with
  | .error failure => grepPaths fs path pattern includeGlob (some maxCount) = .error failure
  | .ok unlimited => unlimited.truncated = false ∧
      grepPaths fs path pattern includeGlob (some maxCount) = .ok
        { found := unlimited.found.take (max maxCount 0).toNat
          truncated := decide ((max maxCount 0).toNat < unlimited.found.length)
          partialError := unlimited.partialError }

theorem grepPaths_bounded (path : String) (maxCount : Int) :
    BoundedGrep fs path pattern includeGlob maxCount := by
  unfold BoundedGrep
  rcases grepPaths_search fs pattern includeGlob path with ⟨failure, fails⟩ | ⟨search, matched, collects, runs⟩
  · rw [fails]
    exact fails _
  · have unlimited := runs none
    have bounded := runs (some maxCount)
    simp only [Option.map_none, Option.map_some, collects.unbounded, collects.take,
      List.nil_append] at unlimited bounded
    rw [unlimited]
    refine ⟨rfl, bounded.trans (congrArg Except.ok ?_)⟩
    generalize (max maxCount 0).toNat = bound
    simp only [boundedResult, Option.any_some, Option.any_none, Option.getD_some, List.length_take,
      Bool.false_eq_true, if_false]
    have full : bound < min (bound + 1) matched.length ↔ bound < matched.length := by omega
    by_cases more : bound < matched.length
    · simp [full, more, List.take_take]
    · have whole {size : Nat} (large : bound ≤ size) : matched.take size = matched :=
        List.take_of_length_le (by omega)
      simp [full, more, whole (Nat.le_refl bound), whole (Nat.le_succ bound)]

end Stopping

/-! ## Exactness -/

/-- Matching is the component-wise definition, a glob returns what it reaches and matches, and a
bounded grep is the beginning of the unlimited one. -/
theorem walks_exact (fs : FileSystem) :
    (∀ path pattern, globPathMatches path pattern = true ↔ PathMatches pattern path) ∧
    (∀ path pattern baseParts patternParts target, validateVirtualPath path = some baseParts →
      globPatternParts pattern = some patternParts → fs.openPath baseParts = .ok target →
      target.kind = .directory → ∃ matched, globPaths fs path pattern = .ok matched ∧
        GlobOf fs baseParts patternParts matched) ∧
    ∀ path pattern includeGlob maxCount, BoundedGrep fs path pattern includeGlob maxCount :=
  ⟨fun _ _ => globPathMatches_iff,
    fun _ _ _ _ _ valid parsed opened directory => globPaths_exact valid parsed opened directory,
    fun path pattern includeGlob maxCount => grepPaths_bounded fs pattern includeGlob path maxCount⟩

/-- A directory with a file and a link back to the root. -/
def linkedSample : FileSystem where
  root := ["srv"]
  rootIdentity := (0, 1)
  realpath parts := parts.foldl (fun resolved part =>
    if resolved ++ [part] = ["srv", "a", "up"] then ["srv"] else resolved ++ [part]) []
  lookup directory name :=
    if directory = (0, 1) ∧ name = "a" then some ⟨(0, 2), .directory⟩
    else if directory = (0, 2) ∧ name = "up" then some ⟨(0, 3), .link⟩
    else if directory = (0, 2) ∧ name = "b.py" then some ⟨(0, 4), .regular⟩
    else none
  listing directory :=
    if directory = (0, 1) then ["a"] else if directory = (0, 2) then ["up", "b.py"] else []
  content identity := if identity = (0, 4) then [97, 10, 97, 98] else []
  identities := {(0, 1), (0, 2), (0, 3), (0, 4)}
  root_mem := by decide
  lookup_mem directory name stat found := by
    split_ifs at found <;> obtain rfl := Option.some.inj found <;> decide
  listing_nodup directory := by split_ifs <;> decide
  listing_names directory := by split_ifs <;> decide

theorem walks_exact_linked : ∃ matched, globPaths linkedSample "/" "**/*.py" = .ok matched ∧
    { path := "/a/b.py", isDir := false } ∈ matched := by
  have base : linkedSample.openPath [] = .ok ⟨(0, 1), .directory⟩ := by decide
  have inner : linkedSample.openPath ["a"] = .ok ⟨(0, 2), .directory⟩ := by decide
  obtain ⟨matched, returned, -, members⟩ := (walks_exact linkedSample).2.1 "/" "**/*.py" []
    ["**", "*.py"] ⟨(0, 1), .directory⟩ (by decide) (by decide) base rfl
  have chain : Chain linkedSample [] ["a"] [(0, 2), (0, 1)] :=
    .enter (.start base rfl) (by decide) inner rfl (by decide)
  have last : PathMatches ["*.py"] ["b.py"] :=
    (pathMatches_component (by decide)).mpr ⟨_, _, rfl, by decide, by rw [PathMatches]⟩
  have matching : PathMatches ["**", "*.py"] ["a", "b.py"] :=
    pathMatches_stars.mpr (.inr ⟨_, _, rfl, by decide, pathMatches_stars.mpr (.inl last)⟩)
  refine ⟨matched, returned, (members _).mpr ⟨_, ⟨(0, 4), .regular⟩, ?_, matching, by decide⟩⟩
  exact ⟨["a"], (0, 2), [(0, 1)], "b.py", chain, by decide, rfl, by decide⟩

end Tinkerfin.Sandbox.Rooted
