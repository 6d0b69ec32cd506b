import Mathlib.Data.Finset.Card
import Mathlib.Data.List.SplitOn
import Tinkerfin.Lib.Fnmatch
import Tinkerfin.Lib.TextLines

/-!
# Paths below a root

A virtual path is resolved anew from the root, through links, and then opened without following any.
What it names must lie inside the root.
-/

namespace Tinkerfin.Sandbox.Rooted

/-! ## The file system -/

inductive EntryKind
  | regular
  | directory
  | link
  | other
  deriving DecidableEq, Repr

/-- Device and inode. -/
abbrev Identity := Nat × Nat

structure Stat where
  identity : Identity
  kind : EntryKind
  deriving DecidableEq

inductive Failure
  | enoent
  | enotdir
  | exdev
  /-- Text that is not UTF-8. -/
  | undecodable
  /-- A request that names the wrong kind of file. -/
  | rooted (code message : String)
  deriving DecidableEq

/-- A finite file system that does not change, with a directory in it as the root. -/
structure FileSystem where
  root : List String
  rootIdentity : Identity
  /-- The path behind all links of a path. -/
  realpath : List String → List String
  /-- An entry of a directory, links not followed. -/
  lookup : Identity → String → Option Stat
  listing : Identity → List String
  content : Identity → List UInt8
  identities : Finset Identity
  root_mem : rootIdentity ∈ identities
  lookup_mem : ∀ directory name stat, lookup directory name = some stat → stat.identity ∈ identities
  listing_nodup : ∀ directory, (listing directory).Nodup
  listing_names : ∀ directory, ∀ name ∈ listing directory, name.toList ≠ [] ∧ '/' ∉ name.toList

/-! ## Virtual paths -/

theorem lawfulParts : LawfulBEq (List Char) := inferInstance

attribute [local instance] lawfulParts

/-- The components of a virtual path. -/
def validateVirtualPath (path : String) : Option (List String) :=
  match path.toList with
  | '/' :: rest =>
    if rest.head? = some '/' ∨ Char.ofNat 0 ∈ rest then
      none
    else
      let parts := (rest.splitOn '/').filter fun part => part ≠ [] ∧ part ≠ ['.']
      if ['.', '.'] ∈ parts then none else some (parts.map String.ofList)
  | _ => none

/-- The virtual path of components. -/
def virtualPath (parts : List String) : String :=
  String.ofList ('/' :: ['/'].intercalate (parts.map String.toList))

namespace FileSystem

variable (fs : FileSystem)

/-- The components of a path below the root, behind all links. -/
def canonicalParts (virtualParts : List String) : Except Failure (List String) :=
  let resolved := fs.realpath (fs.root ++ virtualParts)
  if fs.root <+: resolved then
    let parts := resolved.drop fs.root.length
    if parts.any fun part => part ∈ ["", ".", ".."] then .error .exdev else .ok parts
  else
    .error .exdev

/-- Open components one after another without following links. -/
def openCanonical (directory : Stat) : List String → Except Failure Stat
  | [] => .ok directory
  | part :: parts =>
    match fs.lookup directory.identity part with
    | none => .error .enoent
    | some stat =>
      if stat.kind = .link then
        .error .exdev
      else if parts ≠ [] ∧ stat.kind ≠ .directory then
        .error .enotdir
      else
        openCanonical stat parts

/-- What a virtual path names. -/
def openPath (virtualParts : List String) : Except Failure Stat := do
  fs.openCanonical ⟨fs.rootIdentity, .directory⟩ (← fs.canonicalParts virtualParts)

variable {fs}

theorem openCanonical_mem {directory stat : Stat} {parts : List String}
    (known : directory.identity ∈ fs.identities)
    (opened : fs.openCanonical directory parts = .ok stat) : stat.identity ∈ fs.identities := by
  induction parts generalizing directory with
  | nil => exact Except.ok.inj opened ▸ known
  | cons part parts induction =>
    rw [openCanonical] at opened
    split at opened
    · cases opened
    · next entry found =>
        split at opened
        · cases opened
        · split at opened
          · cases opened
          · exact induction (fs.lookup_mem _ _ _ found) opened

theorem openPath_mem {virtualParts : List String} {stat : Stat}
    (opened : fs.openPath virtualParts = .ok stat) : stat.identity ∈ fs.identities := by
  unfold openPath at opened
  cases canonical : fs.canonicalParts virtualParts with
  | error failure => simp [canonical, bind, Except.bind] at opened
  | ok parts =>
    rw [canonical] at opened
    exact openCanonical_mem fs.root_mem opened

end FileSystem

/-- A component of a path. -/
def IsComponent (part : String) : Prop := part.toList ≠ [] ∧ '/' ∉ part.toList

theorem splitOn_virtualPath {parts : List String} (names : ∀ part ∈ parts, IsComponent part)
    (some : parts ≠ []) :
    (['/'].intercalate (parts.map String.toList)).splitOn '/' = parts.map String.toList := by
  refine List.splitOn_intercalate _ (fun text member => ?_) (by simpa using some)
  obtain ⟨part, listed, rfl⟩ := List.mem_map.mp member
  exact (names part listed).2

/-- Components can be read off a virtual path. -/
theorem virtualPath_injective {left right : List String} (leftNames : ∀ part ∈ left, IsComponent part)
    (rightNames : ∀ part ∈ right, IsComponent part) (same : virtualPath left = virtualPath right) :
    left = right := by
  -- The root alone has no component, and no other path is so short.
  have empty {parts : List String} (names : ∀ part ∈ parts, IsComponent part)
      (short : ['/'].intercalate (parts.map String.toList) = []) : parts = [] := by
    by_contra some
    have split := splitOn_virtualPath names some
    rw [short, List.splitOn_nil] at split
    obtain ⟨part, rfl⟩ : ∃ part, parts = [part] := by
      rw [← List.length_eq_one_iff, ← List.length_map String.toList, ← split]
      rfl
    exact (names part List.mem_cons_self).1 (List.cons.inj split).1.symm
  have inner : ['/'].intercalate (left.map String.toList) =
      ['/'].intercalate (right.map String.toList) :=
    (List.cons.inj (String.ofList_injective same)).2
  rcases eq_or_ne left [] with rfl | leftSome
  · exact (empty rightNames inner.symm).symm
  rcases eq_or_ne right [] with rfl | rightSome
  · exact absurd (empty leftNames inner) leftSome
  · refine List.map_injective_iff.mpr (fun _ _ => String.toList_injective) ?_
    rw [← splitOn_virtualPath leftNames leftSome, inner, splitOn_virtualPath rightNames rightSome]

theorem validateVirtualPath_components {path : String} {parts : List String}
    (valid : validateVirtualPath path = some parts) : ∀ part ∈ parts, IsComponent part := by
  unfold validateVirtualPath at valid
  split at valid
  · split at valid
    · cases valid
    · simp only at valid
      split at valid
      · cases valid
      · obtain rfl := Option.some.inj valid
        intro part member
        obtain ⟨chars, kept, rfl⟩ := List.mem_map.mp member
        obtain ⟨listed, some⟩ := List.mem_filter.mp kept
        rw [IsComponent, String.toList_ofList]
        exact ⟨(of_decide_eq_true some).1, TextLines.notMem_of_mem_splitOn listed⟩
  · cases valid

end Tinkerfin.Sandbox.Rooted
