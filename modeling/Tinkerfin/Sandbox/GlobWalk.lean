import Mathlib.Data.String.Basic
import Tinkerfin.Lib.Dict
import Tinkerfin.Sandbox.RootedTree

/-!
# Glob walks

A pattern is matched component by component, with the results for pairs of positions kept in a
cache.  The walk follows links and stops at a directory that it came through.
-/

namespace Tinkerfin.Sandbox.Rooted

attribute [local instance] lawfulParts

/-! ## Matching -/

def isHidden (name : String) : Bool := name.toList.head? = some '.'

def globComponentMatches (name pattern : String) : Bool :=
  if isHidden name && !isHidden pattern then false else Fnmatch.fnmatchcase name pattern

/-- Known results by positions in the path and in the pattern. -/
abbrev MatchCache := Dict (Nat × Nat) Bool

/-- Match a path from a position with a pattern from a position. -/
def matchFrom (path pattern : List String) (pathIndex patternIndex : Nat) : StateM MatchCache Bool :=
  fun cache =>
    match cache.get? (pathIndex, patternIndex) with
    | some known => (known, cache)
    | none =>
      let (result, cache) :=
        if ended : patternIndex ≥ pattern.length then
          (pathIndex == path.length, cache)
        else if pattern[patternIndex] = "**" then
          let (result, cache) := matchFrom path pattern pathIndex (patternIndex + 1) cache
          if result then
            (true, cache)
          else if left : pathIndex < path.length then
            if isHidden path[pathIndex] then
              (false, cache)
            else
              matchFrom path pattern (pathIndex + 1) patternIndex cache
          else
            (false, cache)
        else if left : pathIndex ≥ path.length then
          (false, cache)
        else if globComponentMatches path[pathIndex] pattern[patternIndex] then
          matchFrom path pattern (pathIndex + 1) (patternIndex + 1) cache
        else
          (false, cache)
      (result, cache.insert (pathIndex, patternIndex) result)
termination_by (pattern.length - patternIndex, path.length - pathIndex)

def globPathMatches (path pattern : List String) : Bool := (matchFrom path pattern 0 0 .empty).1

/-- A pattern matches component by component, where two stars stand for any number of components
that are not hidden. -/
def PathMatches : (pattern : List String) → (path : List String) → Prop
  | [], path => path = []
  | part :: pattern, path =>
    if part = "**" then
      ∃ skipped rest, path = skipped ++ rest ∧ (∀ name ∈ skipped, isHidden name = false) ∧
        PathMatches pattern rest
    else
      ∃ name rest, path = name :: rest ∧ globComponentMatches name part = true ∧
        PathMatches pattern rest

section Matching

variable {path pattern : List String} {part name : String}

theorem pathMatches_stars : PathMatches ("**" :: pattern) path ↔ PathMatches pattern path ∨
    ∃ name rest, path = name :: rest ∧ isHidden name = false ∧ PathMatches ("**" :: pattern) rest := by
  simp only [PathMatches, if_true]
  constructor
  · rintro ⟨skipped, rest, rfl, visible, matched⟩
    cases skipped with
    | nil => exact .inl matched
    | cons name skipped =>
      exact .inr ⟨name, skipped ++ rest, rfl, visible name List.mem_cons_self, skipped, rest, rfl,
        fun other member => visible other (.tail name member), matched⟩
  · rintro (matched | ⟨name, _, rfl, shown, skipped, rest, rfl, visible, matched⟩)
    · exact ⟨[], path, rfl, nofun, matched⟩
    · exact ⟨name :: skipped, rest, rfl, List.forall_mem_cons.mpr ⟨shown, visible⟩, matched⟩

theorem pathMatches_component (single : part ≠ "**") :
    PathMatches (part :: pattern) path ↔ ∃ name rest, path = name :: rest ∧
      globComponentMatches name part = true ∧ PathMatches pattern rest := by
  rw [PathMatches, if_neg single]

/-- Every known result is right. -/
def Sound (path pattern : List String) (cache : MatchCache) : Prop :=
  ∀ pathIndex patternIndex known, cache.get? (pathIndex, patternIndex) = some known →
    (known = true ↔ PathMatches (pattern.drop patternIndex) (path.drop pathIndex))

theorem Sound.insert {cache : MatchCache} (sound : Sound path pattern cache)
    {pathIndex patternIndex : Nat} {result : Bool}
    (right : result = true ↔ PathMatches (pattern.drop patternIndex) (path.drop pathIndex)) :
    Sound path pattern (cache.insert (pathIndex, patternIndex) result) := by
  intro otherPath otherPattern known found
  rw [Dict.get?_insert] at found
  split at found
  · next same =>
      obtain ⟨rfl, rfl⟩ := Prod.mk.inj same
      exact Option.some.inj found ▸ right
  · exact sound otherPath otherPattern known found

theorem matchFrom_spec {pathIndex patternIndex : Nat} {cache : MatchCache}
    (inside : pathIndex ≤ path.length) (sound : Sound path pattern cache) :
    ((matchFrom path pattern pathIndex patternIndex cache).1 = true ↔
      PathMatches (pattern.drop patternIndex) (path.drop pathIndex)) ∧
    Sound path pattern (matchFrom path pattern pathIndex patternIndex cache).2 := by
  fun_induction matchFrom path pattern pathIndex patternIndex cache
  case case1 known found => exact ⟨sound _ _ _ found, sound⟩
  case case2 pathIndex patternIndex cache unknown result after computed skip extend component =>
    have both : (result = true ↔ PathMatches (pattern.drop patternIndex) (path.drop pathIndex)) ∧
        Sound path pattern after := by
      split at computed
      · next ended =>
          obtain ⟨rfl, rfl⟩ := Prod.mk.inj computed
          rw [List.drop_eq_nil_of_le ended, PathMatches, List.drop_eq_nil_iff, beq_iff_eq]
          exact ⟨by omega, sound⟩
      · next unfinished =>
          have part : pattern.drop patternIndex =
              pattern[patternIndex] :: pattern.drop (patternIndex + 1) :=
            List.drop_eq_getElem_cons (Nat.not_le.mp unfinished)
          split at computed
          · next stars =>
              obtain ⟨skipped, known⟩ := skip unfinished inside sound
              rcases outcome : matchFrom path pattern pathIndex (patternIndex + 1) cache with
                ⟨early, kept⟩
              rw [outcome] at computed skipped known
              rw [part, stars, pathMatches_stars]
              simp only at computed
              split at computed
              · next found =>
                  obtain ⟨rfl, rfl⟩ := Prod.mk.inj computed
                  exact ⟨iff_of_true rfl (.inl (skipped.mp found)), known⟩
              · next missed =>
                  have unmatched := mt skipped.mpr missed
                  split at computed
                  · next left =>
                      have first : path.drop pathIndex =
                          path[pathIndex] :: path.drop (pathIndex + 1) :=
                        List.drop_eq_getElem_cons left
                      split at computed
                      · next hidden =>
                          obtain ⟨rfl, rfl⟩ := Prod.mk.inj computed
                          refine ⟨iff_of_false nofun ?_, known⟩
                          rintro (matched | ⟨name, rest, same, visible, -⟩)
                          · exact unmatched matched
                          · obtain ⟨rfl, -⟩ := List.cons.inj (first.symm.trans same)
                            exact absurd (visible.symm.trans hidden) nofun
                      · next visible =>
                          obtain ⟨extended, others⟩ := extend _ left left known
                          rw [computed] at extended others
                          refine ⟨extended.trans ?_, others⟩
                          rw [part, stars, first]
                          constructor
                          · exact fun matched => .inr ⟨_, _, rfl, by simpa using visible, matched⟩
                          · rintro (matched | ⟨name, rest, same, -, matched⟩)
                            · exact absurd (first ▸ matched) unmatched
                            · obtain ⟨-, rfl⟩ := List.cons.inj same
                              exact matched
                  · next finished =>
                      obtain ⟨rfl, rfl⟩ := Prod.mk.inj computed
                      refine ⟨iff_of_false nofun ?_, known⟩
                      rintro (matched | ⟨name, rest, same, -⟩)
                      · exact unmatched matched
                      · rw [List.drop_eq_nil_of_le (Nat.not_lt.mp finished)] at same
                        cases same
          · next single =>
              rw [part, pathMatches_component single]
              split at computed
              · next finished =>
                  obtain ⟨rfl, rfl⟩ := Prod.mk.inj computed
                  rw [List.drop_eq_nil_of_le finished]
                  exact ⟨by simp, sound⟩
              · next left =>
                  have left := Nat.not_le.mp left
                  rw [List.drop_eq_getElem_cons left]
                  split at computed
                  · next matching =>
                      obtain ⟨rest, others⟩ := component unfinished left sound
                      rw [computed] at rest others
                      refine ⟨rest.trans ?_, others⟩
                      constructor
                      · exact fun matched => ⟨_, _, rfl, matching, matched⟩
                      · rintro ⟨name, tail, same, -, matched⟩
                        obtain ⟨-, rfl⟩ := List.cons.inj same
                        exact matched
                  · next different =>
                      obtain ⟨rfl, rfl⟩ := Prod.mk.inj computed
                      refine ⟨iff_of_false nofun ?_, sound⟩
                      rintro ⟨name, tail, same, matching, -⟩
                      obtain ⟨rfl, -⟩ := List.cons.inj same
                      exact different matching
    exact ⟨both.1, both.2.insert both.1⟩

theorem globPathMatches_iff : globPathMatches path pattern = true ↔ PathMatches pattern path :=
  (matchFrom_spec (Nat.zero_le _) fun _ _ _ found => by simp at found).1

end Matching

/-! ## The walk -/

structure GlobEntry where
  path : String
  isDir : Bool
  deriving DecidableEq

/-- The directories that a walk may still enter. -/
def unvisited (fs : FileSystem) (ancestors : Finset Identity) : Nat := (fs.identities \ ancestors).card

theorem unvisited_lt {fs : FileSystem} {ancestors : Finset Identity} {identity : Identity}
    (known : identity ∈ fs.identities) (fresh : identity ∉ ancestors) :
    unvisited fs (insert identity ancestors) < unvisited fs ancestors := by
  refine Finset.card_lt_card ⟨Finset.sdiff_subset_sdiff subset_rfl (Finset.subset_insert _ _), ?_⟩
  intro all
  have kept := all (Finset.mem_sdiff.mpr ⟨known, fresh⟩)
  exact (Finset.mem_sdiff.mp kept).2 (Finset.mem_insert_self _ _)

/-- The matching entries behind some names of a directory and behind the directories among them. -/
def collectGlobEntries (fs : FileSystem) (baseParts patternParts : List String) :
    (names relativeParts : List String) → (ancestors : Finset Identity) → List GlobEntry
  | [], _, _ => []
  | name :: names, relativeParts, ancestors =>
    let candidateRelative := relativeParts ++ [name]
    let others := collectGlobEntries fs baseParts patternParts names relativeParts ancestors
    match opened : fs.openPath (baseParts ++ candidateRelative) with
    | .error _ => others
    | .ok candidate =>
      let isDirectory := candidate.kind = .directory
      let found : List GlobEntry :=
        if globPathMatches candidateRelative patternParts then
          [{ path := virtualPath (baseParts ++ candidateRelative), isDir := isDirectory }]
        else []
      let inner :=
        if entered : isDirectory ∧ candidate.identity ∉ ancestors then
          collectGlobEntries fs baseParts patternParts (fs.listing candidate.identity)
            candidateRelative (insert candidate.identity ancestors)
        else []
      found ++ inner ++ others
termination_by names _ ancestors => (unvisited fs ancestors, names.length)
decreasing_by
  · exact Prod.Lex.right _ (Nat.lt_succ_self _)
  · exact Prod.Lex.left _ _ (unvisited_lt (FileSystem.openPath_mem opened) entered.2)

/-- The components of a glob pattern; nothing when it leads upwards. -/
def globPatternParts (pattern : String) : Option (List String) :=
  let normalized := pattern.toList.dropWhile fun char => char = '/'
  let validation := (normalized.map fun char => if char = '\\' then '/' else char).splitOn '/'
  if Char.ofNat 0 ∈ pattern.toList ∨ ['.', '.'] ∈ validation then
    none
  else
    some (((normalized.splitOn '/').filter fun part => part ≠ []).map String.ofList)

def globPaths (fs : FileSystem) (path pattern : String) : Except Failure (List GlobEntry) :=
  match validateVirtualPath path, globPatternParts pattern with
  | some virtualParts, some patternParts => do
    let target ← fs.openPath virtualParts
    if target.kind ≠ .directory then
      throw (.rooted "not_directory" "path is not a directory")
    let found := if patternParts = [] then [] else
      collectGlobEntries fs virtualParts patternParts (fs.listing target.identity) []
        {target.identity}
    return found.mergeSort fun left right => left.path ≤ right.path
  | _, _ => .error .exdev

/-! ## What a walk reaches -/

/-- A chain of pairwise distinct directories from the base of a walk, the last one in front. -/
inductive Chain (fs : FileSystem) (baseParts : List String) :
    (relativeParts : List String) → (directories : List Identity) → Prop
  | start {target : Stat} (opened : fs.openPath baseParts = .ok target)
      (directory : target.kind = .directory) : Chain fs baseParts [] [target.identity]
  | enter {relativeParts : List String} {current : Identity} {directories : List Identity}
      {name : String} {candidate : Stat}
      (chain : Chain fs baseParts relativeParts (current :: directories))
      (listed : name ∈ fs.listing current)
      (opened : fs.openPath (baseParts ++ (relativeParts ++ [name])) = .ok candidate)
      (directory : candidate.kind = .directory)
      (fresh : candidate.identity ∉ current :: directories) :
      Chain fs baseParts (relativeParts ++ [name]) (candidate.identity :: current :: directories)

/-- An entry of the last directory of a chain. -/
def Reached (fs : FileSystem) (baseParts relativeParts : List String) (candidate : Stat) : Prop :=
  ∃ parents current directories name, Chain fs baseParts parents (current :: directories) ∧
    name ∈ fs.listing current ∧ relativeParts = parents ++ [name] ∧
      fs.openPath (baseParts ++ relativeParts) = .ok candidate

/-- An entry behind some names of a directory, or behind the directories among them. -/
inductive Walks (fs : FileSystem) (baseParts : List String) :
    (names relativeParts : List String) → (ancestors : Finset Identity) →
      (found : List String) → Stat → Prop
  | here {names relativeParts : List String} {ancestors : Finset Identity} {name : String}
      {candidate : Stat} (listed : name ∈ names)
      (opened : fs.openPath (baseParts ++ (relativeParts ++ [name])) = .ok candidate) :
      Walks fs baseParts names relativeParts ancestors (relativeParts ++ [name]) candidate
  | inside {names relativeParts : List String} {ancestors : Finset Identity} {name : String}
      {directory candidate : Stat} {found : List String} (listed : name ∈ names)
      (opened : fs.openPath (baseParts ++ (relativeParts ++ [name])) = .ok directory)
      (kind : directory.kind = .directory) (fresh : directory.identity ∉ ancestors)
      (walks : Walks fs baseParts (fs.listing directory.identity) (relativeParts ++ [name])
        (insert directory.identity ancestors) found candidate) :
      Walks fs baseParts names relativeParts ancestors found candidate

section Reaching

variable {fs : FileSystem} {baseParts relativeParts names found patternParts : List String}
  {ancestors : Finset Identity} {candidate : Stat} {name : String}

/-- What a walk finds behind a chain, it finds from the start. -/
theorem Chain.walks {current : Identity} {directories : List Identity} {target : Stat}
    (chain : Chain fs baseParts relativeParts (current :: directories))
    (base : fs.openPath baseParts = .ok target)
    (walks : Walks fs baseParts (fs.listing current) relativeParts (current :: directories).toFinset
      found candidate) :
    Walks fs baseParts (fs.listing target.identity) [] {target.identity} found candidate := by
  generalize all : current :: directories = visited at chain walks
  induction chain generalizing current directories with
  | start opened =>
    obtain ⟨rfl, rfl⟩ := List.cons.inj all
    obtain rfl := Except.ok.inj (base.symm.trans opened)
    simpa using walks
  | enter chain listed opened directory fresh induction =>
    obtain ⟨rfl, rfl⟩ := List.cons.inj all
    refine induction rfl ?_
    rw [List.toFinset_cons] at walks
    exact .inside listed opened directory (by simpa using fresh) walks

theorem reached_iff {target : Stat} (base : fs.openPath baseParts = .ok target)
    (directory : target.kind = .directory) :
    Reached fs baseParts found candidate ↔
      Walks fs baseParts (fs.listing target.identity) [] {target.identity} found candidate := by
  constructor
  · rintro ⟨parents, current, directories, name, chain, listed, rfl, opened⟩
    exact chain.walks base (.here listed opened)
  · have behind {names relativeParts : List String} {ancestors : Finset Identity}
        (walks : Walks fs baseParts names relativeParts ancestors found candidate)
        {current : Identity} {directories : List Identity}
        (chain : Chain fs baseParts relativeParts (current :: directories))
        (all : names = fs.listing current) (seen : ancestors = (current :: directories).toFinset) :
        Reached fs baseParts found candidate := by
      induction walks generalizing current directories with
      | here listed opened => exact ⟨_, _, _, _, chain, all ▸ listed, rfl, opened⟩
      | inside listed opened kind fresh _ induction =>
        refine induction (.enter chain (all ▸ listed) opened kind ?_) rfl ?_
        · rw [seen] at fresh
          simpa using fresh
        · exact seen ▸ List.toFinset_cons.symm
    exact fun walks => behind walks (.start base directory) rfl (by simp)

theorem walks_cons {names found : List String} :
    Walks fs baseParts (name :: names) relativeParts ancestors found candidate ↔
      (∃ opened, fs.openPath (baseParts ++ (relativeParts ++ [name])) = .ok opened ∧
        (found = relativeParts ++ [name] ∧ candidate = opened ∨
          opened.kind = .directory ∧ opened.identity ∉ ancestors ∧
            Walks fs baseParts (fs.listing opened.identity) (relativeParts ++ [name])
              (insert opened.identity ancestors) found candidate)) ∨
      Walks fs baseParts names relativeParts ancestors found candidate := by
  constructor
  · intro walks
    cases walks with
    | here listed opened =>
      rcases List.mem_cons.mp listed with rfl | later
      · exact .inl ⟨_, opened, .inl ⟨rfl, rfl⟩⟩
      · exact .inr (.here later opened)
    | inside listed opened kind fresh inner =>
      rcases List.mem_cons.mp listed with rfl | later
      · exact .inl ⟨_, opened, .inr ⟨kind, fresh, inner⟩⟩
      · exact .inr (.inside later opened kind fresh inner)
  · rintro (⟨stat, opened, ⟨rfl, rfl⟩ | ⟨kind, fresh, inner⟩⟩ | walks)
    · exact .here List.mem_cons_self opened
    · exact .inside List.mem_cons_self opened kind fresh inner
    · cases walks with
      | here listed opened => exact .here (.tail name listed) opened
      | inside listed opened kind fresh inner => exact .inside (.tail name listed) opened kind fresh inner

/-- A walk returns the entries it reaches whose relative path matches. -/
theorem mem_collectGlobEntries {entry : GlobEntry} :
    entry ∈ collectGlobEntries fs baseParts patternParts names relativeParts ancestors ↔
      ∃ found candidate, Walks fs baseParts names relativeParts ancestors found candidate ∧
        PathMatches patternParts found ∧
        entry = { path := virtualPath (baseParts ++ found), isDir := candidate.kind = .directory } := by
  fun_induction collectGlobEntries fs baseParts patternParts names relativeParts ancestors
  case case1 =>
    refine iff_of_false List.not_mem_nil ?_
    rintro ⟨found, candidate, walks, -⟩
    cases walks with
    | here listed => cases listed
    | inside listed => cases listed
  case case2 closed induction =>
    refine induction.trans ?_
    simp only [walks_cons]
    constructor
    · rintro ⟨found, candidate, walks, rest⟩
      exact ⟨found, candidate, .inr walks, rest⟩
    · rintro ⟨found, candidate, ⟨stat, opened, -⟩ | walks, rest⟩
      · exact absurd (closed.symm.trans opened) nofun
      · exact ⟨found, candidate, walks, rest⟩
  case case3 candidateRelative others candidate opened isDirectory here inner laterNames below =>
    rw [List.append_assoc, List.mem_append, List.mem_append, laterNames]
    simp only [walks_cons]
    constructor
    · rintro (member | member | ⟨found, other, walks, rest⟩)
      · simp only [here] at member
        split at member
        · next matched =>
            exact ⟨_, _, .inl ⟨candidate, opened, .inl ⟨rfl, rfl⟩⟩, globPathMatches_iff.mp matched,
              List.mem_singleton.mp member⟩
        · cases member
      · simp only [inner] at member
        split at member
        · next entered =>
            obtain ⟨found, other, walks, rest⟩ := (below entered).mp member
            exact ⟨found, other, .inl ⟨candidate, opened, .inr ⟨entered.1, entered.2, walks⟩⟩, rest⟩
        · cases member
      · exact ⟨found, other, .inr walks, rest⟩
    · rintro ⟨found, other, ⟨stat, again, ⟨rfl, rfl⟩ | ⟨kind, fresh, walks⟩⟩ | walks, matched, same⟩
      · obtain rfl := Except.ok.inj (opened.symm.trans again)
        left
        have hit : globPathMatches candidateRelative patternParts = true :=
          globPathMatches_iff.mpr matched
        simp only [here, dif_pos hit]
        exact List.mem_singleton.mpr same
      · obtain rfl := Except.ok.inj (opened.symm.trans again)
        right
        left
        have entered : isDirectory ∧ candidate.identity ∉ _ := ⟨kind, fresh⟩
        simp only [inner, dif_pos entered]
        exact (below entered).mpr ⟨found, other, walks, matched, same⟩
      · exact .inr (.inr ⟨found, other, walks, matched, same⟩)

theorem Walks.behind (walks : Walks fs baseParts names relativeParts ancestors found candidate)
    (valid : ∀ name ∈ names, IsComponent name) :
    ∃ name ∈ names, ∃ rest, (∀ part ∈ rest, IsComponent part) ∧
      found = relativeParts ++ name :: rest := by
  induction walks with
  | here listed => exact ⟨_, listed, [], nofun, rfl⟩
  | inside listed opened kind fresh walks induction =>
    obtain ⟨inner, member, rest, parts, rfl⟩ := induction (fs.listing_names _)
    refine ⟨_, listed, inner :: rest, ?_, by simp⟩
    exact List.forall_mem_cons.mpr ⟨fs.listing_names _ inner member, parts⟩

theorem path_collectGlobEntries {entry : GlobEntry} (valid : ∀ name ∈ names, IsComponent name)
    (member : entry ∈ collectGlobEntries fs baseParts patternParts names relativeParts ancestors) :
    ∃ name ∈ names, ∃ rest, (∀ part ∈ rest, IsComponent part) ∧
      entry.path = virtualPath (baseParts ++ (relativeParts ++ name :: rest)) := by
  obtain ⟨found, candidate, walks, -, rfl⟩ := mem_collectGlobEntries.mp member
  obtain ⟨name, listed, rest, parts, rfl⟩ := walks.behind valid
  exact ⟨name, listed, rest, parts, rfl⟩

theorem below_injective {left right : List String} (base : ∀ part ∈ baseParts, IsComponent part)
    (relative : ∀ part ∈ relativeParts, IsComponent part) (leftParts : ∀ part ∈ left, IsComponent part)
    (rightParts : ∀ part ∈ right, IsComponent part)
    (same : virtualPath (baseParts ++ (relativeParts ++ left)) =
      virtualPath (baseParts ++ (relativeParts ++ right))) : left = right := by
  have whole {rest : List String} (parts : ∀ part ∈ rest, IsComponent part) :
      ∀ part ∈ baseParts ++ (relativeParts ++ rest), IsComponent part := by
    simp only [List.forall_mem_append]
    exact ⟨base, relative, parts⟩
  have parts := virtualPath_injective (whole leftParts) (whole rightParts) same
  exact List.append_cancel_left (List.append_cancel_left parts)

/-- A walk returns no path twice. -/
theorem collectGlobEntries_pairwise (base : ∀ part ∈ baseParts, IsComponent part)
    (relative : ∀ part ∈ relativeParts, IsComponent part) (valid : ∀ name ∈ names, IsComponent name)
    (distinct : names.Nodup) :
    (collectGlobEntries fs baseParts patternParts names relativeParts ancestors).Pairwise
      fun left right => left.path ≠ right.path := by
  fun_induction collectGlobEntries fs baseParts patternParts names relativeParts ancestors
  case case1 => exact .nil
  case case2 relativeParts _ closed induction =>
    exact induction relative (fun name member => valid name (.tail _ member)) (List.nodup_cons.mp distinct).2
  case case3 name names relativeParts ancestors candidateRelative others candidate opened
      isDirectory here inner laterNames below =>
    obtain ⟨unlisted, rest⟩ := List.nodup_cons.mp distinct
    obtain ⟨named, validRest⟩ := List.forall_mem_cons.mp valid
    have extended : ∀ part ∈ candidateRelative, IsComponent part :=
      List.forall_mem_append.mpr ⟨relative, List.forall_mem_singleton.mpr named⟩
    have single {entry : GlobEntry} (member : entry ∈ here) :
        entry.path = virtualPath (baseParts ++ (relativeParts ++ [name])) := by
      simp only [here] at member
      split at member
      · exact congrArg GlobEntry.path (List.mem_singleton.mp member)
      · cases member
    have deeper {entry : GlobEntry} (member : entry ∈ inner) : ∃ first rest,
        (∀ part ∈ first :: rest, IsComponent part) ∧
        entry.path = virtualPath (baseParts ++ (relativeParts ++ name :: first :: rest)) := by
      simp only [inner] at member
      split at member
      · obtain ⟨first, listed, rest, parts, path⟩ :=
          path_collectGlobEntries (fs.listing_names _) member
        refine ⟨first, rest, List.forall_mem_cons.mpr ⟨fs.listing_names _ first listed, parts⟩, ?_⟩
        simpa [candidateRelative] using path
      · cases member
    have apart {entry other : GlobEntry} {rest : List String} (parts : ∀ part ∈ rest, IsComponent part)
        (path : entry.path = virtualPath (baseParts ++ (relativeParts ++ name :: rest)))
        (member : other ∈ others) : entry.path ≠ other.path := by
      obtain ⟨later, listed, tail, tailParts, otherPath⟩ := path_collectGlobEntries validRest member
      rw [path, otherPath]
      intro same
      have equal := below_injective base relative (List.forall_mem_cons.mpr ⟨named, parts⟩)
        (List.forall_mem_cons.mpr ⟨validRest later listed, tailParts⟩) same
      exact unlisted ((List.cons.inj equal).1 ▸ listed)
    refine List.pairwise_append.mpr ⟨List.pairwise_append.mpr ⟨?_, ?_, ?_⟩,
      laterNames relative validRest rest, ?_⟩
    · simp only [here]
      split
      · exact List.pairwise_singleton _ _
      · exact .nil
    · simp only [inner]
      split
      · next entered => exact below entered extended (fs.listing_names _) (fs.listing_nodup _)
      · exact .nil
    · intro entry member other below
      obtain ⟨first, rest, parts, path⟩ := deeper below
      rw [single member, path]
      intro same
      have equal := below_injective base relative (List.forall_mem_singleton.mpr named)
        (List.forall_mem_cons.mpr ⟨named, parts⟩) same
      exact absurd (List.cons.inj equal).2 nofun
    · intro entry member other listed
      rcases List.mem_append.mp member with member | member
      · exact apart (List.forall_mem_nil _) (single member) listed
      · obtain ⟨first, rest, parts, path⟩ := deeper member
        exact apart parts path listed

theorem pairwise_mergeSort_path {entries : List GlobEntry}
    (distinct : entries.Pairwise fun left right => left.path ≠ right.path) :
    (entries.mergeSort fun left right => left.path ≤ right.path).Pairwise
      fun left right => left.path < right.path := by
  have sorted : (entries.mergeSort fun left right => decide (left.path ≤ right.path)).Pairwise
      fun left right => decide (left.path ≤ right.path) = true :=
    List.pairwise_mergeSort (fun _ _ _ first second => by
      rw [decide_eq_true_iff] at *
      exact first.trans second) (fun left right => by
      rw [Bool.or_eq_true, decide_eq_true_iff, decide_eq_true_iff]
      exact le_total _ _) entries
  have apart := (List.mergeSort_perm entries fun left right =>
    decide (left.path ≤ right.path)).symm.pairwise distinct fun other => other.symm
  exact (sorted.and apart).imp fun both => lt_of_le_of_ne (of_decide_eq_true both.1) both.2

/-- The entries that a glob returns, ordered by their paths. -/
def GlobOf (fs : FileSystem) (baseParts patternParts : List String) (matched : List GlobEntry) : Prop :=
  matched.Pairwise (fun left right => left.path < right.path) ∧
  ∀ entry, entry ∈ matched ↔ ∃ relativeParts candidate,
    Reached fs baseParts relativeParts candidate ∧ PathMatches patternParts relativeParts ∧
    entry = { path := virtualPath (baseParts ++ relativeParts)
              isDir := candidate.kind = .directory }

/-- A glob on a directory returns the reachable entries that match. -/
theorem globPaths_exact {path pattern : String} {target : Stat}
    (valid : validateVirtualPath path = some baseParts)
    (parsed : globPatternParts pattern = some patternParts)
    (opened : fs.openPath baseParts = .ok target) (directory : target.kind = .directory) :
    ∃ matched, globPaths fs path pattern = .ok matched ∧ GlobOf fs baseParts patternParts matched := by
  have base := validateVirtualPath_components valid
  let collected : List GlobEntry := if patternParts = [] then [] else
    collectGlobEntries fs baseParts patternParts (fs.listing target.identity) [] {target.identity}
  have returned : globPaths fs path pattern =
      .ok (collected.mergeSort fun left right => left.path ≤ right.path) := by
    simp only [globPaths, valid, parsed, opened, directory, bind, Except.bind, ne_eq,
      not_true_eq_false, if_false]
    rfl
  refine ⟨_, returned, ?_, fun entry => ?_⟩
  · refine pairwise_mergeSort_path ?_
    simp only [collected]
    split
    · exact .nil
    · exact collectGlobEntries_pairwise base (List.forall_mem_nil _) (fs.listing_names _)
        (fs.listing_nodup _)
  · simp only [List.mem_mergeSort, reached_iff opened directory, collected]
    split
    · -- Without a pattern nothing is collected, and nothing matches.
      next empty =>
        refine iff_of_false List.not_mem_nil ?_
        rintro ⟨relativeParts, candidate, walks, matched, -⟩
        obtain ⟨name, -, rest, -, rfl⟩ := walks.behind (fs.listing_names _)
        rw [empty, PathMatches] at matched
        cases matched
    · exact mem_collectGlobEntries

end Reaching

end Tinkerfin.Sandbox.Rooted
