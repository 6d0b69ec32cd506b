import Mathlib.Data.List.Nodup
import Mathlib.Data.List.Perm.Subperm
import Mathlib.Logic.Function.Basic
import Mathlib.Logic.Relation
import Mathlib.Tactic.Common

/-!
# Forests given by a parent function

A partial parent function is a forest when no node is above itself.  Hanging a node that has no
children below another node keeps the forest.  `climb` collects the ancestors of a node and fails at
a node that it meets twice; in a forest with finitely many inner nodes it always succeeds.

A preorder lists the nodes below some roots, each of them in front of the block of nodes below it.
-/

namespace Forest

open Relation (ReflTransGen TransGen)

variable {α : Type*} {parent : α → Option α} {node other : α}

/-- One step up. -/
def Below (parent : α → Option α) (node above : α) : Prop := parent node = some above

/-- The second node is the first one or above it. -/
def Ancestor (parent : α → Option α) : α → α → Prop := ReflTransGen (Below parent)

/-- No node is above itself. -/
def Acyclic (parent : α → Option α) : Prop := ∀ node, ¬TransGen (Below parent) node node

/-- No other node hangs below a node. -/
def Childless (parent : α → Option α) (node : α) : Prop :=
  ∀ other, other ≠ node → parent other ≠ some node

theorem acyclic_empty : Acyclic fun _ : α => none := by
  intro node cycle
  obtain ⟨above, edge, -⟩ := TransGen.head'_iff.mp cycle
  cases edge

theorem Acyclic.ne_self (acyclic : Acyclic parent) : parent node ≠ some node :=
  fun loop => acyclic node (.single loop)

theorem ancestor_of_root (root : parent node = none) :
    Ancestor parent node other ↔ other = node := by
  constructor
  · intro above
    obtain same | ⟨middle, edge, -⟩ := ReflTransGen.cases_head above
    · exact same.symm
    · exact absurd edge (by simp [Below, root])
  · rintro rfl
    exact .refl

theorem ancestor_of_parent {above : α} (edge : parent node = some above) :
    Ancestor parent node other ↔ other = node ∨ Ancestor parent above other := by
  constructor
  · intro reached
    obtain same | ⟨middle, first, rest⟩ := ReflTransGen.cases_head reached
    · exact .inl same.symm
    · obtain rfl := Option.some.inj (edge.symm.trans first)
      exact .inr rest
  · rintro (rfl | reached)
    · exact .refl
    · exact .head edge reached

section Update

variable [DecidableEq α] {above : α}

theorem below_update_ne (childless : Childless parent node) (different : above ≠ node)
    {left right : α} (edge : Below (Function.update parent node (some above)) left right) :
    right ≠ node := by
  rintro rfl
  by_cases same : left = right
  · subst same
    simp only [Below, Function.update_self] at edge
    exact different (Option.some.inj edge)
  · rw [Below, Function.update_of_ne same] at edge
    exact childless left same edge

/-- Hanging a node without children below another node keeps the forest. -/
theorem Acyclic.update (acyclic : Acyclic parent) (childless : Childless parent node)
    (different : above ≠ node) : Acyclic (Function.update parent node (some above)) := by
  have avoids {left right : α}
      (path : TransGen (Below (Function.update parent node (some above))) left right) :
      right ≠ node := by
    cases path with
    | single edge => exact below_update_ne childless different edge
    | tail _ edge => exact below_update_ne childless different edge
  have old {left right : α} (start : left ≠ node)
      (path : TransGen (Below (Function.update parent node (some above))) left right) :
      TransGen (Below parent) left right := by
    induction path with
    | single edge =>
      rw [Below, Function.update_of_ne start] at edge
      exact .single edge
    | tail before edge ih =>
      rw [Below, Function.update_of_ne (avoids before)] at edge
      exact .tail ih edge
  intro start cycle
  exact acyclic start (old (avoids cycle) cycle)

end Update

/-! ## Climbing -/

section Climb

variable [DecidableEq α]

/-- Collect nodes upwards from a node, and fail at a node that was met before. -/
def climb (parent : α → Option α) : Nat → List α → Option α → Option (List α)
  | _, seen, none => some seen
  | 0, _, some _ => none
  | fuel + 1, seen, some node =>
    if node ∈ seen then none else climb parent fuel (seen ++ [node]) (parent node)

/-- From a node above all that was seen, climbing a forest adds exactly its ancestors. -/
theorem climb_seen (acyclic : Acyclic parent) {nodes : List α}
    (inner : ∀ node, (parent node).isSome → node ∈ nodes) {fuel : Nat} {seen : List α}
    (distinct : seen.Nodup) (found : ∀ earlier ∈ seen, earlier ∈ nodes)
    (below : ∀ earlier ∈ seen, TransGen (Below parent) earlier node)
    (enough : nodes.length + 1 ≤ fuel + seen.length) :
    ∃ lineage, climb parent fuel seen (some node) = some lineage ∧
      ∀ other, other ∈ lineage ↔ other ∈ seen ∨ Ancestor parent node other := by
  induction fuel generalizing seen node with
  | zero =>
    have bound := (List.subperm_of_subset distinct found).length_le
    omega
  | succ fuel ih =>
    have fresh : node ∉ seen := fun member => acyclic node (below node member)
    simp only [climb, if_neg fresh]
    cases edge : parent node with
    | none =>
      refine ⟨seen ++ [node], by cases fuel <;> rfl, fun other => ?_⟩
      rw [ancestor_of_root edge]
      simp
    | some above =>
      have seenDistinct : (seen ++ [node]).Nodup := by
        rw [List.nodup_append_comm]
        exact List.nodup_cons.mpr ⟨fresh, distinct⟩
      obtain ⟨lineage, climbed, members⟩ := @ih above (seen ++ [node]) seenDistinct
        (by
          intro earlier member
          obtain before | last := List.mem_append.mp member
          · exact found earlier before
          · obtain rfl := List.mem_singleton.mp last
            exact inner earlier (by simp [edge]))
        (by
          intro earlier member
          obtain before | last := List.mem_append.mp member
          · exact .tail (below earlier before) edge
          · obtain rfl := List.mem_singleton.mp last
            exact .single edge)
        (by simp only [List.length_append, List.length_singleton]; omega)
      refine ⟨lineage, climbed, fun other => ?_⟩
      rw [members, ancestor_of_parent edge, List.mem_append, List.mem_singleton, or_assoc]

theorem climb_acyclic (acyclic : Acyclic parent) {nodes : List α}
    (inner : ∀ node, (parent node).isSome → node ∈ nodes) (node : α) :
    ∃ lineage, climb parent (nodes.length + 1) [] (some node) = some lineage ∧
      ∀ other, other ∈ lineage ↔ Ancestor parent node other := by
  obtain ⟨lineage, climbed, members⟩ : ∃ lineage,
      climb parent (nodes.length + 1) [] (some node) = some lineage ∧
        ∀ other, other ∈ lineage ↔ other ∈ [] ∨ Ancestor parent node other :=
    climb_seen acyclic inner List.nodup_nil (by simp) (by simp) (by simp)
  exact ⟨lineage, climbed, by simpa using members⟩

end Climb

/-! ## Preorders -/

/-- Depth-first order below a list of roots. -/
inductive Preorder (children : α → List α) : List α → List α → Prop
  | nil : Preorder children [] []
  | cons {node : α} {rest below after : List α} (down : Preorder children (children node) below)
      (on : Preorder children rest after) :
      Preorder children (node :: rest) (node :: (below ++ after))

namespace Preorder

variable {children : α → List α} {roots others order others' block : List α}

theorem append {more : List α} (first : Preorder children roots order)
    (second : Preorder children others more) :
    Preorder children (roots ++ others) (order ++ more) := by
  induction first with
  | nil => exact second
  | cons down _ _ ih =>
    rw [List.cons_append, List.cons_append, List.append_assoc]
    exact .cons down ih

theorem unique {other : List α} (first : Preorder children roots order)
    (second : Preorder children roots other) : order = other := by
  induction first generalizing other with
  | nil =>
    cases second
    rfl
  | cons _ _ down on =>
    cases second with
    | cons below after => rw [down below, on after]

theorem roots_sublist (preorder : Preorder children roots order) : roots.Sublist order := by
  induction preorder with
  | nil => exact .slnil
  | cons _ _ _ ih => exact (ih.trans (List.sublist_append_right _ _)).cons_cons _

theorem exists_block (preorder : Preorder children roots order) (member : node ∈ order) :
    ∃ before block after, order = before ++ node :: (block ++ after) ∧
      Preorder children (children node) block := by
  induction preorder with
  | nil => cases member
  | @cons root rest below after down on ihDown ihOn =>
    obtain rfl | member := List.mem_cons.mp member
    · exact ⟨[], below, after, rfl, down⟩
    · obtain member | member := List.mem_append.mp member
      · obtain ⟨before, block, behind, rfl, order⟩ := ihDown member
        exact ⟨root :: before, block, behind ++ after, by simp, order⟩
      · obtain ⟨before, block, behind, rfl, order⟩ := ihOn member
        exact ⟨root :: (below ++ before), block, behind, by simp, order⟩

theorem children_sublist (preorder : Preorder children roots order) (member : node ∈ order) :
    (children node).Sublist order := by
  obtain ⟨before, block, after, rfl, below⟩ := preorder.exists_block member
  refine below.roots_sublist.trans (.trans ?_ (List.sublist_append_right before _))
  exact (List.sublist_append_left block after).cons node

theorem exists_root (links : ∀ node, ∀ child ∈ children node, parent child = some node)
    (preorder : Preorder children roots order) (member : node ∈ order) :
    ∃ root ∈ roots, Ancestor parent node root := by
  induction preorder with
  | nil => cases member
  | @cons root rest below after _ _ ihDown ihOn =>
    obtain rfl | member := List.mem_cons.mp member
    · exact ⟨node, List.mem_cons_self, .refl⟩
    · obtain member | member := List.mem_append.mp member
      · obtain ⟨child, under, reaches⟩ := ihDown member
        exact ⟨root, List.mem_cons_self, reaches.tail (links root child under)⟩
      · obtain ⟨other, later, reaches⟩ := ihOn member
        exact ⟨other, .tail _ later, reaches⟩

theorem mem_block (links : ∀ node, ∀ child ∈ children node, parent child = some node)
    (block : Preorder children (children node) order)
    (listed : ∀ above, Ancestor parent above node → ∀ child, parent child = some above →
      child ∈ children above) :
    other ∈ order ↔ TransGen (Below parent) other node := by
  constructor
  · intro member
    obtain ⟨child, under, reaches⟩ := block.exists_root links member
    exact .tail' reaches (links node child under)
  · intro path
    induction path using TransGen.head_induction_on with
    | single edge => exact block.roots_sublist.subset (listed _ .refl _ edge)
    | head edge path ih =>
      exact (block.children_sublist ih).subset (listed _ path.to_reflTransGen _ edge)

/-- A ranking that falls from parents to children bounds the depth, so there is an order. -/
theorem exists_of_rank (rank : α → Nat)
    (falls : ∀ node, ∀ child ∈ children node, rank child < rank node) (roots : List α) :
    ∃ order, Preorder children roots order := by
  suffices bounded : ∀ bound (roots : List α), (∀ root ∈ roots, rank root < bound) →
      ∃ order, Preorder children roots order from
    bounded ((roots.map rank).foldr max 0 + 1) roots fun root member => Nat.lt_succ_of_le (by
      induction roots with
      | nil => cases member
      | cons first roots ih =>
        obtain rfl | member := List.mem_cons.mp member
        · exact Nat.le_max_left _ _
        · exact Nat.le_trans (ih member) (Nat.le_max_right _ _))
  intro bound
  induction bound with
  | zero =>
    intro roots below
    cases roots with
    | nil => exact ⟨[], .nil⟩
    | cons root roots => exact absurd (below root List.mem_cons_self) (Nat.not_lt_zero _)
  | succ bound ih =>
    intro roots below
    induction roots with
    | nil => exact ⟨[], .nil⟩
    | cons root roots later =>
      have fits := below root List.mem_cons_self
      obtain ⟨down, under⟩ := ih (children root) fun child member =>
        Nat.lt_of_lt_of_le (falls root child member) (Nat.le_of_lt_succ fits)
      obtain ⟨on, after⟩ := later fun other member => below other (.tail _ member)
      exact ⟨root :: (down ++ on), .cons under after⟩

end Preorder

theorem Ancestor.total {left right : α} (first : Ancestor parent node left)
    (second : Ancestor parent node right) :
    Ancestor parent left right ∨ Ancestor parent right left :=
  ReflTransGen.total_of_right_unique (fun _ _ _ one two => Option.some.inj (one.symm.trans two))
    first second

theorem Acyclic.eq_of_siblings (acyclic : Acyclic parent) {left right : α}
    (siblings : parent left = parent right) (above : Ancestor parent left right) :
    left = right := by
  obtain same | ⟨middle, edge, rest⟩ := ReflTransGen.cases_head above
  · exact same
  · exact absurd (.head' (siblings.symm.trans edge) rest) (acyclic right)

theorem Acyclic.eq_of_common (acyclic : Acyclic parent) {left right : α}
    (siblings : parent left = parent right) (first : Ancestor parent node left)
    (second : Ancestor parent node right) : left = right := by
  obtain above | above := first.total second
  · exact acyclic.eq_of_siblings siblings above
  · exact (acyclic.eq_of_siblings siblings.symm above).symm

/-- In a forest an order below distinct siblings has no repetition. -/
theorem Preorder.nodup {children : α → List α} {roots order : List α} (acyclic : Acyclic parent)
    (links : ∀ node, ∀ child ∈ children node, parent child = some node)
    (distinct : ∀ node, (children node).Nodup) (preorder : Preorder children roots order)
    (rootsDistinct : roots.Nodup)
    (siblings : ∀ left ∈ roots, ∀ right ∈ roots, parent left = parent right) : order.Nodup := by
  induction preorder with
  | nil => exact List.nodup_nil
  | @cons root rest below after down on ihDown ihOn =>
    obtain ⟨fresh, restDistinct⟩ := List.nodup_cons.mp rootsDistinct
    have belowDistinct := ihDown (distinct root) fun left here right there =>
      (links root left here).trans (links root right there).symm
    have afterDistinct := ihOn restDistinct fun left here right there =>
      siblings left (.tail _ here) right (.tail _ there)
    have under {item : α} (member : item ∈ below) : TransGen (Below parent) item root := by
      obtain ⟨child, listed, reaches⟩ := down.exists_root links member
      exact .tail' reaches (links root child listed)
    have apart {item : α} (reaches : Ancestor parent item root) : item ∉ after := by
      intro member
      obtain ⟨other, later, above⟩ := on.exists_root links member
      have same := acyclic.eq_of_common
        (siblings root List.mem_cons_self other (.tail _ later)) reaches above
      exact fresh (same ▸ later)
    refine List.nodup_cons.mpr ⟨?_, List.nodup_append.mpr ⟨belowDistinct, afterDistinct, ?_⟩⟩
    · intro member
      obtain member | member := List.mem_append.mp member
      · exact acyclic root (under member)
      · exact apart .refl member
    · rintro item here _ there rfl
      exact apart (under here).to_reflTransGen there

end Forest
