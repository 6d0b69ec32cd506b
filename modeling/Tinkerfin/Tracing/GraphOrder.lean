import Mathlib.Data.List.Flatten
import Mathlib.Data.List.Sort
import Mathlib.Data.Prod.Lex
import Mathlib.Data.String.Basic
import Tinkerfin.Tracing.GraphScopes

/-!
# Canonical order of a graph

Turn by turn, the nodes at the root of a turn are sorted, and a stack walks down from them, every
node in front of what its scope owns.  The order lists every node once, whatever order the nodes are
supplied in.
-/

namespace Tinkerfin.Tracing

open Forest (Acyclic Preorder)
open Relation (TransGen ReflTransGen)

/-! ## The order -/

/-- Nodes by their identifier. -/
abbrev GraphNodes := Dict String TraceGraphNode

/-- The owner and kind of every node. -/
def graphScopes (nodes : GraphNodes) : GraphScopes :=
  nodes.mapValues fun _ node => (node.parentSubagentId, node.kind)

def graphKindOrder : TraceGraphNodeKind → Nat
  | .humanMessage => 0
  | .context => 1
  | .model => 2
  | .tool => 3
  | .subagent => 4
  | .assistantMessage => 5
  | _ => 1

/-- What siblings are sorted by. -/
def siblingKey (node : TraceGraphNode) : Int ×ₗ Nat ×ₗ String :=
  toLex (node.startedSeq, toLex (graphKindOrder node.kind, node.id))

/-- What turns are sorted by. -/
def turnKey (turn : TraceGraphTurn) : Int ×ₗ String := toLex (turn.ordinal, turn.id)

def sortedTurns (turns : List TraceGraphTurn) : List TraceGraphTurn :=
  turns.insertionSort fun left right => turnKey left ≤ turnKey right

/-- The nodes of one turn, as they were supplied. -/
def turnNodes (nodes : GraphNodes) (turnId : String) : List TraceGraphNode :=
  (nodes.entries.map Prod.snd).filter fun node => node.turnId = turnId

/-- The sorted nodes that one scope owns. -/
def ownedBy (members : List TraceGraphNode) (parentId? : Option String) : List TraceGraphNode :=
  (members.filter fun node => node.parentSubagentId = parentId?).insertionSort
    fun left right => siblingKey left ≤ siblingKey right

/-- The owner of a node is a returned Subagent of its turn. -/
def checkOwner (nodes : GraphNodes) (node : TraceGraphNode) : Except GraphOrderError Unit :=
  match node.parentSubagentId with
  | none => .ok ()
  | some parentId =>
    match nodes.get? parentId with
    | none => .error .scopeParent
    | some parent =>
      if parent.kind ≠ .subagent then .error .scopeParent
      else if parent.turnId ≠ node.turnId then .error .turnParent
      else .ok ()

/-- Walk down from a stack of nodes.  Every round visits another node. -/
def emit (children : Option String → List TraceGraphNode) :
    Nat → List TraceGraphNode → List String → Except GraphOrderError (List String)
  | _, [], ordered => .ok ordered
  | 0, _ :: _, _ => .error .unfinished
  | rounds + 1, node :: stack, ordered =>
    if node.id ∈ ordered then
      .error .cycle
    else
      emit children rounds
        ((if node.kind = .subagent then children (some node.id) else []) ++ stack)
        (ordered ++ [node.id])

/-- Add the nodes of one turn. -/
def orderTurn (nodes : GraphNodes) (ordered : List String) (turn : TraceGraphTurn) :
    Except GraphOrderError (List String) := do
  forM (turnNodes nodes turn.id) (checkOwner nodes)
  emit (ownedBy (turnNodes nodes turn.id)) nodes.size (ownedBy (turnNodes nodes turn.id) none)
    ordered

/-- Validate Subagent scopes and return their canonical order. -/
def canonicalTraceGraphNodeOrder (turns : List TraceGraphTurn) (nodes : GraphNodes) :
    Except GraphOrderError (List String) := do
  let _ ← GraphScopes.validate (graphScopes nodes)
  let ordered ← (sortedTurns turns).foldlM (orderTurn nodes) []
  if ordered.length ≠ nodes.size then .error .cycle else .ok ordered

/-! ## What the order is for -/

/-- Nodes are filed under their own identifier. -/
def Keyed (nodes : GraphNodes) : Prop := ∀ id node, nodes.get? id = some node → node.id = id

/-- The owner of a node, by identifiers. -/
def owner (nodes : GraphNodes) : String → Option String := scopeParent (graphScopes nodes)

/-- The scopes are valid, owners share the turn of what they own, and every turn is known. -/
structure GraphValid (turns : List TraceGraphTurn) (nodes : GraphNodes) : Prop where
  scopes : ScopesValid (graphScopes nodes)
  sameTurn : ∀ id node parentId parent, nodes.get? id = some node →
    node.parentSubagentId = some parentId → nodes.get? parentId = some parent →
      parent.turnId = node.turnId
  known : ∀ id node, nodes.get? id = some node → ∃ turn ∈ turns, turn.id = node.turnId

/-- Every node once, in front of the block of what it owns directly or not; siblings and turns in
the order of their keys. -/
structure CanonicalOrder (turns : List TraceGraphTurn) (nodes : GraphNodes) (order : List String) :
    Prop where
  perm : order.Perm nodes.keys
  blocks : ∀ id ∈ nodes.keys, ∃ before block after, order = before ++ id :: (block ++ after) ∧
    ∀ other, other ∈ block ↔ TransGen (Forest.Below (owner nodes)) other id
  siblings : ∀ left right, nodes.get? left.id = some left → nodes.get? right.id = some right →
    left.turnId = right.turnId → left.parentSubagentId = right.parentSubagentId →
      siblingKey left < siblingKey right → [left.id, right.id].Sublist order
  turns : ∀ left right leftTurn rightTurn, nodes.get? left.id = some left →
    nodes.get? right.id = some right → leftTurn ∈ turns → rightTurn ∈ turns →
      leftTurn.id = left.turnId → rightTurn.id = right.turnId →
        turnKey leftTurn < turnKey rightTurn → [left.id, right.id].Sublist order

/-! ## Members of a turn -/

section Members

variable {nodes : GraphNodes} {turns : List TraceGraphTurn} {turnId id parentId : String}
  {node : TraceGraphNode} {members : List TraceGraphNode} {parentId? : Option String}

theorem graphScopes_get? : (graphScopes nodes).get? id =
    (nodes.get? id).map fun node => (node.parentSubagentId, node.kind) := by
  rw [graphScopes, Dict.get?_mapValues]

theorem owner_of_get? (stored : nodes.get? id = some node) :
    owner nodes id = node.parentSubagentId := by
  simp [owner, scopeParent, graphScopes_get?, stored]

theorem mem_turnNodes (keyed : Keyed nodes) :
    node ∈ turnNodes nodes turnId ↔ nodes.get? node.id = some node ∧ node.turnId = turnId := by
  simp only [turnNodes, List.mem_filter, List.mem_map, decide_eq_true_eq]
  refine and_congr_left fun _ => ⟨?_, ?_⟩
  · rintro ⟨⟨key, stored⟩, member, rfl⟩
    have found := Dict.get?_eq_some_iff.mpr member
    rwa [keyed key stored found]
  · exact fun stored => ⟨(node.id, node), Dict.get?_eq_some_iff.mp stored, rfl⟩

@[simp] theorem mem_ownedBy : node ∈ ownedBy members parentId? ↔
    node ∈ members ∧ node.parentSubagentId = parentId? := by
  simp [ownedBy, List.mem_insertionSort]

theorem ids_eq_keys (keyed : Keyed nodes) :
    (nodes.entries.map Prod.snd).map TraceGraphNode.id = nodes.keys := by
  rw [List.map_map, Dict.keys]
  refine List.map_congr_left fun entry member => ?_
  exact keyed entry.1 entry.2 (Dict.get?_eq_some_iff.mpr member)

theorem turnNodes_distinct (keyed : Keyed nodes) :
    ((turnNodes nodes turnId).map TraceGraphNode.id).Nodup := by
  have whole : ((nodes.entries.map Prod.snd).map TraceGraphNode.id).Nodup := by
    rw [ids_eq_keys keyed]
    exact nodes.nodup
  exact whole.sublist (List.filter_sublist.map _)

/-- The identifiers of what a scope of a turn owns. -/
def ownedIds (nodes : GraphNodes) (turnId : String) (parentId? : Option String) : List String :=
  (ownedBy (turnNodes nodes turnId) parentId?).map TraceGraphNode.id

theorem mem_ownedIds (keyed : Keyed nodes) : id ∈ ownedIds nodes turnId parentId? ↔
    ∃ node, nodes.get? id = some node ∧ node.turnId = turnId ∧
      node.parentSubagentId = parentId? := by
  simp only [ownedIds, List.mem_map, mem_ownedBy, mem_turnNodes keyed]
  constructor
  · rintro ⟨node, ⟨⟨stored, turn⟩, owned⟩, rfl⟩
    exact ⟨node, stored, turn, owned⟩
  · rintro ⟨node, stored, turn, owned⟩
    obtain rfl := keyed id node stored
    exact ⟨node, ⟨⟨stored, turn⟩, owned⟩, rfl⟩

theorem ownedIds_distinct (keyed : Keyed nodes) : (ownedIds nodes turnId parentId?).Nodup := by
  have filtered : (((turnNodes nodes turnId).filter
      fun node => node.parentSubagentId = parentId?).map TraceGraphNode.id).Nodup :=
    (turnNodes_distinct keyed).sublist (List.filter_sublist.map _)
  exact (((List.perm_insertionSort _ _).map _).nodup_iff).mpr filtered

theorem ownedIds_links (keyed : Keyed nodes) :
    ∀ above, ∀ child ∈ ownedIds nodes turnId (some above), owner nodes child = some above := by
  intro above child member
  obtain ⟨node, stored, -, owned⟩ := (mem_ownedIds keyed).mp member
  rw [owner_of_get? stored, owned]

theorem exists_depth (valid : ScopesValid (graphScopes nodes))
    (stored : nodes.get? id = some node) :
    ∃ depth ≤ maxSubagentScopeDepth, ScopeDepth (graphScopes nodes) id depth := by
  obtain ⟨depths, accepted⟩ := validate_ok_iff.mpr valid
  obtain ⟨_, -, resolved⟩ | ⟨⟨message, refused⟩, -⟩ := validate_cases (graphScopes nodes)
  · have known : (graphScopes nodes).get? id = some (node.parentSubagentId, node.kind) := by
      rw [graphScopes_get?, stored]
      rfl
    exact resolved id (Dict.mem_keys_of_get? known)
  · cases refused.symm.trans accepted

theorem exists_owner (valid : ScopesValid (graphScopes nodes)) (stored : nodes.get? id = some node)
    (owned : node.parentSubagentId = some parentId) :
    ∃ parent, nodes.get? parentId = some parent ∧ parent.kind = .subagent := by
  obtain ⟨above, found⟩ := valid.owners id parentId node.kind (by
    rw [graphScopes_get?, stored, ← owned]
    rfl)
  rw [graphScopes_get?] at found
  obtain ⟨parent, known, same⟩ := Option.map_eq_some_iff.mp found
  exact ⟨parent, known, congrArg Prod.snd same⟩

/-- Levels left below a node; Subagents have one more. -/
noncomputable def scopeRank (nodes : GraphNodes) (id : String) : Nat := by
  classical
  exact if known : ∃ depth ≤ maxSubagentScopeDepth, ScopeDepth (graphScopes nodes) id depth then
    2 * (maxSubagentScopeDepth - known.choose) +
      ((nodes.get? id).elim 0 fun node => scopeLevels node.kind)
  else 0

theorem scopeRank_eq {depth : Nat} (within : depth ≤ maxSubagentScopeDepth)
    (chain : ScopeDepth (graphScopes nodes) id depth) (stored : nodes.get? id = some node) :
    scopeRank nodes id = 2 * (maxSubagentScopeDepth - depth) + scopeLevels node.kind := by
  have known : ∃ depth ≤ maxSubagentScopeDepth, ScopeDepth (graphScopes nodes) id depth :=
    ⟨depth, within, chain⟩
  rw [scopeRank, dif_pos known, chain.unique known.choose_spec.2, stored]
  rfl

/-- What a scope owns has fewer levels left. -/
theorem scopeRank_lt (keyed : Keyed nodes) (valid : ScopesValid (graphScopes nodes)) :
    ∀ above, ∀ child ∈ ownedIds nodes turnId (some above),
      scopeRank nodes child < scopeRank nodes above := by
  intro above child member
  obtain ⟨node, stored, -, owned⟩ := (mem_ownedIds keyed).mp member
  obtain ⟨parent, found, subagent⟩ := exists_owner valid stored owned
  obtain ⟨depth, within, chain⟩ := exists_depth valid stored
  obtain ⟨around, fits, outer⟩ := exists_depth valid found
  have inside : ScopeDepth (graphScopes nodes) child (around + scopeLevels node.kind) :=
    .owned (by rw [graphScopes_get?, stored, ← owned]; rfl)
      (by rw [graphScopes_get?, found, ← subagent]; rfl) outer
  have same := chain.unique inside
  rw [scopeRank_eq within chain stored, scopeRank_eq fits outer found]
  have one : scopeLevels parent.kind = 1 := by rw [subagent]; rfl
  have least : scopeLevels node.kind ≤ 1 := by
    unfold scopeLevels
    split <;> omega
  by_cases deeper : scopeLevels node.kind = 1
  · omega
  · omega

theorem exists_turnOrder (keyed : Keyed nodes) (valid : ScopesValid (graphScopes nodes))
    (turnId : String) : ∃ order, Preorder (fun id => ownedIds nodes turnId (some id))
      (ownedIds nodes turnId none) order :=
  Preorder.exists_of_rank (scopeRank nodes) (scopeRank_lt keyed valid) _

end Members

/-! ## One turn -/

section Turn

variable {nodes : GraphNodes} {turnId id : String} {order ordered : List String}

theorem turnOrder_nodup (keyed : Keyed nodes) (valid : ScopesValid (graphScopes nodes))
    (preorder : Preorder (fun id => ownedIds nodes turnId (some id)) (ownedIds nodes turnId none)
      order) : order.Nodup := by
  refine Preorder.nodup valid.acyclic (ownedIds_links keyed) (fun _ => ownedIds_distinct keyed)
    preorder (ownedIds_distinct keyed) fun left here right there => ?_
  obtain ⟨first, stored, -, root⟩ := (mem_ownedIds keyed).mp here
  obtain ⟨second, found, -, other⟩ := (mem_ownedIds keyed).mp there
  change owner nodes left = owner nodes right
  rw [owner_of_get? stored, owner_of_get? found, root, other]

/-- The order of a turn lists nodes of the turn. -/
theorem turn_of_mem (keyed : Keyed nodes)
    (preorder : Preorder (fun id => ownedIds nodes turnId (some id)) (ownedIds nodes turnId none)
      order) (member : id ∈ order) : ∃ node, nodes.get? id = some node ∧ node.turnId = turnId := by
  suffices each : ∀ roots order : List String,
      (∃ parentId?, roots ⊆ ownedIds nodes turnId parentId?) →
      Preorder (fun id => ownedIds nodes turnId (some id)) roots order → id ∈ order →
        ∃ node, nodes.get? id = some node ∧ node.turnId = turnId from
    each _ _ ⟨none, List.Subset.refl _⟩ preorder member
  intro roots order within preorder
  induction preorder with
  | nil => exact fun member => by cases member
  | @cons root rest below after _ _ ihDown ihOn =>
    obtain ⟨parentId?, within⟩ := within
    intro member
    obtain rfl | member := List.mem_cons.mp member
    · obtain ⟨node, stored, turn, -⟩ := (mem_ownedIds keyed).mp (within List.mem_cons_self)
      exact ⟨node, stored, turn⟩
    · obtain member | member := List.mem_append.mp member
      · exact ihDown ⟨some root, List.Subset.refl _⟩ member
      · exact ihOn ⟨parentId?, List.subset_of_cons_subset within⟩ member

/-- Walking down a stack of nodes of a turn emits their order. -/
theorem emit_eq (keyed : Keyed nodes) (valid : ScopesValid (graphScopes nodes)) {rounds : Nat}
    {stack : List TraceGraphNode} (members : ∀ node ∈ stack, nodes.get? node.id = some node)
    (preorder : Preorder (fun id => ownedIds nodes turnId (some id))
      (stack.map TraceGraphNode.id) order)
    (enough : order.length ≤ rounds) (distinct : (ordered ++ order).Nodup) :
    emit (ownedBy (turnNodes nodes turnId)) rounds stack ordered = .ok (ordered ++ order) := by
  induction rounds generalizing stack order ordered with
  | zero =>
    obtain rfl := List.length_eq_zero_iff.mp (Nat.le_zero.mp enough)
    cases stack with
    | nil => rw [List.append_nil, emit]
    | cons node stack => cases preorder
  | succ rounds ih =>
    cases stack with
    | nil =>
      cases preorder
      rw [List.append_nil, emit]
    | cons node stack =>
      cases preorder with
      | @cons _ _ below after down on =>
        have stored := members node List.mem_cons_self
        have fresh : node.id ∉ ordered := fun old =>
          (List.nodup_append.mp distinct).2.2 _ old _ List.mem_cons_self rfl
        have owned : (if node.kind = .subagent then
            ownedBy (turnNodes nodes turnId) (some node.id) else []) =
            ownedBy (turnNodes nodes turnId) (some node.id) := by
          split
          · rfl
          · next plain =>
              refine (List.eq_nil_iff_forall_not_mem.mpr fun child member => ?_).symm
              obtain ⟨inside, parent⟩ := mem_ownedBy.mp member
              have known := ((mem_turnNodes keyed).mp inside).1
              obtain ⟨above, found, subagent⟩ := exists_owner valid known parent
              obtain rfl := Option.some.inj (stored.symm.trans found)
              exact plain subagent
        rw [emit, if_neg fresh, owned]
        have known : ∀ child ∈ ownedBy (turnNodes nodes turnId) (some node.id) ++ stack,
            nodes.get? child.id = some child := by
          intro child member
          obtain below | later := List.mem_append.mp member
          · exact ((mem_turnNodes keyed).mp (mem_ownedBy.mp below).1).1
          · exact members child (.tail _ later)
        have order : Preorder (fun id => ownedIds nodes turnId (some id))
            ((ownedBy (turnNodes nodes turnId) (some node.id) ++ stack).map
              TraceGraphNode.id) (below ++ after) := by
          rw [List.map_append]
          exact down.append on
        rw [ih known order (by simpa using enough) (by simpa using distinct),
          List.append_assoc, List.singleton_append]

theorem checkOwner_cases (valid : ScopesValid (graphScopes nodes)) {node : TraceGraphNode}
    (stored : nodes.get? id = some node) :
    (checkOwner nodes node = .ok () ∧ ∀ parentId parent, node.parentSubagentId = some parentId →
      nodes.get? parentId = some parent → parent.turnId = node.turnId) ∨
    checkOwner nodes node = .error .turnParent ∧ ∃ parentId parent,
      node.parentSubagentId = some parentId ∧ nodes.get? parentId = some parent ∧
        parent.turnId ≠ node.turnId := by
  unfold checkOwner
  cases owned : node.parentSubagentId with
  | none => exact .inl ⟨rfl, by simp⟩
  | some parentId =>
    obtain ⟨parent, found, subagent⟩ := exists_owner valid stored owned
    simp only [found, subagent, ne_eq, not_true_eq_false, if_false]
    by_cases same : parent.turnId = node.turnId
    · refine .inl ⟨if_neg (not_not.mpr same), ?_⟩
      rintro _ other ⟨⟩ again
      exact Option.some.inj (found.symm.trans again) ▸ same
    · exact .inr ⟨if_pos same, parentId, parent, rfl, found, same⟩

/-- Every node of a turn is owned inside the turn. -/
def OwnedInside (nodes : GraphNodes) (turnId : String) : Prop :=
  ∀ id node parentId parent, nodes.get? id = some node → node.turnId = turnId →
    node.parentSubagentId = some parentId → nodes.get? parentId = some parent →
      parent.turnId = node.turnId

/-- The checks of a turn pass, or find a node that is owned from another turn. -/
theorem checks_cases (keyed : Keyed nodes) (valid : ScopesValid (graphScopes nodes))
    (turnId : String) :
    (forM (turnNodes nodes turnId) (checkOwner nodes) = .ok () ∧ OwnedInside nodes turnId) ∨
    forM (turnNodes nodes turnId) (checkOwner nodes) = .error .turnParent ∧
      ¬OwnedInside nodes turnId := by
  suffices each : ∀ members ⊆ turnNodes nodes turnId,
      (forM members (checkOwner nodes) = .ok () ∧ ∀ node ∈ members, ∀ parentId parent,
        node.parentSubagentId = some parentId → nodes.get? parentId = some parent →
          parent.turnId = node.turnId) ∨
      forM members (checkOwner nodes) = .error .turnParent ∧ ¬OwnedInside nodes turnId by
    refine (each _ (List.Subset.refl _)).imp (fun ⟨passed, inside⟩ => ⟨passed, ?_⟩) id
    intro id node parentId parent stored turn owned found
    obtain rfl := keyed id node stored
    exact inside node ((mem_turnNodes keyed).mpr ⟨stored, turn⟩) parentId parent owned found
  intro members within
  induction members with
  | nil => exact .inl ⟨rfl, by simp⟩
  | cons node members ih =>
    obtain ⟨stored, turn⟩ := (mem_turnNodes keyed).mp (within List.mem_cons_self)
    rw [List.forM_cons]
    obtain ⟨passed, inside⟩ | ⟨refused, parentId, parent, owned, found, elsewhere⟩ :=
      checkOwner_cases valid stored
    · rw [passed]
      refine (ih (List.subset_of_cons_subset within)).imp (fun ⟨rest, others⟩ => ⟨rest, ?_⟩) id
      exact List.forall_mem_cons.mpr ⟨inside, others⟩
    · rw [refused]
      exact .inr ⟨rfl, fun inside =>
        elsewhere (inside node.id node parentId parent stored turn owned found)⟩

/-- A turn adds its order, or is refused because a node is owned from another turn. -/
theorem orderTurn_cases (keyed : Keyed nodes) (valid : ScopesValid (graphScopes nodes))
    (turn : TraceGraphTurn)
    (preorder : Preorder (fun id => ownedIds nodes turn.id (some id))
      (ownedIds nodes turn.id none) order)
    (distinct : (ordered ++ order).Nodup) :
    (orderTurn nodes ordered turn = .ok (ordered ++ order) ∧ OwnedInside nodes turn.id) ∨
    orderTurn nodes ordered turn = .error .turnParent ∧ ¬OwnedInside nodes turn.id := by
  unfold orderTurn
  obtain ⟨passed, inside⟩ | ⟨refused, outside⟩ := checks_cases keyed valid turn.id
  · refine .inl ⟨?_, inside⟩
    have fits : order.length ≤ nodes.size := by
      have within : order ⊆ nodes.keys := by
        intro id member
        obtain ⟨node, stored, -⟩ := turn_of_mem keyed preorder member
        exact Dict.mem_keys_of_get? stored
      have bound := (List.subperm_of_subset (turnOrder_nodup keyed valid preorder) within).length_le
      simpa [Dict.keys, Dict.size] using bound
    rw [passed]
    refine emit_eq keyed valid ?_ preorder fits distinct
    exact fun node member => ((mem_turnNodes keyed).mp (mem_ownedBy.mp member).1).1
  · exact .inr ⟨by rw [refused]; rfl, outside⟩

end Turn

/-! ## All turns -/

section Turns

variable {nodes : GraphNodes} {turns : List TraceGraphTurn}

/-- The orders of the turns with some identifiers. -/
def TurnOrders (nodes : GraphNodes) (orderOf : String → List String) : Prop :=
  ∀ turnId, Preorder (fun id => ownedIds nodes turnId (some id)) (ownedIds nodes turnId none)
    (orderOf turnId)

theorem exists_turnOrders (keyed : Keyed nodes) (valid : ScopesValid (graphScopes nodes)) :
    ∃ orderOf, TurnOrders nodes orderOf :=
  Classical.skolem.mp (exists_turnOrder keyed valid)

theorem turnOrders_nodup (keyed : Keyed nodes) (valid : ScopesValid (graphScopes nodes))
    {orderOf : String → List String} (orders : TurnOrders nodes orderOf)
    (distinct : (turns.map TraceGraphTurn.id).Nodup) :
    (turns.flatMap fun turn => orderOf turn.id).Nodup := by
  refine List.nodup_flatMap.mpr ⟨fun turn _ => turnOrder_nodup keyed valid (orders turn.id), ?_⟩
  refine (List.pairwise_map.mp distinct).imp fun different => ?_
  intro id here there
  obtain ⟨node, stored, first⟩ := turn_of_mem keyed (orders _) here
  obtain ⟨again, found, second⟩ := turn_of_mem keyed (orders _) there
  obtain rfl := Option.some.inj (stored.symm.trans found)
  exact different (first.symm.trans second)

/-- The turns add their orders one after another, or one of them is refused. -/
theorem orderTurns_cases (keyed : Keyed nodes) (valid : ScopesValid (graphScopes nodes))
    {orderOf : String → List String} (orders : TurnOrders nodes orderOf) (ordered : List String)
    (distinct : (ordered ++ turns.flatMap fun turn => orderOf turn.id).Nodup) :
    (turns.foldlM (orderTurn nodes) ordered =
        .ok (ordered ++ turns.flatMap fun turn => orderOf turn.id) ∧
      ∀ turn ∈ turns, OwnedInside nodes turn.id) ∨
    turns.foldlM (orderTurn nodes) ordered = .error .turnParent ∧
      ∃ turn ∈ turns, ¬OwnedInside nodes turn.id := by
  induction turns generalizing ordered with
  | nil => exact .inl ⟨by simp [pure, Except.pure], by simp⟩
  | cons turn turns ih =>
    rw [List.flatMap_cons, ← List.append_assoc] at distinct
    rw [List.foldlM_cons]
    obtain ⟨added, inside⟩ | ⟨refused, outside⟩ :=
      orderTurn_cases keyed valid turn (orders turn.id) (List.nodup_append.mp distinct).1
    · rw [added]
      obtain ⟨rest, others⟩ | ⟨rest, other, member, outside⟩ := ih _ distinct
      · refine .inl ⟨?_, List.forall_mem_cons.mpr ⟨inside, others⟩⟩
        rw [List.flatMap_cons, ← List.append_assoc]
        exact rest
      · exact .inr ⟨rest, other, .tail _ member, outside⟩
    · rw [refused]
      exact .inr ⟨rfl, turn, List.mem_cons_self, outside⟩

theorem sortedTurns_perm (turns : List TraceGraphTurn) : (sortedTurns turns).Perm turns :=
  List.perm_insertionSort _ turns

/-- A node whose owners share its turn is listed in the order of that turn. -/
theorem mem_turnOrder (keyed : Keyed nodes) {orderOf : String → List String}
    (orders : TurnOrders nodes orderOf)
    (sameTurn : ∀ id node parentId parent, nodes.get? id = some node →
      node.parentSubagentId = some parentId → nodes.get? parentId = some parent →
        parent.turnId = node.turnId)
    {id : String} {depth : Nat} (chain : ScopeDepth (graphScopes nodes) id depth)
    {node : TraceGraphNode} (stored : nodes.get? id = some node) : id ∈ orderOf node.turnId := by
  induction chain generalizing node with
  | @root id kind scope =>
    rw [graphScopes_get?, stored] at scope
    have root : node.parentSubagentId = none := by
      simpa using congrArg (Option.map Prod.fst) scope
    exact (orders node.turnId).roots_sublist.subset
      ((mem_ownedIds keyed).mpr ⟨node, stored, rfl, root⟩)
  | @owned id parentId kind above depth scope owner _ ih =>
    rw [graphScopes_get?, stored] at scope
    have owned : node.parentSubagentId = some parentId := by
      simpa using congrArg (Option.map Prod.fst) scope
    rw [graphScopes_get?] at owner
    obtain ⟨parent, found, -⟩ := Option.map_eq_some_iff.mp owner
    have same := sameTurn id node parentId parent stored owned found
    exact ((orders node.turnId).children_sublist (same ▸ ih found)).subset
      ((mem_ownedIds keyed).mpr ⟨node, stored, rfl, owned⟩)

/-- The nodes of a valid graph are exactly those that its turns list. -/
theorem turnOrders_perm (keyed : Keyed nodes) (valid : GraphValid turns nodes)
    {orderOf : String → List String} (orders : TurnOrders nodes orderOf)
    (distinct : (turns.map TraceGraphTurn.id).Nodup) :
    ((sortedTurns turns).flatMap fun turn => orderOf turn.id).Perm nodes.keys := by
  have sorted := sortedTurns_perm turns
  have different : ((sortedTurns turns).map TraceGraphTurn.id).Nodup :=
    ((sorted.map _).nodup_iff).mpr distinct
  refine (List.perm_ext_iff_of_nodup
    (turnOrders_nodup keyed valid.scopes orders different) nodes.nodup).mpr fun id => ?_
  rw [List.mem_flatMap]
  constructor
  · rintro ⟨turn, -, member⟩
    obtain ⟨node, stored, -⟩ := turn_of_mem keyed (orders turn.id) member
    exact Dict.mem_keys_of_get? stored
  · intro member
    obtain ⟨node, stored⟩ := Option.isSome_iff_exists.mp (Dict.mem_keys_iff.mp member)
    obtain ⟨turn, known, same⟩ := valid.known id node stored
    obtain ⟨depth, -, chain⟩ := exists_depth valid.scopes stored
    exact ⟨turn, sorted.mem_iff.mpr known,
      same ▸ mem_turnOrder keyed orders valid.sameTurn chain stored⟩

/-- A graph is ordered turn by turn if it is valid and refused otherwise. -/
theorem canonical_cases (keyed : Keyed nodes) (distinct : (turns.map TraceGraphTurn.id).Nodup) :
    (GraphValid turns nodes ∧ ∃ orderOf, TurnOrders nodes orderOf ∧
      canonicalTraceGraphNodeOrder turns nodes =
        .ok ((sortedTurns turns).flatMap fun turn => orderOf turn.id)) ∨
    (¬GraphValid turns nodes ∧ ∃ message,
      canonicalTraceGraphNodeOrder turns nodes = .error (.value message)) := by
  unfold canonicalTraceGraphNodeOrder
  obtain ⟨depths, accepted, resolved⟩ | ⟨⟨message, refused⟩, invalid⟩ :=
    validate_cases (graphScopes nodes)
  · have scopes := scopesValid_of_depths resolved
    obtain ⟨orderOf, orders⟩ := exists_turnOrders keyed scopes
    have sorted := sortedTurns_perm turns
    have different : ((sortedTurns turns).map TraceGraphTurn.id).Nodup :=
      ((sorted.map _).nodup_iff).mpr distinct
    have listed := turnOrders_nodup keyed scopes orders different
    rw [accepted]
    obtain ⟨ordered, inside⟩ | ⟨refused, turn, member, outside⟩ :=
      orderTurns_cases keyed scopes orders [] (by simpa using listed)
    · rw [List.nil_append] at ordered
      simp only [bind, Except.bind, ordered]
      by_cases whole : ((sortedTurns turns).flatMap fun turn => orderOf turn.id).length = nodes.size
      · have within : ((sortedTurns turns).flatMap fun turn => orderOf turn.id) ⊆ nodes.keys := by
          intro id member
          obtain ⟨turn, -, member⟩ := List.mem_flatMap.mp member
          obtain ⟨node, stored, -⟩ := turn_of_mem keyed (orders turn.id) member
          exact Dict.mem_keys_of_get? stored
        have perm := (List.subperm_of_subset listed within).perm_of_length_le (by
          rw [whole]
          simp [Dict.keys, Dict.size])
        have known : ∀ id node, nodes.get? id = some node →
            ∃ turn ∈ turns, turn.id = node.turnId := by
          intro id node stored
          obtain ⟨turn, member, inside⟩ := List.mem_flatMap.mp
            (perm.mem_iff.mpr (Dict.mem_keys_of_get? stored))
          obtain ⟨again, found, same⟩ := turn_of_mem keyed (orders turn.id) inside
          obtain rfl := Option.some.inj (stored.symm.trans found)
          exact ⟨turn, sorted.mem_iff.mp member, same.symm⟩
        refine .inl ⟨⟨scopes, ?_, known⟩, orderOf, orders, if_neg (not_not.mpr whole)⟩
        intro id node parentId parent stored owned found
        obtain ⟨turn, member, same⟩ := known id node stored
        exact inside turn (sorted.mem_iff.mpr member) id node parentId parent stored same.symm owned
          found
      · refine .inr ⟨fun valid => whole ?_, _, if_pos whole⟩
        rw [(turnOrders_perm keyed valid orders distinct).length_eq]
        simp [Dict.keys, Dict.size]
    · refine .inr ⟨fun valid => outside ?_, _, by rw [refused]; rfl⟩
      exact fun id node parentId parent stored _ owned found =>
        valid.sameTurn id node parentId parent stored owned found
  · exact .inr ⟨fun valid => invalid valid.scopes, message, by rw [refused]; rfl⟩

end Turns

/-! ## The canonical order -/

theorem pair_sublist_of_pairwise {α κ : Type*} [LinearOrder κ] {key : α → κ} {items : List α}
    (sorted : items.Pairwise fun left right => key left ≤ key right) {left right : α}
    (here : left ∈ items) (there : right ∈ items) (before : key left < key right) :
    [left, right].Sublist items := by
  induction items with
  | nil => cases here
  | cons item items ih =>
    obtain ⟨least, sorted⟩ := List.pairwise_cons.mp sorted
    obtain rfl | inside := List.mem_cons.mp here
    · obtain rfl | later := List.mem_cons.mp there
      · exact absurd before (lt_irrefl _)
      · exact (List.singleton_sublist.mpr later).cons_cons left
    · obtain rfl | later := List.mem_cons.mp there
      · exact absurd before (not_lt.mpr (least left inside))
      · exact (ih sorted inside later).cons item

section Canonical

variable {nodes : GraphNodes} {turns : List TraceGraphTurn} {id parentId turnId : String}
  {orderOf : String → List String}

theorem owner_eq_some : owner nodes id = some parentId ↔
    ∃ node, nodes.get? id = some node ∧ node.parentSubagentId = some parentId := by
  rw [owner, scopeParent, graphScopes_get?]
  cases nodes.get? id <;> simp

theorem ownedBy_sorted (members : List TraceGraphNode) (parentId? : Option String) :
    (ownedBy members parentId?).Pairwise fun left right => siblingKey left ≤ siblingKey right :=
  List.pairwise_insertionSort _ _

theorem sortedTurns_sorted (turns : List TraceGraphTurn) :
    (sortedTurns turns).Pairwise fun left right => turnKey left ≤ turnKey right :=
  List.pairwise_insertionSort _ _

/-- What a node of a turn owns, directly or not, is listed below it in the turn. -/
theorem listed_below (keyed : Keyed nodes) (valid : GraphValid turns nodes)
    {node : TraceGraphNode} (stored : nodes.get? id = some node) :
    ∀ above, Forest.Ancestor (owner nodes) above id → ∀ child, owner nodes child = some above →
      child ∈ ownedIds nodes node.turnId (some above) := by
  have inside {other : String} (reaches : Forest.Ancestor (owner nodes) other id) :
      ∃ inner, nodes.get? other = some inner ∧ inner.turnId = node.turnId := by
    induction reaches using ReflTransGen.head_induction_on with
    | refl => exact ⟨node, stored, rfl⟩
    | head edge _ ih =>
      obtain ⟨around, found, same⟩ := ih
      obtain ⟨inner, known, owned⟩ := owner_eq_some.mp edge
      exact ⟨inner, known, (valid.sameTurn _ inner _ around known owned found).symm.trans same⟩
  intro above reaches child owned
  obtain ⟨around, found, same⟩ := inside reaches
  obtain ⟨inner, known, parent⟩ := owner_eq_some.mp owned
  exact (mem_ownedIds keyed).mpr
    ⟨inner, known, (valid.sameTurn child inner above around known parent found).symm.trans same,
      parent⟩

theorem exists_segment (orderOf : String → List String) {turn : TraceGraphTurn}
    (member : turn ∈ turns) :
    ∃ before after, (sortedTurns turns).flatMap (fun turn => orderOf turn.id) =
      before ++ (orderOf turn.id ++ after) := by
  obtain ⟨first, last, split⟩ := List.append_of_mem ((sortedTurns_perm turns).mem_iff.mpr member)
  exact ⟨first.flatMap fun turn => orderOf turn.id, last.flatMap fun turn => orderOf turn.id, by
    rw [split, List.flatMap_append, List.flatMap_cons]⟩

theorem canonicalOrder_of_valid (keyed : Keyed nodes)
    (distinct : (turns.map TraceGraphTurn.id).Nodup) (valid : GraphValid turns nodes)
    (orders : TurnOrders nodes orderOf) :
    CanonicalOrder turns nodes ((sortedTurns turns).flatMap fun turn => orderOf turn.id) where
  perm := turnOrders_perm keyed valid orders distinct
  blocks := by
    intro id member
    obtain ⟨node, stored⟩ := Option.isSome_iff_exists.mp (Dict.mem_keys_iff.mp member)
    obtain ⟨turn, known, same⟩ := valid.known id node stored
    obtain ⟨depth, -, chain⟩ := exists_depth valid.scopes stored
    have inside := mem_turnOrder keyed orders valid.sameTurn chain stored
    obtain ⟨before, block, after, split, below⟩ := (orders node.turnId).exists_block inside
    obtain ⟨earlier, later, whole⟩ := exists_segment orderOf known
    refine ⟨earlier ++ before, block, after ++ later, ?_, fun other => ?_⟩
    · rw [whole, same, split]
      simp
    · exact below.mem_block (ownedIds_links keyed) (listed_below keyed valid stored)
  siblings := by
    intro left right stored found sameTurn sameOwner before
    obtain ⟨turn, known, same⟩ := valid.known left.id left stored
    have here : left ∈ ownedBy (turnNodes nodes left.turnId) left.parentSubagentId :=
      mem_ownedBy.mpr ⟨(mem_turnNodes keyed).mpr ⟨stored, rfl⟩, rfl⟩
    have there : right ∈ ownedBy (turnNodes nodes left.turnId) left.parentSubagentId :=
      mem_ownedBy.mpr ⟨(mem_turnNodes keyed).mpr ⟨found, sameTurn.symm⟩, sameOwner.symm⟩
    have pair : [left.id, right.id].Sublist (ownedIds nodes left.turnId left.parentSubagentId) :=
      (pair_sublist_of_pairwise (ownedBy_sorted _ _) here there before).map TraceGraphNode.id
    have inTurn : (ownedIds nodes left.turnId left.parentSubagentId).Sublist
        (orderOf left.turnId) := by
      cases owned : left.parentSubagentId with
      | none => exact (orders left.turnId).roots_sublist
      | some parentId =>
        obtain ⟨parent, known, -⟩ := exists_owner valid.scopes stored owned
        obtain ⟨depth, -, chain⟩ := exists_depth valid.scopes known
        have turnOf := valid.sameTurn left.id left parentId parent stored owned known
        exact (orders left.turnId).children_sublist
          (turnOf ▸ mem_turnOrder keyed orders valid.sameTurn chain known)
    obtain ⟨earlier, later, whole⟩ := exists_segment orderOf known
    rw [whole, same]
    exact (pair.trans inTurn).trans
      ((List.sublist_append_left _ _).trans (List.sublist_append_right _ _))
  turns := by
    intro left right leftTurn rightTurn stored found here there first second before
    have listed {node : TraceGraphNode} (stored : nodes.get? node.id = some node) :
        [node.id].Sublist (orderOf node.turnId) := by
      obtain ⟨depth, -, chain⟩ := exists_depth valid.scopes stored
      exact List.singleton_sublist.mpr (mem_turnOrder keyed orders valid.sameTurn chain stored)
    have sorted := sortedTurns_perm turns
    have pair := pair_sublist_of_pairwise (sortedTurns_sorted turns) (sorted.mem_iff.mpr here)
      (sorted.mem_iff.mpr there) before
    have both : (orderOf left.turnId ++ orderOf right.turnId).Sublist
        ((sortedTurns turns).flatMap fun turn => orderOf turn.id) := by
      have mapped := pair.flatMap fun turn => orderOf turn.id
      simpa [first, second] using mapped
    exact ((listed stored).append (listed found)).trans both

/-! ## Independence of the supply -/

section Supply

variable {nodes nodes' : GraphNodes} {turns turns' : List TraceGraphTurn}

theorem get?_eq_of_perm (perm : nodes.entries.Perm nodes'.entries) (id : String) :
    nodes.get? id = nodes'.get? id := by
  refine Option.ext fun node => ?_
  rw [Dict.get?_eq_some_iff, Dict.get?_eq_some_iff, perm.mem_iff]

/-- What a scope owns is sorted the same way from any supply. -/
theorem ownedIds_eq_of_perm (keyed : Keyed nodes) (perm : nodes.entries.Perm nodes'.entries)
    (turnId : String) (parentId? : Option String) :
    ownedIds nodes turnId parentId? = ownedIds nodes' turnId parentId? := by
  have supplied :
      ((turnNodes nodes turnId).filter fun node => node.parentSubagentId = parentId?).Perm
      ((turnNodes nodes' turnId).filter fun node => node.parentSubagentId = parentId?) :=
    ((perm.map Prod.snd).filter _).filter _
  have sorted : (ownedBy (turnNodes nodes turnId) parentId?).Perm
      (ownedBy (turnNodes nodes' turnId) parentId?) :=
    ((List.perm_insertionSort _ _).trans supplied).trans (List.perm_insertionSort _ _).symm
  have same : ownedBy (turnNodes nodes turnId) parentId? =
      ownedBy (turnNodes nodes' turnId) parentId? := by
    refine sorted.eq_of_pairwise ?_ (ownedBy_sorted _ _) (ownedBy_sorted _ _)
    intro left right here there before after
    have key : siblingKey left = siblingKey right := le_antisymm before after
    have ids : left.id = right.id := by
      simpa [siblingKey] using congrArg (fun key => (ofLex (ofLex key).2).2) key
    have first := ((mem_turnNodes keyed).mp (mem_ownedBy.mp here).1).1
    have second := ((mem_turnNodes keyed).mp (mem_ownedBy.mp (sorted.mem_iff.mpr there)).1).1
    exact Option.some.inj ((ids ▸ first).symm.trans second)
  rw [ownedIds, ownedIds, same]

theorem sortedTurns_eq_of_perm (distinct : (turns.map TraceGraphTurn.id).Nodup)
    (perm : turns.Perm turns') : sortedTurns turns = sortedTurns turns' := by
  have sorted := ((sortedTurns_perm turns).trans perm).trans (sortedTurns_perm turns').symm
  refine sorted.eq_of_pairwise ?_ (sortedTurns_sorted _) (sortedTurns_sorted _)
  intro left right here there before after
  have key : turnKey left = turnKey right := le_antisymm before after
  have ids : left.id = right.id := by
    simpa [turnKey] using congrArg (fun key => (ofLex key).2) key
  exact List.inj_on_of_nodup_map distinct ((sortedTurns_perm turns).mem_iff.mp here)
    ((sortedTurns_perm turns).mem_iff.mp (sorted.mem_iff.mpr there)) ids

theorem ScopeDepth.congr {scopes scopes' : GraphScopes}
    (same : ∀ id, scopes.get? id = scopes'.get? id) {id : String} {depth : Nat}
    (chain : ScopeDepth scopes id depth) : ScopeDepth scopes' id depth := by
  induction chain with
  | root stored => exact .root (same _ ▸ stored)
  | owned stored owner _ ih => exact .owned (same _ ▸ stored) (same _ ▸ owner) ih

/-- Whether a graph is valid depends on what is found in it. -/
theorem GraphValid.congr (same : ∀ id, nodes.get? id = nodes'.get? id)
    (valid : GraphValid turns nodes) : GraphValid turns nodes' := by
  have scopes (id : String) : (graphScopes nodes).get? id = (graphScopes nodes').get? id := by
    rw [graphScopes_get?, graphScopes_get?, same]
  have parents : scopeParent (graphScopes nodes) = scopeParent (graphScopes nodes') :=
    funext fun id => by rw [scopeParent, scopeParent, scopes]
  refine ⟨⟨?_, parents ▸ valid.scopes.acyclic, ?_⟩, ?_, ?_⟩
  · intro id parentId kind stored
    rw [← scopes] at stored ⊢
    exact valid.scopes.owners id parentId kind stored
  · exact fun id depth chain =>
      valid.scopes.depths id depth (chain.congr fun id => (scopes id).symm)
  · intro id node parentId parent stored owned found
    rw [← same] at stored found
    exact valid.sameTurn id node parentId parent stored owned found
  · intro id node stored
    rw [← same] at stored
    exact valid.known id node stored

/-- Another supply of the same nodes is ordered the same way, or refused as well. -/
theorem canonical_eq_of_perm (keyed : Keyed nodes) (distinct : (turns.map TraceGraphTurn.id).Nodup)
    (perm : nodes.entries.Perm nodes'.entries) :
    (canonicalTraceGraphNodeOrder turns nodes').toOption =
      (canonicalTraceGraphNodeOrder turns nodes).toOption := by
  have same := get?_eq_of_perm perm
  have keyed' : Keyed nodes' := fun id node stored => keyed id node (same id ▸ stored)
  obtain ⟨valid, orderOf, orders, ordered⟩ | ⟨invalid, message, refused⟩ :=
    canonical_cases keyed distinct
  · obtain ⟨-, orderOf', orders', ordered'⟩ | ⟨invalid, -⟩ := canonical_cases keyed' distinct
    · have alike : orderOf' = orderOf := by
        funext turnId
        have other := orders' turnId
        simp only [← ownedIds_eq_of_perm keyed perm] at other
        exact other.unique (orders turnId)
      rw [ordered, ordered', alike]
    · exact absurd (valid.congr same) invalid
  · obtain ⟨valid, -⟩ | ⟨-, message', refused'⟩ := canonical_cases keyed' distinct
    · exact absurd (valid.congr fun id => (same id).symm) invalid
    · rw [refused, refused']
      rfl

end Supply

/-- Nodes are listed in their canonical order exactly if the graph is valid, and refused with a
value error otherwise, whatever order they are supplied in. -/
theorem canonical_order_exact (keyed : Keyed nodes)
    (distinct : (turns.map TraceGraphTurn.id).Nodup) :
    ((GraphValid turns nodes ∧ ∃ order, canonicalTraceGraphNodeOrder turns nodes = .ok order ∧
        CanonicalOrder turns nodes order) ∨
      ¬GraphValid turns nodes ∧ ∃ message,
        canonicalTraceGraphNodeOrder turns nodes = .error (.value message)) ∧
    ∀ nodes' : GraphNodes, nodes.entries.Perm nodes'.entries →
      (canonicalTraceGraphNodeOrder turns nodes').toOption =
        (canonicalTraceGraphNodeOrder turns nodes).toOption := by
  refine ⟨?_, fun nodes' perm => canonical_eq_of_perm keyed distinct perm⟩
  obtain ⟨valid, orderOf, orders, ordered⟩ | refused := canonical_cases keyed distinct
  · exact .inl ⟨valid, _, ordered, canonicalOrder_of_valid keyed distinct valid orders⟩
  · exact .inr refused

/-- A node of the first turn without details. -/
def bareNode (id : String) (parentSubagentId : Option String) (kind : TraceGraphNodeKind) :
    TraceGraphNode where
  id := id
  turnId := "turn"
  parentSubagentId := parentSubagentId
  modelCallId := none
  kind := kind
  status := .running
  name := id
  runId := "run"
  graphNamespace := []
  agentName := none
  provider := none
  model := none
  sourceId := none
  startedAt := 0
  firstOutputAt := none
  completedAt := none
  startedSeq := 1
  updatedSeq := 1
  content := .null
  contentOmitted := false
  toolCallOnly := false
  request := .null
  requestOmitted := false
  result := .null
  resultOmitted := false
  usage := .null
  responseMetadata := .null
  failure := none
  linkIssues := []

/-- A Subagent and a tool call in it, supplied the other way round. -/
def nestedNodes : GraphNodes where
  entries := [("tool", bareNode "tool" (some "agent") .tool),
    ("agent", bareNode "agent" none .subagent)]
  nodup := by decide

theorem nestedNodes_keyed : Keyed nestedNodes := by
  intro id node stored
  have member : (id, node) ∈ nestedNodes.entries := Dict.get?_eq_some_iff.mp stored
  simp only [nestedNodes, List.mem_cons, Prod.mk.injEq, List.not_mem_nil, or_false] at member
  obtain ⟨rfl, rfl⟩ | ⟨rfl, rfl⟩ := member <;> rfl

theorem canonical_order_exact_nested :
    ((GraphValid [⟨"turn", 1, 0⟩] nestedNodes ∧ ∃ order,
        canonicalTraceGraphNodeOrder [⟨"turn", 1, 0⟩] nestedNodes = .ok order ∧
          CanonicalOrder [⟨"turn", 1, 0⟩] nestedNodes order) ∨
      ¬GraphValid [⟨"turn", 1, 0⟩] nestedNodes ∧ ∃ message,
        canonicalTraceGraphNodeOrder [⟨"turn", 1, 0⟩] nestedNodes = .error (.value message)) ∧
    ∀ nodes' : GraphNodes, nestedNodes.entries.Perm nodes'.entries →
      (canonicalTraceGraphNodeOrder [⟨"turn", 1, 0⟩] nodes').toOption =
        (canonicalTraceGraphNodeOrder [⟨"turn", 1, 0⟩] nestedNodes).toOption :=
  canonical_order_exact nestedNodes_keyed (by decide)

example : canonicalTraceGraphNodeOrder [⟨"turn", 1, 0⟩] nestedNodes = .ok ["agent", "tool"] := by
  decide

end Canonical

end Tinkerfin.Tracing
