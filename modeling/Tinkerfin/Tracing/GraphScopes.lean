import Tinkerfin.Lib.Forest
import Tinkerfin.Tracing.GraphReducer

/-!
# Subagent scopes

Every node of a graph belongs to a turn or to a Subagent of that turn.  Before nodes are ordered,
every chain of owning Subagents is climbed once, with the depths that are known already.
-/

namespace Tinkerfin.Tracing

open Forest (Acyclic)
open Relation (TransGen ReflTransGen)

/-! ## Nodes -/

structure TraceGraphFailure where
  errorType : String
  message : Option String
  deriving DecidableEq

/-- One user turn of the selected lineage. -/
structure TraceGraphTurn where
  id : String
  ordinal : Int
  startedAt : Nat
  deriving DecidableEq

/-- One event of a turn or of a nested Subagent scope; a detail without a value is null. -/
structure TraceGraphNode where
  id : String
  turnId : String
  parentSubagentId : Option String
  modelCallId : Option String
  kind : TraceGraphNodeKind
  status : TraceGraphNodeStatus
  name : String
  runId : String
  graphNamespace : List String
  agentName : Option String
  provider : Option String
  model : Option String
  sourceId : Option String
  startedAt : Nat
  firstOutputAt : Option Nat
  completedAt : Option Nat
  startedSeq : Int
  updatedSeq : Int
  content : Json
  contentOmitted : Bool
  toolCallOnly : Bool
  request : Json
  requestOmitted : Bool
  result : Json
  resultOmitted : Bool
  usage : Json
  responseMetadata : Json
  failure : Option TraceGraphFailure
  linkIssues : List TraceGraphLinkIssue

/-- What goes wrong in an order: a refused value, a missing key, or a loop that was cut off. -/
inductive GraphOrderError
  | value (message : String)
  | key (id : String)
  | unfinished
  deriving DecidableEq

def GraphOrderError.cycle : GraphOrderError :=
  .value "Trace Graph Subagent scopes cannot form a cycle"

def GraphOrderError.scopeParent : GraphOrderError :=
  .value "Trace Graph scope parents must be returned Subagents"

def GraphOrderError.turnParent : GraphOrderError :=
  .value "Trace Graph scope parents must share the child Turn"

def GraphOrderError.tooDeep : GraphOrderError :=
  .value "Trace Graph Subagent scopes accept at most 64 levels"

/-! ## Validation -/

/-- The owning Subagent and the kind of every node. -/
abbrev GraphScopes := Dict String (Option String × TraceGraphNodeKind)

/-- The level that a node adds to the scopes in it. -/
def scopeLevels (kind : TraceGraphNodeKind) : Nat := if kind = .subagent then 1 else 0

/-- Climb from a node to the first one whose depth is known or that has no owner. -/
def climbDepths (nodes : GraphScopes) (resolvedDepths : Dict String Nat) :
    Nat → List String → String → Except GraphOrderError (List String)
  | 0, _, _ => .error .unfinished
  | rounds + 1, path, currentId =>
    if resolvedDepths.contains currentId then
      .ok path
    else if currentId ∈ path then
      .error .cycle
    else
      match nodes.get? currentId with
      | none => .error (.key currentId)
      | some (none, _) => .ok (path ++ [currentId])
      | some (some parentId, _) =>
        match nodes.get? parentId with
        | some (_, .subagent) =>
          climbDepths nodes resolvedDepths rounds (path ++ [currentId]) parentId
        | _ => .error .scopeParent

/-- The depth around a node: that of its owner, or none at the root of its turn. -/
def parentDepth (resolvedDepths : Dict String Nat) : Option String → Except GraphOrderError Nat
  | none => .ok 0
  | some parentId =>
    match resolvedDepths.get? parentId with
    | some depth => .ok depth
    | none => .error (.key parentId)

/-- The depth of one node, from that of its owner. -/
def resolveDepth (nodes : GraphScopes) (resolvedDepths : Dict String Nat) (nodeId : String) :
    Except GraphOrderError (Dict String Nat) :=
  match nodes.get? nodeId with
  | none => .error (.key nodeId)
  | some (parentId?, kind) => do
    let around ← parentDepth resolvedDepths parentId?
    let depth := around + scopeLevels kind
    if maxSubagentScopeDepth < depth then
      .error .tooDeep
    else
      .ok (resolvedDepths.insert nodeId depth)

/-- The depths along a path, from its end. -/
def resolvePath (nodes : GraphScopes) : List String → Dict String Nat →
    Except GraphOrderError (Dict String Nat)
  | [], resolvedDepths => .ok resolvedDepths
  | nodeId :: path, resolvedDepths => do
    let resolvedDepths ← resolvePath nodes path resolvedDepths
    resolveDepth nodes resolvedDepths nodeId

/-- Resolve one node and the scopes around it. -/
def GraphScopes.resolveOrigin (nodes : GraphScopes) (resolvedDepths : Dict String Nat)
    (originId : String) : Except GraphOrderError (Dict String Nat) :=
  if resolvedDepths.contains originId then
    .ok resolvedDepths
  else do
    let path ← climbDepths nodes resolvedDepths (nodes.size + 1) [] originId
    resolvePath nodes path resolvedDepths

/-- Validate the owner chain of every node. -/
def GraphScopes.validate (nodes : GraphScopes) :
    Except GraphOrderError (Dict String Nat) :=
  nodes.keys.foldlM (GraphScopes.resolveOrigin nodes) .empty

/-! ## Depths -/

/-- Nested depth of a node: the Subagents on its owner chain, itself included. -/
inductive ScopeDepth (nodes : GraphScopes) : String → Nat → Prop
  | root {id : String} {kind : TraceGraphNodeKind} (stored : nodes.get? id = some (none, kind)) :
      ScopeDepth nodes id (scopeLevels kind)
  | owned {id parentId : String} {kind : TraceGraphNodeKind} {above : Option String} {depth : Nat}
      (stored : nodes.get? id = some (some parentId, kind))
      (owner : nodes.get? parentId = some (above, .subagent))
      (around : ScopeDepth nodes parentId depth) : ScopeDepth nodes id (depth + scopeLevels kind)

/-- The owner of a node. -/
def scopeParent (nodes : GraphScopes) (id : String) : Option String :=
  (nodes.get? id).bind Prod.fst

/-- The scopes are a forest of returned Subagents within the depth limit. -/
structure ScopesValid (nodes : GraphScopes) : Prop where
  owners : ∀ id parentId kind, nodes.get? id = some (some parentId, kind) →
    ∃ above, nodes.get? parentId = some (above, .subagent)
  acyclic : Acyclic (scopeParent nodes)
  depths : ∀ id depth, ScopeDepth nodes id depth → depth ≤ maxSubagentScopeDepth

section Depths

variable {nodes : GraphScopes} {id parentId : String} {depth other : Nat}

theorem ScopeDepth.unique (first : ScopeDepth nodes id depth) (second : ScopeDepth nodes id other) :
    other = depth := by
  induction first generalizing other with
  | root stored =>
    cases second with
    | root again =>
      obtain ⟨-, rfl⟩ := Prod.mk.inj (Option.some.inj (stored.symm.trans again))
      rfl
    | owned again => cases stored.symm.trans again
  | owned stored _ _ ih =>
    cases second with
    | root again => cases stored.symm.trans again
    | owned again _ around =>
      obtain ⟨same, rfl⟩ := Prod.mk.inj (Option.some.inj (stored.symm.trans again))
      obtain rfl := Option.some.inj same
      rw [ih around]

theorem ScopeDepth.not_cycle (resolved : ScopeDepth nodes id depth) :
    ¬TransGen (Forest.Below (scopeParent nodes)) id id := by
  induction resolved with
  | root stored =>
    intro cycle
    obtain ⟨above, edge, -⟩ := TransGen.head'_iff.mp cycle
    simp [Forest.Below, scopeParent, stored] at edge
  | @owned id parentId _ _ _ stored _ _ ih =>
    intro cycle
    obtain ⟨above, edge, rest⟩ := TransGen.head'_iff.mp cycle
    obtain rfl : parentId = above := by
      simpa [Forest.Below, scopeParent, stored] using edge
    exact ih (.tail' rest edge)

/-- If every node has a depth within the limit, the scopes are valid. -/
theorem scopesValid_of_depths
    (resolved : ∀ id ∈ nodes.keys, ∃ depth ≤ maxSubagentScopeDepth, ScopeDepth nodes id depth) :
    ScopesValid nodes where
  owners id parentId kind stored := by
    obtain ⟨depth, -, chain⟩ := resolved id (Dict.mem_keys_of_get? stored)
    cases chain with
    | root again => cases stored.symm.trans again
    | owned again owner _ =>
      obtain ⟨same, -⟩ := Prod.mk.inj (Option.some.inj (stored.symm.trans again))
      obtain rfl := Option.some.inj same
      exact ⟨_, owner⟩
  acyclic id cycle := by
    by_cases present : id ∈ nodes.keys
    · obtain ⟨depth, -, chain⟩ := resolved id present
      exact chain.not_cycle cycle
    · obtain ⟨above, edge, -⟩ := TransGen.head'_iff.mp cycle
      have absent : nodes.get? id = none := by
        by_contra known
        obtain ⟨value, stored⟩ := Option.ne_none_iff_exists'.mp known
        exact present (Dict.mem_keys_of_get? stored)
      simp [Forest.Below, scopeParent, absent] at edge
  depths id depth chain := by
    have present : id ∈ nodes.keys := by
      cases chain with
      | root stored => exact Dict.mem_keys_of_get? stored
      | owned stored _ _ => exact Dict.mem_keys_of_get? stored
    obtain ⟨known, within, same⟩ := resolved id present
    exact chain.unique same ▸ within

end Depths

/-! ## What the validation finds -/

/-- The owner of the last node before the rest of a path. -/
def nextOwner (rest : List String) (stop : Option String) : Option String :=
  match rest with
  | [] => stop
  | next :: _ => some next

/-- Every node of a path is owned by the next one, which is a Subagent, and the last one by
`stop`. -/
def Leads (nodes : GraphScopes) : List String → Option String → Prop
  | [], _ => True
  | id :: rest, stop =>
    (∃ kind, nodes.get? id = some (nextOwner rest stop, kind)) ∧
      (∀ owner, nextOwner rest stop = some owner →
        ∃ above, nodes.get? owner = some (above, .subagent)) ∧
      Leads nodes rest stop

/-- The depths found so far are right and within the limit. -/
def Resolved (nodes : GraphScopes) (resolvedDepths : Dict String Nat) : Prop :=
  ∀ id depth, resolvedDepths.get? id = some depth →
    ScopeDepth nodes id depth ∧ depth ≤ maxSubagentScopeDepth

/-- A computation refuses the scopes, and rightly. -/
def Refuses {α : Type} (nodes : GraphScopes) (outcome : Except GraphOrderError α) : Prop :=
  (∃ message, outcome = .error (.value message)) ∧ ¬ScopesValid nodes

section Validation

variable {nodes : GraphScopes} {path : List String} {stop : Option String} {currentId : String}
  {resolvedDepths : Dict String Nat}

theorem Refuses.bind {α β : Type} {outcome : Except GraphOrderError α}
    {next : α → Except GraphOrderError β} (refuses : Refuses nodes outcome) :
    Refuses nodes (outcome >>= next) := by
  obtain ⟨⟨message, rfl⟩, invalid⟩ := refuses
  exact ⟨⟨message, rfl⟩, invalid⟩

theorem Leads.snoc {kind : TraceGraphNodeKind} (leads : Leads nodes path (some currentId))
    (stored : nodes.get? currentId = some (stop, kind))
    (owners : ∀ owner, stop = some owner → ∃ above, nodes.get? owner = some (above, .subagent)) :
    Leads nodes (path ++ [currentId]) stop := by
  induction path with
  | nil => exact ⟨⟨kind, stored⟩, owners, trivial⟩
  | cons id path ih =>
    obtain ⟨here, subagent, rest⟩ := leads
    have same : nextOwner (path ++ [currentId]) stop = nextOwner path (some currentId) := by
      cases path <;> rfl
    exact ⟨same ▸ here, same ▸ subagent, ih rest⟩

/-- The nodes of a path are below the one that it leads to. -/
theorem Leads.below (leads : Leads nodes path (some currentId)) {id : String} (member : id ∈ path) :
    TransGen (Forest.Below (scopeParent nodes)) id currentId := by
  induction path generalizing id with
  | nil => cases member
  | cons first path ih =>
    obtain ⟨⟨kind, stored⟩, -, rest⟩ := leads
    have edge : Forest.Below (scopeParent nodes) first
        ((path ++ [currentId]).head (by simp)) := by
      cases path <;> simp [Forest.Below, scopeParent, stored, nextOwner]
    have tail : Relation.ReflTransGen (Forest.Below (scopeParent nodes))
        ((path ++ [currentId]).head (by simp)) currentId := by
      cases path with
      | nil => exact .refl
      | cons next path => exact (ih rest List.mem_cons_self).to_reflTransGen
    obtain rfl | member := List.mem_cons.mp member
    · exact .head' edge tail
    · exact ih rest member

/-- Climbing ends at a known depth or at a root, or finds what is wrong. -/
theorem climbDepths_cases (rounds : Nat) (leads : Leads nodes path (some currentId))
    (present : currentId ∈ nodes.keys) (distinct : path.Nodup)
    (within : ∀ id ∈ path, id ∈ nodes.keys) (enough : nodes.size < rounds + path.length) :
    (∃ found stop, climbDepths nodes resolvedDepths rounds path currentId = .ok found ∧
      Leads nodes found stop ∧ (∀ owner, stop = some owner → resolvedDepths.contains owner = true) ∧
      (resolvedDepths.contains currentId = true ∨ currentId ∈ found) ∧ path ⊆ found) ∨
    Refuses nodes (climbDepths nodes resolvedDepths rounds path currentId) := by
  induction rounds generalizing path currentId with
  | zero =>
    have bound := (List.subperm_of_subset distinct within).length_le
    have keys : nodes.keys.length = nodes.size := by simp [Dict.keys, Dict.size]
    omega
  | succ rounds ih =>
    rw [climbDepths]
    by_cases known : resolvedDepths.contains currentId = true
    · rw [if_pos known]
      refine .inl ⟨path, some currentId, rfl, leads, ?_, .inl known, fun _ => id⟩
      exact fun owner same => Option.some.inj same ▸ known
    · rw [if_neg known]
      by_cases again : currentId ∈ path
      · rw [if_pos again]
        exact .inr ⟨⟨_, rfl⟩, fun valid => valid.acyclic _ (leads.below again)⟩
      · rw [if_neg again]
        obtain ⟨⟨owner?, kind⟩, stored⟩ :=
          Dict.contains_eq_true_iff.mp (Dict.mem_keys_iff.mp present)
        have wider : ∀ id ∈ path ++ [currentId], id ∈ nodes.keys := by
          intro id member
          obtain before | last := List.mem_append.mp member
          · exact within id before
          · exact List.mem_singleton.mp last ▸ present
        cases owner? with
        | none =>
          simp only [stored]
          exact .inl ⟨_, none, rfl, leads.snoc stored (by simp), by simp, .inr (by simp),
            List.subset_append_left _ _⟩
        | some parentId =>
          simp only [stored]
          split
          · next above subagent =>
              have longer : (path ++ [currentId]).Nodup :=
                List.nodup_append.mpr ⟨distinct, List.nodup_singleton _, by
                  rintro id member other last rfl
                  exact again (List.mem_singleton.mp last ▸ member)⟩
              obtain ⟨found, stop, climbed, leads, ends, -, inside⟩ | refused :=
                ih (leads.snoc stored (by rintro owner ⟨⟩; exact ⟨above, subagent⟩))
                  (Dict.mem_keys_of_get? subagent) longer wider (by
                    rw [List.length_append, List.length_singleton]
                    omega)
              · exact .inl ⟨found, stop, climbed, leads, ends,
                  .inr (inside (by simp)), fun id member => inside (by simp [member])⟩
              · exact .inr refused
          · next unowned =>
              refine .inr ⟨⟨_, rfl⟩, fun valid => ?_⟩
              obtain ⟨above, owner⟩ := valid.owners currentId parentId kind stored
              exact unowned above owner

/-- A node whose owner is resolved gets its depth, or is too deep. -/
theorem resolveDepth_cases {id : String} {kind : TraceGraphNodeKind}
    (resolved : Resolved nodes resolvedDepths) (stored : nodes.get? id = some (stop, kind))
    (owners : ∀ owner, stop = some owner → ∃ above, nodes.get? owner = some (above, .subagent))
    (known : ∀ owner, stop = some owner → resolvedDepths.contains owner = true) :
    (∃ deeper, resolveDepth nodes resolvedDepths id = .ok deeper ∧ Resolved nodes deeper ∧
      ∀ other, other = id ∨ resolvedDepths.contains other = true →
        deeper.contains other = true) ∨
    Refuses nodes (resolveDepth nodes resolvedDepths id) := by
  obtain ⟨around, looked, chain⟩ : ∃ around, parentDepth resolvedDepths stop = .ok around ∧
      ScopeDepth nodes id (around + scopeLevels kind) := by
    cases stop with
    | none => exact ⟨0, rfl, by simpa using ScopeDepth.root stored⟩
    | some owner =>
      obtain ⟨above, subagent⟩ := owners owner rfl
      obtain ⟨depth, found⟩ := Dict.contains_eq_true_iff.mp (known owner rfl)
      exact ⟨depth, by simp [parentDepth, found],
        .owned stored subagent (resolved owner depth found).1⟩
  simp only [resolveDepth, stored, looked]
  by_cases deep : maxSubagentScopeDepth < around + scopeLevels kind
  · refine .inr ⟨⟨_, if_pos deep⟩, fun valid => ?_⟩
    exact absurd (valid.depths id _ chain) (Nat.not_le.mpr deep)
  · refine .inl ⟨_, if_neg deep, ?_, ?_⟩
    · intro other depth found
      rw [Dict.get?_insert] at found
      split at found
      · next same =>
          obtain rfl := Option.some.inj found
          exact same ▸ ⟨chain, Nat.not_lt.mp deep⟩
      · exact resolved other depth found
    · intro other member
      rw [Dict.contains_eq_true_iff, Dict.get?_insert]
      split
      · exact ⟨_, rfl⟩
      · next different =>
          exact Dict.contains_eq_true_iff.mp (member.resolve_left different)

/-- The depths along a path are resolved from its end. -/
theorem resolvePath_cases (leads : Leads nodes path stop) (resolved : Resolved nodes resolvedDepths)
    (known : ∀ owner, stop = some owner → resolvedDepths.contains owner = true) :
    (∃ deeper, resolvePath nodes path resolvedDepths = .ok deeper ∧ Resolved nodes deeper ∧
      ∀ other, other ∈ path ∨ resolvedDepths.contains other = true →
        deeper.contains other = true) ∨
    Refuses nodes (resolvePath nodes path resolvedDepths) := by
  induction path with
  | nil => exact .inl ⟨resolvedDepths, rfl, resolved, by simp⟩
  | cons id path ih =>
    obtain ⟨⟨kind, stored⟩, owners, rest⟩ := leads
    rw [resolvePath]
    obtain ⟨middle, found, right, keeps⟩ | refused := ih rest
    · have here : ∀ owner, nextOwner path stop = some owner → middle.contains owner = true := by
        intro owner next
        cases path with
        | nil => exact keeps owner (.inr (known owner next))
        | cons first path =>
          obtain rfl := Option.some.inj next
          exact keeps first (.inl List.mem_cons_self)
      rw [found]
      obtain ⟨deeper, ended, all, more⟩ | refused := resolveDepth_cases right stored owners here
      · refine .inl ⟨deeper, ended, all, fun other member => ?_⟩
        obtain member | old := member
        · obtain same | later := List.mem_cons.mp member
          · exact more other (.inl same)
          · exact more other (.inr (keeps other (.inl later)))
        · exact more other (.inr (keeps other (.inr old)))
      · exact .inr refused
    · exact .inr refused.bind

theorem resolveOrigin_cases {originId : String} (present : originId ∈ nodes.keys)
    (resolved : Resolved nodes resolvedDepths) :
    (∃ deeper, GraphScopes.resolveOrigin nodes resolvedDepths originId = .ok deeper ∧
      Resolved nodes deeper ∧
      ∀ other, other = originId ∨ resolvedDepths.contains other = true →
        deeper.contains other = true) ∨
    Refuses nodes (GraphScopes.resolveOrigin nodes resolvedDepths originId) := by
  unfold GraphScopes.resolveOrigin
  by_cases known : resolvedDepths.contains originId = true
  · rw [if_pos known]
    refine .inl ⟨resolvedDepths, rfl, resolved, fun other member => ?_⟩
    obtain rfl | old := member
    · exact known
    · exact old
  · rw [if_neg known]
    have start : Leads nodes [] (some originId) := trivial
    obtain ⟨found, stop, climbed, leads, ends, reached, -⟩ | refused :=
      climbDepths_cases (nodes.size + 1) start present List.nodup_nil (by simp) (by simp)
    · rw [climbed]
      obtain ⟨deeper, ended, right, keeps⟩ | refused := resolvePath_cases leads resolved ends
      · refine .inl ⟨deeper, ended, right, fun other member => ?_⟩
        obtain rfl | old := member
        · exact keeps other (.inl (reached.resolve_left known))
        · exact keeps other (.inr old)
      · exact .inr refused
    · exact .inr refused.bind

/-- The validation resolves the depth of every node, or refuses scopes that are not valid. -/
theorem validate_cases (nodes : GraphScopes) :
    (∃ depths, GraphScopes.validate nodes = .ok depths ∧
      ∀ id ∈ nodes.keys, ∃ depth ≤ maxSubagentScopeDepth, ScopeDepth nodes id depth) ∨
    Refuses nodes (GraphScopes.validate nodes) := by
  suffices each : ∀ (keys : List String) (resolvedDepths : Dict String Nat),
      keys ⊆ nodes.keys → Resolved nodes resolvedDepths →
      (∃ deeper, keys.foldlM (GraphScopes.resolveOrigin nodes) resolvedDepths = .ok deeper ∧
        Resolved nodes deeper ∧ ∀ other, other ∈ keys ∨ resolvedDepths.contains other = true →
          deeper.contains other = true) ∨
      Refuses nodes (keys.foldlM (GraphScopes.resolveOrigin nodes) resolvedDepths) by
    obtain ⟨deeper, ended, right, keeps⟩ | refused :=
      each nodes.keys .empty (fun _ => id) (by intro id depth found; simp at found)
    · refine .inl ⟨deeper, ended, fun id member => ?_⟩
      obtain ⟨depth, found⟩ := Dict.contains_eq_true_iff.mp (keeps id (.inl member))
      exact ⟨depth, (right id depth found).2, (right id depth found).1⟩
    · exact .inr refused
  intro keys
  induction keys with
  | nil => exact fun resolvedDepths _ resolved => .inl ⟨resolvedDepths, rfl, resolved, by simp⟩
  | cons origin keys ih =>
    intro resolvedDepths within resolved
    rw [List.foldlM_cons]
    obtain ⟨middle, found, right, keeps⟩ | refused :=
      resolveOrigin_cases (within List.mem_cons_self) resolved
    · rw [found]
      obtain ⟨deeper, ended, all, more⟩ | refused :=
        ih middle (List.subset_of_cons_subset within) right
      · refine .inl ⟨deeper, ended, all, fun other member => ?_⟩
        obtain member | old := member
        · obtain same | later := List.mem_cons.mp member
          · exact more other (.inr (keeps other (.inl same)))
          · exact more other (.inl later)
        · exact more other (.inr (keeps other (.inr old)))
      · exact .inr refused
    · exact .inr refused.bind

theorem validate_ok_iff :
    (∃ depths, GraphScopes.validate nodes = .ok depths) ↔ ScopesValid nodes := by
  obtain ⟨depths, accepted, resolved⟩ | ⟨⟨message, refused⟩, invalid⟩ :=
    validate_cases nodes
  · exact ⟨fun _ => scopesValid_of_depths resolved, fun _ => ⟨depths, accepted⟩⟩
  · constructor
    · rintro ⟨depths, accepted⟩
      cases refused.symm.trans accepted
    · exact fun valid => absurd valid invalid

end Validation

end Tinkerfin.Tracing
