import Tinkerfin.Lib.Bytes
import Tinkerfin.Lib.KeyedDelta
import Tinkerfin.Tracing.GraphOrder

/-!
# Graph deltas

A followed graph sends what changed between two pages: the turns and nodes that are new or not equal
any more, those that are gone, and the order, matches and completeness of the current page.  A
reader drops, replaces and reorders.  If the delta is too large the details of its nodes are left
out, and the completeness says so.
-/

namespace Tinkerfin.Tracing

open KeyedDelta (table holds upserts removes patched)

/-! ## Pages -/

structure TraceGraphCompleteness where
  callTrackingMissing : Bool
  relationshipEvidenceMissing : Bool
  detailsOmitted : Bool
  deriving DecidableEq

structure TraceGraph where
  turns : List TraceGraphTurn
  nodes : List TraceGraphNode
  orderedNodeIds : List String
  matchedNodeIds : List String
  asOfSeq : Int
  completeness : TraceGraphCompleteness

/-- One filtered page with the cursor of the next older one. -/
structure TraceGraphPage extends TraceGraph where
  nextCursor : Option String

structure TraceGraphDelta where
  asOfSeq : Int
  nextCursor : Option String
  turnUpserts : List TraceGraphTurn
  turnRemoves : List String
  nodeUpserts : List TraceGraphNode
  nodeRemoves : List String
  orderedNodeIds : List String
  matchedNodeIds : List String
  completeness : TraceGraphCompleteness

/-! ## Validators -/

def rejectIf (wrong : Prop) [Decidable wrong] (message : String) : Except GraphOrderError Unit :=
  if wrong then .error (.value message) else .ok ()

/-- Identifiers are not empty, at most 2048 characters long and without surrounding whitespace. -/
def CanonicalId (value : String) : Prop :=
  value ≠ "" ∧ value.length ≤ 2048 ∧ Bytes.strip value = value

instance (value : String) : Decidable (CanonicalId value) := by
  unfold CanonicalId
  infer_instance

/-- Reject duplicate, missing, cyclic, or out-of-order references of a graph. -/
def TraceGraph.referencesAreExact (graph : TraceGraph) : Except GraphOrderError Unit := do
  let nodesById := table TraceGraphNode.id graph.nodes
  rejectIf (nodesById.size ≠ graph.nodes.length) "Trace Graph node IDs must be unique"
  rejectIf (¬graph.orderedNodeIds.Nodup) "Trace Graph ordered node IDs must be unique"
  rejectIf (¬((∀ id ∈ graph.orderedNodeIds, id ∈ nodesById.keys) ∧
    ∀ id ∈ nodesById.keys, id ∈ graph.orderedNodeIds))
    "Trace Graph ordering must contain every node exactly once"
  rejectIf (graph.orderedNodeIds ≠ nodesById.keys)
    "Trace Graph nodes must follow authoritative order"
  rejectIf (∃ node ∈ graph.nodes, graph.asOfSeq < node.updatedSeq)
    "Trace Graph nodes cannot reference a future Ledger sequence"
  rejectIf (¬graph.matchedNodeIds.Nodup) "Trace Graph matched node IDs must be unique"
  rejectIf (¬∀ id ∈ graph.matchedNodeIds, id ∈ graph.orderedNodeIds)
    "Trace Graph matches must reference returned nodes"
  rejectIf (graph.matchedNodeIds ≠ graph.orderedNodeIds.filter (· ∈ graph.matchedNodeIds))
    "Trace Graph matches must follow authoritative order"
  rejectIf (¬(graph.turns.map TraceGraphTurn.id).Nodup) "Trace Graph Turn IDs must be unique"
  rejectIf (¬(graph.turns.map TraceGraphTurn.ordinal).Nodup)
    "Trace Graph Turn ordinals must be unique"
  rejectIf (graph.turns ≠ sortedTurns graph.turns) "Trace Graph Turns must follow ordinal order"
  rejectIf (∃ node ∈ graph.nodes, node.turnId ∉ graph.turns.map TraceGraphTurn.id)
    "Trace Graph nodes must reference returned Turns"
  let expectedOrder ← canonicalTraceGraphNodeOrder graph.turns nodesById
  rejectIf (graph.orderedNodeIds ≠ expectedOrder) "Trace Graph node order is not canonical"

def maxOrderedIds : Nat := 20000

def maxMatchedIds : Nat := 10000

/-- The identifiers of one list of a delta are few enough and canonical. -/
def rejectIds (values : List String) (maximum : Nat) (label : String) :
    Except GraphOrderError Unit :=
  rejectIf (maximum < values.length ∨ ∃ value ∈ values, ¬CanonicalId value)
    ("Trace Graph Delta " ++ label ++ " IDs are invalid")

/-- Reject duplicate or out-of-order references of a delta. -/
def TraceGraphDelta.referencesFollowAuthoritativeOrder (delta : TraceGraphDelta) :
    Except GraphOrderError Unit := do
  -- The sequence is declared to be at least 1.
  rejectIf (delta.asOfSeq < 1) "Input should be greater than or equal to 1"
  rejectIds delta.orderedNodeIds maxOrderedIds "ordered node"
  rejectIds delta.matchedNodeIds maxMatchedIds "matched node"
  rejectIds delta.nodeRemoves maxOrderedIds "removed node"
  rejectIds delta.turnRemoves maxOrderedIds "removed Turn"
  rejectIf (¬delta.orderedNodeIds.Nodup) "Trace Graph Delta ordered node IDs must be unique"
  rejectIf (¬delta.matchedNodeIds.Nodup) "Trace Graph Delta matched node IDs must be unique"
  rejectIf (¬∀ id ∈ delta.matchedNodeIds, id ∈ delta.orderedNodeIds)
    "Trace Graph Delta matches must reference ordered nodes"
  rejectIf (delta.matchedNodeIds ≠ delta.orderedNodeIds.filter (· ∈ delta.matchedNodeIds))
    "Trace Graph Delta matches must follow authoritative order"
  rejectIf (¬(delta.turnUpserts.map TraceGraphTurn.id).Nodup)
    "Trace Graph Delta Turn upserts must be unique"
  rejectIf (¬delta.turnRemoves.Nodup) "Trace Graph Delta Turn removals must be unique"
  rejectIf (∃ id ∈ delta.turnUpserts.map TraceGraphTurn.id, id ∈ delta.turnRemoves)
    "Trace Graph Delta cannot upsert and remove one Turn"
  rejectIf (¬(delta.nodeUpserts.map TraceGraphNode.id).Nodup)
    "Trace Graph Delta node upserts must be unique"
  rejectIf (¬delta.nodeRemoves.Nodup) "Trace Graph Delta node removals must be unique"
  rejectIf (∃ id ∈ delta.nodeUpserts.map TraceGraphNode.id, id ∈ delta.nodeRemoves)
    "Trace Graph Delta cannot upsert and remove one node"
  rejectIf (¬∀ id ∈ delta.nodeUpserts.map TraceGraphNode.id, id ∈ delta.orderedNodeIds)
    "Trace Graph Delta upserts must remain in node order"
  rejectIf (∃ node ∈ delta.nodeUpserts, delta.asOfSeq < node.updatedSeq)
    "Trace Graph Delta nodes cannot reference a future Ledger sequence"

/-! ## Deltas -/

/-- Equality of nodes: details are compared as values of a dynamic language. -/
def TraceGraphNode.same (left right : TraceGraphNode) : Bool :=
  left.id = right.id && left.turnId = right.turnId &&
    left.parentSubagentId = right.parentSubagentId && left.modelCallId = right.modelCallId &&
    left.kind = right.kind && left.status = right.status && left.name = right.name &&
    left.runId = right.runId && left.graphNamespace = right.graphNamespace &&
    left.agentName = right.agentName && left.provider = right.provider &&
    left.model = right.model && left.sourceId = right.sourceId &&
    left.startedAt = right.startedAt && left.firstOutputAt = right.firstOutputAt &&
    left.completedAt = right.completedAt && left.startedSeq = right.startedSeq &&
    left.updatedSeq = right.updatedSeq && Json.same left.content right.content &&
    left.contentOmitted = right.contentOmitted && left.toolCallOnly = right.toolCallOnly &&
    Json.same left.request right.request && left.requestOmitted = right.requestOmitted &&
    Json.same left.result right.result && left.resultOmitted = right.resultOmitted &&
    Json.same left.usage right.usage &&
    Json.same left.responseMetadata right.responseMetadata &&
    left.failure = right.failure && left.linkIssues = right.linkIssues

def isPresent : Json → Bool
  | .null => false
  | _ => true

def omitGraphNodeDetails (node : TraceGraphNode) : TraceGraphNode :=
  { node with
    content := .null
    contentOmitted := node.contentOmitted || isPresent node.content
    request := .null
    requestOmitted := node.requestOmitted || isPresent node.request
    result := .null
    resultOmitted := node.resultOmitted || isPresent node.result
    usage := .null
    responseMetadata := .null }

/-- What goes wrong in a delta: its references are refused, or it is too large. -/
inductive GraphDeltaError
  | invalid (error : GraphOrderError)
  | quota (message resource : String)
  deriving DecidableEq

def GraphDeltaError.tooLarge : GraphDeltaError :=
  .quota "Trace Graph update exceeds max_page_bytes" "graph_page_bytes"

/-- A delta without the details of its nodes. -/
def TraceGraphDelta.withoutDetails (delta : TraceGraphDelta) : TraceGraphDelta :=
  { delta with
    nodeUpserts := delta.nodeUpserts.map omitGraphNodeDetails
    completeness := { delta.completeness with detailsOmitted := true } }

/-- Apply the same deterministic detail omission to live Graph updates. -/
def boundGraphDelta (graphJsonBytes : TraceGraphDelta → Nat) (delta : TraceGraphDelta)
    (maxBytes : Nat) : Except GraphDeltaError TraceGraphDelta :=
  if graphJsonBytes delta ≤ maxBytes then .ok delta
  else if maxBytes < graphJsonBytes delta.withoutDetails then .error .tooLarge
  else .ok delta.withoutDetails

/-- The values of a delta between two pages. -/
def replacement (previous current : TraceGraphPage) : TraceGraphDelta where
  asOfSeq := current.asOfSeq
  nextCursor := current.nextCursor
  turnUpserts := upserts TraceGraphTurn.id (fun left right => left = right)
    previous.turns current.turns
  turnRemoves := removes TraceGraphTurn.id previous.turns current.turns
  nodeUpserts := upserts TraceGraphNode.id TraceGraphNode.same previous.nodes current.nodes
  nodeRemoves := removes TraceGraphNode.id previous.nodes current.nodes
  orderedNodeIds := current.orderedNodeIds
  matchedNodeIds := current.matchedNodeIds
  completeness := current.completeness

/-- Return the bounded canonical replacement delta between two pages. -/
def graphDelta (graphJsonBytes : TraceGraphDelta → Nat) (previous current : TraceGraphPage)
    (maxBytes : Nat) : Except GraphDeltaError TraceGraphDelta := do
  (replacement previous current).referencesFollowAuthoritativeOrder.mapError .invalid
  boundGraphDelta graphJsonBytes (replacement previous current) maxBytes

/-! ## What a delta is for -/

/-- Drop what is removed, replace or add what is upserted, and reorder. -/
def applyDelta (previous : TraceGraphPage) (delta : TraceGraphDelta) : Option TraceGraphPage := do
  let turns := patched TraceGraphTurn.id (table TraceGraphTurn.id previous.turns)
    delta.turnUpserts delta.turnRemoves
  let nodes := patched TraceGraphNode.id (table TraceGraphNode.id previous.nodes)
    delta.nodeUpserts delta.nodeRemoves
  let ordered ← delta.orderedNodeIds.mapM nodes.get?
  some {
    turns := sortedTurns (turns.entries.map Prod.snd)
    nodes := ordered
    orderedNodeIds := delta.orderedNodeIds
    matchedNodeIds := delta.matchedNodeIds
    asOfSeq := delta.asOfSeq
    completeness := delta.completeness
    nextCursor := delta.nextCursor }

/-- A page whose fields and references have been validated. -/
structure TraceGraph.Valid (graph : TraceGraph) : Prop where
  nodeIds : ∀ node ∈ graph.nodes, CanonicalId node.id
  turnIds : ∀ turn ∈ graph.turns, CanonicalId turn.id
  sequence : 1 ≤ graph.asOfSeq
  references : graph.referencesAreExact = .ok ()

/-- The lists of a delta are not longer than its validators accept. -/
structure TraceGraphDelta.WithinCaps (delta : TraceGraphDelta) : Prop where
  ordered : delta.orderedNodeIds.length ≤ maxOrderedIds
  matched : delta.matchedNodeIds.length ≤ maxMatchedIds
  nodes : delta.nodeRemoves.length ≤ maxOrderedIds
  turns : delta.turnRemoves.length ≤ maxOrderedIds

/-- A page shows the turns, nodes, order, matches and cursor of another one, where a node counts as
shown by a relation. -/
structure Shows (relation : TraceGraphNode → TraceGraphNode → Prop)
    (current shown : TraceGraphPage) : Prop where
  turns : shown.turns = current.turns
  nodes : List.Forall₂ relation current.nodes shown.nodes
  ordered : shown.orderedNodeIds = current.orderedNodeIds
  matched : shown.matchedNodeIds = current.matchedNodeIds
  sequence : shown.asOfSeq = current.asOfSeq
  cursor : shown.nextCursor = current.nextCursor

/-! ## Validation -/

section Validation

variable {wrong : Prop} [Decidable wrong] {message : String} {graph : TraceGraph}
  {previous current : TraceGraphPage}

theorem rejectIf_eq_ok : rejectIf wrong message = .ok () ↔ ¬wrong := by
  unfold rejectIf
  split <;> simp_all

theorem rejectIf_bind_eq_ok {rest : Except GraphOrderError Unit} :
    (rejectIf wrong message >>= fun _ => rest) = .ok () ↔ ¬wrong ∧ rest = .ok () := by
  unfold rejectIf
  split
  · next bad => simp [bind, Except.bind, bad]
  · next good => simp [bind, Except.bind, good]

/-- What the references of a valid graph are like. -/
structure TraceGraph.Referenced (graph : TraceGraph) : Prop where
  nodes : (graph.nodes.map TraceGraphNode.id).Nodup
  ordered : graph.orderedNodeIds = graph.nodes.map TraceGraphNode.id
  sequences : ∀ node ∈ graph.nodes, node.updatedSeq ≤ graph.asOfSeq
  matchedDistinct : graph.matchedNodeIds.Nodup
  matchedOrdered : ∀ id ∈ graph.matchedNodeIds, id ∈ graph.orderedNodeIds
  matchedSorted : graph.matchedNodeIds =
    graph.orderedNodeIds.filter (· ∈ graph.matchedNodeIds)
  turns : (graph.turns.map TraceGraphTurn.id).Nodup
  turnsSorted : graph.turns = sortedTurns graph.turns

theorem TraceGraph.Valid.referenced (valid : graph.Valid) : graph.Referenced := by
  have checked := valid.references
  unfold TraceGraph.referencesAreExact at checked
  simp only [rejectIf_bind_eq_ok, not_not] at checked
  obtain ⟨size, -, -, ordered, sequences, distinct, known, matched, turns, -, sorted, -⟩ := checked
  have nodes := KeyedDelta.distinct_of_size size
  push Not at sequences
  rw [KeyedDelta.keys_table nodes] at ordered
  exact ⟨nodes, ordered, sequences, distinct, known, matched, turns, sorted⟩

/-- The delta between valid pages passes its validators exactly if its lists are short enough. -/
theorem replacement_valid_iff (before : previous.Valid) (after : current.Valid) :
    (replacement previous current).referencesFollowAuthoritativeOrder = .ok () ↔
      (replacement previous current).WithinCaps := by
  obtain ⟨was, -, -, -, -, -, turnsWere, -⟩ := before.referenced
  obtain ⟨nodes, ordered, sequences, distinct, known, matched, turns, -⟩ := after.referenced
  have upserted : (upserts TraceGraphNode.id TraceGraphNode.same previous.nodes
      current.nodes).Sublist current.nodes := KeyedDelta.upserts_sublist nodes
  have orderedIds : ∀ id ∈ current.orderedNodeIds, CanonicalId id := by
    rw [ordered]
    exact List.forall_mem_map.mpr after.nodeIds
  have nodeRemoves : ∀ id ∈ removes TraceGraphNode.id previous.nodes current.nodes,
      CanonicalId id := fun id gone =>
    List.forall_mem_map.mpr before.nodeIds id ((KeyedDelta.removes_sublist was).subset gone)
  have turnRemoves : ∀ id ∈ removes TraceGraphTurn.id previous.turns current.turns,
      CanonicalId id := fun id gone =>
    List.forall_mem_map.mpr before.turnIds id ((KeyedDelta.removes_sublist turnsWere).subset gone)
  unfold TraceGraphDelta.referencesFollowAuthoritativeOrder
  simp only [rejectIds, rejectIf_bind_eq_ok, rejectIf_eq_ok]
  simp only [replacement]
  push Not
  constructor
  · rintro ⟨-, ⟨ordered, -⟩, ⟨matched, -⟩, ⟨nodes, -⟩, ⟨turns, -⟩, -⟩
    exact ⟨ordered, matched, nodes, turns⟩
  · rintro ⟨orderedCap, matchedCap, nodesCap, turnsCap⟩
    refine ⟨after.sequence, ⟨orderedCap, orderedIds⟩,
      ⟨matchedCap, fun id inside => orderedIds id (known id inside)⟩, ⟨nodesCap, nodeRemoves⟩,
      ⟨turnsCap, turnRemoves⟩, ordered ▸ nodes, distinct, known, matched,
      turns.sublist ((KeyedDelta.upserts_sublist turns).map _), ?_, ?_,
      nodes.sublist (upserted.map _), ?_, ?_, ?_, ?_⟩
    · exact turnsWere.sublist (KeyedDelta.removes_sublist turnsWere)
    · intro id inside gone
      exact ((KeyedDelta.mem_removes turnsWere turns).mp gone).2
        (((KeyedDelta.upserts_sublist turns).map _).subset inside)
    · exact was.sublist (KeyedDelta.removes_sublist was)
    · intro id inside gone
      exact ((KeyedDelta.mem_removes was nodes).mp gone).2 ((upserted.map _).subset inside)
    · intro id inside
      rw [ordered]
      exact (upserted.map _).subset inside
    · exact fun node inside => sequences node (upserted.subset inside)

end Validation

/-! ## Round trip -/

section RoundTrip

variable {previous current : TraceGraphPage} {delta : TraceGraphDelta}

@[simp] theorem omitGraphNodeDetails_id (node : TraceGraphNode) :
    (omitGraphNodeDetails node).id = node.id := rfl

@[simp] theorem omitGraphNodeDetails_updatedSeq (node : TraceGraphNode) :
    (omitGraphNodeDetails node).updatedSeq = node.updatedSeq := rfl

theorem withoutDetails_valid (valid : delta.referencesFollowAuthoritativeOrder = .ok ()) :
    delta.withoutDetails.referencesFollowAuthoritativeOrder = .ok () := by
  have ids : (delta.nodeUpserts.map omitGraphNodeDetails).map TraceGraphNode.id =
      delta.nodeUpserts.map TraceGraphNode.id := by
    rw [List.map_map]
    rfl
  have sequences : (∃ node ∈ delta.nodeUpserts.map omitGraphNodeDetails,
      delta.asOfSeq < node.updatedSeq) ↔
      ∃ node ∈ delta.nodeUpserts, delta.asOfSeq < node.updatedSeq := by
    simp
  unfold TraceGraphDelta.referencesFollowAuthoritativeOrder at valid ⊢
  simp only [rejectIds, rejectIf_bind_eq_ok, rejectIf_eq_ok] at valid ⊢
  simp only [TraceGraphDelta.withoutDetails, ids, sequences]
  exact valid

/-- Applied to the old page, the delta shows every node of the new one, as it was sent or as the old
page had it. -/
theorem applyDelta_replacement (before : previous.Valid) (after : current.Valid)
    {rewrite : TraceGraphNode → TraceGraphNode} (kept : ∀ node, (rewrite node).id = node.id)
    (completeness : TraceGraphCompleteness) :
    ∃ shown, applyDelta previous { replacement previous current with
        nodeUpserts := (replacement previous current).nodeUpserts.map rewrite
        completeness := completeness } = some shown ∧
      Shows (fun node shown => shown = rewrite node ∨ shown.same node) current shown ∧
      shown.completeness = completeness := by
  have was := before.referenced
  have now := after.referenced
  have found : ∀ node ∈ current.nodes, ∃ shown,
      (patched TraceGraphNode.id (table TraceGraphNode.id previous.nodes)
        ((replacement previous current).nodeUpserts.map rewrite)
        (replacement previous current).nodeRemoves).get? node.id = some shown ∧
      (shown = rewrite node ∨ shown.same node) := by
    intro node member
    obtain ⟨shown, stored, sent⟩ :=
      KeyedDelta.get?_patched TraceGraphNode.same rewrite kept was.nodes now.nodes member
    exact ⟨shown, stored, sent.imp id And.right⟩
  obtain ⟨nodes, looked, shown⟩ := KeyedDelta.mapM_get? found
  have turns : sortedTurns ((patched TraceGraphTurn.id (table TraceGraphTurn.id previous.turns)
      (replacement previous current).turnUpserts
      (replacement previous current).turnRemoves).entries.map Prod.snd) = current.turns := by
    have perm := KeyedDelta.patched_perm was.turns now.turns
    have sorted := sortedTurns_eq_of_perm now.turns perm.symm
    exact sorted.symm.trans now.turnsSorted.symm
  have applied : applyDelta previous { replacement previous current with
      nodeUpserts := (replacement previous current).nodeUpserts.map rewrite
      completeness := completeness } = some
        { current with
          nodes := nodes
          completeness := completeness } := by
    have ordered : (replacement previous current).orderedNodeIds =
        current.nodes.map TraceGraphNode.id := now.ordered
    simp only [applyDelta, ordered, looked, turns]
    simp [replacement, now.ordered]
  exact ⟨_, applied, ⟨rfl, shown, rfl, rfl, rfl, rfl⟩, rfl⟩

end RoundTrip

/-! ## Equal details -/

/-- A page with one tool call that was requested with a value. -/
def requestPage (request : Json) : TraceGraphPage where
  turns := [⟨"turn", 1, 0⟩]
  nodes := [{ bareNode "tool" none .tool with request := request }]
  orderedNodeIds := ["tool"]
  matchedNodeIds := ["tool"]
  asOfSeq := 1
  completeness := ⟨false, false, false⟩
  nextCursor := none

theorem requestPage_valid (request : Json) : (requestPage request).Valid where
  nodeIds := List.forall_mem_singleton.mpr (show CanonicalId "tool" by decide)
  turnIds := List.forall_mem_singleton.mpr (show CanonicalId "turn" by decide)
  sequence := Int.le_refl 1
  references := by rfl

end Tinkerfin.Tracing
