import Mathlib.Data.List.Induction
import Tinkerfin.Tracing.CoreProjection

/-!
# Run heads and the leaves of the lineage

The parents of Runs form a forest and the heads are its leaves as long as no Run starts or continues
after another Run named it as its parent.  Such a late fact makes the parent a head again.
-/

namespace Tinkerfin.Tracing

open Forest (Acyclic Ancestor Childless)
open Messaging (bind_eq_ok)

/-! ## What an event does to the lineage -/

/-- The parent of a Run, where it has one. -/
def CoreProjectionState.parentOf (state : CoreProjectionState) (runId : String) : Option String :=
  (state.runs.get? runId).bind (·.parentRunId)

/-- The fact of an event that starts or continues its Run. -/
def TraceEvent.lifecycle? (event : TraceEvent) : Option RunFact :=
  match event.fact with
  | .run fact => if fact.phase.isLifecycle then some fact else none
  | _ => none

def TraceEvent.runId (event : TraceEvent) : String := event.fact.identity.runId

/-- What an event that starts or continues its Run leaves of the lineage. -/
structure Bound (state next : CoreProjectionState) (runId : String) (fact : RunFact)
    (parent : Option String) : Prop where
  heads : next.heads = insertRun runId (state.heads.filter fun head => parent ≠ some head)
  explicit : fact.parentRunId.isSome → parent = fact.parentRunId
  fixed : parent = state.parentOf runId ∨
    state.parentOf runId = none ∧ (parent = some runId → fact.parentRunId = some runId)

section Event

variable {state next : CoreProjectionState} {event : TraceEvent}

@[simp] theorem assignTurn_runs (info : CoreRunCheckpoint) (turnId : String) (traceSeq : Int)
    (userMessageId : Option String) :
    (assignTurn state info turnId traceSeq userMessageId).2.runs = state.runs := rfl

theorem advanceOutcome_lineage (info : CoreRunCheckpoint) :
    (advanceOutcome state event info).1.parentRunId = info.parentRunId ∧
      (advanceOutcome state event info).2.runs = state.runs ∧
      (advanceOutcome state event info).2.heads = state.heads := by
  unfold advanceOutcome
  split
  · exact ⟨rfl, rfl, rfl⟩
  · exact ⟨rfl, rfl, rfl⟩
  · exact ⟨rfl, rfl, rfl⟩
  · split <;> exact ⟨rfl, rfl, rfl⟩
  · exact ⟨rfl, rfl, rfl⟩
  · exact ⟨rfl, rfl, rfl⟩

theorem advanceViews_parent {info viewed : CoreRunCheckpoint}
    (advanced : advanceViews event info = .ok viewed) :
    viewed.parentRunId = info.parentRunId := by
  simp only [advanceViews, bind_eq_ok, pure, Except.pure, Except.ok.injEq] at advanced
  obtain ⟨reasoning, -, rfl⟩ := advanced
  rfl

theorem bindParent_parent {runs : Dict String CoreRunCheckpoint} {info bound : CoreRunCheckpoint}
    {parentRunId : Option String} (accepted : bindParent runs info parentRunId = .ok bound) :
    bound.parentRunId = (parentRunId <|> info.parentRunId) ∧
      (parentRunId.isSome → info.parentRunId.isSome → parentRunId = info.parentRunId) := by
  simp only [bindParent, bind_eq_ok, reject_eq_ok] at accepted
  obtain ⟨-, -, -, agrees, accepted⟩ := accepted
  refine ⟨?_, fun given stored => ?_⟩
  · split at accepted
    · next same =>
        obtain rfl := Except.ok.inj accepted
        cases parentRunId with
        | none => rfl
        | some parent => simpa using same
    · next binds =>
        obtain rfl := Except.ok.inj accepted
        cases parentRunId with
        | none => simp at binds
        | some parent => rfl
  · by_contra different
    exact agrees ⟨given, stored, different⟩

/-- An inferred parent is another Run. -/
theorem inferredParent_self {fact : RunFact} {info : Option CoreRunCheckpoint}
    (self : inferredParent state fact info = some fact.identity.runId) :
    fact.parentRunId = some fact.identity.runId := by
  unfold inferredParent at self
  cases explicit : fact.parentRunId with
  | some parent => simpa [explicit] using self
  | none =>
    simp only [explicit] at self
    split at self
    · cases self
    · split at self
      · next candidate only =>
          have member : candidate ∈ state.heads.filter (· ≠ fact.identity.runId) :=
            only ▸ List.mem_singleton_self candidate
          split at self
          · obtain rfl := Option.some.inj self
            simp at member
          · cases self
      · cases self

theorem inferredParent_explicit {fact : RunFact} (info : Option CoreRunCheckpoint)
    (explicit : fact.parentRunId.isSome) : inferredParent state fact info = fact.parentRunId := by
  obtain ⟨parent, given⟩ := Option.isSome_iff_exists.mp explicit
  simp [inferredParent, given]

/-- A Run keeps the parent that it has and otherwise gets the explicit or inferred one. -/
theorem boundRun_parent {fact : RunFact} {info : Option CoreRunCheckpoint}
    {bound : CoreRunCheckpoint} (accepted : boundRun state event fact info = .ok bound) :
    bound.parentRunId = (inferredParent state fact info <|> info.bind (·.parentRunId)) ∧
      ((inferredParent state fact info).isSome → (info.bind (·.parentRunId)).isSome →
        inferredParent state fact info = info.bind (·.parentRunId)) := by
  unfold boundRun at accepted
  dsimp only at accepted
  split at accepted
  · next unbound =>
      obtain ⟨parent, -⟩ := bindParent_parent accepted
      cases inferred : inferredParent state fact info with
      | some named => simp [inferred] at unbound
      | none =>
        rw [parent, inferred]
        cases info with
        | none => simp [inheritedRun]
        | some info => simp
  · cases info with
    | none =>
      obtain rfl := Except.ok.inj accepted
      simp [inheritedRun]
    | some info => exact bindParent_parent accepted

theorem continuedTurn_lineage (fact : RunFact) (info : CoreRunCheckpoint) :
    (continuedTurn state event fact info).1.parentRunId = info.parentRunId ∧
      (continuedTurn state event fact info).2.runs = state.runs ∧
      (continuedTurn state event fact info).2.heads = state.heads := by
  unfold continuedTurn
  split
  · split
    · exact ⟨rfl, rfl, rfl⟩
    · split <;> exact ⟨rfl, rfl, rfl⟩
  · exact ⟨rfl, rfl, rfl⟩

/-- A lifecycle fact binds its Run and makes it a head. -/
theorem advanceLifecycle_bound {fact : RunFact} {info : CoreRunCheckpoint}
    (accepted : advanceLifecycle state event fact (state.runs.get? fact.identity.runId) =
      .ok (info, next)) :
    next.runs = state.runs ∧ Bound state next fact.identity.runId fact info.parentRunId := by
  simp only [advanceLifecycle, bind_eq_ok, reject_eq_ok, pure, Except.pure, Except.ok.injEq,
    Prod.mk.injEq] at accepted
  obtain ⟨bound, accepted, -, -, rfl, rfl⟩ := accepted
  obtain ⟨parent, agrees⟩ := boundRun_parent accepted
  set started : CoreRunCheckpoint :=
    { bound with
      inputKind := fact.inputKind <|> bound.inputKind
      lineageBound := bound.lineageBound || decide (fact.phase = .started)
      lastSeq := event.traceSeq } with isStarted
  obtain ⟨kept, runs, heads⟩ := @continuedTurn_lineage state event fact started
  have kept : (continuedTurn state event fact started).1.parentRunId = bound.parentRunId := kept
  refine ⟨runs, ?_, ?_, ?_⟩
  · simp only [heads]
  · intro explicit
    rw [kept, parent, inferredParent_explicit _ explicit]
    obtain ⟨named, given⟩ := Option.isSome_iff_exists.mp explicit
    simp [given]
  · rw [kept, parent]
    unfold CoreProjectionState.parentOf
    cases stored : (state.runs.get? fact.identity.runId).bind (·.parentRunId) with
    | none => exact .inr ⟨rfl, fun self => inferredParent_self (by simpa using self)⟩
    | some above =>
      left
      cases inferred : inferredParent state fact (state.runs.get? fact.identity.runId) with
      | none => rfl
      | some named =>
        rw [inferred, stored] at agrees
        simpa using agrees rfl rfl

/-- The Run of an event keeps the parent that the lineage part of the event gave it. -/
theorem advanceEvent_eq_ok (advanced : advanceEvent state event = .ok next) :
    ∃ current info middle,
      current.runs = state.runs ∧ current.heads = state.heads ∧
      advanceLineage current event (state.runs.get? event.runId) = .ok (info, middle) ∧
      next.heads = middle.heads ∧
      ∃ last, next.runs = middle.runs.insert event.runId last ∧
        last.parentRunId = info.parentRunId := by
  simp only [advanceEvent, bind_eq_ok, reject_eq_ok, pure, Except.pure, Except.ok.injEq,
    Prod.exists] at advanced
  obtain ⟨-, -, -, -, info, middle, lineage, viewed, views, rfl⟩ := advanced
  obtain ⟨parent, runs, heads⟩ := @advanceOutcome_lineage middle event info
  have kept := (advanceViews_parent views).trans parent
  refine ⟨{ state with
    generation := state.generation <|> some event.generation
    asOfSeq := event.traceSeq }, info, middle, rfl, rfl, lineage, ?_⟩
  cases viewed.turnId with
  | none => exact ⟨heads, viewed, by simp only [runs, TraceEvent.runId], kept⟩
  | some turnId =>
    refine ⟨heads, (assignTurn (advanceOutcome middle event info).2 viewed turnId event.traceSeq
      none).1, ?_, kept⟩
    simp only [assignTurn_runs, runs, TraceEvent.runId]

/-- An event that does not start or continue its Run leaves the lineage alone. -/
theorem advanceEvent_other (other : event.lifecycle? = none)
    (advanced : advanceEvent state event = .ok next) :
    next.heads = state.heads ∧ ∃ info, next.runs = state.runs.insert event.runId info ∧
      info.parentRunId = state.parentOf event.runId := by
  obtain ⟨current, info, middle, runs, heads, lineage, nextHeads, last, nextRuns, kept⟩ :=
    advanceEvent_eq_ok advanced
  have unchanged : middle = current ∧ info.parentRunId = state.parentOf event.runId := by
    have parent : ((state.runs.get? event.runId).elim
        (inheritedRun current.runs event.fact.identity.runId event.fact.occurredAt event.traceSeq
          none) fun info => { info with lastSeq := event.traceSeq }).parentRunId =
        state.parentOf event.runId := by
      unfold CoreProjectionState.parentOf
      cases state.runs.get? event.runId with
      | none => rfl
      | some info => rfl
    unfold advanceLineage at lineage
    dsimp only at lineage
    unfold TraceEvent.lifecycle? at other
    split at lineage
    · next fact isRun =>
        simp only [isRun] at other
        split at lineage
        · next starts => simp [starts] at other
        · obtain ⟨rfl, rfl⟩ := Prod.mk.inj (Except.ok.inj lineage)
          exact ⟨rfl, parent⟩
    · obtain ⟨rfl, rfl⟩ := Prod.mk.inj (Except.ok.inj lineage)
      exact ⟨rfl, parent⟩
  obtain ⟨rfl, parent⟩ := unchanged
  exact ⟨nextHeads.trans heads, last, runs ▸ nextRuns, kept.trans parent⟩

/-- An event that starts or continues its Run binds it. -/
theorem advanceEvent_lifecycle {fact : RunFact} (lifecycle : event.lifecycle? = some fact)
    (advanced : advanceEvent state event = .ok next) :
    ∃ info, next.runs = state.runs.insert event.runId info ∧
      Bound state next event.runId fact info.parentRunId := by
  obtain ⟨current, info, middle, runs, heads, lineage, nextHeads, last, nextRuns, kept⟩ :=
    advanceEvent_eq_ok advanced
  unfold TraceEvent.lifecycle? at lifecycle
  unfold advanceLineage at lineage
  dsimp only at lineage
  split at lineage
  · next started isRun =>
      simp only [isRun] at lifecycle
      split at lineage
      · next starts =>
          obtain rfl : started = fact := by simpa [starts] using lifecycle
          have sameRun : event.runId = started.identity.runId := by
            simp [TraceEvent.runId, isRun, TraceSemanticFact.identity, TraceSemanticFact.base]
          rw [sameRun, ← runs] at lineage
          obtain ⟨middleRuns, bound⟩ := advanceLifecycle_bound lineage
          refine ⟨last, by rw [nextRuns, middleRuns, runs], ?_⟩
          have sameParent : current.parentOf = state.parentOf := by
            funext runId
            simp only [CoreProjectionState.parentOf, runs]
          rw [sameRun, kept]
          exact ⟨nextHeads.trans (heads ▸ bound.heads), bound.explicit, sameParent ▸ bound.fixed⟩
      · next starts => simp [starts] at lifecycle
  · next notRun =>
      split at lifecycle
      · next fact isRun => exact absurd isRun (notRun fact)
      · cases lifecycle

end Event

/-! ## Heads and leaves -/

/-- The Runs that a sequence of events starts or continues. -/
def lifecycleRuns (events : List TraceEvent) : List String :=
  (events.filter (·.lifecycle?.isSome)).map (·.runId)

/-- A Run with a lifecycle fact that is not the parent of another Run. -/
def IsLeaf (events : List TraceEvent) (state : CoreProjectionState) (runId : String) : Prop :=
  runId ∈ lifecycleRuns events ∧ Childless state.parentOf runId

/-- The parents form a forest, the heads are its leaves, and a Run below which there is one leaf
selects this leaf. -/
structure LeafHeads (events : List TraceEvent) (state : CoreProjectionState) : Prop where
  acyclic : Acyclic state.parentOf
  heads : ∀ runId, runId ∈ state.heads ↔ IsLeaf events state runId
  selects : ∀ requested leaf, (state.runs.get? requested).isSome →
    (∀ other, IsLeaf events state other ∧ Ancestor state.parentOf other requested ↔
      other = leaf) →
    selectHead state (some requested) = .ok leaf

/-- No other Run names the Run of a lifecycle fact as its parent yet, and the Run does not name
itself. -/
def Timely (state : CoreProjectionState) (event : TraceEvent) : Prop :=
  ∀ fact, event.lifecycle? = some fact →
    Childless state.parentOf event.runId ∧ fact.parentRunId ≠ some event.runId

section Heads

variable {events : List TraceEvent} {state next : CoreProjectionState} {event : TraceEvent}

theorem mem_insertRun {runId other : String} {runs : List String} :
    other ∈ insertRun runId runs ↔ other = runId ∨ other ∈ runs := by
  simp only [insertRun, List.mem_orderedInsert, List.mem_filter, decide_eq_true_eq]
  by_cases same : other = runId <;> simp [same]

theorem nodup_insertRun {runId : String} {runs : List String} (distinct : runs.Nodup) :
    (insertRun runId runs).Nodup := by
  rw [insertRun, (List.perm_orderedInsert _ _ _).nodup_iff, List.nodup_cons]
  exact ⟨by simp, distinct.filter _⟩

theorem parentOf_insert {runId : String} {info : CoreRunCheckpoint}
    (runs : next.runs = state.runs.insert runId info) :
    next.parentOf = Function.update state.parentOf runId info.parentRunId := by
  funext other
  simp only [CoreProjectionState.parentOf, runs, Dict.get?_insert, Function.update_apply]
  split <;> rfl

theorem lifecycleRuns_append (events : List TraceEvent) (event : TraceEvent) (runId : String) :
    runId ∈ lifecycleRuns (events ++ [event]) ↔
      runId ∈ lifecycleRuns events ∨ event.lifecycle?.isSome ∧ runId = event.runId := by
  simp only [lifecycleRuns, List.filter_append, List.map_append, List.mem_append]
  cases lifecycle : event.lifecycle? with
  | none => simp [lifecycle]
  | some fact => simp [lifecycle]

/-- The heads of a state and its forest, as every timely event keeps them. -/
structure Rooted (events : List TraceEvent) (state : CoreProjectionState) : Prop where
  acyclic : Acyclic state.parentOf
  distinct : state.heads.Nodup
  heads : ∀ runId, runId ∈ state.heads ↔ IsLeaf events state runId

theorem rooted_empty : Rooted [] {} where
  acyclic := Forest.acyclic_empty
  distinct := List.nodup_nil
  heads runId := by simp [IsLeaf, lifecycleRuns]

/-- Which Runs have a child after one more Run has a parent. -/
theorem childless_update {parentOf : String → Option String} {runId other : String}
    {parent : Option String} (fixed : parent = parentOf runId ∨ parentOf runId = none) :
    Childless (Function.update parentOf runId parent) other ↔
      Childless parentOf other ∧ (other ≠ runId → parent ≠ some other) := by
  constructor
  · intro childless
    refine ⟨fun child different below => ?_, fun different below => ?_⟩
    · by_cases same : child = runId
      · subst same
        obtain rfl | absent := fixed
        · exact childless child different (by simpa using below)
        · simp [absent] at below
      · exact childless child different (by simpa [same] using below)
    · exact childless runId different.symm (by simpa using below)
  · rintro ⟨childless, free⟩ child different below
    by_cases same : child = runId
    · subst same
      exact free different.symm (by simpa using below)
    · exact childless child different (by simpa [same] using below)

/-- One timely event keeps the heads at the leaves. -/
theorem Rooted.advance (rooted : Rooted events state)
    (advanced : advanceEvent state event = .ok next) (timely : Timely state event) :
    Rooted (events ++ [event]) next := by
  cases lifecycle : event.lifecycle? with
  | none =>
    obtain ⟨heads, info, runs, parent⟩ := advanceEvent_other lifecycle advanced
    have same : next.parentOf = state.parentOf := by
      rw [parentOf_insert runs, parent, Function.update_eq_self]
    refine ⟨same ▸ rooted.acyclic, heads ▸ rooted.distinct, fun runId => ?_⟩
    rw [heads, rooted.heads]
    unfold IsLeaf
    rw [same, lifecycleRuns_append]
    simp [lifecycle]
  | some fact =>
    obtain ⟨info, runs, bound⟩ := advanceEvent_lifecycle lifecycle advanced
    obtain ⟨childless, foreign⟩ := timely fact lifecycle
    have fixed := bound.fixed.imp_right And.left
    have parents := parentOf_insert runs
    constructor
    · rw [parents]
      obtain same | ⟨-, self⟩ := bound.fixed
      · rw [same, Function.update_eq_self]
        exact rooted.acyclic
      · cases parent : info.parentRunId with
        | none =>
          have absent : state.parentOf event.runId = none := by
            obtain same | ⟨absent, -⟩ := bound.fixed
            · exact same ▸ parent
            · exact absent
          rw [← absent, Function.update_eq_self]
          exact rooted.acyclic
        | some above =>
          refine rooted.acyclic.update childless ?_
          rintro rfl
          exact foreign (self parent)
    · rw [bound.heads]
      exact nodup_insertRun (rooted.distinct.filter _)
    · intro runId
      rw [bound.heads, mem_insertRun, List.mem_filter, rooted.heads]
      unfold IsLeaf
      rw [lifecycleRuns_append, parents, childless_update fixed]
      by_cases same : runId = event.runId
      · subst same
        simp [lifecycle, childless]
      · simp [lifecycle, same, and_assoc]

/-- Where the heads are the leaves of a forest after an event, the event was timely. -/
theorem timely_of_leafHeads (advanced : advanceEvent state event = .ok next)
    (leaves : LeafHeads (events ++ [event]) next) : Timely state event := by
  intro fact lifecycle
  obtain ⟨info, runs, bound⟩ := advanceEvent_lifecycle lifecycle advanced
  have parents := parentOf_insert runs
  constructor
  · have head : event.runId ∈ next.heads := by
      rw [bound.heads, mem_insertRun]
      exact .inl rfl
    have childless := ((leaves.heads _).mp head).2
    rw [parents, childless_update (bound.fixed.imp_right And.left)] at childless
    exact childless.1
  · intro self
    have loop : next.parentOf event.runId = some event.runId := by
      rw [parents, Function.update_self, bound.explicit (by simp [self]), self]
    exact leaves.acyclic.ne_self loop

/-! ## Selection -/

theorem filterAuxM_ok {α ε : Type} {f : α → Except ε Bool} {keep : α → Bool} {items : List α}
    (each : ∀ item ∈ items, f item = .ok (keep item)) (kept : List α) :
    items.filterAuxM f kept = .ok ((items.filter keep).reverse ++ kept) := by
  induction items generalizing kept with
  | nil => rfl
  | cons item items ih =>
    have rest := ih fun other member => each other (.tail _ member)
    rw [List.filterAuxM, each item List.mem_cons_self]
    cases keeps : keep item with
    | false => exact (rest kept).trans (by simp [keeps])
    | true => exact (rest (item :: kept)).trans (by simp [keeps])

theorem filterM_ok {α ε : Type} {f : α → Except ε Bool} {keep : α → Bool} {items : List α}
    (each : ∀ item ∈ items, f item = .ok (keep item)) :
    items.filterM f = .ok (items.filter keep) := by
  rw [List.filterM, filterAuxM_ok each]
  simp [bind, Except.bind, pure, Except.pure]

theorem parentOf_runInfos (state : CoreProjectionState) :
    (fun runId => (state.runInfos.get? runId).bind (·.parentRunId)) = state.parentOf := by
  funext runId
  simp only [CoreProjectionState.runInfos, Dict.get?_mapValues, CoreProjectionState.parentOf]
  cases state.runs.get? runId <;> rfl

/-- In a forest the lineage of a Run is found and holds its ancestors. -/
theorem ancestorLineage_ok (acyclic : Acyclic state.parentOf) (head : String) :
    ∃ lineage, ancestorLineage state.runInfos head = .ok lineage ∧
      ∀ runId, runId ∈ lineage ↔ Ancestor state.parentOf head runId := by
  have inner : ∀ runId, (state.parentOf runId).isSome → runId ∈ state.runs.keys := by
    intro runId hasParent
    rw [Dict.mem_keys_iff]
    unfold CoreProjectionState.parentOf at hasParent
    cases stored : state.runs.get? runId with
    | none => simp [stored] at hasParent
    | some info => rfl
  obtain ⟨lineage, climbed, members⟩ := Forest.climb_acyclic acyclic inner head
  have size : state.runs.keys.length = state.runInfos.size := by
    rw [CoreProjectionState.runInfos, Dict.size_mapValues, Dict.keys, List.length_map, Dict.size]
  rw [size] at climbed
  refine ⟨lineage, ?_, members⟩
  rw [ancestorLineage, parentOf_runInfos, climbed]

/-- A Run below which there is one leaf selects this leaf. -/
theorem Rooted.selects (rooted : Rooted events state) {requested leaf : String}
    (stored : (state.runs.get? requested).isSome)
    (only : ∀ other, IsLeaf events state other ∧ Ancestor state.parentOf other requested ↔
      other = leaf) : selectHead state (some requested) = .ok leaf := by
  have isHead : leaf ∈ state.heads := (rooted.heads leaf).mpr ((only leaf).mpr rfl).1
  have resolved : resolveRequestedHead state.runInfos state.heads requested = .ok leaf := by
    unfold resolveRequestedHead
    split
    · next member =>
        have self := (only requested).mp ⟨(rooted.heads requested).mp member, .refl⟩
        rw [self]
    · have known : (state.runInfos.get? requested).isNone = false := by
        obtain ⟨info, found⟩ := Option.isSome_iff_exists.mp stored
        simp [CoreProjectionState.runInfos, Dict.get?_mapValues, found]
      let keep (head : String) : Bool :=
        match ancestorLineage state.runInfos head with
        | .ok lineage => decide (requested ∈ lineage)
        | .error _ => false
      have each : ∀ head ∈ state.heads,
          ((ancestorLineage state.runInfos head).map fun lineage =>
            decide (requested ∈ lineage)) = .ok (keep head) := by
        intro head _
        obtain ⟨lineage, found, -⟩ := ancestorLineage_ok rooted.acyclic head
        simp only [keep, found, Except.map]
      have descendants : state.heads.filter keep = [leaf] := by
        refine List.perm_singleton.mp ((List.perm_ext_iff_of_nodup (rooted.distinct.filter _)
          (List.nodup_singleton leaf)).mpr fun other => ?_)
        obtain ⟨lineage, found, members⟩ := ancestorLineage_ok rooted.acyclic other
        rw [List.mem_filter, List.mem_singleton, ← only, rooted.heads]
        simp [keep, found, members]
      simp [known, filterM_ok each, descendants, reject, bind, Except.bind]
  cases heads : state.heads with
  | nil => simp [heads] at isHead
  | cons head rest =>
    rw [heads] at resolved
    cases rest <;> simpa [selectHead, heads] using resolved

theorem Rooted.leafHeads (rooted : Rooted events state) : LeafHeads events state :=
  ⟨rooted.acyclic, rooted.heads, fun _ _ => rooted.selects⟩

/-! ## Runs of events -/

/-- A sequence in which every event that starts or continues a Run is timely. -/
def TimelyEvents (events : List TraceEvent) : Prop :=
  ∀ before event after, events = before ++ event :: after →
    ∀ state, advanceCoreProjectionState {} before = .ok state → Timely state event

theorem advanceCoreProjectionState_append {before after : List TraceEvent}
    {final : CoreProjectionState} :
    advanceCoreProjectionState state (before ++ after) = .ok final ↔
      ∃ middle, advanceCoreProjectionState state before = .ok middle ∧
        advanceCoreProjectionState middle after = .ok final := by
  simp only [advanceCoreProjectionState, List.foldlM_append, bind_eq_ok]

theorem advanceCoreProjectionState_snoc {before : List TraceEvent} {final : CoreProjectionState} :
    advanceCoreProjectionState state (before ++ [event]) = .ok final ↔
      ∃ middle, advanceCoreProjectionState state before = .ok middle ∧
        advanceEvent middle event = .ok final := by
  simp only [advanceCoreProjectionState, List.foldlM_append, List.foldlM_cons, List.foldlM_nil,
    bind_eq_ok, pure, Except.pure, Except.ok.injEq, exists_eq_right]

theorem advance_rooted (timely : TimelyEvents events)
    (advanced : advanceCoreProjectionState {} events = .ok state) : Rooted events state := by
  induction events using List.reverseRecOn generalizing state with
  | nil =>
    obtain rfl := Except.ok.inj advanced
    exact rooted_empty
  | append_singleton before event ih =>
    obtain ⟨middle, first, last⟩ := advanceCoreProjectionState_snoc.mp advanced
    have rooted := ih (fun earlier other after split middle found =>
      timely earlier other (after ++ [event]) (by simp [split]) middle found) first
    exact rooted.advance last (timely before event [] rfl middle first)

end Heads

/-- Along an accepted sequence the heads are the leaves of a forest after every event if and only if
every event that starts or continues a Run is timely. -/
theorem leafHeads_iff_timely {events : List TraceEvent} {final : CoreProjectionState}
    (advanced : advanceCoreProjectionState {} events = .ok final) :
    (∀ before after state, events = before ++ after →
      advanceCoreProjectionState {} before = .ok state → LeafHeads before state) ↔
    TimelyEvents events := by
  constructor
  · intro leaves before event after split state found
    have whole : events = (before ++ [event]) ++ after := by simp [split]
    rw [whole] at advanced
    obtain ⟨next, reached, -⟩ := advanceCoreProjectionState_append.mp advanced
    obtain ⟨middle, first, last⟩ := advanceCoreProjectionState_snoc.mp reached
    obtain rfl := Except.ok.inj (first.symm.trans found)
    exact timely_of_leafHeads last (leaves (before ++ [event]) after next whole reached)
  · intro timely before after state split found
    refine (advance_rooted (fun earlier event later inner => ?_) found).leafHeads
    exact timely earlier event (later ++ after) (by simp [split, inner])

/-! ## A late fact -/

theorem exists_of_isOk {α ε : Type} {outcome : Except ε α} (isOk : outcome.isOk = true) :
    ∃ value, outcome = .ok value := by
  cases outcome with
  | error error => cases isOk
  | ok value => exact ⟨value, rfl⟩

/-- The event of a Run fact in one thread. -/
def runEvent (traceSeq : Int) (runId : String) (phase : RunPhase) (inputKind : RunInputKind)
    (parentRunId : Option String) : TraceEvent where
  eventId := "event"
  traceSeq := traceSeq
  generation := "generation"
  fact := .run
    { occurredAt := 0
      identity := { «namespace» := "traces", threadId := "thread", runId }
      phase
      inputKind := some inputKind
      parentRunId
      input := some (.inline 2 (.object []))
      config := some (.inline 2 (.object [])) }
  persistedBytes := 1

/-- A parent, a branch of it, and the input of the parent after that. -/
def lateInput : List TraceEvent :=
  [runEvent 1 "parent" .started .ordinary none, runEvent 2 "child" .started .branch (some "parent"),
    runEvent 3 "parent" .input .ordinary none]

/-- After late input of a parent both the parent and its child are heads. -/
theorem late_input_two_heads : ∃ state, advanceCoreProjectionState {} lateInput = .ok state ∧
    state.heads = ["child", "parent"] ∧ state.parentOf "child" = some "parent" ∧
    ¬LeafHeads lateInput state := by
  obtain ⟨state, advanced⟩ : ∃ state, advanceCoreProjectionState {} lateInput = .ok state :=
    exists_of_isOk (by decide +kernel)
  have heads : (advanceCoreProjectionState {} lateInput).map (·.heads) =
      .ok ["child", "parent"] := by
    decide +kernel
  have parent : (advanceCoreProjectionState {} lateInput).map (·.parentOf "child") =
      .ok (some "parent") := by
    decide +kernel
  simp only [advanced, Except.map, Except.ok.injEq] at heads parent
  refine ⟨state, advanced, heads, parent, fun leaves => ?_⟩
  have leaf := (leaves.heads "parent").mp (by simp [heads])
  exact leaf.2 "child" (by decide) parent

/-- A parent and then a branch of it are timely. -/
theorem leafHeads_iff_timely_branch :
    (∀ before after state, lateInput.take 2 = before ++ after →
      advanceCoreProjectionState {} before = .ok state → LeafHeads before state) ↔
    TimelyEvents (lateInput.take 2) := by
  obtain ⟨state, advanced⟩ : ∃ state,
      advanceCoreProjectionState {} (lateInput.take 2) = .ok state :=
    exists_of_isOk (by decide +kernel)
  exact leafHeads_iff_timely advanced

end Tinkerfin.Tracing
