import Mathlib.Data.List.Basic
import Mathlib.Data.List.Perm.Subperm
import Mathlib.Logic.Relation
import Mathlib.Tactic.Common

/-!
# Retained failures

Exceptions are objects of a heap and refer to each other as causes, contexts and members of groups.
A secondary failure is retained on the raised one by a note and, unless it is reachable already, by
a cause.  A failure that is retained on an exception no other object refers to is reachable from it.
-/

namespace Tinkerfin.Run

/-! ## Exceptions -/

/-- Ordinary exceptions, cancellation, and the other process-control exceptions. -/
inductive ErrorKind
  | ordinary | cancelled | control
  deriving DecidableEq, Repr

abbrev ErrorId := Nat

/-- An exception; `domainCause` is the cause of a `TinkerFinError`, and only a group has members. -/
structure ErrorObject where
  kind : ErrorKind
  typeName : String
  text : String
  notes : List String := []
  cause : Option ErrorId := none
  context : Option ErrorId := none
  domainCause : Option ErrorId := none
  members : Option (List ErrorId) := none

/-- The exceptions that are alive, by identity. -/
abbrev ErrorHeap := List ErrorObject

/-- The exceptions an object refers to, in the order in which they are pushed. -/
def ErrorObject.references (object : ErrorObject) : List ErrorId :=
  object.cause.toList ++ object.context.toList ++ object.domainCause.toList ++
    object.members.getD []

def ErrorHeap.references (heap : ErrorHeap) (error : ErrorId) : List ErrorId :=
  heap[error]?.elim [] ErrorObject.references

/-- Change one object. -/
def ErrorHeap.update (heap : ErrorHeap) (error : ErrorId) (change : ErrorObject → ErrorObject) :
    ErrorHeap :=
  heap.modify error change

/-- Identities of the heap that a traversal has not seen. -/
def ErrorHeap.unseen (heap : ErrorHeap) (seen : List ErrorId) : List ErrorId :=
  (List.range heap.length).filter fun error => error ∉ seen

theorem ErrorHeap.length_unseen_lt (heap : ErrorHeap) {seen : List ErrorId} {error : ErrorId}
    (inside : error < heap.length) (fresh : error ∉ seen) :
    (heap.unseen (error :: seen)).length < (heap.unseen seen).length := by
  have member : error ∈ heap.unseen seen := by simp [unseen, inside, fresh]
  have nodup : (heap.unseen (error :: seen)).Nodup := List.nodup_range.filter _
  have missing : error ∉ heap.unseen (error :: seen) := by simp [unseen]
  have within : error :: heap.unseen (error :: seen) ⊆ heap.unseen seen := by
    intro other stored
    rcases List.mem_cons.mp stored with rfl | stored
    · exact member
    · simp only [unseen, List.mem_filter, List.mem_cons, not_or, decide_eq_true_eq] at stored ⊢
      exact ⟨stored.1, stored.2.2⟩
  exact ((List.nodup_cons.mpr ⟨missing, nodup⟩).subperm within).length_le

theorem ErrorHeap.length_unseen_le (heap : ErrorHeap) (seen : List ErrorId) (error : ErrorId) :
    (heap.unseen (error :: seen)).length ≤ (heap.unseen seen).length := by
  refine List.Sublist.length_le (List.monotone_filter_right _ fun other fresh => ?_)
  simp only [List.mem_cons, not_or, decide_eq_true_eq] at fresh ⊢
  exact fresh.2

/-- Visit what is reachable from the pending exceptions, the last pushed one first. -/
def ErrorHeap.visit (heap : ErrorHeap) (seen : List ErrorId) : List ErrorId → List ErrorId
  | [] => seen
  | error :: pending =>
    if error ∈ seen then heap.visit seen pending
    else heap.visit (error :: seen) ((heap.references error).reverse ++ pending)
termination_by pending => ((heap.unseen seen).length, pending.length)
decreasing_by
  · exact Prod.Lex.right _ (Nat.lt_succ_self _)
  · next fresh =>
    by_cases inside : error < heap.length
    · exact Prod.Lex.left _ _ (heap.length_unseen_lt inside fresh)
    · have none : heap.references error = [] := by
        simp [references, List.getElem?_eq_none (Nat.le_of_not_lt inside)]
      rcases Nat.eq_or_lt_of_le (heap.length_unseen_le seen error) with same | fewer
      · rw [same, none]
        exact Prod.Lex.right _ (Nat.lt_succ_self _)
      · exact Prod.Lex.left _ _ fewer

/-- The exceptions reachable from one, itself included. -/
def ErrorHeap.exceptions (heap : ErrorHeap) (error : ErrorId) : List ErrorId :=
  heap.visit [] [error]

/-! ## Retaining a failure -/

/-- Whether an exception is a member of a group, at any depth; groups are nested finitely. -/
def ErrorHeap.groupContains (heap : ErrorHeap) (target : ErrorId) : Nat → ErrorId → Bool
  | 0, _ => false
  | depth + 1, group =>
    ((heap[group]?.bind (·.members)).getD []).any fun item =>
      item == target || heap.groupContains target depth item

/-- A group without one of its members, as a new group where it had that member. -/
def ErrorHeap.withoutMember (target : ErrorId) :
    Nat → ErrorHeap → ErrorId → Option ErrorId × ErrorHeap
  | 0, heap, error => (some error, heap)
  | depth + 1, heap, error =>
    if error = target then (none, heap)
    else
      match heap[error]? with
      | some object@{ members := some members, .. } =>
        if heap.groupContains target (depth + 1) error then
          let (kept, heap) := members.foldl (fun (kept, heap) item =>
            let (item, heap) := heap.withoutMember target depth item
            (kept ++ item.toList, heap)) ([], heap)
          if kept = [] then (none, heap)
          else (some heap.length, heap ++ [{ object with members := some kept }])
        else (some error, heap)
      | _ => (some error, heap)

/-- The heap, and what each exception is detached to. -/
structure Detaching where
  heap : ErrorHeap
  retained : List (ErrorId × Option ErrorId)

def Detaching.update (state : Detaching) (error : ErrorId) (change : ErrorObject → ErrorObject) :
    Detaching :=
  { state with heap := state.heap.update error change }

/-- Detach one link of an object. -/
def detachLink (detach : Option ErrorId → Detaching → Option ErrorId × Detaching)
    (pick : ErrorObject → Option ErrorId) (put : ErrorObject → Option ErrorId → ErrorObject)
    (error : ErrorId) (state : Detaching) : Detaching :=
  let (link, state) := detach (state.heap[error]?.bind pick) state
  state.update error fun object => put object link

/-- Remove the references back to the primary from an exception and from what it refers to.  Every
nested call retains one more exception, so the depth is bounded by their number. -/
def detach (primary : ErrorId) : Nat → Option ErrorId → Detaching → Option ErrorId × Detaching
  | _, none, state => (none, state)
  | 0, some error, state => (some error, state)
  | depth + 1, some error, state =>
    match state.retained.lookup error with
    | some result => (result, state)
    | none =>
      let (result, heap) :=
        if state.heap.groupContains primary state.heap.length error then
          state.heap.withoutMember primary state.heap.length error
        else (some error, state.heap)
      let state : Detaching := ⟨heap, (error, result) :: state.retained⟩
      match result with
      | none => (none, state)
      | some result =>
        let state := detachLink (detach primary depth) (·.cause)
          (fun object cause => { object with cause }) result state
        let state := detachLink (detach primary depth) (·.context)
          (fun object context => { object with context }) result state
        let state := detachLink (detach primary depth) (·.domainCause)
          (fun object domainCause => { object with domainCause }) result state
        let state := ((state.heap[result]?.bind (·.members)).getD []).foldl
          (fun state item => (detach primary depth (some item) state).2) state
        (some result, state)

def ErrorObject.addNote (object : ErrorObject) (note : String) : ErrorObject :=
  if note ∈ object.notes then object else { object with notes := object.notes ++ [note] }

/-- The note about a failure and the notes it has itself. -/
def failureNotes (label : String) (failure : ErrorObject) : List String :=
  s!"{label}: {failure.typeName}: {failure.text}" :: failure.notes

/-- A group of two exceptions. -/
def runFailures (first second : ErrorId) (heap : ErrorHeap) : ErrorObject :=
  let ordinary := [first, second].all fun error =>
    (heap[error]?.map (·.kind)) == some .ordinary
  { kind := if ordinary then .ordinary else .control
    typeName := if ordinary then "ExceptionGroup" else "BaseExceptionGroup"
    text := "Additional Run failures (2 sub-exceptions)"
    members := some [first, second] }

/-- Attach a failure as a cause of the primary, unless it is reachable from it already. -/
def linkFailure (heap : ErrorHeap) (primary secondary : ErrorId) : ErrorHeap :=
  if secondary ∈ heap.exceptions primary then heap
  else
    let depth := heap.length + 1
    let first := (heap[primary]?.bind (·.cause)).or (heap[primary]?.bind (·.context))
    let (original, state) := detach primary depth first ⟨heap, [(primary, none)]⟩
    let state := detachLink (detach primary depth) (·.context)
      (fun object context => { object with context }) primary state
    let (additional, state) := detach primary depth (some secondary) state
    match additional, original with
    | none, _ => state.heap
    | some additional, none =>
      state.heap.update primary fun object => { object with cause := some additional }
    | some additional, some original =>
      if additional ∈ state.heap.exceptions original then
        state.heap.update primary fun object => { object with cause := some original }
      else
        state.heap.update primary (fun object =>
          { object with cause := some state.heap.length }) ++
            [runFailures original additional state.heap]

/-- Preserve notes and original causes while leaving failure priority unchanged. -/
def retainFailure (heap : ErrorHeap) (primary secondary : ErrorId) (label : String) : ErrorHeap :=
  if primary = secondary then heap
  else
    let notes := heap[secondary]?.elim [] (failureNotes label)
    linkFailure (heap.update primary fun object => notes.foldl ErrorObject.addNote object)
      primary secondary

/-! ## Reachability -/

variable {heap : ErrorHeap} {error other primary secondary : ErrorId} {seen pending : List ErrorId}

/-- One exception refers to another one, through any number of exceptions. -/
def ErrorHeap.Reaches (heap : ErrorHeap) : ErrorId → ErrorId → Prop :=
  Relation.ReflTransGen fun error other => other ∈ heap.references error

/-- A visit keeps what was seen, takes what is pending, is closed, and finds only reachable
exceptions. -/
theorem ErrorHeap.visit_spec :
    (∀ error ∈ seen, error ∈ heap.visit seen pending) ∧
    (∀ error ∈ pending, error ∈ heap.visit seen pending) ∧
    (∀ error ∈ heap.visit seen pending, error ∉ seen →
      (∀ other ∈ heap.references error, other ∈ heap.visit seen pending) ∧
        ∃ start ∈ pending, heap.Reaches start error) := by
  induction seen, pending using ErrorHeap.visit.induct heap with
  | case1 seen =>
    rw [visit]
    exact ⟨fun _ member => member, fun _ member => (by cases member),
      fun _ member fresh => absurd member fresh⟩
  | case2 seen error pending known ih =>
    rw [visit, if_pos known]
    obtain ⟨keeps, takes, closed⟩ := ih
    refine ⟨keeps, List.forall_mem_cons.mpr ⟨keeps error known, takes⟩, fun other found fresh => ?_⟩
    obtain ⟨refers, start, member, reaches⟩ := closed other found fresh
    exact ⟨refers, start, .tail _ member, reaches⟩
  | case3 seen error pending unknown ih =>
    rw [visit, if_neg unknown]
    obtain ⟨keeps, takes, closed⟩ := ih
    obtain ⟨here, keeps⟩ := List.forall_mem_cons.mp keeps
    refine ⟨keeps, List.forall_mem_cons.mpr ⟨here, fun other member =>
      takes other (List.mem_append_right _ member)⟩, fun other found fresh => ?_⟩
    by_cases same : other = error
    · subst same
      exact ⟨fun reference refers => takes reference
        (List.mem_append_left _ (List.mem_reverse.mpr refers)), other, List.mem_cons_self, .refl⟩
    · obtain ⟨refers, start, member, reaches⟩ := closed other found (by simp [same, fresh])
      refine ⟨refers, ?_⟩
      rcases List.mem_append.mp member with reference | member
      · exact ⟨error, List.mem_cons_self, .head (List.mem_reverse.mp reference) reaches⟩
      · exact ⟨start, .tail _ member, reaches⟩

theorem ErrorHeap.mem_exceptions_iff : other ∈ heap.exceptions error ↔ heap.Reaches error other := by
  obtain ⟨-, takes, closed⟩ := @visit_spec heap [] [error]
  constructor
  · intro found
    obtain ⟨-, start, member, reaches⟩ := closed other found List.not_mem_nil
    exact (List.mem_singleton.mp member) ▸ reaches
  · intro reaches
    induction reaches with
    | refl => exact takes error List.mem_cons_self
    | tail _ refers ih => exact (closed _ ih List.not_mem_nil).1 _ refers

/-! ## Primaries that nothing refers to -/

/-- No object refers to the exception. -/
def ErrorHeap.Isolated (heap : ErrorHeap) (primary : ErrorId) : Prop :=
  ∀ error, primary ∉ heap.references error

theorem ErrorHeap.mem_references {object : ErrorObject} (stored : heap[error]? = some object)
    (refers : other ∈ object.references) : other ∈ heap.references error := by
  rw [references, stored]
  exact refers

theorem groupContains_of_isolated (isolated : heap.Isolated primary) (depth : Nat)
    (group : ErrorId) : heap.groupContains primary depth group = false := by
  induction depth generalizing group with
  | zero => rfl
  | succ depth ih =>
    rw [ErrorHeap.groupContains, List.any_eq_false]
    intro item member
    have refers : item ∈ heap.references group := by
      cases stored : heap[group]? with
      | none => simp [stored] at member
      | some object =>
        refine ErrorHeap.mem_references stored (List.mem_append_right _ ?_)
        simpa [stored] using member
    have other : item ≠ primary := fun same => isolated group (same ▸ refers)
    simp [other, ih item]

theorem ErrorHeap.update_self {change : ErrorObject → ErrorObject}
    (same : ∀ object, heap[error]? = some object → change object = object) :
    heap.update error change = heap := by
  refine List.ext_getElem? fun index => ?_
  rw [update, List.getElem?_modify]
  split
  · next here =>
    subst here
    cases stored : heap[error]? with
    | none => rfl
    | some object => exact congrArg some (same object stored)
  · simp

/-- Nothing has been changed yet, and only the primary is dropped. -/
structure Detaching.Unchanged (state : Detaching) (heap : ErrorHeap) (primary : ErrorId) :
    Prop where
  heap : state.heap = heap
  retained : ∀ pair ∈ state.retained, pair.1 ≠ primary → pair.2 = some pair.1

theorem Detaching.Unchanged.update {state : Detaching} (unchanged : state.Unchanged heap primary)
    {change : ErrorObject → ErrorObject}
    (same : ∀ object, heap[error]? = some object → change object = object) :
    (state.update error change).Unchanged heap primary :=
  ⟨by rw [Detaching.update, unchanged.heap, ErrorHeap.update_self same], unchanged.retained⟩

/-- Detaching a link of an object changes nothing if detaching any other exception does not. -/
theorem Detaching.Unchanged.detachLink {state : Detaching}
    {detach : Option ErrorId → Detaching → Option ErrorId × Detaching}
    (unchanged : state.Unchanged heap primary) (error : ErrorId)
    (pick : ErrorObject → Option ErrorId) (put : ErrorObject → Option ErrorId → ErrorObject)
    (isolated : heap.Isolated primary)
    (detaches : ∀ {link : Option ErrorId}, primary ∉ link → ∀ {state : Detaching},
      state.Unchanged heap primary →
        (detach link state).1 = link ∧ (detach link state).2.Unchanged heap primary)
    (refers : ∀ object, ∀ other ∈ pick object, other ∈ object.references)
    (same : ∀ object, put object (pick object) = object) :
    (detachLink detach pick put error state).Unchanged heap primary := by
  have apart : primary ∉ state.heap[error]?.bind pick := by
    intro member
    obtain ⟨object, stored, picked⟩ := Option.bind_eq_some_iff.mp member
    rw [unchanged.heap] at stored
    exact isolated error (ErrorHeap.mem_references stored (refers object primary picked))
  obtain ⟨link, kept⟩ := detaches apart unchanged
  refine kept.update fun object stored => ?_
  rw [link, unchanged.heap, stored]
  exact same object

/-- Detaching from an exception that nothing refers to changes nothing. -/
theorem detach_of_isolated (isolated : heap.Isolated primary) (depth : Nat)
    {link : Option ErrorId} (apart : primary ∉ link) {state : Detaching}
    (unchanged : state.Unchanged heap primary) :
    (detach primary depth link state).1 = link ∧
      (detach primary depth link state).2.Unchanged heap primary := by
  induction depth generalizing link state with
  | zero => cases link <;> exact ⟨rfl, unchanged⟩
  | succ depth ih =>
    cases link with
    | none => exact ⟨rfl, unchanged⟩
    | some error =>
      have other : error ≠ primary := fun same => apart (same ▸ rfl)
      simp only [detach]
      split
      · next result known =>
        obtain ⟨before, after, stored, -⟩ := List.lookup_eq_some_iff.mp known
        have pair : (error, result) ∈ state.retained := stored ▸ by simp
        exact ⟨unchanged.retained _ pair other, unchanged⟩
      · rw [if_neg (by rw [groupContains_of_isolated (unchanged.heap ▸ isolated)]; decide)]
        have entered : Detaching.Unchanged ⟨state.heap, (error, some error) :: state.retained⟩ heap
            primary :=
          ⟨unchanged.heap, List.forall_mem_cons.mpr ⟨fun _ => rfl, unchanged.retained⟩⟩
        have caused := entered.detachLink error (·.cause)
          (fun object cause => { object with cause }) isolated ih
          (fun object other picked => by simp [ErrorObject.references, Option.mem_def.mp picked])
          fun _ => rfl
        have contextual := caused.detachLink error (·.context)
          (fun object context => { object with context }) isolated ih
          (fun object other picked => by simp [ErrorObject.references, Option.mem_def.mp picked])
          fun _ => rfl
        have domain := contextual.detachLink error (·.domainCause)
          (fun object domainCause => { object with domainCause }) isolated ih
          (fun object other picked => by simp [ErrorObject.references, Option.mem_def.mp picked])
          fun _ => rfl
        refine ⟨rfl, ?_⟩
        refine List.foldlRecOn (motive := fun state : Detaching => state.Unchanged heap primary) _ _ domain
          fun state kept item member => (ih ?_ kept).2
        have refers : item ∈ heap.references error := by
          rw [domain.heap] at member
          cases stored : heap[error]? with
          | none => simp [stored] at member
          | some object =>
            refine ErrorHeap.mem_references stored (List.mem_append_right _ ?_)
            simpa [stored] using member
        intro same
        exact isolated error (Option.some.inj same ▸ refers)

theorem ErrorHeap.getElem?_update_self (change : ErrorObject → ErrorObject) :
    (heap.update error change)[error]? = heap[error]?.map change := by
  simp [update, List.getElem?_modify]

theorem mem_addNotes (object : ErrorObject) (notes : List String) :
    (∀ note ∈ object.notes, note ∈ (notes.foldl ErrorObject.addNote object).notes) ∧
      ∀ note ∈ notes, note ∈ (notes.foldl ErrorObject.addNote object).notes := by
  induction notes generalizing object with
  | nil => exact ⟨fun _ member => member, fun _ member => (by cases member)⟩
  | cons first notes ih =>
    obtain ⟨keeps, adds⟩ := ih (object.addNote first)
    have kept : ∀ note ∈ object.notes, note ∈ (object.addNote first).notes := by
      intro note member
      unfold ErrorObject.addNote
      split
      · exact member
      · exact List.mem_append_left _ member
    have added : first ∈ (object.addNote first).notes := by
      unfold ErrorObject.addNote
      split
      · assumption
      · exact List.mem_append_right _ List.mem_cons_self
    exact ⟨fun note member => keeps note (kept note member),
      List.forall_mem_cons.mpr ⟨keeps first added, adds⟩⟩

theorem references_addNotes (object : ErrorObject) (notes : List String) :
    (notes.foldl ErrorObject.addNote object).references = object.references := by
  refine List.foldlRecOn (motive := fun noted : ErrorObject => noted.references = object.references) notes _ rfl
    fun noted same note _ => ?_
  unfold ErrorObject.addNote
  split
  · exact same
  · exact same

/-- Noting changes no reference. -/
theorem references_update_notes (notes : List String) :
    (heap.update primary fun object => notes.foldl ErrorObject.addNote object).references error =
      heap.references error := by
  rw [ErrorHeap.references, ErrorHeap.references, ErrorHeap.update, List.getElem?_modify]
  split
  · cases heap[error]? with
    | none => rfl
    | some object => exact references_addNotes object notes
  · simp

/-- A failure is linked to an exception that nothing else refers to. -/
theorem linkFailure_reaches (isolated : heap.Isolated primary) {object : ErrorObject}
    (stored : heap[primary]? = some object) (different : primary ≠ secondary) :
    secondary ∈ (linkFailure heap primary secondary).exceptions primary ∧
      ∃ linked, (linkFailure heap primary secondary)[primary]? = some linked ∧
        linked.notes = object.notes := by
  unfold linkFailure
  split
  · next reachable => exact ⟨reachable, object, stored, rfl⟩
  · next unreachable =>
    have entered : Detaching.Unchanged ⟨heap, [(primary, none)]⟩ heap primary :=
      ⟨rfl, List.forall_mem_singleton.mpr fun other => absurd rfl other⟩
    have reference : ∀ other ∈ (heap[primary]?.bind (·.cause)).or (heap[primary]?.bind (·.context)),
        other ∈ heap.references primary := by
      intro other member
      refine ErrorHeap.mem_references stored ?_
      rw [stored] at member
      rcases Option.or_eq_some_iff.mp member with cause | ⟨-, context⟩
      · have picked : object.cause = some other := cause
        simp [ErrorObject.references, picked]
      · have picked : object.context = some other := context
        simp [ErrorObject.references, picked]
    have apart : primary ∉ (heap[primary]?.bind (·.cause)).or (heap[primary]?.bind (·.context)) :=
      fun member => isolated primary (reference primary member)
    have other : primary ∉ some secondary := fun same => different (Option.some.inj same).symm
    obtain ⟨original, first⟩ := detach_of_isolated isolated (heap.length + 1) apart entered
    have contextual := first.detachLink primary (·.context)
      (fun object context => { object with context }) isolated
      (detach_of_isolated isolated (heap.length + 1))
      (fun object other picked => by simp [ErrorObject.references, Option.mem_def.mp picked])
      fun _ => rfl
    obtain ⟨additional, last⟩ := detach_of_isolated isolated (heap.length + 1) other contextual
    simp only [additional, original, last.heap]
    have linked (extra : ErrorHeap) (link : ErrorId) :
        (heap.update primary (fun object => { object with cause := some link }) ++ extra)[primary]? =
          some { object with cause := some link } := by
      rw [List.getElem?_append_left (by simpa [ErrorHeap.update] using
        (List.getElem?_eq_some_iff.mp stored).1), ErrorHeap.getElem?_update_self, stored]
      rfl
    have refers (extra : ErrorHeap) (link : ErrorId) :
        ErrorHeap.Reaches (heap.update primary (fun object => { object with cause := some link }) ++
          extra) primary link :=
      .single (ErrorHeap.mem_references (linked extra link) (by simp [ErrorObject.references]))
    cases link : (heap[primary]?.bind (·.cause)).or (heap[primary]?.bind (·.context)) with
    | none =>
      have one := linked [] secondary
      have edge := refers [] secondary
      rw [List.append_nil] at one edge
      exact ⟨ErrorHeap.mem_exceptions_iff.mpr edge, _, one, rfl⟩
    | some original =>
      simp only
      split
      · next found =>
        exact absurd (ErrorHeap.mem_exceptions_iff.mpr
          (.head (reference original link) (ErrorHeap.mem_exceptions_iff.mp found))) unreachable
      · have edge := refers [runFailures original secondary heap] heap.length
        have group : (heap.update primary (fun object => { object with cause := some heap.length }) ++
            [runFailures original secondary heap])[heap.length]? =
              some (runFailures original secondary heap) := by
          rw [List.getElem?_append_right (by simp [ErrorHeap.update])]
          simp [ErrorHeap.update]
        refine ⟨ErrorHeap.mem_exceptions_iff.mpr (edge.tail (ErrorHeap.mem_references group ?_)),
          _, linked _ _, rfl⟩
        simp [ErrorObject.references, runFailures]

/-- The failure is reachable from the raised exception, which has the notes about it. -/
def ErrorHeap.Retains (heap : ErrorHeap) (raised failure : ErrorId) (notes : List String) : Prop :=
  failure ∈ heap.exceptions raised ∧
    ∃ object, heap[raised]? = some object ∧ ∀ note ∈ notes, note ∈ object.notes

/-- A failure is retained on an exception that nothing else refers to. -/
theorem retainFailure_retains (isolated : heap.Isolated primary) (label : String)
    (inside : primary < heap.length) (different : primary ≠ secondary) :
    (retainFailure heap primary secondary label).Retains primary secondary
      (heap[secondary]?.elim [] (failureNotes label)) := by
  rw [retainFailure, if_neg different]
  generalize heap[secondary]?.elim [] (failureNotes label) = notes
  obtain ⟨object, stored⟩ : ∃ object, heap[primary]? = some object :=
    ⟨_, List.getElem?_eq_getElem inside⟩
  have noted : (heap.update primary fun object =>
      notes.foldl ErrorObject.addNote object)[primary]? =
        some (notes.foldl ErrorObject.addNote object) := by
    rw [ErrorHeap.getElem?_update_self, stored, Option.map_some]
  have alone : (heap.update primary fun object =>
      notes.foldl ErrorObject.addNote object).Isolated primary :=
    fun error refers => isolated error (references_update_notes notes ▸ refers)
  obtain ⟨reaches, linked, kept, same⟩ := linkFailure_reaches alone noted different
  exact ⟨reaches, linked, kept, fun note member => same ▸ (mem_addNotes object notes).2 note member⟩

end Tinkerfin.Run
