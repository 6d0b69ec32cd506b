import Mathlib.Data.Finset.Max
import Mathlib.Data.List.Basic
import Tinkerfin.Lib.Dict

/-!
# Owners of pending interrupts

A pending interrupt is reported at the task that raised it and again at every ancestor, by snapshots,
nested task states and checkpoints of dynamic subgraphs.  The reports are folded into one owner for
each interrupt.  The fold remembers a single previous owner, so it notices a disagreement between
two owners only when one of them is still remembered as the other is read.
-/

namespace Tinkerfin.Agui

/-- One reported owner of an interrupt; of its checkpoint configuration only the id is compared. -/
structure InterruptSource where
  graphNamespace : List String
  checkpointId : Option String
  taskId : Option String
  deriving DecidableEq

/-- `TinkerFinLifecycleError` with its message. -/
structure LifecycleError where
  message : String
  deriving DecidableEq

/-- Keep the deepest owner of an interrupt, and reject conflicting branches. -/
def recordInterruptSource (sources : Dict String InterruptSource) (interruptId : String)
    (source : InterruptSource) : Except LifecycleError (Dict String InterruptSource) :=
  match sources.get? interruptId with
  | none => .ok (sources.insert interruptId source)
  | some previous =>
    let left := previous.graphNamespace
    let right := source.graphNamespace
    if left = right then
      if previous.checkpointId ≠ source.checkpointId then
        .error ⟨"checkpoint interrupt has conflicting source checkpoints"⟩
      else .ok sources
    else if right.take left.length = left then .ok (sources.insert interruptId source)
    else if left.take right.length ≠ right then
      .error ⟨"checkpoint interrupt has conflicting graph sources"⟩
    else .ok sources

/-- Record the reported owners of one interrupt in the order in which they are scanned. -/
def recordInterruptSources (sources : Dict String InterruptSource) (interruptId : String)
    (owners : List InterruptSource) : Except LifecycleError (Dict String InterruptSource) :=
  owners.foldlM (fun sources owner => recordInterruptSource sources interruptId owner) sources

/-! ## What the reported owners agree on -/

/-- The namespaces of two owners are comparable by prefix. -/
def InterruptSource.Chained (left right : InterruptSource) : Prop :=
  left.graphNamespace <+: right.graphNamespace ∨ right.graphNamespace <+: left.graphNamespace

/-- All namespaces form a chain under prefix. -/
def Chain (owners : List InterruptSource) : Prop :=
  ∀ left ∈ owners, ∀ right ∈ owners, left.Chained right

/-- The namespaces form a chain, and two owners of one namespace are the same. -/
def Consistent (owners : List InterruptSource) : Prop :=
  Chain owners ∧ ∀ left ∈ owners, ∀ right ∈ owners,
    left.graphNamespace = right.graphNamespace →
      left.checkpointId = right.checkpointId ∧ left.taskId = right.taskId

/-- No reported namespace is deeper than that of the owner. -/
def Deepest (owners : List InterruptSource) (owner : InterruptSource) : Prop :=
  owner ∈ owners ∧ ∀ other ∈ owners, other.graphNamespace <+: owner.graphNamespace

/-- Two owners of the deepest namespace are at different checkpoints. -/
def DeepestSplit (owners : List InterruptSource) : Prop :=
  ∃ left right, Deepest owners left ∧ Deepest owners right ∧
    left.checkpointId ≠ right.checkpointId

/-! ## One report -/

variable {sources next : Dict String InterruptSource} {interruptId : String}
  {source owner : InterruptSource} {owners seen rest : List InterruptSource}

theorem recordInterruptSource_of_none (vacant : sources.get? interruptId = none) :
    recordInterruptSource sources interruptId source = .ok (sources.insert interruptId source) := by
  rw [recordInterruptSource, vacant]

/-- An owner at or above the remembered one is passed over. -/
theorem recordInterruptSource_of_prefix (kept : sources.get? interruptId = some owner)
    (above : source.graphNamespace <+: owner.graphNamespace)
    (same : source.graphNamespace = owner.graphNamespace →
      source.checkpointId = owner.checkpointId) :
    recordInterruptSource sources interruptId source = .ok sources := by
  unfold recordInterruptSource
  rw [kept]
  simp only
  by_cases equal : owner.graphNamespace = source.graphNamespace
  · rw [if_pos equal, if_neg (not_not.mpr (same equal.symm).symm)]
  · have shorter : ¬source.graphNamespace.take owner.graphNamespace.length =
        owner.graphNamespace := by
      intro below
      have deeper : owner.graphNamespace <+: source.graphNamespace :=
        below ▸ List.take_prefix _ _
      exact equal (deeper.eq_of_length (le_antisymm deeper.length_le above.length_le))
    rw [if_neg equal, if_neg shorter, if_neg (not_not.mpr (List.prefix_iff_eq_take.mp above).symm)]

/-- A deeper owner replaces the remembered one. -/
theorem recordInterruptSource_of_deeper (kept : sources.get? interruptId = some owner)
    (below : owner.graphNamespace <+: source.graphNamespace)
    (different : owner.graphNamespace ≠ source.graphNamespace) :
    recordInterruptSource sources interruptId source = .ok (sources.insert interruptId source) := by
  unfold recordInterruptSource
  rw [kept]
  simp only
  rw [if_neg different, if_pos (List.prefix_iff_eq_take.mp below).symm]

/-- A recorded report is comparable with the remembered owner and at its checkpoint. -/
theorem recordInterruptSource_eq_ok (kept : sources.get? interruptId = some owner)
    (recorded : recordInterruptSource sources interruptId source = .ok next) :
    (next = sources ∧ source.graphNamespace <+: owner.graphNamespace ∧
      (source.graphNamespace = owner.graphNamespace → source.checkpointId = owner.checkpointId)) ∨
    (next = sources.insert interruptId source ∧ owner.graphNamespace <+: source.graphNamespace ∧
      owner.graphNamespace ≠ source.graphNamespace) := by
  unfold recordInterruptSource at recorded
  rw [kept] at recorded
  simp only at recorded
  split at recorded
  · next equal =>
    split at recorded
    · cases recorded
    · next same =>
      cases recorded
      exact .inl ⟨rfl, equal ▸ List.prefix_rfl, fun _ => (not_not.mp same).symm⟩
  · next different =>
    split at recorded
    · next below =>
      cases recorded
      exact .inr ⟨rfl, List.prefix_iff_eq_take.mpr below.symm, different⟩
    · split at recorded
      · cases recorded
      · next above =>
        cases recorded
        exact .inl ⟨rfl, List.prefix_iff_eq_take.mpr (not_not.mp above).symm,
          fun same => absurd same.symm different⟩

/-! ## All reports -/

/-- The remembered owner is the deepest of those seen, and every owner seen at its namespace is at
its checkpoint. -/
structure Selected (interruptId : String) (sources : Dict String InterruptSource)
    (seen : List InterruptSource) (owner : InterruptSource) : Prop where
  kept : sources.get? interruptId = some owner
  deepest : Deepest seen owner
  agree : ∀ other ∈ seen, other.graphNamespace = owner.graphNamespace →
    other.checkpointId = owner.checkpointId

theorem Selected.record (selected : Selected interruptId sources seen owner)
    (recorded : recordInterruptSource sources interruptId source = .ok next) :
    ∃ found, Selected interruptId next (seen ++ [source]) found := by
  rcases recordInterruptSource_eq_ok selected.kept recorded with
    ⟨rfl, above, same⟩ | ⟨rfl, below, different⟩
  · refine ⟨owner, selected.kept, ⟨List.mem_append_left _ selected.deepest.1, ?_⟩, ?_⟩
    · intro other member
      rcases List.mem_append.mp member with old | new
      · exact selected.deepest.2 other old
      · exact (List.mem_singleton.mp new) ▸ above
    · intro other member
      rcases List.mem_append.mp member with old | new
      · exact selected.agree other old
      · exact (List.mem_singleton.mp new) ▸ same
  · refine ⟨source, Dict.get?_insert_self _ _ _, ⟨by simp, ?_⟩, ?_⟩
    · intro other member
      rcases List.mem_append.mp member with old | new
      · exact (selected.deepest.2 other old).trans below
      · exact (List.mem_singleton.mp new) ▸ List.prefix_rfl
    · intro other member same
      rcases List.mem_append.mp member with old | new
      · have upper : source.graphNamespace <+: owner.graphNamespace :=
          same ▸ selected.deepest.2 other old
        have equal : owner.graphNamespace = source.graphNamespace :=
          below.eq_of_length (le_antisymm below.length_le upper.length_le)
        exact absurd equal different
      · rw [List.mem_singleton.mp new]

theorem Selected.recordAll (selected : Selected interruptId sources seen owner)
    (recorded : recordInterruptSources sources interruptId rest = .ok next) :
    ∃ found, Selected interruptId next (seen ++ rest) found := by
  induction rest generalizing sources seen owner with
  | nil =>
    cases recorded
    exact ⟨owner, by simpa using selected⟩
  | cons source rest ih =>
    simp only [recordInterruptSources, List.foldlM_cons] at recorded
    cases one : recordInterruptSource sources interruptId source with
    | error failure => simp [one, bind, Except.bind] at recorded
    | ok middle =>
      obtain ⟨found, step⟩ := selected.record one
      rw [one] at recorded
      simpa using ih step recorded

/-- Success selects the deepest owner. -/
theorem selected_of_recordAll (filled : owners ≠ [])
    (recorded : recordInterruptSources .empty interruptId owners = .ok next) :
    ∃ owner, Selected interruptId next owners owner := by
  cases owners with
  | nil => exact absurd rfl filled
  | cons first rest =>
    simp only [recordInterruptSources, List.foldlM_cons,
      recordInterruptSource_of_none (Dict.get?_empty _)] at recorded
    have started : Selected interruptId (Dict.empty.insert interruptId first) [first] first :=
      ⟨Dict.get?_insert_self _ _ _, ⟨by simp, by simp⟩, by simp⟩
    exact started.recordAll recorded

/-- Owners at or above the remembered one change nothing. -/
theorem recordAll_of_prefix (kept : sources.get? interruptId = some owner)
    (above : ∀ other ∈ rest, other.graphNamespace <+: owner.graphNamespace ∧
      (other.graphNamespace = owner.graphNamespace → other.checkpointId = owner.checkpointId)) :
    recordInterruptSources sources interruptId rest = .ok sources := by
  induction rest with
  | nil => rfl
  | cons source rest ih =>
    obtain ⟨first, others⟩ := List.forall_mem_cons.mp above
    simp only [recordInterruptSources, List.foldlM_cons,
      recordInterruptSource_of_prefix kept first.1 first.2]
    exact ih others

/-- Consistent owners are recorded in every order. -/
theorem Selected.recordAll_of_consistent (selected : Selected interruptId sources seen owner)
    (consistent : Consistent (seen ++ rest)) :
    ∃ next, recordInterruptSources sources interruptId rest = .ok next := by
  induction rest generalizing sources seen owner with
  | nil => exact ⟨sources, rfl⟩
  | cons source rest ih =>
    have seenOwner : owner ∈ seen ++ source :: rest := List.mem_append_left _ selected.deepest.1
    have seenSource : source ∈ seen ++ source :: rest := by simp
    have same : source.graphNamespace = owner.graphNamespace →
        source.checkpointId = owner.checkpointId :=
      fun equal => (consistent.2 source seenSource owner seenOwner equal).1
    obtain ⟨middle, one⟩ : ∃ middle,
        recordInterruptSource sources interruptId source = .ok middle := by
      by_cases above : source.graphNamespace <+: owner.graphNamespace
      · exact ⟨_, recordInterruptSource_of_prefix selected.kept above same⟩
      · have below : owner.graphNamespace <+: source.graphNamespace :=
          (consistent.1 source seenSource owner seenOwner).resolve_left above
        refine ⟨_, recordInterruptSource_of_deeper selected.kept below fun equal => ?_⟩
        exact above (equal ▸ List.prefix_rfl)
    obtain ⟨found, step⟩ := selected.record one
    obtain ⟨next, others⟩ := ih step (by simpa using consistent)
    refine ⟨next, ?_⟩
    simp only [recordInterruptSources, List.foldlM_cons, one]
    exact others

/-! ## Orders of the reports -/

theorem Deepest.namespace_eq {left right : InterruptSource} (first : Deepest owners left)
    (second : Deepest owners right) : left.graphNamespace = right.graphNamespace :=
  (second.2 left first.1).eq_of_length
    (le_antisymm (second.2 left first.1).length_le (first.2 right second.1).length_le)

theorem exists_deepest (chain : Chain owners) (filled : owners ≠ []) :
    ∃ owner, Deepest owners owner := by
  obtain ⟨owner, member, longest⟩ := owners.toFinset.exists_max_image
    (fun owner => owner.graphNamespace.length) (by simpa using filled)
  have stored : owner ∈ owners := List.mem_toFinset.mp member
  refine ⟨owner, stored, fun other reported => ?_⟩
  rcases chain other reported owner stored with above | below
  · exact above
  · have shorter := longest other (List.mem_toFinset.mpr reported)
    exact (below.eq_of_length (le_antisymm below.length_le shorter)) ▸ List.prefix_rfl

theorem Consistent.perm {order : List InterruptSource} (consistent : Consistent owners)
    (shuffled : order.Perm owners) : Consistent order :=
  ⟨fun left first right second =>
      consistent.1 left (shuffled.mem_iff.mp first) right (shuffled.mem_iff.mp second),
    fun left first right second =>
      consistent.2 left (shuffled.mem_iff.mp first) right (shuffled.mem_iff.mp second)⟩

/-- Success in some order shows a chain whose deepest owners share their checkpoint. -/
theorem chain_of_recordAll {order : List InterruptSource} (shuffled : order.Perm owners)
    (recorded : recordInterruptSources .empty interruptId order = .ok next) :
    Chain owners ∧ ¬DeepestSplit owners ∧
      ∀ owner, next.get? interruptId = some owner → Deepest owners owner := by
  by_cases filled : order = []
  · subst filled
    cases recorded
    obtain rfl := shuffled.nil_eq
    exact ⟨fun _ member => (by cases member), fun ⟨_, _, first, _⟩ => (by cases first.1),
      fun _ stored => (by cases stored)⟩
  · obtain ⟨owner, selected⟩ := selected_of_recordAll filled recorded
    have upper : ∀ other ∈ owners, other.graphNamespace <+: owner.graphNamespace :=
      fun other member => selected.deepest.2 other (shuffled.mem_iff.mpr member)
    have deepest : Deepest owners owner := ⟨shuffled.mem_iff.mp selected.deepest.1, upper⟩
    have checkpoint : ∀ other, Deepest owners other → other.checkpointId = owner.checkpointId :=
      fun other deep => selected.agree other (shuffled.mem_iff.mpr deep.1)
        (deep.namespace_eq deepest)
    refine ⟨fun left first right second =>
      List.prefix_or_prefix_of_prefix (upper left first) (upper right second), ?_, ?_⟩
    · rintro ⟨left, right, first, second, different⟩
      exact different ((checkpoint left first).trans (checkpoint right second).symm)
    · intro found stored
      obtain rfl := Option.some.inj (selected.kept.symm.trans stored)
      exact deepest

/-- A chain whose deepest owners share their checkpoint is recorded deepest owner first. -/
theorem recordAll_deepest_first (chain : Chain owners) (unsplit : ¬DeepestSplit owners) :
    ∃ order next, order.Perm owners ∧
      recordInterruptSources .empty interruptId order = .ok next := by
  by_cases filled : owners = []
  · exact ⟨[], .empty, filled ▸ .refl _, rfl⟩
  · obtain ⟨owner, deepest⟩ := exists_deepest chain filled
    refine ⟨owner :: owners.erase owner, Dict.empty.insert interruptId owner,
      (List.perm_cons_erase deepest.1).symm, ?_⟩
    simp only [recordInterruptSources, List.foldlM_cons,
      recordInterruptSource_of_none (Dict.get?_empty _)]
    refine recordAll_of_prefix (Dict.get?_insert_self _ _ _) fun other member => ?_
    have reported : other ∈ owners := List.mem_of_mem_erase member
    refine ⟨deepest.2 other reported, fun same => ?_⟩
    by_contra different
    have deep : Deepest owners other :=
      ⟨reported, fun third stored => same ▸ deepest.2 third stored⟩
    exact unsplit ⟨other, owner, deep, deepest, different⟩

/-! ## Independence of the scan order -/

/-- All orders of the reports fail, or all succeed with one result; they succeed exactly for
consistent owners, and the result is the deepest owner. -/
def SelectionExact (interruptId : String) (owners : List InterruptSource) : Prop :=
  ((∀ order, order.Perm owners →
      ∃ failure, recordInterruptSources .empty interruptId order = .error failure) ∨
    ∃ found, ∀ order, order.Perm owners →
      ∃ sources, recordInterruptSources .empty interruptId order = .ok sources ∧
        sources.get? interruptId = found) ∧
  ∀ order, order.Perm owners →
    ((∃ sources, recordInterruptSources .empty interruptId order = .ok sources) ↔
      Consistent owners) ∧
    ∀ sources owner, recordInterruptSources .empty interruptId order = .ok sources →
      sources.get? interruptId = some owner → Deepest owners owner

theorem selectionExact_of_consistent (consistent : Consistent owners) :
    SelectionExact interruptId owners := by
  have recorded : ∀ order, order.Perm owners →
      ∃ sources, recordInterruptSources .empty interruptId order = .ok sources := by
    intro order shuffled
    cases order with
    | nil => exact ⟨.empty, rfl⟩
    | cons first rest =>
      have started : Selected interruptId (Dict.empty.insert interruptId first) [first] first :=
        ⟨Dict.get?_insert_self _ _ _, ⟨by simp, by simp⟩, by simp⟩
      obtain ⟨next, others⟩ := started.recordAll_of_consistent (consistent.perm shuffled)
      refine ⟨next, ?_⟩
      simp only [recordInterruptSources, List.foldlM_cons,
        recordInterruptSource_of_none (Dict.get?_empty _)]
      exact others
  refine ⟨.inr ?_, fun order shuffled => ⟨iff_of_true (recorded order shuffled) consistent,
    fun sources owner found => (chain_of_recordAll shuffled found).2.2 owner⟩⟩
  by_cases filled : owners = []
  · refine ⟨none, fun order shuffled => ⟨.empty, ?_, rfl⟩⟩
    obtain rfl : order = [] := List.perm_nil.mp (filled ▸ shuffled)
    rfl
  · obtain ⟨owner, deepest⟩ := exists_deepest consistent.1 filled
    refine ⟨some owner, fun order shuffled => ?_⟩
    obtain ⟨sources, success⟩ := recorded order shuffled
    have some : order ≠ [] := fun empty => filled (List.nil_perm.mp (empty ▸ shuffled))
    obtain ⟨found, selected⟩ := selected_of_recordAll some success
    have deep : Deepest owners found :=
      (chain_of_recordAll shuffled success).2.2 found selected.kept
    have one : found.graphNamespace = owner.graphNamespace := deep.namespace_eq deepest
    have same := consistent.2 found deep.1 owner deepest.1 one
    obtain rfl : found = owner := by
      cases found
      cases owner
      simp_all
    exact ⟨sources, success, selected.kept⟩

theorem selectionExact_of_failure (inconsistent : ¬Consistent owners)
    (conflict : ¬Chain owners ∨ DeepestSplit owners) : SelectionExact interruptId owners := by
  have refused : ∀ order, order.Perm owners → ∀ sources,
      recordInterruptSources .empty interruptId order ≠ .ok sources := by
    intro order shuffled sources recorded
    obtain ⟨chain, unsplit, -⟩ := chain_of_recordAll shuffled recorded
    exact conflict.elim (fun broken => broken chain) unsplit
  refine ⟨.inl fun order shuffled => ?_, fun order shuffled =>
    ⟨iff_of_false (fun ⟨sources, recorded⟩ => refused order shuffled sources recorded)
      inconsistent, fun sources owner recorded => absurd recorded (refused order shuffled sources)⟩⟩
  cases outcome : recordInterruptSources .empty interruptId order with
  | error failure => exact ⟨failure, rfl⟩
  | ok sources => exact absurd outcome (refused order shuffled sources)

/-- The selection ignores the scan order exactly when the owners are consistent, or their conflict
shows in every order: between namespaces of different branches, or between the checkpoints of two
deepest owners.  A disagreement above the deepest namespace, or about the task, depends on it. -/
theorem interrupt_selection_iff (interruptId : String) (owners : List InterruptSource) :
    SelectionExact interruptId owners ↔
      Consistent owners ∨ ¬Chain owners ∨ DeepestSplit owners := by
  constructor
  · rintro ⟨-, exact⟩
    by_contra open_
    obtain ⟨inconsistent, quiet⟩ := not_or.mp open_
    obtain ⟨chain, unsplit⟩ := not_or.mp quiet
    obtain ⟨order, next, shuffled, recorded⟩ : ∃ order next, order.Perm owners ∧
        recordInterruptSources .empty interruptId order = .ok next :=
      recordAll_deepest_first (not_not.mp chain) unsplit
    exact inconsistent ((exact order shuffled).1.mp ⟨next, recorded⟩)
  · rintro (consistent | conflict)
    · exact selectionExact_of_consistent consistent
    · by_cases consistent : Consistent owners
      · exact selectionExact_of_consistent consistent
      · exact selectionExact_of_failure consistent conflict

/-- Two checkpoints of namespace `a` go unnoticed when the report of `a`, `b` comes between. -/
theorem interrupt_selection_hidden_conflict :
    ¬SelectionExact "interrupt" [⟨["a"], some "1", none⟩, ⟨["a", "b"], some "3", none⟩,
      ⟨["a"], some "2", none⟩] := by
  rintro ⟨-, exact⟩
  have consistent := (exact _ (.refl _)).1.mp ⟨_, rfl⟩
  have conflict := consistent.2 ⟨["a"], some "1", none⟩ (by decide) ⟨["a"], some "2", none⟩
    (by decide) rfl
  exact absurd conflict.1 (by decide)

end Tinkerfin.Agui
