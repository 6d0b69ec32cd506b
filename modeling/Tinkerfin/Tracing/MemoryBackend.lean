import Tinkerfin.Lib.Stateful
import Tinkerfin.Tracing.Accounting

/-!
# Atomicity of the in-memory ledger backend

A commit resolves its change and then writes the effect row by row into shared dictionaries, the
graph index last.  The graph reducer checks each mutation against the revision it meets, so a
conflict is found after the rows of the effect were written.  Everything a commit does is stated in
the order of the source; what it leaves behind when it raises follows.
-/

namespace Tinkerfin.Tracing

open Messaging (RunIdentity ThreadIdentity bind_eq_ok)

/-- A thread with its index of graph revisions. -/
structure IndexedThread extends MemoryThread where
  graphNodes : GraphRevisions := .empty

/-- The threads of all namespaces. -/
abbrev MemoryTraceBackend := Dict ThreadIdentity IndexedThread

abbrev BackendM := EStateM TracingError MemoryTraceBackend

abbrev GraphM := EStateM TracingError GraphRevisions

/-- The rows that the ledger reducer reads. -/
def MemoryTraceBackend.ledger (backend : MemoryTraceBackend) : MemoryLedger :=
  backend.mapValues fun _ thread => thread.toMemoryThread

/-! ## Writing graph revisions in place -/

/-- Write a mutation into a stored row field by field; a conflict keeps the fields written so far. -/
def ReducedTraceGraphNode.write (row : ReducedTraceGraphNode) (mutation : TraceGraphNodeMutation) :
    GraphM Unit := do
  ofExcept (reject (mutation.updatedSeq < row.updatedSeq)
    (.storeProtocol "Trace Graph node sequence moved backwards"))
  let _ ← ofExcept (resolveGraphNodeKind (some row.kind) mutation.kind)
  ofExcept (reject (mutation.name.any (· ≠ row.name))
    (.storeProtocol "Trace Graph node name changed"))
  ofExcept (reject (mutation.graphNamespace.any (· ≠ row.graphNamespace))
    (.storeProtocol "Trace Graph node namespace changed"))
  ofExcept (reject
    (mutation.parentSubagentId.any fun incoming => row.parentSubagentId.any (incoming ≠ ·))
    (.storeProtocol "Trace Graph Subagent owner changed"))
  modify fun revisions => revisions.insert mutation.key
    (.node { row with parentSubagentId := mutation.parentSubagentId <|> row.parentSubagentId })
  ofExcept (reject (mutation.modelCallId.any fun incoming => row.modelCallId.any (incoming ≠ ·))
    (.storeProtocol "Trace Graph model call changed"))
  modify fun revisions => revisions.insert mutation.key (.node (row.updated mutation))

/-- Apply one mutation to the revisions where they are. -/
def TraceGraphNodeMutation.write (mutation : TraceGraphNodeMutation) : GraphM Unit := do
  if mutation.remove then
    modify fun revisions => revisions.insert mutation.key
      (.tombstone mutation.nodeId mutation.runId mutation.updatedSeq)
  else
    match (← get).get? mutation.key with
    | some (.node row) => row.write mutation
    | some (.tombstone _ _ _) =>
      match mutation.created with
      | some row => modify fun revisions => revisions.insert mutation.key (.node row)
      | none =>
        throw (TracingError.storeProtocol
          "Trace Graph removal revision cannot accept a partial update")
    | none =>
      match mutation.created with
      | some row => modify fun revisions => revisions.insert mutation.key (.node row)
      | none => pure ()

/-- Write the closures of an event where the revisions are. -/
def writeClosures (event : TraceEvent) : GraphM Unit := do
  forM (assistantRunTerminalMutations event (← get).values) TraceGraphNodeMutation.write

/-- Replay one event where the revisions are. -/
def writeGraphEvent (event : TraceEvent) : GraphM Unit := do
  let mutations ← ofExcept (graphNodeMutations [event])
  forM mutations TraceGraphNodeMutation.write
  writeClosures event

/-- Replay events where the revisions are. -/
def writeGraphEvents (events : List TraceEvent) : GraphM Unit := forM events writeGraphEvent

/-! ## Writing an effect -/

/-- Change one thread, if it is there. -/
def modifyThread (identity : ThreadIdentity) (change : IndexedThread → IndexedThread) :
    BackendM Unit :=
  modify fun backend => (backend.get? identity).elim backend fun thread =>
    backend.insert identity (change thread)

/-- Work on the graph index of one thread; what is written before an error stays. -/
def onGraphNodes (identity : ThreadIdentity) (program : GraphM Unit) : BackendM Unit :=
  fun backend =>
    match backend.get? identity with
    | none => .ok () backend
    | some thread =>
      match program thread.graphNodes with
      | .ok _ graphNodes => .ok () (backend.insert identity { thread with graphNodes })
      | .error error graphNodes =>
        .error error (backend.insert identity { thread with graphNodes })

/-- Append the records of validated events; both lists have to be of one length. -/
def storeEvents (identity : ThreadIdentity) (events : List TraceEvent)
    (facts : List TraceStoredFact) : BackendM Unit := do
  modifyThread identity fun thread =>
    { thread with events := thread.events ++ List.zipWith memoryStoredEvent events facts }
  ofExcept (reject (facts.length < events.length)
    (.invalidValue "zip() argument 2 is shorter than argument 1"))
  ofExcept (reject (events.length < facts.length)
    (.invalidValue "zip() argument 2 is longer than argument 1"))

/-- The backend after the thread of an effect was written. -/
def MemoryTraceBackend.withThread (backend : MemoryTraceBackend)
    (effect : TraceLedgerStorageEffect) : MemoryTraceBackend :=
  match effect.thread with
  | none => backend
  | some state =>
    let identity := state.key.toThreadIdentity
    backend.insert identity
      ((backend.get? identity).elim { state } fun thread => { thread with state })

/-- Apply one resolved effect. -/
def applyEffect (change : TraceLedgerChange) (effect : TraceLedgerStorageEffect) :
    BackendM Unit := do
  let key := effect.result.key <|> change.key
  if effect.deleteGeneration ∨ effect.removeThread then
    modify fun backend => key.elim backend fun key => backend.erase key.toThreadIdentity
  else
    modify fun backend => backend.withThread effect
    match key with
    | none => pure ()
    | some key =>
      let identity := key.toThreadIdentity
      modifyThread identity fun thread =>
        { thread with
          writers := effect.removeWriterRunId.elim thread.writers thread.writers.erase }
      modifyThread identity fun thread =>
        { thread with
          writers := effect.writer.elim thread.writers fun writer =>
            thread.writers.insert writer.runId writer }
      if ((← get).get? identity).isSome ∧ effect.validatedEvents ≠ [] then
        storeEvents identity effect.validatedEvents change.facts
      onGraphNodes identity (writeGraphEvents effect.validatedEvents)
      modifyThread identity fun thread =>
        { thread with
          checkpoints := effect.checkpoint.elim thread.checkpoints fun checkpoint =>
            let scope := (checkpoint.projectionName, checkpoint.runId)
            thread.checkpoints.insert scope
              ((thread.checkpoints.get? scope).getD [] ++ [checkpoint]) }

/-- Resolve and apply one complete effect. -/
def commitLedgerChange (encodedLength : TraceEvent → Nat) (change : TraceLedgerChange) (now : Nat)
    (fresh : String) : BackendM TraceLedgerCommitResult := do
  let state ← ofExcept ((← get).ledger.stateForChange change now)
  let effect ← ofExcept (resolveLedgerChange encodedLength change state fresh)
  applyEffect change effect
  return effect.result

/-! ## The index in place and as a value -/

/-- A program raises exactly when a reduction does, and otherwise leaves what it returns. -/
def Mirrors (program : GraphM Unit)
    (reduce : GraphRevisions → Except TracingError GraphRevisions) : Prop :=
  ∀ revisions, program.Ensures revisions (fun _ after => reduce revisions = .ok after)
    fun error _ => reduce revisions = .error error

section Mirrors

open EStateM

variable {program next : GraphM Unit}
  {reduce after : GraphRevisions → Except TracingError GraphRevisions}

theorem Mirrors.bind (first : Mirrors program reduce) (second : Mirrors next after) :
    Mirrors (program >>= fun _ => next) fun revisions => reduce revisions >>= after := by
  intro revisions
  rw [ensures_bind]
  refine (first revisions).mono (fun _ middle returned => ?_) fun error _ raised => ?_
  · simp only [returned]
    exact second middle
  · simp only [raised]
    rfl

theorem Mirrors.forM {α : Type} {body : α → GraphM Unit}
    {step : GraphRevisions → α → Except TracingError GraphRevisions}
    (each : ∀ item, Mirrors (body item) fun revisions => step revisions item) (items : List α) :
    Mirrors (forM items body) fun revisions => items.foldlM step revisions := by
  induction items with
  | nil => exact fun _ => rfl
  | cons item items ih =>
    simp only [List.forM_cons, List.foldlM_cons]
    exact (each item).bind ih

/-- Writing a row field by field raises where checking it first does. -/
theorem write_row_mirrors (row : ReducedTraceGraphNode) (mutation : TraceGraphNodeMutation) :
    Mirrors (row.write mutation) fun revisions =>
      (row.apply mutation).map fun row => revisions.insert mutation.key (.node row) := by
  intro revisions
  unfold ReducedTraceGraphNode.write ReducedTraceGraphNode.apply
  simp only [ensures_bind, ensures_ofExcept, ensures_modify, Dict.insert_insert]
  refine ⟨fun _ forwards => ?_, fun error failed => by rw [failed]; rfl⟩
  rw [forwards]
  refine ⟨fun kind same => ?_, fun error failed => by rw [failed]; rfl⟩
  rw [same]
  refine ⟨fun _ named => ?_, fun error failed => by rw [failed]; rfl⟩
  rw [named]
  refine ⟨fun _ within => ?_, fun error failed => by rw [failed]; rfl⟩
  rw [within]
  refine ⟨fun _ owned => ?_, fun error failed => by rw [failed]; rfl⟩
  rw [owned]
  refine ⟨fun _ called => ?_, fun error failed => by rw [failed]; rfl⟩
  rw [called]
  rfl

theorem write_mirrors (mutation : TraceGraphNodeMutation) :
    Mirrors mutation.write fun revisions => applyGraphNodeMutation revisions mutation := by
  intro revisions
  unfold TraceGraphNodeMutation.write applyGraphNodeMutation TraceGraphNodeMutation.revise
  split
  · rfl
  · simp only [ensures_bind, ensures_get]
    cases stored : revisions.get? mutation.key with
    | none => cases mutation.created <;> rfl
    | some revision =>
      cases revision with
      | node row =>
        have same := write_row_mirrors row mutation revisions
        cases applied : row.apply mutation <;> simpa [applied, Except.map] using same
      | tombstone nodeId runId updatedSeq => cases mutation.created <;> rfl

theorem writeClosures_mirrors (event : TraceEvent) :
    Mirrors (writeClosures event) fun revisions =>
      (assistantRunTerminalMutations event revisions.values).foldlM applyGraphNodeMutation
        revisions := by
  intro revisions
  unfold writeClosures
  rw [ensures_bind, ensures_get]
  exact Mirrors.forM write_mirrors _ revisions

theorem writeGraphEvent_mirrors (event : TraceEvent) :
    Mirrors (writeGraphEvent event) fun revisions => applyGraphEvent revisions event := by
  intro revisions
  unfold writeGraphEvent applyGraphEvent
  rw [ensures_bind, ensures_ofExcept]
  refine ⟨fun mutations proposed => ?_, fun error failed => by rw [failed]; rfl⟩
  rw [proposed]
  exact (Mirrors.forM write_mirrors mutations).bind (writeClosures_mirrors event) revisions

theorem writeGraphEvents_mirrors (events : List TraceEvent) :
    Mirrors (writeGraphEvents events) fun revisions => applyGraphEvents revisions events :=
  Mirrors.forM writeGraphEvent_mirrors events

end Mirrors

/-! ## Which updates fit -/

/-- Nothing in the identity of the stored revision contradicts the mutation. -/
def TraceGraphNodeMutation.Fits (mutation : TraceGraphNodeMutation) :
    Option ReducedTraceGraphRevision → Prop
  | some (.node row) => mutation.remove = true ∨
      (row.updatedSeq ≤ mutation.updatedSeq ∧ mutation.kind ∈ [none, some row.kind] ∧
        mutation.name ∈ [none, some row.name] ∧
        mutation.graphNamespace ∈ [none, some row.graphNamespace] ∧
        (mutation.parentSubagentId = none ∨ row.parentSubagentId = none ∨
          mutation.parentSubagentId = row.parentSubagentId) ∧
        (mutation.modelCallId = none ∨ row.modelCallId = none ∨
          mutation.modelCallId = row.modelCallId))
  | some (.tombstone _ _ _) => mutation.remove = true ∨ mutation.created.isSome
  | none => True

/-- The revisions once a mutation that fits was applied. -/
def absorb (revisions : GraphRevisions) (mutation : TraceGraphNodeMutation) : GraphRevisions :=
  (applyGraphNodeMutation revisions mutation).toOption.getD revisions

/-- Every mutation fits the revision that its predecessors leave under its key. -/
def FitInOrder : GraphRevisions → List TraceGraphNodeMutation → Prop
  | _, [] => True
  | revisions, mutation :: mutations =>
    mutation.Fits (revisions.get? mutation.key) ∧
      FitInOrder (absorb revisions mutation) mutations

/-- Every mutation that the events propose, and every closure that they cause, fits when its turn
comes. -/
def Replays : GraphRevisions → List TraceEvent → Prop
  | _, [] => True
  | revisions, event :: events =>
    ∃ mutations, graphNodeMutations [event] = .ok mutations ∧ FitInOrder revisions mutations ∧
      let explicit := mutations.foldl absorb revisions
      let closures := assistantRunTerminalMutations event explicit.values
      FitInOrder explicit closures ∧ Replays (closures.foldl absorb explicit) events

section Fits

variable {revisions after : GraphRevisions} {mutation : TraceGraphNodeMutation}

theorem kept_iff {α : Type} [DecidableEq α] {incoming : Option α} {stored : α} :
    ¬(incoming.any (· ≠ stored)) = true ↔ incoming ∈ [none, some stored] := by
  cases incoming <;> simp

theorem linked_iff {α : Type} [DecidableEq α] {incoming stored : Option α} :
    ¬(incoming.any fun value => stored.any (value ≠ ·)) = true ↔
      incoming = none ∨ stored = none ∨ incoming = stored := by
  cases incoming <;> cases stored <;> simp

theorem kind_kept_iff {current : TraceGraphNodeKind} {incoming : Option TraceGraphNodeKind} :
    (∃ kind, resolveGraphNodeKind (some current) incoming = .ok kind) ↔
      incoming ∈ [none, some current] := by
  unfold resolveGraphNodeKind
  cases incoming with
  | none => simp
  | some kind => by_cases same : kind = current <;> simp [same]

theorem apply_ok_iff (row : ReducedTraceGraphNode) (kept : mutation.remove = false) :
    (∃ updated, row.apply mutation = .ok updated) ↔ mutation.Fits (some (.node row)) := by
  simp only [TraceGraphNodeMutation.Fits, kept, Bool.false_eq_true, false_or]
  constructor
  · rintro ⟨updated, applied⟩
    obtain ⟨⟨⟩, forwards, applied⟩ := bind_eq_ok.mp applied
    obtain ⟨kind, kinds, applied⟩ := bind_eq_ok.mp applied
    obtain ⟨⟨⟩, named, applied⟩ := bind_eq_ok.mp applied
    obtain ⟨⟨⟩, within, applied⟩ := bind_eq_ok.mp applied
    obtain ⟨⟨⟩, owned, applied⟩ := bind_eq_ok.mp applied
    obtain ⟨⟨⟩, called, -⟩ := bind_eq_ok.mp applied
    exact ⟨not_lt.mp (reject_eq_ok.mp forwards), kind_kept_iff.mp ⟨kind, kinds⟩,
      kept_iff.mp (reject_eq_ok.mp named), kept_iff.mp (reject_eq_ok.mp within),
      linked_iff.mp (reject_eq_ok.mp owned), linked_iff.mp (reject_eq_ok.mp called)⟩
  · rintro ⟨forwards, kinds, named, within, owned, called⟩
    obtain ⟨kind, kinds⟩ := kind_kept_iff.mpr kinds
    refine ⟨row.updated mutation, ?_⟩
    unfold ReducedTraceGraphNode.apply
    refine bind_eq_ok.mpr ⟨⟨⟩, reject_eq_ok.mpr (not_lt.mpr forwards), ?_⟩
    refine bind_eq_ok.mpr ⟨kind, kinds, ?_⟩
    refine bind_eq_ok.mpr ⟨⟨⟩, reject_eq_ok.mpr (kept_iff.mpr named), ?_⟩
    refine bind_eq_ok.mpr ⟨⟨⟩, reject_eq_ok.mpr (kept_iff.mpr within), ?_⟩
    refine bind_eq_ok.mpr ⟨⟨⟩, reject_eq_ok.mpr (linked_iff.mpr owned), ?_⟩
    exact bind_eq_ok.mpr ⟨⟨⟩, reject_eq_ok.mpr (linked_iff.mpr called), rfl⟩

theorem applyMutation_ok_iff : (∃ after, applyGraphNodeMutation revisions mutation = .ok after) ↔
    mutation.Fits (revisions.get? mutation.key) := by
  have revised : (∃ after, applyGraphNodeMutation revisions mutation = .ok after) ↔
      ∃ revision, mutation.revise (revisions.get? mutation.key) = .ok revision := by
    unfold applyGraphNodeMutation
    cases mutation.revise (revisions.get? mutation.key) <;> simp [Except.map]
  rw [revised]
  unfold TraceGraphNodeMutation.revise
  by_cases removes : mutation.remove = true
  · simp only [removes, if_true, Except.ok.injEq, exists_eq', true_iff]
    cases revisions.get? mutation.key with
    | none => trivial
    | some revision => cases revision <;> exact .inl removes
  · simp only [removes, Bool.false_eq_true, if_false]
    have kept : mutation.remove = false := by simpa using removes
    cases revisions.get? mutation.key with
    | none => simp [TraceGraphNodeMutation.Fits]
    | some revision =>
      cases revision with
      | node row =>
        rw [← apply_ok_iff row kept]
        cases applied : row.apply mutation <;> simp [applied, Except.map]
      | tombstone nodeId runId updatedSeq =>
        cases created : mutation.created <;>
          simp [TraceGraphNodeMutation.Fits, kept, created]

/-- A list of mutations is accepted exactly when each fits in its turn. -/
theorem applyMutations_ok_iff (mutations : List TraceGraphNodeMutation) :
    mutations.foldlM applyGraphNodeMutation revisions = .ok after ↔
      FitInOrder revisions mutations ∧ mutations.foldl absorb revisions = after := by
  induction mutations generalizing revisions with
  | nil => simp [FitInOrder, pure, Except.pure]
  | cons mutation mutations ih =>
    simp only [List.foldlM_cons, bind_eq_ok, FitInOrder, List.foldl_cons,
      ← applyMutation_ok_iff]
    constructor
    · rintro ⟨middle, applied, rest⟩
      have absorbed : absorb revisions mutation = middle := by
        simp [absorb, applied, Except.toOption]
      exact ⟨⟨⟨middle, applied⟩, absorbed ▸ (ih.mp rest).1⟩, absorbed ▸ (ih.mp rest).2⟩
    · rintro ⟨⟨⟨middle, applied⟩, fits⟩, equal⟩
      have absorbed : absorb revisions mutation = middle := by
        simp [absorb, applied, Except.toOption]
      exact ⟨middle, applied, ih.mpr ⟨absorbed ▸ fits, absorbed ▸ equal⟩⟩

theorem applyEvents_ok_iff (events : List TraceEvent) :
    (∃ after, applyGraphEvents revisions events = .ok after) ↔ Replays revisions events := by
  induction events generalizing revisions with
  | nil => simp [applyGraphEvents, Replays, pure, Except.pure]
  | cons event events ih =>
    simp only [applyGraphEvents, List.foldlM_cons, bind_eq_ok, applyGraphEvent, Replays,
      applyMutations_ok_iff] at ih ⊢
    constructor
    · rintro ⟨after, middle, ⟨mutations, proposed, explicit, ⟨fits, rfl⟩, closes, rfl⟩, rest⟩
      exact ⟨mutations, proposed, fits, closes, ih.mp ⟨after, rest⟩⟩
    · rintro ⟨mutations, proposed, fits, closes, rest⟩
      obtain ⟨after, rest⟩ := ih.mpr rest
      exact ⟨after, _, ⟨mutations, proposed, _, ⟨fits, rfl⟩, closes, rfl⟩, rest⟩

end Fits

/-! ## Effects with and without events -/

/-- A resolution that yields an effect without events. -/
def Silent (outcome : Except TracingError TraceLedgerStorageEffect) : Prop :=
  ∀ effect, outcome = .ok effect → effect.validatedEvents = []

theorem silent_ok {effect : TraceLedgerStorageEffect} (silent : effect.validatedEvents = []) :
    Silent (.ok effect) := by
  rintro _ ⟨⟩
  exact silent

theorem silent_error (error : TracingError) : Silent (.error error) := by
  rintro _ ⟨⟩

theorem Silent.bind {α : Type} {first : Except TracingError α}
    {next : α → Except TracingError TraceLedgerStorageEffect} (silent : ∀ value, Silent (next value)) :
    Silent (first >>= next) := by
  intro effect returned
  obtain ⟨value, -, returned⟩ := bind_eq_ok.mp returned
  exact silent value effect returned

section Effects

variable {encodedLength : TraceEvent → Nat} {change : TraceLedgerChange} {state : TraceLedgerState}
  {fresh : String} {effect : TraceLedgerStorageEffect}

theorem resolveOpenWriter_silent : Silent (resolveOpenWriter change state fresh) := by
  unfold resolveOpenWriter
  split
  · refine .bind fun thread => ?_
    split
    · unfold reopenWriter
      simp only
      split
      · exact .bind fun _ => silent_ok rfl
      · exact .bind fun _ => .bind fun _ => .bind fun _ => silent_ok rfl
    · unfold admitWriter
      exact .bind fun _ => .bind fun _ => .bind fun _ => .bind fun _ => silent_ok rfl
  · exact silent_error _

theorem resolveProvenAppend_silent : Silent (resolveProvenAppend change state) := by
  unfold resolveProvenAppend
  split
  · exact silent_error _
  · exact .bind fun _ => .bind fun _ => silent_ok rfl

theorem resolveRenewWriter_silent : Silent (resolveRenewWriter change state) :=
  .bind fun _ => .bind fun _ => silent_ok rfl

theorem resolveCloseWriter_silent : Silent (resolveCloseWriter change state) := by
  unfold resolveCloseWriter
  split
  · simp only
    split
    · split
      · exact silent_ok rfl
      · split <;> exact silent_ok rfl
    · exact silent_ok rfl
  · exact silent_error _

theorem resolveSaveCheckpoint_silent : Silent (resolveSaveCheckpoint change state) := by
  have advanced (checkpoint : TraceProjectionCheckpoint) (payload : List UInt8)
      (digest : String) : Silent (advanceCheckpoint change state checkpoint payload digest) :=
    .bind fun _ => .bind fun _ => silent_ok rfl
  unfold resolveSaveCheckpoint
  split
  · refine .bind fun _ => .bind fun _ => ?_
    split
    · split
      · exact .bind fun _ => silent_ok rfl
      · exact advanced _ _ _
    · exact advanced _ _ _
  · exact silent_error _

theorem resolveDeleteGeneration_silent : Silent (resolveDeleteGeneration change state) := by
  unfold resolveDeleteGeneration
  split
  · exact silent_error _
  · exact .bind fun _ => .bind fun _ => silent_ok rfl

/-- The effect of an append that commits events. -/
structure Appends (change : TraceLedgerChange) (state : TraceLedgerState)
    (effect : TraceLedgerStorageEffect) (thread : TraceLedgerThreadState) : Prop where
  stored : state.thread = some thread
  named : change.key = some thread.key
  result : effect.result.key = some thread.key
  head : ∃ next, effect.thread = some next ∧ next.key = thread.key
  keeps : effect.deleteGeneration = false ∧ effect.removeThread = false
  events : effect.validatedEvents ≠ []
  paired : effect.validatedEvents.length = change.facts.length
  checkpoint : effect.checkpoint = none

/-- A resolved change commits no events, or appends some to the thread that it names. -/
theorem resolved_events
    (resolved : resolveLedgerChange encodedLength change state fresh = .ok effect) :
    effect.validatedEvents = [] ∨ ∃ thread, Appends change state effect thread := by
  unfold resolveLedgerChange at resolved
  obtain ⟨-, -, resolved⟩ := bind_eq_ok.mp resolved
  split at resolved
  · exact .inl (resolveOpenWriter_silent effect resolved)
  · unfold resolveAppendEvents at resolved
    split at resolved
    · exact .inl (resolveProvenAppend_silent effect resolved)
    · split at resolved
      · cases resolved
      · next facts =>
          obtain ⟨⟨thread, writer⟩, owned, resolved⟩ := bind_eq_ok.mp resolved
          obtain ⟨named, -, stored, -⟩ := ownedWriter_eq_ok owned
          obtain ⟨-, -, resolved⟩ := bind_eq_ok.mp resolved
          obtain ⟨flags, -, resolved⟩ := bind_eq_ok.mp resolved
          obtain ⟨events, made, resolved⟩ := bind_eq_ok.mp resolved
          obtain ⟨-, -, resolved⟩ := bind_eq_ok.mp resolved
          obtain ⟨expires, -, resolved⟩ := bind_eq_ok.mp resolved
          obtain ⟨mutations, -, resolved⟩ := bind_eq_ok.mp resolved
          obtain rfl := Except.ok.inj resolved
          have length := appendedEvents_length made
          refine .inr ⟨thread, stored, named, rfl, ⟨_, rfl, rfl⟩, ⟨rfl, rfl⟩, fun none => ?_, length,
            rfl⟩
          have empty : change.facts = [] :=
            List.eq_nil_of_length_eq_zero (length.symm.trans (List.length_eq_zero_iff.mpr none))
          exact facts (by simp [empty])
  · exact .inl (resolveRenewWriter_silent effect resolved)
  · exact .inl (resolveCloseWriter_silent effect resolved)
  · exact .inl (resolveSaveCheckpoint_silent effect resolved)
  · exact .inl (resolveDeleteGeneration_silent effect resolved)

end Effects

/-! ## What an effect leaves -/

section Application

open EStateM

variable {encodedLength : TraceEvent → Nat} {change : TraceLedgerChange} {now : Nat}
  {fresh : String} {backend : MemoryTraceBackend} {effect : TraceLedgerStorageEffect}
  {identity : ThreadIdentity}

theorem modifyThread_stored {thread : IndexedThread} {update : IndexedThread → IndexedThread}
    {returned : PUnit → MemoryTraceBackend → Prop} {raised : TracingError → MemoryTraceBackend → Prop}
    (stored : backend.get? identity = some thread) :
    (modifyThread identity update).Ensures backend returned raised ↔
      returned ⟨⟩ (backend.insert identity (update thread)) := by
  simp [modifyThread, stored]

theorem onGraphNodes_stored {thread : IndexedThread} {program : GraphM Unit}
    {returned : PUnit → MemoryTraceBackend → Prop} {raised : TracingError → MemoryTraceBackend → Prop}
    (stored : backend.get? identity = some thread) :
    (onGraphNodes identity program).Ensures backend returned raised ↔
      program.Ensures thread.graphNodes
        (fun _ graphNodes => returned ⟨⟩ (backend.insert identity { thread with graphNodes }))
        fun error graphNodes => raised error (backend.insert identity { thread with graphNodes }) := by
  unfold Ensures
  simp only [EStateM.run, onGraphNodes, stored]
  cases program thread.graphNodes <;> rfl

theorem onGraphNodes_absent {program : GraphM Unit}
    {returned : PUnit → MemoryTraceBackend → Prop} {raised : TracingError → MemoryTraceBackend → Prop}
    (absent : backend.get? identity = none) :
    (onGraphNodes identity program).Ensures backend returned raised ↔ returned ⟨⟩ backend := by
  unfold Ensures
  simp only [EStateM.run, onGraphNodes, absent]

theorem applyEffect_silent (silent : effect.validatedEvents = []) :
    (applyEffect change effect).Ensures backend (fun _ _ => True) fun _ _ => False := by
  unfold applyEffect
  simp only [ensures_ite, ensures_modify, implies_true, true_and, ensures_bind]
  intro _
  cases effect.result.key <|> change.key with
  | none => trivial
  | some key =>
    simp only [modifyThread, silent, ensures_bind, ensures_modify, ensures_get, ne_eq,
      not_true_eq_false, and_false, if_false]
    generalize Option.elim _ _ _ = middle
    cases stored : middle.get? key.toThreadIdentity with
    | none => exact (onGraphNodes_absent stored).mpr trivial
    | some thread => exact (onGraphNodes_stored stored).mpr trivial

/-- An append writes its rows and then raises unless the reducer accepts its events. -/
theorem applyEffect_appends {state : TraceLedgerState} {head : TraceLedgerThreadState}
    {thread : IndexedThread} (appends : Appends change state effect head)
    (stored : backend.get? head.key.toThreadIdentity = some thread) :
    (applyEffect change effect).Ensures backend
      (fun _ _ => Replays thread.graphNodes effect.validatedEvents)
      fun _ after => ¬Replays thread.graphNodes effect.validatedEvents ∧ after ≠ backend := by
  obtain ⟨next, isHead, same⟩ := appends.head
  have kept : ¬(effect.deleteGeneration = true ∨ effect.removeThread = true) := by
    simp [appends.keeps]
  have keyed : (effect.result.key <|> change.key) = some head.key := by
    rw [appends.result]
    rfl
  unfold applyEffect
  simp only [kept, if_false, keyed, ensures_bind, ensures_modify, MemoryTraceBackend.withThread,
    isHead, same, stored, Option.elim_some]
  rw [modifyThread_stored (Dict.get?_insert_self _ _ _), Dict.insert_insert,
    modifyThread_stored (Dict.get?_insert_self _ _ _), Dict.insert_insert, ensures_get]
  simp only [Dict.get?_insert_self, Option.isSome_some, appends.events, ne_eq, not_false_eq_true,
    and_true, if_true, storeEvents, ensures_bind]
  rw [modifyThread_stored (Dict.get?_insert_self _ _ _), Dict.insert_insert]
  simp only [ensures_ofExcept, appends.paired, lt_self_iff_false, reject_eq_ok, reject_eq_error,
    not_false_eq_true, false_and, forall_const]
  rw [onGraphNodes_stored (Dict.get?_insert_self _ _ _)]
  refine ⟨⟨?_, by simp⟩, by simp⟩
  refine (writeGraphEvents_mirrors effect.validatedEvents thread.graphNodes).mono
    (fun _ nodes accepted => ?_) fun error nodes refused => ⟨fun replays => ?_, fun equal => ?_⟩
  · rw [modifyThread_stored (Dict.get?_insert_self _ _ _)]
    exact (applyEvents_ok_iff _).mp ⟨nodes, accepted⟩
  · obtain ⟨after, accepted⟩ := (applyEvents_ok_iff _).mpr replays
    cases refused.symm.trans accepted
  · -- the records of the events are in the thread by now
    have found := congrArg (Dict.get? · head.key.toThreadIdentity) equal
    simp only [Dict.get?_insert_self, stored, Option.some.injEq] at found
    have lengths := congrArg (·.events.length) found
    simp only [List.length_append, List.length_zipWith, appends.paired, min_self] at lengths
    have positive := List.length_pos_of_ne_nil appends.events
    have paired := appends.paired
    omega

end Application

namespace MemoryTraceBackend

open EStateM

variable (encodedLength : TraceEvent → Nat)

/-- One request against the backend. -/
def commit (request : LedgerEvent) : BackendM TraceLedgerCommitResult :=
  commitLedgerChange encodedLength request.change request.now request.fresh

/-- The backend after a request, whether it raised or not. -/
def next (backend : MemoryTraceBackend) (request : LedgerEvent) : MemoryTraceBackend :=
  (commit encodedLength request).final backend

/-- A request that raises leaves the backend as it was. -/
def Atomic (backend : MemoryTraceBackend) (request : LedgerEvent) : Prop :=
  ∀ error, (commit encodedLength request).outcome backend = .error error →
    next encodedLength backend request = backend

/-- The events that a request appends replay on the graph index of the thread that it names. -/
def Fits (backend : MemoryTraceBackend) (request : LedgerEvent) : Prop :=
  ∀ effect, LedgerState.resolved encodedLength backend.ledger request = .ok effect →
    ∀ key thread, request.change.key = some key → backend.get? key.toThreadIdentity = some thread →
      Replays thread.graphNodes effect.validatedEvents

variable {encodedLength} {backend : MemoryTraceBackend} {request : LedgerEvent}

theorem ensures_commit {returned : TraceLedgerCommitResult → MemoryTraceBackend → Prop}
    {raised : TracingError → MemoryTraceBackend → Prop} :
    (commit encodedLength request).Ensures backend returned raised ↔
      (∀ effect, LedgerState.resolved encodedLength backend.ledger request = .ok effect →
        (applyEffect request.change effect).Ensures backend (fun _ => returned effect.result)
          raised) ∧
      ∀ error, LedgerState.resolved encodedLength backend.ledger request = .error error →
        raised error backend := by
  simp only [commit, commitLedgerChange, ensures_bind, ensures_get, ensures_ofExcept,
    ensures_pure, LedgerState.resolved]
  cases loaded : backend.ledger.stateForChange request.change request.now with
  | error error => simp [Except.bind]
  | ok state => simp [Except.bind]

theorem atomic_iff_ensures : Atomic encodedLength backend request ↔
    (commit encodedLength request).Ensures backend (fun _ _ => True) fun _ after =>
      after = backend := by
  unfold Atomic next outcome EStateM.final Ensures
  cases (commit encodedLength request).run backend <;> simp

/-- The thread that an append names is stored under its own identity. -/
theorem appends_stored {effect : TraceLedgerStorageEffect}
    (resolved : LedgerState.resolved encodedLength backend.ledger request = .ok effect) :
    effect.validatedEvents = [] ∨ ∃ state head thread, Appends request.change state effect head ∧
      backend.get? head.key.toThreadIdentity = some thread := by
  unfold LedgerState.resolved MemoryLedger.stateForChange at resolved
  cases target : request.change.target with
  | error error => simp [target, Except.map, Except.bind] at resolved
  | ok found =>
    obtain ⟨identity, runId⟩ := found
    simp only [target, Except.map, Except.bind] at resolved
    refine (resolved_events resolved).imp_right fun ⟨head, appends⟩ => ?_
    have valid := (bind_eq_ok.mp resolved).choose_spec.1
    have named := (scope_identity valid target).1 _ appends.named
    have present := loadState_thread.mp appends.stored
    obtain ⟨stored, found, -⟩ := present
    rw [ledger, Dict.get?_mapValues] at found
    cases kept : backend.get? identity with
    | none => simp [kept] at found
    | some thread => exact ⟨_, head, thread, appends, named ▸ kept⟩

/-- A request is atomic exactly when the events that it appends fit the graph index. -/
theorem atomic_iff : Atomic encodedLength backend request ↔ Fits encodedLength backend request := by
  rw [atomic_iff_ensures, ensures_commit]
  simp only [implies_true, and_true]
  refine forall₂_congr fun effect resolved => ?_
  obtain silent | ⟨state, head, thread, appends, stored⟩ := appends_stored resolved
  · refine iff_of_true ?_ fun _ _ _ _ => by rw [silent]; trivial
    exact (applyEffect_silent silent).mono (fun _ _ => id) fun _ _ => False.elim
  · have applied := applyEffect_appends appends stored
    constructor
    · intro kept key other named found
      obtain rfl := Option.some.inj (appends.named.symm.trans named)
      obtain rfl := Option.some.inj (stored.symm.trans found)
      obtain ⟨_, -, replays, -⟩ | ⟨-, _, ⟨-, changed⟩, same⟩ := (applied.and kept).outcome
      · exact replays
      · exact absurd same changed
    · intro fits
      have replays := fits _ _ appends.named stored
      exact applied.mono (fun _ _ _ => trivial) fun _ _ refused => absurd replays refused.1

/-- Whether a request that raises leaves the backend as it was depends on the graph index alone: it
does, in every state, exactly when the request is refused before anything is written or its events
replay on the index.  In a run whose requests all fit, no raising request leaves anything behind. -/
theorem commit_atomic (encodedLength : TraceEvent → Nat) :
    (∀ backend request, Atomic encodedLength backend request ↔
      Fits encodedLength backend request) ∧
    ∀ requests, Machine.Guarded (next encodedLength) (Fits encodedLength) .empty requests →
      ∀ before request after, requests = before ++ request :: after →
        Atomic encodedLength (Machine.run (next encodedLength) .empty before) request := by
  refine ⟨fun _ _ => atomic_iff, ?_⟩
  rintro _ fits before request after rfl
  exact atomic_iff.mpr (Machine.guarded_append.mp fits).2.1

/-! ## A conflict that is found too late -/

/-- A Run whose writer opens a thread. -/
def sampleRun : RunIdentity :=
  { «namespace» := "tenant", threadId := "thread", runId := "run" }

def sampleOpening : LedgerEvent where
  change :=
    { kind := .openWriter
      «namespace» := "tenant"
      limits := {}
      identity := some sampleRun
      ownerToken := some "owner" }
  now := 0
  fresh := "generation"

/-- An append of one start of an Assistant message in a graph namespace. -/
def sampleMessage (graphNamespace : List String) : LedgerEvent where
  change :=
    { kind := .appendEvents
      «namespace» := "tenant"
      limits := {}
      key := some { «namespace» := "tenant", threadId := "thread", generation := "generation" }
      runId := some "run"
      ownerToken := some "owner"
      fence := some 1
      facts :=
        [{ eventId := "event"
           fact := .message
            { occurredAt := 0
              identity := sampleRun
              graphNamespace
              phase := .started
              messageId := "message"
              role := .assistant } }] }
  now := 0
  fresh := "unused"

/-- Records and next sequence of the thread of the sample Run. -/
def sampleHead (backend : MemoryTraceBackend) : Option (Nat × Int) :=
  (backend.get? sampleRun.toThreadIdentity).map fun thread =>
    (thread.events.length, thread.state.nextSeq)

/-- A message that is started again in another namespace is refused once its event is stored and the
head of the thread is advanced. -/
theorem refused_append_stays :
    ¬Atomic (fun _ => 1) (Machine.run (next fun _ => 1) .empty [sampleOpening, sampleMessage []])
      (sampleMessage ["tools:1"]) := by
  intro atomic
  rw [atomic_iff_ensures] at atomic
  have raises : (commit (fun _ => 1) (sampleMessage ["tools:1"])).value?
      (Machine.run (next fun _ => 1) .empty [sampleOpening, sampleMessage []]) |>.isNone := by
    decide +kernel
  have advanced : sampleHead (next (fun _ => 1)
      (Machine.run (next fun _ => 1) .empty [sampleOpening, sampleMessage []])
      (sampleMessage ["tools:1"])) = some (2, 3) := by
    decide +kernel
  have start : sampleHead (Machine.run (next fun _ => 1) .empty
      [sampleOpening, sampleMessage []]) = some (1, 2) := by
    decide +kernel
  obtain ⟨value, returned, -⟩ | ⟨-, -, same⟩ := atomic.outcome
  · rw [returned] at raises
    cases raises
  · rw [next, same, start] at advanced
    cases advanced

end MemoryTraceBackend

end Tinkerfin.Tracing
