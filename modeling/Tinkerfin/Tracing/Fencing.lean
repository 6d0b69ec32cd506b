import Tinkerfin.Tracing.Accounting

/-!
# Run lifecycle and writer fencing

The facts of a Run end with one terminal and one closed fact, in this order.  Its writer row carries
the fence: a takeover raises it, only the holder of the current token and fence changes rows, and a
generation with an unexpired active writer is not deleted.
-/

namespace Tinkerfin.Tracing

open Messaging (RunIdentity ThreadIdentity bind_eq_ok)

/-! ## Lifecycle of a Run -/

/-- The phases of a Run, in the order in which its facts were committed, respect its lifecycle. -/
structure Lifecycle (phases : List (Option RunPhase)) : Prop where
  terminal : phases.count (some .terminal) ≤ 1
  closed : phases.count (some .closed) ≤ 1
  ordered : ∀ before after, phases = before ++ some .closed :: after → some .terminal ∈ before
  final : ∀ before after, phases = before ++ some .terminal :: after →
    ∀ phase ∈ after, phase = some .closed

/-- What a Run with these flags committed after its ordinary facts. -/
def ending (terminal closed : Bool) : List RunPhase :=
  (if terminal then [.terminal] else []) ++ if closed then [.closed] else []

/-- The phases of a Run whose writer row carries these flags. -/
structure Reached (terminal closed : Bool) (phases : List (Option RunPhase)) : Prop where
  split : ∃ ordinary, (∀ phase ∈ ordinary, phase ≠ some .terminal ∧ phase ≠ some .closed) ∧
    phases = ordinary ++ (ending terminal closed).map some
  closes : closed = true → terminal = true

theorem split_after {α : Type} {first second before after : List α} {item : α}
    (absent : item ∉ first) (same : first ++ second = before ++ item :: after) :
    ∃ middle, before = first ++ middle ∧ second = middle ++ item :: after := by
  obtain ⟨middle, rfl, equal⟩ | ⟨rest, rfl, equal⟩ := List.append_eq_append_iff.mp same
  · exact ⟨middle, rfl, equal⟩
  · cases rest with
    | nil => exact ⟨[], by simp, by simpa using equal.symm⟩
    | cons head tail =>
      obtain ⟨rfl, -⟩ := List.cons.inj equal
      simp at absent

theorem Reached.lifecycle {terminal closed : Bool} {phases : List (Option RunPhase)}
    (reached : Reached terminal closed phases) : Lifecycle phases := by
  obtain ⟨⟨ordinary, plain, rfl⟩, closes⟩ := reached
  have noTerminal : some .terminal ∉ ordinary := fun member => (plain _ member).1 rfl
  have noClosed : some .closed ∉ ordinary := fun member => (plain _ member).2 rfl
  constructor
  · rw [List.count_append, List.count_eq_zero.mpr noTerminal]
    cases terminal <;> cases closed <;> simp [ending]
  · rw [List.count_append, List.count_eq_zero.mpr noClosed]
    cases terminal <;> cases closed <;> simp [ending]
  · intro before after same
    obtain ⟨middle, rfl, rest⟩ := split_after noClosed same
    cases middle with
    | nil => cases terminal <;> cases closed <;> simp [ending] at rest closes
    | cons head tail => cases terminal <;> cases closed <;> simp_all [ending]
  · intro before after same
    obtain ⟨middle, rfl, rest⟩ := split_after noTerminal same
    cases middle with
    | nil =>
      obtain rfl : after = if closed then [some .closed] else [] := by
        cases terminal <;> cases closed <;> simp_all [ending]
      cases closed <;> simp
    | cons head tail => cases tail <;> cases terminal <;> cases closed <;> simp [ending] at rest

/-! ## Lifecycle of a batch -/

/-- Terminal and closed facts of one batch, each at most once and the terminal first. -/
theorem eq_ending {phases : List RunPhase}
    (last : ∀ phase ∈ phases, phase = .terminal ∨ phase = .closed)
    (terminal : phases.count .terminal ≤ 1) (closed : phases.count .closed ≤ 1)
    (ordered : .closed ∈ phases → .terminal ∈ phases →
      phases.idxOf .terminal < phases.idxOf .closed) :
    phases = ending (decide (.terminal ∈ phases)) (decide (.closed ∈ phases)) := by
  rcases phases with _ | ⟨first, _ | ⟨second, _ | ⟨third, rest⟩⟩⟩
  · rfl
  · obtain rfl | rfl := last first (by simp) <;> rfl
  · obtain rfl | rfl := last first (by simp) <;> obtain rfl | rfl := last second (by simp)
    · simp at terminal
    · rfl
    · simp at ordered
    · simp at closed
  · obtain rfl | rfl := last first (by simp) <;> obtain rfl | rfl := last second (by simp) <;>
      obtain rfl | rfl := last third (by simp) <;> simp at terminal closed

theorem map_runPhase? {facts : List TraceSemanticFact} (all : facts.all (·.isTerminal) = true) :
    facts.map (·.runPhase?) = (facts.filterMap (·.runPhase?)).map some := by
  induction facts with
  | nil => rfl
  | cons fact facts ih =>
    simp only [List.all_cons, Bool.and_eq_true] at all
    cases phase : fact.runPhase? with
    | none => simp [TraceSemanticFact.isTerminal, phase] at all
    | some phase' => simp [phase, ih all.2]

theorem isTerminal_eq_true {fact : TraceSemanticFact} : fact.isTerminal = true ↔
    fact.runPhase? = some .terminal ∨ fact.runPhase? = some .closed := by
  simp [TraceSemanticFact.isTerminal]

/-- A batch that passes its checks takes a Run from the flags of its row to the new flags. -/
theorem Reached.appended {change : TraceLedgerChange} {writer : TraceLedgerWriterState}
    {facts : List TraceSemanticFact} {flags : Bool × Bool} {phases : List (Option RunPhase)}
    (reached : Reached writer.terminalCommitted writer.closedCommitted phases)
    (batch : checkBatch change facts = .ok ())
    (flagged : lifecycleFlags change.mandatory writer facts = .ok flags) :
    Reached flags.1 flags.2 (phases ++ facts.map (·.runPhase?)) := by
  simp only [checkBatch, bind_eq_ok, reject_eq_ok, not_and, Bool.not_eq_true, ne_eq,
    not_not] at batch
  obtain ⟨-, plain, -, all, -⟩ := batch
  obtain ⟨⟨ordinary, before, rfl⟩, -⟩ := reached
  unfold lifecycleFlags at flagged
  split at flagged
  · next mandatory =>
      simp only [bind_eq_ok, reject_eq_ok, pure, Except.pure, Except.ok.injEq] at flagged
      obtain ⟨-, counts, -, once, -, opened, -, sequenced, rfl⟩ := flagged
      obtain ⟨terminal, closed⟩ := not_or.mp counts
      have opened : writer.closedCommitted = false := by simpa using opened
      have ordered (hasClosed : .closed ∈ facts.filterMap (·.runPhase?)) :=
        not_not.mp fun missing => sequenced ⟨hasClosed, missing⟩
      have last : ∀ phase ∈ facts.filterMap (·.runPhase?), phase = .terminal ∨ phase = .closed := by
        intro phase member
        obtain ⟨fact, isFact, has⟩ := List.mem_filterMap.mp member
        have isLast := List.all_eq_true.mp (all.symm.trans mandatory) fact isFact
        simpa [isTerminal_eq_true, has] using isLast
      rw [map_runPhase? (all.symm.trans mandatory)]
      generalize facts.filterMap (·.runPhase?) = batchPhases at *
      have batchEnding := eq_ending last (not_lt.mp terminal) (not_lt.mp closed)
        fun hasClosed hasTerminal => (ordered hasClosed).elim
          (fun committed => absurd ⟨committed, hasTerminal⟩ once) And.right
      constructor
      · refine ⟨ordinary, before, ?_⟩
        rw [List.append_assoc, ← List.map_append]
        congr 2
        conv_lhs => rw [batchEnding]
        cases committed : writer.terminalCommitted with
        | false => simp [ending, opened]
        | true =>
          have absent : .terminal ∉ batchPhases := fun member => once ⟨committed, member⟩
          simp [ending, opened, absent]
      · intro hasClosed
        obtain committed | ⟨hasTerminal, -⟩ := ordered (of_decide_eq_true hasClosed)
        · simp [committed]
        · simp [hasTerminal]
  · next ordinaryBatch =>
      simp only [bind_eq_ok, reject_eq_ok, pure, Except.pure, Except.ok.injEq, not_or,
        Bool.not_eq_true] at flagged
      obtain ⟨-, ⟨terminal, closed⟩, rfl⟩ := flagged
      have none := plain (by simpa using ordinaryBatch)
      refine ⟨⟨ordinary ++ facts.map (·.runPhase?), fun phase member => ?_, ?_⟩, ?_⟩
      · obtain earlier | added := List.mem_append.mp member
        · exact before phase earlier
        · obtain ⟨fact, isFact, rfl⟩ := List.mem_map.mp added
          have notLast := List.any_eq_false.mp none fact isFact
          simpa [isTerminal_eq_true] using notLast
      · simp [terminal, closed, ending]
      · simp [closed]

/-! ## Recorded lifecycles -/

/-- The phases of the committed facts of one Run. -/
def MemoryThread.runPhases (thread : MemoryThread) (runId : String) : List (Option RunPhase) :=
  ((thread.events.map (·.validatedEvent.fact)).filter fun fact => fact.identity.runId = runId).map
    (·.runPhase?)

/-- The writer rows of a thread agree with its committed facts. -/
structure MemoryThread.Recorded (thread : MemoryThread) : Prop where
  held : ∀ runId writer, thread.writers.get? runId = some writer →
    Reached writer.terminalCommitted writer.closedCommitted (thread.runPhases runId) ∧
      writer.committedEvents = (thread.runPhases runId).length
  absent : ∀ runId, thread.writers.get? runId = none → thread.runPhases runId = []

theorem reached_nil : Reached false false [] :=
  ⟨⟨[], by simp, by simp [ending]⟩, by simp⟩

theorem MemoryThread.Recorded.lifecycle {thread : MemoryThread} (recorded : thread.Recorded)
    (runId : String) : Lifecycle (thread.runPhases runId) := by
  cases stored : thread.writers.get? runId with
  | none => exact recorded.absent runId stored ▸ reached_nil.lifecycle
  | some writer => exact (recorded.held runId writer stored).1.lifecycle

section Recorded

variable {thread : MemoryThread} {writer : TraceLedgerWriterState}

/-- A row that agrees with the facts of its Run replaces another one. -/
theorem MemoryThread.Recorded.withWriter (recorded : thread.Recorded)
    (reached : Reached writer.terminalCommitted writer.closedCommitted
      (thread.runPhases writer.runId))
    (count : writer.committedEvents = (thread.runPhases writer.runId).length) :
    (thread.withWriter writer).Recorded := by
  constructor
  · intro runId other stored
    simp only [MemoryThread.withWriter, Dict.get?_insert] at stored
    split at stored
    · next same =>
        obtain rfl := Option.some.inj stored
        subst same
        exact ⟨reached, count⟩
    · exact recorded.held runId other stored
  · intro runId stored
    simp only [MemoryThread.withWriter, Dict.get?_insert] at stored
    split at stored
    · cases stored
    · exact recorded.absent runId stored

theorem MemoryThread.Recorded.replaced {updated : TraceLedgerWriterState}
    (recorded : thread.Recorded) (held : thread.writers.get? writer.runId = some writer)
    (run : updated.runId = writer.runId)
    (flags : updated.terminalCommitted = writer.terminalCommitted ∧
      updated.closedCommitted = writer.closedCommitted)
    (count : updated.committedEvents = writer.committedEvents) :
    (thread.withWriter updated).Recorded := by
  obtain ⟨reached, length⟩ := recorded.held writer.runId writer held
  refine recorded.withWriter ?_ ?_
  · rw [run, flags.1, flags.2]
    exact reached
  · rw [run, count]
    exact length

theorem MemoryThread.Recorded.admitted {runId ownerToken : String} {leaseExpiresAt : Nat}
    {change : TraceLedgerChange} (recorded : thread.Recorded)
    (absent : thread.writers.get? runId = none) :
    (thread.withWriter (admittedWriter change runId ownerToken leaseExpiresAt)).Recorded := by
  have nothing : thread.runPhases (admittedWriter change runId ownerToken leaseExpiresAt).runId =
      [] := recorded.absent runId absent
  exact recorded.withWriter (nothing ▸ reached_nil) (nothing ▸ rfl)

/-- A row without committed facts is discarded. -/
theorem MemoryThread.Recorded.erased (recorded : thread.Recorded)
    (held : thread.writers.get? writer.runId = some writer) (unused : writer.committedEvents = 0) :
    ({ thread with writers := thread.writers.erase writer.runId } : MemoryThread).Recorded := by
  constructor
  · intro runId other stored
    simp only [Dict.get?_erase] at stored
    split at stored
    · cases stored
    · exact recorded.held runId other stored
  · intro runId stored
    simp only [Dict.get?_erase] at stored
    split at stored
    · next same =>
        subst same
        have length := (recorded.held _ writer held).2
        rw [unused] at length
        exact List.length_eq_zero_iff.mp (by exact_mod_cast length.symm)
    · exact recorded.absent runId stored

variable {encodedLength : TraceEvent → Nat} {change : TraceLedgerChange} {events : List TraceEvent}

/-- A committed batch adds its facts to its own Run only. -/
theorem runPhases_extended {updated : TraceLedgerWriterState} {start : Int}
    (made : appendedEvents encodedLength change thread.state writer start change.facts = .ok events)
    (runId : String) :
    (thread.extended events change.facts updated).runPhases runId = thread.runPhases runId ++
      if runId = writer.runId then (change.facts.map (·.fact)).map (·.runPhase?) else [] := by
  obtain ⟨facts, -, owned⟩ := appendedEvents_eq_ok made
  have batch : (List.zipWith memoryStoredEvent events change.facts).map (·.validatedEvent.fact) =
      change.facts.map (·.fact) := by
    rw [map_zipWith_memoryStoredEvent (fun _ _ => rfl) (appendedEvents_length made), facts]
  have runs : ∀ fact ∈ change.facts.map (·.fact), fact.identity.runId = writer.runId := by
    intro fact member
    rw [← facts] at member
    obtain ⟨event, isEvent, rfl⟩ := List.mem_map.mp member
    exact (owned event isEvent).1
  simp only [MemoryThread.runPhases, MemoryThread.extended, List.map_append, List.filter_append,
    batch]
  congr 1
  split
  · next same =>
      rw [List.filter_eq_self.mpr fun fact member => by simp [runs fact member, same]]
  · next other =>
      rw [List.filter_eq_nil_iff.mpr fun fact member => by
        simp [runs fact member, Ne.symm other]]
      rfl

/-- A committed batch keeps its thread recorded. -/
theorem MemoryThread.Recorded.extended {flags : Bool × Bool} {leaseExpiresAt : Nat} {start : Int}
    (recorded : thread.Recorded) (held : thread.writers.get? writer.runId = some writer)
    (batch : checkBatch change (change.facts.map (·.fact)) = .ok ())
    (flagged : lifecycleFlags change.mandatory writer (change.facts.map (·.fact)) = .ok flags)
    (made : appendedEvents encodedLength change thread.state writer start change.facts =
      .ok events) :
    (thread.extended events change.facts
      (appendedWriter change writer events flags leaseExpiresAt)).Recorded := by
  obtain ⟨reached, length⟩ := recorded.held writer.runId writer held
  set updated := appendedWriter change writer events flags leaseExpiresAt with isUpdated
  constructor
  · intro runId other stored
    rw [runPhases_extended made]
    simp only [MemoryThread.extended, Dict.get?_insert] at stored
    split at stored
    · next same =>
        obtain rfl := Option.some.inj stored
        obtain rfl : runId = writer.runId := same
        refine ⟨?_, ?_⟩
        · simpa [isUpdated, appendedWriter] using reached.appended batch flagged
        · have count := appendedEvents_length made
          simp [isUpdated, appendedWriter, length, count]
    · next different =>
        have different : runId ≠ writer.runId := different
        simpa [different] using recorded.held runId other stored
  · intro runId stored
    rw [runPhases_extended made]
    simp only [MemoryThread.extended, Dict.get?_insert] at stored
    split at stored
    · cases stored
    · next different =>
        have different : runId ≠ writer.runId := different
        simpa [different] using recorded.absent runId stored

end Recorded

/-- Every transition keeps the rows of its thread in agreement with the committed facts. -/
theorem ThreadTransition.recorded {encodedLength : TraceEvent → Nat} {change : TraceLedgerChange}
    {now : Nat} {ledger : MemoryLedger} {identity : ThreadIdentity} {after : Option MemoryThread}
    {charge : LedgerAccount}
    (before : ∀ thread, ledger.get? identity = some thread → thread.Recorded)
    (transition : ThreadTransition encodedLength change now ledger identity after charge) :
    ∀ thread, after = some thread → thread.Recorded := by
  intro left equal
  cases transition with
  | created key runId ownerToken leaseExpiresAt kind absent named room admissible =>
    obtain rfl := Option.some.inj equal
    have fresh : (MemoryThread.mk ⟨key, 1, 0⟩ .empty [] .empty).Recorded :=
      ⟨fun runId writer stored => by simp at stored, fun runId _ => rfl⟩
    exact fresh.admitted (by simp)
  | admitted thread runId ownerToken leaseExpiresAt kind stored absent admissible =>
    obtain rfl := Option.some.inj equal
    exact (before thread stored).admitted absent
  | renewed thread writer leaseExpiresAt stored held active token owned =>
    obtain rfl := Option.some.inj equal
    exact (before thread stored).replaced held rfl ⟨rfl, rfl⟩ rfl
  | takenOver thread writer ownerToken leaseExpiresAt kind stored held active _ expired other =>
    obtain rfl := Option.some.inj equal
    exact (before thread stored).replaced held rfl ⟨rfl, rfl⟩ rfl
  | appended thread writer flags events leaseExpiresAt runId request includeActive kind stored held
      owned unexpired batch flagged made fits =>
      obtain rfl := Option.some.inj equal
      exact (before thread stored).extended held batch flagged made
  | discarded thread writer kind stored held owned unused =>
    obtain rfl := Option.some.inj equal
    exact (before thread stored).erased held unused
  | removed thread writer kind stored held owned unused empty only => cases equal
  | closed thread writer kind stored held owned used =>
    obtain rfl := Option.some.inj equal
    exact (before thread stored).replaced held rfl ⟨rfl, rfl⟩ rfl
  | checkpointed thread checkpoints kind stored =>
    obtain rfl := Option.some.inj equal
    exact ⟨(before thread stored).held, (before thread stored).absent⟩
  | deleted thread kind stored named inactive => cases equal

/-! ## Fenced rows -/

section Transitions

variable {encodedLength : TraceEvent → Nat} {change : TraceLedgerChange} {now : Nat}
  {ledger : MemoryLedger} {identity : ThreadIdentity} {after : Option MemoryThread}
  {charge : LedgerAccount}

/-- Appends, renewals and closes with an effect come from the holder of a row. -/
theorem ThreadTransition.heldBy
    (kind : change.kind = .appendEvents ∨ change.kind = .renewWriter ∨ change.kind = .closeWriter)
    (transition : ThreadTransition encodedLength change now ledger identity after charge) :
    ∃ thread writer, ledger.get? identity = some thread ∧
      thread.writers.get? writer.runId = some writer ∧ HeldBy change identity thread writer := by
  cases transition with
  | created key runId ownerToken leaseExpiresAt opens absent named room admissible =>
    simp [opens] at kind
  | admitted thread runId ownerToken leaseExpiresAt opens stored absent admissible =>
    simp [opens] at kind
  | renewed thread writer leaseExpiresAt stored held active token owned =>
    obtain opens | owned := owned
    · simp [opens] at kind
    · exact ⟨thread, writer, stored, held, owned⟩
  | takenOver thread writer ownerToken leaseExpiresAt opens stored held active _ expired other =>
    simp [opens] at kind
  | appended thread writer flags events leaseExpiresAt runId request includeActive _ stored held
      owned unexpired batch flagged made fits => exact ⟨thread, writer, stored, held, owned⟩
  | discarded thread writer _ stored held owned unused =>
    exact ⟨thread, writer, stored, held, owned⟩
  | removed thread writer _ stored held owned unused empty only =>
    exact ⟨thread, writer, stored, held, owned⟩
  | closed thread writer _ stored held owned used => exact ⟨thread, writer, stored, held, owned⟩
  | checkpointed thread checkpoints saves stored => simp [saves] at kind
  | deleted thread deletes stored named inactive => simp [deletes] at kind

/-- How the row of a Run may change while it stays. -/
def RowStep (change : TraceLedgerChange) (now : Nat) (before after : TraceLedgerWriterState) :
    Prop :=
  after.fence = before.fence ∧ after.ownerToken = before.ownerToken ∨
    change.kind = .openWriter ∧ before.active = true ∧ before.leaseExpiresAt ≤ now ∧
      after.ownerToken ≠ before.ownerToken ∧ after.fence = before.fence + 1

theorem RowStep.refl (change : TraceLedgerChange) (now : Nat) (row : TraceLedgerWriterState) :
    RowStep change now row row :=
  .inl ⟨rfl, rfl⟩

theorem rowStep_insert {writers : Dict String TraceLedgerWriterState}
    {writer updated before left : TraceLedgerWriterState} {runId : String}
    (held : writers.get? writer.runId = some writer) (found : writers.get? runId = some before)
    (stays : (writers.insert writer.runId updated).get? runId = some left)
    (step : RowStep change now writer updated) :
    RowStep change now before left := by
  rw [Dict.get?_insert] at stays
  split at stays
  · next same =>
      subst same
      obtain rfl := Option.some.inj stays
      obtain rfl := Option.some.inj (held.symm.trans found)
      exact step
  · obtain rfl := Option.some.inj (found.symm.trans stays)
    exact .refl change now before

/-- A row that stays keeps its holder and fence, or is taken over with the next fence. -/
theorem ThreadTransition.rowStep
    (transition : ThreadTransition encodedLength change now ledger identity after charge)
    {thread kept : MemoryThread} {runId : String} {before left : TraceLedgerWriterState}
    (stored : ledger.get? identity = some thread) (stays : after = some kept)
    (found : thread.writers.get? runId = some before)
    (remains : kept.writers.get? runId = some left) : RowStep change now before left := by
  cases transition with
  | created key newRun ownerToken leaseExpiresAt kind absent named room admissible =>
    simp [stored] at absent
  | admitted found' newRun ownerToken leaseExpiresAt kind present absent admissible =>
    obtain rfl := Option.some.inj stays
    obtain rfl := Option.some.inj (stored.symm.trans present)
    have different : runId ≠ newRun := by
      rintro rfl
      simp [found] at absent
    simp only [MemoryThread.withWriter, admittedWriter, Dict.get?_insert_of_ne _ _ different,
      found] at remains
    obtain rfl := Option.some.inj remains
    exact .refl change now before
  | renewed found' writer leaseExpiresAt present held active token owned =>
    obtain rfl := Option.some.inj stays
    obtain rfl := Option.some.inj (stored.symm.trans present)
    exact rowStep_insert held found remains (.inl ⟨rfl, rfl⟩)
  | takenOver found' writer ownerToken leaseExpiresAt kind present held active _ expired other =>
    obtain rfl := Option.some.inj stays
    obtain rfl := Option.some.inj (stored.symm.trans present)
    exact rowStep_insert held found remains (.inr ⟨kind, active, expired, other.symm, rfl⟩)
  | appended found' writer flags events leaseExpiresAt target request includeActive kind present
      held owned unexpired batch flagged made fits =>
      obtain rfl := Option.some.inj stays
      obtain rfl := Option.some.inj (stored.symm.trans present)
      exact rowStep_insert held found remains (.inl ⟨rfl, rfl⟩)
  | discarded found' writer kind present held owned unused =>
    obtain rfl := Option.some.inj stays
    obtain rfl := Option.some.inj (stored.symm.trans present)
    rw [Dict.get?_erase] at remains
    split at remains
    · cases remains
    · obtain rfl := Option.some.inj (found.symm.trans remains)
      exact .refl change now before
  | removed found' writer kind present held owned unused empty only => cases stays
  | closed found' writer kind present held owned used =>
    obtain rfl := Option.some.inj stays
    obtain rfl := Option.some.inj (stored.symm.trans present)
    exact rowStep_insert held found remains (.inl ⟨rfl, rfl⟩)
  | checkpointed found' checkpoints kind present =>
    obtain rfl := Option.some.inj stays
    obtain rfl := Option.some.inj (stored.symm.trans present)
    obtain rfl := Option.some.inj (found.symm.trans remains)
    exact .refl change now before
  | deleted found' kind present named inactive => cases stays

theorem lapsed_of_activeWriters {thread : MemoryThread} (inactive : thread.activeWriters now = [])
    {runId : String} {writer : TraceLedgerWriterState}
    (held : thread.writers.get? runId = some writer) (active : writer.active = true) :
    writer.leaseExpiresAt ≤ now := by
  by_contra unexpired
  have member : writer ∈ (thread.writers.entries.map Prod.snd).filter fun writer =>
      writer.active && decide (now < writer.leaseExpiresAt) := by
    refine List.mem_filter.mpr ⟨?_, by simp [active, not_le.mp unexpired]⟩
    exact List.mem_map.mpr ⟨(runId, writer), Dict.get?_eq_some_iff.mp held, rfl⟩
  simp only [MemoryThread.activeWriters, List.map_eq_nil_iff] at inactive
  have sorted := (List.perm_insertionSort (fun left right : TraceLedgerWriterState =>
    left.runId ≤ right.runId) _).mem_iff.mpr member
  rw [inactive] at sorted
  cases sorted

/-- A generation stays, is deleted without unexpired active writers, or is given up by the holder of
its only row before anything was committed. -/
theorem ThreadTransition.generation {limits : TraceLimits} {thread : MemoryThread}
    (transition : ThreadTransition encodedLength change now ledger identity after charge)
    (accounted : thread.Accounted limits) (stored : ledger.get? identity = some thread) :
    (∃ kept, after = some kept ∧ kept.state.key = thread.state.key) ∨
    change.kind = .deleteGeneration ∧
      (∀ runId writer, thread.writers.get? runId = some writer → writer.active = true →
        writer.leaseExpiresAt ≤ now) ∨
    change.kind = .closeWriter ∧ thread.events = [] ∧ thread.writers.size = 1 ∧
      ∃ writer, thread.writers.get? writer.runId = some writer ∧
        HeldBy change identity thread writer := by
  cases transition with
  | created key runId ownerToken leaseExpiresAt kind absent named room admissible =>
    simp [stored] at absent
  | admitted found runId ownerToken leaseExpiresAt kind present absent admissible =>
    obtain rfl := Option.some.inj (stored.symm.trans present)
    exact .inl ⟨_, rfl, rfl⟩
  | renewed found writer leaseExpiresAt present held active token owned =>
    obtain rfl := Option.some.inj (stored.symm.trans present)
    exact .inl ⟨_, rfl, rfl⟩
  | takenOver found writer ownerToken leaseExpiresAt kind present held active _ expired other =>
    obtain rfl := Option.some.inj (stored.symm.trans present)
    exact .inl ⟨_, rfl, rfl⟩
  | appended found writer flags events leaseExpiresAt target request includeActive kind present held
      owned unexpired batch flagged made fits =>
      obtain rfl := Option.some.inj (stored.symm.trans present)
      exact .inl ⟨_, rfl, rfl⟩
  | discarded found writer kind present held owned unused =>
    obtain rfl := Option.some.inj (stored.symm.trans present)
    exact .inl ⟨_, rfl, rfl⟩
  | removed found writer kind present held owned unused empty only =>
    obtain rfl := Option.some.inj (stored.symm.trans present)
    have next := accounted.nextSeq
    have nothing : thread.events = [] := List.length_eq_zero_iff.mp (by omega)
    exact .inr (.inr ⟨kind, nothing, only, writer, held, owned⟩)
  | closed found writer kind present held owned used =>
    obtain rfl := Option.some.inj (stored.symm.trans present)
    exact .inl ⟨_, rfl, rfl⟩
  | checkpointed found checkpoints kind present =>
    obtain rfl := Option.some.inj (stored.symm.trans present)
    exact .inl ⟨_, rfl, rfl⟩
  | deleted found kind present named inactive =>
    obtain rfl := Option.some.inj (stored.symm.trans present)
    exact .inr (.inl ⟨kind, fun runId writer held active =>
      lapsed_of_activeWriters inactive held active⟩)

end Transitions

namespace LedgerState

/-- The writer row of a Run. -/
def row? (state : LedgerState) (identity : ThreadIdentity) (runId : String) :
    Option TraceLedgerWriterState :=
  (state.ledger.get? identity).bind (·.writers.get? runId)

theorem row?_eq_some {state : LedgerState} {identity : ThreadIdentity} {runId : String}
    {writer : TraceLedgerWriterState} : state.row? identity runId = some writer ↔
      ∃ thread, state.ledger.get? identity = some thread ∧
        thread.writers.get? runId = some writer := by
  simp [row?, Option.bind_eq_some_iff]

/-- What one request does to the generations and rows that it finds. -/
structure Fenced (state next : LedgerState) (event : LedgerEvent) : Prop where
  takeover : ∀ identity runId before after, state.row? identity runId = some before →
    next.row? identity runId = some after → RowStep event.change event.now before after
  holder : event.change.kind = .appendEvents ∨ event.change.kind = .renewWriter ∨
      event.change.kind = .closeWriter → next ≠ state →
    ∃ identity thread writer, state.ledger.get? identity = some thread ∧
      thread.writers.get? writer.runId = some writer ∧ HeldBy event.change identity thread writer
  superseded : ∀ identity runId thread writer, event.change.kind = .closeWriter →
    event.change.target = .ok (identity, some runId) → state.ledger.get? identity = some thread →
    thread.writers.get? runId = some writer →
    ¬(event.change.key = some thread.state.key ∧ writer.OwnedBy event.change) → next = state
  generation : ∀ identity thread, state.ledger.get? identity = some thread →
    (∃ kept, next.ledger.get? identity = some kept ∧ kept.state.key = thread.state.key) ∨
    event.change.kind = .deleteGeneration ∧
      (∀ runId writer, thread.writers.get? runId = some writer → writer.active = true →
        writer.leaseExpiresAt ≤ event.now) ∨
    event.change.kind = .closeWriter ∧ thread.events = [] ∧ thread.writers.size = 1 ∧
      ∃ writer, thread.writers.get? writer.runId = some writer ∧
        HeldBy event.change identity thread writer

variable (encodedLength : TraceEvent → Nat) (limits : TraceLimits) {state : LedgerState}

theorem eq_of_parts {left right : LedgerState} (ledger : left.ledger = right.ledger)
    (accounts : ∀ «namespace», left.accounts «namespace» = right.accounts «namespace») :
    left = right := by
  cases left
  cases right
  simp only [mk.injEq]
  exact ⟨ledger, funext accounts⟩

/-- One request against accounted rows is fenced. -/
theorem step_fenced (accounted : state.Accounted limits) (event : LedgerEvent) :
    Fenced state (step encodedLength limits state event) event := by
  have linked := accounted.linked
  obtain ⟨same, free⟩ | ⟨effect, identity, after, -, -, transition, replaced, -⟩ :=
    step_cases encodedLength limits event linked
  · have unchanged := eq_of_parts same free
    rw [unchanged]
    constructor
    · intro identity runId before after found remains
      obtain rfl := Option.some.inj (found.symm.trans remains)
      exact .refl _ _ before
    · intro _ changed
      exact absurd rfl changed
    · intro _ _ _ _ _ _ _ _ _
      rfl
    · intro identity thread stored
      exact .inl ⟨thread, stored, rfl⟩
  · constructor
    · intro other runId before left found remains
      obtain ⟨thread, stored, found⟩ := row?_eq_some.mp found
      obtain ⟨kept, stays, remains⟩ := row?_eq_some.mp remains
      rw [replaced, MemoryLedger.get?_replaced] at stays
      split at stays
      · next equal =>
          subst equal
          exact transition.rowStep stored stays found remains
      · obtain rfl := Option.some.inj (stored.symm.trans stays)
        obtain rfl := Option.some.inj (found.symm.trans remains)
        exact .refl _ _ before
    · intro kind _
      obtain ⟨thread, writer, stored, held, mine⟩ := transition.heldBy (by exact kind)
      exact ⟨identity, thread, writer, stored, held, ⟨mine.target, mine.generation, mine.owned⟩⟩
    · intro other runId thread writer kind target stored held foreign
      obtain ⟨found, holder, present, row, mine⟩ := transition.heldBy (.inr (.inr (by exact kind)))
      have equal : (other, some runId) = (identity, some holder.runId) :=
        Except.ok.inj (target.symm.trans mine.target)
      obtain ⟨rfl, run⟩ := Prod.mk.inj equal
      obtain rfl := Option.some.inj run
      obtain rfl := Option.some.inj (stored.symm.trans present)
      obtain rfl := Option.some.inj (held.symm.trans row)
      exact absurd ⟨mine.generation, mine.owned⟩ foreign
    · intro other thread stored
      rw [replaced, MemoryLedger.get?_replaced]
      split
      · next equal =>
          subst equal
          obtain kept | ⟨kind, lapsed⟩ | ⟨kind, empty, only, writer, held, mine⟩ :=
            transition.generation (accounted.threads _ thread stored) stored
          · exact .inl kept
          · exact .inr (.inl ⟨kind, lapsed⟩)
          · exact .inr (.inr ⟨kind, empty, only, writer, held,
              ⟨mine.target, mine.generation, mine.owned⟩⟩)
      · exact .inl ⟨thread, stored, rfl⟩

/-- Accounted rows whose threads are recorded. -/
structure Recorded (limits : TraceLimits) (state : LedgerState) : Prop where
  accounted : state.Accounted limits
  threads : ∀ identity thread, state.ledger.get? identity = some thread → thread.Recorded

theorem empty_recorded : empty.Recorded limits where
  accounted := empty_accounted limits
  threads := by simp [empty]

theorem step_recorded (event : LedgerEvent) (recorded : state.Recorded limits) :
    (step encodedLength limits state event).Recorded limits := by
  refine ⟨step_accounted recorded.accounted, ?_⟩
  obtain ⟨same, -⟩ | ⟨effect, identity, after, -, -, transition, replaced, -⟩ :=
    step_cases encodedLength limits event recorded.accounted.linked
  · rw [same]
    exact recorded.threads
  · intro other thread stored
    rw [replaced, MemoryLedger.get?_replaced] at stored
    split at stored
    · exact transition.recorded (recorded.threads identity) thread stored
    · exact recorded.threads other thread stored

theorem run_recorded (events : List LedgerEvent) :
    (Machine.run (step encodedLength limits) empty events).Recorded limits :=
  Machine.run_invariant (fun _ event => step_recorded encodedLength limits event)
    (empty_recorded limits)

/-- While a row stays, its fence never falls and rises with every change of its holder. -/
theorem run_fence (accounted : state.Accounted limits) {later : List LedgerEvent}
    {identity : ThreadIdentity} {runId : String} {before : TraceLedgerWriterState}
    (found : state.row? identity runId = some before)
    (stays : Machine.Guarded (step encodedLength limits) (fun state event =>
      ((step encodedLength limits state event).row? identity runId).isSome) state later) :
    ∃ after, (Machine.run (step encodedLength limits) state later).row? identity runId =
        some after ∧ before.fence ≤ after.fence ∧
      (after.ownerToken ≠ before.ownerToken → before.fence < after.fence) := by
  induction later generalizing state before with
  | nil => exact ⟨before, found, le_rfl, fun changed => absurd rfl changed⟩
  | cons event later ih =>
    obtain ⟨middle, remains⟩ := Option.isSome_iff_exists.mp stays.1
    obtain ⟨after, row, above, rises⟩ := ih (step_accounted accounted) remains stays.2
    refine ⟨after, row, ?_⟩
    obtain ⟨fence, token⟩ | ⟨-, -, -, -, fence⟩ :=
      (step_fenced encodedLength limits accounted event).takeover _ _ before middle found remains
    · rw [← fence, ← token]
      exact ⟨above, rises⟩
    · omega

/-- Along every run the facts of every Run respect its lifecycle and every request is fenced.  While
a writer row stays, its fence never falls and rises with every change of its holder. -/
theorem ledger_fenced (encodedLength : TraceEvent → Nat) (limits : TraceLimits)
    (events : List LedgerEvent) :
    let state := Machine.run (step encodedLength limits) empty events
    (∀ identity thread, state.ledger.get? identity = some thread →
      ∀ runId, Lifecycle (thread.runPhases runId)) ∧
    (∀ event, Fenced state (step encodedLength limits state event) event) ∧
    ∀ later identity runId before, state.row? identity runId = some before →
      Machine.Guarded (step encodedLength limits) (fun state event =>
        ((step encodedLength limits state event).row? identity runId).isSome) state later →
      ∃ after, (Machine.run (step encodedLength limits) state later).row? identity runId =
          some after ∧ before.fence ≤ after.fence ∧
        (after.ownerToken ≠ before.ownerToken → before.fence < after.fence) := by
  intro state
  have accounted : state.Accounted limits := run_accounted encodedLength limits events
  refine ⟨fun identity thread stored runId => ?_, fun event => ?_, ?_⟩
  · have recorded := run_recorded encodedLength limits events
    exact (recorded.threads identity thread stored).lifecycle runId
  · exact step_fenced encodedLength limits accounted event
  · intro later identity runId before found stays
    exact run_fence encodedLength limits accounted found stays

end LedgerState

end Tinkerfin.Tracing
