import Mathlib.Algebra.Order.BigOperators.Group.List
import Tinkerfin.Lib.Machine
import Tinkerfin.Tracing.LedgerTransitions

/-!
# Ledger accounting and reserved capacity

The deltas that effects report add up to the sums over threads and writers, every thread has
contiguous events, and what is persisted and reserved stays within the limits.  A mandatory batch
that fits the reserve of its writer is never rejected for a quota of its thread or namespace.
-/

namespace Tinkerfin.Tracing

open Messaging (RunIdentity ThreadIdentity bind_eq_ok)

/-! ## Sums of one thread -/

/-- What the active writers of a thread hold of one reserve. -/
def MemoryThread.reserve (pick : TraceLedgerWriterState → Int) (thread : MemoryThread) : Int :=
  thread.writers.weight fun _ writer => if writer.active then pick writer else 0

theorem reservedEvents_eq (thread : MemoryThread) :
    thread.reservedEvents = thread.reserve (·.remainingEventReserve) := rfl

theorem reservedBytes_eq (thread : MemoryThread) :
    thread.reservedBytes = thread.reserve (·.remainingByteReserve) := rfl

section Reserve

variable {pick : TraceLedgerWriterState → Int} {thread : MemoryThread}
  {writer updated : TraceLedgerWriterState}

theorem reserve_withWriter_absent (absent : thread.writers.get? writer.runId = none)
    (active : writer.active = true) :
    (thread.withWriter writer).reserve pick = thread.reserve pick + pick writer := by
  simp only [MemoryThread.reserve, MemoryThread.withWriter, Dict.weight_insert, active, if_true,
    Dict.weightAt_of_absent absent]
  omega

theorem reserve_withWriter (held : thread.writers.get? writer.runId = some writer)
    (active : writer.active = true) (same : updated.runId = writer.runId) :
    (thread.withWriter updated).reserve pick =
      thread.reserve pick - pick writer + if updated.active then pick updated else 0 := by
  simp only [MemoryThread.reserve, MemoryThread.withWriter, Dict.weight_insert, same,
    Dict.weightAt_of_get? held, active, if_true]

theorem reservedBytes_withWriter (held : thread.writers.get? writer.runId = some writer)
    (active : writer.active = true) (same : updated.runId = writer.runId)
    (stays : updated.active = true)
    (bytes : updated.remainingByteReserve = writer.remainingByteReserve) :
    (thread.withWriter updated).reservedBytes = thread.reservedBytes := by
  rw [reservedBytes_eq, reserve_withWriter held active same, reservedBytes_eq]
  simp [stays, bytes]

theorem reserve_erase (held : thread.writers.get? writer.runId = some writer)
    (active : writer.active = true) :
    MemoryThread.reserve pick { thread with writers := thread.writers.erase writer.runId } =
      thread.reserve pick - pick writer := by
  simp only [MemoryThread.reserve, Dict.weight_erase, Dict.weightAt_of_get? held, active, if_true]

theorem reserve_only (held : thread.writers.get? writer.runId = some writer)
    (active : writer.active = true) (only : thread.writers.size = 1) :
    thread.reserve pick = pick writer := by
  obtain ⟨entry, entries⟩ := List.length_eq_one_iff.mp only
  have member := Dict.get?_eq_some_iff.mp held
  simp only [entries, List.mem_singleton] at member
  simp [MemoryThread.reserve, Dict.weight, entries, ← member, active]

end Reserve

/-! ## Committed batches -/

section Batches

variable {encodedLength : TraceEvent → Nat} {change : TraceLedgerChange}
  {thread : TraceLedgerThreadState} {writer : TraceLedgerWriterState}

theorem sizedEvent_eq_ok {event made : TraceEvent} {attempts : Nat}
    (sized : sizedEvent encodedLength event attempts = .ok made) :
    made = { event with persistedBytes := made.persistedBytes } ∧
      made.persistedBytes = encodedLength made := by
  induction attempts generalizing event with
  | zero => cases sized
  | succ attempts ih =>
    unfold sizedEvent at sized
    dsimp only at sized
    split at sized
    · next exact =>
        obtain rfl := Except.ok.inj sized
        exact ⟨rfl, exact.symm⟩
    · obtain ⟨made, size⟩ := ih sized
      exact ⟨made, size⟩

theorem makeEvent_eq_ok {eventId generation : String} {traceSeq : Int} {fact : TraceSemanticFact}
    {made : TraceEvent} (event : makeEvent encodedLength eventId traceSeq generation fact = .ok made) :
    made.eventId = eventId ∧ made.traceSeq = traceSeq ∧ made.generation = generation ∧
      made.fact = fact ∧ made.persistedBytes = encodedLength made := by
  obtain ⟨equal, size⟩ := sizedEvent_eq_ok event
  refine ⟨?_, ?_, ?_, ?_, size⟩ <;> rw [equal]

/-- The events of a batch carry its facts under consecutive sequences. -/
theorem appendedEvents_eq_ok {start : Int} {drafts : List TraceStoredFact}
    {events : List TraceEvent}
    (made : appendedEvents encodedLength change thread writer start drafts = .ok events) :
    events.map (·.fact) = drafts.map (·.fact) ∧
      events.map (·.traceSeq) = (List.range drafts.length).map (fun index : Nat => start + index) ∧
        ∀ event ∈ events, event.fact.identity.runId = writer.runId ∧
          event.persistedBytes = encodedLength event := by
  induction drafts generalizing start events with
  | nil =>
    obtain rfl := Except.ok.inj made
    simp
  | cons draft drafts ih =>
    simp only [appendedEvents, bind_eq_ok, reject_eq_ok, pure, Except.pure, Except.ok.injEq,
      not_or, not_not] at made
    obtain ⟨-, ⟨-, run⟩, event, one, -, -, rest, more, rfl⟩ := made
    obtain ⟨-, sequence, -, fact, size⟩ := makeEvent_eq_ok one
    obtain ⟨facts, sequences, runs⟩ := ih more
    refine ⟨by simp [facts, fact], ?_, ?_⟩
    · rw [List.map_cons, sequences, sequence, List.length_cons, List.range_succ_eq_map]
      simp only [List.map_cons, List.map_map, Nat.cast_zero, add_zero, List.cons.injEq, true_and]
      apply List.map_congr_left
      intro index _
      simp only [Function.comp_apply]
      push_cast
      omega
    · intro other member
      cases member with
      | head => exact ⟨by rw [fact, run], size⟩
      | tail _ member => exact runs other member

theorem appendedEvents_length {start : Int} {drafts : List TraceStoredFact}
    {events : List TraceEvent}
    (made : appendedEvents encodedLength change thread writer start drafts = .ok events) :
    events.length = drafts.length := by
  have facts := congrArg List.length (appendedEvents_eq_ok made).1
  simpa using facts

end Batches

theorem persistedBytesOf_nonneg {encodedLength : TraceEvent → Nat} {events : List TraceEvent}
    (sized : ∀ event ∈ events, event.persistedBytes = encodedLength event) :
    0 ≤ persistedBytesOf events := by
  apply List.sum_nonneg
  intro bytes member
  obtain ⟨event, contained, rfl⟩ := List.mem_map.mp member
  rw [sized event contained]
  exact Int.natCast_nonneg _

theorem map_zipWith_memoryStoredEvent {α : Type} {read : MemoryStoredTraceEvent → α}
    {readEvent : TraceEvent → α} (same : ∀ event draft, read (memoryStoredEvent event draft) =
      readEvent event) {events : List TraceEvent} {drafts : List TraceStoredFact}
    (length : events.length = drafts.length) :
    (List.zipWith memoryStoredEvent events drafts).map read = events.map readEvent := by
  induction events generalizing drafts with
  | nil => simp
  | cons event events ih =>
    cases drafts with
    | nil => simp at length
    | cons draft drafts => simp [same, ih (by simpa using length)]

/-! ## Accounted threads -/

/-- A thread whose counters are right and whose sums are within the limits. -/
structure MemoryThread.Accounted (limits : TraceLimits) (thread : MemoryThread) : Prop where
  nextSeq : thread.state.nextSeq = thread.events.length + 1
  contiguous : thread.events.map (·.validatedEvent.traceSeq) =
    (List.range thread.events.length).map fun index : Nat => (index : Int) + 1
  persisted : thread.state.persistedBytes = (thread.events.map (·.validatedEvent.persistedBytes)).sum
  nonneg : 0 ≤ thread.state.persistedBytes
  reserves : ∀ runId writer, thread.writers.get? runId = some writer →
    0 ≤ writer.remainingEventReserve ∧ 0 ≤ writer.remainingByteReserve
  events : thread.state.nextSeq - 1 + thread.reservedEvents ≤ limits.maxThreadEvents
  bytes : thread.state.persistedBytes + thread.reservedBytes ≤ limits.maxThreadBytes

theorem newThread_accounted {limits : TraceLimits} (key : TraceThreadKey) :
    MemoryThread.Accounted limits { state := ⟨key, 1, 0⟩ } where
  nextSeq := by simp
  contiguous := by simp
  persisted := by simp
  nonneg := by simp
  reserves := by simp
  events := by simp [MemoryThread.reservedEvents]
  bytes := by simp [MemoryThread.reservedBytes]

theorem MemoryThread.Accounted.reservedBytes_nonneg {limits : TraceLimits} {thread : MemoryThread}
    (accounted : thread.Accounted limits) : 0 ≤ thread.reservedBytes := by
  apply List.sum_nonneg
  intro bytes member
  obtain ⟨⟨runId, writer⟩, contained, rfl⟩ := List.mem_map.mp member
  have nonneg := (accounted.reserves runId writer (Dict.get?_eq_some_iff.mpr contained)).2
  dsimp only
  split <;> omega

section Transitions

variable {limits : TraceLimits} {thread : MemoryThread} {writer updated : TraceLedgerWriterState}

/-- Replacing a writer row keeps a thread accounted when the sums stay within the limits. -/
theorem MemoryThread.Accounted.withWriter (accounted : thread.Accounted limits)
    (nonneg : 0 ≤ updated.remainingEventReserve ∧ 0 ≤ updated.remainingByteReserve)
    (events : thread.state.nextSeq - 1 + (thread.withWriter updated).reservedEvents ≤
      limits.maxThreadEvents)
    (bytes : thread.state.persistedBytes + (thread.withWriter updated).reservedBytes ≤
      limits.maxThreadBytes) : (thread.withWriter updated).Accounted limits where
  nextSeq := accounted.nextSeq
  contiguous := accounted.contiguous
  persisted := accounted.persisted
  nonneg := accounted.nonneg
  reserves runId stored held := by
    simp only [MemoryThread.withWriter, Dict.get?_insert] at held
    split at held
    · exact Option.some.inj held ▸ nonneg
    · exact accounted.reserves runId stored held
  events := events
  bytes := bytes

/-- A writer that holds no more than before keeps its thread accounted. -/
theorem MemoryThread.Accounted.replaced (accounted : thread.Accounted limits)
    (held : thread.writers.get? writer.runId = some writer) (active : writer.active = true)
    (same : updated.runId = writer.runId)
    (nonneg : 0 ≤ updated.remainingEventReserve ∧ 0 ≤ updated.remainingByteReserve)
    (events : updated.remainingEventReserve ≤ writer.remainingEventReserve)
    (bytes : updated.remainingByteReserve ≤ writer.remainingByteReserve) :
    (thread.withWriter updated).Accounted limits := by
  have before := accounted.reserves _ _ held
  refine accounted.withWriter nonneg ?_ ?_
  · have bound := accounted.events
    rw [reservedEvents_eq, reserve_withWriter held active same]
    rw [reservedEvents_eq] at bound
    split <;> omega
  · have bound := accounted.bytes
    rw [reservedBytes_eq, reserve_withWriter held active same]
    rw [reservedBytes_eq] at bound
    split <;> omega

/-- What a committed batch leaves of its writer's reserves. -/
theorem appendedWriter_reserves {change : TraceLedgerChange} {state : TraceLedgerState}
    {head : TraceLedgerThreadState} {events : List TraceEvent} (flags : Bool × Bool)
    (leaseExpiresAt : Nat) (nonneg : 0 ≤ writer.remainingEventReserve ∧
      0 ≤ writer.remainingByteReserve)
    (fits : checkCapacity change state head writer events = .ok ()) :
    let after := appendedWriter change writer events flags leaseExpiresAt
    (0 ≤ after.remainingEventReserve ∧ 0 ≤ after.remainingByteReserve) ∧
      (change.mandatory = true →
        after.remainingEventReserve + events.length ≤ writer.remainingEventReserve ∧
          after.remainingByteReserve + persistedBytesOf events ≤ writer.remainingByteReserve) ∧
      (change.mandatory = false →
        after.remainingEventReserve = writer.remainingEventReserve ∧
          after.remainingByteReserve = writer.remainingByteReserve) := by
  cases mandatory : change.mandatory with
  | false => simp [appendedWriter, mandatory, nonneg]
  | true =>
    simp only [checkCapacity, mandatory, if_true, reject_eq_ok, gt_iff_lt, not_or, not_lt] at fits
    cases closing : flags.2 <;> simp [appendedWriter, mandatory, closing] <;> omega

theorem checkCapacity_ordinary {change : TraceLedgerChange} {state : TraceLedgerState}
    {head : TraceLedgerThreadState} {events : List TraceEvent} (ordinary : change.mandatory = false)
    (fits : checkCapacity change state head writer events = .ok ()) :
    head.nextSeq + events.length - 1 + state.threadReservedEvents ≤ change.limits.maxThreadEvents ∧
      head.persistedBytes + persistedBytesOf events + state.threadReservedBytes ≤
        change.limits.maxThreadBytes ∧
      state.namespacePersistedBytes + persistedBytesOf events + state.namespaceReservedBytes ≤
        change.limits.maxTracerBytes := by
  simpa [checkCapacity, ordinary, bind_eq_ok] using fits

end Transitions

/-! ## Transitions keep accounts -/

section Steps

variable {encodedLength : TraceEvent → Nat} {change : TraceLedgerChange} {now : Nat}
  {ledger : MemoryLedger} {identity : ThreadIdentity} {limits : TraceLimits}
  {after : Option MemoryThread} {charge : LedgerAccount}

/-- An admitted writer takes its reserves within the limits. -/
theorem MemoryThread.Accounted.admitted {thread : MemoryThread} {runId ownerToken : String}
    {leaseExpiresAt : Nat} (accounted : thread.Accounted change.limits)
    (absent : thread.writers.get? runId = none) (admissible : Admissible change ledger thread) :
    (thread.withWriter (admittedWriter change runId ownerToken leaseExpiresAt)).Accounted
      change.limits := by
  refine accounted.withWriter ⟨by simp [admittedWriter], by simp [admittedWriter]⟩ ?_ ?_
  · have room := admissible.events
    rw [reservedEvents_eq] at room ⊢
    rw [reserve_withWriter_absent absent rfl]
    simp only [admittedWriter]
    omega
  · have room := admissible.bytes
    rw [reservedBytes_eq] at room ⊢
    rw [reserve_withWriter_absent absent rfl]
    simp only [admittedWriter]
    omega

theorem contiguous_append {seqs added : List Int} {length count : Nat}
    (before : seqs = (List.range length).map fun index : Nat => (index : Int) + 1)
    (batch : added = (List.range count).map fun index : Nat => (length : Int) + 1 + index) :
    seqs ++ added = (List.range (length + count)).map fun index : Nat => (index : Int) + 1 := by
  rw [List.range_add, List.map_append, before, batch, List.map_map]
  congr 1
  apply List.map_congr_left
  intro index _
  simp only [Function.comp_apply]
  push_cast
  omega

/-- A committed batch keeps its thread accounted. -/
theorem MemoryThread.Accounted.extended {thread : MemoryThread} {writer : TraceLedgerWriterState}
    {flags : Bool × Bool} {events : List TraceEvent} {leaseExpiresAt : Nat}
    {runId : Option String} {request : Option TraceCheckpointRequest} {includeActive : Bool}
    (accounted : thread.Accounted change.limits) (stored : ledger.get? identity = some thread)
    (held : thread.writers.get? writer.runId = some writer) (active : writer.active = true)
    (made : appendedEvents encodedLength change thread.state writer thread.state.nextSeq
      change.facts = .ok events)
    (fits : checkCapacity change (ledger.loadState identity runId request includeActive now)
      thread.state writer events = .ok ()) :
    (thread.extended events change.facts
      (appendedWriter change writer events flags leaseExpiresAt)).Accounted change.limits := by
  have length := appendedEvents_length made
  obtain ⟨-, sequences, sized⟩ := appendedEvents_eq_ok made
  have added := persistedBytesOf_nonneg fun event member => (sized event member).2
  obtain ⟨nonneg, spends, keeps⟩ :=
    appendedWriter_reserves flags leaseExpiresAt (accounted.reserves _ _ held) fits
  set updated := appendedWriter change writer events flags leaseExpiresAt with isUpdated
  have same : updated.runId = writer.runId := rfl
  have eventsAfter : (thread.withWriter updated).reservedEvents =
      thread.reservedEvents - writer.remainingEventReserve + updated.remainingEventReserve :=
    reserve_withWriter held active same
  have bytesAfter : (thread.withWriter updated).reservedBytes =
      thread.reservedBytes - writer.remainingByteReserve + updated.remainingByteReserve :=
    reserve_withWriter held active same
  have count : (List.zipWith memoryStoredEvent events change.facts).length = events.length := by
    simp [length]
  constructor
  · have next := accounted.nextSeq
    simp only [MemoryThread.extended, List.length_append, count]
    push_cast
    omega
  · simp only [MemoryThread.extended, List.map_append, List.length_append, count]
    rw [map_zipWith_memoryStoredEvent (fun _ _ => rfl) length]
    exact contiguous_append accounted.contiguous
      (by rw [sequences, accounted.nextSeq, length])
  · simp only [MemoryThread.extended, List.map_append, List.sum_append]
    rw [map_zipWith_memoryStoredEvent (fun _ _ => rfl) length, accounted.persisted]
    rfl
  · have before := accounted.nonneg
    simp only [MemoryThread.extended]
    omega
  · intro run stored held
    simp only [MemoryThread.extended, Dict.get?_insert] at held
    split at held
    · exact Option.some.inj held ▸ nonneg
    · exact accounted.reserves run stored held
  · have bound := accounted.events
    change thread.state.nextSeq + events.length - 1 +
      (thread.withWriter updated).reservedEvents ≤ _
    cases mandatory : change.mandatory with
    | true =>
      have spent := (spends mandatory).1
      omega
    | false =>
      have kept := (keeps mandatory).1
      have room := (checkCapacity_ordinary mandatory fits).1
      simp only [MemoryLedger.loadState, stored, Option.elim_some] at room
      omega
  · have bound := accounted.bytes
    change thread.state.persistedBytes + persistedBytesOf events +
      (thread.withWriter updated).reservedBytes ≤ _
    cases mandatory : change.mandatory with
    | true =>
      have spent := (spends mandatory).2
      omega
    | false =>
      have kept := (keeps mandatory).2
      have room := (checkCapacity_ordinary mandatory fits).2.1
      simp only [MemoryLedger.loadState, stored, Option.elim_some] at room
      omega

/-- A thread without one of its writers stays accounted. -/
theorem MemoryThread.Accounted.erased {thread : MemoryThread} {writer : TraceLedgerWriterState}
    (accounted : thread.Accounted limits) (held : thread.writers.get? writer.runId = some writer)
    (active : writer.active = true) :
    MemoryThread.Accounted limits { thread with writers := thread.writers.erase writer.runId } := by
  have nonneg := accounted.reserves _ _ held
  refine ⟨accounted.nextSeq, accounted.contiguous, accounted.persisted, accounted.nonneg, ?_, ?_,
    ?_⟩
  · intro run stored kept
    simp only [Dict.get?_erase] at kept
    split at kept
    · cases kept
    · exact accounted.reserves run stored kept
  · have bound := accounted.events
    rw [reservedEvents_eq] at bound ⊢
    rw [reserve_erase held active]
    dsimp only
    omega
  · have bound := accounted.bytes
    rw [reservedBytes_eq] at bound ⊢
    rw [reserve_erase held active]
    dsimp only
    omega

/-- A transition leaves an accounted thread. -/
theorem ThreadTransition.accounted (fixed : change.limits = limits)
    (before : ∀ thread, ledger.get? identity = some thread → thread.Accounted limits)
    (transition : ThreadTransition encodedLength change now ledger identity after charge) :
    ∀ thread, after = some thread → thread.Accounted limits := by
  subst fixed
  intro left equal
  cases transition with
  | created key runId ownerToken leaseExpiresAt kind absent named room admissible =>
    obtain rfl := Option.some.inj equal
    exact (newThread_accounted key).admitted (Dict.get?_empty _) admissible
  | admitted thread runId ownerToken leaseExpiresAt kind stored absent admissible =>
    obtain rfl := Option.some.inj equal
    exact (before thread stored).admitted absent admissible
  | renewed thread writer leaseExpiresAt stored held active token owned =>
    obtain rfl := Option.some.inj equal
    have nonneg := (before thread stored).reserves _ writer held
    exact (before thread stored).replaced held active rfl nonneg le_rfl le_rfl
  | takenOver thread writer ownerToken leaseExpiresAt kind stored held active _ expired other =>
    obtain rfl := Option.some.inj equal
    have nonneg := (before thread stored).reserves _ writer held
    exact (before thread stored).replaced held active rfl nonneg le_rfl le_rfl
  | appended thread writer flags events leaseExpiresAt runId request includeActive kind stored held
      owned unexpired batch flagged made fits =>
      obtain rfl := Option.some.inj equal
      exact (before thread stored).extended stored held owned.owned.1 made fits
  | discarded thread writer kind stored held owned unused =>
    obtain rfl := Option.some.inj equal
    exact (before thread stored).erased held owned.owned.1
  | removed thread writer kind stored held owned unused empty only => cases equal
  | closed thread writer kind stored held owned used =>
    obtain rfl := Option.some.inj equal
    have nonneg := (before thread stored).reserves _ writer held
    exact (before thread stored).replaced held owned.owned.1 rfl ⟨le_rfl, le_rfl⟩ nonneg.1 nonneg.2
  | checkpointed thread checkpoints kind stored =>
    obtain rfl := Option.some.inj equal
    have accounted := before thread stored
    exact ⟨accounted.nextSeq, accounted.contiguous, accounted.persisted, accounted.nonneg,
      accounted.reserves, accounted.events, accounted.bytes⟩
  | deleted thread kind stored named inactive => cases equal

/-- The sum of a weight over one thread that may be absent. -/
def threadSum (weigh : MemoryThread → Int) (thread : Option MemoryThread) : Int :=
  thread.elim 0 weigh

/-- The deltas of a transition are the differences of the sums. -/
theorem ThreadTransition.charge_eq (fixed : change.limits = limits)
    (before : ∀ thread, ledger.get? identity = some thread → thread.Accounted limits)
    (transition : ThreadTransition encodedLength change now ledger identity after charge) :
    charge.threads = threadSum (fun _ => 1) after -
        threadSum (fun _ => 1) (ledger.get? identity) ∧
      charge.persistedBytes = threadSum (·.state.persistedBytes) after -
        threadSum (·.state.persistedBytes) (ledger.get? identity) ∧
      charge.reservedBytes = threadSum (·.reservedBytes) after -
        threadSum (·.reservedBytes) (ledger.get? identity) := by
  subst fixed
  cases transition with
  | created key runId ownerToken leaseExpiresAt kind absent named room admissible =>
    rw [absent]
    have bytes : (MemoryThread.withWriter { state := ⟨key, 1, 0⟩ }
        (admittedWriter change runId ownerToken leaseExpiresAt)).reservedBytes = 0 + _ :=
      reserve_withWriter_absent (Dict.get?_empty _) rfl
    simp only [threadSum, Option.elim_some, Option.elim_none, bytes]
    simp [MemoryThread.withWriter, admittedWriter]
  | admitted thread runId ownerToken leaseExpiresAt kind stored absent admissible =>
    rw [stored]
    have bytes : (thread.withWriter
        (admittedWriter change runId ownerToken leaseExpiresAt)).reservedBytes =
          thread.reservedBytes + change.limits.terminalReserveBytesPerRun :=
      reserve_withWriter_absent absent rfl
    simp only [threadSum, Option.elim_some, bytes]
    simp [MemoryThread.withWriter]
  | renewed thread writer leaseExpiresAt stored held active token owned =>
    rw [stored]
    have bytes : (thread.withWriter { writer with leaseExpiresAt }).reservedBytes = _ :=
      reservedBytes_withWriter held active rfl active rfl
    simp only [threadSum, Option.elim_some, bytes]
    simp [MemoryThread.withWriter]
  | takenOver thread writer ownerToken leaseExpiresAt kind stored held active _ expired other =>
    rw [stored]
    have bytes : (thread.withWriter
        { writer with ownerToken, fence := writer.fence + 1, leaseExpiresAt }).reservedBytes = _ :=
      reservedBytes_withWriter held active rfl active rfl
    simp only [threadSum, Option.elim_some, bytes]
    simp [MemoryThread.withWriter]
  | appended thread writer flags events leaseExpiresAt runId request includeActive kind stored held
      owned unexpired batch flagged made fits =>
      rw [stored]
      set updated := appendedWriter change writer events flags leaseExpiresAt
      have bytes : (thread.extended events change.facts updated).reservedBytes =
          thread.reservedBytes - writer.remainingByteReserve + updated.remainingByteReserve :=
        reserve_withWriter held owned.owned.1 rfl
      simp only [threadSum, Option.elim_some, bytes]
      refine ⟨by omega, by simp [MemoryThread.extended], by omega⟩
  | discarded thread writer kind stored held owned unused =>
    rw [stored]
    simp only [threadSum, Option.elim_some, reservedBytes_eq, reserve_erase held owned.owned.1]
    omega
  | removed thread writer kind stored held owned unused empty only =>
    rw [stored]
    have accounted := before thread stored
    have none : thread.events = [] := by
      have next := accounted.nextSeq
      rw [empty] at next
      exact List.eq_nil_of_length_eq_zero (by omega)
    have persisted : thread.state.persistedBytes = 0 := by
      rw [accounted.persisted, none]
      rfl
    simp only [threadSum, Option.elim_some, Option.elim_none, reservedBytes_eq,
      reserve_only held owned.owned.1 only, persisted]
    omega
  | closed thread writer kind stored held owned used =>
    rw [stored]
    have bytes : (thread.withWriter writer.released).reservedBytes =
        thread.reservedBytes - writer.remainingByteReserve + 0 :=
      reserve_withWriter held owned.owned.1 rfl
    simp only [threadSum, Option.elim_some, bytes]
    exact ⟨by omega, by simp [MemoryThread.withWriter], by omega⟩
  | checkpointed thread checkpoints kind stored =>
    rw [stored]
    simp [threadSum, MemoryThread.reservedBytes]
  | deleted thread kind stored named inactive =>
    rw [stored]
    simp [threadSum]

end Steps

/-! ## Accounted ledgers -/

/-- Replacing a thread changes the sums of its namespace by the difference. -/
theorem namespaceSum_replaced (ledger : MemoryLedger) (identity : ThreadIdentity)
    (after : Option MemoryThread) («namespace» : String) (weigh : MemoryThread → Int) :
    (ledger.replaced identity after).namespaceSum «namespace» weigh =
      ledger.namespaceSum «namespace» weigh +
        if identity.namespace = «namespace» then
          threadSum weigh after - threadSum weigh (ledger.get? identity)
        else
          0 := by
  unfold MemoryLedger.namespaceSum
  have before : ledger.weightAt
      (fun key thread => if key.namespace = «namespace» then weigh thread else 0) identity =
        if identity.namespace = «namespace» then threadSum weigh (ledger.get? identity) else 0 := by
    unfold Dict.weightAt threadSum
    cases ledger.get? identity <;> simp
  cases after with
  | none =>
    simp only [MemoryLedger.replaced, Option.elim_none, Dict.weight_erase, before, threadSum]
    split <;> omega
  | some thread =>
    simp only [MemoryLedger.replaced, Option.elim_some, Dict.weight_insert, before, threadSum]
    split <;> omega

namespace LedgerState

/-- The counters that the account of a namespace stands for. -/
def counted (ledger : MemoryLedger) («namespace» : String) : LedgerAccount where
  threads := ledger.namespaceThreadCount «namespace»
  persistedBytes := ledger.namespacePersistedBytes «namespace»
  reservedBytes := ledger.namespaceReservedBytes «namespace»

/-- Rows whose counters are right and whose sums are within the limits. -/
structure Accounted (limits : TraceLimits) (state : LedgerState) : Prop where
  linked : state.ledger.Linked
  accounts : ∀ «namespace», state.accounts «namespace» = counted state.ledger «namespace»
  threads : ∀ identity thread, state.ledger.get? identity = some thread → thread.Accounted limits
  threadCount : ∀ «namespace»,
    state.ledger.namespaceThreadCount «namespace» ≤ limits.maxTracerThreads
  bytes : ∀ «namespace», state.ledger.namespacePersistedBytes «namespace» +
    state.ledger.namespaceReservedBytes «namespace» ≤ limits.maxTracerBytes

theorem empty_accounted (limits : TraceLimits) : empty.Accounted limits where
  linked := ⟨by simp [empty], by simp [empty]⟩
  accounts _ := rfl
  threads := by simp [empty]
  threadCount _ := by simp [empty, MemoryLedger.namespaceThreadCount, MemoryLedger.namespaceSum]
  bytes _ := by
    simp [empty, MemoryLedger.namespacePersistedBytes, MemoryLedger.namespaceReservedBytes,
      MemoryLedger.namespaceSum]

section Sums

variable {encodedLength : TraceEvent → Nat} {change : TraceLedgerChange} {now : Nat}
  {ledger : MemoryLedger} {identity : ThreadIdentity} {after : Option MemoryThread}
  {charge : LedgerAccount}

/-- The counters of a namespace after a transition are the old ones with the deltas added. -/
theorem counted_replaced (space : identity.namespace = change.namespace)
    (before : ∀ thread, ledger.get? identity = some thread → thread.Accounted change.limits)
    (transition : ThreadTransition encodedLength change now ledger identity after charge)
    («namespace» : String) :
    counted (ledger.replaced identity after) «namespace» =
      if «namespace» = change.namespace then
        { threads := (counted ledger «namespace»).threads + charge.threads
          persistedBytes := (counted ledger «namespace»).persistedBytes + charge.persistedBytes
          reservedBytes := (counted ledger «namespace»).reservedBytes + charge.reservedBytes }
      else
        counted ledger «namespace» := by
  obtain ⟨threads, persisted, reserved⟩ := transition.charge_eq rfl before
  simp only [counted, MemoryLedger.namespaceThreadCount, MemoryLedger.namespacePersistedBytes,
    MemoryLedger.namespaceReservedBytes, namespaceSum_replaced, space, threads, persisted, reserved,
    eq_comm (a := change.namespace)]
  split <;> simp

theorem threads_le (transition : ThreadTransition encodedLength change now ledger identity after
      charge) (bound : ledger.namespaceThreadCount change.namespace ≤ change.limits.maxTracerThreads) :
    ledger.namespaceThreadCount change.namespace + charge.threads ≤
      change.limits.maxTracerThreads := by
  cases transition with
  | created key runId ownerToken leaseExpiresAt kind absent named room admissible =>
    dsimp only
    omega
  | _ => first | (simpa using bound) | (dsimp only; omega)

/-- A transition leaves the bytes of its namespace within their limit. -/
theorem bytes_le (space : identity.namespace = change.namespace)
    (before : ∀ thread, ledger.get? identity = some thread → thread.Accounted change.limits)
    (transition : ThreadTransition encodedLength change now ledger identity after charge)
    (bound : ledger.namespacePersistedBytes change.namespace +
      ledger.namespaceReservedBytes change.namespace ≤ change.limits.maxTracerBytes) :
    ledger.namespacePersistedBytes change.namespace + charge.persistedBytes +
      (ledger.namespaceReservedBytes change.namespace + charge.reservedBytes) ≤
        change.limits.maxTracerBytes := by
  cases transition with
  | created key runId ownerToken leaseExpiresAt kind absent named room admissible =>
    have room := admissible.tracerBytes
    dsimp only
    omega
  | admitted thread runId ownerToken leaseExpiresAt kind stored absent admissible =>
    have room := admissible.tracerBytes
    dsimp only
    omega
  | renewed | takenOver | checkpointed => simpa using bound
  | appended thread writer flags events leaseExpiresAt runId request includeActive kind stored held
      owned unexpired batch flagged made fits =>
      have nonneg := (before thread stored).reserves _ _ held
      obtain ⟨-, spends, keeps⟩ := appendedWriter_reserves flags leaseExpiresAt nonneg fits
      dsimp only
      cases mandatory : change.mandatory with
      | true =>
        have spent := (spends mandatory).2
        omega
      | false =>
        have kept := (keeps mandatory).2
        have room := (checkCapacity_ordinary mandatory fits).2.2
        simp only [MemoryLedger.loadState, space] at room
        omega
  | discarded thread writer kind stored held owned unused =>
    have nonneg := (before thread stored).reserves _ _ held
    dsimp only
    omega
  | removed thread writer kind stored held owned unused empty only =>
    have nonneg := (before thread stored).reserves _ _ held
    dsimp only
    omega
  | closed thread writer kind stored held owned used =>
    have nonneg := (before thread stored).reserves _ _ held
    dsimp only
    omega
  | deleted thread kind stored named inactive =>
    have accounted := before thread stored
    have persisted := accounted.nonneg
    have reserved := accounted.reservedBytes_nonneg
    dsimp only
    omega

end Sums

section Step

variable {encodedLength : TraceEvent → Nat} {limits : TraceLimits} {state : LedgerState}
  {event : LedgerEvent}

/-- One request keeps the rows accounted. -/
theorem step_accounted (accounted : state.Accounted limits) :
    (step encodedLength limits state event).Accounted limits := by
  obtain ⟨unchanged, kept⟩ | ⟨effect, identity, after, -, space, transition, replaced, charged⟩ :=
    step_cases encodedLength limits event accounted.linked
  · refine ⟨unchanged ▸ accounted.linked, ?_, ?_, ?_, ?_⟩
    · intro «namespace»
      rw [kept, unchanged, accounted.accounts]
    · rw [unchanged]
      exact accounted.threads
    · rw [unchanged]
      exact accounted.threadCount
    · rw [unchanged]
      exact accounted.bytes
  · have before := accounted.threads identity
    have same : (event.limited limits).change.namespace = event.change.namespace := rfl
    rw [← same] at space
    have sums := counted_replaced space before transition
    have threads := threads_le transition (accounted.threadCount _)
    have bytes := bytes_le space before transition (accounted.bytes _)
    constructor
    · exact replaced ▸ accounted.linked.replaced transition
    · intro «namespace»
      rw [replaced, sums, charged, Function.update_apply, same]
      split
      · next named =>
          rw [accounted.accounts, named]
          rfl
      · exact accounted.accounts «namespace»
    · intro other thread stored
      rw [replaced, MemoryLedger.get?_replaced] at stored
      split at stored
      · exact transition.accounted rfl before thread stored
      · exact accounted.threads other thread stored
    · intro «namespace»
      have count := congrArg LedgerAccount.threads (sums «namespace»)
      rw [replaced]
      split at count
      · next named =>
          rw [named] at count ⊢
          exact count.trans_le threads
      · exact count.trans_le (accounted.threadCount «namespace»)
    · intro «namespace»
      have persisted := congrArg LedgerAccount.persistedBytes (sums «namespace»)
      have reserved := congrArg LedgerAccount.reservedBytes (sums «namespace»)
      rw [replaced]
      simp only [counted] at persisted reserved
      rw [persisted, reserved]
      split
      · next named =>
          rw [named]
          exact bytes
      · exact accounted.bytes «namespace»

theorem run_accounted (encodedLength : TraceEvent → Nat) (limits : TraceLimits)
    (events : List LedgerEvent) :
    (Machine.run (step encodedLength limits) empty events).Accounted limits :=
  Machine.run_invariant (fun _ _ accounted => step_accounted accounted) (empty_accounted limits)

end Step

end LedgerState

/-! ## Mandatory batches -/

/-- A computation that is never rejected for a quota. -/
def Exempt {α : Type} (outcome : Except TracingError α) : Prop :=
  ∀ message resource, outcome ≠ .error (.quotaExceeded message resource)

section Exempt

variable {α β : Type} {outcome : Except TracingError α} {next : α → Except TracingError β}

theorem exempt_ok (value : α) : Exempt (.ok value : Except TracingError α) := by
  intro message resource raised
  cases raised

theorem Exempt.bind (first : Exempt outcome) (second : ∀ value, Exempt (next value)) :
    Exempt (outcome >>= next) := by
  intro message resource raised
  obtain early | ⟨value, -, late⟩ := bind_eq_error.mp raised
  · exact first message resource early
  · exact second value message resource late

theorem Exempt.map {f : α → β} (exempt : Exempt outcome) : Exempt (outcome.map f) := by
  intro message resource raised
  cases outcome with
  | error error =>
    obtain rfl := Except.error.inj raised
    exact exempt message resource rfl
  | ok value => cases raised

theorem exempt_reject {condition : Prop} [Decidable condition] (message : String) :
    Exempt (reject condition (.storeProtocol message)) := by
  intro quota resource raised
  simp at raised

theorem exempt_mapM {f : α → Except TracingError β} (exempt : ∀ item, Exempt (f item))
    (items : List α) : Exempt (items.mapM f) := by
  induction items with
  | nil => exact exempt_ok []
  | cons item items ih =>
    rw [List.mapM_cons]
    exact (exempt item).bind fun _ => ih.bind fun _ => exempt_ok _

theorem exempt_foldlM {f : β → α → Except TracingError β} (exempt : ∀ state item, Exempt (f state item))
    (items : List α) (state : β) : Exempt (items.foldlM f state) := by
  induction items generalizing state with
  | nil => exact exempt_ok state
  | cons item items ih =>
    rw [List.foldlM_cons]
    exact (exempt state item).bind fun _ => ih _

end Exempt

theorem resolveGraphNodeKind_exempt (current incoming : Option TraceGraphNodeKind) :
    Exempt (resolveGraphNodeKind current incoming) := by
  unfold resolveGraphNodeKind
  intro message resource raised
  split at raised
  · cases raised
  · cases raised
  · split at raised <;> cases raised

theorem modelCallMutations_exempt (event : TraceEvent) (fact : ModelCallFact) :
    Exempt (modelCallMutations event fact) := by
  unfold modelCallMutations
  intro message resource raised
  split at raised
  · split at raised <;> cases raised
  · cases raised
  · dsimp only at raised
    split at raised <;> cases raised

theorem subagentMutations_exempt (event : TraceEvent) (fact : SubagentFact) :
    Exempt (subagentMutations event fact) := by
  unfold subagentMutations
  dsimp only
  split
  · exact exempt_ok _
  · refine Exempt.map ?_
    intro message resource raised
    cases status : fact.status <;> simp [status, subagentStatus] at raised

theorem eventMutations_exempt (event : TraceEvent) : Exempt (eventMutations event) := by
  unfold eventMutations
  cases event.fact with
  | modelCall fact => exact modelCallMutations_exempt event fact
  | subagent fact => exact subagentMutations_exempt event fact
  | _ => exact exempt_ok _

theorem graphNodeMutations_exempt (events : List TraceEvent) : Exempt (graphNodeMutations events) := by
  refine (exempt_mapM eventMutations_exempt events).bind fun mutations => Exempt.map ?_
  refine exempt_foldlM (fun values mutation => ?_) _ _
  unfold coalesceMutation
  split
  · exact exempt_ok _
  · split
    · exact exempt_ok _
    · exact ((resolveGraphNodeKind_exempt _ _).bind fun _ => exempt_ok _).map

section Mandatory

variable {encodedLength : TraceEvent → Nat} {change : TraceLedgerChange}
  {state : TraceLedgerState} {thread : TraceLedgerThreadState} {writer : TraceLedgerWriterState}

theorem validateChangeScope_exempt (change : TraceLedgerChange) (state : TraceLedgerState) :
    Exempt (validateChangeScope change state) :=
  (exempt_reject _).bind fun _ => (exempt_reject _).bind fun _ => (exempt_reject _).bind fun _ =>
    (exempt_reject _).bind fun _ => exempt_reject _

theorem requireExactThread_exempt (state : TraceLedgerState) (key : TraceThreadKey) :
    Exempt (requireExactThread state key) := by
  intro message resource raised
  unfold requireExactThread at raised
  split at raised
  · cases raised
  · split at raised <;> cases raised

theorem writerLeaseExpiration_exempt (change : TraceLedgerChange) (state : TraceLedgerState) :
    Exempt (writerLeaseExpiration change state) := by
  intro message resource raised
  unfold writerLeaseExpiration at raised
  split at raised
  · cases raised
  · split at raised <;> cases raised

theorem ownedWriter_exempt (change : TraceLedgerChange) (state : TraceLedgerState)
    (requireUnexpired : Bool) : Exempt (ownedWriter change state requireUnexpired) := by
  unfold ownedWriter
  split
  · refine (requireExactThread_exempt state _).bind fun thread => ?_
    split
    · intro message resource raised
      cases raised
    · exact (exempt_reject _).bind fun _ => (exempt_reject _).bind fun _ => exempt_ok _
  · intro message resource raised
    cases raised

theorem resolveProvenAppend_exempt (change : TraceLedgerChange) (state : TraceLedgerState) :
    Exempt (resolveProvenAppend change state) := by
  unfold resolveProvenAppend
  split
  · intro message resource raised
    cases raised
  · refine (requireExactThread_exempt state _).bind fun _ => Exempt.bind ?_ fun _ => exempt_ok _
    unfold renewedByProof
    split
    · exact exempt_ok _
    · split
      · exact (writerLeaseExpiration_exempt change state).map
      · exact exempt_ok _

theorem checkBatch_exempt (change : TraceLedgerChange) (facts : List TraceSemanticFact) :
    Exempt (checkBatch change facts) :=
  (exempt_reject _).bind fun _ => (exempt_reject _).bind fun _ => exempt_reject _

theorem lifecycleFlags_exempt (mandatory : Bool) (writer : TraceLedgerWriterState)
    (facts : List TraceSemanticFact) : Exempt (lifecycleFlags mandatory writer facts) := by
  unfold lifecycleFlags
  split
  · exact (exempt_reject _).bind fun _ => (exempt_reject _).bind fun _ =>
      (exempt_reject _).bind fun _ => (exempt_reject _).bind fun _ => exempt_ok _
  · exact (exempt_reject _).bind fun _ => exempt_ok _

theorem makeEvent_exempt (encodedLength : TraceEvent → Nat) (eventId : String) (traceSeq : Int)
    (generation : String) (fact : TraceSemanticFact) :
    Exempt (makeEvent encodedLength eventId traceSeq generation fact) := by
  suffices sized : ∀ attempts event, Exempt (sizedEvent encodedLength event attempts) from sized _ _
  intro attempts
  induction attempts with
  | zero =>
    intro event message resource raised
    cases raised
  | succ attempts ih =>
    intro event
    unfold sizedEvent
    dsimp only
    split
    · exact exempt_ok _
    · exact ih _

/-- Building the events of a batch is rejected only for the size of one of them. -/
theorem appendedEvents_quota {start : Int} {drafts : List TraceStoredFact}
    {message resource : String}
    (raised : appendedEvents encodedLength change thread writer start drafts =
      .error (.quotaExceeded message resource)) : resource = "event_bytes" := by
  induction drafts generalizing start with
  | nil => cases raised
  | cons draft drafts ih =>
    simp only [appendedEvents] at raised
    obtain early | ⟨-, -, raised⟩ := bind_eq_error.mp raised
    · exact absurd early (exempt_reject _ _ _)
    obtain early | ⟨event, -, raised⟩ := bind_eq_error.mp raised
    · exact absurd early (makeEvent_exempt _ _ _ _ _ _ _)
    obtain early | ⟨-, -, raised⟩ := bind_eq_error.mp raised
    · simp only [reject_eq_error, TracingError.quotaExceeded.injEq] at early
      exact early.2.2.symm
    obtain early | ⟨rest, -, raised⟩ := bind_eq_error.mp raised
    · exact ih early
    · cases raised

/-- A mandatory batch is rejected for a quota only when one of its events is too large or when it
does not fit the reserve of its writer. -/
theorem resolveLedgerChange_quota {fresh message resource : String}
    (kind : change.kind = .appendEvents) (mandatory : change.mandatory = true)
    (raised : resolveLedgerChange encodedLength change state fresh =
      .error (.quotaExceeded message resource)) :
    resource = "event_bytes" ∨ resource = "terminal_reserve" ∧
      ∃ thread writer events,
        ownedWriter change state change.enforceWriterLease = .ok (thread, writer) ∧
        appendedEvents encodedLength change thread writer thread.nextSeq change.facts = .ok events ∧
        (writer.remainingEventReserve < events.length ∨
          writer.remainingByteReserve < persistedBytesOf events) := by
  unfold resolveLedgerChange at raised
  obtain early | ⟨-, -, raised⟩ := bind_eq_error.mp raised
  · exact absurd early (validateChangeScope_exempt _ _ _ _)
  simp only [kind, resolveAppendEvents] at raised
  split at raised
  · exact absurd raised (resolveProvenAppend_exempt _ _ _ _)
  split at raised
  · cases raised
  obtain early | ⟨⟨thread, writer⟩, owned, raised⟩ := bind_eq_error.mp raised
  · exact absurd early (ownedWriter_exempt _ _ _ _ _)
  obtain early | ⟨-, -, raised⟩ := bind_eq_error.mp raised
  · exact absurd early (checkBatch_exempt _ _ _ _)
  obtain early | ⟨flags, -, raised⟩ := bind_eq_error.mp raised
  · exact absurd early (lifecycleFlags_exempt _ _ _ _ _)
  obtain early | ⟨events, made, raised⟩ := bind_eq_error.mp raised
  · exact .inl (appendedEvents_quota early)
  obtain early | ⟨-, -, raised⟩ := bind_eq_error.mp raised
  · simp only [checkCapacity, mandatory, if_true, reject_eq_error, gt_iff_lt,
      TracingError.quotaExceeded.injEq] at early
    obtain ⟨exceeds, -, rfl⟩ := early
    exact .inr ⟨rfl, thread, writer, events, owned, made, exceeds⟩
  obtain early | ⟨leaseExpiresAt, -, raised⟩ := bind_eq_error.mp raised
  · exact absurd early (writerLeaseExpiration_exempt _ _ _ _)
  obtain early | ⟨mutations, -, raised⟩ := bind_eq_error.mp raised
  · exact absurd early (graphNodeMutations_exempt _ _ _)
  · cases raised

end Mandatory

namespace LedgerState

/-- Along every run the deltas add up to the sums over threads and writers, the events of every thread
are contiguous, and what is persisted and reserved stays within the limits.  A mandatory batch is then
rejected for a quota only when one of its events exceeds the size limit of an event or when the batch
exceeds what is left of its writer's reserve. -/
theorem ledger_accounts (encodedLength : TraceEvent → Nat) (limits : TraceLimits)
    (events : List LedgerEvent) :
    let state := Machine.run (step encodedLength limits) empty events
    state.Accounted limits ∧
      ∀ (event : LedgerEvent) message resource, event.change.kind = .appendEvents →
        event.change.mandatory = true →
        resolved encodedLength state.ledger (event.limited limits) =
          .error (.quotaExceeded message resource) →
        resource = "event_bytes" ∨ resource = "terminal_reserve" ∧
          ∃ identity thread writer made,
            state.ledger.get? identity = some thread ∧
            thread.writers.get? writer.runId = some writer ∧
            appendedEvents encodedLength (event.limited limits).change thread.state writer
              thread.state.nextSeq event.change.facts = .ok made ∧
            (writer.remainingEventReserve < made.length ∨
              writer.remainingByteReserve < persistedBytesOf made) := by
  intro state
  have accounted : state.Accounted limits := run_accounted encodedLength limits events
  refine ⟨accounted, fun event message resource kind mandatory raised => ?_⟩
  have limitedKind : (event.limited limits).change.kind = .appendEvents := kind
  have limitedMandatory : (event.limited limits).change.mandatory = true := mandatory
  unfold resolved at raised
  obtain early | ⟨loadedState, loaded, raised⟩ := bind_eq_error.mp raised
  · unfold MemoryLedger.stateForChange TraceLedgerChange.target at early
    split at early <;> simp [Except.map] at early
  obtain large | ⟨full, head, writer, made, owned, built, exceeds⟩ :=
    resolveLedgerChange_quota limitedKind limitedMandatory raised
  · exact .inl large
  · unfold MemoryLedger.stateForChange at loaded
    cases target : (event.limited limits).change.target with
    | error error => simp [target, Except.map] at loaded
    | ok found =>
      obtain ⟨identity, runId⟩ := found
      simp only [target, Except.map, Except.ok.injEq] at loaded
      subst loaded
      obtain ⟨thread, stored, rfl, held, -, -⟩ := ownedWriter_held accounted.linked target owned
      exact .inr ⟨full, identity, thread, writer, made, stored, held, built, exceeds⟩

end LedgerState

end Tinkerfin.Tracing
