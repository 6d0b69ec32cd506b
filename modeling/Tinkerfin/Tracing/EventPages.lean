import Tinkerfin.Lib.Base64
import Tinkerfin.Lib.Paging
import Tinkerfin.Lib.Stateful
import Tinkerfin.Tracing.Accounting
import Tinkerfin.Tracing.Follow

/-!
# Pages of the selected events

A handle reads the events of its selected runs page by page, at one fixed prefix of its generation.
The store answers every read with a batch of some length; the page advances over the events of other
runs and carries a cursor at the event it stopped at.
-/

namespace Tinkerfin.Tracing

open Messaging (RunIdentity ThreadIdentity bind_eq_ok)

/-! ## Cursors -/

/-- Failures of a page of events. -/
inductive TraceEventsError
  | store (error : TracingError)
  | invalidCursor (message : String)
  deriving DecidableEq

structure CursorPayload where
  «namespace» : String
  threadId : String
  generation : String
  headRunId : String
  pageAsOfSeq : Int
  lastSeq : Int
  deriving DecidableEq

/-- The checks of the fields: the last sequence is inside the prefix of the page. -/
def CursorPayload.Valid (payload : CursorPayload) : Prop :=
  0 ≤ payload.pageAsOfSeq ∧ 0 ≤ payload.lastSeq ∧ payload.lastSeq ≤ payload.pageAsOfSeq

instance CursorPayload.decidableValid (payload : CursorPayload) : Decidable payload.Valid :=
  inferInstanceAs (Decidable (_ ∧ _ ∧ _))

/-- How the validation library writes and reads the fields of a payload. -/
structure PayloadJson where
  dump : CursorPayload → List UInt8
  load : List UInt8 → Option CursorPayload

def encodeCursor (json : PayloadJson) (payload : CursorPayload) : List Char :=
  Base64.encode (json.dump payload)

def decodeCursor (json : PayloadJson) (value : List Char) : Except TraceEventsError CursorPayload :=
  match (Base64.decode (value ++ Base64.padding value.length)).bind json.load with
  | some payload =>
    if payload.Valid then .ok payload else .error (.invalidCursor "Trace cursor is invalid")
  | none => .error (.invalidCursor "Trace cursor is invalid")

theorem decodeCursor_encode {json : PayloadJson} {payload : CursorPayload}
    (kept : json.load (json.dump payload) = some payload) (valid : payload.Valid) :
    decodeCursor json (encodeCursor json payload) = .ok payload := by
  simp [decodeCursor, encodeCursor, Base64.decode_encode, kept, valid]

/-! ## Reading one page -/

/-- What a store answers to its reads, one after another: a batch after a sequence, inside a prefix,
of at most so many events.  Others may commit between the reads. -/
structure TraceReads where
  followBatchSize : Nat
  readEvents : (call : Nat) → (afterSeq asOfSeq : Int) → (limit : Nat) →
    Except TracingError (List TraceEvent)

/-- The events of a batch have the generation and follow each other. -/
def validateEventBatch (key : TraceThreadKey) : Int → List TraceEvent → Except TracingError Unit
  | _, [] => .ok ()
  | expected, event :: batch => do
    reject (event.generation ≠ key.generation ∨ event.traceSeq ≠ expected)
      (.storeProtocol "Trace Store returned non-contiguous generation events")
    validateEventBatch key (expected + 1) batch

/-- Advance over a batch and select, until the page is full. -/
def selectEvents (selectedRunIds : List String) (asOfSeq : Int) (limit : Nat) :
    List TraceEvent → List TraceEvent → Int → Except TracingError (List TraceEvent × Int)
  | [], selected, cursor => .ok (selected, cursor)
  | event :: batch, selected, _ =>
    if asOfSeq < event.traceSeq then
      .error (.storeProtocol "Trace Store returned an event beyond the requested prefix")
    else if event.fact.identity.runId ∈ selectedRunIds then
      if (selected ++ [event]).length = limit then
        .ok (selected ++ [event], event.traceSeq)
      else
        selectEvents selectedRunIds asOfSeq limit batch (selected ++ [event]) event.traceSeq
    else
      selectEvents selectedRunIds asOfSeq limit batch selected event.traceSeq

/-- One read of the store. -/
def TraceReads.next (reads : TraceReads) (afterSeq asOfSeq : Int) (limit : Nat) :
    EStateM TracingError Nat (List TraceEvent) := fun call =>
  match reads.readEvents call afterSeq asOfSeq limit with
  | .ok batch => .ok batch (call + 1)
  | .error error => .error error (call + 1)

/-- The rounds of a page; a round that reads advances the cursor, so as many rounds as there are
sequences before the boundary are enough. -/
def readRounds (reads : TraceReads) (key : TraceThreadKey) (selectedRunIds : List String)
    (asOfSeq : Int) (limit : Nat) :
    Nat → List TraceEvent → Int → EStateM TracingError Nat (List TraceEvent × Int)
  | 0, selected, cursor => pure (selected, cursor)
  | rounds + 1, selected, cursor =>
    if cursor < asOfSeq ∧ selected.length < limit then do
      let batch ← reads.next cursor asOfSeq (max limit reads.followBatchSize)
      if batch = [] then
        throw (.storeProtocol "Trace Store returned a gap inside a fixed event prefix")
      let read ← ofExcept do
        validateEventBatch key (cursor + 1) batch
        selectEvents selectedRunIds asOfSeq limit batch selected cursor
      readRounds reads key selectedRunIds asOfSeq limit rounds read.1 read.2
    else
      pure (selected, cursor)

def readSelectedEvents (reads : TraceReads) (key : TraceThreadKey) (selectedRunIds : List String)
    (afterSeq asOfSeq : Int) (limit : Nat) : EStateM TracingError Nat (List TraceEvent × Int) :=
  readRounds reads key selectedRunIds asOfSeq limit (asOfSeq - afterSeq).toNat [] afterSeq

/-- A live or deleted view of one fixed prefix. -/
structure TraceHandle where
  key : TraceThreadKey
  asOfSeq : Int
  headRunId : String
  selectedRunIds : List String
  deleted : Bool

structure TraceEventPage where
  items : List TraceEvent
  nextCursor : Option (List Char)
  pageAsOfSeq : Int

/-- The payload of the cursor at a sequence. -/
def TraceHandle.payload (handle : TraceHandle) (lastSeq : Int) : CursorPayload where
  «namespace» := handle.key.namespace
  threadId := handle.key.threadId
  generation := handle.key.generation
  headRunId := handle.headRunId
  pageAsOfSeq := handle.asOfSeq
  lastSeq

/-- The library reads back the cursors of a handle. -/
def PayloadJson.Keeps (json : PayloadJson) (handle : TraceHandle) : Prop :=
  ∀ lastSeq : Int, 0 ≤ lastSeq → lastSeq ≤ handle.asOfSeq →
    json.load (json.dump (handle.payload lastSeq)) = some (handle.payload lastSeq)

/-- The sequence that a cursor of the handle stands at. -/
def TraceHandle.cursorSeq (json : PayloadJson) (handle : TraceHandle) :
    Option (List Char) → Except TraceEventsError Int
  | none => .ok 0
  | some cursor => do
    let payload ← decodeCursor json cursor
    if payload.namespace ≠ handle.key.namespace ∨ payload.threadId ≠ handle.key.threadId ∨
        payload.generation ≠ handle.key.generation ∨ payload.headRunId ≠ handle.headRunId ∨
        payload.pageAsOfSeq ≠ handle.asOfSeq then
      .error (.invalidCursor "Trace cursor belongs to another handle")
    else
      .ok payload.lastSeq

/-- Read one page at the fixed prefix of the handle. -/
def TraceHandle.events (json : PayloadJson) (reads : TraceReads) (handle : TraceHandle)
    (cursor : Option (List Char)) (limit : Nat) : EStateM TraceEventsError Nat TraceEventPage := do
  if handle.deleted then
    throw (.store (.threadNotFound "Trace handle generation was deleted" handle.key.threadId))
  if limit < 1 ∨ 1000 < limit then
    throw (.store (.invalidValue "limit must be between 1 and 1000"))
  let lastSeq ← ofExcept (handle.cursorSeq json cursor)
  let (items, finalSeq) ← (readSelectedEvents reads handle.key handle.selectedRunIds lastSeq
    handle.asOfSeq limit).adaptExcept .store
  pure
    { items
      nextCursor :=
        if finalSeq < handle.asOfSeq then some (encodeCursor json (handle.payload finalSeq))
        else none
      pageAsOfSeq := handle.asOfSeq }

/-! ## What a page reads -/

/-- The committed events of a generation up to a boundary. -/
structure FixedPrefix (key : TraceThreadKey) (history : List TraceEvent) : Prop where
  numbered : ∀ (position : Nat) event, history[position]? = some event →
    event.traceSeq = (position : Int) + 1
  generation : ∀ event ∈ history, event.generation = key.generation

/-- Every batch of the store is a non-empty beginning of the events after its cursor. -/
def TraceReads.Serves (reads : TraceReads) (history : List TraceEvent) : Prop :=
  ∀ call position limit batch, position < history.length → 1 ≤ limit →
    reads.readEvents call position history.length limit = .ok batch →
      batch ≠ [] ∧ batch <+: history.drop position

/-- No read of the store fails. -/
def TraceReads.Available (reads : TraceReads) (history : List TraceEvent) : Prop :=
  ∀ call position limit, position < history.length → 1 ≤ limit →
    ∃ batch, reads.readEvents call position history.length limit = .ok batch

/-- The events of the selected runs between two positions. -/
def selectedBetween (selectedRunIds : List String) (history : List TraceEvent) (start stop : Nat) :
    List TraceEvent :=
  (history.segment start stop).filter fun event => event.fact.identity.runId ∈ selectedRunIds

section Pages

variable {key : TraceThreadKey} {history batch selected : List TraceEvent} {event : TraceEvent}
  {selectedRunIds : List String} {position limit : Nat} {reads : TraceReads}

theorem head_of_isPrefix_drop (starts : event :: batch <+: history.drop position) :
    history[position]? = some event ∧ batch <+: history.drop (position + 1) := by
  obtain ⟨rest, whole⟩ := starts
  have split : history.drop position = event :: (batch ++ rest) := whole.symm
  refine ⟨?_, rest, ?_⟩
  · rw [← List.head?_drop, split, List.head?_cons]
  · rw [← List.tail_drop, split, List.tail_cons]

theorem validateEventBatch_ok (fixed : FixedPrefix key history)
    (starts : batch <+: history.drop position) :
    validateEventBatch key (position + 1) batch = .ok () := by
  induction batch generalizing position with
  | nil => rfl
  | cons event batch ih =>
    obtain ⟨here, rest⟩ := head_of_isPrefix_drop starts
    have fits : ¬(event.generation ≠ key.generation ∨ event.traceSeq ≠ (position : Int) + 1) := by
      simp [fixed.numbered position event here,
        fixed.generation event (List.mem_of_getElem? here)]
    have later := ih rest
    push_cast at later
    rw [validateEventBatch, reject, if_neg fits]
    exact later

theorem selectedBetween_join (selectedRunIds : List String) (history : List TraceEvent)
    {start middle stop : Nat} (first : start ≤ middle) (second : middle ≤ stop) :
    selectedBetween selectedRunIds history start middle ++
      selectedBetween selectedRunIds history middle stop =
      selectedBetween selectedRunIds history start stop := by
  rw [selectedBetween, selectedBetween, ← List.filter_append, List.segment_append first second]
  rfl

theorem selectedBetween_self : selectedBetween selectedRunIds history position position = [] := by
  rw [selectedBetween, List.segment_eq_nil (Nat.le_refl _), List.filter_nil]

theorem selectedBetween_succ (selectedRunIds : List String)
    (here : history[position]? = some event) :
    selectedBetween selectedRunIds history position (position + 1) =
      if event.fact.identity.runId ∈ selectedRunIds then [event] else [] := by
  have single : history.segment position (position + 1) = [event] := by
    rw [List.segment, List.take_add_one, here, Option.toList_some]
    have inside : position < history.length := (List.getElem?_eq_some_iff.mp here).1
    rw [List.drop_append_of_le_length (by simp [inside.le]), List.drop_eq_nil_of_le (by simp),
      List.nil_append]
  rw [selectedBetween, single]
  split <;> simp_all

/-- A page over a batch stops at its end or at the event that fills it. -/
theorem selectEvents_ok (selectedRunIds : List String) (fixed : FixedPrefix key history)
    (starts : batch <+: history.drop position)
    (room : selected.length < limit) :
    ∃ reached, position ≤ reached ∧ reached ≤ position + batch.length ∧
      (batch ≠ [] → position < reached) ∧
      selectEvents selectedRunIds history.length limit batch selected position =
        .ok (selected ++ selectedBetween selectedRunIds history position reached, reached) ∧
      (selected ++ selectedBetween selectedRunIds history position reached).length ≤ limit := by
  induction batch generalizing position selected with
  | nil =>
    exact ⟨position, Nat.le_refl _, Nat.le_refl _, fun none => absurd rfl none,
      by rw [selectedBetween_self, List.append_nil, selectEvents], by
        rw [selectedBetween_self, List.append_nil]
        exact room.le⟩
  | cons event batch ih =>
    obtain ⟨here, rest⟩ := head_of_isPrefix_drop starts
    have sequence := fixed.numbered position event here
    have inside : ¬((history.length : Int) < event.traceSeq) := by
      have := (List.getElem?_eq_some_iff.mp here).1
      omega
    have one := selectedBetween_succ selectedRunIds here
    rw [selectEvents, if_neg inside]
    by_cases chosen : event.fact.identity.runId ∈ selectedRunIds
    · rw [if_pos chosen] at one ⊢
      by_cases full : (selected ++ [event]).length = limit
      · refine ⟨position + 1, by omega, by simp, fun _ => by omega, ?_, ?_⟩
        · rw [if_pos full, one, sequence]
          rfl
        · rw [one, full]
      · have more : (selected ++ [event]).length < limit := by
          simp only [List.length_append, List.length_singleton] at full ⊢
          omega
        obtain ⟨reached, after, before, -, answer, fits⟩ := ih rest more
        have joined := selectedBetween_join selectedRunIds history (Nat.le_succ position) after
        rw [one] at joined
        refine ⟨reached, by omega, ?_, fun _ => by omega, ?_, ?_⟩
        · rw [List.length_cons]
          omega
        · rw [if_neg full, sequence, ← joined]
          simpa using answer
        · rw [← joined]
          simpa using fits
    · rw [if_neg chosen] at one ⊢
      obtain ⟨reached, after, before, -, answer, fits⟩ := ih rest room
      have joined := selectedBetween_join selectedRunIds history (Nat.le_succ position) after
      rw [one, List.nil_append] at joined
      refine ⟨reached, by omega, ?_, fun _ => by omega, ?_, ?_⟩
      · rw [List.length_cons]
        omega
      · rw [sequence, ← joined]
        exact_mod_cast answer
      · rw [← joined]
        exact fits

theorem next_ensures (reads : TraceReads) (afterSeq asOfSeq : Int) (limit call : Nat) :
    (reads.next afterSeq asOfSeq limit).Ensures call
      (fun batch _ => reads.readEvents call afterSeq asOfSeq limit = .ok batch)
      fun error _ => reads.readEvents call afterSeq asOfSeq limit = .error error := by
  unfold EStateM.Ensures
  simp only [EStateM.run, TraceReads.next]
  cases reads.readEvents call afterSeq asOfSeq limit <;> rfl

/-- The rounds of a page read on to the end of the prefix or until the page is full, and a failing
read is the only way to raise. -/
theorem readRounds_ensures (selected : List TraceEvent) (fixed : FixedPrefix key history)
    (serves : reads.Serves history) (positive : 1 ≤ limit) (rounds : Nat)
    (enough : history.length ≤ position + rounds)
    (inside : position ≤ history.length) (short : selected.length ≤ limit) (call : Nat) :
    (readRounds reads key selectedRunIds history.length limit rounds selected position).Ensures call
      (fun read _ => ∃ reached : Nat, position ≤ reached ∧ reached ≤ history.length ∧
        read =
          (selected ++ selectedBetween selectedRunIds history position reached, (reached : Int)) ∧
        read.1.length ≤ limit ∧ (reached < history.length → read.1.length = limit) ∧
        (position < history.length → selected.length < limit → position < reached))
      fun _ _ => ¬reads.Available history := by
  induction rounds generalizing position selected call with
  | zero =>
    have ended : position = history.length := by omega
    refine ⟨position, Nat.le_refl _, inside, ?_, short, fun before => ?_, fun before => ?_⟩
    · rw [selectedBetween_self, List.append_nil]
    · omega
    · omega
  | succ rounds ih =>
    rw [readRounds]
    refine EStateM.ensures_ite.mpr ⟨fun ⟨before, room⟩ => ?_, fun ended => ?_⟩
    · have before : position < history.length := by exact_mod_cast before
      have asks : 1 ≤ max limit reads.followBatchSize := positive.trans (le_max_left _ _)
      refine EStateM.ensures_bind.mpr ((next_ensures reads _ _ _ call).mono ?_ ?_)
      · intro batch call answer
        obtain ⟨some, starts⟩ := serves _ position _ batch before asks answer
        rw [if_neg some]
        obtain ⟨reached, after, within, advances, chosen, fits⟩ :=
          selectEvents_ok selectedRunIds fixed starts room
        have bound : position + batch.length ≤ history.length := by
          have := starts.length_le
          rw [List.length_drop] at this
          omega
        have checked : (do
            validateEventBatch key ((position : Int) + 1) batch
            selectEvents selectedRunIds history.length limit batch selected position) =
            .ok (selected ++ selectedBetween selectedRunIds history position reached,
              (reached : Int)) := by
          rw [validateEventBatch_ok fixed starts]
          exact chosen
        have advanced := advances some
        simp only [checked, pure_bind, ofExcept]
        refine (ih _ (by omega) (by omega) fits call).mono ?_ fun _ _ => id
        rintro read _ ⟨last, forward, ends, rfl, held, full, -⟩
        refine ⟨last, by omega, ends, ?_, held, full, fun _ _ => by omega⟩
        rw [List.append_assoc, selectedBetween_join _ _ after forward]
      · intro error _ failed available
        obtain ⟨batch, answer⟩ := available call position _ before asks
        cases failed.symm.trans answer
    · refine ⟨position, Nat.le_refl _, inside, ?_, short, fun before => ?_, fun before room => ?_⟩
      · rw [selectedBetween_self, List.append_nil]
      · have : ¬selected.length < limit := fun room => ended ⟨by exact_mod_cast before, room⟩
        change selected.length = limit
        omega
      · exact absurd ⟨by exact_mod_cast before, room⟩ ended

end Pages

/-! ## Following the cursors -/

section Reading

variable {json : PayloadJson} {reads : TraceReads} {handle other : TraceHandle}
  {history : List TraceEvent} {position limit : Nat} {cursor : Option (List Char)}

theorem cursorSeq_encode (keeps : json.Keeps handle) {lastSeq : Int} (start : 0 ≤ lastSeq)
    (inside : lastSeq ≤ handle.asOfSeq) :
    handle.cursorSeq json (some (encodeCursor json (handle.payload lastSeq))) = .ok lastSeq := by
  have valid : (handle.payload lastSeq).Valid := ⟨start.trans inside, start, inside⟩
  simp only [TraceHandle.cursorSeq, decodeCursor_encode (keeps lastSeq start inside) valid]
  simp [TraceHandle.payload, bind, Except.bind]

/-- A text is accepted only under one namespace, thread, generation, head and boundary. -/
theorem cursorSeq_bound {text : List Char} {here there : Int}
    (accepted : handle.cursorSeq json (some text) = .ok here)
    (again : other.cursorSeq json (some text) = .ok there) :
    there = here ∧ other.key = handle.key ∧ other.headRunId = handle.headRunId ∧
      other.asOfSeq = handle.asOfSeq := by
  simp only [TraceHandle.cursorSeq] at accepted again
  cases decoded : decodeCursor json text with
  | error error => simp [decoded, bind, Except.bind] at accepted
  | ok payload =>
    simp only [decoded, bind, Except.bind] at accepted again
    split at accepted
    · cases accepted
    · next first =>
        split at again
        · cases again
        · next second =>
            simp only [ne_eq, not_or, not_not] at first second
            obtain ⟨space, thread, generation, head, boundary⟩ := first
            obtain ⟨space', thread', generation', head', boundary'⟩ := second
            refine ⟨(Except.ok.inj again).symm.trans (Except.ok.inj accepted), ?_,
              head'.symm.trans head, boundary'.symm.trans boundary⟩
            rcases handle with ⟨⟨⟨_, _⟩, _⟩, _, _, _, _⟩
            rcases other with ⟨⟨⟨_, _⟩, _⟩, _, _, _, _⟩
            cases space'; cases thread'; cases generation'
            cases space; cases thread; cases generation
            rfl

theorem cursorSeq_of_events {call made : Nat} {page : TraceEventPage}
    (answer : (handle.events json reads cursor limit).run call = .ok page made) :
    ∃ lastSeq, handle.cursorSeq json cursor = .ok lastSeq := by
  cases accepted : handle.cursorSeq json cursor with
  | ok lastSeq => exact ⟨lastSeq, rfl⟩
  | error error =>
    have raises : (handle.events json reads cursor limit).Ensures call (fun _ _ => False)
        fun _ _ => True := by
      simp only [TraceHandle.events, accepted, EStateM.ensures_bind]
      refine EStateM.ensures_ite.mpr ⟨fun _ => trivial, fun _ => ?_⟩
      refine EStateM.ensures_ite.mpr ⟨fun _ => trivial, fun _ => ?_⟩
      exact EStateM.ensures_bind.mpr (EStateM.ensures_ofExcept.mpr ⟨by simp, by simp⟩)
    exact (raises.of_ok answer).elim

/-- A page shows what lies between its cursor and the event it stops at, and names a cursor there
unless that is the boundary. -/
theorem events_ensures (fixed : FixedPrefix handle.key history) (serves : reads.Serves history)
    (keeps : json.Keeps handle) (live : handle.deleted = false)
    (boundary : handle.asOfSeq = history.length)
    (bounds : 1 ≤ limit ∧ limit ≤ 1000)
    (accepted : handle.cursorSeq json cursor = .ok (position : Int))
    (inside : position ≤ history.length) (call : Nat) :
    (handle.events json reads cursor limit).Ensures call
      (fun page _ => ∃ reached, position ≤ reached ∧ reached ≤ history.length ∧
        page.items = selectedBetween handle.selectedRunIds history position reached ∧
        page.items.length ≤ limit ∧
        match page.nextCursor with
        | none => reached = history.length
        | some after => handle.cursorSeq json (some after) = .ok (reached : Int) ∧
            position < reached)
      fun _ _ => ¬reads.Available history := by
  have fits : ¬(limit < 1 ∨ 1000 < limit) := by omega
  simp only [TraceHandle.events, live, Bool.false_eq_true, if_false, fits, accepted, ofExcept,
    pure_bind, EStateM.ensures_bind, EStateM.ensures_adaptExcept, readSelectedEvents, boundary]
  refine (readRounds_ensures [] fixed serves bounds.1 _ (by omega) inside
    (Nat.zero_le _) call).mono ?_ fun _ _ => id
  rintro read _ ⟨reached, forward, ends, rfl, held, full, advances⟩
  refine ⟨reached, forward, ends, rfl, held, ?_⟩
  by_cases before : (reached : Int) < history.length
  · simp only [if_pos before]
    exact ⟨cursorSeq_encode keeps (Int.natCast_nonneg _) (by omega),
      advances (by omega) bounds.1⟩
  · simp only [if_neg before]
    omega

/-- The calls made and the pages read before a page of a reading. -/
def madeBefore (call : Nat) (from? : Option (List Char × Nat × Nat)) : Nat × Nat :=
  (from?.map Prod.snd).getD (call, 0)

/-- One page of a reading, with the calls made and the pages read after it. -/
def TraceHandle.page (json : PayloadJson) (reads : TraceReads) (handle : TraceHandle)
    (limits : Nat → Nat) (call : Nat) (from? : Option (List Char × Nat × Nat)) :
    Except TraceEventsError (TraceEventPage × Nat × Nat) :=
  match (handle.events json reads (from?.map Prod.fst) (limits (madeBefore call from?).2)).run
      (madeBefore call from?).1 with
  | .ok page calls => .ok (page, calls, (madeBefore call from?).2 + 1)
  | .error error _ => .error error

/-- The cursor that a page of a reading names. -/
def nextPage (read : TraceEventPage × Nat × Nat) : Option (List Char × Nat × Nat) :=
  read.1.nextCursor.map fun cursor => (cursor, read.2)

/-- Where a reading goes on. -/
def TraceHandle.reachedSeq (json : PayloadJson) (handle : TraceHandle)
    (from? : Option (List Char × Nat × Nat)) : Nat :=
  match handle.cursorSeq json (from?.map Prod.fst) with
  | .ok lastSeq => lastSeq.toNat
  | .error _ => 0

/-- A reading can go on at a position inside the prefix. -/
def TraceHandle.GoesOn (json : PayloadJson) (handle : TraceHandle) (history : List TraceEvent)
    (from? : Option (List Char × Nat × Nat)) : Prop :=
  ∃ position : Nat, handle.cursorSeq json (from?.map Prod.fst) = .ok (position : Int) ∧
    position ≤ history.length

/-- The pages of a reading sweep the selected events. -/
theorem page_sweeps (fixed : FixedPrefix handle.key history) (serves : reads.Serves history)
    (keeps : json.Keeps handle) (live : handle.deleted = false)
    (boundary : handle.asOfSeq = history.length)
    (limits : Nat → Nat) (bounds : ∀ index, 1 ≤ limits index ∧ limits index ≤ 1000) (call : Nat) :
    Paging.Sweeps (selectedBetween handle.selectedRunIds history) history.length
      (handle.reachedSeq json) (handle.GoesOn json history) (handle.page json reads limits call)
      (fun read => read.1.items) nextPage where
  joins first second := selectedBetween_join _ _ first second
  reaches := by
    rintro from? read ⟨position, accepted, inside⟩ answer
    have place : handle.reachedSeq json from? = position := by
      simp [TraceHandle.reachedSeq, accepted]
    have ensures := events_ensures fixed serves keeps live boundary
      (bounds (madeBefore call from?).2) accepted inside
      (madeBefore call from?).1
    unfold TraceHandle.page at answer
    split at answer
    · next page calls outcome =>
        obtain rfl := Except.ok.inj answer
        obtain ⟨reached, forward, ends, shows, -, follows⟩ := ensures.of_ok outcome
        refine ⟨reached, place ▸ forward, ends, place ▸ shows, ?_⟩
        cases goes : page.nextCursor with
        | none => simpa [nextPage, goes] using follows
        | some after =>
          rw [goes] at follows
          obtain ⟨again, advanced⟩ := follows
          simp only [nextPage, goes, Option.map_some]
          refine ⟨⟨reached, again, ends⟩, ?_, place ▸ advanced⟩
          simp [TraceHandle.reachedSeq, again]
    · cases answer

theorem page_answers (fixed : FixedPrefix handle.key history) (serves : reads.Serves history)
    (available : reads.Available history) (keeps : json.Keeps handle)
    (live : handle.deleted = false)
    (boundary : handle.asOfSeq = history.length) (limits : Nat → Nat)
    (bounds : ∀ index, 1 ≤ limits index ∧ limits index ≤ 1000) (call : Nat)
    (from? : Option (List Char × Nat × Nat)) (goes : handle.GoesOn json history from?) :
    ∃ read, handle.page json reads limits call from? = .ok read := by
  obtain ⟨position, accepted, inside⟩ := goes
  have ensures := events_ensures fixed serves keeps live boundary
    (bounds (madeBefore call from?).2) accepted inside (madeBefore call from?).1
  unfold TraceHandle.page
  split
  · exact ⟨_, rfl⟩
  · next outcome => exact absurd available (ensures.of_error outcome)

/-- Whatever the limits of the pages, the batches of the store and the events committed meanwhile, a
reading from the start comes to an end and shows exactly the events of the selected runs up to the
boundary, in order; and a cursor is accepted only by handles of its namespace, thread, generation,
head and boundary. -/
theorem events_paged (json : PayloadJson) (reads : TraceReads) (handle : TraceHandle)
    (history : List TraceEvent) (fixed : FixedPrefix handle.key history)
    (serves : reads.Serves history) (keeps : json.Keeps handle) (live : handle.deleted = false)
    (boundary : handle.asOfSeq = history.length) (limits : Nat → Nat)
    (bounds : ∀ index, 1 ≤ limits index ∧ limits index ≤ 1000) (call : Nat) :
    (∀ pages, Paging.Reads (handle.page json reads limits call) nextPage none pages →
      pages.flatMap (fun read => read.1.items) =
        history.filter fun event => event.fact.identity.runId ∈ handle.selectedRunIds) ∧
    (reads.Available history →
      ∃ pages, Paging.Reads (handle.page json reads limits call) nextPage none pages) ∧
    ∀ (other : TraceHandle) (others : TraceReads) (text : List Char) (limit otherLimit : Nat)
      (call otherCall made otherMade : Nat) (page otherPage : TraceEventPage),
      (handle.events json reads (some text) limit).run call = .ok page made →
      (other.events json others (some text) otherLimit).run otherCall = .ok otherPage otherMade →
        other.key = handle.key ∧ other.headRunId = handle.headRunId ∧
          other.asOfSeq = handle.asOfSeq := by
  have sweeps := page_sweeps fixed serves keeps live boundary limits bounds call
  have start : handle.GoesOn json history none := ⟨0, rfl, Nat.zero_le _⟩
  refine ⟨fun pages reading => ?_, fun available => ?_, ?_⟩
  · rw [sweeps.shows_all start reading]
    change (history.segment 0 history.length).filter _ = _
    rw [List.segment, List.take_length, List.drop_zero]
  · exact sweeps.ends
      (page_answers fixed serves available keeps live boundary limits bounds call) start
  · intro other others text _ _ _ _ _ _ _ _ answer again
    obtain ⟨here, accepted⟩ := cursorSeq_of_events answer
    obtain ⟨there, accepts⟩ := cursorSeq_of_events again
    exact (cursorSeq_bound accepted accepts).2

end Reading

/-! ### A prefix of two runs -/

/-- An event of a run of one thread. -/
def pageEvent (traceSeq : Int) (runId : String) : TraceEvent where
  eventId := "event"
  traceSeq
  generation := "generation"
  fact := .callTracking
    { occurredAt := 0
      identity := { «namespace» := "tenant", threadId := "thread", runId } }
  persistedBytes := 1

def pageHistory : List TraceEvent := [pageEvent 1 "run", pageEvent 2 "sibling", pageEvent 3 "run"]

def pageHandle : TraceHandle where
  key := { «namespace» := "tenant", threadId := "thread", generation := "generation" }
  asOfSeq := 3
  headRunId := "run"
  selectedRunIds := ["run"]
  deleted := false

/-- A store that answers one event at a time. -/
def pageReads : TraceReads where
  followBatchSize := 1
  readEvents _ afterSeq _ _ := .ok ((pageHistory.drop afterSeq.toNat).take 1)

/-- The text that the validation library writes for a payload. -/
def dumpPayload (payload : CursorPayload) : List UInt8 :=
  let member (name text : String) : String := Json.quote name ++ ":" ++ text
  Bytes.utf8 ("\x7b" ++ ",".intercalate
    [member "namespace" (Json.quote payload.namespace),
      member "threadId" (Json.quote payload.threadId),
      member "generation" (Json.quote payload.generation),
      member "headRunId" (Json.quote payload.headRunId),
      member "pageAsOfSeq" (toString payload.pageAsOfSeq),
      member "lastSeq" (toString payload.lastSeq)] ++ "\x7d")

/-- The library on the cursors of this handle. -/
def pageJson : PayloadJson where
  dump := dumpPayload
  load bytes := ([0, 1, 2, 3].map pageHandle.payload).find? fun payload =>
    dumpPayload payload = bytes

/-- Pages of one event show the two events of the selected run. -/
theorem events_paged_siblings : ∃ pages,
    Paging.Reads (pageHandle.page pageJson pageReads (fun _ => 1) 0) nextPage none pages ∧
      (pages.flatMap fun read => read.1.items).length = 2 := by
  have fixed : FixedPrefix pageHandle.key pageHistory := by
    constructor
    · rintro (_ | _ | _ | position) event here
      all_goals simp [pageHistory] at here
      all_goals (subst here; rfl)
    · simp [pageHistory, pageEvent, pageHandle]
  have serves : pageReads.Serves pageHistory := by
    intro call position limit batch inside _ answer
    obtain rfl := Except.ok.inj answer
    refine ⟨fun none => ?_, List.take_prefix _ _⟩
    have short := congrArg List.length none
    simp only [Int.toNat_natCast, List.length_take, List.length_drop, List.length_nil] at short
    omega
  have keeps : pageJson.Keeps pageHandle := by
    intro lastSeq start inside
    have only : lastSeq = 0 ∨ lastSeq = 1 ∨ lastSeq = 2 ∨ lastSeq = 3 := by
      change lastSeq ≤ 3 at inside
      omega
    obtain rfl | rfl | rfl | rfl := only
    all_goals decide +kernel
  obtain ⟨shows, ends, -⟩ := events_paged pageJson pageReads pageHandle pageHistory fixed serves
    keeps rfl rfl (fun _ => 1) (fun _ => ⟨Nat.le_refl 1, by omega⟩) 0
  obtain ⟨pages, reading⟩ := ends fun _ _ _ _ _ => ⟨_, rfl⟩
  exact ⟨pages, reading, by rw [shows pages reading]; decide +kernel⟩

/-! ## The memory backend -/

section Memory

variable {encodedLength : TraceEvent → Nat} {codec : TracePayloadCodec} {limits : TraceLimits}

/-- The reads of a store over memory ledgers, each at its own moment. -/
def memoryReads (encodedLength : TraceEvent → Nat) (codec : TracePayloadCodec)
    (key : TraceThreadKey) (followBatchSize : Nat) (ledgers : Nat → MemoryLedger)
    (now : Nat → Nat) : TraceReads where
  followBatchSize
  readEvents call afterSeq asOfSeq limit := do
    let request : TraceEventPageRequest :=
      { key, direction := .forward, limit, afterSeq := some afterSeq, asOfSeq := some asOfSeq }
    let page ← (ledgers call).readEventPage request (now call)
    decodeEventPage encodedLength codec true page request

/-- Reads of ledgers that keep a prefix of the generation serve it, whatever was committed behind
it. -/
theorem memoryReads_serves {key : TraceThreadKey} {followBatchSize : Nat}
    {ledgers : Nat → MemoryLedger} {now : Nat → Nat} {history : List TraceEvent}
    (kept : ∀ call, ∃ thread, (ledgers call).get? key.toThreadIdentity = some thread ∧
      thread.Accounted limits ∧ history <+: thread.committed) :
    (memoryReads encodedLength codec key followBatchSize ledgers now).Serves history := by
  intro call position limit batch inside asks answer
  obtain ⟨thread, stored, accounted, starts⟩ := kept call
  simp only [memoryReads, bind_eq_ok] at answer
  obtain ⟨page, read, decoded⟩ := answer
  simp only [decodeEventPage, bind_eq_ok] at decoded
  obtain ⟨-, -, -, -, -, -, -, -, decoded⟩ := decoded
  have each := forall₂_of_mapM decoded
  have tail : thread.state.nextSeq - 1 = thread.events.length := by
    rw [accounted.nextSeq]
    omega
  have length : history.length ≤ thread.events.length := by
    simpa [MemoryThread.committed] using starts.length_le
  simp only [MemoryLedger.readEventPage, stored] at read
  split at read
  · cases read
  · obtain rfl := Except.ok.inj read
    have stop : min (min (history.length : Int) (thread.events.length : Int))
        ((position : Int) + limit) = ((min history.length (position + limit) : Nat) : Int) := by
      omega
    have first : min (position : Int) (thread.events.length : Int) = position := by omega
    simp only [tail, Option.getD_some, first, stop] at each
    have shown := decodeEvents_cached each
    rw [slice, List.map_segment, Int.toNat_natCast, Int.toNat_natCast] at shown
    change batch = thread.committed.segment position _ at shown
    obtain ⟨rest, whole⟩ := starts
    rw [← whole, List.segment_append_right (min_le_left _ _)] at shown
    rw [shown]
    refine ⟨fun none => ?_, List.IsPrefix.drop (List.take_prefix _ _) _⟩
    have length : (history.segment position (min history.length (position + limit))).length =
        min history.length (position + limit) - position :=
      List.length_segment (min_le_left _ _)
    rw [none, List.length_nil] at length
    omega

end Memory

end Tinkerfin.Tracing
