import Mathlib.Algebra.Order.Group.Defs
import Mathlib.Data.List.Basic
import Mathlib.Tactic.Common
import Tinkerfin.Lib.Machine

/-!
# Micro-batching of text events

A generator between an upstream iterator and its consumer merges neighbouring text events of one
message.  It flushes a batch at a size, at an age, at another message, before every other event and
at the end.  While a batch is pending it waits for the next pull and for a timer, and a pull that a
timer overtakes is kept.
-/

namespace Tinkerfin.Agui

universe u v w

/-- A piece of the text of one message. -/
structure TextMessageContentEvent (ρ : Type u) where
  messageId : String
  delta : String
  rawEvent : Option ρ := none
  timestamp : Option Int := none

/-- An event of the protocol. -/
inductive BaseEvent (ρ : Type u) (ε : Type v)
  | textContent (event : TextMessageContentEvent ρ)
  | other (event : ε)

/-! ## The batcher -/

/-- A pending text with its limits. -/
structure ContentBatcher (K : Type w) (ρ : Type u) where
  charThreshold : Int
  timeThreshold : K
  messageId : Option String := none
  buffer : List String := []
  bufferChars : Nat := 0
  rawEvent : Option ρ := none
  bufferStartedAt : Option K := none
  /-- A pending text has a message and an age. -/
  owned : buffer ≠ [] → messageId.isSome = true ∧ bufferStartedAt.isSome = true := by simp

namespace ContentBatcher

variable {K : Type w} {ρ : Type u} {ε : Type v}

/-- The batcher without its text. -/
def cleared (batcher : ContentBatcher K ρ) : ContentBatcher K ρ :=
  { charThreshold := batcher.charThreshold, timeThreshold := batcher.timeThreshold }

/-- The pending text as one event. -/
def flush (batcher : ContentBatcher K ρ) :
    List (TextMessageContentEvent ρ) × ContentBatcher K ρ :=
  if batcher.buffer = [] then ([], batcher)
  else
    match batcher.messageId with
    | none => ([], batcher.cleared)
    | some messageId =>
      ([{ messageId, delta := String.join batcher.buffer, rawEvent := batcher.rawEvent }],
        batcher.cleared)

/-- A batcher that has a message: its own if a text is pending, else the one of the event. -/
def opened (batcher : ContentBatcher K ρ) (event : TextMessageContentEvent ρ) (now : K) :
    { batcher : ContentBatcher K ρ //
      batcher.messageId.isSome = true ∧ batcher.bufferStartedAt.isSome = true } :=
  if empty : batcher.buffer = [] then
    ⟨{ batcher with
        messageId := some event.messageId, rawEvent := event.rawEvent,
        bufferStartedAt := some now, owned := fun _ => ⟨rfl, rfl⟩ }, rfl, rfl⟩
  else ⟨batcher, batcher.owned empty⟩

/-- The batcher with the text of one more event. -/
def appended (batcher : ContentBatcher K ρ) (event : TextMessageContentEvent ρ) (now : K) :
    ContentBatcher K ρ :=
  { (batcher.opened event now).1 with
    buffer := (batcher.opened event now).1.buffer ++ [event.delta]
    bufferChars := (batcher.opened event now).1.bufferChars + event.delta.length
    owned := fun _ => (batcher.opened event now).2 }

variable [AddGroup K] [LinearOrder K]

/-- The pending text belongs to another message or is too old. -/
def IsStale (batcher : ContentBatcher K ρ) (messageId : String) (now : K) : Prop :=
  batcher.buffer ≠ [] ∧ (batcher.messageId ≠ some messageId ∨
    ∃ started ∈ batcher.bufferStartedAt, batcher.timeThreshold ≤ now - started)

instance (batcher : ContentBatcher K ρ) (messageId : String) (now : K) :
    Decidable (batcher.IsStale messageId now) :=
  inferInstanceAs (Decidable (_ ∧ (_ ∨ _)))

/-- Buffer a text event and flush at the limits. -/
def addContent (batcher : ContentBatcher K ρ) (event : TextMessageContentEvent ρ) (now : K) :
    List (TextMessageContentEvent ρ) × ContentBatcher K ρ :=
  let (emitted, batcher) :=
    if batcher.IsStale event.messageId now then batcher.flush else ([], batcher)
  let batcher := batcher.appended event now
  if batcher.charThreshold ≤ batcher.bufferChars then (emitted ++ batcher.flush.1, batcher.flush.2)
  else (emitted, batcher)

/-- What an event makes the batcher emit. -/
def add (batcher : ContentBatcher K ρ) (event : BaseEvent ρ ε) (now : K) :
    List (BaseEvent ρ ε) × ContentBatcher K ρ :=
  match event with
  | .textContent content =>
    ((batcher.addContent content now).1.map .textContent, (batcher.addContent content now).2)
  | .other _ => (batcher.flush.1.map .textContent ++ [event], batcher.flush.2)

/-- How long the pending text may still wait. -/
def secondsUntilFlush (batcher : ContentBatcher K ρ) (now : K) : Option K :=
  if batcher.buffer = [] then none
  else batcher.bufferStartedAt.map fun started => max 0 (batcher.timeThreshold - (now - started))

end ContentBatcher

/-! ## What batching does to a sequence of events -/

section Batched

variable {K : Type w} {ρ : Type u} {ε : Type v}

/-- Merged text events keep the message, the texts in their order and the first raw event. -/
def TextMessageContentEvent.extended (event : TextMessageContentEvent ρ) (delta : String) :
    TextMessageContentEvent ρ :=
  { messageId := event.messageId, delta := event.delta ++ delta, rawEvent := event.rawEvent }

/-- The second list has the events of the first one in their order, with runs of text events of one
message merged. -/
inductive Batched : List (BaseEvent ρ ε) → List (BaseEvent ρ ε) → Prop
  | nil : Batched [] []
  | other {events batches : List (BaseEvent ρ ε)} (event : ε) (front : Batched events batches) :
      Batched (events ++ [.other event]) (batches ++ [.other event])
  | start {events batches : List (BaseEvent ρ ε)} (event : TextMessageContentEvent ρ)
      (front : Batched events batches) :
      Batched (events ++ [.textContent event]) (batches ++ [.textContent (event.extended "")])
  | extend {events batches : List (BaseEvent ρ ε)} {batch : TextMessageContentEvent ρ}
      (event : TextMessageContentEvent ρ)
      (front : Batched events (batches ++ [.textContent batch]))
      (same : batch.messageId = event.messageId) :
      Batched (events ++ [.textContent event])
        (batches ++ [.textContent (batch.extended event.delta)])

/-- Put an event behind others, into the last one if both are text of one message. -/
def joinEvent (events : List (BaseEvent ρ ε)) : BaseEvent ρ ε → List (BaseEvent ρ ε)
  | .other event => events ++ [.other event]
  | .textContent event =>
    match events.getLast? with
    | some (.textContent last) =>
      if last.messageId = event.messageId then
        events.dropLast ++ [.textContent (last.extended event.delta)]
      else events ++ [.textContent (event.extended "")]
    | _ => events ++ [.textContent (event.extended "")]

/-- The events with all neighbouring text events of one message joined. -/
def joined (events : List (BaseEvent ρ ε)) : List (BaseEvent ρ ε) := events.foldl joinEvent []

theorem joined_append (events : List (BaseEvent ρ ε)) (event : BaseEvent ρ ε) :
    joined (events ++ [event]) = joinEvent (joined events) event := by
  simp [joined]

theorem joinEvent_extended (events : List (BaseEvent ρ ε)) (event : TextMessageContentEvent ρ) :
    joinEvent events (.textContent (event.extended "")) =
      joinEvent events (.textContent event) := by
  simp [joinEvent, TextMessageContentEvent.extended]

theorem joinEvent_joinEvent (events : List (BaseEvent ρ ε))
    {batch event : TextMessageContentEvent ρ} (same : batch.messageId = event.messageId) :
    joinEvent (joinEvent events (.textContent batch)) (.textContent event) =
      joinEvent events (.textContent (batch.extended event.delta)) := by
  obtain rfl | ⟨front, last, rfl⟩ := List.eq_nil_or_concat' events
  · simp [joinEvent, TextMessageContentEvent.extended, same]
  · cases last with
    | other last => simp [joinEvent, TextMessageContentEvent.extended, same]
    | textContent last =>
      by_cases one : last.messageId = batch.messageId
      · simp [joinEvent, TextMessageContentEvent.extended, same, one, String.append_assoc]
      · simp [joinEvent, TextMessageContentEvent.extended, same, same ▸ one]

theorem Batched.joined_eq {events batches : List (BaseEvent ρ ε)}
    (batched : Batched events batches) : joined batches = joined events := by
  induction batched with
  | nil => rfl
  | other event front ih => rw [joined_append, joined_append, ih]
  | start event front ih => rw [joined_append, joined_append, ih, joinEvent_extended]
  | extend event front same ih =>
    rw [joined_append] at ih
    rw [joined_append, joined_append, ← joinEvent_joinEvent _ same, ih]

end Batched

namespace ContentBatcher

section Flush

variable {K : Type w} {ρ : Type u} {batcher : ContentBatcher K ρ}

theorem flush_of_empty (empty : batcher.buffer = []) : batcher.flush = ([], batcher) :=
  if_pos empty

theorem flush_of_pending (pending : batcher.buffer ≠ []) : ∃ messageId,
    batcher.messageId = some messageId ∧ batcher.flush =
      ([{ messageId, delta := String.join batcher.buffer, rawEvent := batcher.rawEvent }],
        batcher.cleared) := by
  obtain ⟨messageId, found⟩ := Option.isSome_iff_exists.mp (batcher.owned pending).1
  exact ⟨messageId, found, by simp [flush, pending, found]⟩

theorem flush_flush : batcher.flush.2.flush.1 = [] := by
  by_cases empty : batcher.buffer = []
  · simp [flush_of_empty empty]
  · obtain ⟨messageId, -, flushed⟩ := flush_of_pending empty
    rw [flushed]
    rfl

end Flush

section Add

variable {K : Type w} {ρ : Type u} {ε : Type v} [AddGroup K] [LinearOrder K]
  {batcher : ContentBatcher K ρ} {now : K}

/-- What is pending with one more text: the text alone, or the pending text extended by it. -/
theorem flush_appended (event : TextMessageContentEvent ρ) :
    (batcher.appended event now).flush.1 =
      if batcher.buffer = [] then [event.extended ""]
      else batcher.flush.1.map (·.extended event.delta) := by
  have grown : (batcher.appended event now).buffer ≠ [] := by simp [appended]
  obtain ⟨messageId, found, flushed⟩ := flush_of_pending grown
  rw [flushed]
  by_cases empty : batcher.buffer = []
  · simp only [appended, opened, empty, dif_pos, Option.some.injEq] at found
    simp [appended, opened, empty, ← found, TextMessageContentEvent.extended, String.join]
  · obtain ⟨own, owner, pending⟩ := flush_of_pending empty
    have same : messageId = own := by
      simp only [appended, opened, empty, dif_neg, not_false_eq_true] at found
      exact Option.some.inj (found.symm.trans owner)
    rw [if_neg empty, pending]
    simp [appended, opened, empty, same, TextMessageContentEvent.extended, String.join,
      List.foldl_append]

variable (batcher now) in
/-- A text event either starts a batch behind what is pending or extends it. -/
theorem addContent_emits (event : TextMessageContentEvent ρ) :
    (batcher.addContent event now).1 ++ (batcher.addContent event now).2.flush.1 =
        batcher.flush.1 ++ [event.extended ""] ∨
      ∃ batch, batcher.flush.1 = [batch] ∧ batch.messageId = event.messageId ∧
        (batcher.addContent event now).1 ++ (batcher.addContent event now).2.flush.1 =
          [batch.extended event.delta] := by
  -- a flush at the size threshold only moves the pending text
  have moved (emitted : List (TextMessageContentEvent ρ)) (grown : ContentBatcher K ρ) :
      (if grown.charThreshold ≤ grown.bufferChars then (emitted ++ grown.flush.1, grown.flush.2)
          else (emitted, grown)).1 ++
        (if grown.charThreshold ≤ grown.bufferChars then (emitted ++ grown.flush.1, grown.flush.2)
          else (emitted, grown)).2.flush.1 = emitted ++ grown.flush.1 := by
    split
    · rw [flush_flush, List.append_nil]
    · rfl
  unfold addContent
  by_cases stale : batcher.IsStale event.messageId now
  · obtain ⟨messageId, -, flushed⟩ := flush_of_pending stale.1
    rw [if_pos stale, moved, flush_appended, flushed]
    exact .inl rfl
  · rw [if_neg stale, moved, flush_appended, List.nil_append]
    by_cases empty : batcher.buffer = []
    · exact .inl (by rw [if_pos empty, flush_of_empty empty]; rfl)
    · obtain ⟨messageId, owner, flushed⟩ := flush_of_pending empty
      have same : messageId = event.messageId := by
        by_contra away
        exact stale ⟨empty, .inl (by rw [owner]; exact fun same => away (Option.some.inj same))⟩
      exact .inr ⟨_, by rw [flushed], same, by rw [if_neg empty, flushed]; rfl⟩

/-- The events that would be emitted by a flush. -/
def pending (batcher : ContentBatcher K ρ) : List (BaseEvent ρ ε) :=
  batcher.flush.1.map .textContent

theorem pending_flush : (batcher.flush.2.pending : List (BaseEvent ρ ε)) = [] := by
  rw [pending, flush_flush, List.map_nil]

/-- What was pending goes with an event to what is emitted and what is pending then. -/
theorem batched_add {events emitted : List (BaseEvent ρ ε)} (event : BaseEvent ρ ε)
    (batched : Batched events (emitted ++ batcher.pending)) :
    Batched (events ++ [event])
      (emitted ++ (batcher.add event now).1 ++ (batcher.add event now).2.pending) := by
  cases event with
  | other event =>
    rw [add, pending_flush, List.append_nil, ← List.append_assoc]
    exact .other event batched
  | textContent event =>
    rw [add, pending, List.append_assoc, ← List.map_append]
    obtain started | ⟨batch, before, same, extended⟩ :=
      addContent_emits batcher now event
    · rw [started, List.map_append, ← List.append_assoc]
      exact .start event batched
    · rw [pending, before] at batched
      rw [extended]
      exact .extend event batched same

variable (batcher now) in
theorem length_add (event : BaseEvent ρ ε) :
    (batcher.add event now).1.length + (batcher.add event now).2.flush.1.length ≤
      batcher.flush.1.length + 1 := by
  cases event with
  | other event =>
    rw [add, flush_flush, List.length_append, List.length_map]
    exact le_rfl
  | textContent event =>
    rw [add, List.length_map, ← List.length_append]
    obtain started | ⟨batch, before, same, extended⟩ :=
      addContent_emits batcher now event
    · rw [started, List.length_append]
      exact le_rfl
    · rw [extended, before]
      exact Nat.le_succ _

end Add

end ContentBatcher

/-! ## The generator -/

/-- The one pull that may be outstanding at the upstream iterator. -/
inductive Pull (ρ : Type u) (ε : Type v)
  | idle
  | outstanding
  /-- The answer: an event, or the end. -/
  | answered (result : Option (BaseEvent ρ ε))

/-- Where the generator is suspended. -/
inductive Control (ρ : Type u) (ε : Type v)
  /-- It goes on at the head of the loop. -/
  | looping
  /-- It awaits the iterator itself. -/
  | pulling
  /-- It waits for the kept pull, with a timer or without. -/
  | waiting (timed : Bool)
  /-- It yields events and goes on at the head of the loop. -/
  | yielding (first : BaseEvent ρ ε) (rest : List (BaseEvent ρ ε))
  /-- It yields the last text after the end of the loop. -/
  | closing (first : BaseEvent ρ ε) (rest : List (BaseEvent ρ ε))
  | finished

/-- The generator with its batcher, its upstream and its consumer. -/
structure MicroBatch (K : Type w) (ρ : Type u) (ε : Type v) where
  batcher : ContentBatcher K ρ
  control : Control ρ ε
  pull : Pull ρ ε
  /-- What the upstream has not handed out. -/
  upstream : List (BaseEvent ρ ε)
  yielded : List (BaseEvent ρ ε)
  issued : Nat
  answered : Nat
  cancelled : Nat

/-- What happens to the generator: it goes on with a reading of the clock, the upstream answers, the
timer fires, the consumer takes an event. -/
inductive Occurrence (K : Type w)
  | run (now : K)
  | answer
  | expire
  | take

namespace MicroBatch

variable {K : Type w} {ρ : Type u} {ε : Type v}

/-- A generator that has not run. -/
def start (batcher : ContentBatcher K ρ) (upstream : List (BaseEvent ρ ε)) : MicroBatch K ρ ε :=
  { batcher, control := .looping, pull := .idle, upstream, yielded := [], issued := 0, answered := 0
    cancelled := 0 }

/-- Yield events and go on at the head of the loop. -/
def yields (state : MicroBatch K ρ ε) : List (BaseEvent ρ ε) → MicroBatch K ρ ε
  | [] => { state with control := .looping }
  | first :: rest => { state with control := .yielding first rest }

/-- Yield the last events and finish. -/
def closes (state : MicroBatch K ρ ε) : List (BaseEvent ρ ε) → MicroBatch K ρ ε
  | [] => { state with control := .finished }
  | first :: rest => { state with control := .closing first rest }

/-- Issue a pull. -/
def issue (state : MicroBatch K ρ ε) : MicroBatch K ρ ε :=
  { state with pull := .outstanding, issued := state.issued + 1 }

/-- The pending text as events to yield. -/
def flush (state : MicroBatch K ρ ε) : List (BaseEvent ρ ε) × MicroBatch K ρ ε :=
  (state.batcher.pending, { state with batcher := state.batcher.flush.2 })

/-- Settle the pull that is left, then flush. -/
def finish (state : MicroBatch K ρ ε) : MicroBatch K ρ ε :=
  let settled :=
    match state.pull with
    | .outstanding => { state with pull := .idle, cancelled := state.cancelled + 1 }
    | _ => { state with pull := .idle }
  settled.flush.2.closes settled.flush.1

variable [AddGroup K] [LinearOrder K]

/-- From the head of the loop to the next suspension. -/
def loop (state : MicroBatch K ρ ε) (now : K) : MicroBatch K ρ ε :=
  let timeout := state.batcher.secondsUntilFlush now
  match state.pull, timeout with
  | .idle, none => { state.issue with control := .pulling }
  | .idle, some _ => { state.issue with control := .waiting true }
  | _, timeout => { state with control := .waiting timeout.isSome }

/-- Handle the answer of the pull. -/
def handle (state : MicroBatch K ρ ε) (now : K) : MicroBatch K ρ ε :=
  match state.pull with
  | .answered (some event) =>
    { state with batcher := (state.batcher.add event now).2, pull := .idle }.yields
      (state.batcher.add event now).1
  | .answered none => { state with pull := .idle }.finish
  | _ => state

/-- What an occurrence does.  One that cannot happen does nothing. -/
def next (state : MicroBatch K ρ ε) : Occurrence K → MicroBatch K ρ ε
  | .run now =>
    match state.control with
    | .looping => state.loop now
    | .pulling => state.handle now
    | .waiting _ => state.handle now
    | _ => state
  | .answer =>
    match state.pull, state.upstream with
    | .outstanding, [] => { state with pull := .answered none, answered := state.answered + 1 }
    | .outstanding, event :: upstream =>
      { state with pull := .answered (some event), upstream, answered := state.answered + 1 }
    | _, _ => state
  | .expire =>
    match state.control, state.pull with
    | .waiting true, .outstanding => state.flush.2.yields state.flush.1
    | _, _ => state
  | .take =>
    match state.control with
    | .yielding first rest => { state with yielded := state.yielded ++ [first] }.yields rest
    | .closing first rest => { state with yielded := state.yielded ++ [first] }.closes rest
    | _ => state

/-- The occurrence can happen. -/
def Enabled (state : MicroBatch K ρ ε) : Occurrence K → Prop
  | .run _ => state.control = .looping ∨
      (state.control = .pulling ∨ ∃ timed, state.control = .waiting timed) ∧
        ∃ result, state.pull = .answered result
  | .answer => state.pull = .outstanding
  | .expire => state.control = .waiting true ∧ state.pull = .outstanding
  | .take => ∃ first rest,
      state.control = .yielding first rest ∨ state.control = .closing first rest

/-! ## What holds along every run -/

/-- The event of an answered pull that the loop has not handled. -/
def inFlight (state : MicroBatch K ρ ε) : List (BaseEvent ρ ε) :=
  match state.pull with
  | .answered (some event) => [event]
  | _ => []

/-- The events that the generator is about to yield. -/
def queued (state : MicroBatch K ρ ε) : List (BaseEvent ρ ε) :=
  match state.control with
  | .yielding first rest => first :: rest
  | .closing first rest => first :: rest
  | _ => []

/-- The loop has been left. -/
def HasLeft (state : MicroBatch K ρ ε) : Prop :=
  state.control = .finished ∨ ∃ first rest, state.control = .closing first rest

/-- The upstream events are yielded, about to be yielded, pending, in flight or still upstream, and
one pull at most is open. -/
structure Inv (events : List (BaseEvent ρ ε)) (state : MicroBatch K ρ ε) : Prop where
  delivered : ∃ delivered, events = delivered ++ state.inFlight ++ state.upstream ∧
    Batched delivered (state.yielded ++ state.queued ++ state.batcher.pending)
  issued : (state.pull = .outstanding ∧ state.issued = state.answered + 1) ∨
    (state.pull ≠ .outstanding ∧ state.issued = state.answered)
  cancelled : state.cancelled = 0
  awaits : state.control = .pulling ∨ (∃ timed, state.control = .waiting timed) →
    state.pull ≠ .idle
  ended : state.pull = .answered none → state.upstream = []
  left : state.HasLeft → state.pull = .idle ∧ state.upstream = [] ∧
    (state.batcher.pending : List (BaseEvent ρ ε)) = []
  timed : state.control = .waiting true → state.batcher.buffer ≠ []

section Steps

variable {state : MicroBatch K ρ ε} {events queue : List (BaseEvent ρ ε)} {now : K}

theorem inv_start (batcher : ContentBatcher K ρ) (upstream : List (BaseEvent ρ ε)) :
    Inv (batcher.pending ++ upstream) (start batcher upstream) where
  delivered := by
    refine ⟨batcher.pending, (List.append_nil _).symm ▸ rfl, ?_⟩
    change Batched _ batcher.pending
    by_cases empty : batcher.buffer = []
    · rw [ContentBatcher.pending, ContentBatcher.flush_of_empty empty]
      exact .nil
    · obtain ⟨messageId, -, flushed⟩ := ContentBatcher.flush_of_pending empty
      rw [ContentBatcher.pending, flushed]
      simpa [TextMessageContentEvent.extended] using Batched.start
        { messageId, delta := String.join batcher.buffer, rawEvent := batcher.rawEvent }
        (Batched.nil (ρ := ρ) (ε := ε))
  issued := .inr ⟨by simp [start], rfl⟩
  cancelled := rfl
  awaits := by simp [start]
  ended := by simp [start]
  left := by simp [start, HasLeft]
  timed := by simp [start]

theorem yields_spec (state : MicroBatch K ρ ε) (queue : List (BaseEvent ρ ε)) :
    ∃ control, state.yields queue = { state with control } ∧ (state.yields queue).queued = queue ∧
      ¬(state.yields queue).HasLeft ∧ control ≠ .pulling ∧ ∀ timed, control ≠ .waiting timed := by
  cases queue with
  | nil => exact ⟨.looping, rfl, rfl, by simp [yields, HasLeft], by simp, by simp⟩
  | cons first rest =>
    exact ⟨.yielding first rest, rfl, rfl, by simp [yields, HasLeft], by simp, by simp⟩

theorem closes_spec (state : MicroBatch K ρ ε) (queue : List (BaseEvent ρ ε)) :
    ∃ control, state.closes queue = { state with control } ∧ (state.closes queue).queued = queue ∧
      control ≠ .pulling ∧ ∀ timed, control ≠ .waiting timed := by
  cases queue with
  | nil => exact ⟨.finished, rfl, rfl, by simp, by simp⟩
  | cons first rest => exact ⟨.closing first rest, rfl, rfl, by simp, by simp⟩

theorem Inv.yields
    (delivered : ∃ delivered, events = delivered ++ state.inFlight ++ state.upstream ∧
      Batched delivered (state.yielded ++ queue ++ state.batcher.pending))
    (issued : (state.pull = .outstanding ∧ state.issued = state.answered + 1) ∨
      (state.pull ≠ .outstanding ∧ state.issued = state.answered))
    (cancelled : state.cancelled = 0) (ended : state.pull = .answered none → state.upstream = []) :
    Inv events (state.yields queue) := by
  obtain ⟨control, same, queued, stays, apart, untimed⟩ := yields_spec state queue
  rw [same] at queued stays ⊢
  exact ⟨by rwa [queued], issued, cancelled, fun awaits => by
    obtain here | ⟨timed, here⟩ := awaits
    · exact absurd here apart
    · exact absurd here (untimed timed), ended, fun left => absurd left stays,
    fun here => absurd here (untimed true)⟩

/-- The invariant after the loop was left. -/
theorem Inv.closes (delivered : Batched events (state.yielded ++ queue))
    (issued : state.issued = state.answered) (cancelled : state.cancelled = 0)
    (left : state.pull = .idle ∧ state.upstream = [] ∧
      (state.batcher.pending : List (BaseEvent ρ ε)) = []) :
    Inv events (state.closes queue) := by
  obtain ⟨control, same, queued, apart, untimed⟩ := closes_spec state queue
  rw [same] at queued ⊢
  refine ⟨⟨events, ?_, ?_⟩, .inr ⟨?_, issued⟩, cancelled, ?_, ?_, fun _ => left,
    fun here => absurd here (untimed true)⟩
  · simp [inFlight, left.1, left.2.1]
  · rw [queued]
    change Batched events (state.yielded ++ queue ++ state.batcher.pending)
    rwa [left.2.2, List.append_nil]
  · rw [show ({ state with control } : MicroBatch K ρ ε).pull = .idle from left.1]
    exact fun same => (nomatch same)
  · rintro (here | ⟨timed, here⟩)
    · exact absurd here apart
    · exact absurd here (untimed timed)
  · exact fun _ => left.2.1

theorem Inv.not_left (inv : Inv events state) (busy : state.pull ≠ .idle) : ¬state.HasLeft :=
  fun left => busy (inv.left left).1

theorem inv_loop (inv : Inv events state) (here : state.control = .looping) :
    Inv events (state.loop now) := by
  have queued : state.queued = [] := by rw [queued, here]
  obtain ⟨delivered, split, batched⟩ := inv.delivered
  rw [queued] at batched
  have timed (some : (state.batcher.secondsUntilFlush now).isSome = true) :
      state.batcher.buffer ≠ [] := by
    intro empty
    rw [ContentBatcher.secondsUntilFlush, if_pos empty] at some
    cases some
  unfold loop
  cases pull : state.pull with
  | idle =>
    have flight : state.inFlight = [] := by rw [inFlight, pull]
    rw [flight] at split
    have same : state.issued = state.answered := by
      obtain ⟨busy, -⟩ | ⟨-, same⟩ := inv.issued
      · rw [pull] at busy
        cases busy
      · exact same
    cases timeout : state.batcher.secondsUntilFlush now with
    | none =>
      exact ⟨⟨delivered, split, batched⟩, .inl ⟨rfl, congrArg (· + 1) same⟩, inv.cancelled,
        fun _ idle => (nomatch idle), fun ended => (nomatch ended), by simp [HasLeft],
        fun waits => (nomatch waits)⟩
    | some seconds =>
      exact ⟨⟨delivered, split, batched⟩, .inl ⟨rfl, congrArg (· + 1) same⟩, inv.cancelled,
        fun _ idle => (nomatch idle), fun ended => (nomatch ended), by simp [HasLeft],
        fun _ => timed (by rw [timeout]; rfl)⟩
  | outstanding =>
    exact ⟨⟨delivered, by rw [split]; simp [inFlight, pull], batched⟩,
      by simpa [pull] using inv.issued, inv.cancelled, fun _ idle => by simp [pull] at idle,
      fun ended => by simp [pull] at ended, by simp [HasLeft],
      fun waits => timed (Control.waiting.inj waits)⟩
  | answered result =>
    exact ⟨⟨delivered, by rw [split]; simp [inFlight, pull], batched⟩,
      by simpa [pull] using inv.issued, inv.cancelled, fun _ idle => by simp [pull] at idle,
      fun ended => inv.ended (pull.trans ended), by simp [HasLeft],
      fun waits => timed (Control.waiting.inj waits)⟩

theorem inv_handle (inv : Inv events state)
    (here : state.control = .pulling ∨ ∃ timed, state.control = .waiting timed) :
    Inv events (state.handle now) := by
  have queued : state.queued = [] := by
    obtain here | ⟨timed, here⟩ := here <;> rw [queued, here]
  obtain ⟨delivered, split, batched⟩ := inv.delivered
  rw [queued, List.append_nil] at batched
  have same (answer : state.pull ≠ .outstanding) : state.issued = state.answered := by
    obtain ⟨busy, -⟩ | ⟨-, same⟩ := inv.issued
    · exact absurd busy answer
    · exact same
  unfold handle
  split
  · next event pull =>
      refine .yields ⟨delivered ++ [event], ?_, ?_⟩ (.inr ⟨by simp, same (by simp [pull])⟩)
        inv.cancelled (by simp)
      · rw [split]
        simp [inFlight, pull]
      · exact ContentBatcher.batched_add event batched
  · next pull =>
      refine .closes ?_ (same (by simp [pull])) inv.cancelled
        ⟨rfl, inv.ended pull, ContentBatcher.pending_flush⟩
      have all : events = delivered := by
        rw [split, inv.ended pull]
        simp [inFlight, pull]
      rw [all]
      exact batched
  · exact inv

theorem inv_flush (inv : Inv events state) (here : state.control = .waiting true)
    (pull : state.pull = .outstanding) : Inv events (state.flush.2.yields state.flush.1) := by
  have queued : state.queued = [] := by rw [queued, here]
  obtain ⟨delivered, split, batched⟩ := inv.delivered
  rw [queued, List.append_nil] at batched
  refine .yields ⟨delivered, split, ?_⟩ inv.issued inv.cancelled inv.ended
  change Batched delivered (state.yielded ++ state.batcher.pending ++ state.batcher.flush.2.pending)
  rwa [ContentBatcher.pending_flush, List.append_nil]

theorem inv_next (occurrence : Occurrence K) (inv : Inv events state) :
    Inv events (state.next occurrence) := by
  cases occurrence with
  | run now =>
    simp only [next]
    split
    · next here => exact inv_loop inv here
    · next here => exact inv_handle inv (.inl here)
    · next timed here => exact inv_handle inv (.inr ⟨timed, here⟩)
    · exact inv
  | answer =>
    simp only [next]
    obtain ⟨delivered, parts, batched⟩ := inv.delivered
    have issued (pull : state.pull = .outstanding) : state.issued = state.answered + 1 := by
      obtain ⟨-, issued⟩ | ⟨free, -⟩ := inv.issued
      · exact issued
      · exact absurd pull free
    split
    · next pull last =>
        have stays : ¬state.HasLeft := inv.not_left (by simp [pull])
        refine ⟨⟨delivered, ?_, batched⟩, .inr ⟨by simp, issued pull⟩, inv.cancelled,
          by simp, fun _ => last, fun left => absurd left stays, inv.timed⟩
        rw [parts]
        simp [inFlight, pull]
    · next event upstream pull more =>
        have stays : ¬state.HasLeft := inv.not_left (by simp [pull])
        refine ⟨⟨delivered, ?_, batched⟩, .inr ⟨by simp, issued pull⟩, inv.cancelled,
          by simp, by simp, fun left => absurd left stays, inv.timed⟩
        rw [parts]
        simp [inFlight, pull, more]
    · exact inv
  | expire =>
    simp only [next]
    split
    · next here pull => exact inv_flush inv here pull
    · exact inv
  | take =>
    simp only [next]
    obtain ⟨delivered, parts, batched⟩ := inv.delivered
    split
    · next first rest here =>
        refine .yields ⟨delivered, parts, ?_⟩ inv.issued inv.cancelled inv.ended
        rw [queued, here] at batched
        simpa using batched
    · next first rest here =>
        have left := inv.left (.inr ⟨first, rest, here⟩)
        refine .closes ?_ ?_ inv.cancelled left
        · rw [queued, here, left.2.2, List.append_nil] at batched
          have all : events = delivered := by simp [parts, inFlight, left.1, left.2.1]
          rw [all]
          simpa using batched
        · obtain ⟨busy, -⟩ | ⟨-, same⟩ := inv.issued
          · exact absurd (left.1.symm.trans busy) (by simp)
          · exact same
    · exact inv

theorem inv_run {occurrences : List (Occurrence K)} (inv : Inv events state) :
    Inv events (Machine.run next state occurrences) :=
  Machine.run_invariant (fun _ occurrence inv => inv_next occurrence inv) inv

/-! ## Every run comes to its end -/

/-- The answers that the upstream still owes. -/
def owed (state : MicroBatch K ρ ε) : Nat :=
  match state.control, state.pull with
  | .finished, _ => 0
  | .closing _ _, _ => 0
  | _, .answered none => 0
  | _, _ => state.upstream.length + 1

/-- The steps that a point of control costs. -/
def controlCost : Control ρ ε → Nat
  | .looping => 2
  | .pulling => 1
  | .waiting _ => 1
  | _ => 0

/-- The steps that an answer costs. -/
def pullCost : Pull ρ ε → Nat
  | .answered _ => 12
  | _ => 0

/-- How much the generator has left to do. -/
def remaining (state : MicroBatch K ρ ε) : Nat :=
  20 * state.owed + pullCost state.pull + 5 * state.batcher.flush.1.length +
    3 * state.queued.length + controlCost state.control

theorem remaining_yields_le (state : MicroBatch K ρ ε) (queue : List (BaseEvent ρ ε)) :
    (state.yields queue).remaining ≤ { state with control := .looping }.remaining +
      3 * queue.length := by
  cases queue with
  | nil => exact le_rfl
  | cons first rest =>
    simp only [yields, remaining, queued, owed, controlCost]
    cases state.pull with
    | answered result => cases result <;> simp
    | _ => simp

theorem remaining_closes (state : MicroBatch K ρ ε) (idle : state.pull = .idle)
    (flushed : state.batcher.flush.1 = []) :
    (state.closes queue).remaining = 3 * queue.length := by
  cases queue <;> simp [closes, remaining, owed, MicroBatch.queued, controlCost, pullCost, idle,
    flushed]

theorem queued_of_awaits
    (here : state.control = .pulling ∨ ∃ timed, state.control = .waiting timed) :
    state.queued = [] ∧ controlCost state.control = 1 ∧ ¬state.HasLeft := by
  obtain here | ⟨timed, here⟩ := here <;> simp [queued, controlCost, HasLeft, here]

theorem owed_of_stays (stays : ¬state.HasLeft) (goes : state.pull ≠ .answered none) :
    state.owed = state.upstream.length + 1 := by
  unfold owed
  split
  · next here => exact absurd (.inl here) stays
  · next first rest here => exact absurd (.inr ⟨first, rest, here⟩) stays
  · exact absurd ‹_› goes
  · rfl

/-- Handling an answer costs less than having it. -/
theorem remaining_handle {result : Option (BaseEvent ρ ε)}
    (here : state.control = .pulling ∨ ∃ timed, state.control = .waiting timed)
    (pull : state.pull = .answered result) : (state.handle now).remaining < state.remaining := by
  obtain ⟨queue, control, stays⟩ := queued_of_awaits here
  cases result with
  | none =>
    have after : (state.handle now).remaining = 3 * state.batcher.flush.1.length := by
      rw [handle, pull]
      simp only [finish, flush]
      rw [remaining_closes _ rfl ContentBatcher.flush_flush, ContentBatcher.pending,
        List.length_map]
    rw [after, remaining, pull, control, pullCost]
    omega
  | some event =>
    have grows := ContentBatcher.length_add state.batcher now event
    have before := owed_of_stays stays (by simp [pull])
    have bound := remaining_yields_le
      { state with batcher := (state.batcher.add event now).2, pull := .idle }
      (state.batcher.add event now).1
    rw [handle, pull]
    refine Nat.lt_of_le_of_lt bound ?_
    rw [remaining, remaining, before, pull, control, queue]
    simp only [owed, queued, pullCost, controlCost, List.length_nil]
    omega

theorem remaining_flush (here : state.control = .waiting true) (pull : state.pull = .outstanding)
    (pending : state.batcher.buffer ≠ []) :
    (state.flush.2.yields state.flush.1).remaining < state.remaining := by
  obtain ⟨queue, control, stays⟩ := queued_of_awaits (.inr ⟨true, here⟩)
  obtain ⟨messageId, -, flushed⟩ := ContentBatcher.flush_of_pending pending
  have one : state.batcher.flush.1.length = 1 := by rw [flushed]; rfl
  have before := owed_of_stays stays (by simp [pull])
  refine Nat.lt_of_le_of_lt (remaining_yields_le _ _) ?_
  rw [remaining, remaining, before, pull, control, queue]
  simp only [flush, owed, pull, queued, pullCost, controlCost, List.length_nil,
    ContentBatcher.flush_flush, ContentBatcher.pending, List.length_map]
  omega

/-- Whatever can happen leaves less to do. -/
theorem remaining_lt (inv : Inv events state) {occurrence : Occurrence K}
    (enabled : state.Enabled occurrence) : (state.next occurrence).remaining < state.remaining := by
  cases occurrence with
  | run now =>
    obtain here | ⟨here, result, pull⟩ := enabled
    · simp only [next, here, loop, remaining, owed, queued, controlCost]
      cases pull : state.pull with
      | idle => cases state.batcher.secondsUntilFlush now <;> simp [issue, pullCost]
      | outstanding => simp
      | answered result => cases result <;> simp
    · have handled : state.next (.run now) = state.handle now := by
        obtain here | ⟨timed, here⟩ := here <;> simp only [next, here]
      rw [handled]
      exact remaining_handle here pull
  | answer =>
    have pull : state.pull = .outstanding := enabled
    have stays : ¬state.HasLeft := inv.not_left (by simp [pull])
    have before : state.remaining = 20 * (state.upstream.length + 1) + 0 +
        5 * state.batcher.flush.1.length + 3 * state.queued.length +
        controlCost state.control := by
      rw [remaining, owed_of_stays stays (by simp [pull]), pull]
      rfl
    cases upstream : state.upstream with
    | nil =>
      have after : state.next .answer =
          { state with pull := .answered none, answered := state.answered + 1 } := by
        simp only [next, pull, upstream]
      have owes : ({ state with pull := .answered none, answered := state.answered + 1 } :
          MicroBatch K ρ ε).owed = 0 := by
        unfold owed
        split <;> first | rfl | simp_all
      rw [after, before, remaining, owes]
      change 0 + 12 + 5 * state.batcher.flush.1.length + 3 * state.queued.length +
        controlCost state.control < _
      omega
    | cons event rest =>
      have after : state.next .answer = { state with
          pull := .answered (some event)
          upstream := rest
          answered := state.answered + 1 } := by
        simp only [next, pull, upstream]
      have owes : ({ state with
          pull := .answered (some event), upstream := rest, answered := state.answered + 1 } :
          MicroBatch K ρ ε).owed = rest.length + 1 := owed_of_stays stays (by simp)
      rw [after, before, remaining, owes, upstream, List.length_cons]
      change 20 * (rest.length + 1) + 12 + 5 * state.batcher.flush.1.length +
        3 * state.queued.length + controlCost state.control < _
      omega
  | expire =>
    obtain ⟨here, pull⟩ := enabled
    have fired : state.next .expire = state.flush.2.yields state.flush.1 := by
      simp only [next, here, pull]
    rw [fired]
    exact remaining_flush here pull (inv.timed here)
  | take =>
    obtain ⟨first, rest, here | here⟩ := enabled
    · simp only [next, here]
      refine Nat.lt_of_le_of_lt (remaining_yields_le _ _) ?_
      have same : ({ state with control := .looping, yielded := state.yielded ++ [first] } :
          MicroBatch K ρ ε).owed = state.owed := by
        simp only [owed, here]
        cases state.pull with
        | answered result => cases result <;> rfl
        | _ => rfl
      simp only [remaining, same, queued, here, controlCost, List.length_cons, List.length_nil]
      omega
    · obtain ⟨idle, -, pending⟩ := inv.left (.inr ⟨first, rest, here⟩)
      simp only [next, here]
      refine lt_of_eq_of_lt
        (remaining_closes _ idle (List.map_eq_nil_iff.mp pending)) ?_
      simp only [remaining, queued, here, List.length_cons]
      omega

omit [AddGroup K] [LinearOrder K] in
theorem exists_enabled (inv : Inv events state) (now : K) (busy : state.control ≠ .finished) :
    ∃ occurrence, state.Enabled occurrence := by
  have awaits (awaits : state.control = .pulling ∨ ∃ timed, state.control = .waiting timed) :
      ∃ occurrence, state.Enabled occurrence := by
    cases pull : state.pull with
    | idle => exact absurd pull (inv.awaits awaits)
    | outstanding => exact ⟨.answer, pull⟩
    | answered result => exact ⟨.run now, .inr ⟨awaits, result, pull⟩⟩
  cases control : state.control with
  | looping => exact ⟨.run now, .inl control⟩
  | pulling => exact awaits (.inl control)
  | waiting timed => exact awaits (.inr ⟨timed, control⟩)
  | yielding first rest => exact ⟨.take, first, rest, .inl control⟩
  | closing first rest => exact ⟨.take, first, rest, .inr control⟩
  | finished => exact absurd control busy

theorem Inv.finished (inv : Inv events state) (done : state.control = .finished) :
    Batched events state.yielded := by
  obtain ⟨idle, empty, pending⟩ := inv.left (.inl done)
  obtain ⟨delivered, parts, batched⟩ := inv.delivered
  have all : events = delivered := by simp [parts, inFlight, idle, empty]
  rw [all]
  simpa [queued, done, pending] using batched

theorem next_expire (state : MicroBatch K ρ ε) : (state.next .expire).pull = state.pull ∧
    (state.next .expire).issued = state.issued ∧
    (state.next .expire).upstream = state.upstream := by
  simp only [next]
  split
  · obtain ⟨control, same, -⟩ := yields_spec state.flush.2 state.flush.1
    rw [same]
    exact ⟨rfl, rfl, rfl⟩
  · exact ⟨rfl, rfl, rfl⟩

end Steps

/-- Along every run one pull at most is open, none is cancelled, and a timer leaves it alone.  When
the generator has finished, its events are the pending text of its batcher and the upstream events
with runs of texts of one message merged.  Until then it can go on, but only finitely often. -/
theorem microBatch_invisible (batcher : ContentBatcher K ρ) (upstream : List (BaseEvent ρ ε))
    (occurrences : List (Occurrence K)) :
    let state := Machine.run next (start batcher upstream) occurrences
    state.answered ≤ state.issued ∧ state.issued ≤ state.answered + 1 ∧
      (state.pull = .outstanding ↔ state.issued = state.answered + 1) ∧ state.cancelled = 0 ∧
      ((state.next .expire).pull = state.pull ∧ (state.next .expire).issued = state.issued ∧
        (state.next .expire).upstream = state.upstream) ∧
      (state.control = .finished → Batched (batcher.pending ++ upstream) state.yielded ∧
        joined state.yielded = joined (batcher.pending ++ upstream)) ∧
      (state.control ≠ .finished → ∃ occurrence, state.Enabled occurrence) ∧
      ∀ occurrence, state.Enabled occurrence →
        (state.next occurrence).remaining < state.remaining := by
  intro state
  have inv : Inv (batcher.pending ++ upstream) state := inv_run (inv_start batcher upstream)
  have counts : state.answered ≤ state.issued ∧ state.issued ≤ state.answered + 1 ∧
      (state.pull = .outstanding ↔ state.issued = state.answered + 1) := by
    obtain ⟨busy, issued⟩ | ⟨free, issued⟩ := inv.issued
    · simp [busy, issued]
    · simp [free, issued]
  refine ⟨counts.1, counts.2.1, counts.2.2, inv.cancelled, next_expire state, fun done => ?_,
    exists_enabled inv 0, fun occurrence => remaining_lt inv⟩
  exact ⟨inv.finished done, (inv.finished done).joined_eq⟩

end MicroBatch

end Tinkerfin.Agui
