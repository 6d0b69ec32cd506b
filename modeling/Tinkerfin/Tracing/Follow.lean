import Mathlib.Data.List.Infix
import Tinkerfin.Lib.Machine
import Tinkerfin.Lib.Segment
import Tinkerfin.Tracing.MemoryBackend

/-!
# Following a generation

A follower reads bounded pages after its cursor, checks and decodes every record before it yields
anything, and waits when a page shows nothing new.  The wait compares a revision that the commits of
its own store announce with the one captured before the read; commits of other stores over the same
storage are not announced and show at the next read.
-/

namespace Tinkerfin.Tracing

open Messaging (RunIdentity ThreadIdentity bind_eq_ok)

/-! ## Pages -/

inductive TraceEventPageDirection
  | forward | backward
  deriving DecidableEq

structure TraceEventPageRequest where
  key : TraceThreadKey
  direction : TraceEventPageDirection := .forward
  limit : Nat
  afterSeq : Option Int := none
  asOfSeq : Option Int := none
  beforeSeq : Option Int := none

/-- A record as a page carries it, with the validated event if the backend keeps one. -/
structure PageRecord extends StoredTraceEvent where
  validatedEvent : Option TraceEvent := none

structure StoredTraceEventPage where
  key : TraceThreadKey
  tailSeq : Int
  events : List PageRecord
  activeRunIds : List String
  observedAt : Nat

def MemoryStoredTraceEvent.record (stored : MemoryStoredTraceEvent) : PageRecord :=
  { stored with validatedEvent := some stored.validatedEvent }

/-- The records between two positions. -/
def slice {α : Type} (items : List α) (start stop : Int) : List α :=
  items.segment start.toNat stop.toNat

/-- One bounded page of an exact generation. -/
def MemoryLedger.readEventPage (ledger : MemoryLedger) (request : TraceEventPageRequest)
    (now : Nat) : Except TracingError StoredTraceEventPage :=
  match ledger.get? request.key.toThreadIdentity with
  | none => .error (.threadNotFound "Trace generation does not exist" request.key.threadId)
  | some thread =>
    if thread.state.key ≠ request.key then
      .error (.threadNotFound "Trace generation does not exist" request.key.threadId)
    else
      let tail := thread.state.nextSeq - 1
      let events := match request.direction with
        | .forward =>
          let start := min (request.afterSeq.getD 0) tail
          slice thread.events start
            (min (min (request.asOfSeq.getD tail) tail) (start + request.limit))
        | .backward =>
          let before := request.beforeSeq.getD (tail + 1)
          if tail + 1 < before then []
          else (slice thread.events (max 0 (before - 1 - request.limit)) (before - 1)).reverse
      .ok
        { key := request.key
          tailSeq := tail
          events := events.map MemoryStoredTraceEvent.record
          activeRunIds := (thread.activeWriters now).map (·.runId)
          observedAt := now }

/-! ## Decoding -/

/-- The payload boundary of a store; a subclass may transform what is stored. -/
structure TracePayloadCodec where
  digest : List UInt8 → Except TracingError String
  decodeFact : List UInt8 → Except TracingError TraceSemanticFact

section Decode

variable (encodedLength : TraceEvent → Nat) (codec : TracePayloadCodec) (inMemory : Bool)

/-- The cached event of a record is the one that its other fields describe. -/
def PageRecord.Evidence (record : PageRecord) (key : TraceThreadKey) (cached : TraceEvent) : Prop :=
  cached.eventId = record.eventId ∧ cached.traceSeq = record.traceSeq ∧
    cached.generation = key.generation ∧ cached.persistedBytes = record.persistedBytes ∧
    cached.fact.identity.threadId = key.threadId ∧
    cached.fact.identity.namespace = key.namespace ∧
    cached.fact.identity.runId = record.runId ∧ cached.fact.kind = record.factKind ∧
    cached.fact.occurredAt = record.occurredAt

instance (record : PageRecord) (key : TraceThreadKey) (cached : TraceEvent) :
    Decidable (record.Evidence key cached) :=
  inferInstanceAs (Decidable (_ ∧ _ ∧ _ ∧ _ ∧ _ ∧ _ ∧ _ ∧ _ ∧ _))

/-- The payload is the one that the digest was taken of. -/
def requireDigest (record : PageRecord) : Except TracingError Unit := do
  let digest ← codec.digest record.canonicalPayload
  reject (digest ≠ record.payloadDigest) (.storeProtocol "Trace event payload digest mismatch")

/-- The event of a durable record, read back from its payload. -/
def decodeDurableEvent (key : TraceThreadKey) (record : PageRecord) :
    Except TracingError TraceEvent := do
  requireDigest codec record
  let fact ← codec.decodeFact record.canonicalPayload
  reject
    (fact.identity.threadId ≠ key.threadId ∨ fact.identity.namespace ≠ key.namespace ∨
      fact.identity.runId ≠ record.runId ∨ fact.kind ≠ record.factKind ∨
      fact.occurredAt ≠ record.occurredAt)
    (.storeProtocol "Trace event searchable metadata conflicts with its payload")
  let event ← makeEvent encodedLength record.eventId record.traceSeq key.generation fact
  reject (event.persistedBytes ≠ record.persistedBytes)
    (.storeProtocol "Trace event size metadata conflicts")
  return event

def decodeEvent (key : TraceThreadKey) (record : PageRecord) : Except TracingError TraceEvent :=
  match inMemory, record.validatedEvent with
  | true, some cached => do
    requireDigest codec record
    reject (¬record.Evidence key cached)
      (.storeProtocol "In-memory Trace event evidence conflicts")
    return cached
  | _, _ => decodeDurableEvent encodedLength codec key record

/-- Run identifiers of a page are canonical and distinct. -/
def validActiveRuns (runIds : List String) : Bool :=
  runIds.all (fun runId => !runId.isEmpty && runId == Bytes.strip runId) && decide runIds.Nodup

/-- The sequences of a page break the order that its request asks for. -/
def violatesOrder (page : StoredTraceEventPage) (request : TraceEventPageRequest) : Bool :=
  let sequences := page.events.map (·.traceSeq)
  match request.direction with
  | .forward =>
    let after := request.afterSeq.getD 0
    let asOf := request.asOfSeq.getD page.tailSeq
    sequences.any (fun sequence =>
      decide (sequence ≤ after ∨ asOf < sequence ∨ page.tailSeq < sequence)) ||
    (sequences.zip sequences.tail).any (fun (left, right) => decide (right ≠ left + 1)) ||
    decide (after < min asOf page.tailSeq ∧ sequences.head? ≠ some (after + 1))
  | .backward =>
    let before := request.beforeSeq.getD (page.tailSeq + 1)
    let first := min (before - 1) page.tailSeq
    sequences.any (fun sequence =>
      decide (sequence < 1 ∨ before ≤ sequence ∨ page.tailSeq < sequence)) ||
    (sequences.zip sequences.tail).any (fun (left, right) => decide (right ≠ left - 1)) ||
    decide (before ≤ page.tailSeq + 1 ∧ 1 ≤ first ∧ sequences.head? ≠ some first)

/-- The events of a page that answers its request. -/
def decodeEventPage (page : StoredTraceEventPage) (request : TraceEventPageRequest) :
    Except TracingError (List TraceEvent) := do
  reject (page.key ≠ request.key)
    (.storeProtocol "Trace event page does not match the requested generation")
  reject (!validActiveRuns page.activeRunIds)
    (.storeProtocol "Trace event page has invalid active Runs")
  reject (request.limit < page.events.length)
    (.storeProtocol "Trace event page exceeds its requested limit")
  reject (violatesOrder page request)
    (.storeProtocol "Trace event page violates requested ordering")
  page.events.mapM (decodeEvent encodedLength codec inMemory request.key)

/-! ### What a page may yield -/

/-- The sequences after one. -/
def following (after : Int) (count : Nat) : List Int :=
  (List.range count).map fun index : Nat => after + 1 + index

theorem following_succ (after : Int) (count : Nat) :
    following after (count + 1) = (after + 1) :: following (after + 1) count := by
  simp only [following, List.range_succ_eq_map, List.map_cons, List.map_map, Nat.cast_zero,
    add_zero, List.cons.injEq, true_and]
  refine List.map_congr_left fun index _ => ?_
  simp only [Function.comp_apply, Nat.cast_succ]
  omega

theorem following_append (after : Int) (first second : Nat) :
    following after first ++ following (after + first) second =
      following after (first + second) := by
  simp only [following, List.range_add, List.map_append, List.map_map]
  congr 1
  refine List.map_congr_left fun index _ => ?_
  simp only [Function.comp_apply, Nat.cast_add]
  omega

/-- Sequences that rise by one and start after a position. -/
theorem eq_following {after : Int} {sequences : List Int}
    (starts : sequences = [] ∨ sequences.head? = some (after + 1))
    (steps : (sequences.zip sequences.tail).any (fun (left, right) => decide (right ≠ left + 1)) =
      false) : sequences = following after sequences.length := by
  induction sequences generalizing after with
  | nil => rfl
  | cons sequence sequences ih =>
    obtain rfl : sequence = after + 1 := by simpa using starts
    rw [List.length_cons, following_succ, List.cons.injEq]
    refine ⟨rfl, ih ?_ ?_⟩
    · cases sequences with
      | nil => exact .inl rfl
      | cons next sequences =>
        simp only [List.tail_cons, List.zip_cons_cons, List.any_cons, Bool.or_eq_false_iff,
          decide_eq_false_iff_not, not_not] at steps
        exact .inr (congrArg some steps.1)
    · cases sequences with
      | nil => rfl
      | cons next sequences =>
        simp only [List.tail_cons, List.zip_cons_cons, List.any_cons,
          Bool.or_eq_false_iff] at steps
        exact steps.2

theorem forall₂_of_mapM {α β ε : Type} {f : α → Except ε β} {items : List α} {results : List β}
    (outcome : items.mapM f = .ok results) :
    List.Forall₂ (fun item result => f item = .ok result) items results := by
  induction items generalizing results with
  | nil =>
    obtain rfl := Except.ok.inj outcome
    exact .nil
  | cons item items ih =>
    rw [List.mapM_cons] at outcome
    obtain ⟨result, first, outcome⟩ := bind_eq_ok.mp outcome
    obtain ⟨rest, others, outcome⟩ := bind_eq_ok.mp outcome
    obtain rfl := Except.ok.inj outcome
    exact .cons first (ih others)

section Yields

variable {encodedLength codec inMemory} {key : TraceThreadKey} {record : PageRecord}
  {event : TraceEvent} {page : StoredTraceEventPage} {request : TraceEventPageRequest}
  {batch : List TraceEvent}

/-- The event belongs to the thread and the generation of a key. -/
def TraceEvent.Of (event : TraceEvent) (key : TraceThreadKey) : Prop :=
  event.generation = key.generation ∧ event.fact.identity.threadId = key.threadId ∧
    event.fact.identity.namespace = key.namespace

theorem decodeEvent_ok (decoded : decodeEvent encodedLength codec inMemory key record = .ok event) :
    event.traceSeq = record.traceSeq ∧ event.Of key := by
  unfold decodeEvent at decoded
  split at decoded
  · next cached kept =>
      simp only [bind_eq_ok, reject_eq_ok, not_not, pure, Except.pure, Except.ok.injEq] at decoded
      obtain ⟨-, -, -, evidence, rfl⟩ := decoded
      exact ⟨evidence.2.1, evidence.2.2.1, evidence.2.2.2.2.1, evidence.2.2.2.2.2.1⟩
  · simp only [decodeDurableEvent, bind_eq_ok, reject_eq_ok, not_or, not_not, pure, Except.pure,
      Except.ok.injEq] at decoded
    obtain ⟨-, -, fact, -, -, ⟨thread, space, -⟩, made, makes, -, -, rfl⟩ := decoded
    obtain ⟨-, sequence, generation, same, -⟩ := makeEvent_eq_ok makes
    exact ⟨sequence, generation, by rw [same]; exact thread, by rw [same]; exact space⟩

theorem decodeEvent_cached {cached : TraceEvent} (kept : record.validatedEvent = some cached)
    (decoded : decodeEvent encodedLength codec true key record = .ok event) : event = cached := by
  unfold decodeEvent at decoded
  simp only [kept, bind_eq_ok, reject_eq_ok, pure, Except.pure, Except.ok.injEq] at decoded
  obtain ⟨-, -, -, -, rfl⟩ := decoded
  rfl

theorem decodeEvents_ok {records : List PageRecord}
    (each : List.Forall₂ (fun record event =>
      decodeEvent encodedLength codec inMemory key record = .ok event) records batch) :
    batch.map (·.traceSeq) = records.map (·.traceSeq) ∧ ∀ event ∈ batch, event.Of key := by
  induction each with
  | nil => simp
  | cons first _ ih =>
    obtain ⟨sequence, belongs⟩ := decodeEvent_ok first
    simp only [List.map_cons, sequence, ih.1, List.mem_cons, true_and]
    rintro event (rfl | member)
    · exact belongs
    · exact ih.2 event member

/-- A page that keeps the order of a forward request carries the sequences after its cursor, and
none only if there are none. -/
theorem forward_sequences {after : Int} (forward : request.direction = .forward)
    (asks : request.afterSeq = some after) (all : request.asOfSeq = none)
    (ordered : violatesOrder page request = false) :
    page.events.map (·.traceSeq) = following after page.events.length ∧
      (page.events = [] → page.tailSeq ≤ after) := by
  simp only [violatesOrder, forward, asks, all, Option.getD_some, Option.getD_none, min_self,
    Bool.or_eq_false_iff, decide_eq_false_iff_not, not_and, not_not] at ordered
  obtain ⟨⟨within, steps⟩, starts⟩ := ordered
  have whole : page.events.map (·.traceSeq) =
      following after (page.events.map (·.traceSeq)).length := by
    refine eq_following ?_ steps
    cases records : page.events with
    | nil => exact .inl rfl
    | cons record events =>
      simp only [records, List.map_cons, List.any_cons, Bool.or_eq_false_iff,
        decide_eq_false_iff_not] at within
      refine .inr ?_
      rw [← records]
      exact starts (by omega)
  refine ⟨by simpa using whole, fun none => ?_⟩
  by_contra short
  have := starts (by omega)
  simp [none] at this

/-- The events of an accepted page follow the cursor of its request. -/
theorem decodeEventPage_ok {after : Int} (forward : request.direction = .forward)
    (asks : request.afterSeq = some after) (all : request.asOfSeq = none)
    (decoded : decodeEventPage encodedLength codec inMemory page request = .ok batch) :
    batch.map (·.traceSeq) = following after batch.length ∧ (∀ event ∈ batch, event.Of request.key) ∧
      (batch = [] → page.tailSeq ≤ after) ∧ page.key = request.key ∧
      List.Forall₂ (fun record event =>
        decodeEvent encodedLength codec inMemory request.key record = .ok event)
        page.events batch := by
  simp only [decodeEventPage, bind_eq_ok, reject_eq_ok, ne_eq, not_not, Bool.not_eq_true] at decoded
  obtain ⟨-, key, -, -, -, -, -, ordered, decoded⟩ := decoded
  have each := forall₂_of_mapM decoded
  obtain ⟨sequences, short⟩ := forward_sequences forward asks all ordered
  obtain ⟨same, belong⟩ := decodeEvents_ok each
  refine ⟨by rw [same, sequences, each.length_eq], belong, fun none => ?_, key, each⟩
  subst none
  exact short (List.forall₂_nil_right_iff.mp each)

end Yields

end Decode

/-! ## The follower -/

/-- One yielded update. -/
structure TraceStoreUpdate where
  asOfSeq : Int
  events : List TraceEvent
  activeRunIds : List String
  observedAt : Nat

/-- Where a follower is; from its read to its wait it keeps the revision captured before the read. -/
inductive TraceFollowPhase
  | ready
  | reading (revision : Nat)
  | reported (revision : Nat)
  | settled (revision : Nat)
  | waiting (revision : Nat)
  | failed (error : TracingError)
  deriving DecidableEq

structure TraceFollower where
  key : TraceThreadKey
  batchSize : Nat
  cursor : Int
  activeRunIds : Option (List String) := none
  updates : List TraceStoreUpdate := []
  phase : TraceFollowPhase := .ready

/-- A follower before its first read. -/
def followTrace (key : TraceThreadKey) (batchSize afterSeq : Nat) : TraceFollower where
  key
  batchSize
  cursor := afterSeq

namespace TraceFollower

/-- All events yielded so far. -/
def delivered (follower : TraceFollower) : List TraceEvent := follower.updates.flatMap (·.events)

def request (follower : TraceFollower) : TraceEventPageRequest where
  key := follower.key
  afterSeq := some follower.cursor
  limit := follower.batchSize

variable (encodedLength : TraceEvent → Nat) (codec : TracePayloadCodec) (inMemory : Bool)

/-- The follower after the answer to its read. -/
def receive (follower : TraceFollower) (revision : Nat)
    (answer : Except TracingError StoredTraceEventPage) : TraceFollower :=
  match answer.bind fun page =>
      (decodeEventPage encodedLength codec inMemory page follower.request).map (page, ·) with
  | .error error => { follower with phase := .failed error }
  | .ok (page, batch) =>
    let cursor := batch.getLast?.elim follower.cursor (·.traceSeq)
    if batch.isEmpty ∧ follower.activeRunIds = some page.activeRunIds then
      { follower with phase := .settled revision }
    else
      { follower with
        cursor
        activeRunIds := some page.activeRunIds
        updates := follower.updates ++
          [{ asOfSeq := cursor
             events := batch
             activeRunIds := page.activeRunIds
             observedAt := page.observedAt }]
        phase := if batch.isEmpty then .reported revision else .ready }

variable {encodedLength codec inMemory} {follower : TraceFollower} {revision : Nat}
  {answer : Except TracingError StoredTraceEventPage}

theorem cursor_of_following {after : Int} {batch : List TraceEvent}
    (sequences : batch.map (·.traceSeq) = following after batch.length) :
    batch.getLast?.elim after (·.traceSeq) = after + batch.length := by
  cases batch using List.reverseRecOn with
  | nil => simp
  | append_singleton batch event =>
    have last := congrArg List.getLast? sequences
    simp only [List.map_append, List.map_cons, List.map_nil, List.getLast?_append,
      List.getLast?_singleton, Option.some_or, List.length_append, List.length_singleton,
      following, List.range_succ, Option.some.injEq] at last
    simp only [List.getLast?_append, List.getLast?_singleton, Option.some_or, Option.elim_some,
      last, List.length_append, List.length_singleton]
    push_cast
    omega

variable (encodedLength codec inMemory follower revision answer) in
/-- An answer fails the follower and yields nothing, or is a page whose events the follower yields
before it reads on; it goes on to its wait only when there was none. -/
theorem receive_cases :
    (∃ error, follower.receive encodedLength codec inMemory revision answer =
      { follower with phase := .failed error }) ∨
    ∃ page batch, answer = .ok page ∧
      decodeEventPage encodedLength codec inMemory page follower.request = .ok batch ∧
      let after := follower.receive encodedLength codec inMemory revision answer
      after.key = follower.key ∧ after.delivered = follower.delivered ++ batch ∧
        after.cursor = follower.cursor + batch.length ∧
        (after.phase = .ready ∨
          batch = [] ∧ (after.phase = .settled revision ∨ after.phase = .reported revision)) := by
  unfold receive
  cases answer with
  | error error => exact .inl ⟨error, rfl⟩
  | ok page =>
    cases decoded : decodeEventPage encodedLength codec inMemory page follower.request with
    | error error => exact .inl ⟨error, by simp [Except.bind, Except.map, decoded]⟩
    | ok batch =>
      refine .inr ⟨page, batch, rfl, decoded, ?_⟩
      have follows := (decodeEventPage_ok rfl rfl rfl decoded).1
      simp only [Except.bind, Except.map, decoded]
      split
      · next quiet =>
          have none : batch = [] := by simpa using quiet.1
          subst none
          simp [delivered]
      · refine ⟨rfl, by simp [delivered], cursor_of_following follows, ?_⟩
        cases batch with
        | nil => exact .inr ⟨rfl, .inr rfl⟩
        | cons event batch => exact .inl rfl

/-- What was yielded are the events after the starting point, without a gap, of one generation. -/
structure Follows (afterSeq : Nat) (follower : TraceFollower) : Prop where
  cursor : follower.cursor = afterSeq + follower.delivered.length
  sequences : follower.delivered.map (·.traceSeq) = following afterSeq follower.delivered.length
  belongs : ∀ event ∈ follower.delivered, event.Of follower.key

theorem followTrace_follows (key : TraceThreadKey) (batchSize afterSeq : Nat) :
    (followTrace key batchSize afterSeq).Follows afterSeq where
  cursor := by simp [followTrace, delivered]
  sequences := rfl
  belongs := by simp [followTrace, delivered]

/-- Whatever a backend answers, the events yielded stay in sequence. -/
theorem Follows.receive {afterSeq : Nat} (follows : follower.Follows afterSeq) (revision : Nat)
    (answer : Except TracingError StoredTraceEventPage) :
    (follower.receive encodedLength codec inMemory revision answer).Follows afterSeq := by
  obtain ⟨error, failed⟩ | ⟨page, batch, -, decoded, key, yields, moves, -⟩ :=
    receive_cases encodedLength codec inMemory follower revision answer
  · rw [failed]
    exact ⟨follows.cursor, follows.sequences, follows.belongs⟩
  · obtain ⟨sequences, belong, -⟩ := decodeEventPage_ok rfl rfl rfl decoded
    constructor
    · rw [moves, yields, follows.cursor, List.length_append]
      push_cast
      omega
    · rw [yields, List.map_append, follows.sequences, sequences, List.length_append, follows.cursor,
        following_append]
    · rw [yields, key]
      intro event member
      obtain earlier | new := List.mem_append.mp member
      · exact follows.belongs event earlier
      · exact belong event new

/-- A page that would break the sequence makes the follower raise, and yields nothing. -/
theorem receive_refuses {page : StoredTraceEventPage}
    (breaks : page.key ≠ follower.key ∨
      page.events.map (·.traceSeq) ≠ following follower.cursor page.events.length ∨
      page.events = [] ∧ follower.cursor < page.tailSeq) :
    ∃ error, follower.receive encodedLength codec inMemory revision (.ok page) =
      { follower with phase := .failed error } := by
  obtain failed | ⟨other, batch, same, decoded, -⟩ :=
    receive_cases encodedLength codec inMemory follower revision (.ok page)
  · exact failed
  · obtain rfl := Except.ok.inj same
    obtain ⟨sequences, -, short, key, each⟩ := decodeEventPage_ok rfl rfl rfl decoded
    obtain other | gap | ⟨none, more⟩ := breaks
    · exact absurd key other
    · rw [← (decodeEvents_ok each).1, each.length_eq] at gap
      exact absurd sequences gap
    · have empty : batch = [] := List.forall₂_nil_left_iff.mp (none ▸ each)
      exact absurd (short empty) (not_le.mpr more)

end TraceFollower

/-! ## One store, its follower and everyone else -/

/-- The rows after a request, whether it raises or not. -/
def MemoryLedger.landed (encodedLength : TraceEvent → Nat) (ledger : MemoryLedger)
    (request : LedgerEvent) : MemoryLedger :=
  match LedgerState.resolved encodedLength ledger request with
  | .error _ => ledger
  | .ok effect => ledger.applyEffect request.change effect

/-- The commit of a request is one that a store announces to the followers of a generation. -/
def announces (encodedLength : TraceEvent → Nat) (ledger : MemoryLedger) (request : LedgerEvent)
    (key : TraceThreadKey) : Bool :=
  match LedgerState.resolved encodedLength ledger request with
  | .error _ => false
  | .ok effect => effect.result.key = some key && request.change.kind ≠ .renewWriter &&
      request.change.kind ≠ .saveProjectionCheckpoint

/-- The rows, the revision that the follower's store counts, and the follower.  A commit of this
store is announced some time after it landed.  Three counters only watch: the generations drawn so
far, what landed since the last read, and how much of that this store goes on to announce. -/
structure FollowSystem where
  ledger : MemoryLedger := .empty
  revision : Nat := 0
  unannounced : Nat := 0
  follower : TraceFollower
  drawn : List String := []
  landedSince : Nat := 0
  ownSince : Nat := 0

inductive FollowAction
  /-- A request reaches the rows; its call goes on to announce it or not. -/
  | land (request : LedgerEvent) (announced : Bool)
  | announce
  | read (now : Nat)
  | resume
  | settle
  | wake
  | timeout

namespace FollowSystem

variable (encodedLength : TraceEvent → Nat) (codec : TracePayloadCodec)

/-- The system with the follower in another phase. -/
def withPhase (system : FollowSystem) (phase : TraceFollowPhase) : FollowSystem :=
  { system with follower := { system.follower with phase } }

/-- The system after a request reached the rows. -/
def afterLanding (system : FollowSystem) (request : LedgerEvent) (announced : Bool) :
    FollowSystem :=
  let own := if announced && announces encodedLength system.ledger request system.follower.key
    then 1 else 0
  { system with
    ledger := system.ledger.landed encodedLength request
    unannounced := system.unannounced + own
    drawn := request.fresh :: system.drawn
    landedSince := system.landedSince + 1
    ownSince := system.ownSince + own }

/-- One action; the follower takes the one that its phase allows. -/
def next (system : FollowSystem) : FollowAction → FollowSystem
  | .land request announced => system.afterLanding encodedLength request announced
  | .announce =>
    if system.unannounced = 0 then system
    else
      { system with
        unannounced := system.unannounced - 1
        revision := system.revision + 1 }
  | .read now =>
    match system.follower.phase with
    | .reading revision =>
      { system with
        follower := system.follower.receive encodedLength codec true revision
          (system.ledger.readEventPage system.follower.request now)
        landedSince := 0
        ownSince := 0 }
    | _ => system
  | .resume =>
    match system.follower.phase with
    | .ready => system.withPhase (.reading system.revision)
    | .reported revision => system.withPhase (.settled revision)
    | _ => system
  | .settle =>
    match system.follower.phase with
    | .settled revision =>
      system.withPhase
        (if system.revision ≠ revision then .reading system.revision else .waiting revision)
    | _ => system
  | .wake =>
    match system.follower.phase with
    | .waiting revision =>
      if system.revision ≠ revision then system.withPhase (.reading system.revision) else system
    | _ => system
  | .timeout =>
    match system.follower.phase with
    | .waiting _ => system.withPhase (.reading system.revision)
    | _ => system

/-- A generation identifier is drawn once. -/
def Fresh (system : FollowSystem) : FollowAction → Prop
  | .land request _ => request.fresh ∉ system.drawn
  | _ => True

instance (system : FollowSystem) : (action : FollowAction) → Decidable (system.Fresh action)
  | .land request _ => inferInstanceAs (Decidable (request.fresh ∉ system.drawn))
  | .announce | .read _ | .resume | .settle | .wake | .timeout => inferInstanceAs (Decidable True)

/-- A follower of a generation before anything was stored. -/
def opened (key : TraceThreadKey) (batchSize afterSeq : Nat) : FollowSystem where
  follower := followTrace key batchSize afterSeq

end FollowSystem

/-! ## Rows after a landing -/

section Landing

variable {encodedLength : TraceEvent → Nat} {ledger : MemoryLedger} {request : LedgerEvent}
  {identity : ThreadIdentity} {thread : MemoryThread}

variable (encodedLength request) in
theorem landed_cases (linked : ledger.Linked) :
    ledger.landed encodedLength request = ledger ∨
      ∃ effect identity after, LedgerState.resolved encodedLength ledger request = .ok effect ∧
        ThreadTransition encodedLength request.change request.now ledger identity after
          effect.charge ∧
        ledger.landed encodedLength request = ledger.replaced identity after ∧
        ledger.landed encodedLength request = ledger.applyEffect request.change effect := by
  unfold MemoryLedger.landed
  cases resolved : LedgerState.resolved encodedLength ledger request with
  | error error => exact .inl rfl
  | ok effect =>
    obtain ⟨same, -⟩ | ⟨identity, after, -, transition, same⟩ := resolved_outcome linked resolved
    · exact .inl same
    · exact .inr ⟨effect, identity, after, rfl, transition, same, rfl⟩

theorem landed_linked (linked : ledger.Linked) : (ledger.landed encodedLength request).Linked := by
  obtain same | ⟨effect, identity, after, -, transition, same, -⟩ :=
    landed_cases encodedLength request linked
  · rw [same]
    exact linked
  · rw [same]
    exact linked.replaced transition

/-- The head of a thread after an effect is the one of the effect or the one from before. -/
theorem applyEffect_head {change : TraceLedgerChange} {effect : TraceLedgerStorageEffect}
    (stored : (ledger.applyEffect change effect).get? identity = some thread) :
    effect.thread = some thread.state ∨
      ∃ old, ledger.get? identity = some old ∧ old.state = thread.state := by
  have written (left : MemoryThread) (found : (ledger.withThread effect).get? identity = some left) :
      effect.thread = some left.state ∨
        ∃ old, ledger.get? identity = some old ∧ old.state = left.state := by
    unfold MemoryLedger.withThread at found
    cases head : effect.thread with
    | none => exact .inr ⟨left, by simpa [head] using found, rfl⟩
    | some state =>
      simp only [head, Dict.get?_insert] at found
      split at found
      · obtain rfl := Option.some.inj found
        cases ledger.get? state.key.toThreadIdentity <;> exact .inl rfl
      · exact .inr ⟨left, found, rfl⟩
  unfold MemoryLedger.applyEffect at stored
  split at stored
  · split at stored
    · exact .inr ⟨thread, stored, rfl⟩
    · exact written thread stored
  · dsimp only at stored
    split at stored
    · rw [Dict.get?_erase] at stored
      split at stored
      · cases stored
      · exact .inr ⟨thread, stored, rfl⟩
    · split at stored
      · exact written thread stored
      · next left found =>
          rw [Dict.get?_insert] at stored
          split at stored
          · next same =>
              obtain rfl := Option.some.inj stored
              exact written left (same ▸ found)
          · exact written thread stored

/-- A writer that opens a thread gives it the drawn generation. -/
theorem resolveOpenWriter_fresh {change : TraceLedgerChange} {state : TraceLedgerState}
    {fresh : String} {effect : TraceLedgerStorageEffect} {head : TraceLedgerThreadState}
    (resolved : resolveOpenWriter change state fresh = .ok effect)
    (creates : effect.thread = some head) : head.key.generation = fresh := by
  unfold resolveOpenWriter at resolved
  split at resolved
  · obtain ⟨thread, opened, resolved⟩ := bind_eq_ok.mp resolved
    split at resolved
    · unfold reopenWriter at resolved
      simp only at resolved
      split at resolved
      · obtain ⟨expires, -, resolved⟩ := bind_eq_ok.mp resolved
        obtain rfl := Except.ok.inj resolved
        cases creates
      · obtain ⟨⟨⟩, -, resolved⟩ := bind_eq_ok.mp resolved
        obtain ⟨⟨⟩, -, resolved⟩ := bind_eq_ok.mp resolved
        obtain ⟨expires, -, resolved⟩ := bind_eq_ok.mp resolved
        obtain rfl := Except.ok.inj resolved
        cases creates
    · simp only [admitWriter, bind_eq_ok, pure, Except.pure, Except.ok.injEq] at resolved
      obtain ⟨⟨⟩, -, ⟨⟩, -, ⟨⟩, -, expires, -, rfl⟩ := resolved
      cases absent : state.thread with
      | some thread => simp [absent] at creates
      | none =>
        simp only [absent, Option.isNone_none, if_true, Option.some.injEq] at creates
        simp only [openedThread, absent, bind_eq_ok, pure, Except.pure, Except.ok.injEq] at opened
        obtain ⟨⟨⟩, -, rfl⟩ := opened
        exact creates ▸ rfl
  · cases resolved

/-- A thread that is there after a landing is of a drawn generation or has grown from the one that
was there before. -/
theorem landed_thread (linked : ledger.Linked)
    (stored : (ledger.landed encodedLength request).get? identity = some thread) :
    thread.state.key.generation = request.fresh ∨
      ∃ old, ledger.get? identity = some old ∧ old.state.key = thread.state.key ∧
        old.events <+: thread.events := by
  obtain same | ⟨effect, changed, after, resolved, transition, replaced, applied⟩ :=
    landed_cases encodedLength request linked
  · exact .inr ⟨thread, same ▸ stored, rfl, List.prefix_refl _⟩
  · have written := stored
    rw [applied] at written
    rw [replaced, MemoryLedger.get?_replaced] at stored
    split at stored
    · next here =>
        subst here
        generalize effect.charge = charge at transition
        cases transition with
        | created key runId ownerToken leaseExpiresAt kind absent named room admissible =>
          have head := (applyEffect_head written).resolve_right fun ⟨_, present, _⟩ => by
            cases absent.symm.trans present
          obtain ⟨state, -, resolved⟩ := bind_eq_ok.mp resolved
          obtain ⟨⟨⟩, -, resolved⟩ := bind_eq_ok.mp resolved
          simp only [kind] at resolved
          exact .inl (resolveOpenWriter_fresh resolved head)
        | admitted old runId ownerToken leaseExpiresAt kind present absent admissible =>
          obtain rfl := Option.some.inj stored
          exact .inr ⟨old, present, rfl, List.prefix_refl _⟩
        | renewed old writer leaseExpiresAt present held active token owned =>
          obtain rfl := Option.some.inj stored
          exact .inr ⟨old, present, rfl, List.prefix_refl _⟩
        | takenOver old writer ownerToken leaseExpiresAt kind present held active _ expired other =>
          obtain rfl := Option.some.inj stored
          exact .inr ⟨old, present, rfl, List.prefix_refl _⟩
        | appended old writer flags events leaseExpiresAt runId request includeActive kind present
            held owned unexpired batch flagged made fits =>
            obtain rfl := Option.some.inj stored
            exact .inr ⟨old, present, rfl, List.prefix_append _ _⟩
        | discarded old writer kind present held owned unused =>
          obtain rfl := Option.some.inj stored
          exact .inr ⟨old, present, rfl, List.prefix_refl _⟩
        | closed old writer kind present held owned used =>
          obtain rfl := Option.some.inj stored
          exact .inr ⟨old, present, rfl, List.prefix_refl _⟩
        | checkpointed old checkpoints kind present =>
          obtain rfl := Option.some.inj stored
          exact .inr ⟨old, present, rfl, List.prefix_refl _⟩
        | removed => cases stored
        | deleted => cases stored
    · exact .inr ⟨thread, stored, rfl, List.prefix_refl _⟩

end Landing

/-! ## Reading the rows -/

section Reading

variable {encodedLength : TraceEvent → Nat} {codec : TracePayloadCodec} {ledger : MemoryLedger}
  {follower : TraceFollower} {now : Nat} {page : StoredTraceEventPage} {batch : List TraceEvent}

/-- The committed events of a thread, oldest first. -/
def MemoryThread.committed (thread : MemoryThread) : List TraceEvent :=
  thread.events.map (·.validatedEvent)

/-- A page of the store shows the records after the cursor of the follower. -/
theorem readEventPage_ok (answered : ledger.readEventPage follower.request now = .ok page) :
    ∃ thread, ledger.get? follower.key.toThreadIdentity = some thread ∧
      thread.state.key = follower.key ∧ page.tailSeq = thread.state.nextSeq - 1 ∧
      ∃ stop, page.events =
        (slice thread.events (min follower.cursor page.tailSeq) stop).map
          MemoryStoredTraceEvent.record ∧ stop ≤ page.tailSeq := by
  unfold MemoryLedger.readEventPage at answered
  split at answered
  · cases answered
  · next thread stored =>
      split at answered
      · cases answered
      · next same =>
          obtain rfl := Except.ok.inj answered
          refine ⟨thread, stored, not_not.mp same, rfl, _, rfl, ?_⟩
          exact (min_le_left _ _).trans (min_le_right _ _)

theorem decodeEvents_cached {key : TraceThreadKey} {stored : List MemoryStoredTraceEvent}
    (each : List.Forall₂ (fun record event =>
      decodeEvent encodedLength codec true key record = .ok event)
      (stored.map MemoryStoredTraceEvent.record) batch) :
    batch = stored.map (·.validatedEvent) := by
  rw [List.forall₂_map_left_iff] at each
  induction each with
  | nil => rfl
  | cons first _ ih => rw [List.map_cons, ← ih, decodeEvent_cached rfl first]

theorem readEventPage_prefix (answered : ledger.readEventPage follower.request now = .ok page)
    (decoded : decodeEventPage encodedLength codec true page follower.request = .ok batch) :
    ∃ thread, ledger.get? follower.key.toThreadIdentity = some thread ∧
      thread.state.key = follower.key ∧ page.tailSeq = thread.state.nextSeq - 1 ∧
      batch <+: thread.committed.drop follower.cursor.toNat := by
  obtain ⟨thread, stored, same, tail, stop, events, within⟩ := readEventPage_ok answered
  obtain ⟨-, -, -, -, each⟩ := decodeEventPage_ok rfl rfl rfl decoded
  rw [events] at each
  refine ⟨thread, stored, same, tail, ?_⟩
  rw [decodeEvents_cached each, slice, List.map_segment, List.segment]
  rcases le_or_gt follower.cursor page.tailSeq with before | beyond
  · rw [min_eq_left before]
    exact List.IsPrefix.drop (List.take_prefix _ _) _
  · rw [min_eq_right beyond.le, ← List.segment, List.segment_eq_nil (Int.toNat_le_toNat within)]
    exact List.nil_prefix

end Reading

/-! ## Along a run -/

/-- The revision that a follower compares in its next wait, after its read. -/
def TraceFollowPhase.observed? : TraceFollowPhase → Option Nat
  | .reported revision | .settled revision | .waiting revision => some revision
  | .ready | .reading _ | .failed _ => none

namespace FollowSystem

variable {encodedLength : TraceEvent → Nat} {codec : TracePayloadCodec} {system : FollowSystem}
  {key : TraceThreadKey} {afterSeq : Nat}

/-- The follower yielded the committed events after its starting point, and none that its store
announces after its read goes unnoticed. -/
structure Followed (key : TraceThreadKey) (afterSeq : Nat) (system : FollowSystem) : Prop where
  linked : system.ledger.Linked
  drawn : ∀ identity thread, system.ledger.get? identity = some thread →
    thread.state.key.generation ∈ system.drawn
  owner : system.follower.key = key
  follows : system.follower.Follows afterSeq
  met : system.follower.delivered ≠ [] → key.generation ∈ system.drawn
  yielded : ∀ thread, system.ledger.get? key.toThreadIdentity = some thread →
    thread.state.key = key → system.follower.delivered <+: thread.committed.drop afterSeq
  captured : ∀ revision, system.follower.phase = .reading revision → revision ≤ system.revision
  counted : ∀ revision, system.follower.phase.observed? = some revision →
    revision ≤ system.revision ∧
      system.ownSince ≤ system.revision - revision + system.unannounced
  seen : system.follower.phase.observed?.isSome → system.landedSince = 0 →
    ∀ thread, system.ledger.get? key.toThreadIdentity = some thread → thread.state.key = key →
      thread.state.nextSeq - 1 ≤ system.follower.cursor

theorem opened_followed (key : TraceThreadKey) (batchSize afterSeq : Nat) :
    (opened key batchSize afterSeq).Followed key afterSeq where
  linked := ⟨fun _ _ stored => by simp [opened] at stored, fun _ _ stored => by simp [opened] at stored⟩
  drawn := fun _ _ stored => by simp [opened] at stored
  owner := rfl
  follows := TraceFollower.followTrace_follows key batchSize afterSeq
  met := fun some => absurd rfl some
  yielded := fun _ stored => by simp [opened] at stored
  captured := fun _ phase => by cases phase
  counted := fun _ phase => by cases phase
  seen := fun phase => by cases phase

/-- A request that reaches the rows extends them under a fresh generation or not at all. -/
theorem Followed.land (followed : system.Followed key afterSeq) {request : LedgerEvent}
    (announced : Bool) (fresh : request.fresh ∉ system.drawn) :
    (system.afterLanding encodedLength request announced).Followed key afterSeq where
  linked := landed_linked followed.linked
  drawn := by
    intro identity thread stored
    obtain drawn | ⟨old, present, same, -⟩ := landed_thread followed.linked stored
    · exact List.mem_cons.mpr (.inl drawn)
    · exact List.mem_cons_of_mem _ (same ▸ followed.drawn identity old present)
  owner := followed.owner
  follows := followed.follows
  met := fun some => List.mem_cons_of_mem _ (followed.met some)
  yielded := by
    intro thread stored same
    obtain drawn | ⟨old, present, kept, grown⟩ := landed_thread followed.linked stored
    · -- a new generation has no events that were yielded before
      have none : system.follower.delivered = [] := by
        by_contra some
        exact fresh (drawn ▸ same ▸ followed.met some)
      exact none ▸ List.nil_prefix
    · exact (followed.yielded old present (kept.trans same)).trans ((grown.map _).drop _)
  captured := followed.captured
  counted := by
    intro revision phase
    obtain ⟨reached, counted⟩ := followed.counted revision phase
    refine ⟨reached, ?_⟩
    simp only [afterLanding]
    omega
  seen := fun _ none => absurd none (Nat.succ_ne_zero _)

theorem Followed.announce (followed : system.Followed key afterSeq) :
    (system.next encodedLength codec .announce).Followed key afterSeq := by
  simp only [next]
  split
  · exact followed
  · refine { followed with captured := fun revision phase => ?_, counted := fun revision phase => ?_ }
    · exact (followed.captured revision phase).trans (Nat.le_succ _)
    · obtain ⟨reached, counted⟩ := followed.counted revision phase
      dsimp only
      omega

/-- The answer to a read of the rows. -/
theorem Followed.read (followed : system.Followed key afterSeq) {revision now : Nat}
    (reading : system.follower.phase = .reading revision) :
    (system.next encodedLength codec (.read now)).Followed key afterSeq := by
  simp only [next, reading]
  have current := followed.captured revision reading
  have follows : (system.follower.receive encodedLength codec true revision
      (system.ledger.readEventPage system.follower.request now)).Follows afterSeq :=
    followed.follows.receive _ _
  obtain ⟨error, failed⟩ | ⟨page, batch, answered, decoded, same, yields, moves, phase⟩ :=
    TraceFollower.receive_cases encodedLength codec true system.follower revision
      (system.ledger.readEventPage system.follower.request now)
  · rw [failed] at follows ⊢
    exact { followed with
      follows
      captured := fun _ phase => by cases phase
      counted := fun _ phase => by cases phase
      seen := fun phase => by cases phase }
  · obtain ⟨thread, stored, generation, tail, extends_⟩ := readEventPage_prefix answered decoded
    rw [followed.owner] at stored generation
    have short := (decodeEventPage_ok rfl rfl rfl decoded).2.2.1
    constructor
    · exact followed.linked
    · exact followed.drawn
    · exact same.trans followed.owner
    · exact follows
    · exact fun _ => generation ▸ followed.drawn _ thread stored
    · intro other present _
      obtain rfl := Option.some.inj (stored.symm.trans present)
      obtain ⟨rest, all⟩ := followed.yielded thread stored generation
      have position : system.follower.cursor.toNat =
          afterSeq + system.follower.delivered.length := by
        rw [followed.follows.cursor]
        omega
      rw [position, ← List.drop_drop, ← all, List.drop_left] at extends_
      rw [yields, ← all]
      exact (List.prefix_append_right_inj _).mpr extends_
    · intro other phase'
      obtain ready | ⟨-, settled | reported⟩ := phase <;> simp_all
    · intro other observed
      have : other = revision := by
        obtain ready | ⟨-, settled | reported⟩ := phase <;>
          simp_all [TraceFollowPhase.observed?]
      subst this
      exact ⟨current, Nat.zero_le _⟩
    · intro observed _ other present _
      obtain rfl := Option.some.inj (stored.symm.trans present)
      obtain ready | ⟨none, -⟩ := phase
      · simp [ready, TraceFollowPhase.observed?] at observed
      · rw [moves, none, ← tail]
        simpa using short none

theorem Followed.withPhase (followed : system.Followed key afterSeq) {phase : TraceFollowPhase}
    (captured : ∀ revision, phase = .reading revision → revision ≤ system.revision)
    (observed : ∀ revision, phase.observed? = some revision →
      system.follower.phase.observed? = some revision) :
    (system.withPhase phase).Followed key afterSeq :=
  { followed with
    follows := ⟨followed.follows.cursor, followed.follows.sequences, followed.follows.belongs⟩
    captured
    counted := fun revision kept => followed.counted revision (observed revision kept)
    seen := fun kept => by
      obtain ⟨revision, kept⟩ := Option.isSome_iff_exists.mp kept
      exact followed.seen (by rw [observed revision kept]; rfl) }

theorem Followed.rereads (followed : system.Followed key afterSeq) :
    (system.withPhase (.reading system.revision)).Followed key afterSeq :=
  followed.withPhase (fun revision same => by cases same; exact le_rfl) fun _ kept => by cases kept

theorem next_followed (action : FollowAction) (followed : system.Followed key afterSeq)
    (fresh : system.Fresh action) :
    (system.next encodedLength codec action).Followed key afterSeq := by
  cases action with
  | land request announced => exact followed.land announced fresh
  | announce => exact followed.announce
  | read now =>
    cases phase : system.follower.phase with
    | reading revision => exact followed.read phase
    | _ => simpa only [next, phase] using followed
  | resume =>
    cases phase : system.follower.phase with
    | ready => simpa only [next, phase] using followed.rereads
    | reported revision =>
      simp only [next, phase]
      exact followed.withPhase (fun _ same => by cases same) fun _ kept => by
        rw [phase]
        exact kept
    | _ => simpa only [next, phase] using followed
  | settle =>
    cases phase : system.follower.phase with
    | settled revision =>
      simp only [next, phase]
      split
      · exact followed.rereads
      · exact followed.withPhase (fun _ same => by cases same) fun _ kept => by
          rw [phase]
          exact kept
    | _ => simpa only [next, phase] using followed
  | wake =>
    cases phase : system.follower.phase with
    | waiting revision =>
      simp only [next, phase]
      split
      · exact followed.rereads
      · exact followed
    | _ => simpa only [next, phase] using followed
  | timeout =>
    cases phase : system.follower.phase with
    | waiting revision => simpa only [next, phase] using followed.rereads
    | _ => simpa only [next, phase] using followed

theorem run_followed {batchSize : Nat} {actions : List FollowAction}
    (fresh : Machine.Guarded (next encodedLength codec) Fresh (opened key batchSize afterSeq)
      actions) :
    (Machine.run (next encodedLength codec) (opened key batchSize afterSeq) actions).Followed key
      afterSeq :=
  Machine.guarded_invariant (fun _ action followed => next_followed action followed) fresh
    (opened_followed key batchSize afterSeq)

variable (encodedLength codec system) in
/-- The events that an action yields are read from the rows as they are. -/
theorem delivered_next (action : FollowAction) :
    (system.next encodedLength codec action).follower.delivered = system.follower.delivered ∨
      ∃ thread, system.ledger.get? system.follower.key.toThreadIdentity = some thread ∧
        thread.state.key = system.follower.key ∧
        (system.next encodedLength codec action).ledger = system.ledger := by
  cases action with
  | land request announced => exact .inl rfl
  | announce =>
    simp only [next]
    split <;> exact .inl rfl
  | read now =>
    cases phase : system.follower.phase with
    | reading revision =>
      simp only [next, phase]
      obtain ⟨error, failed⟩ | ⟨page, batch, answered, decoded, -⟩ :=
        TraceFollower.receive_cases encodedLength codec true system.follower revision
          (system.ledger.readEventPage system.follower.request now)
      · rw [failed]
        exact .inl rfl
      · obtain ⟨thread, stored, same, -⟩ := readEventPage_prefix answered decoded
        exact .inr ⟨thread, stored, same, trivial⟩
    | _ => simp only [next, phase, true_or]
  | resume =>
    simp only [next]
    split <;> exact .inl rfl
  | settle =>
    simp only [next]
    split <;> exact .inl rfl
  | wake =>
    simp only [next]
    split
    · split <;> exact .inl rfl
    · exact .inl rfl
  | timeout =>
    simp only [next]
    split <;> exact .inl rfl

/-- Whatever was yielded was committed under the generation at some point of the run. -/
theorem delivered_committed {batchSize : Nat} {actions : List FollowAction}
    (fresh : Machine.Guarded (next encodedLength codec) Fresh (opened key batchSize afterSeq)
      actions) :
    let reached := Machine.run (next encodedLength codec) (opened key batchSize afterSeq)
    (reached actions).follower.delivered = [] ∨ ∃ before after thread, actions = before ++ after ∧
      (reached before).ledger.get? key.toThreadIdentity = some thread ∧ thread.state.key = key ∧
      (reached actions).follower.delivered <+: thread.committed.drop afterSeq := by
  intro reached
  induction actions using List.reverseRecOn with
  | nil => exact .inl rfl
  | append_singleton actions action ih =>
    have guarded := Machine.guarded_append.mp fresh
    have last : reached (actions ++ [action]) =
        (reached actions).next encodedLength codec action := by
      simp only [reached, Machine.run_append, Machine.run_cons, Machine.run_nil]
    have owner := (run_followed guarded.1).owner
    obtain same | ⟨thread, stored, named, rows⟩ :=
      delivered_next encodedLength codec (reached actions) action
    · rw [last, same]
      obtain none | ⟨before, after, thread, rfl, rest⟩ := ih guarded.1
      · exact .inl none
      · exact .inr ⟨before, after ++ [action], thread, by simp, rest⟩
    · have here : (reached (actions ++ [action])).ledger.get? key.toThreadIdentity =
          some thread := by
        rw [last, rows, ← owner]
        exact stored
      exact .inr ⟨actions ++ [action], [], thread, by simp, here, named.trans owner,
        (run_followed fresh).yielded thread here (named.trans owner)⟩

/-- Whatever pages a backend answers with, the events that a follower yields carry the sequences
after its starting point in order, and a page that would break this makes it raise.  Along every run
of one store, its follower and everyone else over the same rows the events are those committed under
the generation, an empty read leaves nothing before it unread, and a wait goes on only while every
commit that the store of the follower announces was announced before the read. -/
theorem follow_exact (encodedLength : TraceEvent → Nat) (codec : TracePayloadCodec)
    (key : TraceThreadKey) (batchSize afterSeq : Nat) :
    (∀ (inMemory : Bool) (answers : List (Nat × Except TracingError StoredTraceEventPage)),
      (answers.foldl (fun follower (revision, answer) =>
        follower.receive encodedLength codec inMemory revision answer)
        (followTrace key batchSize afterSeq)).Follows afterSeq) ∧
    (∀ (inMemory : Bool) (follower : TraceFollower) (revision : Nat) (page : StoredTraceEventPage),
      page.key ≠ follower.key ∨
        page.events.map (·.traceSeq) ≠ following follower.cursor page.events.length ∨
        page.events = [] ∧ follower.cursor < page.tailSeq →
      ∃ error, follower.receive encodedLength codec inMemory revision (.ok page) =
        { follower with phase := .failed error }) ∧
    ∀ actions,
      Machine.Guarded (next encodedLength codec) Fresh (opened key batchSize afterSeq) actions →
      let reached := Machine.run (next encodedLength codec) (opened key batchSize afterSeq)
      let system := reached actions
      system.follower.Follows afterSeq ∧
      (system.follower.delivered = [] ∨ ∃ before after thread, actions = before ++ after ∧
        (reached before).ledger.get? key.toThreadIdentity = some thread ∧ thread.state.key = key ∧
        system.follower.delivered <+: thread.committed.drop afterSeq) ∧
      (∀ thread, system.ledger.get? key.toThreadIdentity = some thread → thread.state.key = key →
        system.follower.delivered <+: thread.committed.drop afterSeq ∧
        (system.follower.phase.observed?.isSome → system.landedSince = 0 →
          thread.state.nextSeq - 1 ≤ system.follower.cursor)) ∧
      ∀ revision, system.follower.phase.observed? = some revision → system.unannounced = 0 →
        0 < system.ownSince → system.revision ≠ revision := by
  refine ⟨fun inMemory answers => ?_, fun inMemory follower revision page =>
    TraceFollower.receive_refuses, fun actions fresh => ?_⟩
  · exact Machine.run_invariant (fun follower (revision, answer) follows =>
      follows.receive revision answer) (TraceFollower.followTrace_follows key batchSize afterSeq)
  · have followed := run_followed fresh
    refine ⟨followed.follows, delivered_committed fresh, fun thread stored same =>
      ⟨followed.yielded thread stored same, fun kept still =>
        followed.seen kept still thread stored same⟩, fun revision kept announced own => ?_⟩
    obtain ⟨reached, counted⟩ := followed.counted revision kept
    omega

/-! ### A commit of another store -/

/-- Payloads of the samples are empty. -/
def sampleCodec : TracePayloadCodec where
  digest := fun _ => .ok ""
  decodeFact := fun _ => .error (.storeProtocol "no payload")

def sampleKey : TraceThreadKey :=
  { «namespace» := "tenant", threadId := "thread", generation := "generation" }

/-- A read of an empty thread; another store appends before the follower waits. -/
def lateAppend : List FollowAction :=
  [.land MemoryTraceBackend.sampleOpening false, .resume, .read 0, .resume,
    .land (MemoryTraceBackend.sampleMessage []) false, .settle]

/-- The same append before the read. -/
def earlyAppend : List FollowAction :=
  [.land MemoryTraceBackend.sampleOpening false,
    .land (MemoryTraceBackend.sampleMessage []) false, .resume, .read 0]

/-- One event is yielded, and it is the committed one. -/
theorem follow_exact_earlyAppend :
    let system := Machine.run (next (fun _ => 1) sampleCodec) (opened sampleKey 10 0) earlyAppend
    system.follower.Follows 0 ∧ system.follower.delivered.length = 1 := by
  have fresh : Machine.Guarded (next (fun _ => 1) sampleCodec) Fresh (opened sampleKey 10 0)
      earlyAppend := by
    decide +kernel
  exact ⟨((follow_exact (fun _ => 1) sampleCodec sampleKey 10 0).2.2 earlyAppend fresh).1,
    by decide +kernel⟩

/-- A follower waits although the tail is past its cursor. -/
def Oversleeps (system : FollowSystem) : Prop :=
  system.follower.phase = .waiting system.revision ∧ system.unannounced = 0 ∧
    (system.ledger.get? system.follower.key.toThreadIdentity).any fun thread =>
      decide (system.follower.cursor < thread.state.nextSeq - 1)

instance (system : FollowSystem) : Decidable system.Oversleeps :=
  inferInstanceAs (Decidable (_ ∧ _ ∧ _))

/-- A commit of another store that lands between the read and the wait is slept through. -/
theorem peer_append_slept_through : ¬∀ actions,
    Machine.Guarded (next (fun _ => 1) sampleCodec) Fresh (opened sampleKey 10 0) actions →
      ¬(Machine.run (next (fun _ => 1) sampleCodec) (opened sampleKey 10 0) actions).Oversleeps := by
  intro awake
  exact awake lateAppend (by decide +kernel) (by decide +kernel)

end FollowSystem

end Tinkerfin.Tracing
