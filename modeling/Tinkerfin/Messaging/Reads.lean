import Tinkerfin.Messaging.StoreRules

/-!
# Reading a generation

A read or a wait names an exact generation.  A generation that is sealed or retired is rejected with
the reason of its cleanup; an active one answers with a page, the change cursor and the run record
observed together with it.
-/

namespace Tinkerfin.Messaging

/-- One bounded ascending page of an exact generation. -/
structure CommittedMessageQuery where
  channel : String
  identity : RunIdentity
  generation : Nat
  afterSequence : Int
  throughSequence : Option Int := none
  limit : Int
  stopAtRunTerminal : Bool := false

/-- Message and control state already observed by a waiter. -/
structure MessagingChangeCursor where
  messageSequence : Nat
  controlSequence : Nat
  deriving DecidableEq, Repr

/-- A page with the state observed in the same read. -/
structure CommittedMessagePage where
  generation : Nat
  latestSequence : Nat
  messages : List MessageEnvelope
  changeCursor : MessagingChangeCursor
  runState : Option StoredMessagingRun

/-! ## Availability -/

/-- Failure of a request for a generation with a sealed or retired disposition. -/
def raiseStreamDisposition (channel : String) (identity : RunIdentity) (generation : Nat)
    (disposition : MessagingStreamDisposition) : MessagingError :=
  if disposition = .expiring ∨ disposition = .expired then
    .streamExpired channel identity generation
  else
    .streamDeleted channel identity generation

/-- Failure of a request for a generation that is not live. -/
def StreamThread.generationUnavailable (thread : StreamThread) (channel : String)
    (identity : RunIdentity) (generation : Nat) : MessagingError :=
  match thread.tombstones generation with
  | some .expired => .streamExpired channel identity generation
  | some .deleted | none => .streamDeleted channel identity generation

/-- The exact generation named by a read or a wait. -/
def StreamThread.requireGeneration (thread : StreamThread) (channel : String)
    (identity : RunIdentity) (generation : Nat) : Except MessagingError Generation :=
  match thread.live with
  | none => .error (thread.generationUnavailable channel identity generation)
  | some live => do
    require (live.stream.generation = generation)
      (thread.generationUnavailable channel identity generation)
    require (live.stream.disposition = .active)
      (raiseStreamDisposition channel identity generation live.stream.disposition)
    return live

/-! ## Pages -/

/-- `values[start:stop]` for a start that is not negative; a negative stop counts from the end. -/
def slice {α : Type} (values : List α) (start stop : Int) : List α :=
  (values.take (if stop < 0 then values.length + stop else stop).toNat).drop start.toNat

/-- Last sequence that a page may contain. -/
def Generation.pageEnd (generation : Generation) (query : CommittedMessageQuery) : Int :=
  let latest : Int := generation.messages.length
  let through := query.throughSequence.elim latest fun through => min through latest
  let through := match generation.runs query.identity.runId with
    | some run =>
      if query.stopAtRunTerminal ∧ isFinalRunStatus run.status then
        min through run.endSequence
      else
        through
    | none => through
  min through (query.afterSequence + query.limit)

/-- The page of an active generation. -/
def Generation.page (generation : Generation) (query : CommittedMessageQuery) :
    CommittedMessagePage where
  generation := generation.stream.generation
  latestSequence := generation.messages.length
  messages := slice (generation.messages.map StoredMessageEvidence.envelope) query.afterSequence
    (generation.pageEnd query)
  changeCursor := ⟨generation.messages.length, generation.stream.controlSequence⟩
  runState := generation.runs query.identity.runId

/-- The stream addressed by a read. -/
def CommittedMessageQuery.key (query : CommittedMessageQuery) : StreamKey :=
  ⟨query.channel, threadKey query.identity⟩

/-- Read one page of an exact generation. -/
def StreamStore.readCommittedMessages (store : StreamStore) (query : CommittedMessageQuery) :
    Except MessagingError CommittedMessagePage := do
  require (0 ≤ query.afterSequence) (.valueError "after_sequence must be non-negative")
  require (1 ≤ query.limit ∧ query.limit ≤ 1000) (.valueError "limit must be between 1 and 1000")
  let generation ← (store.threads query.key).requireGeneration query.channel query.identity
    query.generation
  require (query.afterSequence ≤ generation.messages.length)
    (.invalidCursor query.afterSequence generation.messages.length)
  return generation.page query

/-- A wait for a change of an exact generation. -/
structure MessagingChangeWait where
  channel : String
  identity : RunIdentity
  generation : Nat
  cursor : MessagingChangeCursor

/-- The stream addressed by a wait. -/
def MessagingChangeWait.key (wait : MessagingChangeWait) : StreamKey :=
  ⟨wait.channel, threadKey wait.identity⟩

/-- Whether a wait finds its generation already changed; otherwise it sleeps until a notification,
a spurious one or its timeout, and returns without looking again. -/
def StreamStore.waitForMessagingChange (store : StreamStore) (wait : MessagingChangeWait) :
    Except MessagingError Bool := do
  let generation ← (store.threads wait.key).requireGeneration wait.channel wait.identity
    wait.generation
  return decide (generation.messages.length ≠ wait.cursor.messageSequence ∨
    generation.stream.controlSequence ≠ wait.cursor.controlSequence)

/-! ## Accepted reads -/

variable {thread : StreamThread} {channel : String} {identity : RunIdentity} {number : Nat}
  {live : Generation} {store : StreamStore} {query : CommittedMessageQuery}

theorem requireGeneration_eq_ok :
    thread.requireGeneration channel identity number = .ok live ↔
      thread.live = some live ∧ live.stream.generation = number ∧
        live.stream.disposition = .active := by
  unfold StreamThread.requireGeneration
  cases lookup : thread.live with
  | none => simp
  | some other =>
    simp only [bind_eq_ok, require_eq_ok, pure, Except.pure, Except.ok.injEq, Option.some.injEq]
    constructor
    · rintro ⟨_, same, _, active, rfl⟩
      exact ⟨rfl, same, active⟩
    · rintro ⟨rfl, same, active⟩
      exact ⟨(), same, (), active, rfl⟩

theorem readCommittedMessages_eq_ok {page : CommittedMessagePage} :
    store.readCommittedMessages query = .ok page ↔
      0 ≤ query.afterSequence ∧ (1 ≤ query.limit ∧ query.limit ≤ 1000) ∧
        ∃ live, (store.threads query.key).live = some live ∧
          live.stream.generation = query.generation ∧ live.stream.disposition = .active ∧
          query.afterSequence ≤ live.messages.length ∧ page = live.page query := by
  simp only [StreamStore.readCommittedMessages, bind_eq_ok, require_eq_ok,
    requireGeneration_eq_ok, pure, Except.pure, Except.ok.injEq]
  constructor
  · rintro ⟨_, nonneg, _, limited, live, ⟨lookup, same, active⟩, _, bounded, rfl⟩
    exact ⟨nonneg, limited, live, lookup, same, active, bounded, rfl⟩
  · rintro ⟨nonneg, limited, live, lookup, same, active, bounded, rfl⟩
    exact ⟨(), nonneg, (), limited, live, ⟨lookup, same, active⟩, (), bounded, rfl⟩

theorem waitForMessagingChange_answered {wait : MessagingChangeWait}
    (lookup : (store.threads wait.key).live = some live)
    (generation : live.stream.generation = wait.generation)
    (active : live.stream.disposition = .active) :
    ∃ changed, store.waitForMessagingChange wait = .ok changed := by
  have found : (store.threads wait.key).requireGeneration wait.channel wait.identity
      wait.generation = .ok live := requireGeneration_eq_ok.mpr ⟨lookup, generation, active⟩
  rw [StreamStore.waitForMessagingChange, found]
  exact ⟨_, rfl⟩

end Tinkerfin.Messaging
