import Mathlib.Logic.Function.Basic
import Tinkerfin.Lib.Machine
import Tinkerfin.Messaging.TransitionSpec

/-!
# The stream store contract

What a storage backend must provide, without its representation: each stream has at most one live
generation and keeps the reason of every retired one.  A commit resolves a transition against the
snapshot of the store and applies the effect; between commits the environment lets producer leases
and retention deadlines pass, removes records of a sealed generation in arbitrary batches and
retires idle generations whose retention ended.
-/

namespace Tinkerfin.Messaging

/-! ## State -/

/-- One stream: a channel and a namespaced conversation. -/
structure StreamKey where
  channel : String
  thread : ThreadIdentity
  deriving DecidableEq, Repr

/-- The stream addressed by a transition. -/
def MessagingTransition.key (transition : MessagingTransition) : StreamKey :=
  ⟨transition.channel, threadKey transition.identity⟩

/-- The records of one live generation. -/
structure Generation where
  stream : StoredMessagingStream
  runs : String → Option StoredMessagingRun
  messages : List StoredMessageEvidence

/-- The generation that holds nothing but its stream record. -/
def Generation.opened (stream : StoredMessagingStream) : Generation where
  stream
  runs _ := none
  messages := []

/-- The live generation of one stream and the evidence of its retired generations. -/
structure StreamThread where
  live : Option Generation := none
  /-- The generation retired last. -/
  retired : Option Nat := none
  tombstones : Nat → Option MessagingCleanupReason := fun _ => none

structure StreamStore where
  channels : String → Option StoredMessagingChannel
  threads : StreamKey → StreamThread

/-- The store before any transition. -/
def StreamStore.empty : StreamStore where
  channels _ := none
  threads _ := {}

/-! ## Snapshots -/

/-- Generation whose records a transition reads, `none` for the live one. -/
def selectedGeneration (transition : MessagingTransition) : Option Nat :=
  if transition.kind = .finishGenerationCleanup then
    transition.cleanupGeneration
  else
    transition.runReference.map MessagingRunReference.generation

/-- The live generation, unless a different one is selected. -/
def StreamThread.selected (thread : StreamThread) (generation : Option Nat) : Option Generation :=
  thread.live.filter fun live => decide (∀ wanted ∈ generation, live.stream.generation = wanted)

/-- The run that owns a generation, unless it is the addressed run. -/
def Generation.otherActiveRun (generation : Generation) (runId : String) :
    Option StoredMessagingRun :=
  (generation.stream.activeRunId.filter fun active => decide (active ≠ runId)).bind generation.runs

/-- The committed message with an identifier. -/
def Generation.matching (generation : Generation) (messageId : String) :
    Option StoredMessageEvidence :=
  generation.messages.find? fun message => decide (message.envelope.messageId = messageId)

/-- Tombstone of a selected generation, or of the one retired last. -/
def StreamThread.tombstone (thread : StreamThread) (generation : Option Nat) :
    Option (Nat × MessagingCleanupReason) :=
  (generation.or thread.retired).bind fun retired =>
    (thread.tombstones retired).map fun reason => (retired, reason)

/-- The bounded view that one transition is resolved against. -/
def StreamStore.snapshot (store : StreamStore) (observedAt : Nat)
    (transition : MessagingTransition) : MessagingStateSnapshot :=
  let thread := store.threads transition.key
  let selected := thread.selected (selectedGeneration transition)
  let tombstone := thread.tombstone (selectedGeneration transition)
  { observedAt
    channel := store.channels transition.channel
    stream := selected.map Generation.stream
    targetRun := selected.bind fun live => live.runs transition.identity.runId
    activeRun := selected.bind fun live => live.otherActiveRun transition.identity.runId
    matchingMessage := selected.bind fun live => transition.messageId.bind live.matching
    tombstoneGeneration := tombstone.map Prod.fst
    tombstoneReason := tombstone.map Prod.snd }

/-! ## Effects -/

/-- Replace or add run records. -/
def recordRuns (runs : String → Option StoredMessagingRun) (written : List StoredMessagingRun) :
    String → Option StoredMessagingRun :=
  written.foldl (fun runs run => Function.update runs run.identity.runId (some run)) runs

/-- Apply the replacements of an effect to the generation they belong to. -/
def Generation.revise (generation : Generation) (effect : MessagingStorageEffect) : Generation where
  stream := effect.stream.getD generation.stream
  runs := recordRuns generation.runs effect.runs
  messages := generation.messages ++ effect.message.toList

/-- The generation an effect belongs to: the live one, or a new one that replaces it. -/
def StreamThread.base (thread : StreamThread) (effect : MessagingStorageEffect) :
    Option Generation :=
  match effect.stream with
  | none => thread.live
  | some stream =>
    (thread.live.filter fun live => decide (live.stream.generation = stream.generation)).or
      (some (Generation.opened stream))

/-- Turn the live generation into a tombstone. -/
def StreamThread.retire (thread : StreamThread) (generation : Nat)
    (reason : MessagingCleanupReason) : StreamThread where
  live := none
  retired := some generation
  tombstones := Function.update thread.tombstones generation (some reason)

/-- Apply an effect to its stream. -/
def StreamThread.apply (thread : StreamThread) (effect : MessagingStorageEffect) : StreamThread :=
  match thread.base effect with
  | none => thread
  | some generation =>
    match effect.tombstoneReason with
    | none => { thread with live := some (generation.revise effect) }
    | some reason => thread.retire (generation.revise effect).stream.generation reason

/-- Change one stream. -/
def StreamStore.onThread (store : StreamStore) (key : StreamKey)
    (change : StreamThread → StreamThread) : StreamStore :=
  { store with threads := Function.update store.threads key (change (store.threads key)) }

/-- Apply an effect to the store. -/
def StreamStore.apply (store : StreamStore) (key : StreamKey) (effect : MessagingStorageEffect) :
    StreamStore :=
  { store.onThread key fun thread => thread.apply effect with
    channels := effect.channel.elim store.channels fun channel =>
      Function.update store.channels key.channel (some channel) }

/-- Resolve one transition and apply its effect. -/
def StreamStore.commit (store : StreamStore) (observedAt : Nat)
    (transition : MessagingTransition) :
    Except MessagingError (MessagingTransitionResult × StreamStore) := do
  let effect ← resolveMessagingTransition transition (store.snapshot observedAt transition)
  return (effect.result, store.apply transition.key effect)

/-- The outcome of an accepted transition. -/
def StreamStore.accepted (store : StreamStore) (observedAt : Nat)
    (transition : MessagingTransition) : Option (MessagingTransitionResult × StreamStore) :=
  (store.commit observedAt transition).toOption

/-! ## Environment steps -/

/-- Let the lease of one producer run out. -/
def Generation.expireLease (generation : Generation) (runId : String) : Generation :=
  { generation with
    runs := Function.update generation.runs runId
      ((generation.runs runId).map fun run => { run with producerLeaseActive := false }) }

/-- Let the storage clock reach, or not yet reach, the retention deadline. -/
def Generation.observeRetention (generation : Generation) (expired : Bool) : Generation :=
  { generation with stream := { generation.stream with retentionExpired := expired } }

/-- Whether a generation is sealed for cleanup. -/
def MessagingStreamDisposition.isSealed : MessagingStreamDisposition → Bool
  | .deleting | .expiring => true
  | .active | .deleted | .expired => false

/-- Remove a batch of records from a sealed generation. -/
def Generation.purge (generation : Generation) (number : Nat)
    (keepMessage : StoredMessageEvidence → Bool) (keepRun : String → Bool) : Generation :=
  if generation.stream.generation = number ∧ generation.stream.disposition.isSealed then
    { generation with
      runs := fun runId => if keepRun runId then generation.runs runId else none
      messages := generation.messages.filter keepMessage }
  else
    generation

/-- Retire an idle generation whose retention ended, in one step. -/
def StreamThread.expire (thread : StreamThread) : StreamThread :=
  match thread.live with
  | none => thread
  | some live =>
    if live.stream.disposition = .active ∧ live.stream.activeRunId = none then
      thread.retire live.stream.generation .expired
    else
      thread

/-- A step that the environment of a stream takes between commits. -/
inductive EnvironmentEvent
  | expireLease (runId : String)
  | observeRetention (expired : Bool)
  | purge (generation : Nat) (keepMessage : StoredMessageEvidence → Bool)
      (keepRun : String → Bool)
  | expire

/-- The stream after a step of its environment. -/
def StreamThread.environment (thread : StreamThread) : EnvironmentEvent → StreamThread
  | .expireLease runId =>
    { thread with live := thread.live.map fun live => live.expireLease runId }
  | .observeRetention expired =>
    { thread with live := thread.live.map fun live => live.observeRetention expired }
  | .purge generation keepMessage keepRun =>
    { thread with live := thread.live.map fun live =>
        live.purge generation keepMessage keepRun }
  | .expire => thread.expire

/-! ## Runs -/

/-- A transition as the framework builds it: a preparation never selects a generation. -/
structure LedgerTransition extends MessagingTransition where
  unselected : kind = .prepareRun → runReference = none

theorem unselected_none : MessagingTransitionKind.prepareRun = .prepareRun →
    (none : Option MessagingRunReference) = none := fun _ => rfl

/-- One step of the store or of its environment. -/
inductive StreamEvent
  | commit (observedAt : Nat) (transition : LedgerTransition)
  | environment (key : StreamKey) (event : EnvironmentEvent)

/-- The store after one event; a rejected transition changes nothing. -/
def StreamStore.next (store : StreamStore) : StreamEvent → StreamStore
  | .commit observedAt transition =>
    ((store.accepted observedAt transition.toMessagingTransition).map Prod.snd).getD store
  | .environment key event => store.onThread key fun thread => thread.environment event

/-- The store after a list of events. -/
abbrev StreamStore.after (store : StreamStore) (events : List StreamEvent) : StreamStore :=
  Machine.run StreamStore.next store events

end Tinkerfin.Messaging
