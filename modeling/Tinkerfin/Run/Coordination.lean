import Tinkerfin.Lib.AsyncLock
import Tinkerfin.Lib.Bytes
import Tinkerfin.Lib.JsonText

/-!
# In-memory run coordination

Scopes of one key take turns.  A scope registers as a user of the lock entry of its key, waits for
its lock, runs its body, and releases the lock.  A task of its own then takes the user off the entry
and drops the entry with its last user.  Tasks of the event loop run from one suspension to the
next, and every action below is one such stretch of one task.
-/

namespace Tinkerfin.Run

/-! ## Keys -/

/-- A namespace with the thread of a run, or with the key that was resolved for it. -/
structure RunKey where
  «namespace» : String
  key : String
  deriving DecidableEq, Repr

def blankKey : String :=
  "key_resolver must return a non-blank string without surrounding whitespace"

/-- The text that one key is coordinated under. -/
def coordinationKey (identity : RunKey) : Except String String :=
  if identity.key = "" ∨ identity.key ≠ Bytes.strip identity.key then .error blankKey
  else .ok (Json.dumps (.array [.string identity.namespace, .string identity.key]))

/-! ## State -/

abbrev ScopeId := Nat

abbrev EntryId := Nat

/-- One lock entry with its current users. -/
structure LockEntry where
  lock : AsyncLock ScopeId
  users : Int

/-- A task that takes the registry: a scope that enters, or the settlement of one. -/
inductive Party
  | entering (scope : ScopeId)
  | settling (scope : ScopeId)
  deriving DecidableEq, Repr

/-- How far a scope has come. -/
inductive Phase
  /-- It waits for the registry. -/
  | registering
  /-- It is registered and waits for the lock of its entry. -/
  | waiting (entry : EntryId)
  /-- Its body runs. -/
  | running (entry : EntryId)
  /-- It left the lock, and its settlement has not started. -/
  | released (entry : EntryId)
  /-- Its settlement waits for the registry. -/
  | settling (entry : EntryId)
  | settled
  /-- It ended without a settlement. -/
  | failed
  deriving DecidableEq, Repr

/-- The entry that a scope is registered with. -/
def Phase.entry? : Phase → Option EntryId
  | .waiting entry | .running entry | .released entry | .settling entry => some entry
  | .registering | .settled | .failed => none

structure Scope where
  identity : RunKey
  key : String
  phase : Phase
  deriving DecidableEq, Repr

/-- The coordinator with the scopes of its event loop.  An entry keeps its identity after it was
dropped, for the scopes that still refer to it. -/
structure InMemoryRunCoordinator where
  entriesLock : AsyncLock Party
  entries : Dict String EntryId
  heap : List LockEntry
  scopes : Dict ScopeId Scope

def InMemoryRunCoordinator.initial : InMemoryRunCoordinator := ⟨.free, .empty, [], .empty⟩

/-! ## Actions -/

namespace InMemoryRunCoordinator

/-- The entry of a key, created if there is none. -/
def getOrCreate (state : InMemoryRunCoordinator) (key : String) :
    InMemoryRunCoordinator × EntryId :=
  match state.entries.get? key with
  | some entry => (state, entry)
  | none =>
    ({ state with
        entries := state.entries.insert key state.heap.length
        heap := state.heap ++ [⟨.free, 0⟩] }, state.heap.length)

def setPhase (state : InMemoryRunCoordinator) (scope : ScopeId) (value : Scope) (phase : Phase) :
    InMemoryRunCoordinator :=
  { state with scopes := state.scopes.insert scope { value with phase := phase } }

/-- A scope that holds the registry becomes a user, gives the registry back, and asks for the
lock. -/
def register (state : InMemoryRunCoordinator) (scope : ScopeId) (value : Scope) :
    Option InMemoryRunCoordinator := do
  let (state, entry) := state.getOrCreate value.key
  let stored ← state.heap[entry]?
  let entriesLock ← state.entriesLock.release
  let (lock, acquired) := stored.lock.acquire scope
  some ({ state with
    entriesLock := entriesLock
    heap := state.heap.set entry ⟨lock, stored.users + 1⟩ }.setPhase scope value
      (if acquired then .running entry else .waiting entry))

/-- A settlement that holds the registry takes the user off and drops an entry without users. -/
def settleEntry (state : InMemoryRunCoordinator) (scope : ScopeId) (value : Scope)
    (entry : EntryId) : Option InMemoryRunCoordinator := do
  let stored ← state.heap[entry]?
  let entriesLock ← state.entriesLock.release
  some ({ state with
    entriesLock := entriesLock
    heap := state.heap.set entry { stored with users := stored.users - 1 }
    entries :=
      if stored.users - 1 = 0 ∧ state.entries.get? value.key = some entry then
        state.entries.erase value.key
      else state.entries }.setPhase scope value .settled)

end InMemoryRunCoordinator

/-- One stretch of a task, or a cancellation request. -/
inductive Action
  /-- A scope is entered. -/
  | enter (scope : ScopeId) (identity : RunKey)
  /-- A scope or its settlement runs again after it waited for a lock. -/
  | resume (scope : ScopeId)
  /-- The task of a scope is cancelled. -/
  | cancel (scope : ScopeId)
  /-- The body of a scope returns, fails or gives in to a cancellation. -/
  | leave (scope : ScopeId)
  /-- The settlement of a scope starts. -/
  | settle (scope : ScopeId)
  deriving DecidableEq, Repr

namespace InMemoryRunCoordinator

def enter (state : InMemoryRunCoordinator) (scope : ScopeId) (identity : RunKey) :
    Option InMemoryRunCoordinator :=
  if state.scopes.contains scope then none
  else
    match coordinationKey identity with
    | .error _ => some (state.setPhase scope ⟨identity, "", .failed⟩ .failed)
    | .ok key =>
      let (entriesLock, acquired) := state.entriesLock.acquire (.entering scope)
      if acquired then
        register { state with entriesLock := entriesLock } scope ⟨identity, key, .registering⟩
      else
        some ({ state with entriesLock := entriesLock }.setPhase scope
          ⟨identity, key, .registering⟩ .registering)

def resume (state : InMemoryRunCoordinator) (scope : ScopeId) :
    Option InMemoryRunCoordinator := do
  let value ← state.scopes.get? scope
  match value.phase with
  | .registering =>
    let (entriesLock, acquired) ← state.entriesLock.resume (.entering scope)
    if acquired then
      register { state with entriesLock := entriesLock } scope value
    else
      some ({ state with entriesLock := entriesLock }.setPhase scope value .failed)
  | .waiting entry =>
    let stored ← state.heap[entry]?
    let (lock, acquired) ← stored.lock.resume scope
    some ({ state with heap := state.heap.set entry { stored with lock := lock } }.setPhase scope
      value (if acquired then .running entry else .released entry))
  | .settling entry =>
    let (entriesLock, acquired) ← state.entriesLock.resume (.settling scope)
    if acquired then
      settleEntry { state with entriesLock := entriesLock } scope value entry
    else
      some ({ state with entriesLock := entriesLock }.setPhase scope value .failed)
  | _ => none

/-- A cancellation ends a wait for a lock; a body sees it itself, and a settlement is joined all the
same. -/
def cancel (state : InMemoryRunCoordinator) (scope : ScopeId) :
    Option InMemoryRunCoordinator := do
  let value ← state.scopes.get? scope
  match value.phase with
  | .registering =>
    some { state with entriesLock := state.entriesLock.cancel (.entering scope) }
  | .waiting entry =>
    let stored ← state.heap[entry]?
    some { state with
      heap := state.heap.set entry { stored with lock := stored.lock.cancel scope } }
  | _ => some state

def leave (state : InMemoryRunCoordinator) (scope : ScopeId) :
    Option InMemoryRunCoordinator := do
  let value ← state.scopes.get? scope
  match value.phase with
  | .running entry =>
    let stored ← state.heap[entry]?
    match stored.lock.release with
    | none => some (state.setPhase scope value .failed)
    | some lock =>
      some ({ state with heap := state.heap.set entry { stored with lock := lock } }.setPhase
        scope value (.released entry))
  | _ => none

def settle (state : InMemoryRunCoordinator) (scope : ScopeId) :
    Option InMemoryRunCoordinator := do
  let value ← state.scopes.get? scope
  match value.phase with
  | .released entry =>
    let (entriesLock, acquired) := state.entriesLock.acquire (.settling scope)
    if acquired then
      settleEntry { state with entriesLock := entriesLock } scope value entry
    else
      some ({ state with entriesLock := entriesLock }.setPhase scope value (.settling entry))
  | _ => none

/-- Perform an action that is possible. -/
def step (state : InMemoryRunCoordinator) : Action → Option InMemoryRunCoordinator
  | .enter scope identity => state.enter scope identity
  | .resume scope => state.resume scope
  | .cancel scope => state.cancel scope
  | .leave scope => state.leave scope
  | .settle scope => state.settle scope

/-- Reached from a state by possible actions. -/
inductive Reaches (state : InMemoryRunCoordinator) : InMemoryRunCoordinator → Prop
  | refl : Reaches state state
  | step {middle next : InMemoryRunCoordinator} (action : Action) (before : Reaches state middle)
      (taken : middle.step action = some next) : Reaches state next

end InMemoryRunCoordinator

/-! ## What holds between actions -/

/-- How far a scope has come. -/
def phase? (scopes : Dict ScopeId Scope) (scope : ScopeId) : Option Phase :=
  (scopes.get? scope).map Scope.phase

/-- Whether a scope is registered with an entry and has not settled. -/
def uses (entry : EntryId) (value : Scope) : Int :=
  if value.phase.entry? = some entry then 1 else 0

/-- Registered scopes of an entry that have not settled. -/
def userCount (scopes : Dict ScopeId Scope) (entry : EntryId) : Int :=
  scopes.weight fun _ value => uses entry value

/-- A lock entry fits the scopes: its users are counted, those in line wait, and its lock is taken
by the one scope whose body runs. -/
structure EntrySound (scopes : Dict ScopeId Scope) (entry : EntryId) (stored : LockEntry) :
    Prop where
  users : stored.users = userCount scopes entry
  lock : stored.lock.Sound
  waiters : ∀ scope, scope ∈ stored.lock.waiters.keys ↔ phase? scopes scope = some (.waiting entry)
  locked : stored.lock.locked = true ↔ ∃ scope, phase? scopes scope = some (.running entry)
  single : ∀ left right, phase? scopes left = some (.running entry) →
    phase? scopes right = some (.running entry) → left = right

/-- The registry is free, every registered scope refers to the entry that is filed under its key,
and every filed entry has users and fits the scopes. -/
structure Coordinated (state : InMemoryRunCoordinator) : Prop where
  registry : state.entriesLock = .free
  phases : ∀ scope value, state.scopes.get? scope = some value →
    value.phase ≠ .registering ∧ ∀ entry, value.phase ≠ .settling entry
  keys : ∀ scope value entry, state.scopes.get? scope = some value →
    value.phase.entry? = some entry →
      coordinationKey value.identity = .ok value.key ∧ state.entries.get? value.key = some entry
  distinct : ∀ left right entry, state.entries.get? left = some entry →
    state.entries.get? right = some entry → left = right
  entries : ∀ key entry, state.entries.get? key = some entry → ∃ stored,
    state.heap[entry]? = some stored ∧ 0 < stored.users ∧ EntrySound state.scopes entry stored

section Frames

variable {scopes : Dict ScopeId Scope} {scope other : ScopeId} {value before : Scope}
  {entry : EntryId} {stored : LockEntry}

theorem phase?_insert : phase? (scopes.insert scope value) other =
    if other = scope then some value.phase else phase? scopes other := by
  rw [phase?, Dict.get?_insert]
  split <;> rfl

theorem userCount_insert : userCount (scopes.insert scope value) entry =
    userCount scopes entry - scopes.weightAt (fun _ value => uses entry value) scope +
      uses entry value :=
  Dict.weight_insert _ _ _ _

theorem uses_eq_one (refers : value.phase.entry? = some entry) : uses entry value = 1 :=
  if_pos refers

theorem uses_eq_zero (refers : value.phase.entry? ≠ some entry) : uses entry value = 0 :=
  if_neg refers

/-- A scope that has nothing to do with an entry does not touch it. -/
theorem EntrySound.frame (sound : EntrySound scopes entry stored)
    (was : ∀ before, scopes.get? scope = some before → before.phase.entry? ≠ some entry)
    (now : value.phase.entry? ≠ some entry) :
    EntrySound (scopes.insert scope value) entry stored := by
  have old (phase : Phase) (inside : phase.entry? = some entry) :
      phase? scopes scope ≠ some phase := by
    intro found
    obtain ⟨before, stored, rfl⟩ := Option.map_eq_some_iff.mp found
    exact was before stored inside
  have same (phase : Phase) (inside : phase.entry? = some entry) (other : ScopeId) :
      phase? (scopes.insert scope value) other = some phase ↔ phase? scopes other = some phase := by
    rw [phase?_insert]
    split
    · next equal =>
        subst equal
        refine ⟨fun found => absurd ?_ now, fun found => absurd found (old phase inside)⟩
        rw [Option.some.inj found, inside]
    · rfl
  refine ⟨?_, sound.lock, fun other => ?_, ?_, fun left right => ?_⟩
  · rw [userCount_insert, sound.users]
    have none : scopes.weightAt (fun _ value => uses entry value) scope = 0 := by
      cases found : scopes.get? scope with
      | none => exact Dict.weightAt_of_absent found
      | some before => rw [Dict.weightAt_of_get? found, uses_eq_zero (was before found)]
    rw [none, uses_eq_zero now]
    omega
  · rw [sound.waiters, same _ rfl]
  · simp only [sound.locked, same (.running entry) rfl]
  · simp only [same (.running entry) rfl]
    exact sound.single left right

/-- What one scope does to its entry. -/
theorem EntrySound.update (sound : EntrySound scopes entry stored) {next : LockEntry}
    (users : next.users = stored.users -
      scopes.weightAt (fun _ value => uses entry value) scope + uses entry value)
    (lock : next.lock.Sound)
    (waiters : ∀ other, other ∈ next.lock.waiters.keys ↔
      if other = scope then value.phase = .waiting entry else other ∈ stored.lock.waiters.keys)
    (taken : value.phase = .running entry → next.lock.locked = true ∧
      ∀ other ≠ scope, phase? scopes other ≠ some (.running entry))
    (kept : value.phase ≠ .running entry → (next.lock.locked = true ↔
      ∃ other ≠ scope, phase? scopes other = some (.running entry))) :
    EntrySound (scopes.insert scope value) entry next := by
  refine ⟨by rw [userCount_insert, users, sound.users], lock, fun other => ?_, ?_, ?_⟩
  · rw [waiters, phase?_insert]
    split
    · simp
    · exact sound.waiters other
  · by_cases runs : value.phase = .running entry
    · refine ⟨fun _ => ⟨scope, ?_⟩, fun _ => (taken runs).1⟩
      rw [phase?_insert, if_pos rfl, runs]
    · rw [kept runs]
      constructor
      · rintro ⟨other, different, running⟩
        exact ⟨other, by rwa [phase?_insert, if_neg different]⟩
      · rintro ⟨other, running⟩
        rw [phase?_insert] at running
        split at running
        · exact absurd (Option.some.inj running) runs
        · next different => exact ⟨other, different, running⟩
  · intro left right first second
    rw [phase?_insert] at first second
    split at first <;> split at second
    · next one two => exact one.trans two.symm
    · next one two => exact absurd second ((taken (Option.some.inj first)).2 right two)
    · next one two => exact absurd first ((taken (Option.some.inj second)).2 left one)
    · exact sound.single left right first second

/-- Another scope asks for the lock of an entry. -/
theorem EntrySound.acquire (sound : EntrySound scopes entry stored)
    (fresh : scopes.get? scope = none) (identity : RunKey) (key : String) :
    EntrySound (scopes.insert scope ⟨identity, key,
      if (stored.lock.acquire scope).2 then .running entry else .waiting entry⟩) entry
        ⟨(stored.lock.acquire scope).1, stored.users + 1⟩ := by
  have unknown : phase? scopes scope = none := by rw [phase?, fresh]; rfl
  have absent : scope ∉ stored.lock.waiters.keys := by
    rw [sound.waiters, unknown]
    exact fun equal => by cases equal
  have none : scopes.weightAt (fun _ value => uses entry value) scope = 0 :=
    Dict.weightAt_of_absent fresh
  have others (other : ScopeId) (running : phase? scopes other = some (.running entry)) :
      other ≠ scope := by
    rintro rfl
    cases unknown.symm.trans running
  obtain ⟨unlocked, given⟩ | ⟨-, given⟩ := AsyncLock.acquire_cases stored.lock scope
  · rw [given]
    refine sound.update ?_ ?_ (fun other => ?_) (fun _ => ⟨rfl, fun other _ running => ?_⟩) ?_
    · rw [none, uses_eq_one rfl]
      simp
    · have next := AsyncLock.acquire_sound sound.lock absent
      rwa [given] at next
    · split
      · next same => simp [same, absent]
      · rfl
    · have locked := sound.locked.mpr ⟨other, running⟩
      cases unlocked.symm.trans locked
    · exact fun waits => absurd rfl waits
  · rw [given]
    refine sound.update ?_ ?_ (fun other => ?_) ?_ (fun _ => ?_)
    · rw [none, uses_eq_one rfl]
      simp
    · have next := AsyncLock.acquire_sound sound.lock absent
      rwa [given] at next
    · rw [Dict.mem_keys_insert]
      split
      · next same => simp [same]
      · next different => simp [different]
    · exact fun runs => by cases runs
    · rw [sound.locked]
      exact ⟨fun ⟨other, running⟩ => ⟨other, others other running, running⟩,
        fun ⟨other, _, running⟩ => ⟨other, running⟩⟩

/-- A scope in line runs again. -/
theorem EntrySound.resume (sound : EntrySound scopes entry stored)
    (known : scopes.get? scope = some value) (waits : value.phase = .waiting entry)
    {lock : AsyncLock ScopeId} {acquired : Bool}
    (resumed : stored.lock.resume scope = some (lock, acquired)) :
    EntrySound (scopes.insert scope { value with
      phase := if acquired then .running entry else .released entry }) entry
        { stored with lock := lock } := by
  have one : scopes.weightAt (fun _ value => uses entry value) scope = 1 := by
    rw [Dict.weightAt_of_get? known, uses_eq_one (by rw [waits]; rfl)]
  have others (other : ScopeId) (running : phase? scopes other = some (.running entry)) :
      other ≠ scope := by
    rintro rfl
    rw [phase?, known, Option.map_some, waits] at running
    cases running
  have next := AsyncLock.resume_sound sound.lock resumed
  have keys (other : ScopeId) : other ∈ (stored.lock.waiters.erase scope).keys ↔
      if other = scope then False else other ∈ stored.lock.waiters.keys := by
    rw [Dict.mem_keys_iff, Dict.mem_keys_iff, Dict.get?_erase]
    split <;> simp
  obtain ⟨rfl, woken, rfl⟩ | ⟨rfl, -, ⟨locked, rfl⟩ | ⟨unlocked, rfl⟩⟩ :=
    AsyncLock.resume_cases resumed
  · refine sound.update ?_ next (fun other => ?_) (fun _ => ⟨rfl, fun other _ running => ?_⟩) ?_
    · rw [one, uses_eq_one rfl]
      simp
    · rw [keys]
      simp
    · have unlocked := (sound.lock.woken scope .woken woken rfl).1
      cases unlocked.symm.trans (sound.locked.mpr ⟨other, running⟩)
    · exact fun waits => absurd rfl waits
  · refine sound.update ?_ next (fun other => ?_) ?_ (fun _ => ⟨fun _ => ?_, fun _ => rfl⟩)
    · rw [one, uses_eq_one rfl]
      simp
    · rw [keys]
      simp
    · exact fun runs => by cases runs
    · obtain ⟨other, running⟩ := sound.locked.mp locked
      exact ⟨other, others other running, running⟩
  · refine sound.update ?_ next (fun other => ?_) ?_ (fun _ => ?_)
    · rw [one, uses_eq_one rfl]
      simp
    · rw [AsyncLock.mem_keys_wakeUpFirst, keys]
      simp
    · exact fun runs => by cases runs
    · rw [AsyncLock.wakeUpFirst_locked]
      refine ⟨(fun taken => by cases taken), ?_⟩
      rintro ⟨other, _, running⟩
      cases unlocked.symm.trans (sound.locked.mpr ⟨other, running⟩)

theorem EntrySound.cancel (sound : EntrySound scopes entry stored) (scope : ScopeId) :
    EntrySound scopes entry { stored with lock := stored.lock.cancel scope } where
  users := sound.users
  lock := AsyncLock.cancel_sound sound.lock
  waiters := fun other => AsyncLock.mem_keys_cancel.trans (sound.waiters other)
  locked := by
    rw [← sound.locked, AsyncLock.cancel_locked]
  single := sound.single

/-- A body ends. -/
theorem EntrySound.leave (sound : EntrySound scopes entry stored)
    (known : scopes.get? scope = some value) (runs : value.phase = .running entry) :
    ∃ lock, stored.lock.release = some lock ∧
      EntrySound (scopes.insert scope { value with phase := .released entry }) entry
        { stored with lock := lock } := by
  have running : phase? scopes scope = some (.running entry) := by
    rw [phase?, known, Option.map_some, runs]
  have locked := sound.locked.mpr ⟨scope, running⟩
  have released := AsyncLock.release_of_locked locked
  refine ⟨_, released, sound.update ?_ (AsyncLock.release_sound sound.lock released)
    (fun other => ?_) ?_ (fun _ => ?_)⟩
  · rw [Dict.weightAt_of_get? known, uses_eq_one (by rw [runs]; rfl), uses_eq_one rfl]
    simp
  · rw [AsyncLock.mem_keys_wakeUpFirst]
    split
    · next same =>
        rw [sound.waiters, same, running]
        simp
    · rfl
  · exact fun runs => by cases runs
  · rw [AsyncLock.wakeUpFirst_locked]
    refine ⟨(fun taken => by cases taken), fun ⟨other, different, also⟩ => ?_⟩
    exact absurd (sound.single other scope also running) different

/-- A scope settles. -/
theorem EntrySound.settle (sound : EntrySound scopes entry stored)
    (known : scopes.get? scope = some value) (ended : value.phase = .released entry) :
    EntrySound (scopes.insert scope { value with phase := .settled }) entry
      { stored with users := stored.users - 1 } := by
  have phase : phase? scopes scope = some (.released entry) := by
    rw [phase?, known, Option.map_some, ended]
  refine sound.update ?_ sound.lock (fun other => ?_) ?_ (fun _ => ?_)
  · rw [Dict.weightAt_of_get? known, uses_eq_one (by rw [ended]; rfl),
      uses_eq_zero (by rintro ⟨⟩)]
    simp
  · split
    · next same =>
        rw [sound.waiters, same, phase]
        simp
    · rfl
  · exact fun runs => by cases runs
  · rw [sound.locked]
    refine ⟨fun ⟨other, running⟩ => ⟨other, ?_, running⟩, fun ⟨other, _, running⟩ =>
      ⟨other, running⟩⟩
    rintro rfl
    cases phase.symm.trans running

end Frames

section Updates

variable {state : InMemoryRunCoordinator} {scope : ScopeId} {value : Scope} {entry : EntryId}
  {stored next : LockEntry}

theorem Coordinated.entryOf (sound : Coordinated state)
    (known : state.scopes.get? scope = some value)
    (refers : value.phase.entry? = some entry) : ∃ stored, state.heap[entry]? = some stored ∧
      0 < stored.users ∧ EntrySound state.scopes entry stored :=
  sound.entries _ _ (sound.keys scope value entry known refers).2

/-- What one scope does to its entry concerns nobody else. -/
theorem Coordinated.update (sound : Coordinated state)
    (filed : coordinationKey value.identity = .ok value.key ∧
      state.entries.get? value.key = some entry)
    (was : ∀ before, state.scopes.get? scope = some before → ∀ other,
      before.phase.entry? = some other → other = entry)
    (now : value.phase.entry? = some entry) (ready : ∀ other, value.phase ≠ .settling other)
    (found : state.heap[entry]? = some stored) (users : 0 < next.users)
    (fits : EntrySound (state.scopes.insert scope value) entry next) :
    Coordinated { state with
      heap := state.heap.set entry next
      scopes := state.scopes.insert scope value } where
  registry := sound.registry
  phases := by
    intro other known stored
    rw [Dict.get?_insert] at stored
    split at stored
    · obtain rfl := Option.some.inj stored
      refine ⟨fun registering => ?_, ready⟩
      rw [registering] at now
      cases now
    · exact sound.phases other known stored
  keys := by
    intro other known target stored refers
    rw [Dict.get?_insert] at stored
    split at stored
    · obtain rfl := Option.some.inj stored
      obtain rfl := Option.some.inj (now.symm.trans refers)
      exact filed
    · exact sound.keys other known target stored refers
  distinct := sound.distinct
  entries := by
    intro key target listed
    by_cases same : target = entry
    · subst same
      have bound := (List.getElem?_eq_some_iff.mp found).1
      exact ⟨next, by simp [bound], users, fits⟩
    · obtain ⟨around, inside, positive, fitting⟩ := sound.entries key target listed
      refine ⟨around, ?_, positive, fitting.frame (fun before known refers => ?_) fun refers => ?_⟩
      · rw [List.getElem?_set_ne (Ne.symm same)]
        exact inside
      · exact same (was before known target refers)
      · exact same (Option.some.inj (refers.symm.trans now))

/-- A scope that was refused concerns no entry. -/
theorem Coordinated.fail (sound : Coordinated state) (fresh : state.scopes.get? scope = none)
    (failed : value.phase = .failed) :
    Coordinated { state with scopes := state.scopes.insert scope value } where
  registry := sound.registry
  phases := by
    intro other known stored
    rw [Dict.get?_insert] at stored
    split at stored
    · obtain rfl := Option.some.inj stored
      simp [failed]
    · exact sound.phases other known stored
  keys := by
    intro other known target stored refers
    rw [Dict.get?_insert] at stored
    split at stored
    · obtain rfl := Option.some.inj stored
      rw [failed] at refers
      cases refers
    · exact sound.keys other known target stored refers
  distinct := sound.distinct
  entries := by
    intro key target listed
    obtain ⟨around, inside, positive, fitting⟩ := sound.entries key target listed
    refine ⟨around, inside, positive, fitting.frame (fun before known => ?_) fun refers => ?_⟩
    · cases fresh.symm.trans known
    · rw [failed] at refers
      cases refers

/-- The first scope of a key files a new entry and takes its lock. -/
theorem Coordinated.file (sound : Coordinated state) (fresh : state.scopes.get? scope = none)
    {key : String} {identity : RunKey} (resolved : coordinationKey identity = .ok key)
    (absent : state.entries.get? key = none) :
    Coordinated { state with
      entries := state.entries.insert key state.heap.length
      heap := state.heap ++ [⟨⟨true, .empty⟩, 1⟩]
      scopes := state.scopes.insert scope ⟨identity, key, .running state.heap.length⟩ } := by
  have filed (other : String) (target : EntryId) (listed : state.entries.get? other = some target) :
      target < state.heap.length := by
    obtain ⟨around, inside, -, -⟩ := sound.entries other target listed
    exact (List.getElem?_eq_some_iff.mp inside).1
  have unused (other : ScopeId) (known : Scope) (stored : state.scopes.get? other = some known) :
      known.phase.entry? ≠ some state.heap.length := by
    intro refers
    exact absurd (filed _ _ (sound.keys other known _ stored refers).2) (lt_irrefl _)
  have idle (phase : Phase) (refers : phase.entry? = some state.heap.length) (other : ScopeId) :
      phase? state.scopes other ≠ some phase := by
    intro found
    obtain ⟨known, stored, rfl⟩ := Option.map_eq_some_iff.mp found
    exact unused other known stored refers
  have nobody : userCount state.scopes state.heap.length = 0 := by
    have zero : state.scopes.weight (fun _ value => uses state.heap.length value) =
        state.scopes.weight fun _ _ => 0 := Dict.weight_congr state.scopes fun other known member =>
      uses_eq_zero (unused other known (Dict.get?_eq_some_iff.mpr member))
    rw [userCount, zero]
    simp [Dict.weight]
  have empty : EntrySound state.scopes state.heap.length ⟨.free, 0⟩ := by
    refine ⟨nobody.symm, AsyncLock.free_sound, fun other => ⟨fun waits => ?_, fun waits => ?_⟩, ?_,
      fun left _ running => absurd running (idle (.running _) rfl left)⟩
    · cases waits
    · exact absurd waits (idle (.waiting _) rfl other)
    · exact ⟨(fun locked => by cases locked),
        fun some => absurd some.choose_spec (idle (.running _) rfl _)⟩
  have first := empty.acquire fresh identity key
  simp only [AsyncLock.acquire_free, if_true, zero_add] at first
  refine ⟨sound.registry, ?_, ?_, ?_, ?_⟩
  · intro other known stored
    rw [Dict.get?_insert] at stored
    split at stored
    · obtain rfl := Option.some.inj stored
      simp
    · exact sound.phases other known stored
  · intro other known target stored refers
    rw [Dict.get?_insert] at stored
    split at stored
    · obtain rfl := Option.some.inj stored
      obtain rfl := Option.some.inj refers
      exact ⟨resolved, Dict.get?_insert_self _ _ _⟩
    · obtain ⟨same, listed⟩ := sound.keys other known target stored refers
      refine ⟨same, ?_⟩
      rw [Dict.get?_insert, if_neg]
      · exact listed
      · intro equal
        cases (equal ▸ absent).symm.trans listed
  · intro left right target first second
    rw [Dict.get?_insert] at first second
    split at first <;> split at second
    · next one two => exact one.trans two.symm
    · obtain rfl := Option.some.inj first
      exact absurd (filed _ _ second) (lt_irrefl _)
    · obtain rfl := Option.some.inj second
      exact absurd (filed _ _ first) (lt_irrefl _)
    · exact sound.distinct left right target first second
  · intro other target listed
    rw [Dict.get?_insert] at listed
    split at listed
    · obtain rfl := Option.some.inj listed
      exact ⟨_, by simp, by simp, first⟩
    · have bound := filed other target listed
      obtain ⟨around, inside, positive, fitting⟩ := sound.entries other target listed
      refine ⟨around, ?_, positive, fitting.frame (fun before known => ?_) fun refers => ?_⟩
      · rw [List.getElem?_append_left bound]
        exact inside
      · cases fresh.symm.trans known
      · exact absurd bound ((Option.some.inj refers) ▸ lt_irrefl _)

/-- A settled scope was the last user of its entry, or the others keep the entry. -/
theorem Coordinated.settle (sound : Coordinated state)
    (known : state.scopes.get? scope = some value)
    (ended : value.phase = .released entry) (found : state.heap[entry]? = some stored) :
    Coordinated { state with
      entries := if stored.users = 1 then state.entries.erase value.key else state.entries
      heap := state.heap.set entry { stored with users := stored.users - 1 }
      scopes := state.scopes.insert scope { value with phase := .settled } } := by
  have refers : value.phase.entry? = some entry := by rw [ended]; rfl
  obtain ⟨resolved, filed⟩ := sound.keys scope value entry known refers
  obtain ⟨around, inside, positive, fits⟩ := sound.entryOf known refers
  obtain rfl := Option.some.inj (inside.symm.trans found)
  have settled := fits.settle known ended
  have bound := (List.getElem?_eq_some_iff.mp found).1
  have kept {key : String} {target : EntryId} (listed :
      (if around.users = 1 then state.entries.erase value.key else state.entries).get? key =
        some target) : state.entries.get? key = some target ∧
        (around.users = 1 → key ≠ value.key) := by
    split at listed
    · rw [Dict.get?_erase] at listed
      split at listed
      · cases listed
      · next different => exact ⟨listed, fun _ => different⟩
    · next more => exact ⟨listed, fun last => absurd last more⟩
  refine ⟨sound.registry, ?_, ?_, ?_, ?_⟩
  · intro other now stored
    rw [Dict.get?_insert] at stored
    split at stored
    · obtain rfl := Option.some.inj stored
      simp
    · exact sound.phases other now stored
  · intro other now target stored registered
    have listed := stored
    rw [Dict.get?_insert] at stored
    split at stored
    · obtain rfl := Option.some.inj stored
      cases registered
    · obtain ⟨same, remains⟩ := sound.keys other now target stored registered
      refine ⟨same, ?_⟩
      split
      · next last =>
          rw [Dict.get?_erase, if_neg]
          · exact remains
          · intro equal
            -- The last user is the scope itself, so nobody else uses the entry.
            obtain rfl := Option.some.inj ((equal ▸ remains).symm.trans filed)
            have one := Dict.weight_le_of_get? (fun _ value => uses target value) _ listed
              fun _ value => by unfold uses; split <;> omega
            change uses target now ≤ userCount (state.scopes.insert scope _) target at one
            rw [← settled.users, uses_eq_one registered] at one
            simp only [last] at one
            omega
      · exact remains
  · intro left right target first second
    exact sound.distinct left right target (kept first).1 (kept second).1
  · intro key target listed
    obtain ⟨was, others⟩ := kept listed
    by_cases same : target = entry
    · subst same
      obtain rfl := sound.distinct key value.key target was filed
      have more : around.users ≠ 1 := fun last => others last rfl
      exact ⟨_, by simp [bound], by simp only; omega, settled⟩
    · obtain ⟨other, inside, positive, fitting⟩ := sound.entries key target was
      refine ⟨other, ?_, positive, fitting.frame (fun before stored uses => ?_) (by rintro ⟨⟩)⟩
      · rw [List.getElem?_set_ne (Ne.symm same)]
        exact inside
      · obtain rfl := Option.some.inj (known.symm.trans stored)
        exact same (Option.some.inj (uses.symm.trans refers))

end Updates

/-! ## What one action does -/

section Actions

variable {state next : InMemoryRunCoordinator} {scope : ScopeId} {value : Scope} {entry : EntryId}
  {identity : RunKey}

/-- A scope is refused because of its key, or becomes a user of the entry of its key or of a new
one. -/
theorem enter_cases (sound : Coordinated state) (taken : state.enter scope identity = some next) :
    state.scopes.get? scope = none ∧
    ((∃ message, coordinationKey identity = .error message ∧
        next = { state with scopes := state.scopes.insert scope ⟨identity, "", .failed⟩ }) ∨
      (∃ key entry stored, coordinationKey identity = .ok key ∧
        state.entries.get? key = some entry ∧ state.heap[entry]? = some stored ∧
        next = { state with
          heap := state.heap.set entry ⟨(stored.lock.acquire scope).1, stored.users + 1⟩
          scopes := state.scopes.insert scope ⟨identity, key,
            if (stored.lock.acquire scope).2 then .running entry else .waiting entry⟩ }) ∨
      ∃ key, coordinationKey identity = .ok key ∧ state.entries.get? key = none ∧
        next = { state with
          entries := state.entries.insert key state.heap.length
          heap := state.heap ++ [⟨⟨true, .empty⟩, 1⟩]
          scopes := state.scopes.insert scope ⟨identity, key, .running state.heap.length⟩ }) := by
  obtain ⟨registry, -, -, -, filed⟩ := sound
  obtain ⟨entriesLock, entries, heap, scopes⟩ := state
  obtain rfl : entriesLock = .free := registry
  unfold InMemoryRunCoordinator.enter at taken
  split at taken
  · cases taken
  · next unknown =>
      have fresh : scopes.get? scope = none := by simpa [Dict.contains] using unknown
      refine ⟨fresh, ?_⟩
      split at taken
      · next message refused => exact .inl ⟨message, refused, (Option.some.inj taken).symm⟩
      · next key resolved =>
          rw [AsyncLock.acquire_free] at taken
          cases present : entries.get? key with
          | some entry =>
            obtain ⟨stored, found, -, -⟩ := filed key entry present
            refine .inr (.inl ⟨key, entry, stored, resolved, present, found, ?_⟩)
            simpa [InMemoryRunCoordinator.register, InMemoryRunCoordinator.getOrCreate, present,
              show heap[entry]? = some stored from found,
              InMemoryRunCoordinator.setPhase] using taken.symm
          | none =>
            refine .inr (.inr ⟨key, resolved, present, ?_⟩)
            simpa [InMemoryRunCoordinator.register, InMemoryRunCoordinator.getOrCreate, present,
              InMemoryRunCoordinator.setPhase] using taken.symm

/-- Only a scope in line for its entry runs again after a wait. -/
theorem resume_cases (sound : Coordinated state) (taken : state.resume scope = some next) :
    ∃ value entry stored lock acquired, state.scopes.get? scope = some value ∧
      value.phase = .waiting entry ∧ state.heap[entry]? = some stored ∧
      stored.lock.resume scope = some (lock, acquired) ∧
      next = { state with
        heap := state.heap.set entry { stored with lock := lock }
        scopes := state.scopes.insert scope { value with
          phase := if acquired then .running entry else .released entry } } := by
  unfold InMemoryRunCoordinator.resume at taken
  obtain ⟨value, known, taken⟩ := Option.bind_eq_some_iff.mp taken
  have ready := sound.phases scope value known
  split at taken
  · next registering => exact absurd registering ready.1
  · next entry waits =>
      obtain ⟨stored, found, taken⟩ := Option.bind_eq_some_iff.mp taken
      obtain ⟨⟨lock, acquired⟩, resumed, taken⟩ := Option.bind_eq_some_iff.mp taken
      exact ⟨value, entry, stored, lock, acquired, known, waits, found, resumed,
        (Option.some.inj taken).symm⟩
  · next entry settling => exact absurd settling (ready.2 entry)
  · cases taken

/-- A cancellation reaches the wait of a scope, or nothing that is coordinated. -/
theorem cancel_cases (sound : Coordinated state) (taken : state.cancel scope = some next) :
    (∃ value entry stored, state.scopes.get? scope = some value ∧ value.phase = .waiting entry ∧
      state.heap[entry]? = some stored ∧
      next = { state with
        heap := state.heap.set entry { stored with lock := stored.lock.cancel scope } }) ∨
    (∀ entry, phase? state.scopes scope ≠ some (.waiting entry)) ∧ next = state := by
  unfold InMemoryRunCoordinator.cancel at taken
  obtain ⟨value, known, taken⟩ := Option.bind_eq_some_iff.mp taken
  have ready := sound.phases scope value known
  split at taken
  · next registering => exact absurd registering ready.1
  · next entry waits =>
      obtain ⟨stored, found, taken⟩ := Option.bind_eq_some_iff.mp taken
      exact .inl ⟨value, entry, stored, known, waits, found, (Option.some.inj taken).symm⟩
  · next others =>
      refine .inr ⟨fun entry waits => others entry ?_, (Option.some.inj taken).symm⟩
      rw [phase?, known] at waits
      exact Option.some.inj waits

/-- A body gives the lock of its entry back. -/
theorem leave_cases (sound : Coordinated state) (taken : state.leave scope = some next) :
    ∃ value entry stored lock, state.scopes.get? scope = some value ∧
      value.phase = .running entry ∧ state.heap[entry]? = some stored ∧
      stored.lock.release = some lock ∧
      next = { state with
        heap := state.heap.set entry { stored with lock := lock }
        scopes := state.scopes.insert scope { value with phase := .released entry } } := by
  unfold InMemoryRunCoordinator.leave at taken
  obtain ⟨value, known, taken⟩ := Option.bind_eq_some_iff.mp taken
  split at taken
  · next entry runs =>
      obtain ⟨stored, found, taken⟩ := Option.bind_eq_some_iff.mp taken
      obtain ⟨around, inside, -, fits⟩ := sound.entryOf known (by rw [runs]; rfl)
      obtain rfl := Option.some.inj (inside.symm.trans found)
      obtain ⟨lock, released, -⟩ := fits.leave known runs
      rw [released] at taken
      exact ⟨value, entry, around, lock, known, runs, found, released,
        (Option.some.inj taken).symm⟩
  · cases taken

/-- A settlement takes one user off an entry, and drops the entry with its last user. -/
theorem settle_cases (sound : Coordinated state) (taken : state.settle scope = some next) :
    ∃ value entry stored, state.scopes.get? scope = some value ∧
      value.phase = .released entry ∧ state.heap[entry]? = some stored ∧
      next = { state with
        entries := if stored.users = 1 then state.entries.erase value.key else state.entries
        heap := state.heap.set entry { stored with users := stored.users - 1 }
        scopes := state.scopes.insert scope { value with phase := .settled } } := by
  unfold InMemoryRunCoordinator.settle at taken
  obtain ⟨value, known, taken⟩ := Option.bind_eq_some_iff.mp taken
  split at taken
  · next entry ended =>
      rw [sound.registry, AsyncLock.acquire_free] at taken
      obtain ⟨stored, found, -, -⟩ := sound.entryOf known (by rw [ended]; rfl)
      have filed := (sound.keys scope value entry known (by rw [ended]; rfl)).2
      refine ⟨value, entry, stored, known, ended, found, ?_⟩
      have last : stored.users - 1 = 0 ↔ stored.users = 1 := by omega
      simpa [InMemoryRunCoordinator.settleEntry, InMemoryRunCoordinator.setPhase, found, filed,
        last, sound.registry] using taken.symm
  · cases taken

/-- Every action keeps what holds between actions. -/
theorem Coordinated.step (sound : Coordinated state) {action : Action}
    (taken : state.step action = some next) : Coordinated next := by
  cases action with
  | enter scope identity =>
    obtain ⟨fresh, ⟨message, -, rfl⟩ | ⟨key, entry, stored, resolved, filed, found, rfl⟩ |
      ⟨key, resolved, absent, rfl⟩⟩ := enter_cases sound taken
    · exact sound.fail fresh rfl
    · obtain ⟨around, inside, positive, fits⟩ := sound.entries key entry filed
      obtain rfl := Option.some.inj (inside.symm.trans found)
      refine sound.update ⟨resolved, filed⟩ (fun before known => ?_) ?_ (fun other => ?_) found ?_
        (fits.acquire fresh identity key)
      · cases fresh.symm.trans known
      · dsimp only
        split <;> rfl
      · dsimp only
        split <;> simp
      · simp only
        omega
    · exact sound.file fresh resolved absent
  | resume scope =>
    obtain ⟨value, entry, stored, lock, acquired, known, waits, found, resumed, rfl⟩ :=
      resume_cases sound taken
    have refers : value.phase.entry? = some entry := by rw [waits]; rfl
    obtain ⟨around, inside, positive, fits⟩ := sound.entryOf known refers
    obtain rfl := Option.some.inj (inside.symm.trans found)
    refine sound.update (sound.keys scope value entry known refers) (fun before was other => ?_)
      ?_ (fun other => ?_) found positive (fits.resume known waits resumed)
    · obtain rfl := Option.some.inj (known.symm.trans was)
      exact fun also => Option.some.inj (also.symm.trans refers)
    · cases acquired <;> rfl
    · cases acquired <;> simp
  | cancel scope =>
    obtain ⟨value, entry, stored, known, waits, found, rfl⟩ | ⟨-, rfl⟩ := cancel_cases sound taken
    · have refers : value.phase.entry? = some entry := by rw [waits]; rfl
      obtain ⟨around, inside, positive, fits⟩ := sound.entryOf known refers
      obtain rfl := Option.some.inj (inside.symm.trans found)
      have cancelled := fits.cancel scope
      rw [← Dict.insert_of_get? known] at cancelled
      have kept := sound.update (sound.keys scope value entry known refers)
        (fun before was other => ?_) refers (sound.phases scope value known).2 found
        (show (0 : Int) < LockEntry.users ⟨around.lock.cancel scope, around.users⟩ from positive)
        cancelled
      · rwa [Dict.insert_of_get? known] at kept
      · obtain rfl := Option.some.inj (known.symm.trans was)
        exact fun also => Option.some.inj (also.symm.trans refers)
    · exact sound
  | leave scope =>
    obtain ⟨value, entry, stored, lock, known, runs, found, released, rfl⟩ :=
      leave_cases sound taken
    have refers : value.phase.entry? = some entry := by rw [runs]; rfl
    obtain ⟨around, inside, positive, fits⟩ := sound.entryOf known refers
    obtain rfl := Option.some.inj (inside.symm.trans found)
    obtain ⟨given, again, left⟩ := fits.leave known runs
    obtain rfl := Option.some.inj (again.symm.trans released)
    refine sound.update (sound.keys scope value entry known refers) (fun before was other => ?_)
      rfl (fun other => by simp) found positive left
    obtain rfl := Option.some.inj (known.symm.trans was)
    exact fun also => Option.some.inj (also.symm.trans refers)
  | settle scope =>
    obtain ⟨value, entry, stored, known, ended, found, rfl⟩ := settle_cases sound taken
    exact sound.settle known ended found

theorem initial_coordinated : Coordinated .initial where
  registry := rfl
  phases := by
    rintro scope value ⟨⟩
  keys := by
    rintro scope value entry ⟨⟩
  distinct := by
    rintro left right entry ⟨⟩
  entries := by
    rintro key entry ⟨⟩

theorem Coordinated.reaches (sound : Coordinated state) (reached : state.Reaches next) :
    Coordinated next := by
  induction reached with
  | refl => exact sound
  | step action _ taken ih => exact ih.step taken

end Actions

end Tinkerfin.Run
