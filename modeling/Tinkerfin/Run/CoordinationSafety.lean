import Tinkerfin.Run.Coordination

/-!
# Exclusive run scopes

What holds between actions of the coordinator gives its guarantees: one body and one entry for each
key, users that are counted, no entry without users, nobody kept out by another key, and no lock
for a scope that was cancelled in line.
-/

namespace Tinkerfin.Run

/-! ## Keys -/

/-- The coordinated text determines the namespace and the key. -/
theorem coordinationKey_inj {left right : RunKey} {text : String}
    (first : coordinationKey left = .ok text) (second : coordinationKey right = .ok text) :
    left = right := by
  unfold coordinationKey at first second
  split at first
  · cases first
  · split at second
    · cases second
    · have same := (Except.ok.inj first).trans (Except.ok.inj second).symm
      have plain (identity : RunKey) :
          Json.Plain (.array [.string identity.namespace, .string identity.key]) :=
        .array (by
          intro item member
          simp only [List.mem_cons, List.not_mem_nil, or_false] at member
          obtain rfl | rfl := member <;> exact .string _)
      have equal := (Json.dumps_append_inj (plain left) (plain right)
        (congrArg (String.toList · ++ []) same)).1
      simp only [Json.array.injEq, List.cons.injEq, Json.string.injEq, and_true] at equal
      obtain ⟨leftNamespace, leftKey⟩ := left
      obtain ⟨rfl, rfl⟩ := equal
      rfl

/-! ## Guarantees -/

section Guarantees

variable {state next : InMemoryRunCoordinator} {scope other : ScopeId} {value holder : Scope}
  {entry : EntryId}

theorem userCount_eq (scopes : Dict ScopeId Scope) (entry : EntryId) : userCount scopes entry =
    (scopes.entries.filter fun known => known.2.phase.entry? = some entry).length := by
  rw [userCount, Dict.weight]
  induction scopes.entries with
  | nil => rfl
  | cons known rest ih =>
    rw [List.map_cons, List.sum_cons, ih, List.filter_cons]
    by_cases refers : known.2.phase.entry? = some entry
    · rw [uses_eq_one refers]
      simp [refers]
      omega
    · rw [uses_eq_zero refers]
      simp [refers]

theorem exists_user {scopes : Dict ScopeId Scope} (users : 0 < userCount scopes entry) :
    ∃ scope value, scopes.get? scope = some value ∧ value.phase.entry? = some entry := by
  rw [userCount_eq] at users
  obtain ⟨known, member⟩ := List.exists_mem_of_length_pos (by exact_mod_cast users)
  obtain ⟨listed, refers⟩ := List.mem_filter.mp member
  exact ⟨known.1, known.2, Dict.get?_eq_some_iff.mpr listed, of_decide_eq_true refers⟩

theorem Coordinated.entry_iff (sound : Coordinated state) {first second : EntryId}
    (known : state.scopes.get? scope = some value) (refers : value.phase.entry? = some first)
    (also : state.scopes.get? other = some holder) (uses : holder.phase.entry? = some second) :
    first = second ↔ value.identity = holder.identity := by
  obtain ⟨resolved, filed⟩ := sound.keys scope value first known refers
  obtain ⟨named, listed⟩ := sound.keys other holder second also uses
  constructor
  · rintro rfl
    have same := sound.distinct _ _ first filed listed
    exact coordinationKey_inj resolved (same ▸ named)
  · intro same
    rw [same, named] at resolved
    rw [← Except.ok.inj resolved, listed] at filed
    exact (Option.some.inj filed).symm

/-- A scope that cannot go on is kept in line by a scope of the same key that can. -/
theorem Coordinated.blocked (sound : Coordinated state)
    (known : state.scopes.get? scope = some value) (waits : value.phase = .waiting entry)
    (stuck : state.resume scope = none) :
    ∃ other holder, other ≠ scope ∧ state.scopes.get? other = some holder ∧
      holder.identity = value.identity ∧
      (holder.phase = .running entry ∨
        holder.phase = .waiting entry ∧ (state.resume other).isSome = true) := by
  have refers : value.phase.entry? = some entry := by rw [waits]; rfl
  obtain ⟨stored, found, -, fits⟩ := sound.entryOf known refers
  have resumable {other : ScopeId} {holder : Scope} {waiter : Waiter}
      (also : state.scopes.get? other = some holder) (queued : holder.phase = .waiting entry)
      (inLine : stored.lock.waiters.get? other = some waiter) (awake : waiter ≠ .pending) :
      (state.resume other).isSome = true := by
    obtain ⟨⟨lock, acquired⟩, resumed⟩ :=
      Option.isSome_iff_exists.mp (AsyncLock.resume_isSome inLine awake)
    simp [InMemoryRunCoordinator.resume, also, queued, found, resumed]
  by_cases locked : stored.lock.locked = true
  · obtain ⟨other, running⟩ := fits.locked.mp locked
    obtain ⟨holder, also, runs⟩ := Option.map_eq_some_iff.mp running
    refine ⟨other, holder, ?_, also, ?_, .inl runs⟩
    · rintro rfl
      obtain rfl := Option.some.inj (known.symm.trans also)
      cases waits.symm.trans runs
    · exact (sound.entry_iff also (by rw [runs]; rfl) known refers).mp rfl
  · have inLine : scope ∈ stored.lock.waiters.keys := by
      rw [fits.waiters, phase?, known, Option.map_some, waits]
    cases front : stored.lock.waiters.first? with
    | none =>
      rw [Dict.keys, Dict.first?_eq_none_iff.mp front] at inLine
      cases inLine
    | some ahead =>
      obtain ⟨other, waiter⟩ := ahead
      have ahead := Dict.get?_first front
      have awake : waiter ≠ .pending := by
        rintro rfl
        exact fits.lock.awake (by simpa using locked) other front
      have queued := (fits.waiters other).mp (Dict.mem_keys_of_get? ahead)
      obtain ⟨holder, also, queued⟩ := Option.map_eq_some_iff.mp queued
      have possible := resumable also queued ahead awake
      refine ⟨other, holder, ?_, also, ?_, .inr ⟨queued, possible⟩⟩
      · rintro rfl
        rw [stuck] at possible
        cases possible
      · exact (sound.entry_iff also (by rw [queued]; rfl) known refers).mp rfl

/-- A scope whose key nobody uses runs as soon as it is entered. -/
theorem Coordinated.enter_runs (sound : Coordinated state) {identity : RunKey} {key : String}
    (taken : state.enter scope identity = some next) (resolved : coordinationKey identity = .ok key)
    (alone : ∀ other holder, state.scopes.get? other = some holder →
      holder.identity = identity → holder.phase.entry? = none) :
    ∃ entry, next.scopes.get? scope = some ⟨identity, key, .running entry⟩ := by
  obtain ⟨-, ⟨message, refused, -⟩ | ⟨text, entry, stored, named, filed, -, -⟩ |
    ⟨text, named, -, rfl⟩⟩ := enter_cases sound taken
  · cases refused.symm.trans resolved
  · obtain ⟨around, -, positive, fits⟩ := sound.entries text entry filed
    rw [fits.users] at positive
    obtain ⟨other, holder, known, refers⟩ := exists_user positive
    obtain ⟨also, listed⟩ := sound.keys other holder entry known refers
    have same := sound.distinct _ _ entry listed filed
    cases (alone other holder known (coordinationKey_inj also (same ▸ named))).symm.trans refers
  · rw [named] at resolved
    obtain rfl := Except.ok.inj resolved
    exact ⟨_, Dict.get?_insert_self _ _ _⟩

end Guarantees

/-! ## Other keys -/

/-- The scope that an action is about. -/
def Action.scope : Action → ScopeId
  | .enter scope _ | .resume scope | .cancel scope | .leave scope | .settle scope => scope

section Others

variable {state next : InMemoryRunCoordinator} {scope : ScopeId} {value actor : Scope}
  {entry : EntryId} {action : Action}

/-- An action for one key leaves the scopes and the lock entries of other keys alone. -/
theorem Coordinated.frame (sound : Coordinated state) (taken : state.step action = some next)
    (known : state.scopes.get? scope = some value) (refers : value.phase.entry? = some entry)
    (acts : next.scopes.get? action.scope = some actor)
    (different : actor.identity ≠ value.identity) :
    next.scopes.get? scope = some value ∧ next.heap[entry]? = state.heap[entry]? := by
  -- A registered scope of another key has another entry.
  have apart {other : ScopeId} {before : Scope} {target : EntryId}
      (was : state.scopes.get? other = some before) (uses : before.phase.entry? = some target)
      (identity : before.identity = actor.identity) : scope ≠ other ∧ target ≠ entry := by
    refine ⟨?_, fun same => different ?_⟩
    · rintro rfl
      obtain rfl := Option.some.inj (known.symm.trans was)
      exact different identity.symm
    · exact identity.symm.trans ((sound.entry_iff was uses known refers).mp same)
  have fresh {other : ScopeId} (unknown : state.scopes.get? other = none) : scope ≠ other := by
    rintro rfl
    cases unknown.symm.trans known
  cases action with
  | enter other identity =>
    obtain ⟨unknown, ⟨message, -, rfl⟩ | ⟨key, target, stored, resolved, filed, found, rfl⟩ |
      ⟨key, resolved, absent, rfl⟩⟩ := enter_cases sound taken
    · exact ⟨(Dict.get?_insert_of_ne _ _ (fresh unknown)).trans known, rfl⟩
    · obtain rfl := Option.some.inj ((Dict.get?_insert_self _ _ _).symm.trans acts)
      refine ⟨(Dict.get?_insert_of_ne _ _ (fresh unknown)).trans known, ?_⟩
      refine List.getElem?_set_ne fun same => different ?_
      subst same
      obtain ⟨named, listed⟩ := sound.keys scope value target known refers
      have keys := sound.distinct _ _ target filed listed
      exact coordinationKey_inj resolved (keys ▸ named)
    · refine ⟨(Dict.get?_insert_of_ne _ _ (fresh unknown)).trans known, ?_⟩
      obtain ⟨around, inside, -, -⟩ := sound.entryOf known refers
      exact List.getElem?_append_left (List.getElem?_eq_some_iff.mp inside).1
  | resume other =>
    obtain ⟨before, target, stored, lock, acquired, was, waits, found, resumed, rfl⟩ :=
      resume_cases sound taken
    obtain rfl := Option.some.inj ((Dict.get?_insert_self _ _ _).symm.trans acts)
    obtain ⟨off, elsewhere⟩ := apart was (by rw [waits]; rfl) rfl
    exact ⟨(Dict.get?_insert_of_ne _ _ off).trans known, List.getElem?_set_ne elsewhere⟩
  | cancel other =>
    obtain ⟨before, target, stored, was, waits, found, rfl⟩ | ⟨-, rfl⟩ :=
      cancel_cases sound taken
    · obtain rfl := Option.some.inj (was.symm.trans acts)
      exact ⟨known, List.getElem?_set_ne (apart was (by rw [waits]; rfl) rfl).2⟩
    · exact ⟨known, rfl⟩
  | leave other =>
    obtain ⟨before, target, stored, lock, was, runs, found, released, rfl⟩ :=
      leave_cases sound taken
    obtain rfl := Option.some.inj ((Dict.get?_insert_self _ _ _).symm.trans acts)
    obtain ⟨off, elsewhere⟩ := apart was (by rw [runs]; rfl) rfl
    exact ⟨(Dict.get?_insert_of_ne _ _ off).trans known, List.getElem?_set_ne elsewhere⟩
  | settle other =>
    obtain ⟨before, target, stored, was, ended, found, rfl⟩ := settle_cases sound taken
    obtain rfl := Option.some.inj ((Dict.get?_insert_self _ _ _).symm.trans acts)
    obtain ⟨off, elsewhere⟩ := apart was (by rw [ended]; rfl) rfl
    exact ⟨(Dict.get?_insert_of_ne _ _ off).trans known, List.getElem?_set_ne elsewhere⟩

end Others

/-! ## Cancelled scopes -/

/-- A scope that was cancelled in line: it waits to run again without the lock, or has left. -/
def Doomed (state : InMemoryRunCoordinator) (scope : ScopeId) : Prop :=
  ∃ value, state.scopes.get? scope = some value ∧
    ((∃ entry stored waiter, value.phase = .waiting entry ∧ state.heap[entry]? = some stored ∧
        stored.lock.waiters.get? scope = some waiter ∧ waiter.isDoomed = true) ∨
      (∃ entry, value.phase = .released entry) ∨ value.phase = .settled)

section Doom

variable {state next : InMemoryRunCoordinator} {scope : ScopeId}

theorem Doomed.not_running (doomed : Doomed state scope) (entry : EntryId) :
    phase? state.scopes scope ≠ some (.running entry) := by
  obtain ⟨value, known, ⟨_, _, _, phase, -⟩ | ⟨_, phase⟩ | phase⟩ := doomed <;>
    simp [phase?, known, phase]

theorem Coordinated.cancel_doomed (sound : Coordinated state) {entry : EntryId}
    (waits : phase? state.scopes scope = some (.waiting entry))
    (taken : state.cancel scope = some next) : Doomed next scope := by
  obtain ⟨value, target, stored, known, queued, found, rfl⟩ | ⟨idle, -⟩ := cancel_cases sound taken
  · obtain ⟨around, inside, -, fits⟩ := sound.entryOf known (by rw [queued]; rfl)
    obtain rfl := Option.some.inj (inside.symm.trans found)
    have inLine : scope ∈ around.lock.waiters.keys := by
      rw [fits.waiters, phase?, known, Option.map_some, queued]
    obtain ⟨waiter, listed⟩ := Option.isSome_iff_exists.mp (Dict.mem_keys_iff.mp inLine)
    have bound := (List.getElem?_eq_some_iff.mp found).1
    exact ⟨value, known, .inl ⟨target, { around with lock := around.lock.cancel scope },
      waiter.cancel, queued, by simp [bound], AsyncLock.get?_cancel_self listed,
      waiter.isDoomed_cancel⟩⟩
  · exact absurd waits (idle entry)

theorem doomed_of_set (replaced : LockEntry) {heap : List LockEntry} {entry target : EntryId}
    {stored around : LockEntry} {waiter : Waiter} (found : heap[entry]? = some stored)
    (inside : heap[target]? = some around) (listed : stored.lock.waiters.get? scope = some waiter)
    (kept : around.lock.waiters.get? scope = some waiter →
      replaced.lock.waiters.get? scope = some waiter) :
    ∃ now, (heap.set target replaced)[entry]? = some now ∧
      now.lock.waiters.get? scope = some waiter := by
  by_cases same : target = entry
  · subst same
    obtain rfl := Option.some.inj (found.symm.trans inside)
    have bound := (List.getElem?_eq_some_iff.mp found).1
    exact ⟨replaced, by simp [bound], kept listed⟩
  · exact ⟨stored, by rw [List.getElem?_set_ne same]; exact found, listed⟩

/-- A doomed scope stays doomed. -/
theorem Doomed.step (doomed : Doomed state scope) (sound : Coordinated state) {action : Action}
    (taken : state.step action = some next) : Doomed next scope := by
  obtain ⟨value, known, status⟩ := doomed
  have fresh {other : ScopeId} (unknown : state.scopes.get? other = none) : scope ≠ other := by
    rintro rfl
    cases unknown.symm.trans known
  cases action with
  | enter other identity =>
    obtain ⟨unknown, ⟨message, -, rfl⟩ | ⟨key, target, stored, -, -, inside, rfl⟩ |
      ⟨key, -, -, rfl⟩⟩ := enter_cases sound taken
    · exact ⟨value, (Dict.get?_insert_of_ne _ _ (fresh unknown)).trans known, status⟩
    · refine ⟨value, (Dict.get?_insert_of_ne _ _ (fresh unknown)).trans known,
        status.imp_left ?_⟩
      rintro ⟨entry, around, waiter, phase, found, listed, ends⟩
      obtain ⟨now, placed, again⟩ := doomed_of_set
        ⟨(stored.lock.acquire other).1, stored.users + 1⟩ found inside listed fun inLine =>
          AsyncLock.acquire_waiter inLine (fresh unknown)
      exact ⟨entry, now, waiter, phase, placed, again, ends⟩
    · refine ⟨value, (Dict.get?_insert_of_ne _ _ (fresh unknown)).trans known,
        status.imp_left ?_⟩
      rintro ⟨entry, around, waiter, phase, found, listed, ends⟩
      refine ⟨entry, around, waiter, phase, ?_, listed, ends⟩
      exact (List.getElem?_append_left (List.getElem?_eq_some_iff.mp found).1).trans found
  | resume other =>
    obtain ⟨before, target, stored, lock, acquired, was, waits, inside, resumed, rfl⟩ :=
      resume_cases sound taken
    by_cases same : scope = other
    · subst same
      obtain rfl := Option.some.inj (known.symm.trans was)
      obtain ⟨entry, around, waiter, phase, found, listed, ends⟩ | ⟨_, phase⟩ | phase := status
      · obtain rfl : entry = target := Phase.waiting.inj (phase.symm.trans waits)
        obtain rfl := Option.some.inj (found.symm.trans inside)
        obtain rfl := AsyncLock.resume_refused listed ends resumed
        exact ⟨_, Dict.get?_insert_self _ _ _, .inr (.inl ⟨entry, rfl⟩)⟩
      · cases phase.symm.trans waits
      · cases phase.symm.trans waits
    · refine ⟨value, (Dict.get?_insert_of_ne _ _ same).trans known, status.imp_left ?_⟩
      rintro ⟨entry, around, waiter, phase, found, listed, ends⟩
      obtain ⟨now, placed, again⟩ := doomed_of_set { stored with lock := lock } found inside
        listed fun inLine => AsyncLock.resume_doomed inLine ends resumed same
      exact ⟨entry, now, waiter, phase, placed, again, ends⟩
  | cancel other =>
    obtain ⟨before, target, stored, was, waits, inside, rfl⟩ | ⟨-, rfl⟩ :=
      cancel_cases sound taken
    · by_cases same : scope = other
      · subst same
        obtain rfl := Option.some.inj (known.symm.trans was)
        exact sound.cancel_doomed (by rw [phase?, known, Option.map_some, waits]) taken
      · refine ⟨value, known, status.imp_left ?_⟩
        rintro ⟨entry, around, waiter, phase, found, listed, ends⟩
        obtain ⟨now, placed, again⟩ := doomed_of_set
          { stored with lock := stored.lock.cancel other } found inside listed fun inLine =>
            (AsyncLock.get?_cancel_of_ne same).trans inLine
        exact ⟨entry, now, waiter, phase, placed, again, ends⟩
    · exact ⟨value, known, status⟩
  | leave other =>
    obtain ⟨before, target, stored, lock, was, runs, inside, released, rfl⟩ :=
      leave_cases sound taken
    have different : scope ≠ other := by
      rintro rfl
      obtain rfl := Option.some.inj (known.symm.trans was)
      obtain ⟨_, _, _, phase, -⟩ | ⟨_, phase⟩ | phase := status <;> cases phase.symm.trans runs
    refine ⟨value, (Dict.get?_insert_of_ne _ _ different).trans known, status.imp_left ?_⟩
    rintro ⟨entry, around, waiter, phase, found, listed, ends⟩
    obtain ⟨now, placed, again⟩ := doomed_of_set { stored with lock := lock } found inside
      listed fun inLine => AsyncLock.release_doomed inLine ends released
    exact ⟨entry, now, waiter, phase, placed, again, ends⟩
  | settle other =>
    obtain ⟨before, target, stored, was, ended, inside, rfl⟩ := settle_cases sound taken
    by_cases same : scope = other
    · subst same
      exact ⟨_, Dict.get?_insert_self _ _ _, .inr (.inr rfl)⟩
    · refine ⟨value, (Dict.get?_insert_of_ne _ _ same).trans known, status.imp_left ?_⟩
      rintro ⟨entry, around, waiter, phase, found, listed, ends⟩
      obtain ⟨now, placed, again⟩ := doomed_of_set { stored with users := stored.users - 1 }
        found inside listed fun inLine => inLine
      exact ⟨entry, now, waiter, phase, placed, again, ends⟩

theorem Doomed.reaches (doomed : Doomed state scope) (sound : Coordinated state)
    (reached : state.Reaches next) : Doomed next scope := by
  suffices both : Coordinated next ∧ Doomed next scope from both.2
  induction reached with
  | refl => exact ⟨sound, doomed⟩
  | step action _ taken ih => exact ⟨ih.1.step taken, ih.2.step ih.1 taken⟩

end Doom

/-! ## The coordinator -/

/-- What the coordinator guarantees of the scopes of its event loop. -/
structure Exclusive (state : InMemoryRunCoordinator) : Prop where
  /-- One body of a key runs. -/
  single : ∀ left right first second leftEntry rightEntry,
    state.scopes.get? left = some first → state.scopes.get? right = some second →
      first.phase = .running leftEntry → second.phase = .running rightEntry →
        first.identity = second.identity → left = right
  /-- Registered scopes of a key share the entry that is filed under it. -/
  shared : ∀ scope value entry, state.scopes.get? scope = some value →
    value.phase.entry? = some entry → state.entries.get? value.key = some entry ∧
      ∀ other holder target, state.scopes.get? other = some holder →
        holder.identity = value.identity → holder.phase.entry? = some target → target = entry
  users : ∀ key entry, state.entries.get? key = some entry → ∃ stored,
    state.heap[entry]? = some stored ∧ stored.users =
      (state.scopes.entries.filter fun known => known.2.phase.entry? = some entry).length
  /-- Nothing remains after all scopes. -/
  dropped : (∀ scope value, state.scopes.get? scope = some value → value.phase.entry? = none) →
    state.entries.entries = []
  /-- Nobody waits for the registry. -/
  registry : ∀ scope value, state.scopes.get? scope = some value →
    value.phase ≠ .registering ∧ ∀ entry, value.phase ≠ .settling entry
  /-- A lock is taken while a body runs, and only then. -/
  held : ∀ scope value entry, state.scopes.get? scope = some value →
    value.phase.entry? = some entry → ∃ stored, state.heap[entry]? = some stored ∧
      (stored.lock.locked = true ↔ ∃ other, phase? state.scopes other = some (.running entry))
  /-- Whoever cannot go on is kept in line by a scope of the same key that can. -/
  blocked : ∀ scope value entry, state.scopes.get? scope = some value →
    value.phase = .waiting entry → state.resume scope = none → ∃ other holder, other ≠ scope ∧
      state.scopes.get? other = some holder ∧ holder.identity = value.identity ∧
        (holder.phase = .running entry ∨
          holder.phase = .waiting entry ∧ (state.resume other).isSome = true)
  leaves : ∀ scope entry, phase? state.scopes scope = some (.running entry) →
    ∃ next, state.leave scope = some next ∧ phase? next.scopes scope = some (.released entry)
  settles : ∀ scope entry, phase? state.scopes scope = some (.released entry) →
    ∃ next, state.settle scope = some next ∧ phase? next.scopes scope = some .settled

section Coordinator

variable {state : InMemoryRunCoordinator}

theorem Coordinated.exclusive (sound : Coordinated state) : Exclusive state where
  single := by
    intro left right first second leftEntry rightEntry known also runs running same
    have firstRefers : first.phase.entry? = some leftEntry := by rw [runs]; rfl
    have secondRefers : second.phase.entry? = some rightEntry := by rw [running]; rfl
    obtain rfl := (sound.entry_iff known firstRefers also secondRefers).mpr same
    obtain ⟨stored, -, -, fits⟩ := sound.entryOf known firstRefers
    exact fits.single left right (by rw [phase?, known, Option.map_some, runs])
      (by rw [phase?, also, Option.map_some, running])
  shared := by
    intro scope value entry known refers
    refine ⟨(sound.keys scope value entry known refers).2, ?_⟩
    intro other holder target also same uses
    exact (sound.entry_iff also uses known refers).mpr same
  users := by
    intro key entry filed
    obtain ⟨stored, found, -, fits⟩ := sound.entries key entry filed
    exact ⟨stored, found, fits.users.trans (userCount_eq _ _)⟩
  dropped := by
    intro idle
    rw [List.eq_nil_iff_forall_not_mem]
    rintro ⟨key, entry⟩ member
    obtain ⟨stored, -, positive, fits⟩ :=
      sound.entries key entry (Dict.get?_eq_some_iff.mpr member)
    rw [fits.users] at positive
    obtain ⟨scope, value, known, refers⟩ := exists_user positive
    cases (idle scope value known).symm.trans refers
  registry := sound.phases
  held := by
    intro scope value entry known refers
    obtain ⟨stored, found, -, fits⟩ := sound.entryOf known refers
    exact ⟨stored, found, fits.locked⟩
  blocked := fun _ _ _ known waits stuck => sound.blocked known waits stuck
  leaves := by
    intro scope entry running
    obtain ⟨value, known, runs⟩ := Option.map_eq_some_iff.mp running
    obtain ⟨stored, found, -, fits⟩ := sound.entryOf known (by rw [runs]; rfl)
    obtain ⟨lock, released, -⟩ := fits.leave known runs
    have taken : state.leave scope = some ({ state with
        heap := state.heap.set entry { stored with lock := lock } }.setPhase scope value
          (.released entry)) := by
      simp [InMemoryRunCoordinator.leave, known, runs, found, released]
    refine ⟨_, taken, ?_⟩
    rw [InMemoryRunCoordinator.setPhase, phase?_insert, if_pos rfl]
  settles := by
    intro scope entry released
    obtain ⟨value, known, ended⟩ := Option.map_eq_some_iff.mp released
    obtain ⟨stored, found, -, -⟩ := sound.entryOf known (by rw [ended]; rfl)
    have taken : (state.settle scope).isSome = true := by
      simp [InMemoryRunCoordinator.settle, InMemoryRunCoordinator.settleEntry, known, ended, found,
        sound.registry]
    obtain ⟨next, taken⟩ := Option.isSome_iff_exists.mp taken
    obtain ⟨before, target, around, was, -, -, rfl⟩ := settle_cases sound taken
    exact ⟨_, taken, by rw [phase?_insert, if_pos rfl]⟩

/-- However scopes are entered, cancelled, left and settled, the coordinator stays exclusive, a
scope that was cancelled in line never runs, a scope whose key nobody uses runs at once, and an
action for one key leaves the others alone. -/
theorem coordination_exclusive (reached : InMemoryRunCoordinator.initial.Reaches state) :
    Exclusive state ∧
    (∀ scope entry next later, phase? state.scopes scope = some (.waiting entry) →
      state.cancel scope = some next → next.Reaches later →
        ∀ running, phase? later.scopes scope ≠ some (.running running)) ∧
    (∀ scope identity key next, state.enter scope identity = some next →
      coordinationKey identity = .ok key →
      (∀ other holder, state.scopes.get? other = some holder → holder.identity = identity →
        holder.phase.entry? = none) →
      ∃ entry, phase? next.scopes scope = some (.running entry)) ∧
    ∀ action next scope value entry actor, state.step action = some next →
      state.scopes.get? scope = some value → value.phase.entry? = some entry →
        next.scopes.get? action.scope = some actor → actor.identity ≠ value.identity →
          next.scopes.get? scope = some value ∧ next.heap[entry]? = state.heap[entry]? := by
  have sound := initial_coordinated.reaches reached
  refine ⟨sound.exclusive, ?_, ?_, ?_⟩
  · intro scope entry next later waits taken after running
    have kept : Coordinated next :=
      sound.step (show state.step (.cancel scope) = some next from taken)
    exact ((sound.cancel_doomed waits taken).reaches kept after).not_running running
  · intro scope identity key next taken resolved alone
    obtain ⟨entry, runs⟩ := sound.enter_runs taken resolved alone
    exact ⟨entry, by rw [phase?, runs, Option.map_some]⟩
  · exact fun action next scope value entry actor taken known refers acts different =>
      sound.frame taken known refers acts different

/-- Two scopes of one key: the body of the first runs, and the second waits. -/
def contended : InMemoryRunCoordinator where
  entriesLock := .free
  entries := ⟨[("[\"space\",\"thread\"]", 0)], by decide⟩
  heap := [⟨⟨true, ⟨[(1, .pending)], by decide⟩⟩, 2⟩]
  scopes := ⟨[(0, ⟨⟨"space", "thread"⟩, "[\"space\",\"thread\"]", .running 0⟩),
    (1, ⟨⟨"space", "thread"⟩, "[\"space\",\"thread\"]", .waiting 0⟩)], by decide⟩

theorem contended_reached : InMemoryRunCoordinator.initial.Reaches contended := by
  refine .step (.enter 1 ⟨"space", "thread"⟩) (.step (.enter 0 ⟨"space", "thread"⟩) .refl rfl) ?_
  rfl

theorem coordination_exclusive_contended :
    Exclusive contended ∧
    (∀ scope entry next later, phase? contended.scopes scope = some (.waiting entry) →
      contended.cancel scope = some next → next.Reaches later →
        ∀ running, phase? later.scopes scope ≠ some (.running running)) ∧
    (∀ scope identity key next, contended.enter scope identity = some next →
      coordinationKey identity = .ok key →
      (∀ other holder, contended.scopes.get? other = some holder → holder.identity = identity →
        holder.phase.entry? = none) →
      ∃ entry, phase? next.scopes scope = some (.running entry)) ∧
    ∀ action next scope value entry actor, contended.step action = some next →
      contended.scopes.get? scope = some value → value.phase.entry? = some entry →
        next.scopes.get? action.scope = some actor → actor.identity ≠ value.identity →
          next.scopes.get? scope = some value ∧ next.heap[entry]? = contended.heap[entry]? :=
  coordination_exclusive contended_reached

end Coordinator

end Tinkerfin.Run
