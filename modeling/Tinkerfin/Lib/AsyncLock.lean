import Tinkerfin.Lib.Dict

/-!
# Locks of an event loop

Tasks of one event loop take turns; a task that asks for a taken lock waits in line, and releasing
the lock wakes the first task in line.  A woken task gets the lock when it runs again, unless it was
cancelled in between, and then it wakes the next one.  A task that is cancelled in line runs again
to leave it.
-/

namespace Dict

variable {κ α : Type*} [DecidableEq κ] {dict : Dict κ α} {key first : κ} {value stored : α}

theorem first?_insert_of_mem (present : key ∈ dict.keys) :
    (dict.insert key value).first? =
      dict.first?.map fun entry => if entry.1 = key then (key, value) else entry := by
  rw [first?, entries_insert_of_mem value present, replaceEntries, List.head?_map]
  rfl

theorem first?_insert_of_not_mem (absent : key ∉ dict.keys)
    (head : dict.first? = some (first, stored)) :
    (dict.insert key value).first? = some (first, stored) := by
  rw [first?, entries_insert_of_not_mem value absent, List.head?_append, ← first?, head]
  rfl

theorem first?_erase_of_ne (different : first ≠ key) (head : dict.first? = some (first, stored)) :
    (dict.erase key).first? = some (first, stored) := by
  obtain ⟨entries, nodup⟩ := dict
  cases entries with
  | nil => cases head
  | cons entry entries =>
    obtain rfl : entry = (first, stored) := Option.some.inj head
    simp [first?, erase, different]

end Dict

/-- How a task waits: it is still asleep, was woken, was cancelled in its sleep, or was woken and
then cancelled. -/
inductive Waiter
  | pending | woken | cancelled | interrupted
  deriving DecidableEq, Repr

namespace Waiter

/-- Whether the lock was offered to the task. -/
def isWoken : Waiter → Bool
  | .woken | .interrupted => true
  | .pending | .cancelled => false

/-- Whether the task runs again without the lock. -/
def isDoomed : Waiter → Bool
  | .cancelled | .interrupted => true
  | .pending | .woken => false

def cancel : Waiter → Waiter
  | .pending => .cancelled
  | .woken => .interrupted
  | waiter => waiter

@[simp] theorem isWoken_cancel (waiter : Waiter) : waiter.cancel.isWoken = waiter.isWoken := by
  cases waiter <;> rfl

@[simp] theorem isDoomed_cancel (waiter : Waiter) : waiter.cancel.isDoomed = true := by
  cases waiter <;> rfl

theorem cancel_ne_pending (waiter : Waiter) : waiter.cancel ≠ .pending := by
  cases waiter <;> decide

end Waiter

/-- A lock with the tasks in line, the first one in front. -/
structure AsyncLock (τ : Type*) where
  locked : Bool
  waiters : Dict τ Waiter

namespace AsyncLock

variable {τ : Type*}

def free : AsyncLock τ := ⟨false, .empty⟩

variable [DecidableEq τ]

/-- Ask for the lock: it is given at once if it is free and every task in line was cancelled. -/
def acquire (lock : AsyncLock τ) (task : τ) : AsyncLock τ × Bool :=
  if lock.locked = false ∧ ∀ entry ∈ lock.waiters.entries, entry.2 = .cancelled then
    ({ lock with locked := true }, true)
  else
    ({ lock with waiters := lock.waiters.insert task .pending }, false)

/-- Wake the first task in line, if it is asleep. -/
def wakeUpFirst (lock : AsyncLock τ) : AsyncLock τ :=
  match lock.waiters.first? with
  | some (task, .pending) => { lock with waiters := lock.waiters.insert task .woken }
  | _ => lock

/-- Give the lock back; only a taken lock can be. -/
def release (lock : AsyncLock τ) : Option (AsyncLock τ) :=
  if lock.locked then some { lock with locked := false }.wakeUpFirst else none

/-- Cancel a task in line. -/
def cancel (lock : AsyncLock τ) (task : τ) : AsyncLock τ :=
  match lock.waiters.get? task with
  | none => lock
  | some waiter => { lock with waiters := lock.waiters.insert task waiter.cancel }

/-- Run a task in line whose sleep is over, and say whether it got the lock. -/
def resume (lock : AsyncLock τ) (task : τ) : Option (AsyncLock τ × Bool) :=
  match lock.waiters.get? task with
  | none | some .pending => none
  | some .woken => some (⟨true, lock.waiters.erase task⟩, true)
  | some .cancelled | some .interrupted =>
    let left : AsyncLock τ := { lock with waiters := lock.waiters.erase task }
    some (if lock.locked then left else left.wakeUpFirst, false)

/-- The lock was offered to the first task in line at most, and only while it is free; and the first
task in line of a free lock is not asleep. -/
structure Sound (lock : AsyncLock τ) : Prop where
  woken : ∀ task waiter, lock.waiters.get? task = some waiter → waiter.isWoken = true →
    lock.locked = false ∧ lock.waiters.first? = some (task, waiter)
  awake : lock.locked = false → ∀ task, lock.waiters.first? ≠ some (task, .pending)

section Specs

variable {lock taken : AsyncLock τ} {task other : τ} {waiter : Waiter} {acquired : Bool}

theorem acquire_cases (lock : AsyncLock τ) (task : τ) :
    (lock.locked = false ∧ lock.acquire task = ({ lock with locked := true }, true)) ∨
    ((lock.locked = true ∨ ∃ other waiter, lock.waiters.get? other = some waiter ∧
        waiter ≠ .cancelled) ∧
      lock.acquire task = ({ lock with waiters := lock.waiters.insert task .pending }, false)) := by
  unfold acquire
  split
  · next given => exact .inl ⟨given.1, rfl⟩
  · next refused =>
      refine .inr ⟨?_, rfl⟩
      by_contra neither
      push Not at neither
      refine refused ⟨by simpa using neither.1, fun entry member => ?_⟩
      exact neither.2 entry.1 entry.2 (Dict.get?_eq_some_iff.mpr member)

@[simp] theorem acquire_free (task : τ) :
    (free : AsyncLock τ).acquire task = (⟨true, .empty⟩, true) := by
  simp [acquire, free]

@[simp] theorem release_held : (⟨true, .empty⟩ : AsyncLock τ).release = some free := rfl

@[simp] theorem wakeUpFirst_locked (lock : AsyncLock τ) :
    lock.wakeUpFirst.locked = lock.locked := by
  unfold wakeUpFirst
  split <;> rfl

@[simp] theorem mem_keys_wakeUpFirst :
    other ∈ lock.wakeUpFirst.waiters.keys ↔ other ∈ lock.waiters.keys := by
  unfold wakeUpFirst
  split
  · next task head =>
      have present := Dict.mem_keys_of_get? (Dict.get?_first head)
      exact iff_of_eq (congrArg (other ∈ ·) (Dict.keys_insert_of_mem _ present))
  · rfl

theorem wakeUpFirst_doomed (stored : lock.waiters.get? other = some waiter)
    (doomed : waiter.isDoomed = true) : lock.wakeUpFirst.waiters.get? other = some waiter := by
  unfold wakeUpFirst
  split
  · next task head =>
      rw [Dict.get?_insert, if_neg]
      · exact stored
      · rintro rfl
        obtain rfl := Option.some.inj (stored.symm.trans (Dict.get?_first head))
        cases doomed
  · exact stored

theorem release_eq_some (released : lock.release = some taken) :
    lock.locked = true ∧ taken = { lock with locked := false }.wakeUpFirst := by
  unfold release at released
  split at released
  · next locked => exact ⟨locked, (Option.some.inj released).symm⟩
  · cases released

theorem release_of_locked (locked : lock.locked = true) :
    lock.release = some { lock with locked := false }.wakeUpFirst := if_pos locked

@[simp] theorem cancel_locked (lock : AsyncLock τ) (task : τ) :
    (lock.cancel task).locked = lock.locked := by
  unfold cancel
  split <;> rfl

@[simp] theorem mem_keys_cancel :
    other ∈ (lock.cancel task).waiters.keys ↔ other ∈ lock.waiters.keys := by
  unfold cancel
  split
  · rfl
  · next waiter stored =>
      exact iff_of_eq
        (congrArg (other ∈ ·) (Dict.keys_insert_of_mem _ (Dict.mem_keys_of_get? stored)))

theorem get?_cancel_of_ne (different : other ≠ task) :
    (lock.cancel task).waiters.get? other = lock.waiters.get? other := by
  unfold cancel
  split
  · rfl
  · exact Dict.get?_insert_of_ne _ _ different

theorem get?_cancel_self (stored : lock.waiters.get? task = some waiter) :
    (lock.cancel task).waiters.get? task = some waiter.cancel := by
  simp [cancel, stored]

/-- A task in line runs again with the lock or without, and leaves the line. -/
theorem resume_cases (resumed : lock.resume task = some (taken, acquired)) :
    (acquired = true ∧ lock.waiters.get? task = some .woken ∧
      taken = ⟨true, lock.waiters.erase task⟩) ∨
    (acquired = false ∧ (∃ waiter, lock.waiters.get? task = some waiter ∧ waiter.isDoomed = true) ∧
      (lock.locked = true ∧ taken = ⟨true, lock.waiters.erase task⟩ ∨
        lock.locked = false ∧
          taken = (⟨false, lock.waiters.erase task⟩ : AsyncLock τ).wakeUpFirst)) := by
  obtain ⟨locked, waiters⟩ := lock
  unfold resume at resumed
  split at resumed
  · cases resumed
  · cases resumed
  · next stored =>
      cases resumed
      exact .inl ⟨rfl, stored, rfl⟩
  all_goals
    next stored =>
      cases resumed
      refine .inr ⟨rfl, ⟨_, stored, rfl⟩, ?_⟩
      cases locked
      · exact .inr ⟨rfl, rfl⟩
      · exact .inl ⟨rfl, rfl⟩

theorem resume_isSome (stored : lock.waiters.get? task = some waiter) (awake : waiter ≠ .pending) :
    (lock.resume task).isSome = true := by
  unfold resume
  cases waiter with
  | pending => exact absurd rfl awake
  | woken | cancelled | interrupted => simp [stored]

section Doomed

variable (stored : lock.waiters.get? other = some waiter) (doomed : waiter.isDoomed = true)

include stored in
theorem acquire_waiter (different : other ≠ task) :
    (lock.acquire task).1.waiters.get? other = some waiter := by
  obtain ⟨-, given⟩ | ⟨-, given⟩ := acquire_cases lock task
  · rw [given]
    exact stored
  · rw [given]
    exact (Dict.get?_insert_of_ne _ _ different).trans stored

include stored doomed in
theorem release_doomed (released : lock.release = some taken) :
    taken.waiters.get? other = some waiter := by
  obtain ⟨-, rfl⟩ := release_eq_some released
  exact wakeUpFirst_doomed stored doomed

include stored doomed in
theorem resume_doomed (resumed : lock.resume task = some (taken, acquired))
    (different : other ≠ task) : taken.waiters.get? other = some waiter := by
  have kept : (lock.waiters.erase task).get? other = some waiter :=
    (Dict.get?_erase_of_ne _ different).trans stored
  obtain ⟨-, -, rfl⟩ | ⟨-, -, ⟨-, rfl⟩ | ⟨-, rfl⟩⟩ := resume_cases resumed
  · exact kept
  · exact kept
  · exact wakeUpFirst_doomed kept doomed

include stored doomed in
theorem resume_refused (resumed : lock.resume other = some (taken, acquired)) :
    acquired = false := by
  obtain ⟨-, woken, -⟩ | ⟨refused, -⟩ := resume_cases resumed
  · obtain rfl := Option.some.inj (stored.symm.trans woken)
    cases doomed
  · exact refused

end Doomed

end Specs

section Sound

variable {lock taken : AsyncLock τ} {task other : τ} {waiter : Waiter} {acquired : Bool}

theorem free_sound : (free : AsyncLock τ).Sound where
  woken := by
    rintro task waiter stored -
    cases stored
  awake := by
    rintro - task head
    cases head

theorem Sound.asleep (sound : lock.Sound) (locked : lock.locked = true)
    (stored : lock.waiters.get? task = some waiter) : waiter.isWoken = false := by
  by_contra woken
  have unlocked := (sound.woken task waiter stored (by simpa using woken)).1
  rw [locked] at unlocked
  cases unlocked

/-- Waking the first task in line makes a free lock sound. -/
theorem wakeUpFirst_sound (unlocked : lock.locked = false)
    (first : ∀ task waiter, lock.waiters.get? task = some waiter → waiter.isWoken = true →
      lock.waiters.first? = some (task, waiter)) : lock.wakeUpFirst.Sound := by
  unfold wakeUpFirst
  split
  · next task head =>
      have present : task ∈ lock.waiters.keys := Dict.mem_keys_of_get? (Dict.get?_first head)
      have front : (lock.waiters.insert task .woken).first? = some (task, .woken) := by
        rw [Dict.first?_insert_of_mem present, head]
        simp
      refine ⟨fun other waiter stored woken => ⟨unlocked, ?_⟩, fun _ other again => ?_⟩
      · rw [Dict.get?_insert] at stored
        split at stored
        · next same =>
            subst same
            rw [← Option.some.inj stored]
            exact front
        · next different =>
            have before := (first other waiter stored woken).symm.trans head
            exact absurd (congrArg Prod.fst (Option.some.inj before)) different
      · cases front.symm.trans again
  · next awake =>
      exact ⟨fun task waiter stored woken => ⟨unlocked, first task waiter stored woken⟩,
        fun _ task head => awake task head⟩

theorem acquire_sound (sound : lock.Sound) (fresh : task ∉ lock.waiters.keys) :
    (lock.acquire task).1.Sound := by
  unfold acquire
  split
  · next given =>
      refine ⟨fun other waiter stored woken => ?_, fun unlocked => by cases unlocked⟩
      have cancelled := given.2 _ (Dict.get?_eq_some_iff.mp stored)
      rw [show waiter = .cancelled from cancelled] at woken
      cases woken
  · next refused =>
      refine ⟨fun other waiter stored woken => ?_, fun unlocked other head => ?_⟩
      · rw [Dict.get?_insert] at stored
        split at stored
        · rw [← Option.some.inj stored] at woken
          cases woken
        · obtain ⟨unlocked, head⟩ := sound.woken other waiter stored woken
          exact ⟨unlocked, Dict.first?_insert_of_not_mem fresh head⟩
      · cases front : lock.waiters.first? with
        | none =>
          refine refused ⟨unlocked, fun entry member => ?_⟩
          rw [Dict.first?_eq_none_iff.mp front] at member
          cases member
        | some entry =>
          rw [Dict.first?_insert_of_not_mem fresh front] at head
          exact sound.awake unlocked other (front.trans head)

theorem release_sound (sound : lock.Sound) (released : lock.release = some taken) :
    taken.Sound := by
  obtain ⟨locked, rfl⟩ := release_eq_some released
  refine wakeUpFirst_sound rfl fun task waiter stored woken => ?_
  cases (sound.asleep locked stored).symm.trans woken

theorem cancel_sound (sound : lock.Sound) : (lock.cancel task).Sound := by
  unfold cancel
  split
  · exact sound
  · next waiter stored =>
      have present : task ∈ lock.waiters.keys := Dict.mem_keys_of_get? stored
      refine ⟨fun other now found woken => ?_, fun unlocked other head => ?_⟩
      · rw [Dict.get?_insert] at found
        rw [Dict.first?_insert_of_mem present]
        split at found
        · next same =>
            subst same
            obtain rfl := Option.some.inj found
            rw [Waiter.isWoken_cancel] at woken
            obtain ⟨unlocked, head⟩ := sound.woken other waiter stored woken
            exact ⟨unlocked, by simp [head]⟩
        · next different =>
            obtain ⟨unlocked, head⟩ := sound.woken other now found woken
            exact ⟨unlocked, by simp [head, different]⟩
      · rw [Dict.first?_insert_of_mem present] at head
        obtain ⟨⟨front, now⟩, first, equal⟩ := Option.map_eq_some_iff.mp head
        split at equal
        · exact waiter.cancel_ne_pending (congrArg Prod.snd equal)
        · exact sound.awake unlocked other (equal ▸ first)

theorem resume_sound (sound : lock.Sound) (resumed : lock.resume task = some (taken, acquired)) :
    taken.Sound := by
  have others {other : τ} {waiter : Waiter}
      (stored : (lock.waiters.erase task).get? other = some waiter) :
      other ≠ task ∧ lock.waiters.get? other = some waiter := by
    rw [Dict.get?_erase] at stored
    split at stored
    · cases stored
    · next different => exact ⟨different, stored⟩
  obtain ⟨-, stored, rfl⟩ | ⟨-, -, ⟨locked, rfl⟩ | ⟨unlocked, rfl⟩⟩ := resume_cases resumed
  · refine ⟨fun other waiter found woken => ?_, fun unlocked => by cases unlocked⟩
    obtain ⟨different, found⟩ := others found
    have head := (sound.woken task .woken stored rfl).2
    have again := (sound.woken other waiter found woken).2
    exact absurd (congrArg Prod.fst (Option.some.inj (again.symm.trans head))) different
  · refine ⟨fun other waiter found woken => ?_, fun unlocked => by cases unlocked⟩
    cases (sound.asleep locked (others found).2).symm.trans woken
  · refine wakeUpFirst_sound rfl fun other waiter found woken => ?_
    obtain ⟨different, found⟩ := others found
    exact Dict.first?_erase_of_ne different (sound.woken other waiter found woken).2

end Sound

end AsyncLock
