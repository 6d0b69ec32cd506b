import Tinkerfin.Sandbox.HandleCalls

/-!
# Idle waits of a Sandbox handle

A wait that is still pending stands in one of three places: with the connection while calls run on
it, in the hands of the call that finished last, or among the scheduled completions.  It leaves the
first only when the count of its connection is zero, so every wait that ends has seen that moment.
-/

namespace Tinkerfin.Sandbox

namespace OpenSandboxHandle

variable (handle : OpenSandboxHandle) {backend other : HandleBackend} {waiter queued : IdleWaiter}

/-- The waiters of a connection. -/
def waitersOf (backend : HandleBackend) : List IdleWaiter :=
  (handle.idleWaiters.get? backend).getD []

theorem mem_waitersOf_registerWaiter :
    queued ∈ (handle.registerWaiter backend waiter).waitersOf other ↔
      queued ∈ handle.waitersOf other ∨
        handle.leases backend ≠ 0 ∧ other = backend ∧ queued = waiter := by
  unfold registerWaiter
  split
  · next idle => simp [idle]
  · next busy =>
      simp only [waitersOf, Dict.get?_insert]
      split
      · next same => simp [same, busy]
      · next different => simp [different]

theorem mem_waitersOf_forgetWaiter
    (member : queued ∈ (handle.forgetWaiter backend waiter).waitersOf other) :
    queued ∈ handle.waitersOf other := by
  unfold forgetWaiter at member
  split at member
  · exact member
  · next waiters found =>
      split at member
      · exact member
      · simp only [waitersOf] at member ⊢
        split at member
        · rw [Dict.get?_erase] at member
          split at member
          · simp at member
          · exact member
        · rw [Dict.get?_insert] at member
          split at member
          · next same =>
              rw [same, found]
              exact List.mem_of_mem_erase member
          · exact member

/-- Only the waiter of the interrupted wait is taken back. -/
theorem mem_waitersOf_forgetWaiter_of_ne (member : queued ∈ handle.waitersOf other)
    (different : queued ≠ waiter) :
    queued ∈ (handle.forgetWaiter backend waiter).waitersOf other := by
  unfold forgetWaiter
  split
  · exact member
  · next waiters found =>
      split
      · exact member
      · by_cases same : other = backend
        · subst same
          have listed : queued ∈ waiters := by simpa [waitersOf, found] using member
          have kept : queued ∈ waiters.erase waiter :=
            (List.mem_erase_of_ne different).mpr listed
          simp only [waitersOf, if_neg (List.ne_nil_of_mem kept), Dict.get?_insert_self]
          exact kept
        · simp only [waitersOf]
          split
          · rw [Dict.get?_erase_of_ne _ same]
            exact member
          · rw [Dict.get?_insert_of_ne _ _ same]
            exact member

end OpenSandboxHandle

namespace HandleSystem

variable {system after : HandleSystem} {call : CallId} {backend : HandleBackend} {wait : WaitId}
  {found : IdleWait}

theorem live?_eq_some : system.live? wait = some found ↔
    system.waits.get? wait = some found ∧ found.loop ∉ system.closedLoops := by
  simp [live?, Option.filter_eq_some_iff]

theorem get?_notifyAll_phase {threads : Dict ThreadId ThreadWait} {thread : ThreadId}
    {entry : ThreadWait} (stored : (notifyAll threads).get? thread = some entry) :
    entry.phase ≠ .asleep := by
  rw [notifyAll, Dict.get?_mapValues, Option.map_eq_some_iff] at stored
  obtain ⟨before, -, rfl⟩ := stored
  split
  · simp
  · next awake => exact awake

/-! ## The waits of a system -/

/-- Where the waiters and the sleeping threads of a system stand. -/
structure Waiting (system : HandleSystem) : Prop where
  queued : ∀ backend, ∀ waiter ∈ system.handle.waitersOf backend, 0 < system.leases backend ∧
    ∃ found, system.waits.get? waiter.2 = some found ∧ found.backend = backend ∧
      found.loop = waiter.1
  waking : ∀ waiter ∈ system.waking, ∃ found,
    system.waits.get? waiter.2 = some found ∧ found.loop = waiter.1
  scheduled : ∀ wait ∈ system.callbacks, (system.waits.get? wait).isSome
  pending : ∀ wait found, system.live? wait = some found → found.phase = .pending →
    (found.loop, wait) ∈ system.handle.waitersOf found.backend ∨
      (found.loop, wait) ∈ system.waking ∨ wait ∈ system.callbacks
  asleep : ∀ thread entry, system.threads.get? thread = some entry → entry.phase = .asleep →
    0 < system.leases entry.backend

/-- The wait has been released from its connection and was not interrupted. -/
def Woken (system : HandleSystem) (wait : WaitId) (backend : HandleBackend) : Prop :=
  ∃ found, system.waits.get? wait = some found ∧ found.backend = backend ∧
    ((found.loop, wait) ∈ system.waking ∨ wait ∈ system.callbacks ∨
      found.phase = .settling ∨ found.phase = .completed)

/-- Nothing but the current connection, admission and leases may differ. -/
structure SameWaits (before after : HandleSystem) : Prop where
  waiters : ∀ backend, after.handle.waitersOf backend = before.handle.waitersOf backend
  waits : after.waits = before.waits
  waking : after.waking = before.waking
  callbacks : after.callbacks = before.callbacks
  closedLoops : after.closedLoops = before.closedLoops
  threads : after.threads = before.threads

theorem SameWaits.refl (system : HandleSystem) : SameWaits system system :=
  ⟨fun _ => rfl, rfl, rfl, rfl, rfl, rfl⟩

theorem SameWaits.live? (same : SameWaits system after) (wait : WaitId) :
    after.live? wait = system.live? wait := by
  rw [HandleSystem.live?, HandleSystem.live?, same.waits, same.closedLoops]

theorem SameWaits.waiting (same : SameWaits system after)
    (leases : ∀ backend, 0 < system.leases backend → 0 < after.leases backend)
    (waiting : system.Waiting) : after.Waiting where
  queued backend waiter member := by
    rw [same.waiters] at member
    rw [same.waits]
    exact (waiting.queued backend waiter member).imp (leases backend) id
  waking := by
    rw [same.waking, same.waits]
    exact waiting.waking
  scheduled := by
    rw [same.callbacks, same.waits]
    exact waiting.scheduled
  pending wait found live phase := by
    rw [same.live?] at live
    rw [same.waiters, same.waking, same.callbacks]
    exact waiting.pending wait found live phase
  asleep thread entry stored phase := by
    rw [same.threads] at stored
    exact leases _ (waiting.asleep thread entry stored phase)

theorem SameWaits.woken (same : SameWaits system after) (woken : after.Woken wait backend) :
    system.Woken wait backend := by
  simpa only [Woken, same.waits, same.waking, same.callbacks] using woken

theorem Starts.sameWaits (started : Starts system after call) : SameWaits system after := by
  rw [started.after_eq]
  exact ⟨fun _ => rfl, rfl, rfl, rfl, rfl, rfl⟩

theorem Leaves.sameWaits {remaining : Nat} (left : Leaves system after call backend remaining) :
    SameWaits system after := by
  rw [left.after_eq]
  exact ⟨fun _ => rfl, rfl, rfl, rfl, rfl, rfl⟩

theorem Starts.leases_pos (started : Starts system after call) (other : HandleBackend)
    (busy : 0 < system.leases other) : 0 < after.leases other := by
  rw [started.leases]
  split <;> omega

theorem Leaves.leases_pos {remaining : Nat} (left : Leaves system after call backend remaining)
    (other : HandleBackend) (busy : 0 < system.leases other) : 0 < after.leases other := by
  rw [left.leases]
  split
  · exact left.positive
  · exact busy

/-! ## The last call of a connection -/

theorem Drains.waitersOf (drained : Drains system after call backend) (other : HandleBackend) :
    after.handle.waitersOf other =
      if other = backend then [] else system.handle.waitersOf other := by
  rw [drained.after_eq]
  simp only [OpenSandboxHandle.waitersOf, Dict.get?_erase]
  split <;> rfl

theorem Drains.mem_waking (drained : Drains system after call backend) {waiter : IdleWaiter} :
    waiter ∈ after.waking ↔
      waiter ∈ system.waking ∨ waiter ∈ system.handle.waitersOf backend := by
  rw [drained.after_eq, List.mem_append, OpenSandboxHandle.waitersOf]

theorem Drains.waiting (drained : Drains system after call backend) (waiting : system.Waiting) :
    after.Waiting where
  queued other waiter member := by
    rw [drained.waitersOf] at member
    split at member
    · cases member
    · next different =>
        rw [drained.leases, if_neg different]
        rw [drained.after_eq]
        exact waiting.queued other waiter member
  waking waiter member := by
    have waits : after.waits = system.waits := by rw [drained.after_eq]
    rw [waits]
    rcases drained.mem_waking.mp member with before | taken
    · exact waiting.waking waiter before
    · obtain ⟨-, found, stored, -, loop⟩ := waiting.queued backend waiter taken
      exact ⟨found, stored, loop⟩
  scheduled := by
    rw [drained.after_eq]
    exact waiting.scheduled
  pending wait found live phase := by
    have before : system.live? wait = some found := by
      rw [drained.after_eq] at live
      exact live
    have callbacks : after.callbacks = system.callbacks := by rw [drained.after_eq]
    rw [drained.waitersOf, drained.mem_waking, callbacks]
    rcases waiting.pending wait found before phase with queued | waking | scheduled
    · by_cases same : found.backend = backend
      · exact .inr (.inl (.inr (same ▸ queued)))
      · rw [if_neg same]
        exact .inl queued
    · exact .inr (.inl (.inl waking))
    · exact .inr (.inr scheduled)
  asleep thread entry stored phase := by
    rw [drained.after_eq] at stored
    exact absurd phase (get?_notifyAll_phase stored)

theorem Drains.woken (drained : Drains system after call backend) (waiting : system.Waiting)
    {other : HandleBackend} (woken : after.Woken wait other) :
    system.Woken wait other ∨ after.leases other = 0 := by
  obtain ⟨found, stored, rfl, place⟩ := woken
  have waits : after.waits = system.waits := by rw [drained.after_eq]
  have callbacks : after.callbacks = system.callbacks := by rw [drained.after_eq]
  rw [waits] at stored
  rw [drained.mem_waking, callbacks] at place
  rcases place with (before | taken) | rest
  · exact .inl ⟨found, stored, rfl, .inl before⟩
  · obtain ⟨-, entry, known, same, -⟩ := waiting.queued backend _ taken
    obtain rfl := Option.some.inj (known.symm.trans stored)
    exact .inr (by rw [drained.leases, if_pos same])
  · exact .inl ⟨found, stored, rfl, .inr rest⟩

/-! ## One wait moves -/

section Phases

variable {phase : WaitPhase}

theorem get?_setPhase (other : WaitId) : (system.setPhase wait found phase).waits.get? other =
    if other = wait then some { found with phase } else system.waits.get? other :=
  Dict.get?_insert _ _ _ _

theorem live?_setPhase (live : system.live? wait = some found) (other : WaitId) :
    (system.setPhase wait found phase).live? other =
      if other = wait then some { found with phase } else system.live? other := by
  rw [live?, get?_setPhase]
  split
  · exact if_pos (decide_eq_true (live?_eq_some.mp live).2)
  · rfl

theorem registered_setPhase (stored : system.waits.get? wait = some found) {other : WaitId}
    {entry : IdleWait} (known : system.waits.get? other = some entry) :
    ∃ moved, (system.setPhase wait found phase).waits.get? other = some moved ∧
      moved.backend = entry.backend ∧ moved.loop = entry.loop := by
  rw [get?_setPhase]
  split
  · next same =>
      subst same
      obtain rfl := Option.some.inj (stored.symm.trans known)
      exact ⟨_, rfl, rfl, rfl⟩
  · exact ⟨entry, known, rfl, rfl⟩

theorem Waiting.setPhase (waiting : system.Waiting) (live : system.live? wait = some found)
    (passed : phase ≠ .pending) : (system.setPhase wait found phase).Waiting where
  queued backend waiter member := by
    obtain ⟨busy, entry, known, same, loop⟩ := waiting.queued backend waiter member
    obtain ⟨moved, stored, backends, loops⟩ := registered_setPhase (live?_eq_some.mp live).1 known
    exact ⟨busy, moved, stored, backends.trans same, loops.trans loop⟩
  waking waiter member := by
    obtain ⟨entry, known, loop⟩ := waiting.waking waiter member
    obtain ⟨moved, stored, -, loops⟩ := registered_setPhase (live?_eq_some.mp live).1 known
    exact ⟨moved, stored, loops.trans loop⟩
  scheduled other member := by
    obtain ⟨entry, known⟩ := Option.isSome_iff_exists.mp (waiting.scheduled other member)
    obtain ⟨moved, stored, -⟩ := registered_setPhase (live?_eq_some.mp live).1 known
    exact Option.isSome_iff_exists.mpr ⟨moved, stored⟩
  pending other entry moved pending := by
    rw [live?_setPhase live] at moved
    split at moved
    · obtain rfl := Option.some.inj moved
      exact absurd pending passed
    · exact waiting.pending other entry moved pending
  asleep := waiting.asleep

theorem woken_setPhase {other : WaitId} (stored : system.waits.get? wait = some found)
    (released : phase = .settling ∨ phase = .completed → system.Woken wait found.backend)
    (woken : (system.setPhase wait found phase).Woken other backend) :
    system.Woken other backend := by
  obtain ⟨entry, known, rfl, place⟩ := woken
  rw [get?_setPhase] at known
  split at known
  · next same =>
      subst same
      obtain rfl := Option.some.inj known
      rcases place with waking | scheduled | passed
      · exact ⟨found, stored, rfl, .inl waking⟩
      · exact ⟨found, stored, rfl, .inr (.inl scheduled)⟩
      · exact released passed
  · exact ⟨entry, known, rfl, place⟩

theorem Waiting.eraseCallback (waiting : system.Waiting)
    (passed : ∀ found, system.live? wait = some found → found.phase ≠ .pending) :
    ({ system with callbacks := system.callbacks.erase wait } : HandleSystem).Waiting where
  queued := waiting.queued
  waking := waiting.waking
  scheduled other member := waiting.scheduled other (List.mem_of_mem_erase member)
  pending other entry live pending := by
    have different : other ≠ wait := by
      rintro rfl
      exact passed entry live pending
    exact (waiting.pending other entry live pending).imp_right
      (Or.imp_right (List.mem_erase_of_ne different).mpr)
  asleep := waiting.asleep

theorem Waiting.forgetWaiter (waiting : system.Waiting)
    (passed : ∀ found, system.live? wait = some found → found.phase ≠ .pending) (loop : LoopId) :
    ({ system with handle := system.handle.forgetWaiter backend (loop, wait) } :
      HandleSystem).Waiting where
  queued other waiter member := by
    obtain ⟨busy, known⟩ := waiting.queued other waiter
      (OpenSandboxHandle.mem_waitersOf_forgetWaiter _ member)
    refine ⟨?_, known⟩
    exact busy.trans_eq
      (OpenSandboxHandle.leases_congr (OpenSandboxHandle.forgetWaiter_activeCalls _ _ _) _).symm
  waking := waiting.waking
  scheduled := waiting.scheduled
  pending other entry live pending := by
    have different : (entry.loop, other) ≠ (loop, wait) := by
      intro same
      obtain ⟨-, rfl⟩ := Prod.mk.inj same
      exact passed entry live pending
    exact (waiting.pending other entry live pending).imp_left fun queued =>
      OpenSandboxHandle.mem_waitersOf_forgetWaiter_of_ne _ queued different
  asleep thread entry stored phase := (waiting.asleep thread entry stored phase).trans_eq
    (OpenSandboxHandle.leases_congr (OpenSandboxHandle.forgetWaiter_activeCalls _ _ _) _).symm

end Phases

/-! ## Single steps -/

theorem waiting_completeWaiter (waiting : system.Waiting) (wait : WaitId) :
    (system.completeWaiter wait).Waiting := by
  unfold completeWaiter
  split
  · exact waiting
  · next found live =>
      split
      · exact waiting
      · split
        · next pending =>
            have settled : (system.setPhase wait found .settling).Waiting :=
              waiting.setPhase live (by simp)
            refine settled.eraseCallback fun entry moved => ?_
            rw [live?_setPhase live, if_pos rfl] at moved
            obtain rfl := Option.some.inj moved
            simp
        · next passed =>
            refine waiting.eraseCallback fun entry again => ?_
            obtain rfl := Option.some.inj (live.symm.trans again)
            exact passed

theorem woken_completeWaiter {other : WaitId}
    (woken : (system.completeWaiter wait).Woken other backend) : system.Woken other backend := by
  unfold completeWaiter at woken
  split at woken
  · exact woken
  · next found live =>
      split at woken
      · exact woken
      · next scheduled =>
          have stored := (live?_eq_some.mp live).1
          have erased (entry : IdleWait) (known : system.waits.get? other = some entry)
              (same : entry.backend = backend)
              (place : (entry.loop, other) ∈ system.waking ∨ other ∈ system.callbacks.erase wait ∨
                entry.phase = .settling ∨ entry.phase = .completed) : system.Woken other backend :=
            ⟨entry, known, same, place.imp_right (Or.imp_left List.mem_of_mem_erase)⟩
          split at woken
          · obtain ⟨entry, known, same, place⟩ := woken
            have moved : (system.setPhase wait found .settling).Woken other backend :=
              ⟨entry, known, same, place.imp_right (Or.imp_left List.mem_of_mem_erase)⟩
            exact woken_setPhase stored
              (fun _ => ⟨found, stored, rfl, .inr (.inl (by simpa using scheduled))⟩) moved
          · obtain ⟨entry, known, same, place⟩ := woken
            exact erased entry known same place

theorem waiting_wakeWaiter (waiting : system.Waiting) (waiter : IdleWaiter) :
    (system.wakeWaiter waiter).Waiting := by
  unfold wakeWaiter
  split
  · exact waiting
  · next taken =>
      split
      · next closed =>
          refine ⟨waiting.queued, fun other member => waiting.waking other (List.mem_of_mem_erase member),
            waiting.scheduled, fun wait found live pending => ?_, waiting.asleep⟩
          have different : (found.loop, wait) ≠ waiter := by
            rintro rfl
            exact (live?_eq_some.mp live).2 closed
          exact (waiting.pending wait found live pending).imp_right
            (Or.imp_left (List.mem_erase_of_ne different).mpr)
      · refine ⟨waiting.queued, fun other member => waiting.waking other (List.mem_of_mem_erase member),
          fun wait member => ?_, fun wait found live pending => ?_, waiting.asleep⟩
        · rcases List.mem_append.mp member with before | woken
          · exact waiting.scheduled wait before
          · obtain rfl := List.mem_singleton.mp woken
            obtain ⟨found, stored, -⟩ := waiting.waking waiter (by simpa using taken)
            exact Option.isSome_iff_exists.mpr ⟨found, stored⟩
        · rcases waiting.pending wait found live pending with queued | waking | scheduled
          · exact .inl queued
          · by_cases same : (found.loop, wait) = waiter
            · refine .inr (.inr (List.mem_append_right _ ?_))
              simp [← same]
            · exact .inr (.inl ((List.mem_erase_of_ne same).mpr waking))
          · exact .inr (.inr (List.mem_append_left _ scheduled))

theorem woken_wakeWaiter (waiting : system.Waiting) {waiter : IdleWaiter}
    (woken : (system.wakeWaiter waiter).Woken wait backend) : system.Woken wait backend := by
  unfold wakeWaiter at woken
  split at woken
  · exact woken
  · next taken =>
      split at woken
      · obtain ⟨found, stored, same, place⟩ := woken
        exact ⟨found, stored, same, place.imp_left List.mem_of_mem_erase⟩
      · obtain ⟨found, stored, same, waking | scheduled | passed⟩ := woken
        · exact ⟨found, stored, same, .inl (List.mem_of_mem_erase waking)⟩
        · rcases List.mem_append.mp scheduled with before | now
          · exact ⟨found, stored, same, .inr (.inl before)⟩
          · obtain rfl := List.mem_singleton.mp now
            have member : waiter ∈ system.waking := by simpa using taken
            obtain ⟨entry, known, loop⟩ := waiting.waking waiter member
            obtain rfl := Option.some.inj (known.symm.trans stored)
            exact ⟨entry, stored, same, .inl (loop ▸ member)⟩
        · exact ⟨found, stored, same, .inr (.inr passed)⟩

theorem waiting_awaitIdle (waiting : system.Waiting) (wait : WaitId) (loop : LoopId)
    (backend : HandleBackend) : (system.awaitIdle wait loop backend).Waiting := by
  unfold awaitIdle
  split
  · exact waiting
  · next fresh =>
      have unknown : system.waits.get? wait = none := by
        simpa using fun stored => fresh (.inl stored)
      have kept (other : WaitId) (entry : IdleWait) (known : system.waits.get? other = some entry)
          (new : IdleWait) : (system.waits.insert wait new).get? other = some entry := by
        have different : other ≠ wait := by
          rintro rfl
          cases unknown.symm.trans known
        exact (Dict.get?_insert_of_ne _ _ different).trans known
      have leases (other : HandleBackend) :
          (system.handle.registerWaiter backend (loop, wait)).leases other = system.leases other :=
        OpenSandboxHandle.leases_congr (OpenSandboxHandle.registerWaiter_activeCalls _ _ _) other
      refine ⟨fun other waiter member => ?_, fun waiter member => ?_, fun other member => ?_,
        fun other entry live pending => ?_, fun thread entry stored phase => ?_⟩
      · rcases (OpenSandboxHandle.mem_waitersOf_registerWaiter _).mp member with
          before | ⟨busy, rfl, rfl⟩
        · obtain ⟨positive, entry, known, rest⟩ := waiting.queued other waiter before
          exact ⟨positive.trans_eq (leases other).symm, entry, kept _ _ known _, rest⟩
        · exact ⟨(Nat.pos_of_ne_zero busy).trans_eq (leases _).symm, _,
            Dict.get?_insert_self _ _ _, rfl, rfl⟩
      · obtain ⟨entry, known, same⟩ := waiting.waking waiter member
        exact ⟨entry, kept _ _ known _, same⟩
      · obtain ⟨entry, known⟩ := Option.isSome_iff_exists.mp (waiting.scheduled other member)
        exact Option.isSome_iff_exists.mpr ⟨entry, kept _ _ known _⟩
      · obtain ⟨stored, running⟩ := live?_eq_some.mp live
        rw [Dict.get?_insert] at stored
        split at stored
        · next same =>
            obtain rfl := Option.some.inj stored
            refine .inl ((OpenSandboxHandle.mem_waitersOf_registerWaiter _).mpr (.inr ?_))
            refine ⟨fun idle => ?_, rfl, by rw [same]⟩
            simp [idle] at pending
        · have before : system.live? other = some entry := live?_eq_some.mpr ⟨stored, running⟩
          exact (waiting.pending other entry before pending).imp_left fun queued =>
            (OpenSandboxHandle.mem_waitersOf_registerWaiter _).mpr (.inl queued)
      · exact (waiting.asleep thread entry stored phase).trans_eq (leases entry.backend).symm

/-- A wait that begins on an idle connection is past its leases at once. -/
theorem woken_awaitIdle (waiting : system.Waiting) {loop : LoopId} {awaited : HandleBackend}
    {other : WaitId} (woken : (system.awaitIdle wait loop awaited).Woken other backend) :
    system.Woken other backend ∨ (system.awaitIdle wait loop awaited).leases backend = 0 := by
  unfold awaitIdle at woken ⊢
  split at woken
  · exact .inl woken
  · next fresh =>
      have unknown : system.waits.get? wait = none := by
        simpa using fun stored => fresh (.inl stored)
      rw [if_neg fresh]
      obtain ⟨entry, stored, rfl, place⟩ := woken
      rw [Dict.get?_insert] at stored
      split at stored
      · next same =>
          obtain rfl := Option.some.inj stored
          refine .inr ?_
          have leases : (system.handle.registerWaiter awaited (loop, wait)).leases awaited =
              system.leases awaited :=
            OpenSandboxHandle.leases_congr (OpenSandboxHandle.registerWaiter_activeCalls _ _ _) _
          refine leases.trans ?_
          rcases place with waking | scheduled | passed
          · obtain ⟨entry, known, -⟩ := waiting.waking _ waking
            cases unknown.symm.trans (same ▸ known)
          · have known := waiting.scheduled _ scheduled
            rw [same, unknown] at known
            cases known
          · by_contra busy
            simp [busy] at passed
      · exact .inl ⟨entry, stored, rfl, place⟩

theorem sameWaits_trackRemote (call : CallId) :
    SameWaits system (system.next (.trackRemote call)) := by
  simp only [next]
  split
  · exact ⟨fun backend => by rw [OpenSandboxHandle.waitersOf,
      OpenSandboxHandle.trackRemote_idleWaiters, OpenSandboxHandle.waitersOf],
      rfl, rfl, rfl, rfl, rfl⟩
  · exact .refl system

theorem sameWaits_replace (backend : HandleBackend) :
    SameWaits system (system.next (.replace backend)) := by
  simp only [next, OpenSandboxHandle.replaceBackend]
  cases system.handle.closed <;> exact ⟨fun _ => rfl, rfl, rfl, rfl, rfl, rfl⟩

theorem sameWaits_settleRemote (backend : HandleBackend) (idle : Bool) :
    SameWaits system { system with handle := system.handle.settleRemote backend idle } :=
  ⟨fun backend => by rw [OpenSandboxHandle.waitersOf, OpenSandboxHandle.settleRemote_idleWaiters,
    OpenSandboxHandle.waitersOf], rfl, rfl, rfl, rfl, rfl⟩

theorem waiting_enterWait (waiting : system.Waiting) (thread : ThreadId) (backend : HandleBackend) :
    (system.enterWait thread backend).Waiting where
  queued := waiting.queued
  waking := waiting.waking
  scheduled := waiting.scheduled
  pending := waiting.pending
  asleep other entry stored phase := by
    rw [enterWait, Dict.get?_insert] at stored
    split at stored
    · obtain rfl := Option.some.inj stored
      refine Nat.pos_of_ne_zero fun idle => ?_
      have none : system.leases backend = 0 := idle
      simp [none] at phase
    · exact waiting.asleep other entry stored phase

theorem leases_of_sameCalls {event : HandleEvent} (same : SameCalls system (system.next event))
    (backend : HandleBackend) (busy : 0 < system.leases backend) :
    0 < (system.next event).leases backend := (same.leases backend).symm ▸ busy

/-! ## Every step -/

theorem Waiting.next (waiting : system.Waiting) (event : HandleEvent) :
    (system.next event).Waiting := by
  cases event with
  | startCall call =>
    rcases system.startCall_cases call with same | started
    · rw [HandleSystem.next, same]
      exact waiting
    · exact started.sameWaits.waiting started.leases_pos waiting
  | finishCall call =>
    rcases system.finishCall_cases call with same | ⟨_, _, left⟩ | ⟨_, drained⟩
    · rw [HandleSystem.next, same]
      exact waiting
    · exact left.sameWaits.waiting left.leases_pos waiting
    · exact drained.waiting waiting
  | trackRemote call =>
    exact (sameWaits_trackRemote call).waiting
      (leases_of_sameCalls (sameCalls_next (by simp) (by simp))) waiting
  | wakeWaiter waiter => exact waiting_wakeWaiter waiting waiter
  | completeWaiter wait => exact waiting_completeWaiter waiting wait
  | replace backend =>
    exact (sameWaits_replace backend).waiting
      (leases_of_sameCalls (sameCalls_next (by simp) (by simp))) waiting
  | suspend reason => exact ⟨waiting.1, waiting.2, waiting.3, waiting.4, waiting.5⟩
  | allow => exact ⟨waiting.1, waiting.2, waiting.3, waiting.4, waiting.5⟩
  | close => exact ⟨waiting.1, waiting.2, waiting.3, waiting.4, waiting.5⟩
  | awaitIdle wait loop backend => exact waiting_awaitIdle waiting wait loop backend
  | remoteSettled wait idle =>
    simp only [HandleSystem.next, remoteSettled]
    split
    · next found live =>
        split
        · have settled := (waiting.setPhase live (by simp) : (system.setPhase wait found .completed).Waiting)
          refine (sameWaits_settleRemote found.backend idle).waiting (fun other busy => ?_) settled
          exact busy.trans_eq (OpenSandboxHandle.leases_congr
            (OpenSandboxHandle.settleRemote_activeCalls _ _ _) other).symm
        · exact waiting
    · exact waiting
  | cancelWait wait =>
    simp only [HandleSystem.next, cancelWait]
    split
    · next found live =>
        split
        · exact waiting.setPhase live (by simp)
        · exact waiting
    · exact waiting
  | forgetWait wait =>
    simp only [HandleSystem.next, forgetWait]
    split
    · next found live =>
        split
        · have cancelled : (system.setPhase wait found .cancelled).Waiting :=
            waiting.setPhase live (by simp)
          refine cancelled.forgetWaiter (fun entry moved => ?_) found.loop
          rw [live?_setPhase live, if_pos rfl] at moved
          obtain rfl := Option.some.inj moved
          simp
        · exact waiting
    · exact waiting
  | closeLoop loop =>
    refine ⟨waiting.queued, waiting.waking, waiting.scheduled, ?_, waiting.asleep⟩
    intro wait found live pending
    obtain ⟨stored, running⟩ := live?_eq_some.mp live
    exact waiting.pending wait found
      (live?_eq_some.mpr ⟨stored, fun closed => running (.tail _ closed)⟩) pending
  | threadWait thread backend =>
    simp only [HandleSystem.next, threadWait]
    split
    · exact waiting
    · exact waiting_enterWait waiting thread backend
  | threadRetire thread =>
    simp only [HandleSystem.next, threadRetire]
    split
    · exact waiting
    · have closed : ({ system with handle := { system.handle with closed := true } } :
          HandleSystem).Waiting := ⟨waiting.1, waiting.2, waiting.3, waiting.4, waiting.5⟩
      exact waiting_enterWait closed thread system.handle.backend
  | threadWakes thread =>
    simp only [HandleSystem.next, threadWakes]
    split
    · split
      · exact waiting_enterWait waiting thread _
      · exact waiting
    · exact waiting

/-- Whatever releases a wait leaves its connection without leases. -/
theorem woken_next (waiting : system.Waiting) {event : HandleEvent}
    (woken : (system.next event).Woken wait backend) :
    system.Woken wait backend ∨ (system.next event).leases backend = 0 := by
  cases event with
  | startCall call =>
    rcases system.startCall_cases call with same | started
    · rw [HandleSystem.next, same] at woken
      exact .inl woken
    · exact .inl (started.sameWaits.woken woken)
  | finishCall call =>
    rcases system.finishCall_cases call with same | ⟨_, _, left⟩ | ⟨_, drained⟩
    · rw [HandleSystem.next, same] at woken
      exact .inl woken
    · exact .inl (left.sameWaits.woken woken)
    · exact drained.woken waiting woken
  | trackRemote call => exact .inl ((sameWaits_trackRemote call).woken woken)
  | wakeWaiter waiter => exact .inl (woken_wakeWaiter waiting woken)
  | completeWaiter wait => exact .inl (woken_completeWaiter woken)
  | replace backend => exact .inl ((sameWaits_replace backend).woken woken)
  | suspend reason => exact .inl woken
  | allow => exact .inl woken
  | close => exact .inl woken
  | awaitIdle wait loop backend => exact woken_awaitIdle waiting woken
  | remoteSettled wait idle =>
    simp only [HandleSystem.next, remoteSettled] at woken
    split at woken
    · next found live =>
        split at woken
        · next settling =>
            have stored := (live?_eq_some.mp live).1
            exact .inl (woken_setPhase stored
              (fun _ => ⟨found, stored, rfl, .inr (.inr (.inl settling))⟩)
              ((sameWaits_settleRemote found.backend idle).woken woken))
        · exact .inl woken
    · exact .inl woken
  | cancelWait wait =>
    simp only [HandleSystem.next, cancelWait] at woken
    split at woken
    · next found live =>
        split at woken
        · exact .inl (woken_setPhase (live?_eq_some.mp live).1 (by simp) woken)
        · exact .inl woken
    · exact .inl woken
  | forgetWait wait =>
    simp only [HandleSystem.next, forgetWait] at woken
    split at woken
    · next found live =>
        split at woken
        · have moved : (system.setPhase wait found .cancelled).Woken _ _ := woken
          exact .inl (woken_setPhase (live?_eq_some.mp live).1 (by simp) moved)
        · exact .inl woken
    · exact .inl woken
  | closeLoop loop => exact .inl woken
  | threadWait thread backend =>
    simp only [HandleSystem.next, threadWait] at woken
    split at woken <;> exact .inl woken
  | threadRetire thread =>
    simp only [HandleSystem.next, threadRetire] at woken
    split at woken <;> exact .inl woken
  | threadWakes thread =>
    simp only [HandleSystem.next, threadWakes] at woken
    (repeat' split at woken) <;> exact .inl woken

/-- A waiter is registered once, when its wait begins. -/
theorem queued_next {event : HandleEvent} {waiter : IdleWaiter}
    (queued : waiter ∈ (system.next event).handle.waitersOf backend) :
    waiter ∈ system.handle.waitersOf backend ∨ system.waits.get? waiter.2 = none := by
  cases event with
  | startCall call =>
    rcases system.startCall_cases call with same | started
    · rw [HandleSystem.next, same] at queued
      exact .inl queued
    · rw [HandleSystem.next, started.sameWaits.waiters] at queued
      exact .inl queued
  | finishCall call =>
    rcases system.finishCall_cases call with same | ⟨_, _, left⟩ | ⟨_, drained⟩
    · rw [HandleSystem.next, same] at queued
      exact .inl queued
    · rw [HandleSystem.next, left.sameWaits.waiters] at queued
      exact .inl queued
    · rw [HandleSystem.next, drained.waitersOf] at queued
      split at queued
      · cases queued
      · exact .inl queued
  | trackRemote call =>
    rw [(sameWaits_trackRemote call).waiters] at queued
    exact .inl queued
  | wakeWaiter waiter =>
    simp only [HandleSystem.next, wakeWaiter] at queued
    (repeat' split at queued) <;> exact .inl queued
  | completeWaiter wait =>
    simp only [HandleSystem.next, completeWaiter] at queued
    (repeat' split at queued) <;> exact .inl queued
  | replace backend =>
    rw [(sameWaits_replace backend).waiters] at queued
    exact .inl queued
  | suspend reason => exact .inl queued
  | allow => exact .inl queued
  | close => exact .inl queued
  | awaitIdle wait loop awaited =>
    simp only [HandleSystem.next, awaitIdle] at queued
    split at queued
    · exact .inl queued
    · next fresh =>
        rcases (OpenSandboxHandle.mem_waitersOf_registerWaiter _).mp queued with
          before | ⟨-, -, rfl⟩
        · exact .inl before
        · exact .inr (by simpa using fun stored => fresh (.inl stored))
  | remoteSettled wait idle =>
    simp only [HandleSystem.next, remoteSettled] at queued
    split at queued
    · next found live =>
        split at queued
        · rw [OpenSandboxHandle.waitersOf, OpenSandboxHandle.settleRemote_idleWaiters] at queued
          exact .inl queued
        · exact .inl queued
    · exact .inl queued
  | cancelWait wait =>
    simp only [HandleSystem.next, cancelWait] at queued
    (repeat' split at queued) <;> exact .inl queued
  | forgetWait wait =>
    simp only [HandleSystem.next, forgetWait] at queued
    split at queued
    · split at queued
      · exact .inl (OpenSandboxHandle.mem_waitersOf_forgetWaiter _ queued)
      · exact .inl queued
    · exact .inl queued
  | closeLoop loop => exact .inl queued
  | threadWait thread backend =>
    simp only [HandleSystem.next, threadWait] at queued
    split at queued <;> exact .inl queued
  | threadRetire thread =>
    simp only [HandleSystem.next, threadRetire] at queued
    split at queued <;> exact .inl queued
  | threadWakes thread =>
    simp only [HandleSystem.next, threadWakes] at queued
    (repeat' split at queued) <;> exact .inl queued

end HandleSystem

end Tinkerfin.Sandbox
