import Mathlib.Order.MinMax
import Tinkerfin.Lib.Machine
import Tinkerfin.Messaging.Capacity

/-!
# Deadlines of the expiry index

The calls of an index and what they returned determine the deadline of every key, whatever the index
stores.  Along every run the index serves exactly these deadlines: a pop returns a key that is due
first, a registration is returned at most once, and the heap stays proportional to the live keys.
-/

namespace Tinkerfin.Messaging

variable {K : Type} [LinearOrder K]

/-! ## Calls and their history -/

inductive ExpiryCall (K : Type)
  | set (key : StreamKey) (deadline : Option K)
  | popDue (now : K)

/-- The answer to a call and the index after it. -/
def ExpiryIndex.perform (index : ExpiryIndex K) : ExpiryCall K → Option StreamKey × ExpiryIndex K
  | .set key deadline => (none, index.set key deadline)
  | .popDue now => index.popDue now

/-- Answered calls, newest first. -/
abbrev ExpiryHistory (K : Type) := List (ExpiryCall K × Option StreamKey)

/-- An index with the calls it has answered. -/
structure ExpiryLog (K : Type) where
  index : ExpiryIndex K
  history : ExpiryHistory K

def ExpiryLog.empty : ExpiryLog K := ⟨.empty, []⟩

def ExpiryLog.perform (log : ExpiryLog K) (call : ExpiryCall K) : ExpiryLog K :=
  ⟨(log.index.perform call).2, (call, (log.index.perform call).1) :: log.history⟩

/-- The deadline a key has by the latest call that set, cleared or returned it. -/
def currentDeadline (key : StreamKey) : ExpiryHistory K → Option K
  | [] => none
  | (call, answer) :: earlier =>
    if answer = some key then none
    else
      match call with
      | .set other deadline => if other = key then deadline else currentDeadline key earlier
      | .popDue _ => currentDeadline key earlier

/-- A call that neither returned the key nor set or cleared it. -/
def LeavesKey (key : StreamKey) (served : ExpiryCall K × Option StreamKey) : Prop :=
  served.2 ≠ some key ∧ ∀ deadline, served.1 ≠ .set key deadline

/-! ## The least heap entry -/

variable {heap : List (K × StreamKey)} {entry other : K × StreamKey}

theorem le_of_dueBefore (before : dueBefore entry other = true) : entry.1 ≤ other.1 := by
  unfold dueBefore at before
  split at before
  · exact (of_decide_eq_true before).le
  · next same => exact (not_not.mp same).le

theorem le_of_not_dueBefore (after : dueBefore entry other = false) : other.1 ≤ entry.1 := by
  unfold dueBefore at after
  split at after
  · exact not_lt.mp (of_decide_eq_false after)
  · next same => exact (not_not.mp same).ge

theorem heapLeast_append_singleton (last : K × StreamKey) :
    heapLeast (heap ++ [last]) = (heapLeast heap).elim (some last) fun least =>
      some (if dueBefore last least then last else least) := by
  rw [heapLeast, List.foldl_append]
  rfl

theorem heapLeast_isSome (filled : heap ≠ []) : (heapLeast heap).isSome := by
  induction heap using List.reverseRecOn with
  | nil => exact absurd rfl filled
  | append_singleton heap last ih =>
    rw [heapLeast_append_singleton]
    cases heapLeast heap <;> rfl

theorem heapLeast_le (least : heapLeast heap = some entry) (member : other ∈ heap) :
    entry.1 ≤ other.1 := by
  induction heap using List.reverseRecOn generalizing entry other with
  | nil => cases member
  | append_singleton heap last ih =>
    rw [heapLeast_append_singleton] at least
    cases before : heapLeast heap with
    | none =>
      have empty : heap = [] := by
        by_contra filled
        have some := heapLeast_isSome filled
        simp [before] at some
      rw [before] at least
      cases least
      obtain rfl : other = last := by simpa [empty] using member
      exact le_rfl
    | some kept =>
      rw [before] at least
      cases least
      have olds : ∀ old ∈ heap, kept.1 ≤ old.1 := fun old stored => ih before stored
      cases order : dueBefore last kept with
      | true =>
        have first : last.1 ≤ kept.1 := le_of_dueBefore order
        rcases List.mem_append.mp member with old | new
        · exact first.trans (olds _ old)
        · exact (List.mem_singleton.mp new) ▸ le_rfl
      | false =>
        have first : kept.1 ≤ last.1 := le_of_not_dueBefore order
        rcases List.mem_append.mp member with old | new
        · exact olds _ old
        · exact (List.mem_singleton.mp new) ▸ first

/-! ## Every live deadline is in the heap -/

variable {index next : ExpiryIndex K} {key : StreamKey} {now deadline : K}

/-- Every deadline of the dictionary has its heap entry. -/
def ExpiryIndex.Covered (index : ExpiryIndex K) : Prop :=
  ∀ key deadline, index.deadlines.get? key = some deadline → (deadline, key) ∈ index.heap

theorem ExpiryIndex.Covered.compacted (covered : index.Covered) : index.compacted.Covered := by
  intro key deadline stored
  unfold ExpiryIndex.compacted at stored ⊢
  split at stored
  · next large =>
    rw [if_pos large]
    exact List.mem_map.mpr ⟨_, Dict.get?_eq_some_iff.mp stored, rfl⟩
  · next small =>
    rw [if_neg small]
    exact covered key deadline stored

/-- Dropping a superseded heap entry loses no deadline. -/
theorem ExpiryIndex.Covered.erase_stale (covered : index.Covered)
    (stale : ¬index.deadlines.get? entry.2 = some entry.1) :
    ExpiryIndex.Covered { index with heap := index.heap.erase entry } := by
  intro other deadline stored
  refine (List.mem_erase_of_ne ?_).mpr (covered other deadline stored)
  rintro rfl
  exact stale stored

theorem ExpiryIndex.Covered.set (covered : index.Covered) (requested : Option K) :
    (index.set key requested).Covered := by
  refine ExpiryIndex.Covered.compacted fun other deadline stored => ?_
  cases requested with
  | none =>
    rw [Dict.get?_erase] at stored
    split at stored
    · cases stored
    · exact covered other deadline stored
  | some requested =>
    rw [Dict.get?_insert] at stored
    split at stored
    · next same =>
      cases stored
      exact same ▸ List.mem_cons_self
    · exact List.mem_cons_of_mem _ (covered other deadline stored)

theorem ExpiryIndex.Covered.popDueWithin {rounds : Nat} {answer : Option StreamKey}
    (covered : index.Covered) (popped : index.popDueWithin now rounds = (answer, next)) :
    next.Covered := by
  induction rounds generalizing index with
  | zero =>
    cases popped
    exact covered
  | succ rounds ih =>
    unfold ExpiryIndex.popDueWithin at popped
    split at popped
    · cases popped
      exact covered
    · next due key least =>
      split at popped
      · cases popped
        exact covered
      · split at popped
        · next current =>
          cases popped
          intro other deadline stored
          rw [Dict.get?_erase] at stored
          split at stored
          · cases stored
          · next different =>
            refine (List.mem_erase_of_ne ?_).mpr (covered other deadline stored)
            exact fun same => different (congrArg Prod.snd same)
        · next stale =>
          exact ih (covered.erase_stale stale) popped

/-- A returned key is due first among the live ones. -/
theorem ExpiryIndex.Covered.first_of_popDueWithin {rounds : Nat} (covered : index.Covered)
    (popped : index.popDueWithin now rounds = (some key, next)) :
    ∃ deadline ≤ now, index.deadlines.get? key = some deadline ∧
      ∀ other later, index.deadlines.get? other = some later → deadline ≤ later := by
  induction rounds generalizing index with
  | zero => simp [ExpiryIndex.popDueWithin] at popped
  | succ rounds ih =>
    unfold ExpiryIndex.popDueWithin at popped
    split at popped
    · cases popped
    · next deadline head least =>
      split at popped
      · cases popped
      · next due =>
        split at popped
        · next current =>
          cases popped
          exact ⟨deadline, not_lt.mp due, current, fun other later stored =>
            heapLeast_le least (covered other later stored)⟩
        · next stale =>
          have kept : ExpiryIndex.Covered
              { index with heap := index.heap.erase (deadline, head) } :=
            covered.erase_stale stale
          have first := ih kept popped
          exact first

/-- Without an answer every live key is due later, once the rounds suffice for the heap. -/
theorem ExpiryIndex.Covered.later_of_popDueWithin {rounds : Nat} (covered : index.Covered)
    (enough : index.heap.length ≤ rounds) (popped : index.popDueWithin now rounds = (none, next))
    (stored : index.deadlines.get? key = some deadline) : now < deadline := by
  induction rounds generalizing index with
  | zero =>
    have empty : index.heap = [] := List.length_eq_zero_iff.mp (Nat.le_zero.mp enough)
    have member := covered key deadline stored
    simp [empty] at member
  | succ rounds ih =>
    unfold ExpiryIndex.popDueWithin at popped
    split at popped
    · next least =>
      have some := heapLeast_isSome (List.ne_nil_of_mem (covered key deadline stored))
      simp [least] at some
    · next first head least =>
      split at popped
      · next early => exact early.trans_le (heapLeast_le least (covered key deadline stored))
      · split at popped
        · cases popped
        · next stale =>
          refine ih (covered.erase_stale stale) ?_ popped stored
          have fewer := List.length_erase_of_mem (heapLeast_mem least)
          simp only [fewer]
          omega

/-! ## Runs -/

/-- The index covers its deadlines, and they are those of the history. -/
structure ExpiryLog.Exact (log : ExpiryLog K) : Prop where
  covered : log.index.Covered
  current : ∀ key, log.index.deadlines.get? key = currentDeadline key log.history

theorem ExpiryLog.Exact.perform {log : ExpiryLog K} (exact : log.Exact) (call : ExpiryCall K) :
    (log.perform call).Exact := by
  cases call with
  | set key deadline =>
    refine ⟨exact.covered.set deadline, fun other => ?_⟩
    refine (ExpiryIndex.set_deadlines deadline).trans ?_
    simp [ExpiryLog.perform, ExpiryIndex.perform, currentDeadline, exact.current other, eq_comm]
  | popDue now =>
    cases popped : log.index.popDue now with
    | mk answer next =>
      have performed : log.perform (.popDue now) = ⟨next, (.popDue now, answer) :: log.history⟩ := by
        simp only [ExpiryLog.perform, ExpiryIndex.perform, popped]
      rw [performed]
      refine ⟨exact.covered.popDueWithin popped, fun other => ?_⟩
      cases answer with
      | none =>
        rw [ExpiryIndex.popDueWithin_eq_none popped]
        simpa [currentDeadline] using exact.current other
      | some key =>
        rw [(ExpiryIndex.popDueWithin_eq_some popped).2, Dict.get?_erase]
        simp only [currentDeadline, Option.some.injEq, exact.current other, eq_comm]

theorem ExpiryLog.exact_run (calls : List (ExpiryCall K)) :
    (Machine.run ExpiryLog.perform .empty calls).Exact :=
  Machine.run_invariant (fun _ call exact => exact.perform call)
    ⟨fun _ _ stored => (by cases stored), fun _ => rfl⟩

theorem ExpiryLog.history_run (calls : List (ExpiryCall K)) :
    (Machine.run ExpiryLog.perform .empty calls).history.map Prod.fst = calls.reverse := by
  induction calls using List.reverseRecOn with
  | nil => rfl
  | append_singleton calls call ih => simp [Machine.run_append, ExpiryLog.perform, ih]

/-- The current deadline of a key was registered, and no later call set, cleared or returned it. -/
theorem registered_of_currentDeadline {history : ExpiryHistory K}
    (current : currentDeadline key history = some deadline) :
    ∃ later answer earlier, history = later ++ (.set key (some deadline), answer) :: earlier ∧
      ∀ served ∈ later, LeavesKey key served := by
  induction history with
  | nil => cases current
  | cons served history ih =>
    obtain ⟨call, answer⟩ := served
    have extend (left : LeavesKey key (call, answer))
        (old : currentDeadline key history = some deadline) :
        ∃ later answer' earlier, (call, answer) :: history =
            later ++ (.set key (some deadline), answer') :: earlier ∧
          ∀ served ∈ later, LeavesKey key served := by
      obtain ⟨later, answer', earlier, rfl, leaves⟩ := ih old
      exact ⟨(call, answer) :: later, answer', earlier, rfl,
        List.forall_mem_cons.mpr ⟨left, leaves⟩⟩
    unfold currentDeadline at current
    split at current
    · cases current
    · next unanswered =>
      cases call with
      | set other requested =>
        simp only at current
        split at current
        · next same =>
          subst same current
          exact ⟨[], answer, history, rfl, fun _ member => (by cases member)⟩
        · next different =>
          refine extend ⟨unanswered, fun deadline equal => ?_⟩ current
          exact different (ExpiryCall.set.inj equal).1
      | popDue now => exact extend ⟨unanswered, fun deadline equal => (by cases equal)⟩ current

/-- After any calls, a pop returns a key that is due first by the deadlines of the history, and
none exactly when no key is due.  The deadline it answers is the one that the latest call on this
key registered, so no superseded or already answered registration is used again.  After a set the
heap is bounded by the number of keys with a deadline. -/
theorem expiry_index_exact (calls : List (ExpiryCall K)) :
    let log := Machine.run ExpiryLog.perform .empty calls
    log.history.map Prod.fst = calls.reverse ∧
    (∀ now key, (log.index.popDue now).1 = some key →
      ∃ deadline ≤ now, currentDeadline key log.history = some deadline ∧
        (∀ other later, currentDeadline other log.history = some later → deadline ≤ later) ∧
        ∃ later answer earlier,
          log.history = later ++ (.set key (some deadline), answer) :: earlier ∧
          ∀ served ∈ later, LeavesKey key served) ∧
    (∀ now, (log.index.popDue now).1 = none ↔
      ∀ key deadline, currentDeadline key log.history = some deadline → now < deadline) ∧
    ∀ key deadline, ∃ live : List StreamKey, live.Nodup ∧
      (∀ other, other ∈ live ↔
        (currentDeadline other (log.perform (.set key deadline)).history).isSome) ∧
      (log.perform (.set key deadline)).index.heap.length ≤ 2 * live.length + 64 := by
  intro log
  have exact : log.Exact := ExpiryLog.exact_run calls
  refine ⟨ExpiryLog.history_run calls, fun now key returned => ?_, fun now => ⟨?_, ?_⟩,
    fun key deadline => ?_⟩
  · obtain ⟨deadline, due, stored, first⟩ :=
      exact.covered.first_of_popDueWithin (Prod.ext returned rfl)
    have current := (exact.current key).symm.trans stored
    refine ⟨deadline, due, current, fun other later pending => ?_,
      registered_of_currentDeadline current⟩
    exact first other later ((exact.current other).trans pending)
  · intro returned key deadline current
    exact exact.covered.later_of_popDueWithin le_rfl (Prod.ext returned rfl)
      ((exact.current key).trans current)
  · intro later
    cases returned : (log.index.popDue now).1 with
    | none => rfl
    | some key =>
      obtain ⟨deadline, due, stored, -⟩ :=
        exact.covered.first_of_popDueWithin (Prod.ext returned rfl)
      exact absurd due (not_le.mpr (later key deadline ((exact.current key).symm.trans stored)))
  · have next := exact.perform (.set key deadline)
    refine ⟨(log.perform (.set key deadline)).index.deadlines.keys, Dict.nodup _, fun other => ?_,
      ?_⟩
    · rw [← next.current other, Dict.mem_keys_iff]
    · rw [Dict.keys, List.length_map]
      exact ExpiryIndex.set_heap_le deadline

end Tinkerfin.Messaging
