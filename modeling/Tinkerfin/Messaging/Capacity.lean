import Mathlib.Order.Lattice
import Tinkerfin.Lib.Dict
import Tinkerfin.Messaging.Store

/-!
# Terminal expiry scheduling

The dictionary owns the current deadline of each terminal thread.  Heap entries are removed lazily:
an entry that no longer agrees with the dictionary is dropped when it is popped, and the heap is
rebuilt once it outgrows the dictionary.
-/

namespace Tinkerfin.Messaging

/-! ## Order of heap entries -/

/-- JSON text of one character. -/
def jsonCharacter (character : Char) : String :=
  match character.toNat with
  | 0x22 => "\\\""
  | 0x5c => "\\\\"
  | 0x08 => "\\b"
  | 0x09 => "\\t"
  | 0x0a => "\\n"
  | 0x0c => "\\f"
  | 0x0d => "\\r"
  | code =>
    if code < 0x20 then
      "\\u00" ++ (if code < 0x10 then "0" else "") ++ String.ofList (Nat.toDigits 16 code)
    else
      character.toString

def jsonText (value : String) : String :=
  "\"" ++ String.join (value.toList.map jsonCharacter) ++ "\""

/-- The text under which a thread is stored; it only orders threads with one deadline. -/
def ThreadIdentity.keyText (thread : ThreadIdentity) : String :=
  "\x7b\"namespace\":" ++ jsonText thread.namespace ++ ",\"threadId\":" ++
    jsonText thread.threadId ++ "\x7d"

variable {K : Type} [LinearOrder K]

/-- Order of heap entries: by deadline, then by channel and thread text. -/
def dueBefore (left right : K × StreamKey) : Bool :=
  if left.1 ≠ right.1 then
    decide (left.1 < right.1)
  else if left.2.channel ≠ right.2.channel then
    decide (left.2.channel < right.2.channel)
  else
    decide (left.2.thread.keyText < right.2.thread.keyText)

/-- The least entry of a heap. -/
def heapLeast (heap : List (K × StreamKey)) : Option (K × StreamKey) :=
  heap.foldl (fun least entry => least.elim (some entry) fun least =>
    some (if dueBefore entry least then entry else least)) none

/-! ## The index -/

/-- Deadlines of terminal threads with their heap entries, a multiset held as a list. -/
structure ExpiryIndex (K : Type) where
  deadlines : Dict StreamKey K
  heap : List (K × StreamKey)
  deriving DecidableEq

def ExpiryIndex.empty : ExpiryIndex K := ⟨.empty, []⟩

/-- Rebuild the heap when it holds too many stale entries. -/
def ExpiryIndex.compacted (index : ExpiryIndex K) : ExpiryIndex K :=
  if index.heap.length > 2 * index.deadlines.size + 64 then
    { index with heap := index.deadlines.entries.map Prod.swap }
  else
    index

/-- Set or clear the deadline of a thread. -/
def ExpiryIndex.set (index : ExpiryIndex K) (key : StreamKey) (deadline : Option K) :
    ExpiryIndex K :=
  ExpiryIndex.compacted <|
    match deadline with
    | none => { index with deadlines := index.deadlines.erase key }
    | some deadline =>
      { deadlines := index.deadlines.insert key deadline
        heap := (deadline, key) :: index.heap }

/-- Pop due entries until one of them is current; each round pops one entry. -/
def ExpiryIndex.popDueWithin (now : K) : Nat → ExpiryIndex K → Option StreamKey × ExpiryIndex K
  | 0, index => (none, index)
  | rounds + 1, index =>
    match heapLeast index.heap with
    | none => (none, index)
    | some (deadline, key) =>
      if now < deadline then
        (none, index)
      else
        let popped := { index with heap := index.heap.erase (deadline, key) }
        if index.deadlines.get? key = some deadline then
          (some key, { popped with deadlines := index.deadlines.erase key })
        else
          popped.popDueWithin now rounds

/-- Pop the next due thread. -/
def ExpiryIndex.popDue (index : ExpiryIndex K) (now : K) : Option StreamKey × ExpiryIndex K :=
  index.popDueWithin now index.heap.length

/-! ## What an update leaves in the index -/

variable {index next : ExpiryIndex K} {key other : StreamKey} {now deadline : K}

@[simp] theorem ExpiryIndex.compacted_deadlines :
    index.compacted.deadlines = index.deadlines := by
  unfold ExpiryIndex.compacted
  split <;> rfl

theorem ExpiryIndex.set_deadlines (requested : Option K) :
    (index.set key requested).deadlines.get? other =
      if other = key then requested else index.deadlines.get? other := by
  cases requested with
  | none => rw [ExpiryIndex.set, compacted_deadlines, Dict.get?_erase]
  | some deadline => rw [ExpiryIndex.set, compacted_deadlines, Dict.get?_insert]

theorem ExpiryIndex.compacted_heap_le :
    index.compacted.heap.length ≤ 2 * index.compacted.deadlines.size + 64 := by
  unfold ExpiryIndex.compacted
  split
  · simp only [List.length_map, Dict.size]
    omega
  · next small => exact Nat.le_of_not_lt small

theorem ExpiryIndex.set_heap_le (requested : Option K) :
    (index.set key requested).heap.length ≤ 2 * (index.set key requested).deadlines.size + 64 :=
  ExpiryIndex.compacted_heap_le

theorem heapLeast_mem {heap : List (K × StreamKey)} {entry : K × StreamKey}
    (least : heapLeast heap = some entry) : entry ∈ heap := by
  induction heap using List.reverseRecOn generalizing entry with
  | nil => cases least
  | append_singleton heap last ih =>
    rw [heapLeast, List.foldl_append] at least
    change (heapLeast heap).elim _ _ = _ at least
    cases before : heapLeast heap with
    | none =>
      rw [before] at least
      cases least
      simp
    | some kept =>
      rw [before] at least
      simp only [Option.elim_some, Option.some.injEq] at least
      split at least
      · simp [← least]
      · exact List.mem_append_left _ (least ▸ ih before)

/-- A popped thread was due at its current deadline, and only its deadline is removed. -/
theorem ExpiryIndex.popDueWithin_eq_some {rounds : Nat}
    (popped : index.popDueWithin now rounds = (some key, next)) :
    (∃ deadline, index.deadlines.get? key = some deadline ∧ deadline ≤ now) ∧
      next.deadlines = index.deadlines.erase key := by
  induction rounds generalizing index with
  | zero => simp [ExpiryIndex.popDueWithin] at popped
  | succ rounds ih =>
    unfold ExpiryIndex.popDueWithin at popped
    split at popped
    · cases popped
    · split at popped
      · cases popped
      · next due =>
          split at popped
          · next current =>
              cases popped
              exact ⟨⟨_, current, not_lt.mp due⟩, rfl⟩
          · have removed := ih popped
            exact removed

/-- Without a due thread only stale heap entries are dropped. -/
theorem ExpiryIndex.popDueWithin_eq_none {rounds : Nat}
    (popped : index.popDueWithin now rounds = (none, next)) :
    next.deadlines = index.deadlines := by
  induction rounds generalizing index with
  | zero =>
    cases popped
    rfl
  | succ rounds ih =>
    unfold ExpiryIndex.popDueWithin at popped
    split at popped
    · cases popped
      rfl
    · split at popped
      · cases popped
        rfl
      · split at popped
        · cases popped
        · have removed := ih popped
          exact removed

end Tinkerfin.Messaging
