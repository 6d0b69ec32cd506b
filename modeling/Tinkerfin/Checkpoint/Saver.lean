import Mathlib.Data.List.Induction
import Tinkerfin.Lib.Dict

/-!
# Pending writes of a checkpoint saver

What the borrowed saver promises about the writes of a checkpoint.  A write goes to the slot of its
owner and its position, and such a slot keeps its first value; the channels that the graph engine
reserves have slots of their own, which take the last value.
-/

namespace Tinkerfin.Checkpoint

/-- One write that waits in a checkpoint. -/
structure PendingWrite (ν : Type) where
  owner : String
  channel : String
  value : ν

/-- The slot that a reserved channel has. -/
def specialSlot? (channel : String) : Option Int :=
  if channel = "__error__" then some (-1)
  else if channel = "__scheduled__" then some (-2)
  else if channel = "__interrupt__" then some (-3)
  else if channel = "__resume__" then some (-4)
  else none

/-- The writes of one checkpoint by owner and position. -/
abbrev WriteSlots (ν : Type) := Dict (String × Int) (String × ν)

namespace WriteSlots

variable {ν : Type} (slots : WriteSlots ν) (owner : String)

/-- Put one write into its slot. -/
def put (position : Nat) (write : String × ν) : WriteSlots ν :=
  let slot := (specialSlot? write.1).getD position
  if 0 ≤ slot ∧ slots.contains (owner, slot) then slots else slots.insert (owner, slot) write

/-- Put the writes of one call into their slots. -/
def putAll (writes : List (String × ν)) : WriteSlots ν :=
  writes.zipIdx.foldl (fun slots (write, position) => slots.put owner position write) slots

/-- The writes as a reader of the checkpoint sees them. -/
def pendingWrites : List (PendingWrite ν) :=
  slots.entries.map fun ((owner, _), (channel, value)) => { owner, channel, value }

variable {slots owner} {position : Nat} {write : String × ν} {writes : List (String × ν)}
  {other : String} {slot : Int}

theorem get?_put_of_owner_ne (different : other ≠ owner) :
    (slots.put owner position write).get? (other, slot) = slots.get? (other, slot) := by
  unfold put
  dsimp only
  split
  · rfl
  · exact Dict.get?_insert_of_ne _ _ fun same => different (Prod.mk.inj same).1

theorem get?_putAll_of_owner_ne (different : other ≠ owner) :
    (slots.putAll owner writes).get? (other, slot) = slots.get? (other, slot) := by
  unfold putAll
  induction writes.zipIdx generalizing slots with
  | nil => rfl
  | cons write rest ih => rw [List.foldl_cons, ih, get?_put_of_owner_ne different]

/-- A single write to an ordinary channel is kept unless its slot has a value. -/
theorem get?_putAll_ordinary {channel : String} {value : ν}
    (ordinary : specialSlot? channel = none) :
    (slots.putAll owner [(channel, value)]).get? (other, slot) =
      (slots.get? (other, slot) <|>
        if other = owner ∧ slot = 0 then some (channel, value) else none) := by
  simp only [putAll, List.zipIdx_singleton, List.foldl_cons, List.foldl_nil, put, ordinary,
    Option.getD_none, Nat.cast_zero, Dict.contains]
  cases stored : slots.get? (owner, 0) with
  | some value =>
    by_cases same : other = owner ∧ slot = 0
    · simp [same, stored]
    · simp [same]
  | none =>
    rw [if_neg (by simp), Dict.get?_insert]
    by_cases same : other = owner ∧ slot = 0
    · simp [same, stored]
    · rw [if_neg fun equal => same (Prod.mk.inj equal), if_neg same, Option.orElse_eq_orElse]
      cases slots.get? (other, slot) <;> rfl

theorem putAll_append_singleton : slots.putAll owner (writes ++ [write]) =
    (slots.putAll owner writes).put owner writes.length write := by
  simp [putAll, List.zipIdx_append, List.foldl_append]

/-- The slot of a reserved channel takes the last write to its channel. -/
theorem get?_putAll_special (negative : slot < 0) :
    (slots.putAll owner writes).get? (owner, slot) =
      ((writes.filter fun write => specialSlot? write.1 = some slot).getLast? <|>
        slots.get? (owner, slot)) := by
  induction writes using List.reverseRecOn with
  | nil => rfl
  | append_singleton writes write ih =>
    rw [putAll_append_singleton, List.filter_append, put]
    by_cases here : specialSlot? write.1 = some slot
    · have special : ¬0 ≤ slot := by omega
      simp [here, special]
    · have other : (specialSlot? write.1).getD writes.length ≠ slot := by
        intro same
        cases special : specialSlot? write.1 with
        | none =>
          rw [special, Option.getD_none] at same
          omega
        | some found =>
          rw [special, Option.getD_some] at same
          exact here (by rw [special, same])
      simp only [here, decide_false, Bool.false_eq_true, not_false_eq_true,
        List.filter_cons_of_neg, List.filter_nil, List.append_nil]
      rw [← ih]
      split
      · rfl
      · exact Dict.get?_insert_of_ne _ _ fun same => other (Prod.mk.inj same).2.symm

variable (slots) in
/-- Every write lies in the slot of its channel, or in an ordinary one. -/
def Slotted : Prop :=
  ∀ owner slot write, slots.get? (owner, slot) = some write →
    ∃ position : Nat, slot = (specialSlot? write.1).getD position

theorem Slotted.putAll (slotted : slots.Slotted) : (slots.putAll owner writes).Slotted := by
  induction writes using List.reverseRecOn with
  | nil => exact slotted
  | append_singleton writes write ih =>
    intro other slot stored found
    rw [putAll_append_singleton, put] at found
    split at found
    · exact ih other slot stored found
    · rw [Dict.get?_insert] at found
      split at found
      · next same =>
          obtain ⟨rfl, rfl⟩ := Prod.mk.inj same
          obtain rfl := Option.some.inj found
          exact ⟨writes.length, rfl⟩
      · exact ih other slot stored found

theorem slotted_empty : Slotted (Dict.empty : WriteSlots ν) := fun _ _ _ found => nomatch found

end WriteSlots

/-- The checkpoints that were saved, by their configuration, and the writes to checkpoints. -/
structure Saver (κ ν : Type) [DecidableEq κ] where
  checkpoints : List κ
  writes : Dict κ (WriteSlots ν) := .empty

namespace Saver

variable {κ ν : Type} [DecidableEq κ] (saver : Saver κ ν) (config : κ)

/-- The slots of a checkpoint. -/
def slots : WriteSlots ν := (saver.writes.get? config).getD .empty

/-- The pending writes of a checkpoint that was saved. -/
def getTuple : Option (List (PendingWrite ν)) :=
  if config ∈ saver.checkpoints then some (saver.slots config).pendingWrites else none

/-- Write for one owner. -/
def putWrites (writes : List (String × ν)) (owner : String) : Saver κ ν :=
  { saver with writes := saver.writes.insert config ((saver.slots config).putAll owner writes) }

variable {saver config} {other : κ}

theorem slots_putWrites (writes : List (String × ν)) (owner : String) :
    (saver.putWrites config writes owner).slots other =
      if other = config then (saver.slots config).putAll owner writes else saver.slots other := by
  simp only [putWrites, slots, Dict.get?_insert]
  split <;> rfl

end Saver

end Tinkerfin.Checkpoint
