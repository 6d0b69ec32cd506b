import Tinkerfin.Checkpoint.Saver
import Tinkerfin.Lib.Bytes
import Tinkerfin.Lib.Json
import Tinkerfin.Messaging.Contract

/-!
# Receipts of resume prefixes

A task that is resumed keeps the list of all values it was resumed with, and a later invocation
submits the whole list again.  A receipt records, for one prefix of the list, which run and which
intent submitted it.  Receipts lie beside the writes of the task, each under an owner of its own.
-/

namespace Tinkerfin.Checkpoint

open Messaging (ThreadIdentity RunIdentity bind_eq_ok)

/-! ## Records -/

inductive ResumeError
  | lifecycle (message : String)
  | validation
  deriving DecidableEq

inductive LineageRole
  | native
  | planning
  deriving DecidableEq

/-- The managed run that writes. -/
structure LineageMarker extends RunIdentity where
  parentRunId : Option String
  runtimeProfile : String
  role : LineageRole
  deriving DecidableEq

/-- A checkpoint of a thread. -/
structure ResumeSource where
  thread : ThreadIdentity
  checkpointNs : String
  checkpointId : String
  deriving DecidableEq

/-- Reserves one prefix of a task for the invocation that submitted it first. -/
structure ResumeReceipt where
  thread : ThreadIdentity
  graphNamespace : String
  checkpointId : String
  taskId : String
  index : Nat
  prefixDigest : String
  owner : Option LineageMarker
  intentDigest : Option String
  deriving DecidableEq

def resumeReceiptChannel : String := "_tinkerfin_resume_receipt"

def resumeChannel : String := "__resume__"

def receiptOwnerPrefix : String := "tinkerfin-resume-receipt:"

/-- The owner of the receipt of one prefix. -/
def receiptOwner (taskId : String) (index : Nat) : String :=
  receiptOwnerPrefix ++ taskId ++ ":" ++ toString index

/-- Identifies a task of the graph engine, which never uses the owners of receipts. -/
structure TaskId where
  text : String
  apart : ∀ taskId index, text ≠ receiptOwner taskId index

instance : DecidableEq TaskId := fun first second =>
  if same : first.text = second.text then .isTrue (by cases first; cases second; cases same; rfl)
  else .isFalse fun equal => same (congrArg TaskId.text equal)

/-- The task that stands for input from outside the graph. -/
def nullTaskId : String := "00000000-0000-0000-0000-000000000000"

/-! ## Values -/

section Values

variable {ω : Type}

/-- A value that resumes a task: a list, or a single value. -/
inductive ResumeValue (ω : Type)
  | list (values : List ω)
  | scalar (value : ω)

def ResumeValue.values : ResumeValue ω → List ω
  | .list values => values
  | .scalar value => [value]

/-- What the saver holds: a value of the engine, or a receipt. -/
inductive SavedWrite (ω : Type)
  | value (value : ResumeValue ω)
  | receipt (receipt : ResumeReceipt)

/-- Text of one character with other than printable ASCII characters escaped. -/
def asciiEscape (char : Char) : List Char :=
  let unit (code : Nat) : List Char := '\\' :: 'u' ::
    [Sha256.hexDigit (code / 4096 % 16), Sha256.hexDigit (code / 256 % 16),
      Sha256.hexDigit (code / 16 % 16), Sha256.hexDigit (code % 16)]
  if 32 ≤ char.toNat ∧ char.toNat < 127 then [char]
  else if char.toNat < 65536 then unit char.toNat
  else unit (55296 + (char.toNat - 65536) / 1024) ++ unit (56320 + (char.toNat - 65536) % 1024)

/-- Digest of a prefix of finite JSON values; other values have no text of their own. -/
def resumePrefixDigest (asJson : ω → Option Json) (values : List ω) : Option String :=
  (values.mapM asJson).map fun items =>
    Sha256.hexdigest (Bytes.utf8 (String.ofList
      ((Json.dumps (.array items)).toList.flatMap asciiEscape)))

/-- The list that a task was resumed with. -/
def taskResumeValues (writes : List (PendingWrite (SavedWrite ω))) (taskId : String) :
    Except ResumeError (List ω) :=
  match writes.filterMap fun write =>
      match write.value with
      | .value value =>
        if write.owner = taskId ∧ write.channel = resumeChannel then some value else none
      | .receipt _ => none with
  | [] => .ok []
  | [value] => .ok value.values
  | _ => .error (.lifecycle "task has conflicting native resume writes")

/-- The number that a canonical decimal text denotes. -/
def canonicalIndex? (text : String) : Option Nat :=
  let index := Nat.ofDigitChars 10 text.toList 0
  if toString index = text then some index else none

/-- Add what one pending write says about the receipts of a task. -/
def scanReceipt (source : ResumeSource) (taskId : String) (found : Dict Nat ResumeReceipt)
    (write : PendingWrite (SavedWrite ω)) : Except ResumeError (Dict Nat ResumeReceipt) :=
  match write.owner.toList.dropPrefix? (receiptOwnerPrefix ++ taskId ++ ":").toList with
  | none => .ok found
  | some suffix =>
    match canonicalIndex? (String.ofList suffix) with
    | none => .error (.lifecycle "task has invalid resume ownership records")
    | some index =>
      if write.channel ≠ resumeReceiptChannel ∨ found.contains index then
        .error (.lifecycle "task has invalid resume ownership records")
      else
        match write.value with
        | .value _ => .error .validation
        | .receipt receipt =>
          if receipt.thread ≠ source.thread ∨
              receipt.graphNamespace ≠ source.checkpointNs ∨
              receipt.checkpointId ≠ source.checkpointId ∨ receipt.taskId ≠ taskId ∨
              receipt.index ≠ index ∨
              receipt.owner.any (·.toThreadIdentity ≠ source.thread) then
            .error (.lifecycle "resume ownership belongs to another task source")
          else .ok (found.insert index receipt)

/-- The receipts of a task by index. -/
def resumeReceipts (source : ResumeSource) (writes : List (PendingWrite (SavedWrite ω)))
    (taskId : String) : Except ResumeError (Dict Nat ResumeReceipt) :=
  writes.foldlM (scanReceipt source taskId) .empty

end Values

/-! ## Owners -/

theorem canonicalIndex?_eq_some {text : String} {index : Nat} :
    canonicalIndex? text = some index ↔ text = toString index := by
  unfold canonicalIndex?
  constructor
  · intro read
    dsimp only at read
    split at read
    · next same => rw [← Option.some.inj read, same]
    · cases read
  · rintro rfl
    have digits : Nat.ofDigitChars 10 (toString index).toList 0 = index := by
      rw [Nat.toString_eq_ofList_toDigits, String.toList_ofList, Nat.ofDigitChars_ten_toDigits]
    rw [digits, if_pos rfl]

theorem colon_notMem_toString (index : Nat) : ':' ∉ (toString index).toList := by
  rw [Nat.toString_eq_ofList_toDigits, String.toList_ofList]
  intro member
  have digit := Nat.isDigit_of_mem_toDigits (by decide) (by decide) member
  cases digit

theorem receiptOwner_eq_append (taskId : String) (index : Nat) :
    receiptOwner taskId index = (receiptOwnerPrefix ++ taskId ++ ":") ++ toString index := rfl

/-- An owner determines the task and the index of its receipt. -/
theorem receiptOwner_inj {taskId other : String} {index position : Nat} :
    receiptOwner taskId index = receiptOwner other position ↔
      taskId = other ∧ index = position := by
  constructor
  · intro same
    -- The index is what follows the last colon.
    have tail : ∀ taskId index, (receiptOwner taskId index).toList.reverse.takeWhile (· ≠ ':') =
        (toString index).toList.reverse := by
      intro taskId index
      have digits : ∀ char ∈ (toString index).toList.reverse, decide (char ≠ ':') = true := by
        intro char member
        have unlike : char ≠ ':' := fun equal =>
          colon_notMem_toString index (equal ▸ List.mem_reverse.mp member)
        exact decide_eq_true unlike
      rw [receiptOwner, String.toList_append, String.toList_append, List.reverse_append,
        List.takeWhile_append_of_pos digits, List.reverse_append]
      exact List.append_nil _
    have read : ∀ taskId index, canonicalIndex? (String.ofList
        ((receiptOwner taskId index).toList.reverse.takeWhile (· ≠ ':')).reverse) =
          some index := by
      intro taskId index
      rw [tail, List.reverse_reverse, String.ofList_toList, canonicalIndex?_eq_some]
    have indices : index = position := by
      have both := read taskId index
      rw [same, read other position] at both
      exact (Option.some.inj both).symm
    subst indices
    rw [receiptOwner, receiptOwner, String.append_left_inj, String.append_left_inj,
      String.append_right_inj] at same
    exact ⟨same, rfl⟩
  · rintro ⟨rfl, rfl⟩
    rfl

/-! ## Reading -/

section Reading

variable {ω : Type} {slots : WriteSlots (SavedWrite ω)} {source : ResumeSource}
  {taskId : String} {found result : Dict Nat ResumeReceipt} {write : PendingWrite (SavedWrite ω)}

/-- The receipt in the slot of its owner. -/
def receipt? (slots : WriteSlots (SavedWrite ω)) (taskId : String) (index : Nat) :
    Option ResumeReceipt :=
  match slots.get? (receiptOwner taskId index, 0) with
  | some (_, .receipt receipt) => some receipt
  | _ => none

/-- The list in the slot of a task. -/
def resumed (slots : WriteSlots (SavedWrite ω)) (taskId : String) : List ω :=
  match slots.get? (taskId, -4) with
  | some (_, .value value) => value.values
  | _ => []

/-- Writes lie in the slots of their channels, and owners of receipts have one slot. -/
structure Orderly (slots : WriteSlots (SavedWrite ω)) : Prop where
  slotted : slots.Slotted
  receipts : ∀ taskId index slot stored,
    slots.get? (receiptOwner taskId index, slot) = some stored →
      slot = 0 ∧ ∃ receipt, stored = (resumeReceiptChannel, .receipt receipt)

theorem specialSlot?_eq_resume {channel : String} :
    specialSlot? channel = some (-4) ↔ channel = resumeChannel := by
  unfold specialSlot? resumeChannel
  constructor
  · intro special
    split_ifs at special with isError isScheduled isInterrupt isResume
    · cases special
    · cases special
    · cases special
    · exact isResume
  · rintro rfl
    rfl

/-- Reading the pending writes finds the list of a task. -/
theorem taskResumeValues_eq (orderly : Orderly slots) :
    taskResumeValues slots.pendingWrites taskId = .ok (resumed slots taskId) := by
  have rows : (slots.pendingWrites.filterMap fun write =>
      match write.value with
      | .value value =>
        if write.owner = taskId ∧ write.channel = resumeChannel then some value else none
      | .receipt _ => none) =
        (slots.get? (taskId, -4)).toList.filterMap fun stored =>
          match stored.2 with
          | .value value => some value
          | .receipt _ => none := by
    rw [WriteSlots.pendingWrites, List.filterMap_map]
    rw [Dict.filterMap_entries_key slots (taskId, -4)]
    · cases stored : slots.get? (taskId, -4) with
      | none => rfl
      | some write =>
        obtain ⟨position, place⟩ := orderly.slotted _ _ _ stored
        have channel : write.1 = resumeChannel := by
          rw [← specialSlot?_eq_resume]
          cases special : specialSlot? write.1 with
          | none =>
            rw [special, Option.getD_none] at place
            omega
          | some slot => rw [special, Option.getD_some] at place; rw [place]
        obtain ⟨channelName, value⟩ := write
        obtain rfl := channel
        cases value <;> simp
    · rintro ⟨⟨owner, slot⟩, channel, value⟩ member elsewhere
      cases value with
      | receipt _ => rfl
      | value value =>
        refine if_neg ?_
        rintro ⟨rfl, rfl⟩
        obtain ⟨position, place⟩ := orderly.slotted _ _ _ (Dict.get?_eq_some_iff.mpr member)
        exact elsewhere (congrArg _ place)
  unfold taskResumeValues resumed
  rw [rows]
  cases slots.get? (taskId, -4) with
  | none => rfl
  | some write =>
    obtain ⟨channel, value⟩ := write
    cases value <;> rfl

theorem dropPrefix?_receiptOwner (owner taskId : String) (suffix : List Char) :
    owner.toList.dropPrefix? (receiptOwnerPrefix ++ taskId ++ ":").toList = some suffix ↔
      owner = receiptOwnerPrefix ++ taskId ++ ":" ++ String.ofList suffix := by
  have parts (front : String) :
      (front ++ String.ofList suffix).toList = front.toList ++ suffix := by
    rw [String.toList_append, String.toList_ofList]
  rw [List.dropPrefix?_eq_some_iff, ← String.toList_inj, parts]
  constructor
  · rintro ⟨front, same, equal⟩
    rw [same, eq_of_beq equal]
  · intro same
    exact ⟨_, same, beq_self_eq_true _⟩

/-- What one write adds to the receipts of a task. -/
theorem scanReceipt_ok (scanned : scanReceipt source taskId found write = .ok result)
    (index : Nat) (receipt : ResumeReceipt) :
    result.get? index = some receipt ↔ found.get? index = some receipt ∨
      write.owner = receiptOwner taskId index ∧ write.value = .receipt receipt := by
  unfold scanReceipt at scanned
  split at scanned
  · next foreign =>
      obtain rfl := Except.ok.inj scanned
      refine ⟨.inl, fun either => either.resolve_right fun both => ?_⟩
      have dropped := (dropPrefix?_receiptOwner write.owner taskId (toString index).toList).mpr
        (by rw [both.1, String.ofList_toList]; rfl)
      rw [foreign] at dropped
      cases dropped
  · next suffix dropped =>
      have owned := (dropPrefix?_receiptOwner _ _ _).mp dropped
      split at scanned
      · cases scanned
      · next place canonical =>
          rw [canonicalIndex?_eq_some.mp canonical] at owned
          split at scanned
          · cases scanned
          · next regular =>
              split at scanned
              · cases scanned
              · next stored value =>
                  split at scanned
                  · cases scanned
                  · obtain rfl := Except.ok.inj scanned
                    have fresh : found.get? place = none := by
                      by_contra present
                      exact regular (.inr (Option.isSome_iff_ne_none.mpr present))
                    rw [Dict.get?_insert, value, owned, ← receiptOwner_eq_append,
                      receiptOwner_inj]
                    by_cases same : index = place
                    · subst same
                      simp [fresh]
                    · simp [same, Ne.symm same]

theorem foldlM_scanReceipt_ok {writes : List (PendingWrite (SavedWrite ω))}
    (scanned : writes.foldlM (scanReceipt source taskId) found = .ok result)
    (index : Nat) (receipt : ResumeReceipt) :
    result.get? index = some receipt ↔ found.get? index = some receipt ∨
      ∃ write ∈ writes, write.owner = receiptOwner taskId index ∧
        write.value = .receipt receipt := by
  induction writes generalizing found with
  | nil =>
    obtain rfl := Except.ok.inj scanned
    simp
  | cons write writes ih =>
    rw [List.foldlM_cons] at scanned
    obtain ⟨next, first, rest⟩ := bind_eq_ok.mp scanned
    rw [ih rest, scanReceipt_ok first]
    simp only [List.mem_cons, exists_eq_or_imp, or_assoc]

/-- A scan that succeeds returns exactly the receipts in the slots. -/
theorem resumeReceipts_ok (orderly : Orderly slots)
    (scanned : resumeReceipts source slots.pendingWrites taskId = .ok found) (index : Nat) :
    found.get? index = receipt? slots taskId index := by
  refine Option.ext fun receipt => ?_
  rw [foldlM_scanReceipt_ok scanned]
  have fresh : (Dict.empty : Dict Nat ResumeReceipt).get? index ≠ some receipt := nofun
  simp only [fresh, false_or, WriteSlots.pendingWrites, List.mem_map, receipt?]
  constructor
  · rintro ⟨_, ⟨⟨⟨owner, slot⟩, channel, value⟩, member, rfl⟩, rfl, rfl⟩
    have stored := Dict.get?_eq_some_iff.mpr member
    obtain ⟨rfl, -⟩ := orderly.receipts _ _ _ _ stored
    rw [stored]
  · intro stored
    split at stored
    · next channel kept present =>
        obtain rfl := Option.some.inj stored
        exact ⟨_, ⟨_, Dict.get?_eq_some_iff.mp present, rfl⟩, rfl, rfl⟩
    · cases stored

/-! ## Writing -/

theorem receipt?_putAll_task (task : TaskId) (writes : List (String × SavedWrite ω))
    (other : String) (index : Nat) :
    receipt? (slots.putAll task.text writes) other index = receipt? slots other index := by
  rw [receipt?, WriteSlots.get?_putAll_of_owner_ne (task.apart other index).symm, receipt?]

theorem resumed_putAll_of_ne {owner : String} (writes : List (String × SavedWrite ω))
    (different : taskId ≠ owner) :
    resumed (slots.putAll owner writes) taskId = resumed slots taskId := by
  rw [resumed, WriteSlots.get?_putAll_of_owner_ne different, resumed]

theorem Orderly.putAll_task (orderly : Orderly slots) (task : TaskId)
    (writes : List (String × SavedWrite ω)) : Orderly (slots.putAll task.text writes) where
  slotted := orderly.slotted.putAll
  receipts other index slot stored found := by
    rw [WriteSlots.get?_putAll_of_owner_ne (task.apart other index).symm] at found
    exact orderly.receipts _ _ _ _ found

variable {receipt : ResumeReceipt} {index : Nat}

theorem specialSlot?_receipt : specialSlot? resumeReceiptChannel = none := by decide

/-- A receipt is kept unless its slot has one. -/
theorem receipt?_putAll_receipt (orderly : Orderly slots) (other : String) (position : Nat) :
    receipt? (slots.putAll (receiptOwner taskId index)
        [(resumeReceiptChannel, .receipt receipt)]) other position =
      (receipt? slots other position <|>
        if other = taskId ∧ position = index then some receipt else none) := by
  unfold receipt?
  rw [WriteSlots.get?_putAll_ordinary specialSlot?_receipt]
  cases stored : slots.get? (receiptOwner other position, 0) with
  | some write =>
    obtain ⟨-, kept, rfl⟩ := orderly.receipts _ _ _ _ stored
    rfl
  | none =>
    by_cases here : other = taskId ∧ position = index
    · simp [here]
    · have apart : receiptOwner other position ≠ receiptOwner taskId index :=
        fun same => here (receiptOwner_inj.mp same)
      simp [here, apart]

theorem Orderly.putAll_receipt (orderly : Orderly slots) :
    Orderly (slots.putAll (receiptOwner taskId index)
      [(resumeReceiptChannel, .receipt receipt)]) where
  slotted := orderly.slotted.putAll
  receipts other position slot stored found := by
    rw [WriteSlots.get?_putAll_ordinary specialSlot?_receipt] at found
    cases before : slots.get? (receiptOwner other position, slot) with
    | some write =>
      rw [before] at found
      exact orderly.receipts _ _ _ _ (before.trans found)
    | none =>
      rw [before] at found
      have new : (if receiptOwner other position = receiptOwner taskId index ∧ slot = 0
        then some (resumeReceiptChannel, SavedWrite.receipt receipt) else none) =
          some stored := found
      split at new
      · next here => exact ⟨here.2, receipt, (Option.some.inj new).symm⟩
      · cases new

theorem orderly_empty : Orderly (Dict.empty : WriteSlots (SavedWrite ω)) where
  slotted := WriteSlots.slotted_empty
  receipts _ _ _ _ found := nomatch found

end Reading

end Tinkerfin.Checkpoint
