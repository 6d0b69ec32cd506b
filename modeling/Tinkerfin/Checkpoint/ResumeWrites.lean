import Tinkerfin.Checkpoint.ResumeReceipt
import Tinkerfin.Lib.Machine

/-!
# Writes that resume a task

A write that resumes a task reads the checkpoint, reserves the prefixes that are new with receipts,
and hands the whole list to the saver.  Writes of different tasks interleave step by step, and a
write may stop for good after any step; the next write of its task then starts from what the saver
holds.
-/

namespace Tinkerfin.Checkpoint

open Messaging (bind_eq_ok)

variable {ω : Type}

/-! ## Writes -/

/-- What a caller writes for a task. -/
structure ResumeWrite (ω : Type) where
  writes : List (String × ResumeValue ω)
  owner : Option LineageMarker
  intentDigest : Option String

namespace ResumeWrite

variable (call : ResumeWrite ω)

def resumes : List (ResumeValue ω) :=
  call.writes.filterMap fun write => if write.1 = resumeChannel then some write.2 else none

/-- The list that the write submits. -/
def values : List ω :=
  match call.resumes with
  | [value] => value.values
  | _ => []

/-- Give the writes to the saver. -/
def write (saver : Saver ResumeSource (SavedWrite ω)) (source : ResumeSource) (task : TaskId) :
    Saver ResumeSource (SavedWrite ω) :=
  saver.putWrites source (call.writes.map fun write => (write.1, .value write.2)) task.text

variable (asJson : ω → Option Json)

/-- Whether the receipt of a prefix admits the list that is submitted. -/
def checkReceipt (previous : List ω) (index : Nat) (receipt : ResumeReceipt) :
    Except ResumeError Unit :=
  if index < previous.length then
    if call.values.length ≤ index then
      .error (.lifecycle "resume cannot truncate a reserved prefix")
    else if some receipt.prefixDigest ≠
        resumePrefixDigest asJson (previous.take (index + 1)) then
      .error (.lifecycle "native resume lost its reserved prefix")
    else .ok ()
  else if receipt.owner ≠ call.owner ∨ receipt.intentDigest ≠ call.intentDigest ∨
      call.values.length ≤ index ∨ some receipt.prefixDigest ≠
        resumePrefixDigest asJson (call.values.take (index + 1)) then
    .error (.lifecycle "task has an unfinished resume reservation")
  else .ok ()

/-- The same for all receipts of a task. -/
def checkReceipts (previous : List ω) : List (Nat × ResumeReceipt) → Except ResumeError Unit
  | [] => .ok ()
  | (index, receipt) :: receipts => do
    call.checkReceipt asJson previous index receipt
    checkReceipts previous receipts

/-- The receipt that a write proposes for a prefix. -/
def proposed (source : ResumeSource) (task : TaskId) (index : Nat) (prefixDigest : String) :
    ResumeReceipt where
  thread := source.thread
  graphNamespace := source.checkpointNs
  checkpointId := source.checkpointId
  taskId := task.text
  index
  prefixDigest
  owner := call.owner
  intentDigest := call.intentDigest

end ResumeWrite

/-! ## Steps -/

/-- Where a write is. -/
inductive ResumePhase (ω : Type)
  | reading
  | reserving (previous : List ω) (receipts : Dict Nat ResumeReceipt) (index : Nat)
  | verifying (previous : List ω) (receipts : Dict Nat ResumeReceipt) (index : Nat)
    (proposed : ResumeReceipt)
  | writing

inductive ResumeProgress (ω : Type)
  | continues (phase : ResumePhase ω)
  | refused (error : ResumeError)
  | written

section Steps

variable (asJson : ω → Option Json) (call : ResumeWrite ω)
  (saver : Saver ResumeSource (SavedWrite ω)) (source : ResumeSource) (task : TaskId)

/-- Read the checkpoint and check the receipts that it has. -/
def readPrevious : ResumeProgress ω :=
  match saver.getTuple source with
  | none =>
    if call.intentDigest.isSome then
      .refused (.lifecycle "approval task has no source checkpoint")
    else .continues .writing
  | some writes =>
    match taskResumeValues writes task.text with
    | .error error => .refused error
    | .ok previous =>
      match resumeReceipts source writes task.text with
      | .error error => .refused error
      | .ok receipts =>
        match call.checkReceipts asJson previous receipts.entries with
        | .error error => .refused error
        | .ok () => .continues (.reserving previous receipts 0)

/-- Consider the prefix at an index and reserve it if it is new. -/
def reserve (previous : List ω) (receipts : Dict Nat ResumeReceipt) (index : Nat) :
    Saver ResumeSource (SavedWrite ω) × ResumeProgress ω :=
  if call.values.length ≤ index then (saver, .continues .writing)
  else
    let digest := resumePrefixDigest asJson (call.values.take (index + 1))
    if index < previous.length then
      match receipts.get? index with
      | none => (saver, .continues (.reserving previous receipts (index + 1)))
      | some existing =>
        if some existing.prefixDigest ≠ digest then
          (saver, .refused (.lifecycle "resume cannot replace a reserved prefix"))
        else (saver, .continues (.reserving previous receipts (index + 1)))
    else
      match digest with
      | none => (saver, .continues (.reserving previous receipts (index + 1)))
      | some prefixDigest =>
        if source.checkpointId = "" ∨ task.text = "" then (saver, .refused .validation)
        else if receipts.contains index then
          (saver, .continues (.reserving previous receipts (index + 1)))
        else
          let proposed := call.proposed source task index prefixDigest
          (saver.putWrites source [(resumeReceiptChannel, .receipt proposed)]
              (receiptOwner task.text index),
            .continues (.verifying previous receipts index proposed))

/-- Read the checkpoint again and look for the receipt. -/
def verify (previous : List ω) (receipts : Dict Nat ResumeReceipt) (index : Nat)
    (proposed : ResumeReceipt) : ResumeProgress ω :=
  match saver.getTuple source with
  | none => .refused (.lifecycle "resume reservation was not durably saved")
  | some writes =>
    match resumeReceipts source writes task.text with
    | .error error => .refused error
    | .ok found =>
      if found.get? index = some proposed then
        .continues (.reserving previous receipts (index + 1))
      else .refused (.lifecycle "resume reservation was not durably saved")

/-- One step of a write. -/
def ResumePhase.step : ResumePhase ω → Saver ResumeSource (SavedWrite ω) × ResumeProgress ω
  | .reading =>
    match call.resumes with
    | [] => (call.write saver source task, .written)
    | [_] =>
      if task.text = nullTaskId then (saver, .continues .writing)
      else (saver, readPrevious asJson call saver source task)
    | _ => (saver, .refused (.lifecycle "task has conflicting resume submissions"))
  | .reserving previous receipts index =>
    reserve asJson call saver source task previous receipts index
  | .verifying previous receipts index proposed =>
    (saver, verify saver source task previous receipts index proposed)
  | .writing => (call.write saver source task, .written)

end Steps

/-- A saver and the writes on their way, at most one for each task. -/
structure ResumeState (ω : Type) where
  saver : Saver ResumeSource (SavedWrite ω)
  flights : Dict (ResumeSource × TaskId) (ResumeWrite ω × ResumePhase ω) := .empty

inductive ResumeEvent (ω : Type)
  /-- A new write of a task; one that had not ended has stopped for good. -/
  | start (source : ResumeSource) (task : TaskId) (call : ResumeWrite ω)
  | step (source : ResumeSource) (task : TaskId)
  | checkpoint (source : ResumeSource)

/-- The state after an event. -/
def ResumeEvent.next (asJson : ω → Option Json) (state : ResumeState ω) :
    ResumeEvent ω → ResumeState ω
  | .start source task call =>
    { state with flights := state.flights.insert (source, task) (call, .reading) }
  | .step source task =>
    match state.flights.get? (source, task) with
    | none => state
    | some (call, phase) =>
      let (saver, progress) := phase.step asJson call state.saver source task
      { saver
        flights :=
          match progress with
          | .continues phase => state.flights.insert (source, task) (call, phase)
          | .refused _ | .written => state.flights.erase (source, task) }
  | .checkpoint source =>
    { state with
      saver := { state.saver with checkpoints := state.saver.checkpoints ++ [source] } }

/-! ## What the records of a task say -/

/-- The receipts of a task and the list that it was resumed with. -/
structure TaskView (ω : Type) where
  receipts : Nat → Option ResumeReceipt
  resumed : List ω

namespace TaskView

variable (view : TaskView ω)

/-- A receipt is kept where there is none yet. -/
def reserve (index : Nat) (receipt : ResumeReceipt) : TaskView ω :=
  { view with
    receipts := fun position =>
      view.receipts position <|> if position = index then some receipt else none }

variable {view} in
theorem reserve_eq_some {index other : Nat} {receipt known : ResumeReceipt} :
    (view.reserve index receipt).receipts other = some known ↔
      view.receipts other = some known ∨
        view.receipts other = none ∧ other = index ∧ receipt = known := by
  unfold reserve
  dsimp only
  cases view.receipts other with
  | some stored => simp
  | none => by_cases same : other = index <;> simp [same]

/-- The last list that a write submits replaces the one that is there. -/
def submit (call : ResumeWrite ω) : TaskView ω :=
  { view with resumed := (call.resumes.getLast?.map (·.values)).getD view.resumed }

end TaskView

section Views

variable (saver : Saver ResumeSource (SavedWrite ω)) (source : ResumeSource) (task : TaskId)

def taskView : TaskView ω where
  receipts := receipt? (saver.slots source) task.text
  resumed := resumed (saver.slots source) task.text

variable {saver source task} {other : ResumeSource} {third : TaskId}

theorem TaskId.text_inj {task third : TaskId} (same : third.text = task.text) : third = task := by
  cases third
  cases task
  cases same
  rfl

theorem taskView_write (call : ResumeWrite ω) :
    taskView (call.write saver source task) source task = (taskView saver source task).submit call := by
  have replaced : ((call.writes.map fun write => (write.1, SavedWrite.value write.2)).filter
      fun write => specialSlot? write.1 = some (-4)).getLast? =
        call.resumes.getLast?.map fun value => (resumeChannel, .value value) := by
    rw [ResumeWrite.resumes]
    induction call.writes using List.reverseRecOn with
    | nil => rfl
    | append_singleton writes write ih =>
      rw [List.map_append, List.filter_append, List.filterMap_append]
      by_cases special : write.1 = resumeChannel
      · simp [special, specialSlot?_eq_resume.mpr rfl]
      · have ordinary : ¬specialSlot? write.1 = some (-4) := by
          rwa [specialSlot?_eq_resume]
        simpa [special, ordinary] using ih
  simp only [taskView, ResumeWrite.write, Saver.slots_putWrites, if_pos, TaskView.submit]
  refine congrArg₂ TaskView.mk (funext fun index => receipt?_putAll_task task _ _ _) ?_
  rw [resumed, WriteSlots.get?_putAll_special (by decide), replaced]
  cases call.resumes.getLast? <;> rfl

theorem taskView_write_of_ne (call : ResumeWrite ω) (different : (other, third) ≠ (source, task)) :
    taskView (call.write saver source task) other third = taskView saver other third := by
  simp only [taskView, ResumeWrite.write, Saver.slots_putWrites]
  split
  · next same =>
      subst same
      have apart : third.text ≠ task.text := fun equal =>
        different (congrArg _ (TaskId.text_inj equal))
      rw [resumed_putAll_of_ne _ apart]
      congr 1
      exact funext fun index => receipt?_putAll_task task _ _ _
  · rfl

variable {index : Nat} {receipt : ResumeReceipt}

theorem taskView_reserve (orderly : Orderly (saver.slots source)) :
    taskView (saver.putWrites source [(resumeReceiptChannel, .receipt receipt)]
        (receiptOwner task.text index)) source task =
      (taskView saver source task).reserve index receipt := by
  simp only [taskView, Saver.slots_putWrites, if_pos]
  rw [resumed_putAll_of_ne _ (task.apart _ _)]
  congr 1
  funext position
  simp only [receipt?_putAll_receipt orderly, true_and]

theorem taskView_reserve_of_ne (orderly : Orderly (saver.slots source))
    (different : (other, third) ≠ (source, task)) :
    taskView (saver.putWrites source [(resumeReceiptChannel, .receipt receipt)]
        (receiptOwner task.text index)) other third = taskView saver other third := by
  simp only [taskView, Saver.slots_putWrites]
  split
  · next same =>
      subst same
      have apart : third.text ≠ task.text := fun equal =>
        different (congrArg _ (TaskId.text_inj equal))
      rw [resumed_putAll_of_ne _ (third.apart _ _)]
      congr 1
      funext position
      rw [receipt?_putAll_receipt orderly, if_neg fun same => apart same.1]
      cases receipt? (saver.slots other) third.text position <;> rfl
  · rfl

end Views

/-! ## What a write on its way relies on -/

section Writes

variable (asJson : ω → Option Json) (call : ResumeWrite ω) (saved : Prop) (task : TaskId)
  (view : TaskView ω)

/-- A receipt is of the write and of the list that it submits. -/
structure ResumeWrite.Owns (index : Nat) (receipt : ResumeReceipt) : Prop where
  owner : receipt.owner = call.owner
  intent : receipt.intentDigest = call.intentDigest
  within : index < call.values.length
  digest : resumePrefixDigest asJson (call.values.take (index + 1)) = some receipt.prefixDigest

/-- The write has considered the prefixes below `next`, and those below `reserved` may have got a
receipt from it. -/
structure Reserving (previous : List ω) (receipts : Dict Nat ResumeReceipt)
    (next reserved : Nat) : Prop where
  single : ∃ value, call.resumes = [value]
  real : task.text ≠ nullTaskId
  present : saved
  unchanged : view.resumed = previous
  snapshot : ∀ index receipt, receipts.get? index = some receipt →
    view.receipts index = some receipt
  admitted : ∀ index receipt, receipts.get? index = some receipt →
    call.checkReceipt asJson previous index receipt = .ok ()
  added : ∀ index receipt, view.receipts index = some receipt → receipts.get? index = none →
    index < reserved ∧ previous.length ≤ index ∧ call.Owns asJson index receipt
  kept : ∀ index receipt, index < next → index < previous.length →
    receipts.get? index = some receipt →
      resumePrefixDigest asJson (call.values.take (index + 1)) = some receipt.prefixDigest
  covered : ∀ index prefixDigest, index < next → previous.length ≤ index →
    resumePrefixDigest asJson (call.values.take (index + 1)) = some prefixDigest →
      (view.receipts index).isSome

/-- All receipts of the task agree with the list that the write is about to submit. -/
structure Ready : Prop where
  single : ∃ value, call.resumes = [value]
  holds : ∀ index receipt, view.receipts index = some receipt → index < call.values.length ∧
    resumePrefixDigest asJson (call.values.take (index + 1)) = some receipt.prefixDigest
  owns : ∀ index receipt, view.receipts index = some receipt → view.resumed.length ≤ index →
    call.Owns asJson index receipt
  covered : call.intentDigest.isSome → task.text ≠ nullTaskId → ∀ index prefixDigest,
    view.resumed.length ≤ index → index < call.values.length →
      resumePrefixDigest asJson (call.values.take (index + 1)) = some prefixDigest →
        (view.receipts index).isSome

def ResumePhase.Sound : ResumePhase ω → Prop
  | .reading => True
  | .reserving previous receipts index =>
    Reserving asJson call saved task view previous receipts index index
  | .verifying previous receipts index proposed =>
    Reserving asJson call saved task view previous receipts index (index + 1) ∧
      previous.length ≤ index ∧ call.Owns asJson index proposed
  | .writing => Ready asJson call task view

variable {asJson call saved task view} in
theorem ResumePhase.Sound.mono {phase : ResumePhase ω} {later : Prop}
    (sound : phase.Sound asJson call saved task view) (kept : saved → later) :
    phase.Sound asJson call later task view := by
  cases phase with
  | reading => trivial
  | reserving => exact { sound with present := kept sound.present }
  | verifying => exact ⟨{ sound.1 with present := kept sound.1.present }, sound.2⟩
  | writing => exact sound

variable {asJson call saved task view} {previous : List ω} {receipts : Dict Nat ResumeReceipt}
  {index : Nat} {receipt : ResumeReceipt}

theorem checkReceipt_ok (checked : call.checkReceipt asJson previous index receipt = .ok ()) :
    (index < previous.length → index < call.values.length ∧
      resumePrefixDigest asJson (previous.take (index + 1)) = some receipt.prefixDigest) ∧
    (previous.length ≤ index → call.Owns asJson index receipt) := by
  unfold ResumeWrite.checkReceipt at checked
  constructor
  · intro old
    rw [if_pos old] at checked
    split at checked
    · cases checked
    · next enough =>
        split at checked
        · cases checked
        · next same => exact ⟨by omega, (not_not.mp same).symm⟩
  · intro new
    rw [if_neg (by omega)] at checked
    split at checked
    · cases checked
    · next same =>
        simp only [not_or, not_not, ne_eq] at same
        exact ⟨same.1, same.2.1, by omega, same.2.2.2.symm⟩

theorem checkReceipts_ok {entries : List (Nat × ResumeReceipt)}
    (checked : call.checkReceipts asJson previous entries = .ok ()) :
    ∀ entry ∈ entries, call.checkReceipt asJson previous entry.1 entry.2 = .ok () := by
  induction entries with
  | nil => exact fun _ member => absurd member List.not_mem_nil
  | cons entry entries ih =>
    obtain ⟨⟨⟩, first, rest⟩ := bind_eq_ok.mp checked
    rw [List.forall_mem_cons]
    exact ⟨first, ih rest⟩

/-- A receipt that the task has agrees with the list where the write has come past it. -/
theorem Reserving.holds {next reserved : Nat}
    (reserving : Reserving asJson call saved task view previous receipts next reserved)
    (past : call.values.length ≤ next) (stored : view.receipts index = some receipt) :
    index < call.values.length ∧
      resumePrefixDigest asJson (call.values.take (index + 1)) = some receipt.prefixDigest := by
  cases read : receipts.get? index with
  | none =>
    obtain ⟨-, -, owns⟩ := reserving.added index receipt stored read
    exact ⟨owns.within, owns.digest⟩
  | some known =>
    obtain rfl := Option.some.inj ((reserving.snapshot index known read).symm.trans stored)
    obtain ⟨old, new⟩ := checkReceipt_ok (reserving.admitted index known read)
    by_cases earlier : index < previous.length
    · have within := (old earlier).1
      exact ⟨within, reserving.kept index known (within.trans_le past) earlier read⟩
    · have owns := new (Nat.le_of_not_lt earlier)
      exact ⟨owns.within, owns.digest⟩

theorem Reserving.owns {next reserved : Nat}
    (reserving : Reserving asJson call saved task view previous receipts next reserved)
    (stored : view.receipts index = some receipt) (beyond : previous.length ≤ index) :
    call.Owns asJson index receipt := by
  cases read : receipts.get? index with
  | none => exact (reserving.added index receipt stored read).2.2
  | some known =>
    obtain rfl := Option.some.inj ((reserving.snapshot index known read).symm.trans stored)
    exact (checkReceipt_ok (reserving.admitted index known read)).2 beyond

theorem Reserving.ready {next reserved : Nat}
    (reserving : Reserving asJson call saved task view previous receipts next reserved)
    (past : call.values.length ≤ next) : Ready asJson call task view where
  single := reserving.single
  holds _ _ stored := reserving.holds past stored
  owns _ _ stored beyond := reserving.owns stored (reserving.unchanged ▸ beyond)
  covered _ _ index prefixDigest beyond within digest :=
    reserving.covered index prefixDigest (within.trans_le past) (reserving.unchanged ▸ beyond) digest

/-- A new receipt of the write is one that it may have added. -/
theorem Reserving.reserved
    (reserving : Reserving asJson call saved task view previous receipts index index)
    (fresh : view.receipts index = none) (beyond : previous.length ≤ index)
    (owns : call.Owns asJson index receipt) :
    Reserving asJson call saved task (view.reserve index receipt) previous receipts index
      (index + 1) :=
  { reserving with
    snapshot := fun other known read =>
      TaskView.reserve_eq_some.mpr (.inl (reserving.snapshot other known read))
    added := fun other known stored unread => by
      rcases TaskView.reserve_eq_some.mp stored with before | ⟨-, rfl, rfl⟩
      · obtain ⟨below, rest⟩ := reserving.added other known before unread
        exact ⟨below.trans (Nat.lt_succ_self _), rest⟩
      · exact ⟨Nat.lt_succ_self _, beyond, owns⟩
    covered := fun other prefixDigest below after digest => by
      obtain ⟨known, stored⟩ := Option.isSome_iff_exists.mp
        (reserving.covered other prefixDigest below after digest)
      rw [TaskView.reserve_eq_some.mpr (.inl stored)]
      rfl }

/-- A prefix that needs no new receipt is passed. -/
theorem Reserving.pass {first reserved : Nat}
    (reserving : Reserving asJson call saved task view previous receipts index first)
    (later : first ≤ reserved)
    (kept : ∀ receipt, index < previous.length → receipts.get? index = some receipt →
      resumePrefixDigest asJson (call.values.take (index + 1)) = some receipt.prefixDigest)
    (covered : ∀ prefixDigest, previous.length ≤ index →
      resumePrefixDigest asJson (call.values.take (index + 1)) = some prefixDigest →
        (view.receipts index).isSome) :
    Reserving asJson call saved task view previous receipts (index + 1) reserved :=
  { reserving with
    added := fun other receipt stored fresh => by
      obtain ⟨below, rest⟩ := reserving.added other receipt stored fresh
      exact ⟨below.trans_le later, rest⟩
    kept := fun other receipt below earlier read => by
      rcases Nat.lt_succ_iff_lt_or_eq.mp below with below | rfl
      · exact reserving.kept other receipt below earlier read
      · exact kept receipt earlier read
    covered := fun other prefixDigest below beyond digest => by
      rcases Nat.lt_succ_iff_lt_or_eq.mp below with below | rfl
      · exact reserving.covered other prefixDigest below beyond digest
      · exact covered prefixDigest beyond digest }

/-! ## Steps keep this -/

variable {saver : Saver ResumeSource (SavedWrite ω)} {source : ResumeSource}

variable (asJson call saver source task) in
/-- What one step of a write can do. -/
inductive Stepped (phase : ResumePhase ω) :
    Saver ResumeSource (SavedWrite ω) × ResumeProgress ω → Prop
  | refuses (error : ResumeError) : Stepped phase (saver, .refused error)
  | continues (next : ResumePhase ω)
      (sound : next.Sound asJson call (source ∈ saver.checkpoints) task
        (taskView saver source task)) :
      Stepped phase (saver, .continues next)
  | reserves (index : Nat) (receipt : ResumeReceipt) (next : ResumePhase ω)
      (real : task.text ≠ nullTaskId) (present : source ∈ saver.checkpoints)
      (fresh : (taskView saver source task).receipts index = none)
      (beyond : (taskView saver source task).resumed.length ≤ index)
      (sound : next.Sound asJson call (source ∈ saver.checkpoints) task
        ((taskView saver source task).reserve index receipt)) :
      Stepped phase (saver.putWrites source [(resumeReceiptChannel, .receipt receipt)]
        (receiptOwner task.text index), .continues next)
  | writes (ready : phase = .writing ∧ Ready asJson call task (taskView saver source task) ∨
        call.resumes = []) :
      Stepped phase (call.write saver source task, .written)

theorem readPrevious_stepped {phase : ResumePhase ω} (single : ∃ value, call.resumes = [value])
    (real : task.text ≠ nullTaskId) (orderly : Orderly (saver.slots source))
    (present : ∀ index receipt, (taskView saver source task).receipts index = some receipt →
      source ∈ saver.checkpoints) :
    Stepped asJson call task saver source phase
      (saver, readPrevious asJson call saver source task) := by
  unfold readPrevious Saver.getTuple
  split
  · next absent =>
      have unsaved : source ∉ saver.checkpoints := fun member => by
        rw [if_pos member] at absent
        cases absent
      split
      · exact .refuses _
      · next native =>
          have none (index : Nat) (receipt : ResumeReceipt) :
              (taskView saver source task).receipts index ≠ some receipt :=
            fun stored => unsaved (present index receipt stored)
          exact .continues _ ⟨single, fun _ _ stored => absurd stored (none _ _),
            fun _ _ stored => absurd stored (none _ _), fun managed => absurd managed native⟩
  · next writes read =>
      have saved : source ∈ saver.checkpoints := by
        by_contra unsaved
        rw [if_neg unsaved] at read
        cases read
      rw [if_pos saved] at read
      obtain rfl := Option.some.inj read
      rw [taskResumeValues_eq orderly]
      dsimp only
      cases scanned : resumeReceipts source (saver.slots source).pendingWrites task.text with
      | error error => exact .refuses _
      | ok receipts =>
        dsimp only
        split
        · exact .refuses _
        · next checked =>
            have known := resumeReceipts_ok orderly scanned
            refine .continues _ ⟨single, real, saved, rfl, fun index receipt read => ?_,
              fun index receipt read => ?_, fun index receipt stored fresh => ?_,
              fun _ _ below => absurd below (Nat.not_lt_zero _),
              fun _ _ below => absurd below (Nat.not_lt_zero _)⟩
            · exact (known index).symm.trans read
            · exact checkReceipts_ok checked (index, receipt) (Dict.get?_eq_some_iff.mp read)
            · rw [known index] at fresh
              cases stored.symm.trans fresh

theorem reserve_stepped {phase : ResumePhase ω}
    (reserving : Reserving asJson call (source ∈ saver.checkpoints) task
      (taskView saver source task) previous receipts index index) :
    Stepped asJson call task saver source phase
      (reserve asJson call saver source task previous receipts index) := by
  unfold reserve
  split
  · next past => exact .continues _ (reserving.ready past)
  · next within =>
      dsimp only
      split
      · next earlier =>
          cases read : receipts.get? index with
          | none =>
            refine .continues _ (reserving.pass (Nat.le_succ _) (fun _ _ other => ?_)
              fun prefixDigest beyond digest => absurd earlier (Nat.not_lt_of_le beyond))
            cases read.symm.trans other
          | some existing =>
            dsimp only
            split
            · exact .refuses _
            · next same =>
                refine .continues _ (reserving.pass (Nat.le_succ _) (fun _ _ other => ?_)
                  fun prefixDigest beyond digest => absurd earlier (Nat.not_lt_of_le beyond))
                obtain rfl := Option.some.inj (read.symm.trans other)
                exact (not_not.mp same).symm
      · next new =>
          have beyond : previous.length ≤ index := Nat.le_of_not_lt new
          cases digest : resumePrefixDigest asJson (call.values.take (index + 1)) with
          | none =>
            refine .continues _ (reserving.pass (Nat.le_succ _)
              (fun _ earlier => absurd earlier new) fun _ _ other => ?_)
            cases digest.symm.trans other
          | some prefixDigest =>
            dsimp only
            split
            · exact .refuses _
            · split
              · next known =>
                  obtain ⟨receipt, read⟩ := Option.isSome_iff_exists.mp known
                  refine .continues _ (reserving.pass (Nat.le_succ _)
                    (fun _ earlier => absurd earlier new) fun _ _ _ => ?_)
                  rw [reserving.snapshot index receipt read]
                  rfl
              · next unknown =>
                  have unread : receipts.get? index = none := by
                    by_contra some
                    exact unknown (Option.isSome_iff_ne_none.mpr some)
                  have fresh : (taskView saver source task).receipts index = none := by
                    by_contra some
                    obtain ⟨receipt, stored⟩ := Option.ne_none_iff_exists'.mp some
                    exact absurd (reserving.added index receipt stored unread).1
                      (Nat.lt_irrefl _)
                  have owns : call.Owns asJson index
                      (call.proposed source task index prefixDigest) :=
                    ⟨rfl, rfl, Nat.lt_of_not_le within, digest⟩
                  refine .reserves index _ _ reserving.real reserving.present fresh
                    (reserving.unchanged ▸ beyond) ⟨?_, beyond, owns⟩
                  exact reserving.reserved fresh beyond owns

theorem verify_stepped {phase : ResumePhase ω} {proposed : ResumeReceipt}
    (reserving : Reserving asJson call (source ∈ saver.checkpoints) task
      (taskView saver source task) previous receipts index (index + 1))
    (beyond : previous.length ≤ index) (orderly : Orderly (saver.slots source)) :
    Stepped asJson call task saver source phase
      (saver, verify saver source task previous receipts index proposed) := by
  unfold verify Saver.getTuple
  rw [if_pos reserving.present]
  dsimp only
  cases scanned : resumeReceipts source (saver.slots source).pendingWrites task.text with
  | error error => exact .refuses _
  | ok found =>
    dsimp only
    split
    · next seen =>
        have stored : (taskView saver source task).receipts index = some proposed :=
          (resumeReceipts_ok orderly scanned index).symm.trans seen
        refine .continues _ (reserving.pass le_rfl
          (fun _ earlier => absurd earlier (Nat.not_lt_of_le beyond)) fun _ _ _ => ?_)
        rw [stored]
        rfl
    · exact .refuses _

theorem step_stepped {phase : ResumePhase ω}
    (sound : phase.Sound asJson call (source ∈ saver.checkpoints) task
      (taskView saver source task)) (orderly : Orderly (saver.slots source))
    (justified : ∀ index receipt, (taskView saver source task).receipts index = some receipt →
      task.text ≠ nullTaskId ∧ source ∈ saver.checkpoints) :
    Stepped asJson call task saver source phase (phase.step asJson call saver source task) := by
  cases phase with
  | reading =>
    rw [ResumePhase.step]
    split
    · next none => exact .writes (.inr none)
    · next value single =>
        split
        · next null =>
            have none (index : Nat) (receipt : ResumeReceipt) :
                (taskView saver source task).receipts index ≠ some receipt :=
              fun stored => (justified index receipt stored).1 null
            exact .continues _ ⟨⟨value, single⟩, fun _ _ stored => absurd stored (none _ _),
              fun _ _ stored => absurd stored (none _ _), fun _ real => absurd null real⟩
        · next real =>
          exact readPrevious_stepped ⟨value, single⟩ real orderly
            fun index receipt stored => (justified index receipt stored).2
    · exact .refuses _
  | reserving previous receipts index => exact reserve_stepped sound
  | verifying previous receipts index proposed => exact verify_stepped sound.1 sound.2.1 orderly
  | writing => exact .writes (.inl ⟨rfl, sound⟩)

end Writes

/-! ## Runs -/

section Runs

variable {asJson : ω → Option Json} {state : ResumeState ω}

variable (asJson) in
/-- Every receipt is of a real task and a saved checkpoint and agrees with the list that is there,
and every write on its way relies on what holds. -/
structure ResumeState.Sound (state : ResumeState ω) : Prop where
  orderly : ∀ source, Orderly (state.saver.slots source)
  justified : ∀ source task index receipt,
    (taskView state.saver source task).receipts index = some receipt →
      task.text ≠ nullTaskId ∧ source ∈ state.saver.checkpoints
  agrees : ∀ source task index receipt,
    (taskView state.saver source task).receipts index = some receipt →
      index < (taskView state.saver source task).resumed.length →
        resumePrefixDigest asJson ((taskView state.saver source task).resumed.take (index + 1)) =
          some receipt.prefixDigest
  flights : ∀ source task call phase,
    state.flights.get? (source, task) = some (call, phase) →
      phase.Sound asJson call (source ∈ state.saver.checkpoints) task
        (taskView state.saver source task)

/-- An event at one task leaves what holds of the others. -/
theorem ResumeState.Sound.update (sound : state.Sound asJson) {after : ResumeState ω}
    {source : ResumeSource} {task : TaskId}
    (checkpoints : after.saver.checkpoints = state.saver.checkpoints)
    (orderly : ∀ other, Orderly (after.saver.slots other))
    (frame : ∀ other third, (other, third) ≠ (source, task) →
      taskView after.saver other third = taskView state.saver other third)
    (others : ∀ key ≠ (source, task), after.flights.get? key = state.flights.get? key)
    (justified : ∀ index receipt,
      (taskView after.saver source task).receipts index = some receipt →
        task.text ≠ nullTaskId ∧ source ∈ state.saver.checkpoints)
    (agrees : ∀ index receipt,
      (taskView after.saver source task).receipts index = some receipt →
        index < (taskView after.saver source task).resumed.length →
          resumePrefixDigest asJson
            ((taskView after.saver source task).resumed.take (index + 1)) =
              some receipt.prefixDigest)
    (own : ∀ call phase, after.flights.get? (source, task) = some (call, phase) →
      phase.Sound asJson call (source ∈ state.saver.checkpoints) task
        (taskView after.saver source task)) :
    after.Sound asJson where
  orderly := orderly
  justified other third index receipt stored := by
    rw [checkpoints]
    by_cases here : (other, third) = (source, task)
    · obtain ⟨rfl, rfl⟩ := Prod.mk.inj here
      exact justified index receipt stored
    · rw [frame other third here] at stored
      exact sound.justified other third index receipt stored
  agrees other third index receipt stored within := by
    by_cases here : (other, third) = (source, task)
    · obtain ⟨rfl, rfl⟩ := Prod.mk.inj here
      exact agrees index receipt stored within
    · rw [frame other third here] at stored within ⊢
      exact sound.agrees other third index receipt stored within
  flights other third call phase found := by
    rw [checkpoints]
    by_cases here : (other, third) = (source, task)
    · obtain ⟨rfl, rfl⟩ := Prod.mk.inj here
      exact own call phase found
    · rw [frame other third here]
      rw [others _ here] at found
      exact sound.flights other third call phase found

theorem orderly_write (orderly : ∀ source, Orderly (state.saver.slots source))
    (call : ResumeWrite ω) (source : ResumeSource) (task : TaskId) (other : ResumeSource) :
    Orderly ((call.write state.saver source task).slots other) := by
  rw [ResumeWrite.write, Saver.slots_putWrites]
  split
  · exact (orderly source).putAll_task task _
  · exact orderly other

theorem orderly_reserve (orderly : ∀ source, Orderly (state.saver.slots source))
    (source other : ResumeSource) (taskId : String) (index : Nat) (receipt : ResumeReceipt) :
    Orderly ((state.saver.putWrites source [(resumeReceiptChannel, .receipt receipt)]
      (receiptOwner taskId index)).slots other) := by
  rw [Saver.slots_putWrites]
  split
  · exact (orderly source).putAll_receipt
  · exact orderly other

theorem ResumeState.Sound.step {source : ResumeSource} {task : TaskId} {call : ResumeWrite ω}
    {phase : ResumePhase ω} (sound : state.Sound asJson)
    (found : state.flights.get? (source, task) = some (call, phase)) :
    Stepped asJson call task state.saver source phase
      (phase.step asJson call state.saver source task) :=
  step_stepped (sound.flights source task call phase found) (sound.orderly source)
    (sound.justified source task)

variable (asJson) in
theorem next_step {source : ResumeSource} {task : TaskId} {call : ResumeWrite ω}
    {phase : ResumePhase ω} (found : state.flights.get? (source, task) = some (call, phase)) :
    (ResumeEvent.step source task).next asJson state =
      { saver := (phase.step asJson call state.saver source task).1
        flights :=
          match (phase.step asJson call state.saver source task).2 with
          | .continues phase => state.flights.insert (source, task) (call, phase)
          | .refused _ | .written => state.flights.erase (source, task) } := by
  rw [ResumeEvent.next, found]

theorem Ready.submit {call : ResumeWrite ω} {task : TaskId} {view : TaskView ω}
    (ready : Ready asJson call task view) :
    view.submit call = { view with resumed := call.values } := by
  obtain ⟨value, single⟩ := ready.single
  simp [TaskView.submit, ResumeWrite.values, single]

theorem TaskView.submit_of_resumes_nil {call : ResumeWrite ω} (view : TaskView ω)
    (none : call.resumes = []) : view.submit call = view := by
  simp [TaskView.submit, none]

theorem next_sound (sound : state.Sound asJson) (event : ResumeEvent ω) :
    (event.next asJson state).Sound asJson := by
  cases event with
  | start source task call =>
    refine sound.update rfl sound.orderly (fun _ _ _ => rfl)
      (fun key different => Dict.get?_insert_of_ne _ _ different)
      (sound.justified source task) (sound.agrees source task) fun other phase found => ?_
    rw [ResumeEvent.next, Dict.get?_insert, if_pos rfl] at found
    obtain ⟨rfl, rfl⟩ := Prod.mk.inj (Option.some.inj found)
    trivial
  | checkpoint source =>
    have kept : ∀ other, other ∈ state.saver.checkpoints →
        other ∈ state.saver.checkpoints ++ [source] := fun _ => List.mem_append_left _
    refine ⟨sound.orderly, fun other task index receipt stored => ?_, sound.agrees,
      fun other task call phase found => ?_⟩
    · exact (sound.justified other task index receipt stored).imp_right (kept other)
    · exact (sound.flights other task call phase found).mono (kept other)
  | step source task =>
    cases found : state.flights.get? (source, task) with
    | none =>
      rw [ResumeEvent.next, found]
      exact sound
    | some flight =>
      obtain ⟨call, phase⟩ := flight
      have stepped := sound.step found
      rw [next_step asJson found]
      generalize phase.step asJson call state.saver source task = result at stepped
      have inserted (next : ResumePhase ω) :
          (state.flights.insert (source, task) (call, next)).get? (source, task) =
            some (call, next) := by rw [Dict.get?_insert, if_pos rfl]
      have erased : (state.flights.erase (source, task)).get? (source, task) = none := by
        rw [Dict.get?_erase, if_pos rfl]
      cases stepped with
      | refuses error =>
        refine sound.update rfl sound.orderly (fun _ _ _ => rfl)
          (fun key different => Dict.get?_erase_of_ne _ different)
          (sound.justified source task) (sound.agrees source task)
          fun other phase other => ?_
        cases erased.symm.trans other
      | continues next nextSound =>
        refine sound.update rfl sound.orderly (fun _ _ _ => rfl)
          (fun key different => Dict.get?_insert_of_ne _ _ different)
          (sound.justified source task) (sound.agrees source task)
          fun other phase other => ?_
        obtain ⟨rfl, rfl⟩ := Prod.mk.inj (Option.some.inj ((inserted next).symm.trans other))
        exact nextSound
      | reserves index receipt next real present fresh beyond nextSound =>
        have viewed : taskView (state.saver.putWrites source
            [(resumeReceiptChannel, .receipt receipt)] (receiptOwner task.text index))
              source task = (taskView state.saver source task).reserve index receipt :=
          taskView_reserve (sound.orderly source)
        refine sound.update rfl (orderly_reserve sound.orderly source · task.text index receipt)
          (fun _ _ different => taskView_reserve_of_ne (sound.orderly source) different)
          (fun key different => Dict.get?_insert_of_ne _ _ different)
          (fun position known stored => ?_) (fun position known stored within => ?_)
          fun other phase other => ?_
        · exact ⟨real, present⟩
        · dsimp only at stored within ⊢
          rw [viewed] at stored within ⊢
          rcases TaskView.reserve_eq_some.mp stored with before | ⟨-, rfl, -⟩
          · exact sound.agrees source task position known before within
          · exact absurd within (Nat.not_lt_of_le beyond)
        · obtain ⟨rfl, rfl⟩ :=
            Prod.mk.inj (Option.some.inj ((inserted next).symm.trans other))
          dsimp only
          rwa [viewed]
      | writes ready =>
        have viewed : taskView (call.write state.saver source task) source task =
            (taskView state.saver source task).submit call := taskView_write call
        refine sound.update rfl (orderly_write sound.orderly call source task)
          (fun _ _ different => taskView_write_of_ne call different)
          (fun key different => Dict.get?_erase_of_ne _ different)
          (fun index receipt stored => ?_) (fun index receipt stored within => ?_)
          fun other phase other => ?_
        · dsimp only at stored
          rw [viewed] at stored
          exact sound.justified source task index receipt stored
        · dsimp only at stored within ⊢
          rw [viewed] at stored within ⊢
          rcases ready with ⟨-, ready⟩ | none
          · rw [ready.submit]
            exact (ready.holds index receipt stored).2
          · rw [TaskView.submit_of_resumes_nil _ none] at within ⊢
            exact sound.agrees source task index receipt stored within
        · cases erased.symm.trans other

/-- What one event does to the records of a task. -/
theorem next_view (sound : state.Sound asJson) (event : ResumeEvent ω) (source : ResumeSource)
    (task : TaskId) :
    let before := taskView state.saver source task
    let after := taskView (event.next asJson state).saver source task
    after = before ∨
      (∃ index receipt, before.receipts index = none ∧ after = before.reserve index receipt) ∨
        ∃ call, event = .step source task ∧
          state.flights.get? (source, task) = some (call, .writing) ∧
            Ready asJson call task before ∧ after = before.submit call := by
  intro before after
  cases event with
  | start _ _ _ => exact .inl rfl
  | checkpoint _ => exact .inl rfl
  | step place other =>
    cases found : state.flights.get? (place, other) with
    | none =>
      have same : after = before := by
        simp only [after, ResumeEvent.next, found, before]
      exact .inl same
    | some flight =>
      obtain ⟨call, phase⟩ := flight
      have stepped := sound.step found
      have moved : after = taskView (phase.step asJson call state.saver place other).1
          source task := by simp only [after, next_step asJson found]
      rw [moved]
      generalize phase.step asJson call state.saver place other = result at stepped
      by_cases here : (source, task) = (place, other)
      · obtain ⟨rfl, rfl⟩ := Prod.mk.inj here
        cases stepped with
        | refuses _ => exact .inl rfl
        | continues _ _ => exact .inl rfl
        | reserves index receipt _ _ _ fresh _ _ =>
          exact .inr (.inl ⟨index, receipt, fresh,
            taskView_reserve (sound.orderly source)⟩)
        | writes ready =>
          rcases ready with ⟨rfl, ready⟩ | none
          · exact .inr (.inr ⟨call, rfl, found, ready, taskView_write call⟩)
          · refine .inl ((taskView_write call).trans ?_)
            exact TaskView.submit_of_resumes_nil _ none
      · left
        cases stepped with
        | refuses _ => rfl
        | continues _ _ => rfl
        | reserves _ _ _ _ _ _ _ _ => exact taskView_reserve_of_ne (sound.orderly place) here
        | writes _ => exact taskView_write_of_ne call here

variable (asJson) in
/-- Later records keep the receipts of earlier ones and the prefixes that have one. -/
structure TaskView.Keeps (before after : TaskView ω) : Prop where
  receipts : ∀ index receipt, before.receipts index = some receipt →
    after.receipts index = some receipt
  prefixes : ∀ index receipt, before.receipts index = some receipt →
    index < before.resumed.length → index < after.resumed.length ∧
      resumePrefixDigest asJson (after.resumed.take (index + 1)) = some receipt.prefixDigest

theorem TaskView.Keeps.trans {first second third : TaskView ω} (early : first.Keeps asJson second)
    (late : second.Keeps asJson third) : first.Keeps asJson third where
  receipts index receipt stored := late.receipts index receipt (early.receipts index receipt stored)
  prefixes index receipt stored within := late.prefixes index receipt
    (early.receipts index receipt stored) (early.prefixes index receipt stored within).1

theorem ResumeState.Sound.keeps (sound : state.Sound asJson) (source : ResumeSource)
    (task : TaskId) :
    (taskView state.saver source task).Keeps asJson (taskView state.saver source task) where
  receipts _ _ stored := stored
  prefixes index receipt stored within :=
    ⟨within, sound.agrees source task index receipt stored within⟩

theorem next_keeps (sound : state.Sound asJson) (event : ResumeEvent ω) (source : ResumeSource)
    (task : TaskId) :
    (taskView state.saver source task).Keeps asJson
      (taskView (event.next asJson state).saver source task) := by
  obtain same | ⟨index, receipt, -, reserved⟩ | ⟨call, -, -, ready, submitted⟩ :=
    next_view sound event source task
  · rw [same]
    exact sound.keeps source task
  · rw [reserved]
    exact ⟨fun other known stored => TaskView.reserve_eq_some.mpr (.inl stored),
      (sound.keeps source task).prefixes⟩
  · rw [submitted, ready.submit]
    exact ⟨fun _ _ stored => stored, fun other known stored _ => ready.holds other known stored⟩

theorem run_sound (sound : state.Sound asJson) (events : List (ResumeEvent ω)) :
    (Machine.run (ResumeEvent.next asJson) state events).Sound asJson := by
  have preserved : ∀ (state : ResumeState ω) (event : ResumeEvent ω), state.Sound asJson →
      (event.next asJson state).Sound asJson := fun _ event sound => next_sound sound event
  exact Machine.run_invariant preserved sound

theorem run_keeps (sound : state.Sound asJson) (events : List (ResumeEvent ω))
    (source : ResumeSource) (task : TaskId) :
    (taskView state.saver source task).Keeps asJson
      (taskView (Machine.run (ResumeEvent.next asJson) state events).saver source task) := by
  let Kept (later : ResumeState ω) : Prop := later.Sound asJson ∧
    (taskView state.saver source task).Keeps asJson (taskView later.saver source task)
  have both : Kept (Machine.run (ResumeEvent.next asJson) state events) :=
    Machine.run_invariant (fun _ event ⟨sound, keeps⟩ =>
      ⟨next_sound sound event, keeps.trans (next_keeps sound event source task)⟩)
      ⟨sound, sound.keeps source task⟩
  exact both.2

/-- A saver without writes and nothing on its way. -/
def ResumeState.initial (checkpoints : List ResumeSource) : ResumeState ω where
  saver := { checkpoints }

theorem initial_sound (checkpoints : List ResumeSource) :
    (ResumeState.initial checkpoints : ResumeState ω).Sound asJson where
  orderly _ := orderly_empty
  justified _ _ _ _ stored := nomatch stored
  agrees _ _ _ _ stored := nomatch stored
  flights _ _ _ _ found := nomatch found

/-- The owner of a receipt has one write. -/
theorem receipts_unique {slots : WriteSlots (SavedWrite ω)} (orderly : Orderly slots)
    (taskId : String) (index : Nat) :
    (slots.pendingWrites.filter fun write => write.owner = receiptOwner taskId index).length ≤
      1 := by
  have rows : slots.entries.filter
      (fun entry => decide (entry.1.1 = receiptOwner taskId index)) =
        slots.entries.filter fun entry => entry.1 = (receiptOwner taskId index, 0) := by
    refine List.filter_congr fun entry member => ?_
    obtain ⟨⟨owner, slot⟩, stored⟩ := entry
    rw [decide_eq_decide]
    constructor
    · rintro rfl
      obtain ⟨rfl, -⟩ := orderly.receipts _ _ _ _ (Dict.get?_eq_some_iff.mpr member)
      rfl
    · exact fun same => (Prod.mk.inj same).1
  rw [WriteSlots.pendingWrites, List.filter_map, List.length_map]
  refine (congrArg List.length rows).trans_le ?_
  rw [Dict.filter_entries_key, List.length_map]
  exact Option.length_toList_le

end Runs

/-- An event is the step by which a write submits its list. -/
def ResumeEvent.Completes (event : ResumeEvent ω) (state : ResumeState ω) (source : ResumeSource)
    (task : TaskId) (call : ResumeWrite ω) : Prop :=
  event = .step source task ∧ state.flights.get? (source, task) = some (call, .writing)

/-- Along every run a prefix has at most one receipt, receipts and the prefixes that have one stay as
they are, the list of a task changes only where a write submits its own, a reserved prefix appears
only from a write with the owner, the intent and the digest of its receipt, and the prefixes that a
write with an intent adds to the list of a real task have its receipts. -/
theorem receipts_own_prefixes (asJson : ω → Option Json) (checkpoints : List ResumeSource)
    (events : List (ResumeEvent ω)) (source : ResumeSource) (task : TaskId) :
    let state := Machine.run (ResumeEvent.next asJson) (.initial checkpoints) events
    let before := taskView state.saver source task
    (∀ index, ((state.saver.slots source).pendingWrites.filter fun write =>
      write.owner = receiptOwner task.text index).length ≤ 1) ∧
    (∀ later, before.Keeps asJson
      (taskView (Machine.run (ResumeEvent.next asJson) state later).saver source task)) ∧
    ∀ event : ResumeEvent ω,
      let after := taskView (event.next asJson state).saver source task
      (after.resumed ≠ before.resumed →
        ∃ call, event.Completes state source task call ∧ after.resumed = call.values) ∧
      (∀ index receipt, before.receipts index = some receipt → before.resumed.length ≤ index →
        index < after.resumed.length → ∃ call, event.Completes state source task call ∧
          after.resumed = call.values ∧ call.Owns asJson index receipt) ∧
      ∀ call, event.Completes state source task call → after.resumed = call.values ∧
        (call.intentDigest.isSome → task.text ≠ nullTaskId → ∀ index prefixDigest,
          before.resumed.length ≤ index → index < after.resumed.length →
            resumePrefixDigest asJson (after.resumed.take (index + 1)) = some prefixDigest →
              ∃ receipt, after.receipts index = some receipt ∧
                call.Owns asJson index receipt) := by
  intro state before
  have sound : state.Sound asJson := run_sound (initial_sound checkpoints) events
  refine ⟨receipts_unique (sound.orderly source) task.text,
    fun later => run_keeps sound later source task, fun event => ?_⟩
  intro after
  have moved := next_view sound event source task
  refine ⟨fun changed => ?_, fun index receipt stored beyond within => ?_, fun call completes => ?_⟩
  · obtain same | ⟨_, _, -, reserved⟩ | ⟨call, step, found, ready, submitted⟩ := moved
    · exact absurd (congrArg TaskView.resumed same) changed
    · have resumed : after.resumed = before.resumed := by rw [show after = _ from reserved]; rfl
      exact absurd resumed changed
    · exact ⟨call, ⟨step, found⟩, congrArg TaskView.resumed (submitted.trans ready.submit)⟩
  · obtain same | ⟨_, _, -, reserved⟩ | ⟨call, step, found, ready, submitted⟩ := moved
    · have resumed : after.resumed = before.resumed := congrArg TaskView.resumed same
      exact absurd within (Nat.not_lt_of_le (resumed ▸ beyond))
    · have resumed : after.resumed = before.resumed := by rw [show after = _ from reserved]; rfl
      exact absurd within (Nat.not_lt_of_le (resumed ▸ beyond))
    · exact ⟨call, ⟨step, found⟩, congrArg TaskView.resumed (submitted.trans ready.submit),
        ready.owns index receipt stored beyond⟩
  · obtain ⟨rfl, found⟩ := completes
    have ready : Ready asJson call task before := sound.flights source task call .writing found
    have submitted : after = { before with resumed := call.values } := by
      have written : after = taskView (call.write state.saver source task) source task := by
        simp only [after, next_step asJson found, ResumePhase.step]
      rw [written, taskView_write, ready.submit]
    have resumed : after.resumed = call.values := congrArg TaskView.resumed submitted
    refine ⟨resumed, fun managed real index prefixDigest beyond within digest => ?_⟩
    rw [resumed] at within digest
    obtain ⟨receipt, stored⟩ := Option.isSome_iff_exists.mp
      (ready.covered managed real index prefixDigest beyond within digest)
    exact ⟨receipt, (congrFun (congrArg TaskView.receipts submitted) index).trans stored,
      ready.owns index receipt stored beyond⟩

/-! ## A list that a native caller left -/

def sampleSource : ResumeSource where
  thread := { «namespace» := "space", threadId := "thread" }
  checkpointNs := ""
  checkpointId := "checkpoint"

def sampleTask : TaskId where
  text := "task"
  apart taskId index same := by
    have heads := congrArg (fun text => text.toList[1]?) same
    simp [receiptOwner, receiptOwnerPrefix, String.toList_append] at heads

/-- A native caller resumes with a value that is no JSON. -/
def nativeWrite : ResumeWrite (Option Json) where
  writes := [(resumeChannel, .list [none])]
  owner := none
  intentDigest := none

/-- A managed caller answers in its place. -/
def managedWrite : ResumeWrite (Option Json) where
  writes := [(resumeChannel, .list [some (.string "approve")])]
  owner := none
  intentDigest := some "intent"

/-- All steps of the first write and those of the second but the last. -/
def replacingRun : List (ResumeEvent (Option Json)) :=
  .start sampleSource sampleTask nativeWrite ::
    List.replicate 4 (.step sampleSource sampleTask) ++
    .start sampleSource sampleTask managedWrite ::
      List.replicate 3 (.step sampleSource sampleTask)

/-- A write with an intent that replaces an entry without a receipt makes none. -/
theorem replaced_prefix_without_receipt :
    let state := Machine.run (ResumeEvent.next id) (.initial [sampleSource]) replacingRun
    let event : ResumeEvent (Option Json) := .step sampleSource sampleTask
    let after := taskView (event.next id state).saver sampleSource sampleTask
    event.Completes state sampleSource sampleTask managedWrite ∧
      managedWrite.intentDigest = some "intent" ∧
      after.resumed = [some (.string "approve")] ∧
      (resumePrefixDigest id (after.resumed.take 1)).isSome ∧ after.receipts 0 = none := by
  refine ⟨⟨rfl, ?_⟩, rfl, ?_, ?_, ?_⟩
  · rfl
  · rfl
  · rfl
  · rfl

end Tinkerfin.Checkpoint
