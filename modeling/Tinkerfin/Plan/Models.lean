import Mathlib.Data.List.DropRight
import Tinkerfin.Lib.Bytes
import Tinkerfin.Lib.Dict
import Tinkerfin.Lib.Json

/-!
# Plan state

The values of the planning workflow as checkpoints keep them.  Text with constraints is a type of
its own, so that only the request identity, which enters the state without validation, can change
when a saved state is read.
-/

namespace Tinkerfin.Plan

/-! ## Constrained text -/

inductive PlanError
  | configuration (message : String)
  | structuredOutput (message : String)
  | runtime (message : String)
  | value (message : String)
  | validation
  deriving DecidableEq

/-- Whitespace in the sense of Unicode. -/
def isWhitespace (char : Char) : Bool :=
  let code := char.toNat
  (9 ≤ code && code ≤ 13) || code == 32 || code == 0x85 || code == 0xa0 || code == 0x1680 ||
    (0x2000 ≤ code && code ≤ 0x200a) || code == 0x2028 || code == 0x2029 || code == 0x202f ||
    code == 0x205f || code == 0x3000

/-- The text without whitespace at either end. -/
def trim (text : String) : String :=
  String.ofList ((text.toList.dropWhile isWhitespace).rdropWhile isWhitespace)

theorem trim_trim (text : String) : trim (trim text) = trim text := by
  have inner (chars : List Char) :
      ((chars.dropWhile isWhitespace).rdropWhile isWhitespace).dropWhile isWhitespace =
        (chars.dropWhile isWhitespace).rdropWhile isWhitespace := by
    rw [List.dropWhile_eq_self_iff]
    intro nonempty
    have kept := List.rdropWhile_prefix isWhitespace (chars.dropWhile isWhitespace)
    have head := List.dropWhile_get_zero_not isWhitespace chars
      (Nat.lt_of_lt_of_le nonempty kept.length_le)
    rw [kept.getElem nonempty]
    exact head
  rw [trim, trim, String.toList_ofList, inner, List.rdropWhile_idempotent]

/-- Text that validation has trimmed. -/
structure NonBlankText where
  text : String
  trimmed : trim text = text
  nonblank : text ≠ ""
  deriving DecidableEq

def NonBlankText.validate (text : String) : Except PlanError NonBlankText :=
  if blank : trim text = "" then .error .validation
  else .ok { text := trim text, trimmed := trim_trim text, nonblank := blank }

/-- The identity of a step or a question. -/
structure PlanStepId where
  text : String
  first : text.toList.head?.any Char.isAlphanum
  rest : text.toList.all fun char => char.isAlphanum || char == '.' || char == '_' || char == '-'
  deriving DecidableEq

/-! ## Records -/

inductive PlanStatus
  | planning
  | awaitingClarification
  | awaitingReview
  | awaitingInput
  | approved
  | cancelled
  deriving DecidableEq

inductive PlanReviewAction
  | approve
  | cancel
  | edit
  | respond
  | reject
  deriving DecidableEq

inductive PlanHandoffPhase
  | pending
  | accepted
  | completed
  deriving DecidableEq

inductive EffectiveMode
  | default
  | plan
  deriving DecidableEq

/-- The content contract of a draft. -/
structure PlanSchemaReference where
  fingerprint : String
  mediaType : String
  deriving DecidableEq

structure PlanDraft (C : Type) where
  revision : Nat
  contentSchema : PlanSchemaReference
  content : C
  revision_pos : 0 < revision

/-- A draft that was approved. -/
abbrev ConfirmedPlan (C : Type) := PlanDraft C

/-- The boundary from an approved plan to its execution, with evidence that fits its phase. -/
structure PlanHandoff where
  messageId : NonBlankText
  digest : String
  phase : PlanHandoffPhase := .pending
  nativeCheckpointId : Option NonBlankText := none
  completedCheckpointId : Option NonBlankText := none
  accepted : nativeCheckpointId = none ↔ phase = .pending
  completed : completedCheckpointId.isSome ↔ phase = .completed

/-- One answer, or an explicit skip. -/
structure RequirementAnswer where
  questionId : PlanStepId
  answerType : NonBlankText
  value : Option (List (String × Json)) := none
  skipped : Bool := false
  resolved : skipped = value.isNone

structure PendingClarification where
  form : List (String × Json)
  responseSchema : List (String × Json)
  contractDigest : String

structure ClarificationExchange where
  form : List (String × Json)
  answers : List RequirementAnswer
  answered : answers ≠ []

/-- The state that a checkpoint keeps. -/
structure PlanState (C : Type) where
  status : PlanStatus := .planning
  effectiveMode : EffectiveMode := .plan
  requestMessageId : Option String := none
  pendingClarification : Option PendingClarification := none
  clarificationHistory : List ClarificationExchange := []
  draft : Option (PlanDraft C) := none
  pendingEdit : Option C := none
  confirmedPlan : Option (ConfirmedPlan C) := none
  handoff : Option PlanHandoff := none
  feedback : List NonBlankText := []
  revision : Nat := 0
  reviewAction : Option PlanReviewAction := none
  reviewReason : Option NonBlankText := none

/-! ## Content contracts -/

/-- A host-selected content model: its dump, and what validation makes of a dump. -/
structure PlanContentBinding (C : Type) where
  reference : PlanSchemaReference
  dump : C → Json
  /-- The validated dump in JSON form. -/
  restore : C → Except PlanError C
  /-- The validated dump in Python form. -/
  freeze : C → Except PlanError C

variable {C : Type}

/-- Content survives its dumps. -/
structure PlanContentBinding.RoundTrips (binding : PlanContentBinding C) : Prop where
  restore : ∀ content, binding.restore content = .ok content
  freeze : ∀ content, binding.freeze content = .ok content

def PlanDraft.validate (read : C → Except PlanError C) (draft : PlanDraft C) :
    Except PlanError (PlanDraft C) :=
  (read draft.content).map fun content => { draft with content }

/-- The validated plan state of a checkpoint. -/
def readPlanState (binding : PlanContentBinding C) (saved : Option (PlanState C)) :
    Except PlanError (PlanState C) :=
  match saved with
  | none => .ok {}
  | some saved => do
    let requestMessageId ← saved.requestMessageId.mapM NonBlankText.validate
    let draft ← saved.draft.mapM (PlanDraft.validate binding.restore)
    let pendingEdit ← saved.pendingEdit.mapM binding.restore
    let confirmedPlan ← saved.confirmedPlan.mapM (PlanDraft.validate binding.restore)
    return { saved with
      requestMessageId := requestMessageId.map (·.text), draft, pendingEdit, confirmedPlan }

/-- An identity that validation keeps. -/
def Canonical (id : String) : Prop := trim id = id ∧ id ≠ ""

theorem Canonical.validate {id : String} (canonical : Canonical id) :
    (NonBlankText.validate id).map (·.text) = .ok id := by
  rw [NonBlankText.validate, dif_neg (by rw [canonical.1]; exact canonical.2)]
  exact congrArg Except.ok canonical.1

theorem NonBlankText.canonical (value : NonBlankText) : Canonical value.text :=
  ⟨value.trimmed, value.nonblank⟩

variable {binding : PlanContentBinding C}

/-- Where content survives its dumps, reading only validates the request identity. -/
theorem readPlanState_some (faithful : binding.RoundTrips) (saved : PlanState C) :
    readPlanState binding (some saved) =
      (saved.requestMessageId.mapM NonBlankText.validate).map fun id =>
        { saved with requestMessageId := id.map (·.text) } := by
  have contents (content : Option C) : content.mapM binding.restore = .ok content := by
    cases content with
    | none => rfl
    | some content =>
      rw [Option.mapM_some, faithful.restore]
      rfl
  have drafts (draft : Option (PlanDraft C)) :
      draft.mapM (PlanDraft.validate binding.restore) = .ok draft := by
    cases draft with
    | none => rfl
    | some draft =>
      rw [Option.mapM_some, PlanDraft.validate, faithful.restore]
      rfl
  rw [readPlanState, contents, drafts, drafts]
  cases saved.requestMessageId.mapM NonBlankText.validate <;> rfl

/-- A state with a canonical request identity is read as it was saved. -/
theorem readPlanState_canonical (faithful : binding.RoundTrips) {saved : PlanState C}
    (canonical : ∀ id, saved.requestMessageId = some id → Canonical id) :
    readPlanState binding (some saved) = .ok saved := by
  rw [readPlanState_some faithful]
  cases requested : saved.requestMessageId with
  | none =>
    cases saved
    cases requested
    rfl
  | some id =>
    have validated := (canonical id requested).validate
    rw [Option.mapM_some]
    cases checked : NonBlankText.validate id with
    | error error =>
      rw [checked] at validated
      cases validated
    | ok value =>
      rw [checked] at validated
      have same : value.text = id := Except.ok.inj validated
      cases saved
      cases requested
      simp [same, Except.map]

theorem readPlanState_ok (faithful : binding.RoundTrips) {saved current : PlanState C}
    (read : readPlanState binding (some saved) = .ok current) :
    ∃ id, current = { saved with requestMessageId := id } ∧
      ∀ text, id = some text → Canonical text := by
  rw [readPlanState_some faithful] at read
  cases checked : saved.requestMessageId.mapM NonBlankText.validate with
  | error error =>
    rw [checked] at read
    cases read
  | ok value =>
    rw [checked] at read
    obtain rfl := Except.ok.inj read
    refine ⟨_, rfl, fun text same => ?_⟩
    obtain ⟨value, rfl, rfl⟩ := Option.map_eq_some_iff.mp same
    exact value.canonical

/-! ## Markdown content -/

/-- Markdown that is not blank, kept as it is. -/
structure MarkdownPlanContent where
  markdown : String
  nonblank : Bytes.strip markdown ≠ ""

def MarkdownPlanContent.validate (markdown : String) : Except PlanError MarkdownPlanContent :=
  if blank : Bytes.strip markdown = "" then .error .validation
  else .ok { markdown, nonblank := blank }

/-- The binding of Markdown content, under the fingerprint of its schema. -/
def markdownBinding (fingerprint : String) : PlanContentBinding MarkdownPlanContent where
  reference := { fingerprint, mediaType := "text/markdown" }
  dump content := .object [("markdown", .string content.markdown)]
  restore content := MarkdownPlanContent.validate content.markdown
  freeze content := MarkdownPlanContent.validate content.markdown

theorem MarkdownPlanContent.validate_markdown (content : MarkdownPlanContent) :
    MarkdownPlanContent.validate content.markdown = .ok content := by
  rw [MarkdownPlanContent.validate, dif_neg content.nonblank]

theorem markdownBinding_roundTrips (fingerprint : String) :
    (markdownBinding fingerprint).RoundTrips where
  restore content := by simp only [markdownBinding, content.validate_markdown]
  freeze content := by simp only [markdownBinding, content.validate_markdown]

end Tinkerfin.Plan
