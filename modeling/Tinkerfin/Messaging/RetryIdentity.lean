import Tinkerfin.Messaging.RedisAppend
import Tinkerfin.Messaging.Transition

/-!
# Identical resubmissions

The bytes hashed for a message can be read back from the front: three frames, then either the marker
of an absent checkpoint or two more frames and the marker of a present one.  An empty text would stand
for an absent message identifier, but no checkpoint carries one.  Redis hashes the same bytes on its own, so a retry under a known message identifier is accepted exactly when it repeats the message.
-/

namespace Tinkerfin.Messaging

open Bytes

/-! ## Submissions -/

/-- The content of one message; a checkpoint names no message or a canonical identifier. -/
structure MessageSubmission where
  identity : RunIdentity
  codecId : String
  payload : List UInt8
  checkpoint : Option RecoveryCheckpoint
  canonical : ∀ position lastMessageId, checkpoint = some ⟨position, some lastMessageId⟩ →
    requiredIdentifier "last_message_id" lastMessageId = .ok lastMessageId

namespace MessageSubmission

variable {left right : MessageSubmission}

/-- The bytes hashed for the submission. -/
def preimage (submission : MessageSubmission) : List UInt8 :=
  signaturePreimage submission.identity submission.codecId submission.payload submission.checkpoint

/-- The signature of the submission. -/
def signature (submission : MessageSubmission) : Except MessagingError String :=
  messagingMessageSignature submission.identity submission.codecId submission.payload
    submission.checkpoint

/-- Two submissions commit the same message for the same run. -/
def Repeats (later earlier : MessageSubmission) : Prop :=
  later.identity.runId = earlier.identity.runId ∧ later.codecId = earlier.codecId ∧
    later.payload = earlier.payload ∧ later.checkpoint = earlier.checkpoint

instance : Decidable (left.Repeats right) := by
  unfold Repeats
  infer_instance

theorem fits_of_signature {text : String} (signed : left.signature = .ok text) :
    ∀ value ∈ signedValues left.identity left.codecId left.payload left.checkpoint,
      value.length < frameLimit := by
  simp only [signature, messagingMessageSignature, bind_eq_ok, require_eq_ok] at signed
  obtain ⟨-, -, -, -, -, fits, -⟩ := signed
  exact fits

theorem signature_eq {text : String} (signed : left.signature = .ok text) :
    text = Sha256.hexdigest left.preimage := by
  simp only [signature, messagingMessageSignature, bind_eq_ok] at signed
  obtain ⟨-, -, -, -, -, -, digest⟩ := signed
  exact (Except.ok.inj digest).symm

theorem signature_of_valid (validIdentity : (requiredIdentity left.identity).isOk = true)
    (validCodec : (requiredIdentifier "codec_id" left.codecId).isOk = true)
    (fits : ∀ value ∈ signedValues left.identity left.codecId left.payload left.checkpoint,
      value.length < frameLimit) : left.signature = .ok (Sha256.hexdigest left.preimage) := by
  cases identity : requiredIdentity left.identity with
  | error error => simp [identity, Except.isOk, Except.toBool] at validIdentity
  | ok value =>
    cases codec : requiredIdentifier "codec_id" left.codecId with
    | error error => simp [codec, Except.isOk, Except.toBool] at validCodec
    | ok codecId =>
      simp only [signature, messagingMessageSignature, identity, codec, require, if_pos fits]
      rfl

end MessageSubmission

theorem requiredIdentifier_empty (name : String) :
    requiredIdentifier name "" ≠ .ok "" := by
  intro valid
  simp only [requiredIdentifier, requiredCanonicalText, bind_eq_ok, require_eq_ok] at valid
  obtain ⟨-, ⟨-, blank, -⟩, -⟩ := valid
  exact blank.1 (by decide)

/-! ## Reading a signature back -/

/-- Frames of equally many values are equal only value by value, whatever follows them. -/
theorem flatMap_frame_inj {left right : List (List UInt8)} {leftRest rightRest : List UInt8}
    (size : left.length = right.length) (leftFits : ∀ value ∈ left, value.length < frameLimit)
    (rightFits : ∀ value ∈ right, value.length < frameLimit)
    (same : left.flatMap frame ++ leftRest = right.flatMap frame ++ rightRest) :
    left = right ∧ leftRest = rightRest := by
  induction left generalizing right with
  | nil =>
    obtain rfl := List.length_eq_zero_iff.mp size.symm
    exact ⟨rfl, same⟩
  | cons value values ih =>
    cases right with
    | nil => cases size
    | cons other others =>
      simp only [List.flatMap_cons, List.append_assoc] at same
      obtain ⟨rfl, rest⟩ := frame_append_inj (leftFits value (by simp))
        (rightFits other (by simp)) same
      obtain ⟨rfl, behind⟩ := ih (Nat.succ.inj size)
        (fun value member => leftFits value (.tail _ member))
        (fun value member => rightFits value (.tail _ member)) rest
      exact ⟨rfl, behind⟩

/-- What follows the three leading frames: two frames and a marker, or the other marker. -/
def checkpointTail : Option RecoveryCheckpoint → List UInt8
  | none => utf8 "0"
  | some checkpoint =>
    [checkpoint.position, utf8 (checkpoint.lastMessageId.getD "")].flatMap frame ++ utf8 "1"

theorem signaturePreimage_eq (identity : RunIdentity) (codecId : String) (payload : List UInt8)
    (checkpoint : Option RecoveryCheckpoint) :
    signaturePreimage identity codecId payload checkpoint =
      (utf8 "tinkerfin-messaging:redis-message" ++ [0]) ++
        ([utf8 identity.runId, utf8 codecId, payload].flatMap frame ++
          checkpointTail checkpoint) := by
  cases checkpoint <;> simp [signaturePreimage, signedValues, checkpointTail]

theorem checkpointTail_inj {left right : Option RecoveryCheckpoint}
    (leftFits : ∀ checkpoint ∈ left, checkpoint.position.length < frameLimit ∧
      (utf8 (checkpoint.lastMessageId.getD "")).length < frameLimit)
    (rightFits : ∀ checkpoint ∈ right, checkpoint.position.length < frameLimit ∧
      (utf8 (checkpoint.lastMessageId.getD "")).length < frameLimit)
    (leftNamed : ∀ checkpoint ∈ left, checkpoint.lastMessageId ≠ some "")
    (rightNamed : ∀ checkpoint ∈ right, checkpoint.lastMessageId ≠ some "")
    (same : checkpointTail left = checkpointTail right) : left = right := by
  have longer (checkpoint : RecoveryCheckpoint) :
      checkpointTail none ≠ checkpointTail (some checkpoint) := by
    intro equal
    have lengths := congrArg List.length equal
    simp [checkpointTail, frame, utf8, String.utf8EncodeChar] at lengths
    omega
  cases left with
  | none =>
    cases right with
    | none => rfl
    | some checkpoint => exact absurd same (longer checkpoint)
  | some first =>
    cases right with
    | none => exact absurd same.symm (longer first)
    | some second =>
      have firstFits : ∀ value ∈ [first.position, utf8 (first.lastMessageId.getD "")],
          value.length < frameLimit := by simpa using leftFits first rfl
      have secondFits : ∀ value ∈ [second.position, utf8 (second.lastMessageId.getD "")],
          value.length < frameLimit := by simpa using rightFits second rfl
      have frames := (flatMap_frame_inj (by rfl) firstFits secondFits same).1
      simp only [List.cons.injEq, and_true] at frames
      obtain ⟨position, named⟩ := frames
      have texts := utf8_injective named
      obtain ⟨firstPosition, firstId⟩ := first
      obtain ⟨secondPosition, secondId⟩ := second
      have firstNamed := leftNamed _ rfl
      have secondNamed := rightNamed _ rfl
      obtain rfl : firstPosition = secondPosition := position
      -- The empty text stands for an absent identifier, which no identifier is.
      cases firstId <;> cases secondId <;> simp_all

namespace MessageSubmission

variable {left right : MessageSubmission}

theorem named (submission : MessageSubmission) :
    ∀ checkpoint ∈ submission.checkpoint, checkpoint.lastMessageId ≠ some "" := by
  rintro ⟨position, lastMessageId⟩ carried empty
  obtain rfl : lastMessageId = some "" := empty
  exact requiredIdentifier_empty _ (submission.canonical position "" carried)

theorem checkpoint_fits {text : String} (signed : left.signature = .ok text) :
    ∀ checkpoint ∈ left.checkpoint, checkpoint.position.length < frameLimit ∧
      (utf8 (checkpoint.lastMessageId.getD "")).length < frameLimit := by
  intro checkpoint carried
  obtain carried : left.checkpoint = some checkpoint := carried
  have fits := fits_of_signature signed
  rw [carried] at fits
  exact ⟨fits _ (by simp [signedValues]), fits _ (by simp [signedValues])⟩

theorem leading_fits {text : String} (signed : left.signature = .ok text) :
    ∀ value ∈ [utf8 left.identity.runId, utf8 left.codecId, left.payload],
      value.length < frameLimit :=
  fun value member => fits_of_signature signed value (List.mem_append_left _ member)

theorem preimage_injective {leftText rightText : String} (leftSigned : left.signature = .ok leftText)
    (rightSigned : right.signature = .ok rightText) (same : left.preimage = right.preimage) :
    left.Repeats right := by
  have leftFits := leading_fits leftSigned
  have rightFits := leading_fits rightSigned
  simp only [preimage, signaturePreimage_eq, List.append_cancel_left_eq] at same
  obtain ⟨values, tails⟩ := flatMap_frame_inj (by rfl) leftFits rightFits same
  simp only [List.cons.injEq, and_true] at values
  obtain ⟨run, codec, payload⟩ := values
  exact ⟨utf8_injective run, utf8_injective codec, payload,
    checkpointTail_inj (checkpoint_fits leftSigned) (checkpoint_fits rightSigned) left.named
      right.named tails⟩

theorem Repeats.preimage_eq (repeats : left.Repeats right) : left.preimage = right.preimage := by
  obtain ⟨run, codec, payload, checkpoint⟩ := repeats
  simp only [preimage, signaturePreimage, signedValues, run, codec, payload, checkpoint]

theorem signature_eq_iff {leftText rightText : String} (leftSigned : left.signature = .ok leftText)
    (rightSigned : right.signature = .ok rightText)
    (collisionFree : Sha256.hexdigest left.preimage = Sha256.hexdigest right.preimage →
      left.preimage = right.preimage) :
    rightText = leftText ↔ left.Repeats right := by
  rw [signature_eq leftSigned, signature_eq rightSigned]
  constructor
  · intro same
    exact preimage_injective leftSigned rightSigned (collisionFree same.symm)
  · intro repeats
    rw [repeats.preimage_eq]

end MessageSubmission

/-! ## Both signature functions -/

theorem messageSignatureBytes_eq (identity : RunIdentity) (codec : String) (payload : List UInt8)
    (checkpoint : Option RecoveryCheckpoint) :
    RedisBackend.messageSignatureBytes identity codec payload checkpoint =
      signaturePreimage identity codec payload checkpoint := by
  cases checkpoint <;>
    simp [RedisBackend.messageSignatureBytes, signaturePreimage, signedValues, frame]

theorem messageSignature_of_signature {submission : MessageSubmission} {text : String}
    (signed : submission.signature = .ok text) :
    RedisBackend.messageSignature submission.identity submission.codecId submission.payload
      submission.checkpoint = .ok text := by
  have leading := MessageSubmission.leading_fits signed
  have checkpointFits := MessageSubmission.checkpoint_fits signed
  obtain rfl := MessageSubmission.signature_eq signed
  simp only [RedisBackend.messageSignature, require, if_pos leading, if_pos checkpointFits,
    messageSignatureBytes_eq]
  rfl

/-! ## Retries -/

variable {earlier later : MessageSubmission} {earlierText laterText : String}

/-- A transition that appends a submission. -/
structure MessagingTransition.Carries (transition : MessagingTransition)
    (submission : MessageSubmission) : Prop where
  identity : transition.identity = submission.identity
  codecId : transition.codecId = some submission.codecId
  payload : transition.payload = some submission.payload
  checkpoint : transition.checkpoint = submission.checkpoint

theorem validateMessage_signed {transition : MessagingTransition} {state : MessagingStateSnapshot}
    {message : ValidMessage} (carries : transition.Carries later)
    (valid : validateMessage transition state = .ok message) :
    later.signature = .ok message.signature := by
  simp only [validateMessage, carries.codecId, carries.payload, bind_eq_ok] at valid
  obtain ⟨codecId, codec, messageId, -, valid⟩ := valid
  obtain rfl := Option.some.inj (requiredText_eq_ok codec)
  obtain ⟨-, -, -, -, -, -, valid⟩ := valid
  cases found : state.channel with
  | none => simp [found] at valid
  | some channel =>
    simp only [found, bind_eq_ok, pure, Except.pure, Except.ok.injEq] at valid
    obtain ⟨-, -, signature, computed, rfl⟩ := valid
    simpa only [MessageSubmission.signature, carries.identity, carries.checkpoint] using computed

theorem resolveAppendMessage_retry {transition : MessagingTransition}
    {state : MessagingStateSnapshot} {run : StoredMessagingRun} {stream : StoredMessagingStream}
    {message : ValidMessage} {existing : StoredMessageEvidence}
    (target : appendTarget transition state = .ok (run, stream))
    (valid : validateMessage transition state = .ok message)
    (found : state.matchingMessage = some existing) :
    resolveAppendMessage transition state =
      if existing.signature = message.signature then .ok (retriedEffect transition run existing)
      else .error (.messageIdConflict transition.identity message.messageId) := by
  simp only [resolveAppendMessage, target, valid, found, bind, Except.bind]
  by_cases same : existing.signature = message.signature
  · rw [require, if_pos same, if_pos same]
    rfl
  · rw [require, if_neg same, if_neg same]

namespace RedisBackend

variable {limits : MessagingLimits} {state : AppendState} {handle : BackendRunHandle}
  {request : AppendRequest} {now : Nat}

/-- An append of a submission whose checks and fences pass. -/
structure Admits (limits : MessagingLimits) (state : AppendState) (handle : BackendRunHandle)
    (request : AppendRequest) (submission : MessageSubmission) (generation : Nat) : Prop where
  identity : handle.identity = submission.identity
  codec : request.codec = submission.codecId
  payload : request.payload = submission.payload
  checkpoint : request.checkpoint = submission.checkpoint
  valid : validateAppendInput limits handle request = .ok ()
  ordinary : ¬(request.external = true ∧
    (request.checkpoint.isSome = true ∨ request.closesPublication = true))
  fenced : fencedGeneration handle request.external = .ok generation
  active : state.activeGeneration = some generation
  owned : request.external = false → ownsRun state handle = true
  bound : state.codec = some request.codec
  shared : state.capacity.maxTotalBytes = limits.maxTotalBytes ∧
    state.capacity.maxTotalRecords = limits.maxTotalRecords

/-- Where the script finds a message under its identifier, it accepts the same signature only. -/
theorem append_retry {generation : Nat} {existing : DedupeRecord}
    (admits : Admits limits state handle request later generation)
    (signed : later.signature = .ok laterText)
    (found : state.dedupe.get? (Sha256.hexdigest (utf8 request.messageId)) = some existing) :
    append limits handle request now state =
      (if existing.signature = laterText then
        appendOutcome handle generation request (.idempotent existing.seq existing.createdAt)
      else .error (.messageIdConflict handle.identity request.messageId), state) := by
  have text := messageSignature_of_signature signed
  rw [← admits.identity, ← admits.codec, ← admits.payload, ← admits.checkpoint] at text
  have owned : (!request.external && !ownsRun state handle) = false := by
    cases external : request.external with
    | true => rfl
    | false => simp [admits.owned external]
  have shared : ¬(state.capacity.maxTotalBytes ≠ limits.maxTotalBytes ∨
      state.capacity.maxTotalRecords ≠ limits.maxTotalRecords) := by
    simp [admits.shared.1, admits.shared.2]
  simp only [append, admits.valid, require, if_pos admits.ordinary, admits.fenced, text, bind,
    Except.bind, pure, Except.pure, appendScript, admits.active, ne_eq, not_true_eq_false,
    if_false, owned, Bool.false_eq_true, admits.bound]
  rw [if_neg shared, found]
  by_cases same : existing.signature = laterText <;> simp [same, appendOutcome]

end RedisBackend

/-- Messages hash to equal bytes exactly when one repeats the other, in Redis as elsewhere.  Without
a collision between the two digests, a retry under the identifier of a stored message is accepted
when it repeats that message and refused as a conflict otherwise. -/
theorem retry_accepts_repetition (earlierSigned : earlier.signature = .ok earlierText)
    (laterSigned : later.signature = .ok laterText)
    (collisionFree : Sha256.hexdigest later.preimage = Sha256.hexdigest earlier.preimage →
      later.preimage = earlier.preimage) :
    (later.preimage = earlier.preimage ↔ later.Repeats earlier) ∧
      (∀ submission : MessageSubmission, RedisBackend.messageSignatureBytes submission.identity
        submission.codecId submission.payload submission.checkpoint = submission.preimage) ∧
      (∀ {transition state run stream message existing}, transition.Carries later →
        appendTarget transition state = .ok (run, stream) →
        validateMessage transition state = .ok message →
        state.matchingMessage = some existing → existing.signature = earlierText →
        resolveAppendMessage transition state =
          if later.Repeats earlier then .ok (retriedEffect transition run existing)
          else .error (.messageIdConflict transition.identity message.messageId)) ∧
      ∀ {limits state handle request generation now existing},
        RedisBackend.Admits limits state handle request later generation →
        state.dedupe.get? (Sha256.hexdigest (utf8 request.messageId)) = some existing →
        existing.signature = earlierText →
        RedisBackend.append limits handle request now state =
          (if later.Repeats earlier then
            RedisBackend.appendOutcome handle generation request
              (.idempotent existing.seq existing.createdAt)
          else .error (.messageIdConflict handle.identity request.messageId), state) := by
  have texts : earlierText = laterText ↔ later.Repeats earlier :=
    MessageSubmission.signature_eq_iff laterSigned earlierSigned collisionFree
  refine ⟨⟨MessageSubmission.preimage_injective laterSigned earlierSigned,
    MessageSubmission.Repeats.preimage_eq⟩, fun _ => messageSignatureBytes_eq .., ?_, ?_⟩
  · intro transition state run stream message existing carries target valid found stored
    have signed := (validateMessage_signed carries valid).symm.trans laterSigned
    rw [resolveAppendMessage_retry target valid found, stored, Except.ok.inj signed]
    exact if_congr texts rfl rfl
  · intro limits state handle request generation now existing admits found stored
    rw [RedisBackend.append_retry admits laterSigned found, stored]
    exact congrArg (·, state) (if_congr texts rfl rfl)

namespace RedisBackend

/-- A message with a checkpoint. -/
def sampleMessage : MessageSubmission where
  identity := ⟨⟨"app", "thread"⟩, "run"⟩
  codecId := "json"
  payload := [1, 2]
  checkpoint := some ⟨[7], some "m1"⟩
  canonical := by
    rintro position lastMessageId ⟨⟩
    decide

def sampleHandle : BackendRunHandle where
  channel := "chat"
  identity := sampleMessage.identity
  ownerToken := some "token"
  fence := some 1
  generation := some 1

def sampleRequest : AppendRequest where
  messageId := "m1"
  codec := sampleMessage.codecId
  payload := sampleMessage.payload
  checkpoint := sampleMessage.checkpoint

/-- The message is stored, and its run was asked to stop. -/
def sampleState : AppendState where
  activeGeneration := some 1
  retainedBytes := 8
  retainedRecords := 1
  codec := some "json"
  run := some {
    status := .cancelRequested
    ownerToken := some "token"
    fence := some 1
    settling := false
    publicationClosed := false
    publicationReady := true
    endSeq := 1
    checkpoint := sampleMessage.checkpoint }
  lease := some ("token", 1)
  capacity := {
    maxTotalBytes := 1024 * 1024 * 1024
    maxTotalRecords := 100000
    totalBytes := 8
    totalRecords := 1 }
  seq := 1
  payloadBytes := 2
  messages := []
  dedupe := Dict.empty.insert (Sha256.hexdigest (utf8 "m1")) {
    signature := Sha256.hexdigest sampleMessage.preimage
    checkpoint := sampleMessage.checkpoint
    seq := 1
    createdAt := 3 }

/-- A repeated append returns the message that was stored first. -/
theorem retry_accepts_repetition_sample :
    (append {} sampleHandle sampleRequest 9 sampleState).1.toOption.map
      (fun envelope => (envelope.seq, envelope.createdAt)) = some (1, 3) := by
  have signed : sampleMessage.signature = .ok (Sha256.hexdigest sampleMessage.preimage) :=
    MessageSubmission.signature_of_valid (by decide) (by decide) (by decide +kernel)
  have admits : Admits {} sampleState sampleHandle sampleRequest sampleMessage 1 :=
    ⟨rfl, rfl, rfl, rfl, by decide +kernel, by decide, rfl, rfl, fun _ => by decide, rfl,
      by decide⟩
  have found := Dict.get?_insert_self Dict.empty (Sha256.hexdigest (utf8 "m1"))
    ({ signature := Sha256.hexdigest sampleMessage.preimage
       checkpoint := sampleMessage.checkpoint
       seq := 1
       createdAt := 3 } : DedupeRecord)
  have accepted : append {} sampleHandle sampleRequest 9 sampleState = _ :=
    (retry_accepts_repetition signed signed fun _ => rfl).2.2.2 admits found rfl
  rw [accepted, if_pos ⟨rfl, rfl, rfl, rfl⟩]
  rfl

end RedisBackend

end Tinkerfin.Messaging
