import Tinkerfin.Lib.Stateful
import Tinkerfin.Lib.Utf8

/-!
# Captured command output

The helper runs a command and keeps the first bytes of its output in a temporary file beside the
target.  It returns them inline, or renames the file over the target unless the target changed.
-/

namespace Tinkerfin.Sandbox.OffloadCapture

open EStateM

/-! ## Files -/

inductive FileKind
  | regular
  | directory
  | other
  deriving DecidableEq, Repr

/-- What a name of a directory is linked to. -/
structure Node where
  /-- Device and inode. -/
  identity : Nat × Nat
  kind : FileKind
  mode : Nat
  content : List UInt8
  deriving DecidableEq

/-- An error of a system call, or the end of the helper. -/
inductive Failure
  | enoent
  | eloop
  | enotdir
  | exdev
  | eexist
  | eisdir
  | errno (code : Nat)
  | systemExit (code : Nat)
  deriving DecidableEq

/-- The record that the steps of one capture share. -/
structure Capture where
  safe : Bool := false
  rootDescriptor : Bool := false
  parentDescriptor : Bool := false
  temporaryDescriptor : Bool := false
  temporaryName : Option String := none
  temporaryFile : Bool := false
  targetName : Option String := none
  targetIdentity : Option (Nat × Nat) := none
  targetMode : Nat := 0o644
  deriving DecidableEq

/-- The directory of the target and what the helper holds. -/
structure HelperState where
  directory : String → Option Node
  /-- The unnamed temporary file, gone once it is closed. -/
  anonymous : Option (List UInt8) := none
  capture : Capture := {}

abbrev HelperM := EStateM Failure HelperState

/-- What the system answers while a capture is prepared. -/
structure System where
  openRoot : Except Failure Unit
  canonicalParts : Except Failure (List String)
  openTransferParent : Except Failure Unit
  /-- Random parts of temporary names. -/
  draws : Fin 16 → String
  /-- The identity of a new file. -/
  identity : Nat × Nat
  fchmod : Except Failure Unit

namespace HelperState

/-- Link a name, or unlink it. -/
def link (state : HelperState) (name : String) (node : Option Node) : HelperState :=
  { state with directory := Function.update state.directory name node }

/-- Change the shared record. -/
def record (state : HelperState) (change : Capture → Capture) : HelperState :=
  { state with capture := change state.capture }

end HelperState

/-! ## Preparation -/

def temporaryName (draw : String) : String := ".tinkerfin-offload-" ++ draw

def allocateCaptureTemp (identity : Nat × Nat) : List String → HelperM String
  | [] => throw .eexist
  | draw :: draws => do
    if ((← get).directory (temporaryName draw)).isSome then
      allocateCaptureTemp identity draws
    else
      modify fun state => state.link (temporaryName draw)
        (some { identity, kind := .regular, mode := 0o600, content := [] })
      return temporaryName draw

/-- Release everything that a capture holds. -/
def cleanupOffloadCapture : HelperM Unit :=
  modify fun state =>
    let capture := state.capture
    { directory := match capture.temporaryName, capture.parentDescriptor with
        | some name, true => Function.update state.directory name none
        | _, _ => state.directory
      anonymous := if capture.temporaryFile then none else state.anonymous
      capture := { capture with
        temporaryFile := false
        temporaryDescriptor := false
        temporaryName := if capture.parentDescriptor then none else capture.temporaryName
        parentDescriptor := false
        rootDescriptor := false } }

/-- Remember an existing target, which must be a file. -/
def inspectTarget (targetName : String) : HelperM Unit := do
  match (← get).directory targetName with
  | none => return ()
  | some target =>
    if target.kind ≠ .regular then
      throw .exdev
    modify (·.record fun capture =>
      { capture with targetIdentity := some target.identity, targetMode := target.mode })

def openCapture (system : System) : HelperM Unit := do
  ofExcept system.openRoot
  modify (·.record fun capture => { capture with rootDescriptor := true })
  match (← ofExcept system.canonicalParts).getLast? with
  | none => throw .exdev
  | some targetName =>
    ofExcept system.openTransferParent
    modify (·.record fun capture =>
      { capture with parentDescriptor := true, targetName := some targetName })
    inspectTarget targetName
    let name ← allocateCaptureTemp system.identity (List.ofFn system.draws)
    ofExcept system.fchmod
    modify fun state => state.link name
      ((state.directory name).map fun node => { node with mode := state.capture.targetMode })
    modify (·.record fun capture =>
      { capture with temporaryName := some name, temporaryDescriptor := true, safe := true })

/-- Errors that mean an unsafe path. -/
def Failure.isUnsafe (failure : Failure) : Bool :=
  failure ∈ [.enoent, .eloop, .enotdir, .exdev]

def prepareOffloadCapture (system : System) : HelperM Unit := do
  modify (·.record fun _ => {})
  tryCatch (openCapture system) fun failure => do
    cleanupOffloadCapture
    if failure.isUnsafe then
      modify fun state => { state with
        anonymous := some []
        capture := { state.capture with temporaryFile := true, temporaryDescriptor := true } }
    else
      throw failure

/-! ## The temporary file -/

/-- The bytes behind the temporary descriptor. -/
def HelperState.captured (state : HelperState) : List UInt8 :=
  if state.capture.temporaryFile then
    state.anonymous.getD []
  else
    match state.capture.temporaryName.bind state.directory with
    | some node => node.content
    | none => []

/-- Append to the file behind the temporary descriptor. -/
def writeAll (content : List UInt8) : HelperM Unit :=
  modify fun state =>
    if state.capture.temporaryFile then
      { state with anonymous := state.anonymous.map (· ++ content) }
    else
      match state.capture.temporaryName with
      | some name => state.link name
          ((state.directory name).map fun node => { node with content := node.content ++ content })
      | none => state

/-- Keep the output of a command up to the limit, and count all of it. -/
def captureLoop (captureLimit : Nat) : (totalBytes : Nat) → List (List UInt8) → HelperM Nat
  | totalBytes, [] => return totalBytes
  | totalBytes, chunk :: chunks => do
    if chunk = [] then
      return totalBytes
    else
      let remaining := captureLimit - min totalBytes captureLimit
      if remaining > 0 then
        writeAll (chunk.take remaining)
      captureLoop captureLimit (totalBytes + chunk.length) chunks

/-! ## Publication -/

/-- The lines of a byte string with their ends. -/
def splitLines : List UInt8 → List (List UInt8)
  | [] => []
  | 13 :: 10 :: rest => [13, 10] :: splitLines rest
  | byte :: rest =>
    if byte = 10 ∨ byte = 13 then
      [byte] :: splitLines rest
    else
      match splitLines rest with
      | [] => [[byte]]
      | line :: lines => (byte :: line) :: lines

def offloadPreview (raw : List UInt8) : List UInt8 :=
  let lines := splitLines raw
  if lines.length ≤ 10 then
    raw.take 4000
  else
    let head := (lines.take 5).flatten.take 2000
    let last := (lines.drop (lines.length - 5)).flatten
    let tail := last.drop (last.length - 2000)
    let marker := s!"... [{lines.length - 10} lines truncated] ...\n"
    head ++ Utf8.encode marker.toList ++ tail

/-- Other processes replace, create, remove or rewrite the target of a capture. -/
def othersLink (target : Option Node) : HelperM Unit :=
  modify fun state =>
    match state.capture.safe, state.capture.targetName with
    | true, some name => state.link name target
    | _, _ => state

/-- Whether the target looks as it did when the capture was prepared. -/
def isUnchanged (expectedIdentity : Option (Nat × Nat)) (current : Option Node) : Bool :=
  match expectedIdentity, current with
  | none, current => current.isNone
  | some _, none => false
  | some expected, some current => current.kind = .regular && current.identity = expected

/-- Rename the temporary file over the target, which others may still change in between. -/
def publishOffloadCapture (meanwhile : Option Node) : HelperM Bool := do
  let state ← get
  match state.capture.targetName, state.capture.temporaryName with
  | some target, some temporary =>
    let unchanged := isUnchanged state.capture.targetIdentity (state.directory target)
    othersLink meanwhile
    if !unchanged then
      return false
    if ((← get).directory target).any fun node => node.kind = .directory then
      throw .eisdir
    modify fun state => (state.link target (state.directory temporary)).link temporary none
    modify (·.record fun capture => { capture with temporaryName := none })
    return true
  | _, _ => return false

/-! ## The operation -/

/-- Bounds of one capture. -/
structure Limits where
  inlineLimit : Nat
  captureLimit : Nat
  positive : 1 ≤ captureLimit

/-- A command that was started: its output and its exit code, unless the helper ends before. -/
structure Process where
  chunks : List (List UInt8)
  exit : Except Failure Int

/-- What others leave at the target before the helper looks at it, and after. -/
structure Others where
  atCheck : Option Node
  atRename : Option Node

structure Report where
  offloaded : Bool
  output : List Char
  exitCode : Int
  truncated : Bool
  deriving DecidableEq

/-- Decode with replacement characters. -/
def decodeReplace (raw : List UInt8) : List Char := Utf8.decode [Char.ofNat 0xFFFD] raw

/-- Run a command and report what was captured. -/
def reportCapture (limits : Limits) (process : Except Failure Process) (others : Others) :
    HelperM Report := do
  let process ← ofExcept process
  let totalBytes ← captureLoop limits.captureLimit 0 process.chunks
  let exitCode ← ofExcept process.exit
  othersLink others.atCheck
  let raw := (← get).captured
  let capped : Bool := decide (totalBytes ≥ limits.captureLimit)
  let inline : Report :=
    { offloaded := false, output := decodeReplace raw, exitCode, truncated := capped }
  if raw.length ≤ limits.inlineLimit then
    othersLink others.atRename
    return inline
  let preview := offloadPreview raw
  if (← get).capture.safe then
    if ← publishOffloadCapture others.atRename then
      return { offloaded := true, output := decodeReplace preview, exitCode, truncated := capped }
  return inline

def offloadCommand (limits : Limits) (system : System) (process : Except Failure Process)
    (others : Others) : HelperM Report := do
  prepareOffloadCapture system
  let report ← tryCatch (reportCapture limits process others) fun failure => do
    cleanupOffloadCapture
    throw failure
  cleanupOffloadCapture
  return report

end Tinkerfin.Sandbox.OffloadCapture
