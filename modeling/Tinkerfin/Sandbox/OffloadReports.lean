import Tinkerfin.Sandbox.OffloadCapture

/-!
# What a capture reports

A report shows the first bytes of the output.  It is faithful unless the output ends at the capture
limit, or the target changes in a way that the identity check does not see.
-/

namespace Tinkerfin.Sandbox.OffloadCapture

open EStateM

/-! ## Preparing -/

namespace System

variable (system : System) (directory : String → Option Node)

/-- The target and the temporary file of a capture, unless the path is unsafe or something fails. -/
def allocates : Except Failure (String × String) := do
  system.openRoot
  match (← system.canonicalParts).getLast? with
  | none => throw .exdev
  | some target =>
    system.openTransferParent
    if (directory target).any fun node => node.kind ≠ .regular then
      throw .exdev
    match ((List.ofFn system.draws).map temporaryName).find? fun name => (directory name).isNone with
    | none => throw .eexist
    | some temporary => return (target, temporary)

/-- The names of a capture whose temporary file takes the mode of its target. -/
def prepares : Except Failure (String × String) := do
  let names ← system.allocates directory
  system.fchmod
  return names

/-- The temporary file that a failure after its creation leaves behind. -/
def leftover : Option String :=
  match system.allocates directory, system.fchmod with
  | .ok (_, temporary), .error _ => some temporary
  | _, _ => none

/-- A new temporary file. -/
def created : Node :=
  { identity := system.identity, kind := .regular, mode := 0o600, content := [] }

/-- The directory after a preparation that failed. -/
def remains : String → Option Node :=
  match system.leftover directory with
  | none => directory
  | some temporary => Function.update directory temporary (some system.created)

/-- The mode of the published file. -/
def targetMode (target : String) : Nat := ((directory target).map Node.mode).getD 0o644

/-- The shared record of a capture that was prepared. -/
def ready (target temporary : String) : Capture where
  safe := true
  rootDescriptor := true
  parentDescriptor := true
  temporaryDescriptor := true
  temporaryName := some temporary
  targetName := some target
  targetIdentity := (directory target).map Node.identity
  targetMode := targetMode directory target

end System

section Preparing

variable {system : System} {state : HelperState} {target temporary : String}

theorem ensures_allocateCaptureTemp {identity : Nat × Nat} {draws : List String}
    {returned : String → HelperState → Prop} {raised : Failure → HelperState → Prop} :
    (allocateCaptureTemp identity draws).Ensures state returned raised ↔
      match (draws.map temporaryName).find? fun name => (state.directory name).isNone with
      | none => raised .eexist state
      | some name => returned name (state.link name
          (some { identity, kind := .regular, mode := 0o600, content := [] })) := by
  induction draws with
  | nil => rfl
  | cons draw draws induction =>
    simp only [allocateCaptureTemp, ensures_bind, ensures_get, ensures_ite, ensures_modify,
      ensures_pure, induction, List.map_cons, List.find?_cons]
    cases taken : state.directory (temporaryName draw) <;> simp

theorem ensures_inspectTarget {returned : Unit → HelperState → Prop}
    {raised : Failure → HelperState → Prop} :
    (inspectTarget target).Ensures state returned raised ↔
      if (state.directory target).any fun node => node.kind ≠ .regular then
        raised .exdev state
      else
        returned () (state.record fun capture => { capture with
          targetIdentity := ((state.directory target).map Node.identity).or capture.targetIdentity
          targetMode := ((state.directory target).map Node.mode).getD capture.targetMode }) := by
  simp only [inspectTarget, ensures_bind, ensures_get]
  cases found : state.directory target with
  | none => simp [HelperState.record]
  | some node =>
    by_cases kind : node.kind = .regular <;>
      simp [kind, ensures_bind, HelperState.record]

/-- The record after a failed preparation holds nothing of a temporary file. -/
structure Abandoned (capture : Capture) : Prop where
  safe : capture.safe = false
  name : capture.temporaryName = none
  file : capture.temporaryFile = false

theorem openCapture_spec : (openCapture system).Ensures (state.record fun _ => {})
    (fun _ after => ∃ target temporary, system.prepares state.directory = .ok (target, temporary) ∧
      after = { (state.link temporary (some { system.created with
        mode := System.targetMode state.directory target })) with
        capture := System.ready state.directory target temporary })
    (fun failure after => system.prepares state.directory = .error failure ∧
      after.directory = system.remains state.directory ∧ after.anonymous = state.anonymous ∧
      Abandoned after.capture) := by
  -- A failure before the temporary file exists changes nothing but the record.
  have early {failure : Failure} {after : HelperState}
      (failed : system.allocates state.directory = .error failure)
      (same : after.directory = state.directory) (anonymous : after.anonymous = state.anonymous)
      (abandoned : Abandoned after.capture) :
      system.prepares state.directory = .error failure ∧
        after.directory = system.remains state.directory ∧ after.anonymous = state.anonymous ∧
          Abandoned after.capture := by
    refine ⟨?_, ?_, anonymous, abandoned⟩
    · rw [System.prepares, failed]
      rfl
    · rw [same, System.remains, System.leftover, failed]
  simp only [openCapture, ensures_bind, ensures_ofExcept, ensures_modify]
  refine ⟨fun _ root => ⟨fun parts canonical => ?_, fun failure failed => ?_⟩, fun failure failed => ?_⟩
  · cases last : parts.getLast? with
    | none =>
      refine early ?_ rfl rfl ⟨rfl, rfl, rfl⟩
      simp [System.allocates, root, canonical, last, bind, Except.bind, throw, throwThe,
        MonadExceptOf.throw]
    | some target =>
      simp only [ensures_bind, ensures_ofExcept, ensures_modify, ensures_inspectTarget,
        ensures_allocateCaptureTemp]
      refine ⟨fun _ parent => ?_, fun failure failed => ?_⟩
      · split
        · next irregular =>
            refine early ?_ rfl rfl ⟨rfl, rfl, rfl⟩
            simp only [HelperState.record] at irregular
            simp only [System.allocates, root, canonical, last, parent, bind, Except.bind]
            rw [if_pos irregular]
            rfl
        · next regular =>
            simp only [HelperState.record] at regular
            split
            · next taken =>
                refine early ?_ rfl rfl ⟨rfl, rfl, rfl⟩
                simp only [HelperState.record] at taken
                simp only [System.allocates, root, canonical, last, parent, bind, Except.bind]
                rw [if_neg regular, taken]
                rfl
            · next temporary found =>
                simp only [HelperState.record] at found
                have names : system.allocates state.directory = .ok (target, temporary) := by
                  simp only [System.allocates, root, canonical, last, parent, bind, Except.bind]
                  rw [if_neg regular, found]
                  rfl
                refine ⟨fun _ changed => ⟨target, temporary, ?_, ?_⟩, fun failure failed => ?_⟩
                · simp [System.prepares, names, changed, bind, Except.bind, pure, Except.pure]
                · simp [HelperState.link, HelperState.record, System.ready, System.targetMode,
                    System.created]
                · refine ⟨?_, ?_, rfl, ⟨rfl, rfl, rfl⟩⟩
                  · simp [System.prepares, names, failed, bind, Except.bind]
                  · simp [System.remains, System.leftover, names, failed, HelperState.link,
                      HelperState.record, System.created]
      · refine early ?_ rfl rfl ⟨rfl, rfl, rfl⟩
        simp [System.allocates, root, canonical, last, failed, bind, Except.bind]
  · refine early ?_ rfl rfl ⟨rfl, rfl, rfl⟩
    simp [System.allocates, root, failed, bind, Except.bind]
  · refine early ?_ rfl rfl ⟨rfl, rfl, rfl⟩
    simp [System.allocates, failed, bind, Except.bind]

/-- The state of a capture that was prepared. -/
def System.readyState (system : System) (state : HelperState) (target temporary : String) :
    HelperState where
  directory := Function.update state.directory temporary (some { system.created with
    mode := System.targetMode state.directory target })
  anonymous := state.anonymous
  capture := System.ready state.directory target temporary

/-- A capture of an unsafe path keeps the output in an unnamed file. -/
structure Unnamed (state : HelperState) (content : List UInt8) : Prop where
  safe : state.capture.safe = false
  name : state.capture.temporaryName = none
  file : state.capture.temporaryFile = true
  content : state.anonymous = some content

theorem prepareOffloadCapture_spec : (prepareOffloadCapture system).Ensures state
    (fun _ after =>
      (∃ target temporary, system.prepares state.directory = .ok (target, temporary) ∧
        after = system.readyState state target temporary) ∨
      ∃ failure, system.prepares state.directory = .error failure ∧ failure.isUnsafe = true ∧
        after.directory = system.remains state.directory ∧ Unnamed after [])
    (fun failure after => system.prepares state.directory = .error failure ∧
      failure.isUnsafe = false ∧ after.directory = system.remains state.directory ∧
      after.anonymous = state.anonymous) := by
  simp only [prepareOffloadCapture, ensures_bind, ensures_modify, ensures_tryCatch]
  refine openCapture_spec.mono ?_ ?_
  · rintro - after ⟨target, temporary, names, rfl⟩
    exact .inl ⟨target, temporary, names, rfl⟩
  · rintro failure after ⟨failed, directory, anonymous, abandoned⟩
    simp only [cleanupOffloadCapture, ensures_modify, ensures_ite, ensures_throw, abandoned.name,
      abandoned.file, Bool.false_eq_true, if_false]
    refine ⟨fun unsafePath => .inr ⟨failure, failed, unsafePath, directory, ?_⟩, fun severe => ?_⟩
    · exact ⟨abandoned.safe, by simp, rfl, rfl⟩
    · exact ⟨failed, by simpa using severe, directory, anonymous⟩

theorem ensures_prepare {returned : Unit → HelperState → Prop} {raised : Failure → HelperState → Prop}
    (names : system.prepares state.directory = .ok (target, temporary)) :
    (prepareOffloadCapture system).Ensures state returned raised ↔
      returned () (system.readyState state target temporary) := by
  obtain ⟨_, _, spec, runs⟩ | ⟨_, _, spec, -⟩ := prepareOffloadCapture_spec.runs
  · rw [runs]
    obtain ⟨_, _, others, rfl⟩ | ⟨failure, failed, -⟩ := spec
    · obtain ⟨rfl, rfl⟩ := Prod.mk.inj (Except.ok.inj (names.symm.trans others))
      rfl
    · exact absurd (names.symm.trans failed) nofun
  · exact absurd (names.symm.trans spec.1) nofun

theorem prepare_unnamed {failure : Failure}
    (failed : system.prepares state.directory = .error failure) (unsafePath : failure.isUnsafe = true) :
    ∃ between, between.directory = system.remains state.directory ∧ Unnamed between [] ∧
      ∀ returned raised, (prepareOffloadCapture system).Ensures state returned raised ↔
        returned () between := by
  obtain ⟨_, between, spec, runs⟩ | ⟨_, _, spec, -⟩ := prepareOffloadCapture_spec.runs
  · obtain ⟨_, _, names, -⟩ | ⟨_, -, -, directory, unnamed⟩ := spec
    · exact absurd (names.symm.trans failed) nofun
    · exact ⟨between, directory, unnamed, runs⟩
  · obtain ⟨others, severe, -⟩ := spec
    obtain rfl := Except.error.inj (others.symm.trans failed)
    exact absurd (severe.symm.trans unsafePath) nofun

theorem prepare_refused {failure : Failure}
    (failed : system.prepares state.directory = .error failure) (severe : failure.isUnsafe = false) :
    ∃ between, between.directory = system.remains state.directory ∧
      between.anonymous = state.anonymous ∧
      ∀ returned raised, (prepareOffloadCapture system).Ensures state returned raised ↔
        raised failure between := by
  obtain ⟨_, _, spec, -⟩ | ⟨_, between, spec, runs⟩ := prepareOffloadCapture_spec.runs
  · obtain ⟨_, _, names, -⟩ | ⟨_, others, unsafePath, -⟩ := spec
    · exact absurd (names.symm.trans failed) nofun
    · obtain rfl := Except.error.inj (others.symm.trans failed)
      exact absurd (severe.symm.trans unsafePath) nofun
  · obtain ⟨others, -, directory, anonymous⟩ := spec
    obtain rfl := Except.error.inj (others.symm.trans failed)
    exact ⟨between, directory, anonymous, runs⟩

end Preparing

/-! ## Capturing -/

/-- The bytes of a command up to its first empty chunk. -/
def Process.output (process : Process) : List UInt8 :=
  (process.chunks.takeWhile fun chunk => chunk ≠ []).flatten

/-- The state with other bytes in the temporary file. -/
def HelperState.holding (state : HelperState) (content : List UInt8) : HelperState :=
  if state.capture.temporaryFile then
    { state with anonymous := some content }
  else
    match state.capture.temporaryName with
    | none => state
    | some name => state.link name
        ((state.directory name).map fun node => { node with content })

/-- The temporary file of a capture exists. -/
def HelperState.Holds (state : HelperState) : Prop :=
  state.capture.temporaryFile = true ∧ state.anonymous.isSome ∨
    state.capture.temporaryFile = false ∧
      ∃ name node, state.capture.temporaryName = some name ∧ state.directory name = some node

section Capturing

variable {state : HelperState} {content more : List UInt8}

theorem holding_capture : (state.holding content).capture = state.capture := by
  unfold HelperState.holding
  split
  · rfl
  · split <;> rfl

theorem HelperState.Holds.captured (holds : state.Holds) :
    (state.holding content).captured = content := by
  obtain ⟨file, -⟩ | ⟨file, name, node, named, found⟩ := holds
  · simp [HelperState.captured, holding, file]
  · simp [HelperState.captured, holding, file, named, found, link]

theorem HelperState.Holds.writeAll {returned : Unit → HelperState → Prop}
    {raised : Failure → HelperState → Prop} (holds : state.Holds) :
    (OffloadCapture.writeAll more).Ensures (state.holding content) returned raised ↔
      returned () (state.holding (content ++ more)) := by
  rw [OffloadCapture.writeAll, ensures_modify]
  obtain ⟨file, -⟩ | ⟨file, name, node, named, found⟩ := holds
  · simp [holding, file]
  · simp [holding, file, named, found, link]

/-- The loop keeps the first bytes of the output and counts all of them. -/
theorem HelperState.Holds.captureLoop {returned : Nat → HelperState → Prop}
    {raised : Failure → HelperState → Prop} (holds : state.Holds) {limit : Nat}
    {seen : List UInt8} {chunks : List (List UInt8)} :
    (OffloadCapture.captureLoop limit seen.length chunks).Ensures (state.holding (seen.take limit))
      returned raised ↔
      let output := seen ++ (chunks.takeWhile fun chunk => chunk ≠ []).flatten
      returned output.length (state.holding (output.take limit)) := by
  induction chunks generalizing seen with
  | nil => simp [OffloadCapture.captureLoop]
  | cons chunk chunks induction =>
    rw [OffloadCapture.captureLoop]
    split
    · next empty => simp [empty]
    · next some =>
        have wrote : (seen ++ chunk).take limit =
            seen.take limit ++ chunk.take (limit - min seen.length limit) := by
          rw [List.take_append]
          congr 2
          omega
        have longer : seen.length + chunk.length = (seen ++ chunk).length := by simp
        simp only [ensures_bind, ensures_ite, holds.writeAll, ← wrote, longer, induction]
        have begun : seen ++ ((chunk :: chunks).takeWhile fun chunk => chunk ≠ []).flatten =
            seen ++ chunk ++ (chunks.takeWhile fun chunk => chunk ≠ []).flatten := by
          simp [some]
        rw [begun]
        by_cases room : limit - min seen.length limit > 0
        · simp only [room, forall_true_left, not_true, false_implies, and_true]
        · have full : seen.take limit = (seen ++ chunk).take limit := by
            rw [wrote, Nat.eq_zero_of_not_pos room, List.take_zero, List.append_nil]
          rw [full, induction]
          simp only [room, false_implies, not_false_eq_true, forall_true_left, true_and]

end Capturing

/-! ## Publishing -/

/-- The temporary file of a prepared capture. -/
def System.temporaryNode (system : System) (state : HelperState) (target : String)
    (content : List UInt8) : Node :=
  { system.created with mode := System.targetMode state.directory target, content }

/-- A prepared capture with some bytes in its temporary file, while others left something at the
target. -/
def System.staged (system : System) (state : HelperState) (target temporary : String)
    (content : List UInt8) (current : Option Node) : HelperState where
  directory := Function.update (Function.update state.directory temporary
    (some (system.temporaryNode state target content))) target current
  anonymous := state.anonymous
  capture := System.ready state.directory target temporary

section Publishing

variable {system : System} {state : HelperState} {target temporary : String}
  {content more : List UInt8} {current next : Option Node}

@[simp] theorem staged_capture :
    (system.staged state target temporary content current).capture =
      System.ready state.directory target temporary := rfl

@[simp] theorem staged_target :
    (system.staged state target temporary content current).directory target = current :=
  Function.update_self _ _ _

theorem staged_temporary (apart : temporary ≠ target) :
    (system.staged state target temporary content current).directory temporary =
      some (system.temporaryNode state target content) := by
  simp [System.staged, Function.update_of_ne apart]

theorem readyState_eq (apart : temporary ≠ target) :
    system.readyState state target temporary =
      system.staged state target temporary [] (state.directory target) := by
  have kept : Function.update state.directory temporary
      (some (system.temporaryNode state target [])) target = state.directory target :=
    Function.update_of_ne apart.symm _ _
  simp only [System.readyState, System.staged]
  rw [← kept, Function.update_eq_self]
  rfl

theorem captured_staged (apart : temporary ≠ target) :
    (system.staged state target temporary content current).captured = content := by
  simp [HelperState.captured, System.ready, staged_temporary apart, System.temporaryNode]

theorem holding_staged (apart : temporary ≠ target) :
    (system.staged state target temporary content current).holding more =
      system.staged state target temporary more current := by
  simp only [HelperState.holding, System.staged, System.ready, HelperState.link,
    Function.update_of_ne apart, Function.update_self, Option.map_some, Bool.false_eq_true, if_false]
  rw [Function.update_comm apart.symm, Function.update_idem]
  rfl

theorem ensures_othersLink {returned : Unit → HelperState → Prop}
    {raised : Failure → HelperState → Prop} :
    (othersLink next).Ensures (system.staged state target temporary content current) returned
      raised ↔ returned () (system.staged state target temporary content next) := by
  simp [othersLink, ensures_modify, System.staged, System.ready, HelperState.link,
    Function.update_idem]

theorem holds_staged (apart : temporary ≠ target) :
    (system.staged state target temporary content current).Holds :=
  .inr ⟨rfl, temporary, system.temporaryNode state target content, rfl, staged_temporary apart⟩

/-- The state after the temporary file was renamed over the target. -/
def System.published (system : System) (state : HelperState) (target temporary : String)
    (content : List UInt8) : HelperState where
  directory := Function.update (Function.update state.directory temporary none) target
    (some (system.temporaryNode state target content))
  anonymous := state.anonymous
  capture := { System.ready state.directory target temporary with temporaryName := none }

theorem ensures_publish {returned : Bool → HelperState → Prop}
    {raised : Failure → HelperState → Prop} (apart : temporary ≠ target) :
    (publishOffloadCapture next).Ensures (system.staged state target temporary content current)
      returned raised ↔
      if isUnchanged ((state.directory target).map Node.identity) current = false then
        returned false (system.staged state target temporary content next)
      else if next.any fun node => node.kind = .directory then
        raised .eisdir (system.staged state target temporary content next)
      else
        returned true (system.published state target temporary content) := by
  have renamed : ((((system.staged state target temporary content next).link target
      ((system.staged state target temporary content next).directory temporary)).link temporary
        none).record fun capture => { capture with temporaryName := none }) =
      system.published state target temporary content := by
    rw [staged_temporary apart]
    simp only [HelperState.link, HelperState.record, System.staged, System.published,
      Function.update_idem]
    rw [Function.update_comm apart.symm, Function.update_idem]
  simp only [publishOffloadCapture, ensures_bind, ensures_get, staged_capture, System.ready,
    staged_target, ensures_othersLink, ensures_ite, ensures_pure, ensures_throw, ensures_modify,
    renamed, Bool.not_eq_true', ite_prop_iff_and]

/-- The state of a capture that was cleaned up. -/
def System.cleaned (state : HelperState) (target temporary : String) (current : Option Node) :
    HelperState where
  directory := Function.update state.directory target current
  anonymous := state.anonymous
  capture := { System.ready state.directory target temporary with
    rootDescriptor := false
    parentDescriptor := false
    temporaryDescriptor := false
    temporaryName := none }

section Cleanup

variable {returned : Unit → HelperState → Prop} {raised : Failure → HelperState → Prop}

theorem ensures_cleanup_staged (apart : temporary ≠ target)
    (free : state.directory temporary = none) :
    cleanupOffloadCapture.Ensures (system.staged state target temporary content current) returned
      raised ↔ returned () (System.cleaned state target temporary current) := by
  have unlinked : Function.update (system.staged state target temporary content current).directory
      temporary none = Function.update state.directory target current := by
    rw [System.staged, Function.update_comm apart.symm, Function.update_idem, ← free,
      Function.update_eq_self]
  simp only [cleanupOffloadCapture, ensures_modify, staged_capture, System.ready, unlinked]
  rfl

theorem ensures_cleanup_published (free : state.directory temporary = none) :
    cleanupOffloadCapture.Ensures (system.published state target temporary content) returned raised ↔
      returned () (System.cleaned state target temporary
        (some (system.temporaryNode state target content))) := by
  have absent : Function.update state.directory temporary none = state.directory := by
    rw [← free, Function.update_eq_self]
  simp only [cleanupOffloadCapture, ensures_modify, System.published, System.ready, absent]
  rfl

end Cleanup

end Publishing

/-! ## Reporting -/

/-- The bytes that a capture keeps. -/
def Limits.captured (limits : Limits) (process : Process) : List UInt8 :=
  process.output.take limits.captureLimit

/-- The report of a capture that is returned inline. -/
def inlineReport (limits : Limits) (process : Process) (exitCode : Int) : Report where
  offloaded := false
  output := decodeReplace (limits.captured process)
  exitCode
  truncated := decide (process.output.length ≥ limits.captureLimit)

/-- The report of a capture that was published. -/
def offloadedReport (limits : Limits) (process : Process) (exitCode : Int) : Report where
  offloaded := true
  output := decodeReplace (offloadPreview (limits.captured process))
  exitCode
  truncated := decide (process.output.length ≥ limits.captureLimit)

theorem cleanup_unnamed {between : HelperState} (unnamed : Unnamed between [])
    (content : List UInt8) :
    ∃ after : HelperState, after.directory = between.directory ∧ after.anonymous = none ∧
      ∀ returned raised, cleanupOffloadCapture.Ensures (between.holding content) returned raised ↔
        returned () after := by
  refine ⟨_, ?_, ?_, fun _ _ => Iff.rfl⟩
  · simp [HelperState.holding, unnamed.file, unnamed.name]
  · simp [HelperState.holding, unnamed.file]

section Reporting

variable {limits : Limits} {process : Process} {others : Others} {state : HelperState}
  {returned : Report → HelperState → Prop} {raised : Failure → HelperState → Prop}

theorem ensures_captureLoop {returned : Nat → HelperState → Prop} {limit : Nat}
    (holds : state.Holds) (empty : state.holding [] = state) :
    (captureLoop limit 0 process.chunks).Ensures state returned raised ↔
      returned process.output.length (state.holding (process.output.take limit)) := by
  have loop : (captureLoop limit ([] : List UInt8).length process.chunks).Ensures
      (state.holding (([] : List UInt8).take limit)) returned raised ↔
      returned process.output.length (state.holding (process.output.take limit)) :=
    holds.captureLoop
  rwa [List.take_nil, empty] at loop

/-- A capture in an unnamed file is returned inline. -/
theorem ensures_reportCapture_unnamed (unnamed : Unnamed state []) :
    (reportCapture limits (.ok process) others).Ensures state returned raised ↔
      match process.exit with
      | .error failure => raised failure (state.holding (limits.captured process))
      | .ok exitCode => returned (inlineReport limits process exitCode)
          (state.holding (limits.captured process)) := by
  have holds : state.Holds := .inl ⟨unnamed.file, by rw [unnamed.content]; rfl⟩
  have empty : state.holding [] = state := by
    rw [HelperState.holding, if_pos unnamed.file, ← unnamed.content]
  have still {content : List UInt8} {next : Option Node} {returned : Unit → HelperState → Prop} :
      (othersLink next).Ensures (state.holding content) returned raised ↔
        returned () (state.holding content) := by
    simp only [othersLink, ensures_modify, holding_capture, unnamed.safe]
  simp only [reportCapture, ensures_bind, ensures_ofExcept, ensures_captureLoop holds empty]
  cases exit : process.exit with
  | error failure =>
    simp only [exit, reduceCtorEq, false_implies, implies_true, Except.error.injEq, forall_eq',
      true_and, Except.ok.injEq, and_true, Limits.captured]
  | ok exitCode =>
    simp only [exit, Except.ok.injEq, forall_eq', reduceCtorEq, false_implies, implies_true, and_true,
      ensures_bind, ensures_get, still, ensures_ite, ensures_pure, holds.captured, holding_capture,
      unnamed.safe, Bool.false_eq_true, not_false_eq_true, forall_true_left, true_and]
    exact Classical.imp_and_neg_imp_iff _

/-- A capture in a temporary file beside its target is published when it is too long and the target
looks unchanged. -/
theorem ensures_reportCapture_staged {system : System} {target temporary : String}
    {current : Option Node} (apart : temporary ≠ target) :
    (reportCapture limits (.ok process) others).Ensures
      (system.staged state target temporary [] current) returned raised ↔
      match process.exit with
      | .error failure =>
        raised failure (system.staged state target temporary (limits.captured process) current)
      | .ok exitCode =>
        if (limits.captured process).length ≤ limits.inlineLimit ∨
            isUnchanged ((state.directory target).map Node.identity) others.atCheck = false then
          returned (inlineReport limits process exitCode)
            (system.staged state target temporary (limits.captured process) others.atRename)
        else if others.atRename.any fun node => node.kind = .directory then
          raised .eisdir
            (system.staged state target temporary (limits.captured process) others.atRename)
        else
          returned (offloadedReport limits process exitCode)
            (system.published state target temporary (limits.captured process)) := by
  have holds : (system.staged state target temporary [] current).Holds := holds_staged apart
  have empty : (system.staged state target temporary [] current).holding [] =
      system.staged state target temporary [] current := holding_staged apart
  simp only [reportCapture, ensures_bind, ensures_ofExcept, ensures_captureLoop holds empty,
    holding_staged apart]
  cases exit : process.exit with
  | error failure =>
    simp only [exit, reduceCtorEq, false_implies, implies_true, Except.error.injEq, forall_eq',
      true_and, Except.ok.injEq, and_true, Limits.captured]
  | ok exitCode =>
    simp only [exit, Except.ok.injEq, forall_eq', reduceCtorEq, false_implies, implies_true, and_true,
      ensures_bind, ensures_get, ensures_othersLink, ensures_ite, ensures_pure,
      captured_staged apart, staged_capture, System.ready, ensures_publish apart,
      Bool.false_eq_true, not_false_eq_true, forall_true_left, true_and, not_true]
    by_cases fits : (limits.captured process).length ≤ limits.inlineLimit
    · simp only [fits, true_or, if_true]
      exact ⟨fun both => both.1 fits, fun held => ⟨fun _ => held, fun long => absurd fits long⟩⟩
    · simp only [fits, false_or]
      exact ⟨fun both => both.2 fits, fun held => ⟨fun short => absurd short fits, fun _ => held⟩⟩

/-- What a capture that was prepared comes to. -/
theorem ensures_offloadCommand {system : System} {started : Except Failure Process}
    {target temporary : String}
    (names : system.prepares state.directory = .ok (target, temporary))
    (apart : temporary ≠ target) (free : state.directory temporary = none) :
    (offloadCommand limits system started others).Ensures state returned raised ↔
      match started with
      | .error failure =>
        raised failure (System.cleaned state target temporary (state.directory target))
      | .ok process =>
        match process.exit with
        | .error failure =>
          raised failure (System.cleaned state target temporary (state.directory target))
        | .ok exitCode =>
          if (limits.captured process).length ≤ limits.inlineLimit ∨
              isUnchanged ((state.directory target).map Node.identity) others.atCheck = false then
            returned (inlineReport limits process exitCode)
              (System.cleaned state target temporary others.atRename)
          else if others.atRename.any fun node => node.kind = .directory then
            raised .eisdir (System.cleaned state target temporary others.atRename)
          else
            returned (offloadedReport limits process exitCode)
              (System.cleaned state target temporary
                (some (system.temporaryNode state target (limits.captured process)))) := by
  simp only [offloadCommand, ensures_bind, ensures_prepare names, readyState_eq apart,
    ensures_tryCatch, ensures_throw, ensures_pure]
  cases started with
  | error failure =>
    simp only [reportCapture, ensures_bind, ensures_ofExcept, reduceCtorEq, false_implies,
      implies_true, Except.error.injEq, forall_eq', true_and, ensures_cleanup_staged apart free]
  | ok process =>
    simp only [ensures_reportCapture_staged apart]
    cases exit : process.exit with
    | error failure => simp only [ensures_cleanup_staged apart free]
    | ok exitCode =>
      simp only [ensures_cleanup_staged apart free, ensures_cleanup_published free]

end Reporting

/-! ## Faithful reports -/

/-- The target of a capture that was prepared. -/
def System.target? (system : System) (directory : String → Option Node) : Option String :=
  (system.prepares directory).toOption.map Prod.fst

/-- A report tells what became of the output, and nothing but the target changed. -/
structure Reported (limits : Limits) (process : Process) (exitCode : Int) (prepared : Option String)
    (others : Others) (before : HelperState) (report : Report) (after : HelperState) : Prop where
  exit : report.exitCode = exitCode
  /-- The report says whether a byte of the output was dropped. -/
  truncated : report.truncated = true ↔ (limits.captured process).length < process.output.length
  /-- All that was captured is returned when it fits or cannot be published. -/
  inline : ((limits.captured process).length ≤ limits.inlineLimit ∨ ∀ target ∈ prepared,
      others.atCheck ≠ before.directory target ∨ others.atRename ≠ before.directory target) →
    report.offloaded = false ∧ report.output = decodeReplace (limits.captured process) ∧
      after.directory = match prepared with
        | none => before.directory
        | some target => Function.update before.directory target others.atRename
  /-- Otherwise the target holds all that was captured. -/
  published : ∀ target ∈ prepared, limits.inlineLimit < (limits.captured process).length →
    others.atCheck = before.directory target → others.atRename = before.directory target →
      report.offloaded = true ∧
      report.output = decodeReplace (offloadPreview (limits.captured process)) ∧
      ∃ node, node.kind = .regular ∧ node.content = limits.captured process ∧
        after.directory = Function.update before.directory target (some node)
  closed : after.anonymous = none

/-- A capture reports its output faithfully, or fails without a trace. -/
def Faithful (limits : Limits) (system : System) (started : Except Failure Process)
    (others : Others) (before : HelperState) : Prop :=
  (offloadCommand limits system started others).Ensures before
    (fun report after => ∃ process exitCode, started = .ok process ∧ process.exit = .ok exitCode ∧
      Reported limits process exitCode (system.target? before.directory) others before report after)
    (fun failure after => (system.prepares before.directory = .error failure ∨
        started = .error failure ∨ ∃ process, started = .ok process ∧ process.exit = .error failure) ∧
      after.directory = before.directory ∧ after.anonymous = none)

/-- No temporary file was left by a failed preparation, the output does not end at the capture limit,
and a target that passes the check before a publication is as it was prepared up to the rename. -/
def Accountable (limits : Limits) (system : System) (started : Except Failure Process)
    (others : Others) (directory : String → Option Node) : Prop :=
  system.leftover directory = none ∧ ∀ process exitCode, started = .ok process →
    process.exit = .ok exitCode →
    (∀ failure, system.prepares directory = .error failure → failure.isUnsafe = true) →
      process.output.length ≠ limits.captureLimit ∧
      ∀ target ∈ system.target? directory, limits.inlineLimit < (limits.captured process).length →
        isUnchanged ((directory target).map Node.identity) others.atCheck = true →
          others.atCheck = directory target ∧ others.atRename = directory target

section Faithful

variable {limits : Limits} {process : Process} {started : Except Failure Process} {others : Others}
  {system : System} {state : HelperState}

theorem truncated_iff :
    (decide (process.output.length ≥ limits.captureLimit) = true ↔
      (limits.captured process).length < process.output.length) ↔
        process.output.length ≠ limits.captureLimit := by
  rw [decide_eq_true_iff, Limits.captured, List.length_take]
  omega

/-- A temporary file gets a name that was not taken. -/
theorem allocates_free {target temporary : String}
    (names : system.allocates state.directory = .ok (target, temporary)) :
    state.directory temporary = none ∧
      (state.directory target).any (fun node => node.kind ≠ .regular) = false ∧
      ∃ draw, temporaryName (system.draws draw) = temporary := by
  cases root : system.openRoot with
  | error failure => simp [System.allocates, root, bind, Except.bind] at names
  | ok =>
  cases canonical : system.canonicalParts with
  | error failure => simp [System.allocates, root, canonical, bind, Except.bind] at names
  | ok parts =>
  simp only [System.allocates, root, canonical, bind, Except.bind] at names
  cases last : parts.getLast? with
  | none =>
    rw [last] at names
    cases names
  | some found =>
    rw [last] at names
    cases parent : system.openTransferParent with
    | error failure => simp [parent] at names
    | ok =>
      simp only [parent] at names
      split at names
      · cases names
      · next regular =>
          split at names
          · cases names
          · next name chosen =>
              obtain ⟨rfl, rfl⟩ := Prod.mk.inj (Except.ok.inj names)
              refine ⟨Option.isNone_iff_eq_none.mp (List.find?_some chosen :),
                Bool.eq_false_iff.mpr regular, ?_⟩
              obtain ⟨drawn, member, same⟩ := List.mem_map.mp (List.mem_of_find?_eq_some chosen)
              obtain ⟨draw, rfl⟩ := List.mem_ofFn.mp member
              exact ⟨draw, same⟩

theorem prepares_ok {target temporary : String}
    (names : system.prepares state.directory = .ok (target, temporary)) :
    system.allocates state.directory = .ok (target, temporary) ∧
      system.leftover state.directory = none := by
  unfold System.prepares at names
  cases allocated : system.allocates state.directory with
  | error failure => simp [allocated, bind, Except.bind] at names
  | ok pair =>
    cases changed : system.fchmod with
    | error failure => simp [allocated, changed, bind, Except.bind] at names
    | ok =>
      simp only [allocated, changed, bind, Except.bind, pure, Except.pure] at names
      exact ⟨names, by simp [System.leftover, allocated, changed]⟩

/-- A failed preparation leaves the directory alone unless it leaves a temporary file. -/
theorem remains_eq_iff :
    system.remains state.directory = state.directory ↔ system.leftover state.directory = none := by
  unfold System.remains
  cases left : system.leftover state.directory with
  | none => simp
  | some temporary =>
    refine iff_of_false (fun same => ?_) nofun
    unfold System.leftover at left
    split at left
    · next target other _ names _ =>
        obtain rfl := Option.some.inj left
        have present : Function.update state.directory other (some system.created) other =
            state.directory other := congrFun same other
        rw [Function.update_self, (allocates_free names).1] at present
        cases present
    · cases left

theorem accountable_iff {exitCode : Int} (exit : process.exit = .ok exitCode)
    (harmless : ∀ failure, system.prepares state.directory = .error failure →
      failure.isUnsafe = true) :
    Accountable limits system (.ok process) others state.directory ↔
      system.leftover state.directory = none ∧ process.output.length ≠ limits.captureLimit ∧
        ∀ target ∈ system.target? state.directory,
          limits.inlineLimit < (limits.captured process).length →
          isUnchanged ((state.directory target).map Node.identity) others.atCheck = true →
            others.atCheck = state.directory target ∧ others.atRename = state.directory target := by
  refine and_congr_right fun _ => ⟨fun every => every process exitCode rfl exit harmless, ?_⟩
  rintro both other _ same - -
  obtain rfl := Except.ok.inj same
  exact both

theorem exists_reported_iff {exitCode : Int} {prepared : Option String} {report : Report}
    {after : HelperState} (exit : process.exit = .ok exitCode) :
    (∃ other code, (.ok process : Except Failure Process) = .ok other ∧ other.exit = .ok code ∧
      Reported limits other code prepared others state report after) ↔
      Reported limits process exitCode prepared others state report after := by
  constructor
  · rintro ⟨other, code, same, exits, reported⟩
    obtain rfl := Except.ok.inj same
    obtain rfl := Except.ok.inj (exit.symm.trans exits)
    exact reported
  · exact fun reported => ⟨process, exitCode, rfl, exit, reported⟩

theorem isUnchanged_self {current : Option Node}
    (regular : current.any (fun node => node.kind ≠ .regular) = false) :
    isUnchanged (current.map Node.identity) current = true := by
  cases current with
  | none => rfl
  | some node => simpa [isUnchanged] using regular

/-- A capture in a temporary file beside its target. -/
theorem faithful_iff_of_prepared {target temporary : String}
    (names : system.prepares state.directory = .ok (target, temporary)) (apart : temporary ≠ target)
    (closed : state.anonymous = none) :
    Faithful limits system started others state ↔
      Accountable limits system started others state.directory := by
  obtain ⟨allocated, kept⟩ := prepares_ok names
  obtain ⟨free, regular, -⟩ := allocates_free allocated
  have prepared : system.target? state.directory = some target := by
    rw [System.target?, names]
    rfl
  have same : Function.update state.directory target (state.directory target) = state.directory :=
    Function.update_eq_self _ _
  rw [Faithful, ensures_offloadCommand names apart free]
  cases started with
  | error failure => exact iff_of_true ⟨.inr (.inl rfl), same, closed⟩ ⟨kept, nofun⟩
  | ok process =>
  cases exit : process.exit with
  | error failure =>
    simp only [exit]
    refine iff_of_true ⟨.inr (.inr ⟨process, rfl, exit⟩), same, closed⟩ ⟨kept, ?_⟩
    rintro other code started exits
    obtain rfl := Except.ok.inj started
    exact absurd (exit.symm.trans exits) nofun
  | ok exitCode =>
  rw [accountable_iff exit fun failure failed => absurd (names.symm.trans failed) nofun]
  simp only [exit, exists_reported_iff exit, prepared, Option.mem_some_iff, forall_eq', kept,
    true_and]
  by_cases plain : (limits.captured process).length ≤ limits.inlineLimit ∨
      isUnchanged ((state.directory target).map Node.identity) others.atCheck = false
  · -- The report is inline, and nothing of the condition about the target applies.
    rw [if_pos plain]
    have spared (long : limits.inlineLimit < (limits.captured process).length)
        (unchanged : isUnchanged ((state.directory target).map Node.identity) others.atCheck = true) :
        False := by
      rcases plain with short | changed
      · exact absurd short (Nat.not_le.mpr long)
      · exact absurd (changed.symm.trans unchanged) nofun
    constructor
    · exact fun reported => ⟨truncated_iff.mp reported.truncated, fun long unchanged =>
        (spared long unchanged).elim⟩
    · rintro ⟨apartFromLimit, -⟩
      refine ⟨rfl, truncated_iff.mpr apartFromLimit, fun _ => ⟨rfl, rfl, rfl⟩, ?_, closed⟩
      intro other same long atCheck _
      obtain rfl := Option.some.inj same
      refine (spared long ?_).elim
      rw [atCheck]
      exact isUnchanged_self regular
  · rw [if_neg plain]
    obtain ⟨long, unchanged⟩ := not_or.mp plain
    have long := Nat.not_le.mp long
    rw [Bool.not_eq_false] at unchanged
    by_cases untouched : others.atCheck = state.directory target ∧
        others.atRename = state.directory target
    · -- The target is the prepared one, so the capture is published.
      have irregular : (others.atRename.any fun node => node.kind = .directory) = false := by
        rw [untouched.2]
        cases found : state.directory target with
        | none => rfl
        | some node =>
          rw [found] at regular
          have kind : node.kind = .regular := by simpa using regular
          simp [kind]
      rw [if_neg (by rw [irregular]; nofun)]
      constructor
      · exact fun reported => ⟨truncated_iff.mp reported.truncated, fun _ _ => untouched⟩
      · rintro ⟨apartFromLimit, -⟩
        refine ⟨rfl, truncated_iff.mpr apartFromLimit, ?_, ?_, closed⟩
        · rintro (short | changed)
          · exact absurd short (Nat.not_le.mpr long)
          · exact absurd untouched (not_and_or.mpr (changed target rfl))
        · intro other same _ _ _
          obtain rfl := Option.some.inj same
          exact ⟨rfl, rfl, _, rfl, rfl, rfl⟩
    · -- A changed target would have to be left alone.
      refine iff_of_false ?_ fun both => untouched (both.2 long unchanged)
      split
      · rintro ⟨failed | failed | ⟨other, started, exits⟩, -⟩
        · exact absurd (names.symm.trans failed) nofun
        · cases failed
        · obtain rfl := Except.ok.inj started
          exact absurd (exit.symm.trans exits) nofun
      · intro reported
        have inline := reported.inline (.inr fun other same => ?_)
        · exact absurd inline.1 nofun
        · obtain rfl := Option.some.inj same
          exact not_and_or.mp untouched

/-- A capture in an unnamed file. -/
theorem faithful_iff_of_unnamed {failure : Failure}
    (failed : system.prepares state.directory = .error failure)
    (unsafePath : failure.isUnsafe = true) :
    Faithful limits system started others state ↔
      Accountable limits system started others state.directory := by
  obtain ⟨between, directory, unnamed, runs⟩ := prepare_unnamed failed unsafePath
  have prepared : system.target? state.directory = none := by
    rw [System.target?, failed]
    rfl
  have harmless (other : Failure) (again : system.prepares state.directory = .error other) :
      other.isUnsafe = true := by
    obtain rfl := Except.error.inj (again.symm.trans failed)
    exact unsafePath
  have emptied : between.holding [] = between := by
    rw [HelperState.holding, if_pos unnamed.file, ← unnamed.content]
  rw [Faithful, offloadCommand, ensures_bind, runs]
  simp only [ensures_bind, ensures_tryCatch, ensures_throw, ensures_pure]
  cases started with
  | error failure =>
    obtain ⟨after, left, gone, cleanup⟩ := cleanup_unnamed unnamed []
    rw [emptied] at cleanup
    simp only [reportCapture, ensures_bind, ensures_ofExcept, reduceCtorEq, false_implies,
      implies_true, Except.error.injEq, forall_eq', true_and, cleanup]
    rw [left, directory, remains_eq_iff]
    constructor
    · exact fun failed => ⟨failed.2.1, by simp⟩
    · exact fun both => ⟨.inr (.inl trivial), both.1, gone⟩
  | ok process =>
    simp only [ensures_reportCapture_unnamed unnamed]
    obtain ⟨after, left, gone, cleanup⟩ := cleanup_unnamed unnamed (limits.captured process)
    rw [directory] at left
    cases exit : process.exit with
    | error failure =>
      simp only [cleanup]
      rw [left, remains_eq_iff]
      constructor
      · rintro ⟨-, kept, -⟩
        refine ⟨kept, ?_⟩
        rintro other code started exits
        obtain rfl := Except.ok.inj started
        exact by cases exit.symm.trans exits
      · exact fun both => ⟨.inr (.inr ⟨process, rfl, exit⟩), both.1, gone⟩
    | ok exitCode =>
      rw [accountable_iff exit harmless]
      simp only [cleanup, exists_reported_iff exit, prepared]
      constructor
      · intro reported
        have inline := reported.inline (.inr (by simp))
        refine ⟨remains_eq_iff.mp (left.symm.trans inline.2.2), ?_, by simp⟩
        exact truncated_iff.mp reported.truncated
      · rintro ⟨kept, apartFromLimit, -⟩
        refine ⟨rfl, truncated_iff.mpr apartFromLimit, fun _ => ⟨rfl, rfl, ?_⟩, by simp, gone⟩
        exact left.trans (remains_eq_iff.mpr kept)

theorem faithful_iff_of_refused {failure : Failure}
    (failed : system.prepares state.directory = .error failure) (severe : failure.isUnsafe = false)
    (closed : state.anonymous = none) :
    Faithful limits system started others state ↔
      Accountable limits system started others state.directory := by
  obtain ⟨between, directory, anonymous, runs⟩ := prepare_refused failed severe
  rw [Faithful, offloadCommand, ensures_bind, runs, directory, remains_eq_iff, anonymous, Accountable]
  constructor
  · rintro ⟨-, kept, -⟩
    refine ⟨kept, fun process exitCode _ _ onlyUnsafe => ?_⟩
    exact absurd (severe.symm.trans (onlyUnsafe failure failed)) nofun
  · rintro ⟨kept, -⟩
    exact ⟨.inl failed, kept, closed⟩

end Faithful

/-! ## Reports of small captures -/

/-- A system that answers every call, for a capture at one name. -/
def sampleSystem : System where
  openRoot := .ok ()
  canonicalParts := .ok ["capture.txt"]
  openTransferParent := .ok ()
  draws := fun _ => "00"
  identity := (1, 1)
  fchmod := .ok ()

/-- A command that writes three bytes in two chunks. -/
def sampleProcess : Process where
  chunks := [[97, 98], [99]]
  exit := .ok 0

/-- The helper in an empty directory. -/
def sampleState : HelperState where
  directory := fun _ => none

theorem sample_fresh (draw : Fin 16) :
    sampleSystem.target? sampleState.directory ≠ some (temporaryName (sampleSystem.draws draw)) := by
  decide +revert

end Tinkerfin.Sandbox.OffloadCapture
