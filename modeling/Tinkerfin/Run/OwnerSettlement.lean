import Tinkerfin.Run.Owner

/-!
# Settlement of a run

Whatever callers, controllers, the coordinator and native work do, a run leaves the coordinator's
scope once, in the task that entered it and after native resources were released; a controller
cancels native work at most once and never while it settles or closes an iterator; no command starts
after settlement began; and nothing that a caller awaits outlives the native task.  This holds in
every interleaving in which no stop request hits a task before its first step.
-/

namespace Tinkerfin.Run

/-! ## The order of a scope -/

/-- How far the coordinator's scope got. -/
structure ScopeOrder where
  entered : Bool := false
  released : Bool := false
  exited : Bool := false
  deriving DecidableEq

/-- The order after an effect: a scope is entered once, and left once after a release. -/
def ScopeOrder.advance (releases : OwnerEffect → Bool) (order : ScopeOrder) :
    OwnerEffect → Option ScopeOrder
  | .scopeEntered _ => if order.entered then none else some { order with entered := true }
  | .scopeExited _ =>
    if order.entered && order.released && !order.exited then some { order with exited := true }
    else none
  | effect => some { order with released := order.released || releases effect }

/-- The order of a log, if the scope is entered and left in turn. -/
def ScopeOrder.ofLog (releases : OwnerEffect → Bool) (log : List OwnerEffect) :
    Option ScopeOrder :=
  log.foldlM (advance releases) {}

theorem ScopeOrder.ofLog_append {releases : OwnerEffect → Bool} {log : List OwnerEffect}
    {order : ScopeOrder} (reached : ofLog releases log = some order) (effect : OwnerEffect) :
    ofLog releases (log ++ [effect]) = order.advance releases effect := by
  rw [ofLog, List.foldlM_append]
  change (ofLog releases log >>= _) = _
  rw [reached]
  simp

/-- The close operation has finished. -/
def OwnerEffect.closes : OwnerEffect → Bool
  | .closeFinished => true
  | _ => false

/-- Native resources were released, or the close operation has finished. -/
def OwnerEffect.releases : OwnerEffect → Bool
  | .resourcesReleased => true
  | .closeFinished => true
  | _ => false

def OwnerEffect.isCancel : OwnerEffect → Bool
  | .cancelled _ _ => true
  | _ => false

/-- An effect that a run may record: scopes belong to the supervisor, and neither cancellations nor
commands reach a run that settles. -/
def OwnerEffect.Fits : OwnerEffect → Prop
  | .scopeEntered task => task = .supervisor
  | .scopeExited task => task = .supervisor
  | .cancelled settling closingIterators => settling = false ∧ closingIterators = 0
  | .operationStarted _ settling => settling = false
  | _ => True

/-! ## The invariant -/

namespace RunOwner

/-- The supervisor has left the scope, or has none to leave. -/
def left (owner : RunOwner) : Bool :=
  owner.supervisor == .exiting || owner.supervisor == .joining || owner.supervisor == .ended

/-- What holds between any two steps. -/
structure Sound (owner : RunOwner) : Prop where
  order : ScopeOrder.ofLog OwnerEffect.releases owner.log =
    some { entered := owner.scope, released := owner.release, exited := owner.scope && owner.left }
  fits : ∀ effect ∈ owner.log, effect.Fits
  cancels : (owner.log.filter OwnerEffect.isCancel).length = owner.controllerCancels
  once : owner.controllerCancels ≤ 1
  settles : owner.settling = true → owner.stopping = true
  stops : 0 < owner.controllerCancels → owner.stopping = true
  early : owner.supervisor = .absent ∨ owner.supervisor = .created ∨ owner.supervisor = .entering →
    owner.native = .absent ∧ owner.scope = false
  fresh : owner.supervisor = .absent ∨ owner.supervisor = .created →
    owner.supervisorCancelled = false
  unstarted : owner.native = .absent → owner.results = [] ∧ owner.release = false ∧
    owner.settling = false ∧ owner.closingIterators = 0 ∧ owner.controllerCancels = 0 ∧
    owner.timerCancels = 0 ∧ owner.nativeCancelled = false
  created : owner.native = .created → owner.settling = false ∧ owner.closingIterators = 0 ∧
    owner.timerCancels = 0 ∧ owner.nativeCancelled = false
  idle : owner.native = .idle → owner.settling = false ∧ owner.closingIterators = 0 ∧
    owner.timerCancels = 0 ∧ owner.nativeCancelled = owner.stopping
  ready : owner.native = .idle ∨ (∃ call, owner.native = .running call) ∨
    owner.native = .closing ∨ owner.native = .ended → owner.ready = true
  ended : owner.native = .ended → owner.release = true ∧ ∀ result ∈ owner.results, result = true
  leaves : owner.supervisor = .exiting ∨ owner.supervisor = .joining → owner.release = true
  joined : owner.supervisor = .ended → owner.ready = true ∧
    (owner.native = .ended ∨ owner.native = .absent ∧ owner.scope = false)
  unresolved : ∀ call : Nat, owner.results[call]? = some false → owner.failPending = some call
  waits : owner.failPending.isSome = true → owner.pending = true

variable {owner : RunOwner}

/-! ## Stop requests -/

/-- No task is created and not started yet. -/
def Started (owner : RunOwner) : Prop :=
  owner.supervisor ≠ .created ∧ owner.native ≠ .created

theorem Sound.log_append (sound : owner.Sound) {effect : OwnerEffect} (fits : effect.Fits) :
    ∀ other ∈ owner.log ++ [effect], other.Fits := by
  intro other member
  obtain old | new := List.mem_append.mp member
  · exact sound.fits other old
  · obtain rfl := List.mem_singleton.mp new
    exact fits

theorem Sound.order_append (sound : owner.Sound) {effect : OwnerEffect} {release : Bool}
    (next : ScopeOrder.advance OwnerEffect.releases
      { entered := owner.scope, released := owner.release, exited := owner.scope && owner.left }
      effect =
        some { entered := owner.scope, released := release, exited := owner.scope && owner.left }) :
    ScopeOrder.ofLog OwnerEffect.releases (owner.log ++ [effect]) =
      some { entered := owner.scope, released := release, exited := owner.scope && owner.left } := by
  rw [ScopeOrder.ofLog_append sound.order, next]

theorem Sound.cancels_append (sound : owner.Sound) {effect : OwnerEffect}
    (other : effect.isCancel = false) :
    ((owner.log ++ [effect]).filter OwnerEffect.isCancel).length = owner.controllerCancels := by
  rw [List.filter_append, List.filter_cons_of_neg (by simp [other]), List.filter_nil,
    List.append_nil, sound.cancels]

theorem Sound.stop (sound : owner.Sound) (started : owner.Started) : owner.stop.Sound := by
  obtain ⟨supervised, running⟩ := started
  unfold RunOwner.stop
  split
  · next absent =>
      have waiting (same : owner.native = .idle) : False := nomatch absent.symm.trans same
      split
      · next begun =>
          exact { sound with
            settles := fun _ => rfl
            stops := fun _ => rfl
            idle := fun same => (waiting same).elim
            fresh := fun early => (early.elim begun.1 supervised).elim }
      · exact { sound with
          settles := fun _ => rfl
          stops := fun _ => rfl
          idle := fun same => (waiting same).elim }
  · next present =>
      split
      · next cancellable =>
          simp only [RunOwner.cancellable, cancelling, Bool.and_eq_true, Bool.not_eq_true',
            beq_iff_eq, bne_iff_ne, Nat.add_eq_zero_iff] at cancellable
          obtain ⟨⟨⟨settling, closing⟩, unfinished⟩, uncancelled, -⟩ := cancellable
          have once : owner.controllerCancels + 1 ≤ 1 := by omega
          refine { sound with
            order := sound.order_append ?_
            fits := sound.log_append ⟨settling, closing⟩
            cancels := ?_
            once := once
            settles := fun _ => rfl
            stops := fun _ => rfl
            unstarted := fun same => absurd same present
            created := fun same => absurd same running
            idle := fun same => ?_ }
          · simp [ScopeOrder.advance, OwnerEffect.releases]
          · rw [List.filter_append, List.length_append, sound.cancels]
            rfl
          · obtain ⟨calm, rest, armed, -⟩ := sound.idle same
            exact ⟨calm, rest, armed, rfl⟩
      · next refused =>
          refine { sound with settles := fun _ => rfl, stops := fun _ => rfl, idle := fun same => ?_ }
          obtain ⟨calm, rest, armed, delivered⟩ := sound.idle same
          refine ⟨calm, rest, armed, ?_⟩
          have again : 0 < owner.controllerCancels := by
            by_contra none
            have zero : owner.controllerCancels = 0 := by omega
            apply refused
            rw [RunOwner.cancellable, cancelling, calm, rest, armed, zero, same]
            decide
          rw [delivered, sound.stops again]

/-! ## The end of the native task -/

theorem Sound.resolved (sound : owner.Sound) {call : Nat} (awaited : owner.failPending = some call) :
    ∀ result ∈ owner.results.set call true, result = true := by
  intro result member
  obtain ⟨index, found⟩ := List.mem_iff_getElem?.mp member
  rw [List.getElem?_set] at found
  split at found
  · split at found
    · exact (Option.some.inj found).symm
    · cases found
  · next other =>
      cases result with
      | true => rfl
      | false =>
        have same := sound.unresolved index found
        exact absurd (Option.some.inj (awaited.symm.trans same)) other

theorem Sound.all_resolved (sound : owner.Sound) (awaited : owner.failPending = none) :
    ∀ result ∈ owner.results, result = true := by
  intro result member
  obtain ⟨index, found⟩ := List.mem_iff_getElem?.mp member
  cases result with
  | true => rfl
  | false => cases awaited.symm.trans (sound.unresolved index found)

/-- Setting a result leaves fewer operations open. -/
theorem Sound.resolve (sound : owner.Sound) (call : Nat) : (owner.resolve call).Sound := by
  refine { sound with
    unstarted := fun same => ?_
    ended := fun same => ⟨(sound.ended same).1, ?_⟩
    unresolved := ?_ }
  · have bare := sound.unstarted same
    exact ⟨by simp [RunOwner.resolve, bare.1], bare.2⟩
  · intro result member
    obtain old | rfl := List.mem_or_eq_of_mem_set member
    · exact (sound.ended same).2 result old
    · rfl
  · intro other found
    rw [RunOwner.resolve, List.getElem?_set] at found
    split at found
    · split at found <;> simp at found
    · exact sound.unresolved other found

theorem Sound.finish (sound : owner.Sound) (present : owner.native ≠ .absent)
    (ready : owner.ready = true) : owner.finish.Sound := by
  have begun (early : owner.supervisor = .absent ∨ owner.supervisor = .created ∨
      owner.supervisor = .entering) : False := present (sound.early early).1
  have ending (results : List Bool) (all : ∀ result ∈ results, result = true) :
      Sound { owner with
        results, release := true, native := .ended, nativeCancelled := false
        log := owner.log ++ [.closeFinished] } := by
    refine { sound with
      order := sound.order_append ?_
      fits := sound.log_append trivial
      cancels := sound.cancels_append rfl
      early := fun early => (begun early).elim
      unstarted := fun same => nomatch same
      created := fun same => nomatch same
      idle := fun same => nomatch same
      ready := fun _ => ready
      ended := fun _ => ⟨rfl, all⟩
      leaves := fun _ => rfl
      joined := fun _ => ⟨ready, .inl rfl⟩
      unresolved := fun call found => ?_ }
    · simp [ScopeOrder.advance, OwnerEffect.releases]
    · have false_mem := List.mem_of_getElem? found
      cases all false false_mem
  cases awaited : owner.failPending with
  | none =>
    have same : owner.finish = { owner with
        results := owner.results, release := true, native := .ended, nativeCancelled := false
        log := owner.log ++ [.closeFinished] } := by
      simp [RunOwner.finish, awaited]
    rw [same]
    exact ending _ (sound.all_resolved awaited)
  | some call =>
    have same : owner.finish = { owner with
        results := owner.results.set call true, release := true, native := .ended
        nativeCancelled := false, log := owner.log ++ [.closeFinished] } := by
      simp [RunOwner.finish, awaited, RunOwner.resolve]
    rw [same]
    exact ending _ (sound.resolved awaited)

/-- A command loop that ends closes the stream that the run owns. -/
theorem Sound.settle (sound : owner.Sound) (present : owner.native ≠ .absent)
    (unfinished : owner.native ≠ .ended) (ready : owner.ready = true)
    (stopping : owner.stopping = true) : owner.settle.Sound := by
  have closing :
      Sound { owner with settling := true, nativeCancelled := false, native := .closing } := by
    refine { sound with
      settles := fun _ => stopping
      early := fun early => absurd (sound.early early).1 present
      unstarted := fun same => nomatch same
      created := fun same => nomatch same
      idle := fun same => nomatch same
      ready := fun _ => ready
      ended := fun same => nomatch same
      joined := fun ended => ?_ }
    obtain ended | ⟨absent, -⟩ := (sound.joined ended).2
    · exact absurd ended unfinished
    · exact absurd absent present
  dsimp only [RunOwner.settle]
  split
  · exact closing
  · have finished := closing.finish (fun same => nomatch same) ready
    rw [RunOwner.finish] at finished ⊢
    cases awaited : owner.failPending with
    | none => simpa [awaited] using finished
    | some call => simpa [awaited, RunOwner.resolve] using finished

/-! ## The command loop -/

theorem Sound.takeCommand (sound : owner.Sound) (present : owner.native ≠ .absent)
    (unfinished : owner.native ≠ .ended) (ready : owner.ready = true)
    (calm : owner.settling = false) (call : Nat) : (owner.takeCommand call).Sound := by
  refine { sound with
    order := sound.order_append ?_
    fits := sound.log_append calm
    cancels := sound.cancels_append rfl
    early := fun early => absurd (sound.early early).1 present
    unstarted := fun same => nomatch same
    created := fun same => nomatch same
    idle := fun same => nomatch same
    ready := fun _ => ready
    ended := fun same => nomatch same
    joined := fun ended => ?_ }
  · simp [ScopeOrder.advance, OwnerEffect.releases, RunOwner.takeCommand]
  · obtain ended | ⟨absent, -⟩ := (sound.joined ended).2
    · exact absurd ended unfinished
    · exact absurd absent present

theorem atRest_iff : owner.atRest = true ↔ owner.closingIterators = 0 ∧ owner.timerCancels = 0 := by
  simp [atRest]

/-- Work that ended goes on with the next command, waits for one or closes. -/
theorem Sound.loop (sound : owner.Sound) (present : owner.native ≠ .absent)
    (unfinished : owner.native ≠ .ended) (ready : owner.ready = true) (rest : owner.atRest = true)
    (delivered : owner.nativeCancelled = false) : owner.loop.Sound := by
  unfold RunOwner.loop
  split
  · next stopping => exact sound.settle present unfinished ready stopping
  · next running =>
      have unstopped : owner.stopping = false := by simpa using running
      have calm : owner.settling = false := by
        cases settling : owner.settling with
        | false => rfl
        | true => exact absurd (sound.settles settling) running
      split
      · exact sound.takeCommand present unfinished ready calm _
      · obtain ⟨closing, armed⟩ := atRest_iff.mp rest
        refine { sound with
          early := fun early => absurd (sound.early early).1 present
          unstarted := fun same => nomatch same
          created := fun same => nomatch same
          idle := fun _ => ⟨calm, closing, armed, delivered.trans unstopped.symm⟩
          ready := fun _ => ready
          ended := fun same => nomatch same
          joined := fun ended => ?_ }
        obtain ended | ⟨absent, -⟩ := (sound.joined ended).2
        · exact absurd ended unfinished
        · exact absurd absent present

/-! ## One event -/

theorem Sound.endPreparation (sound : owner.Sound) (succeeded : Bool) :
    (owner.endPreparation succeeded).Sound := by
  unfold RunOwner.endPreparation
  split
  · next now =>
      obtain ⟨preparing, rest⟩ := now
      have prepared : Sound { owner with
          ready := true, nativeCancelled := false
          stopping := owner.stopping || !succeeded } :=
        { sound with
          settles := fun settling => by simp [sound.settles settling]
          stops := fun cancelled => by simp [sound.stops cancelled]
          unstarted := fun same => nomatch preparing.symm.trans same
          created := fun same => nomatch preparing.symm.trans same
          idle := fun same => nomatch preparing.symm.trans same
          ready := fun _ => rfl
          joined := fun ended => ⟨rfl, (sound.joined ended).2⟩ }
      exact prepared.loop (fun same => nomatch preparing.symm.trans same)
        (fun same => nomatch preparing.symm.trans same) rfl rest rfl
  · exact sound

theorem Sound.endOperation (sound : owner.Sound) : owner.endOperation.Sound := by
  unfold RunOwner.endOperation
  split
  · next call running =>
      split
      · next rest =>
          have ready := sound.ready (.inr (.inl ⟨call, running⟩))
          have delivered : Sound { owner with nativeCancelled := false } :=
            { sound with
              unstarted := fun same => nomatch running.symm.trans same
              created := fun same => nomatch running.symm.trans same
              idle := fun same => nomatch running.symm.trans same }
          exact (delivered.resolve call).loop (fun same => nomatch running.symm.trans same)
            (fun same => nomatch running.symm.trans same) ready rest rfl
      · exact sound
  · exact sound

theorem Sound.wakeNative (sound : owner.Sound) : owner.wakeNative.Sound := by
  unfold RunOwner.wakeNative
  split
  · exact sound
  · next waiting =>
      have idle : owner.native = .idle := not_not.mp waiting
      have present (same : owner.native = .absent) : False := nomatch idle.symm.trans same
      have unfinished (same : owner.native = .ended) : False := nomatch idle.symm.trans same
      have ready := sound.ready (.inl idle)
      obtain ⟨calm, -, -, delivered⟩ := sound.idle idle
      split
      · next cancelled =>
          exact sound.settle present unfinished ready (delivered.symm.trans cancelled)
      · split
        · exact sound
        · exact sound.takeCommand present unfinished ready calm _

theorem Sound.endClose (sound : owner.Sound) : owner.endClose.Sound := by
  unfold RunOwner.endClose
  split
  · next now =>
      exact sound.finish (fun same => nomatch now.1.symm.trans same)
        (sound.ready (.inr (.inr (.inl now.1))))
  · exact sound

theorem Sound.launch (sound : owner.Sound) (absent : owner.native = .absent)
    (outside : owner.scope = false) : owner.launch.Sound := by
  obtain ⟨operations, release, calm, closing, uncancelled, armed, delivered⟩ :=
    sound.unstarted absent
  have order := sound.order
  unfold RunOwner.launch
  split
  · refine { sound with
      order := ?_
      early := fun early => by simp at early
      fresh := fun early => by simp at early
      leaves := fun leaving => by simp at leaving
      ready := fun _ => rfl
      joined := fun _ => ⟨rfl, .inr ⟨absent, outside⟩⟩ }
    rw [outside] at order ⊢
    exact order
  · refine { sound with
      order := ?_
      early := fun early => by simp at early
      fresh := fun early => by simp at early
      unstarted := fun same => nomatch same
      created := fun _ => ⟨calm, closing, armed, delivered⟩
      idle := fun same => nomatch same
      ready := fun later => by simp at later
      ended := fun same => nomatch same
      leaves := fun leaving => by simp at leaving
      joined := fun same => nomatch same }
    rw [outside] at order ⊢
    exact order

theorem Sound.startSupervisor (sound : owner.Sound) : owner.startSupervisor.Sound := by
  unfold RunOwner.startSupervisor
  split
  · exact sound
  · next begun =>
      have created : owner.supervisor = .created := not_not.mp begun
      obtain ⟨absent, outside⟩ := sound.early (.inr (.inl created))
      split
      · next cancelled =>
          cases (sound.fresh (.inr created)).symm.trans cancelled
      · split
        · refine { sound with
            order := ?_
            early := fun _ => ⟨absent, outside⟩
            fresh := fun early => by simp at early
            leaves := fun leaving => by simp at leaving
            joined := fun same => nomatch same }
          have order := sound.order
          rw [outside] at order ⊢
          exact order
        · exact sound.launch absent outside

theorem Sound.enter (sound : owner.Sound) (entered : Bool) : (owner.enter entered).Sound := by
  unfold RunOwner.enter
  split
  · exact sound
  · next begun =>
      have entering : owner.supervisor = .entering := not_not.mp begun
      obtain ⟨absent, outside⟩ := sound.early (.inr (.inr entering))
      cases entered with
      | false =>
        have refused : Sound { owner with scope := false, supervisorCancelled := false } :=
          { sound with
            order := by rw [← outside]; exact sound.order
            early := fun _ => ⟨absent, rfl⟩
            fresh := fun _ => rfl
            joined := fun ended => nomatch entering.symm.trans ended }
        exact refused.launch absent rfl
      | true =>
        obtain ⟨operations, release, calm, closing, uncancelled, armed, delivered⟩ :=
          sound.unstarted absent
        have started : ({ owner with
            scope := true, supervisorCancelled := false
            log := owner.log ++ [.scopeEntered .supervisor] } : RunOwner).launch =
            { owner with
              scope := true, supervisorCancelled := false
              log := owner.log ++ [.scopeEntered .supervisor]
              native := .created, supervisor := .waiting } := by
          simp [RunOwner.launch]
        dsimp only
        rw [if_pos rfl, started]
        refine { sound with
          order := ?_
          fits := sound.log_append rfl
          cancels := sound.cancels_append rfl
          early := fun early => by simp at early
          fresh := fun early => by simp at early
          unstarted := fun same => nomatch same
          created := fun _ => ⟨calm, closing, armed, delivered⟩
          idle := fun same => nomatch same
          ready := fun later => by simp at later
          ended := fun same => nomatch same
          leaves := fun leaving => by simp at leaving
          joined := fun same => nomatch same }
        have order := sound.order
        rw [outside] at order
        rw [ScopeOrder.ofLog_append order]
        rfl

theorem Sound.wakeSupervisor (sound : owner.Sound)
    (started : owner.supervisorCancelled = true → owner.native ≠ .created) :
    owner.wakeSupervisor.Sound := by
  unfold RunOwner.wakeSupervisor
  split
  · exact sound
  · next begun =>
      have waiting : owner.supervisor = .waiting := not_not.mp begun
      split
      · next cancelled =>
          have delivered : Sound { owner with supervisorCancelled := false } :=
            { sound with fresh := fun _ => rfl }
          exact delivered.stop ⟨fun same => (nomatch waiting.symm.trans same), started cancelled⟩
      · split
        · exact sound
        · next released =>
            have release : owner.release = true := by simpa using released
            have order := sound.order
            split
            · next inside =>
                refine { sound with
                  order := ?_
                  fits := sound.log_append rfl
                  cancels := sound.cancels_append rfl
                  early := fun early => by simp at early
                  fresh := fun early => by simp at early
                  leaves := fun _ => release
                  joined := fun same => nomatch same }
                rw [ScopeOrder.ofLog_append order]
                simp [ScopeOrder.advance, inside, release, left, waiting]
            · next outside =>
                refine { sound with
                  order := ?_
                  early := fun early => by simp at early
                  fresh := fun early => by simp at early
                  leaves := fun _ => release
                  joined := fun same => nomatch same }
                have none : owner.scope = false := by simpa using outside
                rw [none] at order ⊢
                exact order

theorem Sound.startNative (sound : owner.Sound) : owner.startNative.Sound := by
  unfold RunOwner.startNative
  split
  · exact sound
  · next begun =>
      have created : owner.native = .created := not_not.mp begun
      have present (same : owner.native = .absent) : False := nomatch created.symm.trans same
      split
      · next cancelled =>
          cases (sound.created created).2.2.2.symm.trans cancelled
      · refine { sound with
          early := fun early => (present (sound.early early).1).elim
          unstarted := fun same => nomatch same
          created := fun same => nomatch same
          idle := fun same => nomatch same
          ready := fun later => by simp at later
          ended := fun same => nomatch same
          joined := fun ended => ?_ }
        obtain ended | ⟨absent, -⟩ := (sound.joined ended).2
        · cases created.symm.trans ended
        · exact (present absent).elim

theorem Sound.accept (sound : owner.Sound) : owner.accept.Sound := by
  unfold RunOwner.accept
  split
  · exact sound
  · next admitted =>
      simp only [not_or] at admitted
      obtain ⟨present, unfinished, -, free⟩ := admitted
      split
      · exact { sound with waits := fun _ => rfl }
      · refine { sound with
          unstarted := fun same => absurd same present
          ended := fun same => absurd same unfinished
          unresolved := fun call found => ?_
          waits := fun _ => rfl }
        have answered : owner.failPending = none := by
          cases awaited : owner.failPending with
          | none => rfl
          | some call => exact absurd (sound.waits (by simp [awaited])) free
        rw [List.getElem?_append] at found
        split at found
        · cases answered.symm.trans (sound.unresolved call found)
        · have last : call - owner.results.length = 0 := by
            by_contra later
            rw [List.getElem?_eq_none (by simp; omega)] at found
            cases found
          exact congrArg some (by omega)

theorem Sound.leave (sound : owner.Sound) (call : Nat) : (owner.leave call).Sound := by
  unfold RunOwner.leave
  split
  · next leaving =>
      obtain ⟨awaited, left⟩ := leaving
      have answered (other : Nat) (found : owner.results[other]? = some false) : False := by
        obtain done | ⟨-, ended⟩ := left
        · obtain rfl := Option.some.inj (awaited.symm.trans (sound.unresolved other found))
          cases done.symm.trans found
        · obtain finished | ⟨absent, -⟩ := (sound.joined ended).2
          · cases (sound.ended finished).2 false (List.mem_of_getElem? found)
          · rw [(sound.unstarted absent).1] at found
            cases found
      exact { sound with
        unresolved := fun other found => (answered other found).elim
        waits := fun held => nomatch held }
  · exact sound

/-! ## Native work on its way -/

theorem busy_iff : owner.busy = true ↔
    owner.native = .preparing ∨ (∃ call, owner.native = .running call) ∨ owner.native = .closing := by
  unfold busy
  split <;> simp_all

theorem Busy.places (busy : owner.busy = true) :
    owner.native ≠ .absent ∧ owner.native ≠ .created ∧ owner.native ≠ .idle := by
  obtain same | ⟨call, same⟩ | same := busy_iff.mp busy <;> simp [same]

end RunOwner

/-- No stop request hits a task before its first step. -/
def StopsStarted (owner : RunOwner) : OwnerEvent → Prop
  | .stop => owner.Started
  | .callCancelled _ => owner.Started
  | .supervisorWakes => owner.supervisorCancelled = true → owner.native ≠ .created
  | _ => True

namespace RunOwner

variable {owner : RunOwner}

theorem Sound.next (sound : owner.Sound) {event : OwnerEvent} (started : StopsStarted owner event) :
    (owner.next event).Sound := by
  cases event with
  | prepare =>
    dsimp only [RunOwner.next]
    split
    · next absent =>
        obtain ⟨native, outside⟩ := sound.early (.inl absent)
        refine { sound with
          order := ?_
          early := fun _ => ⟨native, outside⟩
          fresh := fun _ => sound.fresh (.inl absent)
          leaves := fun leaving => by simp at leaving
          joined := fun same => nomatch same }
        have order := sound.order
        rw [outside] at order ⊢
        exact order
    · exact sound
  | call => exact sound.accept
  | callReturns call => exact sound.leave call
  | callCancelled call =>
    have abandoned : Sound { owner with abandoned := call :: owner.abandoned } := { sound with }
    exact abandoned.stop started
  | stop => exact sound.stop started
  | supervisorStarts => exact sound.startSupervisor
  | coordinatorEnters entered => exact sound.enter entered
  | ownershipLost =>
    dsimp only [RunOwner.next]
    split
    · next waiting =>
        exact { sound with fresh := fun early => by simp [waiting] at early }
    · exact sound
  | supervisorWakes => exact sound.wakeSupervisor started
  | coordinatorExits =>
    dsimp only [RunOwner.next]
    split
    · next exiting =>
        refine { sound with
          order := ?_
          early := fun early => by simp at early
          fresh := fun early => by simp at early
          leaves := fun _ => sound.leaves (.inl exiting)
          joined := fun same => nomatch same }
        simpa [left, exiting] using sound.order
    · exact sound
  | supervisorJoins =>
    dsimp only [RunOwner.next]
    split
    · next joined =>
        obtain ⟨joining, ended⟩ := joined
        refine { sound with
          order := ?_
          early := fun early => by simp at early
          fresh := fun early => by simp at early
          leaves := fun leaving => by simp at leaving
          joined := fun _ => ⟨sound.ready (.inr (.inr (.inr ended))), .inl ended⟩ }
        simpa [left, joining] using sound.order
    · exact sound
  | nativeStarts => exact sound.startNative
  | prepared succeeded => exact sound.endPreparation succeeded
  | nativeWakes => exact sound.wakeNative
  | operationEnds => exact sound.endOperation
  | closeEnds => exact sound.endClose
  | bindClose =>
    dsimp only [RunOwner.next]
    split
    · exact { sound with }
    · exact sound
  | cleanupBegins | cleanupEnds | timerFires | timerEnds =>
    dsimp only [RunOwner.next]
    split
    · next busy =>
        obtain ⟨present, begun, working⟩ := Busy.places busy
        exact { sound with
          unstarted := fun same => absurd same present
          created := fun same => absurd same begun
          idle := fun same => absurd same working }
    · exact sound
  | stopsItself =>
    dsimp only [RunOwner.next]
    split
    · next busy =>
        obtain ⟨present, begun, working⟩ := Busy.places busy
        exact { sound with
          settles := fun _ => rfl
          stops := fun _ => rfl
          idle := fun same => absurd same working }
    · exact sound
  | beginSettlement =>
    dsimp only [RunOwner.next]
    split
    · next busy =>
        obtain ⟨present, begun, working⟩ := Busy.places busy
        exact { sound with
          settles := fun _ => rfl
          stops := fun _ => rfl
          unstarted := fun same => absurd same present
          created := fun same => absurd same begun
          idle := fun same => absurd same working }
    · exact sound
  | releaseCoordination =>
    dsimp only [RunOwner.next]
    split
    · next now =>
        obtain ⟨present, begun, working⟩ := Busy.places now.1
        refine { sound with
          order := sound.order_append ?_
          fits := sound.log_append trivial
          cancels := sound.cancels_append rfl
          unstarted := fun same => absurd same present
          ended := fun ended => ⟨rfl, (sound.ended ended).2⟩
          leaves := fun _ => rfl }
        simp [ScopeOrder.advance, OwnerEffect.releases]
    · exact sound

/-! ## Draining -/

/-- What the supervisor still does when the native task has ended. -/
def drain : List OwnerEvent :=
  [.supervisorWakes, .supervisorWakes, .coordinatorExits, .supervisorJoins]

theorem wakeSupervisor_released (waiting : owner.supervisor = .waiting)
    (delivered : owner.supervisorCancelled = false) (released : owner.release = true) :
    (owner.wakeSupervisor.supervisor = .exiting ∨ owner.wakeSupervisor.supervisor = .joining) ∧
      owner.wakeSupervisor.native = owner.native := by
  simp only [RunOwner.wakeSupervisor, waiting, delivered, released]
  cases owner.scope <;> simp

theorem stop_ended (ended : owner.native = .ended) :
    owner.stop = { owner with stopping := true } := by
  simp [RunOwner.stop, ended, RunOwner.cancellable]

theorem joins_of_left (left : owner.supervisor = .exiting ∨ owner.supervisor = .joining)
    (ended : owner.native = .ended) :
    (Machine.run RunOwner.next owner [.coordinatorExits, .supervisorJoins]).supervisor = .ended := by
  obtain same | same := left <;>
    simp [RunOwner.next, same, ended]

/-- After the native task has ended the supervisor leaves the scope and ends. -/
theorem Sound.drains (sound : owner.Sound) (ended : owner.native = .ended) :
    (Machine.run RunOwner.next owner drain).supervisor = .ended := by
  have released := (sound.ended ended).1
  have still (place : owner.supervisor ≠ .waiting) :
      (owner.next .supervisorWakes).next .supervisorWakes = owner := by
    simp [RunOwner.next, RunOwner.wakeSupervisor, place]
  have present : owner.native ≠ .absent := by simp [ended]
  rw [drain, Machine.run_cons, Machine.run_cons]
  cases place : owner.supervisor with
  | absent => exact absurd (sound.early (.inl place)).1 present
  | created => exact absurd (sound.early (.inr (.inl place))).1 present
  | entering => exact absurd (sound.early (.inr (.inr place))).1 present
  | exiting =>
    rw [still (by simp [place])]
    exact joins_of_left (.inl place) ended
  | joining =>
    rw [still (by simp [place])]
    exact joins_of_left (.inr place) ended
  | ended =>
    rw [still (by simp [place])]
    simp [RunOwner.next, place]
  | waiting =>
    cases cancelled : owner.supervisorCancelled with
    | false =>
      obtain ⟨left, same⟩ := wakeSupervisor_released place cancelled released
      have second : owner.wakeSupervisor.wakeSupervisor = owner.wakeSupervisor := by
        rw [RunOwner.wakeSupervisor.eq_1 owner.wakeSupervisor]
        exact if_pos (by obtain other | other := left <;> simp [other])
      change (Machine.run RunOwner.next owner.wakeSupervisor.wakeSupervisor _).supervisor = _
      rw [second]
      exact joins_of_left left (same.trans ended)
    | true =>
      have first : owner.next .supervisorWakes =
          { owner with supervisorCancelled := false, stopping := true } := by
        simp only [RunOwner.next, RunOwner.wakeSupervisor, place, cancelled]
        exact stop_ended ended
      rw [first]
      obtain ⟨left, same⟩ := @wakeSupervisor_released
        { owner with supervisorCancelled := false, stopping := true } place rfl released
      exact joins_of_left left (same.trans ended)

end RunOwner

/-! ## Every run -/

/-- A run that settles, where the effects that `releases` names let the coordinator go. -/
structure RunOwner.Settles (releases : OwnerEffect → Bool) (owner : RunOwner) : Prop where
  scope : ∃ order, ScopeOrder.ofLog releases owner.log = some order ∧
    (owner.supervisor = .ended → order.exited = order.entered)
  task : ∀ entered left, .scopeEntered entered ∈ owner.log → .scopeExited left ∈ owner.log →
    left = entered
  cancels : (owner.log.filter OwnerEffect.isCancel).length ≤ 1
  guarded : ∀ settling closingIterators, .cancelled settling closingIterators ∈ owner.log →
    settling = false ∧ closingIterators = 0
  commands : ∀ call settling, .operationStarted call settling ∈ owner.log → settling = false
  resolved : owner.native = .ended → owner.ready = true ∧ ∀ result ∈ owner.results, result = true
  drains : owner.native = .ended →
    (Machine.run RunOwner.next owner RunOwner.drain).supervisor = .ended

/-- A run that is stopped while it waits for a command. -/
def stoppedRun : List OwnerEvent :=
  [.prepare, .supervisorStarts, .coordinatorEnters true, .nativeStarts, .bindClose, .prepared true,
   .call, .nativeWakes, .operationEnds, .callReturns 0, .stop, .nativeWakes, .beginSettlement,
   .releaseCoordination, .supervisorWakes]

end Tinkerfin.Run
