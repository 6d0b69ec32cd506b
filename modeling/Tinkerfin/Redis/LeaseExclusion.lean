import Tinkerfin.Redis.LeaseLock

/-!
# Which scopes a lease excludes

Redis gives a key to one owner at a time, so two bodies overlap only where a scope believes in its
lease for longer than its key lives.  The belief ends a fixed part of the time to live after the
last reply, the key a time to live after the script ran; a reply that comes late separates the two.
-/

namespace Tinkerfin.Redis

variable {K : Type} [Field K] [LinearOrder K]

/-! ## Scripts -/

theorem fencingKey_inj {base other : String} : fencingKey base = fencingKey other ↔ base = other :=
  String.append_left_inj _

namespace RedisState

variable {redis after : RedisState K} {now : K} {key base owner ownerToken : String}
  {expiresAt lifetime : K}

omit [Field K] in
theorem owner?_of_get? (stored : redis.leases.get? key = some (owner, expiresAt))
    (alive : now < expiresAt) : redis.owner? now key = some owner := by
  rw [owner?, stored]
  exact if_pos alive

variable (now ownerToken) in
/-- The keys of the other owners stay as long as they live, and counters never fall. -/
structure Frames (redis after : RedisState K) : Prop where
  leases : ∀ key owner expiresAt, owner ≠ ownerToken →
    redis.leases.get? key = some (owner, expiresAt) → now < expiresAt →
      after.leases.get? key = some (owner, expiresAt)
  counters : ∀ key, redis.counter key ≤ after.counter key

omit [Field K] in
theorem Frames.refl (redis : RedisState K) : Frames now ownerToken redis redis :=
  ⟨fun _ _ _ _ stored _ => stored, fun _ => le_rfl⟩

theorem acquireScript_frames :
    Frames now ownerToken redis (redis.acquireScript now base ownerToken lifetime).1 := by
  unfold acquireScript
  split
  · exact .refl redis
  · next free =>
      refine ⟨fun key owner expiresAt _ stored alive => ?_, fun key => ?_⟩
      · have different : key ≠ lockKey base := by
          rintro rfl
          exact free (Option.isSome_iff_exists.mpr ⟨owner, owner?_of_get? stored alive⟩)
        exact (Dict.get?_insert_of_ne _ _ different).trans stored
      · simp only [counter, Dict.get?_insert]
        split
        · next same =>
            subst same
            exact Nat.le_succ _
        · exact le_rfl

theorem renewScript_frames :
    Frames now ownerToken redis (redis.renewScript now base ownerToken lifetime).1 := by
  unfold renewScript
  split
  · exact .refl redis
  · next owns =>
      refine ⟨fun key owner expiresAt foreign stored alive => ?_, fun _ => le_rfl⟩
      have different : key ≠ lockKey base := by
        rintro rfl
        exact owns fun same => foreign
          (Option.some.inj ((owner?_of_get? stored alive).symm.trans same))
      exact (Dict.get?_insert_of_ne _ _ different).trans stored

omit [Field K] in
theorem releaseScript_frames :
    Frames now ownerToken redis (redis.releaseScript now base ownerToken).1 := by
  unfold releaseScript
  split
  · exact .refl redis
  · next owns =>
      refine ⟨fun key owner expiresAt foreign stored alive => ?_, fun _ => le_rfl⟩
      have different : key ≠ lockKey base := by
        rintro rfl
        exact owns fun same => foreign
          (Option.some.inj ((owner?_of_get? stored alive).symm.trans same))
      exact (Dict.get?_erase_of_ne _ different).trans stored

/-- An acquisition that succeeds owns its key and draws the next token. -/
theorem acquireScript_owns
    (acquired : 0 < (redis.acquireScript now base ownerToken lifetime).2) :
    (redis.acquireScript now base ownerToken lifetime).1.leases.get? (lockKey base) =
        some (ownerToken, now + lifetime) ∧
      (redis.acquireScript now base ownerToken lifetime).2 =
        redis.counter (fencingKey base) + 1 ∧
      (redis.acquireScript now base ownerToken lifetime).1.counter (fencingKey base) =
        redis.counter (fencingKey base) + 1 := by
  unfold acquireScript at acquired ⊢
  split
  · next taken =>
      rw [if_pos taken] at acquired
      exact absurd acquired (lt_irrefl _)
  · refine ⟨?_, rfl, ?_⟩
    · exact Dict.get?_insert_self _ _ _
    · simp [counter]

theorem renewScript_of_owner (owns : redis.owner? now (lockKey base) = some ownerToken) :
    redis.renewScript now base ownerToken lifetime =
      ({ redis with
         leases := redis.leases.insert (lockKey base) (ownerToken, now + lifetime) }, 1) :=
  if_neg (not_not_intro owns)

end RedisState

/-! ## Durations -/

variable [IsStrictOrderedRing K] [FloorRing K]

namespace Settings

variable (settings : Settings K)

theorem leaseTtl_le_lifetime : settings.leaseTtl ≤ settings.lifetime := by
  have ceiling : settings.leaseTtl * 1000 ≤ (settings.leaseTtlMilliseconds : K) :=
    (Int.le_ceil _).trans (Int.cast_le.mpr (le_max_right _ _))
  rw [lifetime, le_div_iff₀ (by norm_num)]
  exact ceiling

theorem commandTimeout_pos : 0 < settings.commandTimeout := by
  rw [commandTimeout, renewCommandDeadlineRatio]
  exact mul_pos settings.leaseTtl_pos (by norm_num)

theorem commandTimeout_lt_lifetime : settings.commandTimeout < settings.lifetime := by
  have positive := settings.leaseTtl_pos
  have enough := settings.leaseTtl_le_lifetime
  rw [commandTimeout, renewCommandDeadlineRatio]
  linarith

theorem renewInterval_lt_commandTimeout : settings.renewInterval < settings.commandTimeout := by
  have positive := settings.leaseTtl_pos
  have early := settings.renewInterval_lt
  rw [commandTimeout, renewCommandDeadlineRatio]
  linarith

end Settings

/-! ## One scope -/

namespace Scope

variable {strict : Prop} {scope : Scope K} {now : K} {redis after : RedisState K}
  {ownerToken : String}

/-- No timer of the scope has been passed. -/
def Timely (now : K) (scope : Scope K) : Prop := ∀ timer, scope.timer = some timer → now ≤ timer

variable (strict now redis ownerToken scope) in
/-- What a scope can rely on in Redis; `strict` where all replies came early. -/
structure Sound : Prop where
  timely : scope.Timely now
  acquired : ∀ sentAt reply, scope.stage = .acquiring sentAt reply → sentAt ≤ now ∧
    ∀ executedAt token, reply = some (executedAt, token) → 0 < token → sentAt ≤ executedAt ∧
      redis.leases.get? (lockKey scope.base) =
          some (ownerToken, executedAt + scope.settings.lifetime) ∧
        token ≤ redis.counter (fencingKey scope.base)
  held : strict → ∀ token lastSuccess renewal, scope.stage = .holding token lastSuccess renewal →
    lastSuccess ≤ now ∧ ∃ expiresAt,
      redis.leases.get? (lockKey scope.base) = some (ownerToken, expiresAt) ∧
        lastSuccess + scope.settings.commandTimeout < expiresAt ∧
          ∀ executedAt, renewal = some (some (executedAt, 1)) →
            expiresAt = executedAt + scope.settings.lifetime

theorem Sound.acquired_alive (sound : scope.Sound strict now redis ownerToken) {sentAt executedAt : K}
    {token : Nat} (stage : scope.stage = .acquiring sentAt (some (executedAt, token)))
    (positive : 0 < token) : now < executedAt + scope.settings.lifetime := by
  obtain ⟨-, executed⟩ := sound.acquired _ _ stage
  obtain ⟨later, -, -⟩ := executed executedAt token rfl positive
  have waits : now ≤ sentAt + scope.settings.commandTimeout :=
    sound.timely _ (by rw [timer, stage])
  have shorter := scope.settings.commandTimeout_lt_lifetime
  linarith

theorem Sound.held_alive (sound : scope.Sound strict now redis ownerToken) {lastSuccess : K}
    {token : Nat} {renewal : Option (Option (Reply K))}
    (stage : scope.stage = .holding token lastSuccess renewal) :
    now ≤ lastSuccess + scope.settings.commandTimeout := by
  cases renewal with
  | none =>
    have waits : now ≤ lastSuccess + scope.settings.renewInterval :=
      sound.timely _ (by rw [timer, stage])
    have shorter := scope.settings.renewInterval_lt_commandTimeout
    linarith
  | some reply => exact sound.timely _ (by rw [timer, stage])

theorem Sound.framed (sound : scope.Sound strict now redis ownerToken) {other : String}
    (different : ownerToken ≠ other) (frames : RedisState.Frames now other redis after) :
    scope.Sound strict now after ownerToken where
  timely := sound.timely
  acquired sentAt reply stage := by
    obtain ⟨sent, executed⟩ := sound.acquired sentAt reply stage
    refine ⟨sent, ?_⟩
    rintro executedAt token rfl positive
    obtain ⟨later, stored, counted⟩ := executed executedAt token rfl positive
    exact ⟨later, frames.leases _ _ _ different stored (sound.acquired_alive stage positive),
      counted.trans (frames.counters _)⟩
  held early token lastSuccess renewal stage := by
    obtain ⟨sent, expiresAt, stored, beyond, renewed⟩ := sound.held early _ _ _ stage
    refine ⟨sent, expiresAt, frames.leases _ _ _ different stored ?_, beyond, renewed⟩
    exact (sound.held_alive stage).trans_lt beyond

omit [IsStrictOrderedRing K] in
theorem Sound.later (sound : scope.Sound strict now redis ownerToken) {instant : K}
    (passes : now ≤ instant) (timely : scope.Timely instant) :
    scope.Sound strict instant redis ownerToken where
  timely := timely
  acquired sentAt reply stage := (sound.acquired sentAt reply stage).imp_left (·.trans passes)
  held early _ _ _ stage := (sound.held early _ _ _ stage).imp_left (·.trans passes)

omit [IsStrictOrderedRing K] in
theorem Sound.of_idle (acquiring : ∀ sentAt reply, scope.stage ≠ .acquiring sentAt reply)
    (holding : ∀ token lastSuccess renewal, scope.stage ≠ .holding token lastSuccess renewal) :
    scope.Sound strict now redis ownerToken where
  timely timer set := by
    rw [Scope.timer] at set
    split at set
    · next stage => exact absurd stage (acquiring _ _)
    · next stage => exact absurd stage (holding _ _ _)
    · next stage => exact absurd stage (holding _ _ _)
    · cases set
  acquired sentAt reply stage := absurd stage (acquiring sentAt reply)
  held _ token lastSuccess renewal stage := absurd stage (holding token lastSuccess renewal)

omit [IsStrictOrderedRing K] in
theorem next_frames (event : ScopeEvent) :
    RedisState.Frames now ownerToken redis (scope.next now redis ownerToken event).1 := by
  cases event <;> simp only [Scope.next] <;> split
  all_goals first
    | exact .refl redis
    | exact RedisState.acquireScript_frames
    | exact RedisState.renewScript_frames
    | exact RedisState.releaseScript_frames

/-- Events keep what a scope relies on, as long as replies come early. -/
theorem Sound.next (sound : scope.Sound strict now redis ownerToken) (event : ScopeEvent)
    (prompt : strict → scope.Prompt now event) :
    { scope with stage := (scope.next now redis ownerToken event).2 }.Sound strict now
      (scope.next now redis ownerToken event).1 ownerToken := by
  have idle {stage : Stage K} {after : RedisState K}
      (acquiring : ∀ sentAt reply, stage ≠ .acquiring sentAt reply)
      (holding : ∀ token lastSuccess renewal, stage ≠ .holding token lastSuccess renewal) :
      { scope with stage }.Sound strict now after ownerToken := .of_idle acquiring holding
  cases event with
  | sendAcquire =>
    simp only [Scope.next]
    split
    · next until_ stage =>
        split
        · refine ⟨fun timer set => ?_, fun sentAt reply stage => ?_, fun _ _ _ _ stage => ?_⟩
          · obtain rfl := Option.some.inj set
            have positive := scope.settings.commandTimeout_pos
            exact (lt_add_of_pos_right _ positive).le
          · obtain ⟨rfl, rfl⟩ := Stage.acquiring.inj stage
            exact ⟨le_rfl, fun _ _ none => nomatch none⟩
          · cases stage
        · exact sound
    · exact sound
  | executeAcquire =>
    simp only [Scope.next]
    split
    · next sentAt stage =>
        obtain ⟨sent, -⟩ := sound.acquired _ _ stage
        refine ⟨fun timer set => ?_, fun sentAt reply stage => ?_, fun _ _ _ _ stage => ?_⟩
        · obtain rfl := Option.some.inj set
          exact sound.timely _ (by rw [Scope.timer, stage])
        · obtain ⟨rfl, rfl⟩ := Stage.acquiring.inj stage
          refine ⟨sent, ?_⟩
          rintro executedAt token executed positive
          obtain ⟨rfl, rfl⟩ := Prod.mk.inj (Option.some.inj executed)
          obtain ⟨stored, drawn, counted⟩ := RedisState.acquireScript_owns positive
          exact ⟨sent, stored, (drawn.trans counted.symm).le⟩
        · cases stage
    · exact sound
  | replyAcquire =>
    simp only [Scope.next]
    split
    · next sentAt executedAt token stage =>
        split
        · next positive =>
            obtain ⟨-, executed⟩ := sound.acquired _ _ stage
            obtain ⟨-, stored, -⟩ := executed executedAt token rfl positive
            refine ⟨fun timer set => ?_, fun _ _ stage => (nomatch stage),
              fun early _ lastSuccess renewal holding => ?_⟩
            · obtain rfl := Option.some.inj set
              exact (lt_add_of_pos_right _ scope.settings.renewInterval_pos).le
            · obtain ⟨-, rfl, rfl⟩ := Stage.holding.inj holding
              exact ⟨le_rfl, _, stored, prompt early _ _ _ stage positive,
                fun _ none => nomatch none⟩
        · exact idle nofun nofun
    · exact sound
  | failAcquire =>
    simp only [Scope.next]
    split
    · exact idle nofun nofun
    · exact sound
  | sendRenew =>
    simp only [Scope.next]
    split
    · next token lastSuccess stage =>
        split
        · exact sound
        · split
          · exact idle nofun nofun
          · next early =>
              refine ⟨fun timer set => ?_, fun _ _ stage => (nomatch stage),
                fun strict _ lastSuccess renewal holding => ?_⟩
              · obtain rfl := Option.some.inj set
                exact (not_le.mp early).le
              · obtain ⟨-, rfl, rfl⟩ := Stage.holding.inj holding
                obtain ⟨sent, expiresAt, stored, beyond, -⟩ := sound.held strict _ _ _ stage
                exact ⟨sent, expiresAt, stored, beyond, fun _ unsent => nomatch unsent⟩
    · exact sound
  | executeRenew =>
    simp only [Scope.next]
    split
    · next token lastSuccess stage =>
        refine ⟨fun timer set => ?_, fun _ _ stage => (nomatch stage),
          fun strict _ lastSuccess renewal holding => ?_⟩
        · obtain rfl := Option.some.inj set
          exact sound.timely _ (by rw [Scope.timer, stage])
        · obtain ⟨-, rfl, rfl⟩ := Stage.holding.inj holding
          obtain ⟨sent, expiresAt, stored, beyond, -⟩ := sound.held strict _ _ _ stage
          have alive : now < expiresAt := (sound.held_alive stage).trans_lt beyond
          have owns := RedisState.owner?_of_get? stored alive
          have longer := scope.settings.commandTimeout_lt_lifetime
          refine ⟨sent, now + scope.settings.lifetime, ?_, by linarith, fun other same => ?_⟩
          · rw [RedisState.renewScript_of_owner owns]
            exact Dict.get?_insert_self _ _ _
          · rw [RedisState.renewScript_of_owner owns] at same
            obtain ⟨rfl, -⟩ := Prod.mk.inj (Option.some.inj (Option.some.inj same))
            rfl
    · exact idle nofun nofun
    · exact sound
  | replyRenew =>
    simp only [Scope.next]
    split
    · next token lastSuccess executedAt renewed stage =>
        split
        · next confirmed =>
            subst confirmed
            refine ⟨fun timer set => ?_, fun _ _ stage => (nomatch stage),
              fun early _ lastSuccess renewal holding => ?_⟩
            · obtain rfl := Option.some.inj set
              exact (lt_add_of_pos_right _ scope.settings.renewInterval_pos).le
            · obtain ⟨-, rfl, rfl⟩ := Stage.holding.inj holding
              obtain ⟨-, expiresAt, stored, -, renewed⟩ := sound.held early _ _ _ stage
              obtain rfl := renewed executedAt rfl
              exact ⟨le_rfl, _, stored, prompt early _ _ _ stage, fun _ none => nomatch none⟩
        · exact idle nofun nofun
    · exact sound
  | failRenew =>
    simp only [Scope.next]
    split
    · exact idle nofun nofun
    · exact sound
  | leave =>
    simp only [Scope.next]
    split
    · exact idle nofun nofun
    · exact sound
  | executeRelease =>
    simp only [Scope.next]
    split
    · exact idle nofun nofun
    · exact sound
  | endRelease =>
    simp only [Scope.next]
    split
    · exact idle nofun nofun
    · exact sound

end Scope

/-! ## All scopes -/

namespace LeaseState

variable {strict : Prop} {state : LeaseState K}

variable (strict state) in
def Sound : Prop := ∀ ownerToken scope, state.scopes.get? ownerToken = some scope →
  scope.Sound strict state.now state.redis ownerToken

theorem Sound.next (sound : state.Sound strict) (event : LeaseEvent K)
    (prompt : strict → event.Prompt state) : (event.next state).Sound strict := by
  cases event with
  | hold ownerToken settings resourceKey =>
    rw [LeaseEvent.next]
    split
    · exact sound
    · intro other scope found
      rw [Dict.get?_insert] at found
      split at found
      · obtain rfl := Option.some.inj found
        exact .of_idle (by simp) (by simp)
      · exact sound other scope found
  | act ownerToken event =>
    cases present : state.scopes.get? ownerToken with
    | none =>
      rw [LeaseEvent.next, present]
      exact sound
    | some acting =>
      rw [LeaseEvent.next, present]
      intro other scope found
      dsimp only at found
      rw [Dict.get?_insert] at found
      split at found
      · next same =>
          subst same
          obtain rfl := Option.some.inj found
          exact (sound other acting present).next event
            fun early => prompt early acting present
      · next different =>
          exact (sound other scope found).framed different (acting.next_frames event)
  | advance duration =>
    rw [LeaseEvent.next]
    split
    · next passes =>
        obtain ⟨forward, reaches⟩ := passes
        intro ownerToken scope found
        refine (sound ownerToken scope found).later (le_add_of_nonneg_right forward) ?_
        intro timer set
        have all := reaches (ownerToken, scope) (Dict.get?_eq_some_iff.mp found)
        rw [set] at all
        exact of_decide_eq_true all
    · exact sound

omit [IsStrictOrderedRing K] in
theorem Sound.acquired_unique (sound : state.Sound strict) {first second : String}
    {scope other : Scope K} (found : state.scopes.get? first = some scope)
    (foundToo : state.scopes.get? second = some other) {sentAt sentAtToo : K}
    {executedAt executedAtToo : K} {token tokenToo : Nat}
    (stage : scope.stage = .acquiring sentAt (some (executedAt, token)))
    (stageToo : other.stage = .acquiring sentAtToo (some (executedAtToo, tokenToo)))
    (positive : 0 < token) (positiveToo : 0 < tokenToo) (same : scope.base = other.base) :
    first = second := by
  obtain ⟨-, stored, -⟩ :=
    ((sound first scope found).acquired _ _ stage).2 executedAt token rfl positive
  obtain ⟨-, storedToo, -⟩ :=
    ((sound second other foundToo).acquired _ _ stageToo).2 executedAtToo tokenToo rfl positiveToo
  rw [same] at stored
  exact (Prod.mk.inj (Option.some.inj (stored.symm.trans storedToo))).1

/-- The counter of a token has reached it, and acquisitions that wait for their reply drew later
ones. -/
structure Follows (entry : String × Nat) (state : LeaseState K) : Prop where
  drawn : entry.2 ≤ state.redis.counter entry.1
  waiting : ∀ ownerToken scope, state.scopes.get? ownerToken = some scope →
    ∀ sentAt executedAt token, scope.stage = .acquiring sentAt (some (executedAt, token)) →
      0 < token → fencingKey scope.base = entry.1 → entry.2 < token

omit [IsStrictOrderedRing K] in
/-- An acquisition that waits for its reply drew its token now or before. -/
theorem acquiring_next {scope : Scope K} {now : K} {redis : RedisState K} {ownerToken : String}
    {event : ScopeEvent} {sentAt executedAt : K} {token : Nat}
    (stage : (scope.next now redis ownerToken event).2 =
      .acquiring sentAt (some (executedAt, token))) (positive : 0 < token) :
    scope.stage = .acquiring sentAt (some (executedAt, token)) ∨
      token = redis.counter (fencingKey scope.base) + 1 := by
  cases event with
  | executeAcquire =>
    rw [Scope.next] at stage
    split at stage
    · obtain ⟨-, executed⟩ := Stage.acquiring.inj stage
      obtain ⟨-, rfl⟩ := Prod.mk.inj (Option.some.inj executed)
      exact .inr (RedisState.acquireScript_owns positive).2.1
    · exact .inl stage
  -- Every other event leaves the stage or moves to one that has no such reply.
  | _ =>
    left
    rw [Scope.next] at stage
    split at stage
    all_goals first
      | exact stage
      | cases stage
      | (split at stage
         all_goals first
          | exact stage
          | cases stage
          | (split at stage <;> cases stage))

omit [IsStrictOrderedRing K] in
theorem Follows.next {entry : String × Nat} (follows : Follows entry state)
    (event : LeaseEvent K) : Follows entry (event.next state) := by
  cases event with
  | hold ownerToken settings resourceKey =>
    rw [LeaseEvent.next]
    split
    · exact follows
    · refine ⟨follows.drawn, fun other scope found sentAt executedAt token stage => ?_⟩
      dsimp only at found
      rw [Dict.get?_insert] at found
      split at found
      · obtain rfl := Option.some.inj found
        cases stage
      · exact follows.waiting other scope found sentAt executedAt token stage
  | act ownerToken event =>
    cases present : state.scopes.get? ownerToken with
    | none =>
      rw [LeaseEvent.next, present]
      exact follows
    | some acting =>
      rw [LeaseEvent.next, present]
      refine ⟨follows.drawn.trans
        (RedisState.Frames.counters (acting.next_frames event) entry.1), ?_⟩
      intro other scope found sentAt executedAt token stage positive same
      dsimp only at found
      rw [Dict.get?_insert] at found
      split at found
      · obtain rfl := Option.some.inj found
        rcases acquiring_next stage positive with before | rfl
        · exact follows.waiting ownerToken acting present _ _ _ before positive same
        · have key : fencingKey acting.base = entry.1 := same
          rw [key]
          exact Nat.lt_succ_of_le follows.drawn
      · exact follows.waiting other scope found _ _ _ stage positive same
  | advance duration =>
    rw [LeaseEvent.next]
    split
    · exact ⟨follows.drawn, follows.waiting⟩
    · exact follows

omit [IsStrictOrderedRing K] [FloorRing K] in
theorem mem_handed {event : LeaseEvent K} {entry : String × Nat}
    (handed : entry ∈ event.handed state) :
    ∃ ownerToken scope sentAt executedAt token, event = .act ownerToken .replyAcquire ∧
      state.scopes.get? ownerToken = some scope ∧
        scope.stage = .acquiring sentAt (some (executedAt, token)) ∧ 0 < token ∧
          entry = (fencingKey scope.base, token) := by
  unfold LeaseEvent.handed at handed
  split at handed
  · next ownerToken =>
      split at handed
      · next scope found =>
          split at handed
          · next sentAt executedAt token stage =>
              split at handed
              · next positive =>
                  exact ⟨ownerToken, scope, sentAt, executedAt, token, rfl, found, stage, positive,
                    List.mem_singleton.mp handed⟩
              · cases handed
          · cases handed
      · cases handed
  · cases handed

omit [IsStrictOrderedRing K] in
theorem handed_follows (sound : state.Sound strict) {event : LeaseEvent K} {entry : String × Nat}
    (handed : entry ∈ event.handed state) : Follows entry (event.next state) := by
  obtain ⟨ownerToken, acting, sentAt, executedAt, token, rfl, present, stage, positive, rfl⟩ :=
    mem_handed handed
  obtain ⟨-, -, counted⟩ :=
    ((sound ownerToken acting present).acquired _ _ stage).2 executedAt token rfl positive
  rw [LeaseEvent.next, present]
  simp only [Scope.next, stage, if_pos positive]
  refine ⟨counted, ?_⟩
  intro other scope found sentAtToo executedAtToo tokenToo stageToo positiveToo same
  dsimp only at found
  rw [Dict.get?_insert] at found
  split at found
  · obtain rfl := Option.some.inj found
    cases stageToo
  · next different =>
      exact absurd (sound.acquired_unique found present stageToo stage positiveToo positive
        (fencingKey_inj.mp same)) different

/-- Tokens of one counter are handed out in increasing order. -/
theorem handed_increasing (sound : state.Sound False) (events : List (LeaseEvent K)) :
    (Machine.log LeaseEvent.next LeaseEvent.handed state events).Pairwise
      fun old new => old.1 = new.1 → old.2 < new.2 := by
  refine Machine.log_pairwise (fun _ event sound => sound.next event False.elim)
    (fun _ _ _ sound handed => handed_follows sound handed)
    (fun _ event _ _ follows => follows.next event) (fun state event _ => ?_) ?_ sound
  · unfold LeaseEvent.handed
    split
    · split
      · split
        · split <;> simp
        · exact .nil
      · exact .nil
    · exact .nil
  · intro state event old entry _ follows handed same
    obtain ⟨ownerToken, scope, sentAt, executedAt, token, rfl, found, stage, positive, rfl⟩ :=
      mem_handed handed
    exact follows.waiting ownerToken scope found _ _ _ stage positive same.symm

end LeaseState

/-! ## Exclusion -/

/-- The body of a scope runs and has not been told of a loss. -/
def Scope.InBody (scope : Scope K) : Prop :=
  ∃ token lastSuccess renewal, scope.stage = .holding token lastSuccess renewal

/-- Tokens of one counter always increase.  Where every reply comes early, two bodies never share a
key, and every body ends before its key expires. -/
theorem prompt_scopes_exclude (now : K) (redis : RedisState K) (events : List (LeaseEvent K)) :
    let initial : LeaseState K := { now, redis }
    let state := Machine.run LeaseEvent.next initial events
    (Machine.log LeaseEvent.next LeaseEvent.handed initial events).Pairwise
        (fun old new => old.1 = new.1 → old.2 < new.2) ∧
      (Machine.Guarded LeaseEvent.next (fun state event => event.Prompt state) initial events →
        ∀ ownerToken scope, state.scopes.get? ownerToken = some scope → scope.InBody →
          (∃ expiresAt, state.redis.leases.get? (lockKey scope.base) =
            some (ownerToken, expiresAt) ∧ state.now < expiresAt) ∧
          ∀ other third, state.scopes.get? other = some third → third.InBody →
            third.base = scope.base → other = ownerToken) := by
  intro initial state
  have sound (strict : Prop) : initial.Sound strict := fun _ _ found => nomatch found
  refine ⟨LeaseState.handed_increasing (sound False) events, fun prompt => ?_⟩
  have reached : state.Sound True := Machine.guarded_invariant
    (fun _ event sound prompt => sound.next event fun _ => prompt) prompt (sound True)
  have alive {ownerToken : String} {scope : Scope K}
      (found : state.scopes.get? ownerToken = some scope) (body : scope.InBody) :
      ∃ expiresAt, state.redis.leases.get? (lockKey scope.base) = some (ownerToken, expiresAt) ∧
        state.now < expiresAt := by
    obtain ⟨token, lastSuccess, renewal, stage⟩ := body
    have relies := reached ownerToken scope found
    obtain ⟨-, expiresAt, stored, beyond, -⟩ := relies.held trivial _ _ _ stage
    exact ⟨expiresAt, stored, (relies.held_alive stage).trans_lt beyond⟩
  intro ownerToken scope found body
  refine ⟨alive found body, fun other third foundToo bodyToo same => ?_⟩
  obtain ⟨_, stored, -⟩ := alive found body
  obtain ⟨_, storedToo, -⟩ := alive foundToo bodyToo
  rw [same] at storedToo
  exact (Prod.mk.inj (Option.some.inj (storedToo.symm.trans stored))).1

/-! ## A late reply -/

/-- Ten seconds to live, a renewal every three. -/
def sampleSettings : Settings ℚ where
  keyPrefix := "app:"
  leaseTtl := 10
  renewInterval := 3
  waitPoll := 1
  leaseTtl_pos := by norm_num
  renewInterval_pos := by norm_num
  renewInterval_lt := by norm_num

/-- A scope hears of its acquisition at once and is in its body five seconds later. -/
def promptReply : List (LeaseEvent ℚ) :=
  [.hold "first" sampleSettings "invoice", .act "first" .sendAcquire,
    .act "first" .executeAcquire, .act "first" .replyAcquire, .advance 2]

theorem prompt_scopes_exclude_promptReply :
    let state := Machine.run LeaseEvent.next ({ now := 0 } : LeaseState ℚ) promptReply
    ∃ scope expiresAt, state.scopes.get? "first" = some scope ∧
      state.redis.leases.get? (lockKey scope.base) = some ("first", expiresAt) ∧
      state.now < expiresAt := by
  intro state
  have staged : (state.scopes.get? "first").map (·.stage) = some (.holding 1 0 none) := by
    decide +kernel
  obtain ⟨scope, found, stage⟩ := Option.map_eq_some_iff.mp staged
  have prompt : Machine.Guarded LeaseEvent.next (fun state event => event.Prompt state)
      ({ now := 0 } : LeaseState ℚ) promptReply := by
    refine ⟨trivial, fun _ _ => trivial, fun _ _ => trivial, ?_, trivial, trivial⟩
    intro acting present sentAt executedAt token acquiring positive
    have waiting : ((Machine.run LeaseEvent.next ({ now := 0 } : LeaseState ℚ)
        (promptReply.take 3)).scopes.get? "first").map (fun scope =>
          (scope.stage, scope.settings.commandTimeout, scope.settings.lifetime)) =
        some (.acquiring 0 (some (0, 1)), 8, 10) := by decide +kernel
    rw [show (Machine.run LeaseEvent.next ({ now := 0 } : LeaseState ℚ)
      (promptReply.take 3)).scopes.get? "first" = some acting from present] at waiting
    simp only [Option.map_some, Option.some.injEq, Prod.mk.injEq] at waiting
    obtain ⟨stage, timeout, lifetime⟩ := waiting
    rw [stage] at acquiring
    obtain ⟨rfl, rfl, rfl⟩ := acquiring
    have clock : (Machine.run LeaseEvent.next ({ now := 0 } : LeaseState ℚ)
        (promptReply.take 3)).now = 0 := by decide +kernel
    rw [timeout, lifetime]
    change (Machine.run LeaseEvent.next ({ now := 0 } : LeaseState ℚ)
      (promptReply.take 3)).now + 8 < 0 + 10
    rw [clock]
    norm_num
  obtain ⟨⟨expiresAt, stored, alive⟩, -⟩ := (prompt_scopes_exclude (0 : ℚ) {} promptReply).2 prompt
    "first" scope found ⟨1, 0, none, stage⟩
  exact ⟨scope, expiresAt, found, stored, alive⟩

/-- The reply of the first acquisition takes seven and a half seconds. -/
def lateReply : List (LeaseEvent ℚ) :=
  [.hold "first" sampleSettings "invoice", .act "first" .sendAcquire,
    .act "first" .executeAcquire, .advance (15 / 2), .act "first" .replyAcquire,
    .advance (5 / 2), .hold "second" sampleSettings "invoice", .act "second" .sendAcquire,
    .act "second" .executeAcquire, .act "second" .replyAcquire]

/-- After it two bodies share a key. -/
theorem late_reply_overlaps :
    let state := Machine.run LeaseEvent.next ({ now := 0 } : LeaseState ℚ) lateReply
    (state.scopes.get? "first").map (·.stage) = some (.holding 1 (15 / 2) none) ∧
      (state.scopes.get? "second").map (·.stage) = some (.holding 2 10 none) ∧
      (state.scopes.get? "first").map (·.base) = (state.scopes.get? "second").map (·.base) := by
  decide +kernel

end Tinkerfin.Redis
