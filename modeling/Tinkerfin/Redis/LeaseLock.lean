import Mathlib.Algebra.Order.Floor.Ring
import Mathlib.Algebra.Order.Ring.Rat
import Mathlib.Data.Rat.Floor
import Mathlib.Tactic.FieldSimp
import Mathlib.Tactic.Linarith
import Tinkerfin.Lib.Bytes
import Tinkerfin.Lib.Dict
import Tinkerfin.Lib.Machine
import Tinkerfin.Lib.Sha256

/-!
# Renewable leases in Redis

A scope acquires the key of its resource with a script that also draws a fencing token, renews the
key while its body runs, and deletes it at the end.  Redis runs each script atomically at some
instant between its sending and its reply, and keys expire exactly at their time to live.  All
clocks show the same time; a timer fires at its instant, so time never passes one that is set.
-/

namespace Tinkerfin.Redis

/-! ## Settings -/

variable {K : Type} [Field K] [LinearOrder K] [IsStrictOrderedRing K]

/-- Settings of a lease manager, in seconds. -/
structure Settings (K : Type) [Field K] [LinearOrder K] where
  keyPrefix : String
  leaseTtl : K
  renewInterval : K
  waitPoll : K
  leaseTtl_pos : 0 < leaseTtl
  renewInterval_pos : 0 < renewInterval
  renewInterval_lt : renewInterval < leaseTtl / 2

/-- The part of the time to live after which ownership is no longer certain. -/
def renewCommandDeadlineRatio (K : Type) [Field K] : K := 4 / 5

namespace Settings

variable (settings : Settings K)

def leaseTtlMilliseconds [FloorRing K] : Int := max 1 ⌈settings.leaseTtl * 1000⌉

/-- The time that a key lives. -/
def lifetime [FloorRing K] : K := settings.leaseTtlMilliseconds / 1000

def commandTimeout : K := settings.leaseTtl * renewCommandDeadlineRatio K

/-- The names of the keys of a resource, up to their last component. -/
def base (resourceKey : String) : String :=
  settings.keyPrefix ++ Sha256.hexdigest (Bytes.utf8 resourceKey)

end Settings

def lockKey (base : String) : String := base ++ ":lease"

def fencingKey (base : String) : String := base ++ ":fencing"

/-! ## Scripts -/

/-- The keys of leases, with their owner and the instant of their expiry, and the counters. -/
structure RedisState (K : Type) where
  leases : Dict String (String × K) := .empty
  counters : Dict String Nat := .empty

namespace RedisState

variable (redis : RedisState K) (now : K) (key : String)

/-- The owner of a key that has not expired. -/
def owner? : Option String :=
  match redis.leases.get? key with
  | some (owner, expiresAt) => if now < expiresAt then some owner else none
  | none => none

/-- The last token that was drawn. -/
def counter : Nat := (redis.counters.get? key).getD 0

variable (base ownerToken : String) (lifetime : K)

def acquireScript : RedisState K × Nat :=
  if (redis.owner? now (lockKey base)).isSome then (redis, 0)
  else
    let fencingToken := redis.counter (fencingKey base) + 1
    ({ leases := redis.leases.insert (lockKey base) (ownerToken, now + lifetime)
       counters := redis.counters.insert (fencingKey base) fencingToken }, fencingToken)

def renewScript : RedisState K × Nat :=
  if redis.owner? now (lockKey base) ≠ some ownerToken then (redis, 0)
  else
    ({ redis with
       leases := redis.leases.insert (lockKey base) (ownerToken, now + lifetime) }, 1)

def releaseScript : RedisState K × Nat :=
  if redis.owner? now (lockKey base) ≠ some ownerToken then (redis, 0)
  else ({ redis with leases := redis.leases.erase (lockKey base) }, 1)

end RedisState

/-! ## Scopes -/

/-- The instant at which a script ran and what it returned. -/
abbrev Reply (K : Type) := K × Nat

/-- Where a scope is.  A scope that was cancelled or told of its loss is ending. -/
inductive Stage (K : Type)
  | waiting (until_ : K)
  | acquiring (sentAt : K) (reply : Option (Reply K))
  /-- In the body; `renewal` is there while a renewal is on its way. -/
  | holding (fencingToken : Nat) (lastSuccess : K) (renewal : Option (Option (Reply K)))
  | ending (renewing released : Bool)
  | ended
  deriving DecidableEq

structure Scope (K : Type) [Field K] [LinearOrder K] where
  settings : Settings K
  resourceKey : String
  stage : Stage K

namespace Scope

variable (scope : Scope K)

def base : String := scope.settings.base scope.resourceKey

/-- The instant of the timer that is set, if there is one. -/
def timer : Option K :=
  match scope.stage with
  | .acquiring sentAt _ => some (sentAt + scope.settings.commandTimeout)
  | .holding _ lastSuccess none => some (lastSuccess + scope.settings.renewInterval)
  | .holding _ lastSuccess (some _) => some (lastSuccess + scope.settings.commandTimeout)
  | _ => none

end Scope

/-- Redis and the scopes of all processes, by their owner tokens. -/
structure LeaseState (K : Type) [Field K] [LinearOrder K] where
  now : K
  redis : RedisState K := {}
  scopes : Dict String (Scope K) := .empty

/-- What happens at a scope. -/
inductive ScopeEvent
  | sendAcquire
  | executeAcquire
  | replyAcquire
  /-- A timeout, an error or a cancellation while the scope acquires, or a manager that closes. -/
  | failAcquire
  | sendRenew
  | executeRenew
  | replyRenew
  | failRenew
  | leave
  | executeRelease
  | endRelease

inductive LeaseEvent (K : Type) [Field K] [LinearOrder K]
  | hold (ownerToken : String) (settings : Settings K) (resourceKey : String)
  | act (ownerToken : String) (event : ScopeEvent)
  | advance (duration : K)

section Next

variable [FloorRing K]

/-- What an event does to its scope and to Redis; an event that cannot happen does nothing. -/
def Scope.next (now : K) (redis : RedisState K) (ownerToken : String) (scope : Scope K) :
    ScopeEvent → RedisState K × Stage K
  | .sendAcquire =>
    match scope.stage with
    | .waiting until_ =>
      (redis, if until_ ≤ now then .acquiring now none else scope.stage)
    | _ => (redis, scope.stage)
  | .executeAcquire =>
    match scope.stage with
    | .acquiring sentAt none =>
      let (redis, token) :=
        redis.acquireScript now scope.base ownerToken scope.settings.lifetime
      (redis, .acquiring sentAt (some (now, token)))
    | _ => (redis, scope.stage)
  | .replyAcquire =>
    match scope.stage with
    | .acquiring _ (some (_, token)) =>
      (redis, if 0 < token then .holding token now none
        else .waiting (now + scope.settings.waitPoll))
    | _ => (redis, scope.stage)
  | .failAcquire =>
    match scope.stage with
    | .acquiring _ _ => (redis, .ending false false)
    | _ => (redis, scope.stage)
  | .sendRenew =>
    match scope.stage with
    | .holding token lastSuccess none =>
      (redis,
        if now < lastSuccess + scope.settings.renewInterval then scope.stage
        else if lastSuccess + scope.settings.commandTimeout ≤ now then .ending false false
        else .holding token lastSuccess (some none))
    | _ => (redis, scope.stage)
  | .executeRenew =>
    match scope.stage with
    | .holding token lastSuccess (some none) =>
      let (redis, renewed) :=
        redis.renewScript now scope.base ownerToken scope.settings.lifetime
      (redis, .holding token lastSuccess (some (some (now, renewed))))
    | .ending true released =>
      ((redis.renewScript now scope.base ownerToken scope.settings.lifetime).1,
        .ending false released)
    | _ => (redis, scope.stage)
  | .replyRenew =>
    match scope.stage with
    | .holding token _ (some (some (_, renewed))) =>
      (redis, if renewed = 1 then .holding token now none else .ending false false)
    | _ => (redis, scope.stage)
  | .failRenew =>
    match scope.stage with
    | .holding _ _ (some reply) => (redis, .ending reply.isNone false)
    | _ => (redis, scope.stage)
  | .leave =>
    match scope.stage with
    | .holding _ _ renewal => (redis, .ending (renewal = some none) false)
    | _ => (redis, scope.stage)
  | .executeRelease =>
    match scope.stage with
    | .ending renewing false =>
      ((redis.releaseScript now scope.base ownerToken).1, .ending renewing true)
    | _ => (redis, scope.stage)
  | .endRelease =>
    match scope.stage with
    | .ending _ _ => (redis, .ended)
    | _ => (redis, scope.stage)

/-- No timer lies before an instant. -/
def LeaseState.Reaches (state : LeaseState K) (instant : K) : Prop :=
  ∀ entry ∈ state.scopes.entries, entry.2.timer.all fun timer => instant ≤ timer

instance (state : LeaseState K) (instant : K) : Decidable (state.Reaches instant) :=
  inferInstanceAs (Decidable (∀ entry ∈ state.scopes.entries,
    (entry.2.timer.all fun timer => instant ≤ timer) = true))

/-- The state after an event. -/
def LeaseEvent.next (state : LeaseState K) : LeaseEvent K → LeaseState K
  | .hold ownerToken settings resourceKey =>
    if state.scopes.contains ownerToken then state
    else
      { state with
        scopes := state.scopes.insert ownerToken
          { settings, resourceKey, stage := .waiting state.now } }
  | .act ownerToken event =>
    match state.scopes.get? ownerToken with
    | none => state
    | some scope =>
      let (redis, stage) := scope.next state.now state.redis ownerToken event
      { state with redis, scopes := state.scopes.insert ownerToken { scope with stage } }
  | .advance duration =>
    if 0 ≤ duration ∧ state.Reaches (state.now + duration) then
      { state with now := state.now + duration }
    else state

/-- The fencing token that an event hands to a scope, with the counter that it comes from. -/
def LeaseEvent.handed (state : LeaseState K) : LeaseEvent K → List (String × Nat)
  | .act ownerToken .replyAcquire =>
    match state.scopes.get? ownerToken with
    | some scope =>
      match scope.stage with
      | .acquiring _ (some (_, token)) =>
        if 0 < token then [(fencingKey scope.base, token)] else []
      | _ => []
    | none => []
  | _ => []

/-- The reply that an event delivers comes early enough after its script ran: the time that the
scope counts from now on ends before the key expires. -/
def Scope.Prompt (now : K) (scope : Scope K) : ScopeEvent → Prop
  | .replyAcquire => ∀ sentAt executedAt token,
      scope.stage = .acquiring sentAt (some (executedAt, token)) → 0 < token →
        now + scope.settings.commandTimeout < executedAt + scope.settings.lifetime
  | .replyRenew => ∀ token lastSuccess executedAt,
      scope.stage = .holding token lastSuccess (some (some (executedAt, 1))) →
        now + scope.settings.commandTimeout < executedAt + scope.settings.lifetime
  | _ => True

def LeaseEvent.Prompt (state : LeaseState K) : LeaseEvent K → Prop
  | .act ownerToken event => ∀ scope, state.scopes.get? ownerToken = some scope →
      scope.Prompt state.now event
  | _ => True

end Next

end Tinkerfin.Redis
