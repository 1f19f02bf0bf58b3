import ReplicatedConfig.Config
import ReplicatedConfig.Failover.Conversation
import ReplicatedConfig.Provider.Error
import ReplicatedConfig.Refresh.Materialized

/-!
# The state of a provider

A provider holds everything that its operations share: the pool, the rules for falling
over, the watched keys, the loaded settings, the published snapshot, and the counters.
Operations that are under way keep their own state elsewhere and change this one step by
step.

## The lock

Reloads and merges change the loaded settings and publish.  They take turns by a lock
that is given in the order of asking, and it is handed on when it is let go, so nobody
who comes later gets in between.

## Time and chance

The provider knows what time it is and which draw comes next.  Both are set from outside.
-/

namespace ReplicatedConfig

/-- What a load reads and how it takes failures. -/
structure LoadOptions where
  /-- Read in order; a later selector overrides an earlier one. -/
  selectors : List Selector
  /-- Whether to go on without configuration where it cannot be loaded, and with previous
  values where an adapter refuses a setting. -/
  optional : Bool
  startupTimeout : Duration

instance : Inhabited LoadOptions := ⟨⟨[.anyKey], false, .ofSecs 100⟩⟩

/-- The number of an operation that is under way. -/
abbrev TaskId := Nat

/-- Who may change the loaded settings, and who waits to. -/
structure Lock where
  holder : Option TaskId
  queue : List TaskId
  deriving DecidableEq

namespace Lock

/-- Nobody holds the lock. -/
def free : Lock := ⟨none, []⟩

instance : Inhabited Lock := ⟨free⟩

/-- Asks for the lock. -/
def request (l : Lock) (t : TaskId) : Lock :=
  match l.holder with
  | none => { l with holder := some t }
  | some _ => { l with queue := l.queue ++ [t] }

/-- Lets the lock go, or gives up waiting for it. -/
def leave (l : Lock) (t : TaskId) : Lock :=
  if l.holder = some t then ⟨l.queue.head?, l.queue.drop 1⟩
  else { l with queue := l.queue.filter (· ≠ t) }

/-- Whether an operation holds the lock. -/
def isHeldBy (l : Lock) (t : TaskId) : Bool := l.holder == some t

end Lock

/-- Everything that the operations of a provider share. -/
structure Provider where
  pool : Pool
  failover : FailoverConfig
  watchList : WatchList
  pipeline : Pipeline
  options : LoadOptions
  materialized : Materialized
  /-- Whether a full load has succeeded. -/
  loaded : Bool
  publisher : Publisher
  metrics : Metrics
  lock : Lock
  /-- How many calls have been started. -/
  calls : Nat
  draw : Draw
  now : Instant

namespace FailoverConfig

/-- How long an attempt may run before the next one starts beside it. -/
def interval (c : FailoverConfig) : Duration := .ofMillis c.parallelRetryMillis

/-- How long failures keep a replica away. -/
def policy (c : FailoverConfig) : BackoffPolicy :=
  (BackoffPolicy.steady (.ofSecs c.minBackoffSecs) (.ofSecs c.maxBackoffSecs)).withJitter c.jitter

end FailoverConfig

namespace Provider

/-- A provider over a pool that has not loaded anything.  The pool takes on the policy of
the rules for falling over. -/
def new (pool : Pool) (failover : FailoverConfig) (watchList : WatchList) (pipeline : Pipeline)
    (options : LoadOptions) (now : Instant) : Provider where
  pool := { pool with policy := failover.policy }
  failover
  watchList
  pipeline
  options
  materialized := .empty
  loaded := false
  publisher := .new
  metrics := .empty
  lock := .free
  calls := 0
  draw := .middle
  now

/-- Replaces the rules for falling over.  Calls under way keep the old ones. -/
def configure (p : Provider) (c : FailoverConfig) : Provider :=
  { p with failover := c, pool := { p.pool with policy := c.policy } }

/-- Watches a key. -/
def watch (p : Provider) (r : WatchRequest) : Except WatchError Provider :=
  (p.watchList.register r p.now).map fun (l, _) => { p with watchList := l }

/-- Makes an effect of a call happen. -/
def apply (p : Provider) : Effect → Provider
  | .answered m outcome time policy =>
    { p with
      metrics := p.metrics.attempt m.endpoint.host outcome
      pool := match outcome.health? with
        | some success => p.pool.record m success time policy p.draw
        | none => p.pool }
  | .fellBack => { p with metrics := p.metrics.fallback }

/-- Makes the effects of a step of a call happen. -/
def take {σ α : Type} (p : Provider) (t : Turn σ α) : Provider × Progress σ α :=
  (t.effects.foldl apply p, t.progress)

/-- Starts a call.  One that has been given up before it starts asks nobody. -/
def openCall {σ α : Type} (p : Provider) (k : Conversation σ α) (fresh : σ) (cancelled : Bool) :
    Provider × Progress σ α :=
  if cancelled then (p, .returned (.error .cancelled))
  else
    let call := Call.start p.calls p.failover.interval p.pool.policy (p.pool.candidates p.now) fresh p.now
    { p with calls := p.calls + 1 }.take (call.opening k p.now)

/-- Publishes the loaded settings. -/
def publish (p : Provider) : Provider :=
  let publisher := p.publisher.publish p.materialized.values
  { p with
    publisher
    metrics := p.metrics.published publisher.current.version publisher.current.values.size }

/-- Asks for the lock. -/
def acquire (p : Provider) (me : TaskId) : Provider := { p with lock := p.lock.request me }

/-- Lets the lock go. -/
def release (p : Provider) (me : TaskId) : Provider := { p with lock := p.lock.leave me }

/-- Ends the refresh of the key at a place. -/
def letGo (p : Provider) (place : Nat) : Provider :=
  { p with watchList := p.watchList.release place p.now }

/-- The known token of the key at a place. -/
def tokenAt (p : Provider) (place : Nat) : Option Token := (p.watchList.get? place).bind (·.token)

/-- Notes the known token of the key at a place. -/
def setToken (p : Provider) (place : Nat) (token : Option Token) : Provider :=
  { p with watchList := p.watchList.setToken place token }

/-- A refresh pass has ended. -/
def countPass (p : Provider) (r : PassResult) : Provider := { p with metrics := p.metrics.pass r }

end Provider

/-- What reaches an operation from outside. -/
inductive Input where
  /-- A replica has replied. -/
  | answered (ticket : Ticket) (reply : Except StoreError Reply)
  /-- It may be time for a call to try its next candidate. -/
  | fallback (call : Nat)
  /-- The caller has given up. -/
  | cancelled
  /-- Whatever needs nothing from outside goes on: a lock has been given, an adapter has
  finished, a check has not started yet. -/
  | resumed
  /-- It may be time to end a sleep. -/
  | woke

namespace Provider

/-- Drives a call.  Giving up ends it before anything else is looked at. -/
def drive {σ α : Type} (p : Provider) (k : Conversation σ α) (c : Call σ) :
    Input → Provider × Progress σ α
  | .answered ticket reply => p.take (c.hear k ticket reply p.now)
  | .fallback serial => if serial = c.serial then p.take (c.fallBack p.now) else (p, .waiting c)
  | .cancelled => (p, .returned (.error .cancelled))
  | .resumed | .woke => (p, .waiting c)

@[simp] theorem current_publish (p : Provider) : p.publish.publisher.current =
    ⟨p.publisher.current.version + 1, p.materialized.values⟩ := Publisher.current_publish _ _

theorem values_publish (p : Provider) :
    p.publish.publisher.current.values = p.materialized.values := by rw [current_publish]

end Provider

namespace Failover

/-- A setting that was found or not; that it is not there is an answer. -/
def settingOf (r : Except FailoverError (Option Setting × Member)) :
    Except FailoverError (Option Setting) :=
  match r with
  | .ok (s, _) => .ok s
  | .error (.notFound _) => .ok none
  | .error e => .error e

/-- A verdict; that there is no such setting is one. -/
def verdictOf (r : Except FailoverError (Verdict × Member)) : Except FailoverError Verdict :=
  match r with
  | .ok (v, _) => .ok v
  | .error (.notFound _) => .ok .missing
  | .error e => .error e

end Failover

end ReplicatedConfig
