import ReplicatedConfig.Engine
import ReplicatedConfig.Provider.Blueprint

/-!
# The range of the clock

A clock counts its seconds in 64 bits with a sign, so it shows no instant from
`Instant.bound` on.  Instants have no upper end here, and all the rest is computed as if
clocks had none either.  This module says which instants are computed, so that a run in
which one of them cannot be shown can be told from the others.

## Which instants are computed

`Engine.sums` lists them event by event.  Most of them are kept, and are the `dates` of what
the event leads to: when a key is looked at next, when a replica may be tried again, when a
call tries its next candidate, when a pause of a first load ends, and when it tries no more.
A few have left no trace once the event is over (`Engine.passing`).

Two kinds of instants are not among them.  The ticks of a poller are kept by its timer, and
whether it is time for a lookup is seen from the time since the last one.
-/

namespace ReplicatedConfig

namespace Instant

/-- The first number of nanoseconds that no clock shows. -/
def bound : Nat := UInt64.size / 2 * nanosPerSecond

/-- Whether a clock can show the instant. -/
def Fits (t : Instant) : Prop := t.nanos < bound

instance (t : Instant) : Decidable t.Fits := inferInstanceAs (Decidable (t.nanos < bound))

end Instant

/-- The instants that a provider keeps: when its keys are looked at next, and when its
replicas may be tried again. -/
def Provider.dates (p : Provider) : List Instant :=
  p.watchList.watches.map (·.expiresAt) ++ p.pool.healths.map (·.retryAt)

/-- Within what time a nudge brings the next look at the key at a place. -/
def WatchList.delay (most : Duration) (draws : Nat → Nat) (place : Nat) : Duration :=
  .ofNanos (min (draws place) (drawRange most) * nanosPerMilli)

/-- When a call tries its next candidate.  It is computed whether there is one or not. -/
def Call.dates {σ : Type} (c : Call σ) : List Instant := [c.lastLaunch + c.interval]

/-- The instants that a reload keeps. -/
def Reload.dates : Reload → List Instant
  | .listing call => call.dates
  | .fetching _ _ _ call => call.dates
  | .waiting | .adapting .. => []

/-- The instants that a check keeps. -/
def Check.dates : Check → List Instant
  | .checking _ _ call => call.dates
  | .fetching _ _ call => call.dates
  | .ready _ | .finished _ => []

/-- The instants that a pass keeps. -/
def Pass.dates : Pass → List Instant
  | .loading r => r.dates
  | .checking checks => checks.flatMap Check.dates
  | .reloading _ r => r.dates
  | .merging .. => []

namespace Startup

/-- The instants that a first load keeps. -/
def dates (s : Startup) : List Instant :=
  s.deadline :: match s.phase with
    | .inl r => r.dates
    | .inr wake => [wake]

/-- When a pause that follows a try ends, if it begins now. -/
def pauseEnd (p : Provider) (tries : Nat) : Instant := p.now + startupPolicy.interval p.draw tries

end Startup

namespace Job

/-- The instants that an operation keeps. -/
def dates : Job → List Instant
  | .fetch call => call.dates
  | .check call => call.dates
  | .list call => call.dates
  | .load s => s.dates
  | .refresh s => s.dates
  | .poll ⟨_, _, .passing s⟩ => s.dates
  | .poll _ | .rediscover | .ended _ => []

/-- When the pause ends that an operation may begin now: a first load after its current try,
or after the one that it wakes up for. -/
def pauseEnds (p : Provider) : Job → List Instant
  | .load s => [Startup.pauseEnd p s.tries, Startup.pauseEnd p (s.tries + 1)]
  | _ => []

end Job

namespace Engine

/-- The instants that a provider and the operations on it keep. -/
def dates (e : Engine) : List Instant := e.provider.dates ++ e.tasks.flatMap (·.job.dates)

/-- The instants that may be computed when something happens and have left no trace once it
is over: those of calls that have ended at once, those of first loads, and the drawn ones of
keys that are due before. -/
def passing (e : Engine) (ev : Event) : List Instant :=
  let p := e.provider
  (if (e.handle ev).provider.calls = p.calls then [] else [p.now + p.failover.interval])
    ++ e.tasks.flatMap (·.job.pauseEnds p)
    ++ match ev with
      | .start _ .load _ => [p.now + p.options.startupTimeout, Startup.pauseEnd p 1]
      | .setDirty most draws =>
        (List.range p.watchList.size).map fun place => p.now + WatchList.delay most draws place
      | _ => []

/-- The instants that may be computed when something happens. -/
def sums (e : Engine) (ev : Event) : List Instant := (e.handle ev).dates ++ e.passing ev

/-- Whether a clock shows all instants that may be computed when something happens. -/
def Shows (e : Engine) (ev : Event) : Prop := ∀ t ∈ e.sums ev, t.Fits

instance (e : Engine) (ev : Event) : Decidable (e.Shows ev) :=
  inferInstanceAs (Decidable (∀ t ∈ e.sums ev, t.Fits))

end Engine

namespace Blueprint

/-- The instants that are computed when the keys are watched, up to the first one that
cannot be. -/
def sums (b : Blueprint) (now : Instant) : List Instant :=
  let watched := b.watches.takeWhile fun r => decide (minExpiration ≤ r.expiration)
  watched.map fun r => now + r.expiration

/-- Whether a clock shows all instants that are computed when the keys are watched. -/
def Shows (b : Blueprint) (now : Instant) : Prop := ∀ t ∈ b.sums now, t.Fits

instance (b : Blueprint) (now : Instant) : Decidable (b.Shows now) :=
  inferInstanceAs (Decidable (∀ t ∈ b.sums now, t.Fits))

end Blueprint

end ReplicatedConfig
