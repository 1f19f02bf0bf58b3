import ReplicatedConfig.Health.Backoff
import ReplicatedConfig.Time.Instant

/-!
# The health of a replica

A replica's health is a count of failures since its last success and the instant from
which it may be tried again.  A success clears both; a failure raises the count and
pushes the instant out by the policy's interval.  When a back-off has run out the count
stays, so that the next failure is taken as a further one in a row.
-/

namespace ReplicatedConfig

/-- Failures since the last success, and when the replica may be tried again. -/
structure Health where
  failures : Nat
  retryAt : Instant
  deriving DecidableEq, Inhabited

namespace Health

/-- Failures beyond this number are not counted. -/
def maxFailures : Nat := UInt32.size - 1

/-- The health of a replica that nothing is known about. -/
def new (now : Instant) : Health := ⟨0, now⟩

/-- Whether the replica may be tried at `now`. -/
def Available (h : Health) (now : Instant) : Prop := h.retryAt ≤ now

instance (h : Health) (now : Instant) : Decidable (h.Available now) :=
  inferInstanceAs (Decidable (h.retryAt ≤ now))

/-- The health after a request that ended at `now`. -/
def record (h : Health) (success : Bool) (now : Instant) (policy : BackoffPolicy) (draw : Draw) :
    Health :=
  if success then ⟨0, now⟩
  else
    let failures := min (h.failures + 1) maxFailures
    ⟨failures, now + policy.interval draw failures⟩

theorem record_failure (h : Health) (now : Instant) (policy : BackoffPolicy) (draw : Draw) :
    h.record false now policy draw =
      ⟨min (h.failures + 1) maxFailures,
        now + policy.interval draw (min (h.failures + 1) maxFailures)⟩ := rfl

end Health

end ReplicatedConfig
