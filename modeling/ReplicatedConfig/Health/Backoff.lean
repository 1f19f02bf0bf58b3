import ReplicatedConfig.Decimal.Places
import ReplicatedConfig.Time.Duration

/-!
# How long to leave a failing replica alone

After each failure in a row a replica is left alone twice as long as before, from the
policy's shortest time up to its longest.  The doubling stops at the exponent
`maxExponent` and saturates at the largest duration; neither is ever seen while the
longest time is at most `2 ^ maxExponent` times the shortest.

A policy may spread the result.  Where in its range a spread interval falls is a
`Draw`, an argument here and never a hidden source of randomness, and the spread is
applied before the interval is held to the policy's bounds, so no draw can leave them.
-/

namespace ReplicatedConfig

/-- Where in the range of a spread interval the drawn value falls, from `0.0` at its
lower end to `1.0` at its upper end. -/
structure Draw where
  fraction : Float

/-- The middle of every range. -/
def Draw.middle : Draw := ⟨0.5⟩

instance : Inhabited Draw := ⟨Draw.middle⟩

/-- How long failures keep a replica away. -/
structure BackoffPolicy where
  shortest : Duration
  longest : Duration
  /-- The part of an interval that is drawn around it, from `0.0` to `1.0`. -/
  jitter : Float

namespace BackoffPolicy

/-- No jitter below zero, and none above the whole interval. -/
def clampJitter (j : Float) : Float :=
  if j < 0.0 then 0.0 else if 1.0 < j then 1.0 else j

/-- A policy without jitter. -/
def steady (shortest longest : Duration) : BackoffPolicy := ⟨shortest, longest, 0.0⟩

/-- The policy with this much jitter, held to the range from nothing to all. -/
def withJitter (p : BackoffPolicy) (j : Float) : BackoffPolicy := { p with jitter := clampJitter j }

instance : Inhabited BackoffPolicy := ⟨steady (.ofSecs 30) (.ofSecs 600)⟩

/-- Doubling stops after this many failures beyond the first. -/
def maxExponent : Nat := 31

/-- The interval after `failures` failures in a row before it is spread or held to
the lower bound. -/
def base (p : BackoffPolicy) (failures : Nat) : Duration :=
  min (p.shortest.scale (Nat.pow 2 (min (failures - 1) maxExponent))) p.longest

/-- A duration held to the policy's bounds; the lower one wins where they cross. -/
def hold (p : BackoffPolicy) (d : Duration) : Duration :=
  d.clamp p.shortest (max p.longest p.shortest)

/-- The interval after `failures` failures in a row, where `spread` says what the
draw makes of the base interval. -/
def spreadInterval (p : BackoffPolicy) (spread : Duration → Duration) (failures : Nat) : Duration :=
  if failures = 0 then .zero else p.hold (spread (p.base failures))

/-- Seconds as a number with a fraction. -/
def seconds (d : Duration) : Float :=
  d.secs.toFloat + d.subsecNanos.toFloat / 1.0e9

/-- The duration nearest to a non-negative number of seconds, exact to the nanosecond; of
two that are equally near, the even one. -/
def ofSeconds (x : Float) : Duration :=
  match Decimal.kindOfBits x.toBits.toNat with
  | .finite b =>
    let (num, den) := Decimal.scaled b.mantissa b.exponent 9
    .ofNanos (Decimal.roundHalfEven num den)
  | _ => .ofNanos durationBound

/-- What `draw` makes of an interval: a point of the range that is `jitter` times as
wide as the interval and has the interval in its middle. -/
def spread (p : BackoffPolicy) (draw : Draw) (d : Duration) : Duration :=
  if 0.0 < p.jitter then
    let range := seconds d * p.jitter
    ofSeconds (max (seconds d + (draw.fraction * range - range / 2.0)) 0.0)
  else d

/-- The interval after `failures` failures in a row. -/
def interval (p : BackoffPolicy) (draw : Draw) (failures : Nat) : Duration :=
  p.spreadInterval (p.spread draw) failures

@[simp] theorem interval_zero (p : BackoffPolicy) (draw : Draw) : p.interval draw 0 = .zero := rfl

end BackoffPolicy

end ReplicatedConfig
