import Mathlib.Algebra.Group.Nat.Defs
import ReplicatedConfig.Health.Backoff

/-!
# How long failures keep a replica away

An interval is worked out in four steps: the shortest time is doubled for each failure beyond the
first, cut off at the longest time, spread, and held to the bounds.  The last step alone keeps
every interval between the bounds, so it does not matter what a draw makes of the third one
(`bounds_spreadInterval`).

## What the doubling leaves out

Two things keep the doubling from being exact: it stops at `maxExponent`, and it saturates at the
largest duration.  Both only ever make a product smaller that is beyond the longest time anyway,
as long as the longest time is within reach of the doubling, and then the cut hides the
difference (`nanos_base_of_reach`).
-/

namespace ReplicatedConfig

/-! ## Holding a duration to a range -/

namespace Duration

theorem nanos_clamp (d lo hi : Duration) (h : lo ≤ hi) :
    (d.clamp lo hi).nanos = max lo.nanos (min d.nanos hi.nanos) := by
  rw [le_iff] at h
  simp only [clamp, lt_iff]
  split
  · omega
  · split <;> omega

end Duration

namespace BackoffPolicy

variable (p : BackoffPolicy)

theorem nanos_hold (d : Duration) :
    (p.hold d).nanos =
      max p.shortest.nanos (min d.nanos (max p.longest.nanos p.shortest.nanos)) := by
  have hrange : p.shortest ≤ max p.longest p.shortest := by
    rw [Duration.le_iff, Duration.nanos_max]
    exact Nat.le_max_right _ _
  rw [hold, Duration.nanos_clamp _ _ _ hrange, Duration.nanos_max]

/-- Every duration is held to the bounds. -/
theorem bounds_hold (d : Duration) :
    p.shortest ≤ p.hold d ∧ p.hold d ≤ max p.shortest p.longest := by
  rw [Duration.le_iff, Duration.le_iff, nanos_hold, Duration.nanos_max]
  omega

theorem hold_mono {c d : Duration} (h : c ≤ d) : p.hold c ≤ p.hold d := by
  rw [Duration.le_iff] at h
  rw [Duration.le_iff, nanos_hold, nanos_hold]
  omega

/-- A duration within the bounds is held where it is. -/
theorem hold_eq_self {d : Duration} (hlo : p.shortest ≤ d) (hhi : d ≤ p.longest) :
    p.hold d = d := by
  rw [Duration.le_iff] at hlo hhi
  refine Duration.ext_nanos ?_
  rw [nanos_hold]
  omega

/-! ## The interval before it is spread -/

theorem nanos_base (n : Nat) :
    (p.base n).nanos =
      min (min (p.shortest.nanos * 2 ^ min (n - 1) maxExponent) (durationBound - 1))
        p.longest.nanos := by
  rw [base, Duration.nanos_min, Duration.nanos_scale]
  rfl

/-- More failures do not shorten the interval. -/
theorem base_mono {m n : Nat} (h : m ≤ n) : p.base m ≤ p.base n := by
  have hexponent : min (m - 1) maxExponent ≤ min (n - 1) maxExponent := by omega
  have hpow := Nat.pow_le_pow_right Nat.two_pos hexponent
  have hproduct := Nat.mul_le_mul_left p.shortest.nanos hpow
  rw [Duration.le_iff, nanos_base, nanos_base]
  omega

/-- Failures beyond the last doubling make no difference. -/
theorem base_min {n most : Nat} (h : maxExponent < most) : p.base (min n most) = p.base n := by
  have hexponent : min (min n most - 1) maxExponent = min (n - 1) maxExponent := by omega
  rw [base, hexponent, base]

/-- **The exact doubling.**  Where doubling can reach the longest time, neither its end nor
saturation can be seen in the result. -/
theorem nanos_base_of_reach (hreach : p.longest.nanos ≤ 2 ^ maxExponent * p.shortest.nanos)
    (n : Nat) : (p.base n).nanos = min p.longest.nanos (p.shortest.nanos * 2 ^ (n - 1)) := by
  have hlongest := p.longest.nanos_lt
  rw [nanos_base]
  -- Where the doubling stops does not matter, and as a number it would be computed with.
  generalize maxExponent = most at hreach ⊢
  rcases Nat.le_total (n - 1) most with hfew | hmany
  · rw [Nat.min_eq_left hfew]
    omega
  · have hpow := Nat.pow_le_pow_right Nat.two_pos hmany
    have hproduct := Nat.mul_le_mul_left p.shortest.nanos hpow
    rw [Nat.mul_comm] at hreach
    rw [Nat.min_eq_right hmany]
    omega

/-! ## The interval -/

theorem spreadInterval_of_ne_zero (spread : Duration → Duration) {n : Nat} (h : n ≠ 0) :
    p.spreadInterval spread n = p.hold (spread (p.base n)) :=
  if_neg h

/-- An interval keeps to the bounds, whatever it is spread to. -/
theorem bounds_spreadInterval (spread : Duration → Duration) {n : Nat} (h : n ≠ 0) :
    p.shortest ≤ p.spreadInterval spread n ∧
      p.spreadInterval spread n ≤ max p.shortest p.longest := by
  rw [spreadInterval_of_ne_zero p spread h]
  exact p.bounds_hold _

/-- After a failure there is always something to wait for. -/
theorem interval_pos (hpositive : .zero < p.shortest) (draw : Draw) {n : Nat} (h : n ≠ 0) :
    .zero < p.interval draw n :=
  Nat.lt_of_lt_of_le hpositive (p.bounds_spreadInterval (p.spread draw) h).1

/-- Counting failures up to a number beyond the last doubling loses nothing. -/
theorem interval_min (draw : Draw) {n most : Nat} (h : maxExponent < most) :
    p.interval draw (min n most) = p.interval draw n := by
  have hzero : min n most = 0 ↔ n = 0 := by omega
  simp only [interval, spreadInterval, hzero, p.base_min h]

variable {p}

/-- Without jitter nothing is spread. -/
theorem interval_of_steady (hsteady : ¬ 0.0 < p.jitter) (draw : Draw) {n : Nat} (h : n ≠ 0) :
    p.interval draw n = p.hold (p.base n) := by
  rw [interval, spreadInterval_of_ne_zero p _ h, spread, if_neg hsteady]

/-- The base interval is between bounds that are in order. -/
theorem shortest_le_base (hbounds : p.shortest ≤ p.longest) (n : Nat) : p.shortest ≤ p.base n := by
  have hshortest := p.shortest.nanos_lt
  have hpow : 1 ≤ 2 ^ min (n - 1) maxExponent := Nat.one_le_two_pow
  have hproduct := Nat.mul_le_mul_left p.shortest.nanos hpow
  rw [Duration.le_iff] at hbounds
  rw [Duration.le_iff, nanos_base]
  omega

theorem base_le_longest (n : Nat) : p.base n ≤ p.longest := by
  rw [Duration.le_iff, nanos_base]
  exact Nat.min_le_right _ _

/-- **The interval after failures in a row.**  Every draw spreads an interval in some way.  In
whatever way it is spread, the interval is zero after no failure and within the bounds after any
number of failures.  Without jitter it does not get shorter with more failures, and where the
bounds are in order and doubling can reach the longest time, it is the shortest time, doubled for
each failure beyond the first, or the longest time if that is less. -/
theorem interval_doubles (p : BackoffPolicy) :
    (∀ draw, ∃ spread, p.interval draw = p.spreadInterval spread) ∧
    (∀ spread, p.spreadInterval spread 0 = .zero ∧
      ∀ n, n ≠ 0 → p.shortest ≤ p.spreadInterval spread n ∧
        p.spreadInterval spread n ≤ max p.shortest p.longest) ∧
    (¬ 0.0 < p.jitter → ∀ draw,
      (∀ m n, m ≠ 0 → m ≤ n → p.interval draw m ≤ p.interval draw n) ∧
      (p.shortest ≤ p.longest → p.longest.nanos ≤ 2 ^ 31 * p.shortest.nanos →
        ∀ n, n ≠ 0 →
          (p.interval draw n).nanos = min p.longest.nanos (p.shortest.nanos * 2 ^ (n - 1)))) := by
  refine ⟨fun draw => ⟨p.spread draw, rfl⟩, fun spread => ⟨rfl, fun n hn => ?_⟩,
    fun hsteady draw => ⟨fun m n hm hmn => ?_, fun hbounds hreach n hn => ?_⟩⟩
  · exact p.bounds_spreadInterval spread hn
  · have hn : n ≠ 0 := by omega
    rw [interval_of_steady hsteady draw hm, interval_of_steady hsteady draw hn]
    exact p.hold_mono (p.base_mono hmn)
  · rw [interval_of_steady hsteady draw hn,
      p.hold_eq_self (shortest_le_base hbounds n) (base_le_longest n)]
    exact p.nanos_base_of_reach hreach n

/-- From `2 ^ 33` seconds up to the longest time that there is in whole seconds: the doubling for
the thirty-second failure saturates, and the interval is the longest time as it should be. -/
theorem interval_doubles_saturating :
    let p := steady (.ofSecs 0x200000000) (.ofSecs 0xFFFFFFFFFFFFFFFF)
    ¬ 0.0 < p.jitter ∧ p.shortest ≤ p.longest ∧ p.longest.nanos ≤ 2 ^ 31 * p.shortest.nanos ∧
      p.interval .middle 31 ≤ p.interval .middle 32 ∧
      (p.interval .middle 31).nanos = 2 ^ 63 * nanosPerSecond ∧
      (p.interval .middle 32).nanos = (2 ^ 64 - 1) * nanosPerSecond := by
  intro p
  have hsteady : ¬ 0.0 < p.jitter := by decide
  have hbounds : p.shortest ≤ p.longest := by decide
  have hreach : p.longest.nanos ≤ 2 ^ 31 * p.shortest.nanos := by decide
  obtain ⟨hmono, hexact⟩ := (interval_doubles p).2.2 hsteady .middle
  refine ⟨hsteady, hbounds, hreach, hmono 31 32 (by decide) (by decide), ?_, ?_⟩
  · rw [hexact hbounds hreach 31 (by decide)]
    decide
  · rw [hexact hbounds hreach 32 (by decide)]
    decide

end BackoffPolicy

end ReplicatedConfig
