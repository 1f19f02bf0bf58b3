import ReplicatedConfig.Time.Duration

/-!
# Points in time

An `Instant` counts nanoseconds from the start of the clock and has no upper end.
Durations are bounded and instants are not, so adding one to the other is exact and
the arithmetic of deadlines needs no case for overflow.  What a clock can show is
another question, and `Instant.Fits` answers it.
-/

namespace ReplicatedConfig

/-- A point in time, in nanoseconds from the start of the clock. -/
structure Instant where
  nanos : Nat
  deriving DecidableEq, Inhabited

namespace Instant

/-- When the clock starts. -/
def start : Instant := ⟨0⟩

/-- The instant `ms` milliseconds after the start. -/
def ofMillis (ms : Nat) : Instant := ⟨ms * nanosPerMilli⟩

instance : LE Instant := ⟨fun a b => a.nanos ≤ b.nanos⟩
instance : LT Instant := ⟨fun a b => a.nanos < b.nanos⟩
instance (a b : Instant) : Decidable (a ≤ b) := inferInstanceAs (Decidable (a.nanos ≤ b.nanos))
instance (a b : Instant) : Decidable (a < b) := inferInstanceAs (Decidable (a.nanos < b.nanos))
instance : HAdd Instant Duration Instant := ⟨fun t d => ⟨t.nanos + d.nanos⟩⟩
instance : Min Instant := ⟨fun a b => if a ≤ b then a else b⟩

theorem le_iff {a b : Instant} : a ≤ b ↔ a.nanos ≤ b.nanos := Iff.rfl

theorem lt_iff {a b : Instant} : a < b ↔ a.nanos < b.nanos := Iff.rfl

theorem ext_nanos {a b : Instant} (h : a.nanos = b.nanos) : a = b := by
  cases a; cases b; cases h; rfl

@[simp] theorem nanos_add (t : Instant) (d : Duration) : (t + d).nanos = t.nanos + d.nanos := rfl

@[simp] theorem nanos_min (a b : Instant) : (min a b).nanos = min a.nanos b.nanos := by
  show (if a ≤ b then a else b).nanos = _
  split <;> simp_all only [le_iff] <;> omega

theorem le_add (t : Instant) (d : Duration) : t ≤ t + d := Nat.le_add_right _ _

/-- Whole milliseconds since the start. -/
def millis (t : Instant) : Nat := t.nanos / nanosPerMilli

end Instant

end ReplicatedConfig
