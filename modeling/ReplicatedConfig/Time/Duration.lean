/-!
# Lengths of time

A `Duration` is a whole number of nanoseconds below a fixed bound: as many seconds
as fit in 64 bits, plus a fraction.  The bound is a field of the type, so every
operation that could leave the range has to say what happens there, and all of them
saturate: a back-off that would double past the bound stays at the largest length.

## Reading a length

`Duration.text` is the form that error messages use.  It takes the largest of the
units `s`, `ms`, `µs` and `ns` in which the whole part is not zero and writes the
fraction without trailing zeros, so `1.5s`, `999.999µs` and `0ns` are all exact.
-/

namespace ReplicatedConfig

/-- How many nanoseconds make a microsecond. -/
def nanosPerMicro : Nat := 1000

/-- How many nanoseconds make a millisecond. -/
def nanosPerMilli : Nat := 1000000

/-- How many nanoseconds make a second. -/
def nanosPerSecond : Nat := 1000000000

/-- The first number of nanoseconds that no duration reaches. -/
def durationBound : Nat := UInt64.size * nanosPerSecond

/-- A length of time in nanoseconds, below `durationBound`. -/
structure Duration where
  nanos : Nat
  nanos_lt : nanos < durationBound
  deriving DecidableEq

namespace Duration

/-- The duration nearest to `n` nanoseconds: `n` itself, or the largest one. -/
def ofNanos (n : Nat) : Duration :=
  ⟨min n (durationBound - 1), by unfold durationBound nanosPerSecond UInt64.size; omega⟩

/-- A whole number of seconds.  Every 64-bit number of seconds fits. -/
def ofSecs (s : UInt64) : Duration :=
  ⟨s.toNat * nanosPerSecond, Nat.mul_lt_mul_of_pos_right s.toNat_lt (by decide)⟩

/-- A whole number of milliseconds. -/
def ofMillis (ms : UInt64) : Duration :=
  ⟨ms.toNat * nanosPerMilli, by
    have := ms.toNat_lt
    unfold durationBound nanosPerSecond nanosPerMilli UInt64.size
    omega⟩

/-- The empty length of time. -/
def zero : Duration := ofSecs 0

instance : Inhabited Duration := ⟨zero⟩

instance : LE Duration := ⟨fun a b => a.nanos ≤ b.nanos⟩
instance : LT Duration := ⟨fun a b => a.nanos < b.nanos⟩
instance (a b : Duration) : Decidable (a ≤ b) := inferInstanceAs (Decidable (a.nanos ≤ b.nanos))
instance (a b : Duration) : Decidable (a < b) := inferInstanceAs (Decidable (a.nanos < b.nanos))
instance : Min Duration := ⟨fun a b => if a ≤ b then a else b⟩
instance : Max Duration := ⟨fun a b => if a ≤ b then b else a⟩

theorem ext_nanos {a b : Duration} (h : a.nanos = b.nanos) : a = b := by
  cases a; cases b; cases h; rfl

theorem le_iff {a b : Duration} : a ≤ b ↔ a.nanos ≤ b.nanos := Iff.rfl

theorem lt_iff {a b : Duration} : a < b ↔ a.nanos < b.nanos := Iff.rfl

@[simp] theorem nanos_min (a b : Duration) : (min a b).nanos = min a.nanos b.nanos := by
  show (if a ≤ b then a else b).nanos = _
  split <;> simp_all only [le_iff] <;> omega

@[simp] theorem nanos_max (a b : Duration) : (max a b).nanos = max a.nanos b.nanos := by
  show (if a ≤ b then b else a).nanos = _
  split <;> simp_all only [le_iff] <;> omega

@[simp] theorem nanos_ofNanos (n : Nat) : (ofNanos n).nanos = min n (durationBound - 1) := rfl

@[simp] theorem nanos_zero : zero.nanos = 0 := rfl

/-- The whole seconds of a duration. -/
def secs (d : Duration) : Nat := d.nanos / nanosPerSecond

/-- What is left of a duration after its whole seconds, in nanoseconds. -/
def subsecNanos (d : Duration) : Nat := d.nanos % nanosPerSecond

/-- `k` times as long, or the largest duration where that is too long. -/
def scale (d : Duration) (k : Nat) : Duration := ofNanos (d.nanos * k)

@[simp] theorem nanos_scale (d : Duration) (k : Nat) :
    (d.scale k).nanos = min (d.nanos * k) (durationBound - 1) := rfl

/-- `d`, moved to the nearer end where it lies outside the range from `lo` to `hi`. -/
def clamp (d lo hi : Duration) : Duration :=
  if d < lo then lo else if hi < d then hi else d

/-- The fraction `num / 10^places` in decimal, after a point and without trailing
zeros; nothing where it is zero. -/
def fractionText (num places : Nat) : String :=
  let digits := Nat.toDigits 10 (Nat.pow 10 places + num)
  let kept := (digits.drop 1).reverse.dropWhile (· = '0')
  if kept.isEmpty then "" else "." ++ String.ofList kept.reverse

/-- The length in the largest unit whose whole part is not zero. -/
def text (d : Duration) : String :=
  let inUnit (size places : Nat) (unit : String) : String :=
    toString (d.nanos / size) ++ fractionText (d.nanos % size) places ++ unit
  if nanosPerSecond ≤ d.nanos then inUnit nanosPerSecond 9 "s"
  else if nanosPerMilli ≤ d.nanos then inUnit nanosPerMilli 6 "ms"
  else if nanosPerMicro ≤ d.nanos then inUnit nanosPerMicro 3 "µs"
  else toString d.nanos ++ "ns"

end Duration

end ReplicatedConfig
