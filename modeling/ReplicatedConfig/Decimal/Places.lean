/-!
# Decimal text of binary numbers

A finite binary number is `m * 2 ^ e` for whole `m` and `e`, so its decimal form can be
found in exact arithmetic.  `fixedText` gives a fixed number of places, a tie going to
the even digit; `shortestText` gives the fewest digits that no other binary number is
nearer to, in positional form.
-/

namespace ReplicatedConfig.Decimal

/-- The magnitude of a finite binary number: `mantissa * 2 ^ exponent`. -/
structure Binary where
  negative : Bool
  mantissa : Nat
  exponent : Int

/-- What a 64-bit pattern stands for: a number, an infinity or no number. -/
inductive Kind where
  | finite (b : Binary)
  | infinite (negative : Bool)
  | nan

/-- The first number that does not fit into the fraction of a 64-bit pattern. -/
def fractionBound : Nat := Nat.pow 2 52

/-- Reads sign, exponent and fraction out of a 64-bit pattern. -/
def kindOfBits (bits : Nat) : Kind :=
  let negative := decide (Nat.pow 2 63 ≤ bits)
  let field : Nat := bits / fractionBound % 2048
  let fraction : Nat := bits % fractionBound
  if field = 2047 then (if fraction = 0 then .infinite negative else .nan)
  else if field = 0 then .finite ⟨negative, fraction, -1074⟩
  else .finite ⟨negative, fraction + fractionBound, (field : Int) - 1075⟩

/-- `num / den` rounded to a whole number, a tie going to the even one. -/
def roundHalfEven (num den : Nat) : Nat :=
  let q := num / den
  let r := num % den
  if 2 * r < den then q else if den < 2 * r then q + 1 else if q % 2 = 0 then q else q + 1

/-- `m * 2 ^ e * 10 ^ k` as a fraction. -/
def scaled (m : Nat) (e : Int) (k : Int) : Nat × Nat :=
  (m * Nat.pow 2 e.toNat * Nat.pow 10 k.toNat, Nat.pow 2 (-e).toNat * Nat.pow 10 (-k).toNat)

/-- A number of units of `10 ^ (-places)` in positional form. -/
def unitsText (units places : Nat) : String :=
  let digits := Nat.toDigits 10 units
  let padded := List.replicate (places + 1 - digits.length) '0' ++ digits
  let whole := padded.take (padded.length - places)
  let fraction := padded.drop (padded.length - places)
  String.ofList whole ++ (if fraction.isEmpty then "" else "." ++ String.ofList fraction)

/-- The number with `places` places behind the point. -/
def fixedText (places : Nat) (x : Float) : String :=
  match kindOfBits x.toBits.toNat with
  | .nan => "NaN"
  | .infinite negative => if negative then "-inf" else "inf"
  | .finite b =>
    let (num, den) := scaled b.mantissa b.exponent places
    (if b.negative then "-" else "") ++ unitsText (roundHalfEven num den) places

/-- Whether `n * 10 ^ (-k)` is read back as the number `b`: it lies between the
midpoints to the neighbours of `b`, the midpoints included for an even mantissa. -/
def readsBack (b : Binary) (n : Nat) (k : Int) : Bool :=
  let edge := b.mantissa = fractionBound ∧ -1074 < b.exponent
  let (num, den) := scaled n (-b.exponent + 2) (-k)
  let low := if edge then 4 * b.mantissa - 1 else 4 * b.mantissa - 2
  let high := 4 * b.mantissa + 2
  let even := b.mantissa % 2 = 0
  let aboveLow := low * den < num ∨ (even ∧ low * den = num)
  let belowHigh := num < high * den ∨ (even ∧ num = high * den)
  aboveLow ∧ belowHigh

/-- The number of units of `10 ^ (-k)` that is read back as `b`: one of the two next to
`b`.  Where both are, the nearer one, and the greater of two that are equally near. -/
def onGrid? (b : Binary) (k : Int) : Option Nat :=
  let (num, den) := scaled b.mantissa b.exponent k
  let below := num / den
  match readsBack b below k, readsBack b (below + 1) k with
  | true, true => some (if 2 * (num % den) < den then below else below + 1)
  | true, false => some below
  | false, true => some (below + 1)
  | false, false => none

/-- The coarsest grid from `10 ^ (-k)` on that has a number read back as `b`. -/
def shortestFrom (b : Binary) : (fuel : Nat) → (k : Int) → Nat × Int
  | 0, k => (0, k)
  | fuel + 1, k =>
    match onGrid? b k with
    | some n => (n, k)
    | none => shortestFrom b fuel (k + 1)

/-- The number in positional form with the fewest digits that are read back as it. -/
def shortestText (x : Float) : String :=
  match kindOfBits x.toBits.toNat with
  | .nan => "NaN"
  | .infinite negative => if negative then "-inf" else "inf"
  | .finite b =>
    (if b.negative then "-" else "") ++
      if b.mantissa = 0 then "0"
      else
        let (n, k) := shortestFrom b 700 (-310)
        if 0 ≤ k then unitsText n k.toNat else unitsText (n * Nat.pow 10 (-k).toNat) 0

end ReplicatedConfig.Decimal
