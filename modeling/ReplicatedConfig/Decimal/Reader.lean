/-!
# Reading decimal numbers

The texts that stand for numbers: whole numbers with an optional plus sign, held to a
bound, and numbers with a fraction, an exponent or one of the words for infinity and
no number.
-/

namespace ReplicatedConfig.Decimal

/-- The value of a text of decimal digits; nothing where it is empty or has any other
character. -/
def digits? (cs : List Char) : Option Nat :=
  if cs.isEmpty ∨ !cs.all Char.isDigit then none
  else some (cs.foldl (fun n c => 10 * n + (c.toNat - 48)) 0)

/-- A whole number of 64 bits, with an optional plus sign. -/
def uint64? (s : String) : Option UInt64 := do
  let cs := s.toList
  let n ← digits? (if cs.head? = some '+' then cs.drop 1 else cs)
  if n < UInt64.size then some (UInt64.ofNat n) else none

/-- `digits * 10 ^ e` as the nearest binary number.  Where the first digit stands far
beyond the range of binary numbers, its exact place does not matter. -/
def scientific (digits : Nat) (e : Int) : Float :=
  let top : Int := (Nat.toDigits 10 digits).length + e
  if digits = 0 ∨ top < -400 then 0.0
  else if 400 < top then 1.0 / 0.0
  else Float.ofScientific digits (decide (e < 0)) e.natAbs

/-- The exponent of a number: nothing, or a mark with a signed whole number. -/
def exponent? : List Char → Option Int
  | [] => some 0
  | c :: cs =>
    if c = 'e' ∨ c = 'E' then
      match cs with
      | '-' :: ds => (digits? ds).map fun n => -(n : Int)
      | '+' :: ds => (digits? ds).map Int.ofNat
      | ds => (digits? ds).map Int.ofNat
    else none

/-- A number without a sign. -/
def unsigned? (cs : List Char) : Option Float := do
  let whole := cs.takeWhile Char.isDigit
  let rest := cs.dropWhile Char.isDigit
  let (fraction, rest) := match rest with
    | '.' :: more => (more.takeWhile Char.isDigit, more.dropWhile Char.isDigit)
    | _ => ([], rest)
  let e ← exponent? rest
  let n ← digits? (whole ++ fraction)
  some (scientific n (e - fraction.length))

/-- A number, the words for infinity and for no number included. -/
def float? (s : String) : Option Float :=
  let cs := s.toList.map Char.toLower
  let (negative, body) := match cs with
    | '-' :: rest => (true, rest)
    | '+' :: rest => (false, rest)
    | _ => (false, cs)
  let magnitude? :=
    if body = ['i', 'n', 'f'] ∨ body = ['i', 'n', 'f', 'i', 'n', 'i', 't', 'y'] then some (1.0 / 0.0)
    else if body = ['n', 'a', 'n'] then some (0.0 / 0.0)
    else unsigned? body
  magnitude?.map fun x => if negative then -x else x

end ReplicatedConfig.Decimal
