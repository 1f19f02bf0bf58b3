/-!
# Percent encoding

A character outside a part's set of allowed ones is written as its UTF-8 bytes, each
a percent sign and two upper-case hexadecimal digits.  Which characters those are
depends on the part of the URL: the sets below grow from `isControl` to `inUserinfo`.
Characters beyond ASCII are written that way everywhere.

Decoding is total: a percent sign that no two hexadecimal digits follow stands for
itself.
-/

namespace ReplicatedConfig.Url.Percent

/-- ASCII controls and everything beyond ASCII. -/
def isControl (c : Char) : Bool := c.toNat < 0x20 || 0x7e < c.toNat

/-- What a fragment has to write as bytes. -/
def inFragment (c : Char) : Bool := isControl c || c ∈ [' ', '"', '<', '>', Char.ofNat 0x60]

/-- What a query has to write as bytes. -/
def inQuery (c : Char) : Bool := isControl c || c ∈ [' ', '"', '#', '<', '>']

/-- What the query of a special scheme has to write as bytes. -/
def inSpecialQuery (c : Char) : Bool := inQuery c || c == Char.ofNat 0x27

/-- What a path has to write as bytes. -/
def inPath (c : Char) : Bool := inFragment c || c ∈ ['#', '?', Char.ofNat 0x7b, Char.ofNat 0x7d]

/-- What a user name or password has to write as bytes. -/
def inUserinfo (c : Char) : Bool :=
  inPath c || c ∈ ['/', ':', ';', '=', '@', '[', '\\', ']', '^', '|']

/-- The hexadecimal digit for a number below sixteen, in upper case. -/
def upperDigit (n : Nat) : Char := if n < 10 then Char.ofNat (48 + n) else Char.ofNat (55 + n)

/-- A byte as a percent sign and two digits. -/
def byteText (b : UInt8) : List Char := ['%', upperDigit (b.toNat / 16), upperDigit (b.toNat % 16)]

/-- `cs` with every character of `set` written as bytes. -/
def encode (set : Char → Bool) (cs : List Char) : List Char :=
  cs.flatMap fun c => if set c then (String.utf8EncodeChar c).flatMap byteText else [c]

/-- The value of a hexadecimal digit. -/
def digitValue? (c : Char) : Option Nat :=
  if '0' ≤ c ∧ c ≤ '9' then some (c.toNat - 48)
  else if 'a' ≤ c ∧ c ≤ 'f' then some (c.toNat - 87)
  else if 'A' ≤ c ∧ c ≤ 'F' then some (c.toNat - 55)
  else none

/-- The bytes that a text stands for. -/
def decode : List Char → List UInt8
  | [] => []
  | '%' :: a :: b :: rest =>
    match digitValue? a, digitValue? b with
    | some x, some y => UInt8.ofNat (16 * x + y) :: decode rest
    | _, _ => 37 :: decode (a :: b :: rest)
  | c :: rest => String.utf8EncodeChar c ++ decode rest

end ReplicatedConfig.Url.Percent
