import ReplicatedConfig.Decimal.Reader
import ReplicatedConfig.Document

/-!
# JSON

`Json.read?` reads a JSON text into a `Document`.  A number without a point or exponent
that fits in 64 bits is whole; every other one has a fraction, and so does `-0`, which
no whole number stands for.  A key that stands twice in an object keeps its later value.

The reader works on a list of characters and returns what it has not read.  Every value
takes at least one character, so the length of the text is fuel enough.
-/

namespace ReplicatedConfig.Document.Json

/-- The text behind leading blanks. -/
def skipBlank (cs : List Char) : List Char := cs.dropWhile (· ∈ [' ', '\t', '\n', '\r'])

/-- The value of four hexadecimal digits. -/
def hex4? : List Char → Option (Nat × List Char)
  | a :: b :: c :: d :: rest => do
    let digit (c : Char) : Option Nat :=
      if c.isDigit then some (c.toNat - 48)
      else if 'a' ≤ c ∧ c ≤ 'f' then some (c.toNat - 87)
      else if 'A' ≤ c ∧ c ≤ 'F' then some (c.toNat - 55)
      else none
    some ((((← digit a) * 16 + (← digit b)) * 16 + (← digit c)) * 16 + (← digit d), rest)
  | _ => none

/-- The character of an escape and what follows it. -/
def escape? : List Char → Option (Char × List Char)
  | 'n' :: rest => some ('\n', rest)
  | 't' :: rest => some ('\t', rest)
  | 'r' :: rest => some ('\r', rest)
  | 'b' :: rest => some (Char.ofNat 8, rest)
  | 'f' :: rest => some (Char.ofNat 12, rest)
  | 'u' :: rest => do
    let (hi, rest) ← hex4? rest
    if 0xd800 ≤ hi ∧ hi < 0xdc00 then
      match rest with
      | '\\' :: 'u' :: more =>
        let (lo, rest) ← hex4? more
        if 0xdc00 ≤ lo ∧ lo < 0xe000 then
          some (Char.ofNat (0x10000 + (hi - 0xd800) * 0x400 + (lo - 0xdc00)), rest)
        else none
      | _ => none
    else if 0xdc00 ≤ hi ∧ hi < 0xe000 then none
    else some (Char.ofNat hi, rest)
  | c :: rest => if c ∈ ['"', '\\', '/'] then some (c, rest) else none
  | [] => none

/-- A string behind its opening quote; `done` holds its characters so far, the last one
first. -/
def string? : (fuel : Nat) → (done : List Char) → List Char → Option (String × List Char)
  | 0, _, _ => none
  | _ + 1, _, [] => none
  | fuel + 1, done, c :: rest =>
    if c = '"' then some (String.ofList done.reverse, rest)
    else if c = '\\' then do
      let (e, rest) ← escape? rest
      string? fuel (e :: done) rest
    else if c.toNat < 0x20 then none
    else string? fuel (c :: done) rest

/-- Whether a run of characters is a JSON number: no plus sign and no leading zero. -/
def wellFormed (cs : List Char) : Bool :=
  let body := if cs.head? = some '-' then cs.drop 1 else cs
  let whole := body.takeWhile Char.isDigit
  let rest := body.dropWhile Char.isDigit
  let rest' := match rest with
    | '.' :: more => if (more.takeWhile Char.isDigit).isEmpty then ['.'] else more.dropWhile Char.isDigit
    | _ => rest
  !whole.isEmpty && (whole.head? != some '0' || whole.length == 1)
    && (Decimal.exponent? rest').isSome

/-- The number that a run of characters stands for. -/
def number? (cs : List Char) : Option Document :=
  if !wellFormed cs then none
  else
    let float := (Decimal.float? (String.ofList cs)).map Document.float
    match cs with
    | '-' :: ds =>
      match Decimal.digits? ds with
      | some n => if n ≠ 0 ∧ Int64.minValue.toInt ≤ -(n : Int) then some (.int (-(n : Int))) else float
      | none => float
    | _ =>
      match Decimal.digits? cs with
      | some n => if n < UInt64.size then some (.int n) else float
      | none => float

/-- Whether a character can stand in a number. -/
def inNumber (c : Char) : Bool := c.isDigit || c ∈ ['-', '+', '.', 'e', 'E']

mutual

/-- A value at the head of the text. -/
def value? : (fuel : Nat) → List Char → Option (Document × List Char)
  | 0, _ => none
  | fuel + 1, cs =>
    match skipBlank cs with
    | 'n' :: 'u' :: 'l' :: 'l' :: rest => some (.null, rest)
    | 't' :: 'r' :: 'u' :: 'e' :: rest => some (.bool true, rest)
    | 'f' :: 'a' :: 'l' :: 's' :: 'e' :: rest => some (.bool false, rest)
    | '"' :: rest => (string? (rest.length + 1) [] rest).map fun (s, rest) => (.string s, rest)
    | '[' :: rest =>
      match skipBlank rest with
      | ']' :: rest => some (.list [], rest)
      | _ => (items? fuel [] rest).map fun (ds, rest) => (.list ds, rest)
    | c :: rest =>
      if c = Char.ofNat 0x7b then
        match skipBlank rest with
        | d :: more =>
          if d = Char.ofNat 0x7d then some (.table [], more)
          else (members? fuel [] (d :: more)).map fun (es, rest) => (.table es, rest)
        | [] => none
      else
        (number? ((c :: rest).takeWhile inNumber)).map fun d => (d, (c :: rest).dropWhile inNumber)
    | [] => none

/-- The items of a list up to its closing bracket. -/
def items? : (fuel : Nat) → List Document → List Char → Option (List Document × List Char)
  | 0, _, _ => none
  | fuel + 1, done, cs => do
    let (d, rest) ← value? fuel cs
    match skipBlank rest with
    | ',' :: rest => items? fuel (d :: done) rest
    | ']' :: rest => some ((d :: done).reverse, rest)
    | _ => none

/-- The members of an object up to its closing brace. -/
def members? : (fuel : Nat) → List (String × Document) → List Char →
    Option (List (String × Document) × List Char)
  | 0, _, _ => none
  | fuel + 1, done, cs => do
    let '"' :: rest := skipBlank cs | none
    let (key, rest) ← string? (rest.length + 1) [] rest
    let ':' :: rest := skipBlank rest | none
    let (d, rest) ← value? fuel rest
    let done := alter key (fun _ => d) done
    match skipBlank rest with
    | ',' :: rest => members? fuel done rest
    | c :: rest => if c = Char.ofNat 0x7d then some (done, rest) else none
    | [] => none

end

/-- The document that a JSON text stands for. -/
def read? (s : String) : Option Document := do
  let cs := s.toList
  let (d, rest) ← value? (2 * cs.length + 2) cs
  if (skipBlank rest).isEmpty then some d else none

end ReplicatedConfig.Document.Json
