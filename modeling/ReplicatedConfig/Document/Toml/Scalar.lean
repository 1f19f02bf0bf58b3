import ReplicatedConfig.Decimal.Reader
import ReplicatedConfig.Document

/-!
# The words of TOML

A value that is neither quoted nor bracketed is one word: a truth value, a whole number
of 64 bits in one of four bases, a number with a fraction or exponent, or a date with or
without a time of day.  Underlines may stand between digits.  Dates and times are kept
as text in their usual form.
-/

namespace ReplicatedConfig.Document.Toml

/-- Digits without the underlines between them; nothing where an underline does not
stand between two digits. -/
def plainDigits? (isDigit : Char → Bool) (cs : List Char) : Option (List Char) :=
  go false cs
where
  /-- `after` says whether a digit has just been read. -/
  go : Bool → List Char → Option (List Char)
    | after, [] => if after then some [] else none
    | after, '_' :: rest => if after then go false rest else none
    | _, c :: rest => if isDigit c then (go true rest).map (c :: ·) else none

/-- The value of a digit in some base up to sixteen. -/
def digitValue (c : Char) : Nat :=
  if c.isDigit then c.toNat - 48 else c.toLower.toNat - 87

/-- The number that digits stand for in a base. -/
def inBase (base : Nat) (cs : List Char) : Nat :=
  cs.foldl (fun n c => base * n + digitValue c) 0

/-- Whether a character is a digit in base `base`. -/
def isDigitIn (base : Nat) (c : Char) : Bool :=
  (c.isDigit || ('a' ≤ c.toLower && c.toLower ≤ 'f')) && digitValue c < base

/-- A whole number of 64 bits, signed. -/
def int64? (n : Int) : Option Document :=
  if Int64.minValue.toInt ≤ n ∧ n ≤ Int64.maxValue.toInt then some (.int n) else none

/-- The sign at the head of a word: whether there is one, whether it is a minus, and
the rest. -/
def signOf : List Char → Bool × Bool × List Char
  | '-' :: rest => (true, true, rest)
  | '+' :: rest => (true, false, rest)
  | rest => (false, false, rest)

/-- Whether digits have a zero that stands before others. -/
def hasLeadingZero (cs : List Char) : Bool := cs.head? == some '0' && cs.length != 1

/-- A whole number. -/
def integer? (word : List Char) : Option Document := do
  let (signed, negative, body) := signOf word
  let based (base : Nat) (ds : List Char) : Option Document := do
    if signed then none else int64? (inBase base (← plainDigits? (isDigitIn base) ds))
  match body with
  | '0' :: 'x' :: ds => based 16 ds
  | '0' :: 'o' :: ds => based 8 ds
  | '0' :: 'b' :: ds => based 2 ds
  | ds =>
    let ds ← plainDigits? Char.isDigit ds
    if hasLeadingZero ds then none
    else
      let n : Int := inBase 10 ds
      int64? (if negative then -n else n)

/-- A number with a fraction or an exponent, or one of the words for infinity and for
no number.  Digits do not stand for infinity. -/
def float? (word : List Char) : Option Document := do
  let (_, negative, body) := signOf word
  let signed (x : Float) : Document := .float (if negative then -x else x)
  if body = ['i', 'n', 'f'] then return signed (1.0 / 0.0)
  if body = ['n', 'a', 'n'] then return signed (0.0 / 0.0)
  let isPart (c : Char) : Bool := c.isDigit || c == '_'
  let whole ← plainDigits? Char.isDigit (body.takeWhile isPart)
  if hasLeadingZero whole then none
  let rest := body.dropWhile isPart
  let (fraction, rest) ← match rest with
    | '.' :: more => do pure (← plainDigits? Char.isDigit (more.takeWhile isPart), more.dropWhile isPart)
    | _ => pure ([], rest)
  if fraction.isEmpty ∧ rest.isEmpty then none
  let rest ← match rest with
    | [] => pure []
    | e :: more =>
      let (signed, negative, ds) := signOf more
      let ds ← plainDigits? Char.isDigit ds
      pure (e :: (if signed then [if negative then '-' else '+'] else []) ++ ds)
  let point := if fraction.isEmpty then [] else '.' :: fraction
  let x ← Decimal.unsigned? (whole ++ point ++ rest)
  if x.isInf then none else some (signed x)

/-- Two digits that stand for a number up to `most`. -/
def twoDigits? (least most : Nat) : List Char → Option (List Char × List Char)
  | a :: b :: rest =>
    if a.isDigit ∧ b.isDigit ∧ least ≤ inBase 10 [a, b] ∧ inBase 10 [a, b] ≤ most then some ([a, b], rest)
    else none
  | _ => none

/-- One given character. -/
def exactly? (c : Char) : List Char → Option (List Char)
  | d :: rest => if d = c then some rest else none
  | [] => none

/-- How many days a month has. -/
def daysIn (year month : Nat) : Nat :=
  if month = 2 then (if year % 4 = 0 ∧ (year % 100 ≠ 0 ∨ year % 400 = 0) then 29 else 28)
  else if month ∈ [4, 6, 9, 11] then 30 else 31

/-- A date at the head of a text. -/
def date? (cs : List Char) : Option (List Char × List Char) := do
  let year := cs.take 4
  if year.length ≠ 4 ∨ !year.all Char.isDigit then none
  let rest ← exactly? '-' (cs.drop 4)
  let (month, rest) ← twoDigits? 1 12 rest
  let rest ← exactly? '-' rest
  let (day, rest) ← twoDigits? 1 (daysIn (inBase 10 year) (inBase 10 month)) rest
  some (year ++ '-' :: month ++ '-' :: day, rest)

/-- The fraction of a second in its shortest form: up to nine digits, and of the zeros at
the end none but a lone one. -/
def shortFraction (ds : List Char) : List Char :=
  match (ds.take 9).reverse.dropWhile (· == '0') with
  | [] => ['0']
  | kept => kept.reverse

/-- The seconds of a time of day, behind their colon, with or without a fraction. -/
def seconds? (cs : List Char) : Option (List Char × List Char) := do
  let (second, rest) ← twoDigits? 0 60 cs
  match rest with
  | '.' :: more =>
    let ds := more.takeWhile Char.isDigit
    if ds.isEmpty then none else some (second ++ '.' :: shortFraction ds, more.dropWhile Char.isDigit)
  | _ => some (second, rest)

/-- A time of day at the head of a text, with or without seconds. -/
def time? (cs : List Char) : Option (List Char × List Char) := do
  let (hour, rest) ← twoDigits? 0 23 cs
  let rest ← exactly? ':' rest
  let (minute, rest) ← twoDigits? 0 59 rest
  match rest with
  | ':' :: more =>
    let (seconds, rest) ← seconds? more
    some (hour ++ ':' :: minute ++ ':' :: seconds, rest)
  | _ => some (hour ++ ':' :: minute, rest)

/-- The offset behind a time of day.  No offset at all is a positive one. -/
def offset? : List Char → Option (List Char)
  | [] => some []
  | ['Z'] | ['z'] => some ['Z']
  | c :: rest => do
    if c ≠ '+' ∧ c ≠ '-' then none
    let (hour, rest) ← twoDigits? 0 23 rest
    let rest ← exactly? ':' rest
    let (minute, rest) ← twoDigits? 0 59 rest
    let sign := if (hour ++ minute).all (· == '0') then '+' else c
    if rest.isEmpty then some (sign :: hour ++ ':' :: minute) else none

/-- A date, a time of day, or both. -/
def moment? (word : List Char) : Option Document := do
  let whole (cs : List Char) : Document := .string (String.ofList cs)
  match date? word with
  | some (date, []) => some (whole date)
  | some (date, c :: rest) =>
    if c ∉ ['T', 't', ' '] then none
    let (time, rest) ← time? rest
    some (whole (date ++ 'T' :: time ++ (← offset? rest)))
  | none =>
    let (time, rest) ← time? word
    if rest.isEmpty then some (whole time) else none

/-- What a word stands for. -/
def word? (cs : List Char) : Option Document :=
  if cs = ['t', 'r', 'u', 'e'] then some (.bool true)
  else if cs = ['f', 'a', 'l', 's', 'e'] then some (.bool false)
  else (integer? cs).orElse fun _ => (float? cs).orElse fun _ => moment? cs

end ReplicatedConfig.Document.Toml
