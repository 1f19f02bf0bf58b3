import ReplicatedConfig.Url.Percent

/-!
# Numeric hosts

A host may be written as a number.  An address of 32 bits is one to four numbers
between points, each decimal, octal after a leading zero, or hexadecimal after `0x`;
the last of them fills all the bytes that the others leave.  An address of 128 bits is
eight groups of hexadecimal digits between colons, where one run of groups may be left
out and the last two groups may be an address of 32 bits.

## How addresses are shown

Four decimal numbers; or eight groups without leading zeros, in which the longest run
of two or more zero groups is left out, the first one where several are longest.
-/

namespace ReplicatedConfig.Url

/-- The pieces of a text between the characters that `sep` picks out. -/
def splitAll (sep : Char → Bool) : List Char → List (List Char)
  | [] => [[]]
  | c :: cs =>
    if sep c then [] :: splitAll sep cs
    else match splitAll sep cs with
      | [] => [[c]]
      | piece :: pieces => (c :: piece) :: pieces

namespace Address

/-- A number read in base `base`; nothing where a character is no digit of it. -/
def number? (base : Nat) (cs : List Char) : Option Nat :=
  cs.foldlM (fun n c => do
    let d ← Percent.digitValue? c
    if d < base then some (base * n + d) else none) 0

/-- The value of one number of a 32-bit address, of any size. -/
def part? : List Char → Option Nat
  | [] => none
  | '0' :: 'x' :: ds => number? 16 ds
  | '0' :: 'X' :: ds => number? 16 ds
  | '0' :: d :: ds => number? 8 (d :: ds)
  | ds => number? 10 ds

/-- The numbers between the points; a point at the end adds none. -/
def parts (cs : List Char) : List (List Char) :=
  match (splitAll (· == '.') cs).reverse with
  | [] :: rest => rest.reverse
  | pieces => pieces.reverse

/-- Whether a host ends in a number and so has to be a 32-bit address. -/
def endsInNumber (cs : List Char) : Bool :=
  match (splitAll (· == '.') cs).reverse with
  | [] :: last :: _ => isNumber last
  | [] :: [] => false
  | last :: _ => isNumber last
  | [] => false
where
  isNumber (ds : List Char) : Bool :=
    (!ds.isEmpty && ds.all Char.isDigit) || (part? ds).isSome

/-- The 32-bit address that a text stands for. -/
def v4? (cs : List Char) : Option Nat := do
  let ns ← (parts cs).mapM part?
  if ns.length > 4 then none
  let last ← ns.getLast?
  let leading := ns.dropLast
  if leading.any (255 < ·) ∨ Nat.pow 256 (4 - leading.length) ≤ last then none
  some (leading.zipIdx.foldl (fun sum (n, i) => sum + n * Nat.pow 256 (3 - i)) last)

/-- The four decimal numbers of a 32-bit address. -/
def v4Text (n : Nat) : String :=
  ".".intercalate ([3, 2, 1, 0].map fun i => toString (n / Nat.pow 256 i % 256))

/-- A decimal number up to 255 without leading zeros. -/
def octet? (ds : List Char) : Option Nat :=
  match ds with
  | [] => none
  | ['0'] => some 0
  | '0' :: _ => none
  | _ => (number? 10 ds).bind fun n => if n ≤ 255 then some n else none

/-- The two groups of a 32-bit address at the end of a longer one. -/
def embedded? (cs : List Char) : Option (List Nat) :=
  match (splitAll (· == '.') cs).mapM octet? with
  | some [a, b, c, d] => some [256 * a + b, 256 * c + d]
  | _ => none

/-- The groups read so far and where a run was left out.  A run stands for at least
one group, which is why leaving one out adds a zero. -/
structure Groups where
  values : List Nat
  gap : Option Nat

/-- Leaves a run of groups out here; only one may be. -/
def Groups.skip (g : Groups) : Option Groups :=
  match g.gap with
  | some _ => none
  | none => some ⟨g.values ++ [0], some (g.values.length + 1)⟩

/-- How many of the first four characters are the digits of a group. -/
def groupLength (cs : List Char) : Nat :=
  ((cs.take 4).takeWhile fun c => (Percent.digitValue? c).isSome).length

/-- One more group. -/
def Groups.push (g : Groups) (v : Nat) : Groups := { g with values := g.values ++ [v] }

/-- Reads groups until the text ends. -/
def readGroups (cs : List Char) (g : Groups) : Option Groups :=
  match cs with
  | [] => some g
  | c :: rest =>
    if 8 ≤ g.values.length then none
    else if c = ':' then g.skip.bind (readGroups rest)
    else match _h : (c :: rest).drop (groupLength (c :: rest)), number? 16 ((c :: rest).take (groupLength (c :: rest))) with
      | [], some v => some (g.push v)
      | ':' :: d :: more, some v =>
        if groupLength (c :: rest) = 0 then none else readGroups (d :: more) (g.push v)
      | '.' :: _, _ =>
        if groupLength (c :: rest) = 0 ∨ 6 < g.values.length then none
        else (embedded? (c :: rest)).map fun vs => { g with values := g.values ++ vs }
      | _, _ => none
termination_by cs.length
decreasing_by
  · simp
  · have h := congrArg List.length _h
    simp only [List.length_drop, List.length_cons] at h ⊢
    omega

/-- All eight groups, with zeros where a run was left out. -/
def Groups.expand (g : Groups) : Option (List Nat) :=
  match g.gap with
  | some i =>
    some (g.values.take i ++ List.replicate (8 - g.values.length) 0 ++ g.values.drop i)
  | none => if g.values.length = 8 then some g.values else none

/-- The eight groups of a 128-bit address. -/
def v6? (cs : List Char) : Option (List Nat) :=
  match cs with
  | [] | [_] => none
  | ':' :: ':' :: rest => (readGroups rest ⟨[0], some 1⟩).bind Groups.expand
  | ':' :: _ => none
  | _ => (readGroups cs ⟨[], none⟩).bind Groups.expand

/-- How many zero groups stand at the head. -/
def zeroRun (gs : List Nat) : Nat := (gs.takeWhile (· == 0)).length

/-- Where the longest run of zero groups starts and how long it is. -/
def longestZeroRun (gs : List Nat) : Nat × Nat :=
  (List.range gs.length).foldl (fun best i =>
    let n := zeroRun (gs.drop i)
    if best.2 < n then (i, n) else best) (0, 0)

/-- Groups between colons. -/
def groupsText (gs : List Nat) : String :=
  ":".intercalate (gs.map fun g => String.ofList (Nat.toDigits 16 g))

/-- How a 128-bit address is shown. -/
def v6Text (gs : List Nat) : String :=
  let (i, n) := longestZeroRun gs
  if n < 2 then groupsText gs
  else groupsText (gs.take i) ++ "::" ++ groupsText (gs.drop (i + n))

end Address

end ReplicatedConfig.Url
