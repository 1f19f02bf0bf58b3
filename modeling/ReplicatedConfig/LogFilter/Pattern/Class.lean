import ReplicatedConfig.LogFilter.Pattern.Flags

/-!
# Escapes and classes of characters

A backslash makes a sign literal, gives a character by its number, or stands for a kind
of characters or a place in the text.  A class in brackets lists characters, ranges of
them, kinds of characters and the named ASCII classes, may hold other classes, and may
be combined with what follows by an operator.

What a kind of characters holds among all scripts is not known here, nor what a word is.
Only while a pattern is about bytes do they mean something, and then about ASCII alone.
In such a pattern nothing may match a byte that is not ASCII: the bytes of a longer
character do not stand for themselves.  So no class of bytes is negated.

## Height

Classes, like groups, may be nested only so deep.  A reader of one returns its *height*:
one more than the greatest height inside.  Several members side by side, and an operator
with its two sides, count as one level of their own.
-/

namespace ReplicatedConfig.LogFilter.Pattern

/-- The greatest of some heights. -/
def tallest (heights : List Nat) : Nat := heights.foldr max 0

/-- The height of parts that stand side by side. -/
def sideBySide : List Nat → Nat
  | [] => 0
  | [height] => height
  | heights => tallest heights + 1

/-- What an escape stands for. -/
inductive Escape where
  /-- A character; `isByte` says that it was given as one byte. -/
  | literal (code : Nat) (isByte : Bool)
  /-- The digits, the blanks or the parts of words, or everything else. -/
  | kind (negated : Bool)
  /-- The start or the end of the text. -/
  | textEdge
  /-- The start or the end of a word, or a place that is neither. -/
  | wordEdge
  deriving DecidableEq

/-- The number of a hexadecimal digit. -/
def hexValue? (c : Char) : Option Nat :=
  if c.isDigit then some (c.toNat - 48)
  else if 'a' ≤ c.toLower ∧ c.toLower ≤ 'f' then some (c.toLower.toNat - 87)
  else none

/-- A number of `count` hexadecimal digits, behind those that make `n`. -/
def hexNumber? (f : Flags) : (count n : Nat) → List Char → Option (Nat × List Char)
  | 0, n, cs => some (n, cs)
  | count + 1, n, cs =>
    match f.skip cs with
    | [] => none
    | c :: rest => do hexNumber? f count (16 * n + (← hexValue? c)) rest

/-- A character given by its number. -/
def byNumber? (f : Flags) (count : Nat) (cs : List Char) : Option (Escape × List Char) := do
  let (n, rest) ← hexNumber? f count 0 cs
  if n.isValidChar then some (.literal n (count == 2), rest) else none

/-- The escape behind a backslash. -/
def escape? (f : Flags) : List Char → Option (Escape × List Char)
  | [] => none
  | 'x' :: cs => byNumber? f 2 cs
  | 'u' :: cs => byNumber? f 4 cs
  | 'U' :: cs => byNumber? f 8 cs
  | 'a' :: cs => some (.literal 7 false, cs)
  | 't' :: cs => some (.literal 9 false, cs)
  | 'n' :: cs => some (.literal 10 false, cs)
  | 'v' :: cs => some (.literal 11 false, cs)
  | 'f' :: cs => some (.literal 12 false, cs)
  | 'r' :: cs => some (.literal 13 false, cs)
  | 'A' :: cs | 'z' :: cs => some (.textEdge, cs)
  | 'b' :: cs | 'B' :: cs | '<' :: cs | '>' :: cs => some (.wordEdge, cs)
  | 'd' :: cs | 's' :: cs | 'w' :: cs => some (.kind false, cs)
  | 'D' :: cs | 'S' :: cs | 'W' :: cs => some (.kind true, cs)
  | c :: cs =>
    if c.toNat < 0x80 ∧ !c.isAlphanum then some (.literal c.toNat false, cs) else none

/-- Whether an escape may stand outside of classes. -/
def Escape.isPart (f : Flags) : Escape → Bool
  | .literal code isByte => f.takesLiterals && (f.unicode || !isByte || code < 0x80)
  | .kind negated => !f.unicode && !negated
  | .textEdge => true
  | .wordEdge => !f.unicode

/-- Whether an escape, or a plain character, may stand in a class. -/
def Escape.isMember (f : Flags) : Escape → Bool
  | .literal code _ => f.takesLiterals && (f.unicode || code < 0x80)
  | .kind negated => !f.unicode && !negated
  | .textEdge | .wordEdge => false

/-- One member of a class, plain or escaped. -/
def member? (f : Flags) : List Char → Option (Escape × List Char)
  | [] => none
  | c :: cs => do
    let (e, rest) ← if c = '\\' then escape? f cs else some (.literal c.toNat false, cs)
    if e.isMember f then some (e, rest) else none

/-- What follows a member of a class, or a range of characters that does not run
backwards.  A dash before another dash or the closing bracket makes no range. -/
def span? (f : Flags) (cs : List Char) : Option (List Char) := do
  let (first, rest) ← member? f cs
  match f.skip rest with
  | '-' :: more =>
    if f.peek more = some ']' ∨ f.peek more = some '-' then some ('-' :: more)
    else
      match first, ← member? f (f.skip more) with
      | .literal a _, (.literal b _, rest) => if a ≤ b then some rest else none
      | _, _ => none
  | rest => some rest

/-- The ASCII classes that have a name. -/
def classNames : List String :=
  ["alnum", "alpha", "ascii", "blank", "cntrl", "digit", "graph", "lower", "print", "punct",
    "space", "upper", "word", "xdigit"]

/-- Whether a named class behind its opening bracket is negated, and what follows it. -/
def named? : List Char → Option (Bool × List Char)
  | ':' :: cs =>
    let negated := cs.head? = some '^'
    let cs := if negated then cs.drop 1 else cs
    let name := cs.takeWhile (· != ':')
    match cs.drop name.length with
    | ':' :: ']' :: rest =>
      if String.ofList name ∈ classNames then some (negated, rest) else none
    | _ => none
  | _ => none

/-- A class while it is read: the height of what stands before its last operator, and the
heights of the members since. -/
structure Bracket where
  before : Option Nat
  members : List Nat

namespace Bracket

/-- The height of what stands in the brackets so far. -/
def height (b : Bracket) : Nat :=
  match b.before with
  | none => sideBySide b.members
  | some left => max left (sideBySide b.members) + 1

/-- One more member. -/
def add (b : Bracket) (height : Nat) : Bracket := { b with members := height :: b.members }

/-- Everything so far before an operator. -/
def combine (b : Bracket) : Bracket := ⟨some b.height, []⟩

end Bracket

/-- What follows the dashes at the start of a class, and how many there are. -/
def dashes (f : Flags) : (fuel : Nat) → List Char → Nat × List Char
  | 0, cs => (0, cs)
  | fuel + 1, '-' :: cs => let (n, rest) := dashes f fuel (f.skip cs); (n + 1, rest)
  | _ + 1, cs => (0, cs)

/-- The start of a class behind its opening bracket.  Any number of dashes mean
themselves there, or else a closing bracket does. -/
def classOpening? (f : Flags) (cs : List Char) : Option (Bracket × List Char) := do
  let cs := f.skip cs
  let negated := cs.head? = some '^'
  if negated ∧ !f.unicode then none
  let (n, rest) := dashes f cs.length (if negated then f.skip (cs.drop 1) else cs)
  let (n, rest) := match n, rest with
    | 0, ']' :: rest => (1, rest)
    | n, rest => (n, rest)
  if 0 < n ∧ !f.takesLiterals then none else some (⟨none, List.replicate n 0⟩, rest)

/-- The height of a class and what follows it; `outer` are the classes around it. -/
def class? (f : Flags) : (fuel : Nat) → (outer : List Bracket) → Bracket → List Char →
    Option (Nat × List Char)
  | 0, _, _, _ => none
  | fuel + 1, outer, b, cs =>
    match f.skip cs with
    | [] => none
    | ']' :: rest =>
      match outer with
      | [] => some (b.height + 1, rest)
      | o :: outer => class? f fuel outer (o.add (b.height + 1)) rest
    | '[' :: rest =>
      match named? rest with
      | some (negated, rest) =>
        if f.takesLiterals ∧ (f.unicode ∨ !negated) then class? f fuel outer (b.add 0) rest else none
      | none => do
        let (inner, rest) ← classOpening? f rest
        class? f fuel (b :: outer) inner rest
    | '&' :: '&' :: rest => class? f fuel outer b.combine rest
    | '-' :: '-' :: rest => class? f fuel outer b.combine rest
    | '~' :: '~' :: rest => class? f fuel outer b.combine rest
    | rest => do class? f fuel outer (b.add 0) (← span? f rest)

end ReplicatedConfig.LogFilter.Pattern
