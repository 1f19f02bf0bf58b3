import ReplicatedConfig.LogFilter.Pattern.Class
import ReplicatedConfig.Text.Alphanumeric

/-!
# Patterns for the values of fields

A directive may ask for a field whose value matches a regular expression.  Nothing here
ever looks at such a value, so all that matters of a pattern is whether it is one:
`Pattern.isValid`.

## What a pattern is made of

Groups, with or without a name or flags; classes of characters in brackets; escapes; and
the repetitions `*`, `+` and `?`, each behind something that can be repeated.  A
repetition with a count is none here: its closing brace would end the field.  The flags
that a group changes, or that stand alone in brackets, hold up to the end of a group, and
the names of groups differ.

Readers take the characters and return what they have not read.  Each takes at least
one character at a time, so the length of the text is fuel enough.  Beside the text they
keep heights: groups, repetitions and classes may not be nested deeper than
`nestingLimit`, and neither may rows of parts and choices between them, which count as
levels of their own.
-/

namespace ReplicatedConfig.LogFilter.Pattern

/-- How deep the parts of a pattern may be nested. -/
def nestingLimit : Nat := 250

/-- Whether a group can have this name: letters, numbers and a few signs, with a letter at
the start. -/
def isGroupName : List Char → Bool
  | [] => false
  | c :: cs =>
    (Text.isAlphabetic c || c == '_')
      && cs.all fun c => Text.isAlphanumeric c || c ∈ ['_', '.', '[', ']']

/-- What an opening bracket brings. -/
inductive Opening where
  /-- A group with a name or without one, and the flags inside it. -/
  | group (name : Option String) (flags : Flags)
  /-- Flags for the rest of the group around the bracket. -/
  | flags (flags : Flags)

/-- What stands behind an opening bracket, and what follows it. -/
def opening? (f : Flags) (cs : List Char) : Option (Opening × List Char) :=
  match f.skip cs with
  | '?' :: 'P' :: '<' :: rest => name? rest
  | '?' :: '<' :: rest => name? rest
  | '?' :: rest => do
    let change := rest.takeWhile fun c => c != ':' && c != ')'
    let changed ← f.change? change
    match rest.drop change.length with
    | ':' :: rest => some (.group none changed, rest)
    | ')' :: rest => if change.isEmpty then none else some (.flags changed, rest)
    | _ => none
  | rest => some (.group none f, rest)
where
  /-- A name and the bracket that ends it. -/
  name? (cs : List Char) : Option (Opening × List Char) :=
    let name := cs.takeWhile (· != '>')
    match cs.drop name.length with
    | _ :: rest =>
      if isGroupName name then some (.group (some (String.ofList name)) f, rest) else none
    | [] => none

/-- A part of a row: its height, and whether it can be repeated. -/
structure Part where
  height : Nat
  repeatable : Bool

/-- A group while it is read, or the whole pattern: the flags that hold, the row of parts
that is read, the last one first, and the heights of the rows before it. -/
structure Group where
  flags : Flags
  row : List Part
  branches : List Nat

namespace Group

/-- The height of the row that is read. -/
def rowHeight (g : Group) : Nat := sideBySide (g.row.map Part.height)

/-- The height of everything in the group so far. -/
def height (g : Group) : Nat := sideBySide (g.rowHeight :: g.branches)

/-- One more part in the row. -/
def add (g : Group) (height : Nat) : Group := { g with row := ⟨height, true⟩ :: g.row }

/-- A new row beside the others. -/
def branch (g : Group) : Group := { g with row := [], branches := g.rowHeight :: g.branches }

/-- The last part repeated. -/
def repeat? (g : Group) : Option Group :=
  match g.row with
  | part :: row => if part.repeatable then some ({ g with row }.add (part.height + 1)) else none
  | [] => none

/-- Other flags from here on.  They stand in the row, but cannot be repeated. -/
def setFlags (g : Group) (flags : Flags) : Group :=
  { g with flags, row := ⟨0, false⟩ :: g.row }

end Group

/-- The height of a pattern: `g` is the group that the text goes on in, `outer` are the
groups around it, and `names` are taken. -/
def height? : (fuel : Nat) → (names : List String) → (outer : List Group) → Group → List Char →
    Option Nat
  | 0, _, _, _, _ => none
  | fuel + 1, names, outer, g, cs =>
    match g.flags.skip cs with
    | [] => if outer.isEmpty then some g.height else none
    | '(' :: rest => do
      match ← opening? g.flags rest with
      | (.flags flags, rest) => height? fuel names outer (g.setFlags flags) rest
      | (.group name flags, rest) =>
        if name.any (· ∈ names) then none
        else height? fuel (name.toList ++ names) (g :: outer) ⟨flags, [], []⟩ rest
    | ')' :: rest =>
      match outer with
      | [] => none
      | o :: outer => height? fuel names outer (o.add (g.height + 1)) rest
    | '|' :: rest => height? fuel names outer g.branch rest
    | '[' :: rest => do
      let (b, rest) ← classOpening? g.flags rest
      let (height, rest) ← class? g.flags (rest.length + 1) [] b rest
      height? fuel names outer (g.add height) rest
    | '\\' :: rest => do
      let (e, rest) ← escape? g.flags rest
      if e.isPart g.flags then height? fuel names outer (g.add 0) rest else none
    | c :: rest =>
      if c ∈ ['*', '+', '?'] then do
        height? fuel names outer (← g.repeat?) (if rest.head? = some '?' then rest.drop 1 else rest)
      else if c ∈ ['^', '$'] ∨ (c = '.' ∧ g.flags.unicode)
          ∨ (c ∉ ['.', Char.ofNat 0x7b] ∧ g.flags.takesLiterals) then
        height? fuel names outer (g.add 0) rest
      else none

/-- Whether a text is a pattern. -/
def isValid (s : String) : Bool :=
  let cs := s.toList
  (height? (cs.length + 1) [] [] ⟨.initial, [], []⟩ cs).any (· ≤ nestingLimit)

end ReplicatedConfig.LogFilter.Pattern
