import ReplicatedConfig.Text.Blank

/-!
# The flags of a pattern

A pattern may switch flags on and off, for the rest of a group or for a group of its own.
Three of the seven flags decide what a pattern may hold, and `Flags` keeps these.  The
others only say what lines are, what a point matches, and which match is taken first.

## Blanks in a pattern

With the flag for spaced patterns on, blanks and comments between the parts of a pattern
mean nothing.  A comment runs from a number sign to the end of its line.
-/

namespace ReplicatedConfig.LogFilter.Pattern

/-- The text behind blanks and comments; `inComment` says that the text starts in one. -/
def skipSpace (inComment : Bool) : List Char → List Char
  | [] => []
  | c :: cs =>
    if inComment then skipSpace (c != '\n') cs
    else if Text.isBlank c then skipSpace false cs
    else if c = '#' then skipSpace true cs
    else c :: cs

/-- The flags that decide what a pattern may hold. -/
structure Flags where
  /-- Letters are taken in either case. -/
  anyCase : Bool
  /-- A pattern is about characters of all scripts, and otherwise about bytes. -/
  unicode : Bool
  /-- Blanks and comments mean nothing. -/
  spaced : Bool
  deriving DecidableEq

namespace Flags

/-- The flags that a pattern starts with. -/
def initial : Flags := ⟨false, true, false⟩

/-- The text behind what means nothing. -/
def skip (f : Flags) (cs : List Char) : List Char :=
  if f.spaced then skipSpace false cs else cs

/-- The character that stands next behind a dash.  Blanks are passed over where they mean
nothing, and so is the sign of a comment, but not the comment. -/
def peek (f : Flags) (cs : List Char) : Option Char :=
  if f.spaced then
    let next := match cs.dropWhile Text.isBlank with
      | '#' :: rest => (rest.dropWhile Text.isBlank).head?
      | rest => rest.head?
    next.or cs.head?
  else cs.head?

/-- One flag switched on or off; nothing where the letter is no flag. -/
def switch? (f : Flags) (on : Bool) : Char → Option Flags
  | 'i' => some { f with anyCase := on }
  | 'u' => some { f with unicode := on }
  | 'x' => some { f with spaced := on }
  | 'm' | 's' | 'U' | 'R' => some f
  | _ => none

/-- The flags after some are switched on and, behind a dash, some off.  No flag stands
twice, and a dash stands before something. -/
def change? (f : Flags) (cs : List Char) : Option Flags := do
  let on := cs.takeWhile (· != '-')
  let off := cs.drop (on.length + 1)
  if !(on ++ off).Nodup ∨ (on.length ≠ cs.length ∧ off.isEmpty) then none
  off.foldlM (switch? · false) (← on.foldlM (switch? · true) f)

/-- Whether a character may be taken literally.  For letters of all scripts it is not
known which are the two cases of one letter. -/
def takesLiterals (f : Flags) : Bool := !(f.unicode && f.anyCase)

end Flags

end ReplicatedConfig.LogFilter.Pattern
