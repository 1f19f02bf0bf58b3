import ReplicatedConfig.Text.Composition
import ReplicatedConfig.Text.Direction
import ReplicatedConfig.Text.Folding
import ReplicatedConfig.Text.Hidden
import ReplicatedConfig.Text.Joining
import ReplicatedConfig.Text.Marks
import ReplicatedConfig.Url.Punycode

/-!
# Labels of names

The points of a name stand between its labels.  A label that is not ASCII is written as
`xn--` and its Punycode.  That is taken only where the label could not be written in any
other way: `Label.decode?` gives the label, and nothing where it could.

The direction of writing concerns all labels of a name at once: where one holds a
character that is written from the right to the left, every label keeps to one direction.
-/

namespace ReplicatedConfig.Url.Label

/-- How long the Punycode of a label may be. -/
def lengthLimit : Nat := 2000

/-- How many characters a label that is not ASCII may have. -/
def sizeLimit : Nat := 1000

/-- Signs that no name holds though they can be seen: marks of description, and what stands
for another character. -/
def isSign (c : Char) : Bool :=
  c ∈ ['\u1806', '\u3002', '\u31ef', '\ufffc', '\ufffd']
    || (0x2ff0 ≤ c.toNat && c.toNat ≤ 0x2fff)

/-- The two small letters that folding changes and that names hold all the same. -/
def isSpecialLetter (c : Char) : Bool := c ∈ ['\u00df', '\u03c2']

/-- Whether a label that is not ASCII may hold a character. -/
def isPermitted (c : Char) : Bool :=
  c.toNat < 0x80 || isSpecialLetter c || c ∈ [Text.nonJoiner, Text.joiner]
    || (!Text.changesWhenFolded c && (Text.isMark c || !Text.isHidden c) && !isSign c)

/-- Whether a label could not be written in any other way. -/
def isSettled (label : List Char) : Bool :=
  label.all isPermitted && Text.isComposed label && !label.head?.any Text.isMark
    && Text.joinersFit label && label.length ≤ sizeLimit

/-- The label that is written as `xn--` and a text behind it. -/
def international? (cs : List Char) : Option (List Char) := do
  if cs.isEmpty ∨ cs.getLast? = some '-' ∨ lengthLimit < cs.length then none
  let label ← Punycode.decode? cs
  if isSettled label then some label else none

/-- The label that a part of a name stands for. -/
def decode? : List Char → Option (List Char)
  | 'x' :: 'n' :: '-' :: '-' :: cs => international? cs
  | cs => some cs

/-- The labels of a name. -/
def split (name : List Char) : List (List Char) :=
  (String.ofList name).splitOn "." |>.map String.toList

/-- Whether the labels of a name make one. -/
def areValid (name : List Char) : Bool :=
  match (split name).mapM decode? with
  | none => false
  | some labels =>
    !labels.any (·.any Text.isLeftward) || labels.all Text.keepsDirection

end ReplicatedConfig.Url.Label
