/-!
# Settings and how they are named

A store holds settings.  An `Identity` names one: a key, and perhaps a label that
keeps several variants of one key apart.  An empty label is a label; it differs from
none.  What a setting holds is opaque here, except for its `Token`, which changes
whenever the stored value does, so that comparing tokens replaces comparing values.

A `Selector` chooses settings by key and label.  A trailing star in its key pattern
stands for any rest; its label has to be met exactly, none included.
-/

namespace ReplicatedConfig

/-- The name of a setting in the store. -/
structure Identity where
  key : String
  label : Option String
  deriving DecidableEq, Inhabited

/-- An opaque mark that changes whenever the stored value changes. -/
structure Token where
  text : String
  deriving DecidableEq, Inhabited

/-- A setting as the store holds it, before any adapter has seen it. -/
structure Setting where
  key : String
  label : Option String
  value : Option String
  contentType : Option String
  token : Token
  deriving DecidableEq, Inhabited

/-- A key, with its label behind it in brackets if there is one. -/
def labelledText (key : String) : Option String → String
  | none => key
  | some label => key ++ " [" ++ label ++ "]"

namespace Setting

/-- The name under which the store holds this setting. -/
def identity (s : Setting) : Identity := ⟨s.key, s.label⟩

end Setting

namespace Identity

/-- How an identity is shown. -/
def text (i : Identity) : String := labelledText i.key i.label

/-- Whether `s` is the setting that `i` names. -/
def Matches (i : Identity) (s : Setting) : Prop := s.identity = i

instance (i : Identity) (s : Setting) : Decidable (i.Matches s) :=
  inferInstanceAs (Decidable (s.identity = i))

/-- Labels in order: none comes before every label. -/
def labelBefore : Option String → Option String → Bool
  | none, some _ => true
  | some a, some b => a < b
  | _, none => false

/-- The order of identities: by key, then by label. -/
def before (i j : Identity) : Bool :=
  i.key < j.key || (i.key == j.key && labelBefore i.label j.label)

/-- The identities in order.  Equal ones keep their places. -/
def sorted (is : List Identity) : List Identity := is.mergeSort fun i j => !(j.before i)

end Identity

/-- Chooses settings by a pattern for the key and an exact label. -/
structure Selector where
  keyPattern : String
  label : Option String
  deriving DecidableEq

namespace Selector

/-- Every setting without a label. -/
def anyKey : Selector := ⟨"*", none⟩

instance : Inhabited Selector := ⟨anyKey⟩

/-- How a selector is shown. -/
def text (s : Selector) : String := labelledText s.keyPattern s.label

/-- Whether a key meets a pattern: the pattern without its trailing star begins the
key, and a pattern without a star is the key. -/
def keyMeets (pattern key : List Char) : Bool :=
  match pattern.getLast? with
  | some '*' => pattern.dropLast.isPrefixOf key
  | _ => pattern == key

/-- Whether the selector chooses `setting`. -/
def selects (s : Selector) (setting : Setting) : Bool :=
  keyMeets s.keyPattern.toList setting.key.toList && setting.label == s.label

end Selector

/-- One page of a listing.  The continuation, if any, asks for the next one. -/
structure Page where
  items : List Setting
  continuation : Option String
  deriving DecidableEq, Inhabited

/-- What a store says when a known token is compared with the stored one. -/
inductive Verdict where
  | unchanged
  | modified
  | missing
  deriving DecidableEq, Inhabited

end ReplicatedConfig
