import ReplicatedConfig.Setting
import ReplicatedConfig.Text.Quoted

/-!
# Adapters

An adapter turns a setting into the pairs of key and value that an application sees.
The first adapter that claims a setting gets it; a setting that none claims passes
through with its value, and vanishes if it has none.  Afterwards the longest of the
pipeline's stems that a key starts with is cut off the key, once.

An adapter is a function of the setting: however long it takes, the same setting gives
the same pairs each time, or is refused each time.

The stems are kept longest first and each only once, so the first one that fits is the
longest, and what a pipeline does depends only on the set of stems it was given.
-/

namespace ReplicatedConfig

/-- A key and its value as an application sees them. -/
abbrev Pair := String × String

/-- Why a setting could not be turned into pairs. -/
structure AdapterError where
  adapter : String
  key : String
  message : String
  deriving DecidableEq

/-- What the error says. -/
def AdapterError.text (e : AdapterError) : String :=
  "Adapter '" ++ e.adapter ++ "' failed on key '" ++ e.key ++ "': " ++ e.message

/-- Turns the settings it claims into pairs. -/
structure Adapter where
  name : String
  claims : Setting → Bool
  transform : Setting → Except String (List Pair)

namespace Adapter

/-- A text with its ASCII letters in lower case. -/
def lowered (s : String) : List Char := s.toList.map Char.toLower

/-- Claims the settings whose content type starts with `contentType`, in any case. -/
def claimsContentType (contentType : String) (s : Setting) : Bool :=
  s.contentType.any fun c => (lowered contentType).isPrefixOf (lowered c)

/-- The pairs of a setting, with the adapter's name in the error. -/
def run (a : Adapter) (s : Setting) : Except AdapterError (List Pair) :=
  (a.transform s).mapError fun message => ⟨a.name, s.key, message⟩

/-- An adapter for a reader of diagnostics. -/
def debugText (a : Adapter) : String :=
  "FnAdapter \x7b name: " ++ Text.quoted a.name ++ ", .. \x7d"

end Adapter

/-- Adapters in order, and what is cut off the keys they give. -/
structure Pipeline where
  adapters : List Adapter
  /-- Longest first, each only once, none of them empty. -/
  stems : List String

namespace Pipeline

/-- Passes every setting through. -/
def empty : Pipeline := ⟨[], []⟩

instance : Inhabited Pipeline := ⟨empty⟩

/-- One more adapter behind the others. -/
def withAdapter (p : Pipeline) (a : Adapter) : Pipeline := { p with adapters := p.adapters ++ [a] }

/-- Whether stem `a` may stand before stem `b`: it is longer in bytes, or as long and
not behind it in the order of texts. -/
def stemBefore (a b : String) : Bool :=
  b.utf8ByteSize < a.utf8ByteSize || (a.utf8ByteSize == b.utf8ByteSize && !decide (b < a))

/-- A list without the items that equal the one right before them. -/
def dropRepeats : List String → List String
  | [] => []
  | [a] => [a]
  | a :: b :: rest => if a = b then dropRepeats (b :: rest) else a :: dropRepeats (b :: rest)

/-- More stems to cut off.  The empty stem cuts nothing off and is left out. -/
def withStems (p : Pipeline) (more : List String) : Pipeline :=
  { p with stems := dropRepeats ((p.stems ++ more.filter (· ≠ "")).mergeSort stemBefore) }

/-- A key without the first of the stems that it starts with. -/
def cut (stems : List String) (key : String) : String :=
  match stems.find? fun stem => stem.toList.isPrefixOf key.toList with
  | some stem => String.ofList (key.toList.drop stem.toList.length)
  | none => key

/-- A setting as it is: its key and its value, if it has one. -/
def passThrough (s : Setting) : List Pair :=
  match s.value with
  | some value => [(s.key, value)]
  | none => []

/-- The pairs of a setting before anything is cut off their keys. -/
def claimed (p : Pipeline) (s : Setting) : Except AdapterError (List Pair) :=
  match p.adapters.find? (·.claims s) with
  | some a => a.run s
  | none => .ok (passThrough s)

/-- The pairs of a setting. -/
def process (p : Pipeline) (s : Setting) : Except AdapterError (List Pair) :=
  (p.claimed s).map fun pairs => pairs.map fun (key, value) => (cut p.stems key, value)

/-- A pipeline for a reader of diagnostics. -/
def debugText (p : Pipeline) : String :=
  "AdapterPipeline \x7b adapters: " ++ Text.quotedList (p.adapters.map (·.name))
    ++ ", trim_prefixes: " ++ Text.quotedList p.stems ++ " \x7d"

end Pipeline

end ReplicatedConfig
