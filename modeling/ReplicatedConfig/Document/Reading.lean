import ReplicatedConfig.Decimal.Places
import ReplicatedConfig.Decimal.Reader
import ReplicatedConfig.Document

/-!
# Giving a document a meaning

A record is read out of a table, by key, or out of a list, by position: the items of a
list stand for the fields in the order in which the record declares them.  A field that
has a default may be left out, and a key that names no field is passed over.

How a scalar is taken differs by where the document comes from.  A `Reading` says how.
`Reading.exact` takes every scalar as what it is.  `Reading.lenient` is for layers that
can only hold text, such as environment variables, and turns scalars into one another
as far as that can be done without guessing.
-/

namespace ReplicatedConfig.Document

/-- How the scalars of a document are taken. -/
structure Reading where
  uint? : Document → Option UInt64
  float? : Document → Option Float
  bool? : Document → Option Bool
  string? : Document → Option String
  /-- Whether a list may hold more items than the record has fields. -/
  surplus : Bool

/-- A whole number of 64 bits. -/
def uintOfInt? (n : Int) : Option UInt64 :=
  if 0 ≤ n ∧ n < UInt64.size then some (UInt64.ofNat n.toNat) else none

/-- The words for yes. -/
def yesWords : List String := ["true", "on", "yes"]

/-- The words for no. -/
def noWords : List String := ["false", "off", "no"]

namespace Reading

/-- Every scalar is what it is; only a whole number may stand for one with a fraction. -/
def exact : Reading where
  uint?
    | .int n => uintOfInt? n
    | _ => none
  float?
    | .int n => some (Float.ofInt n)
    | .float x => some x
    | _ => none
  bool?
    | .bool b => some b
    | _ => none
  string?
    | .string s => some s
    | _ => none
  surplus := false

/-- Scalars are turned into one another.  A number with a fraction is rounded to a whole
one, a half away from zero, and held to the range; text is read as a number or as one
of the words for yes and no, in any case. -/
def lenient : Reading where
  uint?
    | .int n => uintOfInt? n
    | .float x => some x.round.toUInt64
    | .bool b => some (if b then 1 else 0)
    | .string s =>
      if s.toLower ∈ yesWords then some 1
      else if s.toLower ∈ noWords then some 0
      else Decimal.uint64? s
    | _ => none
  float?
    | .int n => some (Float.ofInt n)
    | .float x => some x
    | .bool b => some (if b then 1.0 else 0.0)
    | .string s =>
      if s.toLower ∈ yesWords then some 1.0
      else if s.toLower ∈ noWords then some 0.0
      else Decimal.float? s
    | _ => none
  bool?
    | .int n => some (n != 0)
    | .float x => some (x != 0.0)
    | .bool b => some b
    | .string s =>
      if s.toLower ∈ "1" :: yesWords then some true
      else if s.toLower ∈ "0" :: noWords then some false
      else none
    | _ => none
  string?
    | .int n => some (toString n)
    | .float x => some (Decimal.shortestText x)
    | .bool b => some (if b then "true" else "false")
    | .string s => some s
    | _ => none
  surplus := true

/-- Text that may be left open. -/
def label? (r : Reading) : Document → Option (Option String)
  | .null => some none
  | d => (r.string? d).map some

/-- The items of a list, each read. -/
def list? {α : Type} (read : Document → Option α) (d : Document) : Option (List α) :=
  d.items?.bind (List.mapM read)

/-- The fields of a record, by name.  `names` are its fields in order. -/
def fields? (r : Reading) (names : List String) : Document → Option (List (String × Document))
  | .table es => some es
  | .list ds => if ds.length ≤ names.length ∨ r.surplus then some (names.zip ds) else none
  | _ => none

end Reading

/-- A field that has to be there. -/
def required? {α : Type} (fields : List (String × Document)) (name : String)
    (read : Document → Option α) : Option α :=
  (fields.lookup name).bind read

/-- A field that may be left out. -/
def field? {α : Type} (fields : List (String × Document)) (name : String) (default : α)
    (read : Document → Option α) : Option α :=
  match fields.lookup name with
  | none => some default
  | some d => read d

end ReplicatedConfig.Document
