import ReplicatedConfig.Config
import ReplicatedConfig.Decimal.Reader
import ReplicatedConfig.Document.Toml

/-!
# Layers of configuration

A configuration is put together from three layers: the built-in defaults, a file, and
the variables of the environment.  A later layer wins field by field.

The name of a variable is read in lower case.  Behind the mark `environmentMark` its
parts, separated by two underlines, are the path of the field; its value is always text.
The keys at the top of the file are paths as well, with points between the parts.  A
place in brackets leads to an item of a list: `store.endpoints[0]` is the first endpoint,
`store.endpoints[-1]` the last.  A name that is no path is taken as one key, which no
field has.
-/

namespace ReplicatedConfig.Config

open Document (Reading)

/-- What the name of a variable starts with. -/
def environmentMark : String := "cairn__"

/-- The lowest layer: the fields that differ from a missing one are given in full. -/
def defaultLayer : Document :=
  [("failover", "parallel_retry_interval_ms", Document.int 5000),
    ("failover", "min_backoff_seconds", .int 30),
    ("failover", "max_backoff_seconds", .int 600),
    ("refresh", "poll_interval_ms", .int 1000),
    ("startup", "timeout_seconds", .int 100),
    ("startup", "optional", .bool false),
    ("logging", "level", .string "info"),
    ("logging", "format", .string "pretty")].foldl
      (fun layer (part, field, d) => d.setAt [.key part, .key field] (some layer)) .empty

/-- Whether a character can stand in a part of a path. -/
def inPathPart (c : Char) : Bool := c.isAlphanum || c == '_' || c == '-'

/-- The name at the head of a text, and what follows it. -/
def name? (cs : List Char) : Option (String × List Char) :=
  let part := cs.takeWhile inPathPart
  if part.isEmpty then none else some (String.ofList part, cs.drop part.length)

/-- A place in a list, behind its opening bracket, and what follows the closing one.
Blanks may stand around the number, which has to fit into 64 bits. -/
def place? (cs : List Char) : Option (Int × List Char) := do
  let isBlank (c : Char) : Bool := c == ' ' || c == '\t'
  let cs := cs.dropWhile isBlank
  let (negative, cs) := match cs with
    | '-' :: rest => (true, rest)
    | _ => (false, cs)
  let n ← Decimal.digits? (cs.takeWhile Char.isDigit)
  let place : Int := if negative then -n else n
  let ']' :: rest := (cs.dropWhile Char.isDigit).dropWhile isBlank | none
  if Int64.minValue.toInt ≤ place ∧ place ≤ Int64.maxValue.toInt then some (place, rest) else none

/-- The steps behind the first name of a path: a point and a name, or a place in
brackets.  Every step takes at least one character, so the length is fuel enough. -/
def steps? : (fuel : Nat) → List Char → Option (List Document.Step)
  | _, [] => some []
  | 0, _ => none
  | fuel + 1, '.' :: cs => do
    let (name, rest) ← name? cs
    return .key name :: (← steps? fuel rest)
  | fuel + 1, '[' :: cs => do
    let (place, rest) ← place? cs
    return .item place :: (← steps? fuel rest)
  | _ + 1, _ => none

/-- The path that a key spells, or the whole key as one step. -/
def pathOf (key : String) : List Document.Step :=
  let path? : Option (List Document.Step) := do
    let (name, rest) ← name? key.toList
    return .key name :: (← steps? rest.length rest)
  path?.getD [.key key]

/-- A text with every pair of underlines, taken from the left, replaced by a point. -/
def pointed : List Char → List Char
  | '_' :: '_' :: rest => '.' :: pointed rest
  | c :: rest => c :: pointed rest
  | [] => []

/-- A character in lower case.  The Kelvin sign is a `K`; no other character beyond ASCII
has a lower case that could stand in a path. -/
def lowered (c : Char) : Char := if c = '\u212a' then 'k' else c.toLower

/-- The path that a variable sets, if it is one of ours. -/
def variablePath? (name : String) : Option (List Document.Step) :=
  let cs := name.toList.map lowered
  let mark := environmentMark.toList
  if mark.isPrefixOf cs then some (pathOf (String.ofList (pointed (cs.drop mark.length)))) else none

/-- A file laid over a layer. -/
def overlayFile (layer file : Document) : Document :=
  file.entries.foldl (fun layer (key, d) => d.setAt (pathOf key) (some layer)) layer

/-- The variables of the environment laid over a layer. -/
def overlayEnvironment (layer : Document) (environment : List (String × String)) : Document :=
  environment.foldl (fun layer (name, value) =>
    match variablePath? name with
    | some path => (Document.string value).setAt path (some layer)
    | none => layer) layer

/-- Why no configuration came out of the layers. -/
inductive LoadError where
  /-- The file is no document. -/
  | fileFormat
  /-- The layers give no configuration. -/
  | meaning
  deriving DecidableEq

/-- The configuration of a file, if there is one, and an environment. -/
def load (file : Option String) (environment : List (String × String)) : Except LoadError Config := do
  let file ← match file with
    | none => pure Document.empty
    | some text => match Document.Toml.read? text with
      | some d => pure d
      | none => throw .fileFormat
  match read? Reading.lenient (overlayEnvironment (overlayFile defaultLayer file) environment) with
  | some config => return config
  | none => throw .meaning

end ReplicatedConfig.Config
