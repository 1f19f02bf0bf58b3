import ReplicatedConfig.Config
import ReplicatedConfig.Decimal.Reader
import ReplicatedConfig.LogFilter.Pattern
import ReplicatedConfig.Text.Blank

/-!
# What is logged

A filter is a row of directives with commas between them.  A directive is a level, or a
target with a level behind an equals sign, or a target alone, which means every level.
For an event the directive with the longest target that its own target starts with
decides, and a level alone is a directive with no target.  Where no directive applies,
nothing is logged.

Behind the target, brackets may hold the name of a span, a field in braces, or both.  A
directive that names a span, or a value for its field, says something only about what
happens within spans.  A field without a value makes a directive more specific and is
no condition: whether an event has the field is not known when the filter is asked.

## Blanks around a directive

A directive is recognised between the blanks around it, but its parts are cut out of
the text with the blanks, at the places at which they were seen without them.  So a
level with a blank before it is no level but a target that nothing has.

## Where the filter comes from

From the environment if it says anything that reads as a filter, and from the
configured level otherwise.  A bare `debug` or `trace` in the environment is about this
library only, like the configured level: everything else is held to warnings.
-/

namespace ReplicatedConfig

/-- How much an event matters, the most urgent first. -/
inductive LogLevel where
  | error
  | warn
  | info
  | debug
  | trace
  deriving DecidableEq

namespace LogLevel

/-- All levels in order. -/
def all : List LogLevel := [.error, .warn, .info, .debug, .trace]

/-- The level's name. -/
def name : LogLevel → String
  | .error => "error"
  | .warn => "warn"
  | .info => "info"
  | .debug => "debug"
  | .trace => "trace"

/-- How many levels are at least as urgent. -/
def rank : LogLevel → Nat
  | .error => 1
  | .warn => 2
  | .info => 3
  | .debug => 4
  | .trace => 5

end LogLevel

/-- How many levels a directive lets through: none for zero. -/
abbrev LogLimit := Nat

/-- A field that a directive names, with the value it has to have, if any. -/
structure LogField where
  name : String
  value : Option String

/-- A part of a filter. -/
structure LogDirective where
  target : Option String
  span : Option String
  field : Option LogField
  limit : LogLimit

/-- A filter of log events. -/
abbrev LogFilter := List LogDirective

namespace LogFilter

/-- The library's own target. -/
def ownTarget : String := "cairn_core"

/-- A limit: the name of a level or of none, in any case, or its number. -/
def limit? (s : String) : Option LogLimit :=
  match (Decimal.uint64? s).map UInt64.toNat with
  | some n => if n ≤ 5 then some n else none
  | none =>
    if s.toLower = "off" then some 0
    else (LogLevel.all.find? (·.name = s.toLower)).map LogLevel.rank

/-- How many bytes a text takes. -/
def size (cs : List Char) : Nat := (String.ofList cs).utf8ByteSize

/-- A text without its first `n` bytes. -/
def dropBytes : Nat → List Char → List Char
  | _, [] => []
  | n, c :: cs => if n = 0 then c :: cs else dropBytes (n - c.utf8Size) cs

/-- The first `n` bytes of a text. -/
def takeBytes : Nat → List Char → List Char
  | _, [] => []
  | n, c :: cs => if n = 0 then [] else c :: takeBytes (n - c.utf8Size) cs

/-- The bytes of a text from place `first` up to place `past`. -/
def cut (piece : List Char) (first past : Nat) : String :=
  String.ofList (takeBytes (past - first) (dropBytes first piece))

/-- The limit that starts at a place, behind an equals sign; everything where nothing is
written. -/
def limitAt? (piece : List Char) (place : Nat) : Option LogLimit :=
  match dropBytes place piece with
  | [] => some 5
  | cs => limit? (String.ofList cs)

/-- The limit behind a bracket that closes before `place`, where `seen` starts: there is
an equals sign, or nothing and then everything is let through. -/
def limitBehind? (piece : List Char) (place : Nat) (seen : List Char) : Option LogLimit :=
  match seen with
  | [] => some 5
  | '=' :: _ => limitAt? piece (place + 1)
  | _ => none

/-- A field, with a value behind an equals sign: a number, or a pattern. -/
def field? (s : String) : Option LogField :=
  match s.splitOn "=" with
  | name :: value :: _ =>
    if (Decimal.float? value).isSome ∨ Pattern.isValid value then some ⟨name, some value⟩ else none
  | _ => some ⟨s, none⟩

/-- What opens a field. -/
def fieldOpens : Char := Char.ofNat 0x7b

/-- What closes a field. -/
def fieldCloses : Char := Char.ofNat 0x7d

/-- A directive with brackets: `seen` starts at `place`, behind the opening one. -/
def bracketed? (target : Option String) (piece : List Char) (place : Nat) (seen : List Char) :
    Option LogDirective := do
  let name := seen.takeWhile fun c => c != ']' && c != fieldOpens
  let past := place + size name
  match seen.drop name.length with
  | [] => none
  | ']' :: rest =>
    return ⟨target, some (cut piece place past), none, ← limitBehind? piece (past + 1) rest⟩
  | _ :: rest =>
    let body := rest.takeWhile (· != fieldCloses)
    if body.isEmpty then none
    let span := if name.isEmpty then none else some (cut piece place past)
    let closed := past + 1 + size body
    let _ :: ']' :: rest := rest.drop body.length | none
    return ⟨target, span, ← field? (cut piece (past + 1) closed), ← limitBehind? piece (closed + 2) rest⟩

/-- Whether a directive without brackets may start with a character. -/
def opensTarget (c : Char) : Bool := c ∈ ['-', ':', '_'] || Text.isAlphanumeric c

/-- Reads a directive. -/
def directive? (s : String) : Option LogDirective :=
  let piece := s.toList
  match Text.trimmed piece with
  | [] => none
  | '[' :: seen => bracketed? none piece 1 seen
  | c :: cs =>
    let target := (c :: cs).takeWhile fun c => c != '=' && c != '['
    if !opensTarget c then none
    else match (c :: cs).drop target.length with
      | [] => match limit? s with
        | some n => some ⟨none, none, none, n⟩
        | none => some ⟨some s, none, none, 5⟩
      | '=' :: _ =>
        (limitAt? piece (size target + 1)).map (⟨some (cut piece 0 (size target)), none, none, ·⟩)
      | _ :: seen => bracketed? (some (cut piece 0 (size target))) piece (size target + 1) seen

/-- What stands between the commas of a filter; where nothing does, nothing is said. -/
def pieces (s : String) : List String := (s.splitOn ",").filter fun p => !p.isEmpty

/-- Reads a filter in which every directive has to be one. -/
def read? (s : String) : Option LogFilter := (pieces s).mapM directive?

/-- Reads a filter and passes over what is no directive. -/
def readLoosely (s : String) : LogFilter := (pieces s).filterMap directive?

/-- Whether a directive says something about an event outside of all spans. -/
def concernsEvents (d : LogDirective) : Bool :=
  d.span.isNone && (d.field.bind LogField.value).isNone

/-- Whether a directive is about a target: its own is none, or the start of it. -/
def covers (d : LogDirective) (target : String) : Bool :=
  d.target.all fun t => t.toList.isPrefixOf target.toList

/-- Whether `a` decides before `b` wherever both apply: by a longer target, and where the
targets are one, by a field, or the greater name of one. -/
def outranks (a b : LogDirective) : Bool :=
  let length (d : LogDirective) : Nat := d.target.elim 0 (·.utf8ByteSize + 1)
  if length a ≠ length b then length b < length a
  else match a.field, b.field with
    | some f, some g => g.name < f.name
    | some _, none => true
    | none, _ => false

/-- The directive that decides about a target.  Of two that are equally specific it is the
later one. -/
def decisive? (f : LogFilter) (target : String) : Option LogDirective :=
  (f.filter fun d => concernsEvents d && covers d target).foldl (fun best d =>
    if best.any (outranks · d) then best else some d) none

/-- How many levels a filter lets through for a target. -/
def limitFor (f : LogFilter) (target : String) : LogLimit :=
  ((f.decisive? target).map LogDirective.limit).getD 0

/-- The levels that a filter lets through for a target. -/
def enabled (f : LogFilter) (target : String) : List LogLevel :=
  LogLevel.all.filter (·.rank ≤ f.limitFor target)

/-- Warnings from everywhere, and a level of our own. -/
def ofLevel (level : String) : LogFilter := readLoosely ("warn," ++ ownTarget ++ "=" ++ level)

/-- The filter for a configuration and what the environment says. -/
def choose (c : LoggingConfig) (environment : Option String) : LogFilter :=
  match environment with
  | none => ofLevel c.level
  | some s => if s = "debug" ∨ s = "trace" then ofLevel s else (read? s).getD (ofLevel c.level)

end LogFilter

end ReplicatedConfig
