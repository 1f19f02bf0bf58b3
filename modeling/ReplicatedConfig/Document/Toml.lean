import ReplicatedConfig.Document.Toml.Scalar
import ReplicatedConfig.Document.Toml.Tree

/-!
# TOML

`Toml.read?` reads a TOML text into a `Document`, or refuses it.  The text is a row of
lines: a header opens a table or one more table of a list, and every other line that is
not empty sets a key of the table that was opened last.

As with JSON, a reader takes a list of characters and returns what it has not read, and
every value takes at least one character, so the length of the text is fuel enough.

A text may nest lists and tables in one another, and names in a key, up to
`nestingLimit`; what goes deeper is refused.
-/

namespace ReplicatedConfig.Document.Toml

/-- How deep values may be nested, and how many parts a key may have. -/
def nestingLimit : Nat := 80

/-- Whether a character may not stand in a comment or on a line of a string. -/
def isRefused (c : Char) : Bool := (c.toNat < 0x20 && c != '\t') || c.toNat == 0x7f

/-- The text behind blanks on one line. -/
def skipBlank (cs : List Char) : List Char := cs.dropWhile (· ∈ [' ', '\t'])

/-- The text behind the end of a line, if the line ends here. -/
def lineEnd? : List Char → Option (List Char)
  | '\n' :: rest => some rest
  | '\r' :: '\n' :: rest => some rest
  | _ => none

/-- The text behind a comment, at the end of its line; nothing where the comment has a
refused character. -/
def skipComment? (cs : List Char) : Option (List Char) :=
  match cs with
  | '#' :: rest =>
    let body := rest.takeWhile (· != '\n')
    let body := if body.getLast? = some '\r' ∧ body.length < rest.length then body.dropLast else body
    if body.any isRefused then none else some (rest.drop body.length)
  | _ => some cs

/-- The text behind blanks and a comment, at the end of a line or of the text. -/
def finishLine? (cs : List Char) : Option (List Char) := do
  match ← skipComment? (skipBlank cs) with
  | [] => some []
  | rest => lineEnd? rest

/-- The text behind blanks, comments and ends of lines. -/
def skipSpace? : (fuel : Nat) → List Char → Option (List Char)
  | 0, _ => none
  | fuel + 1, cs => do
    let rest ← skipComment? (skipBlank cs)
    match lineEnd? rest with
    | some rest => skipSpace? fuel rest
    | none => some rest

/-- The character of a number of hexadecimal digits, and what follows them. -/
def codePoint? (count : Nat) (cs : List Char) : Option (Char × List Char) :=
  let ds := cs.take count
  let n := inBase 16 ds
  if ds.length = count ∧ ds.all (isDigitIn 16) ∧ n.isValidChar then
    some (Char.ofNat n, cs.drop count)
  else none

/-- The character of an escape and what follows it. -/
def escape? : List Char → Option (Char × List Char)
  | 'b' :: rest => some (Char.ofNat 8, rest)
  | 't' :: rest => some ('\t', rest)
  | 'n' :: rest => some ('\n', rest)
  | 'f' :: rest => some (Char.ofNat 12, rest)
  | 'r' :: rest => some ('\r', rest)
  | 'e' :: rest => some (Char.ofNat 27, rest)
  | '"' :: rest => some ('"', rest)
  | '\\' :: rest => some ('\\', rest)
  | 'x' :: rest => codePoint? 2 rest
  | 'u' :: rest => codePoint? 4 rest
  | 'U' :: rest => codePoint? 8 rest
  | _ => none

/-- A quote that keeps backslashes. -/
def apostrophe : Char := Char.ofNat 0x27

/-- A string on one line behind its opening quote. -/
def line? (quote : Char) : (fuel : Nat) → (done : List Char) → List Char → Option (String × List Char)
  | 0, _, _ => none
  | _ + 1, _, [] => none
  | fuel + 1, done, c :: rest =>
    if c = quote then some (String.ofList done.reverse, rest)
    else if c = '\\' ∧ quote = '"' then do
      let (e, rest) ← escape? rest
      line? quote fuel (e :: done) rest
    else if isRefused c then none
    else line? quote fuel (c :: done) rest

/-- The text behind blanks and ends of lines. -/
def skipLines : List Char → List Char
  | ' ' :: rest => skipLines rest
  | '\t' :: rest => skipLines rest
  | '\n' :: rest => skipLines rest
  | '\r' :: '\n' :: rest => skipLines rest
  | rest => rest

/-- The text behind a backslash at the end of a line: all blanks and line ends are
dropped.  Nothing where the backslash does not end its line. -/
def joinLine? (cs : List Char) : Option (List Char) := (lineEnd? (skipBlank cs)).map skipLines

/-- A string over several lines behind its three opening quotes.  Up to two quotes may
stand right before the closing three.  The end of a line is kept as it is written. -/
def lines? (quote : Char) : (fuel : Nat) → (done : List Char) → List Char → Option (String × List Char)
  | 0, _, _ => none
  | _ + 1, _, [] => none
  | fuel + 1, done, c :: rest =>
    if c = quote then
      let run := (c :: rest).takeWhile (· == quote)
      if run.length < 3 then lines? quote fuel (run ++ done) ((c :: rest).drop run.length)
      else if 5 < run.length then none
      else some (String.ofList (done.reverse ++ run.drop 3), (c :: rest).drop run.length)
    else if c = '\\' ∧ quote = '"' then
      match joinLine? rest with
      | some rest => lines? quote fuel done rest
      | none => do
        let (e, rest) ← escape? rest
        lines? quote fuel (e :: done) rest
    else match lineEnd? (c :: rest) with
      | some rest => lines? quote fuel ('\n' :: if c = '\n' then done else c :: done) rest
      | none => if isRefused c then none else lines? quote fuel (c :: done) rest

/-- A string behind its first quote. -/
def quoted? (quote : Char) (cs : List Char) : Option (String × List Char) :=
  match cs with
  | a :: b :: rest =>
    if a = quote ∧ b = quote then
      let body := (lineEnd? rest).getD rest
      lines? quote (body.length + 1) [] body
    else line? quote (cs.length + 1) [] cs
  | _ => line? quote (cs.length + 1) [] cs

/-- Whether a character can stand in a key without quotes. -/
def inBareKey (c : Char) : Bool := c.isAlphanum || c == '_' || c == '-'

/-- One part of a key. -/
def keyPart? : List Char → Option (String × List Char)
  | [] => none
  | c :: rest =>
    if c = '"' ∨ c = apostrophe then line? c (rest.length + 1) [] rest
    else
      let bare := (c :: rest).takeWhile inBareKey
      if bare.isEmpty then none else some (String.ofList bare, (c :: rest).drop bare.length)

/-- The parts of a key, with points between them. -/
def keyParts? : (fuel : Nat) → List Char → Option (List String × List Char)
  | 0, _ => none
  | fuel + 1, cs => do
    let (part, rest) ← keyPart? (skipBlank cs)
    match skipBlank rest with
    | '.' :: rest =>
      let (parts, rest) ← keyParts? fuel rest
      some (part :: parts, rest)
    | rest => some ([part], rest)

/-- A key of at most `nestingLimit` parts. -/
def key? (cs : List Char) : Option (List String × List Char) := do
  let (parts, rest) ← keyParts? (cs.length + 1) cs
  if parts.length ≤ nestingLimit then some (parts, rest) else none

/-- Whether a character can stand in a word. -/
def inWord (c : Char) : Bool := c.isAlphanum || c ∈ ['+', '-', '_', '.', ':']

/-- The word at the head of a text.  A blank between a date and a time belongs to it. -/
def takeWord (cs : List Char) : List Char :=
  let word := cs.takeWhile inWord
  match date? word, cs.drop word.length with
  | some (_, []), ' ' :: rest =>
    let more := rest.takeWhile inWord
    if (more.head?.map Char.isDigit).getD false then word ++ ' ' :: more else word
  | _, _ => word

mutual

/-- A value at the head of the text.  `room` is how deep lists and tables may go here. -/
def value? : (fuel room : Nat) → List Char → Option (Document × List Char)
  | 0, _, _ => none
  | _ + 1, _, [] => none
  | fuel + 1, room, c :: rest =>
    if c = '"' ∨ c = apostrophe then (quoted? c rest).map fun (s, rest) => (.string s, rest)
    else if c = '[' then
      if room = 0 then none
      else (items? fuel (room - 1) [] rest).map fun (ds, rest) => (.list ds, rest)
    else if c = Char.ofNat 0x7b then
      if room = 0 then none
      else (pairs? fuel (room - 1) [] rest).map fun (es, rest) => ((Node.table .dotted es).document, rest)
    else
      let word := takeWord (c :: rest)
      (word? word).map fun d => (d, (c :: rest).drop word.length)

/-- The items of a list up to its closing bracket. -/
def items? : (fuel room : Nat) → List Document → List Char → Option (List Document × List Char)
  | 0, _, _, _ => none
  | fuel + 1, room, done, cs => do
    match ← skipSpace? (cs.length + 1) cs with
    | ']' :: rest => some (done.reverse, rest)
    | cs =>
      let (d, rest) ← value? fuel room cs
      match ← skipSpace? (rest.length + 1) rest with
      | ',' :: rest => items? fuel room (d :: done) rest
      | ']' :: rest => some ((d :: done).reverse, rest)
      | _ => none

/-- The pairs of a table in braces up to its closing brace. -/
def pairs? : (fuel room : Nat) → Entries → List Char → Option (Entries × List Char)
  | 0, _, _, _ => none
  | fuel + 1, room, done, cs => do
    let cs ← skipSpace? (cs.length + 1) cs
    if cs.head? = some (Char.ofNat 0x7d) then some (done, cs.drop 1)
    else
      let (path, rest) ← key? cs
      let '=' :: rest := (← skipSpace? (rest.length + 1) rest) | none
      let (d, rest) ← value? fuel room (← skipSpace? (rest.length + 1) rest)
      let done ← Entries.put d path done
      match ← skipSpace? (rest.length + 1) rest with
      | ',' :: rest => pairs? fuel room done rest
      | c :: rest => if c = Char.ofNat 0x7d then some (done, rest) else none
      | [] => none

end

/-- The text read so far: all tables, and the path of the table opened last. -/
structure State where
  entries : Entries
  path : List String

/-- Reads one line. -/
def readLine? (s : State) (cs : List Char) : Option (State × List Char) :=
  match cs with
  | '[' :: '[' :: rest => do
    let (path, rest) ← key? rest
    let ']' :: ']' :: rest := rest | none
    let entries ← s.entries.openItem path
    return (⟨entries, path⟩, ← finishLine? rest)
  | '[' :: rest => do
    let (path, rest) ← key? rest
    let ']' :: rest := rest | none
    let entries ← s.entries.openTable path
    return (⟨entries, path⟩, ← finishLine? rest)
  | _ => do
    let (path, rest) ← key? cs
    let '=' :: rest := rest | none
    let (d, rest) ← value? (2 * cs.length + 2) nestingLimit (skipBlank rest)
    let entries ← s.entries.within s.path (Entries.put d path)
    return (⟨entries, s.path⟩, ← finishLine? rest)

/-- Reads lines until the text ends. -/
def readLines? : (fuel : Nat) → State → List Char → Option State
  | 0, _, _ => none
  | fuel + 1, s, cs => do
    match ← skipSpace? (cs.length + 1) cs with
    | [] => some s
    | cs =>
      let (s, rest) ← readLine? s cs
      readLines? fuel s rest

/-- The text behind a mark of the byte order. -/
def skipMark : List Char → List Char
  | '\ufeff' :: rest => rest
  | cs => cs

/-- The document that a TOML text stands for.  A mark of the byte order may stand before
everything else: one for the file, and one for the text in it. -/
def read? (text : String) : Option Document :=
  let cs := skipMark (skipMark text.toList)
  (readLines? (cs.length + 1) ⟨[], []⟩ cs).map fun s => (Node.table .header s.entries).document

end ReplicatedConfig.Document.Toml
