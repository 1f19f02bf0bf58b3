import ReplicatedConfig.Document

/-!
# Tables under construction

The tables of a TOML text are put together piece by piece, and what may still be added
to a table depends on how it came about.  A table that was only named on the way to
another may get a header of its own later; one that has its header may not get a second
one, and no key with points may reach into it.  A table that got a value from such a key
may get more of them but no header.  Whatever a table came from, headers may lead through
it.  Tables written in braces and lists written in brackets are closed.  A list of tables
grows at its end, and names that lead through it mean its last table, which has its header.
-/

namespace ReplicatedConfig.Document.Toml

/-- How a table came about. -/
inductive Origin where
  | implied
  | header
  | dotted
  deriving DecidableEq

/-- What stands under a key while the text is read. -/
inductive Node where
  | closed (d : Document)
  | table (origin : Origin) (entries : List (String × Node))
  | tables (items : List (List (String × Node)))

/-- The entries of a table under construction. -/
abbrev Entries := List (String × Node)

mutual

/-- The document that has been put together. -/
def Node.document : Node → Document
  | .closed d => d
  | .table _ es => .table (documents es)
  | .tables items => .list (tableList items)

/-- The entries of a finished table. -/
def documents : List (String × Node) → List (String × Document)
  | [] => []
  | (k, n) :: rest => (k, n.document) :: documents rest

/-- The tables of a finished list. -/
def tableList : List (List (String × Node)) → List Document
  | [] => []
  | es :: rest => .table (documents es) :: tableList rest

end

namespace Entries

/-- The entries with another node under a key that is there. -/
def replace (es : Entries) (key : String) (n : Node) : Entries :=
  es.map fun (k, old) => if k = key then (k, n) else (k, old)

/-- Changes the table at the end of a path of table names. -/
def within : List String → (Entries → Option Entries) → Entries → Option Entries
  | [], f, es => f es
  | k :: ks, f, es =>
    match es.lookup k with
    | none => (within ks f []).map fun sub => es ++ [(k, .table .implied sub)]
    | some (.table origin sub) => (within ks f sub).map fun sub => replace es k (.table origin sub)
    | some (.tables items) =>
      match items.getLast? with
      | some last => (within ks f last).map fun sub => replace es k (.tables (items.dropLast ++ [sub]))
      | none => none
    | some (.closed _) => none

/-- Adds a value under a key with points between its parts, in the table that the key
starts in.  The table that gets the value is then one that such a key has written to. -/
def put (d : Document) : List String → Entries → Option Entries
  | [], _ => none
  | [k], es => if (es.lookup k).isSome then none else some (es ++ [(k, .closed d)])
  | k :: k' :: ks, es =>
    match es.lookup k with
    | none => (put d (k' :: ks) []).map fun sub => es ++ [(k, .table .dotted sub)]
    | some (.table origin sub) =>
      if origin = .header then none
      else (put d (k' :: ks) sub).map fun sub =>
        replace es k (.table (if ks.isEmpty then .dotted else origin) sub)
    | some (.tables items) =>
      match ks, items.getLast? with
      | _ :: _, some last =>
        (put d (k' :: ks) last).map fun sub => replace es k (.tables (items.dropLast ++ [sub]))
      | _, _ => none
    | some (.closed _) => none

/-- Opens the table of a header. -/
def openTable (path : List String) (es : Entries) : Option Entries :=
  match path.getLast? with
  | none => none
  | some k => within path.dropLast (fun es =>
      match es.lookup k with
      | none => some (es ++ [(k, .table .header [])])
      | some (.table .implied sub) => some (replace es k (.table .header sub))
      | some _ => none) es

/-- Opens one more table of a list. -/
def openItem (path : List String) (es : Entries) : Option Entries :=
  match path.getLast? with
  | none => none
  | some k => within path.dropLast (fun es =>
      match es.lookup k with
      | none => some (es ++ [(k, .tables [[]])])
      | some (.tables items) => some (replace es k (.tables (items ++ [[]])))
      | some _ => none) es

end Entries

end ReplicatedConfig.Document.Toml
