/-!
# Documents

A `Document` is what a configuration file or message says before anyone has asked what
it means: scalars, lists, and tables whose keys keep the order in which they were
first set.

## Laying one over another

Configuration comes in layers.  `Document.overlay` lays an upper document over a lower
one: two tables are joined key by key, and in every other case the upper one replaces
the lower.  `Document.setAt` lays a document over what stands at the end of a path, and
turns whatever is in the way into a table or a list, as the path asks.
-/

namespace ReplicatedConfig

/-- What a text says before it is given a meaning. -/
inductive Document where
  | null
  | bool (b : Bool)
  | int (n : Int)
  | float (x : Float)
  | string (s : String)
  | list (items : List Document)
  | table (entries : List (String × Document))
  deriving Inhabited

namespace Document

/-- The table without entries. -/
def empty : Document := .table []

/-- The entries of a table; none where there is no table. -/
def entries : Document → List (String × Document)
  | .table es => es
  | _ => []

/-- The document under a key of a table. -/
def get? (d : Document) (key : String) : Option Document := d.entries.lookup key

/-- The entries with `f` applied to what stands under `key`, or to nothing where the
key is new.  A new key goes to the end. -/
def alter (key : String) (f : Option Document → Document) :
    List (String × Document) → List (String × Document)
  | [] => [(key, f none)]
  | (k, d) :: rest => if k = key then (k, f (some d)) :: rest else (k, d) :: alter key f rest

mutual

/-- `upper` laid over `lower`. -/
def overlay (lower : Option Document) : (upper : Document) → Document
  | .table es => .table (overlayAll ((lower.map entries).getD []) es)
  | d => d

/-- Every entry of a table laid over the entries of another. -/
def overlayAll (lower : List (String × Document)) :
    (upper : List (String × Document)) → List (String × Document)
  | [] => lower
  | (k, d) :: rest => overlayAll (alter k (fun old => overlay old d) lower) rest

end

/-- The documents under a list, or nothing where there is no list. -/
def items? : Document → Option (List Document)
  | .list ds => some ds
  | _ => none

/-- One step of a path: to the entry of a table, or to an item of a list.  A place below
zero is counted from the end. -/
inductive Step where
  | key (name : String)
  | item (place : Int)
  deriving DecidableEq

/-- The items with `f` applied to the one at `place`.  Where the list is too short it is
filled up with `null`, at its front for a place below zero. -/
def alterItem (place : Int) (f : Option Document → Document) (ds : List Document) : List Document :=
  let missing : Nat := (-(place + ds.length)).toNat
  let ds := if place < 0 then List.replicate missing Document.null ++ ds else ds
  let i := (if place < 0 then place + ds.length else place).toNat
  (ds ++ List.replicate (i + 1 - ds.length) Document.null).modify i (fun d => f (some d))

/-- `d` laid over what stands at the end of `path`. -/
def setAt (d : Document) : (path : List Step) → (lower : Option Document) → Document
  | [], lower => overlay lower d
  | .key name :: path, lower => .table (alter name (setAt d path) ((lower.map entries).getD []))
  | .item place :: path, lower => .list (alterItem place (setAt d path) ((lower.bind items?).getD []))

end Document

end ReplicatedConfig
