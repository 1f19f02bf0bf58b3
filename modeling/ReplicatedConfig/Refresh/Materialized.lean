import ReplicatedConfig.Adapter
import ReplicatedConfig.Snapshot

/-!
# What has been loaded

The loaded settings stand in load order, each with the pairs its adapter gave for it.
The pairs of all of them, taken in that order with later ones winning, are the values of
the next snapshot.  A changed setting is put where the old one stands, so a change of one
setting does not change which of two settings with a common key wins.
-/

namespace ReplicatedConfig

/-- A setting and the pairs its adapter gave for it. -/
structure Entry where
  setting : Setting
  pairs : List Pair
  deriving DecidableEq

/-- The name of an entry's setting. -/
def Entry.identity (e : Entry) : Identity := e.setting.identity

/-- The loaded settings in load order. -/
structure Materialized where
  entries : List Entry
  deriving DecidableEq

namespace Materialized

/-- Nothing loaded. -/
def empty : Materialized := ⟨[]⟩

instance : Inhabited Materialized := ⟨empty⟩

/-- The entry of a setting. -/
def find? (m : Materialized) (i : Identity) : Option Entry := m.entries.find? (·.identity = i)

/-- The token of a loaded setting. -/
def tokenOf (m : Materialized) (i : Identity) : Option Token := (m.find? i).map (·.setting.token)

/-- The entries with `e` in the place of the entry of its setting, or at the end. -/
def put (e : Entry) : List Entry → List Entry
  | [] => [e]
  | f :: rest => if f.identity = e.identity then e :: rest else f :: put e rest

/-- The entries without the first one of a setting. -/
def drop (i : Identity) : List Entry → List Entry
  | [] => []
  | f :: rest => if f.identity = i then rest else f :: drop i rest

/-- Loads one setting, in the place of the one it replaces. -/
def upsert (m : Materialized) (e : Entry) : Materialized := ⟨put e m.entries⟩

/-- Takes one setting away. -/
def remove (m : Materialized) (i : Identity) : Materialized := ⟨drop i m.entries⟩

/-- All pairs in load order. -/
def pairs (m : Materialized) : List Pair := m.entries.flatMap (·.pairs)

/-- The values of the next snapshot. -/
def values (m : Materialized) : Values := .ofPairs m.pairs

@[simp] theorem find?_upsert (m : Materialized) (e : Entry) (i : Identity) :
    (m.upsert e).find? i = if e.identity = i then some e else m.find? i := by
  obtain ⟨es⟩ := m
  show (put e es).find? _ = if e.identity = i then some e else es.find? _
  induction es with
  | nil => by_cases h : e.identity = i <;> simp [put, h]
  | cons f rest ih =>
    by_cases hf : f.identity = e.identity <;> by_cases h : e.identity = i <;>
      simp_all [put, List.find?_cons]

end Materialized

end ReplicatedConfig
