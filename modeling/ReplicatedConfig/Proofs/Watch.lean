import Mathlib.Data.List.Induction
import Mathlib.Data.List.Nodup
import ReplicatedConfig.Watch

/-!
# Watched keys keep their places

What the rest of the development needs of a watch list is which names stand in it, in which
order.  `identities` is that list.  Every operation on watched keys leaves it as it is, apart
from watching a name for the first time, which puts the name behind all others
(`register_cases`).  So a place that was read earlier still belongs to the same name, and
no name ever stands at two places.

Holding a key and letting it go, and putting off the next look at it, also keep its role and
its token; `facts` lists these three.  Watching a name again may change its role, and still
keeps its token: of names and tokens, which `known` lists, all operations but noting a token
keep both.
-/

namespace ReplicatedConfig

/-- What a watch says besides who holds the key and when it is looked at: name, role and
token. -/
abbrev Watch.Fact := Identity × Bool × Option Token

/-- The name, the role and the token of a watched key. -/
def Watch.fact (w : Watch) : Watch.Fact := (w.identity, w.refreshAll, w.token)

namespace WatchList

/-- The names of the watched keys, in order. -/
def identities (l : WatchList) : List Identity := l.watches.map (·.identity)

@[simp] theorem length_identities (l : WatchList) : l.identities.length = l.size :=
  List.length_map _

theorem getElem?_identities (l : WatchList) (i : Nat) :
    l.identities[i]? = (l.get? i).map (·.identity) :=
  List.getElem?_map

/-- The name of a watched key stands at its place. -/
theorem getElem?_identities_of_get? {l : WatchList} {i : Nat} {w : Watch} (h : l.get? i = some w) :
    l.identities[i]? = some w.identity := by
  rw [getElem?_identities, h, Option.map_some]

/-- Where there is a name there is a watched key. -/
theorem exists_get?_of_getElem?_identities {l : WatchList} {i : Nat} {name : Identity}
    (h : l.identities[i]? = some name) : ∃ w, l.get? i = some w ∧ w.identity = name := by
  rw [getElem?_identities] at h
  exact Option.map_eq_some_iff.1 h

/-- A watched key after one place has changed. -/
theorem mem_modify {l : WatchList} {i : Nat} {f : Watch → Watch} {w : Watch}
    (h : w ∈ (l.modify i f).watches) :
    ∃ j v, l.get? j = some v ∧ w = if i = j then f v else v := by
  obtain ⟨j, hj⟩ := List.mem_iff_getElem?.1 h
  have hget : (l.modify i f).get? j = some w := hj
  rw [get?_modify] at hget
  split at hget
  · next hij =>
    obtain ⟨v, hv, rfl⟩ := Option.map_eq_some_iff.1 hget
    exact ⟨j, v, hv, (if_pos hij).symm⟩
  · next hij => exact ⟨j, w, hget, (if_neg hij).symm⟩

/-- A name stands at one place only. -/
theorem eq_of_identity_eq {l : WatchList} (hl : l.identities.Nodup) {i j : Nat} {v w : Watch}
    (hv : l.get? i = some v) (hw : l.get? j = some w) (h : v.identity = w.identity) : i = j := by
  have hi : l.identities[i]? = some v.identity := by rw [getElem?_identities, hv, Option.map_some]
  have hj : l.identities[j]? = some v.identity := by rw [getElem?_identities, hw, Option.map_some, h]
  exact (List.getElem?_inj (List.getElem?_eq_some_iff.1 hi).1 hl).1 (hi.trans hj.symm)

/-! ## Every operation keeps the names -/

theorem identities_modify (l : WatchList) (i : Nat) {f : Watch → Watch}
    (hf : ∀ w, (f w).identity = w.identity) : (l.modify i f).identities = l.identities := by
  refine List.ext_getElem? fun j => ?_
  rw [getElem?_identities, getElem?_identities, get?_modify]
  split
  · rw [Option.map_map]
    exact congrArg (Option.map · (l.get? j)) (funext hf)
  · rfl

@[simp] theorem identities_setToken (l : WatchList) (i : Nat) (token : Option Token) :
    (l.setToken i token).identities = l.identities :=
  l.identities_modify i fun _ => rfl

/-! ## Names, roles and tokens -/

/-- The names, roles and tokens of all watched keys. -/
def facts (l : WatchList) : List Watch.Fact := l.watches.map Watch.fact

theorem get?_of_facts {l : WatchList} {i : Nat} {f : Watch.Fact}
    (h : l.facts[i]? = some f) : ∃ w, l.get? i = some w ∧ w.fact = f := by
  rw [facts, List.getElem?_map] at h
  exact Option.map_eq_some_iff.1 h

/-- Where the facts are the same, there is a key with the same facts at every place. -/
theorem exists_of_facts {l l' : WatchList} (h : l'.facts = l.facts) {i : Nat} {w : Watch}
    (hw : l'.get? i = some w) : ∃ v, l.get? i = some v ∧ v.fact = w.fact := by
  refine get?_of_facts ?_
  rw [← h, facts, List.getElem?_map]
  exact congrArg (Option.map Watch.fact) hw

theorem identities_of_facts {l l' : WatchList} (h : l'.facts = l.facts) :
    l'.identities = l.identities := by
  have hmap := congrArg (List.map Prod.fst) h
  simp only [facts, List.map_map] at hmap
  exact hmap

theorem facts_modify (l : WatchList) (i : Nat) {f : Watch → Watch}
    (hf : ∀ w, (f w).fact = w.fact) :
    (l.modify i f).facts = l.facts := by
  refine List.ext_getElem? fun j => ?_
  simp only [facts, List.getElem?_map]
  show ((l.modify i f).get? j).map _ = (l.get? j).map _
  rw [get?_modify]
  split
  · rw [Option.map_map]
    exact congrArg (Option.map · (l.get? j)) (funext hf)
  · rfl

/-! ## Names and tokens -/

/-- The names and the tokens of all watched keys. -/
def known (l : WatchList) : List (Identity × Option Token) :=
  l.watches.map fun w => (w.identity, w.token)

theorem identities_of_known {l l' : WatchList} (h : l'.known = l.known) :
    l'.identities = l.identities := by
  have hmap := congrArg (List.map Prod.fst) h
  simp only [known, List.map_map] at hmap
  exact hmap

theorem known_of_facts {l l' : WatchList} (h : l'.facts = l.facts) : l'.known = l.known := by
  have hmap := congrArg (List.map fun f : Watch.Fact => (f.1, f.2.2)) h
  simp only [facts, List.map_map] at hmap
  exact hmap

theorem known_modify (l : WatchList) (i : Nat) {f : Watch → Watch}
    (hf : ∀ w, (f w).identity = w.identity ∧ (f w).token = w.token) :
    (l.modify i f).known = l.known := by
  refine List.ext_getElem? fun j => ?_
  simp only [known, List.getElem?_map]
  show ((l.modify i f).get? j).map _ = (l.get? j).map _
  rw [get?_modify]
  split
  · rw [Option.map_map]
    exact congrArg (Option.map · (l.get? j)) (funext fun w => Prod.ext (hf w).1 (hf w).2)
  · rfl

@[simp] theorem known_setDirty (l : WatchList) (now : Instant) (most : Duration)
    (draws : Nat → Nat) : (l.setDirty now most draws).known = l.known := by
  refine List.ext_getElem? fun i => ?_
  simp only [known, setDirty, List.getElem?_map, List.getElem?_mapIdx, Option.map_map]
  rfl

/-- The token at a place is part of what is known of it. -/
theorem bind_token_get? (l : WatchList) (i : Nat) :
    (l.get? i).bind (·.token) = (l.known[i]?).bind (·.2) := by
  rw [known, List.getElem?_map, Option.bind_map]
  rfl

/-! ## Watching one name more -/

theorem check_of_register {l : WatchList} {r : WatchRequest} {now : Instant} {x : WatchList × Nat}
    (h : l.register r now = .ok x) : r.check = .ok () := by
  unfold register at h
  cases hcheck : r.check with
  | error e =>
    rw [hcheck] at h
    cases h
  | ok u => rfl

section Register

variable {l l' : WatchList} {r : WatchRequest} {now : Instant} {i j : Nat}

/-- Watching a name that is watched keeps all names and tokens, and any other name comes last. -/
theorem register_cases (h : l.register r now = .ok (l', i)) :
    (r.identity ∈ l.identities ∧ l'.known = l.known) ∨
      (r.identity ∉ l.identities ∧ l' = ⟨l.watches ++ [Watch.new r now]⟩) := by
  unfold register at h
  rw [check_of_register h] at h
  cases hfind : l.find? r.identity with
  | some j =>
    simp only [hfind] at h
    cases h
    refine .inl ⟨?_, l.known_modify _ fun _ => ⟨rfl, rfl⟩⟩
    obtain ⟨hj, hw, -⟩ := List.findIdx?_eq_some_iff_getElem.1 hfind
    exact List.mem_map.2 ⟨_, List.getElem_mem hj, of_decide_eq_true hw⟩
  | none =>
    simp only [hfind] at h
    cases h
    refine .inr ⟨fun hmem => ?_, rfl⟩
    obtain ⟨w, hw, hname⟩ := List.mem_map.1 hmem
    have hnone := List.findIdx?_eq_none_iff.1 hfind w hw
    rw [hname] at hnone
    simp at hnone

/-- Watching a name again keeps all names and tokens. -/
theorem known_register (hr : r.identity ∈ l.identities) (h : l.register r now = .ok (l', i)) :
    l'.known = l.known :=
  (register_cases h).elim And.right fun hnew => absurd hr hnew.1

/-- No name comes to stand at two places. -/
theorem nodup_register (hl : l.identities.Nodup) (h : l.register r now = .ok (l', i)) :
    l'.identities.Nodup := by
  rcases register_cases h with ⟨-, hsame⟩ | ⟨hnew, rfl⟩
  · rwa [identities_of_known hsame]
  · show (List.map _ (l.watches ++ [Watch.new r now])).Nodup
    rw [List.map_append, List.map_singleton, ← List.concat_eq_append]
    exact hl.concat hnew

/-- Names stay at their places. -/
theorem getElem?_identities_register (h : l.register r now = .ok (l', i)) {name : Identity}
    (hj : l.identities[j]? = some name) : l'.identities[j]? = some name := by
  rcases register_cases h with ⟨-, hsame⟩ | ⟨-, rfl⟩
  · rwa [identities_of_known hsame]
  · obtain ⟨hlt, -⟩ := List.getElem?_eq_some_iff.1 hj
    show (List.map _ (l.watches ++ [Watch.new r now]))[j]? = some name
    rw [List.map_append]
    exact (List.getElem?_append_left hlt).trans hj

/-- Tokens stay at their places, and a name that is new has none. -/
theorem token_register (h : l.register r now = .ok (l', i)) (j : Nat) :
    (l'.get? j).bind (·.token) = (l.get? j).bind (·.token) := by
  rw [bind_token_get?, bind_token_get?]
  rcases register_cases h with ⟨-, hsame⟩ | ⟨-, rfl⟩
  · rw [hsame]
  · have hknown : known ⟨l.watches ++ [Watch.new r now]⟩ = l.known ++ [(r.identity, none)] :=
      List.map_append
    rw [hknown]
    by_cases hj : j < l.known.length
    · rw [List.getElem?_append_left hj]
    · rw [List.getElem?_append_right (Nat.le_of_not_lt hj),
        List.getElem?_eq_none (Nat.le_of_not_lt hj), Option.bind_none]
      cases j - l.known.length <;> rfl

end Register

/-! ## Places and names -/

/-- Where every key is to be looked at, so is every place. -/
theorem due_eq_range {l : WatchList} {now : Instant} (hdue : ∀ w ∈ l.watches, w.Due now) :
    l.due now = List.range l.size := by
  refine List.filter_eq_self.2 fun place hplace => ?_
  have hlt : place < l.watches.length := List.mem_range.1 hplace
  have hget : l.get? place = some l.watches[place] := List.getElem?_eq_getElem hlt
  rw [hget]
  exact decide_eq_true (hdue _ (List.getElem_mem _))

/-- The names at places. -/
def names (l : WatchList) (places : List Nat) : List Identity :=
  places.filterMap (l.identities[·]?)

theorem names_cons_of_get? {l : WatchList} {place : Nat} {places : List Nat} {w : Watch}
    (h : l.get? place = some w) : l.names (place :: places) = w.identity :: l.names places := by
  have hname : l.identities[place]? = some w.identity := by
    rw [getElem?_identities, h, Option.map_some]
  rw [names, List.filterMap_cons_some hname, names]

theorem names_cons_of_get?_none {l : WatchList} {place : Nat} {places : List Nat}
    (h : l.get? place = none) : l.names (place :: places) = l.names places := by
  have hname : l.identities[place]? = none := by
    rw [getElem?_identities, h, Option.map_none]
  rw [names, List.filterMap_cons_none hname, names]

/-- All places have all names. -/
theorem names_range (l : WatchList) : l.names (List.range l.size) = l.identities := by
  rw [← length_identities, names]
  generalize l.identities = is
  induction is using List.reverseRecOn with
  | nil => rfl
  | append_singleton is i ih =>
    rw [List.length_append, List.length_singleton, List.range_succ, List.filterMap_append]
    have hinit : (List.range is.length).filterMap ((is ++ [i])[·]?) =
        (List.range is.length).filterMap (is[·]?) := by
      refine List.filterMap_congr fun j hj => ?_
      exact List.getElem?_append_left (List.mem_range.1 hj)
    rw [hinit, ih, List.filterMap_cons_some (by rw [List.getElem?_concat_length]),
      List.filterMap_nil]

end WatchList
end ReplicatedConfig
