import Mathlib.Data.List.Dedup
import Mathlib.Data.List.Induction
import ReplicatedConfig.Snapshot

/-!
# Which setting decides a key

Several settings may give pairs for one key, and then their order decides: the value of a
key is that of the last pair for it.  This module says so of `Values.ofPairs`
(`get?_ofPairs`), and then speaks about orders of settings, whatever the pairs of a setting
are.

`Decides` names the last setting of an order that gives the key a value.  Two orders of the
same settings give a key the same value exactly when the settings that decide it in the one
and in the other agree about it (`valueIn_eq_iff`).
-/

namespace ReplicatedConfig

/-! ## The last pair wins -/

namespace Values

/-- The value of the last pair for a key. -/
def last? (key : String) (ps : List (String × String)) : Option String := ps.reverse.lookup key

@[simp] theorem last?_nil (key : String) : last? key [] = none := rfl

theorem last?_append (key : String) (ps qs : List (String × String)) :
    last? key (ps ++ qs) = (last? key qs).or (last? key ps) := by
  rw [last?, List.reverse_append, List.lookup_append]
  rfl

/-- **The value of a key is that of the last pair for it.** -/
theorem get?_ofPairs (ps : List (String × String)) (key : String) :
    (ofPairs ps).get? key = last? key ps := by
  induction ps using List.reverseRecOn with
  | nil => rfl
  | append_singleton ps pair ih =>
    obtain ⟨k, v⟩ := pair
    have hinsert : ofPairs (ps ++ [(k, v)]) = (ofPairs ps).insert k v := by
      rw [ofPairs, List.foldl_append]
      rfl
    rw [hinsert, get?_insert, ih, last?_append]
    by_cases h : key = k
    · simp [last?, h]
    · simp [last?, h, List.lookup_cons, beq_eq_false_iff_ne.2 h]

end Values

/-! ## Orders of settings -/

namespace Order

variable {σ : Type} (pairs : σ → List (String × String)) (key : String)

/-- The value that one setting gives a key. -/
def valueOf (s : σ) : Option String := Values.last? key (pairs s)

/-- The value of a key where settings are taken in an order. -/
def valueIn (order : List σ) : Option String := Values.last? key (order.flatMap pairs)

/-- A setting decides a key: it gives the key a value, and nothing behind it does. -/
def Decides (order : List σ) (s : σ) : Prop :=
  ∃ before after, order = before ++ s :: after ∧ valueOf pairs key s ≠ none ∧
    ∀ t ∈ after, valueOf pairs key t = none

variable {pairs key}

theorem valueIn_append (a b : List σ) :
    valueIn pairs key (a ++ b) = (valueIn pairs key b).or (valueIn pairs key a) := by
  rw [valueIn, List.flatMap_append, Values.last?_append]
  rfl

theorem valueIn_singleton (s : σ) : valueIn pairs key [s] = valueOf pairs key s := by
  rw [valueIn, List.flatMap_singleton]
  rfl

theorem valueIn_eq_none_iff {order : List σ} :
    valueIn pairs key order = none ↔ ∀ s ∈ order, valueOf pairs key s = none := by
  induction order with
  | nil => simp [valueIn]
  | cons s rest ih =>
    rw [← List.singleton_append, valueIn_append, valueIn_singleton, Option.or_eq_none_iff, ih,
      List.singleton_append, List.forall_mem_cons, and_comm]

/-- The setting that decides gives the value. -/
theorem Decides.valueIn_eq {order : List σ} {s : σ} (h : Decides pairs key order s) :
    valueIn pairs key order = valueOf pairs key s := by
  obtain ⟨before, after, rfl, hs, hafter⟩ := h
  rw [← List.singleton_append, valueIn_append, valueIn_append, valueIn_eq_none_iff.2 hafter,
    valueIn_singleton, Option.none_or, Option.or_of_isSome (Option.isSome_iff_ne_none.2 hs)]

/-- Where some setting gives a value, one decides. -/
theorem exists_decides {order : List σ} {s : σ} (hs : s ∈ order)
    (hvalue : valueOf pairs key s ≠ none) : ∃ t ∈ order, Decides pairs key order t := by
  -- From the back: the last item decides unless it gives the key no value.
  induction order using List.reverseRecOn with
  | nil => exact absurd hs List.not_mem_nil
  | append_singleton order t ih =>
    by_cases ht : valueOf pairs key t = none
    · have hs' : s ∈ order := by
        rcases List.mem_append.1 hs with hs | hs
        · exact hs
        · rw [List.mem_singleton.1 hs] at hvalue
          exact absurd ht hvalue
      obtain ⟨u, hu, before, after, horder, hvalue, hafter⟩ := ih hs'
      refine ⟨u, List.mem_append_left _ hu, before, after ++ [t], ?_, hvalue, fun x hx => ?_⟩
      · rw [horder, List.append_assoc, List.cons_append]
      · rcases List.mem_append.1 hx with hx | hx
        · exact hafter x hx
        · rw [List.mem_singleton.1 hx]
          exact ht
    · exact ⟨t, List.mem_append_right _ List.mem_cons_self, order, [], rfl, ht,
        fun x hx => absurd hx List.not_mem_nil⟩

/-- **Two orders of the same settings** give a key the same value exactly when the settings
that decide it agree about it. -/
theorem valueIn_eq_iff {a b : List σ} (hmem : ∀ s, s ∈ a ↔ s ∈ b) :
    valueIn pairs key a = valueIn pairs key b ↔
      ∀ s t, Decides pairs key a s → Decides pairs key b t →
        valueOf pairs key s = valueOf pairs key t := by
  refine ⟨fun h s t hs ht => ?_, fun h => ?_⟩
  · rw [← hs.valueIn_eq, ← ht.valueIn_eq, h]
  · by_cases hnone : ∀ s ∈ a, valueOf pairs key s = none
    · have hnone' : ∀ s ∈ b, valueOf pairs key s = none := fun s hs => hnone s ((hmem s).2 hs)
      rw [valueIn_eq_none_iff.2 hnone, valueIn_eq_none_iff.2 hnone']
    · rw [not_forall] at hnone
      obtain ⟨u, hu⟩ := hnone
      rw [Classical.not_imp] at hu
      obtain ⟨s, -, hs⟩ := exists_decides hu.1 hu.2
      obtain ⟨t, -, ht⟩ := exists_decides ((hmem u).1 hu.1) hu.2
      rw [hs.valueIn_eq, ht.valueIn_eq, h s t hs ht]

/-- A list without repetitions keeps all that it has. -/
theorem eraseDups_of_nodup [DecidableEq σ] {order : List σ} (h : order.Nodup) :
    order.eraseDups = order := by
  induction order with
  | nil => rfl
  | cons s rest ih =>
    rw [List.nodup_cons] at h
    have hfilter : rest.filter (fun t => !t == s) = rest := by
      refine List.filter_eq_self.2 fun t ht => ?_
      have hne : t ≠ s := fun hts => h.1 (hts ▸ ht)
      simpa using hne
    rw [List.eraseDups_cons, hfilter, ih h.2]

variable (pairs key) in
/-- Whether it makes no difference to a key that a setting which comes more than once counts
where it first came and not where it last came. -/
def Settled [DecidableEq σ] (order : List σ) : Prop :=
  ∀ s t, Decides pairs key order s → Decides pairs key order.eraseDups t →
    valueOf pairs key s = valueOf pairs key t

theorem settled_iff [DecidableEq σ] {order : List σ} :
    Settled pairs key order ↔ valueIn pairs key order = valueIn pairs key order.eraseDups :=
  (valueIn_eq_iff fun _ => List.mem_eraseDups.symm).symm

/-- Where lists are put behind each other, the last one that gives a key a value decides
it. -/
theorem valueIn_flatMap {τ : Type} {f : τ → List σ} {before after : List τ} {x : τ}
    (hx : ∃ s ∈ f x, valueOf pairs key s ≠ none)
    (hafter : ∀ y ∈ after, ∀ s ∈ f y, valueOf pairs key s = none) :
    valueIn pairs key ((before ++ x :: after).flatMap f) = valueIn pairs key (f x) := by
  have hsome : valueIn pairs key (f x) ≠ none := by
    obtain ⟨s, hs, hvalue⟩ := hx
    exact fun h => hvalue (valueIn_eq_none_iff.1 h s hs)
  have hnone : valueIn pairs key (after.flatMap f) = none := by
    refine valueIn_eq_none_iff.2 fun s hs => ?_
    obtain ⟨y, hy, hs⟩ := List.mem_flatMap.1 hs
    exact hafter y hy s hs
  rw [List.flatMap_append, List.flatMap_cons, valueIn_append, valueIn_append, hnone,
    Option.none_or, Option.or_of_isSome (Option.isSome_iff_ne_none.2 hsome)]

end Order

end ReplicatedConfig
