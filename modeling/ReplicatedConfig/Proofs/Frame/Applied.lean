import Mathlib.Logic.Function.Basic
import ReplicatedConfig.Proofs.Coherence.State
import ReplicatedConfig.Proofs.History.Changes
import ReplicatedConfig.Proofs.Precedence.Order

/-!
# Keys that applied changes leave alone

A merge applies some of its changes and passes over the others.  `Provider.Merged` lists what may
become of each change, one rule for each, and keeps the changes that were applied in a list of
their own.  A change may be about a name or a place that an earlier one was about; every rule speaks
of entries and tokens as the changes before have left them.

## The values of other keys

All values are computed again behind a merge, from entries of which some have been replaced where
they stand, some have gone and some have come at the end.  Entries shadow each other, so a key may
take its value from an entry that no change is about.  The value of a key is that of the last entry
which gives it one.  So it is enough that none of the entries which come or go does
(`valueIn_put`, `valueIn_drop`).

The entries that go are not always those from the beginning: a change may replace what an earlier
change has brought.  That is why `Merged.frame` has a second part.  An entry that gives the key a
value has been there from the beginning, so the condition on the key can be on the entries of the
beginning.

## Changes that come to nothing

A change can be stale or refused, or about a name under which nothing is loaded.  The last of these
forgets the token of its place.  Where every token that is known belongs to an entry
(`Provider.Rooted`) there is none to forget, and a merge that applies nothing leaves everything as it
was (`Merged.of_nil`).
-/

namespace ReplicatedConfig

/-! ## Values of a key -/

/-- The keys that an entry gives a value. -/
def Entry.keys (e : Entry) : List String := e.pairs.map (·.1)

theorem Values.last?_eq_none_iff {key : String} {ps : List Pair} :
    last? key ps = none ↔ key ∉ ps.map (·.1) := by
  rw [last?, List.lookup_eq_none_iff]
  simp only [List.mem_reverse, List.mem_map, not_exists, not_and]
  exact forall₂_congr fun _ _ => bne_iff_ne.trans ne_comm

namespace Order

theorem valueIn_cons {σ : Type} {pairs : σ → List Pair} {key : String} (s : σ) (order : List σ) :
    valueIn pairs key (s :: order) = (valueIn pairs key order).or (valueOf pairs key s) := by
  rw [← List.singleton_append, valueIn_append, valueIn_singleton]

end Order

namespace Materialized

variable {key : String} {e f : Entry} {es : List Entry} {i : Identity}

theorem get?_values (m : Materialized) (key : String) :
    m.values.get? key = Order.valueIn Entry.pairs key m.entries :=
  Values.get?_ofPairs m.pairs key

theorem valueOf_eq_none (h : key ∉ e.keys) : Order.valueOf Entry.pairs key e = none :=
  Values.last?_eq_none_iff.2 h

/-- **An entry is put in its place.**  This leaves a key alone to which neither it nor the entry
that it replaces gives a value. -/
theorem valueIn_put (hnew : key ∉ e.keys)
    (hold : ∀ f ∈ es, f.identity = e.identity → key ∉ f.keys) :
    Order.valueIn Entry.pairs key (put e es) = Order.valueIn Entry.pairs key es := by
  induction es with
  | nil =>
    rw [put, Order.valueIn_singleton, valueOf_eq_none hnew]
    rfl
  | cons f rest ih =>
    obtain ⟨hf, hrest⟩ := List.forall_mem_cons.1 hold
    rw [put]
    split
    · next hname =>
      rw [Order.valueIn_cons, Order.valueIn_cons, valueOf_eq_none hnew, valueOf_eq_none (hf hname)]
    · rw [Order.valueIn_cons, Order.valueIn_cons, ih hrest]

/-- **An entry goes.**  This leaves a key alone to which it gives no value. -/
theorem valueIn_drop (hold : ∀ f ∈ es, f.identity = i → key ∉ f.keys) :
    Order.valueIn Entry.pairs key (drop i es) = Order.valueIn Entry.pairs key es := by
  induction es with
  | nil => rfl
  | cons f rest ih =>
    obtain ⟨hf, hrest⟩ := List.forall_mem_cons.1 hold
    rw [drop]
    split
    · next hname => rw [Order.valueIn_cons, valueOf_eq_none (hf hname), Option.or_none]
    · rw [Order.valueIn_cons, Order.valueIn_cons, ih hrest]

end Materialized

/-! ## What becomes of changes -/

/-- The name of the entry that comes or goes with a change. -/
def PointChange.name? (names : List Identity) : PointChange → Option Identity
  | .upsert _ _ s => some s.identity
  | .remove place _ => names[place]?

namespace Provider

/-- The pairs that the adapters give for what a change brings. -/
def newPairs (b : Provider) : PointChange → List Pair
  | .upsert _ _ s =>
    match b.pipeline.process s with
    | .ok pairs => pairs
    | .error _ => []
  | .remove .. => []

/-- A change touches a key: a value for it comes from what is loaded under the name of the change,
or from what the change brings. -/
def Touches (b : Provider) (key : String) (c : PointChange) : Prop :=
  (∃ e ∈ b.materialized.entries,
    c.name? b.watchList.identities = some e.identity ∧ key ∈ e.keys) ∨
  key ∈ (b.newPairs c).map (·.1)

instance (b : Provider) (key : String) (c : PointChange) : Decidable (b.Touches key c) :=
  inferInstanceAs (Decidable (_ ∨ _))

/-- A change would be applied to what is loaded now: it is current, and it brings a setting that is
accepted or takes away one that is there. -/
def Applies (b : Provider) : PointChange → Prop
  | .upsert place checked s =>
    b.tokenAt place = checked ∧ ∃ pairs, b.pipeline.process s = .ok pairs
  | .remove place checked =>
    b.tokenAt place = checked ∧ ∃ i ∈ b.materialized.names, b.watchList.identities[place]? = some i

/-- What becomes of changes that are merged at `b` one after the other: which of them are applied,
and the entries and tokens that there are then. -/
inductive Merged (b : Provider) :
    List PointChange → List PointChange → Materialized → (Nat → Option Token) → Prop where
  | start : Merged b [] [] b.materialized b.tokenAt
  | stale {done applied : List PointChange} {m : Materialized} {tokens : Nat → Option Token}
      {c : PointChange} (before : Merged b done applied m tokens)
      (stale : tokens c.place ≠ c.checked) : Merged b (done ++ [c]) applied m tokens
  | refused {done applied : List PointChange} {m : Materialized} {tokens : Nat → Option Token}
      {place : Nat} {checked : Option Token} {s : Setting} {e : AdapterError}
      (before : Merged b done applied m tokens) (refused : b.pipeline.process s = .error e) :
      Merged b (done ++ [.upsert place checked s]) applied m tokens
  | absent {done applied : List PointChange} {m : Materialized} {tokens : Nat → Option Token}
      {place : Nat} {i : Identity} (before : Merged b done applied m tokens)
      (name : b.watchList.identities[place]? = some i) (absent : i ∉ m.names) :
      Merged b (done ++ [.remove place (tokens place)]) applied m (Function.update tokens place none)
  | removed {done applied : List PointChange} {m : Materialized} {tokens : Nat → Option Token}
      {place : Nat} {i : Identity} (before : Merged b done applied m tokens)
      (name : b.watchList.identities[place]? = some i) (there : i ∈ m.names) :
      Merged b (done ++ [.remove place (tokens place)]) (applied ++ [.remove place (tokens place)])
        (m.remove i) (Function.update tokens place none)
  | upserted {done applied : List PointChange} {m : Materialized} {tokens : Nat → Option Token}
      {place : Nat} {s : Setting} {pairs : List Pair} (before : Merged b done applied m tokens)
      (accepted : b.pipeline.process s = .ok pairs) :
      Merged b (done ++ [.upsert place (tokens place) s])
        (applied ++ [.upsert place (tokens place) s]) (m.upsert ⟨s, pairs⟩)
        (Function.update tokens place (some s.token))

/-- A token is known only for what is loaded. -/
def Rooted (p : Provider) : Prop :=
  ∀ place i, p.watchList.identities[place]? = some i → i ∉ p.materialized.names →
    p.tokenAt place = none

namespace Merged

variable {b : Provider} {done applied : List PointChange} {m : Materialized}
  {tokens : Nat → Option Token} {key : String}

/-- Changes are applied in their order. -/
theorem sublist (h : b.Merged done applied m tokens) : applied.Sublist done := by
  induction h with
  | start => exact .slnil
  | stale _ _ ih => exact ih.trans (List.sublist_append_left _ _)
  | refused _ _ ih => exact ih.trans (List.sublist_append_left _ _)
  | absent _ _ _ ih => exact ih.trans (List.sublist_append_left _ _)
  | removed _ _ _ ih => exact ih.append (List.Sublist.refl _)
  | upserted _ _ ih => exact ih.append (List.Sublist.refl _)

/-- **Frame.**  A key that no applied change touches keeps its value, and the entries that give it
one have been there from the beginning. -/
theorem frame (h : b.Merged done applied m tokens) (untouched : ∀ c ∈ applied, ¬ b.Touches key c) :
    m.values.get? key = b.materialized.values.get? key ∧
      ∀ e ∈ m.entries, key ∈ e.keys → e ∈ b.materialized.entries := by
  simp only [Materialized.get?_values]
  induction h with
  | start => exact ⟨rfl, fun _ he _ => he⟩
  | stale _ _ ih => exact ih untouched
  | refused _ _ ih => exact ih untouched
  | absent _ _ _ ih => exact ih untouched
  | @removed _ applied m _ place i _ name _ ih =>
    have hchange := untouched _ List.mem_concat_self
    obtain ⟨hvalue, hentries⟩ := ih fun c hc => untouched c (List.mem_append_left _ hc)
    have hold : ∀ f ∈ m.entries, f.identity = i → key ∉ f.keys := by
      rintro f hf rfl hkey
      exact hchange (.inl ⟨f, hentries f hf hkey, name, hkey⟩)
    refine ⟨(Materialized.valueIn_drop hold).trans hvalue, fun f hf => hentries f ?_⟩
    exact (Materialized.drop_sublist i m.entries).subset hf
  | @upserted _ applied m _ place s pairs _ accepted ih =>
    have hchange := untouched _ List.mem_concat_self
    obtain ⟨hvalue, hentries⟩ := ih fun c hc => untouched c (List.mem_append_left _ hc)
    have hnew : key ∉ Entry.keys ⟨s, pairs⟩ := by
      rw [Touches, newPairs, accepted, not_or] at hchange
      exact hchange.2
    have hold : ∀ f ∈ m.entries, f.identity = s.identity → key ∉ f.keys := by
      intro f hf hname hkey
      exact hchange (.inl ⟨f, hentries f hf hkey, congrArg some hname.symm, hkey⟩)
    refine ⟨(Materialized.valueIn_put hnew hold).trans hvalue, fun f hf hkey => ?_⟩
    rcases Materialized.mem_of_mem_put hf with rfl | hf
    · exact absurd hkey hnew
    · exact hentries f hf hkey

/-- Where nothing is applied, nothing changes, and nothing was to be applied. -/
theorem of_nil (rooted : b.Rooted) (h : b.Merged done [] m tokens) :
    m = b.materialized ∧ tokens = b.tokenAt ∧ ∀ c ∈ done, ¬ b.Applies c := by
  have hsnoc {done : List PointChange} {c : PointChange} (hdone : ∀ c ∈ done, ¬ b.Applies c)
      (hc : ¬ b.Applies c) : ∀ c' ∈ done ++ [c], ¬ b.Applies c' :=
    List.forall_mem_append.2 ⟨hdone, List.forall_mem_singleton.2 hc⟩
  have hne (applied : List PointChange) (c : PointChange) : applied ++ [c] ≠ [] :=
    List.append_ne_nil_of_right_ne_nil _ (List.cons_ne_nil _ _)
  generalize happlied : ([] : List PointChange) = applied at h
  induction h with
  | start => exact ⟨rfl, rfl, fun _ hc => absurd hc List.not_mem_nil⟩
  | @stale _ _ _ _ c _ stale ih =>
    obtain ⟨rfl, rfl, hdone⟩ := ih happlied
    refine ⟨rfl, rfl, hsnoc hdone fun happlies => stale ?_⟩
    cases c with
    | upsert place checked s => exact happlies.1
    | remove place checked => exact happlies.1
  | refused _ refused ih =>
    obtain ⟨rfl, rfl, hdone⟩ := ih happlied
    refine ⟨rfl, rfl, hsnoc hdone ?_⟩
    rintro ⟨-, pairs, hpairs⟩
    cases refused.symm.trans hpairs
  | @absent _ _ _ _ place i _ name absent ih =>
    obtain ⟨rfl, rfl, hdone⟩ := ih happlied
    refine ⟨rfl, ?_, hsnoc hdone ?_⟩
    · rw [← rooted place i name absent, Function.update_eq_self]
    · rintro ⟨-, j, hj, hname⟩
      cases name.symm.trans hname
      exact absent hj
  | removed _ _ _ _ => exact absurd happlied.symm (hne _ _)
  | upserted _ _ _ => exact absurd happlied.symm (hne _ _)

/-- **Whether anything is applied** can be told from what is loaded at the beginning. -/
theorem eq_nil_iff (rooted : b.Rooted) (h : b.Merged done applied m tokens) :
    applied = [] ↔ ∀ c ∈ done, ¬ b.Applies c := by
  refine ⟨fun happlied => ?_, fun hdone => ?_⟩
  · subst happlied
    exact (h.of_nil rooted).2.2
  · induction h with
    | start => rfl
    | stale _ _ ih => exact ih fun c hc => hdone c (List.mem_append_left _ hc)
    | refused _ _ ih => exact ih fun c hc => hdone c (List.mem_append_left _ hc)
    | absent _ _ _ ih => exact ih fun c hc => hdone c (List.mem_append_left _ hc)
    | removed before name there ih =>
      obtain rfl := ih fun c hc => hdone c (List.mem_append_left _ hc)
      obtain ⟨rfl, rfl, -⟩ := before.of_nil rooted
      exact absurd ⟨rfl, _, there, name⟩ (hdone _ List.mem_concat_self)
    | upserted before accepted ih =>
      obtain rfl := ih fun c hc => hdone c (List.mem_append_left _ hc)
      obtain ⟨rfl, rfl, -⟩ := before.of_nil rooted
      exact absurd ⟨rfl, _, accepted⟩ (hdone _ List.mem_concat_self)

end Merged
end Provider
end ReplicatedConfig
