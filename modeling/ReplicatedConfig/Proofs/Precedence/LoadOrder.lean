import ReplicatedConfig.Proofs.Precedence.Order
import ReplicatedConfig.Proofs.Refresh.Contents

/-!
# In which order a load puts the settings

A load from a store that does not change puts first what the selectors list, each setting
once and where it was first listed, and behind that the settings of the watched names that
were not listed, in the order of the watch list.  `Contents.loadOrder` is this order, and
`get?_of_runs` says that it decides all keys: a reload publishes for every key the value of
the last pair for it in this order.
-/

namespace ReplicatedConfig

/-- The pairs of a setting that is not refused. -/
def Pipeline.pairsOf (pipeline : Pipeline) (s : Setting) : List Pair :=
  match pipeline.process s with
  | .ok pairs => pairs
  | .error _ => []

/-- The entry of a setting that is not refused. -/
def Entry.of (pipeline : Pipeline) (s : Setting) : Entry := ⟨s, pipeline.pairsOf s⟩

/-- An item more behind a list without its repetitions. -/
theorem eraseDups_concat {β : Type} [DecidableEq β] (xs : List β) (x : β) :
    (xs ++ [x]).eraseDups = if x ∈ xs then xs.eraseDups else xs.eraseDups ++ [x] := by
  rw [List.eraseDups_append]
  split
  · next h => simp [List.removeAll, h]
  · next h => simp [List.removeAll, h, List.eraseDups_cons]

theorem nodup_eraseDups {β : Type} [DecidableEq β] (xs : List β) : xs.eraseDups.Nodup := by
  induction xs using List.reverseRecOn with
  | nil => exact List.nodup_nil
  | append_singleton xs x ih =>
    rw [eraseDups_concat]
    split
    · exact ih
    · next h =>
      rw [← List.concat_eq_append]
      exact ih.concat fun hx => h (List.mem_eraseDups.1 hx)

namespace Contents

/-- The settings of names that have not been listed. -/
def unlisted (c : Contents) (listed : List Setting) (names : List Identity) : List Setting :=
  (names.eraseDups.filter (· ∉ Reload.namesOf listed)).filterMap c.find?

/-- The settings in the order in which a load puts them. -/
def loadOrder (c : Contents) (selectors : List Selector) (watched : List Identity) : List Setting :=
  (c.listed selectors).eraseDups ++ c.unlisted (c.listed selectors).eraseDups watched

variable {c : Contents} {selectors : List Selector} {watched : List Identity} {s : Setting}

theorem mem_unlisted {listed : List Setting} :
    s ∈ c.unlisted listed watched ↔
      c.find? s.identity = some s ∧ s.identity ∈ watched ∧ s.identity ∉ Reload.namesOf listed := by
  simp only [unlisted, List.mem_filterMap, List.mem_filter, List.mem_eraseDups, decide_eq_true_eq]
  refine ⟨?_, fun ⟨hs, hwatched, habsent⟩ => ⟨s.identity, ⟨hwatched, habsent⟩, hs⟩⟩
  rintro ⟨i, ⟨hwatched, habsent⟩, hs⟩
  rw [← c.identity_of_find? hs] at hwatched habsent hs
  exact ⟨hs, hwatched, habsent⟩

/-- What is loaded is what the store holds and a selector chooses or is watched. -/
theorem mem_loadOrder :
    s ∈ c.loadOrder selectors watched ↔ c.find? s.identity = some s ∧
      ((∃ sel ∈ selectors, sel.selects s = true) ∨ s.identity ∈ watched) := by
  rw [loadOrder, List.mem_append, List.mem_eraseDups, mem_listed, mem_unlisted]
  by_cases hs : c.find? s.identity = some s
  · simp only [hs, true_and]
    refine ⟨fun h => h.imp_right And.left, fun h => ?_⟩
    by_cases hsel : ∃ sel ∈ selectors, sel.selects s = true
    · exact .inl hsel
    · refine .inr ⟨h.resolve_left hsel, fun hname => hsel ?_⟩
      obtain ⟨t, ht, hname⟩ := List.mem_map.1 hname
      obtain ⟨ht, hselects⟩ := mem_listed.1 (List.mem_eraseDups.1 ht)
      rw [hname, hs] at ht
      cases ht
      exact hselects
  · simp only [hs, false_and, or_false]

/-- No name is loaded twice. -/
theorem nodup_loadOrder (c : Contents) (selectors : List Selector) (watched : List Identity) :
    (Reload.namesOf (c.loadOrder selectors watched)).Nodup := by
  rw [loadOrder, Reload.namesOf, List.map_append, List.nodup_append]
  refine ⟨?_, ?_, ?_⟩
  · refine List.Nodup.map_on (fun s hs t ht hname => ?_) (nodup_eraseDups _)
    have hs := (mem_listed.1 (List.mem_eraseDups.1 hs)).1
    have ht := (mem_listed.1 (List.mem_eraseDups.1 ht)).1
    rw [hname, ht] at hs
    exact (Option.some.inj hs).symm
  · rw [unlisted, List.map_filterMap]
    refine List.Nodup.filterMap (fun i j k hi hj => ?_) ((nodup_eraseDups watched).filter _)
    obtain ⟨s, hs, rfl⟩ := Option.map_eq_some_iff.1 hi
    obtain ⟨t, ht, hname⟩ := Option.map_eq_some_iff.1 hj
    rw [← c.identity_of_find? hs, ← c.identity_of_find? ht, hname]
  · intro i hi j hj hij
    obtain ⟨s, hs, rfl⟩ := List.mem_map.1 hj
    rw [hij] at hi
    exact (mem_unlisted.1 hs).2.2 hi

/-- A watched name stands for what it stands for in the store. -/
theorem find?_loadOrder {i : Identity} (hi : i ∈ watched) :
    (c.loadOrder selectors watched).find? (·.identity = i) = c.find? i := by
  cases hs : c.find? i with
  | none =>
    refine List.find?_eq_none.2 fun s hs' hname => ?_
    have hname : s.identity = i := of_decide_eq_true hname
    have hfind := (mem_loadOrder.1 hs').1
    rw [hname, hs] at hfind
    cases hfind
  | some s =>
    have hname := c.identity_of_find? hs
    have hmem : s ∈ c.loadOrder selectors watched :=
      mem_loadOrder.2 ⟨by rw [hname, hs], .inr (by rw [hname]; exact hi)⟩
    have hfind := find?_of_nodup (c.nodup_loadOrder selectors watched) hmem
    rwa [hname] at hfind

/-- The names that are loaded are those of settings that a selector chooses or that are
watched. -/
theorem mem_namesOf_loadOrder {i : Identity} :
    i ∈ Reload.namesOf (c.loadOrder selectors watched) ↔ ∃ s, c.find? i = some s ∧
      ((∃ sel ∈ selectors, sel.selects s = true) ∨ i ∈ watched) := by
  rw [Reload.namesOf, List.mem_map]
  constructor
  · rintro ⟨s, hs, rfl⟩
    exact ⟨s, mem_loadOrder.1 hs⟩
  · rintro ⟨s, hs, hwhy⟩
    have hname := c.identity_of_find? hs
    refine ⟨s, mem_loadOrder.2 ⟨by rw [hname, hs], ?_⟩, hname⟩
    rwa [hname]

end Contents

namespace Reload

/-! ## What a reload loads -/

/-- Where nothing is refused, every setting gets the entry of its own pairs. -/
theorem entriesFor_of_accepts {pipeline : Pipeline} {raw : List Setting} (previous : List Entry)
    (accepts : ∀ s ∈ raw, ∃ pairs, pipeline.process s = .ok pairs) :
    entriesFor pipeline previous raw = raw.map fun s => ⟨s, pipeline.pairsOf s⟩ := by
  induction raw with
  | nil => rfl
  | cons s rest ih =>
    obtain ⟨pairs, hpairs⟩ := accepts s List.mem_cons_self
    rw [entriesFor, hpairs, List.map_cons, Pipeline.pairsOf, hpairs,
      ← ih fun t ht => accepts t (List.mem_cons_of_mem _ ht)]

/-- Where a name stands for one setting only, gathering keeps each setting where it was
first listed. -/
theorem gather_eq_eraseDups {listed : List Setting}
    (same : ∀ s ∈ listed, ∀ t ∈ listed, s.identity = t.identity → s = t) :
    gather listed = listed.eraseDups := by
  induction listed using List.reverseRecOn with
  | nil => rfl
  | append_singleton rest s ih =>
    have hrest := ih fun t ht u hu =>
      same t (List.mem_append_left _ ht) u (List.mem_append_left _ hu)
    have hlast (t : Setting) (ht : t ∈ rest) (h : t.identity = s.identity) : t = s :=
      same t (List.mem_append_left _ ht) s (List.mem_append_right _ List.mem_cons_self) h
    rw [gather_concat, hrest, gatherOne, eraseDups_concat]
    by_cases hs : s ∈ rest
    · have hany : rest.eraseDups.any (·.identity = s.identity) = true :=
        List.any_eq_true.2 ⟨s, List.mem_eraseDups.2 hs, decide_eq_true rfl⟩
      have hkeep : ∀ r ∈ rest.eraseDups, (if r.identity = s.identity then s else r) = r := by
        intro r hr
        split
        · next hname => exact (hlast r (List.mem_eraseDups.1 hr) hname).symm
        · rfl
      have hsame : (rest.eraseDups.map fun r => if r.identity = s.identity then s else r) =
          rest.eraseDups := (List.map_congr_left hkeep).trans (List.map_id' _)
      rw [if_pos hany, if_pos hs, hsame]
    · have hany : ¬ rest.eraseDups.any (·.identity = s.identity) = true := by
        intro hany
        obtain ⟨t, ht, hname⟩ := List.any_eq_true.1 hany
        have ht := List.mem_eraseDups.1 ht
        rw [hlast t ht (of_decide_eq_true hname)] at ht
        exact hs ht
      rw [if_neg hany, if_neg hs]

/-- Settings of one store that have one name are the same. -/
theorem same_of_listed (c : Contents) (selectors : List Selector) :
    ∀ s ∈ c.listed selectors, ∀ t ∈ c.listed selectors, s.identity = t.identity → s = t := by
  intro s hs t ht hname
  have hs := (Contents.mem_listed.1 hs).1
  have ht := (Contents.mem_listed.1 ht).1
  rw [hname, ht] at hs
  exact (Option.some.inj hs).symm

/-- What is read behind a listing. -/
theorem Fetched.eq_append {c : Contents} {answers : Replies} (serves : c.Serves answers)
    {listed raw : List Setting} {is : List Identity} (h : Fetched answers listed is raw) :
    raw = listed ++ c.unlisted listed is := by
  induction h with
  | start => exact (List.append_nil listed).symm
  | @known is raw i before there ih =>
    rw [ih, Contents.unlisted, Contents.unlisted, eraseDups_concat]
    split
    · rfl
    · next hnew =>
      rw [List.filter_append, List.filterMap_append]
      have hlisted : i ∈ namesOf listed := by
        rw [ih, namesOf, List.map_append, List.mem_append] at there
        refine there.resolve_right fun hmem => hnew ?_
        obtain ⟨s, hs, rfl⟩ := List.mem_map.1 hmem
        exact (Contents.mem_unlisted.1 hs).2.1
      rw [List.filter_cons_of_neg (by simpa using hlisted), List.filter_nil, List.filterMap_nil,
        List.append_nil]
  | @read is raw i o before absent reply ih =>
    rw [serves.reads reply, Contents.unlisted, eraseDups_concat]
    have hlisted : i ∉ namesOf listed := by
      intro hmem
      rw [ih, namesOf, List.map_append, List.mem_append] at absent
      exact absent (.inl hmem)
    split
    · next hold =>
      have hnone : c.find? i = none := by
        rw [Option.eq_none_iff_forall_ne_some]
        intro s hs
        have hname := c.identity_of_find? hs
        refine absent (List.mem_map.2 ⟨s, ?_, hname⟩)
        rw [ih]
        refine List.mem_append_right _ (Contents.mem_unlisted.2 ?_)
        rw [hname]
        exact ⟨hs, hold, hlisted⟩
      rw [hnone, Option.toList_none, List.append_nil, ih, Contents.unlisted]
    · rw [List.filter_append, List.filterMap_append,
        List.filter_cons_of_pos (by simpa using hlisted), List.filter_nil, ih, Contents.unlisted,
        List.append_assoc]
      cases hs : c.find? i with
      | none => rw [List.filterMap_cons_none hs, List.filterMap_nil, Option.toList_none]
      | some s => rw [List.filterMap_cons_some hs, List.filterMap_nil, Option.toList_some]

variable {c : Contents} {answers : Replies} {p q : Provider} {me : TaskId} {cancelled : Bool}

/-- What a reload gathers is what is to be loaded, in load order. -/
theorem Gathers.eq_loadOrder {raw : List Setting} (serves : c.Serves answers)
    (h : Gathers answers p raw) :
    raw = c.loadOrder p.options.selectors p.watchList.identities := by
  obtain ⟨listed, hlisted, hraw⟩ := h
  have hgather := gather_eq_eraseDups (same_of_listed c p.options.selectors)
  rw [serves.brings hlisted, hgather] at hraw
  exact hraw.eq_append serves

/-- What is loaded where no adapter refuses. -/
theorem entries_of_loads {entries : List Entry} (serves : c.Serves answers)
    (accepts : ∀ i s, c.find? i = some s → ∃ pairs, p.pipeline.process s = .ok pairs)
    (loads : Loads answers p entries) :
    entries = (c.loadOrder p.options.selectors p.watchList.identities).map (.of p.pipeline) := by
  obtain ⟨raw, previous, hraw, -, rfl⟩ := loads
  rw [hraw.eq_loadOrder serves]
  refine entriesFor_of_accepts previous fun s hs => accepts s.identity s ?_
  exact (Contents.mem_loadOrder.1 hs).1

/-- The values of entries are decided by the order of their settings. -/
theorem get?_values_map (pipeline : Pipeline) (order : List Setting) (key : String) :
    (Materialized.mk (order.map (.of pipeline))).values.get? key =
      Order.valueIn pipeline.pairsOf key order := by
  show (Values.ofPairs ((order.map (Entry.of pipeline)).flatMap (·.pairs))).get? key = _
  rw [Values.get?_ofPairs, List.flatMap_map]
  rfl

/-- **What a reload publishes**, key by key. -/
theorem get?_of_runs (serves : c.Serves answers)
    (accepts : ∀ i s, c.find? i = some s → ∃ pairs, p.pipeline.process s = .ok pairs)
    (run : (stepping me).Runs answers Provider.SameRules (begin me cancelled p)
      (q, .finished (.ok ()))) (key : String) :
    q.publisher.current.values.get? key = Order.valueIn p.pipeline.pairsOf key
      (c.loadOrder p.options.selectors p.watchList.identities) := by
  obtain ⟨p', entries, hrules, hloads, rfl⟩ := loads_of_runs run
  rw [← hrules.pipeline] at accepts
  have hentries := entries_of_loads serves accepts hloads
  rw [← hrules.pipeline, ← hrules.options, ← hrules.identities, ← get?_values_map, ← hentries,
    values_commit]

end Reload
end ReplicatedConfig
