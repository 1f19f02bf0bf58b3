import Mathlib.Logic.Function.Basic
import ReplicatedConfig.Proofs.Precedence.LoadOrder

/-!
# In which order a refresh puts the settings

A refresh merges the changes of watched keys into what was loaded, in the order of the watch
list.  A changed setting stays where it stands, one that is gone leaves its place, and a new
one comes last.  `Contents.refreshOrder` says where this leads when the store has become
another one: the names keep the places that the load gave them, and new ones stand behind
them in the order of the watch list.

The reason is `applyTo_changeAt`, one step for each watched name: with some names refreshed
and the others as they were loaded, merging the change of the next name refreshes this name
too.
-/

namespace ReplicatedConfig

/-! ## Putting and dropping entries -/

section Entries

variable {pipeline : Pipeline} {names : List Identity} {g : Identity → Option Setting} {i : Identity}

theorem filterMap_update_of_notMem (h : i ∉ names) (o : Option Setting) :
    names.filterMap (Function.update g i o) = names.filterMap g := by
  refine List.filterMap_congr fun j hj => ?_
  have hji : j ≠ i := fun hji => h (hji ▸ hj)
  exact Function.update_of_ne hji o g

/-- Dropping the entry of a name. -/
theorem drop_filterMap (hnames : names.Nodup) (hg : ∀ {j s}, g j = some s → s.identity = j) :
    Materialized.drop i ((names.filterMap g).map (.of pipeline)) =
      (names.filterMap (Function.update g i none)).map (.of pipeline) := by
  induction names with
  | nil => rfl
  | cons j rest ih =>
    rw [List.nodup_cons] at hnames
    by_cases hji : j = i
    · subst hji
      rw [List.filterMap_cons_none (Function.update_self j none g), filterMap_update_of_notMem hnames.1]
      cases hs : g j with
      | none =>
        rw [List.filterMap_cons_none hs, ih hnames.2, filterMap_update_of_notMem hnames.1]
      | some s =>
        have hname : (Entry.of pipeline s).identity = j := hg hs
        rw [List.filterMap_cons_some hs, List.map_cons, Materialized.drop, if_pos hname]
    · have hsame : Function.update g i none j = g j := Function.update_of_ne hji none g
      cases hs : g j with
      | none =>
        rw [List.filterMap_cons_none hs, List.filterMap_cons_none (hsame.trans hs), ih hnames.2]
      | some s =>
        have hname : (Entry.of pipeline s).identity ≠ i := fun h => hji ((hg hs).symm.trans h)
        rw [List.filterMap_cons_some hs, List.filterMap_cons_some (hsame.trans hs), List.map_cons,
          List.map_cons, Materialized.drop, if_neg hname, ih hnames.2]

/-- Putting the entry of a name that has one. -/
theorem put_filterMap {s : Setting} (hnames : names.Nodup)
    (hg : ∀ {j s}, g j = some s → s.identity = j) (hs : s.identity = i) (hi : i ∈ names)
    (hsome : g i ≠ none) :
    Materialized.put (.of pipeline s) ((names.filterMap g).map (.of pipeline)) =
      (names.filterMap (Function.update g i (some s))).map (.of pipeline) := by
  induction names with
  | nil => exact absurd hi List.not_mem_nil
  | cons j rest ih =>
    rw [List.nodup_cons] at hnames
    by_cases hji : j = i
    · subst hji
      obtain ⟨t, ht⟩ := Option.ne_none_iff_exists'.1 hsome
      have hname : (Entry.of pipeline t).identity = (Entry.of pipeline s).identity :=
        (hg ht).trans hs.symm
      rw [List.filterMap_cons_some ht, List.filterMap_cons_some (Function.update_self j (some s) g),
        filterMap_update_of_notMem hnames.1, List.map_cons, List.map_cons, Materialized.put,
        if_pos hname]
    · have hsame : Function.update g i (some s) j = g j := Function.update_of_ne hji (some s) g
      have hi := (List.mem_cons.1 hi).resolve_left (Ne.symm hji)
      cases ht : g j with
      | none =>
        rw [List.filterMap_cons_none ht, List.filterMap_cons_none (hsame.trans ht), ih hnames.2 hi]
      | some t =>
        have hname : (Entry.of pipeline t).identity ≠ (Entry.of pipeline s).identity := fun h =>
          hji ((hg ht).symm.trans (Eq.trans h hs))
        rw [List.filterMap_cons_some ht, List.filterMap_cons_some (hsame.trans ht), List.map_cons,
          List.map_cons, Materialized.put, if_neg hname, ih hnames.2 hi]

/-- Putting an entry under a name that has none. -/
theorem put_of_notMem {e : Entry} {es : List Entry} (h : ∀ f ∈ es, f.identity ≠ e.identity) :
    Materialized.put e es = es ++ [e] := by
  induction es with
  | nil => rfl
  | cons f rest ih =>
    rw [Materialized.put, if_neg (h f List.mem_cons_self), List.cons_append,
      ih fun g hg => h g (List.mem_cons_of_mem _ hg)]

end Entries

/-- The entries after a change, where the watched names are known. -/
def PointChange.applyTo (pipeline : Pipeline) (watched : List Identity) (entries : List Entry) :
    PointChange → List Entry
  | .upsert _ _ s => Materialized.put (.of pipeline s) entries
  | .remove place _ =>
    match watched[place]? with
    | some i => Materialized.drop i entries
    | none => entries

namespace Contents

/-! ## Refreshing one name after the other -/

/-- The change of a watched name from one store to another. -/
def changeAt (c c' : Contents) (place : Nat) (i : Identity) : Option PointChange :=
  match c'.find? i with
  | none => (c.find? i).map fun s => .remove place (some s.token)
  | some s =>
    if (c.find? i).map (·.token) = some s.token then none
    else some (.upsert place ((c.find? i).map (·.token)) s)

/-- What names stand for when some of them have been refreshed. -/
def mixed (c c' : Contents) (done : List Identity) (i : Identity) : Option Setting :=
  if i ∈ done then c'.find? i else c.find? i

/-- The names of a load, and behind them those that have been refreshed and were not
loaded. -/
def placed (c : Contents) (selectors : List Selector) (watched done : List Identity) :
    List Identity :=
  Reload.namesOf (c.loadOrder selectors watched) ++
    done.filter (· ∉ Reload.namesOf (c.loadOrder selectors watched))

/-- The settings in the order in which a refresh leaves them. -/
def refreshOrder (c c' : Contents) (selectors : List Selector) (watched : List Identity) :
    List Setting :=
  (c.placed selectors watched watched).filterMap c'.find?

variable {c c' : Contents} {selectors : List Selector} {watched done : List Identity}
  {i : Identity} {place : Nat} {pipeline : Pipeline}

theorem identity_of_mixed {j : Identity} {s : Setting} (h : c.mixed c' done j = some s) :
    s.identity = j := by
  unfold mixed at h
  split at h
  · exact c'.identity_of_find? h
  · exact c.identity_of_find? h

theorem mixed_concat (c c' : Contents) (done : List Identity) (i : Identity) :
    c.mixed c' (done ++ [i]) = Function.update (c.mixed c' done) i (c'.find? i) := by
  funext j
  by_cases hji : j = i
  · subst hji
    simp [mixed]
  · simp [mixed, hji]

theorem nodup_placed (hdone : done.Nodup) : (c.placed selectors watched done).Nodup := by
  refine List.nodup_append.2 ⟨c.nodup_loadOrder selectors watched, hdone.filter _, ?_⟩
  intro i hi j hj hij
  rw [hij] at hi
  exact of_decide_eq_true (List.mem_filter.1 hj).2 hi

theorem mem_placed_iff (hi : i ∈ watched) (hdone : i ∉ done) :
    i ∈ c.placed selectors watched done ↔ c.find? i ≠ none := by
  rw [placed, List.mem_append, mem_namesOf_loadOrder, Option.ne_none_iff_exists']
  constructor
  · rintro (⟨s, hs, -⟩ | hmem)
    · exact ⟨s, hs⟩
    · exact absurd (List.mem_filter.1 hmem).1 hdone
  · rintro ⟨s, hs⟩
    exact .inl ⟨s, hs, .inr hi⟩

theorem placed_concat (hi : i ∈ watched) :
    c.placed selectors watched (done ++ [i]) =
      c.placed selectors watched done ++ if c.find? i = none then [i] else [] := by
  rw [placed, placed, List.filter_append, List.append_assoc]
  congr 2
  by_cases hnone : c.find? i = none
  · have habsent : i ∉ Reload.namesOf (c.loadOrder selectors watched) := by
      intro hmem
      obtain ⟨s, hs, -⟩ := mem_namesOf_loadOrder.1 hmem
      rw [hnone] at hs
      cases hs
    rw [if_pos hnone, List.filter_cons_of_pos (by simpa using habsent), List.filter_nil]
  · have hthere : i ∈ Reload.namesOf (c.loadOrder selectors watched) := by
      obtain ⟨s, hs⟩ := Option.ne_none_iff_exists'.1 hnone
      exact mem_namesOf_loadOrder.2 ⟨s, hs, .inr hi⟩
    rw [if_neg hnone, List.filter_cons_of_neg (by simpa using hthere), List.filter_nil]

/-- The entries when some names have been refreshed. -/
def entriesAfter (c c' : Contents) (pipeline : Pipeline) (selectors : List Selector)
    (watched done : List Identity) : List Entry :=
  ((c.placed selectors watched done).filterMap (c.mixed c' done)).map (.of pipeline)

/-- A name that was not loaded comes last, if it is there now. -/
theorem applyTo_changeAt_of_none (hplace : watched[place]? = some i) (hnew : i ∉ done)
    (hold : c.find? i = none) :
    (c.changeAt c' place i).toList.foldl (PointChange.applyTo pipeline watched)
        (c.entriesAfter c' pipeline selectors watched done) =
      c.entriesAfter c' pipeline selectors watched (done ++ [i]) := by
  have hi : i ∈ watched := List.mem_of_getElem? hplace
  have hhere (o : Option Setting) : Function.update (c.mixed c' done) i o i = o :=
    Function.update_self i o (c.mixed c' done)
  have habsent : i ∉ c.placed selectors watched done := fun h => (mem_placed_iff hi hnew).1 h hold
  simp only [entriesAfter, mixed_concat, placed_concat hi]
  rw [if_pos hold, List.filterMap_append, filterMap_update_of_notMem habsent]
  cases hs : c'.find? i with
  | none =>
    simp only [changeAt, hs, hold, Option.map_none, Option.toList_none, List.foldl_nil]
    rw [List.filterMap_cons_none (hhere none), List.filterMap_nil, List.append_nil]
  | some s =>
    have hname := c'.identity_of_find? hs
    simp only [changeAt, hs, hold, Option.map_none, reduceCtorEq, if_false, Option.toList_some,
      List.foldl_cons, List.foldl_nil, PointChange.applyTo]
    rw [List.filterMap_cons_some (hhere (some s)), List.filterMap_nil, List.map_append,
      put_of_notMem]
    · rfl
    · intro e he hsame
      obtain ⟨t, ht, rfl⟩ := List.mem_map.1 he
      obtain ⟨j, hj, ht⟩ := List.mem_filterMap.1 ht
      have hji : j = i := (identity_of_mixed ht).symm.trans (Eq.trans hsame hname)
      exact habsent (hji ▸ hj)

/-- A name that was loaded keeps its place as long as it is there. -/
theorem applyTo_changeAt_of_some {t : Setting} (hplace : watched[place]? = some i)
    (hdone : done.Nodup) (hnew : i ∉ done) (hold : c.find? i = some t)
    (tokens : ∀ s, c'.find? i = some s → t.token = s.token → t = s) :
    (c.changeAt c' place i).toList.foldl (PointChange.applyTo pipeline watched)
        (c.entriesAfter c' pipeline selectors watched done) =
      c.entriesAfter c' pipeline selectors watched (done ++ [i]) := by
  have hi : i ∈ watched := List.mem_of_getElem? hplace
  have hnodup : (c.placed selectors watched done).Nodup := nodup_placed hdone
  have hmixed : c.mixed c' done i = some t := (if_neg hnew).trans hold
  have hthere : i ∈ c.placed selectors watched done :=
    (mem_placed_iff hi hnew).2 (by rw [hold]; exact Option.some_ne_none t)
  simp only [entriesAfter, mixed_concat, placed_concat hi]
  rw [if_neg (by rw [hold]; exact Option.some_ne_none t), List.append_nil]
  cases hs : c'.find? i with
  | none =>
    simp only [changeAt, hs, hold, Option.map_some, Option.toList_some, List.foldl_cons,
      List.foldl_nil, PointChange.applyTo, hplace]
    exact drop_filterMap hnodup identity_of_mixed
  | some s =>
    simp only [changeAt, hs, hold, Option.map_some, Option.some.injEq]
    split
    · next htoken =>
      have hsame : c.mixed c' done i = some s := by rw [hmixed, tokens s hs htoken]
      rw [Option.toList_none, List.foldl_nil, ← hsame, Function.update_eq_self]
    · exact put_filterMap hnodup identity_of_mixed (c'.identity_of_find? hs) hthere
        (by rw [hmixed]; exact Option.some_ne_none t)

variable (selectors pipeline) in
/-- **Merging the change of one more name** refreshes it, where a token stands for one
value. -/
theorem applyTo_changeAt (hplace : watched[place]? = some i) (hdone : (done ++ [i]).Nodup)
    (tokens : ∀ s s', c.find? i = some s → c'.find? i = some s' → s.token = s'.token → s = s') :
    (c.changeAt c' place i).toList.foldl (PointChange.applyTo pipeline watched)
        (c.entriesAfter c' pipeline selectors watched done) =
      c.entriesAfter c' pipeline selectors watched (done ++ [i]) := by
  obtain ⟨hdone, -, hdisjoint⟩ := List.nodup_append.1 hdone
  have hnew : i ∉ done := fun h => hdisjoint i h i List.mem_cons_self rfl
  cases hold : c.find? i with
  | none => exact applyTo_changeAt_of_none hplace hnew hold
  | some t => exact applyTo_changeAt_of_some hplace hdone hnew hold fun s => tokens t s hold

/-- What a change from one store to the other is like. -/
theorem of_changeAt {change : PointChange} (h : c.changeAt c' place i = some change) :
    change.place = place ∧ change.checked = (c.find? i).map (·.token) ∧
      ∀ place' checked s, change = .upsert place' checked s → c'.find? i = some s := by
  unfold changeAt at h
  cases hs : c'.find? i with
  | none =>
    rw [hs] at h
    obtain ⟨t, ht, rfl⟩ := Option.map_eq_some_iff.1 h
    rw [ht]
    exact ⟨rfl, rfl, nofun⟩
  | some s =>
    simp only [hs] at h
    split at h
    · cases h
    · cases h
      refine ⟨rfl, rfl, fun place' checked s' hs' => ?_⟩
      cases hs'
      rfl

/-- All changes of the first `n` watched names, in the order of the watch list. -/
def changes (c c' : Contents) (watched : List Identity) (n : Nat) : List PointChange :=
  (List.range n).filterMap fun place => (watched[place]?).bind (c.changeAt c' place)

theorem mem_changes {n : Nat} {change : PointChange} (h : change ∈ c.changes c' watched n) :
    ∃ place i, watched[place]? = some i ∧ c.changeAt c' place i = some change := by
  obtain ⟨place, -, hplace⟩ := List.mem_filterMap.1 h
  obtain ⟨i, hi, hchange⟩ := Option.bind_eq_some_iff.1 hplace
  exact ⟨place, i, hi, hchange⟩

/-- Every watched name changes once at most. -/
theorem nodup_changes (c c' : Contents) (watched : List Identity) (n : Nat) :
    ((c.changes c' watched n).map (·.place)).Nodup := by
  rw [changes, List.map_filterMap]
  refine List.Nodup.filterMap (fun j k l hj hk => ?_) List.nodup_range
  obtain ⟨change, hchange, rfl⟩ := Option.map_eq_some_iff.1 hj
  obtain ⟨change', hchange', hplace⟩ := Option.map_eq_some_iff.1 hk
  obtain ⟨i, -, hchange⟩ := Option.bind_eq_some_iff.1 hchange
  obtain ⟨i', -, hchange'⟩ := Option.bind_eq_some_iff.1 hchange'
  rw [← (of_changeAt hchange).1, ← (of_changeAt hchange').1, hplace]

variable (c' selectors pipeline) in
/-- **Merging all changes**, in the order of the watch list. -/
theorem foldl_changes (hwatched : watched.Nodup)
    (tokens : ∀ i ∈ watched, ∀ s s', c.find? i = some s → c'.find? i = some s' →
      s.token = s'.token → s = s') {n : Nat} (hn : n ≤ watched.length) :
    (c.changes c' watched n).foldl (PointChange.applyTo pipeline watched)
        (c.entriesAfter c' pipeline selectors watched []) =
      c.entriesAfter c' pipeline selectors watched (watched.take n) := by
  induction n with
  | zero => rfl
  | succ n ih =>
    have hlt : n < watched.length := hn
    have hplace : watched[n]? = some watched[n] := List.getElem?_eq_getElem hlt
    have htake : watched.take (n + 1) = watched.take n ++ [watched[n]] := by
      rw [List.take_succ_eq_append_getElem hlt]
    have hnodup : (watched.take n ++ [watched[n]]).Nodup := by
      rw [← htake]
      exact hwatched.sublist (List.take_sublist _ _)
    have hstep := applyTo_changeAt selectors pipeline hplace hnodup
      (tokens _ (List.getElem_mem hlt))
    have hlast : [n].filterMap (fun place => (watched[place]?).bind (c.changeAt c' place)) =
        (c.changeAt c' n watched[n]).toList := by
      rw [List.filterMap_cons, hplace, Option.bind_some, List.filterMap_nil]
      cases c.changeAt c' n watched[n] <;> rfl
    have hinit := ih (Nat.le_of_lt hlt)
    rw [changes] at hinit
    rw [changes, List.range_succ, List.filterMap_append, List.foldl_append, hinit, hlast, hstep, htake]

/-- Looking up the names of settings brings the settings. -/
theorem filterMap_namesOf (c : Contents) {settings : List Setting}
    (h : ∀ s ∈ settings, c.find? s.identity = some s) :
    (Reload.namesOf settings).filterMap c.find? = settings := by
  rw [Reload.namesOf, List.filterMap_map]
  have hself : settings.filterMap (c.find? ∘ Setting.identity) = settings.filterMap some :=
    List.filterMap_congr h
  rw [hself, List.filterMap_some]

/-- Looking up names brings settings with these names, in order. -/
theorem namesOf_filterMap_sublist (c : Contents) (names : List Identity) :
    (Reload.namesOf (names.filterMap c.find?)).Sublist names := by
  induction names with
  | nil => exact .slnil
  | cons i rest ih =>
    cases hs : c.find? i with
    | none =>
      rw [List.filterMap_cons_none hs]
      exact ih.cons i
    | some s =>
      rw [List.filterMap_cons_some hs, Reload.namesOf, List.map_cons, c.identity_of_find? hs]
      exact ih.cons_cons i

/-- Before anything has been refreshed the entries are those of the load. -/
theorem entriesAfter_nil (c c' : Contents) (pipeline : Pipeline) (selectors : List Selector)
    (watched : List Identity) :
    c.entriesAfter c' pipeline selectors watched [] =
      (c.loadOrder selectors watched).map (.of pipeline) := by
  have hmixed : c.mixed c' [] = c.find? := funext fun i => if_neg List.not_mem_nil
  rw [entriesAfter, placed, List.filter_nil, List.append_nil, hmixed,
    c.filterMap_namesOf fun s hs => (mem_loadOrder.1 hs).1]

/-- When every watched name has been refreshed, all names stand for what they stand for
now. -/
theorem entriesAfter_watched (differ : ∀ i, i ∉ watched → c'.find? i = c.find? i) :
    c.entriesAfter c' pipeline selectors watched watched =
      (c.refreshOrder c' selectors watched).map (.of pipeline) := by
  have hmixed : c.mixed c' watched = c'.find? := by
    funext i
    by_cases hi : i ∈ watched
    · exact if_pos hi
    · rw [mixed, if_neg hi, differ i hi]
  rw [entriesAfter, hmixed, refreshOrder]

/-- A refresh leaves the settings that a load would bring. -/
theorem mem_refreshOrder (differ : ∀ i, i ∉ watched → c'.find? i = c.find? i) {s : Setting} :
    s ∈ c.refreshOrder c' selectors watched ↔ s ∈ c'.loadOrder selectors watched := by
  have hplaced : s.identity ∈ c.placed selectors watched watched ↔
      s.identity ∈ Reload.namesOf (c.loadOrder selectors watched) ∨ s.identity ∈ watched := by
    rw [placed, List.mem_append, List.mem_filter, decide_eq_true_eq]
    by_cases h : s.identity ∈ Reload.namesOf (c.loadOrder selectors watched) <;> simp [h]
  have hmem : s ∈ c.refreshOrder c' selectors watched ↔
      c'.find? s.identity = some s ∧ s.identity ∈ c.placed selectors watched watched := by
    rw [refreshOrder, List.mem_filterMap]
    constructor
    · rintro ⟨i, hi, hs⟩
      rw [← c'.identity_of_find? hs] at hi hs
      exact ⟨hs, hi⟩
    · exact fun ⟨hs, hi⟩ => ⟨s.identity, hi, hs⟩
  rw [hmem, hplaced, mem_namesOf_loadOrder, mem_loadOrder]
  refine and_congr_right fun hs => ?_
  by_cases hi : s.identity ∈ watched
  · simp [hi]
  · rw [← differ _ hi, hs]
    simp [hi]

/-- Where no name is new and the others are listed as before, a refresh leaves the settings in
the order of a load. -/
theorem refreshOrder_of_sublist (differ : ∀ i, i ∉ watched → c'.find? i = c.find? i)
    (keeps : (Reload.namesOf (c'.loadOrder selectors watched)).Sublist
      (Reload.namesOf (c.loadOrder selectors watched))) :
    c.refreshOrder c' selectors watched = c'.loadOrder selectors watched := by
  have hnew : (watched.filter (· ∉ Reload.namesOf (c.loadOrder selectors watched))).filterMap
      c'.find? = [] := by
    refine List.filterMap_eq_nil_iff.2 fun i hi => ?_
    obtain ⟨hwatched, habsent⟩ := List.mem_filter.1 hi
    rw [Option.eq_none_iff_forall_ne_some]
    intro s hs
    exact of_decide_eq_true habsent (keeps.mem (mem_namesOf_loadOrder.2 ⟨s, hs, .inr hwatched⟩))
  have horder : c.refreshOrder c' selectors watched =
      (Reload.namesOf (c.loadOrder selectors watched)).filterMap c'.find? := by
    rw [refreshOrder, placed, List.filterMap_append, hnew, List.append_nil]
  have hsub : (Reload.namesOf (c.refreshOrder c' selectors watched)).Sublist
      (Reload.namesOf (c.loadOrder selectors watched)) := by
    rw [horder]
    exact c'.namesOf_filterMap_sublist _
  have hmem (i : Identity) : i ∈ Reload.namesOf (c.refreshOrder c' selectors watched) ↔
      i ∈ Reload.namesOf (c'.loadOrder selectors watched) := by
    simp only [Reload.namesOf, List.mem_map, mem_refreshOrder differ]
  -- Two parts of a list without repetitions that have the same members are the same part.
  have hnodup := c.nodup_loadOrder selectors watched
  have hperm := (List.perm_ext_iff_of_nodup (hnodup.sublist hsub) (hnodup.sublist keeps)).2 hmem
  have hnames := (hnodup.perm_iff_eq_of_sublist hsub keeps).1 hperm
  have hload (s : Setting) (hs : s ∈ c'.loadOrder selectors watched) : c'.find? s.identity = some s :=
    (mem_loadOrder.1 hs).1
  rw [← c'.filterMap_namesOf hload, ← hnames]
  exact (c'.filterMap_namesOf fun s hs => hload s ((mem_refreshOrder differ).1 hs)).symm

end Contents
end ReplicatedConfig
