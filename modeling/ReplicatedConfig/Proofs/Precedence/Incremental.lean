import ReplicatedConfig.Proofs.Precedence.RefreshOrder
import ReplicatedConfig.Proofs.Refresh.Findings
import ReplicatedConfig.Proofs.Refresh.Merging

/-!
# When a refresh publishes what a load would

A load from one store, followed by a refresh that meets another one, ends with settings in
the order that `Contents.refreshOrder` describes; a fresh load from the second store puts the
same settings in the order of `Contents.loadOrder`.  So the two agree about a key exactly
when the settings that decide it in the two orders do.

## How a pass gets there

`LoadedFrom` is what a load leaves behind: entries in load order, and for every watched name
the token of what is loaded.  A pass keeps it while it checks, and a check that has ended has
found the change of its name from the one store to the other (`changeOf?_of_finds`).
`Merging` is the invariant of the merge that follows: the changes still to come lead from the
entries as they are to those of the refreshed order.
-/

namespace ReplicatedConfig

/-! ## What a load leaves behind -/

/-- What a load leaves behind is still there. -/
structure Provider.SameLoaded (p q : Provider) : Prop where
  facts : q.watchList.facts = p.watchList.facts
  pipeline : q.pipeline = p.pipeline
  options : q.options = p.options
  materialized : q.materialized = p.materialized
  loaded : q.loaded = p.loaded
  current : q.publisher.current = p.publisher.current

/-- Nobody else loads or refreshes, and time goes on. -/
structure Provider.Undisturbed (p q : Provider) : Prop where
  watchList : q.watchList = p.watchList
  pipeline : q.pipeline = p.pipeline
  options : q.options = p.options
  materialized : q.materialized = p.materialized
  loaded : q.loaded = p.loaded
  current : q.publisher.current = p.publisher.current
  now : p.now ≤ q.now

namespace Provider

variable {p q : Provider}

theorem Undisturbed.refl (p : Provider) : p.Undisturbed p :=
  ⟨rfl, rfl, rfl, rfl, rfl, rfl, Nat.le_refl _⟩

theorem Undisturbed.sameLoaded (h : p.Undisturbed q) : p.SameLoaded q :=
  ⟨congrArg WatchList.facts h.watchList, h.pipeline, h.options, h.materialized, h.loaded, h.current⟩

theorem Checked.sameLoaded {places : List Nat} (h : p.Checked places q) : p.SameLoaded q :=
  ⟨h.facts, h.pipeline, h.options, h.materialized, h.loaded, congrArg Publisher.current h.publisher⟩

theorem SameLoaded.trans {r : Provider} (hq : p.SameLoaded q) (hr : q.SameLoaded r) :
    p.SameLoaded r where
  facts := hr.facts.trans hq.facts
  pipeline := hr.pipeline.trans hq.pipeline
  options := hr.options.trans hq.options
  materialized := hr.materialized.trans hq.materialized
  loaded := hr.loaded.trans hq.loaded
  current := hr.current.trans hq.current

theorem SameLoaded.identities (h : p.SameLoaded q) :
    q.watchList.identities = p.watchList.identities :=
  WatchList.identities_of_facts h.facts

theorem SameLoaded.sameRules (h : p.SameLoaded q) : p.SameRules q :=
  ⟨h.options, h.pipeline, h.identities⟩

end Provider

/-- The provider holds and shows what a load from a store brings. -/
structure LoadedFrom (c : Contents) (p : Provider) : Prop where
  loaded : p.loaded = true
  entries : p.materialized.entries =
    (c.loadOrder p.options.selectors p.watchList.identities).map (.of p.pipeline)
  tokens : ∀ f ∈ p.watchList.facts, f.2.2 = (c.find? f.1).map (·.token)
  values : p.publisher.current.values = p.materialized.values

variable {c c' : Contents} {answers answers' : Replies} {p q : Provider} {me : TaskId}
  {cancelled : Bool}

theorem LoadedFrom.of_sameLoaded (h : LoadedFrom c p) (hq : p.SameLoaded q) : LoadedFrom c q where
  loaded := hq.loaded.trans h.loaded
  entries := by rw [hq.materialized, hq.options, hq.identities, hq.pipeline, h.entries]
  tokens := by
    rw [hq.facts]
    exact h.tokens
  values := by rw [hq.current, hq.materialized, h.values]

/-- The token of a watched name is that of its setting. -/
theorem tokenOf_loadOrder {pipeline : Pipeline} {selectors : List Selector}
    {watched : List Identity} {i : Identity} (hi : i ∈ watched) :
    (Materialized.mk ((c.loadOrder selectors watched).map (.of pipeline))).tokenOf i =
      (c.find? i).map (·.token) := by
  have hfind : (Materialized.mk ((c.loadOrder selectors watched).map (.of pipeline))).find? i =
      ((c.loadOrder selectors watched).find? (·.identity = i)).map (.of pipeline) :=
    List.find?_map
  rw [Materialized.tokenOf, hfind, Contents.find?_loadOrder hi, Option.map_map]
  rfl

/-- **What a reload leaves behind** if it succeeds. -/
theorem loadedFrom_of_runs (serves : c.Serves answers)
    (accepts : ∀ i s, c.find? i = some s → ∃ pairs, p.pipeline.process s = .ok pairs)
    (run : (Reload.stepping me).Runs answers Provider.SameRules (Reload.begin me cancelled p)
      (q, .finished (.ok ()))) : LoadedFrom c q := by
  obtain ⟨p', entries, hrules, hloads, rfl⟩ := Reload.loads_of_runs run
  rw [← hrules.pipeline] at accepts
  have hentries := Reload.entries_of_loads serves accepts hloads
  have hcommit := Reload.sameRules_commit me p' entries
  refine ⟨rfl, ?_, ?_, Reload.values_commit me p' _ entries⟩
  · rw [hcommit.identities, hcommit.options, hcommit.pipeline]
    exact hentries
  · rw [Reload.facts_commit]
    intro f hf
    obtain ⟨g, hg, rfl⟩ := List.mem_map.1 hf
    have hi : g.1 ∈ p'.watchList.identities := by
      obtain ⟨w, hw, rfl⟩ := List.mem_map.1 hg
      exact List.mem_map_of_mem hw
    rw [hentries]
    exact tokenOf_loadOrder hi

/-! ## What the checks find -/

section Checks

variable (c) in
/-- What a check may read about the key at a place while a pass refreshes what was loaded. -/
def Contents.Watches (watched : List Identity) (place : Nat) (f : Watch.Fact) : Prop :=
  watched[place]? = some f.1 ∧ f.2.1 = false ∧ f.2.2 = (c.find? f.1).map (·.token)

variable {watched : List Identity} {place : Nat}

theorem Contents.names_of_watches {f g : Watch.Fact} (hf : c.Watches watched place f)
    (hg : c.Watches watched place g) : f.1 = g.1 :=
  Option.some.inj (hf.1.symm.trans hg.1)

/-- What a check of a name finds is its change from one store to the other. -/
theorem changeOf?_of_finds {i : Identity} {f : Finding} (serves : c'.Serves answers')
    (h : Check.Finds answers' i place ((c.find? i).map (·.token)) f) :
    Findings.changeOf? (.ok f) = c.changeAt c' place i := by
  cases h with
  | unchanged verdict =>
    obtain ⟨s, hs, htoken⟩ := Contents.verdict_eq_unchanged_iff.1 (serves.judges verdict).symm
    simp [Findings.changeOf?, Contents.changeAt, hs, htoken]
  | absent verdict unknown =>
    have hs := Contents.verdict_eq_missing_iff.1 (serves.judges verdict).symm
    rw [Option.map_eq_none_iff] at unknown
    simp [Findings.changeOf?, Contents.changeAt, hs, unknown]
  | removed verdict present =>
    have hs := Contents.verdict_eq_missing_iff.1 (serves.judges verdict).symm
    obtain ⟨token, htoken⟩ := Option.ne_none_iff_exists'.1 present
    obtain ⟨t, ht, rfl⟩ := Option.map_eq_some_iff.1 htoken
    simp [Findings.changeOf?, Contents.changeAt, hs, ht]
  | @read o verdict reply =>
    obtain ⟨s, hs, htoken⟩ := Contents.verdict_eq_modified_iff.1 (serves.judges verdict).symm
    rw [serves.reads reply, hs]
    simp [Findings.changeOf?, Check.findingOf, Contents.changeAt, hs, htoken]

/-- A check of a name never asks for a reload. -/
theorem not_finds_reloadAll {i : Identity} {known : Option Token} :
    ¬ Check.Finds answers' i place known .reloadAll := by
  generalize hf : Finding.reloadAll = f
  intro h
  cases h with
  | unchanged verdict => cases hf
  | absent verdict unknown => cases hf
  | removed verdict present => cases hf
  | @read o verdict reply =>
    unfold Check.findingOf at hf
    split at hf <;> split at hf <;> cases hf

theorem reloadAll_notMem {places : List Nat} {results : List (Except ProviderError Finding)}
    (h : List.Forall₂ (fun place r =>
      ∀ f, r = .ok f → Check.Found answers' (c.Watches watched) False place f) places results) :
    .ok .reloadAll ∉ results := by
  induction h with
  | nil => exact List.not_mem_nil
  | @cons place r places results hfound hrest ih =>
    intro hmem
    rcases List.mem_cons.1 hmem with hr | hmem
    · cases hfound .reloadAll hr.symm with
      | reloadAll fact differs reloads => cases reloads.2.1
      | finds fact finds single => exact not_finds_reloadAll finds
    · exact ih hmem

/-- Where no check failed, the checks have found all changes. -/
theorem changes_of_found {places : List Nat} {results : List (Except ProviderError Finding)}
    (serves : c'.Serves answers')
    (h : List.Forall₂ (fun place r =>
      ∀ f, r = .ok f → Check.Found answers' (c.Watches watched) False place f) places results)
    (hfailures : results.filterMap Findings.errorOf? = []) :
    results.filterMap Findings.changeOf? =
      places.filterMap fun place => (watched[place]?).bind (c.changeAt c' place) := by
  induction h with
  | nil => rfl
  | @cons place r places results hfound hrest ih =>
    cases r with
    | error e => simp [Findings.errorOf?] at hfailures
    | ok f =>
      have hchange : Findings.changeOf? (.ok f) = (watched[place]?).bind (c.changeAt c' place) := by
        cases hfound f rfl with
        | skipped skips => exact skips.elim
        | reloadAll fact differs reloads => cases reloads.2.1
        | @finds i role known f fact finds single =>
          obtain ⟨hi, -, hknown⟩ := fact
          simp only at hi hknown
          rw [hknown] at finds
          rw [hi, Option.bind_some, changeOf?_of_finds serves finds]
      have hrest := ih (by simpa [Findings.errorOf?] using hfailures)
      rw [List.filterMap_cons, List.filterMap_cons, hchange, hrest]

end Checks

/-! ## What the merge keeps -/

/-- Dropping a name that has no entry. -/
theorem Materialized.drop_of_find?_eq_none {m : Materialized} {i : Identity}
    (h : m.find? i = none) : drop i m.entries = m.entries := by
  obtain ⟨es⟩ := m
  have hes : ∀ e ∈ es, ¬ e.identity = i := by simpa [find?, List.find?_eq_none] using h
  clear h
  induction es with
  | nil => rfl
  | cons e rest ih =>
    rw [drop, if_neg (hes e List.mem_cons_self)]
    exact congrArg (e :: ·) (ih fun f hf => hes f (List.mem_cons_of_mem _ hf))

/-- The values that a refresh is to publish, with the rules of `base`. -/
def refreshedValues (c c' : Contents) (base : Provider) : Values :=
  (Materialized.mk ((c.refreshOrder c' base.options.selectors base.watchList.identities).map
    (.of base.pipeline))).values

/-- While changes are merged, those still to come lead to the entries in refreshed order. -/
structure Merging (c c' : Contents) (base p : Provider) (n : Nat) (changes : List PointChange) :
    Prop where
  rules : base.SameRules p
  leads : changes.foldl (PointChange.applyTo base.pipeline base.watchList.identities)
      p.materialized.entries =
    (c.refreshOrder c' base.options.selectors base.watchList.identities).map (.of base.pipeline)
  places : (changes.map (·.place)).Nodup
  tokens : ∀ change ∈ changes, p.tokenAt change.place = change.checked
  accepts : ∀ {place checked s}, .upsert place checked s ∈ changes →
    ∃ pairs, base.pipeline.process s = .ok pairs
  current : n = 0 → p.publisher.current.values = p.materialized.values

section Merge

variable {base : Provider} {n : Nat} {change : PointChange} {rest : List PointChange}

/-- The first change has been merged. -/
theorem Merging.tail (h : Merging c c' base p n (change :: rest)) {n' : Nat} (rules : p.SameRules q)
    (entries : q.materialized.entries =
      change.applyTo base.pipeline base.watchList.identities p.materialized.entries)
    (tokens : ∀ other, change.place ≠ other → q.tokenAt other = p.tokenAt other)
    (current : n' = 0 → q.publisher.current.values = q.materialized.values) :
    Merging c c' base q n' rest := by
  have hplaces := h.places
  rw [List.map_cons, List.nodup_cons] at hplaces
  refine ⟨h.rules.trans rules, ?_, hplaces.2, fun other hother => ?_, fun hmem => ?_, current⟩
  · rw [entries, ← h.leads, List.foldl_cons]
  · rw [tokens other.place fun heq => hplaces.1 (heq ▸ List.mem_map_of_mem hother)]
    exact h.tokens other (List.mem_cons_of_mem _ hother)
  · exact h.accepts (List.mem_cons_of_mem _ hmem)

/-- What a merge of all changes from one store to the other keeps. -/
def merging (c c' : Contents) (base : Provider) (me : TaskId) : Merge.Lasting me where
  before p fs changes := fs = [] → Merging c c' base p 0 changes
  after p n fs changes := fs = [] → Merging c c' base p n changes
  enters h _ := h
  stale h hstale hfs := absurd ((h hfs).tokens _ List.mem_cons_self) hstale
  absent := by
    intro p n fs place checked rest h _ habsent hfs
    have h := h hfs
    refine h.tail (p.sameRules_setToken place none) ?_ (fun other hne => p.tokenAt_setToken hne none)
      h.current
    rw [PointChange.applyTo, ← h.rules.identities, WatchList.getElem?_identities]
    cases hw : p.watchList.get? place with
    | none => rfl
    | some w => exact (Materialized.drop_of_find?_eq_none (habsent w hw)).symm
  removed := by
    intro p n fs place checked rest w h _ hw _ hfs
    have h := h hfs
    refine h.tail (p.sameRules_withoutSetting place _) ?_
      (fun other hne => p.tokenAt_setToken hne none) nofun
    rw [PointChange.applyTo, ← h.rules.identities, WatchList.getElem?_identities, hw]
    rfl
  upserted := by
    intro p n fs place checked s rest pairs h hpairs hfs
    have h := h hfs
    refine h.tail (p.sameRules_withEntry place _) ?_ (fun other hne => p.tokenAt_setToken hne _) nofun
    have hentry : Entry.of base.pipeline s = ⟨s, pairs⟩ := by
      rw [Entry.of, Pipeline.pairsOf, ← h.rules.pipeline, hpairs]
    rw [PointChange.applyTo, hentry]
    rfl
  refused := by
    intro p n fs place checked s rest e h he hfs
    split at hfs
    · have h := h hfs
      obtain ⟨pairs, hpairs⟩ := h.accepts List.mem_cons_self
      rw [← h.rules.pipeline, he] at hpairs
      cases hpairs
    · exact absurd hfs (List.append_ne_nil_of_right_ne_nil _ (List.cons_ne_nil _ _))

theorem Merging.of_undisturbed {changes : List PointChange} (h : Merging c c' base p n changes)
    (hq : p.Undisturbed q) : Merging c c' base q n changes := by
  have htoken (place : Nat) : q.tokenAt place = p.tokenAt place := by
    rw [Provider.tokenAt, Provider.tokenAt, hq.watchList]
  refine ⟨h.rules.trans ⟨hq.options, hq.pipeline, by rw [hq.watchList]⟩, ?_, h.places, ?_, h.accepts,
    fun hn => ?_⟩
  · rw [hq.materialized, h.leads]
  · exact fun change hchange => (htoken _).trans (h.tokens change hchange)
  · rw [hq.current, hq.materialized, h.current hn]

/-- With no change left, what is loaded is in refreshed order. -/
theorem Merging.values (h : Merging c c' base p n []) :
    p.materialized.values = refreshedValues c c' base :=
  congrArg (fun es => (Materialized.mk es).values) h.leads

end Merge

end ReplicatedConfig
