import ReplicatedConfig.Proofs.History.Monotone
import ReplicatedConfig.Proofs.Precedence.Incremental

/-!
# What a pass brings up to date

A pass that succeeds while nobody else loads anything, and for which every watched name is due,
leaves what the store has under every watched name, and nothing where the store has nothing.
There is one exception.  A check compares the store with the token that is known, and where none
is known and the store has nothing it finds no change.  But a name that is loaded may have no
token: one that was selected by a load and came to be watched only later.  When its setting goes
away, checks do not see it, and it stays loaded and published until the next full load
(`setting?_of_pass`, `setting?_of_pass_late`).

Nothing else is needed of the past than that the store has used no token for two settings of a
name.  Then a token that the store still has stands for what is loaded.

What the checks find, side by side, is what is missing (`Contents.Covers`).  The merge follows the
pattern of every merge: `Mending` is what holds of the changes that are still to come and of the
names that have none.
-/

namespace ReplicatedConfig

variable {c : Contents} {answers : Replies} {base p q : Provider} {me : TaskId} {cancelled : Bool}
  {place : Nat} {i : Identity}

/-! ## What is to be loaded -/

/-- What a pass that merges changes leaves under the name at a place. -/
def Contents.leftAt (c : Contents) (base : Provider) (place : Nat) (i : Identity) :
    Option Setting :=
  if base.tokenAt place = none ∧ c.find? i = none then base.setting? i else c.find? i

/-- What a pass needs to bring everything up to date. -/
structure Contents.Refreshes (c : Contents) (base : Provider) : Prop where
  watched : base.watchList.identities.Nodup
  entries : base.materialized.names.Nodup
  due : ∀ w ∈ base.watchList.watches, w.held = false ∧ w.Due base.now
  accepts : ∀ i ∈ base.watchList.identities, ∀ s, c.find? i = some s →
    ∃ pairs, base.pipeline.process s = .ok pairs
  /-- A token that the store still has stands for what is loaded. -/
  known : ∀ place i s, base.watchList.identities[place]? = some i → c.find? i = some s →
    base.tokenAt place = some s.token → base.setting? i = some s

/-- A store that uses no token for two settings has under the token of a name what is loaded. -/
theorem Provider.Dated.setting?_of_tokenAt {h : History} {m n : Nat} {seen : Sight} {s : Setting}
    (hp : p.Dated h m seen) (one : h.OneValue)
    (hplace : p.watchList.identities[place]? = some i) (hs : (h n).find? i = some s)
    (ht : p.tokenAt place = some s.token) : p.setting? i = some s := by
  obtain ⟨t, ht, htoken⟩ := hp.tokens place i _ hplace ht
  rcases hp.shows i with hshows | ⟨hnone, -⟩
  · rw [ht, one (hshows.symm.trans ht) hs htoken]
  · cases hnone.symm.trans ht

namespace Reload

/-- Entries are found under the names of their settings, if no adapter refuses those. -/
theorem find?_entriesFor {pipeline : Pipeline} {previous : List Entry} {raw : List Setting}
    (accepts : ∀ s ∈ raw, s.identity = i → ∃ pairs, pipeline.process s = .ok pairs) :
    ((entriesFor pipeline previous raw).find? (·.identity = i)).map (·.setting) =
      raw.find? (·.identity = i) := by
  induction raw generalizing previous with
  | nil => rfl
  | cons s rest ih =>
    have hrest (previous : List Entry) :
        ((entriesFor pipeline previous rest).find? (·.identity = i)).map (·.setting) =
          rest.find? (·.identity = i) := ih fun t ht => accepts t (List.mem_cons_of_mem _ ht)
    rw [entriesFor]
    by_cases hs : s.identity = i
    · obtain ⟨pairs, hpairs⟩ := accepts s List.mem_cons_self hs
      have hentry : (⟨s, pairs⟩ : Entry).identity = i := hs
      simp only [hpairs, List.find?_cons, decide_eq_true hentry, decide_eq_true hs, Option.map_some]
    · rw [List.find?_cons_of_neg (by simpa using hs)]
      cases hpairs : pipeline.process s with
      | ok pairs =>
        have hentry : ¬ (⟨s, pairs⟩ : Entry).identity = i := hs
        simp only [List.find?_cons, decide_eq_false hentry]
        exact hrest previous
      | error e =>
        have hprevious : (previousOf previous s).find? (·.identity = i) = none := by
          refine List.find?_eq_none.2 fun f hf hname => hs ?_
          exact (mem_previousOf hf).2.symm.trans (of_decide_eq_true hname)
        simp only []
        rw [List.find?_append, hprevious, Option.none_or]
        exact hrest _

/-- A commit loads what the store has under every watched name. -/
theorem setting?_commit (serves : c.Serves answers) {entries : List Entry}
    (loads : Loads answers p entries) (hi : i ∈ p.watchList.identities)
    (accepts : ∀ s, c.find? i = some s → ∃ pairs, p.pipeline.process s = .ok pairs) :
    (commit me p p.watchList.identities.length entries).1.setting? i = c.find? i := by
  obtain ⟨raw, previous, hraw, -, rfl⟩ := loads
  rw [hraw.eq_loadOrder serves]
  refine (find?_entriesFor fun s hs hname => accepts s ?_).trans (Contents.find?_loadOrder hi)
  rw [← hname]
  exact (Contents.mem_loadOrder.1 hs).1

end Reload

/-! ## What checks find -/

/-- The change of the name at a place is what is missing there. -/
def Contents.Mends (c : Contents) (base : Provider) (change : PointChange) (i : Identity) : Prop :=
  change.checked = base.tokenAt change.place ∧ change.brings = c.find? i ∧
    c.leftAt base change.place i = c.find? i

/-- A check has found what is missing, or there is nothing missing. -/
def Contents.Finds (c : Contents) (base : Provider) (place : Nat) (i : Identity) : Finding → Prop
  | .unchanged => base.setting? i = c.leftAt base place i
  | .changed change => change.place = place ∧ c.Mends base change i
  | .reloadAll => True
  | .skipped => False

/-- The watch list is as it was when the pass began. -/
abbrev Provider.Watches (base : Provider) (place : Nat) (f : Watch.Fact) : Prop :=
  base.watchList.facts[place]? = some f

theorem Provider.names_of_watches {f g : Watch.Fact} (hf : base.Watches place f)
    (hg : base.Watches place g) : f.1 = g.1 :=
  congrArg Prod.fst (Option.some.inj (hf.symm.trans hg))

/-- At a place of the watch list there is a fact, also later if the facts have stayed. -/
theorem Pass.known_watches {places : List Nat} (hfacts : p.watchList.facts = base.watchList.facts)
    (hplaces : ∀ place ∈ places, place < base.watchList.watches.length) :
    Known base.Watches p places := by
  intro place hplace
  have hlt := hplaces place hplace
  have hfact : base.watchList.facts[place]? = some base.watchList.watches[place].fact := by
    rw [WatchList.facts, List.getElem?_map, List.getElem?_eq_getElem hlt, Option.map_some]
  rw [hfacts]
  exact ⟨_, hfact, hfact⟩

theorem Contents.Refreshes.finds (h : c.Refreshes base) (serves : c.Serves answers)
    (hplace : base.watchList.identities[place]? = some i) {f : Finding}
    (hf : Check.Found answers base.Watches False place f) : c.Finds base place i f := by
  cases hf with
  | skipped skips => exact skips
  | reloadAll fact differs reloads => trivial
  | @finds j role known f fact finds single =>
    obtain ⟨w, hw, hfact⟩ := WatchList.get?_of_facts fact
    cases hfact
    rw [WatchList.getElem?_identities, hw] at hplace
    cases hplace
    have htoken : base.tokenAt place = w.token := by rw [Provider.tokenAt, hw, Option.bind_some]
    have hstored {s : Setting} (hs : c.find? w.identity = some s) :
        c.leftAt base place w.identity = c.find? w.identity :=
      if_neg fun hnone => by cases hs.symm.trans hnone.2
    cases finds with
    | unchanged verdict =>
      obtain ⟨s, hs, hknown⟩ := Contents.verdict_eq_unchanged_iff.1 (serves.judges verdict).symm
      refine Eq.trans ?_ (hstored hs).symm
      rw [hs]
      refine h.known place w.identity s ?_ hs (htoken.trans hknown)
      rw [WatchList.getElem?_identities, hw, Option.map_some]
    | absent verdict unknown =>
      have hnone := Contents.verdict_eq_missing_iff.1 (serves.judges verdict).symm
      exact (if_pos ⟨htoken.trans unknown, hnone⟩).symm
    | removed verdict present =>
      have hnone := Contents.verdict_eq_missing_iff.1 (serves.judges verdict).symm
      exact ⟨rfl, htoken.symm, hnone.symm, if_neg fun hboth => present (htoken.symm.trans hboth.1)⟩
    | @read o verdict reply =>
      obtain ⟨s, hs, hknown⟩ := Contents.verdict_eq_modified_iff.1 (serves.judges verdict).symm
      rw [serves.reads reply, hs, Check.findingOf, if_neg hknown]
      exact ⟨rfl, htoken.symm, hs.symm, hstored hs⟩

/-- A check that was not skipped is about a watched name. -/
theorem Check.Found.exists_identity {f : Finding}
    (hf : Check.Found answers base.Watches False place f) :
    ∃ i, base.watchList.identities[place]? = some i := by
  have hwatched {g : Watch.Fact} (hg : base.Watches place g) :
      ∃ i, base.watchList.identities[place]? = some i := by
    obtain ⟨w, hw, -⟩ := WatchList.get?_of_facts hg
    exact ⟨w.identity, by rw [WatchList.getElem?_identities, hw, Option.map_some]⟩
  cases hf with
  | skipped skips => exact skips.elim
  | reloadAll fact differs reloads => exact hwatched fact
  | finds fact finds single => exact hwatched fact

/-- Changes for some of the places, in their order: each is what is missing at its place, and at
the other places nothing is missing. -/
structure Contents.Covers (c : Contents) (base : Provider) (places : List Nat)
    (changes : List PointChange) : Prop where
  sublist : (changes.map (·.place)).Sublist places
  mends : ∀ change ∈ changes, ∃ i, base.watchList.identities[change.place]? = some i ∧
    c.Mends base change i
  others : ∀ place ∈ places, (∃ change ∈ changes, change.place = place) ∨
    ∀ i, base.watchList.identities[place]? = some i → base.setting? i = c.leftAt base place i

namespace Contents.Covers

variable {places : List Nat} {changes : List PointChange}

theorem nil : c.Covers base [] [] where
  sublist := .slnil
  mends _ hchange := absurd hchange List.not_mem_nil
  others _ hplace := absurd hplace List.not_mem_nil

/-- Nothing is missing at the first place. -/
theorem settled (h : c.Covers base places changes)
    (hplace : base.watchList.identities[place]? = some i)
    (here : base.setting? i = c.leftAt base place i) : c.Covers base (place :: places) changes where
  sublist := h.sublist.cons _
  mends := h.mends
  others place' hplace' := by
    rcases List.mem_cons.1 hplace' with rfl | hplace'
    · refine .inr fun j hj => ?_
      cases hplace.symm.trans hj
      exact here
    · exact h.others place' hplace'

/-- The first place has its change. -/
theorem change {change : PointChange} (h : c.Covers base places changes)
    (hplace : base.watchList.identities[change.place]? = some i) (mends : c.Mends base change i) :
    c.Covers base (change.place :: places) (change :: changes) where
  sublist := h.sublist.cons_cons _
  mends change' hchange' := by
    rcases List.mem_cons.1 hchange' with rfl | hchange'
    · exact ⟨i, hplace, mends⟩
    · exact h.mends change' hchange'
  others place' hplace' := by
    rcases List.mem_cons.1 hplace' with rfl | hplace'
    · exact .inl ⟨change, List.mem_cons_self, rfl⟩
    · refine (h.others place' hplace').imp_left ?_
      rintro ⟨change', hchange', hthere⟩
      exact ⟨change', List.mem_cons_of_mem _ hchange', hthere⟩

end Contents.Covers

/-- What checks have found, side by side, is what is missing. -/
theorem Contents.Refreshes.covers (h : c.Refreshes base) (serves : c.Serves answers)
    {places : List Nat} {results : List (Except ProviderError Finding)}
    (hfound : List.Forall₂ (fun place r =>
      ∀ f, r = .ok f → Check.Found answers base.Watches False place f) places results)
    (hfailures : results.filterMap Findings.errorOf? = []) (hreload : .ok .reloadAll ∉ results) :
    c.Covers base places (results.filterMap Findings.changeOf?) := by
  induction hfound with
  | nil => exact .nil
  | @cons place r places results hhere hrest ih =>
    cases r with
    | error e => simp [Findings.errorOf?] at hfailures
    | ok f =>
      have hcovers := ih (by simpa [Findings.errorOf?] using hfailures) fun hmem =>
        hreload (List.mem_cons_of_mem _ hmem)
      obtain ⟨i, hi⟩ := (hhere f rfl).exists_identity
      have hfinds := h.finds serves hi (hhere f rfl)
      cases f with
      | skipped => exact hfinds.elim
      | reloadAll => exact absurd List.mem_cons_self hreload
      | unchanged => exact hcovers.settled hi hfinds
      | changed change =>
        obtain ⟨rfl, hmend⟩ := hfinds
        exact hcovers.change hi hmend

/-! ## What the merge keeps -/

/-- While changes are merged, every name has its change to come or is as it is to be. -/
structure Mending (c : Contents) (base p : Provider) (n : Nat) (changes : List PointChange) :
    Prop where
  refreshes : c.Refreshes base
  rules : base.SameRules p
  entries : p.materialized.names.Nodup
  places : (changes.map (·.place)).Nodup
  waits : ∀ change ∈ changes, p.tokenAt change.place = change.checked ∧
    ∃ i, base.watchList.identities[change.place]? = some i ∧ c.Mends base change i
  settled : ∀ place i, base.watchList.identities[place]? = some i →
    (∃ change ∈ changes, change.place = place) ∨ p.setting? i = c.leftAt base place i
  current : n = 0 → base.Published → p.Published

section Merge

variable {n n' : Nat} {change : PointChange} {rest changes : List PointChange}

/-- The first change has been merged. -/
theorem Mending.tail (h : Mending c base p n (change :: rest)) (rules : p.SameRules q)
    (entries : q.materialized.names.Nodup)
    (tokens : ∀ other, change.place ≠ other → q.tokenAt other = p.tokenAt other)
    (hplace : base.watchList.identities[change.place]? = some i)
    (here : q.setting? i = c.leftAt base change.place i)
    (elsewhere : ∀ j, i ≠ j → q.setting? j = p.setting? j)
    (current : n' = 0 → base.Published → q.Published) : Mending c base q n' rest := by
  have hplaces := h.places
  rw [List.map_cons, List.nodup_cons] at hplaces
  refine ⟨h.refreshes, h.rules.trans rules, entries, hplaces.2, fun other hother => ?_,
    fun place j hj => ?_, current⟩
  · rw [tokens other.place fun heq => hplaces.1 (heq ▸ List.mem_map_of_mem hother)]
    exact h.waits other (List.mem_cons_of_mem _ hother)
  · by_cases hsame : change.place = place
    · subst hsame
      cases hplace.symm.trans hj
      exact .inr here
    · have hne : i ≠ j := by
        rintro rfl
        obtain ⟨hlt, -⟩ := List.getElem?_eq_some_iff.1 hplace
        exact hsame ((List.getElem?_inj hlt h.refreshes.watched).1 (hplace.trans hj.symm))
      rcases h.settled place j hj with ⟨other, hother, hthere⟩ | hsettled
      · rcases List.mem_cons.1 hother with rfl | hother
        · exact absurd hthere hsame
        · exact .inl ⟨other, hother, hthere⟩
      · exact .inr ((elsewhere j hne).trans hsettled)

/-- With no change left everything is up to date. -/
theorem Mending.left {n : Nat} (h : Mending c base p n []) :
    ∀ place i, base.watchList.identities[place]? = some i → p.setting? i = c.leftAt base place i :=
  fun place i hplace => (h.settled place i hplace).resolve_left fun ⟨_, hchange, _⟩ =>
    absurd hchange List.not_mem_nil

/-- What a merge of all changes keeps. -/
def mending (c : Contents) (base : Provider) (me : TaskId) : Merge.Lasting me where
  before p fs changes := fs = [] → Mending c base p 0 changes
  after p n fs changes := fs = [] → Mending c base p n changes
  enters h _ := h
  stale h hstale hfs := absurd ((h hfs).waits _ List.mem_cons_self).1 hstale
  absent := by
    intro p n fs place checked rest h _ habsent hfs
    have h := h hfs
    obtain ⟨-, i, hplace, -, hbrings, hleft⟩ := h.waits _ List.mem_cons_self
    refine h.tail (p.sameRules_setToken place none) h.entries
      (fun other hne => p.tokenAt_setToken hne none) hplace ?_ (fun _ _ => rfl) h.current
    rw [hleft, ← hbrings]
    have hwatch := hplace
    rw [← h.rules.identities, WatchList.getElem?_identities] at hwatch
    obtain ⟨w, hw, rfl⟩ := Option.map_eq_some_iff.1 hwatch
    exact Option.map_eq_none_iff.2 (habsent w hw)
  removed := by
    intro p n fs place checked rest w h _ hw _ hfs
    have h := h hfs
    obtain ⟨-, i, hplace, -, hbrings, hleft⟩ := h.waits _ List.mem_cons_self
    have hwatch := hplace
    rw [← h.rules.identities, WatchList.getElem?_identities] at hwatch
    cases (congrArg (Option.map (·.identity)) hw).symm.trans hwatch
    refine h.tail (p.sameRules_withoutSetting place _)
      (h.entries.sublist (p.materialized.names_remove_sublist _))
      (fun other hne => p.tokenAt_setToken hne none) hplace ?_
      (fun j => p.setting?_withoutSetting_of_ne place) nofun
    rw [hleft, ← hbrings]
    exact p.setting?_withoutSetting_self place h.entries
  upserted := by
    intro p n fs place checked s rest pairs h hpairs hfs
    have h := h hfs
    obtain ⟨-, i, hplace, -, hbrings, hleft⟩ := h.waits _ List.mem_cons_self
    obtain rfl : s.identity = i := c.identity_of_find? hbrings.symm
    refine h.tail (p.sameRules_withEntry place _) (Materialized.nodup_upsert h.entries)
      (fun other hne => p.tokenAt_setToken hne _) hplace ?_
      (fun j => p.setting?_withEntry_of_ne place (e := ⟨s, pairs⟩)) nofun
    rw [hleft, ← hbrings]
    exact p.setting?_withEntry_self place
  refused := by
    intro p n fs place checked s rest e h he hfs
    split at hfs
    · have h := h hfs
      obtain ⟨-, i, hplace, -, hbrings, -⟩ := h.waits _ List.mem_cons_self
      obtain ⟨pairs, hpairs⟩ := h.refreshes.accepts i (List.mem_of_getElem? hplace) s hbrings.symm
      rw [← h.rules.pipeline, he] at hpairs
      cases hpairs
    · exact absurd hfs (List.append_ne_nil_of_right_ne_nil _ (List.cons_ne_nil _ _))

theorem Mending.of_undisturbed (h : Mending c base p n changes) (hq : p.Undisturbed q) :
    Mending c base q n changes where
  refreshes := h.refreshes
  rules := h.rules.trans hq.sameLoaded.sameRules
  entries := by
    rw [hq.materialized]
    exact h.entries
  places := h.places
  waits change hchange := by
    rw [Provider.tokenAt, hq.watchList]
    exact h.waits change hchange
  settled place i hplace := by
    rw [Provider.setting?, hq.materialized]
    exact h.settled place i hplace
  current hn hpublished := by
    rw [Provider.Published, hq.loaded, hq.current, hq.materialized]
    exact h.current hn hpublished

end Merge

/-! ## The pass -/

namespace Pass

/-- Where a pass may stand while it brings everything up to date. -/
def Mends (c : Contents) (answers : Replies) (base : Provider) (me : TaskId) (p : Provider) :
    Pass → Prop
  | .loading r => base.SameRules p ∧ r.Sound answers p
  | .checking checks => base.SameLoaded p ∧
    Beside answers base.Watches False p (List.range base.watchList.identities.length) checks
  | .reloading _ r => base.SameRules p ∧ r.Sound answers p
  | .merging _ m => (mending c base me).Stands p m

/-- What a step of such a pass may come to. -/
inductive Comes (c : Contents) (answers : Replies) (base : Provider) (me : TaskId) :
    Step → Prop where
  | running (p : Provider) (s : Pass) (mends : s.Mends c answers base me p) :
      Comes c answers base me (p, .running s)
  | failed (p : Provider) (e : ProviderError) : Comes c answers base me (p, .finished (.error e))
  | done (p : Provider) (report : Report)
      (left : ∀ place i, base.watchList.identities[place]? = some i →
        p.setting? i = if report.reloaded then c.find? i else c.leftAt base place i)
      (published : base.Published → p.Published) :
      Comes c answers base me (p, .finished (.ok report))

section Steps

variable {f : Findings} {failures : List ProviderError}

theorem comes_finish {reloaded published : Bool}
    (left : failures = [] → ∀ place i, base.watchList.identities[place]? = some i →
      p.setting? i = if reloaded then c.find? i else c.leftAt base place i)
    (shown : failures = [] → base.Published → p.Published) :
    Comes c answers base me (finish p f failures reloaded published) := by
  cases failures with
  | nil => exact .done _ _ (left rfl) (shown rfl)
  | cons first rest => exact .failed _ _

theorem comes_merged {x : Merge.Step} (h : (mending c base me).Comes x) :
    Comes c answers base me (merged x.1 f x.2) := by
  cases h with
  | running p m stands => exact .running p _ stands
  | idle p fs after =>
    exact comes_finish (fun hfs => (after hfs).left) fun hfs => (after hfs).current rfl
  | published p n fs after =>
    exact comes_finish (fun hfs => (after hfs).left) fun _ _ _ => p.values_publish

theorem comes_mergeChanges (h : failures = [] → Mending c base p 0 f.changes) :
    Comes c answers base me (mergeChanges me p f failures) := by
  unfold mergeChanges
  split
  · next hempty =>
    rw [List.isEmpty_iff.1 hempty] at h
    exact comes_finish (fun hfailures => (h hfailures).left)
      fun hfailures => (h hfailures).current rfl
  · refine comes_merged (Merge.Lasting.comes_begin fun hfailures => ?_)
    have hmending := h hfailures
    exact ⟨hmending.refreshes, hmending.rules.trans ⟨rfl, rfl, rfl⟩, hmending.entries,
      hmending.places, hmending.waits, hmending.settled, hmending.current⟩

/-- A reload that commits has loaded what the store has under every watched name. -/
theorem left_commit (me : TaskId) (h : c.Refreshes base) (serves : c.Serves answers)
    (rules : base.SameRules p) {entries : List Entry} (loads : Reload.Loads answers p entries) (place : Nat) (i : Identity)
    (hplace : base.watchList.identities[place]? = some i) :
    (Reload.commit me p p.watchList.identities.length entries).1.setting? i = c.find? i := by
  have hi := List.mem_of_getElem? hplace
  refine Reload.setting?_commit serves loads (by rwa [rules.identities]) fun s hs => ?_
  rw [rules.pipeline]
  exact h.accepts i hi s hs

theorem comes_reloaded (h : c.Refreshes base) (serves : c.Serves answers) (rules : base.SameRules p)
    {x : Reload.Step} (hx : Reload.Leads answers me p x) :
    Comes c answers base me (reloaded me x.1 f x.2) := by
  cases hx with
  | running q r called sound => exact .running q _ ⟨rules.trans called.sameRules, sound⟩
  | failed q e called =>
    have hmerge : Comes c answers base me (mergeChanges me (q.release me) f (f.failures ++ [e])) :=
      comes_mergeChanges fun hnone =>
        absurd hnone (List.append_ne_nil_of_right_ne_nil _ (List.cons_ne_nil _ _))
    cases e with
    | cancelled => exact .failed _ _
    | _ => exact hmerge
  | committed q entries called loads =>
    exact comes_finish (fun _ => left_commit me h serves (rules.trans called.sameRules) loads)
      fun _ _ _ => Reload.values_commit me q _ entries

theorem comes_loaded (h : c.Refreshes base) (serves : c.Serves answers) (rules : base.SameRules p)
    {x : Reload.Step} (hx : Reload.Leads answers me p x) :
    Comes c answers base me (loaded x.1 x.2) := by
  cases hx with
  | running q r called sound => exact .running q _ ⟨rules.trans called.sameRules, sound⟩
  | failed q e called => exact .failed _ e
  | committed q entries called loads =>
    exact .done _ _ (left_commit me h serves (rules.trans called.sameRules) loads)
      fun _ _ => Reload.values_commit me q _ entries

/-- Once all checks have ended, everything is reloaded, or their changes are merged. -/
theorem comes_checked (h : c.Refreshes base) (serves : c.Serves answers) {checks : List Check}
    (hp : base.SameLoaded p)
    (hchecks :
      Beside answers base.Watches False p (List.range base.watchList.identities.length) checks) :
    Comes c answers base me (checked me cancelled p checks) := by
  unfold checked
  split
  · exact .running p _ ⟨hp, hchecks⟩
  · next results hresults =>
    have hfound := found_of_results hchecks hresults
    split
    · exact .failed p _
    · next f hf =>
      obtain ⟨hchanges, hfailures, hreload⟩ := Findings.of_ofResults hf
      split
      · have hrules : base.SameRules (p.acquire me) := hp.sameRules.trans ⟨rfl, rfl, rfl⟩
        exact comes_reloaded h serves hrules (Reload.leads_begin answers me cancelled p)
      · next hno =>
        refine comes_mergeChanges fun hnone => ?_
        rw [hfailures] at hnone
        have hcovers := h.covers serves hfound hnone fun hmem => hno (hreload.2 hmem)
        rw [← hchanges] at hcovers
        refine ⟨h, hp.sameRules, ?_, List.nodup_range.sublist hcovers.sublist,
          fun change hchange => ?_, fun place i hplace => ?_, fun _ hpublished => ?_⟩
        · rw [hp.materialized]
          exact h.entries
        · obtain ⟨i, hplace, hmend⟩ := hcovers.mends change hchange
          refine ⟨?_, i, hplace, hmend⟩
          rw [Provider.tokenAt_of_known (WatchList.known_of_facts hp.facts), hmend.1]
        · obtain ⟨hlt, -⟩ := List.getElem?_eq_some_iff.1 hplace
          refine (hcovers.others place (List.mem_range.2 hlt)).imp_right fun hleft => ?_
          rw [Provider.setting?, hp.materialized]
          exact hleft i hplace
        · rw [Provider.Published, hp.loaded, hp.current, hp.materialized]
          exact hpublished

theorem comes_begin (h : c.Refreshes base) (serves : c.Serves answers) :
    Comes c answers base me (begin me cancelled base) := by
  have hdue := WatchList.due_eq_range fun w hw => (h.due w hw).2
  unfold begin
  split
  · exact .failed base _
  · split
    · rw [hdue, ← WatchList.length_identities]
      split
      · next hnone =>
        refine .done base _ (fun place i hplace => ?_) id
        obtain ⟨hlt, -⟩ := List.getElem?_eq_some_iff.1 hplace
        have hmem := List.mem_range.2 hlt
        rw [hnone] at hmem
        cases hmem
      · refine .running base _ ⟨(Provider.Undisturbed.refl base).sameLoaded,
          beside_ready fun place hplace => .inr ?_⟩
        rw [List.mem_range, WatchList.length_identities] at hplace
        exact ⟨base.watchList.watches[place], List.getElem?_eq_getElem hplace,
          h.due _ (List.getElem_mem _)⟩
    · have hrules : base.SameRules (base.acquire me) := ⟨rfl, rfl, rfl⟩
      exact comes_loaded h serves hrules (Reload.leads_begin answers me cancelled base)

end Steps

theorem Mends.of_undisturbed {s : Pass} (hs : s.Mends c answers base me p) (hq : p.Undisturbed q) :
    s.Mends c answers base me q := by
  cases s with
  | loading r =>
    have hrules := hq.sameLoaded.sameRules
    exact ⟨hs.1.trans hrules, Reload.Sound.of_sameRules hs.2 hrules⟩
  | checking checks =>
    refine ⟨hs.1.trans hq.sameLoaded, hs.2.of_ready (.inr fun place _ => ⟨?_, hq.now⟩)⟩
    rw [hq.watchList]
  | reloading f r =>
    have hrules := hq.sameLoaded.sameRules
    exact ⟨hs.1.trans hrules, Reload.Sound.of_sameRules hs.2 hrules⟩
  | merging f m =>
    cases m with
    | waiting changes fs => exact fun hfs => (hs hfs).of_undisturbed hq
    | adapting place s rest merged fs =>
      obtain ⟨checked, hafter⟩ := hs
      exact ⟨checked, fun hfs => (hafter hfs).of_undisturbed hq⟩

/-- **A step of a pass that brings everything up to date.** -/
theorem comes_handle (h : c.Refreshes base) (serves : c.Serves answers) {s : Pass}
    (hs : s.Mends c answers base me p) {i : Input} (admitted : i.Admitted answers (s.waits me p)) :
    Comes c answers base me (s.handle me cancelled p i) := by
  cases s with
  | loading r =>
    exact comes_loaded h serves hs.1 (Reload.leads_handle me cancelled hs.2 admitted)
  | checking checks =>
    obtain ⟨hp, hchecks⟩ := hs
    have hwatched : Known base.Watches p (List.range base.watchList.identities.length) :=
      known_watches hp.facts fun place hplace => by
        rwa [List.mem_range, WatchList.length_identities] at hplace
    obtain ⟨hq, hchecks⟩ := goes_checks cancelled hwatched Provider.names_of_watches
      List.nodup_range hchecks admitted
    exact comes_checked h serves (hp.trans hq.sameLoaded) hchecks
  | reloading f r =>
    exact comes_reloaded h serves hs.1 (Reload.leads_handle me cancelled hs.2 admitted)
  | merging f m => exact comes_merged (Merge.Lasting.comes_handle hs i)

/-- What such a pass can come to. -/
theorem comes_of_runs (h : c.Refreshes base) (serves : c.Serves answers) {x : Step}
    (run : (stepping me).Runs answers Provider.Undisturbed (begin me cancelled base) x) :
    Comes c answers base me x := by
  induction run with
  | start => exact comes_begin h serves
  | step before moved cancelled admitted ih =>
    cases ih with
    | running p s hs => exact comes_handle h serves (hs.of_undisturbed moved) admitted

end Pass

/-! ## After any run -/

namespace Engine

variable {h : History} {events : List (Nat × Event)} {n : Nat} {report : Report}

/-- **What a pass that succeeds leaves under watched names.**  Whatever has happened since the
provider was new, over a store that uses no token for two settings: a pass for which everything is
due, and which nobody disturbs, leaves what the store has.  Only a name without a token that the
store does not have stays as it is, unless everything is reloaded.  The snapshot shows what is
loaded if it did before: an operation that is dropped at its merge may leave it behind. -/
theorem setting?_of_pass (hp : p.Unloaded) (one : h.OneValue)
    (truthful : (new p).TruthfulRun h .zero events)
    (hbase : ((new p).run (events.map (·.2))).provider = base) (serves : (h n).Serves answers)
    (due : ∀ w ∈ base.watchList.watches, w.held = false ∧ w.Due base.now)
    (accepts : ∀ w ∈ base.watchList.watches, ∀ s, (h n).find? w.identity = some s →
      ∃ pairs, base.pipeline.process s = .ok pairs)
    (pass : (Pass.stepping me).Runs answers Provider.Undisturbed (Pass.begin me cancelled base)
      (q, .finished (.ok report))) :
    (∀ w ∈ base.watchList.watches, q.setting? w.identity =
      if report.reloaded = false ∧ w.token = none ∧ (h n).find? w.identity = none then
        base.setting? w.identity
      else (h n).find? w.identity) ∧
    (base.Published → q.Published) := by
  obtain ⟨sights, -, hsights⟩ := (dated_new hp).exists_sights truthful
  have hdated := (hsights events.length).1
  rw [behind, List.take_length, hbase] at hdated
  have hrefreshes : (h n).Refreshes base := by
    refine ⟨hdated.watched, hdated.entries, due, fun i hi => ?_, fun place i s hplace hs ht => ?_⟩
    · obtain ⟨w, hw, rfl⟩ := List.mem_map.1 hi
      exact accepts w hw
    · exact hdated.setting?_of_tokenAt one hplace hs ht
  cases Pass.comes_of_runs hrefreshes serves pass with
  | done _ _ left published =>
    refine ⟨fun w hw => ?_, published⟩
    obtain ⟨place, hplace⟩ := List.mem_iff_getElem?.1 hw
    have hget : base.watchList.get? place = some w := hplace
    have hname : base.watchList.identities[place]? = some w.identity := by
      rw [WatchList.getElem?_identities, hget, Option.map_some]
    have htoken : base.tokenAt place = w.token := by rw [Provider.tokenAt, hget, Option.bind_some]
    rw [left place w.identity hname, Contents.leftAt, htoken]
    cases report.reloaded with
    | true => simp
    | false => simp

/-- A store that loses its only setting. -/
def losing : History
  | 0 => blueOnly
  | _ => .ofSettings [] List.nodup_nil

/-- A provider that watches nothing. -/
def unwatching : Provider :=
  .new (.ofHosts ["a"]) default ⟨[]⟩ .empty ⟨[⟨"*", none⟩], false, .ofSecs 100⟩ .start

/-- A load brings the setting, and then it is watched. -/
def loadThenWatch : List (Nat × Event) :=
  [(0, .start 0 .load false), (0, .answer ⟨0, 0, 0⟩ (.ok (.page ⟨[blue], none⟩))), (0, .resume 0),
    (0, .watch ⟨⟨"Color", none⟩, .ofSecs 1, false⟩), (1, .advance (.ofSecs 1))]

/-- The provider when it is time to look at the setting. -/
def watchedLate : Provider := ((new unwatching).run (loadThenWatch.map (·.2))).provider

/-- The store has lost the setting, the pass succeeds, and the setting is still loaded and
published. -/
theorem setting?_of_pass_late : ∃ q report,
    (Pass.stepping 1).Runs (losing 1).replies Provider.Undisturbed (Pass.begin 1 false watchedLate)
      (q, .finished (.ok report)) ∧
    report = ⟨.unchanged, 1, 0, 0, false, false⟩ ∧ (losing 1).find? ⟨"Color", none⟩ = none ∧
    q.setting? ⟨"Color", none⟩ = some blue ∧
    q.publisher.current.values.get? "Color" = some "blue" := by
  have hpass := (Pass.stepping 1).runs_play Provider.Undisturbed.refl (losing 1).admitted_turn 3
    (.start : (Pass.stepping 1).Runs _ _ (Pass.begin 1 false watchedLate) _)
  have hunloaded : unwatching.Unloaded := ⟨by decide, by decide, rfl, rfl, rfl⟩
  have hblue {n : Nat} {i : Identity} {s : Setting} (hs : (losing n).find? i = some s) :
      s = blue := by
    cases n with
    | zero =>
      have hfind : [blue].find? (·.identity = i) = some s := hs
      exact List.mem_singleton.1 (List.mem_of_find?_eq_some hfind)
    | succ n => cases hs
  have hone : losing.OneValue := fun hs ht _ => (hblue hs).trans (hblue ht).symm
  have htruthful : (new unwatching).TruthfulRun losing .zero loadThenWatch := by decide +kernel
  obtain ⟨hleft, hshown⟩ := setting?_of_pass (h := losing) (n := 1) hunloaded hone htruthful rfl
    (losing 1).serves_replies (by decide +kernel) (fun _ _ _ _ => ⟨_, rfl⟩) hpass
  refine ⟨_, _, hpass, rfl, rfl, ?_, ?_⟩
  · have hwatch := List.head_mem (l := watchedLate.watchList.watches) (by decide +kernel)
    refine (hleft _ hwatch).trans ?_
    decide +kernel
  · have hpublished : watchedLate.Published := fun _ => by decide +kernel
    refine (congrArg (·.get? "Color") (hshown hpublished ?_)).trans ?_
    · decide +kernel
    · decide +kernel

end Engine
end ReplicatedConfig
