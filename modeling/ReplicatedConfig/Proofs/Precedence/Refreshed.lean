import ReplicatedConfig.Proofs.Precedence.Incremental

/-!
# A refresh and a load from the same store

`refreshed_iff` compares two ways to come by the settings of a store: loading them, and
loading those of an earlier state of the store and refreshing once.  They publish the same
value for a key exactly when the settings that decide it in `Contents.refreshOrder` and in
`Contents.loadOrder` agree about it.

They need not agree.  A name that appears in the store after the load comes last in a
refresh, and a load puts it where its selector lists it, so the refresh lets it win over the
settings of later selectors.  Where no name appears they do agree (`refreshed_of_sublist`).
-/

namespace ReplicatedConfig

/-- What the two stores, the watched names and the adapters are like, when a pass begins. -/
structure Refreshable (c c' : Contents) (base : Provider) : Prop where
  distinct : base.watchList.identities.Nodup
  roles : ∀ w ∈ base.watchList.watches, w.refreshAll = false
  due : ∀ w ∈ base.watchList.watches, w.held = false ∧ w.Due base.now
  accepts : ∀ i s, c.find? i = some s ∨ c'.find? i = some s →
    ∃ pairs, base.pipeline.process s = .ok pairs
  /-- The stores differ on watched names only. -/
  differ : ∀ i, i ∉ base.watchList.identities → c'.find? i = c.find? i
  /-- A token changes whenever what it stands for changes. -/
  tokens : ∀ i ∈ base.watchList.identities, ∀ s s', c.find? i = some s → c'.find? i = some s' →
    s.token = s'.token → s = s'

variable {c c' : Contents} {answers : Replies} {base p q : Provider} {me : TaskId}
  {cancelled : Bool}

/-- All changes are merged from what was loaded. -/
theorem Refreshable.merging (h : Refreshable c c' base) (hbase : LoadedFrom c base)
    (hp : base.SameLoaded p) :
    Merging c c' base p 0
      (c.changes c' base.watchList.identities base.watchList.identities.length) := by
  have hloaded := hbase.of_sameLoaded hp
  refine ⟨⟨hp.options, hp.pipeline, hp.identities⟩, ?_, ?_, ?_, ?_, fun _ => hloaded.values⟩
  · have hfold := Contents.foldl_changes c' base.options.selectors base.pipeline h.distinct h.tokens
      (Nat.le_refl _)
    rw [List.take_length, Contents.entriesAfter_nil, Contents.entriesAfter_watched h.differ] at hfold
    rw [hp.materialized, hbase.entries, hfold]
  · exact c.nodup_changes c' _ _
  · intro change hchange
    obtain ⟨place, i, hi, hchange⟩ := Contents.mem_changes hchange
    obtain ⟨hplace, hchecked, -⟩ := Contents.of_changeAt hchange
    rw [← hp.identities, WatchList.getElem?_identities] at hi
    obtain ⟨w, hw, rfl⟩ := Option.map_eq_some_iff.1 hi
    have hfact : w.fact ∈ p.watchList.facts := List.mem_map_of_mem (List.mem_of_getElem? hw)
    rw [hplace, hchecked, Provider.tokenAt, hw]
    exact hloaded.tokens _ hfact
  · intro place checked s hchange
    obtain ⟨place', i, hi, hchange⟩ := Contents.mem_changes hchange
    exact h.accepts i s (.inr ((Contents.of_changeAt hchange).2.2 place checked s rfl))

/-- The watch list is as the load left it. -/
theorem Refreshable.known (h : Refreshable c c' base) (hbase : LoadedFrom c base)
    (hp : base.SameLoaded p) :
    Pass.Known (c.Watches base.watchList.identities) p
      (List.range base.watchList.identities.length) := by
  intro place hplace
  rw [List.mem_range, WatchList.length_identities] at hplace
  obtain ⟨w, hw⟩ : ∃ w, base.watchList.watches[place]? = some w :=
    ⟨_, List.getElem?_eq_getElem hplace⟩
  have hfact : base.watchList.facts[place]? = some w.fact := by
    rw [WatchList.facts, List.getElem?_map, hw, Option.map_some]
  refine ⟨w.fact, by rw [hp.facts, hfact], ?_, h.roles w (List.mem_of_getElem? hw), ?_⟩
  · rw [WatchList.getElem?_identities, WatchList.get?, hw]
    rfl
  · exact hbase.tokens _ (List.mem_of_getElem? hfact)

/-! ## The pass -/

/-- Where a pass that refreshes everything may stand. -/
def Refreshing (c c' : Contents) (answers : Replies) (base : Provider) (me : TaskId) (p : Provider) :
    Pass → Prop
  | .checking checks => base.SameLoaded p ∧
    Pass.Beside answers (c.Watches base.watchList.identities) False p
      (List.range base.watchList.identities.length) checks
  | .merging _ m => (merging c c' base me).Stands p m
  | .loading _ | .reloading _ _ => False

/-- What a step of such a pass may come to. -/
inductive Refreshes (c c' : Contents) (answers : Replies) (base : Provider) (me : TaskId) :
    Pass.Step → Prop where
  | running (p : Provider) (s : Pass) (h : Refreshing c c' answers base me p s) :
      Refreshes c c' answers base me (p, .running s)
  | failed (p : Provider) (e : ProviderError) :
      Refreshes c c' answers base me (p, .finished (.error e))
  | refreshed (p : Provider) (report : Report)
      (values : p.publisher.current.values = refreshedValues c c' base) :
      Refreshes c c' answers base me (p, .finished (.ok report))

theorem refreshes_finish {f : Findings} {failures : List ProviderError} {reloaded published : Bool}
    (h : failures = [] → p.publisher.current.values = refreshedValues c c' base) :
    Refreshes c c' answers base me (Pass.finish p f failures reloaded published) := by
  cases failures with
  | nil => exact .refreshed _ _ (h rfl)
  | cons first rest => exact .failed _ _

/-- The merge of the changes decides what the pass comes to. -/
theorem refreshes_merged {f : Findings} {x : Merge.Step} (h : (merging c c' base me).Comes x) :
    Refreshes c c' answers base me (Pass.merged x.1 f x.2) := by
  cases h with
  | running p m stands => exact .running p _ stands
  | idle p fs after =>
    refine refreshes_finish fun hfs => ?_
    have hmerging := after hfs
    exact (hmerging.current rfl).trans hmerging.values
  | published p n fs after =>
    exact refreshes_finish fun hfs => p.values_publish.trans (after hfs).values

theorem refreshes_mergeChanges {f : Findings}
    (hf : f.failures = [] → Merging c c' base p 0 f.changes) :
    Refreshes c c' answers base me (Pass.mergeChanges me p f f.failures) := by
  unfold Pass.mergeChanges
  split
  · next hempty =>
    refine refreshes_finish fun hfailures => ?_
    have hmerging := hf hfailures
    rw [List.isEmpty_iff.1 hempty] at hmerging
    exact (hmerging.current rfl).trans hmerging.values
  · refine refreshes_merged (Merge.Lasting.comes_begin fun hfailures => ?_)
    have hmerging := hf hfailures
    exact ⟨hmerging.rules.trans ⟨rfl, rfl, rfl⟩, hmerging.leads, hmerging.places, hmerging.tokens,
      hmerging.accepts, hmerging.current⟩

/-- Once all checks have ended, their changes are merged. -/
theorem refreshes_checked (h : Refreshable c c' base) (hbase : LoadedFrom c base)
    (serves : c'.Serves answers) {checks : List Check} (hp : base.SameLoaded p)
    (hchecks : Pass.Beside answers (c.Watches base.watchList.identities) False p
      (List.range base.watchList.identities.length) checks) :
    Refreshes c c' answers base me (Pass.checked me cancelled p checks) := by
  unfold Pass.checked
  split
  · exact .running p _ ⟨hp, hchecks⟩
  · next results hresults =>
    have hfound := Pass.found_of_results hchecks hresults
    split
    · exact .failed p _
    · next f hf =>
      obtain ⟨hchanges, hfailures, hreload⟩ := Findings.of_ofResults hf
      split
      -- Watched names have no role here that would make a change reload everything.
      · next hreloads => exact absurd (hreload.1 hreloads) (reloadAll_notMem hfound)
      · refine refreshes_mergeChanges fun hnone => ?_
        rw [hfailures] at hnone
        rw [hchanges, changes_of_found serves hfound hnone]
        exact h.merging hbase hp

/-- A pass begins with a check of every watched name. -/
theorem refreshes_begin (h : Refreshable c c' base) (hbase : LoadedFrom c base) :
    Refreshes c c' answers base me (Pass.begin me cancelled base) := by
  have hdue := WatchList.due_eq_range fun w hw => (h.due w hw).2
  have hsame : base.SameLoaded base := (Provider.Undisturbed.refl base).sameLoaded
  unfold Pass.begin
  split
  · exact .failed base _
  · rw [if_pos hbase.loaded, hdue, ← WatchList.length_identities]
    split
    · next hnone =>
      have hmerging := h.merging hbase hsame
      rw [Contents.changes, hnone] at hmerging
      exact .refreshed base _ ((hmerging.current rfl).trans hmerging.values)
    · refine .running base _ ⟨hsame, Pass.beside_ready fun place hplace => .inr ?_⟩
      rw [List.mem_range, WatchList.length_identities] at hplace
      exact ⟨base.watchList.watches[place], List.getElem?_eq_getElem hplace,
        h.due _ (List.getElem_mem _)⟩

theorem Refreshing.of_undisturbed {s : Pass} (h : Refreshing c c' answers base me p s)
    (hq : p.Undisturbed q) : Refreshing c c' answers base me q s := by
  cases s with
  | loading r => exact h
  | checking checks =>
    refine ⟨h.1.trans hq.sameLoaded, h.2.of_ready (.inr fun place _ => ⟨?_, hq.now⟩)⟩
    rw [hq.watchList]
  | reloading f r => exact h
  | merging f m =>
    cases m with
    | waiting changes fs => exact fun hfs => (h hfs).of_undisturbed hq
    | adapting place s rest merged fs =>
      obtain ⟨checked, hafter⟩ := h
      exact ⟨checked, fun hfs => (hafter hfs).of_undisturbed hq⟩

theorem refreshes_handle (h : Refreshable c c' base) (hbase : LoadedFrom c base)
    (serves : c'.Serves answers) {s : Pass} (hs : Refreshing c c' answers base me p s) {i : Input}
    (admitted : i.Admitted answers (s.waits me p)) :
    Refreshes c c' answers base me (s.handle me cancelled p i) := by
  cases s with
  | loading r => exact hs.elim
  | checking checks =>
    obtain ⟨hp, hchecks⟩ := hs
    obtain ⟨hq, hchecks⟩ := Pass.goes_checks cancelled (h.known hbase hp)
      Contents.names_of_watches List.nodup_range hchecks admitted
    exact refreshes_checked h hbase serves (hp.trans hq.sameLoaded) hchecks
  | reloading f r => exact hs.elim
  | merging f m => exact refreshes_merged (Merge.Lasting.comes_handle hs i)

/-- **What a pass that refreshes everything can come to.** -/
theorem refreshes_of_runs (h : Refreshable c c' base) (hbase : LoadedFrom c base)
    (serves : c'.Serves answers) {x : Pass.Step}
    (run : (Pass.stepping me).Runs answers Provider.Undisturbed (Pass.begin me cancelled base) x) :
    Refreshes c c' answers base me x := by
  induction run with
  | start => exact refreshes_begin h hbase
  | step before moved cancelled admitted ih =>
    cases ih with
    | running p s hs => exact refreshes_handle h hbase serves (hs.of_undisturbed moved) admitted

/-! ## What is published -/

variable (c c') in
/-- Whether the settings that decide a key after a refresh and after a load agree about it. -/
def Contents.Agrees (pipeline : Pipeline) (selectors : List Selector) (watched : List Identity)
    (key : String) : Prop :=
  ∀ s t, Order.Decides pipeline.pairsOf key (c.refreshOrder c' selectors watched) s →
    Order.Decides pipeline.pairsOf key (c'.loadOrder selectors watched) t →
    Order.valueOf pipeline.pairsOf key s = Order.valueOf pipeline.pairsOf key t

section Published

variable {answers' answers'' : Replies} {loader loader' : TaskId} {p₀ p₁ p₂ p₃ : Provider}
  {report : Report} {given given' : Bool}

/-- What a load publishes, followed by a refresh that has met another store. -/
theorem get?_of_refreshed (serves : c.Serves answers) (serves' : c'.Serves answers')
    (load : (Reload.stepping loader).Runs answers Provider.SameRules
      (Reload.begin loader given p₀) (p₁, .finished (.ok ())))
    (between : p₁.SameLoaded base) (h : Refreshable c c' base)
    (pass : (Pass.stepping me).Runs answers' Provider.Undisturbed (Pass.begin me cancelled base)
      (q, .finished (.ok report))) (key : String) :
    q.publisher.current.values.get? key =
      Order.valueIn base.pipeline.pairsOf key
        (c.refreshOrder c' base.options.selectors base.watchList.identities) := by
  have hrules := (Reload.sameRules_of_runs load).trans between.sameRules
  have haccepts (i : Identity) (s : Setting) (hs : c.find? i = some s) :
      ∃ pairs, p₀.pipeline.process s = .ok pairs := by
    rw [← hrules.pipeline]
    exact h.accepts i s (.inl hs)
  have hbase := (loadedFrom_of_runs serves haccepts load).of_sameLoaded between
  cases refreshes_of_runs h hbase serves' pass with
  | refreshed _ _ values => rw [values, refreshedValues, Reload.get?_values_map]

/-- What a load publishes that meets the other store from the start. -/
theorem get?_of_loaded (serves : c'.Serves answers) (h : Refreshable c c' base)
    (rules : base.SameRules p₂)
    (load : (Reload.stepping loader).Runs answers Provider.SameRules
      (Reload.begin loader given p₂) (p₃, .finished (.ok ()))) (key : String) :
    p₃.publisher.current.values.get? key =
      Order.valueIn base.pipeline.pairsOf key
        (c'.loadOrder base.options.selectors base.watchList.identities) := by
  have haccepts (i : Identity) (s : Setting) (hs : c'.find? i = some s) :
      ∃ pairs, p₂.pipeline.process s = .ok pairs := by
    rw [rules.pipeline]
    exact h.accepts i s (.inr hs)
  rw [Reload.get?_of_runs serves haccepts load key, rules.pipeline, rules.options, rules.identities]

/-- **When a refresh publishes what a load would.**  A load from one store and a refresh that
meets another one give a key the value that a load from the other one gives it exactly when
the settings that decide it after the refresh and after the load agree about it. -/
theorem refreshed_iff (serves : c.Serves answers) (serves' : c'.Serves answers')
    (load : (Reload.stepping loader).Runs answers Provider.SameRules
      (Reload.begin loader given p₀) (p₁, .finished (.ok ())))
    (between : p₁.SameLoaded base) (h : Refreshable c c' base)
    (pass : (Pass.stepping me).Runs answers' Provider.Undisturbed (Pass.begin me cancelled base)
      (q, .finished (.ok report)))
    (fresh : c'.Serves answers'') (rules : base.SameRules p₂)
    (reload : (Reload.stepping loader').Runs answers'' Provider.SameRules
      (Reload.begin loader' given' p₂) (p₃, .finished (.ok ()))) (key : String) :
    q.publisher.current.values.get? key = p₃.publisher.current.values.get? key ↔
      c.Agrees c' base.pipeline base.options.selectors base.watchList.identities key := by
  rw [get?_of_refreshed serves serves' load between h pass, get?_of_loaded fresh h rules reload]
  exact Order.valueIn_eq_iff fun s => Contents.mem_refreshOrder h.differ

/-- The store when it is loaded: a variant with a label only. -/
def labelled : Contents := .ofSettings [⟨"Color", some "prod", some "purple", none, ⟨"1"⟩⟩] (by decide)

/-- The store when the pass meets it: the setting without a label has come. -/
def joined : Contents :=
  .ofSettings [⟨"Color", some "prod", some "purple", none, ⟨"1"⟩⟩,
    ⟨"Color", none, some "blue", none, ⟨"2"⟩⟩] (by decide)

/-- A provider that watches the setting without a label and lets the other one win. -/
def watching : Provider :=
  .new (.ofHosts ["a"]) default ⟨[.new ⟨⟨"Color", none⟩, .ofSecs 1, false⟩ .start]⟩ .empty
    ⟨[⟨"*", none⟩, ⟨"*", some "prod"⟩], false, .ofSecs 100⟩ .start

/-- The same provider when it has loaded. -/
def watchingLoaded : Provider :=
  ((Reload.stepping 0).play labelled.turn 4 (Reload.begin 0 false watching)).1

/-- The same provider when it is time to look at the setting. -/
def watchingDue : Provider :=
  { watchingLoaded with now := watchingLoaded.now + Duration.ofSecs 1 }

theorem refreshable_watchingDue : Refreshable labelled joined watchingDue where
  distinct := by decide
  roles := by decide
  due := by decide
  accepts i s _ := ⟨_, rfl⟩
  differ i hi := by
    have hne : i ≠ ⟨"Color", none⟩ := fun h => hi (h ▸ by decide)
    simp [joined, labelled, Contents.ofSettings, List.find?_cons, Setting.identity, Ne.symm hne]
  tokens i hi s s' hs _ _ := by
    have hnames : watchingDue.watchList.identities = [⟨"Color", none⟩] := by decide
    rw [hnames, List.mem_singleton] at hi
    subst hi
    cases hs

/-- The setting that has come is listed by the first selector, and wins after the refresh over
the one that the second selector lists. -/
theorem refreshed_newcomer : ∃ q report p,
    (Reload.stepping 0).Runs labelled.replies Provider.SameRules (Reload.begin 0 false watching)
      (watchingLoaded, .finished (.ok ())) ∧
    (Pass.stepping 1).Runs joined.replies Provider.Undisturbed (Pass.begin 1 false watchingDue)
      (q, .finished (.ok report)) ∧
    (Reload.stepping 0).Runs joined.replies Provider.SameRules (Reload.begin 0 false watching)
      (p, .finished (.ok ())) ∧
    q.publisher.current.values.get? "Color" = some "blue" ∧
    p.publisher.current.values.get? "Color" = some "purple" ∧
    ¬ labelled.Agrees joined watchingDue.pipeline watchingDue.options.selectors
      watchingDue.watchList.identities "Color" := by
  have hload := (Reload.stepping 0).runs_play Provider.SameRules.refl labelled.admitted_turn 4
    (.start : (Reload.stepping 0).Runs _ _ (Reload.begin 0 false watching) _)
  have hpass := (Pass.stepping 1).runs_play Provider.Undisturbed.refl joined.admitted_turn 8
    (.start : (Pass.stepping 1).Runs _ _ (Pass.begin 1 false watchingDue) _)
  have hfresh := (Reload.stepping 0).runs_play Provider.SameRules.refl joined.admitted_turn 8
    (.start : (Reload.stepping 0).Runs _ _ (Reload.begin 0 false watching) _)
  have hbetween : watchingLoaded.SameLoaded watchingDue := ⟨rfl, rfl, rfl, rfl, rfl, rfl⟩
  have hrules : watchingDue.SameRules watching := ⟨rfl, rfl, rfl⟩
  refine ⟨_, _, _, hload, hpass, hfresh, rfl, rfl, fun hagrees => ?_⟩
  have hblue := (refreshed_iff labelled.serves_replies joined.serves_replies hload hbetween
    refreshable_watchingDue hpass joined.serves_replies hrules hfresh "Color").2 hagrees
  have hpurple : some "blue" = some "purple" := hblue
  exact absurd (Option.some.inj hpurple) (by decide)

/-- Where nothing comes to the store and listings keep their order, a refresh publishes what a
load would. -/
theorem refreshed_of_sublist (serves : c.Serves answers) (serves' : c'.Serves answers')
    (load : (Reload.stepping loader).Runs answers Provider.SameRules
      (Reload.begin loader given p₀) (p₁, .finished (.ok ())))
    (between : p₁.SameLoaded base) (h : Refreshable c c' base)
    (pass : (Pass.stepping me).Runs answers' Provider.Undisturbed (Pass.begin me cancelled base)
      (q, .finished (.ok report)))
    (fresh : c'.Serves answers'') (rules : base.SameRules p₂)
    (reload : (Reload.stepping loader').Runs answers'' Provider.SameRules
      (Reload.begin loader' given' p₂) (p₃, .finished (.ok ())))
    (keeps : (Reload.namesOf (c'.loadOrder base.options.selectors base.watchList.identities)).Sublist
      (Reload.namesOf (c.loadOrder base.options.selectors base.watchList.identities)))
    (key : String) :
    q.publisher.current.values.get? key = p₃.publisher.current.values.get? key := by
  rw [get?_of_refreshed serves serves' load between h pass, get?_of_loaded fresh h rules reload,
    Contents.refreshOrder_of_sublist h.differ keeps]

end Published

end ReplicatedConfig
