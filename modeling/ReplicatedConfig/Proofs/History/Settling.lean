import ReplicatedConfig.Proofs.History.UpToDate
import ReplicatedConfig.Proofs.Refresh.FailedLoads

/-!
# What is left to do about watched keys

Over a store that does not change any more there is nothing left to do about a key that has the
token of what the store has under it.  Nor is there about a key whose setting the adapters
refuse, in optional mode: it keeps the token it has, and every check will find it changed.
`Contents.Settled` says that one of the two holds of a key, and `Contents.Settles` that it holds
of all keys of a loaded provider.

A full load gets there at one blow (`Contents.Serves.settles_commit`).  A pass gets there change by
change, and `Settling` is what its merge keeps: every key has its change to come or has nothing
left to do.  Of a provider with nothing left to do the same invariant says that nothing is merged
at all, since a change that is found can only bring a setting that is refused.
-/

namespace ReplicatedConfig

/-! ## What may happen elsewhere -/

/-- Nobody else loads, merges or watches a key.  Time may go on, keys may be nudged, held and let
go, the lock may change hands, and requests may be made. -/
structure Provider.Quiet (p q : Provider) : Prop where
  facts : q.watchList.facts = p.watchList.facts
  pipeline : q.pipeline = p.pipeline
  options : q.options = p.options
  loaded : q.loaded = p.loaded
  publisher : q.publisher = p.publisher

namespace Provider

variable {p q r : Provider}

theorem Quiet.refl (p : Provider) : p.Quiet p := ⟨rfl, rfl, rfl, rfl, rfl⟩

theorem Quiet.trans (hq : p.Quiet q) (hr : q.Quiet r) : p.Quiet r where
  facts := hr.facts.trans hq.facts
  pipeline := hr.pipeline.trans hq.pipeline
  options := hr.options.trans hq.options
  loaded := hr.loaded.trans hq.loaded
  publisher := hr.publisher.trans hq.publisher

theorem Untouched.quiet (h : p.Untouched q) : p.Quiet q :=
  ⟨congrArg WatchList.facts h.watchList, h.pipeline, h.options, h.loaded, h.publisher⟩

theorem quiet_acquire (p : Provider) (me : TaskId) : p.Quiet (p.acquire me) :=
  (p.untouched_acquire me).quiet

theorem quiet_release (p : Provider) (me : TaskId) : p.Quiet (p.release me) :=
  (p.untouched_release me).quiet

theorem quiet_countPass (p : Provider) (r : PassResult) : p.Quiet (p.countPass r) :=
  ⟨rfl, rfl, rfl, rfl, rfl⟩

theorem Checked.quiet {places : List Nat} (h : p.Checked places q) : p.Quiet q :=
  ⟨h.facts, h.pipeline, h.options, h.loaded, h.publisher⟩

theorem Called.quiet (h : p.Called q) : p.Quiet q := h.untouched.quiet

theorem Quiet.sameRules (h : p.Quiet q) : p.SameRules q :=
  ⟨h.options, h.pipeline, WatchList.identities_of_facts h.facts⟩

end Provider

variable {c : Contents} {answers : Replies} {base p q r : Provider} {me : TaskId}
  {cancelled : Bool} {place : Nat} {i : Identity} {known : Option Token} {w : Watch}

/-! ## Keys with nothing left to do -/

namespace Contents

/-- The token that the store has under a name. -/
def tokenOf (c : Contents) (i : Identity) : Option Token := (c.find? i).map (·.token)

/-- The adapters refuse what the store has under a name. -/
def IsRefused (c : Contents) (pipeline : Pipeline) (i : Identity) : Prop :=
  ∃ s e, c.find? i = some s ∧ pipeline.process s = .error e

/-- A key has the token that the store has, or it stays behind because its setting is refused. -/
def Settled (c : Contents) (p : Provider) (w : Watch) : Prop :=
  w.token = c.tokenOf w.identity ∨
    p.options.optional = true ∧ c.IsRefused p.pipeline w.identity

/-- A loaded provider has come to rest. -/
structure Settles (c : Contents) (p : Provider) : Prop where
  loaded : p.loaded = true
  settled : ∀ w ∈ p.watchList.watches, c.Settled p w

/-- A key that reloads everything stays behind. -/
def Restless (c : Contents) (p : Provider) : Prop :=
  ∃ w ∈ p.watchList.watches, w.refreshAll = true ∧ w.token ≠ c.tokenOf w.identity

/-- The store has nothing else under a name than what is known. -/
theorem Serves.eq_tokenOf (serves : c.Serves answers) (h : answers.Judges i known .unchanged) :
    known = c.tokenOf i := by
  obtain ⟨s, hs, hknown⟩ := verdict_eq_unchanged_iff.1 (serves.judges h).symm
  rw [tokenOf, hs, hknown, Option.map_some]

theorem Serves.ne_tokenOf (serves : c.Serves answers) (h : Check.Differs answers i known) :
    known ≠ c.tokenOf i := by
  rcases h with hmodified | ⟨hmissing, hpresent⟩
  · obtain ⟨s, hs, hknown⟩ := verdict_eq_modified_iff.1 (serves.judges hmodified).symm
    rwa [tokenOf, hs, Option.map_some]
  · rwa [tokenOf, verdict_eq_missing_iff.1 (serves.judges hmissing).symm, Option.map_none]

/-- Whether anything is left to do about a key depends on its facts. -/
theorem Settled.of_fact {v : Watch} (h : c.Settled p v) (hfact : v.fact = w.fact)
    (options : q.options = p.options) (pipeline : q.pipeline = p.pipeline) : c.Settled q w := by
  have hname : v.identity = w.identity := congrArg Prod.fst hfact
  have htoken : v.token = w.token := congrArg (·.2.2) hfact
  rw [Settled, options, pipeline, ← hname, ← htoken]
  exact h

theorem Settles.of_quiet (h : c.Settles p) (hq : p.Quiet q) : c.Settles q where
  loaded := hq.loaded.trans h.loaded
  settled w hw := by
    obtain ⟨place, hplace⟩ := List.mem_iff_getElem?.1 hw
    obtain ⟨v, hv, hfact⟩ := WatchList.exists_of_facts hq.facts hplace
    exact (h.settled v (List.mem_of_getElem? hv)).of_fact hfact hq.options hq.pipeline

/-- What a load brings under a watched name. -/
theorem Serves.tokenOf_of_loads (serves : c.Serves answers) {entries : List Entry}
    (loads : Reload.Loads answers p entries) (hi : i ∈ p.watchList.identities) :
    (Materialized.mk entries).tokenOf i = c.tokenOf i ∨
      p.options.optional = true ∧ c.IsRefused p.pipeline i := by
  by_cases haccepts : ∀ s, c.find? i = some s → ∃ pairs, p.pipeline.process s = .ok pairs
  · have hloaded : (Reload.commit 0 p p.watchList.identities.length entries).1.setting? i =
        c.find? i := Reload.setting?_commit serves loads hi haccepts
    refine .inl ?_
    rw [tokenOf, ← hloaded]
    exact (Option.map_map ..).symm
  · obtain ⟨s, hs⟩ := not_forall.1 haccepts
    obtain ⟨hs, hrefused⟩ := Classical.not_imp.1 hs
    obtain ⟨raw, previous, hraw, htakes, -⟩ := loads
    have hmem : s ∈ raw := by
      rw [hraw.eq_loadOrder serves, mem_loadOrder, c.identity_of_find? hs]
      exact ⟨hs, .inr hi⟩
    cases hpairs : p.pipeline.process s with
    | ok pairs => exact absurd ⟨pairs, hpairs⟩ hrefused
    | error e => exact .inr ⟨(htakes s hmem).resolve_right hrefused, s, e, hs, hpairs⟩

/-- **A full load brings a provider to rest.** -/
theorem Serves.settles_commit (serves : c.Serves answers) (me : TaskId) {entries : List Entry}
    (loads : Reload.Loads answers p entries) :
    c.Settles (Reload.commit me p p.watchList.identities.length entries).1 where
  loaded := rfl
  settled w hw := by
    obtain ⟨place, hplace⟩ := List.mem_iff_getElem?.1 hw
    have hget : (Reload.commit me p p.watchList.identities.length entries).1.watchList.get? place =
      some w := hplace
    rw [Reload.get?_commit] at hget
    obtain ⟨v, hv, rfl⟩ := Option.map_eq_some_iff.1 hget
    have hname : p.watchList.identities[place]? = some v.identity := by
      rw [WatchList.getElem?_identities, hv, Option.map_some]
    rw [if_pos (List.getElem?_eq_some_iff.1 hname).1]
    have htoken := serves.tokenOf_of_loads loads (List.mem_of_getElem? hname)
    exact htoken

/-! ## What checks find -/

/-- A change leads from the token of a key to what the store has. -/
structure Moves (c : Contents) (change : PointChange) (w : Watch) : Prop where
  checked : change.checked = w.token
  brings : change.brings = c.find? w.identity
  differs : w.token ≠ c.tokenOf w.identity

/-- What a check of the key at a place says about it. -/
def Tells (c : Contents) (base : Provider) (place : Nat) : Finding → Prop
  | .skipped => True
  | .unchanged => ∀ w, base.watchList.get? place = some w → w.token = c.tokenOf w.identity
  | .changed change => change.place = place ∧
    ∃ w, base.watchList.get? place = some w ∧ w.refreshAll = false ∧ c.Moves change w
  | .reloadAll => ∃ w, base.watchList.get? place = some w ∧ w.refreshAll = true ∧
    w.token ≠ c.tokenOf w.identity

theorem Moves.of_fact {change : PointChange} {v : Watch} (h : c.Moves change v)
    (hfact : v.fact = w.fact) : c.Moves change w := by
  have hname : v.identity = w.identity := congrArg Prod.fst hfact
  have htoken : v.token = w.token := congrArg (·.2.2) hfact
  refine ⟨h.checked.trans htoken, ?_, ?_⟩
  · rw [h.brings, hname]
  · rw [← hname, ← htoken]
    exact h.differs

theorem Serves.tells (serves : c.Serves answers) {f : Finding}
    (hf : Check.Found answers base.Watches True place f) : c.Tells base place f := by
  cases hf with
  | skipped skips => trivial
  | reloadAll fact differs reloads =>
    obtain ⟨w, hw, hfact⟩ := WatchList.get?_of_facts fact
    cases hfact
    have hrole := congrArg (·.2.1) (Option.some.inj (fact.symm.trans reloads))
    exact ⟨w, hw, hrole, serves.ne_tokenOf differs⟩
  | @finds i role known f fact finds single =>
    obtain ⟨w, hw, hfact⟩ := WatchList.get?_of_facts fact
    cases hfact
    have hsame (htoken : w.token = c.tokenOf w.identity) : c.Tells base place .unchanged := by
      intro v hv
      cases hw.symm.trans hv
      exact htoken
    have hchanged {change : PointChange} (hplace : change.place = place) (moves : c.Moves change w)
        (hsingle : Finding.changed change = .unchanged ∨
          ∃ g, base.Watches place g ∧ g.2.1 = false) : c.Tells base place (.changed change) := by
      rcases hsingle with hf | ⟨g, hg, hrole⟩
      · cases hf
      · cases fact.symm.trans hg
        exact ⟨hplace, w, hw, hrole, moves⟩
    cases finds with
    | unchanged verdict => exact hsame (serves.eq_tokenOf verdict)
    | absent verdict unknown =>
      have hnone := verdict_eq_missing_iff.1 (serves.judges verdict).symm
      refine hsame ?_
      rw [unknown, tokenOf, hnone, Option.map_none]
    | removed verdict present =>
      have hnone := verdict_eq_missing_iff.1 (serves.judges verdict).symm
      exact hchanged rfl ⟨rfl, hnone.symm, serves.ne_tokenOf (.inr ⟨verdict, present⟩)⟩ single
    | @read o verdict reply =>
      obtain ⟨s, hs, hknown⟩ := verdict_eq_modified_iff.1 (serves.judges verdict).symm
      rw [serves.reads reply, hs, Check.findingOf, if_neg hknown] at single ⊢
      exact hchanged rfl ⟨rfl, hs.symm, serves.ne_tokenOf (.inl verdict)⟩ single

/-- What the checks at some places have found, added up. -/
structure Explains (c : Contents) (base : Provider) (places : List Nat) (f : Findings) : Prop where
  order : (f.changes.map (·.place)).Sublist places
  moves : ∀ change ∈ f.changes, ∃ w, base.watchList.get? change.place = some w ∧ c.Moves change w
  reload : f.reload = true → c.Restless base
  /-- If all checks have brought a result and none asks for a reload, then a key without a change
  has the token of the store. -/
  rest : f.failures = [] → f.skipped = 0 → f.reload = false → ∀ place ∈ places, ∀ w,
    base.watchList.get? place = some w → w.token = c.tokenOf w.identity ∨
      w.refreshAll = false ∧ ∃ change ∈ f.changes, change.place = place

theorem explains_none : c.Explains base [] .none where
  order := .slnil
  moves _ hchange := absurd hchange List.not_mem_nil
  reload := nofun
  rest _ _ _ _ hplace := absurd hplace List.not_mem_nil

/-- One check more. -/
theorem Explains.add {places : List Nat} {f g : Findings} {x : Except ProviderError Finding}
    (h : c.Explains base places f) (hx : ∀ finding, x = .ok finding → c.Tells base place finding)
    (hg : f.add x = some g) : c.Explains base (places ++ [place]) g := by
  have horder := h.order.trans (List.sublist_append_left places [place])
  cases x with
  | error e =>
    have hfails : g.changes = f.changes ∧ g.reload = f.reload ∧ g.failures = f.failures ++ [e] := by
      cases e <;> cases hg <;> exact ⟨rfl, rfl, rfl⟩
    obtain ⟨hchanges, hreload, hfailures⟩ := hfails
    refine ⟨by rwa [hchanges], by rw [hchanges]; exact h.moves, by rw [hreload]; exact h.reload,
      fun hnone => ?_⟩
    rw [hfailures] at hnone
    exact absurd hnone (List.append_ne_nil_of_right_ne_nil _ (List.cons_ne_nil _ _))
  | ok finding =>
    have htells := hx finding rfl
    cases finding with
    | skipped =>
      cases hg
      exact ⟨horder, h.moves, h.reload, fun _ => nofun⟩
    | unchanged =>
      cases hg
      refine ⟨horder, h.moves, h.reload, fun hfailures hskipped hreload place' hplace' w hw => ?_⟩
      rcases List.mem_append.1 hplace' with hplace' | hplace'
      · exact h.rest hfailures hskipped hreload place' hplace' w hw
      · cases List.mem_singleton.1 hplace'
        exact .inl (htells w hw)
    | changed change =>
      cases hg
      obtain ⟨rfl, v, hv, hrole, hmoves⟩ := htells
      refine ⟨?_, fun change' hchange' => ?_, h.reload,
        fun hfailures hskipped hreload place' hplace' w hw => ?_⟩
      · rw [List.map_append]
        exact h.order.append (List.Sublist.refl _)
      · rcases List.mem_append.1 hchange' with hchange' | hchange'
        · exact h.moves change' hchange'
        · cases List.mem_singleton.1 hchange'
          exact ⟨v, hv, hmoves⟩
      · rcases List.mem_append.1 hplace' with hplace' | hplace'
        · refine (h.rest hfailures hskipped hreload place' hplace' w hw).imp_right ?_
          rintro ⟨hrole', change', hchange', hthere⟩
          exact ⟨hrole', change', List.mem_append_left _ hchange', hthere⟩
        · cases List.mem_singleton.1 hplace'
          cases hv.symm.trans hw
          exact .inr ⟨hrole, change, List.mem_append_right _ (List.mem_singleton_self _), rfl⟩
    | reloadAll =>
      cases hg
      obtain ⟨w, hw, hrole, htoken⟩ := htells
      exact ⟨horder, h.moves, fun _ => ⟨w, List.mem_of_getElem? hw, hrole, htoken⟩,
        fun _ _ => nofun⟩

/-- All checks that are still to come. -/
theorem Explains.foldlM {before places : List Nat} {f g : Findings}
    {results : List (Except ProviderError Finding)} (h : c.Explains base before f)
    (htells : List.Forall₂ (fun place x => ∀ finding, x = .ok finding → c.Tells base place finding)
      places results) (hg : results.foldlM Findings.add f = some g) :
    c.Explains base (before ++ places) g := by
  induction htells generalizing before f with
  | nil =>
    cases hg
    rwa [List.append_nil]
  | cons hhere hrest ih =>
    rw [List.foldlM_cons] at hg
    obtain ⟨f', hf', hg⟩ := Option.bind_eq_some_iff.1 hg
    rw [List.append_cons]
    exact ih (h.add hhere hf') hg

theorem Serves.explains (serves : c.Serves answers) {places : List Nat}
    {results : List (Except ProviderError Finding)} {f : Findings}
    (hfound : List.Forall₂ (fun place x =>
      ∀ finding, x = .ok finding → Check.Found answers base.Watches True place finding)
      places results)
    (hf : Findings.ofResults results = some f) : c.Explains base places f := by
  have htells := hfound.imp fun place x hx finding hfinding => serves.tells (hx finding hfinding)
  exact explains_none.foldlM htells hf

end Contents

/-! ## What the merge keeps -/

/-- While changes are merged, every key has its change to come or nothing left to do, if the pass
has looked at all keys.  Nothing is merged where there was nothing left to do. -/
structure Settling (c : Contents) (base : Provider) (whole : Prop) (p : Provider) (n : Nat)
    (fs : List ProviderError) (changes : List PointChange) : Prop where
  loaded : p.loaded = true
  places : (changes.map (·.place)).Nodup
  waits : ∀ change ∈ changes, ∃ w, p.watchList.get? change.place = some w ∧ c.Moves change w
  settled : whole → fs = [] → ∀ place w, p.watchList.get? place = some w →
    (∃ change ∈ changes, change.place = place) ∨ c.Settled p w
  calm : whole → fs = [] → ¬ c.Restless base
  still : c.Settles base → n = 0 ∧ base.Quiet p

section Merge

variable {whole : Prop} {n n' : Nat} {fs fs' : List ProviderError} {change : PointChange}
  {rest changes : List PointChange}

/-- In a provider at rest a change that is found can only bring a setting that is refused. -/
theorem Contents.Settles.refuses (h : c.Settles p) (hw : p.watchList.get? place = some w)
    (moves : c.Moves change w) : p.options.optional = true ∧
      ∃ s e, change.brings = some s ∧ p.pipeline.process s = .error e := by
  rcases h.settled w (List.mem_of_getElem? hw) with htoken | ⟨hoptional, s, e, hs, he⟩
  · exact absurd htoken moves.differs
  · exact ⟨hoptional, s, e, moves.brings.trans hs, he⟩

/-- The first change is merged, or nothing is left to do about it. -/
theorem Settling.tail (h : Settling c base whole p n fs (change :: rest))
    (elsewhere : ∀ other, change.place ≠ other → q.watchList.get? other = p.watchList.get? other)
    (loaded : q.loaded = p.loaded) (options : q.options = p.options)
    (pipeline : q.pipeline = p.pipeline) (failures : fs' = [] → fs = [])
    (here : fs' = [] → ∀ w, q.watchList.get? change.place = some w → c.Settled q w)
    (still : c.Settles base → n' = 0 ∧ base.Quiet q) :
    Settling c base whole q n' fs' rest := by
  have hplaces := h.places
  rw [List.map_cons, List.nodup_cons] at hplaces
  refine ⟨loaded.trans h.loaded, hplaces.2, fun other hother => ?_, fun hwhole hfs place w hw => ?_,
    fun hwhole hfs => h.calm hwhole (failures hfs), still⟩
  · rw [elsewhere other.place fun heq => hplaces.1 (heq ▸ List.mem_map_of_mem hother)]
    exact h.waits other (List.mem_cons_of_mem _ hother)
  · by_cases hsame : change.place = place
    · subst hsame
      exact .inr (here hfs w hw)
    · rw [elsewhere place hsame] at hw
      rcases h.settled hwhole (failures hfs) place w hw with ⟨other, hother, hthere⟩ | hsettled
      · rcases List.mem_cons.1 hother with rfl | hother
        · exact absurd hthere hsame
        · exact .inl ⟨other, hother, hthere⟩
      · exact .inr (hsettled.of_fact rfl options pipeline)

/-- The first change has been merged: its key has the token of what it brings. -/
theorem Settling.merged (h : Settling c base whole p n fs (change :: rest))
    (watchList : q.watchList =
      p.watchList.setToken change.place (change.brings.map (·.token)))
    (loaded : q.loaded = p.loaded) (options : q.options = p.options)
    (pipeline : q.pipeline = p.pipeline)
    (accepted : ∀ s, change.brings = some s → ∃ pairs, p.pipeline.process s = .ok pairs) :
    Settling c base whole q n' fs rest := by
  have hget (other : Nat) : q.watchList.get? other =
      if change.place = other then
        (p.watchList.get? other).map fun w => { w with token := change.brings.map (·.token) }
      else p.watchList.get? other := by
    rw [watchList, WatchList.setToken, WatchList.get?_modify]
  obtain ⟨v, hv, hmoves⟩ := h.waits change List.mem_cons_self
  refine h.tail (fun other hne => ?_) loaded options pipeline id (fun _ w hw => ?_) fun hbase => ?_
  · rw [hget, if_neg hne]
  · rw [hget, if_pos rfl, hv] at hw
    cases hw
    exact .inl (congrArg (Option.map (·.token)) hmoves.brings)
  · obtain ⟨-, hquiet⟩ := h.still hbase
    obtain ⟨-, s, e, hs, he⟩ := (hbase.of_quiet hquiet).refuses hv hmoves
    obtain ⟨pairs, hpairs⟩ := accepted s hs
    cases he.symm.trans hpairs

/-- What a merge keeps. -/
def settling (c : Contents) (base : Provider) (whole : Prop) (me : TaskId) : Merge.Lasting me where
  before p fs changes := Settling c base whole p 0 fs changes
  after p n fs changes := Settling c base whole p n fs changes
  enters h _ := h
  stale h hstale := by
    obtain ⟨w, hw, hmoves⟩ := h.waits _ List.mem_cons_self
    refine absurd ?_ hstale
    rw [PointChange.IsCurrent, Provider.tokenAt, hw, hmoves.checked, Option.bind_some]
  absent h _ _ := h.merged rfl rfl rfl rfl nofun
  removed h _ _ _ := h.merged rfl rfl rfl rfl nofun
  upserted h hpairs := h.merged rfl rfl rfl rfl fun s hs => by
    cases hs
    exact ⟨_, hpairs⟩
  refused := by
    intro p n fs place checked s rest e h he
    obtain ⟨w, hw, hmoves⟩ := h.waits _ List.mem_cons_self
    refine h.tail (fun _ _ => rfl) rfl rfl rfl (fun hfs => ?_) (fun hfs v hv => ?_) h.still
    · split at hfs
      · exact hfs
      · exact absurd hfs (List.append_ne_nil_of_right_ne_nil _ (List.cons_ne_nil _ _))
    · cases hw.symm.trans hv
      split at hfs
      · next hoptional => exact .inr ⟨hoptional, s, e, hmoves.brings.symm, he⟩
      · exact absurd hfs (List.append_ne_nil_of_right_ne_nil _ (List.cons_ne_nil _ _))

theorem Settling.of_quiet (h : Settling c base whole p n fs changes) (hq : p.Quiet q) :
    Settling c base whole q n fs changes where
  loaded := hq.loaded.trans h.loaded
  places := h.places
  waits change hchange := by
    obtain ⟨v, hv, hmoves⟩ := h.waits change hchange
    obtain ⟨w, hw, hfact⟩ := WatchList.exists_of_facts hq.facts.symm hv
    exact ⟨w, hw, hmoves.of_fact hfact.symm⟩
  settled hwhole hfs place w hw := by
    obtain ⟨v, hv, hfact⟩ := WatchList.exists_of_facts hq.facts hw
    refine (h.settled hwhole hfs place v hv).imp_right fun hsettled => ?_
    exact hsettled.of_fact hfact hq.options hq.pipeline
  calm := h.calm
  still hbase := ⟨(h.still hbase).1, (h.still hbase).2.trans hq⟩

/-- With no change left there is nothing left to do. -/
theorem Settling.settles (h : Settling c base whole p n [] []) (hwhole : whole) : c.Settles p where
  loaded := h.loaded
  settled w hw := by
    obtain ⟨place, hplace⟩ := List.mem_iff_getElem?.1 hw
    exact (h.settled hwhole rfl place w hplace).resolve_left fun ⟨_, hchange, _⟩ =>
      absurd hchange List.not_mem_nil

end Merge

end ReplicatedConfig
