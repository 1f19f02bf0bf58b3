import ReplicatedConfig.Proofs.Coherence.Interleaving

/-!
# Reloads from the lock on

A reload makes an entry of every setting that the adapters accept.  In optional mode it takes over
the entry that was loaded for one that they refuse, and `Pipeline.entryFor` is this rule for one
setting.  The list of entries is made step by step, from a list of previous entries that gets
shorter, and `find?_entriesFor_eq_bind` says that in the end every name stands for what the rule
gives, from what stood under the name when the reload began.

## Where a reload begins

A reload waits for the lock, and before it has it others may load what they want.  What is loaded
when it gets the lock is what it takes entries over from, so everything here starts at that
provider, `b`, with `Reload.enter`.  From there to the end of the reload others leave alone what is
loaded, and may do anything else; in particular they may watch more names.  `Provider.Heeds` is
this relation.

`Reload.Holds` carries the settings and the entries through the phases of the reload, and
`comes_of_runs` says what becomes of it.
-/

namespace ReplicatedConfig

/-! ## The rule -/

/-- The entry under the name of a setting that has been through the adapters: its own, or the one
from before if they refuse it. -/
def Pipeline.entryFor (pipeline : Pipeline) (before : Option Entry) (s : Setting) : Option Entry :=
  match pipeline.process s with
  | .ok pairs => some ⟨s, pairs⟩
  | .error _ => before

/-- There is an entry if the setting is accepted, or if there was one before. -/
theorem Pipeline.entryFor_eq_none_iff {pipeline : Pipeline} {before : Option Entry} {s : Setting} :
    pipeline.entryFor before s = none ↔
      (∀ pairs, pipeline.process s ≠ .ok pairs) ∧ before = none := by
  rw [entryFor]
  cases pipeline.process s with
  | ok pairs => simp
  | error e => simp

/-- Without two items of one name it does not matter from which end a name is looked up. -/
theorem find?_reverse_of_nodup {β : Type} {name : β → Identity} {xs : List β}
    (nodup : (xs.map name).Nodup) (i : Identity) :
    xs.reverse.find? (name · = i) = xs.find? (name · = i) := by
  cases hfind : xs.find? (name · = i) with
  | none =>
    refine List.find?_eq_none.2 fun x hx => ?_
    exact List.find?_eq_none.1 hfind x (List.mem_reverse.1 hx)
  | some x =>
    obtain rfl : name x = i := by simpa using List.find?_some hfind
    refine find?_of_nodup ?_ (List.mem_reverse.2 (List.mem_of_find?_eq_some hfind))
    rw [List.map_reverse]
    exact List.nodup_reverse.2 nodup

/-- What stands at a place of a list stands there in every list that it begins. -/
theorem getElem?_of_isPrefix {β : Type} {xs ys : List β} (h : xs <+: ys) {n : Nat} {x : β}
    (hx : xs[n]? = some x) : ys[n]? = some x := by
  obtain ⟨hlt, rfl⟩ := List.getElem?_eq_some_iff.1 hx
  exact List.prefix_iff_getElem?.1 h n hlt

namespace Reload

variable {raw : List Setting}

/-- A name that no setting has gets no entry. -/
theorem find?_entriesFor_of_notMem (pipeline : Pipeline) (previous : List Entry) {i : Identity}
    (hi : i ∉ namesOf raw) :
    (entriesFor pipeline previous raw).find? (·.identity = i) = none := by
  refine List.find?_eq_none.2 fun e he hname => hi ?_
  have hsub := (names_entriesFor_sublist pipeline previous raw).subset (List.mem_map_of_mem he)
  rwa [of_decide_eq_true hname] at hsub

/-- **What the entries of a reload are**, name by name: the previous entries that have been used up
on the way are those of other names. -/
theorem find?_entriesFor_eq_bind (pipeline : Pipeline) (nodup : (namesOf raw).Nodup)
    (previous : List Entry) (i : Identity) : (entriesFor pipeline previous raw).find? (·.identity = i) =
      (raw.find? (·.identity = i)).bind
        (pipeline.entryFor (previous.reverse.find? (·.identity = i))) := by
  induction raw generalizing previous with
  | nil => rfl
  | cons s rest ih =>
    rw [namesOf, List.map_cons, List.nodup_cons] at nodup
    have hrest : (namesOf rest).Nodup := nodup.2
    rw [entriesFor]
    by_cases hs : s.identity = i
    · subst hs
      have hfirst : (s :: rest).find? (·.identity = s.identity) = some s :=
        List.find?_cons_of_pos (decide_eq_true rfl)
      rw [hfirst, Option.bind_some, Pipeline.entryFor]
      cases pipeline.process s with
      | ok pairs => exact List.find?_cons_of_pos (decide_eq_true rfl)
      | error e =>
        simp only [List.find?_append, find?_entriesFor_of_notMem pipeline _ nodup.1, Option.or_none,
          previousOf]
        cases hfind : previous.reverse.find? (·.identity = s.identity) with
        | none => rfl
        | some e =>
          have hname : decide (e.identity = s.identity) = true := by simpa using List.find?_some hfind
          exact List.find?_cons_of_pos hname
    · rw [List.find?_cons_of_neg (by simpa using hs)]
      cases pipeline.process s with
      | ok pairs =>
        have hentry : ¬ (⟨s, pairs⟩ : Entry).identity = i := hs
        simp only [List.find?_cons, decide_eq_false hentry]
        exact ih hrest previous
      | error e =>
        have hprevious : (previousOf previous s).find? (·.identity = i) = none := by
          refine List.find?_eq_none.2 fun f hf hname => hs ?_
          exact (mem_previousOf hf).2.symm.trans (of_decide_eq_true hname)
        simp only [List.find?_append, hprevious, Option.none_or]
        rw [ih hrest, ← List.filter_reverse, List.find?_filter]
        refine congrArg (fun before => Option.bind _ (pipeline.entryFor before)) ?_
        refine congrArg (List.find? · _) (funext fun f => ?_)
        by_cases hf : f.identity = i
        · simp [hf, Ne.symm hs]
        · simp [hf]

/-- Entries that the adapters have made are made of their settings, taken over or not. -/
theorem process_of_mem_entriesFor {pipeline : Pipeline} {previous : List Entry} {e : Entry}
    (hprevious : ∀ f ∈ previous, pipeline.process f.setting = .ok f.pairs)
    (he : e ∈ entriesFor pipeline previous raw) : pipeline.process e.setting = .ok e.pairs := by
  induction raw generalizing previous with
  | nil => exact absurd he List.not_mem_nil
  | cons s rest ih =>
    rw [entriesFor] at he
    cases hpairs : pipeline.process s with
    | ok pairs =>
      rw [hpairs] at he
      rcases List.mem_cons.1 he with rfl | he
      · exact hpairs
      · exact ih hprevious he
    | error error =>
      rw [hpairs] at he
      rcases List.mem_append.1 he with he | he
      · exact hprevious e (mem_previousOf he).1
      · exact ih (fun f hf => hprevious f (List.mem_filter.1 hf).1) he

end Reload

/-- The names of the entries that a reload makes. -/
theorem Reload.mem_names_iff {raw : List Setting} {m before : Materialized} {pipeline : Pipeline}
    (nodup : (Reload.namesOf raw).Nodup)
    (hfind : ∀ i, m.find? i = (raw.find? (·.identity = i)).bind (pipeline.entryFor (before.find? i)))
    (i : Identity) : i ∈ m.names ↔ ∃ s ∈ raw, s.identity = i ∧
      ((∃ pairs, pipeline.process s = .ok pairs) ∨ i ∈ before.names) := by
  have hname (s : Setting) (hs : s ∈ raw) : s.identity ∈ m.names ↔
      (∃ pairs, pipeline.process s = .ok pairs) ∨ s.identity ∈ before.names := by
    have hentry : m.find? s.identity = pipeline.entryFor (before.find? s.identity) s := by
      rw [hfind, find?_of_nodup nodup hs, Option.bind_some]
    rw [← not_iff_not, ← Materialized.find?_eq_none_iff, hentry, Pipeline.entryFor_eq_none_iff,
      Materialized.find?_eq_none_iff, not_or, not_exists]
  constructor
  · intro hi
    cases hs : raw.find? (·.identity = i) with
    | none =>
      have hnone : m.find? i = none := by rw [hfind, hs, Option.bind_none]
      exact absurd hi (Materialized.find?_eq_none_iff.1 hnone)
    | some s =>
      obtain rfl : s.identity = i := by simpa using List.find?_some hs
      have hmem := List.mem_of_find?_eq_some hs
      exact ⟨s, hmem, rfl, (hname s hmem).1 hi⟩
  · rintro ⟨s, hs, rfl, hentry⟩
    exact (hname s hs).2 hentry

/-! ## What others do -/

/-- What holds for an operation that has the lock while others take their steps: nothing that is
loaded differs, and names that come to be watched come behind the others. -/
structure Provider.Guarded (me : TaskId) (p q : Provider) : Prop where
  holder : q.lock.holder = some me
  options : q.options = p.options
  pipeline : q.pipeline = p.pipeline
  watched : p.watchList.identities <+: q.watchList.identities
  materialized : q.materialized = p.materialized
  tokens : ∀ place, q.tokenAt place = p.tokenAt place

namespace Provider

variable {me : TaskId} {p q r : Provider}

theorem Guarded.refl (hheld : p.lock.holder = some me) : p.Guarded me p :=
  ⟨hheld, rfl, rfl, List.prefix_rfl, rfl, fun _ => rfl⟩

theorem Guarded.trans (hq : p.Guarded me q) (hr : q.Guarded me r) : p.Guarded me r where
  holder := hr.holder
  options := hr.options.trans hq.options
  pipeline := hr.pipeline.trans hq.pipeline
  watched := hq.watched.trans hr.watched
  materialized := hr.materialized.trans hq.materialized
  tokens place := (hr.tokens place).trans (hq.tokens place)

theorem SameRules.names (hq : p.SameRules q) : p.watchList.identities <+: q.watchList.identities :=
  ⟨[], (List.append_nil _).trans hq.identities.symm⟩

theorem Guarded.called (hp : p.Guarded me q) (hq : q.Called r) : p.Guarded me r := by
  refine hp.trans ⟨(congrArg Lock.holder hq.lock).trans hp.holder, hq.options, hq.pipeline,
    hq.sameRules.names, hq.materialized, fun place => ?_⟩
  rw [tokenAt, tokenAt, hq.watchList]

/-- What others do while `me` is under way: they leave it alone if it has the lock. -/
def Heeds (me : TaskId) (p q : Provider) : Prop := p.lock.holder = some me → p.Guarded me q

theorem Heeds.refl (me : TaskId) (p : Provider) : p.Heeds me p := Guarded.refl

theorem Heeds.trans (hq : p.Heeds me q) (hr : q.Heeds me r) : p.Heeds me r := fun hheld =>
  have hguarded := hq hheld
  hguarded.trans (hr hguarded.holder)

end Provider

/-! ## The phases of a reload -/

namespace Reload

/-- What a reload that began with the lock at `b` may take over. -/
def earlier (b : Provider) : List Entry := if b.options.optional then b.materialized.entries else []

/-- Of the `names` that were watched when the listing ended, those in `seen` have been looked at:
`raw` is what has been listed and read by then. -/
structure Brought (answers : Replies) (b : Provider) (names seen : List Identity)
    (raw : List Setting) : Prop where
  watched : b.watchList.identities <+: names
  read : ∃ listed, answers.Brings b.options.selectors listed ∧
    Fetched answers (gather listed) seen raw

theorem mem_of_mem_earlier {b : Provider} {e : Entry} (he : e ∈ earlier b) :
    e ∈ b.materialized.entries := by
  unfold earlier at he
  split at he
  · exact he
  · exact absurd he List.not_mem_nil

/-- Where a reload may stand that got the lock at `b`: the entries that it has and those that it is
still to make are together those for all its settings. -/
def Holds (answers : Replies) (me : TaskId) (b p : Provider) : Reload → Prop
  | .waiting => False
  | .listing call => b.Guarded me p ∧
    call.Every fun id l => answers.Lists id b.options.selectors l ∧ l.isDone = false
  | .fetching watched places raw call => b.Guarded me p ∧ ∃ seen i rest,
    watched = (seen ++ [i] ++ rest).length ∧ places = List.range' (seen ++ [i]).length rest.length ∧
    seen ++ [i] ++ rest <+: p.watchList.identities ∧ Brought answers b (seen ++ [i] ++ rest) seen raw ∧
    i ∉ namesOf raw ∧ call.Every fun _ j => j = i
  | .adapting watched s rest previous done => b.Guarded me p ∧ ∃ names raw,
    watched = names.length ∧ Brought answers b names names raw ∧
    done ++ entriesFor b.pipeline previous (s :: rest) = entriesFor b.pipeline (earlier b) raw

/-- What a step of such a reload may come to. -/
inductive Comes (answers : Replies) (me : TaskId) (b p : Provider) : Step → Prop where
  | running (q : Provider) (r : Reload) (called : p.Called q) (holds : r.Holds answers me b q) :
      Comes answers me b p (q, .running r)
  | failed (q : Provider) (e : ProviderError) (called : p.Called q) :
      Comes answers me b p (fail me q e)
  | committed (q : Provider) (names : List Identity) (raw : List Setting) (called : p.Called q)
      (guarded : b.Guarded me q) (brought : Brought answers b names names raw) :
      Comes answers me b p (commit me q names.length (entriesFor b.pipeline (earlier b) raw))

variable {answers : Replies} {me : TaskId} {cancelled : Bool} {b p q : Provider}
  {names seen : List Identity} {raw : List Setting} {i : Identity}

theorem Holds.guarded {r : Reload} (hr : r.Holds answers me b p) : b.Guarded me p := by
  cases r with
  | waiting => exact hr.elim
  | listing call => exact hr.1
  | fetching watched places raw call => exact hr.1
  | adapting watched s rest previous done => exact hr.1

theorem Holds.of_guarded {r : Reload} (hr : r.Holds answers me b p) (hq : p.Guarded me q) :
    r.Holds answers me b q := by
  cases r with
  | waiting => exact hr
  | listing call => exact ⟨hr.1.trans hq, hr.2⟩
  | fetching watched places raw call =>
    obtain ⟨hp, seen, i, rest, hwatched, hplaces, hnames, hcall⟩ := hr
    exact ⟨hp.trans hq, seen, i, rest, hwatched, hplaces, hnames.trans hq.watched, hcall⟩
  | adapting watched s rest previous done => exact ⟨hr.1.trans hq, hr.2⟩

theorem Comes.of_called {x : Step} (hq : p.Called q) (hx : Comes answers me b q x) :
    Comes answers me b p x := by
  cases hx with
  | running r s called holds => exact .running r s (hq.trans called) holds
  | failed r e called => exact .failed r e (hq.trans called)
  | committed r names raw called guarded brought =>
    exact .committed r names raw (hq.trans called) guarded brought

theorem Brought.known (hraw : Brought answers b names seen raw) (there : i ∈ namesOf raw) :
    Brought answers b names (seen ++ [i]) raw :=
  have ⟨listed, hlisted, hfetched⟩ := hraw.read
  ⟨hraw.watched, listed, hlisted, .known hfetched there⟩

theorem Brought.reads (hraw : Brought answers b names seen raw) (absent : i ∉ namesOf raw)
    {o : Option Setting} (reply : answers.Reads i o) :
    Brought answers b names (seen ++ [i]) (raw ++ o.toList) :=
  have ⟨listed, hlisted, hfetched⟩ := hraw.read
  ⟨hraw.watched, listed, hlisted, .read hfetched absent reply⟩

/-- A reload brings no two settings of one name. -/
theorem Brought.nodup (named : answers.Named) (hraw : Brought answers b names seen raw) :
    (namesOf raw).Nodup :=
  have ⟨listed, _, hfetched⟩ := hraw.read
  hfetched.nodup named (nodup_gather listed)

section Steps

theorem comes_adaptNext {rest : List Setting} {previous done : List Entry}
    (guarded : b.Guarded me p) (brought : Brought answers b names names raw)
    (hentries : done ++ entriesFor b.pipeline previous rest =
      entriesFor b.pipeline (earlier b) raw) :
    Comes answers me b p (adaptNext me p names.length rest previous done) := by
  cases rest with
  | nil =>
    rw [entriesFor, List.append_nil] at hentries
    rw [adaptNext, hentries]
    exact .committed p names raw (.refl p) guarded brought
  | cons s rest => exact .running p _ (.refl p) ⟨guarded, names, raw, rfl, brought, hentries⟩

/-- A setting that is refused gives way to the entry that was loaded for it, or ends the reload. -/
theorem comes_adapted {watched : Nat} {s : Setting} {rest : List Setting}
    {previous done : List Entry}
    (hr : (Reload.adapting watched s rest previous done).Holds answers me b p) :
    Comes answers me b p (adapted me p watched s rest previous done) := by
  obtain ⟨guarded, names, raw, rfl, brought, hentries⟩ := hr
  rw [entriesFor] at hentries
  rw [adapted, guarded.pipeline]
  cases hpairs : b.pipeline.process s with
  | ok pairs =>
    rw [hpairs] at hentries
    refine comes_adaptNext guarded brought (Eq.trans ?_ hentries)
    rw [List.append_assoc, List.singleton_append]
  | error e =>
    rw [hpairs] at hentries
    simp only []
    split
    · refine comes_adaptNext guarded brought (Eq.trans ?_ hentries)
      rw [List.append_assoc]
    · exact .failed p _ (.refl p)

theorem comes_startAdapting (guarded : b.Guarded me p)
    (brought : Brought answers b names names raw) :
    Comes answers me b p (startAdapting me p names.length raw) := by
  rw [startAdapting, guarded.options, guarded.materialized]
  exact comes_adaptNext guarded brought (List.nil_append _)

/-- A name has been read, or is waited for. -/
theorem comes_fetched {rest : List Identity} (guarded : b.Guarded me p)
    (hnames : seen ++ [i] ++ rest <+: p.watchList.identities)
    (hraw : Brought answers b (seen ++ [i] ++ rest) seen raw) (habsent : i ∉ namesOf raw)
    {progress : Progress Identity (Option Setting)}
    (hprogress : progress.Every (fun _ j => j = i)
      fun r => ∀ o, Failover.settingOf r = .ok o → answers.Reads i o)
    (hnext : ∀ o : Option Setting,
      Brought answers b (seen ++ [i] ++ rest) (seen ++ [i]) (raw ++ o.toList) →
      Comes answers me b p (fetchNext me cancelled p (seen ++ [i] ++ rest).length
        (List.range' (seen ++ [i]).length rest.length) (raw ++ o.toList))) :
    Comes answers me b p (fetched me cancelled p (seen ++ [i] ++ rest).length
      (List.range' (seen ++ [i]).length rest.length) raw progress) := by
  cases progress with
  | waiting call =>
    exact .running p _ (.refl p) ⟨guarded, seen, i, rest, rfl, rfl, hnames, hraw, habsent, hprogress⟩
  | returned r =>
    rw [fetched]
    cases hr : Failover.settingOf r with
    | error e => exact .failed p _ (.refl p)
    | ok o => exact hnext o (hraw.reads habsent (hprogress o hr))

variable (cancelled) in
/-- Going through the names that are left: they are read unless they are there. -/
theorem comes_fetchNext (rest : List Identity) (guarded : b.Guarded me p)
    (hnames : seen ++ rest <+: p.watchList.identities)
    (hraw : Brought answers b (seen ++ rest) seen raw) :
    Comes answers me b p (fetchNext me cancelled p (seen ++ rest).length
      (List.range' seen.length rest.length) raw) := by
  -- The induction is on the names that are left; `seen` grows by each of them.
  induction rest generalizing p raw seen with
  | nil =>
    rw [List.append_nil] at hraw ⊢
    exact comes_startAdapting guarded hraw
  | cons i rest ih =>
    obtain ⟨w, hw, rfl⟩ : ∃ w, p.watchList.get? seen.length = some w ∧ w.identity = i := by
      obtain ⟨late, hlate⟩ := hnames
      have hname : p.watchList.identities[seen.length]? = some i := by
        rw [← hlate, List.append_assoc, List.getElem?_append_right (Nat.le_refl _), Nat.sub_self]
        rfl
      exact WatchList.exists_get?_of_getElem?_identities hname
    have hlength : seen.length + 1 = (seen ++ [w.identity]).length := by
      rw [List.length_append, List.length_singleton]
    rw [List.append_cons] at hnames hraw ⊢
    rw [List.length_cons, List.range'_succ, hlength, fetchNext, hw]
    simp only []
    split
    · next hthere => exact ih guarded hnames (hraw.known (any_identity_iff.1 hthere))
    · next hthere =>
      have habsent : w.identity ∉ namesOf raw := fun hmem => hthere (any_identity_iff.2 hmem)
      have hcalled := p.called_openCall .fetch w.identity cancelled
      have hevery := p.every_openFetch answers w.identity cancelled
      generalize p.openCall .fetch w.identity cancelled = x at hcalled hevery
      obtain ⟨q, progress⟩ := x
      have hq := guarded.called hcalled
      rw [← hcalled.watchList] at hnames
      have hfetched := comes_fetched hq hnames hraw habsent hevery fun o => ih hq hnames
      cases progress with
      | waiting call => exact .of_called hcalled hfetched
      | returned r => exact .of_called hcalled hfetched

theorem comes_listed (guarded : b.Guarded me p) {progress : Progress Listing (List Setting)}
    (hprogress : progress.Every
      (fun id l => answers.Lists id b.options.selectors l ∧ l.isDone = false)
      fun r => ∀ listed m, r = .ok (listed, m) → answers.Brings b.options.selectors listed) :
    Comes answers me b p (listed me cancelled p progress) := by
  rcases progress with call | (e | ⟨settings, m⟩)
  · exact .running p _ (.refl p) ⟨guarded, hprogress⟩
  · exact .failed p _ (.refl p)
  · have hraw : Brought answers b ([] ++ p.watchList.identities) [] (gather settings) :=
      ⟨guarded.watched, settings, hprogress settings m rfl, .start⟩
    have hnext := comes_fetchNext cancelled p.watchList.identities guarded List.prefix_rfl hraw
    rw [List.nil_append, List.length_nil, ← List.range_eq_range', WatchList.length_identities]
      at hnext
    exact hnext

/-- With the lock, a reload starts to list. -/
theorem comes_enter (hheld : b.lock.holder = some me) :
    Comes answers me b b (enter me cancelled b) := by
  have hme : b.lock.isHeldBy me = true := beq_iff_eq.2 hheld
  rw [enter, if_pos hme]
  have hcalled := b.called_openCall .list (Listing.start b.options.selectors) cancelled
  have hevery := b.every_openList answers b.options.selectors cancelled
  exact .of_called hcalled (comes_listed ((Provider.Guarded.refl hheld).called hcalled) hevery)

/-- **Step.**  What a step of a reload with the lock may come to, whatever reaches it. -/
theorem comes_handle {r : Reload} (hr : r.Holds answers me b p) {i : Input}
    (admitted : i.Admitted answers (r.waits me p)) :
    Comes answers me b p (r.handle me cancelled p i) := by
  have hstay : Comes answers me b p (p, .running r) := .running p r (.refl p) hr
  cases r with
  | waiting => exact hr.elim
  | listing call =>
    have hcalled := p.called_drive .list call i
    have hevery := p.every_drive (Conversation.keeps_list answers _) hr.2 admitted
    exact .of_called hcalled (comes_listed (hr.1.called hcalled) hevery)
  | fetching watched places raw call =>
    obtain ⟨guarded, seen, name, rest, rfl, rfl, hnames, hraw, habsent, hcall⟩ := hr
    have hcalled := p.called_drive .fetch call i
    have hevery := p.every_drive (Conversation.keeps_fetch answers name) hcall admitted
    rw [← hcalled.watchList] at hnames
    have hq := guarded.called hcalled
    exact .of_called hcalled (comes_fetched hq hnames hraw habsent hevery fun o =>
      comes_fetchNext cancelled rest hq hnames)
  | adapting watched s rest previous done =>
    cases i with
    | resumed => exact comes_adapted hr
    | answered ticket reply => exact hstay
    | fallback serial => exact hstay
    | cancelled => exact hstay
    | woke => exact hstay

end Steps

/-- **Run.**  What becomes of a reload from where it gets the lock. -/
theorem comes_of_runs (hheld : b.lock.holder = some me) {x : Step}
    (run : (stepping me).Runs answers (Provider.Heeds me) (enter me cancelled b) x) :
    ∃ p, Comes answers me b p x := by
  induction run with
  | start => exact ⟨b, comes_enter hheld⟩
  | @step p q r before moved cancelled i admitted ih =>
    obtain ⟨p', hcomes⟩ := ih
    cases hcomes with
    | running p r called holds =>
      exact ⟨q, comes_handle (holds.of_guarded (moved holds.guarded.holder)) admitted⟩

/-! ## What a reload leaves -/

/-- A commit notes the token of what it loads for the keys that were watched. -/
theorem tokenAt_commit (me : TaskId) {watched place : Nat} {entries : List Entry}
    (hlt : place < watched) (hplace : p.watchList.identities[place]? = some i) :
    (commit me p watched entries).1.tokenAt place = (Materialized.mk entries).tokenOf i := by
  obtain ⟨w, hw, rfl⟩ := WatchList.exists_get?_of_getElem?_identities hplace
  rw [Provider.tokenAt, get?_commit, hw, Option.map_some, if_pos hlt]
  rfl

/-- **What stands under a name behind a reload in optional mode**: what the rule gives for its
setting, and nothing if no setting has the name.  Every key that was watched has the token of
that. -/
theorem find?_of_runs (optional : b.options.optional = true) (hheld : b.lock.holder = some me)
    (named : answers.Named) (entries : b.materialized.names.Nodup)
    (run : (stepping me).Runs answers (Provider.Heeds me) (enter me cancelled b)
      (q, .finished (.ok ()))) :
    ∃ names raw, Brought answers b names names raw ∧ q.materialized.names.Nodup ∧
      (∀ i, q.materialized.find? i = (raw.find? (·.identity = i)).bind
        (b.pipeline.entryFor (b.materialized.find? i))) ∧
      ∀ place i, b.watchList.identities[place]? = some i →
        q.tokenAt place = q.materialized.tokenOf i := by
  obtain ⟨p, hcomes⟩ := comes_of_runs hheld run
  generalize hx : ((q, .finished (.ok ())) : Step) = x at hcomes
  cases hcomes with
  | running p r called holds => cases hx
  | failed p e called => cases hx
  | committed p names raw called guarded brought =>
    obtain rfl : q = _ := congrArg Prod.fst hx
    have hnodup := brought.nodup named
    refine ⟨names, raw, brought, hnodup.sublist (names_entriesFor_sublist _ _ _), fun i => ?_,
      fun place i hplace => ?_⟩
    · have hfind := find?_entriesFor_eq_bind b.pipeline hnodup (earlier b) i
      rw [earlier, if_pos optional, find?_reverse_of_nodup entries] at hfind
      rw [earlier, if_pos optional]
      exact hfind
    · refine tokenAt_commit me ?_ (getElem?_of_isPrefix guarded.watched hplace)
      exact Nat.lt_of_lt_of_le (List.getElem?_eq_some_iff.1 hplace).1 brought.watched.length_le

end Reload
end ReplicatedConfig
