import ReplicatedConfig.Proofs.History.Changes
import ReplicatedConfig.Proofs.Refusals.Reloads

/-!
# Names that are watched later

That entries and tokens agree (`Provider.Coherent`) needs every name to be watched before the first
load.  A name that is watched later has no token, though something may be loaded under it, until a
reload notes one.  `Provider.Founded` leaves such names out: it says of the places in `noted` that
their tokens are those of what is loaded, and of every name that there is one entry at most under
it.  Which places these are is left open here.

## What a step of an operation does

It keeps this, and if another operation has the lock, it leaves alone what is loaded
(`Provider.Minds`).  So whoever has the lock may rely on `Provider.Heeds`.  For each operation
`Stands` says where it may stand: with the lock, if its next step may change what is loaded, and
with changes that fit the watched names.

The changes of a pass are what its checks hand over (`Pass.Hands`), and they are still that when
they are merged, however many names have come to be watched in between.
-/

namespace ReplicatedConfig

variable {answers : Replies} {noted : Nat → Prop} {me : TaskId} {cancelled : Bool} {p q r : Provider}
  {place : Nat} {i : Identity} {watched : List Identity}

/-! ## What checks hand over -/

/-- A change is about a watched name, and what it brings is a setting of that name. -/
def PointChange.Belongs (watched : List Identity) (c : PointChange) : Prop :=
  ∃ i, watched[c.place]? = some i ∧ ∀ s, c.brings = some s → s.identity = i

/-- A change does not bring what is known already. -/
def PointChange.IsNews (c : PointChange) : Prop := ∀ s, c.brings = some s → c.checked ≠ some s.token

theorem PointChange.Belongs.of_isPrefix {c : PointChange} (hc : c.Belongs watched)
    {names : List Identity} (hnames : watched <+: names) : c.Belongs names :=
  have ⟨i, hplace, hname⟩ := hc
  ⟨i, getElem?_of_isPrefix hnames hplace, hname⟩

namespace Pass

/-- Changes that checks have found, each at a place of its own among the names that were
watched. -/
def Hands (answers : Replies) (watched : List Identity) (f : Findings) : Prop :=
  ∃ places results, places.Nodup ∧
    List.Forall₂ (fun place r => ∀ finding, r = .ok finding →
      Check.Found answers (Names watched) True place finding) places results ∧
    Findings.ofResults results = some f

/-- A change that a check has found. -/
theorem of_found (named : answers.Named) {change : PointChange}
    (h : Check.Found answers (Names watched) True place (.changed change)) :
    change.place = place ∧ change.Belongs watched ∧ change.IsNews := by
  have hnothing {c : PointChange} (hc : c.brings = none) {P : Setting → Prop} :
      ∀ s, c.brings = some s → P s := by
    intro s hs
    cases hc.symm.trans hs
  cases h with
  | @finds i role known f fact finds single =>
    generalize hf : Finding.changed change = f at finds
    cases finds with
    | unchanged verdict => cases hf
    | absent verdict unknown => cases hf
    | removed verdict present =>
      cases hf
      exact ⟨rfl, ⟨i, fact, hnothing rfl⟩, hnothing rfl⟩
    | @read o verdict reply =>
      cases o with
      | none =>
        simp only [Check.findingOf] at hf
        split at hf
        · cases hf
          exact ⟨rfl, ⟨i, fact, hnothing rfl⟩, hnothing rfl⟩
        · cases hf
      | some t =>
        simp only [Check.findingOf] at hf
        split at hf
        · cases hf
        · next hnews =>
          cases hf
          refine ⟨rfl, ⟨i, fact, fun s hs => ?_⟩, fun s hs => ?_⟩
          · cases hs
            exact named.reads reply
          · cases hs
            exact hnews

/-- What the checks of a pass hand over are changes of different keys. -/
theorem Hands.changes (named : answers.Named) {f : Findings} (hands : Hands answers watched f) :
    (f.changes.map (·.place)).Nodup ∧ ∀ c ∈ f.changes, c.Belongs watched ∧ c.IsNews := by
  obtain ⟨places, results, hplaces, hfound, hresults⟩ := hands
  rw [(Findings.of_ofResults hresults).1]
  suffices hall : ((results.filterMap Findings.changeOf?).map (·.place)).Sublist places ∧
      ∀ c ∈ results.filterMap Findings.changeOf?, c.Belongs watched ∧ c.IsNews from
    ⟨hplaces.sublist hall.1, hall.2⟩
  clear hplaces hresults
  induction hfound with
  | nil => exact ⟨.slnil, fun c hc => absurd hc List.not_mem_nil⟩
  | @cons place r places results hhere _ ih =>
    cases hr : Findings.changeOf? r with
    | none =>
      rw [List.filterMap_cons_none hr]
      exact ⟨ih.1.cons place, ih.2⟩
    | some change =>
      have hfinding : r = .ok (.changed change) := by
        unfold Findings.changeOf? at hr
        split at hr <;> cases hr
        rfl
      obtain ⟨rfl, hchange⟩ := of_found named (hhere _ hfinding)
      rw [List.filterMap_cons_some hr, List.map_cons]
      exact ⟨ih.1.cons_cons _, List.forall_mem_cons.2 ⟨hchange, ih.2⟩⟩

end Pass

/-! ## What agrees -/

/-- Different places have different names. -/
theorem ne_of_places {names : List Identity} (nodup : names.Nodup) {j : Identity} {other : Nat}
    (hplace : names[place]? = some i) (hother : names[other]? = some j) (hne : place ≠ other) :
    i ≠ j := by
  rintro rfl
  obtain ⟨hlt, -⟩ := List.getElem?_eq_some_iff.1 hplace
  exact hne ((List.getElem?_inj hlt nodup).1 (hplace.trans hother.symm))

namespace Provider

/-- At every one of these places there is a watched name. -/
def HasNames (p : Provider) (places : Nat → Prop) : Prop :=
  ∀ place, places place → place < p.watchList.identities.length

theorem HasNames.of_isPrefix (hp : p.HasNames noted)
    (names : p.watchList.identities <+: q.watchList.identities) : q.HasNames noted :=
  fun place hnoted => Nat.lt_of_lt_of_le (hp place hnoted) names.length_le

/-- Every entry is what the adapters make of its setting. -/
def Processed (p : Provider) : Prop :=
  ∀ e ∈ p.materialized.entries, p.pipeline.process e.setting = .ok e.pairs

/-- Names and entries are different ones, and the tokens at the places in `noted` are those of what
is loaded. -/
structure Founded (noted : Nat → Prop) (p : Provider) : Prop where
  watched : p.watchList.identities.Nodup
  entries : p.materialized.names.Nodup
  processed : p.Processed
  there : p.HasNames noted
  tokens : ∀ place i, noted place → p.watchList.identities[place]? = some i →
    p.tokenAt place = p.materialized.tokenOf i

namespace Founded

/-- Nothing that is loaded differs. -/
theorem of_same (hp : p.Founded noted) (rules : p.SameRules q)
    (materialized : q.materialized = p.materialized)
    (tokens : ∀ place, q.tokenAt place = p.tokenAt place) : q.Founded noted where
  watched := by
    rw [rules.identities]
    exact hp.watched
  entries := by
    rw [materialized]
    exact hp.entries
  processed := by
    rw [Processed, materialized, rules.pipeline]
    exact hp.processed
  there := by
    rw [HasNames, rules.identities]
    exact hp.there
  tokens place i hnoted hplace := by
    rw [rules.identities] at hplace
    rw [tokens, materialized]
    exact hp.tokens place i hnoted hplace

/-- What is loaded under the name at a place changes, and its token with it. -/
theorem change (hp : p.Founded noted) (rules : p.SameRules q) (entries : q.materialized.names.Nodup)
    (processed : ∀ e ∈ q.materialized.entries,
      e ∈ p.materialized.entries ∨ p.pipeline.process e.setting = .ok e.pairs)
    (hplace : p.watchList.identities[place]? = some i)
    (here : q.tokenAt place = q.materialized.tokenOf i)
    (tokens : ∀ other, place ≠ other → q.tokenAt other = p.tokenAt other)
    (elsewhere : ∀ j, i ≠ j → q.materialized.tokenOf j = p.materialized.tokenOf j) :
    q.Founded noted where
  watched := by
    rw [rules.identities]
    exact hp.watched
  entries := entries
  processed e he := by
    rw [rules.pipeline]
    exact (processed e he).elim (hp.processed e) id
  there := by
    rw [HasNames, rules.identities]
    exact hp.there
  tokens other j hnoted hother := by
    rw [rules.identities] at hother
    by_cases hne : place = other
    · subst hne
      cases hplace.symm.trans hother
      exact here
    · have hname : i ≠ j := ne_of_places hp.watched hplace hother hne
      rw [tokens other hne, elsewhere j hname]
      exact hp.tokens other j hnoted hother

theorem setToken_none (hp : p.Founded noted) (hplace : p.watchList.identities[place]? = some i)
    (absent : p.materialized.find? i = none) : (p.setToken place none).Founded noted := by
  refine hp.change (p.sameRules_setToken place none) hp.entries (fun _ => .inl) hplace ?_
    (fun other hne => p.tokenAt_setToken hne none) fun j _ => rfl
  rw [p.tokenAt_setToken_self place hplace]
  exact (Option.map_eq_none_iff.2 absent).symm

theorem withoutSetting (hp : p.Founded noted) (hplace : p.watchList.identities[place]? = some i) :
    (p.withoutSetting place i).Founded noted := by
  refine hp.change (p.sameRules_withoutSetting place i)
    (hp.entries.sublist (p.materialized.names_remove_sublist i))
    (fun e he => .inl ((Materialized.drop_sublist i _).subset he)) hplace ?_
    (fun other hne => p.tokenAt_setToken hne none)
    fun j hne => Materialized.tokenOf_remove_of_ne hne
  exact (p.tokenAt_setToken_self place hplace none).trans
    (Materialized.tokenOf_remove_self hp.entries).symm

theorem withEntry (hp : p.Founded noted) {e : Entry}
    (hplace : p.watchList.identities[place]? = some e.identity)
    (he : p.pipeline.process e.setting = .ok e.pairs) : (p.withEntry place e).Founded noted := by
  refine hp.change (p.sameRules_withEntry place e) (Materialized.nodup_upsert hp.entries)
    (fun f hf => ?_) hplace ?_ (fun other hne => p.tokenAt_setToken hne _)
    fun j hne => Materialized.tokenOf_upsert_of_ne hne
  · rcases Materialized.mem_of_mem_put hf with rfl | hf
    · exact .inr he
    · exact .inl hf
  · exact (p.tokenAt_setToken_self place hplace _).trans (p.materialized.tokenOf_upsert_self e).symm

theorem commit (hp : p.Founded noted) (me : TaskId) {watched : Nat}
    (hwatched : ∀ place, noted place → place < watched) {entries : List Entry}
    (nodup : (entries.map (·.identity)).Nodup)
    (processed : ∀ e ∈ entries, p.pipeline.process e.setting = .ok e.pairs) :
    (Reload.commit me p watched entries).1.Founded noted where
  watched := by
    rw [Reload.identities_commit]
    exact hp.watched
  entries := nodup
  processed := processed
  there := by
    rw [HasNames, Reload.identities_commit]
    exact hp.there
  tokens place i hnoted hplace := by
    rw [Reload.identities_commit] at hplace
    exact Reload.tokenAt_commit me (hwatched place hnoted) hplace

/-- A name that is watched now comes behind the others. -/
theorem watch (hp : p.Founded noted) {request : WatchRequest} (hq : p.watch request = .ok q) :
    q.Founded noted ∧ p.watchList.identities <+: q.watchList.identities ∧
      ∀ me, p.Heeds me q := by
  obtain ⟨l, place, hl, rfl⟩ := exists_register_of_watch hq
  have hnames : p.watchList.identities <+: l.identities := by
    rcases WatchList.register_cases hl with ⟨-, hknown⟩ | ⟨-, rfl⟩
    · exact ⟨[], (List.append_nil _).trans (WatchList.identities_of_known hknown).symm⟩
    · show p.watchList.identities <+: (p.watchList.watches ++ [_]).map _
      rw [List.map_append]
      exact List.prefix_append _ _
  refine ⟨⟨WatchList.nodup_register hp.watched hl, hp.entries, hp.processed,
    hp.there.of_isPrefix hnames, fun place i hnoted hplace => ?_⟩, hnames,
    fun me hheld => ⟨hheld, rfl, rfl, hnames, rfl, WatchList.token_register hl⟩⟩
  have hthere : p.watchList.identities[place]? = some i := by
    have hhere := List.getElem?_eq_getElem (hp.there place hnoted)
    rw [hhere, ← hplace]
    exact (getElem?_of_isPrefix hnames hhere).symm
  exact (WatchList.token_register hl place).trans (hp.tokens place i hnoted hthere)

end Founded

/-! ## What a step of an operation does -/

/-- A step of the operation `me`, which minds the lock of others. -/
structure Minds (noted : Nat → Prop) (me : TaskId) (p q : Provider) : Prop where
  rules : p.SameRules q
  founded : q.Founded noted
  heeds : ∀ other, other ≠ me → p.Heeds other q

namespace Minds

theorem trans (hq : p.Minds noted me q) (hr : q.Minds noted me r) : p.Minds noted me r where
  rules := hq.rules.trans hr.rules
  founded := hr.founded
  heeds other hne := (hq.heeds other hne).trans (hr.heeds other hne)

/-- Nothing that is loaded differs, and the lock is taken from nobody. -/
theorem of_same (hp : p.Founded noted) (rules : p.SameRules q)
    (materialized : q.materialized = p.materialized)
    (tokens : ∀ place, q.tokenAt place = p.tokenAt place)
    (holder : ∀ other, other ≠ me → p.lock.holder = some other → q.lock.holder = some other) :
    p.Minds noted me q where
  rules := rules
  founded := hp.of_same rules materialized tokens
  heeds other hne hheld :=
    ⟨holder other hne hheld, rules.options, rules.pipeline, rules.names, materialized, tokens⟩

/-- Who has the lock may change what is loaded. -/
theorem of_held (hheld : p.lock.holder = some me) (rules : p.SameRules q) (hq : q.Founded noted) :
    p.Minds noted me q :=
  ⟨rules, hq, fun _ hne hother => absurd (Option.some.inj (hother.symm.trans hheld)) hne⟩

theorem refl (hp : p.Founded noted) : p.Minds noted me p :=
  of_same hp (.refl p) rfl (fun _ => rfl) fun _ _ => id

theorem called (hp : p.Founded noted) (hq : p.Called q) : p.Minds noted me q := by
  refine of_same hp hq.sameRules hq.materialized (fun place => ?_)
    fun _ _ => (congrArg Lock.holder hq.lock).trans
  rw [tokenAt, tokenAt, hq.watchList]

theorem checked {places : List Nat} (hp : p.Founded noted) (hq : p.Checked places q) :
    p.Minds noted me q :=
  of_same hp hq.sameRules hq.materialized (tokenAt_of_known (WatchList.known_of_facts hq.facts))
    fun _ _ => (congrArg Lock.holder hq.lock).trans

theorem acquire (hp : p.Founded noted) : p.Minds noted me (p.acquire me) :=
  of_same hp ⟨rfl, rfl, rfl⟩ rfl (fun _ => rfl) fun _ _ => Lock.holder_request me

theorem release (hp : p.Founded noted) : p.Minds noted me (p.release me) :=
  of_same hp ⟨rfl, rfl, rfl⟩ rfl (fun _ => rfl) fun _ => Lock.holder_leave

theorem publish (hp : p.Founded noted) : p.Minds noted me p.publish :=
  of_same hp ⟨rfl, rfl, rfl⟩ rfl (fun _ => rfl) fun _ _ => id

theorem countPass (hp : p.Founded noted) (result : PassResult) :
    p.Minds noted me (p.countPass result) :=
  of_same hp ⟨rfl, rfl, rfl⟩ rfl (fun _ => rfl) fun _ _ => id

end Minds

/-- A step leads an operation in phases to where it may stand, or to its end. -/
def Minding {μ α : Type} (stands : Provider → μ → Prop) (noted : Nat → Prop) (me : TaskId)
    (p : Provider) : Provider × Stage μ α → Prop
  | (q, .running phase) => p.Minds noted me q ∧ stands q phase
  | (q, .finished _) => p.Minds noted me q

theorem Minding.of_minds {μ α : Type} {stands : Provider → μ → Prop} {x : Provider × Stage μ α}
    (hq : p.Minds noted me q) (hx : q.Minding stands noted me x) : p.Minding stands noted me x := by
  obtain ⟨r, phase | result⟩ := x
  · exact ⟨hq.trans hx.1, hx.2⟩
  · exact Minds.trans hq hx

end Provider

/-! ## Reloads -/

namespace Reload

/-- Where a reload may stand: it waits for the lock, or it got it when the names at the places in
`noted` were watched. -/
def Stands (answers : Replies) (noted : Nat → Prop) (me : TaskId) (p : Provider) (r : Reload) :
    Prop :=
  r = .waiting ∨ ∃ b : Provider, b.HasNames noted ∧ r.Holds answers me b p

theorem Stands.of_heeds {r : Reload} (hr : r.Stands answers noted me p) (hq : p.Heeds me q) :
    r.Stands answers noted me q := by
  rcases hr with rfl | ⟨b, hthere, hholds⟩
  · exact .inl rfl
  · exact .inr ⟨b, hthere, hholds.of_guarded (hq hholds.guarded.holder)⟩

/-- A step of a reload. -/
abbrev Minding (answers : Replies) (noted : Nat → Prop) (me : TaskId) (p : Provider) : Step → Prop :=
  p.Minding (Stands answers noted me) noted me

theorem minding_of_comes (named : answers.Named) (hp : p.Founded noted) {b : Provider}
    (hthere : b.HasNames noted) {x : Step} (hx : Comes answers me b p x) :
    Minding answers noted me p x := by
  cases hx with
  | running q r called holds => exact ⟨.called hp called, .inr ⟨b, hthere, holds⟩⟩
  | failed q e called =>
    have hq : p.Minds noted me q := .called hp called
    exact hq.trans (.release hq.founded)
  | committed q names raw called guarded brought =>
    have hq : p.Minds noted me q := .called hp called
    refine hq.trans (.of_held guarded.holder ⟨rfl, rfl, identities_commit me q _ _⟩ ?_)
    refine hq.founded.commit me (fun place hnoted =>
      Nat.lt_of_lt_of_le (hthere place hnoted) brought.watched.length_le)
      ((brought.nodup named).sublist (names_entriesFor_sublist _ _ _)) fun e he => ?_
    rw [guarded.pipeline]
    refine process_of_mem_entriesFor (fun f hf => ?_) he
    rw [← guarded.pipeline]
    exact hq.founded.processed f (guarded.materialized ▸ mem_of_mem_earlier hf)

theorem minding_enter (named : answers.Named) (hp : p.Founded noted) :
    Minding answers noted me p (enter me cancelled p) := by
  by_cases hheld : p.lock.holder = some me
  · exact minding_of_comes named hp hp.there (comes_enter hheld)
  · have hme : ¬ p.lock.isHeldBy me = true := fun hme => hheld (eq_of_beq hme)
    rw [enter, if_neg hme]
    exact ⟨.refl hp, .inl rfl⟩

theorem minding_begin (named : answers.Named) (hp : p.Founded noted) :
    Minding answers noted me p (begin me cancelled p) :=
  have hacquire : p.Minds noted me (p.acquire me) := .acquire hp
  .of_minds hacquire (minding_enter named hacquire.founded)

theorem minding_handle (named : answers.Named) (hp : p.Founded noted) {r : Reload}
    (hr : r.Stands answers noted me p) {i : Input} (admitted : i.Admitted answers (r.waits me p)) :
    Minding answers noted me p (r.handle me cancelled p i) := by
  rcases hr with rfl | ⟨b, hthere, hholds⟩
  · have hstay : Minding answers noted me p (p, .running .waiting) := ⟨.refl hp, .inl rfl⟩
    cases i with
    | resumed => exact minding_enter named hp
    | answered ticket reply => exact hstay
    | fallback serial => exact hstay
    | cancelled => exact hstay
    | woke => exact hstay
  · exact minding_of_comes named hp hthere (comes_handle hholds admitted)

end Reload

/-! ## Merges -/

namespace Merge

/-- Where a merge may stand. -/
def Stands (me : TaskId) (p : Provider) : Merge → Prop
  | .waiting changes _ => ∀ c ∈ changes, c.Belongs p.watchList.identities
  | .adapting place s rest _ _ => p.lock.holder = some me ∧
    ∃ checked, ∀ c ∈ PointChange.upsert place checked s :: rest, c.Belongs p.watchList.identities

theorem Stands.of_heeds {m : Merge} (hm : m.Stands me p) (hq : p.Heeds me q)
    (names : p.watchList.identities <+: q.watchList.identities) : m.Stands me q := by
  cases m with
  | waiting changes fs => exact fun c hc => (hm c hc).of_isPrefix names
  | adapting place s rest n fs =>
    obtain ⟨hheld, checked, hchanges⟩ := hm
    exact ⟨(hq hheld).holder, checked, fun c hc => (hchanges c hc).of_isPrefix names⟩

/-- A merge that started from `p` has the lock, and changes are still to come. -/
structure Merges (noted : Nat → Prop) (me : TaskId) (p q : Provider) (changes : List PointChange) :
    Prop where
  minds : p.Minds noted me q
  holder : q.lock.holder = some me
  belong : ∀ c ∈ changes, c.Belongs q.watchList.identities

/-- The first change has been merged. -/
theorem Merges.next {change : PointChange} {rest : List PointChange}
    (h : Merges noted me p q (change :: rest)) (rules : q.SameRules r) (hr : r.Founded noted)
    (lock : r.lock = q.lock) : Merges noted me p r rest where
  minds := h.minds.trans (.of_held h.holder rules hr)
  holder := (congrArg Lock.holder lock).trans h.holder
  belong c hc := (h.belong c (List.mem_cons_of_mem _ hc)).of_isPrefix rules.names

/-- What a merge keeps that started from `p`. -/
def minding (noted : Nat → Prop) (me : TaskId) (p : Provider) : Lasting me where
  before q _ changes := p.Minds noted me q ∧ ∀ c ∈ changes, c.Belongs q.watchList.identities
  after q _ _ changes := Merges noted me p q changes
  enters h hheld := ⟨h.1, eq_of_beq hheld, h.2⟩
  stale h _ := h.next (.refl _) h.minds.founded rfl
  absent := by
    intro q n fs place checked rest h _ absent
    obtain ⟨i, hplace, -⟩ := h.belong _ List.mem_cons_self
    obtain ⟨w, hw, rfl⟩ := WatchList.exists_get?_of_getElem?_identities hplace
    exact h.next (q.sameRules_setToken place none)
      (h.minds.founded.setToken_none hplace (absent w hw)) rfl
  removed := by
    intro q n fs place checked rest w h _ hw _
    have hplace := WatchList.getElem?_identities_of_get? hw
    exact h.next (q.sameRules_withoutSetting place w.identity)
      (h.minds.founded.withoutSetting hplace) rfl
  upserted := by
    intro q n fs place checked s rest pairs h hpairs
    obtain ⟨i, hplace, hname⟩ := h.belong _ List.mem_cons_self
    obtain rfl : s.identity = i := hname s rfl
    exact h.next (q.sameRules_withEntry place ⟨s, pairs⟩)
      (h.minds.founded.withEntry hplace hpairs) rfl
  refused h _ := h.next (.refl _) h.minds.founded rfl

end Merge

/-! ## Passes -/

namespace Pass

/-- Findings that checks have handed over. -/
def Handed (answers : Replies) (p : Provider) (f : Findings) : Prop :=
  ∃ watched, watched <+: p.watchList.identities ∧ Hands answers watched f

theorem Handed.of_isPrefix {f : Findings} (hf : Handed answers p f)
    (names : p.watchList.identities <+: q.watchList.identities) : Handed answers q f :=
  have ⟨watched, hwatched, hands⟩ := hf
  ⟨watched, hwatched.trans names, hands⟩

theorem Handed.belong (named : answers.Named) {f : Findings} (hf : Handed answers p f) :
    ∀ c ∈ f.changes, c.Belongs p.watchList.identities := by
  obtain ⟨watched, hwatched, hands⟩ := hf
  exact fun c hc => ((hands.changes named).2 c hc).1.of_isPrefix hwatched

/-- Where a pass may stand. -/
def Stands (answers : Replies) (noted : Nat → Prop) (me : TaskId) (p : Provider) : Pass → Prop
  | .loading r => r.Stands answers noted me p
  | .checking checks => ∃ (watched : List Identity) (places : List Nat),
    watched <+: p.watchList.identities ∧ places.Nodup ∧ (∀ place ∈ places, place < watched.length) ∧
    Beside answers (Names watched) True p places checks
  | .reloading f r => Handed answers p f ∧ r.Stands answers noted me p
  | .merging f m => Handed answers p f ∧ m.Stands me p

theorem Stands.of_heeds {s : Pass} (hs : s.Stands answers noted me p) (hq : p.Heeds me q)
    (names : p.watchList.identities <+: q.watchList.identities) : s.Stands answers noted me q := by
  cases s with
  | loading r => exact Reload.Stands.of_heeds hs hq
  | checking checks =>
    obtain ⟨watched, places, hwatched, hplaces, hrange, hchecks⟩ := hs
    exact ⟨watched, places, hwatched.trans names, hplaces, hrange, hchecks.of_ready (.inl trivial)⟩
  | reloading f r => exact ⟨hs.1.of_isPrefix names, hs.2.of_heeds hq⟩
  | merging f m => exact ⟨hs.1.of_isPrefix names, hs.2.of_heeds hq names⟩

/-- A step of a pass. -/
abbrev Minding (answers : Replies) (noted : Nat → Prop) (me : TaskId) (p : Provider) : Step → Prop :=
  p.Minding (Stands answers noted me) noted me

section Steps

variable {f : Findings} {failures : List ProviderError}

theorem minding_finish (hp : p.Founded noted) {reloaded published : Bool} :
    Minding answers noted me p (finish p f failures reloaded published) := by
  cases failures with
  | nil => exact Provider.Minds.countPass hp _
  | cons first rest => exact Provider.Minds.countPass hp _

theorem minding_loaded {x : Reload.Step} (hx : Reload.Minding answers noted me p x) :
    Minding answers noted me p (loaded x.1 x.2) := by
  obtain ⟨q, r | result⟩ := x
  · exact hx
  · have hq : p.Minds noted me q := hx
    cases result with
    | error e => exact hq.trans (.countPass hq.founded _)
    | ok u => exact hq.trans (.countPass hq.founded _)

theorem minding_merged (hf : Handed answers p f) {x : Merge.Step}
    (hx : (Merge.minding noted me p).Comes x) : Minding answers noted me p (merged x.1 f x.2) := by
  cases hx with
  | running q m stands =>
    cases m with
    | waiting changes fs => exact ⟨stands.1, hf.of_isPrefix stands.1.rules.names, stands.2⟩
    | adapting place s rest n fs =>
      obtain ⟨checked, h⟩ := stands
      exact ⟨h.minds, hf.of_isPrefix h.minds.rules.names, h.holder, checked, h.belong⟩
  | idle q fs after =>
    have hrelease := after.minds.trans (.release after.minds.founded)
    exact .of_minds hrelease (minding_finish hrelease.founded)
  | published q n fs after =>
    have hpublish := after.minds.trans (.publish after.minds.founded)
    have hrelease := hpublish.trans (.release hpublish.founded)
    exact .of_minds hrelease (minding_finish hrelease.founded)

theorem minding_mergeChanges (named : answers.Named) (hp : p.Founded noted)
    (hf : Handed answers p f) : Minding answers noted me p (mergeChanges me p f failures) := by
  unfold mergeChanges
  split
  · exact minding_finish hp
  · exact minding_merged hf (Merge.Lasting.comes_begin ⟨.acquire hp, hf.belong named⟩)

/-- A reload that fails gives way to the merge. -/
theorem minding_reloaded (named : answers.Named) (hf : Handed answers p f) {x : Reload.Step}
    (hx : Reload.Minding answers noted me p x) :
    Minding answers noted me p (reloaded me x.1 f x.2) := by
  obtain ⟨q, r | result⟩ := x
  · exact ⟨hx.1, hf.of_isPrefix hx.1.rules.names, hx.2⟩
  · have hq : p.Minds noted me q := hx
    have hmerge {failures : List ProviderError} :
        Minding answers noted me p (mergeChanges me q f failures) :=
      .of_minds hq (minding_mergeChanges named hq.founded (hf.of_isPrefix hq.rules.names))
    cases result with
    | ok u => exact .of_minds hq (minding_finish hq.founded)
    | error e =>
      cases e with
      | cancelled => exact hq
      | failover e => exact hmerge
      | adapter e => exact hmerge
      | refreshFailed failed checked first => exact hmerge
      | startupTimeout timeout last => exact hmerge

/-- Once all checks have ended, they hand over what they have found. -/
theorem minding_checked (named : answers.Named) (hp : p.Founded noted) {checks : List Check}
    (hs : (Pass.checking checks).Stands answers noted me p) :
    Minding answers noted me p (checked me cancelled p checks) := by
  unfold checked
  split
  · exact ⟨.refl hp, hs⟩
  · next results hresults =>
    split
    · exact Provider.Minds.refl hp
    · next f hf =>
      obtain ⟨watched, places, hwatched, hplaces, -, hchecks⟩ := hs
      have hands : Handed answers p f :=
        ⟨watched, hwatched, places, results, hplaces, found_of_results hchecks hresults, hf⟩
      split
      · exact minding_reloaded named hands (Reload.minding_begin named hp)
      · exact minding_mergeChanges named hp hands

theorem minding_begin (named : answers.Named) (hp : p.Founded noted) :
    Minding answers noted me p (begin me cancelled p) := by
  unfold begin
  split
  · exact Provider.Minds.refl hp
  · split
    · split
      · exact Provider.Minds.refl hp
      · refine ⟨.refl hp, p.watchList.identities, p.watchList.due p.now, List.prefix_rfl,
          List.nodup_range.filter _, fun place hplace => ?_, beside_ready fun _ _ => .inl trivial⟩
        rw [WatchList.length_identities]
        exact List.mem_range.1 (List.mem_filter.1 hplace).1
    · exact minding_loaded (Reload.minding_begin named hp)

/-- The names that were watched are at their places. -/
theorem known_of_isPrefix (hwatched : watched <+: p.watchList.identities) {places : List Nat}
    (hrange : ∀ place ∈ places, place < watched.length) : Known (Names watched) p places := by
  intro place hplace
  obtain ⟨i, hhere⟩ : ∃ i, watched[place]? = some i :=
    ⟨_, List.getElem?_eq_getElem (hrange place hplace)⟩
  obtain ⟨w, hw, rfl⟩ :=
    WatchList.exists_get?_of_getElem?_identities (getElem?_of_isPrefix hwatched hhere)
  have hget : p.watchList.watches[place]? = some w := hw
  refine ⟨w.fact, ?_, hhere⟩
  rw [WatchList.facts, List.getElem?_map, hget, Option.map_some]

/-- **A step of a pass**, whatever reaches it. -/
theorem minding_handle (named : answers.Named) (hp : p.Founded noted) {s : Pass}
    (hs : s.Stands answers noted me p) {i : Input} (admitted : i.Admitted answers (s.waits me p)) :
    Minding answers noted me p (s.handle me cancelled p i) := by
  cases s with
  | loading r => exact minding_loaded (Reload.minding_handle named hp hs admitted)
  | checking checks =>
    obtain ⟨watched, places, hwatched, hplaces, hrange, hchecks⟩ := hs
    obtain ⟨hchecked, hchecks⟩ := goes_checks cancelled (known_of_isPrefix hwatched hrange) eq_of_names
      hplaces hchecks admitted
    have hq : p.Minds noted me _ := .checked hp hchecked
    refine .of_minds hq (minding_checked named hq.founded ?_)
    exact ⟨watched, places, hwatched.trans hq.rules.names, hplaces, hrange, hchecks⟩
  | reloading f r =>
    exact minding_reloaded named hs.1 (Reload.minding_handle named hp hs.2 admitted)
  | merging f m =>
    refine minding_merged hs.1 (Merge.Lasting.comes_handle ?_ i)
    cases m with
    | waiting changes fs => exact ⟨.refl hp, hs.2⟩
    | adapting place s rest n fs =>
      obtain ⟨hheld, checked, hbelong⟩ := hs.2
      exact ⟨checked, .refl hp, hheld, hbelong⟩

end Steps

/-- Dropping a pass lets go what it holds. -/
theorem minds_abandon (hp : p.Founded noted) (s : Pass) : p.Minds noted me (s.abandon me p) := by
  cases s with
  | loading r => exact .release hp
  | checking checks =>
    obtain ⟨places, hchecked, -⟩ := p.checked_abandon checks
    exact .checked hp hchecked
  | reloading f r => exact .release hp
  | merging f m => exact .release hp

end Pass
end ReplicatedConfig
