import ReplicatedConfig.Adapter.Transforms
import ReplicatedConfig.Proofs.Refresh.Contents
import ReplicatedConfig.Proofs.Refusals.Reached

/-!
# Merges whose settings are refused

A merge passes over a change whose setting the adapters refuse.  What this leaves has to be the same
as what a reload leaves: the entry that was loaded, and its token.  Three things together make it
so.  The changes of a pass are found at different places, each of them brings a setting of the name
at its place, and the merge of one change touches no other name and no other place
(`Absorbing.tail`).  So what a change finds is what stood there when the merge got the lock,
whatever has been merged before it, and what it leaves (`PointChange.leaves`) stays.

A change that has been overtaken since its check leaves everything as it is.  For a setting that is
refused it makes no difference.

## In every state

`Engine.retained_of_refused` is the rule for reloads and merges, wherever the engine may come to.  It
has a word on tokens, too.  A reload notes the token of every key that was watched when it began, and
from then on the token is that of the entry: a merge keeps it so.  What is left out is a key that has
come to be watched when something was loaded under its name already, and no reload has come since: no
token is known for it.

## The token of a setting that is refused

Adapters are functions of the setting, so a setting that is refused is not the one that is loaded
under its name.  That its token is not noted is a different matter.  A store is to change the token
whenever it changes the value; one that does not may give the same token to both, and then what is
left is the token of either.  `Provider.TellsApart` is what is needed of the store, for one setting
and for what is loaded under its name.
-/

namespace ReplicatedConfig

variable {answers : Replies} {events : List Event} {me : TaskId} {b p q : Provider}
  {place : Nat} {i : Identity} {change : PointChange} {changes rest : List PointChange}

/-! ## What a change leaves -/

/-- What a change leaves under its name and at its place, given the entry and the token that were
there before. -/
def PointChange.leaves (pipeline : Pipeline) (before : Option Entry × Option Token) :
    PointChange → Option Entry × Option Token
  | .upsert _ _ s =>
    match pipeline.process s with
    | .ok pairs => (some ⟨s, pairs⟩, some s.token)
    | .error _ => before
  | .remove .. => (none, none)

/-- The token of an entry comes with it. -/
theorem PointChange.token_leaves (pipeline : Pipeline) (c : PointChange)
    {before : Option Entry × Option Token} (h : before.2 = before.1.map (·.setting.token)) :
    (c.leaves pipeline before).2 = (c.leaves pipeline before).1.map (·.setting.token) := by
  cases c with
  | upsert place checked s =>
    rw [leaves]
    cases pipeline.process s with
    | ok pairs => rfl
    | error e => exact h
  | remove place checked => rfl

namespace Provider

/-- The entry that is loaded under a name, and the token that is known at a place. -/
def holds (p : Provider) (place : Nat) (i : Identity) : Option Entry × Option Token :=
  (p.materialized.find? i, p.tokenAt place)

/-- The token of a setting tells it from what is loaded under its name, unless they are the same. -/
def TellsApart (p : Provider) (s : Setting) : Prop :=
  ∀ e, p.materialized.find? s.identity = some e → e.setting.token = s.token → e.setting = s

/-- A setting that is refused has another token than what is loaded under its name. -/
theorem Processed.tokenOf_ne (hp : p.Processed) {s : Setting} {error : AdapterError}
    (refused : p.pipeline.process s = .error error) (tells : p.TellsApart s) :
    p.materialized.tokenOf s.identity ≠ some s.token := by
  intro htoken
  obtain ⟨e, he, hsame⟩ := Option.map_eq_some_iff.1 htoken
  have haccepted := hp e (List.mem_of_find?_eq_some he)
  rw [tells e he hsame, refused] at haccepted
  cases haccepted

/-- Where nothing differs, a token that was that of the entry is so still. -/
theorem tokenAt_eq_of_holds_eq (h : q.holds place i = p.holds place i)
    (agrees : p.tokenAt place = p.materialized.tokenOf i) :
    q.tokenAt place = q.materialized.tokenOf i := by
  have hentry : q.materialized.find? i = p.materialized.find? i := congrArg Prod.fst h
  have htoken : q.tokenAt place = p.tokenAt place := congrArg Prod.snd h
  rw [htoken, agrees, Materialized.tokenOf, Materialized.tokenOf, hentry]

/-- A change has left what it leaves, or it had been overtaken. -/
def Absorbed (b p : Provider) (c : PointChange) : Prop :=
  ∀ i, b.watchList.identities[c.place]? = some i →
    p.holds c.place i = c.leaves b.pipeline (b.holds c.place i) ∨
      ¬ c.IsCurrent b ∧ p.holds c.place i = b.holds c.place i

namespace Absorbed

variable {checked : Option Token} {s : Setting}

theorem holds_of_ok (h : b.Absorbed p (.upsert place checked s))
    (hplace : b.watchList.identities[place]? = some s.identity) {pairs : List Pair}
    (hpairs : b.pipeline.process s = .ok pairs) (current : b.tokenAt place = checked) :
    p.holds place s.identity = (some ⟨s, pairs⟩, some s.token) := by
  rcases h _ hplace with hleft | ⟨hstale, -⟩
  · simp only [PointChange.leaves, hpairs] at hleft
    exact hleft
  · exact absurd current hstale

/-- Whether it had been overtaken or not: a setting that is refused makes no difference. -/
theorem holds_of_error (h : b.Absorbed p (.upsert place checked s))
    (hplace : b.watchList.identities[place]? = some s.identity) {e : AdapterError}
    (he : b.pipeline.process s = .error e) :
    p.holds place s.identity = b.holds place s.identity := by
  rcases h _ hplace with hleft | ⟨-, hsame⟩
  · simp only [PointChange.leaves, he] at hleft
    exact hleft
  · exact hsame

/-- A token that was that of the entry is so still. -/
theorem tokenAt_eq (h : b.Absorbed p change)
    (hplace : b.watchList.identities[change.place]? = some i)
    (agrees : b.tokenAt change.place = b.materialized.tokenOf i) :
    p.tokenAt change.place = p.materialized.tokenOf i := by
  rcases h i hplace with hleft | ⟨-, hsame⟩
  · have hb : (b.holds change.place i).2 = (b.holds change.place i).1.map (·.setting.token) := agrees
    have htoken := change.token_leaves b.pipeline hb
    rw [← hleft] at htoken
    exact htoken
  · exact tokenAt_eq_of_holds_eq hsame agrees

end Absorbed

theorem Guarded.holds (hq : p.Guarded me q) (place : Nat) (i : Identity) :
    q.holds place i = p.holds place i := by
  rw [Provider.holds, Provider.holds, hq.materialized, hq.tokens]

end Provider

/-! ## Merging under the lock -/

/-- While changes are merged from `b` on, everything is as it was but where they have been merged,
and there it is as they have left it. -/
structure Absorbing (me : TaskId) (b : Provider) (changes : List PointChange) (p : Provider)
    (rest : List PointChange) : Prop where
  holder : p.lock.holder = some me
  pipeline : p.pipeline = b.pipeline
  watched : b.watchList.identities <+: p.watchList.identities
  entries : p.materialized.names.Nodup
  absorbed : ∃ done, changes = done ++ rest ∧
    (∀ place i, b.watchList.identities[place]? = some i → place ∉ done.map (·.place) →
      p.holds place i = b.holds place i) ∧
    ∀ c ∈ done, b.Absorbed p c

namespace Absorbing

theorem head_mem (h : Absorbing me b changes p (change :: rest)) : change ∈ changes := by
  obtain ⟨done, rfl, -⟩ := h.absorbed
  exact List.mem_append_right _ List.mem_cons_self

/-- What the next change finds is what was there at the beginning. -/
theorem holds_head (h : Absorbing me b changes p (change :: rest))
    (places : (changes.map (·.place)).Nodup)
    (hplace : b.watchList.identities[change.place]? = some i) :
    p.holds change.place i = b.holds change.place i := by
  obtain ⟨done, rfl, huntouched, -⟩ := h.absorbed
  rw [List.map_append, List.map_cons, List.nodup_middle, List.nodup_cons] at places
  exact huntouched _ i hplace fun hmem => places.1 (List.mem_append_left _ hmem)

/-- **One change more has been merged.**  It has touched no other name and no other place. -/
theorem tail (h : Absorbing me b changes p (change :: rest))
    (places : (changes.map (·.place)).Nodup) (lock : q.lock = p.lock)
    (rules : p.SameRules q) (entries : q.materialized.names.Nodup)
    (elsewhere : ∀ place i, b.watchList.identities[place]? = some i → change.place ≠ place →
      q.holds place i = p.holds place i)
    (here : b.Absorbed q change) : Absorbing me b changes q rest := by
  obtain ⟨done, rfl, huntouched, habsorbed⟩ := h.absorbed
  rw [List.map_append, List.map_cons, List.nodup_middle, List.nodup_cons] at places
  refine ⟨(congrArg Lock.holder lock).trans h.holder, rules.pipeline.trans h.pipeline,
    h.watched.trans rules.names, entries, done ++ [change],
    by rw [List.append_assoc, List.singleton_append], fun place i hplace hnot => ?_, fun c hc => ?_⟩
  · rw [List.map_append, List.mem_append, not_or] at hnot
    rw [elsewhere place i hplace fun heq => hnot.2 (List.mem_singleton.2 heq.symm)]
    exact huntouched place i hplace hnot.1
  · rcases List.mem_append.1 hc with hc | hc
    · intro i hplace
      have hne : change.place ≠ c.place := fun heq =>
        places.1 (List.mem_append_left _ (heq ▸ List.mem_map_of_mem hc))
      rw [elsewhere c.place i hplace hne]
      exact habsorbed c hc i hplace
    · rw [List.mem_singleton.1 hc]
      exact here

theorem of_guarded (h : Absorbing me b changes p rest) (hq : p.Guarded me q) :
    Absorbing me b changes q rest := by
  obtain ⟨done, hchanges, huntouched, habsorbed⟩ := h.absorbed
  refine ⟨hq.holder, hq.pipeline.trans h.pipeline, h.watched.trans hq.watched, ?_, done, hchanges,
    fun place i hplace hnot => ?_, fun c hc i hplace => ?_⟩
  · rw [hq.materialized]
    exact h.entries
  · rw [hq.holds]
    exact huntouched place i hplace hnot
  · rw [hq.holds]
    exact habsorbed c hc i hplace

end Absorbing

namespace Merge

/-- What lasts through a merge that got the lock at `b`. -/
def absorbing (me : TaskId) (b : Provider) (changes : List PointChange)
    (watched : b.watchList.identities.Nodup) (places : (changes.map (·.place)).Nodup)
    (belong : ∀ c ∈ changes, c.Belongs b.watchList.identities) : Lasting me where
  before _ _ _ := False
  after p _ _ rest := Absorbing me b changes p rest
  enters h _ := h.elim
  stale := by
    intro p n fs change rest h hstale
    refine h.tail places rfl (.refl p) h.entries (fun _ _ _ _ => rfl) fun i hplace => .inr ⟨?_, ?_⟩
    · have htoken : p.tokenAt change.place = b.tokenAt change.place :=
        congrArg Prod.snd (h.holds_head places hplace)
      rwa [PointChange.IsCurrent, ← htoken]
    · exact h.holds_head places hplace
  absent := by
    intro p n fs place checked rest h _ absent
    refine h.tail places rfl (p.sameRules_setToken place none) h.entries
      (fun other j _ hne => ?_) fun i hplace => .inl ?_
    · exact congrArg (Prod.mk _) (p.tokenAt_setToken hne none)
    · have hthere := getElem?_of_isPrefix h.watched hplace
      have htoken := p.tokenAt_setToken_self place hthere none
      obtain ⟨w, hw, rfl⟩ := WatchList.exists_get?_of_getElem?_identities hthere
      exact Prod.ext (absent w hw) htoken
  removed := by
    intro p n fs place checked rest w h _ hw _
    obtain ⟨i, hplace, -⟩ := belong _ h.head_mem
    have hthere := getElem?_of_isPrefix h.watched hplace
    have htoken := p.tokenAt_setToken_self place hthere none
    have hname := WatchList.getElem?_identities_of_get? hw
    obtain rfl : w.identity = i := Option.some.inj (hname.symm.trans hthere)
    refine h.tail places rfl (p.sameRules_withoutSetting place w.identity)
      (h.entries.sublist (p.materialized.names_remove_sublist w.identity))
      (fun other j hother hne => ?_) fun j hj => .inl ?_
    · exact Prod.ext (Materialized.find?_remove_of_ne (ne_of_places watched hplace hother hne))
        (p.tokenAt_setToken hne none)
    · cases hplace.symm.trans hj
      exact Prod.ext (Materialized.find?_remove_self h.entries) htoken
  upserted := by
    intro p n fs place checked s rest pairs h hpairs
    obtain ⟨i, hplace, hname⟩ := belong _ h.head_mem
    obtain rfl : s.identity = i := hname s rfl
    rw [h.pipeline] at hpairs
    refine h.tail places rfl (p.sameRules_withEntry place ⟨s, pairs⟩)
      (Materialized.nodup_upsert h.entries) (fun other j hother hne => ?_) fun j hj => .inl ?_
    · refine Prod.ext ?_ (p.tokenAt_setToken hne _)
      exact (Materialized.find?_upsert _ _ _).trans
        (if_neg (ne_of_places watched hplace hother hne))
    · cases hplace.symm.trans hj
      simp only [PointChange.leaves, hpairs]
      refine Prod.ext ?_ (p.tokenAt_setToken_self place (getElem?_of_isPrefix h.watched hplace) _)
      exact (Materialized.find?_upsert _ _ _).trans (if_pos rfl)
  refused := by
    intro p n fs place checked s rest e h he
    rw [h.pipeline] at he
    refine h.tail places rfl (.refl p) h.entries (fun _ _ _ _ => rfl) fun i hplace => .inl ?_
    simp only [PointChange.leaves, he]
    exact h.holds_head places hplace

/-- A step of a merge as one of an operation in phases. -/
def staged : Step → Provider × Stage Merge (Bool × List ProviderError)
  | (p, .inl m) => (p, .running m)
  | (p, .inr result) => (p, .finished (.ok result))

/-- The steps of a merge. -/
def stepping (me : TaskId) : Stepping Merge (Bool × List ProviderError) where
  handle _ p m i := staged (m.handle me p i)
  waits p m := m.waits me p

/-- **Run.**  Behind a merge every change has left what it leaves. -/
theorem absorbing_of_runs {failures : List ProviderError} {result : Bool × List ProviderError}
    (hheld : b.lock.holder = some me) (watched : b.watchList.identities.Nodup)
    (entries : b.materialized.names.Nodup) (places : (changes.map (·.place)).Nodup)
    (belong : ∀ c ∈ changes, c.Belongs b.watchList.identities)
    (run : (stepping me).Runs answers (Provider.Heeds me) (staged (enter me b changes failures))
      (q, .finished (.ok result))) :
    ∃ p, Absorbing me b changes p [] ∧ (q = p.release me ∨ q = p.publish.release me) := by
  have hcomes {x : Provider × Stage Merge (Bool × List ProviderError)}
      (run : (stepping me).Runs answers (Provider.Heeds me) (staged (enter me b changes failures)) x) :
      ∃ y, x = staged y ∧ (absorbing me b changes watched places belong).Comes y := by
    induction run with
    | start =>
      have hme : b.lock.isHeldBy me = true := beq_iff_eq.2 hheld
      rw [enter, if_pos hme]
      refine ⟨_, rfl, Lasting.comes_advance ?_⟩
      exact ⟨hheld, rfl, List.prefix_rfl, entries, [], rfl, fun _ _ _ _ => rfl,
        fun c hc => absurd hc List.not_mem_nil⟩
    | @step p q m before moved cancelled i admitted ih =>
      obtain ⟨y, hy, hcomes⟩ := ih
      refine ⟨m.handle me q i, rfl, Lasting.comes_handle ?_ i⟩
      cases hcomes with
      | running p m stands =>
        cases hy
        cases m with
        | waiting changes fs => exact stands.elim
        | adapting place s rest n fs =>
          obtain ⟨checked, h⟩ := stands
          exact ⟨checked, h.of_guarded (moved h.holder)⟩
      | idle p fs after => cases hy
      | published p n fs after => cases hy
  obtain ⟨y, hy, hcomes⟩ := hcomes run
  cases hcomes with
  | running p m stands => cases hy
  | idle p fs after =>
    cases hy
    exact ⟨p, after, .inl rfl⟩
  | published p n fs after =>
    cases hy
    exact ⟨p, after, .inr rfl⟩

/-- What the changes of a merge leave, each at its place, and that nothing differs elsewhere. -/
theorem holds_of_runs {failures : List ProviderError} {result : Bool × List ProviderError}
    (hheld : b.lock.holder = some me) (watched : b.watchList.identities.Nodup)
    (entries : b.materialized.names.Nodup) (places : (changes.map (·.place)).Nodup)
    (belong : ∀ c ∈ changes, c.Belongs b.watchList.identities)
    (run : (stepping me).Runs answers (Provider.Heeds me) (staged (enter me b changes failures))
      (q, .finished (.ok result))) :
    q.materialized.names.Nodup ∧
    (∀ place i, b.watchList.identities[place]? = some i → place ∉ changes.map (·.place) →
      q.holds place i = b.holds place i) ∧
    ∀ c ∈ changes, b.Absorbed q c := by
  obtain ⟨p, h, hq⟩ := absorbing_of_runs hheld watched entries places belong run
  obtain ⟨done, hdone, hrest⟩ := h.absorbed
  rw [List.append_nil] at hdone
  subst hdone
  rcases hq with rfl | rfl
  · exact ⟨h.entries, hrest⟩
  · exact ⟨h.entries, hrest⟩

end Merge

/-! ## In every state -/

namespace Engine

/-- **A setting that the adapters refuse leaves what is loaded under its name**, or nothing if
nothing was loaded.  From any provider `b` at which an operation may have got the lock, and whatever
others do until it lets it go, this holds of both ways in which a setting may come:

* A reload that succeeds has an entry for every setting that is accepted, and for every one that is
  refused the entry that was loaded at `b`.  There are no entries but these.  Every key that was
  watched at `b` has the token of its entry, and not that of a setting that is refused, if the store
  tells the two apart.
* A merge of what checks have found leaves the entry and the token of a setting that is refused.  Its
  own token is not noted, unless the change has been overtaken; then, too, it is not noted if the
  key had the token of its entry at `b` and the store tells the two apart.  A setting that is
  accepted is loaded with its token, unless the change has been overtaken.  A key has the token of
  its entry if it had it at `b`, and it had if it has been noted at any moment before. -/
theorem retained_of_refused (hp : p.Unloaded) (named : answers.Named)
    (grants : Grants answers p events me b) (optional : b.options.optional = true) :
    (∀ cancelled q, (Reload.stepping me).Runs answers (Provider.Heeds me)
        (Reload.enter me cancelled b) (q, .finished (.ok ())) →
      ∃ names raw, Reload.Brought answers b names names raw ∧ q.materialized.names.Nodup ∧
        (∀ s ∈ raw,
          (∀ pairs, b.pipeline.process s = .ok pairs →
            q.materialized.find? s.identity = some ⟨s, pairs⟩) ∧
          ∀ e, b.pipeline.process s = .error e →
            q.materialized.find? s.identity = b.materialized.find? s.identity ∧
            ∀ place, b.watchList.identities[place]? = some s.identity → b.TellsApart s →
              q.tokenAt place ≠ some s.token) ∧
        (∀ i, i ∈ q.materialized.names ↔ ∃ s ∈ raw, s.identity = i ∧
          ((∃ pairs, b.pipeline.process s = .ok pairs) ∨ i ∈ b.materialized.names)) ∧
        ∀ place i, b.watchList.identities[place]? = some i →
          q.tokenAt place = q.materialized.tokenOf i) ∧
    ∀ watched f failures q result, watched <+: b.watchList.identities →
      Pass.Hands answers watched f →
      (Merge.stepping me).Runs answers (Provider.Heeds me)
        (Merge.staged (Merge.enter me b f.changes failures)) (q, .finished (.ok result)) →
      q.materialized.names.Nodup ∧
      (∀ place checked s, .upsert place checked s ∈ f.changes →
        (∀ pairs, b.pipeline.process s = .ok pairs → b.tokenAt place = checked →
          q.materialized.find? s.identity = some ⟨s, pairs⟩ ∧ q.tokenAt place = some s.token) ∧
        ∀ e, b.pipeline.process s = .error e →
          q.materialized.find? s.identity = b.materialized.find? s.identity ∧
          q.tokenAt place = b.tokenAt place ∧
          (b.tokenAt place = checked → q.tokenAt place ≠ some s.token) ∧
          ((new p).Noted events place ∨ b.tokenAt place = b.materialized.tokenOf s.identity →
            b.TellsApart s → q.tokenAt place ≠ some s.token)) ∧
      ∀ place i, b.watchList.identities[place]? = some i →
        (new p).Noted events place ∨ b.tokenAt place = b.materialized.tokenOf i →
        q.tokenAt place = q.materialized.tokenOf i := by
  have hfounded := grants.founded hp named
  refine ⟨fun cancelled q run => ?_, fun watched f failures q result hwatched hands run => ?_⟩
  · obtain ⟨names, raw, hbrought, hnodup, hfind, htokens⟩ :=
      Reload.find?_of_runs optional grants.holder named hfounded.entries run
    have hraw {s : Setting} (hs : s ∈ raw) : q.materialized.find? s.identity =
        b.pipeline.entryFor (b.materialized.find? s.identity) s := by
      rw [hfind, find?_of_nodup (hbrought.nodup named) hs, Option.bind_some]
    refine ⟨names, raw, hbrought, hnodup, fun s hs => ⟨fun pairs hpairs => ?_, fun e he => ?_⟩,
      Reload.mem_names_iff (hbrought.nodup named) hfind, htokens⟩
    · rw [hraw hs, Pipeline.entryFor, hpairs]
    · have hkept : q.materialized.find? s.identity = b.materialized.find? s.identity := by
        rw [hraw hs, Pipeline.entryFor, he]
      refine ⟨hkept, fun place hplace tells => ?_⟩
      rw [htokens place s.identity hplace, Materialized.tokenOf, hkept]
      exact hfounded.processed.tokenOf_ne he tells
  · obtain ⟨hplaces, hchanges⟩ := hands.changes named
    obtain ⟨hnodup, huntouched, habsorbed⟩ := Merge.holds_of_runs grants.holder hfounded.watched
      hfounded.entries hplaces (fun c hc => (hchanges c hc).1.of_isPrefix hwatched) run
    have hagree {place : Nat} {i : Identity} (hplace : b.watchList.identities[place]? = some i)
        (h : (new p).Noted events place ∨ b.tokenAt place = b.materialized.tokenOf i) :
        b.tokenAt place = b.materialized.tokenOf i :=
      h.elim (fun hnoted => grants.agrees_of_noted hp named hnoted hplace) id
    refine ⟨hnodup, fun place checked s hmem => ?_, fun place i hplace hknown => ?_⟩
    · obtain ⟨i, hplace, hname⟩ := (hchanges _ hmem).1.of_isPrefix hwatched
      obtain rfl : s.identity = i := hname s rfl
      have hleft := habsorbed _ hmem
      refine ⟨fun pairs hpairs current => ?_, fun e he => ?_⟩
      · have hholds := hleft.holds_of_ok hplace hpairs current
        exact ⟨congrArg Prod.fst hholds, congrArg Prod.snd hholds⟩
      · have hholds := hleft.holds_of_error hplace he
        have htoken : q.tokenAt place = b.tokenAt place := congrArg Prod.snd hholds
        refine ⟨congrArg Prod.fst hholds, htoken, fun current => ?_, fun hknown tells => ?_⟩
        · rw [htoken, current]
          exact (hchanges _ hmem).2 s rfl
        · have hb : b.tokenAt place = b.materialized.tokenOf s.identity := hagree hplace hknown
          rw [htoken, hb]
          exact hfounded.processed.tokenOf_ne he tells
    · by_cases hmem : place ∈ f.changes.map (·.place)
      · obtain ⟨c, hc, rfl⟩ := List.mem_map.1 hmem
        exact (habsorbed c hc).tokenAt_eq hplace (hagree hplace hknown)
      · have hsame := huntouched place i hplace hmem
        exact Provider.tokenAt_eq_of_holds_eq hsame (hagree hplace hknown)

/-- A provider in optional mode that watches two keys, and whose adapter refuses one value. -/
def picky : Provider :=
  .new (.ofHosts ["a"]) default
    ⟨[.new ⟨⟨"Color", none⟩, .ofSecs 1, false⟩ .start,
      .new ⟨⟨"Size", none⟩, .ofSecs 1, false⟩ .start]⟩
    ⟨[⟨"palette", fun s => s.value = some "bad", Adapter.refuse "no such color"⟩], []⟩
    ⟨[⟨"*", none⟩], true, .ofSecs 100⟩ .start

/-- Both keys are loaded. -/
def loadsBoth : List Event :=
  [.start 0 .load false,
    .answer ⟨0, 0, 0⟩ (.ok (.page ⟨[⟨"Color", none, some "blue", none, ⟨"1"⟩⟩,
      ⟨"Size", none, some "small", none, ⟨"1"⟩⟩], none⟩)),
    .resume 0, .resume 0]

/-- The provider then, when another operation has asked for the lock. -/
def pickyLoaded : Provider := ((new picky).run loadsBoth).provider.acquire 1

/-- A store with other values under both keys, one of which is refused. -/
def repainted : Contents :=
  .ofSettings [⟨"Color", none, some "bad", none, ⟨"2"⟩⟩, ⟨"Size", none, some "large", none, ⟨"2"⟩⟩]
    (by decide)

/-- The provider when everything has been reloaded from there. -/
def pickyReloaded : Provider :=
  ((Reload.stepping 1).play repainted.turn 8 (Reload.enter 1 false pickyLoaded)).1

/-- What checks of both keys find. -/
def foundBoth : Findings :=
  ⟨2, 2, 0, [.upsert 0 (some ⟨"1"⟩) ⟨"Color", none, some "bad", none, ⟨"2"⟩⟩,
    .upsert 1 (some ⟨"1"⟩) ⟨"Size", none, some "large", none, ⟨"2"⟩⟩], [], false⟩

/-- The provider when this has been merged. -/
def pickyMerged : Provider :=
  ((Merge.stepping 1).play (fun _ => .resumed) 8
    (Merge.staged (Merge.enter 1 pickyLoaded foundBoth.changes []))).1

/-- A check may find any setting of its name that has another token. -/
theorem found_naming {watched : List Identity} {known : Option Token} {s : Setting} (m : Member)
    (hplace : watched[place]? = some s.identity) (hnew : known ≠ some s.token) :
    Check.Found .naming (Pass.Names watched) True place (.changed (.upsert place known s)) := by
  have hfinding : Check.findingOf place known (some s) = .changed (.upsert place known s) :=
    if_neg hnew
  have hverdict : Replies.naming.Judges s.identity known .modified := .inl ⟨m, fun t ht => by cases ht⟩
  have hreply : Replies.naming.Reads s.identity (some s) := by
    refine .inl ⟨m, fun t ht => ?_⟩
    cases ht
    rfl
  have hfact : Pass.Names watched place (s.identity, false, known) := hplace
  have hfinds : Check.Finds .naming s.identity place known (Check.findingOf place known (some s)) :=
    .read hverdict hreply
  rw [hfinding] at hfinds
  exact .finds hfact hfinds (.inr ⟨_, hfact, rfl⟩)

theorem hands_foundBoth : Pass.Hands .naming pickyLoaded.watchList.identities foundBoth := by
  have m : Member := ⟨0, pickyLoaded.pool.origin, .configured⟩
  refine ⟨[0, 1], foundBoth.changes.map fun c => .ok (.changed c), by decide, ?_, rfl⟩
  refine .cons (fun finding hfinding => ?_) (.cons (fun finding hfinding => ?_) .nil)
  · cases hfinding
    exact found_naming m rfl (by decide)
  · cases hfinding
    exact found_naming m rfl (by decide)

/-- A store that works answers a read with the setting that was asked for. -/
theorem naming_of_replies {c : Contents} {m : Member} {request : Request}
    {reply : Except StoreError Reply} (h : c.replies m request reply) :
    Replies.naming m request reply := by
  rintro s rfl
  have hreply : Reply.setting (some s) = c.reply request := Except.ok.inj h
  cases request with
  | fetch i => rw [c.identity_of_find? (Reply.setting.inj hreply).symm]
  | check i known => cases hreply
  | page sel continuation => cases hreply

/-- The color stays as it was, and so does its token, whether everything is reloaded or the changes
are merged.  The size is the new one. -/
theorem retained_of_refused_color :
    Grants .naming picky loadsBoth 1 pickyLoaded ∧
    (Reload.stepping 1).Runs .naming (Provider.Heeds 1) (Reload.enter 1 false pickyLoaded)
      (pickyReloaded, .finished (.ok ())) ∧
    pickyReloaded.tokenAt 0 = some ⟨"1"⟩ ∧ pickyReloaded.tokenAt 1 = some ⟨"2"⟩ ∧
    (Merge.stepping 1).Runs .naming (Provider.Heeds 1)
      (Merge.staged (Merge.enter 1 pickyLoaded foundBoth.changes []))
      (pickyMerged, .finished (.ok (true, []))) ∧
    pickyMerged.materialized.find? ⟨"Color", none⟩ =
      some ⟨⟨"Color", none, some "blue", none, ⟨"1"⟩⟩, [("Color", "blue")]⟩ ∧
    pickyMerged.tokenAt 0 = some ⟨"1"⟩ ∧ pickyMerged.tokenAt 1 = some ⟨"2"⟩ := by
  have hunloaded : picky.Unloaded := ⟨by decide, by decide, rfl, rfl, rfl⟩
  have hgrants : Grants .naming picky loadsBoth 1 pickyLoaded := by
    refine ⟨by decide +kernel, ⟨trivial, fun _ _ _ _ _ s hs => ?_, trivial, trivial, trivial⟩,
      _, [], (Provider.Called.refl _).checked, .inr (.inl rfl)⟩
    cases hs
  have hadmitted (waits : List Wait) : (repainted.turn waits).Admitted .naming waits := by
    have hserved := repainted.admitted_turn waits
    generalize repainted.turn waits = i at hserved
    cases i with
    | answered ticket reply => exact fun o ho hticket => naming_of_replies (hserved o ho hticket)
    | fallback serial => trivial
    | cancelled => trivial
    | resumed => trivial
    | woke => trivial
  have hreloads : (Reload.stepping 1).Runs .naming (Provider.Heeds 1)
      (Reload.enter 1 false pickyLoaded) (pickyReloaded, .finished (.ok ())) :=
    (Reload.stepping 1).runs_play (Provider.Heeds.refl 1) hadmitted 8 .start
  have hresumed (waits : List Wait) : Input.resumed.Admitted .naming waits := trivial
  have hmerges : (Merge.stepping 1).Runs .naming (Provider.Heeds 1)
      (Merge.staged (Merge.enter 1 pickyLoaded foundBoth.changes []))
      (pickyMerged, .finished (.ok (true, []))) :=
    (Merge.stepping 1).runs_play (Provider.Heeds.refl 1) hresumed 8 .start
  obtain ⟨hreload, hmerge⟩ := retained_of_refused hunloaded Replies.named_naming hgrants rfl
  obtain ⟨-, -, -, -, -, -, htokens⟩ := hreload false _ hreloads
  obtain ⟨-, hchanges, hagrees⟩ :=
    hmerge _ foundBoth [] _ _ List.prefix_rfl hands_foundBoth hmerges
  have hnoted : (new picky).Noted loadsBoth 0 := ⟨[], List.nil_prefix, notes_new hunloaded rfl⟩
  have hcolor := (hchanges 0 _ _ List.mem_cons_self).2 _ rfl
  have hsize := (hchanges 1 _ _ (List.mem_cons_of_mem _ List.mem_cons_self)).1 _ rfl rfl
  refine ⟨hgrants, hreloads, ?_, ?_, hmerges, ?_, ?_, hsize.2⟩
  · rw [htokens 0 ⟨"Color", none⟩ rfl]
    decide +kernel
  · rw [htokens 1 ⟨"Size", none⟩ rfl]
    decide +kernel
  · exact hcolor.1
  · rw [hagrees 0 ⟨"Color", none⟩ rfl (.inl hnoted)]
    exact congrArg (Option.map (·.setting.token)) hcolor.1

end Engine
end ReplicatedConfig
