import ReplicatedConfig.Proofs.Frame.Applied
import ReplicatedConfig.Proofs.Refusals.Latecomers

/-!
# Snapshots that show what is loaded

A merge that applies a change publishes everything that is loaded, and not only what it has merged
itself.  So the snapshot before it has to show what was loaded then.  It does (`Provider.Shows`)
unless an operation is behind with publishing what it has noted, and this is kept even while names
come to be watched that were not watched at first.  Then, too, a token is only known for what is
loaded (`Provider.Rooted`).  A reload that commits forgets what was loaded before, but no token that
it does not note anew: places that have come behind its own have no token yet.

`Provider.Upholds` is what one step of an operation does to these two.  A step of another operation
than the one that has the lock publishes nothing, either.  So whoever has the lock may rely on
`Provider.Respects`.

Where operations may stand has been said already (`Reload.Stands`, `Pass.Stands`).  What is added
here is said of the same steps, layer by layer.
-/

namespace ReplicatedConfig

variable {answers : Replies} {noted : Nat → Prop} {me : TaskId} {cancelled : Bool} {p q r : Provider}
  {was now later : Prop} {place : Nat} {i : Identity}

namespace Provider

/-- The snapshot shows what is loaded. -/
def Shows (p : Provider) : Prop := p.publisher.current.values = p.materialized.values

/-- What others do while `me` is under way: if it has the lock, they leave alone what is loaded and
what is published. -/
structure Respects (me : TaskId) (p q : Provider) : Prop where
  heeds : p.Heeds me q
  current : p.lock.holder = some me → q.publisher.current = p.publisher.current

theorem Respects.refl (me : TaskId) (p : Provider) : p.Respects me p := ⟨.refl me p, fun _ => rfl⟩

/-! ## Tokens without entries -/

namespace Rooted

theorem of_same (hp : p.Rooted) (identities : q.watchList.identities = p.watchList.identities)
    (materialized : q.materialized = p.materialized)
    (tokens : ∀ place, q.tokenAt place = p.tokenAt place) : q.Rooted := by
  intro place i hplace absent
  rw [identities] at hplace
  rw [materialized] at absent
  rw [tokens]
  exact hp place i hplace absent

theorem setToken_none (hp : p.Rooted) (place : Nat) : (p.setToken place none).Rooted := by
  intro other j hother absent
  rw [(p.sameRules_setToken place none).identities] at hother
  by_cases hne : place = other
  · subst hne
    exact p.tokenAt_setToken_self place hother none
  · rw [p.tokenAt_setToken hne none]
    exact hp other j hother absent

theorem withoutSetting (hp : p.Rooted) (watched : p.watchList.identities.Nodup)
    (hplace : p.watchList.identities[place]? = some i) : (p.withoutSetting place i).Rooted := by
  intro other j hother absent
  rw [(p.sameRules_withoutSetting place i).identities] at hother
  by_cases hne : place = other
  · subst hne
    exact p.tokenAt_setToken_self place hother none
  · have hname : i ≠ j := ne_of_places watched hplace hother hne
    rw [← Materialized.find?_eq_none_iff] at absent
    have hj : p.materialized.find? j = none :=
      (Materialized.find?_remove_of_ne hname).symm.trans absent
    exact (p.tokenAt_setToken hne none).trans
      (hp other j hother (Materialized.find?_eq_none_iff.1 hj))

theorem withEntry (hp : p.Rooted) {e : Entry}
    (hplace : p.watchList.identities[place]? = some e.identity) : (p.withEntry place e).Rooted := by
  intro other j hother absent
  rw [(p.sameRules_withEntry place e).identities] at hother
  have hnone : (p.materialized.upsert e).find? j = none := Materialized.find?_eq_none_iff.2 absent
  rw [Materialized.find?_upsert] at hnone
  split at hnone
  · cases hnone
  · next hname =>
    have hne : place ≠ other := by
      rintro rfl
      exact hname (Option.some.inj (hplace.symm.trans hother))
    exact (p.tokenAt_setToken hne _).trans
      (hp other j hother (Materialized.find?_eq_none_iff.1 hnone))

/-- A commit notes tokens at the places that it has read; at the others there is none. -/
theorem commit (me : TaskId) {watched : Nat}
    (unknown : ∀ place, watched ≤ place → p.tokenAt place = none) (entries : List Entry) :
    (Reload.commit me p watched entries).1.Rooted := by
  intro place i hplace absent
  rw [Reload.identities_commit] at hplace
  by_cases hlt : place < watched
  · rw [Reload.tokenAt_commit me hlt hplace]
    exact Materialized.tokenOf_eq_none_iff.2 absent
  · have hnone := unknown place (Nat.le_of_not_lt hlt)
    obtain ⟨w, hw, -⟩ := WatchList.exists_get?_of_getElem?_identities hplace
    rw [tokenAt, hw] at hnone
    rw [tokenAt, Reload.get?_commit, hw, Option.map_some, if_neg hlt]
    exact hnone

end Rooted

/-- There is no token where no name is watched. -/
theorem tokenAt_of_length_le (h : p.watchList.identities.length ≤ place) : p.tokenAt place = none := by
  have hname : p.watchList.identities[place]? = none := List.getElem?_eq_none h
  rw [WatchList.getElem?_identities, Option.map_eq_none_iff] at hname
  rw [tokenAt, hname]
  rfl

/-! ## What a step of an operation does -/

/-- A step of the operation `me`: `was` and `now` say whether it is behind with publishing. -/
structure Upholds (me : TaskId) (p : Provider) (was : Prop) (q : Provider) (now : Prop) : Prop where
  rooted : p.Rooted → q.Rooted
  shown : p.Shows ∨ was → q.Shows ∨ now
  yields : ∀ other, other ≠ me → p.lock.holder = some other →
    q.lock.holder = some other ∧ q.publisher.current = p.publisher.current

namespace Upholds

theorem trans (hq : p.Upholds me was q now) (hr : q.Upholds me now r later) :
    p.Upholds me was r later where
  rooted := hr.rooted ∘ hq.rooted
  shown := hr.shown ∘ hq.shown
  yields other hne hheld :=
    have hq := hq.yields other hne hheld
    have hr := hr.yields other hne hq.1
    ⟨hr.1, hr.2.trans hq.2⟩

theorem imp (h : p.Upholds me was q now) (himp : now → later) : p.Upholds me was q later :=
  { h with shown := fun hp => (h.shown hp).imp_right himp }

/-- Nothing that is loaded or published differs, and the lock is taken from nobody. -/
theorem of_same (identities : q.watchList.identities = p.watchList.identities)
    (materialized : q.materialized = p.materialized)
    (tokens : ∀ place, q.tokenAt place = p.tokenAt place)
    (current : q.publisher.current = p.publisher.current)
    (holder : ∀ other, other ≠ me → p.lock.holder = some other → q.lock.holder = some other) :
    p.Upholds me was q was where
  rooted hp := hp.of_same identities materialized tokens
  shown := .imp_left fun hp => by
    rw [Shows, current, materialized]
    exact hp
  yields other hne hheld := ⟨holder other hne hheld, current⟩

variable (me was)

theorem refl (p : Provider) : p.Upholds me was p was :=
  of_same rfl rfl (fun _ => rfl) rfl fun _ _ => id

theorem called (hq : p.Called q) : p.Upholds me was q was := by
  refine of_same hq.sameRules.identities hq.materialized (fun place => ?_)
    (congrArg Publisher.current hq.publisher) fun _ _ => (congrArg Lock.holder hq.lock).trans
  rw [tokenAt, tokenAt, hq.watchList]

theorem checked {places : List Nat} (hq : p.Checked places q) : p.Upholds me was q was :=
  of_same hq.sameRules.identities hq.materialized
    (tokenAt_of_known (WatchList.known_of_facts hq.facts))
    (congrArg Publisher.current hq.publisher) fun _ _ => (congrArg Lock.holder hq.lock).trans

theorem acquire (p : Provider) : p.Upholds me was (p.acquire me) was :=
  of_same rfl rfl (fun _ => rfl) rfl fun _ _ => Lock.holder_request me

theorem release (p : Provider) : p.Upholds me was (p.release me) was :=
  of_same rfl rfl (fun _ => rfl) rfl fun _ => Lock.holder_leave

theorem countPass (p : Provider) (result : PassResult) : p.Upholds me was (p.countPass result) was :=
  of_same rfl rfl (fun _ => rfl) rfl fun _ _ => id

theorem setToken_none (p : Provider) (place : Nat) : p.Upholds me was (p.setToken place none) was where
  rooted hp := hp.setToken_none place
  shown := id
  yields _ _ hheld := ⟨hheld, rfl⟩

theorem withoutSetting (watched : p.watchList.identities.Nodup)
    (hplace : p.watchList.identities[place]? = some i) :
    p.Upholds me was (p.withoutSetting place i) True where
  rooted hp := hp.withoutSetting watched hplace
  shown _ := .inr trivial
  yields _ _ hheld := ⟨hheld, rfl⟩

theorem withEntry {e : Entry} (hplace : p.watchList.identities[place]? = some e.identity) :
    p.Upholds me was (p.withEntry place e) True where
  rooted hp := hp.withEntry hplace
  shown _ := .inr trivial
  yields _ _ hheld := ⟨hheld, rfl⟩

variable {me}

/-- Who has the lock may publish. -/
theorem publish (hheld : p.lock.holder = some me) : p.Upholds me was p.publish False where
  rooted := id
  shown _ := .inl p.values_publish
  yields _ hne hother := absurd (Option.some.inj (hother.symm.trans hheld)) hne

theorem commit (hheld : p.lock.holder = some me) {watched : Nat}
    (unknown : ∀ place, watched ≤ place → p.tokenAt place = none) (entries : List Entry) :
    p.Upholds me was (Reload.commit me p watched entries).1 False where
  rooted _ := .commit me unknown entries
  shown _ := .inl (Reload.values_commit me p watched entries)
  yields _ hne hother := absurd (Option.some.inj (hother.symm.trans hheld)) hne

variable {was}

/-- To the operation that has the lock, the steps of others are no more than they may be. -/
theorem respects (h : p.Upholds me was q now) (hq : p.Minds noted me q) {other : TaskId}
    (hne : other ≠ me) : p.Respects other q :=
  ⟨hq.heeds other hne, fun hheld => (h.yields other hne hheld).2⟩

end Upholds

/-- A step of an operation in phases upholds what holds, and is behind where it says so. -/
def Upkeep {μ α : Type} (behind : μ → Prop) (me : TaskId) (p : Provider) (was : Prop) :
    Provider × Stage μ α → Prop
  | (q, .running phase) => p.Upholds me was q (behind phase)
  | (q, .finished _) => p.Upholds me was q False

theorem Upkeep.of_upholds {μ α : Type} {behind : μ → Prop} {x : Provider × Stage μ α}
    (hq : p.Upholds me was q now) (hx : q.Upkeep behind me now x) : p.Upkeep behind me was x := by
  obtain ⟨r, phase | result⟩ := x
  · exact Upholds.trans hq hx
  · exact Upholds.trans hq hx

end Provider

/-! ## Reloads -/

namespace Reload

/-- A reload is never behind: it publishes in the step in which it commits. -/
abbrev Upkeep (me : TaskId) (p : Provider) : Step → Prop := p.Upkeep (fun _ => False) me False

theorem upkeep_of_comes {b : Provider} {x : Step} (hx : Comes answers me b p x) : Upkeep me p x := by
  cases hx with
  | running q r called holds => exact Provider.Upholds.called me False called
  | failed q e called =>
    have hq : p.Upholds me False q False := .called me False called
    exact hq.trans (.release me False q)
  | committed q names raw called guarded brought =>
    have hq : p.Upholds me False q False := .called me False called
    refine hq.trans (.commit False guarded.holder (fun place hplace => ?_) _)
    rw [guarded.tokens]
    exact Provider.tokenAt_of_length_le (Nat.le_trans brought.watched.length_le hplace)

theorem upkeep_enter : Upkeep me p (enter me cancelled p) := by
  by_cases hheld : p.lock.holder = some me
  · have hcomes : Comes .naming me p p (enter me cancelled p) := comes_enter hheld
    exact upkeep_of_comes hcomes
  · have hme : ¬ p.lock.isHeldBy me = true := fun hme => hheld (eq_of_beq hme)
    rw [enter, if_neg hme]
    exact Provider.Upholds.refl me False p

theorem upkeep_begin : Upkeep me p (begin me cancelled p) := by
  have hacquire : p.Upholds me False (p.acquire me) False := .acquire me False p
  exact .of_upholds hacquire upkeep_enter

theorem upkeep_handle {r : Reload} (hr : r.Stands answers noted me p) {i : Input}
    (admitted : i.Admitted answers (r.waits me p)) : Upkeep me p (r.handle me cancelled p i) := by
  rcases hr with rfl | ⟨b, -, hholds⟩
  · have hstay : Upkeep me p (p, .running .waiting) := Provider.Upholds.refl me False p
    cases i with
    | resumed => exact upkeep_enter
    | answered ticket reply => exact hstay
    | fallback serial => exact hstay
    | cancelled => exact hstay
    | woke => exact hstay
  · exact upkeep_of_comes (comes_handle hholds admitted)

end Reload

/-! ## Merges -/

namespace Merge

/-- What a merge upholds that started from `p`. -/
def upholding (noted : Nat → Prop) (me : TaskId) (p : Provider) (was : Prop) : Lasting me where
  before q fs changes := (minding noted me p).before q fs changes ∧ p.Upholds me was q False
  after q n _ changes := Merges noted me p q changes ∧ p.Upholds me was q (0 < n)
  enters h hheld := ⟨(minding noted me p).enters h.1 hheld, h.2.imp False.elim⟩
  stale h _ := ⟨h.1.next (.refl _) h.1.minds.founded rfl, h.2⟩
  absent := by
    intro q n fs place checked rest h current absent
    have hminding : (minding noted me p).after q n fs (.remove place checked :: rest) := h.1
    exact ⟨(minding noted me p).absent hminding current absent,
      h.2.trans (.setToken_none me _ q place)⟩
  removed := by
    intro q n fs place checked rest w h current hw there
    have hminding : (minding noted me p).after q n fs (.remove place checked :: rest) := h.1
    have hq : q.Upholds me (0 < n) (q.withoutSetting place w.identity) True :=
      .withoutSetting me _ h.1.minds.founded.watched (WatchList.getElem?_identities_of_get? hw)
    exact ⟨(minding noted me p).removed hminding current hw there,
      h.2.trans (hq.imp fun _ => Nat.succ_pos n)⟩
  upserted := by
    intro q n fs place checked s rest pairs h hpairs
    have hminding : (minding noted me p).after q n fs (.upsert place checked s :: rest) := h.1
    obtain ⟨i, hplace, hname⟩ := h.1.belong _ List.mem_cons_self
    obtain rfl : s.identity = i := hname s rfl
    have hq : q.Upholds me (0 < n) (q.withEntry place ⟨s, pairs⟩) True := .withEntry me _ hplace
    exact ⟨(minding noted me p).upserted hminding hpairs, h.2.trans (hq.imp fun _ => Nat.succ_pos n)⟩
  refused h _ := ⟨h.1.next (.refl _) h.1.minds.founded rfl, h.2⟩

end Merge

/-! ## Passes -/

namespace Pass

/-- A step of a pass. -/
abbrev Upkeep (me : TaskId) (p : Provider) (was : Prop) : Step → Prop := p.Upkeep Behind me was

variable {f : Findings} {failures : List ProviderError}

theorem upkeep_finish {reloaded published : Bool} :
    Upkeep me p False (finish p f failures reloaded published) := by
  cases failures with
  | nil => exact Provider.Upholds.countPass me False p _
  | cons first rest => exact Provider.Upholds.countPass me False p _

theorem upkeep_loaded {x : Reload.Step} (hx : Reload.Upkeep me p x) :
    Upkeep me p False (loaded x.1 x.2) := by
  obtain ⟨q, r | result⟩ := x
  · exact hx
  · have hq : p.Upholds me False q False := hx
    cases result with
    | error e => exact hq.trans (.countPass me False q _)
    | ok u => exact hq.trans (.countPass me False q _)

theorem upkeep_merged {x : Merge.Step} (hx : (Merge.upholding noted me p was).Comes x) :
    Upkeep me p was (merged x.1 f x.2) := by
  cases hx with
  | running q m stands =>
    cases m with
    | waiting changes fs => exact stands.2
    | adapting place s rest n fs =>
      obtain ⟨checked, -, hupholds⟩ := stands
      exact hupholds
  | idle q fs after =>
    have hq : p.Upholds me was q False := after.2.imp (Nat.not_lt_zero 0)
    exact .of_upholds (hq.trans (.release me False q)) upkeep_finish
  | published q n fs after =>
    have hq := after.2.trans (.publish _ after.1.holder)
    exact .of_upholds (hq.trans (.release me False _)) upkeep_finish

theorem upkeep_mergeChanges (named : answers.Named) (hp : p.Founded noted) (hf : Handed answers p f) :
    Upkeep me p False (mergeChanges me p f failures) := by
  unfold mergeChanges
  split
  · exact upkeep_finish
  · have hcomes : (Merge.upholding noted me p False).Comes (Merge.begin me p f.changes failures) :=
      Merge.Lasting.comes_begin ⟨⟨.acquire hp, hf.belong named⟩, .acquire me False p⟩
    exact upkeep_merged hcomes

/-- A reload that fails gives way to the merge. -/
theorem upkeep_reloaded (named : answers.Named) (hf : Handed answers p f) {x : Reload.Step}
    (hminding : Reload.Minding answers noted me p x) (hx : Reload.Upkeep me p x) :
    Upkeep me p False (reloaded me x.1 f x.2) := by
  obtain ⟨q, r | result⟩ := x
  · exact hx
  · have hminds : p.Minds noted me q := hminding
    have hq : p.Upholds me False q False := hx
    have hmerge {failures : List ProviderError} :
        Upkeep me p False (mergeChanges me q f failures) :=
      .of_upholds hq
        (upkeep_mergeChanges named hminds.founded (hf.of_isPrefix hminds.rules.names))
    cases result with
    | ok u => exact .of_upholds hq upkeep_finish
    | error e =>
      cases e with
      | cancelled => exact hq
      | failover e => exact hmerge
      | adapter e => exact hmerge
      | refreshFailed failed checked first => exact hmerge
      | startupTimeout timeout last => exact hmerge

theorem upkeep_checked (named : answers.Named) (hp : p.Founded noted) {checks : List Check}
    (hs : (Pass.checking checks).Stands answers noted me p) :
    Upkeep me p False (checked me cancelled p checks) := by
  unfold checked
  split
  · exact Provider.Upholds.refl me False p
  · next results hresults =>
    split
    · exact Provider.Upholds.refl me False p
    · next f hf =>
      obtain ⟨watched, places, hwatched, hplaces, -, hchecks⟩ := hs
      have hands : Handed answers p f :=
        ⟨watched, hwatched, places, results, hplaces, found_of_results hchecks hresults, hf⟩
      split
      · exact upkeep_reloaded named hands (Reload.minding_begin named hp) Reload.upkeep_begin
      · exact upkeep_mergeChanges named hp hands

theorem upkeep_begin : Upkeep me p False (begin me cancelled p) := by
  have hstay : p.Upholds me False p False := .refl me False p
  unfold begin
  split
  · exact hstay
  · split
    · split
      · exact hstay
      · exact hstay
    · exact upkeep_loaded Reload.upkeep_begin

/-- **A step of a pass**, whatever reaches it. -/
theorem upkeep_handle (named : answers.Named) (hp : p.Founded noted) {s : Pass}
    (hs : s.Stands answers noted me p) {i : Input} (admitted : i.Admitted answers (s.waits me p)) :
    Upkeep me p s.Behind (s.handle me cancelled p i) := by
  cases s with
  | loading r => exact upkeep_loaded (Reload.upkeep_handle hs admitted)
  | checking checks =>
    obtain ⟨watched, places, hwatched, hplaces, hrange, hchecks⟩ := hs
    obtain ⟨hchecked, hchecks⟩ := goes_checks cancelled (known_of_isPrefix hwatched hrange) eq_of_names
      hplaces hchecks admitted
    have hq : p.Minds noted me _ := .checked hp hchecked
    refine .of_upholds (.checked me False hchecked) (upkeep_checked named hq.founded ?_)
    exact ⟨watched, places, hwatched.trans hq.rules.names, hplaces, hrange, hchecks⟩
  | reloading f r =>
    exact upkeep_reloaded named hs.1 (Reload.minding_handle named hp hs.2 admitted)
      (Reload.upkeep_handle hs.2 admitted)
  | merging f m =>
    have hstands : (Merge.upholding noted me p m.Behind).Stands p m := by
      cases m with
      | waiting changes fs => exact ⟨⟨.refl hp, hs.2⟩, .refl me False p⟩
      | adapting place s rest n fs =>
        obtain ⟨hheld, checked, hbelong⟩ := hs.2
        exact ⟨checked, ⟨.refl hp, hheld, hbelong⟩, .refl me _ p⟩
    exact upkeep_merged (Merge.Lasting.comes_handle hstands i)

/-- Dropping a pass publishes nothing. -/
theorem upholds_abandon (s : Pass) : p.Upholds me s.Behind (s.abandon me p) s.Behind := by
  have hrelease : p.Upholds me s.Behind (p.release me) s.Behind := .release me _ p
  cases s with
  | loading r => exact hrelease
  | checking checks =>
    obtain ⟨places, hchecked, -⟩ := p.checked_abandon checks
    exact .checked me False hchecked
  | reloading f r => exact hrelease
  | merging f m => exact hrelease

end Pass
end ReplicatedConfig
