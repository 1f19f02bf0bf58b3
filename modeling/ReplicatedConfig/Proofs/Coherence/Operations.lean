import ReplicatedConfig.Proofs.Coherence.State

/-!
# Operations that keep what agrees

Reloads, merges and passes take many steps, and other operations take theirs in between.  For
each of them `Sound` says where it may stand and what it relies on there: that the changes it
has found fit the watched names, that something has been loaded, and, for a merge that has
begun to note changes, that it has the lock.  Nothing that others do takes that away.

From where it stands every step of an operation `Advances` the provider, and leads to where
the operation may stand.  The operation is `Behind` while it has noted changes that it has not
published yet, which only happens to a merge that waits for an adapter.

One assumption about replies is needed: that a read brings a setting with the name that was
asked for.  Whatever else replicas may say, entries have different names.
-/

namespace ReplicatedConfig

/-- A read brings a setting with the name that was asked for. -/
def Replies.Named (answers : Replies) : Prop :=
  ∀ m i s, answers m (.fetch i) (.ok (.setting (some s))) → s.identity = i

theorem Replies.Named.reads {answers : Replies} (named : answers.Named) {i : Identity} {s : Setting}
    (h : answers.Reads i (some s)) : s.identity = i := by
  rcases h with ⟨m, hm⟩ | ⟨hnone, -⟩
  · exact named m i s hm
  · cases hnone

/-- The replies of which nothing else is known. -/
def Replies.naming : Replies := fun _ request reply =>
  ∀ s, reply = .ok (.setting (some s)) → request = .fetch s.identity

theorem Replies.named_naming : naming.Named := fun _ _ s h => by
  have hrequest := h s rfl
  cases hrequest
  rfl

/-! ## Entries of a reload have different names -/

namespace Reload

theorem nodup_gather (listed : List Setting) : (namesOf (gather listed)).Nodup := by
  induction listed using List.reverseRecOn with
  | nil => exact List.nodup_nil
  | append_singleton rest s ih =>
    rw [gather_concat, namesOf_gatherOne]
    split
    · exact ih
    · next hnew =>
      rw [← List.concat_eq_append]
      exact ih.concat hnew

theorem Fetched.nodup {answers : Replies} (named : answers.Named) {listed raw : List Setting}
    {is : List Identity} (hlisted : (namesOf listed).Nodup) (h : Fetched answers listed is raw) :
    (namesOf raw).Nodup := by
  induction h with
  | start => exact hlisted
  | known before there ih => exact ih
  | @read is raw i o before absent reply ih =>
    cases o with
    | none => rwa [Option.toList_none, List.append_nil]
    | some s =>
      have habsent : s.identity ∉ namesOf raw := by
        rw [named.reads reply]
        exact absent
      rw [namesOf, List.map_append, Option.toList_some, List.map_singleton, ← List.concat_eq_append]
      exact ih.concat habsent

/-- Every setting gets one entry at most, and that has its name. -/
theorem names_entriesFor_sublist (pipeline : Pipeline) (previous : List Entry) (raw : List Setting) :
    ((entriesFor pipeline previous raw).map (·.identity)).Sublist (namesOf raw) := by
  induction raw generalizing previous with
  | nil => exact .slnil
  | cons s rest ih =>
    rw [entriesFor]
    cases hpairs : pipeline.process s with
    | ok pairs => exact (ih previous).cons_cons _
    | error e =>
      simp only [List.map_append]
      have hprevious : ((previousOf previous s).map (·.identity)).Sublist [s.identity] := by
        unfold previousOf
        cases hfind : previous.reverse.find? (·.identity = s.identity) with
        | none => exact List.nil_sublist _
        | some e =>
          have hname : e.identity = s.identity := by simpa using List.find?_some hfind
          rw [Option.toList_some, List.map_singleton, hname]
      exact hprevious.append (ih _)

theorem Loads.nodup {answers : Replies} {p : Provider} {entries : List Entry}
    (named : answers.Named) (h : Loads answers p entries) : (entries.map (·.identity)).Nodup := by
  obtain ⟨raw, previous, ⟨listed, -, hraw⟩, -, rfl⟩ := h
  exact (hraw.nodup named (nodup_gather listed)).sublist (names_entriesFor_sublist _ _ _)

end Reload

/-! ## What becomes of an operation in phases -/

section Fares

variable {μ α : Type} {behind : μ → Prop} {sound : Provider → μ → Prop} {me : TaskId}
  {p q : Provider} {was now : Prop}

/-- A step leads an operation to where it may stand, or to its end, and advances the
provider. -/
def Provider.Fares (behind : μ → Prop) (sound : Provider → μ → Prop) (me : TaskId) (p : Provider)
    (was : Prop) : Provider × Stage μ α → Prop
  | (q, .running phase) => p.Advances me was q (behind phase) ∧ sound q phase
  | (q, .finished _) => p.Advances me was q False

theorem Provider.Fares.of_advances {x : Provider × Stage μ α} (hq : p.Advances me was q now)
    (h : q.Fares behind sound me now x) : p.Fares behind sound me was x := by
  obtain ⟨r, phase | result⟩ := x
  · exact ⟨hq.trans h.1, h.2⟩
  · exact Provider.Advances.trans hq h

end Fares

section Operations

variable {answers : Replies} {me : TaskId} {cancelled : Bool} {p q r : Provider} {was now : Prop}

namespace Reload

/-- A reload is never behind: it publishes in the step in which it commits. -/
abbrev Fares (answers : Replies) (me : TaskId) (p : Provider) : Step → Prop :=
  p.Fares (fun _ => False) (fun q r => r.Sound answers q) me False

theorem fares_of_leads (named : answers.Named) (hp : p.Coherent) {x : Step}
    (h : Leads answers me p x) : Fares answers me p x := by
  cases h with
  | running q r called sound => exact ⟨.of_alike hp called.alike, sound⟩
  | failed q e called =>
    have hq : p.Advances me False q False := .of_alike hp called.alike
    exact hq.trans (.release hq.coherent)
  | committed q entries called loads =>
    have hq : p.Advances me False q False := .of_alike hp called.alike
    exact hq.trans (.commit hq.coherent (loads.nodup named))

theorem fares_begin (named : answers.Named) (hp : p.Coherent) :
    Fares answers me p (begin me cancelled p) := by
  have hacquire : p.Advances me False (p.acquire me) False := .acquire hp
  exact .of_advances hacquire
    (fares_of_leads named hacquire.coherent (leads_begin answers me cancelled p))

theorem fares_handle (named : answers.Named) (hp : p.Coherent) {r : Reload}
    (h : r.Sound answers p) {i : Input} (admitted : i.Admitted answers (r.waits me p)) :
    Fares answers me p (r.handle me cancelled p i) :=
  fares_of_leads named hp (leads_handle me cancelled h admitted)

end Reload

/-! ## Merges -/

/-- Changes bring settings with the names at their places. -/
def PointChange.Fit (watched : List Identity) (changes : List PointChange) : Prop :=
  ∀ place checked s, .upsert place checked s ∈ changes → watched[place]? = some s.identity

namespace Merge

/-- Where a merge may stand. -/
def Sound (me : TaskId) (p : Provider) : Merge → Prop
  | .waiting changes _ => p.loaded = true ∧ PointChange.Fit p.watchList.identities changes
  | .adapting place s rest _ _ => p.loaded = true ∧ p.lock.holder = some me ∧
    ∃ checked, PointChange.Fit p.watchList.identities (.upsert place checked s :: rest)

/-- Whether a merge has noted changes that it has not published. -/
def Behind : Merge → Prop
  | .waiting .. => False
  | .adapting _ _ _ merged _ => 0 < merged

/-- A merge has noted some changes, and others are still to come. -/
structure Noted (me : TaskId) (p : Provider) (was : Prop) (q : Provider) (n : Nat)
    (changes : List PointChange) : Prop where
  advances : p.Advances me was q (0 < n)
  loaded : q.loaded = true
  holds : q.lock.holder = some me
  fits : PointChange.Fit q.watchList.identities changes

theorem Noted.next {n n' : Nat} {change : PointChange} {rest : List PointChange}
    (h : Noted me p was q n (change :: rest)) (step : q.Advances me (0 < n) r (0 < n'))
    (lock : r.lock = q.lock) : Noted me p was r n' rest where
  advances := h.advances.trans step
  loaded := step.loaded h.loaded
  holds := by
    rw [lock]
    exact h.holds
  fits := by
    rw [step.rules.identities]
    exact fun place checked s hmem => h.fits place checked s (List.mem_cons_of_mem _ hmem)

/-- What a merge keeps that started from `p`. -/
def noting (me : TaskId) (p : Provider) (was : Prop) : Lasting me where
  before q _ changes := p.Advances me was q False ∧ q.loaded = true ∧
    PointChange.Fit q.watchList.identities changes
  after q n _ changes := Noted me p was q n changes
  enters h hheld := ⟨h.1.imp False.elim, h.2.1, eq_of_beq hheld, h.2.2⟩
  stale h _ := h.next (.refl h.advances.coherent) rfl
  absent h _ habsent := h.next (.setToken_none h.advances.coherent habsent) rfl
  removed h _ hw _ :=
    have hstep := Provider.Advances.withoutSetting h.advances.coherent hw
    h.next (hstep.imp fun _ => Nat.succ_pos _) rfl
  upserted h _ :=
    have hplace := h.fits _ _ _ List.mem_cons_self
    have hstep := Provider.Advances.withEntry h.advances.coherent hplace
    h.next (hstep.imp fun _ => Nat.succ_pos _) rfl
  refused h _ := h.next (.refl h.advances.coherent) rfl

end Merge

/-! ## Passes -/

namespace Pass

/-- What a check may read about the key at a place: the name that stands there. -/
def Names (watched : List Identity) (place : Nat) (f : Watch.Fact) : Prop :=
  watched[place]? = some f.1

theorem eq_of_names {watched : List Identity} {place : Nat} {f g : Watch.Fact}
    (hf : Names watched place f) (hg : Names watched place g) : f.1 = g.1 :=
  Option.some.inj (hf.symm.trans hg)

/-- Where a pass may stand. -/
def Sound (answers : Replies) (me : TaskId) (p : Provider) : Pass → Prop
  | .loading r => r.Sound answers p
  | .checking checks => p.loaded = true ∧ ∃ places : List Nat, places.Nodup ∧
    (∀ place ∈ places, place < p.watchList.identities.length) ∧
    Beside answers (Names p.watchList.identities) True p places checks
  | .reloading f r => p.loaded = true ∧ PointChange.Fit p.watchList.identities f.changes ∧
    r.Sound answers p
  | .merging _ m => m.Sound me p

/-- Whether a pass is behind. -/
def Behind : Pass → Prop
  | .merging _ m => m.Behind
  | _ => False

/-- A step leads a pass to where it may stand, or to its end. -/
abbrev Fares (answers : Replies) (me : TaskId) (p : Provider) (was : Prop) : Step → Prop :=
  p.Fares Behind (Sound answers me) me was

theorem fares_finish {f : Findings} {failures : List ProviderError} {reloaded published : Bool}
    (hp : p.Coherent) : Fares answers me p False (finish p f failures reloaded published) := by
  cases failures with
  | nil => exact .of_alike hp ⟨rfl, rfl, rfl, rfl, rfl, rfl, rfl⟩
  | cons first rest => exact .of_alike hp ⟨rfl, rfl, rfl, rfl, rfl, rfl, rfl⟩

/-- A merge that lasts is one of the phases of a pass. -/
theorem fares_merged {f : Findings} {x : Merge.Step} (h : (Merge.noting me p was).Comes x) :
    Fares answers me p was (merged x.1 f x.2) := by
  cases h with
  | running q m stands =>
    cases m with
    | waiting changes fs => exact ⟨stands.1, stands.2⟩
    | adapting place s rest n fs =>
      obtain ⟨checked, hnoted⟩ := stands
      exact ⟨hnoted.advances, hnoted.loaded, hnoted.holds, checked, hnoted.fits⟩
  | idle q fs after =>
    have hq : p.Advances me was q False := after.advances.imp (Nat.not_lt_zero 0)
    have hrelease := hq.trans (.release hq.coherent)
    exact .of_advances hrelease (fares_finish hrelease.coherent)
  | published q n fs after =>
    have hq := after.advances.trans (.publish after.advances.coherent after.loaded)
    have hrelease := hq.trans (.release hq.coherent)
    exact .of_advances hrelease (fares_finish hrelease.coherent)

theorem fares_mergeChanges {f : Findings} {failures : List ProviderError} (hp : p.Coherent)
    (hloaded : p.loaded = true) (hfits : PointChange.Fit p.watchList.identities f.changes) :
    Fares answers me p False (mergeChanges me p f failures) := by
  unfold mergeChanges
  split
  · exact fares_finish hp
  · exact fares_merged (Merge.Lasting.comes_begin ⟨.acquire hp, hloaded, hfits⟩)

/-- A reload that fails gives way to the merge. -/
theorem fares_reloaded (named : answers.Named) {f : Findings} {x : Reload.Step} (hp : p.Coherent)
    (hloaded : p.loaded = true) (hfits : PointChange.Fit p.watchList.identities f.changes)
    (h : Reload.Leads answers me p x) : Fares answers me p False (reloaded me x.1 f x.2) := by
  have hfares := Reload.fares_of_leads named hp h
  obtain ⟨q, r | result⟩ := x
  · obtain ⟨hq, hsound⟩ := hfares
    refine ⟨hq, hq.loaded hloaded, ?_, hsound⟩
    rw [hq.rules.identities]
    exact hfits
  · have hq : p.Advances me False q False := hfares
    rw [← hq.rules.identities] at hfits
    have hmerge {failures : List ProviderError} :
        Fares answers me p False (mergeChanges me q f failures) :=
      .of_advances hq (fares_mergeChanges hq.coherent (hq.loaded hloaded) hfits)
    cases result with
    | ok u => exact .of_advances hq (fares_finish hq.coherent)
    | error e =>
      cases e with
      | cancelled => exact hq
      | failover e => exact hmerge
      | adapter e => exact hmerge
      | refreshFailed failed checked first => exact hmerge
      | startupTimeout timeout last => exact hmerge

/-- What a check finds fits the name at its place. -/
theorem upsert_of_found (named : answers.Named) {watched : List Identity} {place place' : Nat}
    {checked : Option Token} {s : Setting}
    (h : Check.Found answers (Names watched) True place (.changed (.upsert place' checked s))) :
    watched[place']? = some s.identity := by
  generalize hf : Finding.changed (.upsert place' checked s) = f at h
  cases h with
  | skipped skips => cases hf
  | reloadAll fact differs reloads => cases hf
  | @finds i role known f fact finds single =>
    cases finds with
    | unchanged verdict => cases hf
    | absent verdict unknown => cases hf
    | removed verdict present => cases hf
    | @read o verdict reply =>
      cases o with
      | none =>
        simp only [Check.findingOf] at hf
        split at hf <;> cases hf
      | some t =>
        simp only [Check.findingOf] at hf
        split at hf
        · cases hf
        · cases hf
          rw [named.reads reply]
          exact fact

theorem fit_of_found (named : answers.Named) {watched : List Identity} {places : List Nat}
    {results : List (Except ProviderError Finding)}
    (h : List.Forall₂ (fun place r =>
      ∀ f, r = .ok f → Check.Found answers (Names watched) True place f) places results) :
    PointChange.Fit watched (results.filterMap Findings.changeOf?) := by
  induction h with
  | nil => exact fun _ _ _ hmem => absurd hmem List.not_mem_nil
  | @cons place r places results hfound hrest ih =>
    intro place' checked s hmem
    obtain ⟨r', hr', hchange⟩ := List.mem_filterMap.1 hmem
    rcases List.mem_cons.1 hr' with rfl | hr'
    · have hr : r' = .ok (.changed (.upsert place' checked s)) := by
        unfold Findings.changeOf? at hchange
        split at hchange
        · cases hchange
          rfl
        · cases hchange
      exact upsert_of_found named (hfound _ hr)
    · exact ih place' checked s (List.mem_filterMap.2 ⟨r', hr', hchange⟩)

/-- Once all checks have ended, the pass reloads or merges what they have found. -/
theorem fares_checked (named : answers.Named) {checks : List Check} {places : List Nat}
    (hp : p.Coherent) (hloaded : p.loaded = true) (hplaces : places.Nodup)
    (hrange : ∀ place ∈ places, place < p.watchList.identities.length)
    (hchecks : Beside answers (Names p.watchList.identities) True p places checks) :
    Fares answers me p False (checked me cancelled p checks) := by
  unfold checked
  split
  · exact ⟨.refl hp, hloaded, places, hplaces, hrange, hchecks⟩
  · next results hresults =>
    split
    · exact .refl hp
    · next f hf =>
      have hfits : PointChange.Fit p.watchList.identities f.changes := by
        rw [(Findings.of_ofResults hf).1]
        exact fit_of_found named (found_of_results hchecks hresults)
      split
      · have hacquire : p.Advances me False (p.acquire me) False := .acquire hp
        exact .of_advances hacquire (fares_reloaded named hacquire.coherent hloaded hfits
          (Reload.leads_begin answers me cancelled p))
      · exact fares_mergeChanges hp hloaded hfits

/-- The first load of a pass has come this far. -/
theorem fares_loaded {x : Reload.Step} (h : Reload.Fares answers me p x) :
    Fares answers me p False (loaded x.1 x.2) := by
  obtain ⟨q, r | result⟩ := x
  · exact h
  · have hq : p.Advances me False q False := h
    cases result with
    | ok u => exact hq.trans (.of_alike hq.coherent ⟨rfl, rfl, rfl, rfl, rfl, rfl, rfl⟩)
    | error e => exact hq.trans (.of_alike hq.coherent ⟨rfl, rfl, rfl, rfl, rfl, rfl, rfl⟩)

theorem fares_begin (named : answers.Named) (hp : p.Coherent) :
    Fares answers me p False (begin me cancelled p) := by
  unfold begin
  split
  · exact .refl hp
  · split
    · next hloaded =>
      split
      · exact .refl hp
      · refine ⟨.refl hp, hloaded, p.watchList.due p.now, ?_, fun place hplace => ?_,
          beside_ready fun _ _ => .inl trivial⟩
        · exact List.nodup_range.filter _
        · rw [WatchList.length_identities]
          exact List.mem_range.1 (List.mem_filter.1 hplace).1
    · exact fares_loaded (Reload.fares_begin named hp)

/-- The watch list has names at all places. -/
theorem known_names {places : List Nat}
    (hrange : ∀ place ∈ places, place < p.watchList.identities.length) :
    Known (Names p.watchList.identities) p places := by
  intro place hplace
  obtain ⟨i, hi⟩ : ∃ i, p.watchList.identities[place]? = some i :=
    ⟨_, List.getElem?_eq_getElem (hrange place hplace)⟩
  obtain ⟨w, hw, rfl⟩ := Option.map_eq_some_iff.1 (p.watchList.getElem?_identities place ▸ hi)
  have hget : p.watchList.watches[place]? = some w := hw
  refine ⟨w.fact, ?_, hi⟩
  rw [WatchList.facts, List.getElem?_map, hget, Option.map_some]

theorem fares_handle (named : answers.Named) (hp : p.Coherent) {s : Pass}
    (h : s.Sound answers me p) {i : Input} (admitted : i.Admitted answers (s.waits me p)) :
    Fares answers me p s.Behind (s.handle me cancelled p i) := by
  cases s with
  | loading r => exact fares_loaded (Reload.fares_handle named hp h admitted)
  | checking checks =>
    obtain ⟨hloaded, places, hplaces, hrange, hchecks⟩ := h
    obtain ⟨hchecked, hchecks⟩ :=
      goes_checks cancelled (known_names hrange) eq_of_names hplaces hchecks admitted
    have hq : p.Advances me False _ False := .of_alike hp hchecked.alike
    rw [← hq.rules.identities] at hrange hchecks
    exact .of_advances hq
      (fares_checked named hq.coherent (hq.loaded hloaded) hplaces hrange hchecks)
  | reloading f r =>
    obtain ⟨hloaded, hfits, hsound⟩ := h
    exact fares_reloaded named hp hloaded hfits (Reload.leads_handle me cancelled hsound admitted)
  | merging f m =>
    refine fares_merged (Merge.Lasting.comes_handle ?_ i)
    cases m with
    | waiting changes fs => exact ⟨.refl hp, h⟩
    | adapting place s rest n fs =>
      obtain ⟨hloaded, hholds, checked, hfits⟩ := h
      exact ⟨checked, .refl hp, hloaded, hholds, hfits⟩

/-- Dropping a pass that is not behind. -/
theorem advances_abandon (hp : p.Coherent) (s : Pass) :
    p.Advances me s.Behind (s.abandon me p) s.Behind := by
  have hrelease : p.Advances me s.Behind (p.release me) s.Behind := .release hp
  cases s with
  | loading r => exact hrelease
  | checking checks =>
    obtain ⟨places, hchecked, -⟩ := p.checked_abandon checks
    exact .of_alike hp hchecked.alike
  | reloading f r => exact hrelease
  | merging f m => exact hrelease

end Pass

end Operations
end ReplicatedConfig
