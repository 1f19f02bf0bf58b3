import ReplicatedConfig.Proofs.Passes.Stock

/-!
# What decides a pass

The checks of a pass end in any order, some of them fail, and other operations go on meanwhile.
None of this decides what the pass leaves.  `stock_of_course` says what does: the changes that have
been found, in the order of their places, and the entries that a reload has loaded, if one was
asked for and succeeded.  So two passes that have found the same end alike (`alike_of_courses`),
also if one of them has failed to look at keys that were not even due for the other.

## What a pass is given

The results of the checks are not part of a pass that has gone on to merge, so they are written
down beside it as it runs.  `Given` is this record, `Given.hear` what a step adds to it, and
`Course` a run together with its record.  `Given.applyTo` then says in one line what the pass makes
of what was held.
-/

namespace ReplicatedConfig

variable {base base' p q q' : Provider} {me me' : TaskId} {cancelled : Bool}

/-! ## What a pass is given -/

/-- The entries that a reload has loaded, if it has succeeded. -/
def Reload.loaded? : Reload.Step → Option (List Entry)
  | (p, .finished (.ok ())) => some p.materialized.entries
  | _ => none

namespace Pass

/-- What a pass has been given so far: the results of its checks in the order of their places,
once all have ended, and what a reload has loaded. -/
structure Given where
  results : List (Except ProviderError Finding)
  loaded : Option (List Entry)

/-- Something reaches a pass while it checks. -/
def stepChecks (cancelled : Bool) (p : Provider) (checks : List Check) : Input → Provider × List Check
  | .resumed => startCheck cancelled p checks
  | i => driveChecks cancelled i p checks

namespace Given

/-- Nothing so far. -/
def nothing : Given := ⟨[], none⟩

/-- The checks have come this far.  If they ask for a reload, it starts at once. -/
def checked (me : TaskId) (cancelled : Bool) (p : Provider) (checks : List Check) (g : Given) :
    Given :=
  match checks.mapM Check.result? with
  | none => g
  | some results =>
    ⟨results, if (Findings.ofResults results).any (·.reload) then
      Reload.loaded? (Reload.begin me cancelled p) else none⟩

/-- What a step gives to a pass. -/
def hear (me : TaskId) (cancelled : Bool) (p : Provider) (s : Pass) (i : Input) (g : Given) : Given :=
  match s with
  | .checking checks =>
    let (p, checks) := stepChecks cancelled p checks i
    g.checked me cancelled p checks
  | .reloading _ r => { g with loaded := Reload.loaded? (r.handle me cancelled p i) }
  | _ => g

/-- The changes that have been found. -/
def changes (g : Given) : List PointChange := g.results.filterMap Findings.changeOf?

/-- What the checks that have not failed have found, with the places of the keys. -/
def found (g : Given) (base : Provider) : List (Nat × Finding) :=
  ((base.watchList.due base.now).zip g.results).filterMap fun (place, r) => r.toOption.map (place, ·)

end Given

/-- A pass that starts at `base`, with what it has been given.  Anything may be replied to it, and
other operations may do anything but load, merge, and watch keys. -/
inductive Course (me : TaskId) (base : Provider) : Given → Step → Prop where
  | start (cancelled : Bool) : Course me base .nothing (begin me cancelled base)
  | step {g : Given} {p q : Provider} {s : Pass} (before : Course me base g (p, .running s))
      (moved : p.SameLoaded q) (cancelled : Bool) (i : Input) :
      Course me base (g.hear me cancelled q s i) (s.handle me cancelled q i)

/-- Every run of a pass is a course. -/
theorem exists_course {answers : Replies} {x : Step}
    (run : (stepping me).Runs answers Provider.SameLoaded (begin me cancelled base) x) :
    ∃ g, Course me base g x := by
  induction run with
  | start => exact ⟨_, .start cancelled⟩
  | step before moved cancelled admitted ih =>
    obtain ⟨g, hg⟩ := ih
    exact ⟨_, .step hg moved cancelled _⟩

/-- What a pass that has been given this makes of what was held. -/
def Given.applyTo (g : Given) (pipeline : Pipeline) (st : Stock) : Stock :=
  match g.loaded with
  | some entries => st.replace entries
  | none => st.take pipeline g.changes

/-! ## What checks find -/

/-- Anything may be replied. -/
abbrev anyReply : Replies := fun _ _ _ => True

/-- A change is found at its place, against the token that is known there. -/
theorem checked_of_found {place : Nat} {change : PointChange}
    (h : Check.Found anyReply base.Watches True place (.changed change)) :
    change.place = place ∧ base.tokenAt place = change.checked := by
  cases h with
  | @finds i role known f fact finds single =>
    obtain ⟨w, hw, hfact⟩ := WatchList.get?_of_facts fact
    have htoken : base.tokenAt place = known := by
      rw [Provider.tokenAt, hw, Option.bind_some]
      exact congrArg (·.2.2) hfact
    generalize hf : Finding.changed change = f at finds
    cases finds with
    | unchanged verdict => cases hf
    | absent verdict unknown => cases hf
    | removed verdict present =>
      cases hf
      exact ⟨rfl, htoken⟩
    | @read o verdict reply =>
      unfold Check.findingOf at hf
      split at hf
      · split at hf
        · cases hf
        · cases hf
          exact ⟨rfl, htoken⟩
      · split at hf
        · cases hf
          exact ⟨rfl, htoken⟩
        · cases hf

/-- What the checks have found is collected in the record. -/
structure Given.Collects (g : Given) (base : Provider) (f : Findings) : Prop where
  changes : f.changes = g.changes
  length : g.results.length = (base.watchList.due base.now).length
  sublist : (g.changes.map (·.place)).Sublist (base.watchList.due base.now)
  current : ∀ change ∈ g.changes, base.tokenAt change.place = change.checked

theorem changes_of_found {places : List Nat} {results : List (Except ProviderError Finding)}
    (h : List.Forall₂ (fun place r => ∀ f, r = .ok f →
      Check.Found anyReply base.Watches True place f) places results) :
    ((results.filterMap Findings.changeOf?).map (·.place)).Sublist places ∧
      ∀ change ∈ results.filterMap Findings.changeOf?,
        base.tokenAt change.place = change.checked := by
  induction h with
  | nil => exact ⟨.slnil, fun change hchange => absurd hchange List.not_mem_nil⟩
  | @cons place r places results hhere _ ih =>
    cases hr : Findings.changeOf? r with
    | none =>
      rw [List.filterMap_cons_none hr]
      exact ⟨ih.1.cons place, ih.2⟩
    | some change =>
      have hfound : r = .ok (.changed change) := by
        unfold Findings.changeOf? at hr
        split at hr <;> cases hr
        rfl
      obtain ⟨rfl, htoken⟩ := checked_of_found (hhere _ hfound)
      rw [List.filterMap_cons_some hr, List.map_cons]
      exact ⟨ih.1.cons_cons _, List.forall_mem_cons.2 ⟨htoken, ih.2⟩⟩

namespace Given.Collects

variable {g : Given} {f : Findings}

theorem of_results {results : List (Except ProviderError Finding)} {checks : List Check}
    {loaded : Option (List Entry)}
    (hchecks : Beside anyReply base.Watches True p (base.watchList.due base.now) checks)
    (hresults : checks.mapM Check.result? = some results)
    (hf : Findings.ofResults results = some f) : Collects ⟨results, loaded⟩ base f := by
  have hfound := found_of_results hchecks hresults
  obtain ⟨hsublist, hcurrent⟩ := changes_of_found hfound
  exact ⟨(Findings.of_ofResults hf).1, hfound.length_eq.symm, hsublist, hcurrent⟩

/-- The changes are about different keys. -/
theorem nodup_places (h : g.Collects base f) : (g.changes.map (·.place)).Nodup :=
  (List.nodup_range.filter _).sublist h.sublist

/-- A change is about a key of the provider. -/
theorem place_lt_size (h : g.Collects base f) {change : PointChange} (hchange : change ∈ g.changes) :
    change.place < base.watchList.size := by
  have hdue : change.place ∈ base.watchList.due base.now :=
    h.sublist.subset (List.mem_map_of_mem hchange)
  exact List.mem_range.1 (List.mem_of_mem_filter hdue)

theorem taking (h : g.Collects base f) (hp : base.SameLoaded p) :
    Taking base g.changes p 0 f.changes where
  pipeline := hp.pipeline
  places := by
    rw [h.changes]
    exact h.nodup_places
  current := by
    rw [h.changes]
    exact fun change hchange => (hp.tokenAt _).trans (h.current change hchange)
  taken := ⟨[], by rw [List.nil_append, h.changes], by rw [hp.stock]; rfl⟩

/-- The record without what a reload has loaded. -/
theorem of_loaded (h : g.Collects base f) (loaded : Option (List Entry)) :
    Collects { g with loaded } base f :=
  ⟨h.changes, h.length, h.sublist, h.current⟩

end Given.Collects

/-! ## What a course comes to -/

/-- Where a pass may stand that has been given this. -/
def Follows (g : Given) (base : Provider) (me : TaskId) (p : Provider) : Pass → Prop
  | .loading _ => False
  | .checking checks => base.SameLoaded p ∧ g.loaded = none ∧
    Beside anyReply base.Watches True p (base.watchList.due base.now) checks
  | .reloading f r => base.SameLoaded p ∧ g.loaded = none ∧ g.Collects base f ∧ r.Sound anyReply p
  | .merging f m => g.loaded = none ∧ g.Collects base f ∧ (taking base g.changes me).Stands p m

/-- What a step of such a pass may yield. -/
inductive Yields (g : Given) (base : Provider) (me : TaskId) : Step → Prop where
  | running (p : Provider) (s : Pass) (follows : s.Follows g base me p) :
      Yields g base me (p, .running s)
  | cancelled (p : Provider) : Yields g base me (p, .finished (.error .cancelled))
  | done (p : Provider) (r : Except ProviderError Report) (f : Findings) (collects : g.Collects base f)
      (stock : p.stock = g.applyTo base.pipeline base.stock) : Yields g base me (p, .finished r)

section Steps

variable {g : Given} {f : Findings} {failures : List ProviderError}

/-- Where a pass stands after a step that has not ended it. -/
theorem Yields.follows {s : Pass} (h : Yields g base me (p, .running s)) :
    s.Follows g base me p := by
  cases h with
  | running p s follows => exact follows

theorem yields_finish {reloaded published : Bool} (collects : g.Collects base f)
    (stock : p.stock = g.applyTo base.pipeline base.stock) :
    Yields g base me (finish p f failures reloaded published) := by
  cases failures with
  | nil => exact .done _ _ f collects stock
  | cons first rest => exact .done _ _ f collects stock

/-- Failures of adapters are noted, and do not count for what is taken in. -/
theorem yields_merged (collects : g.Collects base f) (hloaded : g.loaded = none) {x : Merge.Step}
    (h : (taking base g.changes me).Comes x) : Yields g base me (merged x.1 f x.2) := by
  have happly {st : Stock} {n : Nat}
      (hst : (st, n) = g.changes.foldl (Stock.takeOne base.pipeline) (base.stock, 0)) :
      g.applyTo base.pipeline base.stock =
        if n = 0 then st else { st with shown := st.materialized.values } := by
    simp only [Given.applyTo, hloaded, Stock.take, ← hst]
  cases h with
  | running p m stands => exact .running p _ ⟨hloaded, collects, stands⟩
  | idle p fs after =>
    refine yields_finish collects ?_
    rw [happly after.all, if_pos rfl]
    rfl
  | published p n fs after =>
    refine yields_finish collects ?_
    rw [happly after.all, if_neg (Nat.succ_ne_zero n)]
    exact congrArg (Stock.mk p.materialized p.watchList.known) p.values_publish

theorem yields_mergeChanges (hp : base.SameLoaded p) (hloaded : g.loaded = none)
    (h : g.Collects base f) : Yields g base me (mergeChanges me p f failures) := by
  have htaking := h.taking hp
  unfold mergeChanges
  split
  · next hempty =>
    refine yields_finish h ?_
    have hchanges : g.changes = [] := h.changes.symm.trans (List.isEmpty_iff.1 hempty)
    simp only [Given.applyTo, hloaded, hchanges]
    exact hp.stock
  · have hacquired : p.SameLoaded (p.acquire me) := ⟨rfl, rfl, rfl, rfl, rfl, rfl⟩
    exact yields_merged h hloaded
      (Merge.Lasting.comes_begin ⟨h.changes, htaking.of_sameLoaded hacquired⟩)

/-- A reload that succeeds takes the place of the merge, and one that fails does not. -/
theorem yields_reloaded (hp : base.SameLoaded p) (h : g.Collects base f) {x : Reload.Step}
    (hx : Reload.Leads anyReply me p x) :
    Yields { g with loaded := Reload.loaded? x } base me (reloaded me x.1 f x.2) := by
  cases hx with
  | running q r called sound =>
    exact .running q _ ⟨hp.trans called.sameLoaded, rfl, h.of_loaded none, sound⟩
  | failed q e called =>
    have hq : base.SameLoaded (q.release me) :=
      (hp.trans called.sameLoaded).trans ⟨rfl, rfl, rfl, rfl, rfl, rfl⟩
    have hmerge : Yields { g with loaded := none } base me
        (mergeChanges me (q.release me) f (f.failures ++ [e])) :=
      yields_mergeChanges hq rfl (h.of_loaded none)
    cases e with
    | cancelled => exact .cancelled _
    | failover e => exact hmerge
    | adapter e => exact hmerge
    | refreshFailed failed checked first => exact hmerge
    | startupTimeout timeout last => exact hmerge
  | committed q entries called loads =>
    refine yields_finish (h.of_loaded _) ?_
    rw [Provider.stock_commit, (hp.trans called.sameLoaded).stock]
    rfl

/-- Once all checks have ended, what they have found is in the record. -/
theorem yields_checked (hp : base.SameLoaded p) (hloaded : g.loaded = none) {checks : List Check}
    (hchecks : Beside anyReply base.Watches True p (base.watchList.due base.now) checks) :
    Yields (g.checked me cancelled p checks) base me (checked me cancelled p checks) := by
  unfold checked Given.checked
  cases hresults : checks.mapM Check.result? with
  | none => exact .running p _ ⟨hp, hloaded, hchecks⟩
  | some results =>
    cases hf : Findings.ofResults results with
    | none =>
      simp only [hf]
      exact .cancelled p
    | some f =>
      have hcollects : Given.Collects ⟨results, none⟩ base f := .of_results hchecks hresults hf
      cases hreload : f.reload with
      | true =>
        simp only [hf, hreload, Option.any_some, if_true]
        have hacquired : base.SameLoaded (p.acquire me) := hp.trans ⟨rfl, rfl, rfl, rfl, rfl, rfl⟩
        exact yields_reloaded hacquired hcollects (Reload.leads_begin anyReply me cancelled p)
      | false =>
        simp only [hf, hreload, Option.any_some]
        exact yields_mergeChanges hp rfl hcollects

theorem yields_begin (loaded : base.loaded = true) :
    Yields .nothing base me (begin me cancelled base) := by
  have hbase : base.SameLoaded base := (Provider.Undisturbed.refl base).sameLoaded
  unfold begin
  split
  · exact .cancelled base
  · split
    · next hnone =>
      refine .done base _ .none ⟨rfl, by rw [hnone]; rfl, List.nil_sublist _, ?_⟩ rfl
      exact fun change hchange => absurd hchange List.not_mem_nil
    · exact .running base _ ⟨hbase, rfl, beside_ready fun _ _ => .inl trivial⟩

theorem Follows.of_sameLoaded {s : Pass} (hs : s.Follows g base me p) (hq : p.SameLoaded q) :
    s.Follows g base me q := by
  cases s with
  | loading r => exact hs
  | checking checks => exact ⟨hs.1.trans hq, hs.2.1, hs.2.2.of_ready (.inl trivial)⟩
  | reloading f r =>
    obtain ⟨hp, hloaded, hcollects, hsound⟩ := hs
    exact ⟨hp.trans hq, hloaded, hcollects, hsound.of_sameRules hq.sameRules⟩
  | merging f m =>
    obtain ⟨hloaded, hcollects, hstands⟩ := hs
    refine ⟨hloaded, hcollects, ?_⟩
    cases m with
    | waiting changes fs => exact ⟨hstands.1, hstands.2.of_sameLoaded hq⟩
    | adapting place s rest merged fs =>
      obtain ⟨checked, hafter⟩ := hstands
      exact ⟨checked, Taking.of_sameLoaded hafter hq⟩

/-- **Step.**  What a step of a pass yields, with what it adds to the record. -/
theorem yields_handle {s : Pass} (hs : s.Follows g base me p) (i : Input) :
    Yields (g.hear me cancelled p s i) base me (s.handle me cancelled p i) := by
  cases s with
  | loading r => exact hs.elim
  | checking checks =>
    obtain ⟨hp, hloaded, hchecks⟩ := hs
    have hwatched : Known base.Watches p (base.watchList.due base.now) :=
      known_watches hp.facts fun place hplace => List.mem_range.1 (List.mem_of_mem_filter hplace)
    obtain ⟨hq, hchecks⟩ := goes_checks cancelled hwatched Provider.names_of_watches
      (List.nodup_range.filter _) hchecks (i.admitted_any _)
    exact yields_checked (hp.trans hq.sameLoaded) hloaded hchecks
  | reloading f r =>
    obtain ⟨hp, hloaded, hcollects, hsound⟩ := hs
    exact yields_reloaded hp hcollects (Reload.leads_handle me cancelled hsound (i.admitted_any _))
  | merging f m =>
    obtain ⟨hloaded, hcollects, hstands⟩ := hs
    exact yields_merged hcollects hloaded (Merge.Lasting.comes_handle hstands i)

/-- **Courses.** -/
theorem yields_of_course (loaded : base.loaded = true) {x : Step} (course : Course me base g x) :
    Yields g base me x := by
  induction course with
  | start cancelled => exact yields_begin loaded
  | step before moved cancelled i ih => exact yields_handle (ih.follows.of_sameLoaded moved) i

end Steps

/-! ## Two passes -/

section Courses

variable {g g' : Given} {r r' : Except ProviderError Report}

/-- **What decides a pass**: what its checks have found, and what a reload has loaded. -/
theorem stock_of_course (loaded : base.loaded = true)
    (course : Course me base g (q, .finished r)) (went : r ≠ .error .cancelled) :
    (∃ f, g.Collects base f) ∧ q.stock = g.applyTo base.pipeline base.stock := by
  cases yields_of_course loaded course with
  | cancelled p => exact absurd rfl went
  | done p r f collects stock => exact ⟨⟨f, collects⟩, stock⟩

/-- The changes are among what the checks have found that have not failed. -/
theorem Given.changes_eq (length : g.results.length = (base.watchList.due base.now).length) :
    g.changes = (g.found base).filterMap fun x => Findings.changeOf? (.ok x.2) := by
  have hresults : ((base.watchList.due base.now).zip g.results).map (·.2) = g.results :=
    List.map_snd_zip (Nat.le_of_eq length)
  rw [changes, ← hresults, List.filterMap_map, found, List.filterMap_filterMap]
  refine List.filterMap_congr fun x _ => ?_
  obtain ⟨place, result⟩ := x
  cases result <;> rfl

/-- A change that has been found is among the changes. -/
theorem Given.mem_changes {place : Nat} {change : PointChange}
    (h : (place, .changed change) ∈ g.found base) : change ∈ g.changes := by
  obtain ⟨⟨place', result⟩, hzip, hfound⟩ := List.mem_filterMap.1 h
  obtain ⟨-, hresult⟩ := List.of_mem_zip hzip
  cases result with
  | error e => cases hfound
  | ok finding =>
    cases hfound
    exact List.mem_filterMap.2 ⟨_, hresult, rfl⟩

/-- **Failures stay isolated, and the order in which checks end does not matter.**  Two passes over
what is loaded alike, whose checks have found the same where they have not failed, end alike, if
their reloads have loaded the same.  Where no reload has loaded anything, as after a reload that
has failed, the changes are taken in and shown. -/
theorem alike_of_courses (loaded : base.loaded = true) (alike : base.SameLoaded base')
    (course : Course me base g (q, .finished r)) (went : r ≠ .error .cancelled)
    (course' : Course me' base' g' (q', .finished r')) (went' : r' ≠ .error .cancelled)
    (found : g'.found base' = g.found base) (reload : g'.loaded = g.loaded) :
    q'.stock = q.stock ∧
    (g.loaded = none → q.stock = base.stock.take base.pipeline g.changes ∧
      ∀ place checked s pairs, (place, .changed (.upsert place checked s)) ∈ g.found base →
        base.pipeline.process s = .ok pairs →
        q.tokenAt place = some s.token ∧ q.publisher.current.values = q.materialized.values) := by
  obtain ⟨⟨f, hcollects⟩, hstock⟩ := stock_of_course loaded course went
  obtain ⟨⟨f', hcollects'⟩, hstock'⟩ := stock_of_course (alike.loaded.trans loaded) course' went'
  have hchanges : g'.changes = g.changes := by
    rw [Given.changes_eq hcollects'.length, Given.changes_eq hcollects.length, found]
  refine ⟨?_, fun hnone => ?_⟩
  · rw [hstock, hstock', alike.stock, alike.pipeline, Given.applyTo, Given.applyTo, hchanges, reload]
  · have htake : q.stock = base.stock.take base.pipeline g.changes := by
      rw [hstock, Given.applyTo, hnone]
    refine ⟨htake, fun place checked s pairs hfound hpairs => ?_⟩
    have hmem : .upsert place checked s ∈ g.changes := Given.mem_changes hfound
    obtain ⟨hknown, hshown⟩ : (base.stock.take base.pipeline g.changes).known[place]? = _ ∧ _ :=
      Stock.take_of_mem hcollects.nodup_places hmem hpairs
    rw [← htake] at hknown hshown
    exact ⟨Provider.tokenAt_of_stock (hcollects.place_lt_size hmem) hknown, hshown⟩

end Courses

/-- A pass goes on with one input after the other, for as long as it runs. -/
def follow (me : TaskId) : List Input → Given × Step → Given × Step
  | i :: rest, (g, (p, .running s)) =>
    follow me rest (g.hear me false p s i, s.handle me false p i)
  | _, x => x

theorem course_follow {g : Given} {x : Step} (h : Course me base g x) (inputs : List Input) :
    Course me base (follow me inputs (g, x)).1 (follow me inputs (g, x)).2 := by
  induction inputs generalizing g x with
  | nil => exact h
  | cons i rest ih =>
    obtain ⟨p, s | r⟩ := x
    · exact ih (.step h (Provider.Undisturbed.refl p).sameLoaded false i)
    · exact h

/-- A provider that has loaded three keys, of which the last reloads everything. -/
def sentinelLoaded : Provider :=
  let contents : Contents := .ofSettings [⟨"Color", none, some "blue", none, ⟨"1"⟩⟩,
    ⟨"Shape", none, some "round", none, ⟨"1"⟩⟩, ⟨"Sentinel", none, some "1", none, ⟨"1"⟩⟩] (by decide)
  ((Reload.stepping 0).play contents.turn 5 (Reload.begin 0 false
    (.new (.ofHosts ["a"]) default
      ⟨[.new ⟨⟨"Color", none⟩, .ofSecs 1, false⟩ .start, .new ⟨⟨"Shape", none⟩, .ofSecs 1, false⟩ .start,
        .new ⟨⟨"Sentinel", none⟩, .ofSecs 1, true⟩ .start]⟩
      .empty ⟨[⟨"*", none⟩], false, .ofSecs 100⟩ .start))).1

/-- The same provider when all keys are due. -/
def sentinelDue : Provider := { sentinelLoaded with now := sentinelLoaded.now + Duration.ofSecs 1 }

/-- The same provider when the shape is not due yet. -/
def sentinelDueButShape : Provider :=
  { sentinelDue with watchList := sentinelDue.watchList.markAttempted 1 sentinelDue.now }

/-- The shape cannot be checked, and neither can everything be reloaded when the sentinel has
changed. -/
def shapeFirst : List Input :=
  [.resumed, .resumed, .resumed, .answered ⟨2, 0, 0⟩ (.error (.http 403 "denied")),
    .answered ⟨3, 0, 0⟩ (.ok (.verdict .modified)), .answered ⟨1, 0, 0⟩ (.ok (.verdict .modified)),
    .answered ⟨4, 0, 0⟩ (.ok (.setting (some ⟨"Color", none, some "red", none, ⟨"2"⟩⟩))),
    .answered ⟨5, 0, 0⟩ (.error (.http 403 "denied")), .resumed]

def colorFirst : List Input :=
  [.resumed, .resumed, .answered ⟨1, 0, 0⟩ (.ok (.verdict .modified)),
    .answered ⟨3, 0, 0⟩ (.ok (.setting (some ⟨"Color", none, some "red", none, ⟨"2"⟩⟩))),
    .answered ⟨2, 0, 0⟩ (.ok (.verdict .modified)), .answered ⟨4, 0, 0⟩ (.error .timeout), .resumed]

/-- How the two passes end. -/
def shapeEnd : Given × Step := follow 1 shapeFirst (.nothing, begin 1 false sentinelDue)

def colorEnd : Given × Step := follow 1 colorFirst (.nothing, begin 1 false sentinelDueButShape)

/-- Whether a pass has failed to refresh some keys. -/
def isRefreshFailed : Step → Bool
  | (_, .finished (.error (.refreshFailed _ _ _))) => true
  | _ => false

theorem exists_of_isRefreshFailed {x : Step} (h : isRefreshFailed x = true) :
    ∃ failed checked first, x = (x.1, .finished (.error (.refreshFailed failed checked first))) := by
  unfold isRefreshFailed at h
  split at h
  · exact ⟨_, _, _, rfl⟩
  · cases h

/-- Whether the check of the shape fails or is not due, and whichever check ends first: the new
color is taken in and shown, though everything could not be reloaded. -/
theorem alike_of_sentinel :
    Course 1 sentinelDue shapeEnd.1 shapeEnd.2 ∧ Course 1 sentinelDueButShape colorEnd.1 colorEnd.2 ∧
    shapeEnd.1.results.length = 3 ∧ colorEnd.1.results.length = 2 ∧
    colorEnd.2.1.stock = shapeEnd.2.1.stock ∧ shapeEnd.2.1.tokenAt 0 = some ⟨"2"⟩ ∧
    shapeEnd.2.1.publisher.current.values.get? "Color" = some "red" := by
  have hshape : Course 1 sentinelDue shapeEnd.1 shapeEnd.2 := course_follow (.start false) shapeFirst
  have hcolor : Course 1 sentinelDueButShape colorEnd.1 colorEnd.2 :=
    course_follow (.start false) colorFirst
  refine ⟨hshape, hcolor, by decide +kernel, by decide +kernel, ?_⟩
  obtain ⟨failed, checked, first, hend⟩ : ∃ failed checked first, shapeEnd.2 =
      (shapeEnd.2.1, .finished (.error (.refreshFailed failed checked first))) :=
    exists_of_isRefreshFailed (by decide +kernel)
  obtain ⟨failed', checked', first', hend'⟩ : ∃ failed checked first, colorEnd.2 =
      (colorEnd.2.1, .finished (.error (.refreshFailed failed checked first))) :=
    exists_of_isRefreshFailed (by decide +kernel)
  have halike : sentinelDue.SameLoaded sentinelDueButShape :=
    ⟨WatchList.facts_modify _ _ fun _ => rfl, rfl, rfl, rfl, rfl, rfl⟩
  rw [hend] at hshape
  rw [hend'] at hcolor
  obtain ⟨hstock, hreload⟩ := alike_of_courses (by decide +kernel) halike hshape nofun hcolor nofun
    (by decide +kernel) (by decide +kernel)
  obtain ⟨htoken, hshown⟩ := (hreload (by decide +kernel)).2 0 (some ⟨"1"⟩)
    ⟨"Color", none, some "red", none, ⟨"2"⟩⟩ [("Color", "red")] (by decide +kernel) rfl
  refine ⟨hstock, htoken, ?_⟩
  rw [hshown]
  decide +kernel

end Pass
end ReplicatedConfig
