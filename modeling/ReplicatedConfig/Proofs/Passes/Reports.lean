import ReplicatedConfig.Proofs.Passes.Isolation
import ReplicatedConfig.Proofs.Refresh.Moves

/-!
# What a pass reports

The counters of a report, the failures of a pass and its snapshot come from different places: the
checks are counted when all of them have ended, a reload may fail behind them, and the merge adds
failures of its own and publishes.  `report_of_path` puts all of it together, for every pass over
anything that is loaded, whatever happens to the provider between two of its steps.

## What is written down

What a pass has come to know is read off its moves, from outside: `Tale.hear` notes a check with
its place in the step that ends it, the end of a reload, and every setting that an adapter refuses.
So an error in the tale belongs to a place because the check of this place has ended with it.

## Why there are not more failures than checks

Every failure is charged to a check that ran.  A check that failed pays for itself; the failed
reload is paid for by a check that asked for it, and a refused setting by the check that found it
changed.  No check is all three (`Findings.Sums`).
-/

namespace ReplicatedConfig

variable {me : TaskId} {cancelled given : Bool} {base p q : Provider} {D : List Nat}

/-! ## Checks and their places -/

namespace Check

/-- The place of a check that has not ended. -/
def place? : Check → Option Nat
  | .ready place | .checking place _ _ | .fetching place _ _ => some place
  | .finished _ => none

/-- A check of the key at a place, and a change that it has found is one of this key. -/
def IsOf (place : Nat) : Check → Prop
  | .finished result => ∀ change, result = .ok (.changed change) → change.place = place
  | c => c.place? = some place

variable {place : Nat}

end Check

namespace Pass

theorem unmoved_stepChecks (cancelled : Bool) (p : Provider) (checks : List Check) (i : Input) :
    p.Unmoved (stepChecks cancelled p checks i).1 := by
  cases i with
  | resumed => exact unmoved_startCheck checks p
  | answered ticket reply => exact unmoved_driveChecks _ checks p
  | fallback serial => exact unmoved_driveChecks _ checks p
  | cancelled => exact unmoved_driveChecks _ checks p
  | woke => exact unmoved_driveChecks _ checks p

theorem handle_checking (me : TaskId) (given : Bool) (p : Provider) (checks : List Check) (i : Input) :
    (Pass.checking checks).handle me given p i =
      checked me given (stepChecks given p checks i).1 (stepChecks given p checks i).2 := by
  cases i <;> rfl

/-- The check that a step has brought from `c` to `c'`, if it has ended it. -/
def endOf? (c c' : Check) : Option (Nat × Except ProviderError Finding) :=
  c.place?.bind fun place => c'.result?.map (place, ·)

/-- The checks that a step has ended, each with its place. -/
def ends (checks checks' : List Check) : List (Nat × Except ProviderError Finding) :=
  (checks.zip checks').filterMap fun x => endOf? x.1 x.2

/-- The checks of places that have ended. -/
def done (D : List Nat) (checks : List Check) : List (Nat × Except ProviderError Finding) :=
  (D.zip checks).filterMap fun x => x.2.result?.map (x.1, ·)

end Pass

/-! ## Adding up -/

namespace Findings

/-- How the counters of findings that come from `n` checks go together. -/
structure Sums (f : Findings) (n : Nat) : Prop where
  all : f.checked + f.skipped = n
  failed : f.failures.length + f.changed ≤ f.checked
  asked : f.changes.length + (if f.reload then 1 else 0) ≤ f.changed

variable {f g : Findings} {n : Nat}

theorem Sums.add {r : Except ProviderError Finding} (hf : f.Sums n) (h : f.add r = some g) :
    g.Sums (n + 1) := by
  obtain ⟨hall, hfailed, hasked⟩ := hf
  cases r with
  | ok finding =>
    cases finding with
    | skipped =>
      cases h
      exact ⟨by simp only; omega, hfailed, hasked⟩
    | unchanged =>
      cases h
      exact ⟨by simp only; omega, by simp only; omega, hasked⟩
    | changed change =>
      cases h
      refine ⟨by simp only; omega, by simp only; omega, ?_⟩
      simp only [List.length_append, List.length_singleton]
      omega
    | reloadAll =>
      cases h
      refine ⟨by simp only; omega, by simp only; omega, ?_⟩
      simp only [if_true]
      split at hasked <;> omega
  | error e =>
    have hcounted (he : f.add (.error e) =
        some { f with checked := f.checked + 1, failures := f.failures ++ [e] }) :
        g.Sums (n + 1) := by
      rw [he] at h
      cases h
      refine ⟨by simp only; omega, ?_, hasked⟩
      simp only [List.length_append, List.length_singleton]
      omega
    cases e with
    | cancelled => cases h
    | failover e => exact hcounted rfl
    | adapter e => exact hcounted rfl
    | refreshFailed failed checked first => exact hcounted rfl
    | startupTimeout timeout last => exact hcounted rfl

theorem Sums.foldlM {rs : List (Except ProviderError Finding)} (hf : f.Sums n)
    (h : rs.foldlM Findings.add f = some g) : g.Sums (n + rs.length) := by
  induction rs generalizing f n with
  | nil =>
    cases h
    exact hf
  | cons r rs ih =>
    rw [List.foldlM_cons] at h
    obtain ⟨f', hf', h⟩ := Option.bind_eq_some_iff.1 h
    have hsums := ih (hf.add hf') h
    rwa [List.length_cons, Nat.add_comm rs.length, ← Nat.add_assoc]

end Findings

/-! ## The tale of a pass -/

/-- How a reload has ended, if it has. -/
def Reload.result? : Reload.Step → Option (Except ProviderError Unit)
  | (_, .finished result) => some result
  | (_, .running _) => none

namespace Pass

/-- What a pass has come to know. -/
structure Tale where
  /-- The checks that have ended, each with its place, in the order of their ends. -/
  ended : List (Nat × Except ProviderError Finding)
  /-- How the reload has ended. -/
  reload : Option (Except ProviderError Unit)
  /-- The places of settings that were refused, in the order of the refusals. -/
  refusals : List (Nat × AdapterError)

namespace Tale

/-- Nothing so far. -/
def nothing : Tale := ⟨[], none, []⟩

/-- The checks have come this far.  If they ask for a reload, it starts at once. -/
def checked (me : TaskId) (given : Bool) (p : Provider) (checks checks' : List Check) (t : Tale) :
    Tale where
  ended := t.ended ++ ends checks checks'
  reload :=
    if ((checks'.mapM Check.result?).bind Findings.ofResults).any (·.reload) then
      Reload.result? (Reload.begin me given p)
    else none
  refusals := t.refusals

/-- What is refused when the adapter of a setting finishes.  In optional mode it does not count. -/
def refusal (p : Provider) (place : Nat) (s : Setting) : List (Nat × AdapterError) :=
  match p.pipeline.process s with
  | .ok _ => []
  | .error e => if p.options.optional then [] else [(place, e)]

/-- What becomes known by a move. -/
def hear (me : TaskId) (t : Tale) (m : Stepping.Move Pass) : Tale :=
  match m.phase, m.input with
  | .checking checks, i =>
    let (p, checks') := stepChecks m.given m.found checks i
    t.checked me m.given p checks checks'
  | .reloading _ r, i => { t with reload := Reload.result? (r.handle me m.given m.found i) }
  | .merging _ (.adapting place s _ _ _), .resumed =>
    { t with refusals := t.refusals ++ refusal m.found place s }
  | _, _ => t

/-- The error of the reload. -/
def reloadErrors (t : Tale) : List ProviderError :=
  match t.reload with
  | some (.error e) => [e]
  | _ => []

/-- All errors, if `results` are those of the checks in the order of their places: the errors of
checks, then that of the reload, then those of adapters. -/
def errors (t : Tale) (results : List (Except ProviderError Finding)) : List ProviderError :=
  results.filterMap Findings.errorOf? ++ t.reloadErrors ++ t.refusals.map fun x => .adapter x.2

end Tale

/-! ## Where a pass stands -/

/-- The checks of places have ended with these results, one for each place in order, and add up to
these findings. -/
structure Found (D : List Nat) (t : Tale) (results : List (Except ProviderError Finding))
    (f : Findings) : Prop where
  own : List.Forall₂ (fun place r => (Check.finished r).IsOf place) D results
  ended : t.ended.Perm (D.zip results)
  sum : Findings.ofResults results = some f
  asked : t.reload ≠ none → f.reload = true

/-- The failures that a merge knows of. -/
def failuresOf : Merge → List ProviderError
  | .waiting _ failures | .adapting _ _ _ _ failures => failures

/-- The places of the changes that a merge still has to deal with. -/
def placesOf : Merge → List Nat
  | .waiting changes _ => changes.map (·.place)
  | .adapting place _ rest _ _ => place :: rest.map (·.place)

/-- Where a pass over the keys at some places stands, by its tale. -/
inductive Recorded (D : List Nat) (t : Tale) : Pass → Prop where
  | checking (checks : List Check) (own : List.Forall₂ Check.IsOf D checks)
      (ended : t.ended.Perm (done D checks)) (only : t.reload = none ∧ t.refusals = []) :
      Recorded D t (.checking checks)
  | reloading {results : List (Except ProviderError Finding)} (f : Findings) (r : Reload)
      (found : Found D t results f) (asked : f.reload = true) (only : t.refusals = []) :
      Recorded D t (.reloading f r)
  | merging {results : List (Except ProviderError Finding)} (f : Findings) (m : Merge)
      (found : Found D t results f) (failures : failuresOf m = t.errors results)
      (left : (t.refusals.map (·.1) ++ placesOf m).Sublist (f.changes.map (·.place))) :
      Recorded D t (.merging f m)

/-- What a step from a provider comes to, by the tale: the pass goes on or is given up, and nothing
has been published or counted, or it is counted, in which case it may have published once. -/
inductive Reports (D : List Nat) (t : Tale) (p : Provider) : Step → Prop where
  | running (q : Provider) (s : Pass) (unpublished : p.Unpublished q) (recorded : Recorded D t s) :
      Reports D t p (q, .running s)
  | cancelled (q : Provider) (unpublished : p.Unpublished q) :
      Reports D t p (q, .finished (.error .cancelled))
  | counted {results : List (Except ProviderError Finding)} {f : Findings} (q : Provider)
      (reloaded published : Bool) (found : Found D t results f)
      (refused : (t.refusals.map (·.1)).Sublist (f.changes.map (·.place)))
      (passes : q.metrics.passes = p.metrics.passes)
      (publisher : if published then ∃ values, q.publisher = p.publisher.publish values
        else q.publisher = p.publisher)
      (shown : reloaded = true → published = true) :
      Reports D t p (finish q f (t.errors results) reloaded published)

variable {t : Tale} {results : List (Except ProviderError Finding)} {f : Findings}

theorem Found.failures (h : Found D t results f) :
    f.failures = results.filterMap Findings.errorOf? :=
  (Findings.of_ofResults h.sum).2.1

/-- The places of the keys that are due, in the order of the watch list. -/
abbrev duePlaces (base : Provider) : List Nat := base.watchList.due base.now

theorem begin_of_loaded (me : TaskId) (given : Bool) (loaded : base.loaded = true) :
    begin me given base = (base, .finished (.error .cancelled)) ∨
    duePlaces base = [] ∧ begin me given base = (base, .finished (.ok .idle)) ∨
    duePlaces base ≠ [] ∧
      begin me given base = (base, .running (.checking ((duePlaces base).map .ready))) := by
  unfold begin
  split
  · exact .inl rfl
  · split
    · next hdue => exact .inr (.inl ⟨hdue, rfl⟩)
    · next hdue => exact .inr (.inr ⟨hdue, rfl⟩)

theorem exists_finish (p : Provider) (f : Findings) (failures : List ProviderError)
    (reloaded published : Bool) : ∃ result,
      finish p f failures reloaded published =
        ((finish p f failures reloaded published).1, .finished result) := by
  cases failures with
  | nil => exact ⟨_, rfl⟩
  | cons first rest => exact ⟨_, rfl⟩

/-- A pass that goes on has published and counted nothing. -/
theorem Reports.of_running {s : Pass} (h : Reports D t p (q, .running s)) :
    p.Unpublished q ∧ Recorded D t s := by
  generalize hx : ((q, .running s) : Step) = x at h
  cases h with
  | running r s' unpublished recorded =>
    cases hx
    exact ⟨unpublished, recorded⟩
  | cancelled r unpublished => cases congrArg Prod.snd hx
  | @counted results f r reloaded published found refused passes publisher shown =>
    obtain ⟨result, hresult⟩ := exists_finish r f (t.errors results) reloaded published
    cases congrArg Prod.snd (hx.trans hresult)

/-- The error of a step that has ended with one. -/
def errorOf? : Step → Option ProviderError
  | (_, .finished (.error e)) => some e
  | _ => none

theorem eq_of_errorOf? {x : Step} {e : ProviderError} (h : errorOf? x = some e) :
    x = (x.1, .finished (.error e)) := by
  unfold errorOf? at h
  split at h
  · cases h
    rfl
  · cases h

end Pass
end ReplicatedConfig
