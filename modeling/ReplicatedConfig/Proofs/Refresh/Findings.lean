import ReplicatedConfig.Proofs.Refresh.Checking

/-!
# Checks side by side

The checks of a pass stand in the order of their places, and an input goes through all of
them in that order.  Each one leaves the keys at other places alone, so every check of a pass
may be looked at by itself: `Beside` says that each stands where a check of its place may
stand, and `goes_driveChecks` and `goes_startCheck` that this lasts.

When all have ended, `Findings.ofResults` adds up what they found.  Changes and failures are
those of the checks, in the order of the places (`of_ofResults`).
-/

namespace ReplicatedConfig

/-! ## All checks of a pass -/

namespace Pass

variable {answers : Replies} {W : Nat → Watch.Fact → Prop} {skips : Prop}
  {p q : Provider} {places : List Nat} {checks : List Check} {cancelled : Bool}

/-- The checks of places, each where a check of its place may stand. -/
def Beside (answers : Replies) (W : Nat → Watch.Fact → Prop) (skips : Prop) (p : Provider)
    (places : List Nat) (checks : List Check) : Prop :=
  List.Forall₂ (fun place c => c.At answers W skips p place) places checks

theorem Beside.of_ready (h : Beside answers W skips p places checks)
    (hready : skips ∨ ∀ place ∈ places,
      q.watchList.get? place = p.watchList.get? place ∧ p.now ≤ q.now) :
    Beside answers W skips q places checks := by
  induction h with
  | nil => exact .nil
  | cons hat hrest ih =>
    refine .cons (hat.of_ready (hready.imp_right fun h => h _ List.mem_cons_self)) ?_
    exact ih (hready.imp_right fun h place hplace => h place (List.mem_cons_of_mem _ hplace))

/-- Checks elsewhere leave these where they are. -/
theorem Beside.of_checked (h : Beside answers W skips p places checks) {others : List Nat}
    (hq : p.Checked others q) (hothers : ∀ place ∈ places, place ∉ others) :
    Beside answers W skips q places checks :=
  h.of_ready (.inr fun place hplace =>
    ⟨hq.elsewhere place (hothers place hplace), Nat.le_of_eq (congrArg Instant.nanos hq.now.symm)⟩)

/-- What a step of some checks leaves behind. -/
def Goes (answers : Replies) (W : Nat → Watch.Fact → Prop) (skips : Prop) (p : Provider)
    (places : List Nat) (x : Provider × List Check) : Prop :=
  p.Checked places x.1 ∧ Beside answers W skips x.1 places x.2

/-- The watch list is as `W` says at some places. -/
def Known (W : Nat → Watch.Fact → Prop) (p : Provider) (places : List Nat) : Prop :=
  ∀ place ∈ places, ∃ f, p.watchList.facts[place]? = some f ∧ W place f

theorem Known.of_facts (h : Known W p places) (hfacts : q.watchList.facts = p.watchList.facts) :
    Known W q places := by
  unfold Known
  rw [hfacts]
  exact h

/-- One check steps, and then those behind it. -/
theorem goes_cons {place : Nat} {c : Check} {x : Provider × List Check}
    (hplace : place ∉ places) (hc : c.At answers W skips q place) (hq : p.Checked [place] q)
    (hx : Goes answers W skips q places x) :
    Goes answers W skips p (place :: places) (x.1, c :: x.2) := by
  refine ⟨(hq.of_subset ?_).trans (hx.1.of_subset (List.subset_cons_self _ _)), .cons ?_ hx.2⟩
  · exact List.cons_subset_cons _ (List.nil_subset _)
  · refine hc.of_ready (.inr ⟨hx.1.elsewhere place hplace, ?_⟩)
    exact Nat.le_of_eq (congrArg Instant.nanos hx.1.now.symm)

/-- **An input that reaches every check** leaves each where a check of its place may stand. -/
theorem goes_driveChecks {i : Input} (hW : Known W p places)
    (names : ∀ {place f g}, W place f → W place g → f.1 = g.1) (hplaces : places.Nodup)
    (h : Beside answers W skips p places checks)
    (admitted : ∀ c ∈ checks, i.Admitted answers c.waits) :
    Goes answers W skips p places (driveChecks cancelled i p checks) := by
  induction places generalizing p checks with
  | nil =>
    cases h
    exact ⟨(Provider.Called.refl p).checked, .nil⟩
  | cons place places ih =>
    cases h with
    | @cons _ c _ checks hat hrest =>
      rw [List.nodup_cons] at hplaces
      have hhere := hW place List.mem_cons_self
      obtain ⟨hq, hc⟩ := Check.steps_handle cancelled hhere names hat (admitted c List.mem_cons_self)
      -- The step of the first check leaves the places of the others alone.
      have hothers : ∀ place' ∈ places, place' ∉ [place] := fun place' h' heq =>
        hplaces.1 (List.mem_singleton.1 heq ▸ h')
      refine goes_cons hplaces.1 hc hq (ih ?_ hplaces.2 (Beside.of_checked hrest hq hothers) ?_)
      · exact Known.of_facts (fun j hj => hW j (List.mem_cons_of_mem _ hj)) hq.facts
      · exact fun c hc => admitted c (List.mem_cons_of_mem _ hc)

/-- So does starting the first one that has not started. -/
theorem goes_startCheck (hW : Known W p places)
    (names : ∀ {place f g}, W place f → W place g → f.1 = g.1) (hplaces : places.Nodup)
    (h : Beside answers W skips p places checks) :
    Goes answers W skips p places (startCheck cancelled p checks) := by
  induction places generalizing p checks with
  | nil =>
    cases h
    exact ⟨(Provider.Called.refl p).checked, .nil⟩
  | cons place places ih =>
    cases h with
    | @cons _ c _ checks hat hrest =>
      rw [List.nodup_cons] at hplaces
      rw [startCheck]
      split
      · have hhere := hW place List.mem_cons_self
        have hresumed : Input.resumed.Admitted answers c.waits := trivial
        obtain ⟨hq, hc⟩ := Check.steps_handle cancelled hhere names hat hresumed
        have hothers : ∀ place' ∈ places, place' ∉ [place] := fun place' h' heq =>
          hplaces.1 (List.mem_singleton.1 heq ▸ h')
        have hx : Goes answers W skips (c.handle cancelled p .resumed).1 places
            ((c.handle cancelled p .resumed).1, checks) :=
          ⟨(Provider.Called.refl _).checked, Beside.of_checked hrest hq hothers⟩
        exact goes_cons hplaces.1 hc hq hx
      · have hstay : p.Checked [place] p := (Provider.Called.refl p).checked
        refine goes_cons hplaces.1 hat hstay (ih ?_ hplaces.2 hrest)
        exact fun j hj => hW j (List.mem_cons_of_mem _ hj)

variable (cancelled) in
/-- An input that reaches a pass while it checks. -/
theorem goes_checks {i : Input} (hW : Known W p places)
    (names : ∀ {place f g}, W place f → W place g → f.1 = g.1) (hplaces : places.Nodup)
    (h : Beside answers W skips p places checks) :
    i.Admitted answers (checks.flatMap Check.waits) →
    Goes answers W skips p places
      (match i with
      | .resumed => startCheck cancelled p checks
      | i => driveChecks cancelled i p checks) := by
  intro admitted
  have hdrive : Goes answers W skips p places (driveChecks cancelled i p checks) := by
    refine goes_driveChecks hW names hplaces h fun c hc => ?_
    cases i with
    | answered ticket reply =>
      exact fun o ho => admitted o (List.mem_flatMap.2 ⟨c, hc, ho⟩)
    | fallback serial => trivial
    | cancelled => trivial
    | resumed => trivial
    | woke => trivial
  cases i with
  | resumed => exact goes_startCheck hW names hplaces h
  | answered ticket reply => exact hdrive
  | fallback serial => exact hdrive
  | cancelled => exact hdrive
  | woke => exact hdrive

/-- The checks that a pass starts with. -/
theorem beside_ready (h : ∀ place ∈ places, skips ∨ ∃ w,
    p.watchList.get? place = some w ∧ w.held = false ∧ w.Due p.now) :
    Beside answers W skips p places (places.map .ready) := by
  rw [Beside, List.forall₂_map_right_iff]
  exact List.forall₂_same.2 fun place hplace => ⟨rfl, h place hplace⟩

/-- Checks that all have a result have ended with it. -/
theorem eq_map_finished {results : List (Except ProviderError Finding)}
    (hresults : checks.mapM Check.result? = some results) : checks = results.map .finished := by
  induction checks generalizing results with
  | nil =>
    cases hresults
    rfl
  | cons c rest ih =>
    rw [List.mapM_cons] at hresults
    obtain ⟨r, hr, hresults⟩ := Option.bind_eq_some_iff.1 hresults
    obtain ⟨rs, hrs, hresults⟩ := Option.bind_eq_some_iff.1 hresults
    cases hresults
    cases c with
    | ready place => cases hr
    | checking place known call => cases hr
    | fetching place known call => cases hr
    | finished result =>
      cases hr
      rw [List.map_cons, ih hrs]

/-- What the checks have found, once all have ended. -/
theorem found_of_results {results : List (Except ProviderError Finding)}
    (h : Beside answers W skips p places checks)
    (hresults : checks.mapM Check.result? = some results) :
    List.Forall₂ (fun place r => ∀ f, r = .ok f → Check.Found answers W skips place f)
      places results := by
  rw [Beside, eq_map_finished hresults, List.forall₂_map_right_iff] at h
  refine h.imp fun place r hat f hr => ?_
  rw [hr] at hat
  exact hat

end Pass

/-! ## Adding up -/

namespace Findings

/-- The change that a check has found, if it has found one. -/
def changeOf? : Except ProviderError Finding → Option PointChange
  | .ok (.changed change) => some change
  | _ => Option.none

/-- The error that a check has ended with, if it has. -/
def errorOf? : Except ProviderError Finding → Option ProviderError
  | .error e => some e
  | .ok _ => Option.none

/-- What one check more adds. -/
theorem of_add {f g : Findings} {r : Except ProviderError Finding} (h : f.add r = some g) :
    g.changes = f.changes ++ (changeOf? r).toList ∧
      g.failures = f.failures ++ (errorOf? r).toList ∧
      (g.reload = true ↔ f.reload = true ∨ r = .ok .reloadAll) := by
  cases r with
  | ok finding =>
    cases finding <;> cases h <;> simp [changeOf?, errorOf?]
  | error e =>
    cases e <;> cases h <;> simp [changeOf?, errorOf?]

theorem of_foldlM {rs : List (Except ProviderError Finding)} {f g : Findings}
    (h : rs.foldlM add f = some g) :
    g.changes = f.changes ++ rs.filterMap changeOf? ∧
      g.failures = f.failures ++ rs.filterMap errorOf? ∧
      (g.reload = true ↔ f.reload = true ∨ .ok .reloadAll ∈ rs) := by
  induction rs generalizing f with
  | nil =>
    cases h
    simp
  | cons r rs ih =>
    rw [List.foldlM_cons] at h
    obtain ⟨f', hf', h⟩ := Option.bind_eq_some_iff.1 h
    obtain ⟨hchanges, hfailures, hreload⟩ := ih h
    obtain ⟨hchanges', hfailures', hreload'⟩ := of_add hf'
    refine ⟨?_, ?_, ?_⟩
    · rw [hchanges, hchanges', List.append_assoc]
      cases hr : changeOf? r with
      | none => rw [List.filterMap_cons_none hr, Option.toList_none, List.nil_append]
      | some change => rw [List.filterMap_cons_some hr, Option.toList_some, List.singleton_append]
    · rw [hfailures, hfailures', List.append_assoc]
      cases hr : errorOf? r with
      | none => rw [List.filterMap_cons_none hr, Option.toList_none, List.nil_append]
      | some e => rw [List.filterMap_cons_some hr, Option.toList_some, List.singleton_append]
    · rw [hreload, hreload', List.mem_cons, or_assoc, @eq_comm _ r]

/-- **What all checks have found**: the changes and the failures of each, in order. -/
theorem of_ofResults {rs : List (Except ProviderError Finding)} {f : Findings}
    (h : ofResults rs = some f) :
    f.changes = rs.filterMap changeOf? ∧ f.failures = rs.filterMap errorOf? ∧
      (f.reload = true ↔ .ok .reloadAll ∈ rs) := by
  have hall := of_foldlM h
  simpa [none] using hall

end Findings
end ReplicatedConfig
