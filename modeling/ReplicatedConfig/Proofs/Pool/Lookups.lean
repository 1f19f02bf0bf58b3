import ReplicatedConfig.Proofs.Pool.Numbering

/-!
# What lookups do to a pool

A lookup has two steps.  Taking the slot notes the time and touches nothing else, and it fails
only within the interval since the slot was last taken (`claimLookup_eq_none_iff`).  Applying what
has been found replaces the members, or changes nothing at all (`applyLookup_cases`); a lookup that
has failed, and a list that is refused, change nothing.
-/

namespace ReplicatedConfig
namespace Pool

/-- A pool as it is built, with the time of the lookup that it was built from, if there was one.
The time between lookups may be set before the pool is used. -/
inductive Opened : Option Instant → Pool → Prop where
  | new {refusals : Refusals} {configured : List Endpoint} {policy : BackoffPolicy} {now : Instant}
      {p : Pool} (built : Pool.new refusals configured policy now = .ok p) : Opened none p
  | connect {refusals : Refusals} {configured : List Endpoint} {origin : Endpoint}
      {found : Option (List Endpoint)} {policy : BackoffPolicy} {now : Instant} {p : Pool}
      (built : Pool.connect refusals configured origin found policy now = .ok p) :
      Opened (some now) p
  | paced {ended : Option Instant} {p : Pool} (before : Opened ended p) (lookupInterval : Duration) :
      Opened ended { p with lookupInterval }

variable {p q : Pool} {refusals : Refusals} {now : Instant}

/-- What building a pool comes to where nothing is refused. -/
theorem eq_of_build {configured found : List Endpoint} {origin : Endpoint}
    {policy : BackoffPolicy} (h : build refusals configured found origin policy now = .ok p) :
    ∃ members, enrol refusals [] 0 (wanted configured found) = .ok members ∧
      p = ⟨members, enrolled [] members now, configured, origin, policy, defaultLookupInterval,
        none⟩ := by
  unfold build at h
  cases hms : enrol refusals [] 0 (wanted configured found) with
  | error e =>
    rw [hms] at h
    cases h
  | ok ms =>
    simp only [hms, bind, Except.bind] at h
    split at h
    · cases h
    · cases h
      exact ⟨ms, rfl, rfl⟩

/-- Building a pool is no lookup. -/
theorem lastLookup_build {configured found : List Endpoint} {origin : Endpoint}
    {policy : BackoffPolicy} (h : build refusals configured found origin policy now = .ok p) :
    p.lastLookup = none := by
  obtain ⟨members, -, rfl⟩ := eq_of_build h
  rfl

/-- Nothing is known about the members of a pool that has just been built. -/
theorem health_of_build {configured found : List Endpoint} {origin : Endpoint}
    {policy : BackoffPolicy} (h : build refusals configured found origin policy now = .ok p) :
    ∀ health ∈ p.healths, health = .new now := by
  obtain ⟨members, -, rfl⟩ := eq_of_build h
  exact fun health hmem => List.eq_of_mem_replicate hmem

theorem Opened.lastLookup {ended : Option Instant} (h : Opened ended p) : p.lastLookup = ended := by
  induction h with
  | new built =>
    unfold Pool.new at built
    split at built
    · cases built
    · exact lastLookup_build built
  | connect built =>
    unfold Pool.connect at built
    obtain ⟨pool, -, rfl⟩ := exists_of_map_ok built
    rfl
  | paced before lookupInterval ih => exact ih

/-! ## Taking the slot -/

theorem claimLookup_eq_none_iff :
    p.claimLookup now = none ↔
      ∃ last, p.lastLookup = some last ∧ now < last + p.lookupInterval := by
  unfold claimLookup
  cases p.lastLookup with
  | none => simp
  | some last => simp

/-- Taking the slot notes the time and nothing else. -/
theorem eq_of_claimLookup (h : p.claimLookup now = some q) :
    q = { p with lastLookup := some now } := by
  unfold claimLookup at h
  split at h
  · split at h
    · cases h
    · exact (Option.some.inj h).symm
  · exact (Option.some.inj h).symm

/-- The slot is taken at least one interval after it was taken before. -/
theorem le_of_claimLookup (h : p.claimLookup now = some q) {last : Instant}
    (hlast : p.lastLookup = some last) : last + p.lookupInterval ≤ now := by
  refine Nat.le_of_not_lt fun hlt => ?_
  rw [claimLookup_eq_none_iff.2 ⟨last, hlast, hlt⟩] at h
  cases h

/-! ## Applying what has been found -/

/-- What replacing the found replicas comes to where it is not refused. -/
theorem replaceFound_eq_ok {found : List Endpoint} {changed : Bool}
    (h : p.replaceFound refusals found now = .ok (q, changed)) :
    q = p ∧ changed = false ∨ ∃ members, members ≠ p.members ∧
      q = { p with members, healths := enrolled p.healths members now } ∧ changed = true := by
  unfold replaceFound at h
  cases hms : enrol refusals p.members p.healths.length (wanted p.configured found) with
  | error e =>
    rw [hms] at h
    cases h
  | ok ms =>
    simp only [hms, bind, Except.bind] at h
    split at h
    · cases h
    · split at h
      · cases h
        exact .inl ⟨rfl, rfl⟩
      · next hdiffers =>
        cases h
        exact .inr ⟨ms, hdiffers, rfl, rfl⟩

/-- A finished lookup replaces the members or changes nothing. -/
theorem applyLookup_cases (p : Pool) (refusals : Refusals) (found : Option (List Endpoint))
    (now : Instant) :
    p.applyLookup refusals found now = (p, false) ∨ ∃ members, members ≠ p.members ∧
      p.applyLookup refusals found now =
        ({ p with members, healths := enrolled p.healths members now }, true) := by
  unfold applyLookup
  split
  · exact .inl rfl
  · next found =>
    split
    · next r hr =>
      obtain ⟨q, changed⟩ := r
      rcases replaceFound_eq_ok hr with ⟨rfl, rfl⟩ | ⟨members, hne, rfl, rfl⟩
      · exact .inl rfl
      · exact .inr ⟨members, hne, rfl⟩
    · exact .inl rfl

/-- A finished lookup says whether it has replaced the members. -/
theorem applyLookup_eq_true_iff (p : Pool) (refusals : Refusals) (found : Option (List Endpoint))
    (now : Instant) :
    (p.applyLookup refusals found now).2 = true ↔
      (p.applyLookup refusals found now).1.members ≠ p.members := by
  rcases p.applyLookup_cases refusals found now with happly | ⟨members, hne, happly⟩
  · rw [happly]
    exact iff_of_false (by simp) fun h => h rfl
  · rw [happly]
    exact iff_of_true rfl hne

/-- A lookup has failed, or the pool refuses what it has found. -/
def Fails (p : Pool) (refusals : Refusals) (found : Option (List Endpoint)) (now : Instant) :
    Prop :=
  ∀ taken, found = some taken → ∃ cause, p.replaceFound refusals taken now = .error cause

/-- What comes to nothing changes nothing. -/
theorem applyLookup_of_fails {found : Option (List Endpoint)} (h : p.Fails refusals found now) :
    p.applyLookup refusals found now = (p, false) := by
  cases found with
  | none => rfl
  | some taken =>
    obtain ⟨cause, hcause⟩ := h taken rfl
    simp only [applyLookup, hcause]

/-- A new member may be tried at once, and the others as before. -/
theorem retryAt_enrolled {healths : List Health} {members : List Member} {h : Health}
    (hmem : h ∈ enrolled healths members now) : h ∈ healths ∨ h.retryAt = now := by
  rcases List.mem_append.1 hmem with hmem | hmem
  · exact .inl hmem
  · rw [List.eq_of_mem_replicate hmem]
    exact .inr rfl

end Pool
end ReplicatedConfig
