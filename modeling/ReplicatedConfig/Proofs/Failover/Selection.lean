import ReplicatedConfig.Proofs.Failover.Execution

/-!
# Whom a call tries

A call takes its candidates from the pool when it starts, by three rules: a single member is
always tried, the primary and the others are passed over while they are backed off, and where
that leaves nobody the primary is tried all the same.  `Pool.Selects` says what the rules come to,
with no rule before another one.

## What it means for a call

Everybody who is asked is a candidate, whatever happens to the call (`Stands.mem_of_tried`).  An
attempt that is dropped leaves no trace in the call that has dropped it, but it has been under way
before, so what is said of the members that have been tried (`tried`) is said after every run and
thus of everybody who is ever asked.  `selection_run` puts this together: a call always asks
somebody, it starts at the primary unless another one has to be asked first, and it asks somebody
who was backed off at its start only where it has no choice.
-/

namespace ReplicatedConfig

variable {σ α : Type}

namespace Pool

/-- The primary has to be tried because no member may be. -/
def Forces (p : Pool) (now : Instant) : Prop := ∀ m ∈ p.members, ¬ p.Available now m

instance (p : Pool) (now : Instant) : Decidable (p.Forces now) :=
  inferInstanceAs (Decidable (∀ m ∈ p.members, ¬ p.Available now m))

/-- What the members are that a call may try at `now`. -/
structure Selects (p : Pool) (now : Instant) (ms : List Member) : Prop where
  ne_nil : ms ≠ []
  nodup : ms.Nodup
  sublist : ms.Sublist p.members
  sole : ∀ m, p.members = [m] → ms = [m]
  available : p.members.length ≠ 1 → ¬ p.Forces now →
    ms = p.members.filter (decide <| p.Available now ·)
  forced : p.members.length ≠ 1 → p.Forces now → ms = p.primary?.toList

variable {p : Pool} {now : Instant}

/-- **Selection.**  The candidates are as they ought to be. -/
theorem selects_candidates (hp : p.Numbered) (hne : p.members ≠ []) (now : Instant) :
    p.Selects now (p.candidates now) := by
  have hnodup : (p.candidates now).Nodup := (hp.nodup_candidates now).of_map
  refine ⟨candidates_ne_nil hne now, hnodup, p.candidates_sublist now, ?_, ?_, ?_⟩
  · intro m hm
    rw [candidates_eq, hm]
  · intro hlength hforces
    have hsome : p.members.filter (decide <| p.Available now ·) ≠ [] := by
      intro hnil
      refine hforces fun m hm hav => ?_
      exact List.filter_eq_nil_iff.1 hnil m hm (decide_eq_true hav)
    rw [candidates_eq]
    split
    · next m hm => exact absurd (congrArg List.length hm) hlength
    · split
      · next hnil => exact absurd hnil hsome
      · rfl
  · intro hlength hforces
    have hnil : p.members.filter (decide <| p.Available now ·) = [] :=
      List.filter_eq_nil_iff.2 fun m hm => by simpa using hforces m hm
    rw [candidates_eq]
    split
    · next m hm => exact absurd (congrArg List.length hm) hlength
    · rw [hnil, primary?, ← List.take_one]

namespace Selects

variable {ms : List Member}

/-- Somebody who is backed off is tried as the only member, or as the primary of members that are
all backed off. -/
theorem of_not_available (h : p.Selects now ms) {m : Member} (hm : m ∈ ms)
    (hbacked : ¬ p.Available now m) :
    p.members = [m] ∨ (p.primary? = some m ∧ p.Forces now) := by
  by_cases hlength : p.members.length = 1
  · obtain ⟨m', hm'⟩ := List.length_eq_one_iff.1 hlength
    rw [h.sole m' hm', List.mem_singleton] at hm
    exact .inl (hm ▸ hm')
  · by_cases hforces : p.Forces now
    · rw [h.forced hlength hforces, Option.mem_toList] at hm
      exact .inr ⟨hm, hforces⟩
    · rw [h.available hlength hforces] at hm
      exact absurd (of_decide_eq_true (List.mem_filter.1 hm).2) hbacked

/-- The primary comes first exactly where it may be tried, or has to be. -/
theorem head?_eq_primary? (h : p.Selects now ms) {m : Member} (hm : p.primary? = some m) :
    ms.head? = some m ↔ p.Available now m ∨ p.members = [m] ∨ p.Forces now := by
  obtain ⟨rest, hmembers⟩ := List.head?_eq_some_iff.1 hm
  constructor
  · intro hhead
    by_cases hav : p.Available now m
    · exact .inl hav
    · rcases h.of_not_available (List.mem_of_head? hhead) hav with hsole | ⟨-, hforces⟩
      · exact .inr (.inl hsole)
      · exact .inr (.inr hforces)
  · intro hcases
    by_cases hlength : p.members.length = 1
    · obtain ⟨m', hm'⟩ := List.length_eq_one_iff.1 hlength
      rw [h.sole m' hm', ← hm']
      exact hm
    · by_cases hforces : p.Forces now
      · rw [h.forced hlength hforces, hm]
        rfl
      · have hav : p.Available now m := by
          rcases hcases with hav | hsole | hforces'
          · exact hav
          · exact absurd (congrArg List.length hsole) hlength
          · exact absurd hforces' hforces
        rw [h.available hlength hforces, hmembers, List.filter_cons_of_pos (by simpa using hav)]
        rfl

end Selects
end Pool

namespace Execution

/-- The members that have been asked: those whose attempts have ended, and those whose attempts are
under way. -/
def tried (e : Execution σ α) : List Member :=
  e.completions.map (·.member) ++
    match e.progress with
    | .waiting c => c.inFlight.map (·.member)
    | .returned _ => []

variable {k : Conversation σ α} {candidates : List Member}

/-- A call asks nobody but its candidates. -/
theorem Stands.mem_of_tried {e : Execution σ α} (h : Stands candidates e) :
    ∀ m ∈ e.tried, m ∈ candidates := by
  intro m hm
  cases h with
  | waiting c log account busy =>
    exact account.launched_prefix.subset (account.share.subset hm)
  | givenUp log tried undecided =>
    rw [Execution.tried, List.append_nil] at hm
    exact tried.subset hm
  | decided log x r tried undecided verdict =>
    rw [Execution.tried, List.append_nil, List.map_append] at hm
    exact tried.subset hm
  | exhausted log m' e tried undecided mended =>
    rw [Execution.tried, List.append_nil, List.map_append] at hm
    exact tried.subset hm

/-- A call that has just been started has asked its first candidate, and nobody else. -/
theorem tried_start (fresh : σ) {p : Provider} {m : Member}
    (hm : (p.pool.candidates p.now).head? = some m) : (start k fresh p false).tried = [m] := by
  obtain ⟨rest, hcandidates⟩ := List.head?_eq_some_iff.1 hm
  unfold start
  rw [hcandidates]
  simp only [Provider.openCall, hcandidates, Bool.false_eq_true, if_false, Provider.take,
    Call.start, Call.launchNext, Call.opening, Call.outright?, List.nil_append, List.head?_cons,
    Option.bind_some]
  cases k.outright fresh with
  | none => rfl
  | some value => rfl

/-- **Whom a call tries.**  The candidates are those that may be tried at the start; for want of
such a one it is the primary, and a single member is always tried.  So a call that has not been
given up asks somebody at once.  This is the primary exactly where it is available, the only member,
or forced; and at no time does the call ask somebody who was backed off when it started, but for
the only member and a forced primary. -/
theorem selection_run (k : Conversation σ α) (fresh : σ) {p : Provider} (hp : p.pool.Numbered)
    (hne : p.pool.members ≠ []) :
    p.pool.Selects p.now (p.pool.candidates p.now) ∧
    (∃ m primary, (start k fresh p false).tried = [m] ∧ p.pool.primary? = some primary ∧
      (m = primary ↔
        p.pool.Available p.now primary ∨ p.pool.members = [primary] ∨ p.pool.Forces p.now)) ∧
    ∀ moments, ∀ m ∈ ((start k fresh p false).run k moments).tried, ¬ p.pool.Available p.now m →
      p.pool.members = [m] ∨ (p.pool.primary? = some m ∧ p.pool.Forces p.now) := by
  have hselects := Pool.selects_candidates hp hne p.now
  refine ⟨hselects, ?_, ?_⟩
  · obtain ⟨m, hm⟩ := Option.ne_none_iff_exists'.1 (mt List.head?_eq_none_iff.1 hselects.ne_nil)
    obtain ⟨primary, hprimary⟩ := Option.ne_none_iff_exists'.1 (mt List.head?_eq_none_iff.1 hne)
    refine ⟨m, primary, tried_start fresh hm, hprimary, ?_⟩
    rw [← hselects.head?_eq_primary? hprimary, hm, Option.some_inj]
  · intro moments m hm hbacked
    have hstands := stands_run k fresh hp hne false moments
    exact hselects.of_not_available (hstands.mem_of_tried m hm) hbacked

/-- Two replicas are backed off, so a call asks the first of them. -/
theorem tried_two_backed_off :
    ∃ p : Provider, p.pool.members.map (·.endpoint) = (Pool.ofHosts ["a", "b"]).configured ∧
      p.pool.Forces p.now ∧
      ∃ primary, p.pool.primary? = some primary ∧
        (start .fetch default p false).tried = [primary] := by
  let backedOff : Health := ⟨1, Instant.start + Duration.ofSecs 30⟩
  let pool : Pool := { Pool.ofHosts ["a", "b"] with healths := [backedOff, backedOff] }
  let p : Provider := .new pool default .empty .empty default .start
  have hforces : p.pool.Forces p.now := by decide
  obtain ⟨-, ⟨m, primary, htried, hprimary, hiff⟩, -⟩ := selection_run .fetch default (p := p)
    ⟨(Pool.numbered_ofHosts ["a", "b"]).nodup, (Pool.numbered_ofHosts ["a", "b"]).lt_length⟩
    (List.cons_ne_nil _ _)
  exact ⟨p, rfl, hforces, primary, hprimary, hiff.2 (.inr (.inr hforces)) ▸ htried⟩

end Execution
end ReplicatedConfig
