import ReplicatedConfig.Proofs.Cancellation.Reloads
import ReplicatedConfig.Proofs.Refresh.FailedLoads

/-!
# How a first load is given up

A first load that is given up ends in the same move, and with nothing but `cancelled`: in either
mode, whichever of its tries it is in, and also in the pause between two of them.  What it leaves
is what it found.

`Stepping.Surfaces` states this for any operation, and passes share it.  The moves of an operation
tell when its caller has given up (`Heard`), since a step is given that as a flag.
-/

namespace ReplicatedConfig

/-! ## What the caller has said -/

section Callers

variable {μ α : Type} {given : Bool} {moves : List (Stepping.Move μ)} {m : Stepping.Move μ}

/-- Whether the caller has given up, at the start or later. -/
def givenUp (given : Bool) (moves : List (Stepping.Move μ)) : Bool :=
  given || moves.any (·.input.isCancelled)

/-- The moves know whether the caller has given up by then. -/
def Heard (given : Bool) (moves : List (Stepping.Move μ)) : Prop :=
  ∀ before m after, moves = before ++ m :: after → m.given = givenUp given (before ++ [m])

theorem givenUp_append (given : Bool) (moves : List (Stepping.Move μ)) (m : Stepping.Move μ) :
    givenUp given (moves ++ [m]) = (givenUp given moves || m.input.isCancelled) := by
  rw [givenUp, givenUp, List.any_append, Bool.or_assoc, List.any_cons, List.any_nil, Bool.or_false]

theorem Heard.of_append (h : Heard given (moves ++ [m])) : Heard given moves :=
  fun before m' after hmoves =>
    h before m' (after ++ [m]) (by rw [hmoves, List.append_assoc, List.cons_append])

theorem Heard.last (h : Heard given (moves ++ [m])) :
    m.given = (givenUp given moves || m.input.isCancelled) := by
  rw [h moves m [] rfl, givenUp_append]

theorem Heard.append (h : Heard given moves)
    (hm : m.given = (givenUp given moves || m.input.isCancelled)) : Heard given (moves ++ [m]) := by
  intro before m' after hmoves
  rcases List.eq_nil_or_concat after with rfl | ⟨after, a, rfl⟩
  · obtain ⟨rfl, hlast⟩ := List.append_inj' hmoves rfl
    cases hlast
    rw [hm, givenUp_append]
  · rw [List.concat_eq_append, ← List.cons_append, ← List.append_assoc] at hmoves
    exact h before m' after (List.append_inj' hmoves rfl).1

/-- The caller never gives up. -/
theorem heard_of_willing (moves : List (Stepping.Move μ))
    (h : ∀ m ∈ moves, m.given = false ∧ m.input.isCancelled = false) :
    Heard false moves ∧ givenUp false moves = false := by
  have hnever : givenUp false moves = false := by
    rw [givenUp, Bool.false_or, List.any_eq_false]
    intro m hm
    rw [(h m hm).2]
    exact Bool.false_ne_true
  refine ⟨fun before m after hmoves => ?_, hnever⟩
  subst hmoves
  rw [givenUp, List.any_append, ← Bool.or_assoc] at hnever
  have hm := h m (List.mem_append_right _ List.mem_cons_self)
  rw [givenUp_append, hm.1, hm.2, Bool.or_false, givenUp]
  exact (Bool.or_eq_false_iff.1 hnever).1.symm

end Callers

/-! ## What an operation that is given up leaves -/

/-- The loaded entries, the known tokens and the snapshot are the same. -/
structure Provider.Uncommitted (p q : Provider) : Prop where
  known : q.watchList.known = p.watchList.known
  materialized : q.materialized = p.materialized
  loaded : q.loaded = p.loaded
  publisher : q.publisher = p.publisher

theorem Provider.Unmoved.uncommitted {p q : Provider} (h : p.Unmoved q) : p.Uncommitted q :=
  ⟨h.known, h.materialized, h.loaded, h.publisher⟩

theorem Provider.Uncommitted.trans {p q r : Provider} (hq : p.Uncommitted q)
    (hr : q.Uncommitted r) : p.Uncommitted r where
  known := hr.known.trans hq.known
  materialized := hr.materialized.trans hq.materialized
  loaded := hr.loaded.trans hq.loaded
  publisher := hr.publisher.trans hq.publisher

/-- An operation that has started with `x` and come to `y` ends as given up if and only if its
caller had given up before it started, or something has given it up in a move; and if it ends so,
it has changed nothing. -/
structure Stepping.Surfaces {μ α : Type} (o : Stepping μ α) (gives : Stepping.Move μ → Prop)
    (given : Bool) (base : Provider) (x : Provider × Stage μ α) (moves : List (Stepping.Move μ))
    (y : Provider × Stage μ α) : Prop where
  ended : ∀ result, y.2 = .finished result →
    (result = .error .cancelled ↔ given = true ∨ ∃ m ∈ moves, gives m)
  nothing : y.2 = .finished (.error .cancelled) →
    base.Uncommitted x.1 ∧ ∀ m ∈ moves, m.found.Uncommitted (o.comesTo m).1

/-! ## First loads -/

namespace Startup

variable {me : TaskId} {given given' : Bool} {lost : Prop} {base p q : Provider}

/-- A request is under way, or a pause, only if the caller has not given up. -/
def Aware (given : Bool) (s : Startup) : Prop :=
  match s.phase with
  | .inl r => r.Aware given
  | .inr _ => given = false

/-- Whether the load is given up in a move: by one of its requests, or in a pause. -/
def GivesUp (me : TaskId) (m : Stepping.Move Startup) : Prop :=
  (stepping me).GivesUp m ∨ m.input = .cancelled ∧ ∃ wake, m.phase.phase = .inr wake

/-- What a step comes to is aware of whether the caller has given up; it has ended as given up if
and only if `lost` holds. -/
structure Obeys (given : Bool) (lost : Prop) (x : Step) : Prop where
  aware : ∀ s, x.2 = .running s → s.Aware given
  lost_iff : x.2 = .finished (.error .cancelled) ↔ lost

/-- Neither mode makes anything else of giving up, or anything else into that. -/
theorem snd_finish_cancelled_iff (p : Provider) (e : ProviderError) :
    (finish p (.error e)).2 = .finished (.error .cancelled) ↔ e = .cancelled := by
  constructor
  · intro h
    by_cases hforgiven : p.options.optional = true ∧ e.isCancelled = false
    · rw [finish, if_pos hforgiven] at h
      cases h
    · rw [finish, if_neg hforgiven] at h
      exact Except.error.inj (Stage.finished.inj h)
  · rintro rfl
    exact congrArg Stage.finished (if_neg fun h => Bool.noConfusion h.2)

theorem obeys_finish (given : Bool) (p : Provider) (e : ProviderError) :
    Obeys given (e = .cancelled) (finish p (.error e)) :=
  ⟨nofun, snd_finish_cancelled_iff p e⟩

/-- A try has come this far. -/
theorem obeys_tried {x : Reload.Step} (h : Reload.Obeys given lost x) (deadline : Instant)
    (tries : Nat) : Obeys given lost (tried x.1 deadline tries x.2) := by
  obtain ⟨q, r | result⟩ := x
  · exact ⟨fun s hs => Stage.running.inj hs ▸ h.aware r rfl, ⟨nofun, fun hl => nomatch h.lost_iff.2 hl⟩⟩
  · cases result with
    | ok u => exact ⟨nofun, ⟨nofun, fun hl => nomatch h.lost_iff.2 hl⟩⟩
    | error e =>
      have hlost : e = .cancelled ↔ lost :=
        ⟨fun he => h.lost_iff.1 (congrArg (Stage.finished ∘ Except.error) he),
          fun hl => Except.error.inj (Stage.finished.inj (h.lost_iff.2 hl))⟩
      rw [tried]
      split
      · next htransient =>
        have hnot : ¬ lost := fun hl => by
          rw [hlost.2 hl] at htransient
          cases htransient
        dsimp only
        split
        · have hfinish := obeys_finish given q
            (.startupTimeout q.options.startupTimeout e)
          exact ⟨hfinish.aware, hfinish.lost_iff.trans (iff_of_false (fun h => by cases h) hnot)⟩
        · refine ⟨fun s hs => ?_, iff_of_false (fun h => by cases h) hnot⟩
          -- Nothing fails in passing for a caller who has given up.
          have hgiven : given = false := by
            cases given with
            | false => rfl
            | true => exact absurd (htransient.symm.trans (h.lasting rfl e rfl)) (by decide)
          rw [← Stage.running.inj hs]
          exact hgiven
      · have hfinish := obeys_finish given q e
        exact ⟨hfinish.aware, hfinish.lost_iff.trans hlost⟩

theorem fst_tried (x : Reload.Step) (deadline : Instant) (tries : Nat) :
    (tried x.1 deadline tries x.2).1 = x.1 := by
  obtain ⟨q, r | (e | ⟨⟩)⟩ := x
  · rfl
  · rw [tried]
    split
    · dsimp only
      split <;> rfl
    · rfl
  · rfl

/-- **A first load ends as given up if and only if something gives it up**, and in the same
move. -/
theorem obeys_move (me : TaskId) {m : Stepping.Move Startup} (aware : m.phase.Aware given')
    (heard : m.given = (given' || m.input.isCancelled)) :
    Obeys m.given (GivesUp me m) ((stepping me).comesTo m) := by
  obtain ⟨p, ⟨deadline, tries, r | wake⟩, given, i⟩ := m
  · have hreload := Reload.obeys_move me (m := ⟨p, r, given, i⟩) aware heard
    have htried := obeys_tried hreload deadline tries
    refine ⟨htried.aware, htried.lost_iff.trans ?_⟩
    have hcalls : (tried (r.handle me false p i).1 deadline tries (r.handle me false p i).2).1.calls =
        (r.handle me false p i).1.calls := congrArg Provider.calls (fst_tried _ _ _)
    refine Iff.trans ?_ (or_iff_left fun h => nomatch h.2.choose_spec).symm
    show _ ∨ given = true ∧ _ ↔ _ ∨ given = true ∧ p.calls <
      (tried (r.handle me false p i).1 deadline tries (r.handle me false p i).2).1.calls
    rw [hcalls]
    rfl
  · obtain rfl : given' = false := aware
    have hnot (hi : i ≠ .cancelled) :
        ¬ GivesUp me ⟨p, ⟨deadline, tries, .inr wake⟩, false, i⟩ := by
      rintro ((hgives | ⟨hgiven, -⟩) | ⟨hi', -⟩)
      · refine i.not_givesUp (fun o ho => ?_) hgives
        cases (List.mem_singleton.1 ho : Wait.reply o = .sleep wake)
      · cases hgiven
      · exact hi hi'
    have hstay (hi : i ≠ .cancelled) : Obeys false
        (GivesUp me ⟨p, ⟨deadline, tries, .inr wake⟩, false, i⟩)
        (p, .running ⟨deadline, tries, .inr wake⟩) :=
      ⟨fun s hs => Stage.running.inj hs ▸ rfl, iff_of_false (fun h => by cases h) (hnot hi)⟩
    cases i with
    | cancelled =>
      have hfinish := obeys_finish given p .cancelled
      exact ⟨hfinish.aware, hfinish.lost_iff.trans ⟨fun _ => .inr ⟨rfl, wake, rfl⟩, fun _ => rfl⟩⟩
    | woke =>
      obtain rfl : given = false := heard
      show Obeys false _ (handle me false p ⟨deadline, tries, .inr wake⟩ .woke)
      by_cases hwake : wake ≤ p.now
      · have htried := obeys_tried (Reload.obeys_begin me false p) deadline (tries + 1)
        simp only [handle, if_pos hwake]
        have hquiet : ¬ (false = true ∧ p.calls < (Reload.begin me false p).1.calls) :=
          fun h => Bool.false_ne_true h.1
        exact ⟨htried.aware, htried.lost_iff.trans (iff_of_false hquiet (hnot fun h => by cases h))⟩
      · simp only [handle, if_neg hwake]
        exact hstay fun h => by cases h
    | answered ticket reply =>
      obtain rfl : given = false := heard
      exact hstay fun h => by cases h
    | fallback serial =>
      obtain rfl : given = false := heard
      exact hstay fun h => by cases h
    | resumed =>
      obtain rfl : given = false := heard
      exact hstay fun h => by cases h

/-! ## Whole loads -/

/-- A step that does not end the load without an error commits nothing. -/
theorem uncommitted_tried {x : Reload.Step} (h : Reload.Outcome me p x) (deadline : Instant)
    (tries : Nat)
    (hends : (tried x.1 deadline tries x.2).2 ≠ .finished (.ok ())) :
    p.Uncommitted (tried x.1 deadline tries x.2).1 := by
  rw [fst_tried]
  cases h with
  | running q r unmoved => exact unmoved.uncommitted
  | failed q e unmoved => exact unmoved.uncommitted
  | committed q watched entries unmoved => exact absurd rfl hends

theorem uncommitted_begin (me : TaskId) (given : Bool) (p : Provider)
    (hends : (begin me given p).2 ≠ .finished (.ok ())) : p.Uncommitted (begin me given p).1 :=
  uncommitted_tried (Reload.outcome_begin me given p) _ 1 hends

theorem uncommitted_move (m : Stepping.Move Startup)
    (hends : ((stepping me).comesTo m).2 ≠ .finished (.ok ())) :
    m.found.Uncommitted ((stepping me).comesTo m).1 := by
  obtain ⟨p, ⟨deadline, tries, r | wake⟩, given, i⟩ := m
  · exact uncommitted_tried (Reload.outcome_handle me given p r i) deadline tries hends
  · have hstay : p.Uncommitted p := (Provider.Unmoved.refl p).uncommitted
    cases i with
    | cancelled => exact hstay
    | woke =>
      show p.Uncommitted (handle me given p ⟨deadline, tries, .inr wake⟩ .woke).1
      have hends : (handle me given p ⟨deadline, tries, .inr wake⟩ .woke).2 ≠ .finished (.ok ()) :=
        hends
      by_cases hwake : wake ≤ p.now
      · simp only [handle, if_pos hwake] at hends ⊢
        exact uncommitted_tried (Reload.outcome_begin me given p) deadline (tries + 1) hends
      · simp only [handle, if_neg hwake]
        exact hstay
    | answered ticket reply => exact hstay
    | fallback serial => exact hstay
    | resumed => exact hstay

variable {moves : List (Stepping.Move Startup)} {y : Step}

/-- What a load has come to. -/
theorem obeys_of_path (path : (stepping me).Path (begin me given base) moves y)
    (heard : Heard given moves) :
    Obeys (givenUp given moves)
        ((begin me given base).2 = .finished (.error .cancelled) ∨ ∃ m ∈ moves, GivesUp me m) y ∧
      ∀ m ∈ moves, GivesUp me m → ((stepping me).comesTo m).2 = .finished (.error .cancelled) := by
  induction path with
  | start =>
    have hbegin := obeys_tried (Reload.obeys_begin me given base)
      (base.now + base.options.startupTimeout) 1
    refine ⟨⟨fun s hs => ?_, ⟨.inl, fun h => h.elim id ?_⟩⟩, List.forall_mem_nil _⟩
    · rw [givenUp, List.any_nil, Bool.or_false]
      exact hbegin.aware s hs
    · rintro ⟨m, hm, -⟩
      exact absurd hm List.not_mem_nil
  | @step moves p m before ih =>
    obtain ⟨hbefore, hearlier⟩ := ih heard.of_append
    have hmove := obeys_move me (hbefore.aware m.phase rfl) heard.last
    -- Nothing before has given the load up, since it goes on.
    have hnone : ¬ ((begin me given base).2 = .finished (.error .cancelled) ∨
        ∃ m ∈ moves, GivesUp me m) := fun h => nomatch hbefore.lost_iff.2 h
    have hlast (m' : Stepping.Move Startup) (hm' : m' ∈ moves ++ [m]) (hgives : GivesUp me m') : m' = m := by
      rcases List.mem_append.1 hm' with hm' | hm'
      · exact absurd (.inr ⟨m', hm', hgives⟩) hnone
      · exact List.mem_singleton.1 hm'
    refine ⟨⟨?_, hmove.lost_iff.trans ⟨fun h => ?_, fun h => ?_⟩⟩, fun m' hm' hgives => ?_⟩
    · rw [givenUp_append, ← heard.last]
      exact hmove.aware
    · exact .inr ⟨m, List.mem_append_right _ (List.mem_singleton_self m), h⟩
    · rcases h with h | ⟨m', hm', hgives⟩
      · exact absurd (.inl h) hnone
      · exact hlast m' hm' hgives ▸ hgives
    · obtain rfl := hlast m' hm' hgives
      exact hmove.lost_iff.2 hgives

/-- A load whose caller has given up before it started waits for the lock at most. -/
def Idles (me : TaskId) (y : Step) : Prop :=
  y.2 = .finished (.error .cancelled) ∨
    ∃ s, y.2 = .running s ∧ s.phase = .inl .waiting ∧
      ∀ q, q.lock.isHeldBy me = true →
        (s.handle me true q .resumed).2 = .finished (.error .cancelled)

theorem snd_enter_given (p : Provider) (hheld : p.lock.isHeldBy me = true) (deadline : Instant)
    (tries : Nat) : (tried (Reload.enter me true p).1 deadline tries (Reload.enter me true p).2).2 =
      .finished (.error .cancelled) := by
  rw [Reload.enter, if_pos hheld]
  exact (snd_finish_cancelled_iff _ _).2 rfl

theorem idles_waiting (p : Provider) (deadline : Instant) (tries : Nat) :
    Idles me (p, .running ⟨deadline, tries, .inl .waiting⟩) :=
  .inr ⟨_, rfl, rfl, fun q hheld => snd_enter_given q hheld deadline tries⟩

theorem idles_enter (p : Provider) (deadline : Instant) (tries : Nat) :
    Idles me (tried (Reload.enter me true p).1 deadline tries (Reload.enter me true p).2) := by
  by_cases hheld : p.lock.isHeldBy me = true
  · exact .inl (snd_enter_given p hheld deadline tries)
  · rw [Reload.enter, if_neg hheld]
    exact idles_waiting p deadline tries

theorem idles_of_path (path : (stepping me).Path (begin me true base) moves y)
    (heard : Heard true moves) : Idles me y := by
  induction path with
  | start => exact idles_enter (base.acquire me) _ 1
  | @step moves p m before ih =>
    rcases ih heard.of_append with hended | ⟨s, hs, hwaits, -⟩
    · cases hended
    · have hgiven : m.given = true := heard.last
      obtain ⟨q, ⟨deadline, tries, phase⟩, given, i⟩ := m
      cases hs
      cases hwaits
      cases hgiven
      cases i with
      | resumed => exact idles_enter q deadline tries
      | answered ticket reply => exact idles_waiting q deadline tries
      | fallback serial => exact idles_waiting q deadline tries
      | cancelled => exact idles_waiting q deadline tries
      | woke => exact idles_waiting q deadline tries

/-- **A first load that is given up ends as given up, and leaves what it found.**  It does so in the
move that gives it up, or, if it was given up before it started, as soon as it has the lock. -/
theorem surfaces_load (path : (stepping me).Path (begin me given base) moves y)
    (heard : Heard given moves) :
    (stepping me).Surfaces (GivesUp me) given base (begin me given base) moves y ∧
      (∀ m ∈ moves, GivesUp me m → ((stepping me).comesTo m).2 = .finished (.error .cancelled)) ∧
      (given = true → Idles me y) := by
  have hnothing (hy : y.2 = .finished (.error .cancelled)) :
      base.Uncommitted (begin me given base).1 ∧
        ∀ m ∈ moves, m.found.Uncommitted ((stepping me).comesTo m).1 := by
    obtain ⟨hmoves, hstart⟩ := path.goesOn
    refine ⟨uncommitted_begin me given base fun h => ?_, fun m hm => uncommitted_move m fun h => ?_⟩
    · rcases hstart with rfl | ⟨s, hs⟩
      · cases h.symm.trans hy
      · cases h.symm.trans hs
    · rcases hmoves m hm with ⟨s, hs⟩ | rfl
      · cases h.symm.trans hs
      · cases h.symm.trans hy
  obtain ⟨hobeys, hprompt⟩ := obeys_of_path path heard
  refine ⟨⟨fun result hy => ?_, hnothing⟩, hprompt, fun hgiven => ?_⟩
  · have hresult : result = .error .cancelled ↔ y.2 = .finished (.error .cancelled) := by
      rw [hy, Stage.finished.injEq]
    rw [hresult]
    cases given with
    | false =>
      have hbegin := (obeys_tried (Reload.obeys_begin me false base)
        (base.now + base.options.startupTimeout) 1).lost_iff
      refine hobeys.lost_iff.trans (or_congr_left (hbegin.trans ?_))
      exact ⟨nofun, nofun⟩
    | true =>
      refine ⟨fun _ => .inl rfl, fun _ => ?_⟩
      rcases idles_of_path path heard with hended | ⟨s, hs, -⟩
      · exact hended
      · cases hy.symm.trans hs
  · subst hgiven
    exact idles_of_path path heard

end Startup
end ReplicatedConfig
