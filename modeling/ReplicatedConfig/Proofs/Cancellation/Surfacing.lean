import ReplicatedConfig.Proofs.Cancellation.Passes
import ReplicatedConfig.Proofs.Refresh.Retries

/-!
# Giving up surfaces

Whatever gives up a first load or a pass, it ends with nothing but `cancelled` and has changed
nothing; and what nothing has given up does not end so (`cancellation_surfaces`).

That a pass has changed nothing is seen backwards.  A pass that merges can no longer be given up,
so one that ends as given up has never merged, and no reload of its has ended well
(`Pass.early_of_path`).
-/

namespace ReplicatedConfig
namespace Pass

variable {me : TaskId} {given : Bool} {base p q : Provider} {checks : List Check}
  {moves : List (Stepping.Move Pass)} {y : Step}

/-! ## Passes that have changed nothing -/

/-- Whether a pass that stands here can still end as given up. -/
def Early : Stage Pass Report → Prop
  | .running (.merging ..) => False
  | .running _ => True
  | .finished result => result = .error .cancelled

theorem not_early_finish (p : Provider) (f : Findings) (failures : List ProviderError)
    (reloaded published : Bool) : ¬ Early (finish p f failures reloaded published).2 := by
  cases failures with
  | nil => exact nofun
  | cons first rest => exact nofun

theorem not_early_merged (p : Provider) (f : Findings) (x : Merge ⊕ (Bool × List ProviderError)) :
    ¬ Early (merged p f x).2 := by
  rcases x with m | ⟨published, failures⟩
  · exact id
  · exact not_early_finish p f failures false published

theorem not_early_mergeChanges (me : TaskId) (p : Provider) (f : Findings)
    (failures : List ProviderError) : ¬ Early (mergeChanges me p f failures).2 := by
  rw [mergeChanges]
  split
  · exact not_early_finish p f failures false false
  · exact not_early_merged _ f _

/-- A first load that may still be given up has not committed. -/
theorem uncommitted_loaded {x : Reload.Step} (h : Reload.Outcome me p x)
    (early : Early (loaded x.1 x.2).2) : p.Uncommitted (loaded x.1 x.2).1 := by
  cases h with
  | running q r unmoved => exact unmoved.uncommitted
  | failed q e unmoved =>
    exact ⟨unmoved.known, unmoved.materialized, unmoved.loaded, unmoved.publisher⟩
  | committed q watched entries unmoved => cases early

/-- Neither has a reload, and nothing is merged behind it. -/
theorem uncommitted_reloaded {x : Reload.Step} (h : Reload.Outcome me p x) (f : Findings)
    (early : Early (reloaded me x.1 f x.2).2) : p.Uncommitted (reloaded me x.1 f x.2).1 := by
  cases h with
  | running q r unmoved => exact unmoved.uncommitted
  | failed q e unmoved =>
    cases e with
    | cancelled => exact unmoved.uncommitted
    | failover e => exact absurd early (not_early_mergeChanges me q f _)
    | adapter e => exact absurd early (not_early_mergeChanges me q f _)
    | refreshFailed failed checked first => exact absurd early (not_early_mergeChanges me q f _)
    | startupTimeout timeout last => exact absurd early (not_early_mergeChanges me q f _)
  | committed q watched entries unmoved => exact absurd early (not_early_finish _ f _ _ _)

theorem uncommitted_checked (q : Provider) (early : Early (checked me given q checks).2) :
    q.Uncommitted (checked me given q checks).1 := by
  have hstay := (Provider.Unmoved.refl q).uncommitted
  unfold checked at early ⊢
  split
  · exact hstay
  · next results hresults =>
    simp only [hresults] at early
    split
    · exact hstay
    · next f hf =>
      simp only [hf] at early
      split
      · next hasked =>
        rw [if_pos hasked] at early
        exact uncommitted_reloaded (Reload.outcome_begin me given q) f early
      · next hasked =>
        rw [if_neg hasked] at early
        exact absurd early (not_early_mergeChanges me q f _)

/-- A move to where a pass can still be given up comes from there, and commits nothing. -/
theorem early_move (m : Stepping.Move Pass) (early : Early ((stepping me).comesTo m).2) :
    Early (.running m.phase) ∧ m.found.Uncommitted ((stepping me).comesTo m).1 := by
  obtain ⟨p, s, given, i⟩ := m
  cases s with
  | loading r => exact ⟨trivial, uncommitted_loaded (Reload.outcome_handle me given p r i) early⟩
  | checking checks =>
    refine ⟨trivial, ?_⟩
    change Early ((Pass.checking checks).handle me given p i).2 at early
    show p.Uncommitted ((Pass.checking checks).handle me given p i).1
    rw [handle_checking] at early ⊢
    have hsteps := unmoved_stepChecks given p checks i
    exact hsteps.uncommitted.trans (uncommitted_checked _ early)
  | reloading f r =>
    exact ⟨trivial, uncommitted_reloaded (Reload.outcome_handle me given p r i) f early⟩
  | merging f m => exact absurd early (not_early_merged _ f _)

theorem early_begin (early : Early (begin me given base).2) :
    base.Uncommitted (begin me given base).1 := by
  have hstay := (Provider.Unmoved.refl base).uncommitted
  unfold begin at early ⊢
  split
  · exact hstay
  · next hwilling =>
    rw [if_neg hwilling] at early
    split
    · split <;> exact hstay
    · next hloaded =>
      rw [if_neg hloaded] at early
      exact uncommitted_loaded (Reload.outcome_begin me given base) early

/-- **What can still be given up has changed nothing.** -/
theorem early_of_path (path : (stepping me).Path (begin me given base) moves y)
    (early : Early y.2) :
    base.Uncommitted (begin me given base).1 ∧
      ∀ m ∈ moves, m.found.Uncommitted ((stepping me).comesTo m).1 := by
  induction path with
  | start => exact ⟨early_begin early, List.forall_mem_nil _⟩
  | @step moves p m before ih =>
    obtain ⟨hearly, hlast⟩ := early_move m early
    obtain ⟨hbegin, hmoves⟩ := ih hearly
    exact ⟨hbegin, List.forall_mem_append.2 ⟨hmoves, List.forall_mem_singleton.2 hlast⟩⟩

/-! ## Passes that are given up -/

theorem obeys_begin (me : TaskId) (given : Bool) (base : Provider) :
    Obeys given (given = true) (begin me given base) := by
  cases given with
  | true => exact ⟨nofun, fun _ => rfl, fun _ => rfl⟩
  | false =>
    by_cases loaded : base.loaded = true
    · rcases begin_of_loaded me false loaded with hx | ⟨-, hx⟩ | ⟨-, hx⟩
      · rw [begin, if_neg Bool.false_ne_true, if_pos loaded] at hx
        split at hx <;> cases hx
      · rw [hx]
        exact ⟨nofun, nofun, nofun⟩
      · rw [hx]
        refine ⟨fun s hs => ?_, fun hlost => ?_, nofun⟩
        · rw [← Stage.running.inj hs]
          intro c hc
          obtain ⟨place, -, rfl⟩ := List.mem_map.1 hc
          trivial
        · obtain ⟨place, -, hready⟩ := List.mem_map.1 hlost
          cases hready
    · rw [begin, if_neg Bool.false_ne_true, if_neg loaded]
      have hloaded := obeys_loaded (Reload.obeys_begin me false base)
      exact ⟨hloaded.aware, hloaded.lost_iff.trans ⟨And.left, nofun⟩⟩

/-- What a pass has come to. -/
theorem obeys_of_path (path : (stepping me).Path (begin me given base) moves y)
    (heard : Heard given moves) :
    Obeys (givenUp given moves) (given = true ∨ ∃ m ∈ moves, (stepping me).GivesUp m) y := by
  induction path with
  | start =>
    have hbegin := obeys_begin me given base
    rw [givenUp, List.any_nil, Bool.or_false]
    refine ⟨hbegin.aware, hbegin.lost_iff.trans ⟨.inl, fun h => h.elim id ?_⟩⟩
    rintro ⟨m, hm, -⟩
    exact absurd hm List.not_mem_nil
  | @step moves p m before ih =>
    have hbefore := ih heard.of_append
    have hmove := obeys_move me (hbefore.aware m.phase rfl) heard.last
    have hlost : IsLost (.running m.phase) ↔ given = true ∨ ∃ m ∈ moves, (stepping me).GivesUp m :=
      hbefore.lost_iff
    rw [givenUp_append, ← heard.last]
    refine ⟨hmove.aware, hmove.lost_iff.trans ?_⟩
    rw [hlost, or_assoc]
    refine or_congr_right ?_
    simp only [List.mem_append, List.mem_singleton, or_and_right, exists_or, exists_eq_left]

/-! ## How a lost pass ends -/

theorem exists_unended (h : checks.mapM Check.result? = none) : ∃ c ∈ checks, c.result? = none := by
  induction checks with
  | nil => cases h
  | cons c rest ih =>
    cases hc : c.result? with
    | none => exact ⟨c, List.mem_cons_self, hc⟩
    | some r =>
      have hrest : rest.mapM Check.result? = none := by
        cases hmap : rest.mapM Check.result? with
        | none => rfl
        | some rs =>
          rw [List.mapM_cons, hc, hmap] at h
          cases h
      obtain ⟨c', hc', hnone⟩ := ih hrest
      exact ⟨c', List.mem_cons_of_mem c hc', hnone⟩

/-- Once one of the checks was given up there is nothing to do but to end the others. -/
theorem checked_of_lost (me : TaskId) (given : Bool) (hlost : Lost checks) (q : Provider) :
    checked me given q checks = (q, .running (.checking checks)) ∨
      checked me given q checks = (q, .finished (.error .cancelled)) := by
  unfold checked
  cases hresults : checks.mapM Check.result? with
  | none => exact .inl rfl
  | some results =>
    obtain rfl := eq_map_finished hresults
    dsimp only
    rw [(lost_map_finished results).1 hlost]
    exact .inr rfl

theorem ready_mem_waits {c : Check} (hc : c ∈ checks) (hready : c.isReady = true) :
    Wait.ready ∈ (Pass.checking checks).waits me p := by
  refine List.mem_flatMap.2 ⟨c, hc, ?_⟩
  cases c with
  | ready place => exact List.mem_singleton_self _
  | checking place known call => cases hready
  | fetching place known call => cases hready
  | finished result => cases hready

/-- What is left of a pass that was given up: nothing, or checks that have not ended.  If its caller
has given up, one of these can start; and when the next one does, the pass ends or has fewer left. -/
def WindsUp (me : TaskId) (given : Bool) (y : Step) : Prop :=
  y.2 = .finished (.error .cancelled) ∨
    ∃ checks, y.2 = .running (.checking checks) ∧ (∃ c ∈ checks, c.result? = none) ∧
      (given = true → Wait.ready ∈ (Pass.checking checks).waits me y.1 ∧
        ∀ q, ((Pass.checking checks).handle me true q .resumed).2 = .finished (.error .cancelled) ∨
          ∃ rest, ((Pass.checking checks).handle me true q .resumed).2 = .running (.checking rest) ∧
            rest.countP Check.isReady < checks.countP Check.isReady)

theorem isReady_of_aware {c : Check} (aware : c.Aware true) (hnone : c.result? = none) :
    c.isReady = true := by
  cases c with
  | ready place => rfl
  | checking place known call => cases aware.1
  | fetching place known call => cases aware.1
  | finished result => cases hnone

theorem loaded_ne_checking (x : Reload.Step) (rest : List Check) :
    (loaded x.1 x.2).2 ≠ .running (.checking rest) := by
  obtain ⟨q, r | (e | ⟨⟩)⟩ := x <;> exact nofun

/-- Nothing that comes behind the checks goes back to them. -/
theorem reloaded_ne_checking (x : Reload.Step) (f : Findings) (rest : List Check) :
    (reloaded me x.1 f x.2).2 ≠ .running (.checking rest) := by
  have hmerges (failures : List ProviderError) :
      (mergeChanges me x.1 f failures).2 ≠ .running (.checking rest) := fun h => by
    have hlate := not_early_mergeChanges me x.1 f failures
    rw [h] at hlate
    exact hlate trivial
  obtain ⟨q, r | (e | ⟨⟩)⟩ := x
  · exact nofun
  · cases e with
    | cancelled => exact nofun
    | failover e => exact hmerges _
    | adapter e => exact hmerges _
    | refreshFailed failed checked first => exact hmerges _
    | startupTimeout timeout last => exact hmerges _
  · intro h
    have hlate := not_early_finish q f f.failures true true
    rw [show (finish q f f.failures true true).2 = _ from h] at hlate
    exact hlate trivial

/-- A pass goes on to check only while one of its checks has not ended. -/
theorem unended_of_checked {rest : List Check}
    (h : (checked me given q checks).2 = .running (.checking rest)) :
    ∃ c ∈ rest, c.result? = none := by
  unfold checked at h
  split at h
  · next hresults =>
    cases h
    exact exists_unended hresults
  · split at h
    · cases h
    · next f hf =>
      split at h
      · exact absurd h (reloaded_ne_checking _ f rest)
      · have hlate := not_early_mergeChanges me q f f.failures
        rw [h] at hlate
        exact absurd trivial hlate

theorem unended_of_path (path : (stepping me).Path (begin me given base) moves y)
    (hy : y.2 = .running (.checking checks)) : ∃ c ∈ checks, c.result? = none := by
  cases path with
  | start =>
    unfold begin at hy
    split at hy
    · cases hy
    · split at hy
      · split at hy
        · cases hy
        · next hdue =>
          cases hy
          obtain ⟨place, hplace⟩ := List.exists_mem_of_ne_nil _ hdue
          exact ⟨.ready place, List.mem_map_of_mem hplace, rfl⟩
      · exact absurd hy (loaded_ne_checking _ checks)
  | @step moves p m before =>
    obtain ⟨p, s, given, i⟩ := m
    cases s with
    | loading r => exact absurd hy (loaded_ne_checking (r.handle me given p i) checks)
    | checking _ =>
      change ((Pass.checking _).handle me given p i).2 = _ at hy
      rw [handle_checking] at hy
      exact unended_of_checked hy
    | reloading f r => exact absurd hy (reloaded_ne_checking (r.handle me given p i) f checks)
    | merging f m =>
      have hlate := not_early_merged (m.handle me p i).1 f (m.handle me p i).2
      rw [show (merged (m.handle me p i).1 f (m.handle me p i).2).2 = _ from hy] at hlate
      exact absurd trivial hlate

/-- **A lost pass winds up.** -/
theorem windsUp_of_lost (path : (stepping me).Path (begin me given base) moves y)
    {given' : Bool} {lost : Prop} (hobeys : Obeys given' lost y) (hlost : IsLost y.2) :
    WindsUp me given' y := by
  obtain ⟨p, s | result⟩ := y
  · cases s with
    | checking checks =>
      obtain ⟨c, hc, hnone⟩ := unended_of_path path rfl
      refine .inr ⟨checks, rfl, ⟨c, hc, hnone⟩, fun hgiven => ?_⟩
      subst hgiven
      have haware : AllAware true checks := hobeys.aware _ rfl
      have hready := isReady_of_aware (haware c hc) hnone
      refine ⟨ready_mem_waits hc hready, fun q => ?_⟩
      have hless := countP_startCheck q ⟨c, hc, hready⟩
      have hstill : Lost (startCheck true q checks).2 := by
        rcases startCheck_given haware q with ⟨-, hstill⟩ | ⟨-, -, hsame⟩
        · exact hstill
        · exact hsame.2 hlost
      rw [handle_checking, stepChecks]
      rcases checked_of_lost me true hstill (startCheck true q checks).1 with h | h
      · rw [h]
        exact .inr ⟨_, rfl, hless⟩
      · rw [h]
        exact .inl rfl
    | loading r => exact hlost.elim
    | reloading f r => exact hlost.elim
    | merging f m => exact hlost.elim
  · exact .inl (congrArg Stage.finished hlost)

end Pass

/-! ## All operations that load or refresh -/

/-- **Giving up surfaces as nothing else, and changes nothing.**  A first load ends as given up in the
move that gives it up, in either mode and also in a pause.  A pass that is given up before it starts
ends at once, and one of which a request is given up winds up: it ends in the same move if it loads or
reloads, and otherwise with its checks.  Neither ends as given up for any other reason. -/
theorem surfaces_of_path (me : TaskId) (given : Bool) (base : Provider) :
    (∀ moves y, (Startup.stepping me).Path (Startup.begin me given base) moves y →
      Heard given moves →
      (Startup.stepping me).Surfaces (Startup.GivesUp me) given base (Startup.begin me given base)
          moves y ∧
        (∀ m ∈ moves, Startup.GivesUp me m →
          ((Startup.stepping me).comesTo m).2 = .finished (.error .cancelled)) ∧
        (given = true → Startup.Idles me y)) ∧
    ∀ moves y, (Pass.stepping me).Path (Pass.begin me given base) moves y → Heard given moves →
      (Pass.stepping me).Surfaces (Pass.stepping me).GivesUp given base (Pass.begin me given base)
          moves y ∧
        (given = true → y = (base, .finished (.error .cancelled))) ∧
        ((∃ m ∈ moves, (Pass.stepping me).GivesUp m) → Pass.WindsUp me (givenUp given moves) y) := by
  refine ⟨fun moves y => Startup.surfaces_load, fun moves y path heard => ?_⟩
  have hobeys := Pass.obeys_of_path path heard
  refine ⟨⟨fun result hy => ?_, fun hy => ?_⟩, fun hgiven => ?_, fun hgives => ?_⟩
  · have hlost := hobeys.lost_iff
    rw [hy] at hlost
    exact hlost
  · refine Pass.early_of_path path ?_
    rw [hy]
    rfl
  · subst hgiven
    rcases path.goesOn.2 with hstart | ⟨s, hs⟩
    · exact hstart.symm
    · cases hs
  · exact Pass.windsUp_of_lost path hobeys (hobeys.lost_iff.2 (.inr hgives))

/-- A provider that may start without its settings. -/
def optionalListing : Provider :=
  { Startup.listingAll with options := { Startup.listingAll.options with optional := true } }

/-- Its first load when the replica has not replied to the first listing. -/
def optionalPaused : Startup.Step :=
  (Startup.stepping 0).follow [Startup.unheard] (Startup.begin 0 false optionalListing)

/-- Its moves up to then. -/
def optionalMoves : List (Stepping.Move Startup) :=
  (Startup.stepping 0).trail [Startup.unheard] (Startup.begin 0 false optionalListing)

/-- The time at which a load that pauses tries again. -/
def wakeOf? : Startup.Step → Option Instant
  | (_, .running ⟨_, _, .inr wake⟩) => some wake
  | _ => none

theorem exists_of_wakeOf? {x : Startup.Step} (h : (wakeOf? x).isSome = true) :
    ∃ deadline tries wake, x = (x.1, .running ⟨deadline, tries, .inr wake⟩) := by
  unfold wakeOf? at h
  split at h
  · exact ⟨_, _, _, rfl⟩
  · cases h

/-- A pass finds the new color, is given up by the check of the shape, and fails with the check of
the sentinel. -/
def shapeGivenUp : List Input :=
  [.resumed, .resumed, .resumed, .answered ⟨1, 0, 0⟩ (.ok (.verdict .modified)),
    .answered ⟨4, 0, 0⟩ (.ok (.setting (some ⟨"Color", none, some "red", none, ⟨"2"⟩⟩))),
    .answered ⟨2, 0, 0⟩ (.error .cancelled), .answered ⟨3, 0, 0⟩ (.error (.http 403 "denied"))]

/-- Its moves. -/
def shapeMoves : List (Stepping.Move Pass) :=
  (Pass.stepping 1).trail shapeGivenUp (Pass.begin 1 false Pass.sentinelDue)

/-- How it ends. -/
def shapeLost : Pass.Step :=
  (Pass.stepping 1).follow shapeGivenUp (Pass.begin 1 false Pass.sentinelDue)

/-- A load that is given up in its pause does not start without settings, and neither a change nor
a failure is left of a pass of which one check was given up. -/
theorem surfaces_of_path_shape :
    (∃ moves y, (Startup.stepping 0).Path (Startup.begin 0 false optionalListing) moves y ∧
      y.2 = .finished (.error .cancelled)) ∧
    (Pass.stepping 1).Path (Pass.begin 1 false Pass.sentinelDue) shapeMoves shapeLost ∧
      shapeLost.2 = .finished (.error .cancelled) ∧
      (∃ m ∈ shapeMoves, (Pass.stepping 1).GivesUp m) ∧
      ∀ m ∈ shapeMoves, m.found.Uncommitted ((Pass.stepping 1).comesTo m).1 := by
  constructor
  · have hpath : (Startup.stepping 0).Path (Startup.begin 0 false optionalListing) optionalMoves
        optionalPaused := (Startup.stepping 0).path_follow [Startup.unheard] .start
    obtain ⟨deadline, tries, wake, hpaused⟩ : ∃ deadline tries wake,
        optionalPaused = (optionalPaused.1, .running ⟨deadline, tries, .inr wake⟩) :=
      exists_of_wakeOf? (by decide +kernel)
    rw [hpaused] at hpath
    obtain ⟨hheard, hnever⟩ := heard_of_willing optionalMoves (by decide +kernel)
    obtain ⟨m, hphase, hgiven, hinput⟩ : ∃ m : Stepping.Move Startup,
        m.phase = ⟨deadline, tries, .inr wake⟩ ∧ m.given = true ∧ m.input = .cancelled :=
      ⟨⟨optionalPaused.1, _, _, _⟩, rfl, rfl, rfl⟩
    rw [← hphase] at hpath
    have hlast := hpath.step m
    have hheard := hheard.append (m := m) (by rw [hnever, hgiven, hinput]; rfl)
    obtain ⟨-, hends, -⟩ := (surfaces_of_path 0 false optionalListing).1 _ _ hlast hheard
    refine ⟨_, _, hlast, hends m (List.mem_append_right _ List.mem_cons_self) (.inr ⟨hinput, wake, ?_⟩)⟩
    rw [hphase]
  · have hpath : (Pass.stepping 1).Path (Pass.begin 1 false Pass.sentinelDue) shapeMoves shapeLost :=
      (Pass.stepping 1).path_follow shapeGivenUp .start
    have hheard := (heard_of_willing shapeMoves (by decide +kernel)).1
    have hend : shapeLost = (shapeLost.1, .finished (.error .cancelled)) :=
      Pass.eq_of_errorOf? (by decide +kernel)
    have hended := congrArg Prod.snd hend
    obtain ⟨hsurfaces, -⟩ := (surfaces_of_path 1 false Pass.sentinelDue).2 _ _ hpath hheard
    refine ⟨hpath, hended, ?_, (hsurfaces.nothing hended).2⟩
    exact ((hsurfaces.ended _ hended).1 rfl).resolve_left Bool.false_ne_true

end ReplicatedConfig
