import ReplicatedConfig.Proofs.Cancellation.Loads
import ReplicatedConfig.Proofs.Passes.Reports

/-!
# How a pass is given up

The checks of a pass run side by side, and one that is given up does not end the others.  So a pass
that is given up while it checks is *lost* and not over: it goes on with its other checks, and when
the last one has ended it ends as given up, whatever the others have found or failed with
(`Pass.IsLost`).  While it loads or reloads it ends at once, and while it merges it makes no
requests that could be given up.

Lost passes are not stuck.  Once their caller has given up, the checks under way have ended with
that, and what is left are checks that have not started; each of them ends as soon as it does
(`Pass.winds_of_lost`).
-/

namespace ReplicatedConfig

variable {me : TaskId} {given given' : Bool} {base p q : Provider} {lost : Prop}

/-! ## Checks -/

namespace Check

/-- A request is under way only if the caller has not given up. -/
def Aware (given : Bool) : Check → Prop
  | .checking _ _ call => given = false ∧ call.Open .check
  | .fetching _ _ call => given = false ∧ call.Open .fetch
  | .ready _ | .finished _ => True

/-- What a step comes to is aware of whether the caller has given up; the check has ended as given
up if and only if `lost` holds. -/
structure Obeys (given : Bool) (lost : Prop) (x : Provider × Check) : Prop where
  aware : x.2.Aware given
  lost_iff : x.2 = .finished (.error .cancelled) ↔ lost

variable {place : Nat}

theorem obeys_finish (given : Bool) (p : Provider) (place : Nat) (e : FailoverError) :
    Obeys given (e = .cancelled) (finish p place (.error (.ofFailover e))) := by
  refine ⟨trivial, ?_⟩
  rw [← ProviderError.ofFailover_eq_cancelled_iff, finish, Check.finished.injEq, Except.error.injEq]

theorem obeys_found (given : Bool) (p : Provider) (place : Nat) (finding : Finding) :
    Obeys given False (finish p place (.ok finding)) :=
  ⟨trivial, nofun, False.elim⟩

theorem obeys_fetched (p : Provider) (place : Nat) (known : Option Token)
    {progress : Progress Identity (Option Setting)} (hopen : progress.Open .fetch) :
    Obeys false (progress = .returned (.error .cancelled)) (fetched p place known progress) := by
  cases progress with
  | waiting call => exact ⟨⟨rfl, hopen⟩, nofun, nofun⟩
  | returned result =>
    rw [Progress.returned.injEq, ← Failover.settingOf_eq_cancelled_iff, fetched]
    cases Failover.settingOf result with
    | error e =>
      have hfinish := obeys_finish false p place e
      exact ⟨hfinish.aware, hfinish.lost_iff.trans (by rw [Except.error.injEq])⟩
    | ok s =>
      have hfound := obeys_found false p place (findingOf place known s)
      exact ⟨hfound.aware, hfound.lost_iff.trans ⟨False.elim, fun h => by cases h⟩⟩

theorem obeys_judged (p : Provider) (place : Nat) (w : Watch) (known : Option Token) (v : Verdict) :
    Obeys false False (judged false p place w known v) := by
  cases v with
  | unchanged => exact obeys_found false p place _
  | missing => exact obeys_found false p place _
  | modified =>
    rw [judged]
    split
    · exact obeys_found false p place _
    · have hfetched := obeys_fetched (p.openCall .fetch w.identity false).1 place known
        (p.open_openCall Conversation.asks_fetch w.identity false fun _ => ⟨_, rfl⟩)
      refine ⟨hfetched.aware, hfetched.lost_iff.trans ⟨fun h => ?_, False.elim⟩⟩
      exact absurd ((p.openCall_cancelled_iff _ _ _).1 h) Bool.false_ne_true

theorem obeys_checked (p : Provider) (place : Nat) (known : Option Token)
    {progress : Progress (Identity × Option Token) Verdict} (hopen : progress.Open .check) :
    Obeys false (progress = .returned (.error .cancelled)) (checked false p place known progress) := by
  cases progress with
  | waiting call => exact ⟨⟨rfl, hopen⟩, nofun, nofun⟩
  | returned result =>
    rw [Progress.returned.injEq, ← Failover.verdictOf_eq_cancelled_iff, checked]
    cases Failover.verdictOf result with
    | error e =>
      have hfinish := obeys_finish false p place e
      exact ⟨hfinish.aware, hfinish.lost_iff.trans (by rw [Except.error.injEq])⟩
    | ok v =>
      cases p.watchList.get? place with
      | none =>
        have hfound := obeys_found false p place .unchanged
        exact ⟨hfound.aware, hfound.lost_iff.trans ⟨False.elim, fun h => by cases h⟩⟩
      | some w =>
        have hjudged := obeys_judged p place w known v
        exact ⟨hjudged.aware, hjudged.lost_iff.trans ⟨False.elim, fun h => by cases h⟩⟩

theorem obeys_start (p : Provider) (place : Nat) : Obeys false False (start false p place) := by
  rw [start]
  split
  · next l w _ _ =>
    generalize { p with watchList := l } = r
    have hchecked := obeys_checked
      (r.openCall .check (w.identity, w.token) false).1 place w.token
      (r.open_openCall Conversation.asks_check (w.identity, w.token) false
        fun _ => ⟨_, rfl⟩)
    refine ⟨hchecked.aware, hchecked.lost_iff.trans ⟨fun h => ?_, False.elim⟩⟩
    exact absurd ((r.openCall_cancelled_iff _ _ _).1 h) Bool.false_ne_true
  · exact ⟨trivial, iff_of_false (fun h => by cases h) id⟩

/-- A check that may run for a caller who has given up waits for no reply. -/
theorem reply_notMem_waits {c : Check} (aware : c.Aware true) (o : Outstanding) :
    Wait.reply o ∉ c.waits := by
  cases c with
  | ready place => exact fun h => nomatch List.mem_singleton.1 h
  | checking place known call => cases aware.1
  | fetching place known call => cases aware.1
  | finished result => exact List.not_mem_nil

theorem not_givesUp_of_aware {c : Check} (aware : c.Aware true) (i : Input) : ¬ i.GivesUp c.waits :=
  i.not_givesUp (reply_notMem_waits aware)

/-- A step for a caller who has not given up. -/
theorem obeys_handle {c : Check} (aware : c.Aware false) (p : Provider) (i : Input) :
    Obeys false (c = .finished (.error .cancelled) ∨ i.GivesUp c.waits) (c.handle false p i) := by
  cases c with
  | ready place =>
    have hnot := not_givesUp_of_aware (c := .ready place) trivial i
    have hnone : ¬ (Check.ready place = .finished (.error .cancelled) ∨
        i.GivesUp (Check.ready place).waits) := fun h => h.elim nofun hnot
    have hstay : Obeys false (Check.ready place = .finished (.error .cancelled) ∨
        i.GivesUp (Check.ready place).waits) (p, .ready place) :=
      ⟨trivial, nofun, fun h => absurd h hnone⟩
    cases i with
    | resumed =>
      have hstart := obeys_start p place
      exact ⟨hstart.aware, hstart.lost_iff.trans ⟨False.elim, hnone⟩⟩
    | answered ticket reply => exact hstay
    | fallback serial => exact hstay
    | cancelled => exact hstay
    | woke => exact hstay
  | checking place known call =>
    have hchecked := obeys_checked (p.drive .check call i).1 place known
      (p.open_drive Conversation.asks_check aware.2 i)
    exact ⟨hchecked.aware, hchecked.lost_iff.trans
      ((p.drive_cancelled_iff aware.2 i).trans (or_iff_right nofun).symm)⟩
  | fetching place known call =>
    have hfetched := obeys_fetched (p.drive .fetch call i).1 place known
      (p.open_drive Conversation.asks_fetch aware.2 i)
    exact ⟨hfetched.aware, hfetched.lost_iff.trans
      ((p.drive_cancelled_iff aware.2 i).trans (or_iff_right nofun).symm)⟩
  | finished result =>
    have hnot := not_givesUp_of_aware (c := .finished result) trivial i
    exact ⟨trivial, .inl, fun h => h.resolve_right hnot⟩

/-- The step in which the caller gives up ends every check that waits for a reply. -/
theorem obeys_handle_cancelled {c : Check} (aware : c.Aware false) (p : Provider) :
    Obeys true (c = .finished (.error .cancelled) ∨ Input.cancelled.GivesUp c.waits)
      (c.handle given p .cancelled) := by
  cases c with
  | ready place =>
    have hnot := not_givesUp_of_aware (c := .ready place) trivial .cancelled
    exact ⟨trivial, nofun, fun h => absurd h fun h => h.elim nofun hnot⟩
  | checking place known call => exact ⟨trivial, fun _ => .inr aware.2.exists_reply, fun _ => rfl⟩
  | fetching place known call => exact ⟨trivial, fun _ => .inr aware.2.exists_reply, fun _ => rfl⟩
  | finished result =>
    have hnot := not_givesUp_of_aware (c := .finished result) trivial .cancelled
    exact ⟨trivial, .inl, fun h => h.resolve_right hnot⟩

/-! A caller who has given up. -/

/-- Only the start of a check reaches it. -/
theorem handle_of_aware {c : Check} (aware : c.Aware true) (p : Provider) {i : Input}
    (hi : i ≠ .resumed) : c.handle given p i = (p, c) := by
  cases c with
  | ready place =>
    cases i with
    | resumed => exact absurd rfl hi
    | answered ticket reply => rfl
    | fallback serial => rfl
    | cancelled => rfl
    | woke => rfl
  | checking place known call => cases aware.1
  | fetching place known call => cases aware.1
  | finished result => rfl

/-- A check that starts makes a request, which is given up at once, or it is left to another pass. -/
theorem start_given (p : Provider) (place : Nat) :
    p.calls < (start false p place).1.calls ∧
        (start true p place).2 = .finished (.error .cancelled) ∨
      start false p place = (p, .finished (.ok .skipped)) ∧
        start true p place = (p, .finished (.ok .skipped)) := by
  rw [start, start]
  split
  · next l w hl _ =>
    have hclaimed : p.calls = ({ p with watchList := l } : Provider).calls := rfl
    rw [hclaimed]
    generalize { p with watchList := l } = r
    left
    refine ⟨?_, rfl⟩
    have hopened := r.calls_lt_openCall .check (w.identity, w.token)
    exact Nat.lt_of_lt_of_le hopened (unmoved_checked _ _ _ _).calls
  · exact .inr ⟨rfl, rfl⟩

/-- It ends as soon as it starts. -/
theorem exists_start_given (p : Provider) (place : Nat) :
    ∃ result, (start true p place).2 = .finished result := by
  rcases start_given p place with ⟨-, hlost⟩ | ⟨-, hskipped⟩
  · exact ⟨_, hlost⟩
  · exact ⟨_, congrArg Prod.snd hskipped⟩

end Check

/-! ## Checks side by side -/

/-- An input gives up what several wait for if it does so for one of them. -/
theorem Input.givesUp_flatMap {β : Type} (i : Input) (waits : β → List Wait) (bs : List β) :
    i.GivesUp (bs.flatMap waits) ↔ ∃ b ∈ bs, i.GivesUp (waits b) := by
  cases i with
  | cancelled =>
    simp only [GivesUp, List.mem_flatMap]
    constructor
    · rintro ⟨o, b, hb, ho⟩
      exact ⟨b, hb, o, ho⟩
    · rintro ⟨b, hb, o, ho⟩
      exact ⟨o, b, hb, ho⟩
  | answered ticket reply =>
    cases reply with
    | error e =>
      simp only [GivesUp, List.mem_flatMap]
      constructor
      · rintro ⟨he, o, ⟨b, hb, ho⟩, hticket⟩
        exact ⟨b, hb, he, o, ho, hticket⟩
      · rintro ⟨b, hb, he, o, ho, hticket⟩
        exact ⟨he, o, ⟨b, hb, ho⟩, hticket⟩
    | ok r => exact ⟨False.elim, fun h => h.elim fun _ hb => hb.2⟩
  | fallback serial => exact ⟨False.elim, fun h => h.elim fun _ hb => hb.2⟩
  | resumed => exact ⟨False.elim, fun h => h.elim fun _ hb => hb.2⟩
  | woke => exact ⟨False.elim, fun h => h.elim fun _ hb => hb.2⟩

namespace Pass

/-- One of the checks has ended as given up. -/
def Lost (checks : List Check) : Prop := .finished (.error .cancelled) ∈ checks

theorem lost_cons {c : Check} {rest : List Check} :
    Lost (c :: rest) ↔ c = .finished (.error .cancelled) ∨ Lost rest := by
  rw [Lost, List.mem_cons, eq_comm]
  rfl

/-- No request is under way if the caller has given up. -/
def AllAware (given : Bool) (checks : List Check) : Prop := ∀ c ∈ checks, c.Aware given

/-- If each check obeys, all of them do. -/
theorem obeys_driveChecks {checks : List Check} (flag : Bool) (i : Input) (p : Provider)
    (h : ∀ c ∈ checks, ∀ p, Check.Obeys given
      (c = .finished (.error .cancelled) ∨ i.GivesUp c.waits) (c.handle flag p i)) :
    AllAware given (driveChecks flag i p checks).2 ∧
      (Lost (driveChecks flag i p checks).2 ↔ Lost checks ∨ i.GivesUp (checks.flatMap Check.waits)) := by
  rw [i.givesUp_flatMap]
  induction checks generalizing p with
  | nil =>
    refine ⟨List.forall_mem_nil _, fun h => absurd h List.not_mem_nil, ?_⟩
    rintro (h | ⟨c, hc, -⟩)
    · exact absurd h List.not_mem_nil
    · exact absurd hc List.not_mem_nil
  | cons c rest ih =>
    have hc := h c List.mem_cons_self p
    obtain ⟨haware, hlost⟩ := ih (c.handle flag p i).1 fun c' hc' => h c' (List.mem_cons_of_mem _ hc')
    refine ⟨List.forall_mem_cons.2 ⟨hc.aware, haware⟩, ?_⟩
    show Lost ((c.handle flag p i).2 :: (driveChecks flag i (c.handle flag p i).1 rest).2) ↔ _
    simp only [lost_cons, hc.lost_iff, hlost, List.mem_cons, exists_eq_or_imp]
    exact or_or_or_comm

theorem obeys_startCheck {checks : List Check} (aware : AllAware false checks) (p : Provider) :
    AllAware false (startCheck false p checks).2 ∧
      (Lost (startCheck false p checks).2 ↔ Lost checks) := by
  induction checks with
  | nil => exact ⟨aware, Iff.rfl⟩
  | cons c rest ih =>
    obtain ⟨hc, hrest⟩ := List.forall_mem_cons.1 aware
    rw [startCheck]
    split
    · have hstart := Check.obeys_handle hc p .resumed
      refine ⟨List.forall_mem_cons.2 ⟨hstart.aware, hrest⟩, ?_⟩
      rw [lost_cons, hstart.lost_iff, lost_cons]
      exact or_congr_left (or_iff_left id)
    · obtain ⟨haware, hlost⟩ := ih hrest
      refine ⟨List.forall_mem_cons.2 ⟨hc, haware⟩, ?_⟩
      rw [lost_cons, lost_cons, hlost]

/-- A step of the checks for a caller who has not given up. -/
theorem obeys_stepChecks {checks : List Check} (aware : AllAware false checks) (p : Provider)
    (i : Input) :
    AllAware false (stepChecks false p checks i).2 ∧
      (Lost (stepChecks false p checks i).2 ↔
        Lost checks ∨ i.GivesUp (checks.flatMap Check.waits)) := by
  have hdrive (hi : i ≠ .resumed) := obeys_driveChecks false i p fun c hc p =>
    Check.obeys_handle (aware c hc) p i
  cases i with
  | resumed =>
    obtain ⟨haware, hlost⟩ := obeys_startCheck aware p
    exact ⟨haware, hlost.trans (or_iff_left id).symm⟩
  | answered ticket reply => exact hdrive nofun
  | fallback serial => exact hdrive nofun
  | cancelled => exact hdrive nofun
  | woke => exact hdrive nofun

/-! A caller who has given up. -/

theorem driveChecks_of_aware {checks : List Check} (aware : AllAware true checks) (given : Bool)
    (p : Provider)
    {i : Input} (hi : i ≠ .resumed) : driveChecks given i p checks = (p, checks) := by
  induction checks with
  | nil => rfl
  | cons c rest ih =>
    obtain ⟨hc, hrest⟩ := List.forall_mem_cons.1 aware
    rw [driveChecks, Check.handle_of_aware hc p hi]
    dsimp only
    rw [ih hrest]

/-- The next check starts: its request is given up, or nothing is asked. -/
theorem startCheck_given {checks : List Check} (aware : AllAware true checks) (p : Provider) :
    p.calls < (startCheck false p checks).1.calls ∧ Lost (startCheck true p checks).2 ∨
      startCheck false p checks = startCheck true p checks ∧ (startCheck true p checks).1 = p ∧
        (Lost (startCheck true p checks).2 ↔ Lost checks) := by
  induction checks with
  | nil => exact .inr ⟨rfl, rfl, Iff.rfl⟩
  | cons c rest ih =>
    obtain ⟨hc, hrest⟩ := List.forall_mem_cons.1 aware
    have hskip (hready : c.isReady = false) (flag : Bool) : startCheck flag p (c :: rest) =
        ((startCheck flag p rest).1, c :: (startCheck flag p rest).2) := by
      rw [startCheck, hready]
      rfl
    have hbehind (hready : c.isReady = false) :
        p.calls < (startCheck false p (c :: rest)).1.calls ∧ Lost (startCheck true p (c :: rest)).2 ∨
          startCheck false p (c :: rest) = startCheck true p (c :: rest) ∧
            (startCheck true p (c :: rest)).1 = p ∧
            (Lost (startCheck true p (c :: rest)).2 ↔ Lost (c :: rest)) := by
      rw [hskip hready, hskip hready]
      rcases ih hrest with ⟨hcalls, hlost⟩ | ⟨hsame, hp, hlost⟩
      · exact .inl ⟨hcalls, lost_cons.2 (.inr hlost)⟩
      · exact .inr ⟨by rw [hsame], hp, by rw [lost_cons, lost_cons, hlost]⟩
    cases c with
    | ready place =>
      have hstart (flag : Bool) : startCheck flag p (.ready place :: rest) =
          ((Check.start flag p place).1, (Check.start flag p place).2 :: rest) := rfl
      rw [hstart, hstart]
      rcases Check.start_given p place with ⟨hcalls, hlost⟩ | ⟨hfalse, htrue⟩
      · exact .inl ⟨hcalls, lost_cons.2 (.inl hlost)⟩
      · rw [hfalse, htrue]
        refine .inr ⟨rfl, rfl, ?_⟩
        rw [lost_cons, lost_cons]
        exact or_congr_left (iff_of_false (fun h => by cases h) fun h => by cases h)
    | checking place known call => exact hbehind rfl
    | fetching place known call => exact hbehind rfl
    | finished result => exact hbehind rfl

theorem aware_startCheck {checks : List Check} (aware : AllAware true checks) (p : Provider) :
    AllAware true (startCheck true p checks).2 := by
  induction checks with
  | nil => exact aware
  | cons c rest ih =>
    obtain ⟨hc, hrest⟩ := List.forall_mem_cons.1 aware
    rw [startCheck]
    split
    · next hready =>
      cases c with
      | ready place =>
        obtain ⟨result, hended⟩ := Check.exists_start_given p place
        refine List.forall_mem_cons.2 ⟨?_, hrest⟩
        show Check.Aware true (Check.start true p place).2
        rw [hended]
        trivial
      | checking place known call => cases hready
      | fetching place known call => cases hready
      | finished result => cases hready
    · exact List.forall_mem_cons.2 ⟨hc, ih hrest⟩

/-- One check fewer is left to start. -/
theorem countP_startCheck {checks : List Check} (p : Provider)
    (h : ∃ c ∈ checks, c.isReady = true) :
    (startCheck true p checks).2.countP Check.isReady < checks.countP Check.isReady := by
  induction checks with
  | nil =>
    obtain ⟨c, hc, -⟩ := h
    exact absurd hc List.not_mem_nil
  | cons c rest ih =>
    rw [startCheck]
    split
    · next hready =>
      cases c with
      | ready place =>
        obtain ⟨result, hended⟩ := Check.exists_start_given p place
        show ((Check.start true p place).2 :: rest).countP Check.isReady < _
        rw [hended, List.countP_cons_of_neg Bool.false_ne_true, List.countP_cons_of_pos rfl]
        exact Nat.lt_succ_self _
      | checking place known call => cases hready
      | fetching place known call => cases hready
      | finished result => cases hready
    · next hready =>
      obtain ⟨c', hc', hready'⟩ := h
      rcases List.mem_cons.1 hc' with rfl | hc'
      · exact absurd hready' hready
      · have hless := ih ⟨c', hc', hready'⟩
        rw [List.countP_cons_of_neg hready, List.countP_cons_of_neg hready]
        exact hless

/-! ## Passes -/

/-- A request is under way only if the caller has not given up. -/
def Aware (given : Bool) : Pass → Prop
  | .loading r => r.Aware given
  | .checking checks => AllAware given checks
  | .reloading _ r => r.Aware given
  | .merging .. => True

/-- A pass that has ended as given up, or that will. -/
def IsLost : Stage Pass Report → Prop
  | .running (.checking checks) => Lost checks
  | .running _ => False
  | .finished result => result = .error .cancelled

/-- What a step comes to is aware of whether the caller has given up, and it is lost if and only
if `lost` holds. -/
structure Obeys (given : Bool) (lost : Prop) (x : Step) : Prop where
  aware : ∀ s, x.2 = .running s → s.Aware given
  lost_iff : IsLost x.2 ↔ lost

theorem obeys_finish (given : Bool) (p : Provider) (f : Findings)
    (failures : List ProviderError) (reloaded published : Bool) :
    Obeys given False (finish p f failures reloaded published) := by
  cases failures with
  | nil => exact ⟨nofun, nofun, False.elim⟩
  | cons first rest => exact ⟨nofun, nofun, False.elim⟩

theorem obeys_merged (given : Bool) (p : Provider) (f : Findings)
    (x : Merge ⊕ (Bool × List ProviderError)) :
    Obeys given False (merged p f x) := by
  rcases x with m | ⟨published, failures⟩
  · exact ⟨fun s hs => Stage.running.inj hs ▸ trivial, False.elim, False.elim⟩
  · exact obeys_finish given p f failures false published

theorem obeys_mergeChanges (me : TaskId) (given : Bool) (p : Provider) (f : Findings)
    (failures : List ProviderError) :
    Obeys given False (mergeChanges me p f failures) := by
  rw [mergeChanges]
  split
  · exact obeys_finish given p f failures false false
  · exact obeys_merged given _ f _

/-- A reload has come this far. -/
theorem obeys_reloaded (me : TaskId) {x : Reload.Step} (h : Reload.Obeys given lost x) (f : Findings) :
    Obeys given lost (reloaded me x.1 f x.2) := by
  obtain ⟨q, r | (e | ⟨⟩)⟩ := x
  · refine ⟨fun s hs => ?_, False.elim, fun hl => nomatch h.lost_iff.2 hl⟩
    rw [← Stage.running.inj hs]
    exact h.aware r rfl
  · have hmerges (he : e ≠ .cancelled)
        (hx : reloaded me q f (.finished (.error e)) = mergeChanges me q f (f.failures ++ [e])) :
        Obeys given lost (reloaded me q f (.finished (.error e))) := by
      have hmerge := obeys_mergeChanges me given q f (f.failures ++ [e])
      have hnot : ¬ lost := fun hl => he (Except.error.inj (Stage.finished.inj (h.lost_iff.2 hl)))
      rw [hx]
      exact ⟨hmerge.aware, hmerge.lost_iff.trans ⟨False.elim, hnot⟩⟩
    cases e with
    | cancelled => exact ⟨nofun, fun _ => h.lost_iff.1 rfl, fun _ => rfl⟩
    | failover e => exact hmerges nofun rfl
    | adapter e => exact hmerges nofun rfl
    | refreshFailed failed checked first => exact hmerges nofun rfl
    | startupTimeout timeout last => exact hmerges nofun rfl
  · have hfinish := obeys_finish given q f f.failures true true
    exact ⟨hfinish.aware, hfinish.lost_iff.trans ⟨False.elim, fun hl => nomatch h.lost_iff.2 hl⟩⟩

theorem obeys_loaded {x : Reload.Step} (h : Reload.Obeys given lost x) :
    Obeys given lost (loaded x.1 x.2) := by
  obtain ⟨q, r | (e | ⟨⟩)⟩ := x
  · refine ⟨fun s hs => ?_, False.elim, fun hl => nomatch h.lost_iff.2 hl⟩
    rw [← Stage.running.inj hs]
    exact h.aware r rfl
  · refine ⟨nofun, Iff.trans ?_ h.lost_iff⟩
    show (Except.error e : Except _ Report) = .error .cancelled ↔ _
    rw [Except.error.injEq, Stage.finished.injEq, Except.error.injEq]
  · exact ⟨nofun, nofun, fun hl => nomatch h.lost_iff.2 hl⟩

/-! Merges make no requests. -/

theorem calls_merge_advance (changes : List PointChange) (p : Provider) (merged : Nat)
    (failures : List ProviderError) :
    (Merge.advance me p merged failures changes).1.calls = p.calls := by
  induction changes generalizing p merged with
  | nil =>
    rw [Merge.advance, Merge.finish]
    split <;> rfl
  | cons change rest ih =>
    cases change with
    | upsert place checked s =>
      rw [Merge.advance]
      split
      · rfl
      · exact ih p merged
    | remove place checked =>
      rw [Merge.advance]
      split
      · dsimp only
        split
        · exact ih _ merged
        · next w hw =>
          split
          · exact ih (p.withoutSetting place w.identity) (merged + 1)
          · exact ih _ merged
      · exact ih p merged

theorem calls_merge_enter (p : Provider) (changes : List PointChange)
    (failures : List ProviderError) : (Merge.enter me p changes failures).1.calls = p.calls := by
  rw [Merge.enter]
  split
  · exact calls_merge_advance changes p 0 failures
  · rfl

theorem calls_merge_handle (p : Provider) (m : Merge) (i : Input) :
    (m.handle me p i).1.calls = p.calls := by
  cases m with
  | waiting changes failures =>
    cases i with
    | resumed => exact calls_merge_enter p changes failures
    | answered ticket reply => rfl
    | fallback serial => rfl
    | cancelled => rfl
    | woke => rfl
  | adapting place s rest merged failures =>
    cases i with
    | resumed =>
      show (Merge.adapted me p place s rest merged failures).1.calls = p.calls
      unfold Merge.adapted
      split
      · next pairs hpairs => exact calls_merge_advance rest (p.withEntry place ⟨s, pairs⟩) _ failures
      · exact calls_merge_advance rest p merged _
    | answered ticket reply => rfl
    | fallback serial => rfl
    | cancelled => rfl
    | woke => rfl

theorem calls_finish (p : Provider) (f : Findings) (failures : List ProviderError)
    (reloaded published : Bool) : (finish p f failures reloaded published).1.calls = p.calls := by
  cases failures <;> rfl

theorem calls_merged (p : Provider) (f : Findings) (x : Merge ⊕ (Bool × List ProviderError)) :
    (merged p f x).1.calls = p.calls := by
  rcases x with m | ⟨published, failures⟩
  · rfl
  · exact calls_finish p f failures false published

theorem calls_mergeChanges (p : Provider) (f : Findings) (failures : List ProviderError) :
    (mergeChanges me p f failures).1.calls = p.calls := by
  rw [mergeChanges]
  split
  · exact calls_finish p f failures false false
  · exact (calls_merged _ f _).trans (calls_merge_enter (p.acquire me) f.changes failures)

theorem calls_reloaded (x : Reload.Step) (f : Findings) :
    (reloaded me x.1 f x.2).1.calls = x.1.calls := by
  obtain ⟨q, r | (e | ⟨⟩)⟩ := x
  · rfl
  · cases e with
    | cancelled => rfl
    | failover e => exact calls_mergeChanges q f _
    | adapter e => exact calls_mergeChanges q f _
    | refreshFailed failed checked first => exact calls_mergeChanges q f _
    | startupTimeout timeout last => exact calls_mergeChanges q f _
  · exact calls_finish q f f.failures true true

theorem calls_loaded (x : Reload.Step) : (loaded x.1 x.2).1.calls = x.1.calls := by
  obtain ⟨q, r | (e | ⟨⟩)⟩ := x <;> rfl

end Pass

/-! ## Findings of lost checks -/

theorem Findings.add_eq_none_iff {f : Findings} {r : Except ProviderError Finding} :
    f.add r = Option.none ↔ r = .error .cancelled := by
  cases r with
  | ok finding => cases finding <;> exact ⟨nofun, nofun⟩
  | error e => cases e <;> simp [add]

theorem Findings.foldlM_eq_none_iff {rs : List (Except ProviderError Finding)} {f : Findings} :
    rs.foldlM add f = Option.none ↔ .error .cancelled ∈ rs := by
  induction rs generalizing f with
  | nil => exact ⟨nofun, fun h => absurd h List.not_mem_nil⟩
  | cons r rs ih =>
    rw [List.foldlM_cons, List.mem_cons]
    cases hadd : f.add r with
    | none => exact ⟨fun _ => .inl (add_eq_none_iff.1 hadd).symm, fun _ => rfl⟩
    | some g =>
      have hr : ¬ Except.error ProviderError.cancelled = r := fun h => by
        rw [← h] at hadd
        cases hadd
      exact ih.trans (or_iff_right hr).symm

/-- Nothing comes of checks of which one was given up. -/
theorem Findings.ofResults_eq_none_iff {rs : List (Except ProviderError Finding)} :
    ofResults rs = Option.none ↔ .error .cancelled ∈ rs :=
  foldlM_eq_none_iff

namespace Pass

theorem lost_map_finished (results : List (Except ProviderError Finding)) :
    Lost (results.map .finished) ↔ Findings.ofResults results = none := by
  rw [Findings.ofResults_eq_none_iff, Lost, List.mem_map]
  exact ⟨fun ⟨r, hr, heq⟩ => Check.finished.inj heq ▸ hr, fun h => ⟨_, h, rfl⟩⟩

/-- The checks have come this far. -/
theorem obeys_checked (me : TaskId) {checks : List Check} (aware : AllAware given checks) (q : Provider) :
    Obeys given (Lost checks ∨ given = true ∧ q.calls < (checked me false q checks).1.calls)
      (checked me given q checks) := by
  unfold checked
  cases hresults : checks.mapM Check.result? with
  | none =>
    refine ⟨fun s hs => Stage.running.inj hs ▸ aware, .inl, fun h => h.elim id fun h => ?_⟩
    exact absurd h.2 (Nat.lt_irrefl _)
  | some results =>
    obtain rfl := eq_map_finished hresults
    rw [lost_map_finished]
    dsimp only
    cases hsum : Findings.ofResults results with
    | none => exact ⟨nofun, fun _ => .inl rfl, fun _ => rfl⟩
    | some f =>
      rw [or_iff_right nofun]
      dsimp only
      by_cases hasked : f.reload = true
      · rw [if_pos hasked, if_pos hasked]
        have hreload := obeys_reloaded me (Reload.obeys_begin me given q) f
        refine ⟨hreload.aware, hreload.lost_iff.trans ?_⟩
        rw [calls_reloaded]
      · rw [if_neg hasked, if_neg hasked]
        have hmerge := obeys_mergeChanges me given q f f.failures
        refine ⟨hmerge.aware, hmerge.lost_iff.trans ⟨False.elim, fun h => ?_⟩⟩
        rw [calls_mergeChanges] at h
        exact absurd h.2 (Nat.lt_irrefl _)

theorem calls_le_checked (me : TaskId) (given : Bool) (checks : List Check) (q : Provider) :
    q.calls ≤ (checked me given q checks).1.calls := by
  unfold checked
  split
  · exact Nat.le_refl _
  · split
    · exact Nat.le_refl _
    · split
      · have hbegun := (Reload.outcome_begin me given q).calls_le
        exact Nat.le_trans hbegun (Nat.le_of_eq (calls_reloaded _ _).symm)
      · exact Nat.le_of_eq (calls_mergeChanges q _ _).symm

/-! ## Moves of passes -/

theorem givesUp_loading (r : Reload) (i : Input) :
    (stepping me).GivesUp ⟨p, .loading r, given, i⟩ ↔
      (Reload.stepping me).GivesUp ⟨p, r, given, i⟩ :=
  or_congr_right (and_congr_right fun _ => by
    show _ < (loaded (r.handle me false p i).1 (r.handle me false p i).2).1.calls ↔ _
    rw [calls_loaded]
    rfl)

theorem givesUp_reloading (f : Findings) (r : Reload) (i : Input) :
    (stepping me).GivesUp ⟨p, .reloading f r, given, i⟩ ↔
      (Reload.stepping me).GivesUp ⟨p, r, given, i⟩ :=
  or_congr_right (and_congr_right fun _ => by
    show _ < (reloaded me (r.handle me false p i).1 f (r.handle me false p i).2).1.calls ↔ _
    rw [calls_reloaded]
    rfl)

theorem not_givesUp_merging (f : Findings) (m : Merge) (i : Input) :
    ¬ (stepping me).GivesUp ⟨p, .merging f m, given, i⟩ := by
  rintro (hgives | ⟨-, hcalls⟩)
  · refine i.not_givesUp (fun o ho => ?_) hgives
    cases m with
    | waiting changes failures =>
      have ho : Wait.reply o ∈ if p.lock.isHeldBy me then [Wait.ready] else [] := ho
      split at ho
      · cases List.mem_singleton.1 ho
      · cases ho
    | adapting place s rest merged failures => cases List.mem_singleton.1 ho
  · have hsame : (merged (m.handle me p i).1 f (m.handle me p i).2).1.calls = p.calls :=
      (calls_merged _ f _).trans (calls_merge_handle p m i)
    exact Nat.lt_irrefl _ (Nat.lt_of_lt_of_eq hcalls hsame)

/-- Checks whose caller has given up wait for no reply. -/
theorem reply_notMem_of_aware {checks : List Check} (aware : AllAware true checks)
    (o : Outstanding) : Wait.reply o ∉ checks.flatMap Check.waits := by
  rw [List.mem_flatMap]
  rintro ⟨c, hc, ho⟩
  exact Check.reply_notMem_waits (aware c hc) o ho

/-- Others do, if a request of theirs is under way. -/
theorem givesUp_of_not_aware {checks : List Check} (aware : AllAware false checks)
    (hnot : ¬ AllAware true checks) : Input.cancelled.GivesUp (checks.flatMap Check.waits) := by
  simp only [AllAware, not_forall] at hnot
  obtain ⟨c, hc, hnot⟩ := hnot
  have hopen := aware c hc
  refine (Input.givesUp_flatMap _ _ _).2 ⟨c, hc, ?_⟩
  cases c with
  | ready place => exact absurd trivial hnot
  | checking place known call => exact hopen.2.exists_reply
  | fetching place known call => exact hopen.2.exists_reply
  | finished result => exact absurd trivial hnot

/-- A step of the checks for a caller who has given up before. -/
theorem obeys_checking_given {checks : List Check} (aware : AllAware true checks) (p : Provider)
    (i : Input) :
    Obeys true (Lost checks ∨ (stepping me).GivesUp ⟨p, .checking checks, true, i⟩)
      ((Pass.checking checks).handle me true p i) := by
  have hgives : (stepping me).GivesUp ⟨p, .checking checks, true, i⟩ ↔
      p.calls < ((Pass.checking checks).handle me false p i).1.calls :=
    (stepping me).givesUp_iff p _ i (reply_notMem_of_aware aware)
  rw [hgives]
  have hstay (hi : i ≠ .resumed) (flag : Bool) :
      (Pass.checking checks).handle me flag p i = checked me flag p checks := by
    have hdrive := driveChecks_of_aware aware flag p hi
    cases i with
    | resumed => exact absurd rfl hi
    | answered ticket reply => simp only [handle, hdrive]
    | fallback serial => simp only [handle, hdrive]
    | cancelled => simp only [handle, hdrive]
    | woke => simp only [handle, hdrive]
  by_cases hi : i = .resumed
  · subst hi
    have haware := aware_startCheck aware p
    have hchecked := obeys_checked me haware (startCheck true p checks).1
    refine ⟨hchecked.aware, hchecked.lost_iff.trans ?_⟩
    show _ ↔ _ ∨ p.calls <
      (checked me false (startCheck false p checks).1 (startCheck false p checks).2).1.calls
    rcases startCheck_given aware p with ⟨hcalls, hlost⟩ | ⟨hsame, hp, hlost⟩
    · have hafter := calls_le_checked me false (startCheck false p checks).2
        (startCheck false p checks).1
      exact ⟨fun _ => .inr (Nat.lt_of_lt_of_le hcalls hafter), fun _ => .inl hlost⟩
    · rw [hlost, hsame, hp]
      exact or_congr_right (and_iff_right rfl)
  · rw [hstay hi, hstay hi]
    have hchecked := obeys_checked me aware p
    exact ⟨hchecked.aware, hchecked.lost_iff.trans (or_congr_right (and_iff_right rfl))⟩

/-- **What a move of a pass comes to**: a pass is lost as soon as one of its requests is given up,
and stays so. -/
theorem obeys_move (me : TaskId) {m : Stepping.Move Pass} (aware : m.phase.Aware given')
    (heard : m.given = (given' || m.input.isCancelled)) :
    Obeys m.given (IsLost (.running m.phase) ∨ (stepping me).GivesUp m) ((stepping me).comesTo m) := by
  obtain ⟨p, s, given, i⟩ := m
  cases s with
  | loading r =>
    have hloaded := obeys_loaded (Reload.obeys_move me (m := ⟨p, r, given, i⟩) aware heard)
    refine ⟨hloaded.aware, hloaded.lost_iff.trans ?_⟩
    rw [← givesUp_loading]
    exact (or_iff_right id).symm
  | checking checks =>
    cases given with
    | false =>
      obtain ⟨rfl, -⟩ := Bool.or_eq_false_iff.1 heard.symm
      obtain ⟨haware, hlost⟩ := obeys_stepChecks aware p i
      have hchecked := obeys_checked me haware (stepChecks false p checks i).1
      rw [← handle_checking] at hchecked
      refine ⟨hchecked.aware, hchecked.lost_iff.trans ?_⟩
      rw [hlost]
      show (Lost checks ∨ _) ∨ _ ↔ Lost checks ∨ _ ∨ _
      rw [or_assoc, or_iff_left (b := false = true ∧ _) nofun]
      exact or_congr_right (or_iff_left nofun).symm
    | true =>
      by_cases hnone : AllAware true checks
      · exact obeys_checking_given hnone p i
      · -- The caller gives up with this input, and a request is under way.
        obtain rfl : given' = false := by
          cases given' with
          | false => rfl
          | true => exact absurd aware hnone
        obtain rfl : i = .cancelled := by cases i <;> first | rfl | cases heard
        have hgives := givesUp_of_not_aware aware hnone
        obtain ⟨haware, hlost⟩ := obeys_driveChecks true .cancelled p
          fun c hc p => Check.obeys_handle_cancelled (aware c hc) p
        have hchecked := obeys_checked me haware (driveChecks true .cancelled p checks).1
        refine ⟨hchecked.aware, hchecked.lost_iff.trans ⟨fun _ => .inr (.inl hgives), fun _ => ?_⟩⟩
        exact .inl (hlost.2 (.inr hgives))
  | reloading f r =>
    have hreloaded := obeys_reloaded me
      (Reload.obeys_move me (m := ⟨p, r, given, i⟩) aware heard) f
    refine ⟨hreloaded.aware, hreloaded.lost_iff.trans ?_⟩
    rw [← givesUp_reloading]
    exact (or_iff_right id).symm
  | merging f m =>
    have hmerged := obeys_merged given (m.handle me p i).1 f (m.handle me p i).2
    refine ⟨hmerged.aware, hmerged.lost_iff.trans ⟨False.elim, fun h => h.elim id fun h => ?_⟩⟩
    exact not_givesUp_merging f m i h

end Pass
end ReplicatedConfig
