import ReplicatedConfig.Proofs.Cancellation.Calls

/-!
# How a reload is given up

A reload ends as given up in the step in which one of its requests does, and in no other.  A
request does so while it is waited for, or as soon as it is made, if the caller has given up by
then; `Stepping.GivesUp` says this of a move of any operation.  That a step makes a request is read
off the number of calls in what the same step comes to for a caller who has not given up.

A reload whose caller has given up has no request under way (`Reload.Aware`), so nothing that
happens to it later can be taken for a failure that passes.
-/

namespace ReplicatedConfig

/-! ## Moves that give up -/

/-- Whether a request of the operation ends as given up in a move: one that is under way, or one
that would have been made if the caller had not given up. -/
def Stepping.GivesUp {μ α : Type} (o : Stepping μ α) (m : Stepping.Move μ) : Prop :=
  m.input.GivesUp (o.waits m.found m.phase) ∨
    m.given = true ∧ m.found.calls < (o.handle false m.found m.phase m.input).1.calls

/-- Whether the caller gives up with this input. -/
def Input.isCancelled : Input → Bool
  | .cancelled => true
  | _ => false

variable {me : TaskId} {given given' : Bool} {p q : Provider}

namespace ProviderError

theorem ofFailover_eq_cancelled_iff {e : FailoverError} : ofFailover e = .cancelled ↔ e = .cancelled := by
  cases e <;> simp [ofFailover]

end ProviderError

namespace Failover

theorem settingOf_eq_cancelled_iff {r : Except FailoverError (Option Setting × Member)} :
    settingOf r = .error .cancelled ↔ r = .error .cancelled := by
  rcases r with e | ⟨s, m⟩
  · cases e <;> simp [settingOf]
  · simp [settingOf]

theorem verdictOf_eq_cancelled_iff {r : Except FailoverError (Verdict × Member)} :
    verdictOf r = .error .cancelled ↔ r = .error .cancelled := by
  rcases r with e | ⟨v, m⟩
  · cases e <;> simp [verdictOf]
  · simp [verdictOf]

end Failover

/-! ## Reloads -/

namespace Reload

/-- A request is under way only if the caller has not given up. -/
def Aware (given : Bool) : Reload → Prop
  | .listing call => given = false ∧ call.Open .list
  | .fetching _ _ _ call => given = false ∧ call.Open .fetch
  | .waiting | .adapting .. => True

/-- What a step comes to is aware of whether the caller has given up; it has ended as given up if
and only if `lost` holds.  What fails for a caller who has given up does not fail in passing. -/
structure Obeys (given : Bool) (lost : Prop) (x : Step) : Prop where
  aware : ∀ r, x.2 = .running r → r.Aware given
  lost_iff : x.2 = .finished (.error .cancelled) ↔ lost
  lasting : given = true → ∀ e, x.2 = .finished (.error e) → e.isTransient = false

theorem Obeys.of_running {lost : Prop} {r : Reload} (aware : r.Aware given) (not : ¬ lost) :
    Obeys given lost (p, .running r) :=
  ⟨fun _ h => Stage.running.inj h ▸ aware, ⟨nofun, fun h => absurd h not⟩, nofun⟩

theorem obeys_commit (watched : Nat) (entries : List Entry) :
    Obeys given False (commit me p watched entries) :=
  ⟨nofun, ⟨nofun, False.elim⟩, nofun⟩

theorem obeys_adaptNext (watched : Nat) (raw : List Setting) (previous done : List Entry) :
    Obeys given False (adaptNext me p watched raw previous done) := by
  cases raw with
  | nil => exact obeys_commit watched done
  | cons s rest => exact .of_running trivial id

/-- An adapter that refuses is no reason to try again. -/
theorem obeys_adapted (me : TaskId) (given : Bool) (watched : Nat) (s : Setting)
    (rest : List Setting) (previous done : List Entry) :
    Obeys given False (adapted me p watched s rest previous done) := by
  rw [adapted]
  split
  · exact obeys_adaptNext watched rest _ _
  · split
    · exact obeys_adaptNext watched rest _ _
    · refine ⟨fun _ h => ?_, ⟨fun h => ?_, False.elim⟩, fun _ _ h => ?_⟩
      · cases h
      · cases h
      · cases h
        rfl

/-- A request that has failed, for a caller who has not given up. -/
theorem obeys_fail (me : TaskId) (e : FailoverError) :
    Obeys false (e = .cancelled) (fail me p (.ofFailover e)) := by
  refine ⟨nofun, ?_, nofun⟩
  rw [← ProviderError.ofFailover_eq_cancelled_iff]
  exact ⟨fun h => Except.error.inj (Stage.finished.inj h), fun h => by rw [fail, h]⟩

theorem obeys_fetchNext (me : TaskId) (watched : Nat) (places : List Nat) (p : Provider)
    (raw : List Setting) : Obeys false False (fetchNext me false p watched places raw) := by
  induction places generalizing p raw with
  | nil => exact obeys_adaptNext watched raw _ _
  | cons place places ih =>
    rw [fetchNext]
    split
    · exact ih p raw
    · next w hw =>
      split
      · exact ih p raw
      · have hopen := p.open_openCall Conversation.asks_fetch w.identity false
          fun _ => ⟨_, rfl⟩
        have hgiven := p.openCall_cancelled_iff .fetch w.identity false
        generalize p.openCall .fetch w.identity false = x at hopen hgiven
        obtain ⟨q, progress⟩ := x
        cases progress with
        | waiting call => exact .of_running ⟨rfl, hopen⟩ id
        | returned result =>
          dsimp only
          split
          · next e he =>
            have hnot : ¬ e = .cancelled := by
              rintro rfl
              have hresult := Failover.settingOf_eq_cancelled_iff.1 he
              exact absurd (hgiven.1 (congrArg Progress.returned hresult)) Bool.false_ne_true
            have hfail := obeys_fail me (p := q) e
            exact ⟨hfail.aware, hfail.lost_iff.trans ⟨hnot, False.elim⟩, hfail.lasting⟩
          · exact ih q _

theorem obeys_fetched (me : TaskId) (watched : Nat) (places : List Nat) (raw : List Setting)
    {progress : Progress Identity (Option Setting)} (hopen : progress.Open .fetch) :
    Obeys false (progress = .returned (.error .cancelled))
      (fetched me false p watched places raw progress) := by
  cases progress with
  | waiting call => exact .of_running ⟨rfl, hopen⟩ nofun
  | returned result =>
    have hresult : (Progress.returned result : Progress Identity (Option Setting)) =
        .returned (.error .cancelled) ↔ Failover.settingOf result = .error .cancelled := by
      rw [Failover.settingOf_eq_cancelled_iff, Progress.returned.injEq]
    rw [fetched]
    split
    · next e he =>
      have hfail := obeys_fail me (p := p) e
      refine ⟨hfail.aware, hfail.lost_iff.trans ?_, hfail.lasting⟩
      rw [hresult, he, Except.error.injEq]
    · next s hs =>
      have hnext := obeys_fetchNext me watched places p (raw ++ s.toList)
      refine ⟨hnext.aware, hnext.lost_iff.trans ⟨False.elim, fun h => ?_⟩, hnext.lasting⟩
      have hcancelled := hresult.1 h
      rw [hs] at hcancelled
      cases hcancelled

theorem obeys_listed (me : TaskId) {progress : Progress Listing (List Setting)}
    (hopen : progress.Open .list) :
    Obeys false (progress = .returned (.error .cancelled)) (listed me false p progress) := by
  rcases progress with call | (e | ⟨settings, m⟩)
  · exact .of_running ⟨rfl, hopen⟩ nofun
  · have hfail := obeys_fail me (p := p) e
    refine ⟨hfail.aware, hfail.lost_iff.trans ?_, hfail.lasting⟩
    rw [Progress.returned.injEq, Except.error.injEq]
  · have hnext := obeys_fetchNext me p.watchList.size (List.range p.watchList.size) p
      (gather settings)
    exact ⟨hnext.aware, hnext.lost_iff.trans ⟨False.elim, nofun⟩, hnext.lasting⟩

theorem open_openList (p : Provider) (selectors : List Selector) (cancelled : Bool) :
    (p.openCall .list (Listing.start selectors) cancelled).2.Open .list := by
  refine p.open_openCall Conversation.asks_list _ cancelled fun hnone => ?_
  cases selectors with
  | nil => cases hnone
  | cons selector rest => exact ⟨_, rfl⟩

theorem obeys_enter (me : TaskId) (p : Provider) : Obeys false False (enter me false p) := by
  rw [enter]
  split
  · have hlisted := obeys_listed me
      (p := (p.openCall .list (Listing.start p.options.selectors) false).1)
      (open_openList p p.options.selectors false)
    refine ⟨hlisted.aware, hlisted.lost_iff.trans ⟨fun h => ?_, False.elim⟩, hlisted.lasting⟩
    exact absurd ((p.openCall_cancelled_iff _ _ _).1 h) nofun
  · exact .of_running trivial id

/-! A caller who has given up. -/

/-- The listing is the first request of a reload. -/
theorem obeys_enter_given (me : TaskId) (p : Provider) :
    Obeys true (p.calls < (enter me false p).1.calls) (enter me true p) := by
  unfold enter
  split
  · refine ⟨nofun, ⟨fun _ => ?_, fun _ => rfl⟩, fun _ e he => by cases he; rfl⟩
    have hopened := p.calls_lt_openCall .list (Listing.start p.options.selectors)
    exact Nat.lt_of_lt_of_le hopened (outcome_listed me _ _).calls_le
  · exact .of_running trivial (Nat.lt_irrefl _)

theorem obeys_begin (me : TaskId) (given : Bool) (p : Provider) :
    Obeys given (given = true ∧ p.calls < (begin me false p).1.calls) (begin me given p) := by
  cases given with
  | false =>
    have henter := obeys_enter me (p.acquire me)
    exact ⟨henter.aware, henter.lost_iff.trans ⟨False.elim, nofun⟩, henter.lasting⟩
  | true =>
    have henter := obeys_enter_given me (p.acquire me)
    exact ⟨henter.aware, henter.lost_iff.trans ⟨fun h => ⟨rfl, h⟩, And.right⟩, henter.lasting⟩

theorem calls_adaptNext (watched : Nat) (raw : List Setting) (previous done : List Entry) :
    (adaptNext me p watched raw previous done).1.calls = p.calls := by
  cases raw <;> rfl

/-- Adapters make no requests. -/
theorem calls_adapted (me : TaskId) (watched : Nat) (s : Setting) (rest : List Setting)
    (previous done : List Entry) : (adapted me p watched s rest previous done).1.calls = p.calls := by
  rw [adapted]
  split
  · exact calls_adaptNext watched rest _ _
  · split
    · exact calls_adaptNext watched rest _ _
    · rfl

end Reload

/-- Where no reply is waited for, no request is given up. -/
theorem Input.not_givesUp {waits : List Wait} (h : ∀ o, Wait.reply o ∉ waits) (i : Input) :
    ¬ i.GivesUp waits := by
  cases i with
  | answered ticket reply =>
    cases reply with
    | error e => exact fun ⟨_, o, ho, _⟩ => h o ho
    | ok r => exact id
  | fallback serial => exact id
  | cancelled => exact fun ⟨o, ho⟩ => h o ho
  | resumed => exact id
  | woke => exact id

namespace Reload

theorem reply_notMem_waits_waiting (me : TaskId) (p : Provider) (o : Outstanding) :
    Wait.reply o ∉ Reload.waiting.waits me p := by
  rw [waits]
  split
  · exact fun h => nomatch List.mem_singleton.1 h
  · exact List.not_mem_nil

theorem reply_notMem_waits_adapting (me : TaskId) (p : Provider) (watched : Nat) (s : Setting)
    (rest : List Setting) (previous done : List Entry) (o : Outstanding) :
    Wait.reply o ∉ (Reload.adapting watched s rest previous done).waits me p :=
  fun h => nomatch List.mem_singleton.1 h

/-- A step for a caller who has not given up. -/
theorem obeys_handle (me : TaskId) {r : Reload} (aware : r.Aware false) (p : Provider) (i : Input) :
    Obeys false (i.GivesUp (r.waits me p)) (r.handle me false p i) := by
  cases r with
  | waiting =>
    have hnot := Input.not_givesUp (reply_notMem_waits_waiting me p) i
    have hstay : Obeys false (i.GivesUp (Reload.waiting.waits me p)) (p, .running .waiting) :=
      .of_running trivial hnot
    cases i with
    | resumed => exact obeys_enter me p
    | answered ticket reply => exact hstay
    | fallback serial => exact hstay
    | cancelled => exact hstay
    | woke => exact hstay
  | listing call =>
    have hlisted := obeys_listed me (p := (p.drive .list call i).1)
      (p.open_drive Conversation.asks_list aware.2 i)
    exact ⟨hlisted.aware, hlisted.lost_iff.trans (p.drive_cancelled_iff aware.2 i), hlisted.lasting⟩
  | fetching watched places raw call =>
    have hfetched := obeys_fetched me (p := (p.drive .fetch call i).1) watched places raw
      (p.open_drive Conversation.asks_fetch aware.2 i)
    exact ⟨hfetched.aware, hfetched.lost_iff.trans (p.drive_cancelled_iff aware.2 i),
      hfetched.lasting⟩
  | adapting watched s rest previous done =>
    have hnot := Input.not_givesUp (reply_notMem_waits_adapting me p watched s rest previous
      done) i
    have hstay : Obeys false (i.GivesUp ((Reload.adapting watched s rest previous done).waits me p))
        (p, .running (.adapting watched s rest previous done)) := .of_running trivial hnot
    cases i with
    | resumed => exact obeys_adapted me false watched s rest previous done
    | answered ticket reply => exact hstay
    | fallback serial => exact hstay
    | cancelled => exact hstay
    | woke => exact hstay

end Reload

/-- An operation that waits for no reply gives up where it would make a request. -/
theorem Stepping.givesUp_iff {μ α : Type} (o : Stepping μ α) (p : Provider) (phase : μ) (i : Input)
    (h : ∀ r, Wait.reply r ∉ o.waits p phase) :
    o.GivesUp ⟨p, phase, true, i⟩ ↔ p.calls < (o.handle false p phase i).1.calls :=
  ⟨fun hgives => hgives.elim (fun hgives => absurd hgives (i.not_givesUp h)) And.right,
    fun hcalls => .inr ⟨rfl, hcalls⟩⟩

namespace Reload

/-- The step in which a caller gives up, and every later one. -/
theorem obeys_handle_given {r : Reload} (p : Provider) (i : Input)
    (aware : r.Aware true ∨ r.Aware false ∧ i = .cancelled) :
    Obeys true ((stepping me).GivesUp ⟨p, r, true, i⟩) (r.handle me true p i) := by
  have hended (hwaits : ∃ o, Wait.reply o ∈ r.waits me p) (hi : i = .cancelled) {x : Step}
      (hx : x.2 = .finished (.error .cancelled)) :
      Obeys true ((stepping me).GivesUp ⟨p, r, true, i⟩) x := by
    have hgives : (stepping me).GivesUp ⟨p, r, true, i⟩ := by
      refine .inl ?_
      rw [hi]
      exact hwaits
    refine ⟨fun r' h => ?_, ⟨fun _ => hgives, fun _ => hx⟩, fun _ e he => ?_⟩
    · rw [hx] at h
      cases h
    · rw [hx] at he
      cases he
      rfl
  cases r with
  | waiting =>
    have hgives := (stepping me).givesUp_iff p .waiting i (reply_notMem_waits_waiting me p)
    have hstay (hi : Reload.waiting.handle me false p i = (p, .running .waiting)) :
        Obeys true ((stepping me).GivesUp ⟨p, .waiting, true, i⟩) (p, .running .waiting) := by
      refine .of_running trivial fun h => ?_
      have hcalls : p.calls < (Reload.waiting.handle me false p i).1.calls := hgives.1 h
      rw [hi] at hcalls
      exact Nat.lt_irrefl _ hcalls
    cases i with
    | resumed =>
      have henter := obeys_enter_given me p
      exact ⟨henter.aware, henter.lost_iff.trans hgives.symm, henter.lasting⟩
    | answered ticket reply => exact hstay rfl
    | fallback serial => exact hstay rfl
    | cancelled => exact hstay rfl
    | woke => exact hstay rfl
  | listing call =>
    rcases aware with aware | ⟨aware, hi⟩
    · cases aware.1
    · exact hended aware.2.exists_reply hi (by rw [hi]; rfl)
  | fetching watched places raw call =>
    rcases aware with aware | ⟨aware, hi⟩
    · cases aware.1
    · exact hended aware.2.exists_reply hi (by rw [hi]; rfl)
  | adapting watched s rest previous done =>
    have hgives := (stepping me).givesUp_iff p (.adapting watched s rest previous done) i
      (reply_notMem_waits_adapting me p watched s rest previous done)
    have hnot (hcalls : ((Reload.adapting watched s rest previous done).handle me false p i).1.calls =
        p.calls) : ¬ (stepping me).GivesUp ⟨p, .adapting watched s rest previous done, true, i⟩ :=
      fun h => Nat.lt_irrefl _ (Nat.lt_of_lt_of_eq (hgives.1 h) hcalls)
    have hstay (hcalls : ((Reload.adapting watched s rest previous done).handle me false p i).1.calls =
        p.calls) : Obeys true ((stepping me).GivesUp ⟨p, .adapting watched s rest previous done, true, i⟩)
          (p, .running (.adapting watched s rest previous done)) := .of_running trivial (hnot hcalls)
    cases i with
    | resumed =>
      have hadapted := obeys_adapted me true (p := p) watched s rest previous done
      have hcalls := calls_adapted me (p := p) watched s rest previous done
      exact ⟨hadapted.aware, hadapted.lost_iff.trans ⟨False.elim, hnot hcalls⟩, hadapted.lasting⟩
    | answered ticket reply => exact hstay rfl
    | fallback serial => exact hstay rfl
    | cancelled => exact hstay rfl
    | woke => exact hstay rfl

/-- **A reload ends as given up if and only if one of its requests does**, and in the same move. -/
theorem obeys_move (me : TaskId) {m : Stepping.Move Reload} (aware : m.phase.Aware given')
    (heard : m.given = (given' || m.input.isCancelled)) :
    Obeys m.given ((stepping me).GivesUp m) ((stepping me).comesTo m) := by
  obtain ⟨p, r, given, i⟩ := m
  cases given with
  | false =>
    obtain ⟨rfl, -⟩ := Bool.or_eq_false_iff.1 heard.symm
    have hstep := obeys_handle me aware p i
    refine ⟨hstep.aware, hstep.lost_iff.trans ⟨.inl, fun h => h.elim id fun h => ?_⟩, hstep.lasting⟩
    cases h.1
  | true =>
    refine obeys_handle_given p i ?_
    cases given' with
    | true => exact .inl aware
    | false =>
      refine .inr ⟨aware, ?_⟩
      cases i with
      | cancelled => rfl
      | answered ticket reply => cases heard
      | fallback serial => cases heard
      | resumed => cases heard
      | woke => cases heard

end Reload
end ReplicatedConfig
