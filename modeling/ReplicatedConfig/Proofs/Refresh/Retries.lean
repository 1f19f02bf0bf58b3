import Mathlib.Algebra.Order.Floor.Div
import ReplicatedConfig.Proofs.Health.Intervals
import ReplicatedConfig.Proofs.Refresh.Moves

/-!
# How often a first load tries

A first load has no limit on its tries.  It comes to an end because every pause has a least
length, whatever the draw, and because a try only starts before a deadline that is set once.  A
try itself may take any time, and the time it takes counts towards the deadline.

## What is written down

`Log` has one `Try` for each full load that has ended, with the time when it began and the time
when it ended, and the draw for the pause behind it.  `Course` is a first load together with its
log.  Nobody gives it up, and its clock is one on which a pause is noticed when it is over and not
later; other operations may do as they like in between.

`Retried` says what the tries have in common that are followed by another one, and
`Startup.verdict` what is made of the last one.  The number of tries follows from `Retried` alone
(`length_lt_of_retried`): each of them moves the start of the next one by a shortest pause at
least.
-/

namespace ReplicatedConfig

/-! ## Pauses -/

/-- An interval after a failure keeps to the bounds of its policy. -/
theorem BackoffPolicy.bounds_interval (p : BackoffPolicy) (draw : Draw) {failures : Nat}
    (hpos : failures ≠ 0) (hbounds : p.shortest ≤ p.longest) :
    p.shortest ≤ p.interval draw failures ∧ p.interval draw failures ≤ p.longest := by
  have hmax : max p.shortest p.longest = p.longest := if_pos hbounds
  rw [← hmax]
  exact p.bounds_spreadInterval (p.spread draw) hpos

namespace Startup

/-- The pause after a number of tries. -/
abbrev pause (draw : Draw) (tries : Nat) : Duration := startupPolicy.interval draw tries

/-- A pause lasts from five to thirty seconds. -/
theorem bounds_pause (draw : Draw) {tries : Nat} (hpos : tries ≠ 0) :
    .ofSecs 5 ≤ pause draw tries ∧ pause draw tries ≤ .ofSecs 30 :=
  startupPolicy.bounds_interval draw hpos (by decide : Duration.ofSecs 5 ≤ .ofSecs 30)

/-- The most tries that there can be: one for each shortest pause that the startup time has room
for, a part of one counting as a whole, and one in any case. -/
def mostTries (timeout : Duration) : Nat := max 1 (timeout.nanos ⌈/⌉ (Duration.ofSecs 5).nanos)

/-! ## The log -/

/-- A full load that has ended. -/
structure Try where
  began : Instant
  ended : Instant
  /-- The draw for the pause after it. -/
  draw : Draw
  result : Except ProviderError Unit

/-- The tries that have ended, and when the last one began, ended or not. -/
structure Log where
  tries : List Try
  began : Instant

/-- A full load that began at some time has come this far. -/
def ended (began : Instant) : Reload.Step → List Try
  | (p, .finished result) => [⟨began, p.now, p.draw, result⟩]
  | (_, .running _) => []

/-- The log of a load that has started. -/
def Log.begin (me : TaskId) (p : Provider) : Log := ⟨ended p.now (Reload.begin me false p), p.now⟩

/-- What a step adds to the log. -/
def Log.hear (me : TaskId) (p : Provider) (s : Startup) (i : Input) (l : Log) : Log :=
  match s.phase, i with
  | .inl r, i => ⟨l.tries ++ ended l.began (r.handle me false p i), l.began⟩
  | .inr wake, .woke =>
    if wake ≤ p.now then ⟨l.tries ++ ended p.now (Reload.begin me false p), p.now⟩ else l
  | .inr _, _ => l

/-- A first load that starts at `base`, with its log.  Time goes on and the options stay. -/
inductive Course (me : TaskId) (base : Provider) : Log → Step → Prop where
  | start : Course me base (.begin me base) (begin me false base)
  | step {l : Log} {p q : Provider} {s : Startup} {i : Input}
      (before : Course me base l (p, .running s)) (later : p.now ≤ q.now)
      (options : q.options = base.options) (wanted : i ≠ .cancelled)
      (exact : ∀ wake, s.phase = .inr wake → i = .woke → q.now ≤ wake) :
      Course me base (l.hear me q s i) (s.handle me false q i)

/-- A step of a try, with what it adds to the log. -/
theorem Course.goesOn {me : TaskId} {base p q : Provider} {l : Log} {deadline : Instant} {n : Nat}
    {r : Reload} (h : Course me base l (p, .running ⟨deadline, n, .inl r⟩)) {i : Input}
    (later : p.now ≤ q.now) (options : q.options = base.options) (wanted : i ≠ .cancelled) :
    Course me base ⟨l.tries ++ ended l.began (r.handle me false q i), l.began⟩
      (tried (r.handle me false q i).1 deadline n (r.handle me false q i).2) :=
  h.step later options wanted nofun

/-- The end of a pause, which starts another try. -/
theorem Course.triesAgain {me : TaskId} {base p q : Provider} {l : Log} {deadline : Instant}
    {n : Nat} (h : Course me base l (p, .running ⟨deadline, n, .inr q.now⟩)) (later : p.now ≤ q.now)
    (options : q.options = base.options) :
    Course me base ⟨l.tries ++ ended q.now (Reload.begin me false q), q.now⟩
      (tried (Reload.begin me false q).1 deadline (n + 1) (Reload.begin me false q).2) := by
  have hstep := h.step (i := .woke) later options nofun fun wake hwake _ =>
    Nat.le_of_eq (congrArg Instant.nanos (Sum.inr.inj hwake))
  have hnow : q.now ≤ q.now := Nat.le_refl q.now.nanos
  simp only [handle, Log.hear, if_pos hnow] at hstep
  exact hstep

/-! ## Tries that are followed by another one -/

/-- The tries before one that begins at some time.  Each of them has failed in a way that may pass,
and the next one begins when the pause after it is over, if that is before the deadline. -/
inductive Retried (base : Provider) : List Try → Instant → Prop where
  | first : Retried base [] base.now
  | next {tries : List Try} {t : Try} {e : ProviderError} (before : Retried base tries t.began)
      (lasts : t.began ≤ t.ended) (failed : t.result = .error e) (transient : e.isTransient = true)
      (longEnough : .ofSecs 5 ≤ pause t.draw (tries.length + 1))
      (shortEnough : pause t.draw (tries.length + 1) ≤ .ofSecs 30)
      (early : t.ended + pause t.draw (tries.length + 1) < base.now + base.options.startupTimeout) :
      Retried base (tries ++ [t]) (t.ended + pause t.draw (tries.length + 1))

/-- What comes of the last try: its own result, or that the startup time is over. -/
def verdict (base : Provider) (last : Try) : Except ProviderError Unit :=
  match last.result with
  | .ok () => .ok ()
  | .error e =>
    .error (if e.isTransient then .startupTimeout base.options.startupTimeout e else e)

variable {me : TaskId} {base p q : Provider} {tries : List Try} {began : Instant} {l : Log}

/-- Each try moves the next one by a shortest pause at least. -/
theorem le_of_retried (h : Retried base tries began) :
    base.now.nanos + tries.length * (Duration.ofSecs 5).nanos ≤ began.nanos := by
  induction h with
  | first => simp
  | @next tries t e before lasts failed transient longEnough shortEnough early ih =>
    rw [Instant.le_iff] at lasts
    rw [Duration.le_iff] at longEnough
    rw [List.length_append, List.length_singleton, Nat.add_mul, Nat.one_mul, Instant.nanos_add]
    omega

/-- **There is a bound on the tries.**  One that follows others is within it. -/
theorem length_lt_of_retried (h : Retried base tries began) :
    tries.length < mostTries base.options.startupTimeout := by
  have hle := le_of_retried h
  cases h with
  | first => exact Nat.lt_of_lt_of_le Nat.one_pos (Nat.le_max_left 1 _)
  | @next before t e hbefore lasts failed transient longEnough shortEnough early =>
    refine Nat.lt_of_lt_of_le (Nat.lt_of_not_le fun hfew => ?_) (Nat.le_max_right 1 _)
    -- With so few shortest pauses to fill the startup time the deadline would have passed.
    have hroom := (ceilDiv_le_iff_le_smul (by decide : 0 < (Duration.ofSecs 5).nanos)).1 hfew
    rw [smul_eq_mul, Nat.mul_comm] at hroom
    rw [Instant.lt_iff, Instant.nanos_add base.now] at early
    omega

/-! ## A load with its log -/

theorem exists_finish (p : Provider) (result : Except ProviderError Unit) :
    ∃ result', finish p result = (p, .finished result') := by
  rcases result with e | ⟨⟩
  · exact ⟨_, rfl⟩
  · exact ⟨_, rfl⟩

/-- Where a first load stands, by its log. -/
inductive Logged (base : Provider) : Log → Step → Prop where
  | trying {tries : List Try} {began : Instant} (q : Provider) (r : Reload)
      (retried : Retried base tries began) (since : began ≤ q.now) :
      Logged base ⟨tries, began⟩
        (q, .running ⟨base.now + base.options.startupTimeout, tries.length + 1, .inl r⟩)
  | pausing {tries : List Try} {began wake : Instant} (q : Provider)
      (retried : Retried base tries wake) :
      Logged base ⟨tries, began⟩
        (q, .running ⟨base.now + base.options.startupTimeout, tries.length, .inr wake⟩)
  | settled {before : List Try} {last : Try} (q : Provider) (retried : Retried base before last.began)
      (lasts : last.began ≤ last.ended) (atOnce : q.now = last.ended)
      (late : ∀ e, last.result = .error e → e.isTransient = true →
        base.now + base.options.startupTimeout ≤ last.ended + pause last.draw (before.length + 1)) :
      Logged base ⟨before ++ [last], last.began⟩ (finish q (verdict base last))

/-- A try has come this far: it goes on, another one follows, or the load is over. -/
theorem logged_tried (retried : Retried base tries began) (x : Reload.Step)
    (since : began ≤ x.1.now) (options : x.1.options = base.options) :
    Logged base ⟨tries ++ ended began x, began⟩
      (tried x.1 (base.now + base.options.startupTimeout) (tries.length + 1) x.2) := by
  obtain ⟨q, r | result⟩ := x
  · rw [ended, List.append_nil]
    exact .trying q r retried since
  · have hover (late : ∀ e, result = .error e → e.isTransient = true →
        base.now + base.options.startupTimeout ≤ q.now + pause q.draw (tries.length + 1)) :
        Logged base ⟨tries ++ [⟨began, q.now, q.draw, result⟩], began⟩
          (finish q (verdict base ⟨began, q.now, q.draw, result⟩)) := by
      have hretried : Retried base tries (Try.mk began q.now q.draw result).began := retried
      exact .settled q hretried since rfl late
    cases result with
    | ok u => exact hover nofun
    | error e =>
      simp only [verdict] at hover
      rw [tried]
      split
      · next htransient =>
        rw [if_pos htransient] at hover
        dsimp only
        split
        · next hlate =>
          rw [options]
          exact hover fun _ _ _ => hlate
        · next hearly =>
          have hbounds := bounds_pause q.draw (Nat.succ_ne_zero tries.length)
          have hnext := retried.next (t := ⟨began, q.now, q.draw, .error e⟩) since rfl htransient
            hbounds.1 hbounds.2 (Nat.lt_of_not_le hearly)
          have hpausing : Logged base ⟨_, began⟩ _ := .pausing q hnext
          rw [List.length_append, List.length_singleton] at hpausing
          exact hpausing
      · next hlasting =>
        rw [if_neg hlasting] at hover
        exact hover fun e' he' htransient => by
          cases he'
          exact absurd htransient hlasting

theorem logged_handle {s : Startup} (h : Logged base l (p, .running s)) (later : p.now ≤ q.now)
    (options : q.options = base.options) {i : Input} (wanted : i ≠ .cancelled)
    (exact : ∀ wake, s.phase = .inr wake → i = .woke → q.now ≤ wake) :
    Logged base (l.hear me q s i) (s.handle me false q i) := by
  generalize hx : ((p, .running s) : Step) = x at h
  cases h with
  | trying p r retried since =>
    cases hx
    have hclock := (Reload.outcome_handle me false q r i).sameClock
    refine logged_tried retried _ ?_ (hclock.2.trans options)
    rw [Instant.le_iff] at since later ⊢
    exact Nat.le_trans since (hclock.1 ▸ later)
  | @pausing tries began wake p retried =>
    cases hx
    have hstay : Logged base ⟨tries, began⟩
        (q, .running ⟨base.now + base.options.startupTimeout, tries.length, .inr wake⟩) :=
      .pausing q retried
    cases i with
    | woke =>
      by_cases hwake : wake ≤ q.now
      · -- The pause is over, and just now.
        obtain rfl : q.now = wake :=
          Instant.ext_nanos (Nat.le_antisymm (exact wake rfl rfl) hwake)
        have hclock := (Reload.outcome_begin me false q).sameClock
        have hnext := logged_tried retried (Reload.begin me false q)
          (Nat.le_of_eq (congrArg Instant.nanos hclock.1.symm)) (hclock.2.trans options)
        simp only [Log.hear, handle, if_pos hwake]
        exact hnext
      · simp only [Log.hear, handle, if_neg hwake]
        exact hstay
    | cancelled => exact absurd rfl wanted
    | answered ticket reply => exact hstay
    | fallback serial => exact hstay
    | resumed => exact hstay
  | @settled before last p retried lasts atOnce late =>
    obtain ⟨result, hfinish⟩ := exists_finish p (verdict base last)
    rw [hfinish] at hx
    cases hx

theorem logged_of_course {x : Step} (h : Course me base l x) : Logged base l x := by
  induction h with
  | start =>
    have hclock := (Reload.outcome_begin me false base).sameClock
    have hbegin := logged_tried .first (Reload.begin me false base)
      (Nat.le_of_eq (congrArg Instant.nanos hclock.1.symm)) hclock.2
    simpa only [begin, Log.begin, List.nil_append, List.length_nil, Nat.zero_add] using hbegin
  | step before later options wanted exact ih =>
    exact logged_handle ih later options wanted exact

/-- What the log of a load says about how it goes on, or why it has ended. -/
def Accounts (base : Provider) (l : Log) : Step → Prop
  | (_, .running s) =>
    l.tries.length < mostTries base.options.startupTimeout ∧
    Retried base l.tries (match s.phase with | .inl _ => l.began | .inr wake => wake)
  | (q, .finished result) =>
    ∃ before last, l.tries = before ++ [last] ∧ Retried base before last.began ∧
      last.began ≤ last.ended ∧ q.now = last.ended ∧
      match last.result with
      | .ok () => result = .ok ()
      | .error e =>
        if e.isTransient then
          base.now + base.options.startupTimeout ≤ last.ended + pause last.draw l.tries.length ∧
          (q, .finished result) = finish q (.error (.startupTimeout base.options.startupTimeout e))
        else (q, .finished result) = finish q (.error e)

theorem accounts_of_course {x : Step} (h : Course me base l x) :
    l.tries.length ≤ mostTries base.options.startupTimeout ∧ Accounts base l x := by
  cases logged_of_course h with
  | trying q r retried since =>
    have hfew := length_lt_of_retried retried
    exact ⟨Nat.le_of_lt hfew, hfew, retried⟩
  | pausing q retried =>
    have hfew := length_lt_of_retried retried
    exact ⟨Nat.le_of_lt hfew, hfew, retried⟩
  | @settled before last q retried lasts atOnce late =>
    have hlength : (before ++ [last]).length = before.length + 1 := List.length_append
    refine ⟨hlength ▸ length_lt_of_retried retried, ?_⟩
    obtain ⟨result, hfinish⟩ := exists_finish q (verdict base last)
    rw [hfinish]
    refine ⟨before, last, rfl, retried, lasts, atOnce, ?_⟩
    rw [verdict] at hfinish
    cases hresult : last.result with
    | ok u =>
      rw [hresult] at hfinish
      cases hfinish
      rfl
    | error e =>
      rw [hresult] at hfinish
      dsimp only at hfinish ⊢
      split
      · next htransient =>
        rw [if_pos htransient] at hfinish
        exact ⟨hlength ▸ late e hresult htransient, hfinish.symm⟩
      · next hlasting =>
        rw [if_neg hlasting] at hfinish
        exact hfinish.symm

/-- Tries cannot end for ever. -/
theorem exists_finished {course : Nat → Log × Step}
    (courses : ∀ n, Course me base (course n).1 (course n).2)
    (ends : ∀ n s, (course n).2.2 = .running s →
      ∃ m, (course n).1.tries.length < (course m).1.tries.length) :
    ∃ n result, (course n).2.2 = .finished result := by
  by_contra hnever
  have hruns (n : Nat) : ∃ s, (course n).2.2 = .running s := by
    cases hstage : (course n).2.2 with
    | running s => exact ⟨s, rfl⟩
    | finished result => exact absurd ⟨n, result, hstage⟩ hnever
  -- Otherwise one try would end after the other, beyond the bound.
  have hmany (k : Nat) : ∃ n, k ≤ (course n).1.tries.length := by
    induction k with
    | zero => exact ⟨0, Nat.zero_le _⟩
    | succ k ih =>
      obtain ⟨n, hn⟩ := ih
      obtain ⟨s, hs⟩ := hruns n
      obtain ⟨m, hm⟩ := ends n s hs
      exact ⟨m, Nat.lt_of_le_of_lt hn hm⟩
  obtain ⟨n, hn⟩ := hmany (mostTries base.options.startupTimeout + 1)
  exact absurd (accounts_of_course (courses n)).1 (Nat.not_le_of_lt hn)

/-- **A first load tries within bounds, and says why it ends.**  Whatever the full loads come to,
however long they take and whatever is drawn: there are never more than `mostTries`.  While the
load goes on there are fewer, and each of them has failed in a way that may pass and is followed,
after a pause of five to thirty seconds, by one that begins before the deadline.  The load ends as
soon as its last try does: with success, with an error that does not pass, as it is, or, if the
next try would come too late, with that error in a `startupTimeout`.  So it does end, if each of
its tries does. -/
theorem retries_of_course (me : TaskId) (base : Provider) :
    (∀ l x, Course me base l x →
      l.tries.length ≤ mostTries base.options.startupTimeout ∧ Accounts base l x) ∧
    ∀ course : Nat → Log × Step, (∀ n, Course me base (course n).1 (course n).2) →
      (∀ n s, (course n).2.2 = .running s →
        ∃ m, (course n).1.tries.length < (course m).1.tries.length) →
      ∃ n result, (course n).2.2 = .finished result :=
  ⟨fun _ _ => accounts_of_course, fun _ => exists_finished⟩

/-- A provider with one replica and nothing but the listing to load. -/
def listingAll : Provider :=
  .new (.ofHosts ["a"]) default ⟨[]⟩ .empty ⟨[.anyKey], false, .ofSecs 100⟩ .start

/-- The replica does not reply to the first listing. -/
def unheard : Input := .answered ⟨0, 0, 0⟩ (.error .timeout)

/-- It has nothing for the second one. -/
def nothingListed : Input := .answered ⟨1, 0, 0⟩ (.ok (.page ⟨[], none⟩))

set_option maxRecDepth 2000 in
/-- The first full load fails, and one that starts at any time later succeeds. -/
theorem exists_listings : ∃ p r q, Reload.begin 0 false listingAll = (p, .running r) ∧
    r.handle 0 false p unheard = (q, .finished (.error (.failover (.exhausted 1 .timeout)))) ∧
    ∀ t, ∃ p' r' q', Reload.begin 0 false { q with now := t } = (p', .running r') ∧
      r'.handle 0 false p' nothingListed = (q', .finished (.ok ())) :=
  ⟨_, _, _, rfl, rfl, fun _ => ⟨_, _, _, rfl, rfl⟩⟩

/-- The first try times out and the second one, after a pause, succeeds.  There could have been
twenty. -/
theorem retries_of_course_twice :
    ∃ l q, Course 0 listingAll l (q, .finished (.ok ())) ∧
      l.tries.map (·.result) = [.error (.failover (.exhausted 1 .timeout)), .ok ()] ∧
      mostTries listingAll.options.startupTimeout = 20 ∧
      l.tries.length ≤ mostTries listingAll.options.startupTimeout ∧
      Accounts listingAll l (q, .finished (.ok ())) := by
  obtain ⟨p, r, q, hbegin, hunheard, hsecond⟩ := exists_listings
  have hp := (Reload.outcome_begin 0 false listingAll).sameClock
  have hq := (Reload.outcome_handle 0 false p r unheard).sameClock
  rw [hbegin] at hp
  rw [hunheard] at hq
  have hstart : Course 0 listingAll (.begin 0 listingAll) (begin 0 false listingAll) := .start
  rw [begin, Log.begin, hbegin] at hstart
  have hfirst := hstart.goesOn (i := unheard) (Nat.le_refl _) hp.2 nofun
  rw [hunheard] at hfirst
  -- The pause is far too short to reach the deadline.
  have hearly : ¬ listingAll.now + listingAll.options.startupTimeout ≤ q.now + pause q.draw 1 := by
    have hshort := (bounds_pause q.draw one_ne_zero).2
    have hroom : (Duration.ofSecs 30).nanos < listingAll.options.startupTimeout.nanos := by decide
    rw [Duration.le_iff] at hshort
    rw [hq.1, hp.1, Instant.le_iff, Instant.nanos_add, Instant.nanos_add]
    omega
  have hpause : tried q (listingAll.now + listingAll.options.startupTimeout) 1
      (.finished (.error (.failover (.exhausted 1 .timeout)))) =
        (q, .running ⟨_, 1, .inr (q.now + pause q.draw 1)⟩) := if_neg hearly
  dsimp only at hfirst
  rw [hpause] at hfirst
  obtain ⟨p', r', q', hbegin', hend⟩ := hsecond (q.now + pause q.draw 1)
  have hawake := hfirst.triesAgain (q := { q with now := q.now + pause q.draw 1 })
    (q.now.le_add _) (hq.2.trans hp.2)
  have hp' := (Reload.outcome_begin 0 false { q with now := q.now + pause q.draw 1 }).sameClock
  rw [hbegin'] at hawake hp'
  have hsecond := hawake.goesOn (i := nothingListed) (Nat.le_refl _)
    (hp'.2.trans (hq.2.trans hp.2)) nofun
  rw [hend] at hsecond
  exact ⟨_, _, hsecond, rfl, by decide, (retries_of_course 0 listingAll).1 _ _ hsecond⟩

end Startup
end ReplicatedConfig
