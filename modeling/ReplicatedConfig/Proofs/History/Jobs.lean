import ReplicatedConfig.Proofs.Coherence.Jobs
import ReplicatedConfig.Proofs.History.Reloads

/-!
# Operations of every kind and their moments

A pass is made of checks, a reload and a merge, and first loads and pollers are made of reloads
and passes.  Where they may stand, and where their next step may lead back, is what is said of
their parts.  Checks never lead back, for they change nothing that is loaded; so a pass leads
back only where its merge or its reload does.

Of an operation that waits, other operations may say two things: it stands where it stood
(`Job.Timely.of_leaves`), and a step of theirs opens no way back for it (`Job.Back.of_renews`).
-/

namespace ReplicatedConfig

variable {h : History} {clock clock' : Clock} {me other : TaskId} {back : Nat → Prop} {n n' : Nat}
  {p q : Provider} {seen seen' : Sight} {cancelled : Bool}

/-! ## Passes -/

namespace Pass

/-- Where a pass may stand. -/
def Timely (h : History) (clock : Clock) (me : TaskId) (p : Provider) (seen : Sight) : Pass → Prop
  | .loading r => r.Timely h clock me p seen
  | .checking checks => ∀ c ∈ checks, c.Timely h clock p
  | .reloading f r => (∀ c ∈ f.changes, c.Backed h clock.now p) ∧ r.Timely h clock me p seen
  | .merging _ m => m.Timely h clock me p

/-- Where the next step of a pass may lead back. -/
def Back (h : History) (n : Nat) (seen : Sight) (p : Provider) : Pass → Nat → Prop
  | .loading r => r.Back h n seen p
  | .checking _ => fun _ => False
  | .reloading _ r => r.Back h n seen p
  | .merging _ m => m.Back h n seen p

/-- A step of a pass. -/
abbrev Renews (h : History) (clock : Clock) (me : TaskId) (back : Nat → Prop) (seen : Sight)
    (p : Provider) : Step → Prop :=
  p.Renewing h clock me back (fun q seen s => s.Timely h clock me q seen) seen

section Steps

variable {f : Findings} {failures : List ProviderError} {checks : List Check}

theorem renews_finish (hp : p.Dated h clock.now seen) (reloaded published : Bool) :
    Renews h clock me back seen p (finish p f failures reloaded published) := by
  cases failures with
  | nil => exact ⟨seen, hp.countPass _⟩
  | cons first rest => exact ⟨seen, hp.countPass _⟩

theorem renews_loaded {x : Reload.Step} (hx : Reload.Renews h clock me back seen p x) :
    Renews h clock me back seen p (loaded x.1 x.2) := by
  obtain ⟨q, r | result⟩ := x
  · exact hx
  · obtain ⟨seen', hq⟩ := hx
    cases result with
    | error e => exact ⟨seen', hq.trans (hq.dated.countPass _)⟩
    | ok u => exact ⟨seen', hq.trans (hq.dated.countPass _)⟩

theorem renews_merged {x : Merge.Step} (hx : Merge.Renews h clock me back seen p x) :
    Renews h clock me back seen p (merged x.1 f x.2) := by
  obtain ⟨q, m | ⟨published, failures⟩⟩ := x
  · exact hx
  · obtain ⟨seen', hq⟩ := hx
    exact .of_renews hq (renews_finish hq.dated _ _)

theorem renews_mergeChanges (hp : p.Dated h clock.now seen)
    (hchanges : ∀ c ∈ f.changes, c.Backed h clock.now p) :
    Renews h clock me back seen p (mergeChanges me p f failures) := by
  unfold mergeChanges
  split
  · exact renews_finish hp _ _
  · exact renews_merged (Merge.renews_begin hp hchanges)

/-- A reload that fails leaves the changes to be merged. -/
theorem renews_reloaded (hchanges : ∀ c ∈ f.changes, c.Backed h clock.now p) {x : Reload.Step}
    (hx : Reload.Renews h clock me back seen p x) :
    Renews h clock me back seen p (reloaded me x.1 f x.2) := by
  obtain ⟨q, r | result⟩ := x
  · obtain ⟨seen', hq, hr⟩ := hx
    exact ⟨seen', hq, fun c hc => (hchanges c hc).of_sameRules hq.rules, hr⟩
  · obtain ⟨seen', hq⟩ := hx
    refine .of_renews hq ?_
    cases result with
    | ok u => exact renews_finish hq.dated _ _
    | error e =>
      cases e with
      | cancelled => exact ⟨seen', hq.dated.refl⟩
      | _ =>
        exact renews_mergeChanges hq.dated fun c hc => (hchanges c hc).of_sameRules hq.rules

theorem renews_checked (hp : p.Dated h clock.now seen) (hfits : clock.Fits p.calls)
    (hchecks : ∀ c ∈ checks, c.Timely h clock p) :
    Renews h clock me back seen p (checked me cancelled p checks) := by
  unfold checked
  split
  · exact ⟨seen, hp.refl, hchecks⟩
  · next results hresults =>
    split
    · exact ⟨seen, hp.refl⟩
    · next f hf =>
      have hchanges : ∀ c ∈ f.changes, c.Backed h clock.now p := by
        intro c hc
        rw [(Findings.of_ofResults hf).1] at hc
        obtain ⟨r, hr, hrc⟩ := List.mem_filterMap.1 hc
        have hfound : (Check.finished r).Timely h clock p := by
          refine hchecks _ ?_
          rw [eq_map_finished hresults]
          exact List.mem_map_of_mem hr
        cases r with
        | error e => cases hrc
        | ok finding =>
          cases finding with
          | changed change =>
            cases hrc
            exact hfound
          | skipped => cases hrc
          | unchanged => cases hrc
          | reloadAll => cases hrc
      split
      · exact renews_reloaded hchanges (Reload.renews_begin hp hfits)
      · exact renews_mergeChanges hp hchanges

theorem renews_begin (hp : p.Dated h clock.now seen) (hfits : clock.Fits p.calls) :
    Renews h clock me back seen p (begin me cancelled p) := by
  unfold begin
  split
  · exact ⟨seen, hp.refl⟩
  · split
    · split
      · exact ⟨seen, hp.refl⟩
      · refine ⟨seen, hp.refl, fun c hc => ?_⟩
        obtain ⟨place, -, rfl⟩ := List.mem_map.1 hc
        trivial
    · exact renews_loaded (Reload.renews_begin hp hfits)

/-- A step of checks changes nothing that is loaded, and leads to where they may stand. -/
def Checks (h : History) (clock : Clock) (me : TaskId) (back : Nat → Prop) (seen : Sight)
    (p : Provider) (x : Provider × List Check) : Prop :=
  p.Renews h clock.now me back seen x.1 seen ∧ ∀ c ∈ x.2, c.Timely h clock x.1

/-- One check steps, and then those behind it. -/
theorem checks_cons {x : Provider × Check} {y : Provider × List Check}
    (hx : Check.Renews h clock me back seen p x) (hy : Checks h clock me back seen x.1 y) :
    Checks h clock me back seen p (y.1, x.2 :: y.2) := by
  refine ⟨hx.1.trans hy.1, fun c hc => ?_⟩
  rcases List.mem_cons.1 hc with rfl | hc
  · exact hx.2.of_renews hy.1
  · exact hy.2 c hc

theorem checks_driveChecks {i : Input} (hp : p.Dated h clock.now seen) (hfits : clock.Fits p.calls)
    (hchecks : ∀ c ∈ checks, c.Timely h clock p)
    (hadmits : ∀ c ∈ checks, clock.Admits h c.waits i) :
    Checks h clock me back seen p (driveChecks cancelled i p checks) := by
  induction checks generalizing p with
  | nil => exact ⟨hp.refl, fun c hc => absurd hc List.not_mem_nil⟩
  | cons c rest ih =>
    have hhere : Check.Renews h clock me back seen p (c.handle cancelled p i) :=
      Check.renews_handle hp hfits (hchecks c List.mem_cons_self) (hadmits c List.mem_cons_self)
    refine checks_cons hhere (ih hhere.1.dated (hfits.of_le hhere.1.calls) (fun c hc => ?_)
      fun c hc => hadmits c (List.mem_cons_of_mem _ hc))
    exact (hchecks c (List.mem_cons_of_mem _ hc)).of_renews hhere.1

theorem checks_startCheck (hp : p.Dated h clock.now seen) (hfits : clock.Fits p.calls)
    (hchecks : ∀ c ∈ checks, c.Timely h clock p) :
    Checks h clock me back seen p (startCheck cancelled p checks) := by
  induction checks with
  | nil => exact ⟨hp.refl, fun c hc => absurd hc List.not_mem_nil⟩
  | cons c rest ih =>
    have hrest (c : Check) (hc : c ∈ rest) := hchecks c (List.mem_cons_of_mem _ hc)
    rw [startCheck]
    split
    · have hhere : Check.Renews h clock me back seen p (c.handle cancelled p .resumed) :=
        Check.renews_handle hp hfits (hchecks c List.mem_cons_self) trivial
      have hstay : Checks h clock me back seen (c.handle cancelled p .resumed).1 (_, rest) :=
        ⟨hhere.1.dated.refl, fun c hc => (hrest c hc).of_renews hhere.1⟩
      exact checks_cons hhere hstay
    · have hhere : Check.Renews h clock me back seen p (p, c) :=
        ⟨hp.refl, hchecks c List.mem_cons_self⟩
      exact checks_cons hhere (ih hrest)

end Steps

/-- **A step of a pass**, whatever reaches it. -/
theorem renews_handle (hp : p.Dated h clock.now seen) (hfits : clock.Fits p.calls) {s : Pass}
    (hs : s.Timely h clock me p seen)
    (hback : ∀ place, s.Back h clock.now seen p place → back place) {i : Input}
    (hadmits : clock.Admits h (s.waits me p) i) :
    Renews h clock me back seen p (s.handle me cancelled p i) := by
  cases s with
  | loading r => exact renews_loaded (Reload.renews_handle hp hfits hs hback hadmits)
  | checking checks =>
    have hchecked (x : Provider × List Check) (hx : Checks h clock me back seen p x) :
        Renews h clock me back seen p (checked me cancelled x.1 x.2) :=
      .of_renews hx.1 (renews_checked hx.1.dated (hfits.of_le hx.1.calls) hx.2)
    have hdrive : Checks h clock me back seen p (driveChecks cancelled i p checks) :=
      checks_driveChecks hp hfits hs fun c hc =>
        hadmits.of_waits fun o ho => List.mem_flatMap.2 ⟨c, hc, ho⟩
    cases i with
    | resumed => exact hchecked _ (checks_startCheck hp hfits hs)
    | answered ticket reply => exact hchecked _ hdrive
    | fallback serial => exact hchecked _ hdrive
    | cancelled => exact hchecked _ hdrive
    | woke => exact hchecked _ hdrive
  | reloading f r => exact renews_reloaded hs.1 (Reload.renews_handle hp hfits hs.2 hback hadmits)
  | merging f m => exact renews_merged (Merge.renews_handle hp hs hback i)

theorem Timely.of_leaves {s : Pass} (hs : s.Timely h clock me p seen)
    (later : clock.Later clock' p.calls) (hq : p.Leaves me seen q seen') :
    s.Timely h clock' me q seen' := by
  cases s with
  | loading r => exact Reload.Timely.of_leaves hs later hq
  | checking checks => exact fun c hc => (hs c hc).of_places later hq.calls hq.places
  | reloading f r =>
    exact ⟨fun c hc => (hs.1 c hc).of_places later.now hq.places, hs.2.of_leaves later hq⟩
  | merging f m => exact Merge.Timely.of_leaves hs later hq

theorem Back.of_renews {s : Pass} (hs : s.Timely h clock me p seen)
    (hq : p.Renews h n other back seen q seen') (hne : me ≠ other) {place : Nat}
    (hback : s.Back h n' seen' q place) : s.Back h n' seen p place := by
  cases s with
  | loading r => exact Reload.Back.of_renews hs hq hne hback
  | checking checks => exact hback
  | reloading f r => exact Reload.Back.of_renews hs.2 hq hne hback
  | merging f m => exact Merge.Back.of_renews hs hq hne hback

/-- Dropping a pass lets go what it holds. -/
theorem renews_abandon (hp : p.Dated h n seen) (s : Pass) :
    p.Renews h n me back seen (s.abandon me p) seen := by
  cases s with
  | loading r => exact hp.release
  | checking checks =>
    obtain ⟨places, hchecked, hcalls⟩ := p.checked_abandon checks
    exact hp.checked hchecked (Nat.le_of_eq hcalls.symm)
  | reloading f r => exact hp.release
  | merging f m => exact hp.release

end Pass

/-! ## First loads -/

namespace Startup

/-- Where a first load may stand. -/
def Timely (h : History) (clock : Clock) (me : TaskId) (p : Provider) (seen : Sight) (s : Startup) :
    Prop :=
  match s.phase with
  | .inl r => r.Timely h clock me p seen
  | .inr _ => True

/-- Where the next step of a first load may lead back. -/
def Back (h : History) (n : Nat) (seen : Sight) (p : Provider) (s : Startup) : Nat → Prop :=
  match s.phase with
  | .inl r => r.Back h n seen p
  | .inr _ => fun _ => False

/-- A step of a first load. -/
abbrev Renews (h : History) (clock : Clock) (me : TaskId) (back : Nat → Prop) (seen : Sight)
    (p : Provider) : Step → Prop :=
  p.Renewing h clock me back (fun q seen s => s.Timely h clock me q seen) seen

theorem renews_finish (hp : p.Dated h clock.now seen) (result : Except ProviderError Unit) :
    Renews h clock me back seen p (finish p result) := by
  cases result <;> exact ⟨seen, hp.refl⟩

theorem renews_tried {x : Reload.Step} {deadline : Instant} {tries : Nat}
    (hx : Reload.Renews h clock me back seen p x) :
    Renews h clock me back seen p (tried x.1 deadline tries x.2) := by
  obtain ⟨q, r | result⟩ := x
  · exact hx
  · obtain ⟨seen', hq⟩ := hx
    refine .of_renews hq ?_
    cases result with
    | ok u => exact renews_finish hq.dated (.ok ())
    | error e =>
      simp only [tried]
      split
      · split
        · exact renews_finish hq.dated _
        · exact ⟨seen', hq.dated.refl, trivial⟩
      · exact renews_finish hq.dated _

theorem renews_handle (hp : p.Dated h clock.now seen) (hfits : clock.Fits p.calls) {s : Startup}
    (hs : s.Timely h clock me p seen)
    (hback : ∀ place, s.Back h clock.now seen p place → back place) {i : Input}
    (hadmits : ∀ r, s.phase = .inl r → clock.Admits h (r.waits me p) i) :
    Renews h clock me back seen p (s.handle me cancelled p i) := by
  obtain ⟨deadline, tries, r | wake⟩ := s
  · exact renews_tried (Reload.renews_handle hp hfits hs hback (hadmits r rfl))
  · have hstay : Renews h clock me back seen p (p, .running ⟨deadline, tries, .inr wake⟩) :=
      ⟨seen, hp.refl, trivial⟩
    cases i with
    | answered ticket reply => exact hstay
    | fallback serial => exact hstay
    | cancelled => exact renews_finish hp (.error .cancelled)
    | resumed => exact hstay
    | woke =>
      simp only [handle]
      split
      · exact renews_tried (Reload.renews_begin hp hfits)
      · exact hstay

end Startup

/-! ## Pollers -/

namespace Poller

/-- Where a poller may stand. -/
def Timely (h : History) (clock : Clock) (me : TaskId) (p : Provider) (seen : Sight) (s : Poller) :
    Prop :=
  match s.doing with
  | .passing pass => pass.Timely h clock me p seen
  | _ => True

/-- Where the next step of a poller may lead back. -/
def Back (h : History) (n : Nat) (seen : Sight) (p : Provider) (s : Poller) : Nat → Prop :=
  match s.doing with
  | .passing pass => pass.Back h n seen p
  | _ => fun _ => False

/-- A step of a poller. -/
def Renews (h : History) (clock : Clock) (me : TaskId) (back : Nat → Prop) (seen : Sight)
    (p : Provider) (x : Step) : Prop :=
  ∃ seen', p.Renews h clock.now me back seen x.1 seen' ∧
    ∀ s, x.2 = some s → s.Timely h clock me x.1 seen'

theorem renews_passed {s : Poller} {x : Pass.Step} (hx : Pass.Renews h clock me back seen p x) :
    Renews h clock me back seen p (passed cancelled x.1 s x.2) := by
  obtain ⟨q, pass | result⟩ := x
  · obtain ⟨seen', hq, hpass⟩ := hx
    refine ⟨seen', hq, fun s' hs' => ?_⟩
    cases hs'
    exact hpass
  · obtain ⟨seen', hq⟩ := hx
    refine ⟨seen', hq, fun s' hs' => ?_⟩
    simp only [passed] at hs'
    split at hs'
    · cases hs'
    · cases hs'
      trivial

theorem renews_startPass (hp : p.Dated h clock.now seen) (hfits : clock.Fits p.calls) {s : Poller} :
    Renews h clock me back seen p (startPass me cancelled p s) :=
  renews_passed (Pass.renews_begin hp hfits)

/-- Another pool makes no difference to what is loaded. -/
theorem renews_pool (hp : p.Dated h n seen) (pool : Pool) :
    p.Renews h n me back seen { p with pool } seen :=
  hp.renews ⟨rfl, rfl, rfl⟩ (Nat.le_refl _) rfl (fun _ => rfl) fun _ _ hheld => hheld

theorem renews_handle (hp : p.Dated h clock.now seen) (hfits : clock.Fits p.calls) {s : Poller}
    (hs : s.Timely h clock me p seen)
    (hback : ∀ place, s.Back h clock.now seen p place → back place) {i : Input}
    (hadmits : ∀ pass, s.doing = .passing pass → clock.Admits h (pass.waits me p) i) :
    Renews h clock me back seen p (s.handle me cancelled p i) := by
  have hstay : Renews h clock me back seen p (p, some s) :=
    ⟨seen, hp.refl, fun s' hs' => Option.some.inj hs' ▸ hs⟩
  obtain ⟨period, nextTick, doing⟩ := s
  cases doing with
  | idle =>
    cases i with
    | answered ticket reply => exact hstay
    | fallback serial => exact hstay
    | cancelled => exact ⟨seen, hp.refl, nofun⟩
    | resumed => exact hstay
    | woke =>
      simp only [handle, tick]
      split
      · split
        · refine ⟨seen, renews_pool hp _, fun s' hs' => ?_⟩
          cases hs'
          trivial
        · exact renews_startPass hp hfits
      · exact hstay
  | lookingUp => cases i <;> exact hstay
  | passing pass => exact renews_passed (Pass.renews_handle hp hfits hs hback (hadmits pass rfl))

theorem renews_lookedUp (hp : p.Dated h clock.now seen) (hfits : clock.Fits p.calls) {s : Poller}
    (hs : s.Timely h clock me p seen) (refusals : Refusals) (found : Option (List Endpoint)) :
    Renews h clock me back seen p (s.lookedUp me cancelled p refusals found) := by
  have hstay : Renews h clock me back seen p (p, some s) :=
    ⟨seen, hp.refl, fun s' hs' => Option.some.inj hs' ▸ hs⟩
  obtain ⟨period, nextTick, doing⟩ := s
  cases doing with
  | idle => exact hstay
  | lookingUp =>
    have hpool : p.Renews h clock.now me back seen _ seen :=
      renews_pool hp (p.pool.applyLookup refusals found p.now).1
    obtain ⟨seen', hq, hnext⟩ : Renews h clock me back seen _ _ :=
      renews_startPass hpool.dated hfits
    exact ⟨seen', hpool.trans hq, hnext⟩
  | passing pass => exact hstay

end Poller

/-! ## Operations of any kind -/

namespace Job

/-- Where an operation may stand. -/
def Timely (h : History) (clock : Clock) (me : TaskId) (p : Provider) (seen : Sight) : Job → Prop
  | .load s => s.Timely h clock me p seen
  | .refresh s => s.Timely h clock me p seen
  | .poll s => s.Timely h clock me p seen
  | _ => True

/-- Where the next step of an operation may lead back. -/
def Back (h : History) (n : Nat) (seen : Sight) (p : Provider) : Job → Nat → Prop
  | .load s => s.Back h n seen p
  | .refresh s => s.Back h n seen p
  | .poll s => s.Back h n seen p
  | _ => fun _ => False

/-- What others do leaves an operation where it may stand. -/
theorem Timely.of_leaves {job : Job} (hjob : job.Timely h clock me p seen)
    (later : clock.Later clock' p.calls) (hq : p.Leaves me seen q seen') :
    job.Timely h clock' me q seen' := by
  cases job with
  | load s =>
    obtain ⟨deadline, tries, r | wake⟩ := s
    · exact Reload.Timely.of_leaves hjob later hq
    · trivial
  | refresh s => exact Pass.Timely.of_leaves hjob later hq
  | poll s =>
    obtain ⟨period, nextTick, doing⟩ := s
    cases doing with
    | idle => trivial
    | lookingUp => trivial
    | passing pass => exact Pass.Timely.of_leaves hjob later hq
  | fetch call => trivial
  | check call => trivial
  | list call => trivial
  | rediscover => trivial
  | ended result => trivial

/-- A step of another operation opens no way back. -/
theorem Back.of_renews {job : Job} (hjob : job.Timely h clock me p seen)
    (hq : p.Renews h n other back seen q seen') (hne : me ≠ other) {place : Nat}
    (hback : job.Back h n' seen' q place) : job.Back h n' seen p place := by
  cases job with
  | load s =>
    obtain ⟨deadline, tries, r | wake⟩ := s
    · exact Reload.Back.of_renews hjob hq hne hback
    · exact hback
  | refresh s => exact Pass.Back.of_renews hjob hq hne hback
  | poll s =>
    obtain ⟨period, nextTick, doing⟩ := s
    cases doing with
    | idle => exact hback
    | lookingUp => exact hback
    | passing pass => exact Pass.Back.of_renews hjob hq hne hback
  | fetch call => exact hback
  | check call => exact hback
  | list call => exact hback
  | rediscover => exact hback
  | ended result => exact hback

end Job

namespace Task

/-- A step of an operation renews the provider, and leads to where the operation may stand. -/
def Renews (h : History) (clock : Clock) (me : TaskId) (back : Nat → Prop) (seen : Sight)
    (p : Provider) (x : Provider × Job) : Prop :=
  ∃ seen', p.Renews h clock.now me back seen x.1 seen' ∧ x.2.Timely h clock me x.1 seen'

theorem renews_ofProgress {σ α : Type} {wait : Call σ → Job}
    {done : Except FailoverError (α × Member) → Result} {x : Provider × Progress σ α}
    (hp : p.Dated h clock.now seen) (called : p.Called x.1) (calls : p.calls ≤ x.1.calls)
    (hwait : ∀ q call, (wait call).Timely h clock me q seen) :
    Renews h clock me back seen p (ofProgress wait done x) := by
  obtain ⟨q, call | r⟩ := x
  · exact ⟨seen, hp.called called calls, hwait q call⟩
  · exact ⟨seen, hp.called called calls, trivial⟩

theorem renews_ofLoad {x : Startup.Step} (hx : Startup.Renews h clock me back seen p x) :
    Renews h clock me back seen p (ofLoad x) := by
  obtain ⟨q, s | r⟩ := x
  · exact hx
  · obtain ⟨seen', hq⟩ := hx
    exact ⟨seen', hq, trivial⟩

theorem renews_ofPass {x : Pass.Step} (hx : Pass.Renews h clock me back seen p x) :
    Renews h clock me back seen p (ofPass x) := by
  obtain ⟨q, s | r⟩ := x
  · exact hx
  · obtain ⟨seen', hq⟩ := hx
    exact ⟨seen', hq, trivial⟩

theorem renews_ofPoll {x : Poller.Step} (hx : Poller.Renews h clock me back seen p x) :
    Renews h clock me back seen p (ofPoll x) := by
  obtain ⟨q, s | s⟩ := x
  · obtain ⟨seen', hq, -⟩ := hx
    exact ⟨seen', hq, trivial⟩
  · obtain ⟨seen', hq, hs⟩ := hx
    exact ⟨seen', hq, hs s rfl⟩

theorem renews_begin (hp : p.Dated h clock.now seen) (hfits : clock.Fits p.calls) (op : Operation) :
    Renews h clock me back seen p (begin me cancelled p op) := by
  cases op with
  | fetch i =>
    exact renews_ofProgress hp (p.called_openCall _ _ _) (p.calls_openCall _ _ _).1
      fun _ _ => trivial
  | check i known =>
    exact renews_ofProgress hp (p.called_openCall _ _ _) (p.calls_openCall _ _ _).1
      fun _ _ => trivial
  | list selectors =>
    exact renews_ofProgress hp (p.called_openCall _ _ _) (p.calls_openCall _ _ _).1
      fun _ _ => trivial
  | load => exact renews_ofLoad (Startup.renews_tried (Reload.renews_begin hp hfits))
  | refresh => exact renews_ofPass (Pass.renews_begin hp hfits)
  | rediscover =>
    simp only [begin]
    split
    · exact ⟨seen, Poller.renews_pool hp _, trivial⟩
    · exact ⟨seen, hp.refl, trivial⟩
  | poll period =>
    simp only [begin]
    split
    · exact ⟨seen, hp.refl, trivial⟩
    · exact ⟨seen, hp.refl, trivial⟩

/-- **A step of an operation**, whatever reaches it. -/
theorem renews_handle (hp : p.Dated h clock.now seen) (hfits : clock.Fits p.calls) {t : Task}
    (ht : t.job.Timely h clock t.id p seen)
    (hback : ∀ place, t.job.Back h clock.now seen p place → back place)
    {i : Input} (hadmits : clock.Admits h (t.waits p) i) :
    Renews h clock t.id back seen p (t.handle p i) := by
  obtain ⟨id, given, job⟩ := t
  have hdrive {σ α : Type} (k : Conversation σ α) (call : Call σ) :
      p.calls ≤ (p.drive k call i).1.calls :=
    Nat.le_of_eq (p.calls_drive k call i).symm
  cases job with
  | fetch call => exact renews_ofProgress hp (p.called_drive _ _ _) (hdrive _ _) fun _ _ => trivial
  | check call => exact renews_ofProgress hp (p.called_drive _ _ _) (hdrive _ _) fun _ _ => trivial
  | list call => exact renews_ofProgress hp (p.called_drive _ _ _) (hdrive _ _) fun _ _ => trivial
  | load s =>
    refine renews_ofLoad (Startup.renews_handle hp hfits ht hback fun r hr => ?_)
    simp only [waits, hr] at hadmits
    exact hadmits
  | refresh s => exact renews_ofPass (Pass.renews_handle hp hfits ht hback hadmits)
  | rediscover => exact ⟨seen, hp.refl, trivial⟩
  | poll s =>
    refine renews_ofPoll (Poller.renews_handle hp hfits ht hback fun pass hpass => ?_)
    simp only [waits, hpass] at hadmits
    exact hadmits
  | ended result => exact ⟨seen, hp.refl, trivial⟩

theorem renews_lookedUp (hp : p.Dated h clock.now seen) (hfits : clock.Fits p.calls) {t : Task}
    (ht : t.job.Timely h clock t.id p seen) (refusals : Refusals) (found : Option (List Endpoint)) :
    Renews h clock t.id back seen p (t.lookedUp p refusals found) := by
  obtain ⟨id, given, job⟩ := t
  have hstay : Renews h clock id back seen p (p, job) := ⟨seen, hp.refl, ht⟩
  cases job with
  | rediscover => exact ⟨seen, Poller.renews_pool hp _, trivial⟩
  | poll s => exact renews_ofPoll (Poller.renews_lookedUp hp hfits ht refusals found)
  | fetch call => exact hstay
  | check call => exact hstay
  | list call => exact hstay
  | load s => exact hstay
  | refresh s => exact hstay
  | ended result => exact hstay

/-- Dropping an operation lets go what it holds. -/
theorem renews_abandon (hp : p.Dated h n seen) (t : Task) :
    p.Renews h n t.id back seen (t.abandon p) seen := by
  obtain ⟨id, given, job⟩ := t
  cases job with
  | load s => exact hp.release
  | refresh s => exact Pass.renews_abandon hp s
  | poll s =>
    obtain ⟨period, nextTick, doing⟩ := s
    cases doing with
    | idle => exact hp.refl
    | lookingUp => exact hp.refl
    | passing pass => exact Pass.renews_abandon hp pass
  | fetch call => exact hp.refl
  | check call => exact hp.refl
  | list call => exact hp.refl
  | rediscover => exact hp.refl
  | ended result => exact hp.refl

end Task
end ReplicatedConfig
