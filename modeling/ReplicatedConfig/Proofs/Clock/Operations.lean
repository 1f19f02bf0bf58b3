import ReplicatedConfig.Proofs.Clock.Dates
import ReplicatedConfig.Proofs.Pool.Lookups

/-!
# Operations of every kind set dates within the limit

Passes, first loads and pollers are built from reloads, checks and merges, and so is what holds of
them (`Redated`).  A first load keeps two instants of its own: when it stops trying, which it has
computed at its start, and when its pause ends, which is before that.

## Lookups

A lookup takes its time slot when it starts, and changes the members when it has ended.  Neither
sets a date ahead, but both change what `Provider.Redates` says to stay as it is.  So a step of an
operation at large may come to three things (`Task.Shifts`): it has nothing to do with lookups, it
starts one, or it applies what one has found.
-/

namespace ReplicatedConfig

variable {σ α : Type} {limit : Duration} {now later : Instant}

/-! ## Passes -/

namespace Pass

variable {me : TaskId} {cancelled : Bool} {p : Provider}

/-- The calls of a pass heed the limit. -/
def Heeds (limit : Duration) (now : Instant) : Pass → Prop
  | .loading r => r.Heeds limit now
  | .checking checks => ∀ c ∈ checks, c.Heeds limit now
  | .reloading _ r => r.Heeds limit now
  | .merging .. => True

theorem Heeds.mono {s : Pass} (h : s.Heeds limit now) (hle : now ≤ later) :
    s.Heeds limit later := by
  cases s with
  | loading r => exact Reload.Heeds.mono h hle
  | checking checks => exact fun c hc => (h c hc).mono hle
  | reloading f r => exact Reload.Heeds.mono h hle
  | merging f m => trivial

theorem Heeds.dates_le {s : Pass} (h : s.Heeds limit now) : ∀ t ∈ s.dates, t ≤ now + limit := by
  cases s with
  | loading r => exact Reload.Heeds.dates_le h
  | checking checks =>
    intro t ht
    obtain ⟨c, hc, ht⟩ := List.mem_flatMap.1 ht
    exact (h c hc).dates_le t ht
  | reloading f r => exact Reload.Heeds.dates_le h
  | merging f m => exact fun _ ht => absurd ht List.not_mem_nil

/-- A step of a pass sets dates within the limit. -/
abbrev Redated (limit : Duration) (p : Provider) (x : Step) : Prop :=
  ReplicatedConfig.Redated (fun now => Stage.Every (Heeds limit now)) limit p x

/-- A step of several checks sets dates within the limit. -/
abbrev AllRedated (limit : Duration) (p : Provider) (x : Provider × List Check) : Prop :=
  ReplicatedConfig.Redated (fun now checks => ∀ c ∈ checks, c.Heeds limit now) limit p x

theorem redated_finish (p : Provider) (f : Findings) (failures : List ProviderError)
    (reloaded published : Bool) : Redated limit p (finish p f failures reloaded published) := by
  cases failures with
  | nil => exact ⟨.of_eq rfl rfl rfl rfl rfl, trivial⟩
  | cons first rest => exact ⟨.of_eq rfl rfl rfl rfl rfl, trivial⟩

theorem redated_loaded {r : Stage Reload Unit} (h : r.Every (Reload.Heeds limit p.now)) :
    Redated limit p (loaded p r) := by
  rcases r with r | (e | u)
  · exact ⟨.refl limit p, h⟩
  · exact ⟨.of_eq rfl rfl rfl rfl rfl, trivial⟩
  · exact ⟨.of_eq rfl rfl rfl rfl rfl, trivial⟩

theorem redated_merged (p : Provider) (f : Findings) (m : Merge ⊕ (Bool × List ProviderError)) :
    Redated limit p (merged p f m) := by
  rcases m with m | ⟨published, failures⟩
  · exact ⟨.refl limit p, trivial⟩
  · exact redated_finish p f failures false published

theorem redated_mergeChanges (p : Provider) (f : Findings) (failures : List ProviderError) :
    Redated limit p (mergeChanges me p f failures) := by
  unfold mergeChanges
  split
  · exact redated_finish p f failures false false
  · exact .after (Merge.redates_begin p f.changes failures) (redated_merged _ f _)

theorem redated_reloaded (f : Findings) {r : Stage Reload Unit}
    (h : r.Every (Reload.Heeds limit p.now)) : Redated limit p (reloaded me p f r) := by
  unfold reloaded
  split
  · exact ⟨.refl limit p, h⟩
  · exact redated_finish p f f.failures true true
  · exact ⟨.refl limit p, trivial⟩
  · exact redated_mergeChanges p f _

theorem redated_checked (hp : p.Within limit) {checks : List Check}
    (h : ∀ c ∈ checks, c.Heeds limit p.now) : Redated limit p (checked me cancelled p checks) := by
  unfold checked
  split
  · exact ⟨.refl limit p, h⟩
  · split
    · exact ⟨.refl limit p, trivial⟩
    · next f hf =>
      split
      · exact (Reload.redated_begin hp).bind hp fun _ hr => redated_reloaded f hr
      · exact redated_mergeChanges p f f.failures

theorem redated_begin (hp : p.Within limit) : Redated limit p (begin me cancelled p) := by
  unfold begin
  split
  · exact ⟨.refl limit p, trivial⟩
  · split
    · split
      · exact ⟨.refl limit p, trivial⟩
      · refine ⟨.refl limit p, fun c hc => ?_⟩
        obtain ⟨place, -, rfl⟩ := List.mem_map.1 hc
        trivial
    · exact (Reload.redated_begin hp).bind hp fun _ hr => redated_loaded hr

/-- A step of the first check, and then steps of the others. -/
theorem redated_cons {c : Check} {x : Provider × Check} {checks : List Check}
    {y : Provider × List Check} (hp : p.Within limit)
    (h : ∀ d ∈ c :: checks, d.Heeds limit p.now) (hx : Check.Redated limit p x)
    (hy : x.1.Within limit → (∀ d ∈ checks, d.Heeds limit x.1.now) → AllRedated limit x.1 y) :
    AllRedated limit p (y.1, x.2 :: y.2) := by
  have hothers := hy (hx.provider.within hp) fun d hd => by
    rw [hx.provider.now]
    exact h d (List.mem_cons_of_mem c hd)
  refine ⟨hx.provider.trans hothers.provider, fun d hd => ?_⟩
  rcases List.mem_cons.1 hd with rfl | hd
  · exact hx.stands
  · have hstands := hothers.stands d hd
    rwa [hx.provider.now] at hstands

theorem redated_driveChecks (hp : p.Within limit) (i : Input) {checks : List Check}
    (h : ∀ c ∈ checks, c.Heeds limit p.now) :
    AllRedated limit p (driveChecks cancelled i p checks) := by
  induction checks generalizing p with
  | nil => exact ⟨.refl limit p, h⟩
  | cons c rest ih =>
    exact redated_cons hp h (Check.redated_handle hp (h c List.mem_cons_self) i) ih

theorem redated_startCheck (hp : p.Within limit) {checks : List Check}
    (h : ∀ c ∈ checks, c.Heeds limit p.now) :
    AllRedated limit p (startCheck cancelled p checks) := by
  induction checks generalizing p with
  | nil => exact ⟨.refl limit p, h⟩
  | cons c rest ih =>
    rw [startCheck]
    split
    · exact redated_cons (y := (_, rest)) hp h
        (Check.redated_handle hp (h c List.mem_cons_self) .resumed)
        fun _ hrest => ⟨.refl limit _, hrest⟩
    · exact redated_cons (x := (p, c)) hp h ⟨.refl limit p, h c List.mem_cons_self⟩ ih

/-- Whatever reaches a pass, dates are set within the limit. -/
theorem redated_handle (hp : p.Within limit) {s : Pass} (h : s.Heeds limit p.now) (i : Input) :
    Redated limit p (s.handle me cancelled p i) := by
  cases s with
  | loading r => exact (Reload.redated_handle hp h i).bind hp fun _ hr => redated_loaded hr
  | checking checks =>
    have hdriven {x : Provider × List Check} (hx : AllRedated limit p x) :
        Redated limit p (checked me cancelled x.1 x.2) :=
      hx.bind hp fun hq hchecks => redated_checked hq hchecks
    cases i with
    | resumed => exact hdriven (redated_startCheck hp h)
    | answered ticket reply => exact hdriven (redated_driveChecks hp _ h)
    | fallback serial => exact hdriven (redated_driveChecks hp _ h)
    | cancelled => exact hdriven (redated_driveChecks hp _ h)
    | woke => exact hdriven (redated_driveChecks hp _ h)
  | reloading f r => exact (Reload.redated_handle hp h i).bind hp fun _ hr => redated_reloaded f hr
  | merging f m => exact .after (m.redates_handle p i) (redated_merged _ f _)

theorem redates_abandon (hp : p.Within limit) (s : Pass) : p.Redates limit (s.abandon me p) := by
  cases s with
  | loading r => exact .of_eq rfl rfl rfl rfl rfl
  | checking checks =>
    show p.Redates limit (checks.foldl Check.abandon p)
    induction checks generalizing p with
    | nil => exact .refl limit p
    | cons c rest ih =>
      have hfirst := Check.redates_abandon hp c
      exact hfirst.trans (ih (hfirst.within hp))
  | reloading f r => exact .of_eq rfl rfl rfl rfl rfl
  | merging f m => exact .of_eq rfl rfl rfl rfl rfl

end Pass

/-! ## First loads -/

namespace Startup

variable {me : TaskId} {cancelled : Bool} {p : Provider}

/-- A first load stops trying within the limit, and its pause ends within it. -/
structure Heeds (limit : Duration) (now : Instant) (s : Startup) : Prop where
  deadline : s.deadline ≤ now + limit
  reload : ∀ r, s.phase = .inl r → r.Heeds limit now
  pause : ∀ wake, s.phase = .inr wake → wake ≤ now + limit

theorem Heeds.mono {s : Startup} (h : s.Heeds limit now) (hle : now ≤ later) :
    s.Heeds limit later where
  deadline := Nat.le_trans h.deadline (Instant.add_le_add_right hle limit)
  reload r hr := (h.reload r hr).mono hle
  pause wake hwake := Nat.le_trans (h.pause wake hwake) (Instant.add_le_add_right hle limit)

theorem Heeds.dates_le {s : Startup} (h : s.Heeds limit now) : ∀ t ∈ s.dates, t ≤ now + limit := by
  obtain ⟨deadline, tries, r | wake⟩ := s
  · intro t ht
    rcases List.mem_cons.1 ht with rfl | ht
    · exact h.deadline
    · exact (h.reload r rfl).dates_le t ht
  · intro t ht
    rcases List.mem_cons.1 ht with rfl | ht
    · exact h.deadline
    · rw [List.mem_singleton.1 ht]
      exact h.pause wake rfl

/-- A step of a first load sets dates within the limit. -/
abbrev Redated (limit : Duration) (p : Provider) (x : Step) : Prop :=
  ReplicatedConfig.Redated (fun now => Stage.Every (Heeds limit now)) limit p x

theorem redated_tried {deadline : Instant} (hdeadline : deadline ≤ p.now + limit) (tries : Nat)
    {r : Stage Reload Unit} (h : r.Every (Reload.Heeds limit p.now)) :
    Redated limit p (tried p deadline tries r) := by
  have hfinish (result : Except ProviderError Unit) : Redated limit p (finish p result) := by
    cases result <;> exact ⟨.refl limit p, trivial⟩
  rcases r with r | (e | ⟨⟨⟩⟩)
  · refine ⟨.refl limit p, hdeadline, fun r' hr => ?_, fun wake hwake => ?_⟩
    · cases hr
      exact h
    · cases hwake
  · rw [tried]
    split
    · simp only []
      split
      · exact hfinish _
      · next hbefore =>
        -- A pause is only begun if it ends before the load stops trying.
        refine ⟨.refl limit p, hdeadline, fun r hr => ?_, fun wake hwake => ?_⟩
        · cases hr
        · cases hwake
          exact Nat.le_trans (Nat.le_of_not_le hbefore) hdeadline
    · exact hfinish _
  · exact hfinish (.ok ())

theorem redated_begin (hp : p.Within limit) : Redated limit p (begin me cancelled p) := by
  have hbegun : Reload.Redated limit p (Reload.begin me cancelled p) := Reload.redated_begin hp
  refine hbegun.bind hp fun _ hr => redated_tried ?_ 1 hr
  rw [hbegun.provider.now]
  exact p.now.add_le_add hp.timeout

/-- Whatever reaches a first load, dates are set within the limit. -/
theorem redated_handle (hp : p.Within limit) {s : Startup} (h : s.Heeds limit p.now) (i : Input) :
    Redated limit p (s.handle me cancelled p i) := by
  obtain ⟨deadline, tries, r | wake⟩ := s
  · have hdriven : Reload.Redated limit p (r.handle me cancelled p i) :=
      Reload.redated_handle hp (h.reload r rfl) i
    refine hdriven.bind hp fun _ hr => redated_tried ?_ tries hr
    rw [hdriven.provider.now]
    exact h.deadline
  · have hstay : Redated limit p (p, .running ⟨deadline, tries, .inr wake⟩) := ⟨.refl limit p, h⟩
    cases i with
    | woke =>
      simp only [handle]
      split
      · have hbegun : Reload.Redated limit p (Reload.begin me cancelled p) :=
          Reload.redated_begin hp
        refine hbegun.bind hp fun _ hr => redated_tried ?_ (tries + 1) hr
        rw [hbegun.provider.now]
        exact h.deadline
      · exact hstay
    | cancelled => exact ⟨.refl limit p, trivial⟩
    | answered ticket reply => exact hstay
    | fallback serial => exact hstay
    | resumed => exact hstay

end Startup

/-! ## Operations of any kind -/

namespace Job

/-- The instants and spans that an operation bears heed the limit. -/
def Heeds (limit : Duration) (now : Instant) : Job → Prop
  | .fetch call => call.Heeds limit now
  | .check call => call.Heeds limit now
  | .list call => call.Heeds limit now
  | .load s => s.Heeds limit now
  | .refresh s => s.Heeds limit now
  | .poll ⟨_, _, .passing s⟩ => s.Heeds limit now
  | .poll _ | .rediscover | .ended _ => True

theorem Heeds.mono {job : Job} (h : job.Heeds limit now) (hle : now ≤ later) :
    job.Heeds limit later := by
  cases job with
  | fetch call => exact Call.Heeds.mono h hle
  | check call => exact Call.Heeds.mono h hle
  | list call => exact Call.Heeds.mono h hle
  | load s => exact Startup.Heeds.mono h hle
  | refresh s => exact Pass.Heeds.mono h hle
  | rediscover => trivial
  | poll s =>
    obtain ⟨period, nextTick, idle | lookingUp | pass⟩ := s
    · trivial
    · trivial
    · exact Pass.Heeds.mono h hle
  | ended result => trivial

theorem Heeds.dates_le {job : Job} (h : job.Heeds limit now) :
    ∀ t ∈ job.dates, t ≤ now + limit := by
  have hnone : ∀ t ∈ ([] : List Instant), t ≤ now + limit := fun _ ht => absurd ht List.not_mem_nil
  cases job with
  | fetch call => exact Call.Heeds.dates_le h
  | check call => exact Call.Heeds.dates_le h
  | list call => exact Call.Heeds.dates_le h
  | load s => exact Startup.Heeds.dates_le h
  | refresh s => exact Pass.Heeds.dates_le h
  | rediscover => exact hnone
  | poll s =>
    obtain ⟨period, nextTick, idle | lookingUp | pass⟩ := s
    · exact hnone
    · exact hnone
    · exact Pass.Heeds.dates_le h
  | ended result => exact hnone

/-- Whether an operation waits for a lookup. -/
def looksUp : Job → Bool
  | .rediscover => true
  | .poll ⟨_, _, .lookingUp⟩ => true
  | _ => false

end Job

namespace Task

variable {t : Task} {p : Provider} {was : Bool}

/-- A step that has nothing to do with lookups: it sets dates within the limit, and the operation
waits for a lookup only if it `was` waiting for one. -/
structure Keeps (limit : Duration) (p : Provider) (was : Bool) (x : Provider × Job) : Prop where
  redated : Redated (Job.Heeds limit) limit p x
  looksUp : x.2.looksUp = true → was = true

/-- What a step of an operation may come to. -/
inductive Shifts (limit : Duration) (p : Provider) (was : Bool) : Provider × Job → Prop where
  /-- It has nothing to do with lookups. -/
  | keeps {x : Provider × Job} (h : Keeps limit p was x) : Shifts limit p was x
  /-- It starts a lookup, for which it has taken the slot. -/
  | starts {pool : Pool} {job : Job} (claimed : p.pool.claimLookup p.now = some pool)
      (idle : was = false) (looksUp : job.looksUp = true) (heeds : job.Heeds limit p.now) :
      Shifts limit p was ({ p with pool }, job)
  /-- It applies what a lookup has found. -/
  | applies {x : Provider × Job} (refusals : Refusals) (found : Option (List Endpoint))
      (waited : was = true)
      (redated : Redated (Job.Heeds limit) limit
        { p with pool := (p.pool.applyLookup refusals found p.now).1 } x)
      (done : x.2.looksUp = false) : Shifts limit p was x

/-- An operation that does not wait for a lookup behind its step. -/
theorem Keeps.of_idle {x : Provider × Job} (h : Redated (Job.Heeds limit) limit p x)
    (idle : x.2.looksUp = false) : Keeps limit p was x :=
  ⟨h, fun hlooks => by rw [idle] at hlooks; cases hlooks⟩

theorem keeps_ofProgress {wait : Call σ → Job} {done : Except FailoverError (α × Member) → Result}
    {x : Provider × Progress σ α} (h : Redated (Progress.Heeds limit) limit p x)
    (hwait : ∀ c, c.Heeds limit p.now → (wait c).Heeds limit p.now)
    (hidle : ∀ c, (wait c).looksUp = false) : Keeps limit p was (ofProgress wait done x) := by
  obtain ⟨q, call | r⟩ := x
  · exact .of_idle ⟨h.provider, hwait call h.stands⟩ (hidle call)
  · exact .of_idle ⟨h.provider, trivial⟩ rfl

theorem keeps_ofLoad {x : Startup.Step} (h : Startup.Redated limit p x) :
    Keeps limit p was (ofLoad x) := by
  obtain ⟨q, s | r⟩ := x
  · exact .of_idle ⟨h.provider, h.stands⟩ rfl
  · exact .of_idle ⟨h.provider, trivial⟩ rfl

theorem keeps_ofPass {x : Pass.Step} (h : Pass.Redated limit p x) :
    Keeps limit p was (ofPass x) := by
  obtain ⟨q, s | r⟩ := x
  · exact .of_idle ⟨h.provider, h.stands⟩ rfl
  · exact .of_idle ⟨h.provider, trivial⟩ rfl

/-- The pass of a poller has come this far. -/
theorem keeps_passed {cancelled : Bool} {s : Poller} {x : Pass.Step} (h : Pass.Redated limit p x) :
    Keeps limit p was (ofPoll (Poller.passed cancelled x.1 s x.2)) := by
  obtain ⟨q, pass | r⟩ := x
  · exact .of_idle ⟨h.provider, h.stands⟩ rfl
  · cases cancelled with
    | true => exact .of_idle ⟨h.provider, trivial⟩ rfl
    | false => exact .of_idle ⟨h.provider, trivial⟩ rfl

theorem shifts_begin (hp : p.Within limit) (id : TaskId) (cancelled : Bool) (op : Operation) :
    Shifts limit p false (begin id cancelled p op) := by
  cases op with
  | fetch i =>
    exact .keeps (keeps_ofProgress (Provider.redated_openCall hp _ _ _) (fun _ h => h) fun _ => rfl)
  | check i known =>
    exact .keeps (keeps_ofProgress (Provider.redated_openCall hp _ _ _) (fun _ h => h) fun _ => rfl)
  | list selectors =>
    exact .keeps (keeps_ofProgress (Provider.redated_openCall hp _ _ _) (fun _ h => h) fun _ => rfl)
  | load => exact .keeps (keeps_ofLoad (Startup.redated_begin hp))
  | refresh => exact .keeps (keeps_ofPass (Pass.redated_begin hp))
  | rediscover =>
    simp only [begin]
    split
    · next pool hclaimed => exact .starts hclaimed rfl rfl trivial
    · exact .keeps (.of_idle ⟨.refl limit p, trivial⟩ rfl)
  | poll period =>
    simp only [begin]
    split
    · exact .keeps (.of_idle ⟨.refl limit p, trivial⟩ rfl)
    · exact .keeps (.of_idle ⟨.refl limit p, trivial⟩ rfl)

/-- A poller that wakes up is the only one for whom something other than its start leads to a
lookup. -/
theorem shifts_pollerHandle {me : TaskId} {cancelled : Bool} (hp : p.Within limit) {s : Poller}
    (h : (Job.poll s).Heeds limit p.now) (i : Input) :
    Shifts limit p (Job.poll s).looksUp (ofPoll (s.handle me cancelled p i)) ∧
      (i ≠ .woke → Keeps limit p (Job.poll s).looksUp (ofPoll (s.handle me cancelled p i))) := by
  have hkeeps {x : Poller.Step} (hx : Keeps limit p (Job.poll s).looksUp (ofPoll x)) :
      Shifts limit p (Job.poll s).looksUp (ofPoll x) ∧
        (i ≠ .woke → Keeps limit p (Job.poll s).looksUp (ofPoll x)) := ⟨.keeps hx, fun _ => hx⟩
  have hstay : Keeps limit p (Job.poll s).looksUp (ofPoll (p, some s)) :=
    ⟨⟨.refl limit p, h⟩, fun hlooks => hlooks⟩
  obtain ⟨period, nextTick, doing⟩ := s
  cases doing with
  | idle =>
    cases i with
    | woke =>
      refine ⟨?_, fun hne => absurd rfl hne⟩
      simp only [Poller.handle, Poller.tick]
      split
      · split
        · next pool hclaimed => exact .starts hclaimed rfl rfl trivial
        · exact .keeps (keeps_passed (Pass.redated_begin hp))
      · exact .keeps hstay
    | cancelled => exact hkeeps (.of_idle ⟨.refl limit p, trivial⟩ rfl)
    | answered ticket reply => exact hkeeps hstay
    | fallback serial => exact hkeeps hstay
    | resumed => exact hkeeps hstay
  | lookingUp => cases i <;> exact hkeeps hstay
  | passing pass => exact hkeeps (keeps_passed (Pass.redated_handle hp h i))

/-- **Whatever reaches an operation.**  It starts a lookup only if it wakes up. -/
theorem shifts_handle (hp : p.Within limit) (h : t.job.Heeds limit p.now) (i : Input) :
    Shifts limit p t.job.looksUp (t.handle p i) ∧
      (i ≠ .woke → Keeps limit p t.job.looksUp (t.handle p i)) := by
  obtain ⟨id, cancelled, job⟩ := t
  have hkeeps {x : Provider × Job} (hx : Keeps limit p job.looksUp x) :
      Shifts limit p job.looksUp x ∧ (i ≠ .woke → Keeps limit p job.looksUp x) :=
    ⟨.keeps hx, fun _ => hx⟩
  have hstay : Keeps limit p job.looksUp (p, job) := ⟨⟨.refl limit p, h⟩, fun hlooks => hlooks⟩
  cases job with
  | fetch call =>
    exact hkeeps (keeps_ofProgress (Provider.redated_drive _ h i) (fun _ h => h) fun _ => rfl)
  | check call =>
    exact hkeeps (keeps_ofProgress (Provider.redated_drive _ h i) (fun _ h => h) fun _ => rfl)
  | list call =>
    exact hkeeps (keeps_ofProgress (Provider.redated_drive _ h i) (fun _ h => h) fun _ => rfl)
  | load s => exact hkeeps (keeps_ofLoad (Startup.redated_handle hp h i))
  | refresh s => exact hkeeps (keeps_ofPass (Pass.redated_handle hp h i))
  | rediscover => exact hkeeps hstay
  | poll s => exact shifts_pollerHandle hp h i
  | ended result => exact hkeeps hstay

/-- What a lookup has found is nothing that dates are computed from. -/
theorem within_applyLookup (hp : p.Within limit) (refusals : Refusals)
    (found : Option (List Endpoint)) :
    Provider.Within limit { p with pool := (p.pool.applyLookup refusals found p.now).1 } := by
  refine ⟨hp.interval, ?_, hp.timeout, hp.watches⟩
  rcases p.pool.applyLookup_cases refusals found p.now with happly | ⟨members, -, happly⟩
  · rw [happly]
    exact hp.policy
  · rw [happly]
    exact hp.policy

/-- The end of a lookup. -/
theorem shifts_lookedUp (hp : p.Within limit) (h : t.job.Heeds limit p.now) (refusals : Refusals)
    (found : Option (List Endpoint)) :
    Shifts limit p t.job.looksUp (t.lookedUp p refusals found) := by
  obtain ⟨id, cancelled, job⟩ := t
  have hstay : Shifts limit p job.looksUp (p, job) := .keeps ⟨⟨.refl limit p, h⟩, fun h => h⟩
  cases job with
  | rediscover => exact .applies refusals found rfl ⟨.refl limit _, trivial⟩ rfl
  | poll s =>
    obtain ⟨period, nextTick, doing⟩ := s
    cases doing with
    | idle => exact hstay
    | lookingUp =>
      have hpass : Keeps limit { p with pool := (p.pool.applyLookup refusals found p.now).1 } false
          (Task.lookedUp ⟨id, cancelled, .poll ⟨period, nextTick, .lookingUp⟩⟩ p refusals found) :=
        keeps_passed (Pass.redated_begin (within_applyLookup hp refusals found))
      exact .applies refusals found rfl hpass.redated (Bool.eq_false_iff.2 fun hlooks => by
        cases hpass.looksUp hlooks)
    | passing pass => exact hstay
  | fetch call => exact hstay
  | check call => exact hstay
  | list call => exact hstay
  | load s => exact hstay
  | refresh s => exact hstay
  | ended result => exact hstay

theorem redates_abandon (hp : p.Within limit) (t : Task) : p.Redates limit (t.abandon p) := by
  obtain ⟨id, cancelled, job⟩ := t
  cases job with
  | load s => exact .of_eq rfl rfl rfl rfl rfl
  | refresh s => exact Pass.redates_abandon hp s
  | poll s =>
    obtain ⟨period, nextTick, idle | lookingUp | pass⟩ := s
    · exact .refl limit p
    · exact .refl limit p
    · exact Pass.redates_abandon hp pass
  | fetch call => exact .refl limit p
  | check call => exact .refl limit p
  | list call => exact .refl limit p
  | rediscover => exact .refl limit p
  | ended result => exact .refl limit p

end Task

end ReplicatedConfig
