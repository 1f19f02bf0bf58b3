import ReplicatedConfig.Engine
import ReplicatedConfig.Proofs.Coherence.Operations

/-!
# Operations of every kind

A first load, a poller and a pass by itself are built from reloads and passes, and so is what
holds of them: where they may stand, whether they are behind, and what their steps lead to.
Calls for a single request, and lookups, have nothing to do with what has been loaded.

Other operations take steps in between.  `Provider.Spares` is what such a step leaves to an
operation, and it is enough for the operation to stand where it stood (`Job.Sound.of_spares`).
-/

namespace ReplicatedConfig

variable {answers : Replies} {me : TaskId} {cancelled : Bool} {p q : Provider} {was now : Prop}

/-! ## What others leave alone -/

/-- What an operation relies on is as it was. -/
structure Provider.Spares (me : TaskId) (p q : Provider) : Prop where
  rules : p.SameRules q
  loaded : p.loaded = true → q.loaded = true
  holds : p.lock.holder = some me → q.lock.holder = some me

theorem Provider.Advances.spares (h : p.Advances me was q now) {other : TaskId} (hne : other ≠ me) :
    p.Spares other q :=
  ⟨h.rules, h.loaded, h.yields other hne⟩

theorem Provider.Alike.spares (h : p.Alike q) (me : TaskId) : p.Spares me q :=
  ⟨h.sameRules, h.loaded.trans, (congrArg Lock.holder h.lock).trans⟩

theorem Merge.Sound.of_spares {m : Merge} (h : m.Sound me p) (hq : p.Spares me q) :
    m.Sound me q := by
  cases m with
  | waiting changes fs =>
    refine ⟨hq.loaded h.1, ?_⟩
    rw [hq.rules.identities]
    exact h.2
  | adapting place s rest n fs =>
    obtain ⟨hloaded, hholds, checked, hfits⟩ := h
    refine ⟨hq.loaded hloaded, hq.holds hholds, checked, ?_⟩
    rw [hq.rules.identities]
    exact hfits

theorem Pass.Sound.of_spares {s : Pass} (h : s.Sound answers me p) (hq : p.Spares me q) :
    s.Sound answers me q := by
  cases s with
  | loading r => exact Reload.Sound.of_sameRules h hq.rules
  | checking checks =>
    obtain ⟨hloaded, places, hplaces, hrange, hchecks⟩ := h
    rw [← hq.rules.identities] at hrange hchecks
    exact ⟨hq.loaded hloaded, places, hplaces, hrange, hchecks.of_ready (.inl trivial)⟩
  | reloading f r =>
    obtain ⟨hloaded, hfits, hsound⟩ := h
    rw [← hq.rules.identities] at hfits
    exact ⟨hq.loaded hloaded, hfits, hsound.of_sameRules hq.rules⟩
  | merging f m => exact Merge.Sound.of_spares h hq

/-! ## First loads and pollers -/

namespace Startup

/-- Where a first load may stand. -/
def Sound (answers : Replies) (p : Provider) (s : Startup) : Prop :=
  match s.phase with
  | .inl r => r.Sound answers p
  | .inr _ => True

/-- A step leads a first load to where it may stand, or to its end. -/
abbrev Fares (answers : Replies) (me : TaskId) (p : Provider) : Step → Prop :=
  p.Fares (fun _ => False) (fun q s => s.Sound answers q) me False

theorem fares_finish (hp : p.Coherent) (result : Except ProviderError Unit) :
    Fares answers me p (finish p result) := by
  cases result <;> exact .refl hp

theorem fares_tried {x : Reload.Step} {deadline : Instant} {tries : Nat}
    (h : Reload.Fares answers me p x) : Fares answers me p (tried x.1 deadline tries x.2) := by
  obtain ⟨q, r | result⟩ := x
  · exact h
  · have hq : p.Advances me False q False := h
    cases result with
    | ok u => exact .of_advances hq (fares_finish hq.coherent (.ok ()))
    | error e =>
      simp only [tried]
      split
      · split
        · exact .of_advances hq (fares_finish hq.coherent _)
        · exact ⟨hq, trivial⟩
      · exact .of_advances hq (fares_finish hq.coherent _)

theorem fares_begin (named : answers.Named) (hp : p.Coherent) :
    Fares answers me p (begin me cancelled p) :=
  fares_tried (Reload.fares_begin named hp)

theorem fares_handle (named : answers.Named) (hp : p.Coherent) {s : Startup}
    (h : s.Sound answers p) {i : Input}
    (admitted : ∀ r, s.phase = .inl r → i.Admitted answers (r.waits me p)) :
    Fares answers me p (s.handle me cancelled p i) := by
  obtain ⟨deadline, tries, r | wake⟩ := s
  · exact fares_tried (Reload.fares_handle named hp h (admitted r rfl))
  · have hstay : Fares answers me p (p, .running ⟨deadline, tries, .inr wake⟩) :=
      ⟨.refl hp, trivial⟩
    cases i with
    | answered ticket reply => exact hstay
    | fallback serial => exact hstay
    | cancelled => exact fares_finish hp (.error .cancelled)
    | resumed => exact hstay
    | woke =>
      simp only [handle]
      split
      · exact fares_tried (Reload.fares_begin named hp)
      · exact hstay

end Startup

namespace Poller

/-- Where a poller may stand. -/
def Sound (answers : Replies) (me : TaskId) (p : Provider) (s : Poller) : Prop :=
  match s.doing with
  | .passing pass => pass.Sound answers me p
  | _ => True

/-- Whether a poller is behind. -/
def Behind (s : Poller) : Prop :=
  match s.doing with
  | .passing pass => pass.Behind
  | _ => False

/-- A step leads a poller to where it may stand, or to its end. -/
def Fares (answers : Replies) (me : TaskId) (p : Provider) (was : Prop) : Step → Prop
  | (q, some s) => p.Advances me was q s.Behind ∧ s.Sound answers me q
  | (q, none) => p.Advances me was q False

theorem Fares.of_advances {x : Step} (hq : p.Advances me was q now)
    (h : Fares answers me q now x) : Fares answers me p was x := by
  obtain ⟨r, s | s⟩ := x
  · exact hq.trans h
  · exact ⟨hq.trans h.1, h.2⟩

theorem fares_passed {s : Poller} {x : Pass.Step} (h : Pass.Fares answers me p was x) :
    Fares answers me p was (passed cancelled x.1 s x.2) := by
  obtain ⟨q, pass | result⟩ := x
  · exact h
  · simp only [passed]
    split
    · exact h
    · exact ⟨h, trivial⟩

theorem fares_startPass (named : answers.Named) (hp : p.Coherent) {s : Poller} :
    Fares answers me p False (startPass me cancelled p s) :=
  fares_passed (Pass.fares_begin named hp)

/-- Another pool makes no difference to what has been loaded. -/
theorem advances_pool (hp : p.Coherent) (pool : Pool) :
    p.Advances me False { p with pool } False :=
  .of_alike hp ⟨rfl, rfl, rfl, rfl, rfl, rfl, rfl⟩

theorem fares_handle (named : answers.Named) (hp : p.Coherent) {s : Poller}
    (h : s.Sound answers me p) {i : Input}
    (admitted : ∀ pass, s.doing = .passing pass → i.Admitted answers (pass.waits me p)) :
    Fares answers me p s.Behind (s.handle me cancelled p i) := by
  obtain ⟨period, nextTick, doing⟩ := s
  cases doing with
  | idle =>
    have hstay : Fares answers me p False (p, some ⟨period, nextTick, .idle⟩) :=
      ⟨.refl hp, trivial⟩
    cases i with
    | answered ticket reply => exact hstay
    | fallback serial => exact hstay
    | cancelled => exact .refl hp
    | resumed => exact hstay
    | woke =>
      simp only [handle, tick]
      split
      · split
        · exact ⟨advances_pool hp _, trivial⟩
        · exact fares_startPass named hp
      · exact hstay
  | lookingUp =>
    have hstay : Fares answers me p False (p, some ⟨period, nextTick, .lookingUp⟩) :=
      ⟨.refl hp, trivial⟩
    cases i <;> exact hstay
  | passing pass => exact fares_passed (Pass.fares_handle named hp h (admitted pass rfl))

theorem fares_lookedUp (named : answers.Named) (hp : p.Coherent) {s : Poller}
    (h : s.Sound answers me p) (refusals : Refusals) (found : Option (List Endpoint)) :
    Fares answers me p s.Behind (s.lookedUp me cancelled p refusals found) := by
  obtain ⟨period, nextTick, doing⟩ := s
  cases doing with
  | idle => exact ⟨.refl hp, trivial⟩
  | lookingUp =>
    have hpool : p.Advances me False _ False :=
      advances_pool hp (p.pool.applyLookup refusals found p.now).1
    exact .of_advances hpool (fares_startPass named hpool.coherent)
  | passing pass => exact ⟨.refl hp, h⟩

end Poller

/-! ## Operations of any kind -/

namespace Job

/-- Where an operation may stand. -/
def Sound (answers : Replies) (me : TaskId) (p : Provider) : Job → Prop
  | .load s => s.Sound answers p
  | .refresh s => s.Sound answers me p
  | .poll s => s.Sound answers me p
  | _ => True

/-- Whether an operation has noted changes that it has not published. -/
def Behind : Job → Prop
  | .refresh s => s.Behind
  | .poll s => s.Behind
  | _ => False

/-- An operation that is behind has the lock. -/
theorem Behind.holds {job : Job} (h : job.Behind) (hsound : job.Sound answers me p) :
    p.lock.holder = some me := by
  have hpass {s : Pass} (h : s.Behind) (hsound : s.Sound answers me p) :
      p.lock.holder = some me := by
    cases s with
    | loading r => exact h.elim
    | checking checks => exact h.elim
    | reloading f r => exact h.elim
    | merging f m =>
      cases m with
      | waiting changes fs => exact h.elim
      | adapting place s rest n fs => exact hsound.2.1
  cases job with
  | refresh s => exact hpass h hsound
  | poll s =>
    obtain ⟨period, nextTick, doing⟩ := s
    cases doing with
    | idle => exact h.elim
    | lookingUp => exact h.elim
    | passing pass => exact hpass h hsound
  | fetch call => exact h.elim
  | check call => exact h.elim
  | list call => exact h.elim
  | load s => exact h.elim
  | rediscover => exact h.elim
  | ended result => exact h.elim

theorem Sound.of_spares {job : Job} (h : job.Sound answers me p) (hq : p.Spares me q) :
    job.Sound answers me q := by
  cases job with
  | load s =>
    obtain ⟨deadline, tries, r | wake⟩ := s
    · exact Reload.Sound.of_sameRules h hq.rules
    · trivial
  | refresh s => exact Pass.Sound.of_spares h hq
  | poll s =>
    obtain ⟨period, nextTick, doing⟩ := s
    cases doing with
    | idle => trivial
    | lookingUp => trivial
    | passing pass => exact Pass.Sound.of_spares h hq
  | fetch call => trivial
  | check call => trivial
  | list call => trivial
  | rediscover => trivial
  | ended result => trivial

end Job

namespace Task

/-- A step leads an operation to where it may stand, and advances the provider. -/
def Fares (answers : Replies) (me : TaskId) (p : Provider) (was : Prop) (x : Provider × Job) : Prop :=
  p.Advances me was x.1 x.2.Behind ∧ x.2.Sound answers me x.1

theorem fares_ofProgress {σ α : Type} {wait : Call σ → Job}
    {done : Except FailoverError (α × Member) → Result} {x : Provider × Progress σ α}
    (hp : p.Coherent) (called : p.Called x.1)
    (hwait : ∀ q call, p.Advances me False q False → Fares answers me p False (q, wait call)) :
    Fares answers me p False (ofProgress wait done x) := by
  obtain ⟨q, call | r⟩ := x
  · exact hwait q call (.of_alike hp called.alike)
  · exact ⟨.of_alike hp called.alike, trivial⟩

theorem fares_ofLoad {x : Startup.Step} (h : Startup.Fares answers me p x) :
    Fares answers me p False (ofLoad x) := by
  obtain ⟨q, s | r⟩ := x
  · exact h
  · exact ⟨h, trivial⟩

theorem fares_ofPass {x : Pass.Step} (h : Pass.Fares answers me p was x) :
    Fares answers me p was (ofPass x) := by
  obtain ⟨q, s | r⟩ := x
  · exact h
  · exact ⟨h, trivial⟩

theorem fares_ofPoll {x : Poller.Step} (h : Poller.Fares answers me p was x) :
    Fares answers me p was (ofPoll x) := by
  obtain ⟨q, s | s⟩ := x
  · exact ⟨h, trivial⟩
  · exact h

theorem fares_begin (named : answers.Named) (hp : p.Coherent) (op : Operation) :
    Fares answers me p False (begin me cancelled p op) := by
  cases op with
  | fetch i => exact fares_ofProgress hp (p.called_openCall _ _ _) fun _ _ h => ⟨h, trivial⟩
  | check i known => exact fares_ofProgress hp (p.called_openCall _ _ _) fun _ _ h => ⟨h, trivial⟩
  | list selectors => exact fares_ofProgress hp (p.called_openCall _ _ _) fun _ _ h => ⟨h, trivial⟩
  | load => exact fares_ofLoad (Startup.fares_begin named hp)
  | refresh => exact fares_ofPass (Pass.fares_begin named hp)
  | rediscover =>
    simp only [begin]
    split
    · exact ⟨Poller.advances_pool hp _, trivial⟩
    · exact ⟨.refl hp, trivial⟩
  | poll period =>
    simp only [begin]
    split
    · exact ⟨.refl hp, trivial⟩
    · exact ⟨.refl hp, trivial⟩

theorem fares_handle (named : answers.Named) (hp : p.Coherent) {t : Task}
    (h : t.job.Sound answers t.id p) {i : Input} (admitted : i.Admitted answers (t.waits p)) :
    Fares answers t.id p t.job.Behind (t.handle p i) := by
  obtain ⟨id, given, job⟩ := t
  cases job with
  | fetch call => exact fares_ofProgress hp (p.called_drive _ _ _) fun _ _ h => ⟨h, trivial⟩
  | check call => exact fares_ofProgress hp (p.called_drive _ _ _) fun _ _ h => ⟨h, trivial⟩
  | list call => exact fares_ofProgress hp (p.called_drive _ _ _) fun _ _ h => ⟨h, trivial⟩
  | load s =>
    refine fares_ofLoad (Startup.fares_handle named hp h fun r hr => ?_)
    simp only [waits, hr] at admitted
    exact admitted
  | refresh s => exact fares_ofPass (Pass.fares_handle named hp h admitted)
  | rediscover => exact ⟨.refl hp, trivial⟩
  | poll s =>
    refine fares_ofPoll (Poller.fares_handle named hp h fun pass hpass => ?_)
    simp only [waits, hpass] at admitted
    exact admitted
  | ended result => exact ⟨.refl hp, trivial⟩

theorem fares_lookedUp (named : answers.Named) (hp : p.Coherent) {t : Task}
    (h : t.job.Sound answers t.id p) (refusals : Refusals) (found : Option (List Endpoint)) :
    Fares answers t.id p t.job.Behind (t.lookedUp p refusals found) := by
  obtain ⟨id, given, job⟩ := t
  have hstay : Fares answers id p job.Behind (p, job) := ⟨.refl hp, h⟩
  cases job with
  | rediscover => exact ⟨Poller.advances_pool hp _, trivial⟩
  | poll s => exact fares_ofPoll (Poller.fares_lookedUp named hp h refusals found)
  | fetch call => exact hstay
  | check call => exact hstay
  | list call => exact hstay
  | load s => exact hstay
  | refresh s => exact hstay
  | ended result => exact hstay

/-- Which replies an operation waits for does not depend on the provider. -/
theorem reply_mem_waits {t : Task} {o : Outstanding} (p q : Provider)
    (h : Wait.reply o ∈ t.waits q) : Wait.reply o ∈ t.waits p := by
  have hready {b : Bool} : Wait.reply o ∉ if b = true then [Wait.ready] else [] := by
    cases b <;> simp
  have hreload {r : Reload} (h : Wait.reply o ∈ r.waits t.id q) : Wait.reply o ∈ r.waits t.id p := by
    cases r with
    | waiting => exact absurd h hready
    | listing call => exact h
    | fetching watched places raw call => exact h
    | adapting watched s rest previous done => exact h
  have hpass {s : Pass} (h : Wait.reply o ∈ s.waits t.id q) : Wait.reply o ∈ s.waits t.id p := by
    cases s with
    | loading r => exact hreload h
    | checking checks => exact h
    | reloading f r => exact hreload h
    | merging f m =>
      cases m with
      | waiting changes fs => exact absurd h hready
      | adapting place s rest n fs => exact h
  obtain ⟨id, given, job⟩ := t
  cases job with
  | load s =>
    obtain ⟨deadline, tries, r | wake⟩ := s
    · exact hreload h
    · exact h
  | refresh s => exact hpass h
  | poll s =>
    obtain ⟨period, nextTick, doing⟩ := s
    cases doing with
    | idle => exact h
    | lookingUp => exact h
    | passing pass => exact hpass h
  | fetch call => exact h
  | check call => exact h
  | list call => exact h
  | rediscover => exact h
  | ended result => exact h

theorem admitted_of_admitted {t : Task} {i : Input} (p q : Provider)
    (h : i.Admitted answers (t.waits p)) : i.Admitted answers (t.waits q) := by
  cases i with
  | answered ticket reply => exact fun o ho => h o (reply_mem_waits p q ho)
  | fallback serial => trivial
  | cancelled => trivial
  | resumed => trivial
  | woke => trivial

/-- Dropping an operation leaves what has been loaded as it is. -/
theorem advances_abandon (hp : p.Coherent) (t : Task) :
    p.Advances t.id t.job.Behind (t.abandon p) t.job.Behind := by
  obtain ⟨id, given, job⟩ := t
  cases job with
  | load s => exact .release hp
  | refresh s => exact Pass.advances_abandon hp s
  | poll s =>
    obtain ⟨period, nextTick, doing⟩ := s
    cases doing with
    | idle => exact .refl hp
    | lookingUp => exact .refl hp
    | passing pass => exact Pass.advances_abandon hp pass
  | fetch call => exact .refl hp
  | check call => exact .refl hp
  | list call => exact .refl hp
  | rediscover => exact .refl hp
  | ended result => exact .refl hp

end Task
end ReplicatedConfig
