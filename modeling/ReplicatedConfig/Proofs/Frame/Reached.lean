import ReplicatedConfig.Proofs.Frame.Steps
import ReplicatedConfig.Proofs.Refusals.Reached

/-!
# The snapshot wherever the engine comes

What one step of a pass or a reload upholds (`Provider.Upholds`) is upheld by every event of the
engine, and so by every run.  It does not matter which names are watched and when, who gives up, and
what replicas say.

One kind of event has to be left out for the snapshot (`Engine.Spares`): an operation is dropped
while it is behind.  Nobody would publish what it has noted, and the next merge would, so keys that
it does not touch would get other values.  Entries and tokens do not suffer from that.  To drop an
operation anywhere else does no harm, nor does it to give one up anywhere.

An operation that is behind has the lock.  So where another operation gets the lock, the snapshot
shows what is loaded (`Grants.shows`).
-/

namespace ReplicatedConfig

variable {answers : Replies} {noted : Nat → Prop} {me : TaskId} {cancelled : Bool} {p q : Provider}
  {was now : Prop}

/-! ## First loads -/

namespace Startup

/-- A first load is never behind. -/
abbrev Upkeep (me : TaskId) (p : Provider) : Step → Prop := p.Upkeep (fun _ => False) me False

theorem upkeep_finish (result : Except ProviderError Unit) : Upkeep me p (finish p result) := by
  cases result <;> exact Provider.Upholds.refl me False p

theorem upkeep_tried {x : Reload.Step} {deadline : Instant} {tries : Nat}
    (hx : Reload.Upkeep me p x) : Upkeep me p (tried x.1 deadline tries x.2) := by
  obtain ⟨q, r | result⟩ := x
  · exact hx
  · have hq : p.Upholds me False q False := hx
    refine .of_upholds hq ?_
    cases result with
    | ok u => exact upkeep_finish (.ok ())
    | error e =>
      simp only [tried]
      split
      · split
        · exact upkeep_finish _
        · exact Provider.Upholds.refl me False q
      · exact upkeep_finish _

theorem upkeep_handle {s : Startup} (hs : s.Stands answers noted me p) {i : Input}
    (admitted : ∀ r, s.phase = .inl r → i.Admitted answers (r.waits me p)) :
    Upkeep me p (s.handle me cancelled p i) := by
  obtain ⟨deadline, tries, r | wake⟩ := s
  · exact upkeep_tried (Reload.upkeep_handle hs (admitted r rfl))
  · have hstay : Upkeep me p (p, .running ⟨deadline, tries, .inr wake⟩) :=
      Provider.Upholds.refl me False p
    cases i with
    | answered ticket reply => exact hstay
    | fallback serial => exact hstay
    | cancelled => exact upkeep_finish (.error .cancelled)
    | resumed => exact hstay
    | woke =>
      simp only [handle]
      split
      · exact upkeep_tried Reload.upkeep_begin
      · exact hstay

end Startup

/-! ## Pollers -/

namespace Poller

/-- A step of a poller. -/
def Upkeep (me : TaskId) (p : Provider) (was : Prop) : Step → Prop
  | (q, some s) => p.Upholds me was q s.Behind
  | (q, none) => p.Upholds me was q False

theorem upkeep_passed {s : Poller} {x : Pass.Step} (hx : Pass.Upkeep me p was x) :
    Upkeep me p was (passed cancelled x.1 s x.2) := by
  obtain ⟨q, pass | result⟩ := x
  · exact hx
  · simp only [passed]
    split
    · exact hx
    · exact hx

/-- Another pool makes no difference to what is loaded or published. -/
theorem upholds_pool (p : Provider) (pool : Pool) : p.Upholds me False { p with pool } False :=
  .of_same rfl rfl (fun _ => rfl) rfl fun _ _ => id

theorem upkeep_handle (named : answers.Named) (hp : p.Founded noted) {s : Poller}
    (hs : s.Stands answers noted me p) {i : Input}
    (admitted : ∀ pass, s.doing = .passing pass → i.Admitted answers (pass.waits me p)) :
    Upkeep me p s.Behind (s.handle me cancelled p i) := by
  obtain ⟨period, nextTick, doing⟩ := s
  cases doing with
  | idle =>
    have hstay : p.Upholds me False p False := .refl me False p
    cases i with
    | answered ticket reply => exact hstay
    | fallback serial => exact hstay
    | cancelled => exact hstay
    | resumed => exact hstay
    | woke =>
      simp only [handle, tick]
      split
      · split
        · exact upholds_pool p _
        · exact upkeep_passed Pass.upkeep_begin
      · exact hstay
  | lookingUp =>
    have hstay : p.Upholds me False p False := .refl me False p
    cases i <;> exact hstay
  | passing pass => exact upkeep_passed (Pass.upkeep_handle named hp hs (admitted pass rfl))

theorem upkeep_lookedUp (s : Poller) (refusals : Refusals) (found : Option (List Endpoint)) :
    Upkeep me p s.Behind (s.lookedUp me cancelled p refusals found) := by
  obtain ⟨period, nextTick, doing⟩ := s
  cases doing with
  | idle => exact Provider.Upholds.refl me False p
  | lookingUp =>
    have hpool : p.Upholds me False _ False :=
      upholds_pool p (p.pool.applyLookup refusals found p.now).1
    exact upkeep_passed (.of_upholds hpool Pass.upkeep_begin)
  | passing pass => exact Provider.Upholds.refl me pass.Behind p

end Poller

/-! ## Operations of any kind -/

/-- An operation that is behind has the lock. -/
theorem Job.Behind.holder {job : Job} (h : job.Behind) (hjob : job.Stands answers noted me p) :
    p.lock.holder = some me := by
  have hpass {s : Pass} (h : s.Behind) (hs : s.Stands answers noted me p) :
      p.lock.holder = some me := by
    cases s with
    | loading r => exact h.elim
    | checking checks => exact h.elim
    | reloading f r => exact h.elim
    | merging f m =>
      cases m with
      | waiting changes fs => exact h.elim
      | adapting place s rest n fs => exact hs.2.1
  cases job with
  | refresh s => exact hpass h hjob
  | poll s =>
    obtain ⟨period, nextTick, doing⟩ := s
    cases doing with
    | idle => exact h.elim
    | lookingUp => exact h.elim
    | passing pass => exact hpass h hjob
  | fetch call => exact h.elim
  | check call => exact h.elim
  | list call => exact h.elim
  | load s => exact h.elim
  | rediscover => exact h.elim
  | ended result => exact h.elim

namespace Task

/-- A step of an operation. -/
def Upkeep (me : TaskId) (p : Provider) (was : Prop) (x : Provider × Job) : Prop :=
  p.Upholds me was x.1 x.2.Behind

theorem upkeep_ofProgress {σ α : Type} {wait : Call σ → Job}
    {done : Except FailoverError (α × Member) → Result} {x : Provider × Progress σ α}
    (called : p.Called x.1) : Upkeep me p False (ofProgress wait done x) := by
  obtain ⟨q, call | r⟩ := x
  · have hq : p.Upholds me False q False := .called me False called
    exact hq.imp False.elim
  · exact .called me False called

theorem upkeep_ofLoad {x : Startup.Step} (hx : Startup.Upkeep me p x) :
    Upkeep me p False (ofLoad x) := by
  obtain ⟨q, s | r⟩ := x
  · exact hx
  · exact hx

theorem upkeep_ofPass {x : Pass.Step} (hx : Pass.Upkeep me p was x) :
    Upkeep me p was (ofPass x) := by
  obtain ⟨q, s | r⟩ := x
  · exact hx
  · exact hx

theorem upkeep_ofPoll {x : Poller.Step} (hx : Poller.Upkeep me p was x) :
    Upkeep me p was (ofPoll x) := by
  obtain ⟨q, s | s⟩ := x
  · exact hx
  · exact hx

theorem upkeep_begin (op : Operation) : Upkeep me p False (begin me cancelled p op) := by
  cases op with
  | fetch i => exact upkeep_ofProgress (p.called_openCall _ _ _)
  | check i known => exact upkeep_ofProgress (p.called_openCall _ _ _)
  | list selectors => exact upkeep_ofProgress (p.called_openCall _ _ _)
  | load => exact upkeep_ofLoad (Startup.upkeep_tried Reload.upkeep_begin)
  | refresh => exact upkeep_ofPass Pass.upkeep_begin
  | rediscover =>
    simp only [begin]
    split
    · exact Poller.upholds_pool p _
    · exact Provider.Upholds.refl me False p
  | poll period =>
    simp only [begin]
    split
    · exact Provider.Upholds.refl me False p
    · exact Provider.Upholds.refl me False p

/-- **A step of an operation**, whatever reaches it. -/
theorem upkeep_handle (named : answers.Named) (hp : p.Founded noted) {t : Task}
    (ht : t.job.Stands answers noted t.id p) {i : Input}
    (admitted : i.Admitted answers (t.waits p)) :
    Upkeep t.id p t.job.Behind (t.handle p i) := by
  obtain ⟨id, given, job⟩ := t
  cases job with
  | fetch call => exact upkeep_ofProgress (p.called_drive _ _ _)
  | check call => exact upkeep_ofProgress (p.called_drive _ _ _)
  | list call => exact upkeep_ofProgress (p.called_drive _ _ _)
  | load s =>
    refine upkeep_ofLoad (Startup.upkeep_handle ht fun r hr => ?_)
    simp only [waits, hr] at admitted
    exact admitted
  | refresh s => exact upkeep_ofPass (Pass.upkeep_handle named hp ht admitted)
  | rediscover => exact Provider.Upholds.refl _ _ p
  | poll s =>
    refine upkeep_ofPoll (Poller.upkeep_handle named hp ht fun pass hpass => ?_)
    simp only [waits, hpass] at admitted
    exact admitted
  | ended result => exact Provider.Upholds.refl _ _ p

/-- To an operation that has the lock, a step of another one does no more than it may. -/
theorem respects_handle (named : answers.Named) (hp : p.Founded noted) {t : Task}
    (ht : t.job.Stands answers noted t.id p) {i : Input}
    (admitted : i.Admitted answers (t.waits p)) (hne : me ≠ t.id) :
    p.Respects me (t.handle p i).1 :=
  have hupholds : p.Upholds t.id t.job.Behind (t.handle p i).1 _ := upkeep_handle named hp ht admitted
  hupholds.respects (minding_handle named hp ht admitted).1 hne

theorem upkeep_lookedUp (t : Task) (refusals : Refusals) (found : Option (List Endpoint)) :
    Upkeep t.id p t.job.Behind (t.lookedUp p refusals found) := by
  obtain ⟨id, given, job⟩ := t
  cases job with
  | rediscover => exact Poller.upholds_pool p _
  | poll s => exact upkeep_ofPoll (Poller.upkeep_lookedUp s refusals found)
  | fetch call => exact Provider.Upholds.refl _ _ p
  | check call => exact Provider.Upholds.refl _ _ p
  | list call => exact Provider.Upholds.refl _ _ p
  | load s => exact Provider.Upholds.refl _ _ p
  | refresh s => exact Provider.Upholds.refl _ _ p
  | ended result => exact Provider.Upholds.refl _ _ p

theorem upholds_abandon (t : Task) : p.Upholds t.id t.job.Behind (t.abandon p) t.job.Behind := by
  obtain ⟨id, given, job⟩ := t
  cases job with
  | load s => exact .release id _ p
  | refresh s => exact Pass.upholds_abandon s
  | poll s =>
    obtain ⟨period, nextTick, doing⟩ := s
    cases doing with
    | idle => exact .refl id _ p
    | lookingUp => exact .refl id _ p
    | passing pass => exact Pass.upholds_abandon pass
  | fetch call => exact .refl id _ p
  | check call => exact .refl id _ p
  | list call => exact .refl id _ p
  | rediscover => exact .refl id _ p
  | ended result => exact .refl id _ p

end Task

/-! ## Side by side -/

/-- A name that comes to be watched has no token. -/
theorem Provider.Rooted.watch (hp : p.Rooted) {request : WatchRequest} (hq : p.watch request = .ok q)
    (names : p.watchList.identities <+: q.watchList.identities) : q.Rooted := by
  obtain ⟨l, new, hl, rfl⟩ := exists_register_of_watch hq
  intro place i hplace absent
  refine (WatchList.token_register hl place).trans ?_
  cases hthere : p.watchList.identities[place]? with
  | none => exact tokenAt_of_length_le (List.getElem?_eq_none_iff.1 hthere)
  | some j =>
    obtain rfl : j = i := Option.some.inj ((getElem?_of_isPrefix names hthere).symm.trans hplace)
    exact hp place j hthere absent

namespace Engine

variable {e : Engine} {tasks tasks' before after : List Task} {t : Task} {id : TaskId} {spares : Prop}

/-- The snapshot shows what is loaded, or an operation is behind. -/
def Shown (p : Provider) (tasks : List Task) : Prop := p.Shows ∨ ∃ t ∈ tasks, t.job.Behind

/-- Nobody is dropped while it is behind. -/
def Spares (e : Engine) : Event → Prop
  | .abandon id => ∀ t ∈ e.tasks, t.id = id → ¬ t.job.Behind
  | _ => True

/-- Events of which none drops an operation that is behind. -/
def SparesAll : Engine → List Event → Prop
  | _, [] => True
  | e, event :: rest => e.Spares event ∧ SparesAll (e.handle event) rest

/-- What happens to a provider and the operations on it upholds what holds of them. -/
structure Upholds (spares : Prop) (p : Provider) (tasks : List Task) (q : Provider)
    (tasks' : List Task) : Prop where
  rooted : p.Rooted → q.Rooted
  shown : spares → Shown p tasks → Shown q tasks'

namespace Upholds

theorem refl : Upholds spares p tasks p tasks := ⟨id, fun _ => id⟩

theorem trans {r : Provider} {tasks'' : List Task} (hq : Upholds spares p tasks q tasks')
    (hr : Upholds spares q tasks' r tasks'') : Upholds spares p tasks r tasks'' :=
  ⟨hr.rooted ∘ hq.rooted, fun h => hr.shown h ∘ hq.shown h⟩

/-- Nothing that is loaded or published differs. -/
theorem quiet (identities : q.watchList.identities = p.watchList.identities)
    (materialized : q.materialized = p.materialized)
    (tokens : ∀ place, q.tokenAt place = p.tokenAt place)
    (current : q.publisher.current = p.publisher.current) : Upholds spares p tasks q tasks where
  rooted hp := hp.of_same identities materialized tokens
  shown _ := .imp_left fun hp => by
    rw [Provider.Shows, current, materialized]
    exact hp

/-- One of the operations has taken a step.  Either it is behind, and then what its step says
decides, or another one is, which stays where it is. -/
theorem step {x : Provider × Job} (hx : Task.Upkeep t.id p t.job.Behind x) :
    Upholds spares p (before ++ t :: after) x.1 (before ++ { t with job := x.2 } :: after) := by
  have hmem {v u : Task} : u ∈ before ++ v :: after ↔ u = v ∨ u ∈ before ++ after := by
    simp only [List.mem_append, List.mem_cons]
    tauto
  have hnow : x.1.Shows ∨ x.2.Behind → Shown x.1 (before ++ { t with job := x.2 } :: after) :=
    .imp_right fun hbehind => ⟨_, hmem.2 (.inl rfl), hbehind⟩
  refine ⟨hx.rooted, fun _ hshown => ?_⟩
  rcases hshown with hshows | ⟨u, hu, hbehind⟩
  · exact hnow (hx.shown (.inl hshows))
  · rcases hmem.1 hu with rfl | hu
    · exact hnow (hx.shown (.inr hbehind))
    · exact .inr ⟨u, hmem.2 (.inr hu), hbehind⟩

/-- The step of one operation, picked by its number. -/
theorem stepTask (distinct : (e.tasks.map (·.id)).Nodup) {step : Task → Provider → Provider × Job}
    (hstep : ∀ t ∈ e.tasks, Task.Upkeep t.id e.provider t.job.Behind (step t e.provider)) :
    Upholds spares e.provider e.tasks (e.stepTask id step).provider (e.stepTask id step).tasks := by
  cases hfind : e.task? id with
  | none =>
    unfold Engine.stepTask
    rw [hfind]
    exact .refl
  | some t =>
    obtain ⟨-, before, after, htasks⟩ := exists_split hfind
    rw [stepTask_of_split distinct hfind htasks step, htasks]
    exact .step (hstep t (List.mem_of_find?_eq_some hfind))

/-- An input that needs no reply reaches one operation. -/
theorem resume (named : answers.Named) (he : Founded answers noted e.provider e.tasks)
    {i : Input} (hi : ∀ waits, i.Admitted answers waits) :
    Upholds spares e.provider e.tasks (e.stepTask id fun t p => t.handle p i).provider
      (e.stepTask id fun t p => t.handle p i).tasks :=
  .stepTask he.distinct fun t ht => Task.upkeep_handle named he.provider (he.stands t ht) (hi _)

/-- An input that reaches every operation: those before have taken their steps. -/
theorem driveAll (named : answers.Named) {i : Input} (before : List Task)
    (he : Founded answers noted p (before ++ tasks))
    (admitted : ∀ t ∈ tasks, i.Admitted answers (t.waits p)) :
    Upholds spares p (before ++ tasks) (Engine.driveAll i p tasks).1
      (before ++ (Engine.driveAll i p tasks).2) := by
  -- The induction is on the operations that have not stepped yet.
  induction tasks generalizing p before with
  | nil => exact .refl
  | cons t rest ih =>
    have hstands := he.stands t (List.mem_append_right _ List.mem_cons_self)
    have hadmitted := admitted t List.mem_cons_self
    have hstep : Upholds spares p (before ++ t :: rest) _ (before ++ _ :: rest) :=
      .step (Task.upkeep_handle named he.provider hstands hadmitted)
    have hfounded := he.step (Task.minding_handle named he.provider hstands hadmitted)
    rw [List.append_cons] at hfounded
    have hrest := ih _ hfounded fun u hu =>
      Task.admitted_of_admitted p _ (admitted u (List.mem_cons_of_mem _ hu))
    rw [← List.append_cons, ← List.append_cons] at hrest
    exact hstep.trans hrest

/-- An operation has started. -/
theorem start {x : Provider × Job} (hx : Task.Upkeep id p False x) :
    Upholds spares p tasks x.1 (tasks ++ [⟨id, cancelled, x.2⟩]) := by
  refine ⟨hx.rooted, fun _ hshown => ?_⟩
  rcases hshown with hshows | ⟨u, hu, hbehind⟩
  · refine (hx.shown (.inl hshows)).imp_right fun hbehind => ?_
    exact ⟨_, List.mem_append_right _ List.mem_cons_self, hbehind⟩
  · exact .inr ⟨u, List.mem_append_left _ hu, hbehind⟩

/-- An operation has been dropped.  This is the one step for which it matters whether it was
behind. -/
theorem drop (hspares : spares → ∀ u ∈ tasks, u.id = id → ¬ u.job.Behind)
    (hq : p.Upholds id was q was) (hwas : spares → ¬ was) :
    Upholds spares p tasks q (tasks.filter (·.id ≠ id)) := by
  refine ⟨hq.rooted, fun h hshown => ?_⟩
  rcases hshown with hshows | ⟨u, hu, hbehind⟩
  · exact (hq.shown (.inl hshows)).imp_right fun hwas' => absurd hwas' (hwas h)
  · have hne : u.id ≠ id := fun hid => hspares h u hu hid hbehind
    exact .inr ⟨u, List.mem_filter.2 ⟨hu, decide_eq_true hne⟩, hbehind⟩

/-- Noting that an operation has been given up. -/
theorem markCancelled (e : Engine) (id : TaskId) :
    Upholds spares e.provider e.tasks (e.markCancelled id).provider (e.markCancelled id).tasks := by
  refine ⟨fun hp => hp, fun _ => .imp_right fun ⟨t, ht, hbehind⟩ => ?_⟩
  refine ⟨_, List.mem_map_of_mem ht, ?_⟩
  split <;> exact hbehind

end Upholds

/-- **Every event upholds it.** -/
theorem upholds_handle (named : answers.Named) (he : Founded answers noted e.provider e.tasks)
    {event : Event} (hears : e.Hears answers event) :
    Upholds (e.Spares event) e.provider e.tasks (e.handle event).provider (e.handle event).tasks := by
  cases event with
  | start id op cancelled =>
    simp only [Engine.handle]
    split
    · exact .refl
    · exact .start (Task.upkeep_begin op)
  | cancel id =>
    exact (Upholds.markCancelled e id).trans (.resume named (he.markCancelled id) fun _ => trivial)
  | abandon id =>
    simp only [Engine.handle]
    cases hfind : e.task? id with
    | none => exact .refl
    | some t =>
      obtain ⟨rfl, -⟩ := exists_split hfind
      have ht := List.mem_of_find?_eq_some hfind
      exact .drop id (Task.upholds_abandon t) fun hspares => hspares t ht rfl
  | resume id => exact .resume named he fun _ => trivial
  | answer ticket reply => exact .driveAll named [] he hears
  | fallback call => exact .driveAll named [] he fun _ _ => trivial
  | wake id => exact .resume named he fun _ => trivial
  | lookedUp id refusals found =>
    exact .stepTask he.distinct fun t _ => Task.upkeep_lookedUp t refusals found
  | advance d => exact .quiet rfl rfl (fun _ => rfl) rfl
  | drew d => exact .quiet rfl rfl (fun _ => rfl) rfl
  | watch r =>
    simp only [Engine.handle, Engine.update]
    split
    · next q hq =>
      obtain ⟨-, names, -⟩ := he.provider.watch hq
      refine ⟨fun hp => hp.watch hq names, fun _ => ?_⟩
      obtain ⟨l, place, -, rfl⟩ := Provider.exists_register_of_watch hq
      exact id
    · exact .refl
  | setDirty most draws =>
    have hknown := WatchList.known_setDirty e.provider.watchList e.provider.now most draws
    exact .quiet (WatchList.identities_of_known hknown) rfl (Provider.tokenAt_of_known hknown) rfl
  | configure c => exact .quiet rfl rfl (fun _ => rfl) rfl
  | replaceFound refusals found =>
    simp only [Engine.handle, Engine.update]
    split
    · exact .quiet rfl rfl (fun _ => rfl) rfl
    · exact .refl

/-- So does a run. -/
theorem upholds_run (named : answers.Named) {events : List Event} {e : Engine}
    (he : Founded answers noted e.provider e.tasks) (hears : e.HearsAll answers events) :
    Upholds (e.SparesAll events) e.provider e.tasks (e.run events).provider (e.run events).tasks := by
  induction events generalizing e with
  | nil => exact .refl
  | cons event rest ih =>
    have hevent := upholds_handle named he hears.1
    have hrest := ih (he.handle named hears.1) hears.2
    exact ⟨hrest.rooted ∘ hevent.rooted,
      fun spares hshown => hrest.shown spares.2 (hevent.shown spares.1 hshown)⟩

/-! ## Where the lock has been got -/

theorem rooted_of_unloaded (hp : p.Unloaded) : p.Rooted := by
  intro place i hplace _
  obtain ⟨w, hw, -⟩ := WatchList.exists_get?_of_getElem?_identities hplace
  rw [Provider.tokenAt, hw]
  exact hp.tokens w (List.mem_of_getElem? hw)

namespace Grants

variable {b : Provider} {events : List Event}

/-- Between the last event and the lock nothing has been loaded or published. -/
theorem upholds (grants : Grants answers p events me b) :
    ((new p).run events).provider.Upholds me False b False := by
  obtain ⟨q, places, hchecked, hb⟩ := grants.asked
  have hq : Provider.Upholds me _ False q False := .checked me False hchecked
  rcases hb with rfl | rfl | rfl
  · exact hq
  · exact hq.trans (.acquire me False q)
  · exact (hq.trans (.release me False q)).trans (.acquire me False _)

theorem rooted (grants : Grants answers p events me b) (hp : p.Unloaded) (named : answers.Named) :
    b.Rooted := by
  have hrun := upholds_run named (founded_new hp) grants.hears
  exact grants.upholds.rooted (hrun.rooted (rooted_of_unloaded hp))

/-- **Where an operation gets the lock the snapshot shows what is loaded**, as long as nobody has
been dropped while it was behind. -/
theorem shows (grants : Grants answers p events me b) (hp : p.Unloaded) (named : answers.Named)
    (hshows : p.Shows) (spares : (new p).SparesAll events)
    (fresh : ∀ t ∈ ((new p).run events).tasks, t.id = me → ¬ t.job.Behind) : b.Shows := by
  have hfounded := (founded_new hp).run named grants.hears
  have hrun := upholds_run named (founded_new hp) grants.hears
  rcases hrun.shown spares (.inl hshows) with hshows | ⟨t, ht, hbehind⟩
  · exact (grants.upholds.shown (.inl hshows)).resolve_right id
  -- An operation that is behind has the lock, so it would be `me`.
  · have hheld := hbehind.holder (hfounded.stands t ht)
    have hne : t.id ≠ me := fun hid => fresh t ht hid hbehind
    have hb := (grants.upholds.yields t.id hne hheld).1
    exact absurd (Option.some.inj (hb.symm.trans grants.holder)) hne

end Grants
end Engine
end ReplicatedConfig
