import ReplicatedConfig.Proofs.Refusals.Latecomers

/-!
# What holds wherever the engine comes

First loads and pollers are made of reloads and passes, and what is said of their steps is said of
those of reloads and passes.  `Engine.Founded` puts the operations side by side: the provider is
founded, and every operation stands where it may stand.  Every event keeps this (`Founded.handle`),
and so does a run of events (`Founded.run`).

Any event may come at any time: operations may be given up or dropped wherever they are, and names
may be watched for the first time.  Replies may say what they like; it is only assumed of a read
that it brings a setting with the name that was asked for (`Replies.Named`).

`Engine.Grants` is what this is for: the providers from which an operation may go on when it has got
the lock.

## Keys that are noted

The places of which an engine is founded may be chosen at any moment (`Founded.of_notes`).  It
takes a moment at which the token of a key is that of its entry, and at which no reload is under
way: one that has read the watched names before the key was among them would load something under
the name and leave the token behind.  From such a moment on the key stays noted.
-/

namespace ReplicatedConfig

variable {answers : Replies} {noted : Nat → Prop} {me : TaskId} {cancelled : Bool} {p q : Provider}

/-! ## First loads -/

namespace Startup

/-- Where a first load may stand. -/
def Stands (answers : Replies) (noted : Nat → Prop) (me : TaskId) (p : Provider) (s : Startup) :
    Prop :=
  match s.phase with
  | .inl r => r.Stands answers noted me p
  | .inr _ => True

/-- A step of a first load. -/
abbrev Minding (answers : Replies) (noted : Nat → Prop) (me : TaskId) (p : Provider) : Step → Prop :=
  p.Minding (Stands answers noted me) noted me

theorem minding_finish (hp : p.Founded noted) (result : Except ProviderError Unit) :
    Minding answers noted me p (finish p result) := by
  cases result <;> exact Provider.Minds.refl hp

theorem minding_tried {x : Reload.Step} {deadline : Instant} {tries : Nat}
    (hx : Reload.Minding answers noted me p x) :
    Minding answers noted me p (tried x.1 deadline tries x.2) := by
  obtain ⟨q, r | result⟩ := x
  · exact hx
  · have hq : p.Minds noted me q := hx
    refine .of_minds hq ?_
    cases result with
    | ok u => exact minding_finish hq.founded (.ok ())
    | error e =>
      simp only [tried]
      split
      · split
        · exact minding_finish hq.founded _
        · exact ⟨.refl hq.founded, trivial⟩
      · exact minding_finish hq.founded _

theorem minding_handle (named : answers.Named) (hp : p.Founded noted) {s : Startup}
    (hs : s.Stands answers noted me p) {i : Input}
    (admitted : ∀ r, s.phase = .inl r → i.Admitted answers (r.waits me p)) :
    Minding answers noted me p (s.handle me cancelled p i) := by
  obtain ⟨deadline, tries, r | wake⟩ := s
  · exact minding_tried (Reload.minding_handle named hp hs (admitted r rfl))
  · have hstay : Minding answers noted me p (p, .running ⟨deadline, tries, .inr wake⟩) :=
      ⟨.refl hp, trivial⟩
    cases i with
    | answered ticket reply => exact hstay
    | fallback serial => exact hstay
    | cancelled => exact minding_finish hp (.error .cancelled)
    | resumed => exact hstay
    | woke =>
      simp only [handle]
      split
      · exact minding_tried (Reload.minding_begin named hp)
      · exact hstay

end Startup

/-! ## Pollers -/

namespace Poller

/-- Where a poller may stand. -/
def Stands (answers : Replies) (noted : Nat → Prop) (me : TaskId) (p : Provider) (s : Poller) :
    Prop :=
  match s.doing with
  | .passing pass => pass.Stands answers noted me p
  | _ => True

/-- A step of a poller. -/
def Minding (answers : Replies) (noted : Nat → Prop) (me : TaskId) (p : Provider) (x : Step) :
    Prop :=
  p.Minds noted me x.1 ∧ ∀ s, x.2 = some s → s.Stands answers noted me x.1

theorem minding_passed {s : Poller} {x : Pass.Step} (hx : Pass.Minding answers noted me p x) :
    Minding answers noted me p (passed cancelled x.1 s x.2) := by
  obtain ⟨q, pass | result⟩ := x
  · refine ⟨hx.1, fun s' hs' => ?_⟩
    cases hs'
    exact hx.2
  · refine ⟨hx, fun s' hs' => ?_⟩
    simp only [passed] at hs'
    split at hs'
    · cases hs'
    · cases hs'
      trivial

theorem minding_startPass (named : answers.Named) (hp : p.Founded noted) {s : Poller} :
    Minding answers noted me p (startPass me cancelled p s) :=
  minding_passed (Pass.minding_begin named hp)

/-- Another pool makes no difference to what is loaded. -/
theorem minds_pool (hp : p.Founded noted) (pool : Pool) : p.Minds noted me { p with pool } :=
  .of_same hp ⟨rfl, rfl, rfl⟩ rfl (fun _ => rfl) fun _ _ => id

theorem minding_handle (named : answers.Named) (hp : p.Founded noted) {s : Poller}
    (hs : s.Stands answers noted me p) {i : Input}
    (admitted : ∀ pass, s.doing = .passing pass → i.Admitted answers (pass.waits me p)) :
    Minding answers noted me p (s.handle me cancelled p i) := by
  have hstay : Minding answers noted me p (p, some s) :=
    ⟨.refl hp, fun s' hs' => Option.some.inj hs' ▸ hs⟩
  obtain ⟨period, nextTick, doing⟩ := s
  cases doing with
  | idle =>
    cases i with
    | answered ticket reply => exact hstay
    | fallback serial => exact hstay
    | cancelled => exact ⟨.refl hp, nofun⟩
    | resumed => exact hstay
    | woke =>
      simp only [handle, tick]
      split
      · split
        · refine ⟨minds_pool hp _, fun s' hs' => ?_⟩
          cases hs'
          trivial
        · exact minding_startPass named hp
      · exact hstay
  | lookingUp => cases i <;> exact hstay
  | passing pass => exact minding_passed (Pass.minding_handle named hp hs (admitted pass rfl))

theorem minding_lookedUp (named : answers.Named) (hp : p.Founded noted) {s : Poller}
    (hs : s.Stands answers noted me p) (refusals : Refusals) (found : Option (List Endpoint)) :
    Minding answers noted me p (s.lookedUp me cancelled p refusals found) := by
  have hstay : Minding answers noted me p (p, some s) :=
    ⟨.refl hp, fun s' hs' => Option.some.inj hs' ▸ hs⟩
  obtain ⟨period, nextTick, doing⟩ := s
  cases doing with
  | idle => exact hstay
  | lookingUp =>
    have hpool : p.Minds noted me _ := minds_pool hp (p.pool.applyLookup refusals found p.now).1
    obtain ⟨hq, hnext⟩ : Minding answers noted me _ _ := minding_startPass named hpool.founded
    exact ⟨hpool.trans hq, hnext⟩
  | passing pass => exact hstay

end Poller

/-! ## Operations of any kind -/

/-- Where an operation may stand. -/
def Job.Stands (answers : Replies) (noted : Nat → Prop) (me : TaskId) (p : Provider) : Job → Prop
  | .load s => s.Stands answers noted me p
  | .refresh s => s.Stands answers noted me p
  | .poll s => s.Stands answers noted me p
  | _ => True

/-- What others do leaves an operation where it may stand. -/
theorem Job.Stands.of_heeds {job : Job} (hjob : job.Stands answers noted me p)
    (hq : p.Heeds me q) (names : p.watchList.identities <+: q.watchList.identities) :
    job.Stands answers noted me q := by
  cases job with
  | load s =>
    obtain ⟨deadline, tries, r | wake⟩ := s
    · exact Reload.Stands.of_heeds hjob hq
    · trivial
  | refresh s => exact Pass.Stands.of_heeds hjob hq names
  | poll s =>
    obtain ⟨period, nextTick, doing⟩ := s
    cases doing with
    | idle => trivial
    | lookingUp => trivial
    | passing pass => exact Pass.Stands.of_heeds hjob hq names
  | fetch call => trivial
  | check call => trivial
  | list call => trivial
  | rediscover => trivial
  | ended result => trivial

/-- The reload of a pass. -/
def Pass.reload? : Pass → Option Reload
  | .loading r => some r
  | .reloading _ r => some r
  | _ => none

/-- The reload of an operation. -/
def Job.reload? : Job → Option Reload
  | .load s => s.phase.getLeft?
  | .refresh s => s.reload?
  | .poll s =>
    match s.doing with
    | .passing pass => pass.reload?
    | _ => none
  | _ => none

theorem Pass.Stands.of_waiting {s : Pass} {places : Nat → Prop} (hs : s.Stands answers noted me p)
    (waiting : ∀ r, s.reload? = some r → r = .waiting) : s.Stands answers places me p := by
  cases s with
  | loading r => exact .inl (waiting r rfl)
  | checking checks => exact hs
  | reloading f r => exact ⟨hs.1, .inl (waiting r rfl)⟩
  | merging f m => exact hs

/-- Only a reload that has the lock depends on which names were watched when it got it. -/
theorem Job.Stands.of_waiting {job : Job} {places : Nat → Prop}
    (hjob : job.Stands answers noted me p)
    (waiting : ∀ r, job.reload? = some r → r = .waiting) : job.Stands answers places me p := by
  cases job with
  | load s =>
    obtain ⟨deadline, tries, r | wake⟩ := s
    · exact .inl (waiting r rfl)
    · trivial
  | refresh s => exact Pass.Stands.of_waiting hjob waiting
  | poll s =>
    obtain ⟨period, nextTick, doing⟩ := s
    cases doing with
    | idle => trivial
    | lookingUp => trivial
    | passing pass => exact Pass.Stands.of_waiting hjob waiting
  | fetch call => trivial
  | check call => trivial
  | list call => trivial
  | rediscover => trivial
  | ended result => trivial

namespace Task

/-- A step of an operation minds the lock of others, and leads to where the operation may stand. -/
def Minding (answers : Replies) (noted : Nat → Prop) (me : TaskId) (p : Provider)
    (x : Provider × Job) : Prop :=
  p.Minds noted me x.1 ∧ x.2.Stands answers noted me x.1

theorem minding_ofProgress {σ α : Type} {wait : Call σ → Job}
    {done : Except FailoverError (α × Member) → Result} {x : Provider × Progress σ α}
    (hp : p.Founded noted) (called : p.Called x.1)
    (hwait : ∀ q call, (wait call).Stands answers noted me q) :
    Minding answers noted me p (ofProgress wait done x) := by
  obtain ⟨q, call | r⟩ := x
  · exact ⟨.called hp called, hwait q call⟩
  · exact ⟨.called hp called, trivial⟩

theorem minding_ofLoad {x : Startup.Step} (hx : Startup.Minding answers noted me p x) :
    Minding answers noted me p (ofLoad x) := by
  obtain ⟨q, s | r⟩ := x
  · exact hx
  · exact ⟨hx, trivial⟩

theorem minding_ofPass {x : Pass.Step} (hx : Pass.Minding answers noted me p x) :
    Minding answers noted me p (ofPass x) := by
  obtain ⟨q, s | r⟩ := x
  · exact hx
  · exact ⟨hx, trivial⟩

theorem minding_ofPoll {x : Poller.Step} (hx : Poller.Minding answers noted me p x) :
    Minding answers noted me p (ofPoll x) := by
  obtain ⟨q, s | s⟩ := x
  · exact ⟨hx.1, trivial⟩
  · exact ⟨hx.1, hx.2 s rfl⟩

theorem minding_begin (named : answers.Named) (hp : p.Founded noted) (op : Operation) :
    Minding answers noted me p (begin me cancelled p op) := by
  cases op with
  | fetch i => exact minding_ofProgress hp (p.called_openCall _ _ _) fun _ _ => trivial
  | check i known => exact minding_ofProgress hp (p.called_openCall _ _ _) fun _ _ => trivial
  | list selectors => exact minding_ofProgress hp (p.called_openCall _ _ _) fun _ _ => trivial
  | load => exact minding_ofLoad (Startup.minding_tried (Reload.minding_begin named hp))
  | refresh => exact minding_ofPass (Pass.minding_begin named hp)
  | rediscover =>
    simp only [begin]
    split
    · exact ⟨Poller.minds_pool hp _, trivial⟩
    · exact ⟨.refl hp, trivial⟩
  | poll period =>
    simp only [begin]
    split
    · exact ⟨.refl hp, trivial⟩
    · exact ⟨.refl hp, trivial⟩

/-- **A step of an operation**, whatever reaches it. -/
theorem minding_handle (named : answers.Named) (hp : p.Founded noted) {t : Task}
    (ht : t.job.Stands answers noted t.id p) {i : Input}
    (admitted : i.Admitted answers (t.waits p)) :
    Minding answers noted t.id p (t.handle p i) := by
  obtain ⟨id, given, job⟩ := t
  cases job with
  | fetch call => exact minding_ofProgress hp (p.called_drive _ _ _) fun _ _ => trivial
  | check call => exact minding_ofProgress hp (p.called_drive _ _ _) fun _ _ => trivial
  | list call => exact minding_ofProgress hp (p.called_drive _ _ _) fun _ _ => trivial
  | load s =>
    refine minding_ofLoad (Startup.minding_handle named hp ht fun r hr => ?_)
    simp only [waits, hr] at admitted
    exact admitted
  | refresh s => exact minding_ofPass (Pass.minding_handle named hp ht admitted)
  | rediscover => exact ⟨.refl hp, trivial⟩
  | poll s =>
    refine minding_ofPoll (Poller.minding_handle named hp ht fun pass hpass => ?_)
    simp only [waits, hpass] at admitted
    exact admitted
  | ended result => exact ⟨.refl hp, trivial⟩

theorem minding_lookedUp (named : answers.Named) (hp : p.Founded noted) {t : Task}
    (ht : t.job.Stands answers noted t.id p) (refusals : Refusals)
    (found : Option (List Endpoint)) :
    Minding answers noted t.id p (t.lookedUp p refusals found) := by
  obtain ⟨id, given, job⟩ := t
  have hstay : Minding answers noted id p (p, job) := ⟨.refl hp, ht⟩
  cases job with
  | rediscover => exact ⟨Poller.minds_pool hp _, trivial⟩
  | poll s => exact minding_ofPoll (Poller.minding_lookedUp named hp ht refusals found)
  | fetch call => exact hstay
  | check call => exact hstay
  | list call => exact hstay
  | load s => exact hstay
  | refresh s => exact hstay
  | ended result => exact hstay

/-- Dropping an operation lets go what it holds. -/
theorem minds_abandon (hp : p.Founded noted) (t : Task) : p.Minds noted t.id (t.abandon p) := by
  obtain ⟨id, given, job⟩ := t
  cases job with
  | load s => exact .release hp
  | refresh s => exact Pass.minds_abandon hp s
  | poll s =>
    obtain ⟨period, nextTick, doing⟩ := s
    cases doing with
    | idle => exact .refl hp
    | lookingUp => exact .refl hp
    | passing pass => exact Pass.minds_abandon hp pass
  | fetch call => exact .refl hp
  | check call => exact .refl hp
  | list call => exact .refl hp
  | rediscover => exact .refl hp
  | ended result => exact .refl hp

end Task

/-! ## Side by side -/

namespace Engine

variable {e : Engine} {tasks before after : List Task} {t : Task} {id : TaskId}

/-- The provider is founded, and every operation stands where it may stand. -/
structure Founded (answers : Replies) (noted : Nat → Prop) (p : Provider) (tasks : List Task) :
    Prop where
  provider : p.Founded noted
  distinct : (tasks.map (·.id)).Nodup
  stands : ∀ t ∈ tasks, t.job.Stands answers noted t.id p

/-- Events that may come: replies that may be given, and whatever else there is. -/
def Hears (answers : Replies) (e : Engine) : Event → Prop
  | .answer ticket reply => ∀ t ∈ e.tasks,
    (Input.answered ticket reply).Admitted answers (t.waits e.provider)
  | _ => True

/-- Events that may come one after the other. -/
def HearsAll (answers : Replies) : Engine → List Event → Prop
  | _, [] => True
  | e, event :: rest => e.Hears answers event ∧ HearsAll answers (e.handle event) rest

namespace Founded

/-- Nothing that is loaded differs, nor who has the lock. -/
theorem quiet (he : Engine.Founded answers noted p tasks) (rules : p.SameRules q)
    (materialized : q.materialized = p.materialized)
    (tokens : ∀ place, q.tokenAt place = p.tokenAt place) (lock : q.lock = p.lock) :
    Engine.Founded answers noted q tasks where
  provider := he.provider.of_same rules materialized tokens
  distinct := he.distinct
  stands t ht := (he.stands t ht).of_heeds (fun hheld => ⟨(congrArg Lock.holder lock).trans hheld,
    rules.options, rules.pipeline, rules.names, materialized, tokens⟩) rules.names

/-- One of the operations has taken a step. -/
theorem step (he : Engine.Founded answers noted p (before ++ t :: after)) {x : Provider × Job}
    (hx : Task.Minding answers noted t.id p x) :
    Engine.Founded answers noted x.1 (before ++ { t with job := x.2 } :: after) := by
  obtain ⟨hminds, hstands⟩ := hx
  have hmem {v u : Task} : u ∈ before ++ v :: after ↔ u = v ∨ u ∈ before ++ after := by
    simp only [List.mem_append, List.mem_cons]
    tauto
  refine ⟨hminds.founded, ?_, fun u hu => ?_⟩
  · have hdistinct := he.distinct
    rw [List.map_append, List.map_cons] at hdistinct ⊢
    exact hdistinct
  · rcases hmem.1 hu with rfl | hu
    · exact hstands
    · have hne := ne_of_split he.distinct u hu
      exact (he.stands u (hmem.2 (.inr hu))).of_heeds (hminds.heeds _ hne) hminds.rules.names

/-- The step of one operation, picked by its number. -/
theorem stepTask (he : Engine.Founded answers noted e.provider e.tasks)
    {step : Task → Provider → Provider × Job}
    (hstep : ∀ t ∈ e.tasks, Task.Minding answers noted t.id e.provider (step t e.provider)) :
    Engine.Founded answers noted (e.stepTask id step).provider (e.stepTask id step).tasks := by
  cases hfind : e.task? id with
  | none =>
    unfold Engine.stepTask
    rw [hfind]
    exact he
  | some t =>
    obtain ⟨-, before, after, htasks⟩ := exists_split hfind
    rw [stepTask_of_split he.distinct hfind htasks step]
    rw [htasks] at he
    exact he.step (hstep t (List.mem_of_find?_eq_some hfind))

/-- An input that needs no reply reaches one operation. -/
theorem resume (named : answers.Named) (he : Engine.Founded answers noted e.provider e.tasks)
    {i : Input} (hi : ∀ waits, i.Admitted answers waits) :
    Engine.Founded answers noted (e.stepTask id fun t p => t.handle p i).provider
      (e.stepTask id fun t p => t.handle p i).tasks :=
  he.stepTask fun t ht => Task.minding_handle named he.provider (he.stands t ht) (hi _)

/-- An input that reaches every operation: those before have taken their steps. -/
theorem driveAll (named : answers.Named) {i : Input} (before : List Task)
    (he : Engine.Founded answers noted p (before ++ tasks))
    (admitted : ∀ t ∈ tasks, i.Admitted answers (t.waits p)) :
    Engine.Founded answers noted (Engine.driveAll i p tasks).1
      (before ++ (Engine.driveAll i p tasks).2) := by
  -- The induction is on the operations that have not stepped yet.
  induction tasks generalizing p before with
  | nil => exact he
  | cons t rest ih =>
    have ht : t ∈ before ++ t :: rest := List.mem_append_right _ List.mem_cons_self
    have hstep := he.step
      (Task.minding_handle named he.provider (he.stands t ht) (admitted t List.mem_cons_self))
    rw [← List.singleton_append, ← List.append_assoc] at hstep
    have hrest := ih _ hstep fun u hu =>
      Task.admitted_of_admitted p _ (admitted u (List.mem_cons_of_mem _ hu))
    rw [List.append_assoc, List.singleton_append] at hrest
    exact hrest

/-- An operation has started. -/
theorem start (he : Engine.Founded answers noted p tasks) (hnew : ∀ u ∈ tasks, u.id ≠ id)
    {x : Provider × Job} (hx : Task.Minding answers noted id p x) :
    Engine.Founded answers noted x.1 (tasks ++ [⟨id, cancelled, x.2⟩]) := by
  obtain ⟨hminds, hstands⟩ := hx
  refine ⟨hminds.founded, nodup_ids_concat he.distinct hnew, fun u hu => ?_⟩
  rcases List.mem_append.1 hu with hu | hu
  · exact (he.stands u hu).of_heeds (hminds.heeds _ (hnew u hu)) hminds.rules.names
  · rw [List.mem_singleton.1 hu]
    exact hstands

/-- An operation has been dropped. -/
theorem drop (he : Engine.Founded answers noted p tasks) (hq : p.Minds noted id q) :
    Engine.Founded answers noted q (tasks.filter (·.id ≠ id)) := by
  refine ⟨hq.founded, he.distinct.sublist (List.filter_sublist.map _), fun u hu => ?_⟩
  obtain ⟨hu, hne⟩ := List.mem_filter.1 hu
  exact (he.stands u hu).of_heeds (hq.heeds _ (of_decide_eq_true hne)) hq.rules.names

/-- Noting that an operation has been given up. -/
theorem markCancelled (he : Engine.Founded answers noted e.provider e.tasks) (id : TaskId) :
    Engine.Founded answers noted (e.markCancelled id).provider (e.markCancelled id).tasks where
  provider := he.provider
  distinct := by
    rw [ids_markCancelled]
    exact he.distinct
  stands u hu := by
    obtain ⟨t, ht, hid, hjob⟩ := exists_of_mem_markCancelled hu
    rw [← hid, ← hjob]
    exact he.stands t ht

/-- **Every event keeps it.** -/
theorem handle (named : answers.Named) (he : Engine.Founded answers noted e.provider e.tasks)
    {event : Event} (hears : e.Hears answers event) :
    Engine.Founded answers noted (e.handle event).provider (e.handle event).tasks := by
  cases event with
  | start id op cancelled =>
    simp only [Engine.handle]
    split
    · exact he
    · next hnone =>
      have hnew := ne_of_find?_eq_none (Bool.eq_false_iff.2 hnone)
      exact he.start hnew (Task.minding_begin named he.provider op)
  | cancel id => exact (he.markCancelled id).resume named fun _ => trivial
  | abandon id =>
    simp only [Engine.handle]
    cases hfind : e.task? id with
    | none => exact he
    | some t =>
      obtain ⟨rfl, -⟩ := exists_split hfind
      exact he.drop (Task.minds_abandon he.provider t)
  | resume id => exact he.resume named fun _ => trivial
  | answer ticket reply => exact driveAll named [] he hears
  | fallback call => exact driveAll named [] he fun _ _ => trivial
  | wake id => exact he.resume named fun _ => trivial
  | lookedUp id refusals found =>
    exact he.stepTask fun t ht =>
      Task.minding_lookedUp named he.provider (he.stands t ht) refusals found
  | advance d => exact he.quiet ⟨rfl, rfl, rfl⟩ rfl (fun _ => rfl) rfl
  | drew d => exact he.quiet ⟨rfl, rfl, rfl⟩ rfl (fun _ => rfl) rfl
  | watch r =>
    simp only [Engine.handle, Engine.update]
    split
    · next q hq =>
      obtain ⟨hfounded, names, heeds⟩ := he.provider.watch hq
      exact ⟨hfounded, he.distinct, fun t ht => (he.stands t ht).of_heeds (heeds t.id) names⟩
    · exact he
  | setDirty most draws =>
    have hknown := WatchList.known_setDirty e.provider.watchList e.provider.now most draws
    exact he.quiet ⟨rfl, rfl, WatchList.identities_of_known hknown⟩ rfl
      (Provider.tokenAt_of_known hknown) rfl
  | configure c => exact he.quiet ⟨rfl, rfl, rfl⟩ rfl (fun _ => rfl) rfl
  | replaceFound refusals found =>
    simp only [Engine.handle, Engine.update]
    split
    · exact he.quiet ⟨rfl, rfl, rfl⟩ rfl (fun _ => rfl) rfl
    · exact he

/-- So does a run. -/
theorem run (named : answers.Named) {events : List Event} {e : Engine}
    (he : Engine.Founded answers noted e.provider e.tasks) (hears : e.HearsAll answers events) :
    Engine.Founded answers noted (e.run events).provider (e.run events).tasks := by
  induction events generalizing e with
  | nil => exact he
  | cons event rest ih => exact ih (he.handle named hears.1) hears.2

end Founded

theorem HearsAll.append {past rest : List Event} (hears : e.HearsAll answers (past ++ rest)) :
    e.HearsAll answers past ∧ (e.run past).HearsAll answers rest := by
  induction past generalizing e with
  | nil => exact ⟨trivial, hears⟩
  | cons event past ih =>
    have hpast := ih hears.2
    exact ⟨⟨hears.1, hpast.1⟩, hpast.2⟩

/-! ## Keys that are noted -/

/-- The token at a place is that of what is loaded under its name, and no reload is under way. -/
structure Notes (e : Engine) (place : Nat) : Prop where
  agrees : ∃ i, e.provider.watchList.identities[place]? = some i ∧
    e.provider.tokenAt place = e.provider.materialized.tokenOf i
  waiting : ∀ t ∈ e.tasks, ∀ r, t.job.reload? = some r → r = .waiting

/-- At some moment of a run a key was noted. -/
def Noted (e : Engine) (events : List Event) (place : Nat) : Prop :=
  ∃ past, past <+: events ∧ (e.run past).Notes place

theorem Founded.of_notes (he : Engine.Founded answers noted e.provider e.tasks) {place : Nat}
    (h : e.Notes place) : Engine.Founded answers (· = place) e.provider e.tasks where
  provider := by
    obtain ⟨i, hplace, htoken⟩ := h.agrees
    refine ⟨he.provider.watched, he.provider.entries, he.provider.processed, ?_, ?_⟩
    · rintro _ rfl
      exact (List.getElem?_eq_some_iff.1 hplace).1
    · rintro _ j rfl hj
      cases hplace.symm.trans hj
      exact htoken
  distinct := he.distinct
  stands t ht := (he.stands t ht).of_waiting (h.waiting t ht)

/-- A key that was noted once is still noted. -/
theorem Founded.of_noted (named : answers.Named) {events : List Event} {place : Nat}
    (he : Engine.Founded answers noted e.provider e.tasks) (hears : e.HearsAll answers events)
    (h : e.Noted events place) :
    Engine.Founded answers (· = place) (e.run events).provider (e.run events).tasks := by
  obtain ⟨past, ⟨rest, rfl⟩, hnotes⟩ := h
  obtain ⟨hpast, hrest⟩ := hears.append
  have hrun : e.run (past ++ rest) = (e.run past).run rest := List.foldl_append
  rw [hrun]
  exact ((he.run named hpast).of_notes hnotes).run named hrest

theorem founded_new (hp : p.Unloaded) :
    Founded answers (fun _ => False) (new p).provider (new p).tasks where
  provider := by
    have hprocessed : p.Processed := by
      rw [Provider.Processed, hp.materialized]
      exact fun e he => absurd he List.not_mem_nil
    exact ⟨hp.watched, hp.coherent.entries, hprocessed, fun _ h => h.elim, fun _ _ h => h.elim⟩
  distinct := List.nodup_nil
  stands _ ht := absurd ht List.not_mem_nil

/-- What is watched at the beginning is noted. -/
theorem notes_new (hp : p.Unloaded) {place : Nat} {i : Identity}
    (hplace : p.watchList.identities[place]? = some i) : (new p).Notes place := by
  refine ⟨⟨i, hplace, ?_⟩, fun _ ht => absurd ht List.not_mem_nil⟩
  obtain ⟨w, hw, rfl⟩ := WatchList.exists_get?_of_getElem?_identities hplace
  have htoken := hp.coherent.tokens w (List.mem_of_getElem? hw)
  rwa [← Option.bind_some (f := Watch.token), ← hw] at htoken

/-! ## Where the lock has been got -/

/-- After some events, the operation `me` has the lock at `b`: it has waited for it, and the lock has
come, or in a step of its own it has asked for the lock and got it at once.  In front of that there
may have been a call or a check, and the end of a reload that has failed. -/
structure Grants (answers : Replies) (p : Provider) (events : List Event) (me : TaskId)
    (b : Provider) : Prop where
  holder : b.lock.holder = some me
  hears : (new p).HearsAll answers events
  asked : ∃ q places, ((new p).run events).provider.Checked places q ∧
    (b = q ∨ b = q.acquire me ∨ b = (q.release me).acquire me)

namespace Grants

variable {b : Provider} {events : List Event}

/-- What holds wherever the engine comes holds where an operation has got the lock. -/
theorem founded_of_run (grants : Grants answers p events me b)
    (h : ((new p).run events).provider.Founded noted) : b.Founded noted := by
  obtain ⟨q, places, hchecked, hb⟩ := grants.asked
  have hq : Provider.Minds noted me _ q := .checked h hchecked
  rcases hb with rfl | rfl | rfl
  · exact hq.founded
  · have hacquire : Provider.Minds noted me _ _ := .acquire hq.founded
    exact hacquire.founded
  · have hrelease : Provider.Minds noted me _ _ := .release hq.founded
    have hacquire : Provider.Minds noted me _ _ := .acquire hrelease.founded
    exact hacquire.founded

theorem founded (grants : Grants answers p events me b) (hp : p.Unloaded)
    (named : answers.Named) : b.Founded fun _ => False :=
  grants.founded_of_run ((founded_new hp).run named grants.hears).provider

/-- Where the lock has been got, a key that was noted has the token of its entry. -/
theorem agrees_of_noted (grants : Grants answers p events me b) (hp : p.Unloaded)
    (named : answers.Named) {place : Nat} {i : Identity} (hnoted : (new p).Noted events place)
    (hplace : b.watchList.identities[place]? = some i) :
    b.tokenAt place = b.materialized.tokenOf i := by
  have hrun := (founded_new hp).of_noted named grants.hears hnoted
  exact (grants.founded_of_run hrun.provider).tokens place i rfl hplace

end Grants

end Engine
end ReplicatedConfig
