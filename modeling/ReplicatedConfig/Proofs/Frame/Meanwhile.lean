import ReplicatedConfig.Proofs.Frame.Reached

/-!
# While a merge waits

A merge relies on others to leave alone what is loaded and what is published while it has the lock
(`Provider.Respects`).  Here this is shown of the engine.  An operation that is at a merge hears
nothing but that it can go on: replies, timers and lookups do not reach it, and neither does its
caller that gives up.  So any event but these two leaves it where it is, that it goes on and that it
is dropped (`Event.Moves`), and whatever other operations do meanwhile respects it.
-/

namespace ReplicatedConfig

variable {answers : Replies} {noted : Nat → Prop} {me : TaskId} {p q r : Provider} {m : Merge}

theorem Provider.Respects.trans (hq : p.Respects me q) (hr : q.Respects me r) : p.Respects me r where
  heeds := hq.heeds.trans hr.heeds
  current hheld := (hr.current (hq.heeds hheld).holder).trans (hq.current hheld)

/-! ## One operation -/

/-- The merge that an operation is at. -/
def Job.merge? : Job → Option Merge
  | .refresh (.merging _ m) => some m
  | .poll ⟨_, _, .passing (.merging _ m)⟩ => some m
  | _ => none

/-- What operations at a merge are. -/
theorem Job.merge?_eq_some_iff {job : Job} : job.merge? = some m ↔
    (∃ f, job = .refresh (.merging f m)) ∨
      ∃ period nextTick f, job = .poll ⟨period, nextTick, .passing (.merging f m)⟩ := by
  constructor
  · intro h
    unfold merge? at h
    split at h
    · next f m' =>
      cases h
      exact .inl ⟨f, rfl⟩
    · next period nextTick f m' =>
      cases h
      exact .inr ⟨period, nextTick, f, rfl⟩
    · cases h
  · rintro (⟨f, rfl⟩ | ⟨period, nextTick, f, rfl⟩)
    · rfl
    · rfl

namespace Task

variable {t : Task} {i : Input}

/-- A merge hears nothing but that it can go on. -/
theorem handle_of_merge (ht : t.job.merge? = some m) (hi : i ≠ .resumed) (p : Provider) :
    t.handle p i = (p, t.job) := by
  have hmerge : m.handle t.id p i = (p, .inl m) := by
    cases m <;> cases i <;> first | rfl | exact absurd rfl hi
  obtain ⟨id, given, job⟩ := t
  rcases Job.merge?_eq_some_iff.1 ht with ⟨f, rfl⟩ | ⟨period, nextTick, f, rfl⟩
  · simp only [handle, Pass.handle, hmerge]
    rfl
  · simp only [handle, Poller.handle, Pass.handle, hmerge]
    rfl

theorem lookedUp_of_merge (ht : t.job.merge? = some m) (p : Provider) (refusals : Refusals)
    (found : Option (List Endpoint)) : t.lookedUp p refusals found = (p, t.job) := by
  obtain ⟨id, given, job⟩ := t
  rcases Job.merge?_eq_some_iff.1 ht with ⟨f, rfl⟩ | ⟨period, nextTick, f, rfl⟩
  · rfl
  · rfl

/-- A step of any operation respects one that is at a merge, which stays there. -/
def Minds (me : TaskId) (m : Merge) (p : Provider) (t : Task) (x : Provider × Job) : Prop :=
  (t.id = me → t.job.merge? = some m) → p.Respects me x.1 ∧ (t.id = me → x.2.merge? = some m)

theorem minds_of_eq {x : Provider × Job} (h : t.id = me → t.job.merge? = some m → x = (p, t.job))
    (hne : me ≠ t.id → p.Respects me x.1) : t.Minds me m p x := by
  intro hmerge
  by_cases hid : t.id = me
  · rw [h hid (hmerge hid)]
    exact ⟨.refl me p, hmerge⟩
  · exact ⟨hne (Ne.symm hid), fun hme => absurd hme hid⟩

theorem minds_handle (named : answers.Named) (hp : p.Founded noted)
    (ht : t.job.Stands answers noted t.id p) (admitted : i.Admitted answers (t.waits p))
    (hi : t.id = me → i ≠ .resumed) : t.Minds me m p (t.handle p i) :=
  minds_of_eq (fun hid hmerge => handle_of_merge hmerge (hi hid) p)
    (respects_handle named hp ht admitted)

theorem minds_lookedUp (named : answers.Named) (hp : p.Founded noted)
    (ht : t.job.Stands answers noted t.id p) (refusals : Refusals)
    (found : Option (List Endpoint)) : t.Minds me m p (t.lookedUp p refusals found) := by
  refine minds_of_eq (fun _ hmerge => lookedUp_of_merge hmerge p refusals found) fun hne => ?_
  have hupholds : p.Upholds t.id t.job.Behind (t.lookedUp p refusals found).1 _ :=
    upkeep_lookedUp t refusals found
  exact hupholds.respects (minding_lookedUp named hp ht refusals found).1 hne

end Task

/-! ## Side by side -/

/-- An event by which an operation goes on, or is dropped. -/
def Event.Moves (me : TaskId) : Event → Prop
  | .resume id => id = me
  | .abandon id => id = me
  | _ => False

namespace Engine

variable {e : Engine} {tasks before : List Task} {id : TaskId}

/-- The operation `me` is at a merge. -/
def IsAt (me : TaskId) (m : Merge) (tasks : List Task) : Prop :=
  (∃ t ∈ tasks, t.id = me) ∧ ∀ t ∈ tasks, t.id = me → t.job.merge? = some m

/-- The step of one operation, picked by its number. -/
theorem isAt_stepTask (hat : IsAt me m e.tasks) {step : Task → Provider → Provider × Job}
    (hstep : ∀ t ∈ e.tasks, t.id = id → t.Minds me m e.provider (step t e.provider)) :
    e.provider.Respects me (e.stepTask id step).provider ∧ IsAt me m (e.stepTask id step).tasks := by
  unfold Engine.stepTask
  cases hfind : e.task? id with
  | none => exact ⟨.refl me _, hat⟩
  | some t =>
    obtain ⟨rfl, -⟩ := exists_split hfind
    have ht := List.mem_of_find?_eq_some hfind
    obtain ⟨hrespects, hmerge⟩ := hstep t ht rfl (hat.2 t ht)
    refine ⟨hrespects, ?_, fun u' hu' hid => ?_⟩
    · obtain ⟨u, hu, hid⟩ := hat.1
      refine ⟨_, List.mem_map_of_mem hu, ?_⟩
      split
      · exact hid
      · exact hid
    · obtain ⟨u, hu, rfl⟩ := List.mem_map.1 hu'
      by_cases hut : u.id = t.id
      · rw [if_pos hut] at hid ⊢
        exact hmerge (hut.symm.trans hid)
      · rw [if_neg hut] at hid ⊢
        exact hat.2 u hu hid

/-- An input that reaches every operation. -/
theorem isAt_driveAll (named : answers.Named) {i : Input} (hi : i ≠ .resumed) (before : List Task)
    (he : Founded answers noted p (before ++ tasks))
    (admitted : ∀ t ∈ tasks, i.Admitted answers (t.waits p))
    (hat : ∀ t ∈ tasks, t.id = me → t.job.merge? = some m) :
    p.Respects me (Engine.driveAll i p tasks).1 ∧
      ((Engine.driveAll i p tasks).2.map (·.id) = tasks.map (·.id)) ∧
      ∀ t ∈ (Engine.driveAll i p tasks).2, t.id = me → t.job.merge? = some m := by
  -- The induction is on the operations that have not stepped yet.
  induction tasks generalizing p before with
  | nil => exact ⟨.refl me p, rfl, hat⟩
  | cons t rest ih =>
    obtain ⟨ht, hrest⟩ := List.forall_mem_cons.1 hat
    have hstands := he.stands t (List.mem_append_right _ List.mem_cons_self)
    have hadmitted := admitted t List.mem_cons_self
    obtain ⟨hrespects, hmerge⟩ :=
      Task.minds_handle named he.provider hstands hadmitted (fun _ => hi) ht
    have hfounded := he.step (Task.minding_handle named he.provider hstands hadmitted)
    rw [List.append_cons] at hfounded
    obtain ⟨hothers, hids, hothersAt⟩ := ih _ hfounded (fun u hu =>
      Task.admitted_of_admitted p _ (admitted u (List.mem_cons_of_mem _ hu))) hrest
    refine ⟨hrespects.trans hothers, ?_, List.forall_mem_cons.2 ⟨hmerge, hothersAt⟩⟩
    exact congrArg (t.id :: ·) hids

/-- Nothing that is loaded or published differs, nor who has the lock. -/
theorem respects_quiet (rules : p.SameRules q) (materialized : q.materialized = p.materialized)
    (tokens : ∀ place, q.tokenAt place = p.tokenAt place) (lock : q.lock = p.lock)
    (current : q.publisher.current = p.publisher.current) : p.Respects me q where
  heeds hheld := ⟨(congrArg Lock.holder lock).trans hheld, rules.options, rules.pipeline,
    rules.names, materialized, tokens⟩
  current _ := current

/-- **An event that does not move an operation at a merge respects it**, and it stays there. -/
theorem isAt_handle (named : answers.Named) (he : Founded answers noted e.provider e.tasks)
    (hat : IsAt me m e.tasks) {event : Event} (hears : e.Hears answers event)
    (stays : ¬ event.Moves me) :
    e.provider.Respects me (e.handle event).provider ∧ IsAt me m (e.handle event).tasks := by
  have hdrive {i : Input} (hi : i ≠ .resumed)
      (admitted : ∀ t ∈ e.tasks, i.Admitted answers (t.waits e.provider)) :
      e.provider.Respects me (e.drive i).provider ∧ IsAt me m (e.drive i).tasks := by
    obtain ⟨hrespects, hids, hmerge⟩ := isAt_driveAll named hi [] he admitted hat.2
    obtain ⟨t, ht, hid⟩ := hat.1
    refine ⟨hrespects, ?_, hmerge⟩
    have hmem : me ∈ (Engine.driveAll i e.provider e.tasks).2.map (·.id) := by
      rw [hids, ← hid]
      exact List.mem_map_of_mem ht
    obtain ⟨u, hu, hid⟩ := List.mem_map.1 hmem
    exact ⟨u, hu, hid⟩
  have hquiet (f : Provider → Provider) (hf : e.provider.Respects me (f e.provider)) :
      e.provider.Respects me (e.update f).provider ∧ IsAt me m (e.update f).tasks := ⟨hf, hat⟩
  cases event with
  | start id op cancelled =>
    simp only [Engine.handle]
    split
    · exact ⟨.refl me _, hat⟩
    · next hnone =>
      have hnew := ne_of_find?_eq_none (Bool.eq_false_iff.2 hnone)
      obtain ⟨t, ht, hid⟩ := hat.1
      have hne : me ≠ id := hid ▸ hnew t ht
      have hupholds : e.provider.Upholds id False (Task.begin id cancelled e.provider op).1 _ :=
        Task.upkeep_begin op
      refine ⟨hupholds.respects (Task.minding_begin named he.provider op).1 hne,
        ⟨t, List.mem_append_left _ ht, hid⟩, fun u hu hid => ?_⟩
      rcases List.mem_append.1 hu with hu | hu
      · exact hat.2 u hu hid
      · rw [List.mem_singleton.1 hu] at hid
        exact absurd hid.symm hne
  | cancel id =>
    have hmarked := he.markCancelled id
    have hat' : IsAt me m (e.markCancelled id).tasks := by
      refine ⟨?_, fun u hu hid => ?_⟩
      · obtain ⟨t, ht, hid⟩ := hat.1
        refine ⟨_, List.mem_map_of_mem ht, ?_⟩
        split
        · exact hid
        · exact hid
      · obtain ⟨t, ht, hidt, hjob⟩ := exists_of_mem_markCancelled hu
        rw [← hjob]
        exact hat.2 t ht (hidt.trans hid)
    exact isAt_stepTask hat' fun t ht _ =>
      Task.minds_handle named hmarked.provider (hmarked.stands t ht) trivial fun _ h => by cases h
  | abandon id =>
    simp only [Engine.handle]
    cases hfind : e.task? id with
    | none => exact ⟨.refl me _, hat⟩
    | some t =>
      obtain ⟨rfl, -⟩ := exists_split hfind
      have hne : me ≠ t.id := fun hid => stays hid.symm
      refine ⟨(Task.upholds_abandon t).respects (Task.minds_abandon he.provider t) hne, ?_,
        fun u hu => hat.2 u (List.mem_filter.1 hu).1⟩
      obtain ⟨u, hu, hid⟩ := hat.1
      exact ⟨u, List.mem_filter.2 ⟨hu, decide_eq_true (hid ▸ hne)⟩, hid⟩
  | resume id =>
    exact isAt_stepTask hat fun t ht hid =>
      Task.minds_handle named he.provider (he.stands t ht) trivial fun hme =>
        absurd (hid.symm.trans hme) stays
  | answer ticket reply => exact hdrive (fun h => by cases h) hears
  | fallback call => exact hdrive (fun h => by cases h) fun _ _ => trivial
  | wake id =>
    exact isAt_stepTask hat fun t ht _ =>
      Task.minds_handle named he.provider (he.stands t ht) trivial fun _ h => by cases h
  | lookedUp id refusals found =>
    exact isAt_stepTask hat fun t ht _ =>
      Task.minds_lookedUp named he.provider (he.stands t ht) refusals found
  | advance d => exact hquiet _ (respects_quiet ⟨rfl, rfl, rfl⟩ rfl (fun _ => rfl) rfl rfl)
  | drew d => exact hquiet _ (respects_quiet ⟨rfl, rfl, rfl⟩ rfl (fun _ => rfl) rfl rfl)
  | watch request =>
    refine hquiet _ ?_
    split
    · next q hq =>
      obtain ⟨-, -, heeds⟩ := he.provider.watch hq
      refine ⟨heeds me, fun _ => ?_⟩
      obtain ⟨l, place, -, rfl⟩ := Provider.exists_register_of_watch hq
      rfl
    · exact .refl me _
  | setDirty most draws =>
    have hknown := WatchList.known_setDirty e.provider.watchList e.provider.now most draws
    exact hquiet _ (respects_quiet ⟨rfl, rfl, WatchList.identities_of_known hknown⟩ rfl
      (Provider.tokenAt_of_known hknown) rfl rfl)
  | configure c => exact hquiet _ (respects_quiet ⟨rfl, rfl, rfl⟩ rfl (fun _ => rfl) rfl rfl)
  | replaceFound refusals found =>
    refine hquiet _ ?_
    split
    · exact respects_quiet ⟨rfl, rfl, rfl⟩ rfl (fun _ => rfl) rfl rfl
    · exact .refl me _

/-- So do all events between two steps of a merge. -/
theorem isAt_run (named : answers.Named) {events : List Event} {e : Engine}
    (he : Founded answers noted e.provider e.tasks) (hat : IsAt me m e.tasks)
    (hears : e.HearsAll answers events) (stays : ∀ event ∈ events, ¬ event.Moves me) :
    e.provider.Respects me (e.run events).provider ∧ IsAt me m (e.run events).tasks := by
  induction events generalizing e with
  | nil => exact ⟨.refl me _, hat⟩
  | cons event rest ih =>
    obtain ⟨hevent, hstays⟩ := List.forall_mem_cons.1 stays
    obtain ⟨hrespects, hat⟩ := isAt_handle named he hat hears.1 hevent
    obtain ⟨hothers, hat⟩ := ih (he.handle named hears.1) hat hears.2 hstays
    exact ⟨hrespects.trans hothers, hat⟩

end Engine
end ReplicatedConfig
