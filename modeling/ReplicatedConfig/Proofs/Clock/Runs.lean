import ReplicatedConfig.Proofs.Clock.Operations
import ReplicatedConfig.Proofs.Tasks

/-!
# Operations side by side set dates within the limit

An event reaches one operation, or all of them, or it changes the provider by itself.
`Engine.Shifts` is what the events of the first two kinds may make of an engine: the three things
that a step of an operation may come to (`Task.Shifts`), seen from outside.  At most one operation
starts a lookup in one event: several are reached only by replies and timers of calls, and those make
none of them wake up.

The events of the third kind are what somebody else says to the provider (`Event.said?`).
`Provider.Told` is what it makes of them, and how dates fare with that is left to whoever needs to
know.
-/

namespace ReplicatedConfig

variable {limit : Duration} {p q : Provider} {tasks tasks' : List Task} {e e' : Engine}
  {id : TaskId}

/-- What an event does to the provider, if it reaches no operation. -/
def Event.said? : Event → Option (Provider → Provider)
  | .advance d => some fun p => { p with now := p.now + d }
  | .drew d => some fun p => { p with draw := d }
  | .watch r => some fun p => match p.watch r with
    | .ok p => p
    | .error _ => p
  | .setDirty most draws => some fun p =>
    { p with watchList := p.watchList.setDirty p.now most draws }
  | .configure c => some fun p => p.configure c
  | .replaceFound refusals found => some fun p =>
    match p.pool.replaceFound refusals found p.now with
    | .ok (pool, _) => { p with pool }
    | .error _ => p
  | _ => none

/-- A provider that has been told something, and what it makes of it. -/
inductive Provider.Told (p : Provider) : Event → Provider → Prop where
  /-- A key cannot be watched, or replicas are refused or are the members already. -/
  | ignored (event : Event) : Told p event p
  | advance (d : Duration) : Told p (.advance d) { p with now := p.now + d }
  | drew (d : Draw) : Told p (.drew d) { p with draw := d }
  | watch {r : WatchRequest} {watchList : WatchList} {place : Nat}
      (registered : p.watchList.register r p.now = .ok (watchList, place)) :
      Told p (.watch r) { p with watchList }
  | setDirty (most : Duration) (draws : Nat → Nat) :
      Told p (.setDirty most draws)
        { p with watchList := p.watchList.setDirty p.now most draws }
  | configure (c : FailoverConfig) : Told p (.configure c) (p.configure c)
  | replaceFound (refusals : Refusals) (found : List Endpoint) (members : List Member) :
      Told p (.replaceFound refusals found) { p with
        pool := { p.pool with members, healths := Pool.enrolled p.pool.healths members p.now } }

theorem Provider.told_of_said {event : Event} {f : Provider → Provider}
    (h : event.said? = some f) (p : Provider) : p.Told event (f p) := by
  cases event with
  | advance d =>
    cases h
    exact .advance d
  | drew d =>
    cases h
    exact .drew d
  | watch r =>
    cases h
    cases hwatched : p.watch r with
    | error cause =>
      simp only [hwatched]
      exact .ignored _
    | ok q =>
      simp only [hwatched]
      obtain ⟨⟨watchList, place⟩, hregistered, rfl⟩ := Pool.exists_of_map_ok hwatched
      exact .watch hregistered
  | setDirty most draws =>
    cases h
    exact .setDirty most draws
  | configure c =>
    cases h
    exact .configure c
  | replaceFound refusals found =>
    cases h
    cases hreplaced : p.pool.replaceFound refusals found p.now with
    | error cause =>
      simp only [hreplaced]
      exact .ignored _
    | ok x =>
      simp only [hreplaced]
      rcases Pool.replaceFound_eq_ok hreplaced with ⟨hsame, -⟩ | ⟨members, -, hpool, -⟩
      · rw [hsame]
        exact .ignored _
      · rw [hpool]
        exact .replaceFound refusals found members
  | start id op cancelled => cases h
  | cancel id => cases h
  | abandon id => cases h
  | resume id => cases h
  | answer ticket reply => cases h
  | fallback call => cases h
  | wake id => cases h
  | lookedUp id refusals found => cases h

namespace Engine

theorem handle_of_said {event : Event} {f : Provider → Provider} (h : event.said? = some f)
    (e : Engine) : e.handle event = e.update f := by
  cases event <;> cases h <;> rfl

/-- The provider is within the limit, and all operations heed it. -/
structure Within (limit : Duration) (e : Engine) : Prop where
  provider : e.provider.Within limit
  tasks : ∀ t ∈ e.tasks, t.job.Heeds limit e.provider.now

/-- Operations after a step of some of them: they heed the limit, and those that wait for a lookup
did so before. -/
structure Keep (limit : Duration) (now : Instant) (tasks tasks' : List Task) : Prop where
  heeds : ∀ t ∈ tasks', t.job.Heeds limit now
  looksUp : ∀ t ∈ tasks', t.job.looksUp = true → ∃ u ∈ tasks, u.id = t.id ∧ u.job.looksUp = true

/-- What an event that reaches operations may make of an engine. -/
inductive Shifts (limit : Duration) (e : Engine) : Engine → Prop where
  /-- It has nothing to do with lookups. -/
  | keeps {e' : Engine} (provider : e.provider.Redates limit e'.provider)
      (tasks : Keep limit e.provider.now e.tasks e'.tasks) : Shifts limit e e'
  /-- An operation starts a lookup, for which it has taken the slot. -/
  | starts {pool : Pool} {tasks : List Task} {t : Task}
      (claimed : e.provider.pool.claimLookup e.provider.now = some pool)
      (heeds : ∀ u ∈ tasks, u.job.Heeds limit e.provider.now) (mem : t ∈ tasks)
      (looksUp : t.job.looksUp = true)
      (idle : ∀ u ∈ e.tasks, u.id = t.id → u.job.looksUp = false) :
      Shifts limit e ⟨{ e.provider with pool }, tasks⟩
  /-- An operation applies what a lookup has found. -/
  | applies {e' : Engine} (refusals : Refusals) (found : Option (List Endpoint))
      (provider : Provider.Redates limit
        { e.provider with pool := (e.provider.pool.applyLookup refusals found e.provider.now).1 }
        e'.provider)
      (tasks : Keep limit e.provider.now e.tasks e'.tasks) : Shifts limit e e'

theorem Keep.refl {now : Instant} (h : ∀ t ∈ tasks, t.job.Heeds limit now) :
    Keep limit now tasks tasks :=
  ⟨h, fun t ht hlooks => ⟨t, ht, rfl, hlooks⟩⟩

theorem Shifts.refl (he : e.Within limit) : e.Shifts limit e :=
  .keeps (.refl limit e.provider) (.refl he.tasks)

/-- Giving an operation up changes neither its instants nor what it waits for. -/
theorem Keep.of_markCancelled {now : Instant}
    (h : Keep limit now (e.markCancelled id).tasks tasks) : Keep limit now e.tasks tasks := by
  refine ⟨h.heeds, fun t ht hlooks => ?_⟩
  obtain ⟨u, hu, hid, hlooks⟩ := h.looksUp t ht hlooks
  obtain ⟨v, hv, hvid, hjob⟩ := exists_of_mem_markCancelled hu
  exact ⟨v, hv, hvid.trans hid, hjob ▸ hlooks⟩

theorem within_markCancelled (he : e.Within limit) (id : TaskId) :
    (e.markCancelled id).Within limit := by
  refine ⟨he.provider, fun t ht => ?_⟩
  obtain ⟨u, hu, -, hjob⟩ := exists_of_mem_markCancelled ht
  exact hjob ▸ he.tasks u hu

theorem Shifts.of_markCancelled (h : (e.markCancelled id).Shifts limit e') :
    e.Shifts limit e' := by
  cases h with
  | keeps provider tasks => exact .keeps provider tasks.of_markCancelled
  | @starts pool tasks t claimed heeds mem looksUp idle =>
    refine .starts claimed heeds mem looksUp fun u hu hid => ?_
    have hmem : ∃ v ∈ (e.markCancelled id).tasks, (v.id, v.job) = (u.id, u.job) :=
      List.mem_map.1 (e.markCancelled_tasks id ▸ List.mem_map_of_mem hu)
    obtain ⟨v, hv, hsame⟩ := hmem
    obtain ⟨hvid, hvjob⟩ := Prod.mk.inj hsame
    exact hvjob ▸ idle v hv (hvid.trans hid)
  | applies refusals found provider tasks =>
    exact .applies refusals found provider tasks.of_markCancelled

/-- What is in a list in which one operation has taken a step. -/
theorem mem_split {before after : List Task} {t u : Task} :
    u ∈ before ++ t :: after ↔ u = t ∨ u ∈ before ++ after := by
  simp only [List.mem_append, List.mem_cons]
  tauto

/-- One operation has taken a step, and the others stay as they are. -/
theorem heeds_step {now : Instant} {before after : List Task} {t : Task} {job : Job}
    (h : ∀ u ∈ before ++ t :: after, u.job.Heeds limit now) (hjob : job.Heeds limit now) :
    ∀ u ∈ before ++ { t with job } :: after, u.job.Heeds limit now := by
  intro u hu
  rcases mem_split.1 hu with rfl | hu
  · exact hjob
  · exact h u (mem_split.2 (.inr hu))

theorem Keep.step {now : Instant} {before after : List Task} {t : Task} {job : Job}
    (h : ∀ u ∈ before ++ t :: after, u.job.Heeds limit now) (hjob : job.Heeds limit now)
    (hlooks : job.looksUp = true → t.job.looksUp = true) :
    Keep limit now (before ++ t :: after) (before ++ { t with job } :: after) := by
  refine ⟨heeds_step h hjob, fun u hu hlooks' => ?_⟩
  rcases mem_split.1 hu with rfl | hu
  · exact ⟨t, mem_split.2 (.inl rfl), rfl, hlooks hlooks'⟩
  · exact ⟨u, mem_split.2 (.inr hu), rfl, hlooks'⟩

/-- The step of one operation, picked by its number. -/
theorem shifts_stepTask (he : e.Within limit) (distinct : (e.tasks.map (·.id)).Nodup)
    {step : Task → Provider → Provider × Job}
    (hstep : ∀ t ∈ e.tasks, Task.Shifts limit e.provider t.job.looksUp (step t e.provider)) :
    e.Shifts limit (e.stepTask id step) := by
  cases hfind : e.task? id with
  | none =>
    unfold stepTask
    rw [hfind]
    exact .refl he
  | some t =>
    obtain ⟨-, before, after, htasks⟩ := exists_split hfind
    have hshifts := hstep t (List.mem_of_find?_eq_some hfind)
    have hheeds : ∀ u ∈ before ++ t :: after, u.job.Heeds limit e.provider.now := htasks ▸ he.tasks
    rw [stepTask_of_split distinct hfind htasks step]
    rw [htasks] at distinct
    generalize step t e.provider = x at hshifts
    cases hshifts with
    | keeps h =>
      exact .keeps h.redated.provider (htasks ▸ .step hheeds h.redated.stands h.looksUp)
    | starts claimed idle looksUp heeds =>
      refine .starts claimed (heeds_step hheeds heeds) (mem_split.2 (.inl rfl)) looksUp ?_
      intro u hu hid
      rw [htasks] at hu
      rcases mem_split.1 hu with rfl | hu
      · exact idle
      · exact absurd hid (ne_of_split distinct u hu)
    | applies refusals found waited redated done =>
      have hlooks : x.2.looksUp = true → t.job.looksUp = true := fun _ => waited
      exact .applies refusals found redated.provider
        (htasks ▸ .step hheeds redated.stands hlooks)

/-- Something reaches one operation. -/
theorem shifts_resume (he : e.Within limit) (distinct : (e.tasks.map (·.id)).Nodup) (id : TaskId)
    (i : Input) : e.Shifts limit (e.stepTask id fun t p => t.handle p i) :=
  shifts_stepTask he distinct fun t ht => (Task.shifts_handle he.provider (he.tasks t ht) i).1

/-- Something reaches every operation, and makes none of them wake up. -/
theorem keeps_driveAll {i : Input} (hi : i ≠ .woke) (hp : p.Within limit)
    (h : ∀ t ∈ tasks, t.job.Heeds limit p.now) :
    p.Redates limit (driveAll i p tasks).1 ∧ Keep limit p.now tasks (driveAll i p tasks).2 := by
  induction tasks generalizing p with
  | nil => exact ⟨.refl limit p, .refl h⟩
  | cons t rest ih =>
    have hkeeps := (Task.shifts_handle hp (h t List.mem_cons_self) i).2 hi
    have hnow := hkeeps.redated.provider.now
    obtain ⟨hredates, hrest⟩ := ih (hkeeps.redated.provider.within hp) fun u hu => by
      rw [hnow]
      exact h u (List.mem_cons_of_mem t hu)
    rw [hnow] at hrest
    refine ⟨hkeeps.redated.provider.trans hredates, fun u hu => ?_, fun u hu hlooks => ?_⟩
    · rcases List.mem_cons.1 hu with rfl | hu
      · exact hkeeps.redated.stands
      · exact hrest.heeds u hu
    · rcases List.mem_cons.1 hu with rfl | hu
      · exact ⟨t, List.mem_cons_self, rfl, hkeeps.looksUp hlooks⟩
      · obtain ⟨v, hv, hsame⟩ := hrest.looksUp u hu hlooks
        exact ⟨v, List.mem_cons_of_mem t hv, hsame⟩

/-- An operation has started. -/
theorem shifts_start (he : e.Within limit) (hnew : ∀ u ∈ e.tasks, u.id ≠ id) (cancelled : Bool)
    (op : Operation) :
    e.Shifts limit ⟨(Task.begin id cancelled e.provider op).1,
      e.tasks ++ [⟨id, cancelled, (Task.begin id cancelled e.provider op).2⟩]⟩ := by
  have hshifts := Task.shifts_begin he.provider id cancelled op
  generalize Task.begin id cancelled e.provider op = x at hshifts
  have hheeds {job : Job} (hjob : job.Heeds limit e.provider.now) :
      ∀ u ∈ e.tasks ++ [⟨id, cancelled, job⟩], u.job.Heeds limit e.provider.now := by
    intro u hu
    rcases List.mem_append.1 hu with hu | hu
    · exact he.tasks u hu
    · rw [List.mem_singleton.1 hu]
      exact hjob
  cases hshifts with
  | keeps h =>
    refine .keeps h.redated.provider ⟨hheeds h.redated.stands, fun u hu hlooks => ?_⟩
    rcases List.mem_append.1 hu with hu | hu
    · exact ⟨u, hu, rfl, hlooks⟩
    · rw [List.mem_singleton.1 hu] at hlooks
      cases h.looksUp hlooks
  | starts claimed idle looksUp heeds =>
    exact .starts claimed (hheeds heeds) (List.mem_append_right _ List.mem_cons_self) looksUp
      fun u hu hid => absurd hid (hnew u hu)
  | applies refusals found waited redated done => cases waited

/-- **What an event may make of an engine**, if it reaches operations. -/
theorem shifts_handle (he : e.Within limit) (distinct : (e.tasks.map (·.id)).Nodup) {event : Event}
    (h : event.said? = none) : e.Shifts limit (e.handle event) := by
  have hdriven {i : Input} (hi : i ≠ .woke) : e.Shifts limit (e.drive i) := by
    obtain ⟨hredates, hkeep⟩ := keeps_driveAll hi he.provider he.tasks
    exact .keeps hredates hkeep
  cases event with
  | start id op cancelled =>
    simp only [handle]
    split
    · exact .refl he
    · next hnone => exact shifts_start he (ne_of_find?_eq_none (Bool.eq_false_iff.2 hnone)) _ _
  | cancel id =>
    refine .of_markCancelled (shifts_resume (within_markCancelled he id) ?_ id .cancelled)
    rw [ids_markCancelled]
    exact distinct
  | abandon id =>
    simp only [handle]
    cases e.task? id with
    | none => exact .refl he
    | some t =>
      have hsub {u : Task} (hu : u ∈ e.tasks.filter (·.id ≠ id)) : u ∈ e.tasks :=
        (List.mem_filter.1 hu).1
      exact .keeps (Task.redates_abandon he.provider t)
        ⟨fun u hu => he.tasks u (hsub hu), fun u hu hlooks => ⟨u, hsub hu, rfl, hlooks⟩⟩
  | resume id => exact shifts_resume he distinct id .resumed
  | answer ticket reply => exact hdriven fun hi => by cases hi
  | fallback call => exact hdriven fun hi => by cases hi
  | wake id => exact shifts_resume he distinct id .woke
  | lookedUp id refusals found =>
    show e.Shifts limit (e.stepTask id fun t p => t.lookedUp p refusals found)
    exact shifts_stepTask he distinct fun t ht =>
      Task.shifts_lookedUp he.provider (he.tasks t ht) refusals found
  | advance d => cases h
  | drew d => cases h
  | watch r => cases h
  | setDirty most draws => cases h
  | configure c => cases h
  | replaceFound refusals found => cases h

end Engine
end ReplicatedConfig
