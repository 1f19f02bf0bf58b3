import ReplicatedConfig.Proofs.Coherence.Jobs
import ReplicatedConfig.Proofs.Tasks

/-!
# Operations side by side keep what agrees

`Engine.Lawful` is what holds of the engine after every event: what the provider has loaded is
coherent, every operation stands where it may stand, and the snapshot shows the entries unless
some operation is behind.  One that is behind has the lock, so whenever the lock is free the
snapshot shows the entries (`agrees_of_free`).

Three things that could happen are left out (`Engine.Admits`): a replica that replies to a read
with a setting of another name, a name that is watched for the first time after the start,
and an operation that is dropped while it is behind.  To give an operation up is a different
thing, and may happen at any time.
-/

namespace ReplicatedConfig

variable {answers : Replies} {p q : Provider}

/-! ## Before anything has been loaded -/

/-- A provider that has not loaded anything, with the names that it watches. -/
structure Provider.Unloaded (p : Provider) : Prop where
  watched : p.watchList.identities.Nodup
  tokens : ∀ w ∈ p.watchList.watches, w.token = none
  materialized : p.materialized = .empty
  loaded : p.loaded = false
  version : p.publisher.current.version = 0

namespace Provider

/-- Watching a name changes the watch list only. -/
theorem exists_register_of_watch {r : WatchRequest} (h : p.watch r = .ok q) :
    ∃ l place, p.watchList.register r p.now = .ok (l, place) ∧ q = { p with watchList := l } := by
  unfold watch at h
  cases hl : p.watchList.register r p.now with
  | error e =>
    rw [hl] at h
    cases h
  | ok x =>
    rw [hl] at h
    cases h
    exact ⟨x.1, x.2, rfl, rfl⟩

theorem Unloaded.coherent (h : p.Unloaded) : p.Coherent where
  watched := h.watched
  entries := by
    rw [h.materialized]
    exact List.nodup_nil
  loaded := by simp [h.loaded, h.version]
  tokens w hw := by
    rw [h.tokens w hw, h.materialized]
    rfl

theorem Unloaded.published (h : p.Unloaded) : p.Published := fun hloaded => by
  rw [h.loaded] at hloaded
  cases hloaded

end Provider

/-! ## Every event -/

namespace Engine

/-- What holds of a provider and the operations under way on it. -/
structure Lawful (answers : Replies) (p : Provider) (tasks : List Task) : Prop where
  coherent : p.Coherent
  distinct : (tasks.map (·.id)).Nodup
  sound : ∀ t ∈ tasks, t.job.Sound answers t.id p
  shown : p.Published ∨ ∃ t ∈ tasks, t.job.Behind

/-- Events that may come: replies that may be given, requests to watch a name that is watched,
and any other event but that an operation is dropped while it is behind. -/
def Admits (answers : Replies) (e : Engine) : Event → Prop
  | .answer ticket reply => ∀ t ∈ e.tasks,
    (Input.answered ticket reply).Admitted answers (t.waits e.provider)
  | .watch r => r.check = .ok () → r.identity ∈ e.provider.watchList.identities
  | .abandon id => ∀ t ∈ e.tasks, t.id = id → ¬ t.job.Behind
  | _ => True

/-- Events that are admitted one after the other. -/
def AdmitsAll (answers : Replies) : Engine → List Event → Prop
  | _, [] => True
  | e, event :: rest => e.Admits answers event ∧ AdmitsAll answers (e.handle event) rest

/-- One of the operations has taken a step. -/
theorem Lawful.step {before after : List Task} {t : Task} {x : Provider × Job}
    (h : Lawful answers p (before ++ t :: after)) (hx : Task.Fares answers t.id p t.job.Behind x) :
    Lawful answers x.1 (before ++ { t with job := x.2 } :: after) := by
  obtain ⟨hadvances, hsound⟩ := hx
  have hmem {v u : Task} : u ∈ before ++ v :: after ↔ u = v ∨ u ∈ before ++ after := by
    simp only [List.mem_append, List.mem_cons]
    tauto
  refine ⟨hadvances.coherent, ?_, fun u hu => ?_, ?_⟩
  · have hdistinct := h.distinct
    rw [List.map_append, List.map_cons] at hdistinct ⊢
    exact hdistinct
  · rcases hmem.1 hu with rfl | hu
    · exact hsound
    · exact (h.sound u (hmem.2 (.inr hu))).of_spares (hadvances.spares (ne_of_split h.distinct u hu))
  -- Either the operation that steps is behind, and then what its step says decides, or another
  -- one is, which stays where it is.
  · have hnow : x.1.Published ∨ x.2.Behind → x.1.Published ∨
        ∃ u ∈ before ++ { t with job := x.2 } :: after, u.job.Behind :=
      .imp_right fun hbehind => ⟨_, hmem.2 (.inl rfl), hbehind⟩
    rcases h.shown with hpublished | ⟨u, hu, hbehind⟩
    · exact hnow (hadvances.shown (.inl hpublished))
    · rcases hmem.1 hu with rfl | hu
      · exact hnow (hadvances.shown (.inr hbehind))
      · exact .inr ⟨u, hmem.2 (.inr hu), hbehind⟩

/-- Nothing that has been loaded has changed. -/
theorem Lawful.of_alike {tasks : List Task} (h : Lawful answers p tasks) (hq : p.Alike q) :
    Lawful answers q tasks where
  coherent := h.coherent.of_alike hq
  distinct := h.distinct
  sound t ht := (h.sound t ht).of_spares (hq.spares t.id)
  shown := h.shown.imp_left fun hpublished => hpublished.of_alike hq

/-- An operation has started. -/
theorem Lawful.start {tasks : List Task} {id : TaskId} {cancelled : Bool} {x : Provider × Job}
    (h : Lawful answers p tasks) (hnew : ∀ t ∈ tasks, t.id ≠ id)
    (hx : Task.Fares answers id p False x) :
    Lawful answers x.1 (tasks ++ [⟨id, cancelled, x.2⟩]) := by
  obtain ⟨hadvances, hsound⟩ := hx
  refine ⟨hadvances.coherent, nodup_ids_concat h.distinct hnew, fun u hu => ?_, ?_⟩
  · rcases List.mem_append.1 hu with hu | hu
    · exact (h.sound u hu).of_spares (hadvances.spares (hnew u hu))
    · rw [List.mem_singleton.1 hu]
      exact hsound
  · rcases h.shown with hpublished | ⟨u, hu, hbehind⟩
    · refine (hadvances.shown (.inl hpublished)).imp_right fun hbehind => ?_
      exact ⟨_, List.mem_append_right _ List.mem_cons_self, hbehind⟩
    · exact .inr ⟨u, List.mem_append_left _ hu, hbehind⟩

/-- An operation that is not behind has been dropped. -/
theorem Lawful.drop {tasks : List Task} {t : Task} (h : Lawful answers p tasks)
    (hbehind : ∀ u ∈ tasks, u.id = t.id → ¬ u.job.Behind)
    (hq : p.Advances t.id False q False) :
    Lawful answers q (tasks.filter (·.id ≠ t.id)) := by
  have hmem {u : Task} : u ∈ tasks.filter (·.id ≠ t.id) ↔ u ∈ tasks ∧ u.id ≠ t.id := by
    rw [List.mem_filter, decide_eq_true_eq]
  refine ⟨hq.coherent, h.distinct.sublist (List.filter_sublist.map _), fun u hu => ?_, ?_⟩
  · obtain ⟨hu, hne⟩ := hmem.1 hu
    exact (h.sound u hu).of_spares (hq.spares hne)
  · rcases h.shown with hpublished | ⟨u, hu, hu'⟩
    · exact (hq.shown (.inl hpublished)).imp_right False.elim
    · exact .inr ⟨u, hmem.2 ⟨hu, fun hid => hbehind u hu hid hu'⟩, hu'⟩

/-- Noting that an operation has been given up. -/
theorem Lawful.markCancelled {e : Engine} (h : Lawful answers e.provider e.tasks) (id : TaskId) :
    Lawful answers (e.markCancelled id).provider (e.markCancelled id).tasks := by
  refine ⟨h.coherent, ?_, fun u hu => ?_, ?_⟩
  · rw [ids_markCancelled]
    exact h.distinct
  · obtain ⟨t, ht, hid, hjob⟩ := exists_of_mem_markCancelled hu
    rw [← hid, ← hjob]
    exact h.sound t ht
  · refine h.shown.imp_right fun ⟨t, ht, hbehind⟩ => ?_
    refine ⟨_, List.mem_map_of_mem ht, ?_⟩
    split <;> exact hbehind

/-- The step of one operation, picked by its number. -/
theorem Lawful.stepTask {e : Engine} (h : Lawful answers e.provider e.tasks) {id : TaskId}
    {step : Task → Provider → Provider × Job}
    (hstep : ∀ t ∈ e.tasks, Task.Fares answers t.id e.provider t.job.Behind (step t e.provider)) :
    Lawful answers (e.stepTask id step).provider (e.stepTask id step).tasks := by
  cases hfind : e.task? id with
  | none =>
    unfold Engine.stepTask
    rw [hfind]
    exact h
  | some t =>
    obtain ⟨-, before, after, htasks⟩ := exists_split hfind
    rw [stepTask_of_split h.distinct hfind htasks step]
    rw [htasks] at h
    exact h.step (hstep t (List.mem_of_find?_eq_some hfind))

/-- An input that reaches every operation: those before have taken their steps. -/
theorem Lawful.driveAll (named : answers.Named) {i : Input} (before : List Task) {tasks : List Task}
    (h : Lawful answers p (before ++ tasks)) (admitted : ∀ t ∈ tasks, i.Admitted answers (t.waits p)) :
    Lawful answers (Engine.driveAll i p tasks).1 (before ++ (Engine.driveAll i p tasks).2) := by
  -- The induction is on the operations that have not stepped yet.
  induction tasks generalizing p before with
  | nil => exact h
  | cons t rest ih =>
    have ht : t ∈ before ++ t :: rest := List.mem_append_right _ List.mem_cons_self
    have hfares := Task.fares_handle named h.coherent (h.sound t ht) (admitted t List.mem_cons_self)
    have hstep := h.step hfares
    rw [← List.singleton_append, ← List.append_assoc] at hstep
    have hrest := ih _ hstep fun u hu =>
      Task.admitted_of_admitted p _ (admitted u (List.mem_cons_of_mem _ hu))
    rw [List.append_assoc, List.singleton_append] at hrest
    exact hrest

/-- **Every event keeps what is lawful.** -/
theorem Lawful.handle (named : answers.Named) {e : Engine} (h : Lawful answers e.provider e.tasks)
    {event : Event} (admits : e.Admits answers event) :
    Lawful answers (e.handle event).provider (e.handle event).tasks := by
  have hresume (i : Input) (hi : ∀ waits, i.Admitted answers waits) {e : Engine}
      (h : Lawful answers e.provider e.tasks) (id : TaskId) :
      Lawful answers (e.stepTask id fun t p => t.handle p i).provider
        (e.stepTask id fun t p => t.handle p i).tasks :=
    h.stepTask fun t ht => Task.fares_handle named h.coherent (h.sound t ht) (hi _)
  cases event with
  | start id op cancelled =>
    simp only [Engine.handle]
    split
    · exact h
    · next hnone =>
      have hnew := ne_of_find?_eq_none (Bool.eq_false_iff.2 hnone)
      exact h.start hnew (Task.fares_begin named h.coherent op)
  | cancel id => exact hresume .cancelled (fun _ => trivial) (h.markCancelled id) id
  | abandon id =>
    simp only [Engine.handle]
    cases hfind : e.task? id with
    | none => exact h
    | some t =>
      have hid : t.id = id := by simpa using List.find?_some hfind
      subst hid
      have ht : ¬ t.job.Behind := admits t (List.mem_of_find?_eq_some hfind) rfl
      have hadvances := Task.advances_abandon h.coherent t
      exact h.drop admits ⟨hadvances.rules, hadvances.loaded, hadvances.yields, hadvances.coherent,
        fun hp => (hadvances.shown (hp.imp_right False.elim)).imp_right ht⟩
  | resume id => exact hresume .resumed (fun _ => trivial) h id
  | answer ticket reply => exact Lawful.driveAll named [] h admits
  | fallback call => exact Lawful.driveAll named [] h fun _ _ => trivial
  | wake id => exact hresume .woke (fun _ => trivial) h id
  | lookedUp id refusals found =>
    exact h.stepTask fun t ht =>
      Task.fares_lookedUp named h.coherent (h.sound t ht) refusals found
  | advance d => exact h.of_alike ⟨rfl, rfl, rfl, rfl, rfl, rfl, rfl⟩
  | drew d => exact h.of_alike ⟨rfl, rfl, rfl, rfl, rfl, rfl, rfl⟩
  | watch r =>
    simp only [Engine.handle, Engine.update]
    split
    · next q hq =>
      obtain ⟨l, place, hl, rfl⟩ := Provider.exists_register_of_watch hq
      have hr := admits (WatchList.check_of_register hl)
      exact h.of_alike (.of_watchList e.provider (WatchList.known_register hr hl))
    · exact h
  | setDirty most draws =>
    exact h.of_alike (.of_watchList e.provider (WatchList.known_setDirty _ _ _ _))
  | configure c => exact h.of_alike ⟨rfl, rfl, rfl, rfl, rfl, rfl, rfl⟩
  | replaceFound refusals found =>
    simp only [Engine.handle, Engine.update]
    split
    · exact h.of_alike ⟨rfl, rfl, rfl, rfl, rfl, rfl, rfl⟩
    · exact h

/-- So does a run. -/
theorem Lawful.run (named : answers.Named) {events : List Event} {e : Engine}
    (h : Lawful answers e.provider e.tasks) (admits : e.AdmitsAll answers events) :
    Lawful answers (e.run events).provider (e.run events).tasks := by
  induction events generalizing e with
  | nil => exact h
  | cons event rest ih => exact ih (h.handle named admits.1) admits.2

theorem lawful_new (h : p.Unloaded) : Lawful answers (new p).provider (new p).tasks where
  coherent := h.coherent
  distinct := List.nodup_nil
  sound _ ht := absurd ht List.not_mem_nil
  shown := .inl h.published

/-- **Whenever the lock is free**, entries, tokens and the snapshot agree, whatever has happened
since the names were watched. -/
theorem agrees_of_free (h : p.Unloaded) (named : answers.Named) {events : List Event}
    (admits : (new p).AdmitsAll answers events) (hq : ((new p).run events).provider = q)
    (free : q.lock.holder = none) :
    (q.materialized.entries.map (·.identity)).Nodup ∧
    (q.loaded = true ↔ 1 ≤ q.publisher.current.version) ∧
    (q.loaded = true → q.publisher.current.values = q.materialized.values) ∧
    ∀ w ∈ q.watchList.watches,
      w.token = (q.materialized.find? w.identity).map (·.setting.token) ∧
      (w.token = none ↔ w.identity ∉ q.materialized.entries.map (·.identity)) := by
  subst hq
  have hlawful := (lawful_new h).run named admits
  have hpublished : ((new p).run events).provider.Published := by
    rcases hlawful.shown with hpublished | ⟨t, ht, hbehind⟩
    · exact hpublished
    -- An operation that is behind would have the lock.
    · have hholds := hbehind.holds (hlawful.sound t ht)
      rw [free] at hholds
      cases hholds
  refine ⟨hlawful.coherent.entries, hlawful.coherent.loaded, hpublished, fun w hw => ?_⟩
  have htoken := hlawful.coherent.tokens w hw
  refine ⟨htoken, ?_⟩
  rw [htoken]
  exact Materialized.tokenOf_eq_none_iff

/-- A provider that watches the one setting of its store. -/
def colored : Provider :=
  .new (.ofHosts ["a"]) default ⟨[.new ⟨⟨"Color", none⟩, .ofSecs 1, false⟩ .start]⟩ .empty
    ⟨[⟨"*", none⟩], false, .ofSecs 100⟩ .start

/-- The setting is loaded, and a pass finds that it is gone. -/
def fading : List Event :=
  [.start 0 .load false,
    .answer ⟨0, 0, 0⟩ (.ok (.page ⟨[⟨"Color", none, some "blue", none, ⟨"1"⟩⟩], none⟩)),
    .resume 0, .advance (.ofSecs 1), .start 1 .refresh false, .resume 1,
    .answer ⟨1, 0, 0⟩ (.ok (.verdict .missing))]

/-- Two snapshots have been published, and the second one is as empty as the entries. -/
theorem agrees_fading : ∃ q, ((new colored).run fading).provider = q ∧ q.lock.holder = none ∧
    q.loaded = true ∧ q.publisher.current.version = 2 ∧
    q.publisher.current.values = q.materialized.values ∧ q.materialized.entries = [] ∧
    ∀ w ∈ q.watchList.watches, w.token = none := by
  have hunloaded : colored.Unloaded := ⟨by decide, by decide, rfl, rfl, rfl⟩
  have hadmits : (new colored).AdmitsAll .naming fading := by
    refine ⟨trivial, fun _ _ _ _ _ s hs => ?_, trivial, trivial, trivial, trivial,
      fun _ _ _ _ _ s hs => ?_, trivial⟩
    · cases hs
    · cases hs
  obtain ⟨-, hloaded, hvalues, htokens⟩ :=
    agrees_of_free hunloaded Replies.named_naming hadmits rfl rfl
  refine ⟨_, rfl, rfl, rfl, rfl, hvalues (hloaded.2 (by decide)), rfl, fun w hw => ?_⟩
  exact (htokens w hw).2.2 List.not_mem_nil

end Engine
end ReplicatedConfig
