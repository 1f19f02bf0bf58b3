import ReplicatedConfig.Proofs.Schedule.Marks
import ReplicatedConfig.Proofs.Tasks
import ReplicatedConfig.Proofs.Watch

/-!
# What becomes of a nudge

A nudge brings the next look at every watched key forward, to a point within a given time.
Whether that lasts depends on who writes the next look afterwards.  `nudge_lasts` says it for
every run before and behind the nudge: a key is due within the time, or a refresh of it has
begun since, or it was watched again, unless a full load has completed in the meantime or a
check of it has ended that was under way when the nudge came.

The last two cases are real, and neither of them says that the key was looked at after the
nudge: a load that has listed the key already, and a check that has its answer already, push
the next look out by one interval when they end (`nudge_overtaken`).

The proof follows one key through a run.  Between two events of operations it stands as the
marks say (`Provider.Marks.get?`), and other events only bring its next look forward or are
about watching it again.
-/

namespace ReplicatedConfig

/-! ## One key between marks -/

/-- What lies between two states of a watch: its next look is put off only for the reasons
given, and it is held only where it was or where a refresh of it has begun. -/
structure Watch.Passes (place : Nat) (w : Watch) (marks : List Mark) (again : Prop) (w' : Watch) :
    Prop where
  identity : w'.identity = w.identity
  expires : w'.expiresAt ≤ w.expiresAt ∨ .ended place ∈ marks ∨ .loaded ∈ marks ∨ again
  held : w'.held = true → w.held = true ∨ .began place ∈ marks
  ended : .ended place ∈ marks → w.held = true ∨ .began place ∈ marks

namespace Watch.Passes

variable {place : Nat} {w w' w'' : Watch} {xs ys : List Mark} {again again' : Prop}

theorem refl (place : Nat) (w : Watch) (again : Prop) : w.Passes place [] again w :=
  ⟨rfl, .inl (Nat.le_refl _), .inl, fun h => absurd h List.not_mem_nil⟩

theorem imp (h : w.Passes place xs again w') (himp : again → again') :
    w.Passes place xs again' w' :=
  ⟨h.identity, h.expires.imp_right (.imp_right (.imp_right himp)), h.held, h.ended⟩

theorem trans (h : w.Passes place xs again w') (h' : w'.Passes place ys again' w'') :
    w.Passes place (xs ++ ys) (again ∨ again') w'' where
  identity := h'.identity.trans h.identity
  expires := by
    simp only [List.mem_append]
    rcases h.expires with hle | hended | hloaded | hagain
    · rcases h'.expires with hle' | hended | hloaded | hagain
      · exact .inl (Nat.le_trans hle' hle)
      · exact .inr (.inl (.inr hended))
      · exact .inr (.inr (.inl (.inr hloaded)))
      · exact .inr (.inr (.inr (.inr hagain)))
    · exact .inr (.inl (.inl hended))
    · exact .inr (.inr (.inl (.inl hloaded)))
    · exact .inr (.inr (.inr (.inl hagain)))
  held hheld := by
    rw [List.mem_append]
    rcases h'.held hheld with hheld | hbegan
    · exact (h.held hheld).imp_right .inl
    · exact .inr (.inr hbegan)
  ended hended := by
    rw [List.mem_append] at hended ⊢
    rcases hended with hended | hended
    · exact (h.ended hended).imp_right .inl
    · rcases h'.ended hended with hheld | hbegan
      · exact (h.held hheld).imp_right .inl
      · exact .inr (.inr hbegan)

end Watch.Passes

namespace Provider

variable {p q : Provider} {marks : List Mark} {place : Nat} {w : Watch}

/-- The key at a place behind a change of the key at a place. -/
theorem get?_modify_of_get? {l : WatchList} (hw : l.get? place = some w) (i : Nat)
    (f : Watch → Watch) :
    (l.modify i f).get? place = some (if i = place then f w else w) := by
  rw [WatchList.get?_modify, hw]
  split <;> rfl

/-- **What marks make of one key.** -/
theorem Marks.get? (h : p.Marks marks q) (hw : p.watchList.get? place = some w) :
    ∃ w', q.watchList.get? place = some w' ∧ w.Passes place marks False w' := by
  induction h generalizing w with
  | @quiet p q now schedule =>
    obtain ⟨v, hv, hvw⟩ := WatchList.exists_of_schedule schedule hw
    have hname : v.identity = w.identity := congrArg Prod.fst hvw
    have hexpires : v.expiresAt = w.expiresAt := congrArg (·.2.2.1) hvw
    have hheld : v.held = w.held := congrArg (·.2.2.2) hvw
    refine ⟨v, hv, hname, .inl (Nat.le_of_eq (congrArg _ hexpires)), fun h => ?_, ?_⟩
    · exact .inl (hheld ▸ h)
    · exact fun h => absurd h List.not_mem_nil
  | @began p i watchList claimed =>
    unfold WatchList.begin? at claimed
    split at claimed
    · split at claimed
      · cases claimed
        refine ⟨_, get?_modify_of_get? hw i _, ?_, .inl ?_, fun h => ?_, fun h => ?_⟩
        · split <;> rfl
        · split <;> exact Nat.le_refl _
        · split at h
          · next hi => exact .inr (hi ▸ List.mem_cons_self)
          · exact .inl h
        · cases List.mem_singleton.1 h
      · cases claimed
    · cases claimed
  | @ended p i held =>
    refine ⟨_, get?_modify_of_get? hw i _, ?_, ?_, fun h => ?_, fun h => ?_⟩
    · split <;> rfl
    · split
      · next hi => exact .inr (.inl (hi ▸ List.mem_cons_self))
      · exact .inl (Nat.le_refl _)
    · split at h
      · cases h
      · exact .inl h
    -- An end is only marked where the key was held.
    · cases List.mem_singleton.1 h
      obtain ⟨v, hv, hheld⟩ := held
      rw [hw] at hv
      cases hv
      exact .inl hheld
  | loaded me p watched entries =>
    refine ⟨_, by rw [Reload.get?_commit, hw, Option.map_some], ?_, ?_, fun h => .inl ?_, fun h => ?_⟩
    · split <;> rfl
    · exact .inr (.inr (.inl List.mem_cons_self))
    · split at h <;> exact h
    · cases List.mem_singleton.1 h
  | trans before after ihBefore ihAfter =>
    obtain ⟨v, hv, hpasses⟩ := ihBefore hw
    obtain ⟨u, hu, hpasses'⟩ := ihAfter hv
    have htrans := hpasses.trans hpasses'
    rw [or_false] at htrans
    exact ⟨u, hu, htrans⟩

/-- Watching some name again leaves other keys as they are. -/
theorem passes_register {l l' : WatchList} {r : WatchRequest} {now : Instant} {i : Nat}
    (h : l.register r now = .ok (l', i)) (hw : l.get? place = some w) :
    ∃ w', l'.get? place = some w' ∧ w'.held = w.held ∧
      w.Passes place [] (r.identity = w.identity) w' := by
  unfold WatchList.register at h
  cases hcheck : r.check with
  | error e =>
    rw [hcheck] at h
    cases h
  | ok u =>
    rw [hcheck] at h
    cases hfind : l.find? r.identity with
    | some j =>
      simp only [hfind] at h
      cases h
      refine ⟨_, get?_modify_of_get? hw _ _, ?_, ?_, ?_, fun h => .inl ?_, fun h => ?_⟩
      · split <;> rfl
      · split <;> rfl
      · split
        · next hi =>
          subst hi
          obtain ⟨hj, hname, -⟩ := List.findIdx?_eq_some_iff_getElem.1 hfind
          have hget : l.get? i = some l.watches[i] := List.getElem?_eq_getElem hj
          rw [hw, Option.some.injEq] at hget
          rw [hget]
          exact .inr (.inr (.inr (of_decide_eq_true hname).symm))
        · exact .inl (Nat.le_refl _)
      · split at h <;> exact h
      · exact absurd h List.not_mem_nil
    | none =>
      simp only [hfind] at h
      cases h
      refine ⟨w, ?_, rfl, .refl place w _⟩
      have hlt : place < l.watches.length := (List.getElem?_eq_some_iff.1 hw).1
      exact (List.getElem?_append_left hlt).trans hw

/-- Watching a name, for the first time or again, leaves what is held as it is. -/
theorem held_register {l l' : WatchList} {r : WatchRequest} {now : Instant} {i : Nat}
    (h : l.register r now = .ok (l', i)) :
    (∃ w, l'.get? place = some w ∧ w.held = true) ↔ ∃ w, l.get? place = some w ∧ w.held = true := by
  refine ⟨fun ⟨v, hv, hheld⟩ => ?_, fun ⟨w, hw, hheld⟩ => ?_⟩
  · cases hw : l.get? place with
    | some w =>
      obtain ⟨w', hw', hsame, -⟩ := passes_register h hw
      obtain rfl : v = w' := Option.some.inj (hv.symm.trans hw')
      exact ⟨w, rfl, hsame.symm.trans hheld⟩
    -- A place that was not there before belongs to a name that nobody holds.
    | none =>
      rcases WatchList.register_cases h with ⟨-, hsame⟩ | ⟨-, rfl⟩
      · have hknown := congrArg (·[place]?) hsame
        simp only [WatchList.known, List.getElem?_map] at hknown
        change (l'.get? place).map _ = (l.get? place).map _ at hknown
        rw [hv, hw] at hknown
        cases hknown
      · have hmem : v ∈ [Watch.new r now] := by
          have hlen : l.watches.length ≤ place := List.getElem?_eq_none_iff.1 hw
          have hget : (l.watches ++ [Watch.new r now])[place]? = some v := hv
          rw [List.getElem?_append_right hlen] at hget
          exact List.mem_of_getElem? hget
        rw [List.mem_singleton.1 hmem] at hheld
        cases hheld
  · obtain ⟨w', hw', hsame, -⟩ := passes_register h hw
    exact ⟨w', hw', hsame.trans hheld⟩

/-- What a nudge makes of the key at a place. -/
theorem get?_setDirty (l : WatchList) (now : Instant) (most : Duration) (draws : Nat → Nat)
    (place : Nat) : (l.setDirty now most draws).get? place = (l.get? place).map (Watch.nudged now
      (.ofNanos (min (draws place) (WatchList.drawRange most) * nanosPerMilli))) := by
  rw [WatchList.setDirty, WatchList.get?, List.getElem?_mapIdx]
  rfl

end Provider

/-! ## Runs -/

namespace Engine

/-- The marks that an event makes.  The passing of time, nudges and watching a key again have
none, since they do not belong to an operation. -/
def Marks (e : Engine) (marks : List Mark) : Event → Prop
  | .advance _ => marks = []
  | .watch _ => marks = []
  | .setDirty _ _ => marks = []
  | event => e.provider.Marks marks (e.handle event).provider

/-- The marks that a run of events makes, in order. -/
inductive Marked : Engine → List Event → List Mark → Prop where
  | done (e : Engine) : Marked e [] []
  | step {e : Engine} {event : Event} {events : List Event} {xs ys : List Mark}
      (here : e.Marks xs event) (rest : Marked (e.handle event) events ys) :
      Marked e (event :: events) (xs ++ ys)

variable {e : Engine} {event : Event} {events : List Event} {marks : List Mark} {place : Nat}
  {w : Watch}

/-- Whether a run watches a name again. -/
def Rewatches (events : List Event) (i : Identity) : Prop :=
  ∃ r, Event.watch r ∈ events ∧ r.identity = i

/-- What an event makes of one key. -/
theorem passes_handle (h : e.Marks marks event) (hw : e.provider.watchList.get? place = some w) :
    ∃ w', (e.handle event).provider.watchList.get? place = some w' ∧
      w.Passes place marks (Rewatches [event] w.identity) w' := by
  have hmarked (h : e.provider.Marks marks (e.handle event).provider) :
      ∃ w', (e.handle event).provider.watchList.get? place = some w' ∧
        w.Passes place marks (Rewatches [event] w.identity) w' := by
    obtain ⟨w', hw', hpasses⟩ := h.get? hw
    exact ⟨w', hw', hpasses.imp False.elim⟩
  cases event with
  | advance d =>
    cases h
    exact ⟨w, hw, .refl place w _⟩
  | watch r =>
    cases h
    simp only [Engine.handle, update, Provider.watch]
    cases hregister : e.provider.watchList.register r e.provider.now with
    | error cause => exact ⟨w, hw, .refl place w _⟩
    | ok x =>
      obtain ⟨l, i⟩ := x
      obtain ⟨w', hw', -, hpasses⟩ := Provider.passes_register hregister hw
      exact ⟨w', hw', hpasses.imp fun hname => ⟨r, List.mem_cons_self, hname⟩⟩
  | setDirty most draws =>
    cases h
    refine ⟨w.nudged e.provider.now
      (.ofNanos (min (draws place) (WatchList.drawRange most) * nanosPerMilli)), ?_, rfl, .inl ?_,
      fun h => .inl h, fun h => absurd h List.not_mem_nil⟩
    · exact (Provider.get?_setDirty _ _ _ _ _).trans (congrArg (Option.map _) hw)
    · rw [Watch.nudged, Instant.le_iff, Instant.nanos_min]
      exact Nat.min_le_left _ _
  | start id op cancelled => exact hmarked h
  | cancel id => exact hmarked h
  | abandon id => exact hmarked h
  | resume id => exact hmarked h
  | answer ticket reply => exact hmarked h
  | fallback call => exact hmarked h
  | wake id => exact hmarked h
  | lookedUp id refusals found => exact hmarked h
  | drew d => exact hmarked h
  | configure c => exact hmarked h
  | replaceFound refusals found => exact hmarked h

/-- What a run makes of one key. -/
theorem passes_run (h : e.Marked events marks) (hw : e.provider.watchList.get? place = some w) :
    ∃ w', (e.run events).provider.watchList.get? place = some w' ∧
      w.Passes place marks (Rewatches events w.identity) w' := by
  induction h generalizing w with
  | done e => exact ⟨w, hw, .refl place w _⟩
  | @step e event events xs ys here rest ih =>
    obtain ⟨v, hv, hpasses⟩ := passes_handle here hw
    obtain ⟨u, hu, hpasses'⟩ := ih hv
    rw [hpasses.identity] at hpasses'
    refine ⟨u, hu, (hpasses.trans hpasses').imp ?_⟩
    rintro (⟨r, hr, hname⟩ | ⟨r, hr, hname⟩)
    · exact ⟨r, List.mem_singleton.1 hr ▸ List.mem_cons_self, hname⟩
    · exact ⟨r, List.mem_cons_of_mem _ hr, hname⟩

/-! ## Operations keep their claims apart -/

/-- Operations have different numbers, and what they have claimed is held and kept apart. -/
structure Apart (p : Provider) (tasks : List Task) : Prop where
  distinct : (tasks.map (·.id)).Nodup
  claims : Pass.Apart p (tasks.flatMap (·.job.claims))

namespace Apart

variable {p q : Provider} {tasks : List Task}

theorem new (p : Provider) : Apart p [] := ⟨List.nodup_nil, .nil p⟩

/-- What was held is held. -/
theorem of_holds (h : Apart p tasks) (hq : ∀ place, p.Holds place → q.Holds place) :
    Apart q tasks :=
  ⟨h.distinct, fun place hplace => hq place (h.claims.held place hplace), h.claims.nodup⟩

theorem perm_claims (before after : List Task) (t : Task) :
    ((before ++ t :: after).flatMap (·.job.claims)).Perm
      (t.job.claims ++ (before ++ after).flatMap (·.job.claims)) :=
  (List.perm_middle.flatMap_right _).trans (by rw [List.flatMap_cons])

/-- What one operation has claimed is apart from what others have. -/
theorem split {before after : List Task} {t : Task} (h : Apart p (before ++ t :: after)) :
    Pass.Apart p t.job.claims ∧
      Pass.Apart p ((before ++ after).flatMap (·.job.claims)) ∧
      t.job.claims.Disjoint ((before ++ after).flatMap (·.job.claims)) := by
  have hperm := perm_claims before after t
  have hnodup := hperm.nodup_iff.1 h.claims.nodup
  obtain ⟨hown, hothers, hapart⟩ := List.nodup_append'.1 hnodup
  refine ⟨⟨fun place hplace => h.claims.held place ?_, hown⟩,
    ⟨fun place hplace => h.claims.held place ?_, hothers⟩, hapart⟩
  · exact hperm.mem_iff.2 (List.mem_append_left _ hplace)
  · exact hperm.mem_iff.2 (List.mem_append_right _ hplace)

theorem join {before after : List Task} {t : Task}
    (hdistinct : ((before ++ t :: after).map (·.id)).Nodup)
    (hown : Pass.Apart p t.job.claims)
    (hothers : Pass.Apart p ((before ++ after).flatMap (·.job.claims)))
    (hapart : t.job.claims.Disjoint ((before ++ after).flatMap (·.job.claims))) :
    Apart p (before ++ t :: after) := by
  have hperm := perm_claims before after t
  refine ⟨hdistinct, fun place hplace => ?_, ?_⟩
  · rcases List.mem_append.1 (hperm.mem_iff.1 hplace) with hplace | hplace
    · exact hown.held place hplace
    · exact hothers.held place hplace
  · exact hperm.nodup_iff.2 (List.nodup_append'.2 ⟨hown.nodup, hothers.nodup, hapart⟩)

theorem claims_markCancelled (e : Engine) (id : TaskId) :
    (e.markCancelled id).tasks.flatMap (·.job.claims) = e.tasks.flatMap (·.job.claims) := by
  have hjobs := congrArg (List.flatMap fun x => x.2.claims) (e.markCancelled_tasks id)
  simp only [List.flatMap_map] at hjobs
  exact hjobs

theorem markCancelled {e : Engine} (h : Apart e.provider e.tasks) (id : TaskId) :
    Apart (e.markCancelled id).provider (e.markCancelled id).tasks := by
  refine ⟨?_, ?_⟩
  · rw [ids_markCancelled]
    exact h.distinct
  · rw [claims_markCancelled]
    exact h.claims

end Apart

/-- What a step of some operations leaves behind: they are apart, and what is held has been
claimed by one of them, or was held before and claimed by none. -/
structure Leaves (p : Provider) (tasks : List Task) (q : Provider) (tasks' : List Task) :
    Prop where
  apart : Apart q tasks'
  covered : ∀ place, q.Holds place → place ∈ tasks'.flatMap (·.job.claims) ∨
    place ∉ tasks.flatMap (·.job.claims) ∧ p.Holds place

namespace Leaves

variable {p q r : Provider} {tasks tasks' tasks'' before after : List Task} {t : Task}

theorem of_holds (h : Apart p tasks) (hq : ∀ place, q.Holds place ↔ p.Holds place) :
    Leaves p tasks q tasks :=
  ⟨h.of_holds fun place => (hq place).2,
    fun place hplace => (em _).imp_right fun hnot => ⟨hnot, (hq place).1 hplace⟩⟩

theorem trans (hq : Leaves p tasks q tasks') (hr : Leaves q tasks' r tasks'') :
    Leaves p tasks r tasks'' := by
  refine ⟨hr.apart, fun place hplace => ?_⟩
  rcases hr.covered place hplace with hmem | ⟨hnot, hq'⟩
  · exact .inl hmem
  · exact (hq.covered place hq').elim (fun hmem => absurd hmem hnot) .inr

/-- One of the operations has taken a step. -/
theorem step {x : Provider × Job} (h : Apart p (before ++ t :: after))
    (hx : Task.Moves p t.job.claims x) :
    Leaves p (before ++ t :: after) x.1 (before ++ { t with job := x.2 } :: after) := by
  obtain ⟨-, hothers, hapart⟩ := h.split
  obtain ⟨hheld, hapart'⟩ := hx.moves.others hothers.held hapart
  refine ⟨.join ?_ ⟨hx.moves.held, hx.nodup⟩ ⟨hheld, hothers.nodup⟩ hapart', fun place hplace => ?_⟩
  · have hdistinct := h.distinct
    rw [List.map_append, List.map_cons] at hdistinct ⊢
    exact hdistinct
  · rw [(Apart.perm_claims before after t).mem_iff, (Apart.perm_claims before after _).mem_iff,
      List.mem_append, List.mem_append, not_or]
    rcases hx.moves.covered place hplace with hmem | ⟨hnot, hp⟩
    · exact .inl (.inl hmem)
    · exact (em _).imp .inr fun hnot' => ⟨⟨hnot, hnot'⟩, hp⟩

/-- An operation has started. -/
theorem start {id : TaskId} {cancelled : Bool} {x : Provider × Job} (h : Apart p tasks)
    (hnew : ∀ u ∈ tasks, u.id ≠ id) (hx : Task.Moves p [] x) :
    Leaves p tasks x.1 (tasks ++ [⟨id, cancelled, x.2⟩]) := by
  obtain ⟨hheld, hapart⟩ := hx.moves.others h.claims.held (List.disjoint_nil_left _)
  refine ⟨.join (nodup_ids_concat h.distinct hnew) ⟨hx.moves.held, hx.nodup⟩ ?_ ?_,
    fun place hplace => ?_⟩
  · rw [List.append_nil]
    exact ⟨hheld, h.claims.nodup⟩
  · rwa [List.append_nil]
  · rw [List.flatMap_append, List.mem_append, List.flatMap_singleton]
    rcases hx.moves.covered place hplace with hmem | ⟨-, hp⟩
    · exact .inl (.inr hmem)
    · exact (em _).imp .inl fun hnot => ⟨hnot, hp⟩

/-- An operation has been dropped. -/
theorem drop (h : Apart p (before ++ t :: after)) (hq : p.Moves t.job.claims q []) :
    Leaves p (before ++ t :: after) q (before ++ after) := by
  obtain ⟨-, hothers, hapart⟩ := h.split
  refine ⟨⟨h.distinct.sublist (List.Sublist.map _ ?_), (hq.others hothers.held hapart).1,
    hothers.nodup⟩, fun place hplace => ?_⟩
  · exact List.Sublist.append_left (List.sublist_cons_self _ _) _
  · rw [(Apart.perm_claims before after t).mem_iff, List.mem_append, not_or]
    rcases hq.covered place hplace with hmem | ⟨hnot, hp⟩
    · exact absurd hmem List.not_mem_nil
    · exact (em _).imp_right fun hnot' => ⟨⟨hnot, hnot'⟩, hp⟩

end Leaves

/-- What an event leaves behind, and that it has made marks. -/
def Keeps (e : Engine) (event : Event) : Prop :=
  Leaves e.provider e.tasks (e.handle event).provider (e.handle event).tasks ∧
    ∃ marks, e.Marks marks event

/-- One operation takes a step, picked by its number. -/
theorem leaves_stepTask {e : Engine} (h : Apart e.provider e.tasks) (id : TaskId)
    {step : Task → Provider → Provider × Job}
    (hstep : ∀ t, Pass.Apart e.provider t.job.claims →
      Task.Moves e.provider t.job.claims (step t e.provider)) :
    Leaves e.provider e.tasks (e.stepTask id step).provider (e.stepTask id step).tasks ∧
      ∃ marks, e.provider.Marks marks (e.stepTask id step).provider := by
  cases hfind : e.task? id with
  | none =>
    unfold stepTask
    rw [hfind]
    exact ⟨.of_holds h fun _ => Iff.rfl, [], .quiet rfl rfl⟩
  | some t =>
    obtain ⟨-, before, after, htasks⟩ := exists_split hfind
    rw [stepTask_of_split h.distinct hfind htasks step]
    rw [htasks] at h ⊢
    have hmoves := hstep t h.split.1
    exact ⟨.step h hmoves, hmoves.moves.marks⟩

/-- Something reaches one operation. -/
theorem leaves_resume {e : Engine} (h : Apart e.provider e.tasks) (id : TaskId) (i : Input) :
    Leaves e.provider e.tasks (e.stepTask id fun t p => t.handle p i).provider
        (e.stepTask id fun t p => t.handle p i).tasks ∧
      ∃ marks, e.provider.Marks marks (e.stepTask id fun t p => t.handle p i).provider :=
  leaves_stepTask h id fun _ ht => Task.moves_handle ht i

/-- The watch list stays as it is. -/
theorem leaves_quiet {p q : Provider} {tasks : List Task} (h : Apart p tasks)
    (hnow : q.now = p.now) (hlist : q.watchList = p.watchList) :
    Leaves p tasks q tasks ∧ ∃ marks, p.Marks marks q := by
  have hschedule := congrArg WatchList.schedule hlist
  exact ⟨.of_holds h fun place => ⟨Provider.holds_of_schedule hschedule.symm,
    Provider.holds_of_schedule hschedule⟩, [], .quiet hnow hschedule⟩

/-- Something reaches every operation: those before have taken their steps. -/
theorem leaves_driveAll (i : Input) (before : List Task) {p : Provider} {tasks : List Task}
    (h : Apart p (before ++ tasks)) :
    Leaves p (before ++ tasks) (driveAll i p tasks).1 (before ++ (driveAll i p tasks).2) ∧
      ∃ marks, p.Marks marks (driveAll i p tasks).1 := by
  induction tasks generalizing p before with
  | nil => exact ⟨.of_holds h fun _ => Iff.rfl, [], .quiet rfl rfl⟩
  | cons t rest ih =>
    have hmoves := Task.moves_handle h.split.1 i
    have hstep := Leaves.step h hmoves
    have happart := hstep.apart
    rw [← List.singleton_append, ← List.append_assoc] at happart
    obtain ⟨hrest, ys, hys⟩ := ih _ happart
    rw [List.append_assoc, List.append_assoc, List.singleton_append, List.singleton_append] at hrest
    obtain ⟨xs, hxs⟩ := hmoves.moves.marks
    exact ⟨hstep.trans hrest, xs ++ ys, hxs.trans hys⟩

/-- **Every event keeps the claims of operations apart, and makes marks.** -/
theorem Apart.handle {e : Engine} (h : Apart e.provider e.tasks) (event : Event) :
    e.Keeps event := by
  cases event with
  | start id op cancelled =>
    unfold Keeps Marks
    simp only [Engine.handle]
    split
    · exact ⟨.of_holds h fun _ => Iff.rfl, [], .quiet rfl rfl⟩
    · next hnone =>
      have hnew := ne_of_find?_eq_none (Bool.eq_false_iff.2 hnone)
      have hmoves := Task.moves_begin id cancelled e.provider op
      exact ⟨.start h hnew hmoves, hmoves.moves.marks⟩
  | cancel id =>
    obtain ⟨hleaves, hmarks⟩ := leaves_resume (h.markCancelled id) id .cancelled
    refine ⟨⟨hleaves.apart, ?_⟩, hmarks⟩
    rw [← Apart.claims_markCancelled e id]
    exact hleaves.covered
  | abandon id =>
    unfold Keeps Marks
    simp only [Engine.handle]
    cases hfind : e.task? id with
    | none => exact ⟨.of_holds h fun _ => Iff.rfl, [], .quiet rfl rfl⟩
    | some t =>
      obtain ⟨hid, before, after, htasks⟩ := exists_split hfind
      subst hid
      simp only []
      rw [htasks] at h ⊢
      have hmoves := Task.moves_abandon h.split.1
      rw [filter_of_split h.distinct]
      exact ⟨.drop h hmoves, hmoves.marks⟩
  | resume id => exact leaves_resume h id .resumed
  | answer ticket reply => exact leaves_driveAll (.answered ticket reply) [] h
  | fallback call => exact leaves_driveAll (.fallback call) [] h
  | wake id => exact leaves_resume h id .woke
  | lookedUp id refusals found =>
    exact leaves_stepTask h id fun t ht => Task.moves_lookedUp ht refusals found
  | advance d => exact ⟨.of_holds h fun _ => Iff.rfl, [], rfl⟩
  | drew d => exact leaves_quiet h rfl rfl
  | watch r =>
    refine ⟨.of_holds h fun place => ?_, [], rfl⟩
    simp only [Engine.handle, update, Provider.watch]
    cases hregister : e.provider.watchList.register r e.provider.now with
    | error cause => exact Iff.rfl
    | ok x => exact Provider.held_register hregister
  | setDirty most draws =>
    refine ⟨.of_holds h fun place => ?_, [], rfl⟩
    have hget := Provider.get?_setDirty e.provider.watchList e.provider.now most draws place
    refine ⟨fun ⟨v, hv, hheld⟩ => ?_, fun ⟨w, hw, hheld⟩ => ?_⟩
    · obtain ⟨w, hw, rfl⟩ := Option.map_eq_some_iff.1 (hget.symm.trans hv)
      exact ⟨w, hw, hheld⟩
    · exact ⟨_, hget.trans (congrArg (Option.map _) hw), hheld⟩
  | configure c => exact leaves_quiet h rfl rfl
  | replaceFound refusals found =>
    unfold Keeps Marks
    simp only [Engine.handle, update]
    split
    · exact leaves_quiet h rfl rfl
    · exact leaves_quiet h rfl rfl

theorem Apart.run {e : Engine} (h : Apart e.provider e.tasks) (events : List Event) :
    Apart (e.run events).provider (e.run events).tasks ∧ ∃ marks, e.Marked events marks := by
  induction events generalizing e with
  | nil => exact ⟨h, [], .done e⟩
  | cons event rest ih =>
    obtain ⟨hhandle, xs, hxs⟩ := h.handle event
    obtain ⟨hrun, ys, hys⟩ := ih hhandle.apart
    exact ⟨hrun, xs ++ ys, .step hxs hys⟩

/-! ## The nudge -/

/-- A nudged key is due within the time. -/
theorem expiresAt_nudged (w : Watch) (now : Instant) (most : Duration) (draw : Nat) :
    (w.nudged now (.ofNanos (min draw (WatchList.drawRange most) * nanosPerMilli))).expiresAt ≤
      now + most := by
  have hdraw : min draw (WatchList.drawRange most) * nanosPerMilli ≤ most.nanos := by
    have hrange : WatchList.drawRange most ≤ most.nanos / nanosPerMilli := Nat.min_le_left _ _
    exact Nat.le_trans (Nat.mul_le_mul_right _ (Nat.le_trans (Nat.min_le_right _ _) hrange))
      (Nat.div_mul_le_self _ _)
  rw [Watch.nudged, Instant.le_iff, Instant.nanos_min, Instant.nanos_add, Instant.nanos_add,
    Duration.nanos_ofNanos]
  omega

/-- **A nudge lasts**, whatever has happened before and whatever comes after it: the key is due
within the time, or a refresh of it has begun since, unless it was watched again, a full load
has completed since, or a refresh of it has ended that was under way when the nudge came. -/
theorem nudge_lasts (p : Provider) (before after : List Event) (most : Duration)
    (draws : Nat → Nat) {place : Nat} {w : Watch}
    (hw : ((new p).run before).provider.watchList.get? place = some w) :
    let e := (new p).run before
    let nudged := e.handle (.setDirty most draws)
    (∃ marks, nudged.Marked after marks) ∧
      ∀ marks, nudged.Marked after marks →
        ∃ w', (nudged.run after).provider.watchList.get? place = some w' ∧
          w'.identity = w.identity ∧
          (w'.expiresAt ≤ e.provider.now + most ∨ .began place ∈ marks ∨
            Rewatches after w.identity ∨ .loaded ∈ marks ∨
            w.held = true ∧ .ended place ∈ marks) := by
  intro e nudged
  have hnew : Apart (new p).provider (new p).tasks := .new p
  have happart := (hnew.run before).1
  refine ⟨((happart.handle (.setDirty most draws)).1.apart.run after).2, fun marks hmarks => ?_⟩
  have hnudged : nudged.provider.watchList.get? place = some (w.nudged e.provider.now
      (.ofNanos (min (draws place) (WatchList.drawRange most) * nanosPerMilli))) :=
    (Provider.get?_setDirty _ _ _ _ _).trans (congrArg (Option.map _) hw)
  obtain ⟨w', hw', hpasses⟩ := passes_run hmarks hnudged
  refine ⟨w', hw', hpasses.identity, ?_⟩
  rcases hpasses.expires with hle | hended | hloaded | hagain
  · exact .inl (Nat.le_trans hle (expiresAt_nudged w _ most _))
  · rcases hpasses.ended hended with hheld | hbegan
    · exact .inr (.inr (.inr (.inr ⟨hheld, hended⟩)))
    · exact .inr (.inl hbegan)
  · exact .inr (.inr (.inr (.inl hloaded)))
  · exact .inr (.inr (.inl hagain))

/-- A provider that watches a key for a second at a time. -/
def attentive : Provider :=
  .new (.ofHosts ["a"]) default ⟨[.new ⟨⟨"Color", none⟩, .ofSecs 1, false⟩ .start]⟩ .empty
    ⟨[⟨"*", none⟩], false, .ofSecs 100⟩ .start

/-- A load has listed the key when a nudge for right now comes, and completes behind it.  No
refresh has begun, and the next look is a second away. -/
theorem nudge_overtaken :
    let listed : List Event := [.start 0 .load false,
      .answer ⟨0, 0, 0⟩ (.ok (.page ⟨[⟨"Color", none, some "blue", none, ⟨"1"⟩⟩], none⟩))]
    let nudged := ((new attentive).run listed).handle (.setDirty Duration.zero fun _ => 0)
    nudged.Marked [.resume 0] [.loaded] ∧
      ∃ w', (nudged.run [.resume 0]).provider.watchList.get? 0 = some w' ∧
        w'.identity = ⟨"Color", none⟩ ∧ ¬ w'.expiresAt ≤ nudged.provider.now + Duration.zero := by
  intro listed nudged
  have hloaded : nudged.Marks [.loaded] (.resume 0) :=
    Provider.Marks.loaded 0 nudged.provider 1 _
  have hmarked : nudged.Marked [.resume 0] [.loaded] := .step hloaded (.done _)
  have hwatched : ((new attentive).run listed).provider.watchList.get? 0 = some _ := rfl
  obtain ⟨w', hw', hname, -⟩ := (nudge_lasts attentive listed [.resume 0] Duration.zero
    (fun _ => 0) hwatched).2 [.loaded] hmarked
  refine ⟨hmarked, w', hw', hname, ?_⟩
  cases hw'
  decide

end Engine
end ReplicatedConfig
