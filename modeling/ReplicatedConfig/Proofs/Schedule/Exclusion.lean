import ReplicatedConfig.Proofs.Schedule.Guards

/-!
# One refresh of a key at a time

Whatever operations on watched keys are called, in whatever order, at most one guard of a key is
alive, a guard is handed out exactly where none is alive and the key is to be looked at, and a
key whose guard has been dropped rests for an interval (`exclusive_refresh`).

Refresh passes have no guards of their own: their checks claim keys and let them go.  The last
part of the theorem says that this comes to the same.  Beside every run of an engine there is a
run of a registry (`exists_trace`), in which each event stands for the operations that belong to
it, and in which at every time the guards that are alive are the claims of all passes.  The two
watch lists differ in tokens and roles only, so they are compared by their schedules.
-/

namespace ReplicatedConfig

/-! ## Lists with one schedule -/

namespace WatchList

variable {l m : WatchList} {now : Instant} {place : Nat}

theorem map_slot_congr {o o' : Option Watch} (h : o.map Watch.slot = o'.map Watch.slot)
    {f g : Watch → Watch} (hfg : ∀ w v : Watch, w.slot = v.slot → (f w).slot = (g v).slot) :
    (o.map f).map Watch.slot = (o'.map g).map Watch.slot := by
  cases o with
  | none =>
    cases o' with
    | none => rfl
    | some v => cases h
  | some w =>
    cases o' with
    | none => cases h
    | some v => exact congrArg some (hfg w v (Option.some.inj h))

theorem map_slot_get? (h : l.schedule = m.schedule) (place : Nat) :
    (l.get? place).map Watch.slot = (m.get? place).map Watch.slot := by
  rw [← getElem?_schedule, ← getElem?_schedule, h]

/-- A change of one place that can be seen in its slot. -/
theorem schedule_modify (h : l.schedule = m.schedule) (place : Nat) {f g : Watch → Watch}
    (hfg : ∀ w v : Watch, w.slot = v.slot → (f w).slot = (g v).slot) :
    (l.modify place f).schedule = (m.modify place g).schedule := by
  refine schedule_ext fun j => ?_
  rw [get?_modify, get?_modify]
  split
  · exact map_slot_congr (map_slot_get? h j) hfg
  · exact map_slot_get? h j

theorem slot_attempted {w v : Watch} (h : w.slot = v.slot) (now : Instant) :
    (w.attempted now).slot = (v.attempted now).slot := by
  simp only [Watch.slot, Prod.mk.injEq, Watch.attempted] at h ⊢
  simp [h]

theorem slot_released {w v : Watch} (h : w.slot = v.slot) (now : Instant) :
    (w.released now).slot = (v.released now).slot := by
  simp only [Watch.slot, Prod.mk.injEq, Watch.released, Watch.attempted] at h ⊢
  simp [h]

/-- Who holds a key can be seen in the schedule. -/
theorem schedule_begin? (h : l.schedule = m.schedule) {m' : WatchList}
    (hm : m.begin? place now = some m') :
    ∃ l', l.begin? place now = some l' ∧ l'.schedule = m'.schedule := by
  obtain ⟨w, hw, hfree, hdue, rfl⟩ := Registry.begin?_eq_some_iff.1 hm
  obtain ⟨v, hv, hvw⟩ := exists_of_schedule h hw
  simp only [Watch.slot, Prod.mk.injEq] at hvw
  refine ⟨_, Registry.begin?_eq_some_iff.2 ⟨v, hv, hvw.2.2.2.trans hfree, ?_, rfl⟩, ?_⟩
  · rw [Watch.Due, hvw.2.2.1]
    exact hdue
  · refine schedule_modify h place fun w v hwv => ?_
    simp only [Watch.slot, Prod.mk.injEq] at hwv ⊢
    simp [hwv]

theorem identities_of_schedule (h : l.schedule = m.schedule) : l.identities = m.identities := by
  have hmap := congrArg (List.map Prod.fst) h
  simp only [schedule, List.map_map] at hmap
  exact hmap

theorem find?_eq (l : WatchList) (name : Identity) :
    l.find? name = l.identities.findIdx? (· = name) := by
  rw [find?, identities, List.findIdx?_map]
  rfl

/-- Watching a key makes the same of lists with one schedule. -/
theorem schedule_register (h : l.schedule = m.schedule) (r : WatchRequest) (now : Instant) :
    (l.register r now).map (fun x => x.1.schedule) = (m.register r now).map fun x => x.1.schedule := by
  unfold register
  cases r.check with
  | error e => rfl
  | ok u =>
    have hfind : l.find? r.identity = m.find? r.identity := by
      rw [find?_eq, find?_eq, identities_of_schedule h]
    cases hm : m.find? r.identity with
    | some j =>
      rw [hm] at hfind
      simp only [hfind]
      refine congrArg Except.ok (schedule_modify h j fun w v hwv => ?_)
      simp only [Watch.slot, Prod.mk.injEq, Watch.reconfigured] at hwv ⊢
      simp [hwv]
    | none =>
      rw [hm] at hfind
      simp only [hfind]
      refine congrArg Except.ok ?_
      show (l.watches ++ [Watch.new r now]).map _ = (m.watches ++ [Watch.new r now]).map _
      rw [List.map_append, List.map_append]
      exact congrArg (· ++ _) h

theorem schedule_setDirty (h : l.schedule = m.schedule) (now : Instant) (most : Duration)
    (draws : Nat → Nat) :
    (l.setDirty now most draws).schedule = (m.setDirty now most draws).schedule := by
  refine schedule_ext fun place => ?_
  rw [Provider.get?_setDirty, Provider.get?_setDirty]
  refine map_slot_congr (map_slot_get? h place) fun w v hwv => ?_
  simp only [Watch.slot, Prod.mk.injEq, Watch.nudged] at hwv ⊢
  simp [hwv]

end WatchList

/-! ## A registry beside an engine -/

namespace Engine

/-- Operations are apart, and whatever is held has been claimed by one of them. -/
structure Accounted (e : Engine) : Prop where
  apart : Apart e.provider e.tasks
  claimed : ∀ place, e.provider.Holds place → place ∈ e.tasks.flatMap (·.job.claims)

theorem accounted_new {p : Provider} (h : Registry.Idle p.watchList) : (new p).Accounted := by
  refine ⟨.new p, ?_⟩
  rintro place ⟨w, hw, hheld⟩
  rw [h.free w (List.mem_of_getElem? hw)] at hheld
  cases hheld

/-- **Every event leaves what is held to the operations that have claimed it.** -/
theorem Accounted.handle {e : Engine} (h : e.Accounted) (event : Event) :
    (e.handle event).Accounted := by
  obtain ⟨hleaves, -⟩ := h.apart.handle event
  refine ⟨hleaves.apart, fun place hplace => ?_⟩
  rcases hleaves.covered place hplace with hmem | ⟨hnot, hp⟩
  · exact hmem
  · exact absurd (h.claimed place hp) hnot

end Engine

namespace Registry

variable {p q : Provider} {e : Engine} {r : Registry} {marks : List Mark}

/-- Whether an operation on watched keys belongs to the operations of an engine. -/
def Op.OfMarks : Op → Prop
  | .begin _ | .drop _ | .markAllAttempted => True
  | _ => False

/-- Whether an event may stand for an operation on watched keys. -/
def Op.Of (op : Op) : Event → Prop
  | .advance d => op = .wait d
  | .watch request => op = .register request
  | .setDirty most draws => op = .setDirty most draws
  | _ => op.OfMarks

/-- A registry has the schedule and the time of a provider. -/
structure Follows (r : Registry) (p : Provider) : Prop where
  schedule : r.list.schedule = p.watchList.schedule
  now : r.now = p.now

theorem Follows.holds_iff (h : r.Follows p) (place : Nat) :
    (∃ w, r.list.get? place = some w ∧ w.held = true) ↔ p.Holds place := by
  have hback {l m : WatchList} (hlm : l.schedule = m.schedule) :
      (∃ w, l.get? place = some w ∧ w.held = true) → ∃ w, m.get? place = some w ∧ w.held = true := by
    rintro ⟨w, hw, hheld⟩
    obtain ⟨v, hv, hvw⟩ := WatchList.exists_of_schedule hlm.symm hw
    have hsame : v.held = w.held := congrArg (·.2.2.2) hvw
    exact ⟨v, hv, hsame.trans hheld⟩
  exact ⟨hback h.schedule, hback h.schedule.symm⟩

/-- **Marks are operations on watched keys**: beginning a refresh hands out a guard, ending it
drops the guard, and a full load marks all keys as looked at. -/
theorem Follows.exists_ops (h : p.Marks marks q) (hr : r.Guarded) (hrp : r.Follows p) :
    ∃ ops, (∀ op ∈ ops, op.OfMarks) ∧ (r.run ops).Follows q := by
  induction h generalizing r with
  | @quiet p q now schedule =>
    exact ⟨[], nofun, hrp.schedule.trans schedule.symm, hrp.now.trans now.symm⟩
  | @began p place watchList claimed =>
    rw [← hrp.now] at claimed
    obtain ⟨l, hl, hschedule⟩ := WatchList.schedule_begin? hrp.schedule claimed
    refine ⟨[.begin place], by simp [Op.OfMarks], ?_⟩
    have hbegin : r.begin? place = some { r with list := l, guards := place :: r.guards } := by
      rw [begin?, hl, Option.map_some]
    show (r.apply (.begin place)).Follows _
    rw [Registry.apply, hbegin, Option.getD_some]
    exact ⟨hschedule, hrp.now⟩
  | @ended p place held =>
    have hplace := (hr.held place).2 ((hrp.holds_iff place).2 held)
    refine ⟨[.drop place], by simp [Op.OfMarks], ?_⟩
    show (r.apply (.drop place)).Follows _
    rw [Registry.apply, if_pos hplace]
    refine ⟨?_, hrp.now⟩
    rw [hrp.now]
    exact WatchList.schedule_modify hrp.schedule place fun w v hwv =>
      WatchList.slot_released hwv p.now
  | loaded me p watched entries =>
    refine ⟨[.markAllAttempted], by simp [Op.OfMarks], WatchList.schedule_ext fun place => ?_,
      hrp.now⟩
    show ((r.list.markAllAttempted r.now).get? place).map _ = _
    rw [get?_markAllAttempted, Reload.get?_commit, hrp.now]
    refine WatchList.map_slot_congr (WatchList.map_slot_get? hrp.schedule place) fun w v hwv => ?_
    have hslot := WatchList.slot_attempted hwv p.now
    split <;> exact hslot
  | @trans p q s xs ys before after ihBefore ihAfter =>
    obtain ⟨ops, hops, hfollows⟩ := ihBefore hr hrp
    obtain ⟨ops', hops', hfollows'⟩ := ihAfter (hr.run ops) hfollows
    refine ⟨ops ++ ops', fun op hop => ?_, by rwa [run_append]⟩
    exact (List.mem_append.1 hop).elim (hops op) (hops' op)

/-- **Every event stands for operations on watched keys.** -/
theorem Follows.exists_handle (hr : r.Guarded) (hrp : r.Follows e.provider) (he : e.Accounted)
    (event : Event) : ∃ ops, (∀ op ∈ ops, op.Of event) ∧
      (r.run ops).Follows (e.handle event).provider := by
  obtain ⟨-, marks, hmarks⟩ := he.apart.handle event
  have hmarked (h : e.provider.Marks marks (e.handle event).provider) :=
    hrp.exists_ops h hr
  cases event with
  | advance d =>
    exact ⟨[.wait d], fun op hop => List.mem_singleton.1 hop, hrp.schedule, congrArg (· + d) hrp.now⟩
  | watch request =>
    refine ⟨[.register request], fun op hop => List.mem_singleton.1 hop, ?_⟩
    have hregister := WatchList.schedule_register hrp.schedule request e.provider.now
    show (r.apply (.register request)).Follows _
    simp only [Registry.apply, Engine.handle, Engine.update, Provider.watch, hrp.now]
    cases hm : e.provider.watchList.register request e.provider.now with
    | error cause =>
      cases hl : r.list.register request e.provider.now with
      | error cause' => exact hrp
      | ok x =>
        rw [hl, hm] at hregister
        cases hregister
    | ok y =>
      cases hl : r.list.register request e.provider.now with
      | error cause' =>
        rw [hl, hm] at hregister
        cases hregister
      | ok x =>
        rw [hl, hm] at hregister
        exact ⟨Except.ok.inj hregister, rfl⟩
  | setDirty most draws =>
    refine ⟨[.setDirty most draws], fun op hop => List.mem_singleton.1 hop, ?_, hrp.now⟩
    show (r.list.setDirty r.now most draws).schedule = _
    rw [hrp.now]
    exact WatchList.schedule_setDirty hrp.schedule _ most draws
  | start id op cancelled => exact hmarked hmarks
  | cancel id => exact hmarked hmarks
  | abandon id => exact hmarked hmarks
  | resume id => exact hmarked hmarks
  | answer ticket reply => exact hmarked hmarks
  | fallback call => exact hmarked hmarks
  | wake id => exact hmarked hmarks
  | lookedUp id refusals found => exact hmarked hmarks
  | drew d => exact hmarked hmarks
  | configure c => exact hmarked hmarks
  | replaceFound refusals found => exact hmarked hmarks

/-- A registry has the schedule and the time of an engine, and its guards are the claims of the
operations that are under way. -/
structure Mirrors (r : Registry) (e : Engine) : Prop where
  follows : r.Follows e.provider
  guards : r.guards.Perm (e.tasks.flatMap (·.job.claims))

theorem Follows.mirrors (hr : r.Guarded) (hrp : r.Follows e.provider) (he : e.Accounted) :
    r.Mirrors e := by
  refine ⟨hrp, (List.perm_ext_iff_of_nodup hr.nodup he.apart.claims.nodup).2 fun place => ?_⟩
  rw [hr.held, hrp.holds_iff]
  exact ⟨he.claimed place, he.apart.claims.held place⟩

/-- Beside every run of an engine there is a run of a registry. -/
theorem Follows.exists_trace (hr : r.Guarded) (hrp : r.Follows e.provider) (he : e.Accounted)
    (events : List Event) : ∃ trace : List (List Op),
      List.Forall₂ (fun event ops => ∀ op ∈ ops, op.Of event) events trace ∧
      ∀ n, (r.run (trace.take n).flatten).Mirrors (e.run (events.take n)) := by
  induction events generalizing r e with
  | nil =>
    refine ⟨[], .nil, fun n => ?_⟩
    rw [List.take_nil, List.take_nil]
    exact hrp.mirrors hr he
  | cons event rest ih =>
    obtain ⟨ops, hops, hfollows⟩ := hrp.exists_handle hr he event
    obtain ⟨trace, htrace, hmirrors⟩ := ih (hr.run ops) hfollows (he.handle event)
    refine ⟨ops :: trace, .cons hops htrace, fun n => ?_⟩
    cases n with
    | zero => exact hrp.mirrors hr he
    | succ n =>
      rw [List.take_succ_cons, List.take_succ_cons, List.flatten_cons, run_append]
      exact hmirrors n

/-! ## What a caller may rely on -/

/-- **One refresh of a key at a time.**  Whatever operations on watched keys are called: guards
that are alive are for different keys; a guard is handed out exactly where none is alive and the
key is to be looked at, and otherwise nothing changes; and a key whose guard is dropped is not
handed out before one interval is over, unless a nudge comes or it is watched again.  Any number
of operations that refresh, load and are dropped at any time is such a run of operations on
watched keys, with their claims as its guards. -/
theorem exclusive_refresh {p : Provider} (hp : Idle p.watchList) :
    (∀ ops : List Op,
      let r := (start p.watchList p.now).run ops
      r.guards.Nodup ∧ (r.list.names r.guards).Nodup ∧
        ∀ place, ((r.begin? place).isSome = true ↔
          place ∉ r.guards ∧ ∃ w, r.list.get? place = some w ∧ w.Due r.now) ∧
          (r.begin? place = none → r.apply (.begin place) = r)) ∧
    (∀ (before after : List Op) (place : Nat) (w : Watch),
      let r := (start p.watchList p.now).run before
      let q := (r.apply (.drop place)).run after
      place ∈ r.guards → r.list.get? place = some w → (∀ op ∈ after, ¬ op.Hastens w.identity) →
        (q.begin? place).isSome = true → r.now + w.interval ≤ q.now) ∧
    ∀ events : List Event, ∃ trace : List (List Op),
      List.Forall₂ (fun event ops => ∀ op ∈ ops, op.Of event) events trace ∧
      ∀ n, ((start p.watchList p.now).run (trace.take n).flatten).Mirrors
        ((Engine.new p).run (events.take n)) := by
  have hstart := guarded_start hp p.now
  refine ⟨fun ops => ?_, fun before after place w => ?_, fun events => ?_⟩
  · intro r
    have hr : r.Guarded := hstart.run ops
    refine ⟨hr.nodup, hr.nodup_names, fun place => ⟨hr.isSome_begin?_iff, fun hnone => ?_⟩⟩
    rw [Registry.apply, hnone, Option.getD_none]
  · intro r q hplace hw hafter hsome
    have hr : r.Guarded := hstart.run before
    have hq : q.Guarded := (hr.apply (.drop place)).run after
    obtain ⟨v, hv, -, -, hlate⟩ := ((rests_drop hplace hw).run hafter).known
    obtain ⟨-, v', hv', hdue⟩ := hq.isSome_begin?_iff.1 hsome
    obtain rfl : v = v' := Option.some.inj (hv.symm.trans hv')
    exact Nat.le_trans hlate hdue
  · exact Follows.exists_trace hstart ⟨rfl, rfl⟩ (Engine.accounted_new hp) events

/-- A load, and a second later two passes at once: the first one begins to check the key, and then
the other one wants to. -/
def twoPasses : List Event :=
  [.start 0 .load false,
    .answer ⟨0, 0, 0⟩ (.ok (.page ⟨[⟨"Color", none, some "blue", none, ⟨"1"⟩⟩], none⟩)), .resume 0,
    .advance (.ofSecs 1), .start 1 .refresh false, .start 2 .refresh false, .resume 1, .resume 2]

/-- A key is claimed when a second has passed and let go at once; then it rests for a second, and
what is done to it meanwhile does not change that.  Two passes at once have one guard. -/
theorem exclusive_refresh_attentive :
    let l := Engine.attentive.watchList
    let r := (start l .start).run [.wait (.ofSecs 1), .begin 0]
    let q := (r.apply (.drop 0)).run [.begin 0, .markAllAttempted, .wait (.ofSecs 1)]
    (r.guards = [0] ∧ (q.begin? 0).isSome = true ∧ r.now + Duration.ofSecs 1 ≤ q.now) ∧
      ∃ ops, ((start l .start).run ops).guards = [0] ∧
        ((start l .start).run ops).Mirrors ((Engine.new Engine.attentive).run twoPasses) := by
  have hidle : Idle Engine.attentive.watchList := ⟨by decide, by decide⟩
  obtain ⟨-, hrests, hengine⟩ := exclusive_refresh hidle
  refine ⟨⟨rfl, rfl, ?_⟩, ?_⟩
  · exact hrests [.wait (.ofSecs 1), .begin 0] [.begin 0, .markAllAttempted, .wait (.ofSecs 1)] 0 _
      (by decide) rfl (by simp [Op.Hastens]) rfl
  · obtain ⟨trace, -, hmirrors⟩ := hengine twoPasses
    have hlast := hmirrors twoPasses.length
    rw [List.take_length] at hlast
    have hclaims :
        ((Engine.new Engine.attentive).run twoPasses).tasks.flatMap (·.job.claims) = [0] := by
      decide +kernel
    exact ⟨_, List.perm_singleton.1 (hclaims ▸ hlast.guards), hlast⟩

end Registry

end ReplicatedConfig
