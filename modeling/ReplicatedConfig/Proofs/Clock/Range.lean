import Mathlib.Data.List.MinMax
import Mathlib.Data.List.TakeWhile
import ReplicatedConfig.Proofs.Building
import ReplicatedConfig.Proofs.Clock.Runs
import ReplicatedConfig.Proofs.Health.Intervals
import ReplicatedConfig.Proofs.Schedule.Nudges

/-!
# When a clock shows every instant

Every instant that is computed is the time at which something happens and a span more.  The spans
come from the configuration, and from whoever watches a key, nudges the keys or replaces the rules
for falling over.  So no instant is ever further ahead than the longest span (`Engine.Timely`), and
a clock that shows the time and each of the spans more shows all that is computed
(`shows_of_spans`).

## What a valid configuration does not promise

A valid configuration bounds its spans from below only.  So it takes a condition on the spans for a
clock to show every instant, and for the watched keys the condition is exact: as soon as one of them
is looked at too seldom, the first instant that is computed for it is out of range.
-/

namespace ReplicatedConfig

variable {limit : Duration} {now time : Instant}

/-! ## Spans -/

theorem Instant.Fits.mono {s t : Instant} (h : t.Fits) (hle : s ≤ t) : s.Fits :=
  Nat.lt_of_le_of_lt hle h

namespace BackoffPolicy

/-- The longest time that failures keep a replica away: with jitter it may be any up to the longest
one, and without it is where the doubling ends. -/
def peak (b : BackoffPolicy) : Duration :=
  if 0.0 < b.jitter then max b.shortest b.longest else b.hold (b.base (maxExponent + 1))

theorem within_peak (b : BackoffPolicy) : b.Within b.peak := by
  intro draw n
  by_cases hn : n = 0
  · rw [hn, interval_zero]
    exact Nat.zero_le _
  · unfold peak
    split
    · exact (b.bounds_spreadInterval (b.spread draw) hn).2
    · next hsteady =>
      have hend := b.base_mono (Nat.min_le_right n (maxExponent + 1))
      rw [b.base_min (Nat.lt_succ_self maxExponent)] at hend
      rw [interval_of_steady hsteady draw hn]
      exact b.hold_mono hend

theorem Within.mono {b : BackoffPolicy} {d : Duration} (h : b.Within d) (hle : d ≤ limit) :
    b.Within limit :=
  fun draw n => Nat.le_trans (h draw n) hle

end BackoffPolicy

/-- The spans of the rules for falling over. -/
def FailoverConfig.spans (c : FailoverConfig) : List Duration := [c.interval, c.policy.peak]

/-- The spans that a configuration gives, and the longest pause of a first load. -/
def Config.spans (c : Config) : List Duration :=
  [.ofSecs c.startup.timeoutSecs, startupPolicy.peak] ++ c.failover.spans ++
    c.refresh.watches.map fun w => .ofSecs w.expirationSecs

/-- The spans that come with an event. -/
def Event.spans : Event → List Duration
  | .watch r => [r.expiration]
  | .setDirty most _ => [most]
  | .configure c => c.spans
  | _ => []

/-- Of some spans one is the longest. -/
theorem exists_longest {ds : List Duration} (h : ds ≠ []) : ∃ d ∈ ds, ∀ c ∈ ds, c ≤ d := by
  have hsome := mt (List.argmax_eq_none (f := Duration.nanos)).1 h
  obtain ⟨d, hd⟩ := Option.ne_none_iff_exists'.1 hsome
  exact ⟨d, List.argmax_mem hd, fun c hc => List.le_of_mem_argmax hc hd⟩

/-! ## The watched keys -/

namespace WatchList

variable {l l' : WatchList} {r : WatchRequest} {w : Watch}

/-- Only the key that is watched is new, or is looked at next at another time than before. -/
theorem mem_register {place : Nat} (h : l.register r now = .ok (l', place)) (hw : w ∈ l'.watches) :
    w ∈ l.watches ∨ w.interval = r.expiration ∧ w.expiresAt = now + r.expiration := by
  unfold register at h
  rw [check_of_register h] at h
  cases hfind : l.find? r.identity with
  | some j =>
    simp only [hfind] at h
    cases h
    obtain ⟨k, v, hv, rfl⟩ := mem_modify hw
    split
    · exact .inr ⟨rfl, rfl⟩
    · exact .inl (List.mem_of_getElem? hv)
  | none =>
    simp only [hfind] at h
    cases h
    rcases List.mem_append.1 hw with hw | hw
    · exact .inl hw
    · rw [List.mem_singleton.1 hw]
      exact .inr ⟨rfl, rfl⟩

/-- A nudge brings every look to within the time that it is given. -/
theorem delay_le (most : Duration) (draws : Nat → Nat) (place : Nat) :
    delay most draws place ≤ most := by
  have hrange : min (draws place) (drawRange most) ≤ most.nanos / nanosPerMilli :=
    Nat.le_trans (Nat.min_le_right _ _) (Nat.min_le_left _ _)
  have hnanos := Nat.le_trans (Nat.mul_le_mul_right nanosPerMilli hrange)
    (Nat.div_mul_le_self most.nanos nanosPerMilli)
  rw [Duration.le_iff, delay, Duration.nanos_ofNanos]
  exact Nat.le_trans (Nat.min_le_left _ _) hnanos

theorem mem_setDirty {most : Duration} {draws : Nat → Nat}
    (hw : w ∈ (l.setDirty now most draws).watches) :
    ∃ v ∈ l.watches, w.interval = v.interval ∧ w.expiresAt ≤ now + most := by
  obtain ⟨place, hplace, rfl⟩ := List.mem_mapIdx.1 hw
  exact ⟨l.watches[place], List.getElem_mem hplace, rfl,
    Engine.expiresAt_nudged _ now most (draws place)⟩

end WatchList

/-! ## The provider -/

namespace Provider

variable {p q : Provider}

/-- From `time` on nothing is set further ahead than `limit`. -/
structure Timely (limit : Duration) (time : Instant) (p : Provider) : Prop where
  within : p.Within limit
  dates : ∀ t ∈ p.dates, t ≤ time + limit
  now : time ≤ p.now

theorem forall_dates {holds : Instant → Prop} : (∀ t ∈ p.dates, holds t) ↔
    (∀ w ∈ p.watchList.watches, holds w.expiresAt) ∧ ∀ h ∈ p.pool.healths, holds h.retryAt := by
  simp [dates, or_imp, forall_and]

/-- A provider that has the spans and dates of another one, now or later. -/
theorem Timely.of_eq (h : p.Timely limit time) (options : q.options = p.options)
    (failover : q.failover = p.failover) (policy : q.pool.policy = p.pool.policy)
    (healths : q.pool.healths = p.pool.healths) (watchList : q.watchList = p.watchList)
    (now : p.now ≤ q.now) : q.Timely limit time := by
  have hdates : q.dates = p.dates := by
    unfold Provider.dates
    rw [watchList, healths]
  refine ⟨⟨?_, ?_, ?_, ?_⟩, hdates ▸ h.dates, Nat.le_trans h.now now⟩
  · exact failover ▸ h.within.interval
  · exact policy ▸ h.within.policy
  · exact options ▸ h.within.timeout
  · exact watchList ▸ h.within.watches

theorem Redates.timely (hq : p.Redates limit q) (h : p.Timely limit p.now) :
    q.Timely limit p.now := by
  refine ⟨hq.within h.within, ?_, hq.now ▸ Nat.le_refl _⟩
  obtain ⟨hwatches, hhealths⟩ := forall_dates.1 h.dates
  refine forall_dates.2 ⟨fun w hw => ?_, fun health hmem => ?_⟩
  · obtain ⟨v, hv, hvw⟩ := hq.watches w hw
    rcases hvw.date with hdate | hdate
    · rw [hdate]
      exact hwatches v hv
    · exact hdate
  · rcases hq.healths health hmem with hold | hdate
    · exact hhealths health hold
    · exact hdate

/-- New members may be tried at once. -/
theorem Timely.enrolled (h : p.Timely limit p.now) (members : List Member) :
    Timely limit p.now { p with
      pool := { p.pool with members, healths := Pool.enrolled p.pool.healths members p.now } } := by
  obtain ⟨hwatches, hhealths⟩ := forall_dates.1 h.dates
  refine ⟨⟨h.within.interval, h.within.policy, h.within.timeout, h.within.watches⟩,
    forall_dates.2 ⟨hwatches, fun health hmem => ?_⟩, h.now⟩
  rcases Pool.retryAt_enrolled hmem with hold | hnow
  · exact hhealths health hold
  · rw [hnow]
    exact p.now.le_add limit

theorem Timely.applyLookup (h : p.Timely limit p.now) (refusals : Refusals)
    (found : Option (List Endpoint)) :
    Timely limit p.now { p with pool := (p.pool.applyLookup refusals found p.now).1 } := by
  rcases p.pool.applyLookup_cases refusals found p.now with happly | ⟨members, -, happly⟩
  · rw [happly]
    exact h
  · rw [happly]
    exact h.enrolled members

/-- What the provider is told brings its spans along. -/
theorem Told.timely {event : Event} (hq : p.Told event q) (h : p.Timely limit p.now)
    (hspans : ∀ d ∈ event.spans, d ≤ limit) : q.Timely limit p.now := by
  obtain ⟨hwatches, hhealths⟩ := forall_dates.1 h.dates
  cases hq with
  | ignored => exact h
  | advance d => exact h.of_eq rfl rfl rfl rfl rfl (p.now.le_add d)
  | drew d => exact h.of_eq rfl rfl rfl rfl rfl (Nat.le_refl _)
  | @watch r watchList place registered =>
    have hr : r.expiration ≤ limit := hspans _ List.mem_cons_self
    refine ⟨⟨h.within.interval, h.within.policy, h.within.timeout, fun w hw => ?_⟩,
      forall_dates.2 ⟨fun w hw => ?_, hhealths⟩, h.now⟩
    · rcases WatchList.mem_register registered hw with hold | ⟨hinterval, -⟩
      · exact h.within.watches w hold
      · exact hinterval ▸ hr
    · rcases WatchList.mem_register registered hw with hold | ⟨-, hdate⟩
      · exact hwatches w hold
      · rw [hdate]
        exact p.now.add_le_add hr
  | setDirty most draws =>
    have hmost : most ≤ limit := hspans _ List.mem_cons_self
    refine ⟨⟨h.within.interval, h.within.policy, h.within.timeout, fun w hw => ?_⟩,
      forall_dates.2 ⟨fun w hw => ?_, hhealths⟩, h.now⟩
    · obtain ⟨v, hv, hinterval, -⟩ := WatchList.mem_setDirty hw
      exact hinterval ▸ h.within.watches v hv
    · obtain ⟨v, -, -, hdate⟩ := WatchList.mem_setDirty hw
      exact Nat.le_trans hdate (p.now.add_le_add hmost)
  | configure c =>
    have hinterval : c.interval ≤ limit := hspans _ List.mem_cons_self
    have hpeak : c.policy.peak ≤ limit := hspans _ (List.mem_cons_of_mem _ List.mem_cons_self)
    exact ⟨⟨hinterval, c.policy.within_peak.mono hpeak, h.within.timeout, h.within.watches⟩,
      h.dates, h.now⟩
  | replaceFound refusals found members => exact h.enrolled members

end Provider

/-! ## The engine -/

namespace Engine

variable {e : Engine} {event : Event} {p : Provider}

/-- From `time` on neither the provider nor an operation sets anything further ahead than
`limit`. -/
structure Timely (limit : Duration) (time : Instant) (e : Engine) : Prop where
  provider : e.provider.Timely limit time
  tasks : ∀ t ∈ e.tasks, t.job.Heeds limit time

theorem Timely.dates_le (h : e.Timely limit time) : ∀ t ∈ e.dates, t ≤ time + limit := by
  intro t ht
  rcases List.mem_append.1 ht with ht | ht
  · exact h.provider.dates t ht
  · obtain ⟨task, htask, ht⟩ := List.mem_flatMap.1 ht
    exact (h.tasks task htask).dates_le t ht

/-- What is not too far ahead at one time is not too far ahead later. -/
theorem Timely.later (h : e.Timely limit time) : e.Timely limit e.provider.now := by
  have hnow := h.provider.now
  refine ⟨⟨h.provider.within, fun t ht => ?_, Nat.le_refl _⟩, fun t ht => (h.tasks t ht).mono hnow⟩
  exact Nat.le_trans (h.provider.dates t ht) (Instant.add_le_add_right hnow limit)

theorem Timely.handle (h : e.Timely limit e.provider.now)
    (distinct : (e.tasks.map (·.id)).Nodup) (hspans : ∀ d ∈ event.spans, d ≤ limit) :
    (e.handle event).Timely limit e.provider.now := by
  cases hsaid : event.said? with
  | some f =>
    rw [handle_of_said hsaid e]
    exact ⟨(Provider.told_of_said hsaid e.provider).timely h.provider hspans, h.tasks⟩
  | none =>
    have hshifts := shifts_handle ⟨h.provider.within, h.tasks⟩ distinct hsaid
    generalize e.handle event = e' at hshifts
    cases hshifts with
    | keeps provider tasks => exact ⟨provider.timely h.provider, tasks.heeds⟩
    | starts claimed heeds mem looksUp idle =>
      refine ⟨?_, heeds⟩
      rw [Pool.eq_of_claimLookup claimed]
      exact h.provider.of_eq rfl rfl rfl rfl rfl (Nat.le_refl _)
    | applies refusals found provider tasks =>
      exact ⟨provider.timely (h.provider.applyLookup refusals found), tasks.heeds⟩

/-- A pause of a first load is no longer than the longest one. -/
theorem pauseEnd_le (hpause : startupPolicy.peak ≤ limit) (p : Provider) (tries : Nat) :
    Startup.pauseEnd p tries ≤ p.now + limit :=
  p.now.add_le_add (startupPolicy.within_peak.mono hpause p.draw tries)

/-- What has left no trace is not too far ahead either. -/
theorem Timely.passing_le (h : e.Timely limit e.provider.now) (hpause : startupPolicy.peak ≤ limit)
    (hspans : ∀ d ∈ event.spans, d ≤ limit) :
    ∀ t ∈ e.passing event, t ≤ e.provider.now + limit := by
  intro t ht
  have hwithin := h.provider.within
  rcases List.mem_append.1 ht with ht | ht
  · rcases List.mem_append.1 ht with ht | ht
    · split at ht
      · cases ht
      · rw [List.mem_singleton.1 ht]
        exact e.provider.now.add_le_add hwithin.interval
    · obtain ⟨⟨id, cancelled, job⟩, -, ht⟩ := List.mem_flatMap.1 ht
      unfold Job.pauseEnds at ht
      split at ht
      · rcases List.mem_pair.1 ht with rfl | rfl <;> exact pauseEnd_le hpause _ _
      · cases ht
  · split at ht
    · rcases List.mem_pair.1 ht with rfl | rfl
      · exact e.provider.now.add_le_add hwithin.timeout
      · exact pauseEnd_le hpause _ _
    · next _ most draws _ =>
      obtain ⟨place, -, rfl⟩ := List.mem_map.1 ht
      have hmost : most ≤ limit := hspans _ List.mem_cons_self
      exact e.provider.now.add_le_add (Nat.le_trans (WatchList.delay_le most draws place) hmost)
    · cases ht

/-- **No instant is further ahead than the longest span.** -/
theorem Timely.sums_le (h : e.Timely limit e.provider.now) (distinct : (e.tasks.map (·.id)).Nodup)
    (hpause : startupPolicy.peak ≤ limit) (hspans : ∀ d ∈ event.spans, d ≤ limit) :
    ∀ t ∈ e.sums event, t ≤ e.provider.now + limit := by
  intro t ht
  rcases List.mem_append.1 ht with ht | ht
  · exact (h.handle distinct hspans).dates_le t ht
  · exact h.passing_le hpause hspans t ht

theorem Timely.run (h : e.Timely limit e.provider.now) (apart : Apart e.provider e.tasks)
    {events : List Event} (hspans : ∀ d ∈ events.flatMap Event.spans, d ≤ limit) :
    (e.run events).Timely limit (e.run events).provider.now ∧
      Apart (e.run events).provider (e.run events).tasks := by
  induction events generalizing e with
  | nil => exact ⟨h, apart⟩
  | cons event rest ih =>
    rw [List.flatMap_cons] at hspans
    have hhandled := h.handle apart.distinct fun d hd => hspans d (List.mem_append_left _ hd)
    exact ih hhandled.later (apart.handle event).1.apart fun d hd =>
      hspans d (List.mem_append_right _ hd)

end Engine

/-! ## The configuration -/

namespace Blueprint

variable {c : Config} {b : Blueprint} {p : Provider}

/-- While nothing has happened, what is set are the first looks at the keys. -/
theorem timely_of_build (hb : ofConfig c = .ok b) {clients : Option Refusals}
    {lookup : Option (Endpoint → Option (List Endpoint))} (hp : b.build clients lookup now = .ok p)
    (hspans : ∀ d ∈ c.spans, d ≤ limit) : p.Timely limit p.now := by
  have h := Config.describes_of_build hb hp
  have hfailover : ∀ d ∈ c.failover.spans, d ≤ limit := fun d hd =>
    hspans d (List.mem_append_left _ (List.mem_append_right _ hd))
  have hwatch : ∀ w ∈ c.refresh.watches, .ofSecs w.expirationSecs ≤ limit := fun w hw =>
    hspans _ (List.mem_append_right _ (List.mem_map.2 ⟨w, hw, rfl⟩))
  refine ⟨⟨?_, ?_, ?_, ?_⟩, Provider.forall_dates.2 ⟨?_, ?_⟩, Nat.le_refl _⟩
  · rw [h.failover]
    exact hfailover _ List.mem_cons_self
  · rw [h.policy]
    exact c.failover.policy.within_peak.mono
      (hfailover _ (List.mem_cons_of_mem _ List.mem_cons_self))
  · rw [h.options]
    exact hspans _ List.mem_cons_self
  · rw [h.watches, List.forall_mem_map]
    exact hwatch
  · rw [h.watches, List.forall_mem_map, h.now]
    exact fun w hw => now.add_le_add (hwatch w hw)
  · intro health hmem
    rw [h.healths health hmem, h.now]
    exact now.le_add limit

/-- **A clock shows every instant** if it shows the time and each span more: those that the
configuration gives, the longest pause of a first load, and those that come with events.  For the
instants that are computed when the keys are watched it has to be so: the clock shows them all if
and only if it shows for each key when it is looked at first. -/
theorem shows_of_spans (hb : ofConfig c = .ok b) (now : Instant) :
    (b.Shows now ↔
      ∀ w ∈ c.refresh.watches, (now + Duration.ofSecs w.expirationSecs).Fits) ∧
    ∀ clients lookup p, b.build clients lookup now = .ok p → ∀ events event,
      let e := (Engine.new p).run events
      (∀ d ∈ c.spans ++ (events ++ [event]).flatMap Event.spans, (e.provider.now + d).Fits) →
        e.Shows event := by
  refine ⟨?_, fun clients lookup p hp events event => ?_⟩
  · obtain ⟨endpoints, origin, hsound, rfl⟩ := Config.ofConfig_eq_ok_iff.1 hb
    have hall : ∀ r ∈ c.refresh.watches.map WatchConfig.request,
        decide (minExpiration ≤ r.expiration) = true := by
      rw [List.forall_mem_map]
      exact fun w hw => decide_eq_true (hsound.expirations w hw)
    show (∀ t ∈ List.map _ (List.takeWhile _ (c.refresh.watches.map WatchConfig.request)), _) ↔ _
    rw [List.takeWhile_eq_self_iff.2 hall, List.forall_mem_map, List.forall_mem_map]
    exact Iff.rfl
  · intro e hfits
    have hne : c.spans ++ (events ++ [event]).flatMap Event.spans ≠ [] := List.cons_ne_nil _ _
    obtain ⟨limit, hlimit, hspans⟩ := exists_longest hne
    rw [List.flatMap_append] at hspans
    have hbuilt : p.Timely limit p.now := timely_of_build hb hp fun d hd =>
      hspans d (List.mem_append_left _ hd)
    have hnew : (Engine.new p).Timely limit (Engine.new p).provider.now :=
      ⟨hbuilt, fun _ ht => absurd ht List.not_mem_nil⟩
    obtain ⟨hrun, hapart⟩ := hnew.run (Engine.Apart.new p) fun d hd =>
      hspans d (List.mem_append_right _ (List.mem_append_left _ hd))
    have hevent : ∀ d ∈ event.spans, d ≤ limit := fun d hd =>
      hspans d (List.mem_append_right _ (List.mem_append_right _ (by simpa using hd)))
    have hpause : startupPolicy.peak ≤ limit :=
      hspans _ (List.mem_cons_of_mem _ List.mem_cons_self)
    exact fun t ht => (hfits limit hlimit).mono (hrun.sums_le hapart.distinct hpause hevent t ht)

/-- A key that is looked at as seldom as can be said. -/
def seldomConfig : Config :=
  { (default : Config) with
    endpoints := ["x://a"]
    refresh := ⟨1000, [⟨⟨"Color", none⟩, 0xFFFFFFFFFFFFFFFF, false⟩]⟩ }

/-- Nothing is wrong with either configuration, and no clock shows when the key of the one is looked
at first.  With the other one a first load that starts after a minute sets nothing that a clock does
not show. -/
theorem shows_of_spans_color :
    (seldomConfig.check = .ok () ∧ ∃ b, ofConfig seldomConfig = .ok b ∧ ¬ b.Shows .start) ∧
    ∃ b p, ofConfig Config.colorConfig = .ok b ∧ b.Shows .start ∧
      b.build (some fun _ => none) none .start = .ok p ∧
      ((Engine.new p).run [.advance (.ofSecs 60)]).Shows (.start 0 .load false) := by
  refine ⟨⟨rfl, _, rfl, ?_⟩, ?_⟩
  · have hseldom : ofConfig seldomConfig = .ok _ := rfl
    rw [(shows_of_spans hseldom .start).1]
    decide
  · obtain ⟨b, hb⟩ : ∃ b, ofConfig Config.colorConfig = .ok b := ⟨_, rfl⟩
    obtain ⟨p, hp⟩ : ∃ p, b.build (some fun _ => none) none .start = .ok p :=
      Config.exists_build hb (fun h => by cases h) .start
    obtain ⟨hwatched, hrun⟩ := shows_of_spans hb .start
    refine ⟨b, p, hb, hwatched.2 (by decide), hp, hrun _ _ p hp [.advance (.ofSecs 60)] _ ?_⟩
    show ∀ d ∈ Config.colorConfig.spans ++ [], (p.now + Duration.ofSecs 60 + d).Fits
    rw [(Config.describes_of_build hb hp).now]
    decide

end Blueprint

end ReplicatedConfig
