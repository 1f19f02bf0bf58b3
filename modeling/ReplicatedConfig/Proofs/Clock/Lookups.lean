import ReplicatedConfig.Proofs.Clock.Runs
import ReplicatedConfig.Proofs.Schedule.Nudges

/-!
# Lookups keep their distance

Any number of operations may ask for a lookup, pollers among them, and a lookup may take any time,
overlap with others, fail, or find a list that the pool refuses.  Whatever happens, lookups start at
least one interval apart, and the first one at least one interval after the lookup that the pool was
built from (`lookups_of_opened`).  The slot is taken when a lookup starts and not when it ends, so
it is spent whatever comes of it.

That a lookup starts is seen from the operations: one of them waits for a lookup and did not before
(`startsLookup`).  That the slot has been taken is seen from the pool.  The two are the same event
by event (`slot_handle`), and so the slots of a run are the times at which its lookups start
(`slots_run`).

## What a lookup does to the members

A lookup that starts does nothing to them.  One that has ended replaces them or does nothing, and
its operation returns which.
-/

namespace ReplicatedConfig

/-- With the longest duration for a limit nothing is excluded. -/
def Duration.longest : Duration := .ofNanos durationBound

theorem Duration.le_longest (d : Duration) : d ≤ longest := by
  have hlt := d.nanos_lt
  have hlongest : longest.nanos = durationBound - 1 := by
    rw [longest, nanos_ofNanos]
    exact Nat.min_eq_right (Nat.sub_le _ _)
  rw [le_iff, hlongest]
  omega

theorem Provider.within_longest (p : Provider) : p.Within .longest :=
  ⟨Duration.le_longest _, fun _ _ => Duration.le_longest _, Duration.le_longest _,
    fun _ _ => Duration.le_longest _⟩

namespace Engine

variable {e e' : Engine} {id : TaskId} {t : Task}

/-- Whether an operation starts a lookup in an event: it waits for one behind it and did not
before. -/
def startsLookup (e : Engine) (event : Event) : Bool :=
  (e.handle event).tasks.any fun t =>
    t.job.looksUp && !e.tasks.any fun u => u.id == t.id && u.job.looksUp

/-- The times at which the lookups of a run start. -/
def lookupTimes : Engine → List Event → List Instant
  | _, [] => []
  | e, event :: rest =>
    (if e.startsLookup event then [e.provider.now] else []) ++ lookupTimes (e.handle event) rest

theorem startsLookup_eq_false {event : Event}
    (h : ∀ t ∈ (e.handle event).tasks, t.job.looksUp = true →
      ∃ u ∈ e.tasks, u.id = t.id ∧ u.job.looksUp = true) : e.startsLookup event = false := by
  refine List.any_eq_false.2 fun t ht hstarts => ?_
  rw [Bool.and_eq_true, Bool.not_eq_true', List.any_eq_false] at hstarts
  obtain ⟨u, hu, hid, hlooks⟩ := h t ht hstarts.1
  refine hstarts.2 u hu ?_
  rw [hid, hlooks, beq_self_eq_true]
  rfl

theorem startsLookup_eq_true {event : Event} (ht : t ∈ (e.handle event).tasks)
    (hlooks : t.job.looksUp = true) (hidle : ∀ u ∈ e.tasks, u.id = t.id → u.job.looksUp = false) :
    e.startsLookup event = true := by
  refine List.any_eq_true.2 ⟨t, ht, ?_⟩
  rw [Bool.and_eq_true, Bool.not_eq_true', List.any_eq_false]
  refine ⟨hlooks, fun u hu hboth => ?_⟩
  rw [Bool.and_eq_true, beq_iff_eq] at hboth
  rw [hidle u hu hboth.1] at hboth
  cases hboth.2

/-! ## One event -/

/-- Operations have different numbers and bear no instants from later on. -/
structure Orderly (e : Engine) : Prop where
  apart : Apart e.provider e.tasks
  heeds : ∀ t ∈ e.tasks, t.job.Heeds .longest e.provider.now

theorem orderly_new (p : Provider) : (new p).Orderly :=
  ⟨.new p, fun _ ht => absurd ht List.not_mem_nil⟩

theorem Orderly.within (he : e.Orderly) : e.Within .longest :=
  ⟨e.provider.within_longest, he.heeds⟩

/-- The time slot for lookups stays as it is, and the clock is not turned back. -/
structure SlotKept (p q : Provider) : Prop where
  lastLookup : q.pool.lastLookup = p.pool.lastLookup
  lookupInterval : q.pool.lookupInterval = p.pool.lookupInterval
  now : p.now ≤ q.now

theorem slotKept_told {p q : Provider} {event : Event} (h : p.Told event q) : SlotKept p q := by
  have hquiet {q : Provider} (hpool : q.pool = p.pool) (hnow : p.now ≤ q.now) : SlotKept p q :=
    ⟨by rw [hpool], by rw [hpool], hnow⟩
  cases h with
  | ignored => exact hquiet rfl (Nat.le_refl _)
  | advance d => exact hquiet rfl (p.now.le_add d)
  | drew d => exact hquiet rfl (Nat.le_refl _)
  | watch registered => exact hquiet rfl (Nat.le_refl _)
  | setDirty most draws => exact hquiet rfl (Nat.le_refl _)
  | configure c => exact ⟨rfl, rfl, Nat.le_refl _⟩
  | replaceFound refusals found members => exact ⟨rfl, rfl, Nat.le_refl _⟩

theorem slotKept_redates {limit : Duration} {p q : Provider} (h : p.Redates limit q) :
    SlotKept p q :=
  ⟨h.lastLookup, h.lookupInterval, h.now ▸ Nat.le_refl _⟩

/-- **A lookup starts exactly where the slot is taken.** -/
theorem slot_handle (he : e.Orderly) (event : Event) :
    e.startsLookup event = false ∧ SlotKept e.provider (e.handle event).provider ∨
      e.startsLookup event = true ∧ ∃ pool,
        e.provider.pool.claimLookup e.provider.now = some pool ∧
          (e.handle event).provider = { e.provider with pool } := by
  cases hsaid : event.said? with
  | some f =>
    have hhandle := handle_of_said hsaid e
    refine .inl ⟨startsLookup_eq_false fun t ht hlooks => ⟨t, ?_, rfl, hlooks⟩, ?_⟩
    · rw [hhandle] at ht
      exact ht
    · rw [hhandle]
      exact slotKept_told (Provider.told_of_said hsaid e.provider)
  | none =>
    have hstart {t : Task} (ht : t ∈ (e.handle event).tasks) (hlooks : t.job.looksUp = true) :=
      startsLookup_eq_true ht hlooks
    have hidle := @startsLookup_eq_false e event
    have hshifts := shifts_handle he.within he.apart.distinct hsaid
    generalize e.handle event = e' at hshifts hstart hidle ⊢
    cases hshifts with
    | keeps provider tasks => exact .inl ⟨hidle tasks.looksUp, slotKept_redates provider⟩
    | starts claimed heeds mem looksUp idle =>
      exact .inr ⟨hstart mem looksUp idle, _, claimed, rfl⟩
    | applies refusals found provider tasks =>
      have hkept := slotKept_redates provider
      refine .inl ⟨hidle tasks.looksUp, ?_⟩
      rcases e.provider.pool.applyLookup_cases refusals found e.provider.now with
        happly | ⟨members, -, happly⟩
      · rw [happly] at hkept
        exact hkept
      · rw [happly] at hkept
        exact ⟨hkept.lastLookup, hkept.lookupInterval, hkept.now⟩

theorem Orderly.handle (he : e.Orderly) (event : Event) : (e.handle event).Orderly := by
  refine ⟨(he.apart.handle event).1.apart, ?_⟩
  cases hsaid : event.said? with
  | some f =>
    have hnow := (slotKept_told (Provider.told_of_said hsaid e.provider)).now
    rw [handle_of_said hsaid e]
    exact fun t ht => (he.heeds t ht).mono hnow
  | none =>
    have hshifts := shifts_handle he.within he.apart.distinct hsaid
    generalize e.handle event = e' at hshifts
    cases hshifts with
    | keeps provider tasks =>
      rw [provider.now]
      exact tasks.heeds
    | starts claimed heeds mem looksUp idle => exact heeds
    | applies refusals found provider tasks =>
      rw [provider.now]
      exact tasks.heeds

/-! ## Runs -/

/-- The times at which the slot has been taken: the last time before a run, and then the starts of
its lookups. -/
def slots (e : Engine) (events : List Event) : List Instant :=
  e.provider.pool.lastLookup.toList ++ e.lookupTimes events

/-- **The slots of a run** are at least one interval apart, and the pool knows the last of them. -/
theorem slots_run (he : e.Orderly) (events : List Event) :
    (e.run events).Orderly ∧
    (e.run events).provider.pool.lookupInterval = e.provider.pool.lookupInterval ∧
    (e.slots events).Pairwise (fun s t : Instant => s + e.provider.pool.lookupInterval ≤ t) ∧
    (e.run events).provider.pool.lastLookup = (e.slots events).getLast? := by
  induction events generalizing e with
  | nil =>
    refine ⟨he, rfl, ?_, ?_⟩
    · rw [slots, lookupTimes, List.append_nil]
      cases e.provider.pool.lastLookup with
      | none => exact .nil
      | some last => exact List.pairwise_singleton _ last
    · rw [slots, lookupTimes, List.append_nil]
      show e.provider.pool.lastLookup = _
      cases e.provider.pool.lastLookup <;> rfl
  | cons event rest ih =>
    obtain ⟨horderly, hinterval, hpairwise, hlast⟩ := ih (he.handle event)
    rcases slot_handle he event with ⟨hstarts, hkept⟩ | ⟨hstarts, pool, hclaimed, hprovider⟩
    · have hslots : e.slots (event :: rest) = (e.handle event).slots rest := by
        rw [slots, slots, lookupTimes, hstarts, hkept.lastLookup]
        rfl
      rw [hkept.lookupInterval] at hinterval hpairwise
      rw [hslots]
      exact ⟨horderly, hinterval, hpairwise, hlast⟩
    · have hpool := Pool.eq_of_claimLookup hclaimed
      have hslots : (e.handle event).slots rest =
          e.provider.now :: (e.handle event).lookupTimes rest := by
        rw [slots, hprovider, hpool]
        rfl
      have hbefore : e.slots (event :: rest) =
          e.provider.pool.lastLookup.toList ++ (e.handle event).slots rest := by
        rw [slots, lookupTimes, hstarts, hslots]
        rfl
      have hsame : (e.handle event).provider.pool.lookupInterval =
          e.provider.pool.lookupInterval := by
        rw [hprovider, hpool]
      rw [hsame] at hinterval hpairwise
      refine ⟨horderly, hinterval, ?_, ?_⟩
      · rw [hbefore]
        cases hlookup : e.provider.pool.lastLookup with
        | none => exact hpairwise
        | some last =>
          -- The first lookup is one interval behind the last slot, and the others are behind it.
          have hfirst := Pool.le_of_claimLookup hclaimed hlookup
          refine List.pairwise_cons.2 ⟨fun t ht => ?_, hpairwise⟩
          rw [hslots] at ht hpairwise
          rcases List.mem_cons.1 ht with rfl | ht
          · exact hfirst
          · have hnext := (List.pairwise_cons.1 hpairwise).1 t ht
            exact Nat.le_trans hfirst (Nat.le_trans (e.provider.now.le_add _) hnext)
      · rw [hbefore]
        refine hlast.trans ?_
        rw [hslots, List.getLast?_append, List.getLast?_cons]
        rfl

/-- The slot is free exactly where no slot of the run is within the interval. -/
theorem claimLookup_run_eq_none_iff (he : e.Orderly) (events : List Event) (now : Instant) :
    (e.run events).provider.pool.claimLookup now = none ↔
      ∃ s ∈ e.slots events, now < s + e.provider.pool.lookupInterval := by
  obtain ⟨-, hinterval, hpairwise, hlast⟩ := slots_run he events
  rw [Pool.claimLookup_eq_none_iff, hinterval, hlast]
  constructor
  · rintro ⟨last, hmem, hlt⟩
    exact ⟨last, List.mem_of_getLast? hmem, hlt⟩
  · rintro ⟨s, hs, hlt⟩
    obtain ⟨front, last, hfront⟩ := List.eq_nil_or_concat (e.slots events) |>.resolve_left
      (List.ne_nil_of_mem hs)
    rw [List.concat_eq_append] at hfront
    rw [hfront] at hs hpairwise ⊢
    refine ⟨last, List.getLast?_concat, ?_⟩
    rcases List.mem_append.1 hs with hs | hs
    · -- An earlier slot is even one interval before the last one.
      have hbefore := (List.pairwise_append.1 hpairwise).2.2 s hs last List.mem_cons_self
      exact Nat.lt_of_lt_of_le hlt (Nat.le_trans hbefore (last.le_add _))
    · rwa [← List.mem_singleton.1 hs]

/-! ## One lookup -/

/-- An operation whose number is new stands in the engine once it has started. -/
theorem task?_start (hnew : e.task? id = none) (op : Operation) (cancelled : Bool) :
    e.handle (.start id op cancelled) =
        ⟨(Task.begin id cancelled e.provider op).1,
          e.tasks ++ [⟨id, cancelled, (Task.begin id cancelled e.provider op).2⟩]⟩ ∧
      (e.handle (.start id op cancelled)).task? id =
        some ⟨id, cancelled, (Task.begin id cancelled e.provider op).2⟩ := by
  have hhandle : e.handle (.start id op cancelled) =
      ⟨(Task.begin id cancelled e.provider op).1,
        e.tasks ++ [⟨id, cancelled, (Task.begin id cancelled e.provider op).2⟩]⟩ := by
    simp only [Engine.handle, hnew, Option.isSome_none]
    rfl
  refine ⟨hhandle, ?_⟩
  rw [hhandle, task?, List.find?_append]
  have hnone : e.tasks.find? (·.id = id) = none := hnew
  rw [hnone]
  simp

/-- An operation stands where its step has taken it. -/
theorem task?_stepTask (hfind : e.task? id = some t) (step : Task → Provider → Provider × Job) :
    (e.stepTask id step).task? id = some { t with job := (step t e.provider).2 } := by
  have hid := (exists_split hfind).1
  unfold stepTask
  rw [hfind, task?, List.find?_map]
  have hsame : ((fun u : Task => decide (u.id = id)) ∘ fun u : Task =>
      if u.id = id then { u with job := (step t e.provider).2 } else u) =
        fun u => decide (u.id = id) := by
    funext u
    simp only [Function.comp_apply]
    split <;> rfl
  have hfind' : e.tasks.find? (fun u => decide (u.id = id)) = some t := hfind
  rw [hsame, hfind', Option.map_some, if_pos hid]

theorem provider_stepTask (hfind : e.task? id = some t)
    (step : Task → Provider → Provider × Job) :
    (e.stepTask id step).provider = (step t e.provider).1 := by
  unfold stepTask
  rw [hfind]

/-- Whoever waits for a lookup, the members become what the pool makes of them. -/
theorem members_lookedUp (hlooks : t.job.looksUp = true) (p : Provider) (refusals : Refusals)
    (found : Option (List Endpoint)) :
    (t.lookedUp p refusals found).1.pool.members =
      (p.pool.applyLookup refusals found p.now).1.members := by
  obtain ⟨id, cancelled, job⟩ := t
  cases job with
  | rediscover => rfl
  | poll s =>
    obtain ⟨period, nextTick, doing⟩ := s
    cases doing with
    | idle => cases hlooks
    | lookingUp =>
      have hpass : Task.Keeps .longest
          { p with pool := (p.pool.applyLookup refusals found p.now).1 } false
          (Task.lookedUp ⟨id, cancelled, .poll ⟨period, nextTick, .lookingUp⟩⟩ p refusals found) :=
        Task.keeps_passed (Pass.redated_begin (Provider.within_longest _))
      exact hpass.redated.provider.members
    | passing pass => cases hlooks
  | fetch call => cases hlooks
  | check call => cases hlooks
  | list call => cases hlooks
  | load s => cases hlooks
  | refresh s => cases hlooks
  | ended result => cases hlooks

/-- What becomes of a call that asks for a lookup: within the interval it returns that nothing has
changed, and otherwise it waits. -/
theorem start_rediscover (hnew : e.task? id = none) (cancelled : Bool) :
    (e.handle (.start id .rediscover cancelled)).provider.pool.members =
        e.provider.pool.members ∧
      (e.provider.pool.claimLookup e.provider.now = none →
        (e.handle (.start id .rediscover cancelled)).result? id = some (.rediscovered false)) ∧
      (e.provider.pool.claimLookup e.provider.now ≠ none →
        e.startsLookup (.start id .rediscover cancelled) = true) := by
  obtain ⟨hhandle, htask⟩ := task?_start hnew .rediscover cancelled
  cases hclaim : e.provider.pool.claimLookup e.provider.now with
  | none =>
    simp only [Task.begin, hclaim] at hhandle htask
    refine ⟨by rw [hhandle], fun _ => ?_, fun h => absurd rfl h⟩
    rw [result?, htask]
  | some pool =>
    simp only [Task.begin, hclaim] at hhandle
    refine ⟨?_, fun hnone => absurd hnone (Option.some_ne_none pool), fun _ => ?_⟩
    · rw [hhandle, Pool.eq_of_claimLookup hclaim]
    · have hmem : (⟨id, cancelled, .rediscover⟩ : Task) ∈
          (e.handle (.start id .rediscover cancelled)).tasks := by
        rw [hhandle]
        exact List.mem_append_right _ List.mem_cons_self
      have hnone : (e.tasks.find? (·.id = id)).isSome = false := by
        rw [show e.tasks.find? (·.id = id) = none from hnew]
        rfl
      refine startsLookup_eq_true hmem rfl fun u hu hid => ?_
      exact absurd hid (ne_of_find?_eq_none hnone u hu)

/-- **Lookups are limited in time and do no harm.**  In every run of a provider, any two lookups
start at least one interval apart, and the first one at least one interval after the lookup that the
pool was built from has ended.  A call within the interval returns that nothing has changed, and
leaves the members as they are; any other one starts a lookup, and leaves them as they are too.
When a lookup ends that has failed, or whose list the pool refuses, the members stay, and a call returns
that they have changed exactly where its lookup has replaced them. -/
theorem lookups_of_opened {ended : Option Instant} {pool : Pool} (opened : Pool.Opened ended pool)
    (failover : FailoverConfig) (watchList : WatchList) (pipeline : Pipeline) (options : LoadOptions)
    (now : Instant) (events : List Event) :
    let built := new (.new pool failover watchList pipeline options now)
    let e := built.run events
    let slots := ended.toList ++ built.lookupTimes events
    slots.Pairwise (fun s t : Instant => s + pool.lookupInterval ≤ t) ∧
    (∀ id cancelled, e.task? id = none →
      let e' := e.handle (.start id .rediscover cancelled)
      e'.provider.pool.members = e.provider.pool.members ∧
      ((∃ s ∈ slots, e.provider.now < s + pool.lookupInterval) →
        e'.result? id = some (.rediscovered false)) ∧
      ((∀ s ∈ slots, s + pool.lookupInterval ≤ e.provider.now) →
        e.startsLookup (.start id .rediscover cancelled) = true)) ∧
    (∀ id t, e.task? id = some t → t.job.looksUp = true → ∀ refusals found,
      let e' := e.handle (.lookedUp id refusals found)
      (e.provider.pool.Fails refusals found e.provider.now →
        e'.provider.pool.members = e.provider.pool.members) ∧
      (t.job = .rediscover → e'.result? id =
        some (.rediscovered (decide (e'.provider.pool.members ≠ e.provider.pool.members))))) := by
  intro built e slots
  have hbuilt : built.Orderly := orderly_new _
  have hslots : built.slots events = slots := congrArg (·.toList ++ _) opened.lastLookup
  obtain ⟨-, -, hpairwise, -⟩ := slots_run hbuilt events
  have hclaim := claimLookup_run_eq_none_iff hbuilt events e.provider.now
  rw [hslots] at hpairwise hclaim
  refine ⟨hpairwise, fun id cancelled hnew => ?_, fun id t htask hlooks refusals found => ?_⟩
  · obtain ⟨hmembers, hrefused, hstarted⟩ := start_rediscover hnew cancelled
    refine ⟨hmembers, fun hwithin => hrefused (hclaim.2 hwithin), fun hfree => hstarted ?_⟩
    intro hnone
    obtain ⟨s, hs, hlt⟩ := hclaim.1 hnone
    exact absurd (hfree s hs) (Nat.not_le_of_lt hlt)
  · have hprovider := provider_stepTask htask fun t p => t.lookedUp p refusals found
    have hmembers := members_lookedUp hlooks e.provider refusals found
    rw [← hprovider] at hmembers
    refine ⟨fun hfails => ?_, fun hjob => ?_⟩
    · rw [Pool.applyLookup_of_fails hfails] at hmembers
      exact hmembers
    · have htask' := task?_stepTask htask fun t p => t.lookedUp p refusals found
      have hchanged :=
        e.provider.pool.applyLookup_eq_true_iff refusals found e.provider.now
      rw [← hmembers] at hchanged
      show (e.stepTask id fun t p => t.lookedUp p refusals found).result? id = _
      rw [result?, htask', Task.lookedUp, hjob]
      exact congrArg (fun changed => some (Result.rediscovered changed))
        (Bool.eq_iff_iff.2 (hchanged.trans decide_eq_true_iff.symm))

/-- A pool of one configured replica, for which a lookup has found another one. -/
def lookedPool : Pool :=
  { Pool.ofHosts ["a", "b"] with
    members := [⟨0, (Pool.ofHosts ["a"]).origin, .configured⟩,
      ⟨1, (Pool.ofHosts ["b"]).origin, .found⟩]
    configured := (Pool.ofHosts ["a"]).configured
    lookupInterval := .ofSecs 1
    lastLookup := some .start }

/-- The provider has just been built over it. -/
def looked : Engine := new (.new lookedPool default .empty .empty default .start)

/-- A call asks for a lookup at once, a second one a second later, and its lookup fails.  Two more
overlap, of which the first one finds a further replica. -/
def overlapping : List Event :=
  [.start 0 .rediscover false, .advance (.ofSecs 1), .start 1 .rediscover false,
    .lookedUp 1 (fun _ => none) none, .advance (.ofSecs 1), .start 2 .rediscover false,
    .advance (.ofSecs 1), .start 3 .rediscover false,
    .lookedUp 2 (fun _ => none) (some (Pool.ofHosts ["b", "c"]).configured)]

/-- The call that has asked at once, the one whose lookup has failed, and another one within the
interval return that nothing has changed.  So does the last of those that overlap, where the pool
refuses what its lookup has found. -/
theorem lookups_of_opened_overlapping :
    Pool.Opened (some .start) lookedPool ∧
    looked.lookupTimes overlapping = [1, 2, 3].map (fun s => Instant.start + Duration.ofSecs s) ∧
    (looked.run overlapping).provider.pool.members.map (·.endpoint) =
      (Pool.ofHosts ["a", "b", "c"]).configured ∧
    ((looked.run overlapping).result? 0 = some (.rediscovered false) ∧
      (looked.run overlapping).result? 1 = some (.rediscovered false) ∧
      (looked.run overlapping).result? 2 = some (.rediscovered true)) ∧
    ((looked.run overlapping).handle (.start 4 .rediscover false)).result? 4 =
      some (.rediscovered false) ∧
    ((looked.run overlapping).handle (.lookedUp 3 (fun _ => some .timeout)
      (some (Pool.ofHosts ["d"]).configured))).result? 3 = some (.rediscovered false) := by
  have hconnect : Pool.connect (fun _ => none) (Pool.ofHosts ["a"]).configured
      (Pool.ofHosts ["a"]).origin (some (Pool.ofHosts ["b"]).configured) default .start =
        .ok { lookedPool with lookupInterval := Pool.defaultLookupInterval } := rfl
  have hopened : Pool.Opened (some .start) lookedPool := .paced (.connect hconnect) (.ofSecs 1)
  have htimes : looked.lookupTimes overlapping =
      [1, 2, 3].map (fun s => Instant.start + Duration.ofSecs s) := by decide +kernel
  have hlast : Instant.start + Duration.ofSecs 3 ∈ looked.lookupTimes overlapping := by
    rw [htimes]
    simp
  obtain ⟨-, hstart, hend⟩ :=
    lookups_of_opened hopened default .empty .empty default .start overlapping
  obtain ⟨-, hwithin, -⟩ := hstart 4 false rfl
  obtain ⟨hfails, hresult⟩ := hend 3 ⟨3, false, .rediscover⟩ rfl rfl (fun _ => some .timeout)
    (some (Pool.ofHosts ["d"]).configured)
  refine ⟨hopened, htimes, rfl, ⟨rfl, rfl, rfl⟩,
    hwithin ⟨_, List.mem_append_right _ hlast, by decide +kernel⟩, (hresult rfl).trans ?_⟩
  rw [hfails fun taken htaken => ⟨.clientInit "https://d/" .timeout, ?_⟩]
  · simp
  · cases htaken
    rfl

end Engine
end ReplicatedConfig
