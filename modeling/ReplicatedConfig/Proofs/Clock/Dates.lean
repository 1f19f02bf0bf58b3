import ReplicatedConfig.Clock
import ReplicatedConfig.Proofs.Failover.Account
import ReplicatedConfig.Proofs.Refresh.Loading
import ReplicatedConfig.Proofs.Watch

/-!
# How far ahead instants are set

Operations set dates in many places: a check lets its key go, a load marks all keys as looked
at, an attempt fails, a call starts an attempt.  Each date is the time at which it is set and a
span that the provider or the call knows.  So with a `limit` on these spans (`Provider.Within`)
no date is ever set further ahead than that.

`Provider.Redates` is what a step of an operation may do to a provider as far as instants go.
It says of each key and each replica that its date is an old one or at most `limit` ahead, and
that the rest of what instants depend on stays as it is, the members and the time of the last
lookup among it.  Only the few steps that look replicas up are different.

An operation that goes on bears instants and spans of its own.  `Heeds` says of them what
`Within` says of the provider: a call keeps the interval and the policy of its start, and a first
load the instant at which it stops trying.  A step that leads from a provider that is `Within` and
an operation that `Heeds` to such again is `Redated`.
-/

namespace ReplicatedConfig

variable {σ α : Type} {limit : Duration}

/-- No failure keeps a replica away for longer than `limit`. -/
def BackoffPolicy.Within (limit : Duration) (b : BackoffPolicy) : Prop :=
  ∀ draw n, b.interval draw n ≤ limit

/-- Nothing that dates are computed from is longer than `limit`. -/
structure Provider.Within (limit : Duration) (p : Provider) : Prop where
  interval : p.failover.interval ≤ limit
  policy : p.pool.policy.Within limit
  timeout : p.options.startupTimeout ≤ limit
  watches : ∀ w ∈ p.watchList.watches, w.interval ≤ limit

/-- A watched key as it was, but for its date, which may have been set again. -/
structure Watch.Redates (limit : Duration) (now : Instant) (v w : Watch) : Prop where
  interval : w.interval = v.interval
  date : w.expiresAt = v.expiresAt ∨ w.expiresAt ≤ now + limit

/-- A step after which all dates are old ones or at most `limit` ahead. -/
structure Provider.Redates (limit : Duration) (p q : Provider) : Prop where
  now : q.now = p.now
  options : q.options = p.options
  failover : q.failover = p.failover
  policy : q.pool.policy = p.pool.policy
  members : q.pool.members = p.pool.members
  lookupInterval : q.pool.lookupInterval = p.pool.lookupInterval
  lastLookup : q.pool.lastLookup = p.pool.lastLookup
  watches : ∀ w ∈ q.watchList.watches, ∃ v ∈ p.watchList.watches, v.Redates limit p.now w
  healths : ∀ h ∈ q.pool.healths, h ∈ p.pool.healths ∨ h.retryAt ≤ p.now + limit

theorem Instant.add_le_add (t : Instant) {c d : Duration} (h : c ≤ d) : t + c ≤ t + d :=
  Nat.add_le_add_left h t.nanos

theorem Instant.add_le_add_right {s t : Instant} (h : s ≤ t) (d : Duration) : s + d ≤ t + d :=
  Nat.add_le_add_right h d.nanos

namespace Watch

variable {now : Instant} {u v w : Watch}

theorem Redates.refl (limit : Duration) (now : Instant) (w : Watch) : w.Redates limit now w :=
  ⟨rfl, .inl rfl⟩

theorem Redates.trans (hv : u.Redates limit now v) (hw : v.Redates limit now w) :
    u.Redates limit now w := by
  refine ⟨hw.interval.trans hv.interval, ?_⟩
  rcases hw.date with hdate | hdate
  · rw [hdate]
    exact hv.date
  · exact .inr hdate

/-- Having looked at a key puts its next look off by one interval. -/
theorem redates_attempted (h : w.interval ≤ limit) : w.Redates limit now (w.attempted now) :=
  ⟨rfl, .inr (now.add_le_add h)⟩

end Watch

namespace Provider

variable {p q r : Provider}

namespace Redates

/-- A step that touches neither keys nor replicas. -/
theorem of_eq (now : q.now = p.now) (options : q.options = p.options)
    (failover : q.failover = p.failover) (pool : q.pool = p.pool)
    (watchList : q.watchList = p.watchList) : p.Redates limit q where
  now := now
  options := options
  failover := failover
  policy := by rw [pool]
  members := by rw [pool]
  lookupInterval := by rw [pool]
  lastLookup := by rw [pool]
  watches w hw := ⟨w, by rwa [← watchList], .refl limit p.now w⟩
  healths h hh := .inl (by rwa [← pool])

theorem refl (limit : Duration) (p : Provider) : p.Redates limit p := of_eq rfl rfl rfl rfl rfl

theorem trans (hq : p.Redates limit q) (hr : q.Redates limit r) : p.Redates limit r where
  now := hr.now.trans hq.now
  options := hr.options.trans hq.options
  failover := hr.failover.trans hq.failover
  policy := hr.policy.trans hq.policy
  members := hr.members.trans hq.members
  lookupInterval := hr.lookupInterval.trans hq.lookupInterval
  lastLookup := hr.lastLookup.trans hq.lastLookup
  watches w hw := by
    obtain ⟨v, hv, hvw⟩ := hr.watches w hw
    obtain ⟨u, hu, huv⟩ := hq.watches v hv
    rw [hq.now] at hvw
    exact ⟨u, hu, huv.trans hvw⟩
  healths h hh := by
    rcases hr.healths h hh with hold | hdate
    · exact hq.healths h hold
    · exact .inr (hq.now ▸ hdate)

/-- Spans stay within a limit. -/
theorem within (h : p.Redates limit q) (hp : p.Within limit) : q.Within limit where
  interval := h.failover ▸ hp.interval
  policy := h.policy ▸ hp.policy
  timeout := h.options ▸ hp.timeout
  watches w hw := by
    obtain ⟨v, hv, hvw⟩ := h.watches w hw
    exact hvw.interval ▸ hp.watches v hv

end Redates

/-- A step that touches one key. -/
theorem redates_modify (place : Nat) {f : Watch → Watch}
    (hf : ∀ w ∈ p.watchList.watches, w.Redates limit p.now (f w)) :
    p.Redates limit { p with watchList := p.watchList.modify place f } := by
  have hsame := Redates.refl limit p
  refine { hsame with watches := fun w hw => ?_ }
  obtain ⟨j, v, hv, rfl⟩ := WatchList.mem_modify hw
  have hmem : v ∈ p.watchList.watches := List.mem_of_getElem? hv
  refine ⟨v, hmem, ?_⟩
  split
  · exact hf v hmem
  · exact .refl limit p.now v

/-- Letting a key go puts its next look off. -/
theorem redates_letGo (hp : p.Within limit) (place : Nat) : p.Redates limit (p.letGo place) :=
  redates_modify place fun w hw =>
    have hattempted : w.Redates limit p.now (w.attempted p.now) :=
      Watch.redates_attempted (hp.watches w hw)
    ⟨hattempted.interval, hattempted.date⟩

theorem redates_setToken (p : Provider) (place : Nat) (token : Option Token) :
    p.Redates limit (p.setToken place token) :=
  redates_modify place fun _ _ => ⟨rfl, .inl rfl⟩

/-- Claiming a key sets no date. -/
theorem redates_begin {place : Nat} {watchList : WatchList}
    (h : p.watchList.begin? place p.now = some watchList) :
    p.Redates limit { p with watchList } := by
  unfold WatchList.begin? at h
  split at h
  · split at h
    · cases h
      exact redates_modify place fun _ _ => ⟨rfl, .inl rfl⟩
    · cases h
  · cases h

end Provider

/-- What a step of an operation comes to: the provider with its dates set again, and the
operation where its own instants heed the limit, as `heeds` says. -/
structure Redated {β : Type} (heeds : Instant → β → Prop) (limit : Duration) (p : Provider)
    (x : Provider × β) : Prop where
  provider : p.Redates limit x.1
  stands : heeds p.now x.2

/-- A step behind another one. -/
theorem Redated.after {β : Type} {heeds : Instant → β → Prop} {p q : Provider} {x : Provider × β}
    (hq : p.Redates limit q) (hx : Redated heeds limit q x) : Redated heeds limit p x :=
  ⟨hq.trans hx.provider, hq.now ▸ hx.stands⟩

/-- What follows on a step from a provider within the limit begins with one that is so too. -/
theorem Redated.bind {β γ : Type} {heeds : Instant → β → Prop} {heeds' : Instant → γ → Prop}
    {p : Provider} {x : Provider × β} {y : Provider × γ} (hx : Redated heeds limit p x)
    (hp : p.Within limit)
    (hy : x.1.Within limit → heeds x.1.now x.2 → Redated heeds' limit x.1 y) :
    Redated heeds' limit p y := by
  refine .after hx.provider (hy (hx.provider.within hp) ?_)
  rw [hx.provider.now]
  exact hx.stands

/-! ## Calls -/

/-- What a call computes its next instants from. -/
structure Call.Heeds (limit : Duration) (now : Instant) (c : Call σ) : Prop where
  interval : c.interval ≤ limit
  policy : c.policy.Within limit
  lastLaunch : c.lastLaunch ≤ now

/-- The date of a replica that an effect leads to is at most `limit` ahead. -/
def Effect.Heeds (limit : Duration) (now : Instant) : Effect → Prop
  | .answered _ _ time policy => time = now ∧ policy.Within limit
  | .fellBack => True

/-- A call that goes on heeds the limit. -/
def Progress.Heeds (limit : Duration) (now : Instant) : Progress σ α → Prop
  | .waiting c => c.Heeds limit now
  | .returned _ => True

/-- A step of a call heeds the limit. -/
structure Turn.Heeds (limit : Duration) (now : Instant) (t : Turn σ α) : Prop where
  effects : ∀ e ∈ t.effects, e.Heeds limit now
  progress : t.progress.Heeds limit now

namespace Call

variable {c : Call σ} {now later : Instant}

theorem Heeds.mono (h : c.Heeds limit now) (hle : now ≤ later) : c.Heeds limit later :=
  ⟨h.interval, h.policy, Nat.le_trans h.lastLaunch hle⟩

/-- When a call tries its next candidate is at most `limit` ahead. -/
theorem Heeds.dates_le (h : c.Heeds limit now) : ∀ t ∈ c.dates, t ≤ now + limit := by
  intro t ht
  rw [List.mem_singleton.1 ht]
  exact Nat.le_trans (Instant.add_le_add_right h.lastLaunch _) (now.add_le_add h.interval)

theorem Heeds.launchNext (h : c.Heeds limit now) : (c.launchNext now).Heeds limit now := by
  unfold Call.launchNext
  split
  · exact h
  · exact ⟨h.interval, h.policy, Nat.le_refl _⟩

theorem Heeds.proceed (h : c.Heeds limit now) : (proceed c : Progress σ α).Heeds limit now := by
  unfold Call.proceed
  split
  · trivial
  · exact h

/-- A step without effects. -/
theorem Heeds.waiting (h : c.Heeds limit now) :
    (⟨[], .waiting c⟩ : Turn σ α).Heeds limit now :=
  ⟨fun _ he => absurd he List.not_mem_nil, h⟩

theorem Heeds.complete (h : c.Heeds limit now) (m : Member) (result : Except StoreError α) :
    (c.complete m result now).Heeds limit now := by
  have heffects (outcome : AttemptOutcome) :
      ∀ e ∈ [Effect.answered m outcome now c.policy], e.Heeds limit now := by
    intro e he
    rw [List.mem_singleton.1 he]
    exact ⟨rfl, h.policy⟩
  cases result with
  | ok value => exact ⟨heffects _, trivial⟩
  | error e =>
    unfold Call.complete
    cases he : e.failureClass with
    | retryable =>
      have hdropped : { c.drop m.id with lastError := some e }.Heeds limit now :=
        ⟨h.interval, h.policy, h.lastLaunch⟩
      simp only [he]
      exact ⟨heffects _, hdropped.launchNext.proceed⟩
    | notFound =>
      simp only [he]
      exact ⟨heffects _, trivial⟩
    | nonRetryable =>
      simp only [he]
      exact ⟨heffects _, trivial⟩
    | cancelled =>
      simp only [he]
      exact ⟨heffects _, trivial⟩

theorem Heeds.hear (h : c.Heeds limit now) (k : Conversation σ α) (ticket : Ticket)
    (reply : Except StoreError Reply) : (c.hear k ticket reply now).Heeds limit now := by
  unfold Call.hear
  split
  · exact h.waiting
  · split
    · exact h.complete _ _
    · split
      · exact h.waiting
      · exact Heeds.waiting ⟨h.interval, h.policy, h.lastLaunch⟩
      · exact h.complete _ _

theorem Heeds.opening (h : c.Heeds limit now) (k : Conversation σ α) :
    (c.opening k now).Heeds limit now := by
  unfold Call.opening
  split
  · exact ⟨fun _ he => absurd he List.not_mem_nil, h.proceed⟩
  · split
    · exact h.complete _ _
    · exact h.waiting

theorem Heeds.fallBack (h : c.Heeds limit now) : (c.fallBack now : Turn σ α).Heeds limit now := by
  rcases c.fallBack_cases (α := α) now with hback | hback
  · rw [hback]
    refine ⟨fun e he => ?_, h.launchNext⟩
    rw [List.mem_singleton.1 he]
    trivial
  · rw [hback]
    exact h.waiting

end Call

/-- A replica that has failed may be tried again within the limit, and one that has not at
once. -/
theorem Health.retryAt_record_le {policy : BackoffPolicy}
    (h : policy.Within limit) (health : Health) (success : Bool) (now : Instant) (draw : Draw) :
    (health.record success now policy draw).retryAt ≤ now + limit := by
  cases success with
  | true => exact now.le_add limit
  | false => exact now.add_le_add (h draw _)

namespace Provider

variable {p : Provider}

theorem redates_apply {e : Effect} (h : e.Heeds limit p.now) : p.Redates limit (p.apply e) := by
  have hsame := Redates.refl limit p
  cases e with
  | fellBack => exact .of_eq rfl rfl rfl rfl rfl
  | answered m outcome time policy =>
    obtain ⟨rfl, hpolicy⟩ := h
    cases houtcome : outcome.health? with
    | none =>
      simp only [apply, houtcome]
      exact .of_eq rfl rfl rfl rfl rfl
    | some success =>
      simp only [apply, houtcome]
      refine ⟨rfl, rfl, rfl, rfl, rfl, rfl, rfl, hsame.watches, fun h hh => ?_⟩
      obtain ⟨i, hi⟩ := List.mem_iff_getElem?.1 hh
      have hget : (p.pool.healths.modify m.id fun h => h.record success p.now policy p.draw)[i]? =
        some h := hi
      rw [List.getElem?_modify] at hget
      obtain ⟨health, hhealth, rfl⟩ := Option.map_eq_some_iff.1 hget
      split
      · exact .inr (Health.retryAt_record_le hpolicy health success p.now p.draw)
      · exact .inl (List.mem_of_getElem? hhealth)

theorem redated_take {t : Turn σ α} (h : t.Heeds limit p.now) :
    Redated (Progress.Heeds limit) limit p (p.take t) := by
  refine ⟨?_, h.progress⟩
  show p.Redates limit (t.effects.foldl apply p)
  have heffects := h.effects
  generalize t.effects = effects at heffects
  clear h
  induction effects generalizing p with
  | nil => exact .refl limit p
  | cons e rest ih =>
    have hfirst := redates_apply (heffects e List.mem_cons_self)
    refine hfirst.trans (ih fun e' he' => ?_)
    rw [hfirst.now]
    exact heffects e' (List.mem_cons_of_mem e he')

/-- A call that is opened heeds what the provider is within. -/
theorem redated_openCall (hp : p.Within limit) (k : Conversation σ α) (fresh : σ)
    (cancelled : Bool) : Redated (Progress.Heeds limit) limit p (p.openCall k fresh cancelled) := by
  unfold openCall
  split
  · exact ⟨.refl limit p, trivial⟩
  · have hcounted : p.Redates limit { p with calls := p.calls + 1 } := .of_eq rfl rfl rfl rfl rfl
    have hstart : (Call.start p.calls p.failover.interval p.pool.policy (p.pool.candidates p.now)
        fresh p.now).Heeds limit p.now :=
      Call.Heeds.launchNext ⟨hp.interval, hp.policy, Nat.le_refl _⟩
    exact .after hcounted (redated_take (hstart.opening k))

/-- A call that is driven goes on heeding the limit. -/
theorem redated_drive (k : Conversation σ α) {c : Call σ} (h : c.Heeds limit p.now) (i : Input) :
    Redated (Progress.Heeds limit) limit p (p.drive k c i) := by
  cases i with
  | answered ticket reply => exact redated_take (h.hear k ticket reply)
  | fallback serial =>
    rw [drive]
    split
    · exact redated_take h.fallBack
    · exact ⟨.refl limit p, h⟩
  | cancelled => exact ⟨.refl limit p, trivial⟩
  | resumed => exact ⟨.refl limit p, h⟩
  | woke => exact ⟨.refl limit p, h⟩

end Provider

/-- What holds of an operation in phases while it goes on. -/
def Stage.Every {μ : Type} (holds : μ → Prop) : Stage μ α → Prop
  | .running phase => holds phase
  | .finished _ => True

/-! ## Reloads -/

namespace Reload

variable {me : TaskId} {cancelled : Bool} {watched : Nat} {p : Provider} {now later : Instant}

/-- The call of a reload heeds the limit. -/
def Heeds (limit : Duration) (now : Instant) : Reload → Prop
  | .listing call => call.Heeds limit now
  | .fetching _ _ _ call => call.Heeds limit now
  | .waiting | .adapting .. => True

theorem Heeds.mono {r : Reload} (h : r.Heeds limit now) (hle : now ≤ later) :
    r.Heeds limit later := by
  cases r with
  | waiting => trivial
  | listing call => exact Call.Heeds.mono h hle
  | fetching watched places raw call => exact Call.Heeds.mono h hle
  | adapting watched s rest previous done => trivial

theorem Heeds.dates_le {r : Reload} (h : r.Heeds limit now) : ∀ t ∈ r.dates, t ≤ now + limit := by
  cases r with
  | waiting => exact fun _ ht => absurd ht List.not_mem_nil
  | listing call => exact Call.Heeds.dates_le h
  | fetching watched places raw call => exact Call.Heeds.dates_le h
  | adapting watched s rest previous done => exact fun _ ht => absurd ht List.not_mem_nil

/-- A step of a reload sets dates within the limit. -/
abbrev Redated (limit : Duration) (p : Provider) (x : Step) : Prop :=
  ReplicatedConfig.Redated (fun now => Stage.Every (Heeds limit now)) limit p x

/-- A load that completes puts all keys off. -/
theorem redates_commit (hp : p.Within limit) (me : TaskId) (watched : Nat) (entries : List Entry) :
    p.Redates limit (commit me p watched entries).1 := by
  have hsame := Provider.Redates.refl limit p
  refine { hsame with watches := fun w hw => ?_ }
  obtain ⟨place, hplace⟩ := List.mem_iff_getElem?.1 hw
  have hget : (commit me p watched entries).1.watchList.get? place = some w := hplace
  rw [get?_commit] at hget
  obtain ⟨v, hv, rfl⟩ := Option.map_eq_some_iff.1 hget
  have hmem : v ∈ p.watchList.watches := List.mem_of_getElem? hv
  have hattempted : v.Redates limit p.now (v.attempted p.now) :=
    Watch.redates_attempted (hp.watches v hmem)
  refine ⟨v, hmem, ?_⟩
  split
  · exact ⟨hattempted.interval, hattempted.date⟩
  · exact hattempted

theorem redated_adaptNext (hp : p.Within limit) (raw : List Setting) (previous done : List Entry) :
    Redated limit p (adaptNext me p watched raw previous done) := by
  cases raw with
  | nil => exact ⟨redates_commit hp me watched done, trivial⟩
  | cons s rest => exact ⟨.refl limit p, trivial⟩

theorem redated_fail (p : Provider) (e : ProviderError) : Redated limit p (fail me p e) :=
  ⟨.of_eq rfl rfl rfl rfl rfl, trivial⟩

theorem redated_adapted (hp : p.Within limit) (s : Setting) (rest : List Setting)
    (previous done : List Entry) :
    Redated limit p (adapted me p watched s rest previous done) := by
  unfold adapted
  split
  · exact redated_adaptNext hp _ _ _
  · split
    · exact redated_adaptNext hp _ _ _
    · exact redated_fail p _

theorem redated_fetchNext (hp : p.Within limit) (places : List Nat) (raw : List Setting) :
    Redated limit p (fetchNext me cancelled p watched places raw) := by
  induction places generalizing p raw with
  | nil => exact redated_adaptNext hp _ _ _
  | cons place places ih =>
    rw [fetchNext]
    split
    · exact ih hp raw
    · next w hw =>
      split
      · exact ih hp raw
      · have hopened := Provider.redated_openCall hp .fetch w.identity cancelled
        generalize p.openCall .fetch w.identity cancelled = x at hopened
        obtain ⟨q, progress⟩ := x
        cases progress with
        | waiting call => exact ⟨hopened.provider, hopened.stands⟩
        | returned r =>
          simp only []
          split
          · exact .after hopened.provider (redated_fail q _)
          · exact .after hopened.provider (ih (hopened.provider.within hp) _)

theorem redated_fetched (hp : p.Within limit) (places : List Nat) (raw : List Setting)
    {progress : Progress Identity (Option Setting)} (h : progress.Heeds limit p.now) :
    Redated limit p (fetched me cancelled p watched places raw progress) := by
  cases progress with
  | waiting call => exact ⟨.refl limit p, h⟩
  | returned r =>
    rw [fetched]
    split
    · exact redated_fail p _
    · exact redated_fetchNext hp places _

theorem redated_listed (hp : p.Within limit) {progress : Progress Listing (List Setting)}
    (h : progress.Heeds limit p.now) : Redated limit p (listed me cancelled p progress) := by
  rcases progress with call | (e | ⟨settings, m⟩)
  · exact ⟨.refl limit p, h⟩
  · exact redated_fail p _
  · exact redated_fetchNext hp _ _

theorem redated_enter (hp : p.Within limit) : Redated limit p (enter me cancelled p) := by
  unfold enter
  split
  · exact (Provider.redated_openCall hp _ _ _).bind hp fun hq hcall => redated_listed hq hcall
  · exact ⟨.refl limit p, trivial⟩

theorem redated_begin (hp : p.Within limit) : Redated limit p (begin me cancelled p) := by
  have hacquire : p.Redates limit (p.acquire me) := .of_eq rfl rfl rfl rfl rfl
  exact .after hacquire (redated_enter (hacquire.within hp))

/-- Whatever reaches a reload, dates are set within the limit. -/
theorem redated_handle (hp : p.Within limit) {r : Reload} (h : r.Heeds limit p.now) (i : Input) :
    Redated limit p (r.handle me cancelled p i) := by
  cases r with
  | waiting =>
    cases i with
    | resumed => exact redated_enter hp
    | answered ticket reply => exact ⟨.refl limit p, h⟩
    | fallback serial => exact ⟨.refl limit p, h⟩
    | cancelled => exact ⟨.refl limit p, h⟩
    | woke => exact ⟨.refl limit p, h⟩
  | listing call =>
    exact (Provider.redated_drive .list h i).bind hp fun hq hcall => redated_listed hq hcall
  | fetching watched places raw call =>
    exact (Provider.redated_drive .fetch h i).bind hp fun hq hcall => redated_fetched hq _ _ hcall
  | adapting watched s rest previous done =>
    cases i with
    | resumed => exact redated_adapted hp s rest previous done
    | answered ticket reply => exact ⟨.refl limit p, h⟩
    | fallback serial => exact ⟨.refl limit p, h⟩
    | cancelled => exact ⟨.refl limit p, h⟩
    | woke => exact ⟨.refl limit p, h⟩

end Reload

/-! ## Checks -/

namespace Check

variable {cancelled : Bool} {place : Nat} {p : Provider} {now later : Instant}

/-- The call of a check heeds the limit. -/
def Heeds (limit : Duration) (now : Instant) : Check → Prop
  | .checking _ _ call => call.Heeds limit now
  | .fetching _ _ call => call.Heeds limit now
  | .ready _ | .finished _ => True

theorem Heeds.mono {c : Check} (h : c.Heeds limit now) (hle : now ≤ later) :
    c.Heeds limit later := by
  cases c with
  | ready place => trivial
  | checking place known call => exact Call.Heeds.mono h hle
  | fetching place known call => exact Call.Heeds.mono h hle
  | finished result => trivial

theorem Heeds.dates_le {c : Check} (h : c.Heeds limit now) : ∀ t ∈ c.dates, t ≤ now + limit := by
  cases c with
  | ready place => exact fun _ ht => absurd ht List.not_mem_nil
  | checking place known call => exact Call.Heeds.dates_le h
  | fetching place known call => exact Call.Heeds.dates_le h
  | finished result => exact fun _ ht => absurd ht List.not_mem_nil

/-- A step of a check sets dates within the limit. -/
abbrev Redated (limit : Duration) (p : Provider) (x : Provider × Check) : Prop :=
  ReplicatedConfig.Redated (Heeds limit) limit p x

theorem redated_finish (hp : p.Within limit) (place : Nat) (result : Except ProviderError Finding) :
    Redated limit p (finish p place result) :=
  ⟨Provider.redates_letGo hp place, trivial⟩

theorem redated_fetched (hp : p.Within limit) (known : Option Token)
    {progress : Progress Identity (Option Setting)} (h : progress.Heeds limit p.now) :
    Redated limit p (fetched p place known progress) := by
  cases progress with
  | waiting call => exact ⟨.refl limit p, h⟩
  | returned r =>
    rw [fetched]
    split
    · exact redated_finish hp place _
    · exact redated_finish hp place _

theorem redated_judged (hp : p.Within limit) (w : Watch) (known : Option Token) (v : Verdict) :
    Redated limit p (judged cancelled p place w known v) := by
  cases v with
  | unchanged => exact redated_finish hp place _
  | missing => exact redated_finish hp place _
  | modified =>
    rw [judged]
    split
    · exact redated_finish hp place _
    · exact (Provider.redated_openCall hp _ _ _).bind hp fun hq hcall =>
        redated_fetched hq known hcall

theorem redated_checked (hp : p.Within limit) (known : Option Token)
    {progress : Progress (Identity × Option Token) Verdict} (h : progress.Heeds limit p.now) :
    Redated limit p (checked cancelled p place known progress) := by
  cases progress with
  | waiting call => exact ⟨.refl limit p, h⟩
  | returned r =>
    rw [checked]
    split
    · exact redated_finish hp place _
    · exact redated_judged hp _ _ _
    · exact redated_finish hp place _

theorem redated_start (hp : p.Within limit) (place : Nat) :
    Redated limit p (start cancelled p place) := by
  unfold start
  split
  · next watchList w hclaimed hw =>
    have hbegan : p.Redates limit { p with watchList } := Provider.redates_begin hclaimed
    have hclaiming := hbegan.within hp
    exact .after hbegan ((Provider.redated_openCall hclaiming _ _ _).bind hclaiming
      fun hq hcall => redated_checked hq _ hcall)
  · exact ⟨.refl limit p, trivial⟩

/-- Whatever reaches a check, dates are set within the limit. -/
theorem redated_handle (hp : p.Within limit) {c : Check} (h : c.Heeds limit p.now) (i : Input) :
    Redated limit p (c.handle cancelled p i) := by
  cases c with
  | ready place =>
    cases i with
    | resumed => exact redated_start hp place
    | answered ticket reply => exact ⟨.refl limit p, h⟩
    | fallback serial => exact ⟨.refl limit p, h⟩
    | cancelled => exact ⟨.refl limit p, h⟩
    | woke => exact ⟨.refl limit p, h⟩
  | checking place known call =>
    exact (Provider.redated_drive .check h i).bind hp fun hq hcall => redated_checked hq known hcall
  | fetching place known call =>
    exact (Provider.redated_drive .fetch h i).bind hp fun hq hcall => redated_fetched hq known hcall
  | finished result => exact ⟨.refl limit p, h⟩

theorem redates_abandon (hp : p.Within limit) (c : Check) : p.Redates limit (c.abandon p) := by
  cases c with
  | ready place => exact .refl limit p
  | checking place known call => exact Provider.redates_letGo hp place
  | fetching place known call => exact Provider.redates_letGo hp place
  | finished result => exact .refl limit p

end Check

/-! ## Merges -/

namespace Merge

variable {me : TaskId}

theorem redates_finish (p : Provider) (merged : Nat) (failures : List ProviderError) :
    p.Redates limit (finish me p merged failures).1 := by
  unfold finish
  split
  · exact .of_eq rfl rfl rfl rfl rfl
  · exact .of_eq rfl rfl rfl rfl rfl

theorem redates_advance (changes : List PointChange) (p : Provider) (merged : Nat)
    (failures : List ProviderError) :
    p.Redates limit (advance me p merged failures changes).1 := by
  induction changes generalizing p merged with
  | nil => exact redates_finish p merged failures
  | cons change rest ih =>
    cases change with
    | upsert place checked s =>
      rw [advance]
      split
      · exact .refl limit p
      · exact ih p merged
    | remove place checked =>
      rw [advance]
      split
      · have hforgot : p.Redates limit (p.setToken place none) := p.redates_setToken place none
        simp only []
        split
        · exact hforgot.trans (ih _ _)
        · split
          · have hremoved (i : Identity) : (p.setToken place none).Redates limit
                { p.setToken place none with
                  materialized := (p.setToken place none).materialized.remove i } :=
              .of_eq rfl rfl rfl rfl rfl
            exact (hforgot.trans (hremoved _)).trans (ih _ _)
          · exact hforgot.trans (ih _ _)
      · exact ih p merged

theorem redates_adapted (p : Provider) (place : Nat) (s : Setting) (rest : List PointChange)
    (merged : Nat) (failures : List ProviderError) :
    p.Redates limit (adapted me p place s rest merged failures).1 := by
  unfold adapted
  split
  · next pairs hpairs =>
    have hnoted : p.Redates limit (p.setToken place (some s.token)) :=
      p.redates_setToken place (some s.token)
    have hloaded : (p.setToken place (some s.token)).Redates limit
        { p.setToken place (some s.token) with
          materialized := (p.setToken place (some s.token)).materialized.upsert ⟨s, pairs⟩ } :=
      .of_eq rfl rfl rfl rfl rfl
    exact (hnoted.trans hloaded).trans (redates_advance rest _ _ _)
  · exact redates_advance rest p _ _

theorem redates_enter (p : Provider) (changes : List PointChange)
    (failures : List ProviderError) : p.Redates limit (enter me p changes failures).1 := by
  unfold enter
  split
  · exact redates_advance changes p 0 failures
  · exact .refl limit p

theorem redates_begin (p : Provider) (changes : List PointChange)
    (failures : List ProviderError) : p.Redates limit (begin me p changes failures).1 := by
  have hacquire : p.Redates limit (p.acquire me) := .of_eq rfl rfl rfl rfl rfl
  exact hacquire.trans (redates_enter _ _ _)

/-- Whatever reaches a merge, it sets no date. -/
theorem redates_handle (p : Provider) (m : Merge) (i : Input) :
    p.Redates limit (m.handle me p i).1 := by
  cases m with
  | waiting changes failures =>
    cases i with
    | resumed => exact redates_enter p changes failures
    | answered ticket reply => exact .refl limit p
    | fallback serial => exact .refl limit p
    | cancelled => exact .refl limit p
    | woke => exact .refl limit p
  | adapting place s rest merged failures =>
    cases i with
    | resumed => exact redates_adapted p place s rest merged failures
    | answered ticket reply => exact .refl limit p
    | fallback serial => exact .refl limit p
    | cancelled => exact .refl limit p
    | woke => exact .refl limit p

end Merge

end ReplicatedConfig
