import ReplicatedConfig.Provider.Blueprint
import ReplicatedConfig.Proofs.Pool.Lookups
import ReplicatedConfig.Proofs.Pool.Replacement
import ReplicatedConfig.Proofs.Schedule.Handles

/-!
# What a valid configuration builds

A configuration is looked through once, before anything is built (`Config.check`), and then read
again by those who build the parts: endpoints are parsed again, keys are watched one by one, and
whoever builds the pool asks whether anybody is left.  `Config.Sound` says what the first look has
established, and each part finds there what it asks for, so nothing is refused later that was
accepted before (`builds_of_check`).

## What is built

`Config.Describes` says what the provider is like: it watches the keys of the configuration in their
order, its members begin with the configured endpoints in theirs, and its options are those of the
configuration.  It is so whenever building succeeds (`describes_of_build`), whoever creates clients
and whatever is looked up.
-/

namespace ReplicatedConfig

/-- What it takes for two steps to succeed. -/
theorem bind_eq_ok_iff {ε α β : Type} {x : Except ε α} {f : α → Except ε β} {b : β} :
    x >>= f = .ok b ↔ ∃ a, x = .ok a ∧ f a = .ok b := by
  cases x <;> simp [bind, Except.bind]

/-- Another name for an error makes no difference to success. -/
theorem mapError_eq_ok_iff {ε ε' α : Type} {x : Except ε α} {f : ε → ε'} {a : α} :
    x.mapError f = .ok a ↔ x = .ok a := by
  cases x <;> simp [Except.mapError]

/-- What it takes to get past a fault. -/
theorem guard_eq_ok_iff {ε α : Type} {fault : Prop} [Decidable fault] {cause : ε} {x : Except ε α}
    {a : α} : (if fault then .error cause else x) = .ok a ↔ ¬ fault ∧ x = .ok a := by
  split <;> simp [*]

namespace Config

variable {c : Config} {endpoints : List Endpoint} {origin : Option Endpoint} {now : Instant}

/-! ## Valid configurations -/

/-- No watched key is at fault if and only if none is looked at too often, none is watched twice,
and none is among those before. -/
theorem watchFault?_eq_none_iff {seen : List Identity} {watches : List WatchConfig} :
    watchFault? seen watches = none ↔
      (∀ w ∈ watches, minExpiration ≤ w.request.expiration) ∧
        (watches.map (·.identity)).Nodup ∧ ∀ w ∈ watches, w.identity ∉ seen := by
  induction watches generalizing seen with
  | nil => simp [watchFault?]
  | cons w rest ih =>
    rw [watchFault?]
    split
    · next hshort =>
      refine iff_of_false (by simp) fun h => ?_
      exact Nat.not_le_of_lt hshort (h.1 w List.mem_cons_self)
    · next hlong =>
      split
      · next hseen =>
        exact iff_of_false (by simp) fun h => h.2.2 w List.mem_cons_self hseen
      · next hnew =>
        have hexpiration : minExpiration ≤ w.request.expiration := Nat.le_of_not_lt hlong
        have hfirst : w.identity ∉ rest.map (·.identity) ↔
            ∀ v ∈ rest, v.identity ≠ w.identity := by
          simp
        rw [ih, List.forall_mem_cons, List.forall_mem_cons, List.map_cons, List.nodup_cons, hfirst]
        constructor
        · rintro ⟨hexpirations, hnames, hothers⟩
          exact ⟨⟨hexpiration, hexpirations⟩,
            ⟨fun v hv heq => hothers v hv (heq ▸ List.mem_cons_self), hnames⟩,
            hnew, fun v hv hseen => hothers v hv (List.mem_cons_of_mem _ hseen)⟩
        · rintro ⟨⟨-, hexpirations⟩, ⟨hapart, hnames⟩, -, hothers⟩
          refine ⟨hexpirations, hnames, fun v hv hmem => ?_⟩
          rcases List.mem_cons.1 hmem with heq | hmem
          · exact hapart v hv heq
          · exact hothers v hv hmem

/-- What it takes for a configuration to be valid. -/
structure Sound (c : Config) (endpoints : List Endpoint) (origin : Option Endpoint) : Prop where
  endpoints : c.endpointList = .ok endpoints
  origin : c.originEndpoint = .ok origin
  based : c.hasEndpoint = true
  parallelRetry : c.failover.parallelRetryMillis ≠ 0
  minBackoff : c.failover.minBackoffSecs ≠ 0
  backoffOrder : c.failover.minBackoffSecs ≤ c.failover.maxBackoffSecs
  jitter : 0.0 ≤ c.failover.jitter ∧ c.failover.jitter ≤ 1.0
  poll : c.refresh.pollMillis ≠ 0
  selectors : c.selectors ≠ []
  expirations : ∀ w ∈ c.refresh.watches, minExpiration ≤ w.request.expiration
  names : (c.refresh.watches.map (·.identity)).Nodup
  format : c.logging.format = "json" ∨ c.logging.format = "pretty"

/-- **A configuration is valid** if and only if nothing is wrong with any part of it. -/
theorem check_eq_ok_iff : c.check = .ok () ↔ ∃ endpoints origin, c.Sound endpoints origin := by
  unfold check
  simp only [bind, Except.bind, pure, Except.pure, throw, throwThe, MonadExceptOf.throw,
    guard_eq_ok_iff]
  constructor
  · rintro ⟨hbased, h⟩
    split at h
    · cases h
    · next endpoints hendpoints =>
      split at h
      · cases h
      · next origin horigin =>
        simp only [guard_eq_ok_iff] at h
        obtain ⟨hparallel, hmin, horder, hjitter, hpoll, hselectors, h⟩ := h
        split at h
        · cases h
        · next hwatches =>
          obtain ⟨hexpirations, hnames, -⟩ := watchFault?_eq_none_iff.1 hwatches
          rw [guard_eq_ok_iff] at h
          exact ⟨endpoints, origin, hendpoints, horigin, by simpa using hbased, hparallel, hmin,
            UInt64.not_lt.1 horder, Decidable.not_not.1 hjitter, hpoll, by simpa using hselectors,
            hexpirations, hnames, by tauto⟩
  · rintro ⟨endpoints, origin, h⟩
    have hwatches : watchFault? [] c.refresh.watches = none :=
      watchFault?_eq_none_iff.2 ⟨h.expirations, h.names, fun _ _ => List.not_mem_nil⟩
    simp only [h.endpoints, h.origin, hwatches, guard_eq_ok_iff]
    exact ⟨by simpa using h.based, h.parallelRetry, h.minBackoff, UInt64.not_lt.2 h.backoffOrder,
      not_not_intro h.jitter, h.poll, by simpa using h.selectors,
      fun hother => h.format.elim hother.1 hother.2, trivial⟩

/-- Where there is no endpoint, one is given to look replicas up at. -/
theorem Sound.origin_ne_none (h : c.Sound endpoints origin) (hnone : c.endpoints = []) :
    origin ≠ none := by
  rintro rfl
  have hbased := h.based
  have horigin := h.origin
  unfold originEndpoint at horigin
  split at horigin
  · obtain ⟨e, -, he⟩ := Pool.exists_of_map_ok horigin
    cases he
  · next hother =>
    rw [hasEndpoint, hnone] at hbased
    cases henabled : c.discovery.enabled with
    | false => simp [henabled] at hbased
    | true =>
      cases hraw : c.discovery.origin with
      | none => simp [hraw] at hbased
      | some raw => exact hother raw henabled hraw

/-- Every endpoint that is configured is one. -/
theorem Sound.eq_nil (h : c.Sound [] origin) : c.endpoints = [] := by
  have hendpoints := h.endpoints
  unfold endpointList at hendpoints
  cases hraw : c.endpoints with
  | nil => rfl
  | cons raw rest =>
    rw [hraw, List.mapM_cons] at hendpoints
    obtain ⟨first, -, hrest⟩ := bind_eq_ok_iff.1 hendpoints
    obtain ⟨others, -, hall⟩ := bind_eq_ok_iff.1 hrest
    cases hall

/-- What a valid configuration with these endpoints and this origin stands for. -/
def blueprint (c : Config) (endpoints : List Endpoint) (origin : Option Endpoint) : Blueprint :=
  { Blueprint.empty with
    endpoints
    origin
    lookupInterval := c.lookupInterval
    failover := c.failover
    watches := c.refresh.watches.map WatchConfig.request
    pipeline := Pipeline.empty.withStems c.trimmed
    options := c.loadOptions
    pollInterval := c.pollInterval }

theorem ofConfig_of_fault {fault : ConfigFault} (h : c.check = .error fault) :
    Blueprint.ofConfig c = .error (.invalidConfig fault.message) := by
  simp only [Blueprint.ofConfig, h]
  rfl

theorem ofConfig_eq_ok_iff {b : Blueprint} : Blueprint.ofConfig c = .ok b ↔
    ∃ endpoints origin, c.Sound endpoints origin ∧ b = c.blueprint endpoints origin := by
  cases hcheck : c.check with
  | error fault =>
    rw [ofConfig_of_fault hcheck]
    refine iff_of_false (fun h => by cases h) ?_
    rintro ⟨endpoints, origin, h, -⟩
    rw [check_eq_ok_iff.2 ⟨endpoints, origin, h⟩] at hcheck
    cases hcheck
  | ok u =>
    obtain ⟨endpoints, origin, h⟩ := check_eq_ok_iff.1 hcheck
    have hvalid : Blueprint.ofConfig c = .ok (c.blueprint endpoints origin) := by
      simp only [Blueprint.ofConfig, hcheck, h.endpoints, h.origin]
      rfl
    rw [hvalid]
    refine ⟨fun hb => ⟨endpoints, origin, h, (Except.ok.inj hb).symm⟩, ?_⟩
    rintro ⟨endpoints', origin', h', rfl⟩
    rw [Except.ok.inj (h'.endpoints.symm.trans h.endpoints),
      Except.ok.inj (h'.origin.symm.trans h.origin)]

end Config

/-! ## The watched keys -/

namespace WatchList

variable {l : WatchList} {rs : List WatchRequest}

/-- Keys that are watched one by one, and not too often, come behind those before in their
order. -/
theorem foldlM_register (hexpirations : ∀ r ∈ rs, minExpiration ≤ r.expiration)
    (hnames : (l.identities ++ rs.map (·.identity)).Nodup) (now : Instant) :
    rs.foldlM (fun l r => (l.register r now).map (·.1)) l =
      .ok ⟨l.watches ++ rs.map (Watch.new · now)⟩ := by
  induction rs generalizing l with
  | nil =>
    rw [List.map_nil, List.append_nil]
    rfl
  | cons r rest ih =>
    rw [List.map_cons] at hnames
    have hnew : r.identity ∉ l.identities := fun hmem =>
      (List.nodup_append.1 hnames).2.2 _ hmem _ List.mem_cons_self rfl
    have hregister := register_new (hexpirations r List.mem_cons_self) hnew now
    have hidentities : identities ⟨l.watches ++ [Watch.new r now]⟩ =
        l.identities ++ [r.identity] := List.map_append
    have hrest := @ih ⟨l.watches ++ [Watch.new r now]⟩
      (fun q hq => hexpirations q (List.mem_cons_of_mem r hq))
      (by rwa [hidentities, List.append_assoc])
    rw [List.foldlM_cons, hregister]
    exact hrest.trans (congrArg (fun ws => Except.ok (mk ws)) (List.append_assoc _ _ _))

end WatchList

/-! ## The pool -/

namespace Pool

variable {configured found : List Endpoint}

/-- If no client is refused, nobody is missing among the members. -/
theorem exists_enrol (existing : List Member) (next : Nat) (es : List (Endpoint × Source)) :
    ∃ ms, enrol (fun _ => none) existing next es = .ok ms := by
  rcases enrol_cases (fun _ => none) existing next es with ⟨cause, -, hrefused⟩ | ⟨hms, -⟩
  · have hnone (es : List Endpoint) : firstRefusal (fun _ => none) es = none :=
      List.findSome?_eq_none_iff.2 fun _ _ => rfl
    rw [hnone] at hrefused
    cases hrefused
  · exact hms

theorem exists_build (hsome : ¬ (configured = [] ∧ found = [])) (origin : Endpoint)
    (policy : BackoffPolicy) (now : Instant) :
    ∃ p, build (fun _ => none) configured found origin policy now = .ok p := by
  obtain ⟨ms, hms⟩ := exists_enrol [] 0 (wanted configured found)
  have hne : ms ≠ [] := fun hnil => hsome ((enrol_eq_nil_iff hms).1 hnil)
  simp only [build, hms, bind, Except.bind]
  rw [if_neg (by simpa using hne)]
  exact ⟨_, rfl⟩

end Pool

/-! ## The provider -/

namespace Blueprint

variable {b : Blueprint} {clients : Option Refusals} {refusals : Refusals}
  {lookup : Option (Endpoint → Option (List Endpoint))} {now : Instant} {pool : Pool} {p : Provider}

/-- What building comes to where nothing is refused. -/
theorem of_build (h : b.build clients lookup now = .ok p) : ∃ refusals pool watchList,
    b.pool refusals lookup now = .ok pool ∧ b.watchList now = .ok watchList ∧
      p = .new pool b.failover watchList b.pipeline
        (if b.selectors.isEmpty then b.options else { b.options with selectors := b.selectors })
        now := by
  cases clients with
  | none => cases h
  | some refusals =>
    obtain ⟨pool, hpool, h⟩ := bind_eq_ok_iff.1 h
    obtain ⟨watchList, hwatches, h⟩ := bind_eq_ok_iff.1 h
    exact ⟨refusals, pool, watchList, mapError_eq_ok_iff.1 hpool, mapError_eq_ok_iff.1 hwatches,
      (Except.ok.inj h).symm⟩

/-- The pool is built from the configured endpoints and from what has been looked up. -/
theorem of_pool (h : b.pool refusals lookup now = .ok pool) : ∃ found origin built,
    Pool.build refusals b.endpoints found origin b.failover.policy now = .ok built ∧
      pool.members = built.members ∧ pool.healths = built.healths := by
  cases lookup with
  | none =>
    obtain ⟨built, hnew, h⟩ := bind_eq_ok_iff.1 h
    cases h
    unfold Pool.new at hnew
    split at hnew
    · cases hnew
    · exact ⟨[], _, built, hnew, rfl, rfl⟩
  | some find =>
    obtain ⟨origin, -, hfound⟩ := bind_eq_ok_iff.1 h
    obtain ⟨connected, hconnect, h⟩ := bind_eq_ok_iff.1 hfound
    cases h
    unfold Pool.connect at hconnect
    obtain ⟨built, hbuilt, rfl⟩ := Pool.exists_of_map_ok hconnect
    exact ⟨_, origin, built, hbuilt, rfl, rfl⟩

/-- A pool can be built where an endpoint is configured, and where one is found. -/
theorem exists_pool (hresolves : b.endpoints = [] → ∃ find origin found,
      lookup = some find ∧ b.origin = some origin ∧ find origin = some found ∧ found ≠ []) :
    ∃ pool, b.pool (fun _ => none) lookup now = .ok pool := by
  cases lookup with
  | none =>
    cases hendpoints : b.endpoints with
    | nil =>
      obtain ⟨find, -, -, hnone, -⟩ := hresolves hendpoints
      cases hnone
    | cons first rest =>
      have hsome : ¬ (b.endpoints = [] ∧ ([] : List Endpoint) = []) := by simp [hendpoints]
      obtain ⟨built, hbuilt⟩ := Pool.exists_build hsome first b.failover.policy now
      have hnew : Pool.new (fun _ => none) b.endpoints b.failover.policy now = .ok built := by
        rw [Pool.new, hendpoints]
        rw [hendpoints] at hbuilt
        exact hbuilt
      simp only [Blueprint.pool, hnew, bind, Except.bind]
      exact ⟨_, rfl⟩
  | some find =>
    obtain ⟨origin, horigin, hsome⟩ : ∃ origin, Pool.originOf b.endpoints b.origin = .ok origin ∧
        ¬ (b.endpoints = [] ∧ (find origin).getD [] = []) := by
      cases hendpoints : b.endpoints with
      | nil =>
        obtain ⟨find', origin, found, hfind, horigin, hfound, hne⟩ := hresolves hendpoints
        cases hfind
        refine ⟨origin, by simp [Pool.originOf, horigin], fun hboth => hne ?_⟩
        rw [hfound] at hboth
        exact hboth.2
      | cons first rest =>
        refine ⟨b.origin.getD first, ?_, by simp⟩
        cases horigin : b.origin with
        | none => rfl
        | some origin => rfl
    obtain ⟨built, hbuilt⟩ := Pool.exists_build hsome origin b.failover.policy now
    simp only [Blueprint.pool, horigin, Pool.connect, hbuilt, bind, Except.bind]
    exact ⟨_, rfl⟩

end Blueprint

namespace Config

variable {c : Config} {b : Blueprint} {endpoints : List Endpoint} {now : Instant} {p : Provider}

/-- The provider is what the configuration says, where `endpoints` are the configured ones. -/
structure Describes (c : Config) (endpoints : List Endpoint) (now : Instant) (p : Provider) :
    Prop where
  /-- Each key is watched, in order, and is looked at next after its interval. -/
  watches : p.watchList.watches = c.refresh.watches.map fun w =>
    ⟨w.identity, .ofSecs w.expirationSecs, w.refreshAll, now + Duration.ofSecs w.expirationSecs,
      none, false⟩
  /-- No key is watched twice. -/
  names : p.watchList.identities.Nodup
  /-- The configured endpoints come first, each at its first place. -/
  members : ∃ found : List Endpoint,
    p.pool.members.map (fun m => (m.endpoint, m.source)) =
      endpoints.eraseDups.map (·, .configured) ++ found.map (·, .found)
  healths : ∀ health ∈ p.pool.healths, health = .new now
  options : p.options = ⟨c.selectors, c.startup.optional, .ofSecs c.startup.timeoutSecs⟩
  now : p.now = now
  failover : p.failover = c.failover
  policy : p.pool.policy = c.failover.policy
  /-- Failures keep a replica away for some time, and the bounds are in order. -/
  bounds : .zero < p.pool.policy.shortest ∧ p.pool.policy.shortest ≤ p.pool.policy.longest

/-- The keys of a valid configuration can be watched. -/
theorem Sound.watchList_eq_ok {origin : Option Endpoint} (h : c.Sound endpoints origin)
    (now : Instant) : (c.blueprint endpoints origin).watchList now =
      .ok ⟨(c.refresh.watches.map WatchConfig.request).map (Watch.new · now)⟩ := by
  have hexpirations : ∀ r ∈ c.refresh.watches.map WatchConfig.request,
      minExpiration ≤ r.expiration := by
    intro r hr
    obtain ⟨w, hw, rfl⟩ := List.mem_map.1 hr
    exact h.expirations w hw
  refine WatchList.foldlM_register hexpirations ?_ now
  rw [List.map_map]
  exact h.names

/-- Failures keep a replica away for some time, and not longer than at most. -/
theorem Sound.bounds {origin : Option Endpoint} (h : c.Sound endpoints origin) :
    .zero < c.failover.policy.shortest ∧
      c.failover.policy.shortest ≤ c.failover.policy.longest := by
  have hmin : 0 < c.failover.minBackoffSecs.toNat :=
    Nat.pos_of_ne_zero fun hzero => h.minBackoff (UInt64.toNat_inj.1 hzero)
  exact ⟨Nat.mul_pos hmin (by decide),
    Nat.mul_le_mul_right nanosPerSecond (UInt64.le_iff_toNat_le.1 h.backoffOrder)⟩

/-- **Whatever is built is what the configuration says.** -/
theorem describes_of_build (hb : Blueprint.ofConfig c = .ok b) {clients : Option Refusals}
    {lookup : Option (Endpoint → Option (List Endpoint))}
    (hp : b.build clients lookup now = .ok p) : c.Describes b.endpoints now p := by
  obtain ⟨endpoints, origin, hsound, rfl⟩ := ofConfig_eq_ok_iff.1 hb
  obtain ⟨refusals, pool, watchList, hpool, hwatches, rfl⟩ := Blueprint.of_build hp
  rw [hsound.watchList_eq_ok now] at hwatches
  cases hwatches
  obtain ⟨found, origin', built, hbuilt, hmembers, hhealths⟩ := Blueprint.of_pool hpool
  obtain ⟨statics, henlists⟩ := Pool.enlists_build hbuilt
  refine ⟨?_, ?_, ⟨(found.filter (· ∉ endpoints)).eraseDups, ?_⟩, ?_, rfl, rfl, rfl, rfl,
    hsound.bounds⟩
  · exact List.map_map
  · show (List.map _ (List.map _ (List.map _ _))).Nodup
    rw [List.map_map, List.map_map]
    exact hsound.names
  · show pool.members.map _ = _
    rw [hmembers, henlists.map_entry, Pool.wanted_eq]
    rfl
  · show ∀ health ∈ pool.healths, _
    rw [hhealths]
    exact Pool.health_of_build hbuilt

/-- **Building succeeds** where every client can be created, if there is an endpoint or one is
found. -/
theorem exists_build (hb : Blueprint.ofConfig c = .ok b)
    {lookup : Option (Endpoint → Option (List Endpoint))}
    (hresolves : c.endpoints = [] → ∃ find, lookup = some find ∧
      ∀ e, b.origin = some e → ∃ found, find e = some found ∧ found ≠ []) (now : Instant) :
    ∃ p, b.build (some fun _ => none) lookup now = .ok p := by
  obtain ⟨endpoints, origin, hsound, rfl⟩ := ofConfig_eq_ok_iff.1 hb
  obtain ⟨pool, hpool⟩ : ∃ pool, (c.blueprint endpoints origin).pool (fun _ => none) lookup now =
      .ok pool := by
    refine Blueprint.exists_pool fun hnil => ?_
    have hsound' : c.Sound [] origin := hnil ▸ hsound
    obtain ⟨find, hfind, hfound⟩ := hresolves hsound'.eq_nil
    obtain ⟨e, he⟩ := Option.ne_none_iff_exists'.1 (hsound.origin_ne_none hsound'.eq_nil)
    obtain ⟨found, hfound⟩ := hfound e he
    exact ⟨find, e, found, hfind, he, hfound⟩
  simp only [Blueprint.build, hpool, hsound.watchList_eq_ok, bind, Except.bind, Except.mapError]
  exact ⟨_, rfl⟩

/-- Two endpoints, of which one is named twice, and a key that reloads everything. -/
def colorConfig : Config :=
  { (default : Config) with
    endpoints := ["x://a", "x://b", "x://a"]
    refresh := ⟨1000, [⟨⟨"Color", none⟩, 5, true⟩]⟩ }

end Config

end ReplicatedConfig
