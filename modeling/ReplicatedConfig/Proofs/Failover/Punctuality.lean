import Mathlib.Logic.Relation
import ReplicatedConfig.Proofs.Failover.Timeline

/-!
# Attempts are started when they ought to be

`onSchedule_of_reachable` says of every script, and of every moment that a call on a clock may come
to, that its attempts have been started when they ought to be, and how it goes on from there.

## What has been started

A call that stands (`Timeline.Stands`) has started its candidates in order, each at the earlier one
of the timer and the first failure since the start before it.  As long as nothing ends, the timer
alone has started them, and one more attempt is under way after each interval.

## What comes next

So far a call would do that starts nobody when its timer runs out: the clock would stand still there
for ever, and nothing is late while it does.  So the rest is about what can happen at a moment.

* The step of a timer that is due starts the next candidate (`Punctual.fellBack`).  The timer is not
  due again behind it, and nothing but an attempt that takes no time keeps the clock back.
* An attempt whose time has come can end (`exists_ended`).
* Every moment is reached until which no attempt ends (`exists_later`).  The induction is on the
  candidates that are left: each round of the timer (`exists_round`) takes one of them.
-/

namespace ReplicatedConfig

variable {σ α : Type}

open Move

namespace Timeline

variable {k : Conversation σ α} {script : Script α} {candidates : List Member}
  {interval : Duration} {opened : Instant} {p : Provider} {c : Call σ} {moves : List (Move α)}
  {others : Nat} {w w' : Timeline σ α}

theorem Stands.punctual (h : Stands candidates interval opened w) (waits : w.progress = .waiting c) :
    Punctual candidates interval opened w.provider.now c w.moves := by
  cases h with
  | waiting punctual =>
    cases waits
    exact punctual
  | closed paced => cases waits
  | settled paced late verdict => cases waits

/-! ## Starts by the timer are counted -/

/-- How often the timer has started a candidate. -/
def fallbacks (w : Timeline σ α) : Nat := (launches (w.moves.filter (·.cause.isTimer))).length

theorem fallbacks_start (fresh : σ) (p : Provider) : (start k fresh p).fallbacks = 0 := by
  unfold fallbacks start
  generalize Call.start p.calls p.failover.interval p.pool.policy (p.pool.candidates p.now) fresh
    p.now = c
  cases houtright : c.outright? k with
  | none =>
    simp only [houtright]
    rfl
  | some x =>
    simp only [houtright]
    rfl

/-- Every start by the timer is counted. -/
theorem Step.counted {n : Nat} (hstep : Step k script w w')
    (h : w.provider.metrics.fallbacks = n + w.others + w.fallbacks) :
    w'.provider.metrics.fallbacks = n + w'.others + w'.fallbacks := by
  cases hstep with
  | @ended c o latency result reply waits awaited come scripted ends =>
    have hsame : (w.move k c (.answered o.ticket reply) (.ended ⟨o.member, result⟩)).fallbacks =
        w.fallbacks := by
      simp only [fallbacks, move, List.filter_append]
      simp [Cause.isTimer]
    rw [hsame]
    exact (w.provider.fallbacks_hear c k o.ticket reply w.provider.now).trans h
  | @timer c serial time waits first =>
    obtain ⟨hserial, htime, hcome, -⟩ := Call.of_find?_waits first
    subst hserial
    obtain ⟨m, rest, hpending⟩ :=
      List.exists_cons_of_ne_nil (Call.pending_of_fallbackAt? htime).1
    have hmore : launches ((w.moves ++ [(⟨w.provider.now, .timer, [m]⟩ : Move α)]).filter
        (·.cause.isTimer)) = launches (w.moves.filter (·.cause.isTimer)) ++ [(m, w.provider.now)] := by
      rw [List.filter_append]
      exact launches_concat _ _
    rw [move_timer w hpending htime (of_decide_eq_true hcome)]
    show w.provider.metrics.fallbacks + 1 = n + w.others + (launches _).length
    rw [hmore, List.length_append, h]
    rfl
  | goesOn waits stays => exact (Provider.fallbacks_hear ..).trans h
  | givenUp waits => exact h
  | passes later in_time => exact h
  | @elsewhere p n now_eq fallbacks_eq =>
    show p.metrics.fallbacks = _ + (w.others + n) + w.fallbacks
    omega

/-! ## What a call waits for -/

/-- A reply that comes is that of an attempt that has been started. -/
theorem exists_of_timeOf? {o : Outstanding} {u : Instant}
    (h : w.timeOf? script (.reply o) = some u) :
    ∃ t latency result, (o.member, t) ∈ launches w.moves ∧
      script o.member = some (latency, result) ∧ u = t + latency := by
  obtain ⟨⟨m, t⟩, hfind, h⟩ := Option.bind_eq_some_iff.1 h
  obtain ⟨⟨latency, result⟩, hscript, rfl⟩ := Option.map_eq_some_iff.1 h
  have hm : decide (m = o.member) = true :=
    List.find?_some (p := fun x : Member × Instant => decide (x.1 = o.member)) hfind
  obtain rfl := of_decide_eq_true hm
  exact ⟨t, latency, result, List.mem_of_find?_eq_some hfind, hscript, rfl⟩

/-- Starting other candidates does not bring a reply. -/
theorem hasCome_concat {e : Move α} (moves : w'.moves = w.moves ++ [e])
    (now : w'.provider.now = w.provider.now) {o : Outstanding} (h : o.member ∉ e.launched) :
    w'.hasCome script (.reply o) = w.hasCome script (.reply o) := by
  have hnone : (e.launched.map (·, e.time)).find? (·.1 = o.member) = none := by
    refine List.find?_eq_none.2 fun x hx heq => h ?_
    obtain ⟨m, hm, rfl⟩ := List.mem_map.1 hx
    exact of_decide_eq_true heq ▸ hm
  simp only [hasCome, timeOf?]
  rw [now, moves, launches_concat, List.find?_append, hnone, Option.or_none]

theorem mem_of_outstanding {o : Outstanding} (h : o ∈ c.outstanding k) :
    o.member ∈ c.inFlight.map (·.member) := by
  obtain ⟨a, ha, h⟩ := List.mem_filterMap.1 h
  obtain ⟨r, -, rfl⟩ := Option.map_eq_some_iff.1 h
  exact List.mem_map_of_mem ha

/-- Behind a start a call waits for what it waited for, and for the new attempt. -/
theorem mem_outstanding_launchNext {m : Member} {rest : List Member} (h : c.pending = m :: rest)
    {now : Instant} {o : Outstanding} (ho : o ∈ (c.launchNext now).outstanding k) :
    o ∈ c.outstanding k ∨ o.member = m := by
  rw [Call.launchNext_of_pending h] at ho
  obtain ⟨a, ha, ho⟩ := List.mem_filterMap.1 ho
  rcases List.mem_append.1 ha with ha | ha
  · exact .inl (List.mem_filterMap.2 ⟨a, ha, ho⟩)
  · rw [List.mem_singleton.1 ha] at ho
    obtain ⟨r, -, rfl⟩ := Option.map_eq_some_iff.1 ho
    exact .inr rfl

/-- A timer that is due is the first thing that has come, as long as no reply has. -/
theorem find?_waits (come : Wait → Bool) {time : Instant} (htime : c.fallbackAt? = some time)
    (hcome : come (.fallback c.serial time) = true)
    (silent : ∀ o ∈ c.outstanding k, come (.reply o) = false) :
    (c.waits k).find? come = some (.fallback c.serial time) := by
  have hnone : ((c.outstanding k).map Wait.reply).find? come = none := by
    refine List.find?_eq_none.2 fun x hx => ?_
    obtain ⟨o, ho, rfl⟩ := List.mem_map.1 hx
    rw [silent o ho]
    exact Bool.false_ne_true
  rw [Call.waits, List.find?_append, hnone, Option.none_or, htime]
  exact List.find?_cons_of_pos hcome

/-! ## A timer that is due -/

/-- A timer that was due has started the candidate `m` beside the attempts under way, and that has
been counted.  Nothing else has come then: at most the new attempt ends at once. -/
structure FellBack (k : Conversation σ α) (script : Script α) (interval : Duration) (c : Call σ)
    (m : Member) (w w' : Timeline σ α) : Prop where
  moves : w'.moves = w.moves ++ [⟨w.provider.now, .timer, [m]⟩]
  now : w'.provider.now = w.provider.now
  counted : w'.provider.metrics.fallbacks = w.provider.metrics.fallbacks + 1
  waits : ∃ d, w'.progress = .waiting d ∧ d.inFlight = c.inFlight ++ [⟨m, c.fresh⟩] ∧
    (.zero < interval → ∀ x ∈ d.waits k, w'.hasCome script x = true →
      ∃ o, x = .reply o ∧ o.member = m)

/-- Behind the timer only the new attempt may end at once. -/
theorem exists_of_hasCome {m : Member} {rest : List Member} (hpending : c.pending = m :: rest)
    (positive : .zero < c.interval)
    (silent : ∀ o ∈ c.outstanding k, w.hasCome script (.reply o) = false)
    (moves : w'.moves = w.moves ++ [⟨w.provider.now, .timer, [m]⟩])
    (now : w'.provider.now = w.provider.now) {x : Wait}
    (hx : x ∈ (c.launchNext w.provider.now).waits k) (hcome : w'.hasCome script x = true) :
    ∃ o, x = .reply o ∧ o.member = m := by
  rcases List.mem_append.1 hx with hx | hx
  · obtain ⟨o, ho, rfl⟩ := List.mem_map.1 hx
    refine ⟨o, rfl, ?_⟩
    by_contra hne
    have ho := (mem_outstanding_launchNext hpending ho).resolve_right hne
    rw [hasCome_concat moves now (mt List.mem_singleton.1 hne), silent o ho] at hcome
    cases hcome
  · rw [Option.mem_toList, Option.map_eq_some_iff] at hx
    obtain ⟨time, htime, rfl⟩ := hx
    obtain ⟨-, rfl⟩ := Call.pending_of_fallbackAt? htime
    rw [Call.launchNext_of_pending hpending] at hcome
    have hle : w.provider.now + c.interval ≤ w'.provider.now := of_decide_eq_true hcome
    rw [now, Instant.le_iff, Instant.nanos_add] at hle
    rw [Duration.lt_iff, Duration.nanos_zero] at positive
    omega

/-- **The step of a timer** starts the next candidate. -/
theorem Punctual.fellBack (punctual : Punctual candidates interval opened w.provider.now c w.moves)
    {serial : Nat} {time : Instant}
    (first : (c.waits k).find? (w.hasCome script) = some (.fallback serial time)) :
    ∃ m, candidates[(launches w.moves).length]? = some m ∧
      FellBack k script interval c m w (w.move k c (.fallback serial) .timer) := by
  obtain ⟨rfl, htime, hcome, hsilent⟩ := Call.of_find?_waits first
  obtain ⟨m, rest, hpending⟩ := List.exists_cons_of_ne_nil (Call.pending_of_fallbackAt? htime).1
  have hmove := move_timer (k := k) w hpending htime (of_decide_eq_true hcome)
  have hmoves := congrArg Timeline.moves hmove
  have hnow := congrArg (·.provider.now) hmove
  refine ⟨m, ?_, hmoves, hnow, congrArg (·.provider.metrics.fallbacks) hmove, _,
    congrArg Timeline.progress hmove, by rw [Call.launchNext_of_pending hpending], ?_⟩
  · rw [← punctual.paced.order, hpending, List.getElem?_append_right (by simp), List.length_map,
      Nat.sub_self]
    rfl
  · intro hpositive x hx hcome
    rw [← punctual.interval_eq] at hpositive
    exact exists_of_hasCome hpending hpositive hsilent hmoves hnow hx hcome

/-! ## Every moment is reached -/

/-- Steps one after the other. -/
abbrev Later (k : Conversation σ α) (script : Script α) : Timeline σ α → Timeline σ α → Prop :=
  Relation.ReflTransGen (Step k script)

/-- No attempt that is under way or still to come ends until `t`, whether it starts now or has
started already. -/
def SilentUntil (script : Script α) (w : Timeline σ α) (c : Call σ) (t : Instant) : Prop :=
  ∀ m, m ∈ c.inFlight.map (·.member) ∨ m ∈ c.pending → ∀ latency result,
    script m = some (latency, result) →
      ∀ started, started = w.provider.now ∨ (m, started) ∈ launches w.moves → t < started + latency

/-- Time may pass until then, as far as replies are concerned. -/
theorem SilentUntil.lt {t u : Instant} (h : w.SilentUntil script c t) {o : Outstanding}
    (ho : o ∈ c.outstanding k) (hu : w.timeOf? script (.reply o) = some u) : t < u := by
  obtain ⟨started, latency, result, hstarted, hscript, rfl⟩ := exists_of_timeOf? hu
  exact h o.member (.inl (mem_of_outstanding ho)) latency result hscript started (.inr hstarted)

/-- Time passes up to the timer, where no reply comes before. -/
theorem Step.passes_silent (waits : w.progress = .waiting c) {t u : Instant}
    (later : w.provider.now ≤ u) (silent : w.SilentUntil script c t) (hut : u ≤ t)
    (timer : c.pending ≠ [] → u ≤ c.lastLaunch + c.interval) :
    Step k script w { w with provider := { w.provider with now := u } } := by
  refine .passes later ?_
  intro d hd x hx v hv
  rw [waits] at hd
  cases hd
  rcases List.mem_append.1 hx with hx | hx
  · obtain ⟨o, ho, rfl⟩ := List.mem_map.1 hx
    exact Nat.le_of_lt (Nat.lt_of_le_of_lt hut (silent.lt ho hv))
  · rw [Option.mem_toList, Option.map_eq_some_iff] at hx
    obtain ⟨time, htime, rfl⟩ := hx
    cases hv
    obtain ⟨hne, rfl⟩ := Call.pending_of_fallbackAt? htime
    exact timer hne

/-- Where no reply comes until `t`, none has come before. -/
theorem SilentUntil.hasCome {t : Instant} (h : w.SilentUntil script c t)
    (moves : w'.moves = w.moves) (before : w'.provider.now ≤ t) {o : Outstanding}
    (ho : o ∈ c.outstanding k) : w'.hasCome script (.reply o) = false := by
  have hsame : w'.timeOf? script (.reply o) = w.timeOf? script (.reply o) := by
    simp only [timeOf?, moves]
  rw [Timeline.hasCome, hsame]
  cases hu : w.timeOf? script (.reply o) with
  | none => rfl
  | some u =>
    have hlt : t < u := h.lt ho hu
    exact decide_eq_false fun hle => Nat.lt_irrefl _ (Nat.lt_of_lt_of_le hlt (Nat.le_trans hle before))

/-- A start by the timer does not make anything end earlier. -/
theorem SilentUntil.launchNext {t : Instant} (h : w.SilentUntil script c t) {m : Member}
    {rest : List Member} (hpending : c.pending = m :: rest) (later : w.provider.now ≤ w'.provider.now)
    (moves : w'.moves = w.moves ++ [⟨w'.provider.now, .timer, [m]⟩]) :
    w'.SilentUntil script (c.launchNext w'.provider.now) t := by
  intro m' hm' latency result hscript started hstarted
  have hsame : m' ∈ c.inFlight.map (·.member) ∨ m' ∈ c.pending := by
    rw [Call.launchNext_of_pending hpending, List.map_append] at hm'
    rw [hpending]
    rcases hm' with hm' | hm'
    · refine (List.mem_append.1 hm').imp_right fun hm' => ?_
      rw [List.mem_singleton.1 hm']
      exact List.mem_cons_self
    · exact .inr (List.mem_cons_of_mem m hm')
  have hbase := h m' hsame latency result hscript
  have hnow : t < w'.provider.now + latency :=
    Nat.lt_of_lt_of_le (hbase _ (.inl rfl)) (Nat.add_le_add_right later _)
  rcases hstarted with rfl | hstarted
  · exact hnow
  · rw [moves, launches_concat] at hstarted
    rcases List.mem_append.1 hstarted with hstarted | hstarted
    · exact hbase started (.inr hstarted)
    · cases List.mem_singleton.1 hstarted
      exact hnow

/-- One round of the timer: time passes up to it, and it starts the next candidate. -/
theorem exists_round (stands : Stands candidates interval opened w) (waits : w.progress = .waiting c)
    {m : Member} {rest : List Member} (hpending : c.pending = m :: rest) {t u : Instant}
    (timer : c.fallbackAt? = some u) (hut : u ≤ t) (silent : w.SilentUntil script c t) :
    ∃ w', Later k script w w' ∧ Stands candidates interval opened w' ∧ w.provider.now ≤ u ∧
      w'.provider.now = u ∧ w'.progress = .waiting (c.launchNext u) ∧
      w'.moves = w.moves ++ [⟨u, .timer, [m]⟩] := by
  obtain ⟨hne, hu⟩ := Call.pending_of_fallbackAt? timer
  have hearly : w.provider.now ≤ u := by
    rw [hu, (stands.punctual waits).interval_eq]
    exact (stands.punctual waits).early hne
  obtain ⟨w₁, hpasses, hwaits, hnow, hmoves⟩ : ∃ w₁, Step k script w w₁ ∧
      w₁.progress = .waiting c ∧ w₁.provider.now = u ∧ w₁.moves = w.moves :=
    ⟨_, .passes_silent waits hearly silent hut fun _ => hu ▸ Nat.le_refl _, waits, rfl, rfl⟩
  have hcome : u ≤ w₁.provider.now := hnow ▸ Nat.le_refl _
  have hfirst := find?_waits (w₁.hasCome script) timer (decide_eq_true hcome)
    fun o (ho : o ∈ c.outstanding k) => silent.hasCome hmoves (hnow ▸ hut) ho
  have htimer := Step.timer hwaits hfirst
  have hstands := (stands.step hpasses).step htimer
  rw [move_timer w₁ hpending timer hcome, hnow, hmoves] at htimer hstands
  exact ⟨_, .tail (.single hpasses) htimer, hstands, hearly, hnow, rfl, rfl⟩

/-- **Every moment is reached until which no attempt ends.**  Time passes up to it, and the timer
starts candidates on the way. -/
theorem exists_later (stands : Stands candidates interval opened w) (waits : w.progress = .waiting c)
    {t : Instant} (later : w.provider.now ≤ t) (silent : w.SilentUntil script c t) :
    ∃ w' d, Later k script w w' ∧ w'.provider.now = t ∧ w'.progress = .waiting d ∧
      ∃ ms, w'.moves = w.moves ++ ms ∧ ∀ e ∈ ms, e.cause.isTimer = true := by
  -- Without a timer on the way, time passes at once.
  have hpass {w : Timeline σ α} {c : Call σ} (waits : w.progress = .waiting c)
      (later : w.provider.now ≤ t) (silent : w.SilentUntil script c t)
      (timer : c.pending ≠ [] → t ≤ c.lastLaunch + c.interval) :
      ∃ w' d, Later k script w w' ∧ w'.provider.now = t ∧ w'.progress = .waiting d ∧
        ∃ ms, w'.moves = w.moves ++ ms ∧ ∀ e ∈ ms, e.cause.isTimer = true :=
    ⟨_, c, .single (.passes_silent waits later silent (Nat.le_refl _) timer), rfl, waits, [],
      (List.append_nil _).symm, nofun⟩
  -- The induction is on the candidates that are left.
  generalize hpending : c.pending = pending
  induction pending generalizing w c with
  | nil => exact hpass waits later silent fun hne => absurd hpending hne
  | cons m rest ih =>
    by_cases hfirst : t ≤ c.lastLaunch + c.interval
    · exact hpass waits later silent fun _ => hfirst
    have htimer := Call.fallbackAt?_of_pending (hpending ▸ List.cons_ne_nil m rest : c.pending ≠ [])
    have hut : c.lastLaunch + c.interval ≤ t := Nat.le_of_lt (Nat.lt_of_not_le hfirst)
    obtain ⟨w', hround, hstands, hearly, hnow, hprogress, hmoves⟩ :=
      exists_round (k := k) stands waits hpending htimer hut silent
    rw [← hnow] at hearly hut hprogress hmoves
    have hrest : (c.launchNext w'.provider.now).pending = rest := by
      rw [Call.launchNext_of_pending hpending]
    obtain ⟨w'', d, hlater, ht, hd, ms, hms, htimers⟩ :=
      ih hstands hprogress hut (silent.launchNext hpending hearly hmoves) hrest
    refine ⟨w'', d, hround.trans hlater, ht, hd, ⟨w'.provider.now, .timer, [m]⟩ :: ms, ?_, ?_⟩
    · rw [hms, hmoves, List.append_assoc]
      rfl
    · exact List.forall_mem_cons.2 ⟨rfl, htimers⟩

/-! ## Ends of attempts -/

/-- A reply by which an attempt may end as it is to end. -/
theorem exists_reply (k : Conversation σ α) (a : Attempt σ) (result : Except StoreError α)
    (possible : ∀ v, result = .ok v → ∃ r, k.hear a.work r = some (.inr v)) :
    ∃ reply, ∀ c : Call σ, (c.inFlight.find? fun b => c.ticket k b = c.ticket k a) = some a →
      c.endedBy? k (c.ticket k a) reply = some ⟨a.member, result⟩ := by
  cases result with
  | ok v =>
    obtain ⟨r, hr⟩ := possible v rfl
    refine ⟨.ok r, fun c hfind => ?_⟩
    simp only [Call.endedBy?, hfind, hr]
  | error e =>
    refine ⟨.error e, fun c hfind => ?_⟩
    simp only [Call.endedBy?, hfind]

/-- **An attempt whose time has come can end** as the script says, if that is a way in which its
conversation may end at all. -/
theorem exists_ended (stands : Stands candidates interval opened w) (waits : w.progress = .waiting c)
    (distinct : (candidates.map (·.id)).Nodup) {a : Attempt σ} (ha : a ∈ c.inFlight) {r : Request}
    (asks : k.ask a.work = some r) {t : Instant} (started : (a.member, t) ∈ launches w.moves)
    {latency : Duration} {result : Except StoreError α}
    (scripted : script a.member = some (latency, result)) (come : t + latency ≤ w.provider.now)
    (possible : ∀ v, result = .ok v → ∃ reply, k.hear a.work reply = some (.inr v)) :
    ∃ reply, Step k script w
      (w.move k c (.answered (c.ticket k a) reply) (.ended ⟨a.member, result⟩)) := by
  have punctual := stands.punctual waits
  -- Every candidate is started once, and so an attempt is told by its ticket.
  have hstarts : (((launches w.moves).map (·.1)).map (·.id)).Nodup := by
    rw [← punctual.paced.order, List.map_append] at distinct
    exact distinct.of_append_left
  have htickets : (c.inFlight.map (c.ticket k)).Nodup := by
    have hids := (punctual.started.map (·.id)).nodup hstarts
    rw [List.map_map] at hids
    refine List.Nodup.of_map (·.member) ?_
    rw [List.map_map]
    exact hids
  obtain ⟨reply, hreply⟩ := exists_reply k a result possible
  have hcome : w.hasCome script (.reply ⟨c.ticket k a, a.member, r⟩) = true := by
    have hstart : (launches w.moves).find? (·.1 = a.member) = some (a.member, t) :=
      find?_of_nodup hstarts.of_map started
    simp only [hasCome, timeOf?]
    rw [hstart, Option.bind_some, scripted]
    exact decide_eq_true come
  exact ⟨reply, .ended waits (o := ⟨c.ticket k a, a.member, r⟩)
    (List.mem_append_left _ (List.mem_map_of_mem (List.mem_filterMap.2 ⟨a, ha, by rw [asks]; rfl⟩)))
    hcome scripted (hreply c (find?_of_nodup htickets ha))⟩

/-! ## The schedule -/

/-- What holds of a call that was opened at the provider `p`, at every moment on the clock.  The
first fields say what has happened, and the last ones what can happen next. -/
structure OnSchedule (k : Conversation σ α) (script : Script α) (p : Provider)
    (w : Timeline σ α) : Prop where
  /-- The first candidate is started when the call is opened. -/
  opening : ∃ m, (p.pool.candidates p.now).head? = some m ∧
    (launches w.moves).head? = some (m, p.now)
  /-- The candidates are started in order. -/
  order : (launches w.moves).map (·.1) <+: p.pool.candidates p.now
  /-- Each start is the earlier one of the timer and the first failure since the start before it. -/
  recurs : Recurs p.failover.interval w.moves
  /-- While the call waits and somebody is left, no start is overdue. -/
  due : ∀ c, w.progress = .waiting c → ∀ i m t, (launches w.moves)[i]? = some (m, t) →
    (launches w.moves)[i + 1]? = none → i + 1 < (p.pool.candidates p.now).length →
      failure? (since i w.moves) = none ∧ w.provider.now ≤ t + p.failover.interval
  /-- An attempt that decides the call starts nobody, and nothing comes behind it. -/
  settled : ∀ e ∈ w.moves, ∀ x r, e.cause = .ended x → x.verdict? = some r →
    e.launched = [] ∧ w.moves.getLast? = some e ∧ w.progress = .returned r
  /-- A reply that has come is heard before the timer. -/
  replies_first : ∀ c, w.progress = .waiting c → ∀ o ∈ c.outstanding k,
    w.hasCome script (.reply o) = true →
      ∀ serial time, (c.waits k).find? (w.hasCome script) ≠ some (.fallback serial time)
  /-- While nothing ends, one more attempt is under way after each interval. -/
  parallel : ∀ c, w.progress = .waiting c → (∀ e ∈ w.moves, e.cause.isEnd = false) → ∀ j : Nat,
    p.now.nanos + j * p.failover.interval.nanos < w.provider.now.nanos →
    w.provider.now.nanos < p.now.nanos + (j + 1) * p.failover.interval.nanos →
      c.inFlight.length = min (p.pool.candidates p.now).length (j + 1)
  /-- The timer's starts are counted. -/
  counted : w.provider.metrics.fallbacks = p.metrics.fallbacks + w.others + w.fallbacks
  /-- While nothing has come that the call waits for, time goes on. -/
  clock : ∀ c, w.progress = .waiting c → (∃ x ∈ c.waits k, w.hasCome script x = true) ∨
    ∃ t, w.provider.now < t ∧ Step k script w { w with provider := { w.provider with now := t } }
  /-- The step of a timer that is due starts the next candidate. -/
  timer : ∀ c serial time, w.progress = .waiting c →
    (c.waits k).find? (w.hasCome script) = some (.fallback serial time) →
      ∃ m, (p.pool.candidates p.now)[(launches w.moves).length]? = some m ∧
        Step k script w (w.move k c (.fallback serial) .timer) ∧
        FellBack k script p.failover.interval c m w (w.move k c (.fallback serial) .timer)
  /-- An attempt whose time has come can end, if its conversation can end in this way at all. -/
  ends : ((p.pool.candidates p.now).map (·.id)).Nodup → ∀ c, w.progress = .waiting c →
    ∀ a ∈ c.inFlight, ∀ r t latency result, k.ask a.work = some r →
      (a.member, t) ∈ launches w.moves → script a.member = some (latency, result) →
      t + latency ≤ w.provider.now →
      (∀ v, result = .ok v → ∃ reply, k.hear a.work reply = some (.inr v)) →
        ∃ reply, Step k script w
          (w.move k c (.answered (c.ticket k a) reply) (.ended ⟨a.member, result⟩))
  /-- Every moment is reached until which no attempt ends, and only the timer starts candidates on
  the way. -/
  ahead : ∀ c, w.progress = .waiting c → ∀ t, w.provider.now ≤ t → w.SilentUntil script c t →
    ∃ w' d, Later k script w w' ∧ w'.provider.now = t ∧ w'.progress = .waiting d ∧
      ∃ ms, w'.moves = w.moves ++ ms ∧ ∀ e ∈ ms, e.cause.isTimer = true

/-- Between two starts by the timer, the attempts under way are told by the time. -/
theorem Punctual.length_inFlight {now : Instant}
    (punctual : Punctual candidates interval opened now c moves)
    (hquiet : ∀ e ∈ moves, e.cause.isEnd = false) {j : Nat}
    (hlower : opened.nanos + j * interval.nanos < now.nanos)
    (hupper : now.nanos < opened.nanos + (j + 1) * interval.nanos) :
    c.inFlight.length = min candidates.length (j + 1) := by
  obtain ⟨paced, -, late, early, -, flight⟩ := punctual
  obtain ⟨i, hlength, hlast⟩ := paced.last_eq hquiet
  have hinFlight : c.inFlight.length = i + 1 := by
    rw [← hlength, ← List.length_map (f := fun a : Attempt σ => a.member), flight hquiet,
      List.length_map]
  have hcandidates : candidates.length = i + 1 + c.pending.length := by
    rw [← paced.order, List.length_append, List.length_map, hlength]
  have hle : i ≤ j := by
    rw [Instant.le_iff, hlast] at late
    have hmul : i * interval.nanos < (j + 1) * interval.nanos := by omega
    exact Nat.le_of_lt_succ (Nat.lt_of_mul_lt_mul_right hmul)
  by_cases hpending : c.pending = []
  · rw [hpending, List.length_nil] at hcandidates
    omega
  · have hge : j ≤ i := by
      have hearly := early hpending
      rw [Instant.le_iff, Instant.nanos_add, hlast] at hearly
      have hmul : j * interval.nanos < (i + 1) * interval.nanos := by
        rw [Nat.succ_mul]
        omega
      exact Nat.le_of_lt_succ (Nat.lt_of_mul_lt_mul_right hmul)
    omega

/-- Time may pass where everything that the call waits for comes later. -/
theorem Step.of_all {script : Script α} {w : Timeline σ α} (waits : w.progress = .waiting c)
    {t : Instant} (later : w.provider.now ≤ t)
    (h : (c.waits k).all (fun x => (w.timeOf? script x).all (decide <| t ≤ ·)) = true) :
    Step k script w { w with provider := { w.provider with now := t } } := by
  refine .passes later ?_
  intro d hd x hx u hu
  rw [waits] at hd
  cases hd
  have hall := List.all_eq_true.1 h x hx
  rw [hu] at hall
  exact of_decide_eq_true hall

/-- The clock stands still only while something has come that the call waits for. -/
theorem exists_come_or_passes (script : Script α) (w : Timeline σ α) (c : Call σ)
    (h : w.progress = .waiting c) : (∃ x ∈ c.waits k, w.hasCome script x = true) ∨
      ∃ t, w.provider.now < t ∧
        Step k script w { w with provider := { w.provider with now := t } } := by
  by_cases hcome : ∃ x ∈ c.waits k, w.hasCome script x = true
  · exact .inl hcome
  · refine .inr ⟨⟨w.provider.now.nanos + 1⟩, Nat.lt_succ_self _, .passes (Nat.le_succ _) ?_⟩
    intro d hd x hx u hu
    rw [h] at hd
    cases hd
    have hlater : ¬ u ≤ w.provider.now := by
      intro hle
      refine hcome ⟨x, hx, ?_⟩
      rw [hasCome, hu, Option.any_some]
      exact decide_eq_true hle
    rw [Instant.le_iff] at hlater ⊢
    exact Nat.succ_le_of_lt (Nat.lt_of_not_le hlater)

/-- A call that stands is on schedule. -/
theorem Stands.onSchedule {script : Script α} {w : Timeline σ α}
    (h : Stands (p.pool.candidates p.now) p.failover.interval p.now w)
    (counted : w.provider.metrics.fallbacks = p.metrics.fallbacks + w.others + w.fallbacks) :
    OnSchedule k script p w := by
  have hfirst (d : Call σ) (o : Outstanding) (ho : o ∈ d.outstanding k)
      (hcome : w.hasCome script (.reply o) = true) (serial : Nat) (time : Instant) :
      (d.waits k).find? (w.hasCome script) ≠ some (.fallback serial time) := by
    intro hfind
    obtain ⟨-, -, -, hnone⟩ := Call.of_find?_waits hfind
    rw [hnone o ho] at hcome
    cases hcome
  have hundecided {ms : List (Move α)} {pending : List Member} {last : Instant}
      (paced : Paced (p.pool.candidates p.now) p.failover.interval p.now ms pending last)
      {e : Move α} (he : e ∈ ms) {x : Completion α} (hx : e.cause = .ended x)
      {r : Except FailoverError (α × Member)} (hr : x.verdict? = some r) : False := by
    rw [paced.undecided e he x hx] at hr
    cases hr
  cases h with
  | @waiting q c moves others punctual =>
    obtain ⟨m, tail, hhead, hlaunches⟩ := punctual.paced.exists_first
    obtain ⟨hrecurs, hrests⟩ := punctual.paced.recurs
    refine ⟨⟨m, hhead, by rw [hlaunches]; rfl⟩, ⟨_, punctual.paced.order⟩, hrecurs, ?_, ?_,
      fun d _ => hfirst d, ?_, counted, exists_come_or_passes script _, ?_, ?_, ?_⟩
    · rintro d ⟨⟩ i m t hi hnone hlt
      obtain ⟨rfl, hfailure⟩ := hrests i m t hi hnone
      have hpending : c.pending ≠ [] := by
        intro hnil
        have horder := congrArg List.length punctual.paced.order
        rw [hnil, List.append_nil, List.length_map] at horder
        have hle : (launches moves).length ≤ i + 1 := List.getElem?_eq_none_iff.1 hnone
        omega
      exact ⟨hfailure hpending, punctual.early hpending⟩
    · intro e he x r hx hr
      exact (hundecided punctual.paced he hx hr).elim
    · rintro d ⟨⟩ hquiet j hlower hupper
      exact punctual.length_inFlight hquiet hlower hupper
    · rintro d serial time ⟨⟩ hdue
      obtain ⟨m, hm, hfellBack⟩ := punctual.fellBack (w := ⟨q, .waiting c, moves, others⟩) hdue
      exact ⟨m, hm, .timer rfl hdue, hfellBack⟩
    · rintro distinct d ⟨⟩ a ha r t latency result asks started scripted come possible
      exact exists_ended (.waiting punctual) rfl distinct ha asks started scripted come possible
    · rintro d ⟨⟩ t later silent
      exact exists_later (.waiting punctual) rfl later silent
  | @closed q r moves others pending last paced =>
    obtain ⟨m, tail, hhead, hlaunches⟩ := paced.exists_first
    refine ⟨⟨m, hhead, by rw [hlaunches]; rfl⟩, ⟨_, paced.order⟩, paced.recurs.1, nofun, ?_,
      fun d _ => hfirst d, nofun, counted, nofun, nofun, nofun, nofun⟩
    intro e he x r hx hr
    exact (hundecided paced he hx hr).elim
  | @settled q r moves others pending last t x paced late verdict =>
    obtain ⟨m, tail, hhead, hlaunches⟩ := paced.exists_first
    have hsame : launches (moves ++ [(⟨t, .ended x, []⟩ : Move α)]) = launches moves := by
      rw [launches_concat, List.map_nil, List.append_nil]
    refine ⟨⟨m, hhead, by rw [hsame, hlaunches]; rfl⟩, ⟨pending, by rw [hsame, paced.order]⟩,
      paced.recurs.1.concat_nil rfl fun y hy => Nat.le_trans (paced.le_last y hy) late, nofun, ?_,
      fun d _ => hfirst d, nofun, counted, nofun, nofun, nofun, nofun⟩
    intro e he y r' hy hr'
    rcases List.mem_append.1 he with he | he
    · exact (hundecided paced he hy hr').elim
    · rw [List.mem_singleton] at he
      subst he
      cases hy
      rw [verdict, Option.some_inj] at hr'
      exact ⟨rfl, List.getLast?_concat, congrArg _ hr'⟩

/-- **The schedule of a call.**  At every moment that a call on a clock may come to, the first
candidate has been started when it was opened, and each further one at the earlier one of one
interval after the start before and the first failure since then; none of these starts is overdue
while the call waits.  So as long as nothing ends, the attempts under way are told by the time; and
as often as the timer has started one, so often has falling back been counted.

From there a timer that is due starts the next candidate, an attempt whose time has come can end, and
every moment is reached until which none ends. -/
theorem onSchedule_of_reachable {script : Script α} {fresh : σ} {w : Timeline σ α}
    (hne : p.pool.members ≠ []) (h : Reachable k script fresh p w) : OnSchedule k script p w := by
  have hcandidates := Pool.candidates_ne_nil hne p.now
  suffices hboth : Stands (p.pool.candidates p.now) p.failover.interval p.now w ∧
      w.provider.metrics.fallbacks = p.metrics.fallbacks + w.others + w.fallbacks from
    hboth.1.onSchedule hboth.2
  induction h with
  | start =>
    refine ⟨stands_start fresh p hcandidates, (p.fallbacks_openCall k fresh false).trans ?_⟩
    rw [fallbacks_start]
    rfl
  | step before next ih => exact ⟨ih.1.step next, next.counted ih.2⟩

/-- The attempts at three replicas: the first takes half a minute, the second fails after one
second, and the third never ends. -/
def slowThenRefused : Script (Option Setting) := fun m =>
  if m.id = 0 then some (.ofSecs 30, .ok none)
  else if m.id = 1 then some (.ofSecs 1, .error (.connection "refused"))
  else none

/-- The second replica is asked one interval after the first, and the third as soon as the second
has failed. -/
theorem launches_slowThenRefused : ∃ w : Timeline Identity (Option Setting),
    Reachable .fetch slowThenRefused default (.overHosts ["a", "b", "c"]) w ∧
      (launches w.moves).map (fun x => (x.1.id, x.2)) =
        [(0, .start), (1, .ofMillis 5000), (2, .ofMillis 6000)] ∧
      w.provider.metrics.fallbacks = 1 := by
  have hstart : Reachable .fetch slowThenRefused default (.overHosts ["a", "b", "c"])
    (start .fetch default (.overHosts ["a", "b", "c"])) := .start
  let second : Outstanding :=
    ⟨⟨0, 1, 0⟩, ⟨1, (Pool.ofHosts ["b"]).origin, .configured⟩, .fetch default⟩
  have hslow := hstart.step (Step.of_all rfl (t := .ofMillis 5000) (by decide) rfl)
  have htimer := hslow.step (.timer rfl rfl)
  have hasked := htimer.step (Step.of_all rfl (t := .ofMillis 6000) (by decide) rfl)
  have hrefused := hasked.step (@Step.ended _ _ .fetch slowThenRefused _ _ second (.ofSecs 1)
    (.error (.connection "refused")) (.error (.connection "refused")) rfl
    (List.mem_cons_of_mem _ List.mem_cons_self) rfl rfl rfl)
  refine ⟨_, hrefused, rfl, ?_⟩
  exact (onSchedule_of_reachable (List.cons_ne_nil _ _) hrefused).counted

end Timeline
end ReplicatedConfig
