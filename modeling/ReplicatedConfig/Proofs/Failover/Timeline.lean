import ReplicatedConfig.Engine
import ReplicatedConfig.Proofs.Failover.Execution
import ReplicatedConfig.Proofs.Failover.Origin
import ReplicatedConfig.Proofs.Failover.Pacing

/-!
# A call on a clock

A `Timeline` is a call with the moments at which it has moved.  A `Script` says how long the attempt
at each candidate takes and how it ends, and `Step` what may happen next.  `Stands` is what every
step keeps (`Stands.step`): a call that waits is `Punctual`, and of one that has returned it is known
whether the last attempt that ended has decided it.

## The clock

The clock stands still while something has come that the call waits for, and goes on otherwise.  So
an attempt ends when its time has come and not later, and the timer does not run out late either.
Where both come at once, the call hears the replies first: they come before the timer in what it
waits for (`Call.waits`), and a timer that is not the first of what has come is not a `Step`.

Of several replies that have come, any may be heard first, and between two steps the rest of the
provider may change in any way.  Other calls may fall back meanwhile, and `others` counts how often.
-/

namespace ReplicatedConfig

variable {σ α : Type}

open Move

/-! ## What may happen to a call -/

/-- How long the attempt at each member takes, and how it ends; nothing for one that never ends. -/
abbrev Script (α : Type) := Member → Option (Duration × Except StoreError α)

/-- A call and the moments at which it has moved. -/
structure Timeline (σ α : Type) where
  provider : Provider
  progress : Progress σ α
  moves : List (Move α)
  /-- How often other calls have fallen back meanwhile. -/
  others : Nat

namespace Timeline

/-- The candidates that a step of a call has started. -/
def launchedBy (c : Call σ) : Progress σ α → List Member
  | .waiting d => d.launched.drop c.launched.length
  | .returned _ => []

/-- When something that a call waits for comes, if it comes by itself. -/
def timeOf? (script : Script α) (w : Timeline σ α) : Wait → Option Instant
  | .reply o => ((launches w.moves).find? (·.1 = o.member)).bind fun (_, t) =>
      (script o.member).map fun (latency, _) => t + latency
  | .fallback _ time => some time
  | _ => none

/-- Whether something that a call waits for has come. -/
def hasCome (script : Script α) (w : Timeline σ α) (x : Wait) : Bool :=
  (w.timeOf? script x).any (decide <| · ≤ w.provider.now)

/-- The call has been opened. -/
def start (k : Conversation σ α) (fresh : σ) (p : Provider) : Timeline σ α :=
  let call := Call.start p.calls p.failover.interval p.pool.policy (p.pool.candidates p.now) fresh p.now
  let opened := p.openCall k fresh false
  ⟨opened.1, opened.2, ⟨p.now, .opening, call.launched⟩ ::
    ((call.outright? k).map fun x => ⟨p.now, .ended x, []⟩).toList, 0⟩

/-- Something reaches the call. -/
def hear (k : Conversation σ α) (w : Timeline σ α) (c : Call σ) (i : Input) : Timeline σ α :=
  { w with provider := (w.provider.drive k c i).1, progress := (w.provider.drive k c i).2 }

/-- Something makes the call move. -/
def move (k : Conversation σ α) (w : Timeline σ α) (c : Call σ) (i : Input) (cause : Cause α) :
    Timeline σ α :=
  { w.hear k c i with
    moves := w.moves ++ [⟨w.provider.now, cause, launchedBy c (w.provider.drive k c i).2⟩] }

/-- What may happen next. -/
inductive Step (k : Conversation σ α) (script : Script α) (w : Timeline σ α) :
    Timeline σ α → Prop where
  /-- An attempt ends whose time has come. -/
  | ended {c : Call σ} {o : Outstanding} {latency : Duration} {result : Except StoreError α}
      {reply : Except StoreError Reply} (waits : w.progress = .waiting c)
      (awaited : .reply o ∈ c.waits k) (come : w.hasCome script (.reply o) = true)
      (scripted : script o.member = some (latency, result))
      (ends : c.ending? k (.answered o.ticket reply) = some ⟨o.member, result⟩) :
      Step k script w (w.move k c (.answered o.ticket reply) (.ended ⟨o.member, result⟩))
  /-- The timer runs out, and no reply has come before it. -/
  | timer {c : Call σ} {serial : Nat} {time : Instant} (waits : w.progress = .waiting c)
      (first : (c.waits k).find? (w.hasCome script) = some (.fallback serial time)) :
      Step k script w (w.move k c (.fallback serial) .timer)
  /-- An attempt goes on, or a reply belongs to no attempt. -/
  | goesOn {c : Call σ} {ticket : Ticket} {reply : Except StoreError Reply}
      (waits : w.progress = .waiting c) (stays : c.ending? k (.answered ticket reply) = none) :
      Step k script w (w.hear k c (.answered ticket reply))
  /-- The caller gives up. -/
  | givenUp {c : Call σ} (waits : w.progress = .waiting c) : Step k script w (w.hear k c .cancelled)
  /-- Time passes until something comes that the call waits for. -/
  | passes {t : Instant} (later : w.provider.now ≤ t)
      (in_time : ∀ c, w.progress = .waiting c → ∀ x ∈ c.waits k, ∀ u,
        w.timeOf? script x = some u → t ≤ u) :
      Step k script w { w with provider := { w.provider with now := t } }
  /-- The rest of the provider changes. -/
  | elsewhere {p : Provider} {n : Nat} (now_eq : p.now = w.provider.now)
      (fallbacks_eq : p.metrics.fallbacks = w.provider.metrics.fallbacks + n) :
      Step k script w { w with provider := p, others := w.others + n }

/-- What may come of a call on a clock. -/
inductive Reachable (k : Conversation σ α) (script : Script α) (fresh : σ) (p : Provider) :
    Timeline σ α → Prop where
  | start : Reachable k script fresh p (start k fresh p)
  | step {w w' : Timeline σ α} (before : Reachable k script fresh p w)
      (next : Step k script w w') : Reachable k script fresh p w'

end Timeline

/-! ## Every step keeps the pace -/

namespace Call

variable {k : Conversation σ α} {c : Call σ}

/-- An attempt that goes on moves neither the timer nor anybody else. -/
theorem exists_of_goesOn {ticket : Ticket} {reply : Except StoreError Reply}
    (h : c.endedBy? k ticket reply = none) (now : Instant) :
    ∃ d, c.hear k ticket reply now = ⟨[], .waiting d⟩ ∧ SameAttempts c d ∧
      d.interval = c.interval ∧ d.lastLaunch = c.lastLaunch := by
  revert h
  unfold hear endedBy?
  cases c.inFlight.find? fun a => c.ticket k a = ticket with
  | none => exact fun _ => ⟨c, rfl, .refl c, rfl, rfl⟩
  | some a =>
    cases reply with
    | error e => exact nofun
    | ok r =>
      cases hhear : k.hear a.work r with
      | none => exact fun _ => ⟨c, by simp only [hhear], .refl c, rfl, rfl⟩
      | some o =>
        cases o with
        | inl work =>
          exact fun _ => ⟨c.continueWith a.member.id work, by simp only [hhear],
            sameAttempts_continueWith c _ work, rfl, rfl⟩
        | inr value =>
          simp only [hhear]
          exact nofun

/-- A start leaves the timer behind it. -/
theorem launchNext_of_pending {m : Member} {rest : List Member} (h : c.pending = m :: rest)
    (now : Instant) : c.launchNext now =
      { c with
        pending := rest
        launched := c.launched ++ [m]
        inFlight := c.inFlight ++ [⟨m, c.fresh⟩]
        lastLaunch := now } := by
  rw [launchNext, h]

/-- The timer is the last thing that a call waits for. -/
theorem of_find?_waits {come : Wait → Bool} {serial : Nat} {time : Instant}
    (h : (c.waits k).find? come = some (.fallback serial time)) :
    c.serial = serial ∧ c.fallbackAt? = some time ∧ come (.fallback serial time) = true ∧
      ∀ o ∈ c.outstanding k, come (.reply o) = false := by
  rw [waits, List.find?_append] at h
  cases hreply : ((c.outstanding k).map Wait.reply).find? come with
  | some x =>
    rw [hreply, Option.some_or, Option.some_inj] at h
    obtain ⟨o, -, ho⟩ := List.mem_map.1 (List.mem_of_find?_eq_some hreply)
    rw [h] at ho
    cases ho
  | none =>
    rw [hreply, Option.none_or] at h
    have hcome := List.find?_some h
    have hmem := List.mem_of_find?_eq_some h
    rw [Option.mem_toList, Option.map_eq_some_iff] at hmem
    obtain ⟨time', htime, heq⟩ := hmem
    cases heq
    refine ⟨rfl, htime, hcome, ?_⟩
    intro o ho
    have hnone := List.find?_eq_none.1 hreply (.reply o) (List.mem_map_of_mem ho)
    rwa [Bool.not_eq_true] at hnone

/-- When the timer runs out. -/
theorem fallbackAt?_of_pending (h : c.pending ≠ []) :
    c.fallbackAt? = some (c.lastLaunch + c.interval) := by
  have hpending : c.pending.isEmpty = false := by simpa using h
  rw [fallbackAt?, hpending]
  rfl

theorem pending_of_fallbackAt? {time : Instant} (h : c.fallbackAt? = some time) :
    c.pending ≠ [] ∧ time = c.lastLaunch + c.interval := by
  have hne : c.pending ≠ [] := by
    intro hnil
    rw [fallbackAt?, hnil] at h
    cases h
  rw [fallbackAt?_of_pending hne, Option.some_inj] at h
  exact ⟨hne, h.symm⟩

/-- A timer that has run out makes the next candidate start. -/
theorem fallBack_of_le {time now : Instant} (h : c.fallbackAt? = some time) (hle : time ≤ now) :
    (c.fallBack now : Turn σ α) = ⟨[.fellBack], .waiting (c.launchNext now)⟩ := by
  rw [fallBack, h]
  exact if_pos hle

/-- An end of an attempt is noted, and nothing else. -/
theorem effects_complete (c : Call σ) (m : Member) (result : Except StoreError α) (now : Instant) :
    ∃ outcome, (c.complete m result now).effects = [.answered m outcome now c.policy] := by
  cases result with
  | ok value => exact ⟨.success, rfl⟩
  | error e =>
    refine ⟨.failed e.failureClass, ?_⟩
    simp only [complete]
    cases e.failureClass <;> rfl

theorem effects_opening (c : Call σ) (k : Conversation σ α) (now : Instant) :
    (c.opening k now).effects = [] ∨
      ∃ m outcome, (c.opening k now).effects = [.answered m outcome now c.policy] := by
  unfold opening
  split
  · exact .inl rfl
  · next a _ =>
    split
    · next value _ =>
      obtain ⟨outcome, heffects⟩ := c.effects_complete a.member (.ok value) now
      exact .inr ⟨a.member, outcome, heffects⟩
    · exact .inl rfl

end Call

namespace Provider

/-- What a call hears is not counted as falling back. -/
theorem fallbacks_hear (p : Provider) (c : Call σ) (k : Conversation σ α) (ticket : Ticket)
    (reply : Except StoreError Reply) (now : Instant) :
    (p.take (c.hear k ticket reply now)).1.metrics.fallbacks = p.metrics.fallbacks := by
  rcases c.hear_cases k ticket reply now with ⟨a, -, result, -, hhear⟩ | ⟨-, d, hhear, -⟩
  · obtain ⟨outcome, heffects⟩ := c.effects_complete a.member result now
    rw [hhear, take, heffects]
    rfl
  · rw [hhear]
    rfl

/-- Neither is opening a call. -/
theorem fallbacks_openCall (p : Provider) (k : Conversation σ α) (fresh : σ) (cancelled : Bool) :
    (p.openCall k fresh cancelled).1.metrics.fallbacks = p.metrics.fallbacks := by
  unfold openCall
  split
  · rfl
  · generalize Call.start p.calls p.failover.interval p.pool.policy (p.pool.candidates p.now) fresh
      p.now = c
    rcases c.effects_opening k p.now with heffects | ⟨m, outcome, heffects⟩
    · show ((c.opening k p.now).effects.foldl apply _).metrics.fallbacks = _
      rw [heffects]
      rfl
    · show ((c.opening k p.now).effects.foldl apply _).metrics.fallbacks = _
      rw [heffects]
      rfl

end Provider

namespace Timeline

/-- A call that waits at `now`, with the moments at which it has moved.  Nobody is late, and whoever
is under way has been started.  As long as no attempt has ended, all of them are under way. -/
structure Punctual (candidates : List Member) (interval : Duration) (opened now : Instant)
    (c : Call σ) (moves : List (Move α)) : Prop where
  paced : Paced candidates interval opened moves c.pending c.lastLaunch
  interval_eq : c.interval = interval
  late : c.lastLaunch ≤ now
  early : c.pending ≠ [] → now ≤ c.lastLaunch + interval
  started : (c.inFlight.map (·.member)).Sublist ((launches moves).map (·.1))
  flight : (∀ e ∈ moves, e.cause.isEnd = false) →
    c.inFlight.map (·.member) = (launches moves).map (·.1)

/-- How a call on a clock stands. -/
inductive Stands (candidates : List Member) (interval : Duration) (opened : Instant) :
    Timeline σ α → Prop where
  /-- It waits. -/
  | waiting {p : Provider} {c : Call σ} {moves : List (Move α)} {others : Nat}
      (punctual : Punctual candidates interval opened p.now c moves) :
      Stands candidates interval opened ⟨p, .waiting c, moves, others⟩
  /-- It has been given up, or every candidate has failed. -/
  | closed {p : Provider} {r : Except FailoverError (α × Member)} {moves : List (Move α)}
      {others : Nat} {pending : List Member} {last : Instant}
      (paced : Paced candidates interval opened moves pending last) :
      Stands candidates interval opened ⟨p, .returned r, moves, others⟩
  /-- The last attempt that ended has decided it. -/
  | settled {p : Provider} {r : Except FailoverError (α × Member)} {moves : List (Move α)}
      {others : Nat} {pending : List Member} {last t : Instant} {x : Completion α}
      (paced : Paced candidates interval opened moves pending last) (late : last ≤ t)
      (verdict : x.verdict? = some r) :
      Stands candidates interval opened ⟨p, .returned r, moves ++ [⟨t, .ended x, []⟩], others⟩

variable {k : Conversation σ α} {candidates : List Member} {interval : Duration} {opened : Instant}
  {p : Provider} {c : Call σ} {moves : List (Move α)} {others : Nat}

/-- A call over at least one candidate stands from the start. -/
theorem stands_start (fresh : σ) (p : Provider) (hne : p.pool.candidates p.now ≠ []) :
    Stands (p.pool.candidates p.now) p.failover.interval p.now (start k fresh p) := by
  obtain ⟨m, rest, hcandidates⟩ := List.exists_cons_of_ne_nil hne
  unfold start
  rw [hcandidates]
  simp only [Provider.openCall, hcandidates, Bool.false_eq_true, if_false, Provider.take,
    Call.start, Call.launchNext, Call.opening, Call.outright?, List.nil_append, List.head?_cons,
    Option.bind_some]
  cases houtright : k.outright fresh with
  | none =>
    exact .waiting ⟨.opening rfl, rfl, Nat.le_refl _, fun _ => p.now.le_add _, .refl _, fun _ => rfl⟩
  | some value => exact .settled (x := ⟨m, .ok value⟩) (.opening rfl) (Nat.le_refl _) rfl

/-- A failure makes the next candidate start, if there is one. -/
theorem stands_failed {q : Provider} {m : Member} {e : StoreError}
    (punctual : Punctual candidates interval opened q.now c moves)
    (undecided : (⟨m, .error e⟩ : Completion α).verdict? = none) :
    let d : Call σ := { c.drop m.id with lastError := some e }
    Stands candidates interval opened ⟨q, Call.proceed (d.launchNext q.now),
      moves ++ [⟨q.now, .ended ⟨m, .error e⟩,
        launchedBy c (Call.proceed (d.launchNext q.now) : Progress σ α)⟩], others⟩ := by
  intro d
  have hstarted : (d.inFlight.map (·.member)).Sublist ((launches moves).map (·.1)) :=
    (List.filter_sublist.map _).trans punctual.started
  -- Behind the end of an attempt not every start is under way.
  have hflight {ms : List Member} {d : Call σ}
      (hquiet : ∀ e' ∈ moves ++ [(⟨q.now, .ended ⟨m, .error e⟩, ms⟩ : Move α)],
        e'.cause.isEnd = false) :
      d.inFlight.map (·.member) =
        (launches (moves ++ [(⟨q.now, .ended ⟨m, .error e⟩, ms⟩ : Move α)])).map (·.1) := by
    have hend := hquiet _ (List.mem_append_right _ List.mem_cons_self)
    cases hend
  have hpaced := punctual.paced
  cases hpending : d.pending with
  | nil =>
    rw [show c.pending = [] from hpending] at hpaced
    have hspent := hpaced.spent undecided punctual.late
    rw [d.launchNext_nil _ hpending]
    unfold Call.proceed
    split
    · exact .closed hspent
    · have hnone : launchedBy c (.waiting d : Progress σ α) = [] := List.drop_length
      rw [hnone]
      refine .waiting ⟨hpending ▸ hspent, punctual.interval_eq, punctual.late, punctual.early, ?_,
        hflight⟩
      rw [launches_concat, List.map_nil, List.append_nil]
      exact hstarted
  | cons next rest =>
    rw [show c.pending = next :: rest from hpending] at hpaced
    have hearly := punctual.early (hpending ▸ List.cons_ne_nil next rest : c.pending ≠ [])
    have hbusy : (d.launchNext q.now).inFlight.isEmpty = false := by
      rw [Call.launchNext_of_pending hpending]
      simp
    have hproceed : (Call.proceed (d.launchNext q.now) : Progress σ α) =
        .waiting (d.launchNext q.now) := by
      rw [Call.proceed, hbusy]
      rfl
    have hone : launchedBy c (.waiting (d.launchNext q.now) : Progress σ α) = [next] := by
      rw [Call.launchNext_of_pending hpending]
      exact List.drop_left
    rw [hproceed, hone, Call.launchNext_of_pending hpending]
    refine .waiting ⟨hpaced.failed undecided punctual.late hearly, punctual.interval_eq,
      Nat.le_refl _, fun _ => q.now.le_add _, ?_, hflight⟩
    rw [launches_concat, List.map_append, List.map_append]
    exact hstarted.append (.refl _)

/-- An attempt that ends decides the call or makes the next candidate start. -/
theorem stands_ended {ticket : Ticket} {reply : Except StoreError Reply} {x : Completion α}
    (punctual : Punctual candidates interval opened p.now c moves)
    (ends : c.endedBy? k ticket reply = some x) :
    Stands candidates interval opened
      (move k ⟨p, .waiting c, moves, others⟩ c (.answered ticket reply) (.ended x)) := by
  rcases c.hear_cases k ticket reply p.now with ⟨a, ha, result, hended, hhear⟩ | ⟨hended, -⟩
  · rw [hended, Option.some_inj] at ends
    subst ends
    show Stands candidates interval opened ⟨(p.take (c.hear k ticket reply p.now)).1,
      (c.hear k ticket reply p.now).progress, moves ++ [⟨p.now, .ended ⟨a.member, result⟩,
        launchedBy c (c.hear k ticket reply p.now).progress⟩], others⟩
    rw [hhear]
    cases hverdict : (⟨a.member, result⟩ : Completion α).verdict? with
    | some r =>
      rw [c.progress_complete_of_verdict hverdict]
      exact .settled punctual.paced punctual.late hverdict
    | none =>
      obtain ⟨e, rfl, he⟩ := Completion.verdict?_eq_none_iff.1 hverdict
      rw [c.progress_complete_of_retryable a.member he]
      have hnow := (p.called_take (c.complete a.member (.error e : Except StoreError α) p.now)).now
      generalize (p.take (c.complete a.member (.error e : Except StoreError α) p.now)).1 = q at hnow
      rw [← hnow] at punctual ⊢
      exact stands_failed punctual hverdict
  · rw [hended] at ends
    cases ends

/-- A timer that has run out makes the next candidate start, and that is counted. -/
theorem move_timer (w : Timeline σ α) {time : Instant} {m : Member} {rest : List Member}
    (hpending : c.pending = m :: rest) (htime : c.fallbackAt? = some time)
    (hcome : time ≤ w.provider.now) :
    w.move k c (.fallback c.serial) .timer =
      ⟨{ w.provider with metrics := w.provider.metrics.fallback },
        .waiting (c.launchNext w.provider.now),
        w.moves ++ [⟨w.provider.now, .timer, [m]⟩], w.others⟩ := by
  have hdrive : w.provider.drive k c (.fallback c.serial) =
      w.provider.take (⟨[.fellBack], .waiting (c.launchNext w.provider.now)⟩ : Turn σ α) := by
    rw [Provider.drive, if_pos rfl, Call.fallBack_of_le htime hcome]
  have hone : launchedBy c (.waiting (c.launchNext w.provider.now) : Progress σ α) = [m] := by
    rw [Call.launchNext_of_pending hpending]
    exact List.drop_left
  unfold move hear
  rw [hdrive, ← hone]
  rfl

/-- The timer makes the next candidate start. -/
theorem stands_timer {time : Instant}
    (punctual : Punctual candidates interval opened p.now c moves)
    (htime : c.fallbackAt? = some time) (hcome : time ≤ p.now) :
    Stands candidates interval opened
      (move k ⟨p, .waiting c, moves, others⟩ c (.fallback c.serial) .timer) := by
  obtain ⟨hne, rfl⟩ := Call.pending_of_fallbackAt? htime
  obtain ⟨m, rest, hpending⟩ := List.exists_cons_of_ne_nil hne
  have hnow : p.now = c.lastLaunch + interval := by
    have hle := punctual.early hne
    rw [punctual.interval_eq, Instant.le_iff] at hcome
    rw [Instant.le_iff] at hle
    exact Instant.ext_nanos (by omega)
  have hpaced := (hpending ▸ punctual.paced).timer
  rw [← hnow] at hpaced
  rw [move_timer _ hpending htime hcome, Call.launchNext_of_pending hpending]
  refine .waiting ⟨hpaced, punctual.interval_eq, Nat.le_refl _, fun _ => p.now.le_add _, ?_, ?_⟩
  · rw [launches_concat, List.map_append, List.map_append]
    exact punctual.started.append (.refl _)
  · intro hquiet
    rw [launches_concat, List.map_append, List.map_append,
      punctual.flight fun e he => hquiet e (List.mem_append_left _ he)]
    rfl

/-- An attempt that goes on leaves everything as it is. -/
theorem stands_goesOn {ticket : Ticket} {reply : Except StoreError Reply}
    (punctual : Punctual candidates interval opened p.now c moves)
    (stays : c.endedBy? k ticket reply = none) :
    Stands candidates interval opened
      (hear k ⟨p, .waiting c, moves, others⟩ c (.answered ticket reply)) := by
  obtain ⟨d, hhear, hsame, hinterval, hlast⟩ := Call.exists_of_goesOn stays p.now
  show Stands candidates interval opened ⟨(p.take (c.hear k ticket reply p.now)).1,
    (c.hear k ticket reply p.now).progress, moves, others⟩
  rw [hhear]
  obtain ⟨paced, interval_eq, late, early, started, flight⟩ := punctual
  rw [← hsame.pending, ← hlast] at paced early
  rw [← hlast] at late
  rw [← hsame.inFlight] at started flight
  exact .waiting ⟨paced, hinterval.trans interval_eq, late, early, started, flight⟩

/-- **Every step leaves a call standing.** -/
theorem Stands.step {script : Script α} {w w' : Timeline σ α}
    (h : Stands candidates interval opened w) (hstep : Step k script w w') :
    Stands candidates interval opened w' := by
  cases h with
  | waiting punctual =>
    cases hstep with
    | ended waits awaited come scripted ends =>
      cases waits
      exact stands_ended punctual ends
    | timer waits first =>
      cases waits
      obtain ⟨hserial, htime, hcome, -⟩ := Call.of_find?_waits first
      subst hserial
      exact stands_timer punctual htime (of_decide_eq_true hcome)
    | @goesOn _ ticket reply waits stays =>
      cases waits
      exact stands_goesOn punctual stays
    | givenUp waits =>
      cases waits
      exact .closed punctual.paced
    | passes later in_time =>
      obtain ⟨paced, interval_eq, late, -, started, flight⟩ := punctual
      refine .waiting ⟨paced, interval_eq, Nat.le_trans late later, ?_, started, flight⟩
      intro hne
      have hwait := in_time _ rfl _ (List.mem_append_right _ (Option.mem_toList.2
        (Option.map_eq_some_iff.2 ⟨_, Call.fallbackAt?_of_pending hne, rfl⟩)))
      rw [← interval_eq]
      exact hwait _ rfl
    | elsewhere now_eq fallbacks_eq =>
      rw [← now_eq] at punctual
      exact .waiting punctual
  | closed paced =>
    cases hstep with
    | passes later in_time => exact .closed paced
    | elsewhere now_eq fallbacks_eq => exact .closed paced
    | _ => contradiction
  | settled paced late verdict =>
    cases hstep with
    | passes later in_time => exact .settled paced late verdict
    | elsewhere now_eq fallbacks_eq => exact .settled paced late verdict
    | _ => contradiction

end Timeline
end ReplicatedConfig
