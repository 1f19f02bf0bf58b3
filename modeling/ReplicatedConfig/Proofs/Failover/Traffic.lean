import ReplicatedConfig.Proofs.Failover.Notes
import ReplicatedConfig.Proofs.Failover.Origin

/-!
# Calls side by side over one pool

The health of a replica and the counters are shared by all calls.  This file keeps the books
of that: a `Traffic` is a provider with the calls that have been opened on it, an `Event` is
anything that happens to them or to what they share, and the `log` of a run is the list of
what the calls have heard, in the order in which they heard it.

## What is booked

`booked_run` says that the log accounts for everything.  From any moment on, the health of a
member is what that member's part of the log makes of it, entry by entry, and a counter has
grown by the number of entries that bear its labels.  The entries of one call are the attempts
of it that have ended, at a different member each.  What is not in the log has changed nothing:
a candidate that was skipped, an attempt that was dropped with its call, a reply that came too
late.

An entry bears the policy that held when its call was opened, so a call takes no notice of
rules that are replaced while it is under way.  A call that its caller drops is one that
nothing reaches any more.

## How it is proved

One event notes what is heard in it (`Kept.notes_handle`), and a run notes its log by
induction on the events.  That the policy of an entry is the one that the program uses comes
from a fact about single calls: a call that waits keeps its policy
(`Provider.from_drive`).  That no attempt is entered twice comes from the account of a call,
since every call of a run stands as a call by itself may stand.
-/

namespace ReplicatedConfig

variable {σ α : Type}

/-! ## A call by itself -/

namespace Execution

/-- A call over candidates with different numbers stands as it may, or had nobody to ask. -/
def Fair (e : Execution σ α) : Prop :=
  (∃ candidates : List Member, (candidates.map (·.id)).Nodup ∧ e.Stands candidates) ∨
    e.completions = [] ∧ ∃ r, e.progress = .returned r

theorem fair_start (k : Conversation σ α) (fresh : σ) {p : Provider} (hp : p.pool.Numbered)
    (givenUp : Bool) : (start k fresh p givenUp).Fair := by
  by_cases hne : p.pool.candidates p.now = []
  · refine .inr ?_
    cases givenUp with
    | true => exact ⟨rfl, _, rfl⟩
    | false =>
      unfold start Provider.openCall
      rw [hne]
      exact ⟨rfl, _, rfl⟩
  · exact .inl ⟨_, hp.nodup_candidates p.now, stands_start fresh p givenUp hne⟩

theorem Fair.next {e : Execution σ α} (h : e.Fair) (k : Conversation σ α) (p : Provider)
    (i : Input) : (e.next k p i).Fair := by
  rcases h with ⟨candidates, hids, hstands⟩ | ⟨hnone, r, hr⟩
  · exact .inl ⟨candidates, hids, stands_next hids hstands p i⟩
  · refine .inr ?_
    unfold Execution.next
    rw [hr]
    exact ⟨hnone, r, hr⟩

/-- No attempt ends twice. -/
theorem Fair.once {e : Execution σ α} (h : e.Fair) : (e.completions.map (·.member.id)).Nodup := by
  rcases h with ⟨candidates, hids, hstands⟩ | ⟨hnone, -⟩
  · obtain ⟨tried, hperm, hsub⟩ := (hstands.lawful hids).once
    have htried : (tried.map (·.id)).Nodup := hids.sublist (hsub.map _)
    have hall := (hperm.map (·.id)).nodup_iff.1 htried
    rwa [List.map_map] at hall
  · rw [hnone]
    exact List.nodup_nil

end Execution

/-! ## Calls side by side -/

/-- A call that has been opened, and the policy that held then. -/
structure Line where
  {Work Value : Type}
  talk : Conversation Work Value
  policy : BackoffPolicy
  execution : Execution Work Value

namespace Line

/-- What becomes of the provider when something reaches the call. -/
def drive (l : Line) (p : Provider) (i : Input) : Provider :=
  match l.execution.progress with
  | .waiting c => (p.drive l.talk c i).1
  | .returned _ => p

/-- What becomes of the call. -/
def next (l : Line) (p : Provider) (i : Input) : Line :=
  { l with execution := l.execution.next l.talk p i }

/-- What the call, which stands at a place, hears then. -/
def heard (l : Line) (p : Provider) (place : Nat) (i : Input) : List Hearing :=
  match l.execution.progress with
  | .waiting c => (c.ending? l.talk i).toList.map (·.heard p place l.policy)
  | .returned _ => []

end Line

/-- A provider and the calls that have been opened on it, each at its place. -/
structure Traffic where
  provider : Provider
  lines : List Line

namespace Traffic

/-- Something that happens to the calls of a provider, or to what they share. -/
inductive Event where
  /-- A call is opened, given up already or not. -/
  | opened {σ α : Type} (talk : Conversation σ α) (fresh : σ) (givenUp : Bool)
  /-- Something reaches the call at a place. -/
  | reached (place : Nat) (i : Input)
  /-- The rules for falling over are replaced. -/
  | configured (c : FailoverConfig)
  /-- The found replicas are replaced. -/
  | replaced (refusals : Refusals) (found : List Endpoint)
  /-- Time goes by. -/
  | advanced (d : Duration)
  /-- The next draw is known. -/
  | drew (d : Draw)

/-- A provider on which no call has been opened. -/
def idle (p : Provider) : Traffic := ⟨p, []⟩

/-- What an event makes of the calls and of the provider. -/
def handle (t : Traffic) : Event → Traffic
  | .opened talk fresh givenUp =>
    ⟨(t.provider.openCall talk fresh givenUp).1,
      t.lines ++ [⟨talk, t.provider.pool.policy, .start talk fresh t.provider givenUp⟩]⟩
  | .reached place i =>
    match t.lines[place]? with
    | none => t
    | some l => ⟨l.drive t.provider i, t.lines.set place (l.next t.provider i)⟩
  | .configured c => { t with provider := t.provider.configure c }
  | .replaced refusals found =>
    match t.provider.pool.replaceFound refusals found t.provider.now with
    | .ok (pool, _) => { t with provider := { t.provider with pool } }
    | .error _ => t
  | .advanced d => { t with provider := { t.provider with now := t.provider.now + d } }
  | .drew d => { t with provider := { t.provider with draw := d } }

/-- What is heard in an event. -/
def heard (t : Traffic) : Event → List Hearing
  | .opened talk fresh givenUp =>
    (Execution.start talk fresh t.provider givenUp).completions.map
      (·.heard t.provider t.lines.length t.provider.pool.policy)
  | .reached place i =>
    match t.lines[place]? with
    | none => []
    | some l => l.heard t.provider place i
  | _ => []

/-- A run of events. -/
def run (t : Traffic) (events : List Event) : Traffic := events.foldl handle t

/-- What is heard in a run, in order. -/
def log (t : Traffic) : List Event → List Hearing
  | [] => []
  | e :: rest => t.heard e ++ log (t.handle e) rest

theorem log_append (t : Traffic) (before after : List Event) :
    t.log (before ++ after) = t.log before ++ (t.run before).log after := by
  induction before generalizing t with
  | nil => rfl
  | cons e rest ih =>
    show t.heard e ++ (t.handle e).log (rest ++ after) = (t.heard e ++ (t.handle e).log rest) ++ _
    rw [ih, List.append_assoc]
    rfl

/-! ## The books -/

end Traffic

namespace Line

/-- What the log says of the call at a place: it has heard exactly the ends of the attempts
that have ended, in their order and under its own policy, and no member twice. -/
structure Booked (place : Nat) (log : List Hearing) (l : Line) : Prop where
  entries : (log.filter (·.call = place)).map (fun x => (x.member, x.failure, x.policy)) =
    l.execution.completions.map fun x => (x.member, x.failure, l.policy)
  once : (l.execution.completions.map (·.member.id)).Nodup

variable {l : Line} {place : Nat} {log entries : List Hearing}

/-- What a call hears at one moment, as the log tells it. -/
theorem map_heard (xs : List (Completion α)) (p : Provider) (place : Nat) (policy : BackoffPolicy) :
    ((xs.map (·.heard p place policy)).filter (·.call = place)).map
        (fun x => (x.member, x.failure, x.policy)) =
      xs.map fun x => (x.member, x.failure, policy) := by
  rw [List.filter_eq_self.2, List.map_map]
  · rfl
  · intro x hx
    obtain ⟨y, -, rfl⟩ := List.mem_map.1 hx
    exact decide_eq_true rfl

/-- What other calls hear says nothing about this one. -/
theorem filter_call_eq_nil (h : ∀ x ∈ entries, x.call ≠ place) :
    entries.filter (·.call = place) = [] :=
  List.filter_eq_nil_iff.2 fun x hx => by simpa using h x hx

theorem Booked.append_others (h : l.Booked place log) (hothers : ∀ x ∈ entries, x.call ≠ place) :
    l.Booked place (log ++ entries) := by
  refine ⟨?_, h.once⟩
  rw [List.filter_append, filter_call_eq_nil hothers, List.append_nil, h.entries]

/-- What a call hears is of this call. -/
theorem call_of_mem_heard {p : Provider} {i : Input} {x : Hearing} (h : x ∈ l.heard p place i) :
    x.call = place := by
  unfold heard at h
  split at h
  · obtain ⟨y, -, rfl⟩ := List.mem_map.1 h
    rfl
  · exact absurd h List.not_mem_nil

/-- A call that something reaches hears the end of the attempt that has ended. -/
theorem Booked.next (h : l.Booked place log) (hfair : l.execution.Fair) (p : Provider) (i : Input) :
    (l.next p i).Booked place (log ++ l.heard p place i) := by
  refine ⟨?_, (hfair.next l.talk p i).once⟩
  rw [List.filter_append, List.map_append, h.entries]
  unfold heard Line.next Execution.next
  cases l.execution.progress with
  | waiting c => rw [map_heard, List.map_append]
  | returned r => simp only [List.filter_nil, List.map_nil, List.append_nil]

end Line

namespace Traffic

/-- What holds of the calls and the log at every moment. -/
structure Kept (t : Traffic) (log : List Hearing) : Prop where
  numbered : t.provider.pool.Numbered
  fair : ∀ l ∈ t.lines, l.execution.Fair
  policy : ∀ l ∈ t.lines, ∃ serial, l.execution.progress.From serial l.policy
  booked : ∀ (place : Nat) (l : Line), t.lines[place]? = some l → l.Booked place log
  opened : ∀ x ∈ log, x.call < t.lines.length

namespace Kept

variable {t : Traffic} {log : List Hearing}

theorem idle {p : Provider} (hp : p.pool.Numbered) : (Traffic.idle p).Kept [] where
  numbered := hp
  fair l hl := absurd hl List.not_mem_nil
  policy l hl := absurd hl List.not_mem_nil
  booked place l hl := by cases hl
  opened x hx := absurd hx List.not_mem_nil

/-- Changes of the provider that nobody hears of. -/
theorem of_lines {q : Provider} (h : t.Kept log) (hq : q.pool.Numbered) :
    Kept { t with provider := q } (log ++ []) := by
  rw [List.append_nil]
  exact ⟨hq, h.fair, h.policy, h.booked, h.opened⟩

/-- A call is opened. -/
theorem handle_opened (h : t.Kept log) (talk : Conversation σ α) (fresh : σ) (givenUp : Bool) :
    (t.handle (.opened talk fresh givenUp)).Kept (log ++ t.heard (.opened talk fresh givenUp)) := by
  have hnotes := t.provider.notes_openCall talk fresh givenUp t.lines.length
  have hcall {x : Hearing} (hx : x ∈ t.heard (.opened talk fresh givenUp)) :
      x.call = t.lines.length := by
    obtain ⟨y, -, rfl⟩ := List.mem_map.1 hx
    rfl
  have hfair := Execution.fair_start talk fresh h.numbered givenUp
  refine ⟨hnotes.numbered h.numbered (Provider.members_openCall _ _ _ _), ?_, ?_, ?_, ?_⟩
  · intro l hl
    rcases List.mem_append.1 hl with hl | hl
    · exact h.fair l hl
    · rw [List.mem_singleton.1 hl]
      exact hfair
  · intro l hl
    rcases List.mem_append.1 hl with hl | hl
    · exact h.policy l hl
    · rw [List.mem_singleton.1 hl]
      exact ⟨_, t.provider.from_openCall talk fresh givenUp⟩
  · intro place l hl
    rcases Nat.lt_or_ge place t.lines.length with hlt | hge
    · have hold : t.lines[place]? = some l := by
        rw [← hl]
        exact (List.getElem?_append_left hlt).symm
      refine (h.booked place l hold).append_others fun x hx => ?_
      rw [hcall hx]
      exact Nat.ne_of_gt hlt
    · have hplace : place = t.lines.length := by
        have hlt := (List.getElem?_eq_some_iff.1 hl).1
        change place < (t.lines ++ [_]).length at hlt
        rw [List.length_append, List.length_singleton] at hlt
        omega
      subst hplace
      change (t.lines ++ [_])[t.lines.length]? = some l at hl
      rw [List.getElem?_concat_length, Option.some.injEq] at hl
      subst hl
      refine ⟨?_, hfair.once⟩
      rw [List.filter_append, Line.filter_call_eq_nil fun x hx => Nat.ne_of_lt (h.opened x hx),
        List.nil_append]
      exact Line.map_heard _ t.provider t.lines.length t.provider.pool.policy
  · intro x hx
    show x.call < (t.lines ++ [_]).length
    rw [List.length_append, List.length_singleton]
    rcases List.mem_append.1 hx with hx | hx
    · exact Nat.lt_succ_of_lt (h.opened x hx)
    · rw [hcall hx]
      exact Nat.lt_succ_self _

/-- Something reaches a call. -/
theorem handle_reached (h : t.Kept log) (place : Nat) (i : Input) :
    (t.handle (.reached place i)).Kept (log ++ t.heard (.reached place i)) := by
  rw [handle, heard]
  cases hl : t.lines[place]? with
  | none =>
    rw [List.append_nil]
    exact h
  | some l =>
    have hmem := List.mem_of_getElem? hl
    obtain ⟨hplace, -⟩ := List.getElem?_eq_some_iff.1 hl
    have hkept : (l.drive t.provider i).pool.Numbered ∧
        ∃ serial, (l.next t.provider i).execution.progress.From serial l.policy := by
      obtain ⟨serial, hfrom⟩ := h.policy l hmem
      unfold Line.drive Line.next Execution.next
      cases hprogress : l.execution.progress with
      | returned r =>
        simp only [hprogress]
        exact ⟨h.numbered, 0, trivial⟩
      | waiting c =>
        rw [hprogress] at hfrom
        have hnotes := t.provider.notes_drive l.talk c i place
        refine ⟨hnotes.numbered h.numbered (Provider.members_drive _ _ _ _), ?_⟩
        exact ⟨c.serial, hfrom.2 ▸ t.provider.from_drive l.talk c i⟩
    refine ⟨hkept.1, fun l' hl' => ?_, fun l' hl' => ?_, fun place' l' hl' => ?_, fun x hx => ?_⟩
    · rcases List.mem_or_eq_of_mem_set hl' with hl' | rfl
      · exact h.fair l' hl'
      · exact (h.fair l hmem).next l.talk t.provider i
    · rcases List.mem_or_eq_of_mem_set hl' with hl' | rfl
      · exact h.policy l' hl'
      · exact hkept.2
    · rw [List.getElem?_set] at hl'
      split at hl'
      · next hsame =>
        subst hsame
        cases hl'
        exact (h.booked place l hl).next (h.fair l hmem) t.provider i
      · next hother =>
        refine (h.booked place' l' hl').append_others fun x hx => ?_
        rw [Line.call_of_mem_heard hx]
        exact hother
    · rw [List.length_set]
      rcases List.mem_append.1 hx with hx | hx
      · exact h.opened x hx
      · rw [Line.call_of_mem_heard hx]
        exact hplace

/-- **Every event keeps the books.** -/
theorem handle (h : t.Kept log) (e : Event) : (t.handle e).Kept (log ++ t.heard e) := by
  cases e with
  | opened talk fresh givenUp => exact h.handle_opened talk fresh givenUp
  | reached place i => exact h.handle_reached place i
  | configured c => exact h.of_lines ⟨h.numbered.nodup, h.numbered.lt_length⟩
  | replaced refusals found =>
    rw [Traffic.handle]
    split
    · next hreplace => exact h.of_lines (Pool.numbered_replaceFound h.numbered hreplace)
    · exact h.of_lines h.numbered
  | advanced d => exact h.of_lines h.numbered
  | drew d => exact h.of_lines h.numbered

/-- **Every event notes what is heard in it, and nothing else.** -/
theorem notes_handle (h : t.Kept log) (e : Event) :
    t.provider.Notes (t.heard e) (t.handle e).provider := by
  cases e with
  | opened talk fresh givenUp => exact t.provider.notes_openCall talk fresh givenUp t.lines.length
  | reached place i =>
    rw [Traffic.handle, heard]
    cases hl : t.lines[place]? with
    | none => exact .refl _
    | some l =>
      obtain ⟨serial, hfrom⟩ := h.policy l (List.mem_of_getElem? hl)
      simp only [Line.drive, Line.heard]
      cases hprogress : l.execution.progress with
      | returned r => exact .refl _
      | waiting c =>
        rw [hprogress] at hfrom
        rw [← show c.policy = l.policy from hfrom.2]
        exact t.provider.notes_drive l.talk c i place
  | configured c => exact .of_eq rfl rfl
  | replaced refusals found =>
    rw [Traffic.handle]
    split
    · next hreplace => exact Provider.notes_replaceFound hreplace
    · exact .refl _
  | advanced d => exact .of_eq rfl rfl
  | drew d => exact .of_eq rfl rfl

theorem run (h : t.Kept log) (events : List Event) :
    (t.run events).Kept (log ++ t.log events) ∧
      t.provider.Notes (t.log events) (t.run events).provider := by
  induction events generalizing t log with
  | nil =>
    rw [Traffic.log, List.append_nil]
    exact ⟨h, .refl _⟩
  | cons e rest ih =>
    obtain ⟨hkept, hnotes⟩ := ih (h.handle e)
    refine ⟨?_, (h.notes_handle e).trans hnotes⟩
    rw [Traffic.log, ← List.append_assoc]
    exact hkept

end Kept

/-- **The books of a pool.**  From any moment of any run on, health and counters are what the
log makes of them, every member has a health, and what the log says of a call is what the call
has heard. -/
theorem booked_run (p : Provider) (hp : p.pool.Numbered) (before after : List Event) :
    let t := (Traffic.idle p).run before
    t.provider.Notes (t.log after) (t.run after).provider ∧
      (∀ m ∈ t.provider.pool.members, m.id < t.provider.pool.healths.length) ∧
      ∀ (place : Nat) (l : Line), (t.run after).lines[place]? = some l →
        l.Booked place ((Traffic.idle p).log (before ++ after)) := by
  intro t
  have hbefore : t.Kept ((Traffic.idle p).log before) := ((Kept.idle hp).run before).1
  obtain ⟨hafter, hnotes⟩ := hbefore.run after
  rw [← log_append] at hafter
  exact ⟨hnotes, hbefore.numbered.lt_length, hafter.booked⟩

/-- Two calls over two replicas: both ask the first replica; the one cannot reach it and goes
on to the second, where it is given up, and the other has its answer. -/
def crossing : List Event :=
  [.opened .fetch default false, .opened .check (default, none) false, .configured default,
    .reached 0 (.answered ⟨0, 0, 0⟩ (.error (.connection "refused"))),
    .reached 1 (.answered ⟨1, 0, 0⟩ (.ok (.verdict .unchanged))), .reached 0 .cancelled,
    .reached 0 (.answered ⟨0, 1, 0⟩ (.error (.connection "reset")))]

/-- The failure and the answer of the first replica are booked, in this order; the second one,
which a call left behind, is as it was. -/
theorem booked_crossing :
    let q := ((Traffic.idle (.overHosts ["a", "b"])).run crossing).provider
    q.pool.members.map q.pool.health = [⟨0, .start⟩, .new .start] ∧
      Tally.count ("a", .failed .retryable) q.metrics.attempts = 1 ∧
      Tally.count ("a", .success) q.metrics.attempts = 1 ∧
      ∀ outcome, Tally.count ("b", outcome) q.metrics.attempts = 0 := by
  intro q
  obtain ⟨hnotes, hids, -⟩ := booked_run (.overHosts ["a", "b"]) (Pool.numbered_ofHosts ["a", "b"])
    [] crossing
  have hhealth : ∀ m ∈ (Pool.ofHosts ["a", "b"]).members, q.pool.health m = _ :=
    fun m hm => hnotes.health m (hids m hm)
  refine ⟨?_, hnotes.attempts _ _, hnotes.attempts _ _, fun outcome => hnotes.attempts _ outcome⟩
  show (Pool.ofHosts ["a", "b"]).members.map q.pool.health = _
  rw [List.map_congr_left hhealth]
  rfl

end Traffic
end ReplicatedConfig
