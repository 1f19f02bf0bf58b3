import ReplicatedConfig.Proofs.Failover.Execution

/-!
# What the end of an attempt does to health and counters

A call changes the health of a replica and the counters of attempts only when it hears that
one of its attempts has ended.  A `Hearing` is such an end, with all that its effect depends
on: the time, the next draw, and the policy of the call.  `Hearing.mark` says what it makes of
the health of its member; there are six ways in which an attempt may end or be dropped, and
three of them leave no mark.

`Provider.Notes` says what a list of hearings makes of a provider.  It is stated for each
member and each counter by itself, so that two lists of notes put together are the notes of
the two stretches put together.  Opening a call and driving it note what the call hears
then, and nothing else.
-/

namespace ReplicatedConfig

variable {σ α : Type}

/-! ## What a call hears -/

/-- The end of an attempt, as its call has heard it. -/
structure Hearing where
  /-- The place of the call among all that were opened. -/
  call : Nat
  member : Member
  /-- What the attempt failed with; nothing where it has what it came for. -/
  failure : Option StoreError
  time : Instant
  policy : BackoffPolicy
  draw : Draw

namespace Hearing

/-- Under which outcome the attempt is counted. -/
def outcome (x : Hearing) : AttemptOutcome :=
  match x.failure with
  | none => .success
  | some e => .failed e.failureClass

/-- What it makes of the health of its member: a value or the answer that there is none
counts for it, a failure that another replica may mend counts against it, and one that is
the fault of the caller or of the request says nothing. -/
def mark (x : Hearing) (h : Health) : Health :=
  match x.failure with
  | none => h.record true x.time x.policy x.draw
  | some e =>
    match e.failureClass with
    | .notFound => h.record true x.time x.policy x.draw
    | .retryable => h.record false x.time x.policy x.draw
    | .nonRetryable => h
    | .cancelled => h

end Hearing

/-- What an attempt failed with. -/
def Completion.failure (x : Completion α) : Option StoreError :=
  match x.result with
  | .ok _ => none
  | .error e => some e

/-- What the call at a place hears of the end of one of its attempts. -/
def Completion.heard (x : Completion α) (p : Provider) (call : Nat) (policy : BackoffPolicy) :
    Hearing :=
  ⟨call, x.member, x.failure, p.now, policy, p.draw⟩

/-! ## What entries make of health and counters -/

/-- The second provider differs from the first one by what the entries say, as far as health
and the counters of attempts go.  There may be healths of new members behind the old ones. -/
structure Provider.Notes (p : Provider) (entries : List Hearing) (q : Provider) : Prop where
  stays : p.pool.healths.length ≤ q.pool.healths.length
  health : ∀ m : Member, m.id < p.pool.healths.length →
    q.pool.health m =
      (entries.filter (·.member.id = m.id)).foldl (fun h x => x.mark h) (p.pool.health m)
  attempts : ∀ host outcome,
    Tally.count (host, outcome) q.metrics.attempts =
      Tally.count (host, outcome) p.metrics.attempts +
        entries.countP fun x => x.member.endpoint.host = host ∧ x.outcome = outcome

/-- Counting `j` once more moves the count of `j` alone. -/
theorem Tally.count_bump {κ : Type} [DecidableEq κ] (j k : κ) (t : Tally κ) :
    count k (bump j t) = count k t + if j = k then 1 else 0 := by
  induction t with
  | nil =>
    by_cases h : j = k
    · simp [bump, count, h]
    · simp [bump, count, List.lookup_cons, beq_eq_false_iff_ne.2 (Ne.symm h), h]
  | cons x rest ih =>
    obtain ⟨i, n⟩ := x
    have hcons (i : κ) (n : Nat) (t : Tally κ) :
        count k ((i, n) :: t) = if i = k then n else count k t := by
      by_cases h : i = k
      · simp [count, h]
      · simp [count, List.lookup_cons, beq_eq_false_iff_ne.2 (Ne.symm h), h]
    rw [bump]
    split
    · next hij =>
      subst hij
      rw [hcons, hcons]
      split <;> rfl
    · next hij =>
      rw [hcons, hcons, ih]
      split
      · next hik => rw [if_neg fun hjk => hij (hik.trans hjk.symm), Nat.add_zero]
      · rfl

namespace Provider

variable {p q r : Provider} {xs ys : List Hearing}

theorem Notes.refl (p : Provider) : p.Notes [] p := ⟨Nat.le_refl _, fun _ _ => rfl, fun _ _ => rfl⟩

theorem Notes.trans (hq : p.Notes xs q) (hr : q.Notes ys r) : p.Notes (xs ++ ys) r := by
  refine ⟨Nat.le_trans hq.stays hr.stays, fun m hm => ?_, fun host outcome => ?_⟩
  · rw [List.filter_append, List.foldl_append, ← hq.health m hm]
    exact hr.health m (Nat.lt_of_lt_of_le hm hq.stays)
  · rw [List.countP_append, ← Nat.add_assoc, ← hq.attempts host outcome]
    exact hr.attempts host outcome

/-- Health and counters are all that notes are about. -/
theorem Notes.of_eq (hhealths : q.pool.healths = p.pool.healths)
    (hattempts : q.metrics.attempts = p.metrics.attempts) : p.Notes [] q := by
  refine ⟨hhealths ▸ Nat.le_refl _, fun m _ => ?_, fun host outcome => ?_⟩
  · rw [Pool.health, Pool.health, hhealths]
    rfl
  · rw [hattempts]
    rfl

/-- What an outcome says about health is what the entry makes of it. -/
theorem health_apply_answered (p : Provider) {x : Hearing} (hdraw : x.draw = p.draw) (m : Member)
    (hm : m.id < p.pool.healths.length) :
    (p.apply (.answered x.member x.outcome x.time x.policy)).pool.health m =
      if x.member.id = m.id then x.mark (p.pool.health m) else p.pool.health m := by
  have hrecord (success : Bool) :
      (p.pool.record x.member success x.time x.policy p.draw).health m =
        if x.member.id = m.id then (p.pool.health m).record success x.time x.policy p.draw
        else p.pool.health m := by
    simp only [Pool.health, Pool.record, List.getD_eq_getElem?_getD, List.getElem?_modify,
      List.getElem?_eq_getElem hm]
    split <;> rfl
  have hsame : (if x.member.id = m.id then p.pool.health m else p.pool.health m) =
      p.pool.health m := ite_self _
  unfold apply Hearing.mark Hearing.outcome
  rw [hdraw]
  cases x.failure with
  | none => exact hrecord true
  | some e =>
    cases he : e.failureClass with
    | notFound => simpa only [he, AttemptOutcome.health?] using hrecord true
    | retryable => simpa only [he, AttemptOutcome.health?] using hrecord false
    | nonRetryable => simpa only [he, AttemptOutcome.health?] using hsame.symm
    | cancelled => simpa only [he, AttemptOutcome.health?] using hsame.symm

/-- The end of an attempt is noted once. -/
theorem notes_apply_answered (p : Provider) {x : Hearing} (hdraw : x.draw = p.draw) :
    p.Notes [x] (p.apply (.answered x.member x.outcome x.time x.policy)) := by
  refine ⟨?_, fun m hm => ?_, fun host outcome => ?_⟩
  · simp only [apply]
    split
    · simp [Pool.record]
    · exact Nat.le_refl _
  · rw [p.health_apply_answered hdraw m hm]
    by_cases hid : x.member.id = m.id <;> simp [hid]
  · show Tally.count (host, outcome) (Tally.bump (x.member.endpoint.host, x.outcome) _) = _
    rw [Tally.count_bump, List.countP_singleton]
    simp only [Prod.mk.injEq, decide_eq_true_eq]

/-- A step of a call notes the end of the attempt that it ends. -/
theorem notes_take_complete (p : Provider) (c : Call σ) (x : Completion α) (call : Nat) :
    p.Notes [x.heard p call c.policy] (p.take (c.complete x.member x.result p.now)).1 := by
  have heffects : (c.complete x.member x.result p.now).effects =
      [.answered x.member (x.heard p call c.policy).outcome p.now c.policy] := by
    obtain ⟨m, e | value⟩ := x
    · simp only [Call.complete, Completion.heard, Completion.failure, Hearing.outcome]
      cases e.failureClass <;> rfl
    · rfl
  rw [take, heffects]
  exact p.notes_apply_answered (x := x.heard p call c.policy) rfl

/-- Opening a call notes the attempt that ends at once, if there is one. -/
theorem notes_openCall (p : Provider) (k : Conversation σ α) (fresh : σ) (givenUp : Bool)
    (call : Nat) :
    p.Notes ((Execution.start k fresh p givenUp).completions.map
      (·.heard p call p.pool.policy)) (p.openCall k fresh givenUp).1 := by
  unfold openCall Execution.start
  cases givenUp with
  | true => exact .refl p
  | false =>
    have hcalls : p.Notes [] { p with calls := p.calls + 1 } := .of_eq rfl rfl
    refine hcalls.trans ?_
    simp only [Bool.false_eq_true, if_false, Call.opening, Call.outright?]
    have hpolicy : (Call.start p.calls p.failover.interval p.pool.policy
        (p.pool.candidates p.now) fresh p.now).policy = p.pool.policy := by
      unfold Call.start Call.launchNext
      split <;> rfl
    revert hpolicy
    generalize Call.start p.calls p.failover.interval p.pool.policy (p.pool.candidates p.now) fresh
      p.now = c
    intro hpolicy
    cases c.inFlight.head? with
    | none => exact .refl _
    | some a =>
      cases hout : k.outright a.work with
      | none =>
        simp only [hout, Option.bind_some, Option.map_none, Option.toList_none, List.map_nil]
        exact .refl _
      | some value =>
        simp only [hout, Option.bind_some, Option.map_some, Option.toList_some, List.map_cons,
          List.map_nil]
        rw [← hpolicy]
        exact notes_take_complete { p with calls := p.calls + 1 } c ⟨a.member, .ok value⟩ call

/-- Driving a call notes the attempt that the input ends, if it ends one. -/
theorem notes_drive (p : Provider) (k : Conversation σ α) (c : Call σ) (i : Input) (call : Nat) :
    p.Notes ((c.ending? k i).toList.map (·.heard p call c.policy)) (p.drive k c i).1 := by
  cases i with
  | answered ticket reply =>
    show p.Notes ((c.endedBy? k ticket reply).toList.map _) (p.take (c.hear k ticket reply p.now)).1
    rcases c.hear_cases k ticket reply p.now with
      ⟨a, -, result, hended, hhear⟩ | ⟨hended, d, hhear, -⟩
    · rw [hended, hhear]
      exact p.notes_take_complete c ⟨a.member, result⟩ call
    · rw [hended, hhear]
      exact .refl p
  | fallback serial =>
    show p.Notes [] (if serial = c.serial then p.take (c.fallBack p.now)
      else (p, (.waiting c : Progress σ α))).1
    split
    · rcases c.fallBack_cases (α := α) p.now with hback | hback <;> rw [hback]
      · exact .of_eq rfl rfl
      · exact .refl p
    · exact .refl p
  | cancelled => exact .refl p
  | resumed => exact .refl p
  | woke => exact .refl p

/-- New members come behind the old ones. -/
theorem notes_replaceFound {pool : Pool} {refusals : Refusals} {found : List Endpoint}
    {now : Instant} {changed : Bool}
    (h : p.pool.replaceFound refusals found now = .ok (pool, changed)) :
    p.Notes [] { p with pool } := by
  cases hms : Pool.enrol refusals p.pool.members p.pool.healths.length
      (Pool.wanted p.pool.configured found) with
  | error e => simp [Pool.replaceFound, hms, bind, Except.bind] at h
  | ok ms =>
    simp only [Pool.replaceFound, hms, bind, Except.bind] at h
    split at h
    · cases h
    · split at h
      · cases h
        exact .of_eq rfl rfl
      · cases h
        refine ⟨by simp [Pool.enrolled], fun m hm => ?_, fun _ _ => rfl⟩
        simp only [Pool.health, Pool.enrolled, List.getD_eq_getElem?_getD,
          List.getElem?_append_left hm, List.filter_nil, List.foldl_nil]

/-! ## Calls leave the members as they are -/

theorem members_take (p : Provider) (turn : Turn σ α) :
    (p.take turn).1.pool.members = p.pool.members := by
  show (turn.effects.foldl apply p).pool.members = p.pool.members
  generalize turn.effects = effects
  induction effects generalizing p with
  | nil => rfl
  | cons e rest ih =>
    rw [List.foldl_cons, ih]
    cases e with
    | answered m outcome time policy =>
      simp only [apply]
      split <;> rfl
    | fellBack => rfl

theorem members_openCall (p : Provider) (k : Conversation σ α) (fresh : σ) (givenUp : Bool) :
    (p.openCall k fresh givenUp).1.pool.members = p.pool.members := by
  unfold openCall
  split
  · rfl
  · exact members_take _ _

theorem members_drive (p : Provider) (k : Conversation σ α) (c : Call σ) (i : Input) :
    (p.drive k c i).1.pool.members = p.pool.members := by
  cases i with
  | answered ticket reply => exact members_take p _
  | fallback serial =>
    rw [drive]
    split
    · exact members_take p _
    · rfl
  | cancelled => rfl
  | resumed => rfl
  | woke => rfl

theorem Notes.numbered (h : p.Notes xs q) (hp : p.pool.Numbered)
    (hmembers : q.pool.members = p.pool.members) : q.pool.Numbered :=
  ⟨hmembers ▸ hp.nodup, fun m hm => Nat.lt_of_lt_of_le (hp.lt_length m (hmembers ▸ hm)) h.stays⟩

end Provider

end ReplicatedConfig
