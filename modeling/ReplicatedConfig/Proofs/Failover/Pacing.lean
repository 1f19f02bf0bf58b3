import ReplicatedConfig.Proofs.Failover.Account

/-!
# When a call starts its attempts

A call starts its first attempt when it is opened.  Each further one starts when an attempt fails
in a way that another replica might mend, or one interval after the last start, whichever comes
first.  This is a recurrence over the moments at which the call moves, and here it is shown of the
moments alone.

## The recurrence

`Paced` builds the moments up, one constructor for each way in which a call moves on.  With them go
the candidates that are left and the time of the last start.  What is to be shown of two starts one
after the other is that the second is the earlier of the timer and the first failure between them
(`Recurs`).  Behind the last start there is no second one yet; there nothing has failed, as long as
somebody is left to be started (`Rests`).  Neither holds its induction without the other:
`Paced.recurs` shows both.

A failure behind the second of two starts does not make the first failure earlier, because no
moment lies before the last start (`Paced.le_last`, `earlier_concat`).
-/

namespace ReplicatedConfig

variable {σ α : Type}

/-! ## Moments -/

/-- Why a call has moved. -/
inductive Cause (α : Type) where
  | opening
  | ended (x : Completion α)
  | timer

namespace Cause

/-- Whether it is the end of an attempt. -/
def isEnd : Cause α → Bool
  | .ended _ => true
  | _ => false

/-- Whether it is a failure that another replica might mend. -/
def isFailure : Cause α → Bool
  | .ended x => x.verdict?.isNone
  | _ => false

/-- Whether it is the timer. -/
def isTimer : Cause α → Bool
  | .timer => true
  | _ => false

end Cause

/-- A moment at which a call has moved. -/
structure Move (α : Type) where
  time : Instant
  cause : Cause α
  /-- The candidates that have been started then. -/
  launched : List Member

namespace Move

/-- The candidates that have been started, and when. -/
def launches (ms : List (Move α)) : List (Member × Instant) :=
  ms.flatMap fun e => e.launched.map (·, e.time)

/-- When an attempt has failed for the first time in a way that another replica might mend. -/
def failure? (ms : List (Move α)) : Option Instant :=
  ms.findSome? fun e => if e.cause.isFailure then some e.time else none

/-- What has happened since the candidate at a place was started. -/
def since : Nat → List (Move α) → List (Move α)
  | _, [] => []
  | i, e :: rest => if i < e.launched.length then rest else since (i - e.launched.length) rest

end Move

/-- The earlier one of an instant and of another one, if there is another one. -/
def Instant.earlier (t : Instant) : Option Instant → Instant
  | none => t
  | some u => min t u

/-! ## What adding a moment changes -/

theorem Instant.earlier_of_le {t u : Instant} (h : t ≤ u) : t.earlier (some u) = t := by
  refine Instant.ext_nanos ?_
  show (min t u).nanos = t.nanos
  rw [Instant.nanos_min]
  exact Nat.min_eq_left h

theorem Instant.earlier_of_ge {t u : Instant} (h : u ≤ t) : t.earlier (some u) = u := by
  refine Instant.ext_nanos ?_
  show (min t u).nanos = u.nanos
  rw [Instant.nanos_min]
  exact Nat.min_eq_right h

namespace Move

theorem launches_cons (e : Move α) (ms : List (Move α)) :
    launches (e :: ms) = e.launched.map (·, e.time) ++ launches ms := rfl

theorem launches_concat (ms : List (Move α)) (e : Move α) :
    launches (ms ++ [e]) = launches ms ++ e.launched.map (·, e.time) := by
  simp [launches]

theorem failure?_concat (ms : List (Move α)) (e : Move α) :
    failure? (ms ++ [e]) =
      (failure? ms).or (if e.cause.isFailure then some e.time else none) := by
  simp [failure?, List.findSome?_append]

/-- One more moment comes behind what has happened since any start. -/
theorem since_concat {ms : List (Move α)} {i : Nat} (h : i < (launches ms).length) (e : Move α) :
    since i (ms ++ [e]) = since i ms ++ [e] := by
  induction ms generalizing i with
  | nil => exact absurd h (Nat.not_lt_zero i)
  | cons a rest ih =>
    rw [List.cons_append, since, since]
    by_cases hi : i < a.launched.length
    · rw [if_pos hi, if_pos hi]
    · rw [launches_cons, List.length_append, List.length_map] at h
      rw [if_neg hi, if_neg hi]
      exact ih (by omega)

/-- Nothing has happened since the last moment. -/
theorem since_length (ms : List (Move α)) (e : Move α) :
    since (launches ms).length (ms ++ [e]) = [] := by
  induction ms with
  | nil =>
    show (if 0 < e.launched.length then [] else since (0 - e.launched.length) []) = _
    split <;> simp [since]
  | cons a rest ih =>
    rw [launches_cons, List.length_append, List.length_map, List.cons_append, since,
      if_neg (by omega), Nat.add_sub_cancel_left]
    exact ih

/-- A second start is still in time when more happens behind it. -/
theorem earlier_concat {ms : List (Move α)} {e : Move α} {t u : Instant}
    (h : u = t.earlier (failure? ms)) (hle : u ≤ e.time) : u = t.earlier (failure? (ms ++ [e])) := by
  rw [failure?_concat]
  cases hfailure : failure? ms with
  | some v => rwa [hfailure] at h
  | none =>
    rw [hfailure] at h
    by_cases he : e.cause.isFailure
    · have hut : u = t := h
      rw [if_pos he, hut]
      rw [hut] at hle
      exact (Instant.earlier_of_le hle).symm
    · rwa [if_neg he]

end Move

/-! ## The recurrence -/

open Move

section Paced

/-- The moments of a call that starts one candidate after the other, with the candidates that are
left and the time of the last start. -/
inductive Paced (candidates : List Member) (interval : Duration) (opened : Instant) :
    List (Move α) → List Member → Instant → Prop where
  /-- The first candidate is started when the call is opened. -/
  | opening {m : Member} {rest : List Member} (all : candidates = m :: rest) :
      Paced candidates interval opened [⟨opened, .opening, [m]⟩] rest opened
  /-- The last start is one interval ago. -/
  | timer {ms : List (Move α)} {m : Member} {rest : List Member} {last : Instant}
      (before : Paced candidates interval opened ms (m :: rest) last) :
      Paced candidates interval opened (ms ++ [⟨last + interval, .timer, [m]⟩]) rest (last + interval)
  /-- An attempt fails before that. -/
  | failed {ms : List (Move α)} {m : Member} {rest : List Member} {last t : Instant}
      {x : Completion α} (before : Paced candidates interval opened ms (m :: rest) last)
      (undecided : x.verdict? = none) (late : last ≤ t) (early : t ≤ last + interval) :
      Paced candidates interval opened (ms ++ [⟨t, .ended x, [m]⟩]) rest t
  /-- An attempt fails, and nobody is left. -/
  | spent {ms : List (Move α)} {last t : Instant} {x : Completion α}
      (before : Paced candidates interval opened ms [] last)
      (undecided : x.verdict? = none) (late : last ≤ t) :
      Paced candidates interval opened (ms ++ [⟨t, .ended x, []⟩]) [] last

/-- Each start is the earlier one of the timer and the first failure since the start before it. -/
def Recurs (interval : Duration) (ms : List (Move α)) : Prop :=
  ∀ i m t m' t', (launches ms)[i]? = some (m, t) → (launches ms)[i + 1]? = some (m', t') →
    t' = (t + interval).earlier (failure? (since i ms))

/-- Since the last start nothing has failed, as long as somebody is left. -/
def Rests (ms : List (Move α)) (pending : List Member) (last : Instant) : Prop :=
  ∀ i m t, (launches ms)[i]? = some (m, t) → (launches ms)[i + 1]? = none →
    last = t ∧ (pending ≠ [] → failure? (since i ms) = none)

variable {candidates pending : List Member} {interval : Duration} {opened last : Instant}
  {ms : List (Move α)}

namespace Paced

/-- What has been started is the beginning of the candidates. -/
theorem order (h : Paced candidates interval opened ms pending last) :
    (launches ms).map (·.1) ++ pending = candidates := by
  induction h with
  | opening all => exact all.symm
  | timer before ih => simpa [launches_concat] using ih
  | failed before undecided late early ih => simpa [launches_concat] using ih
  | spent before undecided late ih => simpa [launches_concat] using ih

/-- The first candidate is started when the call is opened. -/
theorem exists_first (h : Paced candidates interval opened ms pending last) :
    ∃ m tail, candidates.head? = some m ∧ launches ms = (m, opened) :: tail := by
  induction h with
  | @opening m rest all => exact ⟨m, [], by rw [all]; rfl, rfl⟩
  | timer before ih =>
    obtain ⟨m, tail, hhead, hms⟩ := ih
    exact ⟨m, _, hhead, by rw [launches_concat, hms, List.cons_append]⟩
  | failed before undecided late early ih =>
    obtain ⟨m, tail, hhead, hms⟩ := ih
    exact ⟨m, _, hhead, by rw [launches_concat, hms, List.cons_append]⟩
  | spent before undecided late ih =>
    obtain ⟨m, tail, hhead, hms⟩ := ih
    exact ⟨m, _, hhead, by rw [launches_concat, hms, List.cons_append]⟩

/-- Nobody is started after the last start. -/
theorem le_last (h : Paced candidates interval opened ms pending last) :
    ∀ x ∈ launches ms, x.2 ≤ last := by
  induction h with
  | opening all =>
    intro x hx
    rw [List.mem_singleton.1 hx]
    exact Nat.le_refl _
  | @timer ms m rest last before ih =>
    intro x hx
    rw [launches_concat] at hx
    rcases List.mem_append.1 hx with hx | hx
    · exact Nat.le_trans (ih x hx) (last.le_add interval)
    · rw [List.mem_singleton.1 hx]
      exact Nat.le_refl _
  | failed before undecided late early ih =>
    intro x hx
    rw [launches_concat] at hx
    rcases List.mem_append.1 hx with hx | hx
    · exact Nat.le_trans (ih x hx) late
    · rw [List.mem_singleton.1 hx]
      exact Nat.le_refl _
  | spent before undecided late ih =>
    intro x hx
    rw [launches_concat, List.map_nil, List.append_nil] at hx
    exact ih x hx

/-- Nothing that has happened has decided the call. -/
theorem undecided (h : Paced candidates interval opened ms pending last) :
    ∀ e ∈ ms, ∀ x, e.cause = .ended x → x.verdict? = none := by
  induction h with
  | opening all =>
    intro e he x hx
    rw [List.mem_singleton.1 he] at hx
    cases hx
  | timer before ih =>
    intro e he x hx
    rcases List.mem_append.1 he with he | he
    · exact ih e he x hx
    · rw [List.mem_singleton.1 he] at hx
      cases hx
  | failed before undecided late early ih =>
    intro e he x hx
    rcases List.mem_append.1 he with he | he
    · exact ih e he x hx
    · rw [List.mem_singleton.1 he] at hx
      cases hx
      exact undecided
  | spent before undecided late ih =>
    intro e he x hx
    rcases List.mem_append.1 he with he | he
    · exact ih e he x hx
    · rw [List.mem_singleton.1 he] at hx
      cases hx
      exact undecided

end Paced

/-- More that happens behind the last start does not undo the recurrence. -/
theorem Recurs.concat_nil (h : Recurs interval ms) {e : Move α} (hlaunched : e.launched = [])
    (hle : ∀ x ∈ launches ms, x.2 ≤ e.time) : Recurs interval (ms ++ [e]) := by
  intro i m t m' t' hi hi'
  rw [launches_concat, hlaunched, List.map_nil, List.append_nil] at hi hi'
  have hlt : i < (launches ms).length := (List.getElem?_eq_some_iff.1 hi).1
  rw [since_concat hlt]
  exact earlier_concat (h i m t m' t' hi hi') (hle _ (List.mem_of_getElem? hi'))

/-- One more start goes on with the recurrence. -/
theorem Recurs.concat_singleton (h : Recurs interval ms) (hrests : Rests ms pending last)
    (hpending : pending ≠ []) {e : Move α} {m : Member} (hlaunched : e.launched = [m])
    (hle : ∀ x ∈ launches ms, x.2 ≤ e.time)
    (htime : e.time = (last + interval).earlier (if e.cause.isFailure then some e.time else none)) :
    Recurs interval (ms ++ [e]) ∧ ∀ rest, Rests (ms ++ [e]) rest e.time := by
  have hall : launches (ms ++ [e]) = launches ms ++ [(m, e.time)] := by
    rw [launches_concat, hlaunched]
    rfl
  constructor
  · intro i m₁ t m' t' hi hi'
    rw [hall] at hi hi'
    have hlt : i < (launches ms).length := by
      have hsucc := (List.getElem?_eq_some_iff.1 hi').1
      rw [List.length_append, List.length_singleton] at hsucc
      omega
    rw [List.getElem?_append_left hlt] at hi
    rw [since_concat hlt]
    by_cases hinner : i + 1 < (launches ms).length
    · rw [List.getElem?_append_left hinner] at hi'
      exact earlier_concat (h i m₁ t m' t' hi hi') (hle _ (List.mem_of_getElem? hi'))
    · -- The start before the new one is the last of the old ones.
      have hnone : (launches ms)[i + 1]? = none := List.getElem?_eq_none (by omega)
      obtain ⟨rfl, hfailure⟩ := hrests i m₁ t hi hnone
      have hsucc : i + 1 - (launches ms).length = 0 := by omega
      rw [List.getElem?_append_right (by omega), hsucc, List.getElem?_cons_zero,
        Option.some_inj] at hi'
      obtain ⟨rfl, rfl⟩ := Prod.mk.inj hi'
      rw [failure?_concat, hfailure hpending, Option.none_or]
      exact htime
  · intro rest i m₁ t hi hnone
    rw [hall] at hi hnone
    have hlt := (List.getElem?_eq_some_iff.1 hi).1
    have hle := List.getElem?_eq_none_iff.1 hnone
    rw [List.length_append, List.length_singleton] at hlt hle
    obtain rfl : i = (launches ms).length := by omega
    rw [List.getElem?_append_right (Nat.le_refl _), Nat.sub_self, List.getElem?_cons_zero,
      Option.some_inj] at hi
    obtain ⟨rfl, rfl⟩ := Prod.mk.inj hi
    rw [since_length]
    exact ⟨rfl, fun _ => rfl⟩

namespace Paced

/-- **The recurrence.**  Each start is the earlier one of the timer and the first failure since the
start before it, and since the last start nothing has failed unless nobody is left. -/
theorem recurs (h : Paced candidates interval opened ms pending last) :
    Recurs interval ms ∧ Rests ms pending last := by
  induction h with
  | opening all =>
    constructor
    · intro i m₁ t m' t' hi hi'
      cases hi'
    · intro i m₁ t hi hnone
      cases i with
      | zero =>
        cases hi
        exact ⟨rfl, fun _ => rfl⟩
      | succ i => cases hi
  | @timer ms m rest last before ih =>
    obtain ⟨hrecurs, hrests⟩ := ih
    obtain ⟨hrecurs', hrests'⟩ := hrecurs.concat_singleton hrests (List.cons_ne_nil m rest)
      (e := ⟨last + interval, .timer, [m]⟩) rfl
      (fun x hx => Nat.le_trans (before.le_last x hx) (last.le_add interval)) rfl
    exact ⟨hrecurs', hrests' rest⟩
  | @failed ms m rest last t x before undecided late early ih =>
    obtain ⟨hrecurs, hrests⟩ := ih
    have htime : t = (last + interval).earlier
        (if (Cause.ended x).isFailure then some t else none) := by
      rw [Cause.isFailure, undecided, Option.isNone_none, if_pos rfl]
      exact (Instant.earlier_of_ge early).symm
    obtain ⟨hrecurs', hrests'⟩ := hrecurs.concat_singleton hrests (List.cons_ne_nil m rest)
      (e := ⟨t, .ended x, [m]⟩) rfl (fun y hy => Nat.le_trans (before.le_last y hy) late) htime
    exact ⟨hrecurs', hrests' rest⟩
  | @spent ms last t x before undecided late ih =>
    obtain ⟨hrecurs, hrests⟩ := ih
    refine ⟨hrecurs.concat_nil rfl fun y hy => Nat.le_trans (before.le_last y hy) late, ?_⟩
    intro i m t' hi hnone
    rw [launches_concat, List.map_nil, List.append_nil] at hi hnone
    exact ⟨(hrests i m t' hi hnone).1, fun hne => absurd rfl hne⟩

/-- While no attempt has ended, the starts are one interval apart. -/
theorem last_eq (h : Paced candidates interval opened ms pending last)
    (hquiet : ∀ e ∈ ms, e.cause.isEnd = false) :
    ∃ j, (launches ms).length = j + 1 ∧ last.nanos = opened.nanos + j * interval.nanos := by
  induction h with
  | opening all => exact ⟨0, rfl, by rw [Nat.zero_mul, Nat.add_zero]⟩
  | @timer ms m rest last before ih =>
    obtain ⟨j, hlength, hlast⟩ := ih fun e he => hquiet e (List.mem_append_left _ he)
    refine ⟨j + 1, ?_, ?_⟩
    · rw [launches_concat, List.length_append, hlength]
      rfl
    · rw [Instant.nanos_add, hlast, Nat.succ_mul, Nat.add_assoc]
  | failed before undecided late early ih =>
    have hend := hquiet _ (List.mem_append_right _ List.mem_cons_self)
    cases hend
  | spent before undecided late ih =>
    have hend := hquiet _ (List.mem_append_right _ List.mem_cons_self)
    cases hend

end Paced

end Paced

end ReplicatedConfig
