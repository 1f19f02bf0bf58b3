import Mathlib.Data.List.Induction
import ReplicatedConfig.Health
import ReplicatedConfig.Proofs.Health.Intervals

/-!
# The health of a replica over its whole history

A replica's health is two numbers, a count and a time, and is replaced whenever an outcome of a
request is recorded.  What a caller wants to know is about the history: how many failures there
have been since the last success, and when the replica may be tried.

## Health without replaying the history

`after` replays a history.  `after_concat` says what comes of it without replaying: the count is
the `streak` at the end of the history, and the replica may be tried again when the interval for
that streak is over, counted from the last outcome.  A success has streak zero and the interval
for zero is empty, so it is no special case.  The count saturates and the interval does not
notice, since doubling stops long before the count does.

## Health at a time

Outcomes are recorded in the order of their times, so the outcomes recorded by some time are a
beginning of the history (`asOf_eq_after`), and a replica is as its last outcome has left it until
the next one is recorded.
-/

namespace ReplicatedConfig
namespace Health

/-- The outcome of a request, with all that recording it depends on. -/
structure Outcome where
  success : Bool
  time : Instant
  policy : BackoffPolicy
  draw : Draw

/-- The health after an outcome. -/
def hear (h : Health) (x : Outcome) : Health := h.record x.success x.time x.policy x.draw

/-- The health of a replica that has been known from `created` on, after its outcomes. -/
def after (created : Instant) (xs : List Outcome) : Health := xs.foldl hear (.new created)

/-- The health at a time: what the outcomes recorded by then have left. -/
def asOf (created : Instant) (xs : List Outcome) (t : Instant) : Health :=
  after created (xs.filter (·.time ≤ t))

/-- How many failures there have been since the last success. -/
def streak (xs : List Outcome) : Nat := (xs.reverse.takeWhile fun x => !x.success).length

/-- When the last outcome was recorded, or since when the replica has been known. -/
def lastTime (created : Instant) (xs : List Outcome) : Instant :=
  (xs.getLast?.map (·.time)).getD created

variable {created : Instant} {xs rest : List Outcome} {x : Outcome}

/-! ## The streak and the count -/

theorem streak_concat (xs : List Outcome) (x : Outcome) :
    streak (xs ++ [x]) = if x.success then 0 else streak xs + 1 := by
  rw [streak, List.reverse_append, List.reverse_singleton, List.singleton_append,
    List.takeWhile_cons]
  cases x.success <;> rfl

theorem after_append_singleton (created : Instant) (xs : List Outcome) (x : Outcome) :
    after created (xs ++ [x]) = (after created xs).hear x :=
  List.foldl_append

/-- The count is the streak, as far as it goes. -/
theorem failures_after (created : Instant) (xs : List Outcome) :
    (after created xs).failures = min (streak xs) maxFailures := by
  induction xs using List.reverseRecOn with
  | nil => rfl
  | append_singleton xs x ih =>
    rw [after_append_singleton, hear, streak_concat]
    cases x.success with
    | true => rfl
    | false =>
      rw [record_failure]
      simp only [ih, Bool.false_eq_true, if_false]
      omega

/-- **Health from the history.** -/
theorem after_concat (created : Instant) (xs : List Outcome) (x : Outcome) :
    after created (xs ++ [x]) =
      ⟨min (streak (xs ++ [x])) maxFailures,
        x.time + x.policy.interval x.draw (streak (xs ++ [x]))⟩ := by
  have hcount := failures_after created (xs ++ [x])
  rw [after_append_singleton, hear] at hcount ⊢
  cases hsuccess : x.success with
  | true =>
    rw [streak_concat, hsuccess]
    rfl
  | false =>
    rw [hsuccess, record_failure] at hcount
    dsimp only at hcount
    rw [record_failure, hcount, x.policy.interval_min x.draw (by decide)]

/-! ## When a replica may be tried -/

theorem available_after_concat {t : Instant} :
    (after created (xs ++ [x])).Available t ↔
      x.time + x.policy.interval x.draw (streak (xs ++ [x])) ≤ t := by
  rw [after_concat]
  rfl

/-- A replica has no failures exactly where it need not be left alone after its last outcome. -/
theorem failures_eq_zero_iff (hpositive : ∀ x ∈ xs, .zero < x.policy.shortest) :
    (after created xs).failures = 0 ↔ (after created xs).retryAt ≤ lastTime created xs := by
  induction xs using List.reverseRecOn with
  | nil => exact iff_of_true rfl (Nat.le_refl created.nanos)
  | append_singleton xs x _ =>
    have hlast : lastTime created (xs ++ [x]) = x.time := by
      rw [lastTime, List.getLast?_concat]
      rfl
    rw [hlast, after_concat, Instant.le_iff, Instant.nanos_add]
    dsimp only
    by_cases hstreak : streak (xs ++ [x]) = 0
    · rw [hstreak]
      exact iff_of_true (Nat.zero_min _) (Nat.le_refl _)
    · have haway := x.policy.interval_pos (hpositive x (by simp)) x.draw hstreak
      have hmost : maxFailures ≠ 0 := by decide
      rw [Duration.lt_iff, Duration.nanos_zero] at haway
      omega

/-! ## Health at a time -/

/-- The outcomes recorded by a time are a beginning of the history. -/
theorem asOf_eq_after (ordered : (xs ++ x :: rest).Pairwise (·.time ≤ ·.time)) {t : Instant}
    (since : x.time ≤ t) (next : ∀ y ∈ rest.head?, t < y.time) :
    asOf created (xs ++ x :: rest) t = after created (xs ++ [x]) := by
  obtain ⟨-, hrest, hbefore⟩ := List.pairwise_append.1 ordered
  obtain ⟨-, hrest⟩ := List.pairwise_cons.1 hrest
  have hxs : xs.filter (·.time ≤ t) = xs := by
    refine List.filter_eq_self.2 fun y hy => decide_eq_true ?_
    exact Nat.le_trans (hbefore y hy x List.mem_cons_self) since
  have hnone : rest.filter (·.time ≤ t) = [] := by
    refine List.filter_eq_nil_iff.2 fun y hy => ?_
    rw [decide_eq_true_eq]
    cases rest with
    | nil => exact absurd hy List.not_mem_nil
    | cons z rest =>
      have hz : t < z.time := next z rfl
      -- Whatever comes behind the next outcome is not before it.
      have hzy : z.time.nanos ≤ y.time.nanos := by
        rcases List.mem_cons.1 hy with rfl | hy
        · exact Nat.le_refl _
        · exact (List.pairwise_cons.1 hrest).1 y hy
      exact fun hyt => Nat.not_lt_of_le (Nat.le_trans hzy hyt) hz
  have hx : (x :: rest).filter (·.time ≤ t) = x :: rest.filter (·.time ≤ t) :=
    List.filter_cons_of_pos (decide_eq_true since)
  rw [asOf, List.filter_append, hxs, hx, hnone]

/-- **The health of a replica, from its history.**  At every point of the history the count is the
number of failures since the last success, as far as the count goes, and it is zero exactly where
the replica may be tried at the time of the last outcome.  From an outcome to the next one the
health is what the outcome has left: after a success the replica may be tried, and after a failure
it is left alone for the interval that the policy of this failure has for its streak, which is not
longer than the longer one of the policy's bounds, and may be tried from then on. -/
theorem health_of_history (created : Instant) (xs : List Outcome)
    (ordered : xs.Pairwise (·.time ≤ ·.time)) (positive : ∀ x ∈ xs, .zero < x.policy.shortest) :
    (∀ before, before <+: xs →
      (after created before).failures = min (streak before) maxFailures ∧
      ((after created before).failures = 0 ↔
        (after created before).retryAt ≤ lastTime created before)) ∧
    ∀ before x rest, xs = before ++ x :: rest →
      (∀ t, x.time ≤ t → (∀ y ∈ rest.head?, t < y.time) →
        asOf created xs t = after created (before ++ [x])) ∧
      (x.success = true → ∀ t, x.time ≤ t → (after created (before ++ [x])).Available t) ∧
      (x.success = false →
        let away := x.policy.interval x.draw (streak before + 1)
        away ≤ max x.policy.shortest x.policy.longest ∧
        ∀ t, x.time ≤ t → ((after created (before ++ [x])).Available t ↔ x.time + away ≤ t)) := by
  refine ⟨fun before hbefore => ⟨failures_after created before, ?_⟩, fun before x rest hxs => ?_⟩
  · exact failures_eq_zero_iff fun x hx => positive x (hbefore.subset hx)
  · subst hxs
    refine ⟨fun t => asOf_eq_after ordered, fun hsuccess t ht => ?_,
      fun hfailure => ⟨?_, fun t _ => ?_⟩⟩
    · rw [available_after_concat, streak_concat, if_pos hsuccess]
      exact ht
    · exact (x.policy.bounds_spreadInterval _ (Nat.succ_ne_zero _)).2
    · rw [available_after_concat, streak_concat, hfailure, if_neg Bool.false_ne_true]

/-- Two failures under different policies, the second one while the first still keeps the replica
away, then a success and another failure. -/
def troubled : List Outcome :=
  let patient := BackoffPolicy.steady (.ofSecs 30) (.ofSecs 600)
  let hasty := BackoffPolicy.steady (.ofSecs 1) (.ofSecs 4)
  [⟨false, .ofMillis 1000, patient, .middle⟩, ⟨false, .ofMillis 2000, hasty, .middle⟩,
    ⟨true, .ofMillis 3000, hasty, .middle⟩, ⟨false, .ofMillis 9000, patient, .middle⟩]

/-- The second failure keeps the replica away for two seconds, though the first one had asked for
thirty.  A success ends that after one second, and the failure behind it counts as a first one. -/
theorem health_of_troubled :
    (troubled.Pairwise (·.time ≤ ·.time) ∧ ∀ x ∈ troubled, .zero < x.policy.shortest) ∧
      (after .start (troubled.take 2)).failures = 2 ∧
      (¬ (asOf .start troubled (.ofMillis 2999)).Available (.ofMillis 2999)) ∧
      (asOf .start troubled (.ofMillis 3000)).Available (.ofMillis 3000) ∧
      ¬ (asOf .start troubled (.ofMillis 38999)).Available (.ofMillis 38999) ∧
      (asOf .start troubled (.ofMillis 39000)).Available (.ofMillis 39000) := by
  have ordered : troubled.Pairwise (·.time ≤ ·.time) := by decide
  have positive : ∀ x ∈ troubled, .zero < x.policy.shortest := by decide
  obtain ⟨hcounts, houtcomes⟩ := health_of_history .start troubled ordered positive
  obtain ⟨hsecond, -, haway⟩ := houtcomes (troubled.take 1) _ _ rfl
  obtain ⟨hthird, hback, -⟩ := houtcomes (troubled.take 2) _ _ rfl
  obtain ⟨hlast, -, hagain⟩ := houtcomes (troubled.take 3) _ _ rfl
  refine ⟨⟨ordered, positive⟩, (hcounts _ (List.take_prefix 2 _)).1, ?_, ?_, ?_, ?_⟩
  · rw [hsecond _ (by decide) (by decide), (haway rfl).2 _ (by decide)]
    decide
  · rw [hthird _ (by decide) (by decide)]
    exact hback rfl _ (by decide)
  · rw [hlast _ (by decide) (by decide), (hagain rfl).2 _ (by decide)]
    decide
  · rw [hlast _ (by decide) (by decide), (hagain rfl).2 _ (by decide)]
    decide

end Health
end ReplicatedConfig
