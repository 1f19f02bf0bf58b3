import ReplicatedConfig.Proofs.Failover.Replies

/-!
# What a call keeps from its start

A call bears the number that it was given when it was opened, and keeps the policy that held
then.  Both stay as they are for as long as it waits (`from_drive`): attempts come and go, and
nothing that happens to the provider meanwhile reaches them.  So a ticket belongs to a call
from its first request to its last, and a failure is judged by the rules of the start.
-/

namespace ReplicatedConfig

variable {σ α : Type}

/-- A call that waits was opened with this number, under this policy. -/
def Progress.From (serial : Nat) (policy : BackoffPolicy) : Progress σ α → Prop
  | .waiting c => c.serial = serial ∧ c.policy = policy
  | .returned _ => True

namespace Call

variable {c : Call σ}

@[simp] theorem serial_launchNext (c : Call σ) (now : Instant) :
    (c.launchNext now).serial = c.serial := by
  unfold launchNext
  split <;> rfl

@[simp] theorem policy_launchNext (c : Call σ) (now : Instant) :
    (c.launchNext now).policy = c.policy := by
  unfold launchNext
  split <;> rfl

theorem from_proceed (c : Call σ) : (proceed c : Progress σ α).From c.serial c.policy := by
  unfold proceed
  split
  · trivial
  · exact ⟨rfl, rfl⟩

theorem from_complete (c : Call σ) (m : Member) (result : Except StoreError α) (now : Instant) :
    (c.complete m result now).progress.From c.serial c.policy := by
  cases result with
  | ok value => trivial
  | error e =>
    cases he : e.failureClass with
    | retryable =>
      simp only [complete, he]
      have hfrom := from_proceed (α := α) ({ c.drop m.id with lastError := some e }.launchNext now)
      rwa [serial_launchNext, policy_launchNext] at hfrom
    | notFound => simp only [complete, he, Progress.From]
    | nonRetryable => simp only [complete, he, Progress.From]
    | cancelled => simp only [complete, he, Progress.From]

theorem from_hear (c : Call σ) (k : Conversation σ α) (ticket : Ticket)
    (reply : Except StoreError Reply) (now : Instant) :
    (c.hear k ticket reply now).progress.From c.serial c.policy := by
  unfold hear
  split
  · exact ⟨rfl, rfl⟩
  · split
    · exact from_complete c _ _ now
    · split
      · exact ⟨rfl, rfl⟩
      · exact ⟨rfl, rfl⟩
      · exact from_complete c _ _ now

theorem from_opening (c : Call σ) (k : Conversation σ α) (now : Instant) :
    (c.opening k now).progress.From c.serial c.policy := by
  unfold opening
  split
  · exact from_proceed c
  · split
    · exact from_complete c _ _ _
    · exact ⟨rfl, rfl⟩

end Call

namespace Provider

/-- A call starts with the next number, under the policy of the pool. -/
theorem from_openCall (p : Provider) (k : Conversation σ α) (fresh : σ) (cancelled : Bool) :
    (p.openCall k fresh cancelled).2.From p.calls p.pool.policy := by
  unfold openCall
  split
  · trivial
  · have hopening := Call.from_opening (Call.start p.calls p.failover.interval p.pool.policy
      (p.pool.candidates p.now) fresh p.now) k p.now
    rwa [Call.start, Call.serial_launchNext, Call.policy_launchNext] at hopening

/-- **A call that goes on waiting keeps its number and its policy.** -/
theorem from_drive (p : Provider) (k : Conversation σ α) (c : Call σ) (i : Input) :
    (p.drive k c i).2.From c.serial c.policy := by
  cases i with
  | answered ticket reply => exact Call.from_hear c k ticket reply p.now
  | fallback serial =>
    rw [drive]
    split
    · rcases c.fallBack_cases (α := α) p.now with hback | hback <;> simp only [take, hback]
      · exact ⟨c.serial_launchNext p.now, c.policy_launchNext p.now⟩
      · exact ⟨rfl, rfl⟩
    · exact ⟨rfl, rfl⟩
  | cancelled => trivial
  | resumed => exact ⟨rfl, rfl⟩
  | woke => exact ⟨rfl, rfl⟩

/-! ## How many calls have been opened -/

theorem calls_apply (p : Provider) (e : Effect) : (p.apply e).calls = p.calls := by
  cases e <;> rfl

theorem calls_take (p : Provider) (t : Turn σ α) : (p.take t).1.calls = p.calls := by
  show (t.effects.foldl apply p).calls = p.calls
  generalize t.effects = effects
  induction effects generalizing p with
  | nil => rfl
  | cons e rest ih => exact (ih (p.apply e)).trans (p.calls_apply e)

/-- Driving a call opens none. -/
theorem calls_drive (p : Provider) (k : Conversation σ α) (c : Call σ) (i : Input) :
    (p.drive k c i).1.calls = p.calls := by
  cases i with
  | answered ticket reply => exact p.calls_take _
  | fallback serial =>
    rw [drive]
    split
    · exact p.calls_take _
    · rfl
  | cancelled => rfl
  | resumed => rfl
  | woke => rfl

/-- A call that waits has been counted. -/
theorem calls_openCall (p : Provider) (k : Conversation σ α) (fresh : σ) (cancelled : Bool) :
    p.calls ≤ (p.openCall k fresh cancelled).1.calls ∧
      ∀ c, (p.openCall k fresh cancelled).2 = .waiting c →
        c.serial < (p.openCall k fresh cancelled).1.calls := by
  have hfrom := p.from_openCall k fresh cancelled
  unfold openCall at hfrom ⊢
  split
  · exact ⟨Nat.le_refl _, nofun⟩
  · next hgiven =>
    rw [if_neg hgiven] at hfrom
    rw [calls_take]
    refine ⟨Nat.le_succ _, fun c hc => ?_⟩
    rw [hc] at hfrom
    rw [hfrom.1]
    exact Nat.lt_succ_self _

end Provider
end ReplicatedConfig
