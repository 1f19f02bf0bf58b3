import ReplicatedConfig.Failover.Error
import ReplicatedConfig.Metrics
import ReplicatedConfig.Pool

/-!
# One call over several replicas

A call tries its candidates in order.  The first attempt starts at once.  The next one
starts when an attempt fails in a way that another replica might mend, or when the last
start is one interval ago and nothing has settled the call; a slow attempt keeps running
beside the new one.  The first answer that is not such a failure settles the call, and
the attempts still under way are dropped.

## What a call does to the rest of the world

Nothing by itself.  Each step gives a `Turn`: what the call has become, and the `Effect`s
on health and metrics that the step has.  An attempt that is dropped has no effect, since
it never gives a step.  The call keeps the interval and the policy that held when it
started.

`σ` is what an attempt keeps while it talks to its replica, `α` what a call is after.
-/

namespace ReplicatedConfig

/-- An attempt at a replica that is under way. -/
structure Attempt (σ : Type) where
  member : Member
  work : σ

/-- A call that waits for answers. -/
structure Call (σ : Type) where
  /-- Tells the calls of a provider apart. -/
  serial : Nat
  interval : Duration
  policy : BackoffPolicy
  /-- What every attempt starts with. -/
  fresh : σ
  /-- The candidates that have been tried, in the order of their starts. -/
  launched : List Member
  /-- The candidates that have not been tried. -/
  pending : List Member
  inFlight : List (Attempt σ)
  lastLaunch : Instant
  lastError : Option StoreError

/-- What a step of a call does outside of it. -/
inductive Effect where
  /-- An attempt has ended, at a time and under the policy of its call. -/
  | answered (member : Member) (outcome : AttemptOutcome) (time : Instant) (policy : BackoffPolicy)
  /-- A slow attempt made the next one start. -/
  | fellBack

/-- What has become of a call. -/
inductive Progress (σ α : Type) where
  | waiting (call : Call σ)
  | returned (result : Except FailoverError (α × Member))

/-- A step of a call. -/
structure Turn (σ α : Type) where
  effects : List Effect
  progress : Progress σ α

namespace Call

variable {σ α : Type}

/-- The error of a call that had nobody to ask. -/
def nobodyAsked : StoreError := .connection "no replica could be attempted"

/-- How a call ends that has no candidate left and no attempt under way. -/
def exhausted (c : Call σ) : FailoverError :=
  .exhausted c.launched.length (c.lastError.getD nobodyAsked)

/-- Tries the next candidate, if there is one. -/
def launchNext (c : Call σ) (now : Instant) : Call σ :=
  match c.pending with
  | [] => c
  | m :: rest =>
    { c with
      pending := rest
      launched := c.launched ++ [m]
      inFlight := c.inFlight ++ [⟨m, c.fresh⟩]
      lastLaunch := now }

/-- The call goes on while an attempt is under way. -/
def proceed (c : Call σ) : Progress σ α :=
  if c.inFlight.isEmpty then .returned (.error c.exhausted) else .waiting c

/-- A call over `candidates`. -/
def start (serial : Nat) (interval : Duration) (policy : BackoffPolicy) (candidates : List Member)
    (fresh : σ) (now : Instant) : Call σ :=
  launchNext ⟨serial, interval, policy, fresh, [], candidates, [], now, none⟩ now

/-- The call without the attempt at a member. -/
def drop (c : Call σ) (member : Nat) : Call σ :=
  { c with inFlight := c.inFlight.filter (·.member.id ≠ member) }

/-- The attempt at a member goes on with other work. -/
def continueWith (c : Call σ) (member : Nat) (work : σ) : Call σ :=
  { c with inFlight := c.inFlight.map fun a => if a.member.id = member then { a with work } else a }

/-- An attempt that was under way has ended. -/
def complete (c : Call σ) (m : Member) (result : Except StoreError α) (now : Instant) : Turn σ α :=
  let answered (outcome : AttemptOutcome) : List Effect := [.answered m outcome now c.policy]
  match result with
  | .ok value => ⟨answered .success, .returned (.ok (value, m))⟩
  | .error e =>
    let effects := answered (.failed e.failureClass)
    match e.failureClass with
    | .retryable => ⟨effects, proceed ({ c.drop m.id with lastError := some e }.launchNext now)⟩
    | .notFound => ⟨effects, .returned (.error (.notFound m.endpoint.text))⟩
    | .nonRetryable => ⟨effects, .returned (.error (.nonRetryable m.endpoint.text e))⟩
    | .cancelled => ⟨effects, .returned (.error .cancelled)⟩

/-- When the next candidate starts if nothing settles the call; nothing where there is
no candidate left. -/
def fallbackAt? (c : Call σ) : Option Instant :=
  if c.pending.isEmpty then none else some (c.lastLaunch + c.interval)

/-- Tries the next candidate beside the attempts under way, if it is time for that. -/
def fallBack (c : Call σ) (now : Instant) : Turn σ α :=
  match c.fallbackAt? with
  | some time => if time ≤ now then ⟨[.fellBack], .waiting (c.launchNext now)⟩ else ⟨[], .waiting c⟩
  | none => ⟨[], .waiting c⟩

@[simp] theorem launchNext_nil (c : Call σ) (now : Instant) (h : c.pending = []) :
    c.launchNext now = c := by
  simp [launchNext, h]

/-- Starting attempts moves candidates from one end of the list to the other. -/
theorem launched_append_pending_launchNext (c : Call σ) (now : Instant) :
    (c.launchNext now).launched ++ (c.launchNext now).pending = c.launched ++ c.pending := by
  unfold launchNext
  split
  · rfl
  · next h => simp [h]

end Call

end ReplicatedConfig
