import ReplicatedConfig.Refresh.Pass

/-!
# Refreshing in the background

A poller wakes once per period.  Each time it gives the pool a chance to look its
replicas up again and then runs a refresh pass, whose result nobody hears.  A pass that
takes longer than a period makes the next tick late; a late tick comes at once, and the
one after it a full period later.  A shutdown ends the pass that is under way and then
the poller.
-/

namespace ReplicatedConfig

/-- What a poller is doing. -/
inductive Polling where
  /-- Waits for the next tick. -/
  | idle
  /-- Looks replicas up. -/
  | lookingUp
  | passing (pass : Pass)

/-- A poller, when its next tick comes, and what it is doing. -/
structure Poller where
  period : Duration
  nextTick : Instant
  doing : Polling

namespace Poller

/-- A step's result: the provider, and the poller unless it has ended. -/
abbrev Step := Provider × Option Poller

/-- A tick may be this late without moving the ones after it. -/
def tolerance : Duration := .ofMillis 5

/-- When the tick after one that was due at `due` and came at `now` is due. -/
def tickAfter (period : Duration) (due now : Instant) : Instant :=
  if due + tolerance < now then now + period else due + period

/-- The pass has come this far. -/
def passed (cancelled : Bool) (p : Provider) (s : Poller) : Stage Pass Report → Step
  | .running pass => (p, some { s with doing := .passing pass })
  | .finished _ => (p, if cancelled then none else some { s with doing := .idle })

/-- Starts the pass of a tick. -/
def startPass (me : TaskId) (cancelled : Bool) (p : Provider) (s : Poller) : Step :=
  let (p, pass) := Pass.begin me cancelled p
  passed cancelled p s pass

/-- A tick has come. -/
def tick (me : TaskId) (cancelled : Bool) (p : Provider) (s : Poller) : Step :=
  let s := { s with nextTick := tickAfter s.period s.nextTick p.now }
  match p.pool.claimLookup p.now with
  | some pool => ({ p with pool }, some { s with doing := .lookingUp })
  | none => startPass me cancelled p s

/-- Starts a poller.  The first tick is at the start and does nothing. -/
def begin (p : Provider) (period : Duration) : Step := (p, some ⟨period, p.now + period, .idle⟩)

/-- Something reaches a poller. -/
def handle (me : TaskId) (cancelled : Bool) (p : Provider) (s : Poller) (i : Input) : Step :=
  match s.doing, i with
  | .idle, .cancelled => (p, none)
  | .idle, .woke => if s.nextTick ≤ p.now then tick me cancelled p s else (p, some s)
  | .passing pass, i =>
    let (p, pass) := pass.handle me cancelled p i
    passed cancelled p s pass
  | _, _ => (p, some s)

/-- A lookup has ended. -/
def lookedUp (me : TaskId) (cancelled : Bool) (p : Provider) (s : Poller) (refusals : Refusals)
    (found : Option (List Endpoint)) : Step :=
  match s.doing with
  | .lookingUp => startPass me cancelled { p with pool := (p.pool.applyLookup refusals found p.now).1 } s
  | _ => (p, some s)

end Poller

end ReplicatedConfig
