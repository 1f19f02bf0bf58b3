import ReplicatedConfig.Refresh.Reload

/-!
# The first load

A first load is tried again after a failure that may pass, with a growing, spread pause
in between, as long as the next try would start before the startup time is over.  In
optional mode a load that failed in the end is taken as done, with nothing loaded; giving
up is an error in either mode.
-/

namespace ReplicatedConfig

/-- How long to pause between two tries. -/
def startupPolicy : BackoffPolicy := (BackoffPolicy.steady (.ofSecs 5) (.ofSecs 30)).withJitter 0.5

/-- How far a first load has come. -/
structure Startup where
  deadline : Instant
  /-- How many tries there have been, the current one included. -/
  tries : Nat
  /-- The current try, or when the pause after it ends. -/
  phase : Reload ⊕ Instant

namespace Startup

/-- A step's result: the provider, and the load or its end. -/
abbrev Step := Provider × Stage Startup Unit

/-- Ends a load: in optional mode without an error, unless it was given up. -/
def finish (p : Provider) : Except ProviderError Unit → Step
  | .ok () => (p, .finished (.ok ()))
  | .error e =>
    (p, .finished (if p.options.optional ∧ e.isCancelled = false then .ok () else .error e))

/-- A try has come this far. -/
def tried (p : Provider) (deadline : Instant) (tries : Nat) : Stage Reload Unit → Step
  | .running r => (p, .running ⟨deadline, tries, .inl r⟩)
  | .finished (.ok ()) => finish p (.ok ())
  | .finished (.error e) =>
    if e.isTransient then
      let next := p.now + startupPolicy.interval p.draw tries
      if deadline ≤ next then finish p (.error (.startupTimeout p.options.startupTimeout e))
      else (p, .running ⟨deadline, tries, .inr next⟩)
    else finish p (.error e)

/-- Starts a first load. -/
def begin (me : TaskId) (cancelled : Bool) (p : Provider) : Step :=
  let (q, r) := Reload.begin me cancelled p
  tried q (p.now + p.options.startupTimeout) 1 r

/-- Something reaches a first load. -/
def handle (me : TaskId) (cancelled : Bool) (p : Provider) (s : Startup) (i : Input) : Step :=
  match s.phase, i with
  | .inl r, i =>
    let (p, r) := r.handle me cancelled p i
    tried p s.deadline s.tries r
  | .inr _, .cancelled => finish p (.error .cancelled)
  | .inr wake, .woke =>
    if wake ≤ p.now then
      let (p, r) := Reload.begin me cancelled p
      tried p s.deadline (s.tries + 1) r
    else (p, .running s)
  | .inr _, _ => (p, .running s)

end Startup

end ReplicatedConfig
