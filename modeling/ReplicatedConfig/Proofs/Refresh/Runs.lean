import ReplicatedConfig.Proofs.Failover.Replies
import ReplicatedConfig.Proofs.Watch

/-!
# Runs of an operation

An operation in phases is driven from outside: whatever reaches it is handled, and between
two of its steps other operations change the provider.  `Stepping` names the two functions
that this takes, and `Stepping.Runs` the results that an operation can come to, given which
replies may come in and what may happen elsewhere.

What may happen elsewhere is a relation between providers.  The weakest one used is
`Provider.SameRules`: it keeps what a load depends on and lets everything else change.
-/

namespace ReplicatedConfig

/-! ## What may happen elsewhere -/

/-- What a load depends on, besides the replies, is the same. -/
structure Provider.SameRules (p q : Provider) : Prop where
  options : q.options = p.options
  pipeline : q.pipeline = p.pipeline
  identities : q.watchList.identities = p.watchList.identities

namespace Provider

variable {p q r : Provider}

theorem SameRules.refl (p : Provider) : p.SameRules p := ⟨rfl, rfl, rfl⟩

theorem SameRules.trans (hq : p.SameRules q) (hr : q.SameRules r) : p.SameRules r :=
  ⟨hr.options.trans hq.options, hr.pipeline.trans hq.pipeline, hr.identities.trans hq.identities⟩

theorem Called.sameRules (h : p.Called q) : p.SameRules q :=
  ⟨h.options, h.pipeline, congrArg WatchList.identities h.watchList⟩

end Provider

/-! ## What an operation can come to -/

/-- How an operation in phases `μ` takes its steps, and what it waits for. -/
structure Stepping (μ α : Type) where
  handle : Bool → Provider → μ → Input → Provider × Stage μ α
  waits : Provider → μ → List Wait

/-- The steps of a reload. -/
def Reload.stepping (me : TaskId) : Stepping Reload Unit where
  handle cancelled p r i := r.handle me cancelled p i
  waits p r := r.waits me p

/-- The steps of a pass. -/
def Pass.stepping (me : TaskId) : Stepping Pass Report where
  handle cancelled p s i := s.handle me cancelled p i
  waits p s := s.waits me p

namespace Stepping

variable {μ α : Type}

/-- What an operation that stands at `x` can come to. -/
inductive Runs (o : Stepping μ α) (answers : Replies) (elsewhere : Provider → Provider → Prop)
    (x : Provider × Stage μ α) : Provider × Stage μ α → Prop where
  | start : Runs o answers elsewhere x x
  | step {p q : Provider} {phase : μ} (before : Runs o answers elsewhere x (p, .running phase))
      (moved : elsewhere p q) (cancelled : Bool) {i : Input}
      (admitted : i.Admitted answers (o.waits q phase)) :
      Runs o answers elsewhere x (o.handle cancelled q phase i)

/-- An operation goes on with one input after the other, for as long as it runs. -/
def play (o : Stepping μ α) (turn : List Wait → Input) :
    Nat → Provider × Stage μ α → Provider × Stage μ α
  | 0, x => x
  | _ + 1, (p, .finished r) => (p, .finished r)
  | n + 1, (p, .running phase) => play o turn n (o.handle false p phase (turn (o.waits p phase)))

/-- Whatever an operation is told that may come in, it comes to something that it can come
to. -/
theorem runs_play (o : Stepping μ α) {answers : Replies} {elsewhere : Provider → Provider → Prop}
    (refl : ∀ p, elsewhere p p) {turn : List Wait → Input}
    (admitted : ∀ waits, (turn waits).Admitted answers waits) (n : Nat) {x y : Provider × Stage μ α}
    (h : o.Runs answers elsewhere x y) : o.Runs answers elsewhere x (o.play turn n y) := by
  induction n generalizing y with
  | zero => exact h
  | succ n ih =>
    obtain ⟨p, phase | r⟩ := y
    · exact ih (.step h (refl p) false (admitted _))
    · exact h

end Stepping

end ReplicatedConfig
