import ReplicatedConfig.Simulation.Laboratory

/-!
# Scripts

A script is a list of steps that are taken one after the other in a laboratory.  A step
acts at once, lets time go by, runs an operation to its end, or does several things side
by side.  Each step gives an answer of a type that whoever writes the script chooses.

## Order at one instant

Steps side by side go on in the order of their list, each as far as it can, again and
again until none can go on.  An operation that is to be given up at an instant is given up
before anything else reaches it.  What goes on in the background does so only while a step
waits: a step that ends at once leaves it to the next one.
-/

namespace ReplicatedConfig
namespace Simulation

/-- A step of a script that answers in `α`. -/
inductive Step (α : Type) where
  /-- Something is done or looked at, which takes no time. -/
  | act (f : Laboratory → Laboratory × α)
  /-- Time goes by. -/
  | sleep (d : Duration) (answer : α)
  /-- An operation runs to its end, or until its caller gives it up some time after its
  start. -/
  | operate (op : Operation) (patience : Option Duration) (answer : Result → α)
  /-- Refreshing in the background is given up; whether there was any is answered once it
  has ended. -/
  | stopPolling (answer : Bool → α)
  /-- Steps side by side, each after some time; the times at which they end are told. -/
  | parallel (steps : List (Duration × Step α)) (answer : List (α × Instant) → α)

instance {α : Type} [Inhabited α] : Inhabited (Step α) := ⟨.sleep .zero default⟩

/-- A step that is being taken. -/
inductive Activity (α : Type) where
  /-- Its time has not come. -/
  | pending (start : Instant) (step : Step α)
  /-- Lets time go by. -/
  | sleeping (wake : Instant) (answer : α)
  /-- Waits for an operation, which may be given up at some time. -/
  | operating (id : TaskId) (giveUp : Option Instant) (answer : Result → α)
  /-- Waits for several activities. -/
  | branches (bs : List (Activity α)) (answer : List (α × Instant) → α)
  /-- Has ended. -/
  | done (answer : α) (time : Instant)

namespace Activity

variable {α : Type}

/-- The answer of an activity that has ended, and when it ended. -/
def answer? : Activity α → Option (α × Instant)
  | .done answer time => some (answer, time)
  | _ => none

mutual

/-- The times at which an activity can go on by itself. -/
def times : Activity α → List Instant
  | .pending start _ => [start]
  | .sleeping wake _ => [wake]
  | .operating _ giveUp _ => giveUp.toList
  | .branches bs _ => timesOfAll bs
  | .done .. => []

/-- The times at which one of several activities can go on by itself. -/
def timesOfAll : List (Activity α) → List Instant
  | [] => []
  | a :: rest => a.times ++ timesOfAll rest

end

/-- Begins a step. -/
def begin (l : Laboratory) : Step α → Laboratory × Activity α
  | .act f =>
    let (l, answer) := f l
    (l, .done answer l.now)
  | .sleep d answer => (l, .sleeping (l.now + d) answer)
  | .operate op patience answer =>
    let now := l.now
    let (l, id) := l.start op (patience == some .zero)
    (l, .operating id (patience.map (now + ·)) answer)
  | .stopPolling answer =>
    match l.poller with
    | none => (l, .done (answer false) l.now)
    | some id => ({ l with poller := none }.happen (.cancel id), .operating id none fun _ => answer true)
  | .parallel steps answer =>
    (l, .branches (steps.map fun (d, s) => .pending (l.now + d) s) answer)

/-- An activity goes on as far as it can at this time, in at most `fuel` steps. -/
def advance : (fuel : Nat) → Laboratory → Activity α → Laboratory × Activity α
  | 0, l, a => (l, a)
  | fuel + 1, l, a =>
    match a with
    | .pending start step =>
      if start ≤ l.now then
        let (l, a) := begin l step
        advance fuel l a
      else (l, a)
    | .sleeping wake answer => if wake ≤ l.now then (l, .done answer l.now) else (l, a)
    | .operating id giveUp answer =>
      match giveUp.filter (· ≤ l.now) with
      | some _ => advance fuel (l.happen (.cancel id)) (.operating id none answer)
      | none =>
        let l := l.exhaust fuel id
        match l.engine.result? id with
        | some result => (l.happen (.abandon id), .done (answer result) l.now)
        | none => (l, a)
    | .branches bs answer =>
      let (l, bs) := bs.foldl (fun (l, bs) b =>
        let (l, b) := advance fuel l b
        (l, bs ++ [b])) (l, [])
      match bs.mapM answer? with
      | some answers => (l, .done (answer answers) l.now)
      | none => (l, .branches bs answer)
    | .done .. => (l, a)

end Activity

/-- What came of a step, and what happened since the step before it. -/
structure Outcome (α : Type) where
  answer : α
  time : Instant
  /-- The store calls that began. -/
  calls : List StoreCall
  /-- The snapshots of which subscribers heard. -/
  deliveries : List Delivery

namespace Script

variable {α : Type}

/-- The next time at which anything can go on. -/
def nextTime? (l : Laboratory) (a : Activity α) : Option Instant := (a.times ++ l.times).min?

/-- What came of a step that has ended; `before` is the laboratory as it was when the last
step had ended. -/
def outcome (before l : Laboratory) (answer : α) (time : Instant) : Outcome α where
  answer
  time
  calls := l.world.store.calls.drop before.world.store.calls.length
  deliveries := l.provider.publisher.deliveries.drop before.provider.publisher.deliveries.length

/-- Everything goes on as far as it can, once: the step that is being taken, then, unless it
has ended, all operations, and the step again, which may have waited for one of them. -/
def settle (fuel : Nat) (l : Laboratory) (a : Activity α) : Laboratory × Activity α :=
  let (l, a) := a.advance fuel l
  match a with
  | .done .. => (l, a)
  | a => a.advance fuel (l.exhaustAll fuel)

/-- Plays the rest of a script while a step is being taken, in at most `fuel` jumps of the
clock and starts of steps.  Nothing comes of a script that takes an instant which the clock
cannot show. -/
def playOn : (fuel : Nat) → (before l : Laboratory) → Activity α → (rest : List (Step α)) →
    (outcomes : List (Outcome α)) → Option (List (Outcome α))
  | 0, _, _, _, _, outcomes => some outcomes.reverse
  | fuel + 1, before, l, a, rest, outcomes =>
    let (l, a) := settle fuel l a
    if l.overrun then none
    else match a.answer? with
    | some (answer, time) =>
      let outcomes := outcome before l answer time :: outcomes
      match rest with
      | [] => some outcomes.reverse
      | step :: rest => playOn fuel l l (.pending l.now step) rest outcomes
    | none =>
      if l.isQuiet then
        match nextTime? l a with
        | some t => playOn fuel before (l.advanceTo t) a rest outcomes
        | none => some outcomes.reverse
      else playOn fuel before l a rest outcomes

/-- More steps than any script takes that ends in a lifetime. -/
def patience : Nat := 1000000000000

/-- Plays a script. -/
def play (l : Laboratory) : List (Step α) → Option (List (Outcome α))
  | [] => some []
  | step :: rest => playOn patience l l (.pending l.now step) rest []

end Script

end Simulation
end ReplicatedConfig
