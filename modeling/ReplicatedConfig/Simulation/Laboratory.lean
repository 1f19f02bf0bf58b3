import ReplicatedConfig.Clock
import ReplicatedConfig.Simulation.World

/-!
# A provider in a simulated world

A `Laboratory` is an engine in a world.  It does what the engine waits for: it begins the
store calls that the engine asks for, keeps each of them until its time has come, answers
it, looks replicas up, and lets timers run out.

## Calls in transit

The calls in transit are always those that the engine waits for.  When an attempt is
dropped, its call is dropped with it, and the world never hears of it again.

## The clock

The clock stands still while anything can go on, and then jumps to the next time at which
something can.  So a run takes no time but the one that its delays and timers ask for.

A laboratory notes when an instant is computed that the clock cannot show.  What comes of the
run after that says nothing.
-/

namespace ReplicatedConfig
namespace Simulation

/-- A call that has begun and not ended. -/
structure Transit where
  ticket : Ticket
  host : String
  request : Request
  due : Instant

/-- An engine in a world. -/
structure Laboratory where
  world : World
  engine : Engine
  transit : List Transit
  /-- How many operations have been started. -/
  started : Nat
  /-- How often to refresh in the background. -/
  pollInterval : Duration
  /-- The operation that refreshes in the background. -/
  poller : Option TaskId
  /-- The receivers of snapshots by name. -/
  receivers : List (String × Nat)
  /-- Snapshots that somebody has kept. -/
  snapshots : List (String × Snapshot)
  /-- Lists of members that somebody has kept. -/
  members : List (String × List Member)
  /-- Whether an instant has been computed that the clock cannot show. -/
  overrun : Bool

namespace Laboratory

/-- A provider that has just been built. -/
def new (world : World) (provider : Provider) (pollInterval : Duration) : Laboratory where
  world
  engine := .new provider
  transit := []
  started := 0
  pollInterval
  poller := none
  receivers := []
  snapshots := []
  members := []
  overrun := false

/-- Builds a provider in a world, with or without anybody to create clients and with or
without looking replicas up.  One subscriber hears of its snapshots.  Nothing is built where
watching the keys takes an instant that the clock cannot show. -/
def build (world : World) (b : Blueprint) (clients looksUp : Bool) :
    Option (Except BuildError Laboratory) :=
  let built := b.build (if clients then some world.store.refusals else none)
    (if looksUp then some fun _ => world.directory.found else none) .start
  match built with
  | .error (.watch e) => if b.Shows .start then some (.error (.watch e)) else none
  | .error e => some (.error e)
  | .ok p =>
    if b.Shows .start then
      let directory := if looksUp then world.directory.note p.pool.origin else world.directory
      some (.ok (new { world with directory } { p with publisher := p.publisher.addSubscriber }
        b.pollInterval))
    else none

variable (l : Laboratory)

/-- The provider as it is. -/
def provider : Provider := l.engine.provider

/-- What time it is. -/
def now : Instant := l.provider.now

/-- Why no client can be created, as things are. -/
def refusals : Refusals := l.world.store.refusals

/-- Changes the directory. -/
def changeDirectory (f : Directory → Directory) : Laboratory :=
  { l with world := { l.world with directory := f l.world.directory } }

/-- Changes the provider from outside. -/
def changeProvider (f : Provider → Provider) : Laboratory :=
  let engine := l.engine.update f
  { l with engine, overrun := l.overrun || engine.dates.any fun t => !decide t.Fits }

/-- The requests that the engine waits for. -/
def outstanding : List Outstanding :=
  l.engine.tasks.flatMap fun t => (t.waits l.provider).filterMap fun
    | .reply o => some o
    | _ => none

/-- Begins the call of a request, if it has not begun. -/
def dispatchOne (o : Outstanding) : Laboratory :=
  if l.transit.any (·.ticket = o.ticket) then l
  else
    let host := o.member.endpoint.host
    let (store, delay) := l.world.store.begin l.now host o.request
    { l with
      world := { l.world with store }
      transit := l.transit ++ [⟨o.ticket, host, o.request, l.now + delay⟩] }

/-- Drops the calls that the engine does not wait for any more and begins the new ones. -/
def dispatch : Laboratory :=
  let open' := l.outstanding
  let kept := l.transit.filter fun c => open'.any (·.ticket = c.ticket)
  open'.foldl dispatchOne { l with transit := kept }

/-- Something happens. -/
def happen (e : Event) : Laboratory :=
  dispatch { l with engine := l.engine.handle e, overrun := l.overrun || !decide (l.engine.Shows e) }

/-- Whether what an operation waits for has come. -/
def hasCome : Wait → Bool
  | .ready | .lookup => true
  | .reply o => l.transit.any fun c => c.ticket = o.ticket ∧ c.due ≤ l.now
  | .fallback _ time | .sleep time => decide (time ≤ l.now)

/-- When what an operation waits for comes; nothing where it has no time of its own. -/
def timeOf : Wait → Option Instant
  | .ready | .lookup => none
  | .reply o => (l.transit.find? (·.ticket = o.ticket)).map (·.due)
  | .fallback _ time | .sleep time => some time

/-- Gives an operation what it waits for. -/
def serve (id : TaskId) : Wait → Laboratory
  | .ready => l.happen (.resume id)
  | .reply o =>
    let (store, reply) := l.world.store.answer l.now o.member.endpoint.host o.request
    { l with world := { l.world with store } }.happen (.answer o.ticket reply)
  | .fallback call _ => l.happen (.fallback call)
  | .sleep _ => l.happen (.wake id)
  | .lookup =>
    let l := l.changeDirectory (·.note l.provider.pool.origin)
    l.happen (.lookedUp id l.refusals l.world.directory.found)

/-- What an operation waits for and can have now, the first in its order. -/
def chance? (id : TaskId) : Option Wait :=
  (l.engine.task? id).bind fun t => (t.waits l.provider).find? l.hasCome

/-- Whether no operation can go on before the clock does. -/
def isQuiet : Bool := l.engine.tasks.all fun t => (l.chance? t.id).isNone

/-- The times at which operations can go on. -/
def times : List Instant :=
  l.engine.tasks.flatMap fun t => (t.waits l.provider).filterMap l.timeOf

/-- Starts an operation. -/
def start (op : Operation) (cancelled : Bool) : Laboratory × TaskId :=
  ({ l with started := l.started + 1 }.happen (.start l.started op cancelled), l.started)

/-- Starts to refresh in the background. -/
def startPolling : Laboratory :=
  let (l, id) := l.start (.poll l.pollInterval) false
  { l with poller := some id }

/-- The first whole millisecond that is not before an instant. -/
def wholeMillis (t : Instant) : Instant := .ofMillis ((t.nanos + nanosPerMilli - 1) / nanosPerMilli)

/-- Moves the clock, which shows whole milliseconds. -/
def advanceTo (t : Instant) : Laboratory :=
  l.happen (.advance (.ofNanos ((wholeMillis t).nanos - l.now.nanos)))

/-- An operation goes on as far as it can at this time, in at most `fuel` steps. -/
def exhaust : (fuel : Nat) → Laboratory → TaskId → Laboratory
  | 0, l, _ => l
  | fuel + 1, l, id =>
    match l.chance? id with
    | none => l
    | some w => exhaust fuel (l.serve id w) id

/-- Every operation goes on as far as it can at this time, one after the other. -/
def exhaustAll (fuel : Nat) : Laboratory :=
  l.engine.tasks.foldl (fun l t => exhaust fuel l t.id) l

end Laboratory

end Simulation
end ReplicatedConfig
