import ReplicatedConfig.Refresh.Poller
import ReplicatedConfig.Refresh.Startup

/-!
# Operations side by side

The engine is a provider and the operations that are under way on it.  All that happens
comes in as an `Event`, and `Engine.handle` says what it makes of the engine: a run is a
list of events, and every interleaving of operations is such a list.

## Events that do not fit

An event that nothing waits for changes nothing: a reply to a request of a call that has
ended, a timer that has not run out, a second answer to the same request.  So a list of
events needs no side conditions to be a run.

## What the engine waits for

`Engine.waits` lists, in order, what each operation waits for.  Whoever drives the engine
finds there the requests to make, the timers to keep and the operations that can go on by
themselves.
-/

namespace ReplicatedConfig

/-- What an operation is to do. -/
inductive Operation where
  | fetch (identity : Identity)
  | check (identity : Identity) (known : Option Token)
  | list (selectors : List Selector)
  | load
  | refresh
  /-- Look replicas up again, if it is time for that. -/
  | rediscover
  /-- Refresh in the background once per period, which must not be zero. -/
  | poll (period : Duration)

/-- What came of an operation. -/
inductive Result where
  | fetched (r : Except FailoverError (Option Setting))
  | checked (r : Except FailoverError Verdict)
  | listed (r : Except FailoverError (List Setting × Member))
  | loaded (r : Except ProviderError Unit)
  | refreshed (r : Except ProviderError Report)
  | rediscovered (changed : Bool)
  | stopped

/-- An operation and how far it has come. -/
inductive Job where
  | fetch (call : Call Identity)
  | check (call : Call (Identity × Option Token))
  | list (call : Call Listing)
  | load (startup : Startup)
  | refresh (pass : Pass)
  | rediscover
  | poll (poller : Poller)
  | ended (result : Result)

/-- An operation with its number, and whether its caller has given it up. -/
structure Task where
  id : TaskId
  cancelled : Bool
  job : Job

/-- Something that happens. -/
inductive Event where
  /-- An operation starts, given up already or not. -/
  | start (id : TaskId) (op : Operation) (cancelled : Bool)
  /-- The caller of an operation gives up and waits for it to end. -/
  | cancel (id : TaskId)
  /-- The caller of an operation drops it where it stands. -/
  | abandon (id : TaskId)
  /-- An operation goes on by itself. -/
  | resume (id : TaskId)
  /-- A replica replies to a request. -/
  | answer (ticket : Ticket) (reply : Except StoreError Reply)
  /-- The interval of a call is over. -/
  | fallback (call : Nat)
  /-- A pause of an operation is over. -/
  | wake (id : TaskId)
  /-- The lookup of an operation has ended. -/
  | lookedUp (id : TaskId) (refusals : Refusals) (found : Option (List Endpoint))
  /-- Time goes by. -/
  | advance (d : Duration)
  /-- The next draw is known. -/
  | drew (d : Draw)
  /-- A key is watched. -/
  | watch (r : WatchRequest)
  /-- Every key is to be looked at soon; `draws` gives the milliseconds for each place. -/
  | setDirty (most : Duration) (draws : Nat → Nat)
  /-- The rules for falling over are replaced. -/
  | configure (c : FailoverConfig)
  /-- The found replicas are replaced. -/
  | replaceFound (refusals : Refusals) (found : List Endpoint)

/-- A provider and the operations that are under way on it. -/
structure Engine where
  provider : Provider
  tasks : List Task

namespace Task

/-- A call of an operation by itself has come this far. -/
def ofProgress {σ α : Type} (wait : Call σ → Job) (done : Except FailoverError (α × Member) → Result) :
    Provider × Progress σ α → Provider × Job
  | (p, .waiting call) => (p, wait call)
  | (p, .returned r) => (p, .ended (done r))

/-- A read of one setting has come this far. -/
def ofFetch : Provider × Progress Identity (Option Setting) → Provider × Job :=
  ofProgress .fetch fun r => .fetched (Failover.settingOf r)

/-- A check of one token has come this far. -/
def ofCheck : Provider × Progress (Identity × Option Token) Verdict → Provider × Job :=
  ofProgress .check fun r => .checked (Failover.verdictOf r)

/-- A listing has come this far. -/
def ofList : Provider × Progress Listing (List Setting) → Provider × Job := ofProgress .list .listed

/-- A first load has come this far. -/
def ofLoad : Startup.Step → Provider × Job
  | (p, .running s) => (p, .load s)
  | (p, .finished r) => (p, .ended (.loaded r))

/-- A pass has come this far. -/
def ofPass : Pass.Step → Provider × Job
  | (p, .running s) => (p, .refresh s)
  | (p, .finished r) => (p, .ended (.refreshed r))

/-- A poller has come this far. -/
def ofPoll : Poller.Step → Provider × Job
  | (p, some s) => (p, .poll s)
  | (p, none) => (p, .ended .stopped)

/-- Starts an operation. -/
def begin (id : TaskId) (cancelled : Bool) (p : Provider) : Operation → Provider × Job
  | .fetch i => ofFetch (p.openCall .fetch i cancelled)
  | .check i known => ofCheck (p.openCall .check (i, known) cancelled)
  | .list selectors => ofList (p.openCall .list (Listing.start selectors) cancelled)
  | .load => ofLoad (Startup.begin id cancelled p)
  | .refresh => ofPass (Pass.begin id cancelled p)
  | .rediscover =>
    match p.pool.claimLookup p.now with
    | some pool => ({ p with pool }, .rediscover)
    | none => (p, .ended (.rediscovered false))
  | .poll period =>
    if cancelled ∨ period = .zero then (p, .ended .stopped) else ofPoll (Poller.begin p period)

/-- Something reaches an operation. -/
def handle (t : Task) (p : Provider) (i : Input) : Provider × Job :=
  match t.job with
  | .fetch call => ofFetch (p.drive .fetch call i)
  | .check call => ofCheck (p.drive .check call i)
  | .list call => ofList (p.drive .list call i)
  | .load s => ofLoad (s.handle t.id t.cancelled p i)
  | .refresh s => ofPass (s.handle t.id t.cancelled p i)
  | .poll s => ofPoll (s.handle t.id t.cancelled p i)
  | job => (p, job)

/-- The lookup of an operation has ended. -/
def lookedUp (t : Task) (p : Provider) (refusals : Refusals) (found : Option (List Endpoint)) :
    Provider × Job :=
  match t.job with
  | .rediscover =>
    let (pool, changed) := p.pool.applyLookup refusals found p.now
    ({ p with pool }, .ended (.rediscovered changed))
  | .poll s => ofPoll (s.lookedUp t.id t.cancelled p refusals found)
  | job => (p, job)

/-- Drops an operation where it stands. -/
def abandon (t : Task) (p : Provider) : Provider :=
  match t.job with
  | .load _ => p.release t.id
  | .refresh s => s.abandon t.id p
  | .poll s =>
    match s.doing with
    | .passing pass => pass.abandon t.id p
    | _ => p
  | _ => p

end Task

namespace Engine

/-- A provider with no operation under way. -/
def new (p : Provider) : Engine := ⟨p, []⟩

/-- The operation with a number. -/
def task? (e : Engine) (id : TaskId) : Option Task := e.tasks.find? (·.id = id)

/-- What came of an operation, if it has ended. -/
def result? (e : Engine) (id : TaskId) : Option Result :=
  match e.task? id with
  | some ⟨_, _, .ended r⟩ => some r
  | _ => none

/-- The engine with an operation as far as `step` takes it. -/
def stepTask (e : Engine) (id : TaskId) (step : Task → Provider → Provider × Job) : Engine :=
  match e.task? id with
  | none => e
  | some t =>
    let (provider, job) := step t e.provider
    ⟨provider, e.tasks.map fun u => if u.id = id then { u with job } else u⟩

/-- Something reaches every operation. -/
def driveAll (i : Input) : Provider → List Task → Provider × List Task
  | p, [] => (p, [])
  | p, t :: rest =>
    let (p, job) := t.handle p i
    let (p, rest) := driveAll i p rest
    (p, { t with job } :: rest)

/-- Something that belongs to one of the calls happens. -/
def drive (e : Engine) (i : Input) : Engine :=
  let (provider, tasks) := driveAll i e.provider e.tasks
  ⟨provider, tasks⟩

/-- Notes that an operation has been given up. -/
def markCancelled (e : Engine) (id : TaskId) : Engine :=
  { e with tasks := e.tasks.map fun t => if t.id = id then { t with cancelled := true } else t }

/-- Changes the provider by itself. -/
def update (e : Engine) (f : Provider → Provider) : Engine := { e with provider := f e.provider }

/-- What an event makes of the engine. -/
def handle (e : Engine) : Event → Engine
  | .start id op cancelled =>
    if (e.task? id).isSome then e
    else
      let (provider, job) := Task.begin id cancelled e.provider op
      ⟨provider, e.tasks ++ [⟨id, cancelled, job⟩]⟩
  | .cancel id => (e.markCancelled id).stepTask id fun t p => t.handle p .cancelled
  | .abandon id =>
    match e.task? id with
    | none => e
    | some t => ⟨t.abandon e.provider, e.tasks.filter (·.id ≠ id)⟩
  | .resume id => e.stepTask id fun t p => t.handle p .resumed
  | .answer ticket reply => e.drive (.answered ticket reply)
  | .fallback call => e.drive (.fallback call)
  | .wake id => e.stepTask id fun t p => t.handle p .woke
  | .lookedUp id refusals found => e.stepTask id fun t p => t.lookedUp p refusals found
  | .advance d => e.update fun p => { p with now := p.now + d }
  | .drew d => e.update fun p => { p with draw := d }
  | .watch r => e.update fun p => match p.watch r with
    | .ok p => p
    | .error _ => p
  | .setDirty most draws => e.update fun p =>
    { p with watchList := p.watchList.setDirty p.now most draws }
  | .configure c => e.update fun p => p.configure c
  | .replaceFound refusals found => e.update fun p =>
    match p.pool.replaceFound refusals found p.now with
    | .ok (pool, _) => { p with pool }
    | .error _ => p

/-- A run of events. -/
def run (e : Engine) (events : List Event) : Engine := events.foldl handle e

end Engine

/-- Something that an operation waits for. -/
inductive Wait where
  /-- Nothing from outside: it can go on. -/
  | ready
  | reply (o : Outstanding)
  | fallback (call : Nat) (time : Instant)
  | sleep (time : Instant)
  | lookup

/-- What a call waits for: its replies, and then its next start. -/
def Call.waits {σ α : Type} (c : Call σ) (k : Conversation σ α) : List Wait :=
  (c.outstanding k).map .reply ++ (c.fallbackAt?.map (.fallback c.serial)).toList

/-- What a reload waits for. -/
def Reload.waits (me : TaskId) (p : Provider) : Reload → List Wait
  | .waiting => if p.lock.isHeldBy me then [.ready] else []
  | .listing call => call.waits .list
  | .fetching _ _ _ call => call.waits .fetch
  | .adapting .. => [.ready]

/-- What a check waits for. -/
def Check.waits : Check → List Wait
  | .ready _ => [.ready]
  | .checking _ _ call => call.waits .check
  | .fetching _ _ call => call.waits .fetch
  | .finished _ => []

/-- What a merge waits for. -/
def Merge.waits (me : TaskId) (p : Provider) : Merge → List Wait
  | .waiting .. => if p.lock.isHeldBy me then [.ready] else []
  | .adapting .. => [.ready]

/-- What a pass waits for. -/
def Pass.waits (me : TaskId) (p : Provider) : Pass → List Wait
  | .loading r => r.waits me p
  | .checking checks => checks.flatMap Check.waits
  | .reloading _ r => r.waits me p
  | .merging _ m => m.waits me p

/-- What an operation waits for, in order. -/
def Task.waits (t : Task) (p : Provider) : List Wait :=
  match t.job with
  | .fetch call => call.waits .fetch
  | .check call => call.waits .check
  | .list call => call.waits .list
  | .load s =>
    match s.phase with
    | .inl r => r.waits t.id p
    | .inr time => [.sleep time]
  | .refresh s => s.waits t.id p
  | .rediscover => [.lookup]
  | .poll s =>
    match s.doing with
    | .idle => [.sleep s.nextTick]
    | .lookingUp => [.lookup]
    | .passing pass => pass.waits t.id p
  | .ended _ => []

end ReplicatedConfig
