import ReplicatedConfig.Config.Validity

/-!
# Building a provider

A `Blueprint` collects what a provider is to be like.  It starts empty, or from a valid
configuration, and is changed field by field.

Building needs clients, which may be refused, and a lookup where replicas are to be found.
The parts are built in a fixed order and the first fault ends the building: the clients,
the pool, and the watched keys.
-/

namespace ReplicatedConfig

/-- What a provider is to be like. -/
structure Blueprint where
  endpoints : List Endpoint
  origin : Option Endpoint
  lookupInterval : Duration
  failover : FailoverConfig
  watches : List WatchRequest
  pipeline : Pipeline
  /-- If there are any, they replace those of the options. -/
  selectors : List Selector
  options : LoadOptions
  pollInterval : Duration

namespace Blueprint

/-- Nothing said yet. -/
def empty : Blueprint :=
  ⟨[], none, Pool.defaultLookupInterval, default, [], .empty, [], default, .ofSecs 1⟩

/-- What a configuration says, if it is valid. -/
def ofConfig (c : Config) : Except BuildError Blueprint :=
  let valid : Except ConfigFault Blueprint := do
    c.check
    return { empty with
      endpoints := ← c.endpointList
      origin := ← c.originEndpoint
      lookupInterval := c.lookupInterval
      failover := c.failover
      watches := c.refresh.watches.map WatchConfig.request
      pipeline := Pipeline.empty.withStems c.trimmed
      options := c.loadOptions
      pollInterval := c.pollInterval }
  valid.mapError fun fault => .invalidConfig fault.message

/-- How long an attempt may run before the next one starts beside it, in whole
milliseconds. -/
def withParallelRetry (b : Blueprint) (d : Duration) : Blueprint :=
  { b with failover := { b.failover with
      parallelRetryMillis := UInt64.ofNat (min (d.nanos / nanosPerMilli) (UInt64.size - 1)) } }

/-- The pool of a provider.  Without a lookup it has the configured endpoints only. -/
def pool (b : Blueprint) (refusals : Refusals) (lookup : Option (Endpoint → Option (List Endpoint)))
    (now : Instant) : Except PoolError Pool := do
  let pool ← match lookup with
    | none => Pool.new refusals b.endpoints b.failover.policy now
    | some lookup => do
      let origin ← Pool.originOf b.endpoints b.origin
      Pool.connect refusals b.endpoints origin (lookup origin) b.failover.policy now
  return { pool with lookupInterval := b.lookupInterval }

/-- The watched keys of a provider. -/
def watchList (b : Blueprint) (now : Instant) : Except WatchError WatchList :=
  b.watches.foldlM (fun l r => (l.register r now).map (·.1)) WatchList.empty

/-- Builds the provider. -/
def build (b : Blueprint) (clients : Option Refusals)
    (lookup : Option (Endpoint → Option (List Endpoint))) (now : Instant) :
    Except BuildError Provider := do
  let some refusals := clients | throw .missingClientFactory
  let pool ← (b.pool refusals lookup now).mapError .pool
  let watchList ← (b.watchList now).mapError .watch
  let options :=
    if b.selectors.isEmpty then b.options else { b.options with selectors := b.selectors }
  return Provider.new pool b.failover watchList b.pipeline options now

end Blueprint

end ReplicatedConfig
