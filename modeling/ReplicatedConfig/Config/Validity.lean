import ReplicatedConfig.Config
import ReplicatedConfig.Endpoint
import ReplicatedConfig.Provider
import ReplicatedConfig.Watch

/-!
# Valid configurations

`Config.check` looks for the first fault of a configuration, in a fixed order: the
endpoints and the origin, the numbers, the selectors, the watched keys in their order,
and the form of the log.  What a valid configuration stands for is below: endpoints,
options, requests to watch keys, lengths of time.
-/

namespace ReplicatedConfig

/-- What is wrong with a configuration. -/
inductive ConfigFault where
  | noEndpoints
  | endpoint (raw : String) (e : Url.ParseError)
  | origin (raw : String) (e : Url.ParseError)
  | noParallelRetry
  | noMinBackoff
  | backoffOrder (minSecs maxSecs : UInt64)
  | jitter
  | noPollInterval
  | noSelectors
  | expiration (identity : Identity)
  | watchedTwice (identity : Identity)
  | logFormat
  deriving DecidableEq

/-- What the fault says. -/
def ConfigFault.message : ConfigFault → String
  | .noEndpoints => "No store endpoints configured"
  | .endpoint raw e => "Invalid store endpoint " ++ raw ++ ": " ++ e.message
  | .origin raw e => "Invalid discovery origin " ++ raw ++ ": " ++ e.message
  | .noParallelRetry => "Parallel retry interval must be greater than 0"
  | .noMinBackoff => "Minimum backoff must be greater than 0"
  | .backoffOrder lo hi =>
    "Minimum backoff (" ++ toString lo ++ "s) exceeds maximum backoff (" ++ toString hi ++ "s)"
  | .jitter => "Jitter factor must be between 0.0 and 1.0"
  | .noPollInterval => "Refresh poll interval must be greater than 0"
  | .noSelectors => "At least one selector is required"
  | .expiration identity =>
    "Cache expiration for watched key " ++ identity.text ++ " must be at least 1s"
  | .watchedTwice identity => "Watched key " ++ identity.text ++ " is registered more than once"
  | .logFormat => "Logging format must be 'json' or 'pretty'"

/-- The wish that a watched key of the configuration stands for. -/
def WatchConfig.request (w : WatchConfig) : WatchRequest :=
  ⟨w.identity, .ofSecs w.expirationSecs, w.refreshAll⟩

namespace Config

/-- The configured endpoints in order. -/
def endpointList (c : Config) : Except ConfigFault (List Endpoint) :=
  c.endpoints.mapM fun raw => (Endpoint.parse raw).mapError (.endpoint raw)

/-- The endpoint whose replicas are looked up, where lookups are enabled and one is
given. -/
def originEndpoint (c : Config) : Except ConfigFault (Option Endpoint) :=
  match c.discovery.enabled, c.discovery.origin with
  | true, some raw => ((Endpoint.parse raw).mapError (.origin raw)).map some
  | _, _ => .ok none

/-- Whether there is an endpoint to start from. -/
def hasEndpoint (c : Config) : Bool :=
  !c.endpoints.isEmpty || (c.discovery.enabled && c.discovery.origin.isSome)

/-- The first watched key that cannot be watched; `seen` are those before it. -/
def watchFault? (seen : List Identity) : List WatchConfig → Option ConfigFault
  | [] => none
  | w :: rest =>
    if w.request.expiration < minExpiration then some (.expiration w.identity)
    else if w.identity ∈ seen then some (.watchedTwice w.identity)
    else watchFault? (w.identity :: seen) rest

/-- The first fault of a configuration. -/
def check (c : Config) : Except ConfigFault Unit := do
  if !c.hasEndpoint then throw .noEndpoints
  let _ ← c.endpointList
  let _ ← c.originEndpoint
  if c.failover.parallelRetryMillis = 0 then throw .noParallelRetry
  if c.failover.minBackoffSecs = 0 then throw .noMinBackoff
  if c.failover.maxBackoffSecs < c.failover.minBackoffSecs then
    throw (.backoffOrder c.failover.minBackoffSecs c.failover.maxBackoffSecs)
  if ¬(0.0 ≤ c.failover.jitter ∧ c.failover.jitter ≤ 1.0) then throw .jitter
  if c.refresh.pollMillis = 0 then throw .noPollInterval
  if c.selectors.isEmpty then throw .noSelectors
  match watchFault? [] c.refresh.watches with
  | some fault => throw fault
  | none => pure ()
  if c.logging.format ≠ "json" ∧ c.logging.format ≠ "pretty" then throw .logFormat

/-- How a load is to be done. -/
def loadOptions (c : Config) : LoadOptions :=
  ⟨c.selectors, c.startup.optional, .ofSecs c.startup.timeoutSecs⟩

/-- How often the watched keys are looked at. -/
def pollInterval (c : Config) : Duration := .ofMillis c.refresh.pollMillis

/-- The shortest time between two lookups. -/
def lookupInterval (c : Config) : Duration := .ofSecs c.discovery.intervalSecs

end Config

end ReplicatedConfig
