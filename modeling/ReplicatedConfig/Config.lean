import ReplicatedConfig.Document.Reading
import ReplicatedConfig.Setting

/-!
# Configuration of a provider

A `Config` says which replicas there are, how requests fall over between them, which
settings to read, which keys to watch, and how a first load behaves.  Every field has a
default, so the empty document is a configuration, though not a valid one: it names no
endpoint.

`Config.read?` gives a document this meaning, under either `Reading`.  The names of the
fields are those of the configuration file.
-/

namespace ReplicatedConfig

open Document (Reading field? required?)

/-- How requests fall over between replicas. -/
structure FailoverConfig where
  /-- How long an attempt may run before the next replica is tried beside it, in
  milliseconds. -/
  parallelRetryMillis : UInt64
  minBackoffSecs : UInt64
  maxBackoffSecs : UInt64
  jitter : Float

namespace FailoverConfig

instance : Inhabited FailoverConfig := ⟨⟨5000, 30, 600, 0.0⟩⟩

/-- The fields in the order in which they are declared. -/
def fieldNames : List String :=
  ["parallel_retry_interval_ms", "min_backoff_seconds", "max_backoff_seconds", "jitter_factor"]

/-- Reads the rules for falling over. -/
def read? (r : Reading) (d : Document) : Option FailoverConfig := do
  let fs ← r.fields? fieldNames d
  return {
    parallelRetryMillis := ← field? fs "parallel_retry_interval_ms" 5000 r.uint?
    minBackoffSecs := ← field? fs "min_backoff_seconds" 30 r.uint?
    maxBackoffSecs := ← field? fs "max_backoff_seconds" 600 r.uint?
    jitter := ← field? fs "jitter_factor" 0.0 r.float? }

end FailoverConfig

/-- Whether and where replicas are looked up. -/
structure DiscoveryConfig where
  enabled : Bool
  /-- The endpoint whose replicas are looked up, if it is not the first one. -/
  origin : Option String
  intervalSecs : UInt64

namespace DiscoveryConfig

instance : Inhabited DiscoveryConfig := ⟨⟨false, none, 3600⟩⟩

/-- Reads how replicas are looked up. -/
def read? (r : Reading) (d : Document) : Option DiscoveryConfig := do
  let fs ← r.fields? ["enabled", "origin", "refresh_interval_seconds"] d
  return {
    enabled := ← field? fs "enabled" false r.bool?
    origin := ← field? fs "origin" none r.label?
    intervalSecs := ← field? fs "refresh_interval_seconds" 3600 r.uint? }

end DiscoveryConfig

/-- A key to watch. -/
structure WatchConfig where
  identity : Identity
  expirationSecs : UInt64
  /-- Whether a change of this key reloads everything. -/
  refreshAll : Bool

/-- Reads a key to watch. -/
def WatchConfig.read? (r : Reading) (d : Document) : Option WatchConfig := do
  let fs ← r.fields? ["key", "label", "cache_expiration_seconds", "refresh_all"] d
  let key ← required? fs "key" r.string?
  let label ← field? fs "label" none r.label?
  return {
    identity := ⟨key, label⟩
    expirationSecs := ← field? fs "cache_expiration_seconds" 30 r.uint?
    refreshAll := ← field? fs "refresh_all" false r.bool? }

/-- Reads the name of a setting. -/
def Identity.read? (r : Reading) (d : Document) : Option Identity := do
  let fs ← r.fields? ["key", "label"] d
  let key ← required? fs "key" r.string?
  return ⟨key, ← field? fs "label" none r.label?⟩

/-- Reads a selector. -/
def Selector.read? (r : Reading) (d : Document) : Option Selector := do
  let fs ← r.fields? ["key_filter", "label_filter"] d
  let pattern ← field? fs "key_filter" "*" r.string?
  return ⟨pattern, ← field? fs "label_filter" none r.label?⟩

/-- Reads a setting. -/
def Setting.read? (r : Reading) (d : Document) : Option Setting := do
  let fs ← r.fields? ["key", "label", "value", "content_type", "etag"] d
  return {
    key := ← required? fs "key" r.string?
    label := ← field? fs "label" none r.label?
    value := ← field? fs "value" none r.label?
    contentType := ← field? fs "content_type" none r.label?
    token := ← required? fs "etag" fun d => (r.string? d).map Token.mk }

/-- How often the watched keys are looked at, and which they are. -/
structure RefreshConfig where
  pollMillis : UInt64
  watches : List WatchConfig

instance : Inhabited RefreshConfig := ⟨⟨1000, []⟩⟩

/-- Reads what is watched. -/
def RefreshConfig.read? (r : Reading) (d : Document) : Option RefreshConfig := do
  let fs ← r.fields? ["poll_interval_ms", "watch"] d
  return {
    pollMillis := ← field? fs "poll_interval_ms" 1000 r.uint?
    watches := ← field? fs "watch" [] (Reading.list? (WatchConfig.read? r)) }

/-- How a first load behaves. -/
structure StartupConfig where
  timeoutSecs : UInt64
  /-- Whether to go on without configuration when it cannot be loaded. -/
  optional : Bool

instance : Inhabited StartupConfig := ⟨⟨100, false⟩⟩

/-- Reads how a first load behaves. -/
def StartupConfig.read? (r : Reading) (d : Document) : Option StartupConfig := do
  let fs ← r.fields? ["timeout_seconds", "optional"] d
  return {
    timeoutSecs := ← field? fs "timeout_seconds" 100 r.uint?
    optional := ← field? fs "optional" false r.bool? }

/-- What is logged and in which form. -/
structure LoggingConfig where
  level : String
  format : String

instance : Inhabited LoggingConfig := ⟨⟨"info", "pretty"⟩⟩

/-- Reads what is logged. -/
def LoggingConfig.read? (r : Reading) (d : Document) : Option LoggingConfig := do
  let fs ← r.fields? ["level", "format"] d
  return {
    level := ← field? fs "level" "info" r.string?
    format := ← field? fs "format" "pretty" r.string? }

/-- Reads the endpoints of the store. -/
def Config.readStore? (r : Reading) (d : Document) : Option (List String) := do
  let fs ← r.fields? ["endpoints"] d
  field? fs "endpoints" [] (Reading.list? r.string?)

/-- The configuration of a provider. -/
structure Config where
  /-- The configured endpoints, the primary first. -/
  endpoints : List String
  discovery : DiscoveryConfig
  failover : FailoverConfig
  /-- Read in order; a later selector overrides an earlier one. -/
  selectors : List Selector
  trimmed : List String
  refresh : RefreshConfig
  startup : StartupConfig
  logging : LoggingConfig

namespace Config

instance : Inhabited Config := ⟨⟨[], default, default, [.anyKey], [], default, default, default⟩⟩

/-- The sections in the order in which they are declared. -/
def sectionNames : List String :=
  ["store", "replica_discovery", "failover", "selectors", "trim_key_prefixes", "refresh",
    "startup", "logging"]

/-- Reads a whole configuration. -/
def read? (r : Reading) (d : Document) : Option Config := do
  let fs ← r.fields? sectionNames d
  return {
    endpoints := ← field? fs "store" [] (readStore? r)
    discovery := ← field? fs "replica_discovery" default (DiscoveryConfig.read? r)
    failover := ← field? fs "failover" default (FailoverConfig.read? r)
    selectors := ← field? fs "selectors" [.anyKey] (Reading.list? (Selector.read? r))
    trimmed := ← field? fs "trim_key_prefixes" [] (Reading.list? r.string?)
    refresh := ← field? fs "refresh" default (RefreshConfig.read? r)
    startup := ← field? fs "startup" default (StartupConfig.read? r)
    logging := ← field? fs "logging" default (LoggingConfig.read? r) }

end Config

end ReplicatedConfig
