import ReplicatedConfig.Adapter
import ReplicatedConfig.Failover.Error
import ReplicatedConfig.Pool
import ReplicatedConfig.Watch

/-!
# How loading and refreshing fail

A load or a refresh pass fails because the store could not be asked, because an adapter
refused a setting, because some watched keys could not be refreshed, because a first
load used up its time, or because the caller gave up.  Giving up is always an error of
its own: `ProviderError.ofFailover` never wraps it.

Building a provider fails for reasons of its own, `BuildError`.
-/

namespace ReplicatedConfig

/-- Why a load or a refresh pass failed. -/
inductive ProviderError where
  | failover (e : FailoverError)
  | adapter (e : AdapterError)
  | refreshFailed (failed checked : Nat) (first : ProviderError)
  | startupTimeout (timeout : Duration) (last : ProviderError)
  | cancelled
  deriving DecidableEq

namespace ProviderError

/-- The error of a call, as the error of what the call was for. -/
def ofFailover : FailoverError → ProviderError
  | .cancelled => .cancelled
  | e => .failover e

/-- What the error says. -/
def message : ProviderError → String
  | .failover e => "Store request failed: " ++ e.message
  | .adapter e => e.text
  | .refreshFailed failed checked first =>
    toString failed ++ " of " ++ toString checked ++ " watched keys failed to refresh, first error: "
      ++ first.message
  | .startupTimeout timeout last =>
    "Initial load did not succeed within " ++ timeout.text ++ ": " ++ last.message
  | .cancelled => "Operation cancelled"

/-- Whether the same operation may succeed later. -/
def isTransient : ProviderError → Bool
  | .failover e => e.isTransient
  | .refreshFailed _ _ first => first.isTransient
  | .adapter _ | .startupTimeout .. | .cancelled => false

/-- Whether the caller gave up. -/
def isCancelled : ProviderError → Bool
  | .cancelled => true
  | _ => false

end ProviderError

/-- Why a provider cannot be built. -/
inductive BuildError where
  | missingClientFactory
  | invalidConfig (text : String)
  | pool (e : PoolError)
  | watch (e : WatchError)
  deriving DecidableEq

namespace BuildError

/-- What the error says. -/
def message : BuildError → String
  | .missingClientFactory => "A client factory is required but was not provided"
  | .invalidConfig text => "Invalid configuration: " ++ text
  | .pool e => e.message
  | .watch e => e.message

/-- What the causes of the error say, the nearest first. -/
def causes : BuildError → List String
  | .pool e => e.causes
  | _ => []

end BuildError

end ReplicatedConfig
