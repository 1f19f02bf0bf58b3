/-!
# Looking replicas up

A lookup asks which replicas an endpoint has.  It may fail, and a failed lookup is no
news: whoever asked keeps the replicas it has.
-/

namespace ReplicatedConfig

/-- Why a lookup failed. -/
inductive DiscoveryError where
  | lookup (message : String)
  | timeout
  deriving DecidableEq

/-- What the error says. -/
def DiscoveryError.message : DiscoveryError → String
  | .lookup m => "Replica lookup failed: " ++ m
  | .timeout => "Replica lookup timed out"

end ReplicatedConfig
