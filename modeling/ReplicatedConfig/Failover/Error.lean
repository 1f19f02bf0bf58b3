import ReplicatedConfig.StoreError

/-!
# How a call over several replicas fails

A call asks replicas until one of them settles it.  It fails because the entry is not
there, because a replica gave an error that no other replica would mend, because every
replica it tried failed, or because the caller gave up.
-/

namespace ReplicatedConfig

/-- Why a call ended without a value. -/
inductive FailoverError where
  | notFound (endpoint : String)
  | nonRetryable (endpoint : String) (cause : StoreError)
  | exhausted (attempts : Nat) (last : StoreError)
  | cancelled
  deriving DecidableEq

namespace FailoverError

/-- What the error says. -/
def message : FailoverError → String
  | .notFound endpoint => "Not found at " ++ endpoint
  | .nonRetryable endpoint cause => "Request to " ++ endpoint ++ " failed: " ++ cause.message
  | .exhausted attempts last =>
    "All " ++ toString attempts ++ " replica attempts failed, last error: " ++ last.message
  | .cancelled => "Operation cancelled"

/-- Whether the same call may succeed later. -/
def isTransient : FailoverError → Bool
  | .exhausted .. => true
  | _ => false

/-- What the causes of the error say, the nearest first. -/
def causes : FailoverError → List String
  | .nonRetryable _ cause => [cause.message]
  | _ => []

end FailoverError

end ReplicatedConfig
