/-!
# How a store request fails

A request to a store fails for one of the causes of `StoreError`, and what happens
next depends on the cause only through its `FailureClass`: another replica may be
tried, or the call ends here.  Absence is not a failure but an answer, which is why a
missing entry has a class of its own.
-/

namespace ReplicatedConfig

/-- Why a request to a store failed. -/
inductive StoreError where
  | timeout
  | connection (message : String)
  | io (message : String)
  | http (status : UInt16) (message : String)
  | invalidRequest (message : String)
  | invalidResponse (message : String)
  | cancelled
  deriving DecidableEq, Inhabited

/-- What a failed request means for the call it belongs to. -/
inductive FailureClass where
  /-- Another replica may answer where this one failed. -/
  | retryable
  /-- No replica will answer. -/
  | nonRetryable
  /-- The store answered that there is no such entry. -/
  | notFound
  /-- The caller gave up. -/
  | cancelled
  deriving DecidableEq, Inhabited

/-- The class's label in metrics. -/
def FailureClass.label : FailureClass → String
  | .retryable => "retryable"
  | .nonRetryable => "non_retryable"
  | .notFound => "not_found"
  | .cancelled => "cancelled"

namespace StoreError

/-- The statuses after which another replica may answer. -/
def retryableStatuses : List UInt16 := [408, 429, 500, 502, 503, 504]

/-- The class of an error. -/
def failureClass : StoreError → FailureClass
  | .timeout | .connection _ | .io _ => .retryable
  | .http status _ =>
    if status ∈ retryableStatuses then .retryable
    else if status = 404 then .notFound
    else .nonRetryable
  | .invalidRequest _ | .invalidResponse _ => .nonRetryable
  | .cancelled => .cancelled

/-- Whether another replica may answer. -/
def isRetryable (e : StoreError) : Bool := e.failureClass == .retryable

/-- What the error says. -/
def message : StoreError → String
  | .timeout => "Request timeout"
  | .connection m => "Connection failed: " ++ m
  | .io m => "I/O error: " ++ m
  | .http status m => "HTTP error " ++ toString status ++ ": " ++ m
  | .invalidRequest m => "Invalid request: " ++ m
  | .invalidResponse m => "Invalid response: " ++ m
  | .cancelled => "Operation cancelled"

end StoreError

end ReplicatedConfig
