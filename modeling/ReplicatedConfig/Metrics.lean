import ReplicatedConfig.StoreError

/-!
# Metrics

What is counted: how every attempt at a replica ended, how often a slow attempt made
another one start beside it, how every refresh pass ended, and the version and size of
the last snapshot.  A counter exists once something has been counted.
-/

namespace ReplicatedConfig

/-- How an attempt at a replica ended. -/
inductive AttemptOutcome where
  | success
  | failed (c : FailureClass)
  deriving DecidableEq

namespace AttemptOutcome

/-- The outcome's label. -/
def label : AttemptOutcome → String
  | .success => "success"
  | .failed c => c.label

/-- What the outcome says about the replica's health.  An answer that there is no such
entry is as good as any other; where the caller or the request was at fault, nothing is
said. -/
def health? : AttemptOutcome → Option Bool
  | .success => some true
  | .failed .notFound => some true
  | .failed .retryable => some false
  | .failed .nonRetryable => none
  | .failed .cancelled => none

end AttemptOutcome

/-- How a refresh pass ended. -/
inductive PassResult where
  | unchanged
  | published
  | failed
  deriving DecidableEq

/-- The result's label. -/
def PassResult.label : PassResult → String
  | .unchanged => "unchanged"
  | .published => "published"
  | .failed => "failed"

/-- How often each of some things has been counted, in the order of first counting. -/
abbrev Tally (κ : Type) := List (κ × Nat)

namespace Tally

/-- One more of `k`. -/
def bump {κ : Type} [DecidableEq κ] (k : κ) : Tally κ → Tally κ
  | [] => [(k, 1)]
  | (j, n) :: rest => if j = k then (j, n + 1) :: rest else (j, n) :: bump k rest

/-- How often `k` has been counted. -/
def count {κ : Type} [DecidableEq κ] (k : κ) (t : Tally κ) : Nat := (t.lookup k).getD 0

end Tally

/-- All counters and gauges. -/
structure Metrics where
  /-- Attempts by host and outcome. -/
  attempts : Tally (String × AttemptOutcome)
  fallbacks : Nat
  passes : Tally PassResult
  /-- Version and number of keys of the last snapshot. -/
  snapshot : Option (Nat × Nat)

namespace Metrics

/-- Nothing counted. -/
def empty : Metrics := ⟨[], 0, [], none⟩

instance : Inhabited Metrics := ⟨empty⟩

/-- An attempt at a host has ended. -/
def attempt (m : Metrics) (host : String) (outcome : AttemptOutcome) : Metrics :=
  { m with attempts := Tally.bump (host, outcome) m.attempts }

/-- A slow attempt made another one start. -/
def fallback (m : Metrics) : Metrics := { m with fallbacks := m.fallbacks + 1 }

/-- A refresh pass has ended. -/
def pass (m : Metrics) (r : PassResult) : Metrics := { m with passes := Tally.bump r m.passes }

/-- A snapshot has been published. -/
def published (m : Metrics) (version keys : Nat) : Metrics := { m with snapshot := some (version, keys) }

/-- A name with labels in braces. -/
def labelled (name : String) (labels : List (String × String)) : String :=
  name ++ "\x7b" ++ ",".intercalate (labels.map fun (k, v) => k ++ "=" ++ v) ++ "\x7d"

/-- The counters and gauges that exist, by name. -/
def readings (m : Metrics) : List (String × Nat) :=
  m.attempts.map (fun ((host, outcome), n) =>
    (labelled "cairn_replica_attempts_total" [("endpoint", host), ("outcome", outcome.label)], n))
  ++ (if m.fallbacks = 0 then [] else [("cairn_replica_parallel_fallbacks_total", m.fallbacks)])
  ++ m.passes.map (fun (r, n) => (labelled "cairn_refresh_passes_total" [("result", r.label)], n))
  ++ (match m.snapshot with
    | none => []
    | some (version, keys) => [("cairn_snapshot_version", version), ("cairn_snapshot_keys", keys)])

end Metrics

end ReplicatedConfig
