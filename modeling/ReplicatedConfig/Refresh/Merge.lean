import ReplicatedConfig.Refresh.Check

/-!
# Merging point changes

Changes of single keys are merged under the lock, in the order of their keys, and one
snapshot is published at the end if anything was merged.  A change is merged only while
the token it was found against is still the known one; otherwise somebody has loaded the
key since, and the change says nothing new.

Each change is noted as it is merged, before the snapshot that shows it.
-/

namespace ReplicatedConfig

/-- How far a merge has come. -/
inductive Merge where
  /-- Waits for the lock. -/
  | waiting (changes : List PointChange) (failures : List ProviderError)
  /-- Waits for the adapter of `setting`; `merged` changes have been noted. -/
  | adapting (place : Nat) (setting : Setting) (rest : List PointChange) (merged : Nat)
    (failures : List ProviderError)

namespace Merge

/-- A step's result: the provider, and the merge or whether it published and which
failures there are. -/
abbrev Step := Provider × (Merge ⊕ (Bool × List ProviderError))

/-- Publishes if anything was merged. -/
def finish (me : TaskId) (p : Provider) (merged : Nat) (failures : List ProviderError) : Step :=
  if merged = 0 then (p.release me, .inr (false, failures))
  else (p.publish.release me, .inr (true, failures))

/-- Merges changes up to the first one that needs an adapter. -/
def advance (me : TaskId) (p : Provider) (merged : Nat) (failures : List ProviderError) :
    List PointChange → Step
  | [] => finish me p merged failures
  | change :: rest =>
    if change.IsCurrent p then
      match change with
      | .upsert place _ setting => (p, .inl (.adapting place setting rest merged failures))
      | .remove place _ =>
        let p := p.setToken place none
        match p.watchList.get? place with
        | none => advance me p merged failures rest
        | some w =>
          if (p.materialized.find? w.identity).isSome then
            advance me { p with materialized := p.materialized.remove w.identity } (merged + 1)
              failures rest
          else advance me p merged failures rest
    else advance me p merged failures rest

/-- The adapter of a change has finished. -/
def adapted (me : TaskId) (p : Provider) (place : Nat) (s : Setting) (rest : List PointChange)
    (merged : Nat) (failures : List ProviderError) : Step :=
  match p.pipeline.process s with
  | .ok pairs =>
    let p := p.setToken place (some s.token)
    advance me { p with materialized := p.materialized.upsert ⟨s, pairs⟩ } (merged + 1) failures rest
  | .error e =>
    advance me p merged (if p.options.optional then failures else failures ++ [.adapter e]) rest

/-- Starts to merge once the lock is there. -/
def enter (me : TaskId) (p : Provider) (changes : List PointChange) (failures : List ProviderError) :
    Step :=
  if p.lock.isHeldBy me then advance me p 0 failures changes else (p, .inl (.waiting changes failures))

/-- Starts a merge. -/
def begin (me : TaskId) (p : Provider) (changes : List PointChange) (failures : List ProviderError) :
    Step :=
  enter me (p.acquire me) changes failures

/-- Something reaches a merge. -/
def handle (me : TaskId) (p : Provider) (m : Merge) (i : Input) : Step :=
  match m, i with
  | .waiting changes failures, .resumed => enter me p changes failures
  | .adapting place s rest merged failures, .resumed => adapted me p place s rest merged failures
  | m, _ => (p, .inl m)

end Merge

end ReplicatedConfig
