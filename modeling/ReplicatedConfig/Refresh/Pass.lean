import ReplicatedConfig.Refresh.Merge
import ReplicatedConfig.Refresh.Reload

/-!
# A refresh pass

A pass checks every watched key that is due, all of them side by side, and waits for all
checks.  If a key that reloads everything has changed, everything is reloaded; otherwise,
or if that reload fails, the changes that were found are merged.  So a failure of one key
keeps back nothing that was found for another.

Before anything has been loaded a pass is a first load.  A pass that finds nothing due
ends at once and is not counted.

## What a pass reports

`Report` counts the keys: those whose check ran, those found changed, and those left to
another pass.  A pass with failures ends in an error that names the first of them, in the
order of the watch list and with failures of reload and merge behind those of checks.
Giving up overrides all of that.
-/

namespace ReplicatedConfig

/-- Where a pass ended. -/
inductive Phase where
  | idle
  | unchanged
  | changeDetected
  deriving DecidableEq

/-- The summary of a pass. -/
structure Report where
  phase : Phase
  /-- Keys whose check ran. -/
  checked : Nat
  /-- Keys found changed. -/
  changed : Nat
  /-- Due keys that another pass was refreshing. -/
  skipped : Nat
  reloaded : Bool
  published : Bool
  deriving DecidableEq

/-- The report of a pass that found nothing due. -/
def Report.idle : Report := ⟨.idle, 0, 0, 0, false, false⟩

/-- What the checks of a pass have found. -/
structure Findings where
  checked : Nat
  changed : Nat
  skipped : Nat
  changes : List PointChange
  failures : List ProviderError
  /-- Whether a key that reloads everything has changed. -/
  reload : Bool

namespace Findings

/-- Nothing found. -/
def none : Findings := ⟨0, 0, 0, [], [], false⟩

/-- One check more.  Nothing comes of all of them where one was given up. -/
def add (f : Findings) : Except ProviderError Finding → Option Findings
  | .ok .skipped => some { f with skipped := f.skipped + 1 }
  | .ok .unchanged => some { f with checked := f.checked + 1 }
  | .ok .reloadAll =>
    some { f with checked := f.checked + 1, changed := f.changed + 1, reload := true }
  | .ok (.changed change) =>
    some { f with
      checked := f.checked + 1, changed := f.changed + 1, changes := f.changes ++ [change] }
  | .error .cancelled => Option.none
  | .error e => some { f with checked := f.checked + 1, failures := f.failures ++ [e] }

/-- What all checks have found. -/
def ofResults (rs : List (Except ProviderError Finding)) : Option Findings := rs.foldlM add none

end Findings

/-- How far a pass has come. -/
inductive Pass where
  /-- Loads for the first time. -/
  | loading (reload : Reload)
  /-- Checks the keys that are due. -/
  | checking (checks : List Check)
  /-- Reloads everything after these findings. -/
  | reloading (findings : Findings) (reload : Reload)
  /-- Merges what was found. -/
  | merging (findings : Findings) (merge : Merge)

namespace Pass

/-- A step's result: the provider, and the pass or its end. -/
abbrev Step := Provider × Stage Pass Report

/-- Counts the pass and makes its report. -/
def finish (p : Provider) (f : Findings) (failures : List ProviderError) (reloaded published : Bool) :
    Step :=
  match failures with
  | first :: _ =>
    (p.countPass .failed, .finished (.error (.refreshFailed failures.length f.checked first)))
  | [] =>
    (p.countPass (if published then .published else .unchanged),
      .finished (.ok ⟨if published then .changeDetected else .unchanged, f.checked, f.changed,
        f.skipped, reloaded, published⟩))

/-- The first load has come this far. -/
def loaded (p : Provider) : Stage Reload Unit → Step
  | .running r => (p, .running (.loading r))
  | .finished (.error e) => (p.countPass .failed, .finished (.error e))
  | .finished (.ok ()) =>
    (p.countPass .published, .finished (.ok ⟨.changeDetected, 0, 0, 0, true, true⟩))

/-- The merge has come this far. -/
def merged (p : Provider) (f : Findings) : Merge ⊕ (Bool × List ProviderError) → Step
  | .inl m => (p, .running (.merging f m))
  | .inr (published, failures) => finish p f failures false published

/-- Merges what was found, if anything. -/
def mergeChanges (me : TaskId) (p : Provider) (f : Findings) (failures : List ProviderError) : Step :=
  if f.changes.isEmpty then finish p f failures false false
  else
    let (p, m) := Merge.begin me p f.changes failures
    merged p f m

/-- The reload has come this far. -/
def reloaded (me : TaskId) (p : Provider) (f : Findings) : Stage Reload Unit → Step
  | .running r => (p, .running (.reloading f r))
  | .finished (.ok ()) => finish p f f.failures true true
  | .finished (.error .cancelled) => (p, .finished (.error .cancelled))
  | .finished (.error e) => mergeChanges me p f (f.failures ++ [e])

/-- Goes on once every check has ended. -/
def checked (me : TaskId) (cancelled : Bool) (p : Provider) (checks : List Check) : Step :=
  match checks.mapM Check.result? with
  | none => (p, .running (.checking checks))
  | some results =>
    match Findings.ofResults results with
    | none => (p, .finished (.error .cancelled))
    | some f =>
      if f.reload then
        let (p, r) := Reload.begin me cancelled p
        reloaded me p f r
      else mergeChanges me p f f.failures

/-- Starts a pass. -/
def begin (me : TaskId) (cancelled : Bool) (p : Provider) : Step :=
  if cancelled then (p, .finished (.error .cancelled))
  else if p.loaded then
    match p.watchList.due p.now with
    | [] => (p, .finished (.ok .idle))
    | places => (p, .running (.checking (places.map .ready)))
  else
    let (p, r) := Reload.begin me cancelled p
    loaded p r

/-- Something reaches every check. -/
def driveChecks (cancelled : Bool) (i : Input) : Provider → List Check → Provider × List Check
  | p, [] => (p, [])
  | p, c :: rest =>
    let (p, c) := c.handle cancelled p i
    let (p, rest) := driveChecks cancelled i p rest
    (p, c :: rest)

/-- The first check that has not started starts. -/
def startCheck (cancelled : Bool) : Provider → List Check → Provider × List Check
  | p, [] => (p, [])
  | p, c :: rest =>
    if c.isReady then
      let (p, c) := c.handle cancelled p .resumed
      (p, c :: rest)
    else
      let (p, rest) := startCheck cancelled p rest
      (p, c :: rest)

/-- Something reaches a pass. -/
def handle (me : TaskId) (cancelled : Bool) (p : Provider) (s : Pass) (i : Input) : Step :=
  match s with
  | .loading r =>
    let (p, r) := r.handle me cancelled p i
    loaded p r
  | .checking checks =>
    let (p, checks) := match i with
      | .resumed => startCheck cancelled p checks
      | i => driveChecks cancelled i p checks
    checked me cancelled p checks
  | .reloading f r =>
    let (p, r) := r.handle me cancelled p i
    reloaded me p f r
  | .merging f m =>
    let (p, m) := m.handle me p i
    merged p f m

/-- Drops the pass where it stands. -/
def abandon (me : TaskId) (p : Provider) : Pass → Provider
  | .checking checks => checks.foldl Check.abandon p
  | _ => p.release me

end Pass

end ReplicatedConfig
