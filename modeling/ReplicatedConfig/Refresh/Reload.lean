import ReplicatedConfig.Provider

/-!
# Loading everything

A reload lists the selected settings, reads the watched keys that the listing did not
bring, runs the adapters, and then, in one step, replaces what was loaded, notes the
tokens of the watched keys and publishes.

## Why a failed reload leaves nothing behind

Until that last step a reload keeps everything it has gathered to itself, in its
`Reload` phase.  It holds the lock from the listing on, so nobody else changes the loaded
settings in the meantime, and it lets the lock go however it ends.

## Adapters that refuse

In required mode a refused setting fails the reload.  In optional mode it is left out,
and the entry that was loaded for it before, if there is one, takes its place.
-/

namespace ReplicatedConfig

/-- What has become of an operation in phases `μ` that is after an `α`. -/
inductive Stage (μ α : Type) where
  | running (phase : μ)
  | finished (result : Except ProviderError α)

/-- How far a reload has come. -/
inductive Reload where
  /-- Waits for the lock. -/
  | waiting
  /-- Lists the selected settings. -/
  | listing (call : Call Listing)
  /-- Reads a watched key that the listing did not bring.  Of the `watched` keys that
  there were when the listing ended, those at `places` are still to be looked at. -/
  | fetching (watched : Nat) (places : List Nat) (raw : List Setting) (call : Call Identity)
  /-- Waits for the adapter of `setting`. -/
  | adapting (watched : Nat) (setting : Setting) (rest : List Setting) (previous done : List Entry)

namespace Reload

/-- A step's result: the provider, and the reload or its end. -/
abbrev Step := Provider × Stage Reload Unit

/-- The settings with `s` in the place of the one with its name, or at the end. -/
def gatherOne (raw : List Setting) (s : Setting) : List Setting :=
  if raw.any (·.identity = s.identity) then raw.map fun r => if r.identity = s.identity then s else r
  else raw ++ [s]

/-- Listed settings, each name once, where it first came and as it last was. -/
def gather (listed : List Setting) : List Setting := listed.foldl gatherOne []

/-- Notes the tokens of the first `watched` keys. -/
def noteTokens (l : WatchList) (watched : Nat) (m : Materialized) : WatchList :=
  ⟨l.watches.mapIdx fun i w => if i < watched then { w with token := m.tokenOf w.identity } else w⟩

/-- Ends without having changed anything. -/
def fail (me : TaskId) (p : Provider) (e : ProviderError) : Step :=
  (p.release me, .finished (.error e))

/-- Replaces what was loaded and publishes. -/
def commit (me : TaskId) (p : Provider) (watched : Nat) (entries : List Entry) : Step :=
  let materialized : Materialized := ⟨entries⟩
  let p := { p with materialized, watchList := noteTokens p.watchList watched materialized }.publish
  ({ p with watchList := p.watchList.markAllAttempted p.now, loaded := true }.release me,
    .finished (.ok ()))

/-- Waits for the adapter of the next setting, or commits after the last one. -/
def adaptNext (me : TaskId) (p : Provider) (watched : Nat) (raw : List Setting)
    (previous done : List Entry) : Step :=
  match raw with
  | [] => commit me p watched done
  | s :: rest => (p, .running (.adapting watched s rest previous done))

/-- Starts with the adapters.  Previous entries are of use in optional mode only. -/
def startAdapting (me : TaskId) (p : Provider) (watched : Nat) (raw : List Setting) : Step :=
  adaptNext me p watched raw (if p.options.optional then p.materialized.entries else []) []

/-- The entry that was last loaded for a setting. -/
def previousOf (previous : List Entry) (s : Setting) : List Entry :=
  (previous.reverse.find? (·.identity = s.identity)).toList

/-- The adapter of a setting has finished. -/
def adapted (me : TaskId) (p : Provider) (watched : Nat) (s : Setting) (rest : List Setting)
    (previous done : List Entry) : Step :=
  match p.pipeline.process s with
  | .ok pairs => adaptNext me p watched rest previous (done ++ [⟨s, pairs⟩])
  | .error e =>
    if p.options.optional then
      adaptNext me p watched rest (previous.filter (·.identity ≠ s.identity))
        (done ++ previousOf previous s)
    else fail me p (.adapter e)

/-- Reads the next watched key that is not there yet, or goes on to the adapters. -/
def fetchNext (me : TaskId) (cancelled : Bool) (p : Provider) (watched : Nat) :
    (places : List Nat) → (raw : List Setting) → Step
  | [], raw => startAdapting me p watched raw
  | place :: places, raw =>
    match p.watchList.get? place with
    | none => fetchNext me cancelled p watched places raw
    | some w =>
      if raw.any (·.identity = w.identity) then fetchNext me cancelled p watched places raw
      else match p.openCall .fetch w.identity cancelled with
        | (p, .waiting call) => (p, .running (.fetching watched places raw call))
        | (p, .returned r) =>
          match Failover.settingOf r with
          | .error e => fail me p (.ofFailover e)
          | .ok s => fetchNext me cancelled p watched places (raw ++ s.toList)

/-- The read of a watched key has come this far. -/
def fetched (me : TaskId) (cancelled : Bool) (p : Provider) (watched : Nat) (places : List Nat)
    (raw : List Setting) : Progress Identity (Option Setting) → Step
  | .waiting call => (p, .running (.fetching watched places raw call))
  | .returned r =>
    match Failover.settingOf r with
    | .error e => fail me p (.ofFailover e)
    | .ok s => fetchNext me cancelled p watched places (raw ++ s.toList)

/-- The listing has come this far. -/
def listed (me : TaskId) (cancelled : Bool) (p : Provider) : Progress Listing (List Setting) → Step
  | .waiting call => (p, .running (.listing call))
  | .returned (.error e) => fail me p (.ofFailover e)
  | .returned (.ok (settings, _)) =>
    fetchNext me cancelled p p.watchList.size (List.range p.watchList.size) (gather settings)

/-- Starts the listing once the lock is there. -/
def enter (me : TaskId) (cancelled : Bool) (p : Provider) : Step :=
  if p.lock.isHeldBy me then
    let (p, progress) := p.openCall .list (Listing.start p.options.selectors) cancelled
    listed me cancelled p progress
  else (p, .running .waiting)

/-- Starts a reload. -/
def begin (me : TaskId) (cancelled : Bool) (p : Provider) : Step := enter me cancelled (p.acquire me)

/-- Something reaches a reload. -/
def handle (me : TaskId) (cancelled : Bool) (p : Provider) (r : Reload) (i : Input) : Step :=
  match r, i with
  | .waiting, .resumed => enter me cancelled p
  | .listing call, i =>
    let (p, progress) := p.drive .list call i
    listed me cancelled p progress
  | .fetching watched places raw call, i =>
    let (p, progress) := p.drive .fetch call i
    fetched me cancelled p watched places raw progress
  | .adapting watched s rest previous done, .resumed => adapted me p watched s rest previous done
  | r, _ => (p, .running r)

end Reload

end ReplicatedConfig
