import ReplicatedConfig.Provider

/-!
# Checking one watched key

A check claims its key, asks whether the value changed since the token that is known,
and, if it did, reads the new value.  What it finds is a `Finding`; it changes nothing
itself.  A change is noted together with the token it was found against, so that whoever
merges it later can tell whether it is still about the value that is loaded.

A change of a key that reloads everything is not read: the reload will bring it.  The
claim is let go however the check ends.
-/

namespace ReplicatedConfig

/-- A change of one watched key, and the token it was found against. -/
inductive PointChange where
  | upsert (place : Nat) (checked : Option Token) (setting : Setting)
  | remove (place : Nat) (checked : Option Token)
  deriving DecidableEq

namespace PointChange

/-- The place of the key in the watch list. -/
def place : PointChange → Nat
  | .upsert place _ _ => place
  | .remove place _ => place

/-- The token that was known when the change was found. -/
def checked : PointChange → Option Token
  | .upsert _ checked _ => checked
  | .remove _ checked => checked

/-- Whether the token that the change was found against is still the known one. -/
def IsCurrent (c : PointChange) (p : Provider) : Prop := p.tokenAt c.place = c.checked

instance (c : PointChange) (p : Provider) : Decidable (c.IsCurrent p) :=
  inferInstanceAs (Decidable (p.tokenAt c.place = c.checked))

end PointChange

/-- What a check has found. -/
inductive Finding where
  /-- Another refresh had the key, or it was not to be looked at any more. -/
  | skipped
  | unchanged
  | changed (change : PointChange)
  /-- The key changed, and it reloads everything. -/
  | reloadAll
  deriving DecidableEq

/-- How far the check of the key at a place has come. -/
inductive Check where
  | ready (place : Nat)
  | checking (place : Nat) (known : Option Token) (call : Call (Identity × Option Token))
  | fetching (place : Nat) (known : Option Token) (call : Call Identity)
  | finished (result : Except ProviderError Finding)

namespace Check

/-- Ends the check and lets the key go. -/
def finish (p : Provider) (place : Nat) (result : Except ProviderError Finding) : Provider × Check :=
  (p.letGo place, .finished result)

/-- What a value that was read says about a key. -/
def findingOf (place : Nat) (known : Option Token) : Option Setting → Finding
  | some s => if known = some s.token then .unchanged else .changed (.upsert place known s)
  | none => if known.isSome then .changed (.remove place known) else .unchanged

/-- The read of the new value has come this far. -/
def fetched (p : Provider) (place : Nat) (known : Option Token) :
    Progress Identity (Option Setting) → Provider × Check
  | .waiting call => (p, .fetching place known call)
  | .returned r =>
    match Failover.settingOf r with
    | .error e => finish p place (.error (.ofFailover e))
    | .ok s => finish p place (.ok (findingOf place known s))

/-- What follows from a verdict. -/
def judged (cancelled : Bool) (p : Provider) (place : Nat) (w : Watch) (known : Option Token) :
    Verdict → Provider × Check
  | .unchanged => finish p place (.ok .unchanged)
  | .missing =>
    finish p place (.ok
      (if known.isNone then .unchanged
      else if w.refreshAll then .reloadAll
      else .changed (.remove place known)))
  | .modified =>
    if w.refreshAll then finish p place (.ok .reloadAll)
    else
      let (p, progress) := p.openCall .fetch w.identity cancelled
      fetched p place known progress

/-- The check of the token has come this far. -/
def checked (cancelled : Bool) (p : Provider) (place : Nat) (known : Option Token) :
    Progress (Identity × Option Token) Verdict → Provider × Check
  | .waiting call => (p, .checking place known call)
  | .returned r =>
    match Failover.verdictOf r, p.watchList.get? place with
    | .error e, _ => finish p place (.error (.ofFailover e))
    | .ok v, some w => judged cancelled p place w known v
    | .ok _, none => finish p place (.ok .unchanged)

/-- Claims the key and starts to ask. -/
def start (cancelled : Bool) (p : Provider) (place : Nat) : Provider × Check :=
  match p.watchList.begin? place p.now, p.watchList.get? place with
  | some watchList, some w =>
    let (p, progress) := { p with watchList }.openCall .check (w.identity, w.token) cancelled
    checked cancelled p place w.token progress
  | _, _ => (p, .finished (.ok .skipped))

/-- Something reaches a check. -/
def handle (cancelled : Bool) (p : Provider) (c : Check) (i : Input) : Provider × Check :=
  match c, i with
  | .ready place, .resumed => start cancelled p place
  | .checking place known call, i =>
    let (p, progress) := p.drive .check call i
    checked cancelled p place known progress
  | .fetching place known call, i =>
    let (p, progress) := p.drive .fetch call i
    fetched p place known progress
  | c, _ => (p, c)

/-- What the check has found, if it has ended. -/
def result? : Check → Option (Except ProviderError Finding)
  | .finished r => some r
  | _ => none

/-- Whether the check has not started. -/
def isReady : Check → Bool
  | .ready _ => true
  | _ => false

/-- Drops the check where it stands. -/
def abandon (p : Provider) : Check → Provider
  | .checking place _ _ => p.letGo place
  | .fetching place _ _ => p.letGo place
  | _ => p

end Check

end ReplicatedConfig
