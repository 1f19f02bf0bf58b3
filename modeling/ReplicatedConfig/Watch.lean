import ReplicatedConfig.Setting
import ReplicatedConfig.Time.Instant

/-!
# Watched keys

A watched key is looked at once its expiration has come.  `Watch` is what is known about
one: how often to look, whether a change reloads everything, when it expires, the token
of the value last seen, and whether a refresh of it is under way.  A refresh holds the
key, and letting go of it pushes the next look out by one interval, however the refresh
ended.

## The watch list

The list keeps the order in which keys were first watched, and a key is known by its
place in it.  Places never change: watching a key again changes its interval, its role
and its expiration where it stands, so whoever holds it or knows its place goes on
holding and knowing the same key.

Bringing expirations forward spreads them over a time span, at a draw for each key that
is an argument here.
-/

namespace ReplicatedConfig

/-- The shortest time after which a watched key may be looked at again. -/
def minExpiration : Duration := .ofSecs 1

/-- The time after which a watched key is looked at again, if nothing else is said. -/
def defaultExpiration : Duration := .ofSecs 30

/-- Why a key cannot be watched. -/
inductive WatchError where
  | expirationTooShort (identity : Identity) (actual : Duration)
  deriving DecidableEq

/-- What the error says. -/
def WatchError.message : WatchError → String
  | .expirationTooShort identity actual =>
    "Cache expiration for " ++ identity.text ++ " is " ++ actual.text ++ ", minimum is 1s"

/-- The wish to watch a key. -/
structure WatchRequest where
  identity : Identity
  expiration : Duration
  refreshAll : Bool
  deriving DecidableEq

/-- Whether the wish can be granted. -/
def WatchRequest.check (r : WatchRequest) : Except WatchError Unit :=
  if r.expiration < minExpiration then .error (.expirationTooShort r.identity r.expiration)
  else .ok ()

/-- What is known about a watched key. -/
structure Watch where
  identity : Identity
  interval : Duration
  /-- Whether a change of this key reloads everything. -/
  refreshAll : Bool
  expiresAt : Instant
  /-- The token of the value last seen; none where the key was absent or never seen. -/
  token : Option Token
  /-- Whether a refresh of this key is under way. -/
  held : Bool
  deriving DecidableEq, Inhabited

namespace Watch

/-- A key that has just been watched. -/
def new (r : WatchRequest) (now : Instant) : Watch :=
  ⟨r.identity, r.expiration, r.refreshAll, now + r.expiration, none, false⟩

/-- Whether the key is to be looked at. -/
def Due (w : Watch) (now : Instant) : Prop := w.expiresAt ≤ now

instance (w : Watch) (now : Instant) : Decidable (w.Due now) :=
  inferInstanceAs (Decidable (w.expiresAt ≤ now))

/-- The next look is one interval away. -/
def attempted (now : Instant) (w : Watch) : Watch := { w with expiresAt := now + w.interval }

/-- What watching the key again changes. -/
def reconfigured (r : WatchRequest) (now : Instant) (w : Watch) : Watch :=
  { w with interval := r.expiration, refreshAll := r.refreshAll, expiresAt := now + r.expiration }

/-- The next look is at most `delay` away. -/
def nudged (now : Instant) (delay : Duration) (w : Watch) : Watch :=
  { w with expiresAt := min w.expiresAt (now + delay) }

/-- The refresh of the key has ended. -/
def released (now : Instant) (w : Watch) : Watch := { w.attempted now with held := false }

@[simp] theorem identity_attempted (now : Instant) (w : Watch) :
    (w.attempted now).identity = w.identity := rfl

end Watch

/-- The watched keys in the order in which they were first watched. -/
structure WatchList where
  watches : List Watch
  deriving DecidableEq

namespace WatchList

/-- No key is watched. -/
def empty : WatchList := ⟨[]⟩

instance : Inhabited WatchList := ⟨empty⟩

/-- How many keys are watched. -/
def size (l : WatchList) : Nat := l.watches.length

/-- What is known about the key at a place. -/
def get? (l : WatchList) (i : Nat) : Option Watch := l.watches[i]?

/-- The place of a key. -/
def find? (l : WatchList) (identity : Identity) : Option Nat :=
  l.watches.findIdx? (·.identity = identity)

/-- Changes what is known about the key at a place. -/
def modify (l : WatchList) (i : Nat) (f : Watch → Watch) : WatchList := ⟨l.watches.modify i f⟩

/-- Watches a key, and says at which place. -/
def register (l : WatchList) (r : WatchRequest) (now : Instant) :
    Except WatchError (WatchList × Nat) := do
  r.check
  match l.find? r.identity with
  | some i => return (l.modify i (Watch.reconfigured r now), i)
  | none => return (⟨l.watches ++ [Watch.new r now]⟩, l.size)

/-- The places of the keys that are to be looked at, in order. -/
def due (l : WatchList) (now : Instant) : List Nat :=
  (List.range l.size).filter fun i => (l.get? i).any fun w => decide (w.Due now)

/-- Claims the key at a place for a refresh; nothing where another refresh of it is
under way or it is not to be looked at any more. -/
def begin? (l : WatchList) (i : Nat) (now : Instant) : Option WatchList :=
  match l.get? i with
  | some w => if w.held = false ∧ w.Due now then some (l.modify i fun w => { w with held := true }) else none
  | none => none

/-- Ends the refresh of the key at a place. -/
def release (l : WatchList) (i : Nat) (now : Instant) : WatchList := l.modify i (Watch.released now)

/-- The key at a place has been looked at. -/
def markAttempted (l : WatchList) (i : Nat) (now : Instant) : WatchList :=
  l.modify i (Watch.attempted now)

/-- Every key has been looked at. -/
def markAllAttempted (l : WatchList) (now : Instant) : WatchList :=
  ⟨l.watches.map (Watch.attempted now)⟩

/-- Notes the token of the value that has been seen. -/
def setToken (l : WatchList) (i : Nat) (token : Option Token) : WatchList :=
  l.modify i fun w => { w with token }

/-- How many whole milliseconds a delay can be drawn from. -/
def drawRange (most : Duration) : Nat := min (most.nanos / nanosPerMilli) (UInt64.size - 1)

/-- Brings the next look at every key forward to a point within `most`.  `draws` gives
the milliseconds drawn for the key at each place; none lies beyond `most`. -/
def setDirty (l : WatchList) (now : Instant) (most : Duration) (draws : Nat → Nat) : WatchList :=
  ⟨l.watches.mapIdx fun i w =>
    w.nudged now (.ofNanos (min (draws i) (drawRange most) * nanosPerMilli))⟩

theorem get?_modify (l : WatchList) (i j : Nat) (f : Watch → Watch) :
    (l.modify i f).get? j = if i = j then (l.get? j).map f else l.get? j := by
  simp only [modify, get?, List.getElem?_modify]
  split <;> simp

end WatchList

end ReplicatedConfig
