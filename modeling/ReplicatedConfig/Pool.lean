import ReplicatedConfig.Endpoint
import ReplicatedConfig.Health
import ReplicatedConfig.StoreError

/-!
# The pool of replicas

The pool lists the replicas that requests go to, the primary first: the configured
endpoints in their order, then those that were found by lookup, each endpoint once.

## Members are numbered

A member gets a number when it joins and keeps it, and its health is kept under that
number.  A replica that stays while others come and go is the same member with the same
health; one that leaves and comes back is a new member with a fresh health.  The health
of a member that has left is kept too, since a request to it may still be under way.

## Replacing the found replicas

`Pool.replaceFound` builds the whole new list before it touches the pool, so a client
that cannot be created leaves everything as it was.  Lookups are limited in time:
`Pool.claimLookup` takes the slot when a lookup starts, whatever comes of it.
-/

namespace ReplicatedConfig

/-- Where a member came from. -/
inductive Source where
  | configured
  | found
  deriving DecidableEq

/-- A replica that requests may go to. -/
structure Member where
  /-- The number under which its health is kept. -/
  id : Nat
  endpoint : Endpoint
  source : Source
  deriving DecidableEq

/-- Why a pool cannot be built. -/
inductive PoolError where
  | empty
  | clientInit (endpoint : String) (cause : StoreError)
  deriving DecidableEq

namespace PoolError

/-- What the error says. -/
def message : PoolError → String
  | .empty => "Replica pool requires at least one endpoint"
  | .clientInit endpoint cause => "Failed to create client for " ++ endpoint ++ ": " ++ cause.message

/-- What the causes of the error say, the nearest first. -/
def causes : PoolError → List String
  | .empty => []
  | .clientInit _ cause => [cause.message]

end PoolError

/-- For each endpoint, why no client can be created for it, if that is so. -/
abbrev Refusals := Endpoint → Option StoreError

/-- The replicas, their health, and what is needed to look for more. -/
structure Pool where
  /-- The members in order, the primary first. -/
  members : List Member
  /-- The health of every member there ever was, by number. -/
  healths : List Health
  /-- The endpoints that lookups neither add nor remove. -/
  configured : List Endpoint
  /-- The endpoint whose replicas are looked up. -/
  origin : Endpoint
  policy : BackoffPolicy
  /-- The shortest time between two lookups. -/
  lookupInterval : Duration
  lastLookup : Option Instant

namespace Pool

/-- The shortest time between two lookups, if nothing else is said. -/
def defaultLookupInterval : Duration := .ofSecs 3600

/-- The endpoints with their sources, each endpoint once, at its first place.  `seen`
are those that stood before. -/
def firsts (seen : List Endpoint) : List (Endpoint × Source) → List (Endpoint × Source)
  | [] => []
  | e :: rest => if e.1 ∈ seen then firsts seen rest else e :: firsts (e.1 :: seen) rest

/-- The endpoints that a pool is to have, in order. -/
def wanted (configured found : List Endpoint) : List (Endpoint × Source) :=
  firsts [] (configured.map (·, .configured) ++ found.map (·, .found))

/-- The members for a list of endpoints: those that are there already, and new ones
under the numbers from `next` on. -/
def enrol (refusals : Refusals) (existing : List Member) :
    (next : Nat) → List (Endpoint × Source) → Except PoolError (List Member)
  | _, [] => .ok []
  | next, (endpoint, source) :: rest =>
    match existing.find? fun m => m.endpoint = endpoint ∧ m.source = source with
    | some m => (enrol refusals existing next rest).map (m :: ·)
    | none =>
      match refusals endpoint with
      | some cause => .error (.clientInit endpoint.text cause)
      | none => (enrol refusals existing (next + 1) rest).map (⟨next, endpoint, source⟩ :: ·)

/-- The healths with fresh ones for the members that have none yet. -/
def enrolled (healths : List Health) (members : List Member) (now : Instant) : List Health :=
  healths ++ List.replicate (members.countP (healths.length ≤ ·.id)) (.new now)

/-- A pool of the given endpoints; there has to be one. -/
def build (refusals : Refusals) (configured found : List Endpoint) (origin : Endpoint)
    (policy : BackoffPolicy) (now : Instant) : Except PoolError Pool := do
  let members ← enrol refusals [] 0 (wanted configured found)
  if members.isEmpty then throw .empty
  return ⟨members, enrolled [] members now, configured, origin, policy, defaultLookupInterval, none⟩

/-- A pool of configured endpoints only. -/
def new (refusals : Refusals) (configured : List Endpoint) (policy : BackoffPolicy) (now : Instant) :
    Except PoolError Pool :=
  match configured.head? with
  | none => .error .empty
  | some origin => build refusals configured [] origin policy now

/-- Whose replicas a pool looks up: the given endpoint, or the first configured one. -/
def originOf (configured : List Endpoint) (origin : Option Endpoint) : Except PoolError Endpoint :=
  match origin.or configured.head? with
  | none => .error .empty
  | some e => .ok e

/-- A pool of configured endpoints and of those that a lookup found, which is taken as
empty where the lookup failed. -/
def connect (refusals : Refusals) (configured : List Endpoint) (origin : Endpoint)
    (found : Option (List Endpoint)) (policy : BackoffPolicy) (now : Instant) :
    Except PoolError Pool :=
  (build refusals configured (found.getD []) origin policy now).map
    fun pool => { pool with lastLookup := some now }

/-- The first member. -/
def primary? (p : Pool) : Option Member := p.members.head?

/-- The member of an endpoint. -/
def member? (p : Pool) (e : Endpoint) : Option Member := p.members.find? (·.endpoint = e)

/-- The health of a member. -/
def health (p : Pool) (m : Member) : Health := p.healths.getD m.id default

/-- Whether a member may be tried at `now`. -/
def Available (p : Pool) (now : Instant) (m : Member) : Prop := (p.health m).Available now

instance (p : Pool) (now : Instant) (m : Member) : Decidable (p.Available now m) :=
  inferInstanceAs (Decidable ((p.health m).Available now))

/-- Whether the next request would start at the primary. -/
def triesPrimary (p : Pool) (now : Instant) : Bool :=
  p.primary?.any fun m => decide (p.Available now m)

/-- Notes how a request to a member ended. -/
def record (p : Pool) (m : Member) (success : Bool) (now : Instant) (policy : BackoffPolicy)
    (draw : Draw) : Pool :=
  { p with healths := p.healths.modify m.id fun h => h.record success now policy draw }

/-- Notes how a request to an endpoint ended, if it belongs to a member. -/
def recordEndpoint (p : Pool) (e : Endpoint) (success : Bool) (now : Instant) (draw : Draw) :
    Pool × Bool :=
  match p.member? e with
  | some m => (p.record m success now p.policy draw, true)
  | none => (p, false)

/-- The members that a request may try, in order.  A single member is always tried.  Of
several, the primary is passed over unless it may be tried at `now`, and so are the others;
where that leaves nobody, the primary is tried all the same, so that no request ends
without having asked anyone. -/
def candidates (p : Pool) (now : Instant) : List Member :=
  match p.members with
  | [m] => [m]
  | ms =>
    let passed := if p.triesPrimary now then 0 else 1
    match (ms.drop passed).filter fun m => decide (p.Available now m) with
    | [] => ms.take 1
    | available => available

/-- Replaces the found replicas, and says whether that changed the members. -/
def replaceFound (p : Pool) (refusals : Refusals) (found : List Endpoint) (now : Instant) :
    Except PoolError (Pool × Bool) := do
  let members ← enrol refusals p.members p.healths.length (wanted p.configured found)
  if members.isEmpty then throw .empty
  if members = p.members then return (p, false)
  return ({ p with members, healths := enrolled p.healths members now }, true)

/-- Takes the slot for a lookup; nothing where the last one is not long enough ago. -/
def claimLookup (p : Pool) (now : Instant) : Option Pool :=
  match p.lastLookup with
  | some last => if now < last + p.lookupInterval then none else some { p with lastLookup := some now }
  | none => some { p with lastLookup := some now }

/-- What a finished lookup makes of the pool.  A failed one changes nothing, and neither
does one whose replicas cannot be taken in. -/
def applyLookup (p : Pool) (refusals : Refusals) (found : Option (List Endpoint)) (now : Instant) :
    Pool × Bool :=
  match found with
  | none => (p, false)
  | some found =>
    match p.replaceFound refusals found now with
    | .ok r => r
    | .error _ => (p, false)

end Pool

end ReplicatedConfig
