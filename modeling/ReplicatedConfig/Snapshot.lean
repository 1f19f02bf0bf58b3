/-!
# Snapshots

What an application reads is a snapshot: all keys with their values as they were at one
time, and a version.  Publishing replaces the current snapshot by one with the next
version; a reader that keeps an old snapshot keeps its values.

## Who hears of a new snapshot

A new snapshot is made current, sent to the receivers, and then told to the subscribers,
one after another.  A receiver is not called but can ask whether a snapshot came since it
last read; what it reads is what was sent last.  A subscriber is called, and what it finds
current then is part of what it sees.  `Delivery` records a call, and the publisher keeps
all of them in order, so that what a subscriber has been told is part of the state.
-/

namespace ReplicatedConfig

/-- Keys with their values, each key once, in the order in which they first came. -/
structure Values where
  pairs : List (String × String)
  deriving DecidableEq

namespace Values

/-- No key. -/
def empty : Values := ⟨[]⟩

instance : Inhabited Values := ⟨empty⟩

/-- The pairs with the value under `key` replaced, or with a new pair at the end. -/
def put (key value : String) : List (String × String) → List (String × String)
  | [] => [(key, value)]
  | (k, v) :: rest => if k = key then (key, value) :: rest else (k, v) :: put key value rest

/-- The values with `value` under `key`. -/
def insert (vs : Values) (key value : String) : Values := ⟨put key value vs.pairs⟩

/-- The value under a key. -/
def get? (vs : Values) (key : String) : Option String := vs.pairs.lookup key

/-- How many keys there are. -/
def size (vs : Values) : Nat := vs.pairs.length

/-- The values of a list of pairs; a later pair wins over an earlier one with its key. -/
def ofPairs (ps : List (String × String)) : Values :=
  ps.foldl (fun vs (key, value) => vs.insert key value) empty

theorem lookup_put (key value k : String) (ps : List (String × String)) :
    (put key value ps).lookup k = if k = key then some value else ps.lookup k := by
  induction ps with
  | nil => by_cases h : k = key <;> simp [put, h]
  | cons p rest ih =>
    obtain ⟨k', v⟩ := p
    have step (a b : String) (ps : List (String × String)) :
        ((a, b) :: ps).lookup k = if k = a then some b else ps.lookup k := by
      rw [List.lookup_cons]
      by_cases h : k = a
      · simp [h]
      · simp [h, beq_eq_false_iff_ne.2 h]
    by_cases h : k' = key
    · subst h
      simp only [put, if_true, step]
      split <;> simp_all
    · simp only [put, if_neg h, step, ih]
      split <;> split <;> simp_all

/-- Reading after writing. -/
theorem get?_insert (vs : Values) (key value k : String) :
    (vs.insert key value).get? k = if k = key then some value else vs.get? k :=
  lookup_put key value k vs.pairs

end Values

/-- All keys with their values at one time. -/
structure Snapshot where
  version : Nat
  values : Values
  deriving DecidableEq, Inhabited

/-- The snapshot before anything has been published. -/
def Snapshot.initial : Snapshot := ⟨0, .empty⟩

/-- A subscriber has been told of a snapshot. -/
structure Delivery where
  subscriber : Nat
  snapshot : Snapshot
  /-- What was current when it was called. -/
  current : Snapshot
  deriving DecidableEq

/-- What receivers look at: the snapshot that was sent last, and how many have been sent. -/
structure Channel where
  snapshot : Snapshot
  sent : Nat
  deriving DecidableEq

/-- The current snapshot and all who hear of the next one. -/
structure Publisher where
  current : Snapshot
  channel : Channel
  /-- How many subscribers there are; they are numbered in the order of subscribing. -/
  subscribers : Nat
  /-- How many of the snapshots that were sent each receiver has done with, in the order of
  subscribing. -/
  receivers : List Nat
  /-- What subscribers have been told, in order. -/
  deliveries : List Delivery
  deriving DecidableEq

namespace Publisher

/-- Nothing published, and nobody to tell. -/
def new : Publisher := ⟨.initial, ⟨.initial, 0⟩, 0, [], []⟩

instance : Inhabited Publisher := ⟨new⟩

/-- Makes a snapshot current. -/
def store (p : Publisher) (snapshot : Snapshot) : Publisher := { p with current := snapshot }

/-- Sends a snapshot to the receivers. -/
def send (p : Publisher) (snapshot : Snapshot) : Publisher :=
  { p with channel := ⟨snapshot, p.channel.sent + 1⟩ }

/-- Calls a subscriber. -/
def tell (snapshot : Snapshot) (p : Publisher) (subscriber : Nat) : Publisher :=
  { p with deliveries := p.deliveries ++ [⟨subscriber, snapshot, p.current⟩] }

/-- Replaces the current snapshot, and lets receivers and then subscribers know. -/
def publish (p : Publisher) (values : Values) : Publisher :=
  let snapshot : Snapshot := ⟨p.current.version + 1, values⟩
  (List.range p.subscribers).foldl (tell snapshot) ((p.store snapshot).send snapshot)

/-- One more subscriber. -/
def addSubscriber (p : Publisher) : Publisher := { p with subscribers := p.subscribers + 1 }

/-- One more receiver, which has done with all that was sent. -/
def subscribe (p : Publisher) : Publisher :=
  { p with receivers := p.receivers ++ [p.channel.sent] }

/-- Whether something has been sent since the receiver last read. -/
def hasChanged (p : Publisher) (receiver : Nat) : Bool :=
  (p.receivers[receiver]?).any (· != p.channel.sent)

/-- The receiver reads what was sent last. -/
def read (p : Publisher) (receiver : Nat) : Publisher × Snapshot :=
  ({ p with receivers := p.receivers.set receiver p.channel.sent }, p.channel.snapshot)

/-- A publisher for a reader of diagnostics. -/
def debugText (p : Publisher) : String :=
  "SnapshotStore \x7b version: " ++ toString p.current.version ++ ", subscribers: "
    ++ toString p.subscribers ++ ", .. \x7d"

/-- Calling subscribers adds to what they have been told, and to nothing else. -/
theorem foldl_tell (snapshot : Snapshot) (p : Publisher) (subscribers : List Nat) :
    subscribers.foldl (tell snapshot) p =
      { p with deliveries := p.deliveries ++ subscribers.map (⟨·, snapshot, p.current⟩) } := by
  induction subscribers generalizing p with
  | nil => rw [List.map_nil, List.append_nil]; rfl
  | cons i rest ih => rw [List.foldl_cons, ih, tell, List.append_assoc]; rfl

/-- **What a publication does.**  Every subscriber finds current what it is told of. -/
theorem publish_eq (p : Publisher) (values : Values) :
    p.publish values =
      let snapshot : Snapshot := ⟨p.current.version + 1, values⟩
      { p with
        current := snapshot
        channel := ⟨snapshot, p.channel.sent + 1⟩
        deliveries := p.deliveries ++
          (List.range p.subscribers).map (⟨·, snapshot, snapshot⟩) } :=
  foldl_tell _ _ _

@[simp] theorem current_publish (p : Publisher) (values : Values) :
    (p.publish values).current = ⟨p.current.version + 1, values⟩ := by rw [publish_eq]

end Publisher

end ReplicatedConfig
