import ReplicatedConfig.Failover.Call
import ReplicatedConfig.Setting

/-!
# What an attempt says to its replica

An attempt asks its replica for one thing at a time and hears a reply.  A `Conversation`
says what is asked in a given state of the attempt and what a reply makes of it: either
the attempt goes on, or it has what it came for.

Reading one setting and checking one token take a single request.  A listing takes as
many as there are pages: it goes through the selectors in order, follows each one's
continuations to the last page, and puts all pages together.  What one attempt has
collected belongs to that attempt alone, so a listing never mixes two replicas.
-/

namespace ReplicatedConfig

/-- A request to a replica. -/
inductive Request where
  | fetch (identity : Identity)
  | check (identity : Identity) (known : Option Token)
  | page (selector : Selector) (continuation : Option String)
  deriving DecidableEq

/-- What a replica replies. -/
inductive Reply where
  | setting (s : Option Setting)
  | verdict (v : Verdict)
  | page (p : Page)
  deriving DecidableEq

/-- Which request of which call a reply belongs to. -/
structure Ticket where
  call : Nat
  member : Nat
  /-- How many requests the attempt had made before. -/
  step : Nat
  deriving DecidableEq

/-- How far a listing has come. -/
structure Listing where
  collected : List Setting
  /-- The selectors still to be listed, the current one first. -/
  selectors : List Selector
  /-- Where the current selector's next page starts; none for its first page. -/
  continuation : Option String
  pages : Nat
  deriving DecidableEq

namespace Listing

/-- Nothing listed yet. -/
def start (selectors : List Selector) : Listing := ⟨[], selectors, none, 0⟩

/-- What a page adds. -/
def receive (l : Listing) (p : Page) : Listing :=
  { collected := l.collected ++ p.items
    selectors := if p.continuation.isSome then l.selectors else l.selectors.drop 1
    continuation := p.continuation
    pages := l.pages + 1 }

/-- Whether every selector has been listed. -/
def isDone (l : Listing) : Bool := l.selectors.isEmpty

end Listing

/-- How an attempt talks to its replica. -/
structure Conversation (σ α : Type) where
  /-- What the attempt asks next. -/
  ask : σ → Option Request
  /-- How many requests it has made before. -/
  step : σ → Nat
  /-- What a reply makes of the attempt; nothing where the reply does not fit. -/
  hear : σ → Reply → Option (σ ⊕ α)
  /-- What the attempt has without asking anything. -/
  outright : σ → Option α

namespace Conversation

/-- Reads one setting. -/
def fetch : Conversation Identity (Option Setting) where
  ask i := some (.fetch i)
  step _ := 0
  hear _
    | .setting s => some (.inr s)
    | _ => none
  outright _ := none

/-- Compares one token. -/
def check : Conversation (Identity × Option Token) Verdict where
  ask w := some (.check w.1 w.2)
  step _ := 0
  hear _
    | .verdict v => some (.inr v)
    | _ => none
  outright _ := none

/-- Lists selectors. -/
def list : Conversation Listing (List Setting) where
  ask l := l.selectors.head?.map (.page · l.continuation)
  step l := l.pages
  hear l
    | .page p =>
      let l' := l.receive p
      some (if l'.isDone then .inr l'.collected else .inl l')
    | _ => none
  outright l := if l.isDone then some l.collected else none

end Conversation

/-- A request that waits for its reply. -/
structure Outstanding where
  ticket : Ticket
  member : Member
  request : Request

namespace Call

variable {σ α : Type}

/-- The ticket of the request that an attempt waits for. -/
def ticket (c : Call σ) (k : Conversation σ α) (a : Attempt σ) : Ticket :=
  ⟨c.serial, a.member.id, k.step a.work⟩

/-- The requests that a call waits for, in the order of its attempts. -/
def outstanding (c : Call σ) (k : Conversation σ α) : List Outstanding :=
  c.inFlight.filterMap fun a => (k.ask a.work).map (⟨c.ticket k a, a.member, ·⟩)

/-- An attempt hears a reply.  A reply to nothing that the call waits for, or one that
does not fit what was asked, changes nothing. -/
def hear (c : Call σ) (k : Conversation σ α) (ticket : Ticket) (reply : Except StoreError Reply)
    (now : Instant) : Turn σ α :=
  match c.inFlight.find? fun a => c.ticket k a = ticket with
  | none => ⟨[], .waiting c⟩
  | some a =>
    match reply with
    | .error e => c.complete a.member (.error e) now
    | .ok r =>
      match k.hear a.work r with
      | none => ⟨[], .waiting c⟩
      | some (.inl work) => ⟨[], .waiting (c.continueWith a.member.id work)⟩
      | some (.inr value) => c.complete a.member (.ok value) now

/-- The first step of a call: it ends at once where there is nobody to ask or nothing to
ask for. -/
def opening (c : Call σ) (k : Conversation σ α) (now : Instant) : Turn σ α :=
  match c.inFlight.head? with
  | none => ⟨[], proceed c⟩
  | some a =>
    match k.outright a.work with
    | some value => c.complete a.member (.ok value) now
    | none => ⟨[], .waiting c⟩

end Call

end ReplicatedConfig
