import ReplicatedConfig.Failover.Conversation
import ReplicatedConfig.Pool

/-!
# A simulated store

One set of settings that every host serves alike, in the order of their names.  What
differs between hosts is trouble: how long a call takes, which calls fail, and for which
hosts no client can be created.  All of it can be changed at any time.

## When a call sees what

The time that a call takes is read when the call begins.  Whether it fails, and with which
settings it is answered, is decided when it ends.  A call that is dropped on the way
therefore uses up no failure.

## Continuations

A listing is cut into pages.  A continuation names the host that issued it and how many
settings came before, and only that host honours it.
-/

namespace ReplicatedConfig
namespace Simulation

/-- The kinds of calls to a store. -/
inductive CallKind where
  | fetch
  | check
  | page
  deriving DecidableEq

/-- The kind's name in the log. -/
def CallKind.name : CallKind → String
  | .fetch => "fetch_one"
  | .check => "check_changed"
  | .page => "fetch_page"

/-- A call as it is logged when it begins. -/
structure StoreCall where
  time : Instant
  host : String
  kind : CallKind
  /-- The name or the selector that the call is about. -/
  subject : String
  /-- The known token of a check, or the continuation of a listing. -/
  extra : Option String

/-- The log entry of a request. -/
def StoreCall.ofRequest (time : Instant) (host : String) : Request → StoreCall
  | .fetch i => ⟨time, host, .fetch, i.text, none⟩
  | .check i known => ⟨time, host, .check, i.text, known.map (·.text)⟩
  | .page s continuation => ⟨time, host, .page, s.text, continuation⟩

/-- Makes calls fail. -/
structure FailureRule where
  /-- The host whose calls fail; a star stands for every host. -/
  host : String
  /-- The kind of calls that fail; none stands for every kind. -/
  kind : Option CallKind
  /-- What the calls that fail are about; none stands for anything. -/
  subject : Option String
  error : StoreError
  /-- How many calls are still to fail; none stands for all. -/
  uses : Option Nat
  /-- How many calls are let through before. -/
  skip : Nat

namespace FailureRule

/-- Whether a rule is about a call. -/
def applies (r : FailureRule) (c : StoreCall) : Bool :=
  (r.host == "*" || r.host == c.host) && r.kind.all (· == c.kind) && r.subject.all (· == c.subject)
    && r.uses != some 0

/-- What a call does to the rules, and the error it fails with, if any. -/
def judge (c : StoreCall) : List FailureRule → List FailureRule × Option StoreError
  | [] => ([], none)
  | r :: rest =>
    let (rest', error) := judge c rest
    if r.applies c then
      if r.skip = 0 then ({ r with uses := r.uses.map (· - 1) } :: rest, some r.error)
      else ({ r with skip := r.skip - 1 } :: rest', error)
    else (r :: rest', error)

end FailureRule

/-- A simulated store. -/
structure Store where
  /-- In the order of their names, each name once. -/
  settings : List Setting
  /-- How many settings have ever been put. -/
  puts : Nat
  /-- How many settings a page holds; zero sets no limit. -/
  pageSize : Nat
  rules : List FailureRule
  /-- How long calls take, by host, and by host and kind. -/
  delays : List ((String × Option CallKind) × Duration)
  /-- What checks are answered with in spite of the settings. -/
  verdicts : List (Identity × Verdict)
  /-- What reads are answered with in spite of the settings. -/
  readings : List (Identity × Option Setting)
  /-- The hosts for which no client can be created. -/
  refused : List (String × StoreError)
  /-- The calls that have begun. -/
  calls : List StoreCall

/-- The associations with another value under a key, or with none. -/
def assign {κ α : Type} [DecidableEq κ] (key : κ) (value : Option α) (kvs : List (κ × α)) : List (κ × α) :=
  (value.map (key, ·)).toList ++ kvs.filter (·.1 ≠ key)

namespace Store

/-- A store without settings and without trouble. -/
def empty : Store := ⟨[], 0, 0, [], [], [], [], [], []⟩

instance : Inhabited Store := ⟨empty⟩

/-- The settings with `s` at its place, instead of the one with its name. -/
def place (s : Setting) : List Setting → List Setting
  | [] => [s]
  | t :: rest =>
    if t.identity = s.identity then s :: rest
    else if s.identity.before t.identity then s :: t :: rest
    else t :: place s rest

/-- Puts a setting; without a token of its own it gets one that counts the puts. -/
def put (st : Store) (key : String) (label value contentType : Option String) (token : Option Token) :
    Store × Token :=
  let puts := st.puts + 1
  let token := token.getD ⟨"rev-" ++ toString puts⟩
  ({ st with puts, settings := place ⟨key, label, value, contentType, token⟩ st.settings }, token)

/-- The setting with a name. -/
def find? (st : Store) (i : Identity) : Option Setting := st.settings.find? (·.identity = i)

/-- Takes a setting away, and says whether there was one. -/
def remove (st : Store) (i : Identity) : Store × Bool :=
  ({ st with settings := st.settings.filter (·.identity ≠ i) }, (st.find? i).isSome)

/-- One more rule, behind the others. -/
def fail (st : Store) (r : FailureRule) : Store := { st with rules := st.rules ++ [r] }

/-- Drops the rules that were made for a host, or for the star. -/
def heal (st : Store) (host : String) : Store :=
  { st with rules := st.rules.filter (·.host ≠ host) }

/-- Sets how long calls to a host take. -/
def delay (st : Store) (host : String) (kind : Option CallKind) (d : Duration) : Store :=
  { st with delays := assign (host, kind) (some d) st.delays }

/-- How long a call to a host takes. -/
def delayOf (st : Store) (host : String) (kind : CallKind) : Duration :=
  ((st.delays.lookup (host, some kind)).or (st.delays.lookup (host, none))).getD .zero

/-- Why no client can be created for an endpoint, if that is so. -/
def refusals (st : Store) : Refusals := fun e => st.refused.lookup e.host

/-- How a read is answered. -/
def answerFetch (st : Store) (i : Identity) : Option Setting :=
  (st.readings.lookup i).getD (st.find? i)

/-- How a check is answered. -/
def answerCheck (st : Store) (i : Identity) (known : Option Token) : Verdict :=
  (st.verdicts.lookup i).getD
    (match st.find? i with
    | none => .missing
    | some s => if known = some s.token then .unchanged else .modified)

/-- Where a page starts: at the start, or where the continuation says. -/
def pageStart (host : String) : Option String → Except StoreError Nat
  | none => .ok 0
  | some continuation =>
    match continuation.splitOn "#" with
    | issuer :: rest =>
      if issuer = host then .ok (((rest.head?).bind (·.toNat?)).getD 0)
      else .error (.invalidRequest ("continuation issued by " ++ issuer ++ " presented to " ++ host))
    | [] => .ok 0

/-- How a listing is answered. -/
def answerPage (st : Store) (host : String) (s : Selector) (continuation : Option String) :
    Except StoreError Page :=
  (pageStart host continuation).map fun start =>
    let chosen := st.settings.filter s.selects
    if st.pageSize = 0 then ⟨chosen.drop start, none⟩
    else
      let stop := start + st.pageSize
      ⟨(chosen.drop start).take st.pageSize,
        if stop < chosen.length then some (host ++ "#" ++ toString stop) else none⟩

/-- Begins a call: logs it and says how long it takes. -/
def begin (st : Store) (time : Instant) (host : String) (r : Request) : Store × Duration :=
  let call := StoreCall.ofRequest time host r
  ({ st with calls := st.calls ++ [call] }, st.delayOf host call.kind)

/-- Ends a call. -/
def answer (st : Store) (time : Instant) (host : String) (r : Request) :
    Store × Except StoreError Reply :=
  let (rules, error) := FailureRule.judge (.ofRequest time host r) st.rules
  let reply := match error with
    | some e => .error e
    | none =>
      match r with
      | .fetch i => .ok (.setting (st.answerFetch i))
      | .check i known => .ok (.verdict (st.answerCheck i known))
      | .page s continuation => (st.answerPage host s continuation).map .page
  ({ st with rules }, reply)

end Store

end Simulation
end ReplicatedConfig
