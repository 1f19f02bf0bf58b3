import Mathlib.Data.List.Basic
import Mathlib.Data.List.Nodup
import ReplicatedConfig.Snapshot

/-!
# Every publication is heard once

Three parties follow what is published: readers that take the current snapshot, receivers that
ask whether there is a new one, and subscribers that are called.  Publishing serves them one after
another, and they may join at any time.  `seen_once` says of every run what each of them gets.

* The snapshots of a run are its published values, numbered from one (`snapshots`).
* A subscriber hears of those that come after it, in their order.
* A receiver has news if and only if one came since it last looked.
* What a reader keeps stays what it was.

## What part of a run adds

All of it follows from `Follows`, which says what a part of a run makes of a session, whatever
came before: one act follows (`follows_apply`), and parts that follow one another make one that
follows (`Follows.trans`).  A run is then cut where a party joins or looks.
-/

namespace ReplicatedConfig
namespace Publisher

/-! ## One publication -/

/-- The snapshots that a subscriber has been told of, in order. -/
def told (p : Publisher) (subscriber : Nat) : List Snapshot :=
  (p.deliveries.filter (·.subscriber = subscriber)).map (·.snapshot)

/-- One publication is one call for each subscriber. -/
theorem told_publish (p : Publisher) (values : Values) (i : Nat) :
    (p.publish values).told i =
      p.told i ++ if i < p.subscribers then [⟨p.current.version + 1, values⟩] else [] := by
  have hcalls : (List.range p.subscribers).filter (· = i) =
      if i < p.subscribers then [i] else [] := by
    rw [List.filter_eq, List.nodup_range.count, if_congr List.mem_range rfl rfl]
    split <;> rfl
  rw [told, publish_eq, List.filter_append, List.map_append, List.filter_map, List.map_map]
  refine congrArg (p.told i ++ ·) ?_
  show ((List.range p.subscribers).filter (· = i)).map (fun _ => (⟨_, values⟩ : Snapshot)) = _
  rw [hcalls]
  split <;> rfl

/-! ## Sessions -/

/-- What is done with a publisher. -/
inductive Act where
  | publish (values : Values)
  | addSubscriber
  | subscribe
  | hasChanged (receiver : Nat)
  | read (receiver : Nat)
  /-- A reader takes the current snapshot and keeps it. -/
  | hold
  deriving DecidableEq

/-- A publisher, and the snapshots that readers have kept, in the order of taking. -/
structure Session where
  publisher : Publisher
  held : List Snapshot

namespace Session

/-- Nothing has been published, and nobody listens. -/
def start : Session := ⟨.new, []⟩

def apply (s : Session) : Act → Session
  | .publish values => { s with publisher := s.publisher.publish values }
  | .addSubscriber => { s with publisher := s.publisher.addSubscriber }
  | .subscribe => { s with publisher := s.publisher.subscribe }
  | .hasChanged _ => s
  | .read receiver => { s with publisher := (s.publisher.read receiver).1 }
  | .hold => { s with held := s.held ++ [s.publisher.current] }

def run (s : Session) (acts : List Act) : Session := acts.foldl apply s

@[simp] theorem run_cons (s : Session) (act : Act) (acts : List Act) :
    s.run (act :: acts) = (s.apply act).run acts := rfl

theorem run_append (s : Session) (acts acts' : List Act) :
    s.run (acts ++ acts') = (s.run acts).run acts' := List.foldl_append

end Session

/-- The values that are published, in order. -/
def published (acts : List Act) : List Values :=
  acts.filterMap fun
    | .publish values => some values
    | _ => none

theorem published_append (acts acts' : List Act) :
    published (acts ++ acts') = published acts ++ published acts' := List.filterMap_append

/-- The snapshots that are published where `version` is current before. -/
def snapshotsFrom (version : Nat) (acts : List Act) : List Snapshot :=
  (published acts).mapIdx fun n values => ⟨version + n + 1, values⟩

/-- The snapshots of a session: the published values, numbered from one. -/
abbrev snapshots (acts : List Act) : List Snapshot := snapshotsFrom 0 acts

theorem snapshotsFrom_append (version : Nat) (acts acts' : List Act) :
    snapshotsFrom version (acts ++ acts') =
      snapshotsFrom version acts ++ snapshotsFrom (version + (published acts).length) acts' := by
  rw [snapshotsFrom, published_append, List.mapIdx_append, snapshotsFrom, snapshotsFrom]
  refine congrArg _ (congrArg (List.mapIdx · _) ?_)
  funext n values
  rw [Nat.add_comm n, ← Nat.add_assoc version]

/-! ## What part of a session adds -/

/-- What the acts make of a session. -/
structure Follows (acts : List Act) (s t : Session) : Prop where
  version : t.publisher.current.version =
    s.publisher.current.version + (published acts).length
  current : t.publisher.current =
    (snapshotsFrom s.publisher.current.version acts).getLast?.getD s.publisher.current
  sent : t.publisher.channel.sent = s.publisher.channel.sent + (published acts).length
  /-- Receivers are sent what becomes current. -/
  channel : t.publisher.channel.snapshot =
    (snapshotsFrom s.publisher.current.version acts).getLast?.getD s.publisher.channel.snapshot
  subscribers : t.publisher.subscribers = s.publisher.subscribers + acts.count .addSubscriber
  /-- Those that had subscribed are told of every publication. -/
  told : ∀ i < s.publisher.subscribers, t.publisher.told i =
    s.publisher.told i ++ snapshotsFrom s.publisher.current.version acts
  /-- Those that have not subscribed are told of nothing. -/
  untold : (∀ i ≥ s.publisher.subscribers, s.publisher.told i = []) →
    ∀ i ≥ t.publisher.subscribers, t.publisher.told i = []
  receivers : t.publisher.receivers.length = s.publisher.receivers.length + acts.count .subscribe
  /-- What a receiver has seen changes only by its reading. -/
  seen : ∀ r < s.publisher.receivers.length, .read r ∉ acts →
    t.publisher.receivers[r]? = s.publisher.receivers[r]?
  held : ∃ later, t.held = s.held ++ later ∧ later.length = acts.count .hold

namespace Follows

variable {acts acts' : List Act} {s t u : Session}

theorem refl (s : Session) : Follows [] s s where
  version := rfl
  current := rfl
  sent := rfl
  channel := rfl
  subscribers := rfl
  told _ _ := (List.append_nil _).symm
  untold h := h
  receivers := rfl
  seen _ _ _ := rfl
  held := ⟨[], (List.append_nil _).symm, rfl⟩

theorem trans (h : Follows acts s t) (h' : Follows acts' t u) : Follows (acts ++ acts') s u where
  version := by rw [h'.version, h.version, published_append, List.length_append, Nat.add_assoc]
  current := by
    rw [h'.current, h.version, h.current, snapshotsFrom_append, List.getLast?_append]
    cases (snapshotsFrom (s.publisher.current.version + _) acts').getLast? <;> rfl
  sent := by rw [h'.sent, h.sent, published_append, List.length_append, Nat.add_assoc]
  channel := by
    rw [h'.channel, h.version, h.channel, snapshotsFrom_append, List.getLast?_append]
    cases (snapshotsFrom (s.publisher.current.version + _) acts').getLast? <;> rfl
  subscribers := by rw [h'.subscribers, h.subscribers, List.count_append, Nat.add_assoc]
  told i hi := by
    have hi' : i < t.publisher.subscribers := h.subscribers ▸ Nat.lt_add_right _ hi
    rw [h'.told i hi', h.told i hi, h.version, snapshotsFrom_append, List.append_assoc]
  untold hs := h'.untold (h.untold hs)
  receivers := by rw [h'.receivers, h.receivers, List.count_append, Nat.add_assoc]
  seen r hr hread := by
    have hr' : r < t.publisher.receivers.length := h.receivers ▸ Nat.lt_add_right _ hr
    rw [List.mem_append, not_or] at hread
    rw [h'.seen r hr' hread.2, h.seen r hr hread.1]
  held := by
    obtain ⟨later, hheld, hlater⟩ := h.held
    obtain ⟨later', hheld', hlater'⟩ := h'.held
    refine ⟨later ++ later', by rw [hheld', hheld, List.append_assoc], ?_⟩
    rw [List.length_append, hlater, hlater', List.count_append]

end Follows

theorem follows_apply (s : Session) (act : Act) : Follows [act] s (s.apply act) := by
  have hnil {α : Type} (l : List α) : l = l ++ [] := (List.append_nil l).symm
  cases act with
  | publish values =>
    have hq := publish_eq s.publisher values
    refine ⟨congrArg (·.current.version) hq, congrArg (·.current) hq, congrArg (·.channel.sent) hq,
      congrArg (·.channel.snapshot) hq, congrArg (·.subscribers) hq, fun i hi => ?_,
      fun hs i hi => ?_, congrArg (·.receivers.length) hq,
      fun r _ _ => congrArg (·.receivers[r]?) hq, ⟨[], hnil _, rfl⟩⟩
    · exact (told_publish _ values i).trans (by rw [if_pos hi]; rfl)
    · have hsame : (s.apply (.publish values)).publisher.subscribers = s.publisher.subscribers :=
        congrArg (·.subscribers) hq
      rw [hsame] at hi
      exact (told_publish _ values i).trans (by rw [hs i hi, if_neg (Nat.not_lt.2 hi)]; rfl)
  | addSubscriber =>
    exact ⟨rfl, rfl, rfl, rfl, rfl, fun i _ => hnil _, fun hs i hi => hs i (Nat.le_of_succ_le hi),
      rfl, fun _ _ _ => rfl, ⟨[], hnil _, rfl⟩⟩
  | subscribe =>
    refine ⟨rfl, rfl, rfl, rfl, rfl, fun i _ => hnil _, fun hs => hs, List.length_append,
      fun r hr _ => ?_, ⟨[], hnil _, rfl⟩⟩
    exact List.getElem?_append_left hr
  | hasChanged receiver =>
    exact ⟨rfl, rfl, rfl, rfl, rfl, fun i _ => hnil _, fun hs => hs, rfl, fun _ _ _ => rfl,
      ⟨[], hnil _, rfl⟩⟩
  | read receiver =>
    refine ⟨rfl, rfl, rfl, rfl, rfl, fun i _ => hnil _, fun hs => hs, List.length_set,
      fun r _ hread => ?_, ⟨[], hnil _, rfl⟩⟩
    have hne : receiver ≠ r := fun h => hread (h ▸ List.mem_singleton_self _)
    exact List.getElem?_set_ne hne
  | hold =>
    exact ⟨rfl, rfl, rfl, rfl, rfl, fun i _ => hnil _, fun hs => hs, rfl, fun _ _ _ => rfl,
      ⟨_, rfl, rfl⟩⟩

/-- **Runs.**  So does everything that is done one after the other. -/
theorem follows_run (s : Session) (acts : List Act) : Follows acts s (s.run acts) := by
  induction acts generalizing s with
  | nil => exact .refl s
  | cons act rest ih => exact (follows_apply s act).trans (ih (s.apply act))

/-! ## Whole sessions -/

/-- What is current is what was published last, and its version says how often that was. -/
theorem current_run (acts : List Act) :
    (Session.start.run acts).publisher.current = (snapshots acts).getLast?.getD .initial ∧
      (Session.start.run acts).publisher.current.version = (published acts).length := by
  have h := follows_run .start acts
  exact ⟨h.current, h.version.trans (Nat.zero_add _)⟩

/-- What receivers would read is what is current. -/
theorem channel_run (acts : List Act) :
    (Session.start.run acts).publisher.channel.snapshot =
      (snapshots acts).getLast?.getD .initial := (follows_run .start acts).channel

theorem subscribers_run (acts : List Act) :
    (Session.start.run acts).publisher.subscribers = acts.count .addSubscriber :=
  (follows_run .start acts).subscribers.trans (Nat.zero_add _)

theorem receivers_run (acts : List Act) :
    (Session.start.run acts).publisher.receivers.length = acts.count .subscribe :=
  (follows_run .start acts).receivers.trans (Nat.zero_add _)

/-- The snapshots of a session that goes on are the earlier ones and the later ones. -/
theorem drop_snapshots (before after : List Act) :
    (snapshots (before ++ after)).drop (published before).length =
      snapshotsFrom (published before).length after := by
  have hlength : (published before).length = (snapshots before).length := List.length_mapIdx.symm
  rw [snapshots, snapshotsFrom_append, Nat.zero_add]
  exact List.drop_left' hlength.symm

/-- A receiver has news if and only if something has been published since it had done with all that
was sent. -/
theorem hasChanged_run {s : Session} {r : Nat}
    (hseen : s.publisher.receivers[r]? = some s.publisher.channel.sent) {acts : List Act}
    (hread : .read r ∉ acts) :
    (s.run acts).publisher.hasChanged r = true ↔ published acts ≠ [] := by
  have h := follows_run s acts
  have hr := (List.getElem?_eq_some_iff.1 hseen).1
  rw [hasChanged, h.seen r hr hread, hseen, h.sent, Option.any_some, bne_iff_ne,
    ← List.length_pos_iff]
  omega

/-- A receiver that is new, or has just read, has done with all that was sent. -/
theorem seen_sent {s : Session} {r : Nat} {act : Act}
    (hact : act = .subscribe ∧ r = s.publisher.receivers.length ∨
      act = .read r ∧ r < s.publisher.receivers.length) :
    (s.apply act).publisher.receivers[r]? = some (s.apply act).publisher.channel.sent := by
  rcases hact with ⟨rfl, rfl⟩ | ⟨rfl, hr⟩
  · exact List.getElem?_concat_length
  · exact List.getElem?_set_self hr

/-- **Every publication is heard once.**  A session is cut between `before` and `after`, where
something is published, a party joins or looks, or a snapshot is taken. -/
theorem seen_once (before after : List Act) :
    -- a publication has the next version, and subscribers are called in their order and find it
    -- current
    (∀ values, let snapshot : Snapshot := ⟨(published before).length + 1, values⟩
      let p := (Session.start.run before).publisher
      let q := (Session.start.run (before ++ [.publish values])).publisher
      q.current = snapshot ∧ q.deliveries = p.deliveries ++
        (List.range (before.count .addSubscriber)).map (⟨·, snapshot, snapshot⟩)) ∧
    -- a subscriber is told of what is published after it came
    (Session.start.run (before ++ .addSubscriber :: after)).publisher.told
        (before.count .addSubscriber) =
      (snapshots (before ++ .addSubscriber :: after)).drop (published before).length ∧
    -- a receiver that comes or reads has news from the next publication on, and reads the last
    (∀ r act, (act = .subscribe ∧ r = before.count .subscribe ∨
        act = .read r ∧ r < before.count .subscribe) → .read r ∉ after →
      let p := (Session.start.run (before ++ act :: after)).publisher
      (p.hasChanged r = true ↔ published after ≠ []) ∧
        (p.read r).2 = (snapshots (before ++ act :: after)).getLast?.getD .initial) ∧
    -- a snapshot that is kept stays the one that was current
    (Session.start.run (before ++ .hold :: after)).held[before.count .hold]? =
      some (Session.start.run before).publisher.current := by
  have hbefore := follows_run .start before
  have hversion := (current_run before).2
  refine ⟨fun values => ?_, ?_, fun r act hact hread => ⟨?_, channel_run _⟩, ?_⟩
  · have hq : (Session.start.run (before ++ [.publish values])).publisher =
        (Session.start.run before).publisher.publish values := by
      rw [Session.run_append]
      rfl
    simp only [hq, ← subscribers_run, ← hversion]
    exact ⟨current_publish _ values, congrArg (·.deliveries) (publish_eq _ values)⟩
  · have hafter := follows_run ((Session.start.run before).apply .addSubscriber) after
    have hnone : (Session.start.run before).publisher.told (before.count .addSubscriber) = [] :=
      hbefore.untold (fun _ _ => rfl) _ (Nat.le_of_eq (subscribers_run before))
    have hnew := hafter.told (before.count .addSubscriber)
      ((subscribers_run before).symm ▸ Nat.lt_succ_self _)
    rw [Session.run_append, Session.run_cons, hnew, drop_snapshots, ← hversion]
    exact congrArg (· ++ _) hnone
  · rw [Session.run_append, Session.run_cons]
    rw [← receivers_run] at hact
    exact hasChanged_run (seen_sent hact) hread
  · obtain ⟨later, hheld, -⟩ := (follows_run ((Session.start.run before).apply .hold) after).held
    obtain ⟨earlier, hearlier, hlength⟩ := hbefore.held
    have hcount : (Session.start.run before).held.length = before.count .hold := by
      rw [hearlier, List.length_append, hlength]
      exact Nat.zero_add _
    have hkept : ((Session.start.run before).apply .hold).held[before.count .hold]? =
        some (Session.start.run before).publisher.current := by
      rw [← hcount]
      exact List.getElem?_concat_length
    rw [Session.run_append, Session.run_cons, hheld,
      List.getElem?_append_left (List.getElem?_eq_some_iff.1 hkept).1, hkept]

/-- A receiver that comes between two publications has news, and reads the second. -/
theorem seen_once_between : let later : Values := ⟨[("color", "red")]⟩
    let p := (Session.start.run ([.publish .empty] ++ .subscribe :: [.publish later])).publisher
    p.hasChanged 0 = true ∧ (p.read 0).2 = ⟨2, later⟩ := by
  obtain ⟨-, -, hreceiver, -⟩ := seen_once [.publish .empty] [.publish ⟨[("color", "red")]⟩]
  obtain ⟨hnews, hread⟩ := hreceiver 0 .subscribe (.inl ⟨rfl, rfl⟩) (by decide)
  exact ⟨hnews.2 (List.cons_ne_nil _ _), hread⟩

end Publisher
end ReplicatedConfig
