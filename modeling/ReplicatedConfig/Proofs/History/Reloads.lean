import ReplicatedConfig.Proofs.History.Changes

/-!
# What a reload has gathered, and when

A reload looks at every name that is watched when its listing ends, and everything that it
loads is of a moment behind its own beginning.  Since it holds the lock from there to its end,
nothing that is loaded meanwhile is of a later moment: what was loaded when it began is all
that it replaces (`Begun`).

`Gathered` says of the settings what has been read and which names have been looked at, and
`Adapts` the same of the entries that are made of them.  A setting that an adapter refuses
leaves what is loaded under its name as it is, or ends the reload.

A name that is watched only behind the listing need not have been looked at, and then what is
loaded under it goes away although the store may still have it (`Provider.Misses`).  No promise
is made that a listing is complete, for the store may change between its pages.
-/

namespace ReplicatedConfig

variable {h : History} {clock clock' : Clock} {me other : TaskId} {back : Nat → Prop}
  {p q : Provider} {seen seen' : Sight} {cancelled : Bool}

/-- A step of an operation in phases renews the provider, and leads to where the operation may
stand. -/
def Provider.Renewing {μ α : Type} (h : History) (clock : Clock) (me : TaskId) (back : Nat → Prop)
    (timely : Provider → Sight → μ → Prop) (seen : Sight) (p : Provider) :
    Provider × Stage μ α → Prop
  | (q, .running phase) => ∃ seen', p.Renews h clock.now me back seen q seen' ∧ timely q seen' phase
  | (q, .finished _) => ∃ seen', p.Renews h clock.now me back seen q seen'

theorem Provider.Renewing.of_renews {μ α : Type} {timely : Provider → Sight → μ → Prop}
    {x : Provider × Stage μ α} (hq : p.Renews h clock.now me back seen q seen')
    (hx : q.Renewing h clock me back timely seen' x) :
    p.Renewing h clock me back timely seen x := by
  obtain ⟨r, phase | result⟩ := x
  · obtain ⟨seen'', hr, hphase⟩ := hx
    exact ⟨seen'', hq.trans hr, hphase⟩
  · obtain ⟨seen'', hr⟩ := hx
    exact ⟨seen'', hq.trans hr⟩

namespace Reload

variable {b n n' watched : Nat} {left left' : Nat → Prop} {ids : List Identity} {i : Identity}
  {raw rest : List Setting} {previous done : List Entry}

/-! ## What has been gathered -/

theorem mem_of_mem_gather {listed : List Setting} {s : Setting} (hs : s ∈ gather listed) :
    s ∈ listed := by
  induction listed using List.reverseRecOn with
  | nil => exact hs
  | append_singleton rest t ih =>
    rw [gather_concat, gatherOne] at hs
    rw [List.mem_append, List.mem_singleton]
    split at hs
    · obtain ⟨r, hr, hrs⟩ := List.mem_map.1 hs
      split at hrs
      · exact .inr hrs.symm
      · exact .inl (ih (hrs ▸ hr))
    · exact (List.mem_append.1 hs).imp ih List.mem_singleton.1

/-- Settings of moments behind `b`, and which of the first `watched` names have been looked
at: all but those at the places `left`. -/
structure Gathered (h : History) (b n : Nat) (ids : List Identity) (watched : Nat)
    (left : Nat → Prop) (raw : List Setting) : Prop where
  nodup : (namesOf raw).Nodup
  had : ∀ s ∈ raw, h.Had b n s.identity (some s)
  looked : ∀ place < watched, ∀ i, ids[place]? = some i →
    left place ∨ i ∈ namesOf raw ∨ h.Had b n i none

theorem mem_namesOf_append (hi : i ∈ namesOf raw) : i ∈ namesOf (raw ++ rest) := by
  rw [namesOf, List.map_append]
  exact List.mem_append_left _ hi

theorem Gathered.imp (hraw : Gathered h b n ids watched left raw)
    (himp : ∀ (place : Nat) i, ids[place]? = some i → left place → left' place ∨ i ∈ namesOf raw) :
    Gathered h b n ids watched left' raw where
  nodup := hraw.nodup
  had := hraw.had
  looked place hlt i hplace := by
    rcases hraw.looked place hlt i hplace with hleft | hlooked
    · rcases himp place i hplace hleft with hleft | hthere
      · exact .inl hleft
      · exact .inr (.inl hthere)
    · exact .inr hlooked

/-- The first place that is left needs no read: it has no name, or a setting with its name is
there. -/
theorem Gathered.skip {place : Nat} {places : List Nat}
    (hraw : Gathered h b n ids watched (· ∈ place :: places) raw)
    (hthere : ∀ i, ids[place]? = some i → i ∈ namesOf raw) :
    Gathered h b n ids watched (· ∈ places) raw := by
  refine hraw.imp fun place' i hplace hleft => ?_
  rcases List.mem_cons.1 hleft with rfl | hleft
  · exact .inr (hthere i hplace)
  · exact .inl hleft

/-- The name at the first place that is left is being read. -/
theorem Gathered.reading {place : Nat} {places : List Nat}
    (hraw : Gathered h b n ids watched (· ∈ place :: places) raw) (hhere : ids[place]? = some i) :
    Gathered h b n ids watched (fun place => place ∈ places ∨ ids[place]? = some i) raw := by
  refine hraw.imp fun place' j hplace hleft => .inl ?_
  rcases List.mem_cons.1 hleft with rfl | hleft
  · exact .inr hhere
  · exact .inl hleft

/-- One name more has been read. -/
theorem Gathered.read
    (hraw : Gathered h b n ids watched (fun place => left place ∨ ids[place]? = some i) raw)
    (habsent : i ∉ namesOf raw) {o : Option Setting} (hhad : h.Had b n i o) :
    Gathered h b n ids watched left (raw ++ o.toList) := by
  have hname : ∀ s, o = some s → s.identity = i := by
    rintro s rfl
    obtain ⟨k, -, -, hk⟩ := hhad
    exact (h k).identity_of_find? hk
  refine ⟨?_, fun s hs => ?_, fun place hlt j hplace => ?_⟩
  · cases o with
    | none => simpa using hraw.nodup
    | some s =>
      rw [namesOf, List.map_append, Option.toList_some, List.map_singleton, hname s rfl,
        ← List.concat_eq_append]
      exact hraw.nodup.concat habsent
  · rcases List.mem_append.1 hs with hs | hs
    · exact hraw.had s hs
    · have ho : o = some s := Option.mem_toList.1 hs
      rw [hname s ho, ← ho]
      exact hhad
  · rcases hraw.looked place hlt j hplace with (hleft | hthis) | hthere | hnone
    · exact .inl hleft
    · cases hplace.symm.trans hthis
      cases o with
      | none => exact .inr (.inr hhad)
      | some s =>
        refine .inr (.inl ?_)
        rw [namesOf, List.map_append, Option.toList_some, List.map_singleton, hname s rfl]
        exact List.mem_append_right _ List.mem_cons_self
    · exact .inr (.inl (mem_namesOf_append hthere))
    · exact .inr (.inr hnone)

/-! ## What has been adapted -/

/-- Entries of moments behind `b`, or as they are loaded, and settings that are still to be
adapted. -/
structure Adapts (h : History) (b n : Nat) (p : Provider) (watched : Nat) (raw : List Setting)
    (previous done : List Entry) : Prop where
  nodup : (done.map (·.identity) ++ namesOf raw).Nodup
  had : ∀ s ∈ raw, h.Had b n s.identity (some s)
  loads : ∀ e ∈ done, h.Had b n e.identity (some e.setting) ∨ e ∈ p.materialized.entries
  looked : ∀ place < watched, ∀ i, p.watchList.identities[place]? = some i →
    i ∈ done.map (·.identity) ∨ i ∈ namesOf raw ∨ h.Had b n i none ∨ p.setting? i = none
  earlier : ∀ e ∈ previous, e ∈ p.materialized.entries
  kept : p.options.optional = true → ∀ e ∈ p.materialized.entries, e.identity ∈ namesOf raw →
    e ∈ previous

/-- What becomes of a setting: an entry with its name, or nothing where nothing is loaded under
its name. -/
structure Becomes (h : History) (b n : Nat) (p : Provider) (s : Setting) (o : Option Entry) :
    Prop where
  name : ∀ e, o = some e → e.identity = s.identity
  loads : ∀ e, o = some e → h.Had b n e.identity (some e.setting) ∨ e ∈ p.materialized.entries
  absent : o = none → p.setting? s.identity = none

/-- One setting more has been through the adapters. -/
theorem Adapts.next {s : Setting} (hraw : Adapts h b n p watched (s :: rest) previous done)
    {previous' : List Entry} {o : Option Entry} (ho : Becomes h b n p s o)
    (hprevious : ∀ e ∈ previous', e ∈ previous)
    (hkept : ∀ e ∈ previous, e.identity ≠ s.identity → e ∈ previous') :
    Adapts h b n p watched rest previous' (done ++ o.toList) := by
  have hnodup := hraw.nodup
  rw [namesOf, List.map_cons, List.nodup_middle, List.nodup_cons] at hnodup
  have hrest : (done.map (·.identity) ++ namesOf rest).Nodup := hnodup.2
  have hnew : s.identity ∉ done.map (·.identity) ++ namesOf rest := hnodup.1
  refine ⟨?_, fun t ht => hraw.had t (List.mem_cons_of_mem _ ht), fun e he => ?_,
    fun place hlt i hplace => ?_, fun e he => hraw.earlier e (hprevious e he),
    fun hoptional e he hmem => ?_⟩
  · cases o with
    | none => simpa using hrest
    | some e =>
      rw [List.map_append, Option.toList_some, List.map_singleton, ho.name e rfl, List.append_assoc,
        List.singleton_append, List.nodup_middle, List.nodup_cons]
      exact ⟨hnew, hrest⟩
  · rcases List.mem_append.1 he with he | he
    · exact hraw.loads e he
    · exact ho.loads e (Option.mem_toList.1 he)
  · have hmem : i ∈ done.map (·.identity) → i ∈ (done ++ o.toList).map (·.identity) := fun hi => by
      rw [List.map_append]
      exact List.mem_append_left _ hi
    rcases hraw.looked place hlt i hplace with hthere | hthere | hlooked
    · exact .inl (hmem hthere)
    · rcases List.mem_cons.1 hthere with rfl | hthere
      · cases o with
        | none => exact .inr (.inr (.inr (ho.absent rfl)))
        | some e =>
          refine .inl ?_
          rw [List.map_append, Option.toList_some, List.map_singleton, ho.name e rfl]
          exact List.mem_append_right _ List.mem_cons_self
      · exact .inr (.inl hthere)
    · exact .inr (.inr hlooked)
  · refine hkept e (hraw.kept hoptional e he (List.mem_cons_of_mem _ hmem)) fun hsame => ?_
    exact hnew (List.mem_append_right _ (hsame ▸ hmem))

end Reload

/-- A reload that brings the names `kept` does not bring the name at a place, which is watched only
behind its listing.  Something is loaded under the name, and the store has had it ever since. -/
def Provider.Misses (h : History) (n : Nat) (seen : Sight) (p : Provider) (watched : Nat)
    (kept : List Identity) (place : Nat) : Prop :=
  watched ≤ place ∧ ∃ i, p.watchList.identities[place]? = some i ∧ i ∉ kept ∧
    p.setting? i ≠ none ∧ ¬ h.Had (seen i) n i none

section Misses

variable {n watched place : Nat} {kept kept' : List Identity}

theorem Provider.Misses.of_called (hmisses : q.Misses h n seen watched kept place)
    (hq : p.Called q) : p.Misses h n seen watched kept place := by
  obtain ⟨hlate, i, hplace, hnot, hloaded, hstill⟩ := hmisses
  rw [hq.watchList] at hplace
  rw [setting?, hq.materialized] at hloaded
  exact ⟨hlate, i, hplace, hnot, hloaded, hstill⟩

/-- It still does not bring the name where it brings fewer names. -/
theorem Provider.Misses.of_brought (hmisses : p.Misses h n seen watched kept' place)
    (hbrought : ∀ i ∈ kept, i ∈ kept' ∨ p.setting? i = none) :
    p.Misses h n seen watched kept place := by
  obtain ⟨hlate, i, hplace, hnot, hloaded, hstill⟩ := hmisses
  exact ⟨hlate, i, hplace, fun hmem => (hbrought i hmem).elim hnot hloaded, hloaded, hstill⟩

end Misses

namespace Reload

variable {b n n' watched : Nat} {i : Identity} {raw rest : List Setting}
  {previous done : List Entry}

/-! ## Where a reload may stand -/

/-- A reload that began at a moment `b` holds the lock, and nothing that is loaded is of a later
moment.  Of the names that were not watched when its listing ended no token is known. -/
structure Begun (me : TaskId) (p : Provider) (seen : Sight) (b watched : Nat) : Prop where
  holder : p.lock.holder = some me
  seen : ∀ i, seen i ≤ b
  old : watched ≤ p.watchList.identities.length
  late : ∀ place, watched ≤ place → p.tokenAt place = none

theorem Begun.of_same (hbegun : Begun me p seen b watched) (holder : q.lock.holder = p.lock.holder)
    (list : q.watchList = p.watchList) : Begun me q seen b watched where
  holder := holder.trans hbegun.holder
  seen := hbegun.seen
  old := list ▸ hbegun.old
  late place hle := by
    rw [Provider.tokenAt, list]
    exact hbegun.late place hle

/-- Where a reload may stand. -/
def Timely (h : History) (clock : Clock) (me : TaskId) (p : Provider) (seen : Sight) : Reload → Prop
  | .waiting => True
  | .listing call => p.lock.holder = some me ∧ call.serial < p.calls ∧
    (∀ i, seen i ≤ clock.opened call.serial) ∧
    call.Every fun id l => (h.Says (clock.opened call.serial) clock.now).Lists id
      p.options.selectors l ∧ l.isDone = false
  | .fetching watched places raw call => call.serial < p.calls ∧ ∃ b i,
    b ≤ clock.opened call.serial ∧ Begun me p seen b watched ∧
    Gathered h b clock.now p.watchList.identities watched
      (fun place => place ∈ places ∨ p.watchList.identities[place]? = some i) raw ∧
    i ∉ namesOf raw ∧ call.Every fun _ j => j = i
  | .adapting watched s rest previous done => ∃ b, Begun me p seen b watched ∧
    Adapts h b clock.now p watched (s :: rest) previous done

/-- Where the next step of a reload may lead back. -/
def Back (h : History) (n : Nat) (seen : Sight) (p : Provider) : Reload → Nat → Prop
  | .fetching watched _ raw _, place => p.Misses h n seen watched (namesOf raw) place
  | .adapting watched s rest _ done, place =>
    p.Misses h n seen watched (done.map (·.identity) ++ namesOf (s :: rest)) place
  | _, _ => False

/-- A step of a reload. -/
abbrev Renews (h : History) (clock : Clock) (me : TaskId) (back : Nat → Prop) (seen : Sight)
    (p : Provider) : Step → Prop :=
  p.Renewing h clock me back (fun q seen r => r.Timely h clock me q seen) seen

section Steps

theorem renews_fail (hp : p.Dated h clock.now seen) (e : ProviderError) :
    Renews h clock me back seen p (fail me p e) :=
  ⟨seen, hp.release⟩

/-- A commit moves every name forward that the reload has looked at. -/
theorem renews_commit (hp : p.Dated h clock.now seen) (hbegun : Begun me p seen b watched)
    (hdone : Adapts h b clock.now p watched [] previous done)
    (hback : ∀ place, p.Misses h clock.now seen watched (done.map (·.identity)) place →
      back place) :
    Renews h clock me back seen p (commit me p watched done) := by
  have hstay {i : Identity} {o : Option Setting} (ho : p.setting? i = o) :
      o = (h (seen i)).find? i ∨ o = none ∧ seen i = 0 := ho ▸ hp.shows i
  refine hp.commit hbegun.holder hbegun.late (by simpa [namesOf] using hdone.nodup) fun i => ?_
  cases hfind : (Materialized.mk done).find? i with
  | some e =>
    have he : e ∈ done := List.mem_of_find?_eq_some hfind
    obtain rfl : e.identity = i := by simpa using List.find?_some hfind
    rcases hdone.loads e he with ⟨k, hbk, hk, hshows⟩ | hloaded
    · exact ⟨k, hk, .inl hshows.symm, fun _ _ _ => .inl (Nat.le_trans (hbegun.seen _) hbk)⟩
    · have hsame : p.setting? e.identity = some e.setting :=
        congrArg (Option.map _) (find?_of_nodup hp.entries hloaded)
      exact ⟨seen e.identity, hp.past _, hstay hsame, fun _ _ _ => .inl (Nat.le_refl _)⟩
  | none =>
    have hnot : i ∉ done.map (·.identity) := Materialized.find?_eq_none_iff.1 hfind
    by_cases hnone : p.setting? i = none
    · exact ⟨seen i, hp.past i, hstay hnone, fun _ _ _ => .inl (Nat.le_refl _)⟩
    · by_cases hwatched : ∃ place < watched, p.watchList.identities[place]? = some i
      · obtain ⟨place, hlt, hplace⟩ := hwatched
        rcases hdone.looked place hlt i hplace with hthere | hthere | ⟨k, hbk, hk, hshows⟩ | habsent
        · exact absurd hthere hnot
        · exact absurd hthere List.not_mem_nil
        · exact ⟨k, hk, .inl hshows.symm, fun _ _ _ => .inl (Nat.le_trans (hbegun.seen _) hbk)⟩
        · exact absurd habsent hnone
      · by_cases hgone : h.Had (seen i) clock.now i none
        · obtain ⟨k, hseen, hk, hshows⟩ := hgone
          exact ⟨k, hk, .inl hshows.symm, fun _ _ _ => .inl hseen⟩
        -- Nobody has looked at the name, and the store still has it.
        · refine ⟨0, Nat.zero_le _, .inr ⟨rfl, rfl⟩, fun _ place hplace => .inr (hback place ?_)⟩
          have hlate : watched ≤ place := Nat.le_of_not_lt fun hlt => hwatched ⟨place, hlt, hplace⟩
          exact ⟨hlate, i, hplace, hnot, hnone, hgone⟩

theorem renews_adaptNext (hp : p.Dated h clock.now seen) (hbegun : Begun me p seen b watched)
    (hraw : Adapts h b clock.now p watched raw previous done)
    (hback : ∀ place,
      p.Misses h clock.now seen watched (done.map (·.identity) ++ namesOf raw) place →
      back place) :
    Renews h clock me back seen p (adaptNext me p watched raw previous done) := by
  cases raw with
  | nil =>
    rw [namesOf, List.map_nil, List.append_nil] at hback
    exact renews_commit hp hbegun hraw hback
  | cons s rest => exact ⟨seen, hp.refl, b, hbegun, hraw⟩

/-- Where an adapter refuses a setting, what is loaded under its name goes on being loaded. -/
theorem Adapts.refused {s : Setting} (hraw : Adapts h b n p watched (s :: rest) previous done)
    (hoptional : p.options.optional = true) :
    Becomes h b n p s (previous.reverse.find? (·.identity = s.identity)) := by
  have hfound {e : Entry} (he : previous.reverse.find? (·.identity = s.identity) = some e) :
      e ∈ previous ∧ e.identity = s.identity := mem_previousOf (Option.mem_toList.2 he)
  refine ⟨fun e he => (hfound he).2, fun e he => .inr (hraw.earlier e (hfound he).1),
    fun hnone => ?_⟩
  rw [Provider.setting?, Option.map_eq_none_iff, Materialized.find?_eq_none_iff]
  intro hmem
  obtain ⟨e, he, hname⟩ := List.mem_map.1 hmem
  have hkept : e ∈ previous := hraw.kept hoptional e he (by rw [hname]; exact List.mem_cons_self)
  exact absurd hname (by simpa using List.find?_eq_none.1 hnone e (List.mem_reverse.2 hkept))

/-- A name that a setting has is brought, or nothing is loaded under it. -/
theorem Becomes.brought {s : Setting} {o : Option Entry} (ho : Becomes h b n p s o) :
    ∀ i ∈ done.map (·.identity) ++ namesOf (s :: rest),
      i ∈ (done ++ o.toList).map (·.identity) ++ namesOf rest ∨ p.setting? i = none := by
  intro i hi
  rw [List.map_append, List.append_assoc, List.mem_append, List.mem_append]
  rcases List.mem_append.1 hi with hi | hi
  · exact .inl (.inl hi)
  · rcases List.mem_cons.1 hi with rfl | hi
    · cases o with
      | none => exact .inr (ho.absent rfl)
      | some e =>
        exact .inl (.inr (.inl (List.mem_singleton.2 (ho.name e rfl).symm)))
    · exact .inl (.inr (.inr hi))

theorem renews_adapted (hp : p.Dated h clock.now seen) {s : Setting}
    (hr : (Reload.adapting watched s rest previous done).Timely h clock me p seen)
    (hback : ∀ place,
      p.Misses h clock.now seen watched (done.map (·.identity) ++ namesOf (s :: rest)) place →
      back place) :
    Renews h clock me back seen p (adapted me p watched s rest previous done) := by
  obtain ⟨b, hbegun, hraw⟩ := hr
  have hnext {previous' : List Entry} {o : Option Entry} (ho : Becomes h b clock.now p s o)
      (hprevious : ∀ e ∈ previous', e ∈ previous)
      (hkept : ∀ e ∈ previous, e.identity ≠ s.identity → e ∈ previous') :
      Renews h clock me back seen p (adaptNext me p watched rest previous' (done ++ o.toList)) :=
    renews_adaptNext hp hbegun (hraw.next ho hprevious hkept) fun place hmisses =>
      hback place (hmisses.of_brought ho.brought)
  unfold adapted
  split
  · next pairs hpairs =>
    refine hnext (o := some ⟨s, pairs⟩) ⟨?_, ?_, nofun⟩ (fun _ he => he) fun _ he _ => he
    · rintro e he
      cases he
      rfl
    · rintro e he
      cases he
      exact .inl (hraw.had s List.mem_cons_self)
  · split
    · next hoptional =>
      exact hnext (hraw.refused hoptional) (fun e he => List.mem_of_mem_filter he) fun e he hne =>
        List.mem_filter.2 ⟨he, decide_eq_true hne⟩
    · exact renews_fail hp _

/-- With every name looked at, a reload turns to the adapters. -/
theorem renews_startAdapting (hp : p.Dated h clock.now seen) (hbegun : Begun me p seen b watched)
    (hraw : Gathered h b clock.now p.watchList.identities watched (fun _ => False) raw)
    (hback : ∀ place, p.Misses h clock.now seen watched (namesOf raw) place → back place) :
    Renews h clock me back seen p (startAdapting me p watched raw) := by
  refine renews_adaptNext hp hbegun
    ⟨?_, hraw.had, fun e he => absurd he List.not_mem_nil, ?_, ?_, ?_⟩ hback
  · exact hraw.nodup
  · exact fun place hlt i hplace => .inr ((hraw.looked place hlt i hplace).elim False.elim
      fun hlooked => hlooked.imp_right .inl)
  · intro e he
    split at he
    · exact he
    · exact absurd he List.not_mem_nil
  · intro hoptional e he _
    rw [if_pos hoptional]
    exact he

/-- A name has been read, or is waited for. -/
theorem renews_fetched (hp : p.Dated h clock.now seen) (hbegun : Begun me p seen b watched)
    {a : Nat} (hb : b ≤ a) {places : List Nat}
    (hraw : Gathered h b clock.now p.watchList.identities watched
      (fun place => place ∈ places ∨ p.watchList.identities[place]? = some i) raw)
    (habsent : i ∉ namesOf raw) {progress : Progress Identity (Option Setting)}
    (hevery : progress.Every (fun _ j => j = i)
      fun r => ∀ o, Failover.settingOf r = .ok o → (h.Says a clock.now).Reads i o)
    (hopened : ∀ c, progress = .waiting c → c.serial < p.calls ∧ a ≤ clock.opened c.serial)
    (hnext : ∀ o : Option Setting,
      Gathered h b clock.now p.watchList.identities watched (· ∈ places) (raw ++ o.toList) →
      Renews h clock me back seen p (fetchNext me cancelled p watched places (raw ++ o.toList))) :
    Renews h clock me back seen p (fetched me cancelled p watched places raw progress) := by
  cases progress with
  | waiting call =>
    obtain ⟨hserial, ha⟩ := hopened call rfl
    exact ⟨seen, hp.refl, hserial, b, i, Nat.le_trans hb ha, hbegun, hraw, habsent, hevery⟩
  | returned r =>
    rw [fetched]
    cases hr : Failover.settingOf r with
    | error e => exact renews_fail hp _
    | ok o => exact hnext _ (hraw.read habsent ((History.had_of_reads (hevery o hr)).from hb))

theorem renews_fetchNext (places : List Nat) (hp : p.Dated h clock.now seen)
    (hfits : clock.Fits p.calls) (hbegun : Begun me p seen b watched) (hb : b ≤ clock.now)
    (hraw : Gathered h b clock.now p.watchList.identities watched (· ∈ places) raw)
    (hback : ∀ place, p.Misses h clock.now seen watched (namesOf raw) place → back place) :
    Renews h clock me back seen p (fetchNext me cancelled p watched places raw) := by
  -- The induction is on the places that are left.
  induction places generalizing p raw with
  | nil =>
    exact renews_startAdapting hp hbegun (hraw.imp fun _ _ _ hleft => absurd hleft List.not_mem_nil)
      hback
  | cons place places ih =>
    rw [fetchNext]
    cases hw : p.watchList.get? place with
    | none =>
      refine ih hp hfits hbegun (hraw.skip fun i hplace => ?_) hback
      rw [WatchList.getElem?_identities, hw] at hplace
      cases hplace
    | some w =>
      have hhere : p.watchList.identities[place]? = some w.identity := by
        rw [WatchList.getElem?_identities, hw, Option.map_some]
      simp only []
      split
      · next hthere =>
        refine ih hp hfits hbegun (hraw.skip fun i hplace => ?_) hback
        cases hhere.symm.trans hplace
        exact any_identity_iff.1 hthere
      · next hthere =>
        have habsent : w.identity ∉ namesOf raw := fun hmem => hthere (any_identity_iff.2 hmem)
        have hcalled := p.called_openCall .fetch w.identity cancelled
        have hcalls := (p.calls_openCall .fetch w.identity cancelled).1
        have hevery := p.every_openFetch (h.Says clock.now clock.now) w.identity cancelled
        have hopened := p.opened_openCall hfits .fetch w.identity cancelled
        generalize p.openCall .fetch w.identity cancelled = x at hcalled hcalls hevery hopened
        obtain ⟨q, progress⟩ := x
        have hq : p.Renews h clock.now me back seen q seen := hp.called hcalled hcalls
        have hlist : q.watchList = p.watchList := hcalled.watchList
        have hbegun' := hbegun.of_same (congrArg Lock.holder hcalled.lock) hlist
        rw [← hlist] at hraw hhere
        have hnext (o : Option Setting)
            (hraw : Gathered h b clock.now q.watchList.identities watched (· ∈ places)
              (raw ++ o.toList)) :
            Renews h clock me back seen q
              (fetchNext me cancelled q watched places (raw ++ o.toList)) :=
          ih hq.dated (hfits.of_le hcalls) hbegun' hraw fun place' hmisses =>
            hback place' ((hmisses.of_called hcalled).of_brought fun i hi =>
              .inl (mem_namesOf_append hi))
        have hfetched := renews_fetched hq.dated hbegun' hb (hraw.reading hhere) habsent hevery
          (fun c hc => ⟨(hopened c hc).1, Nat.le_of_eq (hopened c hc).2.symm⟩) hnext
        refine .of_renews hq ?_
        cases progress with
        | waiting call => exact hfetched
        | returned r => exact hfetched

/-- A listing looks at all names that are watched when it ends. -/
theorem renews_listed (hp : p.Dated h clock.now seen) (hfits : clock.Fits p.calls)
    (hheld : p.lock.holder = some me) {a : Nat} (ha : a ≤ clock.now) (hseen : ∀ i, seen i ≤ a)
    {progress : Progress Listing (List Setting)}
    (hevery : progress.Every
      (fun id l => (h.Says a clock.now).Lists id p.options.selectors l ∧ l.isDone = false)
      fun r => ∀ listed m, r = .ok (listed, m) →
        (h.Says a clock.now).Brings p.options.selectors listed)
    (hopened : ∀ c, progress = .waiting c → c.serial < p.calls ∧ clock.opened c.serial = a) :
    Renews h clock me back seen p (listed me cancelled p progress) := by
  rcases progress with call | (e | ⟨settings, m⟩)
  · obtain ⟨hserial, rfl⟩ := hopened call rfl
    exact ⟨seen, hp.refl, hheld, hserial, hseen, hevery⟩
  · exact renews_fail hp _
  · have hnew (place : Nat) (hle : p.watchList.size ≤ place) : p.watchList.get? place = none :=
      List.getElem?_eq_none hle
    have hsize : p.watchList.size ≤ p.watchList.identities.length := by
      rw [WatchList.identities, List.length_map]
      exact Nat.le_refl _
    refine renews_fetchNext _ hp hfits ⟨hheld, hseen, hsize, fun place hle => ?_⟩ ha
      ⟨nodup_gather _, ?_, ?_⟩ fun place hmisses => ?_
    · rw [Provider.tokenAt, hnew place hle, Option.bind_none]
    · exact fun s hs => History.had_of_brings (hevery settings m rfl) s (mem_of_mem_gather hs)
    · exact fun place hlt _ _ => .inl (List.mem_range.2 hlt)
    · obtain ⟨hle, i, hplace, -⟩ := hmisses
      rw [WatchList.getElem?_identities, hnew place hle] at hplace
      cases hplace

/-- A reload begins at the moment at which its listing is opened. -/
theorem renews_enter (hp : p.Dated h clock.now seen) (hfits : clock.Fits p.calls) :
    Renews h clock me back seen p (enter me cancelled p) := by
  unfold enter
  split
  · next hheld =>
    have hcalled := p.called_openCall .list (Listing.start p.options.selectors) cancelled
    have hcalls := (p.calls_openCall .list (Listing.start p.options.selectors) cancelled).1
    have hevery := p.every_openList (h.Says clock.now clock.now) p.options.selectors cancelled
    have hopened := p.opened_openCall hfits .list (Listing.start p.options.selectors) cancelled
    generalize p.openCall .list (Listing.start p.options.selectors) cancelled = x
      at hcalled hcalls hevery hopened
    obtain ⟨q, progress⟩ := x
    rw [← hcalled.options] at hevery
    have hq : p.Renews h clock.now me back seen q seen := hp.called hcalled hcalls
    have hholder : q.lock.holder = some me :=
      (congrArg Lock.holder hcalled.lock).trans (eq_of_beq hheld)
    exact .of_renews hq (renews_listed hq.dated (hfits.of_le hcalls) hholder (Nat.le_refl _) hp.past
      hevery hopened)
  · exact ⟨seen, hp.refl, trivial⟩

theorem renews_begin (hp : p.Dated h clock.now seen) (hfits : clock.Fits p.calls) :
    Renews h clock me back seen p (begin me cancelled p) := by
  have hq : p.Renews h clock.now me back seen _ seen := hp.acquire
  exact .of_renews hq (renews_enter hq.dated hfits)

end Steps

/-- **A step of a reload**, whatever reaches it. -/
theorem renews_handle (hp : p.Dated h clock.now seen) (hfits : clock.Fits p.calls) {r : Reload}
    (hr : r.Timely h clock me p seen)
    (hback : ∀ place, r.Back h clock.now seen p place → back place) {i : Input}
    (hadmits : clock.Admits h (r.waits me p) i) :
    Renews h clock me back seen p (r.handle me cancelled p i) := by
  have hstay : Renews h clock me back seen p (p, .running r) := ⟨seen, hp.refl, hr⟩
  cases r with
  | waiting =>
    cases i with
    | resumed => exact renews_enter hp hfits
    | answered ticket reply => exact hstay
    | fallback serial => exact hstay
    | cancelled => exact hstay
    | woke => exact hstay
  | listing call =>
    obtain ⟨hheld, hserial, hseen, hcall⟩ := hr
    have hcalled := p.called_drive .list call i
    have hcalls := Nat.le_of_eq (p.calls_drive .list call i).symm
    have hevery := p.every_drive (Conversation.keeps_list _ p.options.selectors) hcall
      hadmits.admitted
    rw [← hcalled.options] at hevery
    have hq : p.Renews h clock.now me back seen _ seen := hp.called hcalled hcalls
    have hholder : (p.drive .list call i).1.lock.holder = some me :=
      (congrArg Lock.holder hcalled.lock).trans hheld
    refine .of_renews hq (renews_listed hq.dated (hfits.of_le hcalls) hholder (hfits.past _) hseen
      hevery fun c hc => ?_)
    obtain ⟨hserial', hsame⟩ := p.serial_drive .list hserial i c hc
    exact ⟨hserial', congrArg clock.opened hsame⟩
  | fetching watched places raw call =>
    obtain ⟨hserial, b, name, hb, hbegun, hraw, habsent, hcall⟩ := hr
    have hcalled := p.called_drive .fetch call i
    have hcalls := Nat.le_of_eq (p.calls_drive .fetch call i).symm
    have hevery := p.every_drive (Conversation.keeps_fetch _ name) hcall hadmits.admitted
    have hopened := p.serial_drive .fetch hserial i
    show Renews h clock me back seen p (fetched me cancelled (p.drive .fetch call i).1 watched
      places raw (p.drive .fetch call i).2)
    generalize p.drive .fetch call i = x at hcalled hcalls hevery hopened
    obtain ⟨q, progress⟩ := x
    have hq : p.Renews h clock.now me back seen q seen := hp.called hcalled hcalls
    have hlist : q.watchList = p.watchList := hcalled.watchList
    have hbegun' := hbegun.of_same (congrArg Lock.holder hcalled.lock) hlist
    rw [← hlist] at hraw
    refine .of_renews hq (renews_fetched hq.dated hbegun' hb hraw habsent hevery (fun c hc => ?_)
      fun o hraw => ?_)
    · obtain ⟨hserial', hsame⟩ := hopened c hc
      exact ⟨hserial', Nat.le_of_eq (congrArg clock.opened hsame.symm)⟩
    · exact renews_fetchNext places hq.dated (hfits.of_le hcalls) hbegun'
        (Nat.le_trans hb (hfits.past _)) hraw fun place hmisses =>
          hback place ((hmisses.of_called hcalled).of_brought fun i hi =>
            .inl (mem_namesOf_append hi))
  | adapting watched s rest previous done =>
    cases i with
    | resumed => exact renews_adapted hp hr hback
    | answered ticket reply => exact hstay
    | fallback serial => exact hstay
    | cancelled => exact hstay
    | woke => exact hstay

/-! ## What others do -/

theorem Begun.of_leaves (hbegun : Begun me p seen b watched) (hq : p.Leaves me seen q seen') :
    Begun me q seen' b watched := by
  have hholding := hq.held hbegun.holder
  refine ⟨hholding.holder, ?_, ?_, fun place hle => ?_⟩
  · rw [hholding.seen]
    exact hbegun.seen
  · exact Nat.le_trans hbegun.old hq.length_le
  · rw [hholding.tokens]
    exact hbegun.late place hle

/-- A name that was watched when the listing ended was there before others took their steps. -/
theorem Begun.place (hbegun : Begun me p seen b watched) (hq : p.Leaves me seen q seen')
    {place : Nat} (hlt : place < watched) (hplace : q.watchList.identities[place]? = some i) :
    p.watchList.identities[place]? = some i := by
  have hthere := List.getElem?_eq_getElem (Nat.lt_of_lt_of_le hlt hbegun.old)
  rw [hthere, ← hplace, hq.places place _ hthere]

theorem Timely.of_leaves {r : Reload} (hr : r.Timely h clock me p seen)
    (later : clock.Later clock' p.calls) (hq : p.Leaves me seen q seen') :
    r.Timely h clock' me q seen' := by
  cases r with
  | waiting => trivial
  | listing call =>
    obtain ⟨hheld, hserial, hseen, hcall⟩ := hr
    have hholding := hq.held hheld
    rw [← later.opened _ hserial] at hseen hcall
    refine ⟨hholding.holder, Nat.lt_of_lt_of_le hserial hq.calls, ?_, ?_⟩
    · rw [hholding.seen]
      exact hseen
    · rw [hq.options]
      exact hcall.imp fun hl => ⟨hl.1.imp fun htold => htold.later later.now, hl.2⟩
  | fetching watched places raw call =>
    obtain ⟨hserial, b, i, hb, hbegun, hraw, habsent, hcall⟩ := hr
    rw [← later.opened _ hserial] at hb
    refine ⟨Nat.lt_of_lt_of_le hserial hq.calls, b, i, hb, hbegun.of_leaves hq,
      ⟨hraw.nodup, fun s hs => (hraw.had s hs).later later.now, fun place hlt j hplace => ?_⟩,
      habsent, hcall⟩
    rcases hraw.looked place hlt j (hbegun.place hq hlt hplace) with (hleft | hthis) | hlooked
    · exact .inl (.inl hleft)
    · exact .inl (.inr (hq.places place i hthis))
    · exact .inr (hlooked.imp_right fun hnone => hnone.later later.now)
  | adapting watched s rest previous done =>
    obtain ⟨b, hbegun, hraw⟩ := hr
    have hloaded := (hq.held hbegun.holder).materialized
    refine ⟨b, hbegun.of_leaves hq, hraw.nodup, fun s hs => (hraw.had s hs).later later.now,
      ?_, ?_, ?_, ?_⟩
    · rw [hloaded]
      exact fun e he => (hraw.loads e he).imp_left fun hhad => hhad.later later.now
    · intro place hlt j hplace
      rw [Provider.setting?, hloaded]
      exact (hraw.looked place hlt j (hbegun.place hq hlt hplace)).imp_right fun hlooked =>
        hlooked.imp_right fun hnone => hnone.imp_left fun hnone => hnone.later later.now
    · rw [hloaded]
      exact hraw.earlier
    · rw [hq.options, hloaded]
      exact hraw.kept

/-- A step of another operation leads no reload back. -/
theorem Back.of_renews {r : Reload} (hr : r.Timely h clock me p seen)
    (hq : p.Renews h n other back seen q seen') (hne : me ≠ other) {place : Nat}
    (hback : r.Back h n' seen' q place) : r.Back h n' seen p place := by
  have hmisses (hheld : p.lock.holder = some me) {watched : Nat} {kept : List Identity}
      (hmisses : q.Misses h n' seen' watched kept place) :
      p.Misses h n' seen watched kept place := by
    obtain ⟨hlate, i, hplace, hnot, hloaded, hstill⟩ := hmisses
    have hholding := hq.yields me hne hheld
    rw [hq.rules.identities] at hplace
    rw [Provider.setting?, hholding.materialized] at hloaded
    rw [hholding.seen] at hstill
    exact ⟨hlate, i, hplace, hnot, hloaded, hstill⟩
  cases r with
  | waiting => exact hback
  | listing call => exact hback
  | fetching watched places raw call =>
    obtain ⟨-, b, i, -, hbegun, -⟩ := hr
    exact hmisses hbegun.holder hback
  | adapting watched s rest previous done =>
    obtain ⟨b, hbegun, -⟩ := hr
    exact hmisses hbegun.holder hback

end Reload
end ReplicatedConfig
