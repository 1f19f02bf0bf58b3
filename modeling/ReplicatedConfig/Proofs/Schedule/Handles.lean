import ReplicatedConfig.Proofs.Precedence.LoadOrder
import ReplicatedConfig.Proofs.Schedule.Exclusion

/-!
# Handles on watched keys

Whoever watches a key gets its place in the watch list, and may use it as a handle on the key for
ever: to claim the key for a refresh, to put off the next look at it, and to note its token.  The
same place is given out whenever the key is watched again, so all handles on a key are one.

## What one act does to one key

`Registry.effect` says for every act what it makes of the key at a place; most acts are about one
place or one name and leave all other keys alone.  `get?_act` says that this is what happens, and
`act_cases` that nothing else happens to the list, but that a name that is watched for the first
time comes last.  Both are shown act by act; what holds of runs follows from them by induction.
-/

namespace ReplicatedConfig

/-! ## Watching a key once more, for the first time, or in vain -/

namespace WatchList

variable {l : WatchList} {q : WatchRequest} {now : Instant} {place : Nat} {w : Watch}

/-- A name is found at the place where it stands. -/
theorem find?_of_get? (names : l.identities.Nodup) (hw : l.get? place = some w) :
    l.find? w.identity = some place := by
  obtain ⟨hlt, hname⟩ := List.getElem?_eq_some_iff.1 (getElem?_identities_of_get? hw)
  rw [find?_eq]
  refine List.findIdx?_eq_some_iff_getElem.2 ⟨hlt, decide_eq_true hname, fun j hj hsame => ?_⟩
  have hindex : j = place := names.getElem_inj_iff.1 ((of_decide_eq_true hsame).trans hname.symm)
  exact Nat.ne_of_lt hj hindex

theorem find?_eq_none_iff {name : Identity} : l.find? name = none ↔ name ∉ l.identities := by
  rw [find?_eq, List.findIdx?_eq_none_iff]
  refine ⟨fun h hmem => ?_, fun h i hi => decide_eq_false fun heq => h (heq ▸ hi)⟩
  exact of_decide_eq_false (h name hmem) rfl

theorem check_eq_ok (h : minExpiration ≤ q.expiration) : q.check = .ok () :=
  if_neg (Nat.not_lt_of_le h)

theorem register_refused (h : ¬ minExpiration ≤ q.expiration) (l : WatchList) (now : Instant) :
    l.register q now = .error (.expirationTooShort q.identity q.expiration) := by
  have hcheck : q.check = .error (.expirationTooShort q.identity q.expiration) :=
    if_pos (Nat.lt_of_not_le h)
  rw [register, hcheck]
  rfl

theorem register_again (names : l.identities.Nodup) (h : minExpiration ≤ q.expiration)
    (hw : l.get? place = some w) (hname : w.identity = q.identity) (now : Instant) :
    l.register q now = .ok (l.modify place (Watch.reconfigured q now), place) := by
  have hfind := find?_of_get? names hw
  rw [hname] at hfind
  rw [register, check_eq_ok h, hfind]
  rfl

theorem register_new (h : minExpiration ≤ q.expiration) (hnew : q.identity ∉ l.identities)
    (now : Instant) : l.register q now = .ok (⟨l.watches ++ [Watch.new q now]⟩, l.size) := by
  rw [register, check_eq_ok h, find?_eq_none_iff.2 hnew]
  rfl

/-! ## The keys that are to be looked at -/

theorem map_get?_range (l : WatchList) : (List.range l.size).map l.get? = l.watches.map some := by
  refine List.ext_getElem (by simp [size]) fun i hi hi' => ?_
  simp [get?]

/-- The places of the keys that are to be looked at, in order, are the places of exactly these. -/
theorem map_get?_due (l : WatchList) (now : Instant) :
    (l.due now).map l.get? = (l.watches.filter fun w => decide (w.expiresAt ≤ now)).map some := by
  let isDue (o : Option Watch) : Bool := o.any fun w => decide (w.Due now)
  show ((List.range l.size).filter (isDue ∘ l.get?)).map l.get? = _
  rw [← List.filter_map, map_get?_range, List.filter_map]
  rfl

end WatchList

namespace Registry

/-! ## Acts -/

/-- What may be done to watched keys: an operation on the list, or one on the key at a place by
somebody who has its handle. -/
inductive Act where
  | op (o : Op)
  /-- The key has been looked at. -/
  | mark (place : Nat)
  /-- The token of its value is noted. -/
  | note (place : Nat) (token : Option Token)

/-- The name that an act succeeds in watching. -/
def Act.granted? : Act → Option Identity
  | .op (.register q) => if minExpiration ≤ q.expiration then some q.identity else none
  | _ => none

/-- The token that an act notes for the key at a place. -/
def Act.noted? (place : Nat) : Act → Option (Option Token)
  | .note j token => if j = place then some token else none
  | _ => none

/-- What an act makes of the registry. -/
def act (r : Registry) : Act → Registry
  | .op o => r.apply o
  | .mark place => { r with list := r.list.markAttempted place r.now }
  | .note place token => { r with list := r.list.setToken place token }

/-- A run of acts. -/
def play (r : Registry) (acts : List Act) : Registry := acts.foldl act r

theorem play_append (r : Registry) (xs ys : List Act) : r.play (xs ++ ys) = (r.play xs).play ys :=
  List.foldl_append

/-- What an act makes of the key at a place. -/
def effect (r : Registry) (place : Nat) (w : Watch) : Act → Watch
  | .op (.register q) =>
    if w.identity = q.identity ∧ minExpiration ≤ q.expiration then w.reconfigured q r.now else w
  | .op (.begin j) => if j = place ∧ (r.begin? j).isSome then { w with held := true } else w
  | .op (.drop j) => if j = place ∧ j ∈ r.guards then w.released r.now else w
  | .op .markAllAttempted => w.attempted r.now
  | .op (.setDirty most draws) =>
    w.nudged r.now (.ofNanos (min (draws place) (WatchList.drawRange most) * nanosPerMilli))
  | .op (.wait _) => w
  | .mark j => if j = place then w.attempted r.now else w
  | .note j token => if j = place then { w with token } else w

variable {r : Registry} {place : Nat} {w : Watch} {a : Act}

theorem identity_effect (r : Registry) (place : Nat) (w : Watch) (a : Act) :
    (r.effect place w a).identity = w.identity := by
  fun_cases effect r place w a <;> rfl

theorem token_effect (r : Registry) (place : Nat) (w : Watch) (a : Act) :
    (r.effect place w a).token = (a.noted? place).getD w.token := by
  fun_cases effect r place w a with
  | case12 token => simp [Act.noted?]
  | case13 j token hj => simp [Act.noted?, hj]
  | _ => rfl

theorem interval_effect (h : minExpiration ≤ w.interval) (r : Registry) (place : Nat) (a : Act) :
    minExpiration ≤ (r.effect place w a).interval := by
  fun_cases effect r place w a with
  | case1 q hq => exact hq.2
  | _ => exact h

/-- A change of one key that leaves its name and whether it is held. -/
theorem Guarded.modify (h : r.Guarded) (place : Nat) {f : Watch → Watch}
    (hname : ∀ w, (f w).identity = w.identity) (hheld : ∀ w, (f w).held = w.held) :
    Guarded { r with list := r.list.modify place f } := by
  refine h.of_held (r.list.identities_modify place hname) fun j => ?_
  rw [WatchList.get?_modify]
  split
  · cases r.list.get? j <;> simp [hheld]
  · rfl

/-- **Every act keeps the guards to what is held.** -/
theorem Guarded.act (h : r.Guarded) (a : Act) : (r.act a).Guarded := by
  cases a with
  | op o => exact h.apply o
  | mark j => exact h.modify j (fun _ => rfl) fun _ => rfl
  | note j token => exact h.modify j (fun _ => rfl) fun _ => rfl

theorem Guarded.play (h : r.Guarded) (acts : List Act) : (r.play acts).Guarded := by
  induction acts generalizing r with
  | nil => exact h
  | cons a rest ih => exact ih (h.act a)

/-! ## What one act does -/

/-- A guard is handed out and the key is held, or nothing happens. -/
theorem begin_cases (r : Registry) (j : Nat) :
    (r.begin? j = none ∧ r.apply (.begin j) = r) ∨
      ((r.begin? j).isSome = true ∧ r.apply (.begin j) =
        ⟨r.list.modify j fun w => { w with held := true }, j :: r.guards, r.now⟩) := by
  rw [apply]
  cases hbegin : r.begin? j with
  | none => exact .inl ⟨rfl, rfl⟩
  | some s =>
    obtain ⟨l, hl, rfl⟩ := Option.map_eq_some_iff.1 hbegin
    obtain ⟨-, -, -, -, rfl⟩ := begin?_eq_some_iff.1 hl
    exact .inr ⟨rfl, rfl⟩

/-- **What an act makes of a key.** -/
theorem Guarded.get?_act (h : r.Guarded) (hw : r.list.get? place = some w) (a : Act) :
    (r.act a).list.get? place = some (r.effect place w a) := by
  cases a with
  | op o =>
    cases o with
    | register q =>
      simp only [Registry.act, Registry.apply, effect]
      by_cases hlong : minExpiration ≤ q.expiration
      · by_cases hname : w.identity = q.identity
        · rw [WatchList.register_again h.names hlong hw hname, if_pos ⟨hname, hlong⟩]
          exact (Provider.get?_modify_of_get? hw place _).trans (by rw [if_pos rfl])
        · rw [if_neg fun hq => hname hq.1]
          cases hregister : r.list.register q r.now with
          | error e => exact hw
          | ok x => exact get?_register_of_ne hregister hw (Ne.symm hname)
      · rw [WatchList.register_refused hlong, if_neg fun hq => hlong hq.2]
        exact hw
    | begin j =>
      show (r.apply (.begin j)).list.get? place = _
      rcases begin_cases r j with ⟨hnone, hsame⟩ | ⟨hsome, hheld⟩
      · rw [hsame, effect, hnone, if_neg (by simp), hw]
      · rw [hheld, effect, hsome]
        simpa using Provider.get?_modify_of_get? hw j fun w => { w with held := true }
    | drop j =>
      simp only [Registry.act, Registry.apply, effect]
      by_cases hj : j ∈ r.guards
      · simpa [hj, WatchList.release] using
          Provider.get?_modify_of_get? hw j (Watch.released r.now)
      · simpa [hj] using hw
    | markAllAttempted => exact (get?_markAllAttempted _ _ _).trans (congrArg _ hw)
    | setDirty most draws => exact (Provider.get?_setDirty _ _ _ _ _).trans (congrArg _ hw)
    | wait d => exact hw
  | mark j => exact Provider.get?_modify_of_get? hw j _
  | note j token => exact Provider.get?_modify_of_get? hw j _

/-- Only a wish that can be granted succeeds in watching a name. -/
theorem exists_of_granted? {name : Identity} (h : a.granted? = some name) :
    ∃ q, a = .op (.register q) ∧ minExpiration ≤ q.expiration ∧ q.identity = name := by
  cases a with
  | op o =>
    cases o with
    | register q =>
      rw [Act.granted?] at h
      split at h
      · next hlong => exact ⟨q, rfl, hlong, Option.some.inj h⟩
      · cases h
    | _ => cases h
  | _ => cases h

/-- Any other act keeps the names. -/
theorem identities_act (r : Registry) (h : a.granted? = none) :
    (r.act a).list.identities = r.list.identities := by
  cases a with
  | op o =>
    cases o with
    | register q =>
      have hshort : ¬ minExpiration ≤ q.expiration := by
        intro hlong
        rw [Act.granted?, if_pos hlong] at h
        cases h
      rw [act, apply, WatchList.register_refused hshort]
    | begin j =>
      show (r.apply (.begin j)).list.identities = _
      rcases begin_cases r j with ⟨-, hsame⟩ | ⟨-, hheld⟩
      · rw [hsame]
      · rw [hheld]
        exact r.list.identities_modify j fun _ => rfl
    | drop j =>
      rw [act, apply]
      split
      · exact r.list.identities_modify j fun _ => rfl
      · rfl
    | markAllAttempted =>
      rw [act, apply, WatchList.identities, WatchList.markAllAttempted, List.map_map]
      rfl
    | setDirty most draws => exact WatchList.identities_of_known (WatchList.known_setDirty ..)
    | wait d => rfl
  | mark j => exact r.list.identities_modify j fun _ => rfl
  | note j token => exact r.list.identities_modify j fun _ => rfl

/-- **An act keeps the names**, or it watches a name for the first time, which then comes last. -/
theorem act_cases (r : Registry) (a : Act) :
    ((r.act a).list.identities = r.list.identities ∧
      ∀ name, a.granted? = some name → name ∈ r.list.identities) ∨
    ∃ q, a = .op (.register q) ∧ minExpiration ≤ q.expiration ∧ q.identity ∉ r.list.identities ∧
      r.act a = { r with list := ⟨r.list.watches ++ [Watch.new q r.now]⟩ } := by
  cases hgranted : a.granted? with
  | none => exact .inl ⟨identities_act r hgranted, fun name hname => by cases hname⟩
  | some name =>
    obtain ⟨q, rfl, hlong, rfl⟩ := exists_of_granted? hgranted
    by_cases hmem : q.identity ∈ r.list.identities
    · refine .inl ⟨?_, fun name hname => Option.some.inj hname ▸ hmem⟩
      rw [act, apply]
      split
      · next l i hregister =>
        exact WatchList.identities_of_known (WatchList.known_register hmem hregister)
      · rfl
    · refine .inr ⟨q, rfl, hlong, hmem, ?_⟩
      rw [act, apply, WatchList.register_new hlong hmem]

/-- Only dropping a guard takes it away. -/
theorem mem_guards_act (h : place ∈ r.guards) (ha : a ≠ .op (.drop place)) :
    place ∈ (r.act a).guards := by
  cases a with
  | op o =>
    cases o with
    | register q =>
      rw [act, apply]
      split <;> exact h
    | begin j =>
      show place ∈ (r.apply (.begin j)).guards
      rcases begin_cases r j with ⟨-, hsame⟩ | ⟨-, hheld⟩
      · rwa [hsame]
      · rw [hheld]
        exact List.mem_cons_of_mem j h
    | drop j =>
      have hne : place ≠ j := fun hj => ha (hj ▸ rfl)
      rw [act, apply]
      split
      · exact (List.mem_erase_of_ne hne).2 h
      · exact h
    | markAllAttempted => exact h
    | setDirty most draws => exact h
    | wait d => exact h
  | mark j => exact h
  | note j token => exact h

/-- Intervals stay long enough. -/
theorem Guarded.intervals_act (h : r.Guarded)
    (hr : ∀ w ∈ r.list.watches, minExpiration ≤ w.interval) (a : Act) :
    ∀ w ∈ (r.act a).list.watches, minExpiration ≤ w.interval := by
  intro v hv
  rcases act_cases r a with ⟨hnames, -⟩ | ⟨q, -, hlong, -, hact⟩
  · obtain ⟨place, hplace⟩ := List.mem_iff_getElem?.1 hv
    have hname := WatchList.getElem?_identities_of_get? hplace
    rw [hnames] at hname
    obtain ⟨w, hw, -⟩ := WatchList.exists_get?_of_getElem?_identities hname
    obtain rfl : v = r.effect place w a := Option.some.inj (hplace.symm.trans (h.get?_act hw a))
    exact interval_effect (hr w (List.mem_of_getElem? hw)) r place a
  · rw [hact] at hv
    rcases List.mem_append.1 hv with hv | hv
    · exact hr v hv
    · rw [List.mem_singleton.1 hv]
      exact hlong

theorem act_register_of_ok {q : WatchRequest} {l : WatchList} {i : Nat}
    (h : r.list.register q r.now = .ok (l, i)) :
    r.act (.op (.register q)) = { r with list := l } := by
  rw [act, apply, h]

/-! ## Runs of acts -/

theorem guarded_empty (now : Instant) : (start .empty now).Guarded := by
  have hidle : Idle .empty := ⟨List.nodup_nil, fun w hw => absurd hw List.not_mem_nil⟩
  exact guarded_start hidle now

/-- The names stand in the order in which they were first watched. -/
theorem identities_play (now : Instant) (acts : List Act) :
    ((start .empty now).play acts).list.identities = (acts.filterMap Act.granted?).eraseDups := by
  induction acts using List.reverseRecOn with
  | nil => rfl
  | append_singleton acts a ih =>
    rw [play_append, List.filterMap_append]
    show (((start .empty now).play acts).act a).list.identities = _
    generalize (start .empty now).play acts = r at ih ⊢
    rcases act_cases r a with ⟨hnames, hold⟩ | ⟨q, rfl, hlong, hnew, hact⟩
    · rw [hnames, ih]
      cases hgranted : a.granted? with
      | none => rw [List.filterMap_cons_none hgranted, List.filterMap_nil, List.append_nil]
      | some name =>
        have hmem := hold name hgranted
        rw [ih, List.mem_eraseDups] at hmem
        rw [List.filterMap_cons_some hgranted, List.filterMap_nil, eraseDups_concat, if_pos hmem]
    · have hgranted : Act.granted? (.op (.register q)) = some q.identity := if_pos hlong
      have happend : (WatchList.mk (r.list.watches ++ [Watch.new q r.now])).identities =
          r.list.identities ++ [q.identity] := List.map_append
      rw [ih, List.mem_eraseDups] at hnew
      rw [hact, happend, ih, List.filterMap_cons_some hgranted, List.filterMap_nil,
        eraseDups_concat, if_neg hnew]

theorem intervals_play (now : Instant) (acts : List Act) :
    ∀ w ∈ ((start .empty now).play acts).list.watches, minExpiration ≤ w.interval := by
  induction acts using List.reverseRecOn with
  | nil => exact nofun
  | append_singleton acts a ih =>
    rw [play_append]
    exact ((guarded_empty now).play acts).intervals_act ih a

/-- A key stays at its place, with the token that was noted for it last. -/
theorem Guarded.get?_play (h : r.Guarded) (hw : r.list.get? place = some w) (later : List Act) :
    ∃ v, (r.play later).list.get? place = some v ∧ v.identity = w.identity ∧
      v.token = ((later.filterMap (Act.noted? place)).getLast?).getD w.token := by
  induction later using List.reverseRecOn with
  | nil => exact ⟨w, hw, rfl, rfl⟩
  | append_singleton later a ih =>
    obtain ⟨v, hv, hname, htoken⟩ := ih
    rw [play_append]
    refine ⟨_, (h.play later).get?_act hv a, (identity_effect ..).trans hname, ?_⟩
    rw [token_effect, htoken, List.filterMap_append]
    cases hnoted : a.noted? place with
    | none => rw [List.filterMap_cons_none hnoted, List.filterMap_nil, List.append_nil]; rfl
    | some token =>
      rw [List.filterMap_cons_some hnoted, List.filterMap_nil, List.getLast?_concat]
      rfl

theorem mem_guards_play (h : place ∈ r.guards) {later : List Act}
    (hlater : .op (.drop place) ∉ later) : place ∈ (r.play later).guards := by
  induction later generalizing r with
  | nil => exact h
  | cons a rest ih =>
    rw [List.mem_cons, not_or] at hlater
    exact ih (mem_guards_act h (Ne.symm hlater.1)) hlater.2

/-- What a handle on a key is good for after more acts: the name is still found at this place, what
is known about it has the token that was noted last through any handle, and it is held as long as
the guard is alive, so that nobody else is handed out a guard. -/
structure Lasts (r : Registry) (place : Nat) (w : Watch) (later : List Act) : Prop where
  found : (r.play later).list.find? w.identity = some place
  known : ∃ v, (r.play later).list.get? place = some v ∧ v.identity = w.identity ∧
    v.token = ((later.filterMap (Act.noted? place)).getLast?).getD w.token ∧
    (v.held = true ↔ place ∈ (r.play later).guards)
  guarded : place ∈ r.guards → .op (.drop place) ∉ later →
    place ∈ (r.play later).guards ∧ (r.play later).begin? place = none

theorem Guarded.lasts (h : r.Guarded) (hw : r.list.get? place = some w) (later : List Act) :
    r.Lasts place w later := by
  have hlater := h.play later
  obtain ⟨v, hv, hname, htoken⟩ := h.get?_play hw later
  refine ⟨?_, ⟨v, hv, hname, htoken, ?_⟩, fun hplace hdrop => ?_⟩
  · rw [← hname]
    exact WatchList.find?_of_get? hlater.names hv
  · rw [hlater.held, hv]
    simp
  · have hmem := mem_guards_play hplace hdrop
    refine ⟨hmem, Option.not_isSome_iff_eq_none.1 fun hbegin => ?_⟩
    exact (hlater.isSome_begin?_iff.1 hbegin).1 hmem

/-- **What is known about watched keys.**  After any acts, the names are those that have been
watched with success, each once and in the order in which that happened first; no interval is
shorter than the shortest one; and the keys to be looked at are those whose expiration has come, in
order.  A handle on a key lasts, whatever is done later.  Whoever watches a name for the first time
gets the place behind all others as a handle.  Watching it again gives the same handle and changes
its interval, its role and its expiration only, and nothing about other keys.  A wish that cannot be
granted changes nothing. -/
theorem known_of_acts (now : Instant) (acts : List Act) :
    let r := (start .empty now).play acts
    (r.list.identities.Nodup ∧ r.list.identities = (acts.filterMap Act.granted?).eraseDups) ∧
    (∀ w ∈ r.list.watches, .ofSecs 1 ≤ w.interval) ∧
    (∀ time, (r.list.due time).map r.list.get? =
      (r.list.watches.filter fun w => decide (w.expiresAt ≤ time)).map some) ∧
    (∀ place w, r.list.get? place = some w → ∀ later, r.Lasts place w later) ∧
    (∀ q, .ofSecs 1 ≤ q.expiration → q.identity ∉ r.list.identities →
      ∃ l, r.list.register q r.now = .ok (l, r.list.size) ∧
        r.act (.op (.register q)) = { r with list := l } ∧
        l.watches = r.list.watches ++ [Watch.new q r.now]) ∧
    (∀ q place w, .ofSecs 1 ≤ q.expiration → r.list.get? place = some w → w.identity = q.identity →
      ∃ l, r.list.register q r.now = .ok (l, place) ∧
        r.act (.op (.register q)) = { r with list := l } ∧
        ∀ j, l.get? j = if place = j then some { w with
          interval := q.expiration, refreshAll := q.refreshAll, expiresAt := r.now + q.expiration }
          else r.list.get? j) ∧
    (∀ q, q.expiration < .ofSecs 1 →
      r.list.register q r.now = .error (.expirationTooShort q.identity q.expiration) ∧
        r.act (.op (.register q)) = r) := by
  intro r
  have hr : r.Guarded := (guarded_empty now).play acts
  refine ⟨⟨hr.names, identities_play now acts⟩, intervals_play now acts, r.list.map_get?_due,
    fun place w hw => hr.lasts hw, fun q hlong hnew => ?_, fun q place w hlong hw hname => ?_,
    fun q hshort => ?_⟩
  · have hregister := WatchList.register_new hlong hnew r.now
    exact ⟨_, hregister, act_register_of_ok hregister, rfl⟩
  · have hregister := WatchList.register_again hr.names hlong hw hname r.now
    refine ⟨_, hregister, act_register_of_ok hregister, fun j => ?_⟩
    rw [WatchList.get?_modify]
    split
    · next hj =>
      rw [← hj, hw]
      rfl
    · rfl
  · have hregister := WatchList.register_refused (Nat.not_le_of_lt hshort) r.list r.now
    refine ⟨hregister, ?_⟩
    rw [act, apply, hregister]

/-- A key is watched, its token is noted and its refresh begun; then it is watched again to reload
everything, while the first handle on it is used on, and somebody asks for too much. -/
theorem known_of_acts_again :
    let a : Identity := ⟨"a", none⟩
    let acts : List Act := [.op (.register ⟨a, .ofSecs 1, false⟩), .note 0 (some ⟨"etag-1"⟩),
      .op (.register ⟨⟨"b", none⟩, .ofSecs 5, false⟩), .op (.wait (.ofSecs 1)), .op (.begin 0)]
    let r := (start .empty ⟨0⟩).play acts
    let later : List Act := [.op (.register ⟨a, .ofSecs 30, true⟩), .note 0 (some ⟨"etag-2"⟩)]
    r.list.identities = [a, ⟨"b", none⟩] ∧
      (∃ l, r.list.register ⟨a, .ofSecs 30, true⟩ r.now = .ok (l, 0) ∧
        l.get? 0 = some ⟨a, .ofSecs 30, true, r.now + Duration.ofSecs 30, some ⟨"etag-1"⟩, true⟩ ∧
        l.get? 1 = r.list.get? 1) ∧
      (r.play later).list.find? a = some 0 ∧
      (∃ v, (r.play later).list.get? 0 = some v ∧ v.token = some ⟨"etag-2"⟩) ∧
      (r.play later).begin? 0 = none ∧
      r.act (.op (.register ⟨⟨"c", none⟩, .ofMillis 999, false⟩)) = r := by
  intro a acts r later
  obtain ⟨hnames, -, -, hlasts, -, hagain, hrefused⟩ := known_of_acts ⟨0⟩ acts
  have hw : r.list.get? 0 =
      some ⟨a, .ofSecs 1, false, ⟨nanosPerSecond⟩, some ⟨"etag-1"⟩, true⟩ := by decide +kernel
  have hdrop : Act.op (.drop 0) ∉ later := by simp [later]
  obtain ⟨hfound, ⟨v, hv, -, htoken, -⟩, hguarded⟩ := hlasts 0 _ hw later
  obtain ⟨l, hregister, -, hl⟩ := hagain ⟨a, .ofSecs 30, true⟩ 0 _ (by decide) hw rfl
  refine ⟨hnames.2.trans (by decide), ⟨l, hregister, ?_, ?_⟩, hfound, ⟨v, hv, htoken⟩,
    (hguarded (by decide +kernel) hdrop).2, (hrefused _ (by decide)).2⟩
  · rw [hl, if_pos rfl]
  · rw [hl, if_neg (by decide)]

end Registry
end ReplicatedConfig
