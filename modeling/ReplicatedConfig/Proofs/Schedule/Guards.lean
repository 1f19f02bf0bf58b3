import ReplicatedConfig.Proofs.Schedule.Nudges

/-!
# Guards

A refresh of a watched key is guarded: whoever begins one gets a guard, and the refresh is over
when the guard is dropped.  The watch list itself notes no more than that a key is held.
`Registry` puts the guards that are alive beside the list, as the places of their keys, and the
time, and `Registry.apply` says what each operation on watched keys makes of the three.

## The invariant

`Guarded` says that the guards are what the list says is held, and none of them twice.  It does
not depend on who calls what in which order: an operation that begins a refresh looks at the
list, one that ends it has the guard, and all others leave alone what is held, watching the same
key again included.

## How long a key rests

`Rests` follows one key after its guard has been dropped.  Everything but a nudge and watching
the key again keeps its next look at least one interval behind the drop.
-/

namespace ReplicatedConfig

/-- A watch list with the guards that are alive, at a time. -/
structure Registry where
  list : WatchList
  /-- The places of the keys whose guards are alive. -/
  guards : List Nat
  now : Instant

namespace Registry

/-- An operation on watched keys. -/
inductive Op where
  | register (r : WatchRequest)
  | begin (place : Nat)
  | drop (place : Nat)
  | markAllAttempted
  | setDirty (most : Duration) (draws : Nat → Nat)
  /-- Time goes by. -/
  | wait (d : Duration)

/-- A watch list of which nobody has a guard yet. -/
def start (l : WatchList) (now : Instant) : Registry := ⟨l, [], now⟩

/-- Hands out a guard for the key at a place; nothing where it is refused. -/
def begin? (r : Registry) (place : Nat) : Option Registry :=
  (r.list.begin? place r.now).map fun list => { r with list, guards := place :: r.guards }

/-- What an operation makes of the registry.  A guard that is not alive cannot be dropped. -/
def apply (r : Registry) : Op → Registry
  | .register q =>
    match r.list.register q r.now with
    | .ok (list, _) => { r with list }
    | .error _ => r
  | .begin place => (r.begin? place).getD r
  | .drop place =>
    if place ∈ r.guards then
      { r with list := r.list.release place r.now, guards := r.guards.erase place }
    else r
  | .markAllAttempted => { r with list := r.list.markAllAttempted r.now }
  | .setDirty most draws => { r with list := r.list.setDirty r.now most draws }
  | .wait d => { r with now := r.now + d }

/-- A run of operations. -/
def run (r : Registry) (ops : List Op) : Registry := ops.foldl apply r

theorem run_append (r : Registry) (xs ys : List Op) : r.run (xs ++ ys) = (r.run xs).run ys :=
  List.foldl_append

variable {r : Registry} {place : Nat} {l l' : WatchList} {now : Instant}

/-! ## The guards are what is held -/

theorem get?_markAllAttempted (l : WatchList) (now : Instant) (place : Nat) :
    (l.markAllAttempted now).get? place = (l.get? place).map (Watch.attempted now) :=
  List.getElem?_map

/-- When the key at a place is handed out, and what that changes. -/
theorem begin?_eq_some_iff : l.begin? place now = some l' ↔
    ∃ w, l.get? place = some w ∧ w.held = false ∧ w.Due now ∧
      l' = l.modify place fun w => { w with held := true } := by
  unfold WatchList.begin?
  cases hw : l.get? place with
  | none => simp
  | some w =>
    simp only [Option.some.injEq, exists_eq_left']
    split
    · next hfree => simp [hfree, eq_comm]
    · next hbusy =>
      refine iff_of_false nofun ?_
      rintro ⟨hheld, hdue, -⟩
      exact hbusy ⟨hheld, hdue⟩

/-- No name stands at two places, and the guards, none of them twice, are what is held. -/
structure Guarded (r : Registry) : Prop where
  names : r.list.identities.Nodup
  nodup : r.guards.Nodup
  held : ∀ place, place ∈ r.guards ↔ ∃ w, r.list.get? place = some w ∧ w.held = true

/-- A watch list of which nothing is held. -/
structure Idle (l : WatchList) : Prop where
  names : l.identities.Nodup
  free : ∀ w ∈ l.watches, w.held = false

theorem guarded_start (h : Idle l) (now : Instant) : (start l now).Guarded := by
  refine ⟨h.names, List.nodup_nil, fun place => iff_of_false List.not_mem_nil ?_⟩
  rintro ⟨w, hw, hheld⟩
  rw [h.free w (List.mem_of_getElem? hw)] at hheld
  cases hheld

/-- A change of what is known about keys that leaves the names and what is held. -/
theorem Guarded.of_held (h : r.Guarded) (names : l.identities = r.list.identities)
    (held : ∀ place, (∃ w, l.get? place = some w ∧ w.held = true) ↔
      ∃ w, r.list.get? place = some w ∧ w.held = true) : Guarded { r with list := l } :=
  ⟨names ▸ h.names, h.nodup, fun place => (h.held place).trans (held place).symm⟩

theorem nodup_modify (h : l.identities.Nodup) {f : Watch → Watch}
    (hf : ∀ w, (f w).identity = w.identity) : (l.modify place f).identities.Nodup := by
  rwa [WatchList.identities_modify l place hf]

theorem Guarded.begin (h : r.Guarded) {q : Registry} (hq : r.begin? place = some q) :
    q.Guarded := by
  obtain ⟨l, hl, rfl⟩ := Option.map_eq_some_iff.1 hq
  obtain ⟨w, hw, hfree, -, rfl⟩ := begin?_eq_some_iff.1 hl
  refine ⟨nodup_modify h.names fun _ => rfl, ?_, fun j => ?_⟩
  · refine List.nodup_cons.2 ⟨fun hplace => ?_, h.nodup⟩
    obtain ⟨v, hv, hheld⟩ := (h.held place).1 hplace
    rw [hw, Option.some.injEq] at hv
    rw [← hv, hfree] at hheld
    cases hheld
  · rw [List.mem_cons, h.held, WatchList.get?_modify]
    by_cases hj : place = j
    · subst hj
      simp [hw]
    · simp [hj, Ne.symm hj]

theorem Guarded.drop (h : r.Guarded) (hplace : place ∈ r.guards) :
    (r.apply (.drop place)).Guarded := by
  rw [apply, if_pos hplace]
  refine ⟨nodup_modify h.names fun _ => rfl, h.nodup.erase place, fun j => ?_⟩
  rw [h.nodup.mem_erase_iff, h.held, WatchList.release, WatchList.get?_modify]
  by_cases hj : place = j
  · subst hj
    simp [Watch.released]
  · simp [hj, Ne.symm hj]

/-- **Every operation keeps the guards to what is held.** -/
theorem Guarded.apply (h : r.Guarded) (op : Op) : (r.apply op).Guarded := by
  cases op with
  | register q =>
    rw [Registry.apply]
    cases hregister : r.list.register q r.now with
    | error e => exact h
    | ok x =>
      obtain ⟨l, i⟩ := x
      exact ⟨WatchList.nodup_register h.names hregister, h.nodup,
        fun place => (h.held place).trans (Provider.held_register hregister).symm⟩
  | begin place =>
    rw [Registry.apply]
    cases hbegin : r.begin? place with
    | none => exact h
    | some q => exact h.begin hbegin
  | drop place =>
    by_cases hplace : place ∈ r.guards
    · exact h.drop hplace
    · rw [Registry.apply, if_neg hplace]
      exact h
  | markAllAttempted =>
    refine h.of_held ?_ fun place => ?_
    · rw [WatchList.identities, WatchList.markAllAttempted, List.map_map]
      rfl
    · rw [get?_markAllAttempted]
      cases r.list.get? place <;> simp [Watch.attempted]
  | setDirty most draws =>
    refine h.of_held (WatchList.identities_of_known (WatchList.known_setDirty ..)) fun place => ?_
    rw [Provider.get?_setDirty]
    cases r.list.get? place <;> simp [Watch.nudged]
  | wait d => exact ⟨h.names, h.nodup, h.held⟩

theorem Guarded.run (h : r.Guarded) (ops : List Op) : (r.run ops).Guarded := by
  induction ops generalizing r with
  | nil => exact h
  | cons op rest ih => exact ih (h.apply op)

/-- A guard is handed out exactly where none is alive and the key is to be looked at. -/
theorem Guarded.isSome_begin?_iff (h : r.Guarded) : (r.begin? place).isSome = true ↔
    place ∉ r.guards ∧ ∃ w, r.list.get? place = some w ∧ w.Due r.now := by
  rw [begin?, Option.isSome_map, Option.isSome_iff_exists, h.held]
  constructor
  · rintro ⟨l, hl⟩
    obtain ⟨w, hw, hfree, hdue, -⟩ := begin?_eq_some_iff.1 hl
    refine ⟨?_, w, hw, hdue⟩
    rintro ⟨v, hv, hheld⟩
    rw [hw, Option.some.injEq] at hv
    rw [← hv, hfree] at hheld
    cases hheld
  · rintro ⟨hnot, w, hw, hdue⟩
    have hfree : w.held = false := Bool.eq_false_iff.2 fun hheld => hnot ⟨w, hw, hheld⟩
    exact ⟨_, begin?_eq_some_iff.2 ⟨w, hw, hfree, hdue, rfl⟩⟩

/-- Guards are for different names. -/
theorem Guarded.nodup_names (h : r.Guarded) : (r.list.names r.guards).Nodup := by
  refine h.nodup.filterMap fun i j name hi hj => ?_
  have hlt := (List.getElem?_eq_some_iff.1 (Option.mem_def.1 hi)).1
  exact (List.getElem?_inj hlt h.names).1 ((Option.mem_def.1 hi).trans (Option.mem_def.1 hj).symm)

/-! ## How long a key rests -/

/-- Whether an operation may bring the next look at a name forward. -/
def Op.Hastens (name : Identity) : Op → Prop
  | .register q => q.identity = name ∧ q.check = .ok ()
  | .setDirty _ _ => True
  | _ => False

/-- The next look at a key is not before a time that is one interval away from another one that
has passed. -/
structure Rests (r : Registry) (place : Nat) (w : Watch) (since : Instant) : Prop where
  passed : since ≤ r.now
  known : ∃ v, r.list.get? place = some v ∧ v.identity = w.identity ∧ v.interval = w.interval ∧
    since + w.interval ≤ v.expiresAt

variable {w : Watch} {since : Instant}

/-- Watching another name leaves a key as it is. -/
theorem get?_register_of_ne {q : WatchRequest} {i : Nat} (h : l.register q now = .ok (l', i))
    (hw : l.get? place = some w) (hne : q.identity ≠ w.identity) : l'.get? place = some w := by
  unfold WatchList.register at h
  rw [WatchList.check_of_register h] at h
  cases hfind : l.find? q.identity with
  | some j =>
    simp only [hfind] at h
    cases h
    rw [WatchList.get?_modify, if_neg ?_, hw]
    rintro rfl
    obtain ⟨hj, hname, -⟩ := List.findIdx?_eq_some_iff_getElem.1 hfind
    have hget : l.get? i = some l.watches[i] := List.getElem?_eq_getElem hj
    rw [hw, Option.some.injEq] at hget
    exact hne (hget ▸ (of_decide_eq_true hname).symm)
  | none =>
    simp only [hfind] at h
    cases h
    exact (List.getElem?_append_left (List.getElem?_eq_some_iff.1 hw).1).trans hw

/-- A key whose next look is put off to one interval from now rests. -/
theorem Rests.of_attempted {v : Watch} {list : WatchList} {guards : List Nat} (h : since ≤ now)
    (hv : list.get? place = some v) (hname : v.identity = w.identity)
    (hinterval : v.interval = w.interval) (hexpires : v.expiresAt = now + w.interval) :
    Rests ⟨list, guards, now⟩ place w since := by
  refine ⟨h, v, hv, hname, hinterval, ?_⟩
  rw [hexpires, Instant.le_iff, Instant.nanos_add, Instant.nanos_add]
  exact Nat.add_le_add_right h _

/-- **A key rests on** until something hastens it. -/
theorem Rests.apply (h : r.Rests place w since) {op : Op} (hop : ¬ op.Hastens w.identity) :
    (r.apply op).Rests place w since := by
  obtain ⟨hpassed, v, hv, hname, hinterval, hlate⟩ := h
  cases op with
  | register q =>
    rw [Registry.apply]
    cases hregister : r.list.register q r.now with
    | error e => exact ⟨hpassed, v, hv, hname, hinterval, hlate⟩
    | ok x =>
      obtain ⟨l, i⟩ := x
      have hne : q.identity ≠ v.identity := fun heq =>
        hop ⟨heq.trans hname, WatchList.check_of_register hregister⟩
      exact ⟨hpassed, v, get?_register_of_ne hregister hv hne, hname, hinterval, hlate⟩
  | begin j =>
    rw [Registry.apply]
    cases hbegin : r.begin? j with
    | none => exact ⟨hpassed, v, hv, hname, hinterval, hlate⟩
    | some q =>
      obtain ⟨l, hl, rfl⟩ := Option.map_eq_some_iff.1 hbegin
      obtain ⟨-, -, -, -, rfl⟩ := begin?_eq_some_iff.1 hl
      refine ⟨hpassed, _, Provider.get?_modify_of_get? hv j _, ?_⟩
      split <;> exact ⟨hname, hinterval, hlate⟩
  | drop j =>
    rw [Registry.apply]
    split
    · have hget := Provider.get?_modify_of_get? hv j (Watch.released r.now)
      by_cases hj : j = place
      · rw [if_pos hj] at hget
        exact .of_attempted hpassed hget hname hinterval (by rw [← hinterval]; rfl)
      · rw [if_neg hj] at hget
        exact ⟨hpassed, v, hget, hname, hinterval, hlate⟩
    · exact ⟨hpassed, v, hv, hname, hinterval, hlate⟩
  | markAllAttempted =>
    have hget := get?_markAllAttempted r.list r.now place
    rw [hv, Option.map_some] at hget
    exact .of_attempted hpassed hget hname hinterval (by rw [← hinterval]; rfl)
  | setDirty most draws => exact absurd trivial hop
  | wait d => exact ⟨Nat.le_trans hpassed (Instant.le_add r.now d), v, hv, hname, hinterval, hlate⟩

theorem Rests.run (h : r.Rests place w since) {ops : List Op}
    (hops : ∀ op ∈ ops, ¬ op.Hastens w.identity) : (r.run ops).Rests place w since := by
  induction ops generalizing r with
  | nil => exact h
  | cons op rest ih =>
    exact ih (h.apply (hops op List.mem_cons_self)) fun other hother =>
      hops other (List.mem_cons_of_mem _ hother)

/-- A key rests from the drop of its guard. -/
theorem rests_drop (hplace : place ∈ r.guards) (hw : r.list.get? place = some w) :
    (r.apply (.drop place)).Rests place w r.now := by
  have hget := Provider.get?_modify_of_get? hw place (Watch.released r.now)
  rw [if_pos rfl] at hget
  rw [apply, if_pos hplace]
  exact .of_attempted (Nat.le_refl _) hget rfl rfl rfl

end Registry

end ReplicatedConfig
