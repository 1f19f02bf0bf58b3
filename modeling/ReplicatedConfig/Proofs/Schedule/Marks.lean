import ReplicatedConfig.Proofs.Refresh.Findings
import ReplicatedConfig.Proofs.Refresh.Loading

/-!
# What moves the next look at a key

When a watched key is looked at next is written by many hands: a refresh that claims the key
and lets it go, a load that marks all keys as looked at, a nudge, and watching the key again.
A `Mark` names the first three of these events, which belong to operations, and
`Provider.Marks` says of two providers which marks lie between them.  It is a relation with
one constructor for each way in which an operation touches the schedule; everything else that
operations do is `quiet`.

## Who may end a refresh

A refresh ends only while its key is held, and that takes an argument: the check that lets a
key go is the one that has claimed it, and no two checks have claimed one key.  The `claims`
of an operation are the places that its checks have claimed and not let go.  `Moves` is a step
of an operation together with its claims before and behind it.  It leaves the keys of others
held (`kept`), and what it claims was held by nobody (`fresh`), so the claims of different
operations stay apart (`Moves.others`).  Nor does it leave a key held that it has not claimed
(`covered`), so a key that is held is claimed by some operation.

Apart from that nothing has to be known about where an operation stands: whatever reaches it,
the provider moves by marks (`Task.moves_handle`).
-/

namespace ReplicatedConfig

variable {σ α : Type}

/-- What a watch says about its next look. -/
def Watch.slot (w : Watch) : Identity × Duration × Instant × Bool :=
  (w.identity, w.interval, w.expiresAt, w.held)

/-- What the watches say about their next looks. -/
def WatchList.schedule (l : WatchList) : List (Identity × Duration × Instant × Bool) :=
  l.watches.map Watch.slot

namespace WatchList

variable {l m : WatchList}

/-- A schedule says the same about each place. -/
theorem getElem?_schedule (l : WatchList) (place : Nat) :
    l.schedule[place]? = (l.get? place).map Watch.slot :=
  List.getElem?_map

theorem schedule_ext (h : ∀ place, (l.get? place).map Watch.slot = (m.get? place).map Watch.slot) :
    l.schedule = m.schedule := by
  refine List.ext_getElem? fun place => ?_
  rw [getElem?_schedule, getElem?_schedule, h]

/-- What one of two lists with one schedule says about a place. -/
theorem exists_of_schedule (h : m.schedule = l.schedule) {place : Nat} {w : Watch}
    (hw : l.get? place = some w) : ∃ v, m.get? place = some v ∧ v.slot = w.slot := by
  have hslot := congrArg (·[place]?) h
  simp only [getElem?_schedule, hw, Option.map_some] at hslot
  exact Option.map_eq_some_iff.1 hslot

end WatchList

/-- An event in the schedule of the watched keys. -/
inductive Mark where
  /-- A refresh of the key at a place has begun. -/
  | began (place : Nat)
  /-- A refresh of the key at a place has ended. -/
  | ended (place : Nat)
  /-- A full load has completed. -/
  | loaded
  deriving DecidableEq

namespace Provider

/-- A refresh of the key at a place is under way. -/
def Holds (p : Provider) (place : Nat) : Prop :=
  ∃ w, p.watchList.get? place = some w ∧ w.held = true

/-- The marks that lie between two providers, in order. -/
inductive Marks : Provider → List Mark → Provider → Prop where
  | quiet {p q : Provider} (now : q.now = p.now)
      (schedule : q.watchList.schedule = p.watchList.schedule) : Marks p [] q
  | began {p : Provider} {place : Nat} {watchList : WatchList}
      (claimed : p.watchList.begin? place p.now = some watchList) :
      Marks p [.began place] { p with watchList }
  | ended {p : Provider} {place : Nat} (held : p.Holds place) :
      Marks p [.ended place] (p.letGo place)
  | loaded (me : TaskId) (p : Provider) (watched : Nat) (entries : List Entry) :
      Marks p [.loaded] (Reload.commit me p watched entries).1
  | trans {p q r : Provider} {xs ys : List Mark} (before : Marks p xs q) (after : Marks q ys r) :
      Marks p (xs ++ ys) r

/-- A step of an operation that has claimed the places `before` and then those `after`. -/
structure Moves (p : Provider) (before : List Nat) (q : Provider) (after : List Nat) : Prop where
  marks : ∃ marks, p.Marks marks q
  kept : ∀ place, place ∉ before → p.Holds place → q.Holds place
  held : ∀ place ∈ after, q.Holds place
  fresh : ∀ place ∈ after, place ∈ before ∨ ¬ p.Holds place
  covered : ∀ place, q.Holds place → place ∈ after ∨ place ∉ before ∧ p.Holds place

/-- A step of an operation that has claimed nothing. -/
abbrev Drifts (p q : Provider) : Prop := p.Moves [] q []

variable {p q r : Provider} {before between after theirs : List Nat} {place : Nat}

namespace Moves

theorem refl (held : ∀ place ∈ before, p.Holds place) : p.Moves before p before :=
  ⟨⟨[], .quiet rfl rfl⟩, fun _ _ h => h, held, fun _ h => .inl h,
    fun place h => (em (place ∈ before)).imp_right fun hplace => ⟨hplace, h⟩⟩

theorem trans (hq : p.Moves before q between) (hr : q.Moves between r after) :
    p.Moves before r after where
  marks := by
    obtain ⟨xs, hxs⟩ := hq.marks
    obtain ⟨ys, hys⟩ := hr.marks
    exact ⟨xs ++ ys, hxs.trans hys⟩
  kept place hplace hp := by
    refine hr.kept place (fun hmem => ?_) (hq.kept place hplace hp)
    rcases hq.fresh place hmem with hmem | hnot
    · exact hplace hmem
    · exact hnot hp
  held := hr.held
  fresh place hmem := by
    rcases hr.fresh place hmem with hmem | hnot
    · exact hq.fresh place hmem
    · by_cases hplace : place ∈ before
      · exact .inl hplace
      · exact .inr fun hp => hnot (hq.kept place hplace hp)
  covered place hplace := by
    rcases hr.covered place hplace with hmem | ⟨hnot, hq'⟩
    · exact .inl hmem
    · rcases hq.covered place hq' with hmem | hp
      · exact absurd hmem hnot
      · exact .inr hp

/-- What others have claimed stays theirs. -/
theorem others (h : p.Moves before q after) (held : ∀ place ∈ theirs, p.Holds place)
    (apart : before.Disjoint theirs) :
    (∀ place ∈ theirs, q.Holds place) ∧ after.Disjoint theirs := by
  refine ⟨fun place hplace => h.kept place (fun hmem => apart hmem hplace) (held place hplace), ?_⟩
  intro place hmem hplace
  rcases h.fresh place hmem with hmem | hnot
  · exact apart hmem hplace
  · exact hnot (held place hplace)

/-- Two steps of operations side by side are one step of both. -/
theorem append {before' after' : List Nat} (hq : p.Moves before q after)
    (hr : q.Moves before' r after') (held : ∀ place ∈ before', p.Holds place)
    (apart : before.Disjoint before') : p.Moves (before ++ before') r (after ++ after') where
  marks := by
    obtain ⟨xs, hxs⟩ := hq.marks
    obtain ⟨ys, hys⟩ := hr.marks
    exact ⟨xs ++ ys, hxs.trans hys⟩
  kept place hplace hp := by
    rw [List.mem_append, not_or] at hplace
    exact hr.kept place hplace.2 (hq.kept place hplace.1 hp)
  held place hplace := by
    rcases List.mem_append.1 hplace with hplace | hplace
    · exact (hr.others hq.held (List.disjoint_symm (hq.others held apart).2)).1 place hplace
    · exact hr.held place hplace
  fresh place hplace := by
    rw [List.mem_append]
    rcases List.mem_append.1 hplace with hplace | hplace
    · exact (hq.fresh place hplace).imp_left .inl
    · rcases hr.fresh place hplace with hmem | hnot
      · exact .inl (.inr hmem)
      · by_cases hmem : place ∈ before
        · exact .inl (.inl hmem)
        · exact .inr fun hp => hnot (hq.kept place hmem hp)
  covered place hplace := by
    rw [List.mem_append, List.mem_append, not_or]
    rcases hr.covered place hplace with hmem | ⟨hnot, hq'⟩
    · exact .inl (.inr hmem)
    · rcases hq.covered place hq' with hmem | ⟨hnot', hp⟩
      · exact .inl (.inl hmem)
      · exact .inr ⟨⟨hnot', hnot⟩, hp⟩

end Moves

theorem Drifts.refl (p : Provider) : p.Drifts p := Moves.refl fun _ h => absurd h List.not_mem_nil

/-- A step that claims nothing, by an operation that has claimed something. -/
theorem Drifts.moves (h : p.Drifts q) (held : ∀ place ∈ before, p.Holds place) :
    p.Moves before q before where
  marks := h.marks
  kept place _ := h.kept place List.not_mem_nil
  held place hplace := h.kept place List.not_mem_nil (held place hplace)
  fresh _ hplace := .inl hplace
  covered place hplace := by
    rcases h.covered place hplace with hmem | ⟨-, hp⟩
    · exact absurd hmem List.not_mem_nil
    · exact (em (place ∈ before)).imp_right fun hnot => ⟨hnot, hp⟩

/-- What is held depends on the schedule only. -/
theorem holds_of_schedule (h : q.watchList.schedule = p.watchList.schedule) (hp : p.Holds place) :
    q.Holds place := by
  obtain ⟨w, hw, hheld⟩ := hp
  obtain ⟨v, hv, hvw⟩ := WatchList.exists_of_schedule h hw
  have hsame : v.held = w.held := congrArg (·.2.2.2) hvw
  exact ⟨v, hv, hsame.trans hheld⟩

theorem Drifts.of_schedule (hnow : q.now = p.now)
    (hschedule : q.watchList.schedule = p.watchList.schedule) : p.Drifts q where
  marks := ⟨[], .quiet hnow hschedule⟩
  kept _ _ := holds_of_schedule hschedule
  held _ hplace := absurd hplace List.not_mem_nil
  fresh _ hplace := absurd hplace List.not_mem_nil
  covered _ hplace := .inr ⟨List.not_mem_nil, holds_of_schedule hschedule.symm hplace⟩

theorem Drifts.of_watchList (hnow : q.now = p.now) (hlist : q.watchList = p.watchList) :
    p.Drifts q :=
  .of_schedule hnow (congrArg WatchList.schedule hlist)

theorem Called.drifts (h : p.Called q) : p.Drifts q := .of_watchList h.now h.watchList

theorem drifts_setToken (p : Provider) (place : Nat) (token : Option Token) :
    p.Drifts (p.setToken place token) := by
  refine .of_schedule rfl (WatchList.schedule_ext fun j => ?_)
  show ((p.watchList.modify place fun w => { w with token }).get? j).map _ =
    (p.watchList.get? j).map _
  rw [WatchList.get?_modify]
  split
  · rw [Option.map_map]
    rfl
  · rfl

theorem drifts_commit (me : TaskId) (p : Provider) (watched : Nat) (entries : List Entry) :
    p.Drifts (Reload.commit me p watched entries).1 where
  marks := ⟨_, .loaded me p watched entries⟩
  kept place _ := by
    rintro ⟨w, hw, hheld⟩
    refine ⟨_, by rw [Reload.get?_commit, hw, Option.map_some], ?_⟩
    split <;> exact hheld
  held _ hplace := absurd hplace List.not_mem_nil
  fresh _ hplace := absurd hplace List.not_mem_nil
  covered place := by
    rintro ⟨v, hv, hheld⟩
    rw [Reload.get?_commit] at hv
    obtain ⟨w, hw, rfl⟩ := Option.map_eq_some_iff.1 hv
    refine .inr ⟨List.not_mem_nil, w, hw, ?_⟩
    split at hheld <;> exact hheld

/-- Claiming a key that nobody holds. -/
theorem moves_begin {watchList : WatchList}
    (h : p.watchList.begin? place p.now = some watchList) :
    p.Moves [] { p with watchList } [place] := by
  have hmarks := Marks.began h
  unfold WatchList.begin? at h
  cases hw : p.watchList.get? place with
  | none =>
    rw [hw] at h
    cases h
  | some w =>
    rw [hw] at h
    simp only at h
    split at h
    · next hfree =>
      cases h
      refine ⟨⟨_, hmarks⟩, fun j _ => ?_, fun j hj => ?_, fun j hj => .inr ?_, fun j => ?_⟩
      · rintro ⟨v, hv, hheld⟩
        refine ⟨if place = j then { v with held := true } else v, ?_, by split <;> [rfl; exact hheld]⟩
        rw [WatchList.get?_modify, hv]
        split <;> rfl
      · rw [List.mem_singleton.1 hj]
        exact ⟨_, by rw [WatchList.get?_modify, if_pos rfl, hw, Option.map_some], rfl⟩
      · rw [List.mem_singleton.1 hj]
        rintro ⟨v, hv, hheld⟩
        rw [hw] at hv
        cases hv
        rw [hfree.1] at hheld
        cases hheld
      · rintro ⟨v, hv, hheld⟩
        rw [WatchList.get?_modify] at hv
        split at hv
        · next hj => exact .inl (List.mem_singleton.2 hj.symm)
        · exact .inr ⟨List.not_mem_nil, v, hv, hheld⟩
    · cases h

/-- Letting go of a key that the operation has claimed. -/
theorem moves_letGo (h : p.Holds place) : p.Moves [place] (p.letGo place) [] where
  marks := ⟨_, .ended h⟩
  kept j hj := by
    rintro ⟨w, hw, hheld⟩
    refine ⟨w, ?_, hheld⟩
    rw [letGo, WatchList.release, WatchList.get?_modify,
      if_neg fun h => hj (List.mem_singleton.2 h.symm)]
    exact hw
  held _ hplace := absurd hplace List.not_mem_nil
  fresh _ hplace := absurd hplace List.not_mem_nil
  covered j := by
    rintro ⟨v, hv, hheld⟩
    rw [letGo, WatchList.release, WatchList.get?_modify] at hv
    split at hv
    · obtain ⟨w, -, rfl⟩ := Option.map_eq_some_iff.1 hv
      cases hheld
    · next hj => exact .inr ⟨fun h => hj (List.mem_singleton.1 h).symm, v, hv, hheld⟩

end Provider

/-! ## Reloads -/

namespace Reload

variable {me : TaskId} {cancelled : Bool} {watched : Nat} {p : Provider}

theorem drifts_adaptNext (p : Provider) (raw : List Setting) (previous done : List Entry) :
    p.Drifts (adaptNext me p watched raw previous done).1 := by
  cases raw with
  | nil => exact p.drifts_commit me watched done
  | cons s rest => exact .refl p

theorem drifts_fail (p : Provider) (e : ProviderError) : p.Drifts (fail me p e).1 :=
  .of_watchList rfl rfl

theorem drifts_adapted (p : Provider) (s : Setting) (rest : List Setting)
    (previous done : List Entry) : p.Drifts (adapted me p watched s rest previous done).1 := by
  unfold adapted
  split
  · exact drifts_adaptNext p _ _ _
  · split
    · exact drifts_adaptNext p _ _ _
    · exact drifts_fail p _

theorem drifts_fetchNext (places : List Nat) (p : Provider) (raw : List Setting) :
    p.Drifts (fetchNext me cancelled p watched places raw).1 := by
  induction places generalizing p raw with
  | nil => exact drifts_adaptNext p _ _ _
  | cons place places ih =>
    rw [fetchNext]
    split
    · exact ih p raw
    · next w hw =>
      split
      · exact ih p raw
      · have hcalled := p.called_openCall .fetch w.identity cancelled
        generalize p.openCall .fetch w.identity cancelled = x at hcalled
        obtain ⟨q, progress⟩ := x
        cases progress with
        | waiting call => exact hcalled.drifts
        | returned r =>
          simp only []
          split
          · exact hcalled.drifts.trans (drifts_fail q _)
          · exact hcalled.drifts.trans (ih q _)

theorem drifts_fetched (p : Provider) (places : List Nat) (raw : List Setting)
    (progress : Progress Identity (Option Setting)) :
    p.Drifts (fetched me cancelled p watched places raw progress).1 := by
  cases progress with
  | waiting call => exact .refl p
  | returned r =>
    rw [fetched]
    split
    · exact drifts_fail p _
    · exact drifts_fetchNext places p _

theorem drifts_listed (p : Provider) (progress : Progress Listing (List Setting)) :
    p.Drifts (listed me cancelled p progress).1 := by
  rcases progress with call | (e | ⟨settings, m⟩)
  · exact .refl p
  · exact drifts_fail p _
  · exact drifts_fetchNext _ p _

theorem drifts_enter (p : Provider) : p.Drifts (enter me cancelled p).1 := by
  unfold enter
  split
  · exact (p.called_openCall _ _ _).drifts.trans (drifts_listed _ _)
  · exact .refl p

theorem drifts_begin (p : Provider) : p.Drifts (begin me cancelled p).1 := by
  have hacquire : p.Drifts (p.acquire me) := .of_watchList rfl rfl
  exact hacquire.trans (drifts_enter _)

/-- Whatever reaches a reload, the provider moves by marks, and nothing is claimed. -/
theorem drifts_handle (p : Provider) (r : Reload) (i : Input) :
    p.Drifts (r.handle me cancelled p i).1 := by
  cases r with
  | waiting =>
    cases i with
    | resumed => exact drifts_enter p
    | answered ticket reply => exact .refl p
    | fallback serial => exact .refl p
    | cancelled => exact .refl p
    | woke => exact .refl p
  | listing call => exact (p.called_drive _ _ _).drifts.trans (drifts_listed _ _)
  | fetching watched places raw call =>
    exact (p.called_drive _ _ _).drifts.trans (drifts_fetched _ _ _ _)
  | adapting watched s rest previous done =>
    cases i with
    | resumed => exact drifts_adapted p s rest previous done
    | answered ticket reply => exact .refl p
    | fallback serial => exact .refl p
    | cancelled => exact .refl p
    | woke => exact .refl p

end Reload

/-! ## Checks -/

namespace Check

variable {cancelled : Bool} {p : Provider} {place : Nat}

/-- The place that a check has claimed. -/
def claims : Check → List Nat
  | .ready _ => []
  | .checking place _ _ => [place]
  | .fetching place _ _ => [place]
  | .finished _ => []

/-- A check that has claimed its place moves the provider by marks. -/
abbrev Moves (p : Provider) (before : List Nat) (x : Provider × Check) : Prop :=
  p.Moves before x.1 x.2.claims

theorem moves_finish (h : p.Holds place) (result : Except ProviderError Finding) :
    Moves p [place] (finish p place result) :=
  Provider.moves_letGo h

theorem holds_singleton (h : p.Holds place) : ∀ j ∈ [place], p.Holds j := fun j hj => by
  rw [List.mem_singleton.1 hj]
  exact h

/-- A call that a check makes. -/
theorem holds_of_called {q : Provider} (h : p.Called q) (hp : p.Holds place) : q.Holds place := by
  rw [Provider.Holds, h.watchList]
  exact hp

theorem moves_fetched (h : p.Holds place) (known : Option Token)
    (progress : Progress Identity (Option Setting)) :
    Moves p [place] (fetched p place known progress) := by
  cases progress with
  | waiting call => exact .refl (holds_singleton h)
  | returned r =>
    rw [fetched]
    split
    · exact moves_finish h _
    · exact moves_finish h _

theorem moves_judged (h : p.Holds place) (w : Watch) (known : Option Token) (v : Verdict) :
    Moves p [place] (judged cancelled p place w known v) := by
  cases v with
  | unchanged => exact moves_finish h _
  | missing => exact moves_finish h _
  | modified =>
    rw [judged]
    split
    · exact moves_finish h _
    · have hcalled := p.called_openCall .fetch w.identity cancelled
      refine (hcalled.drifts.moves (holds_singleton h)).trans ?_
      exact moves_fetched (holds_of_called hcalled h) known _

theorem moves_checked (h : p.Holds place) (known : Option Token)
    (progress : Progress (Identity × Option Token) Verdict) :
    Moves p [place] (checked cancelled p place known progress) := by
  cases progress with
  | waiting call => exact .refl (holds_singleton h)
  | returned r =>
    rw [checked]
    split
    · exact moves_finish h _
    · exact moves_judged h _ _ _
    · exact moves_finish h _

theorem moves_start (p : Provider) (place : Nat) : Moves p [] (start cancelled p place) := by
  unfold start
  split
  · next watchList w hclaimed hw =>
    have hbegan := Provider.moves_begin hclaimed
    have hcalled := { p with watchList }.called_openCall .check (w.identity, w.token) cancelled
    have hheld := hbegan.held place List.mem_cons_self
    refine (hbegan.trans (hcalled.drifts.moves (holds_singleton hheld))).trans ?_
    exact moves_checked (holds_of_called hcalled hheld) _ _
  · exact Provider.Drifts.refl p

/-- Whatever reaches a check that holds what it has claimed, the provider moves by marks. -/
theorem moves_handle {c : Check} (h : ∀ place ∈ c.claims, p.Holds place) (i : Input) :
    Moves p c.claims (c.handle cancelled p i) := by
  have hstay : Moves p c.claims (p, c) := .refl h
  cases c with
  | ready place =>
    cases i with
    | resumed => exact moves_start p place
    | answered ticket reply => exact hstay
    | fallback serial => exact hstay
    | cancelled => exact hstay
    | woke => exact hstay
  | checking place known call =>
    have hcalled := p.called_drive .check call i
    refine (hcalled.drifts.moves h).trans ?_
    exact moves_checked (holds_of_called hcalled (h place List.mem_cons_self)) known _
  | fetching place known call =>
    have hcalled := p.called_drive .fetch call i
    refine (hcalled.drifts.moves h).trans ?_
    exact moves_fetched (holds_of_called hcalled (h place List.mem_cons_self)) known _
  | finished result => exact hstay

theorem moves_abandon {c : Check} (h : ∀ place ∈ c.claims, p.Holds place) :
    p.Moves c.claims (c.abandon p) [] := by
  cases c with
  | ready place => exact .refl h
  | checking place known call => exact Provider.moves_letGo (h place List.mem_cons_self)
  | fetching place known call => exact Provider.moves_letGo (h place List.mem_cons_self)
  | finished result => exact .refl h

end Check

/-! ## Several checks at once -/

namespace Pass

/-- The places that some checks have claimed. -/
def claimsOf (checks : List Check) : List Nat := checks.flatMap Check.claims

/-- Checks have claimed different places and hold them. -/
structure Apart (p : Provider) (claims : List Nat) : Prop where
  held : ∀ place ∈ claims, p.Holds place
  nodup : claims.Nodup

variable {p : Provider} {cancelled : Bool}

theorem Apart.nil (p : Provider) : Apart p [] := ⟨fun _ h => absurd h List.not_mem_nil, List.nodup_nil⟩

/-- A step of the first check, and then steps of the others. -/
theorem moves_cons {q r : Provider} {c d : Check} {checks checks' : List Check}
    (h : Apart p (claimsOf (c :: checks))) (hc : p.Moves c.claims q d.claims)
    (hd : d.claims.Nodup)
    (hrest : Apart q (claimsOf checks) →
      q.Moves (claimsOf checks) r (claimsOf checks') ∧ (claimsOf checks').Nodup) :
    p.Moves (claimsOf (c :: checks)) r (claimsOf (d :: checks')) ∧
      (claimsOf (d :: checks')).Nodup := by
  obtain ⟨hheld, hnodup⟩ := h
  rw [claimsOf, List.flatMap_cons] at hheld hnodup
  obtain ⟨-, hnodup', hapart⟩ := List.nodup_append'.1 hnodup
  have hothers : ∀ place ∈ claimsOf checks, p.Holds place := fun place hplace =>
    hheld place (List.mem_append_right _ hplace)
  obtain ⟨hheld', hapart'⟩ := hc.others hothers hapart
  obtain ⟨hmoves, hafter⟩ := hrest ⟨hheld', hnodup'⟩
  refine ⟨hc.append hmoves hothers hapart, ?_⟩
  rw [claimsOf, List.flatMap_cons]
  exact List.nodup_append'.2 ⟨hd, hafter,
    List.disjoint_symm (hmoves.others hc.held (List.disjoint_symm hapart')).2⟩

theorem nodup_claims (c : Check) : c.claims.Nodup := by
  cases c with
  | ready place => exact List.nodup_nil
  | checking place known call => exact List.nodup_singleton place
  | fetching place known call => exact List.nodup_singleton place
  | finished result => exact List.nodup_nil

/-- What holds of checks holds of the first of them. -/
theorem Apart.head {c : Check} {checks : List Check} (h : Apart p (claimsOf (c :: checks))) :
    ∀ place ∈ c.claims, p.Holds place := fun place hplace =>
  h.held place (List.mem_append_left _ hplace)

theorem moves_driveChecks (i : Input) {checks : List Check} (h : Apart p (claimsOf checks)) :
    p.Moves (claimsOf checks) (driveChecks cancelled i p checks).1
        (claimsOf (driveChecks cancelled i p checks).2) ∧
      (claimsOf (driveChecks cancelled i p checks).2).Nodup := by
  induction checks generalizing p with
  | nil => exact ⟨.refl h.held, h.nodup⟩
  | cons c rest ih => exact moves_cons h (Check.moves_handle h.head i) (nodup_claims _) ih

theorem moves_startCheck {checks : List Check} (h : Apart p (claimsOf checks)) :
    p.Moves (claimsOf checks) (startCheck cancelled p checks).1
        (claimsOf (startCheck cancelled p checks).2) ∧
      (claimsOf (startCheck cancelled p checks).2).Nodup := by
  induction checks generalizing p with
  | nil => exact ⟨.refl h.held, h.nodup⟩
  | cons c rest ih =>
    rw [startCheck]
    split
    · refine moves_cons h (Check.moves_handle h.head .resumed) (nodup_claims _) fun hrest => ?_
      exact ⟨.refl hrest.held, hrest.nodup⟩
    · exact moves_cons h (.refl h.head) (nodup_claims _) ih

theorem moves_abandonAll {checks : List Check} (h : Apart p (claimsOf checks)) :
    p.Moves (claimsOf checks) (checks.foldl Check.abandon p) [] := by
  induction checks generalizing p with
  | nil => exact .refl h.held
  | cons c rest ih =>
    obtain ⟨hheld, hnodup⟩ := h
    rw [claimsOf, List.flatMap_cons] at hheld hnodup
    obtain ⟨-, hnodup', hapart⟩ := List.nodup_append'.1 hnodup
    have hothers : ∀ place ∈ claimsOf rest, p.Holds place := fun place hplace =>
      hheld place (List.mem_append_right _ hplace)
    have hc := Check.moves_abandon fun place hplace => hheld place (List.mem_append_left _ hplace)
    exact hc.append (ih ⟨(hc.others hothers hapart).1, hnodup'⟩) hothers hapart

end Pass

/-! ## Merges -/

namespace Merge

variable {me : TaskId}

theorem drifts_finish (p : Provider) (merged : Nat) (failures : List ProviderError) :
    p.Drifts (finish me p merged failures).1 := by
  unfold finish
  split
  · exact .of_watchList rfl rfl
  · exact .of_watchList rfl rfl

theorem drifts_advance (changes : List PointChange) (p : Provider) (merged : Nat)
    (failures : List ProviderError) : p.Drifts (advance me p merged failures changes).1 := by
  induction changes generalizing p merged with
  | nil => exact drifts_finish p merged failures
  | cons change rest ih =>
    cases change with
    | upsert place checked s =>
      rw [advance]
      split
      · exact .refl p
      · exact ih p merged
    | remove place checked =>
      rw [advance]
      split
      · have hforgot := p.drifts_setToken place none
        simp only []
        split
        · exact hforgot.trans (ih _ _)
        · split
          · have hremoved (i : Identity) : (p.setToken place none).Drifts
                { p.setToken place none with
                  materialized := (p.setToken place none).materialized.remove i } :=
              .of_watchList rfl rfl
            exact (hforgot.trans (hremoved _)).trans (ih _ _)
          · exact hforgot.trans (ih _ _)
      · exact ih p merged

theorem drifts_adapted (p : Provider) (place : Nat) (s : Setting) (rest : List PointChange)
    (merged : Nat) (failures : List ProviderError) :
    p.Drifts (adapted me p place s rest merged failures).1 := by
  unfold adapted
  split
  · next pairs hpairs =>
    have hnoted := p.drifts_setToken place (some s.token)
    have hloaded : (p.setToken place (some s.token)).Drifts
        { p.setToken place (some s.token) with
          materialized := (p.setToken place (some s.token)).materialized.upsert ⟨s, pairs⟩ } :=
      .of_watchList rfl rfl
    exact (hnoted.trans hloaded).trans (drifts_advance rest _ _ _)
  · exact drifts_advance rest p _ _

theorem drifts_enter (p : Provider) (changes : List PointChange) (failures : List ProviderError) :
    p.Drifts (enter me p changes failures).1 := by
  unfold enter
  split
  · exact drifts_advance changes p 0 failures
  · exact .refl p

theorem drifts_begin (p : Provider) (changes : List PointChange) (failures : List ProviderError) :
    p.Drifts (begin me p changes failures).1 := by
  have hacquire : p.Drifts (p.acquire me) := .of_watchList rfl rfl
  exact hacquire.trans (drifts_enter _ _ _)

/-- Whatever reaches a merge, the provider moves by marks. -/
theorem drifts_handle (p : Provider) (m : Merge) (i : Input) : p.Drifts (m.handle me p i).1 := by
  cases m with
  | waiting changes failures =>
    cases i with
    | resumed => exact drifts_enter p changes failures
    | answered ticket reply => exact .refl p
    | fallback serial => exact .refl p
    | cancelled => exact .refl p
    | woke => exact .refl p
  | adapting place s rest merged failures =>
    cases i with
    | resumed => exact drifts_adapted p place s rest merged failures
    | answered ticket reply => exact .refl p
    | fallback serial => exact .refl p
    | cancelled => exact .refl p
    | woke => exact .refl p

end Merge

/-! ## Passes -/

namespace Pass

variable {me : TaskId} {cancelled : Bool} {p q : Provider} {before between : List Nat}

/-- The places that the checks of a pass have claimed. -/
def claims : Pass → List Nat
  | .checking checks => claimsOf checks
  | _ => []

/-- The places that a pass has claimed behind a step. -/
def claimsAfter : Stage Pass Report → List Nat
  | .running s => s.claims
  | .finished _ => []

/-- A step of a pass that has claimed some places. -/
structure Moves (p : Provider) (before : List Nat) (x : Step) : Prop where
  moves : p.Moves before x.1 (claimsAfter x.2)
  nodup : (claimsAfter x.2).Nodup

theorem Moves.of_moves {x : Step} (hq : p.Moves before q between) (h : Moves q between x) :
    Moves p before x :=
  ⟨hq.trans h.moves, h.nodup⟩

/-- A step that ends the pass or leads it to a phase without checks. -/
theorem moves_of_drifts {x : Step} (h : p.Drifts x.1) (hnone : claimsAfter x.2 = []) :
    Moves p [] x := by
  refine ⟨?_, ?_⟩
  · rw [hnone]
    exact h
  · rw [hnone]
    exact List.nodup_nil

theorem moves_finish (p : Provider) (f : Findings) (failures : List ProviderError)
    (reloaded published : Bool) : Moves p [] (finish p f failures reloaded published) := by
  cases failures with
  | nil => exact moves_of_drifts (.of_watchList rfl rfl) rfl
  | cons first rest => exact moves_of_drifts (.of_watchList rfl rfl) rfl

theorem moves_loaded (p : Provider) (r : Stage Reload Unit) : Moves p [] (loaded p r) := by
  rcases r with r | (e | u)
  · exact moves_of_drifts (.refl p) rfl
  · exact moves_of_drifts (.of_watchList rfl rfl) rfl
  · exact moves_of_drifts (.of_watchList rfl rfl) rfl

theorem moves_merged (p : Provider) (f : Findings) (m : Merge ⊕ (Bool × List ProviderError)) :
    Moves p [] (merged p f m) := by
  rcases m with m | ⟨published, failures⟩
  · exact moves_of_drifts (.refl p) rfl
  · exact moves_finish p f failures false published

theorem moves_mergeChanges (p : Provider) (f : Findings) (failures : List ProviderError) :
    Moves p [] (mergeChanges me p f failures) := by
  unfold mergeChanges
  split
  · exact moves_finish p f failures false false
  · exact .of_moves (Merge.drifts_begin p f.changes failures) (moves_merged _ f _)

theorem moves_reloaded (p : Provider) (f : Findings) (r : Stage Reload Unit) :
    Moves p [] (reloaded me p f r) := by
  unfold reloaded
  split
  · exact moves_of_drifts (.refl p) rfl
  · exact moves_finish p f f.failures true true
  · exact moves_of_drifts (.refl p) rfl
  · exact moves_mergeChanges p f _

/-- Checks that have ended have let their keys go. -/
theorem claimsOf_eq_nil {checks : List Check} {results : List (Except ProviderError Finding)}
    (h : checks.mapM Check.result? = some results) : claimsOf checks = [] := by
  rw [eq_map_finished h, claimsOf, List.flatMap_map]
  exact List.flatMap_eq_nil_iff.2 fun _ _ => rfl

theorem moves_checked {checks : List Check} (h : Apart p (claimsOf checks)) :
    Moves p (claimsOf checks) (checked me cancelled p checks) := by
  unfold checked
  split
  · exact ⟨.refl h.held, h.nodup⟩
  · next results hresults =>
    rw [claimsOf_eq_nil hresults]
    split
    · exact moves_of_drifts (.refl p) rfl
    · next f hf =>
      split
      · exact .of_moves (Reload.drifts_begin p) (moves_reloaded _ f _)
      · exact moves_mergeChanges p f f.failures

theorem moves_begin (p : Provider) : Moves p [] (begin me cancelled p) := by
  unfold begin
  split
  · exact moves_of_drifts (.refl p) rfl
  · split
    · split
      · exact moves_of_drifts (.refl p) rfl
      · next places hplaces =>
        refine moves_of_drifts (.refl p) (List.flatMap_eq_nil_iff.2 fun c hc => ?_)
        obtain ⟨place, -, rfl⟩ := List.mem_map.1 hc
        rfl
    · exact .of_moves (Reload.drifts_begin p) (moves_loaded _ _)

/-- Whatever reaches a pass that holds what it has claimed, the provider moves by marks. -/
theorem moves_handle {s : Pass} (h : Apart p s.claims) (i : Input) :
    Moves p s.claims (s.handle me cancelled p i) := by
  cases s with
  | loading r => exact .of_moves (r.drifts_handle p i) (moves_loaded _ _)
  | checking checks =>
    have hdriven (x : Provider × List Check)
        (hx : p.Moves (claimsOf checks) x.1 (claimsOf x.2) ∧ (claimsOf x.2).Nodup) :
        Moves p (claimsOf checks) (checked me cancelled x.1 x.2) :=
      .of_moves hx.1 (moves_checked ⟨hx.1.held, hx.2⟩)
    cases i with
    | resumed => exact hdriven _ (moves_startCheck h)
    | answered ticket reply => exact hdriven _ (moves_driveChecks _ h)
    | fallback serial => exact hdriven _ (moves_driveChecks _ h)
    | cancelled => exact hdriven _ (moves_driveChecks _ h)
    | woke => exact hdriven _ (moves_driveChecks _ h)
  | reloading f r => exact .of_moves (r.drifts_handle p i) (moves_reloaded _ f _)
  | merging f m => exact .of_moves (m.drifts_handle p i) (moves_merged _ f _)

theorem moves_abandon {s : Pass} (h : Apart p s.claims) : p.Moves s.claims (s.abandon me p) [] := by
  cases s with
  | loading r => exact Provider.Drifts.of_watchList rfl rfl
  | checking checks => exact moves_abandonAll h
  | reloading f r => exact Provider.Drifts.of_watchList rfl rfl
  | merging f m => exact Provider.Drifts.of_watchList rfl rfl

end Pass

/-! ## Operations of any kind -/

namespace Startup

variable {me : TaskId} {cancelled : Bool}

theorem drifts_tried (p : Provider) (deadline : Instant) (tries : Nat) (r : Stage Reload Unit) :
    p.Drifts (tried p deadline tries r).1 := by
  have hfinish (result : Except ProviderError Unit) : p.Drifts (finish p result).1 := by
    cases result <;> exact .refl p
  rcases r with r | (e | u)
  · exact .refl p
  · rw [tried]
    split
    · simp only []
      split
      · exact hfinish _
      · exact .refl p
    · exact hfinish _
  · exact hfinish _

theorem drifts_begin (p : Provider) : p.Drifts (begin me cancelled p).1 :=
  (Reload.drifts_begin p).trans (drifts_tried _ _ _ _)

theorem drifts_handle (p : Provider) (s : Startup) (i : Input) :
    p.Drifts (s.handle me cancelled p i).1 := by
  obtain ⟨deadline, tries, r | wake⟩ := s
  · exact (r.drifts_handle p i).trans (drifts_tried _ _ _ _)
  · cases i with
    | woke =>
      simp only [handle]
      split
      · exact (Reload.drifts_begin p).trans (drifts_tried _ _ _ _)
      · exact .refl p
    | answered ticket reply => exact .refl p
    | fallback serial => exact .refl p
    | cancelled => exact .refl p
    | resumed => exact .refl p

end Startup

/-- The places that the checks of a poller have claimed. -/
def Poller.claims (s : Poller) : List Nat :=
  match s.doing with
  | .passing pass => pass.claims
  | _ => []

/-- The places that the checks of an operation have claimed. -/
def Job.claims : Job → List Nat
  | .refresh s => s.claims
  | .poll s => s.claims
  | _ => []

namespace Task

variable {me : TaskId} {cancelled : Bool} {p q : Provider} {before between : List Nat}

/-- A step of an operation that has claimed some places. -/
structure Moves (p : Provider) (before : List Nat) (x : Provider × Job) : Prop where
  moves : p.Moves before x.1 x.2.claims
  nodup : x.2.claims.Nodup

theorem Moves.of_moves {x : Provider × Job} (hq : p.Moves before q between)
    (h : Moves q between x) : Moves p before x :=
  ⟨hq.trans h.moves, h.nodup⟩

/-- A step of an operation that claims nothing. -/
theorem moves_of_drifts {x : Provider × Job} (h : p.Drifts x.1) (hnone : x.2.claims = []) :
    Moves p [] x := by
  refine ⟨?_, ?_⟩
  · rw [hnone]
    exact h
  · rw [hnone]
    exact List.nodup_nil

theorem moves_ofProgress {wait : Call σ → Job} {done : Except FailoverError (α × Member) → Result}
    {x : Provider × Progress σ α} (h : p.Called x.1) (hwait : ∀ call, (wait call).claims = []) :
    Moves p [] (ofProgress wait done x) := by
  obtain ⟨q, call | r⟩ := x
  · exact moves_of_drifts h.drifts (hwait call)
  · exact moves_of_drifts h.drifts rfl

theorem moves_ofLoad {x : Startup.Step} (h : p.Drifts x.1) : Moves p [] (ofLoad x) := by
  obtain ⟨q, s | r⟩ := x
  · exact moves_of_drifts h rfl
  · exact moves_of_drifts h rfl

theorem moves_ofPass {x : Pass.Step} (h : Pass.Moves p before x) : Moves p before (ofPass x) := by
  obtain ⟨q, s | r⟩ := x
  · exact ⟨h.moves, h.nodup⟩
  · exact ⟨h.moves, h.nodup⟩

/-- A poller that passes claims what its pass claims. -/
theorem moves_passed {s : Poller} {x : Pass.Step} (h : Pass.Moves p before x) :
    Moves p before (ofPoll (Poller.passed cancelled x.1 s x.2)) := by
  obtain ⟨q, pass | r⟩ := x
  · exact ⟨h.moves, h.nodup⟩
  · cases cancelled with
    | true => exact ⟨h.moves, h.nodup⟩
    | false => exact ⟨h.moves, h.nodup⟩

theorem moves_startPass (p : Provider) (s : Poller) :
    Moves p [] (ofPoll (Poller.startPass me cancelled p s)) :=
  moves_passed (Pass.moves_begin p)

theorem moves_pollerHandle {s : Poller} (h : Pass.Apart p s.claims) (i : Input) :
    Moves p s.claims (ofPoll (s.handle me cancelled p i)) := by
  obtain ⟨period, nextTick, doing⟩ := s
  have hstay {doing : Polling} (hnone : Poller.claims ⟨period, nextTick, doing⟩ = []) :
      Moves p [] (ofPoll (p, some ⟨period, nextTick, doing⟩)) :=
    moves_of_drifts (.refl p) hnone
  cases doing with
  | idle =>
    cases i with
    | woke =>
      simp only [Poller.handle, Poller.tick]
      split
      · split
        · exact moves_of_drifts (.of_watchList rfl rfl) rfl
        · exact moves_startPass p _
      · exact hstay rfl
    | answered ticket reply => exact hstay rfl
    | fallback serial => exact hstay rfl
    | cancelled => exact moves_of_drifts (.refl p) rfl
    | resumed => exact hstay rfl
  | lookingUp => cases i <;> exact hstay rfl
  | passing pass => exact moves_passed (Pass.moves_handle h i)

theorem moves_begin (id : TaskId) (cancelled : Bool) (p : Provider) (op : Operation) :
    Moves p [] (begin id cancelled p op) := by
  cases op with
  | fetch i => exact moves_ofProgress (p.called_openCall _ _ _) fun _ => rfl
  | check i known => exact moves_ofProgress (p.called_openCall _ _ _) fun _ => rfl
  | list selectors => exact moves_ofProgress (p.called_openCall _ _ _) fun _ => rfl
  | load => exact moves_ofLoad (Startup.drifts_begin p)
  | refresh => exact moves_ofPass (Pass.moves_begin p)
  | rediscover =>
    simp only [begin]
    split
    · exact moves_of_drifts (.of_watchList rfl rfl) rfl
    · exact moves_of_drifts (.refl p) rfl
  | poll period =>
    simp only [begin]
    split
    · exact moves_of_drifts (.refl p) rfl
    · exact moves_of_drifts (.refl p) rfl

/-- **Whatever reaches an operation** that holds what it has claimed, the provider moves by
marks. -/
theorem moves_handle {t : Task} (h : Pass.Apart p t.job.claims) (i : Input) :
    Moves p t.job.claims (t.handle p i) := by
  obtain ⟨id, cancelled, job⟩ := t
  cases job with
  | fetch call => exact moves_ofProgress (p.called_drive _ _ _) fun _ => rfl
  | check call => exact moves_ofProgress (p.called_drive _ _ _) fun _ => rfl
  | list call => exact moves_ofProgress (p.called_drive _ _ _) fun _ => rfl
  | load s => exact moves_ofLoad (s.drifts_handle p i)
  | refresh s => exact moves_ofPass (Pass.moves_handle h i)
  | rediscover => exact moves_of_drifts (.refl p) rfl
  | poll s => exact moves_pollerHandle h i
  | ended result => exact moves_of_drifts (.refl p) rfl

theorem moves_lookedUp {t : Task} (h : Pass.Apart p t.job.claims) (refusals : Refusals)
    (found : Option (List Endpoint)) : Moves p t.job.claims (t.lookedUp p refusals found) := by
  obtain ⟨id, cancelled, job⟩ := t
  have hstay : Moves p job.claims (p, job) := ⟨.refl h.held, h.nodup⟩
  cases job with
  | rediscover => exact moves_of_drifts (.of_watchList rfl rfl) rfl
  | poll s =>
    obtain ⟨period, nextTick, doing⟩ := s
    cases doing with
    | idle => exact hstay
    | lookingUp =>
      have hpool : p.Drifts { p with pool := (p.pool.applyLookup refusals found p.now).1 } :=
        .of_watchList rfl rfl
      exact .of_moves hpool (moves_startPass _ _)
    | passing pass => exact hstay
  | fetch call => exact hstay
  | check call => exact hstay
  | list call => exact hstay
  | load s => exact hstay
  | refresh s => exact hstay
  | ended result => exact hstay

theorem moves_abandon {t : Task} (h : Pass.Apart p t.job.claims) :
    p.Moves t.job.claims (t.abandon p) [] := by
  obtain ⟨id, cancelled, job⟩ := t
  cases job with
  | load s => exact Provider.Drifts.of_watchList rfl rfl
  | refresh s => exact Pass.moves_abandon h
  | poll s =>
    obtain ⟨period, nextTick, doing⟩ := s
    cases doing with
    | idle => exact Provider.Drifts.refl p
    | lookingUp => exact Provider.Drifts.refl p
    | passing pass => exact Pass.moves_abandon h
  | fetch call => exact Provider.Drifts.refl p
  | check call => exact Provider.Drifts.refl p
  | list call => exact Provider.Drifts.refl p
  | rediscover => exact Provider.Drifts.refl p
  | ended result => exact Provider.Drifts.refl p

end Task

end ReplicatedConfig
