import ReplicatedConfig.Proofs.Passes.Isolation

/-!
# What a pass leaves that is dropped while it merges

A merge notes each change before it waits for the adapter of the next one, and it publishes behind
the last one.  So a pass that is dropped while it waits for an adapter leaves the changes before
that one in the entries and in the known tokens, and none of them in the snapshot
(`left_of_abandoned`).  Their tokens are those of the store then, so later checks find them
unchanged.

Nothing is left of a pass that is dropped while it waits for the lock.  Between the two lies the
first change that comes into effect: `Stock.foldl_takeOne_of_zero` says that entries stay as they
are before it.
-/

namespace ReplicatedConfig

/-! ## Changes that have been noted -/

namespace Stock

variable {pipeline : Pipeline} {st : Stock} {n : Nat} {change : PointChange}
  {changes : List PointChange}

theorem shown_takeOne : (takeOne pipeline (st, n) change).1.shown = st.shown := by
  cases change with
  | upsert place checked s =>
    rw [takeOne]
    split <;> rfl
  | remove place checked =>
    rw [takeOne]
    split
    · split <;> rfl
    · rfl

/-- Noting changes shows nothing. -/
theorem shown_foldl_takeOne (x : Stock × Nat) :
    (changes.foldl (takeOne pipeline) x).1.shown = x.1.shown := by
  induction changes generalizing x with
  | nil => rfl
  | cons change rest ih => exact (ih _).trans shown_takeOne

/-- A change that does not count leaves the entries alone. -/
theorem materialized_takeOne (h : (takeOne pipeline (st, n) change).2 = n) :
    (takeOne pipeline (st, n) change).1.materialized = st.materialized := by
  cases change with
  | upsert place checked s =>
    rw [takeOne] at h ⊢
    cases hpairs : pipeline.process s with
    | ok pairs =>
      simp only [hpairs] at h
      exact absurd h (Nat.succ_ne_self n)
    | error e => rfl
  | remove place checked =>
    rw [takeOne] at h ⊢
    cases hknown : st.known[place]? with
    | none => rfl
    | some k =>
      simp only [hknown] at h ⊢
      split at h
      · exact absurd h (Nat.succ_ne_self n)
      · next hnone => rw [if_neg hnone]; rfl

/-- Before the first change that counts, the entries are what they were. -/
theorem foldl_takeOne_of_zero (x : Stock × Nat)
    (h : (changes.foldl (takeOne pipeline) x).2 = x.2) :
    (changes.foldl (takeOne pipeline) x).1.materialized = x.1.materialized := by
  induction changes generalizing x with
  | nil => rfl
  | cons change rest ih =>
    rw [List.foldl_cons] at h ⊢
    have hle : x.2 ≤ (takeOne pipeline x change).2 := le_takeOne
    have hle' : (takeOne pipeline x change).2 ≤ x.2 :=
      Nat.le_trans (le_foldl_takeOne _) (Nat.le_of_eq h)
    have hone : (takeOne pipeline x change).2 = x.2 := Nat.le_antisymm hle' hle
    rw [ih _ (h.trans hone.symm)]
    exact materialized_takeOne hone

end Stock

/-- The changes that a merge has still to take in; the one whose adapter it waits for is the first
of them. -/
inductive Merge.Awaits : Merge → List PointChange → Prop where
  | waiting (changes : List PointChange) (fs : List ProviderError) :
      Awaits (.waiting changes fs) changes
  | adapting (place : Nat) (checked : Option Token) (s : Setting) (rest : List PointChange)
      (merged : Nat) (fs : List ProviderError) :
      Awaits (.adapting place s rest merged fs) (.upsert place checked s :: rest)

namespace Pass

variable {base p q : Provider} {me : TaskId} {g : Given} {f : Findings} {m : Merge}

/-- What has been taken in where a merge stands. -/
theorem taken_of_stands {changes : List PointChange} (h : (taking base changes me).Stands p m) :
    ∃ done todo, changes = done ++ todo ∧ m.Awaits todo ∧
      (∀ changes fs, m = .waiting changes fs → done = []) ∧
      ∃ n, (p.stock, n) = done.foldl (Stock.takeOne base.pipeline) (base.stock, 0) := by
  cases m with
  | waiting rest fs =>
    obtain ⟨rfl, htaking⟩ := h
    obtain ⟨done, hchanges, hdone⟩ := htaking.taken
    have hnil : done = [] := List.self_eq_append_left.1 hchanges
    exact ⟨done, rest, hchanges, .waiting rest fs, fun _ _ _ => hnil, 0, hdone⟩
  | adapting place s rest merged fs =>
    obtain ⟨checked, htaking⟩ := h
    obtain ⟨done, hchanges, hdone⟩ := htaking.taken
    exact ⟨done, _, hchanges, .adapting place checked s rest merged fs, nofun, merged, hdone⟩

/-- A key whose change has been noted has the token of its setting. -/
theorem Given.Collects.tokenAt_of_noted (h : g.Collects base f) {done todo : List PointChange}
    (hchanges : g.changes = done ++ todo)
    (hstock : q.stock = (done.foldl (Stock.takeOne base.pipeline) (base.stock, 0)).1) {place : Nat}
    {checked : Option Token} {s : Setting} {pairs : List Pair}
    (hmem : .upsert place checked s ∈ done) (hpairs : base.pipeline.process s = .ok pairs) :
    q.tokenAt place = some s.token := by
  have hplaces : (done.map (·.place)).Nodup := by
    have hall := h.nodup_places
    rw [hchanges, List.map_append] at hall
    exact hall.of_append_left
  have hchange : .upsert place checked s ∈ g.changes := by
    rw [hchanges]
    exact List.mem_append_left todo hmem
  have hknown := (Stock.foldl_takeOne_of_mem hplaces hmem hpairs (base.stock, 0)).2
  rw [← hstock] at hknown
  exact Provider.tokenAt_of_stock (h.place_lt_size hchange) hknown

/-- **What a pass leaves that is dropped while it merges**, whatever has happened elsewhere since
its last step.  The changes before the one that it waits for are noted, and nothing is shown: the
snapshot shows what is loaded only if these changes make no difference to it.  A later check of a
key whose change has been noted finds it unchanged, as long as the store has what was noted. -/
theorem left_of_abandoned (loaded : base.loaded = true)
    (course : Course me base g (p, .running (.merging f m))) (moved : p.SameLoaded q) :
    ∃ done todo, g.changes = done ++ todo ∧ m.Awaits todo ∧
      (∀ changes fs, m = .waiting changes fs → done = []) ∧
      let left := abandon me q (.merging f m)
      let noted := done.foldl (Stock.takeOne base.pipeline) (base.stock, 0)
      left.stock = noted.1 ∧ left.publisher.current.values = base.publisher.current.values ∧
      (noted.2 = 0 → left.materialized = base.materialized) ∧
      (base.publisher.current.values = base.materialized.values →
        (left.publisher.current.values = left.materialized.values ↔
          noted.1.materialized.values = base.materialized.values)) ∧
      ∀ place checked s pairs, .upsert place checked s ∈ done → base.pipeline.process s = .ok pairs →
        left.tokenAt place = some s.token ∧
        ∀ (c : Contents) (answers : Replies) (i : Identity) (v : Verdict), c.Serves answers →
          c.find? i = some s → answers.Judges i (left.tokenAt place) v → v = .unchanged := by
  obtain ⟨-, hcollects, hstands⟩ := (yields_of_course loaded course).follows
  obtain ⟨done, todo, hchanges, hawaits, hwaiting, n, htaken⟩ := taken_of_stands hstands
  have hleft : (abandon me q (.merging f m)).stock =
      (done.foldl (Stock.takeOne base.pipeline) (base.stock, 0)).1 := by
    rw [← htaken]
    exact moved.stock
  have hshown : (abandon me q (.merging f m)).publisher.current.values =
      base.publisher.current.values :=
    (congrArg Stock.shown hleft).trans (Stock.shown_foldl_takeOne _)
  have hentries := congrArg Stock.materialized hleft
  refine ⟨done, todo, hchanges, hawaits, hwaiting, hleft, hshown, fun hnone => ?_, fun hbase => ?_,
    fun place checked s pairs hmem hpairs => ?_⟩
  · exact hentries.trans (Stock.foldl_takeOne_of_zero (base.stock, 0) hnone)
  · rw [hshown, hbase, show (abandon me q (.merging f m)).materialized = _ from hentries]
    exact eq_comm
  · have htoken : (abandon me q (.merging f m)).tokenAt place = some s.token :=
      hcollects.tokenAt_of_noted hchanges hleft hmem hpairs
    refine ⟨htoken, fun c answers i v serves hs judged => ?_⟩
    rw [htoken] at judged
    rw [serves.judges judged]
    exact Contents.verdict_eq_unchanged_iff.2 ⟨s, hs, rfl⟩

/-- Color and shape have changed, and the pass goes on until it waits for the adapter of the
shape. -/
def throughColor : List Input :=
  [.resumed, .resumed, .resumed, .answered ⟨1, 0, 0⟩ (.ok (.verdict .modified)),
    .answered ⟨4, 0, 0⟩ (.ok (.setting (some ⟨"Color", none, some "red", none, ⟨"2"⟩⟩))),
    .answered ⟨2, 0, 0⟩ (.ok (.verdict .modified)),
    .answered ⟨5, 0, 0⟩ (.ok (.setting (some ⟨"Shape", none, some "square", none, ⟨"2"⟩⟩))),
    .answered ⟨3, 0, 0⟩ (.ok (.verdict .unchanged)), .resumed]

/-- How far the pass has come then. -/
def betweenBoth : Given × Step := follow 1 throughColor (.nothing, begin 1 false sentinelDue)

/-- Whether a pass waits for the adapter of the change at a place. -/
def isAdapting (place : Nat) : Step → Bool
  | (_, .running (.merging _ (.adapting other _ _ _ _))) => other == place
  | _ => false

theorem exists_of_isAdapting {place : Nat} {x : Step} (h : isAdapting place x = true) :
    ∃ f s rest merged fs, x = (x.1, .running (.merging f (.adapting place s rest merged fs))) := by
  unfold isAdapting at h
  split at h
  · cases eq_of_beq h
    exact ⟨_, _, _, _, _, rfl⟩
  · cases h

/-- A pass that is dropped between the two leaves the new color in the entries and the old one in
the snapshot, and no check of the color finds a change. -/
theorem left_of_betweenBoth :
    ∃ f m, Course 1 sentinelDue betweenBoth.1 (betweenBoth.2.1, .running (.merging f m)) ∧
      let left := abandon 1 betweenBoth.2.1 (.merging f m)
      left.lock = .free ∧ left.publisher.current.values = sentinelDue.publisher.current.values ∧
      left.publisher.current.values.get? "Color" = some "blue" ∧
      left.materialized.values.get? "Color" = some "red" ∧ left.tokenAt 0 = some ⟨"2"⟩ ∧
      ∀ (c : Contents) (answers : Replies) (v : Verdict), c.Serves answers →
        c.find? ⟨"Color", none⟩ = some ⟨"Color", none, some "red", none, ⟨"2"⟩⟩ →
        answers.Judges ⟨"Color", none⟩ (left.tokenAt 0) v → v = .unchanged := by
  have hcourse : Course 1 sentinelDue betweenBoth.1 betweenBoth.2 :=
    course_follow (.start false) throughColor
  obtain ⟨f, s, rest, merged, fs, hstands⟩ : ∃ f s rest merged fs, betweenBoth.2 =
      (betweenBoth.2.1, .running (.merging f (.adapting 1 s rest merged fs))) :=
    exists_of_isAdapting (by decide +kernel)
  rw [hstands] at hcourse
  have hmoved : betweenBoth.2.1.SameLoaded betweenBoth.2.1 := (Provider.Undisturbed.refl _).sameLoaded
  obtain ⟨done, todo, hchanges, hawaits, -, -, hshown, -, -, hnoted⟩ :=
    left_of_abandoned (by decide +kernel) hcourse hmoved
  have hcolor : .upsert 0 (some ⟨"1"⟩) ⟨"Color", none, some "red", none, ⟨"2"⟩⟩ ∈ done := by
    have hboth : betweenBoth.1.changes =
        [.upsert 0 (some ⟨"1"⟩) ⟨"Color", none, some "red", none, ⟨"2"⟩⟩,
          .upsert 1 (some ⟨"1"⟩) ⟨"Shape", none, some "square", none, ⟨"2"⟩⟩] := by decide +kernel
    cases hawaits
    rw [hboth] at hchanges
    cases done with
    | nil => cases hchanges
    | cons first others =>
      rw [(List.cons.inj hchanges).1]
      exact List.mem_cons_self
  obtain ⟨htoken, hunchanged⟩ := hnoted 0 _ _ [("Color", "red")] hcolor (by decide +kernel)
  refine ⟨f, _, hcourse, ?_, hshown, ?_, ?_, htoken, fun c answers v serves hs judged =>
    hunchanged c answers _ v serves hs judged⟩
  · show (betweenBoth.2.1.release 1).lock = .free
    decide +kernel
  · rw [hshown]
    decide +kernel
  · show (betweenBoth.2.1.release 1).materialized.values.get? "Color" = some "red"
    decide +kernel

end Pass
end ReplicatedConfig
