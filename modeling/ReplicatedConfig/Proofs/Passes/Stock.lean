import ReplicatedConfig.Proofs.History.UpToDate

/-!
# What changes make of what is held

Merging changes is a matter of what is loaded, known and shown, and of nothing else that a
provider has.  `Stock` is that part of a provider, and `Stock.take` what a list of changes makes of
it, without a word about locks, adapters that are waited for, and other operations.

A merge does the same step by step (`taking`), as long as its changes are about different keys and
each was found against the token that is known: then none of them is out of date when its turn
comes.  A reload that succeeds replaces the stock (`stock_commit`).
-/

namespace ReplicatedConfig

/-! ## What a provider holds and shows -/

/-- The loaded entries, the names of the watched keys with the known tokens, and the published
values. -/
structure Stock where
  materialized : Materialized
  known : List (Identity × Option Token)
  shown : Values

def Provider.stock (p : Provider) : Stock :=
  ⟨p.materialized, p.watchList.known, p.publisher.current.values⟩

namespace Stock

/-- A token is noted for the key at a place. -/
def note (s : Stock) (place : Nat) (token : Option Token) : Stock :=
  { s with known := s.known.modify place fun k => (k.1, token) }

/-- A change is taken in, unless an adapter refuses it.  The number counts the changes that have
come into effect. -/
def takeOne (pipeline : Pipeline) : Stock × Nat → PointChange → Stock × Nat
  | (st, n), .upsert place _ s =>
    match pipeline.process s with
    | .ok pairs =>
      ({ st.note place (some s.token) with materialized := st.materialized.upsert ⟨s, pairs⟩ }, n + 1)
    | .error _ => (st, n)
  | (st, n), .remove place _ =>
    match st.known[place]? with
    | some (i, _) =>
      if (st.materialized.find? i).isSome then
        ({ st.note place none with materialized := st.materialized.remove i }, n + 1)
      else (st.note place none, n)
    | none => (st.note place none, n)

/-- Changes are taken in one after the other and shown, if anything has come of them. -/
def take (pipeline : Pipeline) (st : Stock) (changes : List PointChange) : Stock :=
  let (st, n) := changes.foldl (takeOne pipeline) (st, 0)
  if n = 0 then st else { st with shown := st.materialized.values }

/-- Everything is replaced by entries that have been loaded. -/
def replace (st : Stock) (entries : List Entry) : Stock where
  materialized := ⟨entries⟩
  known := st.known.map fun k => (k.1, (Materialized.mk entries).tokenOf k.1)
  shown := (Materialized.mk entries).values

variable {pipeline : Pipeline} {st : Stock} {n : Nat} {change : PointChange}
  {changes : List PointChange} {place : Nat}

theorem known_note_of_ne {other : Nat} (h : place ≠ other) (token : Option Token) :
    (st.note place token).known[other]? = st.known[other]? := by
  simp only [note, List.getElem?_modify, if_neg h]
  cases st.known[other]? <;> rfl

/-- Taking in a change does not touch the tokens of other keys. -/
theorem known_takeOne_of_ne (h : change.place ≠ place) :
    (takeOne pipeline (st, n) change).1.known[place]? = st.known[place]? := by
  cases change with
  | upsert place' checked s =>
    rw [takeOne]
    split
    · exact known_note_of_ne h _
    · rfl
  | remove place' checked =>
    rw [takeOne]
    split
    · split <;> exact known_note_of_ne h none
    · exact known_note_of_ne h none

theorem le_takeOne : n ≤ (takeOne pipeline (st, n) change).2 := by
  cases change with
  | upsert place' checked s =>
    rw [takeOne]
    split
    · exact Nat.le_succ n
    · exact Nat.le_refl n
  | remove place' checked =>
    rw [takeOne]
    split
    · split
      · exact Nat.le_succ n
      · exact Nat.le_refl n
    · exact Nat.le_refl n

theorem le_foldl_takeOne (x : Stock × Nat) : x.2 ≤ (changes.foldl (takeOne pipeline) x).2 := by
  induction changes generalizing x with
  | nil => exact Nat.le_refl _
  | cons change rest ih => exact Nat.le_trans le_takeOne (ih _)

theorem known_foldl_takeOne_of_notMem (h : place ∉ changes.map (·.place)) (x : Stock × Nat) :
    (changes.foldl (takeOne pipeline) x).1.known[place]? = x.1.known[place]? := by
  induction changes generalizing x with
  | nil => rfl
  | cons change rest ih =>
    rw [List.map_cons, List.mem_cons, not_or] at h
    rw [List.foldl_cons, ih h.2]
    exact known_takeOne_of_ne (Ne.symm h.1)

section Accepted

variable {checked : Option Token} {s : Setting} {pairs : List Pair}

/-- A change that no adapter refuses comes into effect, and its key has its token. -/
theorem foldl_takeOne_of_mem (hplaces : (changes.map (·.place)).Nodup)
    (hmem : .upsert place checked s ∈ changes) (hpairs : pipeline.process s = .ok pairs)
    (x : Stock × Nat) : x.2 < (changes.foldl (takeOne pipeline) x).2 ∧
      (changes.foldl (takeOne pipeline) x).1.known[place]? =
        (x.1.known[place]?).map fun k => (k.1, some s.token) := by
  induction changes generalizing x with
  | nil => exact absurd hmem List.not_mem_nil
  | cons change rest ih =>
    rw [List.map_cons, List.nodup_cons] at hplaces
    rw [List.foldl_cons]
    rcases List.mem_cons.1 hmem with rfl | hmem
    · have hplace : place ∉ rest.map (·.place) := hplaces.1
      have hone : takeOne pipeline x (.upsert place checked s) = ({ x.1.note place (some s.token)
          with materialized := x.1.materialized.upsert ⟨s, pairs⟩ }, x.2 + 1) := by
        rw [takeOne, hpairs]
      have hcount : x.2 < (takeOne pipeline x (.upsert place checked s)).2 := by
        rw [hone]
        exact Nat.lt_succ_self _
      refine ⟨Nat.lt_of_lt_of_le hcount (le_foldl_takeOne _), ?_⟩
      rw [known_foldl_takeOne_of_notMem hplace, hone]
      show (x.1.known.modify place _)[place]? = _
      rw [List.getElem?_modify_eq]
      rfl
    · have hne : change.place ≠ place := fun heq =>
        hplaces.1 (heq ▸ List.mem_map.2 ⟨_, hmem, rfl⟩)
      obtain ⟨hlt, hknown⟩ := ih hplaces.2 hmem (takeOne pipeline x change)
      rw [known_takeOne_of_ne hne] at hknown
      exact ⟨Nat.lt_of_le_of_lt le_takeOne hlt, hknown⟩

/-- Where something has come into effect, what is held is shown. -/
theorem take_of_mem (hplaces : (changes.map (·.place)).Nodup)
    (hmem : .upsert place checked s ∈ changes) (hpairs : pipeline.process s = .ok pairs) :
    (st.take pipeline changes).known[place]? =
        (st.known[place]?).map (fun k => (k.1, some s.token)) ∧
      (st.take pipeline changes).shown = (st.take pipeline changes).materialized.values := by
  obtain ⟨hlt, hknown⟩ := foldl_takeOne_of_mem hplaces hmem hpairs (st, 0)
  have htake : st.take pipeline changes = { (changes.foldl (takeOne pipeline) (st, 0)).1 with
      shown := (changes.foldl (takeOne pipeline) (st, 0)).1.materialized.values } :=
    if_neg (Nat.ne_of_gt hlt)
  rw [htake]
  exact ⟨hknown, rfl⟩

end Accepted

end Stock

namespace WatchList

theorem known_setToken (l : WatchList) (place : Nat) (token : Option Token) :
    (l.setToken place token).known = l.known.modify place fun k => (k.1, token) := by
  refine List.ext_getElem? fun i => ?_
  rw [known, known, List.getElem?_map, List.getElem?_modify, List.getElem?_map]
  show ((l.setToken place token).get? i).map _ = _
  rw [setToken, get?_modify]
  show _ = _ <$> (l.get? i).map _
  split <;> cases l.get? i <;> rfl

theorem getElem?_known (l : WatchList) (place : Nat) :
    l.known[place]? = (l.get? place).map fun w => (w.identity, w.token) :=
  List.getElem?_map

end WatchList

namespace Provider

variable {p q : Provider}

theorem SameLoaded.stock (h : p.SameLoaded q) : q.stock = p.stock := by
  rw [Provider.stock, Provider.stock, h.materialized, h.current, WatchList.known_of_facts h.facts]

theorem SameLoaded.tokenAt (h : p.SameLoaded q) (place : Nat) : q.tokenAt place = p.tokenAt place :=
  tokenAt_of_known (WatchList.known_of_facts h.facts) place

theorem Called.sameLoaded (h : p.Called q) : p.SameLoaded q :=
  (h.checked : p.Checked [] q).sameLoaded

theorem stock_setToken (p : Provider) (place : Nat) (token : Option Token) :
    (p.setToken place token).stock = p.stock.note place token := by
  rw [stock, setToken, WatchList.known_setToken]
  rfl

theorem stock_withoutSetting (p : Provider) (place : Nat) (i : Identity) :
    (p.withoutSetting place i).stock =
      { p.stock.note place none with materialized := p.materialized.remove i } := by
  rw [← stock_setToken]
  rfl

theorem stock_withEntry (p : Provider) (place : Nat) (e : Entry) :
    (p.withEntry place e).stock =
      { p.stock.note place (some e.setting.token) with materialized := p.materialized.upsert e } := by
  rw [← stock_setToken]
  rfl

/-- The token of a key is part of the stock. -/
theorem tokenAt_of_stock {place : Nat} {token : Option Token} (hplace : place < p.watchList.size)
    (h : q.stock.known[place]? = (p.stock.known[place]?).map fun k => (k.1, token)) :
    q.tokenAt place = token := by
  have hlength : place < p.stock.known.length := by
    show place < (p.watchList.watches.map _).length
    rwa [List.length_map]
  rw [List.getElem?_eq_getElem hlength] at h
  rw [tokenAt, WatchList.bind_token_get?]
  show (q.stock.known[place]?).bind _ = _
  rw [h]
  rfl

/-- A commit replaces everything. -/
theorem stock_commit (me : TaskId) (p : Provider) (entries : List Entry) :
    (Reload.commit me p p.watchList.identities.length entries).1.stock = p.stock.replace entries := by
  have hknown : (Reload.commit me p p.watchList.identities.length entries).1.watchList.known =
      p.watchList.known.map fun k => (k.1, (Materialized.mk entries).tokenOf k.1) := by
    have hof (l : WatchList) : l.known = l.facts.map fun f => (f.1, f.2.2) := by
      rw [WatchList.facts, List.map_map]
      rfl
    rw [hof, hof, Reload.facts_commit, List.map_map, List.map_map]
    rfl
  rw [stock, hknown, Reload.values_commit]
  rfl

end Provider

variable {base p q : Provider}

/-! ## Merging -/

/-- While changes are merged, those that are not still to come have been taken into the stock at
the beginning, and nothing has been shown yet. -/
structure Taking (base : Provider) (changes : List PointChange) (p : Provider) (n : Nat)
    (rest : List PointChange) : Prop where
  pipeline : p.pipeline = base.pipeline
  places : (rest.map (·.place)).Nodup
  current : ∀ change ∈ rest, p.tokenAt change.place = change.checked
  taken : ∃ done, changes = done ++ rest ∧
    (p.stock, n) = done.foldl (Stock.takeOne base.pipeline) (base.stock, 0)

namespace Taking

variable {changes rest : List PointChange} {change : PointChange} {n n' : Nat}

/-- The first change has been taken in. -/
theorem tail (h : Taking base changes p n (change :: rest)) (pipeline : q.pipeline = p.pipeline)
    (tokens : ∀ other, change.place ≠ other → q.tokenAt other = p.tokenAt other)
    (one : (q.stock, n') = Stock.takeOne p.pipeline (p.stock, n) change) :
    Taking base changes q n' rest := by
  have hplaces := h.places
  rw [List.map_cons, List.nodup_cons] at hplaces
  refine ⟨pipeline.trans h.pipeline, hplaces.2, fun other hother => ?_, ?_⟩
  · rw [tokens other.place fun heq => hplaces.1 (heq ▸ List.mem_map_of_mem hother)]
    exact h.current other (List.mem_cons_of_mem _ hother)
  · obtain ⟨done, hchanges, hdone⟩ := h.taken
    refine ⟨done ++ [change], by rw [hchanges, List.append_assoc, List.singleton_append], ?_⟩
    rw [List.foldl_append, ← hdone, one, h.pipeline]
    rfl

theorem of_sameLoaded (h : Taking base changes p n rest) (hq : p.SameLoaded q) :
    Taking base changes q n rest where
  pipeline := hq.pipeline.trans h.pipeline
  places := h.places
  current change hchange := (hq.tokenAt _).trans (h.current change hchange)
  taken := by
    rw [hq.stock]
    exact h.taken

/-- With no change left, all of them have been taken in. -/
theorem all (h : Taking base changes p n []) :
    (p.stock, n) = changes.foldl (Stock.takeOne base.pipeline) (base.stock, 0) := by
  obtain ⟨done, rfl, hdone⟩ := h.taken
  rw [List.append_nil, hdone]

end Taking

/-- What lasts through the merge of a pass. -/
def taking (base : Provider) (changes : List PointChange) (me : TaskId) : Merge.Lasting me where
  before p _ rest := rest = changes ∧ Taking base changes p 0 rest
  after p n _ rest := Taking base changes p n rest
  enters h _ := h.2
  stale h hstale := absurd (h.current _ List.mem_cons_self) hstale
  absent := by
    intro p n fs place checked rest h _ habsent
    refine h.tail rfl (fun other hne => p.tokenAt_setToken hne none) ?_
    rw [Provider.stock_setToken, Stock.takeOne]
    simp only [Provider.stock, WatchList.getElem?_known]
    cases hw : p.watchList.get? place with
    | none => rfl
    | some w =>
      simp only [Option.map_some, habsent w hw]
      rfl
  removed := by
    intro p n fs place checked rest w h _ hw hthere
    refine h.tail rfl (fun other hne => p.tokenAt_setToken hne none) ?_
    rw [Provider.stock_withoutSetting, Stock.takeOne]
    simp only [Provider.stock, WatchList.getElem?_known, hw, Option.map_some,
      Option.isSome_iff_ne_none.2 hthere, if_true]
  upserted := by
    intro p n fs place checked s rest pairs h hpairs
    refine h.tail rfl (fun other hne => p.tokenAt_setToken hne _) ?_
    rw [Provider.stock_withEntry, Stock.takeOne, hpairs]
    rfl
  refused := by
    intro p n fs place checked s rest e h he
    refine h.tail rfl (fun _ _ => rfl) ?_
    rw [Stock.takeOne, he]

end ReplicatedConfig
