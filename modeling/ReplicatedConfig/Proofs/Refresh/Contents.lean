import ReplicatedConfig.Proofs.Refresh.Loading

/-!
# Loading from a store that does not change

`Contents` is what a store holds: one setting at most under a name, and for each selector
the chosen settings in an order that is the store's own.  Replies are served from it
(`Serves`) if a read gives the setting under the name, a check compares with its token, and
the pages of a selector, put together from the first to the last, are its listing.  How a
listing is cut into pages may differ from replica to replica, and requests may fail as they
like; only that a store says of a setting it holds that it is not there is excluded.

Against such replies a reload has no choice.  `remaining_append` is the reason for listings:
what an attempt has collected and what its remaining pages will bring make up the whole
listing at every moment.
-/

namespace ReplicatedConfig

/-- What a store holds. -/
structure Contents where
  find? : Identity → Option Setting
  /-- The settings that a selector chooses, in the order in which they are listed. -/
  listing : Selector → List Setting
  identity_of_find? : ∀ {i s}, find? i = some s → s.identity = i
  mem_listing : ∀ {sel s}, s ∈ listing sel ↔ find? s.identity = some s ∧ sel.selects s = true

namespace Contents

/-- What is said of a known token. -/
def verdict (c : Contents) (i : Identity) (known : Option Token) : Verdict :=
  match c.find? i with
  | none => .missing
  | some s => if known = some s.token then .unchanged else .modified

/-- The settings that selectors choose, in the order of the selectors. -/
def listed (c : Contents) (selectors : List Selector) : List Setting :=
  selectors.flatMap c.listing

/-- What is left of a listing at a place in its pages. -/
def remaining (c : Contents) (rest : Selector → Option String → List Setting) (l : Listing) :
    List Setting :=
  match l.selectors with
  | [] => []
  | s :: selectors => rest s l.continuation ++ c.listed selectors

/-- Replies come from these contents. -/
structure Serves (c : Contents) (answers : Replies) : Prop where
  fetch : ∀ {m i o}, answers m (.fetch i) (.ok (.setting o)) → o = c.find? i
  check : ∀ {m i known v}, answers m (.check i known) (.ok (.verdict v)) → v = c.verdict i known
  missing : ∀ {m i e}, answers m (.fetch i) (.error e) → e.failureClass = .notFound →
    c.find? i = none
  unknown : ∀ {m i known e}, answers m (.check i known) (.error e) →
    e.failureClass = .notFound → c.find? i = none
  /-- For each member there is a way to cut listings into pages: what a continuation stands
  for is the rest of the listing. -/
  pages : ∀ id, ∃ rest : Selector → Option String → List Setting,
    (∀ s, rest s none = c.listing s) ∧
      ∀ {m s continuation p}, m.id = id → answers m (.page s continuation) (.ok (.page p)) →
        rest s continuation = p.items ++
          match p.continuation with
          | none => []
          | some t => rest s (some t)

variable {c : Contents} {answers : Replies}

section Verdict

variable {i : Identity} {known : Option Token}

theorem verdict_eq_missing_iff : c.verdict i known = .missing ↔ c.find? i = none := by
  unfold verdict
  cases c.find? i with
  | none => simp
  | some s => by_cases h : known = some s.token <;> simp [h]

theorem verdict_eq_unchanged_iff :
    c.verdict i known = .unchanged ↔ ∃ s, c.find? i = some s ∧ known = some s.token := by
  unfold verdict
  cases c.find? i with
  | none => simp
  | some s => by_cases h : known = some s.token <;> simp [h]

theorem verdict_eq_modified_iff :
    c.verdict i known = .modified ↔ ∃ s, c.find? i = some s ∧ known ≠ some s.token := by
  unfold verdict
  cases c.find? i with
  | none => simp
  | some s => by_cases h : known = some s.token <;> simp [h]

end Verdict

theorem Serves.reads (h : c.Serves answers) {i : Identity} {o : Option Setting}
    (ho : answers.Reads i o) : o = c.find? i := by
  rcases ho with ⟨m, hm⟩ | ⟨rfl, m, e, hm, he⟩
  · exact h.fetch hm
  · exact (h.missing hm he).symm

theorem Serves.judges (h : c.Serves answers) {i : Identity} {known : Option Token} {v : Verdict}
    (hv : answers.Judges i known v) : v = c.verdict i known := by
  rcases hv with ⟨m, hm⟩ | ⟨rfl, m, e, hm, he⟩
  · exact h.check hm
  · rw [verdict, h.unknown hm he]

/-- What has been collected and what is left make up the whole listing. -/
theorem remaining_append {id : Nat} {selectors : List Selector}
    {rest : Selector → Option String → List Setting} (hfirst : ∀ s, rest s none = c.listing s)
    (hpages : ∀ {m : Member} {s continuation p}, m.id = id →
      answers m (.page s continuation) (.ok (.page p)) →
      rest s continuation = p.items ++
        match p.continuation with
        | none => []
        | some t => rest s (some t))
    {l : Listing} (h : answers.Lists id selectors l) :
    l.collected ++ c.remaining rest l = c.listed selectors := by
  -- A selector that is listed from its first page on has its whole listing left.
  have hstart (ss : List Selector) : (match ss with
      | [] => []
      | s :: ss => rest s none ++ c.listed ss) = c.listed ss := by
    cases ss with
    | nil => rfl
    | cons s ss =>
      simp only [hfirst]
      rw [listed, listed, List.flatMap_cons]
  induction h with
  | start => exact hstart selectors
  | @page l m s p before asked here answer ih =>
    cases hs : l.selectors with
    | nil =>
      rw [hs] at asked
      cases asked
    | cons t ss =>
      rw [hs] at asked
      cases asked
      rw [remaining, hs] at ih
      simp only [hpages here answer] at ih
      rw [← ih, Listing.receive, remaining]
      cases hp : p.continuation with
      | none =>
        simp only [hs, Option.isSome_none, Bool.false_eq_true, if_false, List.drop_one,
          List.tail_cons, List.append_nil, List.append_assoc]
        rw [hstart]
      | some text => simp only [hs, Option.isSome_some, if_true, List.append_assoc]

/-- **A listing brings what the selectors choose**, in their order. -/
theorem Serves.brings (h : c.Serves answers) {selectors : List Selector} {raw : List Setting}
    (hraw : answers.Brings selectors raw) : raw = c.listed selectors := by
  obtain ⟨id, l, hl, hdone, rfl⟩ := hraw
  obtain ⟨rest, hfirst, hpages⟩ := h.pages id
  have hall := remaining_append hfirst hpages hl
  rw [Listing.isDone, List.isEmpty_iff] at hdone
  rwa [remaining, hdone, List.append_nil] at hall

theorem mem_listed {selectors : List Selector} {s : Setting} :
    s ∈ c.listed selectors ↔
      c.find? s.identity = some s ∧ ∃ sel ∈ selectors, sel.selects s = true := by
  simp only [listed, List.mem_flatMap, c.mem_listing]
  exact ⟨fun ⟨sel, hsel, hs, hselects⟩ => ⟨hs, sel, hsel, hselects⟩,
    fun ⟨hs, sel, hsel, hselects⟩ => ⟨sel, hsel, hs, hselects⟩⟩

/-! ## Contents given by a list -/

/-- The contents that a list of settings makes up, listed in its order. -/
def ofSettings (settings : List Setting) (nodup : (Reload.namesOf settings).Nodup) : Contents where
  find? i := settings.find? (·.identity = i)
  listing sel := settings.filter sel.selects
  identity_of_find? h := by simpa using List.find?_some h
  mem_listing := by
    intro sel s
    rw [List.mem_filter]
    exact and_congr_left fun _ => ⟨fun hs => find?_of_nodup nodup hs, List.mem_of_find?_eq_some⟩

/-- The replies of a store that works, with a listing on one page. -/
def reply (c : Contents) : Request → Reply
  | .fetch i => .setting (c.find? i)
  | .check i known => .verdict (c.verdict i known)
  | .page sel _ => .page ⟨c.listing sel, none⟩

/-- Every request is answered from the contents. -/
def replies (c : Contents) : Replies := fun _ request reply => reply = .ok (c.reply request)

/-- A store that works serves its contents. -/
theorem serves_replies (c : Contents) : c.Serves c.replies where
  fetch h := by cases h; rfl
  check h := by cases h; rfl
  missing h := by cases h
  unknown h := by cases h
  pages _ :=
    ⟨fun s _ => c.listing s, fun _ => rfl, fun _ h => by cases h; exact (List.append_nil _).symm⟩

/-- What a store that works tells an operation: the reply to its request, if it waits for
one only. -/
def turn (c : Contents) (waits : List Wait) : Input :=
  match waits.filterMap fun | .reply o => some o | _ => none with
  | [o] => .answered o.ticket (.ok (c.reply o.request))
  | _ => .resumed

theorem admitted_turn (c : Contents) (waits : List Wait) :
    (c.turn waits).Admitted c.replies waits := by
  unfold turn
  split
  · next o h =>
    intro o' ho' hticket
    have hmem : o' ∈ waits.filterMap fun | .reply o => some o | _ => none :=
      List.mem_filterMap.2 ⟨.reply o', ho', rfl⟩
    rw [h, List.mem_singleton] at hmem
    rw [hmem]
    rfl
  · trivial

end Contents
end ReplicatedConfig
