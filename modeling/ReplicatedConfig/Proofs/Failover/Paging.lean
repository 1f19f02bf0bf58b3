import ReplicatedConfig.Failover.Conversation

/-!
# Readings

A listing asks for one page after the other, and its state is a few fields that each page
updates.  A `Reading` says the same by what has been heard: all pages of each selector that has
been listed, and the pages that there are of the next one.

## What a reading determines

* `Reading.said` --- the requests with their pages, in order: every selector begins without a
  continuation, and goes on with the continuation of its page before (`turns`);
* `Reading.next?` --- the request that comes next;
* `Reading.items` --- the settings, selector by selector and page by page.

None of the three refers to the listing.  That a listing keeps to them is
`listing_receive`, `said_receive` and `ask_listing`: each page takes the listing of one reading
to that of the next, in answer to the request that was due.
-/

namespace ReplicatedConfig

/-- What has been heard in a listing: all pages of the first selectors, and the pages so far of
the one behind them. -/
structure Reading where
  whole : List (List Page)
  current : List Page

namespace Reading

/-! ## What a reading determines -/

/-- Where the page behind some pages starts. -/
def continuationOf (pages : List Page) (start : Option String) : Option String :=
  pages.getLast?.elim start (·.continuation)

/-- The requests for pages of one selector, each with its page.  The first one begins at
`start`, and every other one where the page before it says. -/
def turns (s : Selector) : Option String → List Page → List (Request × Except StoreError Page)
  | _, [] => []
  | start, p :: rest => (.page s start, .ok p) :: turns s p.continuation rest

/-- Whether these are all pages of a selector: none but the last one is the last one. -/
def IsWhole (pages : List Page) : Prop :=
  ∃ front last, pages = front ++ [last] ∧ (∀ p ∈ front, p.continuation ≠ none) ∧
    last.continuation = none

/-- Nothing heard yet. -/
def empty : Reading := ⟨[], []⟩

/-- Whether a reading is one of these selectors. -/
structure Fits (selectors : List Selector) (r : Reading) : Prop where
  whole : ∀ pages ∈ r.whole, IsWhole pages
  current : ∀ p ∈ r.current, p.continuation ≠ none
  within : r.whole.length ≤ selectors.length

/-- Whether there is nothing more to ask for. -/
structure IsComplete (selectors : List Selector) (r : Reading) : Prop where
  whole : r.whole.length = selectors.length
  current : r.current = []

/-- The requests that have been made, with what they have brought. -/
def said (selectors : List Selector) (r : Reading) : List (Request × Except StoreError Page) :=
  (selectors.zip r.whole).flatMap (fun (s, pages) => turns s none pages) ++
    (selectors[r.whole.length]?).toList.flatMap fun s => turns s none r.current

/-- The request that comes next. -/
def next? (selectors : List Selector) (r : Reading) : Option Request :=
  (selectors[r.whole.length]?).map fun s => .page s (continuationOf r.current none)

/-- The pages in the order in which they came. -/
def pages (r : Reading) : List Page := r.whole.flatten ++ r.current

/-- The settings on the pages. -/
def items (r : Reading) : List Setting := r.pages.flatMap (·.items)

/-- One page more. -/
def receive (r : Reading) (p : Page) : Reading :=
  match p.continuation with
  | some _ => { r with current := r.current ++ [p] }
  | none => ⟨r.whole ++ [r.current ++ [p]], []⟩

/-- The listing that has come as far as a reading. -/
def listing (selectors : List Selector) (r : Reading) : Listing :=
  ⟨r.items, selectors.drop r.whole.length, continuationOf r.current none, r.pages.length⟩

variable {selectors : List Selector} {r : Reading} {p : Page} {s : Selector}

theorem fits_empty (selectors : List Selector) : empty.Fits selectors :=
  ⟨nofun, nofun, Nat.zero_le _⟩

@[simp] theorem said_empty (selectors : List Selector) : empty.said selectors = [] := by
  cases selectors <;> simp [said, empty, turns]

/-! ## One page more -/

theorem turns_concat (s : Selector) (start : Option String) (pages : List Page) (p : Page) :
    turns s start (pages ++ [p]) =
      turns s start pages ++ [(.page s (continuationOf pages start), .ok p)] := by
  induction pages generalizing start with
  | nil => rfl
  | cons q rest ih =>
    have hlast : continuationOf (q :: rest) start = continuationOf rest q.continuation := by
      rw [continuationOf, continuationOf, List.getLast?_cons]
      cases rest.getLast? <;> rfl
    rw [List.cons_append, turns, turns, ih, hlast, List.cons_append]

/-- The pages of one selector more. -/
theorem zip_concat {whole : List (List Page)} {pages : List Page}
    (hs : selectors[whole.length]? = some s) :
    selectors.zip (whole ++ [pages]) = selectors.zip whole ++ [(s, pages)] := by
  induction whole generalizing selectors with
  | nil =>
    cases selectors with
    | nil => cases hs
    | cons s' rest =>
      cases hs
      simp
  | cons first whole ih =>
    cases selectors with
    | nil => cases hs
    | cons s' rest =>
      rw [List.cons_append, List.zip_cons_cons, List.zip_cons_cons, ih (by simpa using hs),
        List.cons_append]

/-- A page has come in answer to the request that was due. -/
theorem said_receive (hs : selectors[r.whole.length]? = some s) (p : Page) :
    (r.receive p).said selectors =
      r.said selectors ++ [(.page s (continuationOf r.current none), .ok p)] := by
  have hturns := turns_concat s none r.current p
  unfold receive said
  cases p.continuation with
  | some text =>
    simp only [hs, Option.toList_some, List.flatMap_singleton, hturns, List.append_assoc]
  | none =>
    have hnone (o : Option Selector) : (o.toList.flatMap fun s => turns s none []) = [] := by
      cases o <;> rfl
    simp only [zip_concat hs, hs, hnone, List.flatMap_append, List.flatMap_singleton,
      Option.toList_some, hturns, List.append_nil, List.append_assoc]

theorem pages_receive (r : Reading) (p : Page) : (r.receive p).pages = r.pages ++ [p] := by
  unfold receive pages
  cases p.continuation <;> simp

theorem items_receive (r : Reading) (p : Page) : (r.receive p).items = r.items ++ p.items := by
  rw [items, pages_receive, List.flatMap_append, List.flatMap_singleton, items]

/-- **A listing keeps to its reading**, page by page. -/
theorem listing_receive (selectors : List Selector) (r : Reading) (p : Page) :
    (r.listing selectors).receive p = (r.receive p).listing selectors := by
  have hitems := items_receive r p
  have hpages := pages_receive r p
  simp only [listing, Listing.receive, hitems, hpages, List.length_append, List.length_singleton]
  unfold receive
  cases hp : p.continuation with
  | some text => simp [continuationOf, hp]
  | none => simp [continuationOf, List.drop_drop]

/-- What a listing asks for next. -/
theorem ask_listing (selectors : List Selector) (r : Reading) :
    Conversation.list.ask (r.listing selectors) = r.next? selectors := by
  rw [next?, ← List.head?_drop]
  rfl

theorem isDone_listing : (r.listing selectors).isDone = true ↔ selectors.length ≤ r.whole.length := by
  rw [Listing.isDone, listing, List.isEmpty_iff, List.drop_eq_nil_iff]

theorem Fits.receive (h : r.Fits selectors) (more : r.whole.length < selectors.length) (p : Page) :
    (r.receive p).Fits selectors := by
  unfold Reading.receive
  cases hp : p.continuation with
  | some text =>
    refine ⟨h.whole, fun q hq => ?_, h.within⟩
    rcases List.mem_append.1 hq with hq | hq
    · exact h.current q hq
    · rw [List.mem_singleton.1 hq, hp]
      exact Option.some_ne_none text
  | none =>
    refine ⟨fun pages hpages => ?_, nofun, ?_⟩
    · rcases List.mem_append.1 hpages with hpages | hpages
      · exact h.whole pages hpages
      · exact ⟨r.current, p, List.mem_singleton.1 hpages, h.current, hp⟩
    · rw [List.length_append, List.length_singleton]
      exact more

/-- A listing that a page completes has all pages of every selector. -/
theorem Fits.isComplete_receive (h : r.Fits selectors) (more : r.whole.length < selectors.length)
    (done : ((r.listing selectors).receive p).isDone = true) :
    (r.receive p).IsComplete selectors := by
  have hfits := (h.receive more p).within
  rw [listing_receive, isDone_listing] at done
  refine ⟨Nat.le_antisymm hfits done, ?_⟩
  unfold Reading.receive at done ⊢
  cases hp : p.continuation with
  | some text =>
    simp only [hp] at done
    omega
  | none => rfl

/-- While a listing is not done, there is a request to make. -/
theorem exists_next? (more : r.whole.length < selectors.length) :
    ∃ s, selectors[r.whole.length]? = some s ∧
      r.next? selectors = some (.page s (continuationOf r.current none)) := by
  refine ⟨_, List.getElem?_eq_getElem more, ?_⟩
  rw [next?, List.getElem?_eq_getElem more, Option.map_some]

/-- Where nothing has been said, nothing has been heard. -/
theorem Fits.eq_empty (h : r.Fits selectors) (more : r.whole.length < selectors.length)
    (silent : r.said selectors = []) : r = .empty := by
  obtain ⟨whole, current⟩ := r
  cases whole with
  | nil =>
    obtain ⟨s, rest, rfl⟩ := List.exists_cons_of_length_pos more
    cases current with
    | nil => rfl
    | cons p pages => simp [said, turns] at silent
  | cons pages whole =>
    obtain ⟨front, last, rfl, -, -⟩ := h.whole pages List.mem_cons_self
    obtain ⟨s, rest, rfl⟩ := List.exists_cons_of_length_pos (Nat.zero_lt_of_lt more)
    simp [said, turns_concat] at silent

end Reading

end ReplicatedConfig
