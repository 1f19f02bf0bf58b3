import Mathlib.Data.List.Forall2
import ReplicatedConfig.Proofs.Refresh.Runs

/-!
# What a check finds

A check of a watched key asks at most twice: whether the value changed, and for the new one.
`Finds` relates the replies to what is found, and `At` says in which state the check of a
place may be, so that a check that has ended has found what the replies say about the name
at its place and the token known there.

Two things about a check depend on who else is at work.  What it reads in the watch list is
as `W` says, which is any predicate that leaves no doubt about the name at a place; and it may
find its key claimed or no longer due, unless `skips` is false.  A check changes nothing of
the provider but when its own key is looked at next and who holds it (`Provider.Checked`).
-/

namespace ReplicatedConfig

/-! ## What a check changes -/

/-- Only the pool, the counters, and the hold on the keys at some places and their next looks
differ. -/
structure Provider.Checked (places : List Nat) (p q : Provider) : Prop where
  facts : q.watchList.facts = p.watchList.facts
  elsewhere : ∀ j, j ∉ places → q.watchList.get? j = p.watchList.get? j
  pipeline : q.pipeline = p.pipeline
  options : q.options = p.options
  materialized : q.materialized = p.materialized
  loaded : q.loaded = p.loaded
  publisher : q.publisher = p.publisher
  lock : q.lock = p.lock
  now : q.now = p.now

namespace Provider

variable {p q r : Provider} {places : List Nat}

theorem Called.checked (h : p.Called q) : p.Checked places q where
  facts := congrArg WatchList.facts h.watchList
  elsewhere j _ := by rw [h.watchList]
  pipeline := h.pipeline
  options := h.options
  materialized := h.materialized
  loaded := h.loaded
  publisher := h.publisher
  lock := h.lock
  now := h.now

theorem Checked.of_subset {places' : List Nat} (h : p.Checked places q) (hsub : places ⊆ places') :
    p.Checked places' q :=
  { h with elsewhere := fun j hj => h.elsewhere j fun hmem => hj (hsub hmem) }

theorem Checked.trans (hq : p.Checked places q) (hr : q.Checked places r) :
    p.Checked places r where
  facts := hr.facts.trans hq.facts
  elsewhere j hj := (hr.elsewhere j hj).trans (hq.elsewhere j hj)
  pipeline := hr.pipeline.trans hq.pipeline
  options := hr.options.trans hq.options
  materialized := hr.materialized.trans hq.materialized
  loaded := hr.loaded.trans hq.loaded
  publisher := hr.publisher.trans hq.publisher
  lock := hr.lock.trans hq.lock
  now := hr.now.trans hq.now

theorem Checked.sameRules (h : p.Checked places q) : p.SameRules q :=
  ⟨h.options, h.pipeline, WatchList.identities_of_facts h.facts⟩

/-- Changing the hold on a key or its next look. -/
theorem checked_modify (p : Provider) (place : Nat) {f : Watch → Watch}
    (hf : ∀ w, (f w).fact = w.fact) :
    p.Checked [place] { p with watchList := p.watchList.modify place f } where
  facts := p.watchList.facts_modify place hf
  elsewhere j hj := by
    rw [WatchList.get?_modify, if_neg fun h => hj (List.mem_singleton.2 h.symm)]
  pipeline := rfl
  options := rfl
  materialized := rfl
  loaded := rfl
  publisher := rfl
  lock := rfl
  now := rfl

theorem checked_letGo (p : Provider) (place : Nat) : p.Checked [place] (p.letGo place) :=
  p.checked_modify place fun _ => rfl

/-- Dropping checks lets their keys go, and calls nobody. -/
theorem checked_abandon (p : Provider) (checks : List Check) :
    ∃ places, p.Checked places (checks.foldl Check.abandon p) ∧
      (checks.foldl Check.abandon p).calls = p.calls := by
  induction checks generalizing p with
  | nil => exact ⟨[], (Called.refl p).checked, rfl⟩
  | cons c rest ih =>
    obtain ⟨place, hc, hcalls⟩ :
        ∃ place, p.Checked [place] (c.abandon p) ∧ (c.abandon p).calls = p.calls := by
      cases c with
      | ready place => exact ⟨place, (Called.refl p).checked, rfl⟩
      | checking place known call => exact ⟨place, p.checked_letGo place, rfl⟩
      | fetching place known call => exact ⟨place, p.checked_letGo place, rfl⟩
      | finished result => exact ⟨0, (Called.refl p).checked, rfl⟩
    obtain ⟨places, hrest, hrests⟩ := ih (c.abandon p)
    have hsub : [place] ⊆ place :: places := List.cons_subset_cons place (List.nil_subset places)
    exact ⟨place :: places,
      (hc.of_subset hsub).trans (hrest.of_subset (places.subset_cons_self place)),
      hrests.trans hcalls⟩

theorem checked_begin {place : Nat} {watchList : WatchList}
    (h : p.watchList.begin? place p.now = some watchList) :
    p.Checked [place] { p with watchList } := by
  unfold WatchList.begin? at h
  split at h
  · split at h
    · cases h
      exact p.checked_modify place fun _ => rfl
    · cases h
  · cases h

end Provider

/-! ## What is found -/

namespace Check

/-- What the check of a name may find, given the token that is known. -/
inductive Finds (answers : Replies) (i : Identity) (place : Nat) (known : Option Token) :
    Finding → Prop where
  | unchanged (verdict : answers.Judges i known .unchanged) : Finds answers i place known .unchanged
  | absent (verdict : answers.Judges i known .missing) (unknown : known = none) :
      Finds answers i place known .unchanged
  | removed (verdict : answers.Judges i known .missing) (present : known ≠ none) :
      Finds answers i place known (.changed (.remove place known))
  | read {o : Option Setting} (verdict : answers.Judges i known .modified)
      (reply : answers.Reads i o) : Finds answers i place known (findingOf place known o)

/-- What a key that reloads everything is asked about has changed: there is another value, or
none any more. -/
def Differs (answers : Replies) (i : Identity) (known : Option Token) : Prop :=
  answers.Judges i known .modified ∨ answers.Judges i known .missing ∧ known ≠ none

variable (answers : Replies) (W : Nat → Watch.Fact → Prop) (skips : Prop)

/-- What the check of the key at a place may have found.  A change is found for a key that does
not reload everything when the verdict comes in; the other keys are not read. -/
inductive Found (place : Nat) : Finding → Prop where
  | skipped (skips : skips) : Found place .skipped
  | reloadAll {i : Identity} {role : Bool} {known known' : Option Token}
      (fact : W place (i, role, known)) (differs : Differs answers i known)
      (reloads : W place (i, true, known')) : Found place .reloadAll
  | finds {i : Identity} {role : Bool} {known : Option Token} {f : Finding}
      (fact : W place (i, role, known)) (finds : Finds answers i place known f)
      (single : f = .unchanged ∨ ∃ g, W place g ∧ g.2.1 = false) : Found place f

/-- Where the check of the key at a place may stand. -/
def At (p : Provider) (place : Nat) : Check → Prop
  | .ready place' => place' = place ∧
    (skips ∨ ∃ w, p.watchList.get? place = some w ∧ w.held = false ∧ w.Due p.now)
  | .checking place' known call => place' = place ∧ ∃ i role, W place (i, role, known) ∧
    call.Every fun _ x => x = (i, known)
  | .fetching place' known call => place' = place ∧ ∃ i role, W place (i, role, known) ∧
    answers.Judges i known .modified ∧ (∃ g, W place g ∧ g.2.1 = false) ∧
    call.Every fun _ j => j = i
  | .finished (.error _) => True
  | .finished (.ok f) => Found answers W skips place f

variable {answers W skips} {p q : Provider} {place : Nat} {cancelled : Bool}

/-- A check that has started stands where it stood whatever happens elsewhere, and before
that as long as its key and the time allow it to start. -/
theorem At.of_ready {c : Check} (h : c.At answers W skips p place)
    (hready : skips ∨ (q.watchList.get? place = p.watchList.get? place ∧ p.now ≤ q.now)) :
    c.At answers W skips q place := by
  cases c with
  | ready place' =>
    refine ⟨h.1, hready.elim .inl fun ⟨hwatch, hnow⟩ => h.2.imp_right ?_⟩
    rintro ⟨w, hw, hheld, hdue⟩
    exact ⟨w, hwatch.trans hw, hheld, Nat.le_trans hdue hnow⟩
  | checking place' known call => exact h
  | fetching place' known call => exact h
  | finished result => cases result <;> exact h

/-- What a step of a check leaves behind. -/
def Steps (answers : Replies) (W : Nat → Watch.Fact → Prop) (skips : Prop) (p : Provider)
    (place : Nat) (x : Provider × Check) : Prop :=
  p.Checked [place] x.1 ∧ x.2.At answers W skips x.1 place

theorem Steps.of_checked {x : Provider × Check} (hq : p.Checked [place] q)
    (h : Steps answers W skips q place x) : Steps answers W skips p place x :=
  ⟨hq.trans h.1, h.2⟩

/-- Ending lets the key go. -/
theorem steps_finish {result : Except ProviderError Finding}
    (h : ∀ f, result = .ok f → Found answers W skips place f) :
    Steps answers W skips p place (finish p place result) := by
  refine ⟨p.checked_letGo place, ?_⟩
  cases result with
  | error e => trivial
  | ok f => exact h f rfl

section Steps

variable {i : Identity} {role : Bool} {known : Option Token}

theorem steps_fetched {progress : Progress Identity (Option Setting)}
    (hfact : W place (i, role, known)) (hverdict : answers.Judges i known .modified)
    (hsingle : ∃ g, W place g ∧ g.2.1 = false)
    (hprogress : progress.Every (fun _ j => j = i)
      fun r => ∀ o, Failover.settingOf r = .ok o → answers.Reads i o) :
    Steps answers W skips p place (fetched p place known progress) := by
  cases progress with
  | waiting call =>
    exact ⟨(Provider.Called.refl p).checked, rfl, i, role, hfact, hverdict, hsingle, hprogress⟩
  | returned r =>
    rw [fetched]
    cases hr : Failover.settingOf r with
    | error e => exact steps_finish nofun
    | ok o =>
      refine steps_finish fun f hf => ?_
      cases hf
      exact .finds hfact (.read hverdict (hprogress o hr)) (.inr hsingle)

theorem steps_judged {v : Verdict} {w : Watch} (hfact : W place (i, role, known))
    (hw : W place w.fact) (hname : w.identity = i) (hverdict : answers.Judges i known v) :
    Steps answers W skips p place (judged cancelled p place w known v) := by
  have hreload (hrole : w.refreshAll = true) (differs : Differs answers i known) :
      Found answers W skips place .reloadAll := by
    rw [Watch.fact, hrole, hname] at hw
    exact .reloadAll hfact differs hw
  have hsingle (hrole : ¬ w.refreshAll = true) : ∃ g, W place g ∧ g.2.1 = false :=
    ⟨w.fact, hw, Bool.eq_false_iff.2 hrole⟩
  cases v with
  | unchanged =>
    refine steps_finish fun f hf => ?_
    cases hf
    exact .finds hfact (.unchanged hverdict) (.inl rfl)
  | missing =>
    refine steps_finish fun f hf => ?_
    cases hf
    split
    · next hnone =>
      exact .finds hfact (.absent hverdict (Option.isNone_iff_eq_none.1 hnone)) (.inl rfl)
    · next hsome =>
      have hpresent : known ≠ none := fun hnone => hsome (by rw [hnone]; rfl)
      split
      · next hrole => exact hreload hrole (.inr ⟨hverdict, hpresent⟩)
      · next hrole => exact .finds hfact (.removed hverdict hpresent) (.inr (hsingle hrole))
  | modified =>
    rw [judged]
    split
    · next hrole =>
      refine steps_finish fun f hf => ?_
      cases hf
      exact hreload hrole (.inl hverdict)
    · next hrole =>
      have hcalled := p.called_openCall .fetch w.identity cancelled
      have hevery := p.every_openFetch answers w.identity cancelled
      rw [hname] at hcalled hevery ⊢
      generalize p.openCall .fetch i cancelled = x at hcalled hevery
      obtain ⟨q, progress⟩ := x
      exact .of_checked hcalled.checked (steps_fetched hfact hverdict (hsingle hrole) hevery)

theorem steps_checked {progress : Progress (Identity × Option Token) Verdict}
    (hW : ∃ f, p.watchList.facts[place]? = some f ∧ W place f)
    (names : ∀ {f g}, W place f → W place g → f.1 = g.1) (hfact : W place (i, role, known))
    (hprogress : progress.Every (fun _ x => x = (i, known))
      fun r => ∀ v, Failover.verdictOf r = .ok v → answers.Judges i known v) :
    Steps answers W skips p place (checked cancelled p place known progress) := by
  cases progress with
  | waiting call => exact ⟨(Provider.Called.refl p).checked, rfl, i, role, hfact, hprogress⟩
  | returned r =>
    rw [checked]
    cases hv : Failover.verdictOf r with
    | error e =>
      simp only []
      exact steps_finish nofun
    | ok v =>
      obtain ⟨f, hf, hw⟩ := hW
      obtain ⟨w, hget, rfl⟩ := WatchList.get?_of_facts hf
      simp only [hget]
      exact steps_judged hfact hw (names hw hfact) (hprogress v hv)

/-- Starting claims the key, and asks about the name and the token at the place. -/
theorem steps_start (hW : ∃ f, p.watchList.facts[place]? = some f ∧ W place f)
    (names : ∀ {f g}, W place f → W place g → f.1 = g.1)
    (hready : skips ∨ ∃ w, p.watchList.get? place = some w ∧ w.held = false ∧ w.Due p.now) :
    Steps answers W skips p place (start cancelled p place) := by
  obtain ⟨f, hf, hfact⟩ := hW
  obtain ⟨w, hget, rfl⟩ := WatchList.get?_of_facts hf
  have hskip : p.watchList.begin? place p.now = none → skips := by
    intro hnone
    rcases hready with hskips | ⟨w', hw', hheld, hdue⟩
    · exact hskips
    · simp [WatchList.begin?, hw', hheld, hdue] at hnone
  rw [start, hget]
  cases hbegin : p.watchList.begin? place p.now with
  | none => exact ⟨(Provider.Called.refl p).checked, .skipped (hskip hbegin)⟩
  | some watchList =>
    have hclaimed := Provider.checked_begin hbegin
    have hcalled := { p with watchList }.called_openCall .check (w.identity, w.token) cancelled
    have hevery := { p with watchList }.every_openCheck answers w.identity w.token cancelled
    simp only []
    generalize { p with watchList }.openCall .check (w.identity, w.token) cancelled = x
      at hcalled hevery ⊢
    obtain ⟨q, progress⟩ := x
    have hchecked := hclaimed.trans hcalled.checked
    rw [← hchecked.facts] at hf
    exact .of_checked hchecked (steps_checked ⟨_, hf, hfact⟩ names hfact hevery)

end Steps

/-- **What a step of a check leaves behind**, whatever reaches it. -/
theorem steps_handle (cancelled : Bool) {c : Check}
    (hW : ∃ f, p.watchList.facts[place]? = some f ∧ W place f)
    (names : ∀ {f g}, W place f → W place g → f.1 = g.1) (h : c.At answers W skips p place)
    {i : Input} (admitted : i.Admitted answers c.waits) :
    Steps answers W skips p place (c.handle cancelled p i) := by
  have hstay : Steps answers W skips p place (p, c) := ⟨(Provider.Called.refl p).checked, h⟩
  cases c with
  | ready place' =>
    cases i with
    | resumed =>
      obtain ⟨rfl, hready⟩ := h
      exact steps_start hW names hready
    | answered ticket reply => exact hstay
    | fallback serial => exact hstay
    | cancelled => exact hstay
    | woke => exact hstay
  | checking place' known call =>
    obtain ⟨rfl, name, role, hfact, hcall⟩ := h
    have hcalled := p.called_drive .check call i
    have hevery := p.every_drive (Conversation.keeps_check answers name known) hcall admitted
    rw [← hcalled.watchList] at hW
    exact .of_checked hcalled.checked (steps_checked hW names hfact hevery)
  | fetching place' known call =>
    obtain ⟨rfl, name, role, hfact, hverdict, hsingle, hcall⟩ := h
    have hcalled := p.called_drive .fetch call i
    have hevery := p.every_drive (Conversation.keeps_fetch answers name) hcall admitted
    exact .of_checked hcalled.checked (steps_fetched hfact hverdict hsingle hevery)
  | finished result => exact hstay

end Check
end ReplicatedConfig
