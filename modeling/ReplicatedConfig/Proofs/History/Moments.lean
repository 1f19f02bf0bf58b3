import ReplicatedConfig.Proofs.Coherence.Operations
import ReplicatedConfig.Proofs.Failover.Origin
import ReplicatedConfig.Proofs.Refresh.Contents

/-!
# A store over time

A `History` is what one store holds from moment to moment.  A reply is true of a moment if it
is what the store would say then (`Contents.Says`), and a replica may answer a request with
what was true at any moment between the opening of the call and the arrival of the answer
(`History.Says`): answers travel, and they may overtake each other.

What an operation learns from such answers is always of one form: at some moment between two
the store had this setting under that name, or none (`History.Had`).  Reads, checks and
listings are brought to this form here, and nothing else about replies is used later.

## Two promises about tokens

A token stands for one setting (`OneValue`), or it even comes back to a name only if nothing
has happened to it in between (`Steady`).  Which of the two is needed is said where it is.

## When a call was opened

Moments are counted by the events of a run.  A `Clock` has the current one, and for each call
the one in which it was opened.
-/

namespace ReplicatedConfig

/-- What a store holds from moment to moment. -/
abbrev History := Nat → Contents

/-- What a store with these contents says, apart from the errors that any store may give. -/
def Contents.Says (c : Contents) : Replies := fun _ request reply =>
  match request, reply with
  | .fetch i, .ok (.setting o) => o = c.find? i
  | .fetch i, .error e => e.failureClass = .notFound → c.find? i = none
  | .check i known, .ok (.verdict v) => v = c.verdict i known
  | .check i _, .error e => e.failureClass = .notFound → c.find? i = none
  | .page _ _, .ok (.page p) => ∀ s ∈ p.items, c.find? s.identity = some s
  | _, _ => True

instance (c : Contents) (m : Member) (request : Request) (reply : Except StoreError Reply) :
    Decidable (c.Says m request reply) :=
  match request, reply with
  | .fetch i, .ok (.setting o) => inferInstanceAs (Decidable (o = c.find? i))
  | .fetch i, .error e =>
    inferInstanceAs (Decidable (e.failureClass = .notFound → c.find? i = none))
  | .check i known, .ok (.verdict v) => inferInstanceAs (Decidable (v = c.verdict i known))
  | .check i _, .error e =>
    inferInstanceAs (Decidable (e.failureClass = .notFound → c.find? i = none))
  | .page _ _, .ok (.page p) =>
    inferInstanceAs (Decidable (∀ s ∈ p.items, c.find? s.identity = some s))
  | .fetch _, .ok (.verdict _) | .fetch _, .ok (.page _) | .check _ _, .ok (.setting _)
  | .check _ _, .ok (.page _) | .page _ _, .ok (.setting _) | .page _ _, .ok (.verdict _)
  | .page _ _, .error _ => isTrue trivial

namespace History

variable (h : History)

/-- What is true of some moment between two. -/
def Says (a n : Nat) : Replies := fun m request reply =>
  ∃ k, a ≤ k ∧ k ≤ n ∧ (h k).Says m request reply

instance (a n : Nat) (m : Member) (request : Request) (reply : Except StoreError Reply) :
    Decidable (h.Says a n m request reply) :=
  have : DecidablePred fun k => a ≤ k ∧ (h k).Says m request reply := fun _ => inferInstance
  decidable_of_iff (∃ k, k ≤ n ∧ a ≤ k ∧ (h k).Says m request reply)
    (exists_congr fun _ => and_left_comm)

/-- What the store had under a name at some moment between two. -/
def Had (a n : Nat) (i : Identity) (o : Option Setting) : Prop :=
  ∃ k, a ≤ k ∧ k ≤ n ∧ (h k).find? i = o

/-- A token that is known, if there is one, is one that the store had under the name, at a
moment not after `b`. -/
def Knew (b : Nat) (i : Identity) (known : Option Token) : Prop :=
  ∀ t, known = some t → ∃ k s, k ≤ b ∧ (h k).find? i = some s ∧ s.token = t

/-- Tokens are never used again: a name that has the same token at two moments has had the
same setting all the time between them. -/
def Steady : Prop := ∀ {i a b k s t}, a ≤ k → k ≤ b → (h a).find? i = some s →
  (h b).find? i = some t → s.token = t.token → (h k).find? i = some s

/-- No token is used for two settings of a name. -/
def OneValue : Prop := ∀ {i a b s t}, (h a).find? i = some s → (h b).find? i = some t →
  s.token = t.token → s = t

variable {h} {a b n n' : Nat} {i : Identity} {o : Option Setting} {known : Option Token}

theorem Says.later {m : Member} {request : Request} {reply : Except StoreError Reply}
    (htold : h.Says a n m request reply) (hn : n ≤ n') : h.Says a n' m request reply :=
  have ⟨k, hak, hkn, hk⟩ := htold
  ⟨k, hak, Nat.le_trans hkn hn, hk⟩

theorem Had.later (hhad : h.Had a n i o) (hn : n ≤ n') : h.Had a n' i o :=
  have ⟨k, hak, hkn, hk⟩ := hhad
  ⟨k, hak, Nat.le_trans hkn hn, hk⟩

theorem Had.from (hhad : h.Had a n i o) (hb : b ≤ a) : h.Had b n i o :=
  have ⟨k, hak, hkn, hk⟩ := hhad
  ⟨k, Nat.le_trans hb hak, hkn, hk⟩

theorem Knew.later (hknew : h.Knew a i known) (hb : a ≤ b) : h.Knew b i known := fun t ht =>
  have ⟨k, s, hk, hs⟩ := hknew t ht
  ⟨k, s, Nat.le_trans hk hb, hs⟩

/-! ## What answers tell -/

/-- A read tells what the store had. -/
theorem had_of_reads (hreads : (h.Says a n).Reads i o) : h.Had a n i o := by
  rcases hreads with ⟨m, k, hak, hkn, hk⟩ | ⟨rfl, m, e, ⟨k, hak, hkn, hk⟩, he⟩
  · exact ⟨k, hak, hkn, hk.symm⟩
  · exact ⟨k, hak, hkn, hk he⟩

/-- A check that misses the name tells that the store did not have it. -/
theorem had_of_missing (hjudges : (h.Says a n).Judges i known .missing) : h.Had a n i none := by
  rcases hjudges with ⟨m, k, hak, hkn, hk⟩ | ⟨-, m, e, ⟨k, hak, hkn, hk⟩, he⟩
  · exact ⟨k, hak, hkn, Contents.verdict_eq_missing_iff.1 hk.symm⟩
  · exact ⟨k, hak, hkn, hk he⟩

theorem had_of_lists {id : Nat} {selectors : List Selector} {l : Listing}
    (hlists : (h.Says a n).Lists id selectors l) :
    ∀ s ∈ l.collected, h.Had a n s.identity (some s) := by
  induction hlists with
  | start => exact fun _ hs => absurd hs List.not_mem_nil
  | page before asked here answer ih =>
    obtain ⟨k, hak, hkn, hk⟩ := answer
    intro s hs
    rcases List.mem_append.1 hs with hs | hs
    · exact ih s hs
    · exact ⟨k, hak, hkn, hk s hs⟩

/-- A listing tells of each of its settings that the store had it. -/
theorem had_of_brings {selectors : List Selector} {listed : List Setting}
    (hbrings : (h.Says a n).Brings selectors listed) :
    ∀ s ∈ listed, h.Had a n s.identity (some s) := by
  obtain ⟨id, l, hlists, -, rfl⟩ := hbrings
  exact had_of_lists hlists

end History

/-! ## Calls and their answers -/

/-- The current moment, and that in which each call was opened. -/
structure Clock where
  now : Nat
  opened : Nat → Nat

namespace Clock

/-- The clock at the beginning of a run. -/
def zero : Clock := ⟨0, fun _ => 0⟩

/-- The clock at a later moment, when this many calls have been opened. -/
def tick (clock : Clock) (n calls : Nat) : Clock :=
  ⟨n, fun serial => if serial < calls then clock.opened serial else n⟩

/-- The calls that have been opened were opened in the past, and all others will be opened at
the current moment or later. -/
structure Fits (clock : Clock) (calls : Nat) : Prop where
  past : ∀ serial, clock.opened serial ≤ clock.now
  fresh : ∀ serial, calls ≤ serial → clock.opened serial = clock.now

/-- Some time has passed, and the calls that had been opened were opened when they were. -/
structure Later (clock clock' : Clock) (calls : Nat) : Prop where
  now : clock.now ≤ clock'.now
  opened : ∀ serial < calls, clock'.opened serial = clock.opened serial

variable {clock clock' : Clock} {calls calls' : Nat}

theorem Fits.of_le (hfits : clock.Fits calls) (hle : calls ≤ calls') : clock.Fits calls' :=
  ⟨hfits.past, fun serial hserial => hfits.fresh serial (Nat.le_trans hle hserial)⟩

theorem Fits.tick (hfits : clock.Fits calls) {n : Nat} (hn : clock.now ≤ n) :
    (clock.tick n calls).Fits calls where
  past serial := by
    show (if serial < calls then clock.opened serial else n) ≤ n
    split
    · exact Nat.le_trans (hfits.past serial) hn
    · exact Nat.le_refl n
  fresh serial hserial := if_neg (Nat.not_lt.2 hserial)

theorem later_tick {n : Nat} (hn : clock.now ≤ n) : clock.Later (clock.tick n calls) calls :=
  ⟨hn, fun _ hserial => if_pos hserial⟩

theorem Later.refl (clock : Clock) : clock.Later clock calls := ⟨Nat.le_refl _, fun _ _ => rfl⟩

/-- Where a request waits for an answer, the answer was true since the call was opened. -/
def Believes (clock : Clock) (h : History) (ticket : Ticket) (reply : Except StoreError Reply) :
    Wait → Prop
  | .reply o => o.ticket = ticket →
    h.Says (clock.opened ticket.call) clock.now o.member o.request reply
  | _ => True

instance (clock : Clock) (h : History) (ticket : Ticket) (reply : Except StoreError Reply)
    (w : Wait) : Decidable (clock.Believes h ticket reply w) :=
  match w with
  | .reply o => inferInstanceAs (Decidable (o.ticket = ticket → History.Says ..))
  | .ready | .fallback .. | .sleep _ | .lookup => isTrue trivial

/-- Inputs that may come in: an answer that was true since its call was opened, and any other
input. -/
def Admits (clock : Clock) (h : History) (waits : List Wait) : Input → Prop
  | .answered ticket reply => ∀ w ∈ waits, clock.Believes h ticket reply w
  | _ => True

instance (clock : Clock) (h : History) (waits : List Wait) (input : Input) :
    Decidable (clock.Admits h waits input) :=
  match input with
  | .answered ticket reply =>
    inferInstanceAs (Decidable (∀ w ∈ waits, clock.Believes h ticket reply w))
  | .fallback _ | .cancelled | .resumed | .woke => isTrue trivial

variable {h : History} {i : Input}

theorem Admits.of_waits {waits waits' : List Wait} (hadmits : clock.Admits h waits i)
    (hsub : ∀ o, Wait.reply o ∈ waits' → Wait.reply o ∈ waits) : clock.Admits h waits' i := by
  cases i with
  | answered ticket reply =>
    intro w hw
    cases w with
    | reply o => exact hadmits _ (hsub o hw)
    | ready => trivial
    | fallback serial time => trivial
    | sleep time => trivial
    | lookup => trivial
  | fallback serial => trivial
  | cancelled => trivial
  | resumed => trivial
  | woke => trivial

variable {σ α : Type} {k : Conversation σ α} {c : Call σ}

/-- An answer that reaches a call was true since that call was opened. -/
theorem Admits.admitted (hadmits : clock.Admits h (c.waits k) i) :
    i.Admitted (h.Says (clock.opened c.serial) clock.now) (c.waits k) := by
  cases i with
  | answered ticket reply =>
    intro o ho hticket
    have hserial : o.ticket.call = c.serial := by
      rcases List.mem_append.1 ho with ho | ho
      · obtain ⟨o', ho', hsame⟩ := List.mem_map.1 ho
        cases hsame
        obtain ⟨a, -, ha⟩ := List.mem_filterMap.1 ho'
        obtain ⟨r, -, rfl⟩ := Option.map_eq_some_iff.1 ha
        rfl
      · cases hfallback : c.fallbackAt? with
        | none =>
          rw [hfallback] at ho
          cases ho
        | some time =>
          rw [hfallback] at ho
          cases List.mem_singleton.1 ho
    rw [← hserial, hticket]
    exact hadmits _ ho hticket
  | fallback serial => trivial
  | cancelled => trivial
  | resumed => trivial
  | woke => trivial

end Clock

/-- What may be listed may be listed where more may be said. -/
theorem Replies.Lists.imp {answers answers' : Replies} {id : Nat} {selectors : List Selector}
    {l : Listing} (hlists : answers.Lists id selectors l)
    (himp : ∀ {m request reply}, answers m request reply → answers' m request reply) :
    answers'.Lists id selectors l := by
  induction hlists with
  | start => exact .start
  | page before asked here answer ih => exact .page ih asked here (himp answer)

theorem Call.Every.imp {σ : Type} {P P' : Nat → σ → Prop} {c : Call σ} (hc : c.Every P)
    (himp : ∀ {id w}, P id w → P' id w) : c.Every P' :=
  ⟨fun id => himp (hc.fresh id), fun a ha => himp (hc.inFlight a ha)⟩

end ReplicatedConfig
