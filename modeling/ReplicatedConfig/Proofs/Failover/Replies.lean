import ReplicatedConfig.Engine
import ReplicatedConfig.Proofs.Failover.Account

/-!
# What a call may hear

A statement about what the program makes of its store needs to say what the store replies.
`Replies` is the relation between requests and the replies that may be given to them, and an
input is `Admitted` by it while something waits: a reply that belongs to a request waited for
must be one that may be given to it.  Other inputs, and replies that nobody waits for, are
admitted whatever they are.

A conversation `Keeps` a predicate on the work of its attempts, and brings results that
satisfy another one.  These two statements carry over to calls: whatever the pool, the timers
and the failures of replicas are, every attempt of a call has work that satisfies the one, and
what the call returns satisfies the other (`every_openCall`, `every_drive`).

All that a call changes is the health of the pool and the counters (`Provider.Called`).
-/

namespace ReplicatedConfig

variable {σ α : Type}

/-- Which replies a replica may give to which requests. -/
abbrev Replies := Member → Request → Except StoreError Reply → Prop

/-- Whether an input is one that may come in while `waits` is waited for. -/
def Input.Admitted (answers : Replies) (waits : List Wait) : Input → Prop
  | .answered ticket reply =>
    ∀ o, Wait.reply o ∈ waits → o.ticket = ticket → answers o.member o.request reply
  | _ => True

/-- Where any reply may be given, anything may come in. -/
theorem Input.admitted_any (i : Input) (waits : List Wait) : i.Admitted (fun _ _ _ => True) waits := by
  cases i with
  | answered ticket reply => exact fun _ _ _ => trivial
  | fallback serial => trivial
  | cancelled => trivial
  | resumed => trivial
  | woke => trivial

/-! ## What a call changes -/

/-- Only the pool and the counters differ. -/
structure Provider.Called (p q : Provider) : Prop where
  watchList : q.watchList = p.watchList
  pipeline : q.pipeline = p.pipeline
  options : q.options = p.options
  materialized : q.materialized = p.materialized
  loaded : q.loaded = p.loaded
  publisher : q.publisher = p.publisher
  lock : q.lock = p.lock
  now : q.now = p.now

namespace Provider

variable {p q r : Provider}

theorem Called.refl (p : Provider) : p.Called p := ⟨rfl, rfl, rfl, rfl, rfl, rfl, rfl, rfl⟩

theorem Called.trans (hq : p.Called q) (hr : q.Called r) : p.Called r where
  watchList := hr.watchList.trans hq.watchList
  pipeline := hr.pipeline.trans hq.pipeline
  options := hr.options.trans hq.options
  materialized := hr.materialized.trans hq.materialized
  loaded := hr.loaded.trans hq.loaded
  publisher := hr.publisher.trans hq.publisher
  lock := hr.lock.trans hq.lock
  now := hr.now.trans hq.now

theorem called_apply (p : Provider) (e : Effect) : p.Called (p.apply e) := by
  cases e <;> exact ⟨rfl, rfl, rfl, rfl, rfl, rfl, rfl, rfl⟩

theorem called_take (p : Provider) (t : Turn σ α) : p.Called (p.take t).1 := by
  show p.Called (t.effects.foldl apply p)
  generalize t.effects = effects
  induction effects generalizing p with
  | nil => exact .refl p
  | cons e rest ih => exact (p.called_apply e).trans (ih (p.apply e))

/-- Starting a call changes the pool and the counters only. -/
theorem called_openCall (p : Provider) (k : Conversation σ α) (fresh : σ) (cancelled : Bool) :
    p.Called (p.openCall k fresh cancelled).1 := by
  unfold openCall
  split
  · exact .refl p
  · have hcalls : p.Called { p with calls := p.calls + 1 } := ⟨rfl, rfl, rfl, rfl, rfl, rfl, rfl, rfl⟩
    exact hcalls.trans (called_take _ _)

/-- So does driving one. -/
theorem called_drive (p : Provider) (k : Conversation σ α) (c : Call σ) (i : Input) :
    p.Called (p.drive k c i).1 := by
  cases i with
  | answered ticket reply => exact p.called_take _
  | fallback serial =>
    rw [drive]
    split
    · exact p.called_take _
    · exact .refl p
  | cancelled => exact .refl p
  | resumed => exact .refl p
  | woke => exact .refl p

end Provider

/-! ## What the attempts of a call are at -/

/-- A predicate on the work of attempts, which may depend on the number of the member asked,
and one on results, such that truthful replies lead from the one to the other. -/
structure Conversation.Keeps (k : Conversation σ α) (answers : Replies) (P : Nat → σ → Prop)
    (Q : Except FailoverError (α × Member) → Prop) : Prop where
  asks : ∀ {id w}, P id w → ∃ r, k.ask w = some r
  goesOn : ∀ {m : Member} {w r reply w'}, P m.id w → k.ask w = some r → answers m r (.ok reply) →
    k.hear w reply = some (.inl w') → P m.id w'
  ends : ∀ {m : Member} {w r reply v}, P m.id w → k.ask w = some r → answers m r (.ok reply) →
    k.hear w reply = some (.inr v) → Q (.ok (v, m))
  notFound : ∀ {m : Member} {w r e}, P m.id w → k.ask w = some r → answers m r (.error e) →
    e.failureClass = .notFound → Q (.error (.notFound m.endpoint.text))
  fails : ∀ {e}, (∀ host, e ≠ .notFound host) → Q (.error e)

/-- Every attempt of a call, under way or still to start, has work that satisfies `P`. -/
structure Call.Every (P : Nat → σ → Prop) (c : Call σ) : Prop where
  fresh : ∀ id, P id c.fresh
  inFlight : ∀ a ∈ c.inFlight, P a.member.id a.work

/-- A call that waits has such attempts only, and one that returned has a result that
satisfies `Q`. -/
def Progress.Every (P : Nat → σ → Prop) (Q : Except FailoverError (α × Member) → Prop) :
    Progress σ α → Prop
  | .waiting c => c.Every P
  | .returned r => Q r

namespace Call

variable {k : Conversation σ α} {answers : Replies} {P : Nat → σ → Prop}
  {Q : Except FailoverError (α × Member) → Prop} {c : Call σ}

/-- What an attempt asks is waited for. -/
theorem reply_mem_waits {a : Attempt σ} {r : Request} (ha : a ∈ c.inFlight)
    (hr : k.ask a.work = some r) : Wait.reply ⟨c.ticket k a, a.member, r⟩ ∈ c.waits k := by
  refine List.mem_append_left _ (List.mem_map_of_mem ?_)
  refine List.mem_filterMap.2 ⟨a, ha, ?_⟩
  rw [hr, Option.map_some]

theorem Every.launchNext (h : c.Every P) (now : Instant) : (c.launchNext now).Every P := by
  unfold Call.launchNext
  split
  · exact h
  · refine ⟨h.fresh, fun a ha => ?_⟩
    rcases List.mem_append.1 ha with ha | ha
    · exact h.inFlight a ha
    · rw [List.mem_singleton.1 ha]
      exact h.fresh _

theorem Every.drop (h : c.Every P) (member : Nat) (e : Option StoreError) :
    Call.Every P { c.drop member with lastError := e } :=
  ⟨h.fresh, fun a ha => h.inFlight a (List.mem_of_mem_filter ha)⟩

theorem Every.continueWith (h : c.Every P) {member : Nat} {work : σ} (hwork : P member work) :
    (c.continueWith member work).Every P := by
  refine ⟨h.fresh, fun a ha => ?_⟩
  obtain ⟨b, hb, rfl⟩ := List.mem_map.1 ha
  split
  · next hid =>
    subst hid
    exact hwork
  · exact h.inFlight b hb

theorem every_proceed (hk : k.Keeps answers P Q) (h : c.Every P) :
    (proceed c : Progress σ α).Every P Q := by
  unfold proceed
  split
  · exact hk.fails fun host h => by cases h
  · exact h

/-- An attempt that ends with an error either ends its call or makes the next one start. -/
theorem every_complete_error (hk : k.Keeps answers P Q) (h : c.Every P) {m : Member}
    {e : StoreError} {now : Instant}
    (hmissing : e.failureClass = .notFound → Q (.error (.notFound m.endpoint.text))) :
    (c.complete m (.error e : Except StoreError α) now).progress.Every P Q := by
  cases he : e.failureClass with
  | retryable =>
    simp only [complete, he]
    exact every_proceed hk ((h.drop m.id (some e)).launchNext now)
  | nonRetryable =>
    simp only [complete, he]
    exact hk.fails fun host h => by cases h
  | notFound =>
    simp only [complete, he]
    exact hmissing he
  | cancelled =>
    simp only [complete, he]
    exact hk.fails fun host h => by cases h

theorem every_hear (hk : k.Keeps answers P Q) (h : c.Every P) {ticket : Ticket}
    {reply : Except StoreError Reply} {now : Instant}
    (admitted : (Input.answered ticket reply).Admitted answers (c.waits k)) :
    (c.hear k ticket reply now).progress.Every P Q := by
  unfold hear
  cases hfind : c.inFlight.find? fun a => c.ticket k a = ticket with
  | none => exact h
  | some a =>
    have ha := List.mem_of_find?_eq_some hfind
    have hticket : c.ticket k a = ticket := by simpa using List.find?_some hfind
    have hwork := h.inFlight a ha
    -- The reply belongs to an attempt in flight, so what it replies to was waited for.
    obtain ⟨r, hr⟩ := hk.asks hwork
    have hanswer := admitted _ (reply_mem_waits ha hr) hticket
    cases reply with
    | error e => exact every_complete_error hk h fun he => hk.notFound hwork hr hanswer he
    | ok reply =>
      cases hhear : k.hear a.work reply with
      | none =>
        simp only [hhear]
        exact h
      | some o =>
        cases o with
        | inl work =>
          simp only [hhear]
          exact h.continueWith (hk.goesOn hwork hr hanswer hhear)
        | inr value =>
          simp only [hhear]
          exact hk.ends hwork hr hanswer hhear

end Call

namespace Provider

variable {k : Conversation σ α} {answers : Replies} {P : Nat → σ → Prop}
  {Q : Except FailoverError (α × Member) → Prop}

/-- A call starts with such attempts, or returns such a result at once. -/
theorem every_openCall (p : Provider) (hk : k.Keeps answers P Q) {fresh : σ} (cancelled : Bool)
    (hfresh : k.outright fresh = none → ∀ id, P id fresh)
    (houtright : ∀ m v, k.outright fresh = some v → Q (.ok (v, m))) :
    (p.openCall k fresh cancelled).2.Every P Q := by
  unfold openCall
  split
  · exact hk.fails fun host h => by cases h
  · simp only [take, Call.opening, Call.start, Call.launchNext]
    cases p.pool.candidates p.now with
    | nil => exact hk.fails fun host h => by cases h
    | cons m rest =>
      simp only [List.nil_append, List.head?_cons]
      cases hout : k.outright fresh with
      | some v => exact houtright m v hout
      | none =>
        refine ⟨hfresh hout, fun a ha => ?_⟩
        rw [List.mem_singleton.1 ha]
        exact hfresh hout m.id

/-- **Every admitted input keeps the attempts of a call, or makes it return such a
result.** -/
theorem every_drive (p : Provider) (hk : k.Keeps answers P Q) {c : Call σ} (h : c.Every P)
    {i : Input} (admitted : i.Admitted answers (c.waits k)) : (p.drive k c i).2.Every P Q := by
  cases i with
  | answered ticket reply => exact Call.every_hear hk h admitted
  | fallback serial =>
    rw [drive]
    split
    · rcases c.fallBack_cases (α := α) p.now with hback | hback <;> simp only [take, hback]
      · exact h.launchNext p.now
      · exact h
    · exact h
  | cancelled => exact hk.fails fun host h => by cases h
  | resumed => exact h
  | woke => exact h

end Provider

/-! ## What requests may bring -/

namespace Replies

/-- The value of a name, or its absence, that a call may read. -/
def Reads (answers : Replies) (i : Identity) (o : Option Setting) : Prop :=
  (∃ m, answers m (.fetch i) (.ok (.setting o))) ∨
    o = none ∧ ∃ m e, answers m (.fetch i) (.error e) ∧ e.failureClass = .notFound

/-- The verdict on a known token that a call may bring. -/
def Judges (answers : Replies) (i : Identity) (known : Option Token) (v : Verdict) : Prop :=
  (∃ m, answers m (.check i known) (.ok (.verdict v))) ∨
    v = .missing ∧ ∃ m e, answers m (.check i known) (.error e) ∧ e.failureClass = .notFound

/-- How far a listing at one replica may come. -/
inductive Lists (answers : Replies) (id : Nat) (selectors : List Selector) : Listing → Prop where
  | start : Lists answers id selectors (.start selectors)
  | page {l : Listing} {m : Member} {s : Selector} {p : Page} (before : Lists answers id selectors l)
      (asked : l.selectors.head? = some s) (here : m.id = id)
      (answer : answers m (.page s l.continuation) (.ok (.page p))) :
      Lists answers id selectors (l.receive p)

/-- The settings that a call may list. -/
def Brings (answers : Replies) (selectors : List Selector) (listed : List Setting) : Prop :=
  ∃ id l, answers.Lists id selectors l ∧ l.isDone = true ∧ l.collected = listed

end Replies

namespace Conversation

variable (answers : Replies)

/-- A read of one name keeps asking for it. -/
theorem keeps_fetch (i : Identity) :
    fetch.Keeps answers (fun _ j => j = i)
      (fun r => ∀ o, Failover.settingOf r = .ok o → answers.Reads i o) where
  asks _ := ⟨_, rfl⟩
  goesOn := by
    intro m w r reply w' _ _ _ hhear
    cases reply <;> cases hhear
  ends := by
    rintro m w r reply v rfl hr hanswer hhear o ho
    cases hr
    cases reply <;> cases hhear
    cases ho
    exact .inl ⟨m, hanswer⟩
  notFound := by
    rintro m w r e rfl hr hanswer he o ho
    cases hr
    cases ho
    exact .inr ⟨rfl, m, e, hanswer, he⟩
  fails := by
    intro e he o ho
    cases e with
    | notFound host => exact absurd rfl (he host)
    | nonRetryable host cause => cases ho
    | exhausted n last => cases ho
    | cancelled => cases ho

/-- A check of one token keeps asking about it. -/
theorem keeps_check (i : Identity) (known : Option Token) :
    check.Keeps answers (fun _ w => w = (i, known))
      (fun r => ∀ v, Failover.verdictOf r = .ok v → answers.Judges i known v) where
  asks _ := ⟨_, rfl⟩
  goesOn := by
    intro m w r reply w' _ _ _ hhear
    cases reply <;> cases hhear
  ends := by
    rintro m w r reply v rfl hr hanswer hhear v' hv
    cases hr
    cases reply <;> cases hhear
    cases hv
    exact .inl ⟨m, hanswer⟩
  notFound := by
    rintro m w r e rfl hr hanswer he v hv
    cases hr
    cases hv
    exact .inr ⟨rfl, m, e, hanswer, he⟩
  fails := by
    intro e he v hv
    cases e with
    | notFound host => exact absurd rfl (he host)
    | nonRetryable host cause => cases hv
    | exhausted n last => cases hv
    | cancelled => cases hv

/-- A listing goes on from page to page, and ends with all that it has collected. -/
theorem keeps_list (selectors : List Selector) :
    list.Keeps answers (fun id l => answers.Lists id selectors l ∧ l.isDone = false)
      (fun r => ∀ listed m, r = .ok (listed, m) → answers.Brings selectors listed) where
  asks := by
    rintro id l ⟨-, hl⟩
    cases hs : l.selectors with
    | nil => simp [Listing.isDone, hs] at hl
    | cons s rest => exact ⟨.page s l.continuation, by simp [list, hs]⟩
  goesOn := by
    rintro m l r reply l' ⟨hl, -⟩ hr hanswer hhear
    obtain ⟨s, hs, rfl⟩ := Option.map_eq_some_iff.1 hr
    cases reply with
    | page page =>
      simp only [list, Option.some.injEq] at hhear
      split at hhear
      · cases hhear
      · next hdone =>
        cases hhear
        exact ⟨.page hl hs rfl hanswer, by simpa using hdone⟩
    | setting o => cases hhear
    | verdict v => cases hhear
  ends := by
    rintro m l r reply v ⟨hl, -⟩ hr hanswer hhear listed m' hlisted
    obtain ⟨s, hs, rfl⟩ := Option.map_eq_some_iff.1 hr
    cases hlisted
    cases reply with
    | page page =>
      simp only [list, Option.some.injEq] at hhear
      split at hhear
      · next hdone =>
        cases hhear
        exact ⟨_, _, .page hl hs rfl hanswer, hdone, rfl⟩
      · cases hhear
    | setting o => cases hhear
    | verdict v => cases hhear
  notFound := nofun
  fails := nofun

end Conversation

namespace Provider

/-- A read starts with the name that it asks for. -/
theorem every_openFetch (p : Provider) (answers : Replies) (i : Identity) (cancelled : Bool) :
    (p.openCall .fetch i cancelled).2.Every (fun _ j => j = i)
      (fun r => ∀ o, Failover.settingOf r = .ok o → answers.Reads i o) := by
  refine p.every_openCall (Conversation.keeps_fetch answers i) cancelled (fun _ _ => rfl) ?_
  intro m v hout
  cases hout

/-- A check starts with the token that it asks about. -/
theorem every_openCheck (p : Provider) (answers : Replies) (i : Identity) (known : Option Token)
    (cancelled : Bool) :
    (p.openCall .check (i, known) cancelled).2.Every (fun _ w => w = (i, known))
      (fun r => ∀ v, Failover.verdictOf r = .ok v → answers.Judges i known v) := by
  refine p.every_openCall (Conversation.keeps_check answers i known) cancelled (fun _ _ => rfl) ?_
  intro m v hout
  cases hout

/-- A listing starts with nothing collected, and ends at once where no selector is left. -/
theorem every_openList (p : Provider) (answers : Replies) (selectors : List Selector)
    (cancelled : Bool) :
    (p.openCall .list (Listing.start selectors) cancelled).2.Every
      (fun id l => answers.Lists id selectors l ∧ l.isDone = false)
      (fun r => ∀ listed m, r = .ok (listed, m) → answers.Brings selectors listed) := by
  refine p.every_openCall (Conversation.keeps_list answers selectors) cancelled ?_ ?_
  · intro hout id
    refine ⟨.start, ?_⟩
    simpa [Conversation.list] using hout
  · intro m v hout listed m' hlisted
    cases hlisted
    simp only [Conversation.list] at hout
    split at hout
    · next hdone =>
      cases hout
      exact ⟨m.id, _, .start, hdone, rfl⟩
    · cases hout

end Provider

end ReplicatedConfig
