import ReplicatedConfig.Proofs.Failover.Origin
import ReplicatedConfig.Proofs.Refresh.Moves

/-!
# How a call is given up

A call ends as given up for two reasons: its caller has given up, or a replica replies so to a
request that the call waits for.  `Input.GivesUp` says this of an input and of what is waited for,
without a look into the call, and `drive_cancelled_iff` that there is no third reason.

That the caller has given up ends every call because a call that waits, waits for a reply
(`Call.Open`): it would have returned otherwise.  A call that is opened by a caller who has given
up already ends at once, and one that is opened by another caller never ends as given up in the
same step.
-/

namespace ReplicatedConfig

variable {σ α : Type}

/-- Whether an input gives up a request that is waited for. -/
def Input.GivesUp (waits : List Wait) : Input → Prop
  | .cancelled => ∃ o, Wait.reply o ∈ waits
  | .answered ticket (.error e) =>
    e.failureClass = .cancelled ∧ ∃ o, Wait.reply o ∈ waits ∧ o.ticket = ticket
  | _ => False

/-! ## Calls that wait -/

/-- An attempt of this conversation always asks for something. -/
def Conversation.Asks (k : Conversation σ α) : Prop :=
  k.Keeps (fun _ _ _ => True) (fun _ w => ∃ r, k.ask w = some r) (fun _ => True)

theorem Conversation.asks_fetch : Conversation.fetch.Asks where
  asks h := h
  goesOn _ _ _ _ := ⟨_, rfl⟩
  ends _ _ _ _ := trivial
  notFound _ _ _ _ := trivial
  fails _ := trivial

theorem Conversation.asks_check : Conversation.check.Asks where
  asks h := h
  goesOn _ _ _ _ := ⟨_, rfl⟩
  ends _ _ _ _ := trivial
  notFound _ _ _ _ := trivial
  fails _ := trivial

theorem Conversation.asks_list : Conversation.list.Asks where
  asks h := h
  goesOn {m w r reply w'} _ _ _ hhear := by
    cases reply with
    | setting s => cases hhear
    | verdict v => cases hhear
    | page page =>
      have hhear := Option.some.inj hhear
      split at hhear
      · cases hhear
      · next hdone =>
        cases hhear
        cases hselectors : (w.receive page).selectors with
        | nil => exact absurd (congrArg List.isEmpty hselectors) hdone
        | cons selector rest =>
          exact ⟨.page selector (w.receive page).continuation, by
            show ((w.receive page).selectors.head?.map _) = _
            rw [hselectors]
            rfl⟩
  ends _ _ _ _ := trivial
  notFound _ _ _ _ := trivial
  fails _ := trivial

/-- A call that waits has attempts under way, and all of them have asked for something. -/
structure Call.Open (k : Conversation σ α) (c : Call σ) : Prop where
  busy : c.inFlight ≠ []
  asking : c.Every fun _ w => ∃ r, k.ask w = some r

/-- A call that has not returned has attempts under way. -/
def Progress.Busy : Progress σ α → Prop
  | .waiting c => c.inFlight ≠ []
  | .returned _ => True

/-- All of them have asked for something. -/
def Progress.Open (k : Conversation σ α) : Progress σ α → Prop
  | .waiting c => c.Open k
  | .returned _ => True

namespace Call

variable {k : Conversation σ α} {c : Call σ}

/-- The requests that are waited for are those of the attempts under way. -/
theorem Open.exists_reply_iff (h : c.Open k) (ticket : Ticket) :
    (∃ o, Wait.reply o ∈ c.waits k ∧ o.ticket = ticket) ↔
      ∃ a ∈ c.inFlight, c.ticket k a = ticket := by
  constructor
  · rintro ⟨o, ho, rfl⟩
    rcases List.mem_append.1 ho with ho | ho
    · obtain ⟨o', ho', heq⟩ := List.mem_map.1 ho
      cases heq
      obtain ⟨a, ha, hasked⟩ := List.mem_filterMap.1 ho'
      obtain ⟨r, hr⟩ := h.asking.inFlight a ha
      rw [hr, Option.map_some] at hasked
      cases hasked
      exact ⟨a, ha, rfl⟩
    · cases hback : c.fallbackAt? with
      | none =>
        rw [hback] at ho
        cases ho
      | some time =>
        rw [hback] at ho
        cases List.mem_singleton.1 ho
  · rintro ⟨a, ha, hticket⟩
    obtain ⟨r, hr⟩ := h.asking.inFlight a ha
    exact ⟨_, reply_mem_waits ha hr, hticket⟩

theorem Open.exists_reply (h : c.Open k) : ∃ o, Wait.reply o ∈ c.waits k := by
  obtain ⟨a, ha⟩ := List.exists_mem_of_ne_nil _ h.busy
  obtain ⟨r, hr⟩ := h.asking.inFlight a ha
  exact ⟨_, reply_mem_waits ha hr⟩

theorem busy_proceed (c : Call σ) : (proceed c : Progress σ α).Busy := by
  rw [proceed]
  split
  · trivial
  · next h => exact fun hnil => h (by rw [hnil]; rfl)

theorem busy_complete (c : Call σ) (m : Member) (result : Except StoreError α) (now : Instant) :
    (c.complete m result now).progress.Busy := by
  cases result with
  | ok value => trivial
  | error e =>
    cases he : e.failureClass with
    | retryable =>
      simp only [complete, he]
      exact busy_proceed _
    | notFound => simp only [complete, he, Progress.Busy]
    | nonRetryable => simp only [complete, he, Progress.Busy]
    | cancelled => simp only [complete, he, Progress.Busy]

theorem busy_hear (h : c.inFlight ≠ []) (ticket : Ticket) (reply : Except StoreError Reply)
    (now : Instant) : (c.hear k ticket reply now).progress.Busy := by
  rcases c.hear_cases k ticket reply now with ⟨a, -, result, -, hhear⟩ | ⟨-, d, hhear, hsame⟩
  · rw [hhear]
    exact busy_complete c _ _ _
  · rw [hhear]
    refine fun hnil => h ?_
    rw [← List.map_eq_nil_iff (f := Attempt.member), ← hsame.inFlight, hnil, List.map_nil]

theorem busy_opening (c : Call σ) (k : Conversation σ α) (now : Instant) :
    (c.opening k now).progress.Busy := by
  unfold opening
  split
  · exact busy_proceed c
  · next a ha =>
    split
    · exact busy_complete c _ _ _
    · exact fun hnil => by
        rw [hnil] at ha
        cases ha

theorem proceed_ne_cancelled (c : Call σ) :
    (proceed c : Progress σ α) ≠ .returned (.error .cancelled) := by
  rw [proceed]
  split
  · exact nofun
  · exact nofun

/-- An attempt that fails gives up its call if its error says so. -/
theorem complete_cancelled_iff (c : Call σ) (m : Member) (e : StoreError) (now : Instant) :
    (c.complete m (.error e : Except StoreError α) now).progress = .returned (.error .cancelled) ↔
      e.failureClass = .cancelled := by
  cases he : e.failureClass with
  | retryable =>
    simp only [complete, he]
    exact iff_of_false (proceed_ne_cancelled _) (by decide)
  | notFound =>
    simp only [complete, he]
    exact iff_of_false (fun h => by cases h) (by decide)
  | nonRetryable =>
    simp only [complete, he]
    exact iff_of_false (fun h => by cases h) (by decide)
  | cancelled => simp only [complete, he]

theorem hear_cancelled_iff (h : c.Open k) (ticket : Ticket) (reply : Except StoreError Reply)
    (now : Instant) :
    (c.hear k ticket reply now).progress = .returned (.error .cancelled) ↔
      (Input.answered ticket reply).GivesUp (c.waits k) := by
  unfold hear
  cases reply with
  | ok r =>
    refine ⟨fun hend => ?_, nofun⟩
    split at hend
    · cases hend
    · next a _ =>
      dsimp only at hend
      split at hend
      · cases hend
      · cases hend
      · cases hend
  | error e =>
    rw [Input.GivesUp, h.exists_reply_iff]
    cases hfind : c.inFlight.find? fun a => c.ticket k a = ticket with
    | none =>
      refine ⟨nofun, fun ⟨_, a, ha, hticket⟩ => ?_⟩
      exact absurd (decide_eq_true hticket) (List.find?_eq_none.1 hfind a ha)
    | some a =>
      have hticket : c.ticket k a = ticket := by simpa using List.find?_some hfind
      dsimp only
      rw [complete_cancelled_iff]
      exact ⟨fun he => ⟨he, a, List.mem_of_find?_eq_some hfind, hticket⟩, And.left⟩

end Call

namespace Provider

variable {k : Conversation σ α} {c : Call σ}

theorem open_drive (p : Provider) (hk : k.Asks) (h : c.Open k) (i : Input) :
    (p.drive k c i).2.Open k := by
  have hevery := p.every_drive hk h.asking (i.admitted_any (c.waits k))
  have hbusy : (p.drive k c i).2.Busy := by
    cases i with
    | answered ticket reply => exact Call.busy_hear h.busy ticket reply p.now
    | fallback serial =>
      rw [drive]
      split
      · rcases c.fallBack_cases (α := α) p.now with hback | hback <;> simp only [take, hback]
        · exact Call.inFlight_launchNext_ne_nil h.busy
        · exact h.busy
      · exact h.busy
    | cancelled => trivial
    | resumed => exact h.busy
    | woke => exact h.busy
  cases hprogress : (p.drive k c i).2 with
  | waiting d =>
    rw [hprogress] at hevery hbusy
    exact ⟨hbusy, hevery⟩
  | returned r => trivial

theorem open_openCall (p : Provider) (hk : k.Asks) (fresh : σ) (cancelled : Bool)
    (hfresh : k.outright fresh = none → ∃ r, k.ask fresh = some r) :
    (p.openCall k fresh cancelled).2.Open k := by
  have hevery := p.every_openCall hk cancelled (fun hnone _ => hfresh hnone) fun _ _ _ => trivial
  have hbusy : (p.openCall k fresh cancelled).2.Busy := by
    rw [openCall]
    split
    · trivial
    · exact Call.busy_opening _ _ _
  cases hprogress : (p.openCall k fresh cancelled).2 with
  | waiting d =>
    rw [hprogress] at hevery hbusy
    exact ⟨hbusy, hevery⟩
  | returned r => trivial

/-! ## Calls that are given up -/

/-- **A call ends as given up** only if its caller has given up or a replica replies so. -/
theorem drive_cancelled_iff (p : Provider) (h : c.Open k) (i : Input) :
    (p.drive k c i).2 = .returned (.error .cancelled) ↔ i.GivesUp (c.waits k) := by
  cases i with
  | cancelled => exact ⟨fun _ => h.exists_reply, fun _ => rfl⟩
  | answered ticket reply => exact Call.hear_cancelled_iff h ticket reply p.now
  | fallback serial =>
    refine ⟨fun hend => ?_, False.elim⟩
    rw [drive] at hend
    split at hend
    · rcases c.fallBack_cases (α := α) p.now with hback | hback <;>
        simp only [take, hback] at hend <;> cases hend
    · cases hend
  | resumed => exact iff_of_false (fun h => by cases h) id
  | woke => exact iff_of_false (fun h => by cases h) id

/-- Also one that is opened ends so only if its caller has given up, and then at once. -/
theorem openCall_cancelled_iff (p : Provider) (k : Conversation σ α) (fresh : σ) (cancelled : Bool) :
    (p.openCall k fresh cancelled).2 = .returned (.error .cancelled) ↔ cancelled = true := by
  rw [openCall]
  split
  · next hgiven => exact ⟨fun _ => hgiven, fun _ => rfl⟩
  · next hnot =>
    refine ⟨fun hend => absurd hend ?_, fun hgiven => absurd hgiven hnot⟩
    show (Call.opening _ k p.now).progress ≠ _
    unfold Call.opening
    split
    · exact Call.proceed_ne_cancelled _
    · split
      · exact nofun
      · exact nofun

/-- A call that is opened is counted. -/
theorem calls_lt_openCall (p : Provider) (k : Conversation σ α) (fresh : σ) :
    p.calls < (p.openCall k fresh false).1.calls := by
  show p.calls < (take _ _).1.calls
  rw [calls_take]
  exact Nat.lt_succ_self _

end Provider
end ReplicatedConfig
