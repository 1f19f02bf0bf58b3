import Mathlib.Data.List.Perm.Subperm
import ReplicatedConfig.Proofs.Pool.Numbering
import ReplicatedConfig.Provider

/-!
# The attempts of a call

A call launches attempts at its candidates one after the other.  Each attempt ends or is
dropped with the call; one that ended has a verdict on its call, unless it failed in a way
that another replica may mend.

`Account` tells the candidates of a call by what has become of each: those that have ended,
those in flight, and those not launched.  It holds when the call starts, and every event
that leaves the call waiting keeps it: a start moves a candidate from the last part to the
second, and a failure from the second to the first.  Members are told apart by number, so an
answer takes exactly one attempt out of flight.
-/

namespace ReplicatedConfig

variable {σ α : Type}

/-- An attempt has ended. -/
structure Completion (α : Type) where
  member : Member
  result : Except StoreError α

namespace Completion

/-- What an attempt that has ended makes of its call; nothing where another replica may
answer. -/
def verdict? (x : Completion α) : Option (Except FailoverError (α × Member)) :=
  match x.result with
  | .ok value => some (.ok (value, x.member))
  | .error e =>
    match e.failureClass with
    | .retryable => none
    | .notFound => some (.error (.notFound x.member.endpoint.text))
    | .nonRetryable => some (.error (.nonRetryable x.member.endpoint.text e))
    | .cancelled => some (.error .cancelled)

/-- An attempt without a verdict failed in a way that another replica may mend. -/
theorem verdict?_eq_none_iff {x : Completion α} :
    x.verdict? = none ↔ ∃ e, x.result = .error e ∧ e.isRetryable = true := by
  obtain ⟨m, e | value⟩ := x
  · simp only [verdict?, StoreError.isRetryable]
    cases he : e.failureClass <;> simp [he]
  · simp [verdict?]

/-- No attempt alone exhausts a call. -/
theorem verdict?_ne_exhausted {x : Completion α} {n : Nat} {e : StoreError} :
    x.verdict? ≠ some (.error (.exhausted n e)) := by
  obtain ⟨m, cause | value⟩ := x
  · simp only [verdict?]
    cases cause.failureClass <;> simp
  · simp [verdict?]

end Completion

/-! ## Which attempt an event ends -/

namespace Call

/-- The attempt that a reply ends, if it ends one. -/
def endedBy? (c : Call σ) (k : Conversation σ α) (ticket : Ticket)
    (reply : Except StoreError Reply) : Option (Completion α) :=
  match c.inFlight.find? fun a => c.ticket k a = ticket with
  | none => none
  | some a =>
    match reply with
    | .error e => some ⟨a.member, .error e⟩
    | .ok r =>
      match k.hear a.work r with
      | some (.inr value) => some ⟨a.member, .ok value⟩
      | _ => none

/-- The attempt that an input ends, if it ends one. -/
def ending? (c : Call σ) (k : Conversation σ α) : Input → Option (Completion α)
  | .answered ticket reply => c.endedBy? k ticket reply
  | _ => none

/-- The first attempt, if it ends without asking anything. -/
def outright? (c : Call σ) (k : Conversation σ α) : Option (Completion α) :=
  c.inFlight.head?.bind fun a => (k.outright a.work).map fun value => ⟨a.member, .ok value⟩

/-- An attempt with a verdict ends its call. -/
theorem progress_complete_of_verdict (c : Call σ) {x : Completion α} {now : Instant}
    {r : Except FailoverError (α × Member)} (h : x.verdict? = some r) :
    (c.complete x.member x.result now).progress = .returned r := by
  obtain ⟨m, e | value⟩ := x
  · simp only [Completion.verdict?] at h
    simp only [complete]
    cases he : e.failureClass <;> simp_all
  · simp only [Completion.verdict?, Option.some.injEq] at h
    rw [← h]
    rfl

/-- An attempt that another replica may mend makes the next candidate start. -/
theorem progress_complete_of_retryable (c : Call σ) (m : Member) {e : StoreError} {now : Instant}
    (h : e.isRetryable = true) :
    (c.complete m (.error e : Except StoreError α) now).progress =
      proceed ({ c.drop m.id with lastError := some e }.launchNext now) := by
  have he : e.failureClass = .retryable := by simpa [StoreError.isRetryable] using h
  simp only [complete, he]

/-- A call after an event that ends no attempt: its attempts may have got on with their
work. -/
structure SameAttempts (c d : Call σ) : Prop where
  launched : d.launched = c.launched
  pending : d.pending = c.pending
  inFlight : d.inFlight.map (·.member) = c.inFlight.map (·.member)
  lastError : d.lastError = c.lastError

theorem SameAttempts.refl (c : Call σ) : SameAttempts c c := ⟨rfl, rfl, rfl, rfl⟩

theorem sameAttempts_continueWith (c : Call σ) (member : Nat) (work : σ) :
    SameAttempts c (c.continueWith member work) := by
  refine ⟨rfl, rfl, ?_, rfl⟩
  simp only [continueWith, List.map_map]
  refine List.map_congr_left fun a _ => ?_
  show (if a.member.id = member then _ else a : Attempt σ).member = a.member
  split <;> rfl

/-- A reply either ends an attempt or leaves all of them where they are. -/
theorem hear_cases (c : Call σ) (k : Conversation σ α) (ticket : Ticket)
    (reply : Except StoreError Reply) (now : Instant) :
    (∃ a ∈ c.inFlight, ∃ result : Except StoreError α,
        c.endedBy? k ticket reply = some ⟨a.member, result⟩ ∧
        c.hear k ticket reply now = c.complete a.member result now) ∨
      (c.endedBy? k ticket reply = none ∧
        ∃ d, c.hear k ticket reply now = ⟨[], .waiting d⟩ ∧ SameAttempts c d) := by
  unfold hear endedBy?
  cases hfind : c.inFlight.find? fun a => c.ticket k a = ticket with
  | none => exact .inr ⟨rfl, c, rfl, .refl c⟩
  | some a =>
    have hmem := List.mem_of_find?_eq_some hfind
    cases reply with
    | error e => exact .inl ⟨a, hmem, .error e, rfl, rfl⟩
    | ok r =>
      cases hhear : k.hear a.work r with
      | none => exact .inr ⟨by simp only [hhear], c, by simp only [hhear], .refl c⟩
      | some o =>
        cases o with
        | inl work =>
          exact .inr ⟨by simp only [hhear], c.continueWith a.member.id work, by simp only [hhear],
            sameAttempts_continueWith c _ work⟩
        | inr value => exact .inl ⟨a, hmem, .ok value, by simp only [hhear], by simp only [hhear]⟩

/-! ## The account of a call -/

/-- The candidates of a call, told by what has become of each: those that have ended, as
`log` has them, those in flight, and those not launched.  Nothing in `log` has a verdict. -/
structure Account (candidates : List Member) (log : List (Completion α)) (c : Call σ) : Prop where
  order : c.launched ++ c.pending = candidates
  share : (log.map (·.member) ++ c.inFlight.map (·.member)).Perm c.launched
  undecided : ∀ x ∈ log, x.verdict? = none
  last : c.lastError.map .error = log.getLast?.map (·.result)

namespace Account

variable {candidates : List Member} {log : List (Completion α)} {c d : Call σ}

theorem of_sameAttempts (h : Account candidates log c) (hd : SameAttempts c d) :
    Account candidates log d := by
  refine ⟨?_, ?_, h.undecided, ?_⟩
  · rw [hd.launched, hd.pending, h.order]
  · rw [hd.inFlight, hd.launched]
    exact h.share
  · rw [hd.lastError, h.last]

theorem launchNext (h : Account candidates log c) (now : Instant) :
    Account candidates log (c.launchNext now) := by
  refine ⟨?_, ?_, h.undecided, ?_⟩
  · rw [launched_append_pending_launchNext, h.order]
  · unfold Call.launchNext
    split
    · exact h.share
    · simp only [List.map_append, List.map_cons, List.map_nil, ← List.append_assoc]
      exact h.share.append_right _
  · unfold Call.launchNext
    split <;> exact h.last

/-- What is launched is a beginning of the candidates. -/
theorem launched_prefix (h : Account candidates log c) : c.launched <+: candidates :=
  ⟨c.pending, h.order⟩

/-- Candidates are told apart by their numbers, whatever has become of them. -/
theorem nodup_ids (h : Account candidates log c) (hids : (candidates.map (·.id)).Nodup) :
    (log.map (·.member.id) ++ c.inFlight.map (·.member.id) ++ c.pending.map (·.id)).Nodup := by
  have hperm : (log.map (·.member) ++ c.inFlight.map (·.member) ++ c.pending).Perm candidates := by
    rw [← h.order]
    exact h.share.append_right c.pending
  have hall := (hperm.map (·.id)).nodup_iff.2 hids
  rwa [List.map_append, List.map_append, List.map_map, List.map_map] at hall

/-- So are attempts. -/
theorem nodup_inFlight (h : Account candidates log c) (hids : (candidates.map (·.id)).Nodup) :
    (c.inFlight.map (·.member.id)).Nodup :=
  (List.nodup_append.1 (List.nodup_append.1 (h.nodup_ids hids)).1).2.1

end Account

/-- Taking one attempt out leaves the others. -/
theorem perm_map_member_filter {as : List (Attempt σ)} {a : Attempt σ} (ha : a ∈ as)
    (hids : (as.map (·.member.id)).Nodup) :
    (as.map (·.member)).Perm
      (a.member :: (as.filter (·.member.id ≠ a.member.id)).map (·.member)) := by
  induction as with
  | nil => exact absurd ha List.not_mem_nil
  | cons b rest ih =>
    rw [List.map_cons, List.nodup_cons] at hids
    rcases List.mem_cons.1 ha with rfl | ha
    · have hrest : rest.filter (·.member.id ≠ a.member.id) = rest := by
        refine List.filter_eq_self.2 fun b hb => ?_
        refine decide_eq_true fun hid => hids.1 ?_
        exact List.mem_map.2 ⟨b, hb, hid⟩
      rw [List.filter_cons_of_neg (by simp), hrest, List.map_cons]
    · have hne : b.member.id ≠ a.member.id := fun hid =>
        hids.1 (hid ▸ List.mem_map.2 ⟨a, ha, rfl⟩)
      rw [List.filter_cons_of_pos (by simpa using hne), List.map_cons, List.map_cons]
      exact ((ih ha hids.2).cons _).trans (List.Perm.swap _ _ _)

/-- An attempt that another replica may mend moves from the flight to the log. -/
theorem Account.fail {candidates : List Member} {log : List (Completion α)} {c : Call σ}
    (h : Account candidates log c) (hids : (candidates.map (·.id)).Nodup) {a : Attempt σ}
    (ha : a ∈ c.inFlight) {e : StoreError} (he : e.isRetryable = true) :
    Account candidates (log ++ [⟨a.member, .error e⟩])
      { c.drop a.member.id with lastError := some e } := by
  refine ⟨h.order, ?_, ?_, ?_⟩
  · have hperm := perm_map_member_filter ha (h.nodup_inFlight hids)
    have hshare := (hperm.append_left (log.map (·.member))).symm.trans h.share
    rw [List.map_append, List.append_assoc]
    exact hshare
  · intro x hx
    rcases List.mem_append.1 hx with hx | hx
    · exact h.undecided x hx
    · rw [List.mem_singleton.1 hx]
      exact Completion.verdict?_eq_none_iff.2 ⟨e, rfl, he⟩
  · rw [List.getLast?_append, List.getLast?_singleton]
    rfl

/-- Where nothing is in flight after a start, no candidate is left. -/
theorem pending_launchNext_of_inFlight {c : Call σ} {now : Instant}
    (h : (c.launchNext now).inFlight = []) : (c.launchNext now).pending = [] := by
  unfold launchNext at h ⊢
  split at h
  · next hp => exact hp
  · exact absurd h (List.append_ne_nil_of_right_ne_nil _ (List.cons_ne_nil _ _))

/-- Starting an attempt leaves one in flight. -/
theorem inFlight_launchNext_ne_nil {c : Call σ} {now : Instant} (h : c.inFlight ≠ []) :
    (c.launchNext now).inFlight ≠ [] := by
  unfold launchNext
  split
  · exact h
  · exact List.append_ne_nil_of_right_ne_nil _ (List.cons_ne_nil _ _)

/-- The timer starts the next candidate or does nothing. -/
theorem fallBack_cases (c : Call σ) (now : Instant) :
    (c.fallBack now : Turn σ α) = ⟨[.fellBack], .waiting (c.launchNext now)⟩ ∨
      (c.fallBack now : Turn σ α) = ⟨[], .waiting c⟩ := by
  unfold fallBack
  split
  · split
    · exact .inl rfl
    · exact .inr rfl
  · exact .inr rfl

end Call

end ReplicatedConfig
