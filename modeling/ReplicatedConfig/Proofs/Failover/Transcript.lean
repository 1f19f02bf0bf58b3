import ReplicatedConfig.Proofs.Failover.Execution
import ReplicatedConfig.Proofs.Failover.Paging

/-!
# What a listing has heard from each replica

Several replicas may be at work on one listing at the same time, each some pages further than
the other, and any of them may fail at any page.  `Talk` keeps, beside a run of the call, every
page and every error that the call has taken, with the replica that sent it and the request that
it replies to, in the order in which they came.

## The invariant

`Attends` ties what has been heard to the attempts of the call.  An attempt in flight has said
what some reading says and keeps the listing of that reading; one that has ended has said that
and a last error (`Explains`); a replica without an attempt has said nothing.  A reply concerns
one attempt only, because no two of them are at one replica (`Account.nodup_ids`), so every step
changes one transcript and leaves the others.

## What a caller may rely on

`Talk.Faithful` says it without attempts: each replica's transcript is a reading of its own, from
the first page of the first selector on, and the settings that the call returns are those of one
complete reading.
-/

namespace ReplicatedConfig

/-- A replica's reply to the request for a page. -/
structure Exchange where
  member : Member
  request : Request
  reply : Except StoreError Page

/-- What a replica has been asked, with its replies. -/
def saidBy (heard : List Exchange) (id : Nat) : List (Request × Except StoreError Page) :=
  (heard.filter (·.member.id = id)).map fun x => (x.request, x.reply)

section SaidBy

variable {heard : List Exchange} {x : Exchange} {id : Nat}

theorem saidBy_concat_self (h : x.member.id = id) :
    saidBy (heard ++ [x]) id = saidBy heard id ++ [(x.request, x.reply)] := by
  simp [saidBy, h]

theorem saidBy_concat_of_ne (h : x.member.id ≠ id) :
    saidBy (heard ++ [x]) id = saidBy heard id := by
  simp [saidBy, h]

end SaidBy

/-! ## Runs of a listing with what is heard -/

/-- The page or the error in a reply to a listing; nothing where the reply does not fit. -/
def Reply.page? : Except StoreError Reply → Option (Except StoreError Page)
  | .ok (.page p) => some (.ok p)
  | .ok _ => none
  | .error e => some (.error e)

/-- What a listing hears if an input reaches it: a reply to a request that it waits for. -/
def Call.exchange? (c : Call Listing) : Input → Option Exchange
  | .answered ticket reply =>
    ((c.outstanding .list).find? (·.ticket = ticket)).bind fun o =>
      (Reply.page? reply).map fun r => ⟨o.member, o.request, r⟩
  | _ => none

/-- A listing, and all that it has heard. -/
structure Talk where
  execution : Execution Listing (List Setting)
  heard : List Exchange

namespace Talk

/-- A listing that has just been started. -/
def start (selectors : List Selector) (p : Provider) (givenUp : Bool) : Talk :=
  ⟨.start .list (.start selectors) p givenUp, []⟩

/-- Something reaches the listing. -/
def next (t : Talk) (p : Provider) (i : Input) : Talk where
  execution := t.execution.next .list p i
  heard := t.heard ++
    match t.execution.progress with
    | .waiting c => (c.exchange? i).toList
    | .returned _ => []

/-- A run of the listing. -/
def run (t : Talk) (moments : List (Provider × Input)) : Talk :=
  moments.foldl (fun t (p, i) => t.next p i) t

/-- Listening changes nothing. -/
theorem execution_run (t : Talk) (moments : List (Provider × Input)) :
    (t.run moments).execution = t.execution.run .list moments := by
  induction moments generalizing t with
  | nil => rfl
  | cons moment rest ih => exact ih (t.next moment.1 moment.2)

end Talk

/-! ## Transcripts and attempts -/

section Attends

variable {selectors : List Selector} {heard : List Exchange} {c : Call Listing}
  {log : List (Completion (List Setting))} {a : Attempt Listing} {now : Instant}

/-- Whether a transcript explains how its attempt has ended: with all settings of a complete
reading, or with the error that came in reply to the request that was due. -/
def Explains (selectors : List Selector) (said : List (Request × Except StoreError Page)) :
    Except StoreError (List Setting) → Prop
  | .ok items => ∃ r : Reading, r.Fits selectors ∧ r.IsComplete selectors ∧
      said = r.said selectors ∧ items = r.items
  | .error e => ∃ (r : Reading) (request : Request), r.Fits selectors ∧
      r.next? selectors = some request ∧ said = r.said selectors ++ [(request, .error e)]

/-- Whether an attempt has come as far as a transcript, with a page still to ask for. -/
def Follows (selectors : List Selector) (said : List (Request × Except StoreError Page))
    (l : Listing) : Prop :=
  ∃ r : Reading, r.Fits selectors ∧ r.whole.length < selectors.length ∧
    said = r.said selectors ∧ l = r.listing selectors

/-- What has been heard from whom, told by what has become of the attempts. -/
structure Attends (selectors : List Selector) (heard : List Exchange)
    (log : List (Completion (List Setting))) (c : Call Listing) : Prop where
  fresh : c.fresh = .start selectors
  inFlight : ∀ a ∈ c.inFlight, Follows selectors (saidBy heard a.member.id) a.work
  ended : ∀ x ∈ log, Explains selectors (saidBy heard x.member.id) x.result
  silent : ∀ id, (∀ a ∈ c.inFlight, a.member.id ≠ id) → (∀ x ∈ log, x.member.id ≠ id) →
    saidBy heard id = []

/-- The numbers of the members of a call's attempts and of its candidates are apart. -/
def Call.Numbered (log : List (Completion (List Setting))) (c : Call Listing) : Prop :=
  (log.map (·.member.id) ++ c.inFlight.map (·.member.id) ++ c.pending.map (·.id)).Nodup

/-- So they are after an attempt has ended. -/
theorem Call.Numbered.drop (h : Call.Numbered log c) (ha : a ∈ c.inFlight)
    {result : Except StoreError (List Setting)} {e : Option StoreError} :
    Call.Numbered (log ++ [⟨a.member, result⟩]) { c.drop a.member.id with lastError := e } := by
  have hids : (c.inFlight.map (·.member.id)).Nodup :=
    (List.nodup_append.1 (List.nodup_append.1 h).1).2.1
  have hperm : (c.inFlight.map (·.member.id)).Perm
      (a.member.id :: (c.drop a.member.id).inFlight.map (·.member.id)) := by
    have hmembers := (Call.perm_map_member_filter ha hids).map (·.id)
    rwa [List.map_map, List.map_cons, List.map_map] at hmembers
  have hall : (log.map (·.member.id) ++ (a.member.id :: (c.drop a.member.id).inFlight.map
      (·.member.id)) ++ c.pending.map (·.id)).Nodup :=
    ((hperm.append_left _).append_right _).nodup_iff.1 h
  unfold Call.Numbered
  rw [List.map_append, List.append_assoc (log.map _)]
  exact hall

theorem Call.Numbered.ne_of_mem_log (h : Call.Numbered log c) (ha : a ∈ c.inFlight)
    {x : Completion (List Setting)} (hx : x ∈ log) : a.member.id ≠ x.member.id := fun hid =>
  (List.nodup_append.1 (List.nodup_append.1 h).1).2.2 _ (List.mem_map_of_mem hx) _
    (List.mem_map_of_mem ha) hid.symm

/-- The next candidate starts, and has said nothing. -/
theorem Attends.launchNext (h : Attends selectors heard log c) (ids : Call.Numbered log c)
    (busy : selectors ≠ []) (now : Instant) : Attends selectors heard log (c.launchNext now) := by
  cases hpending : c.pending with
  | nil => rwa [Call.launchNext_nil c now hpending]
  | cons m rest =>
    have happart := (List.nodup_append.1 ids).2.2
    have hm : m.id ∈ c.pending.map (·.id) :=
      List.mem_map_of_mem (hpending ▸ List.mem_cons_self)
    have hsilent : saidBy heard m.id = [] :=
      h.silent m.id
        (fun a ha => happart _ (List.mem_append_right _ (List.mem_map_of_mem ha)) _ hm)
        (fun x hx => happart _ (List.mem_append_left _ (List.mem_map_of_mem hx)) _ hm)
    simp only [Call.launchNext, hpending]
    refine ⟨h.fresh, fun a ha => ?_, h.ended, fun id hflight hlog => ?_⟩
    · rcases List.mem_append.1 ha with ha | ha
      · exact h.inFlight a ha
      · rw [List.mem_singleton.1 ha, h.fresh]
        exact ⟨.empty, Reading.fits_empty selectors, List.length_pos_of_ne_nil busy,
          by rw [hsilent, Reading.said_empty], rfl⟩
    · exact h.silent id (fun a ha => hflight a (List.mem_append_left _ ha)) hlog

/-- An attempt ends with a reply that explains how. -/
theorem Attends.complete (h : Attends selectors heard log c) (ids : Call.Numbered log c)
    (ha : a ∈ c.inFlight) {request : Request} {reply : Except StoreError Page}
    {result : Except StoreError (List Setting)}
    (explains : Explains selectors (saidBy heard a.member.id ++ [(request, reply)]) result)
    {d : Call Listing} (fresh : d.fresh = c.fresh)
    (inFlight : d.inFlight = c.inFlight.filter (·.member.id ≠ a.member.id)) :
    Attends selectors (heard ++ [⟨a.member, request, reply⟩]) (log ++ [⟨a.member, result⟩]) d := by
  refine ⟨fresh.trans h.fresh, fun b hb => ?_, fun x hx => ?_, fun id hflight hlog => ?_⟩
  · rw [inFlight, List.mem_filter, decide_eq_true_eq] at hb
    rw [saidBy_concat_of_ne (Ne.symm hb.2)]
    exact h.inFlight b hb.1
  · rcases List.mem_append.1 hx with hx | hx
    · rw [saidBy_concat_of_ne (ids.ne_of_mem_log ha hx)]
      exact h.ended x hx
    · rw [List.mem_singleton.1 hx, saidBy_concat_self rfl]
      exact explains
  · have hid : a.member.id ≠ id := hlog _ (List.mem_append_right _ List.mem_cons_self)
    rw [saidBy_concat_of_ne hid]
    refine h.silent id (fun b hb => ?_) fun x hx => hlog x (List.mem_append_left _ hx)
    by_cases hb' : b.member.id = a.member.id
    · exact hb' ▸ hid
    · exact hflight b (inFlight ▸ List.mem_filter.2 ⟨hb, decide_eq_true hb'⟩)

/-- An attempt goes on after a page. -/
theorem Attends.goOn (h : Attends selectors heard log c) (ids : Call.Numbered log c)
    (ha : a ∈ c.inFlight) {request : Request} {reply : Except StoreError Page} {work : Listing}
    (follows : Follows selectors (saidBy heard a.member.id ++ [(request, reply)]) work) :
    Attends selectors (heard ++ [⟨a.member, request, reply⟩]) log
      (c.continueWith a.member.id work) := by
  have hmembers : (c.continueWith a.member.id work).inFlight.map (·.member) =
      c.inFlight.map (·.member) := (c.sameAttempts_continueWith a.member.id work).inFlight
  refine ⟨h.fresh, fun b hb => ?_, fun x hx => ?_, fun id hflight hlog => ?_⟩
  · obtain ⟨b', hb', rfl⟩ := List.mem_map.1 hb
    by_cases hid : b'.member.id = a.member.id
    · rw [if_pos hid, saidBy_concat_self hid.symm, hid]
      exact follows
    · rw [if_neg hid, saidBy_concat_of_ne (Ne.symm hid)]
      exact h.inFlight b' hb'
  · rw [saidBy_concat_of_ne (ids.ne_of_mem_log ha hx)]
    exact h.ended x hx
  · have hall : ∀ b ∈ c.inFlight, b.member.id ≠ id := fun b hb => by
      have hb' : b.member ∈ (c.continueWith a.member.id work).inFlight.map (·.member) :=
        hmembers ▸ List.mem_map_of_mem hb
      obtain ⟨b', hb', heq⟩ := List.mem_map.1 hb'
      exact heq ▸ hflight b' hb'
    rw [saidBy_concat_of_ne (hall a ha)]
    exact h.silent id hall hlog

/-! ## What a reply does -/

/-- An attempt with a page to ask for asks for it. -/
theorem Follows.asks {said : List (Request × Except StoreError Page)} {l : Listing}
    (h : Follows selectors said l) : ∃ request, Conversation.list.ask l = some request := by
  obtain ⟨r, -, hmore, -, rfl⟩ := h
  obtain ⟨s, -, hnext⟩ := Reading.exists_next? hmore
  exact ⟨_, (Reading.ask_listing selectors r).trans hnext⟩

/-- What a ticket stands for is what its attempt asks. -/
theorem Attends.find?_outstanding (h : Attends selectors heard log c) (ticket : Ticket) :
    (c.outstanding .list).find? (·.ticket = ticket) =
      (c.inFlight.find? fun a => c.ticket .list a = ticket).bind fun a =>
        (Conversation.list.ask a.work).map (⟨c.ticket .list a, a.member, ·⟩) := by
  have asks : ∀ a ∈ c.inFlight, ∃ r, Conversation.list.ask a.work = some r :=
    fun a ha => (h.inFlight a ha).asks
  unfold Call.outstanding
  generalize c.inFlight = flight at asks
  induction flight with
  | nil => rfl
  | cons a rest ih =>
    obtain ⟨r, hr⟩ := asks a List.mem_cons_self
    have ih := ih fun b hb => asks b (List.mem_cons_of_mem _ hb)
    rw [List.filterMap_cons, hr, Option.map_some]
    by_cases hticket : c.ticket .list a = ticket
    · rw [List.find?_cons_of_pos (by simpa using hticket),
        List.find?_cons_of_pos (by simpa using hticket), Option.bind_some, hr, Option.map_some]
    · rw [List.find?_cons_of_neg (by simpa using hticket),
        List.find?_cons_of_neg (by simpa using hticket)]
      exact ih

section Reply

variable {said : List (Request × Except StoreError Page)} {l : Listing} {request : Request}

/-- An error in reply to what an attempt asks explains its end. -/
theorem Follows.refused (h : Follows selectors said l)
    (hask : Conversation.list.ask l = some request) (e : StoreError) :
    Explains selectors (said ++ [(request, .error e)]) (.error e) := by
  obtain ⟨r, hfits, -, rfl, rfl⟩ := h
  rw [Reading.ask_listing] at hask
  exact ⟨r, request, hfits, hask, rfl⟩

/-- A page in reply to what an attempt asks belongs to its reading. -/
theorem Reading.said_receive_of_ask {r : Reading} (more : r.whole.length < selectors.length)
    (hask : Conversation.list.ask (r.listing selectors) = some request) (p : Page) :
    (r.receive p).said selectors = r.said selectors ++ [(request, .ok p)] := by
  obtain ⟨s, hs, hnext⟩ := Reading.exists_next? more
  rw [Reading.ask_listing, hnext, Option.some.injEq] at hask
  rw [Reading.said_receive hs, hask]

/-- The last page explains that an attempt has ended, and with which settings. -/
theorem Follows.brought (h : Follows selectors said l)
    (hask : Conversation.list.ask l = some request) {p : Page} (done : (l.receive p).isDone = true) :
    Explains selectors (said ++ [(request, .ok p)]) (.ok (l.receive p).collected) := by
  obtain ⟨r, hfits, hmore, rfl, rfl⟩ := h
  refine ⟨r.receive p, hfits.receive hmore p, hfits.isComplete_receive hmore done, ?_, ?_⟩
  · exact (Reading.said_receive_of_ask hmore hask p).symm
  · rw [Reading.listing_receive]
    rfl

/-- Any other page takes an attempt on. -/
theorem Follows.next (h : Follows selectors said l)
    (hask : Conversation.list.ask l = some request) {p : Page} (more : (l.receive p).isDone ≠ true) :
    Follows selectors (said ++ [(request, .ok p)]) (l.receive p) := by
  obtain ⟨r, hfits, hmore, rfl, rfl⟩ := h
  rw [Reading.listing_receive] at more ⊢
  refine ⟨r.receive p, hfits.receive hmore p, ?_, ?_, rfl⟩
  · exact Nat.lt_of_not_le fun hle => more (Reading.isDone_listing.2 hle)
  · exact (Reading.said_receive_of_ask hmore hask p).symm

end Reply

/-- A call goes on after a failed attempt, or returns an error. -/
theorem Call.complete_error_cases (c : Call Listing) (m : Member) (e : StoreError) (now : Instant) :
    (∃ cause, (c.complete m (.error e : Except StoreError (List Setting)) now).progress =
        .returned (.error cause)) ∨
      (c.complete m (.error e : Except StoreError (List Setting)) now).progress =
        .waiting ({ c.drop m.id with lastError := some e }.launchNext now) := by
  cases he : e.failureClass with
  | retryable =>
    simp only [Call.complete, he, Call.proceed]
    split
    · exact .inl ⟨_, rfl⟩
    · exact .inr rfl
  | notFound => exact .inl ⟨.notFound m.endpoint.text, by simp only [Call.complete, he]⟩
  | nonRetryable => exact .inl ⟨.nonRetryable m.endpoint.text e, by simp only [Call.complete, he]⟩
  | cancelled => exact .inl ⟨.cancelled, by simp only [Call.complete, he]⟩

end Attends

/-! ## Every event keeps it so -/

namespace Talk

/-- How a listing stands after any run. -/
inductive Stands (selectors : List Selector) : Talk → Prop where
  | waiting (c : Call Listing) (log : List (Completion (List Setting))) (givenUp : Bool)
      (heard : List Exchange) (attends : Attends selectors heard log c) (busy : selectors ≠ []) :
      Stands selectors ⟨⟨.waiting c, log, givenUp⟩, heard⟩
  /-- What was under way when the call returned has stopped where it was. -/
  | returned (r : Except FailoverError (List Setting × Member)) (c : Call Listing)
      (log : List (Completion (List Setting))) (givenUp : Bool) (heard : List Exchange)
      (attends : Attends selectors heard log c)
      (brings : ∀ items m, r = .ok (items, m) → ⟨m, .ok items⟩ ∈ log) :
      Stands selectors ⟨⟨.returned r, log, givenUp⟩, heard⟩

variable {selectors : List Selector} {candidates : List Member} {t : Talk}

section Step

variable {c : Call Listing} {log : List (Completion (List Setting))} {givenUp : Bool}
  {heard : List Exchange}

/-- A listing that has failed brings nothing. -/
theorem stands_failed (attends : Attends selectors heard log c) (e : FailoverError) :
    Stands selectors ⟨⟨.returned (.error e), log, givenUp⟩, heard⟩ := by
  refine .returned _ c log givenUp heard attends fun items m hr => ?_
  cases hr

/-- An attempt fails. -/
theorem stands_refused (attends : Attends selectors heard log c) (busy : selectors ≠ [])
    (ids : Call.Numbered log c) {a : Attempt Listing} (ha : a ∈ c.inFlight) {request : Request}
    (hask : Conversation.list.ask a.work = some request) (e : StoreError) (now : Instant) :
    Stands selectors
      ⟨⟨(c.complete a.member (.error e : Except StoreError (List Setting)) now).progress,
        log ++ [⟨a.member, .error e⟩], givenUp⟩, heard ++ [⟨a.member, request, .error e⟩]⟩ := by
  have hends := attends.complete ids ha ((attends.inFlight a ha).refused hask e)
    (d := { c.drop a.member.id with lastError := some e }) rfl rfl
  rcases c.complete_error_cases a.member e now with ⟨cause, h⟩ | h
  · rw [h]
    exact stands_failed hends _
  · rw [h]
    exact .waiting _ _ _ _ (hends.launchNext (ids.drop ha) busy now) busy

/-- A reply reaches a listing that waits. -/
theorem stands_hear (attends : Attends selectors heard log c) (busy : selectors ≠ [])
    (ids : Call.Numbered log c) (ticket : Ticket) (reply : Except StoreError Reply) (p : Provider) :
    Stands selectors (next ⟨⟨.waiting c, log, givenUp⟩, heard⟩ p (.answered ticket reply)) := by
  have hfound := attends.find?_outstanding ticket
  show Stands selectors ⟨⟨(c.hear .list ticket reply p.now).progress,
    log ++ (c.endedBy? .list ticket reply).toList, false⟩,
    heard ++ (((c.outstanding .list).find? (·.ticket = ticket)).bind fun o =>
      (Reply.page? reply).map fun r => ⟨o.member, o.request, r⟩).toList⟩
  rw [hfound]
  unfold Call.hear Call.endedBy?
  cases hfind : c.inFlight.find? fun a => c.ticket .list a = ticket with
  | none =>
    simp only [Option.bind_none, Option.toList_none, List.append_nil]
    exact .waiting c log false heard attends busy
  | some a =>
    have ha := List.mem_of_find?_eq_some hfind
    obtain ⟨request, hask⟩ := (attends.inFlight a ha).asks
    simp only [Option.bind_some, hask, Option.map_some]
    cases reply with
    | error e => exact stands_refused attends busy ids ha hask e p.now
    | ok reply =>
      cases reply with
      | setting o =>
        show Stands selectors ⟨⟨.waiting c, log ++ [], false⟩, heard ++ []⟩
        rw [List.append_nil, List.append_nil]
        exact .waiting c log false heard attends busy
      | verdict v =>
        show Stands selectors ⟨⟨.waiting c, log ++ [], false⟩, heard ++ []⟩
        rw [List.append_nil, List.append_nil]
        exact .waiting c log false heard attends busy
      | page page =>
        by_cases hdone : (a.work.receive page).isDone = true
        · have hends := attends.complete ids ha ((attends.inFlight a ha).brought hask hdone)
            (d := c.drop a.member.id) rfl rfl
          simp only [Conversation.list, hdone, if_true]
          refine .returned _ _ _ _ _ hends fun items m hr => ?_
          cases hr
          exact List.mem_append_right _ List.mem_cons_self
        · have hgoes := attends.goOn ids ha ((attends.inFlight a ha).next hask hdone)
          simp only [Conversation.list, if_neg hdone, Option.toList_none, List.append_nil]
          exact .waiting _ log false _ hgoes busy

/-- **Every event leaves a listing standing.** -/
theorem stands_next (hids : (candidates.map (·.id)).Nodup)
    (hexecution : Execution.Stands candidates t.execution) (h : Stands selectors t) (p : Provider)
    (i : Input) : Stands selectors (t.next p i) := by
  cases h with
  | returned r c log givenUp heard attends brings =>
    show Stands selectors ⟨⟨.returned r, log, givenUp⟩, heard ++ []⟩
    rw [List.append_nil]
    exact .returned r c log givenUp heard attends brings
  | waiting c log givenUp heard attends busy =>
    have ids : Call.Numbered log c := by
      cases hexecution with
      | waiting c log account => exact account.nodup_ids hids
    have hstay (g : Bool) : Stands selectors ⟨⟨.waiting c, log ++ [], g⟩, heard ++ []⟩ := by
      rw [List.append_nil, List.append_nil]
      exact .waiting c log g heard attends busy
    cases i with
    | answered ticket reply => exact stands_hear attends busy ids ticket reply p
    | fallback serial =>
      show Stands selectors ⟨⟨(if serial = c.serial then p.take (c.fallBack p.now)
        else (p, .waiting c)).2, log ++ [], false⟩, heard ++ []⟩
      split
      · rcases c.fallBack_cases (α := List Setting) p.now with hback | hback <;> rw [hback]
        · rw [List.append_nil, List.append_nil]
          exact .waiting _ log false heard (attends.launchNext ids busy p.now) busy
        · exact hstay false
      · exact hstay false
    | cancelled =>
      show Stands selectors ⟨⟨.returned (.error .cancelled), log ++ [], true⟩, heard ++ []⟩
      rw [List.append_nil, List.append_nil]
      exact stands_failed attends _
    | resumed => exact hstay false
    | woke => exact hstay false

end Step

/-- Nobody has said anything before the first attempt. -/
theorem attends_idle {c : Call Listing} (fresh : c.fresh = .start selectors)
    (idle : c.inFlight = []) : Attends selectors [] [] c :=
  ⟨fresh, by simp [idle], nofun, fun _ _ _ => rfl⟩

/-- The first attempt starts, or there is nobody to ask or nothing to ask for. -/
theorem stands_opening {c : Call Listing} (fresh : c.fresh = .start selectors)
    (idle : c.inFlight = []) (ids : Call.Numbered [] c) (now : Instant) :
    Stands selectors ⟨⟨((c.launchNext now).opening .list now).progress,
      ((c.launchNext now).outright? .list).toList, false⟩, []⟩ := by
  have hidle := attends_idle fresh idle
  cases hpending : c.pending with
  | nil =>
    rw [Call.launchNext_nil c now hpending]
    simp only [Call.opening, Call.outright?, Call.proceed, idle, List.head?_nil, Option.bind_none,
      List.isEmpty_nil, if_true]
    exact stands_failed hidle _
  | cons m rest =>
    have hflight : (c.launchNext now).inFlight = [⟨m, .start selectors⟩] := by
      simp only [Call.launchNext, hpending, idle, fresh, List.nil_append]
    simp only [Call.opening, Call.outright?, hflight, List.head?_cons, Option.bind_some]
    by_cases hselectors : selectors = []
    · subst hselectors
      have hends : Attends [] [] [⟨m, .ok []⟩] c := by
        refine ⟨fresh, hidle.inFlight, fun x hx => ?_, fun _ _ _ => rfl⟩
        rw [List.mem_singleton.1 hx]
        exact ⟨.empty, Reading.fits_empty [], ⟨rfl, rfl⟩, rfl, rfl⟩
      refine .returned (.ok ([], m)) c _ false [] hends fun items m' hr => ?_
      cases hr
      exact List.mem_cons_self
    · have hout : Conversation.list.outright (.start selectors) = none := by
        simp [Conversation.list, Listing.isDone, Listing.start, hselectors]
      simp only [hout]
      exact .waiting _ _ false [] (hidle.launchNext ids hselectors now) hselectors

/-- A listing stands from the start. -/
theorem stands_start (selectors : List Selector) {p : Provider}
    (hids : ((p.pool.candidates p.now).map (·.id)).Nodup) (givenUp : Bool) :
    Stands selectors (start selectors p givenUp) := by
  -- The call before its first attempt has started.
  let idle : Call Listing := ⟨p.calls, p.failover.interval, p.pool.policy, .start selectors, [],
    p.pool.candidates p.now, [], p.now, none⟩
  cases givenUp with
  | true => exact stands_failed (attends_idle rfl rfl : Attends selectors [] [] idle) _
  | false =>
    have hnumbered : Call.Numbered [] idle := by simpa [Call.Numbered, idle] using hids
    exact stands_opening rfl rfl hnumbered p.now

/-- A listing stands after any run. -/
theorem stands_run (selectors : List Selector) {p : Provider} (hp : p.pool.Numbered)
    (hne : p.pool.members ≠ []) (givenUp : Bool) (moments : List (Provider × Input)) :
    Stands selectors ((start selectors p givenUp).run moments) := by
  have hids := hp.nodup_candidates p.now
  have hcandidates := Pool.candidates_ne_nil hne p.now
  have hexecution :
      Execution.Stands (p.pool.candidates p.now) (start selectors p givenUp).execution :=
    Execution.stands_start (k := .list) (.start selectors) p givenUp hcandidates
  have hstart := stands_start selectors hids givenUp
  generalize start selectors p givenUp = t at hexecution hstart
  induction moments generalizing t with
  | nil => exact hstart
  | cons moment rest ih =>
    exact ih _ (Execution.stands_next hids hexecution moment.1 moment.2)
      (stands_next hids hexecution hstart moment.1 moment.2)

/-! ## What a caller may rely on -/

/-- What holds of a listing over `candidates` at every moment. -/
structure Faithful (selectors : List Selector) (candidates : List Member) (t : Talk) : Prop where
  /-- Each candidate has been asked for the pages of a reading, from the first page of the first
  selector on, and for at most one page more that it could not bring: then its attempt ended with
  that error. -/
  read : ∀ m ∈ candidates, ∃ r : Reading, r.Fits selectors ∧
    (saidBy t.heard m.id = r.said selectors ∨ ∃ request e, r.next? selectors = some request ∧
      saidBy t.heard m.id = r.said selectors ++ [(request, .error e)] ∧
      ⟨m, .error e⟩ ∈ t.execution.completions)
  /-- An attempt that ended with an error did so at the page that was due. -/
  failed : ∀ m e, ⟨m, .error e⟩ ∈ t.execution.completions → ∃ (r : Reading) (request : Request),
    r.Fits selectors ∧ r.next? selectors = some request ∧
      saidBy t.heard m.id = r.said selectors ++ [(request, .error e)]
  /-- What is waited for is the page that is due; at a replica that has not been heard, the first
  page of the first selector. -/
  asks : ∀ c, t.execution.progress = .waiting c → ∀ o ∈ c.outstanding .list,
    (∃ r : Reading, r.Fits selectors ∧ saidBy t.heard o.member.id = r.said selectors ∧
      r.next? selectors = some o.request) ∧
    (saidBy t.heard o.member.id = [] → selectors.head?.map (.page · none) = some o.request)
  /-- What the call returns are the settings of all pages of one candidate. -/
  brings : ∀ items m, t.execution.progress = .returned (.ok (items, m)) → m ∈ candidates ∧
    ∃ r : Reading, r.Fits selectors ∧ r.IsComplete selectors ∧
      saidBy t.heard m.id = r.said selectors ∧ items = r.items

section Rely

variable {selectors : List Selector} {candidates : List Member} {heard : List Exchange}
  {c : Call Listing} {log : List (Completion (List Setting))}

/-- What a candidate has been asked is a reading, and at most one page more. -/
theorem read_of_attends (attends : Attends selectors heard log c)
    (hids : (candidates.map (·.id)).Nodup) (tried : ∀ x ∈ log, x.member ∈ candidates) {m : Member}
    (hm : m ∈ candidates) : ∃ r : Reading, r.Fits selectors ∧
      (saidBy heard m.id = r.said selectors ∨ ∃ request e, r.next? selectors = some request ∧
        saidBy heard m.id = r.said selectors ++ [(request, .error e)] ∧ ⟨m, .error e⟩ ∈ log) := by
  by_cases hflight : ∃ a ∈ c.inFlight, a.member.id = m.id
  · obtain ⟨a, ha, hid⟩ := hflight
    obtain ⟨r, hfits, -, hsaid, -⟩ := attends.inFlight a ha
    exact ⟨r, hfits, .inl (hid ▸ hsaid)⟩
  · by_cases hlog : ∃ x ∈ log, x.member.id = m.id
    · obtain ⟨⟨m', result⟩, hx, hid⟩ := hlog
      obtain rfl : m' = m := List.inj_on_of_nodup_map hids (tried _ hx) hm hid
      have hexplains := attends.ended _ hx
      cases result with
      | ok items =>
        obtain ⟨r, hfits, -, hsaid, -⟩ := hexplains
        exact ⟨r, hfits, .inl hsaid⟩
      | error e =>
        obtain ⟨r, request, hfits, hnext, hsaid⟩ := hexplains
        exact ⟨r, hfits, .inr ⟨request, e, hnext, hsaid, hx⟩⟩
    · refine ⟨.empty, Reading.fits_empty selectors, .inl ?_⟩
      rw [Reading.said_empty]
      exact attends.silent m.id (fun a ha hid => hflight ⟨a, ha, hid⟩)
        fun x hx hid => hlog ⟨x, hx, hid⟩

/-- What is waited for is the page that is due. -/
theorem asks_of_attends (attends : Attends selectors heard log c) {o : Outstanding}
    (ho : o ∈ c.outstanding .list) :
    (∃ r : Reading, r.Fits selectors ∧ saidBy heard o.member.id = r.said selectors ∧
      r.next? selectors = some o.request) ∧
    (saidBy heard o.member.id = [] → selectors.head?.map (.page · none) = some o.request) := by
  obtain ⟨a, ha, hasked⟩ := List.mem_filterMap.1 ho
  obtain ⟨request, hask, rfl⟩ := Option.map_eq_some_iff.1 hasked
  obtain ⟨r, hfits, hmore, hsaid, hwork⟩ := attends.inFlight a ha
  rw [hwork, Reading.ask_listing] at hask
  refine ⟨⟨r, hfits, hsaid, hask⟩, fun hsilent => ?_⟩
  obtain rfl := hfits.eq_empty hmore (hsaid.symm.trans hsilent)
  cases selectors with
  | nil => cases hask
  | cons s rest => exact hask

end Rely

/-- **A listing comes whole from one replica.**  Whatever the replicas reply, and however their
replies, timers and failures fall together, each replica is asked for the pages of the selectors
in order, each page with the continuation that its own last page gave; and a listing that
returns settings returns all of one replica's, and nothing that another one sent. -/
theorem faithful_run (selectors : List Selector) {p : Provider} (hp : p.pool.Numbered)
    (hne : p.pool.members ≠ []) (givenUp : Bool) (moments : List (Provider × Input)) :
    ((start selectors p givenUp).run moments).execution =
        (Execution.start .list (.start selectors) p givenUp).run .list moments ∧
      Faithful selectors (p.pool.candidates p.now) ((start selectors p givenUp).run moments) := by
  have hexecution := execution_run (start selectors p givenUp) moments
  refine ⟨hexecution, ?_⟩
  have hids := hp.nodup_candidates p.now
  have hlawful :=
    (Execution.stands_run .list (.start selectors) hp hne givenUp moments).lawful hids
  have hstands := stands_run selectors hp hne givenUp moments
  have htried : ∀ x ∈ ((start selectors p givenUp).run moments).execution.completions,
      x.member ∈ p.pool.candidates p.now := by
    intro x hx
    rw [hexecution] at hx
    exact hlawful.once.subset (List.mem_map_of_mem hx)
  generalize (start selectors p givenUp).run moments = t at hstands htried
  cases hstands with
  | waiting c log givenUp heard attends busy =>
    refine ⟨fun m hm => read_of_attends attends hids htried hm, fun m e hx => attends.ended _ hx,
      fun d hd o ho => ?_, nofun⟩
    cases hd
    exact asks_of_attends attends ho
  | returned r c log givenUp heard attends brings =>
    refine ⟨fun m hm => read_of_attends attends hids htried hm, fun m e hx => attends.ended _ hx,
      nofun, fun items m hr => ?_⟩
    cases hr
    have hx := brings items m rfl
    exact ⟨htried _ hx, attends.ended _ hx⟩

/-- A page with one setting that has no value. -/
def pageOf (key : String) (continuation : Option String) : Page :=
  ⟨[⟨key, none, none, none, ⟨"1"⟩⟩], continuation⟩

/-- A reply to a request of the first call of two replicas. -/
def reply (member step : Nat) (r : Except StoreError Page) : Provider × Input :=
  (.overHosts ["a", "b"], .answered ⟨0, member, step⟩ (r.map .page))

/-- The first replica brings one page and fails at the second; the other one brings all. -/
def startedOver : Talk :=
  (start [⟨"A*", none⟩, ⟨"B*", none⟩] (.overHosts ["a", "b"]) false).run
    [reply 0 0 (.ok (pageOf "A1" (some "x"))), reply 0 1 (.error .timeout),
      reply 1 0 (.ok (pageOf "A1" (some "y"))), reply 1 1 (.ok (pageOf "A2" none)),
      reply 1 2 (.ok (pageOf "B1" none))]

/-- The second replica is asked from the beginning, and nothing that the first one sent is
returned. -/
theorem faithful_startedOver : ∃ items m,
    startedOver.execution.progress = .returned (.ok (items, m)) ∧ m.id = 1 ∧
    items.map (·.key) = ["A1", "A2", "B1"] ∧
    saidBy startedOver.heard 0 = [(.page ⟨"A*", none⟩ none, .ok (pageOf "A1" (some "x"))),
      (.page ⟨"A*", none⟩ (some "x"), .error .timeout)] ∧
    ∃ r : Reading, r.IsComplete [⟨"A*", none⟩, ⟨"B*", none⟩] ∧
      saidBy startedOver.heard m.id = r.said [⟨"A*", none⟩, ⟨"B*", none⟩] ∧ items = r.items := by
  have hfaithful := (faithful_run [⟨"A*", none⟩, ⟨"B*", none⟩] (p := .overHosts ["a", "b"])
    (Pool.numbered_ofHosts ["a", "b"]) (List.cons_ne_nil _ _) false
    [reply 0 0 (.ok (pageOf "A1" (some "x"))), reply 0 1 (.error .timeout),
      reply 1 0 (.ok (pageOf "A1" (some "y"))), reply 1 1 (.ok (pageOf "A2" none)),
      reply 1 2 (.ok (pageOf "B1" none))]).2
  obtain ⟨-, r, -, hcomplete, hsaid, hitems⟩ := hfaithful.brings _ _ rfl
  exact ⟨_, _, rfl, rfl, rfl, rfl, r, hcomplete, hsaid, hitems⟩

end Talk

end ReplicatedConfig
