import ReplicatedConfig.Proofs.Refresh.Loading

/-!
# What a failed load leaves behind

A full load fails where the listing fails, where one of the watched keys cannot be read, where
an adapter refuses a setting in required mode, and wherever it is given up.  It may have come
far by then: all settings listed, some keys read, most adapters run.  None of that may show.

## What is compared

`Provider.Untouched` says that two providers hold and show the same, to the last token and
date: entries, snapshot, what subscribers have been told, watched keys.  The pool and the
counters are not part of it, since the calls of a load that fails are made all the same.

It also serves as what may happen elsewhere.  Another operation that loads or refreshes would
change the provider by itself, and then nothing could be said about the share of the load
that failed.

## From one load to all tries

A first load tries again after a pause, so it is a sequence of full loads.  `Startup.Comes`
keeps the run of the current one, from the provider that it has found, and what is known about
full loads then says what each try leaves for the next.
-/

namespace ReplicatedConfig

/-- What the provider holds and shows is the same. -/
structure Provider.Untouched (p q : Provider) : Prop where
  watchList : q.watchList = p.watchList
  materialized : q.materialized = p.materialized
  loaded : q.loaded = p.loaded
  publisher : q.publisher = p.publisher
  options : q.options = p.options
  pipeline : q.pipeline = p.pipeline

namespace Provider

variable {p q r : Provider}

theorem Untouched.refl (p : Provider) : p.Untouched p := ⟨rfl, rfl, rfl, rfl, rfl, rfl⟩

theorem Untouched.trans (hq : p.Untouched q) (hr : q.Untouched r) : p.Untouched r where
  watchList := hr.watchList.trans hq.watchList
  materialized := hr.materialized.trans hq.materialized
  loaded := hr.loaded.trans hq.loaded
  publisher := hr.publisher.trans hq.publisher
  options := hr.options.trans hq.options
  pipeline := hr.pipeline.trans hq.pipeline

/-- The lock may change hands. -/
theorem untouched_acquire (p : Provider) (me : TaskId) : p.Untouched (p.acquire me) :=
  ⟨rfl, rfl, rfl, rfl, rfl, rfl⟩

theorem untouched_release (p : Provider) (me : TaskId) : p.Untouched (p.release me) :=
  ⟨rfl, rfl, rfl, rfl, rfl, rfl⟩

theorem Called.untouched (h : p.Called q) : p.Untouched q :=
  ⟨h.watchList, h.materialized, h.loaded, h.publisher, h.options, h.pipeline⟩

theorem Untouched.sameRules (h : p.Untouched q) : p.SameRules q :=
  ⟨h.options, h.pipeline, congrArg WatchList.identities h.watchList⟩

end Provider

variable {answers : Replies} {p q : Provider} {me : TaskId} {cancelled : Bool}

/-! ## A full load -/

namespace Reload

/-- Of the steps of a full load, only its commit changes what the provider holds. -/
theorem Leads.untouched_or_committed {s : Stage Reload Unit} (h : Leads answers me p (q, s)) :
    s ≠ .finished (.ok ()) ∧ p.Untouched q ∨
      s = .finished (.ok ()) ∧ ∃ r entries, p.Called r ∧ Loads answers r entries ∧
        q = (commit me r r.watchList.identities.length entries).1 := by
  generalize hx : (q, s) = x at h
  cases h with
  | running r phase called sound =>
    cases hx
    exact .inl ⟨nofun, called.untouched⟩
  | failed r e called =>
    cases hx
    exact .inl ⟨nofun, called.untouched.trans (r.untouched_release me)⟩
  | committed r entries called loads =>
    cases hx
    exact .inr ⟨rfl, r, entries, called, loads, rfl⟩

/-- **Until it has succeeded, a full load has changed nothing**, and then it has published
once. -/
theorem untouched_or_published {s : Stage Reload Unit}
    (h : (stepping me).Runs answers Provider.Untouched (begin me cancelled p) (q, s)) :
    s ≠ .finished (.ok ()) ∧ p.Untouched q ∨
      s = .finished (.ok ()) ∧ q.loaded = true ∧
        q.publisher.current.version = p.publisher.current.version + 1 := by
  obtain ⟨p', hsame, hleads⟩ := leads_of_runs_within (p.untouched_acquire me) .trans
    Provider.Called.untouched Provider.Untouched.sameRules h
  rcases hleads.untouched_or_committed with ⟨hs, hq⟩ | ⟨hs, r, entries, hcalled, -, rfl⟩
  · exact .inl ⟨hs, hsame.trans hq⟩
  · refine .inr ⟨hs, rfl, ?_⟩
    rw [current_commit, hcalled.publisher, hsame.publisher]

end Reload

/-! ## All tries of a first load -/

namespace Startup

/-- The steps of a first load. -/
def stepping (me : TaskId) : Stepping Startup Unit where
  handle cancelled p s i := s.handle me cancelled p i
  waits p s :=
    match s.phase with
    | .inl r => r.waits me p
    | .inr time => [.sleep time]

/-- One of the tries, from a provider that the tries before it have left as it was. -/
def Tries (answers : Replies) (me : TaskId) (p q : Provider) (s : Stage Reload Unit) : Prop :=
  ∃ p' cancelled, p.Untouched p' ∧
    (Reload.stepping me).Runs answers Provider.Untouched (Reload.begin me cancelled p') (q, s)

/-- How far a first load may have come. -/
inductive Comes (answers : Replies) (me : TaskId) (p : Provider) : Step → Prop where
  | trying (q : Provider) (deadline : Instant) (tries : Nat) (r : Reload)
      (current : Tries answers me p q (.running r)) :
      Comes answers me p (q, .running ⟨deadline, tries, .inl r⟩)
  | pausing (q : Provider) (deadline : Instant) (tries : Nat) (wake : Instant)
      (same : p.Untouched q) : Comes answers me p (q, .running ⟨deadline, tries, .inr wake⟩)
  | succeeded (q : Provider) (last : Tries answers me p q (.finished (.ok ()))) :
      Comes answers me p (finish q (.ok ()))
  | failed (q : Provider) (e e' : ProviderError)
      (last : Tries answers me p q (.finished (.error e))) :
      Comes answers me p (finish q (.error e'))
  | givenUp (q : Provider) (same : p.Untouched q) : Comes answers me p (finish q (.error .cancelled))

theorem Tries.untouched {s : Stage Reload Unit} (h : Tries answers me p q s)
    (hs : s ≠ .finished (.ok ())) : p.Untouched q := by
  obtain ⟨p', cancelled, hsame, hrun⟩ := h
  rcases Reload.untouched_or_published hrun with ⟨-, hq⟩ | ⟨hs', -⟩
  · exact hsame.trans hq
  · exact absurd hs' hs

/-- A try that has come this far is under way, decides the load, or leaves it to another one. -/
theorem comes_tried {s : Stage Reload Unit} (h : Tries answers me p q s) (deadline : Instant)
    (tries : Nat) : Comes answers me p (tried q deadline tries s) := by
  cases s with
  | running r => exact .trying q deadline tries r h
  | finished result =>
    cases result with
    | ok u => exact .succeeded q h
    | error e =>
      rw [tried]
      split
      · dsimp only
        split
        · exact .failed q e _ h
        · exact .pausing q deadline tries _ (h.untouched nofun)
      · exact .failed q e e h

/-- A try may start once the tries before it have left the provider as it was. -/
theorem tries_begin (hq : p.Untouched q) (cancelled : Bool) :
    Tries answers me p (Reload.begin me cancelled q).1 (Reload.begin me cancelled q).2 :=
  ⟨q, cancelled, hq, .start⟩

theorem comes_handle {s : Startup} {i : Input} (h : Comes answers me p (q, .running s))
    {r : Provider} (moved : q.Untouched r) (cancelled : Bool)
    (admitted : i.Admitted answers ((stepping me).waits r s)) :
    Comes answers me p (s.handle me cancelled r i) := by
  generalize hx : ((q, .running s) : Step) = x at h
  cases h with
  | trying q deadline tries phase current =>
    cases hx
    obtain ⟨p', cancelled', hsame, hrun⟩ := current
    exact comes_tried ⟨p', cancelled', hsame, hrun.step moved cancelled admitted⟩ deadline tries
  | pausing q deadline tries wake same =>
    cases hx
    have hr := same.trans moved
    have hstay : Comes answers me p (r, .running ⟨deadline, tries, .inr wake⟩) :=
      .pausing r deadline tries wake hr
    cases i with
    | cancelled => exact .givenUp r hr
    | woke =>
      by_cases hwake : wake ≤ r.now
      · simp only [handle, if_pos hwake]
        exact comes_tried (tries_begin hr cancelled) deadline (tries + 1)
      · simp only [handle, if_neg hwake]
        exact hstay
    | answered ticket reply => exact hstay
    | fallback serial => exact hstay
    | resumed => exact hstay
  | succeeded q last => cases hx
  | failed q e e' last => cases hx
  | givenUp q same => cases hx

theorem comes_of_runs {x : Step}
    (h : (stepping me).Runs answers Provider.Untouched (begin me cancelled p) x) :
    Comes answers me p x := by
  induction h with
  | start => exact comes_tried (tries_begin (.refl p) cancelled) _ 1
  | step before moved cancelled admitted ih => exact comes_handle ih moved cancelled admitted

/-- A first load that ends without an error either has just published, or is optional and leaves
the provider as it was. -/
theorem Comes.of_ok (h : Comes answers me p (q, .finished (.ok ()))) :
    Tries answers me p q (.finished (.ok ())) ∨
      p.options.optional = true ∧ ∃ e, Tries answers me p q (.finished (.error e)) := by
  generalize hx : ((q, .finished (.ok ())) : Step) = x at h
  cases h with
  | trying q deadline tries phase current => cases hx
  | pausing q deadline tries wake same => cases hx
  | succeeded q last =>
    cases hx
    exact .inl last
  | failed r e e' last =>
    have hresult := congrArg Prod.snd hx
    rw [finish] at hx hresult
    dsimp only at hresult
    obtain rfl : q = r := congrArg Prod.fst hx
    split at hresult
    · next hoptional => exact .inr ⟨(last.untouched nofun).options ▸ hoptional.1, e, last⟩
    · cases hresult
  | givenUp r same =>
    have hresult := congrArg Prod.snd hx
    simp [finish, ProviderError.isCancelled] at hresult

/-- A first load that is under way, or ends with an error, leaves the provider as it was. -/
theorem Comes.untouched {s : Stage Startup Unit} (h : Comes answers me p (q, s))
    (hs : s ≠ .finished (.ok ())) : p.Untouched q := by
  generalize hx : (q, s) = x at h
  cases h with
  | trying q deadline tries phase current =>
    cases hx
    exact current.untouched nofun
  | pausing q deadline tries wake same =>
    cases hx
    exact same
  | succeeded q last =>
    cases hx
    exact absurd rfl hs
  | failed r e e' last =>
    obtain rfl : q = r := congrArg Prod.fst hx
    exact last.untouched nofun
  | givenUp r same =>
    obtain rfl : q = r := congrArg Prod.fst hx
    exact same

/-- **A load that fails leaves everything as it was.**  Whatever the store replies, and wherever
the load is given up: a full load that has not succeeded has changed nothing.  Neither has a first
load, over all its tries, that is under way or ends with an error; one that ends without an error
has published in its last try, or that try has failed, which only optional mode forgives, and
then it has changed nothing either. -/
theorem untouched_of_failed_load (answers : Replies) (p q : Provider) (me : TaskId)
    (cancelled : Bool) :
    (∀ s, (Reload.stepping me).Runs answers Provider.Untouched (Reload.begin me cancelled p) (q, s) →
      s ≠ .finished (.ok ()) → p.Untouched q) ∧
    (∀ s, (stepping me).Runs answers Provider.Untouched (begin me cancelled p) (q, s) →
      s ≠ .finished (.ok ()) → p.Untouched q) ∧
    ((stepping me).Runs answers Provider.Untouched (begin me cancelled p) (q, .finished (.ok ())) →
      ∃ result, Tries answers me p q (.finished result) ∧
        match result with
        | .ok () => q.publisher.current.version = p.publisher.current.version + 1
        | .error _ => p.options.optional = true ∧ p.Untouched q) := by
  refine ⟨fun s h hs => ?_, fun s h hs => (comes_of_runs h).untouched hs, fun h => ?_⟩
  · rcases Reload.untouched_or_published h with ⟨-, hq⟩ | ⟨hs', -⟩
    · exact hq
    · exact absurd hs' hs
  · rcases (comes_of_runs h).of_ok with hlast | ⟨hoptional, e, hlast⟩
    · refine ⟨.ok (), hlast, ?_⟩
      obtain ⟨p', cancelled', hsame, hrun⟩ := hlast
      rcases Reload.untouched_or_published hrun with ⟨hs, -⟩ | ⟨-, -, hversion⟩
      · exact absurd rfl hs
      · rw [hversion, hsame.publisher]
    · exact ⟨.error e, hlast, hoptional, hlast.untouched nofun⟩

/-- A provider in optional mode that watches two keys and lists nothing. -/
def watchingTwo : Provider :=
  .new (.ofHosts ["a"]) default
    ⟨[.new ⟨⟨"Color", none⟩, .ofSecs 1, false⟩ .start,
      .new ⟨⟨"Shape", none⟩, .ofSecs 1, false⟩ .start]⟩
    .empty ⟨[], true, .ofSecs 100⟩ .start

/-- A store that has one key and refuses to be asked for another one. -/
def refusing : List Wait → Input
  | .reply ⟨ticket, _, .fetch i⟩ :: _ =>
    .answered ticket
      (if i.key = "Color" then .ok (.setting (some ⟨"Color", none, some "blue", none, ⟨"1"⟩⟩))
      else .error (.http 403 "denied"))
  | _ => .resumed

/-- The provider when the load has ended. -/
def afterRefusal : Provider := ((stepping 0).play refusing 2 (begin 0 false watchingTwo)).1

/-- One key has been read when the other one cannot be: the load ends without an error, and
nothing has changed. -/
theorem untouched_of_failed_load_forbidden :
    (stepping 0).Runs (fun _ _ _ => True) Provider.Untouched (begin 0 false watchingTwo)
      (afterRefusal, .finished (.ok ())) ∧
    afterRefusal.metrics.attempts = [(("a", .success), 2), (("a", .failed .nonRetryable), 1)] ∧
    watchingTwo.Untouched afterRefusal := by
  have hrun : (stepping 0).Runs (fun _ _ _ => True) Provider.Untouched (begin 0 false watchingTwo)
      (afterRefusal, .finished (.ok ())) :=
    (stepping 0).runs_play .refl (fun waits => (refusing waits).admitted_any waits) 2 .start
  obtain ⟨-, -, hok⟩ := untouched_of_failed_load (fun _ _ _ => True) watchingTwo afterRefusal 0 false
  refine ⟨hrun, by decide +kernel, ?_⟩
  obtain ⟨result, -, hresult⟩ := hok hrun
  cases result with
  | ok u =>
    have hversion : afterRefusal.publisher.current.version
        ≠ watchingTwo.publisher.current.version + 1 := by decide +kernel
    exact absurd hresult hversion
  | error e => exact hresult.2

end Startup

end ReplicatedConfig
