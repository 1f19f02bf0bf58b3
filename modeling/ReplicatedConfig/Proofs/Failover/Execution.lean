import ReplicatedConfig.Proofs.Failover.Account

/-!
# How a call over several replicas ends

A call meets answers, timers and its caller's giving up in any order.  An `Execution` is a
call together with the attempts of it that have ended so far, in the order in which they
ended, and with whether its caller gave it up.  Between two events the rest of the provider
may change in any way, so a run is a list of providers with what reaches the call there.

## What decides

The main statement, `lawful_run`, says of every run that the call stands where the first
verdict of its attempts puts it; that without a verdict it waits, with an attempt under way,
until every candidate has failed; and that it then reports the last failure.

The induction goes over the events.  `Stands` is its invariant: one case for each way in
which a call may stand, with the account of its candidates where it waits.
-/

namespace ReplicatedConfig

variable {σ α : Type}

/-! ## Runs of a call -/

/-- A call and what has happened to it. -/
structure Execution (σ α : Type) where
  progress : Progress σ α
  /-- The attempts that have ended, in order. -/
  completions : List (Completion α)
  /-- Whether the caller gave up before the call had returned. -/
  givenUp : Bool

/-- A provider over hosts of which none has failed, with nothing watched. -/
def Provider.overHosts (hosts : List String) : Provider :=
  .new (.ofHosts hosts) default .empty .empty default .start

/-- Whether an input is the caller's giving up. -/
def Input.givesUp : Input → Bool
  | .cancelled => true
  | _ => false

namespace Execution

/-- A call that has just been started. -/
def start (k : Conversation σ α) (fresh : σ) (p : Provider) (givenUp : Bool) : Execution σ α :=
  let call := Call.start p.calls p.failover.interval p.pool.policy (p.pool.candidates p.now) fresh p.now
  ⟨(p.openCall k fresh givenUp).2, if givenUp then [] else (call.outright? k).toList, givenUp⟩

/-- Something reaches the call, with the provider as it is then. -/
def next (k : Conversation σ α) (e : Execution σ α) (p : Provider) (i : Input) : Execution σ α :=
  match e.progress with
  | .returned _ => e
  | .waiting c => ⟨(p.drive k c i).2, e.completions ++ (c.ending? k i).toList, i.givesUp⟩

/-- A run of a call. -/
def run (k : Conversation σ α) (e : Execution σ α) (moments : List (Provider × Input)) :
    Execution σ α :=
  moments.foldl (fun e (p, i) => e.next k p i) e

/-- How a call stands after any run. -/
inductive Stands (candidates : List Member) : Execution σ α → Prop where
  /-- It waits, with an attempt under way, and nothing has decided it. -/
  | waiting (c : Call σ) (log : List (Completion α)) (account : Call.Account candidates log c)
      (busy : c.inFlight ≠ []) : Stands candidates ⟨.waiting c, log, false⟩
  /-- Its caller gave it up. -/
  | givenUp (log : List (Completion α)) (tried : (log.map (·.member)).Subperm candidates)
      (undecided : ∀ x ∈ log, x.verdict? = none) :
      Stands candidates ⟨.returned (.error .cancelled), log, true⟩
  /-- The last attempt that ended decided it, and none before. -/
  | decided (log : List (Completion α)) (x : Completion α) (r : Except FailoverError (α × Member))
      (tried : (log.map (·.member) ++ [x.member]).Subperm candidates)
      (undecided : ∀ y ∈ log, y.verdict? = none)
      (verdict : x.verdict? = some r) : Stands candidates ⟨.returned r, log ++ [x], false⟩
  /-- Every candidate has failed in a way that another one might have mended. -/
  | exhausted (log : List (Completion α)) (m : Member) (e : StoreError)
      (tried : ((log.map (·.member)) ++ [m]).Perm candidates)
      (undecided : ∀ x ∈ log, x.verdict? = none) (mended : e.isRetryable = true) :
      Stands candidates
        ⟨.returned (.error (.exhausted candidates.length e)), log ++ [⟨m, .error e⟩], false⟩

/-! ## Every event keeps it so -/

section Step

variable {k : Conversation σ α} {candidates : List Member}

/-- A call over at least one candidate stands from the start. -/
theorem stands_start (fresh : σ) (p : Provider) (givenUp : Bool)
    (hne : p.pool.candidates p.now ≠ []) :
    Stands (p.pool.candidates p.now) (start k fresh p givenUp) := by
  unfold start
  cases givenUp with
  | true => exact .givenUp [] List.nil_subperm fun x hx => absurd hx List.not_mem_nil
  | false =>
    obtain ⟨m, rest, hcandidates⟩ := List.exists_cons_of_ne_nil hne
    rw [hcandidates]
    simp only [Provider.openCall, hcandidates, Bool.false_eq_true, if_false, Provider.take,
      Call.start, Call.launchNext, Call.opening, Call.outright?, List.nil_append, List.head?_cons,
      Option.bind_some]
    cases houtright : k.outright fresh with
    | none =>
      refine .waiting _ [] ⟨rfl, List.Perm.refl _, fun x hx => absurd hx List.not_mem_nil, rfl⟩ ?_
      exact List.cons_ne_nil _ _
    | some value =>
      refine .decided [] ⟨m, .ok value⟩ _ ?_ (fun x hx => absurd hx List.not_mem_nil) rfl
      exact (List.Sublist.cons_cons m (List.nil_sublist rest)).subperm

/-- The attempts that have ended are candidates, each ended once. -/
theorem subperm_of_account {log : List (Completion α)} {c : Call σ}
    (h : Call.Account candidates log c) : (log.map (·.member)).Subperm candidates :=
  (List.sublist_append_left _ _).subperm.trans
    (h.share.subperm.trans h.launched_prefix.sublist.subperm)

/-- So is one more that ends. -/
theorem subperm_of_account_mem {log : List (Completion α)} {c : Call σ}
    (h : Call.Account candidates log c) (hids : (candidates.map (·.id)).Nodup) {a : Attempt σ}
    (ha : a ∈ c.inFlight) : (log.map (·.member) ++ [a.member]).Subperm candidates := by
  have hperm := Call.perm_map_member_filter ha (h.nodup_inFlight hids)
  have hshare := (hperm.append_left (log.map (·.member))).symm.trans h.share
  refine List.Subperm.trans ?_ (hshare.subperm.trans h.launched_prefix.sublist.subperm)
  refine (List.Sublist.append_left ?_ _).subperm
  exact List.Sublist.cons_cons _ (List.nil_sublist _)

/-- Going on after a failure: with an attempt in flight the call waits, and without one
every candidate has failed. -/
theorem stands_proceed {log : List (Completion α)} {m : Member} {e : StoreError} {c : Call σ}
    {now : Instant} (h : Call.Account candidates (log ++ [⟨m, .error e⟩]) c) :
    Stands candidates
      ⟨Call.proceed (c.launchNext now), log ++ [⟨m, (.error e : Except StoreError α)⟩], false⟩ := by
  have haccount := h.launchNext now
  unfold Call.proceed
  split
  · next hempty =>
    rw [List.isEmpty_iff] at hempty
    -- With nothing in flight behind a launch there was nobody left to launch.
    have hpending := Call.pending_launchNext_of_inFlight hempty
    have horder := haccount.order
    rw [hpending, List.append_nil] at horder
    have hshare := haccount.share
    rw [hempty, List.map_nil, List.append_nil, horder] at hshare
    have hlast := haccount.last
    rw [List.getLast?_append, List.getLast?_singleton] at hlast
    have hlast' : (c.launchNext now).lastError = some e := by
      cases hl : (c.launchNext now).lastError with
      | none => rw [hl] at hlast; cases hlast
      | some e' => rw [hl] at hlast; cases hlast; rfl
    have hexhausted : (c.launchNext now).exhausted = .exhausted candidates.length e := by
      rw [Call.exhausted, horder, hlast', Option.getD_some]
    rw [hexhausted]
    rw [List.map_append] at hshare
    obtain ⟨e', he', hmended⟩ := Completion.verdict?_eq_none_iff.1
      (haccount.undecided _ (List.mem_append_right _ List.mem_cons_self))
    cases he'
    exact .exhausted log m e hshare
      (fun x hx => haccount.undecided x (List.mem_append_left _ hx)) hmended
  · next hbusy => exact .waiting _ _ haccount fun h => hbusy (List.isEmpty_iff.2 h)

/-- **Every event leaves a call standing.** -/
theorem stands_next (hids : (candidates.map (·.id)).Nodup) {e : Execution σ α}
    (h : Stands candidates e) (p : Provider) (i : Input) : Stands candidates (e.next k p i) := by
  cases h with
  | givenUp log tried undecided => exact .givenUp log tried undecided
  | decided log x r tried undecided verdict => exact .decided log x r tried undecided verdict
  | exhausted log m e tried undecided mended => exact .exhausted log m e tried undecided mended
  | waiting c log account busy =>
    -- No attempt has ended, and at most what attempts work at differs.
    have hsame {d : Call σ} (hd : Call.SameAttempts c d) :
        Stands candidates ⟨.waiting d, log ++ [], false⟩ := by
      rw [List.append_nil]
      refine .waiting d log (account.of_sameAttempts hd) fun hflight => busy ?_
      have hmap := hd.inFlight
      rw [hflight, List.map_nil] at hmap
      exact List.map_eq_nil_iff.1 hmap.symm
    cases i with
    | answered ticket reply =>
      show Stands candidates ⟨(c.hear k ticket reply p.now).progress,
        log ++ (c.endedBy? k ticket reply).toList, false⟩
      rcases c.hear_cases k ticket reply p.now with
        ⟨a, ha, result, hended, hhear⟩ | ⟨hended, d, hhear, hd⟩
      · rw [hended, hhear, Option.toList_some]
        cases hverdict : (⟨a.member, result⟩ : Completion α).verdict? with
        | some r =>
          rw [c.progress_complete_of_verdict hverdict]
          exact .decided log _ r (subperm_of_account_mem account hids ha)
            account.undecided hverdict
        | none =>
          obtain ⟨e, rfl, he⟩ := Completion.verdict?_eq_none_iff.1 hverdict
          rw [c.progress_complete_of_retryable a.member he]
          exact stands_proceed (account.fail hids ha he)
      · rw [hended, hhear]
        exact hsame hd
    | fallback serial =>
      show Stands candidates ⟨(if serial = c.serial then p.take (c.fallBack p.now)
        else (p, (.waiting c : Progress σ α))).2, log ++ [], false⟩
      split
      · rcases c.fallBack_cases (α := α) p.now with hback | hback <;> rw [hback]
        · rw [List.append_nil]
          exact .waiting _ log (account.launchNext p.now) (Call.inFlight_launchNext_ne_nil busy)
        · exact hsame (.refl c)
      · exact hsame (.refl c)
    | cancelled =>
      show Stands candidates ⟨.returned (.error .cancelled), log ++ [], true⟩
      rw [List.append_nil]
      exact .givenUp log (subperm_of_account account) account.undecided
    | resumed => exact hsame (.refl c)
    | woke => exact hsame (.refl c)

end Step

/-- A call over at least one candidate stands after any run. -/
theorem stands_run (k : Conversation σ α) (fresh : σ) {p : Provider} (hp : p.pool.Numbered)
    (hne : p.pool.members ≠ []) (givenUp : Bool) (moments : List (Provider × Input)) :
    Stands (p.pool.candidates p.now) ((start k fresh p givenUp).run k moments) := by
  have hstart := stands_start (k := k) fresh p givenUp (Pool.candidates_ne_nil hne p.now)
  generalize start k fresh p givenUp = e at hstart
  induction moments generalizing e with
  | nil => exact hstart
  | cons moment rest ih =>
    exact ih _ (stands_next (hp.nodup_candidates p.now) hstart moment.1 moment.2)

/-! ## What a caller may rely on -/

/-- What holds of a call over `candidates` at every moment. -/
structure Lawful (candidates : List Member) (e : Execution σ α) : Prop where
  /-- What has been launched is a beginning of the candidates, none of them twice, and each
  of those attempts has ended or is in flight. -/
  launched : ∀ c, e.progress = .waiting c →
    c.launched <+: candidates ∧ c.launched.Nodup ∧
      (e.completions.map (·.member) ++ c.inFlight.map (·.member)).Perm c.launched
  /-- Where nothing is in flight, no candidate is left unlaunched. -/
  busy : ∀ c, e.progress = .waiting c → c.inFlight = [] → c.launched = candidates
  /-- An attempt ends at most once. -/
  once : (e.completions.map (·.member)).Subperm candidates
  /-- A call that is given up before it has returned is cancelled. -/
  givenUp : e.givenUp = true → e.progress = .returned (.error .cancelled)
  /-- The first attempt with a verdict decides. -/
  decided : e.givenUp = false → ∀ r, e.completions.findSome? (·.verdict?) = some r →
    e.progress = .returned r
  /-- Without a verdict a call waits for an attempt, or every candidate has failed. -/
  undecided : e.givenUp = false → e.completions.findSome? (·.verdict?) = none →
    (∃ c, e.progress = .waiting c ∧ c.inFlight ≠ []) ∨
      ∃ last, e.progress = .returned (.error (.exhausted candidates.length last))
  /-- A call is exhausted exactly when every candidate was tried and failed in a way that
  another one might have mended, and it reports the last of these failures. -/
  exhausted_iff : ∀ n last, e.progress = .returned (.error (.exhausted n last)) ↔
    e.givenUp = false ∧ (e.completions.map (·.member)).Perm candidates ∧
      (∀ x ∈ e.completions, ∃ cause, x.result = .error cause ∧ cause.isRetryable = true) ∧
      n = candidates.length ∧ e.completions.getLast?.map (·.result) = some (.error last)

/-- Where nothing has a verdict, there is no first one. -/
theorem findSome?_verdict?_eq_none {log : List (Completion α)} (h : ∀ x ∈ log, x.verdict? = none) :
    log.findSome? (·.verdict?) = none :=
  List.findSome?_eq_none_iff.2 h

theorem retryable_of_undecided {log : List (Completion α)} (h : ∀ x ∈ log, x.verdict? = none) :
    ∀ x ∈ log, ∃ cause, x.result = .error cause ∧ cause.isRetryable = true :=
  fun x hx => Completion.verdict?_eq_none_iff.1 (h x hx)

/-- While an attempt is in flight, not every candidate has ended. -/
theorem not_perm_of_account {candidates : List Member} {log : List (Completion α)} {c : Call σ}
    (h : Call.Account candidates log c) (busy : c.inFlight ≠ []) :
    ¬ (log.map (·.member)).Perm candidates := by
  intro hperm
  have hshare := h.share.length_eq
  have hprefix := h.launched_prefix.length_le
  have hlength := hperm.length_eq
  rw [List.length_append, List.length_map] at hshare
  have := List.length_pos_of_ne_nil busy
  simp only [List.length_map] at hshare hlength
  omega

theorem Stands.lawful {candidates : List Member} (hids : (candidates.map (·.id)).Nodup)
    {e : Execution σ α} (h : Stands candidates e) : e.Lawful candidates := by
  cases h with
  | waiting c log account busy =>
    have hnone := findSome?_verdict?_eq_none account.undecided
    refine ⟨?_, ?_, subperm_of_account account, nofun, ?_, ?_, fun n last => ⟨nofun, ?_⟩⟩
    · rintro d ⟨⟩
      have hnodup := hids.of_map.sublist account.launched_prefix.sublist
      exact ⟨account.launched_prefix, hnodup, account.share⟩
    · rintro d ⟨⟩ hflight
      exact absurd hflight busy
    · intro _ r hr
      rw [hnone] at hr
      cases hr
    · exact fun _ _ => .inl ⟨c, rfl, busy⟩
    · rintro ⟨-, hperm, -⟩
      exact absurd hperm (not_perm_of_account account busy)
  | givenUp log tried undecided =>
    exact ⟨nofun, nofun, tried, fun _ => rfl, nofun, nofun, fun n last => ⟨nofun, nofun⟩⟩
  | decided log x r tried undecided verdict =>
    have hsome : (log ++ [x]).findSome? (·.verdict?) = some r := by
      rw [List.findSome?_append, findSome?_verdict?_eq_none undecided, Option.none_or,
        List.findSome?_cons, verdict]
    refine ⟨nofun, nofun, by rwa [List.map_append], nofun, ?_, ?_, fun n last => ⟨?_, ?_⟩⟩
    · intro _ r' hr'
      rw [hsome] at hr'
      cases hr'
      rfl
    · intro _ hnone
      rw [hsome] at hnone
      cases hnone
    · rintro ⟨⟩
      exact absurd verdict Completion.verdict?_ne_exhausted
    · rintro ⟨-, -, hretryable, -⟩
      have hx := hretryable x (List.mem_append_right _ List.mem_cons_self)
      rw [Completion.verdict?_eq_none_iff.2 hx] at verdict
      cases verdict
  | exhausted log m e tried undecided mended =>
    have hall : ∀ x ∈ log ++ [(⟨m, .error e⟩ : Completion α)], x.verdict? = none := by
      intro x hx
      rcases List.mem_append.1 hx with hx | hx
      · exact undecided x hx
      · rw [List.mem_singleton.1 hx]
        exact Completion.verdict?_eq_none_iff.2 ⟨e, rfl, mended⟩
    have hperm : ((log ++ [(⟨m, .error e⟩ : Completion α)]).map (·.member)).Perm candidates := by
      rwa [List.map_append]
    have hlast : (log ++ [(⟨m, .error e⟩ : Completion α)]).getLast?.map (·.result)
        = some (.error e) := by
      rw [List.getLast?_concat]
      rfl
    refine ⟨nofun, nofun, hperm.subperm, nofun, ?_, fun _ _ => .inr ⟨e, rfl⟩,
      fun n last => ⟨?_, ?_⟩⟩
    · intro _ r hr
      rw [findSome?_verdict?_eq_none hall] at hr
      cases hr
    · rintro ⟨⟩
      exact ⟨rfl, hperm, retryable_of_undecided hall, rfl, hlast⟩
    · rintro ⟨-, -, -, rfl, hlast'⟩
      rw [hlast] at hlast'
      cases hlast'
      rfl

/-- **How a call ends.**  Whatever its replicas, its timers and its caller do, and in
whatever order, a call over a pool with a member launches candidates in their order, ends
as the first verdict says, and is exhausted exactly when every candidate has failed. -/
theorem lawful_run (k : Conversation σ α) (fresh : σ) {p : Provider} (hp : p.pool.Numbered)
    (hne : p.pool.members ≠ []) (givenUp : Bool) (moments : List (Provider × Input)) :
    (p.pool.candidates p.now).Sublist p.pool.members ∧
      ((start k fresh p givenUp).run k moments).Lawful (p.pool.candidates p.now) :=
  ⟨p.pool.candidates_sublist p.now,
    (stands_run k fresh hp hne givenUp moments).lawful (hp.nodup_candidates p.now)⟩

/-- A replica that cannot be reached, as a provider over `hosts` hears it on its first
call. -/
def unreachable (hosts : List String) (member : Nat) (text : String) : Provider × Input :=
  (.overHosts hosts, .answered ⟨0, member, 0⟩ (.error (.connection text)))

/-- Neither of two replicas can be reached: the second is asked after the first has failed,
and the call reports the failure of the second. -/
theorem exhausted_two_unreachable :
    ((start .fetch default (.overHosts ["a", "b"]) false).run .fetch
      [unreachable ["a", "b"] 0 "refused", unreachable ["a", "b"] 1 "reset"]).progress =
      .returned (.error (.exhausted 2 (.connection "reset"))) := by
  have hlawful := (lawful_run .fetch default (p := .overHosts ["a", "b"])
    (Pool.numbered_ofHosts ["a", "b"]) (List.cons_ne_nil _ _) false
    [unreachable ["a", "b"] 0 "refused", unreachable ["a", "b"] 1 "reset"]).2
  refine (hlawful.exhausted_iff 2 (.connection "reset")).2 ⟨rfl, List.Perm.refl _, ?_, rfl, rfl⟩
  intro x hx
  rcases List.mem_cons.1 hx with rfl | hx
  · exact ⟨.connection "refused", rfl, rfl⟩
  · rw [List.mem_singleton.1 hx]
    exact ⟨.connection "reset", rfl, rfl⟩

end Execution
end ReplicatedConfig
