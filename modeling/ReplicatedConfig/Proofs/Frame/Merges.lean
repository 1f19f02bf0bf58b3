import ReplicatedConfig.Adapter.Transforms
import ReplicatedConfig.Proofs.Frame.Meanwhile
import ReplicatedConfig.Proofs.Refusals.Merges

/-!
# What a merge leaves alone

A merge with the lock goes through its changes, and `Provider.Merged` says what becomes of them.
`Merge.Applying` carries this from stop to stop: the changes so far, those of them that were applied,
and the entries and tokens that there are.  Others leave all of that alone until the lock is let go
(`Provider.Respects`, and `Engine.isAt_run` for why they do).

When a merge waits for the adapter of a change, the token of the change has been looked at, and it is
not looked at again.  So what a stop remembers (`Merge.Leads.adapting`) includes that the change was
current.  Nobody else may change the token meanwhile, so it is still current when it is applied.

## In every state

`Engine.framed_of_merge` is about any list of changes, and any provider at which an operation may
have got the lock: changes may be about one key more than once, be stale, bring settings of other
names than that of their place, or be about settings that share keys with others.

That holds of entries and tokens wherever the engine comes.  It holds of the snapshot only where the
snapshot shows what is loaded.  A merge that is dropped while it waits for an adapter leaves changes
that it has noted and not shown, and the next merge that applies a change shows them with its own,
whatever keys they are about (`framed_of_merge_halfMerged`).
-/

namespace ReplicatedConfig

variable {answers : Replies} {events : List Event} {me : TaskId} {b p q : Provider} {place n : Nat}
  {i : Identity} {checked : Option Token} {s : Setting} {change : PointChange}
  {changes rest : List PointChange} {fs : List ProviderError}

theorem Provider.tokenAt_setToken_eq (hplace : p.watchList.identities[place]? = some i)
    (token : Option Token) :
    (p.setToken place token).tokenAt = Function.update p.tokenAt place token := by
  funext other
  by_cases hne : place = other
  · subst hne
    rw [Function.update_self, p.tokenAt_setToken_self place hplace]
  · rw [Function.update_of_ne (Ne.symm hne), p.tokenAt_setToken hne]

namespace Merge

/-! ## One change -/

theorem advance_of_stale (stale : ¬ change.IsCurrent p) :
    advance me p n fs (change :: rest) = advance me p n fs rest := by
  cases change with
  | upsert place checked s => rw [advance, if_neg stale]
  | remove place checked => rw [advance, if_neg stale]

/-- The name at a place is looked up when its token has been forgotten already. -/
theorem advance_remove (hplace : p.watchList.identities[place]? = some i) :
    advance me p n fs (.remove place (p.tokenAt place) :: rest) =
      if i ∈ p.materialized.names then advance me (p.withoutSetting place i) (n + 1) fs rest
      else advance me (p.setToken place none) n fs rest := by
  obtain ⟨w, hw, rfl⟩ := WatchList.exists_get?_of_getElem?_identities hplace
  have hcurrent : (PointChange.remove place (p.tokenAt place)).IsCurrent p := rfl
  have hget : (p.setToken place none).watchList.get? place = some { w with token := none } := by
    rw [Provider.setToken, WatchList.setToken, WatchList.get?_modify, if_pos rfl, hw]
    rfl
  have hthere : (p.materialized.find? w.identity).isSome = true ↔
      w.identity ∈ p.materialized.names := by
    rw [Option.isSome_iff_ne_none, Ne, Materialized.find?_eq_none_iff, not_not]
  rw [advance, if_pos hcurrent]
  simp only [hget]
  exact ite_congr (propext hthere) (fun _ => rfl) fun _ => rfl

/-! ## Merging under the lock -/

/-- A merge that got the lock at `b` has still to go through `rest`, and has applied `n` changes. -/
structure Applying (me : TaskId) (b : Provider) (changes : List PointChange) (p : Provider) (n : Nat)
    (rest : List PointChange) : Prop where
  holder : p.lock.holder = some me
  pipeline : p.pipeline = b.pipeline
  watched : b.watchList.identities <+: p.watchList.identities
  current : p.publisher.current = b.publisher.current
  merged : ∃ done applied, changes = done ++ rest ∧ applied.length = n ∧
    b.Merged done applied p.materialized p.tokenAt

/-- What a step of such a merge may come to. -/
inductive Leads (me : TaskId) (b : Provider) (changes : List PointChange) : Step → Prop where
  | adapting (p : Provider) (place : Nat) (s : Setting) (rest : List PointChange) (n : Nat)
      (fs : List ProviderError)
      (applying : Applying me b changes p n (.upsert place (p.tokenAt place) s :: rest)) :
      Leads me b changes (p, .inl (.adapting place s rest n fs))
  | idle (p : Provider) (fs : List ProviderError) (applying : Applying me b changes p 0 []) :
      Leads me b changes (p.release me, .inr (false, fs))
  | published (p : Provider) (n : Nat) (fs : List ProviderError)
      (applying : Applying me b changes p (n + 1) []) :
      Leads me b changes (p.publish.release me, .inr (true, fs))

namespace Applying

/-- A change has been passed over. -/
theorem passed (h : Applying me b changes p n (change :: rest)) (rules : p.SameRules q)
    (lock : q.lock = p.lock) (publisher : q.publisher = p.publisher)
    (merged : ∀ {done applied}, b.Merged done applied p.materialized p.tokenAt →
      b.Merged (done ++ [change]) applied q.materialized q.tokenAt) :
    Applying me b changes q n rest where
  holder := (congrArg Lock.holder lock).trans h.holder
  pipeline := rules.pipeline.trans h.pipeline
  watched := h.watched.trans rules.names
  current := (congrArg Publisher.current publisher).trans h.current
  merged := by
    obtain ⟨done, applied, rfl, hlength, hmerged⟩ := h.merged
    exact ⟨done ++ [change], applied, List.append_cons done change rest, hlength, merged hmerged⟩

/-- A change has been applied. -/
theorem applied (h : Applying me b changes p n (change :: rest)) (rules : p.SameRules q)
    (lock : q.lock = p.lock) (publisher : q.publisher = p.publisher)
    (merged : ∀ {done applied}, b.Merged done applied p.materialized p.tokenAt →
      b.Merged (done ++ [change]) (applied ++ [change]) q.materialized q.tokenAt) :
    Applying me b changes q (n + 1) rest where
  holder := (congrArg Lock.holder lock).trans h.holder
  pipeline := rules.pipeline.trans h.pipeline
  watched := h.watched.trans rules.names
  current := (congrArg Publisher.current publisher).trans h.current
  merged := by
    obtain ⟨done, applied, rfl, rfl, hmerged⟩ := h.merged
    exact ⟨done ++ [change], applied ++ [change], List.append_cons done change rest,
      List.length_append, merged hmerged⟩

theorem of_respects (h : Applying me b changes p n rest) (hq : p.Respects me q) :
    Applying me b changes q n rest where
  holder := (hq.heeds h.holder).holder
  pipeline := (hq.heeds h.holder).pipeline.trans h.pipeline
  watched := h.watched.trans (hq.heeds h.holder).watched
  current := (hq.current h.holder).trans h.current
  merged := by
    rw [(hq.heeds h.holder).materialized, funext (hq.heeds h.holder).tokens]
    exact h.merged

/-- Every change has a watched name. -/
theorem exists_name (h : Applying me b changes p n (change :: rest))
    (there : ∀ c ∈ changes, c.place < b.watchList.identities.length) :
    ∃ i, b.watchList.identities[change.place]? = some i ∧
      p.watchList.identities[change.place]? = some i := by
  obtain ⟨done, -, rfl, -⟩ := h.merged
  have hlt := there change (List.mem_append_right _ List.mem_cons_self)
  have hname := List.getElem?_eq_getElem hlt
  exact ⟨_, hname, getElem?_of_isPrefix h.watched hname⟩

/-- Merging goes on to the next change that needs an adapter, or to the end. -/
theorem leads_advance (there : ∀ c ∈ changes, c.place < b.watchList.identities.length)
    (h : Applying me b changes p n rest) : Leads me b changes (advance me p n fs rest) := by
  -- The induction is on the changes that are left.
  induction rest generalizing p n with
  | nil =>
    cases n with
    | zero => exact .idle p fs h
    | succ n => exact .published p n fs h
  | cons change rest ih =>
    by_cases current : change.IsCurrent p
    · cases change with
      | upsert place checked s =>
        rw [advance, if_pos current]
        obtain rfl : p.tokenAt place = checked := current
        exact .adapting p place s rest n fs h
      | remove place checked =>
        obtain rfl : p.tokenAt place = checked := current
        obtain ⟨i, hname, hplace⟩ : ∃ i, b.watchList.identities[place]? = some i ∧
            p.watchList.identities[place]? = some i := h.exists_name there
        have htokens := Provider.tokenAt_setToken_eq hplace none
        rw [advance_remove hplace]
        split
        · next hmem =>
          refine ih (h.applied (p.sameRules_withoutSetting place i) rfl rfl fun hmerged => ?_)
          show b.Merged _ _ (p.materialized.remove i) (p.setToken place none).tokenAt
          rw [htokens]
          exact .removed hmerged hname hmem
        · next hmem =>
          refine ih (h.passed (p.sameRules_setToken place none) rfl rfl fun hmerged => ?_)
          rw [htokens]
          exact .absent hmerged hname hmem
    · rw [advance_of_stale current]
      exact ih (h.passed (.refl p) rfl rfl fun hmerged => .stale hmerged current)

/-- The adapter of a change has finished. -/
theorem leads_adapted (there : ∀ c ∈ changes, c.place < b.watchList.identities.length)
    (h : Applying me b changes p n (.upsert place (p.tokenAt place) s :: rest)) :
    Leads me b changes (adapted me p place s rest n fs) := by
  obtain ⟨i, -, hplace⟩ : ∃ i, b.watchList.identities[place]? = some i ∧
      p.watchList.identities[place]? = some i := h.exists_name there
  rw [adapted]
  cases hpairs : p.pipeline.process s with
  | ok pairs =>
    refine leads_advance there
      (h.applied (p.sameRules_withEntry place ⟨s, pairs⟩) rfl rfl fun hmerged => ?_)
    show b.Merged _ _ (p.materialized.upsert ⟨s, pairs⟩) (p.setToken place (some s.token)).tokenAt
    rw [Provider.tokenAt_setToken_eq hplace]
    rw [h.pipeline] at hpairs
    exact .upserted hmerged hpairs
  | error e =>
    rw [h.pipeline] at hpairs
    exact leads_advance there (h.passed (.refl p) rfl rfl fun hmerged => .refused hmerged hpairs)

end Applying

/-- **Run.**  What becomes of a merge from where it gets the lock. -/
theorem leads_of_runs (hheld : b.lock.holder = some me)
    (there : ∀ c ∈ changes, c.place < b.watchList.identities.length)
    {x : Provider × Stage Merge (Bool × List ProviderError)}
    (run : (stepping me).Runs answers (Provider.Respects me) (staged (enter me b changes fs)) x) :
    ∃ y, x = staged y ∧ Leads me b changes y := by
  induction run with
  | start =>
    have hme : b.lock.isHeldBy me = true := beq_iff_eq.2 hheld
    rw [enter, if_pos hme]
    have hstart : Applying me b changes b 0 changes :=
      ⟨hheld, rfl, List.prefix_rfl, rfl, [], [], rfl, rfl, .start⟩
    exact ⟨_, rfl, hstart.leads_advance there⟩
  | @step p q m before respects cancelled i admitted ih =>
    obtain ⟨y, hy, hleads⟩ := ih
    cases hleads with
    | adapting p place s rest n fs applying =>
      cases hy
      have htokens := (respects.heeds applying.holder).tokens place
      have hq := applying.of_respects respects
      rw [← htokens] at hq
      have hstay : Leads me b changes (q, .inl (.adapting place s rest n fs)) :=
        .adapting q place s rest n fs hq
      refine ⟨_, rfl, ?_⟩
      cases i with
      | resumed => exact hq.leads_adapted there
      | answered ticket reply => exact hstay
      | fallback serial => exact hstay
      | cancelled => exact hstay
      | woke => exact hstay
    | idle p fs applying => cases hy
    | published p n fs applying => cases hy

/-- **A merge that is let go on comes to its end**, and waits for nothing else on the way. -/
theorem finishes (p : Provider) (n : Nat) (fs : List ProviderError) (rest : List PointChange)
    {turns : Nat} (hturns : rest.length ≤ turns) :
    ∃ q result, (stepping me).play (fun _ => .resumed) turns (staged (advance me p n fs rest)) =
      (q, .finished (.ok result)) := by
  induction rest generalizing p n fs turns with
  | nil => cases n <;> cases turns <;> exact ⟨_, _, rfl⟩
  | cons change rest ih =>
    have hrest : rest.length ≤ turns := Nat.le_of_succ_le hturns
    by_cases current : change.IsCurrent p
    · cases change with
      | upsert place checked s =>
        cases turns with
        | zero => exact absurd hturns (Nat.not_succ_le_zero _)
        | succ turns =>
          have hturns : rest.length ≤ turns := Nat.le_of_succ_le_succ hturns
          rw [advance, if_pos current]
          show ∃ q result, (stepping me).play _ turns (staged (adapted me p place s rest n fs)) = _
          rw [adapted]
          cases p.pipeline.process s with
          | ok pairs => exact ih _ _ _ hturns
          | error e => exact ih _ _ _ hturns
      | remove place checked =>
        rw [advance, if_pos current]
        dsimp only
        split
        · exact ih _ _ _ hrest
        · split
          · exact ih _ _ _ hrest
          · exact ih _ _ _ hrest
    · rw [advance_of_stale current]
      exact ih _ _ _ hrest

/-- What a merge leaves, and what it publishes. -/
theorem merged_of_runs (hheld : b.lock.holder = some me)
    (there : ∀ c ∈ changes, c.place < b.watchList.identities.length)
    {published : Bool} {failures : List ProviderError}
    (run : (stepping me).Runs answers (Provider.Respects me) (staged (enter me b changes fs))
      (q, .finished (.ok (published, failures)))) :
    ∃ applied, b.Merged changes applied q.materialized q.tokenAt ∧
      ((applied = [] ∧ published = false ∧ q.publisher.current = b.publisher.current) ∨
        (applied ≠ [] ∧ published = true ∧ q.publisher.current =
          ⟨b.publisher.current.version + 1, q.materialized.values⟩)) := by
  obtain ⟨y, hy, hleads⟩ := leads_of_runs hheld there run
  cases hleads with
  | adapting p place s rest n fs applying => cases hy
  | idle p fs applying =>
    cases hy
    obtain ⟨done, applied, rfl, hlength, hmerged⟩ := applying.merged
    rw [List.append_nil]
    exact ⟨applied, hmerged, .inl ⟨List.eq_nil_of_length_eq_zero hlength, rfl, applying.current⟩⟩
  | published p n fs applying =>
    cases hy
    obtain ⟨done, applied, rfl, hlength, hmerged⟩ := applying.merged
    rw [List.append_nil]
    refine ⟨applied, hmerged, .inr ⟨List.ne_nil_of_length_eq_add_one hlength, rfl, ?_⟩⟩
    rw [← applying.current]
    exact p.current_publish

end Merge

/-! ## In every state -/

namespace Engine

/-- **A merge touches only the keys of the changes that it applies**, except for what the snapshot
has not shown yet.  From any provider `b` at which an operation may have got the lock, and for any
changes of watched keys, a merge that is let go on comes to its end.  Whatever others do until then:

* There is a list of changes that it has applied, by the rules of `Provider.Merged`.  It is empty
  exactly if every change is stale or refused at `b`, or about something that is not loaded.
* If it is not empty, one snapshot is published, with the next version and all that is loaded.
* If it is empty, nothing is published, and entries and tokens are what they were.
* What is loaded for a key is what was loaded for it, unless what was loaded at `b` under the name
  of an applied change gives it a value, or what that change has brought.
* The snapshot keeps such a key exactly if nothing is published or it has shown for the key what was
  loaded.  It has shown that as long as nobody has been dropped before while it was behind. -/
theorem framed_of_merge (hp : p.Unloaded) (hshows : p.Shows) (named : answers.Named)
    (grants : Grants answers p events me b) (changes : List PointChange)
    (there : ∀ c ∈ changes, c.place < b.watchList.identities.length) (fs : List ProviderError) :
    (∃ q result, (Merge.stepping me).Runs answers (Provider.Respects me)
      (Merge.staged (Merge.enter me b changes fs)) (q, .finished (.ok result))) ∧
    ∀ q published failures, (Merge.stepping me).Runs answers (Provider.Respects me)
        (Merge.staged (Merge.enter me b changes fs)) (q, .finished (.ok (published, failures))) →
      ∃ applied, b.Merged changes applied q.materialized q.tokenAt ∧
        (applied = [] ↔ ∀ c ∈ changes, ¬ b.Applies c) ∧
        (applied ≠ [] → published = true ∧
          q.publisher.current = ⟨b.publisher.current.version + 1, q.materialized.values⟩) ∧
        (applied = [] → published = false ∧ q.publisher.current = b.publisher.current ∧
          q.materialized = b.materialized ∧ q.tokenAt = b.tokenAt) ∧
        ∀ key, (∀ c ∈ applied, ¬ b.Touches key c) →
          q.materialized.values.get? key = b.materialized.values.get? key ∧
          (q.publisher.current.values.get? key = b.publisher.current.values.get? key ↔
            applied = [] ∨
              b.publisher.current.values.get? key = b.materialized.values.get? key) ∧
          ((new p).SparesAll events →
            (∀ t ∈ ((new p).run events).tasks, t.id = me → ¬ t.job.Behind) →
            b.publisher.current.values.get? key = b.materialized.values.get? key) := by
  refine ⟨?_, fun q published failures run => ?_⟩
  · have hresumed (waits : List Wait) : Input.resumed.Admitted answers waits := trivial
    have hme : b.lock.isHeldBy me = true := beq_iff_eq.2 grants.holder
    rw [Merge.enter, if_pos hme]
    obtain ⟨q, result, hend⟩ := Merge.finishes b 0 fs changes (Nat.le_refl _)
    refine ⟨q, result, ?_⟩
    rw [← hend]
    exact (Merge.stepping me).runs_play (Provider.Respects.refl me) hresumed changes.length .start
  · have hrooted := grants.rooted hp named
    obtain ⟨applied, hmerged, hend⟩ := Merge.merged_of_runs grants.holder there run
    have hnone : applied = [] → q.materialized = b.materialized ∧ q.tokenAt = b.tokenAt := by
      rintro rfl
      obtain ⟨hentries, htokens, -⟩ := hmerged.of_nil hrooted
      exact ⟨hentries, htokens⟩
    refine ⟨applied, hmerged, hmerged.eq_nil_iff hrooted, fun happlied => ?_, fun happlied => ?_,
      fun key untouched => ?_⟩
    · obtain ⟨hnil, -⟩ | ⟨-, hend⟩ := hend
      · exact absurd hnil happlied
      · exact hend
    · obtain ⟨-, hpublished, hcurrent⟩ | ⟨hne, -⟩ := hend
      · exact ⟨hpublished, hcurrent, hnone happlied⟩
      · exact absurd happlied hne
    · have hvalue := (hmerged.frame untouched).1
      refine ⟨hvalue, ?_, fun spares fresh => ?_⟩
      · obtain ⟨hnil, -, hcurrent⟩ | ⟨hne, -, hcurrent⟩ := hend
        · exact iff_of_true (by rw [hcurrent]) (.inl hnil)
        · rw [hcurrent, or_iff_right hne]
          dsimp only
          rw [hvalue]
          exact eq_comm
      · rw [grants.shows hp named hshows spares fresh]

/-- The requests that a ticket stands for. -/
def requests (e : Engine) (ticket : Ticket) : List Request :=
  (e.tasks.flatMap (·.waits e.provider)).filterMap fun
    | .reply o => if o.ticket = ticket then some o.request else none
    | _ => none

/-- A setting is a reply of its name to a ticket that stands for reads of it. -/
theorem hears_setting {e : Engine} {ticket : Ticket}
    (asked : ∀ request ∈ e.requests ticket, request = .fetch s.identity) :
    e.Hears .naming (.answer ticket (.ok (.setting (some s)))) := by
  rintro t ht o ho hticket s' ⟨⟩
  refine asked o.request (List.mem_filterMap.2 ⟨.reply o, ?_, if_pos hticket⟩)
  exact List.mem_flatMap.2 ⟨t, ht, ho⟩

/-- A provider that watches a color and a shape, with an adapter for the shape. -/
def drawing : Provider :=
  .new (.ofHosts ["a"]) default
    ⟨[.new ⟨⟨"Color", none⟩, .ofSecs 1, false⟩ .start,
      .new ⟨⟨"Shape", none⟩, .ofSecs 1, false⟩ .start]⟩
    ⟨[⟨"outline", fun s => s.key = "Shape", Adapter.upper⟩], []⟩
    ⟨[⟨"*", none⟩], true, .ofSecs 100⟩ .start

/-- Both are loaded.  Then a pass finds that the color has gone and that the shape is another one,
and it is dropped while the adapter of the shape is at work. -/
def dropsRefresh : List Event :=
  [.start 0 .load false,
    .answer ⟨0, 0, 0⟩ (.ok (.page ⟨[⟨"Color", none, some "blue", none, ⟨"1"⟩⟩,
      ⟨"Shape", none, some "round", none, ⟨"1"⟩⟩], none⟩)),
    .resume 0, .resume 0, .resume 0, .advance (.ofSecs 1), .start 1 .refresh false, .resume 1,
    .resume 1, .answer ⟨1, 0, 0⟩ (.ok (.verdict .missing)),
    .answer ⟨2, 0, 0⟩ (.ok (.verdict .modified)),
    .answer ⟨3, 0, 0⟩ (.ok (.setting (some ⟨"Shape", none, some "square", none, ⟨"2"⟩⟩))),
    .abandon 1]

/-- The provider then, when another operation has asked for the lock. -/
def halfMerged : Provider := ((new drawing).run dropsRefresh).provider.acquire 2

/-- The change of the shape, which is found again. -/
def reshaped : List PointChange :=
  [.upsert 1 (some ⟨"1"⟩) ⟨"Shape", none, some "square", none, ⟨"2"⟩⟩]

/-- The provider when it has been merged. -/
def shapeMerged : Provider :=
  ((Merge.stepping 2).play (fun _ => .resumed) 1
    (Merge.staged (Merge.enter 2 halfMerged reshaped []))).1

/-- The next pass when both keys are due again.  No check finds that the color has gone. -/
def refreshesAgain : List Event :=
  [.advance (.ofSecs 1), .start 2 .refresh false, .resume 2, .resume 2,
    .answer ⟨4, 0, 0⟩ (.ok (.verdict .missing)), .answer ⟨5, 0, 0⟩ (.ok (.verdict .modified)),
    .answer ⟨6, 0, 0⟩ (.ok (.setting (some ⟨"Shape", none, some "square", none, ⟨"2"⟩⟩))),
    .resume 2]

/-- One change of the shape is merged after a pass that has been dropped: no entry gives a color and
neither does the new shape, and yet the snapshot had a color before and has none behind the merge.
The same comes of a whole pass. -/
theorem framed_of_merge_halfMerged :
    Grants .naming drawing dropsRefresh 2 halfMerged ∧
    (Merge.stepping 2).Runs .naming (Provider.Respects 2)
      (Merge.staged (Merge.enter 2 halfMerged reshaped []))
      (shapeMerged, .finished (.ok (true, []))) ∧
    (∀ e ∈ halfMerged.materialized.entries, "Color" ∉ e.keys) ∧
    (∀ c ∈ reshaped, ¬ halfMerged.Touches "Color" c) ∧
    halfMerged.publisher.current.values.get? "Color" = some "blue" ∧
    shapeMerged.publisher.current.version = halfMerged.publisher.current.version + 1 ∧
    shapeMerged.publisher.current.values.get? "Color" = none ∧
    ((new drawing).run (dropsRefresh ++ refreshesAgain)).provider.publisher.current.values.get?
      "Color" = none := by
  have hunloaded : drawing.Unloaded := ⟨by decide, by decide, rfl, rfl, rfl⟩
  have hread : ∀ request ∈ ((new drawing).run (dropsRefresh.take 11)).requests ⟨3, 0, 0⟩,
      request = .fetch ⟨"Shape", none⟩ := by decide +kernel
  have hgrants : Grants .naming drawing dropsRefresh 2 halfMerged := by
    refine ⟨by decide +kernel, ⟨trivial, fun _ _ _ _ _ s hs => ?_, trivial, trivial, trivial, trivial,
      trivial, trivial, trivial, fun _ _ _ _ _ s hs => ?_, fun _ _ _ _ _ s hs => ?_,
      hears_setting hread, trivial, trivial⟩, _, [], (Provider.Called.refl _).checked,
      .inr (.inl rfl)⟩
    · cases hs
    · cases hs
    · cases hs
  have hresumed (waits : List Wait) : Input.resumed.Admitted .naming waits := trivial
  have hrun : (Merge.stepping 2).Runs .naming (Provider.Respects 2)
      (Merge.staged (Merge.enter 2 halfMerged reshaped []))
      (shapeMerged, .finished (.ok (true, []))) :=
    (Merge.stepping 2).runs_play (Provider.Respects.refl 2) hresumed 1 .start
  have huntouched : ∀ c ∈ reshaped, ¬ halfMerged.Touches "Color" c := by decide +kernel
  obtain ⟨-, hall⟩ := framed_of_merge hunloaded rfl Replies.named_naming hgrants reshaped
    (by decide +kernel) []
  obtain ⟨applied, hmerged, hnil, hnext, -, hframe⟩ := hall _ _ _ hrun
  have hchanged : applied ≠ [] := by
    rw [Ne, hnil]
    refine fun hnone => hnone _ List.mem_cons_self ⟨by decide +kernel, [("Shape", "SQUARE")], ?_⟩
    decide +kernel
  obtain ⟨-, hcurrent⟩ := hnext hchanged
  obtain ⟨hcolor, -⟩ := hframe "Color" fun c hc => huntouched c (hmerged.sublist.subset hc)
  refine ⟨hgrants, hrun, by decide +kernel, huntouched, by decide +kernel, ?_, ?_, ?_⟩
  · rw [hcurrent]
  · rw [hcurrent]
    exact hcolor.trans (by decide +kernel)
  · decide +kernel

end Engine
end ReplicatedConfig
