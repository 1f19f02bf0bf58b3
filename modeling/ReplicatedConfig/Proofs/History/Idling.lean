import ReplicatedConfig.Adapter.Transforms
import ReplicatedConfig.Proofs.History.Settling

/-!
# When passes publish nothing

Over a store that does not change any more, a pass that succeeds and looks at every key leaves
nothing to do (`Pass.settles_of_pass`), and later passes keep it so.  Whether they also keep quiet
depends on the keys that stay behind because the adapters refuse their settings.

For a key by itself nothing comes of it.  Each pass reads the setting, the adapters refuse it once
more, and nothing is merged.  A key that reloads everything is not read, and the reload that it
asks for publishes whether or not it brings anything new.  So later passes publish nothing where
no such key stays behind (`Contents.Restless`), and otherwise each of them publishes again
(`Pass.idle_unless_restless`).

## One account of all passes

How a pass brings a provider to rest, and what it makes of one that is at rest, is read off the
same steps, so both are in one invariant: `Pass.Settles` for the phases, `Pass.Leaves` for what a
step leaves.

## What may happen in the meantime

`Contents.Onward` lets full loads, passes and quiet moves follow each other in any way, each
operation as far as it comes.  One that is dropped is included, since dropping it is quiet
(`Pass.quiet_abandon`), and so is a pass beside another one as long as neither has published.
-/

namespace ReplicatedConfig

variable {c : Contents} {answers : Replies} {base p q r : Provider} {me : TaskId}
  {cancelled : Bool}

/-! ## The pass -/

namespace Pass

/-- The pass has looked at every key. -/
def Whole (base : Provider) (skipped : Nat) : Prop :=
  (∀ w ∈ base.watchList.watches, w.Due base.now) ∧ skipped = 0

/-- Where a pass may stand. -/
def Settles (c : Contents) (answers : Replies) (base : Provider) (me : TaskId) (p : Provider) :
    Pass → Prop
  | .loading r => base.Quiet p ∧ base.loaded = false ∧ r.Sound answers p
  | .checking checks => base.Quiet p ∧ base.loaded = true ∧
    Beside answers base.Watches True p (base.watchList.due base.now) checks
  | .reloading f r => base.Quiet p ∧ base.loaded = true ∧
    c.Explains base (base.watchList.due base.now) f ∧ f.reload = true ∧ r.Sound answers p
  | .merging f m => (settling c base (Whole base f.skipped) me).Stands p m

/-- A provider at rest stays so, and it is left alone unless a key asks for a reload. -/
def Keeps (c : Contents) (base p : Provider) : Prop :=
  c.Settles base → c.Settles p ∧ (¬ c.Restless base → base.Quiet p)

/-- What a step of a pass may leave. -/
inductive Leaves (c : Contents) (answers : Replies) (base : Provider) (me : TaskId) :
    Step → Prop where
  | running (p : Provider) (s : Pass) (settles : s.Settles c answers base me p) :
      Leaves c answers base me (p, .running s)
  | failed (p : Provider) (e : ProviderError) (keeps : Keeps c base p) :
      Leaves c answers base me (p, .finished (.error e))
  | merged (p : Provider) (report : Report)
      (still : c.Settles base → report.published = false ∧ base.Quiet p)
      (settled : Whole base report.skipped → c.Settles p ∧ ¬ c.Restless base) :
      Leaves c answers base me (p, .finished (.ok report))
  | reloaded (p : Provider) (report : Report) (published : report.published = true)
      (settled : c.Settles p)
      (version : p.publisher.current.version = base.publisher.current.version + 1)
      (restless : base.loaded = true → c.Restless base) :
      Leaves c answers base me (p, .finished (.ok report))

theorem keeps_of_quiet (hp : base.Quiet p) : Keeps c base p :=
  fun hbase => ⟨hbase.of_quiet hp, fun _ => hp⟩

section Steps

variable {f : Findings} {fs : List ProviderError}

/-- What the checks have found is to be merged. -/
theorem settling_of_explains (h : c.Explains base (base.watchList.due base.now) f)
    (hp : base.Quiet p) (loaded : base.loaded = true)
    (hfs : fs = [] → f.failures = [] ∧ f.reload = false) :
    Settling c base (Whole base f.skipped) p 0 fs f.changes := by
  have hrest (hwhole : Whole base f.skipped) (hnone : fs = []) {place : Nat} {w : Watch}
      (hw : base.watchList.get? place = some w) : w.token = c.tokenOf w.identity ∨
        w.refreshAll = false ∧ ∃ change ∈ f.changes, change.place = place := by
    obtain ⟨hfailures, hreload⟩ := hfs hnone
    refine h.rest hfailures hwhole.2 hreload place ?_ w hw
    rw [WatchList.due_eq_range hwhole.1, List.mem_range]
    exact (List.getElem?_eq_some_iff.1 hw).1
  refine ⟨hp.loaded.trans loaded, (List.nodup_range.filter _).sublist h.order,
    fun change hchange => ?_, fun hwhole hnone place w hw => ?_, fun hwhole hnone hrestless => ?_,
    fun _ => ⟨rfl, hp⟩⟩
  · obtain ⟨v, hv, hmoves⟩ := h.moves change hchange
    obtain ⟨w, hw, hfact⟩ := WatchList.exists_of_facts hp.facts.symm hv
    exact ⟨w, hw, hmoves.of_fact hfact.symm⟩
  · obtain ⟨v, hv, hfact⟩ := WatchList.exists_of_facts hp.facts hw
    rcases hrest hwhole hnone hv with htoken | ⟨-, hchange⟩
    · have hsettled : c.Settled base v := .inl htoken
      exact .inr (hsettled.of_fact hfact hp.options hp.pipeline)
    · exact .inl hchange
  · obtain ⟨w, hmem, hrole, htoken⟩ := hrestless
    obtain ⟨place, hw⟩ := List.mem_iff_getElem?.1 hmem
    rcases hrest hwhole hnone hw with hsame | ⟨hsingle, -⟩
    · exact htoken hsame
    · cases hrole.symm.trans hsingle

theorem leaves_finish {published : Bool}
    (still : c.Settles base → published = false ∧ base.Quiet p)
    (settled : fs = [] → Whole base f.skipped → c.Settles p ∧ ¬ c.Restless base) :
    Leaves c answers base me (finish p f fs false published) := by
  have hquiet (result : PassResult) (hbase : c.Settles base) : base.Quiet (p.countPass result) :=
    (still hbase).2.trans (p.quiet_countPass result)
  cases fs with
  | nil =>
    refine .merged _ _ (fun hbase => ⟨(still hbase).1, hquiet _ hbase⟩) fun hwhole => ?_
    obtain ⟨hp, hcalm⟩ := settled rfl hwhole
    exact ⟨hp.of_quiet (p.quiet_countPass _), hcalm⟩
  | cons first rest =>
    exact .failed _ _ fun hbase => keeps_of_quiet (hquiet _ hbase) hbase

theorem leaves_merged {x : Merge.Step} (h : (settling c base (Whole base f.skipped) me).Comes x) :
    Leaves c answers base me (merged x.1 f x.2) := by
  cases h with
  | running p m stands => exact .running p _ stands
  | idle p fs after =>
    refine leaves_finish (fun hbase => ⟨rfl, (after.still hbase).2.trans (p.quiet_release me)⟩)
      fun hfs hwhole => ?_
    subst hfs
    exact ⟨(after.settles hwhole).of_quiet (p.quiet_release me), after.calm hwhole rfl⟩
  | published p n fs after =>
    refine leaves_finish (fun hbase => absurd (after.still hbase).1 (Nat.succ_ne_zero n))
      fun hfs hwhole => ?_
    subst hfs
    have hp := after.settles hwhole
    exact ⟨⟨hp.loaded, hp.settled⟩, after.calm hwhole rfl⟩

theorem leaves_mergeChanges (h : Settling c base (Whole base f.skipped) p 0 fs f.changes) :
    Leaves c answers base me (mergeChanges me p f fs) := by
  unfold mergeChanges
  split
  · next hempty =>
    rw [List.isEmpty_iff.1 hempty] at h
    refine leaves_finish (fun hbase => ⟨rfl, (h.still hbase).2⟩) fun hfs hwhole => ?_
    subst hfs
    exact ⟨h.settles hwhole, h.calm hwhole rfl⟩
  · exact leaves_merged (Merge.Lasting.comes_begin (h.of_quiet (p.quiet_acquire me)))

/-- A reload that commits publishes once. -/
theorem version_commit (hp : base.Quiet p) (me : TaskId) (entries : List Entry) :
    (Reload.commit me p p.watchList.identities.length entries).1.publisher.current.version =
      base.publisher.current.version + 1 := by
  rw [Reload.current_commit, hp.publisher]

theorem leaves_reloaded (serves : c.Serves answers) (hp : base.Quiet p)
    (loaded : base.loaded = true) (h : c.Explains base (base.watchList.due base.now) f)
    (hreload : f.reload = true) {x : Reload.Step} (hx : Reload.Leads answers me p x) :
    Leaves c answers base me (reloaded me x.1 f x.2) := by
  cases hx with
  | running q r called sound => exact .running q _ ⟨hp.trans called.quiet, loaded, h, hreload, sound⟩
  | failed q e called =>
    have hq : base.Quiet (q.release me) := (hp.trans called.quiet).trans (q.quiet_release me)
    -- The failure is noted, so nothing is to be shown about keys without a change.
    have hmerge : Leaves c answers base me (mergeChanges me (q.release me) f (f.failures ++ [e])) :=
      leaves_mergeChanges (settling_of_explains h hq loaded fun hnone =>
        absurd hnone (List.append_ne_nil_of_right_ne_nil _ (List.cons_ne_nil _ _)))
    cases e with
    | cancelled => exact .failed _ _ (keeps_of_quiet hq)
    | failover e => exact hmerge
    | adapter e => exact hmerge
    | refreshFailed failed checked first => exact hmerge
    | startupTimeout timeout last => exact hmerge
  | committed q entries called loads =>
    have hsettled := serves.settles_commit me loads
    have hrestless := h.reload hreload
    show Leaves c answers base me (finish _ f f.failures true true)
    cases hfailures : f.failures with
    | nil =>
      exact .reloaded _ _ rfl (hsettled.of_quiet (Provider.quiet_countPass _ _))
        (version_commit (hp.trans called.quiet) me entries) fun _ => hrestless
    | cons first rest =>
      -- A check has failed, so the pass fails, though the reload has published.
      exact .failed _ _ fun _ => ⟨hsettled.of_quiet (Provider.quiet_countPass _ _),
        fun hcalm => absurd hrestless hcalm⟩

theorem leaves_loaded (serves : c.Serves answers) (hp : base.Quiet p)
    (unloaded : base.loaded = false) {x : Reload.Step} (hx : Reload.Leads answers me p x) :
    Leaves c answers base me (loaded x.1 x.2) := by
  cases hx with
  | running q r called sound => exact .running q _ ⟨hp.trans called.quiet, unloaded, sound⟩
  | failed q e called =>
    refine .failed _ e (keeps_of_quiet ?_)
    exact ((hp.trans called.quiet).trans (q.quiet_release me)).trans (Provider.quiet_countPass _ _)
  | committed q entries called loads =>
    have hsettled := serves.settles_commit me loads
    refine .reloaded _ _ rfl (hsettled.of_quiet (Provider.quiet_countPass _ _))
      (version_commit (hp.trans called.quiet) me entries) fun hloaded => ?_
    cases unloaded.symm.trans hloaded

/-- Once all checks have ended, everything is reloaded, or their changes are merged. -/
theorem leaves_checked (serves : c.Serves answers) (hp : base.Quiet p) (loaded : base.loaded = true)
    {checks : List Check}
    (hchecks : Beside answers base.Watches True p (base.watchList.due base.now) checks) :
    Leaves c answers base me (checked me cancelled p checks) := by
  unfold checked
  split
  · exact .running p _ ⟨hp, loaded, hchecks⟩
  · next results hresults =>
    split
    · exact .failed p _ (keeps_of_quiet hp)
    · next f hf =>
      have hexplains := serves.explains (found_of_results hchecks hresults) hf
      split
      · next hreload =>
        exact leaves_reloaded serves (hp.trans (p.quiet_acquire me)) loaded hexplains hreload
          (Reload.leads_begin answers me cancelled p)
      · next hreload =>
        exact leaves_mergeChanges (settling_of_explains hexplains hp loaded fun hnone =>
          ⟨hnone, Bool.eq_false_iff.2 hreload⟩)

theorem leaves_begin (serves : c.Serves answers) :
    Leaves c answers base me (begin me cancelled base) := by
  unfold begin
  split
  · exact .failed base _ (keeps_of_quiet (.refl base))
  · split
    · next hloaded =>
      split
      · next hnone =>
        refine .merged base _ (fun _ => ⟨rfl, .refl base⟩) fun hwhole => ?_
        have hempty : base.watchList.watches = [] := by
          rw [WatchList.due_eq_range hwhole.1, List.range_eq_nil] at hnone
          exact List.eq_nil_of_length_eq_zero hnone
        refine ⟨⟨hloaded, ?_⟩, ?_⟩
        · rw [hempty]
          exact fun w hw => absurd hw List.not_mem_nil
        · rintro ⟨w, hw, -⟩
          rw [hempty] at hw
          cases hw
      · exact .running base _ ⟨.refl base, hloaded, beside_ready fun _ _ => .inl trivial⟩
    · next hloaded =>
      exact leaves_loaded serves (base.quiet_acquire me) (Bool.eq_false_iff.2 hloaded)
        (Reload.leads_begin answers me cancelled base)

end Steps

theorem Settles.of_quiet {s : Pass} (hs : s.Settles c answers base me p) (hq : p.Quiet q) :
    s.Settles c answers base me q := by
  cases s with
  | loading r =>
    obtain ⟨hp, unloaded, sound⟩ := hs
    exact ⟨hp.trans hq, unloaded, sound.of_sameRules hq.sameRules⟩
  | checking checks =>
    obtain ⟨hp, loaded, hchecks⟩ := hs
    exact ⟨hp.trans hq, loaded, hchecks.of_ready (.inl trivial)⟩
  | reloading f r =>
    obtain ⟨hp, loaded, hexplains, hreload, sound⟩ := hs
    exact ⟨hp.trans hq, loaded, hexplains, hreload, sound.of_sameRules hq.sameRules⟩
  | merging f m =>
    cases m with
    | waiting changes fs => exact Settling.of_quiet hs hq
    | adapting place s rest merged fs =>
      obtain ⟨checked, hafter⟩ := hs
      exact ⟨checked, Settling.of_quiet hafter hq⟩

/-- A pass that is under way leaves a provider at rest alone. -/
theorem Settles.quiet {s : Pass} (hs : s.Settles c answers base me p) (hbase : c.Settles base) :
    base.Quiet p := by
  cases s with
  | loading r => exact hs.1
  | checking checks => exact hs.1
  | reloading f r => exact hs.1
  | merging f m =>
    cases m with
    | waiting changes fs => exact (Settling.still hs hbase).2
    | adapting place s rest merged fs =>
      obtain ⟨checked, hafter⟩ := hs
      exact (Settling.still hafter hbase).2

/-- **What a step of a pass leaves.** -/
theorem leaves_handle (serves : c.Serves answers) {s : Pass} (hs : s.Settles c answers base me p)
    {i : Input} (admitted : i.Admitted answers (s.waits me p)) :
    Leaves c answers base me (s.handle me cancelled p i) := by
  cases s with
  | loading r =>
    obtain ⟨hp, unloaded, sound⟩ := hs
    exact leaves_loaded serves hp unloaded (Reload.leads_handle me cancelled sound admitted)
  | checking checks =>
    obtain ⟨hp, loaded, hchecks⟩ := hs
    have hwatched : Known base.Watches p (base.watchList.due base.now) :=
      known_watches hp.facts fun place hplace => List.mem_range.1 (List.mem_of_mem_filter hplace)
    obtain ⟨hq, hchecks⟩ := goes_checks cancelled hwatched Provider.names_of_watches
      (List.nodup_range.filter _) hchecks admitted
    exact leaves_checked serves (hp.trans hq.quiet) loaded hchecks
  | reloading f r =>
    obtain ⟨hp, loaded, hexplains, hreload, sound⟩ := hs
    exact leaves_reloaded serves hp loaded hexplains hreload
      (Reload.leads_handle me cancelled sound admitted)
  | merging f m => exact leaves_merged (Merge.Lasting.comes_handle hs i)

/-- What a pass leaves. -/
theorem leaves_of_runs (serves : c.Serves answers) {x : Step}
    (run : (stepping me).Runs answers Provider.Quiet (begin me cancelled base) x) :
    Leaves c answers base me x := by
  induction run with
  | start => exact leaves_begin serves
  | step before moved cancelled admitted ih =>
    cases ih with
    | running p s hs => exact leaves_handle serves (hs.of_quiet moved) admitted

end Pass

/-! ## One operation after the other -/

/-- Dropping a pass brings nothing. -/
theorem Pass.quiet_abandon (me : TaskId) (p : Provider) (s : Pass) : p.Quiet (s.abandon me p) := by
  cases s with
  | loading r => exact p.quiet_release me
  | checking checks =>
    obtain ⟨places, hchecked, -⟩ := p.checked_abandon checks
    exact hchecked.quiet
  | reloading f r => exact p.quiet_release me
  | merging f m => exact p.quiet_release me

namespace Contents

/-- Where a provider may get over a store that does not change: full loads and passes, each as far
as it comes, and what is quiet. -/
inductive Onward (c : Contents) (p : Provider) : Provider → Prop where
  | here : Onward c p p
  | elsewhere {q r : Provider} (before : Onward c p q) (quiet : q.Quiet r) : Onward c p r
  | load {q r : Provider} {answers : Replies} {me : TaskId} {cancelled : Bool}
      {s : Stage Reload Unit} (before : Onward c p q) (serves : c.Serves answers)
      (run : (Reload.stepping me).Runs answers Provider.Quiet (Reload.begin me cancelled q) (r, s)) :
      Onward c p r
  | pass {q r : Provider} {answers : Replies} {me : TaskId} {cancelled : Bool}
      {s : Stage Pass Report} (before : Onward c p q) (serves : c.Serves answers)
      (run : (Pass.stepping me).Runs answers Provider.Quiet (Pass.begin me cancelled q) (r, s)) :
      Onward c p r

/-- A full load leaves a provider at rest at rest. -/
theorem Settles.load (h : c.Settles p) (serves : c.Serves answers) {s : Stage Reload Unit}
    (run : (Reload.stepping me).Runs answers Provider.Quiet (Reload.begin me cancelled p) (q, s)) :
    c.Settles q := by
  obtain ⟨r, hquiet, hleads⟩ := Reload.leads_of_runs_within (p.quiet_acquire me) .trans
    Provider.Called.quiet Provider.Quiet.sameRules run
  rcases hleads.untouched_or_committed with ⟨-, hq⟩ | ⟨-, r', entries, called, loads, rfl⟩
  · exact h.of_quiet (hquiet.trans hq.quiet)
  · exact serves.settles_commit me loads

/-- So does a pass. -/
theorem Settles.pass (h : c.Settles p) (serves : c.Serves answers) {s : Stage Pass Report}
    (run : (Pass.stepping me).Runs answers Provider.Quiet (Pass.begin me cancelled p) (q, s)) :
    c.Settles q := by
  cases Pass.leaves_of_runs serves run with
  | running _ _ settles => exact h.of_quiet (settles.quiet h)
  | failed _ e keeps => exact (keeps h).1
  | merged _ report still settled => exact h.of_quiet (still h).2
  | reloaded _ report published settled version restless => exact settled

theorem Settles.onward (h : c.Settles p) (hq : c.Onward p q) : c.Settles q := by
  induction hq with
  | here => exact h
  | elsewhere before quiet ih => exact ih.of_quiet quiet
  | load before serves run ih => exact ih.load serves run
  | pass before serves run ih => exact ih.pass serves run

/-- A pass leaves a provider at rest alone, wherever it stands, unless a key asks for a reload. -/
theorem Settles.quiet_pass (h : c.Settles p) (calm : ¬ c.Restless p) (serves : c.Serves answers)
    {s : Stage Pass Report}
    (run : (Pass.stepping me).Runs answers Provider.Quiet (Pass.begin me cancelled p) (q, s)) :
    p.Quiet q := by
  cases Pass.leaves_of_runs serves run with
  | running _ _ settles => exact settles.quiet h
  | failed _ e keeps => exact (keeps h).2 calm
  | merged _ report still settled => exact (still h).2
  | reloaded _ report published settled version restless => exact absurd (restless h.loaded) calm

end Contents

namespace Pass

variable {answers' : Replies} {me' : TaskId} {cancelled' : Bool} {report : Report}
  {s : Stage Pass Report}

/-- A pass that succeeds and looks at every key brings a provider to rest. -/
theorem settles_of_pass (serves : c.Serves answers)
    (due : ∀ w ∈ base.watchList.watches, w.Due base.now)
    (pass : (stepping me).Runs answers Provider.Quiet (begin me cancelled base)
      (q, .finished (.ok report))) (skipped : report.skipped = 0) : c.Settles q := by
  cases leaves_of_runs serves pass with
  | merged _ _ still settled => exact (settled ⟨due, skipped⟩).1
  | reloaded _ _ published settled version restless => exact settled

/-- **When later passes publish nothing.**  A pass over a store that does not change any more has
succeeded, every key was due, and none was left to another pass.  From then on a key has the token
of the store, or it stays behind, which happens in optional mode to keys whose settings are
refused.  Where no key that reloads everything stays behind, no later pass publishes anything.
Where one does, every later pass that succeeds and looks at every key publishes again. -/
theorem idle_unless_restless (serves : c.Serves answers)
    (due : ∀ w ∈ base.watchList.watches, w.Due base.now)
    (first : (stepping me).Runs answers Provider.Quiet (begin me cancelled base)
      (q, .finished (.ok report))) (skipped : report.skipped = 0)
    (onward : c.Onward q p) (serves' : c.Serves answers')
    (later : (stepping me').Runs answers' Provider.Quiet (begin me' cancelled' p) (r, s)) :
    (∀ w ∈ p.watchList.watches, c.Settled p w) ∧
    (¬ c.Restless p → r.publisher = p.publisher) ∧
    (c.Restless p → ∀ report', s = .finished (.ok report') →
      (∀ w ∈ p.watchList.watches, w.Due p.now) → report'.skipped = 0 →
      report'.published = true ∧
        r.publisher.current.version = p.publisher.current.version + 1) := by
  have hp : c.Settles p := (settles_of_pass serves due first skipped).onward onward
  refine ⟨hp.settled, fun calm => (hp.quiet_pass calm serves' later).publisher, ?_⟩
  rintro restless report' rfl hdue hskipped
  cases leaves_of_runs serves' later with
  | merged _ _ still settled => exact absurd restless (settled ⟨hdue, hskipped⟩).2
  | reloaded _ _ published settled version _ => exact ⟨published, version⟩

/-- A store with a key that is to reload everything, in a form that the adapter refuses. -/
def malformed : Contents :=
  .ofSettings [⟨"Color", none, some "blue", none, ⟨"1"⟩⟩,
    ⟨"Sentinel", none, some "bad", none, ⟨"2"⟩⟩] (by decide)

/-- A provider in optional mode that reloads everything when the key changes. -/
def vigilant : Provider :=
  .new (.ofHosts ["a"]) default ⟨[.new ⟨⟨"Sentinel", none⟩, .ofSecs 1, true⟩ .start]⟩
    ⟨[⟨"kv", fun s => s.key = "Sentinel", Adapter.refuse "bad pair"⟩], []⟩
    ⟨[⟨"*", none⟩], true, .ofSecs 100⟩ .start

/-- The same provider when it has loaded. -/
def vigilantLoaded : Provider :=
  ((Reload.stepping 0).play malformed.turn 8 (Reload.begin 0 false vigilant)).1

/-- The same provider when it is time to look at the key. -/
def vigilantDue : Provider := { vigilantLoaded with now := vigilantLoaded.now + Duration.ofSecs 1 }

/-- The same provider when a pass has looked at it. -/
def vigilantRefreshed : Provider :=
  ((stepping 1).play malformed.turn 8 (begin 1 false vigilantDue)).1

/-- The same provider when it is time to look again. -/
def vigilantAgain : Provider :=
  { vigilantRefreshed with now := vigilantRefreshed.now + Duration.ofSecs 1 }

/-- Nothing has changed since the first pass, and the second one publishes again. -/
theorem idle_unless_restless_refused : ∃ r report report',
    (stepping 1).Runs malformed.replies Provider.Quiet (begin 1 false vigilantDue)
      (vigilantRefreshed, .finished (.ok report)) ∧
    (stepping 2).Runs malformed.replies Provider.Quiet (begin 2 false vigilantAgain)
      (r, .finished (.ok report')) ∧
    malformed.Restless vigilantAgain ∧ report'.published = true ∧
    r.publisher.current.version = vigilantRefreshed.publisher.current.version + 1 := by
  have hfirst := (stepping 1).runs_play Provider.Quiet.refl malformed.admitted_turn 8
    (.start : (stepping 1).Runs _ _ (begin 1 false vigilantDue) _)
  have hlater := (stepping 2).runs_play Provider.Quiet.refl malformed.admitted_turn 8
    (.start : (stepping 2).Runs _ _ (begin 2 false vigilantAgain) _)
  have hquiet : vigilantRefreshed.Quiet vigilantAgain := ⟨rfl, rfl, rfl, rfl, rfl⟩
  have hrestless : malformed.Restless vigilantAgain := by
    refine ⟨_, List.head_mem (l := vigilantAgain.watchList.watches) (by decide +kernel), ?_⟩
    decide +kernel
  obtain ⟨-, -, hagain⟩ := idle_unless_restless malformed.serves_replies (by decide +kernel) hfirst
    rfl (.elsewhere .here hquiet) malformed.serves_replies hlater
  obtain ⟨hpublished, hversion⟩ := hagain hrestless _ rfl (by decide +kernel) rfl
  exact ⟨_, _, _, hfirst, hlater, hrestless, hpublished, hversion⟩

end Pass
end ReplicatedConfig
