import ReplicatedConfig.Proofs.Refresh.Merging

/-!
# What one step may change

Checks, reloads and merges hold back what they find until one step of theirs commits it.  The
lemmas here say so for any step at all: from any provider, in any phase and for any input, with
nothing assumed about how the operation came there.  So they hold whatever happens between two
steps of one operation.

`Provider.Unmoved` is what such a step leaves alone while it commits nothing.  Claims on keys, the
lock, the pool and the counters of requests are not part of it.

A step together with what it found is a `Stepping.Move`, and `Stepping.Path` is all that an
operation may come to by a list of moves.  `Stepping.Runs` forgets the moves; they are needed to
say which request was given up, how often something was published, or which adapter refused what.
-/

namespace ReplicatedConfig

variable {σ α : Type}

/-! ## Steps that commit nothing -/

/-- What the provider holds, shows and has counted of its passes is the same.  Requests may have
been made. -/
structure Provider.Unmoved (p q : Provider) : Prop where
  known : q.watchList.known = p.watchList.known
  materialized : q.materialized = p.materialized
  loaded : q.loaded = p.loaded
  publisher : q.publisher = p.publisher
  passes : q.metrics.passes = p.metrics.passes
  options : q.options = p.options
  pipeline : q.pipeline = p.pipeline
  now : q.now = p.now
  calls : p.calls ≤ q.calls

namespace Provider

variable {p q r : Provider}

theorem Unmoved.refl (p : Provider) : p.Unmoved p :=
  ⟨rfl, rfl, rfl, rfl, rfl, rfl, rfl, rfl, Nat.le_refl _⟩

theorem Unmoved.trans (hq : p.Unmoved q) (hr : q.Unmoved r) : p.Unmoved r where
  known := hr.known.trans hq.known
  materialized := hr.materialized.trans hq.materialized
  loaded := hr.loaded.trans hq.loaded
  publisher := hr.publisher.trans hq.publisher
  passes := hr.passes.trans hq.passes
  options := hr.options.trans hq.options
  pipeline := hr.pipeline.trans hq.pipeline
  now := hr.now.trans hq.now
  calls := Nat.le_trans hq.calls hr.calls

theorem unmoved_acquire (p : Provider) (me : TaskId) : p.Unmoved (p.acquire me) :=
  ⟨rfl, rfl, rfl, rfl, rfl, rfl, rfl, rfl, Nat.le_refl _⟩

theorem unmoved_release (p : Provider) (me : TaskId) : p.Unmoved (p.release me) :=
  ⟨rfl, rfl, rfl, rfl, rfl, rfl, rfl, rfl, Nat.le_refl _⟩

/-- Changing the hold on a key or its next look. -/
theorem unmoved_modify (p : Provider) (place : Nat) {f : Watch → Watch}
    (hf : ∀ w, (f w).identity = w.identity ∧ (f w).token = w.token) :
    p.Unmoved { p with watchList := p.watchList.modify place f } :=
  ⟨p.watchList.known_modify place hf, rfl, rfl, rfl, rfl, rfl, rfl, rfl, Nat.le_refl _⟩

theorem unmoved_letGo (p : Provider) (place : Nat) : p.Unmoved (p.letGo place) :=
  p.unmoved_modify place fun _ => ⟨rfl, rfl⟩

theorem unmoved_begin? {place : Nat} {l : WatchList}
    (h : p.watchList.begin? place p.now = some l) : p.Unmoved { p with watchList := l } := by
  rw [WatchList.begin?] at h
  split at h
  · split at h
    · cases h
      exact p.unmoved_modify place fun _ => ⟨rfl, rfl⟩
    · cases h
  · cases h

/-! Requests count attempts, and no passes. -/

theorem unmoved_apply (p : Provider) (e : Effect) : p.Unmoved (p.apply e) := by
  cases e <;> exact ⟨rfl, rfl, rfl, rfl, rfl, rfl, rfl, rfl, Nat.le_refl _⟩

theorem unmoved_take (p : Provider) (t : Turn σ α) : p.Unmoved (p.take t).1 := by
  show p.Unmoved (t.effects.foldl apply p)
  generalize t.effects = effects
  induction effects generalizing p with
  | nil => exact .refl p
  | cons e rest ih => exact (p.unmoved_apply e).trans (ih (p.apply e))

theorem unmoved_openCall (p : Provider) (k : Conversation σ α) (fresh : σ) (cancelled : Bool) :
    p.Unmoved (p.openCall k fresh cancelled).1 := by
  unfold openCall
  split
  · exact .refl p
  · have hcounted : p.Unmoved { p with calls := p.calls + 1 } :=
      ⟨rfl, rfl, rfl, rfl, rfl, rfl, rfl, rfl, Nat.le_succ _⟩
    exact hcounted.trans (unmoved_take _ _)

theorem unmoved_drive (p : Provider) (k : Conversation σ α) (c : Call σ) (i : Input) :
    p.Unmoved (p.drive k c i).1 := by
  cases i with
  | answered ticket reply => exact p.unmoved_take _
  | fallback serial =>
    rw [drive]
    split
    · exact p.unmoved_take _
    · exact .refl p
  | cancelled => exact .refl p
  | resumed => exact .refl p
  | woke => exact .refl p

end Provider

variable {me : TaskId} {cancelled : Bool} {p q : Provider}

/-! ## Reloads -/

namespace Reload

/-- What a step of a reload makes of the provider: it goes on or fails, with nothing changed, or
it commits. -/
inductive Outcome (me : TaskId) (p : Provider) : Step → Prop where
  | running (q : Provider) (r : Reload) (unmoved : p.Unmoved q) : Outcome me p (q, .running r)
  | failed (q : Provider) (e : ProviderError) (unmoved : p.Unmoved q) :
      Outcome me p (q, .finished (.error e))
  | committed (q : Provider) (watched : Nat) (entries : List Entry) (unmoved : p.Unmoved q) :
      Outcome me p (commit me q watched entries)

theorem Outcome.of_unmoved {x : Step} (hq : p.Unmoved q) (h : Outcome me q x) : Outcome me p x := by
  cases h with
  | running r phase unmoved => exact .running r phase (hq.trans unmoved)
  | failed r e unmoved => exact .failed r e (hq.trans unmoved)
  | committed r watched entries unmoved => exact .committed r watched entries (hq.trans unmoved)

theorem outcome_fail (p : Provider) (e : ProviderError) : Outcome me p (fail me p e) :=
  .failed _ e (p.unmoved_release me)

theorem outcome_adaptNext (p : Provider) (watched : Nat) (raw : List Setting)
    (previous done : List Entry) : Outcome me p (adaptNext me p watched raw previous done) := by
  cases raw with
  | nil => exact .committed p watched done (.refl p)
  | cons s rest => exact .running p _ (.refl p)

theorem outcome_adapted (p : Provider) (watched : Nat) (s : Setting) (rest : List Setting)
    (previous done : List Entry) : Outcome me p (adapted me p watched s rest previous done) := by
  rw [adapted]
  split
  · exact outcome_adaptNext p watched rest _ _
  · split
    · exact outcome_adaptNext p watched rest _ _
    · exact outcome_fail p _

theorem outcome_fetchNext (watched : Nat) (places : List Nat) (p : Provider) (raw : List Setting) :
    Outcome me p (fetchNext me cancelled p watched places raw) := by
  induction places generalizing p raw with
  | nil => exact outcome_adaptNext p watched raw _ _
  | cons place places ih =>
    rw [fetchNext]
    split
    · exact ih p raw
    · next w hw =>
      split
      · exact ih p raw
      · have hopen := p.unmoved_openCall .fetch w.identity cancelled
        generalize p.openCall .fetch w.identity cancelled = x at hopen
        obtain ⟨q, progress⟩ := x
        cases progress with
        | waiting call => exact .running q _ hopen
        | returned result =>
          refine Outcome.of_unmoved hopen ?_
          dsimp only
          split
          · exact outcome_fail q _
          · exact ih q _

theorem outcome_fetched (p : Provider) (watched : Nat) (places : List Nat) (raw : List Setting)
    (progress : Progress Identity (Option Setting)) :
    Outcome me p (fetched me cancelled p watched places raw progress) := by
  cases progress with
  | waiting call => exact .running p _ (.refl p)
  | returned result =>
    rw [fetched]
    split
    · exact outcome_fail p _
    · exact outcome_fetchNext watched places p _

theorem outcome_listed (me : TaskId) (p : Provider) (progress : Progress Listing (List Setting)) :
    Outcome me p (listed me cancelled p progress) := by
  rcases progress with call | (e | ⟨settings, m⟩)
  · exact .running p _ (.refl p)
  · exact outcome_fail p _
  · exact outcome_fetchNext _ _ p _

theorem outcome_enter (p : Provider) : Outcome me p (enter me cancelled p) := by
  unfold enter
  split
  · exact Outcome.of_unmoved (p.unmoved_openCall _ _ _) (outcome_listed me _ _)
  · exact .running p _ (.refl p)

theorem outcome_begin (me : TaskId) (cancelled : Bool) (p : Provider) :
    Outcome me p (begin me cancelled p) :=
  Outcome.of_unmoved (p.unmoved_acquire me) (outcome_enter _)

/-- **A step of a reload changes nothing until it commits**, whatever reaches it. -/
theorem outcome_handle (me : TaskId) (cancelled : Bool) (p : Provider) (r : Reload) (i : Input) :
    Outcome me p (r.handle me cancelled p i) := by
  have hstay : Outcome me p (p, .running r) := .running p r (.refl p)
  cases r with
  | waiting =>
    cases i with
    | resumed => exact outcome_enter p
    | answered ticket reply => exact hstay
    | fallback serial => exact hstay
    | cancelled => exact hstay
    | woke => exact hstay
  | listing call => exact Outcome.of_unmoved (p.unmoved_drive _ _ _) (outcome_listed me _ _)
  | fetching watched places raw call =>
    exact Outcome.of_unmoved (p.unmoved_drive _ _ _) (outcome_fetched _ _ _ _ _)
  | adapting watched s rest previous done =>
    cases i with
    | resumed => exact outcome_adapted p watched s rest previous done
    | answered ticket reply => exact hstay
    | fallback serial => exact hstay
    | cancelled => exact hstay
    | woke => exact hstay

theorem Outcome.calls_le {x : Step} (h : Outcome me p x) : p.calls ≤ x.1.calls := by
  cases h with
  | running q r unmoved => exact unmoved.calls
  | failed q e unmoved => exact unmoved.calls
  | committed q watched entries unmoved => exact unmoved.calls

/-- Also a commit takes no time, and leaves the options alone. -/
theorem Outcome.sameClock {x : Step} (h : Outcome me p x) :
    x.1.now = p.now ∧ x.1.options = p.options := by
  cases h with
  | running q r unmoved => exact ⟨unmoved.now, unmoved.options⟩
  | failed q e unmoved => exact ⟨unmoved.now, unmoved.options⟩
  | committed q watched entries unmoved => exact ⟨unmoved.now, unmoved.options⟩

end Reload

/-! ## Checks -/

namespace Check

theorem unmoved_finish (p : Provider) (place : Nat) (result : Except ProviderError Finding) :
    p.Unmoved (finish p place result).1 :=
  p.unmoved_letGo place

theorem unmoved_fetched (p : Provider) (place : Nat) (known : Option Token)
    (progress : Progress Identity (Option Setting)) : p.Unmoved (fetched p place known progress).1 := by
  cases progress with
  | waiting call => exact .refl p
  | returned result =>
    rw [fetched]
    split <;> exact unmoved_finish p place _

theorem unmoved_judged (p : Provider) (place : Nat) (w : Watch) (known : Option Token)
    (v : Verdict) : p.Unmoved (judged cancelled p place w known v).1 := by
  cases v with
  | unchanged => exact unmoved_finish p place _
  | missing => exact unmoved_finish p place _
  | modified =>
    rw [judged]
    split
    · exact unmoved_finish p place _
    · exact (p.unmoved_openCall _ _ _).trans (unmoved_fetched _ _ _ _)

theorem unmoved_checked (p : Provider) (place : Nat) (known : Option Token)
    (progress : Progress (Identity × Option Token) Verdict) :
    p.Unmoved (checked cancelled p place known progress).1 := by
  cases progress with
  | waiting call => exact .refl p
  | returned result =>
    rw [checked]
    split
    · exact unmoved_finish p place _
    · exact unmoved_judged p place _ known _
    · exact unmoved_finish p place _

theorem unmoved_start (p : Provider) (place : Nat) : p.Unmoved (start cancelled p place).1 := by
  rw [start]
  split
  · next hl _ =>
    exact ((Provider.unmoved_begin? hl).trans (Provider.unmoved_openCall _ _ _ _)).trans
      (unmoved_checked _ _ _ _)
  · exact .refl p

/-- **No step of a check changes anything.** -/
theorem unmoved_handle (cancelled : Bool) (p : Provider) (c : Check) (i : Input) :
    p.Unmoved (c.handle cancelled p i).1 := by
  cases c with
  | ready place =>
    cases i with
    | resumed => exact unmoved_start p place
    | answered ticket reply => exact .refl p
    | fallback serial => exact .refl p
    | cancelled => exact .refl p
    | woke => exact .refl p
  | checking place known call => exact (p.unmoved_drive _ _ _).trans (unmoved_checked _ _ _ _)
  | fetching place known call => exact (p.unmoved_drive _ _ _).trans (unmoved_fetched _ _ _ _)
  | finished result => exact .refl p

end Check

namespace Pass

theorem unmoved_driveChecks (i : Input) (checks : List Check) (p : Provider) :
    p.Unmoved (driveChecks cancelled i p checks).1 := by
  induction checks generalizing p with
  | nil => exact .refl p
  | cons c rest ih => exact (c.unmoved_handle cancelled p i).trans (ih _)

theorem unmoved_startCheck (checks : List Check) (p : Provider) :
    p.Unmoved (startCheck cancelled p checks).1 := by
  induction checks generalizing p with
  | nil => exact .refl p
  | cons c rest ih =>
    rw [startCheck]
    split
    · exact c.unmoved_handle cancelled p .resumed
    · exact ih p

end Pass

/-! ## Merges -/

/-- Nothing has been published and no pass counted, and merging goes by the same rules. -/
structure Provider.Unpublished (p q : Provider) : Prop where
  publisher : q.publisher = p.publisher
  passes : q.metrics.passes = p.metrics.passes
  options : q.options = p.options
  pipeline : q.pipeline = p.pipeline

namespace Provider

variable {r : Provider}

theorem Unpublished.refl (p : Provider) : p.Unpublished p := ⟨rfl, rfl, rfl, rfl⟩

theorem Unpublished.trans (hq : p.Unpublished q) (hr : q.Unpublished r) : p.Unpublished r where
  publisher := hr.publisher.trans hq.publisher
  passes := hr.passes.trans hq.passes
  options := hr.options.trans hq.options
  pipeline := hr.pipeline.trans hq.pipeline

theorem Unmoved.unpublished (h : p.Unmoved q) : p.Unpublished q :=
  ⟨h.publisher, h.passes, h.options, h.pipeline⟩

end Provider

namespace Merge

variable {changes : List PointChange} {failures : List ProviderError}

/-- What a merge that holds the lock makes of the provider, if `changes` are left for it and it
knows of `failures`: it waits for the adapter of one of the changes, or it ends. -/
inductive Outcome (me : TaskId) (p : Provider) (changes : List PointChange)
    (failures : List ProviderError) : Step → Prop where
  | adapting (q : Provider) (place : Nat) (checked : Option Token) (s : Setting)
      (rest : List PointChange) (merged : Nat) (unpublished : p.Unpublished q)
      (left : .upsert place checked s :: rest <:+ changes) :
      Outcome me p changes failures (q, .inl (.adapting place s rest merged failures))
  | idle (q : Provider) (unpublished : p.Unpublished q) :
      Outcome me p changes failures (q.release me, .inr (false, failures))
  | published (q : Provider) (unpublished : p.Unpublished q) :
      Outcome me p changes failures (q.publish.release me, .inr (true, failures))

theorem Outcome.of_unpublished {x : Step} (hq : p.Unpublished q)
    (h : Outcome me q changes failures x) : Outcome me p changes failures x := by
  cases h with
  | adapting r place checked s rest merged unpublished left =>
    exact .adapting r place checked s rest merged (hq.trans unpublished) left
  | idle r unpublished => exact .idle r (hq.trans unpublished)
  | published r unpublished => exact .published r (hq.trans unpublished)

theorem Outcome.of_tail {x : Step} {change : PointChange} (h : Outcome me p changes failures x) :
    Outcome me p (change :: changes) failures x := by
  cases h with
  | adapting r place checked s rest merged unpublished left =>
    exact .adapting r place checked s rest merged unpublished
      (left.trans (List.suffix_cons change changes))
  | idle r unpublished => exact .idle r unpublished
  | published r unpublished => exact .published r unpublished

theorem outcome_finish (p : Provider) (changes : List PointChange) (merged : Nat)
    (failures : List ProviderError) : Outcome me p changes failures (finish me p merged failures) := by
  rw [finish]
  split
  · exact .idle p (.refl p)
  · exact .published p (.refl p)

theorem outcome_advance (changes : List PointChange) (p : Provider) (merged : Nat)
    (failures : List ProviderError) :
    Outcome me p changes failures (advance me p merged failures changes) := by
  induction changes generalizing p merged with
  | nil => exact outcome_finish p [] merged failures
  | cons change rest ih =>
    cases change with
    | upsert place checked s =>
      rw [advance]
      split
      · exact .adapting p place checked s rest merged (.refl p) (List.suffix_refl _)
      · exact (ih p merged).of_tail
    | remove place checked =>
      rw [advance]
      split
      · have hnoted : p.Unpublished (p.setToken place none) := ⟨rfl, rfl, rfl, rfl⟩
        refine Outcome.of_tail (.of_unpublished hnoted ?_)
        dsimp only
        split
        · exact ih _ merged
        · next w hw =>
          split
          · have hremoved : (p.setToken place none).Unpublished (p.withoutSetting place w.identity) :=
              ⟨rfl, rfl, rfl, rfl⟩
            exact .of_unpublished hremoved (ih _ (merged + 1))
          · exact ih _ merged
      · exact (ih p merged).of_tail

/-- A merge takes up its changes as soon as it has the lock. -/
theorem outcome_enter (me : TaskId) (p : Provider) (changes : List PointChange)
    (failures : List ProviderError) :
    enter me p changes failures = (p, .inl (.waiting changes failures)) ∨
      Outcome me p changes failures (enter me p changes failures) := by
  rw [enter]
  split
  · exact .inr (outcome_advance changes p 0 failures)
  · exact .inl rfl

/-- The failures of a merge once an adapter has finished. -/
def failuresAfter (p : Provider) (s : Setting) (failures : List ProviderError) :
    List ProviderError :=
  match p.pipeline.process s with
  | .ok _ => failures
  | .error e => if p.options.optional then failures else failures ++ [.adapter e]

theorem outcome_adapted (me : TaskId) (p : Provider) (place : Nat) (s : Setting)
    (rest : List PointChange) (merged : Nat) (failures : List ProviderError) :
    Outcome me p rest (failuresAfter p s failures) (adapted me p place s rest merged failures) := by
  rw [adapted, failuresAfter]
  cases p.pipeline.process s with
  | ok pairs =>
    have hput : p.Unpublished (p.withEntry place ⟨s, pairs⟩) := ⟨rfl, rfl, rfl, rfl⟩
    exact .of_unpublished hput (outcome_advance rest _ (merged + 1) failures)
  | error e => exact outcome_advance rest p merged _

end Merge

/-! ## Moves -/

/-- A step that an operation has taken: where it stood, and what reached it with which provider.
`given` says whether its caller had given up by then. -/
structure Stepping.Move (μ : Type) where
  found : Provider
  phase : μ
  given : Bool
  input : Input

namespace Stepping

variable {μ : Type}

/-- What a move comes to. -/
def comesTo (o : Stepping μ α) (m : Move μ) : Provider × Stage μ α :=
  o.handle m.given m.found m.phase m.input

/-- What an operation that starts at `x` comes to by a list of moves.  Anything at all may happen
to the provider between two of them. -/
inductive Path (o : Stepping μ α) (x : Provider × Stage μ α) :
    List (Move μ) → Provider × Stage μ α → Prop where
  | start : Path o x [] x
  | step {moves : List (Move μ)} {p : Provider} (m : Move μ)
      (before : Path o x moves (p, .running m.phase)) : Path o x (moves ++ [m]) (o.comesTo m)

/-- Each move but the last one has come to an operation that goes on. -/
theorem Path.goesOn {o : Stepping μ α} {x y : Provider × Stage μ α} {moves : List (Move μ)}
    (h : o.Path x moves y) :
    (∀ m ∈ moves, (∃ phase, (o.comesTo m).2 = .running phase) ∨ o.comesTo m = y) ∧
      (x = y ∨ ∃ phase, x.2 = .running phase) := by
  induction h with
  | start => exact ⟨List.forall_mem_nil _, .inl rfl⟩
  | @step moves p m before ih =>
    refine ⟨fun m' hm' => ?_, .inr ?_⟩
    · rcases List.mem_append.1 hm' with hm' | hm'
      · rcases ih.1 m' hm' with hruns | hlast
        · exact .inl hruns
        · exact .inl ⟨m.phase, by rw [hlast]⟩
      · exact .inr (by rw [List.mem_singleton.1 hm'])
    · rcases ih.2 with hstart | hruns
      · exact ⟨m.phase, by rw [hstart]⟩
      · exact hruns

/-- An operation that is alone goes on with one input after the other, for as long as it runs. -/
def follow (o : Stepping μ α) : List Input → Provider × Stage μ α → Provider × Stage μ α
  | i :: rest, (p, .running phase) => follow o rest (o.comesTo ⟨p, phase, false, i⟩)
  | _, x => x

/-- Its moves. -/
def trail (o : Stepping μ α) : List Input → Provider × Stage μ α → List (Move μ)
  | i :: rest, (p, .running phase) =>
    ⟨p, phase, false, i⟩ :: trail o rest (o.comesTo ⟨p, phase, false, i⟩)
  | _, _ => []

theorem path_follow (o : Stepping μ α) (inputs : List Input) {x y : Provider × Stage μ α}
    {moves : List (Move μ)} (h : o.Path x moves y) :
    o.Path x (moves ++ o.trail inputs y) (o.follow inputs y) := by
  induction inputs generalizing moves y with
  | nil => simpa only [trail, follow, List.append_nil] using h
  | cons i rest ih =>
    obtain ⟨p, phase | r⟩ := y
    · have hstep := ih (.step ⟨p, phase, false, i⟩ h)
      rwa [List.append_assoc] at hstep
    · simpa only [trail, follow, List.append_nil] using h

end Stepping
end ReplicatedConfig
