import ReplicatedConfig.Proofs.Refresh.Runs

/-!
# What lasts through a merge

A merge goes through its changes one after the other, and may have to wait for an adapter at
each of them.  `Lasting` is a predicate on the provider, the number of changes merged and the
changes still to come, together with the reasons why it lasts: there is one for each thing
that may become of a change.  Given these, it holds at every stop of the merge and at its end
(`comes_begin`, `comes_handle`), where the snapshot is published if anything was merged.

Before it has the lock a merge has not done anything; what holds of it then is `before`.
-/

namespace ReplicatedConfig

namespace Provider

/-- A change that takes away a setting has been merged. -/
def withoutSetting (p : Provider) (place : Nat) (i : Identity) : Provider :=
  { p.setToken place none with materialized := p.materialized.remove i }

/-- A change that brings a setting has been merged. -/
def withEntry (p : Provider) (place : Nat) (e : Entry) : Provider :=
  { p.setToken place (some e.setting.token) with materialized := p.materialized.upsert e }

variable (p : Provider) (place : Nat)

theorem tokenAt_setToken {place other : Nat} (h : place ≠ other) (token : Option Token) :
    (p.setToken place token).tokenAt other = p.tokenAt other := by
  rw [tokenAt, setToken, WatchList.setToken, WatchList.get?_modify, if_neg h, tokenAt]

/-- The token that has been noted for a watched key is known. -/
theorem tokenAt_setToken_self {i : Identity} (h : p.watchList.identities[place]? = some i)
    (token : Option Token) : (p.setToken place token).tokenAt place = token := by
  rw [WatchList.getElem?_identities] at h
  obtain ⟨w, hw, -⟩ := Option.map_eq_some_iff.1 h
  rw [tokenAt, setToken, WatchList.setToken, WatchList.get?_modify, if_pos rfl, hw]
  rfl

theorem sameRules_setToken (token : Option Token) : p.SameRules (p.setToken place token) :=
  ⟨rfl, rfl, p.watchList.identities_setToken place token⟩

theorem sameRules_withoutSetting (i : Identity) : p.SameRules (p.withoutSetting place i) :=
  ⟨rfl, rfl, p.watchList.identities_setToken place none⟩

theorem sameRules_withEntry (e : Entry) : p.SameRules (p.withEntry place e) :=
  ⟨rfl, rfl, p.watchList.identities_setToken place (some e.setting.token)⟩

end Provider

namespace Merge

/-- What lasts through a merge. -/
structure Lasting (me : TaskId) where
  /-- What holds before the merge has the lock. -/
  before : Provider → List ProviderError → List PointChange → Prop
  /-- What holds of the failures so far and of the changes that are still to come, when some
  have been merged. -/
  after : Provider → Nat → List ProviderError → List PointChange → Prop
  enters : ∀ {p fs changes}, before p fs changes → p.lock.isHeldBy me = true → after p 0 fs changes
  stale : ∀ {p n fs change rest}, after p n fs (change :: rest) → ¬ change.IsCurrent p →
    after p n fs rest
  /-- A setting that is gone had not been loaded. -/
  absent : ∀ {p n fs place checked rest}, after p n fs (.remove place checked :: rest) →
    p.tokenAt place = checked →
    (∀ w, p.watchList.get? place = some w → p.materialized.find? w.identity = none) →
    after (p.setToken place none) n fs rest
  removed : ∀ {p n fs place checked rest w}, after p n fs (.remove place checked :: rest) →
    p.tokenAt place = checked → p.watchList.get? place = some w →
    p.materialized.find? w.identity ≠ none →
    after (p.withoutSetting place w.identity) (n + 1) fs rest
  upserted : ∀ {p n fs place checked s rest pairs}, after p n fs (.upsert place checked s :: rest) →
    p.pipeline.process s = .ok pairs → after (p.withEntry place ⟨s, pairs⟩) (n + 1) fs rest
  refused : ∀ {p n fs place checked s rest e}, after p n fs (.upsert place checked s :: rest) →
    p.pipeline.process s = .error e →
    after p n (if p.options.optional then fs else fs ++ [.adapter e]) rest

namespace Lasting

variable {me : TaskId} (I : Lasting me)

/-- Where a merge may stand. -/
def Stands (p : Provider) : Merge → Prop
  | .waiting changes fs => I.before p fs changes
  | .adapting place s rest merged fs =>
    ∃ checked, I.after p merged fs (.upsert place checked s :: rest)

/-- What a step of a merge may come to. -/
inductive Comes : Step → Prop where
  | running (p : Provider) (m : Merge) (stands : I.Stands p m) : Comes (p, .inl m)
  | idle (p : Provider) (fs : List ProviderError) (after : I.after p 0 fs []) :
      Comes (p.release me, .inr (false, fs))
  | published (p : Provider) (n : Nat) (fs : List ProviderError) (after : I.after p (n + 1) fs []) :
      Comes (p.publish.release me, .inr (true, fs))

variable {I} {p : Provider} {fs : List ProviderError} {changes : List PointChange}

theorem comes_finish {n : Nat} (h : I.after p n fs []) : I.Comes (finish me p n fs) := by
  cases n with
  | zero => exact .idle p fs h
  | succ n => exact .published p n fs h

/-- Merging goes on to the next change that needs an adapter, or to the end. -/
theorem comes_advance {n : Nat} (h : I.after p n fs changes) :
    I.Comes (advance me p n fs changes) := by
  -- The induction is on the changes; there is a reason for every way that one can go.
  induction changes generalizing p n with
  | nil => exact comes_finish h
  | cons change rest ih =>
    have hstale (hc : ¬ change.IsCurrent p) : I.Comes (advance me p n fs rest) := ih (I.stale h hc)
    cases change with
    | upsert place checked s =>
      rw [advance]
      split
      · exact .running p _ ⟨checked, h⟩
      · next hc => exact hstale hc
    | remove place checked =>
      rw [advance]
      split
      · next hcurrent =>
        -- The name is looked up when its token has been forgotten already.
        have hget : (p.setToken place none).watchList.get? place =
            (p.watchList.get? place).map fun w => { w with token := none } := by
          rw [Provider.setToken, WatchList.setToken, WatchList.get?_modify, if_pos rfl]
        cases hw : p.watchList.get? place with
        | none =>
          rw [hw, Option.map_none] at hget
          simp only [hget]
          refine ih (I.absent h hcurrent fun w hw' => ?_)
          rw [hw] at hw'
          cases hw'
        | some w =>
          rw [hw, Option.map_some] at hget
          simp only [hget]
          split
          · next hsome => exact ih (I.removed h hcurrent hw (Option.isSome_iff_ne_none.1 hsome))
          · next hnone =>
            refine ih (I.absent h hcurrent fun w' hw' => ?_)
            rw [hw] at hw'
            cases hw'
            exact Option.not_isSome_iff_eq_none.1 hnone
      · next hc => exact hstale hc

theorem comes_enter (h : I.before p fs changes) : I.Comes (enter me p changes fs) := by
  unfold enter
  split
  · next hheld => exact comes_advance (I.enters h hheld)
  · exact .running p _ h

/-- A merge asks for the lock first. -/
theorem comes_begin (h : I.before (p.acquire me) fs changes) : I.Comes (begin me p changes fs) :=
  comes_enter h

/-- **What a step of a merge may come to**, whatever reaches it. -/
theorem comes_handle {m : Merge} (h : I.Stands p m) (i : Input) : I.Comes (m.handle me p i) := by
  have hstay : I.Comes (p, .inl m) := .running p m h
  cases m with
  | waiting changes fs =>
    cases i with
    | resumed => exact comes_enter h
    | answered ticket reply => exact hstay
    | fallback serial => exact hstay
    | cancelled => exact hstay
    | woke => exact hstay
  | adapting place s rest merged fs =>
    cases i with
    | resumed =>
      obtain ⟨checked, hafter⟩ := h
      show I.Comes (adapted me p place s rest merged fs)
      unfold adapted
      cases hpairs : p.pipeline.process s with
      | ok pairs => exact comes_advance (I.upserted hafter hpairs)
      | error e => exact comes_advance (I.refused hafter hpairs)
    | answered ticket reply => exact hstay
    | fallback serial => exact hstay
    | cancelled => exact hstay
    | woke => exact hstay

end Lasting
end Merge
end ReplicatedConfig
