import ReplicatedConfig.Proofs.Precedence.LoadOrder

/-!
# Which selector wins

A reload lists the selectors in order, and keeps each setting once: where it was first
listed.  So the order that decides a key is that of the first listings, and a selector that
lists a setting again does not bring it forward (`published_iff`).

## Where later selectors override earlier ones

Taken literally, a later selector overrides an earlier one if the order that decides is that
of all listings, each setting counting where it was last listed.  The two orders agree about
a key exactly when the setting listed last and the setting whose first listing comes last
give it the same value; where selectors do not overlap they agree about all keys
(`published_of_nodup`), and two listings of one setting with another one between them are
enough to tell them apart (`repeating`).
-/

namespace ReplicatedConfig

namespace Reload

variable {c : Contents} {answers : Replies} {p q : Provider} {me : TaskId} {cancelled : Bool}

/-- Where the selectors choose what the watched names stand for, the listings are all that is
loaded. -/
theorem loadOrder_of_covered {selectors : List Selector} {watched : List Identity}
    (covered : ∀ i ∈ watched, ∀ s, c.find? i = some s → ∃ sel ∈ selectors, sel.selects s = true) :
    c.loadOrder selectors watched = (c.listed selectors).eraseDups := by
  have hnone : c.unlisted (c.listed selectors).eraseDups watched = [] := by
    rw [List.eq_nil_iff_forall_not_mem]
    intro s hs
    obtain ⟨hs, hwatched, habsent⟩ := Contents.mem_unlisted.1 hs
    refine habsent (List.mem_map_of_mem (List.mem_eraseDups.2 ?_))
    exact Contents.mem_listed.2 ⟨hs, covered _ hwatched s hs⟩
  rw [Contents.loadOrder, hnone, List.append_nil]

/-- **When later selectors override earlier ones.**  The value of a key is that of the last
pair for it in the order of the listings, and so comes from the latest selector that brings
a pair for it, exactly when the last listings and the first listings settle the key alike. -/
theorem published_iff (serves : c.Serves answers)
    (accepts : ∀ i s, c.find? i = some s → ∃ pairs, p.pipeline.process s = .ok pairs)
    (covered : ∀ i ∈ p.watchList.identities, ∀ s, c.find? i = some s →
      ∃ sel ∈ p.options.selectors, sel.selects s = true)
    (run : (stepping me).Runs answers Provider.SameRules (begin me cancelled p)
      (q, .finished (.ok ()))) (key : String) :
    (q.publisher.current.values.get? key =
        Order.valueIn p.pipeline.pairsOf key (c.listed p.options.selectors) ↔
      Order.Settled p.pipeline.pairsOf key (c.listed p.options.selectors)) ∧
    ∀ before sel after, p.options.selectors = before ++ sel :: after →
      (∃ s ∈ c.listing sel, Order.valueOf p.pipeline.pairsOf key s ≠ none) →
      (∀ later ∈ after, ∀ s ∈ c.listing later, Order.valueOf p.pipeline.pairsOf key s = none) →
      (q.publisher.current.values.get? key =
          Order.valueIn p.pipeline.pairsOf key (c.listing sel) ↔
        Order.Settled p.pipeline.pairsOf key (c.listed p.options.selectors)) := by
  have hvalue := get?_of_runs serves accepts run key
  rw [loadOrder_of_covered covered] at hvalue
  have hiff : q.publisher.current.values.get? key =
      Order.valueIn p.pipeline.pairsOf key (c.listed p.options.selectors) ↔
      Order.Settled p.pipeline.pairsOf key (c.listed p.options.selectors) := by
    rw [hvalue, Order.settled_iff]
    exact eq_comm
  refine ⟨hiff, fun before sel after hselectors hsel hafter => ?_⟩
  have hlatest : Order.valueIn p.pipeline.pairsOf key (c.listed p.options.selectors) =
      Order.valueIn p.pipeline.pairsOf key (c.listing sel) := by
    rw [Contents.listed, hselectors]
    exact Order.valueIn_flatMap hsel hafter
  rw [← hlatest]
  exact hiff

/-- A setting and a variant of it with a label. -/
def colors : Contents :=
  .ofSettings [⟨"Color", none, some "blue", none, ⟨"1"⟩⟩,
    ⟨"Color", some "prod", some "purple", none, ⟨"2"⟩⟩] (by decide)

/-- A provider that lists the settings without a label again behind those with one. -/
def repeating : Provider :=
  .new (.ofHosts ["a"]) default .empty .empty
    ⟨[⟨"*", none⟩, ⟨"*", some "prod"⟩, ⟨"*", none⟩], false, .ofSecs 100⟩ .start

/-- The last selector brings `blue`, and `purple` is published: the setting listed last was
there before the other one. -/
theorem published_repeating : ∃ q,
    (stepping 0).Runs colors.replies Provider.SameRules (begin 0 false repeating)
      (q, .finished (.ok ())) ∧
      q.publisher.current.values.get? "Color" = some "purple" ∧
      Order.valueIn repeating.pipeline.pairsOf "Color" (colors.listing ⟨"*", none⟩) = some "blue" ∧
      ¬ Order.Settled repeating.pipeline.pairsOf "Color"
        (colors.listed repeating.options.selectors) := by
  have hrun := (stepping 0).runs_play Provider.SameRules.refl colors.admitted_turn 6
    (.start : (stepping 0).Runs _ _ (begin 0 false repeating) _)
  refine ⟨_, hrun, rfl, by decide, fun hsettled => ?_⟩
  have hblue := (published_iff colors.serves_replies (fun i s _ => ⟨_, rfl⟩)
    (fun i hi => absurd hi List.not_mem_nil) hrun "Color").1.2 hsettled
  have hpurple : some "purple" = some "blue" := hblue
  exact absurd (Option.some.inj hpurple) (by decide)

/-- Where no setting is listed twice, later selectors override earlier ones. -/
theorem published_of_nodup (serves : c.Serves answers)
    (accepts : ∀ i s, c.find? i = some s → ∃ pairs, p.pipeline.process s = .ok pairs)
    (covered : ∀ i ∈ p.watchList.identities, ∀ s, c.find? i = some s →
      ∃ sel ∈ p.options.selectors, sel.selects s = true)
    (run : (stepping me).Runs answers Provider.SameRules (begin me cancelled p)
      (q, .finished (.ok ())))
    (once : (c.listed p.options.selectors).Nodup) (key : String) :
    q.publisher.current.values.get? key =
      Order.valueIn p.pipeline.pairsOf key (c.listed p.options.selectors) := by
  rw [get?_of_runs serves accepts run key, loadOrder_of_covered covered,
    Order.eraseDups_of_nodup once]

end Reload
end ReplicatedConfig
