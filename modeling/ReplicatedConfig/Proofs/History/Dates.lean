import ReplicatedConfig.Proofs.Coherence.State
import ReplicatedConfig.Proofs.History.Moments

/-!
# Which moment of the store is loaded

What a provider has loaded under a name is what the store had under it at some moment, if the
provider has ever looked.  A `Sight` gives that moment for every name, and a provider is
`Dated` by it if all that it has loaded, and every token that it knows, is of these moments.

`Renews` is what a step of an operation does to a dated provider.  It may move the moment of a
name forward, and back only where it says so; which places these are is left open here.  Only
who holds the lock moves a moment at all (`Holding`), so an operation that holds it finds
everything as it was, whatever others have done in between (`Leaves`).

The reason why a change does not lead back is `Dated.seen_le`.  A change was found against a
token that the store had no later than what the change brings; if that token is still the known
one, then what is loaded cannot be of a later moment, for the token would have come back.  The
argument needs that there is a token.
-/

namespace ReplicatedConfig

/-- A moment for each name. -/
abbrev Sight := Identity → Nat

namespace Provider

/-- What is loaded under a name. -/
def setting? (p : Provider) (i : Identity) : Option Setting :=
  (p.materialized.find? i).map (·.setting)

section Setting

variable (p : Provider) (place : Nat) {e : Entry} {i j : Identity}

theorem setting?_withEntry_self : (p.withEntry place e).setting? e.identity = some e.setting := by
  rw [setting?, withEntry, Materialized.find?_upsert, if_pos rfl, Option.map_some]

theorem setting?_withEntry_of_ne (hne : e.identity ≠ j) :
    (p.withEntry place e).setting? j = p.setting? j := by
  rw [setting?, withEntry, Materialized.find?_upsert, if_neg hne, setting?]

theorem setting?_withoutSetting_self (entries : p.materialized.names.Nodup) :
    (p.withoutSetting place i).setting? i = none :=
  Option.map_eq_none_iff.2 (Materialized.find?_remove_self entries)

theorem setting?_withoutSetting_of_ne (hne : i ≠ j) :
    (p.withoutSetting place i).setting? j = p.setting? j :=
  congrArg (Option.map _) (Materialized.find?_remove_of_ne hne)

end Setting

/-- What is loaded under each name was there at the moment that `seen` gives, or nothing is
loaded and nobody has looked. -/
structure Dated (h : History) (n : Nat) (seen : Sight) (p : Provider) : Prop where
  watched : p.watchList.identities.Nodup
  entries : p.materialized.names.Nodup
  tokens : ∀ place i t, p.watchList.identities[place]? = some i → p.tokenAt place = some t →
    ∃ s, p.setting? i = some s ∧ s.token = t
  past : ∀ i, seen i ≤ n
  shows : ∀ i, p.setting? i = (h (seen i)).find? i ∨ p.setting? i = none ∧ seen i = 0

/-- Tokens are part of what is known of watched keys. -/
theorem tokenAt_of_known {p q : Provider} (h : q.watchList.known = p.watchList.known)
    (place : Nat) : q.tokenAt place = p.tokenAt place := by
  rw [tokenAt, tokenAt, WatchList.bind_token_get?, WatchList.bind_token_get?, h]

/-- Who holds the lock goes on holding it, and finds everything as it was. -/
structure Holding (me : TaskId) (p : Provider) (seen : Sight) (q : Provider) (seen' : Sight) :
    Prop where
  holder : q.lock.holder = some me
  materialized : q.materialized = p.materialized
  tokens : ∀ place, q.tokenAt place = p.tokenAt place
  seen : seen' = seen

/-- What an operation may rely on while others take their steps. -/
structure Leaves (me : TaskId) (p : Provider) (seen : Sight) (q : Provider) (seen' : Sight) :
    Prop where
  options : q.options = p.options
  places : ∀ (place : Nat) i, p.watchList.identities[place]? = some i →
    q.watchList.identities[place]? = some i
  calls : p.calls ≤ q.calls
  held : p.lock.holder = some me → p.Holding me seen q seen'

/-- A step of an operation: moments move forward, but perhaps at the places `back`. -/
structure Renews (h : History) (n : Nat) (me : TaskId) (back : Nat → Prop) (p : Provider)
    (seen : Sight) (q : Provider) (seen' : Sight) : Prop where
  rules : p.SameRules q
  calls : p.calls ≤ q.calls
  dated : q.Dated h n seen'
  forward : h.Steady → ∀ place i, p.watchList.identities[place]? = some i →
    seen i ≤ seen' i ∨ back place
  yields : ∀ other, other ≠ me → p.lock.holder = some other → p.Holding other seen q seen'

variable {h : History} {n n' m : Nat} {me other : TaskId} {back : Nat → Prop} {p q r : Provider}
  {seen seen' seen'' : Sight} {place : Nat} {i : Identity}

theorem Holding.refl (hheld : p.lock.holder = some me) : p.Holding me seen p seen :=
  ⟨hheld, rfl, fun _ => rfl, rfl⟩

theorem Holding.trans (hq : p.Holding me seen q seen') (hr : q.Holding me seen' r seen'') :
    p.Holding me seen r seen'' where
  holder := hr.holder
  materialized := hr.materialized.trans hq.materialized
  tokens place := (hr.tokens place).trans (hq.tokens place)
  seen := hr.seen.trans hq.seen

theorem Renews.leaves (hq : p.Renews h n me back seen q seen') (hne : other ≠ me) :
    p.Leaves other seen q seen' where
  options := hq.rules.options
  places place i hplace := by
    rw [hq.rules.identities]
    exact hplace
  calls := hq.calls
  held := hq.yields other hne

theorem Leaves.length_le (hq : p.Leaves me seen q seen') :
    p.watchList.identities.length ≤ q.watchList.identities.length := by
  by_contra hlt
  have hthere := List.getElem?_eq_getElem (Nat.lt_of_not_le hlt)
  have hgone := List.getElem?_eq_none (Nat.le_refl q.watchList.identities.length)
  cases hgone.symm.trans (hq.places _ _ hthere)

theorem Renews.trans (hq : p.Renews h n me back seen q seen')
    (hr : q.Renews h n me back seen' r seen'') : p.Renews h n me back seen r seen'' where
  rules := hq.rules.trans hr.rules
  calls := Nat.le_trans hq.calls hr.calls
  dated := hr.dated
  forward steady place i hplace := by
    rcases hq.forward steady place i hplace with hle | hback
    · rw [← hq.rules.identities] at hplace
      exact (hr.forward steady place i hplace).imp_left (Nat.le_trans hle)
    · exact .inr hback
  yields other hne hheld :=
    have hholding := hq.yields other hne hheld
    hholding.trans (hr.yields other hne hholding.holder)

namespace Dated

theorem later (hp : p.Dated h n seen) (hn : n ≤ n') : p.Dated h n' seen :=
  { hp with past := fun i => Nat.le_trans (hp.past i) hn }

/-- Nothing that is loaded differs. -/
theorem renews (hp : p.Dated h n seen) (rules : p.SameRules q) (calls : p.calls ≤ q.calls)
    (materialized : q.materialized = p.materialized)
    (tokens : ∀ place, q.tokenAt place = p.tokenAt place)
    (holder : ∀ other, other ≠ me → p.lock.holder = some other → q.lock.holder = some other) :
    p.Renews h n me back seen q seen where
  rules := rules
  calls := calls
  dated := by
    refine ⟨?_, ?_, fun place i t hplace ht => ?_, hp.past, fun i => ?_⟩
    · rw [rules.identities]
      exact hp.watched
    · rw [materialized]
      exact hp.entries
    · rw [rules.identities] at hplace
      rw [tokens] at ht
      rw [setting?, materialized]
      exact hp.tokens place i t hplace ht
    · rw [setting?, materialized]
      exact hp.shows i
  forward _ _ _ _ := .inl (Nat.le_refl _)
  yields other hne hheld := ⟨holder other hne hheld, materialized, tokens, rfl⟩

theorem refl (hp : p.Dated h n seen) : p.Renews h n me back seen p seen :=
  hp.renews (.refl p) (Nat.le_refl _) rfl (fun _ => rfl) fun _ _ hheld => hheld

theorem called (hp : p.Dated h n seen) (hq : p.Called q) (calls : p.calls ≤ q.calls) :
    p.Renews h n me back seen q seen := by
  refine hp.renews hq.sameRules calls hq.materialized (fun place => ?_) fun other _ hheld => ?_
  · rw [tokenAt, tokenAt, hq.watchList]
  · rw [hq.lock]
    exact hheld

theorem checked {places : List Nat} (hp : p.Dated h n seen) (hq : p.Checked places q)
    (calls : p.calls ≤ q.calls) : p.Renews h n me back seen q seen := by
  refine hp.renews hq.sameRules calls hq.materialized
    (tokenAt_of_known (WatchList.known_of_facts hq.facts)) fun other _ hheld => ?_
  rw [hq.lock]
  exact hheld

theorem acquire (hp : p.Dated h n seen) : p.Renews h n me back seen (p.acquire me) seen :=
  hp.renews ⟨rfl, rfl, rfl⟩ (Nat.le_refl _) rfl (fun _ => rfl) fun _ _ => Lock.holder_request me

theorem release (hp : p.Dated h n seen) : p.Renews h n me back seen (p.release me) seen :=
  hp.renews ⟨rfl, rfl, rfl⟩ (Nat.le_refl _) rfl (fun _ => rfl) fun _ => Lock.holder_leave

theorem publish (hp : p.Dated h n seen) : p.Renews h n me back seen p.publish seen :=
  hp.renews ⟨rfl, rfl, rfl⟩ (Nat.le_refl _) rfl (fun _ => rfl) fun _ _ => id

theorem countPass (hp : p.Dated h n seen) (r : PassResult) :
    p.Renews h n me back seen (p.countPass r) seen :=
  hp.renews ⟨rfl, rfl, rfl⟩ (Nat.le_refl _) rfl (fun _ => rfl) fun _ _ => id

/-! ## What holds the lock and changes what is loaded -/

/-- The known token of a name is one that the store had at the moment of what is loaded. -/
theorem knew (hp : p.Dated h n seen) (hplace : p.watchList.identities[place]? = some i) :
    h.Knew (seen i) i (p.tokenAt place) := by
  intro t ht
  obtain ⟨s, hs, hst⟩ := hp.tokens place i t hplace ht
  rcases hp.shows i with hshows | ⟨hnone, -⟩
  · exact ⟨seen i, s, Nat.le_refl _, hshows.symm.trans hs, hst⟩
  · rw [hnone] at hs
    cases hs

/-- **A change of the token that is known is not older than what is loaded.** -/
theorem seen_le (hp : p.Dated h n seen) (steady : h.Steady)
    (hplace : p.watchList.identities[place]? = some i) (hknew : h.Knew m i (p.tokenAt place))
    (hsome : p.tokenAt place ≠ none)
    (hchange : p.tokenAt place ≠ ((h m).find? i).map (·.token)) : seen i ≤ m := by
  obtain ⟨t, ht⟩ := Option.ne_none_iff_exists'.1 hsome
  obtain ⟨k, s, hk, hs, hst⟩ := hknew t ht
  obtain ⟨s', hs', hst'⟩ := hp.tokens place i t hplace ht
  rcases hp.shows i with hshows | ⟨hnone, -⟩
  · by_contra hlt
    -- The token stood at a moment before the change and at one behind it, so at the change too.
    have hm := steady hk (Nat.le_of_not_le hlt) hs (hshows.symm.trans hs') (hst.trans hst'.symm)
    rw [ht, hm, Option.map_some, hst] at hchange
    exact hchange rfl
  · rw [hnone] at hs'
    cases hs'

/-- Who holds the lock may load something else: for each name there has to be a moment. -/
theorem exists_renews (hp : p.Dated h n seen) (hheld : p.lock.holder = some me)
    (rules : p.SameRules q) (calls : p.calls ≤ q.calls) (entries : q.materialized.names.Nodup)
    (tokens : ∀ place i t, p.watchList.identities[place]? = some i → q.tokenAt place = some t →
      ∃ s, q.setting? i = some s ∧ s.token = t)
    (moments : ∀ i, ∃ m, m ≤ n ∧ (q.setting? i = (h m).find? i ∨ q.setting? i = none ∧ m = 0) ∧
      (h.Steady → ∀ place, p.watchList.identities[place]? = some i → seen i ≤ m ∨ back place)) :
    ∃ seen', p.Renews h n me back seen q seen' := by
  choose seen' hpast hshows hforward using moments
  refine ⟨seen', rules, calls, ⟨?_, entries, ?_, hpast, hshows⟩, ?_, ?_⟩
  · rw [rules.identities]
    exact hp.watched
  · rw [rules.identities]
    exact tokens
  · exact fun steady place i hplace => hforward i steady place hplace
  · exact fun other hne hother => absurd (Option.some.inj (hother.symm.trans hheld)) hne

/-- What is loaded under one name changes, and its token is that of what is loaded then. -/
theorem exists_renews_at (hp : p.Dated h n seen) (hheld : p.lock.holder = some me)
    (hplace : p.watchList.identities[place]? = some i) (rules : p.SameRules q)
    (calls : p.calls ≤ q.calls) (entries : q.materialized.names.Nodup)
    (token : ∀ t, q.tokenAt place = some t → ∃ s, q.setting? i = some s ∧ s.token = t)
    (tokens : ∀ other, place ≠ other → q.tokenAt other = p.tokenAt other)
    (elsewhere : ∀ j, i ≠ j → q.setting? j = p.setting? j)
    (hm : m ≤ n) (hshows : q.setting? i = (h m).find? i)
    (forward : h.Steady → seen i ≤ m ∨ back place) :
    ∃ seen', p.Renews h n me back seen q seen' := by
  have hother {j : Identity} {place' : Nat} (hplace' : p.watchList.identities[place']? = some j)
      (hne : place ≠ place') : i ≠ j := by
    rintro rfl
    obtain ⟨hlt, -⟩ := List.getElem?_eq_some_iff.1 hplace
    exact hne ((List.getElem?_inj hlt hp.watched).1 (hplace.trans hplace'.symm))
  refine hp.exists_renews hheld rules calls entries (fun place' j t hplace' ht => ?_) fun j => ?_
  · by_cases hne : place = place'
    · subst hne
      cases Option.some.inj (hplace.symm.trans hplace')
      exact token t ht
    · rw [elsewhere j (hother hplace' hne)]
      rw [tokens place' hne] at ht
      exact hp.tokens place' j t hplace' ht
  · by_cases hij : i = j
    · subst hij
      refine ⟨m, hm, .inl hshows, fun steady place' hplace' => (forward steady).imp_right ?_⟩
      intro hback
      by_cases hne : place = place'
      · exact hne ▸ hback
      · exact absurd rfl (hother hplace' hne)
    · rw [elsewhere j hij]
      exact ⟨seen j, hp.past j, hp.shows j, fun _ _ _ => .inl (Nat.le_refl _)⟩

/-- A change that brings a setting is merged. -/
theorem withEntry (hp : p.Dated h n seen) (hheld : p.lock.holder = some me) {e : Entry}
    (hplace : p.watchList.identities[place]? = some e.identity) (hm : m ≤ n)
    (hfind : (h m).find? e.identity = some e.setting)
    (forward : h.Steady → seen e.identity ≤ m ∨ back place) :
    ∃ seen', p.Renews h n me back seen (p.withEntry place e) seen' := by
  have hself := p.setting?_withEntry_self place (e := e)
  refine hp.exists_renews_at hheld hplace (p.sameRules_withEntry place e) (Nat.le_refl _)
    (Materialized.nodup_upsert hp.entries) (fun t ht => ⟨_, hself, ?_⟩)
    (fun other hne => p.tokenAt_setToken hne _) (fun j => p.setting?_withEntry_of_ne place) hm
    (hself.trans hfind.symm) forward
  have htoken := p.tokenAt_setToken_self place hplace (some e.setting.token)
  exact Option.some.inj (htoken.symm.trans ht)

/-- A change that takes a setting away is merged. -/
theorem withoutSetting (hp : p.Dated h n seen) (hheld : p.lock.holder = some me)
    (hplace : p.watchList.identities[place]? = some i) (hm : m ≤ n)
    (hfind : (h m).find? i = none) (forward : h.Steady → seen i ≤ m ∨ back place) :
    ∃ seen', p.Renews h n me back seen (p.withoutSetting place i) seen' := by
  have hself := p.setting?_withoutSetting_self place (i := i) hp.entries
  refine hp.exists_renews_at hheld hplace (p.sameRules_withoutSetting place i) (Nat.le_refl _)
    (hp.entries.sublist (p.materialized.names_remove_sublist i)) (fun t ht => ?_)
    (fun other hne => p.tokenAt_setToken hne _) (fun j => p.setting?_withoutSetting_of_ne place) hm
    (hself.trans hfind.symm) forward
  have htoken := p.tokenAt_setToken_self place hplace none
  cases htoken.symm.trans ht

/-- The token of a name that is not loaded is forgotten. -/
theorem setToken_none (hp : p.Dated h n seen) (hheld : p.lock.holder = some me)
    (hplace : p.watchList.identities[place]? = some i) :
    ∃ seen', p.Renews h n me back seen (p.setToken place none) seen' := by
  refine hp.exists_renews hheld (p.sameRules_setToken place none) (Nat.le_refl _) hp.entries
    (fun place' j t hplace' ht => ?_) fun j => ?_
  · by_cases hne : place = place'
    · subst hne
      cases (p.tokenAt_setToken_self place hplace none).symm.trans ht
    · rw [p.tokenAt_setToken hne none] at ht
      exact hp.tokens place' j t hplace' ht
  · exact ⟨seen j, hp.past j, hp.shows j, fun _ _ _ => .inl (Nat.le_refl _)⟩

/-- A reload commits. -/
theorem commit (hp : p.Dated h n seen) (hheld : p.lock.holder = some me) {watched : Nat}
    {entries : List Entry} (late : ∀ place, watched ≤ place → p.tokenAt place = none)
    (nodup : (entries.map (·.identity)).Nodup)
    (moments : ∀ i, ∃ m, m ≤ n ∧
      (((Materialized.mk entries).find? i).map (·.setting) = (h m).find? i ∨
        ((Materialized.mk entries).find? i).map (·.setting) = none ∧ m = 0) ∧
      (h.Steady → ∀ place, p.watchList.identities[place]? = some i → seen i ≤ m ∨ back place)) :
    ∃ seen', p.Renews h n me back seen (Reload.commit me p watched entries).1 seen' := by
  refine hp.exists_renews hheld ⟨rfl, rfl, Reload.identities_commit me p watched entries⟩
    (Nat.le_refl _) nodup (fun place i t hplace ht => ?_) moments
  rw [tokenAt, Reload.get?_commit] at ht
  rw [WatchList.getElem?_identities] at hplace
  obtain ⟨w, hw, rfl⟩ := Option.map_eq_some_iff.1 hplace
  rw [hw, Option.map_some, Option.bind_some] at ht
  by_cases hlt : place < watched
  · rw [if_pos hlt] at ht
    obtain ⟨e, he, rfl⟩ := Option.map_eq_some_iff.1 ht
    exact ⟨e.setting, congrArg (Option.map _) he, rfl⟩
  · rw [if_neg hlt] at ht
    have hnone := late place (Nat.le_of_not_lt hlt)
    rw [tokenAt, hw, Option.bind_some] at hnone
    cases hnone.symm.trans ht

end Dated
end Provider
end ReplicatedConfig
