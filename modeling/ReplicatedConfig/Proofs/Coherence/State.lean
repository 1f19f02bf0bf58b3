import ReplicatedConfig.Proofs.Refresh.Findings
import ReplicatedConfig.Proofs.Refresh.Loading
import ReplicatedConfig.Proofs.Refresh.Merging

/-!
# Entries, tokens and the snapshot

A provider says three times what has been loaded: by the entries, by the tokens of the watched
keys, and by the current snapshot.  `Coherent` says that the first two agree, and that a
snapshot has been published exactly when something has been loaded.  This holds at every
moment.  That the snapshot also shows the entries (`Published`) is different: a merge notes
one change after the other and publishes behind the last one, so in the meantime the
snapshot is behind.

`Advances` is what one step of an operation may do to a provider.  It keeps `Coherent`, and it
keeps that the snapshot shows the entries or the operation itself is behind.  It never takes
the lock away from another operation.  What follows are the few changes that steps consist of.
-/

namespace ReplicatedConfig

namespace Materialized

variable {m : Materialized} {i j : Identity} {e f : Entry} {es : List Entry}

/-- The names of the entries. -/
def names (m : Materialized) : List Identity := m.entries.map (·.identity)

theorem find?_eq_none_iff : m.find? i = none ↔ i ∉ m.names := by
  simp [find?, names, List.find?_eq_none]

theorem mem_of_mem_put (h : f ∈ put e es) : f = e ∨ f ∈ es := by
  induction es with
  | nil => exact .inl (List.mem_singleton.1 h)
  | cons g rest ih =>
    rw [put] at h
    split at h
    · exact (List.mem_cons.1 h).imp_right (List.mem_cons_of_mem g)
    · rcases List.mem_cons.1 h with rfl | h
      · exact .inr List.mem_cons_self
      · exact (ih h).imp_right (List.mem_cons_of_mem g)

theorem drop_sublist (i : Identity) (es : List Entry) : (drop i es).Sublist es := by
  induction es with
  | nil => exact .slnil
  | cons g rest ih =>
    rw [drop]
    split
    · exact List.sublist_cons_self g rest
    · exact ih.cons_cons g

theorem names_remove_sublist (m : Materialized) (i : Identity) :
    (m.remove i).names.Sublist m.names :=
  (drop_sublist i m.entries).map _

theorem tokenOf_eq_none_iff : m.tokenOf i = none ↔ i ∉ m.names := by
  rw [tokenOf, Option.map_eq_none_iff, find?_eq_none_iff]

theorem find?_remove_of_ne (h : i ≠ j) : (m.remove i).find? j = m.find? j := by
  obtain ⟨es⟩ := m
  show (drop i es).find? _ = es.find? _
  induction es with
  | nil => rfl
  | cons f rest ih =>
    rw [drop]
    split
    · next hf =>
      have hfj : ¬ f.identity = j := fun hj => h (hf.symm.trans hj)
      rw [List.find?_cons_of_neg (by simpa using hfj)]
    · rw [List.find?_cons, List.find?_cons]
      split
      · rfl
      · exact ih

theorem tokenOf_remove_of_ne (h : i ≠ j) : (m.remove i).tokenOf j = m.tokenOf j :=
  congrArg (Option.map _) (find?_remove_of_ne h)

/-- With one entry at most under every name, none is left. -/
theorem find?_remove_self (h : m.names.Nodup) : (m.remove i).find? i = none := by
  rw [find?_eq_none_iff]
  obtain ⟨es⟩ := m
  show i ∉ (drop i es).map _
  induction es with
  | nil => exact List.not_mem_nil
  | cons f rest ih =>
    rw [names, List.map_cons, List.nodup_cons] at h
    rw [drop]
    split
    · next hf =>
      rw [← hf]
      exact h.1
    · next hf =>
      rw [List.map_cons, List.mem_cons, not_or]
      exact ⟨fun hi => hf hi.symm, ih h.2⟩

theorem tokenOf_remove_self (h : m.names.Nodup) : (m.remove i).tokenOf i = none := by
  rw [tokenOf, find?_remove_self h, Option.map_none]

theorem tokenOf_upsert_self (m : Materialized) (e : Entry) :
    (m.upsert e).tokenOf e.identity = some e.setting.token := by
  rw [tokenOf, find?_upsert, if_pos rfl, Option.map_some]

theorem tokenOf_upsert_of_ne (h : e.identity ≠ i) : (m.upsert e).tokenOf i = m.tokenOf i := by
  rw [tokenOf, find?_upsert, if_neg h, tokenOf]

theorem names_upsert (m : Materialized) (e : Entry) :
    (m.upsert e).names = if e.identity ∈ m.names then m.names else m.names ++ [e.identity] := by
  obtain ⟨es⟩ := m
  show (put e es).map (·.identity) = _
  rw [names]
  induction es with
  | nil => rfl
  | cons f rest ih =>
    rw [put]
    split
    · next hf => simp [hf]
    · next hf =>
      simp only at ih
      simp only [List.map_cons, List.mem_cons, ih, Ne.symm hf, false_or]
      split <;> rfl

theorem nodup_upsert (h : m.names.Nodup) : (m.upsert e).names.Nodup := by
  rw [names_upsert]
  split
  · exact h
  · next hnew =>
    rw [← List.concat_eq_append]
    exact h.concat hnew

end Materialized

/-! ## Who holds the lock -/

namespace Lock

variable {l : Lock} {me t : TaskId}

/-- Asking for the lock takes it from nobody. -/
theorem holder_request (me : TaskId) (h : l.holder = some t) : (l.request me).holder = some t := by
  rw [request, h]

/-- Nobody lets the lock go for somebody else. -/
theorem holder_leave (ht : t ≠ me) (h : l.holder = some t) : (l.leave me).holder = some t := by
  have hne : l.holder ≠ some me := fun hme => ht (Option.some.inj (h.symm.trans hme))
  rw [leave, if_neg hne]
  exact h

end Lock

/-! ## What agrees at every moment -/

namespace Provider

variable {p q r : Provider} {place : Nat}

/-- Entries and tokens agree, and there is a snapshot if something has been loaded. -/
structure Coherent (p : Provider) : Prop where
  watched : p.watchList.identities.Nodup
  entries : p.materialized.names.Nodup
  loaded : p.loaded = true ↔ 1 ≤ p.publisher.current.version
  tokens : ∀ w ∈ p.watchList.watches, w.token = p.materialized.tokenOf w.identity

/-- The snapshot shows the entries. -/
def Published (p : Provider) : Prop :=
  p.loaded = true → p.publisher.current.values = p.materialized.values

/-- The tokens agree after one of them and the entry with its name have changed. -/
theorem Coherent.tokens_setToken (h : p.Coherent) {token : Option Token} {m : Materialized}
    (here : ∀ w, p.watchList.get? place = some w → token = m.tokenOf w.identity)
    (elsewhere : ∀ i, (∀ w, p.watchList.get? place = some w → w.identity ≠ i) →
      m.tokenOf i = p.materialized.tokenOf i) :
    ∀ w ∈ (p.watchList.setToken place token).watches, w.token = m.tokenOf w.identity := by
  intro w hw
  obtain ⟨j, v, hv, rfl⟩ := WatchList.mem_modify hw
  split
  · next hj =>
    rw [← hj] at hv
    exact here v hv
  -- At another place stands another name.
  · next hj =>
    rw [elsewhere v.identity fun u hu hname => hj (WatchList.eq_of_identity_eq h.watched hu hv hname)]
    exact h.tokens v (List.mem_of_getElem? hv)

/-- The token of a name without an entry is forgotten. -/
theorem Coherent.setToken_none (h : p.Coherent)
    (habsent : ∀ w, p.watchList.get? place = some w → p.materialized.find? w.identity = none) :
    (p.setToken place none).Coherent where
  watched := by
    rw [(p.sameRules_setToken place none).identities]
    exact h.watched
  entries := h.entries
  loaded := h.loaded
  tokens := by
    refine h.tokens_setToken (fun w hw => ?_) fun i _ => rfl
    exact (Option.map_eq_none_iff.2 (habsent w hw)).symm

/-- An entry goes, and the token with it. -/
theorem Coherent.withoutSetting (h : p.Coherent) {w : Watch}
    (hw : p.watchList.get? place = some w) : (p.withoutSetting place w.identity).Coherent where
  watched := by
    rw [(p.sameRules_withoutSetting place w.identity).identities]
    exact h.watched
  entries := h.entries.sublist (p.materialized.names_remove_sublist w.identity)
  loaded := h.loaded
  tokens := by
    refine h.tokens_setToken (fun v hv => ?_) fun i hi => ?_
    · rw [hw] at hv
      cases hv
      exact (Materialized.tokenOf_remove_self h.entries).symm
    · exact Materialized.tokenOf_remove_of_ne (hi w hw)

/-- An entry comes, and its token with it. -/
theorem Coherent.withEntry (h : p.Coherent) {e : Entry}
    (hplace : p.watchList.identities[place]? = some e.identity) :
    (p.withEntry place e).Coherent where
  watched := by
    rw [(p.sameRules_withEntry place e).identities]
    exact h.watched
  entries := Materialized.nodup_upsert h.entries
  loaded := h.loaded
  tokens := by
    rw [WatchList.getElem?_identities] at hplace
    obtain ⟨w, hw, hname⟩ := Option.map_eq_some_iff.1 hplace
    refine h.tokens_setToken (fun v hv => ?_) fun i hi => ?_
    · rw [hw] at hv
      cases hv
      rw [hname]
      exact (p.materialized.tokenOf_upsert_self e).symm
    · exact Materialized.tokenOf_upsert_of_ne fun h => hi w hw (hname.trans h)

/-- Publishing keeps what agrees, once something has been loaded. -/
theorem Coherent.publish (h : p.Coherent) (hloaded : p.loaded = true) : p.publish.Coherent where
  watched := h.watched
  entries := h.entries
  loaded := by
    rw [current_publish]
    exact ⟨fun _ => Nat.le_add_left 1 _, fun _ => hloaded⟩
  tokens := h.tokens

/-- A commit makes everything agree. -/
theorem Coherent.commit (h : p.Coherent) (me : TaskId) {entries : List Entry}
    (hentries : (entries.map (·.identity)).Nodup) :
    (Reload.commit me p p.watchList.identities.length entries).1.Coherent where
  watched := by
    rw [(Reload.sameRules_commit me p entries).identities]
    exact h.watched
  entries := hentries
  loaded := by
    rw [Reload.current_commit]
    exact ⟨fun _ => Nat.le_add_left 1 _, fun _ => rfl⟩
  tokens := by
    intro w hw
    have hfact : w.fact ∈ (Reload.commit me p p.watchList.identities.length entries).1.watchList.facts :=
      List.mem_map_of_mem hw
    rw [Reload.facts_commit] at hfact
    obtain ⟨f, -, hf⟩ := List.mem_map.1 hfact
    have hname : f.1 = w.identity := congrArg Prod.fst hf
    have htoken : (Materialized.mk entries).tokenOf f.1 = w.token := congrArg (·.2.2) hf
    rw [← htoken, hname]
    rfl

/-! ## What a step of an operation may do -/

/-- Nothing that has been loaded differs, nor who has the lock. -/
structure Alike (p q : Provider) : Prop where
  options : q.options = p.options
  pipeline : q.pipeline = p.pipeline
  known : q.watchList.known = p.watchList.known
  materialized : q.materialized = p.materialized
  loaded : q.loaded = p.loaded
  current : q.publisher.current = p.publisher.current
  lock : q.lock = p.lock

theorem Alike.of_watchList (p : Provider) {l : WatchList} (h : l.known = p.watchList.known) :
    p.Alike { p with watchList := l } :=
  ⟨rfl, rfl, h, rfl, rfl, rfl, rfl⟩

theorem Called.alike (h : p.Called q) : p.Alike q where
  options := h.options
  pipeline := h.pipeline
  known := congrArg WatchList.known h.watchList
  materialized := h.materialized
  loaded := h.loaded
  current := congrArg Publisher.current h.publisher
  lock := h.lock

theorem Checked.alike {places : List Nat} (h : p.Checked places q) : p.Alike q where
  options := h.options
  pipeline := h.pipeline
  known := WatchList.known_of_facts h.facts
  materialized := h.materialized
  loaded := h.loaded
  current := congrArg Publisher.current h.publisher
  lock := h.lock

theorem Alike.sameRules (h : p.Alike q) : p.SameRules q :=
  ⟨h.options, h.pipeline, WatchList.identities_of_known h.known⟩

theorem Coherent.of_alike (hp : p.Coherent) (h : p.Alike q) : q.Coherent where
  watched := by
    rw [h.sameRules.identities]
    exact hp.watched
  entries := by
    rw [h.materialized]
    exact hp.entries
  loaded := by
    rw [h.loaded, h.current]
    exact hp.loaded
  tokens := by
    intro w hw
    have hknown : (w.identity, w.token) ∈ q.watchList.known := List.mem_map_of_mem hw
    rw [h.known] at hknown
    obtain ⟨v, hv, hvw⟩ := List.mem_map.1 hknown
    have hname : v.identity = w.identity := congrArg Prod.fst hvw
    have htoken : v.token = w.token := congrArg Prod.snd hvw
    rw [h.materialized, ← hname, ← htoken]
    exact hp.tokens v hv

theorem Published.of_alike (hp : p.Published) (h : p.Alike q) : q.Published := by
  unfold Published
  rw [h.loaded, h.current, h.materialized]
  exact hp

/-- What may become of a provider, from the point of view of the operation `me`: `was` and
`now` say whether it is behind with publishing what it has noted. -/
structure Advances (me : TaskId) (p : Provider) (was : Prop) (q : Provider) (now : Prop) : Prop where
  rules : p.SameRules q
  loaded : p.loaded = true → q.loaded = true
  yields : ∀ t, t ≠ me → p.lock.holder = some t → q.lock.holder = some t
  coherent : q.Coherent
  shown : p.Published ∨ was → q.Published ∨ now

namespace Advances

variable {me : TaskId} {was now later : Prop}

theorem refl (hp : p.Coherent) : p.Advances me was p was :=
  ⟨.refl p, id, fun _ _ => id, hp, id⟩

theorem trans (hq : p.Advances me was q now) (hr : q.Advances me now r later) :
    p.Advances me was r later where
  rules := hq.rules.trans hr.rules
  loaded := hr.loaded ∘ hq.loaded
  yields t ht := hr.yields t ht ∘ hq.yields t ht
  coherent := hr.coherent
  shown := hr.shown ∘ hq.shown

theorem imp (h : p.Advances me was q now) (himp : now → later) : p.Advances me was q later :=
  { h with shown := fun hp => (h.shown hp).imp_right himp }

theorem of_alike (hp : p.Coherent) (h : p.Alike q) : p.Advances me was q was where
  rules := h.sameRules
  loaded := h.loaded.trans
  yields _ _ := (congrArg Lock.holder h.lock).trans
  coherent := hp.of_alike h
  shown := .imp_left fun hpublished => hpublished.of_alike h

theorem acquire (hp : p.Coherent) : p.Advances me was (p.acquire me) was where
  rules := ⟨rfl, rfl, rfl⟩
  loaded := id
  yields _ _ := Lock.holder_request me
  coherent := ⟨hp.watched, hp.entries, hp.loaded, hp.tokens⟩
  shown := id

theorem release (hp : p.Coherent) : p.Advances me was (p.release me) was where
  rules := ⟨rfl, rfl, rfl⟩
  loaded := id
  yields _ := Lock.holder_leave
  coherent := ⟨hp.watched, hp.entries, hp.loaded, hp.tokens⟩
  shown := id

theorem setToken_none (hp : p.Coherent) {place : Nat}
    (habsent : ∀ w, p.watchList.get? place = some w → p.materialized.find? w.identity = none) :
    p.Advances me was (p.setToken place none) was where
  rules := p.sameRules_setToken place none
  loaded := id
  yields _ _ := id
  coherent := hp.setToken_none habsent
  shown := id

theorem withoutSetting (hp : p.Coherent) {place : Nat} {w : Watch}
    (hw : p.watchList.get? place = some w) :
    p.Advances me was (p.withoutSetting place w.identity) True where
  rules := p.sameRules_withoutSetting place w.identity
  loaded := id
  yields _ _ := id
  coherent := hp.withoutSetting hw
  shown _ := .inr trivial

theorem withEntry (hp : p.Coherent) {place : Nat} {e : Entry}
    (hplace : p.watchList.identities[place]? = some e.identity) :
    p.Advances me was (p.withEntry place e) True where
  rules := p.sameRules_withEntry place e
  loaded := id
  yields _ _ := id
  coherent := hp.withEntry hplace
  shown _ := .inr trivial

theorem publish (hp : p.Coherent) (hloaded : p.loaded = true) :
    p.Advances me was p.publish False where
  rules := ⟨rfl, rfl, rfl⟩
  loaded := id
  yields _ _ := id
  coherent := hp.publish hloaded
  shown _ := .inl fun _ => p.values_publish

theorem commit (hp : p.Coherent) {entries : List Entry}
    (hentries : (entries.map (·.identity)).Nodup) :
    p.Advances me was (Reload.commit me p p.watchList.identities.length entries).1 False :=
  have hrelease : p.Advances me was (p.release me) was := release hp
  { rules := Reload.sameRules_commit me p entries
    loaded := fun _ => rfl
    yields := hrelease.yields
    coherent := hp.commit me hentries
    shown := fun _ => .inl fun _ => Reload.values_commit me p _ entries }

end Advances
end Provider
end ReplicatedConfig
