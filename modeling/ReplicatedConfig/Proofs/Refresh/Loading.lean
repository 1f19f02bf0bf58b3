import ReplicatedConfig.Proofs.Refresh.Runs

/-!
# What a reload loads

A reload takes many steps, and the provider may change between any two of them.  Still, what
it loads in the end can be said without its steps: it is what `Loads` relates to the replies
that may be given.  A listing brings settings; the watched names that it did not bring are
read one after the other (`Fetched`); each setting gets its entry from the adapters
(`entriesFor`).

`Sound` says how far towards that a reload has come, in each of its phases, and `Leads` what
one step may come to: the reload goes on and is sound, or it ends with an error and nothing
but the lock has changed, or it commits entries that `Loads` allows.  `leads_handle` and
`leads_begin` are the only statements about steps of a reload that the rest of the
development needs.
-/

namespace ReplicatedConfig

namespace Reload

/-! ## What is gathered -/

/-- The names of settings. -/
def namesOf (raw : List Setting) : List Identity := raw.map (·.identity)

theorem any_identity_iff {raw : List Setting} {i : Identity} :
    raw.any (·.identity = i) = true ↔ i ∈ namesOf raw := by
  simp [namesOf]

/-- One setting more has been listed. -/
theorem gather_concat (listed : List Setting) (s : Setting) :
    gather (listed ++ [s]) = gatherOne (gather listed) s :=
  List.foldl_concat _ _ _ _

theorem namesOf_gatherOne (raw : List Setting) (s : Setting) :
    namesOf (gatherOne raw s) =
      if s.identity ∈ namesOf raw then namesOf raw else namesOf raw ++ [s.identity] := by
  unfold gatherOne
  by_cases h : s.identity ∈ namesOf raw
  · rw [if_pos h, if_pos (any_identity_iff.2 h), namesOf, List.map_map]
    refine List.map_congr_left fun r _ => ?_
    show (if r.identity = s.identity then s else r).identity = r.identity
    split
    · next hr => exact hr.symm
    · rfl
  · rw [if_neg h, if_neg fun hany => h (any_identity_iff.1 hany), namesOf, List.map_append]
    rfl

/-- Reading the watched names that are not there yet, one after the other. -/
inductive Fetched (answers : Replies) (listed : List Setting) :
    List Identity → List Setting → Prop where
  | start : Fetched answers listed [] listed
  | known {is : List Identity} {raw : List Setting} {i : Identity}
      (before : Fetched answers listed is raw) (there : i ∈ namesOf raw) :
      Fetched answers listed (is ++ [i]) raw
  | read {is : List Identity} {raw : List Setting} {i : Identity} {o : Option Setting}
      (before : Fetched answers listed is raw) (absent : i ∉ namesOf raw)
      (reply : answers.Reads i o) : Fetched answers listed (is ++ [i]) (raw ++ o.toList)

/-- The settings that a reload may have when it turns to the adapters. -/
def Gathers (answers : Replies) (p : Provider) (raw : List Setting) : Prop :=
  ∃ listed, answers.Brings p.options.selectors listed ∧
    Fetched answers (gather listed) p.watchList.identities raw

/-- The entries of settings, with previous ones in the place of those that are refused. -/
def entriesFor (pipeline : Pipeline) : List Entry → List Setting → List Entry
  | _, [] => []
  | previous, s :: rest =>
    match pipeline.process s with
    | .ok pairs => ⟨s, pairs⟩ :: entriesFor pipeline previous rest
    | .error _ =>
      previousOf previous s ++ entriesFor pipeline (previous.filter (·.identity ≠ s.identity)) rest

/-- A previous entry that takes the place of a setting has its name. -/
theorem mem_previousOf {previous : List Entry} {s : Setting} {e : Entry}
    (h : e ∈ previousOf previous s) : e ∈ previous ∧ e.identity = s.identity := by
  have hfind := Option.mem_toList.1 h
  exact ⟨List.mem_reverse.1 (List.mem_of_find?_eq_some hfind), by simpa using List.find?_some hfind⟩

/-- A setting does not end a load: the adapters do not refuse it, or refusals are forgiven. -/
def Takes (p : Provider) (s : Setting) : Prop :=
  p.options.optional = true ∨ ∃ pairs, p.pipeline.process s = .ok pairs

/-- The entries that a reload may load. -/
def Loads (answers : Replies) (p : Provider) (entries : List Entry) : Prop :=
  ∃ raw previous, Gathers answers p raw ∧ (∀ s ∈ raw, Takes p s) ∧
    entries = entriesFor p.pipeline previous raw

/-- How far a reload has come in each of its phases. -/
def Sound (answers : Replies) (p : Provider) : Reload → Prop
  | .waiting => True
  | .listing call =>
    call.Every fun id l => answers.Lists id p.options.selectors l ∧ l.isDone = false
  | .fetching watched places raw call =>
    watched = p.watchList.identities.length ∧ ∃ listed seen i,
      answers.Brings p.options.selectors listed ∧ Fetched answers (gather listed) seen raw ∧
      seen ++ i :: p.watchList.names places = p.watchList.identities ∧ i ∉ namesOf raw ∧
      call.Every fun _ j => j = i
  | .adapting watched s rest previous done =>
    watched = p.watchList.identities.length ∧ ∃ raw previous',
      Gathers answers p raw ∧ (∀ t ∈ raw, t ∈ s :: rest ∨ Takes p t) ∧
      done ++ entriesFor p.pipeline previous (s :: rest) = entriesFor p.pipeline previous' raw

variable {answers : Replies} {p q : Provider}

theorem Gathers.of_sameRules {raw : List Setting} (h : Gathers answers p raw)
    (hq : p.SameRules q) : Gathers answers q raw := by
  unfold Gathers
  rw [hq.options, hq.identities]
  exact h

/-- A sound reload stays so whatever happens elsewhere. -/
theorem Sound.of_sameRules {r : Reload} (h : r.Sound answers p) (hq : p.SameRules q) :
    r.Sound answers q := by
  cases r with
  | waiting => trivial
  | listing call =>
    simp only [Sound, hq.options]
    exact h
  | fetching watched places raw call =>
    simp only [Sound, WatchList.names, hq.options, hq.identities]
    exact h
  | adapting watched s rest previous done =>
    obtain ⟨hwatched, raw, previous', hraw, htakes, hentries⟩ := h
    refine ⟨hwatched.trans (by rw [hq.identities]), raw, previous', hraw.of_sameRules hq, ?_, ?_⟩
    · unfold Takes
      rw [hq.options, hq.pipeline]
      exact htakes
    · rw [hq.pipeline, hentries]

/-! ## What a step may come to -/

/-- What a step of a reload may come to. -/
inductive Leads (answers : Replies) (me : TaskId) (p : Provider) : Step → Prop where
  | running (q : Provider) (r : Reload) (called : p.Called q) (sound : r.Sound answers q) :
      Leads answers me p (q, .running r)
  | failed (q : Provider) (e : ProviderError) (called : p.Called q) :
      Leads answers me p (fail me q e)
  | committed (q : Provider) (entries : List Entry) (called : p.Called q)
      (loads : Loads answers q entries) :
      Leads answers me p (commit me q q.watchList.identities.length entries)

theorem Leads.of_called {x : Step} {me : TaskId} (hq : p.Called q) (h : Leads answers me q x) :
    Leads answers me p x := by
  cases h with
  | running r s called sound => exact .running r s (hq.trans called) sound
  | failed r e called => exact .failed r e (hq.trans called)
  | committed r entries called loads => exact .committed r entries (hq.trans called) loads

section Steps

variable {me : TaskId} {cancelled : Bool} {watched : Nat}

/-- With the settings gathered, a reload turns to the adapters. -/
theorem leads_adaptNext {raw rest : List Setting} {previous previous' done : List Entry}
    (hwatched : watched = p.watchList.identities.length) (hraw : Gathers answers p raw)
    (htakes : ∀ s ∈ raw, s ∈ rest ∨ Takes p s)
    (hentries : done ++ entriesFor p.pipeline previous rest = entriesFor p.pipeline previous' raw) :
    Leads answers me p (adaptNext me p watched rest previous done) := by
  cases rest with
  | nil =>
    rw [entriesFor, List.append_nil] at hentries
    rw [adaptNext, hwatched]
    have htaken (s : Setting) (hs : s ∈ raw) : Takes p s :=
      (htakes s hs).resolve_left List.not_mem_nil
    exact .committed p done (.refl p) ⟨raw, previous', hraw, htaken, hentries⟩
  | cons s rest => exact .running p _ (.refl p) ⟨hwatched, raw, previous', hraw, htakes, hentries⟩

theorem leads_adapted {s : Setting} {rest : List Setting} {previous done : List Entry}
    (h : (Reload.adapting watched s rest previous done).Sound answers p) :
    Leads answers me p (adapted me p watched s rest previous done) := by
  obtain ⟨hwatched, raw, previous', hraw, htakes, hentries⟩ := h
  have hnext (hs : Takes p s) (t : Setting) (ht : t ∈ raw) : t ∈ rest ∨ Takes p t := by
    rcases htakes t ht with ht | ht
    · rcases List.mem_cons.1 ht with rfl | ht
      · exact .inr hs
      · exact .inl ht
    · exact .inr ht
  unfold adapted
  cases hpairs : p.pipeline.process s with
  | ok pairs =>
    refine leads_adaptNext hwatched hraw (hnext (.inr ⟨pairs, hpairs⟩)) (Eq.trans ?_ hentries)
    rw [List.append_assoc, List.singleton_append, entriesFor, hpairs]
  | error e =>
    simp only []
    split
    · next hoptional =>
      refine leads_adaptNext hwatched hraw (hnext (.inl hoptional)) (Eq.trans ?_ hentries)
      rw [List.append_assoc, entriesFor, hpairs]
    · exact .failed p _ (.refl p)

/-- Going through the places that are left: the names there are read unless they are
there. -/
theorem leads_fetchNext {listed raw : List Setting} {seen : List Identity} (places : List Nat)
    (hwatched : watched = p.watchList.identities.length)
    (hlisted : answers.Brings p.options.selectors listed)
    (hraw : Fetched answers (gather listed) seen raw)
    (hseen : seen ++ p.watchList.names places = p.watchList.identities) :
    Leads answers me p (fetchNext me cancelled p watched places raw) := by
  -- The induction is on the places that are left; `seen` grows by the name at each of them.
  induction places generalizing p raw seen with
  | nil =>
    rw [WatchList.names, List.filterMap_nil, List.append_nil] at hseen
    subst hseen
    exact leads_adaptNext hwatched ⟨listed, hlisted, hraw⟩ (fun _ => .inl) (List.nil_append _)
  | cons place places ih =>
    rw [fetchNext]
    cases hw : p.watchList.get? place with
    | none =>
      rw [WatchList.names_cons_of_get?_none hw] at hseen
      exact ih hwatched hlisted hraw hseen
    | some w =>
      rw [WatchList.names_cons_of_get? hw] at hseen
      have hnext : (seen ++ [w.identity]) ++ p.watchList.names places = p.watchList.identities := by
        rw [List.append_assoc, List.singleton_append, hseen]
      simp only []
      split
      · next hthere => exact ih hwatched hlisted (.known hraw (any_identity_iff.1 hthere)) hnext
      · next hthere =>
        have habsent : w.identity ∉ namesOf raw := fun h => hthere (any_identity_iff.2 h)
        have hcalled := p.called_openCall .fetch w.identity cancelled
        have hevery := p.every_openFetch answers w.identity cancelled
        generalize p.openCall .fetch w.identity cancelled = x at hcalled hevery
        obtain ⟨q, progress⟩ := x
        rw [← hcalled.options] at hlisted
        rw [← hcalled.watchList] at hwatched hseen hnext
        cases progress with
        | waiting call =>
          exact .running q _ hcalled ⟨hwatched, listed, seen, _, hlisted, hraw, hseen, habsent, hevery⟩
        | returned r =>
          cases hr : Failover.settingOf r with
          | error e =>
            simp only [hr]
            exact .failed q _ hcalled
          | ok o =>
            simp only [hr]
            exact .of_called hcalled (ih hwatched hlisted (.read hraw habsent (hevery o hr)) hnext)

theorem leads_fetched {places : List Nat} {raw listed : List Setting} {seen : List Identity}
    {i : Identity} {progress : Progress Identity (Option Setting)}
    (hwatched : watched = p.watchList.identities.length)
    (hlisted : answers.Brings p.options.selectors listed)
    (hraw : Fetched answers (gather listed) seen raw)
    (hseen : seen ++ i :: p.watchList.names places = p.watchList.identities)
    (habsent : i ∉ namesOf raw)
    (hprogress : progress.Every (fun _ j => j = i)
      fun r => ∀ o, Failover.settingOf r = .ok o → answers.Reads i o) :
    Leads answers me p (fetched me cancelled p watched places raw progress) := by
  cases progress with
  | waiting call =>
    exact .running p _ (.refl p) ⟨hwatched, listed, seen, i, hlisted, hraw, hseen, habsent, hprogress⟩
  | returned r =>
    rw [fetched]
    cases hr : Failover.settingOf r with
    | error e => exact .failed p _ (.refl p)
    | ok o =>
      have hnext : (seen ++ [i]) ++ p.watchList.names places = p.watchList.identities := by
        rw [List.append_assoc, List.singleton_append, hseen]
      exact leads_fetchNext places hwatched hlisted (.read hraw habsent (hprogress o hr)) hnext

theorem leads_listed {progress : Progress Listing (List Setting)}
    (hprogress : progress.Every
      (fun id l => answers.Lists id p.options.selectors l ∧ l.isDone = false)
      fun r => ∀ listed m, r = .ok (listed, m) → answers.Brings p.options.selectors listed) :
    Leads answers me p (listed me cancelled p progress) := by
  cases progress with
  | waiting call => exact .running p _ (.refl p) hprogress
  | returned r =>
    cases r with
    | error e => exact .failed p _ (.refl p)
    | ok x =>
      obtain ⟨settings, m⟩ := x
      rw [listed]
      refine leads_fetchNext _ p.watchList.length_identities.symm (hprogress settings m rfl) .start ?_
      rw [List.nil_append, p.watchList.names_range]

theorem leads_enter : Leads answers me p (enter me cancelled p) := by
  unfold enter
  split
  · have hcalled := p.called_openCall .list (Listing.start p.options.selectors) cancelled
    have hevery := p.every_openList answers p.options.selectors cancelled
    generalize p.openCall .list (Listing.start p.options.selectors) cancelled = x at hcalled hevery
    obtain ⟨q, progress⟩ := x
    rw [← hcalled.options] at hevery
    exact .of_called hcalled (leads_listed hevery)
  · exact .running p _ (.refl p) trivial

end Steps

/-- A reload that starts asks for the lock first. -/
theorem leads_begin (answers : Replies) (me : TaskId) (cancelled : Bool) (p : Provider) :
    Leads answers me (p.acquire me) (begin me cancelled p) :=
  leads_enter

/-- **What a step of a reload may come to**, whatever reaches it. -/
theorem leads_handle (me : TaskId) (cancelled : Bool) {r : Reload} (h : r.Sound answers p)
    {i : Input} (admitted : i.Admitted answers (r.waits me p)) :
    Leads answers me p (r.handle me cancelled p i) := by
  have hstay : Leads answers me p (p, .running r) := .running p r (.refl p) h
  cases r with
  | waiting =>
    cases i with
    | resumed => exact leads_enter
    | answered ticket reply => exact hstay
    | fallback serial => exact hstay
    | cancelled => exact hstay
    | woke => exact hstay
  | listing call =>
    have hcalled := p.called_drive .list call i
    have hevery := p.every_drive (Conversation.keeps_list answers _) h admitted
    rw [← hcalled.options] at hevery
    exact .of_called hcalled (leads_listed hevery)
  | fetching watched places raw call =>
    obtain ⟨hwatched, listed, seen, name, hlisted, hraw, hseen, habsent, hcall⟩ := h
    have hcalled := p.called_drive .fetch call i
    have hevery := p.every_drive (Conversation.keeps_fetch answers name) hcall admitted
    rw [← hcalled.options] at hlisted
    rw [← hcalled.watchList] at hwatched hseen
    exact .of_called hcalled (leads_fetched hwatched hlisted hraw hseen habsent hevery)
  | adapting watched s rest previous done =>
    cases i with
    | resumed => exact leads_adapted h
    | answered ticket reply => exact hstay
    | fallback serial => exact hstay
    | cancelled => exact hstay
    | woke => exact hstay

/-! ## Runs of a reload -/

theorem Leads.of_running {me : TaskId} {r : Reload} (h : Leads answers me p (q, .running r)) :
    p.Called q ∧ r.Sound answers q := by
  generalize hx : ((q, .running r) : Step) = x at h
  cases h with
  | running q r called sound =>
    cases hx
    exact ⟨called, sound⟩
  | failed q e called => cases hx
  | committed q entries called loads => cases hx

theorem Leads.of_ok {me : TaskId} (h : Leads answers me p (q, .finished (.ok ()))) :
    ∃ p' entries, p.Called p' ∧ Loads answers p' entries ∧
      q = (commit me p' p'.watchList.identities.length entries).1 := by
  generalize hx : ((q, .finished (.ok ())) : Step) = x at h
  cases h with
  | running q r called sound => cases hx
  | failed q e called => cases hx
  | committed p' entries called loads => exact ⟨p', entries, called, loads, congrArg Prod.fst hx⟩

/-- A run comes to what its last step may come to, whatever relation `R` says what may happen
elsewhere, as long as it keeps what a load depends on and bears the reload's own calls. -/
theorem leads_of_runs_within {R : Provider → Provider → Prop} {me : TaskId} {cancelled : Bool}
    (acquired : R p (p.acquire me)) (trans : ∀ {a b c}, R a b → R b c → R a c)
    (called : ∀ {a b : Provider}, a.Called b → R a b) (rules : ∀ {a b}, R a b → a.SameRules b)
    {x : Step} (h : (stepping me).Runs answers R (begin me cancelled p) x) :
    ∃ q, R p q ∧ Leads answers me q x := by
  induction h with
  | start => exact ⟨p.acquire me, acquired, leads_begin answers me cancelled p⟩
  | @step p' q r before moved cancelled i admitted ih =>
    obtain ⟨p'', hreached, hleads⟩ := ih
    obtain ⟨hcalled, hsound⟩ := hleads.of_running
    -- Whatever has happened elsewhere since that step, the phase it led to is still sound.
    refine ⟨q, trans (trans hreached (called hcalled)) moved, ?_⟩
    exact leads_handle me cancelled (hsound.of_sameRules (rules moved)) admitted

/-- A run comes to what its last step may come to. -/
theorem leads_of_runs {me : TaskId} {cancelled : Bool} {x : Step}
    (h : (stepping me).Runs answers Provider.SameRules (begin me cancelled p) x) :
    ∃ q, p.SameRules q ∧ Leads answers me q x :=
  leads_of_runs_within ⟨rfl, rfl, rfl⟩ .trans Provider.Called.sameRules id h

/-- **A reload that succeeds has committed what may be loaded.** -/
theorem loads_of_runs {me : TaskId} {cancelled : Bool}
    (h : (stepping me).Runs answers Provider.SameRules (begin me cancelled p)
      (q, .finished (.ok ()))) :
    ∃ p' entries, p.SameRules p' ∧ Loads answers p' entries ∧
      q = (commit me p' p'.watchList.identities.length entries).1 := by
  obtain ⟨p'', hrules, hleads⟩ := leads_of_runs h
  obtain ⟨p', entries, hcalled, hloads, hq⟩ := hleads.of_ok
  exact ⟨p', entries, hrules.trans hcalled.sameRules, hloads, hq⟩

/-- What a commit makes current. -/
theorem current_commit (me : TaskId) (p : Provider) (watched : Nat) (entries : List Entry) :
    (commit me p watched entries).1.publisher.current =
      ⟨p.publisher.current.version + 1, (Materialized.mk entries).values⟩ :=
  Publisher.current_publish _ _

theorem values_commit (me : TaskId) (p : Provider) (watched : Nat) (entries : List Entry) :
    (commit me p watched entries).1.publisher.current.values = (Materialized.mk entries).values := by
  rw [current_commit]

/-- What a commit makes of the key at a place. -/
theorem get?_commit (me : TaskId) (p : Provider) (watched : Nat) (entries : List Entry)
    (place : Nat) : (commit me p watched entries).1.watchList.get? place =
      (p.watchList.get? place).map fun w => Watch.attempted p.now
        (if place < watched then { w with token := (Materialized.mk entries).tokenOf w.identity }
        else w) := by
  simp only [commit, Provider.publish, Provider.release, WatchList.markAllAttempted, noteTokens,
    WatchList.get?, List.getElem?_map, List.getElem?_mapIdx, Option.map_map]
  rfl

/-- A commit notes the token of what was loaded under every watched name. -/
theorem facts_commit (me : TaskId) (p : Provider) (entries : List Entry) :
    (commit me p p.watchList.identities.length entries).1.watchList.facts =
      p.watchList.facts.map fun f => (f.1, f.2.1, (Materialized.mk entries).tokenOf f.1) := by
  refine List.ext_getElem? fun i => ?_
  simp only [WatchList.facts, List.getElem?_map]
  change ((commit me p p.watchList.identities.length entries).1.watchList.get? i).map _ =
    ((p.watchList.get? i).map _).map _
  rw [get?_commit]
  cases hw : p.watchList.get? i with
  | none => rfl
  | some w =>
    have hlt : i < p.watchList.identities.length := by
      rw [WatchList.length_identities]
      exact (List.getElem?_eq_some_iff.1 hw).1
    simp only [Option.map_some, hlt, if_true]
    rfl

/-- A commit keeps the names, however many of them were watched when it began. -/
theorem identities_commit (me : TaskId) (p : Provider) (watched : Nat) (entries : List Entry) :
    (commit me p watched entries).1.watchList.identities = p.watchList.identities := by
  refine List.ext_getElem? fun place => ?_
  rw [WatchList.getElem?_identities, WatchList.getElem?_identities, get?_commit, Option.map_map]
  refine congrArg (Option.map · _) (funext fun w => ?_)
  show (Watch.attempted p.now (if place < watched then _ else w)).identity = w.identity
  rw [Watch.identity_attempted]
  split <;> rfl

theorem sameRules_commit (me : TaskId) (p : Provider) (entries : List Entry) :
    p.SameRules (commit me p p.watchList.identities.length entries).1 :=
  ⟨rfl, rfl, identities_commit me p _ entries⟩

theorem sameRules_of_runs {me : TaskId} {cancelled : Bool}
    (h : (stepping me).Runs answers Provider.SameRules (begin me cancelled p)
      (q, .finished (.ok ()))) : p.SameRules q := by
  obtain ⟨p', entries, hrules, -, rfl⟩ := loads_of_runs h
  exact hrules.trans (sameRules_commit me p' entries)

end Reload
end ReplicatedConfig
