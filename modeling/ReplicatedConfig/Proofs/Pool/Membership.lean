import ReplicatedConfig.Proofs.Pool.Numbering

/-!
# Who belongs to a pool

A pool is given its configured endpoints once and its found ones again and again.  At every
moment its members stand for the configured endpoints and behind them for the found ones that it
has last taken in, each endpoint once, at its first place (`membership_run`).  `lastTaken` says
which found ones these are: a list that the pool refuses, because a client cannot be created or
nobody would be left, leaves it as it is.

## Configured members stay

`Enlists` splits the members into those of the configured endpoints and the others.  The first
part is a parameter of the invariant and not quantified in it, so it says of a run that these
members are the same ones, under the same numbers, from the start on: enrolling looks old members
up by endpoint and source, and the wanted list starts with the configured endpoints whatever has
been found (`wanted_eq`, `enrol_append`).

The same number means the same health, and what has happened to a member's health is then what
has been recorded for its endpoint (`Enlists.health_apply`).
-/

namespace ReplicatedConfig
namespace Pool

/-! ## What is wanted -/

/-- Which endpoints are taken depends on which ones stood before, and not on their order. -/
theorem firsts_congr {seen seen' : List Endpoint} (h : ∀ e, e ∈ seen ↔ e ∈ seen')
    (es : List (Endpoint × Source)) : firsts seen es = firsts seen' es := by
  induction es generalizing seen seen' with
  | nil => rfl
  | cons e rest ih =>
    have hcons (d : Endpoint) : d ∈ e.1 :: seen ↔ d ∈ e.1 :: seen' := by
      rw [List.mem_cons, List.mem_cons, h]
    rw [firsts, firsts, ih h, ih hcons]
    simp only [h]

theorem firsts_append (seen : List Endpoint) (es es' : List (Endpoint × Source)) :
    firsts seen (es ++ es') = firsts seen es ++ firsts (seen ++ es.map (·.1)) es' := by
  induction es generalizing seen with
  | nil => rw [List.map_nil, List.append_nil]; rfl
  | cons e rest ih =>
    rw [List.cons_append, firsts, firsts]
    split
    · next he =>
      rw [ih]
      refine congrArg _ (firsts_congr (fun d => ?_) es')
      simp only [List.map_cons, List.mem_append, List.mem_cons]
      constructor
      · rintro (hd | hd)
        · exact .inl hd
        · exact .inr (.inr hd)
      · rintro (hd | rfl | hd)
        · exact .inl hd
        · exact .inl he
        · exact .inr hd
    · rw [ih, List.cons_append]
      refine congrArg _ (congrArg _ (firsts_congr (fun d => ?_) es'))
      simp only [List.map_cons, List.mem_append, List.mem_cons]
      tauto

/-- Of endpoints with one source, the new ones are taken, each at its first place. -/
theorem firsts_map (seen es : List Endpoint) (source : Source) :
    firsts seen (es.map (·, source)) = (es.filter (· ∉ seen)).eraseDups.map (·, source) := by
  induction es generalizing seen with
  | nil => rfl
  | cons e rest ih =>
    rw [List.map_cons, firsts]
    by_cases he : e ∈ seen
    · rw [if_pos he, ih, List.filter_cons_of_neg (by simpa using he)]
    · have hrest : rest.filter (· ∉ e :: seen) = (rest.filter (· ∉ seen)).filter (!· == e) := by
        rw [List.filter_filter]
        refine List.filter_congr fun d _ => ?_
        simp [List.mem_cons, not_or, beq_eq_decide]
      rw [if_neg he, ih, hrest, List.filter_cons_of_pos (by simpa using he), List.eraseDups_cons,
        List.map_cons]

/-- **What a pool is to have**: the configured endpoints, and behind them those that were found
besides. -/
theorem wanted_eq (configured found : List Endpoint) :
    wanted configured found = configured.eraseDups.map (·, .configured) ++
      (found.filter (· ∉ configured)).eraseDups.map (·, .found) := by
  have hnone : configured.filter (· ∉ ([] : List Endpoint)) = configured := by simp
  have hmap : (configured.map (·, Source.configured)).map (·.1) = configured := by
    rw [List.map_map]
    exact List.map_id configured
  rw [wanted, firsts_append, firsts_map, firsts_map, hnone, hmap, List.nil_append]

theorem map_fst_wanted (configured found : List Endpoint) :
    (wanted configured found).map (·.1) = (configured ++ found).eraseDups := by
  have hremove : found.removeAll configured = found.filter (· ∉ configured) := by
    refine List.filter_congr fun e _ => ?_
    simp
  have hfst (source : Source) (es : List Endpoint) : (es.map (·, source)).map (·.1) = es := by
    rw [List.map_map]
    exact List.map_id es
  rw [wanted_eq, List.map_append, hfst, hfst, List.eraseDups_append, hremove]

/-! ## Members that are there stay -/

/-- A member is found by its endpoint and source where each endpoint stands once. -/
theorem find?_member {ms : List Member} (hms : (ms.map (·.endpoint)).Nodup) {m : Member}
    (hm : m ∈ ms) :
    ms.find? (fun x => x.endpoint = m.endpoint ∧ x.source = m.source) = some m := by
  obtain ⟨x, hx⟩ : ∃ x, ms.find? (fun x => x.endpoint = m.endpoint ∧ x.source = m.source) = some x :=
    Option.isSome_iff_exists.1 (List.find?_isSome.2 ⟨m, hm, by simp⟩)
  have hfound := List.find?_some hx
  rw [decide_eq_true_eq] at hfound
  rw [hx, List.inj_on_of_nodup_map hms (List.mem_of_find?_eq_some hx) hm hfound.1]

/-- Where a wanted list starts with members that are there, so do the enrolled ones. -/
theorem enrol_append {refusals : Refusals} {existing old : List Member} {next : Nat}
    (hold : ∀ m ∈ old,
      existing.find? (fun x => x.endpoint = m.endpoint ∧ x.source = m.source) = some m)
    (es : List (Endpoint × Source)) :
    enrol refusals existing next (old.map (fun m => (m.endpoint, m.source)) ++ es) =
      (enrol refusals existing next es).map (old ++ ·) := by
  induction old with
  | nil =>
    rw [List.map_nil, List.nil_append]
    cases enrol refusals existing next es <;> rfl
  | cons m rest ih =>
    rw [List.map_cons, List.cons_append, enrol, hold m List.mem_cons_self]
    simp only [ih fun m hm => hold m (List.mem_cons_of_mem _ hm)]
    cases enrol refusals existing next es <;> rfl

/-! ## What is done to a pool -/

/-- Something that is done to a pool. -/
inductive Act where
  /-- The found replicas are replaced. -/
  | replaceFound (refusals : Refusals) (found : List Endpoint) (now : Instant)
  /-- A lookup is to start. -/
  | claimLookup (now : Instant)
  /-- A lookup has ended. -/
  | applyLookup (refusals : Refusals) (found : Option (List Endpoint)) (now : Instant)
  /-- A request to an endpoint has ended. -/
  | record (endpoint : Endpoint) (success : Bool) (now : Instant) (draw : Draw)

/-- What an act makes of a pool.  One that fails leaves it as it is. -/
def apply (p : Pool) : Act → Pool
  | .replaceFound refusals found now =>
    match p.replaceFound refusals found now with
    | .ok (q, _) => q
    | .error _ => p
  | .claimLookup now => (p.claimLookup now).getD p
  | .applyLookup refusals found now => (p.applyLookup refusals found now).1
  | .record e success now draw => (p.recordEndpoint e success now draw).1

/-- One act after the other. -/
def run (p : Pool) (acts : List Act) : Pool := acts.foldl apply p

/-- The found endpoints that a pool takes in with an act, if it takes any in. -/
def taken? (p : Pool) : Act → Option (List Endpoint)
  | .replaceFound refusals found now | .applyLookup refusals (some found) now =>
    match p.replaceFound refusals found now with
    | .ok _ => some found
    | .error _ => none
  | _ => none

/-- The found endpoints that a pool has last taken in, where `found` are those before. -/
def lastTaken (p : Pool) (found : List Endpoint) : List Act → List Endpoint
  | [] => found
  | act :: rest => lastTaken (p.apply act) ((p.taken? act).getD found) rest

/-- What an act makes of the health of the member of an endpoint: what is recorded for the
endpoint, and nothing else, makes a difference. -/
def Act.heard (policy : BackoffPolicy) (e : Endpoint) (h : Health) : Act → Health
  | .record e' success now draw => if e' = e then h.record success now policy draw else h
  | _ => h

/-- Pools that have just been built, with the configured endpoints and the found ones. -/
inductive Built (configured : List Endpoint) : List Endpoint → Pool → Prop where
  | new {refusals : Refusals} {policy : BackoffPolicy} {now : Instant} {p : Pool}
      (built : Pool.new refusals configured policy now = .ok p) : Built configured [] p
  | connect {refusals : Refusals} {origin : Endpoint} {found : Option (List Endpoint)}
      {policy : BackoffPolicy} {now : Instant} {p : Pool}
      (built : Pool.connect refusals configured origin found policy now = .ok p) :
      Built configured (found.getD []) p
  /-- The time between lookups may be set before the pool is used. -/
  | paced {found : List Endpoint} {p : Pool} (before : Built configured found p)
      (lookupInterval : Duration) : Built configured found { p with lookupInterval }

/-! ## Who belongs to a pool at every moment -/

/-- The members are those of the configured endpoints, which are given, and of what was found
besides. -/
structure Enlists (configured : List Endpoint) (statics : List Member) (found : List Endpoint)
    (p : Pool) : Prop where
  configured_eq : p.configured = configured
  map_statics : statics.map (fun m => (m.endpoint, m.source)) =
    configured.eraseDups.map (·, .configured)
  exists_others : ∃ others, p.members = statics ++ others ∧
    others.map (fun m => (m.endpoint, m.source)) =
      (found.filter (· ∉ configured)).eraseDups.map (·, .found)
  ne_nil : p.members ≠ []
  numbered : p.Numbered

variable {configured found taken : List Endpoint} {statics : List Member} {p q : Pool}
  {refusals : Refusals} {now : Instant} {changed : Bool}

namespace Enlists

theorem map_entry (h : Enlists configured statics found p) :
    p.members.map (fun m => (m.endpoint, m.source)) = wanted configured found := by
  obtain ⟨others, hmembers, hothers⟩ := h.exists_others
  rw [hmembers, List.map_append, h.map_statics, hothers, wanted_eq]

/-- The members' endpoints are the configured and the found ones, each at its first place. -/
theorem map_endpoint (h : Enlists configured statics found p) :
    p.members.map (·.endpoint) = (configured ++ found).eraseDups := by
  rw [← map_fst_wanted, ← h.map_entry, List.map_map]
  rfl

theorem nodup_endpoint (h : Enlists configured statics found p) :
    (p.members.map (·.endpoint)).Nodup := by
  have hnodup := nodup_wanted configured found
  rw [← h.map_entry, List.map_map] at hnodup
  exact hnodup

theorem mem_of_static (h : Enlists configured statics found p) {m : Member} (hm : m ∈ statics) :
    m ∈ p.members := by
  obtain ⟨others, hmembers, -⟩ := h.exists_others
  rw [hmembers]
  exact List.mem_append_left _ hm

/-- A member is a configured one if and only if its endpoint is configured. -/
theorem source_eq_configured (h : Enlists configured statics found p) {m : Member}
    (hm : m ∈ p.members) : m.source = .configured ↔ m.endpoint ∈ configured := by
  have hentry : (m.endpoint, m.source) ∈ wanted configured found := by
    rw [← h.map_entry]
    exact List.mem_map.2 ⟨m, hm, rfl⟩
  rw [wanted_eq, List.mem_append, List.mem_map, List.mem_map] at hentry
  rcases hentry with ⟨e, he, hme⟩ | ⟨e, he, hme⟩ <;> obtain ⟨hend, hsource⟩ := Prod.mk.inj hme
  · rw [← hend, ← hsource]
    exact iff_of_true rfl (List.mem_eraseDups.1 he)
  · rw [← hend, ← hsource]
    exact iff_of_false nofun (of_decide_eq_true (List.mem_filter.1 (List.mem_eraseDups.1 he)).2)

/-- What enrolling makes of a pool that enlists. -/
theorem of_enrol (h : Enlists configured statics found p) {ms : List Member}
    (hms : enrol refusals p.members p.healths.length (wanted p.configured taken) = .ok ms)
    (hne : ms ≠ []) (now : Instant) :
    Enlists configured statics taken { p with members := ms, healths := enrolled p.healths ms now } := by
  refine ⟨h.configured_eq, h.map_statics, ?_, hne, numbered_enrolled h.numbered hms⟩
  rw [h.configured_eq, wanted_eq, ← h.map_statics, enrol_append fun m hm =>
    find?_member h.nodup_endpoint (h.mem_of_static hm)] at hms
  obtain ⟨others, hothers, rfl⟩ := exists_of_map_ok hms
  exact ⟨others, rfl, map_endpoint_enrol hothers⟩

/-- The members alone decide who is enlisted, apart from the numbers. -/
theorem of_members (h : Enlists configured statics found p) (hmembers : q.members = p.members)
    (hconfigured : q.configured = p.configured) (hq : q.Numbered) :
    Enlists configured statics found q :=
  ⟨hconfigured.trans h.configured_eq, h.map_statics, hmembers ▸ h.exists_others,
    hmembers ▸ h.ne_nil, hq⟩

theorem replaceFound (h : Enlists configured statics found p)
    (hq : p.replaceFound refusals taken now = .ok (q, changed)) :
    Enlists configured statics taken q := by
  cases hms : enrol refusals p.members p.healths.length (wanted p.configured taken) with
  | error e => simp [Pool.replaceFound, hms, bind, Except.bind] at hq
  | ok ms =>
    simp only [Pool.replaceFound, hms, bind, Except.bind] at hq
    split at hq
    · cases hq
    · next hne =>
      have htaken := h.of_enrol hms (by simpa using hne) now
      split at hq
      · next hsame =>
        cases hq
        exact htaken.of_members hsame.symm rfl h.numbered
      · cases hq
        exact htaken

/-- Taking the slot for a lookup does not touch the members. -/
theorem claimLookup (h : Enlists configured statics found p) (now : Instant) :
    Enlists configured statics found ((p.claimLookup now).getD p) := by
  unfold Pool.claimLookup
  split
  · split
    · exact h
    · exact h.of_members rfl rfl ⟨h.numbered.nodup, h.numbered.lt_length⟩
  · exact h.of_members rfl rfl ⟨h.numbered.nodup, h.numbered.lt_length⟩

theorem recordEndpoint (h : Enlists configured statics found p) (e : Endpoint) (success : Bool)
    (now : Instant) (draw : Draw) :
    Enlists configured statics found (p.recordEndpoint e success now draw).1 := by
  unfold Pool.recordEndpoint
  split
  · exact h.of_members rfl rfl (numbered_record h.numbered _ _ _ _ _)
  · exact h

/-- Whatever is done, the configured members stay, and the others are those of the found
endpoints that the pool has last taken in. -/
theorem apply (h : Enlists configured statics found p) (act : Act) :
    Enlists configured statics ((p.taken? act).getD found) (p.apply act) := by
  cases act with
  | replaceFound refusals taken now =>
    cases hq : p.replaceFound refusals taken now with
    | error e => simpa only [Pool.apply, taken?, hq, Option.getD] using h
    | ok r => simpa only [Pool.apply, taken?, hq, Option.getD] using h.replaceFound hq
  | claimLookup now => exact h.claimLookup now
  | applyLookup refusals answer now =>
    cases answer with
    | none => exact h
    | some taken =>
      cases hq : p.replaceFound refusals taken now with
      | error e => simpa only [Pool.apply, applyLookup, taken?, hq, Option.getD] using h
      | ok r => simpa only [Pool.apply, applyLookup, taken?, hq, Option.getD] using h.replaceFound hq
  | record e success now draw => exact h.recordEndpoint e success now draw

end Enlists

/-! ## Health goes with the endpoint -/

theorem health_replaceFound (hq : p.replaceFound refusals taken now = .ok (q, changed)) :
    q.policy = p.policy ∧ ∀ m : Member, m.id < p.healths.length → q.health m = p.health m := by
  cases hms : enrol refusals p.members p.healths.length (wanted p.configured taken) with
  | error e => simp [Pool.replaceFound, hms, bind, Except.bind] at hq
  | ok ms =>
    simp only [Pool.replaceFound, hms, bind, Except.bind] at hq
    split at hq
    · cases hq
    · split at hq
      · cases hq
        exact ⟨rfl, fun m _ => rfl⟩
      · cases hq
        refine ⟨rfl, fun m hm => ?_⟩
        simp only [health, enrolled, List.getD_eq_getElem?_getD]
        rw [List.getElem?_append_left hm]

theorem health_claimLookup (p : Pool) (now : Instant) :
    ((p.claimLookup now).getD p).policy = p.policy ∧
      ∀ m, ((p.claimLookup now).getD p).health m = p.health m := by
  unfold claimLookup
  split
  · split
    · exact ⟨rfl, fun m => rfl⟩
    · exact ⟨rfl, fun m => rfl⟩
  · exact ⟨rfl, fun m => rfl⟩

/-- What is recorded for an endpoint is recorded for its member, and for no other. -/
theorem health_recordEndpoint (hp : p.Numbered) (hnodup : (p.members.map (·.endpoint)).Nodup)
    {m : Member} (hm : m ∈ p.members) (e : Endpoint) (success : Bool) (now : Instant) (draw : Draw) :
    (p.recordEndpoint e success now draw).1.health m =
      if e = m.endpoint then (p.health m).record success now p.policy draw else p.health m := by
  unfold recordEndpoint member?
  split
  · next m' hm' =>
    have hmem := List.mem_of_find?_eq_some hm'
    have hend := List.find?_some hm'
    rw [decide_eq_true_eq] at hend
    have hlt := hp.lt_length m hm
    have hid : m'.id = m.id ↔ e = m.endpoint := by
      constructor
      · exact fun hid => hend ▸ congrArg _ (List.inj_on_of_nodup_map hp.nodup hmem hm hid)
      · exact fun he => congrArg _ (List.inj_on_of_nodup_map hnodup hmem hm (hend.trans he))
    simp only [record, health, List.getD_eq_getElem?_getD, List.getElem?_modify, hid,
      List.getElem?_eq_getElem hlt]
    split <;> rfl
  · next hnone =>
    have hne : ¬ e = m.endpoint := fun he =>
      List.find?_eq_none.1 hnone m hm (decide_eq_true he.symm)
    rw [if_neg hne]

/-- What an act does to the health of a member that was there. -/
theorem Enlists.health_apply (h : Enlists configured statics found p) (act : Act) :
    (p.apply act).policy = p.policy ∧
      ∀ m ∈ p.members, (p.apply act).health m = act.heard p.policy m.endpoint (p.health m) := by
  have hreplace (refusals : Refusals) (taken : List Endpoint) (now : Instant) {r : Pool × Bool}
      (hr : p.replaceFound refusals taken now = .ok r) :
      r.1.policy = p.policy ∧ ∀ m ∈ p.members, r.1.health m = p.health m := by
    obtain ⟨hpolicy, hhealth⟩ := health_replaceFound hr
    exact ⟨hpolicy, fun m hm => hhealth m (h.numbered.lt_length m hm)⟩
  cases act with
  | replaceFound refusals taken now =>
    cases hq : p.replaceFound refusals taken now with
    | error e => simp only [Pool.apply, hq, Act.heard, implies_true, and_self]
    | ok r => simpa only [Pool.apply, hq, Act.heard] using hreplace refusals taken now hq
  | claimLookup now =>
    obtain ⟨hpolicy, hhealth⟩ := health_claimLookup p now
    exact ⟨hpolicy, fun m _ => hhealth m⟩
  | applyLookup refusals answer now =>
    cases answer with
    | none => exact ⟨rfl, fun m _ => rfl⟩
    | some taken =>
      cases hq : p.replaceFound refusals taken now with
      | error e => simp only [Pool.apply, applyLookup, hq, Act.heard, implies_true, and_self]
      | ok r => simpa only [Pool.apply, applyLookup, hq, Act.heard] using hreplace refusals taken now hq
  | record e success now draw =>
    refine ⟨?_, fun m hm => health_recordEndpoint h.numbered h.nodup_endpoint hm e success now draw⟩
    show (p.recordEndpoint e success now draw).1.policy = p.policy
    unfold Pool.recordEndpoint
    split <;> rfl

/-! ## Runs -/

@[simp] theorem run_cons (p : Pool) (act : Act) (rest : List Act) :
    p.run (act :: rest) = (p.apply act).run rest := rfl

/-- **Runs.**  The configured members stay, and their health is what has been heard of their
endpoints. -/
theorem Enlists.run (h : Enlists configured statics found p) (acts : List Act) :
    Enlists configured statics (p.lastTaken found acts) (p.run acts) ∧
      ∀ m ∈ statics,
        (p.run acts).health m = acts.foldl (Act.heard p.policy m.endpoint) (p.health m) := by
  induction acts generalizing p found with
  | nil => exact ⟨h, fun m _ => rfl⟩
  | cons act rest ih =>
    obtain ⟨hrun, hhealth⟩ := ih (h.apply act)
    obtain ⟨hpolicy, hheard⟩ := h.health_apply act
    refine ⟨hrun, fun m hm => ?_⟩
    rw [run_cons, hhealth m hm, hpolicy, hheard m (h.mem_of_static hm), List.foldl_cons]

/-! ## From the start on -/

theorem enlists_build {origin : Endpoint} {policy : BackoffPolicy}
    (h : build refusals configured found origin policy now = .ok p) :
    ∃ statics, Enlists configured statics found p := by
  cases hms : enrol refusals [] 0 (wanted configured found) with
  | error e => simp [build, hms, bind, Except.bind] at h
  | ok ms =>
    have hnumbered := numbered_build h
    simp only [build, hms, bind, Except.bind] at h
    split at h
    · cases h
    · next hne =>
      cases h
      have hentry := map_endpoint_enrol hms
      rw [wanted_eq] at hentry
      obtain ⟨statics, others, rfl, hstatics, hothers⟩ := List.map_eq_append_iff.1 hentry
      exact ⟨statics, rfl, hstatics, ⟨others, rfl, hothers⟩, by simpa using hne, hnumbered⟩

/-- A pool that has just been built enlists whom it is given. -/
theorem Built.enlists (h : Built configured found p) :
    ∃ statics, Enlists configured statics found p := by
  induction h with
  | new built =>
    unfold Pool.new at built
    split at built
    · cases built
    · exact enlists_build built
  | connect built =>
    obtain ⟨p, hp, rfl⟩ := exists_of_map_ok built
    obtain ⟨statics, h⟩ := enlists_build hp
    exact ⟨statics, h.of_members rfl rfl ⟨h.numbered.nodup, h.numbered.lt_length⟩⟩
  | paced before lookupInterval ih =>
    obtain ⟨statics, h⟩ := ih
    exact ⟨statics, h.of_members rfl rfl ⟨h.numbered.nodup, h.numbered.lt_length⟩⟩

/-- **Who belongs to a pool.**  After every run of a pool that has just been built, the members
stand for the configured endpoints and the found ones that it has last taken in, each once; and
those of the configured endpoints are the members that it was built with, at their places and
with nothing in their health but what has been recorded for their endpoints. -/
theorem membership_run (built : Built configured found p) (acts : List Act) :
    (p.run acts).members ≠ [] ∧
    ((p.run acts).members.map (·.endpoint)).Nodup ∧
    (p.run acts).members.map (·.endpoint) = (configured ++ p.lastTaken found acts).eraseDups ∧
    (∀ m ∈ (p.run acts).members, m.source = .configured ↔ m.endpoint ∈ configured) ∧
    (∀ e ∈ configured, ∃ (i : Nat) (m : Member), p.members[i]? = some m ∧
      (p.run acts).members[i]? = some m ∧ m.endpoint = e ∧ m.source = .configured ∧
      (p.run acts).health m = acts.foldl (Act.heard p.policy e) (p.health m)) ∧
    (configured ≠ [] → (p.run acts).primary? = p.primary? ∧
      p.primary?.map (·.endpoint) = configured.head?) := by
  obtain ⟨statics, hbuilt⟩ := built.enlists
  obtain ⟨hrun, hhealth⟩ := hbuilt.run acts
  obtain ⟨before, hbefore, -⟩ := hbuilt.exists_others
  obtain ⟨after, hafter, -⟩ := hrun.exists_others
  refine ⟨hrun.ne_nil, hrun.nodup_endpoint, hrun.map_endpoint,
    fun m hm => hrun.source_eq_configured hm, fun e he => ?_, fun hne => ?_⟩
  · have hentry : (e, Source.configured) ∈ statics.map (fun m => (m.endpoint, m.source)) := by
      rw [hbuilt.map_statics]
      exact List.mem_map.2 ⟨e, List.mem_eraseDups.2 he, rfl⟩
    obtain ⟨m, hm, hme⟩ := List.mem_map.1 hentry
    obtain ⟨rfl, hsource⟩ := Prod.mk.inj hme
    obtain ⟨i, hi⟩ := List.getElem?_of_mem hm
    have hlt : i < statics.length := List.getElem?_eq_some_iff.1 hi |>.1
    refine ⟨i, m, ?_, ?_, rfl, hsource, hhealth m hm⟩
    · rw [hbefore, List.getElem?_append_left hlt, hi]
    · rw [hafter, List.getElem?_append_left hlt, hi]
  · obtain ⟨e, rest, rfl⟩ := List.exists_cons_of_ne_nil hne
    have hstatics := hbuilt.map_statics
    rw [List.eraseDups_cons, List.map_cons] at hstatics
    obtain ⟨m, ms, rfl, hm, -⟩ := List.map_eq_cons_iff.1 hstatics
    rw [primary?, primary?, hbefore, hafter]
    exact ⟨rfl, congrArg some (Prod.mk.inj hm).1⟩

/-- What happens to a pool whose replica `c` is to make way: a list is refused, for want of a
client for `d`, then a request to the primary fails, and a lookup finds `d` and the primary. -/
def relocation : List Act :=
  [.replaceFound (fun _ => some .cancelled) (ofHosts ["d"]).configured .start,
    .record (ofHosts ["a"]).origin false .start .middle,
    .claimLookup .start,
    .applyLookup (fun _ => none) (some (ofHosts ["d", "a"]).configured) .start]

/-- The members after a relocation: `d` stands in the place of `c`, and the primary has stayed
although it was found too. -/
theorem membership_relocation : ∃ p, Built (ofHosts ["a", "b", "a"]).configured
      (ofHosts ["b", "c"]).configured p ∧
    (p.run relocation).members.map (·.endpoint) = (ofHosts ["a", "b", "d"]).configured ∧
    (p.run relocation).primary? = p.primary? := by
  obtain ⟨p, hp⟩ : ∃ p, connect (fun _ => none) (ofHosts ["a", "b", "a"]).configured
      (ofHosts ["a"]).origin (some (ofHosts ["b", "c"]).configured) default .start = .ok p :=
    ⟨_, rfl⟩
  have hbuilt : Built (ofHosts ["a", "b", "a"]).configured (ofHosts ["b", "c"]).configured p :=
    .connect hp
  obtain ⟨-, -, hmembers, -, -, hprimary⟩ := membership_run hbuilt relocation
  have htaken : p.lastTaken (ofHosts ["b", "c"]).configured relocation =
      (ofHosts ["d", "a"]).configured := by
    cases hp
    rfl
  refine ⟨p, hbuilt, ?_, (hprimary (List.cons_ne_nil _ _)).1⟩
  rw [hmembers, htaken]
  decide

end Pool
end ReplicatedConfig
