import ReplicatedConfig.Proofs.Pool.Membership

/-!
# Replacing the found replicas

A list of found endpoints is taken in as a whole or not at all, and who stays is left alone.
`replaceFound_of_reachable` says so of every pool that a provider may come to have (`Reachable`),
whatever has been recorded of its members, and of members that have left.

## Which clients are created

A client is created for each endpoint that is to belong to the pool and has no member there, in the
order of the pool (`newcomers`), and `refusal?` is the first of these that fails.  That a list is
taken in without a client is said by letting the creation of every client fail: this is what
happens when the same list comes again.

## Members and endpoints

The pool compares members and not endpoints, and it looks old members up by endpoint and source.
Both make no difference: an endpoint is a configured one or it is not, so members for the same
endpoint have the same source (`Enlists.eq_of_endpoint`), and then they are the same member.
-/

namespace ReplicatedConfig
namespace Pool

/-! ## Pools that can be reached -/

/-- The pools that can be reached from one that has just been built.  Requests may end at members
that have left, and under rules that have been replaced since. -/
inductive Reachable : Pool → Prop where
  | built {configured found : List Endpoint} {p : Pool} (built : Built configured found p) :
      Reachable p
  | acted {p : Pool} (before : Reachable p) (act : Act) : Reachable (p.apply act)
  | recorded {p : Pool} (before : Reachable p) (m : Member) (success : Bool) (now : Instant)
      (policy : BackoffPolicy) (draw : Draw) : Reachable (p.record m success now policy draw)
  | governed {p : Pool} (before : Reachable p) (policy : BackoffPolicy) :
      Reachable { p with policy }

/-- A pool that can be reached enlists the configured endpoints and found ones. -/
theorem Reachable.enlists {p : Pool} (h : Reachable p) :
    ∃ configured statics found, Enlists configured statics found p := by
  induction h with
  | @built configured found p built =>
    obtain ⟨statics, henlists⟩ := built.enlists
    exact ⟨configured, statics, found, henlists⟩
  | acted before act ih =>
    obtain ⟨configured, statics, found, henlists⟩ := ih
    exact ⟨configured, statics, _, henlists.apply act⟩
  | recorded before m success now policy draw ih =>
    obtain ⟨configured, statics, found, henlists⟩ := ih
    have hnumbered := numbered_record henlists.numbered m success now policy draw
    exact ⟨configured, statics, found, henlists.of_members rfl rfl hnumbered⟩
  | governed before policy ih =>
    obtain ⟨configured, statics, found, henlists⟩ := ih
    obtain ⟨hnodup, hlt⟩ := henlists.numbered
    exact ⟨configured, statics, found, henlists.of_members rfl rfl ⟨hnodup, hlt⟩⟩

/-! ## Whom enrolling takes -/

/-- Whether there is a member for an endpoint of a source. -/
def hasMember (existing : List Member) (e : Endpoint × Source) : Bool :=
  (existing.find? fun m => m.endpoint = e.1 ∧ m.source = e.2).isSome

/-- Why no client can be created for the first endpoint for which there is none. -/
def firstRefusal (refusals : Refusals) (es : List Endpoint) : Option PoolError :=
  es.findSome? fun e => (refusals e).map (.clientInit e.text)

section Enrol

variable {refusals : Refusals} {existing ms : List Member} {next : Nat}
  {es : List (Endpoint × Source)}

/-- Each of the enrolled is the member that was there for its endpoint and source, or is new. -/
theorem mem_enrol (h : enrol refusals existing next es = .ok ms) :
    ∀ m ∈ ms,
      existing.find? (fun x => x.endpoint = m.endpoint ∧ x.source = m.source) = some m ∨
        hasMember existing (m.endpoint, m.source) = false ∧ next ≤ m.id := by
  induction es generalizing next ms with
  | nil =>
    cases h
    intro m hm
    exact absurd hm List.not_mem_nil
  | cons e rest ih =>
    obtain ⟨endpoint, source⟩ := e
    rw [enrol] at h
    split at h
    · next m hm =>
      obtain ⟨ms', hms', rfl⟩ := exists_of_map_ok h
      have hfound := List.find?_some hm
      rw [decide_eq_true_eq] at hfound
      obtain ⟨rfl, rfl⟩ := hfound
      exact List.forall_mem_cons.2 ⟨.inl hm, ih hms'⟩
    · next hnone =>
      split at h
      · cases h
      · obtain ⟨ms', hms', rfl⟩ := exists_of_map_ok h
        refine List.forall_mem_cons.2 ⟨.inr ⟨?_, Nat.le_refl next⟩, ?_⟩
        · rw [hasMember, hnone]
          rfl
        · intro m hm
          rcases ih hms' m hm with hthere | ⟨hnew, hle⟩
          · exact .inl hthere
          · exact .inr ⟨hnew, Nat.le_of_succ_le hle⟩

/-- Enrolling fails where a client that it needs cannot be created, and nowhere else. -/
theorem enrol_cases (refusals : Refusals) (existing : List Member) (next : Nat)
    (es : List (Endpoint × Source)) :
    (∃ e, enrol refusals existing next es = .error e ∧
        firstRefusal refusals ((es.filter (!hasMember existing ·)).map (·.1)) = some e) ∨
      (∃ ms, enrol refusals existing next es = .ok ms) ∧
        firstRefusal refusals ((es.filter (!hasMember existing ·)).map (·.1)) = none := by
  induction es generalizing next with
  | nil => exact .inr ⟨⟨[], rfl⟩, rfl⟩
  | cons e rest ih =>
    obtain ⟨endpoint, source⟩ := e
    rw [enrol]
    cases hfind : existing.find? fun m => m.endpoint = endpoint ∧ m.source = source with
    | some m =>
      have hthere : hasMember existing (endpoint, source) = true := by
        rw [hasMember, hfind]
        rfl
      simp only [List.filter_cons, hthere, Bool.not_true, Bool.false_eq_true, if_false]
      rcases ih next with ⟨e, he, hrefused⟩ | ⟨⟨ms, hms⟩, hnone⟩
      · exact .inl ⟨e, by rw [he]; rfl, hrefused⟩
      · exact .inr ⟨⟨m :: ms, by rw [hms]; rfl⟩, hnone⟩
    | none =>
      have hnew : hasMember existing (endpoint, source) = false := by
        rw [hasMember, hfind]
        rfl
      simp only [List.filter_cons, hnew, Bool.not_false, if_true, List.map_cons, firstRefusal,
        List.findSome?_cons]
      cases hrefused : refusals endpoint with
      | some cause => exact .inl ⟨_, rfl, rfl⟩
      | none =>
        simp only [Option.map_none]
        rcases ih (next + 1) with ⟨e, he, hrest⟩ | ⟨⟨ms, hms⟩, hrest⟩
        · exact .inl ⟨e, by rw [he]; rfl, hrest⟩
        · exact .inr ⟨⟨_, by rw [hms]; rfl⟩, hrest⟩

end Enrol

/-! ## Members and endpoints -/

variable {p q : Pool} {configured found taken : List Endpoint} {statics : List Member}
  {refusals : Refusals} {now : Instant} {changed : Bool}

/-- The endpoints that a pool is to have and has no member for. -/
def newcomers (p : Pool) (found : List Endpoint) : List Endpoint :=
  (p.configured ++ found).eraseDups.filter (· ∉ p.members.map (·.endpoint))

/-- Why a list of found endpoints cannot be taken in, if that is so: nobody would be left, or a
client that is needed cannot be created. -/
def refusal? (p : Pool) (refusals : Refusals) (found : List Endpoint) : Option PoolError :=
  if p.configured = [] ∧ found = [] then some .empty
  else firstRefusal refusals (p.newcomers found)

/-- Nobody is enrolled if and only if there is no endpoint to enrol anybody for. -/
theorem enrol_eq_nil_iff {existing ms : List Member} {next : Nat}
    (hms : enrol refusals existing next (wanted configured found) = .ok ms) :
    ms = [] ↔ configured = [] ∧ found = [] := by
  have hendpoints : ms.map (·.endpoint) = (configured ++ found).eraseDups := by
    rw [← map_fst_wanted, ← map_endpoint_enrol hms, List.map_map]
    rfl
  rw [← List.map_eq_nil_iff (f := (·.endpoint)), hendpoints, ← List.append_eq_nil_iff]
  cases configured ++ found with
  | nil => simp
  | cons e rest => simp [List.eraseDups_cons]

namespace Enlists

/-- Members for the same endpoint have the same source, also in different pools. -/
theorem source_eq (hp : Enlists configured statics found p) (hq : Enlists configured statics taken q)
    {m m' : Member} (hm : m ∈ p.members) (hm' : m' ∈ q.members) (h : m'.endpoint = m.endpoint) :
    m'.source = m.source := by
  have hsource : m'.source = .configured ↔ m.source = .configured := by
    rw [hp.source_eq_configured hm, hq.source_eq_configured hm', h]
  cases hs : m.source with
  | configured => exact hsource.2 hs
  | found =>
    cases hs' : m'.source with
    | configured =>
      rw [hsource.1 hs'] at hs
      cases hs
    | found => rfl

/-- There is a member for a wanted endpoint if there is one for it with any source. -/
theorem hasMember_iff (h : Enlists configured statics found p) {e : Endpoint × Source}
    (he : e ∈ wanted configured taken) :
    hasMember p.members e = true ↔ e.1 ∈ p.members.map (·.endpoint) := by
  unfold hasMember
  constructor
  · intro hsome
    obtain ⟨m, hm, hfound⟩ := List.find?_isSome.1 hsome
    rw [decide_eq_true_eq] at hfound
    exact List.mem_map.2 ⟨m, hm, hfound.1⟩
  · intro hmem
    obtain ⟨m, hm, hend⟩ := List.mem_map.1 hmem
    have hwanted : e.2 = .configured ↔ e.1 ∈ configured := by
      rw [wanted_eq, List.mem_append, List.mem_map, List.mem_map] at he
      rcases he with ⟨d, hd, rfl⟩ | ⟨d, hd, rfl⟩
      · exact iff_of_true rfl (List.mem_eraseDups.1 hd)
      · exact iff_of_false nofun
          (of_decide_eq_true (List.mem_filter.1 (List.mem_eraseDups.1 hd)).2)
    have hsource : m.source = e.2 := by
      have hiff : m.source = .configured ↔ e.2 = .configured := by
        rw [h.source_eq_configured hm, hwanted, hend]
      cases hs : m.source <;> cases he2 : e.2 <;> simp_all
    exact List.find?_isSome.2 ⟨m, hm, by simp [hend, hsource]⟩

/-- The clients that enrolling needs are those of the newcomers. -/
theorem map_filter_wanted (h : Enlists configured statics found p) (taken : List Endpoint) :
    ((wanted p.configured taken).filter (!hasMember p.members ·)).map (·.1) = p.newcomers taken := by
  have hfilter : (wanted p.configured taken).filter (!hasMember p.members ·) =
      (wanted p.configured taken).filter (·.1 ∉ p.members.map (·.endpoint)) := by
    refine List.filter_congr fun e he => ?_
    rw [h.configured_eq] at he
    have hiff := h.hasMember_iff he
    by_cases hmem : e.1 ∈ p.members.map (·.endpoint)
    · rw [hiff.2 hmem]
      simp [hmem]
    · have hnone : hasMember p.members e = false := by
        rw [← Bool.not_eq_true]
        exact fun hsome => hmem (hiff.1 hsome)
      rw [hnone]
      simp [hmem]
  rw [hfilter, newcomers, ← map_fst_wanted, List.filter_map]
  rfl

end Enlists

/-! ## What a replacement makes of a pool -/

/-- What becomes of a pool that takes in a list of found endpoints. -/
structure Replaces (p : Pool) (found : List Endpoint) (now : Instant) (q : Pool) (changed : Bool) :
    Prop where
  /-- The members stand for the configured and the found endpoints. -/
  endpoints : q.members.map (·.endpoint) = (p.configured ++ found).eraseDups
  /-- A member whose endpoint stays is the same member with the same health. -/
  kept : ∀ m ∈ p.members, ∀ m' ∈ q.members, m'.endpoint = m.endpoint →
    m' = m ∧ q.health m' = p.health m
  /-- A member for another endpoint has a number that nobody has had, and a fresh health. -/
  fresh : ∀ m ∈ q.members, m.endpoint ∉ p.members.map (·.endpoint) →
    p.healths.length ≤ m.id ∧ q.health m = .new now
  changed_iff : changed = true ↔ q.members.map (·.endpoint) ≠ p.members.map (·.endpoint)
  /-- The same list once more changes nothing, also where no client can be created. -/
  again : ∀ (refusals : Refusals) (later : Instant),
    q.replaceFound refusals found later = .ok (q, false)

namespace Enlists

/-- A member that is enrolled for the endpoint of a member is this member. -/
theorem eq_of_endpoint (h : Enlists configured statics found p) {ms : List Member}
    (hms : enrol refusals p.members p.healths.length (wanted p.configured taken) = .ok ms)
    (hq : Enlists configured statics taken q) (hmembers : q.members = ms) {m m' : Member}
    (hm : m ∈ p.members) (hm' : m' ∈ ms) (hend : m'.endpoint = m.endpoint) : m' = m := by
  have hsource := h.source_eq hq hm (hmembers ▸ hm') hend
  have hfind := find?_member h.nodup_endpoint hm
  rcases mem_enrol hms m' hm' with hthere | ⟨hnone, -⟩
  · rw [hend, hsource, hfind] at hthere
    exact (Option.some.inj hthere).symm
  · rw [hend, hsource, hasMember, hfind] at hnone
    cases hnone

/-- A pool that enlists what it is to have stays as it is, and needs no client for that. -/
theorem replaceFound_again (h : Enlists configured statics found p) (refusals : Refusals)
    (now : Instant) : p.replaceFound refusals found now = .ok (p, false) := by
  have hsame : enrol refusals p.members p.healths.length (wanted p.configured found) =
      .ok p.members := by
    have hold : enrol refusals p.members p.healths.length
        (p.members.map (fun m => (m.endpoint, m.source)) ++ []) =
          (enrol refusals p.members p.healths.length []).map (p.members ++ ·) :=
      enrol_append (fun m hm => find?_member h.nodup_endpoint hm) []
    rw [List.append_nil, h.map_entry] at hold
    rw [h.configured_eq, hold, enrol]
    show Except.ok (p.members ++ []) = _
    rw [List.append_nil]
  have hne : p.members.isEmpty = false := by
    rw [Bool.eq_false_iff, ne_eq, List.isEmpty_iff]
    exact h.ne_nil
  simp [Pool.replaceFound, hsame, hne, bind, Except.bind, pure, Except.pure]

/-- A list is refused for a reason, and is taken in where there is none. -/
theorem replaceFound_cases (h : Enlists configured statics found p) (refusals : Refusals)
    (taken : List Endpoint) (now : Instant) :
    match p.replaceFound refusals taken now with
    | .error e => p.refusal? refusals taken = some e
    | .ok _ => p.refusal? refusals taken = none := by
  have hcases := enrol_cases refusals p.members p.healths.length (wanted p.configured taken)
  rw [h.map_filter_wanted] at hcases
  rcases hcases with ⟨e, he, hrefused⟩ | ⟨⟨ms, hms⟩, hnone⟩
  · have hsomebody : ¬ (p.configured = [] ∧ taken = []) := by
      rintro ⟨hc, ht⟩
      rw [hc, ht] at he
      cases he
    simp only [Pool.replaceFound, he, bind, Except.bind, refusal?, if_neg hsomebody]
    exact hrefused
  · simp only [Pool.replaceFound, hms, bind, Except.bind, refusal?, hnone]
    by_cases hnobody : p.configured = [] ∧ taken = []
    · have hnil := (enrol_eq_nil_iff hms).2 hnobody
      simp [hnil, hnobody]
      rfl
    · have hne : ms ≠ [] := fun hnil => hnobody ((enrol_eq_nil_iff hms).1 hnil)
      rw [if_neg (by simpa using hne), if_neg hnobody]
      by_cases hsame : ms = p.members
      · rw [if_pos hsame]
        rfl
      · rw [if_neg hsame]
        rfl

theorem replaces (h : Enlists configured statics found p)
    (hq : p.replaceFound refusals taken now = .ok (q, changed)) :
    Replaces p taken now q changed := by
  have henlists := h.replaceFound hq
  have hendpoints : q.members.map (·.endpoint) = (p.configured ++ taken).eraseDups := by
    rw [henlists.map_endpoint, h.configured_eq]
  have hhealth := (health_replaceFound hq).2
  cases hms : enrol refusals p.members p.healths.length (wanted p.configured taken) with
  | error e => simp [Pool.replaceFound, hms, bind, Except.bind] at hq
  | ok ms =>
    simp only [Pool.replaceFound, hms, bind, Except.bind] at hq
    split at hq
    · cases hq
    · split at hq
      · next hsame =>
        cases hq
        refine ⟨hendpoints, ?_, ?_, by simp, henlists.replaceFound_again⟩
        · intro m hm m' hm' hend
          have heq := List.inj_on_of_nodup_map h.nodup_endpoint hm' hm hend
          exact ⟨heq, by rw [heq]⟩
        · intro m hm hnew
          exact absurd (List.mem_map_of_mem hm) hnew
      · next hdiffers =>
        cases hq
        have hkept {m m' : Member} (hm : m ∈ p.members) (hm' : m' ∈ ms)
            (hend : m'.endpoint = m.endpoint) : m' = m :=
          h.eq_of_endpoint hms henlists rfl hm hm' hend
        refine ⟨hendpoints, ?_, ?_, ?_, henlists.replaceFound_again⟩
        · intro m hm m' hm' hend
          obtain rfl := hkept hm hm' hend
          exact ⟨rfl, hhealth m' (h.numbered.lt_length m' hm)⟩
        · intro m hm hnew
          rcases mem_enrol hms m hm with hthere | ⟨-, hle⟩
          · exact absurd (List.mem_map_of_mem (List.mem_of_find?_eq_some hthere)) hnew
          · refine ⟨hle, ?_⟩
            have hlt : m.id < (enrolled p.healths ms now).length := henlists.numbered.lt_length m hm
            show (enrolled p.healths ms now).getD m.id default = _
            rw [List.getD_eq_getElem?_getD, List.getElem?_eq_getElem hlt, Option.getD_some]
            simp only [enrolled]
            rw [List.getElem_append_right hle, List.getElem_replicate]
        · refine iff_of_true rfl ?_
          -- Lists of the same endpoints would be lists of the same members.
          intro hsame
          refine hdiffers (List.ext_getElem ?_ ?_)
          · simpa using congrArg List.length hsame
          · intro i hi hi'
            refine hkept (List.getElem_mem hi') (List.getElem_mem hi) ?_
            have hget := congrArg (·[i]?) hsame
            simpa [List.getElem?_eq_getElem hi, List.getElem?_eq_getElem hi'] using hget

end Enlists

/-- **Replacing the found replicas** is all or nothing.  A list is refused exactly where nobody
would be left or a client that is needed cannot be created, and then the pool is as it was.
Otherwise members whose endpoints stay are left alone, those for other endpoints start afresh, the
answer says whether the endpoints have changed, and the same list once more changes nothing. -/
theorem replaceFound_of_reachable (h : Reachable p) (refusals : Refusals) (found : List Endpoint)
    (now : Instant) :
    match p.replaceFound refusals found now with
    | .error e => p.refusal? refusals found = some e ∧ p.apply (.replaceFound refusals found now) = p
    | .ok (q, changed) => p.refusal? refusals found = none ∧ Replaces p found now q changed := by
  obtain ⟨configured, statics, before, henlists⟩ := h.enlists
  have hcases := henlists.replaceFound_cases refusals found now
  cases hq : p.replaceFound refusals found now with
  | error e =>
    rw [hq] at hcases
    exact ⟨hcases, by simp only [Pool.apply, hq]⟩
  | ok r =>
    rw [hq] at hcases
    exact ⟨hcases, henlists.replaces hq⟩

/-- The replica `c` has failed, and the lookup finds `d` behind it where `b` was.  Without a client
for `d` the pool stays; with one, `c` keeps its failure, and the same list changes nothing more. -/
theorem replaceFound_moved : ∃ p q, Reachable p ∧
    p.replaceFound (fun _ => some .cancelled) (ofHosts ["c", "d"]).configured .start =
      .error (.clientInit (ofHosts ["d"]).origin.text .cancelled) ∧
    p.apply (.replaceFound (fun _ => some .cancelled) (ofHosts ["c", "d"]).configured .start) = p ∧
    p.replaceFound (fun _ => none) (ofHosts ["c", "d"]).configured .start = .ok (q, true) ∧
    q.members.map (q.health · |>.failures) = [0, 1, 0] ∧
    q.replaceFound (fun _ => some .cancelled) (ofHosts ["c", "d"]).configured .start =
      .ok (q, false) := by
  obtain ⟨p, hp⟩ : ∃ p, connect (fun _ => none) (ofHosts ["a"]).configured (ofHosts ["a"]).origin
      (some (ofHosts ["b", "c"]).configured) default .start = .ok p := ⟨_, rfl⟩
  have hreachable : Reachable (p.apply (.record (ofHosts ["c"]).origin false .start .middle)) :=
    .acted (.built (.connect hp)) _
  have htaken := replaceFound_of_reachable hreachable (fun _ => none)
    (ofHosts ["c", "d"]).configured .start
  have hrefused := replaceFound_of_reachable hreachable (fun _ => some .cancelled)
    (ofHosts ["c", "d"]).configured .start
  cases hp
  exact ⟨_, _, hreachable, rfl, hrefused.2, rfl, rfl, htaken.2.again _ _⟩

end Pool
end ReplicatedConfig
