import Mathlib.Data.List.Nodup
import ReplicatedConfig.Pool

/-!
# Every pool numbers its members

A member's number is what tells it from the others: its health is kept under that number,
and an attempt at it is found by that number.  So everything that is said about calls and
about healths rests on two facts, which `Numbered` puts together: no two members have one
number, and every number has a health.

Building a pool numbers its members, and nothing that happens to a pool later undoes it.
Replacing the found replicas is the only operation that gives out numbers.  It looks old
members up by endpoint, and a wanted list names each endpoint once (`nodup_wanted`), so no
member is taken twice; the new ones get the numbers behind all that have ever been given.
-/

namespace ReplicatedConfig

/-- In a list without two items of one name, an item is found under its name. -/
theorem find?_of_nodup {β ι : Type} [DecidableEq ι] {name : β → ι} {xs : List β}
    (nodup : (xs.map name).Nodup) {x : β} (hx : x ∈ xs) :
    xs.find? (name · = name x) = some x := by
  induction xs with
  | nil => exact absurd hx List.not_mem_nil
  | cons y rest ih =>
    rw [List.map_cons, List.nodup_cons] at nodup
    rcases List.mem_cons.1 hx with rfl | hx
    · exact List.find?_cons_of_pos (decide_eq_true rfl)
    · have hne : name y ≠ name x := fun h => nodup.1 (h ▸ List.mem_map_of_mem hx)
      rw [List.find?_cons_of_neg (by simpa using hne)]
      exact ih nodup.2 hx

namespace Pool

/-- The members have different numbers, and each of them has a health. -/
structure Numbered (p : Pool) : Prop where
  nodup : (p.members.map (·.id)).Nodup
  lt_length : ∀ m ∈ p.members, m.id < p.healths.length

/-! ## Each endpoint is wanted once -/

theorem notMem_of_mem_firsts {seen : List Endpoint} {es : List (Endpoint × Source)}
    {e : Endpoint × Source} (h : e ∈ firsts seen es) : e.1 ∉ seen := by
  induction es generalizing seen with
  | nil => exact absurd h List.not_mem_nil
  | cons d rest ih =>
    rw [firsts] at h
    split at h
    · exact ih h
    · next hd =>
      rcases List.mem_cons.1 h with rfl | h
      · exact hd
      · exact fun he => ih h (List.mem_cons_of_mem _ he)

theorem nodup_firsts (seen : List Endpoint) (es : List (Endpoint × Source)) :
    ((firsts seen es).map (·.1)).Nodup := by
  induction es generalizing seen with
  | nil => exact List.nodup_nil
  | cons d rest ih =>
    rw [firsts]
    split
    · exact ih seen
    · rw [List.map_cons, List.nodup_cons]
      refine ⟨fun hd => ?_, ih _⟩
      obtain ⟨e, he, hed⟩ := List.mem_map.1 hd
      exact notMem_of_mem_firsts he (hed ▸ List.mem_cons_self)

theorem nodup_wanted (configured found : List Endpoint) :
    ((wanted configured found).map (·.1)).Nodup :=
  nodup_firsts _ _

/-! ## Enrolling gives out new numbers only -/

/-- What a mapped result comes from. -/
theorem exists_of_map_ok {ε α β : Type} {f : α → β} {x : Except ε α} {b : β}
    (h : x.map f = .ok b) : ∃ a, x = .ok a ∧ f a = b := by
  cases x with
  | error e => cases h
  | ok a => exact ⟨a, rfl, Except.ok.inj h⟩

section Enrol

variable {refusals : Refusals} {existing ms : List Member} {next : Nat}
  {es : List (Endpoint × Source)}

/-- The members stand for the wanted endpoints, in their order. -/
theorem map_endpoint_enrol (h : enrol refusals existing next es = .ok ms) :
    ms.map (fun m => (m.endpoint, m.source)) = es := by
  induction es generalizing next ms with
  | nil => cases h; rfl
  | cons e rest ih =>
    obtain ⟨endpoint, source⟩ := e
    rw [enrol] at h
    split at h
    · next m hm =>
      obtain ⟨ms', hms', rfl⟩ := exists_of_map_ok h
      have hfound := List.find?_some hm
      rw [decide_eq_true_eq] at hfound
      rw [List.map_cons, ih hms', hfound.1, hfound.2]
    · split at h
      · cases h
      · obtain ⟨ms', hms', rfl⟩ := exists_of_map_ok h
        rw [List.map_cons, ih hms']

/-- A member that was not there before has a new number. -/
theorem le_id_of_enrol (h : enrol refusals existing next es = .ok ms) :
    ∀ m ∈ ms, m ∈ existing ∨ next ≤ m.id := by
  induction es generalizing next ms with
  | nil => cases h; exact fun m hm => absurd hm List.not_mem_nil
  | cons e rest ih =>
    obtain ⟨endpoint, source⟩ := e
    rw [enrol] at h
    split at h
    · next m hm =>
      obtain ⟨ms', hms', rfl⟩ := exists_of_map_ok h
      exact List.forall_mem_cons.2 ⟨.inl (List.mem_of_find?_eq_some hm), ih hms'⟩
    · split at h
      · cases h
      · obtain ⟨ms', hms', rfl⟩ := exists_of_map_ok h
        refine List.forall_mem_cons.2 ⟨.inr (Nat.le_refl next), fun m hm => ?_⟩
        exact (ih hms' m hm).imp_right Nat.le_of_succ_le

/-- The new numbers run up from `next` without a gap.  `base` tells new numbers from old
ones. -/
theorem id_lt_of_enrol {base : Nat} (hold : ∀ m ∈ existing, m.id < base) (hbase : base ≤ next)
    (h : enrol refusals existing next es = .ok ms) :
    ∀ m ∈ ms, m.id < next + ms.countP (base ≤ ·.id) := by
  induction es generalizing next ms with
  | nil => cases h; exact fun m hm => absurd hm List.not_mem_nil
  | cons e rest ih =>
    obtain ⟨endpoint, source⟩ := e
    rw [enrol] at h
    split at h
    · next m hm =>
      obtain ⟨ms', hms', rfl⟩ := exists_of_map_ok h
      have hm : m.id < base := hold m (List.mem_of_find?_eq_some hm)
      have hcount : (m :: ms').countP (base ≤ ·.id) = ms'.countP (base ≤ ·.id) := by
        simp [hm]
      rw [hcount]
      exact List.forall_mem_cons.2 ⟨by omega, ih hbase hms'⟩
    · split at h
      · cases h
      · obtain ⟨ms', hms', rfl⟩ := exists_of_map_ok h
        have hcount (m : Member) (hm : base ≤ m.id) :
            (m :: ms').countP (base ≤ ·.id) = ms'.countP (base ≤ ·.id) + 1 := by
          simp [hm]
        rw [hcount _ hbase]
        refine List.forall_mem_cons.2 ⟨by show next < _; omega, fun m hm => ?_⟩
        have := ih (Nat.le_succ_of_le hbase) hms' m hm
        omega

/-- Enrolling takes no number twice. -/
theorem nodup_enrol (hids : (existing.map (·.id)).Nodup) (hold : ∀ m ∈ existing, m.id < next)
    (hes : (es.map (·.1)).Nodup) (h : enrol refusals existing next es = .ok ms) :
    (ms.map (·.id)).Nodup := by
  induction es generalizing next ms with
  | nil => cases h; exact List.nodup_nil
  | cons e rest ih =>
    obtain ⟨endpoint, source⟩ := e
    rw [List.map_cons, List.nodup_cons] at hes
    rw [enrol] at h
    split at h
    · next m hm =>
      obtain ⟨ms', hms', rfl⟩ := exists_of_map_ok h
      rw [List.map_cons, List.nodup_cons]
      refine ⟨fun hid => ?_, ih hold hes.2 hms'⟩
      obtain ⟨m', hm', hid⟩ := List.mem_map.1 hid
      have hmem := List.mem_of_find?_eq_some hm
      -- a later member with this number would be this member, and its endpoint would recur
      rcases le_id_of_enrol hms' m' hm' with hold' | hnew
      · obtain rfl := List.inj_on_of_nodup_map hids hold' hmem hid
        have hfound := List.find?_some hm
        rw [decide_eq_true_eq] at hfound
        refine hes.1 ?_
        rw [← map_endpoint_enrol hms', List.map_map]
        exact List.mem_map.2 ⟨m', hm', hfound.1⟩
      · have := hold m hmem
        omega
    · split at h
      · cases h
      · obtain ⟨ms', hms', rfl⟩ := exists_of_map_ok h
        rw [List.map_cons, List.nodup_cons]
        refine ⟨fun hid => ?_, ih (fun m hm => Nat.lt_succ_of_lt (hold m hm)) hes.2 hms'⟩
        obtain ⟨m', hm', hid⟩ := List.mem_map.1 hid
        replace hid : m'.id = next := hid
        rcases le_id_of_enrol hms' m' hm' with hold' | hnew
        · have := hold m' hold'
          omega
        · omega

end Enrol

/-- Enrolled members are numbered, whatever else the pool holds. -/
theorem numbered_enrolled {p : Pool} (hp : p.Numbered) {refusals : Refusals}
    {configured found : List Endpoint} {ms : List Member} {now : Instant}
    (h : enrol refusals p.members p.healths.length (wanted configured found) = .ok ms) :
    ({ p with members := ms, healths := enrolled p.healths ms now } : Pool).Numbered := by
  refine ⟨nodup_enrol hp.nodup hp.lt_length (nodup_wanted _ _) h, fun m hm => ?_⟩
  have := id_lt_of_enrol hp.lt_length (Nat.le_refl _) h m hm
  rwa [enrolled, List.length_append, List.length_replicate]

/-! ## Building and changing a pool -/

theorem numbered_build {refusals : Refusals} {configured found : List Endpoint} {origin : Endpoint}
    {policy : BackoffPolicy} {now : Instant} {p : Pool}
    (h : build refusals configured found origin policy now = .ok p) : p.Numbered := by
  cases hms : enrol refusals [] 0 (wanted configured found) with
  | error e => simp [build, hms, bind, Except.bind] at h
  | ok ms =>
    have hempty : (⟨[], [], configured, origin, policy, defaultLookupInterval, none⟩ : Pool).Numbered :=
      ⟨List.nodup_nil, fun m hm => absurd hm List.not_mem_nil⟩
    simp only [build, hms, bind, Except.bind] at h
    split at h
    · cases h
    · cases h
      exact numbered_enrolled hempty hms

theorem numbered_replaceFound {p q : Pool} (hp : p.Numbered) {refusals : Refusals}
    {found : List Endpoint} {now : Instant} {changed : Bool}
    (h : p.replaceFound refusals found now = .ok (q, changed)) : q.Numbered := by
  cases hms : enrol refusals p.members p.healths.length (wanted p.configured found) with
  | error e => simp [replaceFound, hms, bind, Except.bind] at h
  | ok ms =>
    simp only [replaceFound, hms, bind, Except.bind] at h
    split at h
    · cases h
    · split at h
      · cases h; exact hp
      · cases h; exact numbered_enrolled hp hms

theorem numbered_record {p : Pool} (hp : p.Numbered) (m : Member) (success : Bool) (now : Instant)
    (policy : BackoffPolicy) (draw : Draw) : (p.record m success now policy draw).Numbered :=
  ⟨hp.nodup, fun m' hm' => by simpa [record] using hp.lt_length m' hm'⟩

/-- A pool of configured hosts of which none has failed. -/
def ofHosts (hosts : List String) : Pool where
  members := hosts.zipIdx.map fun (host, id) =>
    ⟨id, ⟨⟨"https", "", .name host, none, "/", none, none⟩⟩, .configured⟩
  healths := hosts.map fun _ => .new .start
  configured := hosts.map fun host => ⟨⟨"https", "", .name host, none, "/", none, none⟩⟩
  origin := ⟨⟨"https", "", .name (hosts.headD ""), none, "/", none, none⟩⟩
  policy := default
  lookupInterval := defaultLookupInterval
  lastLookup := none

theorem numbered_ofHosts (hosts : List String) : (ofHosts hosts).Numbered := by
  refine ⟨?_, fun m hm => ?_⟩
  · simp only [ofHosts, List.map_map]
    have hids : ((fun m : Member => m.id) ∘ fun x : String × Nat =>
        (⟨x.2, ⟨⟨"https", "", .name x.1, none, "/", none, none⟩⟩, .configured⟩ : Member)) =
          Prod.snd := rfl
    rw [hids, List.zipIdx_map_snd]
    exact List.nodup_range'
  · obtain ⟨⟨host, id⟩, hx, rfl⟩ := List.mem_map.1 hm
    have hlt := List.snd_lt_of_mem_zipIdx hx
    simpa [ofHosts] using hlt

/-! ## What a call may try -/

/-- To pass the primary over where it may not be tried is to look at the members alone. -/
theorem filter_drop_passed (p : Pool) (now : Instant) :
    (p.members.drop (if p.triesPrimary now then 0 else 1)).filter (decide <| p.Available now ·) =
      p.members.filter (decide <| p.Available now ·) := by
  unfold triesPrimary primary?
  cases p.members with
  | nil => rw [List.drop_nil]
  | cons m rest =>
    rw [List.head?_cons, Option.any_some]
    by_cases hm : p.Available now m
    · rw [decide_eq_true hm, if_pos rfl, List.drop_zero]
    · rw [decide_eq_false hm, if_neg Bool.false_ne_true, List.drop_succ_cons, List.drop_zero,
        List.filter_cons_of_neg (by simpa using hm)]

/-- Of several members those are tried that may be, and the primary where none may. -/
theorem candidates_eq (p : Pool) (now : Instant) : p.candidates now =
    match p.members with
    | [m] => [m]
    | ms =>
      match ms.filter (decide <| p.Available now ·) with
      | [] => ms.take 1
      | available => available := by
  have hpassed := p.filter_drop_passed now
  unfold candidates
  rcases hms : p.members with _ | ⟨m, _ | ⟨m', rest⟩⟩
  · simp
  · rfl
  · rw [hms] at hpassed
    exact congrArg (fun available => match available with
      | [] => [m]
      | available => available) hpassed

/-- The candidates are members, in the order of the pool. -/
theorem candidates_sublist (p : Pool) (now : Instant) : (p.candidates now).Sublist p.members := by
  rw [candidates_eq]
  split
  · next h => rw [h]
  · split
    · exact List.take_sublist 1 _
    · exact List.filter_sublist

/-- Somebody may always be tried. -/
theorem candidates_ne_nil {p : Pool} (hp : p.members ≠ []) (now : Instant) :
    p.candidates now ≠ [] := by
  rw [candidates_eq]
  split
  · exact List.cons_ne_nil _ _
  · split
    · rwa [Ne, List.take_eq_nil_iff, not_or, and_iff_right Nat.one_ne_zero]
    · next h hne => exact hne

/-- No candidate is tried twice. -/
theorem Numbered.nodup_candidates {p : Pool} (hp : p.Numbered) (now : Instant) :
    ((p.candidates now).map (·.id)).Nodup :=
  hp.nodup.sublist ((p.candidates_sublist now).map _)

end Pool
end ReplicatedConfig
