import ReplicatedConfig.Proofs.History.Dates

/-!
# Changes and the moments they are of

A check asks about the token that is known when it starts, and what it finds is of a moment no
earlier than that start (`PointChange.Backed`).  This is all that is left of the check when its
change is merged, perhaps long after, and all that is needed: the change is merged only if the
token is still the known one.

`Check.renews_handle` and `Merge.renews_handle` walk through the two.  A merge renews the provider
one change after the other, and moves no moment back but that of a name without a token to which
it brings what the store no longer has (`Provider.Revives`).
-/

namespace ReplicatedConfig

variable {h : History} {clock clock' : Clock} {me other : TaskId} {back : Nat → Prop}
  {p q : Provider} {seen seen' : Sight} {cancelled : Bool}

/-! ## Changes -/

namespace PointChange

/-- What the change leads to. -/
def brings : PointChange → Option Setting
  | .upsert _ _ s => some s
  | .remove _ _ => none

/-- The change of a watched name was true at a moment, and it was found against a token that
the store had no later. -/
def Backed (h : History) (n : Nat) (p : Provider) (c : PointChange) : Prop :=
  ∃ i m, p.watchList.identities[c.place]? = some i ∧ m ≤ n ∧ h.Knew m i c.checked ∧
    (h m).find? i = c.brings ∧ c.checked ≠ c.brings.map (·.token)

variable {c : PointChange} {n n' : Nat}

theorem Backed.of_places (hc : c.Backed h n p) (hn : n ≤ n')
    (places : ∀ (place : Nat) i, p.watchList.identities[place]? = some i →
      q.watchList.identities[place]? = some i) : c.Backed h n' q :=
  have ⟨i, m, hplace, hm, hrest⟩ := hc
  ⟨i, m, places _ i hplace, Nat.le_trans hm hn, hrest⟩

theorem Backed.of_sameRules (hc : c.Backed h n p) (hq : p.SameRules q) : c.Backed h n q :=
  hc.of_places (Nat.le_refl n) fun _ _ hplace => by
    rw [hq.identities]
    exact hplace

end PointChange

/-! ## Calls of a dated provider -/

namespace Provider

variable {σ α : Type}

/-- A call that is opened and waits was opened now. -/
theorem opened_openCall (p : Provider) (hfits : clock.Fits p.calls) (k : Conversation σ α)
    (fresh : σ) (cancelled : Bool) : ∀ c, (p.openCall k fresh cancelled).2 = .waiting c →
      c.serial < (p.openCall k fresh cancelled).1.calls ∧ clock.opened c.serial = clock.now := by
  intro c hwaits
  have hfrom := p.from_openCall k fresh cancelled
  rw [hwaits] at hfrom
  exact ⟨(p.calls_openCall k fresh cancelled).2 c hwaits,
    hfits.fresh _ (Nat.le_of_eq hfrom.1.symm)⟩

/-- A call that goes on waiting is the one that it was. -/
theorem serial_drive (p : Provider) (k : Conversation σ α) {c : Call σ}
    (hserial : c.serial < p.calls) (i : Input) : ∀ c', (p.drive k c i).2 = .waiting c' →
      c'.serial < (p.drive k c i).1.calls ∧ c'.serial = c.serial := by
  intro c' hwaits
  have hfrom := p.from_drive k c i
  rw [hwaits] at hfrom
  rw [hfrom.1, p.calls_drive k c i]
  exact ⟨hserial, rfl⟩

end Provider

/-! ## Checks -/

namespace Check

/-- Where a check may stand: what it knows, the store had when its call was opened. -/
def Timely (h : History) (clock : Clock) (p : Provider) : Check → Prop
  | .checking place known call => ∃ i, p.watchList.identities[place]? = some i ∧
    h.Knew (clock.opened call.serial) i known ∧ call.serial < p.calls ∧
    call.Every fun _ x => x = (i, known)
  | .fetching place known call => ∃ i, p.watchList.identities[place]? = some i ∧
    h.Knew (clock.opened call.serial) i known ∧ call.serial < p.calls ∧
    call.Every fun _ j => j = i
  | .finished (.ok (.changed c)) => c.Backed h clock.now p
  | _ => True

theorem Timely.of_places {c : Check} (hc : c.Timely h clock p) (later : clock.Later clock' p.calls)
    (calls : p.calls ≤ q.calls)
    (places : ∀ (place : Nat) i, p.watchList.identities[place]? = some i →
      q.watchList.identities[place]? = some i) : c.Timely h clock' q := by
  cases c with
  | ready place => trivial
  | checking place known call =>
    obtain ⟨i, hplace, hknew, hserial, hcall⟩ := hc
    rw [← later.opened _ hserial] at hknew
    exact ⟨i, places _ _ hplace, hknew, Nat.lt_of_lt_of_le hserial calls, hcall⟩
  | fetching place known call =>
    obtain ⟨i, hplace, hknew, hserial, hcall⟩ := hc
    rw [← later.opened _ hserial] at hknew
    exact ⟨i, places _ _ hplace, hknew, Nat.lt_of_lt_of_le hserial calls, hcall⟩
  | finished result =>
    cases result with
    | error e => trivial
    | ok f =>
      cases f with
      | changed c => exact PointChange.Backed.of_places hc later.now places
      | skipped => trivial
      | unchanged => trivial
      | reloadAll => trivial

theorem Timely.of_renews {c : Check} (hc : c.Timely h clock p)
    (hq : p.Renews h clock.now me back seen q seen') : c.Timely h clock q :=
  hc.of_places (.refl clock) hq.calls fun place i hplace => by
    rw [hq.rules.identities]
    exact hplace

/-- A step of a check changes nothing that is loaded, and leads to where a check may stand. -/
def Renews (h : History) (clock : Clock) (me : TaskId) (back : Nat → Prop) (seen : Sight)
    (p : Provider) (x : Provider × Check) : Prop :=
  p.Renews h clock.now me back seen x.1 seen ∧ x.2.Timely h clock x.1

theorem Renews.of_renews {x : Provider × Check} (hq : p.Renews h clock.now me back seen q seen)
    (hx : Renews h clock me back seen q x) : Renews h clock me back seen p x :=
  ⟨hq.trans hx.1, hx.2⟩

section Steps

variable {a place : Nat} {i : Identity} {known : Option Token}

theorem renews_finish (hp : p.Dated h clock.now seen) {result : Except ProviderError Finding}
    (hresult : ∀ c, result = .ok (.changed c) → c.Backed h clock.now p) :
    Renews h clock me back seen p (finish p place result) := by
  have hchecked := p.checked_letGo place
  refine ⟨hp.checked hchecked (Nat.le_refl _), ?_⟩
  cases result with
  | error e => trivial
  | ok f =>
    cases f with
    | changed c => exact (hresult c rfl).of_sameRules hchecked.sameRules
    | skipped => trivial
    | unchanged => trivial
    | reloadAll => trivial

/-- What is read says how the name changed, if it did. -/
theorem backed_of_findingOf {o : Option Setting} (hknew : h.Knew a i known)
    (hplace : p.watchList.identities[place]? = some i) (hhad : h.Had a clock.now i o) :
    ∀ c, findingOf place known o = .changed c → c.Backed h clock.now p := by
  obtain ⟨m, ham, hm, hfind⟩ := hhad
  intro c hc
  cases o with
  | none =>
    simp only [findingOf] at hc
    split at hc
    · next hsome =>
      cases hc
      exact ⟨i, m, hplace, hm, hknew.later ham, hfind, Option.isSome_iff_ne_none.1 hsome⟩
    · cases hc
  | some s =>
    simp only [findingOf] at hc
    split at hc
    · cases hc
    · next hne =>
      cases hc
      exact ⟨i, m, hplace, hm, hknew.later ham, hfind, hne⟩

theorem renews_fetched (hp : p.Dated h clock.now seen)
    (hplace : p.watchList.identities[place]? = some i) (hknew : h.Knew a i known)
    {progress : Progress Identity (Option Setting)}
    (hevery : progress.Every (fun _ j => j = i)
      fun r => ∀ o, Failover.settingOf r = .ok o → (h.Says a clock.now).Reads i o)
    (hopened : ∀ c, progress = .waiting c → c.serial < p.calls ∧ a ≤ clock.opened c.serial) :
    Renews h clock me back seen p (fetched p place known progress) := by
  cases progress with
  | waiting call =>
    obtain ⟨hserial, ha⟩ := hopened call rfl
    exact ⟨hp.refl, i, hplace, hknew.later ha, hserial, hevery⟩
  | returned r =>
    rw [fetched]
    cases hr : Failover.settingOf r with
    | error e => exact renews_finish hp fun _ hc => by cases hc
    | ok o =>
      refine renews_finish hp fun c hc => ?_
      exact backed_of_findingOf hknew hplace (History.had_of_reads (hevery o hr)) c
        (Except.ok.inj hc)

theorem renews_judged (hp : p.Dated h clock.now seen) (hfits : clock.Fits p.calls)
    (hplace : p.watchList.identities[place]? = some i) (hknew : h.Knew a i known)
    (ha : a ≤ clock.now) {v : Verdict} {w : Watch} (hname : w.identity = i)
    (hverdict : (h.Says a clock.now).Judges i known v) :
    Renews h clock me back seen p (judged cancelled p place w known v) := by
  cases v with
  | unchanged => exact renews_finish hp fun _ hc => by cases hc
  | missing =>
    refine renews_finish hp fun c hc => ?_
    obtain ⟨m, ham, hm, hfind⟩ := History.had_of_missing hverdict
    split at hc
    · cases hc
    · next hsome =>
      split at hc
      · cases hc
      · cases hc
        refine ⟨i, m, hplace, hm, hknew.later ham, hfind, fun hnone => hsome ?_⟩
        exact Option.isNone_iff_eq_none.2 hnone
  | modified =>
    rw [judged]
    split
    · exact renews_finish hp fun _ hc => by cases hc
    · have hcalled := p.called_openCall .fetch w.identity cancelled
      have hcalls := (p.calls_openCall .fetch w.identity cancelled).1
      have hevery := p.every_openFetch (h.Says clock.now clock.now) w.identity cancelled
      have hopened := p.opened_openCall hfits .fetch w.identity cancelled
      rw [hname] at hcalled hcalls hevery hopened ⊢
      generalize p.openCall .fetch i cancelled = x at hcalled hcalls hevery hopened
      obtain ⟨q, progress⟩ := x
      have hq : p.Renews h clock.now me back seen _ seen := hp.called hcalled hcalls
      rw [← hcalled.watchList] at hplace
      refine .of_renews hq (renews_fetched hq.dated hplace (hknew.later ha) hevery fun c hc => ?_)
      obtain ⟨hserial, hnow⟩ := hopened c hc
      exact ⟨hserial, Nat.le_of_eq hnow.symm⟩

theorem renews_checked (hp : p.Dated h clock.now seen) (hfits : clock.Fits p.calls)
    (hplace : p.watchList.identities[place]? = some i) (hknew : h.Knew a i known)
    (ha : a ≤ clock.now) {progress : Progress (Identity × Option Token) Verdict}
    (hevery : progress.Every (fun _ x => x = (i, known))
      fun r => ∀ v, Failover.verdictOf r = .ok v → (h.Says a clock.now).Judges i known v)
    (hopened : ∀ c, progress = .waiting c → c.serial < p.calls ∧ a ≤ clock.opened c.serial) :
    Renews h clock me back seen p (checked cancelled p place known progress) := by
  cases progress with
  | waiting call =>
    obtain ⟨hserial, ha⟩ := hopened call rfl
    exact ⟨hp.refl, i, hplace, hknew.later ha, hserial, hevery⟩
  | returned r =>
    rw [checked]
    have hwatch := hplace
    rw [WatchList.getElem?_identities] at hwatch
    obtain ⟨w, hw, hname⟩ := Option.map_eq_some_iff.1 hwatch
    cases hv : Failover.verdictOf r with
    | error e => exact renews_finish hp fun _ hc => by cases hc
    | ok v =>
      simp only [hw]
      exact renews_judged hp hfits hplace hknew ha hname (hevery v hv)

/-- A check starts with the token that is known, and which is of the past. -/
theorem renews_start (hp : p.Dated h clock.now seen) (hfits : clock.Fits p.calls) :
    Renews h clock me back seen p (start cancelled p place) := by
  unfold start
  split
  · next watchList w hbegin hw =>
    have hplace : p.watchList.identities[place]? = some w.identity := by
      rw [WatchList.getElem?_identities, hw, Option.map_some]
    have hknew := (hp.knew hplace).later (hp.past w.identity)
    rw [Provider.tokenAt, hw, Option.bind_some] at hknew
    have hclaimed := Provider.checked_begin hbegin
    have hclaim : p.Renews h clock.now me back seen _ seen := hp.checked hclaimed (Nat.le_refl _)
    have hcalled := { p with watchList }.called_openCall .check (w.identity, w.token) cancelled
    have hcalls := ({ p with watchList }.calls_openCall .check (w.identity, w.token) cancelled).1
    have hevery := { p with watchList }.every_openCheck (h.Says clock.now clock.now) w.identity
      w.token cancelled
    have hopened :=
      { p with watchList }.opened_openCall hfits .check (w.identity, w.token) cancelled
    generalize { p with watchList }.openCall .check (w.identity, w.token) cancelled = x
      at hcalled hcalls hevery hopened
    obtain ⟨q, progress⟩ := x
    have hq := hclaim.trans (hclaim.dated.called hcalled hcalls)
    rw [← hq.rules.identities] at hplace
    refine .of_renews hq (renews_checked hq.dated (hfits.of_le hq.calls) hplace hknew
      (Nat.le_refl _) hevery fun c hc => ?_)
    obtain ⟨hserial, hnow⟩ := hopened c hc
    exact ⟨hserial, Nat.le_of_eq hnow.symm⟩
  · exact ⟨hp.refl, trivial⟩

end Steps

/-- **A step of a check**, whatever reaches it. -/
theorem renews_handle (hp : p.Dated h clock.now seen) (hfits : clock.Fits p.calls) {c : Check}
    (hc : c.Timely h clock p) {i : Input} (hadmits : clock.Admits h c.waits i) :
    Renews h clock me back seen p (c.handle cancelled p i) := by
  have hstay : Renews h clock me back seen p (p, c) := ⟨hp.refl, hc⟩
  cases c with
  | ready place =>
    cases i with
    | resumed => exact renews_start hp hfits
    | answered ticket reply => exact hstay
    | fallback serial => exact hstay
    | cancelled => exact hstay
    | woke => exact hstay
  | checking place known call =>
    obtain ⟨name, hplace, hknew, hserial, hcall⟩ := hc
    have hcalled := p.called_drive .check call i
    have hcalls := Nat.le_of_eq (p.calls_drive .check call i).symm
    have hevery := p.every_drive (Conversation.keeps_check _ name known) hcall hadmits.admitted
    have hq : p.Renews h clock.now me back seen _ seen := hp.called hcalled hcalls
    rw [← hq.rules.identities] at hplace
    refine .of_renews hq (renews_checked hq.dated (hfits.of_le hcalls) hplace hknew (hfits.past _)
      hevery fun c hc => ?_)
    obtain ⟨hserial', hsame⟩ := p.serial_drive .check hserial i c hc
    exact ⟨hserial', Nat.le_of_eq (congrArg clock.opened hsame.symm)⟩
  | fetching place known call =>
    obtain ⟨name, hplace, hknew, hserial, hcall⟩ := hc
    have hcalled := p.called_drive .fetch call i
    have hcalls := Nat.le_of_eq (p.calls_drive .fetch call i).symm
    have hevery := p.every_drive (Conversation.keeps_fetch _ name) hcall hadmits.admitted
    have hq : p.Renews h clock.now me back seen _ seen := hp.called hcalled hcalls
    rw [← hq.rules.identities] at hplace
    refine .of_renews hq (renews_fetched hq.dated hplace hknew hevery fun c hc => ?_)
    obtain ⟨hserial', hsame⟩ := p.serial_drive .fetch hserial i c hc
    exact ⟨hserial', Nat.le_of_eq (congrArg clock.opened hsame.symm)⟩
  | finished result => exact hstay

end Check

/-! ## Merges -/

/-- The setting comes to a name without a token, and the store has not had it since what is
loaded. -/
def Provider.Revives (h : History) (n : Nat) (seen : Sight) (p : Provider) (place : Nat)
    (s : Setting) : Prop :=
  p.tokenAt place = none ∧ ¬ h.Had (seen s.identity) n s.identity (some s)

namespace Merge

/-- Where a merge may stand: behind its check, a change is as true as it was. -/
def Timely (h : History) (clock : Clock) (me : TaskId) (p : Provider) : Merge → Prop
  | .waiting changes _ => ∀ c ∈ changes, c.Backed h clock.now p
  | .adapting place s rest _ _ => p.lock.holder = some me ∧
    (PointChange.upsert place (p.tokenAt place) s).Backed h clock.now p ∧
    ∀ c ∈ rest, c.Backed h clock.now p

/-- Where the next step of a merge may lead back. -/
def Back (h : History) (n : Nat) (seen : Sight) (p : Provider) : Merge → Nat → Prop
  | .waiting .., _ => False
  | .adapting place s .., place' => place = place' ∧ p.Revives h n seen place s

/-- A step of a merge renews the provider, and leads to where a merge may stand. -/
def Renews (h : History) (clock : Clock) (me : TaskId) (back : Nat → Prop) (seen : Sight)
    (p : Provider) : Step → Prop
  | (q, .inl m) => ∃ seen', p.Renews h clock.now me back seen q seen' ∧ m.Timely h clock me q
  | (q, .inr _) => ∃ seen', p.Renews h clock.now me back seen q seen'

theorem Renews.of_renews {x : Step} (hq : p.Renews h clock.now me back seen q seen')
    (hx : Renews h clock me back seen' q x) : Renews h clock me back seen p x := by
  obtain ⟨r, m | result⟩ := x
  · obtain ⟨seen'', hr, hm⟩ := hx
    exact ⟨seen'', hq.trans hr, hm⟩
  · obtain ⟨seen'', hr⟩ := hx
    exact ⟨seen'', hq.trans hr⟩

section Steps

variable {merged : Nat} {failures : List ProviderError} {changes : List PointChange}

theorem renews_finish (hp : p.Dated h clock.now seen) :
    Renews h clock me back seen p (finish me p merged failures) := by
  unfold finish
  split
  · exact ⟨seen, hp.release⟩
  · have hpublish : p.Renews h clock.now me back seen _ seen := hp.publish
    exact ⟨seen, hpublish.trans hpublish.dated.release⟩

/-- Taking a setting away moves its name forward: it has had the token that is known. -/
theorem renews_advance (hp : p.Dated h clock.now seen) (hheld : p.lock.holder = some me)
    (hchanges : ∀ c ∈ changes, c.Backed h clock.now p) :
    Renews h clock me back seen p (advance me p merged failures changes) := by
  -- The induction is on the changes, up to the first one that needs an adapter.
  induction changes generalizing p seen merged with
  | nil => exact renews_finish hp
  | cons change rest ih =>
    have hrest : ∀ c ∈ rest, c.Backed h clock.now p := fun c hc =>
      hchanges c (List.mem_cons_of_mem _ hc)
    have hbacked := hchanges change List.mem_cons_self
    have hstale : Renews h clock me back seen p (advance me p merged failures rest) :=
      ih hp hheld hrest
    cases change with
    | upsert place checked s =>
      rw [advance]
      split
      · next hcurrent =>
        have htoken : p.tokenAt place = checked := hcurrent
        rw [← htoken] at hbacked
        exact ⟨seen, hp.refl, hheld, hbacked, hrest⟩
      · exact hstale
    | remove place checked =>
      rw [advance]
      split
      · next hcurrent =>
        have htoken : p.tokenAt place = checked := hcurrent
        obtain ⟨i, m, hplace, hm, hknew, hfind, hchange⟩ := hbacked
        simp only [PointChange.place, PointChange.checked, PointChange.brings, ← htoken]
          at hplace hknew hfind hchange
        have hwatch := hplace
        rw [← (p.sameRules_setToken place none).identities, WatchList.getElem?_identities] at hwatch
        obtain ⟨w, hw, rfl⟩ := Option.map_eq_some_iff.1 hwatch
        simp only [hw]
        split
        · have hforward (steady : h.Steady) : seen w.identity ≤ m ∨ back place :=
            .inl (hp.seen_le steady hplace hknew hchange (by rw [hfind]; exact hchange))
          obtain ⟨seen', hq⟩ := hp.withoutSetting hheld hplace hm hfind hforward
          exact .of_renews hq (ih hq.dated hheld fun c hc => (hrest c hc).of_sameRules hq.rules)
        · obtain ⟨seen', hq⟩ := hp.setToken_none hheld hplace
          exact .of_renews hq (ih hq.dated hheld fun c hc => (hrest c hc).of_sameRules hq.rules)
      · exact hstale

/-- Bringing a setting moves its name forward, if a token is known. -/
theorem renews_adapted (hp : p.Dated h clock.now seen) {place : Nat} {s : Setting}
    {rest : List PointChange}
    (hm : (Merge.adapting place s rest merged failures).Timely h clock me p)
    (hback : p.Revives h clock.now seen place s → back place) :
    Renews h clock me back seen p (adapted me p place s rest merged failures) := by
  obtain ⟨hheld, ⟨i, m, hplace, hm, hknew, hfind, hchange⟩, hrest⟩ := hm
  simp only [PointChange.place, PointChange.checked, PointChange.brings]
    at hplace hknew hfind hchange
  obtain rfl := (h m).identity_of_find? hfind
  unfold adapted
  cases hpairs : p.pipeline.process s with
  | error e => exact renews_advance hp hheld hrest
  | ok pairs =>
    -- The moment may be any at which the store had the setting: the one of the check only if there
    -- is none behind what is loaded.
    obtain ⟨k, hk, hfind', hforward⟩ : ∃ k ≤ clock.now, (h k).find? s.identity = some s ∧
        (h.Steady → seen s.identity ≤ k ∨ back place) := by
      by_cases hhad : h.Had (seen s.identity) clock.now s.identity (some s)
      · obtain ⟨k, hseen, hk, hfind⟩ := hhad
        exact ⟨k, hk, hfind, fun _ => .inl hseen⟩
      · refine ⟨m, hm, hfind, fun steady => .inr (hback ⟨?_, hhad⟩)⟩
        by_contra hsome
        have hseen := hp.seen_le steady hplace hknew hsome (by rw [hfind]; exact hchange)
        exact hhad ⟨m, hseen, hm, hfind⟩
    obtain ⟨seen', hq⟩ := hp.withEntry (e := ⟨s, pairs⟩) hheld hplace hk hfind' hforward
    refine .of_renews hq (renews_advance hq.dated hheld fun c hc => ?_)
    exact (hrest c hc).of_sameRules hq.rules

theorem renews_enter (hp : p.Dated h clock.now seen)
    (hchanges : ∀ c ∈ changes, c.Backed h clock.now p) :
    Renews h clock me back seen p (enter me p changes failures) := by
  unfold enter
  split
  · next hheld => exact renews_advance hp (eq_of_beq hheld) hchanges
  · exact ⟨seen, hp.refl, hchanges⟩

theorem renews_begin (hp : p.Dated h clock.now seen)
    (hchanges : ∀ c ∈ changes, c.Backed h clock.now p) :
    Renews h clock me back seen p (begin me p changes failures) := by
  have hq : p.Renews h clock.now me back seen _ seen := hp.acquire
  exact .of_renews hq (renews_enter hq.dated fun c hc => (hchanges c hc).of_sameRules hq.rules)

end Steps

/-- **A step of a merge**, whatever reaches it. -/
theorem renews_handle (hp : p.Dated h clock.now seen) {m : Merge} (hm : m.Timely h clock me p)
    (hback : ∀ place, m.Back h clock.now seen p place → back place) (i : Input) :
    Renews h clock me back seen p (m.handle me p i) := by
  have hstay : Renews h clock me back seen p (p, .inl m) := ⟨seen, hp.refl, hm⟩
  cases m with
  | waiting changes failures =>
    cases i with
    | resumed => exact renews_enter hp hm
    | answered ticket reply => exact hstay
    | fallback serial => exact hstay
    | cancelled => exact hstay
    | woke => exact hstay
  | adapting place s rest merged failures =>
    cases i with
    | resumed => exact renews_adapted hp hm fun hrevives => hback place ⟨rfl, hrevives⟩
    | answered ticket reply => exact hstay
    | fallback serial => exact hstay
    | cancelled => exact hstay
    | woke => exact hstay

theorem Timely.of_leaves {m : Merge} (hm : m.Timely h clock me p)
    (later : clock.Later clock' p.calls) (hq : p.Leaves me seen q seen') : m.Timely h clock' me q := by
  cases m with
  | waiting changes failures => exact fun c hc => (hm c hc).of_places later.now hq.places
  | adapting place s rest merged failures =>
    obtain ⟨hheld, hchange, hrest⟩ := hm
    have hholding := hq.held hheld
    refine ⟨hholding.holder, ?_, fun c hc => (hrest c hc).of_places later.now hq.places⟩
    rw [hholding.tokens]
    exact hchange.of_places later.now hq.places

/-- A step of another operation leads no merge back. -/
theorem Back.of_renews {n n' : Nat} {m : Merge} (hm : m.Timely h clock me p)
    (hq : p.Renews h n other back seen q seen') (hne : me ≠ other) {place : Nat}
    (hback : m.Back h n' seen' q place) : m.Back h n' seen p place := by
  cases m with
  | waiting changes failures => exact hback
  | adapting place s rest merged failures =>
    have hholding := hq.yields me hne hm.1
    obtain ⟨hplace, hnone, hrevives⟩ := hback
    rw [hholding.tokens] at hnone
    rw [hholding.seen] at hrevives
    exact ⟨hplace, hnone, hrevives⟩

end Merge
end ReplicatedConfig
