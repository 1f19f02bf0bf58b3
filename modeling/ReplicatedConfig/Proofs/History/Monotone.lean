import ReplicatedConfig.Proofs.Coherence.Interleaving
import ReplicatedConfig.Proofs.History.Jobs
import ReplicatedConfig.Proofs.Tasks

/-!
# Watched keys and the past

A run is a list of events, each at a moment, and the store changes from moment to moment.  If
answers are true, then at every moment there is a `Sight` by which the provider is dated, and
every operation stands where the moments of its answers let it stand (`Engine.Dated`).  An event
leads to the next sight, and for a watched name that is later than the one before, unless the
operation that takes its step leads back (`Engine.Dated.handle`).

## Where a name goes back

There are two ways back.  A merge brings a setting to a name without a token.  The token of a name
tells a merge whether the name has changed since its check, but all absences look the same: a name
that was absent, came, and went again has no token, and a change that was found in its first
absence is taken for current in its second one (`Provider.Revives`).  And a reload drops what is
loaded under a name that came to be watched behind its listing, if its listing has missed it
(`Provider.Misses`).  Either way the store has not had under the name what is loaded then, at any
moment since that of what was loaded before.

`never_back` says that these are all.  `never_back_revived` is a run in which a merge brings a
setting back that the store has deleted, and that another pass has taken away before.
-/

namespace ReplicatedConfig

variable {h : History} {clock : Clock} {n : Nat} {p q : Provider} {seen seen' : Sight}

/-! ## Watching a name -/

/-- Watching a name keeps what is loaded, and a name that is new has no token. -/
theorem Provider.Dated.watch (hp : p.Dated h n seen) {r : WatchRequest} (hq : p.watch r = .ok q) :
    q.Dated h n seen ∧ q.calls = p.calls ∧ ∀ me, p.Leaves me seen q seen := by
  obtain ⟨l, place, hl, rfl⟩ := Provider.exists_register_of_watch hq
  have hplaces (j : Nat) (i : Identity) :
      p.watchList.identities[j]? = some i → l.identities[j]? = some i :=
    WatchList.getElem?_identities_register hl
  have htokens (j : Nat) : (l.get? j).bind (·.token) = p.tokenAt j := WatchList.token_register hl j
  refine ⟨⟨WatchList.nodup_register hp.watched hl, hp.entries, fun j i t hplace ht => ?_, hp.past,
    hp.shows⟩, rfl, fun me => ⟨rfl, hplaces, Nat.le_refl _, fun hheld => ?_⟩⟩
  · have hold : p.tokenAt j = some t := (htokens j).symm.trans ht
    obtain ⟨w, hw, -⟩ := Option.bind_eq_some_iff.1 hold
    have hthere : p.watchList.identities[j]? = some w.identity := by
      rw [WatchList.getElem?_identities, hw, Option.map_some]
    cases hplace.symm.trans (hplaces j _ hthere)
    exact hp.tokens j _ t hthere hold
  · exact ⟨hheld, rfl, htokens, rfl⟩

namespace Engine

/-! ## Operations side by side -/

/-- The provider is dated, and every operation stands where it may stand. -/
structure Dated (h : History) (clock : Clock) (seen : Sight) (p : Provider) (tasks : List Task) :
    Prop where
  provider : p.Dated h clock.now seen
  fits : clock.Fits p.calls
  distinct : (tasks.map (·.id)).Nodup
  timely : ∀ t ∈ tasks, t.job.Timely h clock t.id p seen

/-- Where the next step of one of the operations may lead back. -/
def Back (h : History) (n : Nat) (seen : Sight) (p : Provider) (tasks : List Task) (place : Nat) :
    Prop :=
  ∃ t ∈ tasks, t.job.Back h n seen p place

/-- Every watched name goes forward, but where the next step of an operation leads back. -/
def Forward (h : History) (n : Nat) (p : Provider) (tasks : List Task) (seen seen' : Sight) :
    Prop :=
  h.Steady → ∀ place i, p.watchList.identities[place]? = some i →
    seen i ≤ seen' i ∨ Back h n seen p tasks place

/-- What an event makes of a dated engine: it is dated by another sight, and names go forward. -/
def Renews (h : History) (clock : Clock) (seen : Sight) (p : Provider) (tasks : List Task)
    (q : Provider) (tasks' : List Task) : Prop :=
  ∃ seen', Engine.Dated h clock seen' q tasks' ∧ Forward h clock.now p tasks seen seen'

theorem Forward.refl (tasks : List Task) : Forward h n p tasks seen seen :=
  fun _ _ _ _ => .inl (Nat.le_refl _)

namespace Dated

variable {tasks before after : List Task} {t : Task} {id : TaskId} {cancelled : Bool}
  {x : Provider × Job} {e : Engine}

/-- Nothing that is loaded has changed. -/
theorem of_leaves (hp : Engine.Dated h clock seen p tasks) (hq : q.Dated h clock.now seen)
    (calls : p.calls ≤ q.calls) (leaves : ∀ t ∈ tasks, p.Leaves t.id seen q seen) :
    Engine.Dated h clock seen q tasks where
  provider := hq
  fits := hp.fits.of_le calls
  distinct := hp.distinct
  timely t ht := (hp.timely t ht).of_leaves (.refl clock) (leaves t ht)

/-- Nothing happens. -/
theorem refl (hp : Engine.Dated h clock seen p tasks) : Renews h clock seen p tasks p tasks :=
  ⟨seen, hp, .refl tasks⟩

/-- Neither what is loaded nor the lock is touched. -/
theorem quiet (hp : Engine.Dated h clock seen p tasks) (rules : p.SameRules q)
    (calls : q.calls = p.calls) (materialized : q.materialized = p.materialized)
    (tokens : ∀ place, q.tokenAt place = p.tokenAt place) (lock : q.lock = p.lock) :
    Renews h clock seen p tasks q tasks := by
  have hq (me : TaskId) : p.Renews h clock.now me (fun _ => False) seen q seen :=
    hp.provider.renews rules (Nat.le_of_eq calls.symm) materialized tokens fun _ _ hheld =>
      (congrArg Lock.holder lock).trans hheld
  refine ⟨seen, hp.of_leaves (hq 0).dated (Nat.le_of_eq calls.symm) fun t _ => ?_, .refl tasks⟩
  exact (hq (t.id + 1)).leaves (Nat.ne_of_lt (Nat.lt_succ_self _))

/-- Time goes by. -/
theorem tick (hp : Engine.Dated h clock seen p tasks) (hn : clock.now ≤ n) :
    Engine.Dated h (clock.tick n p.calls) seen p tasks where
  provider := hp.provider.later hn
  fits := hp.fits.tick hn
  distinct := hp.distinct
  timely t ht := (hp.timely t ht).of_leaves (Clock.later_tick hn)
    ⟨rfl, fun _ _ => id, Nat.le_refl _, Provider.Holding.refl⟩

/-- One of the operations has taken a step. -/
theorem step (hp : Engine.Dated h clock seen p (before ++ t :: after))
    (hx : p.Renews h clock.now t.id (t.job.Back h clock.now seen p) seen x.1 seen')
    (hjob : x.2.Timely h clock t.id x.1 seen') :
    Engine.Dated h clock seen' x.1 (before ++ { t with job := x.2 } :: after) where
  provider := hx.dated
  fits := hp.fits.of_le hx.calls
  distinct := by
    have hdistinct := hp.distinct
    rw [List.map_append, List.map_cons] at hdistinct ⊢
    exact hdistinct
  timely u hu := by
    rcases List.mem_append.1 hu with hu | hu
    · have hne := ne_of_split hp.distinct u (List.mem_append_left _ hu)
      exact (hp.timely u (List.mem_append_left _ hu)).of_leaves (.refl clock) (hx.leaves hne)
    · rcases List.mem_cons.1 hu with rfl | hu
      · exact hjob
      · have hne := ne_of_split hp.distinct u (List.mem_append_right _ hu)
        exact (hp.timely u (List.mem_append_right _ (List.mem_cons_of_mem _ hu))).of_leaves
          (.refl clock) (hx.leaves hne)

/-- One of the operations takes its step, picked by its number. -/
theorem stepTask (he : Engine.Dated h clock seen e.provider e.tasks) (id : TaskId)
    {step : Task → Provider → Provider × Job}
    (hstep : ∀ t ∈ e.tasks, Task.Renews h clock t.id (t.job.Back h clock.now seen e.provider) seen
      e.provider (step t e.provider)) :
    Renews h clock seen e.provider e.tasks (e.stepTask id step).provider
      (e.stepTask id step).tasks := by
  cases hfind : e.task? id with
  | none =>
    unfold Engine.stepTask
    rw [hfind]
    exact he.refl
  | some t =>
    obtain ⟨-, before, after, htasks⟩ := exists_split hfind
    have ht : t ∈ e.tasks := List.mem_of_find?_eq_some hfind
    rw [stepTask_of_split he.distinct hfind htasks step]
    obtain ⟨seen', hx, hjob⟩ := hstep t ht
    rw [htasks] at he
    refine ⟨seen', he.step hx hjob, fun steady place i hplace => ?_⟩
    exact (hx.forward steady place i hplace).imp_right fun hback => ⟨t, ht, hback⟩

/-- An input that any operation may take reaches one of them. -/
theorem resume (he : Engine.Dated h clock seen e.provider e.tasks) (id : TaskId) {i : Input}
    (hadmits : ∀ waits, clock.Admits h waits i) :
    Renews h clock seen e.provider e.tasks (e.stepTask id fun t p => t.handle p i).provider
      (e.stepTask id fun t p => t.handle p i).tasks :=
  he.stepTask id fun t ht => Task.renews_handle he.provider he.fits (he.timely t ht)
    (fun _ hback => hback) (hadmits _)

/-- An input that reaches every operation: those before have taken their steps.  What leads back
then would have led back at the beginning. -/
theorem driveAll {i : Input} (before : List Task)
    (hp : Engine.Dated h clock seen p (before ++ tasks))
    (hadmits : ∀ t ∈ tasks, clock.Admits h (t.waits p) i) :
    Renews h clock seen p tasks (Engine.driveAll i p tasks).1
      (before ++ (Engine.driveAll i p tasks).2) := by
  -- The induction is on the operations that have not stepped yet.
  induction tasks generalizing p seen before with
  | nil => exact ⟨seen, hp, .refl []⟩
  | cons t rest ih =>
    have ht := hp.timely t (List.mem_append_right _ List.mem_cons_self)
    obtain ⟨seen₁, hx, hjob⟩ := Task.renews_handle hp.provider hp.fits ht (fun _ hback => hback)
      (hadmits t List.mem_cons_self)
    have hstep := hp.step hx hjob
    rw [← List.singleton_append, ← List.append_assoc] at hstep
    obtain ⟨seen₂, hrest, hforward⟩ := ih _ hstep fun u hu =>
      (hadmits u (List.mem_cons_of_mem _ hu)).of_waits fun o ho => Task.reply_mem_waits p _ ho
    rw [List.append_assoc, List.singleton_append] at hrest
    refine ⟨seen₂, hrest, fun steady place i hplace => ?_⟩
    rcases hx.forward steady place i hplace with hle | hback
    · rw [← hx.rules.identities] at hplace
      refine (hforward steady place i hplace).imp (Nat.le_trans hle) ?_
      rintro ⟨u, hu, hback⟩
      have hne := ne_of_split hp.distinct u (List.mem_append_right _ hu)
      have hu' : u ∈ t :: rest := List.mem_cons_of_mem _ hu
      exact ⟨u, hu', .of_renews (hp.timely u (List.mem_append_right _ hu')) hx hne hback⟩
    · exact .inr ⟨t, List.mem_cons_self, hback⟩

/-- An operation has started. -/
theorem start (hp : Engine.Dated h clock seen p tasks) (hnew : ∀ u ∈ tasks, u.id ≠ id)
    (hx : Task.Renews h clock id (fun _ => False) seen p x) :
    Renews h clock seen p tasks x.1 (tasks ++ [⟨id, cancelled, x.2⟩]) := by
  obtain ⟨seen', hx, hjob⟩ := hx
  refine ⟨seen', ⟨hx.dated, hp.fits.of_le hx.calls, nodup_ids_concat hp.distinct hnew,
    fun u hu => ?_⟩, fun steady place i hplace => ?_⟩
  · rcases List.mem_append.1 hu with hu | hu
    · exact (hp.timely u hu).of_leaves (.refl clock) (hx.leaves (hnew u hu))
    · rw [List.mem_singleton.1 hu]
      exact hjob
  · exact (hx.forward steady place i hplace).imp_right False.elim

/-- An operation has been dropped. -/
theorem drop (hp : Engine.Dated h clock seen p (before ++ t :: after))
    (hq : p.Renews h clock.now t.id (fun _ => False) seen q seen) :
    Renews h clock seen p (before ++ t :: after) q (before ++ after) := by
  refine ⟨seen, ⟨hq.dated, hp.fits.of_le hq.calls, hp.distinct.sublist (List.Sublist.map _ ?_),
    fun u hu => ?_⟩, .refl _⟩
  · exact List.Sublist.append_left (List.sublist_cons_self _ _) _
  · have hne := ne_of_split hp.distinct u hu
    have hmem : u ∈ before ++ t :: after :=
      (List.Sublist.append_left (List.sublist_cons_self _ _) _).subset hu
    exact (hp.timely u hmem).of_leaves (.refl clock) (hq.leaves hne)

/-- Noting that an operation has been given up. -/
theorem markCancelled (he : Engine.Dated h clock seen e.provider e.tasks) (id : TaskId) :
    Engine.Dated h clock seen (e.markCancelled id).provider (e.markCancelled id).tasks where
  provider := he.provider
  fits := he.fits
  distinct := by
    rw [ids_markCancelled]
    exact he.distinct
  timely u hu := by
    obtain ⟨t, ht, hid, hjob⟩ := exists_of_mem_markCancelled hu
    rw [← hid, ← hjob]
    exact he.timely t ht

/-- Giving an operation up opens no way back that was not open. -/
theorem of_markCancelled
    (hx : Renews h clock seen (e.markCancelled id).provider (e.markCancelled id).tasks q tasks) :
    Renews h clock seen e.provider e.tasks q tasks := by
  obtain ⟨seen', hdated, hforward⟩ := hx
  refine ⟨seen', hdated, fun steady place i hplace => ?_⟩
  refine (hforward steady place i hplace).imp_right ?_
  rintro ⟨u, hu, hback⟩
  obtain ⟨t, ht, -, hjob⟩ := exists_of_mem_markCancelled hu
  rw [← hjob] at hback
  exact ⟨t, ht, hback⟩

end Dated

/-! ## Every event -/

/-- Events that may come at a moment: answers are true of one since the call was opened. -/
def Truthful (h : History) (clock : Clock) (e : Engine) : Event → Prop
  | .answer ticket reply =>
    ∀ t ∈ e.tasks, clock.Admits h (t.waits e.provider) (.answered ticket reply)
  | _ => True

instance (h : History) (clock : Clock) (e : Engine) (event : Event) :
    Decidable (e.Truthful h clock event) :=
  match event with
  | .answer ticket reply => inferInstanceAs (Decidable
    (∀ t ∈ e.tasks, clock.Admits h (t.waits e.provider) (.answered ticket reply)))
  | .start .. | .cancel _ | .abandon _ | .resume _ | .fallback _ | .wake _ | .lookedUp ..
  | .advance _ | .drew _ | .watch _ | .setDirty .. | .configure _ | .replaceFound .. => isTrue trivial

/-- **Every event keeps the engine dated**, and leads every watched name forward but where the
next step of an operation leads back. -/
theorem Dated.handle {e : Engine} (he : Engine.Dated h clock seen e.provider e.tasks)
    {event : Event} (truthful : e.Truthful h clock event) :
    Renews h clock seen e.provider e.tasks (e.handle event).provider (e.handle event).tasks := by
  cases event with
  | start id op cancelled =>
    simp only [Engine.handle]
    split
    · exact he.refl
    · next hnone =>
      have hnew := ne_of_find?_eq_none (Bool.eq_false_iff.2 hnone)
      exact he.start hnew (Task.renews_begin he.provider he.fits op)
  | cancel id => exact of_markCancelled ((he.markCancelled id).resume id fun _ => trivial)
  | abandon id =>
    simp only [Engine.handle]
    cases hfind : e.task? id with
    | none => exact he.refl
    | some t =>
      obtain ⟨rfl, before, after, htasks⟩ := exists_split hfind
      simp only [htasks]
      rw [htasks] at he
      rw [filter_of_split he.distinct]
      exact he.drop (Task.renews_abandon he.provider t)
  | resume id => exact he.resume id fun _ => trivial
  | answer ticket reply => exact he.driveAll [] truthful
  | fallback call => exact he.driveAll [] fun _ _ => trivial
  | wake id => exact he.resume id fun _ => trivial
  | lookedUp id refusals found =>
    exact he.stepTask id fun t ht =>
      Task.renews_lookedUp he.provider he.fits (he.timely t ht) refusals found
  | advance d => exact he.quiet ⟨rfl, rfl, rfl⟩ rfl rfl (fun _ => rfl) rfl
  | drew d => exact he.quiet ⟨rfl, rfl, rfl⟩ rfl rfl (fun _ => rfl) rfl
  | watch r =>
    simp only [Engine.handle, Engine.update]
    split
    · next q hq =>
      obtain ⟨hdated, hcalls, hleaves⟩ := he.provider.watch hq
      have hle := Nat.le_of_eq hcalls.symm
      exact ⟨seen, he.of_leaves hdated hle fun t _ => hleaves t.id, .refl _⟩
    · exact he.refl
  | setDirty most draws =>
    have hknown := WatchList.known_setDirty e.provider.watchList e.provider.now most draws
    exact he.quiet ⟨rfl, rfl, WatchList.identities_of_known hknown⟩ rfl rfl
      (Provider.tokenAt_of_known hknown) rfl
  | configure c => exact he.quiet ⟨rfl, rfl, rfl⟩ rfl rfl (fun _ => rfl) rfl
  | replaceFound refusals found =>
    simp only [Engine.handle, Engine.update]
    split
    · exact he.quiet ⟨rfl, rfl, rfl⟩ rfl rfl (fun _ => rfl) rfl
    · exact he.refl

/-! ## Runs -/

/-- Events, each with the moment at which it comes, none of them before the one in front of it, and
with answers that are true. -/
def TruthfulRun (h : History) : Clock → Engine → List (Nat × Event) → Prop
  | _, _, [] => True
  | clock, e, (n, event) :: rest => clock.now ≤ n ∧
    e.Truthful h (clock.tick n e.provider.calls) event ∧
    TruthfulRun h (clock.tick n e.provider.calls) (e.handle event) rest

instance decidableTruthfulRun (h : History) : (clock : Clock) → (e : Engine) →
    (events : List (Nat × Event)) → Decidable (TruthfulRun h clock e events)
  | _, _, [] => isTrue trivial
  | clock, e, (n, event) :: rest =>
    have := decidableTruthfulRun h (clock.tick n e.provider.calls) (e.handle event) rest
    inferInstanceAs (Decidable (_ ∧ _ ∧ _))

/-- The engine behind the first `k` events. -/
def behind (e : Engine) (events : List (Nat × Event)) (k : Nat) : Engine :=
  e.run ((events.take k).map (·.2))

/-- The moment of the last of the first `k` events; `n` before all events. -/
def momentAt (n : Nat) (events : List (Nat × Event)) (k : Nat) : Nat :=
  (events.take k).foldl (fun _ x => x.1) n

/-- A run keeps the engine dated, with one sight behind the other. -/
theorem Dated.exists_sights {events : List (Nat × Event)} {e : Engine}
    (he : Engine.Dated h clock seen e.provider e.tasks) (truthful : e.TruthfulRun h clock events) :
    ∃ sights : Nat → Sight, sights 0 = seen ∧ ∀ k,
      (e.behind events k).provider.Dated h (momentAt clock.now events k) (sights k) ∧
      Forward h (momentAt clock.now events (k + 1)) (e.behind events k).provider
        (e.behind events k).tasks (sights k) (sights (k + 1)) := by
  induction events generalizing clock e seen with
  | nil =>
    refine ⟨fun _ => seen, rfl, fun k => ?_⟩
    rw [behind, momentAt, List.take_nil]
    exact ⟨he.provider, .refl _⟩
  | cons x rest ih =>
    obtain ⟨n, event⟩ := x
    obtain ⟨hn, hevent, hrest⟩ := truthful
    obtain ⟨seen', hnext, hforward⟩ := (he.tick hn).handle hevent
    obtain ⟨sights, rfl, hsights⟩ := ih hnext hrest
    refine ⟨fun | 0 => seen | k + 1 => sights k, rfl, fun k => ?_⟩
    cases k with
    | zero => exact ⟨he.provider, hforward⟩
    | succ k => exact hsights k

theorem dated_new (hp : p.Unloaded) :
    Engine.Dated h .zero (fun _ => 0) (new p).provider (new p).tasks where
  provider := by
    have hnone (i : Identity) : p.setting? i = none := by
      rw [Provider.setting?, hp.materialized]
      rfl
    refine ⟨hp.watched, ?_, fun place i t _ ht => ?_, fun _ => Nat.le_refl 0,
      fun i => .inr ⟨hnone i, rfl⟩⟩
    · show p.materialized.names.Nodup
      rw [hp.materialized]
      exact List.nodup_nil
    · obtain ⟨w, hw, ht⟩ := Option.bind_eq_some_iff.1 ht
      cases (hp.tokens w (List.mem_of_getElem? hw)).symm.trans ht
  fits := ⟨fun _ => Nat.le_refl 0, fun _ _ => rfl⟩
  distinct := List.nodup_nil
  timely t ht := absurd ht List.not_mem_nil

/-- **Where a watched name goes back.**  In a run of operations side by side, over a store that
uses no token twice, each state of what is loaded is that of a moment for every name.  These
moments lie in the past, and for a watched name they go forward from event to event.  It is
otherwise only where an operation loads under the name what the store has not had since: a merge
for which the name has no token, or a reload that has missed the name. -/
theorem never_back (hp : p.Unloaded) (steady : h.Steady) {events : List (Nat × Event)}
    (truthful : (new p).TruthfulRun h .zero events) :
    ∃ sights : Nat → Sight, ∀ k,
      let e := (new p).behind events k
      (∀ i, sights k i ≤ momentAt 0 events k ∧
        (e.provider.setting? i = (h (sights k i)).find? i ∨
          e.provider.setting? i = none ∧ sights k i = 0)) ∧
      ∀ place i, e.provider.watchList.identities[place]? = some i →
        sights k i ≤ sights (k + 1) i ∨
          Back h (momentAt 0 events (k + 1)) (sights k) e.provider e.tasks place := by
  obtain ⟨sights, -, hsights⟩ := (dated_new hp).exists_sights truthful
  refine ⟨sights, fun k => ⟨fun i => ?_, (hsights k).2 steady⟩⟩
  exact ⟨(hsights k).1.past i, (hsights k).1.shows i⟩

/-- A setting that comes and goes. -/
def blue : Setting := ⟨"Color", none, some "blue", none, ⟨"1"⟩⟩

/-- The contents that are this setting and nothing else. -/
def blueOnly : Contents := .ofSettings [blue] (by decide)

/-- A store that has a setting at one moment only. -/
def flicker : History
  | 1 => blueOnly
  | _ => .ofSettings [] List.nodup_nil

theorem flicker_eq_one {n : Nat} {i : Identity} {s : Setting} (hs : (flicker n).find? i = some s) :
    n = 1 := by
  by_contra hne
  have hempty : flicker n = .ofSettings [] List.nodup_nil := by
    unfold flicker
    split
    · exact absurd rfl hne
    · rfl
  rw [hempty] at hs
  cases hs

theorem steady_flicker : flicker.Steady := by
  intro i a b k s t hak hkb hs ht _
  obtain rfl := flicker_eq_one hs
  obtain rfl := flicker_eq_one ht
  exact Nat.le_antisymm hkb hak ▸ hs

/-- A provider that watches two names. -/
def fleeting : Provider :=
  .new (.ofHosts ["a"]) default
    ⟨[.new ⟨⟨"Color", none⟩, .ofSecs 1, false⟩ .start,
      .new ⟨⟨"Size", none⟩, .ofSecs 1, false⟩ .start]⟩
    .empty ⟨[⟨"*", none⟩], false, .ofSecs 100⟩ .start

/-- Nothing is there when everything is loaded.  Then two passes find the setting, and the first of
them waits for an answer about another name.  The second one merges the setting, a third one finds
that it has gone and takes it away, and now the first one gets its answer. -/
def returns : List (Nat × Event) :=
  [(0, .start 0 .load false), (0, .answer ⟨0, 0, 0⟩ (.ok (.page ⟨[], none⟩))),
    (0, .answer ⟨1, 0, 0⟩ (.ok (.setting none))), (0, .answer ⟨2, 0, 0⟩ (.ok (.setting none))),
    (1, .advance (.ofSecs 1)), (1, .start 1 .refresh false), (1, .resume 1), (1, .resume 1),
    (1, .answer ⟨3, 0, 0⟩ (.ok (.verdict .modified))), (1, .answer ⟨5, 0, 0⟩ (.ok (.setting blue))),
    (1, .advance (.ofSecs 1)), (1, .start 2 .refresh false), (1, .resume 2), (1, .resume 2),
    (1, .answer ⟨6, 0, 0⟩ (.ok (.verdict .modified))), (1, .answer ⟨7, 0, 0⟩ (.ok (.setting blue))),
    (1, .resume 2),
    (2, .advance (.ofSecs 1)), (2, .start 3 .refresh false), (2, .resume 3), (2, .resume 3),
    (2, .answer ⟨8, 0, 0⟩ (.ok (.verdict .missing))),
    (2, .answer ⟨4, 0, 0⟩ (.ok (.verdict .missing))), (2, .resume 1)]

/-- What the run loads under the name of the setting. -/
def shown (k : Nat) : Option Setting :=
  ((new fleeting).behind returns k).provider.setting? ⟨"Color", none⟩

/-- The setting is loaded, taken away and loaded again, while the store has had it at one moment
only.  So some event of the run goes back. -/
theorem never_back_revived :
    shown 17 = some blue ∧ shown 22 = none ∧ shown 24 = some blue ∧
    ∃ (k : Nat) (seen : Sight), Back flicker (momentAt 0 returns (k + 1)) seen
      ((new fleeting).behind returns k).provider ((new fleeting).behind returns k).tasks 0 := by
  have hcame : shown 17 = some blue := by decide +kernel
  have hwent : shown 22 = none := by decide +kernel
  have hback : shown 24 = some blue := by decide +kernel
  refine ⟨hcame, hwent, hback, ?_⟩
  have hunloaded : fleeting.Unloaded := ⟨by decide, by decide, rfl, rfl, rfl⟩
  have htruthful : (new fleeting).TruthfulRun flicker .zero returns := by decide +kernel
  obtain ⟨sights, hsights⟩ := never_back hunloaded steady_flicker htruthful
  by_contra hnever
  have hwatched : ∀ k < 24, ((new fleeting).behind returns k).provider.watchList.identities[0]? =
      some ⟨"Color", none⟩ := by decide +kernel
  have hforward (k d : Nat) (hd : k + d ≤ 24) :
      sights k ⟨"Color", none⟩ ≤ sights (k + d) ⟨"Color", none⟩ := by
    induction d with
    | zero => exact Nat.le_refl _
    | succ d ih =>
      have hnext := (hsights (k + d)).2 0 _ (hwatched (k + d) hd)
      exact Nat.le_trans (ih (Nat.le_of_succ_le hd)) (hnext.resolve_right fun h => hnever ⟨_, _, h⟩)
  have hone {k : Nat} (hk : shown k = some blue) : sights k ⟨"Color", none⟩ = 1 := by
    rcases ((hsights k).1 ⟨"Color", none⟩).2 with hshows | ⟨hnone, -⟩
    · exact flicker_eq_one (hshows.symm.trans hk)
    · cases hnone.symm.trans hk
  have hbetween : sights 22 ⟨"Color", none⟩ = 1 :=
    Nat.le_antisymm (hone hback ▸ hforward 22 2 (by decide))
      (hone hcame ▸ hforward 17 5 (by decide))
  rcases ((hsights 22).1 ⟨"Color", none⟩).2 with hshows | ⟨-, hzero⟩
  · rw [hbetween] at hshows
    cases hwent.symm.trans hshows
  · cases hbetween.symm.trans hzero

end Engine
end ReplicatedConfig
