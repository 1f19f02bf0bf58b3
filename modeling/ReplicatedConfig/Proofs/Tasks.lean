import Mathlib.Data.List.Nodup
import ReplicatedConfig.Engine

/-!
# One operation among others

The operations of an engine are told apart by number.  Picking one by its number splits the
list around it (`exists_split`), and what becomes of the engine when that operation takes a
step, or is dropped, can be said with the two parts of the list left as they are.
-/

namespace ReplicatedConfig
namespace Engine

variable {e : Engine} {id : TaskId} {before after : List Task} {t : Task}

/-- The operation with a number splits the list. -/
theorem exists_split (h : e.task? id = some t) :
    t.id = id ∧ ∃ before after, e.tasks = before ++ t :: after := by
  obtain ⟨hid, before, after, htasks, -⟩ := List.find?_eq_some_iff_append.1 h
  exact ⟨of_decide_eq_true hid, before, after, htasks⟩

/-- The operations around one have other numbers. -/
theorem ne_of_split (distinct : ((before ++ t :: after).map (·.id)).Nodup) :
    ∀ u ∈ before ++ after, u.id ≠ t.id := by
  intro u hu hid
  rw [List.map_append, List.map_cons, List.nodup_middle, List.nodup_cons, ← List.map_append]
    at distinct
  exact distinct.1 (hid ▸ List.mem_map_of_mem hu)

/-- A step of one operation leaves the others as they are. -/
theorem stepTask_of_split (distinct : (e.tasks.map (·.id)).Nodup) (hfind : e.task? id = some t)
    (htasks : e.tasks = before ++ t :: after) (step : Task → Provider → Provider × Job) :
    e.stepTask id step = ⟨(step t e.provider).1,
      before ++ { t with job := (step t e.provider).2 } :: after⟩ := by
  have hid := (exists_split hfind).1
  rw [htasks] at distinct
  have hne := ne_of_split distinct
  rw [hid] at hne
  have hsame {us : List Task} {job : Job} (hus : ∀ u ∈ us, u.id ≠ id) :
      us.map (fun u => if u.id = id then { u with job } else u) = us :=
    (List.map_congr_left fun u hu => if_neg (hus u hu)).trans (List.map_id' us)
  unfold stepTask
  rw [hfind]
  simp only []
  rw [htasks, List.map_append, List.map_cons, if_pos hid,
    hsame fun u hu => hne u (List.mem_append_left _ hu),
    hsame fun u hu => hne u (List.mem_append_right _ hu)]

/-- Dropping one operation leaves the others as they are. -/
theorem filter_of_split (distinct : ((before ++ t :: after).map (·.id)).Nodup) :
    (before ++ t :: after).filter (·.id ≠ t.id) = before ++ after := by
  have hne := ne_of_split distinct
  have hsame {us : List Task} (hus : ∀ u ∈ us, u.id ≠ t.id) : us.filter (·.id ≠ t.id) = us :=
    List.filter_eq_self.2 fun u hu => decide_eq_true (hus u hu)
  rw [List.filter_append, List.filter_cons_of_neg (by simp),
    hsame fun u hu => hne u (List.mem_append_left _ hu),
    hsame fun u hu => hne u (List.mem_append_right _ hu)]

/-- Giving an operation up changes neither its number nor how far it has come. -/
theorem markCancelled_tasks (e : Engine) (id : TaskId) :
    (e.markCancelled id).tasks.map (fun t => (t.id, t.job)) =
      e.tasks.map fun t => (t.id, t.job) := by
  show (List.map _ e.tasks).map _ = _
  rw [List.map_map]
  refine List.map_congr_left fun t _ => ?_
  simp only [Function.comp_apply]
  split <;> rfl

theorem ids_markCancelled (e : Engine) (id : TaskId) :
    (e.markCancelled id).tasks.map (·.id) = e.tasks.map (·.id) := by
  have hids := congrArg (List.map Prod.fst) (e.markCancelled_tasks id)
  simp only [List.map_map] at hids
  exact hids

theorem exists_of_mem_markCancelled {u : Task} (hu : u ∈ (e.markCancelled id).tasks) :
    ∃ t ∈ e.tasks, t.id = u.id ∧ t.job = u.job := by
  have hmem : (u.id, u.job) ∈ (e.markCancelled id).tasks.map fun t => (t.id, t.job) :=
    List.mem_map_of_mem hu
  rw [markCancelled_tasks] at hmem
  obtain ⟨t, ht, heq⟩ := List.mem_map.1 hmem
  exact ⟨t, ht, Prod.mk.inj heq⟩

/-- Where no operation has a number, all have other ones. -/
theorem ne_of_find?_eq_none {tasks : List Task} (hnew : (tasks.find? (·.id = id)).isSome = false) :
    ∀ u ∈ tasks, u.id ≠ id := by
  intro u hu hid
  have hsome : (tasks.find? (·.id = id)).isSome = true :=
    List.find?_isSome.2 ⟨u, hu, decide_eq_true hid⟩
  rw [hnew] at hsome
  cases hsome

/-- The numbers of a task list with one more that is new. -/
theorem nodup_ids_concat {tasks : List Task} (distinct : (tasks.map (·.id)).Nodup)
    (hnew : ∀ u ∈ tasks, u.id ≠ t.id) : ((tasks ++ [t]).map (·.id)).Nodup := by
  have hid : t.id ∉ tasks.map (·.id) := fun hid => by
    obtain ⟨u, hu, hid⟩ := List.mem_map.1 hid
    exact hnew u hu hid
  rw [List.map_append, List.map_singleton, List.nodup_append']
  exact ⟨distinct, List.nodup_singleton _, List.disjoint_singleton.2 hid⟩

end Engine
end ReplicatedConfig
