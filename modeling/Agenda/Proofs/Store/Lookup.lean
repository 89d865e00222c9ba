import Agenda.Store
import Mathlib.Data.List.Nodup

namespace Agenda.Store

open Text

variable {store after : Store} {id other : Int} {task : Task}

theorem mem_of_get? (stored : store.get? id = some task) : task ∈ store.tasks :=
  List.mem_of_find?_eq_some stored

theorem id_of_get? (stored : store.get? id = some task) : task.id = some id := by
  simpa using List.find?_some stored

theorem bounds_of_get? (stored : store.get? id = some task) : 1 ≤ id ∧ id ≤ store.lastId := by
  obtain ⟨number, named, pos, le⟩ := store.numbered task (mem_of_get? stored)
  rw [id_of_get? stored] at named
  cases named
  exact ⟨pos, le⟩

theorem number_of_get? (stored : store.get? id = some task) : task.number = .ok id := by
  rw [Task.number, id_of_get? stored]

theorem holds_iff : store.Holds id ↔ ∃ task, store.get? id = some task := by
  simp only [Holds, get?, ← Option.isSome_iff_exists, List.find?_isSome, decide_eq_true_eq]

theorem holds_of_get? (stored : store.get? id = some task) : store.Holds id := holds_iff.mpr ⟨task, stored⟩

theorem update_of_holds (held : store.Holds id) (named : task.id = some id) :
    store.update task = .ok (store.change id fun _ => task) := by
  simp only [update, named, if_pos held]

theorem updateDate_of_holds (held : store.Holds id) (date : String) :
    store.updateDate id date = .ok (store.change id ({ · with date := date })) := by
  rw [updateDate, if_pos held]

theorem delete_of_holds (held : store.Holds id) : store.delete id = .ok (store.remove id) := by
  rw [delete, if_pos held]

theorem create_of_lt (room : store.lastId < largestInteger) (task : Task) :
    store.create task = .ok (store.stamp task, store.append task) := by
  rw [create, if_neg (Nat.not_le.mpr room)]

theorem create_of_le (full : largestInteger ≤ store.lastId) (task : Task) :
    store.create task = .error (.full task.title) := by
  rw [create, if_pos full]

theorem eq_of_get? {held : Task} (stored : store.get? id = some task) (member : held ∈ store.tasks)
    (named : held.id = some id) : held = task :=
  List.inj_on_of_nodup_map store.distinct member (mem_of_get? stored) (named.trans (id_of_get? stored).symm)

theorem get?_empty (id : Int) : empty.get? id = none := rfl

theorem get?_next (store : Store) : store.get? (store.lastId + 1 : Nat) = none := by
  cases found : store.get? (store.lastId + 1 : Nat) with
  | none => rfl
  | some task =>
      have bounds := bounds_of_get? found
      omega

theorem get?_append (store : Store) (task : Task) (id : Int) :
    (store.append task).get? id =
      if id = (store.lastId + 1 : Nat) then some (store.stamp task) else store.get? id := by
  have appended : (store.append task).get? id =
      (store.get? id).or (if (store.stamp task).id = some id then some (store.stamp task) else none) := by
    simp [get?, append, List.find?_append, List.find?_singleton]
  rw [appended]
  by_cases next : id = (store.lastId + 1 : Nat)
  · rw [next, get?_next, Option.none_or, if_pos rfl]
    simp [stamp]
  · have other : (store.stamp task).id ≠ some id := by
      intro same
      exact next (Option.some.inj same).symm
    rw [if_neg next, if_neg other, Option.or_none]

theorem get?_change (store : Store) (id : Int) (revise : Task → Task) (other : Int) :
    (store.change id revise).get? other = (store.get? other).map (changed id revise) := by
  have same_id : (fun task : Task => decide (task.id = some other)) ∘ changed id revise =
      fun task => decide (task.id = some other) := by
    funext task
    simp only [Function.comp_apply, id_changed]
  rw [get?, change, List.find?_map, same_id]
  rfl

theorem get?_change_self (stored : store.get? id = some task) (revise : Task → Task) :
    (store.change id revise).get? id = some { revise task with id := task.id } := by
  rw [get?_change, stored, Option.map_some, changed, if_pos (id_of_get? stored)]

theorem get?_remove_self (store : Store) (id : Int) : (store.remove id).get? id = none := by
  simp [get?, remove, List.find?_eq_none]

theorem get?_remove_of_ne (different : other ≠ id) :
    (store.remove id).get? other = store.get? other := by
  rw [get?, remove, List.find?_filter]
  congr 1
  funext task
  by_cases named : task.id = some other <;> simp [named, different]

end Agenda.Store
