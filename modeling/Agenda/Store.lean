import Agenda.Task.Json

/-! The tasks that were created and not deleted, and the last number that was given out. That every task has
a number of its own, among those given out, is part of the type. -/

namespace Agenda

open Text

structure Store where
  tasks : List Task
  /-- The number of the task that was created last, or 0 if none ever was. -/
  lastId : Nat
  numbered : ∀ task ∈ tasks, ∃ id ∈ task.id, 1 ≤ id ∧ id ≤ lastId
  distinct : (tasks.map Task.id).Nodup

namespace Store

def empty : Store where
  tasks := []
  lastId := 0
  numbered := by simp
  distinct := List.nodup_nil

theorem id_ne_next (store : Store) {task : Task} (member : task ∈ store.tasks) :
    task.id ≠ some ((store.lastId + 1 : Nat) : Int) := by
  obtain ⟨id, named, _, le⟩ := store.numbered task member
  rw [Option.mem_def.mp named]
  intro same
  have := Option.some.inj same
  omega

/-- The task with the next number, as it is stored when it is created. -/
def stamp (store : Store) (task : Task) : Task :=
  { task with id := some ((store.lastId + 1 : Nat) : Int) }

/-- Stores a task under the next number, whatever number it had, as if numbers never ran out. -/
def append (store : Store) (task : Task) : Store where
  tasks := store.tasks ++ [store.stamp task]
  lastId := store.lastId + 1
  numbered := by
    intro stored member
    rcases List.mem_append.mp member with old | new
    · obtain ⟨id, named, pos, le⟩ := store.numbered stored old
      exact ⟨id, named, pos, by omega⟩
    · cases List.mem_singleton.mp new
      exact ⟨_, rfl, by omega, by omega⟩
  distinct := by
    rw [List.map_append, List.nodup_append]
    refine ⟨store.distinct, by simp, ?_⟩
    intro id old next new same
    obtain ⟨stored, member, rfl⟩ := List.mem_map.mp old
    cases List.mem_singleton.mp new
    exact store.id_ne_next member same

/-- Creates a task, and gives it as it is stored. This fails once the largest integer was given out as a
number. -/
def create (store : Store) (task : Task) : Except TaskFault (Task × Store) :=
  if largestInteger ≤ store.lastId then .error (.full task.title)
  else .ok (store.stamp task, store.append task)

def get? (store : Store) (id : Int) : Option Task := store.tasks.find? (·.id = some id)

def Holds (store : Store) (id : Int) : Prop := ∃ task ∈ store.tasks, task.id = some id

instance (store : Store) (id : Int) : Decidable (store.Holds id) := by
  unfold Holds
  infer_instance

/-- The task after a change, which leaves its number alone. -/
def changed (id : Int) (change : Task → Task) (task : Task) : Task :=
  if task.id = some id then { change task with id := task.id } else task

theorem id_changed (id : Int) (change : Task → Task) (task : Task) :
    (changed id change task).id = task.id := by
  unfold changed
  split <;> rfl

theorem map_id_changed (id : Int) (change : Task → Task) (tasks : List Task) :
    (tasks.map (changed id change)).map Task.id = tasks.map Task.id := by
  rw [List.map_map]
  exact List.map_congr_left fun task _ => id_changed id change task

def change (store : Store) (id : Int) (change : Task → Task) : Store where
  tasks := store.tasks.map (changed id change)
  lastId := store.lastId
  numbered := by
    intro task member
    obtain ⟨stored, old, rfl⟩ := List.mem_map.mp member
    rw [id_changed]
    exact store.numbered stored old
  distinct := by
    rw [map_id_changed]
    exact store.distinct

def remove (store : Store) (id : Int) : Store where
  tasks := store.tasks.filter (·.id ≠ some id)
  lastId := store.lastId
  numbered := by
    intro task member
    exact store.numbered task (List.mem_filter.mp member).1
  distinct := (List.filter_sublist.map Task.id).nodup store.distinct

/-- Puts a task into the place of the stored task with its number. -/
def update (store : Store) (task : Task) : Except TaskFault Store :=
  match task.id with
  | none => .error .noId
  | some id =>
      if store.Holds id then .ok (store.change id fun _ => task) else .error (.notFound id)

def updateDate (store : Store) (id : Int) (date : String) : Except TaskFault Store :=
  if store.Holds id then .ok (store.change id ({ · with date := date }))
  else .error (.notFound id)

def delete (store : Store) (id : Int) : Except TaskFault Store :=
  if store.Holds id then .ok (store.remove id) else .error (.notFound id)

end Store

inductive Search where
  | all
  | due (date : Date)
  | containing (text : String)
deriving DecidableEq, Repr

namespace Search

/-- The search for a text. Blanks around it do not count. -/
def ofText (text : String) : Search :=
  let text := trimmed text
  if text = "" then .all
  else
    match Date.ofSearch? text with
    | some date => .due date
    | none => .containing text

def ofText? (text : Option String) : Search := (text.map ofText).getD .all

/-- A text as a search sees it, with the letters A to Z made small. -/
def searched (text : String) : List Char := text.toList.map Char.toLower

/-- The text holds the sought one, where capital and small letters of the Latin alphabet are alike. -/
def Contains (text sought : String) : Prop := searched sought <:+: searched text

instance (text sought : String) : Decidable (Contains text sought) :=
  List.instDecidableIsInfixOfDecidableEq (searched sought) (searched text)

def Admits (task : Task) : Search → Prop
  | .all => True
  | .due date => task.date = date.written
  | .containing text => Contains task.title text ∨ Contains task.comment text

instance (task : Task) (search : Search) : Decidable (search.Admits task) := by
  cases search <;> unfold Admits <;> infer_instance

end Search

namespace Store

/-- The order of a list: by the text of the date, and within a date by number. -/
def ListedBefore (first second : Task) : Prop :=
  first.date < second.date ∨
    (first.date = second.date ∧ first.id.getD 0 ≤ second.id.getD 0)

instance (first second : Task) : Decidable (ListedBefore first second) := by
  unfold ListedBefore
  infer_instance

def listed (tasks : List Task) : List Task := tasks.mergeSort fun a b => decide (ListedBefore a b)

/-- The first tasks that the search lets through, `limit` of them at most. -/
def list (store : Store) (limit : Nat) (search : Search) : List Task :=
  (listed (store.tasks.filter fun task => decide (search.Admits task))).take
    (min limit largestInteger)

def all (store : Store) : List Task := listed store.tasks

def mark : List Char := "tasks through ".toList

/-- The store as a text. -/
def written (store : Store) : String :=
  String.ofList (mark ++ store.lastId.repr.toList ++ ['\n']) ++
    String.join (store.tasks.map fun task => task.json ++ "\n")

/-- The store with the given tasks, if each of them has a number of its own among those given out. -/
def ofTasks? (lastId : Nat) (tasks : List Task) : Option Store :=
  if valid : (∀ task ∈ tasks, ∃ id ∈ task.id, 1 ≤ id ∧ id ≤ lastId) ∧ (tasks.map Task.id).Nodup then
    some ⟨tasks, lastId, valid.1, valid.2⟩
  else none

def ofWritten? (text : String) : Option Store := do
  match text.toList.splitOn '\n' with
  | [] => none
  | first :: rest =>
      guard (mark <+: first)
      let lastId ← (readNatural (first.drop mark.length)).toOption
      let tasks ← (rest.filter (· ≠ [])).mapM fun line => (Task.ofJson (String.ofList line)).toOption
      ofTasks? lastId tasks

end Store

end Agenda
