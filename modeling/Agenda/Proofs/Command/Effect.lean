import Agenda.Command.Work
import Agenda.Proofs.DueDate.Settling
import Agenda.Proofs.Store.Lookup

/-! `Command.Effect` lists what a command may do to the store, so that what commands keep is proved case by
case. A task that is to be changed was found before, and the store takes the change. -/

namespace Agenda

open Text

variable {today : Date} {store : Store} {id text : String} {number : Int} {task after : Task} {json : Bool}
  {title date comment rule : Option String}

/-- The text is the number of a stored task. -/
structure Store.Finds (store : Store) (id : String) (number : Int) (task : Task) : Prop where
  reads : Task.readId id = .ok number
  stored : store.get? number = some task

theorem findTask_of_finds (finds : store.Finds id number task) : findTask store id = .ok task := by
  simp only [findTask, finds.reads, finds.stored]

theorem findTask_eq_ok_iff : findTask store id = .ok task ↔ ∃ number, store.Finds id number task := by
  refine ⟨fun found => ?_, fun ⟨number, finds⟩ => findTask_of_finds finds⟩
  simp only [findTask] at found
  split at found
  · cases found
  · rename_i reads
    split at found
    · rename_i stored
      cases found
      exact ⟨_, reads, stored⟩
    · cases found

theorem findTask_ne_failure {failure : Failure} : findTask store id ≠ .error (.failure failure) := by
  simp only [findTask]
  split
  · simp
  · split <;> simp

section

variable {β : Type} {next : Task → Except Setback β}

theorem exists_finds_of_ok {result : β} (carriedOut : findTask store id >>= next = .ok result) :
    ∃ number task, store.Finds id number task := by
  obtain ⟨task, found, -⟩ := bind_eq_ok_iff.mp carriedOut
  obtain ⟨number, finds⟩ := findTask_eq_ok_iff.mp found
  exact ⟨number, task, finds⟩

theorem exists_finds_of_failure {failure : Failure}
    (fails : findTask store id >>= next = .error (.failure failure)) :
    ∃ number task, store.Finds id number task := by
  rcases bind_eq_error_iff.mp fails with unfound | ⟨task, found, -⟩
  · exact absurd unfound findTask_ne_failure
  · obtain ⟨number, finds⟩ := findTask_eq_ok_iff.mp found
    exact ⟨number, task, finds⟩

end

theorem commit_ok {α : Type} (value : α) : commit (.ok value) = .ok value := rfl

theorem id_of_revised (revises : revised today task title date comment rule = .ok after) :
    after.id = task.id := by
  obtain ⟨_, -, settled⟩ := bind_eq_ok_iff.mp revises
  obtain ⟨_, -, same⟩ := bind_eq_ok_iff.mp settled
  cases same
  rfl

theorem viewTask_of_finds (finds : store.Finds id number task) :
    viewTask id json store = .ok (if json then task.indentedJson ++ "\n" else task.summary, none) := by
  rw [viewTask, findTask_of_finds finds]
  rfl

theorem modifyTask_of_finds (finds : store.Finds id number task) :
    modifyTask today id title date comment rule store =
      ((revised today task title date comment rule).mapError .refusal).map fun after =>
        (s!"Modified task {number} (due {after.date})\n", some (store.change number fun _ => after)) := by
  rw [modifyTask, findTask_of_finds finds, ok_bind]
  cases revises : revised today task title date comment rule with
  | error refusal => rfl
  | ok after =>
      have named := (id_of_revised revises).trans (Store.id_of_get? finds.stored)
      have taken := Store.update_of_holds (Store.holds_of_get? finds.stored) named
      rw [Except.mapError, ok_bind, taken, commit_ok, ok_bind, named]
      rfl

theorem completeTask_of_finds (finds : store.Finds id number task) :
    completeTask today id store =
      if task.IsRepeating then
        match nextDueDate today task.date task.rule with
        | .ok next => .ok (s!"Completed task {number}: {task.title} (next due {next})\n",
            some (store.change number ({ · with date := next })))
        | .error fault => .error (.refusal (.reschedule number fault))
      else .ok (s!"Completed task {number}: {task.title} (removed)\n", some (store.remove number)) := by
  have held := Store.holds_of_get? finds.stored
  rw [completeTask, findTask_of_finds finds, ok_bind, Store.number_of_get? finds.stored, commit_ok, ok_bind]
  split
  · cases nextDueDate today task.date task.rule with
    | error fault => rfl
    | ok next =>
        rw [Except.mapError, ok_bind, Store.updateDate_of_holds held]
        rfl
  · rw [Store.delete_of_holds held]
    rfl

theorem deleteTask_of_finds (finds : store.Finds id number task) :
    deleteTask id store =
      .ok (s!"Deleted task {number}: {task.title}\n", some (store.remove number)) := by
  have held := Store.holds_of_get? finds.stored
  rw [deleteTask, findTask_of_finds finds, ok_bind, Store.number_of_get? finds.stored, commit_ok, ok_bind,
    Store.delete_of_holds held]
  rfl

theorem addTask_of_lt (room : store.lastId < largestInteger) (task : Task) :
    addTask task store =
      .ok (s!"Created task {((store.lastId + 1 : Nat) : Int)} due {task.date}\n", some (store.append task)) := by
  rw [addTask, Store.create_of_lt room]
  rfl

theorem addTask_of_le (full : largestInteger ≤ store.lastId) (task : Task) :
    addTask task store = .error (.failure (.rejected (.full task.title))) := by
  rw [addTask, Store.create_of_le full]
  rfl

/-- What a command does to the store when it is carried out. The store is given if it has to be
written. -/
inductive Command.Effect (today : Date) (store : Store) : Command → Option Store → Prop where
  | add {title : List String} {date comment rule : Option String} {task : Task} :
      newTask today title date comment rule = .ok task →
        Effect today store (.add title date comment rule) (some (store.append task))
  | list {search : List String} {limit : Option Nat} {json : Bool} :
      Effect today store (.list search limit json) none
  | view {id : String} {json : Bool} : Effect today store (.view id json) none
  | modify {id : String} {title date comment rule : Option String} {number : Int} {task after : Task} :
      store.Finds id number task → revised today task title date comment rule = .ok after →
        Effect today store (.modify id title date comment rule)
          (some (store.change number fun _ => after))
  | move {id next : String} {number : Int} {task : Task} :
      store.Finds id number task → task.IsRepeating →
        nextDueDate today task.date task.rule = .ok next →
          Effect today store (.complete id) (some (store.change number ({ · with date := next })))
  | finish {id : String} {number : Int} {task : Task} :
      store.Finds id number task → ¬ task.IsRepeating →
        Effect today store (.complete id) (some (store.remove number))
  | delete {id : String} {number : Int} {task : Task} :
      store.Finds id number task → Effect today store (.delete id) (some (store.remove number))

variable {command : Command} {act : Nat → Store → Except Setback Done} {limit : Nat}
  {written : Option Store} {failure : Failure} {words : List String}

theorem effect_of_addTask (created : newTask today words date comment rule = .ok task)
    (carriedOut : addTask task store = .ok (text, written)) :
    Command.Effect today store (.add words date comment rule) written := by
  rcases Nat.lt_or_ge store.lastId largestInteger with room | full
  · rw [addTask_of_lt room] at carriedOut
    cases carriedOut
    exact .add created
  · rw [addTask_of_le full] at carriedOut
    cases carriedOut

theorem effect_of_modifyTask
    (carriedOut : modifyTask today id title date comment rule store = .ok (text, written)) :
    Command.Effect today store (.modify id title date comment rule) written := by
  obtain ⟨number, task, finds⟩ := exists_finds_of_ok carriedOut
  rw [modifyTask_of_finds finds] at carriedOut
  obtain ⟨after, revises, same⟩ := map_eq_ok_iff.mp carriedOut
  cases same
  exact .modify finds (mapError_eq_ok_iff.mp revises)

theorem effect_of_completeTask (carriedOut : completeTask today id store = .ok (text, written)) :
    Command.Effect today store (.complete id) written := by
  obtain ⟨number, task, finds⟩ := exists_finds_of_ok carriedOut
  rw [completeTask_of_finds finds] at carriedOut
  split at carriedOut
  · rename_i repeats
    split at carriedOut
    · rename_i moved
      cases carriedOut
      exact .move finds repeats moved
    · cases carriedOut
  · rename_i once
    cases carriedOut
    exact .finish finds once

theorem effect_of_deleteTask (carriedOut : deleteTask id store = .ok (text, written)) :
    Command.Effect today store (.delete id) written := by
  obtain ⟨number, task, finds⟩ := exists_finds_of_ok carriedOut
  rw [deleteTask_of_finds finds] at carriedOut
  cases carriedOut
  exact .delete finds

theorem Command.effect_of_work (job : command.job today = .ok (.work act))
    (carriedOut : act limit store = .ok (text, written)) : command.Effect today store written := by
  cases command with
  | add words date comment rule =>
      obtain ⟨task, created, same⟩ := map_eq_ok_iff.mp job
      cases same
      exact effect_of_addTask created carriedOut
  | list search asked json =>
      cases job
      simp only [listTasks] at carriedOut
      split at carriedOut
      · cases carriedOut
      · cases carriedOut
        exact .list
  | view id json =>
      cases job
      obtain ⟨task, -, same⟩ := bind_eq_ok_iff.mp carriedOut
      cases same
      exact .view
  | modify id title date comment rule =>
      cases job
      exact effect_of_modifyTask carriedOut
  | complete id =>
      cases job
      exact effect_of_completeTask carriedOut
  | delete id =>
      cases job
      exact effect_of_deleteTask carriedOut
  | nextDate date rule now =>
      obtain ⟨printed, -, impossible⟩ := map_eq_ok_iff.mp job
      cases impossible

/-- The command adds a task to a store that has given out all its numbers. -/
def Command.Overfills (store : Store) : Command → Prop
  | .add _ _ _ _ => largestInteger ≤ store.lastId
  | .list _ _ _ | .view _ _ | .modify _ _ _ _ _ | .complete _ | .delete _ | .nextDate _ _ _ => False

theorem modifyTask_ne_failure :
    modifyTask today id title date comment rule store ≠ .error (.failure failure) := by
  intro fails
  obtain ⟨number, task, finds⟩ := exists_finds_of_failure fails
  rw [modifyTask_of_finds finds, map_eq_error_iff] at fails
  cases revises : revised today task title date comment rule with
  | error refusal => simp [revises, Except.mapError] at fails
  | ok after => simp [revises, Except.mapError] at fails

theorem completeTask_ne_failure : completeTask today id store ≠ .error (.failure failure) := by
  intro fails
  obtain ⟨number, task, finds⟩ := exists_finds_of_failure fails
  rw [completeTask_of_finds finds] at fails
  split at fails
  · split at fails <;> cases fails
  · cases fails

theorem deleteTask_ne_failure : deleteTask id store ≠ .error (.failure failure) := by
  intro fails
  obtain ⟨number, task, finds⟩ := exists_finds_of_failure fails
  rw [deleteTask_of_finds finds] at fails
  cases fails

theorem listTasks_ne_failure {search : List String} :
    listTasks search limit json store ≠ .error (.failure failure) := by
  unfold listTasks
  split <;> simp

theorem viewTask_ne_failure : viewTask id json store ≠ .error (.failure failure) := by
  intro fails
  obtain ⟨number, task, finds⟩ := exists_finds_of_failure fails
  rw [viewTask_of_finds finds] at fails
  cases fails

/-- The errors of the other operations of a store are never reached. -/
theorem Command.overfills_of_failure (job : command.job today = .ok (.work act))
    (fails : act limit store = .error (.failure failure)) : command.Overfills store := by
  cases command with
  | add words date comment rule =>
      obtain ⟨task, -, same⟩ := map_eq_ok_iff.mp job
      cases same
      by_contra room
      cases (addTask_of_lt (Nat.lt_of_not_le room) task).symm.trans fails
  | list search asked json =>
      cases job
      exact absurd fails listTasks_ne_failure
  | view id json =>
      cases job
      exact absurd fails viewTask_ne_failure
  | modify id title date comment rule =>
      cases job
      exact absurd fails modifyTask_ne_failure
  | complete id =>
      cases job
      exact absurd fails completeTask_ne_failure
  | delete id =>
      cases job
      exact absurd fails deleteTask_ne_failure
  | nextDate date rule now =>
      obtain ⟨printed, -, impossible⟩ := map_eq_ok_iff.mp job
      cases impossible

variable {shown stored due : String}

theorem checkTitle_eq_ok_iff : checkTitle text = .ok shown ↔ ¬ IsBlankText text ∧ trimmed text = shown := by
  simp only [checkTitle, Task.requireText]
  by_cases blank : IsBlankText text <;> simp [blank]

theorem fails_checkTitle_iff : Fails (checkTitle text) ↔ IsBlankText text := by
  simp only [checkTitle, Task.requireText]
  by_cases blank : IsBlankText text <;> simp [blank]

theorem checkGiven_eq_ok_iff :
    (title.mapM checkTitle).map (·.getD stored) = .ok shown ↔
      (∀ text ∈ title, ¬ IsBlankText text) ∧ (title.map trimmed).getD stored = shown := by
  cases title with
  | none =>
      rw [map_eq_ok_iff]
      simp [pure, Except.pure]
  | some text => simp [map_eq_ok_iff, checkTitle_eq_ok_iff, Functor.map, and_assoc]

theorem fails_checkGiven_iff :
    Fails ((title.mapM checkTitle).map (·.getD stored)) ↔ ∃ text ∈ title, IsBlankText text := by
  cases title with
  | none => simp [pure, Except.pure]
  | some text => simp [fails_checkTitle_iff, Functor.map]

/-- The text writes a positive integer of 64 bits. -/
structure WritesId (text : String) (number : Int) : Prop where
  writes : WritesInteger text.toList number
  inRange : IsInteger64 number
  positive : 0 < number

theorem readId_eq_ok_iff : Task.readId text = .ok number ↔ WritesId text number := by
  constructor
  · intro read
    unfold Task.readId at read
    split at read
    · cases read
    · rename_i value integer
      split at read
      · rename_i positive
        cases read
        obtain ⟨writes, inRange⟩ := readInteger_eq_ok_iff.mp integer
        exact ⟨writes, inRange, positive⟩
      · cases read
  · intro writes
    have integer := readInteger_eq_ok_iff.mpr ⟨writes.writes, writes.inRange⟩
    simp [Task.readId, integer, writes.positive]

theorem fails_findTask_iff :
    Fails (findTask store id) ↔
      (¬ ∃ number, WritesId id number) ∨ ∃ number, WritesId id number ∧ ¬ store.Holds number := by
  cases read : Task.readId id with
  | error fault =>
      have unread : ¬ ∃ number, WritesId id number := by
        rintro ⟨number, writes⟩
        cases read.symm.trans (readId_eq_ok_iff.mpr writes)
      simp [findTask, read, unread]
  | ok number =>
      have writes := readId_eq_ok_iff.mp read
      have only : ∀ other, WritesId id other ↔ other = number := by
        intro other
        rw [← readId_eq_ok_iff, read, Except.ok.injEq, eq_comm]
      simp only [findTask, read, only, Store.holds_iff]
      cases found : store.get? number <;> simp [found]

theorem newTask_eq_ok_iff :
    newTask today words date comment rule = .ok task ↔
      ¬ IsBlankText (" ".intercalate words) ∧ ∃ due,
        resolveDueDate today date (trimmed (rule.getD "")) = .ok due ∧
          { date := due, title := trimmed (" ".intercalate words), comment := comment.getD "",
            rule := trimmed (rule.getD "") } = task := by
  simp only [newTask, settleDate, bind_eq_ok_iff, checkTitle_eq_ok_iff, mapError_eq_ok_iff, pure,
    Except.pure, Except.ok.injEq]
  constructor
  · rintro ⟨shown, ⟨notBlank, rfl⟩, due, settled, same⟩
    exact ⟨notBlank, due, settled, same⟩
  · rintro ⟨notBlank, due, settled, same⟩
    exact ⟨_, ⟨notBlank, rfl⟩, due, settled, same⟩

theorem fails_newTask_iff :
    Fails (newTask today words date comment rule) ↔
      IsBlankText (" ".intercalate words) ∨ Fails (resolveDueDate today date (trimmed (rule.getD ""))) := by
  simp only [newTask, settleDate, fails_bind_iff, fails_checkTitle_iff, fails_mapError_iff, pure,
    Except.pure, not_fails_ok, and_false, exists_false, or_false]
  by_cases blank : IsBlankText (" ".intercalate words)
  · simp [blank]
  · simp [blank, checkTitle_eq_ok_iff]

/-- The task with what is given put into it, and due on another date. -/
def Task.withGiven (task : Task) (due : String) (title comment rule : Option String) : Task :=
  { task with
    date := due
    title := (title.map trimmed).getD task.title
    comment := comment.getD task.comment
    rule := (rule.map trimmed).getD task.rule }

theorem revised_eq_ok_iff :
    revised today task title date comment rule = .ok after ↔
      (∀ text ∈ title, ¬ IsBlankText text) ∧ ∃ due,
        resolveDueDate today (some (date.getD task.date)) ((rule.map trimmed).getD task.rule) = .ok due ∧
          task.withGiven due title comment rule = after := by
  simp only [revised, settleDate, bind_eq_ok_iff, checkGiven_eq_ok_iff, mapError_eq_ok_iff, pure,
    Except.pure, Except.ok.injEq]
  constructor
  · rintro ⟨shown, ⟨given, rfl⟩, due, settled, same⟩
    exact ⟨given, due, settled, same⟩
  · rintro ⟨given, due, settled, same⟩
    exact ⟨_, ⟨given, rfl⟩, due, settled, same⟩

theorem fails_revised_iff :
    Fails (revised today task title date comment rule) ↔
      (∃ text ∈ title, IsBlankText text) ∨
        Fails (resolveDueDate today (some (date.getD task.date)) ((rule.map trimmed).getD task.rule)) := by
  simp only [revised, settleDate, fails_bind_iff, fails_checkGiven_iff, fails_mapError_iff, pure,
    Except.pure, not_fails_ok, and_false, exists_false, or_false]
  constructor
  · rintro (blank | ⟨shown, -, unsettled⟩)
    · exact .inl blank
    · exact .inr unsettled
  · rintro (blank | unsettled)
    · exact .inl blank
    · by_cases blank : ∃ text ∈ title, IsBlankText text
      · exact .inl blank
      · push Not at blank
        exact .inr ⟨_, checkGiven_eq_ok_iff.mpr ⟨blank, rfl⟩, unsettled⟩

end Agenda
