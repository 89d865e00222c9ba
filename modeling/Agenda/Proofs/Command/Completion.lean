import Agenda.Proofs.Command.History

/-! Commands write only dates and rules that can be read, so there are three ways in which the completion of
a task may end. -/

namespace Agenda

variable {files : Files} {location : Location} {calls : List Call} {call : Call} {session : Session}
  {today due : Date} {store : Store} {id : String} {number : Int} {task : Task} {rule : Rule}

/-- How the completion of a task ends: what the user is told, and the store afterwards. -/
inductive Completion (today : Date) (store : Store) (number : Int) (task : Task) :
    Outcome → Store → Prop where
  | removed {after : Store} : task.rule = "" →
      after.tasks = store.tasks.filter (·.id ≠ some number) → after.lastId = store.lastId →
        Completion today store number task
          (printed s!"Completed task {number}: {task.title} (removed)\n") after
  | moved {rule : Rule} {due next : Date} {after : Store} : task.rule ≠ "" →
      Rule.read task.rule = .ok rule → Date.ofWritten? task.date = some due →
      rule.LeadsTo due next → next.Writable → today < next → due < next →
      (∀ other, rule.LeadsTo due other → today < other → next ≤ other) →
      after.tasks = store.tasks.map (fun stored =>
        if stored.id = some number then { stored with date := next.written } else stored) →
      after.lastId = store.lastId →
        Completion today store number task
          (printed s!"Completed task {number}: {task.title} (next due {next.written})\n") after
  | stuck {rule : Rule} {due : Date} : task.rule ≠ "" →
      Rule.read task.rule = .ok rule → Date.ofWritten? task.date = some due →
      (∀ other, rule.LeadsTo due other → today < other → 9999 < other.year) →
        Completion today store number task (refused (.reschedule number .dateOverflow)) store

theorem Task.IsRepeating.rule_ne_empty (repeats : task.IsRepeating) : task.rule ≠ "" := by
  intro empty
  rw [IsRepeating, empty] at repeats
  exact repeats rfl

theorem completion_of_readable (finds : store.Finds id number task)
    (written : Date.ofWritten? task.date = some due) (read : Rule.read task.rule = .ok rule) :
    Completion today store number task (reported (completeTask today id store))
      (store.afterWork (completeTask today id store)) := by
  have repeats : task.IsRepeating := Rule.not_isBlankText_of_read read
  have named := repeats.rule_ne_empty
  have valid := Rule.valid_of_read read
  have next := Rule.finds_nextOccurrence_of_leadsTo valid (Date.writable_of_ofWritten? written) today
  rw [completeTask_of_finds finds, if_pos repeats, nextDueDate_of_read written read today]
  generalize rule.nextOccurrence due today = found at next
  cases next with
  | @first date writable ahead least =>
      obtain ⟨leads, after⟩ := ahead
      refine .moved named read written leads writable after (Rule.lt_of_leadsTo valid leads) ?_ ?_ rfl
      · intro other leadsToo afterToo
        exact least other ⟨leadsToo, afterToo⟩
      · exact List.map_congr_left fun stored _ => rfl
  | overflow beyond =>
      exact .stuck named read written fun other leads after => beyond other ⟨leads, after⟩

theorem completion_of_completeTask (finds : store.Finds id number task) (sound : task.Sound) :
    Completion today store number task (reported (completeTask today id store))
      (store.afterWork (completeTask today id store)) := by
  obtain ⟨-, -, due, written⟩ := sound.date
  rcases sound.rule with empty | ⟨-, rule, read⟩
  · have once : ¬ task.IsRepeating := fun repeats => repeats.rule_ne_empty empty
    rw [completeTask_of_finds finds, if_neg once]
    exact .removed empty rfl rfl
  · exact completion_of_readable finds written read

/-- However often the program was called before, with whatever arguments, on a store that had no tasks at
first: completing a task of that store removes it or moves it ahead, unless its rule leads nowhere within
the writable years. -/
theorem completion_afterCalls (unused : (files.storeAt location).tasks = [])
    (writable : ∀ call ∈ calls, call.surroundings.today.Writable)
    (request : Request.ofArguments? call.arguments = some (.command (.complete id)))
    (connected : (connect call.surroundings (files.afterCalls calls)).2 = .ok session)
    (selected : session.settings.place = location)
    (finds : ((files.afterCalls calls).storeAt location).Finds id number task) :
    Completion call.surroundings.today ((files.afterCalls calls).storeAt location) number task
      (run call.surroundings call.arguments (files.afterCalls calls)).2
      ((run call.surroundings call.arguments (files.afterCalls calls)).1.storeAt location) := by
  have sound := Files.sound_storeAt_afterCalls (Store.sound_of_tasks_eq_nil unused) writable
  subst selected
  obtain ⟨told, left⟩ := run_of_connect request rfl connected
  rw [told, left]
  exact completion_of_completeTask finds (sound.tasks task (Store.mem_of_get? finds.stored))

/-- A yearly task is added, due on the 29th of February 2024, and completed in the summer three years
later. The 1st of March 2027 lies behind, and the next leap day ahead. -/
theorem completion_afterCalls_leapDay :
    ∃ (calls : List Call) (call : Call) (session : Session) (task : Task),
      (Files.bare.storeAt ["home", ".tasksched", "scheduler.db"]).tasks = [] ∧
      (∀ call ∈ calls, call.surroundings.today.Writable) ∧
      Request.ofArguments? call.arguments = some (.command (.complete "1")) ∧
      (connect call.surroundings (Files.bare.afterCalls calls)).2 = .ok session ∧
      session.settings.place = ["home", ".tasksched", "scheduler.db"] ∧
      ((Files.bare.afterCalls calls).storeAt ["home", ".tasksched", "scheduler.db"]).Finds "1" 1 task ∧
      (run call.surroundings call.arguments (Files.bare.afterCalls calls)).2 =
        printed "Completed task 1: Leap (next due 20280229)\n" ∧
      Completion call.surroundings.today
        ((Files.bare.afterCalls calls).storeAt ["home", ".tasksched", "scheduler.db"]) 1 task
        (run call.surroundings call.arguments (Files.bare.afterCalls calls)).2
        ((run call.surroundings call.arguments (Files.bare.afterCalls calls)).1.storeAt
          ["home", ".tasksched", "scheduler.db"]) := by
  let calls : List Call := [⟨⟨Date.firstOf 2024 1 (by decide) (by decide), "/home", none⟩,
    ["add", "Leap", "--date", "20240229", "--repeat", "y"]⟩]
  let call : Call := ⟨⟨Date.firstOf 2027 6 (by decide) (by decide), "/home", none⟩, ["done", "1"]⟩
  have writable : ∀ call ∈ calls, call.surroundings.today.Writable := by decide
  have request : Request.ofArguments? call.arguments = some (.command (.complete "1")) := by decide
  have finds : ((Files.bare.afterCalls calls).storeAt ["home", ".tasksched", "scheduler.db"]).Finds
      "1" 1 { id := some 1, date := "20240229", title := "Leap", rule := "y" } :=
    ⟨by decide, by decide +kernel⟩
  have opens : (connect call.surroundings (Files.bare.afterCalls calls)).2.isOk = true := by
    decide +kernel
  have loaded : loadSettings call.surroundings (Files.bare.afterCalls calls) =
      .ok ⟨"/home/.tasksched/scheduler.db", 50⟩ := by decide +kernel
  obtain ⟨session, connected, same⟩ := exists_session_of_isOk opens loaded
  have selected : session.settings.place = ["home", ".tasksched", "scheduler.db"] := by
    rw [same]
    decide
  exact ⟨calls, call, session, _, rfl, writable, request, connected, selected, finds,
    by decide +kernel, completion_afterCalls rfl writable request connected selected finds⟩

end Agenda
