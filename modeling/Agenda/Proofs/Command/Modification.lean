import Agenda.Proofs.Command.Reconnecting

namespace Agenda

open Text

variable {surroundings : Surroundings} {files next : Files} {arguments : List String}
  {session : Session} {outcome : Outcome} {today : Date} {store : Store} {id text : String}
  {number : Int} {task after : Task} {title date comment rule : Option String} {written : Option Store}

theorem Task.withGiven_withGiven (task : Task) (first second : String)
    (title comment rule : Option String) :
    (task.withGiven first title comment rule).withGiven second title comment rule =
      task.withGiven second title comment rule := by
  unfold withGiven
  cases title <;> cases comment <;> cases rule <;> rfl

/-- A changed task is not changed by what it was changed with. If no date is given, then its own is settled
already. -/
theorem revised_again (writable : today.Writable)
    (revises : revised today task title date comment rule = .ok after) :
    revised today after title date comment rule = .ok after := by
  obtain ⟨given, due, settled, rfl⟩ := revised_eq_ok_iff.mp revises
  have sameRule : (rule.map trimmed).getD (task.withGiven due title comment rule).rule =
      (rule.map trimmed).getD task.rule := by
    cases rule <;> rfl
  have settledAgain : resolveDueDate today
      (some (date.getD (task.withGiven due title comment rule).date))
      ((rule.map trimmed).getD task.rule) = .ok due := by
    cases date with
    | none => exact resolveDueDate_again writable settled
    | some text => exact settled
  rw [← sameRule] at settledAgain
  exact revised_eq_ok_iff.mpr ⟨given, due, settledAgain, task.withGiven_withGiven due due title comment rule⟩

theorem Store.change_change (store : Store) (id : Int) (revise : Task → Task) (after : Task) :
    (store.change id revise).change id (fun _ => after) = store.change id fun _ => after := by
  simp only [change, mk.injEq, List.map_map, and_true]
  apply List.map_congr_left
  intro task _
  by_cases named : task.id = some id
  · simp [changed, named]
  · simp [changed, named]

theorem modifyTask_again (writable : today.Writable) (store : Store) :
    modifyTask today id title date comment rule
        (store.afterWork (modifyTask today id title date comment rule store)) =
      modifyTask today id title date comment rule store := by
  cases worked : modifyTask today id title date comment rule store with
  | error setback =>
      rw [Store.afterWork]
      exact worked
  | ok done =>
      obtain ⟨number, task, finds⟩ := exists_finds_of_ok worked
      rw [modifyTask_of_finds finds] at worked
      obtain ⟨after, revises, same⟩ := map_eq_ok_iff.mp worked
      rw [mapError_eq_ok_iff] at revises
      have stored := Store.get?_change_self finds.stored fun _ => after
      have findsAgain : (store.change number fun _ => after).Finds id number after := by
        refine ⟨finds.reads, stored.trans ?_⟩
        rw [← id_of_revised revises]
      rw [← same, Store.afterWork, Option.getD_some, modifyTask_of_finds findsAgain,
        revised_again writable revises, Except.mapError, Except.map, Store.change_change]

/-- A task of the store was changed, the one that the text names, and no other: it has what was given, and
is due on a date that is not in the past. -/
def Store.Modifies (today : Date) (id : String) (title comment rule : Option String)
    (before after : Store) : Prop :=
  ∃ number task due, before.Finds id number task ∧ Date.Writable due ∧ today ≤ due ∧
    after.tasks = before.tasks.map (fun stored =>
      if stored.id = some number then stored.withGiven due.written title comment rule else stored) ∧
    after.lastId = before.lastId

theorem modifies_of_modifyTask (writable : today.Writable)
    (succeeds : modifyTask today id title date comment rule store = .ok (text, written)) :
    store.Modifies today id title comment rule (written.getD store) := by
  obtain ⟨number, task, finds⟩ := exists_finds_of_ok succeeds
  rw [modifyTask_of_finds finds] at succeeds
  obtain ⟨after, revises, same⟩ := map_eq_ok_iff.mp succeeds
  obtain ⟨-, due, settled, rfl⟩ := revised_eq_ok_iff.mp (mapError_eq_ok_iff.mp revises)
  obtain ⟨found, _, foundWritable, notPast, -, rfl⟩ := exists_of_resolveDueDate writable settled
  cases same
  refine ⟨number, task, found, finds, foundWritable, notPast, ?_, rfl⟩
  apply List.map_congr_left
  intro stored member
  by_cases named : stored.id = some number
  · have same : stored = task := Store.eq_of_get? finds.stored member named
    simp [Store.changed, same, Task.withGiven, Store.id_of_get? finds.stored]
  · simp [Store.changed, named]

theorem Store.afterWork_afterWork (store : Store) (work : Except Setback Done) :
    (store.afterWork work).afterWork work = store.afterWork work := by
  cases work with
  | error setback => rfl
  | ok done =>
      obtain ⟨text, written⟩ := done
      cases written <;> rfl

/-- A command that changes a task is run twice on one day, whatever is stored. The second run tells the user
the same as the first, and leaves the store that the first one left. If the command is carried out, then no
other task is changed, and the task is not due in the past. -/
theorem modify_again (writable : surroundings.today.Writable)
    (request : Request.ofArguments? arguments = some (.command (.modify id title date comment rule)))
    (connected : (connect surroundings files).2 = .ok session)
    (apart : session.settings.IsApartFrom surroundings)
    (first : run surroundings arguments files = (next, outcome)) :
    (run surroundings arguments next).2 = outcome ∧
      (run surroundings arguments next).1.storeAt session.settings.place =
        next.storeAt session.settings.place ∧
      (outcome.code = 0 → (files.storeAt session.settings.place).Modifies surroundings.today id title
        comment rule (next.storeAt session.settings.place)) := by
  obtain ⟨told, left⟩ := run_of_connect request rfl connected
  -- The first run leaves the settings as they are, since the way to the store keeps clear of them.
  obtain ⟨again, reconnected, same⟩ := exists_session_after_run connected apart arguments
  rw [first] at told left reconnected
  obtain ⟨toldAgain, leftAgain⟩ := run_of_connect request rfl reconnected
  simp only at told left toldAgain leftAgain
  rw [same, left, modifyTask_again writable] at toldAgain leftAgain
  rw [toldAgain, leftAgain, Store.afterWork_afterWork, told, left]
  refine ⟨rfl, rfl, fun succeeds => ?_⟩
  cases worked : modifyTask surroundings.today id title date comment rule
      (files.storeAt session.settings.place) with
  | error setback =>
      rw [worked] at succeeds
      exact absurd succeeds setback.code_outcome_ne_zero
  | ok done => exact modifies_of_modifyTask writable worked

/-- A task is overdue, and its rule has a blank too many. Only a comment is given, so the task moves to the
next date of its rule, and then it stays there. -/
theorem modify_again_overdue :
    ∃ (surroundings : Surroundings) (files next : Files) (session : Session) (store : Store),
      surroundings.today.Writable ∧
      Request.ofArguments? ["modify", "1", "--comment", "Again"] =
        some (.command (.modify "1" none none (some "Again") none)) ∧
      (connect surroundings files).2 = .ok session ∧ session.settings.IsApartFrom surroundings ∧
      files.storeAt session.settings.place = store ∧
      store.tasks = [{ id := some 1, date := "20240101", title := "Water", rule := "d 10 " }] ∧
      run surroundings ["modify", "1", "--comment", "Again"] files =
        (next, printed "Modified task 1 (due 20240220)\n") ∧
      (run surroundings ["modify", "1", "--comment", "Again"] next).2 =
        printed "Modified task 1 (due 20240220)\n" ∧
      (run surroundings ["modify", "1", "--comment", "Again"] next).1.storeAt session.settings.place =
        next.storeAt session.settings.place ∧
      store.Modifies surroundings.today "1" none (some "Again") none
        (next.storeAt session.settings.place) := by
  let surroundings : Surroundings :=
    ⟨{ year := 2024, month := 2, day := 15, day_le := by decide }, "/home", none⟩
  let store := Store.empty.append { date := "20240101", title := "Water", rule := "d 10 " }
  let files := Files.bare.put ["home", ".tasksched", "scheduler.db"] (.store store none)
  let arguments := ["modify", "1", "--comment", "Again"]
  have writable : surroundings.today.Writable := by decide
  have request : Request.ofArguments? arguments =
      some (.command (.modify "1" none none (some "Again") none)) := by decide
  have opens : (connect surroundings files).2.isOk = true := by decide +kernel
  have loaded : loadSettings surroundings files = .ok ⟨"/home/.tasksched/scheduler.db", 50⟩ := by
    decide +kernel
  obtain ⟨session, connected, same⟩ := exists_session_of_isOk opens loaded
  have apart : session.settings.IsApartFrom surroundings := by
    rw [same]
    decide
  have lies : files.storeAt session.settings.place = store := by
    rw [same]
    rfl
  have told : (run surroundings arguments files).2 = printed "Modified task 1 (due 20240220)\n" := by
    decide +kernel
  cases first : run surroundings arguments files with
  | mk next outcome =>
      rw [first] at told
      simp only at told
      subst told
      obtain ⟨toldAgain, leftAgain, modifies⟩ := modify_again writable request connected apart first
      rw [lies] at modifies
      exact ⟨surroundings, files, next, session, store, writable, request, connected, apart, lies, rfl,
        first, toldAgain, leftAgain, modifies rfl⟩

end Agenda
