import Agenda.Proofs.Command.Selected
import Agenda.Proofs.Settings.Reading

namespace Agenda

open Text

variable {surroundings : Surroundings} {files : Files} {arguments : List String} {asked : Request}
  {session : Session} {today : Date} {store : Store} {command : Command} {limit : Nat} {id : String}
  {title : List String} {date comment rule now : Option String}

def Command.title? : Command → Option String
  | .add title _ _ _ => some (" ".intercalate title)
  | .modify _ title _ _ _ => title
  | .list _ _ _ | .view _ _ | .complete _ | .delete _ | .nextDate _ _ _ => none

/-- The text that is to name the task that the command works with. -/
def Command.id? : Command → Option String
  | .view id _ | .modify id _ _ _ _ | .complete id | .delete id => some id
  | .add _ _ _ _ | .list _ _ _ | .nextDate _ _ _ => none

/-- The date that takes the place of today, if one is given. -/
def referenceDate? (today : Date) (now : Option String) : Option Date :=
  now.elim (some today) Date.ofWritten?

/-- What is wrong with a command, in view of the store. -/
inductive Command.Faulty (today : Date) (store : Store) : Command → Prop where
  | blankTitle {command : Command} {title : String} :
      command.title? = some title → IsBlankText title → Faulty today store command
  /-- The text that is to name a task is no positive integer of 64 bits. -/
  | noNumber {command : Command} {id : String} :
      command.id? = some id → (¬ ∃ number, WritesId id number) → Faulty today store command
  | noTask {command : Command} {id : String} {number : Int} :
      command.id? = some id → WritesId id number → ¬ store.Holds number → Faulty today store command
  | add {title : List String} {date comment rule : Option String} :
      CannotSettle today date (trimmed (rule.getD "")) →
        Faulty today store (.add title date comment rule)
  | modify {id : String} {title date comment rule : Option String} {number : Int} {task : Task} :
      store.Finds id number task →
        CannotSettle today (some (date.getD task.date)) ((rule.map trimmed).getD task.rule) →
          Faulty today store (.modify id title date comment rule)
  | complete {id : String} {number : Int} {task : Task} :
      store.Finds id number task → task.IsRepeating → CannotMove today task.date task.rule →
        Faulty today store (.complete id)
  | zeroLimit {search : List String} {json : Bool} : Faulty today store (.list search (some 0) json)
  | noReference {date rule : String} {now : Option String} :
      referenceDate? today now = none → Faulty today store (.nextDate date rule now)
  | nextDate {date rule : String} {now : Option String} {reference : Date} :
      referenceDate? today now = some reference → CannotMove reference date rule →
        Faulty today store (.nextDate date rule now)

theorem fails_printedNextDate_iff {due rule : String} :
    Fails (printedNextDate today due rule now) ↔
      referenceDate? today now = none ∨
        ∃ reference, referenceDate? today now = some reference ∧ Fails (nextDueDate reference due rule) := by
  have moved (reference : Date) :
      Fails ((nextDueDate reference due rule).mapError Refusal.rule >>= fun next => pure (next ++ "\n")) ↔
        Fails (nextDueDate reference due rule) := by
    simp [fails_bind_iff, pure, Except.pure]
  unfold printedNextDate referenceDate?
  cases now with
  | none => simpa using moved today
  | some text =>
      simp only [Option.elim_some]
      cases Date.ofWritten? text with
      | none =>
          apply iff_of_true _ (.inl rfl)
          exact ⟨.badNow text, rfl⟩
      | some reference => simpa using moved reference

theorem fails_work_iff {β : Type} {work : Except Setback β} {next : Task → Except Setback β}
    {Unfit : Int → Task → Prop} (looksUp : work = findTask store id >>= next)
    (worked : ∀ number task, store.Finds id number task → (Fails work ↔ Unfit number task)) :
    Fails work ↔ Fails (findTask store id) ∨ ∃ number task, store.Finds id number task ∧ Unfit number task := by
  constructor
  · intro fails
    cases found : findTask store id with
    | error setback => exact .inl (fails_error setback)
    | ok task =>
        obtain ⟨number, finds⟩ := findTask_eq_ok_iff.mp found
        exact .inr ⟨number, task, finds, (worked number task finds).mp fails⟩
  · rintro (unfound | ⟨number, task, finds, unfit⟩)
    · rw [looksUp, fails_bind_iff]
      exact .inl unfound
    · exact (worked number task finds).mpr unfit

theorem fails_modifyTask_iff {title : Option String} :
    Fails (modifyTask today id title date comment rule store) ↔ Fails (findTask store id) ∨
      ∃ number task, store.Finds id number task ∧
        Fails (revised today task title date comment rule) := by
  refine fails_work_iff rfl fun number task finds => ?_
  rw [modifyTask_of_finds finds, fails_map_iff, fails_mapError_iff]

theorem fails_completeTask_iff :
    Fails (completeTask today id store) ↔ Fails (findTask store id) ∨
      ∃ number task, store.Finds id number task ∧ task.IsRepeating ∧
        Fails (nextDueDate today task.date task.rule) := by
  refine fails_work_iff rfl fun number task finds => ?_
  rw [completeTask_of_finds finds]
  by_cases repeats : task.IsRepeating
  · cases nextDueDate today task.date task.rule <;> simp [repeats]
  · simp [repeats]

theorem fails_work_iff_of_fits {β : Type} {work : Except Setback β} {next : Task → Except Setback β}
    (looksUp : work = findTask store id >>= next)
    (fits : ∀ number task, store.Finds id number task → ¬ Fails work) :
    Fails work ↔ Fails (findTask store id) := by
  rw [fails_work_iff looksUp fun number task finds => iff_false_intro (fits number task finds)]
  simp

theorem fails_viewTask_iff {json : Bool} : Fails (viewTask id json store) ↔ Fails (findTask store id) := by
  refine fails_work_iff_of_fits rfl fun number task finds => ?_
  rw [viewTask_of_finds finds]
  exact not_fails_ok _

theorem fails_deleteTask_iff : Fails (deleteTask id store) ↔ Fails (findTask store id) := by
  refine fails_work_iff_of_fits rfl fun number task finds => ?_
  rw [deleteTask_of_finds finds]
  exact not_fails_ok _

/-- The command is refused when it works with this store. The limit is the one of the settings. -/
def Command.IsRefused (today : Date) (limit : Nat) (store : Store) (command : Command) : Prop :=
  Fails (command.job today) ∨ ∃ act refusal, command.job today = .ok (.work act) ∧
    act limit store = .error (.refusal refusal)

theorem isRefused_of_work {act : Nat → Store → Except Setback Done}
    (job : command.job today = .ok (.work act))
    (sound : ∀ failure, act limit store ≠ .error (.failure failure)) :
    command.IsRefused today limit store ↔ Fails (act limit store) := by
  have onlyWork : command.IsRefused today limit store ↔
      ∃ refusal, act limit store = .error (.refusal refusal) := by
    simp [Command.IsRefused, job]
  rw [onlyWork]
  refine ⟨fun ⟨refusal, refuses⟩ => ⟨_, refuses⟩, fun ⟨setback, fails⟩ => ?_⟩
  cases setback with
  | refusal refusal => exact ⟨refusal, fails⟩
  | failure failure => exact absurd fails (sound failure)

theorem isRefused_list_iff {search : List String} {asked : Option Nat} {json : Bool} :
    (Command.list search asked json).IsRefused today limit store ↔ asked.getD limit = 0 := by
  have result : Fails (listTasks search (asked.getD limit) json store) ↔ asked.getD limit = 0 := by
    unfold listTasks
    split <;> simp [*]
  have job : (Command.list search asked json).job today =
      .ok (.work fun settled store => listTasks search (asked.getD settled) json store) := rfl
  rw [← result, isRefused_of_work job fun _ => listTasks_ne_failure]

theorem isRefused_view_iff {json : Bool} : (Command.view id json).IsRefused today limit store ↔
    Fails (findTask store id) := by
  rw [isRefused_of_work rfl fun _ => viewTask_ne_failure, fails_viewTask_iff]

theorem isRefused_modify_iff {title : Option String} :
    (Command.modify id title date comment rule).IsRefused today limit store ↔
      Fails (findTask store id) ∨ ∃ number task, store.Finds id number task ∧
        Fails (revised today task title date comment rule) := by
  rw [isRefused_of_work rfl fun _ => modifyTask_ne_failure, fails_modifyTask_iff]

theorem isRefused_complete_iff : (Command.complete id).IsRefused today limit store ↔
    Fails (findTask store id) ∨ ∃ number task, store.Finds id number task ∧ task.IsRepeating ∧
      Fails (nextDueDate today task.date task.rule) := by
  rw [isRefused_of_work rfl fun _ => completeTask_ne_failure, fails_completeTask_iff]

theorem isRefused_delete_iff : (Command.delete id).IsRefused today limit store ↔
    Fails (findTask store id) := by
  rw [isRefused_of_work rfl fun _ => deleteTask_ne_failure, fails_deleteTask_iff]

theorem isRefused_add_iff : (Command.add title date comment rule).IsRefused today limit store ↔
    Fails (newTask today title date comment rule) := by
  rw [Command.IsRefused, Command.job, fails_map_iff, or_iff_left_iff_imp]
  rintro ⟨act, refusal, job, refuses⟩
  obtain ⟨task, -, same⟩ := map_eq_ok_iff.mp job
  cases same
  rcases Nat.lt_or_ge store.lastId largestInteger with room | full
  · cases (addTask_of_lt room task).symm.trans refuses
  · cases (addTask_of_le full task).symm.trans refuses

theorem isRefused_nextDate_iff {due rule : String} :
    (Command.nextDate due rule now).IsRefused today limit store ↔
      Fails (printedNextDate today due rule now) := by
  rw [Command.IsRefused, Command.job, fails_map_iff, or_iff_left_iff_imp]
  rintro ⟨act, -, job, -⟩
  obtain ⟨text, -, impossible⟩ := map_eq_ok_iff.mp job
  cases impossible

theorem Command.Faulty.of_fails_findTask (named : command.id? = some id)
    (fails : Fails (findTask store id)) : command.Faulty today store := by
  rcases fails_findTask_iff.mp fails with unread | ⟨number, writes, absent⟩
  · exact .noNumber named unread
  · exact .noTask named writes absent

theorem faulty_of_isRefused (writable : today.Writable) (pos : 0 < limit)
    (refuses : command.IsRefused today limit store) : command.Faulty today store := by
  cases command with
  | add title date comment rule =>
      rw [isRefused_add_iff, fails_newTask_iff] at refuses
      rcases refuses with blank | unsettled
      · exact .blankTitle rfl blank
      · exact .add ((fails_resolveDueDate_iff writable).mp unsettled)
  | list search asked json =>
      rw [isRefused_list_iff] at refuses
      cases asked with
      | none => exact absurd refuses (Nat.pos_iff_ne_zero.mp pos)
      | some count =>
          cases (show count = 0 from refuses)
          exact .zeroLimit
  | view id json => exact .of_fails_findTask rfl (isRefused_view_iff.mp refuses)
  | modify id title date comment rule =>
      rcases isRefused_modify_iff.mp refuses with fails | ⟨number, task, finds, fails⟩
      · exact .of_fails_findTask rfl fails
      · rcases fails_revised_iff.mp fails with ⟨text, given, blank⟩ | unsettled
        · exact .blankTitle given blank
        · exact .modify finds ((fails_resolveDueDate_iff writable).mp unsettled)
  | complete id =>
      rcases isRefused_complete_iff.mp refuses with fails | ⟨number, task, finds, repeats, fails⟩
      · exact .of_fails_findTask rfl fails
      · exact .complete finds repeats (fails_nextDueDate_iff.mp fails)
  | delete id => exact .of_fails_findTask rfl (isRefused_delete_iff.mp refuses)
  | nextDate date rule now =>
      rw [isRefused_nextDate_iff, fails_printedNextDate_iff] at refuses
      rcases refuses with unread | ⟨reference, given, fails⟩
      · exact .noReference unread
      · exact .nextDate given (fails_nextDueDate_iff.mp fails)

theorem isRefused_of_fails_findTask (named : command.id? = some id) (fails : Fails (findTask store id)) :
    command.IsRefused today limit store := by
  cases command with
  | add | list | nextDate => cases named
  | view =>
      cases named
      exact isRefused_view_iff.mpr fails
  | modify =>
      cases named
      exact isRefused_modify_iff.mpr (.inl fails)
  | complete =>
      cases named
      exact isRefused_complete_iff.mpr (.inl fails)
  | delete =>
      cases named
      exact isRefused_delete_iff.mpr fails

theorem isRefused_of_blankTitle {text : String} (titled : command.title? = some text)
    (blank : IsBlankText text) : command.IsRefused today limit store := by
  cases command with
  | list | view | complete | delete | nextDate => cases titled
  | add =>
      cases titled
      exact isRefused_add_iff.mpr (fails_newTask_iff.mpr (.inl blank))
  | modify id title date comment rule =>
      cases titled
      rw [isRefused_modify_iff]
      cases found : findTask store id with
      | error setback => exact .inl (fails_error setback)
      | ok task =>
          obtain ⟨number, finds⟩ := findTask_eq_ok_iff.mp found
          exact .inr ⟨number, task, finds, fails_revised_iff.mpr (.inl ⟨_, rfl, blank⟩)⟩

theorem isRefused_of_faulty (writable : today.Writable) (faulty : command.Faulty today store) :
    command.IsRefused today limit store := by
  cases faulty with
  | blankTitle titled blank => exact isRefused_of_blankTitle titled blank
  | noNumber named unread =>
      exact isRefused_of_fails_findTask named (fails_findTask_iff.mpr (.inl unread))
  | noTask named writes absent =>
      exact isRefused_of_fails_findTask named (fails_findTask_iff.mpr (.inr ⟨_, writes, absent⟩))
  | add cannot =>
      have unsettled := (fails_resolveDueDate_iff writable).mpr cannot
      exact isRefused_add_iff.mpr (fails_newTask_iff.mpr (.inr unsettled))
  | modify finds cannot =>
      have unsettled := (fails_resolveDueDate_iff writable).mpr cannot
      exact isRefused_modify_iff.mpr (.inr ⟨_, _, finds, fails_revised_iff.mpr (.inr unsettled)⟩)
  | complete finds repeats cannot =>
      exact isRefused_complete_iff.mpr (.inr ⟨_, _, finds, repeats, fails_nextDueDate_iff.mpr cannot⟩)
  | zeroLimit => exact isRefused_list_iff.mpr rfl
  | noReference unread =>
      exact isRefused_nextDate_iff.mpr (fails_printedNextDate_iff.mpr (.inl unread))
  | nextDate given cannot =>
      have unmoved := fails_nextDueDate_iff.mpr cannot
      exact isRefused_nextDate_iff.mpr (fails_printedNextDate_iff.mpr (.inr ⟨_, given, unmoved⟩))

theorem code_run_of_isRefused (request : Request.ofArguments? arguments = some (.command command))
    (connected : (connect surroundings files).2 = .ok session)
    (refuses : command.IsRefused surroundings.today session.settings.limit
      (files.storeAt session.settings.place)) : (run surroundings arguments files).2.code = 1 := by
  rcases refuses with ⟨refusal, refuses⟩ | ⟨act, refusal, job, refuses⟩
  · simp only [run, request, Command.run, refuses, refusal.outcome_eq]
    rfl
  · rw [(run_of_connect request job connected).1, refuses, reported, Setback.outcome, refusal.outcome_eq]
    rfl

theorem code_run_of_overfills (request : Request.ofArguments? arguments = some (.command command))
    (connected : (connect surroundings files).2 = .ok session)
    (accepts : ¬ command.IsRefused surroundings.today session.settings.limit
      (files.storeAt session.settings.place))
    (overfills : command.Overfills (files.storeAt session.settings.place)) :
    (run surroundings arguments files).2.code = 2 := by
  cases command with
  | list | view | modify | complete | delete | nextDate => exact overfills.elim
  | add title date comment rule =>
      rw [isRefused_add_iff] at accepts
      obtain ⟨task, created⟩ := not_fails_iff.mp accepts
      have job : (Command.add title date comment rule).job surroundings.today =
          .ok (.work fun _ => addTask task) := by
        rw [Command.job, created]
        rfl
      rw [(run_of_connect request job connected).1, addTask_of_le overfills, reported, Setback.outcome,
        Failure.outcome_eq]
      rfl

theorem code_run_of_not_isRefused (request : Request.ofArguments? arguments = some (.command command))
    (connected : (connect surroundings files).2 = .ok session)
    (accepts : ¬ command.IsRefused surroundings.today session.settings.limit
      (files.storeAt session.settings.place))
    (room : ¬ command.Overfills (files.storeAt session.settings.place)) :
    (run surroundings arguments files).2.code = 0 := by
  rw [Command.IsRefused, not_or] at accepts
  obtain ⟨job, worked⟩ := not_fails_iff.mp accepts.1
  cases job with
  | print text =>
      simp only [run, request, Command.run, worked]
      rfl
  | work act =>
      rw [(run_of_connect request worked connected).1]
      cases same : act session.settings.limit (files.storeAt session.settings.place) with
      | ok done => rfl
      | error setback =>
          cases setback with
          | refusal refusal => exact absurd ⟨act, refusal, worked, same⟩ accepts.2
          | failure failure => exact absurd (Command.overfills_of_failure worked same) room

end Agenda
