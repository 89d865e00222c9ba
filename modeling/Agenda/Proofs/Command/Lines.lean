import Agenda.Proofs.Command.History
import Agenda.Proofs.Store.Listing
import Agenda.Proofs.Task.Table
import Mathlib.Algebra.GroupWithZero.Nat

/-! A table shows the line feeds inside titles and rules as they are stored. -/

namespace Agenda

open Text

variable {task after : Task} {tasks : List Task} {today : Date} {requested : Option String} {rule date : String}
  {surroundings : Surroundings} {arguments search : List String} {files : Files} {location : Location}
  {calls : List Call} {limit : Option Nat} {json : Bool}

/-- The title and the rule have no blanks at their ends, and the date is one in its written form. -/
structure Task.IsTrimmed (task : Task) : Prop where
  date : ∃ due : Date, due.written = task.date
  title : IsTitle task.title
  rule : trimmed task.rule = task.rule

theorem exists_written_of_resolveDueDate (settled : resolveDueDate today requested rule = .ok date) :
    ∃ due : Date, due.written = date := by
  obtain ⟨-, -, due, -, -, -, same⟩ := resolveDueDate_eq_ok_iff.mp settled
  exact ⟨due, same⟩

theorem Task.isTrimmed_of_newTask {words : List String} {given comment repetition : Option String}
    (created : newTask today words given comment repetition = .ok task) : task.IsTrimmed := by
  obtain ⟨shown, due, settled, rfl⟩ := newTask_eq_ok_iff.mp created
  exact ⟨exists_written_of_resolveDueDate settled, isTitle_trimmed shown, trimmed_trimmed _⟩

namespace Task.IsTrimmed

theorem revised {title given comment repetition : Option String} (trims : task.IsTrimmed)
    (revises : revised today task title given comment repetition = .ok after) : after.IsTrimmed := by
  obtain ⟨shown, due, settled, rfl⟩ := revised_eq_ok_iff.mp revises
  exact ⟨exists_written_of_resolveDueDate settled, trims.title.revised shown, trimmed_revised trims.rule _⟩

theorem moved {due : Date} (trims : task.IsTrimmed) (same : due.written = date) :
    { task with date := date }.IsTrimmed :=
  ⟨⟨due, same⟩, trims.title, trims.rule⟩

theorem numbered (trims : task.IsTrimmed) (id : Option Int) : { task with id := id }.IsTrimmed :=
  ⟨trims.date, trims.title, trims.rule⟩

end Task.IsTrimmed

theorem Store.forall_isTrimmed_of_effect {store written : Store} {command : Command}
    (trims : ∀ task ∈ store.tasks, task.IsTrimmed) (effect : command.Effect today store (some written)) :
    ∀ task ∈ written.tasks, task.IsTrimmed := by
  cases effect with
  | add created => exact forall_mem_append trims ((Task.isTrimmed_of_newTask created).numbered _)
  | modify found revises =>
      have after := (trims _ (mem_of_get? found.stored)).revised revises
      exact forall_mem_change trims fun _ _ _ => after.numbered _
  | move found _ moves =>
      obtain ⟨-, -, due, -, -, -, same⟩ := nextDueDate_eq_ok_iff.mp moves
      refine forall_mem_change trims fun task member _ => ?_
      exact ((trims task member).moved same).numbered _
  | finish _ _ => exact forall_mem_remove trims _
  | delete _ => exact forall_mem_remove trims _

theorem Files.isTrimmed_storeAt_afterCalls (unused : (files.storeAt location).tasks = []) :
    ∀ task ∈ ((files.afterCalls calls).storeAt location).tasks, task.IsTrimmed := by
  have initially : ∀ task ∈ (files.storeAt location).tasks, task.IsTrimmed := by
    rw [unused]
    exact List.forall_mem_nil _
  refine @storeAt_afterCalls_of_effect files location calls (fun store => ∀ task ∈ store.tasks, task.IsTrimmed)
    (List.forall_mem_nil _) ?_ initially
  intro call _ command before written trims effect
  exact Store.forall_isTrimmed_of_effect trims effect

namespace Task

/-- How many line feeds the title and the rule have. -/
def lineFeeds (task : Task) : Nat := task.title.toList.count '\n' + task.rule.toList.count '\n'

theorem IsTrimmed.newline_notMem_date (trims : task.IsTrimmed) : '\n' ∉ task.date.toList := by
  obtain ⟨due, same⟩ := trims.date
  rw [← same]
  exact due.newline_notMem_written

theorem IsTrimmed.lineFeeds_eq_zero_iff (trims : task.IsTrimmed) : task.lineFeeds = 0 ↔ task.IsOneLine := by
  rw [lineFeeds, Nat.add_eq_zero_iff, List.count_eq_zero, List.count_eq_zero]
  constructor
  · rintro ⟨title, rule⟩
    exact ⟨trims.newline_notMem_date, title, rule⟩
  · intro oneLine
    exact ⟨oneLine.title, oneLine.rule⟩

/-- What a line has before the title. -/
def Cells.lineStart (cells : Cells) (widths : Widths) : List Char :=
  alignRight widths.id cells.id.toList ++ gap ++ alignLeft widths.due cells.due.toList ++ gap

theorem IsTrimmed.newline_notMem_lineStart (trims : task.IsTrimmed) (widths : Widths) :
    '\n' ∉ task.cells.lineStart widths := by
  have id : '\n' ∉ task.cells.id.toList := newline_notMem_shownId task
  have due : '\n' ∉ task.cells.due.toList := newline_notMem_shownDate trims.newline_notMem_date
  simp [Cells.lineStart, alignRight, alignLeft, gap, id, due]

theorem IsTrimmed.line_of_no_rule (trims : task.IsTrimmed) (once : task.rule = "") (widths : Widths) :
    task.cells.line widths = task.cells.lineStart widths ++ task.title.toList := by
  have blank : AllBlank (List.replicate (widths.title - task.title.toList.length) ' ' ++ gap) := by
    intro char member
    have space : char = ' ' := by
      rcases List.mem_append.mp member with fill | between
      · exact List.eq_of_mem_replicate fill
      · simpa [gap] using between
    rw [space]
    rfl
  have full : task.cells.line widths = trimEnd ((task.cells.lineStart widths ++ task.title.toList) ++
      (List.replicate (widths.title - task.title.toList.length) ' ' ++ gap)) := by
    simp [Cells.line, Cells.lineStart, cells, once, alignLeft]
  rw [full, trimEnd_append_blanks blank, trimEnd_append_trimmed trims.title.1 trims.title.2]

theorem IsTrimmed.line_of_rule (trims : task.IsTrimmed) (comesBack : task.rule ≠ "") (widths : Widths) :
    task.cells.line widths = task.cells.lineStart widths ++ alignLeft widths.title task.title.toList ++ gap ++
      task.rule.toList :=
  trimEnd_append_trimmed comesBack trims.rule

theorem IsTrimmed.count_line (trims : task.IsTrimmed) (widths : Widths) :
    (task.cells.line widths).count '\n' = task.lineFeeds := by
  have start : (task.cells.lineStart widths).count '\n' = 0 :=
    List.count_eq_zero.mpr (trims.newline_notMem_lineStart widths)
  -- Trimming takes away blanks behind the last cell only, and a trimmed text ends in no line feed.
  by_cases once : task.rule = ""
  · rw [trims.line_of_no_rule once, List.count_append, start, lineFeeds, once]
    simp
  · rw [trims.line_of_rule once, lineFeeds]
    simp [start, alignLeft, gap, List.count_replicate]

theorem count_rows (trims : ∀ task ∈ tasks, task.IsTrimmed) (widths : Widths) :
    (((tasks.map cells).map (Cells.line widths)).flatMap (· ++ ['\n'])).count '\n' =
      tasks.length + (tasks.map lineFeeds).sum := by
  induction tasks with
  | nil => rfl
  | cons task rest ih =>
      obtain ⟨first, later⟩ := List.forall_mem_cons.mp trims
      rw [List.map_cons, List.map_cons, List.flatMap_cons, List.count_append, List.count_append,
        first.count_line, ih later, List.count_singleton_self, List.length_cons, List.map_cons, List.sum_cons]
      omega

theorem count_table (trims : ∀ task ∈ tasks, task.IsTrimmed) :
    (table tasks).toList.count '\n' = tasks.length + 2 + (tasks.map lineFeeds).sum := by
  have top (widths : Widths) : (headings.line widths).count '\n' = 0 :=
    List.count_eq_zero.mpr (headings_isOneLine.newline_notMem_line widths)
  have dashes (count : Nat) : (List.replicate count '-').count '\n' = 0 := by simp [List.count_replicate]
  rw [table, String.toList_ofList, tableLines]
  simp only [List.flatMap_cons, List.count_append, top, dashes, List.count_singleton_self, count_rows trims]
  omega

theorem count_table_eq_iff (trims : ∀ task ∈ tasks, task.IsTrimmed) :
    (table tasks).toList.count '\n' = tasks.length + 2 ↔ ∀ task ∈ tasks, task.IsOneLine := by
  have none : (tasks.map lineFeeds).sum = 0 ↔ ∀ task ∈ tasks, task.lineFeeds = 0 := by
    rw [List.sum_eq_zero_iff_forall_eq_nat, List.forall_mem_map]
  rw [count_table trims, Nat.add_eq_left, none]
  exact forall₂_congr fun task member => (trims task member).lineFeeds_eq_zero_iff

theorem exists_rows_table (trims : ∀ task ∈ tasks, task.IsTrimmed) :
    ∃ widths top rows,
      (table tasks).toList = (top :: List.replicate top.length '-' :: rows).flatMap (· ++ ['\n']) ∧
      headings.AreShownBy widths top ∧
      List.Forall₂ (fun task row => task.cells.AreShownBy widths row ∧ row.count '\n' = task.lineFeeds)
        tasks rows ∧
      ((∀ task ∈ tasks, task.IsOneLine) →
        (table tasks).toList.splitOn '\n' = top :: List.replicate top.length '-' :: rows ++ [[]]) := by
  have fit : (Widths.of (headings :: tasks.map cells)).Fit (headings :: tasks.map cells) :=
    Widths.fit_of (by simp)
  rw [table, String.toList_ofList]
  refine ⟨Widths.of (headings :: tasks.map cells), _, _, rfl, fit.areShownBy_line (by simp), ?_,
    fun oneLine => splitOn_flatMap_append (newline_notMem_of_mem_tableLines oneLine)⟩
  rw [List.forall₂_map_right_iff, List.forall₂_map_right_iff, List.forall₂_same]
  intro task member
  have inLines : task.cells ∈ headings :: tasks.map cells := List.mem_cons_of_mem _ (List.mem_map_of_mem member)
  exact ⟨fit.areShownBy_line inLines, (trims task member).count_line _⟩

end Task

theorem exists_list_of_run (request : Request.ofArguments? arguments = some (.command (.list search limit json)))
    (succeeds : (run surroundings arguments files).2.code = 0) :
    ∃ settings, loadSettings surroundings files = .ok settings ∧
      (run surroundings arguments files).2 = printed (printedList json ((files.storeAt settings.place).list
        (limit.getD settings.limit) (Search.ofText (" ".intercalate search)))) := by
  have performed : run surroundings arguments files =
      perform surroundings (fun settled store => listTasks search (limit.getD settled) json store) files := by
    simp only [run, request, Command.run, Command.job]
  rw [performed] at succeeds ⊢
  cases loaded : loadSettings surroundings files with
  | error failure =>
      unfold perform at succeeds
      rw [connect_of_not_loaded loaded] at succeeds
      exact absurd succeeds (Setback.failure failure).code_outcome_ne_zero
  | ok settings =>
      have performs := performs_perform loaded
        fun settled store => listTasks search (limit.getD settled) json store
      refine ⟨settings, rfl, ?_⟩
      generalize perform surroundings _ files = ended at performs succeeds
      cases performs with
      | fails failed _ => exact absurd succeeds failed
      | succeeds worked _ =>
          unfold listTasks at worked
          split at worked
          · cases worked
          · cases worked
            rfl

/-- After any calls, on a store that had no tasks at first, a list with tasks in it is printed as the
headings, dashes and one row for each task in turn, and each of these is ended by a line feed. A row has
the line feeds that the title and the rule of its task have. So there are two lines more than tasks just
if none of these texts has a line feed, and then the lines are the rows. -/
theorem list_afterCalls_lines
    (request : Request.ofArguments? arguments = some (.command (.list search limit false)))
    (succeeds : (run surroundings arguments (files.afterCalls calls)).2.code = 0) :
    ∃ settings tasks, loadSettings surroundings (files.afterCalls calls) = .ok settings ∧
      ((files.afterCalls calls).storeAt settings.place).list (limit.getD settings.limit)
        (Search.ofText (" ".intercalate search)) = tasks ∧
      ((files.storeAt settings.place).tasks = [] → tasks ≠ [] → ∃ text widths top rows,
        (run surroundings arguments (files.afterCalls calls)).2 = printed text ∧
        text.toList = (top :: List.replicate top.length '-' :: rows).flatMap (· ++ ['\n']) ∧
        Task.headings.AreShownBy widths top ∧
        List.Forall₂ (fun task row => task.cells.AreShownBy widths row ∧ row.count '\n' = task.lineFeeds)
          tasks rows ∧
        text.toList.count '\n' = tasks.length + 2 + (tasks.map Task.lineFeeds).sum ∧
        (text.toList.count '\n' = tasks.length + 2 ↔ ∀ task ∈ tasks, task.IsOneLine) ∧
        ((∀ task ∈ tasks, task.IsOneLine) →
          text.toList.splitOn '\n' = top :: List.replicate top.length '-' :: rows ++ [[]])) := by
  obtain ⟨settings, loaded, told⟩ := exists_list_of_run request succeeds
  obtain ⟨tasks, listed⟩ : ∃ tasks, ((files.afterCalls calls).storeAt settings.place).list
      (limit.getD settings.limit) (Search.ofText (" ".intercalate search)) = tasks := ⟨_, rfl⟩
  rw [listed] at told
  refine ⟨settings, tasks, loaded, listed, fun unused nonempty => ?_⟩
  have trims : ∀ task ∈ tasks, task.IsTrimmed := by
    intro task member
    rw [← listed] at member
    exact Files.isTrimmed_storeAt_afterCalls unused task (Store.mem_of_mem_list member)
  rw [printedList, if_neg Bool.false_ne_true, if_neg nonempty] at told
  obtain ⟨widths, top, rows, text, headed, shown, split⟩ := Task.exists_rows_table trims
  exact ⟨_, widths, top, rows, told, text, headed, shown, Task.count_table trims, Task.count_table_eq_iff trims,
    split⟩

theorem list_afterCalls_lines_sought :
    ∃ (surroundings : Surroundings) (calls : List Call) (text : String),
      (Files.bare.storeAt ["home", ".tasksched", "scheduler.db"]).tasks = [] ∧
      ((Files.bare.afterCalls calls).storeAt ["home", ".tasksched", "scheduler.db"]).tasks =
        [{ id := some 1, date := "20240101", title := "Buy\nmilk" },
          { id := some 2, date := "20240201", title := "Rent", rule := "m 1" }] ∧
      (run surroundings ["list", "rent"] (Files.bare.afterCalls calls)).2 = printed text ∧
      text.toList.count '\n' = 3 := by
  let surroundings : Surroundings := ⟨Date.firstOf 2024 1 (by decide) (by decide), "/home", none⟩
  let calls : List Call := [⟨surroundings, ["add", "Buy\nmilk"]⟩,
    ⟨surroundings, ["add", "Rent", "--date", "20240201", "--repeat", "m 1"]⟩]
  have succeeds : (run surroundings ["list", "rent"] (Files.bare.afterCalls calls)).2.code = 0 := by
    decide +kernel
  obtain ⟨settings, tasks, loaded, listed, lines⟩ :=
    list_afterCalls_lines (show Request.ofArguments? ["list", "rent"] = some _ by rfl) succeeds
  have expected : loadSettings surroundings (Files.bare.afterCalls calls) =
      .ok ⟨"/home/.tasksched/scheduler.db", 50⟩ := by decide +kernel
  cases loaded.symm.trans expected
  have same : tasks = [{ id := some 2, date := "20240201", title := "Rent", rule := "m 1" }] :=
    listed.symm.trans (by decide +kernel)
  subst same
  obtain ⟨text, -, -, -, told, -, -, -, count, -⟩ := lines (by decide +kernel) (by simp)
  exact ⟨surroundings, calls, text, rfl, by decide +kernel, told, count⟩

/-- The title of the only task goes on after a line feed, so four lines are printed for one task. -/
theorem list_afterCalls_lines_twoLineTitle :
    ∃ (surroundings : Surroundings) (calls : List Call) (text : String) (task : Task),
      (Files.bare.storeAt ["home", ".tasksched", "scheduler.db"]).tasks = [] ∧
      (run surroundings ["list"] (Files.bare.afterCalls calls)).2 = printed text ∧
      ((Files.bare.afterCalls calls).storeAt ["home", ".tasksched", "scheduler.db"]).list 50 .all = [task] ∧
      text = "ID  Due         Title     Repeat\n--------------------------------\n 1  2024-01-01  Buy\nmilk\n" ∧
      text.toList.count '\n' ≠ [task].length + 2 := by
  let surroundings : Surroundings := ⟨Date.firstOf 2024 1 (by decide) (by decide), "/home", none⟩
  let calls : List Call := [⟨surroundings, ["add", "Buy\nmilk"]⟩]
  exact ⟨surroundings, calls, _, { id := some 1, date := "20240101", title := "Buy\nmilk" }, rfl,
    by decide +kernel, by decide +kernel, rfl, by decide⟩

end Agenda
