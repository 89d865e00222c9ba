import Agenda.Proofs.Text.Number
import Agenda.Task.Basic
import Mathlib.Order.Bounds.Basic

/-! Columns are as wide as their widest cell, so no cell reaches into the next one. -/

namespace Agenda

open Text

variable {task : Task} {tasks : List Task}

theorem Text.newline_notMem_padded (width number : Nat) : '\n' ∉ padded width number :=
  fun member => absurd (isDigit_padded member) (by decide)

theorem Date.newline_notMem_writtenYear (year : Int) : '\n' ∉ writtenYear year := by
  unfold writtenYear
  split
  · exact newline_notMem_padded _ _
  · rw [List.mem_cons, not_or]
    refine ⟨?_, newline_notMem_padded _ _⟩
    split <;> decide

theorem Date.newline_notMem_written (date : Date) : '\n' ∉ date.written.toList := by
  rw [written, String.toList_ofList]
  simp [newline_notMem_writtenYear, newline_notMem_padded]

theorem Date.newline_notMem_hyphenated (date : Date) : '\n' ∉ date.hyphenated.toList := by
  rw [hyphenated, String.toList_ofList]
  simp [newline_notMem_writtenYear, newline_notMem_padded]

theorem newline_notMem_shownDate {date : String} (oneLine : '\n' ∉ date.toList) :
    '\n' ∉ (shownDate date).toList := by
  unfold shownDate
  split
  · exact Date.newline_notMem_hyphenated _
  · exact oneLine

namespace Task

theorem newline_notMem_shownId (task : Task) : '\n' ∉ (task.shownId "").toList := by
  unfold shownId
  cases task.id with
  | none => simp
  | some id => exact (writesInteger_repr id).notMem (by decide)

/-- The texts that a table shows have no line feed. -/
structure IsOneLine (task : Task) : Prop where
  date : '\n' ∉ task.date.toList
  title : '\n' ∉ task.title.toList
  rule : '\n' ∉ task.rule.toList

structure Cells.IsOneLine (cells : Cells) : Prop where
  id : '\n' ∉ cells.id.toList
  due : '\n' ∉ cells.due.toList
  title : '\n' ∉ cells.title.toList
  rule : '\n' ∉ cells.rule.toList

theorem headings_isOneLine : headings.IsOneLine where
  id := by decide
  due := by decide
  title := by decide
  rule := by decide

theorem IsOneLine.cells (oneLine : task.IsOneLine) : task.cells.IsOneLine where
  id := newline_notMem_shownId task
  due := newline_notMem_shownDate oneLine.date
  title := oneLine.title
  rule := oneLine.rule

structure StandsRight (width : Nat) (text : String) (cell : List Char) : Prop where
  length : cell.length = width
  exists_blanks : ∃ count, List.replicate count ' ' ++ text.toList = cell

structure StandsLeft (width : Nat) (text : String) (cell : List Char) : Prop where
  length : cell.length = width
  exists_blanks : ∃ count, text.toList ++ List.replicate count ' ' = cell

/-- A line that still has the blanks at its end: cells that fill their columns, with two blanks between
any two of them, and the rule after these. -/
inductive Cells.FillsLine (cells : Cells) (widths : Widths) : List Char → Prop where
  | mk {id due title : List Char} : StandsRight widths.id cells.id id → StandsLeft widths.due cells.due due →
      StandsLeft widths.title cells.title title →
        FillsLine cells widths
          (id ++ [' ', ' '] ++ due ++ [' ', ' '] ++ title ++ [' ', ' '] ++ cells.rule.toList)

/-- The columns start at the places that the widths give. The first column starts the line, and its text
is at the end of the column. -/
structure Cells.StandInColumns (cells : Cells) (widths : Widths) (full : List Char) : Prop where
  id : cells.id.toList <:+ full.take widths.id
  due : cells.due.toList <+: full.drop (widths.id + 2)
  title : cells.title.toList <+: full.drop (widths.id + widths.due + 4)
  rule : full.drop (widths.id + widths.due + widths.title + 6) = cells.rule.toList

/-- The line shows the cells in their columns once it has the blanks back that were at its end. -/
def Cells.AreShownBy (cells : Cells) (widths : Widths) (line : List Char) : Prop :=
  ∃ trail, AllBlank trail ∧ cells.FillsLine widths (line ++ trail) ∧
    cells.StandInColumns widths (line ++ trail)

def EndsShown (line : List Char) : Prop := ∀ char ∈ line.getLast?, isBlank char = false

/-- The length of the longest cell in a column. -/
def IsWidth (lines : List Cells) (column : Cells → String) (width : Nat) : Prop :=
  IsGreatest {length | ∃ cells ∈ lines, (column cells).length = length} width

structure Widths.Fit (widths : Widths) (lines : List Cells) : Prop where
  id : IsWidth lines Cells.id widths.id
  due : IsWidth lines Cells.due widths.due
  title : IsWidth lines Cells.title widths.title

variable {cells : Cells} {widths : Widths} {full : List Char} {lines : List Cells} {text : String} {width : Nat}

theorem exists_length_eq_columnWidth {column : List (List Char)} (nonempty : column ≠ []) :
    ∃ cell ∈ column, cell.length = columnWidth column := by
  induction column with
  | nil => exact absurd rfl nonempty
  | cons cell rest ih =>
      simp only [columnWidth, List.map_cons, List.foldr_cons] at *
      by_cases last : rest = []
      · exact ⟨cell, by simp, by simp [last]⟩
      · obtain ⟨widest, member, same⟩ := ih last
        rcases Nat.le_total cell.length widest.length with le | ge
        · exact ⟨widest, by simp [member], by omega⟩
        · exact ⟨cell, by simp, by omega⟩

theorem isWidth_columnWidth (nonempty : lines ≠ []) (column : Cells → String) :
    IsWidth lines column (columnWidth (lines.map fun cells => (column cells).toList)) := by
  constructor
  · have some : (lines.map fun cells => (column cells).toList) ≠ [] := by simpa using nonempty
    obtain ⟨cell, member, same⟩ := exists_length_eq_columnWidth some
    obtain ⟨cells, inLines, rfl⟩ := List.mem_map.mp member
    exact ⟨cells, inLines, same⟩
  · rintro length ⟨cells, inLines, rfl⟩
    exact length_le_columnWidth (List.mem_map.mpr ⟨cells, inLines, rfl⟩)

theorem Widths.fit_of (nonempty : lines ≠ []) : (Widths.of lines).Fit lines where
  id := isWidth_columnWidth nonempty Cells.id
  due := isWidth_columnWidth nonempty Cells.due
  title := isWidth_columnWidth nonempty Cells.title

theorem IsWidth.length_le {column : Cells → String} (isWidth : IsWidth lines column width)
    (member : cells ∈ lines) : (column cells).length ≤ width :=
  isWidth.2 ⟨cells, member, rfl⟩

theorem Widths.Fit.eq_of (fit : widths.Fit lines) : widths = Widths.of lines := by
  have nonempty : lines ≠ [] := by
    obtain ⟨cells, member, -⟩ := fit.id.1
    exact List.ne_nil_of_mem member
  have fitElse := Widths.fit_of nonempty
  rw [Widths.mk.injEq]
  exact ⟨fit.id.unique fitElse.id, fit.due.unique fitElse.due, fit.title.unique fitElse.title⟩

theorem standsRight_alignRight (fits : text.length ≤ width) :
    StandsRight width text (alignRight width text.toList) where
  length := by rw [length_alignRight, String.length_toList, Nat.max_eq_left fits]
  exists_blanks := ⟨_, rfl⟩

theorem standsLeft_alignLeft (fits : text.length ≤ width) :
    StandsLeft width text (alignLeft width text.toList) where
  length := by rw [length_alignLeft, String.length_toList, Nat.max_eq_left fits]
  exists_blanks := ⟨_, rfl⟩

theorem drop_cell_gap {cell rest : List Char} (length : cell.length = width) :
    (cell ++ ([' ', ' '] ++ rest)).drop (width + 2) = rest := by
  rw [← List.drop_drop, List.drop_left' length]
  rfl

theorem StandsLeft.isPrefix {cell rest : List Char} (stands : StandsLeft width text cell) :
    text.toList <+: cell ++ rest := by
  obtain ⟨-, count, rfl⟩ := stands
  rw [List.append_assoc]
  exact List.prefix_append _ _

theorem Cells.FillsLine.standInColumns (fills : cells.FillsLine widths full) :
    cells.StandInColumns widths full := by
  obtain @⟨idCell, dueCell, titleCell, id, due, title⟩ := fills
  simp only [List.append_assoc]
  generalize following : cells.rule.toList = rule
  have fromTitle : (idCell ++ ([' ', ' '] ++ (dueCell ++ ([' ', ' '] ++
      (titleCell ++ ([' ', ' '] ++ rule)))))).drop (widths.id + widths.due + 4) =
        titleCell ++ ([' ', ' '] ++ rule) := by
    rw [show widths.id + widths.due + 4 = widths.id + 2 + (widths.due + 2) by omega, ← List.drop_drop,
      drop_cell_gap id.length, drop_cell_gap due.length]
  constructor
  · rw [List.take_left' id.length]
    obtain ⟨count, same⟩ := id.exists_blanks
    exact ⟨_, same⟩
  · rw [drop_cell_gap id.length]
    exact due.isPrefix
  · rw [fromTitle]
    exact title.isPrefix
  · rw [show widths.id + widths.due + widths.title + 6 = widths.id + widths.due + 4 + (widths.title + 2) by
      omega, ← List.drop_drop, fromTitle, drop_cell_gap title.length, following]

theorem Widths.Fit.areShownBy_line (fit : widths.Fit lines) (member : cells ∈ lines) :
    cells.AreShownBy widths (cells.line widths) := by
  obtain ⟨trail, blank, same⟩ := exists_trimEnd_append
    (alignRight widths.id cells.id.toList ++ gap ++ alignLeft widths.due cells.due.toList ++ gap ++
      alignLeft widths.title cells.title.toList ++ gap ++ cells.rule.toList)
  have fills : cells.FillsLine widths (cells.line widths ++ trail) := by
    rw [Cells.line, same]
    exact .mk (standsRight_alignRight (fit.id.length_le member)) (standsLeft_alignLeft (fit.due.length_le member))
      (standsLeft_alignLeft (fit.title.length_le member))
  exact ⟨trail, blank, fills, fills.standInColumns⟩

theorem Cells.endsShown_line (cells : Cells) (widths : Widths) : EndsShown (cells.line widths) :=
  fun _ last => isBlank_of_getLast?_trimEnd last

theorem endsShown_dashes (count : Nat) : EndsShown (List.replicate count '-') := by
  intro char last
  rw [List.eq_of_mem_replicate (List.mem_of_getLast? last)]
  decide

theorem Cells.IsOneLine.newline_notMem_line (oneLine : cells.IsOneLine) (widths : Widths) :
    '\n' ∉ cells.line widths := by
  intro member
  have inFull := (List.rdropWhile_prefix isBlank _).subset member
  simp [alignRight, alignLeft, gap, oneLine.id, oneLine.due, oneLine.title, oneLine.rule] at inFull

theorem forall_mem_tableLines {property : List Char → Prop}
    (shown : ∀ cells ∈ headings :: tasks.map Task.cells, ∀ widths, property (cells.line widths))
    (dashes : ∀ count, property (List.replicate count '-')) : ∀ line ∈ tableLines tasks, property line := by
  obtain ⟨top, rows⟩ := List.forall_mem_cons.mp shown
  refine List.forall_mem_cons.mpr ⟨top _, List.forall_mem_cons.mpr ⟨dashes _, ?_⟩⟩
  exact List.forall_mem_map.mpr fun cells member => rows cells member _

theorem newline_notMem_of_mem_tableLines (oneLine : ∀ task ∈ tasks, task.IsOneLine) :
    ∀ line ∈ tableLines tasks, '\n' ∉ line := by
  apply forall_mem_tableLines
  · intro cells member widths
    have isOneLine : cells.IsOneLine := by
      rcases List.mem_cons.mp member with rfl | row
      · exact headings_isOneLine
      · obtain ⟨task, inTasks, rfl⟩ := List.mem_map.mp row
        exact (oneLine task inTasks).cells
    exact isOneLine.newline_notMem_line widths
  · intro count inDashes
    exact absurd (List.eq_of_mem_replicate inDashes) (by decide)

theorem endsShown_of_mem_tableLines : ∀ line ∈ tableLines tasks, EndsShown line :=
  forall_mem_tableLines (fun cells _ widths => cells.endsShown_line widths) endsShown_dashes

/-- The table has the headings, dashes below them and then one line for each task, every line ended by a
line feed. All of the lines have their columns at the same places, and none ends in a blank. -/
theorem table_aligned (tasks : List Task) (oneLine : ∀ task ∈ tasks, task.IsOneLine) :
    ∃ widths top rows,
      (table tasks).toList.splitOn '\n' = top :: List.replicate top.length '-' :: rows ++ [[]] ∧
      rows.length = tasks.length ∧
      widths.Fit (headings :: tasks.map Task.cells) ∧
      headings.AreShownBy widths top ∧
      List.Forall₂ (fun task line => task.cells.AreShownBy widths line) tasks rows ∧
      ∀ line ∈ top :: List.replicate top.length '-' :: rows, EndsShown line := by
  have fit : (Widths.of (headings :: tasks.map Task.cells)).Fit (headings :: tasks.map Task.cells) :=
    Widths.fit_of (by simp)
  refine ⟨_, _, _, ?_, ?_, fit, fit.areShownBy_line (by simp), ?_, endsShown_of_mem_tableLines⟩
  · rw [table, String.toList_ofList]
    exact splitOn_flatMap_append (newline_notMem_of_mem_tableLines oneLine)
  · simp
  · rw [List.forall₂_map_right_iff, List.forall₂_map_right_iff, List.forall₂_same]
    intro task member
    exact fit.areShownBy_line (List.mem_cons_of_mem _ (List.mem_map_of_mem member))

/-- A task that is not stored and has a date that cannot be read, and one with a title that ends in a
blank. -/
theorem table_aligned_blank :
    let tasks : List Task := [⟨none, "soon", "Rent", "", "m 1"⟩, ⟨some 12, "20240506", "Überprüfen 日本 ", "", ""⟩]
    (∀ task ∈ tasks, task.IsOneLine) ∧
    ∃ widths top rows,
      (table tasks).toList.splitOn '\n' = top :: List.replicate top.length '-' :: rows ++ [[]] ∧
      rows.length = 2 ∧ widths = ⟨2, 10, 14⟩ ∧ headings.AreShownBy widths top ∧
      List.Forall₂ (fun task line => task.cells.AreShownBy widths line) tasks rows := by
  intro tasks
  have oneLine : ∀ task ∈ tasks, task.IsOneLine := by
    intro task member
    rcases List.mem_pair.mp member with rfl | rfl <;> exact ⟨by decide, by decide, by decide⟩
  obtain ⟨widths, top, rows, split, count, fit, heading, shown, -⟩ := table_aligned tasks oneLine
  have same : widths = ⟨2, 10, 14⟩ := fit.eq_of.trans (by decide +kernel)
  exact ⟨oneLine, widths, top, rows, split, count, same, heading, shown⟩

end Task

end Agenda
