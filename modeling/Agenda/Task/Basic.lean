import Agenda.Date.Written
import Agenda.Rule

/-! Tasks, and how they are shown. Their texts are kept as they were given, so a task may hold a date or a
rule that cannot be read, and such a text is shown as it is. -/

namespace Agenda

structure Task where
  /-- The number of the task in its store. A task that is not stored yet has none. -/
  id : Option Int := none
  /-- The date on which the task is due, in its written form. -/
  date : String
  title : String
  comment : String := ""
  /-- The text of the repeat rule; empty for a task that does not come back. -/
  rule : String := ""
deriving DecidableEq, Repr

namespace Task

def IsRepeating (task : Task) : Prop := ¬ Text.IsBlankText task.rule

instance (task : Task) : Decidable task.IsRepeating := by
  unfold IsRepeating
  infer_instance

end Task

open Text

inductive TaskFault where
  | blank (field : String)
  | idNotNumber (text : String)
  | idNotPositive (id : Int)
  | notFound (id : Int)
  | noId
  /-- All numbers were given out, so no task with this title can be created. -/
  | full (title : String)
deriving DecidableEq, Repr

def TaskFault.message : TaskFault → String
  | .blank field => s!"{field} cannot be empty"
  | .idNotNumber text => s!"Invalid task ID: '{text}'. Task ID must be a number."
  | .idNotPositive id => s!"Invalid task ID: {id}. Task ID must be positive."
  | .notFound id => s!"Task {id} not found"
  | .noId => "Task has no ID"
  | .full title => s!"Failed to create task: {title}"

namespace Task

/-- Refuses a text of blanks, and calls it by the name of its field. -/
def requireText (field text : String) : Except TaskFault Unit :=
  if IsBlankText text then .error (.blank field) else .ok ()

def readId (text : String) : Except TaskFault Int :=
  match readInteger text.toList with
  | .error _ => .error (.idNotNumber text)
  | .ok id => if 0 < id then .ok id else .error (.idNotPositive id)

/-- The number of a task, which a stored one has. -/
def number (task : Task) : Except TaskFault Int :=
  match task.id with
  | none => .error .noId
  | some id => .ok id

end Task

def shownDate (date : String) : String :=
  match Date.ofWritten? date with
  | some date => date.hyphenated
  | none => date

/-- A rule text, and after it what the rule says or why there is no such rule. -/
def shownRule (rule : String) : String :=
  if IsBlankText rule then "(none)"
  else
    match Rule.read rule with
    | .ok read => rule ++ " (" ++ read.description ++ ")"
    | .error error => rule ++ " (invalid: " ++ error.message ++ ")"

namespace Task

/-- The number of the task, or `absent` if it has none. -/
def shownId (absent : String) (task : Task) : String := (task.id.map Int.repr).getD absent

def heading (task : Task) : String := "Task " ++ task.shownId "?" ++ ": " ++ task.title

/-- The task on several lines. The line below the heading is as long as the heading, forty characters
at least. -/
def summary (task : Task) : String :=
  task.heading ++ "\n" ++ String.ofList (List.replicate (max task.heading.length 40) '=') ++ "\n\n" ++
    "  Due:      " ++ shownDate task.date ++ "\n" ++
    "  Repeat:   " ++ shownRule task.rule ++ "\n" ++
    "  Comment:  " ++ (if task.comment = "" then "(none)" else task.comment) ++ "\n"

structure Cells where
  id : String
  due : String
  title : String
  rule : String
deriving DecidableEq, Repr

/-- The widths of the columns. The last column needs none. -/
structure Widths where
  id : Nat
  due : Nat
  title : Nat
deriving DecidableEq, Repr

def headings : Cells := ⟨"ID", "Due", "Title", "Repeat"⟩

/-- The cells of a task. The rule stands as it was given. -/
def cells (task : Task) : Cells := ⟨task.shownId "", shownDate task.date, task.title, task.rule⟩

def Widths.of (lines : List Cells) : Widths where
  id := columnWidth (lines.map (·.id.toList))
  due := columnWidth (lines.map (·.due.toList))
  title := columnWidth (lines.map (·.title.toList))

def gap : List Char := [' ', ' ']

/-- A line with its numbers to the right of their column and its texts to the left of theirs. -/
def Cells.line (widths : Widths) (cells : Cells) : List Char :=
  trimEnd (alignRight widths.id cells.id.toList ++ gap ++ alignLeft widths.due cells.due.toList ++
    gap ++ alignLeft widths.title cells.title.toList ++ gap ++ cells.rule.toList)

def tableLines (tasks : List Task) : List (List Char) :=
  let rows := tasks.map cells
  let widths := Widths.of (headings :: rows)
  let top := headings.line widths
  top :: List.replicate top.length '-' :: rows.map (Cells.line widths)

/-- The tasks in a table, each line ended by a line feed. -/
def table (tasks : List Task) : String :=
  String.ofList ((tableLines tasks).flatMap (· ++ ['\n']))

end Task

end Agenda
