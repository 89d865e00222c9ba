import Agenda.Command.Basic
import Agenda.Occurrence
import Agenda.Session

/-! Commands as functions on the store. What is wrong with a command itself is refused before there is a
store: `Command.job` does these checks, and leaves a `Job` for the rest. -/

namespace Agenda

open Text

/-- Why a command is not carried out, for which it is to blame itself. -/
inductive Refusal where
  | task (fault : TaskFault)
  | rule (error : RuleError)
  /-- A task that comes back has no next date. -/
  | reschedule (id : Int) (error : RuleError)
  | zeroLimit
  | badNow (text : String)
deriving DecidableEq, Repr

inductive Setback where
  | refusal (refusal : Refusal)
  | failure (failure : Failure)
deriving DecidableEq, Repr

/-- A text to print, and the store afterwards if it has to be written. -/
abbrev Done := String × Option Store

/-- What is left of a command after the checks that need no store. -/
inductive Job where
  | print (text : String)
  /-- Work on the store, where the settings give the limit of a list. -/
  | work (act : (limit : Nat) → Store → Except Setback Done)

/-- The title of a task, without blanks around it. It has to say something. -/
def checkTitle (title : String) : Except Refusal String :=
  match Task.requireText "Task title" title with
  | .ok () => .ok (trimmed title)
  | .error fault => .error (.task fault)

def settleDate (today : Date) (requested : Option String) (rule : String) :
    Except Refusal String :=
  (resolveDueDate today requested rule).mapError .rule

def findTask (store : Store) (id : String) : Except Setback Task :=
  match Task.readId id with
  | .error fault => .error (.refusal (.task fault))
  | .ok id =>
      match store.get? id with
      | some task => .ok task
      | none => .error (.refusal (.task (.notFound id)))

/-- What comes of a change of the store. It was checked before, so that it is rejected is a failure. -/
def commit {α : Type} (change : Except TaskFault α) : Except Setback α :=
  change.mapError fun fault => .failure (.rejected fault)

def newTask (today : Date) (title : List String) (date comment rule : Option String) :
    Except Refusal Task := do
  let title ← checkTitle (" ".intercalate title)
  let rule := trimmed (rule.getD "")
  let date ← settleDate today date rule
  return { date, title, comment := comment.getD "", rule }

def addTask (task : Task) (store : Store) : Except Setback Done := do
  let (task, store) ← commit (store.create task)
  return (s!"Created task {task.id.getD 0} due {task.date}\n", some store)

def printedList (json : Bool) (tasks : List Task) : String :=
  if json then Task.listJson tasks ++ "\n"
  else if tasks = [] then "No tasks found.\n"
  else Task.table tasks

def listTasks (search : List String) (limit : Nat) (json : Bool) (store : Store) :
    Except Setback Done :=
  if limit = 0 then .error (.refusal .zeroLimit)
  else .ok (printedList json (store.list limit (Search.ofText (" ".intercalate search))), none)

def viewTask (id : String) (json : Bool) (store : Store) : Except Setback Done := do
  let task ← findTask store id
  return (if json then task.indentedJson ++ "\n" else task.summary, none)

/-- The task with what is given put into it. A date that is not given is the one the task has. -/
def revised (today : Date) (task : Task) (title date comment rule : Option String) :
    Except Refusal Task := do
  let title ← (title.mapM checkTitle).map (·.getD task.title)
  let rule := (rule.map trimmed).getD task.rule
  let date ← settleDate today (some (date.getD task.date)) rule
  return { task with date, title, comment := comment.getD task.comment, rule }

def modifyTask (today : Date) (id : String) (title date comment rule : Option String)
    (store : Store) : Except Setback Done := do
  let task ← findTask store id
  let task ← (revised today task title date comment rule).mapError .refusal
  let store ← commit (store.update task)
  return (s!"Modified task {task.id.getD 0} (due {task.date})\n", some store)

def completeTask (today : Date) (id : String) (store : Store) : Except Setback Done := do
  let task ← findTask store id
  let id ← commit task.number
  if task.IsRepeating then
    let next ← (nextDueDate today task.date task.rule).mapError (.refusal <| .reschedule id ·)
    let store ← commit (store.updateDate id next)
    return (s!"Completed task {id}: {task.title} (next due {next})\n", some store)
  else
    let store ← commit (store.delete id)
    return (s!"Completed task {id}: {task.title} (removed)\n", some store)

def deleteTask (id : String) (store : Store) : Except Setback Done := do
  let task ← findTask store id
  let id ← commit task.number
  let store ← commit (store.delete id)
  return (s!"Deleted task {id}: {task.title}\n", some store)

def printedNextDate (today : Date) (date rule : String) (now : Option String) :
    Except Refusal String := do
  let now ←
    match now with
    | none => pure today
    | some text =>
        match Date.ofWritten? text with
        | some date => pure date
        | none => throw (.badNow text)
  let next ← (nextDueDate now date rule).mapError .rule
  return next ++ "\n"

/-- Checks a command as far as no store is needed, and tells what is left of it. -/
def Command.job (today : Date) : Command → Except Refusal Job
  | .add title date comment rule =>
      (newTask today title date comment rule).map fun task =>
        .work fun _ => addTask task
  | .list search limit json =>
      .ok (.work fun settled store => listTasks search (limit.getD settled) json store)
  | .view id json => .ok (.work fun _ => viewTask id json)
  | .modify id title date comment rule =>
      .ok (.work fun _ => modifyTask today id title date comment rule)
  | .complete id => .ok (.work fun _ => completeTask today id)
  | .delete id => .ok (.work fun _ => deleteTask id)
  | .nextDate date rule now => (printedNextDate today date rule now).map .print

end Agenda
