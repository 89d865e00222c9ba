import Agenda.Json.Skip
import Agenda.Task.Basic

/-! Tasks in JSON. A task is read from an object with its members in any order, others among them, or from a
list of its fields in their fixed order. -/

namespace Agenda.Task

open Json

/-- The member of an optional text: none if the text is empty. -/
def optionalMember (name text : String) : List Member :=
  if text = "" then [] else [(name, .text text)]

def idScalar (task : Task) : Scalar := (task.id.map Scalar.integer).getD .null

/-- The members of a task in the order of its fields. -/
def members (task : Task) : List Member :=
  [("id", task.idScalar), ("date", .text task.date), ("title", .text task.title)] ++
    optionalMember "comment" task.comment ++ optionalMember "repeat" task.rule

/-- The members of a task in the order of their names. -/
def sortedMembers (task : Task) : List Member :=
  optionalMember "comment" task.comment ++
    [("date", .text task.date), ("id", task.idScalar)] ++
    optionalMember "repeat" task.rule ++ [("title", .text task.title)]

def json (task : Task) : String := String.ofList (compact task.members)

def indentedJson (task : Task) : String := String.ofList (indented 0 task.members)

/-- A document with a list of tasks, each with its members in the order of their names. -/
def listJson (tasks : List Task) : String :=
  String.ofList (block '{' '}' 0
    [quoted "tasks" ++ [':', ' '] ++ block '[' ']' 1 (tasks.map fun task => indented 2 task.sortedMembers)])

def readTextField (chars : List Char) : Except Fault (String × List Char) :=
  match skipSpace chars with
  | '"' :: rest => readText rest
  | _ => .error (refusal chars)

/-- Reads the number of a task, or `null` for a task without one. -/
def readIdField (chars : List Char) : Except Fault (Option Int × List Char) :=
  match skipSpace chars with
  | [] => .error .endOfText
  | first :: rest =>
      if first = 'n' then (takeWord ['u', 'l', 'l'] rest).map (none, ·)
      else if plain? first = some .number then
        match readNumber (first :: rest) with
        | .ok (some id, rest) => .ok (some id, rest)
        | .ok (none, _) => .error .mismatch
        | .error fault => .error fault
      else .error (refusal chars)

theorem length_of_readTextField {chars rest : List Char} {text : String}
    (read : readTextField chars = .ok (text, rest)) : rest.length < chars.length := by
  unfold readTextField at read
  split at read
  · rename_i found
    have := length_of_skipSpace found
    have := length_of_readText read
    omega
  · cases read

theorem length_of_readIdField {chars rest : List Char} {id : Option Int}
    (read : readIdField chars = .ok (id, rest)) : rest.length < chars.length := by
  unfold readIdField at read
  split at read
  · cases read
  · rename_i first afterFirst found
    have shorter := length_of_skipSpace found
    split at read
    · cases taken : takeWord ['u', 'l', 'l'] afterFirst with
      | error fault => simp [taken, Except.map] at read
      | ok left =>
          have := length_of_takeWord taken
          simp only [taken, Except.map] at read
          cases read
          omega
    · split at read
      · split at read
        · rename_i number
          have numberShorter := length_of_readNumber number
          cases read
          simp only [List.length_cons] at numberShorter
          omega
        · cases read
        · cases read
      · cases read

/-- The fields of a task that were read so far. -/
structure Draft where
  id : Option (Option Int) := none
  date : Option String := none
  title : Option String := none
  comment : Option String := none
  rule : Option String := none

/-- The task of a draft, which has to hold a date and a title. -/
def Draft.finish (draft : Draft) : Except Fault Task :=
  match draft.date, draft.title with
  | some date, some title =>
      .ok {
        id := draft.id.getD none
        date
        title
        comment := draft.comment.getD ""
        rule := draft.rule.getD "" }
  | _, _ => .error .mismatch

/-- Reads the colon and the value of a field, which must not be there already. -/
def readOnce {α : Type} (held : Option α) (read : List Char → Except Fault (α × List Char))
    (chars : List Char) : Except Fault (α × List Char) :=
  if held.isSome then .error .mismatch
  else
    match takeMark ':' chars with
    | .error fault => .error fault
    | .ok rest => read rest

def place {α β : Type} (put : α → β) : α × List Char → β × List Char
  | (value, rest) => (put value, rest)

def Draft.readNamed (draft : Draft) (name : String) (chars : List Char) :
    Except Fault (Draft × List Char) :=
  match name with
  | "id" =>
      (readOnce draft.id readIdField chars).map (place ({ draft with id := some · }))
  | "date" =>
      (readOnce draft.date readTextField chars).map (place ({ draft with date := some · }))
  | "title" =>
      (readOnce draft.title readTextField chars).map (place ({ draft with title := some · }))
  | "comment" =>
      (readOnce draft.comment readTextField chars).map (place ({ draft with comment := some · }))
  | "repeat" =>
      (readOnce draft.rule readTextField chars).map (place ({ draft with rule := some · }))
  | _ =>
      match takeMark ':' chars with
      | .error fault => .error fault
      | .ok rest => (skipValue rest).map (draft, ·)

/-- Reads a member after the opening quote of its name. -/
def Draft.readMember (draft : Draft) (chars : List Char) : Except Fault (Draft × List Char) :=
  match readText chars with
  | .error fault => .error fault
  | .ok (name, rest) => draft.readNamed name rest

theorem length_of_readOnce {α : Type} {held : Option α}
    {read : List Char → Except Fault (α × List Char)} {chars rest : List Char} {value : α}
    (shortens : ∀ {chars rest value}, read chars = .ok (value, rest) → rest.length < chars.length)
    (done : readOnce held read chars = .ok (value, rest)) : rest.length < chars.length := by
  unfold readOnce at done
  split at done
  · cases done
  · split at done
    · cases done
    · rename_i taken
      have := length_of_takeMark taken
      have := shortens done
      omega

theorem length_of_place {α β : Type} {held : Option α}
    {read : List Char → Except Fault (α × List Char)} {put : α → β} {chars rest : List Char} {after : β}
    (shortens : ∀ {chars rest value}, read chars = .ok (value, rest) → rest.length < chars.length)
    (done : (readOnce held read chars).map (place put) = .ok (after, rest)) :
    rest.length < chars.length := by
  cases once : readOnce held read chars with
  | error fault => simp [once, Except.map] at done
  | ok pair =>
      have := length_of_readOnce shortens once
      simp only [once, Except.map, place] at done
      cases done
      omega

theorem Draft.length_of_readNamed {draft after : Draft} {name : String} {chars rest : List Char}
    (read : draft.readNamed name chars = .ok (after, rest)) : rest.length < chars.length := by
  unfold Draft.readNamed at read
  split at read
  · exact length_of_place length_of_readIdField read
  · exact length_of_place length_of_readTextField read
  · exact length_of_place length_of_readTextField read
  · exact length_of_place length_of_readTextField read
  · exact length_of_place length_of_readTextField read
  · split at read
    · cases read
    · rename_i afterMark taken
      have := length_of_takeMark taken
      cases skipped : skipValue afterMark with
      | error fault => simp [skipped, Except.map] at read
      | ok left =>
          have := length_of_skipValue skipped
          simp only [skipped, Except.map] at read
          cases read
          omega

theorem Draft.length_of_readMember {draft after : Draft} {chars rest : List Char}
    (read : draft.readMember chars = .ok (after, rest)) : rest.length < chars.length := by
  unfold Draft.readMember at read
  split at read
  · cases read
  · rename_i named
    have := length_of_readText named
    have := Draft.length_of_readNamed read
    omega

/-- Reads the members of an object after the opening quote of the name of the first. -/
def Draft.readMembers (draft : Draft) (chars : List Char) : Except Fault (Draft × List Char) :=
  match member : draft.readMember chars with
  | .error fault => .error fault
  | .ok (draft, rest) =>
      have := Draft.length_of_readMember member
      match start : skipSpace rest with
      | [] => .error .endOfText
      | '}' :: rest => .ok (draft, rest)
      | ',' :: rest =>
          have := length_of_skipSpace start
          match quote : takeMark '"' rest with
          | .error fault => .error fault
          | .ok rest =>
              have := length_of_takeMark quote
              draft.readMembers rest
      | _ :: _ => .error .malformed
termination_by chars.length

def readObject (chars : List Char) : Except Fault (Task × List Char) :=
  match skipSpace chars with
  | [] => .error .endOfText
  | '}' :: _ => .error .mismatch
  | '"' :: rest =>
      match ({} : Draft).readMembers rest with
      | .error fault => .error fault
      | .ok (draft, rest) => draft.finish.map (·, rest)
  | _ :: _ => .error .malformed

/-- Takes the comma before a field that may be missing; `none` if the list ends here instead. -/
def takeComma? (chars : List Char) : Except Fault (Option (List Char)) :=
  match skipSpace chars with
  | [] => .error .endOfText
  | ']' :: _ => .ok none
  | ',' :: rest =>
      match skipSpace rest with
      | [] => .error .endOfText
      | ']' :: _ => .error .malformed
      | _ :: _ => .ok (some rest)
  | _ :: _ => .error .malformed

def readRequired {α : Type} (read : List Char → Except Fault (α × List Char)) (chars : List Char) :
    Except Fault (α × List Char) := do
  match ← takeComma? chars with
  | none => throw .mismatch
  | some rest => read rest

/-- Reads a text of a list that may be missing, and is empty then. -/
def readTrailing (chars : List Char) : Except Fault (String × List Char) := do
  match ← takeComma? chars with
  | none => return ("", chars)
  | some rest => readTextField rest

/-- Reads a list after its opening bracket. -/
def readList (chars : List Char) : Except Fault (Task × List Char) := do
  if (skipSpace chars).head? = some ']' then throw .mismatch
  let (id, rest) ← readIdField chars
  let (date, rest) ← readRequired readTextField rest
  let (title, rest) ← readRequired readTextField rest
  let (comment, rest) ← readTrailing rest
  let (rule, rest) ← readTrailing rest
  let rest ← takeMark ']' rest
  return ({ id, date, title, comment, rule }, rest)

/-- Reads a task from a text that holds nothing else. -/
def ofJson (text : String) : Except Fault Task :=
  let chars := text.toList
  let found :=
    match skipSpace chars with
    | '{' :: rest => readObject rest
    | '[' :: rest => readList rest
    | _ => .error (refusal chars)
  match found with
  | .error fault => .error fault
  | .ok (task, rest) => if skipSpace rest = [] then .ok task else .error .malformed

end Agenda.Task
