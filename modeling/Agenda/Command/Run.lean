import Agenda.Command.Work

/-! The program as a function, from the arguments, the surroundings and the files to the files afterwards
and the outcome. Whether an error is the user's fault, `reportError` finds out from its causes. -/

namespace Agenda

def printed (text : String) : Outcome := .finished 0 text ""

/-- One of the causes of an error, each of which was caused by the next. -/
inductive Cause where
  | rule (error : RuleError)
  | words (text : String)
deriving DecidableEq, Repr

namespace Cause

def message : Cause → String
  | .rule error => error.message
  | .words text => text

def IsRule : Cause → Prop
  | .rule _ => True
  | .words _ => False

instance : (cause : Cause) → Decidable cause.IsRule
  | .rule _ => isTrue trivial
  | .words _ => isFalse id

end Cause

/-- The causes of a failure, each on a line of its own, the first with `indent` blanks before it and each
other with one more than that before it. -/
def printedCauses (indent : Nat) : List String → String
  | [] => ""
  | cause :: rest =>
      String.ofList (List.replicate indent ' ') ++ cause ++ "\n" ++ printedCauses (indent + 1) rest

def printedFailure : List String → String
  | [] => ""
  | [message] => s!"Internal error: {message}\n"
  | message :: causes =>
      s!"Internal error: {message}\n" ++ "\nCaused by:\n" ++ printedCauses 3 causes

def userError (message : String) : Outcome := .finished 1 "" s!"Error: {message}\n"

/-- The outcome of an error with these causes. The user is to blame if a date or a rule was rejected. -/
def reportError (causes : List Cause) : Outcome :=
  if ∃ cause ∈ causes, cause.IsRule then userError (": ".intercalate (causes.map Cause.message))
  else .finished 2 "" (printedFailure (causes.map Cause.message))

namespace Refusal

def causes : Refusal → List Cause
  | .task fault => [.words fault.message]
  | .rule error => [.rule error]
  | .reschedule id error => [.words s!"Cannot reschedule task {id}", .rule error]
  | .zeroLimit => [.words "Limit must be greater than 0"]
  | .badNow text => [.words s!"Invalid 'now' date '{text}': expected YYYYMMDD"]

def message (refusal : Refusal) : String := ": ".intercalate (refusal.causes.map Cause.message)

/-- The program ends with this refusal at once, and an open store is not closed. -/
def IsAbrupt : Refusal → Prop
  | .task _ | .zeroLimit | .badNow _ => True
  | .rule _ | .reschedule _ _ => False

instance (refusal : Refusal) : Decidable refusal.IsAbrupt := by
  unfold IsAbrupt
  split <;> infer_instance

def outcome (refusal : Refusal) : Outcome :=
  if refusal.IsAbrupt then userError refusal.message else reportError refusal.causes

end Refusal

def Failure.outcome (failure : Failure) : Outcome := reportError (failure.messages.map .words)

def Setback.outcome : Setback → Outcome
  | .refusal reason => reason.outcome
  | .failure reason => reason.outcome

def versionText : String := "tasksched 0.1.0\n"

/-- The files after work that meets with a setback, with the store closed if there is time for it. -/
def Files.afterSetback (files : Files) (path : String) : Setback → Files
  | .refusal refusal => if refusal.IsAbrupt then files else files.closeStore path
  | .failure _ => files.closeStore path

/-- The files after work that is done, with the store saved if it is given, and closed. -/
def Files.afterWork (files : Files) (path : String) (store : Option Store) : Files :=
  (store.elim files (files.save path)).closeStore path

/-- Carries out work on the store, and saves the store if the work changes it. -/
def perform (surroundings : Surroundings) (act : Nat → Store → Except Setback Done) (files : Files) :
    Files × Outcome :=
  match connect surroundings files with
  | (files, .error failure) => (files, failure.outcome)
  | (files, .ok session) =>
      let path := session.settings.location
      match act session.settings.limit session.store with
      | .error setback => (files.afterSetback path setback, setback.outcome)
      | .ok (text, store) => (files.afterWork path store, printed text)

def Command.run (surroundings : Surroundings) (command : Command) (files : Files) :
    Files × Outcome :=
  match command.job surroundings.today with
  | .error refusal => (files, refusal.outcome)
  | .ok (.print text) => (files, printed text)
  | .ok (.work act) => perform surroundings act files

def run (surroundings : Surroundings) (arguments : List String) (files : Files) :
    Files × Outcome :=
  match Request.ofArguments? arguments with
  | none => (files, .usage)
  | some .version => (files, printed versionText)
  | some (.command command) => command.run surroundings files

end Agenda
