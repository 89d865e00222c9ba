import Agenda.Text

/-! Commands as the arguments of the program ask for them. Options and operands stand in any order, and an
argument that starts with a hyphen is taken for an option. Texts are kept as they were given: numbers of
tasks and dates are read only when the command is carried out. -/

namespace Agenda

open Text

inductive Command where
  | add (title : List String) (date comment rule : Option String)
  | list (search : List String) (limit : Option Nat) (json : Bool)
  | view (id : String) (json : Bool)
  | modify (id : String) (title date comment rule : Option String)
  | complete (id : String)
  | delete (id : String)
  /-- Computes the next date of a rule, after today or after another date. -/
  | nextDate (date rule : String) (now : Option String)
deriving DecidableEq, Repr

/-- What the arguments of the program ask for. -/
inductive Request where
  | version
  | command (command : Command)
deriving DecidableEq, Repr

inductive Outcome where
  /-- The arguments do not say what to do. -/
  | usage
  /-- The exit code, and what is written to the standard output and to the standard error. -/
  | finished (code : Nat) (output errors : String)
deriving DecidableEq, Repr

/-- The exit code: 0 if the command was carried out, 1 if it was refused, 2 if there was nothing to carry
out or no store to work with. -/
def Outcome.code : Outcome → Nat
  | .usage => 2
  | .finished code _ _ => code

/-- What stands after the name of an option. -/
inductive OptionForm where
  | flag
  /-- A value that does not look like an option. -/
  | plainValue
  | anyValue
deriving DecidableEq, Repr

abbrev OptionForms := List (String × OptionForm)

/-- The options and operands among some arguments. A flag counts as an option with an empty value. -/
structure Arguments where
  options : List (String × String)
  operands : List String
deriving DecidableEq, Repr

def LooksLikeOption (argument : String) : Prop :=
  argument.toList.head? = some '-' ∧ argument ≠ "-"

instance (argument : String) : Decidable (LooksLikeOption argument) := by
  unfold LooksLikeOption
  infer_instance

/-- The name of an option, and the value after an equals sign if there is one. -/
def optionParts? (argument : String) : Option (String × Option String) :=
  match argument.toList with
  | '-' :: '-' :: chars =>
      let name := String.ofList (chars.takeWhile (· ≠ '='))
      match chars.dropWhile (· ≠ '=') with
      | [] => some (name, none)
      | _ :: value => some (name, some (String.ofList value))
  | _ => none

namespace Arguments

def value? (arguments : Arguments) (name : String) : Option String := arguments.options.lookup name

def hasFlag (arguments : Arguments) (name : String) : Bool := (arguments.value? name).isSome

/-- Adds an option, which must not be given already. -/
def withOption (arguments : Arguments) (name value : String) : Option Arguments :=
  if (arguments.value? name).isSome then none
  else some { arguments with options := (name, value) :: arguments.options }

def withOperand (arguments : Arguments) (operand : String) : Arguments :=
  { arguments with operands := operand :: arguments.operands }

/-- Sorts arguments into options and operands, if each of them fits. -/
def read? (forms : OptionForms) : List String → Option Arguments
  | [] => some ⟨[], []⟩
  | argument :: rest =>
      if argument = "--" then some ⟨[], rest⟩
      else if LooksLikeOption argument then
        match optionParts? argument with
        | none => none
        | some (name, value) =>
            match forms.lookup name, value with
            | none, _ | some .flag, some _ => none
            | some .flag, none => (read? forms rest).bind (·.withOption name "")
            | some _, some value => (read? forms rest).bind (·.withOption name value)
            | some form, none =>
                match rest with
                | [] => none
                | value :: rest =>
                    if LooksLikeOption value ∧ form ≠ .anyValue then none
                    else (read? forms rest).bind (·.withOption name value)
      else (read? forms rest).map (·.withOperand argument)

/-- The operand, if there is exactly one. -/
def single? (arguments : Arguments) : Option String :=
  match arguments.operands with
  | [operand] => some operand
  | _ => none

end Arguments

namespace Command

def addForms : OptionForms :=
  [("date", .plainValue), ("comment", .plainValue), ("repeat", .anyValue)]

def listForms : OptionForms := [("limit", .plainValue), ("json", .flag)]

def viewForms : OptionForms := [("json", .flag)]

def modifyForms : OptionForms := ("title", .plainValue) :: addForms

def nextDateForms : OptionForms :=
  [("date", .plainValue), ("repeat", .anyValue), ("now", .plainValue)]

/-- The number in the value of an option. A value that is no number fits nowhere. -/
def readLimit? : Option String → Option (Option Nat)
  | none => some none
  | some text => (readNatural text.toList).toOption.map some

/-- The command with the given name and arguments. -/
def ofName? (name : String) (rest : List String) : Option Command :=
  match name with
  | "add" => do
      let arguments ← Arguments.read? addForms rest
      return .add arguments.operands (arguments.value? "date") (arguments.value? "comment")
        (arguments.value? "repeat")
  | "list" => do
      let arguments ← Arguments.read? listForms rest
      let limit ← readLimit? (arguments.value? "limit")
      return .list arguments.operands limit (arguments.hasFlag "json")
  | "show" => do
      let arguments ← Arguments.read? viewForms rest
      return .view (← arguments.single?) (arguments.hasFlag "json")
  | "modify" => do
      let arguments ← Arguments.read? modifyForms rest
      return .modify (← arguments.single?) (arguments.value? "title") (arguments.value? "date")
        (arguments.value? "comment") (arguments.value? "repeat")
  | "done" => do return .complete (← (← Arguments.read? [] rest).single?)
  | "delete" => do return .delete (← (← Arguments.read? [] rest).single?)
  | "next-date" => do
      let arguments ← Arguments.read? nextDateForms rest
      guard (arguments.operands = [])
      return .nextDate (← arguments.value? "date") (← arguments.value? "repeat")
        (arguments.value? "now")
  | _ => none

end Command

def AsksVersion (argument : String) : Prop :=
  argument = "--version" ∨ argument.toList.take 2 = ['-', 'V']

instance (argument : String) : Decidable (AsksVersion argument) := by
  unfold AsksVersion
  infer_instance

/-- What the arguments ask for, if they fit a command. -/
def Request.ofArguments? : List String → Option Request
  | [] => none
  | first :: rest =>
      if AsksVersion first then some .version else (Command.ofName? first rest).map .command

end Agenda
