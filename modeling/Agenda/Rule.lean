import Agenda.Date.Basic
import Agenda.Text

/-! Repeat rules, their texts and their words. The numbers of a `Rule` are codes as they stand in its text,
and a code that names no day never matches a date. A list is read from left to right, and its first item
that is refused decides the fault. -/

namespace Agenda

inductive Rule where
  | daily (interval : Nat)
  | yearly
  /-- On weekdays, from 0 for Sunday to 6 for Saturday. -/
  | weekly (weekdays : List Nat)
  /-- On days of the month, where -1 is the last day and -2 the one before it. With a list of months,
  in those months only. -/
  | monthly (days : List Int) (months : Option (List Nat))
deriving DecidableEq, Repr

namespace Rule

/-- The smallest and the largest interval of a daily rule. -/
def shortestInterval : Nat := 1

def longestInterval : Nat := 400

def lastDay : Int := -1

/-- The code of the day before the last day of a month. -/
def secondToLastDay : Int := -2

/-- The day code stands for the day of the date within its month. -/
def NamesDay (code : Int) (date : Date) : Prop :=
  if code = lastDay then date.day = lastDayOfMonth date.year date.month
  else if code = secondToLastDay then date.day = lastDayOfMonth date.year date.month - 1
  else (date.day : Int) = code

instance (code : Int) (date : Date) : Decidable (NamesDay code date) := by
  unfold NamesDay
  infer_instance

/-- The month of the date is listed, or there is no list of months. -/
def AllowsMonth (months : Option (List Nat)) (month : Nat) : Prop :=
  ∀ listed, months = some listed → month ∈ listed

instance (months : Option (List Nat)) (month : Nat) : Decidable (AllowsMonth months month) :=
  match months with
  | none => isTrue (by intro listed none_eq; cases none_eq)
  | some listed => decidable_of_iff (month ∈ listed) (by simp [AllowsMonth])

/-- The date is a day of the rule. Rules that count from a start date match no date by itself. -/
def Matches (date : Date) : Rule → Prop
  | .weekly weekdays => date.weekday ∈ weekdays
  | .monthly days months => AllowsMonth months date.month ∧ ∃ code ∈ days, NamesDay code date
  | .daily _ | .yearly => False

instance (date : Date) (rule : Rule) : Decidable (rule.Matches date) := by
  cases rule <;> unfold Matches <;> infer_instance

/-- The most days a month has in any year. -/
def longestMonthLength : Nat → Nat
  | 2 => 29
  | 4 | 6 | 9 | 11 => 30
  | _ => 31

/-- Some listed day exists in some listed month. A day counted from the end exists in every month. -/
def Satisfiable (days : List Int) (months : List Nat) : Prop :=
  ∃ day ∈ days, day < 0 ∨ ∃ month ∈ months, day ≤ longestMonthLength month

instance (days : List Int) (months : List Nat) : Decidable (Satisfiable days months) := by
  unfold Satisfiable
  infer_instance

/-- The rules that a text expresses: intervals within bounds, lists that are not empty and repeat
nothing, weekdays and months in ascending order, and months in which some listed day exists. -/
def Valid : Rule → Prop
  | .daily interval => shortestInterval ≤ interval ∧ interval ≤ longestInterval
  | .yearly => True
  | .weekly weekdays =>
      weekdays ≠ [] ∧ weekdays.Pairwise (· < ·) ∧ ∀ weekday ∈ weekdays, weekday ≤ 6
  | .monthly days months =>
      days ≠ [] ∧ days.Nodup ∧ (∀ day ∈ days, -2 ≤ day ∧ day ≤ 31 ∧ day ≠ 0) ∧
        ∀ listed, months = some listed →
          listed ≠ [] ∧ listed.Pairwise (· < ·) ∧ (∀ month ∈ listed, 1 ≤ month ∧ month ≤ 12) ∧
            Satisfiable days listed

end Rule

inductive RuleField where
  | rule
  | interval
  | weekday
  | dayOfMonth
  | month
deriving DecidableEq, Repr

def RuleField.name : RuleField → String
  | .rule => "rule"
  | .interval => "interval"
  | .weekday => "weekday"
  | .dayOfMonth => "day of month"
  | .month => "month"

inductive Malformation where
  | yearlyArguments
  | dailyArguments
  | weeklyArguments
  | monthlyArguments
  | notInteger (item : String)
  | emptyItem (list : String)
  | dayZero
deriving DecidableEq, Repr

def Malformation.reason : Malformation → String
  | .yearlyArguments => "rule 'y' takes no arguments"
  | .dailyArguments => "rule 'd' requires exactly one numeric value"
  | .weeklyArguments => "rule 'w' requires one comma-separated list of weekdays"
  | .monthlyArguments => "rule 'm' requires a list of days and an optional list of months"
  | .notInteger item => s!"'{item}' is not an integer"
  | .emptyItem list => s!"empty element in list '{list}'"
  | .dayZero => "0 is not a day; use 1-31, -1 for the last day or -2 for the one before"

/-- Why a date or a rule is refused, or has no next date. -/
inductive RuleError where
  | invalidStart (text : String)
  | emptyRule
  | unknownKind (kind : String)
  | malformed (field : RuleField) (malformation : Malformation)
  | outOfRange (field : RuleField) (value : String) (low high : Int)
  | unsatisfiable (days : List Int) (months : List Nat)
  /-- The days that are searched hold no occurrence. -/
  | noOccurrence
  /-- The next date lies beyond the writable years. -/
  | dateOverflow
deriving DecidableEq, Repr

private def bracketed (numbers : List String) : String := "[" ++ ", ".intercalate numbers ++ "]"

def RuleError.message : RuleError → String
  | .invalidStart text => s!"invalid start date '{text}': expected YYYYMMDD"
  | .emptyRule => "repeat rule is empty"
  | .unknownKind kind => s!"unknown repeat rule kind '{kind}' (expected d, y, w or m)"
  | .malformed field malformation => s!"malformed {field.name}: {malformation.reason}"
  | .outOfRange field value low high =>
      s!"{field.name} must be in range [{low}, {high}]: got {value}"
  | .unsatisfiable days months =>
      "no listed day of month exists in the listed months (days " ++ bracketed (days.map Int.repr) ++
        ", months " ++ bracketed (months.map Nat.repr) ++ ")"
  | .noOccurrence => "no occurrence found within the search window"
  | .dateOverflow => "date arithmetic overflowed the supported calendar range"

namespace Rule

open Text

/-- Reads one number of a rule and holds it against its bounds. A number beyond 64 bits is out of
range as well. -/
def readNumber (field : RuleField) (low high : Int) (item : List Char) : Except RuleError Int :=
  match readInteger item with
  | .ok value =>
      if low ≤ value ∧ value ≤ high then .ok value
      else .error (.outOfRange field (String.ofList item) low high)
  | .error .tooLarge | .error .tooSmall =>
      .error (.outOfRange field (String.ofList item) low high)
  | .error .empty | .error .badDigit =>
      .error (.malformed field (.notInteger (String.ofList item)))

def readNumbers (field : RuleField) (low high : Int) (list : List Char) :
    Except RuleError (List Int) :=
  (list.splitOn ',').mapM fun item =>
    if item = [] then .error (.malformed field (.emptyItem (String.ofList list)))
    else readNumber field low high item

def ascending (bound : Nat) (numbers : List Nat) : List Nat :=
  (List.range bound).filter (· ∈ numbers)

def readDaily : List (List Char) → Except RuleError Rule
  | [interval] => do
      let days ← readNumber .interval shortestInterval longestInterval interval
      return .daily days.toNat
  | _ => .error (.malformed .rule .dailyArguments)

def readYearly : List (List Char) → Except RuleError Rule
  | [] => .ok .yearly
  | _ => .error (.malformed .rule .yearlyArguments)

/-- Sunday, the seventh weekday of a rule text, is weekday 0 of the rule. -/
def readWeekly : List (List Char) → Except RuleError Rule
  | [list] => do
      let weekdays ← readNumbers .weekday 1 7 list
      return .weekly (ascending 7 (weekdays.map fun weekday => weekday.toNat % 7))
  | _ => .error (.malformed .rule .weeklyArguments)

/-- Reads a list of days of the month. Each day is kept where it appears first. -/
def readDays (list : List Char) : Except RuleError (List Int) := do
  let days ← readNumbers .dayOfMonth secondToLastDay 31 list
  if 0 ∈ days then throw (.malformed .dayOfMonth .dayZero)
  return days.eraseDups

/-- Reads a list of months, and refuses it if none of the days exists in any of them. -/
def readMonths (days : List Int) (list : List Char) : Except RuleError (List Nat) := do
  let numbers ← readNumbers .month 1 12 list
  let months := ascending 13 (numbers.map Int.toNat)
  if Satisfiable days months then return months
  throw (.unsatisfiable days months)

def readMonthly : List (List Char) → Except RuleError Rule
  | [days] => do
      let days ← readDays days
      return .monthly days none
  | [days, months] => do
      let days ← readDays days
      let months ← readMonths days months
      return .monthly days (some months)
  | _ => .error (.malformed .rule .monthlyArguments)

def ofWords : List (List Char) → Except RuleError Rule
  | [] => .error .emptyRule
  | ['d'] :: arguments => readDaily arguments
  | ['y'] :: arguments => readYearly arguments
  | ['w'] :: arguments => readWeekly arguments
  | ['m'] :: arguments => readMonthly arguments
  | kind :: _ => .error (.unknownKind (String.ofList kind))

def read (text : String) : Except RuleError Rule := ofWords (words text.toList)

def weekdayNames : List String := ["Sun", "Mon", "Tue", "Wed", "Thu", "Fri", "Sat"]

def monthNames : List String :=
  ["Jan", "Feb", "Mar", "Apr", "May", "Jun", "Jul", "Aug", "Sep", "Oct", "Nov", "Dec"]

def describeWeekday (weekday : Nat) : String := weekdayNames[weekday]?.getD weekday.repr

/-- Months are counted from 1, so 0 has no name. -/
def describeMonth : Nat → String
  | 0 => "0"
  | month + 1 => monthNames[month]?.getD (month + 1).repr

def describeDay (day : Int) : String :=
  if day = lastDay then "last day"
  else if day = secondToLastDay then "second-to-last day"
  else "day " ++ day.repr

def enumerate (parts : List String) : String := ", ".intercalate parts

def description : Rule → String
  | .daily 1 => "every day"
  | .daily interval => "every " ++ interval.repr ++ " days"
  | .yearly => "every year"
  | .weekly weekdays => "weekly on " ++ enumerate (weekdays.map describeWeekday)
  | .monthly days none => "monthly on " ++ enumerate (days.map describeDay)
  | .monthly days (some months) =>
      "monthly on " ++ enumerate (days.map describeDay) ++ " in " ++
        enumerate (months.map describeMonth)

def writtenList (parts : List String) : String := ",".intercalate parts

/-- In a rule text Sunday is the seventh weekday. -/
def writtenWeekday (weekday : Nat) : String := if weekday = 0 then "7" else weekday.repr

/-- The rule as a rule text, with its numbers in the order of the rule. -/
def written : Rule → String
  | .daily interval => "d " ++ interval.repr
  | .yearly => "y"
  | .weekly weekdays => "w " ++ writtenList (weekdays.map writtenWeekday)
  | .monthly days none => "m " ++ writtenList (days.map Int.repr)
  | .monthly days (some months) =>
      "m " ++ writtenList (days.map Int.repr) ++ " " ++ writtenList (months.map Nat.repr)

end Rule

end Agenda
