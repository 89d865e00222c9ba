import Agenda.Date.Written
import Agenda.Rule

/-! The next occurrence of a rule, the due dates that follow from it, and the same search in fixed widths,
where an `Overrun` says that an operation that is not checked has no exact result. -/

namespace Agenda.Rule

/-- The number of steps of `interval` days that lead from `start` past `now`; one at least. -/
def dailySteps (interval : Nat) (start now : Date) : Int :=
  if now < start then 1 else (now.dayNumber - start.dayNumber) / interval + 1

def nextDaily (interval : Nat) (start now : Date) : Except RuleError Date :=
  if shortestInterval ≤ interval ∧ interval ≤ longestInterval then
    match start.addDays (dailySteps interval start now * interval) with
    | some date => .ok date
    | none => .error .dateOverflow
  else .error (.outOfRange .interval interval.repr shortestInterval longestInterval)

/-- Tries the start date `years` years later, then one year more at a time. -/
def firstYearAfter (start now : Date) : (tries : Nat) → (years : Int) → Except RuleError Date
  | 0, _ => .error .noOccurrence
  | tries + 1, years =>
      match start.addYears years with
      | none => .error .dateOverflow
      | some candidate =>
          if now < candidate then .ok candidate else firstYearAfter start now tries (years + 1)

/-- The years before that of the reference date cannot lie after it, so the search starts there. -/
def nextYearly (start now : Date) : Except RuleError Date :=
  firstYearAfter start now 3 (max (now.year - start.year) 1)

/-- The first of the next `window` days after `date` that matches the rule. -/
def firstMatch (rule : Rule) : (window : Nat) → (date : Date) → Except RuleError Date
  | 0, _ => .error .noOccurrence
  | window + 1, date =>
      match date.next.writable? with
      | none => .error .dateOverflow
      | some candidate =>
          if rule.Matches candidate then .ok candidate else firstMatch rule window candidate

def commonYear : Int := 2023

/-- Some listed day exists in a listed month of every year: it is counted from the end, or the month is
long enough in a common year. -/
def OccursEveryYear (days : List Int) (months : List Nat) : Prop :=
  ∃ day ∈ days, day < 0 ∨ ∃ month ∈ months, day ≤ lastDayOfMonth commonYear month

instance (days : List Int) (months : List Nat) : Decidable (OccursEveryYear days months) := by
  unfold OccursEveryYear
  infer_instance

/-- A year and a day hold every rule that occurs each year. The 29th of February may be eight years
away. -/
def monthlyWindow (days : List Int) : Option (List Nat) → Nat
  | none => 366
  | some months => if OccursEveryYear days months then 366 else 8 * 366

def nextOccurrence (rule : Rule) (start now : Date) : Except RuleError Date :=
  match rule with
  | .daily interval => nextDaily interval start now
  | .yearly => nextYearly start now
  | .weekly _ => firstMatch rule 7 (Date.latest start now)
  | .monthly days months => firstMatch rule (monthlyWindow days months) (Date.latest start now)

end Agenda.Rule

namespace Agenda

open Text

def readDueDate (text : String) : Except RuleError Date :=
  match Date.ofWritten? text with
  | some date => .ok date
  | none => .error (.invalidStart text)

/-- The next date of a rule after a due date and after `now`. A fault of the date comes before a fault
of the rule. -/
def nextDueDate (now : Date) (due rule : String) : Except RuleError String := do
  let start ← readDueDate due
  let rule ← Rule.read rule
  let next ← rule.nextOccurrence start now
  return next.written

/-- The date that is asked for. No text, blanks alone and the word `today` ask for today. -/
def requestedDate (today : Date) : Option String → Except RuleError Date
  | none => .ok today
  | some text =>
      let text := trimmed text
      if text = "" ∨ text = "today" then .ok today else readDueDate text

/-- Reads the rule of a task, if it has one. A text of blanks is no rule. -/
def readRepeat (text : String) : Except RuleError (Option Rule) :=
  if IsBlankText text then .ok none else return some (← Rule.read text)

/-- The due date for a requested date and a rule text. A date in the past moves to today, or to the next
occurrence if there is a rule. The rule is checked even if the date stays. -/
def resolveDueDate (today : Date) (requested : Option String) (rule : String) :
    Except RuleError String := do
  let date ← requestedDate today requested
  let rule? ← readRepeat rule
  if today ≤ date then return date.written
  match rule? with
  | none => return today.written
  | some rule => return (← rule.nextOccurrence date today).written

/-- Why an operation that is not checked has no exact result. -/
inductive Overrun where
  | beyondWidth
  | zeroDivisor
deriving DecidableEq, Repr

def IsNatural32 (value : Int) : Prop := 0 ≤ value ∧ value ≤ 4294967295

instance (value : Int) : Decidable (IsNatural32 value) := by
  unfold IsNatural32
  infer_instance

/-- The value of an operation that is not checked, if it is one of the integers of its width. -/
def held (IsHeld : Int → Prop) [DecidablePred IsHeld] (value : Int) : Except Overrun Int :=
  if IsHeld value then .ok value else .error .beyondWidth

/-- The quotient is rounded towards zero. -/
def quotient64 (dividend divisor : Int) : Except Overrun Int :=
  if divisor = 0 then .error .zeroDivisor else held IsInteger64 (dividend.tdiv divisor)

def integer64? (value : Int) : Option Int := if IsInteger64 value then some value else none

/-- The integer that has the same 32 bits. -/
def asInteger32 (value : Nat) : Int := (value : Int).bmod 4294967296

/-- The natural number that has the same 32 bits. -/
def asNatural32 (value : Int) : Nat := (value % 4294967296).toNat

namespace Date

/-- The date `count` months later. The month number and the dates are checked, the month and the day within
it are not. -/
def boundedMonths (date : Date) (count : Int) : Except Overrun (Option Date) :=
  match date.monthNumber32? count with
  | none => .ok none
  | some number => do
      let month ← held IsNatural32 (number % 12 + 1)
      match (ofFields? (number / 12) month.toNat 1).bind searchable? with
      | none => return none
      | some first =>
          let rest ← held IsNatural32 (date.day - 1)
          return (ofDayNumber (first.dayNumber + rest)).searchable?.bind writable?

def boundedYears (date : Date) (count : Int) : Except Overrun (Option Date) :=
  match integer32? (count * 12) with
  | none => .ok none
  | some months => date.boundedMonths months

end Date

namespace Rule

def boundedSteps (interval : Nat) (start now : Date) : Except Overrun Int := do
  let elapsed ← held IsInteger64 (now.dayNumber - start.dayNumber)
  if elapsed < 0 then return 1
  let whole ← quotient64 elapsed interval
  held IsInteger64 (whole + 1)

def boundedDaily (interval : Nat) (start now : Date) : Except Overrun (Except RuleError Date) :=
  if shortestInterval ≤ interval ∧ interval ≤ longestInterval then do
    let steps ← boundedSteps interval start now
    match (integer64? (steps * interval)).bind start.addDays64 with
    | some date => return .ok date
    | none => return .error .dateOverflow
  else return .error (.outOfRange .interval interval.repr shortestInterval longestInterval)

def boundedYearAfter (start now : Date) :
    (tries : Nat) → (years : Int) → Except Overrun (Except RuleError Date)
  | 0, _ => return .error .noOccurrence
  | tries + 1, years => do
      match ← start.boundedYears years with
      | none => return .error .dateOverflow
      | some candidate =>
          if now < candidate then return .ok candidate
          let years ← held IsInteger32 (years + 1)
          boundedYearAfter start now tries years

def boundedYearly (start now : Date) : Except Overrun (Except RuleError Date) := do
  let years ← held IsInteger32 (now.year - start.year)
  boundedYearAfter start now 3 (max years 1)

/-- The day code stands for the day of the date, which is taken for an integer with a sign to be compared.
-/
def boundedNames (date : Date) (code : Int) : Except Overrun Bool :=
  if code = lastDay then return date.day = lastDayOfMonth date.year date.month
  else if code = secondToLastDay then do
    let day ← held IsNatural32 (lastDayOfMonth date.year date.month - 1)
    return date.day = day
  else return asInteger32 date.day = code

def boundedMatches (date : Date) : Rule → Except Overrun Bool
  | .weekly weekdays => return date.weekday ∈ weekdays
  | .monthly days months =>
      if AllowsMonth months date.month then days.anyM (boundedNames date) else return false
  | .daily _ | .yearly => return false

/-- Looks at one day, if there is one, and leaves the days after it to `goOn`. -/
def boundedTry (rule : Rule) (now : Date) (goOn : Date → Except Overrun (Except RuleError Date)) :
    Option Date → Except Overrun (Except RuleError Date)
  | none => return .error .dateOverflow
  | some candidate => do
      let falls ← if now < candidate then rule.boundedMatches candidate else pure false
      if falls then return .ok candidate else goOn candidate

def boundedMatch (rule : Rule) (now : Date) :
    (window : Nat) → (date : Date) → Except Overrun (Except RuleError Date)
  | 0, _ => return .error .noOccurrence
  | window + 1, date => boundedTry rule now (boundedMatch rule now window) (date.addDays64 1)

/-- As `OccursEveryYear`, where a day that is not negative is taken for a natural number. -/
def BoundedEveryYear (days : List Int) (months : List Nat) : Prop :=
  ∃ day ∈ days, day < 0 ∨ ∃ month ∈ months, asNatural32 day ≤ lastDayOfMonth commonYear month

instance (days : List Int) (months : List Nat) : Decidable (BoundedEveryYear days months) := by
  unfold BoundedEveryYear
  infer_instance

def boundedWindow (days : List Int) : Option (List Nat) → Nat
  | none => 366
  | some months => if BoundedEveryYear days months then 366 else 8 * 366

/-- The first occurrence of the rule that lies after `start` and after `now`, in fixed widths. -/
def boundedOccurrence (rule : Rule) (start now : Date) : Except Overrun (Except RuleError Date) :=
  match rule with
  | .daily interval => boundedDaily interval start now
  | .yearly => boundedYearly start now
  | .weekly _ => boundedMatch rule now 7 (Date.latest start now)
  | .monthly days months => boundedMatch rule now (boundedWindow days months) (Date.latest start now)

end Rule

end Agenda
