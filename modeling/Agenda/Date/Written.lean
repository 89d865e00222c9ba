import Agenda.Date.Basic
import Agenda.Text

/-! Dates in text, and moves of a date in 32 and 64 bits, where every sum, every product and every date on
the way is checked. -/

namespace Agenda.Date

open Text

def writtenYear (year : Int) : List Char :=
  if 0 ≤ year ∧ year ≤ 9999 then padded 4 year.toNat
  else (if year < 0 then '-' else '+') :: padded 4 year.natAbs

/-- The written form: year, month and day with nothing between them. -/
def written (date : Date) : String :=
  String.ofList (writtenYear date.year ++ padded 2 date.month ++ padded 2 date.day)

def hyphenated (date : Date) : String :=
  String.ofList (writtenYear date.year ++ '-' :: padded 2 date.month ++ '-' :: padded 2 date.day)

def ofDigits? (chars : List Char) : Option Date :=
  if chars.length = 8 ∧ chars.all Char.isDigit then
    ofFields? (digitsValue (chars.take 4)) (digitsValue ((chars.drop 4).take 2))
      (digitsValue (chars.drop 6))
  else none

/-- The date with the given written form, if there is one. -/
def ofWritten? (text : String) : Option Date := ofDigits? text.toList

/-- The years that a search may name. -/
def SearchableYear (year : Int) : Prop := -262143 ≤ year ∧ year ≤ 262142

instance (year : Int) : Decidable (SearchableYear year) := by
  unfold SearchableYear
  infer_instance

/-- Takes a number of one to `most` digits off the front, after any blanks. -/
def takeNumber? (most : Nat) (chars : List Char) : Option (Nat × List Char) :=
  let start := trimStart chars
  let digits := (start.take most).takeWhile Char.isDigit
  if digits = [] then none else some (digitsValue digits, start.drop digits.length)

/-- Takes a year off the front, after any blanks: up to four digits, or a sign and any number of
digits. -/
def takeYear? (chars : List Char) : Option (Int × List Char) :=
  match trimStart chars with
  | '-' :: rest => do
      let digits := rest.takeWhile Char.isDigit
      if digits = [] then none else some (-(digitsValue digits : Int), rest.drop digits.length)
  | '+' :: rest => do
      let digits := rest.takeWhile Char.isDigit
      if digits = [] then none else some (digitsValue digits, rest.drop digits.length)
  | start => do
      let (year, rest) ← takeNumber? 4 start
      return (year, rest)

/-- Reads day, month and year with a dot right after each of the first two and nothing after the
year. -/
def ofDotted? (chars : List Char) : Option Date := do
  let (day, '.' :: afterDay) ← takeNumber? 2 chars | none
  let (month, '.' :: afterMonth) ← takeNumber? 2 afterDay | none
  let (year, []) ← takeYear? afterMonth | none
  if SearchableYear year then ofFields? year month day else none

/-- The date that a search term names: a written date, or one with dots. -/
def ofSearch? (text : String) : Option Date :=
  let chars := trim text.toList
  (ofDigits? chars).or (ofDotted? chars)

end Agenda.Date

namespace Agenda

def IsInteger32 (value : Int) : Prop := -2147483648 ≤ value ∧ value ≤ 2147483647

instance (value : Int) : Decidable (IsInteger32 value) := by
  unfold IsInteger32
  infer_instance

/-- The value of a checked operation, if 32 bits hold it. -/
def integer32? (value : Int) : Option Int := if IsInteger32 value then some value else none

namespace Date

/-- The date of a checked operation. The calendar has no other years than those that a search may name. -/
def searchable? (date : Date) : Option Date := if SearchableYear date.year then some date else none

/-- The date `count` days later, or earlier if `count` is negative. The least integer has a distance too,
since this number has no sign. -/
def addDays64 (date : Date) (count : Int) : Option Date := do
  let distance := count.natAbs
  let number := if 0 ≤ count then date.dayNumber + distance else date.dayNumber - distance
  let found ← (ofDayNumber number).searchable?
  found.writable?

def monthNumber32? (date : Date) (count : Int) : Option Int := do
  let january ← integer32? (date.year * 12)
  let month ← integer32? (january + (date.month - 1))
  integer32? (month + count)

def addMonths32 (date : Date) (count : Int) : Option Date := do
  let first ← (firstOfMonthNumber (← date.monthNumber32? count)).searchable?
  let found ← (ofDayNumber (first.dayNumber + (date.day - 1))).searchable?
  found.writable?

def addYears32 (date : Date) (count : Int) : Option Date := do
  date.addMonths32 (← integer32? (count * 12))

end Date

end Agenda
