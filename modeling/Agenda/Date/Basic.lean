/-! Days of the Gregorian calendar, which goes on without a break into the past and the future. The bounds
on the fields of a `Date` are part of the type. Stepping from day to day (`Date.next`) and counting days
(`Date.dayNumber`) are defined apart, and `dayNumber_next` brings them together. -/

namespace Agenda

/-- A leap year is divisible by four but not by a hundred, or divisible by four hundred. -/
def IsLeapYear (year : Int) : Prop :=
  (year % 4 = 0 ∧ year % 100 ≠ 0) ∨ year % 400 = 0

instance (year : Int) : Decidable (IsLeapYear year) := by
  unfold IsLeapYear
  infer_instance

/-- The number of days in a month. A number that is no month counts as a month of 31 days. -/
def monthLength (year : Int) : Nat → Nat
  | 2 => if IsLeapYear year then 29 else 28
  | 4 | 6 | 9 | 11 => 30
  | _ => 31

/-- The test for leap years as it is calculated, with remainders that have the sign of the year. -/
def TestsAsLeap (year : Int) : Prop :=
  (year.tmod 4 = 0 ∧ year.tmod 100 ≠ 0) ∨ year.tmod 400 = 0

instance (year : Int) : Decidable (TestsAsLeap year) := by
  unfold TestsAsLeap
  infer_instance

theorem testsAsLeap_iff {year : Int} : TestsAsLeap year ↔ IsLeapYear year := by
  simp only [TestsAsLeap, IsLeapYear, ne_eq, ← Int.dvd_iff_tmod_eq_zero, Int.dvd_iff_emod_eq_zero]

/-- The last day of a month as it is calculated, for every number. -/
def lastDayOfMonth (year : Int) : Nat → Nat
  | 1 | 3 | 5 | 7 | 8 | 10 | 12 => 31
  | 4 | 6 | 9 | 11 => 30
  | 2 => if TestsAsLeap year then 29 else 28
  | _ => 31

theorem lastDayOfMonth_eq (year : Int) (month : Nat) :
    lastDayOfMonth year month = monthLength year month := by
  unfold lastDayOfMonth
  split
  case h_12 => simp only [testsAsLeap_iff, monthLength]
  case h_13 => simp only [monthLength]
  all_goals rfl

theorem monthLength_pos (year : Int) (month : Nat) : 1 ≤ monthLength year month := by
  unfold monthLength
  split
  · split <;> decide
  all_goals decide

theorem monthLength_le (year : Int) (month : Nat) : monthLength year month ≤ 31 := by
  unfold monthLength
  split
  · split <;> decide
  all_goals decide

theorem le_monthLength (year : Int) (month : Nat) : 28 ≤ monthLength year month := by
  unfold monthLength
  split
  · split <;> decide
  all_goals decide

structure Date where
  year : Int
  /-- From 1 for January to 12 for December. -/
  month : Nat
  day : Nat
  one_le_month : 1 ≤ month := by omega
  month_le : month ≤ 12 := by omega
  one_le_day : 1 ≤ day := by omega
  day_le : day ≤ monthLength year month
deriving DecidableEq, Repr

namespace Date

def ofFields? (year : Int) (month day : Nat) : Option Date :=
  if valid : (1 ≤ month ∧ month ≤ 12) ∧ 1 ≤ day ∧ day ≤ monthLength year month then
    some ⟨year, month, day, valid.1.1, valid.1.2, valid.2.1, valid.2.2⟩
  else none

theorem ofFields?_eq_some_iff {year : Int} {month day : Nat} {date : Date} :
    ofFields? year month day = some date ↔
      date.year = year ∧ date.month = month ∧ date.day = day := by
  obtain ⟨y, m, d, monthPos, monthLe, dayPos, dayLe⟩ := date
  unfold ofFields?
  split
  · simp only [Option.some.injEq, Date.mk.injEq, eq_comm]
  · rename_i invalid
    simp only [reduceCtorEq, false_iff]
    rintro ⟨rfl, rfl, rfl⟩
    exact invalid ⟨⟨monthPos, monthLe⟩, dayPos, dayLe⟩

/-- Earlier in the calendar: years decide first, then months, then days. -/
instance : LT Date where
  lt a b := a.year < b.year ∨ a.year = b.year ∧ (a.month < b.month ∨ a.month = b.month ∧ a.day < b.day)

instance : LE Date where
  le a b := ¬ b < a

theorem lt_iff {a b : Date} : a < b ↔
    a.year < b.year ∨ a.year = b.year ∧ (a.month < b.month ∨ a.month = b.month ∧ a.day < b.day) :=
  Iff.rfl

theorem le_iff {a b : Date} : a ≤ b ↔ ¬ b < a := Iff.rfl

instance (a b : Date) : Decidable (a < b) := decidable_of_iff' _ lt_iff

instance (a b : Date) : Decidable (a ≤ b) := decidable_of_iff' _ le_iff

def latest (a b : Date) : Date := if a < b then b else a

/-- Dates of the years 0 to 9999, which are written with eight digits. -/
def Writable (date : Date) : Prop := 0 ≤ date.year ∧ date.year ≤ 9999

instance (date : Date) : Decidable date.Writable := by
  unfold Writable
  infer_instance

/-- The date itself if it is writable. Calculations give up on any other. -/
def writable? (date : Date) : Option Date := if date.Writable then some date else none

def firstOf (year : Int) (month : Nat) (one_le_month : 1 ≤ month) (month_le : month ≤ 12) : Date where
  year := year
  month := month
  day := 1
  day_le := monthLength_pos year month

/-- The day after: within the month, else the first of the next month, else the first of January. -/
def next (date : Date) : Date :=
  if dayLt : date.day < lastDayOfMonth date.year date.month then
    { date with
      day := date.day + 1
      one_le_day := by omega
      day_le := lastDayOfMonth_eq date.year date.month ▸ dayLt }
  else if monthLt : date.month < 12 then
    firstOf date.year (date.month + 1) (by omega) monthLt
  else firstOf (date.year + 1) 1 (by decide) (by decide)

end Date

def yearLength (year : Int) : Nat := if IsLeapYear year then 366 else 365

/-- The days from the start of the year 0 to the start of `year`: 365 for each year and one more for
each leap year between them. -/
def daysBeforeYear (year : Int) : Int :=
  365 * year + (year + 3) / 4 - (year + 99) / 100 + (year + 399) / 400

/-- The days of `year` that lie before the given month. -/
def daysBeforeMonth (year : Int) : Nat → Nat
  | 0 | 1 => 0
  | month + 2 => daysBeforeMonth year (month + 1) + monthLength year (month + 1)

theorem daysBeforeYear_succ (year : Int) :
    daysBeforeYear (year + 1) = daysBeforeYear year + yearLength year := by
  unfold yearLength daysBeforeYear
  by_cases leap : IsLeapYear year
  · simp only [leap, if_true]
    unfold IsLeapYear at leap
    omega
  · simp only [leap, if_false]
    unfold IsLeapYear at leap
    omega

theorem daysBeforeMonth_succ (year : Int) {month : Nat} (one_le_month : 1 ≤ month) :
    daysBeforeMonth year (month + 1) = daysBeforeMonth year month + monthLength year month := by
  cases month with
  | zero => omega
  | succ month => rfl

theorem daysBeforeMonth_thirteen (year : Int) : daysBeforeMonth year 13 = yearLength year := by
  simp only [daysBeforeMonth, monthLength, yearLength]
  split <;> rfl

theorem daysBeforeMonth_le {year : Int} {earlier later : Nat} (ordered : earlier ≤ later) :
    daysBeforeMonth year earlier ≤ daysBeforeMonth year later := by
  induction later with
  | zero =>
      have : earlier = 0 := by omega
      subst this
      exact Nat.le_refl _
  | succ later ih =>
      cases later with
      | zero =>
          have : earlier = 0 ∨ earlier = 1 := by omega
          rcases this with rfl | rfl <;> exact Nat.le_refl _
      | succ later =>
          have step : daysBeforeMonth year (later + 1) ≤ daysBeforeMonth year (later + 2) := by
            simp only [daysBeforeMonth]
            omega
          rcases Nat.lt_or_eq_of_le ordered with before | rfl
          · exact Nat.le_trans (ih (by omega)) step
          · exact Nat.le_refl _

namespace Date

/-- How many days lie between the first of January of the year 0 and the date; negative before it. -/
def dayNumber (date : Date) : Int :=
  daysBeforeYear date.year + daysBeforeMonth date.year date.month + (date.day - 1)

/-- The day of the week, from 0 for Sunday to 6 for Saturday. The calendar starts on a Saturday. -/
def weekday (date : Date) : Nat := ((date.dayNumber + 6) % 7).toNat

/-- The month and the day that lie `rest` days after the first of the month which has `later` months
after it in its year. Days beyond the end of the year count as its last day. -/
def monthAndDay (year : Int) : (later rest : Nat) → Nat × Nat
  | 0, rest => (12, min rest 30 + 1)
  | later + 1, rest =>
      if rest < monthLength year (12 - (later + 1)) then (12 - (later + 1), rest + 1)
      else monthAndDay year later (rest - monthLength year (12 - (later + 1)))

theorem monthAndDay_valid (year : Int) (later rest : Nat) (bound : later < 12) :
    (1 ≤ (monthAndDay year later rest).1 ∧ (monthAndDay year later rest).1 ≤ 12) ∧
      1 ≤ (monthAndDay year later rest).2 ∧
      (monthAndDay year later rest).2 ≤ monthLength year (monthAndDay year later rest).1 := by
  induction later generalizing rest with
  | zero =>
      simp only [monthAndDay, monthLength]
      omega
  | succ later ih =>
      unfold monthAndDay
      split
      · simp only
        omega
      · exact ih _ (by omega)

theorem monthAndDay_year_valid (year : Int) (rest : Nat) :
    (1 ≤ (monthAndDay year 11 rest).1 ∧ (monthAndDay year 11 rest).1 ≤ 12) ∧
      1 ≤ (monthAndDay year 11 rest).2 ∧
      (monthAndDay year 11 rest).2 ≤ monthLength year (monthAndDay year 11 rest).1 :=
  monthAndDay_valid year 11 rest (by decide)

def ofDayOfYear (year : Int) (rest : Nat) : Date where
  year := year
  month := (monthAndDay year 11 rest).1
  day := (monthAndDay year 11 rest).2
  one_le_month := (monthAndDay_year_valid year rest).1.1
  month_le := (monthAndDay_year_valid year rest).1.2
  one_le_day := (monthAndDay_year_valid year rest).2.1
  day_le := (monthAndDay_year_valid year rest).2.2

/-- The year that holds the day with the given number. The mean length of a year gives it within one
year, and comparing with the starts of the years settles which. -/
def yearOfDayNumber (number : Int) : Int :=
  let guess := 400 * number / 146097
  if number < daysBeforeYear guess then guess - 1
  else if daysBeforeYear (guess + 1) ≤ number then guess + 1
  else guess

def ofDayNumber (number : Int) : Date :=
  let year := yearOfDayNumber number
  ofDayOfYear year (number - daysBeforeYear year).toNat

theorem yearOfDayNumber_bounds (number : Int) :
    daysBeforeYear (yearOfDayNumber number) ≤ number ∧
      number < daysBeforeYear (yearOfDayNumber number + 1) := by
  have near : 400 * number / 146097 * 146097 ≤ 400 * number ∧
      400 * number < (400 * number / 146097 + 1) * 146097 := by omega
  simp only [yearOfDayNumber]
  generalize 400 * number / 146097 = guess at near
  split
  · rw [Int.sub_add_cancel]
    simp only [daysBeforeYear] at *
    omega
  · split
    · simp only [daysBeforeYear] at *
      omega
    · omega

theorem monthAndDay_days (year : Int) (later rest : Nat) (bound : later < 12)
    (within : daysBeforeMonth year (12 - later) + rest < yearLength year) :
    daysBeforeMonth year (monthAndDay year later rest).1 + ((monthAndDay year later rest).2 - 1) =
      daysBeforeMonth year (12 - later) + rest := by
  induction later generalizing rest with
  | zero =>
      have december := daysBeforeMonth_succ year (show 1 ≤ 12 by decide)
      have full := daysBeforeMonth_thirteen year
      have length : monthLength year 12 = 31 := rfl
      simp only [monthAndDay, Nat.sub_zero, Nat.reduceAdd] at *
      omega
  | succ later ih =>
      have nextMonth : 12 - later = 12 - (later + 1) + 1 := by omega
      have start := daysBeforeMonth_succ year (show 1 ≤ 12 - (later + 1) by omega)
      rw [← nextMonth] at start
      unfold monthAndDay
      split
      · simp only
        omega
      · rw [ih _ (by omega) (by omega)]
        omega

theorem dayNumber_ofDayOfYear (year : Int) (rest : Nat) (within : rest < yearLength year) :
    (ofDayOfYear year rest).dayNumber = daysBeforeYear year + rest := by
  have january : daysBeforeMonth year 1 = 0 := rfl
  have days := monthAndDay_days year 11 rest (by decide) (by simp only [Nat.reduceSub]; omega)
  have pos := (monthAndDay_year_valid year rest).2.1
  simp only [ofDayOfYear, dayNumber, Nat.reduceSub] at *
  omega

theorem dayNumber_ofDayNumber (number : Int) : (ofDayNumber number).dayNumber = number := by
  have bounds := yearOfDayNumber_bounds number
  rw [daysBeforeYear_succ] at bounds
  simp only [ofDayNumber]
  rw [dayNumber_ofDayOfYear]
  · omega
  · omega

theorem dayNumber_bounds (date : Date) :
    daysBeforeYear date.year ≤ date.dayNumber ∧
      date.dayNumber < daysBeforeYear date.year + yearLength date.year := by
  have pos := date.one_le_day
  have le := date.day_le
  have month := daysBeforeMonth_succ date.year date.one_le_month
  have inYear : daysBeforeMonth date.year (date.month + 1) ≤ yearLength date.year := by
    rw [← daysBeforeMonth_thirteen]
    exact daysBeforeMonth_le (Nat.succ_le_succ date.month_le)
  simp only [dayNumber]
  omega

theorem daysBeforeYear_mono {earlier later : Int} (ordered : earlier ≤ later) :
    daysBeforeYear earlier ≤ daysBeforeYear later := by
  unfold daysBeforeYear
  omega

theorem dayNumber_lt_of_lt {a b : Date} (earlier : a < b) : a.dayNumber < b.dayNumber := by
  rcases lt_iff.mp earlier with years | ⟨years, months | ⟨months, days⟩⟩
  · have := (dayNumber_bounds a).2
    have := (dayNumber_bounds b).1
    have := daysBeforeYear_mono (show a.year + 1 ≤ b.year by omega)
    rw [daysBeforeYear_succ] at this
    omega
  · have start := daysBeforeMonth_succ a.year a.one_le_month
    have : daysBeforeMonth a.year (a.month + 1) ≤ daysBeforeMonth a.year b.month :=
      daysBeforeMonth_le months
    have := a.day_le
    have := b.one_le_day
    simp only [dayNumber, years] at *
    omega
  · simp only [dayNumber, years, months]
    omega

theorem eq_of_not_lt {a b : Date} (notBefore : ¬ a < b) (notAfter : ¬ b < a) : a = b := by
  obtain ⟨y, m, d, _, _, _, _⟩ := a
  obtain ⟨y', m', d', _, _, _, _⟩ := b
  simp only [lt_iff] at *
  have years : y = y' := by omega
  have months : m = m' := by omega
  have days : d = d' := by omega
  subst years months days
  rfl

/-- The order of dates is the order of their numbers. -/
theorem dayNumber_lt_iff {a b : Date} : a.dayNumber < b.dayNumber ↔ a < b := by
  constructor
  · intro less
    by_cases earlier : a < b
    · exact earlier
    · by_cases later : b < a
      · have := dayNumber_lt_of_lt later
        omega
      · rw [eq_of_not_lt earlier later] at less
        omega
  · exact dayNumber_lt_of_lt

theorem dayNumber_inj {a b : Date} : a.dayNumber = b.dayNumber ↔ a = b := by
  constructor
  · intro same
    apply eq_of_not_lt <;> rw [← dayNumber_lt_iff] <;> omega
  · rintro rfl
    rfl

theorem ofDayNumber_dayNumber (date : Date) : ofDayNumber date.dayNumber = date :=
  dayNumber_inj.mp (dayNumber_ofDayNumber _)

/-- The day after has the next number. -/
theorem dayNumber_next (date : Date) : date.next.dayNumber = date.dayNumber + 1 := by
  have pos := date.one_le_day
  have le := date.day_le
  unfold next
  split
  · simp only [dayNumber]
    omega
  · rename_i last
    have start := daysBeforeMonth_succ date.year date.one_le_month
    rw [lastDayOfMonth_eq] at last
    split
    · simp only [dayNumber, firstOf]
      omega
    · have december : date.month = 12 := by
        have := date.month_le
        omega
      have full := daysBeforeMonth_thirteen date.year
      have year := daysBeforeYear_succ date.year
      have january : daysBeforeMonth (date.year + 1) 1 = 0 := rfl
      rw [december] at start le
      simp only [Nat.reduceAdd] at start
      simp only [dayNumber, firstOf, december] at *
      omega

/-- The date `count` days later, or earlier if `count` is negative. -/
def addDays (date : Date) (count : Int) : Option Date :=
  (ofDayNumber (date.dayNumber + count)).writable?

/-- The number of months from January of the year 0 to the month of the date. -/
def monthNumber (date : Date) : Int := 12 * date.year + (date.month - 1)

def firstOfMonthNumber (number : Int) : Date :=
  firstOf (number / 12) ((number % 12).toNat + 1) (by omega) (by omega)

/-- The date `count` months later, with days beyond the end of the month in the next one. -/
def addMonths (date : Date) (count : Int) : Option Date :=
  (ofDayNumber ((firstOfMonthNumber (date.monthNumber + count)).dayNumber + (date.day - 1))).writable?

def addYears (date : Date) (count : Int) : Option Date := date.addMonths (12 * count)

end Date

end Agenda
