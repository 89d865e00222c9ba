import Agenda.Proofs.Date.Order

namespace Agenda.Date

variable {date found : Date} {count : Int}

def IsLeapDay (date : Date) : Prop := date.month = 2 ∧ date.day = 29

instance (date : Date) : Decidable date.IsLeapDay := by
  unfold IsLeapDay
  infer_instance

theorem IsLeapDay.leapYear (leapDay : date.IsLeapDay) : IsLeapYear date.year := by
  have fits := date.day_le
  rw [leapDay.1, leapDay.2, monthLength_february] at fits
  split at fits
  · assumption
  · omega

theorem day_le_of_not_isLeapDay (ordinary : ¬ date.IsLeapDay) (year : Int) :
    date.day ≤ monthLength year date.month := by
  have fits := date.day_le
  by_cases february : date.month = 2
  · have short := le_monthLength year date.month
    have notLast : date.day ≠ 29 := fun last => ordinary ⟨february, last⟩
    rw [february, monthLength_february] at fits
    split at fits <;> omega
  · rw [monthLength_of_ne_two february year date.year]
    exact fits

theorem eq_of_fields {other : Date} (year : date.year = other.year) (month : date.month = other.month)
    (day : date.day = other.day) : date = other := by
  cases date
  cases other
  cases year
  cases month
  cases day
  rfl

/-- The day with the same month and number in another year. -/
def inYear (date : Date) (year : Int) (fits : date.day ≤ monthLength year date.month) : Date :=
  { date with year := year, day_le := fits }

theorem firstOfMonthNumber_add_years (date : Date) (count : Int) :
    firstOfMonthNumber (date.monthNumber + 12 * count) =
      firstOf (date.year + count) date.month date.one_le_month date.month_le := by
  have pos := date.one_le_month
  have le := date.month_le
  have year : (date.monthNumber + 12 * count) / 12 = date.year + count := by
    simp only [monthNumber]
    omega
  have month : ((date.monthNumber + 12 * count) % 12).toNat + 1 = date.month := by
    simp only [monthNumber]
    omega
  simp only [firstOfMonthNumber, year, month]

/-- The date that lies `count` years later, where the days are counted on from the first of the month that
is reached. It may lie beyond the writable years. -/
def yearsLater (date : Date) (count : Int) : Date :=
  ofDayNumber (daysBeforeYear (date.year + count) + daysBeforeMonth (date.year + count) date.month +
    (date.day - 1))

theorem addYears_eq (date : Date) (count : Int) :
    date.addYears count = (date.yearsLater count).writable? := by
  rw [addYears, addMonths, firstOfMonthNumber_add_years]
  simp [yearsLater, dayNumber, firstOf]

theorem yearsLater_eq_inYear (fits : date.day ≤ monthLength (date.year + count) date.month) :
    date.yearsLater count = date.inYear (date.year + count) fits :=
  ofDayNumber_dayNumber (date.inYear (date.year + count) fits)

def firstOfMarch (year : Int) : Date := firstOf year 3 (by decide) (by decide)

theorem dayNumber_firstOfMarch (year : Int) :
    (firstOfMarch year).dayNumber = daysBeforeYear year + 31 + monthLength year 2 := by
  have march := daysBeforeMonth_succ year (show 1 ≤ 2 by decide)
  have february : daysBeforeMonth year 2 = 31 := rfl
  simp only [firstOfMarch, firstOf, dayNumber, march, february]
  omega

theorem not_isLeapDay_firstOfMarch (year : Int) : ¬ (firstOfMarch year).IsLeapDay := by
  rintro ⟨impossible, -⟩
  cases impossible

theorem IsLeapDay.dayNumber_eq (leapDay : date.IsLeapDay) :
    date.dayNumber = daysBeforeYear date.year + 59 := by
  have february : daysBeforeMonth date.year 2 = 31 := rfl
  rw [dayNumber, leapDay.1, leapDay.2, february]
  omega

theorem IsLeapDay.next_eq (leapDay : date.IsLeapDay) : date.next = firstOfMarch date.year := by
  rw [← dayNumber_inj, dayNumber_next, leapDay.dayNumber_eq, dayNumber_firstOfMarch,
    monthLength_february, if_pos leapDay.leapYear]
  omega

theorem addYears_firstOfMarch (year count : Int) :
    (firstOfMarch year).addYears count = (firstOfMarch (year + count)).writable? := by
  rw [addYears_eq, yearsLater_eq_inYear (monthLength_pos (year + count) 3)]
  rfl

/-- Where a leap day is moved to depends on the year that is reached, and on nothing else. -/
theorem IsLeapDay.yearsLater_eq (leapDay : date.IsLeapDay) (count : Int) :
    date.yearsLater count = ofDayNumber (daysBeforeYear (date.year + count) + 59) := by
  have february : daysBeforeMonth (date.year + count) 2 = 31 := rfl
  rw [yearsLater, leapDay.1, leapDay.2, february]
  congr 1
  omega

theorem IsLeapDay.yearsLater_of_leapYear (isLeapDay : date.IsLeapDay)
    (leap : IsLeapYear (date.year + count)) :
    date.yearsLater count = leapDay (date.year + count) leap := by
  rw [isLeapDay.yearsLater_eq, ← dayNumber_leapDay leap, ofDayNumber_dayNumber]

theorem IsLeapDay.yearsLater_of_commonYear (isLeapDay : date.IsLeapDay)
    (common : ¬ IsLeapYear (date.year + count)) :
    date.yearsLater count = firstOfMarch (date.year + count) := by
  have march := dayNumber_firstOfMarch (date.year + count)
  rw [monthLength_february, if_neg common] at march
  rw [isLeapDay.yearsLater_eq, ← ofDayNumber_dayNumber (firstOfMarch (date.year + count)), march]
  congr 1
  omega

theorem year_yearsLater (date : Date) (count : Int) :
    (date.yearsLater count).year = date.year + count := by
  by_cases isLeapDay : date.IsLeapDay
  · by_cases leap : IsLeapYear (date.year + count)
    · rw [isLeapDay.yearsLater_of_leapYear leap]
      rfl
    · rw [isLeapDay.yearsLater_of_commonYear leap]
      rfl
  · rw [yearsLater_eq_inYear (day_le_of_not_isLeapDay isLeapDay _)]
    rfl

theorem yearsLater_lt_of_lt {more : Int} (less : count < more) :
    date.yearsLater count < date.yearsLater more := by
  apply lt_iff.mpr
  rw [year_yearsLater, year_yearsLater]
  exact .inl (by omega)

theorem lt_yearsLater (date : Date) (pos : 1 ≤ count) : date < date.yearsLater count := by
  apply lt_iff.mpr
  rw [year_yearsLater]
  exact .inl (by omega)

theorem IsLeapDay.addYears_cases (isLeapDay : date.IsLeapDay)
    (moved : date.addYears count = some found) :
    found.year = date.year + count ∧ found.Writable ∧
      (found.IsLeapDay ∨ ¬ IsLeapYear found.year ∧ found = firstOfMarch found.year) := by
  rw [addYears_eq] at moved
  obtain ⟨writable, rfl⟩ := writable?_eq_some_iff.mp moved
  refine ⟨year_yearsLater date count, writable, ?_⟩
  by_cases leap : IsLeapYear (date.year + count)
  · rw [isLeapDay.yearsLater_of_leapYear leap]
    exact .inl ⟨rfl, rfl⟩
  · rw [isLeapDay.yearsLater_of_commonYear leap]
    exact .inr ⟨leap, rfl⟩

end Agenda.Date
