import Agenda.Date.Basic
import Mathlib.Order.MinMax

/-! Dates are in the order of their numbers. Any day of a month comes back within 366 days, but for the 29th
of February, which may take eight years. -/

namespace Agenda

namespace Date

variable {a b date later : Date}

theorem le_iff_dayNumber_le : a ≤ b ↔ a.dayNumber ≤ b.dayNumber := by
  rw [le_iff, ← dayNumber_lt_iff, Int.not_lt]

instance : LinearOrder Date where
  le_refl date := le_iff_dayNumber_le.mpr (Int.le_refl _)
  le_trans a b c first second :=
    le_iff_dayNumber_le.mpr
      (Int.le_trans (le_iff_dayNumber_le.mp first) (le_iff_dayNumber_le.mp second))
  lt_iff_le_not_ge a b := by
    rw [le_iff_dayNumber_le, le_iff_dayNumber_le, ← dayNumber_lt_iff]
    omega
  le_antisymm a b notLater notEarlier := eq_of_not_lt notEarlier notLater
  le_total a b := by
    rw [le_iff_dayNumber_le, le_iff_dayNumber_le]
    exact Int.le_total _ _
  toDecidableLE := inferInstance
  toDecidableLT := inferInstance
  toDecidableEq := inferInstance

theorem latest_eq_max (a b : Date) : latest a b = max a b := by
  simp only [latest]
  split
  · rename_i less
    exact (max_eq_right (le_of_lt less)).symm
  · rename_i notLess
    exact (max_eq_left (le_of_not_gt notLess)).symm

theorem latest_lt_iff : latest a b < later ↔ a < later ∧ b < later := by
  rw [latest_eq_max, max_lt_iff]

theorem lt_next (date : Date) : date < date.next := by
  rw [← dayNumber_lt_iff, dayNumber_next]
  exact Int.lt_add_one_of_le (Int.le_refl _)

theorem next_le_iff : date.next ≤ later ↔ date < later := by
  rw [le_iff_dayNumber_le, dayNumber_next, ← dayNumber_lt_iff]
  rfl

theorem year_le_of_le (ordered : a ≤ b) : a.year ≤ b.year := by
  rw [le_iff, lt_iff] at ordered
  omega

theorem writable?_eq_some_iff {found : Date} :
    date.writable? = some found ↔ date.Writable ∧ date = found := by
  simp only [writable?]
  split <;> simp_all

theorem writable?_eq_none_iff : date.writable? = none ↔ ¬ date.Writable := by
  simp only [writable?]
  split <;> simp_all

theorem weekday_next (date : Date) : date.next.weekday = (date.weekday + 1) % 7 := by
  simp only [weekday]
  rw [dayNumber_next]
  omega

-- The year 2024 began on a Monday.
example : (firstOf 2024 1 (by decide) (by decide)).weekday = 1 := by decide

end Date

theorem monthLength_february (year : Int) :
    monthLength year 2 = if IsLeapYear year then 29 else 28 := rfl

theorem monthLength_of_ne_two {month : Nat} (different : month ≠ 2) (year other : Int) :
    monthLength year month = monthLength other month := by
  simp only [monthLength]
  split
  · contradiction
  all_goals rfl

theorem monthLength_common_le (year : Int) (month : Nat) :
    monthLength 2023 month ≤ monthLength year month := by
  by_cases february : month = 2
  · subst february
    have common : monthLength 2023 2 = 28 := rfl
    rw [common]
    exact le_monthLength year 2
  · rw [monthLength_of_ne_two february]

theorem yearLength_eq (year : Int) : yearLength year = 337 + monthLength year 2 := by
  rw [monthLength_february, yearLength]
  split <;> rfl

/-- From March on, a year differs from the year 2023 by the length of February alone. -/
theorem daysBeforeMonth_add (year : Int) (month : Nat) :
    daysBeforeMonth year (month + 3) + 28 =
      daysBeforeMonth 2023 (month + 3) + monthLength year 2 := by
  induction month with
  | zero =>
      have march : daysBeforeMonth year 3 = 31 + monthLength year 2 := by
        rw [daysBeforeMonth_succ year (by decide)]
        rfl
      have common : daysBeforeMonth 2023 3 = 59 := rfl
      rw [Nat.zero_add, march, common]
      omega
  | succ month ih =>
      rw [daysBeforeMonth_succ year (by omega), daysBeforeMonth_succ 2023 (by omega),
        monthLength_of_ne_two (by omega) year 2023]
      omega

/-- The same month starts at most 366 days later in the next year. The start of the thirteenth month
is the end of the year. -/
theorem monthStart_succ_le (year : Int) (month : Nat) :
    daysBeforeYear (year + 1) + daysBeforeMonth (year + 1) month ≤
      daysBeforeYear year + daysBeforeMonth year month + 366 := by
  rw [daysBeforeYear_succ, yearLength_eq]
  have thisYear : monthLength year 2 ≤ 29 := by
    rw [monthLength_february]
    split <;> decide
  have nextYear : monthLength (year + 1) 2 ≤ 29 := by
    rw [monthLength_february]
    split <;> decide
  -- From March on the two years differ by the lengths of their Februaries, and before it not at all.
  match month with
  | 0 | 1 =>
      simp only [daysBeforeMonth]
      omega
  | 2 =>
      have here : daysBeforeMonth year 2 = 31 := rfl
      have there : daysBeforeMonth (year + 1) 2 = 31 := rfl
      omega
  | month + 3 =>
      have here := daysBeforeMonth_add year month
      have there := daysBeforeMonth_add (year + 1) month
      omega

theorem daysBeforeYear_add_le (year : Int) (count : Nat) :
    daysBeforeYear (year + count) ≤ daysBeforeYear year + 366 * count := by
  induction count with
  | zero => simp
  | succ count ih =>
      have more := daysBeforeYear_succ (year + count)
      have bound : yearLength (year + count) ≤ 366 := by
        simp only [yearLength]
        split <;> decide
      rw [Int.natCast_succ, ← Int.add_assoc]
      omega

/-- After a year there is a leap year within seven years, or after eight if the year itself is a leap
year. -/
theorem exists_leapYear_after (year : Int) :
    ∃ count : Nat, 1 ≤ count ∧ (count ≤ 7 ∨ count = 8 ∧ IsLeapYear year) ∧
      IsLeapYear (year + count) := by
  let near := (4 - year % 4).toNat
  have nearest : year + near = 4 * (year / 4 + 1) ∧ 1 ≤ near ∧ near ≤ 4 := by omega
  by_cases leap : IsLeapYear (year + near)
  · exact ⟨near, nearest.2.1, by omega, leap⟩
  · refine ⟨near + 4, by omega, ?_, ?_⟩
    · by_cases far : near = 4
      · refine .inr ⟨by omega, ?_⟩
        unfold IsLeapYear at *
        omega
      · omega
    · unfold IsLeapYear at *
      omega

namespace Date

/-- A day that each year has once, from one year to the next at most 366 days later, lies at most 366
days after any date. -/
theorem exists_within_year {Chosen : Date → Prop} (place : Int → Int)
    (yearly : ∀ year, ∃ date, Chosen date ∧ date.year = year ∧ date.dayNumber = place year)
    (gap : ∀ year, place (year + 1) ≤ place year + 366) (date : Date) :
    ∃ later, Chosen later ∧ date < later ∧ later.dayNumber ≤ date.dayNumber + 366 := by
  obtain ⟨this, chosen, thisYear, thisPlace⟩ := yearly date.year
  have bounds := dayNumber_bounds date
  by_cases after : date < this
  · refine ⟨this, chosen, after, ?_⟩
    have thisBounds := dayNumber_bounds this
    have length : yearLength date.year ≤ 366 := by
      simp only [yearLength]
      split <;> decide
    rw [thisYear] at thisBounds
    omega
  · obtain ⟨following, chosen, nextYear, nextPlace⟩ := yearly (date.year + 1)
    refine ⟨following, chosen, ?_, ?_⟩
    · rw [lt_iff]
      omega
    · rw [← dayNumber_lt_iff] at after
      have := gap date.year
      omega

variable {month day : Nat}

theorem exists_dayOfMonth_within (one_le_month : 1 ≤ month) (month_le : month ≤ 12)
    (one_le_day : 1 ≤ day) (day_le : day ≤ monthLength 2023 month) (date : Date) :
    ∃ later : Date, (later.month = month ∧ later.day = day) ∧ date < later ∧
      later.dayNumber ≤ date.dayNumber + 366 := by
  apply exists_within_year fun year =>
    daysBeforeYear year + daysBeforeMonth year month + (day - 1)
  · intro year
    have fits := Nat.le_trans day_le (monthLength_common_le year month)
    exact ⟨⟨year, month, day, one_le_month, month_le, one_le_day, fits⟩, ⟨rfl, rfl⟩, rfl, rfl⟩
  · intro year
    have := monthStart_succ_le year month
    omega

theorem exists_dayFromEnd_within (one_le_month : 1 ≤ month) (month_le : month ≤ 12) (following : Nat)
    (few : following < 28) (date : Date) :
    ∃ later : Date, (later.month = month ∧
        later.day + following = monthLength later.year later.month) ∧
      date < later ∧ later.dayNumber ≤ date.dayNumber + 366 := by
  apply exists_within_year fun year =>
    daysBeforeYear year + daysBeforeMonth year (month + 1) - (following + 1)
  · intro year
    have long := le_monthLength year month
    refine ⟨⟨year, month, monthLength year month - following, one_le_month, month_le, by omega,
      Nat.sub_le _ _⟩, ⟨rfl, ?_⟩, rfl, ?_⟩
    · simp only
      omega
    · rw [daysBeforeMonth_succ year one_le_month]
      simp only [dayNumber]
      omega
  · intro year
    have := monthStart_succ_le year (month + 1)
    omega

def leapDay (year : Int) (leap : IsLeapYear year) : Date where
  year := year
  month := 2
  day := 29
  day_le := by rw [monthLength_february, if_pos leap]

theorem dayNumber_leapDay {year : Int} (leap : IsLeapYear year) :
    (leapDay year leap).dayNumber = daysBeforeYear year + 59 := by
  have february : daysBeforeMonth year 2 = 31 := rfl
  simp only [leapDay, dayNumber, february]
  omega

theorem exists_leapDay_within (date : Date) :
    ∃ year leap, date < leapDay year leap ∧
      (leapDay year leap).dayNumber ≤ date.dayNumber + 8 * 366 := by
  have bounds := dayNumber_bounds date
  obtain ⟨count, after, near, leapAfter⟩ := exists_leapYear_after date.year
  have far := daysBeforeYear_add_le date.year count
  by_cases early : ∃ leap : IsLeapYear date.year, date < leapDay date.year leap
  · obtain ⟨leap, before⟩ := early
    refine ⟨date.year, leap, before, ?_⟩
    rw [dayNumber_leapDay]
    omega
  · refine ⟨date.year + count, leapAfter, ?_, ?_⟩
    · rw [lt_iff]
      simp only [leapDay]
      omega
    · rw [dayNumber_leapDay]
      rcases near with near | ⟨rfl, leap⟩
      · omega
      -- The whole eight years are needed only if the leap day of this year is over.
      · have past : ¬ date < leapDay date.year leap := fun before => early ⟨leap, before⟩
        rw [← dayNumber_lt_iff, dayNumber_leapDay] at past
        omega

end Date

end Agenda
