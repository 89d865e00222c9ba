import Agenda.Date.Written
import Agenda.Proofs.Date.Years

/-! A date keeps its day in a later month, or runs over into the month after that by three days at most. No
month is that short, so more months lead to a later date. -/

namespace Agenda.Date

/-- The month that lies `count` months after the month of the date. -/
structure ReachesMonth (date : Date) (count year : Int) (month : Nat) : Prop where
  one_le_month : 1 ≤ month
  month_le : month ≤ 12
  counted : 12 * year + month = 12 * date.year + date.month + count

/-- The day of the date in the given month, where days beyond its end are counted on in the next month. -/
def LandsIn (date : Date) (year : Int) (month : Nat) (found : Date) : Prop :=
  found.year = year ∧
    if date.day ≤ monthLength year month then found.month = month ∧ found.day = date.day
    else found.month = month + 1 ∧ found.day = date.day - monthLength year month

/-- The date that lies `count` months later. It may lie beyond the writable years. -/
def monthsLater (date : Date) (count : Int) : Date :=
  ofDayNumber ((firstOfMonthNumber (date.monthNumber + count)).dayNumber + (date.day - 1))

variable {date found : Date} {count year number : Int} {month : Nat}

theorem addMonths_eq (date : Date) (count : Int) :
    date.addMonths count = (date.monthsLater count).writable? := rfl

theorem exists_reachesMonth (date : Date) (count : Int) :
    ∃ year month, date.ReachesMonth count year month := by
  refine ⟨(date.monthNumber + count) / 12, ((date.monthNumber + count) % 12).toNat + 1, ?_, ?_, ?_⟩
  all_goals simp only [monthNumber]; omega

theorem reachesMonth_years (date : Date) (count : Int) :
    date.ReachesMonth (12 * count) (date.year + count) date.month :=
  ⟨date.one_le_month, date.month_le, by omega⟩

namespace ReachesMonth

theorem year_eq (reaches : date.ReachesMonth count year month) :
    (date.monthNumber + count) / 12 = year := by
  obtain ⟨pos, le, counted⟩ := reaches
  simp only [monthNumber]
  omega

theorem firstOfMonthNumber_eq (reaches : date.ReachesMonth count year month) :
    firstOfMonthNumber (date.monthNumber + count) =
      firstOf year month reaches.one_le_month reaches.month_le := by
  have pos := reaches.one_le_month
  have le := reaches.month_le
  have counted := reaches.counted
  have reached : ((date.monthNumber + count) % 12).toNat + 1 = month := by
    simp only [monthNumber]
    omega
  simp only [firstOfMonthNumber, reaches.year_eq, reached]

theorem monthsLater_eq (reaches : date.ReachesMonth count year month) :
    date.monthsLater count =
      ofDayNumber (daysBeforeYear year + daysBeforeMonth year month + (date.day - 1)) := by
  rw [monthsLater, reaches.firstOfMonthNumber_eq]
  simp [dayNumber, firstOf]

theorem monthsLater_of_fits (reaches : date.ReachesMonth count year month)
    (fits : date.day ≤ monthLength year month) :
    date.monthsLater count =
      ⟨year, month, date.day, reaches.one_le_month, reaches.month_le, date.one_le_day, fits⟩ := by
  rw [← dayNumber_inj, reaches.monthsLater_eq, dayNumber_ofDayNumber]
  simp only [dayNumber]

theorem month_lt_of_runsOver (reaches : date.ReachesMonth count year month)
    (runsOver : monthLength year month < date.day) : month < 12 := by
  rcases Nat.lt_or_eq_of_le reaches.month_le with before | rfl
  · exact before
  -- December has 31 days, so no date runs over the end of the year.
  · have december : monthLength year 12 = 31 := rfl
    have le := date.day_le
    have longest := monthLength_le date.year date.month
    omega

theorem monthsLater_of_runsOver (reaches : date.ReachesMonth count year month)
    (runsOver : monthLength year month < date.day) :
    ∃ month_le day_le, date.monthsLater count =
      ⟨year, month + 1, date.day - monthLength year month, by omega, month_le, by omega, day_le⟩ := by
  have short := le_monthLength year month
  have next := le_monthLength year (month + 1)
  have le := date.day_le
  have longest := monthLength_le date.year date.month
  refine ⟨reaches.month_lt_of_runsOver runsOver, by omega, ?_⟩
  rw [← dayNumber_inj, reaches.monthsLater_eq, dayNumber_ofDayNumber]
  simp only [dayNumber, daysBeforeMonth_succ year reaches.one_le_month]
  omega

theorem landsIn_monthsLater (reaches : date.ReachesMonth count year month) :
    date.LandsIn year month (date.monthsLater count) := by
  by_cases fits : date.day ≤ monthLength year month
  · rw [reaches.monthsLater_of_fits fits, LandsIn, if_pos fits]
    exact ⟨rfl, rfl, rfl⟩
  · obtain ⟨_, _, same⟩ := reaches.monthsLater_of_runsOver (Nat.lt_of_not_le fits)
    rw [same, LandsIn, if_neg fits]
    exact ⟨rfl, rfl, rfl⟩

theorem addMonths_eq_none_iff (reaches : date.ReachesMonth count year month) :
    date.addMonths count = none ↔ ¬ (0 ≤ year ∧ year ≤ 9999) := by
  rw [addMonths_eq, ← reaches.landsIn_monthsLater.1]
  simp only [writable?, ite_eq_right_iff, reduceCtorEq]
  exact Iff.rfl

theorem landsIn_of_addMonths (reaches : date.ReachesMonth count year month)
    (moved : date.addMonths count = some found) : date.LandsIn year month found := by
  rw [addMonths_eq] at moved
  obtain ⟨-, rfl⟩ := writable?_eq_some_iff.mp moved
  exact reaches.landsIn_monthsLater

end ReachesMonth

theorem year_monthsLater (date : Date) (count : Int) :
    (date.monthsLater count).year = (date.monthNumber + count) / 12 := by
  obtain ⟨year, month, reaches⟩ := exists_reachesMonth date count
  exact reaches.landsIn_monthsLater.1.trans reaches.year_eq.symm

theorem monthsLater_lt_of_lt {fewer more : Int} (less : fewer < more) :
    date.monthsLater fewer < date.monthsLater more := by
  obtain ⟨year, month, reaches⟩ := exists_reachesMonth date fewer
  obtain ⟨laterYear, laterMonth, reachesLater⟩ := exists_reachesMonth date more
  have counted := reaches.counted
  have countedLater := reachesLater.counted
  have pos := reaches.one_le_month
  have leLater := reachesLater.month_le
  have long := monthLength_pos year month
  obtain ⟨sameYear, lands⟩ := reaches.landsIn_monthsLater
  obtain ⟨sameLaterYear, landsLater⟩ := reachesLater.landsIn_monthsLater
  rw [lt_iff, sameYear, sameLaterYear]
  -- A day that has run over is among the first three of its month, and no month is that short.
  split at lands <;> split at landsLater <;> omega

theorem lt_of_addMonths {fewer more : Int} {earlier later : Date} (less : fewer < more)
    (moved : date.addMonths fewer = some earlier) (movedMore : date.addMonths more = some later) :
    earlier < later := by
  rw [addMonths_eq] at moved movedMore
  obtain ⟨-, rfl⟩ := writable?_eq_some_iff.mp moved
  obtain ⟨-, rfl⟩ := writable?_eq_some_iff.mp movedMore
  exact monthsLater_lt_of_lt less

theorem monthLength_lt_day_iff (date : Date) (year : Int) :
    monthLength year date.month < date.day ↔ date.IsLeapDay ∧ ¬ IsLeapYear year := by
  constructor
  · intro missing
    by_cases isLeapDay : date.IsLeapDay
    · rw [isLeapDay.1, isLeapDay.2, monthLength_february] at missing
      refine ⟨isLeapDay, fun leap => ?_⟩
      rw [if_pos leap] at missing
      omega
    · exact absurd (day_le_of_not_isLeapDay isLeapDay year) (Nat.not_le_of_lt missing)
  · intro missing
    rw [missing.1.1, missing.1.2, monthLength_february, if_neg missing.2]
    decide

/-- The same day in another year, or the 1st of March if that year has no such day. -/
def KeepsDay (date : Date) (year : Int) (found : Date) : Prop :=
  found.year = year ∧
    if date.IsLeapDay ∧ ¬ IsLeapYear year then found.month = 3 ∧ found.day = 1
    else found.month = date.month ∧ found.day = date.day

theorem landsIn_month_iff : date.LandsIn year date.month found ↔ date.KeepsDay year found := by
  refine and_congr_right fun _ => ?_
  by_cases missing : date.IsLeapDay ∧ ¬ IsLeapYear year
  · have short := (monthLength_lt_day_iff date year).mpr missing
    rw [if_neg (Nat.not_le_of_lt short), if_pos missing, missing.1.1, missing.1.2,
      monthLength_february, if_neg missing.2]
  · have fits := mt (monthLength_lt_day_iff date year).mp missing
    rw [if_pos (Nat.le_of_not_lt fits), if_neg missing]

theorem integer32?_eq_some_iff {value other : Int} :
    integer32? value = some other ↔ IsInteger32 value ∧ value = other := by
  unfold integer32?
  split <;> simp_all

theorem searchable?_eq_some_iff :
    date.searchable? = some found ↔ SearchableYear date.year ∧ date = found := by
  unfold searchable?
  split <;> simp_all

theorem monthNumber32?_eq_some_iff (searchable : SearchableYear date.year) :
    date.monthNumber32? count = some number ↔
      IsInteger32 (date.monthNumber + count) ∧ date.monthNumber + count = number := by
  have pos := date.one_le_month
  have le := date.month_le
  obtain ⟨low, high⟩ := searchable
  have january : IsInteger32 (date.year * 12) := by
    unfold IsInteger32
    omega
  have month : IsInteger32 (date.year * 12 + (date.month - 1)) := by
    unfold IsInteger32
    omega
  have same : date.year * 12 + (date.month - 1) = date.monthNumber := by
    rw [monthNumber, Int.mul_comm]
  rw [same] at month
  simp only [monthNumber32?, integer32?, if_pos january, same, if_pos month, Option.bind_eq_bind,
    Option.bind_some]
  exact integer32?_eq_some_iff

theorem addMonths32_eq (searchable : SearchableYear date.year) (count : Int) :
    date.addMonths32 count = date.addMonths count := by
  ext found
  rw [addMonths_eq, writable?_eq_some_iff]
  simp only [addMonths32, Option.bind_eq_bind, Option.bind_eq_some_iff,
    monthNumber32?_eq_some_iff searchable, searchable?_eq_some_iff, writable?_eq_some_iff]
  have year := year_monthsLater date count
  constructor
  · intro checked
    obtain ⟨_, ⟨-, rfl⟩, _, ⟨-, rfl⟩, _, ⟨-, rfl⟩, writable, rfl⟩ := checked
    exact ⟨writable, rfl⟩
  · intro moved
    obtain ⟨writable, rfl⟩ := moved
    have within : SearchableYear (date.monthsLater count).year := by
      unfold Writable at writable
      unfold SearchableYear
      omega
    refine ⟨_, ⟨?_, rfl⟩, _, ⟨?_, rfl⟩, _, ⟨within, rfl⟩, writable, rfl⟩
    · unfold SearchableYear at within
      unfold IsInteger32
      omega
    · rw [year] at within
      exact within

theorem addYears32_eq (searchable : SearchableYear date.year) (count : Int) :
    date.addYears32 count = date.addMonths (12 * count) := by
  rw [addYears32, Int.mul_comm, integer32?]
  by_cases held : IsInteger32 (12 * count)
  · rw [if_pos held]
    exact addMonths32_eq searchable (12 * count)
  · rw [if_neg held]
    -- So many years lead beyond those that can be written.
    refine ((reachesMonth_years date count).addMonths_eq_none_iff.mpr fun writable => ?_).symm
    unfold IsInteger32 at held
    unfold SearchableYear at searchable
    omega

/-- A move by months fails just where the year that is reached has no written form. It keeps the day or
runs over into the next month of the same year, and never leads as far as a move by more months. A move by
years is one by twelve months for each, which keeps month and day of all days but one. All this is also
what is found in 32 bits. -/
theorem addMonths_counted (date : Date) :
    (∀ count, ∃ year month, date.ReachesMonth count year month ∧
        (date.addMonths count = none ↔ ¬ (0 ≤ year ∧ year ≤ 9999)) ∧
        ∀ found, date.addMonths count = some found → date.LandsIn year month found) ∧
      (∀ fewer more earlier later, fewer < more → date.addMonths fewer = some earlier →
        date.addMonths more = some later → earlier < later) ∧
      (∀ count, date.addYears count = date.addMonths (12 * count) ∧
        (date.addYears count = none ↔ ¬ (0 ≤ date.year + count ∧ date.year + count ≤ 9999)) ∧
        ∀ found, date.addYears count = some found → date.KeepsDay (date.year + count) found) ∧
      (SearchableYear date.year → ∀ count, date.addMonths32 count = date.addMonths count ∧
        date.addYears32 count = date.addYears count) := by
  refine ⟨fun count => ?_, fun fewer more earlier later => lt_of_addMonths, fun count => ?_,
    fun searchable count => ⟨addMonths32_eq searchable count, addYears32_eq searchable count⟩⟩
  · obtain ⟨year, month, reaches⟩ := exists_reachesMonth date count
    exact ⟨year, month, reaches, reaches.addMonths_eq_none_iff,
      fun found => reaches.landsIn_of_addMonths⟩
  · have reaches := reachesMonth_years date count
    exact ⟨rfl, reaches.addMonths_eq_none_iff,
      fun found moved => landsIn_month_iff.mp (reaches.landsIn_of_addMonths moved)⟩

theorem addMonths_counted_leapDay :
    let date := leapDay 2024 (by decide)
    SearchableYear date.year ∧ date.addYears32 1 = some (firstOfMarch 2025) ∧
      date.addMonths32 2147483647 = none ∧ date.addYears32 (-2147483648) = none ∧
      date.KeepsDay 2025 (firstOfMarch 2025) ∧
      ∃ later, date.addMonths 13 = some later ∧ firstOfMarch 2025 < later := by
  intro date
  obtain ⟨-, increasing, years, bounded⟩ := addMonths_counted date
  have searchable : SearchableYear date.year := by decide
  have moved : date.addYears 1 = some (firstOfMarch 2025) := by decide +kernel
  have movedMore : date.addMonths 13 = ofFields? 2025 3 29 := by decide +kernel
  refine ⟨searchable, ?_, ?_, ?_, (years 1).2.2 _ moved, ?_⟩
  · rw [(bounded searchable 1).2, moved]
  · rw [(bounded searchable 2147483647).1]
    decide +kernel
  · rw [(bounded searchable (-2147483648)).2, (years (-2147483648)).2.1]
    decide
  · exact ⟨_, movedMore, increasing 12 13 _ _ (by decide) moved movedMore⟩

end Agenda.Date
