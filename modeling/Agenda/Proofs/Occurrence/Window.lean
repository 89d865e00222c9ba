import Agenda.Proofs.Occurrence.Scan
import Agenda.Proofs.Rule.Language

namespace Agenda.Rule

variable {rule : Rule} {days : List Int} {months : Option (List Nat)}

theorem exists_weekday_within {weekday : Nat} (le : weekday ≤ 6) (date : Date) :
    ∃ later : Date, later.weekday = weekday ∧ date < later ∧
      later.dayNumber ≤ date.dayNumber + 7 := by
  let ahead : Int := (weekday - date.dayNumber) % 7 + 1
  refine ⟨Date.ofDayNumber (date.dayNumber + ahead), ?_, ?_, ?_⟩
  · rw [Date.weekday, Date.dayNumber_ofDayNumber]
    omega
  · rw [← Date.dayNumber_lt_iff, Date.dayNumber_ofDayNumber]
    omega
  · rw [Date.dayNumber_ofDayNumber]
    omega

theorem exists_namedDay_within {month : Nat} (one_le_month : 1 ≤ month) (month_le : month ≤ 12)
    {code : Int} (lower : -2 ≤ code) (nonzero : code ≠ 0)
    (fits : code < 0 ∨ code ≤ monthLength 2023 month) (date : Date) :
    ∃ later : Date, (later.month = month ∧ NamesDay code later) ∧ date < later ∧
      later.dayNumber ≤ date.dayNumber + 366 := by
  have kinds : code = -1 ∨ code = -2 ∨ 1 ≤ code := by omega
  rcases kinds with rfl | rfl | positive
  · obtain ⟨later, ⟨inMonth, last⟩, near⟩ :=
      Date.exists_dayFromEnd_within one_le_month month_le 0 (by decide) date
    exact ⟨later, ⟨inMonth, namesDay_iff.mpr (.inr (.inl ⟨rfl, last⟩))⟩, near⟩
  · obtain ⟨later, ⟨inMonth, beforeLast⟩, near⟩ :=
      Date.exists_dayFromEnd_within one_le_month month_le 1 (by decide) date
    exact ⟨later, ⟨inMonth, namesDay_iff.mpr (.inr (.inr ⟨rfl, Nat.eq_sub_of_add_eq beforeLast⟩))⟩, near⟩
  · obtain ⟨later, ⟨inMonth, sameDay⟩, near⟩ :=
      Date.exists_dayOfMonth_within one_le_month month_le (show 1 ≤ code.toNat by omega)
        (by omega) date
    refine ⟨later, ⟨inMonth, namesDay_iff.mpr (.inl ⟨by omega, ?_⟩)⟩, near⟩
    omega

theorem longestMonthLength_of_ne_two {month : Nat} (different : month ≠ 2) :
    longestMonthLength month = monthLength 2023 month := by
  simp only [longestMonthLength]
  split
  · contradiction
  all_goals simp_all [monthLength]

theorem occursEveryYear_iff {listed : List Nat} : OccursEveryYear days listed ↔
    ∃ day ∈ days, day < 0 ∨ ∃ month ∈ listed, day ≤ monthLength 2023 month := by
  simp only [OccursEveryYear, lastDayOfMonth_eq, commonYear]

/-- A rule with a satisfiable list of months that holds no day of every year asks for the 29th of
February. -/
theorem leapDay_of_not_occursEveryYear {listed : List Nat} (satisfiable : Satisfiable days listed)
    (rare : ¬ OccursEveryYear days listed) : 29 ∈ days ∧ 2 ∈ listed := by
  rw [occursEveryYear_iff] at rare
  obtain ⟨day, member, negative | ⟨month, inMonths, le⟩⟩ := satisfiable
  · exact absurd ⟨day, member, .inl negative⟩ rare
  · have tooLong : ¬ day ≤ monthLength 2023 month :=
      fun fits => rare ⟨day, member, .inr ⟨month, inMonths, fits⟩⟩
    by_cases february : month = 2
    · subst february
      have common : monthLength 2023 2 = 28 := rfl
      have longest : longestMonthLength 2 = 29 := rfl
      have leapDay : day = 29 := by omega
      subst leapDay
      exact ⟨member, inMonths⟩
    · rw [longestMonthLength_of_ne_two february] at le
      exact absurd le tooLong

theorem exists_monthlyDay_within (valid : Valid (.monthly days months)) (date : Date) :
    ∃ later, (Rule.monthly days months).FallsOn later ∧ date < later ∧
      later.dayNumber ≤ date.dayNumber + monthlyWindow days months := by
  obtain ⟨nonempty, -, bounds, listedValid⟩ := valid
  cases months with
  | none =>
      obtain ⟨code, member⟩ := List.exists_mem_of_ne_nil days nonempty
      have codeBounds := bounds code member
      -- January has 31 days, so every code names one of them.
      obtain ⟨later, ⟨-, named⟩, near⟩ := exists_namedDay_within (show 1 ≤ 1 by decide)
        (by decide) codeBounds.1 codeBounds.2.2 (.inr codeBounds.2.1) date
      exact ⟨later, matches_iff_fallsOn.mp ⟨allowsMonth_iff.mpr (.inl rfl), code, member, named⟩,
        near⟩
  | some listed =>
      obtain ⟨listedNonempty, -, monthBounds, satisfiable⟩ := listedValid listed rfl
      by_cases everyYear : OccursEveryYear days listed
      · have chosen : ∃ code ∈ days, ∃ month ∈ listed,
            code < 0 ∨ code ≤ monthLength 2023 month := by
          obtain ⟨code, member, negative | ⟨month, inMonths, fits⟩⟩ := occursEveryYear_iff.mp everyYear
          · obtain ⟨month, inMonths⟩ := List.exists_mem_of_ne_nil listed listedNonempty
            exact ⟨code, member, month, inMonths, .inl negative⟩
          · exact ⟨code, member, month, inMonths, .inr fits⟩
        obtain ⟨code, member, month, inMonths, fits⟩ := chosen
        have codeBounds := bounds code member
        obtain ⟨later, ⟨rfl, named⟩, near⟩ :=
          exists_namedDay_within (monthBounds month inMonths).1 (monthBounds month inMonths).2
            codeBounds.1 codeBounds.2.2 fits date
        have allowed : AllowsMonth (some listed) later.month :=
          allowsMonth_iff.mpr (.inr ⟨listed, rfl, inMonths⟩)
        refine ⟨later, matches_iff_fallsOn.mp ⟨allowed, code, member, named⟩, near.1, ?_⟩
        simp only [monthlyWindow, if_pos everyYear]
        exact near.2
      -- No listed day exists every year, so the 29th of February is the one that is left.
      · obtain ⟨leapDay, february⟩ := leapDay_of_not_occursEveryYear satisfiable everyYear
        obtain ⟨year, leap, after, near⟩ := date.exists_leapDay_within
        have allowed : AllowsMonth (some listed) (Date.leapDay year leap).month :=
          allowsMonth_iff.mpr (.inr ⟨listed, rfl, february⟩)
        have named : NamesDay 29 (Date.leapDay year leap) := rfl
        refine ⟨Date.leapDay year leap, matches_iff_fallsOn.mp ⟨allowed, 29, leapDay, named⟩, after, ?_⟩
        simp only [monthlyWindow, if_neg everyYear]
        exact near

/-- A weekly or monthly rule that a text expresses has a day within its window after any date. -/
theorem exists_day_within_window (valid : rule.Valid) (dayRule : rule.IsDayRule) (date : Date) :
    ∃ later, rule.FallsOn later ∧ date < later ∧
      later.dayNumber ≤ date.dayNumber + rule.window := by
  cases rule with
  | daily interval => exact dayRule.elim
  | yearly => exact dayRule.elim
  | weekly weekdays =>
      obtain ⟨nonempty, -, bounds⟩ := valid
      obtain ⟨weekday, member⟩ := List.exists_mem_of_ne_nil weekdays nonempty
      obtain ⟨later, rfl, near⟩ := exists_weekday_within (bounds weekday member) date
      exact ⟨later, member, near⟩
  | monthly days months => exact exists_monthlyDay_within valid date

theorem year_gt_of_next_not_writable {last later : Date} (inYears : 0 ≤ last.year)
    (leaves : ¬ last.next.Writable) (after : last < later) : 9999 < later.year := by
  have ordered := Date.year_le_of_le (Date.next_le_iff.mpr after)
  have grown := Date.year_le_of_le (le_of_lt last.lt_next)
  simp only [Date.Writable] at leaves
  omega

/-- The next day of a weekly or monthly rule that a text expresses is the first one that can be written,
and the search fails only if there is none. -/
theorem nextOccurrence_cases (valid : rule.Valid) (dayRule : rule.IsDayRule) {start : Date}
    (inYears : 0 ≤ start.year) (now : Date) :
    (∃ found, rule.nextOccurrence start now = .ok found ∧ found.Writable ∧
        rule.IsFirstAfter (Date.latest start now) found) ∨
      (rule.nextOccurrence start now = .error .dateOverflow ∧
        ∀ later, Date.latest start now < later → later.year ≤ 9999 → ¬ rule.FallsOn later) := by
  rw [nextOccurrence_eq_firstMatch dayRule]
  rcases firstMatch_cases rule rule.window (Date.latest start now) with
    found | ⟨last, result, ordered, leaves, spared⟩ | ⟨last, -, length, spared⟩
  · exact .inl found
  · refine .inr ⟨result, fun later after writable falls => ?_⟩
    rcases le_or_gt later last with before | beyond
    · exact spared later after before falls
    · have startYear := Date.year_le_of_le (le_max_left start now)
      rw [← Date.latest_eq_max] at startYear
      have lastYear := Date.year_le_of_le ordered
      have := year_gt_of_next_not_writable (by omega) leaves beyond
      omega
  · obtain ⟨later, falls, after, near⟩ :=
      exists_day_within_window valid dayRule (Date.latest start now)
    have before : later ≤ last := by
      rw [Date.le_iff_dayNumber_le, length]
      exact near
    exact absurd falls (spared later after before)

/-- The search for the next day of a weekly or monthly rule that a text expresses succeeds just if such a
day can be written. It fails for that reason only, and never because the window is too short. -/
theorem nextOccurrence_complete {text : String} (read : Rule.read text = .ok rule)
    (dayRule : rule.IsDayRule) {start : Date} (writable : start.Writable) (now : Date) :
    ((∃ found, rule.nextOccurrence start now = .ok found) ↔
        ∃ date, Date.latest start now < date ∧ date.year ≤ 9999 ∧ rule.FallsOn date) ∧
      (rule.nextOccurrence start now = .error .dateOverflow ↔
        ¬ ∃ date, Date.latest start now < date ∧ date.year ≤ 9999 ∧ rule.FallsOn date) ∧
      rule.nextOccurrence start now ≠ .error .noOccurrence := by
  rcases nextOccurrence_cases (valid_of_read read) dayRule writable.1 now with
    ⟨found, result, inYears, first⟩ | ⟨result, none⟩
  · have exists_day : ∃ date, Date.latest start now < date ∧ date.year ≤ 9999 ∧ rule.FallsOn date :=
      ⟨found, first.after, inYears.2, first.falls⟩
    rw [result]
    exact ⟨⟨fun _ => exists_day, fun _ => ⟨found, rfl⟩⟩,
      ⟨fun impossible => (by cases impossible), fun absent => absurd exists_day absent⟩,
      fun impossible => (by cases impossible)⟩
  · have absent : ¬ ∃ date, Date.latest start now < date ∧ date.year ≤ 9999 ∧ rule.FallsOn date :=
      fun ⟨date, after, inYears, falls⟩ => none date after inYears falls
    rw [result]
    exact ⟨⟨fun ⟨_, impossible⟩ => (by cases impossible), fun exists_day => absurd exists_day absent⟩,
      ⟨fun _ => absent, fun _ => rfl⟩, fun impossible => (by cases impossible)⟩

theorem nextOccurrence_complete_skipped_leapYear :
    Rule.read "m 29 2" = .ok (.monthly [29] (some [2])) ∧
      IsDayRule (.monthly [29] (some [2])) ∧ (Date.leapDay 2096 (by decide)).Writable ∧
      ∃ found, nextOccurrence (.monthly [29] (some [2])) (Date.leapDay 2096 (by decide))
        (Date.leapDay 2096 (by decide)).next = .ok found := by
  have read : Rule.read "m 29 2" = .ok (.monthly [29] (some [2])) := by decide
  refine ⟨read, trivial, by decide, ?_⟩
  refine (nextOccurrence_complete read trivial (by decide) _).1.mpr ?_
  exact ⟨Date.leapDay 2104 (by decide), by decide, by decide, by decide⟩

end Agenda.Rule
