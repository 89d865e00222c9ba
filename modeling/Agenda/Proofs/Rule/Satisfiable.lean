import Agenda.Proofs.Occurrence.Window

/-! The table of the longest months, which the reader goes by, agrees with the calendar of the year 2024. -/

namespace Agenda.Rule

open Text

variable {text : String} {list others : List Char} {days numbers : List Int} {months : List Nat}
  {date : Date}

theorem longestMonthLength_eq (month : Nat) : longestMonthLength month = monthLength 2024 month := by
  -- February alone depends on the year, and 2024 is a leap year.
  by_cases february : month = 2
  · subst february
    rfl
  · rw [longestMonthLength_of_ne_two february, monthLength_of_ne_two february 2024 2023]

theorem monthLength_le_longest (year : Int) (month : Nat) :
    monthLength year month ≤ longestMonthLength month := by
  by_cases february : month = 2
  · subst february
    rw [monthLength_february]
    split <;> decide
  · rw [longestMonthLength_eq, monthLength_of_ne_two february year 2024]

theorem exists_named_day {code : Int} {month : Nat} (one_le_month : 1 ≤ month) (month_le : month ≤ 12)
    (lower : -2 ≤ code) (nonzero : code ≠ 0) (fits : code < 0 ∨ code ≤ monthLength 2024 month) :
    ∃ date : Date, date.year = 2024 ∧ date.month = month ∧ NamesDay code date := by
  have long := le_monthLength 2024 month
  have number : ∃ day, 1 ≤ day ∧ day ≤ monthLength 2024 month ∧
      (0 < code ∧ (day : Int) = code ∨ code = -1 ∧ day = monthLength 2024 month ∨
        code = -2 ∧ day = monthLength 2024 month - 1) := by
    have kinds : code = -1 ∨ code = -2 ∨ 1 ≤ code := by omega
    rcases kinds with last | beforeLast | positive
    · exact ⟨monthLength 2024 month, by omega, by omega, .inr (.inl ⟨last, rfl⟩)⟩
    · exact ⟨monthLength 2024 month - 1, by omega, by omega, .inr (.inr ⟨beforeLast, rfl⟩)⟩
    · exact ⟨code.toNat, by omega, by omega, .inl ⟨by omega, by omega⟩⟩
  obtain ⟨day, one_le_day, day_le, named⟩ := number
  exact ⟨⟨2024, month, day, one_le_month, month_le, one_le_day, day_le⟩, rfl, rfl, namesDay_iff.mpr named⟩

theorem exists_fallsOn_of_satisfiable (daysWithin : ∀ day ∈ days, -2 ≤ day ∧ day ≤ 31 ∧ day ≠ 0)
    (nonempty : months ≠ []) (monthsWithin : ∀ month ∈ months, 1 ≤ month ∧ month ≤ 12)
    (satisfiable : Satisfiable days months) :
    ∃ date : Date, date.Writable ∧ FallsOn date (.monthly days (some months)) := by
  obtain ⟨code, member, fits⟩ := satisfiable
  have chosen : ∃ month ∈ months, code < 0 ∨ code ≤ monthLength 2024 month := by
    rcases fits with negative | ⟨month, listed, le⟩
    · obtain ⟨month, listed⟩ := List.exists_mem_of_ne_nil months nonempty
      exact ⟨month, listed, .inl negative⟩
    · rw [longestMonthLength_eq] at le
      exact ⟨month, listed, .inr le⟩
  obtain ⟨month, listed, fits⟩ := chosen
  obtain ⟨lower, -, nonzero⟩ := daysWithin code member
  obtain ⟨one_le_month, month_le⟩ := monthsWithin month listed
  obtain ⟨date, year, rfl, named⟩ := exists_named_day one_le_month month_le lower nonzero fits
  have allowed : AllowsMonth (some months) date.month := allowsMonth_iff.mpr (.inr ⟨months, rfl, listed⟩)
  refine ⟨date, ⟨by omega, by omega⟩, matches_iff_fallsOn.mp ⟨allowed, code, member, named⟩⟩

theorem satisfiable_of_fallsOn (falls : FallsOn date (.monthly days (some months))) :
    Satisfiable days months := by
  obtain ⟨impossible | ⟨listed, same, inMonth⟩, named⟩ := falls
  · cases impossible
  · cases same
    rcases named with ⟨code, member, -, same⟩ | ⟨member, -⟩ | ⟨member, -⟩
    · have fits := Nat.le_trans date.day_le (monthLength_le_longest date.year date.month)
      exact ⟨code, member, .inr ⟨date.month, inMonth, by omega⟩⟩
    · exact ⟨-1, member, .inl (by decide)⟩
    · exact ⟨-2, member, .inl (by decide)⟩

/-- The check passes for the lists of a rule just if some date falls on the numbers as they were given. -/
theorem satisfiable_iff_exists_fallsOn {listed : List Int} (writesMonths : WritesIntegers others numbers)
    (daysWithin : ∀ day ∈ days, -2 ≤ day ∧ day ≤ 31 ∧ day ≠ 0)
    (monthsWithin : ∀ month ∈ numbers, 1 ≤ month ∧ month ≤ 12)
    (appearances : FirstAppearances days listed) (monthsOf : MonthsOf numbers months) :
    Satisfiable listed months ↔
      ∃ date : Date, date.Writable ∧ FallsOn date (.monthly days (some (numbers.map Int.toNat))) := by
  have nonempty : numbers.map Int.toNat ≠ [] := by
    simpa using ne_nil_of_writesIntegers writesMonths
  have within : ∀ month ∈ numbers.map Int.toNat, 1 ≤ month ∧ month ≤ 12 := by
    intro month listed
    obtain ⟨number, member, rfl⟩ := List.mem_map.mp listed
    have := monthsWithin number member
    omega
  rw [satisfiable_iff_map_toNat appearances monthsOf monthsWithin]
  refine ⟨exists_fallsOn_of_satisfiable daysWithin nonempty within, fun found => ?_⟩
  obtain ⟨date, -, falls⟩ := found
  exact satisfiable_of_fallsOn falls

theorem readMonths_of_writesIntegers (written : WritesIntegers others numbers)
    (within : ∀ month ∈ numbers, 1 ≤ month ∧ month ≤ 12) (days : List Int) :
    readMonths days others = if Satisfiable days (ascending 13 (numbers.map Int.toNat)) then
        .ok (ascending 13 (numbers.map Int.toNat))
      else .error (.unsatisfiable days (ascending 13 (numbers.map Int.toNat))) := by
  have read : readNumbers .month 1 12 others = .ok numbers :=
    (readNumbers_eq_ok_iff (by decide) (by decide)).mpr ⟨written, within⟩
  rw [readMonths, read]
  rfl

theorem exists_read_eq (taken : HasWords text.toList [['m'], list, others])
    (writesDays : WritesIntegers list days) (writesMonths : WritesIntegers others numbers)
    (daysWithin : ∀ day ∈ days, -2 ≤ day ∧ day ≤ 31 ∧ day ≠ 0)
    (monthsWithin : ∀ month ∈ numbers, 1 ≤ month ∧ month ≤ 12) :
    ∃ listed months, FirstAppearances days listed ∧ MonthsOf numbers months ∧
      Rule.read text = if Satisfiable listed months then .ok (.monthly listed (some months))
        else .error (.unsatisfiable listed months) := by
  have readsDays := readDays_eq_ok_iff.mpr ⟨days, writesDays, daysWithin, eraseDups_eq_iff.mp rfl⟩
  have readsMonths := readMonths_of_writesIntegers writesMonths monthsWithin days.eraseDups
  refine ⟨days.eraseDups, _, eraseDups_eq_iff.mp rfl, (ascending_months_iff monthsWithin).mp rfl, ?_⟩
  rw [Rule.read, taken.words_eq]
  change (readDays list >>= fun listed => readMonths listed others >>= fun months =>
    pure (Rule.monthly listed (some months))) = _
  rw [readsDays]
  change (readMonths days.eraseDups others >>= fun months => _) = _
  rw [readsMonths]
  split <;> rfl

/-- Lists of allowed numbers are refused as unsatisfiable just if no date that can be written has a listed
day in a listed month. The fault names the days in the order in which they appear first, and the months in
ascending order. -/
theorem read_unsatisfiable_iff (taken : HasWords text.toList [['m'], list, others])
    (writesDays : WritesIntegers list days) (writesMonths : WritesIntegers others numbers)
    (daysWithin : ∀ day ∈ days, -2 ≤ day ∧ day ≤ 31 ∧ day ≠ 0)
    (monthsWithin : ∀ month ∈ numbers, 1 ≤ month ∧ month ≤ 12) :
    ((∃ listed months, Rule.read text = .error (.unsatisfiable listed months)) ↔
      ∀ date : Date, date.Writable → ¬ FallsOn date (.monthly days (some (numbers.map Int.toNat)))) ∧
    ∀ listed months, Rule.read text = .error (.unsatisfiable listed months) →
      FirstAppearances days listed ∧ MonthsOf numbers months := by
  obtain ⟨listed, months, appearances, monthsOf, read⟩ :=
    exists_read_eq taken writesDays writesMonths daysWithin monthsWithin
  have exists_iff := satisfiable_iff_exists_fallsOn writesMonths daysWithin monthsWithin appearances monthsOf
  rw [read]
  by_cases satisfiable : Satisfiable listed months
  · rw [if_pos satisfiable]
    obtain ⟨date, writable, falls⟩ := exists_iff.mp satisfiable
    refine ⟨iff_of_false ?_ fun none => none date writable falls, ?_⟩
    · rintro ⟨_, _, impossible⟩
      cases impossible
    · intro _ _ impossible
      cases impossible
  · rw [if_neg satisfiable]
    refine ⟨iff_of_true ⟨listed, months, rfl⟩ fun date writable falls => ?_, ?_⟩
    · exact satisfiable (exists_iff.mpr ⟨date, writable, falls⟩)
    · intro _ _ same
      cases same
      exact ⟨appearances, monthsOf⟩

theorem read_unsatisfiable_iff_february :
    HasWords " m +31,030,31\t2".toList [['m'], "+31,030,31".toList, ['2']] ∧
      WritesIntegers "+31,030,31".toList [31, 30, 31] ∧ WritesIntegers ['2'] [2] ∧
      (∀ day ∈ [31, 30, 31], -2 ≤ day ∧ day ≤ 31 ∧ day ≠ (0 : Int)) ∧
      (∀ month ∈ [2], 1 ≤ month ∧ month ≤ (12 : Int)) ∧
      Rule.read " m +31,030,31\t2" = .error (.unsatisfiable [31, 30] [2]) ∧
      ∀ date : Date, date.Writable → ¬ FallsOn date (.monthly [31, 30, 31] (some [2])) := by
  have taken : HasWords " m +31,030,31\t2".toList [['m'], "+31,030,31".toList, ['2']] :=
    words_eq_iff.mp (by decide)
  have writesDays : WritesIntegers "+31,030,31".toList [31, 30, 31] :=
    @WritesIntegers.more ['+', '3', '1'] _ _ _ (.plus (by decide))
      (@WritesIntegers.more ['0', '3', '0'] _ _ _ (.plain (by decide))
        (.one (.plain (by decide))))
  have writesMonths : WritesIntegers ['2'] [2] := .one (.plain (by decide))
  have read : Rule.read " m +31,030,31\t2" = .error (.unsatisfiable [31, 30] [2]) := by decide
  have february := read_unsatisfiable_iff taken writesDays writesMonths (by decide) (by decide)
  exact ⟨taken, writesDays, writesMonths, by decide, by decide, read, february.1.mp ⟨_, _, read⟩⟩

end Agenda.Rule
