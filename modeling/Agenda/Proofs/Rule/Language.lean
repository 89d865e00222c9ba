import Agenda.Proofs.Rule.Spelling

namespace Agenda.Rule

open Text

variable {text : String} {rule : Rule} {list : List Char} {days : List Int} {months : List Nat}
  {arguments : List (List Char)} {spelling : Spelling}

theorem readDays_eq_ok_iff :
    readDays list = .ok days ↔ ∃ numbers, WritesIntegers list numbers ∧
      (∀ day ∈ numbers, -2 ≤ day ∧ day ≤ 31 ∧ day ≠ 0) ∧ FirstAppearances numbers days := by
  rw [readDays, bind_eq_ok_iff]
  refine exists_congr fun numbers => ?_
  rw [readNumbers_eq_ok_iff (by decide) (by decide), and_assoc]
  refine and_congr_right fun _ => ?_
  by_cases zero : 0 ∈ numbers
  · have refused : ¬ ∀ day ∈ numbers, -2 ≤ day ∧ day ≤ 31 ∧ day ≠ 0 :=
      fun within => (within 0 zero).2.2 rfl
    simp only [if_pos zero, refused, false_and, iff_false]
    intro accepted
    cases accepted.2
  · simp only [if_neg zero]
    refine and_congr ?_ ?_
    · refine forall₂_congr fun day member => ?_
      have nonzero : day ≠ 0 := fun same => zero (same ▸ member)
      simp only [nonzero, ne_eq, not_false_eq_true, and_true]
      rfl
    · rw [← eraseDups_eq_iff]
      exact ⟨Except.ok.inj, congrArg Except.ok⟩

theorem ascending_weekdays_iff {numbers : List Int} {weekdays : List Nat}
    (within : ∀ weekday ∈ numbers, 1 ≤ weekday ∧ weekday ≤ 7) :
    ascending 7 (numbers.map fun weekday => weekday.toNat % 7) = weekdays ↔
      WeekdaysOf numbers weekdays := by
  rw [ascending_eq_iff, WeekdaysOf]
  refine and_congr_right fun _ => forall_congr' fun weekday => ?_
  have members : (weekday < 7 ∧ weekday ∈ numbers.map fun weekday => weekday.toNat % 7) ↔
      ∃ number ∈ numbers, (weekday : Int) = if number = 7 then 0 else number := by
    rw [List.mem_map]
    refine ⟨fun ⟨_, number, member, same⟩ => ⟨number, member, ?_⟩,
      fun ⟨number, member, same⟩ => ?_⟩
    · have := within number member
      split <;> omega
    · have := within number member
      split at same
      · exact ⟨by omega, number, member, by omega⟩
      · exact ⟨by omega, number, member, by omega⟩
  rw [members]

theorem mem_map_toNat_iff {numbers : List Int} (within : ∀ month ∈ numbers, 1 ≤ month ∧ month ≤ 12)
    (month : Nat) : month ∈ numbers.map Int.toNat ↔ (month : Int) ∈ numbers := by
  rw [List.mem_map]
  refine ⟨fun ⟨number, member, same⟩ => ?_, fun member => ⟨month, member, rfl⟩⟩
  have natural : (month : Int) = number := by
    have := within number member
    omega
  exact natural ▸ member

theorem ascending_months_iff {numbers : List Int}
    (within : ∀ month ∈ numbers, 1 ≤ month ∧ month ≤ 12) :
    ascending 13 (numbers.map Int.toNat) = months ↔ MonthsOf numbers months := by
  rw [ascending_eq_iff, MonthsOf]
  refine and_congr_right fun _ => forall_congr' fun month => ?_
  rw [mem_map_toNat_iff within, and_iff_right_of_imp]
  intro member
  have := within month member
  omega

theorem longestMonthLength_eq_mostDays (month : Nat) :
    (longestMonthLength month : Int) = Spelling.mostDays month := by
  simp only [longestMonthLength, Spelling.mostDays]
  split
  case h_6 =>
    simp only [imp_false] at *
    rw [if_neg (by omega), if_neg (by omega)]
    rfl
  all_goals rfl

theorem satisfiable_iff_map_toNat {numbers others : List Int}
    (appearances : FirstAppearances numbers days) (monthsOf : MonthsOf others months)
    (within : ∀ month ∈ others, 1 ≤ month ∧ month ≤ 12) :
    Satisfiable days months ↔ Satisfiable numbers (others.map Int.toNat) := by
  simp only [Satisfiable, appearances.1, monthsOf.2, mem_map_toNat_iff within]

theorem satisfiable_iff {numbers others : List Int}
    (appearances : FirstAppearances numbers days) (monthsOf : MonthsOf others months)
    (within : ∀ month ∈ others, 1 ≤ month ∧ month ≤ 12) :
    Satisfiable days months ↔ ∃ day ∈ numbers, day < 0 ∨
      ∃ month ∈ others, day ≤ Spelling.mostDays month := by
  rw [satisfiable_iff_map_toNat appearances monthsOf within]
  simp only [Satisfiable, List.mem_map, exists_exists_and_eq_and, longestMonthLength_eq_mostDays]
  refine exists_congr fun day => and_congr_right fun _ => or_congr_right ?_
  refine exists_congr fun month => and_congr_right fun member => ?_
  have pos := (within month member).1
  rw [Int.toNat_of_nonneg (by omega)]

theorem readMonths_eq_ok_iff :
    readMonths days list = .ok months ↔ ∃ numbers, WritesIntegers list numbers ∧
      (∀ month ∈ numbers, 1 ≤ month ∧ month ≤ 12) ∧ MonthsOf numbers months ∧
        Satisfiable days months := by
  rw [readMonths, bind_eq_ok_iff]
  refine exists_congr fun numbers => ?_
  rw [readNumbers_eq_ok_iff (by decide) (by decide), and_assoc]
  refine and_congr_right fun _ => and_congr_right fun within => ?_
  rw [← ascending_months_iff within]
  generalize ascending 13 (numbers.map Int.toNat) = found
  by_cases satisfiable : Satisfiable days found
  · simp only [if_pos satisfiable]
    refine ⟨fun accepted => ?_, fun ⟨same, _⟩ => congrArg Except.ok same⟩
    have same := Except.ok.inj accepted
    exact ⟨same, same ▸ satisfiable⟩
  · simp only [if_neg satisfiable]
    refine ⟨fun accepted => (by cases accepted), fun ⟨same, holds⟩ => ?_⟩
    exact absurd (same ▸ holds) satisfiable

theorem exists_spelling_of_readDaily (read : readDaily arguments = .ok rule) :
    ∃ spelling, Spelling.OfWords (['d'] :: arguments) spelling ∧ spelling.Admissible ∧
      spelling.Means rule := by
  simp only [readDaily] at read
  split at read
  · obtain ⟨interval, number, same⟩ := bind_eq_ok_iff.mp read
    cases same
    obtain ⟨written, within⟩ := (readNumber_eq_ok_iff (by decide) (by decide)).mp number
    have natural : (interval.toNat : Int) = interval := Int.toNat_of_nonneg (by
      have : (1 : Int) ≤ interval := within.1
      omega)
    have means := Spelling.Means.daily interval.toNat
    rw [natural] at means
    exact ⟨.daily interval, .daily written, within, means⟩
  · cases read

theorem exists_spelling_of_readWeekly (read : readWeekly arguments = .ok rule) :
    ∃ spelling, Spelling.OfWords (['w'] :: arguments) spelling ∧ spelling.Admissible ∧
      spelling.Means rule := by
  simp only [readWeekly] at read
  split at read
  · obtain ⟨numbers, list, same⟩ := bind_eq_ok_iff.mp read
    cases same
    obtain ⟨written, within⟩ := (readNumbers_eq_ok_iff (by decide) (by decide)).mp list
    have weekdaysOf := (ascending_weekdays_iff within).mp rfl
    exact ⟨.weekly numbers, .weekly written, within, .weekly weekdaysOf⟩
  · cases read

theorem exists_spelling_of_readMonthly (read : readMonthly arguments = .ok rule) :
    ∃ spelling, Spelling.OfWords (['m'] :: arguments) spelling ∧ spelling.Admissible ∧
      spelling.Means rule := by
  simp only [readMonthly] at read
  split at read
  · obtain ⟨days, list, same⟩ := bind_eq_ok_iff.mp read
    cases same
    obtain ⟨numbers, written, within, appearances⟩ := readDays_eq_ok_iff.mp list
    exact ⟨.monthly numbers none, .monthly written, ⟨within, by simp⟩, .monthly appearances⟩
  · obtain ⟨days, list, more⟩ := bind_eq_ok_iff.mp read
    obtain ⟨months, others, same⟩ := bind_eq_ok_iff.mp more
    cases same
    obtain ⟨numbers, written, within, appearances⟩ := readDays_eq_ok_iff.mp list
    obtain ⟨monthNumbers, writtenMonths, monthsWithin, monthsOf, satisfiable⟩ :=
      readMonths_eq_ok_iff.mp others
    have fits := (satisfiable_iff appearances monthsOf monthsWithin).mp satisfiable
    refine ⟨.monthly numbers (some monthNumbers), .monthlyWithin written writtenMonths,
      ⟨within, fun listed member => ?_⟩, .monthlyWithin appearances monthsOf⟩
    cases member
    exact ⟨monthsWithin, fits⟩
  · cases read

theorem exists_spelling_of_ofWords {words : List (List Char)} (read : ofWords words = .ok rule) :
    ∃ spelling, Spelling.OfWords words spelling ∧ spelling.Admissible ∧ spelling.Means rule := by
  simp only [ofWords] at read
  split at read
  · cases read
  · exact exists_spelling_of_readDaily read
  · simp only [readYearly] at read
    split at read
    · cases read
      exact ⟨.yearly, .yearly, trivial, .yearly⟩
    · cases read
  · exact exists_spelling_of_readWeekly read
  · exact exists_spelling_of_readMonthly read
  · cases read

theorem ofWords_of_spelling {words : List (List Char)} (spelled : Spelling.OfWords words spelling)
    (admissible : spelling.Admissible) (means : spelling.Means rule) : ofWords words = .ok rule := by
  cases spelled with
  | @daily item interval written =>
      cases means with
      | daily interval =>
          have read : readNumber .interval shortestInterval longestInterval item = .ok interval :=
            (readNumber_eq_ok_iff (by decide) (by decide)).mpr ⟨written, admissible⟩
          exact bind_eq_ok_iff.mpr ⟨interval, read, rfl⟩
  | yearly =>
      cases means
      rfl
  | @weekly list numbers written =>
      cases means with
      | weekly weekdaysOf =>
          have read : readNumbers .weekday 1 7 list = .ok numbers :=
            (readNumbers_eq_ok_iff (by decide) (by decide)).mpr ⟨written, admissible⟩
          have sorted := (ascending_weekdays_iff admissible).mpr weekdaysOf
          exact bind_eq_ok_iff.mpr ⟨numbers, read, congrArg (Except.ok ∘ Rule.weekly) sorted⟩
  | @monthly list numbers written =>
      cases means with
      | monthly appearances =>
          have read := readDays_eq_ok_iff.mpr ⟨numbers, written, admissible.1, appearances⟩
          exact bind_eq_ok_iff.mpr ⟨_, read, rfl⟩
  | @monthlyWithin list others numbers months written writtenMonths =>
      cases means with
      | monthlyWithin appearances monthsOf =>
          obtain ⟨within, monthsValid⟩ := admissible
          obtain ⟨monthsWithin, fits⟩ := monthsValid months rfl
          have satisfiable := (satisfiable_iff appearances monthsOf monthsWithin).mpr fits
          have read := readDays_eq_ok_iff.mpr ⟨numbers, written, within, appearances⟩
          have readMonths := readMonths_eq_ok_iff.mpr
            ⟨months, writtenMonths, monthsWithin, monthsOf, satisfiable⟩
          exact bind_eq_ok_iff.mpr ⟨_, read, bind_eq_ok_iff.mpr ⟨_, readMonths, rfl⟩⟩

/-- A text is read as a rule just if its words spell admissible numbers that stand for the rule. -/
theorem read_eq_ok_iff :
    Rule.read text = .ok rule ↔ ∃ words spelling, HasWords text.toList words ∧
      Spelling.OfWords words spelling ∧ spelling.Admissible ∧ spelling.Means rule := by
  simp only [Rule.read]
  refine ⟨fun read => ?_, fun ⟨words, spelling, taken, spelled, admissible, means⟩ => ?_⟩
  · obtain ⟨spelling, spelled⟩ := exists_spelling_of_ofWords read
    exact ⟨_, spelling, words_eq_iff.mp rfl, spelled⟩
  · rw [taken.words_eq]
    exact ofWords_of_spelling spelled admissible means

theorem not_isBlankText_of_read (read : Rule.read text = .ok rule) : ¬ IsBlankText text := by
  intro blank
  have noWords : words text.toList = [] := (HasWords.none (allBlank_of_isBlankText blank)).words_eq
  rw [Rule.read, noWords] at read
  cases read

theorem exists_means {words : List (List Char)} (spelled : Spelling.OfWords words spelling)
    (admissible : spelling.Admissible) : ∃ rule, spelling.Means rule := by
  cases spelled with
  | @daily item interval _ =>
      obtain ⟨low, _⟩ := admissible
      obtain ⟨natural, rfl⟩ := Int.eq_ofNat_of_zero_le (Int.le_trans (by decide) low)
      exact ⟨.daily natural, .daily natural⟩
  | yearly => exact ⟨.yearly, .yearly⟩
  | weekly _ => exact ⟨.weekly _, .weekly ((ascending_weekdays_iff admissible).mp rfl)⟩
  | monthly _ => exact ⟨.monthly _ none, .monthly (eraseDups_eq_iff.mp rfl)⟩
  | monthlyWithin _ _ =>
      have monthsWithin := (admissible.2 _ rfl).1
      exact ⟨.monthly _ (some _), .monthlyWithin (eraseDups_eq_iff.mp rfl)
        ((ascending_months_iff monthsWithin).mp rfl)⟩

/-- The language of rule texts, and the rule that each of them is read as. -/
theorem read_language (text : String) :
    ((∃ rule, Rule.read text = .ok rule) ↔ ∃ words spelling, HasWords text.toList words ∧
        Spelling.OfWords words spelling ∧ spelling.Admissible) ∧
      ∀ rule, Rule.read text = .ok rule ↔ ∃ words spelling, HasWords text.toList words ∧
        Spelling.OfWords words spelling ∧ spelling.Admissible ∧ spelling.Means rule := by
  refine ⟨⟨fun ⟨rule, read⟩ => ?_, fun ⟨words, spelling, taken, spelled, admissible⟩ => ?_⟩,
    fun rule => read_eq_ok_iff⟩
  · obtain ⟨words, spelling, taken, spelled, admissible, -⟩ := read_eq_ok_iff.mp read
    exact ⟨words, spelling, taken, spelled, admissible⟩
  · obtain ⟨rule, means⟩ := exists_means spelled admissible
    exact ⟨rule, read_eq_ok_iff.mpr ⟨words, spelling, taken, spelled, admissible, means⟩⟩

theorem ne_nil_of_writesIntegers {values : List Int} (written : WritesIntegers list values) :
    values ≠ [] := by
  cases written <;> simp

theorem FirstAppearances.nodup {numbers : List Int} (appearances : FirstAppearances numbers days) :
    days.Nodup := by
  refine appearances.2.imp fun {a b} less => ?_
  intro same
  subst same
  exact Nat.lt_irrefl _ less

theorem FirstAppearances.ne_nil {numbers : List Int} (appearances : FirstAppearances numbers days)
    (nonempty : numbers ≠ []) : days ≠ [] := by
  obtain ⟨number, member⟩ := List.exists_mem_of_ne_nil numbers nonempty
  exact List.ne_nil_of_mem ((appearances.1 number).mpr member)

theorem valid_of_means {words : List (List Char)} (spelled : Spelling.OfWords words spelling)
    (admissible : spelling.Admissible) (means : spelling.Means rule) : rule.Valid := by
  cases means with
  | daily interval =>
      obtain ⟨low, high⟩ := admissible
      exact ⟨by unfold shortestInterval; omega, by unfold longestInterval; omega⟩
  | yearly => trivial
  | @weekly numbers weekdays weekdaysOf =>
      cases spelled with
      | weekly written =>
          -- Sunday is the listed 7, so each weekday is what a listed number leaves when divided by 7.
          refine ⟨?_, weekdaysOf.1, fun weekday member => ?_⟩
          · obtain ⟨number, member⟩ := List.exists_mem_of_ne_nil _ (ne_nil_of_writesIntegers written)
            have within := admissible number member
            refine List.ne_nil_of_mem ((weekdaysOf.2 (number.toNat % 7)).mpr ⟨number, member, ?_⟩)
            split <;> omega
          · obtain ⟨number, member, same⟩ := (weekdaysOf.2 weekday).mp member
            have within := admissible number member
            split at same <;> omega
  | @monthly numbers days appearances =>
      cases spelled with
      | monthly written =>
          refine ⟨appearances.ne_nil (ne_nil_of_writesIntegers written), appearances.nodup,
            fun day member => admissible.1 day ((appearances.1 day).mp member), ?_⟩
          intro listed impossible
          cases impossible
  | @monthlyWithin numbers days others months appearances monthsOf =>
      cases spelled with
      | monthlyWithin written writtenMonths =>
          obtain ⟨monthsWithin, fits⟩ := admissible.2 others rfl
          refine ⟨appearances.ne_nil (ne_nil_of_writesIntegers written), appearances.nodup,
            fun day member => admissible.1 day ((appearances.1 day).mp member), ?_⟩
          intro listed same
          cases same
          refine ⟨?_, monthsOf.1, fun month member => ?_,
            (satisfiable_iff appearances monthsOf monthsWithin).mpr fits⟩
          · obtain ⟨number, member⟩ :=
              List.exists_mem_of_ne_nil _ (ne_nil_of_writesIntegers writtenMonths)
            have within := monthsWithin number member
            have natural : (number.toNat : Int) = number := Int.toNat_of_nonneg (by omega)
            exact List.ne_nil_of_mem ((monthsOf.2 number.toNat).mpr (natural.symm ▸ member))
          · have within := monthsWithin month ((monthsOf.2 month).mp member)
            omega

theorem valid_of_read (read : Rule.read text = .ok rule) : rule.Valid := by
  obtain ⟨words, spelling, -, spelled, admissible, means⟩ := read_eq_ok_iff.mp read
  exact valid_of_means spelled admissible means

end Agenda.Rule
