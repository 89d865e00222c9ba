import Agenda.Proofs.Date.Days
import Agenda.Proofs.Occurrence.Schedule

/-! The dates of the bounded calendar are less than two hundred million days apart, and a search takes few
steps from one to the other. So no operation leaves its width. -/

namespace Agenda

open Text

open Date (SearchableYear)

variable {start now date found : Date} {value count number years : Int} {interval tries window : Nat}
  {rule : Rule} {days : List Int} {months : List Nat}

theorem held_of {IsHeld : Int → Prop} [DecidablePred IsHeld] (fits : IsHeld value) :
    held IsHeld value = .ok value := if_pos fits

namespace Date

theorem ofFields?_firstOfMonthNumber (number : Int) :
    ofFields? (number / 12) (number % 12 + 1).toNat 1 = some (firstOfMonthNumber number) := by
  refine ofFields?_eq_some_iff.mpr ⟨rfl, ?_, rfl⟩
  simp only [firstOfMonthNumber, firstOf]
  omega

theorem boundedMonths_eq_addMonths32 (date : Date) (count : Int) :
    date.boundedMonths count = .ok (date.addMonths32 count) := by
  unfold boundedMonths addMonths32
  cases date.monthNumber32? count with
  | none => rfl
  | some number =>
      have month : IsNatural32 (number % 12 + 1) := by
        unfold IsNatural32
        omega
      have rest : IsNatural32 (date.day - 1) := by
        have pos := date.one_le_day
        have le := date.day_le
        have longest := monthLength_le date.year date.month
        unfold IsNatural32
        omega
      simp only [held_of month, ok_bind, ofFields?_firstOfMonthNumber, Option.bind_some,
        Option.bind_eq_bind]
      cases (firstOfMonthNumber number).searchable? with
      | none => rfl
      | some first =>
          simp only [held_of rest, ok_bind, Option.bind_some]
          rfl

theorem boundedYears_eq (searchable : SearchableYear date.year) (count : Int) :
    date.boundedYears count = .ok (date.addYears count) := by
  have same : date.boundedYears count = .ok (date.addYears32 count) := by
    unfold boundedYears addYears32
    cases integer32? (count * 12) with
    | none => rfl
    | some months => exact boundedMonths_eq_addMonths32 date months
  rw [same, addYears32_eq searchable]
  rfl

theorem dayNumber_bounds_of_searchable (searchable : SearchableYear date.year) :
    -96000000 ≤ date.dayNumber ∧ date.dayNumber ≤ 96000000 := by
  obtain ⟨notBefore, before⟩ := date.dayNumber_bounds
  have length : yearLength date.year ≤ 366 := by
    unfold yearLength
    split <;> omega
  unfold daysBeforeYear at notBefore before
  unfold SearchableYear at searchable
  omega

end Date

namespace Rule

theorem boundedSteps_eq (pos : 1 ≤ interval) (startHeld : SearchableYear start.year)
    (nowHeld : SearchableYear now.year) :
    boundedSteps interval start now = .ok (dailySteps interval start now) := by
  have startBounds := Date.dayNumber_bounds_of_searchable startHeld
  have nowBounds := Date.dayNumber_bounds_of_searchable nowHeld
  have largest : (largestInteger : Int) = 9223372036854775807 := rfl
  have elapsedHeld : IsInteger64 (now.dayNumber - start.dayNumber) := by
    unfold IsInteger64
    omega
  have before : now.dayNumber - start.dayNumber < 0 ↔ now < start := by
    rw [← Date.dayNumber_lt_iff]
    omega
  unfold boundedSteps dailySteps
  rw [held_of elapsedHeld, ok_bind]
  simp only [before]
  split
  · rfl
  · rename_i notBefore
    have elapsed : 0 ≤ now.dayNumber - start.dayNumber := Int.not_lt.mp (before.not.mpr notBefore)
    have low := Int.ediv_nonneg elapsed (Int.natCast_nonneg interval)
    have high := Int.ediv_le_self (interval : Int) elapsed
    -- A quotient is no larger than the number of days that was divided.
    have wholeHeld : IsInteger64 ((now.dayNumber - start.dayNumber) / interval) := by
      unfold IsInteger64
      omega
    have stepsHeld : IsInteger64 ((now.dayNumber - start.dayNumber) / interval + 1) := by
      unfold IsInteger64
      omega
    have divides : quotient64 (now.dayNumber - start.dayNumber) interval =
        .ok ((now.dayNumber - start.dayNumber) / interval) := by
      rw [quotient64, if_neg (by omega), Int.tdiv_eq_ediv_of_nonneg elapsed, held_of wholeHeld]
    rw [divides, ok_bind, held_of stepsHeld]

theorem dailySteps_mul_le (pos : 1 ≤ interval) (start now : Date) :
    dailySteps interval start now * interval ≤
      max 0 (now.dayNumber - start.dayNumber) + interval := by
  unfold dailySteps
  split
  · omega
  · have covered := Int.ediv_mul_le (now.dayNumber - start.dayNumber)
      (show (interval : Int) ≠ 0 by omega)
    rw [Int.add_mul, Int.one_mul]
    omega

theorem integer64?_dailySteps (bounds : shortestInterval ≤ interval ∧ interval ≤ longestInterval)
    (startHeld : SearchableYear start.year) (nowHeld : SearchableYear now.year) :
    integer64? (dailySteps interval start now * interval) =
      some (dailySteps interval start now * interval) := by
  have startBounds := Date.dayNumber_bounds_of_searchable startHeld
  have nowBounds := Date.dayNumber_bounds_of_searchable nowHeld
  have one_le := one_le_dailySteps interval start now
  have forward : 0 ≤ dailySteps interval start now * interval :=
    Int.mul_nonneg (by omega) (Int.natCast_nonneg interval)
  have covered := dailySteps_mul_le bounds.1 start now
  have largest : (largestInteger : Int) = 9223372036854775807 := rfl
  have longest : interval ≤ 400 := bounds.2
  apply if_pos
  unfold IsInteger64
  omega

theorem boundedDaily_eq (startHeld : SearchableYear start.year) (nowHeld : SearchableYear now.year)
    (interval : Nat) : boundedDaily interval start now = .ok (nextDaily interval start now) := by
  unfold boundedDaily nextDaily
  by_cases bounds : shortestInterval ≤ interval ∧ interval ≤ longestInterval
  · rw [if_pos bounds, if_pos bounds, boundedSteps_eq bounds.1 startHeld nowHeld, ok_bind,
      integer64?_dailySteps bounds startHeld nowHeld, Option.bind_some, Date.addDays64_eq]
    cases start.addDays (dailySteps interval start now * interval) with
    | none => rfl
    | some date => rfl
  · rw [if_neg bounds, if_neg bounds]
    rfl

theorem boundedYearAfter_eq (startHeld : SearchableYear start.year) (lower : 0 ≤ years)
    (upper : years + tries ≤ 2147483647) :
    boundedYearAfter start now tries years = .ok (firstYearAfter start now tries years) := by
  induction tries generalizing years with
  | zero => rfl
  | succ tries ih =>
      have moreHeld : IsInteger32 (years + 1) := by
        unfold IsInteger32
        omega
      rw [boundedYearAfter, Date.boundedYears_eq startHeld, ok_bind, firstYearAfter_succ]
      cases start.addYears years with
      | none => rfl
      | some candidate =>
          simp only
          split
          · rfl
          · rw [held_of moreHeld, ok_bind, ih (by omega) (by omega)]

theorem yearsBetween_bounds (startHeld : SearchableYear start.year)
    (nowHeld : SearchableYear now.year) :
    -524285 ≤ now.year - start.year ∧ now.year - start.year ≤ 524285 := by
  unfold SearchableYear at startHeld nowHeld
  omega

theorem boundedYearly_eq (startHeld : SearchableYear start.year)
    (nowHeld : SearchableYear now.year) :
    boundedYearly start now = .ok (nextYearly start now) := by
  have bounds := yearsBetween_bounds startHeld nowHeld
  have yearsHeld : IsInteger32 (now.year - start.year) := by
    unfold IsInteger32
    omega
  rw [boundedYearly, held_of yearsHeld, ok_bind]
  exact boundedYearAfter_eq startHeld (by omega) (by omega)

theorem exists_monthNumber32? (startHeld : SearchableYear start.year) (lower : 0 ≤ years)
    (upper : years ≤ 600000) :
    integer32? (years * 12) = some (years * 12) ∧
      start.monthNumber32? (years * 12) = some (start.monthNumber + years * 12) := by
  have pos := start.one_le_month
  have le := start.month_le
  have searchable := startHeld
  unfold SearchableYear at searchable
  constructor
  · apply if_pos
    unfold IsInteger32
    omega
  · refine (Date.monthNumber32?_eq_some_iff startHeld).mpr ⟨?_, rfl⟩
    unfold Date.monthNumber IsInteger32
    omega

theorem asInteger32_day (date : Date) : asInteger32 date.day = date.day := by
  have le := date.day_le
  have longest := monthLength_le date.year date.month
  exact Int.bmod_eq_of_le (by omega) (by omega)

theorem boundedNames_eq (date : Date) (code : Int) :
    boundedNames date code = .ok (decide (NamesDay code date)) := by
  have long := le_monthLength date.year date.month
  have longest := monthLength_le date.year date.month
  rw [← lastDayOfMonth_eq] at long longest
  have beforeLast : IsNatural32 (lastDayOfMonth date.year date.month - 1) := by
    unfold IsNatural32
    omega
  unfold boundedNames NamesDay
  split
  · rfl
  · split
    · rw [held_of beforeLast, ok_bind]
      refine congrArg Except.ok (decide_eq_decide.mpr ?_)
      omega
    · rw [asInteger32_day]
      rfl

theorem anyM_eq {α : Type} {Holds : α → Prop} [DecidablePred Holds] {test : α → Except Overrun Bool}
    (tests : ∀ item, test item = .ok (decide (Holds item))) (items : List α) :
    items.anyM test = .ok (decide (∃ item ∈ items, Holds item)) := by
  induction items with
  | nil => simp [pure, Except.pure]
  | cons item rest ih =>
      rw [List.anyM_cons, tests item, ok_bind, ih]
      by_cases holds : Holds item <;> simp [holds, pure, Except.pure]

theorem boundedMatches_eq (date : Date) (rule : Rule) :
    rule.boundedMatches date = .ok (decide (rule.Matches date)) := by
  cases rule with
  | daily interval => rfl
  | yearly => rfl
  | weekly weekdays => rfl
  | monthly days months =>
      simp only [boundedMatches]
      by_cases allowed : AllowsMonth months date.month
      · rw [if_pos allowed, anyM_eq (boundedNames_eq date)]
        refine congrArg Except.ok (decide_eq_decide.mpr ?_)
        exact (and_iff_right allowed).symm
      · rw [if_neg allowed]
        refine congrArg Except.ok (decide_eq_false fun falls => ?_).symm
        exact allowed falls.1

theorem boundedTry_of_lt {goOn : Date → Except Overrun (Except RuleError Date)} (after : now < date) :
    boundedTry rule now goOn (some date) =
      if rule.Matches date then .ok (.ok date) else goOn date := by
  simp only [boundedTry, if_pos after, boundedMatches_eq, ok_bind, decide_eq_true_eq]
  rfl

theorem boundedMatch_eq (rule : Rule) (window : Nat) (notBefore : now ≤ date) :
    boundedMatch rule now window date = .ok (firstMatch rule window date) := by
  induction window generalizing date with
  | zero => rfl
  | succ window ih =>
      rw [boundedMatch, firstMatch, Date.addDays64_eq, Date.addDays_one]
      cases writable : date.next.writable? with
      | none => rfl
      | some candidate =>
          obtain ⟨-, rfl⟩ := Date.writable?_eq_some_iff.mp writable
          have after : now < date.next := lt_of_le_of_lt notBefore date.lt_next
          rw [boundedTry_of_lt after]
          simp only
          split
          · rfl
          · exact ih (le_of_lt after)

def HasDays32 : Rule → Prop
  | .monthly days _ => ∀ day ∈ days, IsInteger32 day
  | .daily _ | .yearly | .weekly _ => True

theorem asNatural32_of_nonneg (integer32 : IsInteger32 value) (nonneg : 0 ≤ value) :
    (asNatural32 value : Int) = value := by
  unfold IsInteger32 at integer32
  unfold asNatural32
  omega

theorem boundedEveryYear_iff (days32 : ∀ day ∈ days, IsInteger32 day) :
    BoundedEveryYear days months ↔ OccursEveryYear days months := by
  refine exists_congr fun day => and_congr_right fun member => ?_
  by_cases negative : day < 0
  · exact iff_of_true (.inl negative) (.inl negative)
  · have same := asNatural32_of_nonneg (days32 day member) (Int.not_lt.mp negative)
    refine or_congr_right (exists_congr fun month => and_congr_right fun _ => ?_)
    omega

theorem boundedWindow_eq (days32 : ∀ day ∈ days, IsInteger32 day) (months : Option (List Nat)) :
    boundedWindow days months = monthlyWindow days months := by
  cases months with
  | none => rfl
  | some listed =>
      unfold boundedWindow monthlyWindow
      simp only [boundedEveryYear_iff days32]

theorem boundedOccurrence_eq (days32 : rule.HasDays32) (startHeld : SearchableYear start.year)
    (nowHeld : SearchableYear now.year) :
    rule.boundedOccurrence start now = .ok (rule.nextOccurrence start now) := by
  have notBefore : now ≤ Date.latest start now := by
    rw [Date.latest_eq_max]
    exact le_max_right start now
  cases rule with
  | daily interval => exact boundedDaily_eq startHeld nowHeld interval
  | yearly => exact boundedYearly_eq startHeld nowHeld
  | weekly weekdays => exact boundedMatch_eq _ _ notBefore
  | monthly days months =>
      rw [boundedOccurrence, boundedWindow_eq days32]
      exact boundedMatch_eq _ _ notBefore

/-- The date is one that the search looks at. -/
inductive Tries (start now : Date) : Rule → Date → Prop where
  | steps {interval : Nat} : Tries start now (.daily interval)
      (Date.ofDayNumber (start.dayNumber + dailySteps interval start now * interval))
  | years {more : Nat} : more < 3 →
      Tries start now .yearly (start.yearsLater (max (now.year - start.year) 1 + more))
  | day {rule : Rule} {count : Nat} : 1 ≤ count → count ≤ rule.window →
      Tries start now rule ((Date.latest start now).daysLater count)

theorem not_writable_of_nextDaily (gaveUp : nextDaily interval start now = .error .dateOverflow) :
    ¬ (Date.ofDayNumber (start.dayNumber + dailySteps interval start now * interval)).Writable := by
  unfold nextDaily at gaveUp
  split at gaveUp
  · split at gaveUp
    · cases gaveUp
    · rename_i moved
      exact Date.writable?_eq_none_iff.mp moved
  · cases gaveUp

theorem exists_years_of_firstYearAfter
    (gaveUp : firstYearAfter start now tries years = .error .dateOverflow) :
    ∃ more : Nat, more < tries ∧ ¬ (start.yearsLater (years + more)).Writable := by
  induction tries generalizing years with
  | zero => cases gaveUp
  | succ tries ih =>
      rw [firstYearAfter_succ, Date.addYears_eq] at gaveUp
      cases writable : (start.yearsLater years).writable? with
      | none =>
          refine ⟨0, Nat.zero_lt_succ _, ?_⟩
          rw [Int.natCast_zero, Int.add_zero]
          exact Date.writable?_eq_none_iff.mp writable
      | some candidate =>
          rw [writable] at gaveUp
          simp only at gaveUp
          split at gaveUp
          · cases gaveUp
          · obtain ⟨more, few, unwritable⟩ := ih gaveUp
            refine ⟨more + 1, Nat.succ_lt_succ few, ?_⟩
            rwa [Int.natCast_succ, Int.add_comm (more : Int) 1, ← Int.add_assoc]

theorem exists_day_of_firstMatch (gaveUp : firstMatch rule window date = .error .dateOverflow) :
    ∃ count, 1 ≤ count ∧ count ≤ window ∧ ¬ (date.daysLater count).Writable := by
  induction window generalizing date with
  | zero => cases gaveUp
  | succ window ih =>
      rw [firstMatch] at gaveUp
      cases writable : date.next.writable? with
      | none =>
          have unwritable := Date.writable?_eq_none_iff.mp writable
          exact ⟨1, Nat.le_refl 1, Nat.succ_le_succ (Nat.zero_le _), unwritable⟩
      | some candidate =>
          obtain ⟨-, rfl⟩ := Date.writable?_eq_some_iff.mp writable
          rw [writable] at gaveUp
          simp only at gaveUp
          split at gaveUp
          · cases gaveUp
          · obtain ⟨count, -, few, unwritable⟩ := ih gaveUp
            exact ⟨count + 1, Nat.succ_le_succ (Nat.zero_le _), Nat.succ_le_succ few, unwritable⟩

theorem exists_tries_of_nextOccurrence
    (gaveUp : rule.nextOccurrence start now = .error .dateOverflow) :
    ∃ date, rule.Tries start now date ∧ ¬ date.Writable := by
  cases rule with
  | daily interval => exact ⟨_, .steps, not_writable_of_nextDaily gaveUp⟩
  | yearly =>
      obtain ⟨more, few, unwritable⟩ := exists_years_of_firstYearAfter gaveUp
      exact ⟨_, .years few, unwritable⟩
  | weekly weekdays =>
      obtain ⟨count, pos, few, unwritable⟩ := exists_day_of_firstMatch gaveUp
      exact ⟨_, .day pos few, unwritable⟩
  | monthly days months =>
      obtain ⟨count, pos, few, unwritable⟩ := exists_day_of_firstMatch gaveUp
      exact ⟨_, .day pos few, unwritable⟩

/-- Whatever codes a rule holds, the search between two dates of the bounded calendar ends without an
operation that leaves its width or divides by zero, and finds what it finds without bounds. Nor does a
checked operation on integers fail: a search that is given up has looked at a date beyond the writable
years. No day matches other codes than those of the last two days and those of the days of a month. -/
theorem boundedOccurrence_exact (startHeld : SearchableYear start.year)
    (nowHeld : SearchableYear now.year) :
    (∀ rule : Rule, rule.HasDays32 →
      rule.boundedOccurrence start now = .ok (rule.nextOccurrence start now)) ∧
    (∀ rule : Rule, rule.HasDays32 → rule.boundedOccurrence start now = .ok (.error .dateOverflow) →
      ∃ date, rule.Tries start now date ∧ ¬ date.Writable) ∧
    (∀ interval, shortestInterval ≤ interval ∧ interval ≤ longestInterval →
      integer64? (dailySteps interval start now * interval) =
        some (dailySteps interval start now * interval)) ∧
    (∀ more : Nat, more < 3 → ∃ months, integer32? ((max (now.year - start.year) 1 + more) * 12) = some months ∧
      ∃ number, start.monthNumber32? months = some number) ∧
    ∀ (date : Date) (code : Int), boundedNames date code = .ok true →
      code = -1 ∨ code = -2 ∨ 1 ≤ code ∧ code ≤ 31 := by
  refine ⟨fun rule days32 => boundedOccurrence_eq days32 startHeld nowHeld, fun rule days32 gaveUp => ?_,
    fun interval bounds => integer64?_dailySteps bounds startHeld nowHeld, fun more few => ?_,
    fun date code named => ?_⟩
  · rw [boundedOccurrence_eq days32 startHeld nowHeld] at gaveUp
    exact exists_tries_of_nextOccurrence (Except.ok.inj gaveUp)
  · have bounds := yearsBetween_bounds startHeld nowHeld
    obtain ⟨months, number⟩ := exists_monthNumber32? startHeld
      (show 0 ≤ max (now.year - start.year) 1 + more by omega) (by omega)
    exact ⟨_, months, _, number⟩
  · rw [boundedNames_eq, Except.ok.injEq, decide_eq_true_eq] at named
    have le := date.day_le
    have longest := monthLength_le date.year date.month
    rcases namesDay_iff.mp named with positive | ⟨last, -⟩ | ⟨beforeLast, -⟩
    · exact .inr (.inr (by omega))
    · exact .inl last
    · exact .inr (.inl beforeLast)

/-- From the first day of the calendar a rule with a code that names no day finds the leap day that
follows, and up to the last month of the calendar a yearly rule is given up. -/
theorem boundedOccurrence_exact_farApart :
    let start := Date.firstOf (-262143) 1 (by decide) (by decide)
    let now := Date.firstOf 2024 2 (by decide) (by decide)
    let later := Date.firstOf 262142 12 (by decide) (by decide)
    let rule := Rule.monthly [2147483647, 29] (some [4294967295, 2])
    SearchableYear start.year ∧ SearchableYear now.year ∧ SearchableYear later.year ∧
      rule.HasDays32 ∧ rule.boundedOccurrence start now = .ok (.ok (Date.leapDay 2024 (by decide))) ∧
      HasDays32 .yearly ∧ boundedOccurrence .yearly start later = .ok (.error .dateOverflow) ∧
      (∃ date, Tries start later .yearly date ∧ ¬ date.Writable) ∧
      (shortestInterval ≤ 400 ∧ 400 ≤ longestInterval) ∧
      integer64? (dailySteps 400 start later * 400) = some (dailySteps 400 start later * 400) := by
  intro start now later rule
  have startHeld : SearchableYear start.year := by decide
  have nowHeld : SearchableYear now.year := by decide
  have laterHeld : SearchableYear later.year := by decide
  have days32 : rule.HasDays32 := by
    unfold rule HasDays32
    decide
  have bounds : shortestInterval ≤ 400 ∧ 400 ≤ longestInterval := by decide
  obtain ⟨finds, -⟩ := boundedOccurrence_exact startHeld nowHeld
  obtain ⟨ends, tried, products, -⟩ := boundedOccurrence_exact startHeld laterHeld
  have found : rule.nextOccurrence start now = .ok (Date.leapDay 2024 (by decide)) := by decide +kernel
  have beyond : nextOccurrence .yearly start later = .error .dateOverflow := by decide +kernel
  have gaveUp : boundedOccurrence .yearly start later = .ok (.error .dateOverflow) := by
    rw [ends .yearly trivial, beyond]
  refine ⟨startHeld, nowHeld, laterHeld, days32, ?_, trivial, gaveUp, tried .yearly trivial gaveUp,
    bounds, products 400 bounds⟩
  rw [finds rule days32, found]

end Rule

end Agenda
