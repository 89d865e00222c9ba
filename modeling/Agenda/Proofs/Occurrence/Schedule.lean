import Agenda.Proofs.Date.Years
import Agenda.Proofs.DueDate
import Agenda.Proofs.Occurrence.Window

/-! All four searches find the first date of one schedule, and from one of its own dates the schedule is
what is left of it. So late completion does not matter, and the dates that a rule gives are the schedule.
-/

namespace Agenda

namespace Rule

variable {rule : Rule} {start now date found : Date} {interval : Nat}

/-- The date is on the schedule of the rule that begins after the start date. -/
def Recurs (start date : Date) : Rule → Prop
  | .daily interval =>
      ∃ steps : Nat, 1 ≤ steps ∧ date.dayNumber = start.dayNumber + steps * interval
  | .yearly => start.year < date.year ∧ date.month = start.month ∧ date.day = start.day
  | .weekly weekdays => start < date ∧ FallsOn date (.weekly weekdays)
  | .monthly days months => start < date ∧ FallsOn date (.monthly days months)

theorem recurs_iff_fallsOn (dayRule : rule.IsDayRule) :
    rule.Recurs start date ↔ start < date ∧ rule.FallsOn date := by
  cases rule with
  | daily interval => exact dayRule.elim
  | yearly => exact dayRule.elim
  | weekly weekdays => rfl
  | monthly days months => rfl

theorem lt_of_recurs (valid : rule.Valid) (recurs : rule.Recurs start date) : start < date := by
  cases rule with
  | daily interval =>
      obtain ⟨steps, one_le, later⟩ := recurs
      have forward : 1 ≤ steps * interval := Nat.mul_pos one_le valid.1
      rw [← Date.dayNumber_lt_iff, later]
      omega
  | yearly => exact Date.lt_iff.mpr (.inl recurs.1)
  | weekly weekdays => exact recurs.1
  | monthly days months => exact recurs.1

/-- After one of its dates, the schedule from there is the schedule from the start. -/
theorem recurs_iff_of_recurs (recurs : rule.Recurs start found) (after : found < date) :
    rule.Recurs found date ↔ rule.Recurs start date := by
  cases rule with
  | daily interval =>
      obtain ⟨steps, one_le, reached⟩ := recurs
      rw [← Date.dayNumber_lt_iff, reached] at after
      refine ⟨fun ⟨more, _, later⟩ => ⟨steps + more, by omega, ?_⟩, fun ⟨all, _, later⟩ => ?_⟩
      · rw [later, reached, Int.natCast_add, Int.add_mul, Int.add_assoc]
      · have further : steps < all :=
          Nat.lt_of_mul_lt_mul_right (show steps * interval < all * interval by omega)
        obtain ⟨more, rfl⟩ := Nat.exists_eq_add_of_lt further
        refine ⟨more + 1, by omega, ?_⟩
        rw [later, reached, Nat.add_assoc, Int.natCast_add, Int.add_mul, Int.add_assoc]
  | yearly =>
      obtain ⟨years, month, day⟩ := recurs
      rw [Date.lt_iff] at after
      simp only [Recurs, month, day] at *
      omega
  | weekly weekdays => simp only [Recurs, after, lt_trans recurs.1 after]
  | monthly days months => simp only [Recurs, after, lt_trans recurs.1 after]

/-- The date is one to which the rule leads from the start date. These are the dates of the schedule, but a
yearly rule also leads from a leap day into each later year, be it to the 1st of March. -/
def LeadsTo (start date : Date) : Rule → Prop
  | .yearly => ∃ years : Int, 1 ≤ years ∧ date = start.yearsLater years
  | rule => rule.Recurs start date

theorem leadsTo_iff_recurs (ordinary : rule = .yearly → ¬ start.IsLeapDay) :
    rule.LeadsTo start date ↔ rule.Recurs start date := by
  cases rule with
  | yearly =>
      have fits := Date.day_le_of_not_isLeapDay (ordinary rfl)
      constructor
      · rintro ⟨years, pos, rfl⟩
        rw [Date.yearsLater_eq_inYear (fits _)]
        exact ⟨Int.lt_add_of_pos_right _ pos, rfl, rfl⟩
      · rintro ⟨later, month, day⟩
        refine ⟨date.year - start.year, by omega, ?_⟩
        have year : date.year = start.year + (date.year - start.year) := by omega
        rw [Date.yearsLater_eq_inYear (fits _)]
        exact Date.eq_of_fields year month day
  | daily interval => rfl
  | weekly weekdays => rfl
  | monthly days months => rfl

theorem lt_of_leadsTo (valid : rule.Valid) (leads : rule.LeadsTo start date) : start < date := by
  cases rule with
  | yearly =>
      obtain ⟨years, pos, rfl⟩ := leads
      exact start.lt_yearsLater pos
  | daily interval => exact lt_of_recurs valid leads
  | weekly weekdays => exact lt_of_recurs valid leads
  | monthly days months => exact lt_of_recurs valid leads

/-- A search for the first of the wanted dates finds it, or fails because none of them can be
written. -/
inductive Finds (Wanted : Date → Prop) : Except RuleError Date → Prop where
  | first {date : Date} :
      date.Writable → Wanted date → (∀ other, Wanted other → date ≤ other) → Finds Wanted (.ok date)
  | overflow : (∀ date, Wanted date → 9999 < date.year) → Finds Wanted (.error .dateOverflow)

variable {Wanted WantedElse : Date → Prop} {result other : Except RuleError Date}

theorem Finds.of_iff (finds : Finds Wanted result) (same : ∀ date, Wanted date ↔ WantedElse date) :
    Finds WantedElse result := by
  have equal : Wanted = WantedElse := funext fun date => propext (same date)
  rw [← equal]
  exact finds

theorem Finds.unique (finds : Finds Wanted result) (findsElse : Finds Wanted other) :
    result = other := by
  cases finds with
  | first writable wanted least =>
      cases findsElse with
      | first _ wantedElse leastElse =>
          rw [le_antisymm (least _ wantedElse) (leastElse _ wanted)]
      | overflow beyond =>
          have year := beyond _ wanted
          have inYears := writable.2
          omega
  | overflow beyond =>
      cases findsElse with
      | first writable wanted _ =>
          have year := beyond _ wanted
          have inYears := writable.2
          omega
      | overflow _ => rfl

theorem Finds.of_ok (finds : Finds Wanted (.ok found)) :
    found.Writable ∧ Wanted found ∧ ∀ other, Wanted other → found ≤ other := by
  cases finds with
  | first writable wanted least => exact ⟨writable, wanted, least⟩

theorem Finds.of_error {fault : RuleError} (finds : Finds Wanted (.error fault)) :
    fault = .dateOverflow ∧ ∀ date, Wanted date → 9999 < date.year := by
  cases finds with
  | overflow beyond => exact ⟨rfl, beyond⟩

theorem Finds.beyond {first : Date} (inYears : 0 ≤ first.year) (unwritable : ¬ first.Writable)
    (least : ∀ date, Wanted date → first ≤ date) : Finds Wanted (.error .dateOverflow) := by
  refine .overflow fun date wanted => ?_
  have years := Date.year_le_of_le (least date wanted)
  simp only [Date.Writable] at unwritable
  omega

theorem dailySteps_le {steps : Nat} (pos : 1 ≤ interval) (one_le : 1 ≤ steps)
    (after : now.dayNumber < start.dayNumber + steps * interval) :
    dailySteps interval start now ≤ steps := by
  simp only [dailySteps]
  split
  · omega
  · have few : (now.dayNumber - start.dayNumber) / (interval : Int) < steps :=
      Int.ediv_lt_of_lt_mul (by omega) (by omega)
    omega

theorem one_le_dailySteps (interval : Nat) (start now : Date) :
    1 ≤ dailySteps interval start now := by
  simp only [dailySteps]
  split
  · omega
  · rename_i notBefore
    rw [← Date.dayNumber_lt_iff] at notBefore
    have := Int.ediv_nonneg (show 0 ≤ now.dayNumber - start.dayNumber by omega)
      (Int.natCast_nonneg interval)
    omega

theorem lt_dailySteps (pos : 1 ≤ interval) (start now : Date) :
    now.dayNumber < start.dayNumber + dailySteps interval start now * interval := by
  simp only [dailySteps]
  split
  · rename_i before
    rw [← Date.dayNumber_lt_iff] at before
    omega
  · have := Int.lt_ediv_add_one_mul_self (now.dayNumber - start.dayNumber)
      (show 0 < (interval : Int) by omega)
    omega

theorem recurs_of_dailySteps
    (reached : date.dayNumber = start.dayNumber + dailySteps interval start now * interval) :
    Recurs start date (.daily interval) := by
  have one_le := one_le_dailySteps interval start now
  obtain ⟨steps, same⟩ := Int.eq_ofNat_of_zero_le (show 0 ≤ dailySteps interval start now by omega)
  rw [same] at one_le reached
  exact ⟨steps, by omega, reached⟩

theorem dailySteps_least (pos : 1 ≤ interval) (recurs : Recurs start date (.daily interval))
    (after : now < date) :
    start.dayNumber + dailySteps interval start now * interval ≤ date.dayNumber := by
  obtain ⟨steps, one_le, reached⟩ := recurs
  rw [← Date.dayNumber_lt_iff, reached] at after
  have enough := dailySteps_le pos one_le after
  have covered := Int.mul_le_mul_of_nonneg_right enough (Int.natCast_nonneg interval)
  omega

theorem finds_nextDaily (valid : Valid (.daily interval)) (writable : start.Writable) (now : Date) :
    Finds (fun date => Recurs start date (.daily interval) ∧ now < date)
      (nextDaily interval start now) := by
  have bounds : shortestInterval ≤ interval ∧ interval ≤ longestInterval := valid
  have past := lt_dailySteps bounds.1 start now
  rw [nextDaily, if_pos bounds]
  simp only [Date.addDays]
  have reached := Date.dayNumber_ofDayNumber
    (start.dayNumber + dailySteps interval start now * interval)
  generalize Date.ofDayNumber (start.dayNumber + dailySteps interval start now * interval) = first
    at reached
  rw [← reached, Date.dayNumber_lt_iff] at past
  have recurs := recurs_of_dailySteps reached
  -- Fewer steps do not lead past the reference date.
  have least : ∀ date, Recurs start date (.daily interval) ∧ now < date → first ≤ date := by
    rintro date ⟨wanted, after⟩
    rw [Date.le_iff_dayNumber_le, reached]
    exact dailySteps_least bounds.1 wanted after
  cases inYears : first.writable? with
  | none =>
      have later := Date.year_le_of_le (le_of_lt (lt_of_recurs valid recurs))
      exact .beyond (le_trans writable.1 later) (Date.writable?_eq_none_iff.mp inYears) least
  | some date =>
      obtain ⟨firstWritable, rfl⟩ := Date.writable?_eq_some_iff.mp inYears
      exact .first firstWritable ⟨recurs, past⟩ least

theorem finds_firstYearAfter_succ (writable : start.Writable) {tries : Nat} {years : Int}
    (pos : 1 ≤ years)
    (none_before : ∀ count, 1 ≤ count → now < start.yearsLater count → years ≤ count)
    (goesOn : start.yearsLater years ≤ now →
      Finds (fun date => LeadsTo start date .yearly ∧ now < date)
        (firstYearAfter start now tries (years + 1))) :
    Finds (fun date => LeadsTo start date .yearly ∧ now < date)
      (firstYearAfter start now (tries + 1) years) := by
  rw [firstYearAfter_succ, Date.addYears_eq]
  -- No smaller number of years leads past the reference date.
  have least : ∀ date, LeadsTo start date .yearly ∧ now < date → start.yearsLater years ≤ date := by
    rintro date ⟨⟨count, one_le, rfl⟩, after⟩
    rcases lt_or_eq_of_le (none_before count one_le after) with more | rfl
    · exact le_of_lt (Date.yearsLater_lt_of_lt more)
    · exact le_refl _
  cases inYears : (start.yearsLater years).writable? with
  | none =>
      have year := start.year_yearsLater years
      have startWritable := writable.1
      exact .beyond (by omega) (Date.writable?_eq_none_iff.mp inYears) least
  | some candidate =>
      obtain ⟨candidateWritable, rfl⟩ := Date.writable?_eq_some_iff.mp inYears
      simp only
      split
      · rename_i after
        exact .first candidateWritable ⟨⟨years, pos, rfl⟩, after⟩ least
      · rename_i notAfter
        exact goesOn (le_of_not_gt notAfter)

theorem finds_firstYearAfter (writable : start.Writable) {tries : Nat} {years : Int} (pos : 1 ≤ years)
    (near : now.year < start.year + years + tries)
    (none_before : ∀ count, 1 ≤ count → now < start.yearsLater count → years ≤ count) :
    Finds (fun date => LeadsTo start date .yearly ∧ now < date)
      (firstYearAfter start now (tries + 1) years) := by
  -- The last try is in the year after that of the reference date, and later than that date.
  induction tries generalizing years with
  | zero =>
      refine finds_firstYearAfter_succ writable pos none_before fun notAfter => ?_
      have ordered := Date.year_le_of_le notAfter
      rw [Date.year_yearsLater] at ordered
      omega
  | succ tries ih =>
      refine finds_firstYearAfter_succ writable pos none_before fun notAfter => ?_
      apply ih (by omega) (by omega)
      intro count one_le after
      have le := none_before count one_le after
      rcases lt_or_eq_of_le le with more | rfl
      · exact more
      · exact absurd after (not_lt_of_ge notAfter)

theorem finds_nextYearly (writable : start.Writable) (now : Date) :
    Finds (fun date => LeadsTo start date .yearly ∧ now < date) (nextYearly start now) := by
  unfold nextYearly
  apply finds_firstYearAfter writable
  · omega
  · omega
  · intro count one_le after
    have ordered := Date.year_le_of_le (le_of_lt after)
    rw [Date.year_yearsLater] at ordered
    omega

theorem finds_of_isDayRule (valid : rule.Valid) (dayRule : rule.IsDayRule) (writable : start.Writable)
    (now : Date) :
    Finds (fun date => rule.Recurs start date ∧ now < date) (rule.nextOccurrence start now) := by
  have wanted_iff (date : Date) : (Date.latest start now < date ∧ rule.FallsOn date) ↔
      rule.Recurs start date ∧ now < date := by
    rw [recurs_iff_fallsOn dayRule, Date.latest_lt_iff]
    tauto
  refine Finds.of_iff ?_ wanted_iff
  rcases nextOccurrence_cases valid dayRule writable.1 now with
    ⟨found, result, inYears, first⟩ | ⟨result, none⟩
  · rw [result]
    refine .first inYears ⟨first.after, first.falls⟩ fun other ⟨after, falls⟩ => ?_
    exact le_of_not_gt fun earlier => first.first other after earlier falls
  · rw [result]
    refine .overflow fun date ⟨after, falls⟩ => ?_
    exact lt_of_not_ge fun inYears => none date after inYears falls

theorem finds_nextOccurrence_of_leadsTo (valid : rule.Valid) (writable : start.Writable) (now : Date) :
    Finds (fun date => rule.LeadsTo start date ∧ now < date) (rule.nextOccurrence start now) := by
  cases rule with
  | daily interval => exact finds_nextDaily valid writable now
  | yearly => exact finds_nextYearly writable now
  | weekly weekdays => exact finds_of_isDayRule valid trivial writable now
  | monthly days months => exact finds_of_isDayRule valid trivial writable now

/-- The next occurrence is the first date of the schedule after the reference date. -/
theorem finds_nextOccurrence (valid : rule.Valid) (ordinary : rule = .yearly → ¬ start.IsLeapDay)
    (writable : start.Writable) (now : Date) :
    Finds (fun date => rule.Recurs start date ∧ now < date) (rule.nextOccurrence start now) :=
  (finds_nextOccurrence_of_leadsTo valid writable now).of_iff fun _ =>
    and_congr_left fun _ => leadsTo_iff_recurs ordinary

theorem recurs_iff_of_finds (valid : rule.Valid)
    (finds : Finds (fun date => rule.Recurs start date ∧ now < date) (.ok found)) :
    rule.Recurs start date ∧ now < date ↔ date = found ∨ rule.Recurs found date ∧ now < date := by
  obtain ⟨-, ⟨recurs, after⟩, least⟩ := finds.of_ok
  refine ⟨fun wanted => ?_, fun member => ?_⟩
  · rcases lt_or_eq_of_le (least date wanted) with further | same
    · exact .inr ⟨(recurs_iff_of_recurs recurs further).mpr wanted.1, wanted.2⟩
    · exact .inl same.symm
  · rcases member with rfl | ⟨further, afterNow⟩
    · exact ⟨recurs, after⟩
    · exact ⟨(recurs_iff_of_recurs recurs (lt_of_recurs valid further)).mp further, afterNow⟩

theorem not_isLeapDay_of_recurs (ordinary : rule = .yearly → ¬ start.IsLeapDay)
    (recurs : rule.Recurs start date) : rule = .yearly → ¬ date.IsLeapDay := by
  rintro rfl ⟨month, day⟩
  exact ordinary rfl ⟨recurs.2.1.symm.trans month, recurs.2.2.symm.trans day⟩

/-- Completing a task late does not shift its schedule: what comes next does not depend on whether an
occurrence up to the reference date was completed before. -/
theorem nextOccurrence_of_late {text : String} {first second : Date}
    (read : Rule.read text = .ok rule) (ordinary : rule = .yearly → ¬ start.IsLeapDay)
    (writable : start.Writable) (result : rule.nextOccurrence start first = .ok found)
    (late : found ≤ second) :
    rule.nextOccurrence found second = rule.nextOccurrence start second := by
  have valid := valid_of_read read
  have finds := finds_nextOccurrence valid ordinary writable first
  rw [result] at finds
  obtain ⟨foundWritable, ⟨recurs, -⟩, -⟩ := finds.of_ok
  have findsSecond := finds_nextOccurrence valid (not_isLeapDay_of_recurs ordinary recurs)
    foundWritable second
  refine Finds.unique (findsSecond.of_iff fun date => ?_)
    (finds_nextOccurrence valid ordinary writable second)
  -- Both searches look behind the second reference date, where the two schedules are one.
  refine and_congr_left fun after => ?_
  exact recurs_iff_of_recurs recurs (lt_of_le_of_lt late after)

/-- Every three days from the 30th of January 2024 on, once completed on the 28th of February, which
leads to the leap day, and once more in March. -/
theorem nextOccurrence_of_late_throughLeapDay :
    ∃ start first found second, Date.ofFields? 2024 1 30 = some start ∧
      Date.ofFields? 2024 2 28 = some first ∧ Date.ofFields? 2024 2 29 = some found ∧
      Date.ofFields? 2024 3 10 = some second ∧ Rule.read "d 3" = .ok (.daily 3) ∧
      start.Writable ∧ nextOccurrence (.daily 3) start first = .ok found ∧ found ≤ second ∧
      nextOccurrence (.daily 3) found second = nextOccurrence (.daily 3) start second := by
  have read : Rule.read "d 3" = .ok (.daily 3) := by decide
  have result : nextOccurrence (.daily 3)
      { year := 2024, month := 1, day := 30, day_le := by decide }
      { year := 2024, month := 2, day := 28, day_le := by decide } =
    .ok { year := 2024, month := 2, day := 29, day_le := by decide } := by decide
  refine ⟨_, _, _, { year := 2024, month := 3, day := 10, day_le := by decide }, rfl, rfl, rfl, rfl,
    read, by decide, result, by decide, ?_⟩
  exact nextOccurrence_of_late read (fun impossible => by cases impossible) (by decide) result
    (by decide)

end Rule

variable {now start found : Date} {rule : Rule} {text due : String} {texts others : List String}
  {reason reasonElse : RuleError}

/-- The due dates that a rule gives one after another, each of them from the one before, and the fault
at which they end. -/
inductive Course (now : Date) (text : String) : String → List String → RuleError → Prop where
  | ends {due : String} {reason : RuleError} :
      nextDueDate now due text = .error reason → Course now text due [] reason
  | moves {due next : String} {later : List String} {reason : RuleError} :
      nextDueDate now due text = .ok next → Course now text next later reason →
        Course now text due (next :: later) reason

theorem Course.unique (course : Course now text due texts reason)
    (courseElse : Course now text due others reasonElse) : texts = others ∧ reason = reasonElse := by
  induction course generalizing others with
  | ends failed =>
      cases courseElse with
      | ends failedElse =>
          rw [failed] at failedElse
          cases failedElse
          exact ⟨rfl, rfl⟩
      | moves moved _ =>
          rw [failed] at moved
          cases moved
  | moves moved _ ih =>
      cases courseElse with
      | ends failed =>
          rw [moved] at failed
          cases failed
      | moves movedElse rest =>
          rw [moved] at movedElse
          cases movedElse
          obtain ⟨rfl, same⟩ := ih rest
          exact ⟨rfl, same⟩

theorem Date.dayNumber_lt_of_writable (writable : start.Writable) :
    start.dayNumber < daysBeforeYear 10000 := by
  have inYear := (dayNumber_bounds start).2
  rw [← daysBeforeYear_succ] at inYear
  have lastYear := writable.2
  exact lt_of_lt_of_le inYear (daysBeforeYear_mono (by omega))

theorem exists_course (read : Rule.read text = .ok rule)
    (written : Date.ofWritten? due = some start) (ordinary : rule = .yearly → ¬ start.IsLeapDay)
    (now : Date) :
    ∃ dates : List Date, Course now text due (dates.map Date.written) .dateOverflow ∧
      dates.Pairwise (· < ·) ∧
      ∀ date, date ∈ dates ↔ (rule.Recurs start date ∧ now < date) ∧ date.year ≤ 9999 := by
  have valid := Rule.valid_of_read read
  -- Each occurrence leaves fewer days until the end of the year 9999.
  induction left : (daysBeforeYear 10000 - start.dayNumber).toNat using Nat.strong_induction_on
    generalizing start due with
  | _ left ih =>
      have finds := Rule.finds_nextOccurrence valid ordinary
        (Date.writable_of_ofWritten? written) now
      have moves := nextDueDate_of_read written read now
      cases result : rule.nextOccurrence start now with
      | error fault =>
          rw [result] at finds moves
          obtain ⟨rfl, beyond⟩ := finds.of_error
          refine ⟨[], .ends moves, .nil, fun date => ?_⟩
          simp only [List.not_mem_nil, false_iff]
          exact fun ⟨wanted, inYears⟩ => absurd inYears (not_le_of_gt (beyond date wanted))
      | ok found =>
          rw [result] at finds moves
          obtain ⟨writable, ⟨recurs, -⟩, -⟩ := finds.of_ok
          have grown := Date.dayNumber_lt_iff.mpr (Rule.lt_of_recurs valid recurs)
          have inYears := Date.dayNumber_lt_of_writable writable
          obtain ⟨later, course, increasing, mem_later_iff⟩ := ih _ (by omega)
            (Date.ofWritten?_written writable) (Rule.not_isLeapDay_of_recurs ordinary recurs) rfl
          refine ⟨found :: later, .moves moves course, .cons (fun date member => ?_) increasing,
            fun date => ?_⟩
          · exact Rule.lt_of_recurs valid ((mem_later_iff date).mp member).1.1
          -- What is left of the schedule is the date that is found and the schedule from there.
          · rw [List.mem_cons, mem_later_iff, Rule.recurs_iff_of_finds valid finds, or_and_right]
            refine or_congr_left (iff_self_and.mpr ?_)
            rintro rfl
            exact writable.2

/-- With the same reference date throughout, the dates that a rule gives come to an end because no later
one can be written. They increase, and they are all the dates of the schedule after the reference date,
none of them left out or repeated. -/
theorem course_iff_schedule (read : Rule.read text = .ok rule)
    (written : Date.ofWritten? due = some start) (ordinary : rule = .yearly → ¬ start.IsLeapDay)
    (now : Date) :
    ∃ dates : List Date,
      (∀ texts reason, Course now text due texts reason ↔
        texts = dates.map Date.written ∧ reason = .dateOverflow) ∧
      dates.Pairwise (· < ·) ∧
      ∀ date, date ∈ dates ↔ rule.Recurs start date ∧ now < date ∧ date.year ≤ 9999 := by
  obtain ⟨dates, course, increasing, member_iff⟩ := exists_course read written ordinary now
  refine ⟨dates, fun texts reason => ⟨fun other => other.unique course, ?_⟩, increasing,
    fun date => (member_iff date).trans and_assoc⟩
  rintro ⟨rfl, rfl⟩
  exact course

/-- The 29th of February of 9896 is followed by that of 9904: the year 9900 is no leap year. -/
theorem course_iff_schedule_skipped_leapYear :
    Rule.read "m 29 2" = .ok (.monthly [29] (some [2])) ∧
      Date.ofWritten? "98960229" = some (Date.leapDay 9896 (by decide)) ∧
      ∃ (now : Date) (dates : List Date), Date.ofFields? 2024 1 1 = some now ∧
        Course now "m 29 2" "98960229" (dates.map Date.written) .dateOverflow ∧
        Date.leapDay 9904 (by decide) ∈ dates ∧
        ∀ date ∈ dates, Rule.FallsOn date (.monthly [29] (some [2])) := by
  have read : Rule.read "m 29 2" = .ok (.monthly [29] (some [2])) := by decide
  have written : Date.ofWritten? "98960229" = some (Date.leapDay 9896 (by decide)) := by decide
  refine ⟨read, written, { year := 2024, month := 1, day := 1, day_le := by decide }, ?_⟩
  obtain ⟨dates, course_iff, -, member_iff⟩ :=
    course_iff_schedule read written (fun impossible => by cases impossible) _
  refine ⟨dates, rfl, (course_iff _ _).mpr ⟨rfl, rfl⟩, (member_iff _).mpr ?_, fun date member => ?_⟩
  · exact ⟨⟨by decide, by decide⟩, by decide, by decide⟩
  · exact ((member_iff date).mp member).1.2

end Agenda
