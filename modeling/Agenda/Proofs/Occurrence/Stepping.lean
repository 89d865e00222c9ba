import Agenda.Proofs.Date.Days
import Agenda.Proofs.Occurrence.Schedule
import Mathlib.Order.Bounds.Basic

namespace Agenda

namespace Rule

variable {start now date found : Date} {interval steps years more : Nat}
  {result other : Except RuleError Date}

/-- How many steps of some days each lead from the start past the reference date. -/
def stepsPast (interval : Nat) (start now : Date) : Set Nat :=
  {steps | 1 ≤ steps ∧ now < start.daysLater (steps * interval)}

theorem lt_daysLater_iff :
    now < start.daysLater (steps * interval) ↔
      now.dayNumber < start.dayNumber + steps * interval := by
  rw [← Date.dayNumber_lt_iff, Date.dayNumber_daysLater, Int.natCast_mul]

theorem exists_isLeast_stepsPast (pos : 1 ≤ interval) (start now : Date) :
    ∃ steps : Nat, dailySteps interval start now = steps ∧
      IsLeast (stepsPast interval start now) steps := by
  have one_le := one_le_dailySteps interval start now
  have past := lt_dailySteps pos start now
  obtain ⟨steps, same⟩ := Int.eq_ofNat_of_zero_le (show 0 ≤ dailySteps interval start now by omega)
  rw [same] at one_le past
  refine ⟨steps, same, ⟨by omega, lt_daysLater_iff.mpr past⟩, ?_⟩
  intro fewer reached
  have enough := dailySteps_le pos reached.1 (lt_daysLater_iff.mp reached.2)
  omega

theorem nextDaily_eq (bounds : shortestInterval ≤ interval ∧ interval ≤ longestInterval)
    (same : dailySteps interval start now = steps) :
    nextDaily interval start now =
      if (start.daysLater (steps * interval)).Writable then .ok (start.daysLater (steps * interval))
      else .error .dateOverflow := by
  rw [nextDaily, if_pos bounds, same, ← Int.natCast_mul, Date.addDays_natCast, Date.writable?]
  by_cases writable : (start.daysLater (steps * interval)).Writable
  · rw [if_pos writable, if_pos writable]
  · rw [if_neg writable, if_neg writable]

theorem exists_steps_of_nextDaily
    (bounds : shortestInterval ≤ interval ∧ interval ≤ longestInterval) (start now : Date) :
    ∃ steps, IsLeast (stepsPast interval start now) steps ∧
      nextDaily interval start now =
        if (start.daysLater (steps * interval)).Writable then
          .ok (start.daysLater (steps * interval))
        else .error .dateOverflow := by
  obtain ⟨steps, same, least⟩ := exists_isLeast_stepsPast bounds.1 start now
  exact ⟨steps, least, nextDaily_eq bounds same⟩

theorem lt_of_nextDaily (result : nextDaily interval start now = .ok found) : now < found := by
  by_cases bounds : shortestInterval ≤ interval ∧ interval ≤ longestInterval
  · obtain ⟨steps, least, same⟩ := exists_steps_of_nextDaily bounds start now
    rw [same] at result
    split at result
    · cases result
      exact least.1.2
    · cases result
  · rw [nextDaily, if_neg bounds] at result
    cases result

/-- A daily rule with an interval of 1 to 400 days gives the first date past the reference date to which
steps of that many days lead from the start, if it can be written. The two dates may lie anywhere in the
calendar. -/
theorem nextOccurrence_daily (interval : Nat) (start now : Date) :
    (¬ (1 ≤ interval ∧ interval ≤ 400) →
      nextOccurrence (.daily interval) start now =
        .error (.outOfRange .interval interval.repr 1 400)) ∧
    (1 ≤ interval ∧ interval ≤ 400 →
      ∃ steps, IsLeast (stepsPast interval start now) steps ∧
        nextOccurrence (.daily interval) start now =
          if (start.daysLater (steps * interval)).Writable then
            .ok (start.daysLater (steps * interval))
          else .error .dateOverflow) ∧
    ∀ found, nextOccurrence (.daily interval) start now = .ok found → now < found := by
  refine ⟨fun beyond => if_neg beyond, fun bounds => ?_, fun found result => ?_⟩
  · exact exists_steps_of_nextDaily bounds start now
  · exact lt_of_nextDaily result

/-- Two weeks after the start another week is needed, since the reference date itself does not count. An
interval of no days is refused. -/
theorem nextOccurrence_daily_wholeWeeks :
    ∃ start now found, Date.ofFields? 2024 2 15 = some start ∧
      Date.ofFields? 2024 2 29 = some now ∧ Date.ofFields? 2024 3 7 = some found ∧
      (1 ≤ 7 ∧ 7 ≤ 400) ∧ nextOccurrence (.daily 7) start now = .ok found ∧ now < found ∧
      (∃ steps, IsLeast (stepsPast 7 start now) steps ∧
        nextOccurrence (.daily 7) start now =
          if (start.daysLater (steps * 7)).Writable then .ok (start.daysLater (steps * 7))
          else .error .dateOverflow) ∧
      ¬ (1 ≤ 0 ∧ 0 ≤ 400) ∧
      nextOccurrence (.daily 0) start now = .error (.outOfRange .interval "0" 1 400) := by
  let start : Date := { year := 2024, month := 2, day := 15, day_le := by decide }
  let now : Date := { year := 2024, month := 2, day := 29, day_le := by decide }
  have result : nextOccurrence (.daily 7) start now =
      .ok { year := 2024, month := 3, day := 7, day_le := by decide } := by decide
  obtain ⟨-, steps, after⟩ := nextOccurrence_daily 7 start now
  exact ⟨start, now, _, rfl, rfl, rfl, by decide, result, after _ result, steps (by decide), by decide,
    (nextOccurrence_daily 0 start now).1 (by decide)⟩

/-- The search that tries whole numbers of years one after another. It ends at the first date that can be
written and lies after the reference date, and fails if there is none from some number on. -/
inductive TriesYears (start now : Date) : Nat → Except RuleError Date → Prop where
  | ends {years : Nat} {date : Date} : start.addYears years = some date → now < date →
      TriesYears start now years (.ok date)
  | goesOn {years : Nat} {result : Except RuleError Date} :
      (∀ date, start.addYears years = some date → ¬ now < date) →
        TriesYears start now (years + 1) result → TriesYears start now years result
  | fails {years : Nat} :
      (∀ more date, years ≤ more → start.addYears more = some date → ¬ now < date) →
        TriesYears start now years (.error .dateOverflow)

theorem TriesYears.unique (tries : TriesYears start now years result)
    (triesElse : TriesYears start now years other) : result = other := by
  induction tries generalizing other with
  | ends moved after =>
      cases triesElse with
      | ends movedElse _ =>
          cases moved.symm.trans movedElse
          rfl
      | goesOn missed _ => exact absurd after (missed _ moved)
      | fails missed => exact absurd after (missed _ _ (Nat.le_refl _) moved)
  | goesOn missed _ ih =>
      cases triesElse with
      | ends moved after => exact absurd after (missed _ moved)
      | goesOn _ rest => exact ih rest
      | fails missedAll =>
          apply ih
          exact .fails fun more date later => missedAll more date (Nat.le_of_succ_le later)
  | fails missed =>
      -- A failure says of all years at once that they miss, so here the other search is followed.
      induction triesElse with
      | ends moved after => exact absurd after (missed _ _ (Nat.le_refl _) moved)
      | goesOn _ _ ih => exact ih fun more date later => missed more date (Nat.le_of_succ_le later)
      | fails _ => rfl

theorem TriesYears.of_later (tries : TriesYears start now (years + more) result)
    (missed : ∀ count date, years ≤ count → count < years + more →
      start.addYears count = some date → ¬ now < date) :
    TriesYears start now years result := by
  induction more generalizing years with
  | zero => exact tries
  | succ more ih =>
      refine .goesOn (fun date => missed years date (Nat.le_refl _) (by omega)) (ih ?_ ?_)
      · rwa [Nat.add_assoc, Nat.add_comm 1 more]
      · intro count date later earlier
        exact missed count date (by omega) (by omega)

theorem triesYears_of_finds
    (finds : Finds (fun date => LeadsTo start date .yearly ∧ now < date) result) :
    TriesYears start now 1 result := by
  cases finds with
  | @first date writable wanted least =>
      obtain ⟨⟨years, pos, rfl⟩, after⟩ := wanted
      obtain ⟨more, rfl⟩ : ∃ more : Nat, years = (1 + more : Nat) := ⟨(years - 1).toNat, by omega⟩
      have moved : start.addYears (1 + more : Nat) = some (start.yearsLater (1 + more : Nat)) := by
        rw [Date.addYears_eq]
        exact Date.writable?_eq_some_iff.mpr ⟨writable, rfl⟩
      refine .of_later (.ends moved after) fun count date one_le earlier shown afterElse => ?_
      rw [Date.addYears_eq] at shown
      obtain ⟨-, rfl⟩ := Date.writable?_eq_some_iff.mp shown
      have notEarlier := least _ ⟨⟨count, by omega, rfl⟩, afterElse⟩
      exact absurd (Date.yearsLater_lt_of_lt (by omega)) (not_lt_of_ge notEarlier)
  | overflow beyond =>
      refine .fails fun years date one_le shown after => ?_
      rw [Date.addYears_eq] at shown
      obtain ⟨writable, rfl⟩ := Date.writable?_eq_some_iff.mp shown
      have year := beyond _ ⟨⟨years, by omega, rfl⟩, after⟩
      exact absurd writable.2 (not_le_of_gt year)

/-- A yearly rule gives what comes of trying one year after another, and it never gives up for want of
tries. -/
theorem nextOccurrence_yearly (writable : start.Writable) (now : Date) :
    (∀ result, TriesYears start now 1 result ↔ nextOccurrence .yearly start now = result) ∧
      nextOccurrence .yearly start now ≠ .error .noOccurrence := by
  have finds := finds_nextYearly writable now
  have tries := triesYears_of_finds finds
  refine ⟨fun result => ⟨fun triesElse => tries.unique triesElse, fun same => same ▸ tries⟩, ?_⟩
  intro gaveUp
  rw [show nextYearly start now = _ from gaveUp] at finds
  cases finds.of_error.1

theorem nextOccurrence_yearly_lastYear :
    (Date.leapDay 9996 (by decide)).Writable ∧
      TriesYears (Date.leapDay 9996 (by decide)) (Date.firstOf 9999 2 (by decide) (by decide)) 1
        (.ok (Date.firstOfMarch 9999)) ∧
      TriesYears (Date.leapDay 9996 (by decide)) (Date.firstOfMarch 9999) 1
        (.error .dateOverflow) := by
  have writable : (Date.leapDay 9996 (by decide)).Writable := by decide
  refine ⟨writable, ?_, ?_⟩
  · exact ((nextOccurrence_yearly writable _).1 _).mpr (by decide)
  · exact ((nextOccurrence_yearly writable _).1 _).mpr (by decide)

end Rule

end Agenda
