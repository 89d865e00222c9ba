import Agenda.Occurrence
import Agenda.Proofs.Date.Order

namespace Agenda.Rule

/-- The rule is a condition on single days. -/
def IsDayRule : Rule → Prop
  | .weekly _ | .monthly _ _ => True
  | .daily _ | .yearly => False

/-- The date is a day of the rule. -/
def FallsOn (date : Date) : Rule → Prop
  | .weekly weekdays => date.weekday ∈ weekdays
  | .monthly days months =>
      (months = none ∨ ∃ listed, months = some listed ∧ date.month ∈ listed) ∧
        ((∃ code ∈ days, 0 < code ∧ (date.day : Int) = code) ∨
          (-1 ∈ days ∧ date.day = monthLength date.year date.month) ∨
          (-2 ∈ days ∧ date.day = monthLength date.year date.month - 1))
  | .daily _ | .yearly => False

variable {rule : Rule} {date found start now : Date}

theorem allowsMonth_iff {months : Option (List Nat)} {month : Nat} :
    AllowsMonth months month ↔
      months = none ∨ ∃ listed, months = some listed ∧ month ∈ listed := by
  cases months <;> simp [AllowsMonth]

theorem namesDay_iff {code : Int} :
    NamesDay code date ↔
      (0 < code ∧ (date.day : Int) = code) ∨
        (code = -1 ∧ date.day = monthLength date.year date.month) ∨
        (code = -2 ∧ date.day = monthLength date.year date.month - 1) := by
  have pos := date.one_le_day
  have long := le_monthLength date.year date.month
  simp only [NamesDay, lastDay, secondToLastDay, lastDayOfMonth_eq]
  split
  · omega
  · split <;> omega

theorem matches_iff_fallsOn : rule.Matches date ↔ rule.FallsOn date := by
  cases rule with
  | daily interval => rfl
  | yearly => rfl
  | weekly weekdays => rfl
  | monthly days months =>
      simp only [Matches, FallsOn, allowsMonth_iff]
      refine and_congr_right fun _ => ⟨fun listed => ?_, fun listed => ?_⟩
      · obtain ⟨code, member, named⟩ := listed
        rcases namesDay_iff.mp named with positive | ⟨rfl, last⟩ | ⟨rfl, beforeLast⟩
        · exact .inl ⟨code, member, positive⟩
        · exact .inr (.inl ⟨member, last⟩)
        · exact .inr (.inr ⟨member, beforeLast⟩)
      · rcases listed with ⟨code, member, positive⟩ | ⟨member, last⟩ | ⟨member, beforeLast⟩
        · exact ⟨code, member, namesDay_iff.mpr (.inl positive)⟩
        · exact ⟨-1, member, namesDay_iff.mpr (.inr (.inl ⟨rfl, last⟩))⟩
        · exact ⟨-2, member, namesDay_iff.mpr (.inr (.inr ⟨rfl, beforeLast⟩))⟩

instance (date : Date) (rule : Rule) : Decidable (rule.FallsOn date) :=
  decidable_of_iff _ matches_iff_fallsOn

structure IsFirstAfter (rule : Rule) (date found : Date) : Prop where
  after : date < found
  falls : rule.FallsOn found
  first : ∀ between, date < between → between < found → ¬ rule.FallsOn between

/-- No day of the rule lies after one date and up to another. -/
def SparesUntil (rule : Rule) (date last : Date) : Prop :=
  ∀ between, date < between → between ≤ last → ¬ rule.FallsOn between

theorem SparesUntil.refl (rule : Rule) (date : Date) : rule.SparesUntil date date :=
  fun _ after before => absurd before (not_le_of_gt after)

theorem SparesUntil.step {last : Date} (missed : ¬ rule.FallsOn date.next)
    (spared : rule.SparesUntil date.next last) : rule.SparesUntil date last := by
  intro between after before
  rcases lt_or_eq_of_le (Date.next_le_iff.mpr after) with later | same
  · exact spared between later before
  · rw [← same]
    exact missed

theorem IsFirstAfter.next (falls : rule.FallsOn date.next) : rule.IsFirstAfter date date.next where
  after := date.lt_next
  falls := falls
  first _ after before := absurd before (not_lt_of_ge (Date.next_le_iff.mpr after))

theorem IsFirstAfter.step (missed : ¬ rule.FallsOn date.next)
    (first : rule.IsFirstAfter date.next found) : rule.IsFirstAfter date found where
  after := lt_trans date.lt_next first.after
  falls := first.falls
  first between after before := by
    rcases lt_or_eq_of_le (Date.next_le_iff.mpr after) with later | same
    · exact first.first between later before
    · rw [← same]
      exact missed

/-- The search finds the first day of the rule, or has seen none of its days when it stops: before a
date that cannot be written, or at the end of the window. -/
theorem firstMatch_cases (rule : Rule) (window : Nat) (date : Date) :
    (∃ found, firstMatch rule window date = .ok found ∧ found.Writable ∧
        rule.IsFirstAfter date found) ∨
      (∃ last, firstMatch rule window date = .error .dateOverflow ∧ date ≤ last ∧
        ¬ last.next.Writable ∧ rule.SparesUntil date last) ∨
      (∃ last, firstMatch rule window date = .error .noOccurrence ∧
        last.dayNumber = date.dayNumber + window ∧ rule.SparesUntil date last) := by
  induction window generalizing date with
  | zero => exact .inr (.inr ⟨date, rfl, by simp, .refl rule date⟩)
  | succ window ih =>
      cases writable : date.next.writable? with
      | none =>
          have unwritable := Date.writable?_eq_none_iff.mp writable
          refine .inr (.inl ⟨date, ?_, le_refl date, unwritable, .refl rule date⟩)
          simp only [firstMatch, writable]
      | some candidate =>
          obtain ⟨inYears, rfl⟩ := Date.writable?_eq_some_iff.mp writable
          by_cases falls : rule.Matches date.next
          · refine .inl ⟨date.next, ?_, inYears, .next (matches_iff_fallsOn.mp falls)⟩
            simp only [firstMatch, writable, if_pos falls]
          · have missed : ¬ rule.FallsOn date.next := matches_iff_fallsOn.not.mp falls
            have goesOn : firstMatch rule (window + 1) date = firstMatch rule window date.next := by
              simp only [firstMatch, writable, if_neg falls]
            rw [goesOn]
            -- The search goes on from the next day, so what it says of that day is said of this one.
            rcases ih date.next with
              ⟨found, result, inYears, first⟩ | ⟨last, result, ordered, leaves, spared⟩ |
                ⟨last, result, length, spared⟩
            · exact .inl ⟨found, result, inYears, first.step missed⟩
            · have ordered := le_trans (le_of_lt date.lt_next) ordered
              exact .inr (.inl ⟨last, result, ordered, leaves, spared.step missed⟩)
            · rw [Date.dayNumber_next] at length
              exact .inr (.inr ⟨last, result, by omega, spared.step missed⟩)

theorem isFirstAfter_of_firstMatch {window : Nat}
    (result : firstMatch rule window date = .ok found) :
    found.Writable ∧ rule.IsFirstAfter date found := by
  rcases firstMatch_cases rule window date with
    ⟨other, same, writable, first⟩ | ⟨last, failed, -⟩ | ⟨last, failed, -⟩
  · rw [same] at result
    cases result
    exact ⟨writable, first⟩
  · rw [failed] at result
    cases result
  · rw [failed] at result
    cases result

/-- How many days are looked at. -/
def window : Rule → Nat
  | .weekly _ => 7
  | .monthly days months => monthlyWindow days months
  | .daily _ | .yearly => 0

theorem nextOccurrence_eq_firstMatch (dayRule : rule.IsDayRule) (start now : Date) :
    rule.nextOccurrence start now = firstMatch rule rule.window (Date.latest start now) := by
  cases rule with
  | daily interval => exact dayRule.elim
  | yearly => exact dayRule.elim
  | weekly weekdays => rfl
  | monthly days months => rfl

/-- A date that is found as the next day of a rule can be written, lies after the start and after the
reference date, and is the first such day of the rule. This holds of any codes in the lists of the rule. -/
theorem nextOccurrence_earliest (dayRule : rule.IsDayRule)
    (result : rule.nextOccurrence start now = .ok found) :
    found.Writable ∧ start < found ∧ now < found ∧ rule.FallsOn found ∧
      ∀ between, Date.latest start now < between → between < found → ¬ rule.FallsOn between := by
  rw [nextOccurrence_eq_firstMatch dayRule] at result
  obtain ⟨inYears, first⟩ := isFirstAfter_of_firstMatch result
  obtain ⟨afterStart, afterNow⟩ := Date.latest_lt_iff.mp first.after
  exact ⟨inYears, afterStart, afterNow, first.falls, first.first⟩

/-- Codes that name no day or month do not matter, nor does the order of the codes. -/
theorem nextOccurrence_earliest_unordered :
    ∃ start now found, Date.ofFields? 2024 1 31 = some start ∧
      Date.ofFields? 2023 5 31 = some now ∧ Date.ofFields? 2024 2 28 = some found ∧
      IsDayRule (.monthly [31, -2, 77, 31] (some [14, 2])) ∧
      nextOccurrence (.monthly [31, -2, 77, 31] (some [14, 2])) start now = .ok found ∧
      FallsOn found (.monthly [31, -2, 77, 31] (some [14, 2])) := by
  have dayRule : IsDayRule (.monthly [31, -2, 77, 31] (some [14, 2])) := trivial
  have result : nextOccurrence (.monthly [31, -2, 77, 31] (some [14, 2]))
      { year := 2024, month := 1, day := 31, day_le := by decide }
      { year := 2023, month := 5, day := 31, day_le := by decide } =
    .ok { year := 2024, month := 2, day := 28, day_le := by decide } := by decide
  refine ⟨_, _, _, rfl, rfl, rfl, dayRule, result, ?_⟩
  exact (nextOccurrence_earliest dayRule result).2.2.2.1

end Agenda.Rule
