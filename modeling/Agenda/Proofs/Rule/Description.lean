import Agenda.Occurrence
import Agenda.Proofs.Rule.Spelling

/-! The parts of a list have no comma in them, and no day is described with the letter that the months are
introduced with. So a description can be taken apart in one way only. -/

namespace Agenda.Rule

open Text

variable {α : Type} {part next : String} {parts partsElse : List String} {rule ruleElse : Rule}

/-- A text that may be told from others in a list. -/
def IsPart (text : String) : Prop := text ≠ "" ∧ ',' ∉ text.toList

instance (text : String) : Decidable (IsPart text) :=
  inferInstanceAs (Decidable (_ ∧ _))

theorem enumerate_singleton (part : String) : enumerate [part] = part := by
  simp [enumerate]

theorem toList_enumerate_cons_cons (part next : String) (parts : List String) :
    (enumerate (part :: next :: parts)).toList =
      part.toList ++ ',' :: ' ' :: (enumerate (next :: parts)).toList := by
  simp only [enumerate, String.toList_intercalate, List.map_cons, List.intercalate_cons_cons]
  rw [List.append_assoc]
  rfl

theorem enumerate_cons_ne_empty (isPart : IsPart part) (parts : List String) :
    enumerate (part :: parts) ≠ "" := by
  cases parts with
  | nil =>
      rw [enumerate_singleton]
      exact isPart.1
  | cons next parts =>
      intro empty
      have listed := toList_enumerate_cons_cons part next parts
      rw [empty] at listed
      simp at listed

theorem enumerate_cons_cons_ne (isPart : IsPart part) (first second : String) (parts : List String) :
    enumerate (first :: second :: parts) ≠ part := by
  intro same
  apply isPart.2
  rw [← same, toList_enumerate_cons_cons]
  simp

theorem enumerate_inj (areParts : ∀ part ∈ parts, IsPart part)
    (areElse : ∀ part ∈ partsElse, IsPart part) (same : enumerate parts = enumerate partsElse) :
    parts = partsElse := by
  induction parts generalizing partsElse with
  | nil =>
      cases partsElse with
      | nil => rfl
      | cons other more => exact absurd same.symm (enumerate_cons_ne_empty (areElse other (by simp)) more)
  | cons part parts ih =>
      obtain ⟨isPart, areParts⟩ := List.forall_mem_cons.mp areParts
      cases partsElse with
      | nil => exact absurd same (enumerate_cons_ne_empty isPart parts)
      | cons other more =>
          obtain ⟨isElse, areElse⟩ := List.forall_mem_cons.mp areElse
          cases parts with
          | nil =>
              cases more with
              | nil => rw [← enumerate_singleton part, same, enumerate_singleton]
              | cons nextElse more =>
                  rw [enumerate_singleton] at same
                  exact absurd same.symm (enumerate_cons_cons_ne isPart other nextElse more)
          | cons next parts =>
              cases more with
              | nil =>
                  rw [enumerate_singleton] at same
                  exact absurd same (enumerate_cons_cons_ne isElse part next parts)
              | cons nextElse more =>
                  have texts := congrArg String.toList same
                  rw [toList_enumerate_cons_cons, toList_enumerate_cons_cons] at texts
                  -- No part has a comma, so the first comma ends the first part of both.
                  obtain ⟨first, rest⟩ := eq_of_append_separator_eq isPart.2 isElse.2 texts
                  rw [String.toList_inj.mp first,
                    ih areParts areElse (String.toList_inj.mp (List.cons.inj rest).2)]

theorem enumerate_map_inj {describe : α → String} (injective : Function.Injective describe)
    (areParts : ∀ entry, IsPart (describe entry)) {entries entriesElse : List α}
    (same : enumerate (entries.map describe) = enumerate (entriesElse.map describe)) :
    entries = entriesElse := by
  have all (entries : List α) : ∀ part ∈ entries.map describe, IsPart part := by
    intro part member
    obtain ⟨entry, -, rfl⟩ := List.mem_map.mp member
    exact areParts entry
  exact List.map_injective_iff.mpr injective (enumerate_inj (all entries) (all entriesElse) same)

/-- The name of a number, where the first name belongs to the number `first`. -/
def name? (names : List String) (first number : Nat) : Option String :=
  if number < first then none else names[number - first]?

theorem describeWeekday_eq (weekday : Nat) :
    describeWeekday weekday = (name? weekdayNames 0 weekday).getD weekday.repr := rfl

theorem describeMonth_eq (month : Nat) :
    describeMonth month = (name? monthNames 1 month).getD month.repr := by
  cases month with
  | zero => rfl
  | succ month => rw [describeMonth, name?, if_neg (by omega), Nat.add_sub_cancel]

theorem isPart_repr (value : Int) : IsPart value.repr := by
  have written := writesInteger_repr value
  exact ⟨fun empty => ne_nil_of_writesInteger written (by simp [empty]),
    comma_notMem_of_writesInteger written⟩

theorem eq_of_repr_eq {number other : Nat} (same : number.repr = other.repr) : number = other := by
  have written := writesInteger_repr number
  rw [show (number : Int).repr = other.repr from same] at written
  exact Int.ofNat_inj.mp (written.unique (writesInteger_repr other))

variable {names : List String} {first : Nat} {name : String} {number : Nat}

theorem name?_eq_some_iff :
    name? names first number = some name ↔ first ≤ number ∧ names[number - first]? = some name := by
  unfold name?
  split
  · rename_i early
    simp [Nat.not_le_of_lt early]
  · rename_i late
    simp [Nat.le_of_not_lt late]

theorem isPart_named (areParts : ∀ name ∈ names, IsPart name) (number : Nat) :
    IsPart ((name? names first number).getD number.repr) := by
  cases found : name? names first number with
  | none => exact isPart_repr number
  | some name => exact areParts name (List.mem_of_getElem? (name?_eq_some_iff.mp found).2)

theorem name_ne_repr (noNumbers : ∀ name ∈ names, ¬ IsDigits name.toList)
    (found : name? names first number = some name) (other : Nat) : name ≠ other.repr := by
  rintro rfl
  apply noNumbers _ (List.mem_of_getElem? (name?_eq_some_iff.mp found).2)
  rw [Nat.toList_repr]
  exact isDigits_toDigits other

theorem named_injective (distinct : names.Nodup) (noNumbers : ∀ name ∈ names, ¬ IsDigits name.toList) :
    Function.Injective fun number => (name? names first number).getD number.repr := by
  intro number other same
  simp only at same
  cases found : name? names first number with
  | none =>
      cases foundElse : name? names first other with
      | none =>
          rw [found, foundElse] at same
          exact eq_of_repr_eq same
      | some nameElse =>
          rw [found, foundElse] at same
          exact absurd same.symm (name_ne_repr noNumbers foundElse number)
  | some name =>
      cases foundElse : name? names first other with
      | none =>
          rw [found, foundElse] at same
          exact absurd same (name_ne_repr noNumbers found other)
      | some nameElse =>
          rw [found, foundElse] at same
          cases same
          -- The names are all different, so they stand at the same place of the list.
          obtain ⟨late, named⟩ := name?_eq_some_iff.mp found
          obtain ⟨lateElse, namedElse⟩ := name?_eq_some_iff.mp foundElse
          obtain ⟨inNames, -⟩ := List.getElem?_eq_some_iff.mp named
          have places := (List.getElem?_inj inNames distinct).mp (named.trans namedElse.symm)
          omega

theorem isPart_describeWeekday (weekday : Nat) : IsPart (describeWeekday weekday) := by
  rw [describeWeekday_eq]
  exact isPart_named (by decide) weekday

theorem describeWeekday_injective : Function.Injective describeWeekday := by
  rw [funext describeWeekday_eq]
  exact named_injective (by decide) (by decide)

theorem isPart_describeMonth (month : Nat) : IsPart (describeMonth month) := by
  rw [describeMonth_eq]
  exact isPart_named (by decide) month

theorem describeMonth_injective : Function.Injective describeMonth := by
  rw [funext describeMonth_eq]
  exact named_injective (by decide) (by decide)

theorem describeDay_cases (day : Int) :
    (day = lastDay ∧ describeDay day = "last day") ∨
      (day = secondToLastDay ∧ describeDay day = "second-to-last day") ∨
        describeDay day = "day " ++ day.repr := by
  unfold describeDay
  split
  · rename_i last
    exact .inl ⟨last, rfl⟩
  · split
    · rename_i second
      exact .inr (.inl ⟨second, rfl⟩)
    · exact .inr (.inr rfl)

theorem ne_numberedDay {text : String} (otherwise : text.toList.head? ≠ some 'd') (day : Int) :
    text ≠ "day " ++ day.repr := by
  rintro rfl
  rw [String.toList_append] at otherwise
  exact otherwise rfl

theorem describeDay_injective : Function.Injective describeDay := by
  intro day other same
  rcases describeDay_cases day with ⟨rfl, described⟩ | ⟨rfl, described⟩ | described
  · rcases describeDay_cases other with ⟨rfl, -⟩ | ⟨-, describedElse⟩ | describedElse
    · rfl
    · exact absurd (described.symm.trans (same.trans describedElse)) (by decide)
    · exact absurd (described.symm.trans (same.trans describedElse)) (ne_numberedDay (by decide) other)
  · rcases describeDay_cases other with ⟨-, describedElse⟩ | ⟨rfl, -⟩ | describedElse
    · exact absurd (described.symm.trans (same.trans describedElse)) (by decide)
    · rfl
    · exact absurd (described.symm.trans (same.trans describedElse)) (ne_numberedDay (by decide) other)
  · rcases describeDay_cases other with ⟨-, describedElse⟩ | ⟨-, describedElse⟩ | describedElse
    · exact absurd (describedElse.symm.trans (same.symm.trans described)) (ne_numberedDay (by decide) day)
    · exact absurd (describedElse.symm.trans (same.symm.trans described)) (ne_numberedDay (by decide) day)
    · rw [described, describedElse, String.append_right_inj] at same
      have written := writesInteger_repr day
      rw [same] at written
      exact written.unique (writesInteger_repr other)

theorem isPart_describeDay (day : Int) : IsPart (describeDay day) := by
  rcases describeDay_cases day with ⟨-, described⟩ | ⟨-, described⟩ | described
  · rw [described]
    decide
  · rw [described]
    decide
  · rw [described]
    refine ⟨by simp, ?_⟩
    rw [String.toList_append, List.mem_append, not_or]
    exact ⟨by decide, (isPart_repr day).2⟩

theorem i_notMem_describeDay (day : Int) : 'i' ∉ (describeDay day).toList := by
  rcases describeDay_cases day with ⟨-, described⟩ | ⟨-, described⟩ | described
  · rw [described]
    decide
  · rw [described]
    decide
  · rw [described, String.toList_append, List.mem_append, not_or]
    exact ⟨by decide, (writesInteger_repr day).notMem (by decide)⟩

def describeInterval (interval : Nat) : String := if interval = 1 then "day" else interval.repr ++ " days"

theorem description_daily (interval : Nat) :
    (daily interval).description = "every " ++ describeInterval interval := by
  match interval with
  | 0 => rfl
  | 1 => rfl
  | more + 2 => rfl

theorem ne_countedDays {text : String} (short : text.length < 5) (interval : Nat) :
    text ≠ interval.repr ++ " days" := by
  rintro rfl
  rw [String.length_append] at short
  exact absurd short (Nat.not_lt_of_le (Nat.le_add_left 5 _))

theorem describeInterval_injective : Function.Injective describeInterval := by
  intro interval other same
  simp only [describeInterval] at same
  split at same
  · split at same
    · omega
    · exact absurd same (ne_countedDays (by decide) other)
  · split at same
    · exact absurd same.symm (ne_countedDays (by decide) interval)
    · exact eq_of_repr_eq ((String.append_left_inj _).mp same)

theorem describeInterval_ne_year (interval : Nat) : describeInterval interval ≠ "year" := by
  unfold describeInterval
  split
  · decide
  · exact (ne_countedDays (by decide) interval).symm

def describeMonths : Option (List Nat) → String
  | none => ""
  | some months => " in " ++ enumerate (months.map describeMonth)

theorem description_monthly (days : List Int) (months : Option (List Nat)) :
    (monthly days months).description =
      "monthly on " ++ (enumerate (days.map describeDay) ++ describeMonths months) := by
  cases months with
  | none => simp only [description, describeMonths, String.append_empty]
  | some months => simp only [description, describeMonths, String.append_assoc]

theorem i_notMem_enumerate (days : List Int) : 'i' ∉ (enumerate (days.map describeDay)).toList := by
  induction days with
  | nil => decide
  | cons day days ih =>
      cases days with
      | nil =>
          rw [List.map_singleton, enumerate_singleton]
          exact i_notMem_describeDay day
      | cons next days =>
          simp only [List.map_cons] at ih ⊢
          rw [toList_enumerate_cons_cons]
          simp [i_notMem_describeDay, ih]

theorem toList_describeMonths_some (months : List Nat) :
    (describeMonths (some months)).toList =
      ' ' :: 'i' :: 'n' :: ' ' :: (enumerate (months.map describeMonth)).toList := by
  rw [describeMonths, String.toList_append]
  rfl

variable {days daysElse : List Int} {months monthsElse : Option (List Nat)}

theorem describeDays_ne (months : List Nat) :
    enumerate (days.map describeDay) ≠ enumerate (daysElse.map describeDay) ++ describeMonths (some months) := by
  intro same
  apply i_notMem_enumerate days
  rw [same, String.toList_append, toList_describeMonths_some]
  simp

theorem describeDays_inj
    (same : enumerate (days.map describeDay) = enumerate (daysElse.map describeDay)) : days = daysElse :=
  enumerate_map_inj describeDay_injective isPart_describeDay same

theorem monthly_inj (same : (monthly days months).description = (monthly daysElse monthsElse).description) :
    days = daysElse ∧ months = monthsElse := by
  rw [description_monthly, description_monthly, String.append_right_inj] at same
  cases months with
  | none =>
      cases monthsElse with
      | none =>
          rw [describeMonths, String.append_left_inj] at same
          exact ⟨describeDays_inj same, rfl⟩
      | some listedElse =>
          rw [describeMonths, String.append_empty] at same
          exact absurd same (describeDays_ne listedElse)
  | some listed =>
      cases monthsElse with
      | none =>
          rw [describeMonths, String.append_empty] at same
          exact absurd same.symm (describeDays_ne listed)
      | some listedElse =>
          have texts := congrArg String.toList same
          rw [String.toList_append, String.toList_append, toList_describeMonths_some,
            toList_describeMonths_some, List.append_cons (enumerate (days.map describeDay)).toList,
            List.append_cons (enumerate (daysElse.map describeDay)).toList] at texts
          have absent (days : List Int) : 'i' ∉ (enumerate (days.map describeDay)).toList ++ [' '] := by
            simpa using i_notMem_enumerate days
          -- Days are described without an `i`, so the first one belongs to the word before the months.
          obtain ⟨front, back⟩ := eq_of_append_separator_eq (absent days) (absent daysElse) texts
          have sameDays := describeDays_inj (String.toList_inj.mp (List.append_cancel_right front))
          have listedSame := (List.cons.inj (List.cons.inj back).2).2
          have sameMonths := enumerate_map_inj describeMonth_injective isPart_describeMonth
            (String.toList_inj.mp listedSame)
          exact ⟨sameDays, congrArg some sameMonths⟩

/-- The first letter of a description, which daily rules share with yearly ones. -/
def initial : Rule → Char
  | daily _ | yearly => 'e'
  | weekly _ => 'w'
  | monthly _ _ => 'm'

theorem head?_description (rule : Rule) : rule.description.toList.head? = some rule.initial := by
  cases rule with
  | daily interval =>
      rw [description_daily, String.toList_append]
      rfl
  | yearly => rfl
  | weekly weekdays =>
      rw [description, String.toList_append]
      rfl
  | monthly days months =>
      rw [description_monthly, String.toList_append]
      rfl

/-- No rule is described by the words of another, and the words do not run into each other. So there is
nothing that two rules with one description could differ in. -/
theorem description_injective : Function.Injective description := by
  intro rule ruleElse same
  have initials : rule.initial = ruleElse.initial := by
    rw [← Option.some.injEq, ← head?_description, same, head?_description]
  -- Kinds with different first letters are apart. Daily and yearly rules have the same one.
  cases rule with
  | daily interval =>
      rw [description_daily] at same
      cases ruleElse with
      | daily other =>
          rw [description_daily, String.append_right_inj] at same
          rw [describeInterval_injective same]
      | yearly =>
          exact absurd ((String.append_right_inj "every ").mp same) (describeInterval_ne_year interval)
      | weekly _ => cases initials
      | monthly _ _ => cases initials
  | yearly =>
      cases ruleElse with
      | daily other =>
          rw [description_daily] at same
          exact absurd ((String.append_right_inj "every ").mp same).symm (describeInterval_ne_year other)
      | yearly => rfl
      | weekly _ => cases initials
      | monthly _ _ => cases initials
  | weekly weekdays =>
      cases ruleElse with
      | weekly weekdaysElse =>
          rw [description, description, String.append_right_inj] at same
          rw [enumerate_map_inj describeWeekday_injective isPart_describeWeekday same]
      | daily _ => cases initials
      | yearly => cases initials
      | monthly _ _ => cases initials
  | monthly days months =>
      cases ruleElse with
      | monthly daysElse monthsElse =>
          obtain ⟨rfl, rfl⟩ := monthly_inj same
          rfl
      | daily _ => cases initials
      | yearly => cases initials
      | weekly _ => cases initials

/-- A description belongs to one rule only. So two rule texts that are shown with one description have the
same next occurrence and the same next due date, from every start and for every reference date. -/
theorem description_unambiguous :
    (∀ rule ruleElse : Rule, rule.description = ruleElse.description → rule = ruleElse) ∧
      ∀ (text textElse : String) (rule ruleElse : Rule), read text = .ok rule →
        read textElse = .ok ruleElse → rule.description = ruleElse.description →
          (∀ start now, rule.nextOccurrence start now = ruleElse.nextOccurrence start now) ∧
            ∀ now due, nextDueDate now due text = nextDueDate now due textElse := by
  refine ⟨fun rule ruleElse same => description_injective same, ?_⟩
  intro text textElse rule ruleElse readText readElse same
  obtain rfl := description_injective same
  refine ⟨fun start now => rfl, fun now due => ?_⟩
  rw [nextDueDate, nextDueDate, readText, readElse]

end Agenda.Rule
