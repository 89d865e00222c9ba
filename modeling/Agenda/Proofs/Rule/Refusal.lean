import Agenda.Proofs.Rule.Language
import Agenda.Proofs.Text.Overrun

/-! Of several faults of a rule text one is told. First the kind and the number of its arguments count, then
the lists from left to right, and last whether the days exist in the months. -/

namespace Agenda

/-- The fault blames a word of a rule text. -/
def RuleError.BlamesWord : RuleError → Prop
  | .unknownKind _ | .malformed _ _ | .outOfRange _ _ _ _ | .unsatisfiable _ _ => True
  | .invalidStart _ | .emptyRule | .noOccurrence | .dateOverflow => False

namespace Rule

open Text

variable {field : RuleField} {low high : Int} {item list : List Char} {reason : RuleError}
  {days : List Int} {arguments : List (List Char)} {text : String}

theorem blamesWord_of_readNumber (failed : readNumber field low high item = .error reason) :
    reason.BlamesWord := by
  simp only [readNumber] at failed
  split at failed
  · split at failed
    · cases failed
    · cases failed
      trivial
  all_goals
    cases failed
    trivial

theorem blamesWord_of_readNumbers (failed : readNumbers field low high list = .error reason) :
    reason.BlamesWord := by
  obtain ⟨-, item, -, -, -, failed⟩ := mapM_eq_error_iff.mp failed
  split at failed
  · cases failed
    trivial
  · exact blamesWord_of_readNumber failed

theorem blamesWord_of_readDays (failed : readDays list = .error reason) : reason.BlamesWord := by
  rcases bind_eq_error_iff.mp failed with failed | ⟨days, -, failed⟩
  · exact blamesWord_of_readNumbers failed
  · split at failed
    · cases failed
      trivial
    · cases failed

theorem blamesWord_of_readMonths (failed : readMonths days list = .error reason) :
    reason.BlamesWord := by
  rcases bind_eq_error_iff.mp failed with failed | ⟨numbers, -, failed⟩
  · exact blamesWord_of_readNumbers failed
  · simp only at failed
    split at failed
    · cases failed
    · cases failed
      trivial

theorem blamesWord_of_readDaily (failed : readDaily arguments = .error reason) :
    reason.BlamesWord := by
  simp only [readDaily] at failed
  split at failed
  · rcases bind_eq_error_iff.mp failed with failed | ⟨days, -, impossible⟩
    · exact blamesWord_of_readNumber failed
    · cases impossible
  · cases failed
    trivial

theorem blamesWord_of_readYearly (failed : readYearly arguments = .error reason) :
    reason.BlamesWord := by
  simp only [readYearly] at failed
  split at failed
  · cases failed
  · cases failed
    trivial

theorem blamesWord_of_readWeekly (failed : readWeekly arguments = .error reason) :
    reason.BlamesWord := by
  simp only [readWeekly] at failed
  split at failed
  · rcases bind_eq_error_iff.mp failed with failed | ⟨weekdays, -, impossible⟩
    · exact blamesWord_of_readNumbers failed
    · cases impossible
  · cases failed
    trivial

theorem blamesWord_of_readMonthly (failed : readMonthly arguments = .error reason) :
    reason.BlamesWord := by
  simp only [readMonthly] at failed
  split at failed
  · rcases bind_eq_error_iff.mp failed with failed | ⟨days, -, impossible⟩
    · exact blamesWord_of_readDays failed
    · cases impossible
  · rcases bind_eq_error_iff.mp failed with failed | ⟨days, -, failed⟩
    · exact blamesWord_of_readDays failed
    · rcases bind_eq_error_iff.mp failed with failed | ⟨months, -, impossible⟩
      · exact blamesWord_of_readMonths failed
      · cases impossible
  · cases failed
    trivial

theorem blamesWord_of_read (shown : ¬ IsBlankText text) (failed : Rule.read text = .error reason) :
    reason.BlamesWord := by
  simp only [Rule.read, ofWords] at failed
  split at failed
  · rename_i none
    exact absurd (isBlankText_of_words_eq_nil none) shown
  · exact blamesWord_of_readDaily failed
  · exact blamesWord_of_readYearly failed
  · exact blamesWord_of_readWeekly failed
  · exact blamesWord_of_readMonthly failed
  · cases failed
    trivial

def WritesWithin (low high : Int) (item : List Char) : Prop :=
  ∃ value, WritesInteger item value ∧ low ≤ value ∧ value ≤ high

/-- Why a number is refused. Its size is blamed if it is an integer, and if its digits run beyond 64 bits
before another character shows that it is none. -/
inductive ItemFault (field : RuleField) (low high : Int) (item : List Char) : RuleError → Prop where
  | outside {value : Int} : WritesInteger item value → ¬ (low ≤ value ∧ value ≤ high) →
      ItemFault field low high item (.outOfRange field (String.ofList item) low high)
  | overrun : (∀ value, ¬ WritesInteger item value) → Overruns item →
      ItemFault field low high item (.outOfRange field (String.ofList item) low high)
  | misspelt : (∀ value, ¬ WritesInteger item value) → ¬ Overruns item →
      ItemFault field low high item (.malformed field (.notInteger (String.ofList item)))

/-- Why a list is refused. The items before the one that is blamed are allowed numbers. -/
inductive ListFault (field : RuleField) (low high : Int) (list : List Char) : RuleError → Prop where
  | empty {before after : List (List Char)} : list.splitOn ',' = before ++ [] :: after →
      (∀ earlier ∈ before, WritesWithin low high earlier) →
      ListFault field low high list (.malformed field (.emptyItem (String.ofList list)))
  | item {before after : List (List Char)} {item : List Char} {reason : RuleError} :
      list.splitOn ',' = before ++ item :: after →
      (∀ earlier ∈ before, WritesWithin low high earlier) → item ≠ [] →
      ItemFault field low high item reason → ListFault field low high list reason

def kinds : List (List Char) := [['d'], ['y'], ['w'], ['m']]

/-- A rule of the kind has another number of arguments. -/
inductive Miscounts : List Char → Nat → Malformation → Prop where
  | daily {count : Nat} : count ≠ 1 → Miscounts ['d'] count .dailyArguments
  | yearly {count : Nat} : count ≠ 0 → Miscounts ['y'] count .yearlyArguments
  | weekly {count : Nat} : count ≠ 1 → Miscounts ['w'] count .weeklyArguments
  | monthly {count : Nat} : count ≠ 1 → count ≠ 2 → Miscounts ['m'] count .monthlyArguments

/-- The words are refused for the reason. -/
inductive RefusedFor : List (List Char) → RuleError → Prop where
  | noWords : RefusedFor [] .emptyRule
  | unknownKind {kind : List Char} {arguments : List (List Char)} : kind ∉ kinds →
      RefusedFor (kind :: arguments) (.unknownKind (String.ofList kind))
  | arguments {kind : List Char} {arguments : List (List Char)} {malformation : Malformation} :
      Miscounts kind arguments.length malformation →
      RefusedFor (kind :: arguments) (.malformed .rule malformation)
  | interval {item : List Char} {reason : RuleError} : ItemFault .interval 1 400 item reason →
      RefusedFor [['d'], item] reason
  | weekdays {list : List Char} {reason : RuleError} : ListFault .weekday 1 7 list reason →
      RefusedFor [['w'], list] reason
  | days {list : List Char} {months : List (List Char)} {reason : RuleError} : months.length ≤ 1 →
      ListFault .dayOfMonth (-2) 31 list reason → RefusedFor (['m'] :: list :: months) reason
  | dayZero {list : List Char} {months : List (List Char)} {days : List Int} : months.length ≤ 1 →
      WritesIntegers list days → (∀ day ∈ days, -2 ≤ day ∧ day ≤ 31) → 0 ∈ days →
      RefusedFor (['m'] :: list :: months) (.malformed .dayOfMonth .dayZero)
  | months {list others : List Char} {days : List Int} {reason : RuleError} :
      WritesIntegers list days → (∀ day ∈ days, -2 ≤ day ∧ day ≤ 31 ∧ day ≠ 0) →
      ListFault .month 1 12 others reason → RefusedFor [['m'], list, others] reason
  | unsatisfiable {list others : List Char} {days numbers listed : List Int} {months : List Nat} :
      WritesIntegers list days → (∀ day ∈ days, -2 ≤ day ∧ day ≤ 31 ∧ day ≠ 0) →
      WritesIntegers others numbers → (∀ month ∈ numbers, 1 ≤ month ∧ month ≤ 12) →
      FirstAppearances days listed → MonthsOf numbers months → ¬ Satisfiable listed months →
      RefusedFor [['m'], list, others] (.unsatisfiable listed months)

variable {fault : NumberFault} {words : List (List Char)}

theorem readNumber_of_oversized (field : RuleField) (low high : Int)
    (failed : readInteger item = .error fault) (oversized : fault.Oversized) :
    readNumber field low high item = .error (.outOfRange field (String.ofList item) low high) := by
  cases fault with
  | tooLarge | tooSmall => simp only [readNumber, failed]
  | empty | badDigit => exact absurd oversized id

theorem readNumber_of_misspelt (field : RuleField) (low high : Int)
    (failed : readInteger item = .error fault) (small : ¬ fault.Oversized) :
    readNumber field low high item =
      .error (.malformed field (.notInteger (String.ofList item))) := by
  cases fault with
  | tooLarge | tooSmall => exact absurd trivial small
  | empty | badDigit => simp only [readNumber, failed]

theorem itemFault_of_readNumber (lowFits : IsInteger64 low) (highFits : IsInteger64 high)
    (failed : readNumber field low high item = .error reason) :
    ItemFault field low high item reason := by
  cases read : readInteger item with
  | ok value =>
      simp only [readNumber, read] at failed
      split at failed
      · cases failed
      · rename_i outside
        cases failed
        exact .outside (readInteger_eq_ok_iff.mp read).1 outside
  | error fault =>
      by_cases oversized : fault.Oversized
      · rw [readNumber_of_oversized field low high read oversized] at failed
        cases failed
        -- An integer of more than 64 bits lies outside the bounds. What is no integer was refused on the way.
        by_cases written : ∃ value, WritesInteger item value
        · obtain ⟨value, written⟩ := written
          refine .outside written fun within => ?_
          have fits : IsInteger64 value :=
            ⟨Int.le_trans lowFits.1 within.1, Int.le_trans within.2 highFits.2⟩
          rw [readInteger_eq_ok_iff.mpr ⟨written, fits⟩] at read
          cases read
        · exact .overrun (not_exists.mp written) (exists_oversized_iff.mp ⟨fault, read, oversized⟩)
      · rw [readNumber_of_misspelt field low high read oversized] at failed
        cases failed
        obtain ⟨notWritten, fits⟩ := exists_misspelt_iff.mp ⟨fault, read, oversized⟩
        exact .misspelt notWritten fits

theorem readNumber_of_itemFault (faulty : ItemFault field low high item reason) :
    readNumber field low high item = .error reason := by
  cases faulty with
  | @outside value written outside =>
      by_cases fits : IsInteger64 value
      · have read := readInteger_eq_ok_iff.mpr ⟨written, fits⟩
        simp only [readNumber, read, if_neg outside]
      · have overruns : Overruns item := ⟨item, value, List.prefix_rfl, written, fits⟩
        obtain ⟨fault, failed, oversized⟩ := exists_oversized_iff.mpr overruns
        exact readNumber_of_oversized field low high failed oversized
  | overrun _ overruns =>
      obtain ⟨fault, failed, oversized⟩ := exists_oversized_iff.mpr overruns
      exact readNumber_of_oversized field low high failed oversized
  | misspelt notWritten fits =>
      obtain ⟨fault, failed, small⟩ := exists_misspelt_iff.mpr ⟨notWritten, fits⟩
      exact readNumber_of_misspelt field low high failed small

theorem readNumber_eq_error_iff (lowFits : IsInteger64 low) (highFits : IsInteger64 high) :
    readNumber field low high item = .error reason ↔ ItemFault field low high item reason :=
  ⟨itemFault_of_readNumber lowFits highFits, readNumber_of_itemFault⟩

theorem readNumbers_eq_error_iff (lowFits : IsInteger64 low) (highFits : IsInteger64 high) :
    readNumbers field low high list = .error reason ↔ ListFault field low high list reason := by
  rw [readNumbers, mapM_eq_error_iff]
  simp only [readItem_eq_ok_iff list lowFits highFits]
  constructor
  · intro failed
    obtain ⟨before, item, after, items, allowed, failed⟩ := failed
    split at failed
    · rename_i empty
      subst empty
      cases failed
      exact .empty items allowed
    · rename_i nonempty
      exact .item items allowed nonempty ((readNumber_eq_error_iff lowFits highFits).mp failed)
  · intro faulty
    cases faulty with
    | @empty before after items allowed => exact ⟨before, [], after, items, allowed, if_pos rfl⟩
    | @item before after item _ items allowed nonempty fault =>
        refine ⟨before, item, after, items, allowed, ?_⟩
        rw [if_neg nonempty]
        exact (readNumber_eq_error_iff lowFits highFits).mpr fault

/-- Whether a list has the day 0 is looked at after all its items are read. -/
theorem readDays_eq_error_iff :
    readDays list = .error reason ↔ ListFault .dayOfMonth (-2) 31 list reason ∨
      reason = .malformed .dayOfMonth .dayZero ∧ ∃ days, WritesIntegers list days ∧
        (∀ day ∈ days, -2 ≤ day ∧ day ≤ 31) ∧ 0 ∈ days := by
  rw [readDays, bind_eq_error_iff, readNumbers_eq_error_iff (by decide) (by decide)]
  refine or_congr_right ?_
  constructor
  · intro failed
    obtain ⟨days, read, failed⟩ := failed
    obtain ⟨written, within⟩ := (readNumbers_eq_ok_iff (by decide) (by decide)).mp read
    split at failed
    · rename_i zero
      cases failed
      exact ⟨rfl, days, written, within, zero⟩
    · cases failed
  · intro faulty
    obtain ⟨rfl, days, written, within, zero⟩ := faulty
    refine ⟨days, (readNumbers_eq_ok_iff (by decide) (by decide)).mpr ⟨written, within⟩, ?_⟩
    rw [if_pos zero]
    rfl

theorem readMonths_eq_error_iff :
    readMonths days list = .error reason ↔ ListFault .month 1 12 list reason ∨
      ∃ numbers months, WritesIntegers list numbers ∧ (∀ month ∈ numbers, 1 ≤ month ∧ month ≤ 12) ∧
        MonthsOf numbers months ∧ ¬ Satisfiable days months ∧ reason = .unsatisfiable days months := by
  rw [readMonths, bind_eq_error_iff, readNumbers_eq_error_iff (by decide) (by decide)]
  refine or_congr_right (exists_congr fun numbers => ?_)
  constructor
  · intro failed
    obtain ⟨read, failed⟩ := failed
    obtain ⟨written, within⟩ := (readNumbers_eq_ok_iff (by decide) (by decide)).mp read
    simp only at failed
    split at failed
    · cases failed
    · rename_i unsatisfiable
      cases failed
      exact ⟨_, written, within, (ascending_months_iff within).mp rfl, unsatisfiable, rfl⟩
  · intro faulty
    obtain ⟨months, written, within, monthsOf, unsatisfiable, rfl⟩ := faulty
    refine ⟨(readNumbers_eq_ok_iff (by decide) (by decide)).mpr ⟨written, within⟩, ?_⟩
    rw [(ascending_months_iff within).mpr monthsOf]
    simp only [if_neg unsatisfiable]
    rfl

theorem refusedFor_of_readDaily (failed : readDaily arguments = .error reason) :
    RefusedFor (['d'] :: arguments) reason := by
  match arguments with
  | [item] =>
      rcases bind_eq_error_iff.mp failed with failed | ⟨_, -, impossible⟩
      · exact .interval (itemFault_of_readNumber (by decide) (by decide) failed)
      · cases impossible
  | [] | _ :: _ :: _ =>
      cases failed
      exact .arguments (.daily (by simp))

theorem refusedFor_of_readYearly (failed : readYearly arguments = .error reason) :
    RefusedFor (['y'] :: arguments) reason := by
  match arguments with
  | [] => cases failed
  | _ :: _ =>
      cases failed
      exact .arguments (.yearly (by simp))

theorem refusedFor_of_readWeekly (failed : readWeekly arguments = .error reason) :
    RefusedFor (['w'] :: arguments) reason := by
  match arguments with
  | [list] =>
      rcases bind_eq_error_iff.mp failed with failed | ⟨_, -, impossible⟩
      · exact .weekdays ((readNumbers_eq_error_iff (by decide) (by decide)).mp failed)
      · cases impossible
  | [] | _ :: _ :: _ =>
      cases failed
      exact .arguments (.weekly (by simp))

theorem refusedFor_of_readDays {months : List (List Char)} (few : months.length ≤ 1)
    (failed : readDays list = .error reason) : RefusedFor (['m'] :: list :: months) reason := by
  rcases readDays_eq_error_iff.mp failed with fault | ⟨rfl, days, written, within, zero⟩
  · exact .days few fault
  · exact .dayZero few written within zero

theorem refusedFor_of_readMonthly (failed : readMonthly arguments = .error reason) :
    RefusedFor (['m'] :: arguments) reason := by
  match arguments with
  | [list] =>
      rcases bind_eq_error_iff.mp failed with failed | ⟨_, -, impossible⟩
      · exact refusedFor_of_readDays (by simp) failed
      · cases impossible
  | [list, others] =>
      rcases bind_eq_error_iff.mp failed with failed | ⟨listed, read, failed⟩
      · exact refusedFor_of_readDays (by simp) failed
      · obtain ⟨days, written, within, appearances⟩ := readDays_eq_ok_iff.mp read
        rcases bind_eq_error_iff.mp failed with failed | ⟨_, -, impossible⟩
        · rcases readMonths_eq_error_iff.mp failed with fault | faulty
          · exact .months written within fault
          · obtain ⟨numbers, months, writtenMonths, monthsWithin, monthsOf, unsatisfiable, rfl⟩ := faulty
            exact .unsatisfiable written within writtenMonths monthsWithin appearances monthsOf
              unsatisfiable
        · cases impossible
  | [] | _ :: _ :: _ :: _ =>
      cases failed
      exact .arguments (.monthly (by simp) (by simp))

theorem refusedFor_of_ofWords (failed : ofWords words = .error reason) : RefusedFor words reason := by
  simp only [ofWords] at failed
  split at failed
  · cases failed
    exact .noWords
  · exact refusedFor_of_readDaily failed
  · exact refusedFor_of_readYearly failed
  · exact refusedFor_of_readWeekly failed
  · exact refusedFor_of_readMonthly failed
  · rename_i kind arguments notDaily notYearly notWeekly notMonthly
    cases failed
    refine .unknownKind fun known => ?_
    simp only [kinds, List.mem_cons, List.not_mem_nil, or_false] at known
    rcases known with rfl | rfl | rfl | rfl
    · exact notDaily rfl
    · exact notYearly rfl
    · exact notWeekly rfl
    · exact notMonthly rfl

theorem ofWords_of_unknownKind {kind : List Char} (unknown : kind ∉ kinds) :
    ofWords (kind :: arguments) = .error (.unknownKind (String.ofList kind)) := by
  simp only [kinds, List.mem_cons, List.not_mem_nil, or_false, not_or] at unknown
  obtain ⟨notDaily, notYearly, notWeekly, notMonthly⟩ := unknown
  rw [ofWords]
  · exact notDaily
  · exact notYearly
  · exact notWeekly
  · exact notMonthly

theorem ofWords_of_miscounts {kind : List Char} {malformation : Malformation}
    (miscounts : Miscounts kind arguments.length malformation) :
    ofWords (kind :: arguments) = .error (.malformed .rule malformation) := by
  cases miscounts with
  | daily other | weekly other =>
      match arguments with
      | [_] => exact absurd rfl other
      | [] | _ :: _ :: _ => rfl
  | yearly other =>
      match arguments with
      | [] => exact absurd rfl other
      | _ :: _ => rfl
  | monthly notOne notTwo =>
      match arguments with
      | [_] => exact absurd rfl notOne
      | [_, _] => exact absurd rfl notTwo
      | [] | _ :: _ :: _ :: _ => rfl

theorem readMonthly_of_readDays {months : List (List Char)} (few : months.length ≤ 1)
    (failed : readDays list = .error reason) : readMonthly (list :: months) = .error reason := by
  match months with
  | [] | [_] => exact bind_eq_error_iff.mpr (.inl failed)
  | _ :: _ :: _ =>
      simp only [List.length_cons] at few
      omega

theorem ofWords_of_refusedFor (refused : RefusedFor words reason) : ofWords words = .error reason := by
  cases refused with
  | noWords => rfl
  | unknownKind unknown => exact ofWords_of_unknownKind unknown
  | arguments miscounts => exact ofWords_of_miscounts miscounts
  | interval fault => exact bind_eq_error_iff.mpr (.inl (readNumber_of_itemFault fault))
  | weekdays fault =>
      exact bind_eq_error_iff.mpr (.inl ((readNumbers_eq_error_iff (by decide) (by decide)).mpr fault))
  | days few fault => exact readMonthly_of_readDays few (readDays_eq_error_iff.mpr (.inl fault))
  | dayZero few written within zero =>
      exact readMonthly_of_readDays few
        (readDays_eq_error_iff.mpr (.inr ⟨rfl, _, written, within, zero⟩))
  | @months list others days _ written within fault =>
      have read := readDays_eq_ok_iff.mpr ⟨days, written, within, eraseDups_eq_iff.mp rfl⟩
      have failed : readMonths days.eraseDups others = .error reason :=
        readMonths_eq_error_iff.mpr (.inl fault)
      exact bind_eq_error_iff.mpr (.inr ⟨_, read, bind_eq_error_iff.mpr (.inl failed)⟩)
  | unsatisfiable written within writtenMonths monthsWithin appearances monthsOf unsatisfiable =>
      have read := readDays_eq_ok_iff.mpr ⟨_, written, within, appearances⟩
      have failed := readMonths_eq_error_iff.mpr
        (.inr ⟨_, _, writtenMonths, monthsWithin, monthsOf, unsatisfiable, rfl⟩)
      exact bind_eq_error_iff.mpr (.inr ⟨_, read, bind_eq_error_iff.mpr (.inl failed)⟩)

theorem ofWords_eq_error_iff : ofWords words = .error reason ↔ RefusedFor words reason :=
  ⟨refusedFor_of_ofWords, ofWords_of_refusedFor⟩

/-- The part of the rule that a fault names. -/
def fieldOf? : RuleError → Option RuleField
  | .malformed field _ | .outOfRange field _ _ _ => some field
  | _ => none

theorem ItemFault.fieldOf?_eq (faulty : ItemFault field low high item reason) :
    fieldOf? reason = some field := by
  cases faulty <;> rfl

theorem ListFault.fieldOf?_eq (faulty : ListFault field low high list reason) :
    fieldOf? reason = some field := by
  cases faulty with
  | empty _ _ => rfl
  | item _ _ _ fault => exact fault.fieldOf?_eq

theorem refusedFor_emptyRule_iff : RefusedFor words .emptyRule ↔ words = [] := by
  constructor
  · intro refused
    cases refused with
    | noWords => rfl
    | interval fault | weekdays fault | days _ fault | months _ _ fault => cases fault.fieldOf?_eq
  · intro noWords
    rw [noWords]
    exact .noWords

theorem refusedFor_unknownKind_iff {kind : String} :
    RefusedFor words (.unknownKind kind) ↔ ∃ first arguments, words = first :: arguments ∧
      first ∉ kinds ∧ kind = String.ofList first := by
  constructor
  · intro refused
    cases refused with
    | unknownKind unknown => exact ⟨_, _, rfl, unknown, rfl⟩
    | interval fault | weekdays fault | days _ fault | months _ _ fault => cases fault.fieldOf?_eq
  · intro starts
    obtain ⟨first, arguments, rfl, unknown, rfl⟩ := starts
    exact .unknownKind unknown

theorem refusedFor_malformed_rule_iff {malformation : Malformation} :
    RefusedFor words (.malformed .rule malformation) ↔ ∃ kind arguments, words = kind :: arguments ∧
      Miscounts kind arguments.length malformation := by
  constructor
  · intro refused
    cases refused with
    | arguments miscounts => exact ⟨_, _, rfl, miscounts⟩
    | interval fault | weekdays fault | days _ fault | months _ _ fault => cases fault.fieldOf?_eq
  · intro goesOn
    obtain ⟨kind, arguments, rfl, miscounts⟩ := goesOn
    exact .arguments miscounts

/-- A rule text is refused for one reason, that of the first of its faults. There is none before the
faults of the lists but that the text has no words, starts with an unknown one, or goes on with too few or
too many. -/
theorem read_refusal (text : String) : ∃ words, HasWords text.toList words ∧
    (∀ reason, Rule.read text = .error reason ↔ RefusedFor words reason) ∧
    (Rule.read text = .error .emptyRule ↔ words = []) ∧
    (∀ kind, Rule.read text = .error (.unknownKind kind) ↔ ∃ first arguments,
      words = first :: arguments ∧ first ∉ kinds ∧ kind = String.ofList first) ∧
    ∀ malformation, Rule.read text = .error (.malformed .rule malformation) ↔ ∃ kind arguments,
      words = kind :: arguments ∧ Miscounts kind arguments.length malformation := by
  have refused (reason : RuleError) :
      Rule.read text = .error reason ↔ RefusedFor (Text.words text.toList) reason :=
    ofWords_eq_error_iff
  refine ⟨Text.words text.toList, words_eq_iff.mp rfl, refused, ?_, fun kind => ?_, fun malformation => ?_⟩
  · rw [refused, refusedFor_emptyRule_iff]
  · rw [refused, refusedFor_unknownKind_iff]
  · rw [refused, refusedFor_malformed_rule_iff]

-- The list of days is read to its end before 0 is refused, and before the months are looked at.
example : Rule.read "m 0,32 x" = .error (.outOfRange .dayOfMonth "32" (-2) 31) := by decide

-- The twentieth digit runs beyond 64 bits, so the letter behind it is not reached.
example : Rule.read "w 10000000000000000000x,8" =
    .error (.outOfRange .weekday "10000000000000000000x" 1 7) := by decide

end Rule

end Agenda
