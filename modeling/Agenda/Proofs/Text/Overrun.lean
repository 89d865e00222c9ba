import Agenda.Proofs.Text.Number

/-! A text overruns if it starts with an integer of more than 64 bits, whatever follows. -/

namespace Agenda.Text

variable {chars digits : List Char} {largest start : Nat} {beyond fault : NumberFault}

/-- The digits at the start of the text come to more than `largest`. -/
def Exceeds (largest : Nat) (chars : List Char) : Prop :=
  ∃ row, row <+: chars ∧ (∀ char ∈ row, char.isDigit = true) ∧ largest < digitsValue row

/-- The text starts with an integer that has more than 64 bits. -/
def Overruns (chars : List Char) : Prop :=
  ∃ lead value, lead <+: chars ∧ WritesInteger lead value ∧ ¬ IsInteger64 value

/-- The fault is one of size. -/
def NumberFault.Oversized : NumberFault → Prop
  | .tooLarge | .tooSmall => True
  | .empty | .badDigit => False

theorem ofDigitChars_cons_eq (char : Char) (digits : List Char) (start : Nat) :
    Nat.ofDigitChars 10 (char :: digits) start =
      Nat.ofDigitChars 10 digits (Nat.ofDigitChars 10 [char] start) := by
  rw [← Nat.ofDigitChars_append, List.singleton_append]

theorem readDigits_fault (failed : readDigits largest beyond start digits = .error fault) :
    fault = beyond ∨ fault = .badDigit := by
  induction digits generalizing start with
  | nil => cases failed
  | cons char rest ih =>
      simp only [readDigits] at failed
      split at failed
      · split at failed
        · exact ih failed
        · cases failed
          exact .inl rfl
      · cases failed
        exact .inr rfl

theorem exceeds_cons_iff {char : Char} {rest : List Char} (within : start ≤ largest) :
    (∃ row, row <+: char :: rest ∧ (∀ char ∈ row, char.isDigit = true) ∧
        largest < Nat.ofDigitChars 10 row start) ↔
      char.isDigit = true ∧ ∃ row, row <+: rest ∧ (∀ char ∈ row, char.isDigit = true) ∧
        largest < Nat.ofDigitChars 10 row (Nat.ofDigitChars 10 [char] start) := by
  constructor
  · intro exceeds
    obtain ⟨row, starts, all, exceeds⟩ := exceeds
    cases row with
    | nil =>
        rw [Nat.ofDigitChars_nil] at exceeds
        omega
    | cons first row =>
        obtain ⟨rfl, startsRest⟩ := List.cons_prefix_cons.mp starts
        obtain ⟨digit, all⟩ := List.forall_mem_cons.mp all
        rw [ofDigitChars_cons_eq] at exceeds
        exact ⟨digit, row, startsRest, all, exceeds⟩
  · intro exceeds
    obtain ⟨digit, row, starts, all, exceeds⟩ := exceeds
    rw [← ofDigitChars_cons_eq] at exceeds
    exact ⟨char :: row, List.cons_prefix_cons.mpr ⟨rfl, starts⟩,
      List.forall_mem_cons.mpr ⟨digit, all⟩, exceeds⟩

/-- The first digit that takes the value beyond the bound ends the reading, before any later character. -/
theorem readDigits_eq_beyond_iff (within : start ≤ largest) (apart : beyond ≠ .badDigit) :
    readDigits largest beyond start digits = .error beyond ↔
      ∃ row, row <+: digits ∧ (∀ char ∈ row, char.isDigit = true) ∧
        largest < Nat.ofDigitChars 10 row start := by
  induction digits generalizing start with
  | nil =>
      refine iff_of_false (fun impossible => by cases impossible) fun exceeds => ?_
      obtain ⟨row, starts, -, exceeds⟩ := exceeds
      rw [List.prefix_nil.mp starts, Nat.ofDigitChars_nil] at exceeds
      omega
  | cons char rest ih =>
      rw [exceeds_cons_iff within]
      simp only [readDigits]
      by_cases digit : char.isDigit = true
      · rw [if_pos digit]
        by_cases fits : Nat.ofDigitChars 10 [char] start ≤ largest
        · rw [if_pos fits, ih fits]
          simp [digit]
        · rw [if_neg fits]
          refine iff_of_true rfl ⟨digit, [], List.nil_prefix, by simp, ?_⟩
          rw [Nat.ofDigitChars_nil]
          omega
      · rw [if_neg digit]
        refine iff_of_false (fun same => ?_) fun exceeds => digit exceeds.1
        exact apart (Except.error.inj same).symm

theorem not_exceeds_nil : ¬ Exceeds largest [] := by
  intro exceeds
  obtain ⟨row, starts, -, exceeds⟩ := exceeds
  rw [List.prefix_nil.mp starts] at exceeds
  exact Nat.not_lt_zero largest exceeds

theorem exists_oversized_readSigned_iff (beyond : NumberFault) (oversized : beyond.Oversized)
    (signed : Nat → Int) :
    (∃ fault, (do return signed (← readDigits largest beyond 0 digits)) = Except.error fault ∧
        fault.Oversized) ↔ Exceeds largest digits := by
  have apart : beyond ≠ .badDigit := by
    intro same
    subst same
    exact oversized
  have exceeds_iff : readDigits largest beyond 0 digits = .error beyond ↔ Exceeds largest digits :=
    readDigits_eq_beyond_iff (Nat.zero_le largest) apart
  rw [← exceeds_iff]
  constructor
  · intro failed
    obtain ⟨fault, failed, large⟩ := failed
    rcases bind_eq_error_iff.mp failed with failed | ⟨value, -, impossible⟩
    · rcases readDigits_fault failed with rfl | rfl
      · exact failed
      · exact absurd large id
    · cases impossible
  · intro failed
    exact ⟨beyond, bind_eq_error_iff.mpr (.inl failed), oversized⟩

theorem isDigits_of_lt {row : List Char} (all : ∀ char ∈ row, char.isDigit = true)
    (exceeds : largest < digitsValue row) : IsDigits row := by
  refine ⟨fun empty => ?_, all⟩
  rw [empty] at exceeds
  exact Nat.not_lt_zero largest exceeds

theorem not_overruns_nil : ¬ Overruns [] := by
  intro overruns
  obtain ⟨lead, value, starts, written, -⟩ := overruns
  rw [List.prefix_nil.mp starts] at written
  cases written with
  | plain isDigits => exact isDigits.1 rfl

/-- Behind a sign it is the digits that decide, up to the bound of integers with that sign. -/
theorem overruns_sign_iff {sign : Char} (signed : Nat → Int)
    (writes : ∀ row value, WritesInteger (sign :: row) value ↔
      IsDigits row ∧ value = signed (digitsValue row))
    (fits : ∀ value, IsInteger64 (signed value) ↔ value ≤ largest) :
    Overruns (sign :: chars) ↔ Exceeds largest chars := by
  constructor
  · intro overruns
    obtain ⟨lead, value, starts, written, large⟩ := overruns
    cases lead with
    | nil =>
        cases written with
        | plain isDigits => exact absurd rfl isDigits.1
    | cons first row =>
        obtain ⟨rfl, startsRest⟩ := List.cons_prefix_cons.mp starts
        obtain ⟨isDigits, rfl⟩ := (writes row value).mp written
        rw [fits, Nat.not_le] at large
        exact ⟨row, startsRest, isDigits.2, large⟩
  · intro exceeds
    obtain ⟨row, starts, all, exceeds⟩ := exceeds
    refine ⟨sign :: row, _, List.cons_prefix_cons.mpr ⟨rfl, starts⟩,
      (writes row _).mpr ⟨isDigits_of_lt all exceeds, rfl⟩, ?_⟩
    rw [fits]
    exact Nat.not_le_of_lt exceeds

theorem overruns_plus_iff : Overruns ('+' :: chars) ↔ Exceeds largestInteger chars := by
  refine overruns_sign_iff (fun value => (value : Int)) (fun _ _ => writesInteger_plus_iff) ?_
  intro value
  simp only [IsInteger64]
  omega

theorem overruns_minus_iff : Overruns ('-' :: chars) ↔ Exceeds (largestInteger + 1) chars := by
  refine overruns_sign_iff (fun value => -(value : Int)) (fun _ _ => writesInteger_minus_iff) ?_
  intro value
  simp only [IsInteger64]
  omega

theorem overruns_plain_iff (noPlus : ∀ rest, chars ≠ '+' :: rest)
    (noMinus : ∀ rest, chars ≠ '-' :: rest) : Overruns chars ↔ Exceeds largestInteger chars := by
  constructor
  · intro overruns
    obtain ⟨lead, value, ⟨rest, rfl⟩, written, large⟩ := overruns
    cases written with
    | plain isDigits =>
        refine ⟨lead, List.prefix_append lead rest, isDigits.2, ?_⟩
        simp only [IsInteger64] at large
        omega
    | plus _ => exact absurd rfl (noPlus _)
    | minus _ => exact absurd rfl (noMinus _)
  · intro exceeds
    obtain ⟨row, starts, all, exceeds⟩ := exceeds
    refine ⟨row, _, starts, .plain (isDigits_of_lt all exceeds), ?_⟩
    simp only [IsInteger64]
    omega

/-- The size of a number is complained of if the text overruns, also if it would not have been an integer.
-/
theorem exists_oversized_iff :
    (∃ fault, readInteger chars = .error fault ∧ fault.Oversized) ↔ Overruns chars := by
  have sized {spelt : List Char} {fault : NumberFault} (small : ¬ fault.Oversized)
      (fits : ¬ Overruns spelt) :
      (∃ other, (Except.error fault : Except NumberFault Int) = .error other ∧ other.Oversized) ↔
        Overruns spelt := by
    simpa [fits] using small
  simp only [readInteger]
  split
  · exact sized id not_overruns_nil
  · exact sized id fun overruns => not_exceeds_nil (overruns_plus_iff.mp overruns)
  · exact sized id fun overruns => not_exceeds_nil (overruns_minus_iff.mp overruns)
  · rw [exists_oversized_readSigned_iff .tooSmall trivial fun value => -(value : Int),
      overruns_minus_iff]
  · rw [exists_oversized_readSigned_iff .tooLarge trivial fun value => (value : Int),
      overruns_plus_iff]
  · rename_i _ _ minusFree plusFree
    rw [exists_oversized_readSigned_iff .tooLarge trivial fun value => (value : Int),
      overruns_plain_iff plusFree minusFree]

theorem exists_misspelt_iff :
    (∃ fault, readInteger chars = .error fault ∧ ¬ fault.Oversized) ↔
      (∀ value, ¬ WritesInteger chars value) ∧ ¬ Overruns chars := by
  constructor
  · intro failed
    obtain ⟨fault, failed, small⟩ := failed
    have fits : ¬ Overruns chars := by
      intro overruns
      obtain ⟨other, failedElse, oversized⟩ := exists_oversized_iff.mpr overruns
      rw [failed] at failedElse
      cases failedElse
      exact small oversized
    refine ⟨fun value written => ?_, fits⟩
    by_cases within : IsInteger64 value
    · rw [readInteger_eq_ok_iff.mpr ⟨written, within⟩] at failed
      cases failed
    · exact fits ⟨chars, value, List.prefix_rfl, written, within⟩
  · intro misspelt
    obtain ⟨notWritten, fits⟩ := misspelt
    cases read : readInteger chars with
    | ok value => exact absurd (readInteger_eq_ok_iff.mp read).1 (notWritten value)
    | error fault =>
        refine ⟨fault, rfl, fun oversized => ?_⟩
        exact fits (exists_oversized_iff.mp ⟨fault, read, oversized⟩)

end Agenda.Text
