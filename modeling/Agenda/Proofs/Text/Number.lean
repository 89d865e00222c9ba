import Agenda.Proofs.Except
import Agenda.Proofs.Text.Blank
import Mathlib.Algebra.Group.Nat.Defs
import Mathlib.Data.Char

/-! Which texts write a number, and that the readers accept just these up to their bounds. -/

namespace Agenda.Text

/-- A row of digits, one at least. -/
def IsDigits (chars : List Char) : Prop := chars ≠ [] ∧ ∀ char ∈ chars, char.isDigit = true

instance (chars : List Char) : Decidable (IsDigits chars) :=
  decidable_of_iff (chars ≠ [] ∧ chars.all Char.isDigit = true) (by simp [IsDigits])

/-- The text writes the integer. -/
inductive WritesInteger : List Char → Int → Prop where
  | plain {digits : List Char} : IsDigits digits → WritesInteger digits (digitsValue digits)
  | plus {digits : List Char} : IsDigits digits → WritesInteger ('+' :: digits) (digitsValue digits)
  | minus {digits : List Char} :
      IsDigits digits → WritesInteger ('-' :: digits) (-(digitsValue digits))

variable {chars digits first second : List Char} {value : Int}

theorem IsDigits.isWord (isDigits : IsDigits chars) : IsWord chars :=
  ⟨isDigits.1, fun char member => isBlank_eq_false_of_isDigit (isDigits.2 char member)⟩

theorem le_ofDigitChars (digits : List Char) (start : Nat) :
    start ≤ Nat.ofDigitChars 10 digits start := by
  rw [Nat.ofDigitChars_eq_ofDigitChars_zero]
  have grown : 1 * start ≤ 10 ^ digits.length * start :=
    Nat.mul_le_mul_right start (Nat.pow_pos (by decide))
  omega

theorem readDigits_eq_ok_iff {largest start result : Nat} {beyond : NumberFault}
    (within : start ≤ largest) :
    readDigits largest beyond start digits = .ok result ↔
      (∀ char ∈ digits, char.isDigit = true) ∧ result = Nat.ofDigitChars 10 digits start ∧
        result ≤ largest := by
  induction digits generalizing start with
  | nil =>
      simp only [readDigits, Nat.ofDigitChars_nil, Except.ok.injEq]
      refine ⟨fun same => ⟨by simp, same.symm, same ▸ within⟩, fun written => written.2.1.symm⟩
  | cons char rest ih =>
      have longer : Nat.ofDigitChars 10 (char :: rest) start =
          Nat.ofDigitChars 10 rest (Nat.ofDigitChars 10 [char] start) := by
        rw [← Nat.ofDigitChars_append, List.singleton_append]
      simp only [readDigits]
      by_cases digit : char.isDigit = true
      · rw [if_pos digit]
        by_cases fits : Nat.ofDigitChars 10 [char] start ≤ largest
        · simp only [if_pos fits]
          rw [ih fits, longer]
          simp [digit]
        · simp only [if_neg fits]
          refine ⟨fun impossible => (by cases impossible), fun written => ?_⟩
          obtain ⟨-, rfl, le⟩ := written
          rw [longer] at le
          -- The value never shrinks, so once beyond the bound it stays there.
          exact absurd (Nat.le_trans (le_ofDigitChars rest _) le) fits
      · rw [if_neg digit]
        refine ⟨fun impossible => (by cases impossible), fun written => ?_⟩
        exact absurd (written.1 char (by simp)) digit

theorem IsDigits.head_ne_sign {char : Char} (digits : IsDigits (char :: chars)) :
    char ≠ '+' ∧ char ≠ '-' := by
  have digit := digits.2 char (by simp)
  refine ⟨?_, ?_⟩ <;> intro same <;> subst same <;> contradiction

theorem writesInteger_plus_iff :
    WritesInteger ('+' :: chars) value ↔ IsDigits chars ∧ value = digitsValue chars := by
  refine ⟨fun written => ?_, fun ⟨digits, same⟩ => same ▸ .plus digits⟩
  cases written with
  | plain digits => exact absurd rfl digits.head_ne_sign.1
  | plus digits => exact ⟨digits, rfl⟩

theorem writesInteger_minus_iff :
    WritesInteger ('-' :: chars) value ↔ IsDigits chars ∧ value = -(digitsValue chars : Int) := by
  refine ⟨fun written => ?_, fun ⟨digits, same⟩ => same ▸ .minus digits⟩
  cases written with
  | plain digits => exact absurd rfl digits.head_ne_sign.2
  | minus digits => exact ⟨digits, rfl⟩

theorem writesInteger_plain_iff (noPlus : ∀ rest, chars ≠ '+' :: rest)
    (noMinus : ∀ rest, chars ≠ '-' :: rest) :
    WritesInteger chars value ↔ IsDigits chars ∧ value = digitsValue chars := by
  refine ⟨fun written => ?_, fun ⟨digits, same⟩ => same ▸ .plain digits⟩
  cases written with
  | plain digits => exact ⟨digits, rfl⟩
  | plus digits => exact absurd rfl (noPlus _)
  | minus digits => exact absurd rfl (noMinus _)

theorem writesInteger_of_isDigits (digits : IsDigits chars) (written : WritesInteger chars value) :
    value = digitsValue chars := by
  cases written with
  | plain _ => rfl
  | plus _ => exact absurd rfl digits.head_ne_sign.1
  | minus _ => exact absurd rfl digits.head_ne_sign.2

theorem WritesInteger.unique {other : Int} (written : WritesInteger chars value)
    (writtenElse : WritesInteger chars other) : value = other := by
  cases written with
  | plain digits => exact (writesInteger_of_isDigits digits writtenElse).symm
  | plus digits => exact (writesInteger_plus_iff.mp writtenElse).2.symm
  | minus digits => exact (writesInteger_minus_iff.mp writtenElse).2.symm

theorem WritesInteger.isDigit_or_sign {char : Char} (written : WritesInteger chars value)
    (member : char ∈ chars) : char.isDigit = true ∨ char = '+' ∨ char = '-' := by
  cases written with
  | plain digits => exact .inl (digits.2 char member)
  | plus digits =>
      rcases List.mem_cons.mp member with sign | digit
      · exact .inr (.inl sign)
      · exact .inl (digits.2 char digit)
  | minus digits =>
      rcases List.mem_cons.mp member with sign | digit
      · exact .inr (.inr sign)
      · exact .inl (digits.2 char digit)

theorem WritesInteger.notMem {char : Char} (written : WritesInteger chars value)
    (other : ¬ (char.isDigit = true ∨ char = '+' ∨ char = '-')) : char ∉ chars :=
  fun member => other (written.isDigit_or_sign member)

theorem readSigned_eq_ok_iff {largest : Nat} {beyond : NumberFault} (signed : Nat → Int)
    (nonempty : digits ≠ []) :
    (do return signed (← readDigits largest beyond 0 digits)) = .ok value ↔
      IsDigits digits ∧ value = signed (digitsValue digits) ∧ digitsValue digits ≤ largest := by
  rw [bind_eq_ok_iff]
  constructor
  · intro succeeded
    obtain ⟨result, read, same⟩ := succeeded
    obtain ⟨all, rfl, within⟩ := (readDigits_eq_ok_iff (Nat.zero_le _)).mp read
    exact ⟨⟨nonempty, all⟩, (Except.ok.inj same).symm, within⟩
  · intro written
    obtain ⟨isDigits, rfl, within⟩ := written
    exact ⟨_, (readDigits_eq_ok_iff (Nat.zero_le _)).mpr ⟨isDigits.2, rfl, within⟩, rfl⟩

/-- The reader accepts the texts that write an integer of 64 bits, and reads that integer. -/
theorem readInteger_eq_ok_iff :
    readInteger chars = .ok value ↔ WritesInteger chars value ∧ IsInteger64 value := by
  simp only [readInteger, IsInteger64]
  split
  · simp [writesInteger_plain_iff, IsDigits]
  · simp [writesInteger_plus_iff, IsDigits]
  · simp [writesInteger_minus_iff, IsDigits]
  · rename_i digits nonempty
    rw [readSigned_eq_ok_iff (fun result => -(result : Int)) (by simpa using nonempty),
      writesInteger_minus_iff, and_assoc]
    exact and_congr_right fun _ => by omega
  · rename_i digits nonempty
    rw [readSigned_eq_ok_iff (fun result => (result : Int)) (by simpa using nonempty),
      writesInteger_plus_iff, and_assoc]
    exact and_congr_right fun _ => by omega
  · rename_i nonempty noPlus noMinus minusFree plusFree
    rw [readSigned_eq_ok_iff (fun result => (result : Int)) nonempty,
      writesInteger_plain_iff plusFree minusFree, and_assoc]
    exact and_congr_right fun _ => by omega

/-- The text writes the natural number. Not even 0 may have a minus sign. -/
def WritesNatural (chars : List Char) (number : Nat) : Prop :=
  WritesInteger chars number ∧ '-' ∉ chars

theorem IsDigits.minus_notMem (isDigits : IsDigits chars) : '-' ∉ chars :=
  fun member => absurd (isDigits.2 '-' member) (by decide)

theorem readNatural_eq_ok_iff {number : Nat} :
    readNatural chars = .ok number ↔ WritesNatural chars number ∧ number ≤ largestNatural := by
  simp only [readNatural, WritesNatural]
  split
  · simp [writesInteger_plain_iff, IsDigits]
  · simp [writesInteger_plus_iff, IsDigits]
  · rename_i digits nonempty
    rw [readDigits_eq_ok_iff (Nat.zero_le _), writesInteger_plus_iff]
    constructor
    · rintro ⟨all, rfl, within⟩
      have isDigits : IsDigits digits := ⟨by simpa using nonempty, all⟩
      exact ⟨⟨⟨isDigits, rfl⟩, by simp [isDigits.minus_notMem]⟩, within⟩
    · rintro ⟨⟨⟨isDigits, same⟩, -⟩, within⟩
      exact ⟨isDigits.2, Int.ofNat_inj.mp same, within⟩
  · rename_i nonempty _ noPlus
    rw [readDigits_eq_ok_iff (Nat.zero_le _)]
    constructor
    · rintro ⟨all, rfl, within⟩
      have isDigits : IsDigits chars := ⟨nonempty, all⟩
      exact ⟨⟨.plain isDigits, isDigits.minus_notMem⟩, within⟩
    · rintro ⟨⟨written, noMinus⟩, within⟩
      have minusFree (rest : List Char) : chars ≠ '-' :: rest := fun same => noMinus (by simp [same])
      obtain ⟨isDigits, same⟩ := (writesInteger_plain_iff noPlus minusFree).mp written
      exact ⟨isDigits.2, Int.ofNat_inj.mp same, within⟩

theorem isDigits_toDigits (number : Nat) : IsDigits (Nat.toDigits 10 number) :=
  ⟨Nat.toDigits_ne_nil, fun _ member => Nat.isDigit_of_mem_toDigits (by decide) (by decide) member⟩

theorem writesInteger_repr (value : Int) : WritesInteger value.repr.toList value := by
  have digitsValue_toDigits (number : Nat) : digitsValue (Nat.toDigits 10 number) = number :=
    Nat.ofDigitChars_ten_toDigits
  cases value with
  | ofNat number =>
      have written := WritesInteger.plain (isDigits_toDigits number)
      rw [digitsValue_toDigits, ← Nat.toList_repr] at written
      exact written
  | negSucc number =>
      have written := WritesInteger.minus (isDigits_toDigits (number + 1))
      rw [digitsValue_toDigits, ← Nat.toList_repr] at written
      rw [Int.repr, String.toList_append]
      exact written

theorem digitsValue_lt (isDigits : ∀ char ∈ digits, char.isDigit = true) :
    digitsValue digits < 10 ^ digits.length := by
  simp only [digitsValue]
  induction digits with
  | nil => decide
  | cons char rest ih =>
      have digit : char.toNat - '0'.toNat ≤ 9 := by
        have bounds := Char.isDigit_iff_toNat.mp (isDigits char (by simp))
        have zero : '0'.toNat = 48 := rfl
        have nine : '9'.toNat = 57 := rfl
        omega
      have rest_lt := ih fun char member => isDigits char (by simp [member])
      rw [Nat.ofDigitChars_cons, Nat.ofDigitChars_eq_ofDigitChars_zero, Nat.mul_zero, Nat.zero_add,
        List.length_cons, Nat.pow_succ]
      have scaled := Nat.mul_le_mul_left (10 ^ rest.length) digit
      omega

theorem length_padded {width number : Nat} (pos : 0 < width) (fits : number < 10 ^ width) :
    (padded width number).length = width := by
  have short := (Nat.length_toDigits_le_iff (b := 10) (by decide) pos).mpr fits
  simp only [padded, List.length_append, List.length_replicate]
  omega

theorem isDigit_padded {width number : Nat} {char : Char} (member : char ∈ padded width number) :
    char.isDigit = true := by
  rcases List.mem_append.mp member with zero | digit
  · rw [List.eq_of_mem_replicate zero]
    decide
  · exact Nat.isDigit_of_mem_toDigits (by decide) (by decide) digit

theorem isDigits_padded {width number : Nat} (pos : 0 < width) (fits : number < 10 ^ width) :
    IsDigits (padded width number) := by
  refine ⟨List.ne_nil_of_length_pos ?_, fun _ => isDigit_padded⟩
  rw [length_padded pos fits]
  exact pos

theorem digitsValue_padded (width number : Nat) : digitsValue (padded width number) = number := by
  rw [digitsValue, padded, Nat.ofDigitChars_append, Nat.ofDigitChars_replicate_zero, Nat.mul_zero,
    Nat.ofDigitChars_ten_toDigits]

theorem digitsValue_append (first second : List Char) :
    digitsValue (first ++ second) = digitsValue first * 10 ^ second.length + digitsValue second := by
  rw [digitsValue, Nat.ofDigitChars_append, Nat.ofDigitChars_eq_ofDigitChars_zero, Nat.mul_comm]
  rfl

theorem digitsValue_cons (char : Char) (digits : List Char) :
    digitsValue (char :: digits) =
      (char.toNat - '0'.toNat) * 10 ^ digits.length + digitsValue digits := by
  rw [← List.singleton_append, digitsValue_append]
  simp [digitsValue, Nat.ofDigitChars_cons]

theorem digitsValue_cons_lt {char other : Char}
    (digits : ∀ digit ∈ char :: first, digit.isDigit = true) (aligned : first.length = second.length)
    (less : char < other) : digitsValue (char :: first) < digitsValue (other :: second) := by
  obtain ⟨digit, firstDigits⟩ := List.forall_mem_cons.mp digits
  have bounds := Char.isDigit_iff_toNat.mp digit
  have less : char.toNat < other.toNat := less
  -- A larger digit in front outweighs all the digits that follow.
  have scaled := Nat.mul_le_mul_right (10 ^ second.length)
    (show char.toNat - '0'.toNat + 1 ≤ other.toNat - '0'.toNat by omega)
  have small := digitsValue_lt firstDigits
  rw [aligned] at small
  rw [Nat.succ_mul] at scaled
  rw [digitsValue_cons, digitsValue_cons, aligned]
  omega

theorem lt_iff_digitsValue_lt (firstDigits : ∀ char ∈ first, char.isDigit = true)
    (secondDigits : ∀ char ∈ second, char.isDigit = true) (aligned : first.length = second.length) :
    first < second ↔ digitsValue first < digitsValue second := by
  induction first generalizing second with
  | nil =>
      rw [List.eq_nil_of_length_eq_zero aligned.symm]
      simp
  | cons char first ih =>
      cases second with
      | nil => cases aligned
      | cons other second =>
          rw [List.cons_lt_cons_iff]
          rcases lt_trichotomy char other with less | rfl | greater
          · exact iff_of_true (.inl less) (digitsValue_cons_lt firstDigits (Nat.succ.inj aligned) less)
          · rw [ih (List.forall_mem_cons.mp firstDigits).2 (List.forall_mem_cons.mp secondDigits).2
                (Nat.succ.inj aligned), digitsValue_cons, digitsValue_cons, Nat.succ.inj aligned]
            simp
          · refine iff_of_false ?_
              (Nat.lt_asymm (digitsValue_cons_lt secondDigits (Nat.succ.inj aligned.symm) greater))
            rintro (less | ⟨rfl, -⟩)
            · exact lt_asymm less greater
            · exact lt_irrefl _ greater

theorem eq_of_digitsValue_eq (firstDigits : ∀ char ∈ first, char.isDigit = true)
    (secondDigits : ∀ char ∈ second, char.isDigit = true) (aligned : first.length = second.length)
    (same : digitsValue first = digitsValue second) : first = second := by
  apply List.le_antisymm
  · rw [← List.not_lt, lt_iff_digitsValue_lt secondDigits firstDigits aligned.symm, same]
    exact Nat.lt_irrefl _
  · rw [← List.not_lt, lt_iff_digitsValue_lt firstDigits secondDigits aligned, same]
    exact Nat.lt_irrefl _

end Agenda.Text
