import Agenda.Json.Numeral
import Agenda.Proofs.Text.Number

/-! What is written in JSON is read back: texts with any characters in them, objects in any layout, and
integers of 64 bits. -/

namespace Agenda.Json

variable {char : Char} {chars rest : List Char}

theorem hexCode?_control {code : Nat} (control : code < 0x20) :
    hexCode? '0' '0' (hexDigit (code / 16)) (hexDigit (code % 16)) = some code := by
  revert code
  decide

theorem scan_plain (unescaped : escapeLetter? char = none) (shown : isControl char = false) :
    scan (char :: rest) = (scan rest).cons char.toNat := by
  have noQuote : char ≠ '"' := by
    rintro rfl
    cases unescaped
  have noBackslash : char ≠ '\\' := by
    rintro rfl
    cases unescaped
  rw [scan.eq_def]
  split
  all_goals simp_all

theorem scan_control (control : isControl char = true) :
    scan (['\\', 'u', '0', '0', hexDigit (char.toNat / 16), hexDigit (char.toNat % 16)] ++ rest) =
      (scan rest).cons char.toNat := by
  have code := hexCode?_control (of_decide_eq_true control)
  simp only [List.cons_append, List.nil_append, scan, code]

theorem scan_escape (char : Char) (rest : List Char) :
    scan (escape char ++ rest) = (scan rest).cons char.toNat := by
  unfold escape
  cases letter : escapeLetter? char with
  | some mark =>
      unfold escapeLetter? at letter
      split at letter <;> cases letter <;> rfl
  | none =>
      cases control : isControl char with
      | true => exact scan_control control
      | false => exact scan_plain letter control

theorem scan_escapes (chars rest : List Char) :
    scan (chars.flatMap escape ++ '"' :: rest) = ⟨chars.map Char.toNat, .ok rest⟩ := by
  induction chars with
  | nil => rfl
  | cons char chars ih =>
      rw [List.flatMap_cons, List.append_assoc, scan_escape, ih]
      rfl

theorem not_isSurrogate (char : Char) :
    ¬ IsHighSurrogate char.toNat ∧ ¬ IsLowSurrogate char.toNat := by
  have valid : char.toNat < 0xD800 ∨ 0xDFFF < char.toNat ∧ char.toNat < 0x110000 := char.valid
  simp only [IsHighSurrogate, IsLowSurrogate]
  omega

theorem spell?_codes (chars : List Char) : spell? (chars.map Char.toNat) = some chars := by
  induction chars with
  | nil => rfl
  | cons char chars ih =>
      obtain ⟨notHigh, notLow⟩ := not_isSurrogate char
      cases chars with
      | nil => simp [spell?, notHigh, notLow]
      | cons next chars =>
          rw [List.map_cons] at ih
          simp [spell?, notHigh, notLow, ih]

/-- What is written between quotes is read again, whatever characters it holds. -/
theorem readText_escapes (text : String) (rest : List Char) :
    readText (text.toList.flatMap escape ++ '"' :: rest) = .ok (text, rest) := by
  simp only [readText, scan_escapes, spell?_codes, String.ofList_toList]

variable {mark : Char} {lead gap trail : List Char} {depth : Nat} {members : List Member}

theorem isSpace_iff {char : Char} :
    isSpace char = true ↔ char = ' ' ∨ char = '\n' ∨ char = '\t' ∨ char = '\r' := by
  simp [isSpace, or_assoc]

def AllSpace (chars : List Char) : Prop := ∀ char ∈ chars, isSpace char = true

theorem allSpace_nil : AllSpace [] := by
  intro char member
  cases member

theorem allSpace_blank : AllSpace [' '] := by
  intro char member
  rw [List.mem_singleton.mp member]
  rfl

theorem allSpace_newline (depth : Nat) : AllSpace ('\n' :: indentation depth) := by
  intro char member
  rcases List.mem_cons.mp member with rfl | blank
  · rfl
  · rw [List.eq_of_mem_replicate blank]
    rfl

theorem skipSpace_append (space : AllSpace lead) : skipSpace (lead ++ rest) = skipSpace rest :=
  List.dropWhile_append_of_pos space

theorem skipSpace_eq_nil (space : AllSpace chars) : skipSpace chars = [] := by
  have skipped : skipSpace (chars ++ []) = skipSpace [] := skipSpace_append space
  rw [List.append_nil] at skipped
  exact skipped

theorem skipSpace_append_cons (space : AllSpace lead) (shown : isSpace mark = false) :
    skipSpace (lead ++ mark :: rest) = mark :: rest := by
  rw [skipSpace_append space, skipSpace, List.dropWhile_cons_of_neg (by simp [shown])]

theorem skipSpace_quoted (space : AllSpace lead) (text : String) (rest : List Char) :
    skipSpace (lead ++ quoted text ++ rest) = '"' :: (text.toList.flatMap escape ++ '"' :: rest) := by
  rw [List.append_assoc, quoted, List.cons_append, skipSpace_append_cons space rfl]
  simp

theorem skipSpace_writtenMember (space : AllSpace lead) (separator : List Char) (member : Member)
    (rest : List Char) :
    skipSpace (lead ++ writtenMember separator member ++ rest) =
      '"' :: (member.1.toList.flatMap escape ++ '"' :: (separator ++ member.2.written ++ rest)) := by
  have shape : lead ++ writtenMember separator member ++ rest =
      lead ++ quoted member.1 ++ (separator ++ member.2.written ++ rest) := by simp [writtenMember]
  rw [shape, skipSpace_quoted space]

theorem takeMark_of_skipSpace (found : skipSpace chars = mark :: rest) :
    takeMark mark chars = .ok rest := by
  unfold takeMark
  rw [found]
  exact if_pos rfl

theorem takeMark_append (mark : Char) (space : AllSpace lead) (shown : isSpace mark = false)
    (rest : List Char) : takeMark mark (lead ++ mark :: rest) = .ok rest :=
  takeMark_of_skipSpace (skipSpace_append_cons space shown)

/-- The members of an object as they stand after its opening bracket. -/
inductive LaysOut : List Member → List Char → Prop where
  | last {member : Member} {lead gap trail : List Char} :
      AllSpace lead → AllSpace gap → AllSpace trail →
        LaysOut [member] (lead ++ writtenMember (':' :: gap) member ++ trail ++ ['}'])
  | next {member : Member} {members : List Member} {lead gap trail text : List Char} :
      AllSpace lead → AllSpace gap → AllSpace trail → LaysOut members text →
        LaysOut (member :: members) (lead ++ writtenMember (':' :: gap) member ++ trail ++ ',' :: text)

theorem laysOut_intercalate (leadSpace : AllSpace lead) (gapSpace : AllSpace gap)
    (trailSpace : AllSpace trail) (first : Member) (members : List Member) :
    LaysOut (first :: members)
      ([','].intercalate ((first :: members).map (lead ++ writtenMember (':' :: gap) ·)) ++ trail ++
        ['}']) := by
  induction members generalizing first with
  | nil =>
      rw [List.map_singleton, List.intercalate_singleton]
      exact .last leadSpace gapSpace trailSpace
  | cons second members ih =>
      have following := ih second
      rw [List.map_cons] at following
      rw [List.map_cons, List.map_cons, List.intercalate_cons_cons]
      have laid := @LaysOut.next first _ _ _ _ _ leadSpace gapSpace allSpace_nil following
      simpa only [List.append_nil, List.append_assoc, List.cons_append, List.nil_append] using laid

theorem exists_compact_eq (nonempty : members ≠ []) :
    ∃ text, compact members = '{' :: text ∧ LaysOut members text := by
  obtain ⟨first, more, rfl⟩ := List.exists_cons_of_ne_nil nonempty
  have laid := laysOut_intercalate allSpace_nil allSpace_nil allSpace_nil first more
  simp only [List.nil_append, List.append_nil] at laid
  exact ⟨_, rfl, laid⟩

theorem intercalate_newline (first : List Char) (items : List (List Char)) :
    '\n' :: [',', '\n'].intercalate (first :: items) =
      [','].intercalate ((first :: items).map ('\n' :: ·)) := by
  induction items generalizing first with
  | nil => rfl
  | cons second items ih =>
      have following := ih second
      rw [List.map_cons] at following
      rw [List.map_cons, List.map_cons, List.intercalate_cons_cons, List.intercalate_cons_cons, ← following]
      simp

theorem block_cons (opening closing : Char) (depth : Nat) (first : List Char)
    (items : List (List Char)) :
    block opening closing depth (first :: items) =
      opening :: ([','].intercalate
        ((first :: items).map fun item => '\n' :: indentation (depth + 1) ++ item) ++
          '\n' :: indentation depth ++ [closing]) := by
  have joined := intercalate_newline (indentation (depth + 1) ++ first)
    (items.map (indentation (depth + 1) ++ ·))
  rw [← List.map_cons (f := (indentation (depth + 1) ++ ·)), List.map_map] at joined
  exact congrArg (fun body => opening :: (body ++ '\n' :: indentation depth ++ [closing])) joined

theorem exists_indented_eq (nonempty : members ≠ []) (depth : Nat) :
    ∃ text, indented depth members = '{' :: text ∧ LaysOut members text := by
  obtain ⟨first, more, rfl⟩ := List.exists_cons_of_ne_nil nonempty
  have laid := laysOut_intercalate (allSpace_newline (depth + 1)) allSpace_blank
    (allSpace_newline depth) first more
  refine ⟨_, ?_, laid⟩
  rw [indented, List.map_cons, block_cons, ← List.map_cons, List.map_map]
  rfl

open Text

variable {atEnd : Fault} {digits : List Char} {number : Nat} {value : Int}

/-- The text does not go on with what could be part of a number. -/
def EndsNumber (rest : List Char) : Prop :=
  ∀ char ∈ rest.head?, char.isDigit = false ∧ char ≠ '.' ∧ char ≠ 'e' ∧ char ≠ 'E'

theorem endsNumber_cons {mark : Char}
    (other : mark.isDigit = false ∧ mark ≠ '.' ∧ mark ≠ 'e' ∧ mark ≠ 'E') : EndsNumber (mark :: rest) := by
  intro char same
  cases same
  exact other

theorem head?_toDigits (pos : 0 < number) : (Nat.toDigits 10 number).head? ≠ some '0' := by
  induction number using Nat.strongRecOn with
  | ind number ih =>
      by_cases single : number < 10
      · have nonzero : ∀ digit < 10, 0 < digit → [Nat.digitChar digit].head? ≠ some '0' := by decide
        rw [Nat.toDigits_of_lt_base single]
        exact nonzero number single pos
      · rw [Nat.toDigits_of_base_le (by decide) (Nat.le_of_not_lt single),
          List.head?_append_of_ne_nil _ Nat.toDigits_ne_nil]
        exact ih _ (by omega) (by omega)

theorem takeDigits_append (isDigits : IsDigits digits)
    (ends : ∀ char ∈ rest.head?, char.isDigit = false) :
    takeDigits atEnd (digits ++ rest) = .ok (digits, rest) := by
  have taken : (digits ++ rest).takeWhile Char.isDigit = digits := by
    rw [List.takeWhile_append_of_pos isDigits.2]
    cases rest with
    | nil => simp
    | cons char rest => simp [ends char rfl]
  have left : (digits ++ rest).dropWhile Char.isDigit = rest := by
    rw [List.dropWhile_append_of_pos isDigits.2]
    cases rest with
    | nil => rfl
    | cons char rest => simp [ends char rfl]
  unfold takeDigits
  rw [taken, left]
  cases digits with
  | nil => exact absurd rfl isDigits.1
  | cons digit digits => rfl

theorem takeWhole_toDigits (number : Nat) (ends : EndsNumber rest) :
    takeWhole atEnd (Nat.toDigits 10 number ++ rest) = .ok (Nat.toDigits 10 number, rest) := by
  have taken : takeDigits atEnd (Nat.toDigits 10 number ++ rest) =
      .ok (Nat.toDigits 10 number, rest) :=
    takeDigits_append (isDigits_toDigits number) fun char next => (ends char next).1
  have noLeadingZero : ¬ ((Nat.toDigits 10 number).head? = some '0' ∧ Nat.toDigits 10 number ≠ ['0']) := by
    rintro ⟨zero, longer⟩
    rcases Nat.eq_zero_or_pos number with rfl | pos
    · exact longer (Nat.toDigits_zero 10)
    · exact head?_toDigits pos zero
  unfold takeWhole
  simp only [taken, bind, Except.bind, if_neg noLeadingZero]
  rfl

theorem takeFraction_of_endsNumber (ends : EndsNumber rest) :
    takeFraction atEnd rest = .ok ([], rest) := by
  unfold takeFraction
  split
  · exact absurd rfl (ends '.' rfl).2.1
  · rfl

theorem takeExponent_of_endsNumber (ends : EndsNumber rest) :
    takeExponent atEnd rest = .ok (none, rest) := by
  unfold takeExponent
  split
  · exact absurd rfl (ends 'e' rfl).2.2.1
  · exact absurd rfl (ends 'E' rfl).2.2.2
  · rfl

def integral (negative : Bool) (number : Nat) : Numeral where
  negative := negative
  whole := Nat.toDigits 10 number
  fraction := []
  exponent := none

theorem takeMinus_toDigits (number : Nat) (rest : List Char) :
    takeMinus (Nat.toDigits 10 number ++ rest) = (false, Nat.toDigits 10 number ++ rest) := by
  have isDigits := isDigits_toDigits number
  cases written : Nat.toDigits 10 number with
  | nil => exact absurd written isDigits.1
  | cons first digits =>
      rw [written] at isDigits
      unfold takeMinus
      split
      · rename_i same
        cases same
        exact absurd rfl isDigits.head_ne_sign.2
      · rfl

theorem takeNumeral_plain (number : Nat) (ends : EndsNumber rest) :
    takeNumeral atEnd (Nat.toDigits 10 number ++ rest) = .ok (integral false number, rest) := by
  simp only [takeNumeral, takeMinus_toDigits, takeWhole_toDigits number ends,
    takeFraction_of_endsNumber ends, takeExponent_of_endsNumber ends, bind, Except.bind]
  rfl

theorem takeNumeral_minus (number : Nat) (ends : EndsNumber rest) :
    takeNumeral atEnd ('-' :: (Nat.toDigits 10 number ++ rest)) = .ok (integral true number, rest) := by
  simp only [takeNumeral, takeMinus, takeWhole_toDigits number ends,
    takeFraction_of_endsNumber ends, takeExponent_of_endsNumber ends, bind, Except.bind]
  rfl

theorem gatherDigits_eq {start : Nat} (fits : Nat.ofDigitChars 10 digits start ≤ largestNatural) :
    gatherDigits start digits = (Nat.ofDigitChars 10 digits start, []) := by
  induction digits generalizing start with
  | nil => rfl
  | cons digit digits ih =>
      have longer : Nat.ofDigitChars 10 (digit :: digits) start =
          Nat.ofDigitChars 10 digits (Nat.ofDigitChars 10 [digit] start) := by
        rw [← Nat.ofDigitChars_append, List.singleton_append]
      rw [longer] at fits ⊢
      simp only [gatherDigits]
      rw [if_pos (Nat.le_trans (le_ofDigitChars digits _) fits), ih fits]

theorem roundTo53_le (pos : 0 < number) : roundTo53 number ≤ 2 * number := by
  have unit_le : 1 <<< (number.log2 + 1 - 53) ≤ number := by
    rw [Nat.one_shiftLeft]
    calc 2 ^ (number.log2 + 1 - 53) ≤ 2 ^ number.log2 := Nat.pow_le_pow_right (by decide) (by omega)
      _ ≤ number := Nat.log2_self_le (by omega)
  simp only [roundTo53]
  generalize 1 <<< (number.log2 + 1 - 53) = unit at unit_le
  have below := Nat.div_mul_le_self number unit
  split
  · omega
  · rw [Nat.add_mul, Nat.one_mul]
    omega

theorem inRange_integral (negative : Bool) (fits : number ≤ largestNatural) :
    (integral negative number).InRange := by
  have gathered : gatherDigits 0 (Nat.toDigits 10 number) = (number, []) := by
    rw [gatherDigits_eq] <;> rw [Nat.ofDigitChars_ten_toDigits]
    exact fits
  have scaled : (integral negative number).scaled = (number, 0) := by
    simp only [Numeral.scaled, integral, gathered]
    rfl
  unfold Numeral.InRange
  simp only [scaled]
  rcases Nat.eq_zero_or_pos number with zero | pos
  · exact .inl zero
  · refine .inr (.inr ⟨by decide, ?_⟩)
    have rounded := roundTo53_le pos
    have one : roundTo53 (Nat.pow 10 (Int.toNat 0)) = 1 := by decide
    have far : 2 * largestNatural < tooLarge := by decide
    rw [one, Nat.mul_one]
    omega

theorem integer?_plain (fits : number ≤ largestInteger) :
    (integral false number).integer? = some (number : Int) := by
  have same : digitsValue (Nat.toDigits 10 number) = number := Nat.ofDigitChars_ten_toDigits
  simp [Numeral.integer?, integral, same, fits]

theorem integer?_minus (pos : 0 < number) (fits : number ≤ largestInteger + 1) :
    (integral true number).integer? = some (-(number : Int)) := by
  have same : digitsValue (Nat.toDigits 10 number) = number := Nat.ofDigitChars_ten_toDigits
  simp [Numeral.integer?, integral, same, pos, fits]

theorem readNumber_written (integer64 : IsInteger64 value) (ends : EndsNumber rest) :
    readNumber (value.repr.toList ++ rest) = .ok (some value, rest) := by
  have bounds : -(largestInteger + 1 : Int) ≤ value ∧ value ≤ largestInteger := integer64
  have larger : largestInteger + 1 ≤ largestNatural := by decide
  cases value with
  | ofNat number =>
      have fits : number ≤ largestInteger := Int.ofNat_le.mp bounds.2
      have inRange := inRange_integral false (show number ≤ largestNatural by omega)
      rw [Int.repr, Nat.toList_repr]
      simp only [readNumber, takeNumeral_plain number ends, bind, Except.bind, integer?_plain fits]
      rw [if_pos inRange]
      rfl
  | negSucc number =>
      have fits : number + 1 ≤ largestInteger + 1 := by omega
      have inRange := inRange_integral true (show number + 1 ≤ largestNatural by omega)
      rw [Int.repr, String.toList_append, Nat.toList_repr]
      show readNumber ('-' :: (Nat.toDigits 10 (number + 1) ++ rest)) = _
      simp only [readNumber, takeNumeral_minus (number + 1) ends, bind, Except.bind,
        integer?_minus (Nat.succ_pos number) fits]
      rw [if_pos inRange]
      rfl

end Agenda.Json
