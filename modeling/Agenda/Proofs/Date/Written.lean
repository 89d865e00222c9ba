import Agenda.Date.Written
import Agenda.Proofs.Text.Number

/-! Eight digits are one number, which grows with the date, so written dates are in the order of the
calendar. A search also takes day, month and year with dots between them, in a looser form than
`HasDateShape` has. -/

namespace Agenda.Date

open Text

variable {date other : Date} {text : String}

theorem toList_written (writable : date.Writable) :
    date.written.toList = padded 4 date.year.toNat ++ (padded 2 date.month ++ padded 2 date.day) := by
  have inYears : 0 ≤ date.year ∧ date.year ≤ 9999 := writable
  rw [written, writtenYear, String.toList_ofList, if_pos inYears, List.append_assoc]

theorem length_fields (writable : date.Writable) :
    (padded 4 date.year.toNat).length = 4 ∧ (padded 2 date.month).length = 2 ∧
      (padded 2 date.day).length = 2 := by
  obtain ⟨lower, upper⟩ := writable
  have month := date.month_le
  have day := Nat.le_trans date.day_le (monthLength_le date.year date.month)
  exact ⟨length_padded (by decide) (by omega), length_padded (by decide) (by omega),
    length_padded (by decide) (by omega)⟩

theorem length_written (writable : date.Writable) : date.written.toList.length = 8 := by
  obtain ⟨year, month, day⟩ := length_fields writable
  rw [toList_written writable, List.length_append, List.length_append, year, month, day]

theorem isDigit_written (writable : date.Writable) {char : Char}
    (member : char ∈ date.written.toList) : char.isDigit = true := by
  rw [toList_written writable] at member
  rcases List.mem_append.mp member with year | rest
  · exact isDigit_padded year
  · rcases List.mem_append.mp rest with month | day
    · exact isDigit_padded month
    · exact isDigit_padded day

theorem ofWritten?_written (writable : date.Writable) : ofWritten? date.written = some date := by
  have shape : date.written.toList.length = 8 ∧ date.written.toList.all Char.isDigit :=
    ⟨length_written writable, List.all_eq_true.mpr fun _ member => isDigit_written writable member⟩
  obtain ⟨year, month, day⟩ := length_fields writable
  rw [ofWritten?, ofDigits?, if_pos shape, toList_written writable, List.take_left' year,
    List.drop_left' year, List.take_left' month, ← List.append_assoc,
    List.drop_left' (by simp [year, month])]
  rw [digitsValue_padded, digitsValue_padded, digitsValue_padded, ofFields?_eq_some_iff]
  exact ⟨(Int.toNat_of_nonneg writable.1).symm, rfl, rfl⟩

theorem writable_of_ofWritten? (read : ofWritten? text = some date) : date.Writable := by
  simp only [ofWritten?, ofDigits?] at read
  split at read
  · rename_i shape
    obtain ⟨year, -, -⟩ := ofFields?_eq_some_iff.mp read
    have digits : ∀ char ∈ text.toList.take 4, char.isDigit = true := fun char member =>
      List.all_eq_true.mp shape.2 char (List.mem_of_mem_take member)
    -- Four digits have room for the years up to 9999.
    have bound := digitsValue_lt digits
    rw [List.length_take_of_le (by omega)] at bound
    simp only [Writable]
    omega
  · cases read

/-- The number whose digits are the written date. -/
def writtenNumber (date : Date) : Nat := date.year.toNat * 10000 + (date.month * 100 + date.day)

theorem digitsValue_written (writable : date.Writable) :
    digitsValue date.written.toList = date.writtenNumber := by
  obtain ⟨-, month, day⟩ := length_fields writable
  rw [toList_written writable, digitsValue_append, digitsValue_append, List.length_append, month, day,
    digitsValue_padded, digitsValue_padded, digitsValue_padded]
  rfl

theorem lt_iff_writtenNumber_lt (writable : date.Writable) (otherWritable : other.Writable) :
    date < other ↔ date.writtenNumber < other.writtenNumber := by
  have day := Nat.le_trans date.day_le (monthLength_le date.year date.month)
  have otherDay := Nat.le_trans other.day_le (monthLength_le other.year other.month)
  have month := date.month_le
  have otherMonth := other.month_le
  simp only [Writable] at writable otherWritable
  simp only [lt_iff, writtenNumber]
  omega

theorem written_lt_written_iff (writable : date.Writable) (otherWritable : other.Writable) :
    date.written < other.written ↔ date < other := by
  rw [String.lt_iff_toList_lt, lt_iff_digitsValue_lt (fun _ => isDigit_written writable)
    (fun _ => isDigit_written otherWritable)
    ((length_written writable).trans (length_written otherWritable).symm),
    digitsValue_written writable, digitsValue_written otherWritable,
    lt_iff_writtenNumber_lt writable otherWritable]

theorem digits_of_ofDigits? {digits : List Char} (read : ofDigits? digits = some date) :
    digits.length = 8 ∧ (∀ char ∈ digits, char.isDigit = true) ∧
      digitsValue digits = date.writtenNumber := by
  rw [ofDigits?] at read
  split at read
  · rename_i shape
    obtain ⟨length, all⟩ := shape
    obtain ⟨year, month, day⟩ := ofFields?_eq_some_iff.mp read
    refine ⟨length, List.all_eq_true.mp all, ?_⟩
    rw [← List.take_append_drop 4 digits, ← List.take_append_drop 2 (digits.drop 4), List.drop_drop,
      digitsValue_append, digitsValue_append, ← month, ← day]
    simp only [List.length_append, List.length_take, List.length_drop, length, writtenNumber, year,
      Int.toNat_natCast]
    rfl
  · cases read

/-- The texts that are read as dates are the written forms of dates. -/
theorem ofWritten?_eq_some_iff :
    ofWritten? text = some date ↔ date.Writable ∧ text = date.written := by
  constructor
  · intro read
    have writable := writable_of_ofWritten? read
    obtain ⟨length, digits, value⟩ := digits_of_ofDigits? read
    refine ⟨writable, String.toList_inj.mp ?_⟩
    apply eq_of_digitsValue_eq digits (fun _ => isDigit_written writable)
    · rw [length, length_written writable]
    · rw [value, digitsValue_written writable]
  · rintro ⟨writable, rfl⟩
    exact ofWritten?_written writable

theorem ofWritten?_written_of_not_writable (unwritable : ¬ date.Writable) :
    ofWritten? date.written = none := by
  refine Option.eq_none_iff_forall_ne_some.mpr fun other read => ?_
  obtain ⟨-, digits, -⟩ := digits_of_ofDigits? read
  have outside : ¬ (0 ≤ date.year ∧ date.year ≤ 9999) := unwritable
  have signed := digits (if date.year < 0 then '-' else '+') (by
    rw [written, String.toList_ofList, writtenYear, if_neg outside]
    simp)
  split at signed <;> cases signed

def HasDigits (count : Nat) (chars : List Char) : Prop :=
  chars.length = count ∧ ∀ char ∈ chars, char.isDigit = true

/-- The two spellings of a date, whether or not there is such a day: eight digits, or two, two and four
digits with dots between them. -/
inductive HasDateShape : List Char → Prop where
  | written {digits : List Char} : HasDigits 8 digits → HasDateShape digits
  | dotted {day month year : List Char} : HasDigits 2 day → HasDigits 2 month → HasDigits 4 year →
      HasDateShape (day ++ '.' :: (month ++ '.' :: year))

/-- Blanks, and then the number in one to `most` digits. -/
inductive WritesNumber (most : Nat) : List Char → Nat → Prop where
  | mk {blanks digits : List Char} : AllBlank blanks → IsDigits digits → digits.length ≤ most →
      WritesNumber most (blanks ++ digits) (digitsValue digits)

/-- Blanks, and then the year in up to four digits, or with a sign and any number of digits. -/
inductive WritesYear : List Char → Int → Prop where
  | plain {chars : List Char} {number : Nat} : WritesNumber 4 chars number → WritesYear chars number
  | plus {blanks digits : List Char} : AllBlank blanks → IsDigits digits →
      WritesYear (blanks ++ '+' :: digits) (digitsValue digits)
  | minus {blanks digits : List Char} : AllBlank blanks → IsDigits digits →
      WritesYear (blanks ++ '-' :: digits) (-(digitsValue digits))

/-- The text gives day, month and year of the date, with a dot right after each of the first two. -/
inductive NamesLoosely (date : Date) : List Char → Prop where
  | mk {day month year : List Char} : WritesNumber 2 day date.day → WritesNumber 2 month date.month →
      WritesYear year date.year → SearchableYear date.year →
      NamesLoosely date (day ++ '.' :: (month ++ '.' :: year))

theorem HasDateShape.length_eq {chars : List Char} (shape : HasDateShape chars) :
    chars.length = 8 ∨ chars.length = 10 := by
  cases shape with
  | written digits => exact .inl digits.1
  | dotted day month year => simp [day.1, month.1, year.1]

variable {chars lead rest digits : List Char} {most number : Nat} {year : Int}

theorem writesNumber_digits (isDigits : IsDigits digits) (few : digits.length ≤ most) :
    WritesNumber most digits (digitsValue digits) :=
  @WritesNumber.mk most [] digits (by simp [AllBlank]) isDigits few

theorem trimStart_blanks_append (blank : AllBlank lead) : trimStart (lead ++ rest) = trimStart rest :=
  List.dropWhile_append_of_pos blank

theorem blanks_append_trimStart (chars : List Char) :
    ∃ blanks, AllBlank blanks ∧ blanks ++ trimStart chars = chars :=
  ⟨chars.takeWhile isBlank, fun _ => List.mem_takeWhile_imp, List.takeWhile_append_dropWhile⟩

theorem takeWhile_take_digits_append (isDigits : IsDigits digits) (few : digits.length ≤ most)
    (ends : ∀ char ∈ rest.head?, char.isDigit = false) :
    ((digits ++ rest).take most).takeWhile Char.isDigit = digits := by
  have stops : (rest.take (most - digits.length)).takeWhile Char.isDigit = [] := by
    cases rest with
    | nil => simp
    | cons char rest =>
        cases most - digits.length with
        | zero => rfl
        | succ count => simp [ends char rfl]
  rw [List.take_append, List.take_of_length_le few, List.takeWhile_append_of_pos isDigits.2, stops,
    List.append_nil]

theorem writesNumber_of_takeNumber? (taken : takeNumber? most chars = some (number, rest)) :
    ∃ lead, chars = lead ++ rest ∧ WritesNumber most lead number := by
  obtain ⟨blanks, blank, same⟩ := blanks_append_trimStart chars
  simp only [takeNumber?] at taken
  split at taken
  · cases taken
  · rename_i nonempty
    cases taken
    have prefixed : ((trimStart chars).take most).takeWhile Char.isDigit <+: trimStart chars :=
      (List.takeWhile_prefix _).trans (List.take_prefix _ _)
    have isDigits : IsDigits (((trimStart chars).take most).takeWhile Char.isDigit) :=
      ⟨nonempty, fun _ => List.mem_takeWhile_imp⟩
    have few : (((trimStart chars).take most).takeWhile Char.isDigit).length ≤ most :=
      Nat.le_trans (List.takeWhile_prefix _).length_le (List.length_take_le _ _)
    refine ⟨blanks ++ ((trimStart chars).take most).takeWhile Char.isDigit, ?_, .mk blank isDigits few⟩
    rw [List.append_assoc, List.prefix_iff_eq_append.mp prefixed, same]

theorem WritesNumber.takeNumber?_append (written : WritesNumber most lead number)
    (ends : ∀ char ∈ rest.head?, char.isDigit = false) :
    takeNumber? most (lead ++ rest) = some (number, rest) := by
  obtain ⟨blank, isDigits, few⟩ := written
  rename_i blanks digits
  have started : trimStart (blanks ++ digits ++ rest) = digits ++ rest := by
    rw [List.append_assoc, trimStart_blanks_append blank, trimStart_word_append isDigits.isWord]
  simp only [takeNumber?, started, takeWhile_take_digits_append isDigits few ends, if_neg isDigits.1,
    List.drop_left]

theorem takeNumber?_trimStart (most : Nat) (chars : List Char) :
    takeNumber? most (trimStart chars) = takeNumber? most chars := by
  have started : trimStart (trimStart chars) = trimStart chars :=
    List.dropWhile_idempotent isBlank chars
  rw [takeNumber?, started, takeNumber?]

theorem takeSigned_eq_some_iff (signed : Nat → Int) :
    (if chars.takeWhile Char.isDigit = [] then none
      else some (signed (digitsValue (chars.takeWhile Char.isDigit)),
        chars.drop (chars.takeWhile Char.isDigit).length)) = some (year, []) ↔
      IsDigits chars ∧ signed (digitsValue chars) = year := by
  constructor
  · intro taken
    split at taken
    · cases taken
    · rename_i nonempty
      obtain ⟨value, ended⟩ := Prod.mk.inj (Option.some.inj taken)
      have whole := List.prefix_iff_eq_append.mp (List.takeWhile_prefix (l := chars) Char.isDigit)
      rw [ended, List.append_nil] at whole
      rw [whole] at nonempty value
      exact ⟨⟨nonempty, List.takeWhile_eq_self_iff.mp whole⟩, value⟩
  · rintro ⟨isDigits, rfl⟩
    rw [List.takeWhile_eq_self_iff.mpr isDigits.2, if_neg isDigits.1, List.drop_length]

theorem writesYear_of_takeYear? (taken : takeYear? chars = some (year, [])) : WritesYear chars year := by
  obtain ⟨blanks, blank, same⟩ := blanks_append_trimStart chars
  unfold takeYear? at taken
  split at taken
  · rename_i signed found
    obtain ⟨isDigits, rfl⟩ := (takeSigned_eq_some_iff fun value => -(value : Int)).mp taken
    rw [← same, found]
    exact .minus blank isDigits
  · rename_i signed found
    obtain ⟨isDigits, rfl⟩ := (takeSigned_eq_some_iff fun value => (value : Int)).mp taken
    rw [← same, found]
    exact .plus blank isDigits
  · obtain ⟨⟨number, rest⟩, numbered, found⟩ := Option.bind_eq_some_iff.mp taken
    cases found
    rw [takeNumber?_trimStart] at numbered
    obtain ⟨lead, whole, written⟩ := writesNumber_of_takeNumber? numbered
    rw [List.append_nil] at whole
    exact .plain (whole ▸ written)

theorem takeYear?_blanks_append (blank : AllBlank lead) : takeYear? (lead ++ rest) = takeYear? rest := by
  rw [takeYear?, trimStart_blanks_append blank, takeYear?]

theorem takeYear?_digits (isDigits : IsDigits digits) :
    takeYear? digits = (do let (year, rest) ← takeNumber? 4 digits; return ((year : Int), rest)) := by
  have started : trimStart digits = digits := by
    rw [← List.append_nil digits, trimStart_word_append isDigits.isWord]
  unfold takeYear?
  rw [started]
  split
  · exact absurd rfl isDigits.head_ne_sign.2
  · exact absurd rfl isDigits.head_ne_sign.1
  · rfl

theorem WritesYear.takeYear?_eq (written : WritesYear chars year) : takeYear? chars = some (year, []) := by
  cases written with
  | plain written =>
      obtain ⟨blank, isDigits, few⟩ := written
      rename_i blanks digits
      have taken : takeNumber? 4 (digits ++ []) = some (digitsValue digits, []) :=
        (writesNumber_digits isDigits few).takeNumber?_append (by simp)
      rw [List.append_nil] at taken
      rw [takeYear?_blanks_append blank, takeYear?_digits isDigits, taken]
      rfl
  | plus blank isDigits =>
      rw [takeYear?_blanks_append blank]
      exact (takeSigned_eq_some_iff fun value => (value : Int)).mpr ⟨isDigits, rfl⟩
  | minus blank isDigits =>
      rw [takeYear?_blanks_append blank]
      exact (takeSigned_eq_some_iff fun value => -(value : Int)).mpr ⟨isDigits, rfl⟩

theorem ofDotted?_eq_some_iff : ofDotted? chars = some date ↔ date.NamesLoosely chars := by
  constructor
  · intro read
    unfold ofDotted? at read
    obtain ⟨⟨day, afterDay⟩, dayTaken, read⟩ := Option.bind_eq_some_iff.mp read
    split at read
    · rename_i afterDay same
      obtain ⟨rfl, rfl⟩ := Prod.mk.inj same
      obtain ⟨⟨month, afterMonth⟩, monthTaken, read⟩ := Option.bind_eq_some_iff.mp read
      split at read
      · rename_i afterMonth same
        obtain ⟨rfl, rfl⟩ := Prod.mk.inj same
        obtain ⟨⟨year, afterYear⟩, yearTaken, read⟩ := Option.bind_eq_some_iff.mp read
        split at read
        · rename_i same
          obtain ⟨rfl, rfl⟩ := Prod.mk.inj same
          split at read
          · rename_i searchable
            obtain ⟨rfl, rfl, rfl⟩ := ofFields?_eq_some_iff.mp read
            obtain ⟨dayText, rfl, dayWritten⟩ := writesNumber_of_takeNumber? dayTaken
            obtain ⟨monthText, rfl, monthWritten⟩ := writesNumber_of_takeNumber? monthTaken
            exact .mk dayWritten monthWritten (writesYear_of_takeYear? yearTaken) searchable
          · cases read
        · cases read
      · cases read
    · cases read
  · rintro ⟨day, month, year, searchable⟩
    have dot {rest : List Char} : ∀ char ∈ ('.' :: rest).head?, char.isDigit = false := by simp
    simp only [ofDotted?, day.takeNumber?_append dot, month.takeNumber?_append dot, year.takeYear?_eq,
      Option.bind_eq_bind, Option.bind_some, if_pos searchable]
    exact ofFields?_eq_some_iff.mpr ⟨rfl, rfl, rfl⟩

theorem ofDigits?_eq_none (dot : '.' ∈ chars) : ofDigits? chars = none :=
  if_neg fun shape => absurd (List.all_eq_true.mp shape.2 '.' dot) (by decide)

/-- The dates that a search takes from a text. -/
theorem ofSearch?_eq_some_iff {text : String} :
    ofSearch? text = some date ↔
      ofDigits? (trim text.toList) = some date ∨ date.NamesLoosely (trim text.toList) := by
  rw [ofSearch?, Option.or_eq_some_iff, ofDotted?_eq_some_iff]
  refine or_congr_right (and_iff_right_of_imp fun names => ?_)
  generalize trim text.toList = chars at names
  cases names
  exact ofDigits?_eq_none (by simp)

/-- Day, month and year with dots between them. The day and the month have two digits and the year has
four. -/
def dotted (date : Date) : List Char :=
  padded 2 date.day ++ '.' :: (padded 2 date.month ++ '.' :: padded 4 date.year.toNat)

/-- The texts that spell the date, with or without blanks around. -/
inductive Spells (date : Date) (text : String) : Prop where
  | written {lead trail : List Char} : AllBlank lead → AllBlank trail →
      text.toList = lead ++ date.written.toList ++ trail → Spells date text
  | dotted {lead trail : List Char} : AllBlank lead → AllBlank trail →
      text.toList = lead ++ date.dotted ++ trail → Spells date text

theorem writesNumber_padded {width number : Nat} (pos : 0 < width) (fits : number < 10 ^ width) :
    WritesNumber width (padded width number) number := by
  have written := writesNumber_digits (isDigits_padded pos fits) (length_padded pos fits).le
  rw [digitsValue_padded] at written
  exact written

theorem namesLoosely_dotted (writable : date.Writable) : date.NamesLoosely date.dotted := by
  have month := date.month_le
  have day := Nat.le_trans date.day_le (monthLength_le date.year date.month)
  have inYears : 0 ≤ date.year ∧ date.year ≤ 9999 := writable
  have year : WritesYear (padded 4 date.year.toNat) date.year := by
    have plain : WritesYear (padded 4 date.year.toNat) (date.year.toNat : Int) :=
      .plain (writesNumber_padded (by decide) (by omega))
    rw [Int.toNat_of_nonneg inYears.1] at plain
    exact plain
  have searchable : SearchableYear date.year := by
    unfold SearchableYear
    omega
  exact .mk (writesNumber_padded (by decide) (by omega)) (writesNumber_padded (by decide) (by omega)) year
    searchable

theorem isWord_written (writable : date.Writable) : IsWord date.written.toList := by
  have isDigits : IsDigits date.written.toList := by
    refine ⟨List.ne_nil_of_length_pos ?_, fun _ => isDigit_written writable⟩
    rw [length_written writable]
    decide
  exact isDigits.isWord

theorem isWord_dotted (date : Date) : IsWord date.dotted := by
  refine ⟨by simp [dotted], fun char member => ?_⟩
  simp only [dotted, List.mem_append, List.mem_cons] at member
  rcases member with digit | rfl | digit | rfl | digit
  · exact isBlank_eq_false_of_isDigit (isDigit_padded digit)
  · decide
  · exact isBlank_eq_false_of_isDigit (isDigit_padded digit)
  · decide
  · exact isBlank_eq_false_of_isDigit (isDigit_padded digit)

/-- A text that spells a writable date is a word with blanks around it, and the word is read as the date. -/
theorem Spells.exists_word (spells : date.Spells text) (writable : date.Writable) :
    ∃ word, IsWord word ∧ trim text.toList = word ∧ (ofDigits? word).or (ofDotted? word) = some date := by
  cases spells with
  | written leadBlank trailBlank same =>
      have isWord := isWord_written writable
      have read : ofDigits? date.written.toList = some date := ofWritten?_written writable
      refine ⟨_, isWord, ?_, by rw [read]; rfl⟩
      rw [same, trim_blanks_around leadBlank isWord trailBlank]
  | dotted leadBlank trailBlank same =>
      have isWord := isWord_dotted date
      have dot : '.' ∈ date.dotted := by simp [Date.dotted]
      have read : ofDotted? date.dotted = some date := ofDotted?_eq_some_iff.mpr (namesLoosely_dotted writable)
      refine ⟨_, isWord, ?_, by rw [ofDigits?_eq_none dot, read]; rfl⟩
      rw [same, trim_blanks_around leadBlank isWord trailBlank]

variable {char : Char}

/-- The characters that a text may have which names a date. -/
def IsDateChar (char : Char) : Prop :=
  isBlank char = true ∨ char.isDigit = true ∨ char = '.' ∨ char = '+' ∨ char = '-'

theorem isDateChar_of_writesNumber {most number : Nat} (written : WritesNumber most chars number)
    (member : char ∈ chars) : IsDateChar char := by
  obtain ⟨blank, isDigits, -⟩ := written
  rcases List.mem_append.mp member with lead | digit
  · exact .inl (blank char lead)
  · exact .inr (.inl (isDigits.2 char digit))

theorem isDateChar_of_writesYear {year : Int} (written : WritesYear chars year) (member : char ∈ chars) :
    IsDateChar char := by
  cases written with
  | plain written => exact isDateChar_of_writesNumber written member
  | plus blank isDigits =>
      rcases List.mem_append.mp member with lead | later
      · exact .inl (blank char lead)
      · rcases List.mem_cons.mp later with rfl | digit
        · simp [IsDateChar]
        · exact .inr (.inl (isDigits.2 char digit))
  | minus blank isDigits =>
      rcases List.mem_append.mp member with lead | later
      · exact .inl (blank char lead)
      · rcases List.mem_cons.mp later with rfl | digit
        · simp [IsDateChar]
        · exact .inr (.inl (isDigits.2 char digit))

theorem isDateChar_of_namesLoosely (names : date.NamesLoosely chars) (member : char ∈ chars) :
    IsDateChar char := by
  obtain ⟨day, month, year, -⟩ := names
  simp only [List.mem_append, List.mem_cons] at member
  rcases member with inDay | rfl | inMonth | rfl | inYear
  · exact isDateChar_of_writesNumber day inDay
  · simp [IsDateChar]
  · exact isDateChar_of_writesNumber month inMonth
  · simp [IsDateChar]
  · exact isDateChar_of_writesYear year inYear

theorem isDateChar_of_ofDigits? (read : ofDigits? chars = some date) (member : char ∈ chars) :
    IsDateChar char := by
  unfold ofDigits? at read
  split at read
  · rename_i shape
    exact .inr (.inl (List.all_eq_true.mp shape.2 char member))
  · cases read

theorem isDateChar_of_ofSearch? {text : String} (read : ofSearch? text = some date)
    (member : char ∈ trim text.toList) : IsDateChar char := by
  rcases ofSearch?_eq_some_iff.mp read with digits | names
  · exact isDateChar_of_ofDigits? digits member
  · exact isDateChar_of_namesLoosely names member

end Agenda.Date
