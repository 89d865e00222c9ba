import Agenda.Text
import Mathlib.Data.List.Basic
import Mathlib.Data.List.DropRight
import Mathlib.Data.String.Basic

/-! Texts split at a separator, the order of their bytes, and their words. -/

namespace Agenda.Text

variable {separator : Char} {before after beforeElse afterElse : List Char}

theorem eq_of_append_separator_eq (absent : separator ∉ before) (absentElse : separator ∉ beforeElse)
    (same : before ++ separator :: after = beforeElse ++ separator :: afterElse) :
    before = beforeElse ∧ after = afterElse := by
  induction before generalizing beforeElse with
  | nil =>
      cases beforeElse with
      | nil => exact ⟨rfl, (List.cons.inj same).2⟩
      | cons char more =>
          obtain ⟨rfl, -⟩ := List.cons.inj same
          exact absurd List.mem_cons_self absentElse
  | cons char before ih =>
      cases beforeElse with
      | nil =>
          obtain ⟨rfl, -⟩ := List.cons.inj same
          exact absurd List.mem_cons_self absent
      | cons other more =>
          obtain ⟨rfl, rest⟩ := List.cons.inj same
          obtain ⟨rfl, rfl⟩ := ih (List.not_mem_of_not_mem_cons absent)
            (List.not_mem_of_not_mem_cons absentElse) rest
          exact ⟨rfl, rfl⟩

theorem splitOn_flatMap_append {pieces : List (List Char)} (absent : ∀ piece ∈ pieces, separator ∉ piece) :
    (pieces.flatMap (· ++ [separator])).splitOn separator = pieces ++ [[]] := by
  induction pieces with
  | nil => rfl
  | cons piece pieces ih =>
      obtain ⟨absentFirst, absentRest⟩ := List.forall_mem_cons.mp absent
      have others : ∀ char ∈ piece, (char == separator) = false := by
        intro char member
        rw [beq_eq_false_iff_ne]
        rintro rfl
        exact absentFirst member
      rw [List.flatMap_cons, List.append_assoc, List.singleton_append, List.splitOn_eq_splitOnP,
        List.splitOnP_append_cons_of_forall_mem others separator (beq_self_eq_true separator),
        ← List.splitOn_eq_splitOnP, ih absentRest]
      rfl

def bytes (text : String) : List UInt8 := text.toByteArray.data.toList

theorem bytes_eq (text : String) : bytes text = text.toList.flatMap String.utf8EncodeChar := by
  rw [bytes, ← String.utf8Encode_toList, List.utf8Encode, List.toList_data_toByteArray]

theorem ofNat_lt_ofNat_iff {m n : Nat} : UInt8.ofNat m < UInt8.ofNat n ↔ m % 256 < n % 256 := by
  rw [UInt8.lt_iff_toNat_lt, UInt8.toNat_ofNat', UInt8.toNat_ofNat']

theorem ofNat_eq_ofNat_iff {m n : Nat} : UInt8.ofNat m = UInt8.ofNat n ↔ m % 256 = n % 256 := by
  rw [← UInt8.toNat_inj, UInt8.toNat_ofNat', UInt8.toNat_ofNat']

variable {char other : Char} {first second : List Char} {left right : String}

/-- The bytes of a smaller character are smaller, whatever follows. A character with fewer bytes has a
smaller first byte. -/
theorem utf8EncodeChar_append_lt (less : char < other) (after otherAfter : List UInt8) :
    String.utf8EncodeChar char ++ after < String.utf8EncodeChar other ++ otherAfter := by
  have less : char.val.toNat < other.val.toNat := less
  have bound : other.val.toNat < 1114112 := by
    have valid := other.valid
    simp only [UInt32.isValidChar, Nat.isValidChar] at valid
    omega
  simp only [String.utf8EncodeChar]
  -- A case for each number of bytes that the one and the other may have.
  repeat' split
  all_goals
    simp (disch := omega) only [List.cons_append, List.cons_lt_cons_iff, ofNat_lt_ofNat_iff,
      ofNat_eq_ofNat_iff, Nat.mod_eq_of_lt]
    omega

theorem append_lt_append_left_iff (shared : List UInt8) {after otherAfter : List UInt8} :
    shared ++ after < shared ++ otherAfter ↔ after < otherAfter := by
  induction shared with
  | nil => rfl
  | cons byte rest ih => simp [ih]

theorem flatMap_utf8EncodeChar_lt (less : first < second) :
    first.flatMap String.utf8EncodeChar < second.flatMap String.utf8EncodeChar := by
  induction first generalizing second with
  | nil =>
      cases second with
      | nil => exact absurd less (List.not_lt_nil _)
      | cons other rest =>
          rw [List.flatMap_cons]
          cases encoded : String.utf8EncodeChar other with
          | nil => exact absurd encoded String.utf8EncodeChar_ne_nil
          | cons byte bytes => exact List.nil_lt_cons _ _
  | cons char first ih =>
      cases second with
      | nil => exact absurd less (List.not_lt_nil _)
      | cons other rest =>
          rw [List.flatMap_cons, List.flatMap_cons]
          rcases List.cons_lt_cons_iff.mp less with smaller | ⟨rfl, later⟩
          · exact utf8EncodeChar_append_lt smaller _ _
          · exact (append_lt_append_left_iff _).mpr (ih later)

theorem bytes_lt_bytes_iff : bytes left < bytes right ↔ left < right := by
  have grows {left right : String} (less : left < right) : bytes left < bytes right := by
    rw [bytes_eq, bytes_eq]
    exact flatMap_utf8EncodeChar_lt (String.lt_iff_toList_lt.mp less)
  refine ⟨fun less => ?_, grows⟩
  rcases lt_trichotomy left right with smaller | rfl | larger
  · exact smaller
  · exact absurd less (List.lt_irrefl _)
  · exact absurd (grows larger) (List.lt_asymm less)

def AllBlank (chars : List Char) : Prop := ∀ char ∈ chars, isBlank char = true

instance (chars : List Char) : Decidable (AllBlank chars) :=
  List.decidableBAll (fun char => isBlank char = true) chars

/-- A stretch of characters that are no blanks, one at least. -/
def IsWord (chars : List Char) : Prop := chars ≠ [] ∧ ∀ char ∈ chars, isBlank char = false

/-- A word ends before the text: the text is at its end, or goes on with a blank. -/
def EndsWord (chars : List Char) : Prop := ∀ char ∈ chars.head?, isBlank char = true

/-- The longest stretches of the text without a blank, in order. -/
inductive HasWords : List Char → List (List Char) → Prop where
  | none {blanks : List Char} : AllBlank blanks → HasWords blanks []
  | word {lead word rest : List Char} {words : List (List Char)} :
      AllBlank lead → IsWord word → EndsWord rest → HasWords rest words →
        HasWords (lead ++ word ++ rest) (word :: words)

variable {chars lead word rest : List Char} {list : List (List Char)}

theorem isWord_singleton (shown : isBlank char = false) : IsWord [char] := ⟨by simp, by simpa using shown⟩

theorem words_blank_cons (blank : isBlank char = true) : words (char :: rest) = words rest := by
  simp [words, List.splitOnP_cons_eq_if_modifyHead, blank]

theorem words_blanks_append (blanks : AllBlank lead) : words (lead ++ rest) = words rest := by
  induction lead with
  | nil => rfl
  | cons char lead ih =>
      rw [List.cons_append, words_blank_cons (blanks char (by simp))]
      exact ih fun char member => blanks char (by simp [member])

theorem words_word_append (isWord : IsWord word) (ends : EndsWord rest) :
    words (word ++ rest) = word :: words rest := by
  cases rest with
  | nil => simp [words, List.splitOnP_eq_singleton isWord.2, isWord.1]
  | cons blank rest =>
      have isBlank : isBlank blank = true := ends blank (by simp)
      rw [words_blank_cons isBlank]
      simp [words, List.splitOnP_append_cons_of_forall_mem isWord.2 blank isBlank, isWord.1]

theorem HasWords.words_eq (taken : HasWords chars list) : words chars = list := by
  induction taken with
  | @none lead blanks =>
      have empty : words (lead ++ []) = words [] := words_blanks_append blanks
      rw [List.append_nil] at empty
      exact empty
  | word blanks isWord ends _ ih =>
      rw [List.append_assoc, words_blanks_append blanks, words_word_append isWord ends, ih]

theorem HasWords.blank_cons (blank : isBlank char = true) (taken : HasWords rest list) :
    HasWords (char :: rest) list := by
  cases taken with
  | none blanks => exact .none (List.forall_mem_cons.mpr ⟨blank, blanks⟩)
  | @word lead word more list blanks isWord ends following =>
      have longer : AllBlank (char :: lead) := List.forall_mem_cons.mpr ⟨blank, blanks⟩
      exact @HasWords.word (char :: lead) word more list longer isWord ends following

/-- A character that is no blank starts a word of its own where a word ends, and goes before the first
word of the text otherwise. -/
theorem HasWords.exists_cons (shown : isBlank char = false) (taken : HasWords rest list) :
    ∃ list, HasWords (char :: rest) list := by
  by_cases ends : EndsWord rest
  · have isWord : IsWord [char] := isWord_singleton shown
    exact ⟨[char] :: list, @HasWords.word [] [char] rest list (by simp [AllBlank]) isWord ends taken⟩
  · cases taken with
    | none blanks =>
        refine absurd (fun first member => ?_) ends
        exact blanks first (List.mem_of_mem_head? member)
    | @word lead word more list blanks isWord moreEnds following =>
        cases lead with
        | cons blank lead =>
            refine absurd (fun first member => ?_) ends
            cases member
            exact blanks blank (by simp)
        | nil =>
            have longer : IsWord (char :: word) :=
              ⟨by simp, List.forall_mem_cons.mpr ⟨shown, isWord.2⟩⟩
            exact ⟨(char :: word) :: list,
              @HasWords.word [] (char :: word) more list (by simp [AllBlank]) longer moreEnds following⟩

theorem exists_hasWords (chars : List Char) : ∃ list, HasWords chars list := by
  induction chars with
  | nil => exact ⟨[], .none (by simp [AllBlank])⟩
  | cons char rest ih =>
      obtain ⟨list, taken⟩ := ih
      cases blank : isBlank char with
      | true => exact ⟨list, taken.blank_cons blank⟩
      | false => exact taken.exists_cons blank

theorem words_eq_iff : words chars = list ↔ HasWords chars list := by
  refine ⟨fun same => ?_, HasWords.words_eq⟩
  obtain ⟨taken, hasWords⟩ := exists_hasWords chars
  rw [← same, hasWords.words_eq]
  exact hasWords

theorem trimStart_trimEnd_of_trimStart (trimmed : trimStart chars = chars) :
    trimStart (trimEnd chars) = trimEnd chars := by
  cases ended : trimEnd chars with
  | nil => rfl
  | cons first more =>
      have starts : trimEnd chars <+: chars := List.rdropWhile_prefix isBlank chars
      rw [ended] at starts
      obtain ⟨after, same⟩ := starts
      have shown : isBlank first = false := by
        have first_shown := List.head?_dropWhile_not isBlank chars
        rw [show chars.dropWhile isBlank = chars from trimmed, ← same] at first_shown
        exact first_shown
      rw [trimStart, List.dropWhile_cons_of_neg (by simp [shown])]

theorem trim_trim (chars : List Char) : trim (trim chars) = trim chars := by
  have started : trimStart (trimStart chars) = trimStart chars :=
    List.dropWhile_idempotent isBlank chars
  simp only [trim]
  rw [trimStart_trimEnd_of_trimStart started]
  exact List.rdropWhile_idempotent isBlank _

theorem trimmed_trimmed (text : String) : trimmed (trimmed text) = trimmed text := by
  simp only [trimmed]
  rw [String.toList_ofList, trim_trim]

theorem exists_trimEnd_append (chars : List Char) :
    ∃ trail, AllBlank trail ∧ trimEnd chars ++ trail = chars := by
  refine ⟨(chars.reverse.takeWhile isBlank).reverse, fun char member => ?_, ?_⟩
  · exact List.mem_takeWhile_imp (List.mem_reverse.mp member)
  · rw [trimEnd, ← List.reverse_append, List.takeWhile_append_dropWhile, List.reverse_reverse]

theorem isBlank_of_getLast?_trimEnd {char : Char} (last : char ∈ (trimEnd chars).getLast?) :
    isBlank char = false := by
  obtain ⟨nonempty, rfl⟩ := List.mem_getLast?_eq_getLast last
  exact Bool.eq_false_iff.mpr (List.rdropWhile_last_not isBlank chars nonempty)

theorem isBlank_eq_false_of_isDigit {char : Char} (digit : char.isDigit = true) :
    isBlank char = false := by
  have bounds := Char.isDigit_iff_toNat.mp digit
  have zero : '0'.toNat = 48 := rfl
  have nine : '9'.toNat = 57 := rfl
  simp [isBlank]
  omega

theorem trimEnd_append_blanks {trail : List Char} (blank : AllBlank trail) :
    trimEnd (chars ++ trail) = trimEnd chars := by
  have reversed : ∀ char ∈ trail.reverse, isBlank char = true := by simpa [AllBlank] using blank
  rw [trimEnd, List.reverse_append, List.dropWhile_append_of_pos reversed]
  rfl

theorem trimEnd_of_ends (ends : ∀ char ∈ chars.getLast?, isBlank char = false) : trimEnd chars = chars := by
  apply List.rdropWhile_eq_self_iff.mpr
  intro nonempty
  simp [ends _ (List.getLast_mem_getLast? nonempty)]

theorem trimEnd_of_no_blank (shown : ∀ char ∈ chars, isBlank char = false) : trimEnd chars = chars :=
  trimEnd_of_ends fun char last => shown char (List.mem_of_getLast? last)

theorem isBlank_of_getLast?_trimmed {text : String} (trims : trimmed text = text)
    (last : char ∈ text.toList.getLast?) : isBlank char = false := by
  rw [← trims, trimmed, String.toList_ofList] at last
  exact isBlank_of_getLast?_trimEnd last

theorem trimEnd_append_trimmed {before : List Char} {text : String} (given : text ≠ "")
    (trims : trimmed text = text) : trimEnd (before ++ text.toList) = before ++ text.toList := by
  apply trimEnd_of_ends
  intro char last
  rw [List.getLast?_append_of_ne_nil _ (String.toList_eq_nil_iff.not.mpr given)] at last
  exact isBlank_of_getLast?_trimmed trims last

theorem trimmed_of_no_blank {text : String} (shown : ∀ char ∈ text.toList, isBlank char = false) :
    trimmed text = text := by
  have started : trimStart text.toList = text.toList := by
    cases chars : text.toList with
    | nil => rfl
    | cons first rest => exact List.dropWhile_cons_of_neg (by simp [shown first (by simp [chars])])
  rw [trimmed, trim, started, trimEnd_of_no_blank shown, String.ofList_toList]

theorem trimStart_word_append (isWord : IsWord word) : trimStart (word ++ rest) = word ++ rest := by
  cases word with
  | nil => exact absurd rfl isWord.1
  | cons first more => exact List.dropWhile_cons_of_neg (by simp [isWord.2 first])

theorem trim_blanks_around {trail : List Char} (leadBlank : AllBlank lead) (isWord : IsWord word)
    (trailBlank : AllBlank trail) : trim (lead ++ word ++ trail) = word := by
  have started : trimStart (lead ++ (word ++ trail)) = word ++ trail := by
    rw [trimStart, List.dropWhile_append_of_pos leadBlank]
    exact trimStart_word_append isWord
  rw [trim, List.append_assoc, started, trimEnd_append_blanks trailBlank, trimEnd_of_no_blank isWord.2]

theorem allBlank_of_isBlankText {text : String} (blank : IsBlankText text) :
    AllBlank text.toList := by
  have nothing : trim text.toList = [] := String.ofList_eq_empty_iff.mp blank
  have ended : ∀ char ∈ trimStart text.toList, isBlank char = true := by
    simpa [trim, trimEnd, List.dropWhile_eq_nil_iff] using nothing
  intro char member
  rw [← List.takeWhile_append_dropWhile (p := isBlank) (l := text.toList)] at member
  rcases List.mem_append.mp member with lead | rest
  · exact List.mem_takeWhile_imp lead
  · exact ended char rest

theorem isBlankText_of_words_eq_nil {text : String} (none : words text.toList = []) :
    IsBlankText text := by
  have blanks : AllBlank text.toList := by
    have taken := words_eq_iff.mp none
    generalize text.toList = chars at taken
    cases taken with
    | none blanks => exact blanks
  have started : trimStart text.toList = [] := List.dropWhile_eq_nil_iff.mpr blanks
  rw [IsBlankText, trimmed, trim, started]
  rfl

end Agenda.Text
