import Agenda.Proofs.Rule.Satisfiable

namespace Agenda.Rule

open Text

/-- The bounds and the order of the numbers of a rule. Where there is a list of months, some date falls on
the rule. -/
def Regular : Rule → Prop
  | .daily interval => 1 ≤ interval ∧ interval ≤ 400
  | .yearly => True
  | .weekly weekdays =>
      weekdays ≠ [] ∧ weekdays.Pairwise (· < ·) ∧ ∀ weekday ∈ weekdays, weekday ≤ 6
  | .monthly days months =>
      days ≠ [] ∧ days.Nodup ∧ (∀ day ∈ days, day = -2 ∨ day = -1 ∨ 1 ≤ day ∧ day ≤ 31) ∧
        ∀ listed, months = some listed →
          listed ≠ [] ∧ listed.Pairwise (· < ·) ∧ (∀ month ∈ listed, 1 ≤ month ∧ month ≤ 12) ∧
            ∃ date, FallsOn date (.monthly days months)

def weekdayNumber (weekday : Nat) : Int := if weekday = 0 then 7 else weekday

/-- The numbers that stand in the written form of a rule. -/
def spelling : Rule → Spelling
  | .daily interval => .daily interval
  | .yearly => .yearly
  | .weekly weekdays => .weekly (weekdays.map weekdayNumber)
  | .monthly days months => .monthly days (months.map (List.map Int.ofNat))

variable {rule : Rule} {item list rest word : List Char} {value : Int} {values days : List Int}
  {listed : List (List Char)}

theorem valid_iff_regular : rule.Valid ↔ rule.Regular := by
  cases rule with
  | daily interval => rfl
  | yearly => rfl
  | weekly weekdays => rfl
  | monthly days months =>
      have codes_iff : (∀ day ∈ days, -2 ≤ day ∧ day ≤ 31 ∧ day ≠ 0) ↔
          ∀ day ∈ days, day = -2 ∨ day = -1 ∨ 1 ≤ day ∧ day ≤ 31 :=
        forall₂_congr fun day _ => by omega
      simp only [Valid, Regular, ← codes_iff]
      refine and_congr_right fun _ => and_congr_right fun _ => and_congr_right fun codes => ?_
      refine forall₂_congr fun listed same => ?_
      subst same
      refine and_congr_right fun nonempty => and_congr_right fun _ => and_congr_right fun within => ?_
      constructor
      · intro satisfiable
        obtain ⟨date, -, falls⟩ := exists_fallsOn_of_satisfiable codes nonempty within satisfiable
        exact ⟨date, falls⟩
      · intro found
        obtain ⟨date, falls⟩ := found
        exact satisfiable_of_fallsOn falls

theorem isWord_of_writesInteger (written : WritesInteger item value) : IsWord item := by
  refine ⟨ne_nil_of_writesInteger written, ?_⟩
  cases written with
  | plain digits => exact digits.isWord.2
  | plus digits | minus digits => exact List.forall_mem_cons.mpr ⟨by decide, digits.isWord.2⟩

theorem isWord_of_writesIntegers (written : WritesIntegers list values) : IsWord list := by
  induction written with
  | one first => exact isWord_of_writesInteger first
  | more first _ ih =>
      refine ⟨by simp, fun char member => ?_⟩
      rcases List.mem_append.mp member with inItem | later
      · exact (isWord_of_writesInteger first).2 char inItem
      · rcases List.mem_cons.mp later with rfl | inRest
        · decide
        · exact ih.2 char inRest

theorem toList_writtenList (parts : List String) :
    (writtenList parts).toList = [','].intercalate (parts.map String.toList) :=
  String.toList_intercalate

theorem writesIntegers_writtenList {α : Type} {write : α → String} {number : α → Int}
    (writes : ∀ entry, WritesInteger (write entry).toList (number entry)) {entries : List α}
    (nonempty : entries ≠ []) :
    WritesIntegers (writtenList (entries.map write)).toList (entries.map number) := by
  rw [toList_writtenList, List.map_map]
  apply writesIntegers_intercalate
  · simpa using nonempty
  · rw [List.forall₂_map_left_iff, List.forall₂_map_right_iff, List.forall₂_same]
    exact fun entry _ => writes entry

theorem writesInteger_writtenWeekday (weekday : Nat) :
    WritesInteger (writtenWeekday weekday).toList (weekdayNumber weekday) := by
  unfold writtenWeekday weekdayNumber
  split
  · exact writesInteger_repr 7
  · exact writesInteger_repr weekday

theorem hasWords_word (isWord : IsWord word) : HasWords word [word] := by
  have ended : EndsWord [] := by simp [EndsWord]
  have taken := @HasWords.word [] word [] [] (by simp [AllBlank]) isWord ended (.none (by simp [AllBlank]))
  rw [List.nil_append, List.append_nil] at taken
  exact taken

theorem hasWords_word_append (isWord : IsWord word) (taken : HasWords rest listed) :
    HasWords (word ++ ' ' :: rest) (word :: listed) := by
  have ended : EndsWord (' ' :: rest) := by
    intro char first
    cases first
    rfl
  exact @HasWords.word [] word (' ' :: rest) listed (by simp [AllBlank]) isWord ended
    (taken.blank_cons (by decide))

theorem hasWords_kind (kind : Char) (shown : isBlank kind = false) (taken : HasWords rest listed) :
    HasWords (kind :: ' ' :: rest) ([kind] :: listed) :=
  hasWords_word_append (isWord_singleton shown) taken

theorem exists_ofWords_written (valid : rule.Valid) :
    ∃ words, HasWords rule.written.toList words ∧ Spelling.OfWords words rule.spelling := by
  cases rule with
  | daily interval =>
      have writes := writesInteger_repr interval
      have taken := hasWords_kind 'd' (by decide) (hasWords_word (isWord_of_writesInteger writes))
      refine ⟨_, ?_, .daily writes⟩
      rw [written, String.toList_append]
      exact taken
  | yearly => exact ⟨_, hasWords_word (isWord_singleton (show isBlank 'y' = false by decide)), .yearly⟩
  | weekly weekdays =>
      have writes := writesIntegers_writtenList writesInteger_writtenWeekday valid.1
      have taken := hasWords_kind 'w' (by decide) (hasWords_word (isWord_of_writesIntegers writes))
      refine ⟨_, ?_, .weekly writes⟩
      rw [written, String.toList_append]
      exact taken
  | monthly days months =>
      have writes := writesIntegers_writtenList writesInteger_repr valid.1
      rw [List.map_id'] at writes
      have isWord := isWord_of_writesIntegers writes
      cases months with
      | none =>
          refine ⟨_, ?_, .monthly writes⟩
          rw [written, String.toList_append]
          exact hasWords_kind 'm' (by decide) (hasWords_word isWord)
      | some months =>
          have nonempty := (valid.2.2.2 months rfl).1
          have writesMonths : WritesIntegers (writtenList (months.map Nat.repr)).toList
              (months.map Int.ofNat) :=
            writesIntegers_writtenList (fun month => writesInteger_repr (Int.ofNat month)) nonempty
          have taken := hasWords_word (isWord_of_writesIntegers writesMonths)
          refine ⟨_, ?_, .monthlyWithin writes writesMonths⟩
          rw [written, String.toList_append, String.toList_append, String.toList_append,
            List.append_assoc, List.append_assoc]
          exact hasWords_kind 'm' (by decide) (hasWords_word_append isWord taken)

theorem firstAppearances_of_nodup (distinct : days.Nodup) : FirstAppearances days days := by
  refine ⟨fun _ => Iff.rfl, List.pairwise_iff_getElem.mpr fun i j _ _ less => ?_⟩
  rw [distinct.idxOf_getElem, distinct.idxOf_getElem]
  exact less

theorem eq_weekdayNumber_iff {weekday other : Nat} (le : other ≤ 6) :
    (weekday : Int) = (if weekdayNumber other = 7 then 0 else weekdayNumber other) ↔ weekday = other := by
  unfold weekdayNumber
  split
  · rename_i sunday
    rw [if_pos rfl]
    omega
  · rw [if_neg (by omega)]
    omega

theorem weekdaysOf_spelled {weekdays : List Nat} (ordered : weekdays.Pairwise (· < ·))
    (within : ∀ weekday ∈ weekdays, weekday ≤ 6) :
    WeekdaysOf (weekdays.map weekdayNumber) weekdays := by
  refine ⟨ordered, fun weekday => ?_⟩
  constructor
  · intro member
    exact ⟨weekdayNumber weekday, List.mem_map_of_mem member,
      (eq_weekdayNumber_iff (within weekday member)).mpr rfl⟩
  · intro found
    obtain ⟨number, spelled, same⟩ := found
    obtain ⟨other, member, rfl⟩ := List.mem_map.mp spelled
    exact (eq_weekdayNumber_iff (within other member)).mp same ▸ member

theorem monthsOf_map {months : List Nat} (ordered : months.Pairwise (· < ·)) :
    MonthsOf (months.map Int.ofNat) months := by
  refine ⟨ordered, fun month => ?_⟩
  rw [List.mem_map]
  constructor
  · intro member
    exact ⟨month, member, rfl⟩
  · intro found
    obtain ⟨other, member, same⟩ := found
    exact Int.ofNat.inj same ▸ member

theorem means_of_valid (valid : rule.Valid) : rule.spelling.Means rule := by
  cases rule with
  | daily interval => exact .daily interval
  | yearly => exact .yearly
  | weekly weekdays => exact .weekly (weekdaysOf_spelled valid.2.1 valid.2.2)
  | monthly days months =>
      have appearances := firstAppearances_of_nodup valid.2.1
      cases months with
      | none => exact .monthly appearances
      | some months => exact .monthlyWithin appearances (monthsOf_map (valid.2.2.2 months rfl).2.1)

theorem admissible_of_valid (valid : rule.Valid) : rule.spelling.Admissible := by
  cases rule with
  | daily interval =>
      obtain ⟨low, high⟩ := valid
      exact ⟨Int.ofNat_le.mpr low, Int.ofNat_le.mpr high⟩
  | yearly => trivial
  | weekly weekdays =>
      intro number member
      obtain ⟨weekday, listed, rfl⟩ := List.mem_map.mp member
      have le := valid.2.2 weekday listed
      unfold weekdayNumber
      split <;> omega
  | monthly days months =>
      refine ⟨valid.2.2.1, fun numbers member => ?_⟩
      cases months with
      | none => cases member
      | some months =>
          cases member
          obtain ⟨-, ordered, within, satisfiable⟩ := valid.2.2.2 months rfl
          have monthsWithin : ∀ month ∈ months.map Int.ofNat, 1 ≤ month ∧ month ≤ 12 := by
            intro number member
            obtain ⟨month, listed, rfl⟩ := List.mem_map.mp member
            have bounds := within month listed
            exact ⟨Int.ofNat_le.mpr bounds.1, Int.ofNat_le.mpr bounds.2⟩
          have appearances := firstAppearances_of_nodup valid.2.1
          exact ⟨monthsWithin,
            (satisfiable_iff appearances (monthsOf_map ordered) monthsWithin).mp satisfiable⟩

theorem read_written (valid : rule.Valid) : Rule.read rule.written = .ok rule := by
  obtain ⟨words, taken, spelled⟩ := exists_ofWords_written valid
  exact read_eq_ok_iff.mpr
    ⟨words, rule.spelling, taken, spelled, admissible_of_valid valid, means_of_valid valid⟩

-- Sunday comes first in the rule and is written as the seventh weekday.
example : Rule.written (.weekly [0, 3]) = "w 7,3" := by decide

/-- The rules that a text expresses are the regular ones, and each of these is read back from its own
text. -/
theorem exists_read_iff (rule : Rule) :
    ((∃ text, Rule.read text = .ok rule) ↔ rule.Regular) ∧
      (rule.Regular ↔ Rule.read rule.written = .ok rule) := by
  rw [← valid_iff_regular]
  refine ⟨⟨fun found => ?_, fun valid => ⟨_, read_written valid⟩⟩, read_written, valid_of_read⟩
  obtain ⟨text, read⟩ := found
  exact valid_of_read read

end Agenda.Rule
