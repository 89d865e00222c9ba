import Agenda.Proofs.Text.Number
import Agenda.Session

/-! A line is silent, sets a key or is refused. What it says does not depend on where it stands. -/

namespace Agenda

def SettingsFault.line : SettingsFault → Nat
  | .noValue line _ | .badLimit line _ | .zeroLimit line => line

theorem SettingsFault.exists_message (fault : SettingsFault) :
    ∃ reason, fault.messages.head? = some ("line " ++ fault.line.repr ++ ": " ++ reason) := by
  have colon (front reason : String) : front ++ (": " ++ reason) = front ++ ": " ++ reason :=
    (String.append_assoc ..).symm
  cases fault with
  | noValue line text =>
      refine ⟨"expected key=value, got '" ++ text ++ "'", congrArg some ?_⟩
      change "line " ++ line.repr ++ (": " ++ "expected key=value, got '") ++ text ++ "'" = _
      simp only [String.append_assoc, SettingsFault.line]
  | badLimit line fault =>
      refine ⟨"list.limit must be a number", congrArg some ?_⟩
      rw [← colon]
      rfl
  | zeroLimit line =>
      refine ⟨"list.limit must be greater than 0", congrArg some ?_⟩
      rw [← colon]
      rfl

namespace Setting

open Text

/-- A line that says nothing: blanks aside, it is empty or starts with a number sign. -/
def IsSilent (chars : List Char) : Prop := trim chars = [] ∨ ∃ rest, trim chars = '#' :: rest

/-- The line has the key before its first equals sign and the value after it, blanks aside. -/
inductive Sets (chars : List Char) (key value : String) : Prop where
  | mk {before after : List Char} : ¬ IsSilent chars → trim chars = before ++ '=' :: after →
      '=' ∉ before → trim before = key.toList → trim after = value.toList → Sets chars key value

def IsLimit (value : String) (count : Nat) : Prop :=
  WritesNatural value.toList count ∧ 0 < count ∧ count < 2 ^ 64

inductive IsFaulty (chars : List Char) : Prop where
  | noValue : ¬ IsSilent chars → '=' ∉ trim chars → IsFaulty chars
  | badLimit {value : String} : Sets chars "list.limit" value → (∀ count, ¬ IsLimit value count) →
      IsFaulty chars

/-- The line does so. Keys that are not known are passed over. -/
inductive Tells (chars : List Char) : Setting → Prop where
  | silent : IsSilent chars → Tells chars .nothing
  | location {value : String} : Sets chars "data.location" value → Tells chars (.location value)
  | limit {value : String} {count : Nat} : Sets chars "list.limit" value → IsLimit value count →
      Tells chars (.limit count)
  | unknown {key value : String} : Sets chars key value → key ≠ "data.location" → key ≠ "list.limit" →
      Tells chars .nothing

variable {chars : List Char} {key keyElse value valueElse : String} {setting : Setting} {line count : Nat}
  {fault : SettingsFault}

theorem Sets.not_isSilent (sets : Sets chars key value) : ¬ IsSilent chars := by
  cases sets
  assumption

theorem Sets.unique (sets : Sets chars key value) (setsElse : Sets chars keyElse valueElse) :
    key = keyElse ∧ value = valueElse := by
  obtain ⟨-, same, absent, isKey, isValue⟩ := sets
  obtain ⟨-, sameElse, absentElse, isKeyElse, isValueElse⟩ := setsElse
  obtain ⟨rfl, rfl⟩ := eq_of_append_separator_eq absent absentElse (same.symm.trans sameElse)
  exact ⟨String.toList_inj.mp (isKey.symm.trans isKeyElse),
    String.toList_inj.mp (isValue.symm.trans isValueElse)⟩

theorem Sets.not_both {first second : List Char} (sets : Sets first key value)
    (setsElse : Sets second keyElse valueElse) (apart : key ≠ keyElse) (shared : String) :
    (∀ value, ¬ Sets first shared value) ∨ ∀ value, ¬ Sets second shared value := by
  by_cases same : key = shared
  · exact .inr fun value setsShared => apart (same.trans (setsShared.unique setsElse).1)
  · exact .inl fun value setsShared => same (sets.unique setsShared).1

theorem isSilent_or_noValue_or_sets (chars : List Char) :
    IsSilent chars ∨ (¬ IsSilent chars ∧ '=' ∉ trim chars) ∨ ∃ key value, Sets chars key value := by
  by_cases silent : IsSilent chars
  · exact .inl silent
  · by_cases equals : '=' ∈ trim chars
    · obtain ⟨before, after, same, absent⟩ := List.eq_append_cons_of_mem equals
      exact .inr (.inr ⟨String.ofList (trim before), String.ofList (trim after),
        .mk silent same absent (String.toList_ofList).symm (String.toList_ofList).symm⟩)
    · exact .inr (.inl ⟨silent, equals⟩)

theorem isSilent_iff : trim chars = [] ∨ (trim chars).head? = some '#' ↔ IsSilent chars := by
  rw [IsSilent, List.head?_eq_some_iff]

theorem ofLine_of_isSilent (silent : IsSilent chars) : ofLine line chars = .ok .nothing :=
  if_pos (isSilent_iff.mpr silent)

theorem ofLine_of_noValue (shown : ¬ IsSilent chars) (absent : '=' ∉ trim chars) :
    ofLine line chars = .error (.noValue line (String.ofList (trim chars))) := by
  have ended : (trim chars).dropWhile (· ≠ '=') = [] := by
    refine List.dropWhile_eq_nil_iff.mpr fun char member => decide_eq_true ?_
    rintro rfl
    exact absent member
  simp only [ofLine, if_neg (mt isSilent_iff.mp shown), ended]

theorem ofLine_of_sets (sets : Sets chars key value) :
    ofLine line chars = ofPair line key.toList value.toList := by
  obtain ⟨shown, same, absent, isKey, isValue⟩ := sets
  rename_i before after
  have passed : ∀ char ∈ before, decide (char ≠ '=') = true := fun char member =>
    decide_eq_true fun equals => absent (equals ▸ member)
  have behind : (trim chars).dropWhile (· ≠ '=') = '=' :: after := by
    rw [same, List.dropWhile_append_of_pos passed]
    rfl
  have front : (trim chars).takeWhile (· ≠ '=') = before := by
    rw [same, List.takeWhile_append_of_pos passed]
    simp
  simp only [ofLine, if_neg (mt isSilent_iff.mp shown), behind, front, isKey, isValue]

theorem readLimit_eq_ok_iff :
    readLimit line value.toList = .ok setting ↔ ∃ count, IsLimit value count ∧ setting = .limit count := by
  constructor
  · intro read
    unfold readLimit at read
    split at read
    · cases read
    · cases read
    · rename_i count notZero natural
      cases read
      obtain ⟨written, within⟩ := readNatural_eq_ok_iff.mp natural
      rw [largestNatural] at within
      exact ⟨count, ⟨written, Nat.pos_of_ne_zero fun zero => notZero (zero ▸ rfl), by omega⟩, rfl⟩
  · rintro ⟨count, ⟨written, positive, within⟩, rfl⟩
    have natural : readNatural value.toList = .ok count :=
      readNatural_eq_ok_iff.mpr ⟨written, by rw [largestNatural]; omega⟩
    unfold readLimit
    rw [natural]
    cases count with
    | zero => exact absurd positive (Nat.lt_irrefl 0)
    | succ count => rfl

theorem ofPair_location :
    ofPair line "data.location".toList value.toList = .ok (.location value) := by
  rw [ofPair, if_pos rfl, String.ofList_toList]

theorem ofPair_limit :
    ofPair line "list.limit".toList value.toList = readLimit line value.toList := by
  rw [ofPair, if_neg (by decide), if_pos rfl]

theorem ofPair_unknown (noLocation : key ≠ "data.location") (noLimit : key ≠ "list.limit") :
    ofPair line key.toList value.toList = .ok .nothing := by
  rw [ofPair, if_neg (mt String.toList_inj.mp noLocation), if_neg (mt String.toList_inj.mp noLimit)]

theorem ofLine_eq_ok_iff : ofLine line chars = .ok setting ↔ Tells chars setting := by
  constructor
  · intro read
    rcases isSilent_or_noValue_or_sets chars with silent | ⟨shown, absent⟩ | ⟨key, value, sets⟩
    · rw [ofLine_of_isSilent silent] at read
      cases read
      exact .silent silent
    · rw [ofLine_of_noValue shown absent] at read
      cases read
    · rw [ofLine_of_sets sets] at read
      by_cases location : key = "data.location"
      · subst location
        rw [ofPair_location] at read
        cases read
        exact .location sets
      · by_cases limit : key = "list.limit"
        · subst limit
          rw [ofPair_limit] at read
          obtain ⟨count, isLimit, rfl⟩ := readLimit_eq_ok_iff.mp read
          exact .limit sets isLimit
        · rw [ofPair_unknown location limit] at read
          cases read
          exact .unknown sets location limit
  · intro tells
    cases tells with
    | silent silent => exact ofLine_of_isSilent silent
    | location sets => rw [ofLine_of_sets sets, ofPair_location]
    | limit sets isLimit =>
        rw [ofLine_of_sets sets, ofPair_limit]
        exact readLimit_eq_ok_iff.mpr ⟨_, isLimit, rfl⟩
    | unknown sets noLocation noLimit => rw [ofLine_of_sets sets, ofPair_unknown noLocation noLimit]

theorem Tells.unique {settingElse : Setting} (tells : Tells chars setting)
    (tellsElse : Tells chars settingElse) : setting = settingElse := by
  have read : ofLine 0 chars = .ok setting := ofLine_eq_ok_iff.mpr tells
  rw [ofLine_eq_ok_iff.mpr tellsElse] at read
  exact (Except.ok.inj read).symm

theorem Tells.not_isFaulty (tells : Tells chars setting) : ¬ IsFaulty chars := by
  intro faulty
  cases faulty with
  | noValue shown absent =>
      have read : ofLine 0 chars = .ok setting := ofLine_eq_ok_iff.mpr tells
      rw [ofLine_of_noValue shown absent] at read
      cases read
  | badLimit sets unlimited =>
      cases tells with
      | silent silent => exact sets.not_isSilent silent
      | location setsElse => exact absurd (sets.unique setsElse).1 (by decide)
      | limit setsElse isLimit =>
          obtain ⟨-, rfl⟩ := sets.unique setsElse
          exact unlimited _ isLimit
      | unknown setsElse _ noLimit => exact noLimit (sets.unique setsElse).1.symm

theorem exists_tells_of_not_isFaulty (sound : ¬ IsFaulty chars) : ∃ setting, Tells chars setting := by
  rcases isSilent_or_noValue_or_sets chars with silent | ⟨shown, absent⟩ | ⟨key, value, sets⟩
  · exact ⟨_, .silent silent⟩
  · exact absurd (.noValue shown absent) sound
  · by_cases location : key = "data.location"
    · exact ⟨_, .location (location ▸ sets)⟩
    · by_cases limit : key = "list.limit"
      · have limited : ∃ count, IsLimit value count := by
          by_contra unlimited
          exact sound (.badLimit (limit ▸ sets) (not_exists.mp unlimited))
        obtain ⟨count, isLimit⟩ := limited
        exact ⟨_, .limit (limit ▸ sets) isLimit⟩
      · exact ⟨_, .unknown sets location limit⟩

theorem exists_tells_iff : (∃ setting, Tells chars setting) ↔ ¬ IsFaulty chars :=
  ⟨fun ⟨_, tells⟩ => tells.not_isFaulty, exists_tells_of_not_isFaulty⟩

theorem Tells.location?_eq_none_iff (tells : Tells chars setting) :
    setting.location? = none ↔ ∀ value, ¬ Sets chars "data.location" value := by
  cases tells with
  | silent silent => exact iff_of_true rfl fun value sets => sets.not_isSilent silent
  | location sets => exact iff_of_false (Option.some_ne_none _) fun unset => unset _ sets
  | limit sets _ => exact iff_of_true rfl fun value setsElse => absurd (sets.unique setsElse).1 (by decide)
  | unknown sets noLocation _ =>
      exact iff_of_true rfl fun value setsElse => noLocation (sets.unique setsElse).1

theorem Tells.limit?_eq_none_iff (tells : Tells chars setting) :
    setting.limit? = none ↔ ∀ value, ¬ Sets chars "list.limit" value := by
  cases tells with
  | silent silent => exact iff_of_true rfl fun value sets => sets.not_isSilent silent
  | location sets => exact iff_of_true rfl fun value setsElse => absurd (sets.unique setsElse).1 (by decide)
  | limit sets _ => exact iff_of_false (Option.some_ne_none _) fun unset => unset _ sets
  | unknown sets _ noLimit => exact iff_of_true rfl fun value setsElse => noLimit (sets.unique setsElse).1

theorem fails_ofLine_iff : Fails (ofLine line chars) ↔ IsFaulty chars := by
  rw [← not_iff_not, not_fails_iff, ← exists_tells_iff]
  exact exists_congr fun setting => ofLine_eq_ok_iff

theorem line_of_ofLine (failed : ofLine line chars = .error fault) : fault.line = line := by
  rcases isSilent_or_noValue_or_sets chars with silent | ⟨shown, absent⟩ | ⟨key, value, sets⟩
  · rw [ofLine_of_isSilent silent] at failed
    cases failed
  · rw [ofLine_of_noValue shown absent] at failed
    cases failed
    rfl
  · rw [ofLine_of_sets sets, ofPair] at failed
    split at failed
    · cases failed
    · split at failed
      · unfold readLimit at failed
        split at failed
        · cases failed
          rfl
        · cases failed
          rfl
        · cases failed
      · cases failed

end Setting

end Agenda
