import Agenda.Proofs.Settings.Lines

namespace Agenda

open Text

namespace Settings

def Unset (lines : List (List Char)) (key : String) : Prop :=
  ∀ chars ∈ lines, ∀ value, ¬ Setting.Sets chars key value

/-- The last of the lines with the key sets it to the value. -/
def LastSets (lines : List (List Char)) (key value : String) : Prop :=
  ∃ before chars after, lines = before ++ chars :: after ∧ Setting.Sets chars key value ∧ Unset after key

/-- Each of the settings is the one of its last line, or the one that holds if there is no such line. -/
structure AreSetBy (settings : Settings) (directory : String) (lines : List (List Char)) : Prop where
  limit : (∃ value, LastSets lines "list.limit" value ∧ Setting.IsLimit value settings.limit) ∨
    Unset lines "list.limit" ∧ settings.limit = 50
  location : (∃ value, LastSets lines "data.location" value ∧
      settings.location = Path.join directory value) ∨
    Unset lines "data.location" ∧ settings.location = Path.join directory "scheduler.db"

/-- One step that changes no setting: a line comes in that is blank, a comment or one with a key that is
not known, or two lines with different keys change places. -/
inductive Rearranges : List (List Char) → List (List Char) → Prop where
  | insert {before after : List (List Char)} {chars : List Char} : Setting.Tells chars .nothing →
      Rearranges (before ++ after) (before ++ chars :: after)
  | swap {before after : List (List Char)} {first second : List Char} {key keyElse value valueElse : String} :
      Setting.Sets first key value → Setting.Sets second keyElse valueElse → key ≠ keyElse →
        Rearranges (before ++ first :: second :: after) (before ++ second :: first :: after)

variable {directory text : String} {settings : Settings} {fault : SettingsFault}
  {lines linesElse before after : List (List Char)} {told toldBefore toldAfter : List Setting} {key : String}

theorem read_eq_ok_iff :
    read directory text = .ok settings ↔
      ∃ told, List.Forall₂ Setting.Tells (text.toList.splitOn '\n') told ∧
        ofLines directory told = settings := by
  rw [read, bind_eq_ok_iff]
  refine exists_congr fun told => and_congr ?_ (by simp [pure, Except.pure])
  rw [mapM_eq_ok_iff]
  simp only [Setting.ofLine_eq_ok_iff]
  rw [← List.forall₂_map_left_iff (f := Prod.fst), List.zipIdx_map_fst]

theorem exists_of_read_eq_error (failed : read directory text = .error fault) :
    ∃ before chars after, text.toList.splitOn '\n' = before ++ chars :: after ∧
      (∀ earlier ∈ before, ¬ Setting.IsFaulty earlier) ∧ Setting.IsFaulty chars ∧
        fault.line = before.length + 1 := by
  rw [read, bind_eq_error_iff] at failed
  rcases failed with failed | ⟨told, -, impossible⟩
  · obtain ⟨front, item, back, same, succeeds, failed⟩ := mapM_eq_error_iff.mp failed
    obtain ⟨before, rest, lines, rfl, numbered⟩ := List.zipIdx_eq_append_iff.mp same
    obtain ⟨chars, after, rfl, rfl, -⟩ := List.zipIdx_eq_cons_iff.mp numbered.symm
    refine ⟨before, chars, after, lines, fun earlier member => ?_, ?_, ?_⟩
    · rw [← List.zipIdx_map_fst 1 before] at member
      obtain ⟨numbered, inFront, rfl⟩ := List.mem_map.mp member
      obtain ⟨setting, read⟩ := succeeds numbered inFront
      exact (Setting.ofLine_eq_ok_iff.mp read).not_isFaulty
    · exact Setting.fails_ofLine_iff.mp ⟨fault, failed⟩
    · rw [Setting.line_of_ofLine failed, Nat.add_comm]
  · cases impossible

theorem not_isFaulty_of_read (succeeds : read directory text = .ok settings) :
    ∀ chars ∈ text.toList.splitOn '\n', ¬ Setting.IsFaulty chars := by
  intro chars member
  obtain ⟨told, tells, -⟩ := read_eq_ok_iff.mp succeeds
  obtain ⟨before, after, same⟩ := List.append_of_mem member
  rw [same] at tells
  obtain ⟨front, back, rfl, -, tellsBack⟩ := forall₂_append_left_iff.mp tells
  cases tellsBack with
  | cons tellsLine _ => exact tellsLine.not_isFaulty

theorem fails_read_iff :
    Fails (read directory text) ↔ ∃ chars ∈ text.toList.splitOn '\n', Setting.IsFaulty chars := by
  constructor
  · rintro ⟨fault, failed⟩
    obtain ⟨before, chars, after, same, -, faulty, -⟩ := exists_of_read_eq_error failed
    exact ⟨chars, by simp [same], faulty⟩
  · rintro ⟨chars, member, faulty⟩
    by_contra succeeds
    obtain ⟨settings, succeeds⟩ := not_fails_iff.mp succeeds
    exact not_isFaulty_of_read succeeds chars member faulty

theorem exists_last_or_unset {β : Type} {given : Setting → Option β}
    (unset_iff : ∀ chars setting, Setting.Tells chars setting →
      (given setting = none ↔ ∀ value, ¬ Setting.Sets chars key value))
    (tells : List.Forall₂ Setting.Tells lines told) :
    (Unset lines key ∧ (told.filterMap given).getLast? = none) ∨
      ∃ before chars after setting result, lines = before ++ chars :: after ∧
        Setting.Tells chars setting ∧ given setting = some result ∧ Unset after key ∧
          (told.filterMap given).getLast? = some result := by
  -- From the last line back: a line counts only if none behind it sets the key.
  induction tells with
  | nil => exact .inl ⟨by simp [Unset], rfl⟩
  | @cons chars setting lines told tellsFirst tellsRest ih =>
      rcases ih with ⟨unset, none⟩ | ⟨before, last, after, setting, result, rfl, tells, gives, unset, found⟩
      · have empty : told.filterMap given = [] := List.getLast?_eq_none_iff.mp none
        cases first : given setting with
        | none =>
            left
            refine ⟨List.forall_mem_cons.mpr ⟨(unset_iff _ _ tellsFirst).mp first, unset⟩, ?_⟩
            rw [List.filterMap_cons_none first, empty]
            rfl
        | some result =>
            right
            refine ⟨[], chars, lines, setting, result, rfl, tellsFirst, first, unset, ?_⟩
            rw [List.filterMap_cons_some first, empty]
            rfl
      · right
        refine ⟨chars :: before, last, after, setting, result, rfl, tells, gives, unset, ?_⟩
        rw [List.filterMap_cons]
        cases given _ with
        | none => exact found
        | some other => rw [List.getLast?_cons, found]; rfl

theorem areSetBy_ofLines (tells : List.Forall₂ Setting.Tells lines told) :
    (ofLines directory told).AreSetBy directory lines where
  limit := by
    rcases exists_last_or_unset (fun _ _ => Setting.Tells.limit?_eq_none_iff) tells with
      ⟨unset, none⟩ | ⟨before, chars, after, setting, count, same, tells, gives, unset, found⟩
    · right
      exact ⟨unset, by rw [ofLines, none]; rfl⟩
    · left
      cases tells with
      | limit sets isLimit =>
          cases gives
          refine ⟨_, ⟨before, chars, after, same, sets, unset⟩, ?_⟩
          rw [ofLines, found]
          exact isLimit
      | silent _ => cases gives
      | location _ => cases gives
      | unknown _ _ _ => cases gives
  location := by
    rcases exists_last_or_unset (fun _ _ => Setting.Tells.location?_eq_none_iff) tells with
      ⟨unset, none⟩ | ⟨before, chars, after, setting, path, same, tells, gives, unset, found⟩
    · right
      exact ⟨unset, by rw [ofLines, none]; rfl⟩
    · left
      cases tells with
      | location sets =>
          cases gives
          refine ⟨_, ⟨before, chars, after, same, sets, unset⟩, ?_⟩
          rw [ofLines, found]
          rfl
      | silent _ => cases gives
      | limit _ _ => cases gives
      | unknown _ _ _ => cases gives

theorem AreSetBy.limit_pos (areSet : settings.AreSetBy directory lines) : 0 < settings.limit := by
  rcases areSet.limit with ⟨value, -, isLimit⟩ | ⟨-, fifty⟩
  · exact isLimit.2.1
  · rw [fifty]
    decide

theorem areSetBy_of_read (succeeds : read directory text = .ok settings) :
    settings.AreSetBy directory (text.toList.splitOn '\n') := by
  obtain ⟨told, tells, rfl⟩ := read_eq_ok_iff.mp succeeds
  exact areSetBy_ofLines tells

theorem ofLines_insert (directory : String) (toldBefore toldAfter : List Setting) :
    ofLines directory (toldBefore ++ .nothing :: toldAfter) =
      ofLines directory (toldBefore ++ toldAfter) := by
  simp [ofLines, Setting.location?, Setting.limit?]

theorem ofLines_swap {first second : Setting} (location : first.location? = none ∨ second.location? = none)
    (limit : first.limit? = none ∨ second.limit? = none) :
    ofLines directory (toldBefore ++ first :: second :: toldAfter) =
      ofLines directory (toldBefore ++ second :: first :: toldAfter) := by
  have swapped {β : Type} {given : Setting → Option β}
      (apart : given first = none ∨ given second = none) :
      (toldBefore ++ first :: second :: toldAfter).filterMap given =
        (toldBefore ++ second :: first :: toldAfter).filterMap given := by
    rcases apart with none | none <;> simp [List.filterMap_cons, none]
  rw [ofLines, swapped location, swapped limit, ofLines]

theorem exists_told_of_insert {chars : List Char} (nothing : Setting.Tells chars .nothing) :
    (∃ told, List.Forall₂ Setting.Tells (before ++ after) told ∧ ofLines directory told = settings) ↔
      ∃ told, List.Forall₂ Setting.Tells (before ++ chars :: after) told ∧
        ofLines directory told = settings := by
  constructor
  · rintro ⟨told, tells, rfl⟩
    obtain ⟨front, back, rfl, tellsFront, tellsBack⟩ := forall₂_append_left_iff.mp tells
    exact ⟨front ++ .nothing :: back, List.rel_append tellsFront (.cons nothing tellsBack),
      ofLines_insert directory front back⟩
  · rintro ⟨told, tells, rfl⟩
    obtain ⟨front, back, rfl, tellsFront, tellsBack⟩ := forall₂_append_left_iff.mp tells
    cases tellsBack with
    | cons tellsLine tellsAfter =>
        cases tellsLine.unique nothing
        exact ⟨_, List.rel_append tellsFront tellsAfter, (ofLines_insert directory front _).symm⟩

theorem exists_told_of_swap {first second : List Char} {keyElse value valueElse : String}
    (sets : Setting.Sets first key value) (setsElse : Setting.Sets second keyElse valueElse)
    (apart : key ≠ keyElse)
    (reads : ∃ told, List.Forall₂ Setting.Tells (before ++ first :: second :: after) told ∧
      ofLines directory told = settings) :
    ∃ told, List.Forall₂ Setting.Tells (before ++ second :: first :: after) told ∧
      ofLines directory told = settings := by
  obtain ⟨told, tells, rfl⟩ := reads
  obtain ⟨front, back, rfl, tellsFront, tellsBack⟩ := forall₂_append_left_iff.mp tells
  cases tellsBack with
  | cons tellsFirst tellsBack =>
      cases tellsBack with
      | cons tellsSecond tellsAfter =>
          refine ⟨_, List.rel_append tellsFront (.cons tellsSecond (.cons tellsFirst tellsAfter)), ?_⟩
          apply ofLines_swap
          · rw [tellsFirst.location?_eq_none_iff, tellsSecond.location?_eq_none_iff, or_comm]
            exact sets.not_both setsElse apart _
          · rw [tellsFirst.limit?_eq_none_iff, tellsSecond.limit?_eq_none_iff, or_comm]
            exact sets.not_both setsElse apart _

theorem Rearranges.exists_told_iff (rearranges : Rearranges lines linesElse) :
    (∃ told, List.Forall₂ Setting.Tells lines told ∧ ofLines directory told = settings) ↔
      ∃ told, List.Forall₂ Setting.Tells linesElse told ∧ ofLines directory told = settings := by
  cases rearranges with
  | insert nothing => exact exists_told_of_insert nothing
  | swap sets setsElse apart =>
      exact ⟨exists_told_of_swap sets setsElse apart, exists_told_of_swap setsElse sets apart.symm⟩

/-- A text is read if none of its lines is refused, and else the first refused line is named. The last
line with a key counts, and so each step that brings in a line without effect or exchanges lines with
different keys leaves the settings as they are. -/
theorem read_lastLines (directory text : String) :
    let lines := text.toList.splitOn '\n'
    (Fails (read directory text) ↔ ∃ chars ∈ lines, Setting.IsFaulty chars) ∧
    (∀ fault, read directory text = .error fault →
      ∃ before chars after, lines = before ++ chars :: after ∧
        (∀ earlier ∈ before, ¬ Setting.IsFaulty earlier) ∧ Setting.IsFaulty chars ∧
        ∃ reason, fault.messages.head? =
          some ("line " ++ (before.length + 1).repr ++ ": " ++ reason)) ∧
    (∀ settings, read directory text = .ok settings →
      settings.AreSetBy directory lines ∧ 1 ≤ settings.limit) ∧
    ∀ textElse : String, Rearranges lines (textElse.toList.splitOn '\n') → ∀ settings,
      read directory text = .ok settings ↔ read directory textElse = .ok settings := by
  intro lines
  refine ⟨fails_read_iff, fun fault failed => ?_, fun settings succeeds => ?_,
    fun textElse rearranges settings => ?_⟩
  · obtain ⟨before, chars, after, same, sound, faulty, number⟩ := exists_of_read_eq_error failed
    refine ⟨before, chars, after, same, sound, faulty, ?_⟩
    rw [← number]
    exact fault.exists_message
  · have areSet := areSetBy_of_read succeeds
    exact ⟨areSet, areSet.limit_pos⟩
  · rw [read_eq_ok_iff, read_eq_ok_iff]
    exact rearranges.exists_told_iff

/-- The last two of three lines change places. The first of them sets a path that has an equals sign in
it. -/
theorem read_lastLines_exchanged :
    Rearranges ("list.limit = 5\r\ndata.location=a=b\n list.limit=+12".toList.splitOn '\n')
      ("list.limit = 5\r\n list.limit=+12\ndata.location=a=b".toList.splitOn '\n') ∧
    read "/base" "list.limit = 5\r\ndata.location=a=b\n list.limit=+12" = .ok ⟨"/base/a=b", 12⟩ ∧
    read "/base" "list.limit = 5\r\n list.limit=+12\ndata.location=a=b" = .ok ⟨"/base/a=b", 12⟩ := by
  have location : Setting.Sets "data.location=a=b".toList "data.location" "a=b" :=
    @Setting.Sets.mk _ _ _ "data.location".toList "a=b".toList (by rw [← Setting.isSilent_iff]; decide)
      (by decide) (by decide) (by decide) (by decide)
  have limit : Setting.Sets " list.limit=+12".toList "list.limit" "+12" :=
    @Setting.Sets.mk _ _ _ "list.limit".toList "+12".toList (by rw [← Setting.isSilent_iff]; decide)
      (by decide) (by decide) (by decide) (by decide)
  have exchanged : Rearranges ("list.limit = 5\r\ndata.location=a=b\n list.limit=+12".toList.splitOn '\n')
      ("list.limit = 5\r\n list.limit=+12\ndata.location=a=b".toList.splitOn '\n') :=
    @Rearranges.swap ["list.limit = 5\r".toList] [] _ _ _ _ _ _ location limit (by decide)
  have read : read "/base" "list.limit = 5\r\ndata.location=a=b\n list.limit=+12" = .ok ⟨"/base/a=b", 12⟩ := by
    decide +kernel
  exact ⟨exchanged, read, ((read_lastLines "/base" _).2.2.2 _ exchanged _).mp read⟩

end Settings

theorem Settings.limit_pos_default (directory : String) : 0 < (default directory).limit :=
  (areSetBy_ofLines List.Forall₂.nil).limit_pos

theorem limit_pos_of_readSettings {surroundings : Surroundings} {files : Files} {settings : Settings}
    (read : readSettings surroundings files = .ok settings) : 0 < settings.limit := by
  simp only [readSettings] at read
  split at read
  · cases read
    exact Settings.limit_pos_default _
  · cases read
  · split at read
    · cases read
    · split at read
      · rename_i readText
        cases read
        exact (Settings.areSetBy_of_read readText).limit_pos
      · cases read

theorem limit_pos_of_loadSettings {surroundings : Surroundings} {files : Files} {settings : Settings}
    (loaded : loadSettings surroundings files = .ok settings) : 0 < settings.limit := by
  obtain ⟨found, read, same⟩ := map_eq_ok_iff.mp loaded
  have positive := limit_pos_of_readSettings read
  rw [← same]
  unfold Settings.overridden
  split
  · exact positive
  · exact positive
  · exact positive

end Agenda
