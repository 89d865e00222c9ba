import Agenda.Proofs.Date.Written
import Agenda.Store

namespace Agenda

open Text

variable {char other : Char} {chars others : List Char} {text textElse : String}

theorem toLower_cases (char : Char) :
    char.toLower = char ∨
      (65 ≤ char.toNat ∧ char.toNat ≤ 90 ∧ char.toLower.toNat = char.toNat + 32) := by
  unfold Char.toLower
  split
  · rename_i capital
    have lower : 65 ≤ char.toNat := capital.1
    have upper : char.toNat ≤ 90 := capital.2
    refine .inr ⟨lower, upper, ?_⟩
    have moved : (char.val + ('a'.val - 'A'.val)).toNat = (char.val.toNat + 32) % 4294967296 :=
      UInt32.toNat_add _ _
    rw [Nat.mod_eq_of_lt (show char.val.toNat + 32 < 4294967296 by
      have same : char.val.toNat = char.toNat := rfl
      omega)] at moved
    exact moved
  · exact .inl rfl

theorem not_letter_of_isDateChar (isDateChar : Date.IsDateChar char) :
    ¬ (65 ≤ char.toNat ∧ char.toNat ≤ 90) ∧ ¬ (97 ≤ char.toNat ∧ char.toNat ≤ 122) := by
  rcases isDateChar with blank | digit | rfl | rfl | rfl
  · simp [isBlank] at blank
    omega
  · have bounds := Char.isDigit_iff_toNat.mp digit
    have nine : '9'.toNat = 57 := rfl
    omega
  · decide
  · decide
  · decide

theorem eq_of_toLower_eq (isDateChar : Date.IsDateChar char) (alike : other.toLower = char.toLower) :
    other = char := by
  obtain ⟨notCapital, notSmall⟩ := not_letter_of_isDateChar isDateChar
  rcases toLower_cases char with same | ⟨lower, upper, -⟩
  · rw [same] at alike
    rcases toLower_cases other with otherSame | ⟨lower, upper, moved⟩
    · exact otherSame.symm.trans alike
    · rw [alike] at moved
      omega
  · exact absurd ⟨lower, upper⟩ notCapital

theorem eq_of_map_toLower_eq (dateChars : ∀ char ∈ chars, Date.IsDateChar char)
    (alike : others.map Char.toLower = chars.map Char.toLower) : others = chars := by
  induction chars generalizing others with
  | nil => exact List.map_eq_nil_iff.mp alike
  | cons char rest ih =>
      cases others with
      | nil => cases alike
      | cons other more =>
          obtain ⟨first, later⟩ := List.cons.inj alike
          rw [eq_of_toLower_eq (dateChars char (by simp)) first,
            ih (fun char member => dateChars char (by simp [member])) later]

/-- The task is one that a search term asks for. A term of blanks asks for every task, and one that names a
date for the tasks of that date. Any other has to stand in the title or in the comment. -/
def Task.IsSoughtBy (task : Task) (term : Option String) : Prop :=
  ∀ text, term = some text → trimmed text ≠ "" →
    match Date.ofSearch? (trimmed text) with
    | some date => task.date = date.written
    | none => ∃ field ∈ [task.title, task.comment], ∃ before after,
        field.toList.map Char.toLower =
          before ++ (trimmed text).toList.map Char.toLower ++ after

theorem admits_iff_isSoughtBy {task : Task} {term : Option String} :
    (Search.ofText? term).Admits task ↔ task.IsSoughtBy term := by
  cases term with
  | none => simp [Search.ofText?, Search.Admits, Task.IsSoughtBy]
  | some text =>
      simp only [Search.ofText?, Option.map_some, Option.getD_some, Search.ofText, Task.IsSoughtBy,
        Option.some.injEq, forall_eq']
      by_cases empty : trimmed text = ""
      · simp [empty, Search.Admits]
      · rw [if_neg empty]
        cases Date.ofSearch? (trimmed text) with
        | some date => simp [empty, Search.Admits]
        | none =>
            simp [empty, Search.Admits, Search.Contains, List.IsInfix, Search.searched, eq_comm]

theorem ofSearch?_trimmed_of_alike
    (alike : (trimmed text).toList.map Char.toLower = (trimmed textElse).toList.map Char.toLower) :
    Date.ofSearch? (trimmed text) = Date.ofSearch? (trimmed textElse) := by
  have eq_of_names {text textElse : String} {date : Date}
      (alike : (trimmed text).toList.map Char.toLower = (trimmed textElse).toList.map Char.toLower)
      (names : Date.ofSearch? (trimmed textElse) = some date) : trimmed text = trimmed textElse := by
    have dateChars : ∀ char ∈ (trimmed textElse).toList, Date.IsDateChar char := by
      intro char member
      apply Date.isDateChar_of_ofSearch? names
      rw [trimmed, String.toList_ofList] at member ⊢
      rw [trim_trim]
      exact member
    exact String.toList_inj.mp (eq_of_map_toLower_eq dateChars alike)
  cases names : Date.ofSearch? (trimmed textElse) with
  | some date => rw [eq_of_names alike names, names]
  | none =>
      cases namesElse : Date.ofSearch? (trimmed text) with
      | none => rfl
      | some date =>
          rw [eq_of_names alike.symm namesElse, namesElse] at names
          cases names

theorem admits_iff_of_alike (task : Task)
    (alike : (trimmed text).toList.map Char.toLower = (trimmed textElse).toList.map Char.toLower) :
    (Search.ofText text).Admits task ↔ (Search.ofText textElse).Admits task := by
  have empty_iff : trimmed text = "" ↔ trimmed textElse = "" := by
    rw [← String.toList_eq_nil_iff, ← String.toList_eq_nil_iff, ← List.map_eq_nil_iff, alike,
      List.map_eq_nil_iff]
  simp only [Search.ofText, empty_iff, ofSearch?_trimmed_of_alike alike]
  split
  · rfl
  · split
    · rfl
    · simp only [Search.Admits, Search.Contains, Search.searched, alike]

/-- The task stands before another in a list: the bytes of its date are smaller, or the date is the same
and its number is smaller. -/
def Task.StandsBefore (task other : Task) : Prop :=
  bytes task.date < bytes other.date ∨
    task.date = other.date ∧ ∃ id idElse, task.id = some id ∧ other.id = some idElse ∧ id < idElse

namespace Store

theorem listedBefore_trans {first second third : Task} (before : ListedBefore first second)
    (after : ListedBefore second third) : ListedBefore first third := by
  simp only [ListedBefore] at *
  rcases before with earlier | ⟨same, le⟩
  · rcases after with later | ⟨sameElse, -⟩
    · exact .inl (lt_trans earlier later)
    · exact .inl (sameElse ▸ earlier)
  · rcases after with later | ⟨sameElse, leElse⟩
    · exact .inl (same ▸ later)
    · exact .inr ⟨same.trans sameElse, Int.le_trans le leElse⟩

theorem listedBefore_total (first second : Task) :
    ListedBefore first second ∨ ListedBefore second first := by
  simp only [ListedBefore]
  rcases lt_trichotomy first.date second.date with less | same | greater
  · exact .inl (.inl less)
  · rcases Int.le_total (first.id.getD 0) (second.id.getD 0) with le | ge
    · exact .inl (.inr ⟨same, le⟩)
    · exact .inr (.inr ⟨same.symm, ge⟩)
  · exact .inr (.inl greater)

theorem pairwise_listed (tasks : List Task) : (listed tasks).Pairwise ListedBefore := by
  let ordered (first second : Task) : Bool := decide (ListedBefore first second)
  have transitive (first second third : Task) (before : ordered first second = true)
      (after : ordered second third = true) : ordered first third = true :=
    decide_eq_true (listedBefore_trans (of_decide_eq_true before) (of_decide_eq_true after))
  have total (first second : Task) : (ordered first second || ordered second first) = true := by
    simpa [ordered] using listedBefore_total first second
  have sorted := List.pairwise_mergeSort transitive total tasks
  simpa [listed, ordered] using sorted

theorem listed_perm (tasks : List Task) : (listed tasks).Perm tasks := List.mergeSort_perm tasks _

theorem mem_of_mem_list {store : Store} {limit : Nat} {search : Search} {task : Task}
    (member : task ∈ store.list limit search) : task ∈ store.tasks := by
  have inOrder := List.mem_of_mem_take member
  rw [(listed_perm _).mem_iff] at inOrder
  exact (List.mem_filter.mp inOrder).1

theorem pairwise_standsBefore (store : Store) {tasks : List Task} (part : tasks.Sublist store.tasks) :
    (listed tasks).Pairwise Task.StandsBefore := by
  have different : (listed tasks).Pairwise fun task other => task.id ≠ other.id := by
    rw [← List.pairwise_map]
    exact ((listed_perm tasks).map Task.id).nodup_iff.mpr ((part.map Task.id).nodup store.distinct)
  refine List.Pairwise.imp_of_mem ?_ ((pairwise_listed tasks).and different)
  rintro task other member memberElse ⟨earlier | ⟨same, le⟩, apart⟩
  · exact .inl (bytes_lt_bytes_iff.mpr earlier)
  · have numbered (task : Task) (member : task ∈ listed tasks) : ∃ id, task.id = some id := by
      obtain ⟨id, named, -⟩ :=
        store.numbered task (part.subset ((listed_perm tasks).mem_iff.mp member))
      exact ⟨id, named⟩
    obtain ⟨id, named⟩ := numbered task member
    obtain ⟨idElse, namedElse⟩ := numbered other memberElse
    rw [named, namedElse] at le apart
    refine .inr ⟨same, id, idElse, named, namedElse, lt_of_le_of_ne le fun equal => apart ?_⟩
    rw [equal]

theorem list_congr (store : Store) (limit : Nat) {search searchElse : Search}
    (same : ∀ task, search.Admits task ↔ searchElse.Admits task) :
    store.list limit search = store.list limit searchElse := by
  rw [list, list, List.filter_congr fun task _ => decide_eq_decide.mpr (same task)]

/-- A list is the start of the row of all tasks that its term asks for. So a list with a smaller limit is
the start of one with a larger limit, and blanks around the term and the case of its letters do not
matter. -/
theorem list_eq_take (store : Store) (term : Option String) :
    (∃ rows : List Task, rows.Pairwise Task.StandsBefore ∧
      (∀ task, task ∈ rows ↔ task ∈ store.tasks ∧ task.IsSoughtBy term) ∧
      ∀ limit, store.list limit (Search.ofText? term) = rows.take (min limit (2 ^ 63 - 1))) ∧
    (∀ smaller limit, smaller ≤ limit →
      store.list smaller (Search.ofText? term) <+: store.list limit (Search.ofText? term)) ∧
    ∀ text textElse limit,
      (trimmed text).toList.map Char.toLower = (trimmed textElse).toList.map Char.toLower →
        store.list limit (Search.ofText? (some text)) =
          store.list limit (Search.ofText? (some textElse)) := by
  refine ⟨⟨listed (store.tasks.filter fun task => decide ((Search.ofText? term).Admits task)),
    store.pairwise_standsBefore List.filter_sublist, fun task => ?_, fun limit => rfl⟩, ?_, ?_⟩
  · rw [(listed_perm _).mem_iff, List.mem_filter, decide_eq_true_eq, admits_iff_isSoughtBy]
  · intro smaller limit le
    exact List.take_prefix_take_left (by omega)
  · intro text textElse limit alike
    simp only [Search.ofText?, Option.map_some, Option.getD_some]
    exact list_congr store limit fun task => admits_iff_of_alike task alike

/-- The part of a text before the first null character, with the letters A to Z made small. -/
def beforeNull (text : String) : List Char :=
  (text.toList.takeWhile (· ≠ '\x00')).map Char.toLower

/-- A null character does not end a text: what stands behind it is found. -/
theorem list_finds_behind_null :
    (Store.empty.append { date := "20240101", title := "nul\x00Title" }).list 50
        (Search.ofText? (some "title")) =
      [{ id := some 1, date := "20240101", title := "nul\x00Title" }] ∧
    Date.ofSearch? (trimmed "title") = none ∧
    ¬ (beforeNull (trimmed "title") <:+: beforeNull "nul\x00Title" ∨
      beforeNull (trimmed "title") <:+: beforeNull "") := by
  decide +kernel

end Store

variable {store : Store} {task : Task} {limit : Nat} {date : Date}

/-- The text stands in the title or in the comment, where the letters A to Z are like small ones. -/
def Task.Mentions (task : Task) (text : String) : Prop :=
  ∃ field ∈ [task.title, task.comment], ∃ before after,
    field.toList.map Char.toLower = before ++ text.toList.map Char.toLower ++ after

theorem ofSearch?_trimmed (text : String) : Date.ofSearch? (trimmed text) = Date.ofSearch? text := by
  rw [Date.ofSearch?, trimmed, String.toList_ofList, trim_trim, Date.ofSearch?]

theorem isSoughtBy_iff_mentions (undated : Date.ofSearch? text = none) :
    task.IsSoughtBy (some text) ↔ task.Mentions (trimmed text) := by
  simp only [Task.IsSoughtBy, Option.some.injEq, forall_eq', ofSearch?_trimmed, undated]
  refine ⟨fun sought => ?_, fun mentions _ => mentions⟩
  by_cases empty : trimmed text = ""
  · exact ⟨task.title, by simp, [], task.title.toList.map Char.toLower, by simp [empty]⟩
  · exact sought empty

theorem isSoughtBy_iff_date_eq (dated : Date.ofSearch? text = some date) :
    task.IsSoughtBy (some text) ↔ task.date = date.written := by
  have nonempty : trimmed text ≠ "" := by
    intro empty
    rw [← ofSearch?_trimmed, empty] at dated
    cases dated
  simp only [Task.IsSoughtBy, Option.some.injEq, forall_eq', ofSearch?_trimmed, dated]
  exact forall_prop_of_true nonempty

theorem ofSearch?_of_otherShape (otherShape : ¬ Date.HasDateShape (trim text.toList)) :
    Date.ofSearch? text = some date ↔ date.NamesLoosely (trim text.toList) := by
  rw [Date.ofSearch?_eq_some_iff]
  refine or_iff_right fun read => otherShape (.written ?_)
  obtain ⟨length, digits, -⟩ := Date.digits_of_ofDigits? read
  exact ⟨length, digits⟩

namespace Store

theorem mem_list_iff (roomy : store.tasks.length ≤ min limit (2 ^ 63 - 1)) :
    task ∈ store.list limit (Search.ofText text) ↔ task ∈ store.tasks ∧ task.IsSoughtBy (some text) := by
  let admitted := store.tasks.filter fun task => decide ((Search.ofText text).Admits task)
  have fits : (listed admitted).length ≤ min limit largestInteger := by
    have few : admitted.length ≤ store.tasks.length := List.length_filter_le _ _
    rw [(listed_perm admitted).length_eq, largestInteger]
    omega
  have admits := @admits_iff_isSoughtBy task (some text)
  rw [Search.ofText?, Option.map_some, Option.getD_some] at admits
  rw [list, List.take_of_length_le fits, (listed_perm admitted).mem_iff, List.mem_filter, decide_eq_true_eq,
    admits]

/-- A text with the shape of no date, in a list that has room for all tasks. If it names no date, the
tasks that mention it are listed. Otherwise the list has the tasks of that date, whatever their titles and
comments are. -/
theorem list_of_otherShape (otherShape : ¬ Date.HasDateShape (trim text.toList)) :
    ((∀ date : Date, ¬ date.NamesLoosely (trim text.toList)) →
      Date.ofSearch? text = none ∧
        ∀ (store : Store) limit, store.tasks.length ≤ min limit (2 ^ 63 - 1) → ∀ task,
          task ∈ store.list limit (Search.ofText text) ↔
            task ∈ store.tasks ∧ task.Mentions (trimmed text)) ∧
    ∀ date : Date, date.NamesLoosely (trim text.toList) →
      Date.ofSearch? text = some date ∧
        ∀ (store : Store) limit, store.tasks.length ≤ min limit (2 ^ 63 - 1) → ∀ task,
          task ∈ store.list limit (Search.ofText text) ↔
            task ∈ store.tasks ∧ task.date = date.written := by
  constructor
  · intro unnamed
    have undated : Date.ofSearch? text = none :=
      Option.eq_none_iff_forall_ne_some.mpr fun date read =>
        unnamed date ((ofSearch?_of_otherShape otherShape).mp read)
    refine ⟨undated, fun store limit roomy task => ?_⟩
    rw [mem_list_iff roomy, isSoughtBy_iff_mentions undated]
  · intro date names
    have dated : Date.ofSearch? text = some date := (ofSearch?_of_otherShape otherShape).mpr names
    refine ⟨dated, fun store limit roomy task => ?_⟩
    rw [mem_list_iff roomy, isSoughtBy_iff_date_eq dated]

theorem list_of_otherShape_section :
    ∃ store : Store, ¬ Date.HasDateShape (trim " 4.2".toList) ∧
      (∀ date : Date, ¬ date.NamesLoosely (trim " 4.2".toList)) ∧
      store.tasks.length ≤ min 50 (2 ^ 63 - 1) ∧
      (∀ task, task ∈ store.list 50 (Search.ofText " 4.2") ↔
        task ∈ store.tasks ∧ task.Mentions (trimmed " 4.2")) ∧
      store.list 50 (Search.ofText " 4.2") =
        [{ id := some 1, date := "20240101", title := "Review section 4.2" }] := by
  let store := (Store.empty.append { date := "20240101", title := "Review section 4.2" }).append
    { date := "20240204", title := "Other" }
  have otherShape : ¬ Date.HasDateShape (trim " 4.2".toList) := by
    intro shape
    have length := shape.length_eq
    revert length
    decide
  have unnamed (date : Date) : ¬ date.NamesLoosely (trim " 4.2".toList) := by
    rw [← Date.ofDotted?_eq_some_iff, show Date.ofDotted? (trim " 4.2".toList) = none by decide +kernel]
    simp
  have roomy : store.tasks.length ≤ min 50 (2 ^ 63 - 1) := by decide
  exact ⟨store, otherShape, unnamed, roomy,
    ((list_of_otherShape otherShape).1 unnamed).2 store 50 roomy, by decide +kernel⟩

/-- The number of a version is taken for a date of the year 3, and the task that mentions it is not found.
-/
theorem list_misses_versionNumber :
    ¬ Date.HasDateShape (trim "1.2.3".toList) ∧
    Date.ofSearch? "1.2.3" = some (Date.firstOf 3 2 (by decide) (by decide)) ∧
    ∃ (store : Store) (task : Task), store.tasks = [task] ∧ task.Mentions (trimmed "1.2.3") ∧
      store.list 50 (Search.ofText "1.2.3") = [] := by
  have otherShape : ¬ Date.HasDateShape (trim "1.2.3".toList) := by
    intro shape
    have length := shape.length_eq
    revert length
    decide
  refine ⟨otherShape, by decide +kernel,
    Store.empty.append { date := "20240101", title := "Release 1.2.3" }, _, rfl, ?_, by decide +kernel⟩
  exact ⟨"Release 1.2.3", by decide, "release ".toList, [], by decide +kernel⟩

end Store

end Agenda
