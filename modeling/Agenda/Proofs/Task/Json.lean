import Agenda.Proofs.Json
import Agenda.Task.Json

/-! A task is read from its members in any order and in any layout, as long as each of them is taken. A
member that is left out is one for which the reader puts the same text in. -/

namespace Agenda.Task

open Json Text

variable {task : Task} {draft after last : Draft} {member : Member} {members more : List Member}
  {gap trail rest chars : List Char}

theorem endsNumber_append {mark : Char} (space : AllSpace trail) (ends : EndsNumber (mark :: rest)) :
    EndsNumber (trail ++ mark :: rest) := by
  cases trail with
  | nil => exact ends
  | cons first trail =>
      have blank := isSpace_iff.mp (space first (by simp))
      apply endsNumber_cons
      rcases blank with rfl | rfl | rfl | rfl <;> decide

theorem readTextField_quoted (space : AllSpace gap) (text : String) (rest : List Char) :
    readTextField (gap ++ quoted text ++ rest) = .ok (text, rest) := by
  unfold readTextField
  rw [skipSpace_quoted space]
  exact readText_escapes text rest

theorem readIdField_null (space : AllSpace gap) (rest : List Char) :
    readIdField (gap ++ Scalar.null.written ++ rest) = .ok (none, rest) := by
  have found : skipSpace (gap ++ Scalar.null.written ++ rest) = 'n' :: 'u' :: 'l' :: 'l' :: rest := by
    rw [List.append_assoc]
    exact skipSpace_append_cons space rfl
  unfold readIdField
  rw [found]
  rfl

theorem plain?_of_isDigit {char : Char} (digit : char.isDigit = true) :
    plain? char = some .number := by
  unfold plain?
  split
  · cases digit
  · cases digit
  · cases digit
  · rfl
  · cases digit
  · exact if_pos digit

theorem isSpace_of_isDigit {char : Char} (digit : char.isDigit = true) : isSpace char = false := by
  cases blank : isSpace char with
  | false => rfl
  | true => rcases isSpace_iff.mp blank with rfl | rfl | rfl | rfl <;> cases digit

theorem exists_repr_eq_cons (value : Int) :
    ∃ first digits, value.repr.toList = first :: digits ∧ first ≠ 'n' ∧ plain? first = some .number ∧
      isSpace first = false := by
  cases value with
  | ofNat number =>
      have isDigits := isDigits_toDigits number
      obtain ⟨first, digits, written⟩ := List.exists_cons_of_ne_nil isDigits.1
      have digit : first.isDigit = true := isDigits.2 first (by simp [written])
      refine ⟨first, digits, ?_, ?_, plain?_of_isDigit digit, isSpace_of_isDigit digit⟩
      · rw [Int.repr, Nat.toList_repr, written]
      · rintro rfl
        cases digit
  | negSucc number =>
      refine ⟨'-', (number + 1).repr.toList, ?_, by decide, rfl, rfl⟩
      rw [Int.repr, String.toList_append]
      rfl

theorem readIdField_integer {value : Int} (space : AllSpace gap) (integer64 : IsInteger64 value)
    (ends : EndsNumber rest) :
    readIdField (gap ++ (Scalar.integer value).written ++ rest) = .ok (some value, rest) := by
  have read := readNumber_written integer64 ends
  obtain ⟨first, digits, written, notNull, number, shown⟩ := exists_repr_eq_cons value
  rw [written, List.cons_append] at read
  have found : skipSpace (gap ++ (Scalar.integer value).written ++ rest) = first :: (digits ++ rest) := by
    rw [List.append_assoc, Scalar.written, written]
    exact skipSpace_append_cons space shown
  unfold readIdField
  rw [found]
  simp only [if_neg notNull, if_pos number, read]

/-- What a member does to a draft that lacks it. -/
inductive Draft.Takes (draft : Draft) : Member → Draft → Prop where
  | null : draft.id = none → Takes draft ("id", .null) { draft with id := some none }
  | id {value : Int} : draft.id = none → IsInteger64 value →
      Takes draft ("id", .integer value) { draft with id := some (some value) }
  | date {text : String} : draft.date = none →
      Takes draft ("date", .text text) { draft with date := some text }
  | title {text : String} : draft.title = none →
      Takes draft ("title", .text text) { draft with title := some text }
  | comment {text : String} : draft.comment = none →
      Takes draft ("comment", .text text) { draft with comment := some text }
  | rule {text : String} : draft.rule = none →
      Takes draft ("repeat", .text text) { draft with rule := some text }

theorem readOnce_none {α : Type} (read : List Char → Except Fault (α × List Char))
    (chars : List Char) : readOnce none read (':' :: chars) = read chars :=
  rfl

theorem Draft.Takes.readNamed (takes : draft.Takes member after) (space : AllSpace gap)
    (ends : EndsNumber rest) :
    draft.readNamed member.1 (':' :: gap ++ member.2.written ++ rest) = .ok (after, rest) := by
  cases takes with
  | null free =>
      simp only [Draft.readNamed, free, List.cons_append, readOnce_none, readIdField_null space]
      rfl
  | id free integer64 =>
      simp only [Draft.readNamed, free, List.cons_append, readOnce_none,
        readIdField_integer space integer64 ends]
      rfl
  | date free | title free | comment free | rule free =>
      simp only [Draft.readNamed, free, List.cons_append, readOnce_none, Scalar.written,
        readTextField_quoted space]
      rfl

theorem Draft.Takes.readMember (takes : draft.Takes member after) (space : AllSpace gap)
    (ends : EndsNumber rest) :
    draft.readMember (member.1.toList.flatMap escape ++
      '"' :: (':' :: gap ++ member.2.written ++ rest)) = .ok (after, rest) := by
  unfold Draft.readMember
  rw [readText_escapes]
  exact takes.readNamed space ends

inductive Draft.TakesAll : Draft → List Member → Draft → Prop where
  | nil {draft : Draft} : TakesAll draft [] draft
  | cons {draft next after : Draft} {member : Member} {members : List Member} :
      draft.Takes member next → TakesAll next members after → TakesAll draft (member :: members) after

theorem Draft.TakesAll.append (takes : draft.TakesAll members after)
    (further : after.TakesAll more last) : draft.TakesAll (members ++ more) last := by
  induction takes with
  | nil => exact further
  | cons first _ ih => exact .cons first (ih further)

theorem Draft.readMembers_last {inner left : List Char} (read : draft.readMember inner = .ok (after, rest))
    (closed : skipSpace rest = '}' :: left) : draft.readMembers inner = .ok (after, left) := by
  rw [Draft.readMembers]
  split
  · rename_i failed
    cases failed.symm.trans read
  · rename_i readToo
    cases readToo.symm.trans read
    split
    all_goals
      rename_i start
      cases start.symm.trans closed
    · rfl
    · rename_i notClosed _
      exact absurd rfl notClosed

theorem Draft.readMembers_next {inner next innerNext : List Char}
    (read : draft.readMember inner = .ok (after, rest)) (comma : skipSpace rest = ',' :: next)
    (quote : skipSpace next = '"' :: innerNext) :
    draft.readMembers inner = after.readMembers innerNext := by
  have taken := takeMark_of_skipSpace quote
  rw [Draft.readMembers]
  split
  · rename_i failed
    cases failed.symm.trans read
  · rename_i readToo
    cases readToo.symm.trans read
    split
    all_goals
      rename_i start
      cases start.symm.trans comma
    · split
      · rename_i failed
        cases failed.symm.trans taken
      · rename_i takenToo
        cases takenToo.symm.trans taken
        rfl
    · rename_i _ noComma
      exact absurd rfl noComma

theorem Draft.TakesAll.readMembers (takes : draft.TakesAll members after)
    (laid : LaysOut members chars) (rest : List Char) :
    ∃ inner, skipSpace (chars ++ rest) = '"' :: inner ∧ draft.readMembers inner = .ok (after, rest) := by
  induction laid generalizing draft with
  | @last member lead gap trail leadSpace gapSpace trailSpace =>
      cases takes with
      | cons first nothing =>
          cases nothing
          have ends : EndsNumber (trail ++ '}' :: rest) :=
            endsNumber_append trailSpace (endsNumber_cons (by decide))
          have starts := skipSpace_writtenMember leadSpace (':' :: gap) member (trail ++ '}' :: rest)
          have shape : lead ++ writtenMember (':' :: gap) member ++ trail ++ ['}'] ++ rest =
              lead ++ writtenMember (':' :: gap) member ++ (trail ++ '}' :: rest) := by simp
          rw [shape]
          exact ⟨_, starts, Draft.readMembers_last (first.readMember gapSpace ends)
            (skipSpace_append_cons trailSpace rfl)⟩
  | @next member members lead gap trail text leadSpace gapSpace trailSpace _ ih =>
      cases takes with
      | cons first further =>
          obtain ⟨innerNext, quote, readNext⟩ := ih further
          have ends : EndsNumber (trail ++ ',' :: (text ++ rest)) :=
            endsNumber_append trailSpace (endsNumber_cons (by decide))
          have starts := skipSpace_writtenMember leadSpace (':' :: gap) member
            (trail ++ ',' :: (text ++ rest))
          have shape : lead ++ writtenMember (':' :: gap) member ++ trail ++ ',' :: text ++ rest =
              lead ++ writtenMember (':' :: gap) member ++ (trail ++ ',' :: (text ++ rest)) := by simp
          have read := Draft.readMembers_next (first.readMember gapSpace ends)
            (skipSpace_append_cons trailSpace rfl) quote
          rw [shape]
          exact ⟨_, starts, read.trans readNext⟩

theorem readObject_of_laysOut (takes : ({} : Draft).TakesAll members draft)
    (finishes : draft.finish = .ok task) (laid : LaysOut members chars) (rest : List Char) :
    readObject (chars ++ rest) = .ok (task, rest) := by
  obtain ⟨inner, starts, read⟩ := takes.readMembers laid rest
  unfold readObject
  rw [starts]
  simp only [read, finishes]
  rfl

def optional (text : String) : Option String := if text = "" then none else some text

theorem getD_optional (text : String) : (optional text).getD "" = text := by
  unfold optional
  split
  · rename_i empty
    rw [empty]
    rfl
  · rfl

theorem takesAll_comment (free : draft.comment = none) (text : String) :
    draft.TakesAll (optionalMember "comment" text) { draft with comment := optional text } := by
  unfold optionalMember optional
  split
  · rw [← free]
    exact .nil
  · exact .cons (.comment free) .nil

theorem takesAll_rule (free : draft.rule = none) (text : String) :
    draft.TakesAll (optionalMember "repeat" text) { draft with rule := optional text } := by
  unfold optionalMember optional
  split
  · rw [← free]
    exact .nil
  · exact .cons (.rule free) .nil

theorem takes_id (free : draft.id = none) (integer64 : ∀ value ∈ task.id, IsInteger64 value) :
    draft.Takes ("id", task.idScalar) { draft with id := some task.id } := by
  unfold idScalar
  cases given : task.id with
  | none => exact .null free
  | some value => exact .id free (integer64 value given)

/-- The draft of which the task is made. -/
def asDraft (task : Task) : Draft where
  id := some task.id
  date := some task.date
  title := some task.title
  comment := optional task.comment
  rule := optional task.rule

theorem finish_asDraft (task : Task) : task.asDraft.finish = .ok task := by
  simp only [asDraft, Draft.finish, getD_optional]
  rfl

theorem takesAll_members (integer64 : ∀ value ∈ task.id, IsInteger64 value) :
    ({} : Draft).TakesAll task.members task.asDraft := by
  have fields : ({} : Draft).TakesAll
      [("id", task.idScalar), ("date", .text task.date), ("title", .text task.title)]
      { id := some task.id, date := some task.date, title := some task.title } :=
    .cons (takes_id rfl integer64) (.cons (.date rfl) (.cons (.title rfl) .nil))
  exact (fields.append (takesAll_comment rfl task.comment)).append (takesAll_rule rfl task.rule)

theorem takesAll_sortedMembers (integer64 : ∀ value ∈ task.id, IsInteger64 value) :
    ({} : Draft).TakesAll task.sortedMembers task.asDraft := by
  have comment : ({} : Draft).TakesAll (optionalMember "comment" task.comment)
      { comment := optional task.comment } := takesAll_comment rfl task.comment
  have fields : ({ comment := optional task.comment } : Draft).TakesAll
      [("date", .text task.date), ("id", task.idScalar)]
      { id := some task.id, date := some task.date, comment := optional task.comment } :=
    .cons (.date rfl) (.cons (takes_id rfl integer64) .nil)
  exact ((comment.append fields).append (takesAll_rule rfl task.rule)).append
    (.cons (.title rfl) .nil)

theorem members_ne_nil (task : Task) : task.members ≠ [] := by
  simp [members]

theorem sortedMembers_ne_nil (task : Task) : task.sortedMembers ≠ [] := by
  simp [sortedMembers]

/-- A task is read from any layout of its members, with space behind it. -/
theorem ofJson_of_laysOut (integer64 : ∀ value ∈ task.id, IsInteger64 value)
    (laid : LaysOut task.members chars) (space : AllSpace trail) :
    ofJson (String.ofList ('{' :: chars ++ trail)) = .ok task := by
  have read := readObject_of_laysOut (takesAll_members integer64) (finish_asDraft task) laid trail
  have starts : skipSpace ('{' :: chars ++ trail) = '{' :: (chars ++ trail) := rfl
  simp only [ofJson, String.toList_ofList, starts, read, if_pos (skipSpace_eq_nil space)]

theorem ofJson_json (integer64 : ∀ value ∈ task.id, IsInteger64 value) : ofJson task.json = .ok task := by
  obtain ⟨chars, written, laid⟩ := exists_compact_eq task.members_ne_nil
  have read := ofJson_of_laysOut integer64 laid allSpace_nil
  rw [List.append_nil, ← written] at read
  exact read

theorem ofJson_indentedJson (integer64 : ∀ value ∈ task.id, IsInteger64 value)
    (space : AllSpace trail) : ofJson (task.indentedJson ++ String.ofList trail) = .ok task := by
  obtain ⟨chars, written, laid⟩ := exists_indented_eq task.members_ne_nil 0
  have read := ofJson_of_laysOut integer64 laid space
  rw [← written, String.ofList_append] at read
  exact read

end Agenda.Task
