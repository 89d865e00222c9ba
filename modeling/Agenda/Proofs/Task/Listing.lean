import Agenda.Proofs.Task.Json

namespace Agenda.Task

open Json Text

variable {tasks : List Task} {task : Task} {draft after : Draft} {lead trail rest chars : List Char}

theorem Draft.length_of_readMembers (read : draft.readMembers chars = .ok (after, rest)) :
    rest.length < chars.length := by
  fun_induction Draft.readMembers draft chars with
  | case1 | case2 | case4 | case6 => cases read
  | case3 _ chars _ afterMember _ shorter left closed =>
      have closedShorter := length_of_skipSpace closed
      cases read
      omega
  | case5 _ _ _ _ _ shorter _ _ commaShorter _ _ quoteShorter ih =>
      have innerShorter := ih read
      omega

/-- Reads a task that is written as an object. -/
def readElement (chars : List Char) : Except Fault (Task × List Char) :=
  match skipSpace chars with
  | '{' :: rest => readObject rest
  | _ => .error (refusal chars)

theorem length_of_readObject (read : readObject chars = .ok (task, rest)) :
    rest.length < chars.length := by
  unfold readObject at read
  split at read
  · cases read
  · cases read
  · rename_i quoted
    have quotedShorter := length_of_skipSpace quoted
    split at read
    · cases read
    · rename_i draft left members
      have membersShorter := Draft.length_of_readMembers members
      cases finished : draft.finish with
      | error fault =>
          rw [finished] at read
          cases read
      | ok whole =>
          rw [finished] at read
          cases read
          omega
  · cases read

theorem length_of_readElement (read : readElement chars = .ok (task, rest)) :
    rest.length < chars.length := by
  unfold readElement at read
  split at read
  · rename_i opened
    have openedShorter := length_of_skipSpace opened
    have objectShorter := length_of_readObject read
    omega
  · cases read

/-- Reads the elements of a list up to its closing bracket, one at least. -/
def readElements (chars : List Char) : Except Fault (List Task × List Char) :=
  match element : readElement chars with
  | .error fault => .error fault
  | .ok (task, rest) =>
      have := length_of_readElement element
      match start : skipSpace rest with
      | [] => .error .endOfText
      | ']' :: rest => .ok ([task], rest)
      | ',' :: rest =>
          have := length_of_skipSpace start
          match readElements rest with
          | .error fault => .error fault
          | .ok (tasks, rest) => .ok (task :: tasks, rest)
      | _ :: _ => .error .malformed
termination_by chars.length

/-- Reads a list of tasks after its opening bracket. -/
def readListed (chars : List Char) : Except Fault (List Task × List Char) :=
  match skipSpace chars with
  | ']' :: rest => .ok ([], rest)
  | _ => readElements chars

/-- Reads the tasks that a document lists. -/
def listOfJson (text : String) : Except Fault (List Task) := do
  let (name, rest) ← readText (← takeMark '"' (← takeMark '{' text.toList))
  if name ≠ "tasks" then throw .mismatch
  let (tasks, rest) ← readListed (← takeMark '[' (← takeMark ':' rest))
  if skipSpace (← takeMark '}' rest) ≠ [] then throw .malformed
  return tasks

theorem readElement_indented (space : AllSpace lead) (depth : Nat)
    (integer64 : ∀ value ∈ task.id, IsInteger64 value) (rest : List Char) :
    readElement (lead ++ indented depth task.sortedMembers ++ rest) = .ok (task, rest) := by
  obtain ⟨inner, written, laid⟩ := exists_indented_eq task.sortedMembers_ne_nil depth
  have starts : skipSpace (lead ++ indented depth task.sortedMembers ++ rest) = '{' :: (inner ++ rest) := by
    rw [written, List.append_assoc, List.cons_append]
    exact skipSpace_append_cons space rfl
  unfold readElement
  rw [starts]
  exact readObject_of_laysOut (takesAll_sortedMembers integer64) (finish_asDraft task) laid rest

theorem readElements_last {left : List Char} (element : readElement chars = .ok (task, rest))
    (closed : skipSpace rest = ']' :: left) : readElements chars = .ok ([task], left) := by
  rw [readElements]
  split
  · rename_i failed
    cases failed.symm.trans element
  · rename_i elementToo
    cases elementToo.symm.trans element
    split
    all_goals
      rename_i start
      cases start.symm.trans closed
    · rfl
    · rename_i notClosed _
      exact absurd rfl notClosed

theorem readElements_next {next left : List Char} (element : readElement chars = .ok (task, rest))
    (comma : skipSpace rest = ',' :: next) (more : readElements next = .ok (tasks, left)) :
    readElements chars = .ok (task :: tasks, left) := by
  rw [readElements]
  split
  · rename_i failed
    cases failed.symm.trans element
  · rename_i elementToo
    cases elementToo.symm.trans element
    split
    all_goals
      rename_i start
      cases start.symm.trans comma
    · rw [more]
    · rename_i _ noComma
      exact absurd rfl noComma

theorem readElements_intercalate (leadSpace : AllSpace lead) (trailSpace : AllSpace trail) (depth : Nat)
    (rest : List Char) (first : Task)
    (integer64 : ∀ task ∈ first :: tasks, ∀ value ∈ task.id, IsInteger64 value) :
    readElements ([','].intercalate ((first :: tasks).map fun task =>
        lead ++ indented depth task.sortedMembers) ++ trail ++ ']' :: rest) =
      .ok (first :: tasks, rest) := by
  induction tasks generalizing first with
  | nil =>
      have element := readElement_indented leadSpace depth (integer64 first (by simp))
        (trail ++ ']' :: rest)
      rw [List.map_singleton, List.intercalate_singleton, List.append_assoc]
      exact readElements_last element (skipSpace_append_cons trailSpace rfl)
  | cons second tasks ih =>
      have more := ih second fun task member => integer64 task (List.mem_cons_of_mem first member)
      rw [List.map_cons] at more
      rw [List.map_cons, List.map_cons, List.intercalate_cons_cons]
      simp only [List.append_assoc, List.cons_append, List.nil_append] at more ⊢
      have element := readElement_indented leadSpace depth (integer64 first (by simp))
      simp only [List.append_assoc] at element
      exact readElements_next (element _) (skipSpace_append_cons allSpace_nil rfl) more

theorem readListed_of_readElements (read : readElements chars = .ok (tasks, rest)) :
    readListed chars = .ok (tasks, rest) := by
  unfold readListed
  split
  · rename_i closed
    have element : readElement chars = .error (refusal chars) := by
      unfold readElement
      rw [closed]
      rfl
    rw [readElements] at read
    split at read
    · cases read
    · rename_i elementToo
      cases element.symm.trans elementToo
  · exact read

theorem exists_block_eq (depth : Nat) (integer64 : ∀ task ∈ tasks, ∀ value ∈ task.id, IsInteger64 value)
    (rest : List Char) :
    ∃ inner, block '[' ']' depth (tasks.map fun task => indented (depth + 1) task.sortedMembers) =
      '[' :: inner ∧ readListed (inner ++ rest) = .ok (tasks, rest) := by
  cases tasks with
  | nil => exact ⟨[']'], rfl, rfl⟩
  | cons first tasks =>
      have read := readElements_intercalate (allSpace_newline (depth + 1)) (allSpace_newline depth)
        (depth + 1) rest first integer64
      refine ⟨_, by rw [List.map_cons, block_cons], readListed_of_readElements ?_⟩
      rw [← List.map_cons (f := fun task : Task => indented (depth + 1) task.sortedMembers), List.map_map]
      simpa only [Function.comp_def, List.append_assoc, List.cons_append, List.nil_append] using read

/-- The document in which tasks are listed is read as these tasks. -/
theorem listOfJson_listJson (integer64 : ∀ task ∈ tasks, ∀ value ∈ task.id, IsInteger64 value)
    (space : AllSpace trail) :
    listOfJson (listJson tasks ++ String.ofList trail) = .ok tasks := by
  obtain ⟨inner, written, read⟩ := exists_block_eq 1 integer64 ('\n' :: indentation 0 ++ '}' :: trail)
  let list := ':' :: ([' '] ++ '[' :: (inner ++ ('\n' :: indentation 0 ++ '}' :: trail)))
  have text : (listJson tasks ++ String.ofList trail).toList =
      '{' :: ('\n' :: indentation 1 ++ '"' :: ("tasks".toList.flatMap escape ++ '"' :: list)) := by
    rw [listJson, written, block_cons]
    simp [quoted, list]
  have opened := takeMark_append '{' allSpace_nil rfl
    ('\n' :: indentation 1 ++ '"' :: ("tasks".toList.flatMap escape ++ '"' :: list))
  rw [List.nil_append, ← text] at opened
  have quote := takeMark_append '"' (allSpace_newline 1) rfl
    ("tasks".toList.flatMap escape ++ '"' :: list)
  have name := readText_escapes "tasks" list
  have colon : takeMark ':' list = .ok ([' '] ++ '[' :: (inner ++ ('\n' :: indentation 0 ++ '}' :: trail))) :=
    takeMark_append ':' allSpace_nil rfl _
  have bracket := takeMark_append '[' allSpace_blank rfl
    (inner ++ ('\n' :: indentation 0 ++ '}' :: trail))
  have closed := takeMark_append '}' (allSpace_newline 0) rfl trail
  simp only [listOfJson, opened, quote, name, colon, bracket, read, closed, skipSpace_eq_nil space,
    bind, Except.bind]
  rfl

end Agenda.Task
