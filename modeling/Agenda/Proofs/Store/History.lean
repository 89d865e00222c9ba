import Agenda.Database
import Agenda.Proofs.Store.Lookup
import Mathlib.Data.List.Basic
import Mathlib.Data.List.Induction

/-! `Recorded` reads off a history of steps what a row holds. The rows of a fresh database are those that
are recorded, and all answers follow from this. -/

namespace Agenda

namespace Step

def number? : Step → Option Int
  | .query (.get id) | .query (.move id _) | .query (.delete id) => some id
  | .query (.update task) => task.id
  | .setUp | .query (.create _) | .query (.list _ _) => none

/-- The step asks for a change of a row that is there. -/
def AsksForChange : Step → Prop
  | .query (.update _) | .query (.move _ _) | .query (.delete _) => True
  | .setUp | .query (.create _) | .query (.get _) | .query (.list _ _) => False

def isCreation : Step → Bool
  | .query (.create _) => true
  | _ => false

/-- What a step makes of the row with a number, as long as it is there. -/
def revise (id : Int) (task : Task) : Step → Task
  | .query (.update given) => if given.id = some id then given else task
  | .query (.move other date) => if other = id then { task with date := date } else task
  | _ => task

end Step

/-- The number that a step gave to the row that it created. -/
def Answer.number? : Answer → Option Int
  | .created task => task.id
  | _ => none

def creations (history : List Step) : Nat := history.countP Step.isCreation

/-- The row with a number was created and not deleted, and the task in it is the one that was given then,
with the changes that came later. -/
def Recorded (history : List Step) (id : Int) (task : Task) : Prop :=
  ∃ before given later, history = before ++ .query (.create given) :: later ∧
    id = (creations before + 1 : Nat) ∧ .query (.delete id) ∉ later ∧
    task = later.foldl (Step.revise id) { given with id := some id }

/-- The row with a number is not there: it was never created, or it was and is deleted since. -/
def Missing (history : List Step) (id : Int) : Prop :=
  id < 1 ∨ creations history < id ∨
    ∃ before later, history = before ++ .query (.delete id) :: later ∧ id ≤ creations before

variable {history : List Step} {step : Step} {query : Query} {id number : Int} {task given : Task}
  {store : Store}

theorem creations_append_singleton (history : List Step) (step : Step) :
    creations (history ++ [step]) = creations history + if step.isCreation then 1 else 0 := by
  simp [creations, List.countP_append, List.countP_singleton]

theorem not_recorded_nil (id : Int) (task : Task) : ¬ Recorded [] id task := by
  rintro ⟨before, given, later, parts, -⟩
  simp at parts

/-- What the last step of a history has to do with a row: it may have created it, or it revised it and was
not its end. -/
theorem recorded_append_singleton : Recorded (history ++ [step]) id task ↔
    (∃ given, step = .query (.create given) ∧ id = (creations history + 1 : Nat) ∧
      task = { given with id := some id }) ∨
    ∃ earlier, Recorded history id earlier ∧ step ≠ .query (.delete id) ∧
      task = step.revise id earlier := by
  constructor
  · rintro ⟨before, given, later, parts, number, kept, result⟩
    rcases List.eq_nil_or_concat' later with rfl | ⟨init, last, rfl⟩
    · obtain ⟨rfl, same⟩ := List.append_inj' parts rfl
      exact .inl ⟨given, List.singleton_inj.mp same, number, result⟩
    · rw [← List.cons_append, ← List.append_assoc] at parts
      obtain ⟨rfl, same⟩ := List.append_inj' parts rfl
      cases List.singleton_inj.mp same
      simp only [List.mem_append, List.mem_singleton, not_or] at kept
      rw [List.foldl_append] at result
      exact .inr ⟨_, ⟨before, given, init, rfl, number, kept.1, rfl⟩, Ne.symm kept.2, result⟩
  · rintro (⟨given, rfl, number, result⟩ | ⟨earlier, recorded, notDeleted, result⟩)
    · exact ⟨history, given, [], rfl, number, List.not_mem_nil, result⟩
    · obtain ⟨before, given, later, rfl, number, kept, rfl⟩ := recorded
      refine ⟨before, given, later ++ [step], by simp, number, ?_, ?_⟩
      · simp [kept, Ne.symm notDeleted]
      · rw [result, List.foldl_append]
        rfl

theorem creations_append (before later : List Step) :
    creations (before ++ later) = creations before + creations later :=
  List.countP_append

theorem not_missing_of_recorded (recorded : Recorded history id task) : ¬ Missing history id := by
  obtain ⟨before, given, later, rfl, number, kept, -⟩ := recorded
  have counted : creations (before ++ .query (.create given) :: later) =
      creations before + (creations later + 1) := by
    rw [creations_append]
    exact congrArg _ (List.countP_cons_of_pos rfl)
  rintro (notPositive | notCreated | ⟨prior, following, parts, created⟩)
  · omega
  · omega
  · rcases List.append_eq_append_iff.mp parts with ⟨gap, rfl, rest⟩ | ⟨gap, rfl, rest⟩
    · cases gap with
      | nil => cases rest
      | cons first gap =>
          rw [List.cons_append] at rest
          obtain ⟨-, rfl⟩ := List.cons.inj rest
          simp at kept
    · rw [creations_append] at number
      omega

theorem exists_recorded (present : ¬ Missing history id) : ∃ task, Recorded history id task := by
  -- From the last step back, since it is the last step of which `recorded_append_singleton` speaks.
  induction history using List.reverseRecOn with
  | nil =>
      simp only [Missing, creations, List.countP_nil, not_or] at present
      omega
  | append_singleton history step ih =>
      simp only [Missing, not_or, not_exists, not_and, Int.not_lt, Int.not_le] at present ih
      obtain ⟨pos, counted, deletedBefore⟩ := present
      by_cases last : id = (creations history + 1 : Nat)
      · obtain ⟨given, rfl⟩ : ∃ given, step = .query (.create given) := by
          rw [creations_append_singleton] at counted
          unfold Step.isCreation at counted
          split at counted
          · exact ⟨_, rfl⟩
          · simp only [Bool.false_eq_true, if_false, Nat.add_zero] at counted
            omega
        exact ⟨_, recorded_append_singleton.mpr (.inl ⟨given, rfl, last, rfl⟩)⟩
      · have earlier : id ≤ creations history := by
          rw [creations_append_singleton] at counted
          split at counted <;> omega
        have deletedEarlier : ∀ before later, history = before ++ .query (.delete id) :: later →
            creations before < id := by
          rintro before later rfl
          exact deletedBefore before (later ++ [step]) (by simp)
        have notDeleted : step ≠ .query (.delete id) := by
          rintro rfl
          have := deletedBefore history [] rfl
          omega
        obtain ⟨task, recorded⟩ := ih ⟨pos, earlier, deletedEarlier⟩
        exact ⟨_, recorded_append_singleton.mpr (.inr ⟨task, recorded, notDeleted, rfl⟩)⟩

theorem missing_iff : Missing history id ↔ ¬ ∃ task, Recorded history id task := by
  refine ⟨fun missing ⟨task, recorded⟩ => not_missing_of_recorded recorded missing, fun none => ?_⟩
  by_contra present
  exact none (exists_recorded present)

namespace Store

theorem get?_attempt_change (store : Store) (number : Int) (revise : Task → Task) (id : Int) :
    (store.attempt (if store.Holds number then .ok (store.change number revise)
      else .error (.notFound number))).1.get? id = (store.get? id).map (changed number revise) := by
  by_cases held : store.Holds number
  · rw [if_pos held]
    exact get?_change store number revise id
  · rw [if_neg held]
    simp only [attempt]
    cases found : store.get? id with
    | none => rfl
    | some task =>
        have elsewhere : task.id ≠ some number := by
          intro named
          exact held ⟨task, mem_of_get? found, named⟩
        rw [Option.map_some, changed, if_neg elsewhere]

theorem get?_attempt_delete (store : Store) (number id : Int) :
    (store.attempt (store.delete number)).1.get? id =
      if number = id then none else store.get? id := by
  by_cases held : store.Holds number
  · simp only [delete, if_pos held, attempt]
    split
    · rename_i same
      rw [same, get?_remove_self]
    · rename_i different
      exact get?_remove_of_ne (Ne.symm different)
  · simp only [delete, if_neg held, attempt]
    split
    · rename_i same
      rw [holds_iff, same] at held
      simpa [Option.eq_none_iff_forall_ne_some] using held
    · rfl

theorem get?_query (creates : (Step.query query).isCreation = false) (store : Store) (id : Int) :
    (store.query query).1.get? id =
      if query = .delete id then none
      else (store.get? id).map fun task => (Step.query query).revise id task := by
  have named_of_found {task : Task} (found : store.get? id = some task) : task.id = some id :=
    id_of_get? found
  cases query with
  | create task => cases creates
  | get number => simp [Store.query, Step.revise]
  | list limit search => simp [Store.query, Step.revise]
  | update given =>
      simp only [Store.query, update, Step.revise, reduceCtorEq, if_false]
      cases named : given.id with
      | none => simp [attempt]
      | some number =>
          simp only
          rw [get?_attempt_change]
          cases found : store.get? id with
          | none => rfl
          | some task =>
              simp only [Option.map_some, changed, named_of_found found, Option.some.injEq]
              by_cases same : number = id
              · subst same
                simp [← named]
              · simp [same, Ne.symm same]
  | move number date =>
      simp only [Store.query, updateDate, Step.revise, reduceCtorEq, if_false]
      rw [get?_attempt_change]
      cases found : store.get? id with
      | none => rfl
      | some task =>
          simp only [Option.map_some, changed, named_of_found found, Option.some.injEq]
          by_cases same : number = id
          · simp [same, ← named_of_found found]
          · simp [same, Ne.symm same]
  | delete number =>
      simp only [Store.query, Step.revise, Query.delete.injEq, Option.map_id_fun', id_eq]
      exact get?_attempt_delete store number id

theorem lastId_query (creates : (Step.query query).isCreation = false) (store : Store) :
    (store.query query).1.lastId = store.lastId := by
  cases query with
  | create task => cases creates
  | get number => rfl
  | list limit search => rfl
  | update given =>
      simp only [Store.query, update]
      split
      · rfl
      · split <;> rfl
  | move number date =>
      simp only [Store.query, updateDate]
      split <;> rfl
  | delete number =>
      simp only [Store.query, delete]
      split <;> rfl

theorem filter_tasks_change (store : Store) (id : Int) (revise : Task → Task) :
    (store.change id revise).tasks.filter (·.id ≠ some id) =
      store.tasks.filter (·.id ≠ some id) := by
  have same_id : (fun task : Task => decide (task.id ≠ some id)) ∘ changed id revise =
      fun task => decide (task.id ≠ some id) := by
    funext task
    simp only [Function.comp_apply, id_changed]
  rw [change, List.filter_map, same_id]
  refine (List.map_congr_left fun task member => ?_).trans (List.map_id _)
  have elsewhere : task.id ≠ some id := by simpa using (List.mem_filter.mp member).2
  rw [changed, if_neg elsewhere, id_eq]

theorem filter_tasks_attempt_change (store : Store) (id : Int) (revise : Task → Task) :
    (store.attempt (if store.Holds id then .ok (store.change id revise)
      else .error (.notFound id))).1.tasks.filter (·.id ≠ some id) =
        store.tasks.filter (·.id ≠ some id) := by
  split
  · exact filter_tasks_change store id revise
  · rfl

theorem filter_tasks_query (named : (Step.query query).number? = some id) (store : Store) :
    (store.query query).1.tasks.filter (·.id ≠ some id) = store.tasks.filter (·.id ≠ some id) := by
  cases query with
  | create task => cases named
  | get number => rfl
  | list limit search => cases named
  | update given =>
      simp only [Store.query, update, show given.id = some id from named]
      exact filter_tasks_attempt_change store id _
  | move number date =>
      cases named
      exact filter_tasks_attempt_change store id _
  | delete number =>
      cases named
      simp only [Store.query, delete]
      split
      · simp [attempt, remove, List.filter_filter]
      · rfl

theorem number?_answer_query (creates : (Step.query query).isCreation = false) (store : Store) :
    (store.query query).2.number? = none := by
  cases query with
  | create task => cases creates
  | get number => rfl
  | list limit search => rfl
  | update given =>
      simp only [Store.query, update]
      split
      · rfl
      · split <;> rfl
  | move number date =>
      simp only [Store.query, updateDate]
      split <;> rfl
  | delete number =>
      simp only [Store.query, delete]
      split <;> rfl

theorem query_of_holds (asks : (Step.query query).AsksForChange)
    (named : (Step.query query).number? = some id) (held : store.Holds id) :
    (store.query query).2 = .changed := by
  cases query with
  | create | get | list => exact asks.elim
  | update given => simp only [Store.query, update, show given.id = some id from named, if_pos held, attempt]
  | move number date =>
      cases named
      simp only [Store.query, updateDate, if_pos held, attempt]
  | delete number =>
      cases named
      simp only [Store.query, delete, if_pos held, attempt]

theorem query_of_not_holds (asks : (Step.query query).AsksForChange)
    (missing : ∀ id, (Step.query query).number? = some id → ¬ store.Holds id) :
    store.query query =
      (store, .failed (.task ((Step.query query).number?.elim .noId .notFound))) := by
  cases query with
  | create | get | list => exact asks.elim
  | update given =>
      simp only [Store.query, update, Step.number?]
      cases named : given.id with
      | none => rfl
      | some number =>
          simp only [if_neg (missing number named)]
          rfl
  | move number date =>
      simp only [Store.query, updateDate, if_neg (missing number rfl)]
      rfl
  | delete number =>
      simp only [Store.query, delete, if_neg (missing number rfl)]
      rfl

end Store

/-- The rows of a store are those that a history records. -/
structure Agrees (history : List Step) (store : Store) : Prop where
  lastId : store.lastId = creations history
  rows : ∀ id task, store.get? id = some task ↔ Recorded history id task

theorem agrees_empty : Agrees [] .empty where
  lastId := rfl
  rows id task := by simp [Store.get?_empty, not_recorded_nil]

theorem Agrees.afterSetUp (agrees : Agrees history store) : Agrees (history ++ [.setUp]) store where
  lastId := by simp [creations_append_singleton, agrees.lastId, Step.isCreation]
  rows id task := by simp [recorded_append_singleton, agrees.rows, Step.revise]

theorem Agrees.afterQuery (agrees : Agrees history store) (query : Query) :
    Agrees (history ++ [.query query]) (store.query query).1 := by
  cases creates : (Step.query query).isCreation with
  | true =>
      obtain ⟨given, rfl⟩ : ∃ given, query = .create given := by
        cases query <;> simp [Step.isCreation] at creates ⊢
      refine ⟨by simp [creations_append_singleton, creates, ← agrees.lastId, Store.query, Store.append],
        fun id task => ?_⟩
      rw [recorded_append_singleton, ← agrees.lastId]
      simp only [Store.query, Store.get?_append, ← agrees.rows, Step.revise]
      -- The next number was free, and no other number is concerned.
      by_cases next : id = (store.lastId + 1 : Nat)
      · subst next
        rw [if_pos rfl]
        simp only [Store.get?_next, Store.stamp, eq_comm]
        simp
      · simp only [next, if_false, false_and, and_false, exists_false, false_or, Step.query.injEq,
          reduceCtorEq, ne_eq, not_false_eq_true, true_and, eq_comm (a := task), exists_eq_right]
  | false =>
      refine ⟨by simp [creations_append_singleton, creates, Store.lastId_query creates, agrees.lastId],
        fun id task => ?_⟩
      have notCreated : ∀ given, Step.query query ≠ .query (.create given) := by
        rintro given same
        rw [same] at creates
        cases creates
      rw [Store.get?_query creates, recorded_append_singleton]
      simp only [notCreated, false_and, exists_false, false_or, ← agrees.rows, ne_eq,
        Step.query.injEq]
      by_cases deleted : query = .delete id
      · simp [deleted]
      · simp only [deleted, if_false, Option.map_eq_some_iff, not_false_eq_true, true_and,
          eq_comm (a := task)]

namespace Database

def ofStore (store : Store) : Database := ⟨some [currentVersion], some store⟩

theorem fresh_eq : fresh = ofStore .empty := rfl

theorem step_setUp (store : Store) : (ofStore store).step .setUp = (ofStore store, .version 1) := rfl

theorem step_query (store : Store) (query : Query) :
    (ofStore store).step (.query query) = (ofStore (store.query query).1, (store.query query).2) := rfl

theorem after_append_singleton (database : Database) (history : List Step) (step : Step) :
    database.after (history ++ [step]) = ((database.after history).step step).1 := by
  simp [after, List.foldl_append]

theorem answers_append_singleton (database : Database) (history : List Step) (step : Step) :
    database.answers (history ++ [step]) =
      database.answers history ++ [((database.after history).step step).2] := by
  induction history generalizing database with
  | nil => rfl
  | cons first rest ih => simp only [List.cons_append, answers, ih, after, List.foldl_cons]

/-- After any steps a fresh database is up to date, and its rows are those that the steps record. -/
theorem exists_agrees (history : List Step) :
    ∃ store, fresh.after history = ofStore store ∧ Agrees history store := by
  induction history using List.reverseRecOn with
  | nil => exact ⟨.empty, fresh_eq, agrees_empty⟩
  | append_singleton history step ih =>
      obtain ⟨store, reached, agrees⟩ := ih
      rw [after_append_singleton, reached]
      cases step with
      | setUp => exact ⟨store, rfl, agrees.afterSetUp⟩
      | query query => exact ⟨(store.query query).1, rfl, agrees.afterQuery query⟩

def rows (database : Database) : List Task := (database.store.map Store.tasks).getD []

def rowsBut (id : Int) (database : Database) : List Task := database.rows.filter (·.id ≠ some id)

/-- A fresh database goes on from a history of steps as the history says. -/
structure FollowsHistory (history : List Step) : Prop where
  numbers : (fresh.answers history).filterMap Answer.number? =
    (List.range (creations history)).map fun count => ((count + 1 : Nat) : Int)
  creates : ∀ task, ∃ stored,
    stored = { task with id := some ((creations history + 1 : Nat) : Int) } ∧
      ((fresh.after history).step (.query (.create task))).2 = .created stored ∧
        ((fresh.after history).step (.query (.create task))).1.rows =
          (fresh.after history).rows ++ [stored]
  /-- What is found under a number is what the history records of it, and nothing if the row is missing. -/
  gets : ∀ id, ∃ row, (fresh.after history).step (.query (.get id)) =
    (fresh.after history, .found row) ∧ (row = none ↔ Missing history id) ∧
      ∀ task, row = some task ↔ Recorded history id task
  others : ∀ step id, step.number? = some id →
    ((fresh.after history).step step).1.rowsBut id = (fresh.after history).rowsBut id
  changes : ∀ step id, step.AsksForChange → step.number? = some id → ¬ Missing history id →
    ((fresh.after history).step step).2 = .changed
  /-- It is refused, and nothing changes, if the row is missing or none is named. -/
  refusals : ∀ step, step.AsksForChange → (∀ id, step.number? = some id → Missing history id) →
      (fresh.after history).step step =
        (fresh.after history, .failed (.task (step.number?.elim .noId .notFound)))
  /-- Where the database is set up again does not matter to the answers of the other steps. -/
  setUps : (history.zip (fresh.answers history)).filter (fun pair => pair.1 ≠ .setUp) =
    (history.filter (· ≠ .setUp)).zip (fresh.answers (history.filter (· ≠ .setUp)))

theorem numbers_answers (history : List Step) :
    (fresh.answers history).filterMap Answer.number? =
      (List.range (creations history)).map fun count => ((count + 1 : Nat) : Int) := by
  induction history using List.reverseRecOn with
  | nil => rfl
  | append_singleton history step ih =>
      obtain ⟨store, reached, agrees⟩ := exists_agrees history
      rw [answers_append_singleton, List.filterMap_append, ih, reached, creations_append_singleton]
      cases creates : step.isCreation with
      | true =>
          obtain ⟨given, rfl⟩ : ∃ given, step = .query (.create given) := by
            unfold Step.isCreation at creates
            split at creates
            · exact ⟨_, rfl⟩
            · cases creates
          simp [step_query, Store.query, Answer.number?, Store.stamp, List.range_succ, agrees.lastId]
      | false =>
          cases step with
          | setUp => simp [step_setUp, Answer.number?]
          | query query => simp [step_query, Store.number?_answer_query creates]

theorem answers_without_setUps (store : Store) (history : List Step) :
    (history.zip ((ofStore store).answers history)).filter (fun pair => pair.1 ≠ .setUp) =
      (history.filter (· ≠ .setUp)).zip ((ofStore store).answers (history.filter (· ≠ .setUp))) := by
  induction history generalizing store with
  | nil => rfl
  | cons step rest ih =>
      cases step with
      | setUp => simpa [answers, step_setUp] using ih store
      | query query => simpa [answers, step_query] using ih (store.query query).1

/-- A fresh database behaves as its history says, whatever the steps were. -/
theorem followsHistory (history : List Step) : FollowsHistory history := by
  obtain ⟨store, reached, agrees⟩ := exists_agrees history
  have missing_iff_not_holds (id : Int) : Missing history id ↔ ¬ store.Holds id := by
    simp only [missing_iff, Store.holds_iff, agrees.rows]
  refine ⟨numbers_answers history, fun task => ?_, fun id => ?_, fun step id named => ?_,
    fun step id asks named present => ?_, fun step asks missing => ?_,
    answers_without_setUps .empty history⟩
  · rw [reached, step_query, ← agrees.lastId]
    exact ⟨store.stamp task, rfl, rfl, rfl⟩
  · rw [reached]
    refine ⟨store.get? id, rfl, ?_, agrees.rows id⟩
    rw [missing_iff_not_holds, Store.holds_iff, Option.eq_none_iff_forall_ne_some, not_exists]
  · rw [reached]
    cases step with
    | setUp => rfl
    | query query => exact Store.filter_tasks_query named store
  · rw [reached]
    rw [missing_iff_not_holds, not_not] at present
    cases step with
    | setUp => exact asks.elim
    | query query => exact Store.query_of_holds asks named present
  · rw [reached]
    cases step with
    | setUp => exact asks.elim
    | query query =>
        have notHeld : ∀ id, (Step.query query).number? = some id → ¬ store.Holds id :=
          fun id named => (missing_iff_not_holds id).mp (missing id named)
        rw [step_query, Store.query_of_not_holds asks notHeld]

-- The number of a row that was deleted is not given out again.
example : fresh.answers [.query (.create { date := "20240101", title := "First" }),
    .query (.delete 1), .setUp, .query (.create { date := "20240102", title := "Second" }),
    .query (.get 1)] =
  [.created { id := some 1, date := "20240101", title := "First" }, .changed, .version 1,
    .created { id := some 2, date := "20240102", title := "Second" }, .found none] := by
  decide

end Database

end Agenda
