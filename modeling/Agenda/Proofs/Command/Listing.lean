import Agenda.Proofs.Command.History
import Agenda.Proofs.Store.Listing
import Agenda.Proofs.Task.Listing

/-! What commands list after any calls: the order of the calendar, all tasks of a date, and JSON from which
the stored tasks are read back. -/

namespace Agenda

open Text

variable {files : Files} {location : Location} {calls : List Call} {store : Store} {task later : Task}
  {due dueLater : Date}

theorem bytes_written_lt_iff (writable : due.Writable) (laterWritable : dueLater.Writable) :
    due < dueLater ↔ bytes due.written < bytes dueLater.written := by
  rw [bytes_lt_bytes_iff, Date.written_lt_written_iff writable laterWritable]

theorem Store.due_le_of_listedBefore (before : ListedBefore task later)
    (read : Date.ofWritten? task.date = some due)
    (readLater : Date.ofWritten? later.date = some dueLater) : due ≤ dueLater := by
  rcases before with earlier | ⟨same, -⟩
  · obtain ⟨writable, written⟩ := Date.ofWritten?_eq_some_iff.mp read
    obtain ⟨laterWritable, writtenLater⟩ := Date.ofWritten?_eq_some_iff.mp readLater
    rw [written, writtenLater, Date.written_lt_written_iff writable laterWritable] at earlier
    exact le_of_lt earlier
  · rw [same, readLater] at read
    cases read
    exact le_refl _

theorem Store.listed_pair (behind : ¬ ListedBefore task later) : listed [task, later] = [later, task] := by
  simp [listed, List.mergeSort, behind]

theorem Store.list_all (store : Store) (limit : Nat) :
    store.list limit .all = (listed store.tasks).take (min limit largestInteger) := by
  have everything : store.tasks.filter (fun task => decide (Search.all.Admits task)) = store.tasks :=
    List.filter_eq_self.mpr fun task _ => decide_eq_true trivial
  rw [list, everything]

theorem Store.pairwise_due_list (store : Store) (limit : Nat) (search : Search) :
    (store.list limit search).Pairwise fun task later => ∀ due dueLater,
      Date.ofWritten? task.date = some due → Date.ofWritten? later.date = some dueLater →
        due ≤ dueLater := by
  refine ((pairwise_listed _).sublist (List.take_sublist _ _)).imp ?_
  intro task later before due dueLater read readLater
  exact due_le_of_listedBefore before read readLater

/-- The written form of a date is eight digits that are read as this date alone, other dates have no form
that is read, and the bytes of written forms are in the order of the calendar. So whatever was called
before, on a store that had no tasks at first, every listed task has a date that is read, and none is listed
behind a task that is due later. -/
theorem list_afterCalls_chronological :
    (∀ text date, Date.ofWritten? text = some date ↔ date.Writable ∧ text = date.written) ∧
    (∀ date : Date, date.Writable → date.written.toList.length = 8 ∧
      ∀ char ∈ date.written.toList, char.isDigit = true) ∧
    (∀ date : Date, ¬ date.Writable → Date.ofWritten? date.written = none) ∧
    (∀ date other : Date, date.Writable → other.Writable →
      (date < other ↔ bytes date.written < bytes other.written)) ∧
    ∀ files location calls, (Files.storeAt files location).tasks = [] →
      (∀ call ∈ calls, call.surroundings.today.Writable) → ∀ limit search,
        let tasks := ((files.afterCalls calls).storeAt location).list limit search
        (∀ task ∈ tasks, ∃ due, Date.ofWritten? task.date = some due) ∧
        tasks.Pairwise fun task later => ∀ due dueLater, Date.ofWritten? task.date = some due →
          Date.ofWritten? later.date = some dueLater → due ≤ dueLater := by
  refine ⟨fun text date => Date.ofWritten?_eq_some_iff,
    fun date writable => ⟨Date.length_written writable, fun _ => Date.isDigit_written writable⟩,
    fun date => Date.ofWritten?_written_of_not_writable,
    fun date other => bytes_written_lt_iff, ?_⟩
  intro files location calls unused writable limit search tasks
  have sound := Files.sound_storeAt_afterCalls (Store.sound_of_tasks_eq_nil unused) writable
  refine ⟨fun task member => ?_, Store.pairwise_due_list _ limit search⟩
  exact (sound.tasks task (Store.mem_of_mem_list member)).date.2.2

theorem list_afterCalls_chronological_lateFirst :
    ∃ (calls : List Call) (store : Store),
      (Files.bare.storeAt ["home", ".tasksched", "scheduler.db"]).tasks = [] ∧
      (∀ call ∈ calls, call.surroundings.today.Writable) ∧
      (Files.bare.afterCalls calls).storeAt ["home", ".tasksched", "scheduler.db"] = store ∧
      store.tasks = [{ id := some 1, date := "20240229", title := "Later" },
        { id := some 2, date := "20231231", title := "Sooner" }] ∧
      store.list 50 .all = [{ id := some 2, date := "20231231", title := "Sooner" },
        { id := some 1, date := "20240229", title := "Later" }] ∧
      (store.list 50 .all).Pairwise fun task later => ∀ due dueLater,
        Date.ofWritten? task.date = some due → Date.ofWritten? later.date = some dueLater →
          due ≤ dueLater := by
  let today : Date := Date.firstOf 2023 1 (by decide) (by decide)
  let calls : List Call := [⟨⟨today, "/home", none⟩, ["add", "Later", "--date", "20240229"]⟩,
    ⟨⟨today, "/home", none⟩, ["add", "Sooner", "--date", "20231231"]⟩]
  have writable : ∀ call ∈ calls, call.surroundings.today.Writable := by decide
  obtain ⟨store, lies⟩ :
      ∃ store, (Files.bare.afterCalls calls).storeAt ["home", ".tasksched", "scheduler.db"] = store := ⟨_, rfl⟩
  have tasks : store.tasks = [{ id := some 1, date := "20240229", title := "Later" },
      { id := some 2, date := "20231231", title := "Sooner" }] := by
    rw [← lies]
    decide +kernel
  have listed : store.list 50 .all = [{ id := some 2, date := "20231231", title := "Sooner" },
      { id := some 1, date := "20240229", title := "Later" }] := by
    rw [Store.list_all, tasks, Store.listed_pair (by decide)]
    rfl
  obtain ⟨-, -, -, -, chronological⟩ := list_afterCalls_chronological
  have inOrder := (chronological Files.bare ["home", ".tasksched", "scheduler.db"] calls rfl writable 50 .all).2
  rw [lies] at inOrder
  exact ⟨calls, store, rfl, writable, lies, tasks, listed, inOrder⟩

variable {date : Date}

def Task.NumberedBefore (task other : Task) : Prop :=
  ∃ id idElse, task.id = some id ∧ other.id = some idElse ∧ id < idElse

theorem Search.ofText_of_spells {text : String} (spells : date.Spells text)
    (writable : date.Writable) : Search.ofText text = .due date := by
  obtain ⟨word, isWord, trims, read⟩ := spells.exists_word writable
  have same : trimmed text = String.ofList word := by rw [trimmed, trims]
  have nonempty : String.ofList word ≠ "" := fun empty => isWord.1 (String.ofList_eq_empty_iff.mp empty)
  have again : trim word = word := by rw [← trims, trim_trim]
  have named : Date.ofSearch? (String.ofList word) = some date := by
    rw [Date.ofSearch?, String.toList_ofList, again]
    exact read
  simp only [Search.ofText, same, if_neg nonempty, named]

namespace Store

/-- The tasks of a date in the order of a list. -/
def dueOn (store : Store) (date : Date) : List Task :=
  listed (store.tasks.filter fun task => decide ((Search.due date).Admits task))

theorem mem_dueOn_iff {store : Store} {task : Task} (writable : date.Writable) :
    task ∈ store.dueOn date ↔ task ∈ store.tasks ∧ Date.ofWritten? task.date = some date := by
  rw [dueOn, (listed_perm _).mem_iff, List.mem_filter, decide_eq_true_eq, Date.ofWritten?_eq_some_iff]
  exact and_congr_right fun _ => (and_iff_right writable).symm

theorem pairwise_dueOn (store : Store) (date : Date) :
    (store.dueOn date).Pairwise Task.NumberedBefore := by
  have ordered : (store.dueOn date).Pairwise Task.StandsBefore :=
    store.pairwise_standsBefore List.filter_sublist
  have sameDate : ∀ task ∈ store.dueOn date, task.date = date.written := by
    intro task member
    rw [dueOn, (listed_perm _).mem_iff] at member
    exact of_decide_eq_true (List.mem_filter.mp member).2
  refine ordered.imp_of_mem fun member memberElse before => ?_
  rcases before with earlier | ⟨-, numbered⟩
  · rw [sameDate _ member, sameDate _ memberElse] at earlier
    exact absurd (bytes_lt_bytes_iff.mp earlier) (lt_irrefl _)
  · exact numbered

theorem list_of_spells (store : Store) (limit : Nat) {text : String} (spells : date.Spells text)
    (writable : date.Writable) :
    store.list limit (Search.ofText text) = (store.dueOn date).take (min limit (2 ^ 63 - 1)) := by
  rw [Search.ofText_of_spells spells writable]
  rfl

end Store

/-- Whatever was called before, on a store that had no tasks at first, the tasks of a date make up one row
by their numbers, and each search for the date gives the start of this row. A limit counts up to the
largest number of a task. -/
theorem list_afterCalls_byDate (unused : (files.storeAt location).tasks = [])
    (today : ∀ call ∈ calls, call.surroundings.today.Writable) (writable : date.Writable) :
    let store := (files.afterCalls calls).storeAt location
    (∀ task ∈ store.tasks, ∃ due : Date, due.Writable ∧ task.date = due.written) ∧
      ∃ rows : List Task, rows.Pairwise Task.NumberedBefore ∧
        (∀ task, task ∈ rows ↔ task ∈ store.tasks ∧ Date.ofWritten? task.date = some date) ∧
        ∀ limit text, date.Spells text →
          store.list limit (Search.ofText text) = rows.take (min limit (2 ^ 63 - 1)) ∧
          (limit < 2 ^ 63 ∨ rows.length < 2 ^ 63 →
            store.list limit (Search.ofText text) = rows.take limit) := by
  intro store
  refine ⟨fun task member => ?_, store.dueOn date, store.pairwise_dueOn date,
    fun task => Store.mem_dueOn_iff writable, fun limit text spells => ?_⟩
  · have sound : store.Sound := Files.sound_storeAt_afterCalls (Store.sound_of_tasks_eq_nil unused) today
    obtain ⟨due, read⟩ := (sound.tasks task member).date.2.2
    exact ⟨due, Date.ofWritten?_eq_some_iff.mp read⟩
  · have listed := store.list_of_spells limit spells writable
    refine ⟨listed, fun few => ?_⟩
    rw [listed, List.take_eq_take_iff]
    omega

/-- Three tasks are added. Two of them are due on the day that is searched for, and the other has its
spelling as title. -/
theorem list_afterCalls_byDate_leapDay :
    ∃ (calls : List Call) (store : Store) (rows : List Task),
      (Files.bare.storeAt ["home", ".tasksched", "scheduler.db"]).tasks = [] ∧
      (∀ call ∈ calls, call.surroundings.today.Writable) ∧
      (Files.bare.afterCalls calls).storeAt ["home", ".tasksched", "scheduler.db"] = store ∧
      store.tasks = [{ id := some 1, date := "20240229", title := "First" },
        { id := some 2, date := "20231231", title := "29.02.2024" },
        { id := some 3, date := "20240229", title := "Second" }] ∧
      (Date.leapDay 2024 (by decide)).Writable ∧
      (Date.leapDay 2024 (by decide)).Spells " 29.02.2024\t" ∧
      rows.Pairwise Task.NumberedBefore ∧
      (∀ task, task ∈ rows ↔ task ∈ store.tasks ∧
        Date.ofWritten? task.date = some (Date.leapDay 2024 (by decide))) ∧
      store.list 1 (Search.ofText " 29.02.2024\t") = rows.take 1 := by
  let today : Date := Date.firstOf 2023 1 (by decide) (by decide)
  let calls : List Call := [⟨⟨today, "/home", none⟩, ["add", "First", "--date", "20240229"]⟩,
    ⟨⟨today, "/home", none⟩, ["add", "29.02.2024", "--date", "20231231"]⟩,
    ⟨⟨today, "/home", none⟩, ["add", "Second", "--date", "20240229"]⟩]
  have writable : ∀ call ∈ calls, call.surroundings.today.Writable := by decide
  have dueWritable : (Date.leapDay 2024 (by decide)).Writable := by decide
  have spells : (Date.leapDay 2024 (by decide)).Spells " 29.02.2024\t" :=
    @Date.Spells.dotted _ _ [' '] ['\t'] (by decide) (by decide) (by decide +kernel)
  obtain ⟨-, rows, numbered, due, listed⟩ :=
    @list_afterCalls_byDate Files.bare ["home", ".tasksched", "scheduler.db"] calls _ rfl writable dueWritable
  exact ⟨calls, _, rows, rfl, writable, rfl, by decide +kernel, dueWritable, spells, numbered, due,
    (listed 1 _ spells).1⟩

open Json

variable {surroundings : Surroundings} {arguments search : List String} {session : Session}
  {id : String} {number : Int} {limit : Option Nat}

theorem allSpace_lineFeed : AllSpace ['\n'] := allSpace_newline 0

theorem isInteger64_of_readId (reads : Task.readId id = .ok number) : IsInteger64 number := by
  unfold Task.readId at reads
  split at reads
  · cases reads
  · rename_i read
    split at reads
    · cases reads
      exact (readInteger_eq_ok_iff.mp read).2
    · cases reads

theorem Store.isInteger64_id (bounded : store.lastId ≤ largestInteger) (member : task ∈ store.tasks)
    (value : Int) (named : value ∈ task.id) : IsInteger64 value := by
  obtain ⟨id, namedToo, pos, le⟩ := store.numbered task member
  cases namedToo.symm.trans named
  constructor <;> omega

theorem ofJson_of_run_view (request : Request.ofArguments? arguments = some (.command (.view id true)))
    (connected : (connect surroundings files).2 = .ok session)
    (finds : (files.storeAt session.settings.place).Finds id number task) :
    ∃ text, (run surroundings arguments files).2 = printed text ∧ Task.ofJson text = .ok task := by
  have told := (run_of_connect request rfl connected).1
  rw [viewTask_of_finds finds, if_pos rfl] at told
  have integer64 : ∀ value ∈ task.id, IsInteger64 value := by
    intro value named
    cases (Store.id_of_get? finds.stored).symm.trans named
    exact isInteger64_of_readId finds.reads
  exact ⟨_, told, Task.ofJson_indentedJson integer64 allSpace_lineFeed⟩

theorem listOfJson_of_run_list
    (request : Request.ofArguments? arguments = some (.command (.list search limit true)))
    (connected : (connect surroundings files).2 = .ok session)
    (pos : 0 < limit.getD session.settings.limit)
    (bounded : (files.storeAt session.settings.place).lastId ≤ largestInteger) :
    ∃ text, (run surroundings arguments files).2 = printed text ∧
      Task.listOfJson text = .ok ((files.storeAt session.settings.place).list
        (limit.getD session.settings.limit) (Search.ofText (" ".intercalate search))) := by
  have told := (run_of_connect request rfl connected).1
  rw [listTasks, if_neg (Nat.ne_of_gt pos)] at told
  refine ⟨_, told, Task.listOfJson_listJson ?_ allSpace_lineFeed⟩
  intro task member
  exact Store.isInteger64_id bounded (Store.mem_of_mem_list member)

/-- A task is read back from its JSON, be it without any space, or as it is printed when the task is shown,
or as one of the tasks that are listed. In a store the last number that was given out has 64 bits. -/
theorem ofJson_of_printed :
    (∀ task : Task, (∀ value ∈ task.id, IsInteger64 value) → Task.ofJson task.json = .ok task) ∧
    (∀ surroundings arguments files session id number task,
      Request.ofArguments? arguments = some (.command (.view id true)) →
      (connect surroundings files).2 = .ok session →
      (files.storeAt session.settings.place).Finds id number task →
        ∃ text, (run surroundings arguments files).2 = printed text ∧ Task.ofJson text = .ok task) ∧
    ∀ surroundings arguments files session search limit,
      Request.ofArguments? arguments = some (.command (.list search limit true)) →
      (connect surroundings files).2 = .ok session → 0 < limit.getD session.settings.limit →
      (files.storeAt session.settings.place).lastId ≤ largestInteger →
        ∃ text rows, (run surroundings arguments files).2 = printed text ∧
          Task.listOfJson text = .ok rows ∧
          rows = (files.storeAt session.settings.place).list (limit.getD session.settings.limit)
            (Search.ofText (" ".intercalate search)) ∧
          ∀ row ∈ rows, row ∈ (files.storeAt session.settings.place).tasks := by
  refine ⟨fun task integer64 => Task.ofJson_json integer64, ?_, ?_⟩
  · intro surroundings arguments files session id number task request connected finds
    exact ofJson_of_run_view request connected finds
  · intro surroundings arguments files session search limit request connected pos bounded
    obtain ⟨text, told, read⟩ := listOfJson_of_run_list request connected pos bounded
    exact ⟨text, _, told, read, rfl, fun row member => Store.mem_of_mem_list member⟩

/-- A title holds a quote, a backslash, a null character, a line feed and a character with a code of more
than sixteen bits, and a task of no store has the least number of 64 bits. -/
theorem ofJson_of_printed_escapes :
    ∃ (surroundings : Surroundings) (files : Files) (task : Task),
      (files.storeAt ["home", ".tasksched", "scheduler.db"]).tasks = [task] ∧
      task.title = "say \"\\\x00\n𝄞" ∧
      Task.ofJson { task with id := some (-9223372036854775808) }.json =
        .ok { task with id := some (-9223372036854775808) } ∧
      (∃ text, (run surroundings ["show", "1", "--json"] files).2 = printed text ∧
        Task.ofJson text = .ok task) ∧
      ∃ text, (run surroundings ["list", "--json"] files).2 = printed text ∧
        Task.listOfJson text = .ok [task] := by
  let surroundings : Surroundings := ⟨Date.firstOf 2024 1 (by decide) (by decide), "/home", none⟩
  let store := Store.empty.append { date := "20240229", title := "say \"\\\x00\n𝄞", rule := "y" }
  let files := Files.bare.put ["home", ".tasksched", "scheduler.db"] (.store store none)
  have opens : (connect surroundings files).2.isOk = true := by decide +kernel
  have loaded : loadSettings surroundings files = .ok ⟨"/home/.tasksched/scheduler.db", 50⟩ := by
    decide +kernel
  obtain ⟨session, connected, same⟩ := exists_session_of_isOk opens loaded
  have place : session.settings.place = ["home", ".tasksched", "scheduler.db"] := by
    rw [same]
    decide
  obtain ⟨compact, shown, listed⟩ := ofJson_of_printed
  refine ⟨surroundings, files, _, rfl, rfl, compact _ (by decide), ?_, ?_⟩
  · refine shown surroundings ["show", "1", "--json"] files session "1" 1 _ (by decide) connected ?_
    rw [place]
    exact ⟨by decide, rfl⟩
  · obtain ⟨text, rows, told, read, listedRows, -⟩ := listed surroundings ["list", "--json"] files session
      [] none (by decide) connected (by rw [same]; decide) (by rw [place]; decide)
    rw [place, same] at listedRows
    refine ⟨text, told, ?_⟩
    rw [read, listedRows]
    decide +kernel

end Agenda
