import Agenda.Proofs.Command.Selected

/-! Commands check what they are given before they write it, so a store that is sound stays sound. What
holds of a store without tasks and is kept by commands holds after any calls. -/

namespace Agenda

open Text

def IsDateText (text : String) : Prop :=
  text.toList.length = 8 ∧ (∀ char ∈ text.toList, char.isDigit = true) ∧
    ∃ date, Date.ofWritten? text = some date

/-- A text that says something, without blanks around it. -/
def IsTitle (text : String) : Prop := text ≠ "" ∧ trimmed text = text

/-- No text, or one without blanks around it that can be read as a rule. -/
def IsRuleText (text : String) : Prop :=
  text = "" ∨ trimmed text = text ∧ ∃ rule, Rule.read text = .ok rule

/-- A task of which everything can be read. -/
structure Task.Sound (task : Task) : Prop where
  date : IsDateText task.date
  title : IsTitle task.title
  rule : IsRuleText task.rule

structure Store.Sound (store : Store) : Prop where
  tasks : ∀ task ∈ store.tasks, task.Sound
  positive : ∀ task ∈ store.tasks, ∃ id, task.id = some id ∧ 0 < id
  distinct : store.tasks.Pairwise fun task other => task.id ≠ other.id

section

variable {today : Date} {task after : Task} {store : Store} {text date : String} {number : Int}
  {requested : Option String}

theorem isDateText_written {date : Date} (writable : date.Writable) : IsDateText date.written :=
  ⟨Date.length_written writable, fun _ => Date.isDigit_written writable,
    date, Date.ofWritten?_written writable⟩

theorem isDateText_of_nextDueDate {due rule : String}
    (result : nextDueDate today due rule = .ok date) : IsDateText date := by
  obtain ⟨start, read, found, -, -, occurs, rfl⟩ := nextDueDate_eq_ok_iff.mp result
  exact isDateText_written (Rule.writable_of_nextOccurrence occurs)

theorem isDateText_of_resolveDueDate {rule : String} (writable : today.Writable)
    (settled : resolveDueDate today requested rule = .ok date) : IsDateText date := by
  obtain ⟨found, -, foundWritable, -, -, rfl⟩ := exists_of_resolveDueDate writable settled
  exact isDateText_written foundWritable

theorem isRuleText_of_resolveDueDate {rule : String} (trims : trimmed rule = rule)
    (settled : resolveDueDate today requested rule = .ok date) : IsRuleText rule := by
  obtain ⟨-, rule?, -, -, reads, -, -⟩ := resolveDueDate_eq_ok_iff.mp settled
  cases reads with
  | once blank => exact .inl (trims.symm.trans blank)
  | rule read => exact .inr ⟨trims, _, read⟩

theorem IsRuleText.trims (isRuleText : IsRuleText text) : trimmed text = text := by
  rcases isRuleText with empty | ⟨trims, -⟩
  · rw [empty]
    rfl
  · exact trims

theorem isTitle_trimmed (shown : ¬ IsBlankText text) : IsTitle (trimmed text) :=
  ⟨shown, trimmed_trimmed text⟩

theorem IsTitle.revised {given : Option String} (isTitle : IsTitle text)
    (shown : ∀ other ∈ given, ¬ IsBlankText other) : IsTitle ((given.map trimmed).getD text) := by
  cases given with
  | none => exact isTitle
  | some other => exact isTitle_trimmed (shown other rfl)

theorem trimmed_revised (trims : trimmed text = text) (given : Option String) :
    trimmed ((given.map trimmed).getD text) = (given.map trimmed).getD text := by
  cases given with
  | none => exact trims
  | some other => exact trimmed_trimmed other

theorem sound_of_newTask {title : List String} {date comment rule : Option String}
    (writable : today.Writable) (created : newTask today title date comment rule = .ok task) :
    task.Sound := by
  obtain ⟨shown, due, settled, rfl⟩ := newTask_eq_ok_iff.mp created
  exact ⟨isDateText_of_resolveDueDate writable settled, isTitle_trimmed shown,
    isRuleText_of_resolveDueDate (trimmed_trimmed _) settled⟩

theorem Task.Sound.revised {title date comment rule : Option String} (sound : task.Sound)
    (writable : today.Writable) (revises : revised today task title date comment rule = .ok after) :
    after.Sound := by
  obtain ⟨shown, due, settled, rfl⟩ := revised_eq_ok_iff.mp revises
  exact ⟨isDateText_of_resolveDueDate writable settled, sound.title.revised shown,
    isRuleText_of_resolveDueDate (trimmed_revised sound.rule.trims rule) settled⟩

theorem Task.Sound.moved (sound : task.Sound) (isDateText : IsDateText date) :
    { task with date := date }.Sound :=
  ⟨isDateText, sound.title, sound.rule⟩

theorem Task.Sound.numbered (sound : task.Sound) (id : Option Int) : { task with id := id }.Sound :=
  ⟨sound.date, sound.title, sound.rule⟩

section

variable {Holds : Task → Prop}

theorem Store.forall_mem_append (holds : ∀ task ∈ store.tasks, Holds task) (new : Holds (store.stamp task)) :
    ∀ stored ∈ (store.append task).tasks, Holds stored :=
  List.forall_mem_append.mpr ⟨holds, List.forall_mem_singleton.mpr new⟩

theorem Store.forall_mem_change {revise : Task → Task} (holds : ∀ task ∈ store.tasks, Holds task)
    (keeps : ∀ task ∈ store.tasks, task.id = some number → Holds { revise task with id := task.id }) :
    ∀ task ∈ (store.change number revise).tasks, Holds task := by
  refine List.forall_mem_map.mpr fun task member => ?_
  simp only [changed]
  split
  · rename_i named
    exact keeps task member named
  · exact holds task member

theorem Store.forall_mem_remove (holds : ∀ task ∈ store.tasks, Holds task) (number : Int) :
    ∀ task ∈ (store.remove number).tasks, Holds task :=
  fun task member => holds task (List.mem_filter.mp member).1

end

theorem Store.sound_of_tasks (tasks : ∀ task ∈ store.tasks, task.Sound) : store.Sound where
  tasks := tasks
  positive task member := by
    obtain ⟨id, named, pos, -⟩ := store.numbered task member
    exact ⟨id, named, pos⟩
  distinct := List.pairwise_map.mp store.distinct

theorem Store.sound_of_tasks_eq_nil (unused : store.tasks = []) : store.Sound := by
  refine sound_of_tasks fun task member => ?_
  rw [unused] at member
  cases member

theorem Store.sound_empty : empty.Sound := sound_of_tasks_eq_nil rfl

theorem Store.Sound.effect {command : Command} {written : Store} (sound : store.Sound)
    (writable : today.Writable) (effect : command.Effect today store (some written)) :
    written.Sound := by
  refine sound_of_tasks ?_
  cases effect with
  | add created => exact forall_mem_append sound.tasks ((sound_of_newTask writable created).numbered _)
  | modify found revises =>
      have after := (sound.tasks _ (mem_of_get? found.stored)).revised writable revises
      exact forall_mem_change sound.tasks fun _ _ _ => after.numbered _
  | move found _ moves =>
      refine forall_mem_change sound.tasks fun task member _ => ?_
      exact ((sound.tasks task member).moved (isDateText_of_nextDueDate moves)).numbered _
  | finish _ _ => exact forall_mem_remove sound.tasks _
  | delete _ => exact forall_mem_remove sound.tasks _

end

/-- A call of the program: its arguments, and what it finds apart from the files. -/
structure Call where
  surroundings : Surroundings
  arguments : List String

namespace Files

/-- The files after a call of the program. -/
def afterCall (files : Files) (call : Call) : Files :=
  (run call.surroundings call.arguments files).1

def afterCalls (files : Files) (calls : List Call) : Files := calls.foldl afterCall files

end Files

variable {files next after : Files} {location : Location} {calls : List Call}
  {may mayElse : Store → Store → Prop}

/-- Each location has the store that it had before, or one without tasks, or one that may be written in its
place. -/
def Files.ChangesBy (files : Files) (may : Store → Store → Prop) (after : Files) : Prop :=
  ∀ location, after.storeAt location = files.storeAt location ∨ after.storeAt location = .empty ∨
    may (files.storeAt location) (after.storeAt location)

theorem Files.ChangesBy.refl (files : Files) (may : Store → Store → Prop) :
    files.ChangesBy may files :=
  fun _ => .inl rfl

theorem Files.ChangesBy.mono (changes : files.ChangesBy may after)
    (weaker : ∀ before written, may before written → mayElse before written) :
    files.ChangesBy mayElse after := by
  intro location
  rcases changes location with same | empty | written
  · exact .inl same
  · exact .inr (.inl empty)
  · exact .inr (.inr (weaker _ _ written))

theorem Files.Leaves.changesBy {store : Store} (leaves : files.Leaves location store after)
    (written : store = files.storeAt location ∨ may (files.storeAt location) store) :
    files.ChangesBy may after := by
  intro other
  by_cases here : other = location
  · subst here
    rw [leaves.here]
    rcases written with same | written
    · exact .inl same
    · exact .inr (.inr written)
  · rcases leaves.elsewhere other here with same | ⟨-, empty⟩
    · exact .inl same
    · exact .inr (.inl empty)

theorem changesBy_perform (surroundings : Surroundings)
    (act : Nat → Store → Except Setback Done) (files : Files) :
    files.ChangesBy (fun before written => ∃ limit text, act limit before = .ok (text, some written))
      (perform surroundings act files).1 := by
  cases loaded : loadSettings surroundings files with
  | error failure =>
      unfold perform
      rw [connect_of_not_loaded loaded]
      exact .refl files _
  | ok settings =>
      have performs := performs_perform loaded act
      generalize perform surroundings act files = ended at performs
      cases performs with
      | fails _ leaves => exact leaves.changesBy (.inl rfl)
      | @succeeds _ text written carriedOut leaves =>
          refine leaves.changesBy ?_
          cases written with
          | none => exact .inl rfl
          | some store => exact .inr ⟨settings.limit, text, carriedOut⟩

theorem changesBy_afterCall (files : Files) (call : Call) :
    files.ChangesBy (fun before written =>
        ∃ command : Command, command.Effect call.surroundings.today before (some written))
      (files.afterCall call) := by
  simp only [Files.afterCall, run]
  split
  · exact .refl files _
  · exact .refl files _
  · rename_i command _
    simp only [Command.run]
    split
    · exact .refl files _
    · exact .refl files _
    · rename_i act job
      refine (changesBy_perform call.surroundings act files).mono fun before written worked => ?_
      obtain ⟨limit, text, carriedOut⟩ := worked
      exact ⟨command, Command.effect_of_work job carriedOut⟩

/-- What holds of a store without tasks, and is kept by the commands of these calls, holds after them. -/
theorem storeAt_afterCalls_of_effect {Holds : Store → Prop} (empty : Holds .empty)
    (kept : ∀ call ∈ calls, ∀ command before written, Holds before →
      Command.Effect call.surroundings.today before command (some written) → Holds written)
    (initially : Holds (files.storeAt location)) :
    Holds ((files.afterCalls calls).storeAt location) := by
  induction calls generalizing files with
  | nil => exact initially
  | cons call rest ih =>
      have later : ∀ call ∈ rest, ∀ command before written, Holds before →
          Command.Effect call.surroundings.today before command (some written) → Holds written :=
        fun other member => kept other (List.mem_cons_of_mem call member)
      refine ih later ?_
      rcases changesBy_afterCall files call location with same | lost | ⟨command, effect⟩
      · rw [same]
        exact initially
      · rw [lost]
        exact empty
      · exact kept call List.mem_cons_self command _ _ initially effect

theorem Files.sound_storeAt_afterCalls (sound : (files.storeAt location).Sound)
    (writable : ∀ call ∈ calls, call.surroundings.today.Writable) :
    ((files.afterCalls calls).storeAt location).Sound := by
  refine storeAt_afterCalls_of_effect Store.sound_empty ?_ sound
  intro call member command before written sound effect
  exact sound.effect (writable call member) effect

/-- However often the program is called, and with whatever arguments, a store that had no tasks at first
is sound: its tasks have dates, titles and rules that can be read, and numbers of their own. The days of
the calls may come in any order. -/
theorem sound_afterCalls (unused : (files.storeAt location).tasks = [])
    (writable : ∀ call ∈ calls, call.surroundings.today.Writable) :
    ((files.afterCalls calls).storeAt location).Sound :=
  Files.sound_storeAt_afterCalls (Store.sound_of_tasks_eq_nil unused) writable

/-- A task that comes back on Mondays and Wednesdays is added, completed two months later, and changed on
a day that lies before both. -/
theorem sound_afterCalls_weekly :
    ∃ calls : List Call, (Files.bare.storeAt ["home", ".tasksched", "scheduler.db"]).tasks = [] ∧
      (∀ call ∈ calls, call.surroundings.today.Writable) ∧
      ((Files.bare.afterCalls calls).storeAt ["home", ".tasksched", "scheduler.db"]).tasks =
        [{ id := some 1, date := "20240304", title := "Water", rule := "w 1,3" }] ∧
      ((Files.bare.afterCalls calls).storeAt ["home", ".tasksched", "scheduler.db"]).Sound := by
  refine ⟨[⟨⟨{ year := 2024, month := 1, day := 10, day_le := by decide }, "/home", none⟩,
        ["add", " Water", "plants ", "--date", "20240101", "--repeat", " w 1,3 "]⟩,
      ⟨⟨{ year := 2024, month := 3, day := 1, day_le := by decide }, "/home", none⟩, ["done", "1"]⟩,
      ⟨⟨{ year := 2023, month := 6, day := 1, day_le := by decide }, "/home", none⟩,
        ["modify", "1", "--title", "Water"]⟩], rfl, by decide, by decide +kernel, ?_⟩
  exact sound_afterCalls rfl (by decide)

end Agenda
