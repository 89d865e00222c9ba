import Agenda.Proofs.Command.History

/-! A yearly task moves on from the date that is stored. Once that is the 1st of March, it never comes
back to the 29th of February. -/

namespace Agenda

namespace Date

variable {original date next due : Date} {dues earlier : List Date}

def MovesYears (date next : Date) : Prop := ∃ years, 1 ≤ years ∧ date.addYears years = some next

/-- The date that comes of a leap day some years later, when the dates before it were the earlier ones:
one day too late in a leap year if one of them lay in a year that was none. -/
def ComesBackAs (original : Date) (earlier : List Date) (due : Date) : Prop :=
  ∃ years shown, 1 ≤ years ∧ original.addYears years = some shown ∧
    due = if IsLeapYear shown.year ∧ ∃ date ∈ earlier, ¬ IsLeapYear date.year then shown.next
      else shown

theorem eq_firstOfMarch_of_isChain {year : Int}
    (chain : (firstOfMarch year :: dues).IsChain MovesYears) (member : due ∈ dues) :
    due.Writable ∧ year < due.year ∧ due = firstOfMarch due.year := by
  induction dues generalizing year with
  | nil => cases member
  | cons first rest ih =>
      obtain ⟨⟨years, pos, moved⟩, chainRest⟩ := List.isChain_cons_cons.mp chain
      rw [addYears_firstOfMarch] at moved
      obtain ⟨writable, rfl⟩ := writable?_eq_some_iff.mp moved
      rcases List.mem_cons.mp member with rfl | memberRest
      · exact ⟨writable, Int.lt_add_of_pos_right year pos, rfl⟩
      · obtain ⟨dueWritable, later, same⟩ := ih chainRest memberRest
        exact ⟨dueWritable, lt_trans (Int.lt_add_of_pos_right year pos) later, same⟩

theorem comesBackAs_firstOfMarch {year : Int} (isLeapDay : original.IsLeapDay)
    (later : original.year < year) (writable : (firstOfMarch year).Writable)
    (slipped : ∃ date ∈ earlier, ¬ IsLeapYear date.year) :
    original.ComesBackAs earlier (firstOfMarch year) := by
  obtain ⟨years, rfl⟩ : ∃ years, year = original.year + years := ⟨year - original.year, by omega⟩
  by_cases leap : IsLeapYear (original.year + years)
  · refine ⟨years, leapDay _ leap, by omega, ?_, ?_⟩
    · rw [addYears_eq, isLeapDay.yearsLater_of_leapYear leap]
      exact writable?_eq_some_iff.mpr ⟨writable, rfl⟩
    · have isLeapDay : (leapDay _ leap).IsLeapDay := ⟨rfl, rfl⟩
      rw [if_pos ⟨leap, slipped⟩, isLeapDay.next_eq]
      rfl
  · refine ⟨years, firstOfMarch (original.year + years), by omega, ?_, ?_⟩
    · rw [addYears_eq, isLeapDay.yearsLater_of_commonYear leap]
      exact writable?_eq_some_iff.mpr ⟨writable, rfl⟩
    · exact (if_neg fun both => leap both.1).symm

theorem comesBackAs_of_isChain {later : List Date} (isLeapDay : original.IsLeapDay)
    (chain : (original :: (earlier ++ due :: later)).IsChain MovesYears) :
    original.ComesBackAs earlier due := by
  induction earlier generalizing original with
  | nil =>
      obtain ⟨⟨years, pos, moved⟩, -⟩ := List.isChain_cons_cons.mp chain
      exact ⟨years, due, pos, moved, by simp⟩
  | cons first earlier ih =>
      obtain ⟨⟨years, pos, moved⟩, chainRest⟩ := List.isChain_cons_cons.mp chain
      obtain ⟨year, -, firstLeapDay | ⟨common, march⟩⟩ := isLeapDay.addYears_cases moved
      -- From one leap day it goes on as from the other, since only the year that is reached counts.
      · obtain ⟨more, shown, morePos, shows, same⟩ := ih firstLeapDay chainRest
        refine ⟨years + more, shown, by omega, ?_, ?_⟩
        · rw [addYears_eq, isLeapDay.yearsLater_eq, ← Int.add_assoc, ← year,
            ← firstLeapDay.yearsLater_eq, ← addYears_eq]
          exact shows
        · simpa [firstLeapDay.leapYear] using same
      · rw [march] at chainRest
        have member : due ∈ earlier ++ due :: later := by simp
        obtain ⟨writable, after, same⟩ := eq_firstOfMarch_of_isChain chainRest member
        rw [same] at writable ⊢
        exact comesBackAs_firstOfMarch isLeapDay (by omega) writable ⟨first, by simp, common⟩

theorem ComesBackAs.isLeapDay_iff (isLeapDay : original.IsLeapDay)
    (comesBack : original.ComesBackAs earlier due) :
    due.IsLeapDay ↔ IsLeapYear due.year ∧ ∀ date ∈ earlier, IsLeapYear date.year := by
  obtain ⟨years, shown, -, moved, rfl⟩ := comesBack
  have noSlip : (∀ date ∈ earlier, IsLeapYear date.year) ↔
      ¬ ∃ date ∈ earlier, ¬ IsLeapYear date.year := by simp
  rw [noSlip]
  obtain ⟨-, -, shownLeapDay | ⟨common, march⟩⟩ := isLeapDay.addYears_cases moved
  · have leap := shownLeapDay.leapYear
    by_cases slipped : ∃ date ∈ earlier, ¬ IsLeapYear date.year
    · simp only [leap, slipped, and_self, if_true, shownLeapDay.next_eq,
        not_isLeapDay_firstOfMarch, not_true_eq_false, and_false]
    · simp only [leap, slipped, and_false, if_false, shownLeapDay, not_false_eq_true, and_self]
  · have notLeapDay := not_isLeapDay_firstOfMarch shown.year
    rw [← march] at notLeapDay
    simp only [common, false_and, if_false, notLeapDay]

end Date

variable {files : Files} {location : Location} {number : Int} {calls : List Call} {call : Call}
  {task : Task} {original start now found : Date}

theorem Rule.movesYears_of_firstYearAfter {tries : Nat} {years : Int} (pos : 1 ≤ years)
    (result : firstYearAfter start now tries years = .ok found) : start.MovesYears found := by
  induction tries generalizing years with
  | zero => cases result
  | succ tries ih =>
      rw [firstYearAfter_succ] at result
      cases moved : start.addYears years with
      | none =>
          rw [moved] at result
          cases result
      | some candidate =>
          rw [moved] at result
          simp only at result
          split at result
          · cases result
            exact ⟨years, pos, moved⟩
          · exact ih (by omega) result

namespace Files

/-- The call completes the task with a number in the store at a location, and is carried out. -/
structure Completes (files : Files) (location : Location) (number : Int) (call : Call) : Prop where
  asks : ∃ id, Request.ofArguments? call.arguments = some (.command (.complete id)) ∧
    Task.readId id = .ok number
  selects : ∃ settings, loadSettings call.surroundings files = .ok settings ∧
    settings.place = location
  succeeds : (run call.surroundings call.arguments files).2.code = 0

/-- Each of the calls completes the task, one after another. -/
def CompletesAll (files : Files) (location : Location) (number : Int) : List Call → Prop
  | [] => True
  | call :: rest =>
      files.Completes location number call ∧ (files.afterCall call).CompletesAll location number rest

/-- The dates of the task with a number in the store at a location, as they are stored after each of the
calls. -/
def datesAfter (files : Files) (location : Location) (number : Int) : List Call → List (Option String)
  | [] => []
  | call :: rest =>
      (((files.afterCall call).storeAt location).get? number).map Task.date ::
        (files.afterCall call).datesAfter location number rest

theorem Completes.moves (completes : files.Completes location number call)
    (stored : (files.storeAt location).get? number = some task)
    (yearly : Rule.read task.rule = .ok .yearly) (due : Date.ofWritten? task.date = some start) :
    ∃ next, start.MovesYears next ∧ next.Writable ∧
      ((files.afterCall call).storeAt location).get? number =
        some { task with date := next.written } := by
  obtain ⟨⟨id, request, reads⟩, ⟨settings, loaded, rfl⟩, succeeds⟩ := completes
  obtain ⟨written, effect, leaves⟩ := exists_effect_of_run request rfl loaded succeeds
  cases effect with
  | move finds _ moved =>
      -- The task that is completed is the stored one with the number, and it has one due date.
      cases finds.reads.symm.trans reads
      cases finds.stored.symm.trans stored
      obtain ⟨begin, rule, next, dueElse, read, occurs, rfl⟩ := nextDueDate_eq_ok_iff.mp moved
      cases dueElse.symm.trans due
      cases read.symm.trans yearly
      refine ⟨next, Rule.movesYears_of_firstYearAfter (le_max_right _ _) occurs,
        Rule.writable_of_nextOccurrence occurs, ?_⟩
      rw [afterCall, leaves.here]
      exact Store.get?_change_self stored _
  | finish finds once =>
      cases finds.reads.symm.trans reads
      cases finds.stored.symm.trans stored
      -- A task with a yearly rule comes back, so it is not done with.
      exact absurd (Rule.not_isBlankText_of_read yearly) once

theorem exists_datesAfter (completes : files.CompletesAll location number calls)
    (stored : (files.storeAt location).get? number = some task)
    (yearly : Rule.read task.rule = .ok .yearly) (due : Date.ofWritten? task.date = some start) :
    ∃ dues : List Date,
      files.datesAfter location number calls = dues.map (fun due => some due.written) ∧
        (start :: dues).IsChain Date.MovesYears := by
  induction calls generalizing files task start with
  | nil => exact ⟨[], rfl, .singleton start⟩
  | cons call rest ih =>
      obtain ⟨first, more⟩ := completes
      obtain ⟨next, moves, writable, storedNext⟩ := first.moves stored yearly due
      obtain ⟨dues, dates, chain⟩ := ih more storedNext yearly (Date.ofWritten?_written writable)
      refine ⟨next :: dues, ?_, List.isChain_cons_cons.mpr ⟨moves, chain⟩⟩
      rw [datesAfter, storedNext, dates]
      rfl

end Files

/-- The date that is stored after each completion lies some whole years after the original one, but for a
leap year after a date in a year that was none, where it is one day later. So the task is due on the 29th
of February as long as all its dates lay in leap years, and on the 1st of March ever after. -/
theorem leapDay_datesAfter (stored : (files.storeAt location).get? number = some task)
    (yearly : Rule.read task.rule = .ok .yearly) (due : Date.ofWritten? task.date = some original)
    (isLeapDay : original.IsLeapDay) (completes : files.CompletesAll location number calls) :
    ∃ dues : List Date,
      files.datesAfter location number calls = dues.map (fun due => some due.written) ∧
        ∀ earlier due later, dues = earlier ++ due :: later → original.ComesBackAs earlier due ∧
          (due.IsLeapDay ↔ IsLeapYear due.year ∧ ∀ date ∈ earlier, IsLeapYear date.year) := by
  obtain ⟨dues, dates, chain⟩ := Files.exists_datesAfter completes stored yearly due
  refine ⟨dues, dates, fun earlier due later same => ?_⟩
  rw [same] at chain
  have comesBack := Date.comesBackAs_of_isChain isLeapDay chain
  exact ⟨comesBack, comesBack.isLeapDay_iff isLeapDay⟩

/-- A store with one yearly task, which is due on the 29th of February 2024. -/
def leapDayFiles : Files :=
  Files.bare.put ["home", ".tasksched", "scheduler.db"]
    (.store (Store.empty.append { date := "20240229", title := "Leap", rule := "y" }) none)

def leapDayCalls : List Call :=
  [⟨⟨Date.leapDay 2024 (by decide), "/home", none⟩, ["done", "1"]⟩,
    ⟨⟨Date.firstOf 2027 6 (by decide) (by decide), "/home", none⟩, ["done", "1"]⟩]

theorem completesAll_leapDayCalls :
    leapDayFiles.CompletesAll ["home", ".tasksched", "scheduler.db"] 1 leapDayCalls := by
  have asks : ∃ id, Request.ofArguments? ["done", "1"] = some (.command (.complete id)) ∧
      Task.readId id = .ok 1 := ⟨"1", by decide, by decide⟩
  have place : Settings.place ⟨"/home/.tasksched/scheduler.db", 50⟩ =
      ["home", ".tasksched", "scheduler.db"] := by decide
  exact ⟨⟨asks, ⟨_, by decide +kernel, place⟩, by decide +kernel⟩,
    ⟨asks, ⟨_, by decide +kernel, place⟩, by decide +kernel⟩, trivial⟩

theorem datesAfter_leapDayCalls :
    leapDayFiles.datesAfter ["home", ".tasksched", "scheduler.db"] 1 leapDayCalls =
      [some "20250301", some "20280301"] := by
  decide +kernel

/-- The first completion leads to the 1st of March 2025, and the second from there to the 1st of March
2028. No number of years leads from the 29th of February 2024 to that date. -/
theorem leapDay_datesAfter_slips :
    (leapDayFiles.storeAt ["home", ".tasksched", "scheduler.db"]).get? 1 =
        some { id := some 1, date := "20240229", title := "Leap", rule := "y" } ∧
      Date.ofWritten? "20240229" = some (Date.leapDay 2024 (by decide)) ∧
      leapDayFiles.CompletesAll ["home", ".tasksched", "scheduler.db"] 1 leapDayCalls ∧
      (∀ call ∈ leapDayCalls,
        1970 ≤ call.surroundings.today.year ∧ call.surroundings.today.year ≤ 9999) ∧
      ¬ ∀ stored ∈ leapDayFiles.datesAfter ["home", ".tasksched", "scheduler.db"] 1 leapDayCalls,
        ∃ years due, 1 ≤ years ∧ (Date.leapDay 2024 (by decide)).addYears years = some due ∧
          stored = some due.written := by
  refine ⟨rfl, by decide, completesAll_leapDayCalls, by decide, fun onItsDay => ?_⟩
  rw [datesAfter_leapDayCalls] at onItsDay
  obtain ⟨years, due, -, moved, same⟩ := onItsDay (some "20280301") (by simp)
  obtain ⟨-, writable, kinds⟩ := Date.IsLeapDay.addYears_cases ⟨rfl, rfl⟩ moved
  have read := Date.ofWritten?_written writable
  rw [← Option.some.inj same] at read
  cases read.symm.trans (show _ = some (Date.firstOfMarch 2028) by decide)
  revert kinds
  decide

theorem leapDay_datesAfter_twice :
    (leapDayFiles.storeAt ["home", ".tasksched", "scheduler.db"]).get? 1 =
        some { id := some 1, date := "20240229", title := "Leap", rule := "y" } ∧
      Rule.read "y" = .ok .yearly ∧
      Date.ofWritten? "20240229" = some (Date.leapDay 2024 (by decide)) ∧
      leapDayFiles.CompletesAll ["home", ".tasksched", "scheduler.db"] 1 leapDayCalls ∧
      ∃ dues : List Date,
        leapDayFiles.datesAfter ["home", ".tasksched", "scheduler.db"] 1 leapDayCalls =
          dues.map (fun due => some due.written) ∧
        ∀ earlier due later, dues = earlier ++ due :: later →
          (Date.leapDay 2024 (by decide)).ComesBackAs earlier due ∧
            (due.IsLeapDay ↔ IsLeapYear due.year ∧ ∀ date ∈ earlier, IsLeapYear date.year) := by
  have stored : (leapDayFiles.storeAt ["home", ".tasksched", "scheduler.db"]).get? 1 =
      some { id := some 1, date := "20240229", title := "Leap", rule := "y" } := rfl
  have yearly : Rule.read "y" = .ok .yearly := by decide
  have due : Date.ofWritten? "20240229" = some (Date.leapDay 2024 (by decide)) := by decide
  exact ⟨stored, yearly, due, completesAll_leapDayCalls,
    leapDay_datesAfter stored yearly due ⟨rfl, rfl⟩ completesAll_leapDayCalls⟩

end Agenda
