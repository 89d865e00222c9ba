import Agenda.Proofs.Date.Written
import Agenda.Proofs.Occurrence.Scan

namespace Agenda

open Text

variable {today now start found : Date} {requested : Option String} {due text : String} {rule : Rule}

theorem Date.writable_of_addDays {count : Int} (moved : start.addDays count = some found) :
    found.Writable := by
  obtain ⟨writable, same⟩ := writable?_eq_some_iff.mp moved
  rw [← same]
  exact writable

theorem Date.writable_of_addMonths {count : Int} (moved : start.addMonths count = some found) :
    found.Writable := by
  obtain ⟨writable, same⟩ := writable?_eq_some_iff.mp moved
  rw [← same]
  exact writable

theorem Rule.writable_of_nextDaily {interval : Nat}
    (result : nextDaily interval start now = .ok found) : found.Writable := by
  simp only [nextDaily] at result
  split at result
  · cases moved : start.addDays (dailySteps interval start now * interval) with
    | none =>
        rw [moved] at result
        cases result
    | some date =>
        rw [moved] at result
        cases result
        exact Date.writable_of_addDays moved
  · cases result

theorem Rule.firstYearAfter_succ (start now : Date) (tries : Nat) (years : Int) :
    firstYearAfter start now (tries + 1) years =
      match start.addYears years with
      | none => .error .dateOverflow
      | some candidate =>
          if now < candidate then .ok candidate else firstYearAfter start now tries (years + 1) :=
  (rfl)

theorem Rule.writable_of_firstYearAfter {tries : Nat} {years : Int}
    (result : firstYearAfter start now tries years = .ok found) : found.Writable := by
  induction tries generalizing years with
  | zero => cases result
  | succ tries ih =>
      rw [firstYearAfter_succ] at result
      cases moved : start.addYears years with
      | none =>
          rw [moved] at result
          cases result
      | some candidate =>
          rw [moved] at result
          simp only at result
          split at result
          · cases result
            exact Date.writable_of_addMonths moved
          · exact ih result

theorem Rule.writable_of_nextOccurrence (result : rule.nextOccurrence start now = .ok found) :
    found.Writable := by
  cases rule with
  | daily interval => exact writable_of_nextDaily result
  | yearly => exact writable_of_firstYearAfter result
  | weekly weekdays => exact (isFirstAfter_of_firstMatch result).1
  | monthly days months => exact (isFirstAfter_of_firstMatch result).1

theorem readDueDate_eq_ok_iff : readDueDate text = .ok found ↔ Date.ofWritten? text = some found := by
  simp only [readDueDate]
  cases Date.ofWritten? text <;> simp

theorem nextDueDate_eq_ok_iff {next : String} :
    nextDueDate now due text = .ok next ↔ ∃ start rule found, Date.ofWritten? due = some start ∧
      Rule.read text = .ok rule ∧ rule.nextOccurrence start now = .ok found ∧
        found.written = next := by
  simp only [nextDueDate, bind_eq_ok_iff, readDueDate_eq_ok_iff, pure, Except.pure, Except.ok.injEq]
  refine ⟨fun settled => ?_, fun settled => ?_⟩
  · obtain ⟨start, written, rule, read, found, result, same⟩ := settled
    exact ⟨start, rule, found, written, read, result, same⟩
  · obtain ⟨start, rule, found, written, read, result, same⟩ := settled
    exact ⟨start, written, rule, read, found, result, same⟩

theorem nextDueDate_of_read (written : Date.ofWritten? due = some start)
    (read : Rule.read text = .ok rule) (now : Date) :
    nextDueDate now due text = (rule.nextOccurrence start now).map Date.written := by
  rw [nextDueDate, readDueDate_eq_ok_iff.mpr written, read]
  change (rule.nextOccurrence start now >>= fun next => pure next.written) = _
  cases rule.nextOccurrence start now <;> rfl

/-- The due date that a requested date and a rule settle on. -/
inductive SettlesOn (today date : Date) : Option Rule → Date → Prop where
  | stays {rule? : Option Rule} : today ≤ date → SettlesOn today date rule? date
  | today : date < today → SettlesOn today date none today
  | next {rule : Rule} {found : Date} : date < today → rule.nextOccurrence date today = .ok found →
      SettlesOn today date (some rule) found

theorem exists_settlesOn_of_resolveDueDate {settled : String}
    (result : resolveDueDate today requested text = .ok settled) :
    ∃ date rule? found, requestedDate today requested = .ok date ∧ readRepeat text = .ok rule? ∧
      SettlesOn today date rule? found ∧ found.written = settled := by
  obtain ⟨date, asked, result⟩ := bind_eq_ok_iff.mp result
  obtain ⟨rule?, read, result⟩ := bind_eq_ok_iff.mp result
  split at result
  · rename_i notPast
    exact ⟨date, rule?, date, asked, read, .stays notPast, Except.ok.inj result⟩
  · rename_i past
    cases rule? with
    | none =>
        exact ⟨date, none, today, asked, read, .today (lt_of_not_ge past), Except.ok.inj result⟩
    | some rule =>
        obtain ⟨found, next, same⟩ := bind_eq_ok_iff.mp result
        exact ⟨date, some rule, found, asked, read, .next (lt_of_not_ge past) next,
          Except.ok.inj same⟩

theorem writable_of_requestedDate (writable : today.Writable)
    (asked : requestedDate today requested = .ok found) : found.Writable := by
  cases requested with
  | none =>
      cases asked
      exact writable
  | some text =>
      simp only [requestedDate] at asked
      split at asked
      · cases asked
        exact writable
      · exact Date.writable_of_ofWritten? (readDueDate_eq_ok_iff.mp asked)

theorem SettlesOn.writable {date : Date} {rule? : Option Rule}
    (settles : SettlesOn today date rule? found) (todayWritable : today.Writable)
    (dateWritable : date.Writable) : found.Writable := by
  cases settles with
  | stays _ => exact dateWritable
  | today _ => exact todayWritable
  | next _ result => exact Rule.writable_of_nextOccurrence result

end Agenda
