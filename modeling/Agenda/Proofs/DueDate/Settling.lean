import Agenda.Proofs.Occurrence.Schedule
import Agenda.Proofs.Rule.Refusal

/-! No task is left with a date in the past, and no date is moved without need. A fault of the date is told
before one of the rule, and that before a rule that leads beyond the writable years. -/

namespace Agenda

open Text

section

variable {today now date start found : Date} {requested : Option String} {due text settled : String}
  {rule : Rule} {rule? : Option Rule} {reason : RuleError}

/-- The date that is asked for. -/
inductive AsksFor (today : Date) : Option String → Date → Prop where
  | nothing : AsksFor today none today
  | today {text : String} : trimmed text = "" ∨ trimmed text = "today" → AsksFor today (some text) today
  | written {text : String} {date : Date} :
      Date.ofWritten? (trimmed text) = some date → AsksFor today (some text) date

theorem not_today_of_ofWritten? (written : Date.ofWritten? text = some date) :
    ¬ (text = "" ∨ text = "today") := by
  rintro (rfl | rfl)
  · cases written
  · cases (show Date.ofWritten? "today" = none by decide).symm.trans written

theorem requestedDate_eq_ok_iff :
    requestedDate today requested = .ok date ↔ AsksFor today requested date := by
  constructor
  · intro asked
    cases requested with
    | none =>
        cases asked
        exact .nothing
    | some text =>
        simp only [requestedDate] at asked
        split at asked
        · rename_i isToday
          cases asked
          exact .today isToday
        · exact .written (readDueDate_eq_ok_iff.mp asked)
  · intro asks
    cases asks with
    | nothing => rfl
    | today isToday => exact if_pos isToday
    | written read =>
        rw [requestedDate, if_neg (not_today_of_ofWritten? read)]
        exact readDueDate_eq_ok_iff.mpr read

theorem requestedDate_eq_error_iff :
    requestedDate today requested = .error reason ↔
      ∃ asked, requested = some asked ∧ ¬ (trimmed asked = "" ∨ trimmed asked = "today") ∧
        Date.ofWritten? (trimmed asked) = none ∧ reason = .invalidStart (trimmed asked) := by
  cases requested with
  | none => simp [requestedDate]
  | some text =>
      simp only [requestedDate, Option.some.injEq, exists_eq_left']
      split
      · rename_i isToday
        simp [isToday]
      · rename_i otherDay
        simp only [readDueDate, otherDay, not_false_eq_true, true_and]
        cases Date.ofWritten? (trimmed text) <;> simp [eq_comm]

theorem AsksFor.exists_written_of_lt (asks : AsksFor today requested date) (past : date < today) :
    ∃ asked, requested = some asked ∧ Date.ofWritten? (trimmed asked) = some date := by
  cases asks with
  | nothing => exact absurd past (lt_irrefl today)
  | today _ => exact absurd past (lt_irrefl today)
  | written written => exact ⟨_, rfl, written⟩

theorem asksFor_written (writable : date.Writable) : AsksFor today (some date.written) date := by
  have shown : ∀ char ∈ date.written.toList, isBlank char = false := fun char member =>
    isBlank_eq_false_of_isDigit (Date.isDigit_written writable member)
  refine .written ?_
  rw [trimmed_of_no_blank shown]
  exact Date.ofWritten?_written writable

inductive ReadsRepeat (text : String) : Option Rule → Prop where
  | once : IsBlankText text → ReadsRepeat text none
  | rule {rule : Rule} : Rule.read text = .ok rule → ReadsRepeat text (some rule)

theorem readRepeat_eq_ok_iff : readRepeat text = .ok rule? ↔ ReadsRepeat text rule? := by
  constructor
  · intro read
    simp only [readRepeat] at read
    split at read
    · rename_i blank
      cases read
      exact .once blank
    · obtain ⟨rule, found, same⟩ := bind_eq_ok_iff.mp read
      cases same
      exact .rule found
  · intro reads
    cases reads with
    | once blank => exact if_pos blank
    | rule read =>
        rw [readRepeat, if_neg (Rule.not_isBlankText_of_read read), read]
        rfl

theorem readRepeat_eq_error_iff :
    readRepeat text = .error reason ↔ ¬ IsBlankText text ∧ Rule.read text = .error reason := by
  simp only [readRepeat]
  split
  · rename_i blank
    simp [blank]
  · rename_i shown
    simp [bind_eq_error_iff, shown, pure, Except.pure]

theorem resolveDueDate_of_reads (asks : AsksFor today requested date) (reads : ReadsRepeat text rule?) :
    resolveDueDate today requested text =
      if today ≤ date then .ok date.written
      else rule?.elim (.ok today.written) fun rule =>
        (rule.nextOccurrence date today).map Date.written := by
  rw [resolveDueDate, requestedDate_eq_ok_iff.mpr asks, readRepeat_eq_ok_iff.mpr reads]
  cases rule? with
  | none => rfl
  | some rule =>
      simp only [bind, Except.bind, pure, Except.pure, Option.elim_some]
      cases rule.nextOccurrence date today <;> rfl

theorem resolveDueDate_eq_ok_iff :
    resolveDueDate today requested text = .ok settled ↔
      ∃ date rule? found, AsksFor today requested date ∧ ReadsRepeat text rule? ∧
        SettlesOn today date rule? found ∧ found.written = settled := by
  constructor
  · intro result
    obtain ⟨date, rule?, found, asked, read, settles, same⟩ := exists_settlesOn_of_resolveDueDate result
    exact ⟨date, rule?, found, requestedDate_eq_ok_iff.mp asked, readRepeat_eq_ok_iff.mp read, settles,
      same⟩
  · rintro ⟨date, rule?, found, asks, reads, settles, rfl⟩
    rw [resolveDueDate_of_reads asks reads]
    cases settles with
    | stays notPast => exact if_pos notPast
    | today past => exact if_neg (not_le_of_gt past)
    | next past occurs =>
        rw [if_neg (not_le_of_gt past), Option.elim_some, occurs]
        rfl

theorem Rule.lt_of_nextOccurrence (read : Rule.read text = .ok rule) (writable : start.Writable)
    (occurs : rule.nextOccurrence start now = .ok found) : now < found := by
  have finds := finds_nextOccurrence_of_leadsTo (valid_of_read read) writable now
  rw [occurs] at finds
  exact finds.of_ok.2.1.2

theorem SettlesOn.today_le (settles : SettlesOn today date rule? found)
    (reads : ReadsRepeat text rule?) (writable : date.Writable) : today ≤ found := by
  cases settles with
  | stays notPast => exact notPast
  | today _ => exact le_refl today
  | next _ occurs =>
      cases reads with
      | rule read => exact le_of_lt (Rule.lt_of_nextOccurrence read writable occurs)

theorem exists_of_resolveDueDate (writable : today.Writable)
    (result : resolveDueDate today requested text = .ok settled) :
    ∃ found rule?, found.Writable ∧ today ≤ found ∧ ReadsRepeat text rule? ∧ found.written = settled := by
  obtain ⟨date, rule?, found, asks, reads, settles, same⟩ := resolveDueDate_eq_ok_iff.mp result
  have dateWritable := writable_of_requestedDate writable (requestedDate_eq_ok_iff.mpr asks)
  exact ⟨found, rule?, settles.writable writable dateWritable, settles.today_le reads dateWritable, reads,
    same⟩

/-- A due date that is settled stays as it is when it is settled again on the same day. -/
theorem resolveDueDate_again (writable : today.Writable)
    (result : resolveDueDate today requested text = .ok settled) :
    resolveDueDate today (some settled) text = .ok settled := by
  obtain ⟨found, rule?, foundWritable, notPast, reads, rfl⟩ := exists_of_resolveDueDate writable result
  exact resolveDueDate_eq_ok_iff.mpr
    ⟨found, rule?, found, asksFor_written foundWritable, reads, .stays notPast, rfl⟩

theorem Rule.exists_leadsTo (valid : rule.Valid) (start now : Date) :
    ∃ date, rule.LeadsTo start date ∧ now < date := by
  have ofDayRule (dayRule : rule.IsDayRule) : ∃ date, rule.Recurs start date ∧ now < date := by
    obtain ⟨date, falls, after, -⟩ := exists_day_within_window valid dayRule (Date.latest start now)
    obtain ⟨afterStart, afterNow⟩ := Date.latest_lt_iff.mp after
    exact ⟨date, (recurs_iff_fallsOn dayRule).mpr ⟨afterStart, falls⟩, afterNow⟩
  cases rule with
  | daily interval =>
      have past := lt_dailySteps valid.1 start now
      have reached := Date.dayNumber_ofDayNumber
        (start.dayNumber + dailySteps interval start now * interval)
      rw [← reached, Date.dayNumber_lt_iff] at past
      exact ⟨_, recurs_of_dailySteps reached, past⟩
  | yearly =>
      let years : Int := max 1 (now.year - start.year + 1)
      refine ⟨start.yearsLater years, ⟨years, Int.le_max_left _ _, rfl⟩, Date.lt_iff.mpr (.inl ?_)⟩
      rw [Date.year_yearsLater]
      omega
  | weekly weekdays => exact ofDayRule trivial
  | monthly days months => exact ofDayRule trivial

/-- All dates after the reference date to which the rule leads lie beyond the writable years. -/
def Rule.LeadsBeyond (start now : Date) (rule : Rule) : Prop :=
  (∃ date, rule.LeadsTo start date ∧ now < date) ∧
    ∀ date, rule.LeadsTo start date → now < date → 9999 < date.year

/-- The search for the next date of a rule that a text expresses has one fault only. -/
theorem Rule.nextOccurrence_eq_error_iff (valid : rule.Valid) (writable : start.Writable) :
    rule.nextOccurrence start now = .error reason ↔ reason = .dateOverflow ∧
      ∀ later, rule.LeadsTo start later → now < later → 9999 < later.year := by
  have finds := finds_nextOccurrence_of_leadsTo valid writable now
  generalize rule.nextOccurrence start now = result at finds
  cases finds with
  | @first date inYears wanted _ =>
      refine iff_of_false (fun impossible => by cases impossible) ?_
      rintro ⟨-, beyond⟩
      exact absurd inYears.2 (not_le_of_gt (beyond date wanted.1 wanted.2))
  | overflow beyond =>
      refine ⟨fun failed => ⟨(Except.error.inj failed).symm, fun later leads after => ?_⟩,
        fun failed => failed.1 ▸ rfl⟩
      exact beyond later ⟨leads, after⟩

theorem Rule.fails_nextOccurrence_iff (read : Rule.read text = .ok rule) (writable : start.Writable)
    (now : Date) : Fails (rule.nextOccurrence start now) ↔ rule.LeadsBeyond start now := by
  have valid := valid_of_read read
  simp only [Fails, nextOccurrence_eq_error_iff valid writable, exists_and_right, exists_eq, true_and,
    LeadsBeyond, exists_leadsTo valid start now]

/-- Why no next date can be given for a due date. -/
inductive CannotMove (now : Date) (due text : String) : Prop where
  | date : Date.ofWritten? due = none → CannotMove now due text
  | rule : (∀ rule, Rule.read text ≠ .ok rule) → CannotMove now due text
  | overflow {start : Date} {rule : Rule} : Date.ofWritten? due = some start →
      Rule.read text = .ok rule → rule.LeadsBeyond start now → CannotMove now due text

theorem fails_read_iff : Fails (Rule.read text) ↔ ∀ rule, Rule.read text ≠ .ok rule := by
  cases Rule.read text <;> simp

theorem fails_nextDueDate_iff : Fails (nextDueDate now due text) ↔ CannotMove now due text := by
  cases written : Date.ofWritten? due with
  | none =>
      refine iff_of_true ?_ (.date written)
      rw [nextDueDate, readDueDate, written]
      exact fails_error _
  | some start =>
      cases read : Rule.read text with
      | error fault =>
          refine iff_of_true ?_ (.rule fun rule => by simp [read])
          rw [nextDueDate, readDueDate, written, read]
          exact fails_error _
      | ok rule =>
          rw [nextDueDate_of_read written read, fails_map_iff,
            Rule.fails_nextOccurrence_iff read (Date.writable_of_ofWritten? written)]
          constructor
          · exact fun beyond => .overflow written read beyond
          · intro cannot
            cases cannot with
            | date unwritten => cases written.symm.trans unwritten
            | rule unread => exact absurd read (unread rule)
            | overflow writtenElse readElse beyond =>
                cases written.symm.trans writtenElse
                cases read.symm.trans readElse
                exact beyond

/-- The fault that is reported when no due date can be settled. -/
inductive SettlingFault (today : Date) (requested : Option String) (text : String) : RuleError → Prop where
  | date {asked : String} : requested = some asked →
      ¬ (trimmed asked = "" ∨ trimmed asked = "today") → Date.ofWritten? (trimmed asked) = none →
        SettlingFault today requested text (.invalidStart (trimmed asked))
  | rule {date : Date} {reason : RuleError} : AsksFor today requested date → ¬ IsBlankText text →
      Rule.read text = .error reason → SettlingFault today requested text reason
  | overflow {due : Date} {rule : Rule} : AsksFor today requested due → due < today →
      Rule.read text = .ok rule →
      (∀ later, rule.LeadsTo due later → today < later → 9999 < later.year) →
        SettlingFault today requested text .dateOverflow

theorem resolveDueDate_of_reads_eq_error_iff (writable : today.Writable)
    (asks : AsksFor today requested date) (reads : ReadsRepeat text rule?) :
    resolveDueDate today requested text = .error reason ↔ reason = .dateOverflow ∧ date < today ∧
      ∃ rule, rule? = some rule ∧
        ∀ later, rule.LeadsTo date later → today < later → 9999 < later.year := by
  have dateWritable := writable_of_requestedDate writable (requestedDate_eq_ok_iff.mpr asks)
  rw [resolveDueDate_of_reads asks reads]
  by_cases notPast : today ≤ date
  · simp [notPast]
  · have past := lt_of_not_ge notPast
    rw [if_neg notPast]
    cases reads with
    | once _ => simp
    | rule read =>
        rw [Option.elim_some, map_eq_error_iff,
          Rule.nextOccurrence_eq_error_iff (Rule.valid_of_read read) dateWritable]
        simp [past]

theorem resolveDueDate_eq_error_iff (writable : today.Writable) :
    resolveDueDate today requested text = .error reason ↔
      SettlingFault today requested text reason := by
  constructor
  · intro failed
    rcases bind_eq_error_iff.mp failed with unasked | ⟨date, asked, later⟩
    · obtain ⟨asked, given, otherDay, unwritten, rfl⟩ := requestedDate_eq_error_iff.mp unasked
      exact .date given otherDay unwritten
    · have asks := requestedDate_eq_ok_iff.mp asked
      rcases bind_eq_error_iff.mp later with unread | ⟨rule?, read, -⟩
      · obtain ⟨shown, unread⟩ := readRepeat_eq_error_iff.mp unread
        exact .rule asks shown unread
      · have reads := readRepeat_eq_ok_iff.mp read
        obtain ⟨rfl, past, rule, rfl, beyond⟩ :=
          (resolveDueDate_of_reads_eq_error_iff writable asks reads).mp failed
        cases reads with
        | rule read => exact .overflow asks past read beyond
  · intro fault
    cases fault with
    | date given otherDay unwritten =>
        apply bind_eq_error_iff.mpr (.inl _)
        exact requestedDate_eq_error_iff.mpr ⟨_, given, otherDay, unwritten, rfl⟩
    | rule asks shown unread =>
        have unread := readRepeat_eq_error_iff.mpr ⟨shown, unread⟩
        exact bind_eq_error_iff.mpr
          (.inr ⟨_, requestedDate_eq_ok_iff.mpr asks, bind_eq_error_iff.mpr (.inl unread)⟩)
    | overflow asks past read beyond =>
        exact (resolveDueDate_of_reads_eq_error_iff writable asks (.rule read)).mpr
          ⟨rfl, past, _, rfl, beyond⟩

inductive CannotSettle (today : Date) (requested : Option String) (text : String) : Prop where
  | date {asked : String} : requested = some asked →
      ¬ (trimmed asked = "" ∨ trimmed asked = "today") → Date.ofWritten? (trimmed asked) = none →
        CannotSettle today requested text
  | rule : ¬ IsBlankText text → (∀ rule, Rule.read text ≠ .ok rule) →
      CannotSettle today requested text
  | overflow {asked : String} {due : Date} {rule : Rule} : requested = some asked →
      Date.ofWritten? (trimmed asked) = some due → due < today → Rule.read text = .ok rule →
        rule.LeadsBeyond due today → CannotSettle today requested text

theorem fails_resolveDueDate_iff (writable : today.Writable) :
    Fails (resolveDueDate today requested text) ↔ CannotSettle today requested text := by
  simp only [Fails, resolveDueDate_eq_error_iff writable]
  constructor
  · rintro ⟨reason, fault⟩
    cases fault with
    | date given otherDay unwritten => exact .date given otherDay unwritten
    | rule _ shown unread => exact .rule shown (fails_read_iff.mp ⟨_, unread⟩)
    | @overflow due rule asks past read beyond =>
        obtain ⟨asked, given, written⟩ := asks.exists_written_of_lt past
        have leads := Rule.exists_leadsTo (Rule.valid_of_read read) due today
        exact .overflow given written past read ⟨leads, beyond⟩
  · intro cannot
    cases cannot with
    | date given otherDay unwritten => exact ⟨_, .date given otherDay unwritten⟩
    | rule shown unread =>
        obtain ⟨reason, unread⟩ := fails_read_iff.mpr unread
        cases asked : requestedDate today requested with
        | error fault =>
            obtain ⟨asked, given, otherDay, unwritten, -⟩ := requestedDate_eq_error_iff.mp asked
            exact ⟨_, .date given otherDay unwritten⟩
        | ok date => exact ⟨reason, .rule (requestedDate_eq_ok_iff.mp asked) shown unread⟩
    | overflow given written past read beyond =>
        subst given
        exact ⟨_, .overflow (.written written) past read beyond.2⟩

end

section

variable {today date due : Date} {requested : Option String} {text settled : String}
  {reason : RuleError}

/-- A due date that is settled. -/
structure Settlement (today : Date) (requested : Option String) (text settled : String) (date due : Date) :
    Prop where
  asks : AsksFor today requested date
  digits : settled.toList.length = 8 ∧ ∀ char ∈ settled.toList, char.isDigit = true
  reads : Date.ofWritten? settled = some due
  notPast : today ≤ due
  stays : today ≤ date → due = date
  once : date < today → IsBlankText text → due = today
  moves : date < today → ¬ IsBlankText text → today < due ∧
    ∃ asked, requested = some asked ∧ nextDueDate today (trimmed asked) text = .ok settled
  again : resolveDueDate today (some settled) text = .ok settled

theorem exists_settlement (writable : today.Writable)
    (result : resolveDueDate today requested text = .ok settled) :
    ∃ date due, Settlement today requested text settled date due := by
  obtain ⟨date, rule?, due, asks, reads, settles, rfl⟩ := resolveDueDate_eq_ok_iff.mp result
  have dateWritable := writable_of_requestedDate writable (requestedDate_eq_ok_iff.mpr asks)
  have dueWritable := settles.writable writable dateWritable
  refine ⟨date, due, asks,
    ⟨Date.length_written dueWritable, fun _ => Date.isDigit_written dueWritable⟩,
    Date.ofWritten?_written dueWritable, settles.today_le reads dateWritable, ?_, ?_, ?_,
    resolveDueDate_again writable result⟩
  · intro notPast
    cases settles with
    | stays _ => rfl
    | today past => exact absurd past (not_lt_of_ge notPast)
    | next past _ => exact absurd past (not_lt_of_ge notPast)
  · intro past blank
    cases settles with
    | stays notPast => exact absurd past (not_lt_of_ge notPast)
    | today _ => rfl
    | next _ _ =>
        cases reads with
        | rule read => exact absurd blank (Rule.not_isBlankText_of_read read)
  · intro past shown
    cases settles with
    | stays notPast => exact absurd past (not_lt_of_ge notPast)
    | today _ =>
        cases reads with
        | once blank => exact absurd blank shown
    | next _ occurs =>
        cases reads with
        | rule read =>
            obtain ⟨asked, given, written⟩ := asks.exists_written_of_lt past
            refine ⟨Rule.lt_of_nextOccurrence read dateWritable occurs, asked, given, ?_⟩
            rw [nextDueDate_of_read written read, occurs]
            rfl

/-- A due date is never refused for want of a rule or of an occurrence. -/
theorem SettlingFault.ne (fault : SettlingFault today requested text reason) :
    reason ≠ .emptyRule ∧ reason ≠ .noOccurrence := by
  cases fault with
  | date _ _ _ => exact ⟨nofun, nofun⟩
  | rule _ shown unread =>
      have blames := Rule.blamesWord_of_read shown unread
      constructor
      · rintro rfl
        exact blames
      · rintro rfl
        exact blames
  | overflow _ _ _ _ => exact ⟨nofun, nofun⟩

/-- Settling a due date gives a date that is not in the past and stays if it is settled again, or the fault
that comes first. -/
theorem resolveDueDate_policy (writable : today.Writable) (requested : Option String) (text : String) :
    (∀ settled, resolveDueDate today requested text = .ok settled →
      ∃ date due, Settlement today requested text settled date due) ∧
    (∀ reason, resolveDueDate today requested text = .error reason ↔
      SettlingFault today requested text reason) ∧
    resolveDueDate today requested text ≠ .error .emptyRule ∧
    resolveDueDate today requested text ≠ .error .noOccurrence := by
  refine ⟨fun settled => exists_settlement writable, fun reason => resolveDueDate_eq_error_iff writable,
    fun failed => ?_, fun failed => ?_⟩
  · exact ((resolveDueDate_eq_error_iff writable).mp failed).ne.1 rfl
  · exact ((resolveDueDate_eq_error_iff writable).mp failed).ne.2 rfl

/-- Every week from the 1st of January 2024 on, given on the 20th of May, which is a day of the rule
itself. -/
theorem resolveDueDate_policy_late :
    ∃ today : Date, Date.ofFields? 2024 5 20 = some today ∧ today.Writable ∧
      resolveDueDate today (some " 20240101 ") "d  7" = .ok "20240527" ∧
      ∃ date due, Settlement today (some " 20240101 ") "d  7" "20240527" date due := by
  let today : Date := { year := 2024, month := 5, day := 20, day_le := by decide }
  have writable : today.Writable := by decide
  have result : resolveDueDate today (some " 20240101 ") "d  7" = .ok "20240527" := by decide +kernel
  exact ⟨today, rfl, writable, result, (resolveDueDate_policy writable _ _).1 _ result⟩

end

end Agenda
