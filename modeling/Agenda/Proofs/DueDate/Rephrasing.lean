import Agenda.Proofs.Occurrence.Schedule
import Mathlib.Data.List.Perm.Basic
import Mathlib.Logic.Relation

/-! A rule text may be put into other words that leave the set of its numbers as it is. What a search finds
depends on these numbers alone. -/

namespace Agenda

open Text

namespace Rule

/-- One change to an integer that has no minus sign. -/
inductive Respells : List Char → List Char → Prop where
  | zero {digits : List Char} : IsDigits digits → Respells digits ('0' :: digits)
  | zeroBehindPlus {digits : List Char} :
      IsDigits digits → Respells ('+' :: digits) ('+' :: '0' :: digits)
  | plus {digits : List Char} : IsDigits digits → Respells digits ('+' :: digits)

/-- One change to the items of a list. -/
inductive Relists : List (List Char) → List (List Char) → Prop where
  | permutes {items others : List (List Char)} : items.Perm others → Relists items others
  | repeats {item : List Char} {items : List (List Char)} : item ∈ items → Relists items (item :: items)
  | respells {item other : List Char} {before after : List (List Char)} :
      Respells item other → Relists (before ++ item :: after) (before ++ other :: after)

/-- One change to the words of a rule. -/
inductive Rewords : List (List Char) → List (List Char) → Prop where
  | interval {item other : List Char} : Respells item other → Rewords [['d'], item] [['d'], other]
  | weekdays {list other : List Char} :
      Relists (list.splitOn ',') (other.splitOn ',') → Rewords [['w'], list] [['w'], other]
  | days {list other : List Char} {months : List (List Char)} :
      Relists (list.splitOn ',') (other.splitOn ',') →
        Rewords (['m'] :: list :: months) (['m'] :: other :: months)
  | months {days list other : List Char} :
      Relists (list.splitOn ',') (other.splitOn ',') → Rewords [['m'], days, list] [['m'], days, other]

/-- The words of one text become those of the other by changes that leave the numbers as they are. -/
def Rephrases (text other : String) : Prop :=
  ∃ words others, HasWords text.toList words ∧ HasWords other.toList others ∧
    Relation.ReflTransGen Rewords words others

variable {item other list : List Char} {items others : List (List Char)} {value : Int}
  {numbers : List Int} {spelling first second third : Spelling} {text textElse : String} {rule : Rule}

theorem IsDigits.zero_cons (digits : IsDigits item) : IsDigits ('0' :: item) :=
  ⟨by simp, List.forall_mem_cons.mpr ⟨by decide, digits.2⟩⟩

theorem digitsValue_zero_cons (digits : List Char) : digitsValue ('0' :: digits) = digitsValue digits := by
  rw [digitsValue_cons]
  simp

theorem Respells.writesInteger (respells : Respells item other) (written : WritesInteger item value) :
    WritesInteger other value := by
  cases respells with
  | zero digits =>
      rw [writesInteger_of_isDigits digits written, ← digitsValue_zero_cons]
      exact .plain (IsDigits.zero_cons digits)
  | zeroBehindPlus digits =>
      rw [(writesInteger_plus_iff.mp written).2, ← digitsValue_zero_cons]
      exact .plus (IsDigits.zero_cons digits)
  | plus digits =>
      rw [writesInteger_of_isDigits digits written]
      exact .plus digits

theorem forall₂_writesInteger_of_respells {before after : List (List Char)}
    (respells : Respells item other)
    (written : List.Forall₂ WritesInteger (before ++ item :: after) numbers) :
    List.Forall₂ WritesInteger (before ++ other :: after) numbers := by
  obtain ⟨front, back, rfl, unchanged, rest⟩ := forall₂_append_left_iff.mp written
  cases rest with
  | cons respelt later =>
      exact forall₂_append_left_iff.mpr ⟨front, _, rfl, unchanged, .cons (respells.writesInteger respelt) later⟩

theorem Relists.exists_numbers (relists : Relists items others)
    (written : List.Forall₂ WritesInteger items numbers) :
    ∃ more, List.Forall₂ WritesInteger others more ∧ ∀ number, number ∈ more ↔ number ∈ numbers := by
  cases relists with
  | permutes perm =>
      obtain ⟨more, writtenElse, permElse⟩ := List.perm_comp_forall₂ perm.symm written
      exact ⟨more, writtenElse, fun number => permElse.mem_iff⟩
  | repeats member =>
      obtain ⟨more, writtenElse, perm⟩ :=
        List.perm_comp_forall₂ (List.perm_cons_erase member).symm written
      cases writtenElse with
      | @cons _ value _ rest first _ =>
          have known : value ∈ numbers := perm.mem_iff.mp List.mem_cons_self
          refine ⟨value :: numbers, .cons first written, fun number => ?_⟩
          rw [List.mem_cons, or_iff_right_of_imp]
          rintro rfl
          exact known
  | respells respells =>
      exact ⟨numbers, forall₂_writesInteger_of_respells respells written, fun _ => Iff.rfl⟩

theorem exists_writesIntegers_of_relists {relisted : List Char}
    (relists : Relists (list.splitOn ',') (relisted.splitOn ',')) (written : WritesIntegers list numbers) :
    ∃ more, WritesIntegers relisted more ∧ ∀ number, number ∈ more ↔ number ∈ numbers := by
  obtain ⟨more, writtenElse, same⟩ := relists.exists_numbers (writesIntegers_iff.mp written)
  exact ⟨more, writesIntegers_iff.mpr writtenElse, same⟩

/-- The spellings have the same numbers in each place, in any order and any number of times. -/
inductive Spelling.SameNumbers : Spelling → Spelling → Prop where
  | daily (interval : Int) : SameNumbers (.daily interval) (.daily interval)
  | yearly : SameNumbers .yearly .yearly
  | weekly {weekdays more : List Int} :
      (∀ number, number ∈ more ↔ number ∈ weekdays) → SameNumbers (.weekly weekdays) (.weekly more)
  | monthly {days more : List Int} :
      (∀ number, number ∈ more ↔ number ∈ days) →
        SameNumbers (.monthly days none) (.monthly more none)
  | monthlyWithin {days more months others : List Int} :
      (∀ number, number ∈ more ↔ number ∈ days) → (∀ number, number ∈ others ↔ number ∈ months) →
        SameNumbers (.monthly days (some months)) (.monthly more (some others))

theorem Spelling.SameNumbers.refl (spelling : Spelling) : SameNumbers spelling spelling := by
  cases spelling with
  | daily interval => exact .daily interval
  | yearly => exact .yearly
  | weekly weekdays => exact .weekly fun _ => Iff.rfl
  | monthly days months =>
      cases months with
      | none => exact .monthly fun _ => Iff.rfl
      | some months => exact .monthlyWithin (fun _ => Iff.rfl) fun _ => Iff.rfl

theorem Spelling.SameNumbers.trans (same : SameNumbers first second)
    (sameElse : SameNumbers second third) : SameNumbers first third := by
  cases same with
  | daily interval => exact sameElse
  | yearly => exact sameElse
  | weekly weekdays =>
      cases sameElse with
      | weekly weekdaysElse => exact .weekly fun number => (weekdaysElse number).trans (weekdays number)
  | monthly days =>
      cases sameElse with
      | monthly daysElse => exact .monthly fun number => (daysElse number).trans (days number)
  | monthlyWithin days months =>
      cases sameElse with
      | monthlyWithin daysElse monthsElse =>
          exact .monthlyWithin (fun number => (daysElse number).trans (days number))
            fun number => (monthsElse number).trans (months number)

theorem Spelling.SameNumbers.admissible (same : SameNumbers first second)
    (admissible : first.Admissible) : second.Admissible := by
  cases same with
  | daily interval => exact admissible
  | yearly => trivial
  | weekly weekdays => exact fun weekday member => admissible weekday ((weekdays weekday).mp member)
  | monthly days =>
      refine ⟨fun day member => admissible.1 day ((days day).mp member), ?_⟩
      intro listed impossible
      cases impossible
  | monthlyWithin days months =>
      obtain ⟨within, fits⟩ := admissible
      refine ⟨fun day member => within day ((days day).mp member), fun listed member => ?_⟩
      cases member
      simpa only [days, months] using fits _ rfl

theorem exists_sameNumbers_of_rewords {words reworded : List (List Char)}
    (rewords : Rewords words reworded) (spelled : Spelling.OfWords words spelling) :
    ∃ spellingElse, Spelling.OfWords reworded spellingElse ∧ spelling.SameNumbers spellingElse := by
  cases rewords with
  | interval respells =>
      cases spelled with
      | daily written => exact ⟨_, .daily (respells.writesInteger written), .refl _⟩
  | weekdays relists =>
      cases spelled with
      | weekly written =>
          obtain ⟨more, writtenElse, same⟩ := exists_writesIntegers_of_relists relists written
          exact ⟨_, .weekly writtenElse, .weekly same⟩
  | days relists =>
      cases spelled with
      | monthly written =>
          obtain ⟨more, writtenElse, same⟩ := exists_writesIntegers_of_relists relists written
          exact ⟨_, .monthly writtenElse, .monthly same⟩
      | monthlyWithin written months =>
          obtain ⟨more, writtenElse, same⟩ := exists_writesIntegers_of_relists relists written
          exact ⟨_, .monthlyWithin writtenElse months, .monthlyWithin same fun _ => Iff.rfl⟩
  | months relists =>
      cases spelled with
      | monthlyWithin days written =>
          obtain ⟨more, writtenElse, same⟩ := exists_writesIntegers_of_relists relists written
          exact ⟨_, .monthlyWithin days writtenElse, .monthlyWithin (fun _ => Iff.rfl) same⟩

theorem exists_sameNumbers_of_rewordings {words reworded : List (List Char)}
    (rewordings : Relation.ReflTransGen Rewords words reworded)
    (spelled : Spelling.OfWords words spelling) :
    ∃ spellingElse, Spelling.OfWords reworded spellingElse ∧ spelling.SameNumbers spellingElse := by
  induction rewordings with
  | refl => exact ⟨spelling, spelled, .refl spelling⟩
  | tail _ rewords ih =>
      obtain ⟨between, spelledBetween, same⟩ := ih
      obtain ⟨last, spelledLast, sameLast⟩ := exists_sameNumbers_of_rewords rewords spelledBetween
      exact ⟨last, spelledLast, same.trans sameLast⟩

theorem exists_read_of_rephrases (rephrases : Rephrases text textElse)
    (read : Rule.read text = .ok rule) :
    ∃ (spelling spellingElse : Spelling) (ruleElse : Rule), Rule.read textElse = .ok ruleElse ∧
      spelling.SameNumbers spellingElse ∧ spelling.Means rule ∧ spellingElse.Means ruleElse := by
  obtain ⟨words, reworded, taken, takenElse, rewordings⟩ := rephrases
  obtain ⟨wordsRead, spelling, takenRead, spelled, admissible, means⟩ := read_eq_ok_iff.mp read
  obtain rfl : wordsRead = words := takenRead.words_eq.symm.trans taken.words_eq
  obtain ⟨spellingElse, spelledElse, same⟩ := exists_sameNumbers_of_rewordings rewordings spelled
  have admissibleElse := same.admissible admissible
  obtain ⟨ruleElse, meansElse⟩ := exists_means spelledElse admissibleElse
  exact ⟨spelling, spellingElse, ruleElse,
    read_eq_ok_iff.mpr ⟨reworded, spellingElse, takenElse, spelledElse, admissibleElse, meansElse⟩,
    same, means, meansElse⟩

end Rule

variable {rule ruleElse : Rule} {start date : Date} {text textElse : String}

namespace Rule

variable {spelling spellingElse : Spelling} {interval : Int}

theorem eq_daily_of_means (means : Spelling.Means (.daily interval) rule) :
    rule = .daily interval.toNat := by
  cases means
  rfl

theorem leadsTo_iff_of_sameNumbers (same : spelling.SameNumbers spellingElse)
    (means : spelling.Means rule) (meansElse : spellingElse.Means ruleElse) :
    rule.LeadsTo start date ↔ ruleElse.LeadsTo start date := by
  cases same with
  | daily interval => rw [eq_daily_of_means means, eq_daily_of_means meansElse]
  | yearly =>
      cases means
      cases meansElse
      rfl
  | weekly weekdays =>
      cases means with
      | weekly weekdaysOf =>
          cases meansElse with
          | weekly weekdaysElse =>
              simp only [LeadsTo, Recurs, FallsOn, weekdaysOf.2, weekdaysElse.2, weekdays]
  | monthly days =>
      cases means with
      | monthly appearances =>
          cases meansElse with
          | monthly appearancesElse =>
              simp only [LeadsTo, Recurs, FallsOn, appearances.1, appearancesElse.1, days]
  | monthlyWithin days months =>
      cases means with
      | monthlyWithin appearances monthsOf =>
          cases meansElse with
          | monthlyWithin appearancesElse monthsElse =>
              simp only [LeadsTo, Recurs, FallsOn, Option.some.injEq, exists_eq_left', reduceCtorEq,
                appearances.1, appearancesElse.1, days, monthsOf.2, monthsElse.2, months]

/-- Rules that lead to the same dates have the same next occurrence, or none for the same reason. -/
theorem nextOccurrence_congr (valid : rule.Valid) (validElse : ruleElse.Valid)
    (writable : start.Writable)
    (same : ∀ date, rule.LeadsTo start date ↔ ruleElse.LeadsTo start date) (now : Date) :
    rule.nextOccurrence start now = ruleElse.nextOccurrence start now := by
  have finds := finds_nextOccurrence_of_leadsTo valid writable now
  have findsElse := finds_nextOccurrence_of_leadsTo validElse writable now
  exact (finds.of_iff fun date => and_congr_left fun _ => same date).unique findsElse

end Rule

theorem nextDueDate_congr (read : Rule.read text = .ok rule)
    (readElse : Rule.read textElse = .ok ruleElse)
    (same : ∀ start date, rule.LeadsTo start date ↔ ruleElse.LeadsTo start date) (now : Date)
    (due : String) : nextDueDate now due textElse = nextDueDate now due text := by
  cases written : Date.ofWritten? due with
  | none => simp only [nextDueDate, readDueDate, written, bind, Except.bind]
  | some start =>
      have writable := Date.writable_of_ofWritten? written
      rw [nextDueDate_of_read written read, nextDueDate_of_read written readElse,
        Rule.nextOccurrence_congr (Rule.valid_of_read read) (Rule.valid_of_read readElse) writable
          (same start)]

theorem Rule.rephrases_daysInOtherOrder : Rule.Rephrases "m 1,15" " m  +015,1,15\t" := by
  refine ⟨["m".toList, "1,15".toList], ["m".toList, "+015,1,15".toList], words_eq_iff.mp (by decide),
    words_eq_iff.mp (by decide), ?_⟩
  have digits : IsDigits "15".toList := by decide
  have repeated : Relists ("1,15".toList.splitOn ',') ("15,1,15".toList.splitOn ',') :=
    @Relists.repeats "15".toList ["1".toList, "15".toList] (by decide)
  have signed : Relists ("15,1,15".toList.splitOn ',') ("+15,1,15".toList.splitOn ',') :=
    @Relists.respells "15".toList "+15".toList [] ["1".toList, "15".toList] (.plus digits)
  have padded : Relists ("+15,1,15".toList.splitOn ',') ("+015,1,15".toList.splitOn ',') :=
    @Relists.respells "+15".toList "+015".toList [] ["1".toList, "15".toList]
      (.zeroBehindPlus digits)
  exact ((Relation.ReflTransGen.single (.days repeated)).tail (.days signed)).tail (.days padded)

/-- A text in other words is read too and moves every due date alike, though it need not be read as the same
rule: a monthly rule keeps its days in the order in which they are written. -/
theorem nextDueDate_of_rephrases :
    (∀ text textElse rule, Rule.Rephrases text textElse → Rule.read text = .ok rule →
      (∃ ruleElse, Rule.read textElse = .ok ruleElse) ∧
        ∀ now due, nextDueDate now due textElse = nextDueDate now due text) ∧
    ∃ text textElse rule ruleElse, Rule.Rephrases text textElse ∧ Rule.read text = .ok rule ∧
      Rule.read textElse = .ok ruleElse ∧ rule ≠ ruleElse := by
  constructor
  · intro text textElse rule rephrases read
    obtain ⟨spelling, spellingElse, ruleElse, readElse, same, means, meansElse⟩ :=
      Rule.exists_read_of_rephrases rephrases read
    refine ⟨⟨ruleElse, readElse⟩, nextDueDate_congr read readElse fun start date => ?_⟩
    exact Rule.leadsTo_iff_of_sameNumbers same means meansElse
  · exact ⟨"m 1,15", " m  +015,1,15\t", .monthly [1, 15] none, .monthly [15, 1] none,
      Rule.rephrases_daysInOtherOrder, by decide, by decide, by decide⟩

theorem nextDueDate_of_rephrases_daysInOtherOrder :
    ∃ today : Date, Date.ofFields? 2024 5 20 = some today ∧
      nextDueDate today "20240105" "m 1,15" = .ok "20240601" ∧
      (∃ ruleElse, Rule.read " m  +015,1,15\t" = .ok ruleElse) ∧
      nextDueDate today "20240105" " m  +015,1,15\t" = .ok "20240601" := by
  have read : Rule.read "m 1,15" = .ok (.monthly [1, 15] none) := by decide
  obtain ⟨readElse, same⟩ := nextDueDate_of_rephrases.1 _ _ _ Rule.rephrases_daysInOtherOrder read
  let today : Date := { year := 2024, month := 5, day := 20, day_le := by decide }
  have moves : nextDueDate today "20240105" "m 1,15" = .ok "20240601" := by decide +kernel
  exact ⟨today, rfl, moves, readElse, (same today "20240105").trans moves⟩

end Agenda
