import Agenda.Proofs.Text.Number
import Agenda.Rule

/-! A `Spelling` holds the numbers of a rule text as they are written. Which numbers are allowed and what
they stand for is said without the reader. -/

namespace Agenda.Rule

open Text

/-- The text writes the integers, one at least, with a comma between any two. -/
inductive WritesIntegers : List Char → List Int → Prop where
  | one {item : List Char} {value : Int} : WritesInteger item value → WritesIntegers item [value]
  | more {item rest : List Char} {value : Int} {values : List Int} :
      WritesInteger item value → WritesIntegers rest values →
        WritesIntegers (item ++ ',' :: rest) (value :: values)

variable {item list : List Char} {value low high : Int} {values : List Int} {field : RuleField}

theorem ne_nil_of_writesInteger (written : WritesInteger item value) : item ≠ [] := by
  cases written with
  | plain digits => exact digits.1
  | plus digits => simp
  | minus digits => simp

theorem comma_notMem_of_writesInteger (written : WritesInteger item value) : ',' ∉ item :=
  written.notMem (by decide)

theorem writesIntegers_intercalate {items : List (List Char)} (nonempty : items ≠ [])
    (written : List.Forall₂ WritesInteger items values) :
    WritesIntegers ([','].intercalate items) values := by
  induction written with
  | nil => contradiction
  | @cons item value items values first following ih =>
      cases following with
      | nil =>
          rw [List.intercalate_singleton]
          exact .one first
      | cons second others =>
          rw [List.intercalate_cons_cons, List.append_assoc]
          exact .more first (ih (by simp))

theorem writesIntegers_iff :
    WritesIntegers list values ↔ List.Forall₂ WritesInteger (list.splitOn ',') values := by
  refine ⟨fun written => ?_, fun written => ?_⟩
  · induction written with
    | one first =>
        rw [List.splitOn_eq_singleton (comma_notMem_of_writesInteger first)]
        exact .cons first .nil
    | more first _ ih =>
        rw [List.splitOn_append_cons_self_of_not_mem (comma_notMem_of_writesInteger first)]
        exact .cons first ih
  · have joined := writesIntegers_intercalate (List.splitOn_ne_nil ',' list) written
    rw [List.intercalate_splitOn] at joined
    exact joined

/-- Within bounds of 64 bits, it does not matter that larger numbers cannot be read. -/
theorem readNumber_eq_ok_iff (lowFits : IsInteger64 low) (highFits : IsInteger64 high) :
    readNumber field low high item = .ok value ↔
      WritesInteger item value ∧ low ≤ value ∧ value ≤ high := by
  refine ⟨fun accepted => ?_, fun ⟨written, within⟩ => ?_⟩
  · simp only [readNumber] at accepted
    cases read : readInteger item with
    | error fault => cases fault <;> simp [read] at accepted
    | ok result =>
        simp only [read] at accepted
        split at accepted
        · rename_i within
          cases accepted
          exact ⟨(readInteger_eq_ok_iff.mp read).1, within⟩
        · cases accepted
  · have fits : IsInteger64 value :=
      ⟨Int.le_trans lowFits.1 within.1, Int.le_trans within.2 highFits.2⟩
    have read := readInteger_eq_ok_iff.mpr ⟨written, fits⟩
    simp only [readNumber, read, if_pos within]

theorem readItem_eq_ok_iff (list : List Char) (lowFits : IsInteger64 low) (highFits : IsInteger64 high) :
    (if item = [] then .error (.malformed field (.emptyItem (String.ofList list)))
      else readNumber field low high item) = Except.ok value ↔
      WritesInteger item value ∧ low ≤ value ∧ value ≤ high := by
  rw [← @readNumber_eq_ok_iff item value low high field lowFits highFits]
  -- An empty item is refused before it is read, but it could not be read either.
  split
  · rename_i empty
    refine ⟨fun accepted => (by cases accepted), fun accepted => ?_⟩
    have written := ((readNumber_eq_ok_iff lowFits highFits).mp accepted).1
    exact absurd empty (ne_nil_of_writesInteger written)
  · rfl

theorem readNumbers_eq_ok_iff (lowFits : IsInteger64 low) (highFits : IsInteger64 high) :
    readNumbers field low high list = .ok values ↔
      WritesIntegers list values ∧ ∀ value ∈ values, low ≤ value ∧ value ≤ high := by
  rw [readNumbers, mapM_eq_ok_iff, writesIntegers_iff]
  simp only [readItem_eq_ok_iff list lowFits highFits]
  generalize list.splitOn ',' = items
  refine ⟨fun all => ?_, fun all => ?_⟩
  · induction all with
    | nil => exact ⟨.nil, by simp⟩
    | cons first _ ih => exact ⟨.cons first.1 ih.1, List.forall_mem_cons.mpr ⟨first.2, ih.2⟩⟩
  · obtain ⟨written, within⟩ := all
    induction written with
    | nil => exact .nil
    | cons first _ ih =>
        obtain ⟨firstWithin, within⟩ := List.forall_mem_cons.mp within
        exact .cons ⟨first, firstWithin⟩ (ih within)

/-- The numbers of a rule text. -/
inductive Spelling where
  | daily (interval : Int)
  | yearly
  | weekly (weekdays : List Int)
  | monthly (days : List Int) (months : Option (List Int))

/-- The days are the given numbers, each once, in the order in which they appear first. -/
def FirstAppearances (numbers days : List Int) : Prop :=
  (∀ day, day ∈ days ↔ day ∈ numbers) ∧
    days.Pairwise fun a b => numbers.idxOf a < numbers.idxOf b

/-- The weekdays are the given numbers in ascending order, with 7 turned into 0. -/
def WeekdaysOf (numbers : List Int) (weekdays : List Nat) : Prop :=
  weekdays.Pairwise (· < ·) ∧
    ∀ weekday : Nat, weekday ∈ weekdays ↔
      ∃ number ∈ numbers, (weekday : Int) = if number = 7 then 0 else number

def MonthsOf (numbers : List Int) (months : List Nat) : Prop :=
  months.Pairwise (· < ·) ∧ ∀ month : Nat, month ∈ months ↔ (month : Int) ∈ numbers

namespace Spelling

/-- The words spell the numbers. -/
inductive OfWords : List (List Char) → Spelling → Prop where
  | daily {item : List Char} {interval : Int} :
      WritesInteger item interval → OfWords [['d'], item] (.daily interval)
  | yearly : OfWords [['y']] .yearly
  | weekly {list : List Char} {weekdays : List Int} :
      WritesIntegers list weekdays → OfWords [['w'], list] (.weekly weekdays)
  | monthly {list : List Char} {days : List Int} :
      WritesIntegers list days → OfWords [['m'], list] (.monthly days none)
  | monthlyWithin {list others : List Char} {days months : List Int} :
      WritesIntegers list days → WritesIntegers others months →
        OfWords [['m'], list, others] (.monthly days (some months))

/-- February has 29 days at most, April, June, September and November have 30, and any other month has 31.
-/
def mostDays (month : Int) : Int :=
  if month = 2 then 29 else if month = 4 ∨ month = 6 ∨ month = 9 ∨ month = 11 then 30 else 31

/-- The numbers are within their bounds, and some day exists in some month. -/
def Admissible : Spelling → Prop
  | .daily interval => 1 ≤ interval ∧ interval ≤ 400
  | .yearly => True
  | .weekly weekdays => ∀ weekday ∈ weekdays, 1 ≤ weekday ∧ weekday ≤ 7
  | .monthly days months =>
      (∀ day ∈ days, -2 ≤ day ∧ day ≤ 31 ∧ day ≠ 0) ∧
        ∀ listed ∈ months, (∀ month ∈ listed, 1 ≤ month ∧ month ≤ 12) ∧
          ∃ day ∈ days, day < 0 ∨ ∃ month ∈ listed, day ≤ mostDays month

inductive Means : Spelling → Rule → Prop where
  | daily (interval : Nat) : Means (.daily interval) (.daily interval)
  | yearly : Means .yearly .yearly
  | weekly {numbers : List Int} {weekdays : List Nat} :
      WeekdaysOf numbers weekdays → Means (.weekly numbers) (.weekly weekdays)
  | monthly {numbers days : List Int} :
      FirstAppearances numbers days → Means (.monthly numbers none) (.monthly days none)
  | monthlyWithin {numbers days others : List Int} {months : List Nat} :
      FirstAppearances numbers days → MonthsOf others months →
        Means (.monthly numbers (some others)) (.monthly days (some months))

end Spelling

theorem eq_of_pairwise_of_mem_iff {α : Type} {before : α → α → Prop}
    (asymmetric : ∀ a b, before a b → ¬ before b a) {first second : List α}
    (firstOrdered : first.Pairwise before) (secondOrdered : second.Pairwise before)
    (same : ∀ a, a ∈ first ↔ a ∈ second) : first = second := by
  have irreflexive (a : α) : ¬ before a a := fun less => asymmetric a a less less
  have distinct {list : List α} (ordered : list.Pairwise before) : list.Nodup := by
    refine ordered.imp fun {a b} less => ?_
    intro same
    subst same
    exact irreflexive a less
  have perm := (List.perm_ext_iff_of_nodup (distinct firstOrdered) (distinct secondOrdered)).mpr same
  exact perm.eq_of_pairwise (fun a b _ _ less greater => absurd greater (asymmetric a b less))
    firstOrdered secondOrdered

theorem ascending_eq_iff {bound : Nat} {numbers list : List Nat} :
    ascending bound numbers = list ↔
      list.Pairwise (· < ·) ∧ ∀ number, number ∈ list ↔ number < bound ∧ number ∈ numbers := by
  have ordered : (ascending bound numbers).Pairwise (· < ·) :=
    List.Pairwise.filter _ List.pairwise_lt_range
  have members (number : Nat) :
      number ∈ ascending bound numbers ↔ number < bound ∧ number ∈ numbers := by
    simp [ascending]
  refine ⟨fun same => same ▸ ⟨ordered, members⟩, fun ⟨listOrdered, listMembers⟩ => ?_⟩
  exact eq_of_pairwise_of_mem_iff (fun _ _ => Nat.lt_asymm) ordered listOrdered
    fun number => (members number).trans (listMembers number).symm

/-- Leaving out other members does not change which of two comes first. -/
theorem idxOf_lt_of_idxOf_filter_lt {keep : Int → Bool} {list : List Int} {a b : Int}
    (keepA : keep a = true) (keepB : keep b = true)
    (less : (list.filter keep).idxOf a < (list.filter keep).idxOf b) :
    list.idxOf a < list.idxOf b := by
  induction list with
  | nil => exact less
  | cons first rest ih =>
      -- If `b` came first, it would come first among the kept members as well.
      by_cases isB : first = b
      · subst isB
        rw [List.filter_cons_of_pos keepB, List.idxOf_cons_self] at less
        exact absurd less (Nat.not_lt_zero _)
      · rw [List.idxOf_cons_ne _ isB]
        by_cases isA : first = a
        · subst isA
          rw [List.idxOf_cons_self]
          exact Nat.succ_pos _
        · rw [List.idxOf_cons_ne _ isA]
          apply Nat.succ_lt_succ
          apply ih
          by_cases kept : keep first = true
          · rw [List.filter_cons_of_pos kept, List.idxOf_cons_ne _ isA,
              List.idxOf_cons_ne _ isB] at less
            exact Nat.lt_of_succ_lt_succ less
          · rw [List.filter_cons_of_neg kept] at less
            exact less

theorem pairwise_eraseDups (numbers : List Int) :
    numbers.eraseDups.Pairwise fun a b => numbers.idxOf a < numbers.idxOf b := by
  match numbers with
  | [] => exact .nil
  | first :: rest =>
      rw [List.eraseDups_cons, List.pairwise_cons]
      let keep : Int → Bool := fun number => !number == first
      have kept {number : Int} (member : number ∈ (rest.filter keep).eraseDups) :
          keep number = true := (List.mem_filter.mp (List.mem_eraseDups.mp member)).2
      have later {number : Int} (member : number ∈ (rest.filter keep).eraseDups) :
          (first :: rest).idxOf number = rest.idxOf number + 1 := by
        refine List.idxOf_cons_ne _ fun same => ?_
        simpa [keep, same] using kept member
      refine ⟨fun number member => ?_, ?_⟩
      · rw [List.idxOf_cons_self, later member]
        exact Nat.succ_pos _
      · refine (pairwise_eraseDups (rest.filter keep)).imp_of_mem ?_
        intro a b memberA memberB less
        rw [later memberA, later memberB]
        exact Nat.succ_lt_succ (idxOf_lt_of_idxOf_filter_lt (kept memberA) (kept memberB) less)
termination_by numbers.length
decreasing_by exact Nat.lt_succ_of_le (List.length_filter_le _ _)

theorem eraseDups_eq_iff {numbers days : List Int} :
    numbers.eraseDups = days ↔ FirstAppearances numbers days := by
  refine ⟨fun same => same ▸ ⟨fun day => List.mem_eraseDups, pairwise_eraseDups numbers⟩, ?_⟩
  intro appearances
  exact eq_of_pairwise_of_mem_iff (fun _ _ => Nat.lt_asymm) (pairwise_eraseDups numbers)
    appearances.2 fun day => List.mem_eraseDups.trans (appearances.1 day).symm

end Agenda.Rule
