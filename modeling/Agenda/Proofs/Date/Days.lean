import Agenda.Proofs.Date.Months

/-! Moving by days is walking from each day to the next or the one before. Between two writable dates there
are no others, so a walk that is given up has left the writable years. -/

namespace Agenda.Date

variable {date found : Date} {count : Int}

def lastOf (year : Int) (month : Nat) (isMonth : 1 ≤ month ∧ month ≤ 12) : Date where
  year := year
  month := month
  day := lastDayOfMonth year month
  one_le_month := isMonth.1
  month_le := isMonth.2
  one_le_day := lastDayOfMonth_eq year month ▸ monthLength_pos year month
  day_le := Nat.le_of_eq (lastDayOfMonth_eq year month)

/-- The day before: within the month, else the last of the month before, else the last of December. -/
def previous (date : Date) : Date :=
  if notFirst : 1 < date.day then
    { date with
      day := date.day - 1
      one_le_day := Nat.le_sub_one_of_lt notFirst
      day_le := Nat.le_trans (Nat.sub_le _ _) date.day_le }
  else if notJanuary : 1 < date.month then
    lastOf date.year (date.month - 1)
      ⟨Nat.le_sub_one_of_lt notJanuary, Nat.le_trans (Nat.sub_le _ _) date.month_le⟩
  else lastOf (date.year - 1) 12 (by decide)

theorem dayNumber_previous (date : Date) : date.previous.dayNumber = date.dayNumber - 1 := by
  have pos := date.one_le_day
  unfold previous
  split
  · simp only [dayNumber]
    omega
  · split
    · rename_i notJanuary
      have start := daysBeforeMonth_succ date.year (show 1 ≤ date.month - 1 by omega)
      have long := monthLength_pos date.year (date.month - 1)
      rw [show date.month - 1 + 1 = date.month by omega] at start
      simp only [dayNumber, lastOf, lastDayOfMonth_eq]
      omega
    · have january : date.month = 1 := by
        have := date.one_le_month
        omega
      have start := daysBeforeMonth_succ (date.year - 1) (show 1 ≤ 12 by decide)
      have full := daysBeforeMonth_thirteen (date.year - 1)
      have long := monthLength_pos (date.year - 1) 12
      have year := daysBeforeYear_succ (date.year - 1)
      have first : daysBeforeMonth date.year 1 = 0 := rfl
      rw [Int.sub_add_cancel] at year
      simp only [Nat.reduceAdd, full] at start
      simp only [dayNumber, lastOf, january, lastDayOfMonth_eq]
      omega

theorem next_previous (date : Date) : date.previous.next = date := by
  rw [← dayNumber_inj, dayNumber_next, dayNumber_previous]
  omega

theorem previous_next (date : Date) : date.next.previous = date := by
  rw [← dayNumber_inj, dayNumber_previous, dayNumber_next]
  omega

def daysLater (date : Date) (count : Nat) : Date := next^[count] date

/-- The date that single steps lead to, to the day before if the number is negative. -/
def walk (date : Date) : Int → Date
  | .ofNat steps => date.daysLater steps
  | .negSucc steps => previous^[steps + 1] date

/-- Each date on the way, from the first step to the last, is writable. -/
def StaysWritable (date : Date) (count : Int) : Prop :=
  ∀ part, 0 < part ∧ part ≤ count ∨ count ≤ part ∧ part < 0 → (date.walk part).Writable

theorem dayNumber_daysLater (date : Date) (count : Nat) :
    (date.daysLater count).dayNumber = date.dayNumber + count := by
  induction count with
  | zero => simp [daysLater]
  | succ count ih =>
      rw [daysLater] at ih
      rw [daysLater, Function.iterate_succ_apply', dayNumber_next, ih]
      omega

theorem dayNumber_previous_iterate (date : Date) (count : Nat) :
    (previous^[count] date).dayNumber = date.dayNumber - count := by
  induction count with
  | zero => simp
  | succ count ih =>
      rw [Function.iterate_succ_apply', dayNumber_previous, ih]
      omega

theorem dayNumber_walk (date : Date) (count : Int) :
    (date.walk count).dayNumber = date.dayNumber + count := by
  cases count with
  | ofNat steps => exact dayNumber_daysLater date steps
  | negSucc steps =>
      rw [walk, dayNumber_previous_iterate]
      omega

theorem walk_add (date : Date) (first second : Int) :
    date.walk (first + second) = (date.walk first).walk second := by
  rw [← dayNumber_inj, dayNumber_walk, dayNumber_walk, dayNumber_walk, Int.add_assoc]

theorem addDays_eq_walk (date : Date) (count : Int) :
    date.addDays count = (date.walk count).writable? := by
  rw [addDays, ← dayNumber_walk, ofDayNumber_dayNumber]

theorem addDays_natCast (date : Date) (count : Nat) :
    date.addDays count = (date.daysLater count).writable? :=
  addDays_eq_walk date count

theorem addDays_one (date : Date) : date.addDays 1 = date.next.writable? :=
  addDays_eq_walk date 1

theorem writable_of_between {first between last : Date} (firstWritable : first.Writable)
    (lastWritable : last.Writable) (after : first ≤ between) (before : between ≤ last) :
    between.Writable := by
  have low := year_le_of_le after
  have high := year_le_of_le before
  exact ⟨le_trans firstWritable.1 low, le_trans high lastWritable.2⟩

theorem staysWritable_iff (writable : date.Writable) :
    date.StaysWritable count ↔ (date.walk count).Writable := by
  constructor
  · intro stays
    by_cases still : count = 0
    · rw [still]
      exact writable
    · exact stays count (by omega)
  · intro reached part between
    have place := dayNumber_walk date part
    have last := dayNumber_walk date count
    rcases between with forward | backward
    · apply writable_of_between writable reached <;> rw [le_iff_dayNumber_le] <;> omega
    · apply writable_of_between reached writable <;> rw [le_iff_dayNumber_le] <;> omega

theorem addDays_eq_some_iff (writable : date.Writable) :
    date.addDays count = some found ↔ date.StaysWritable count ∧ date.walk count = found := by
  rw [addDays_eq_walk, writable?_eq_some_iff, staysWritable_iff writable]

theorem addDays_eq_none_iff (writable : date.Writable) :
    date.addDays count = none ↔ ¬ date.StaysWritable count := by
  rw [addDays_eq_walk, writable?_eq_none_iff, staysWritable_iff writable]

theorem addDays_addDays {between : Date} {first : Int} (moved : date.addDays first = some between)
    (second : Int) : between.addDays second = date.addDays (first + second) := by
  rw [addDays_eq_walk] at moved
  obtain ⟨-, rfl⟩ := writable?_eq_some_iff.mp moved
  rw [addDays_eq_walk, addDays_eq_walk, walk_add]

theorem addDays64_eq (date : Date) (count : Int) : date.addDays64 count = date.addDays count := by
  have reached : (if 0 ≤ count then date.dayNumber + count.natAbs else date.dayNumber - count.natAbs) =
      date.dayNumber + count := by
    split <;> omega
  ext found
  simp only [addDays64, reached, addDays, Option.bind_eq_bind, Option.bind_eq_some_iff,
    searchable?_eq_some_iff, writable?_eq_some_iff]
  constructor
  · intro checked
    obtain ⟨_, ⟨-, rfl⟩, writable, rfl⟩ := checked
    exact ⟨writable, rfl⟩
  · intro moved
    obtain ⟨writable, rfl⟩ := moved
    refine ⟨_, ⟨?_, rfl⟩, writable, rfl⟩
    unfold Writable at writable
    unfold SearchableYear
    omega

theorem weekday_previous (date : Date) : (date.previous.weekday + 1) % 7 = date.weekday := by
  rw [← weekday_next, next_previous]

/-- To move a writable date by days is to take that many single steps, as the lengths of the months say
them, and the move is given up just if one of these steps leads out of the writable years. A move after
another leads to where both together lead. The steps undo each other, and each of them leads to another
weekday in turn. In 64 bits the same is found, also for the least integer. -/
theorem addDays_walked (writable : date.Writable) :
    (∀ count found, date.addDays count = some found ↔
      date.StaysWritable count ∧ date.walk count = found) ∧
    (∀ count, date.addDays count = none ↔ ¬ date.StaysWritable count) ∧
    (∀ first second between, date.addDays first = some between →
      between.addDays second = date.addDays (first + second)) ∧
    (∀ day : Date, day.next.weekday = (day.weekday + 1) % 7 ∧
      (day.previous.weekday + 1) % 7 = day.weekday ∧ day.previous.next = day ∧
      day.next.previous = day) ∧
    ∀ count, Text.IsInteger64 count →
      count.natAbs ≤ Text.largestNatural ∧ date.addDays64 count = date.addDays count := by
  refine ⟨fun count found => addDays_eq_some_iff writable, fun count => addDays_eq_none_iff writable,
    fun first second between moved => addDays_addDays moved second, fun day => ?_, fun count held => ?_⟩
  · exact ⟨weekday_next day, weekday_previous day, next_previous day, previous_next day⟩
  · refine ⟨?_, addDays64_eq date count⟩
    have least : Text.largestInteger + 1 ≤ Text.largestNatural := by decide
    unfold Text.IsInteger64 at held
    omega

theorem addDays_walked_leapDay :
    let date := leapDay 2096 (by decide)
    date.Writable ∧ date.StaysWritable 366 ∧ date.walk 366 = firstOfMarch 2097 ∧
      (firstOfMarch 2097).addDays (-366) = date.addDays (366 + -366) ∧
      Text.IsInteger64 (-9223372036854775808) ∧ date.addDays64 (-9223372036854775808) = none ∧
      ¬ date.StaysWritable (-9223372036854775808) := by
  intro date
  have writable : date.Writable := by decide
  obtain ⟨moves, givesUp, together, -, bounded⟩ := addDays_walked writable
  have moved : date.addDays 366 = some (firstOfMarch 2097) := by decide +kernel
  have beyond : date.addDays (-9223372036854775808) = none := by decide +kernel
  obtain ⟨stays, reached⟩ := (moves _ _).mp moved
  have least : Text.IsInteger64 (-9223372036854775808) := by decide
  refine ⟨writable, stays, reached, together _ _ _ moved, least, ?_, (givesUp _).mp beyond⟩
  rw [(bounded _ least).2, beyond]

end Agenda.Date
