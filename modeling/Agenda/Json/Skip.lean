import Agenda.Json.Numeral

/-! Values that nobody asks for are skipped. One of the wrong kind is refused: a plain value after it is
read to its end, so that its own faults come first, a list or an object at its opening bracket. -/

namespace Agenda.Json

inductive Plain where
  | word (letters : List Char)
  | number
  | text
deriving DecidableEq, Repr

def plain? : Char → Option Plain
  | 'n' => some (.word ['n', 'u', 'l', 'l'])
  | 't' => some (.word ['t', 'r', 'u', 'e'])
  | 'f' => some (.word ['f', 'a', 'l', 's', 'e'])
  | '-' => some .number
  | '"' => some .text
  | char => if char.isDigit then some .number else none

/-- The fault of a value that is of the wrong kind. -/
def refusal (chars : List Char) : Fault :=
  match skipSpace chars with
  | [] => .endOfText
  | '[' :: _ | '{' :: _ => .mismatch
  | char :: rest =>
      match plain? char with
      | none => .malformed
      | some (.word letters) =>
          match takeWord letters (char :: rest) with
          | .ok _ => .mismatch
          | .error fault => fault
      | some .number =>
          match readNumber (char :: rest) with
          | .ok _ => .mismatch
          | .error fault => fault
      | some .text =>
          match readText rest with
          | .ok _ => .mismatch
          | .error fault => fault

/-- Skips a plain value, which starts with the first character. -/
def skipPlain : List Char → Except Fault (List Char)
  | [] => .error .endOfText
  | char :: rest =>
      match plain? char with
      | none => .error .malformed
      | some (.word letters) => takeWord letters.tail rest
      | some .number => skipNumber (char :: rest)
      | some .text => skipText rest

def skipKey (chars : List Char) : Except Fault (List Char) := do
  takeMark ':' (← skipText (← takeMark '"' chars))

theorem length_of_skipPlain {chars rest : List Char} (skipped : skipPlain chars = .ok rest) :
    rest.length < chars.length := by
  unfold skipPlain at skipped
  split at skipped
  · cases skipped
  · split at skipped
    · cases skipped
    · exact Nat.lt_succ_of_le (length_of_takeWord skipped)
    · exact length_of_skipNumber skipped
    · exact Nat.lt_succ_of_lt (length_of_skipText skipped)

theorem length_of_skipKey {chars rest : List Char} (skipped : skipKey chars = .ok rest) :
    rest.length < chars.length := by
  unfold skipKey at skipped
  cases opened : takeMark '"' chars with
  | error fault => simp [opened, bind, Except.bind] at skipped
  | ok key =>
      have openedShorter := length_of_takeMark opened
      simp only [opened, bind, Except.bind] at skipped
      cases closed : skipText key with
      | error fault => simp [closed] at skipped
      | ok afterKey =>
          have closedShorter := length_of_skipText closed
          simp only [closed] at skipped
          have := length_of_takeMark skipped
          omega

/-- The two kinds of value that hold others. -/
inductive Enclosure where
  | list
  | object
deriving DecidableEq, Repr

def Enclosure.closing : Enclosure → Char
  | .list => ']'
  | .object => '}'

def Enclosure.opened? : Char → Option Enclosure
  | '[' => some .list
  | '{' => some .object
  | _ => none

/-- Skips what stands before a value: nothing in a list, a key in an object. -/
def Enclosure.skipLead : Enclosure → List Char → Except Fault (List Char)
  | .list, chars => .ok chars
  | .object, chars => skipKey chars

theorem Enclosure.length_of_skipLead {enclosure : Enclosure} {chars rest : List Char}
    (skipped : enclosure.skipLead chars = .ok rest) : rest.length ≤ chars.length := by
  cases enclosure with
  | list =>
      cases skipped
      exact Nat.le_refl _
  | object => exact Nat.le_of_lt (length_of_skipKey skipped)

mutual

/-- Skips a value and then what remains of the enclosures that it stands in. -/
def skipWithin (enclosures : List Enclosure) (chars : List Char) : Except Fault (List Char) :=
  match start : skipSpace chars with
  | [] => .error .endOfText
  | first :: rest =>
      have := length_of_skipSpace start
      match Enclosure.opened? first with
      | none =>
          match plain : skipPlain (first :: rest) with
          | .error fault => .error fault
          | .ok rest =>
              have := length_of_skipPlain plain
              skipRemainder enclosures rest
      | some enclosure =>
          match inner : skipSpace rest with
          | [] => .error .endOfText
          | second :: afterSecond =>
              have := length_of_skipSpace inner
              if second = enclosure.closing then skipRemainder enclosures afterSecond
              else
                match lead : enclosure.skipLead rest with
                | .error fault => .error fault
                | .ok rest =>
                    have := Enclosure.length_of_skipLead lead
                    skipWithin (enclosure :: enclosures) rest
termination_by chars.length
decreasing_by all_goals grind

/-- Skips what remains of enclosures after one of their values. -/
def skipRemainder (enclosures : List Enclosure) (chars : List Char) : Except Fault (List Char) :=
  match enclosures with
  | [] => .ok chars
  | enclosure :: outer =>
      match start : skipSpace chars with
      | [] => .error .endOfText
      | first :: rest =>
          have := length_of_skipSpace start
          if first = ',' then
            match lead : enclosure.skipLead rest with
            | .error fault => .error fault
            | .ok rest =>
                have := Enclosure.length_of_skipLead lead
                skipWithin (enclosure :: outer) rest
          else if first = enclosure.closing then skipRemainder outer rest
          else .error .malformed
termination_by chars.length
decreasing_by all_goals grind

end

theorem length_of_skipWithin (enclosures : List Enclosure) (chars : List Char) :
    ∀ rest, skipWithin enclosures chars = .ok rest → rest.length < chars.length := by
  apply skipWithin.induct
    (fun enclosures chars => ∀ rest, skipWithin enclosures chars = .ok rest →
      rest.length < chars.length)
    (fun enclosures chars => ∀ rest, skipRemainder enclosures chars = .ok rest →
      rest.length ≤ chars.length)
  case case8 | case9 | case10 | case11 | case12 | case13 =>
    intros
    rename_i skipped
    rw [skipRemainder] at skipped
    grind
  all_goals
    intros
    rename_i skipped
    rw [skipWithin] at skipped
    grind

def skipValue (chars : List Char) : Except Fault (List Char) := skipWithin [] chars

theorem length_of_skipValue {chars rest : List Char} (skipped : skipValue chars = .ok rest) :
    rest.length < chars.length :=
  length_of_skipWithin [] chars rest skipped

end Agenda.Json
