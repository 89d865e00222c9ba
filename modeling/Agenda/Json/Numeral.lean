import Agenda.Json.Basic
import Agenda.Text

/-! Numbers in JSON. Only one without a fraction and an exponent stands for an integer. Of the others no
more is asked than that they are not too large for a floating-point number of 64 bits. -/

namespace Agenda.Json

open Text

structure Numeral where
  negative : Bool
  whole : List Char
  /-- The digits after the point; empty if there is no point. -/
  fraction : List Char
  exponent : Option Int
deriving DecidableEq, Repr

/-- Takes digits off the front, one at least. What it means for the text to end here is for the caller
to say. -/
def takeDigits (atEnd : Fault) (chars : List Char) : Except Fault (List Char × List Char) :=
  match chars.takeWhile Char.isDigit with
  | [] => .error (if chars = [] then atEnd else .malformed)
  | digits => .ok (digits, chars.dropWhile Char.isDigit)

/-- Takes the digits before the point. No digit follows a zero at the start. -/
def takeWhole (atEnd : Fault) (chars : List Char) : Except Fault (List Char × List Char) := do
  let (digits, rest) ← takeDigits atEnd chars
  if digits.head? = some '0' ∧ digits ≠ ['0'] then throw .malformed
  return (digits, rest)

def takeFraction (atEnd : Fault) : List Char → Except Fault (List Char × List Char)
  | '.' :: rest => takeDigits atEnd rest
  | chars => .ok ([], chars)

/-- Takes a sign off the front, if there is one, and tells whether it is a minus. -/
def takeSign : List Char → Bool × List Char
  | '-' :: rest => (true, rest)
  | '+' :: rest => (false, rest)
  | chars => (false, chars)

/-- Takes the exponent that stands behind its letter. -/
def takePower (atEnd : Fault) (chars : List Char) : Except Fault (Option Int × List Char) := do
  let (negative, rest) := takeSign chars
  let (digits, rest) ← takeDigits atEnd rest
  let size : Int := digitsValue digits
  return (some (if negative then -size else size), rest)

def takeExponent (atEnd : Fault) : List Char → Except Fault (Option Int × List Char)
  | 'e' :: rest | 'E' :: rest => takePower atEnd rest
  | chars => .ok (none, chars)

def takeMinus : List Char → Bool × List Char
  | '-' :: rest => (true, rest)
  | chars => (false, chars)

def takeNumeral (atEnd : Fault) (chars : List Char) : Except Fault (Numeral × List Char) := do
  let (negative, rest) := takeMinus chars
  let (whole, rest) ← takeWhole atEnd rest
  let (fraction, rest) ← takeFraction atEnd rest
  let (exponent, rest) ← takeExponent atEnd rest
  return ({ negative, whole, fraction, exponent }, rest)

/-- Reads digits on top of a value while it stays within 64 bits, and leaves the others. -/
def gatherDigits : Nat → List Char → Nat × List Char
  | value, [] => (value, [])
  | value, digit :: rest =>
      let longer := Nat.ofDigitChars 10 [digit] value
      if longer ≤ largestNatural then gatherDigits longer rest else (value, digit :: rest)

/-- The numeral as an integer of 64 bits times a power of ten. Digits that find no place in it are not
looked at; before the point they still count for the power. -/
def Numeral.scaled (numeral : Numeral) : Nat × Int :=
  let (upper, dropped) := gatherDigits 0 numeral.whole
  let (value, ignored) := gatherDigits upper numeral.fraction
  (value, dropped.length - (numeral.fraction.length - ignored.length) + numeral.exponent.getD 0)

/-- The number of 53 binary digits that is nearest, up to zeros at the end; a tie goes to the even
neighbour. -/
def roundTo53 (value : Nat) : Nat :=
  let unit := 1 <<< (value.log2 + 1 - 53)
  let below := value / unit
  let left := value % unit
  if 2 * left < unit ∨ (2 * left = unit ∧ below % 2 = 0) then below * unit else (below + 1) * unit

/-- The least size that rounds beyond the largest floating-point number: half a unit above it. -/
def tooLarge : Nat := 1 <<< 1024 - 1 <<< 970

/-- The numeral rounds to a floating-point number. Powers of ten are rounded before they are multiplied,
and beyond the 308th they have no floating-point number themselves. -/
def Numeral.InRange (numeral : Numeral) : Prop :=
  let (value, power) := numeral.scaled
  value = 0 ∨ power < 0 ∨ (power ≤ 308 ∧ roundTo53 value * roundTo53 (Nat.pow 10 power.toNat) < tooLarge)

instance (numeral : Numeral) : Decidable numeral.InRange := by
  unfold Numeral.InRange
  infer_instance

/-- The integer that the numeral stands for, within 64 bits. A zero with a minus is not an integer. -/
def Numeral.integer? (numeral : Numeral) : Option Int :=
  let size := digitsValue numeral.whole
  if numeral.fraction ≠ [] ∨ numeral.exponent ≠ none then none
  else if numeral.negative then
    if 0 < size ∧ size ≤ largestInteger + 1 then some (-size) else none
  else if size ≤ largestInteger then some size
  else none

def readNumber (chars : List Char) : Except Fault (Option Int × List Char) := do
  let (numeral, rest) ← takeNumeral .endOfText chars
  if numeral.InRange then return (numeral.integer?, rest)
  throw .malformed

/-- Skips a number of any size. A text that ends within it is no JSON. -/
def skipNumber (chars : List Char) : Except Fault (List Char) := do
  let (_, rest) ← takeNumeral .malformed chars
  return rest

theorem length_of_takeDigits {atEnd : Fault} {chars digits rest : List Char}
    (taken : takeDigits atEnd chars = .ok (digits, rest)) : rest.length < chars.length := by
  unfold takeDigits at taken
  split at taken
  · cases taken
  · rename_i some_digits
    cases taken
    have parts := congrArg List.length (List.takeWhile_append_dropWhile (p := Char.isDigit) (l := chars))
    rw [List.length_append] at parts
    have := List.length_pos_iff.mpr some_digits
    omega

theorem length_of_takeWhole {atEnd : Fault} {chars digits rest : List Char}
    (taken : takeWhole atEnd chars = .ok (digits, rest)) : rest.length < chars.length := by
  unfold takeWhole at taken
  cases found : takeDigits atEnd chars with
  | error fault => simp [found, bind, Except.bind] at taken
  | ok pair =>
      have shorter := length_of_takeDigits found
      simp only [found, bind, Except.bind] at taken
      split at taken
      · cases taken
      · cases taken
        exact shorter

theorem length_of_takeFraction {atEnd : Fault} {chars digits rest : List Char}
    (taken : takeFraction atEnd chars = .ok (digits, rest)) : rest.length ≤ chars.length := by
  unfold takeFraction at taken
  split at taken
  · exact Nat.le_succ_of_le (Nat.le_of_lt (length_of_takeDigits taken))
  · cases taken
    exact Nat.le_refl _

theorem length_takeSign_le (chars : List Char) : (takeSign chars).2.length ≤ chars.length := by
  unfold takeSign
  split <;> simp

theorem length_takeMinus_le (chars : List Char) : (takeMinus chars).2.length ≤ chars.length := by
  unfold takeMinus
  split <;> simp

theorem length_of_takePower {atEnd : Fault} {chars rest : List Char} {exponent : Option Int}
    (taken : takePower atEnd chars = .ok (exponent, rest)) : rest.length < chars.length := by
  unfold takePower at taken
  have signed := length_takeSign_le chars
  cases found : takeDigits atEnd (takeSign chars).2 with
  | error fault => simp [found, bind, Except.bind] at taken
  | ok pair =>
      have shorter := length_of_takeDigits found
      simp only [found, bind, Except.bind] at taken
      cases taken
      omega

theorem length_of_takeExponent {atEnd : Fault} {chars rest : List Char} {exponent : Option Int}
    (taken : takeExponent atEnd chars = .ok (exponent, rest)) : rest.length ≤ chars.length := by
  unfold takeExponent at taken
  split at taken
  · exact Nat.le_succ_of_le (Nat.le_of_lt (length_of_takePower taken))
  · exact Nat.le_succ_of_le (Nat.le_of_lt (length_of_takePower taken))
  · cases taken
    exact Nat.le_refl _

theorem length_of_takeNumeral {atEnd : Fault} {chars rest : List Char} {numeral : Numeral}
    (taken : takeNumeral atEnd chars = .ok (numeral, rest)) : rest.length < chars.length := by
  have signed := length_takeMinus_le chars
  unfold takeNumeral at taken
  cases whole : takeWhole atEnd (takeMinus chars).2 with
  | error fault => simp [whole, bind, Except.bind] at taken
  | ok afterWhole =>
      have wholeShorter := length_of_takeWhole whole
      simp only [whole, bind, Except.bind] at taken
      cases fraction : takeFraction atEnd afterWhole.2 with
      | error fault => simp [fraction] at taken
      | ok afterFraction =>
          have fractionShorter := length_of_takeFraction fraction
          simp only [fraction] at taken
          cases exponent : takeExponent atEnd afterFraction.2 with
          | error fault => simp [exponent] at taken
          | ok afterExponent =>
              have exponentShorter := length_of_takeExponent exponent
              simp only [exponent] at taken
              cases taken
              omega

theorem length_of_skipNumber {chars rest : List Char} (skipped : skipNumber chars = .ok rest) :
    rest.length < chars.length := by
  unfold skipNumber at skipped
  cases taken : takeNumeral .malformed chars with
  | error fault => simp [taken, bind, Except.bind] at skipped
  | ok pair =>
      simp only [taken, bind, Except.bind] at skipped
      cases skipped
      exact length_of_takeNumeral taken

theorem length_of_readNumber {chars rest : List Char} {integer? : Option Int}
    (read : readNumber chars = .ok (integer?, rest)) : rest.length < chars.length := by
  unfold readNumber at read
  cases taken : takeNumeral .endOfText chars with
  | error fault => simp [taken, bind, Except.bind] at read
  | ok pair =>
      simp only [taken, bind, Except.bind] at read
      split at read
      · cases read
        exact length_of_takeNumeral taken
      · cases read

end Agenda.Json
