/-! Blanks, numbers and columns. Numbers are read from left to right up to the first fault, so one that is
already too large is too large, whatever follows. -/

namespace Agenda.Text

/-- The characters with the property White_Space. Zero-width space and the byte order mark are not
among them, nor are the information separators. -/
def isBlank (char : Char) : Bool :=
  let code := char.toNat
  (0x09 ≤ code && code ≤ 0x0D) || code == 0x20 || code == 0x85 || code == 0xA0 || code == 0x1680 ||
    (0x2000 ≤ code && code ≤ 0x200A) || code == 0x2028 || code == 0x2029 || code == 0x202F ||
    code == 0x205F || code == 0x3000

def trimStart (chars : List Char) : List Char := chars.dropWhile isBlank

def trimEnd (chars : List Char) : List Char := (chars.reverse.dropWhile isBlank).reverse

def trim (chars : List Char) : List Char := trimEnd (trimStart chars)

def words (chars : List Char) : List (List Char) := (chars.splitOnP isBlank).filter (· ≠ [])

def trimmed (text : String) : String := String.ofList (trim text.toList)

def IsBlankText (text : String) : Prop := trimmed text = ""

instance (text : String) : Decidable (IsBlankText text) := by
  unfold IsBlankText
  infer_instance

inductive NumberFault where
  | empty
  | badDigit
  | tooLarge
  | tooSmall
deriving DecidableEq, Repr

def NumberFault.message : NumberFault → String
  | .empty => "cannot parse integer from empty string"
  | .badDigit => "invalid digit found in string"
  | .tooLarge => "number too large to fit in target type"
  | .tooSmall => "number too small to fit in target type"

def digitsValue (digits : List Char) : Nat := Nat.ofDigitChars 10 digits 0

/-- Reads digits on top of the value of those already read, up to `largest`. -/
def readDigits (largest : Nat) (beyond : NumberFault) : Nat → List Char → Except NumberFault Nat
  | value, [] => .ok value
  | value, char :: rest =>
      if char.isDigit then
        let longer := Nat.ofDigitChars 10 [char] value
        if longer ≤ largest then readDigits largest beyond longer rest else .error beyond
      else .error .badDigit

def largestInteger : Nat := 0x7FFFFFFFFFFFFFFF

def largestNatural : Nat := 0xFFFFFFFFFFFFFFFF

/-- The integers of 64 bits. -/
def IsInteger64 (value : Int) : Prop := -(largestInteger + 1 : Int) ≤ value ∧ value ≤ largestInteger

instance (value : Int) : Decidable (IsInteger64 value) :=
  inferInstanceAs (Decidable (_ ∧ _))

/-- Reads an integer with an optional sign. A sign alone has no digit where one is due. -/
def readInteger : List Char → Except NumberFault Int
  | [] => .error .empty
  | ['+'] | ['-'] => .error .badDigit
  | '-' :: digits => return -(← readDigits (largestInteger + 1) .tooSmall 0 digits)
  | '+' :: digits => return (← readDigits largestInteger .tooLarge 0 digits)
  | digits => return (← readDigits largestInteger .tooLarge 0 digits)

/-- Reads a natural number, before which a plus sign may stand. -/
def readNatural : List Char → Except NumberFault Nat
  | [] => .error .empty
  | ['+'] => .error .badDigit
  | '+' :: digits => readDigits largestNatural .tooLarge 0 digits
  | digits => readDigits largestNatural .tooLarge 0 digits

/-- The number with zeros in front, so that it has at least `width` digits. -/
def padded (width number : Nat) : List Char :=
  let digits := Nat.toDigits 10 number
  List.replicate (width - digits.length) '0' ++ digits

def columnWidth (cells : List (List Char)) : Nat := (cells.map List.length).foldr max 0

def alignLeft (width : Nat) (cell : List Char) : List Char :=
  cell ++ List.replicate (width - cell.length) ' '

def alignRight (width : Nat) (cell : List Char) : List Char :=
  List.replicate (width - cell.length) ' ' ++ cell

theorem length_alignLeft (width : Nat) (cell : List Char) :
    (alignLeft width cell).length = max width cell.length := by
  simp only [alignLeft, List.length_append, List.length_replicate]
  omega

theorem length_alignRight (width : Nat) (cell : List Char) :
    (alignRight width cell).length = max width cell.length := by
  simp only [alignRight, List.length_append, List.length_replicate]
  omega

theorem length_le_columnWidth {cells : List (List Char)} {cell : List Char} (member : cell ∈ cells) :
    cell.length ≤ columnWidth cells := by
  induction cells with
  | nil => cases member
  | cons first rest ih =>
      simp only [columnWidth, List.map_cons, List.foldr_cons] at *
      rcases List.mem_cons.mp member with rfl | member
      · exact Nat.le_max_left _ _
      · exact Nat.le_trans (ih member) (Nat.le_max_right _ _)

end Agenda.Text
