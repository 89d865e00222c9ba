/-! Readers take what they want off the front of a text and give back the rest, and the first fault that
they meet is told. A text in quotes is read in two steps: `scan` finds the codes up to the closing quote,
and `spell?` joins the surrogates among them. -/

namespace Agenda.Json

inductive Fault where
  /-- The text ends where more is due. -/
  | endOfText
  /-- The text is not JSON. -/
  | malformed
  /-- The text is JSON, but not of the shape that is asked for. -/
  | mismatch
deriving DecidableEq, Repr

def isSpace (char : Char) : Bool := char == ' ' || char == '\n' || char == '\t' || char == '\r'

def skipSpace (chars : List Char) : List Char := chars.dropWhile isSpace

/-- Takes a mark off the front, after any space. -/
def takeMark (mark : Char) (chars : List Char) : Except Fault (List Char) :=
  match skipSpace chars with
  | [] => .error .endOfText
  | char :: rest => if char = mark then .ok rest else .error .malformed

def takeWord : (word : List Char) → List Char → Except Fault (List Char)
  | [], chars => .ok chars
  | _ :: _, [] => .error .endOfText
  | letter :: word, char :: rest =>
      if char = letter then takeWord word rest else .error .malformed

theorem length_skipSpace_le (chars : List Char) : (skipSpace chars).length ≤ chars.length :=
  (List.dropWhile_sublist _).length_le

theorem length_of_skipSpace {chars rest : List Char} {first : Char}
    (found : skipSpace chars = first :: rest) : rest.length < chars.length := by
  have skipped := length_skipSpace_le chars
  rw [found] at skipped
  exact skipped

theorem length_of_takeMark {mark : Char} {chars rest : List Char}
    (taken : takeMark mark chars = .ok rest) : rest.length < chars.length := by
  unfold takeMark at taken
  split at taken
  · cases taken
  · rename_i found
    split at taken
    · cases taken
      exact length_of_skipSpace found
    · cases taken

theorem length_of_takeWord {word chars rest : List Char} (taken : takeWord word chars = .ok rest) :
    rest.length ≤ chars.length := by
  induction word generalizing chars with
  | nil =>
      cases taken
      exact Nat.le_refl _
  | cons letter word ih =>
      cases chars with
      | nil => cases taken
      | cons char chars =>
          simp only [takeWord] at taken
          split at taken
          · exact Nat.le_succ_of_le (ih taken)
          · cases taken

/-- The letter after the backslash, for a character with an escape of two characters. -/
def escapeLetter? : Char → Option Char
  | '"' => some '"'
  | '\\' => some '\\'
  | '\x08' => some 'b'
  | '\x0c' => some 'f'
  | '\n' => some 'n'
  | '\r' => some 'r'
  | '\t' => some 't'
  | _ => none

/-- The character that a letter stands for after a backslash. A slash may be escaped, but need not. -/
def unescape? : Char → Option Char
  | '"' => some '"'
  | '\\' => some '\\'
  | '/' => some '/'
  | 'b' => some '\x08'
  | 'f' => some '\x0c'
  | 'n' => some '\n'
  | 'r' => some '\r'
  | 't' => some '\t'
  | _ => none

def hexDigit (value : Nat) : Char := Nat.digitChar value

def hexDigit? (char : Char) : Option Nat :=
  if char.isDigit then some (char.toNat - '0'.toNat)
  else if 'a' ≤ char ∧ char ≤ 'f' then some (char.toNat - 'a'.toNat + 10)
  else if 'A' ≤ char ∧ char ≤ 'F' then some (char.toNat - 'A'.toNat + 10)
  else none

def hexCode? (first second third fourth : Char) : Option Nat := do
  return 0x1000 * (← hexDigit? first) + 0x100 * (← hexDigit? second) + 0x10 * (← hexDigit? third) +
    (← hexDigit? fourth)

/-- The characters below the space may not stand in a text as they are. -/
def isControl (char : Char) : Bool := char.toNat < 0x20

def escape (char : Char) : List Char :=
  match escapeLetter? char with
  | some letter => ['\\', letter]
  | none =>
      if isControl char then
        ['\\', 'u', '0', '0', hexDigit (char.toNat / 16), hexDigit (char.toNat % 16)]
      else [char]

def quoted (text : String) : List Char := '"' :: (text.toList.flatMap escape ++ ['"'])

/-- What a scan finds: the codes of a text, and what follows its closing quote or the fault that comes
instead. -/
structure Scan where
  codes : List Nat
  rest : Except Fault (List Char)

def Scan.cons (code : Nat) (scan : Scan) : Scan := { scan with codes := code :: scan.codes }

def Scan.stop (fault : Fault) : Scan := ⟨[], .error fault⟩

/-- The fault of an escape with less than four characters left for its digits. The text counts as ended
if not even four bytes are left. -/
def shortEscape (left : List Char) : Fault :=
  if (String.ofList left).utf8ByteSize < 4 then .endOfText else .malformed

def scan : List Char → Scan
  | [] => .stop .endOfText
  | '"' :: rest => ⟨[], .ok rest⟩
  | '\\' :: 'u' :: first :: second :: third :: fourth :: rest =>
      match hexCode? first second third fourth with
      | some code => (scan rest).cons code
      | none => .stop .malformed
  | '\\' :: 'u' :: left => .stop (shortEscape left)
  | ['\\'] => .stop .endOfText
  | '\\' :: letter :: rest =>
      match unescape? letter with
      | some char => (scan rest).cons char.toNat
      | none => .stop .malformed
  | char :: rest => if isControl char then .stop .malformed else (scan rest).cons char.toNat

def IsHighSurrogate (code : Nat) : Prop := 0xD800 ≤ code ∧ code < 0xDC00

def IsLowSurrogate (code : Nat) : Prop := 0xDC00 ≤ code ∧ code < 0xE000

instance (code : Nat) : Decidable (IsHighSurrogate code) := by
  unfold IsHighSurrogate
  infer_instance

instance (code : Nat) : Decidable (IsLowSurrogate code) := by
  unfold IsLowSurrogate
  infer_instance

def joinSurrogates (high low : Nat) : Char :=
  Char.ofNat (0x10000 + 0x400 * (high - 0xD800) + (low - 0xDC00))

/-- The characters that the codes spell, unless a surrogate stands without its partner. -/
def spell? : List Nat → Option (List Char)
  | [] => some []
  | [code] =>
      if IsHighSurrogate code ∨ IsLowSurrogate code then none else some [Char.ofNat code]
  | code :: next :: codes =>
      if IsHighSurrogate code then
        if IsLowSurrogate next then (spell? codes).map (joinSurrogates code next :: ·) else none
      else if IsLowSurrogate code then none
      else (spell? (next :: codes)).map (Char.ofNat code :: ·)

/-- No surrogate stands without its partner, but for a high one at the end, whose partner may be due. -/
def CanSpell (codes : List Nat) : Prop :=
  (spell? codes).isSome ∨ (spell? (codes ++ [0xDC00])).isSome

instance (codes : List Nat) : Decidable (CanSpell codes) := by
  unfold CanSpell
  infer_instance

def readText (chars : List Char) : Except Fault (String × List Char) :=
  let found := scan chars
  match found.rest, spell? found.codes with
  | .ok rest, some text => .ok (String.ofList text, rest)
  | .ok _, none => .error .malformed
  | .error fault, _ => .error (if CanSpell found.codes then fault else .malformed)

/-- Skips a text after its opening quote. Surrogates are not looked at. -/
def skipText (chars : List Char) : Except Fault (List Char) := (scan chars).rest

theorem length_of_skipText {chars rest : List Char} (skipped : skipText chars = .ok rest) :
    rest.length < chars.length := by
  unfold skipText at skipped
  fun_induction scan chars <;> simp only [Scan.stop, Scan.cons, List.length_cons] at * <;> grind

theorem length_of_readText {chars rest : List Char} {text : String}
    (read : readText chars = .ok (text, rest)) : rest.length < chars.length := by
  simp only [readText] at read
  split at read <;> cases read
  rename_i scanned
  exact length_of_skipText scanned

/-- A value without others in it. -/
inductive Scalar where
  | null
  | integer (value : Int)
  | text (value : String)
deriving DecidableEq, Repr

abbrev Member := String × Scalar

def Scalar.written : Scalar → List Char
  | .null => ['n', 'u', 'l', 'l']
  | .integer value => value.repr.toList
  | .text value => quoted value

/-- A member with `separator` between its name and its value. -/
def writtenMember (separator : List Char) (member : Member) : List Char :=
  quoted member.1 ++ separator ++ member.2.written

def compact (members : List Member) : List Char :=
  '{' :: [','].intercalate (members.map (writtenMember [':'])) ++ ['}']

def indentation (depth : Nat) : List Char := List.replicate (2 * depth) ' '

/-- Items between brackets that stand at the given depth, each on a line of its own. -/
def block (opening closing : Char) (depth : Nat) : List (List Char) → List Char
  | [] => [opening, closing]
  | items =>
      opening :: '\n' :: [',', '\n'].intercalate (items.map (indentation (depth + 1) ++ ·)) ++
        '\n' :: indentation depth ++ [closing]

def indented (depth : Nat) (members : List Member) : List Char :=
  block '{' '}' depth (members.map (writtenMember [':', ' ']))

end Agenda.Json
