import Agenda.Files.Opening

/-! Settings are lines with a key, an equals sign and a value. The last line with a key counts, and the
first line that cannot be read decides the fault. A session begins when the store that they name is
opened. -/

namespace Agenda

open Text

inductive SettingsFault where
  | noValue (line : Nat) (text : String)
  | badLimit (line : Nat) (fault : NumberFault)
  | zeroLimit (line : Nat)
deriving DecidableEq, Repr

/-- The fault in words, followed by what caused it. -/
def SettingsFault.messages : SettingsFault → List String
  | .noValue line text => [s!"line {line}: expected key=value, got '{text}'"]
  | .badLimit line fault => [s!"line {line}: list.limit must be a number", fault.message]
  | .zeroLimit line => [s!"line {line}: list.limit must be greater than 0"]

inductive Setting where
  | location (path : String)
  | limit (count : Nat)
  | nothing
deriving DecidableEq, Repr

namespace Setting

def location? : Setting → Option String
  | .location path => some path
  | _ => none

def limit? : Setting → Option Nat
  | .limit count => some count
  | _ => none

/-- Reads the largest number of tasks in a list, from the line with the given number. -/
def readLimit (line : Nat) (value : List Char) : Except SettingsFault Setting :=
  match readNatural value with
  | .error fault => .error (.badLimit line fault)
  | .ok 0 => .error (.zeroLimit line)
  | .ok count => .ok (.limit count)

def ofPair (line : Nat) (key value : List Char) : Except SettingsFault Setting :=
  if key = "data.location".toList then .ok (.location (String.ofList value))
  else if key = "list.limit".toList then readLimit line value
  else .ok .nothing

def ofLine (line : Nat) (chars : List Char) : Except SettingsFault Setting :=
  let chars := trim chars
  if chars = [] ∨ chars.head? = some '#' then .ok .nothing
  else
    match chars.dropWhile (· ≠ '=') with
    | [] => .error (.noValue line (String.ofList chars))
    | _ :: value => ofPair line (trim (chars.takeWhile (· ≠ '='))) (trim value)

end Setting

structure Settings where
  location : String
  /-- How many tasks a list holds at most. -/
  limit : Nat
deriving DecidableEq, Repr

namespace Settings

/-- The file of the store, if no other is set. -/
def defaultFile : String := "scheduler.db"

def defaultLimit : Nat := 50

/-- The settings that lines ask for. Paths are meant as seen from `directory`. -/
def ofLines (directory : String) (lines : List Setting) : Settings where
  location := Path.join directory ((lines.filterMap Setting.location?).getLast?.getD defaultFile)
  limit := (lines.filterMap Setting.limit?).getLast?.getD defaultLimit

def default (directory : String) : Settings := ofLines directory []

/-- Reads settings. Lines are counted from 1. -/
def read (directory text : String) : Except SettingsFault Settings := do
  let lines ← ((text.toList.splitOn '\n').zipIdx 1).mapM fun (chars, line) =>
    Setting.ofLine line chars
  return ofLines directory lines

end Settings

/-- What a command finds when it starts, apart from the files. -/
structure Surroundings where
  today : Date
  home : String
  /-- The path of the store, if it is given from outside. An empty path counts as none. -/
  database : Option String

namespace Surroundings

def directory (surroundings : Surroundings) : String := Path.join surroundings.home ".tasksched"

def settingsFile (surroundings : Surroundings) : String := Path.join surroundings.directory "rc"

end Surroundings

/-- Why a command fails that is not to blame for it. -/
inductive Failure where
  /-- Something that is no document has the name of the settings. -/
  | unreadable (path reason : String)
  | badSettings (path : String) (fault : SettingsFault)
  | noStore (fault : OpeningFault)
  /-- The store rejects a change that was checked before. -/
  | rejected (fault : TaskFault)
deriving DecidableEq, Repr

def Failure.messages : Failure → List String
  | .unreadable path reason =>
      ["Failed to load configuration", s!"Failed to read config file: {path}", reason]
  | .badSettings path fault =>
      "Failed to load configuration" :: s!"Invalid config file: {path}" :: fault.messages
  | .noStore fault => "Failed to connect to database" :: fault.messages
  | .rejected (.full title) =>
      (TaskFault.full title).message ::
        OpeningFault.coded "database or disk is full" 13 "Insertion failed because database is full"
  | .rejected fault => [fault.message]

/-- The settings in the files. Without a file, nothing is set. -/
def readSettings (surroundings : Surroundings) (files : Files) : Except Failure Settings :=
  let path := surroundings.settingsFile
  match files.node? (Path.location path) with
  | none => .ok (Settings.default surroundings.directory)
  | some .directory => .error (.unreadable path "Is a directory (os error 21)")
  | some node =>
      match node.text? with
      | none => .error (.unreadable path "stream did not contain valid UTF-8")
      | some text =>
          match Settings.read surroundings.directory text with
          | .ok settings => .ok settings
          | .error fault => .error (.badSettings path fault)

/-- The settings with the path of the store that is given from outside. -/
def Settings.overridden (settings : Settings) : Option String → Settings
  | none | some "" => settings
  | some path => { settings with location := path }

def loadSettings (surroundings : Surroundings) (files : Files) : Except Failure Settings :=
  (readSettings surroundings files).map (·.overridden surroundings.database)

structure Session where
  settings : Settings
  store : Store

/-- Loads the settings and opens the store. Directories may have been made even if it fails. -/
def connect (surroundings : Surroundings) (files : Files) : Files × Except Failure Session :=
  match loadSettings surroundings files with
  | .error failure => (files, .error failure)
  | .ok settings =>
      match files.openStore settings.location with
      | (files, .error fault) => (files, .error (.noStore fault))
      | (files, .ok store) => (files, .ok ⟨settings, store⟩)

end Agenda
