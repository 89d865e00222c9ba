import Agenda.Files.Basic

/-! Opening, writing and closing the store in a file. What lies beside the file under the names of a journal
or a log belongs to no change of the store, so it is removed. A directory under one of these names stands
in the way, and a file that is empty counts as none. -/

namespace Agenda

/-- Why a store cannot be opened. -/
inductive OpeningFault where
  | noDirectory (path : String) (obstacle : Files.Obstacle)
  /-- The path holds a null character, with `position` bytes before it. -/
  | nullCharacter (path : String) (position : Nat)
  | noFile (path : String)
  /-- The file holds something else. -/
  | noStore
  /-- The journal or the log cannot be opened. -/
  | noFileBeside
  | unreadableJournal
  | lastingLog
  /-- The log has no index that can be trusted. -/
  | noIndex
deriving DecidableEq, Repr

namespace OpeningFault

def coded (summary : String) (code : Nat) (reason : String) : List String :=
  [summary, s!"Error code {code}: {reason}"]

def notOpened (summary : String) : List String :=
  coded summary 14 "Unable to open the database file"

def messages : OpeningFault → List String
  | .noDirectory path obstacle => [s!"Failed to create directory: {path}", obstacle.message]
  | .nullCharacter path position =>
      s!"Failed to open database: {path}" ::
        List.replicate 2 s!"nul byte found in provided data at position: {position}"
  | .noFile path =>
      s!"Failed to open database: {path}" :: notOpened s!"unable to open database file: {path}"
  | .noStore =>
      "Failed to initialize database schema" ::
        coded "file is not a database" 26 "File opened that is not a database file"
  | .noFileBeside =>
      "Failed to initialize database schema" :: notOpened "unable to open database file"
  | .unreadableJournal =>
      "Failed to initialize database schema" :: coded "disk I/O error" 266 "Error reading from disk"
  | .lastingLog =>
      "Failed to initialize database schema" ::
        coded "disk I/O error" 2570 "I/O error within xDelete of a VFS object"
  | .noIndex =>
      "Failed to initialize database schema" ::
        coded "locking protocol" 15 "Database lock protocol error"

end OpeningFault

namespace Location

def journal (location : Location) : Location := location.beside "-journal"

def log (location : Location) : Location := location.beside "-wal"

def index (location : Location) : Location := location.beside "-shm"

end Location

namespace Files

/-- A file that is missing, or that is empty as the file of a store. -/
def Vacant : Option Node → Prop
  | none => True
  | some (.document text) => text.utf8ByteSize ≤ 1
  | some .directory | some (.store _ _) => False

instance : (found : Option Node) → Decidable (Vacant found)
  | none => isTrue trivial
  | some (.document text) => Nat.decLe text.utf8ByteSize 1
  | some .directory | some (.store _ _) => isFalse id

def Filled : Option Node → Prop
  | some (.document text) => 1 ≤ text.utf8ByteSize
  | some (.store _ _) => True
  | none | some .directory => False

instance : (found : Option Node) → Decidable (Filled found)
  | some (.document text) => Nat.decLe 1 text.utf8ByteSize
  | some (.store _ _) => isTrue trivial
  | none | some .directory => isFalse id

/-- Removes the journal of the store at a location. It has to be read before, unless the store is
empty. -/
def clearJournal (files : Files) (location : Location) : Files × Except OpeningFault Unit :=
  if files.IsDirectory location.journal ∧ ¬ Vacant (files.node? location) then
    (files, .error .unreadableJournal)
  else if Filled (files.node? location.journal) then (files.erase location.journal, .ok ())
  else (files, .ok ())

def indexText : String := "index\n"

/-- Removes the log of an empty store at a location. The log of another store is opened, which takes an
index. -/
def openLog (files : Files) (location : Location) : Files × Except OpeningFault Unit :=
  if files.IsDirectory location.log then
    (files, .error (if Vacant (files.node? location) then .lastingLog else .noFileBeside))
  else if ¬ Filled (files.node? location.log) then (files, .ok ())
  else if Vacant (files.node? location) then (files.erase location.log, .ok ())
  else if files.IsDirectory location.index then (files, .error .noIndex)
  else (files.put location.index (.document indexText), .ok ())

/-- Removes the log and its index when the store at a location is closed. -/
def closeLog (files : Files) (location : Location) : Files :=
  if Filled (files.node? location.log) then (files.erase location.log).erase location.index else files

/-- Writes a store to the file at a location, in bytes that are no text. Where no log is open this takes a
journal, which is gone when it is done. -/
def write (files : Files) (location : Location) (store : Store) : Files :=
  let files := if Filled (files.node? location.log) then files else files.erase location.journal
  files.put location (.store store none)

/-- Makes the empty file at a location a store without tasks. -/
def start (files : Files) (location : Location) : Files × Except OpeningFault Store :=
  if files.IsDirectory location.journal ∨ Path.longestName < location.journal.name.utf8ByteSize then
    (files, .error .noFileBeside)
  else (files.write location .empty, .ok .empty)

def prepare (files : Files) (path : String) : Files × Except OpeningFault Unit :=
  match Path.parent? path with
  | none => (files, .ok ())
  | some parent =>
      match files.makeDirectory parent with
      | (files, none) => (files, .ok ())
      | (files, some obstacle) => (files, .error (.noDirectory parent obstacle))

/-- The location of the file that a path leads to. The file need not be there. -/
def locate (files : Files) (path : String) : Except OpeningFault Location :=
  match Path.nullPosition? path with
  | some position => .error (.nullCharacter path position)
  | none =>
      if Path.IsWithinReach path ∧ ¬ files.IsDirectory (Path.location path) then
        .ok (Path.location path)
      else .error (.noFile path)

/-- Takes the store out of the file at a location, once the files beside it are cleared. -/
def takeStore (files : Files) (location : Location) : Files × Except OpeningFault Store :=
  match files.node? location with
  | some (.store store _) => (files, .ok store)
  | _ =>
      if Vacant (files.node? location) then files.start location
      else (files.closeLog location, .error .noStore)

def openFile (files : Files) (location : Location) : Files × Except OpeningFault Store :=
  match files.clearJournal location with
  | (files, .error fault) => (files, .error fault)
  | (files, .ok ()) =>
      match files.openLog location with
      | (files, .error fault) => (files, .error fault)
      | (files, .ok ()) => files.takeStore location

/-- Opens the store in the file that a path leads to. From then on the file is there, even if nothing is
ever stored in it. -/
def openStore (files : Files) (path : String) : Files × Except OpeningFault Store :=
  match files.prepare path with
  | (files, .error fault) => (files, .error fault)
  | (files, .ok ()) =>
      match files.locate path with
      | .error fault => (files, .error fault)
      | .ok location => (files.touch location).openFile location

def save (files : Files) (path : String) (store : Store) : Files :=
  files.write (Path.location path) store

def closeStore (files : Files) (path : String) : Files := files.closeLog (Path.location path)

end Files

end Agenda
