import Agenda.Command.Run
import Std.Time.Zoned

/-! The program on the disk: the files that may matter are read, and what has changed is written back. -/

namespace Agenda.CommandLine

def nodeOfText (text : String) : Node :=
  match Store.ofWritten? text with
  | some store => .store store (some text)
  | none => .document text

/-- What lies at a path on the disk. A file whose text cannot be read counts as some other document. -/
def readNode (path : String) : IO (Option Node) := do
  let place := (← IO.currentDir) / path
  if ← place.isDir then return some .directory
  if ← place.pathExists then
    let bytes ← IO.FS.readBinFile place
    return some ((String.fromUTF8? bytes).elim (.document "\uFFFD") nodeOfText)
  return none

def gatherAt (files : Files) (location : Location) : IO Files := do
  match ← readNode location.path with
  | some node => return files.put location node
  | none => return files

/-- The files with what lies along a path on the disk. -/
def gather (files : Files) (path : String) : IO Files :=
  (Path.stations [] (Path.names path)).foldlM gatherAt files

/-- The same thing lies at a location, as far as it is written. -/
def sameNode : Option Node → Node → Bool
  | some .directory, .directory => true
  | some (.document before), .document after => before == after
  | some (.store before _), .store after _ => before.written == after.written
  | _, _ => false

/-- Writes what has changed, the oldest change first, and removes what is gone. -/
def writeBack (before after : Files) : IO Unit := do
  for (location, node) in after.entries.reverse do
    unless sameNode (before.node? location) node do
      match node with
      | .directory => IO.FS.createDir location.path
      | .document text => IO.FS.writeFile location.path text
      | .store store _ => IO.FS.writeFile location.path store.written
  for (location, _) in before.entries do
    if (after.node? location).isNone then IO.FS.removeFile location.path

def readToday : IO Date := do
  let now ← Std.Time.PlainDate.now
  match Date.ofFields? now.year.toInt now.month.toNat now.day.toNat with
  | some today => return today
  | none => throw (IO.userError "the clock shows no day")

def readSurroundings : IO Surroundings := do
  let here ← IO.currentDir
  let home := (← IO.getEnv "HOME").getD "/"
  let database ← IO.getEnv "TASKSCHED_DB"
  return {
    today := ← readToday
    home := Path.join here.toString home
    database := database.map fun path => if path = "" then path else Path.join here.toString path }

/-- Gathers the file of the settings, the file of the store that they name, and those beside it. -/
def readFiles (surroundings : Surroundings) : IO Files := do
  let files ← gather .bare surroundings.settingsFile
  match loadSettings surroundings files with
  | .ok settings =>
      let files ← gather files settings.location
      let location := Path.location settings.location
      [location.journal, location.log, location.index].foldlM gatherAt files
  | .error _ => return files

def usageText : String :=
  "Usage: tasksched <add|list|show|modify|done|delete|next-date> [arguments]\n"

def report : Outcome → IO Unit
  | .usage => IO.eprint usageText
  | .finished _ output errors => do
      IO.print output
      IO.eprint errors

def execute (arguments : List String) : IO UInt32 := do
  let surroundings ← readSurroundings
  let before ← readFiles surroundings
  let (after, outcome) := run surroundings arguments before
  writeBack before after
  report outcome
  return outcome.code.toUInt32

end Agenda.CommandLine

def main (arguments : List String) : IO UInt32 := Agenda.CommandLine.execute arguments
