import Agenda.Store

/-! Paths and the files that they lead to. A `Location` is where an absolute path leads, with nothing left
to resolve. Names and paths are measured in bytes, and there are limits to their lengths. -/

namespace Agenda

/-- The names on the way from the outermost directory to a place. -/
abbrev Location := List String

namespace Location

def name (location : Location) : String := location.getLastD ""

/-- The place in the same directory whose name goes on with `ending`. -/
def beside (location : Location) (ending : String) : Location :=
  location.dropLast ++ [location.name ++ ending]

def path (location : Location) : String := "/" ++ "/".intercalate location

end Location

namespace Path

def IsAbsolute (path : String) : Prop := path.toList.head? = some '/'

instance (path : String) : Decidable (IsAbsolute path) := by
  unfold IsAbsolute
  infer_instance

def EndsWithSlash (path : String) : Prop := path.toList.getLast? = some '/'

instance (path : String) : Decidable (EndsWithSlash path) := by
  unfold EndsWithSlash
  infer_instance

/-- The path as seen from a directory. An absolute path does not depend on the directory. -/
def join (directory path : String) : String :=
  if IsAbsolute path then path
  else if directory = "" ∨ EndsWithSlash directory then directory ++ path
  else directory ++ "/" ++ path

def pieces (path : String) : List (List Char) := path.toList.splitOn '/'

def IsIdle (piece : List Char) : Prop := piece = [] ∨ piece = ['.']

instance (piece : List Char) : Decidable (IsIdle piece) := by
  unfold IsIdle
  infer_instance

/-- The names of the path, two dots among them. -/
def names (path : String) : List String :=
  ((pieces path).filter fun piece => decide (¬ IsIdle piece)).map String.ofList

/-- The path of the directory that holds what an absolute path leads to, cut out of the path as it is
written. The outermost directory lies in no other. -/
def parent? (path : String) : Option String :=
  match (pieces path).reverse.dropWhile (fun piece => decide (IsIdle piece)) with
  | [] => none
  | _ :: before =>
      let left := (before.dropWhile fun piece => decide (IsIdle piece)).reverse
      some (if left = [] then "/" else String.ofList (['/'].intercalate left))

def upward : String := ".."

/-- Where names lead from a location. -/
def resolve (here : Location) : List String → Location
  | [] => here
  | name :: rest =>
      if name = upward then resolve here.dropLast rest else resolve (here ++ [name]) rest

def location (path : String) : Location := resolve [] (names path)

/-- The locations that names lead through from a location. -/
def stations (here : Location) : List String → List Location
  | [] => []
  | name :: rest =>
      let next := if name = upward then here.dropLast else here ++ [name]
      next :: stations next rest

/-- The most bytes that a name may have. -/
def longestName : Nat := 255

/-- The most bytes that the path of a directory may have. -/
def longestPath : Nat := 4095

/-- The most bytes in the path of a location on the way to a store. -/
def longestWay : Nat := 511

/-- The most bytes in the path of a store. It leaves room for what is put after its name beside it. -/
def longestEnd : Nat := 504

def IsWithinReach (path : String) : Prop :=
  (∀ name ∈ names path, name.utf8ByteSize ≤ longestName) ∧
    (∀ station ∈ stations [] (names path), station.path.utf8ByteSize ≤ longestWay) ∧
      (location path).path.utf8ByteSize ≤ longestEnd

instance (path : String) : Decidable (IsWithinReach path) := by
  unfold IsWithinReach
  infer_instance

/-- How many bytes stand before the first null character. A path must not hold that character. -/
def nullPosition? (path : String) : Option Nat :=
  if '\x00' ∈ path.toList then
    some (String.ofList (path.toList.takeWhile (· ≠ '\x00'))).utf8ByteSize
  else none

end Path

inductive Node where
  | directory
  | document (text : String)
  /-- A store, and the text that its file is if the bytes of the file are one. -/
  | store (store : Store) (text : Option String)

def Node.text? : Node → Option String
  | .directory => none
  | .document text => some text
  | .store _ text => text

structure Files where
  /-- What lies where. The first entry for a location counts. -/
  entries : List (Location × Node)

namespace Files

def bare : Files := ⟨[]⟩

/-- What lies at a location, if anything does. A location of another depth is told apart before its names
are looked at. -/
def node? (files : Files) (location : Location) : Option Node :=
  if location = [] then some .directory
  else
    let depth := location.length
    let entry? := files.entries.find? fun entry =>
      decide (entry.1.length = depth) && decide (entry.1 = location)
    entry?.map (·.2)

theorem node?_eq {files : Files} {location : Location} (inner : location ≠ []) :
    files.node? location = (files.entries.find? (·.1 = location)).map (·.2) := by
  have same : (fun entry : Location × Node =>
      decide (entry.1.length = location.length) && decide (entry.1 = location)) =
      fun entry => decide (entry.1 = location) := by
    funext entry
    by_cases here : entry.1 = location <;> simp [here]
  simp [node?, inner, same]

def IsDirectory (files : Files) (location : Location) : Prop :=
  match files.node? location with
  | some .directory => True
  | _ => False

instance (files : Files) (location : Location) : Decidable (files.IsDirectory location) := by
  unfold IsDirectory
  split <;> infer_instance

def put (files : Files) (location : Location) (node : Node) : Files :=
  ⟨(location, node) :: files.entries⟩

theorem node?_put (files : Files) {location : Location} (node : Node) (inner : location ≠ []) :
    (files.put location node).node? location = some node := by
  simp [node?_eq inner, put]

theorem node?_put_of_ne (files : Files) {location other : Location} (node : Node)
    (different : other ≠ location) : (files.put location node).node? other = files.node? other := by
  have skipped : ¬ location = other := fun same => different same.symm
  by_cases outermost : other = []
  · simp [node?, outermost]
  · simp [node?_eq outermost, put, skipped]

/-- Puts an empty file at a location where nothing lies. -/
def touch (files : Files) (location : Location) : Files :=
  match files.node? location with
  | none => files.put location (.document "")
  | some _ => files

/-- Removes the file at a location. A directory stays. -/
def erase (files : Files) (location : Location) : Files :=
  if files.IsDirectory location then files else ⟨files.entries.filter (·.1 ≠ location)⟩

theorem node?_erase {files : Files} {location : Location} (no_directory : ¬ files.IsDirectory location) :
    (files.erase location).node? location = none := by
  have inner : location ≠ [] := by
    intro outermost
    simp [IsDirectory, node?, outermost] at no_directory
  simp [erase, no_directory, node?_eq inner, List.find?_filter]

/-- Why a directory cannot be made. -/
inductive Obstacle where
  /-- Something else has its name. -/
  | occupied
  /-- The way to it leads through something that is no directory. -/
  | notDirectory
  | tooLong
  | nullCharacter
deriving DecidableEq, Repr

def Obstacle.message : Obstacle → String
  | .occupied => "File exists (os error 17)"
  | .notDirectory => "Not a directory (os error 20)"
  | .tooLong => "File name too long (os error 36)"
  | .nullCharacter => "file name contained an unexpected NUL byte"

/-- Goes from directory to directory along the names, and makes those that are missing. The whole way is
tried first, and only if a directory is missing are they made one by one, each the end of its own way. So
`made` tells which obstacle it is that stands on the way. -/
def makeWay (made : Bool) (here : Location) : List String → Files → Files × Option Obstacle
  | [], files => (files, none)
  | name :: rest, files =>
      if name = Path.upward then makeWay made here.dropLast rest files
      else if Path.longestName < name.utf8ByteSize then (files, some .tooLong)
      else
        match files.node? (here ++ [name]) with
        | some .directory => makeWay made (here ++ [name]) rest files
        | none => makeWay true (here ++ [name]) rest (files.put (here ++ [name]) .directory)
        | some _ => (files, some (if made ∨ rest = [] then .occupied else .notDirectory))

/-- Makes the directory that an absolute path leads to, and those around it. -/
def makeDirectory (files : Files) (path : String) : Files × Option Obstacle :=
  if (Path.nullPosition? path).isSome then (files, some .nullCharacter)
  else if Path.longestPath < path.utf8ByteSize then (files, some .tooLong)
  else makeWay false [] (Path.names path) files

end Files

end Agenda
