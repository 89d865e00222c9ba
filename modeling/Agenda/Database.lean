import Agenda.Store

/-! The tables behind a store. Setting them up makes what is missing, as often as one likes, and
`Database.step` is the single access to the tasks. -/

namespace Agenda

/-- The tables of a database, as far as they were made. -/
structure Database where
  /-- The versions of the schema that it has been brought to. -/
  versions : Option (List Nat)
  store : Option Store

inductive SchemaFault where
  | noMigration (version : Nat)
deriving DecidableEq, Repr

def SchemaFault.message : SchemaFault → String
  | .noMigration version => s!"No migration found for version {version}"

namespace Database

def blank : Database := ⟨none, none⟩

def version (database : Database) : Nat := (database.versions.getD []).foldl max 0

/-- The version that the program works with. -/
def currentVersion : Nat := 1

/-- Makes the table of the tasks, unless it is there. -/
def makeStore (database : Database) : Database :=
  { database with store := some (database.store.getD .empty) }

def migration? : (version : Nat) → Option (Database → Database)
  | 1 => some makeStore
  | _ => none

/-- Brings the database to a version, and takes down that it did. -/
def migrate (database : Database) (version : Nat) : Except SchemaFault Database :=
  match migration? version with
  | none => .error (.noMigration version)
  | some migration =>
      let database := migration database
      .ok { database with versions := some (database.versions.getD [] ++ [version]) }

def setUp (database : Database) : Except SchemaFault Database :=
  let database := { database with versions := some (database.versions.getD []) }
  (List.range' (database.version + 1) (currentVersion - database.version)).foldlM migrate database

end Database

inductive Query where
  | create (task : Task)
  | get (id : Int)
  | list (limit : Nat) (search : Option String)
  | update (task : Task)
  | move (id : Int) (date : String)
  | delete (id : Int)
deriving DecidableEq, Repr

inductive Step where
  | setUp
  | query (query : Query)
deriving DecidableEq, Repr

inductive StepFault where
  | task (fault : TaskFault)
  | schema (fault : SchemaFault)
  /-- The database has no table of tasks. -/
  | noTable
deriving DecidableEq, Repr

inductive Answer where
  | created (task : Task)
  | found (task : Option Task)
  | listed (tasks : List Task)
  | changed
  | version (version : Nat)
  | failed (fault : StepFault)
deriving DecidableEq, Repr

/-- The store after a change that may be refused. -/
def Store.attempt (store : Store) : Except TaskFault Store → Store × Answer
  | .ok after => (after, .changed)
  | .error fault => (store, .failed (.task fault))

/-- A step on the tasks. It takes the numbers for inexhaustible, unlike `Store.create`. -/
def Store.query (store : Store) : Query → Store × Answer
  | .create task => (store.append task, .created (store.stamp task))
  | .get id => (store, .found (store.get? id))
  | .list limit search => (store, .listed (store.list limit (Search.ofText? search)))
  | .update task => store.attempt (store.update task)
  | .move id date => store.attempt (store.updateDate id date)
  | .delete id => store.attempt (store.delete id)

namespace Database

def step (database : Database) : Step → Database × Answer
  | .setUp =>
      match database.setUp with
      | .ok after => (after, .version after.version)
      | .error fault => (database, .failed (.schema fault))
  | .query query =>
      match database.store with
      | some store => ({ database with store := some (store.query query).1 }, (store.query query).2)
      | none => (database, .failed .noTable)

def after (database : Database) (steps : List Step) : Database :=
  steps.foldl (fun database step => (database.step step).1) database

def fresh : Database := blank.after [.setUp]

def answers (database : Database) : List Step → List Answer
  | [] => []
  | step :: rest => (database.step step).2 :: (database.step step).1.answers rest

end Database

end Agenda
