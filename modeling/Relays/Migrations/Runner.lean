import Relays.Library.ReadCommitted
import Relays.Library.Processes
import Relays.Library.Transition
import Relays.Migrations.Files

/-! `run_migrations`, statement by statement, in any number of processes on one database. An
exception, a lost connection and a crash all roll the open transaction back and end the process. -/

namespace Relays.Migrations

open ReadCommitted

/-- The SQL of one file: of the base schema or of a migration. -/
inductive Script where
  | schema (file : String)
  | migration (file : String)
  deriving DecidableEq

/-- The files that `run_base_schema` executes, phase by phase and sorted within each. -/
structure Config where
  schemaFiles : List String
  distinct : schemaFiles.Nodup

/-- `schema_version` by its versions, and the SQL that has been executed. -/
structure Database where
  versions : Heap Nat Int
  executed : Heap Nat Script

namespace Database

def empty : Database := ⟨⟨[], []⟩, ⟨[], []⟩⟩

/-- `SELECT MAX(version) FROM schema_version`. -/
def currentVersion (database : Database) : Option Int := database.versions.committed.max?

def commit (database : Database) (tx : Nat) : Database :=
  ⟨database.versions.commit tx, database.executed.commit tx⟩

def rollback (database : Database) (tx : Nat) : Database :=
  ⟨database.versions.rollback tx, database.executed.rollback tx⟩

/-- `conn.execute(file.read_text())`. -/
def execute (database : Database) (tx : Nat) (script : Script) : Database :=
  { database with
    executed := ⟨database.executed.committed, database.executed.pending ++ [(tx, script)]⟩ }

/-- `INSERT INTO schema_version(version)`. -/
def insertVersion (database : Database) (tx : Nat) (version : Int) : Statement Database :=
  match database.versions.insert tx version (· = version) with
  | .waits => .waits
  | .violates => .violates
  | .returns versions => .returns { database with versions }

end Database

inductive Phase where
  | begun
  | tableCreated
  | schema (position : Nat)
  | schemaRecorded
  | walking (currentVersion : Int) (files : List String)
  | opened (file : String) (version : Int) (files : List String)
  | executed (file : String) (version : Int) (files : List String)
  | recorded (file : String) (version : Int) (files : List String)
  | finished
  | raised
  deriving DecidableEq

/-- A process with the files of its migrations directory. -/
structure Process where
  files : List String
  phase : Phase

/-- The largest value of an `INTEGER` column. -/
def integerMax : Int := 2147483647

/-- The next statement of the process, `none` when it has ended or waits for another transaction. -/
def Process.step (config : Config) (tx : Nat) (database : Database)
    (process : Process) : Option (Database × Phase) :=
  match process.phase with
  | .begun =>
    -- an empty `schema_version` reads like one that does not exist yet
    some (database, .tableCreated)
  | .tableCreated =>
    match database.currentVersion with
    | none => some (database, .schema 0)
    | some version => some (database, .walking version (sortedFiles process.files))
  | .schema position =>
    match config.schemaFiles[position]? with
    | some file => some (database.execute tx (.schema file), .schema (position + 1))
    | none =>
      match database.insertVersion tx 0 with
      | .waits => none
      | .violates => some (database.rollback tx, .raised)
      | .returns next => some (next, .schemaRecorded)
  | .schemaRecorded => some (database.commit tx, .walking 0 (sortedFiles process.files))
  | .walking _ [] => some (database, .finished)
  | .walking currentVersion (file :: files) =>
    match migrationVersion file with
    | none => some (database, .raised)
    | some version =>
      if version ≤ currentVersion then some (database, .walking currentVersion files)
      else some (database, .opened file version files)
  | .opened file version files => some (database.execute tx (.migration file),
    .executed file version files)
  | .executed file version files =>
    -- asyncpg refuses an argument that is no `INTEGER`
    if integerMax < version then some (database.rollback tx, .raised) else
    match database.insertVersion tx version with
    | .waits => none
    | .violates => some (database.rollback tx, .raised)
    | .returns next => some (next, .recorded file version files)
  | .recorded _ version files => some (database.commit tx, .walking version files)
  | .finished | .raised => none

def Phase.ended : Phase → Bool
  | .finished | .raised => true
  | _ => false

structure State where
  database : Database
  processes : List Process

namespace State

inductive Event where
  | start (files : List String)
  | process (index : Nat)
  | abort (index : Nat)

def init : State := ⟨Database.empty, []⟩

def step (config : Config) (state : State) : Event → Option State
  | .start files => some { state with processes := state.processes ++ [⟨files, .begun⟩] }
  | .process index =>
    match state.processes[index]? with
    | none => none
    | some process =>
      match process.step config index state.database with
      | none => none
      | some (database, phase) => some ⟨database, state.processes.set index { process with phase }⟩
  | .abort index =>
    match state.processes[index]? with
    | none => none
    | some process =>
      if process.phase.ended then none
      else some ⟨state.database.rollback index,
        state.processes.set index { process with phase := .raised }⟩

def system (config : Config) : Transition.System State Event := ⟨init, step config⟩

end State

section Sample

def sampleConfig : Config := ⟨["types.sql", "users.sql"], by decide⟩

/-- A process that runs alone to its end, through the base schema and this many migrations. -/
def runs (index : Nat) (files : List String) (migrations : Nat) : List State.Event :=
  .start files :: List.replicate (7 + files.length + 3 * migrations) (.process index)

example : ((State.system sampleConfig).execute Transition.Any State.init
    (runs 0 ["1_a.sql", "2_b.sql"] 2)).map
    (fun state => (state.database.versions.committed, state.processes.map Process.phase)) =
    some ([0, 1, 2], [.finished]) := by decide

end Sample

end Relays.Migrations
