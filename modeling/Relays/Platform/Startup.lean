import Relays.Migrations.Release

/-! The processes of the service. An API server initialises the database and Redis before it serves,
a worker the database with the first of its tasks; `init_db` migrates before it opens the pool. -/

namespace Relays.Startup

open Transition

inductive Kind where
  | api
  | worker
  deriving DecidableEq

/-- Where a process stands: `migrating` to `warming` are the statements of `init_db`. -/
inductive Phase where
  | idle
  | migrating (tx : Nat)
  | connecting
  | warming
  | pinging
  | serving
  | closing
  | stopped
  deriving DecidableEq

/-- A process with the files of its directory of migrations and with the globals `pool`, `_redis`
and `_initialized`. -/
structure Server where
  kind : Kind
  files : List String
  pool : Bool := false
  redis : Bool := false
  initialized : Bool := false
  phase : Phase := .idle

def Server.getPool (server : Server) : Except String Unit :=
  if server.pool then .ok () else .error "Database not initialized"

def Server.getRedis (server : Server) : Except String Unit :=
  if server.redis then .ok () else .error "Redis Client not initialized"

/-- `init_db` returns to the lifespan of the API, or to `_run` and so to the coroutine of the
task. -/
def Server.initDbReturns (server : Server) : Server :=
  match server.kind with
  | .api => { server with phase := .pinging }
  | .worker => { server with initialized := true, phase := .serving }

/-- An exception of `init_db` ends the API server, or the task. -/
def Server.initDbRaises (server : Server) : Server :=
  match server.kind with
  | .api => { server with phase := .stopped }
  | .worker => { server with phase := .idle }

inductive Act where
  | run
  | createPool (raises : Bool)
  | warmUp (raises : Bool)
  | ping (raises : Bool)
  | returned
  | closeRedis
  | closeDb
  deriving DecidableEq

/-- What a process does by itself. A task of an initialised worker does not call `init_db`, and
`init_db` does nothing when there is a pool. -/
def Server.step (server : Server) (act : Act) : Option Server :=
  match server.phase, act with
  | .idle, .run =>
    if server.initialized then some { server with phase := .serving }
    else if server.pool then some server.initDbReturns
    else none
  | .connecting, .createPool raises =>
    if raises then some server.initDbRaises
      else some { server with pool := true, phase := .warming }
  | .warming, .warmUp raises => if raises then some server.initDbRaises
    else some server.initDbReturns
  | .pinging, .ping raises =>
    if raises then some { server with phase := .stopped }
      else some { server with redis := true, phase := .serving }
  | .serving, .returned => if server.kind = .worker then some { server with phase := .idle }
    else none
  | .serving, .closeRedis =>
    if server.kind = .api then some { server with redis := false, phase := .closing } else none
  | .closing, .closeDb => some { server with pool := false, phase := .stopped }
  | _, _ => none

structure State where
  migrations : Migrations.State
  servers : List Server

inductive Event where
  | launch (kind : Kind) (files : List String)
  | server (index : Nat) (act : Act)
  | initDb (index : Nat)
  | migrate (index : Nat)
  | disconnect (index : Nat)
  | migrated (index : Nat)
  | kill (index : Nat)

namespace State

def init : State := ⟨Migrations.State.init, []⟩

/-- The migrations of a process are one process of `Migrations`, each time `init_db` runs them. -/
def step (config : Migrations.Config) (state : State) : Event → Option State
  | .launch kind files => some { state with servers := state.servers ++ [{ kind, files }] }
  | .server index act =>
    match state.servers[index]? with
    | none => none
    | some server => (server.step act).map fun server =>
        { state with servers := state.servers.set index server }
  | .initDb index =>
    match state.servers[index]? with
    | none => none
    | some server =>
      if server.phase = .idle ∧ server.initialized = false ∧ server.pool = false then
        (Migrations.State.step config state.migrations (.start server.files)).map fun migrations =>
          ⟨migrations, state.servers.set index
            { server with phase := .migrating state.migrations.processes.length }⟩
      else none
  | .migrate index =>
    match (state.servers[index]?).map Server.phase with
    | some (.migrating tx) =>
      (Migrations.State.step config state.migrations (.process tx)).map fun migrations =>
      { state with migrations }
    | _ => none
  | .disconnect index =>
    match (state.servers[index]?).map Server.phase with
    | some (.migrating tx) =>
      (Migrations.State.step config state.migrations (.abort tx)).map fun migrations =>
      { state with migrations }
    | _ => none
  | .migrated index =>
    match state.servers[index]? with
    | none => none
    | some server =>
      match server.phase with
      | .migrating tx =>
        match (state.migrations.processes[tx]?).map Migrations.Process.phase with
        | some .finished => some { state
          with servers := state.servers.set index { server with phase := .connecting } }
        | some .raised => some { state with servers := state.servers.set index server.initDbRaises }
        | _ => none
      | _ => none
  | .kill index =>
    match state.servers[index]? with
    | none => none
    | some server =>
      let servers := state.servers.set index { server with phase := .stopped }
      match server.phase with
      | .stopped => none
      | .migrating tx =>
        -- the connection goes with the process, and an open transaction with the connection
        match Migrations.State.step config state.migrations (.abort tx) with
        | none => some { state with servers }
        | some migrations => some ⟨migrations, servers⟩
      | _ => some { state with servers }

def system (config : Migrations.Config) : System State Event := ⟨init, step config⟩

/-- Every process has the directory of some release. -/
def Deploys (releases : List String) (_ : State) (event : Event) : Prop :=
  ∀ kind files, event = .launch kind files → Migrations.Ships releases files

instance (releases : List String) (state : State)
    (event : Event) : Decidable (Deploys releases state event) :=
  match event with
  | .launch _ files =>
    decidable_of_iff (Migrations.sortedFiles files <+: releases)
      ⟨fun ships _ _ same => by cases same; exact ships, fun deploys => deploys _ _ rfl⟩
  | .server _ _ | .initDb _ | .migrate _ | .disconnect _ | .migrated _ | .kill _ => isTrue nofun

end State

theorem Server.initDbReturns_files (server : Server) :
    server.initDbReturns.files = server.files := by
  unfold Server.initDbReturns
  split <;> rfl

theorem Server.initDbRaises_files (server : Server) : server.initDbRaises.files = server.files := by
  unfold Server.initDbRaises
  split <;> rfl

/-- The steps of one process, over its migrations before and after. -/
inductive Server.Moves (before after : Migrations.State) (server : Server) : Server → Prop where
  | step {next : Server} (taken : server.step act = some next) : Moves before after server next
  | initDb (started : after.processes = before.processes ++ [⟨server.files, .begun⟩]) :
      Moves before after server { server with phase := .migrating before.processes.length }
  | migrated {process : Migrations.Process} (current : server.phase = .migrating tx)
      (found : before.processes[tx]? = some process) (finished : process.phase = .finished) :
      Moves before after server { server with phase := .connecting }
  | raised : Moves before after server server.initDbRaises
  | killed : Moves before after server { server with phase := .stopped }

theorem Server.step_files {server next : Server} {act : Act} (taken : server.step act = some next) :
    next.files = server.files := by
  unfold Server.step at taken
  split at taken
  · split at taken
    · cases taken
      rfl
    · split at taken <;> cases taken
      exact server.initDbReturns_files
  · split at taken <;> cases taken
    · exact server.initDbRaises_files
    · rfl
  · split at taken <;> cases taken
    · exact server.initDbRaises_files
    · exact server.initDbReturns_files
  · split at taken <;> cases taken <;> rfl
  · split at taken <;> cases taken
    rfl
  · split at taken <;> cases taken
    rfl
  · cases taken
    rfl
  · cases taken

theorem Server.Moves.files {before after : Migrations.State} {server next : Server}
    (moves : server.Moves before after next) : next.files = server.files := by
  cases moves with
  | step taken => exact Server.step_files taken
  | raised => exact server.initDbRaises_files
  | initDb | migrated | killed => rfl

namespace State

variable {config : Migrations.Config} {state after : State} {event : Event} {index : Nat}
    {server : Server}

/-- A step of the service is one of its migrations or leaves them alone. -/
theorem step_migrations (taken : step config state event = some after) :
    after.migrations = state.migrations ∨
      ∃ act, Migrations.State.step config state.migrations act = some after.migrations ∧
        ∀ files, act = .start files → ∃ server ∈ state.servers, server.files = files := by
  have made {act : Migrations.State.Event} {servers : List Server}
      (mapped : (Migrations.State.step config state.migrations act).map
        (fun migrations => State.mk migrations servers) = some after) :
      Migrations.State.step config state.migrations act = some after.migrations := by
    obtain ⟨migrations, moved, rfl⟩ := Option.map_eq_some_iff.mp mapped
    exact moved
  unfold step at taken
  split at taken
  · cases taken
    exact .inl rfl
  · split at taken
    · cases taken
    · obtain ⟨_, _, rfl⟩ := Option.map_eq_some_iff.mp taken
      exact .inl rfl
  · split at taken
    · cases taken
    · rename_i found
      split at taken
      · refine .inr ⟨_, made taken, ?_⟩
        intro files same
        cases same
        exact ⟨_, List.mem_of_getElem? found, rfl⟩
      · cases taken
  · split at taken
    · exact .inr ⟨_, made taken, nofun⟩
    · cases taken
  · split at taken
    · exact .inr ⟨_, made taken, nofun⟩
    · cases taken
  · split at taken
    · cases taken
    · split at taken
      · split at taken <;> cases taken <;> exact .inl rfl
      · cases taken
  · split at taken
    · cases taken
    · dsimp only at taken
      split at taken
      · cases taken
      · split at taken
        · cases taken
          exact .inl rfl
        · rename_i moved
          cases taken
          exact .inr ⟨_, moved, nofun⟩
      · cases taken
        exact .inl rfl

/-- A process after a step is as it was, has just been launched, or has taken the step. -/
theorem step_servers (taken : step config state event = some after)
    (found : after.servers[index]? = some server) :
    state.servers[index]? = some server ∨
      (∃ kind files, event = .launch kind files ∧ server = { kind, files }) ∨
      ∃ old, state.servers[index]? = some old ∧
        old.Moves state.migrations after.migrations server := by
  have changed {acting : Nat} {old new : Server} (entry : state.servers[acting]? = some old)
      (present : (state.servers.set acting new)[index]? = some server)
      (moves : old.Moves state.migrations after.migrations new) :
        state.servers[index]? = some server ∨
        (∃ kind files, event = .launch kind files ∧ server = { kind, files }) ∨
        ∃ old, state.servers[index]? = some old ∧
          old.Moves state.migrations after.migrations server := by
    rcases Processes.set_cases present with ⟨rfl, rfl⟩ | ⟨_, earlier⟩
    · exact .inr (.inr ⟨old, entry, moves⟩)
    · exact .inl earlier
  unfold step at taken
  split at taken
  · cases taken
    rcases Processes.append_cases found with ⟨_, rfl⟩ | earlier
    · exact .inr (.inl ⟨_, _, rfl, rfl⟩)
    · exact .inl earlier
  · split at taken
    · cases taken
    · rename_i entry
      obtain ⟨_, moved, rfl⟩ := Option.map_eq_some_iff.mp taken
      exact changed entry found (.step moved)
  · split at taken
    · cases taken
    · rename_i entry
      split at taken
      · obtain ⟨_, moved, rfl⟩ := Option.map_eq_some_iff.mp taken
        cases moved
        exact changed entry found (.initDb rfl)
      · cases taken
  · split at taken
    · obtain ⟨_, _, rfl⟩ := Option.map_eq_some_iff.mp taken
      exact .inl found
    · cases taken
  · split at taken
    · obtain ⟨_, _, rfl⟩ := Option.map_eq_some_iff.mp taken
      exact .inl found
    · cases taken
  · split at taken
    · cases taken
    · rename_i entry
      split at taken
      · rename_i current
        split at taken
        · rename_i ended
          obtain ⟨process, present, finished⟩ := Option.map_eq_some_iff.mp ended
          cases taken
          exact changed entry found (.migrated current present finished)
        · cases taken
          exact changed entry found .raised
        · cases taken
      · cases taken
  · split at taken
    · cases taken
    · rename_i entry
      dsimp only at taken
      split at taken
      · cases taken
      · split at taken <;> cases taken <;> exact changed entry found .killed
      · cases taken
        exact changed entry found .killed

end State

end Relays.Startup
