import Relays.Migrations.Restart
import Relays.Platform.Startup

/-! When a process of the service serves. Nothing reaches the pool before the database has been
migrated, and a start that has failed can be made again. -/

namespace Relays.Startup

open Transition

/-- Some run of the migrations of this directory has finished. -/
def Migrated (migrations : Migrations.State) (files : List String) : Prop :=
  ∃ process ∈ migrations.processes, process.files = files ∧ process.phase = .finished

/-- What the globals of a process stand for. -/
structure Server.Valid (migrations : Migrations.State) (server : Server) : Prop where
  migrating : ∀ tx, server.phase = .migrating tx →
    ∃ process, migrations.processes[tx]? = some process ∧ process.files = server.files
  connecting : server.phase = .connecting → Migrated migrations server.files
  pool : server.pool = true → Migrated migrations server.files
  opened : server.phase = .warming ∨ server.phase = .pinging ∨ server.phase = .serving →
    server.pool = true
  initialized : server.initialized = true → server.kind = .worker ∧ server.pool = true
  connected : server.phase = .serving → server.kind = .api → server.redis = true
  closing : server.phase = .closing → server.kind = .api

section Migrations

variable {config : Migrations.Config} {before after : Migrations.State}
    {event : Migrations.State.Event} {tx : Nat}
variable {process : Migrations.Process} {files : List String} {server next : Server}

/-- A process keeps its directory, and has finished once it has. -/
theorem process_kept (moves : Migrations.State.Moves config before event after)
    (found : before.processes[tx]? = some process) : ∃ later, after.processes[tx]? = some later ∧
      later.files = process.files ∧ (process.phase = .finished → later.phase = .finished) := by
  have kept {acting : Nat} {old : Migrations.Process} {phase : Migrations.Phase}
      (entry : before.processes[acting]? = some old) (running : old.phase ≠ .finished) :
      ∃ later, (before.processes.set acting { old with phase })[tx]? = some later ∧
        later.files = process.files ∧ (process.phase = .finished → later.phase = .finished) := by
    by_cases own : tx = acting
    · subst own
      obtain rfl := Option.some.inj (entry.symm.trans found)
      exact ⟨_, Processes.set_self entry, rfl, fun finished => absurd finished running⟩
    · exact ⟨process, (Processes.set_other own).trans found, rfl, id⟩
  cases moves with
  | start => exact ⟨process, Processes.append_earlier found, rfl, id⟩
  | process entry taken =>
    refine kept entry ?_
    intro finished
    simp [Migrations.Process.step, finished] at taken
  | abort entry running =>
    refine kept entry ?_
    intro finished
    simp [finished, Migrations.Phase.ended] at running

theorem Migrated.kept (migrated : Migrated before files)
    (moves : Migrations.State.Moves config before event after) :
    Migrated after files := by
  obtain ⟨process, member, same, finished⟩ := migrated
  obtain ⟨tx, found⟩ := List.mem_iff_getElem?.mp member
  obtain ⟨later, present, kept, still⟩ := process_kept moves found
  exact ⟨later, List.mem_of_getElem? present, kept.trans same, still finished⟩

theorem Server.Valid.stable (valid : server.Valid before)
    (moves : Migrations.State.Moves config before event after) :
    server.Valid after where
  migrating tx current := by
    obtain ⟨process, found, same⟩ := valid.migrating tx current
    obtain ⟨later, present, kept, _⟩ := process_kept moves found
    exact ⟨later, present, kept.trans same⟩
  connecting current := (valid.connecting current).kept moves
  pool opened := (valid.pool opened).kept moves
  opened := valid.opened
  initialized := valid.initialized
  connected := valid.connected
  closing := valid.closing

theorem Server.Valid.launched (kind : Kind)
    (files : List String) : Server.Valid before { kind, files } where
  migrating := nofun
  connecting := nofun
  pool := nofun
  opened := by simp
  initialized := nofun
  connected := nofun
  closing := nofun

/-- A process that is outside `init_db` and does not serve, with the globals that it had. -/
theorem Server.Valid.rests (valid : server.Valid before) {phase : Phase}
    (idle : phase = .idle ∨ phase = .stopped) :
    Server.Valid before { server with phase } := by
  rcases idle with rfl | rfl <;>
    exact ⟨nofun, nofun, valid.pool, by simp, valid.initialized, nofun, nofun⟩

theorem Server.Valid.raises (valid : server.Valid before) : server.initDbRaises.Valid before := by
  unfold Server.initDbRaises
  split
  · exact valid.rests (.inr rfl)
  · exact valid.rests (.inl rfl)

theorem Server.Valid.returns (valid : server.Valid before) (opened : server.pool = true) :
    server.initDbReturns.Valid before := by
  unfold Server.initDbReturns
  split
  · exact ⟨nofun, nofun, valid.pool, fun _ => opened, valid.initialized, nofun, nofun⟩
  · rename_i kind
    refine ⟨nofun, nofun, valid.pool, fun _ => opened, fun _ => ⟨kind, opened⟩, ?_, nofun⟩
    intro _ api
    cases kind.symm.trans api

theorem Server.Valid.step (valid : server.Valid before) {act : Act}
    (taken : server.step act = some next) :
    next.Valid before := by
  unfold Server.step at taken
  split at taken
  · split at taken
    · rename_i initialized
      cases taken
      obtain ⟨kind, opened⟩ := valid.initialized initialized
      refine ⟨nofun, nofun, valid.pool, fun _ => opened, valid.initialized, ?_, nofun⟩
      intro _ api
      cases kind.symm.trans api
    · split at taken
      · rename_i opened
        cases taken
        exact valid.returns opened
      · cases taken
  · rename_i current
    split at taken
    · cases taken
      exact valid.raises
    · cases taken
      exact ⟨nofun, nofun, fun _ => valid.connecting current, fun _ => rfl,
        fun initialized => ⟨(valid.initialized initialized).1, rfl⟩, nofun, nofun⟩
  · rename_i current
    split at taken
    · cases taken
      exact valid.raises
    · cases taken
      exact valid.returns (valid.opened (.inl current))
  · rename_i current
    split at taken
    · cases taken
      exact valid.rests (.inr rfl)
    · cases taken
      have opened := valid.opened (.inr (.inl current))
      exact ⟨nofun, nofun, valid.pool, fun _ => opened, valid.initialized, fun _ _ => rfl, nofun⟩
  · split at taken
    · cases taken
      exact valid.rests (.inl rfl)
    · cases taken
  · split at taken
    · rename_i api
      cases taken
      exact ⟨nofun, nofun, valid.pool, by simp, valid.initialized, nofun, fun _ => api⟩
    · cases taken
  · rename_i current
    cases taken
    refine ⟨nofun, nofun, nofun, by simp, ?_, nofun, nofun⟩
    intro initialized
    cases (valid.closing current).symm.trans (valid.initialized initialized).1
  · cases taken

theorem Server.Valid.moves (valid : server.Valid before) (later : server.Valid after)
    (kept : ∀ files, Migrated before files → Migrated after files)
    (moves : server.Moves before after next) :
    next.Valid after := by
  cases moves with
  | step taken => exact later.step taken
  | initDb started =>
    refine ⟨?_, nofun, later.pool, by simp, later.initialized, nofun, nofun⟩
    intro tx current
    cases current
    exact ⟨_, by rw [started]; exact List.getElem?_concat_length, rfl⟩
  | migrated current found finished =>
    obtain ⟨process, entry, same⟩ := valid.migrating _ current
    obtain rfl := Option.some.inj (entry.symm.trans found)
    have migrated := kept _ ⟨process, List.mem_of_getElem? found, same, finished⟩
    exact ⟨nofun, fun _ => migrated, later.pool, by simp, later.initialized, nofun, nofun⟩
  | raised => exact later.raises
  | killed => exact later.rests (.inr rfl)

end Migrations

namespace State

variable {config : Migrations.Config} {state after : State} {event : Event} {events : List Event}
    {index : Nat}
variable {server : Server} {releases : List String}

/-- The migrations of the service are a run of `run_migrations`, each in the directory of its
process. -/
theorem run_migrations (run : Run (system config) (Deploys releases) events state) :
    (∀ server ∈ state.servers, Migrations.Ships releases server.files) ∧
      ∃ acts, Run (Migrations.State.system config) (Migrations.State.Deploys releases) acts
        state.migrations := by
  induction run with
  | start => exact ⟨by simp [system, init], [], .start⟩
  | @step events before event after earlier deploys taken ih =>
    obtain ⟨ships, acts, inner⟩ := ih
    constructor
    · intro server member
      obtain ⟨index, found⟩ := List.mem_iff_getElem?.mp member
      rcases step_servers taken found with earlier | ⟨kind, files, launched, rfl⟩
        | ⟨old, entry, moves⟩
      · exact ships server (List.mem_of_getElem? earlier)
      · exact deploys kind files launched
      · rw [moves.files]
        exact ships old (List.mem_of_getElem? entry)
    · rcases step_migrations taken with same | ⟨act, moved, started⟩
      · exact ⟨acts, by rw [same]; exact inner⟩
      · refine ⟨acts ++ [act], inner.step ?_ moved⟩
        intro files begins
        obtain ⟨server, member, rfl⟩ := started files begins
        exact ships server member

/-- Whatever is deployed, the migrations of the service are a run of `run_migrations`. -/
theorem migrations_run {allowed : State → Event → Prop}
    (run : Run (system config) allowed events state) :
    ∃ acts, Run (Migrations.State.system config) Any acts state.migrations := by
  induction run with
  | start => exact ⟨[], .start⟩
  | step _ _ taken ih =>
    obtain ⟨acts, inner⟩ := ih
    rcases step_migrations taken with same | ⟨act, moved, _⟩
    · exact ⟨acts, by rw [same]; exact inner⟩
    · exact ⟨acts ++ [act], inner.step trivial moved⟩

theorem step_valid (taken : step config state event = some after)
    (valid : ∀ (index : Nat) server, state.servers[index]? = some server →
      server.Valid state.migrations)
    (found : after.servers[index]? = some server) : server.Valid after.migrations := by
  have kept (files : List String) (migrated : Migrated state.migrations files) :
      Migrated after.migrations files := by
    rcases step_migrations taken with same | ⟨_, moved, _⟩
    · rwa [same]
    · exact migrated.kept (Migrations.State.step_moves moved)
  have later {server : Server} (held : server.Valid state.migrations) :
      server.Valid after.migrations := by
    rcases step_migrations taken with same | ⟨_, moved, _⟩
    · rwa [same]
    · exact held.stable (Migrations.State.step_moves moved)
  rcases step_servers taken found with earlier | ⟨kind, files, _, rfl⟩ | ⟨old, entry, moves⟩
  · exact later (valid index server earlier)
  · exact .launched kind files
  · have held := valid index old entry
    exact held.moves (later held) kept moves

theorem run_valid (run : Run (system config) (Deploys releases) events state)
    (found : state.servers[index]? = some server) : server.Valid state.migrations := by
  induction run generalizing index server with
  | start => simp [system, init] at found
  | step earlier deploys taken ih => exact step_valid taken (fun _ _ present => ih present) found

/-- Whatever starts at the same time, crashes, loses its connection or is started again: a process
that serves requests or executes a task has its pool, an API server its Redis client, and everything
in the directory of the process has been applied to the database exactly once, after the base
schema. -/
theorem serving_ready (release : Migrations.Release releases)
    (run : Run (system config) (Deploys releases) events state)
    (found : state.servers[index]? = some server)
    (serving : server.phase = .serving) :
    server.getPool = .ok () ∧ (server.kind = .api → server.getRedis = .ok ()) ∧
      (∀ file ∈ config.schemaFiles,
        state.migrations.database.executed.committed.count (.schema file) = 1) ∧
      ∀ file ∈ server.files, state.migrations.database.executed.committed.count (.migration file) =
        1 := by
  have valid := run_valid run found
  have opened := valid.opened (.inr (.inr serving))
  obtain ⟨_, acts, inner⟩ := run_migrations run
  obtain ⟨process, member, same, finished⟩ := valid.pool opened
  obtain ⟨tx, entry⟩ := List.mem_iff_getElem?.mp member
  obtain ⟨schema, applied⟩ := (Migrations.State.run_released inner release).finished
    (Migrations.State.run_sound inner.any) entry finished
  refine ⟨by simp [Server.getPool, opened], ?_, schema, by rw [← same]; exact applied⟩
  intro api
  simp [Server.getRedis, valid.connected serving api]

/-- A process starts, migrates through so many files and opens its pool. -/
def opens (index : Nat) (kind : Kind) (files : List String) (statements : Nat) : List Event :=
  [.launch kind files, .initDb index] ++ List.replicate statements (.migrate index) ++
    [.migrated index, .server index (.createPool false), .server index (.warmUp false)]

/-- An API server of the first release serves while a worker of the second one migrates the
database. -/
def rolls : List Event :=
  opens 0 .api ["1_a.sql"] 11 ++ [.server 0 (.ping false)] ++ opens 1 .worker ["1_a.sql",
    "2_b.sql"] 8

theorem serving_ready_rolls : ∃ state,
    Run (system Migrations.sampleConfig) (Deploys ["1_a.sql", "2_b.sql"]) rolls state ∧
    state.servers.map Server.phase = [.serving, .serving] ∧
    ∀ (index : Nat) server, state.servers[index]? = some server → server.getPool = .ok () ∧
      ∀ file ∈ server.files, state.migrations.database.executed.committed.count (.migration file) =
        1 := by
  obtain ⟨state, run, observed⟩ := Run.exists_of_execute (system Migrations.sampleConfig)
    (Deploys ["1_a.sql", "2_b.sql"]) rolls
    (fun state => decide (state.servers.map Server.phase = [.serving, .serving]))
      (by decide +kernel)
  have phases : state.servers.map Server.phase = [.serving, .serving] := by simpa using observed
  refine ⟨state, run, phases, ?_⟩
  intro index server found
  have serving : server.phase = .serving := by
    have member : server.phase ∈ state.servers.map Server.phase :=
      List.mem_map_of_mem (List.mem_of_getElem? found)
    rw [phases] at member
    simpa using member
  have release : Migrations.Release ["1_a.sql", "2_b.sql"] := by
    refine ⟨?_, by decide⟩
    intro file member
    rcases List.mem_pair.mp member with rfl | rfl
    · exact ⟨1, by decide, by decide⟩
    · exact ⟨2, by decide, by decide⟩
  obtain ⟨opened, _, _, applied⟩ := serving_ready release run found serving
  exact ⟨opened, applied⟩

/-- The events of one process in which nothing fails. -/
def Smooth (index : Nat) (_ : State) : Event → Prop
  | .server acting (.createPool raises) | .server acting (.warmUp raises)
  | .server acting (.ping raises) =>
    acting = index ∧ raises = false
  | .server acting .run | .initDb acting | .migrate acting | .migrated acting => acting = index
  | _ => False

/-- The process of this index serves. -/
def Serves (index : Nat) (state : State) : Prop :=
  ∃ server, state.servers[index]? = some server ∧ server.phase = .serving

section Recovery

variable {migrations later : Migrations.State} {servers : List Server} {next : Server} {act : Act}
    {tx : Nat}

/-- The process of this index can go on to serve, if nothing fails any more. -/
def Serveable (config : Migrations.Config) (index : Nat) (state : State) : Prop :=
  ∃ more after, Path (system config) (Smooth index) state more after ∧ Serves index after

theorem Serveable.back {before : State} (smooth : Smooth index before event)
    (taken : step config before event = some after) (serveable : Serveable config index after) :
    Serveable config index before := by
  obtain ⟨more, last, path, serves⟩ := serveable
  exact ⟨event :: more, last, .step smooth taken path, serves⟩

/-- A process that takes a step by itself can serve if it can from there. -/
theorem Serveable.acts (found : state.servers[index]? = some server)
    (taken : server.step act = some next)
    (smooth : Smooth index state (.server index act))
    (rest : ∀ after, after.servers[index]? = some next → Serveable config index after) :
    Serveable config index state := by
  have moved : step config state (.server index act) =
      some { state with servers := state.servers.set index next } := by
    simp [step, found, taken]
  exact .back smooth moved (rest _ (Processes.set_self found))

/-- Once `init_db` has returned, a worker serves, and an API server when Redis has answered. -/
theorem returns_serves (found : state.servers[index]? = some server.initDbReturns) :
    Serveable config index state := by
  cases kind : server.kind with
  | worker =>
    refine ⟨[], state, .here, server.initDbReturns, found, ?_⟩
    simp [Server.initDbReturns, kind]
  | api =>
    have taken : server.initDbReturns.step (.ping false) =
        some { server.initDbReturns with redis := true, phase := .serving } := by
      simp [Server.step, Server.initDbReturns, kind]
    apply Serveable.acts found taken ⟨rfl, rfl⟩
    intro after present
    exact ⟨[], after, .here, _, present, rfl⟩

theorem migrates (path : Path (Migrations.State.system config)
    (Migrations.State.Statement tx) migrations acts later)
    (found : servers[index]? = some server) (current : server.phase = .migrating tx) :
    ∃ more, Path (system config) (Smooth index) ⟨migrations, servers⟩ more ⟨later, servers⟩ := by
  induction path with
  | here => exact ⟨[], .here⟩
  | step statement taken _ ih =>
    obtain ⟨more, rest⟩ := ih
    subst statement
    refine ⟨.migrate index :: more, .step rfl ?_ rest⟩
    have moved : Migrations.State.step config _ (.process tx) = some _ := taken
    simp [system, step, found, current, moved]

/-- The pool is opened when the migrations have finished. -/
theorem migrated_serves {process : Migrations.Process} (found : state.servers[index]? = some server)
    (current : server.phase = .migrating tx)
    (ended : state.migrations.processes[tx]? = some process)
    (finished : process.phase = .finished) : Serveable config index state := by
  have connects : step config state (.migrated index) =
      some { state with servers := state.servers.set index { server with phase := .connecting } } :=
        by
    simp [step, found, current, ended, finished]
  refine .back (show Smooth index state (.migrated index) from rfl) connects ?_
  have creates : Server.step { server with phase := .connecting } (.createPool false) =
      some { server with pool := true, phase := .warming } := rfl
  have warms : Server.step { server with pool := true, phase := .warming } (.warmUp false) =
      some (Server.initDbReturns { server with pool := true, phase := .warming }) := rfl
  apply Serveable.acts (Processes.set_self found) creates ⟨rfl, rfl⟩
  intro opened warming
  apply Serveable.acts warming warms ⟨rfl, rfl⟩
  intro after returned
  exact returns_serves returned

/-- While no other process migrates, a process whose files are numbered gets from its start, and a
worker from its next task, to where it serves, however the starts and the tasks before have
ended. -/
theorem idle_serves (run : Run (system config) Any events state)
    (found : state.servers[index]? = some server) (idle : server.phase = .idle)
    (numbered : Migrations.State.Numbered server.files)
    (quiet : ∀ process ∈ state.migrations.processes, process.phase.ended = true) :
      Serveable config index state := by
  by_cases initialized : server.initialized = true
  · have taken : server.step .run = some { server with phase := .serving } := by
      simp [Server.step, idle, initialized]
    apply Serveable.acts found taken rfl
    intro after present
    exact ⟨[], after, .here, _, present, rfl⟩
  · by_cases opened : server.pool = true
    · have taken : server.step .run = some server.initDbReturns := by
        simp [Server.step, idle, initialized, opened]
      apply Serveable.acts found taken rfl
      intro after present
      exact returns_serves present
    · obtain ⟨acts, inner⟩ := migrations_run run
      have started : Migrations.State.step config state.migrations (.start server.files) =
          some { state.migrations with
            processes := state.migrations.processes ++ [⟨server.files, .begun⟩] } := rfl
      have begins : step config state (.initDb index) =
          some ⟨{ state.migrations with
              processes := state.migrations.processes ++ [⟨server.files, .begun⟩] },
            state.servers.set index { server
              with phase := .migrating state.migrations.processes.length }⟩ := by
        simp [step, found, idle, initialized, opened, started]
      have solo : Migrations.State.Solo config state.migrations.processes.length server.files
          { state.migrations with
            processes := state.migrations.processes ++ [⟨server.files, .begun⟩] } := by
        refine ⟨(Migrations.State.step_moves started).sound (Migrations.State.run_sound inner),
          ⟨_, List.getElem?_concat_length, rfl, trivial⟩, ?_⟩
        intro other process present apart
        rcases Processes.append_cases present with ⟨last, _⟩ | earlier
        · exact absurd last apart
        · exact quiet process (List.mem_of_getElem? earlier)
      obtain ⟨acts, later, path, process, ended, finished⟩ := solo.finishes numbered
      have migrating : (state.servers.set index
          { server with phase := .migrating state.migrations.processes.length })[index]? =
            some { server with phase := .migrating state.migrations.processes.length } :=
              Processes.set_self found
      have opens : Serveable config index ⟨later, state.servers.set index
          { server with phase := .migrating state.migrations.processes.length }⟩ :=
        migrated_serves migrating rfl ended finished
      obtain ⟨more, migrated⟩ := migrates path migrating rfl
      obtain ⟨rest, after, opened, serves⟩ := opens
      exact .back (show Smooth index state (.initDb index) from rfl) begins
        ⟨more ++ rest, after, migrated.trans opened, serves⟩

end Recovery

/-- An API server dies in its first migration, before the commit; a worker is started. -/
def diesMigrating : List Event :=
  [.launch .api ["1_a.sql"], .initDb 0] ++ List.replicate 9 (.migrate 0) ++
    [.kill 0, .launch .worker ["1_a.sql"]]

private def abandoned (state : State) : Bool :=
  decide (state.migrations.database.versions.committed = [0]) &&
    state.migrations.processes.all (fun process => process.phase.ended) &&
    (state.servers[1]? : Option Server).any fun server =>
      decide (server.phase = .idle ∧ server.files = ["1_a.sql"])

theorem idle_serves_killed : ∃ state,
    Run (system Migrations.sampleConfig) Any diesMigrating state ∧
    state.migrations.database.versions.committed = [0] ∧
      Serveable Migrations.sampleConfig 1 state := by
  obtain ⟨state, run, observed⟩ :=
    Run.exists_of_execute (system Migrations.sampleConfig) Any
    diesMigrating abandoned (by decide +kernel)
  simp only [abandoned, Bool.and_eq_true, decide_eq_true_eq, List.all_eq_true] at observed
  obtain ⟨⟨versions, quiet⟩, last⟩ := observed
  obtain ⟨server, found, standing⟩ := (Option.any_eq_true _ _).mp last
  obtain ⟨idle, files⟩ : server.phase = .idle ∧ server.files = ["1_a.sql"] := by
    simpa using standing
  have numbered : Migrations.State.Numbered server.files := by
    rw [files]
    intro file member
    obtain rfl := List.mem_singleton.mp member
    exact ⟨1, by decide, by decide⟩
  exact ⟨state, run, versions, idle_serves run found idle numbered quiet⟩

end State

end Relays.Startup
