import Relays.Migrations.Runner

/-! The versions on record and the SQL that has been committed grow together: one commit records
one version and executes what the version stands for. -/

namespace Relays.Migrations

open ReadCommitted Transition

/-- What a version stands for. -/
inductive Entry (config : Config) : Int → List Script → Prop where
  | schema : Entry config 0 (config.schemaFiles.map .schema)
  | migration (parsed : migrationVersion file = some version) (positive : 0 < version) :
      Entry config version [.migration file]

inductive Ledger (config : Config) : List Int → List Script → Prop where
  | empty : Ledger config [] []
  | entry (earlier : Ledger config versions scripts) (fresh : version ∉ versions)
      (made : Entry config version more) :
      Ledger config (versions ++ [version]) (scripts ++ more)

section Ledger

variable {config : Config} {versions : List Int} {scripts : List Script} {version : Int}
    {file : String}

theorem Ledger.nonneg (ledger : Ledger config versions scripts)
    (member : version ∈ versions) : 0 ≤ version := by
  induction ledger with
  | empty => cases member
  | entry earlier fresh made ih =>
    rcases List.mem_append.mp member with old | new
    · exact ih old
    · obtain rfl := List.mem_singleton.mp new
      cases made with
      | schema => exact Int.le_refl 0
      | migration parsed positive => exact Int.le_of_lt positive

/-- The base schema is committed with version 0, file by file. -/
theorem Ledger.schema_iff (ledger : Ledger config versions scripts)
    (known : file ∈ config.schemaFiles) :
    .schema file ∈ scripts ↔ 0 ∈ versions := by
  induction ledger with
  | empty => simp
  | entry earlier fresh made ih =>
    rw [List.mem_append, List.mem_append, ih]
    cases made with
    | schema => simp [known]
    | migration parsed positive =>
      have apart : (0 : Int) ≠ _ := Int.ne_of_lt positive
      simp [apart]

/-- The other versions are those of the migrations that have been committed. -/
theorem Ledger.version_iff (ledger : Ledger config versions scripts) :
    version ∈ versions ↔ version = 0 ∧ 0 ∈ versions ∨
      ∃ file, .migration file ∈ scripts ∧ migrationVersion file = some version := by
  induction ledger with
  | empty => simp
  | @entry versions scripts new more earlier fresh made ih =>
    simp only [List.mem_append, ih, List.mem_singleton]
    cases made with
    | schema =>
      have none' (file : String) : Script.migration file ∉ config.schemaFiles.map .schema := by simp
      simp only [none', or_false]
      constructor
      · rintro ((⟨rfl, _⟩ | found) | rfl)
        · exact .inl ⟨rfl, by simp⟩
        · exact .inr found
        · exact .inl ⟨rfl, by simp⟩
      · rintro (⟨rfl, _⟩ | found)
        · exact .inr rfl
        · exact .inl (.inr found)
    | @migration name _ parsed positive =>
      constructor
      · rintro ((⟨rfl, old⟩ | ⟨file, member, same⟩) | rfl)
        · exact .inl ⟨rfl, .inl (by simpa using old)⟩
        · exact .inr ⟨file, .inl member, same⟩
        · exact .inr ⟨name, .inr (by simp), parsed⟩
      · rintro (⟨rfl, old | same⟩ | ⟨file, old | new, same⟩)
        · exact .inl (.inl ⟨rfl, by simpa using old⟩)
        · exact absurd positive (by omega)
        · exact .inl (.inr ⟨file, old, same⟩)
        · obtain rfl : file = name := by simpa using new
          exact .inr (Option.some.inj (same.symm.trans parsed))

theorem Ledger.versions_nodup (ledger : Ledger config versions scripts) : versions.Nodup := by
  induction ledger with
  | empty => exact .nil
  | entry earlier fresh made ih =>
    apply List.nodup_append.mpr
    refine ⟨ih, List.nodup_singleton _, ?_⟩
    intro old stored new member
    obtain rfl := List.mem_singleton.mp member
    rintro rfl
    exact fresh stored

/-- Nothing is committed twice. -/
theorem Ledger.scripts_nodup (ledger : Ledger config versions scripts) : scripts.Nodup := by
  induction ledger with
  | empty => exact .nil
  | @entry versions scripts new more earlier fresh made ih =>
    apply List.nodup_append'.mpr
    cases made with
    | schema =>
      refine ⟨ih, config.distinct.map (fun _ _ => Script.schema.inj), ?_⟩
      intro script stored member
      obtain ⟨file, known, rfl⟩ := List.mem_map.mp member
      exact fresh ((earlier.schema_iff known).mp stored)
    | migration parsed positive =>
      refine ⟨ih, List.nodup_singleton _, ?_⟩
      intro script stored member
      obtain rfl := List.mem_singleton.mp member
      exact fresh (earlier.version_iff.mpr (.inr ⟨_, stored, parsed⟩))

end Ledger

/-- The versions that the open transaction of a process has inserted. -/
def Phase.versions : Phase → List Int
  | .schemaRecorded => [0]
  | .recorded _ version _ => [version]
  | _ => []

/-- The SQL that the open transaction of a process has executed. -/
def Phase.scripts (config : Config) : Phase → List Script
  | .schema position => (config.schemaFiles.take position).map .schema
  | .schemaRecorded => config.schemaFiles.map .schema
  | .executed file _ _ | .recorded file _ _ => [.migration file]
  | _ => []

def Process.versions (process : Process) : List Int := process.phase.versions

def Process.scripts (config : Config) (process : Process) : List Script :=
    process.phase.scripts config

/-- What a process knows of the files of its directory. -/
def Phase.Reads (files : List String) : Phase → Prop
  | .walking currentVersion rest => 0 ≤ currentVersion ∧ rest ⊆ files
  | .opened file version rest | .executed file version rest | .recorded file version rest =>
    migrationVersion file = some version ∧ 0 < version ∧ file ∈ files ∧ rest ⊆ files
  | _ => True

/-- What one statement does to the database and to the open transaction. -/
inductive Effect (config : Config) (tx : Nat) (database : Database)
    (phase : Phase) : Database → Phase → Prop where
  | none (versions : after.versions = phase.versions)
      (scripts : after.scripts config = phase.scripts config) :
      Effect config tx database phase database after
  | execute (versions : after.versions = phase.versions)
      (scripts : after.scripts config = phase.scripts config ++ [script]) :
      Effect config tx database phase (database.execute tx script) after
  | insert (inserted : database.insertVersion tx version = .returns next)
      (versions : after.versions = phase.versions ++ [version]) (scripts : after.scripts config =
        phase.scripts config) :
      Effect config tx database phase next after
  | commit (made : Entry config version (phase.scripts config)) (held : phase.versions = [version])
      (versions : after.versions = []) (scripts : after.scripts config = []) :
      Effect config tx database phase (database.commit tx) after
  | rollback : Effect config tx database phase (database.rollback tx) .raised

/-- The statements of a process, each with what it leads to. -/
inductive Phase.Runs (config : Config) (tx : Nat) (database : Database) (files : List String) :
    Phase → Database → Phase → Prop where
  | createTable : Runs config tx database files .begun database .tableCreated
  | unmigrated (current : database.currentVersion = none) :
      Runs config tx database files .tableCreated database (.schema 0)
  | migrated (current : database.currentVersion = some version) :
      Runs config tx database files .tableCreated database (.walking version (sortedFiles files))
  | executeSchema (found : config.schemaFiles[position]? = some file) :
      Runs config tx database files (.schema position) (database.execute tx (.schema file))
        (.schema (position + 1))
  | schemaRefused (beyond : config.schemaFiles[position]? = none)
      (refused : database.insertVersion tx 0 = .violates) :
      Runs config tx database files (.schema position) (database.rollback tx) .raised
  | recordSchema (beyond : config.schemaFiles[position]? = none)
      (inserted : database.insertVersion tx 0 = .returns next) :
      Runs config tx database files (.schema position) next .schemaRecorded
  | commitSchema : Runs config tx database files .schemaRecorded (database.commit tx)
      (.walking 0 (sortedFiles files))
  | finish : Runs config tx database files (.walking currentVersion []) database .finished
  | unnumbered (unparsed : migrationVersion file = none) :
      Runs config tx database files (.walking currentVersion (file :: rest)) database .raised
  | skip (parsed : migrationVersion file = some version) (below : version ≤ currentVersion) :
      Runs config tx database files (.walking currentVersion (file :: rest)) database
        (.walking currentVersion rest)
  | openFile (parsed : migrationVersion file = some version) (above : ¬ version ≤ currentVersion) :
      Runs config tx database files (.walking currentVersion (file :: rest)) database
        (.opened file version rest)
  | executeFile : Runs config tx database files (.opened file version rest)
      (database.execute tx (.migration file)) (.executed file version rest)
  | overflow (large : integerMax < version) :
      Runs config tx database files (.executed file version rest) (database.rollback tx) .raised
  | refused (small : ¬ integerMax < version)
      (refused : database.insertVersion tx version = .violates) :
      Runs config tx database files (.executed file version rest) (database.rollback tx) .raised
  | record (small : ¬ integerMax < version)
      (inserted : database.insertVersion tx version = .returns next) :
      Runs config tx database files (.executed file version rest) next (.recorded file version rest)
  | commit : Runs config tx database files (.recorded file version rest) (database.commit tx)
      (.walking version rest)

section Steps

variable {config : Config} {tx : Nat} {database next : Database} {files : List String}
    {process : Process} {phase after : Phase}

theorem sortedFiles_subset (files : List String) : sortedFiles files ⊆ files :=
  (List.perm_insertionSort (· ≤ ·) files).subset

theorem Process.step_runs (taken : process.step config tx database = some (next, after)) :
    process.phase.Runs config tx database process.files next after := by
  unfold Process.step at taken
  split at taken <;> rename_i phase <;> rw [phase]
  · cases taken
    exact .createTable
  · split at taken <;> rename_i current <;> cases taken
    · exact .unmigrated current
    · exact .migrated current
  · split at taken
    · rename_i found
      cases taken
      exact .executeSchema found
    · rename_i beyond
      split at taken <;> rename_i inserted <;> cases taken
      · exact .schemaRefused beyond inserted
      · exact .recordSchema beyond inserted
  · cases taken
    exact .commitSchema
  · cases taken
    exact .finish
  · split at taken
    · rename_i unparsed
      cases taken
      exact .unnumbered unparsed
    · rename_i parsed
      split at taken <;> rename_i order <;> cases taken
      · exact .skip parsed order
      · exact .openFile parsed order
  · cases taken
    exact .executeFile
  · split at taken
    · rename_i large
      cases taken
      exact .overflow large
    · rename_i small
      split at taken <;> rename_i inserted <;> cases taken
      · exact .refused small inserted
      · exact .record small inserted
  · cases taken
    exact .commit
  · cases taken
  · cases taken

theorem Phase.Runs.effect (runs : phase.Runs config tx database files next after)
    (reads : phase.Reads files) :
    Effect config tx database phase next after := by
  cases runs with
  | createTable | migrated | finish | unnumbered | skip | openFile => exact .none rfl rfl
  | unmigrated => exact .none rfl (by simp [Phase.scripts])
  | executeSchema found =>
    refine .execute rfl ?_
    simp [Phase.scripts, List.take_add_one, found]
  | schemaRefused | overflow | refused => exact .rollback
  | recordSchema beyond inserted =>
    refine .insert inserted rfl ?_
    have whole := List.take_of_length_le (List.getElem?_eq_none_iff.mp beyond)
    simp only [Phase.scripts, whole]
  | commitSchema => exact .commit .schema rfl rfl rfl
  | executeFile => exact .execute rfl rfl
  | record small inserted => exact .insert inserted rfl rfl
  | commit =>
    obtain ⟨parsed, positive, _, _⟩ := reads
    exact .commit (.migration parsed positive) rfl rfl rfl

theorem Phase.Runs.reads (runs : phase.Runs config tx database files next after)
    (nonneg : ∀ version ∈ database.versions.committed, 0 ≤ version)
    (reads : phase.Reads files) : after.Reads files := by
  cases runs with
  | createTable | unmigrated | executeSchema | schemaRefused | recordSchema => trivial
  | finish | unnumbered | overflow | refused => trivial
  | migrated current => exact ⟨nonneg _ (List.max?_mem current), sortedFiles_subset _⟩
  | commitSchema => exact ⟨Int.le_refl 0, sortedFiles_subset _⟩
  | skip =>
    obtain ⟨floor, inside⟩ := reads
    exact ⟨floor, (List.cons_subset.mp inside).2⟩
  | openFile parsed above =>
    obtain ⟨floor, inside⟩ := reads
    obtain ⟨own, rest⟩ := List.cons_subset.mp inside
    exact ⟨parsed, Int.lt_of_le_of_lt floor (Int.not_le.mp above), own, rest⟩
  | executeFile | record => exact reads
  | commit =>
    obtain ⟨_, positive, _, rest⟩ := reads
    exact ⟨Int.le_of_lt positive, rest⟩

end Steps

namespace State

/-- What the open transaction of the process of this index has done. -/
def versions (state : State) (index : Nat) : List Int :=
    (state.processes[index]?).elim [] Process.versions

def scripts (config : Config) (state : State) (index : Nat) : List Script :=
  (state.processes[index]?).elim [] (Process.scripts config)

structure Sound (config : Config) (state : State) : Prop where
  ownVersions : ∀ index, state.database.versions.own index = state.versions index
  ownScripts : ∀ index, state.database.executed.own index = state.scripts config index
  distinct : state.database.versions.rows.Nodup
  ledger : Ledger config state.database.versions.committed state.database.executed.committed
  reads : ∀ (index : Nat) (process : Process), state.processes[index]? = some process →
    process.phase.Reads process.files

/-- The steps of the system. -/
inductive Moves (config : Config) (state : State) : Event → State → Prop where
  | start : Moves config state (.start files)
      { state with processes := state.processes ++ [⟨files, .begun⟩] }
  | process {process : Process} (found : state.processes[index]? = some process)
      (taken : process.step config index state.database = some (next, phase)) :
      Moves config state (.process index) ⟨next, state.processes.set index { process with phase }⟩
  | abort {process : Process} (found : state.processes[index]? = some process)
      (running : process.phase.ended = false) :
      Moves config state (.abort index)
        ⟨state.database.rollback index, state.processes.set index { process with phase := .raised }⟩

variable {config : Config} {state after : State} {event : Event} {events : List Event}
variable {index : Nat} {process : Process}

theorem step_moves (taken : step config state event = some after) :
    Moves config state event after := by
  cases event with
  | start =>
    cases taken
    exact .start
  | process index =>
    simp only [step] at taken
    split at taken
    · cases taken
    · rename_i found
      split at taken
      · cases taken
      · rename_i moved
        cases taken
        exact .process found moved
  | abort index =>
    simp only [step] at taken
    split at taken
    · cases taken
    · rename_i found
      split at taken
      · cases taken
      · rename_i running
        cases taken
        exact .abort found (by simpa using running)

/-- What holds of the database and of the open transactions after the step of one process. -/
structure Follows (config : Config) (index : Nat) (versions : List Int) (scripts : List Script)
    (before after : Database) : Prop where
  ownVersions : ∀ other, after.versions.own other = if other = index then versions
    else before.versions.own other
  ownScripts : ∀ other, after.executed.own other = if other = index then scripts
    else before.executed.own other
  distinct : after.versions.rows.Nodup
  ledger : Ledger config after.versions.committed after.executed.committed

theorem Sound.rollback (sound : Sound config state) (index : Nat) :
    Follows config index [] [] state.database (state.database.rollback index) where
  ownVersions other := Heap.own_rollback _ other
  ownScripts other := Heap.own_rollback _ other
  distinct := sound.distinct.sublist (Heap.rows_rollback _ _)
  ledger := sound.ledger

theorem Sound.follows {phase after : Phase} {next : Database} (sound : Sound config state)
    (versions : state.database.versions.own index = phase.versions)
    (scripts : state.database.executed.own index = phase.scripts config)
    (effect : Effect config index state.database phase next after) :
    Follows config index after.versions (after.scripts config) state.database next := by
  cases effect with
  | none sameVersions sameScripts =>
    exact ⟨Heap.own_kept versions sameVersions, Heap.own_kept scripts sameScripts, sound.distinct,
      sound.ledger⟩
  | execute sameVersions more =>
    exact ⟨Heap.own_kept versions sameVersions, Heap.own_added scripts more, sound.distinct,
      sound.ledger⟩
  | @insert version _ _ inserted more sameScripts =>
    unfold Database.insertVersion at inserted
    split at inserted
    · cases inserted
    · cases inserted
    · rename_i heap done
      obtain rfl := Statement.returns.inj inserted
      obtain ⟨fresh, rows⟩ := Heap.insert_unique done
      obtain ⟨_, rfl⟩ := Heap.insert_returns done
      refine ⟨Heap.own_added versions more, Heap.own_kept scripts sameScripts, ?_, sound.ledger⟩
      rw [rows]
      apply List.nodup_append'.mpr
      exact ⟨sound.distinct, List.nodup_singleton _, by simpa using fresh⟩
  | @commit version _ made held none' nothing =>
    rw [held] at versions
    constructor
    · intro other
      rw [none']
      exact Heap.own_commit _ other
    · intro other
      rw [nothing]
      exact Heap.own_commit _ other
    · exact (Heap.rows_commit _ _).nodup_iff.mpr sound.distinct
    · have fresh := Heap.own_fresh sound.distinct
        (versions ▸ List.mem_singleton.mpr rfl : version ∈ _)
      have grown := Ledger.entry sound.ledger fresh made
      rwa [← versions, ← scripts] at grown
  | rollback => exact sound.rollback index

theorem Follows.sound {phase : Phase} {next : Database}
    (follows : Follows config index phase.versions
    (phase.scripts config) state.database next) (sound : Sound config state)
    (found : state.processes[index]? = some process) (reads : phase.Reads process.files) :
    Sound config ⟨next, state.processes.set index { process with phase }⟩ := by
  constructor
  · intro other
    rw [follows.ownVersions]
    split
    · rename_i own
      rw [own, versions, Processes.set_self found, Option.elim_some, Process.versions]
    · rename_i foreign
      rw [sound.ownVersions, versions, versions, Processes.set_other foreign]
  · intro other
    rw [follows.ownScripts]
    split
    · rename_i own
      rw [own, scripts, Processes.set_self found, Option.elim_some, Process.scripts]
    · rename_i foreign
      rw [sound.ownScripts, scripts, scripts, Processes.set_other foreign]
  · exact follows.distinct
  · exact follows.ledger
  · intro other entry present
    rcases Processes.set_cases present with ⟨_, rfl⟩ | ⟨_, earlier⟩
    · exact reads
    · exact sound.reads other entry earlier

theorem Moves.sound (moves : Moves config state event after)
    (sound : Sound config state) : Sound config after := by
  cases moves with
  | @start files =>
    constructor
    · intro index
      rw [sound.ownVersions]
      exact (Processes.elim_concat (rfl : Process.versions ⟨files, .begun⟩ = [])).symm
    · intro index
      rw [sound.ownScripts]
      exact (Processes.elim_concat (rfl : Process.scripts config ⟨files, .begun⟩ = [])).symm
    · exact sound.distinct
    · exact sound.ledger
    · intro index process found
      rcases Processes.append_cases found with ⟨_, rfl⟩ | earlier
      · trivial
      · exact sound.reads index process earlier
  | @process index next phase process found taken =>
    have reads := sound.reads index process found
    have versions := sound.ownVersions index
    have scripts := sound.ownScripts index
    rw [State.versions, found, Option.elim_some] at versions
    rw [State.scripts, found, Option.elim_some] at scripts
    have effect := (Process.step_runs taken).effect reads
    apply (sound.follows versions scripts effect).sound sound found
    exact (Process.step_runs taken).reads (fun version member => sound.ledger.nonneg member) reads
  | @abort index process found running =>
    have follows : Follows config index Phase.raised.versions
        (Phase.raised.scripts config) state.database _ :=
      sound.rollback index
    exact follows.sound sound found trivial

theorem run_sound (run : Run (system config) Any events state) : Sound config state := by
  apply run.invariant
  · constructor
    · intro index
      rfl
    · intro index
      rfl
    · exact .nil
    · exact .empty
    · intro index process found
      simp [system, init] at found
  · intro _ before event after _ sound _ taken
    exact (step_moves taken).sound sound

end State

end Relays.Migrations
