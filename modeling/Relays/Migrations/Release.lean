import Relays.Migrations.Completeness

/-! Rolling deployments. Processes of older and newer releases migrate one database at the same
time; a release ships the migrations of the one before it and adds larger ones, so what a finished
process has in its directory is applied, whoever has applied it. -/

namespace Relays.Migrations

open ReadCommitted Transition

/-- The migrations of all releases, in the order of their names, with growing versions. -/
structure Release (releases : List String) : Prop where
  named : ∀ file ∈ releases, ∃ version, migrationVersion file = some version ∧ 0 < version
  increasing : releases.Pairwise fun first second => rank first < rank second

/-- A directory is that of some release. -/
def Ships (releases files : List String) : Prop := sortedFiles files <+: releases

namespace State

/-- Every process that is started has the directory of some release. -/
def Deploys (releases : List String) (_ : State) (event : Event) : Prop :=
  ∀ files, event = .start files → Ships releases files

end State

namespace Database

/-- What is committed stays. -/
structure Grows (before after : Database) : Prop where
  versions : before.versions.committed ⊆ after.versions.committed
  executed : before.executed.committed ⊆ after.executed.committed

theorem Grows.of_same {before after : Database}
    (versions : after.versions.committed = before.versions.committed)
    (executed : after.executed.committed = before.executed.committed) : before.Grows after :=
  ⟨versions.symm ▸ List.Subset.refl _, executed.symm ▸ List.Subset.refl _⟩

end Database

theorem Effect.grows {config : Config} {tx : Nat} {database next : Database} {phase after : Phase}
    (effect : Effect config tx database phase next after) : database.Grows next := by
  cases effect with
  | none | execute | rollback => exact .of_same rfl rfl
  | insert inserted =>
    unfold Database.insertVersion at inserted
    split at inserted
    · cases inserted
    · cases inserted
    · rename_i heap done
      obtain rfl := Statement.returns.inj inserted
      obtain ⟨_, rfl⟩ := Heap.insert_returns done
      exact .of_same rfl rfl
  | commit => exact ⟨List.subset_append_left _ _, List.subset_append_left _ _⟩

/-- The files that a process has passed are applied, and it has passed them in order. -/
def Phase.Passed (database : Database) (files : List String) : Phase → Prop
  | .begun | .tableCreated | .schema _ | .schemaRecorded | .raised => True
  | .walking currentVersion rest => 0 ∈ database.versions.committed ∧
    currentVersion ∈ database.versions.committed ∧
      ∃ done, sortedFiles files = done ++ rest ∧
        ∀ file ∈ done, .migration file ∈ database.executed.committed
  | .opened file version rest | .executed file version rest | .recorded file version rest =>
      0 ∈ database.versions.committed ∧ migrationVersion file = some version ∧
        ∃ done, sortedFiles files = done ++ file :: rest ∧
          ∀ file ∈ done, .migration file ∈ database.executed.committed
  | .finished => 0 ∈ database.versions.committed ∧
    ∀ file ∈ files, .migration file ∈ database.executed.committed

section Steps

variable {config : Config} {tx : Nat} {database next : Database} {files releases : List String}
    {phase after : Phase}
variable {file : String} {version : Int}

theorem Phase.Passed.grows (passed : phase.Passed database files) (grows : database.Grows next) :
    phase.Passed next files := by
  have kept (done : List String) (applied : ∀ file ∈ done,
    Script.migration file ∈ database.executed.committed) :
      ∀ file ∈ done, Script.migration file ∈ next.executed.committed :=
    fun file member => grows.executed (applied file member)
  cases phase with
  | begun | tableCreated | schema | schemaRecorded | raised => trivial
  | walking currentVersion rest =>
    obtain ⟨base, current, done, split, applied⟩ := passed
    exact ⟨grows.versions base, grows.versions current, done, split, kept done applied⟩
  | opened | executed | recorded =>
    obtain ⟨base, parsed, done, split, applied⟩ := passed
    exact ⟨grows.versions base, parsed, done, split, kept done applied⟩
  | finished =>
    obtain ⟨base, applied⟩ := passed
    exact ⟨grows.versions base, kept files applied⟩

theorem rank_of_parsed (parsed : migrationVersion file = some version) : rank file = version := by
  rw [rank, parsed, Option.getD_some]

/-- The commit of a version closes the gap below it: what comes before its file has been passed. -/
theorem closed_of_recorded {rest : List String} (release : Release releases)
    (ships : Ships releases files)
    (passed : (Phase.recorded file version rest).Passed database files) {other : String}
    (known : other ∈ releases)
    (below : rank other ≤ version) : .migration other ∈ database.executed.committed ∨
      other = file := by
  obtain ⟨_, parsed, done, split, applied⟩ := passed
  obtain ⟨later, whole⟩ := ships
  rw [split, List.append_assoc, List.cons_append] at whole
  rw [← rank_of_parsed parsed] at below
  have increasing := release.increasing
  rw [← whole] at known increasing
  rcases List.mem_append.mp known with before | among
  · exact .inl (applied other before)
  · rcases List.mem_cons.mp among with same | above
    · exact .inr same
    · have larger := (List.pairwise_cons.mp (List.pairwise_append.mp increasing).2.1).1 other above
      exact absurd below (not_le.mpr larger)

/-- A statement passes a file once it is applied. -/
theorem Phase.Runs.passed (runs : phase.Runs config tx database files next after)
    (grows : database.Grows next)
    (own : database.versions.own tx = phase.versions)
    (scripts : database.executed.own tx = phase.scripts config)
    (passed : phase.Passed database files) (ships : Ships releases files)
    (base : ∀ version ∈ database.versions.committed, 0 ∈ database.versions.committed)
    (closed : ∀ file ∈ releases, ∀ version ∈ database.versions.committed, rank file ≤ version →
      .migration file ∈ database.executed.committed) : after.Passed next files := by
  cases runs with
  | createTable | unmigrated | executeSchema | schemaRefused | recordSchema | unnumbered | overflow
  | refused => trivial
  | migrated current =>
    have member := List.max?_mem current
    exact ⟨base _ member, member, [], rfl, by simp⟩
  | commitSchema =>
    have committed : (0 : Int) ∈ (database.commit tx).versions.committed := by
      apply List.mem_append_right
      rw [own]
      exact List.mem_singleton.mpr rfl
    exact ⟨committed, committed, [], rfl, by simp⟩
  | finish =>
    obtain ⟨base, _, done, split, applied⟩ := passed
    refine ⟨base, fun file member => applied file ?_⟩
    rw [← List.append_nil done, ← split]
    exact (List.perm_insertionSort (· ≤ ·) files).mem_iff.mpr member
  | @skip file version currentVersion rest parsed below =>
    obtain ⟨base, current, done, split, applied⟩ := passed
    refine ⟨base, current, done ++ [file], by simp [split], ?_⟩
    intro other member
    rcases List.mem_append.mp member with before | last
    · exact applied other before
    · obtain rfl := List.mem_singleton.mp last
      have known : other ∈ releases := ships.subset (by simp [split])
      exact closed other known currentVersion current (by rw [rank_of_parsed parsed]; exact below)
  | openFile parsed above =>
    obtain ⟨base, _, done, split, applied⟩ := passed
    exact ⟨base, parsed, done, split, applied⟩
  | executeFile | record =>
    obtain ⟨base, parsed, done, split, applied⟩ := passed
    exact ⟨grows.versions base, parsed, done, split,
      fun file member => grows.executed (applied file member)⟩
  | @commit file version rest =>
    obtain ⟨base, _, done, split, applied⟩ := passed
    refine ⟨grows.versions base, ?_, done ++ [file], by simp [split], ?_⟩
    · apply List.mem_append_right
      rw [own]
      exact List.mem_singleton.mpr rfl
    · intro other member
      rcases List.mem_append.mp member with before | last
      · exact grows.executed (applied other before)
      · obtain rfl := List.mem_singleton.mp last
        apply List.mem_append_right
        rw [scripts]
        exact List.mem_singleton.mpr rfl

/-- What is committed by a statement: nothing, the base schema, or one migration. -/
theorem Phase.Runs.commits (runs : phase.Runs config tx database files next after) :
    next.versions.committed = database.versions.committed ∧
      next.executed.committed = database.executed.committed ∨
      next = database.commit tx ∧
        (phase = .schemaRecorded ∨ ∃ file version rest, phase = .recorded file version rest) := by
  cases runs with
  | createTable | unmigrated | migrated | executeSchema | schemaRefused | finish | unnumbered | skip
  | openFile
  | executeFile | overflow | refused => exact .inl ⟨rfl, rfl⟩
  | recordSchema _ inserted | record _ inserted =>
    unfold Database.insertVersion at inserted
    split at inserted
    · cases inserted
    · cases inserted
    · rename_i heap done
      obtain rfl := Statement.returns.inj inserted
      obtain ⟨_, rfl⟩ := Heap.insert_returns done
      exact .inl ⟨rfl, rfl⟩
  | commitSchema => exact .inr ⟨rfl, .inl rfl⟩
  | commit => exact .inr ⟨rfl, .inr ⟨_, _, _, rfl⟩⟩

end Steps

namespace State

/-- Every migration of a version that has been reached is applied. -/
structure Released (releases : List String) (state : State) : Prop where
  base : ∀ version ∈ state.database.versions.committed, 0 ∈ state.database.versions.committed
  closed : ∀ file ∈ releases, ∀ version ∈ state.database.versions.committed, rank file ≤ version →
    .migration file ∈ state.database.executed.committed
  ships : ∀ process ∈ state.processes, Ships releases process.files
  passed : ∀ process ∈ state.processes, process.phase.Passed state.database process.files

variable {config : Config} {releases : List String} {state after : State} {event : Event}
    {events : List Event}
variable {index : Nat} {process : Process} {next : Database} {phase : Phase}

theorem Sound.own_versions (sound : Sound config state)
    (found : state.processes[index]? = some process) :
    state.database.versions.own index = process.phase.versions := by
  rw [sound.ownVersions, versions, found, Option.elim_some, Process.versions]

/-- The versions that one statement adds leave no gap. -/
theorem Released.closes (released : Released releases state) (release : Release releases)
    (sound : Sound config state)
    (found : state.processes[index]? = some process)
    (runs : process.phase.Runs config index state.database process.files next phase) :
    (∀ version ∈ next.versions.committed, 0 ∈ next.versions.committed) ∧
      ∀ file ∈ releases, ∀ version ∈ next.versions.committed, rank file ≤ version →
        .migration file ∈ next.executed.committed := by
  have member := List.mem_of_getElem? found
  have passed := released.passed process member
  have ships := released.ships process member
  have own := sound.own_versions found
  have scripts := sound.own_scripts found
  rcases runs.commits with ⟨sameVersions, sameScripts⟩
    | ⟨rfl, current | ⟨file, version, rest, current⟩⟩
  · rw [sameVersions, sameScripts]
    exact ⟨released.base, released.closed⟩
  · rw [current] at own scripts
    have added : (state.database.commit index).versions.committed =
        state.database.versions.committed ++ [0] := by
      rw [← show state.database.versions.own index = [0] from own]
      rfl
    refine ⟨fun _ _ => by simp [added], ?_⟩
    intro file known version reached below
    rw [added] at reached
    rcases List.mem_append.mp reached with earlier | new
    · exact List.mem_append_left _ (released.closed file known version earlier below)
    · obtain rfl := List.mem_singleton.mp new
      obtain ⟨own, parsed, positive⟩ := release.named file known
      rw [rank_of_parsed parsed] at below
      omega
  · rw [current] at own scripts passed
    have added : (state.database.commit index).versions.committed =
        state.database.versions.committed ++ [version] := by
      rw [← show state.database.versions.own index = [version] from own]
      rfl
    have applied : (state.database.commit index).executed.committed =
        state.database.executed.committed ++ [.migration file] := by
      rw [← show state.database.executed.own index = [.migration file] from scripts]
      rfl
    obtain ⟨base, parsed, _⟩ := id passed
    refine ⟨fun _ _ => by simp [added, base], ?_⟩
    intro other known reached member below
    rw [added] at member
    rw [applied]
    rcases List.mem_append.mp member with earlier | new
    · exact List.mem_append_left _ (released.closed other known reached earlier below)
    · obtain rfl := List.mem_singleton.mp new
      rcases closed_of_recorded release ships passed known below with before | rfl
      · exact List.mem_append_left _ before
      · simp

theorem Moves.released (moves : Moves config state event after) (sound : Sound config state)
    (release : Release releases) (deploys : Deploys releases state event)
    (released : Released releases state) :
    Released releases after := by
  cases moves with
  | @start files =>
    refine ⟨released.base, released.closed, ?_, ?_⟩
    · intro process member
      rcases List.mem_append.mp member with earlier | new
      · exact released.ships process earlier
      · obtain rfl := List.mem_singleton.mp new
        exact deploys files rfl
    · intro process member
      rcases List.mem_append.mp member with earlier | new
      · exact released.passed process earlier
      · obtain rfl := List.mem_singleton.mp new
        trivial
  | @process index next phase process found taken =>
    have runs := Process.step_runs taken
    have here := List.mem_of_getElem? found
    have ships := released.ships process here
    have grows := (runs.effect (sound.reads index process found)).grows
    have own := sound.own_versions found
    have scripts := sound.own_scripts found
    obtain ⟨base, closed⟩ := released.closes release sound found runs
    refine ⟨base, closed, ?_, ?_⟩
    · intro other member
      obtain ⟨place, entry⟩ := List.mem_iff_getElem?.mp member
      rcases Processes.set_cases entry with ⟨_, rfl⟩ | ⟨_, earlier⟩
      · exact ships
      · exact released.ships other (List.mem_of_getElem? earlier)
    · intro other member
      obtain ⟨place, entry⟩ := List.mem_iff_getElem?.mp member
      rcases Processes.set_cases entry with ⟨_, rfl⟩ | ⟨_, earlier⟩
      · exact runs.passed grows own scripts (released.passed process here) ships released.base
          released.closed
      · exact (released.passed other (List.mem_of_getElem? earlier)).grows grows
  | @abort index process found running =>
    have grows : state.database.Grows (state.database.rollback index) := .of_same rfl rfl
    refine ⟨released.base, released.closed, ?_, ?_⟩
    · intro other member
      obtain ⟨place, entry⟩ := List.mem_iff_getElem?.mp member
      rcases Processes.set_cases entry with ⟨_, rfl⟩ | ⟨_, earlier⟩
      · exact released.ships process (List.mem_of_getElem? found)
      · exact released.ships other (List.mem_of_getElem? earlier)
    · intro other member
      obtain ⟨place, entry⟩ := List.mem_iff_getElem?.mp member
      rcases Processes.set_cases entry with ⟨_, rfl⟩ | ⟨_, earlier⟩
      · trivial
      · exact (released.passed other (List.mem_of_getElem? earlier)).grows grows

theorem run_released (run : Run (system config) (Deploys releases) events state)
    (release : Release releases) :
    Released releases state := by
  apply run.invariant
  · constructor <;> simp [system, init, Database.empty]
  · intro _ _ _ _ earlier released deploys taken
    exact (step_moves taken).released (run_sound earlier.any) release deploys released

/-- Whoever has finished finds the base schema and all that it ships applied, once. -/
theorem Released.finished (released : Released releases state) (sound : Sound config state)
    (found : state.processes[index]? = some process) (finished : process.phase = .finished) :
    (∀ file ∈ config.schemaFiles, state.database.executed.committed.count (.schema file) = 1) ∧
      ∀ file ∈ process.files, state.database.executed.committed.count (.migration file) = 1 := by
  have once := sound.ledger.scripts_nodup
  have passed := released.passed process (List.mem_of_getElem? found)
  rw [finished] at passed
  obtain ⟨base, applied⟩ := passed
  constructor
  · intro file known
    have member : .schema file ∈ state.database.executed.committed :=
      (sound.ledger.schema_iff known).mpr base
    simp [once.count, member]
  · intro file known
    simp [once.count, applied file known]

end State

end Relays.Migrations
