import Relays.Library.Progress
import Relays.Migrations.Release

/-! A process that nobody disturbs. What others have left behind, finished or not, does not keep it
from its end. -/

namespace Relays.Migrations

open ReadCommitted Transition

/-- What a process has read of the versions is what they are. -/
def Phase.Current (database : Database) : Phase → Prop
  | .begun | .tableCreated | .finished => True
  | .schema _ | .schemaRecorded => database.versions.committed = []
  | .walking currentVersion _ => ∀ version ∈ database.versions.committed, version ≤ currentVersion
  | .opened _ version _ | .executed _ version _ | .recorded _ version _ =>
    ∀ other ∈ database.versions.committed, other < version
  | .raised => False

/-- The statements that a process has before it at most. -/
def Phase.remaining (config : Config) (files : List String) : Phase → Nat
  | .begun => 5 * files.length + config.schemaFiles.length + 5
  | .tableCreated => 5 * files.length + config.schemaFiles.length + 4
  | .schema position => 5 * files.length + (config.schemaFiles.length - position) + 3
  | .schemaRecorded => 5 * files.length + 2
  | .walking _ rest => 5 * rest.length + 1
  | .opened _ _ rest => 5 * rest.length + 5
  | .executed _ _ rest => 5 * rest.length + 4
  | .recorded _ _ rest => 5 * rest.length + 3
  | .finished | .raised => 0

namespace State

/-- All processes have ended but this one, whose files are numbered. -/
structure Solo (config : Config) (tx : Nat) (files : List String) (state : State) : Prop where
  sound : Sound config state
  process : ∃ process, state.processes[tx]? = some process ∧ process.files = files ∧
    process.phase.Current state.database
  others : ∀ (index : Nat) (process : Process), state.processes[index]? = some process →
    index ≠ tx →
    process.phase.ended = true

/-- The statements that a process has before it in this state. -/
def remaining (config : Config) (tx : Nat) (files : List String) (state : State) : Nat :=
  (state.processes[tx]?).elim 0 fun process => process.phase.remaining config files

def Finished (tx : Nat) (state : State) : Prop :=
  ∃ process, state.processes[tx]? = some process ∧ process.phase = .finished

def Statement (tx : Nat) (_ : State) (event : Event) : Prop := event = .process tx

variable {config : Config} {tx : Nat} {files : List String} {state after : State}
    {process : Process}

theorem versions_of_ended {phase : Phase} (ended : phase.ended = true) : phase.versions = [] := by
  cases phase with
  | finished | raised => rfl
  | _ => cases ended

/-- Nothing uncommitted is in the way. -/
theorem Solo.pending (solo : Solo config tx files state)
    (found : state.processes[tx]? = some process)
    (unwritten : process.phase.versions = []) : state.database.versions.pending = [] := by
  have own (index : Nat) : state.database.versions.own index = [] := by
    rw [solo.sound.ownVersions, versions]
    cases entry : state.processes[index]? with
    | none => rfl
    | some other =>
      rw [Option.elim_some, Process.versions]
      by_cases same : index = tx
      · subst same
        obtain rfl := Option.some.inj (entry.symm.trans found)
        exact unwritten
      · exact versions_of_ended (solo.others index other entry same)
  apply List.eq_nil_iff_forall_not_mem.mpr
  rintro ⟨index, version⟩ member
  have listed : version ∈ state.database.versions.own index :=
    List.mem_map.mpr ⟨(index, version), List.mem_filter.mpr ⟨member, by simp⟩, rfl⟩
  rw [own] at listed
  cases listed

/-- A version that has not been reached is inserted. -/
theorem Solo.inserts (solo : Solo config tx files state)
    (found : state.processes[tx]? = some process)
    (unwritten : process.phase.versions = []) {version : Int}
    (fresh : version ∉ state.database.versions.committed) :
    ∃ next, state.database.insertVersion tx version = .returns next ∧
      next.versions.committed = state.database.versions.committed := by
  unfold Database.insertVersion
  rw [Heap.insert_of_free]
  · exact ⟨_, rfl, rfl⟩
  · intro stored member
    simp only [decide_eq_false_iff_not]
    rintro rfl
    exact fresh member
  · rw [solo.pending found unwritten]
    exact fun _ none' => by cases none'

/-- Every file of the directory has a version that the table can hold. -/
def Numbered (files : List String) : Prop :=
  ∀ file ∈ files, ∃ version, migrationVersion file = some version ∧ version ≤ integerMax

theorem currentVersion_le {database : Database} {version : Int}
    (current : database.currentVersion = some version) :
    ∀ other ∈ database.versions.committed, other ≤ version :=
  (List.max?_eq_some_iff.mp current).2

/-- The statements of a process that is alone do not raise, and what it has read stays true. -/
theorem Solo.runs (solo : Solo config tx files state) (numbered : Numbered files)
    (found : state.processes[tx]? = some process) {next : Database} {phase : Phase}
    (runs : process.phase.Runs config tx state.database process.files next phase) :
    phase.Current next ∧ phase.remaining config files < process.phase.remaining config files := by
  obtain ⟨same, entry, own, current⟩ := solo.process
  obtain rfl := Option.some.inj (entry.symm.trans found)
  subst own
  have reads := solo.sound.reads tx same found
  have inserts {version : Int} (unwritten : _) (fresh : version ∉ _) :=
    solo.inserts found unwritten fresh
  have held := solo.sound.own_versions found
  generalize reached : same.phase = before at runs reads inserts held current
  cases runs with
  | createTable => exact ⟨trivial, by simp [Phase.remaining]⟩
  | unmigrated none' => exact ⟨List.max?_eq_none_iff.mp none', by simp [Phase.remaining]⟩
  | migrated some' =>
    refine ⟨currentVersion_le some', ?_⟩
    have length := (List.perm_insertionSort (· ≤ ·) same.files).length_eq
    simp only [Phase.remaining, sortedFiles]
    omega
  | executeSchema found =>
    refine ⟨current, ?_⟩
    have inside := (List.getElem?_eq_some_iff.mp found).1
    simp only [Phase.remaining]
    omega
  | schemaRefused _ refused =>
    have fresh : (0 : Int) ∉ state.database.versions.committed := by
      rw [current]; exact List.not_mem_nil
    obtain ⟨next, done, _⟩ := inserts rfl fresh
    rw [done] at refused
    cases refused
  | recordSchema _ inserted =>
    have fresh : (0 : Int) ∉ state.database.versions.committed := by
      rw [current]; exact List.not_mem_nil
    obtain ⟨next, done, kept⟩ := inserts rfl fresh
    obtain rfl := Statement.returns.inj (done.symm.trans inserted)
    exact ⟨kept.trans current, by simp only [Phase.remaining]; omega⟩
  | commitSchema =>
    constructor
    · intro version member
      have nothing : state.database.versions.committed = [] := current
      have added : (state.database.commit tx).versions.committed =
          state.database.versions.committed ++ [0] := by
        rw [← show state.database.versions.own tx = [0] from held]
        rfl
      rw [added, nothing, List.nil_append] at member
      exact Int.le_of_eq (List.mem_singleton.mp member)
    · have length := (List.perm_insertionSort (· ≤ ·) same.files).length_eq
      simp only [Phase.remaining, sortedFiles]
      omega
  | finish => exact ⟨trivial, by simp [Phase.remaining]⟩
  | unnumbered unparsed =>
    obtain ⟨_, inside⟩ := reads
    obtain ⟨version, parsed, _⟩ := numbered _ (inside List.mem_cons_self)
    rw [unparsed] at parsed
    cases parsed
  | skip parsed below => exact ⟨current, by simp [Phase.remaining]⟩
  | openFile parsed above =>
    refine ⟨?_, by simp only [Phase.remaining, List.length_cons]; omega⟩
    intro other member
    have known := current other member
    omega
  | executeFile => exact ⟨current, by simp [Phase.remaining]⟩
  | overflow large =>
    obtain ⟨parsed, _, inside, _⟩ := reads
    obtain ⟨version, also, small⟩ := numbered _ inside
    obtain rfl := Option.some.inj (also.symm.trans parsed)
    omega
  | @refused version file rest small refused =>
    have fresh : version ∉ state.database.versions.committed :=
      fun member => absurd (current version member) (lt_irrefl _)
    obtain ⟨next, done, _⟩ := inserts rfl fresh
    rw [done] at refused
    cases refused
  | @record version file rest next small inserted =>
    have fresh : version ∉ state.database.versions.committed :=
      fun member => absurd (current version member) (lt_irrefl _)
    obtain ⟨next, done, kept⟩ := inserts rfl fresh
    obtain rfl := Statement.returns.inj (done.symm.trans inserted)
    refine ⟨?_, by simp [Phase.remaining]⟩
    rw [Phase.Current, kept]
    exact current
  | @commit file version rest =>
    refine ⟨?_, by simp [Phase.remaining]⟩
    intro other member
    have added : (state.database.commit tx).versions.committed =
        state.database.versions.committed ++ [version] := by
      rw [← show state.database.versions.own tx = [version] from held]
      rfl
    rw [added] at member
    rcases List.mem_append.mp member with earlier | new
    · exact Int.le_of_lt (current other earlier)
    · exact Int.le_of_eq (List.mem_singleton.mp new)

theorem Solo.step (solo : Solo config tx files state) (numbered : Numbered files)
    (taken : State.step config state (.process tx) = some after) :
    Solo config tx files after ∧
      after.remaining config tx files < state.remaining config tx files := by
  have moves : Moves config state (.process tx) after := step_moves taken
  have sound := moves.sound solo.sound
  cases moves with
  | @process _ next phase process found moved =>
    obtain ⟨current, spent⟩ := solo.runs numbered found (Process.step_runs moved)
    obtain ⟨same, entry, own, _⟩ := solo.process
    obtain rfl := Option.some.inj (entry.symm.trans found)
    refine ⟨⟨sound, ⟨_, Processes.set_self found, own, current⟩, ?_⟩, ?_⟩
    · intro index other present apart
      exact solo.others index other ((Processes.set_other apart).symm.trans present) apart
    · simp only [remaining, Processes.set_self found, found, Option.elim_some]
      exact spent

/-- A process that is alone can always go on. -/
theorem Solo.progress (solo : Solo config tx files state) (unfinished : ¬ Finished tx state) :
    (State.step config state (.process tx)).isSome = true := by
  obtain ⟨process, found, own, current⟩ := solo.process
  have inserts {version : Int} (unwritten : _) (fresh : version ∉ _) :=
    solo.inserts found unwritten fresh
  have possible : (process.step config tx state.database).isSome = true := by
    unfold Process.step
    split
    · rfl
    · split <;> rfl
    · split
      · rfl
      · rename_i reached _ _
        rw [reached] at inserts current
        have fresh : (0 : Int) ∉ state.database.versions.committed := by
          rw [current]; exact List.not_mem_nil
        obtain ⟨next, done, _⟩ := inserts rfl fresh
        rw [done]
        rfl
    · rfl
    · rfl
    · split
      · rfl
      · split <;> rfl
    · rfl
    · rename_i version _ reached
      rw [reached] at inserts current
      split
      · rfl
      · have fresh : version ∉ state.database.versions.committed :=
          fun member => absurd (current version member) (lt_irrefl _)
        obtain ⟨next, done, _⟩ := inserts rfl fresh
        rw [done]
        rfl
    · rfl
    · rename_i reached
      exact absurd ⟨process, found, reached⟩ unfinished
    · rename_i reached
      rw [reached] at current
      cases current
  obtain ⟨⟨next, phase⟩, moved⟩ := Option.isSome_iff_exists.mp possible
  simp [State.step, found, moved]

/-- A process that is alone finishes. -/
theorem Solo.finishes (solo : Solo config tx files state) (numbered : Numbered files) :
    ∃ more after, Path (system config) (Statement tx) state more after ∧ Finished tx after := by
  have preserved (before : State) (event : Event) (after : State)
    (held : Solo config tx files before)
      (statement : Statement tx before event) (taken : (system config).step before event =
        some after) :
      Solo config tx files after ∧
        after.remaining config tx files < before.remaining config tx files := by
    subst statement
    exact held.step numbered taken
  apply Path.exists_settled preserved _ solo
  intro before held unfinished
  exact ⟨_, rfl, held.progress unfinished⟩

end State

end Relays.Migrations
