import Relays.Migrations.AtMostOnce

/-! Whether a run of the migrations leaves none behind: the files are walked in the order of their
names, and a file is only executed when its version is above all versions met before it. -/

namespace Relays.Migrations

open ReadCommitted Transition Records

def Script.migration? : Script → Option String
  | .migration file => some file
  | .schema _ => none

/-- The migrations that have been committed, in the order of their commits. -/
def Database.applied (database : Database) : List String :=
  database.executed.committed.filterMap Script.migration?

theorem Database.mem_applied {database : Database} {file : String} :
    file ∈ database.applied ↔ .migration file ∈ database.executed.committed := by
  unfold applied
  rw [List.mem_filterMap]
  constructor
  · rintro ⟨script, member, same⟩
    cases script with
    | schema => cases same
    | migration name =>
      obtain rfl := Option.some.inj same
      exact member
  · intro member
    exact ⟨_, member, rfl⟩

/-- The migrations that a process that nobody disturbs is still going to commit. -/
def Phase.outstanding (database : Database) (files : List String) : Phase → List String
  | .begun | .tableCreated => records rank (database.currentVersion.getD 0) (sortedFiles files)
  | .schema _ | .schemaRecorded => records rank 0 (sortedFiles files)
  | .walking currentVersion rest => records rank currentVersion rest
  | .opened file version rest | .executed file version rest | .recorded file version rest =>
    file :: records rank version rest
  | .finished | .raised => []

section Steps

variable {config : Config} {tx : Nat} {database next : Database} {files : List String}
    {phase after : Phase}

theorem Database.insertVersion_applied {version : Int}
    (inserted : database.insertVersion tx version = .returns next) :
    next.applied = database.applied := by
  unfold Database.insertVersion at inserted
  split at inserted
  · cases inserted
  · cases inserted
  · obtain rfl := Statement.returns.inj inserted
    rfl

theorem Database.commit_applied {scripts : List Script}
    (held : database.executed.own tx = scripts) :
    (database.commit tx).applied = database.applied ++ scripts.filterMap Script.migration? := by
  rw [← held]
  exact List.filterMap_append

/-- What a statement commits is no longer outstanding, and nothing else is lost. -/
theorem Phase.Runs.outstanding (runs : phase.Runs config tx database files next after)
    (held : database.executed.own tx = phase.scripts config) :
    after = .raised ∨ next.applied ++ after.outstanding next files =
      database.applied ++ phase.outstanding database files := by
  cases runs with
  | createTable | executeSchema | finish | executeFile => exact .inr rfl
  | unmigrated current | migrated current => simp [Phase.outstanding, current]
  | schemaRefused | unnumbered | overflow | refused => exact .inl rfl
  | recordSchema _ inserted | record _ inserted =>
    rw [Database.insertVersion_applied inserted]
    exact .inr rfl
  | commitSchema =>
    have none' : (config.schemaFiles.map Script.schema).filterMap Script.migration? = [] := by
      rw [List.filterMap_map]
      exact List.filterMap_eq_nil_iff.mpr fun _ _ => rfl
    rw [Database.commit_applied held, Phase.scripts, none', List.append_nil]
    exact .inr rfl
  | @skip file version _ _ parsed below =>
    have ranked : rank file = version := by rw [rank, parsed, Option.getD_some]
    rw [Phase.outstanding, Phase.outstanding, records, ranked, if_pos below]
    exact .inr rfl
  | @openFile file version _ _ parsed above =>
    have ranked : rank file = version := by rw [rank, parsed, Option.getD_some]
    rw [Phase.outstanding, Phase.outstanding, records, ranked, if_neg above]
    exact .inr rfl
  | commit =>
    rw [Database.commit_applied held, List.append_assoc]
    exact .inr rfl

/-- The migrations of a transaction are in the directory of its process. -/
theorem Phase.migration_reads {phase : Phase} {files : List String} {file : String}
    (reads : phase.Reads files)
    (member : .migration file ∈ phase.scripts config) : file ∈ files := by
  cases phase with
  | executed | recorded =>
    obtain rfl := Script.migration.inj (List.mem_singleton.mp member)
    exact reads.2.2.1
  | schema | schemaRecorded =>
    obtain ⟨_, _, same⟩ := List.mem_map.mp member
    cases same
  | _ => cases member

theorem Effect.committed {phase : Phase} {script : Script}
    (effect : Effect config tx database phase next after)
    (held : database.executed.own tx = phase.scripts config)
    (member : script ∈ next.executed.committed) :
    script ∈ database.executed.committed ∨ script ∈ phase.scripts config := by
  cases effect with
  | none | execute | rollback => exact .inl member
  | insert inserted =>
    unfold Database.insertVersion at inserted
    split at inserted
    · cases inserted
    · cases inserted
    · obtain rfl := Statement.returns.inj inserted
      exact .inl member
  | commit =>
    rw [← held]
    exact List.mem_append.mp member

end Steps

namespace State

variable {config : Config} {state after : State} {event : Event} {events : List Event}

theorem Sound.own_scripts {index : Nat} {process : Process} (sound : Sound config state)
    (found : state.processes[index]? = some process) :
    state.database.executed.own index = process.phase.scripts config := by
  rw [sound.ownScripts, scripts, found, Option.elim_some, Process.scripts]

/-- Every committed migration comes from the directory of some process. -/
def Sourced (state : State) : Prop :=
  ∀ file, .migration file ∈ state.database.executed.committed →
    ∃ process ∈ state.processes, file ∈ process.files

theorem Moves.sourced (moves : Moves config state event after) (sound : Sound config state)
    (sourced : state.Sourced) :
    after.Sourced := by
  have set_files {index : Nat} {process : Process} {phase : Phase}
    (found : state.processes[index]? = some process)
      (file : String) (known : ∃ process ∈ state.processes, file ∈ process.files) :
      ∃ other ∈ state.processes.set index { process with phase }, file ∈ other.files := by
    obtain ⟨source, member, present⟩ := known
    obtain ⟨place, entry⟩ := List.mem_iff_getElem?.mp member
    by_cases own : place = index
    · subst own
      obtain rfl := Option.some.inj (found.symm.trans entry)
      exact ⟨_, List.mem_of_getElem? (Processes.set_self found), present⟩
    · exact ⟨source, List.mem_of_getElem? ((Processes.set_other own).trans entry), present⟩
  cases moves with
  | start =>
    intro file member
    obtain ⟨source, known, present⟩ := sourced file member
    exact ⟨source, List.mem_append_left _ known, present⟩
  | @process index _ _ process found taken =>
    intro file member
    have reads := sound.reads index process found
    have held := sound.own_scripts found
    rcases ((Process.step_runs taken).effect reads).committed held member with old | new
    · exact set_files found file (sourced file old)
    · exact set_files found file ⟨process, List.mem_of_getElem? found,
        Phase.migration_reads reads new⟩
  | abort found =>
    intro file member
    exact set_files found file (sourced file member)

theorem run_sourced (run : Run (system config) Any events state) : state.Sourced := by
  apply run.invariant
  · intro file member
    cases member
  · intro _ before event after earlier sourced _ taken
    exact (step_moves taken).sourced (run_sound earlier) sourced

end State

/-- One more process is started with these files, and runs by itself until it has finished. -/
structure Finishes (config : Config) (files : List String) (before after : State) : Prop where
  alone : ∃ statements, (State.system config).execute Any before
    (.start files :: List.replicate statements (.process before.processes.length)) = some after
  finished : ∃ process, after.processes[before.processes.length]? = some process ∧
    process.phase = .finished

/-- The process with these files has not raised, and what is applied and what it is going to apply
make up this list. -/
structure Progresses (config : Config) (files : List String) (index : Nat) (total : List String)
    (state : State) :
    Prop where
  sound : State.Sound config state
  process : ∃ process, state.processes[index]? = some process ∧ process.files = files ∧
    (process.phase = .raised ∨
      state.database.applied ++ process.phase.outstanding state.database files = total)

section Alone

variable {config : Config} {files total : List String} {index : Nat} {state after : State}

theorem Progresses.step (progresses : Progresses config files index total state)
    (taken : (State.system config).step state (.process index) = some after) :
    Progresses config files index total after := by
  have moves : State.Moves config state (.process index) after := State.step_moves taken
  refine ⟨moves.sound progresses.sound, ?_⟩
  cases moves with
  | @process _ _ phase current found moved =>
    obtain ⟨process, entry, same, going⟩ := progresses.process
    obtain rfl := Option.some.inj (found.symm.trans entry)
    refine ⟨_, Processes.set_self found, same, ?_⟩
    rcases going with raised | sum
    · simp [Process.step, raised] at moved
    · subst same
      rcases (Process.step_runs moved).outstanding (progresses.sound.own_scripts found) with raised
        | kept
      · exact .inl raised
      · exact .inr (kept.trans sum)

theorem Progresses.execute (progresses : Progresses config files index total state)
    {statements : Nat}
    (done : (State.system config).execute Any state (List.replicate statements (.process index)) =
      some after) :
    Progresses config files index total after := by
  induction statements generalizing state with
  | zero =>
    obtain rfl := Option.some.inj done
    exact progresses
  | succ statements ih =>
    rw [List.replicate_succ, System.execute, if_pos (show Any state _ from trivial)] at done
    split at done
    · rename_i next taken
      exact ih (progresses.step taken) done
    · cases done

end Alone

section Finishes

variable {config : Config} {files : List String} {events : List State.Event} {before after : State}

theorem Finishes.progresses (finishes : Finishes config files before after)
    (run : Run (State.system config) Any events before) :
    Progresses config files before.processes.length (before.database.applied ++
      records rank (before.database.currentVersion.getD 0) (sortedFiles files)) after := by
  obtain ⟨statements, alone⟩ := finishes.alone
  have started : (State.system config).step before (.start files) =
      some { before with processes := before.processes ++ [⟨files, .begun⟩] } := rfl
  rw [System.execute, if_pos (show Any before _ from trivial), started] at alone
  have initial : Progresses config files before.processes.length (before.database.applied ++
      records rank (before.database.currentVersion.getD 0) (sortedFiles files))
      { before with processes := before.processes ++ [⟨files, .begun⟩] } :=
    ⟨State.run_sound (run.step trivial started), ⟨files, .begun⟩, List.getElem?_concat_length, rfl,
      .inr rfl⟩
  exact initial.execute alone

/-- What a run that finishes has committed on top of the migrations that were there. -/
theorem Finishes.applied (finishes : Finishes config files before after)
    (run : Run (State.system config) Any events before) :
    after.database.applied = before.database.applied ++
      records rank (before.database.currentVersion.getD 0) (sortedFiles files) := by
  obtain ⟨last, found, finished⟩ := finishes.finished
  obtain ⟨process, entry, _, raised | sum⟩ := (finishes.progresses run).process
  · obtain rfl := Option.some.inj (found.symm.trans entry)
    rw [finished] at raised
    cases raised
  · obtain rfl := Option.some.inj (found.symm.trans entry)
    rw [finished, Phase.outstanding, List.append_nil] at sum
    exact sum

end Finishes

/-- Over all runs up to now each of these files has been applied once, and this run has applied
its migrations in the order of their versions. -/
structure Complete (files : List String) (before after : Database) : Prop where
  once : ∀ file ∈ files, after.executed.committed.count (.migration file) = 1
  ordered : ∃ added, after.applied = before.applied ++ added ∧
    added.Pairwise (fun first second => rank first < rank second)

/-- Every file that is not on record is above all versions on record, and above the files that are
walked before it. -/
def Climbs (files : List String) (database : Database) : Prop :=
  ∀ file ∈ files, rank file ∈ database.versions.committed ∨
    (∀ version ∈ database.versions.committed, version < rank file) ∧ ∀ other ∈ files, other < file →
      rank other < rank file

section Sorted

variable {files : List String} {file : String} {bound : Int}

theorem mem_records_sorted (distinct : files.Nodup) (member : file ∈ files) :
    file ∈ records rank bound (sortedFiles files) ↔
      bound < rank file ∧ ∀ other ∈ files, other < file → rank other < rank file := by
  have perm : (sortedFiles files).Perm files := List.perm_insertionSort (· ≤ ·) files
  obtain ⟨front, back, split⟩ := List.append_of_mem (perm.mem_iff.mpr member)
  have nodup := perm.nodup_iff.mpr distinct
  have sorted : (sortedFiles files).Pairwise (· ≤ ·) := List.pairwise_insertionSort (· ≤ ·) files
  rw [split] at perm nodup sorted ⊢
  rw [mem_records_iff nodup]
  have earlier (other : String) : other ∈ front ↔ other ∈ files ∧ other < file := by
    rw [← perm.mem_iff, List.mem_append, List.mem_cons]
    constructor
    · intro before
      have below := (List.pairwise_append.mp sorted).2.2 other before file List.mem_cons_self
      refine ⟨.inl before, lt_of_le_of_ne below ?_⟩
      rintro rfl
      exact (List.nodup_append'.mp nodup).2.2 before List.mem_cons_self
    · rintro ⟨before | rfl | after, below⟩
      · exact before
      · exact absurd below (lt_irrefl _)
      · have above := (List.pairwise_cons.mp (List.pairwise_append.mp sorted).2.1).1 other after
        exact absurd below (not_lt.mpr above)
  apply and_congr_right
  intro _
  constructor
  · intro lower other known below
    exact lower other ((earlier other).mpr ⟨known, below⟩)
  · intro lower other before
    exact lower other ((earlier other).mp before).1 ((earlier other).mp before).2

end Sorted

theorem currentVersion_lt {database : Database} {version : Int} (positive : 0 < version) :
    database.currentVersion.getD 0 < version ↔
      ∀ other ∈ database.versions.committed, other < version := by
  unfold Database.currentVersion
  cases largest : database.versions.committed.max? with
  | none =>
    rw [List.max?_eq_none_iff] at largest
    simp [largest, positive]
  | some current =>
    obtain ⟨member, above⟩ := List.max?_eq_some_iff.mp largest
    constructor
    · intro below other known
      exact Int.lt_of_le_of_lt (above other known) below
    · intro below
      exact below current member

/-- A run that finishes leaves a file behind when a larger version is on record or comes first in
the order of the names. -/
theorem migrations_complete_iff {config : Config} {files : List String} {events : List State.Event}
    {before after : State} (run : Run (State.system config) Any events before)
    (named : ∀ file ∈ files, ∃ version, migrationVersion file = some version ∧ 0 < version)
    (distinct : (files.map rank).Nodup)
    (earlier : ∀ process ∈ before.processes, process.files ⊆ files)
    (finishes : Finishes config files before after) :
    Complete files before.database after.database ↔ Climbs files before.database := by
  have applied := finishes.applied run
  have once := (finishes.progresses run).sound.ledger.scripts_nodup
  have ledger := (State.run_sound run).ledger
  -- versions tell the files apart
  have recorded (file : String) (member : file ∈ files) :
      file ∈ before.database.applied ↔ rank file ∈ before.database.versions.committed := by
    obtain ⟨version, parsed, positive⟩ := named file member
    have ranked : rank file = version := by rw [rank, parsed, Option.getD_some]
    rw [Database.mem_applied, ranked, ledger.version_iff]
    constructor
    · intro committed
      exact .inr ⟨file, committed, parsed⟩
    · rintro (⟨rfl, _⟩ | ⟨other, committed, same⟩)
      · exact absurd positive (lt_irrefl 0)
      · obtain ⟨process, known, present⟩ := State.run_sourced run other committed
        have twin : rank other = rank file := by rw [ranked, rank, same, Option.getD_some]
        obtain rfl := List.inj_on_of_nodup_map distinct (earlier process known present) member twin
        exact committed
  have done (file : String) (member : file ∈ files) :
      after.database.executed.committed.count (.migration file) = 1 ↔
        rank file ∈ before.database.versions.committed ∨
          (∀ version ∈ before.database.versions.committed, version < rank file) ∧
            ∀ other ∈ files, other < file → rank other < rank file := by
    obtain ⟨version, parsed, positive⟩ := named file member
    have ranked : rank file = version := by rw [rank, parsed, Option.getD_some]
    have single : after.database.executed.committed.count (.migration file) = 1 ↔
        file ∈ after.database.applied := by
      rw [Database.mem_applied]
      simp [once.count]
    rw [single, applied, List.mem_append, recorded file member,
      mem_records_sorted distinct.of_map member,
      currentVersion_lt (ranked ▸ positive)]
  constructor
  · intro complete file member
    exact (done file member).mp (complete.once file member)
  · intro climbs
    exact ⟨fun file member => (done file member).mpr (climbs file member), _, applied,
      records_pairwise⟩

/-- A process that finishes on a new database, with what is observed then. -/
private theorem finishes_of_execute (files : List String) (statements : Nat)
    (observed : State → Bool)
    (done : ((State.system sampleConfig).execute Any State.init
      (.start files :: List.replicate statements (.process 0))).any (fun state =>
        (state.processes[0]?).any (fun process => process.phase = .finished) && observed state) =
          true) :
    ∃ after, Finishes sampleConfig files State.init after ∧ observed after = true := by
  obtain ⟨after, reached, seen⟩ := (Option.any_eq_true _ _).mp done
  obtain ⟨finished, observed⟩ := Bool.and_eq_true_iff.mp seen
  obtain ⟨process, found, ended⟩ := (Option.any_eq_true _ _).mp finished
  exact ⟨after, ⟨⟨statements, reached⟩, process, found, by simpa using ended⟩, observed⟩

theorem migrations_complete_iff_padded :
    ∃ after, Finishes sampleConfig ["09_a.sql", "10_b.sql"] State.init after ∧
    (Complete ["09_a.sql", "10_b.sql"] State.init.database after.database ↔
      Climbs ["09_a.sql", "10_b.sql"] State.init.database) := by
  obtain ⟨after, finishes, _⟩ :=
    finishes_of_execute ["09_a.sql", "10_b.sql"] 15 (fun _ => true) (by decide)
  refine ⟨after, finishes, migrations_complete_iff .start ?_ (by decide) ?_ finishes⟩
  · intro file member
    rcases List.mem_pair.mp member with rfl | rfl
    · exact ⟨9, by decide, by decide⟩
    · exact ⟨10, by decide, by decide⟩
  · intro process member
    cases member

/-- `10_a.sql` comes before `9_b.sql`, which is then passed over. -/
theorem migration_skipped :
    ∃ after, Finishes sampleConfig ["9_b.sql", "10_a.sql"] State.init after ∧
    (∀ file ∈ ["9_b.sql", "10_a.sql"], ∃ version, migrationVersion file = some version ∧
      0 < version) ∧
    (["9_b.sql", "10_a.sql"].map rank).Nodup ∧
    ¬ Complete ["9_b.sql", "10_a.sql"] State.init.database after.database := by
  obtain ⟨after, finishes, missed⟩ := finishes_of_execute ["9_b.sql", "10_a.sql"] 12
    (fun after => after.database.executed.committed.count (.migration "9_b.sql") = 0) (by decide)
  refine ⟨after, finishes, ?_, by decide, ?_⟩
  · intro file member
    rcases List.mem_pair.mp member with rfl | rfl
    · exact ⟨9, by decide, by decide⟩
    · exact ⟨10, by decide, by decide⟩
  · intro complete
    have applied := complete.once "9_b.sql" (by simp)
    simp only [decide_eq_true_eq] at missed
    omega

end Relays.Migrations
