import Relays.Migrations.Ledger

/-! However many processes migrate the database at the same time and wherever they die, nothing is
committed twice and the versions on record tell what has been. -/

namespace Relays.Migrations

open ReadCommitted Transition

structure AtMostOnce (config : Config) (database : Database) : Prop where
  once : database.executed.committed.Nodup
  recorded : database.versions.committed.Nodup
  schema : ∀ file ∈ config.schemaFiles,
    .schema file ∈ database.executed.committed ↔ 0 ∈ database.versions.committed
  migration : ∀ version, version ≠ 0 → (version ∈ database.versions.committed ↔
    ∃ file, .migration file ∈ database.executed.committed ∧ migrationVersion file = some version)
  versioned : ∀ file, .migration file ∈ database.executed.committed →
    ∃ version, migrationVersion file = some version ∧ 0 < version

theorem Ledger.versioned {config : Config} {versions : List Int} {scripts : List Script}
    {file : String}
    (ledger : Ledger config versions scripts) (member : .migration file ∈ scripts) :
    ∃ version, migrationVersion file = some version ∧ 0 < version := by
  induction ledger with
  | empty => cases member
  | entry earlier fresh made ih =>
    rcases List.mem_append.mp member with old | new
    · exact ih old
    · cases made with
      | schema => simp at new
      | migration parsed positive =>
        obtain rfl := Script.migration.inj (List.mem_singleton.mp new)
        exact ⟨_, parsed, positive⟩

theorem migrations_at_most_once {config : Config} {events : List State.Event} {state : State}
    (run : Run (State.system config) Any events state) : AtMostOnce config state.database := by
  have ledger := (State.run_sound run).ledger
  constructor
  · exact ledger.scripts_nodup
  · exact ledger.versions_nodup
  · intro file known
    exact ledger.schema_iff known
  · intro version other
    rw [ledger.version_iff]
    simp [other]
  · intro file member
    exact ledger.versioned member

/-- Two processes find a new database; the first dies in its first migration and is restarted. -/
def racesAndCrashes : List State.Event :=
  [.start ["1_a.sql"], .start ["1_a.sql"], .process 0, .process 1, .process 0, .process 1,
    .process 1] ++
    List.replicate 7 (.process 0) ++ [.abort 0] ++ List.replicate 2 (.process 1) ++
    .start ["1_a.sql"] :: List.replicate 7 (.process 2)

theorem migrations_at_most_once_races :
    ∃ state, Run (State.system sampleConfig) Any racesAndCrashes state ∧
    AtMostOnce sampleConfig state.database := by
  obtain ⟨state, run, _⟩ := Run.exists_of_execute (State.system sampleConfig) Any racesAndCrashes
    (fun _ => true) (by decide)
  exact ⟨state, run, migrations_at_most_once run⟩

end Relays.Migrations
