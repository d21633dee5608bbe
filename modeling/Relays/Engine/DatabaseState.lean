import Relays.Engine.Refinement

/-! What every reachable database state says about a notification: the shape of
its row, the ledger of its attempts, and the success that makes it sent. -/

namespace Relays.Engine

open Transition

variable {config : Config} {engine middle : Engine} {events front back : List Event} {id : Uuid}
variable {stored : StoredNotification}

/-- Every committed row has exactly one shape, and a row without attempts left is
terminal, so a row that is still open never meets the exhausted guard. -/
theorem row_classified (run : Run (system config) Any events engine)
    (found : engine.world.row id = some stored) :
    (∃! shape : Shape, shape.Fits stored.val) ∧
      (stored.val.maxAttempts ≤ stored.val.attemptCount → stored.val.state.terminal = true) ∧
      (stored.val.state.terminal = false → ∀ named : Uuid,
        Delivery.validateDeliveryEligibility stored.val ≠ .error (.exhausted named)) := by
  obtain ⟨shape, fits⟩ := (run_lifecycle run id).shaped stored found
  have ended := fits.terminal_of_exhausted stored.property.chkAttemptBounds.1
  refine ⟨⟨shape, fits, fun other also => also.unique fits⟩, ended, ?_⟩
  intro open' named refused
  have room : stored.val.attemptCount < stored.val.maxAttempts := by
    by_contra exhausted
    simp [ended (Nat.not_lt.mp exhausted)] at open'
  have eligible := Delivery.validateDeliveryEligibility_ok.mpr ⟨open', room⟩
  simp [eligible] at refused

theorem row_classified_retry : ∃ engine stored,
    Run (system sampleConfig) Any (deliversOnce .temporaryFailure) engine ∧
    engine.world.row 7 = some stored ∧ stored.val.state = .queued ∧
    (∃! shape : Shape, shape.Fits stored.val) ∧
      (stored.val.maxAttempts ≤ stored.val.attemptCount → stored.val.state.terminal = true) ∧
      (stored.val.state.terminal = false → ∀ named : Uuid,
        Delivery.validateDeliveryEligibility stored.val ≠ .error (.exhausted named)) := by
  obtain ⟨engine, run, observed⟩ := Run.exists_of_execute (system sampleConfig) Any
    (deliversOnce .temporaryFailure)
    (fun engine => (engine.world.row 7).any fun stored => stored.val.state = .queued)
    (by decide +kernel)
  obtain ⟨stored, found, queued⟩ := (Option.any_eq_true _ _).mp observed
  exact ⟨engine, stored, run, found, by simpa using queued, row_classified run found⟩

/-- The ledger of a notification at any point of a run is numbered `1, …, attempt_count`,
and later steps only append to it. -/
theorem attempts_numbered (run : Run (system config) Any events engine) :
    (∀ id stored, engine.world.row id = some stored →
      (engine.world.attempts.committed.filter fun attempt => attempt.notificationId = id).map
        DeliveryAttempt.attemptNumber = List.range' 1 stored.val.attemptCount) ∧
    (∀ id, engine.world.row id = none →
      ∀ attempt ∈ engine.world.attempts.committed, attempt.notificationId ≠ id) ∧
    (∀ front back middle, events = front ++ back → Run (system config) Any front middle →
      middle.world.attempts.committed <+: engine.world.attempts.committed) := by
  refine ⟨?_, ?_, ?_⟩
  · intro id stored found
    obtain ⟨_, _, numbered⟩ := (run_lifecycle run id).ledger
    exact numbered stored found
  · intro id missing attempt member named
    obtain ⟨absent, _, _⟩ := (run_lifecycle run id).ledger
    have listed : attempt ∈ (engine.world.lifecycle id).attempts := by
      simp [World.lifecycle, member, named]
    simp [absent missing] at listed
  · intro front back middle split reached
    exact (run_extends run split reached).ledger

theorem attempts_numbered_delivered : ∃ engine,
    Run (system sampleConfig) Any (deliversOnce .success) engine ∧
    (engine.world.attempts.committed.map DeliveryAttempt.attemptNumber = [1]) ∧
    (∀ id stored, engine.world.row id = some stored →
      (engine.world.attempts.committed.filter fun attempt => attempt.notificationId = id).map
        DeliveryAttempt.attemptNumber = List.range' 1 stored.val.attemptCount) ∧
    (∀ id, engine.world.row id = none →
      ∀ attempt ∈ engine.world.attempts.committed, attempt.notificationId ≠ id) ∧
    (∀ front back middle, deliversOnce .success = front ++ back →
      Run (system sampleConfig) Any front middle →
      middle.world.attempts.committed <+: engine.world.attempts.committed) := by
  obtain ⟨engine, run, _, _, numbered⟩ := deliversOnce_succeeds
  exact ⟨engine, run.any, numbered, attempts_numbered run.any⟩

theorem acknowledged_iff (run : Run (system config) Any events engine)
    (found : engine.world.row id = some stored) :
    stored.val.state = .sent ↔ ∃ attempt ∈ engine.world.attempts.committed,
      attempt.notificationId = id ∧ attempt.status = .success := by
  have acknowledged := (run_lifecycle run id).acknowledged.2 stored found
  rw [acknowledged]
  simp [Lifecycle.Succeeded, World.lifecycle, and_assoc]

/-- A row is sent exactly when a success is on record, and it stays sent. -/
theorem sent_iff_success (run : Run (system config) Any events engine) :
    (∀ id stored, engine.world.row id = some stored → (stored.val.state = .sent ↔
      ∃ attempt ∈ engine.world.attempts.committed,
        attempt.notificationId = id ∧ attempt.status = .success)) ∧
    (∀ front back middle id earlier, events = front ++ back → Run (system config) Any front middle →
      middle.world.row id = some earlier → earlier.val.state = .sent →
      ∃ later, engine.world.row id = some later ∧ later.val.state = .sent) := by
  refine ⟨fun id stored found => acknowledged_iff run found, ?_⟩
  intro front back middle id earlier split reached found sent
  have extends' := run_extends run split reached
  obtain ⟨attempt, member, success⟩ := (acknowledged_iff reached found).mp sent
  obtain ⟨later, present, _⟩ := extends'.rows id earlier found
  exact ⟨later, present, (acknowledged_iff run present).mpr ⟨attempt, extends'.ledger.subset member,
    success⟩⟩

theorem sent_iff_success_stale : ∃ engine, Run (system sampleConfig) Any staleFailure engine ∧
    (engine.executions.map fun execution => execution.phase.ending) =
      [some .delivered, some .rejected] ∧
    (∀ id stored, engine.world.row id = some stored → (stored.val.state = .sent ↔
      ∃ attempt ∈ engine.world.attempts.committed,
        attempt.notificationId = id ∧ attempt.status = .success)) ∧
    (∀ front back middle id earlier, staleFailure = front ++ back →
      Run (system sampleConfig) Any front middle →
      middle.world.row id = some earlier → earlier.val.state = .sent →
      ∃ later, engine.world.row id = some later ∧ later.val.state = .sent) := by
  obtain ⟨engine, run, endings, _⟩ := staleFailure_rejected
  exact ⟨engine, run.any, endings, sent_iff_success run.any⟩

end Relays.Engine
