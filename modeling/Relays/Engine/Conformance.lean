import Relays.Engine.Refinement

/-! The documented lifecycle against the committed one. Only the claim of a retry moves a
row to `processing`, so the first delivery of a notification never leaves from there. -/

namespace Relays

/-- The transitions that WORKERS.md draws. -/
def NotificationState.documented : NotificationState → NotificationState → Bool
  | .created, .queued => true
  | .queued, .processing => true
  | .processing, .sent | .processing, .failed | .processing, .queued => true
  | _, _ => false

namespace Engine

open Transition

/-- Every committed change of state is drawn, and every outcome leaves `processing`. -/
structure Conforms (config : Config) (events : List Event) : Prop where
  transitions : ∀ front before event after id stored next,
    Takes (system config) events front before event after →
    before.world.row id = some stored → after.world.row id = some next →
    stored.val.state.terminal = false → next.val.state ≠ stored.val.state →
    stored.val.state.documented next.val.state = true
  outcomes : ∀ front before after index execution persist attemptNumber stored,
    Takes (system config) events front before (.worker index .commit) after →
    before.executions[index]? = some execution →
      execution.phase = .concluded persist attemptNumber →
    before.world.row execution.notificationId = some stored → stored.val.state = .processing

/-- The run commits no delivery outcome. -/
def Undelivered (config : Config) (events : List Event) : Prop :=
  ∀ front before after index,
    ¬ Takes (system config) events front before (.worker index .commit) after

variable {config : Config} {engine before after : Engine} {event : Event}
    {events front back : List Event}
variable {id : Uuid} {stored : StoredNotification}

/-- A row is claimed only after a delivery has scheduled its retry. -/
theorem processing_attempted (run : Run (system config) Any events engine)
    (found : engine.world.row id = some stored) (state : stored.val.state = .processing) :
    (engine.world.lifecycle id).attempts ≠ [] := by
  obtain ⟨shape, fits⟩ := (run_lifecycle run id).shaped stored found
  have attempted : 1 ≤ stored.val.attemptCount := by
    cases shape with
    | processing =>
      obtain ⟨_, _, attempted, _⟩ := fits
      exact attempted
    | _ => simp [Shape.Fits, state] at fits
  obtain ⟨_, _, numbered⟩ := (run_lifecycle run id).ledger
  have counted := congrArg List.length (numbered stored found)
  rw [List.length_map, List.length_range'] at counted
  intro empty
  rw [empty, List.length_nil] at counted
  omega

/-- What the commit of an outcome finds. -/
theorem Moves.commits {index : Nat} (moves : Moves config before (.worker index .commit) after)
    (sound : Sound config before) : ∃ execution persist attemptNumber stored,
      before.executions[index]? = some execution ∧
        execution.phase = .concluded persist attemptNumber ∧
      before.world.row execution.notificationId = some stored := by
  cases moves with
  | @worker _ execution _ _ _ found moves =>
    cases moves with
    | commit current =>
      obtain ⟨stored, _, _, _, _, holds, _⟩ := (sound.worker found).concluded _ _ current
      exact ⟨execution, _, _, stored, found, current, holds.row⟩

/-- No attempt is on record in a run that conforms: the first one would leave `processing`. -/
theorem Conforms.unattempted (conforms : Conforms config events)
    (run : Run (system config) Any front engine)
    (split : events = front ++ back) (id : Uuid) : (engine.world.lifecycle id).attempts = [] := by
  induction run generalizing back id with
  | start => rfl
  | @step front before event after earlier permitted taken ih =>
    have split' : events = front ++ event :: back := by simpa using split
    have sound := run_sound earlier
    have moves : Moves config before event after := step_moves taken
    have unworked : ∀ index, event ≠ .worker index .commit := by
      rintro index rfl
      obtain ⟨execution, persist, attemptNumber, stored, found, current, present⟩ :=
        moves.commits sound
      have state := conforms.outcomes front before after index execution persist attemptNumber
        stored
        ⟨⟨back, split'⟩, earlier, taken⟩ found current present
      exact processing_attempted earlier present state (ih split' execution.notificationId)
    rw [moves.ledger_kept sound unworked id]
    exact ih split' id

/-- The lifecycle is followed exactly as long as nothing is delivered. -/
theorem conforms_iff (config : Config) (events : List Event) :
    Conforms config events ↔ Undelivered config events := by
  constructor
  · intro conforms front before after index takes
    obtain ⟨back, split⟩ := takes.split
    have moves : Moves config before (.worker index .commit) after := step_moves takes.taken
    obtain ⟨execution, persist, attemptNumber, stored, found, current, present⟩ :=
      moves.commits (run_sound takes.reached)
    have state := conforms.outcomes front before after index execution persist attemptNumber stored
      takes found current present
    exact processing_attempted takes.reached present state
      (conforms.unattempted takes.reached split execution.notificationId)
  · intro undelivered
    constructor
    · intro front before event after id stored next takes found present open' changed
      have moves : Moves config before event after := step_moves takes.taken
      rcases moves.row_change (run_sound takes.reached) id with same | ⟨_, _, base, rows, published⟩
      · rw [found, present] at same
        exact absurd (congrArg (fun row => row.val.state) (Option.some.inj same)) changed
      · rw [found] at base
        rw [present] at rows
        cases published with
        | create => cases base
        | queue requested current names waiting written =>
          cases base
          cases rows
          have fresh : stored.val.state = .created := by simpa [awaitsQueueing] using waiting
          simp [written, markQueued, fresh, NotificationState.documented]
        | deliver => exact absurd takes (undelivered front before after _)
        | claim requested member due written =>
          cases base
          cases rows
          have queued := (retryable_iff.mp due).1
          simp [written, claimRetry, queued, NotificationState.documented]
    · intro front before after index execution persist attemptNumber stored takes
      exact absurd takes (undelivered front before after index)

/-- The first delivery takes its row from `queued` to `sent`. -/
theorem first_delivery_skips_processing : ∃ engine,
    Run (system sampleConfig) Any (deliversOnce .success) engine ∧
      ¬ Conforms sampleConfig (deliversOnce .success) := by
  obtain ⟨queued, reached, waiting⟩ := Run.exists_of_execute (system sampleConfig) Any
    (deliversOnce .success).dropLast
    (fun engine => (engine.world.row 7).any fun stored => stored.val.state = .queued)
    (by decide +kernel)
  obtain ⟨sent, crashFree, _, delivered, _⟩ := deliversOnce_succeeds
  have run := crashFree.any
  refine ⟨sent, run, ?_⟩
  intro conforms
  obtain ⟨before, after, takes⟩ := run.takes
    (show deliversOnce .success = (deliversOnce .success).dropLast ++ .worker 0 .commit :: []
      from rfl)
  obtain rfl := takes.reached.unique reached
  obtain rfl := takes.run.unique run
  obtain ⟨stored, found, first⟩ := (Option.any_eq_true _ _).mp waiting
  obtain ⟨next, present, last⟩ := Option.map_eq_some_iff.mp delivered
  simp only [decide_eq_true_eq] at first
  have drawn := conforms.transitions _ before _ after 7 stored next takes found present
    (by simp [first, NotificationState.terminal]) (by simp [first, last])
  simp [first, last, NotificationState.documented] at drawn

end Engine

end Relays
