import Relays.Engine.Refinement

/-! When a terminal state is final. The eligibility check reads a snapshot and the
writing statements carry no state guard, so a failed row can be written again. -/

namespace Relays.Engine

open Transition

/-- Once a committed state is `sent` or `failed`, no later commit of the run changes it. -/
def Absorbing (config : Config) (events : List Event) : Prop :=
  ∀ front middle back earlier later id stored, events = front ++ middle ++ back →
    Run (system config) Any front earlier → Run (system config) Any (front ++ middle) later →
    earlier.world.row id = some stored → stored.val.state.terminal = true →
    ∃ next, later.world.row id = some next ∧ next.val.state = stored.val.state

/-- The result marks the row failed: a permanent failure, or a temporary
one that uses the last attempt. -/
def MarksFailed (persist : Delivery.Persist) (stored : StoredNotification) : Prop :=
  persist.result.status = .permanentFailure ∨
    persist.result.status = .temporaryFailure ∧ stored.val.maxAttempts ≤ stored.val.attemptCount + 1

/-- No transaction of `persist_delivery_result` commits over a failed row, unless it
marks the row failed again. -/
def SparesFailed (engine : Engine) (event : Event) : Prop :=
  ∀ index execution persist attemptNumber stored, event = .worker index .commit →
    engine.executions[index]? = some execution →
      execution.phase = .concluded persist attemptNumber →
    engine.world.row execution.notificationId = some stored → stored.val.state = .failed →
    MarksFailed persist stored

variable {config : Config} {engine before after : Engine} {event : Event}
    {events front back : List Event}
variable {id : Uuid} {stored next : StoredNotification} {persist : Delivery.Persist}

theorem delivered_failed_iff
    (persisted : Delivery.persistDeliveryResult persist id workerNow delay stored =
      some (next, attempt))
    (known : persist.notification.identity = stored.val.identity) :
    next.val.state = .failed ↔ MarksFailed persist stored := by
  have bound := Notification.maxAttempts_eq known
  rcases Lifecycle.delivered_state persisted with
    ⟨success, sent, _⟩ | ⟨_, failure, marked, _⟩ | ⟨_, failure, room, queued, _⟩
  · simp [MarksFailed, sent, success]
  · rw [bound] at failure
    simp only [marked, true_iff]
    exact failure
  · rw [bound] at room
    simp only [queued, MarksFailed, failure, reduceCtorEq, false_or, true_and, false_iff,
      Nat.not_le]
    exact room

/-- A step that spares failed rows keeps every terminal state. -/
theorem Moves.keeps_terminal (moves : Moves config before event after) (sound : Sound config before)
    (spares : SparesFailed before event) (found : before.world.row id = some stored)
    (terminal : stored.val.state.terminal = true) :
    ∃ next, after.world.row id = some next ∧ next.val.state = stored.val.state := by
  rcases moves.row_change sound id with same | ⟨_, _, base, rows, published⟩
  · exact ⟨stored, same.trans found, rfl⟩
  · rw [found] at base
    cases published with
    | create => cases base
    | queue requested current names waiting written =>
      cases base
      have fresh : stored.val.state = .created := by simpa [awaitsQueueing] using waiting
      simp [fresh, NotificationState.terminal] at terminal
    | deliver requested current names known persisted =>
      cases base
      refine ⟨_, rows, ?_⟩
      cases state : stored.val.state with
      | sent => exact (Lifecycle.delivered_sent_iff persisted).mpr (.inl state)
      | failed =>
        have again := spares _ _ _ _ stored rfl requested current (by rw [names]; exact found) state
        exact (delivered_failed_iff persisted known).mpr again
      | created | queued | processing => simp [state, NotificationState.terminal] at terminal
    | claim requested member due written =>
      cases base
      have queued := (retryable_iff.mp due).1
      simp [queued, NotificationState.terminal] at terminal

/-- A commit over a failed row that does not mark it failed again changes its state. -/
theorem Moves.revives_failed (moves : Moves config before event after) (sound : Sound config before)
    (revives : ¬ SparesFailed before event) :
    ∃ id stored next, before.world.row id = some stored ∧ stored.val.state = .failed ∧
      after.world.row id = some next ∧ next.val.state ≠ .failed := by
  unfold SparesFailed at revives
  push Not at revives
  obtain ⟨index, execution, persist, attemptNumber, stored, rfl, requested, current, found, failed,
      survives⟩ :=
    revives
  cases moves with
  | @worker _ execution _ world phase entry moves =>
    obtain rfl := Option.some.inj (entry.symm.trans requested)
    obtain ⟨row, version, attempt, workerNow, delay, holds, persisted, _⟩ :=
      (sound.worker entry).concluded persist attemptNumber current
    obtain ⟨base, present, known⟩ := (sound.worker entry).snapshot persist.notification
      (by simp [current, Delivery.Phase.snapshot])
    obtain rfl := Option.some.inj (holds.row.symm.trans found)
    obtain rfl := Option.some.inj (holds.row.symm.trans present)
    cases moves with
    | commit _ =>
      refine ⟨_, row, version, holds.row, failed, World.commit_row_of_pending holds.pending, ?_⟩
      intro still
      exact survives ((delivered_failed_iff persisted known).mp still)

/-- Terminal states are final exactly in the runs that commit nothing but a further
failure over a failed row. -/
theorem absorbing_iff (run : Run (system config) Any events engine) :
    Absorbing config events ↔ ∀ front event back before, events = front ++ event :: back →
      Run (system config) Any front before → SparesFailed before event := by
  constructor
  · intro absorbing front event back before split reached
    by_contra revives
    obtain ⟨_, after, again, _, taken⟩ := run.taken_at split
    obtain rfl := again.unique reached
    obtain ⟨id, stored, next, found, failed, written, changed⟩ :=
      (step_moves taken).revives_failed (run_sound reached) revives
    obtain ⟨later, present, same⟩ :=
      absorbing front [event] back _ after id stored (by simp [split])
      reached (reached.step trivial taken) found (by simp [failed, NotificationState.terminal])
    obtain rfl := Option.some.inj (written.symm.trans present)
    exact changed (same.trans failed)
  · intro spares front middle back earlier later id stored split reached extended found terminal
    have restricted : Run (system config) (fun before event => Any before event ∧
      SparesFailed before event)
        (front ++ middle) later := by
      apply extended.restrict
      intro first event rest before inner prefixRun
      exact spares first event (rest ++ back) before (by rw [split, inner]; simp) prefixRun
    have kept : ∃ next, later.world.row id = some next ∧ next.val.state = stored.val.state := by
      apply restricted.keeps rfl reached
      · exact ⟨stored, found, rfl⟩
      · intro _ before event after prefixRun held permitted taken
        obtain ⟨current, present, same⟩ := held
        obtain ⟨next, written, still⟩ :=
          (step_moves taken).keeps_terminal (run_sound prefixRun) permitted.2 present
          (by rw [same]; exact terminal)
        exact ⟨next, written, still.trans same⟩
    exact kept

/-- The results of two overlapping executions, persisted in their order. -/
def overlaps (first second : DeliveryStatus) : List Event :=
  loadsTwice first second ++ persists 0 ++ persists 1

private def stateOf (engine : Engine) : Option NotificationState :=
  (engine.world.row 7).map fun stored => stored.val.state

theorem absorbing_iff_failures : ∃ engine,
    Run (system sampleConfig) Any (overlaps .permanentFailure .permanentFailure) engine ∧
    (Absorbing sampleConfig (overlaps .permanentFailure .permanentFailure) ↔
      ∀ front event back before, overlaps .permanentFailure .permanentFailure =
        front ++ event :: back →
        Run (system sampleConfig) Any front before → SparesFailed before event) := by
  obtain ⟨engine, run, _⟩ := Run.exists_of_execute (system sampleConfig) Any
    (overlaps .permanentFailure .permanentFailure) (fun engine => stateOf engine = some .failed)
      (by decide +kernel)
  exact ⟨engine, run, absorbing_iff run⟩

/-- A success persisted after a permanent failure takes the row from `failed` to `sent`. -/
theorem failed_not_absorbing : ∃ engine,
    Run (system sampleConfig) Any (overlaps .permanentFailure .success) engine ∧
    ¬ Absorbing sampleConfig (overlaps .permanentFailure .success) := by
  have whole : overlaps .permanentFailure .success =
      (loadsTwice .permanentFailure .success ++ persists 0) ++ persists 1 := rfl
  obtain ⟨later, run, sent⟩ := Run.exists_of_execute (system sampleConfig) Any
    (overlaps .permanentFailure .success) (fun engine => stateOf engine = some .sent)
    (by decide +kernel)
  obtain ⟨earlier, reached, failed⟩ := Run.exists_of_execute (system sampleConfig) Any
    (loadsTwice .permanentFailure .success ++ persists 0) (fun engine => stateOf engine =
      some .failed) (by decide +kernel)
  refine ⟨later, run, ?_⟩
  intro absorbing
  simp only [stateOf, decide_eq_true_eq, Option.map_eq_some_iff] at sent failed
  obtain ⟨stored, found, state⟩ := failed
  obtain ⟨final, present, moved⟩ := sent
  obtain ⟨next, again, same⟩ :=
    absorbing _ (persists 1) [] earlier later 7 stored (by simp [whole]) reached
    (whole ▸ run) found (by simp [state, NotificationState.terminal])
  obtain rfl := Option.some.inj (present.symm.trans again)
  simp [state, moved] at same

end Relays.Engine
