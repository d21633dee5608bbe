import Relays.Engine.Effects
import Relays.Engine.Invariant
import Relays.Engine.Lifecycle

/-! The engine refines the life of each notification: a step of any participant
leaves the committed row and ledger alone or takes one step of `Lifecycle`. -/

namespace Relays

open ReadCommitted Transition

namespace World

def lifecycle (world : World) (id : Uuid) : Lifecycle where
  row := world.row id
  attempts := world.attempts.committed.filter (fun attempt => attempt.notificationId = id)

variable {world after : World} {tx : Party} {id : Uuid} {stored : StoredNotification}

theorem Silent.lifecycle (silent : world.Silent after) (id : Uuid) :
    after.lifecycle id = world.lifecycle id := by
  simp [World.lifecycle, silent.rows id, silent.attempts]

theorem lifecycle_rollback (world : World) (tx : Party) (id : Uuid) :
    (world.rollback tx).lifecycle id = world.lifecycle id :=
  (Silent.rollback world tx).lifecycle id

theorem lifecycle_update (world : World) (tx : Party) (other : Uuid)
    (version : Option StoredNotification) :
    lifecycle { world with notifications := world.notifications.write other tx version } id =
      world.lifecycle id :=
  (Silent.write world tx other version world.notificationIds).lifecycle id

/-- A commit publishes the attempts of the transaction. -/
theorem lifecycle_commit (world : World) (tx : Party) (id : Uuid) : (world.commit tx).lifecycle id =
    ⟨(world.commit tx).row id, (world.lifecycle id).attempts ++
      (world.attempts.own tx).filter (fun attempt => attempt.notificationId = id)⟩ := by
  simp [lifecycle, World.commit, Heap.commit, List.filter_append]

theorem lifecycle_commit_of_unowned (rows : ¬ world.notifications.Owns tx id)
    (attempts : (world.attempts.own tx).filter (fun attempt => attempt.notificationId = id) = []) :
    (world.commit tx).lifecycle id = world.lifecycle id := by
  rw [lifecycle_commit, commit_row_of_unowned rows, attempts, List.append_nil]
  rfl

end World

/-- The commit of a worker publishes one row and one attempt, both of its notification. -/
theorem Delivery.Valid.commit {index : Nat} {world : World} {execution : Delivery.Execution}
    {persist : Delivery.Persist} {attemptNumber : Nat}
    (valid : Delivery.Valid index world execution)
    (current : execution.phase = .concluded persist attemptNumber) :
    ∃ stored version attempt workerNow delay, world.row execution.notificationId = some stored ∧
      persist.notification.identity = stored.val.identity ∧
      Delivery.persistDeliveryResult persist execution.notificationId workerNow delay stored =
        some (version, attempt) ∧
      (world.commit (.worker index)).lifecycle execution.notificationId =
        ⟨some version, (world.lifecycle execution.notificationId).attempts ++ [attempt]⟩ ∧
      ∀ other, other ≠ execution.notificationId →
        (world.commit (.worker index)).lifecycle other = world.lifecycle other := by
  obtain ⟨stored, version, attempt, workerNow, delay, holds, persisted, own⟩ :=
    valid.concluded persist attemptNumber current
  obtain ⟨base, present, known⟩ :=
    valid.snapshot persist.notification (by simp [current, Delivery.Phase.snapshot])
  obtain rfl := Option.some.inj (holds.row.symm.trans present)
  obtain ⟨_, _, _, recorded⟩ := Lifecycle.delivered_counts persisted
  have named : attempt.notificationId = execution.notificationId := by rw [recorded]; rfl
  refine ⟨stored, version, attempt, workerNow, delay, holds.row, known, persisted, ?_, ?_⟩
  · rw [World.lifecycle_commit, World.commit_row_of_pending holds.pending, own]
    simp [named]
  · intro other different
    apply World.lifecycle_commit_of_unowned
    · intro owned
      exact different (holds.sole other owned)
    · simp [own, named, Ne.symm different]

namespace Engine

/-- The steps that change the committed state of a notification, each with the
process that takes it. -/
inductive Publishes (engine : Engine) (id : Uuid) : Event → Lifecycle → Lifecycle → Prop where
  | create {request : Submission.Request} {stored : StoredNotification}
      (found : engine.requests[index]? = some request)
      (current : request.phase = .completed stored.val)
      (written : stored.val = Submission.newNotification request.arguments now id) :
      Publishes engine id (.request index .commit) ⟨none, history⟩ ⟨some stored, history⟩
  | queue {request : Submission.Request} {stored updated : StoredNotification}
      (found : engine.requests[index]? = some request)
      (current : request.phase = .enqueued notification) (names : notification.id = id)
      (waiting : awaitsQueueing stored.val = true)
      (written : updated.val = markQueued engine.world.clock stored.val) :
      Publishes engine id (.request index (.markQueued false)) ⟨some stored, history⟩ ⟨some updated,
        history⟩
  | deliver {execution : Delivery.Execution} {stored updated : StoredNotification}
      (found : engine.executions[index]? = some execution)
      (current : execution.phase = .concluded persist attemptNumber)
        (names : execution.notificationId = id)
      (known : persist.notification.identity = stored.val.identity)
      (persisted : Delivery.persistDeliveryResult persist id workerNow delay stored =
        some (updated, attempt)) :
      Publishes engine id (.worker index .commit) ⟨some stored, history⟩ ⟨some updated,
        history ++ [attempt]⟩
  | claim {stored updated : StoredNotification}
      (found : engine.schedulers[index]? = some (.claiming now room candidates claimed))
      (member : updated.val ∈ claimed) (due : retryable now stored.val = true)
      (written : updated.val = claimRetry now stored.val) :
      Publishes engine id (.scheduler index .commit) ⟨some stored, history⟩ ⟨some updated, history⟩

variable {config : Config} {engine after : Engine} {event : Event} {id : Uuid}
variable {before next : Lifecycle} {allowed : Engine → Event → Prop}
    {events front back : List Event}

theorem Publishes.step (publishes : Publishes engine id event before next) :
    Lifecycle.Step id before next := by
  cases publishes with
  | create found current written => exact .create written
  | queue found current names waiting written => exact .queue waiting written
  | deliver found current names known persisted =>
    exact .deliver (Notification.maxAttempts_eq known) persisted
  | claim found member due written => exact .claim due written

private theorem submission_publishes {request : Submission.Request} {index : Nat}
    {event : Submission.Event}
    {world : World} {phase : Submission.Phase} (sound : Sound config engine)
    (found : engine.requests[index]? = some request)
    (moves : Submission.Moves config index engine.world request event world phase) (id : Uuid) :
    world.lifecycle id = engine.world.lifecycle id ∨
      Publishes engine id (.request index event) (engine.world.lifecycle id)
        (world.lifecycle id) := by
  have valid := sound.request found
  rcases moves.effect with ⟨silent, _⟩
    | ⟨rfl, rfl, ⟨notification, current, _⟩ | ⟨notification, current, _⟩⟩ |
    ⟨_, _, _, rfl, _⟩ | ⟨notification, _, updated, rfl, current, done, rfl, _⟩
  · exact .inl (silent.lifecycle id)
  · obtain ⟨_, drafts⟩ := valid.completed notification current
    obtain ⟨stored, same, held⟩ := drafts.pending
    obtain ⟨now, made⟩ := drafts.made
    by_cases own : notification.id = id
    · subst own
      right
      rw [World.lifecycle_commit, World.commit_row_of_pending held, valid.attempts, List.filter_nil,
        List.append_nil]
      have absent : engine.world.lifecycle notification.id =
          ⟨none, (engine.world.lifecycle notification.id).attempts⟩ := by
        simp [World.lifecycle, drafts.absent]
      rw [absent]
      exact .create found (by rw [same]; exact current) (same.trans made)
    · left
      refine World.lifecycle_commit_of_unowned ?_ (by simp [valid.attempts])
      intro owned
      exact own (drafts.sole id owned).symm
  · have idle := valid.idle (by simp [current, Submission.Phase.writing])
    exact .inl (World.lifecycle_commit_of_unowned (idle.notifications id) (by simp [idle.attempts]))
  · exact .inl rfl
  · have idle := valid.idle (by simp [current, Submission.Phase.writing])
    cases updated with
    | none =>
      obtain ⟨rfl, _⟩ := World.updateNotification_returns_none done
      exact .inl (World.lifecycle_commit_of_unowned (idle.notifications id)
        (by simp [idle.attempts]))
    | some updated =>
      obtain ⟨stored, _, seen, waiting, written, rfl⟩ := World.updateNotification_returns done
      rw [World.view_of_idle idle.notifications] at seen
      have holds := World.Holds.of_write updated seen
        (fun other owned => absurd owned (idle.notifications other))
      by_cases own : notification.id = id
      · subst own
        right
        rw [World.lifecycle_commit, World.commit_row_of_pending holds.pending,
          World.lifecycle_update]
        simp only [idle.attempts, List.filter_nil, List.append_nil]
        have present : engine.world.lifecycle notification.id =
            ⟨some stored, (engine.world.lifecycle notification.id).attempts⟩ := by
          simp [World.lifecycle, seen]
        rw [present]
        exact .queue found current rfl waiting written
      · left
        rw [World.lifecycle_commit_of_unowned ?_ (by simp [idle.attempts]), World.lifecycle_update]
        intro owned
        exact own (holds.sole id owned).symm

private theorem delivery_publishes {execution : Delivery.Execution} {index : Nat}
    {event : Delivery.Event}
    {world : World} {phase : Delivery.Phase} (sound : Sound config engine)
    (found : engine.executions[index]? = some execution)
    (moves : Delivery.Moves config index engine.world execution event world phase) (id : Uuid) :
    world.lifecycle id = engine.world.lifecycle id ∨
      Publishes engine id (.worker index event) (engine.world.lifecycle id)
        (world.lifecycle id) := by
  have valid := sound.worker found
  rcases moves.effect with ⟨silent, _⟩ | ⟨_, _, _, _, rfl, _⟩ | ⟨_, _, _, _, rfl, _⟩
    | ⟨_, _, rfl, current, rfl, _⟩
  · exact .inl (silent.lifecycle id)
  · exact .inl rfl
  · exact .inl rfl
  · obtain ⟨stored, version, attempt, workerNow, delay, present, known, persisted, published,
        others⟩ :=
      valid.commit current
    by_cases same : execution.notificationId = id
    · subst same
      right
      have view : engine.world.lifecycle execution.notificationId =
          ⟨some stored, (engine.world.lifecycle execution.notificationId).attempts⟩ := by
        simp [World.lifecycle, present]
      rw [published, view]
      exact .deliver found current rfl known persisted
    · exact .inl (others id (Ne.symm same))

private theorem scheduler_publishes {index : Nat} {event : RetryScheduler.Event} {world : World}
    {phase last : RetryScheduler.Phase} (sound : Sound config engine)
    (found : engine.schedulers[index]? = some phase)
    (moves : RetryScheduler.Moves index engine.world phase event world last) (id : Uuid) :
    world.lifecycle id = engine.world.lifecycle id ∨
      Publishes engine id (.scheduler index event) (engine.world.lifecycle id)
        (world.lifecycle id) := by
  have valid := sound.scheduler found
  rcases moves.effect with ⟨silent, _⟩ | ⟨now, room, candidates, claimed, rfl, rfl, rfl, _⟩ |
    ⟨_, _, _, _, _, _, _, rfl, _⟩
  · exact .inl (silent.lifecycle id)
  · obtain ⟨rows, _, sole⟩ := valid.claiming now room candidates claimed rfl
    by_cases member : id ∈ claimed.map Notification.id
    · obtain ⟨notification, held, rfl⟩ := List.mem_map.mp member
      obtain ⟨stored, version, present, due, pending, written, same⟩ := rows notification held
      right
      rw [World.lifecycle_commit, World.commit_row_of_pending pending, valid.attempts,
        List.filter_nil,
        List.append_nil]
      have view : engine.world.lifecycle notification.id =
          ⟨some stored, (engine.world.lifecycle notification.id).attempts⟩ := by
        simp [World.lifecycle, present]
      rw [view]
      exact .claim found (by rw [same]; exact held) due written
    · left
      exact World.lifecycle_commit_of_unowned (fun owned => member (sole id owned))
        (by simp [valid.attempts])
  · exact .inl rfl

/-- What one step of the engine does to one notification. -/
theorem Moves.publishes (moves : Moves config engine event after) (sound : Sound config engine)
    (id : Uuid) :
    after.world.lifecycle id = engine.world.lifecycle id ∨
      Publishes engine id event (engine.world.lifecycle id) (after.world.lifecycle id) := by
  cases moves with
  | tick | post | consume | redeliver | beat => exact .inl rfl
  | request found moves => exact submission_publishes sound found moves id
  | worker found moves => exact delivery_publishes sound found moves id
  | scheduler found moves => exact scheduler_publishes sound found moves id

/-- The committed row of a notification stays as it is or takes part in a published change. -/
theorem Moves.row_change (moves : Moves config engine event after) (sound : Sound config engine)
    (id : Uuid) :
    after.world.row id = engine.world.row id ∨
      ∃ before next, engine.world.row id = before.row ∧ after.world.row id = next.row ∧
        Publishes engine id event before next := by
  rcases moves.publishes sound id with same | published
  · exact .inl (congrArg Lifecycle.row same)
  · exact .inr ⟨_, _, rfl, rfl, published⟩

/-- Only the commit of a worker adds to a ledger. -/
theorem Moves.ledger_kept (moves : Moves config engine event after) (sound : Sound config engine)
    (unworked : ∀ index, event ≠ .worker index .commit) (id : Uuid) :
    (after.world.lifecycle id).attempts = (engine.world.lifecycle id).attempts := by
  rcases moves.publishes sound id with same | published
  · rw [same]
  · generalize after.world.lifecycle id = final at published
    generalize engine.world.lifecycle id = view at published
    cases published with
    | create | queue | claim => rfl
    | deliver => exact absurd rfl (unworked _)

/-- Every run of the engine is, for each notification, a history of `Lifecycle`. -/
theorem run_lifecycle (run : Run (system config) allowed events engine) (id : Uuid) :
    Lifecycle.Reaches id (engine.world.lifecycle id) := by
  refine run.refines (fun engine => engine.world.lifecycle id) ?_
  intro events before event after earlier permitted taken
  rcases (step_moves taken).publishes (run_sound earlier) id with same | published
  · exact .inl same
  · exact .inr published.step

end Engine

end Relays
