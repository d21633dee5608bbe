import Relays.Engine.DeliveryInvariant
import Relays.Engine.SubmissionInvariant
import Relays.Engine.RetrySchedulerInvariant

/-! What a step shows to the other participants: a commit, a message, a call or an
answer of the provider, and otherwise nothing. -/

namespace Relays

open ReadCommitted

namespace World

/-- The committed tables, the queues and the logs are as they were. -/
structure Silent (before after : World) : Prop where
  rows : ∀ id, after.row id = before.row id
  attempts : after.attempts.committed = before.attempts.committed
  records : ∀ key, (after.idempotency key).committed = (before.idempotency key).committed
  queues : after.queues = before.queues
  published : after.published = before.published
  calls : after.calls = before.calls
  results : after.results = before.results

variable {world after : World} {tx : Party} {id : Uuid} {updated : Option StoredNotification}
variable {matching : Notification → Bool} {change : Notification → Notification}

theorem Silent.refl (world : World) : world.Silent world :=
  ⟨fun _ => rfl, rfl, fun _ => rfl, rfl, rfl, rfl, rfl⟩

theorem Silent.rollback (world : World) (tx : Party) : world.Silent (world.rollback tx) :=
  ⟨rollback_row world tx, rfl, fun _ => Table.rollback_committed _, rfl, rfl, rfl, rfl⟩

/-- An uncommitted version of a row. -/
theorem Silent.write (world : World) (tx : Party) (id : Uuid) (version : Option StoredNotification)
    (ids : List Uuid) : world.Silent
      { world with
        notifications := world.notifications.write id tx version
        notificationIds := ids } :=
  ⟨fun _ => Table.write_committed _ _ _, rfl, fun _ => rfl, rfl, rfl, rfl, rfl⟩

/-- An uncommitted version of an idempotency record. -/
theorem Silent.reserve (world : World) (tx : Party) (key : IdempotencyKey)
    (version : Option IdempotencyRecord)
    (sequence : Nat) : world.Silent
      { world with
        idempotency := world.idempotency.write key tx version
        idempotencySequence := sequence } :=
  ⟨fun _ => rfl, rfl, fun _ => Table.write_committed _ _ _, rfl, rfl, rfl, rfl⟩

theorem Silent.updateNotification
    (done : world.updateNotification tx id matching change = .returns (after, updated)) :
      world.Silent after := by
  cases updated with
  | none =>
    obtain ⟨rfl, _⟩ := updateNotification_returns_none done
    exact .refl _
  | some stored =>
    obtain ⟨_, _, _, _, _, rfl⟩ := updateNotification_returns done
    exact .write world tx id (some stored) world.notificationIds

theorem Silent.insertAttempt {attempt : DeliveryAttempt}
    (done : world.insertAttempt tx attempt = .returns after) :
    world.Silent after := by
  obtain ⟨rfl, _⟩ := insertAttempt_returns done
  exact ⟨fun _ => rfl, rfl, fun _ => rfl, rfl, rfl, rfl, rfl⟩

end World

namespace Delivery

variable {config : Config} {index : Nat} {world next : World} {execution : Execution}
variable {event : Event} {phase : Phase}

/-- A worker shows its call, the answer to it and its commit. -/
theorem Moves.effect (moves : Moves config index world execution event next phase) :
    (world.Silent next ∧ event ≠ .send ∧ (∀ result, event ≠ .answer result) ∧ event ≠ .commit) ∨
      (∃ notification payload, event = .send ∧ execution.phase = .loaded notification payload ∧
        next = { world with calls := world.calls ++ [⟨index, execution.notificationId, payload⟩] } ∧
        phase = .sending notification) ∨
      (∃ notification result, event = .answer result ∧ execution.phase = .sending notification ∧
        next = { world with
          results := world.results ++ [⟨index, execution.notificationId, result.status⟩] } ∧
        phase = .answered notification result) ∨
      ∃ persist attemptNumber, event = .commit ∧
        execution.phase = .concluded persist attemptNumber ∧
        next = world.commit (.worker index) ∧ phase = .ended .delivered := by
  cases moves with
  | load | providerRaises | openTransaction => exact .inl ⟨.refl world, by simp⟩
  | send current => exact .inr (.inl ⟨_, _, rfl, current, rfl, rfl⟩)
  | answer current => exact .inr (.inr (.inl ⟨_, _, rfl, current, rfl, rfl⟩))
  | increment current done => exact .inl ⟨.updateNotification done, by simp⟩
  | record current done => exact .inl ⟨.insertAttempt done, by simp⟩
  | conclude current drawn chosen done => exact .inl ⟨.updateNotification done, by simp⟩
  | incrementRejected | incrementMissing | recordRejected | concludeRejected | concludeRaises
  | interrupt =>
    exact .inl ⟨.rollback world _, by simp⟩
  | commit current => exact .inr (.inr (.inr ⟨_, _, rfl, current, rfl, rfl⟩))

/-- No worker publishes a message. -/
theorem Moves.traffic (moves : Moves config index world execution event next phase) :
    next.queues = world.queues ∧ next.published = world.published := by
  rcases moves.effect with ⟨silent, _⟩ | ⟨_, _, _, _, rfl, _⟩ | ⟨_, _, _, _, rfl, _⟩
    | ⟨_, _, _, _, rfl, _⟩
  · exact ⟨silent.queues, silent.published⟩
  · exact ⟨rfl, rfl⟩
  · exact ⟨rfl, rfl⟩
  · exact ⟨rfl, rfl⟩

end Delivery

namespace Submission

variable {config : Config} {index : Nat} {world next : World} {request : Request}
variable {event : Event} {phase : Phase}

theorem leave_silent {tx : Party} {last : Phase} (read : leave world tx phase = (next, last)) :
    world.Silent next ∧ last = phase := by
  unfold leave at read
  split at read <;> cases read
  · exact ⟨.rollback world tx, rfl⟩
  · exact ⟨.refl world, rfl⟩

/-- A request shows its commit, its message and the update of its `mark_queued`. -/
theorem Moves.effect (moves : Moves config index world request event next phase) :
    (world.Silent next ∧ event ≠ .commit ∧ event ≠ .enqueue false) ∨
      (event = .commit ∧ next = world.commit (.request index) ∧
        ((∃ notification, request.phase = .completed notification ∧
          phase = .accepted notification) ∨
          ∃ notification, request.phase = .replayed notification ∧
            phase = .answered false notification)) ∨
      (∃ notification, event = .enqueue false ∧ request.phase = .accepted notification ∧
        next = world.enqueue notification.id notification.channel ∧
          phase = .enqueued notification) ∨
      ∃ notification middle updated, event = .markQueued false ∧
        request.phase = .enqueued notification ∧
        world.updateNotification (.request index) notification.id awaitsQueueing
          (Relays.markQueued world.clock) = .returns (middle, updated) ∧
        next = middle.commit (.request index) ∧ phase = .answered true notification := by
  cases moves with
  | insertIdemKeys current done =>
    obtain ⟨_, _, _, rfl⟩ := Table.insertOnConflict_returns done
    exact .inl ⟨.reserve _ _ _ _ _, by simp⟩
  | conflict | enqueueRaises | markQueuedRaises =>
    exact .inl ⟨⟨fun _ => rfl, rfl, fun _ => rfl, rfl, rfl, rfl, rfl⟩, by simp⟩
  | createNotification => exact .inl ⟨.write _ _ _ _ _, by simp⟩
  | @completeIdempotency _ _ _ updated current done =>
    cases updated with
    | none =>
      obtain ⟨rfl, _⟩ := Table.update_returns_none done
      exact .inl ⟨.refl world, by simp⟩
    | some record =>
      obtain ⟨_, _, _, _, _, rfl⟩ := Table.update_returns done
      exact .inl ⟨.reserve world _ _ _ world.idempotencySequence, by simp⟩
  | commitNew current => exact .inr (.inl ⟨rfl, rfl, .inl ⟨_, current, rfl⟩⟩)
  | commitReplay current => exact .inr (.inl ⟨rfl, rfl, .inr ⟨_, current, rfl⟩⟩)
  | getIdemKeys current read
  | getNotification current read => exact .inl ⟨(leave_silent read).1, by simp⟩
  | enqueue current => exact .inr (.inr (.inl ⟨_, rfl, current, rfl, rfl⟩))
  | markQueued current done => exact .inr (.inr (.inr ⟨_, _, _, rfl, current, done, rfl, rfl⟩))
  | createRejected | abort => exact .inl ⟨.rollback world _, by simp⟩

/-- No request calls the provider. -/
theorem Moves.logs (moves : Moves config index world request event next phase) :
    next.results = world.results ∧ next.calls = world.calls := by
  rcases moves.effect with ⟨silent, _⟩ | ⟨_, rfl, _⟩ | ⟨_, _, _, rfl, _⟩
    | ⟨_, _, _, _, _, done, rfl, _⟩
  · exact ⟨silent.results, silent.calls⟩
  · exact ⟨rfl, rfl⟩
  · exact ⟨rfl, rfl⟩
  · have silent := World.Silent.updateNotification done
    exact ⟨silent.results, silent.calls⟩

/-- A request publishes one message, by its enqueue. -/
theorem Moves.traffic (moves : Moves config index world request event next phase) :
    (next.queues = world.queues ∧ next.published = world.published ∧ event ≠ .enqueue false) ∨
      ∃ notification, request.phase = .accepted notification ∧ event = .enqueue false ∧
        next = world.enqueue notification.id notification.channel ∧
          phase = .enqueued notification := by
  rcases moves.effect with ⟨silent, _, quiet⟩ | ⟨rfl, rfl, _⟩
    | ⟨notification, rfl, current, rfl, rfl⟩ |
    ⟨_, _, _, rfl, _, done, rfl, _⟩
  · exact .inl ⟨silent.queues, silent.published, quiet⟩
  · exact .inl ⟨rfl, rfl, by simp⟩
  · exact .inr ⟨notification, current, rfl, rfl, rfl⟩
  · have silent := World.Silent.updateNotification done
    exact .inl ⟨silent.queues, silent.published, by simp⟩

end Submission

namespace RetryScheduler

variable {index : Nat} {world next : World} {phase last : Phase} {event : Event}

/-- A scheduler shows its commit and its messages. -/
theorem Moves.effect (moves : Moves index world phase event next last) :
    (world.Silent next ∧ event ≠ .commit ∧ (∀ position, event ≠ .enqueue position false)) ∨
      (∃ now room candidates claimed, event = .commit ∧
        phase = .claiming now room candidates claimed ∧
        next = world.commit (.scheduler index) ∧ last = afterEnqueue claimed claimed.length) ∨
      ∃ waiting total position notification, event = .enqueue position false ∧
        phase = .enqueueing waiting total ∧ waiting[position]? = some notification ∧
        next = world.enqueue notification.id notification.channel ∧
        last = afterEnqueue (waiting.eraseIdx position) total := by
  cases moves with
  | skipLocked | skipChanged | enqueueRaises => exact .inl ⟨.refl world, by simp⟩
  | lock done => exact .inl ⟨.updateNotification done, by simp⟩
  | commit => exact .inr (.inl ⟨_, _, _, _, rfl, rfl, rfl, rfl⟩)
  | enqueue chosen => exact .inr (.inr ⟨_, _, _, _, rfl, rfl, chosen, rfl, rfl⟩)
  | abort => exact .inl ⟨.rollback world _, by simp⟩

/-- No scheduler calls the provider. -/
theorem Moves.logs (moves : Moves index world phase event next last) :
    next.results = world.results ∧ next.calls = world.calls := by
  rcases moves.effect with ⟨silent, _⟩ | ⟨_, _, _, _, _, _, rfl, _⟩ | ⟨_, _, _, _, _, _, _, rfl, _⟩
  · exact ⟨silent.results, silent.calls⟩
  · exact ⟨rfl, rfl⟩
  · exact ⟨rfl, rfl⟩

/-- A scheduler publishes what its claim has returned, one message at a time. -/
theorem Moves.traffic (moves : Moves index world phase event next last) :
    (next.queues = world.queues ∧ next.published = world.published ∧
      (∀ position, event ≠ .enqueue position false) ∧
      (last.handover = phase.handover ∨ ∃ now room candidates claimed,
        phase = .claiming now room candidates claimed ∧ event = .commit ∧
          last.handover = claimed)) ∨
      ∃ position notification, event = .enqueue position false ∧
        phase.handover[position]? = some notification ∧
        next = world.enqueue notification.id notification.channel ∧
        last.handover = phase.handover.eraseIdx position := by
  cases moves with
  | skipLocked | skipChanged => exact .inl ⟨rfl, rfl, by simp, .inl rfl⟩
  | lock done =>
    obtain ⟨_, _, _, _, _, rfl⟩ := World.updateNotification_returns done
    exact .inl ⟨rfl, rfl, by simp, .inl rfl⟩
  | commit through =>
    exact .inl ⟨rfl, rfl, by simp, .inr ⟨_, _, _, _, rfl, rfl, handover_afterEnqueue _ _⟩⟩
  | enqueue chosen => exact .inr ⟨_, _, rfl, chosen, rfl, handover_afterEnqueue _ _⟩
  | enqueueRaises chosen => exact .inl ⟨rfl, rfl, by simp, .inl rfl⟩
  | abort => exact .inl ⟨rfl, rfl, by simp, .inl rfl⟩

end RetryScheduler

end Relays
