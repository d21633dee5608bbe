import Relays.Engine.Accounting
import Relays.Engine.Queueing

/-! Who carries the next delivery of a notification, and how each participant hands it
on: the request to the queue, the scheduler to the queue, the worker to its row. -/

namespace Relays

open ReadCommitted Transition

namespace Submission

/-- The first enqueue of the notification is pending. -/
def pendingEnqueue (id : Uuid) (request : Request) : Bool :=
  match request.phase with
  | .accepted notification => notification.id = id
  | _ => false

end Submission

namespace RetryScheduler

def Phase.waiting : Phase → List Notification
  | .enqueueing waiting _ => waiting
  | _ => []

/-- The claimed rows of the notification that are still to be enqueued. -/
def pendingEnqueues (id : Uuid) (phase : Phase) : Nat :=
  phase.waiting.countP (fun notification => notification.id = id)

end RetryScheduler

namespace Delivery

def inProgress (id : Uuid) (execution : Execution) : Bool :=
  decide (execution.notificationId = id) && execution.phase.ending.isNone

/-- The execution has called the provider and not ended. -/
def Phase.called : Phase → Bool
  | .sending _ | .answered _ _ | .opened _ | .incremented _ _ | .recorded _ _ | .concluded _ _ =>
      true
  | .received | .loaded _ _ | .ended _ => false

def called (id : Uuid) (execution : Execution) : Bool :=
  decide (execution.notificationId = id) && execution.phase.called

end Delivery

namespace World

/-- The messages of the notification, on all queues. -/
def messages (world : World) (id : Uuid) : Nat :=
  (world.queues .email).count id + (world.queues .sms).count id + (world.queues .webhook).count id

def sends (world : World) (id : Uuid) : Nat :=
    world.calls.countP (fun call => call.notificationId = id)

variable {world : World} {id other : Uuid} {channel : NotificationChannel} {position : Nat}

theorem messages_enqueue : (world.enqueue other channel).messages id =
    world.messages id + if other = id then 1 else 0 := by
  cases channel <;> simp [messages, enqueue, List.count_singleton] <;> omega

theorem messages_consume (waiting : (world.queues channel)[position]? = some other) (id : Uuid) :
    messages { world with
      queues := Function.update world.queues channel ((world.queues channel).eraseIdx position) }
        id +
      (if other = id then 1 else 0) = world.messages id := by
  have taken := Processes.countP_eraseIdx (fun entry => entry == id) waiting
  cases channel <;> simp [messages, List.count] at taken ⊢ <;> omega

end World

/-- A retry of the row is scheduled. -/
def scheduledRetry : Option StoredNotification → Nat
  | some stored => if stored.val.nextRetryAt.isSome then 1 else 0
  | none => 0

/-- A committed row that has not ended needs one carrier. -/
def owed : Option StoredNotification → Nat
  | some stored => if stored.val.state.terminal then 0 else 1
  | none => 0

section Rows

variable {stored next : StoredNotification} {now workerNow : Time} {id : Uuid} {delay : Nat}
variable {arguments : Submission.Arguments} {persist : Delivery.Persist} {attempt : DeliveryAttempt}

theorem created_owes (written : stored.val = Submission.newNotification arguments now id) :
    scheduledRetry (some stored) = 0 ∧ owed (some stored) = 1 := by
  have fresh : stored.val.state = .created := by rw [written]; rfl
  have unscheduled : stored.val.nextRetryAt = none := by rw [written]; rfl
  simp [scheduledRetry, owed, fresh, unscheduled, NotificationState.terminal]

theorem queued_owes (waiting : awaitsQueueing stored.val = true)
    (written : next.val = markQueued now stored.val) :
    scheduledRetry (some next) = scheduledRetry (some stored) ∧
      owed (some next) = owed (some stored) := by
  have fresh : stored.val.state = .created := by simpa [awaitsQueueing] using waiting
  have queued : next.val.state = .queued := by rw [written]; rfl
  have same : next.val.nextRetryAt = stored.val.nextRetryAt := by rw [written]; rfl
  simp [scheduledRetry, owed, fresh, queued, same, NotificationState.terminal]

/-- The claim takes the retry of a row that has not ended. -/
theorem claimed_owes (due : retryable now stored.val = true)
    (written : next.val = claimRetry now stored.val) :
    scheduledRetry (some stored) = 1 ∧ owed (some stored) = 1 ∧ scheduledRetry (some next) = 0 ∧
      owed (some next) = 1 := by
  obtain ⟨queued, time, scheduled, _⟩ := retryable_iff.mp due
  have processing : next.val.state = .processing := by rw [written]; rfl
  have unscheduled : next.val.nextRetryAt = none := by rw [written]; rfl
  simp [scheduledRetry, owed, queued, scheduled, processing, unscheduled,
    NotificationState.terminal]

/-- A delivery ends the row or schedules its retry. -/
theorem delivered_owes
    (persisted : Delivery.persistDeliveryResult persist id workerNow delay stored =
      some (next, attempt)) :
    scheduledRetry (some next) = owed (some next) := by
  rcases Lifecycle.delivered_state persisted with
    ⟨_, sent, unscheduled⟩ | ⟨_, _, failed, unscheduled⟩ | ⟨_, _, _, queued, scheduled⟩
  · simp [scheduledRetry, owed, sent, unscheduled, NotificationState.terminal]
  · simp [scheduledRetry, owed, failed, unscheduled, NotificationState.terminal]
  · simp [scheduledRetry, owed, queued, scheduled, NotificationState.terminal]

end Rows

namespace Submission

variable {config : Config} {index : Nat} {world next : World} {request : Request}
variable {event : Event} {phase : Phase} {id : Uuid}

/-- The row of an email request holds a payload that the worker can read back. -/
theorem newNotification_decodes {arguments : Arguments} {now : Time}
    (email : arguments.request.channel = .email) :
    ∃ payload, EmailPayload.modelValidate (newNotification arguments now id).payload =
      some payload := by
  unfold NotificationRequestBody.channel at email
  split at email
  · rename_i payload written
    refine ⟨payload, ?_⟩
    rw [newNotification, createNotification, written]
    exact payload.modelValidate_modelDump
  · cases email
  · cases email

/-- A request whose enqueue does not raise moves its notification to the queue, and has
it in hand only after its commit. -/
theorem Moves.hands_over (moves : Moves config index world request event next phase)
    (sends : event ≠ .enqueue true) (id : Uuid) :
    (if pendingEnqueue id { request with phase := phase } then 1 else 0) + next.messages id =
        (if pendingEnqueue id request then 1 else 0) + world.messages id ∨
      ∃ notification, request.phase = .completed notification ∧ event = .commit ∧
        notification.id = id ∧
        phase = .accepted notification := by
  have ends := moves.lookup
  have traffic := moves.traffic
  cases moves with
  | @commitNew notification current =>
    by_cases own : notification.id = id
    · exact .inr ⟨notification, current, rfl, own, rfl⟩
    · left
      simp [pendingEnqueue, current, own, World.messages, World.commit]
  | enqueue current =>
    left
    rw [World.messages_enqueue]
    simp [pendingEnqueue, current, Nat.add_comm]
  | enqueueRaises => exact absurd rfl sends
  | getIdemKeys current read =>
    rcases traffic with ⟨queues, _⟩ | ⟨_, _, other, _⟩
    · left
      rcases ends (.inl rfl) with ⟨_, rfl⟩ | ⟨_, rfl⟩ | ⟨_, rfl⟩ <;>
        simp [pendingEnqueue, current, World.messages, queues]
    · cases other
  | getNotification current read =>
    rcases traffic with ⟨queues, _⟩ | ⟨_, _, other, _⟩
    · left
      rcases ends (.inr rfl) with ⟨_, rfl⟩ | ⟨_, rfl⟩ | ⟨_, rfl⟩ <;>
        simp [pendingEnqueue, current, World.messages, queues]
    · cases other
  | createRejected current =>
    left
    simp [pendingEnqueue, current, World.messages, World.rollback]
  | insertIdemKeys current | conflict current | createNotification current
  | completeIdempotency current | commitReplay current | markQueued current
  | markQueuedRaises current =>
    rcases traffic with ⟨queues, _⟩ | ⟨_, _, other, _⟩
    · left
      simp [pendingEnqueue, current, World.messages, queues]
    · cases other
  | abort running =>
    left
    cases current : request.phase <;>
      simp_all [pendingEnqueue, Phase.inTransaction, World.messages, World.rollback]

end Submission

namespace RetryScheduler

variable {index : Nat} {world next : World} {phase last : Phase} {event : Event} {id : Uuid}

theorem waiting_afterEnqueue (waiting : List Notification) (total : Nat) :
    (afterEnqueue waiting total).waiting = waiting := by
  cases waiting <;> rfl

/-- A scheduler whose enqueue does not raise moves a claimed row to its queue, and has
rows in hand only after its commit. -/
theorem Moves.hands_over (moves : Moves index world phase event next last)
    (sends : ∀ position, event ≠ .enqueue position true) (id : Uuid) :
    (event ≠ .commit ∧
      pendingEnqueues id last + next.messages id = pendingEnqueues id phase + world.messages id) ∨
      ∃ now room candidates claimed, event = .commit ∧
        phase = .claiming now room candidates claimed ∧
        next = world.commit (.scheduler index) ∧ last = afterEnqueue claimed claimed.length := by
  cases moves with
  | skipLocked | skipChanged => exact .inl ⟨by simp, rfl⟩
  | lock done =>
    obtain ⟨_, _, _, _, _, rfl⟩ := World.updateNotification_returns done
    exact .inl ⟨by simp, rfl⟩
  | commit => exact .inr ⟨_, _, _, _, rfl, rfl, rfl, rfl⟩
  | enqueue chosen =>
    refine .inl ⟨by simp, ?_⟩
    have taken := Processes.countP_eraseIdx (fun notification : Notification => notification.id =
      id) chosen
    rw [World.messages_enqueue]
    simp only [pendingEnqueues, waiting_afterEnqueue]
    simp only [Phase.waiting, decide_eq_true_eq] at taken ⊢
    omega
  | enqueueRaises => exact absurd rfl (sends _)
  | abort => exact .inl ⟨by simp, rfl⟩

end RetryScheduler

namespace Delivery

variable {config : Config} {index : Nat} {world next : World} {execution : Execution}
variable {event : Event} {phase : Phase} {id : Uuid} {stored : StoredNotification}
    {payload : EmailPayload}

theorem afterLoad_of_eligible (open' : stored.val.state.terminal = false)
    (room : stored.val.attemptCount < stored.val.maxAttempts)
    (decoded : EmailPayload.modelValidate stored.val.payload = some payload) :
    afterLoad (some stored) = .loaded stored.val payload :=
  afterLoad_eq_loaded.mpr ⟨stored, rfl, rfl, validateDeliveryEligibility_ok.mpr ⟨open', room⟩,
    decoded⟩

/-- Without failures an execution ends only by its commit. -/
theorem Moves.proceeds (moves : Moves config index world execution event next phase)
    (valid : Valid index world execution)
    (ledger : (world.lifecycle execution.notificationId).Ledger execution.notificationId)
    (accepted : Accepts world execution event)
    (eligible : (afterLoad (world.row execution.notificationId)).ending = none)
    (answers : event ≠ .providerRaises) (running : event ≠ .interrupt) :
    (event ≠ .commit ∧ phase.ending = none) ∨
      ∃ persist attemptNumber, event = .commit ∧
        execution.phase = .concluded persist attemptNumber ∧
        next = world.commit (.worker index) ∧ phase = .ended .delivered := by
  have kept := moves.keeps_result valid ledger accepted
  cases moves with
  | load => exact .inl ⟨by simp, eligible⟩
  | send | answer | openTransaction | increment | record | conclude => exact .inl ⟨by simp, rfl⟩
  | providerRaises => exact absurd rfl answers
  | incrementRejected | incrementMissing | recordRejected | concludeRejected
  | concludeRaises => cases kept
  | commit current => exact .inr ⟨_, _, rfl, current, rfl, rfl⟩
  | interrupt => exact absurd rfl running

/-- A step that leaves the log of calls, the ledger and the call of the execution alone. -/
private theorem calls_of_quiet (calls : next.calls = world.calls)
    (view : next.lifecycle id = world.lifecycle id)
    (same : phase.called = execution.phase.called) :
    next.sends id + (world.lifecycle id).attempts.length + (if called id execution then 1 else 0) =
      world.sends id + (next.lifecycle id).attempts.length +
        (if called id { execution with phase := phase } then 1 else 0) := by
  simp [World.sends, called, calls, view, same]

/-- A call of the provider stays with its execution until its attempt is on record. -/
theorem Moves.calls (moves : Moves config index world execution event next phase)
    (valid : Valid index world execution) (proceeds : phase.ending = none ∨ event = .commit)
    (id : Uuid) :
    next.sends id + (world.lifecycle id).attempts.length + (if called id execution then 1 else 0) =
      world.sends id + (next.lifecycle id).attempts.length +
        (if called id { execution with phase := phase } then 1 else 0) := by
  cases moves with
  | load current =>
    apply calls_of_quiet rfl rfl
    rw [current]
    unfold afterLoad
    split
    · rfl
    · split
      · rfl
      · split <;> rfl
  | @send notification payload current =>
    have silent : called id execution = false := by simp [called, current, Phase.called]
    have same : World.lifecycle { world with
        calls := world.calls ++ [⟨index, execution.notificationId, payload⟩] } id =
          world.lifecycle id := rfl
    rw [silent, same]
    by_cases own : execution.notificationId = id
    · simp [called, World.sends, own, Phase.called]
      omega
    · simp [called, World.sends, own]
  | answer current | openTransaction current => exact calls_of_quiet rfl rfl (by rw [current]; rfl)
  | increment current done | conclude current _ _ done =>
    have silent := World.Silent.updateNotification done
    exact calls_of_quiet silent.calls (silent.lifecycle id) (by rw [current]; rfl)
  | record current done =>
    have silent := World.Silent.insertAttempt done
    exact calls_of_quiet silent.calls (silent.lifecycle id) (by rw [current]; rfl)
  | commit current =>
    obtain ⟨_, _, _, _, _, _, _, _, published, others⟩ := valid.commit current
    have same : (world.commit (.worker index)).sends id = world.sends id := rfl
    rw [same]
    by_cases own : execution.notificationId = id
    · subst own
      rw [published]
      simp [called, current, Phase.called]
      omega
    · rw [others id (Ne.symm own)]
      simp [called, own]
  | providerRaises | incrementRejected | incrementMissing | recordRejected | concludeRejected
  | concludeRaises | interrupt => rcases proceeds with open' | committed <;> simp_all [Phase.ending]

end Delivery

end Relays
