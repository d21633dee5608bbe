import Relays.Library.Progress
import Relays.Engine.Effects
import Relays.Engine.Invariant

/-! The work the engine has taken on: the statements its participants have yet to run, and for
each message the execution it will be delivered to. -/

namespace Relays

open ReadCommitted Transition

namespace World

/-- The messages on all queues. -/
def backlog (world : World) : Nat :=
  (world.queues .email).length + (world.queues .sms).length + (world.queues .webhook).length

variable {world : World} {id : Uuid} {channel : NotificationChannel} {position : Nat}

theorem backlog_enqueue (world : World) (id : Uuid) (channel : NotificationChannel) :
    (world.enqueue id channel).backlog = world.backlog + 1 := by
  cases channel <;> simp [backlog, enqueue] <;> omega

theorem backlog_consume (waiting : (world.queues channel)[position]? = some id) :
    backlog { world with
      queues := Function.update world.queues channel ((world.queues channel).eraseIdx position) } +
        1 =
      world.backlog := by
  have bound := (List.getElem?_eq_some_iff.mp waiting).1
  cases channel <;> simp [backlog, List.length_eraseIdx, bound] <;> omega

theorem mem_queue_of_backlog (pending : 0 < world.backlog) :
    ∃ channel id, (world.queues channel)[0]? = some id := by
  have filled : ∃ channel, 0 < (world.queues channel).length := by
    by_contra empty
    have nothing : ∀ channel, (world.queues channel).length = 0 := fun channel =>
      Nat.eq_zero_of_not_pos fun some' => empty ⟨channel, some'⟩
    simp [backlog, nothing] at pending
  obtain ⟨channel, bound⟩ := filled
  exact ⟨channel, _, List.getElem?_eq_getElem bound⟩

end World

namespace Delivery

/-- The statements an execution has yet to run. -/
def Phase.statements : Phase → Nat
  | .received => 8
  | .loaded _ _ => 7
  | .sending _ => 6
  | .answered _ _ => 5
  | .opened _ => 4
  | .incremented _ _ => 3
  | .recorded _ _ => 2
  | .concluded _ _ => 1
  | .ended _ => 0

/-- A message stands for its consumption and the execution it starts. -/
def messageWork : Nat := Phase.received.statements + 1

variable {config : Config} {index : Nat} {world next : World} {execution : Execution}
variable {event : Event} {phase : Phase} {row : Option StoredNotification}

theorem statements_pos_of_running (running : ∀ ending, phase ≠ .ended ending) :
    0 < phase.statements := by
  cases phase with
  | ended ending => exact absurd rfl (running ending)
  | received | loaded | sending | answered | opened | incremented | recorded | concluded =>
    simp [Phase.statements]

theorem statements_afterLoad : (afterLoad row).statements < Phase.received.statements := by
  unfold afterLoad
  split
  · simp [Phase.statements]
  · split
    · simp [Phase.statements]
    · split <;> simp [Phase.statements]

/-- No statement of an execution is run twice, and no execution publishes a message. -/
theorem Moves.work_lt (moves : Moves config index world execution event next phase) :
    phase.statements < execution.phase.statements ∧ next.backlog = world.backlog := by
  refine ⟨?_, by simp [World.backlog, moves.traffic.1]⟩
  cases moves with
  | load current =>
    rw [current]
    exact statements_afterLoad
  | send current | answer current | providerRaises current | openTransaction current
  | increment current
  | incrementRejected current | incrementMissing current | record current | recordRejected current
  | conclude current | concludeRejected current | concludeRaises current | commit current =>
    simp [current, Phase.statements]
  | interrupt running => exact statements_pos_of_running running

end Delivery

namespace Submission

/-- The statements a request has yet to run, and the message it has yet to publish. -/
def Phase.work : Phase → Nat
  | .begun _ => Delivery.messageWork + 6
  | .recorded _ _ => Delivery.messageWork + 5
  | .created _ _ => Delivery.messageWork + 4
  | .completed _ => Delivery.messageWork + 3
  | .accepted _ => Delivery.messageWork + 2
  | .conflicted => 3
  | .matched _ => 2
  | .replayed _ => 1
  | .enqueued _ => 1
  | .enqueueRaised _ | .markQueuedRaised _ | .answered _ _ | .refused _ | .aborted => 0

variable {config : Config} {index : Nat} {world next : World} {request : Request}
variable {event : Event} {phase : Phase}

theorem work_afterLookup (hash : String)
    (found : Option IdempotencyRecord) : (afterLookup hash found).work ≤ 2 := by
  unfold afterLookup
  split
  · simp [Phase.work]
  · split
    · simp [Phase.work]
    · split <;> simp [Phase.work]

theorem work_afterReload (found : Option StoredNotification) : (afterReload found).work ≤ 1 := by
  cases found <;> simp [afterReload, Phase.work]

theorem Moves.work_lt (moves : Moves config index world request event next phase) :
    phase.work + Delivery.messageWork * next.backlog <
      request.phase.work + Delivery.messageWork * world.backlog := by
  rcases moves.traffic with ⟨queues, _, quiet⟩ | ⟨notification, current, rfl, rfl, rfl⟩
  · have kept : next.backlog = world.backlog := by simp [World.backlog, queues]
    suffices shorter : phase.work < request.phase.work by
      rw [kept]
      omega
    cases moves with
    | getIdemKeys current read =>
      obtain ⟨_, rfl⟩ := leave_silent read
      have bound := work_afterLookup (requestHash config request.arguments)
        ((world.idempotency request.arguments.key).view (.request index))
      rw [current]
      exact Nat.lt_succ_of_le bound
    | getNotification current read =>
      obtain ⟨_, rfl⟩ := leave_silent read
      rw [current]
      exact Nat.lt_succ_of_le (work_afterReload _)
    | enqueue current => exact absurd rfl quiet
    | insertIdemKeys current | conflict current | createNotification current
    | createRejected current | completeIdempotency current
    | commitNew current | commitReplay current | enqueueRaises current | markQueued current
    | markQueuedRaises current =>
      simp [current, Phase.work]
    | abort running =>
      cases current : request.phase <;> simp [current, Phase.inTransaction, Phase.work] at running ⊢
  · rw [World.backlog_enqueue, current, Nat.mul_add]
    simp only [Phase.work]
    omega

end Submission

namespace RetryScheduler

/-- Each row still to be enqueued stands for its message, each candidate for its row. -/
def Phase.work : Phase → Nat
  | .claiming _ _ candidates claimed =>
    (Delivery.messageWork + 2) * candidates.length + (Delivery.messageWork + 1) * claimed.length + 1
  | .enqueueing waiting _ => (Delivery.messageWork + 1) * waiting.length
  | .finished _ | .raised _ | .aborted => 0

variable {index : Nat} {world next : World} {phase last : Phase} {event : Event}

theorem work_afterEnqueue (waiting : List Notification) (total : Nat) :
    (afterEnqueue waiting total).work = (Delivery.messageWork + 1) * waiting.length := by
  cases waiting <;> rfl

theorem Moves.work_lt (moves : Moves index world phase event next last) :
    last.work + Delivery.messageWork * next.backlog <
      phase.work + Delivery.messageWork * world.backlog := by
  cases moves with
  | skipLocked | skipChanged => simp [Phase.work, Nat.mul_add]
  | lock done =>
    obtain ⟨_, _, _, _, _, rfl⟩ := World.updateNotification_returns done
    simp only [Phase.work, World.backlog, List.length_append, List.length_cons, List.length_nil,
      Nat.mul_add,
      Nat.mul_one, Nat.mul_zero]
    omega
  | commit =>
    rw [work_afterEnqueue]
    simp only [Phase.work, World.backlog, World.commit]
    omega
  | @enqueue waiting position notification total chosen =>
    have bound := (List.getElem?_eq_some_iff.mp chosen).1
    rw [work_afterEnqueue, World.backlog_enqueue]
    have shorter : (waiting.eraseIdx position).length + 1 = waiting.length := by
      rw [List.length_eraseIdx_of_lt bound]
      omega
    simp only [Phase.work, ← shorter, Nat.mul_add]
    omega
  | enqueueRaises chosen =>
    have bound := (List.getElem?_eq_some_iff.mp chosen).1
    simp only [Phase.work]
    have some' : 0 < (Delivery.messageWork + 1) * _ :=
      Nat.mul_pos (Nat.succ_pos _) (Nat.zero_lt_of_lt bound)
    omega
  | abort =>
    simp only [Phase.work, World.backlog, World.rollback]
    omega

end RetryScheduler

namespace Engine

/-- A statement of a participant, or the delivery of a message. -/
def Internal (_ : Engine) (event : Event) : Prop :=
  match event with
  | .request _ _ | .worker _ _ | .scheduler _ _ | .consume _ _ => True
  | .tick _ | .post _ | .redeliver _ | .beat _ _ => False

/-- What the engine has taken on. -/
def work (engine : Engine) : Nat :=
  Processes.total (fun request => request.phase.work) engine.requests +
    Processes.total (fun execution => execution.phase.statements) engine.executions +
    Processes.total RetryScheduler.Phase.work engine.schedulers +
      Delivery.messageWork * engine.world.backlog

variable {config : Config} {engine after : Engine} {event : Event}

/-- Whatever a participant does, it uses up some of the work. -/
theorem Moves.work_lt (moves : Moves config engine event after) (internal : Internal engine event) :
    after.work < engine.work := by
  cases moves with
  | tick | post | redeliver | beat => cases internal
  | @request _ request _ _ phase found moves =>
    have spent := moves.work_lt
    have summed := Processes.total_set (fun request : Submission.Request => request.phase.work)
      { request with phase := phase } found
    dsimp only at summed
    simp only [work]
    omega
  | consume waiting =>
    have one := World.backlog_consume waiting
    simp only [work, Processes.total_concat]
    rw [← one, Nat.mul_add]
    simp only [Delivery.messageWork, World.backlog]
    omega
  | @worker _ execution _ _ phase found moves =>
    obtain ⟨spent, kept⟩ := moves.work_lt
    have summed := Processes.total_set
      (fun execution : Delivery.Execution => execution.phase.statements)
      { execution with phase := phase } found
    dsimp only at summed
    simp only [work, kept]
    omega
  | @scheduler _ _ _ _ last found moves =>
    have spent := moves.work_lt
    have summed := Processes.total_set RetryScheduler.Phase.work last found
    simp only [work]
    omega

end Engine

end Relays
