import Relays.Engine.Originals

/-! Whether an accepted notification reaches its queue. The row is committed before
its message is sent, and a replay of the request answers from the row alone. -/

namespace Relays

open ReadCommitted Transition

namespace Submission

/-- The notification is committed and its message not sent. -/
def Phase.unqueued : Phase → Option Notification
  | .accepted notification | .enqueueRaised notification => some notification
  | _ => none

/-- The request has sent the message of its notification. -/
def Phase.handedOver : Phase → Option Notification
  | .enqueued notification | .markQueuedRaised notification
  | .answered true notification => some notification
  | _ => none

variable {config : Config} {index : Nat} {world next : World} {request : Request}
variable {event : Event} {phase : Phase} {notification : Notification}

theorem Phase.original_of_unqueued (unqueued : phase.unqueued = some notification) :
    phase.original = some notification := by
  cases phase <;> simp_all [Phase.unqueued, Phase.original, Phase.returned]

theorem Phase.original_cases (original : phase.original = some notification) :
    phase.unqueued = some notification ∨ phase.handedOver = some notification := by
  rw [Phase.original_iff] at original
  cases phase <;> simp_all [Phase.unqueued, Phase.handedOver, Phase.returned]

theorem Moves.handedOver (moves : Moves config index world request event next phase)
    (handed : phase.handedOver = some notification) :
    request.phase.handedOver = some notification ∨
      request.phase = .accepted notification ∧ event = .enqueue false := by
  have ends := moves.lookup
  cases moves with
  | enqueue current =>
    cases handed
    exact .inr ⟨current, rfl⟩
  | markQueued current | markQueuedRaises current =>
    cases handed
    exact .inl (by rw [current]; rfl)
  | getIdemKeys current read =>
    rcases ends (.inl rfl) with ⟨_, rfl⟩ | ⟨_, rfl⟩ | ⟨_, rfl⟩ <;> cases handed
  | getNotification current read =>
    rcases ends (.inr rfl) with ⟨_, rfl⟩ | ⟨_, rfl⟩ | ⟨_, rfl⟩ <;> cases handed
  | insertIdemKeys | conflict | createNotification | createRejected | completeIdempotency
  | commitNew
  | commitReplay | enqueueRaises | abort => cases handed

theorem Moves.unqueued (moves : Moves config index world request event next phase)
    (unqueued : phase.unqueued = some notification) :
    request.phase.unqueued = some notification ∨
      request.phase = .completed notification ∧ event = .commit := by
  have ends := moves.lookup
  cases moves with
  | commitNew current =>
    cases unqueued
    exact .inr ⟨current, rfl⟩
  | enqueueRaises current =>
    cases unqueued
    exact .inl (by rw [current]; rfl)
  | getIdemKeys current read =>
    rcases ends (.inl rfl) with ⟨_, rfl⟩ | ⟨_, rfl⟩ | ⟨_, rfl⟩ <;> cases unqueued
  | getNotification current read =>
    rcases ends (.inr rfl) with ⟨_, rfl⟩ | ⟨_, rfl⟩ | ⟨_, rfl⟩ <;> cases unqueued
  | insertIdemKeys | conflict | createNotification | createRejected | completeIdempotency
  | enqueue
  | commitReplay | markQueued | markQueuedRaises | abort => cases unqueued

/-- A request is answered after its `mark_queued`, or by the commit of its replay. -/
theorem Moves.answered {isNewRequest : Bool}
    (moves : Moves config index world request event next phase)
    (answered : phase = .answered isNewRequest notification) :
    request.phase = .enqueued notification ∨ request.phase = .replayed notification ∧
      event = .commit := by
  have ends := moves.lookup
  cases moves with
  | markQueued current =>
    cases answered
    exact .inl current
  | commitReplay current =>
    cases answered
    exact .inr ⟨current, rfl⟩
  | getIdemKeys current read =>
    rcases ends (.inl rfl) with ⟨_, rfl⟩ | ⟨_, rfl⟩ | ⟨_, rfl⟩ <;> cases answered
  | getNotification current read =>
    rcases ends (.inr rfl) with ⟨_, rfl⟩ | ⟨_, rfl⟩ | ⟨_, rfl⟩ <;> cases answered
  | insertIdemKeys | conflict | createNotification | createRejected | completeIdempotency
  | commitNew
  | enqueue | enqueueRaises | markQueuedRaises | abort => cases answered

end Submission

namespace Engine

/-- Messages are published for committed rows only, and nothing happens to a row
before its first message is published. -/
structure Queueing (engine : Engine) : Prop where
  rows : ∀ id ∈ engine.world.published, ∃ stored, engine.world.row id = some stored
  queued : ∀ channel, ∀ id ∈ engine.world.queues channel, id ∈ engine.world.published
  executions : ∀ (index : Nat) (execution : Delivery.Execution), engine.executions[index]? =
    some execution →
    execution.notificationId ∈ engine.world.published
  fresh : ∀ id stored, engine.world.row id = some stored → id ∉ engine.world.published →
    stored.val.state = .created
  handover : ∀ (index : Nat) (phase : RetryScheduler.Phase), engine.schedulers[index]? =
    some phase →
    ∀ notification ∈ phase.handover, notification.id ∈ engine.world.published
  handedOver : ∀ (index : Nat) (request : Submission.Request) (notification : Notification),
    engine.requests[index]? = some request → request.phase.handedOver = some notification →
    notification.id ∈ engine.world.published
  unqueued : ∀ (index : Nat) (request : Submission.Request) (notification : Notification),
    engine.requests[index]? = some request → request.phase.unqueued = some notification →
    notification.id ∉ engine.world.published

variable {config : Config} {engine after : Engine} {event : Event} {allowed : Engine → Event → Prop}
variable {events : List Event} {index : Nat} {id : Uuid}

/-- What a step publishes: nothing, the message of an accepted request, or the message
of a claimed row. -/
theorem Moves.traffic (moves : Moves config engine event after) :
    ((∀ channel, ∀ id ∈ after.world.queues channel, id ∈ engine.world.queues channel) ∧
      after.world.published = engine.world.published) ∨
    ∃ notification : Notification,
      after.world = engine.world.enqueue notification.id notification.channel ∧
      ((∃ (index : Nat) (request : Submission.Request), engine.requests[index]? = some request ∧
          request.phase = .accepted notification ∧
          after.requests[index]? = some { request with phase := .enqueued notification }) ∨
        ∃ (index : Nat) (phase : RetryScheduler.Phase), engine.schedulers[index]? = some phase ∧
          notification ∈ phase.handover) := by
  cases moves with
  | tick | post | redeliver | beat => exact .inl ⟨fun _ _ member => member, rfl⟩
  | @consume channel position id waiting =>
    refine .inl ⟨?_, rfl⟩
    intro listed other member
    by_cases same : listed = channel
    · subst same
      simp only [Function.update_self] at member
      exact (List.eraseIdx_sublist _ _).mem member
    · simpa only [Function.update_of_ne same] using member
  | worker found moves =>
    refine .inl ⟨?_, moves.traffic.2⟩
    intro channel id member
    rwa [moves.traffic.1] at member
  | request found moves =>
    rcases moves.traffic with ⟨queues, published, _⟩ | ⟨notification, current, _, same, rfl⟩
    · refine .inl ⟨?_, published⟩
      intro channel id member
      rwa [queues] at member
    · exact .inr ⟨notification, same, .inl ⟨_, _, found, current, Processes.set_self found⟩⟩
  | scheduler found moves =>
    rcases moves.traffic with ⟨queues, published, _⟩ | ⟨position, notification, _, chosen, same, _⟩
    · refine .inl ⟨?_, published⟩
      intro channel id member
      rwa [queues] at member
    · exact .inr ⟨notification, same, .inr ⟨_, _, found, List.mem_of_getElem? chosen⟩⟩

/-- Every message is on the queue of its row. -/
def Routed (engine : Engine) : Prop :=
  ∀ channel, ∀ id ∈ engine.world.queues channel, ∃ stored, engine.world.row id = some stored ∧
    stored.val.channel = channel

theorem Moves.routed (moves : Moves config engine event after) (sound : Sound config engine)
    (routed : Routed engine) : Routed after := by
  intro channel id member
  have source : ∃ stored, engine.world.row id = some stored ∧ stored.val.channel = channel := by
    rcases moves.traffic with ⟨queues, _⟩ | ⟨notification, same, sender⟩
    · exact routed channel id (queues channel id member)
    · rw [same] at member
      simp only [World.enqueue] at member
      by_cases here : channel = notification.channel
      · subst here
        rw [Function.update_self] at member
        rcases List.mem_append.mp member with earlier | added
        · exact routed notification.channel id earlier
        · obtain rfl := List.mem_singleton.mp added
          rcases sender with ⟨_, request, found, current, _⟩ | ⟨_, phase, found, waits⟩
          · obtain ⟨_, stored, present, known⟩ :=
              (sound.request found).settled notification (by rw [current]; rfl)
            exact ⟨stored, present, (Notification.channel_eq known).symm⟩
          · obtain ⟨stored, present, known⟩ := (sound.scheduler found).handover notification waits
            exact ⟨stored, present, (Notification.channel_eq known).symm⟩
      · rw [Function.update_of_ne here] at member
        exact routed channel id member
  obtain ⟨stored, present, same⟩ := source
  obtain ⟨later, found, kept⟩ := (moves.extends sound).rows id stored present
  exact ⟨later, found, (Notification.channel_eq kept).trans same⟩

theorem run_routed (run : Run (system config) allowed events engine) : Routed engine := by
  induction run with
  | start =>
    intro channel id member
    simp [system, init, World.empty] at member
  | step earlier _ taken routed => exact (step_moves taken).routed (run_sound earlier) routed

theorem Moves.published_kept (moves : Moves config engine event after)
    (member : id ∈ engine.world.published) :
    id ∈ after.world.published := by
  rcases moves.traffic with ⟨_, same⟩ | ⟨_, same, _⟩
  · rw [same]
    exact member
  · rw [same]
    exact List.mem_append_left _ member

/-- A message is published for the first time only by the request that created its row. -/
theorem Queueing.published_new (queueing : Queueing engine)
    (moves : Moves config engine event after)
    (published : id ∈ after.world.published) (unpublished : id ∉ engine.world.published) :
    ∃ (index : Nat) (request : Submission.Request) (notification : Notification),
      engine.requests[index]? = some request ∧ request.phase = .accepted notification ∧
        notification.id = id ∧
      after.requests[index]? = some { request with phase := .enqueued notification } := by
  rcases moves.traffic with ⟨_, same⟩ | ⟨sent, same, source⟩
  · rw [same] at published
    exact absurd published unpublished
  · rw [same] at published
    rcases List.mem_append.mp published with earlier | added
    · exact absurd earlier unpublished
    · obtain rfl := List.mem_singleton.mp added
      rcases source with ⟨index, request, found, current, later⟩ | ⟨index, phase, found, member⟩
      · exact ⟨index, request, sent, found, current, rfl, later⟩
      · exact absurd (queueing.handover index phase found sent member) unpublished

/-- A row that a scheduler has locked to claim it has had a message before. -/
theorem Queueing.claims (queueing : Queueing engine) {now : Time} {notification : Notification}
    (claims : RetryScheduler.Claims index engine.world now notification) :
    notification.id ∈ engine.world.published := by
  by_contra unpublished
  obtain ⟨stored, _, found, due, _⟩ := claims
  have fresh := queueing.fresh _ stored found unpublished
  have queued := (retryable_iff.mp due).1
  simp [fresh] at queued

theorem Moves.queueing_rows (moves : Moves config engine event after) (sound : Sound config engine)
    (queueing : Queueing engine) : ∀ id ∈ after.world.published, ∃ stored, after.world.row id =
      some stored := by
  intro id published
  have present : ∃ stored, engine.world.row id = some stored := by
    by_cases earlier : id ∈ engine.world.published
    · exact queueing.rows id earlier
    · obtain ⟨index, request, notification, found, current, rfl, _⟩ :=
        queueing.published_new moves published earlier
      obtain ⟨_, stored, present, _⟩ :=
        (sound.request found).settled notification (by rw [current]; rfl)
      exact ⟨stored, present⟩
  obtain ⟨stored, found⟩ := present
  obtain ⟨next, later, _⟩ := (moves.extends sound).rows id stored found
  exact ⟨next, later⟩

theorem Moves.queueing_fresh (moves : Moves config engine event after) (sound : Sound config engine)
    (queueing : Queueing engine) : ∀ id stored, after.world.row id = some stored →
      id ∉ after.world.published → stored.val.state = .created := by
  intro id stored found unpublished
  have earlier : id ∉ engine.world.published :=
    fun member => unpublished (moves.published_kept member)
  rcases moves.row_change sound id with same | ⟨_, _, base, rows, published⟩
  · exact queueing.fresh id stored (same ▸ found) earlier
  · rw [rows] at found
    cases published with
    | create requested current written =>
      cases found
      rw [written]
      rfl
    | queue requested current names waiting written =>
      have sent := queueing.handedOver _ _ _ requested (by rw [current]; rfl)
      rw [names] at sent
      exact absurd sent earlier
    | deliver requested current names known persisted =>
      have received := queueing.executions _ _ requested
      rw [names] at received
      exact absurd received earlier
    | claim requested member due written =>
      have queued := (retryable_iff.mp due).1
      have fresh := queueing.fresh id _ base earlier
      rw [fresh] at queued
      cases queued

theorem Moves.queueing_executions (moves : Moves config engine event after)
    (queueing : Queueing engine) :
    ∀ (index : Nat) (execution : Delivery.Execution), after.executions[index]? = some execution →
      execution.notificationId ∈ after.world.published := by
  intro index execution found
  apply moves.published_kept
  rcases moves.execution_cases found with earlier | ⟨id, rfl, waiting | published⟩
    | ⟨current, _, _, entry, same, _⟩
  · exact queueing.executions index execution earlier
  · obtain ⟨channel, member⟩ := waiting
    exact queueing.queued channel id member
  · exact published
  · rw [same]
    exact queueing.executions index current entry

theorem Moves.queueing_handover (moves : Moves config engine event after)
    (sound : Sound config engine)
    (queueing : Queueing engine) : ∀ (index : Nat) (phase : RetryScheduler.Phase),
      after.schedulers[index]? = some phase → ∀ notification ∈ phase.handover,
        notification.id ∈ after.world.published := by
  intro index phase found notification member
  apply moves.published_kept
  rcases moves.scheduler_cases found with
    earlier | ⟨_, _, _, _, rfl⟩ | ⟨current, _, _, entry, moves⟩
  · exact queueing.handover index phase earlier notification member
  · cases member
  · rcases moves.traffic with ⟨_, _, _, same | ⟨now, room, candidates, claimed, rfl, _, returned⟩⟩ |
      ⟨position, sent, _, _, _, left⟩
    · rw [same] at member
      exact queueing.handover index current entry notification member
    · rw [returned] at member
      obtain ⟨rows, _⟩ := (sound.scheduler entry).claiming now room candidates claimed rfl
      exact queueing.claims (rows notification member)
    · rw [left] at member
      exact queueing.handover index current entry notification
        ((List.eraseIdx_sublist _ _).mem member)

theorem Moves.queueing_handedOver (moves : Moves config engine event after)
    (queueing : Queueing engine) :
    ∀ (index : Nat) (request : Submission.Request) (notification : Notification),
      after.requests[index]? = some request → request.phase.handedOver = some notification →
      notification.id ∈ after.world.published := by
  intro index request notification found handed
  rcases moves.request_cases found with
    earlier | ⟨_, _, _, _, rfl⟩ | ⟨current, _, rfl, entry, _, stepped⟩
  · exact moves.published_kept (queueing.handedOver index request notification earlier handed)
  · cases handed
  · rcases stepped.handedOver handed with before | ⟨accepted, rfl⟩
    · exact moves.published_kept (queueing.handedOver index current notification entry before)
    · rcases stepped.traffic with ⟨_, _, quiet⟩ | ⟨sent, also, _, same, _⟩
      · exact absurd rfl quiet
      · obtain rfl : sent = notification := Submission.Phase.accepted.inj (also.symm.trans accepted)
        simp [same, World.enqueue]

theorem Moves.queueing_unqueued (moves : Moves config engine event after)
    (sound : Sound config engine)
    (originals : Originals after) (queueing : Queueing engine) :
    ∀ (index : Nat) (request : Submission.Request) (notification : Notification),
      after.requests[index]? = some request → request.phase.unqueued = some notification →
      notification.id ∉ after.world.published := by
  intro index request notification found unqueued published
  have earlier : notification.id ∉ engine.world.published := by
    rcases moves.request_cases found with
      earlier | ⟨_, _, _, _, rfl⟩ | ⟨current, _, _, entry, _, stepped⟩
    · exact queueing.unqueued index request notification earlier unqueued
    · cases unqueued
    · rcases stepped.unqueued unqueued with same | ⟨completed, _⟩
      · exact queueing.unqueued index current notification entry same
      · intro member
        obtain ⟨_, drafts⟩ := (sound.request entry).completed notification completed
        obtain ⟨stored, present⟩ := queueing.rows _ member
        have absent := drafts.absent
        rw [present] at absent
        cases absent
  obtain ⟨sender, sending, sent, _, _, named, present⟩ :=
    queueing.published_new moves published earlier
  have own : Original after index request.arguments.key notification.id :=
    ⟨request, notification, found, rfl, Submission.Phase.original_of_unqueued unqueued, rfl⟩
  have other : Original after sender sending.arguments.key notification.id :=
    ⟨_, sent, present, rfl, rfl, named⟩
  obtain rfl := originals.id index sender _ _ _ own other
  obtain rfl := Option.some.inj (found.symm.trans present)
  cases unqueued

theorem Moves.queueing (moves : Moves config engine event after) (sound : Sound config engine)
    (originals : Originals after) (queueing : Queueing engine) : Queueing after where
  rows := moves.queueing_rows sound queueing
  queued channel id member := by
    rcases moves.traffic with ⟨queues, same⟩ | ⟨sent, same, _⟩
    · rw [same]
      exact queueing.queued channel id (queues channel id member)
    · rw [same] at member ⊢
      simp only [World.enqueue] at member ⊢
      by_cases here : channel = sent.channel
      · subst here
        rw [Function.update_self] at member
        rcases List.mem_append.mp member with earlier | added
        · exact List.mem_append_left _ (queueing.queued sent.channel id earlier)
        · exact List.mem_append_right _ added
      · rw [Function.update_of_ne here] at member
        exact List.mem_append_left _ (queueing.queued channel id member)
  executions := moves.queueing_executions queueing
  fresh := moves.queueing_fresh sound queueing
  handover := moves.queueing_handover sound queueing
  handedOver := moves.queueing_handedOver queueing
  unqueued := moves.queueing_unqueued sound originals queueing

theorem run_queueing (run : Run (system config) allowed events engine) : Queueing engine := by
  induction run with
  | start => constructor <;> simp [system, init, World.empty, World.row, Table.empty]
  | step earlier permitted taken queueing =>
    exact (step_moves taken).queueing (run_sound earlier)
      (run_originals (earlier.step permitted taken)) queueing

end Engine

end Relays
