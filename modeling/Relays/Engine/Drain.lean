import Relays.Library.Locks
import Relays.Engine.Work

/-! The engine left to itself. A transaction that has written waits for nobody, so whoever waits
is kept by a transaction that can go on, and what has been taken on is worked off. -/

namespace Relays

open ReadCommitted Transition

namespace Submission

variable {config : Config} {index : Nat} {world : World} {request : Request} {holder : Party}

/-- What the next statement of a request waits for. -/
inductive WaitsFor (index : Nat) (world : World) (request : Request) (holder : Party) : Prop where
  | insertIdemKeys (current : request.phase = .begun now)
      (kept : world.idempotency.Kept request.arguments.key (.request index) holder)
  | markQueued (current : request.phase = .enqueued notification)
      (kept : world.notifications.Kept notification.id (.request index) holder)

/-- A statement that neither the database nor the broker makes fail. -/
def Ordinary : Event → Prop
  | .enqueue raises => raises = false
  | .markQueued fails => fails = false
  | .abort => False
  | _ => True

theorem waiting_unwritten (waits : WaitsFor index world request holder) :
    request.phase.writing = false := by
  cases waits with
  | insertIdemKeys current | markQueued current => simp [current, Phase.writing]

theorem unanswered_of_writing {phase : Phase}
    (writes : phase.writing = true) : phase.response = none := by
  cases phase <;> simp [Phase.writing, Phase.response] at writes ⊢

theorem Moves.unanswered {event : Event} {next : World} {phase : Phase}
    (moves : Moves config index world request event next phase) :
      request.phase.response = none := by
  cases moves with
  | insertIdemKeys current | conflict current | createNotification current | createRejected current
  | completeIdempotency current | commitNew current | getIdemKeys current | getNotification current
  | commitReplay current | enqueue current | enqueueRaises current | markQueued current
  | markQueuedRaises current => simp [current, Phase.response]
  | abort running => cases current : request.phase <;>
    simp [current, Phase.inTransaction, Phase.response] at running ⊢

/-- A request that has not been answered and waits for nobody goes on. -/
theorem Valid.goes_on (valid : Valid config index world request)
    (running : request.phase.response = none)
    (free : ∀ holder, ¬ WaitsFor index world request holder) :
    ∃ event, Ordinary event ∧ (step config index world request event).isSome = true := by
  cases current : request.phase with
  | begun now =>
    refine ⟨.insertIdemKeys, trivial, ?_⟩
    have unlocked : (world.idempotency request.arguments.key).blocked (.request index) = false :=
      Table.free_of_unkept fun holder kept => free holder (.insertIdemKeys current kept)
    simp only [step, current, Table.insertOnConflict, unlocked]
    cases (world.idempotency request.arguments.key).view (.request index) <;> simp
  | recorded now record =>
    obtain ⟨id, fresh⟩ := exists_unused world.notificationIds
    refine ⟨.createNotification id, trivial, ?_⟩
    simp only [step, current, fresh, ↓reduceIte]
    cases store (newNotification request.arguments now id) <;> rfl
  | created record notification =>
    obtain ⟨reserves, _, _⟩ := valid.created record notification current
    refine ⟨.completeIdempotency, trivial, ?_⟩
    have own := Cell.view_of_pending reserves.pending
    have unlocked : (world.idempotency request.arguments.key).blocked (.request index) = false := by
      simp [Cell.blocked, reserves.pending]
    simp [step, current, Table.update, unlocked, own]
  | completed notification => exact ⟨.commit, trivial, by simp [step, current]⟩
  | conflicted => exact ⟨.getIdemKeys, trivial, by simp [step, current]⟩
  | matched id => exact ⟨.getNotification, trivial, by simp [step, current]⟩
  | replayed notification => exact ⟨.commit, trivial, by simp [step, current]⟩
  | accepted notification => exact ⟨.enqueue false, rfl, by simp [step, current]⟩
  | enqueued notification =>
    refine ⟨.markQueued false, rfl, ?_⟩
    have unlocked : (world.notifications notification.id).blocked (.request index) = false :=
      Table.free_of_unkept fun holder kept => free holder (.markQueued current kept)
    cases done : world.updateNotification (.request index) notification.id awaitsQueueing
        (Relays.markQueued world.clock) with
    | waits => exact absurd (World.updateNotification_waits done) (by simp [unlocked])
    | violates | returns => simp [step, current, done]
  | enqueueRaised | markQueuedRaised | answered | refused
  | aborted => simp [current, Phase.response] at running

end Submission

namespace World

variable {world : World} {tx : Party} {attempt : DeliveryAttempt}

theorem insertAttempt_waits (locked : world.insertAttempt tx attempt = .waits) :
    ∃ insert ∈ world.attempts.pending, insert.2.notificationId = attempt.notificationId := by
  unfold insertAttempt at locked
  split at locked
  · cases locked
  · split at locked
    · cases locked
    · split at locked
      · rename_i waits
        unfold Heap.insert at waits
        split at waits
        · cases waits
        · split at waits
          · rename_i disputed
            obtain ⟨insert, member, conflict⟩ := List.any_eq_true.mp disputed
            exact ⟨insert, member, (of_decide_eq_true conflict).1⟩
          · cases waits
      · cases locked
      · cases locked

end World

namespace Delivery

variable {config : Config} {index : Nat} {world : World} {execution : Execution}

/-- An execution waits for the lock of its row, before it has written. -/
def WaitsFor (index : Nat) (world : World) (execution : Execution) (holder : Party) : Prop :=
  (∃ persist, execution.phase = .opened persist) ∧
    world.notifications.Kept execution.notificationId (.worker index) holder

/-- A statement that does not end the execution early by a failure. -/
def Ordinary : Event → Prop
  | .providerRaises | .interrupt => False
  | _ => True

theorem unended_of_writing {phase : Phase}
    (writes : phase.writing = true) : phase.ending = none := by
  cases phase <;> simp [Phase.writing, Phase.ending] at writes ⊢

theorem Valid.holds (valid : Valid index world execution)
    (writes : execution.phase.writing = true) :
    ∃ version, (world.notifications execution.notificationId).pending =
      some (.worker index, version) := by
  cases current : execution.phase with
  | incremented persist attemptNumber =>
    obtain ⟨⟨_, version, holds, _⟩, _⟩ := valid.incremented persist attemptNumber current
    exact ⟨version, holds.pending⟩
  | recorded persist attemptNumber =>
    obtain ⟨_, ⟨_, version, holds, _⟩, _⟩ := valid.recorded persist attemptNumber current
    exact ⟨version, holds.pending⟩
  | concluded persist attemptNumber =>
    obtain ⟨_, version, _, _, _, holds, _⟩ := valid.concluded persist attemptNumber current
    exact ⟨version, holds.pending⟩
  | received | loaded | sending | answered | opened
  | ended => simp [current, Phase.writing] at writes

/-- An attempt that is not yet committed is one of the row that its worker holds. -/
theorem Valid.inserted (valid : Valid index world execution) {attempt : DeliveryAttempt}
    (member : attempt ∈ world.attempts.own (.worker index)) :
    attempt.notificationId = execution.notificationId ∧ execution.phase.writing = true := by
  cases current : execution.phase with
  | recorded persist attemptNumber =>
    rw [(valid.recorded persist attemptNumber current).2.2, List.mem_singleton] at member
    exact ⟨by rw [member]; rfl, rfl⟩
  | concluded persist attemptNumber =>
    obtain ⟨_, _, _, _, _, _, persisted, own⟩ := valid.concluded persist attemptNumber current
    rw [own, List.mem_singleton] at member
    obtain ⟨_, _, _, _, _, rfl⟩ := persistDeliveryResult_eq_some.mp persisted
    exact ⟨by rw [member]; rfl, rfl⟩
  | incremented persist attemptNumber =>
    rw [(valid.incremented persist attemptNumber current).2] at member
    cases member
  | received | loaded | sending | answered | opened | ended =>
    rw [(valid.idle (by simp [current, Phase.writing])).attempts] at member
    cases member

/-- The next statement of an execution, with the answer of the provider and the worker's clock. -/
def Phase.next (result : ProviderResult) (workerNow : Time) : Phase → Event
  | .received => .load
  | .loaded _ _ => .send
  | .sending _ => .answer result
  | .answered _ _ => .openTransaction
  | .opened _ => .increment
  | .incremented _ _ => .record
  | .recorded _ _ => .conclude workerNow 0
  | .concluded _ _ | .ended _ => .commit

theorem next_ordinary (phase : Phase) (result : ProviderResult) (workerNow : Time) :
    Ordinary (phase.next result workerNow) := by
  cases phase <;> trivial

/-- Whatever the provider answers, an execution that waits for nobody goes on. The lock of the row,
once taken, keeps out every other attempt of the notification. -/
theorem Valid.goes_on (config : Config) (valid : Valid index world execution)
    (running : execution.phase.ending = none)
    (free : ∀ holder, ¬ WaitsFor index world execution holder)
    (sole : execution.phase.writing = true → ∀ insert ∈ world.attempts.pending,
      insert.1 ≠ .worker index →
      insert.2.notificationId ≠ execution.notificationId) (result : ProviderResult) (workerNow :
        Time) :
    (step config index world execution (execution.phase.next result workerNow)).isSome = true := by
  cases current : execution.phase with
  | received | loaded | sending | answered | concluded => simp [step, current, Phase.next]
  | opened persist =>
    have unlocked : (world.notifications execution.notificationId).blocked (.worker index) =
        false :=
      Table.free_of_unkept fun holder kept => free holder ⟨⟨persist, current⟩, kept⟩
    cases done : world.updateNotification (.worker index) execution.notificationId (fun _ => true)
        (incrementAttemptCount persist.now) with
    | waits => exact absurd (World.updateNotification_waits done) (by simp [unlocked])
    | violates => simp [step, current, Phase.next, done]
    | returns result => rcases result with ⟨next, _ | stored⟩ <;>
      simp [step, current, Phase.next, done]
  | incremented persist attemptNumber =>
    cases done : world.insertAttempt (.worker index)
      (recordDeliveryAttempt persist.now execution.notificationId
        attemptNumber persist.result) with
    | waits =>
      obtain ⟨insert, member, named⟩ := World.insertAttempt_waits done
      by_cases own : insert.1 = .worker index
      · have listed : insert.2 ∈ world.attempts.own (.worker index) :=
          List.mem_map.mpr ⟨insert, List.mem_filter.mpr ⟨member, by simpa using own⟩, rfl⟩
        rw [(valid.incremented persist attemptNumber current).2] at listed
        cases listed
      · exact absurd named (sole (by simp [current, Phase.writing]) insert member own)
    | violates | returns => simp [step, current, Phase.next, done]
  | recorded persist attemptNumber =>
    obtain ⟨_, ⟨stored, version, holds, _⟩, _⟩ := valid.recorded persist attemptNumber current
    have unlocked : (world.notifications execution.notificationId).blocked (.worker index) =
        false := by
      simp [Cell.blocked, holds.pending]
    cases chosen : concludingUpdate persist attemptNumber workerNow 0 with
    | none => simp [step, current, Phase.next, chosen]
    | some change =>
      cases done : world.updateNotification (.worker index) execution.notificationId
        (fun _ => true) change with
      | waits => exact absurd (World.updateNotification_waits done) (by simp [unlocked])
      | violates | returns => simp [step, current, Phase.next, chosen, done]
  | ended ending => simp [current, Phase.ending] at running

end Delivery

namespace RetryScheduler

variable {index : Nat} {world next : World} {phase last : Phase} {event : Event}

def Phase.running : Phase → Bool
  | .claiming _ _ _ _ | .enqueueing _ _ => true
  | .finished _ | .raised _ | .aborted => false

/-- The enqueue loop runs over at least one row. -/
def Phase.Filled : Phase → Prop
  | .enqueueing waiting _ => waiting ≠ []
  | _ => True

def Ordinary : Event → Prop
  | .enqueue _ raises => raises = false
  | .abort => False
  | _ => True

theorem filled_afterEnqueue (waiting : List Notification)
    (total : Nat) : (afterEnqueue waiting total).Filled := by
  cases waiting <;> simp [afterEnqueue, Phase.Filled]

theorem Moves.filled (moves : Moves index world phase event next last) : last.Filled := by
  cases moves with
  | commit | enqueue => exact filled_afterEnqueue _ _
  | skipLocked | skipChanged | lock | enqueueRaises | abort => trivial

/-- A scheduler never waits: it skips what is locked. -/
theorem goes_on (filled : phase.Filled) (running : phase.running = true) (index : Nat)
    (world : World) :
    ∃ event, Ordinary event ∧ (step index world phase event).isSome = true := by
  cases phase with
  | claiming now room candidates claimed =>
    match room, candidates with
    | 0, candidates => exact ⟨.commit, trivial, by simp [step]⟩
    | room + 1, [] => exact ⟨.commit, trivial, by simp [step]⟩
    | room + 1, id :: rest =>
      refine ⟨.lockNext, trivial, ?_⟩
      cases done : world.updateNotification (.scheduler index) id (retryable now) (claimRetry now)
        with
      | waits | violates => simp [step, done]
      | returns result => rcases result with ⟨next, _ | stored⟩ <;> simp [step, done]
  | enqueueing waiting total =>
    cases waiting with
    | nil => exact absurd rfl filled
    | cons first rest => exact ⟨.enqueue 0 false, rfl, by simp [step]⟩
  | finished | raised | aborted => cases running

end RetryScheduler

namespace Engine

variable {config : Config} {engine middle after : Engine} {events more : List Event} {event : Event}
variable {allowed : Engine → Event → Prop} {party holder : Party}

/-- A statement of a participant that meets no failure, or the delivery of a message. -/
def Ordinary (_ : Engine) (event : Event) : Prop :=
  match event with
  | .request _ statement => Submission.Ordinary statement
  | .worker _ statement => Delivery.Ordinary statement
  | .scheduler _ statement => RetryScheduler.Ordinary statement
  | .consume _ _ => True
  | .tick _ | .post _ | .redeliver _ | .beat _ _ => False

theorem Ordinary.internal (ordinary : Ordinary engine event) : Internal engine event := by
  cases event with
  | tick | post | redeliver | beat => exact ordinary
  | request | worker | scheduler | consume => trivial

def Unfinished (engine : Engine) : Party → Prop
  | .request index => ∃ request, engine.requests[index]? = some request ∧
    request.phase.response = none
  | .worker index => ∃ execution, engine.executions[index]? = some execution ∧
    execution.phase.ending = none
  | .scheduler index => ∃ phase, engine.schedulers[index]? = some phase ∧ phase.running = true

/-- The transaction of this party has taken a lock. -/
def writes (engine : Engine) : Party → Bool
  | .request index => (engine.requests[index]?).any fun request => request.phase.writing
  | .worker index => (engine.executions[index]?).any fun execution => execution.phase.writing
  | .scheduler index => (engine.schedulers[index]?).any RetryScheduler.Phase.claims

/-- Whose lock the next statement of a party waits for. -/
def WaitsFor (engine : Engine) (party holder : Party) : Prop :=
  match party with
  | .request index => ∃ request, engine.requests[index]? = some request ∧
      Submission.WaitsFor index engine.world request holder
  | .worker index => ∃ execution, engine.executions[index]? = some execution ∧
      Delivery.WaitsFor index engine.world execution holder
  | .scheduler _ => False

/-- Everyone has ended and every message has been delivered. -/
structure Settled (engine : Engine) : Prop where
  requests : ∀ request ∈ engine.requests, request.phase.response.isSome = true
  executions : ∀ execution ∈ engine.executions, execution.phase.ending.isSome = true
  schedulers : ∀ phase ∈ engine.schedulers, phase.running = false
  queues : ∀ channel, engine.world.queues channel = []

theorem Sound.writes_of_busy (sound : Sound config engine) (busy : ¬ engine.world.Idle party) :
    engine.writes party = true := by
  have valid := sound.parties party
  cases party with
  | request index =>
    cases found : engine.requests[index]? with
    | none => exact absurd (by simpa only [PartyValid, found] using valid) busy
    | some request =>
      by_contra unwritten
      exact busy ((sound.request found).idle (by simpa [writes, found] using unwritten))
  | worker index =>
    cases found : engine.executions[index]? with
    | none => exact absurd (by simpa only [PartyValid, found] using valid) busy
    | some execution =>
      by_contra unwritten
      exact busy ((sound.worker found).idle (by simpa [writes, found] using unwritten))
  | scheduler index =>
    cases found : engine.schedulers[index]? with
    | none => exact absurd (by simpa only [PartyValid, found] using valid) busy
    | some phase =>
      by_contra unwritten
      exact busy ((sound.scheduler found).idle (by simpa [writes, found] using unwritten))

theorem unfinished_of_writes (taken : engine.writes party = true) : Unfinished engine party := by
  cases party with
  | request index =>
    obtain ⟨request, found, writing⟩ := (Option.any_eq_true _ _).mp taken
    exact ⟨request, found, Submission.unanswered_of_writing writing⟩
  | worker index =>
    obtain ⟨execution, found, writing⟩ := (Option.any_eq_true _ _).mp taken
    exact ⟨execution, found, Delivery.unended_of_writing writing⟩
  | scheduler index =>
    obtain ⟨phase, found, claims⟩ := (Option.any_eq_true _ _).mp taken
    refine ⟨phase, found, ?_⟩
    cases phase <;> simp [RetryScheduler.Phase.claims, RetryScheduler.Phase.running] at claims ⊢

theorem waiting_unwritten (waits : WaitsFor engine party holder) : engine.writes party = false := by
  cases party with
  | request index =>
    obtain ⟨request, found, kept⟩ := waits
    simpa [writes, found] using Submission.waiting_unwritten kept
  | worker index =>
    obtain ⟨execution, found, ⟨persist, current⟩, _⟩ := waits
    simp [writes, found, current, Delivery.Phase.writing]
  | scheduler index => cases waits

theorem busy_of_waited (waits : WaitsFor engine party holder) : ¬ engine.world.Idle holder := by
  intro idle
  cases party with
  | request index =>
    obtain ⟨request, _, kept⟩ := waits
    cases kept with
    | insertIdemKeys _ kept => exact idle.idempotency _ kept.2
    | markQueued _ kept => exact idle.notifications _ kept.2
  | worker index =>
    obtain ⟨_, _, _, kept⟩ := waits
    exact idle.notifications _ kept.2
  | scheduler index => cases waits

/-- Whoever has taken a lock waits for none, so nobody waits for a party that waits. -/
def waiting (sound : Sound config engine) : Waiting Party where
  unfinished := Unfinished engine
  waitsFor := WaitsFor engine
  rank party := if engine.writes party then 1 else 0
  bound := 1
  bounded party := by split <;> omega
  ordered party holder waits := by
    have taken := sound.writes_of_busy (busy_of_waited waits)
    refine ⟨unfinished_of_writes taken, ?_⟩
    simp [waiting_unwritten waits, taken]

/-- Nobody else has inserted an attempt of the notification whose row a worker holds. -/
theorem Sound.sole (sound : Sound config engine) {index : Nat} {execution : Delivery.Execution}
    (found : engine.executions[index]? = some execution)
    (writing : execution.phase.writing = true) :
    ∀ insert ∈ engine.world.attempts.pending, insert.1 ≠ .worker index →
      insert.2.notificationId ≠ execution.notificationId := by
  intro insert member other named
  have own : insert.2 ∈ engine.world.attempts.own insert.1 :=
    List.mem_map.mpr ⟨insert, List.mem_filter.mpr ⟨member, by simp⟩, rfl⟩
  obtain ⟨version, held⟩ := (sound.worker found).holds writing
  have valid := sound.parties insert.1
  cases owner : insert.1 with
  | request another =>
    rw [owner] at own valid
    cases entry : engine.requests[another]? with
    | none =>
      have idle : engine.world.Idle (.request another) := by
        simpa only [PartyValid, entry] using valid
      simp [idle.attempts] at own
    | some request => simp [(sound.request entry).attempts] at own
  | worker another =>
    rw [owner] at own valid other
    cases entry : engine.executions[another]? with
    | none =>
      have idle : engine.world.Idle (.worker another) := by
        simpa only [PartyValid, entry] using valid
      simp [idle.attempts] at own
    | some rival =>
      obtain ⟨same, busy⟩ := (sound.worker entry).inserted own
      obtain ⟨another', also⟩ := (sound.worker entry).holds busy
      rw [← same, named, held] at also
      exact other (congrArg Prod.fst (Option.some.inj also)).symm
  | scheduler another =>
    rw [owner] at own valid
    cases entry : engine.schedulers[another]? with
    | none =>
      have idle : engine.world.Idle (.scheduler another) := by
        simpa only [PartyValid, entry] using valid
      simp [idle.attempts] at own
    | some phase => simp [(sound.scheduler entry).attempts] at own

/-- A sound state whose enqueue loops all have a row left. -/
structure Ready (config : Config) (engine : Engine) : Prop where
  sound : Sound config engine
  filled : ∀ (index : Nat) (phase : RetryScheduler.Phase), engine.schedulers[index]? = some phase →
    phase.Filled

theorem Moves.ready (moves : Moves config engine event after)
    (ready : Ready config engine) : Ready config after where
  sound := moves.sound ready.sound
  filled index phase found := by
    rcases moves.scheduler_cases found with earlier | ⟨_, _, rfl, _, rfl⟩ | ⟨_, _, _, _, moves⟩
    · exact ready.filled index phase earlier
    · trivial
    · exact moves.filled

theorem run_ready (run : Run (system config) allowed events engine) : Ready config engine :=
  run.invariant ⟨init_sound config, by simp [system, init]⟩ fun _ _ _ _ _ ready _ taken =>
    (step_moves taken).ready ready

/-- What the provider answers to the execution of each place. -/
abbrev Provider := Engine → Nat → ProviderResult

/-- The next step of somebody: no failure, the answer of this provider, and a worker's clock that
shows the time of the database. -/
def Proceeds (provider : Provider) (engine : Engine) (event : Event) : Prop :=
  Ordinary engine event ∧ ∀ index statement, event = .worker index statement → ∃ execution,
    engine.executions[index]? = some execution ∧
      statement = execution.phase.next (provider engine index) engine.world.clock

/-- A party that has not ended and waits for nobody takes a step. -/
theorem Ready.goes_on (ready : Ready config engine) (running : Unfinished engine party)
    (free : ∀ holder, ¬ WaitsFor engine party holder) (provider : Provider) :
    ∃ event, Proceeds provider engine event ∧ (step config engine event).isSome = true := by
  cases party with
  | request index =>
    obtain ⟨request, found, unanswered⟩ := running
    obtain ⟨statement, ordinary, taken⟩ := (ready.sound.request found).goes_on unanswered
      fun holder waits => free holder ⟨request, found, waits⟩
    obtain ⟨⟨next, phase⟩, taken⟩ := Option.isSome_iff_exists.mp taken
    exact ⟨.request index statement, ⟨ordinary, by simp⟩, by simp [step, found, taken]⟩
  | worker index =>
    obtain ⟨execution, found, unended⟩ := running
    have taken := (ready.sound.worker found).goes_on config unended
      (fun holder waits => free holder ⟨execution, found, waits⟩) (ready.sound.sole found)
        (provider engine index)
      engine.world.clock
    obtain ⟨⟨next, phase⟩, taken⟩ := Option.isSome_iff_exists.mp taken
    refine ⟨.worker index (execution.phase.next (provider engine index) engine.world.clock),
      ⟨Delivery.next_ordinary _ _ _, ?_⟩, by simp [step, found, taken]⟩
    intro acting statement same
    obtain ⟨rfl, rfl⟩ := Event.worker.inj same
    exact ⟨execution, found, rfl⟩
  | scheduler index =>
    obtain ⟨phase, found, open'⟩ := running
    obtain ⟨statement, ordinary, taken⟩ :=
      RetryScheduler.goes_on (ready.filled index phase found) open' index engine.world
    obtain ⟨⟨next, last⟩, taken⟩ := Option.isSome_iff_exists.mp taken
    exact ⟨.scheduler index statement, ⟨ordinary, by simp⟩, by simp [step, found, taken]⟩

theorem settled_or_unfinished (engine : Engine) :
    engine.Settled ∨ (∃ party, Unfinished engine party) ∨ 0 < engine.world.backlog := by
  by_cases running : ∃ party, Unfinished engine party
  · exact .inr (.inl running)
  by_cases waiting : 0 < engine.world.backlog
  · exact .inr (.inr waiting)
  have finished : ∀ party, ¬ Unfinished engine party := fun party open' => running ⟨party, open'⟩
  refine .inl ⟨?_, ?_, ?_, ?_⟩
  · intro request member
    obtain ⟨index, found⟩ := List.mem_iff_getElem?.mp member
    rw [Option.isSome_iff_ne_none]
    exact fun unanswered => finished (.request index) ⟨request, found, unanswered⟩
  · intro execution member
    obtain ⟨index, found⟩ := List.mem_iff_getElem?.mp member
    rw [Option.isSome_iff_ne_none]
    exact fun unended => finished (.worker index) ⟨execution, found, unended⟩
  · intro phase member
    obtain ⟨index, found⟩ := List.mem_iff_getElem?.mp member
    by_contra open'
    exact finished (.scheduler index) ⟨phase, found, by simpa using open'⟩
  · intro channel
    apply List.eq_nil_of_length_eq_zero
    unfold World.backlog at waiting
    cases channel <;> omega

/-- In every reachable state that is not settled somebody takes a step that meets no failure. -/
theorem Ready.progress (ready : Ready config engine) (unsettled : ¬ engine.Settled)
    (provider : Provider) :
    ∃ event, Proceeds provider engine event ∧ (step config engine event).isSome = true := by
  rcases settled_or_unfinished engine with settled | ⟨party, running⟩ | pending
  · exact absurd settled unsettled
  · obtain ⟨holder, _, open', free⟩ := (waiting ready.sound).exists_free running
    exact ready.goes_on open' free provider
  · obtain ⟨channel, id, first⟩ := World.mem_queue_of_backlog pending
    exact ⟨.consume channel 0, ⟨trivial, by simp⟩, by simp [step, first]⟩

theorem Ready.work_lt (ready : Ready config engine) (internal : Internal engine event)
    (taken : step config engine event = some after) : Ready config after ∧
      after.work < engine.work :=
  ⟨(step_moves taken).ready ready, (step_moves taken).work_lt internal⟩

theorem Ready.settles (ready : Ready config engine) (provider : Provider) :
    ∃ more after, Path (system config) (Proceeds provider) engine more after ∧ after.Settled :=
  Path.exists_settled (fun _ _ _ held proceeds taken => held.work_lt proceeds.1.internal taken)
    (fun _ held unsettled => held.progress unsettled provider) ready

/-- The engine never deadlocks and never works for ever. From any reachable state, in whatever order
and with whatever failures the participants go on, they take at most `work` steps; where none that
meets no failure is left, every request has been answered and every message delivered; and such a
state can be reached whatever the provider answers. -/
theorem engine_drains (run : Run (system config) allowed events engine) :
    (∀ more after, Path (system config) Internal engine more after →
      more.length + after.work ≤ engine.work) ∧
    (∀ more after, Path (system config) Internal engine more after →
      (∀ event, Ordinary after event → step config after event = none) → after.Settled) ∧
    ∀ provider, ∃ more after, Path (system config) (Proceeds provider) engine more after ∧
      after.Settled := by
  have ready := run_ready run
  refine ⟨?_, ?_, ?_⟩
  · intro more after path
    exact path.length_le ready fun before event next held internal taken =>
      held.work_lt internal taken
  · intro more after path stuck
    have held : Ready config after :=
      path.keeps ready fun _ _ _ held internal taken => (held.work_lt internal taken).1
    by_contra unsettled
    obtain ⟨event, ⟨ordinary, _⟩, possible⟩ :=
      held.progress unsettled fun _ _ => resultOf .success
    simp [stuck event ordinary] at possible
  · intro provider
    exact ready.settles provider

/-- Two requests for one key: the second waits for the record of the first. -/
def contends : List Event :=
  [.post sampleArguments, .post sampleArguments, .request 0 .insertIdemKeys,
    .request 0 (.createNotification 7)]

theorem engine_drains_contended : ∃ engine, Run (system sampleConfig) Any contends engine ∧
    step sampleConfig engine (.request 1 .insertIdemKeys) = none ∧
    (∀ more after, Path (system sampleConfig) Internal engine more after →
      more.length + after.work ≤ engine.work) ∧
    (∀ more after, Path (system sampleConfig) Internal engine more after →
      (∀ event, Ordinary after event → step sampleConfig after event = none) → after.Settled) ∧
    ∀ provider, ∃ more after, Path (system sampleConfig) (Proceeds provider) engine more after ∧
      after.Settled := by
  obtain ⟨engine, run, observed⟩ := Run.exists_of_execute (system sampleConfig) Any contends
    (fun engine => (step sampleConfig engine (.request 1 .insertIdemKeys)).isNone)
    (by decide +kernel)
  exact ⟨engine, run, by simpa using observed, engine_drains run⟩

end Engine

end Relays
