import Relays.Engine.DeliveryToken
import Relays.Engine.DuplicateDeliveries

/-! One delivery at a time. Whatever crashes, raises or is rolled back, a failure only ever loses
the delivery of a notification: as long as the broker delivers no message twice, nobody else has it
too, and at most one call of the provider goes unrecorded. -/

namespace Relays

open ReadCommitted Transition

/-- A log of what an execution does once with the provider and holds until it is on record. -/
structure Tally (id : Uuid) where
  count : World → Nat
  holds : Delivery.Phase → Bool
  empty : count World.empty = 0
  logged : ∀ before after : World, after.calls = before.calls → after.results = before.results →
    count after = count before
  received : holds .received = false
  concluded : ∀ persist attemptNumber, holds (.concluded persist attemptNumber) = true
  ended : ∀ ending, holds (.ended ending) = false
  moves : ∀ config index world (execution : Delivery.Execution) event next phase,
    Delivery.Moves config index world execution event next phase →
      count next = count world ∧ (execution.notificationId = id → holds execution.phase = true →
        holds phase = true ∨ phase.ending ≠ none) ∨
      execution.notificationId = id ∧ count next = count world + 1 ∧ holds execution.phase = false ∧
        holds phase = true

def Tally.holding {id : Uuid} (tally : Tally id) (execution : Delivery.Execution) : Bool :=
  decide (execution.notificationId = id) && tally.holds execution.phase

namespace Delivery

variable {config : Config} {index : Nat} {world next : World} {execution : Execution}
    {event : Event} {phase : Phase}
variable {id : Uuid}

/-- An execution does not come back once it has ended. -/
theorem Moves.inProgress_le (moves : Moves config index world execution event next phase)
    (id : Uuid) :
    (if Delivery.inProgress id { execution with phase := phase } then 1 else 0) ≤
      if Delivery.inProgress id execution then 1 else 0 := by
  have running := moves.inProgress
  by_cases own : execution.notificationId = id
  · simp only [Delivery.inProgress, own, running, decide_true, Option.isNone_none, Bool.and_self,
      ↓reduceIte]
    split <;> simp
  · simp [Delivery.inProgress, own]

/-- What an execution adds to the log it holds; what it loses ends it. -/
theorem Moves.tally_le (moves : Moves config index world execution event next phase)
    (tally : Tally id) :
    tally.count next + (if tally.holding execution then 1 else 0) +
        (if Delivery.inProgress id { execution with phase := phase } then 1 else 0) ≤
      tally.count world + (if tally.holding { execution with phase := phase } then 1 else 0) +
        (if Delivery.inProgress id execution then 1 else 0) := by
  have running := moves.inProgress
  have shorter := moves.inProgress_le id
  rcases tally.moves _ _ _ _ _ _ _ moves with ⟨same, kept⟩ | ⟨own, more, fresh, held⟩
  · rw [same]
    by_cases holding : tally.holding execution = true
    · obtain ⟨own, held⟩ : execution.notificationId = id ∧ tally.holds execution.phase = true := by
        simpa [Tally.holding] using holding
      rcases kept own held with still | ended
      · have later : tally.holding { execution with phase := phase } = true := by
          simp [Tally.holding, own, still]
        simp only [holding, later, ↓reduceIte]
        omega
      · have before : Delivery.inProgress id execution = true := by
          simp [Delivery.inProgress, own, running]
        have closed : Delivery.inProgress id { execution with phase := phase } = false := by
          cases ending : phase.ending with
          | none => exact absurd ending ended
          | some _ => simp [Delivery.inProgress, ending]
        simp only [holding, before, closed, Bool.false_eq_true, ↓reduceIte]
        omega
    · simp only [holding, Bool.false_eq_true, ↓reduceIte]
      omega
  · have before : tally.holding execution = false := by simp [Tally.holding, fresh]
    have later : tally.holding { execution with phase := phase } = true := by
      simp [Tally.holding, own, held]
    simp only [more, before, later, Bool.false_eq_true, ↓reduceIte]
    omega

/-- The calls of the provider. -/
def sendTally (id : Uuid) : Tally id where
  count world := world.sends id
  holds := Phase.called
  empty := rfl
  logged before after calls _ := by rw [World.sends, calls, World.sends]
  received := rfl
  concluded _ _ := rfl
  ended _ := rfl
  moves config index world execution event next phase moves := by
    have kept : execution.phase.called = true → phase.called = true ∨ phase.ending ≠ none := by
      intro called
      cases moves with
      | load current | send current => simp [current, Phase.called] at called
      | answer | openTransaction | increment | record | conclude => exact .inl rfl
      | providerRaises | incrementRejected | incrementMissing | recordRejected | concludeRejected
      | concludeRaises
      | commit | interrupt => exact .inr (by simp [Phase.ending])
    rcases moves.effect with ⟨silent, _⟩ | ⟨_, _, _, current, rfl, rfl⟩ | ⟨_, _, _, _, rfl, _⟩
      | ⟨_, _, _, _, rfl, _⟩
    · exact .inl ⟨by simp only [World.sends, silent.calls], fun _ => kept⟩
    · by_cases own : execution.notificationId = id
      · exact .inr (by simp [World.sends, own, current, Phase.called])
      · exact .inl ⟨by simp [World.sends, own], fun same => absurd same own⟩
    · exact .inl ⟨rfl, fun _ => kept⟩
    · exact .inl ⟨rfl, fun _ => kept⟩

end Delivery

/-- The answers of the provider for a notification, in the order in which they came. -/
def World.answers (world : World) (id : Uuid) : List DeliveryStatus :=
  (world.results.filter fun result => result.notificationId = id).map SendResult.status

namespace Delivery

variable {config : Config} {index : Nat} {world next : World} {execution : Execution}
    {event : Event} {phase : Phase}

theorem Moves.result_kept (moves : Moves config index world execution event next phase)
    {result : ProviderResult}
    (carried : execution.phase.result = some result) : phase.result = some result ∨
      phase.ending ≠ none := by
  cases moves with
  | load current | send current | answer current
  | providerRaises current => simp [current, Phase.result] at carried
  | openTransaction current | increment current | record current | conclude current =>
    rw [current] at carried
    exact .inl carried
  | incrementRejected | incrementMissing | recordRejected | concludeRejected | concludeRaises
  | commit | interrupt =>
    exact .inr (by simp [Phase.ending])

/-- The answers of the provider. -/
def answerTally (id : Uuid) : Tally id where
  count world := (world.answers id).length
  holds phase := phase.result.isSome
  empty := rfl
  logged before after _ results := by rw [World.answers, results, World.answers]
  received := rfl
  concluded _ _ := rfl
  ended _ := rfl
  moves config index world execution event next phase moves := by
    have kept : execution.phase.result.isSome = true → phase.result.isSome = true ∨
        phase.ending ≠ none := by
      intro holding
      obtain ⟨result, carried⟩ := Option.isSome_iff_exists.mp holding
      exact (moves.result_kept carried).imp_left fun still => by rw [still]; rfl
    rcases moves.effect with ⟨silent, _⟩ | ⟨_, _, _, _, rfl, _⟩ | ⟨_, _, _, current, rfl, rfl⟩
      | ⟨_, _, _, _, rfl, _⟩
    · exact .inl ⟨by simp only [World.answers, silent.results], fun _ => kept⟩
    · exact .inl ⟨rfl, fun _ => kept⟩
    · by_cases own : execution.notificationId = id
      · exact .inr (by simp [World.answers, own, current, Phase.result])
      · exact .inl ⟨by simp [World.answers, own], fun same => absurd same own⟩
    · exact .inl ⟨rfl, fun _ => kept⟩

end Delivery

namespace Engine

/-- The broker delivers no message twice. Everything else may fail. -/
def SingleDelivery (_ : Engine) (event : Event) : Prop :=
  match event with
  | .redeliver _ => False
  | _ => True

instance (engine : Engine) (event : Event) : Decidable (SingleDelivery engine event) :=
  match event with
  | .redeliver _ => isFalse id
  | .tick _ | .post _ | .request _ _ | .consume _ _ | .worker _ _ | .beat _ _ | .scheduler _ _ =>
      isTrue trivial

/-- What is held of a tally and has still to be put on record. -/
def holding (engine : Engine) {id : Uuid} (tally : Tally id) : Nat :=
    engine.executions.countP tally.holding

/-- A notification has at most the one carrier it is owed, and what is tallied for it is on record
but for what is in hand and what was lost with its carrier. -/
structure SingleCarrier (engine : Engine) (id : Uuid) : Prop where
  tokens : engine.tokens id ≤ owed (engine.world.row id)
  tallied : ∀ tally : Tally id, tally.count engine.world + engine.tokens id ≤
    (engine.world.lifecycle id).attempts.length + engine.holding tally + owed (engine.world.row id)

variable {config : Config} {engine after : Engine} {event : Event} {events : List Event}
variable {allowed : Engine → Event → Prop} {index : Nat} {id : Uuid}

theorem owed_le_one (row : Option StoredNotification) : owed row ≤ 1 := by
  unfold owed
  split
  · split <;> omega
  · omega

/-- A request that fails loses its token, any other moves it. -/
theorem submission_tokens_le {request : Submission.Request} {event : Submission.Event}
    {next : World}
    {phase : Submission.Phase} (sound : Sound config engine)
    (found : engine.requests[index]? = some request)
    (moves : Submission.Moves config index engine.world request event next phase) (id : Uuid) :
    (if Submission.pendingEnqueue id { request with phase := phase } then 1 else 0) +
      next.messages id +
        scheduledRetry (next.row id) + owed (engine.world.row id) ≤
      (if Submission.pendingEnqueue id request then 1 else 0) + engine.world.messages id +
        scheduledRetry (engine.world.row id) + owed (next.row id) := by
  by_cases raised : event = .enqueue true
  · subst raised
    cases moves with
    | enqueueRaises => simp [Submission.pendingEnqueue]
  · exact Nat.le_of_eq (submission_tokens sound found moves raised id)

theorem scheduler_tokens_le {event : RetryScheduler.Event} {next : World}
    {phase last : RetryScheduler.Phase}
    (sound : Sound config engine) (found : engine.schedulers[index]? = some phase)
    (moves : RetryScheduler.Moves index engine.world phase event next last) (id : Uuid) :
    RetryScheduler.pendingEnqueues id last + next.messages id + scheduledRetry (next.row id) +
        owed (engine.world.row id) ≤
      RetryScheduler.pendingEnqueues id phase + engine.world.messages id +
        scheduledRetry (engine.world.row id) +
        owed (next.row id) := by
  by_cases raised : ∃ position, event = .enqueue position true
  · obtain ⟨position, rfl⟩ := raised
    cases moves with
    | enqueueRaises => simp [RetryScheduler.pendingEnqueues, RetryScheduler.Phase.waiting]
  · exact Nat.le_of_eq (scheduler_tokens sound found moves
      (fun position same => raised ⟨position, same⟩) id)

/-- The row of an execution in progress has not ended, and no retry of it is scheduled. -/
theorem SingleCarrier.carried {execution : Delivery.Execution}
    (carrier : SingleCarrier engine execution.notificationId)
    (found : engine.executions[index]? = some execution) (running : execution.phase.ending = none) :
    owed (engine.world.row execution.notificationId) = 1 ∧
      scheduledRetry (engine.world.row execution.notificationId) = 0 := by
  have counted : 0 < engine.executions.countP (Delivery.inProgress execution.notificationId) := by
    rw [List.countP_pos_iff]
    exact ⟨execution, List.mem_of_getElem? found, by simp [Delivery.inProgress, running]⟩
  have balance := carrier.tokens
  have bound := owed_le_one (engine.world.row execution.notificationId)
  unfold Engine.tokens at balance
  omega

/-- What a step may do to the carriers of a notification and to what is tallied for it. -/
structure Spends (engine after : Engine) (id : Uuid) : Prop where
  tokens : after.tokens id + owed (engine.world.row id) ≤
    engine.tokens id + owed (after.world.row id)
  tallied : ∀ tally : Tally id, tally.count after.world + after.tokens id +
      (engine.world.lifecycle id).attempts.length + engine.holding tally +
        owed (engine.world.row id) ≤
    tally.count engine.world + engine.tokens id + (after.world.lifecycle id).attempts.length +
      after.holding tally +
      owed (after.world.row id)

theorem SingleCarrier.step (carrier : SingleCarrier engine id) (spends : Spends engine after id) :
    SingleCarrier after id := by
  obtain ⟨tokens, tallied⟩ := carrier
  obtain ⟨fewer, less⟩ := spends
  refine ⟨by omega, fun tally => ?_⟩
  have balance := tallied tally
  have change := less tally
  omega

/-- A step that leaves the executions, the logs and the ledger alone spends no more than its
token. -/
theorem Moves.spends_of_quiet (moves : Moves config engine event after)
    (sound : Sound config engine)
    (unworked : ∀ index, event ≠ .worker index .commit)
    (executions : after.executions = engine.executions)
    (results : after.world.results = engine.world.results)
    (calls : after.world.calls = engine.world.calls)
    (tokens : after.tokens id + owed (engine.world.row id) ≤
      engine.tokens id + owed (after.world.row id)) :
    Spends engine after id := by
  refine ⟨tokens, fun tally => ?_⟩
  have kept := congrArg List.length (moves.ledger_kept sound unworked id)
  have counted := tally.logged _ _ calls results
  have held : after.holding tally = engine.holding tally := by
    rw [Engine.holding, executions, Engine.holding]
  omega

/-- A new execution takes the place of its message. -/
theorem spends_of_consume {channel : NotificationChannel} {position : Nat} {other : Uuid}
    (waiting : (engine.world.queues channel)[position]? = some other) (id : Uuid) :
    Spends engine { engine with
      world.queues := Function.update engine.world.queues channel
        ((engine.world.queues channel).eraseIdx position)
      executions := engine.executions ++ [⟨other, .received⟩] } id := by
  have taken := World.messages_consume waiting id
  have started : Delivery.inProgress id ⟨other, .received⟩ = decide (other = id) := by
    simp [Delivery.inProgress, Delivery.Phase.ending]
  have tokens : Engine.tokens { engine with
      world.queues := Function.update engine.world.queues channel
        ((engine.world.queues channel).eraseIdx position)
      executions := engine.executions ++ [⟨other, .received⟩] } id = engine.tokens id := by
    unfold Engine.tokens
    simp only [List.countP_append, List.countP_singleton, started, decide_eq_true_eq]
    change _ + scheduledRetry (engine.world.row id) = _ + scheduledRetry (engine.world.row id)
    omega
  refine ⟨Nat.le_of_eq ?_, fun tally => Nat.le_of_eq ?_⟩ <;> rw [tokens]
  · rfl
  · have unheld : tally.holding ⟨other, .received⟩ = false := by
      simp [Tally.holding, tally.received]
    have logged := tally.logged engine.world { engine.world with
      queues := Function.update engine.world.queues channel
        ((engine.world.queues channel).eraseIdx position) } rfl rfl
    simp only [holding, List.countP_append, List.countP_singleton, unheld, logged,
      Bool.false_eq_true, ↓reduceIte]
    rfl

/-- The commit of an execution puts on record what it holds. -/
theorem spends_of_commit {execution : Delivery.Execution} {persist : Delivery.Persist}
    {attemptNumber : Nat}
    (sound : Sound config engine) (found : engine.executions[index]? = some execution)
    (current : execution.phase = .concluded persist attemptNumber)
    (carried : owed (engine.world.row execution.notificationId) = 1 ∧
      scheduledRetry (engine.world.row execution.notificationId) = 0) (id : Uuid) :
    Spends engine { engine with
      world := engine.world.commit (.worker index)
      executions := engine.executions.set index { execution with phase := .ended .delivered } }
        id := by
  have moves : Delivery.Moves config index engine.world execution .commit
    (engine.world.commit (.worker index))
      (.ended .delivered) := .commit current
  have counted := Processes.countP_set (Delivery.inProgress id)
    { execution with phase := .ended .delivered } found
  have tokens := delivery_tokens sound found moves (.inr ⟨_, _, rfl, current, rfl, rfl⟩) carried id
  refine ⟨?_, fun tally => ?_⟩ <;> unfold Engine.tokens
  · simp only at counted tokens ⊢
    omega
  · have held := Processes.countP_set tally.holding
      { execution with phase := .ended .delivered } found
    have logged := tally.logged engine.world (engine.world.commit (.worker index)) rfl rfl
    have recorded : ((engine.world.commit (.worker index)).lifecycle id).attempts.length =
        (engine.world.lifecycle id).attempts.length + if tally.holding execution then 1 else 0 := by
      obtain ⟨_, _, _, _, _, _, _, _, published, others⟩ := (sound.worker found).commit current
      by_cases own : execution.notificationId = id
      · subst own
        simp [published, Tally.holding, current, tally.concluded]
      · simp [others id (Ne.symm own), Tally.holding, own]
    have dropped : tally.holding { execution with phase := .ended .delivered } = false := by
      simp [Tally.holding, tally.ended]
    unfold holding
    simp only [dropped, logged, Bool.false_eq_true, ↓reduceIte] at counted held tokens recorded ⊢
    omega

/-- Until its commit an execution spends its token if it fails. -/
theorem spends_of_worker {execution : Delivery.Execution} {event : Delivery.Event} {next : World}
    {phase : Delivery.Phase} (sound : Sound config engine)
    (found : engine.executions[index]? = some execution)
    (moves : Delivery.Moves config index engine.world execution event next phase)
    (uncommitted : event ≠ .commit)
    (id : Uuid) :
    Spends engine { engine with
      world := next
      executions := engine.executions.set index { execution with phase := phase } } id := by
  have counted := Processes.countP_set (Delivery.inProgress id)
    { execution with phase := phase } found
  have running := moves.inProgress_le id
  have messages : next.messages id = engine.world.messages id := by
    rw [World.messages, moves.traffic.1, World.messages]
  have row : next.row id = engine.world.row id := by
    rcases (Moves.worker found moves).row_change sound id with same | ⟨_, _, _, _, published⟩
    · exact same
    · exact absurd published.worker_commits uncommitted
  refine ⟨?_, fun tally => ?_⟩ <;> unfold Engine.tokens
  · simp only [row, messages] at counted running ⊢
    omega
  · have kept := congrArg List.length
      ((Moves.worker found moves).ledger_kept sound (by simpa using uncommitted) id)
    have held := Processes.countP_set tally.holding { execution with phase := phase } found
    have spent := moves.tally_le tally
    unfold holding
    simp only [row, messages] at counted held kept spent ⊢
    omega

/-- The step lemma: what a step does to a notification keeps to its one carrier. -/
theorem Moves.spends (moves : Moves config engine event after) (sound : Sound config engine)
    (single : SingleDelivery engine event) (carriers : ∀ id, SingleCarrier engine id) (id : Uuid) :
    Spends engine after id := by
  cases moves with
  | tick => exact Moves.tick.spends_of_quiet sound (by simp) rfl rfl rfl (Nat.le_refl _)
  | post =>
    refine Moves.post.spends_of_quiet sound (by simp) rfl rfl rfl (Nat.le_of_eq ?_)
    simp [Engine.tokens, Submission.pendingEnqueue]
  | beat past =>
    refine (Moves.beat past).spends_of_quiet sound (by simp) rfl rfl rfl (Nat.le_of_eq ?_)
    simp [Engine.tokens, Processes.total_concat, RetryScheduler.pendingEnqueues,
      RetryScheduler.begin,
      RetryScheduler.Phase.waiting]
  | redeliver => cases single
  | consume waiting => exact spends_of_consume waiting id
  | @request index request event next phase found moves =>
    have counted := Processes.countP_set (Submission.pendingEnqueue id)
      { request with phase := phase } found
    have moved := submission_tokens_le sound found moves id
    apply (Moves.request found moves).spends_of_quiet sound (by simp) rfl moves.logs.1 moves.logs.2
    unfold Engine.tokens
    simp only at counted moved ⊢
    omega
  | @scheduler index phase event next last found moves =>
    have counted := Processes.total_set (RetryScheduler.pendingEnqueues id) last found
    have moved := scheduler_tokens_le sound found moves id
    apply (Moves.scheduler found moves).spends_of_quiet sound
      (by simp) rfl moves.logs.1 moves.logs.2
    unfold Engine.tokens
    simp only at counted moved ⊢
    omega
  | @worker index execution event next phase found moves =>
    by_cases committed : event = .commit
    · subst committed
      have carried := (carriers execution.notificationId).carried found moves.inProgress
      cases moves with
      | commit current => exact spends_of_commit sound found current carried id
    · exact spends_of_worker sound found moves committed id

theorem run_singleCarrier (run : Run (system config) SingleDelivery events engine) (id : Uuid) :
    SingleCarrier engine id := by
  induction run generalizing id with
  | start =>
    refine ⟨Nat.le_refl _, fun tally => ?_⟩
    rw [show (system config).init.world = World.empty from rfl, tally.empty]
    exact Nat.zero_le _
  | step earlier single taken carriers =>
    exact (carriers id).step ((step_moves taken).spends (run_sound earlier) single carriers id)

/-- What is held is held by executions in progress. -/
theorem holding_le_tokens (engine : Engine)
    (tally : Tally id) : engine.holding tally ≤ engine.tokens id := by
  have fewer : engine.holding tally ≤ engine.executions.countP (Delivery.inProgress id) := by
    apply List.countP_mono_left
    intro execution _ holding
    obtain ⟨own, held⟩ : execution.notificationId = id ∧ tally.holds execution.phase = true := by
      simpa [Tally.holding] using holding
    have running : execution.phase.ending = none := by
      cases current : execution.phase with
      | ended ending => simp [current, tally.ended] at held
      | _ => rfl
    simp [Delivery.inProgress, own, running]
  unfold Engine.tokens
  omega

theorem SingleCarrier.sole {first second : Nat} {one two : Delivery.Execution}
    (carrier : SingleCarrier engine id)
    (left : engine.executions[first]? = some one) (right : engine.executions[second]? = some two)
    (named : one.notificationId = id) (also : two.notificationId = id)
    (running : one.phase.ending = none)
    (besides : two.phase.ending = none) : first = second := by
  by_contra different
  -- without the first execution the second is still counted
  have counted := Processes.countP_set (Delivery.inProgress id) ⟨id, .ended .delivered⟩ left
  have rest : 0 < (engine.executions.set first ⟨id, .ended .delivered⟩).countP
      (Delivery.inProgress id) := by
    rw [List.countP_pos_iff]
    refine ⟨two, List.mem_of_getElem? ((Processes.set_other (Ne.symm different)).trans right), ?_⟩
    simp [Delivery.inProgress, also, besides]
  have open' : Delivery.inProgress id one = true := by simp [Delivery.inProgress, named, running]
  have ended : Delivery.inProgress id ⟨id, .ended .delivered⟩ = false := by
    simp [Delivery.inProgress, Delivery.Phase.ending]
  simp only [open', ended, Bool.false_eq_true, ↓reduceIte] at counted
  have balance := carrier.tokens
  have bound := owed_le_one (engine.world.row id)
  unfold Engine.tokens at balance
  omega

/-- As long as the broker delivers no message twice, and whatever crashes, raises, is refused or is
rolled back, a notification is in the hands of one participant at most, and no two of its executions
overlap. All calls of the provider but one are on record, all of them once the notification has
ended, and there are never more than `max_attempts`. -/
theorem delivered_singly (run : Run (system config) SingleDelivery events engine) (id : Uuid) :
    engine.tokens id ≤ 1 ∧
    (∀ (first second : Nat) (one two : Delivery.Execution), engine.executions[first]? = some one →
      engine.executions[second]? = some two → one.notificationId = id → two.notificationId = id →
      one.phase.ending = none → two.phase.ending = none → first = second) ∧
    engine.world.sends id ≤ (engine.world.lifecycle id).attempts.length + 1 ∧
    ∀ stored, engine.world.row id = some stored → engine.world.sends id ≤ stored.val.maxAttempts ∧
      (stored.val.state.terminal = true →
        engine.world.sends id ≤ (engine.world.lifecycle id).attempts.length) := by
  have carrier := run_singleCarrier run id
  have tokens := carrier.tokens
  have bound := owed_le_one (engine.world.row id)
  have calls : engine.world.sends id + engine.tokens id ≤
      (engine.world.lifecycle id).attempts.length + engine.holding (Delivery.sendTally id) +
        owed (engine.world.row id) := carrier.tallied (Delivery.sendTally id)
  have held := holding_le_tokens engine (Delivery.sendTally id)
  refine ⟨by omega, ?_, by omega, ?_⟩
  · exact fun _ _ _ _ left right named also running besides =>
      carrier.sole left right named also running besides
  · intro row found
    obtain ⟨_, _, numbered⟩ := (run_lifecycle run id).ledger
    have recorded := congrArg List.length (numbered row found)
    simp only [List.length_map, List.length_range'] at recorded
    cases ended : row.val.state.terminal with
    | true =>
      have limit := row.property.chkAttemptBounds.2
      simp only [found, owed, ended, ↓reduceIte] at tokens calls
      exact ⟨by omega, fun _ => by omega⟩
    | false =>
      have room := room_of_open run found ended
      simp only [found, owed, ended, Bool.false_eq_true, ↓reduceIte] at tokens calls
      exact ⟨by omega, by simp⟩

/-- The worker dies when the provider has accepted the message: the call is not on record. -/
def crashesAccepted : List Event :=
  submits 0 7 ++ queues 0 ++ [.consume .email 0] ++ sends 0 .success ++ [.worker 0 .interrupt]

theorem delivered_singly_crashes :
    ∃ engine, Run (system sampleConfig) SingleDelivery crashesAccepted engine ∧
    (engine.world.sends 7, (engine.world.lifecycle 7).attempts.length, engine.tokens 7) =
    (1, 0, 0) ∧
    engine.world.sends 7 ≤ (engine.world.lifecycle 7).attempts.length + 1 := by
  obtain ⟨engine, run, observed⟩ :=
    Run.exists_of_execute (system sampleConfig) SingleDelivery crashesAccepted
    (fun engine => decide ((engine.world.sends 7, (engine.world.lifecycle 7).attempts.length,
      engine.tokens 7) =
      (1, 0, 0))) (by decide +kernel)
  obtain ⟨_, _, calls, _⟩ := delivered_singly run 7
  exact ⟨engine, run, by simpa using observed, calls⟩

end Engine

end Relays
