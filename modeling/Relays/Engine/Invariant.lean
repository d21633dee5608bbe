import Relays.Engine.System
import Relays.Library.Processes
import Relays.Engine.DeliveryInvariant
import Relays.Engine.SubmissionInvariant
import Relays.Engine.RetrySchedulerInvariant

/-! The engine as a whole: each participant keeps its own invariant by its step
lemma and every other one by stability, so the tables are sound in every state. -/

namespace Relays.Engine

open Transition

/-- The steps of the engine, by the participant that takes them. -/
inductive Moves (config : Config) (engine : Engine) : Event → Engine → Prop where
  | tick : Moves config engine (.tick elapsed)
      { engine with world.clock := engine.world.clock + elapsed }
  | post : Moves config engine (.post arguments)
      { engine with requests := engine.requests ++ [⟨arguments, .begun engine.world.clock⟩] }
  | request (found : engine.requests[index]? = some request)
      (moves : Submission.Moves config index engine.world request event next phase) :
      Moves config engine (.request index event)
        { engine with
          world := next
          requests := engine.requests.set index { request with phase := phase } }
  | consume {id : Uuid} (waiting : (engine.world.queues channel)[position]? = some id) :
      Moves config engine (.consume channel position)
        { engine with
          world.queues := Function.update engine.world.queues channel
            ((engine.world.queues channel).eraseIdx position)
          executions := engine.executions ++ [⟨id, .received⟩] }
  | redeliver {id : Uuid} (published : id ∈ engine.world.published) :
      Moves config engine (.redeliver id)
        { engine with executions := engine.executions ++ [⟨id, .received⟩] }
  | worker (found : engine.executions[index]? = some execution)
      (moves : Delivery.Moves config index engine.world execution event next phase) :
      Moves config engine (.worker index event)
        { engine with
          world := next
          executions := engine.executions.set index { execution with phase := phase } }
  | beat (past : began ≤ engine.world.clock) : Moves config engine (.beat began limit)
      { engine with
        schedulers := engine.schedulers ++ [RetryScheduler.begin engine.world began limit] }
  | scheduler (found : engine.schedulers[index]? = some phase)
      (moves : RetryScheduler.Moves index engine.world phase event next last) :
      Moves config engine (.scheduler index event)
        { engine with world := next, schedulers := engine.schedulers.set index last }

variable {config : Config} {engine after : Engine} {event : Event} {tx party : Party}
variable {allowed : Engine → Event → Prop} {events front back : List Event} {middle : Engine}

theorem step_moves (taken : step config engine event = some after) :
    Moves config engine event after := by
  unfold step at taken
  split at taken
  · cases taken
    exact .tick
  · cases taken
    exact .post
  · split at taken
    · cases taken
    · rename_i found
      split at taken
      · cases taken
      · rename_i moved
        cases taken
        exact .request found (Submission.step_moves moved)
  · split at taken
    · cases taken
    · rename_i waiting
      cases taken
      exact .consume waiting
  · split at taken
    · rename_i published
      cases taken
      exact .redeliver published
    · cases taken
  · split at taken
    · cases taken
    · rename_i found
      split at taken
      · cases taken
      · rename_i moved
        cases taken
        exact .worker found (Delivery.step_moves moved)
  · split at taken
    · cases taken
    · rename_i past
      cases taken
      exact .beat (Nat.not_lt.mp past)
  · split at taken
    · cases taken
    · rename_i found
      split at taken
      · cases taken
      · rename_i moved
        cases taken
        exact .scheduler found (RetryScheduler.step_moves moved)

section Processes

variable {index : Nat} {request : Submission.Request} {execution : Delivery.Execution}
variable {phase : RetryScheduler.Phase}

/-- A request after a step is as it was, has just been posted, or has taken the step. -/
theorem Moves.request_cases (moves : Moves config engine event after)
    (found : after.requests[index]? = some request) :
    engine.requests[index]? = some request ∨
      (∃ arguments, event = .post arguments ∧ request = ⟨arguments, .begun engine.world.clock⟩) ∨
      ∃ current statement, event = .request index statement ∧
        engine.requests[index]? = some current ∧
        request.arguments = current.arguments ∧
        Submission.Moves config index engine.world current statement after.world request.phase := by
  cases moves with
  | tick | consume | redeliver | worker | beat | scheduler => exact .inl found
  | post =>
    rcases Processes.append_cases found with ⟨_, rfl⟩ | earlier
    · exact .inr (.inl ⟨_, rfl, rfl⟩)
    · exact .inl earlier
  | request entry moves =>
    rcases Processes.set_cases found with ⟨rfl, rfl⟩ | ⟨_, earlier⟩
    · exact .inr (.inr ⟨_, _, rfl, entry, rfl, moves⟩)
    · exact .inl earlier

/-- An execution after a step is as it was, has just received its message, or has taken
the step. -/
theorem Moves.execution_cases (moves : Moves config engine event after)
    (found : after.executions[index]? = some execution) :
    engine.executions[index]? = some execution ∨
      (∃ id, execution = ⟨id, .received⟩ ∧
        ((∃ channel, id ∈ engine.world.queues channel) ∨ id ∈ engine.world.published)) ∨
      ∃ current statement, event = .worker index statement ∧
        engine.executions[index]? = some current ∧
        execution.notificationId = current.notificationId ∧
        Delivery.Moves config index engine.world current statement after.world execution.phase := by
  cases moves with
  | tick | post | request | beat | scheduler => exact .inl found
  | consume waiting =>
    rcases Processes.append_cases found with ⟨_, rfl⟩ | earlier
    · exact .inr (.inl ⟨_, rfl, .inl ⟨_, List.mem_of_getElem? waiting⟩⟩)
    · exact .inl earlier
  | redeliver published =>
    rcases Processes.append_cases found with ⟨_, rfl⟩ | earlier
    · exact .inr (.inl ⟨_, rfl, .inr published⟩)
    · exact .inl earlier
  | worker entry moves =>
    rcases Processes.set_cases found with ⟨rfl, rfl⟩ | ⟨_, earlier⟩
    · exact .inr (.inr ⟨_, _, rfl, entry, rfl, moves⟩)
    · exact .inl earlier

/-- A scheduler after a step is as it was, has just begun, or has taken the step. -/
theorem Moves.scheduler_cases (moves : Moves config engine event after)
    (found : after.schedulers[index]? = some phase) :
    engine.schedulers[index]? = some phase ∨
      (∃ began limit, event = .beat began limit ∧ began ≤ engine.world.clock ∧
        phase = RetryScheduler.begin engine.world began limit) ∨
      ∃ current statement, event = .scheduler index statement ∧
        engine.schedulers[index]? = some current ∧
        RetryScheduler.Moves index engine.world current statement after.world phase := by
  cases moves with
  | tick | post | request | consume | redeliver | worker => exact .inl found
  | beat past =>
    rcases Processes.append_cases found with ⟨_, rfl⟩ | earlier
    · exact .inr (.inl ⟨_, _, rfl, past, rfl⟩)
    · exact .inl earlier
  | scheduler entry moves =>
    rcases Processes.set_cases found with ⟨rfl, rfl⟩ | ⟨_, earlier⟩
    · exact .inr (.inr ⟨_, _, rfl, entry, moves⟩)
    · exact .inl earlier

/-- No request disappears: it stays as it is or takes the step. -/
theorem Moves.request_next (moves : Moves config engine event after)
    (found : engine.requests[index]? = some request) :
    after.requests[index]? = some request ∨
      ∃ statement phase, event = .request index statement ∧
        Submission.Moves config index engine.world request statement after.world phase ∧
        after.requests[index]? = some { request with phase := phase } := by
  cases moves with
  | tick | consume | redeliver | worker | beat | scheduler => exact .inl found
  | post => exact .inl (Processes.append_earlier found)
  | @request acting _ _ _ _ entry moves =>
    by_cases same : index = acting
    · subst same
      obtain rfl := Option.some.inj (entry.symm.trans found)
      exact .inr ⟨_, _, rfl, moves, Processes.set_self entry⟩
    · exact .inl ((Processes.set_other same).trans found)

/-- No execution disappears: it stays as it is or takes the step. -/
theorem Moves.execution_next (moves : Moves config engine event after)
    (found : engine.executions[index]? = some execution) :
    after.executions[index]? = some execution ∨
      ∃ statement phase, event = .worker index statement ∧
        Delivery.Moves config index engine.world execution statement after.world phase ∧
        after.executions[index]? = some { execution with phase := phase } := by
  cases moves with
  | tick | post | request | beat | scheduler => exact .inl found
  | consume | redeliver => exact .inl (Processes.append_earlier found)
  | @worker acting _ _ _ _ entry moves =>
    by_cases same : index = acting
    · subst same
      obtain rfl := Option.some.inj (entry.symm.trans found)
      exact .inr ⟨_, _, rfl, moves, Processes.set_self entry⟩
    · exact .inl ((Processes.set_other same).trans found)

theorem Moves.executions_other {other : Nat} {statement : Delivery.Event}
    (moves : Moves config engine (.worker index statement) after) (different : other ≠ index) :
    after.executions[other]? = engine.executions[other]? := by
  cases moves with
  | worker => exact Processes.set_other different

end Processes

/-- A process keeps its invariant; a process not yet started has written nothing. -/
def PartyValid (config : Config) (engine : Engine) : Party → Prop
  | .request index =>
    match engine.requests[index]? with
    | none => engine.world.Idle (.request index)
    | some request => Submission.Valid config index engine.world request
  | .worker index =>
    match engine.executions[index]? with
    | none => engine.world.Idle (.worker index)
    | some execution => Delivery.Valid index engine.world execution
  | .scheduler index =>
    match engine.schedulers[index]? with
    | none => engine.world.Idle (.scheduler index)
    | some phase => RetryScheduler.Valid index engine.world phase

structure Sound (config : Config) (engine : Engine) : Prop where
  world : engine.world.Sound
  parties : ∀ party, PartyValid config engine party

theorem Sound.request {request : Submission.Request} (sound : Sound config engine)
    (found : engine.requests[index]? = some request) :
    Submission.Valid config index engine.world request := by
  simpa only [PartyValid, found] using sound.parties (.request index)

theorem Sound.worker {execution : Delivery.Execution} (sound : Sound config engine)
    (found : engine.executions[index]? = some execution) :
    Delivery.Valid index engine.world execution := by
  simpa only [PartyValid, found] using sound.parties (.worker index)

theorem Sound.scheduler {phase : RetryScheduler.Phase} (sound : Sound config engine)
    (found : engine.schedulers[index]? = some phase) :
    RetryScheduler.Valid index engine.world phase := by
  simpa only [PartyValid, found] using sound.parties (.scheduler index)

/-- The list of processes a party belongs to has not changed at its place. -/
structure Same (engine after : Engine) (party : Party) : Prop where
  requests : ∀ index, party = .request index → after.requests[index]? = engine.requests[index]?
  executions : ∀ index, party = .worker index → after.executions[index]? = engine.executions[index]?
  schedulers : ∀ index, party = .scheduler index →
    after.schedulers[index]? = engine.schedulers[index]?

theorem PartyValid.stable (valid : PartyValid config engine party)
    (evolves : World.Evolves tx engine.world after.world) (different : party ≠ tx)
    (same : Same engine after party) : PartyValid config after party := by
  cases party with
  | request index =>
    simp only [PartyValid, same.requests index rfl] at valid ⊢
    cases entry : engine.requests[index]? with
    | none =>
      rw [entry] at valid
      exact valid.evolves evolves different
    | some request =>
      rw [entry] at valid
      exact valid.stable evolves different
  | worker index =>
    simp only [PartyValid, same.executions index rfl] at valid ⊢
    cases entry : engine.executions[index]? with
    | none =>
      rw [entry] at valid
      exact valid.evolves evolves different
    | some execution =>
      rw [entry] at valid
      exact valid.stable evolves different
  | scheduler index =>
    simp only [PartyValid, same.schedulers index rfl] at valid ⊢
    cases entry : engine.schedulers[index]? with
    | none =>
      rw [entry] at valid
      exact valid.evolves evolves different
    | some phase =>
      rw [entry] at valid
      exact valid.stable evolves different

/-- A change of the clock, the queues or the logs is a step of nobody's. -/
private theorem PartyValid.transfer (valid : PartyValid config engine party)
    (evolves : ∀ tx, World.Evolves tx engine.world after.world) (same : Same engine after party) :
    PartyValid config after party := by
  cases party with
  | request index => exact valid.stable (evolves (.worker 0)) (by simp) same
  | worker index => exact valid.stable (evolves (.request 0)) (by simp) same
  | scheduler index => exact valid.stable (evolves (.request 0)) (by simp) same

/-- A new execution starts without a transaction. -/
private theorem Sound.receive (sound : Sound config engine) (id : Uuid)
    (next : World) (notifications : next.notifications = engine.world.notifications)
    (ids : next.notificationIds = engine.world.notificationIds)
    (attempts : next.attempts = engine.world.attempts)
    (idempotency : next.idempotency = engine.world.idempotency)
    (clock : engine.world.clock ≤ next.clock)
    (published : next.published = engine.world.published) :
    Sound config { engine with world := next, executions := engine.executions ++ [⟨id, .received⟩] }
      where
  world := sound.world.transfer notifications ids idempotency clock
  parties party := by
    have evolves (tx : Party) : World.Evolves tx engine.world next :=
      .transfer notifications ids attempts idempotency clock (by simp [published])
    by_cases started : party = .worker engine.executions.length
    · subst started
      have idle : engine.world.Idle (.worker engine.executions.length) := by
        simpa [PartyValid] using sound.parties (.worker engine.executions.length)
      simp only [PartyValid, List.getElem?_concat_length]
      exact .of_idle (idle.transfer notifications attempts idempotency) rfl
        (by simp [Delivery.Phase.snapshot]) (by simp [Delivery.Phase.transaction])
    · refine (sound.parties party).transfer evolves ⟨fun _ _ => rfl, ?_, fun _ _ => rfl⟩
      intro index same
      subst same
      have elsewhere : index ≠ engine.executions.length := fun same => started (by rw [same])
      grind

theorem Moves.sound (moves : Moves config engine event after) (sound : Sound config engine) :
    Sound config after := by
  cases moves with
  | tick =>
    refine ⟨sound.world.transfer rfl rfl rfl (Nat.le_add_right _ _), ?_⟩
    intro party
    exact (sound.parties party).transfer
      (fun tx => .transfer rfl rfl rfl rfl (Nat.le_add_right _ _) (fun _ member => member))
      ⟨fun _ _ => rfl, fun _ _ => rfl, fun _ _ => rfl⟩
  | @post arguments =>
    refine ⟨sound.world, ?_⟩
    intro party
    by_cases started : party = .request engine.requests.length
    · subst started
      have idle : engine.world.Idle (.request engine.requests.length) := by
        simpa [PartyValid] using sound.parties (.request engine.requests.length)
      simp only [PartyValid, List.getElem?_concat_length]
      exact .of_idle idle rfl (by simp [Submission.Phase.startedAt]) (by simp) (by simp)
        (by simp [Submission.Phase.settled]) (by simp)
    · refine (sound.parties party).transfer (fun tx => .refl tx _) ⟨?_, fun _ _ => rfl,
        fun _ _ => rfl⟩
      intro index same
      subst same
      have elsewhere : index ≠ engine.requests.length := fun same => started (by rw [same])
      grind
  | @request index request event next phase found moves =>
    obtain ⟨worldSound, evolves, valid⟩ := moves.valid sound.world (sound.request found)
    refine ⟨worldSound, ?_⟩
    intro party
    by_cases own : party = .request index
    · subst own
      simpa only [PartyValid, List.getElem?_set_self (List.getElem?_eq_some_iff.mp found).1]
        using valid
    · refine (sound.parties party).stable evolves own ⟨?_, fun _ _ => rfl, fun _ _ => rfl⟩
      intro other same
      subst same
      exact List.getElem?_set_ne fun same => own (by rw [same])
  | consume waiting => exact sound.receive _ _ rfl rfl rfl rfl (Nat.le_refl _) rfl
  | redeliver published => exact sound.receive _ _ rfl rfl rfl rfl (Nat.le_refl _) rfl
  | @worker index execution event next phase found moves =>
    obtain ⟨worldSound, evolves, valid⟩ := moves.valid sound.world (sound.worker found)
    refine ⟨worldSound, ?_⟩
    intro party
    by_cases own : party = .worker index
    · subst own
      simpa only [PartyValid, List.getElem?_set_self (List.getElem?_eq_some_iff.mp found).1]
        using valid
    · refine (sound.parties party).stable evolves own ⟨fun _ _ => rfl, ?_, fun _ _ => rfl⟩
      intro other same
      subst same
      exact List.getElem?_set_ne fun same => own (by rw [same])
  | @beat began limit past =>
    refine ⟨sound.world, ?_⟩
    intro party
    by_cases started : party = .scheduler engine.schedulers.length
    · subst started
      have idle : engine.world.Idle (.scheduler engine.schedulers.length) := by
        simpa [PartyValid] using sound.parties (.scheduler engine.schedulers.length)
      simp only [PartyValid, List.getElem?_concat_length]
      exact .begin idle began limit
    · refine (sound.parties party).transfer (fun tx => .refl tx _) ⟨fun _ _ => rfl,
        fun _ _ => rfl, ?_⟩
      intro index same
      subst same
      have elsewhere : index ≠ engine.schedulers.length := fun same => started (by rw [same])
      grind
  | @scheduler index phase event next last found moves =>
    obtain ⟨worldSound, evolves, valid⟩ := moves.valid sound.world (sound.scheduler found)
    refine ⟨worldSound, ?_⟩
    intro party
    by_cases own : party = .scheduler index
    · subst own
      simpa only [PartyValid, List.getElem?_set_self (List.getElem?_eq_some_iff.mp found).1]
        using valid
    · refine (sound.parties party).stable evolves own ⟨fun _ _ => rfl, fun _ _ => rfl, ?_⟩
      intro other same
      subst same
      exact List.getElem?_set_ne fun same => own (by rw [same])

theorem init_sound (config : Config) : Sound config init where
  world := by
    constructor <;> simp [init, World.empty, World.row, ReadCommitted.Table.empty]
  parties party := by
    have idle : World.empty.Idle party := by
      constructor <;> simp [World.empty, ReadCommitted.Table.empty, ReadCommitted.Table.Owns,
        ReadCommitted.Heap.own]
    cases party <;> exact idle

/-- Every state of every run is sound. -/
theorem run_sound (run : Run (system config) allowed events engine) : Sound config engine :=
  run.invariant (init_sound config) fun _ _ _ _ _ sound _ taken => (step_moves taken).sound sound

theorem Moves.extends (moves : Moves config engine event after) (sound : Sound config engine) :
    engine.world.Extends after.world := by
  cases moves with
  | tick | post | consume | redeliver | beat =>
    exact ⟨fun _ stored found => ⟨stored, found, rfl⟩, fun _ _ found => found, List.prefix_refl _,
      fun _ member => member⟩
  | request found moves => exact (moves.valid sound.world (sound.request found)).2.1.extends
  | worker found moves => exact (moves.valid sound.world (sound.worker found)).2.1.extends
  | scheduler found moves => exact (moves.valid sound.world (sound.scheduler found)).2.1.extends

/-- What is committed at some point of a run is there at its end. -/
theorem run_extends (run : Run (system config) allowed events engine)
    (split : events = front ++ back)
    (reached : Run (system config) allowed front middle) : middle.world.Extends engine.world := by
  apply run.keeps split reached
  · exact .refl _
  · intro events before event after earlier extends' permitted taken
    exact extends'.trans ((step_moves taken).extends (run_sound earlier))

/-- An execution that has ended stays ended. -/
theorem Moves.ended_kept {index : Nat} {id : Uuid} {ending : Delivery.Ending}
    (moves : Moves config engine event after)
    (ended : engine.executions[index]? = some ⟨id, .ended ending⟩) :
    after.executions[index]? = some ⟨id, .ended ending⟩ := by
  rcases moves.execution_next ended with kept | ⟨statement, phase, _, moves, _⟩
  · exact kept
  · have open' := moves.inProgress
    cases open'

theorem run_ended_kept {index : Nat} {id : Uuid} {ending : Delivery.Ending}
    (run : Run (system config) allowed events engine) (split : events = front ++ back)
    (reached : Run (system config) allowed front middle)
    (ended : middle.executions[index]? = some ⟨id, .ended ending⟩) :
    engine.executions[index]? = some ⟨id, .ended ending⟩ := by
  apply run.keeps split reached
  · exact ended
  · intro events before event after earlier held permitted taken
    exact (step_moves taken).ended_kept held

end Relays.Engine
