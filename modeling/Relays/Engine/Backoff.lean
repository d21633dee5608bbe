import Relays.Engine.RetryCycles

/-! When the backoff of a retry is honoured. A worker decides from the row it loads and
does not look at `next_retry_at`: only the claim of the scheduler waits for it. -/

namespace Relays

open Transition

namespace Delivery

variable {config : Config} {index : Nat} {world next : World} {execution : Execution}
variable {event : Event} {phase : Phase}

/-- Only the load of an eligible row makes an execution ready to send. -/
theorem Moves.loads {notification : Notification} {payload : EmailPayload}
    (moves : Moves config index world execution event next phase)
    (ready : phase = .loaded notification payload) : event = .load ∧ execution.phase = .received ∧
      ∃ stored, world.row execution.notificationId = some stored ∧ notification = stored.val ∧
        validateDeliveryEligibility stored.val = .ok () := by
  cases moves with
  | load current =>
    obtain ⟨stored, present, same, eligible, _⟩ := afterLoad_eq_loaded.mp ready
    exact ⟨rfl, current, stored, present, same, eligible⟩
  | send | answer | providerRaises | openTransaction | increment | incrementRejected
  | incrementMissing
  | record | recordRejected | conclude | concludeRejected | concludeRaises | commit
  | interrupt => cases ready

/-- No step leads back to the state before the load. -/
theorem Moves.started (moves : Moves config index world execution event next phase) :
    phase ≠ .received := by
  cases moves with
  | load current =>
    unfold afterLoad
    split
    · simp
    · split
      · simp
      · split <;> simp
  | send | answer | providerRaises | openTransaction | increment | incrementRejected
  | incrementMissing
  | record | recordRejected | conclude | concludeRejected | concludeRaises | commit
  | interrupt => simp

end Delivery

namespace Engine

/-- The execution calls the provider at `front`, with the row it has loaded at `load`. -/
structure Delivers (config : Config) (events load front : List Event) (index : Nat)
    (start before : Engine)
    (id : Uuid) (stored : StoredNotification) : Prop where
  loads : ∃ loaded, Takes (system config) events load start (.worker index .load) loaded
  received : start.executions[index]? = some ⟨id, .received⟩
  row : start.world.row id = some stored
  sends : ∃ after, Takes (system config) events front before (.worker index .send) after
  earlier : load.length < front.length

/-- No call of the provider comes before the retry time of the row it was loaded from, and
none executes a retry that the scheduler has not claimed. -/
structure HonoursBackoff (config : Config) (events : List Event) : Prop where
  timely : ∀ front before after index id notification payload,
    Takes (system config) events front before (.worker index .send) after →
    before.executions[index]? = some ⟨id, .loaded notification payload⟩ →
    ∀ due ∈ notification.nextRetryAt, due ≤ before.world.clock
  claimed : ∀ load front index start before id stored cycle scheduler event after due,
    Delivers config events load front index start before id stored →
    Takes (system config) events cycle scheduler event after →
      Reschedules scheduler event after id due →
    cycle.length < load.length →
    ∃ middle claiming act finish now, Takes (system config) events middle claiming act finish ∧
      Claims claiming act id now ∧ cycle.length < middle.length ∧ middle.length < load.length

/-- No execution that calls the provider has loaded its row while a retry was scheduled in it. -/
def LoadsUnscheduled (config : Config) (events : List Event) : Prop :=
  ∀ load front index start before id stored,
    Delivers config events load front index start before id stored → stored.val.nextRetryAt = none

variable {config : Config} {engine before after start : Engine} {event : Event}
variable {events load front : List Event} {index : Nat} {id : Uuid} {due : Time}
    {stored : StoredNotification}

/-- A loaded notification is the row its execution found, and that row was eligible. -/
theorem run_loaded {notification : Notification} {payload : EmailPayload}
    (run : Run (system config) Any events engine)
    (found : engine.executions[index]? = some ⟨id, .loaded notification payload⟩) :
    ∃ load start loaded stored,
      Takes (system config) events load start (.worker index .load) loaded ∧
      start.executions[index]? = some ⟨id, .received⟩ ∧ start.world.row id = some stored ∧
      notification = stored.val ∧ Delivery.validateDeliveryEligibility stored.val = .ok () := by
  induction run with
  | start => simp [system, init] at found
  | @step events before event after earlier permitted taken ih =>
    have moves : Moves config before event after := step_moves taken
    rcases moves.execution_cases found with kept | ⟨_, fresh, _⟩
      | ⟨current, _, rfl, entry, named, stepped⟩
    · obtain ⟨load, start, loaded, stored, takes, rest⟩ := ih kept
      exact ⟨load, start, loaded, stored, takes.extend _, rest⟩
    · cases fresh
    · obtain ⟨rfl, received, stored, present, same, eligible⟩ := stepped.loads rfl
      obtain ⟨target, phase⟩ := current
      obtain rfl : phase = .received := received
      obtain rfl : id = target := named
      exact ⟨events, before, after, stored, .last earlier taken, entry, present, same, eligible⟩

/-- An execution that has taken a step has left the state before its load. -/
theorem started_kept {acting : Delivery.Event} {finish : Engine}
    (taken : Takes (system config) events front before (.worker index acting) after)
    (run : Run (system config) Any events finish) :
    ∃ execution, finish.executions[index]? = some execution ∧ execution.phase ≠ .received := by
  obtain ⟨back, split⟩ := taken.split
  have grouped : events = (front ++ [.worker index acting]) ++ back := by simp [split]
  apply run.keeps grouped taken.run
  · have moves : Moves config before (.worker index acting) after := step_moves taken.taken
    cases moves with
    | worker found moves => exact ⟨_, Processes.set_self found, moves.started⟩
  · intro _ middle event next _ held _ stepped
    obtain ⟨execution, found, started⟩ := held
    rcases (step_moves stepped).execution_next found with kept | ⟨_, phase, _, moves, present⟩
    · exact ⟨execution, kept, started⟩
    · exact ⟨_, present, moves.started⟩

/-- An execution loads its row once, before anything else. -/
theorem load_first {acting : Delivery.Event}
    (other : Takes (system config) events front before (.worker index acting) after)
    (second : Takes (system config) events load start (.worker index .load) engine)
    (received : start.executions[index]? = some ⟨id, .received⟩) : load.length ≤ front.length := by
  by_contra beyond
  obtain ⟨execution, found, started⟩ := started_kept (other.within second (by omega)) second.reached
  obtain rfl := Option.some.inj (found.symm.trans received)
  exact started rfl

/-- After `schedule_retry` the row waits for its retry, or has been claimed, or has ended. -/
theorem run_claimed (run : Run (system config) Any events engine)
    (cycle : Takes (system config) events front before event after)
    (reschedules : Reschedules before event after id due) :
    (∃ middle claiming act finish now, Takes (system config) events middle claiming act finish ∧
        Claims claiming act id now ∧ front.length < middle.length) ∨
      ∃ stored, engine.world.row id = some stored ∧
        (stored.val.nextRetryAt.isSome = true ∨ stored.val.state.terminal = true) := by
  induction run with
  | start => cases cycle.length_lt
  | @step events state next final earlier permitted taken ih =>
    have sound := run_sound earlier
    have moves : Moves config state next final := step_moves taken
    rcases cycle.of_concat earlier with inner | ⟨rfl, rfl, rfl⟩
    · rcases ih inner with ⟨middle, claiming, act, finish, now, claim, rest⟩
        | ⟨stored, present, waits⟩
      · exact .inl ⟨middle, claiming, act, finish, now, claim.extend _, rest⟩
      · rcases moves.row_change sound id with same | ⟨_, _, base, rows, published⟩
        · exact .inr ⟨stored, same.trans present, waits⟩
        · rw [present] at base
          cases published with
          | create => cases base
          | queue found current names fresh written =>
            cases base
            refine .inr ⟨_, rows, .inl ?_⟩
            have created : stored.val.state = .created := by simpa [awaitsQueueing] using fresh
            simpa [written, markQueued, created, NotificationState.terminal] using waits
          | deliver found current names known persisted =>
            refine .inr ⟨_, rows, ?_⟩
            rcases Lifecycle.delivered_state persisted with
              ⟨_, sent, _⟩ | ⟨_, _, failed, _⟩ | ⟨_, _, _, _, scheduled⟩
            · simp [sent, NotificationState.terminal]
            · simp [failed, NotificationState.terminal]
            · simp [scheduled]
          | claim found member matched written =>
            left
            have named := ((moves.sound sound).world.keyed id _ rows).1
            refine ⟨events, state, _, final, _, .last earlier taken, ⟨_, _, _, _, rfl, found, ?_⟩,
              inner.length_lt⟩
            rw [← named]
            exact List.mem_map_of_mem member
    · obtain rfl := Option.some.inj (cycle.taken.symm.trans taken)
      obtain ⟨stored, present, waits⟩ := reschedules.scheduled
      exact .inr ⟨stored, present, .inl (by simp [waits])⟩

/-- The row an execution sends was eligible when it was loaded. -/
theorem Delivers.eligible
    (delivers : Delivers config events load front index start before id stored) :
    Delivery.validateDeliveryEligibility stored.val = .ok () := by
  obtain ⟨_, loads⟩ := delivers.loads
  obtain ⟨after, sends⟩ := delivers.sends
  have moves : Moves config before (.worker index .send) after := step_moves sends.taken
  cases moves with
  | @worker _ execution _ _ _ found moves =>
    cases moves with
    | send current =>
      obtain ⟨target, phase⟩ := execution
      obtain rfl : phase = _ := current
      obtain ⟨first, begun, _, read, once, received, present, _, eligible⟩ :=
        run_loaded sends.reached found
      have one := load_first (loads.within sends delivers.earlier) once received
      have two := load_first once (loads.within sends delivers.earlier) delivers.received
      obtain ⟨_, rfl, _, _⟩ := once.unique (loads.within sends delivers.earlier)
        (Nat.le_antisymm one two)
      obtain rfl : target = id := congrArg Delivery.Execution.notificationId
        (Option.some.inj (received.symm.trans delivers.received))
      obtain rfl := Option.some.inj (present.symm.trans delivers.row)
      exact eligible

theorem backoff_honoured_iff (config : Config) (events : List Event) :
    HonoursBackoff config events ↔ LoadsUnscheduled config events := by
  constructor
  · intro honours load front index start before id stored delivers
    cases waits : stored.val.nextRetryAt with
    | none => rfl
    | some due =>
      obtain ⟨_, loads⟩ := delivers.loads
      obtain ⟨cycle, awaits⟩ := run_awaits loads.reached ⟨stored, delivers.row, waits⟩
      obtain ⟨scheduler, event, after, scheduled, reschedules⟩ := awaits.scheduled
      obtain ⟨rest, split⟩ := loads.split
      obtain ⟨middle, claiming, act, finish, now, claim, claims, beyond, before'⟩ :=
        honours.claimed load front index start before id stored cycle scheduler event after due
          delivers
          (split ▸ scheduled.extend _) reschedules scheduled.length_lt
      exact absurd claims (awaits.unclaimed middle claiming act finish now
        (claim.within loads before') beyond)
  · intro unscheduled
    constructor
    · intro front before after index id notification payload sends found due waits
      obtain ⟨load, start, loaded, stored, loads, received, present, rfl, _⟩ :=
        run_loaded sends.reached found
      obtain ⟨rest, split⟩ := sends.split
      have none' := unscheduled load front index start before id stored
        ⟨⟨loaded, split ▸ loads.extend _⟩, received, present, ⟨after, sends⟩, loads.length_lt⟩
      simp [none'] at waits
    · intro load front index start before id stored cycle scheduler event after due delivers
        scheduled
        reschedules beyond
      obtain ⟨_, loads⟩ := delivers.loads
      obtain ⟨rest, split⟩ := loads.split
      rcases run_claimed loads.reached (scheduled.within loads beyond) reschedules with
        ⟨middle, claiming, act, finish, now, claim, claims, later⟩ | ⟨row, present, waits⟩
      · exact ⟨middle, claiming, act, finish, now, split ▸ claim.extend _, claims, later,
          claim.length_lt⟩
      · obtain rfl := Option.some.inj (present.symm.trans delivers.row)
        have open' := (Delivery.validateDeliveryEligibility_ok.mp delivers.eligible).1
        have none' := unscheduled load front index start before id row delivers
        simp [none', open'] at waits

/-- A temporary failure with a retry thirty seconds later, and the row loaded again from a
redelivered message before that. -/
def loadsEarly : List Event :=
  submits 0 7 ++ queues 0 ++ [.consume .email 0, .redeliver 7] ++ sends 0 .temporaryFailure ++
    [.worker 0 .openTransaction, .worker 0 .increment, .worker 0 .record,
      .worker 0 (.conclude 0 30),
      .worker 0 .commit, .worker 1 .load]

/-- The row that an execution has loaded is not due yet. -/
private def earlyIn (engine : Engine) : Bool :=
  match (engine.executions[1]? : Option Delivery.Execution) with
  | some ⟨_, .loaded notification _⟩ => notification.nextRetryAt.any fun due =>
      engine.world.clock < due
  | _ => false

theorem redelivery_beats_backoff : ∃ engine,
    Run (system sampleConfig) Any (loadsEarly ++ [.worker 1 .send]) engine ∧
      ¬ HonoursBackoff sampleConfig (loadsEarly ++ [.worker 1 .send]) := by
  obtain ⟨before, reached, early⟩ :=
    Run.exists_of_execute (system sampleConfig) Any loadsEarly earlyIn (by decide +kernel)
  obtain ⟨engine, run, _⟩ :=
    Run.exists_of_execute (system sampleConfig) Any (loadsEarly ++ [.worker 1 .send])
    (fun engine => engine.world.calls.length = 2) (by decide +kernel)
  refine ⟨engine, run, ?_⟩
  intro honours
  obtain ⟨start, after, sends⟩ := run.takes
    (show loadsEarly ++ [.worker 1 .send] = loadsEarly ++ .worker 1 .send :: [] from rfl)
  obtain rfl := sends.reached.unique reached
  unfold earlyIn at early
  split at early
  · rename_i id notification payload found
    obtain ⟨due, scheduled, later⟩ := (Option.any_eq_true _ _).mp early
    have passed := honours.timely loadsEarly start after 1 id notification payload sends found due
      scheduled
    simp only [decide_eq_true_eq] at later
    exact absurd passed (Nat.not_le.mpr later)
  · cases early

end Engine

end Relays
