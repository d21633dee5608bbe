import Relays.Engine.Refinement

/-! Every result of the provider is on record, waits in an execution for its
transaction, or was discarded with a transaction that was refused. -/

namespace Relays

open ReadCommitted Transition

namespace Delivery

/-- The provider has answered and the transaction has not ended. -/
def Phase.carries : Phase → Bool
  | .answered _ _ | .opened _ | .incremented _ _ | .recorded _ _ | .concluded _ _ => true
  | .received | .loaded _ _ | .sending _ | .ended _ => false

/-- The transaction was rolled back, and the result with it. -/
def Phase.discarded : Phase → Bool
  | .ended .rejected | .ended .raised => true
  | _ => false

/-- The next statement of the transaction is not refused: an attempt is left, the columns of the
attempt can hold the result, a sent row or a due time before its creation meets no failed result,
and the due time has a date. -/
def Accepts (world : World) (execution : Execution) (event : Event) : Prop :=
  ∀ stored, world.row execution.notificationId = some stored →
    match execution.phase, event with
    | .opened _, .increment => stored.val.attemptCount < stored.val.maxAttempts
    | .incremented persist _, .record => persist.result.storable = true
    | .recorded persist _, .conclude workerNow delay =>
      (stored.val.state = .sent → persist.result.status = .success) ∧
        (persist.result.status = .temporaryFailure →
          stored.val.attemptCount + 1 < stored.val.maxAttempts →
          stored.val.createdAt ≤ workerNow + seconds delay ∧
            workerNow + seconds delay ≤ datetimeMax)
    | _, _ => True

variable {config : Config} {index : Nat} {world next : World} {execution : Execution}
variable {event : Event} {phase : Phase} {persist : Persist} {attemptNumber delay : Nat}
variable {workerNow : Time} {stored version : StoredNotification}
    {change : Notification → Notification}

/-- The update that concludes a transaction passes the constraints of the counted row. -/
theorem concludingUpdate_checks_iff (counted : version.val =
    incrementAttemptCount persist.now stored.val)
    (began : stored.val.createdAt ≤ persist.now)
    (numbered : attemptNumber = stored.val.attemptCount + 1)
    (known : persist.notification.maxAttempts = stored.val.maxAttempts)
    (chosen : concludingUpdate persist attemptNumber workerNow delay = some change) :
    (change version.val).Checks ↔ (stored.val.state = .sent → persist.result.status = .success) ∧
      (persist.result.status = .temporaryFailure →
        stored.val.attemptCount + 1 < stored.val.maxAttempts →
        stored.val.createdAt ≤ workerNow + seconds delay) := by
  have state : version.val.state = stored.val.state := by rw [counted]; rfl
  have created : version.val.createdAt = stored.val.createdAt := by rw [counted]; rfl
  rcases concludingUpdate_cases chosen with ⟨success, rfl⟩ | ⟨failure, error, rfl⟩
    | ⟨failure, room, _, rfl⟩
  · simp [markSent_checks_iff version.property, created, began, success]
  · rw [markFailed_checks_iff version.property, state, created]
    rcases failure with failure | ⟨failure, exhausted⟩
    · simp [failure, began]
    · rw [known, numbered] at exhausted
      simp [failure, began, Nat.not_lt.mpr exhausted]
  · rw [known, numbered] at room
    rw [scheduleRetry_checks_iff version.property, state, created]
    simp [failure, room, began]

/-- The row a transaction has counted, with what the execution knows of it. -/
theorem counted_facts (valid : Valid index world execution)
    (current : execution.phase = .recorded persist attemptNumber) :
    ∃ stored version, world.row execution.notificationId = some stored ∧
      (world.notifications execution.notificationId).view (.worker index) = some version ∧
      version.val = incrementAttemptCount persist.now stored.val ∧
        stored.val.createdAt ≤ persist.now ∧
      attemptNumber = stored.val.attemptCount + 1 ∧
      persist.notification.maxAttempts = stored.val.maxAttempts := by
  obtain ⟨_, ⟨stored, version, holds, written, numbered⟩, _⟩ :=
    valid.recorded persist attemptNumber current
  obtain ⟨base, present, known⟩ :=
    valid.snapshot persist.notification (by simp [current, Phase.snapshot])
  obtain rfl := Option.some.inj (holds.row.symm.trans present)
  have began := valid.began persist (by simp [current, Phase.transaction])
  rw [Notification.createdAt_eq known] at began
  exact ⟨stored, version, holds.row, Cell.view_of_pending holds.pending, written, began, numbered,
    Notification.maxAttempts_eq known⟩

private theorem opened_facts (valid : Valid index world execution)
    (current : execution.phase = .opened persist) :
    ∃ stored, world.row execution.notificationId = some stored ∧
      (world.notifications execution.notificationId).view (.worker index) = some stored ∧
      stored.val.createdAt ≤ persist.now := by
  have idle := valid.idle (by simp [current, Phase.writing])
  obtain ⟨stored, present, known⟩ :=
    valid.snapshot persist.notification (by simp [current, Phase.snapshot])
  have began := valid.began persist (by simp [current, Phase.transaction])
  rw [Notification.createdAt_eq known] at began
  exact ⟨stored, present, by rw [World.view_of_idle idle.notifications]; exact present, began⟩

/-- A statement that is refused ends the execution with its result discarded. -/
theorem Moves.discards (moves : Moves config index world execution event next phase)
    (valid : Valid index world execution) (refused : ¬ Accepts world execution event) :
    phase.discarded = true := by
  cases moves with
  | incrementRejected | incrementMissing | recordRejected | concludeRejected | concludeRaises => rfl
  | @increment persist _ counted current done =>
    obtain ⟨stored, present, seen, _⟩ := opened_facts valid current
    obtain ⟨read, _, found, _, written, _⟩ := World.updateNotification_returns done
    obtain rfl := Option.some.inj (seen.symm.trans found)
    refine absurd ?_ refused
    intro other again
    obtain rfl := Option.some.inj (present.symm.trans again)
    have checks := counted.property
    rw [written] at checks
    simpa only [current] using ((incrementAttemptCount_checks_iff stored.property).mp checks).1
  | @conclude persist attemptNumber delay workerNow change _ updated current drawn chosen done =>
    obtain ⟨stored, version, present, seen, counted, began, numbered, known⟩ :=
      counted_facts valid current
    cases updated with
    | none =>
      have missed := (World.updateNotification_returns_none done).2 version seen
      cases missed
    | some final =>
      obtain ⟨read, _, found, _, written, _⟩ := World.updateNotification_returns done
      obtain rfl := Option.some.inj (seen.symm.trans found)
      refine absurd ?_ refused
      intro other again
      obtain rfl := Option.some.inj (present.symm.trans again)
      have checks := final.property
      rw [written] at checks
      have dated := (concludingUpdate_isSome_iff (by omega)).mp ⟨change, chosen⟩
      obtain ⟨unsent, due⟩ :=
        (concludingUpdate_checks_iff counted began numbered known chosen).mp checks
      simp only [current]
      refine ⟨unsent, fun failure room => ⟨due failure room, dated failure ?_⟩⟩
      rw [numbered, known]
      exact room
  | record current done =>
    refine absurd ?_ refused
    intro stored present
    have storable := World.insertAttempt_storable done
    rw [recordDeliveryAttempt_storable] at storable
    simpa only [current] using storable
  | load | send | answer | providerRaises | openTransaction | commit | interrupt =>
    refine absurd ?_ refused
    intro stored present
    cases execution.phase <;> exact trivial

/-- Accepted statements discard nothing: the numbers of the ledger leave no conflict. -/
theorem Moves.keeps_result (moves : Moves config index world execution event next phase)
    (valid : Valid index world execution)
    (ledger : (world.lifecycle execution.notificationId).Ledger execution.notificationId)
    (accepted : Accepts world execution event) : phase.discarded = false := by
  cases moves with
  | send | answer | providerRaises | openTransaction | increment | record | conclude | commit
  | interrupt => rfl
  | load current =>
    unfold afterLoad
    split
    · rfl
    · split
      · rfl
      · split <;> rfl
  | incrementRejected current failed =>
    obtain ⟨stored, present, seen, began⟩ := opened_facts valid current
    obtain ⟨read, found, _, rejected⟩ := World.updateNotification_violates failed
    obtain rfl := Option.some.inj (seen.symm.trans found)
    have room : stored.val.attemptCount < stored.val.maxAttempts := by
      simpa only [current] using accepted stored present
    exact absurd ((incrementAttemptCount_checks_iff stored.property).mpr ⟨room, began⟩) rejected
  | incrementMissing current missed =>
    obtain ⟨stored, _, seen, _⟩ := opened_facts valid current
    have unmatched := (World.updateNotification_returns_none missed).2 stored seen
    cases unmatched
  | @recordRejected persist attemptNumber current failed =>
    obtain ⟨⟨stored, version, holds, _, numbered⟩, own⟩ :=
      valid.incremented persist attemptNumber current
    obtain ⟨_, _, sequence⟩ := ledger
    have numbers := sequence stored holds.row
    rcases World.insertAttempt_violates own failed with unstorable | low
      | ⟨other, member, named, same⟩
    · have storable := accepted stored holds.row
      simp only [current] at storable
      rw [recordDeliveryAttempt_storable, storable] at unstorable
      cases unstorable
    · simp [recordDeliveryAttempt, numbered] at low
    · have listed : other.attemptNumber ∈ List.range' 1 stored.val.attemptCount := by
        rw [← numbers]
        apply List.mem_map_of_mem
        have target : other.notificationId = execution.notificationId := named
        simp [World.lifecycle, member, target]
      simp only [recordDeliveryAttempt] at same
      rw [same, numbered, List.mem_range'_1] at listed
      omega
  | @concludeRejected persist attemptNumber delay workerNow change current drawn chosen failed =>
    obtain ⟨stored, version, present, seen, counted, began, numbered, known⟩ :=
      counted_facts valid current
    obtain ⟨read, found, _, rejected⟩ := World.updateNotification_violates failed
    obtain rfl := Option.some.inj (seen.symm.trans found)
    have allowed := accepted stored present
    simp only [current] at allowed
    exact absurd ((concludingUpdate_checks_iff counted began numbered known chosen).mpr
      ⟨allowed.1, fun failure room => (allowed.2 failure room).1⟩) rejected
  | @concludeRaises persist attemptNumber workerNow delay current raised =>
    obtain ⟨stored, _, present, _, _, _, numbered, known⟩ := counted_facts valid current
    have allowed := accepted stored present
    simp only [current] at allowed
    have dated : persist.Dated attemptNumber workerNow delay := by
      intro failure room
      rw [numbered, known] at room
      exact (allowed.2 failure room).2
    obtain ⟨change, chosen⟩ := concludingUpdate_isSome (by omega) dated
    rw [raised] at chosen
    cases chosen

/-- The execution has a result of this notification that is not on record. -/
def unrecorded (id : Uuid) (execution : Execution) : Bool :=
  decide (execution.notificationId = id) && (execution.phase.carries || execution.phase.discarded)

/-- A step that leaves the logs, the ledger and the result of the execution alone. -/
private theorem accounts_of_quiet {id : Uuid} (results : next.results = world.results)
    (view : next.lifecycle id = world.lifecycle id)
    (same : (phase.carries || phase.discarded) =
      (execution.phase.carries || execution.phase.discarded)) :
    next.results.countP (fun result => result.notificationId = id) +
      (world.lifecycle id).attempts.length +
        (if unrecorded id execution then 1 else 0) =
      world.results.countP (fun result => result.notificationId = id) +
        (next.lifecycle id).attempts.length +
        (if unrecorded id { execution with phase := phase } then 1 else 0) := by
  have held : unrecorded id { execution with phase := phase } = unrecorded id execution := by
    simp [unrecorded, same]
  rw [results, view, held]

/-- A step moves a result from the provider to the execution or from there to the
ledger, and loses none. -/
theorem Moves.accounts (moves : Moves config index world execution event next phase)
    (valid : Valid index world execution) (running : event ≠ .interrupt) (id : Uuid) :
    next.results.countP (fun result => result.notificationId = id) +
      (world.lifecycle id).attempts.length +
        (if unrecorded id execution then 1 else 0) =
      world.results.countP (fun result => result.notificationId = id) +
        (next.lifecycle id).attempts.length +
        (if unrecorded id { execution with phase := phase } then 1 else 0) := by
  cases moves with
  | load current =>
    apply accounts_of_quiet rfl rfl
    rw [current]
    unfold afterLoad
    split
    · rfl
    · split
      · rfl
      · split <;> rfl
  | send current | providerRaises current | openTransaction current =>
    exact accounts_of_quiet rfl rfl (by rw [current]; rfl)
  | @answer notification result current =>
    have silent : unrecorded id execution = false := by
      simp [unrecorded, current, Phase.carries, Phase.discarded]
    have same : World.lifecycle { world with
        results := world.results ++ [⟨index, execution.notificationId, result.status⟩] } id =
      world.lifecycle id := rfl
    rw [silent, same]
    by_cases own : execution.notificationId = id
    · simp [unrecorded, own, Phase.carries]
      omega
    · simp [unrecorded, own]
  | increment current done | conclude current _ _ done =>
    have silent := World.Silent.updateNotification done
    exact accounts_of_quiet silent.results (silent.lifecycle id) (by rw [current]; rfl)
  | record current done =>
    have silent := World.Silent.insertAttempt done
    exact accounts_of_quiet silent.results (silent.lifecycle id) (by rw [current]; rfl)
  | incrementRejected current | incrementMissing current | recordRejected current
  | concludeRejected current | concludeRaises current =>
    exact accounts_of_quiet rfl (World.lifecycle_rollback _ _ _) (by rw [current]; rfl)
  | commit current =>
    obtain ⟨_, _, _, _, _, _, _, _, published, others⟩ := valid.commit current
    have same : (world.commit (.worker index)).results = world.results := rfl
    rw [same]
    by_cases own : execution.notificationId = id
    · subst own
      rw [published]
      simp [unrecorded, current, Phase.carries, Phase.discarded]
      omega
    · rw [others id (Ne.symm own)]
      simp [unrecorded, own]
  | interrupt => exact absurd rfl running

end Delivery

namespace Engine

/-- Every result is on record or still with its execution. -/
def Accounted (engine : Engine) : Prop :=
  ∀ id, engine.world.results.countP (fun result => result.notificationId = id) =
    (engine.world.lifecycle id).attempts.length + engine.executions.countP (Delivery.unrecorded id)

variable {config : Config} {engine after before : Engine} {event : Event} {events : List Event}

theorem Moves.accounted (moves : Moves config engine event after) (sound : Sound config engine)
    (running : CrashFree engine event) (accounted : Accounted engine) : Accounted after := by
  intro id
  have earlier := accounted id
  cases moves with
  | tick | post | beat => exact earlier
  | consume | redeliver =>
    have silent (other : Uuid) : Delivery.unrecorded id ⟨other, .received⟩ = false := by
      simp [Delivery.unrecorded, Delivery.Phase.carries, Delivery.Phase.discarded]
    rw [List.countP_append, List.countP_singleton, silent]
    exact earlier
  | request found moves =>
    have kept := (Moves.request found moves).ledger_kept sound (by simp) id
    rw [moves.logs.1, kept]
    exact earlier
  | scheduler found moves =>
    have kept := (Moves.scheduler found moves).ledger_kept sound (by simp) id
    rw [moves.logs.1, kept]
    exact earlier
  | @worker index execution event next phase found moves =>
    have moved := moves.accounts (sound.worker found) (by rintro rfl; exact running) id
    have counted := Processes.countP_set (Delivery.unrecorded id)
      { execution with phase := phase } found
    simp only
    omega

variable {front back : List Event} {middle : Engine}

theorem run_accounted (run : Run (system config) CrashFree events engine) : Accounted engine := by
  apply run.invariant
  · intro id
    rfl
  · intro events before event after earlier accounted running taken
    exact (step_moves taken).accounted (run_sound earlier) running accounted

/-- The next statement of every transaction is not refused. -/
def PersistsAccepted (engine : Engine) (event : Event) : Prop :=
  ∀ index statement execution, event = .worker index statement →
    engine.executions[index]? = some execution → Delivery.Accepts engine.world execution statement

/-- Every result the provider returned is on record, and counted by its row. -/
def AllRecorded (engine : Engine) : Prop :=
  ∀ id stored, engine.world.row id = some stored →
    (engine.world.attempts.committed.filter fun attempt => attempt.notificationId = id).length =
        engine.world.results.countP (fun result => result.notificationId = id) ∧
      stored.val.attemptCount =
        engine.world.results.countP (fun result => result.notificationId = id)

/-- Nothing is discarded in a run whose transactions are all accepted. -/
theorem run_discards_nothing {allowed : Engine → Event → Prop}
    (run : Run (system config) (fun before event => allowed before event ∧
      PersistsAccepted before event)
      events engine) :
    ∀ (index : Nat) (execution : Delivery.Execution), engine.executions[index]? = some execution →
      execution.phase.discarded = false := by
  apply run.invariant
  · intro index execution found
    simp [system, init] at found
  · intro events before event after earlier kept permitted taken index execution found
    rcases (step_moves taken).execution_cases found with present | ⟨_, rfl, _⟩
      | ⟨current, _, rfl, entry, _, moves⟩
    · exact kept index execution present
    · rfl
    · have valid := (run_sound earlier).worker entry
      have ledger := (run_lifecycle earlier current.notificationId).ledger
      exact moves.keeps_result valid ledger (permitted.2 _ _ _ rfl entry)

theorem discarded_ended {phase : Delivery.Phase} (discarded : phase.discarded = true) :
    ∃ ending, phase = .ended ending := by
  cases phase with
  | ended ending => exact ⟨ending, rfl⟩
  | _ => cases discarded

/-- A step that is refused leaves an execution with its result discarded. -/
theorem refused_discards (sound : Sound config before)
    (taken : step config before event = some after)
    (refused : ¬ PersistsAccepted before event) :
    ∃ (index : Nat) (id : Uuid) (ending : Delivery.Ending) (stored : StoredNotification),
      after.executions[index]? = some ⟨id, .ended ending⟩ ∧
      (Delivery.Phase.ended ending).discarded = true ∧ before.world.row id = some stored := by
  unfold PersistsAccepted at refused
  push Not at refused
  obtain ⟨index, statement, execution, rfl, found, rejected⟩ := refused
  have row : ∃ stored, before.world.row execution.notificationId = some stored := by
    by_contra missing
    apply rejected
    intro stored present
    exact absurd ⟨stored, present⟩ missing
  obtain ⟨stored, present⟩ := row
  cases step_moves taken with
  | @worker _ current _ next phase entry moves =>
    obtain rfl := Option.some.inj (entry.symm.trans found)
    have discarded := moves.discards (sound.worker entry) rejected
    obtain ⟨ending, rfl⟩ := discarded_ended discarded
    exact ⟨index, current.notificationId, ending, stored, Processes.set_self entry, discarded,
      present⟩

/-- Once every execution has ended, the results are on record exactly when no
transaction was refused. -/
theorem all_recorded_iff (run : Run (system config) CrashFree events engine)
    (ended : ∀ execution ∈ engine.executions, ∃ ending, execution.phase = .ended ending) :
    AllRecorded engine ↔ ∀ front event back before, events = front ++ event :: back →
      Run (system config) CrashFree front before → PersistsAccepted before event := by
  have accounted := run_accounted run
  constructor
  · intro recorded front event back before split reached
    by_contra refused
    obtain ⟨_, after, again, running, taken⟩ := run.taken_at split
    obtain rfl := again.unique reached
    obtain ⟨index, id, ending, stored, found, discarded, present⟩ :=
      refused_discards (run_sound reached) taken refused
    have extended : events = (front ++ [event]) ++ back := by simp [split]
    have last := run_ended_kept run extended (reached.step running taken) found
    obtain ⟨final, committed, _⟩ := (run_extends run split reached).rows id stored present
    have balance := accounted id
    have lost : 0 < engine.executions.countP (Delivery.unrecorded id) := by
      rw [List.countP_pos_iff]
      exact ⟨_, List.mem_of_getElem? last, by simp [Delivery.unrecorded, discarded]⟩
    have same := (recorded id final committed).1
    simp only [World.lifecycle] at balance
    omega
  · intro accepted id stored found
    have restricted : Run (system config)
        (fun before event => CrashFree before event ∧
          PersistsAccepted before event) events engine := by
      apply run.restrict
      intro front event back before split reached
      exact accepted front event back before split reached
    have nothing : engine.executions.countP (Delivery.unrecorded id) = 0 := by
      rw [List.countP_eq_zero]
      intro execution member
      obtain ⟨index, entry⟩ := List.mem_iff_getElem?.mp member
      obtain ⟨ending, current⟩ := ended execution member
      have kept := run_discards_nothing restricted index execution entry
      rw [current] at kept
      simp [Delivery.unrecorded, current, Delivery.Phase.carries, kept]
    have balance := accounted id
    obtain ⟨_, _, numbered⟩ := (run_lifecycle run id).ledger
    have counted := congrArg List.length (numbered stored found)
    simp only [List.length_map, List.length_range'] at counted
    rw [nothing, Nat.add_zero] at balance
    exact ⟨balance.symm, counted.symm.trans balance.symm⟩

private theorem ended_of_endings {endings : List Delivery.Ending}
    (observed : engine.executions.map (fun execution => execution.phase.ending) =
      endings.map some) :
    ∀ execution ∈ engine.executions, ∃ ending, execution.phase = .ended ending := by
  intro execution member
  have listed : execution.phase.ending ∈ endings.map some := by
    rw [← observed]
    exact List.mem_map_of_mem member
  obtain ⟨ending, _, same⟩ := List.mem_map.mp listed
  exact ⟨ending, Delivery.Phase.ending_eq_some.mp same.symm⟩

theorem all_recorded_iff_delivered : ∃ engine,
    Run (system sampleConfig) CrashFree (deliversOnce .success) engine ∧
    (AllRecorded engine ↔ ∀ front event back before,
      deliversOnce .success = front ++ event :: back →
      Run (system sampleConfig) CrashFree front before → PersistsAccepted before event) := by
  obtain ⟨engine, run, endings, _⟩ := deliversOnce_succeeds
  have ended := ended_of_endings (show _ = [Delivery.Ending.delivered].map some from endings)
  exact ⟨engine, run, all_recorded_iff run ended⟩

/-- The provider answered twice, and one attempt is on record. -/
theorem stale_result_lost : ∃ engine, Run (system sampleConfig) CrashFree staleFailure engine ∧
    (∀ execution ∈ engine.executions, ∃ ending, execution.phase = .ended ending) ∧
      ¬ AllRecorded engine := by
  obtain ⟨engine, run, endings, counted, answered⟩ := staleFailure_rejected
  obtain ⟨stored, found, once⟩ := Option.map_eq_some_iff.mp counted
  have ended := ended_of_endings
    (show _ = [Delivery.Ending.delivered, .rejected].map some from endings)
  refine ⟨engine, run, ended, ?_⟩
  intro recorded
  have same := (recorded 7 stored found).2
  omega

end Engine

end Relays
