import Relays.Engine.Accounting
import Relays.Engine.Originals

/-! Whether an accepted notification can be delivered. The worker validates every payload
as that of an email, whatever the channel of the request it was accepted from. -/

namespace Relays

open ReadCommitted Transition

namespace Delivery

/-- Consecutive statements of one execution. -/
def statements (config : Config) (index : Nat) : World → Execution → List Event →
    Option (World × Execution)
  | world, execution, [] => some (world, execution)
  | world, execution, event :: rest =>
    match step config index world execution event with
    | none => none
    | some (next, phase) => statements config index next { execution with phase } rest

/-- The statements of `persist_delivery_result`. -/
def persisting (workerNow : Time) (delay : Nat) : List Event :=
  [.increment, .record, .conclude workerNow delay, .commit]

/-- The statements of `deliver_notification` when the provider answers. -/
def delivering (result : ProviderResult) (workerNow : Time) (delay : Nat) : List Event :=
  [.load, .send, .answer result, .openTransaction] ++ persisting workerNow delay

/-- The execution starts on this row, and no transaction is writing the notification. -/
structure Alone (index : Nat) (world : World) (id : Uuid) (stored : StoredNotification) : Prop where
  row : world.row id = some stored
  unlocked : (world.notifications id).pending = none
  idle : world.attempts.own (.worker index) = []
  uncounted : ∀ insert ∈ world.attempts.pending, insert.2.notificationId ≠ id
  ledger : (world.lifecycle id).Ledger id

variable {config : Config} {index : Nat} {world next : World} {id : Uuid}
    {stored version : StoredNotification}
variable {persist : Persist} {result : ProviderResult} {workerNow : Time} {delay : Nat}
variable {attempt : DeliveryAttempt} {payload : EmailPayload} {execution : Execution}
    {event : Event}

theorem statements_cons {events : List Event} {phase : Phase}
    (taken : step config index world execution event = some (next, phase)) :
    statements config index world execution (event :: events) =
      statements config index next { execution with phase } events := by
  simp [statements, taken]

theorem statements_stuck {events : List Event}
    (stuck : step config index world execution event = none) :
    statements config index world execution (event :: events) = none := by
  simp [statements, stuck]

/-- The number after the count of the row is free in the ledger. -/
theorem Alone.records (alone : Alone index world id stored) (storable : result.storable = true)
    (now : Time) (notifications : Table Uuid Party StoredNotification) :
    World.insertAttempt { world with notifications } (.worker index)
        (recordDeliveryAttempt now id (stored.val.attemptCount + 1) result) =
      .returns { world with
        notifications
        attempts.pending := world.attempts.pending ++
          [(.worker index,
            recordDeliveryAttempt now id (stored.val.attemptCount + 1) result)] } := by
  obtain ⟨_, _, numbered⟩ := alone.ledger
  generalize made : recordDeliveryAttempt now id (stored.val.attemptCount + 1) result = attempt
  have named : attempt.notificationId = id := by rw [← made]; rfl
  have next : attempt.attemptNumber = stored.val.attemptCount + 1 := by rw [← made]; rfl
  have accepted : attempt.storable = true := by rw [← made]; exact storable
  have inserted : world.attempts.insert (.worker index) attempt (fun other =>
      decide (other.notificationId = attempt.notificationId ∧
        other.attemptNumber = attempt.attemptNumber)) =
      .returns { world.attempts with
        pending := world.attempts.pending ++ [(.worker index, attempt)] } := by
    apply Heap.insert_of_free
    · intro other member
      by_cases same : other.notificationId = id
      · have listed : other.attemptNumber ∈ List.range' 1 stored.val.attemptCount := by
          rw [← numbered stored alone.row]
          exact List.mem_map_of_mem (by simp [World.lifecycle, member, same])
        obtain ⟨_, bound⟩ := List.mem_range'_1.mp listed
        simp only [next, decide_eq_false_iff_not, not_and]
        omega
      · simp [named, same]
    · intro insert member
      simp [named, alone.uncounted insert member]
  have positive : ¬ attempt.attemptNumber < 1 := by omega
  simp only [World.insertAttempt, accepted, Bool.true_eq_false, positive, ↓reduceIte, inserted]

private theorem Alone.free (alone : Alone index world id stored) :
    (world.notifications id).blocked (.worker index) = false ∧
      (world.notifications id).view (.worker index) = some stored := by
  refine ⟨Cell.blocked_eq_false.mpr (by simp [alone.unlocked]), ?_⟩
  rw [Cell.view_of_unowned (by simp [alone.unlocked])]
  exact alone.row

/-- The first statement, which takes the lock of the row. -/
private theorem Alone.increments (config : Config) (alone : Alone index world id stored)
    (checks : (incrementAttemptCount persist.now stored.val).Checks) :
    step config index world ⟨id, .opened persist⟩ .increment = some ({ world with
      notifications := world.notifications.write id (.worker index) (some ⟨_, checks⟩) },
        .incremented persist (stored.val.attemptCount + 1)) := by
  obtain ⟨free, seen⟩ := alone.free
  have updated : world.notifications.update id (.worker index) (fun _ => true)
      (fun row => store (incrementAttemptCount persist.now row.val)) =
      .returns (world.notifications.write id (.worker index) (some ⟨_, checks⟩),
        some ⟨_, checks⟩) :=
    Table.update_of_view free seen rfl (store_of_checks checks)
  unfold step
  simp only [World.updateNotification, updated]
  rfl

/-- The statements up to the update that concludes the transaction. -/
private theorem Alone.counts (config : Config) (alone : Alone index world id stored)
    (checks : (incrementAttemptCount persist.now stored.val).Checks)
    (storable : persist.result.storable = true) :
    ∃ middle, (∀ rest, statements config index world ⟨id, .opened persist⟩
          (.increment :: .record :: rest) =
        statements config index middle ⟨id, .recorded persist (stored.val.attemptCount + 1)⟩
          rest) ∧
      (middle.notifications id).pending = some (.worker index, some ⟨_, checks⟩) ∧
      middle.attempts = { world.attempts with
        pending := world.attempts.pending ++ [(.worker index,
          recordDeliveryAttempt persist.now id (stored.val.attemptCount + 1)
            persist.result)] } := by
  have recorded : step config index
      { world with
        notifications := world.notifications.write id (.worker index) (some ⟨_, checks⟩) }
      ⟨id, .incremented persist (stored.val.attemptCount + 1)⟩ .record = some ({ world with
        notifications := world.notifications.write id (.worker index) (some ⟨_, checks⟩)
        attempts.pending := world.attempts.pending ++ [(.worker index,
          recordDeliveryAttempt persist.now id (stored.val.attemptCount + 1) persist.result)] },
        .recorded persist (stored.val.attemptCount + 1)) := by
    unfold step
    simp only [alone.records storable]
  exact ⟨_, fun rest => (statements_cons (alone.increments config checks)).trans
    (statements_cons recorded), by simp, rfl⟩

/-- What the commit leaves: the ledger has gained the attempt, and nobody is writing the row. -/
private theorem Alone.committed (alone : Alone index world id stored)
    (persisted : persistDeliveryResult persist id workerNow delay stored = some (version, attempt))
    (known : persist.notification.maxAttempts = stored.val.maxAttempts)
    (held : (next.notifications id).pending = some (.worker index, some version))
    (attempts : next.attempts =
      { world.attempts with pending := world.attempts.pending ++ [(.worker index, attempt)] }) :
    Alone index (next.commit (.worker index)) id version ∧
      (next.commit (.worker index)).attempts.committed = world.attempts.committed ++ [attempt] := by
  have own : next.attempts.own (.worker index) = [attempt] := by
    rw [attempts, Heap.own_append, alone.idle, if_pos rfl, List.nil_append]
  have row : (next.commit (.worker index)).row id = some version := World.commit_row_of_pending held
  have ledger : (next.commit (.worker index)).attempts.committed =
      world.attempts.committed ++ [attempt] := by
    simp only [World.commit, Heap.commit, own]
    rw [attempts]
  refine ⟨⟨row, ?_, ?_, ?_, ?_⟩, ledger⟩
  · simp [World.commit, Table.commit_of_pending held]
  · simp [World.commit, Heap.own_commit]
  · intro insert member
    have kept : insert ∈ next.attempts.pending ∧ insert.1 ≠ .worker index := by
      simpa [World.commit, Heap.commit] using member
    rw [attempts] at kept
    rcases List.mem_append.mp kept.1 with earlier | added
    · exact alone.uncounted insert earlier
    · exact absurd (congrArg Prod.fst (List.mem_singleton.mp added)) kept.2
  · have named : attempt.notificationId = id := by
      obtain ⟨_, _, _, recorded⟩ := Lifecycle.delivered_counts persisted
      rw [recorded]
      rfl
    have view : (next.commit (.worker index)).lifecycle id =
        ⟨some version, (world.lifecycle id).attempts ++ [attempt]⟩ := by
      simp [World.lifecycle, row, ledger, named]
    have before : world.lifecycle id = ⟨some stored, (world.lifecycle id).attempts⟩ := by
      simp [World.lifecycle, alone.row]
    rw [view]
    exact (Lifecycle.Step.deliver known persisted).ledger (before ▸ alone.ledger)

/-- A transaction that runs alone commits what `persistDeliveryResult` computes. -/
theorem Alone.persists (alone : Alone index world id stored)
    (drawn : delay ≤ cappedDelay config (stored.val.attemptCount + 1))
    (known : persist.notification.maxAttempts = stored.val.maxAttempts)
    (persisted : persistDeliveryResult persist id workerNow delay stored =
      some (version, attempt)) :
    ∃ next, statements config index world ⟨id, .opened persist⟩ (persisting workerNow delay) =
        some (next, ⟨id, .ended .delivered⟩) ∧
      Alone index next id version ∧
        next.attempts.committed = world.attempts.committed ++ [attempt] := by
  obtain ⟨change, checks, storable, chosen, written, recorded⟩ :=
    persistDeliveryResult_eq_some.mp persisted
  obtain ⟨middle, counts, held, attempts⟩ := alone.counts config checks storable
  have updated : middle.notifications.update id (.worker index) (fun _ => true)
    (fun row => store (change row.val)) =
      .returns (middle.notifications.write id (.worker index) (some version), some version) :=
    Table.update_of_view (Cell.blocked_eq_false.mpr (by simp [held]))
      (Cell.view_of_pending held) rfl
      (store_eq_some.mpr written)
  have concluded : step config index middle ⟨id, .recorded persist (stored.val.attemptCount + 1)⟩
      (.conclude workerNow delay) = some ({ middle with
        notifications := middle.notifications.write id (.worker index) (some version) },
        .concluded persist (stored.val.attemptCount + 1)) := by
    unfold step
    simp only [Nat.not_lt.mpr drawn, ↓reduceIte, chosen, World.updateNotification, updated]
  refine ⟨World.commit { middle with
    notifications := middle.notifications.write id (.worker index) (some version) } (.worker index),
      ?_, ?_⟩
  · rw [persisting, counts, statements_cons concluded]
    rfl
  · exact alone.committed persisted known (by simp) (by rw [recorded]; exact attempts)

/-- The update that concludes a transaction is refused, or has no date to write. -/
private theorem Alone.unconcluded (alone : Alone index world id stored)
    (drawn : delay ≤ cappedDelay config (stored.val.attemptCount + 1))
    (checks : (incrementAttemptCount persist.now stored.val).Checks)
    (storable : persist.result.storable = true)
    (refused : persistDeliveryResult persist id workerNow delay stored = none) :
    statements config index world ⟨id, .opened persist⟩ (persisting workerNow delay) = none := by
  obtain ⟨middle, counts, held, _⟩ := alone.counts config checks storable
  have ended : ∃ next ending, step config index middle
      ⟨id, .recorded persist (stored.val.attemptCount + 1)⟩ (.conclude workerNow delay) =
        some (next, .ended ending) := by
    cases chosen : concludingUpdate persist (stored.val.attemptCount + 1) workerNow delay with
    | none =>
      exact ⟨_, _, by
        unfold step
        simp only [Nat.not_lt.mpr drawn, ↓reduceIte, chosen]
        rfl⟩
    | some change =>
      have rejected : store (change (incrementAttemptCount persist.now stored.val)) = none := by
        cases result : store (change (incrementAttemptCount persist.now stored.val)) with
        | none => rfl
        | some version =>
          have persisted : persistDeliveryResult persist id workerNow delay stored =
              some (version, _) := persistDeliveryResult_eq_some.mpr
            ⟨change, checks, storable, chosen, store_eq_some.mp result, rfl⟩
          simp [refused] at persisted
      have violates : middle.notifications.update id (.worker index) (fun _ => true)
          (fun row => store (change row.val)) = .violates :=
        Table.update_rejected (Cell.blocked_eq_false.mpr (by simp [held]))
          (Cell.view_of_pending held) rfl rejected
      exact ⟨_, _, by
        unfold step
        simp only [Nat.not_lt.mpr drawn, ↓reduceIte, chosen, World.updateNotification,
          violates]
        rfl⟩
  obtain ⟨next, ending, concluded⟩ := ended
  rw [persisting, counts, statements_cons concluded]
  exact statements_stuck rfl

/-- A transaction that runs alone and is refused has nothing to commit. -/
theorem Alone.refuses (alone : Alone index world id stored)
    (drawn : delay ≤ cappedDelay config (stored.val.attemptCount + 1))
    (refused : persistDeliveryResult persist id workerNow delay stored = none) :
    statements config index world ⟨id, .opened persist⟩ (persisting workerNow delay) = none := by
  by_cases checks : (incrementAttemptCount persist.now stored.val).Checks
  · by_cases storable : persist.result.storable = true
    · exact alone.unconcluded drawn checks storable refused
    · have unrecorded : (recordDeliveryAttempt persist.now id (stored.val.attemptCount + 1)
          persist.result).storable = false := by simpa using storable
      rw [persisting, statements_cons (alone.increments config checks), statements_cons (by
        unfold step
        simp only [World.insertAttempt, unrecorded, ↓reduceIte]
        rfl)]
      exact statements_stuck rfl
  · obtain ⟨free, seen⟩ := alone.free
    have violates : world.notifications.update id (.worker index) (fun _ => true)
        (fun row => store (incrementAttemptCount persist.now row.val)) = .violates :=
      Table.update_rejected free seen rfl (store_eq_none.mpr checks)
    have ended : step config index world ⟨id, .opened persist⟩ .increment =
        some (world.rollback (.worker index), .ended .rejected) := by
      unfold step
      simp only [World.updateNotification, violates]
    rw [persisting, statements_cons ended]
    exact statements_stuck rfl

/-- From the load of a row with an email payload to the open transaction. -/
private theorem Alone.opens (config : Config) (alone : Alone index world id stored)
    (eligible : validateDeliveryEligibility stored.val = .ok ())
    (decoded : EmailPayload.modelValidate stored.val.payload = some payload) :
    ∃ sent, (∀ rest, statements config index world ⟨id, .received⟩
          (.load :: .send :: .answer result :: .openTransaction :: rest) =
        statements config index sent ⟨id, .opened ⟨stored.val, result, world.clock⟩⟩ rest) ∧
      Alone index sent id stored ∧ sent.attempts = world.attempts := by
  have loaded : step config index world ⟨id, .received⟩ .load =
      some (world, .loaded stored.val payload) := by
    unfold step
    simp only [alone.row, afterLoad, eligible, decoded]
  refine ⟨{ world with
      calls := world.calls ++ [⟨index, id, payload⟩]
      results := world.results ++ [⟨index, id, result.status⟩] }, ?_, ?_, rfl⟩
  · intro rest
    rw [statements_cons loaded]
    rfl
  · exact ⟨alone.row, alone.unlocked, alone.idle, alone.uncounted, alone.ledger⟩

/-- A row with any other payload ends the execution before the provider is called. -/
private theorem Alone.stops (alone : Alone index world id stored)
    (undecoded : EmailPayload.modelValidate stored.val.payload = none) :
    statements config index world ⟨id, .received⟩ (delivering result workerNow delay) = none := by
  have ended : ∃ ending, step config index world ⟨id, .received⟩ .load =
      some (world, .ended ending) := by
    unfold step
    simp only [alone.row, afterLoad]
    split
    · exact ⟨_, rfl⟩
    · rw [undecoded]
      exact ⟨_, rfl⟩
  obtain ⟨ending, loaded⟩ := ended
  rw [delivering, List.cons_append, statements_cons loaded]
  exact statements_stuck rfl

/-- Run alone, an eligible row is only refused a result that its columns cannot hold, and a retry
before its creation or after the last date. -/
theorem persistDeliveryResult_isSome_iff
    (eligible : validateDeliveryEligibility stored.val = .ok ())
    (known : persist.notification = stored.val) (began : stored.val.createdAt ≤ persist.now) :
    (∃ version attempt, persistDeliveryResult persist id workerNow delay stored =
      some (version, attempt)) ↔
      persist.result.storable = true ∧
      (persist.result.status = .temporaryFailure →
        stored.val.attemptCount + 1 < stored.val.maxAttempts →
        stored.val.createdAt ≤ workerNow + seconds delay ∧
          workerNow + seconds delay ≤ datetimeMax) := by
  obtain ⟨open', room⟩ := validateDeliveryEligibility_ok.mp eligible
  have unsent : stored.val.state ≠ .sent := by
    intro sent
    simp [sent, NotificationState.terminal] at open'
  have checks := (incrementAttemptCount_checks_iff stored.property).mpr ⟨room, began⟩
  have accepted {change : Notification → Notification} (chosen :
      concludingUpdate persist (stored.val.attemptCount + 1) workerNow delay = some change) :
      (change (⟨_, checks⟩ : StoredNotification).val).Checks ↔ _ :=
    concludingUpdate_checks_iff rfl began rfl (by rw [known]) chosen
  constructor
  · rintro ⟨version, attempt, persisted⟩
    obtain ⟨change, _, storable, chosen, written, _⟩ := persistDeliveryResult_eq_some.mp persisted
    have due := ((accepted chosen).mp (written ▸ version.property)).2
    have dated := (concludingUpdate_isSome_iff (Nat.le_add_left 1 _)).mp ⟨change, chosen⟩
    exact ⟨storable, fun failure left =>
      ⟨due failure left, dated failure (by rw [known]; exact left)⟩⟩
  · rintro ⟨storable, due⟩
    have dated : persist.Dated (stored.val.attemptCount + 1) workerNow delay := by
      intro failure left
      rw [known] at left
      exact (due failure left).2
    obtain ⟨change, chosen⟩ := concludingUpdate_isSome (Nat.le_add_left 1 _) dated
    have stored' := (accepted chosen).mpr
      ⟨fun sent => absurd sent unsent, fun failure left => (due failure left).1⟩
    exact ⟨⟨_, stored'⟩, _,
      persistDeliveryResult_eq_some.mpr ⟨change, checks, storable, chosen, rfl, rfl⟩⟩

end Delivery

namespace Engine

/-- The execution, run alone, ends in the commit of `persist_delivery_result`: an attempt is
recorded, and the row is terminal or waits for a retry. -/
def Completes (config : Config) (engine : Engine) (index : Nat) (id : Uuid)
    (result : ProviderResult)
    (workerNow : Time) (delay : Nat) : Prop :=
  ∃ after next attempt, (system config).execute Any engine
      ((Delivery.delivering result workerNow delay).map (Event.worker index)) = some after ∧
    after.executions[index]? = some ⟨id, .ended .delivered⟩ ∧
    after.world.row id = some next ∧
      (next.val.state.terminal = true ∨ next.val.nextRetryAt.isSome = true) ∧
    after.world.attempts.committed = engine.world.attempts.committed ++ [attempt] ∧
    attempt.notificationId = id ∧ attempt.status = result.status

/-- The payload validated from the row is the accepted one. -/
def Restores (stored : StoredNotification) (accepted : NotificationPayload) : Prop :=
  (EmailPayload.modelValidate stored.val.payload).map NotificationPayload.email = some accepted

/-- An execution is about to load the eligible row of an accepted request, and no transaction
is writing that notification. -/
structure Starting (engine : Engine) (place index : Nat) (request : Submission.Request)
    (accepted : Notification) (stored : StoredNotification) : Prop where
  requested : engine.requests[place]? = some request
  created : request.phase.original = some accepted
  received : engine.executions[index]? = some ⟨accepted.id, .received⟩
  row : engine.world.row accepted.id = some stored
  eligible : Delivery.validateDeliveryEligibility stored.val = .ok ()
  unlocked : (engine.world.notifications accepted.id).pending = none
  uncounted : ∀ insert ∈ engine.world.attempts.pending, insert.2.notificationId ≠ accepted.id

variable {config : Config} {engine after : Engine} {events : List Event}
    {allowed : Engine → Event → Prop}
variable {place index : Nat} {request : Submission.Request} {accepted : Notification}
variable {stored : StoredNotification} {result : ProviderResult} {workerNow : Time} {delay : Nat}
variable {execution : Delivery.Execution}

/-- Consecutive steps of one worker are the statements of its execution. -/
theorem execute_worker (found : engine.executions[index]? = some execution)
    (events : List Delivery.Event) :
    (system config).execute Any engine (events.map (Event.worker index)) =
      (Delivery.statements config index engine.world execution events).map fun last =>
        { engine with world := last.1, executions := engine.executions.set index last.2 } := by
  induction events generalizing engine execution with
  | nil =>
    obtain ⟨bound, rfl⟩ := List.getElem?_eq_some_iff.mp found
    simp [System.execute, Delivery.statements]
  | cons event rest ih =>
    rw [List.map_cons, System.execute, if_pos (show Any engine _ from trivial), Delivery.statements]
    simp only [system, step, found]
    cases taken : Delivery.step config index engine.world execution event with
    | none => rfl
    | some next =>
      have later : (system config).execute Any { engine with
          world := next.1, executions :=
            engine.executions.set index { execution with phase := next.2 } }
          (rest.map (Event.worker index)) = _ := ih (Processes.set_self found)
      simpa only [system, List.set_set] using later

/-- An original holds the notification it has made. -/
theorem run_original_made (run : Run (system config) allowed events engine)
    (found : engine.requests[place]? = some request)
    (created : request.phase.original = some accepted) :
    ∃ now, accepted = Submission.newNotification request.arguments now accepted.id := by
  induction run generalizing request with
  | start => simp [system, init] at found
  | @step events before event after earlier permitted taken ih =>
    have moves : Moves config before event after := step_moves taken
    rcases moves.request_cases found with kept | ⟨_, _, rfl⟩ | ⟨current, _, rfl, entry, same, moves⟩
    · exact ih kept created
    · simp [Submission.Phase.original, Submission.Phase.returned] at created
    · rw [same]
      rcases moves.original with kept | ⟨notification, completed, rfl, committed⟩
      · exact ih entry (kept.symm.trans created)
      · rw [committed] at created
        obtain rfl : notification = accepted := Option.some.inj created
        exact (((run_sound earlier).request entry).completed _ completed).2.made

/-- The row of an original holds the dump of its payload. -/
theorem run_original_payload (run : Run (system config) allowed events engine)
    (found : engine.requests[place]? = some request)
    (created : request.phase.original = some accepted)
    (present : engine.world.row accepted.id = some stored) :
    stored.val.payload = request.arguments.request.payload.modelDump := by
  obtain ⟨now, made⟩ := run_original_made run found created
  obtain ⟨_, row, same, known⟩ :=
    ((run_sound run).request found).settled accepted (Submission.Phase.settled_of_original created)
  obtain rfl := Option.some.inj (same.symm.trans present)
  rw [← Notification.payload_eq known, made]
  rfl

/-- Only the payload of an email is read back. -/
theorem restores_iff (payload : NotificationPayload)
    (dumped : stored.val.payload = payload.modelDump) :
    Restores stored payload ↔ ∃ email, payload = .email email := by
  unfold Restores
  rw [dumped]
  cases payload with
  | email payload => simp [NotificationPayload.modelDump, payload.modelValidate_modelDump]
  | sms payload => simp [NotificationPayload.modelDump, EmailPayload.modelValidate]
  | webhook payload => simp [NotificationPayload.modelDump, EmailPayload.modelValidate]

theorem Starting.alone (starting : Starting engine place index request accepted stored)
    (run : Run (system config) allowed events engine) :
    Delivery.Alone index engine.world accepted.id stored where
  row := starting.row
  unlocked := starting.unlocked
  idle := (((run_sound run).worker starting.received).idle rfl).attempts
  uncounted := starting.uncounted
  ledger := (run_lifecycle run accepted.id).ledger

/-- An accepted notification is deliverable exactly if it is an email, the columns of the attempt
can hold the result, and a retry of it is not set before its creation or after the last date. -/
theorem deliverable_iff (run : Run (system config) allowed events engine)
    (starting : Starting engine place index request accepted stored)
    (drawn : delay ≤ Delivery.cappedDelay config (stored.val.attemptCount + 1)) :
    (Completes config engine index accepted.id result workerNow delay ∧
        Restores stored request.arguments.request.payload) ↔
      request.arguments.request.channel = .email ∧ result.storable = true ∧
        (result.status = .temporaryFailure → stored.val.attemptCount + 1 < stored.val.maxAttempts →
          stored.val.createdAt ≤ workerNow + seconds delay ∧
            workerNow + seconds delay ≤ datetimeMax) := by
  have alone := starting.alone run
  have dumped := run_original_payload run starting.requested starting.created starting.row
  have began := ((run_sound run).world.keyed _ _ starting.row).2
  have email : (∃ payload, request.arguments.request.payload = .email payload) ↔
      request.arguments.request.channel = .email := by
    unfold NotificationRequestBody.channel
    cases request.arguments.request.payload <;> simp
  have persists : (∃ version attempt,
    Delivery.persistDeliveryResult ⟨stored.val, result, engine.world.clock⟩
      accepted.id workerNow delay stored = some (version, attempt)) ↔ _ :=
    Delivery.persistDeliveryResult_isSome_iff starting.eligible rfl began
  rw [restores_iff _ dumped, email, and_comm]
  refine and_congr_right fun channel => ?_
  obtain ⟨payload, same⟩ := email.mpr channel
  have decoded : EmailPayload.modelValidate stored.val.payload = some payload := by
    rw [dumped, same]
    exact payload.modelValidate_modelDump
  obtain ⟨sent, opens, again, attempts⟩ := alone.opens config starting.eligible decoded
  have sends : Delivery.statements config index engine.world ⟨accepted.id, .received⟩
      (Delivery.delivering result workerNow delay) = _ :=
        opens (Delivery.persisting workerNow delay)
  rw [← persists]
  unfold Completes
  rw [execute_worker starting.received, sends]
  constructor
  · rintro ⟨after, next, attempt, executed, _⟩
    cases persisted : Delivery.persistDeliveryResult ⟨stored.val, result,
      engine.world.clock⟩ accepted.id
      workerNow delay stored with
    | none =>
      rw [again.refuses drawn persisted] at executed
      cases executed
    | some pair => exact ⟨pair.1, pair.2, rfl⟩
  · rintro ⟨version, attempt, persisted⟩
    obtain ⟨final, done, alone, committed⟩ := again.persists drawn rfl persisted
    obtain ⟨_, _, _, recorded⟩ := Lifecycle.delivered_counts persisted
    refine ⟨_, version, attempt, by rw [done]; rfl, Processes.set_self starting.received, alone.row,
      ?_, ?_, ?_, ?_⟩
    · rcases Lifecycle.delivered_state persisted with ⟨_, state, _⟩ | ⟨_, _, state, _⟩
        | ⟨_, _, _, _, scheduled⟩
      · simp [state, NotificationState.terminal]
      · simp [state, NotificationState.terminal]
      · simp [scheduled]
    · rw [committed, attempts]
    · rw [recorded]
      rfl
    · rw [recorded]
      rfl

/-- A request that has been queued and consumed, up to the load of its execution. -/
def submitsThenConsumes (arguments : Submission.Arguments) : List Event :=
  [.post arguments, .request 0 .insertIdemKeys, .request 0 (.createNotification 7),
    .request 0 .completeIdempotency, .request 0 .commit] ++ queues 0 ++
    [.consume arguments.request.channel 0]

/-- The first request and the first execution are about to load the same eligible row. -/
private def startsIn (channel : NotificationChannel) (engine : Engine) : Bool :=
  match (engine.requests[0]? : Option Submission.Request),
    (engine.executions[0]? : Option Delivery.Execution),
    engine.world.row 7 with
  | some request, some ⟨id, .received⟩, some stored =>
    decide (request.arguments.request.channel = channel) && decide (id = 7) &&
      decide (request.phase.original.map Notification.id = some 7) &&
      decide (Delivery.validateDeliveryEligibility stored.val = .ok ()) &&
      (engine.world.notifications 7).pending.isNone && engine.world.attempts.pending.isEmpty
  | _, _, _ => false

private theorem starting_of_startsIn {channel : NotificationChannel}
    (starts : startsIn channel engine = true) :
    ∃ request accepted stored, Starting engine 0 0 request accepted stored ∧
      request.arguments.request.channel = channel := by
  unfold startsIn at starts
  split at starts
  · rename_i request id stored requested received row
    simp only [Bool.and_eq_true, decide_eq_true_eq, Option.map_eq_some_iff,
      Option.isNone_iff_eq_none,
      List.isEmpty_iff] at starts
    obtain ⟨⟨⟨⟨⟨same, rfl⟩, accepted, created, named⟩, eligible⟩, unlocked⟩, quiet⟩ := starts
    exact ⟨request, accepted, stored, ⟨requested, created, named ▸ received, named ▸ row, eligible,
      named ▸ unlocked, by simp [quiet]⟩, same⟩
  · cases starts

theorem deliverable_iff_email : ∃ engine request accepted stored,
    Run (system sampleConfig) Any (submitsThenConsumes sampleArguments) engine ∧
    Starting engine 0 0 request accepted stored ∧ request.arguments.request.channel = .email ∧
    ((Completes sampleConfig engine 0 accepted.id (resultOf .success) 0 0 ∧
        Restores stored request.arguments.request.payload) ↔
      request.arguments.request.channel = .email ∧ (resultOf .success).storable = true ∧
        ((resultOf .success).status = .temporaryFailure →
          stored.val.attemptCount + 1 < stored.val.maxAttempts →
          stored.val.createdAt ≤ 0 + seconds 0 ∧ 0 + seconds 0 ≤ datetimeMax)) := by
  obtain ⟨engine, run, starts⟩ := Run.exists_of_execute (system sampleConfig) Any
    (submitsThenConsumes sampleArguments) (startsIn .email) (by decide +kernel)
  obtain ⟨request, accepted, stored, starting, channel⟩ := starting_of_startsIn starts
  exact ⟨engine, request, accepted, stored, run, starting, channel,
    deliverable_iff run starting (Nat.zero_le _)⟩

def smsArguments : Submission.Arguments where
  request := ⟨.sms ⟨"+4512345678", "Hi", by decide, by decide⟩, []⟩
  idempotencyKey := 1
  workspaceId := 2
  apiKeyId := 3

/-- An accepted SMS is queued, and its delivery raises on the payload. -/
theorem sms_undeliverable : ∃ engine request accepted stored,
    Run (system sampleConfig) Any (submitsThenConsumes smsArguments) engine ∧
    Starting engine 0 0 request accepted stored ∧ request.arguments.request.channel = .sms ∧
    ¬ Completes sampleConfig engine 0 accepted.id (resultOf .success) 0 0 ∧
    ¬ Restores stored request.arguments.request.payload := by
  obtain ⟨engine, run, starts⟩ := Run.exists_of_execute (system sampleConfig) Any
    (submitsThenConsumes smsArguments) (startsIn .sms) (by decide +kernel)
  obtain ⟨request, accepted, stored, starting, channel⟩ := starting_of_startsIn starts
  have dumped := run_original_payload run starting.requested starting.created starting.row
  have unrestored : ¬ Restores stored request.arguments.request.payload := by
    rw [restores_iff _ dumped]
    rintro ⟨payload, same⟩
    simp [NotificationRequestBody.channel, same] at channel
  refine ⟨engine, request, accepted, stored, run, starting, channel, ?_, unrestored⟩
  rintro ⟨after, _, _, executed, _⟩
  have undecoded : EmailPayload.modelValidate stored.val.payload = none := by
    rw [dumped]
    cases same : request.arguments.request.payload with
    | sms payload => simp [NotificationPayload.modelDump, EmailPayload.modelValidate]
    | _ => simp [NotificationRequestBody.channel, same] at channel
  rw [execute_worker starting.received, (starting.alone run).stops undecoded] at executed
  cases executed

end Engine

end Relays
