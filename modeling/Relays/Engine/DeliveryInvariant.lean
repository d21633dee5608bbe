import Relays.Engine.Delivery
import Relays.Engine.WorldInvariant

/-! One worker among others: the steps it can take, what its open transaction
holds, and the single row update its commit publishes. -/

namespace Relays.Delivery

open ReadCommitted

/-- The steps of an execution, one constructor for each way a statement can end. -/
inductive Moves (config : Config) (index : Nat) (world : World) (execution : Execution) :
    Event → World → Phase → Prop where
  | load (current : execution.phase = .received) :
      Moves config index world execution .load world
        (afterLoad (world.row execution.notificationId))
  | send (current : execution.phase = .loaded notification payload) :
      Moves config index world execution .send
        { world with calls := world.calls ++ [⟨index, execution.notificationId, payload⟩] }
        (.sending notification)
  | answer (current : execution.phase = .sending notification) :
      Moves config index world execution (.answer result)
        { world with
          results := world.results ++ [⟨index, execution.notificationId, result.status⟩] }
        (.answered notification result)
  | providerRaises (current : execution.phase = .sending notification) :
      Moves config index world execution .providerRaises world (.ended .providerRaised)
  | openTransaction (current : execution.phase = .answered notification result) :
      Moves config index world execution .openTransaction world
        (.opened ⟨notification, result, world.clock⟩)
  | increment (current : execution.phase = .opened persist)
      (done : world.updateNotification (.worker index) execution.notificationId (fun _ => true)
        (incrementAttemptCount persist.now) = .returns (next, some stored)) :
      Moves config index world execution .increment next
        (.incremented persist stored.val.attemptCount)
  | incrementRejected (current : execution.phase = .opened persist)
      (failed : world.updateNotification (.worker index) execution.notificationId (fun _ => true)
        (incrementAttemptCount persist.now) = .violates) :
      Moves config index world execution .increment (world.rollback (.worker index))
        (.ended .rejected)
  | incrementMissing (current : execution.phase = .opened persist)
      (missed : world.updateNotification (.worker index) execution.notificationId (fun _ => true)
        (incrementAttemptCount persist.now) = .returns (next, none)) :
      Moves config index world execution .increment (world.rollback (.worker index))
        (.ended .raised)
  | record (current : execution.phase = .incremented persist attemptNumber)
      (done : world.insertAttempt (.worker index) (recordDeliveryAttempt persist.now
        execution.notificationId attemptNumber persist.result) = .returns next) :
      Moves config index world execution .record next (.recorded persist attemptNumber)
  | recordRejected (current : execution.phase = .incremented persist attemptNumber)
      (failed : world.insertAttempt (.worker index) (recordDeliveryAttempt persist.now
        execution.notificationId attemptNumber persist.result) = .violates) :
      Moves config index world execution .record (world.rollback (.worker index))
        (.ended .rejected)
  | conclude (current : execution.phase = .recorded persist attemptNumber)
      (drawn : delay ≤ cappedDelay config attemptNumber)
      (chosen : concludingUpdate persist attemptNumber workerNow delay = some change)
      (done : world.updateNotification (.worker index) execution.notificationId (fun _ => true)
        change = .returns (next, updated)) :
      Moves config index world execution (.conclude workerNow delay) next
        (.concluded persist attemptNumber)
  | concludeRejected (current : execution.phase = .recorded persist attemptNumber)
      (drawn : delay ≤ cappedDelay config attemptNumber)
      (chosen : concludingUpdate persist attemptNumber workerNow delay = some change)
      (failed : world.updateNotification (.worker index) execution.notificationId (fun _ => true)
        change = .violates) :
      Moves config index world execution (.conclude workerNow delay)
        (world.rollback (.worker index))
        (.ended .rejected)
  | concludeRaises (current : execution.phase = .recorded persist attemptNumber)
      (raised : concludingUpdate persist attemptNumber workerNow delay = none) :
      Moves config index world execution (.conclude workerNow delay)
        (world.rollback (.worker index))
        (.ended .raised)
  | commit (current : execution.phase = .concluded persist attemptNumber) :
      Moves config index world execution .commit (world.commit (.worker index)) (.ended .delivered)
  | interrupt (running : ∀ ending, execution.phase ≠ .ended ending) :
      Moves config index world execution .interrupt (world.rollback (.worker index))
        (.ended .interrupted)

variable {config : Config} {index : Nat} {world next after : World} {execution : Execution}
variable {event : Event} {phase : Phase} {persist : Persist} {attemptNumber delay : Nat}
variable {workerNow : Time} {id : Uuid} {tx : Party}

theorem step_moves (taken : step config index world execution event = some (next, phase)) :
    Moves config index world execution event next phase := by
  unfold step at taken
  dsimp only at taken
  split at taken
  · rename_i current
    cases taken
    exact .load current
  · rename_i current
    cases taken
    exact .send current
  · rename_i current
    cases taken
    exact .answer current
  · rename_i current
    cases taken
    exact .providerRaises current
  · rename_i current
    cases taken
    exact .openTransaction current
  · rename_i current
    split at taken
    · cases taken
    · rename_i failed
      cases taken
      exact .incrementRejected current failed
    · rename_i missed
      cases taken
      exact .incrementMissing current missed
    · rename_i done
      cases taken
      exact .increment current done
  · rename_i current
    split at taken
    · cases taken
    · rename_i failed
      cases taken
      exact .recordRejected current failed
    · rename_i done
      cases taken
      exact .record current done
  · rename_i current
    split at taken
    · cases taken
    · rename_i drawn
      split at taken
      · rename_i raised
        cases taken
        exact .concludeRaises current raised
      · rename_i chosen
        split at taken
        · cases taken
        · rename_i failed
          cases taken
          exact .concludeRejected current (Nat.not_lt.mp drawn) chosen failed
        · rename_i done
          cases taken
          exact .conclude current (Nat.not_lt.mp drawn) chosen done
  · rename_i current
    cases taken
    exact .commit current
  · cases taken
  · rename_i ended
    cases taken
    exact .interrupt fun ending same => ended ending same
  · cases taken

/-- An execution that has ended takes no further step. -/
theorem Moves.inProgress (moves : Moves config index world execution event next phase) :
    execution.phase.ending = none := by
  cases moves with
  | load current | send current | answer current | providerRaises current | openTransaction current
  | increment current | incrementRejected current | incrementMissing current | record current
  | recordRejected current | conclude current | concludeRejected current | concludeRaises current
  | commit current => rw [current]; rfl
  | interrupt running =>
    cases current : execution.phase with
    | ended ending => exact absurd current (running ending)
    | _ => rfl

/-- The row an execution has loaded, once it passed the checks. -/
def Phase.snapshot : Phase → Option Notification
  | .loaded notification _ | .sending notification | .answered notification _ => some notification
  | .opened persist | .incremented persist _ | .recorded persist _ | .concluded persist _ =>
    some persist.notification
  | .received | .ended _ => none

def Phase.transaction : Phase → Option Persist
  | .opened persist | .incremented persist _ | .recorded persist _ | .concluded persist _ =>
    some persist
  | .received | .loaded _ _ | .sending _ | .answered _ _ | .ended _ => none

/-- The transaction has written, and so holds the lock of its row. -/
def Phase.writing : Phase → Bool
  | .incremented _ _ | .recorded _ _ | .concluded _ _ => true
  | _ => false

/-- The row as `increment_attempt_count` left it, not yet committed. -/
def Counted (index : Nat) (world : World) (id : Uuid) (persist : Persist) (attemptNumber : Nat) :
    Prop :=
  ∃ stored version, world.Holds (.worker index) id stored version ∧
    version.val = incrementAttemptCount persist.now stored.val ∧
    attemptNumber = stored.val.attemptCount + 1

structure Valid (index : Nat) (world : World) (execution : Execution) : Prop where
  snapshot : ∀ notification, execution.phase.snapshot = some notification →
    ∃ stored, world.row execution.notificationId = some stored ∧
      notification.identity = stored.val.identity
  began : ∀ persist, execution.phase.transaction = some persist →
    persist.notification.createdAt ≤ persist.now
  idempotency : ∀ key, ¬ world.idempotency.Owns (.worker index) key
  idle : execution.phase.writing = false → world.Idle (.worker index)
  incremented : ∀ persist attemptNumber, execution.phase = .incremented persist attemptNumber →
    Counted index world execution.notificationId persist attemptNumber ∧
      world.attempts.own (.worker index) = []
  recorded : ∀ persist attemptNumber, execution.phase = .recorded persist attemptNumber →
    persist.result.storable = true ∧
      Counted index world execution.notificationId persist attemptNumber ∧
      world.attempts.own (.worker index) =
        [recordDeliveryAttempt persist.now execution.notificationId attemptNumber persist.result]
  concluded : ∀ persist attemptNumber, execution.phase = .concluded persist attemptNumber →
    ∃ stored version attempt workerNow delay,
      world.Holds (.worker index) execution.notificationId stored version ∧
      persistDeliveryResult persist execution.notificationId workerNow delay stored =
        some (version, attempt) ∧
      world.attempts.own (.worker index) = [attempt]

/-- Steps of other parties leave an execution as it is. -/
theorem Valid.stable (valid : Valid index world execution) (evolves : World.Evolves tx world after)
    (different : Party.worker index ≠ tx) : Valid index after execution where
  snapshot notification loaded := by
    obtain ⟨stored, found, same⟩ := valid.snapshot notification loaded
    obtain ⟨later, present, kept⟩ := evolves.rows _ stored found
    exact ⟨later, present, same.trans kept.symm⟩
  began := valid.began
  idempotency key owned :=
    valid.idempotency key ((evolves.frame.idempotency.owns different).mp owned)
  idle unwritten := (valid.idle unwritten).evolves evolves different
  incremented persist attemptNumber current := by
    obtain ⟨⟨stored, version, holds, written, numbered⟩, own⟩ :=
      valid.incremented persist attemptNumber current
    exact ⟨⟨stored, version, holds.evolves evolves different, written, numbered⟩,
      (evolves.frame.attempts _ different).trans own⟩
  recorded persist attemptNumber current := by
    obtain ⟨storable, ⟨stored, version, holds, written, numbered⟩, own⟩ :=
      valid.recorded persist attemptNumber current
    exact ⟨storable, ⟨stored, version, holds.evolves evolves different, written, numbered⟩,
      (evolves.frame.attempts _ different).trans own⟩
  concluded persist attemptNumber current := by
    obtain ⟨stored, version, attempt, workerNow, delay, holds, done, own⟩ :=
      valid.concluded persist attemptNumber current
    exact ⟨stored, version, attempt, workerNow, delay, holds.evolves evolves different, done,
      (evolves.frame.attempts _ different).trans own⟩

/-- An execution outside its writing statements is valid once its loaded row still is. -/
theorem Valid.of_idle (idle : world.Idle (.worker index)) (unwritten : phase.writing = false)
    (snapshot : ∀ notification, phase.snapshot = some notification →
      ∃ stored, world.row id = some stored ∧ notification.identity = stored.val.identity)
    (began : ∀ persist, phase.transaction = some persist →
      persist.notification.createdAt ≤ persist.now) :
    Valid index world ⟨id, phase⟩ where
  snapshot := snapshot
  began := began
  idempotency := idle.idempotency
  idle _ := idle
  incremented persist attemptNumber current := by
    obtain rfl : phase = _ := current
    cases unwritten
  recorded persist attemptNumber current := by
    obtain rfl : phase = _ := current
    cases unwritten
  concluded persist attemptNumber current := by
    obtain rfl : phase = _ := current
    cases unwritten

theorem Valid.of_ended (idle : world.Idle (.worker index)) (ending : Ending) :
    Valid index world ⟨id, .ended ending⟩ :=
  .of_idle idle rfl (by simp [Phase.snapshot]) (by simp [Phase.transaction])

/-- What holds of a transaction from its opening to its commit. -/
structure Opened (index : Nat) (world : World) (id : Uuid) (persist : Persist) : Prop where
  loaded : ∃ stored, world.row id = some stored ∧
    persist.notification.identity = stored.val.identity
  began : persist.notification.createdAt ≤ persist.now
  idempotency : ∀ key, ¬ world.idempotency.Owns (.worker index) key

theorem Valid.opened (valid : Valid index world execution)
    (opened : execution.phase.transaction = some persist) :
    Opened index world execution.notificationId persist := by
  have loaded : execution.phase.snapshot = some persist.notification := by
    cases reached : execution.phase <;>
      simp [reached, Phase.transaction, Phase.snapshot] at opened ⊢ <;> simp [opened]
  exact ⟨valid.snapshot _ loaded, valid.began persist opened, valid.idempotency⟩

/-- The statements of the transaction leave the committed row to others. -/
theorem Opened.keeps (opened : Opened index world id persist) (row : next.row id = world.row id)
    (idempotency : next.idempotency = world.idempotency) : Opened index next id persist where
  loaded := row ▸ opened.loaded
  began := opened.began
  idempotency := idempotency ▸ opened.idempotency

/-- A transaction that has counted its attempt. -/
theorem Valid.of_incremented (opened : Opened index world id persist)
    (counted : Counted index world id persist attemptNumber)
    (own : world.attempts.own (.worker index) = []) :
    Valid index world ⟨id, .incremented persist attemptNumber⟩ where
  snapshot notification same := by
    cases same
    exact opened.loaded
  began opening same := by
    cases same
    exact opened.began
  idempotency := opened.idempotency
  idle unwritten := by cases unwritten
  incremented _ _ same := by
    cases same
    exact ⟨counted, own⟩
  recorded _ _ same := by cases same
  concluded _ _ same := by cases same

/-- A transaction that has counted and recorded its attempt. -/
theorem Valid.of_recorded (opened : Opened index world id persist)
    (storable : persist.result.storable = true)
    (counted : Counted index world id persist attemptNumber)
    (own : world.attempts.own (.worker index) =
      [recordDeliveryAttempt persist.now id attemptNumber persist.result]) :
    Valid index world ⟨id, .recorded persist attemptNumber⟩ where
  snapshot notification same := by
    cases same
    exact opened.loaded
  began opening same := by
    cases same
    exact opened.began
  idempotency := opened.idempotency
  idle unwritten := by cases unwritten
  incremented _ _ same := by cases same
  recorded _ _ same := by
    cases same
    exact ⟨storable, counted, own⟩
  concluded _ _ same := by cases same

/-- A transaction that has written all it has to write. -/
theorem Valid.of_concluded (opened : Opened index world id persist)
    (concluded : ∃ stored version attempt workerNow delay,
      world.Holds (.worker index) id stored version ∧
      persistDeliveryResult persist id workerNow delay stored = some (version, attempt) ∧
      world.attempts.own (.worker index) = [attempt]) :
    Valid index world ⟨id, .concluded persist attemptNumber⟩ where
  snapshot notification same := by
    cases same
    exact opened.loaded
  began opening same := by
    cases same
    exact opened.began
  idempotency := opened.idempotency
  idle unwritten := by cases unwritten
  incremented _ _ same := by cases same
  recorded _ _ same := by cases same
  concluded _ _ same := by
    cases same
    exact concluded

theorem concludingUpdate_identity {change : Notification → Notification}
    (chosen : concludingUpdate persist attemptNumber workerNow delay = some change)
    (row : Notification) : (change row).identity = row.identity := by
  rcases concludingUpdate_cases chosen with ⟨_, rfl⟩ | ⟨_, error, rfl⟩ | ⟨_, _, _, rfl⟩ <;> simp

theorem afterLoad_snapshot {row : Option StoredNotification} {notification : Notification}
    (loaded : (afterLoad row).snapshot = some notification) :
    ∃ stored, row = some stored ∧ notification = stored.val := by
  unfold afterLoad at loaded
  split at loaded
  · cases loaded
  · rename_i stored
    split at loaded
    · cases loaded
    · split at loaded
      · cases loaded
      · exact ⟨stored, rfl, (Option.some.inj loaded).symm⟩

private theorem afterLoad_unopened (row : Option StoredNotification) :
    (afterLoad row).writing = false ∧ (afterLoad row).transaction = none := by
  unfold afterLoad
  split
  · exact ⟨rfl, rfl⟩
  · split
    · exact ⟨rfl, rfl⟩
    · split <;> exact ⟨rfl, rfl⟩

/-- A statement that ends the execution rolls back whatever it wrote. -/
private theorem valid_of_rollback (sound : world.Sound) (id : Uuid) (ending : Ending) :
    (world.rollback (.worker index)).Sound ∧
      World.Evolves (.worker index) world (world.rollback (.worker index)) ∧
      Valid index (world.rollback (.worker index)) ⟨id, .ended ending⟩ :=
  ⟨sound.rollback _, .rollback world _, .of_ended (world.rollback_idle _) ending⟩

/-- The step lemma of a worker. -/
theorem Moves.valid (moves : Moves config index world execution event next phase)
    (sound : world.Sound) (valid : Valid index world execution) :
    next.Sound ∧ World.Evolves (.worker index) world next ∧
      Valid index next ⟨execution.notificationId, phase⟩ := by
  cases moves with
  | load current =>
    obtain ⟨unwritten, unopened⟩ := afterLoad_unopened (world.row execution.notificationId)
    refine ⟨sound, .refl _ _,
      .of_idle (valid.idle (by simp [current, Phase.writing])) unwritten ?_ ?_⟩
    · intro notification loaded
      obtain ⟨stored, found, same⟩ := afterLoad_snapshot loaded
      exact ⟨stored, found, congrArg Notification.identity same⟩
    · intro persist opened
      simp [unopened] at opened
  | send current =>
    have idle := valid.idle (by simp [current, Phase.writing])
    refine ⟨sound.transfer rfl rfl rfl (Nat.le_refl _),
      .transfer rfl rfl rfl rfl (Nat.le_refl _) (fun _ member => member),
      .of_idle (idle.transfer rfl rfl rfl) rfl ?_ (by simp [Phase.transaction])⟩
    intro notification loaded
    exact valid.snapshot notification (by simpa [current, Phase.snapshot] using loaded)
  | answer current =>
    have idle := valid.idle (by simp [current, Phase.writing])
    refine ⟨sound.transfer rfl rfl rfl (Nat.le_refl _),
      .transfer rfl rfl rfl rfl (Nat.le_refl _) (fun _ member => member),
      .of_idle (idle.transfer rfl rfl rfl) rfl ?_ (by simp [Phase.transaction])⟩
    intro notification loaded
    exact valid.snapshot notification (by simpa [current, Phase.snapshot] using loaded)
  | providerRaises current =>
    exact ⟨sound, .refl _ _, .of_ended (valid.idle (by simp [current, Phase.writing])) _⟩
  | @openTransaction notification result current =>
    have idle := valid.idle (by simp [current, Phase.writing])
    have snapshot := valid.snapshot notification (by simp [current, Phase.snapshot])
    refine ⟨sound, .refl _ _, .of_idle idle rfl ?_ ?_⟩
    · intro loaded same
      obtain rfl := Option.some.inj same
      exact snapshot
    · intro persist same
      obtain rfl := Option.some.inj same
      obtain ⟨stored, found, identity⟩ := snapshot
      have created := (sound.keyed _ stored found).2
      rwa [← Notification.createdAt_eq identity] at created
  | @increment persist _ stored current done =>
    have idle := valid.idle (by simp [current, Phase.writing])
    obtain ⟨nextSound, evolves⟩ :=
      sound.updateNotification (fun _ => incrementAttemptCount_identity) done
    obtain ⟨read, _, seen, _, written, rfl⟩ := World.updateNotification_returns done
    rw [World.view_of_idle idle.notifications] at seen
    have holds := World.Holds.of_write stored seen
      (fun other owned => absurd owned (idle.notifications other))
    have opened := valid.opened (by rw [current]; rfl)
    refine ⟨nextSound, evolves, .of_incremented (opened.keeps (by simp [World.row]) rfl)
      ⟨read, stored, holds, written, ?_⟩ idle.attempts⟩
    rw [written]
    rfl
  | incrementRejected current failed => exact valid_of_rollback sound _ _
  | incrementMissing current missed => exact valid_of_rollback sound _ _
  | @record persist attemptNumber _ current done =>
    obtain ⟨⟨stored, version, holds, written, numbered⟩, own⟩ :=
      valid.incremented persist attemptNumber current
    obtain ⟨rfl, evolves⟩ := World.insertAttempt_returns done
    have opened := valid.opened (by rw [current]; rfl)
    refine ⟨sound.transfer rfl rfl rfl (Nat.le_refl _), evolves,
      .of_recorded (opened.keeps rfl rfl) (World.insertAttempt_storable done) ⟨stored, version,
        ⟨holds.row, holds.pending, holds.sole⟩, written, numbered⟩ ?_⟩
    simp [Heap.own_append, own]
  | recordRejected current failed => exact valid_of_rollback sound _ _
  | @conclude persist attemptNumber delay workerNow change _ updated current drawn chosen done =>
    obtain ⟨storable, ⟨stored, version, holds, written, numbered⟩, own⟩ :=
      valid.recorded persist attemptNumber current
    have seen := Cell.view_of_pending holds.pending
    cases updated with
    | none =>
      -- the row is there: it is the version this transaction has just written
      have missed := (World.updateNotification_returns_none done).2 version seen
      cases missed
    | some final =>
      obtain ⟨nextSound, evolves⟩ :=
        sound.updateNotification (concludingUpdate_identity chosen) done
      obtain ⟨read, _, found, _, concluded, rfl⟩ := World.updateNotification_returns done
      obtain rfl := Option.some.inj (seen.symm.trans found)
      have rewritten := World.Holds.of_write final holds.row holds.sole
      have persisted : persistDeliveryResult persist execution.notificationId workerNow delay
        stored =
          some (final, recordDeliveryAttempt persist.now execution.notificationId attemptNumber
            persist.result) := by
        rw [persistDeliveryResult_eq_some, ← numbered, ← written]
        exact ⟨change, version.property, storable, chosen, concluded, rfl⟩
      have opened := valid.opened (by rw [current]; rfl)
      exact ⟨nextSound, evolves, .of_concluded (opened.keeps (by simp [World.row]) rfl)
        ⟨stored, final, _, workerNow, delay, rewritten, persisted, own⟩⟩
  | concludeRejected current drawn chosen failed => exact valid_of_rollback sound _ _
  | concludeRaises current raised => exact valid_of_rollback sound _ _
  | commit current =>
    exact ⟨sound.commit_of_idle valid.idempotency, .commit sound _,
      .of_ended (world.commit_idle _) _⟩
  | interrupt running => exact valid_of_rollback sound _ _

end Relays.Delivery
