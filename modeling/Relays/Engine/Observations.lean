import Relays.Engine.Refinement

/-! What the columns of a notification tell at any time, and how far they may have moved from one
time to another. -/

namespace Relays

open ReadCommitted Transition

/-- The columns that say when and how often, by the clock of the database. -/
structure Notification.Stamped (clock : Time) (row : Notification) : Prop where
  updated : row.updatedAt ≤ clock
  queued : ∀ time ∈ row.queuedAt, time ≤ clock
  attempted : ∀ time ∈ row.lastAttemptAt, time ≤ clock
  counted : row.lastAttemptAt.isSome = true ↔ 0 < row.attemptCount
  sent : row.state = .sent → row.sentAt = row.lastAttemptAt
  failed : row.state = .failed → row.lastError.isSome = true
  fresh : row.state = .created → row.queuedAt = none

/-- What may be between two versions of a row. Without a new attempt only `mark_queued` or a claim
is. -/
structure Notification.Advances (row next : Notification) : Prop where
  identity : next.identity = row.identity
  attempts : row.attemptCount ≤ next.attemptCount
  paced : next.attemptCount = row.attemptCount → next = row ∨
    row.attemptCount = 0 ∧ row.state = .created ∧ next.state = .queued ∨
    0 < row.attemptCount ∧ row.state = .queued ∧ next.state = .processing
  sent : row.state = .sent → next.state = .sent
  queued : ∀ time ∈ row.queuedAt, next.queuedAt = some time
  created : next.state = .created → next = row

namespace Notification

variable {row next last : Notification} {clock later : Time}

theorem Stamped.mono (stamped : row.Stamped clock) (passed : clock ≤ later) : row.Stamped later :=
  { stamped with
    updated := Nat.le_trans stamped.updated passed
    queued := fun time member => Nat.le_trans (stamped.queued time member) passed
    attempted := fun time member => Nat.le_trans (stamped.attempted time member) passed }

theorem Advances.refl (row : Notification) : row.Advances row where
  identity := rfl
  attempts := Nat.le_refl _
  paced _ := .inl rfl
  sent state := state
  queued _ member := member
  created _ := rfl

theorem Advances.trans (first : row.Advances next)
    (second : next.Advances last) : row.Advances last where
  identity := second.identity.trans first.identity
  attempts := Nat.le_trans first.attempts second.attempts
  paced same := by
    have left := first.attempts
    have right := second.attempts
    have still : next.attemptCount = row.attemptCount := by omega
    rcases second.paced (by omega) with rfl | moved
    · exact first.paced same
    · rcases first.paced still with rfl | earlier
      · exact .inr moved
      -- the first delivery lies between the two changes
      · rcases earlier with ⟨_, _, queued⟩ | ⟨_, _, processing⟩
        · rcases moved with ⟨_, created, _⟩ | ⟨attempted, _, _⟩
          · simp [queued] at created
          · omega
        · rcases moved with ⟨_, created, _⟩ | ⟨_, queued, _⟩
          · simp [processing] at created
          · simp [processing] at queued
  sent state := second.sent (first.sent state)
  queued time member := second.queued time (first.queued time member)
  created state := by
    obtain rfl := second.created state
    exact first.created state

end Notification

namespace Lifecycle

variable {id : Uuid} {before after : Lifecycle} {stored next : StoredNotification}
    {persist : Delivery.Persist}
variable {workerNow clock now : Time} {delay : Nat} {attempt : DeliveryAttempt}
    {arguments : Submission.Arguments}

theorem created_stamped (written : stored.val = Submission.newNotification arguments now id)
    (created : stored.val.createdAt ≤ clock) : stored.val.Stamped clock := by
  rw [written] at created ⊢
  exact ⟨created, nofun, nofun, by simp [Submission.newNotification, createNotification], nofun,
    nofun, fun _ => rfl⟩

theorem queued_stamped (written : next.val = markQueued clock stored.val)
    (stamped : stored.val.Stamped clock) : next.val.Stamped clock := by
  rw [written]
  refine ⟨Nat.le_refl _, ?_, stamped.attempted, stamped.counted, nofun, nofun, nofun⟩
  intro time member
  obtain rfl := Option.some.inj member
  exact Nat.le_refl _

theorem claimed_stamped (written : next.val = claimRetry now stored.val) (passed : now ≤ clock)
    (stamped : stored.val.Stamped clock) : next.val.Stamped clock := by
  rw [written]
  exact ⟨passed, stamped.queued, stamped.attempted, stamped.counted, nofun, nofun, nofun⟩

theorem delivered_stamped
    (persisted : Delivery.persistDeliveryResult persist id workerNow delay stored =
      some (next, attempt))
    (passed : persist.now ≤ clock)
    (stamped : stored.val.Stamped clock) : next.val.Stamped clock := by
  obtain ⟨change, _, _, chosen, written, _⟩ := Delivery.persistDeliveryResult_eq_some.mp persisted
  have attempted : ∀ time ∈ some persist.now, time ≤ clock := by
    intro time member
    obtain rfl := Option.some.inj member
    exact passed
  have counted : (some persist.now).isSome = true ↔ 0 < stored.val.attemptCount + 1 := by simp
  rw [written]
  rcases Delivery.concludingUpdate_cases chosen with ⟨_, rfl⟩ | ⟨_, error, rfl⟩ | ⟨_, _, _, rfl⟩
  · exact ⟨passed, stamped.queued, attempted, counted, fun _ => rfl, nofun, nofun⟩
  · exact ⟨passed, stamped.queued, attempted, counted, nofun, fun _ => rfl, nofun⟩
  · exact ⟨passed, stamped.queued, attempted, counted, nofun, nofun, nofun⟩

theorem delivered_advances
    (persisted : Delivery.persistDeliveryResult persist id workerNow delay stored =
      some (next, attempt)) :
    stored.val.Advances next.val := by
  obtain ⟨_, counted, _⟩ := delivered_counts persisted
  obtain ⟨change, _, _, chosen, written, _⟩ := Delivery.persistDeliveryResult_eq_some.mp persisted
  refine ⟨?_, by omega, fun same => by omega,
    fun state => (delivered_sent_iff persisted).mpr (.inl state), ?_, ?_⟩
  · rw [written, Delivery.concludingUpdate_identity chosen, incrementAttemptCount_identity]
  · rw [written]
    rcases Delivery.concludingUpdate_cases chosen with ⟨_, rfl⟩ | ⟨_, error, rfl⟩ |
      ⟨_, _, _, rfl⟩ <;> exact fun time member => member
  · intro created
    rcases delivered_state persisted with ⟨_, state, _⟩ | ⟨_, _, state, _⟩ | ⟨_, _, _, state, _⟩ <;>
      simp [state] at created

theorem Step.advances (step : Step id before after) (shaped : before.Shaped)
    (found : before.row = some stored)
    (present : after.row = some next)
    (stamped : stored.val.Stamped clock) : stored.val.Advances next.val := by
  obtain ⟨shape, fits⟩ := shaped stored found
  cases step with
  | create => cases found
  | queue waiting written =>
    cases found
    cases present
    have created : stored.val.state = .created := by simpa [awaitsQueueing] using waiting
    have unqueued := stamped.fresh created
    have unattempted : stored.val.attemptCount = 0 := by
      cases shape with
      | created =>
        obtain ⟨_, unattempted, _⟩ := fits
        exact unattempted
      | _ => simp [Shape.Fits, created] at fits
    rw [written]
    refine ⟨rfl, Nat.le_refl _, fun _ => .inr (.inl ⟨unattempted, created, rfl⟩), ?_, ?_, ?_⟩
    · intro sent
      simp [created] at sent
    · intro time member
      simp [unqueued] at member
    · intro back
      cases back
  | claim due written =>
    cases found
    cases present
    obtain ⟨queued, time, scheduled, _⟩ := retryable_iff.mp due
    have attempted : 0 < stored.val.attemptCount := by
      cases shape with
      | retrying =>
        obtain ⟨_, _, attempted, _⟩ := fits
        exact attempted
      | _ => simp [Shape.Fits, queued, scheduled] at fits
    rw [written]
    refine ⟨rfl, Nat.le_refl _, fun _ => .inr (.inr ⟨attempted, queued, rfl⟩), ?_,
      fun _ member => member, ?_⟩
    · intro sent
      simp [queued] at sent
    · intro back
      cases back
  | deliver known persisted =>
    cases found
    cases present
    exact delivered_advances persisted

end Lifecycle

namespace Delivery

variable {config : Config} {index : Nat} {world next : World} {execution : Execution}
    {event : Event}
variable {phase : Phase} {persist : Persist}

/-- A transaction is open from before, or has just begun. -/
theorem Moves.transaction (moves : Moves config index world execution event next phase)
    (opened : phase.transaction = some persist) :
    execution.phase.transaction = some persist ∨ persist.now = world.clock := by
  cases moves with
  | load current =>
    unfold afterLoad at opened
    split at opened
    · cases opened
    · split at opened
      · cases opened
      · split at opened <;> cases opened
  | openTransaction current =>
    cases opened
    exact .inr rfl
  | increment current | record current | conclude current =>
    cases opened
    exact .inl (by rw [current]; rfl)
  | send | answer | providerRaises | incrementRejected | incrementMissing | recordRejected
  | concludeRejected
  | concludeRaises | commit | interrupt => cases opened

end Delivery

namespace RetryScheduler

/-- The claim of a scheduler keeps the time at which it has begun. -/
theorem Moves.claiming {index : Nat} {world next : World} {phase last : Phase} {event : Event}
    {now : Time} {room : Nat}
    {candidates : List Uuid} {claimed : List Notification}
    (moves : Moves index world phase event next last)
    (reached : last = .claiming now room candidates claimed) :
    ∃ room candidates claimed, phase = .claiming now room candidates claimed := by
  cases moves with
  | skipLocked | skipChanged | lock =>
    cases reached
    exact ⟨_, _, _, rfl⟩
  | commit | enqueue =>
    unfold afterEnqueue at reached
    split at reached <;> cases reached
  | enqueueRaises | abort => cases reached

end RetryScheduler

namespace Engine

variable {config : Config} {engine after : Engine} {event : Event} {events front back : List Event}
    {id : Uuid}
variable {allowed : Engine → Event → Prop} {stored next : StoredNotification}

theorem Moves.clock_le (moves : Moves config engine event after) (sound : Sound config engine) :
    engine.world.clock ≤ after.world.clock := by
  cases moves with
  | tick => exact Nat.le_add_right _ _
  | post | consume | redeliver | beat => exact Nat.le_refl _
  | request found moves => exact (moves.valid sound.world (sound.request found)).2.1.clock
  | worker found moves => exact (moves.valid sound.world (sound.worker found)).2.1.clock
  | scheduler found moves => exact (moves.valid sound.world (sound.scheduler found)).2.1.clock

/-- No transaction of a worker has begun in the future. -/
def Began (engine : Engine) : Prop :=
  ∀ (index : Nat) (execution : Delivery.Execution) persist, engine.executions[index]? =
    some execution →
    execution.phase.transaction = some persist → persist.now ≤ engine.world.clock

theorem Moves.began (moves : Moves config engine event after) (sound : Sound config engine)
    (began : Began engine) :
    Began after := by
  intro index execution persist found opened
  have later := moves.clock_le sound
  rcases moves.execution_cases found with earlier | ⟨id, rfl, _⟩ | ⟨current, _, _, entry, _, moved⟩
  · exact Nat.le_trans (began index execution persist earlier opened) later
  · cases opened
  · rcases moved.transaction opened with before | now
    · exact Nat.le_trans (began index current persist entry before) later
    · exact Nat.le_trans (Nat.le_of_eq now) later

theorem run_began (run : Run (system config) allowed events engine) : Began engine :=
  run.invariant (by simp [Began, system, init]) fun _ _ _ _ earlier began _ taken =>
    (step_moves taken).began (run_sound earlier) began

/-- No claim of a scheduler has begun in the future. -/
def ClaimsBegan (engine : Engine) : Prop :=
  ∀ (index : Nat) now room candidates claimed,
    engine.schedulers[index]? = some (.claiming now room candidates claimed) →
      now ≤ engine.world.clock

theorem Moves.claimsBegan (moves : Moves config engine event after) (sound : Sound config engine)
    (began : ClaimsBegan engine) : ClaimsBegan after := by
  intro index now room candidates claimed found
  have later := moves.clock_le sound
  rcases moves.scheduler_cases found with earlier | ⟨_, _, _, past, same⟩
    | ⟨current, statement, _, entry, moved⟩
  · exact Nat.le_trans (began index now room candidates claimed earlier) later
  · cases same
    exact Nat.le_trans past later
  · obtain ⟨_, _, _, rfl⟩ := moved.claiming rfl
    exact Nat.le_trans (began index _ _ _ _ entry) later

theorem run_claimsBegan (run : Run (system config) allowed events engine) : ClaimsBegan engine :=
  run.invariant (by simp [ClaimsBegan, system, init]) fun _ _ _ _ earlier began _ taken =>
    (step_moves taken).claimsBegan (run_sound earlier) began

/-- A step stamps the rows that it writes with times that have passed. -/
theorem Moves.stamped (moves : Moves config engine event after) (sound : Sound config engine)
    (began : Began engine)
    (claims : ClaimsBegan engine)
    (stamped : ∀ id stored, engine.world.row id = some stored →
      stored.val.Stamped engine.world.clock)
    (present : after.world.row id = some next) : next.val.Stamped after.world.clock := by
  have passed := moves.clock_le sound
  have created := ((moves.sound sound).world.keyed id next present).2
  rcases moves.row_change sound id with same | ⟨_, _, base, rows, published⟩
  · rw [same] at present
    exact (stamped id next present).mono passed
  · rw [present] at rows
    cases published with
    | create found current written =>
      cases rows
      exact Lifecycle.created_stamped written created
    | queue found current names waiting written =>
      cases rows
      exact (Lifecycle.queued_stamped written (stamped id _ base)).mono passed
    | deliver found current names known persisted =>
      cases rows
      have opened := began _ _ _ found (by rw [current]; rfl)
      exact (Lifecycle.delivered_stamped persisted opened (stamped id _ base)).mono passed
    | claim found member due written =>
      cases rows
      exact (Lifecycle.claimed_stamped written (claims _ _ _ _ _ found) (stamped id _ base)).mono
        passed

theorem run_stamped (run : Run (system config) allowed events engine)
    (found : engine.world.row id = some stored) :
    stored.val.Stamped engine.world.clock := by
  induction run generalizing id stored with
  | start => simp [system, init, World.empty, World.row, Table.empty] at found
  | step earlier permitted taken ih =>
    exact (step_moves taken).stamped (run_sound earlier) (run_began earlier)
      (run_claimsBegan earlier)
      (fun _ _ present => ih present) found

/-- The row of a notification is still there after a step, and has not gone back. -/
theorem Moves.advances (moves : Moves config engine event after)
    (run : Run (system config) allowed events engine)
    (found : engine.world.row id = some stored) :
    ∃ next, after.world.row id = some next ∧ stored.val.Advances next.val := by
  have sound := run_sound run
  obtain ⟨next, present, _⟩ := (moves.extends sound).rows id stored found
  refine ⟨next, present, ?_⟩
  rcases moves.publishes sound id with same | published
  · have row : after.world.row id = engine.world.row id := congrArg Lifecycle.row same
    rw [present, found] at row
    rw [Option.some.inj row]
    exact .refl _
  · exact published.step.advances (run_lifecycle run id).shaped found present
      (run_stamped run found)

end Engine

end Relays
