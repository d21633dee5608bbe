import Relays.Engine.World
import Mathlib.Algebra.Group.Nat.Defs

/-! One run of `deliver_notification` by a worker, statement by statement. -/

namespace Relays.Delivery

open ReadCommitted

inductive PermanentFailureException where
  | terminalState (id : Uuid)
  | exhausted (id : Uuid)
  deriving DecidableEq, Repr

def validateDeliveryEligibility (notification : Notification) :
    Except PermanentFailureException Unit :=
  if notification.state = .sent ∨ notification.state = .failed then
    .error (.terminalState notification.id)
  else if notification.maxAttempts ≤ notification.attemptCount then
    .error (.exhausted notification.id)
  else .ok ()

/-- `min(base * 2 ** (attempt - 1), max_delay)`. -/
def cappedDelay (config : Config) (attemptNumber : Nat) : Nat :=
  min (config.initialRetryDelaySeconds * 2 ^ (attemptNumber - 1)) config.maxRetryDelaySeconds

/-- The worker clock plus the drawn delay; `none` is the `ValueError`, or the `OverflowError` of a
sum past the last date. -/
def calculateNextRetryTime (attemptNumber : Nat) (workerNow : Time) (delay : Nat) : Option Time :=
  if attemptNumber < 1 then none
  else if datetimeMax < workerNow + seconds delay then none
  else some (workerNow + seconds delay)

/-- `text or default`: an empty text counts as absent. -/
def textOr (text : Option Text) (default : Text) : Text :=
  match text with
  | none => default
  | some value => if value = ("" : Text) then default else value

/-- The arguments of `persist_delivery_result` and the time its transaction began. -/
structure Persist where
  notification : Notification
  result : ProviderResult
  now : Time

/-- A retry that follows has a date. -/
def Persist.Dated (persist : Persist) (attemptNumber : Nat) (workerNow : Time) (delay : Nat) :
    Prop :=
  persist.result.status = .temporaryFailure → attemptNumber < persist.notification.maxAttempts →
    workerNow + seconds delay ≤ datetimeMax

instance (persist : Persist) (attemptNumber : Nat) (workerNow : Time) (delay : Nat) :
    Decidable (persist.Dated attemptNumber workerNow delay) :=
  inferInstanceAs (Decidable (_ → _ → _))

/-- The update after the attempt is recorded, chosen by the status of the result. -/
def concludingUpdate (persist : Persist) (attemptNumber : Nat) (workerNow : Time) (delay : Nat) :
    Option (Notification → Notification) :=
  match persist.result.status with
  | .success => some (markSent persist.now)
  | .permanentFailure =>
    some (markFailed persist.now (textOr persist.result.errorMessage "Unknown Provider Error"))
  | .temporaryFailure =>
    if persist.notification.maxAttempts ≤ attemptNumber then
      some (markFailed persist.now
        (textOr persist.result.errorMessage "Maximum retry attempts reached."))
    else (calculateNextRetryTime attemptNumber workerNow delay).map (scheduleRetry persist.now)

inductive Ending where
  | delivered
  | missing
  | ineligible (reason : PermanentFailureException)
  | invalidPayload
  | providerRaised
  | rejected
  | raised
  | interrupted
  deriving DecidableEq, Repr

inductive Phase where
  | received
  | loaded (notification : Notification) (payload : EmailPayload)
  | sending (notification : Notification)
  | answered (notification : Notification) (result : ProviderResult)
  | opened (persist : Persist)
  | incremented (persist : Persist) (attemptNumber : Nat)
  | recorded (persist : Persist) (attemptNumber : Nat)
  | concluded (persist : Persist) (attemptNumber : Nat)
  | ended (ending : Ending)

def Phase.ending : Phase → Option Ending
  | .ended ending => some ending
  | _ => none

structure Execution where
  notificationId : Uuid
  phase : Phase

inductive Event where
  | load
  | send
  | answer (result : ProviderResult)
  | providerRaises
  | openTransaction
  | increment
  | record
  | conclude (workerNow : Time) (delay : Nat)
  | commit
  | interrupt

/-- From the loaded row to the call of the provider. The registry knows every
provider the column admits. -/
def afterLoad : Option StoredNotification → Phase
  | none => .ended .missing
  | some stored =>
    match validateDeliveryEligibility stored.val with
    | .error reason => .ended (.ineligible reason)
    | .ok _ =>
      match EmailPayload.modelValidate stored.val.payload with
      | none => .ended .invalidPayload
      | some payload => .loaded stored.val payload

/-- One statement of the execution, `none` when it is not the next one or waits for a lock. -/
def step (config : Config) (index : Nat) (world : World) (execution : Execution) (event : Event) :
    Option (World × Phase) :=
  let tx := Party.worker index
  let id := execution.notificationId
  match execution.phase, event with
  | .received, .load => some (world, afterLoad (world.row id))
  | .loaded notification payload, .send =>
    some ({ world with calls := world.calls ++ [⟨index, id, payload⟩] }, .sending notification)
  | .sending notification, .answer result =>
    some ({ world with results := world.results ++ [⟨index, id, result.status⟩] },
      .answered notification result)
  | .sending _, .providerRaises => some (world, .ended .providerRaised)
  | .answered notification result, .openTransaction =>
    some (world, .opened ⟨notification, result, world.clock⟩)
  | .opened persist, .increment =>
    match world.updateNotification tx id (fun _ => true) (incrementAttemptCount persist.now) with
    | .waits => none
    | .violates => some (world.rollback tx, .ended .rejected)
    | .returns (_, none) => some (world.rollback tx, .ended .raised)
    | .returns (next, some stored) => some (next, .incremented persist stored.val.attemptCount)
  | .incremented persist attemptNumber, .record =>
    match world.insertAttempt tx
        (recordDeliveryAttempt persist.now id attemptNumber persist.result) with
    | .waits => none
    | .violates => some (world.rollback tx, .ended .rejected)
    | .returns next => some (next, .recorded persist attemptNumber)
  | .recorded persist attemptNumber, .conclude workerNow delay =>
    -- `random.randint(0, capped_delay)` draws nothing above the bound
    if cappedDelay config attemptNumber < delay then none else
    match concludingUpdate persist attemptNumber workerNow delay with
    | none => some (world.rollback tx, .ended .raised)
    | some change =>
      match world.updateNotification tx id (fun _ => true) change with
      | .waits => none
      | .violates => some (world.rollback tx, .ended .rejected)
      | .returns (next, _) => some (next, .concluded persist attemptNumber)
  | .concluded _ _, .commit => some (world.commit tx, .ended .delivered)
  | .ended _, .interrupt => none
  | _, .interrupt => some (world.rollback tx, .ended .interrupted)
  | _, _ => none

/-- The whole transaction of `persist_delivery_result` on a row nobody else is
writing: the row and the attempt it commits, `none` when it is rolled back. -/
def persistDeliveryResult (persist : Persist) (id : Uuid) (workerNow : Time) (delay : Nat)
    (stored : StoredNotification) : Option (StoredNotification × DeliveryAttempt) := do
  let counted ← store (incrementAttemptCount persist.now stored.val)
  let attempt := recordDeliveryAttempt persist.now id counted.val.attemptCount persist.result
  guard attempt.storable
  let change ← concludingUpdate persist counted.val.attemptCount workerNow delay
  let final ← store (change counted.val)
  return (final, attempt)

section Specifications

variable {persist : Persist} {attemptNumber delay : Nat} {workerNow : Time} {id : Uuid}
variable {stored next : StoredNotification} {attempt : DeliveryAttempt}
variable {change : Notification → Notification}

theorem Phase.ending_eq_some {phase : Phase} {ending : Ending} :
    phase.ending = some ending ↔ phase = .ended ending := by
  cases phase <;> simp [Phase.ending]

theorem validateDeliveryEligibility_ok {notification : Notification} :
    validateDeliveryEligibility notification = .ok () ↔
      notification.state.terminal = false ∧
        notification.attemptCount < notification.maxAttempts := by
  unfold validateDeliveryEligibility
  cases state : notification.state <;> simp [NotificationState.terminal]

theorem afterLoad_eq_loaded {row : Option StoredNotification} {notification : Notification}
    {payload : EmailPayload} : afterLoad row = .loaded notification payload ↔
      ∃ stored, row = some stored ∧ notification = stored.val ∧
        validateDeliveryEligibility stored.val = .ok () ∧
        EmailPayload.modelValidate stored.val.payload = some payload := by
  cases row with
  | none => simp [afterLoad]
  | some stored =>
    simp only [afterLoad, Option.some.injEq, exists_eq_left']
    split
    · rename_i reason refused
      simp [refused]
    · rename_i eligible
      split
      · rename_i invalid
        simp [invalid]
      · rename_i decoded valid
        simp only [Phase.loaded.injEq, eligible, valid, Option.some.injEq, true_and]
        exact and_congr_left fun _ => eq_comm

/-- Each result status with the one update it leads to. -/
theorem concludingUpdate_cases
    (chosen : concludingUpdate persist attemptNumber workerNow delay = some change) :
    (persist.result.status = .success ∧ change = markSent persist.now) ∨
    ((persist.result.status = .permanentFailure ∨
        persist.result.status = .temporaryFailure ∧
          persist.notification.maxAttempts ≤ attemptNumber) ∧
      ∃ error, change = markFailed persist.now error) ∨
    (persist.result.status = .temporaryFailure ∧
      attemptNumber < persist.notification.maxAttempts ∧
      workerNow + seconds delay ≤ datetimeMax ∧
      change = scheduleRetry persist.now (workerNow + seconds delay)) := by
  unfold concludingUpdate at chosen
  split at chosen
  · rename_i status
    exact .inl ⟨status, (Option.some.inj chosen).symm⟩
  · rename_i status
    exact .inr (.inl ⟨.inl status, _, (Option.some.inj chosen).symm⟩)
  · rename_i status
    split at chosen
    · rename_i exhausted
      exact .inr (.inl ⟨.inr ⟨status, exhausted⟩, _, (Option.some.inj chosen).symm⟩)
    · rename_i room
      unfold calculateNextRetryTime at chosen
      split at chosen
      · cases chosen
      · split at chosen
        · cases chosen
        · rename_i dated
          exact .inr (.inr ⟨status, Nat.not_le.mp room, Nat.not_lt.mp dated,
            (Option.some.inj chosen).symm⟩)

theorem concludingUpdate_isSome_iff (numbered : 1 ≤ attemptNumber) :
    (∃ change, concludingUpdate persist attemptNumber workerNow delay = some change) ↔
      persist.Dated attemptNumber workerNow delay := by
  unfold concludingUpdate Persist.Dated
  cases persist.result.status with
  | success | permanentFailure => simp
  | temporaryFailure =>
    by_cases room : persist.notification.maxAttempts ≤ attemptNumber
    · simp [room, Nat.not_lt.mpr room]
    · simp [room, Nat.not_le.mp room, calculateNextRetryTime, Nat.not_lt.mpr numbered]

theorem concludingUpdate_isSome (numbered : 1 ≤ attemptNumber)
    (dated : persist.Dated attemptNumber workerNow delay) :
    ∃ change, concludingUpdate persist attemptNumber workerNow delay = some change :=
  (concludingUpdate_isSome_iff numbered).mpr dated

theorem persistDeliveryResult_eq_some :
    persistDeliveryResult persist id workerNow delay stored = some (next, attempt) ↔
      ∃ change, (incrementAttemptCount persist.now stored.val).Checks ∧
        persist.result.storable = true ∧
        concludingUpdate persist (stored.val.attemptCount + 1) workerNow delay = some change ∧
        next.val = change (incrementAttemptCount persist.now stored.val) ∧
        attempt =
          recordDeliveryAttempt persist.now id (stored.val.attemptCount + 1) persist.result := by
  constructor
  · intro success
    simp only [persistDeliveryResult, recordDeliveryAttempt_storable, Option.bind_eq_bind,
      Option.bind_eq_some_iff, Option.pure_def, Option.some.injEq, Prod.mk.injEq] at success
    obtain ⟨counted, first, _, storable, change, chosen, final, second, rfl, rfl⟩ := success
    have same := store_eq_some.mp first
    have counts : counted.val.attemptCount = stored.val.attemptCount + 1 := by rw [same]; rfl
    have accepted : persist.result.storable = true := by
      by_contra refused
      simp [guard, refused] at storable
    refine ⟨change, same ▸ counted.property, accepted, by rw [← counts]; exact chosen, ?_,
      by rw [counts]⟩
    rw [← same]
    exact store_eq_some.mp second
  · intro ⟨change, checks, storable, chosen, written, recorded⟩
    have counts : (incrementAttemptCount persist.now stored.val).attemptCount =
        stored.val.attemptCount + 1 := rfl
    simp only [persistDeliveryResult, store_of_checks checks, recordDeliveryAttempt_storable,
      storable, guard, ↓reduceIte, Option.pure_def, Option.bind_eq_bind, Option.bind_some, counts,
      chosen, store_eq_some.mpr written]
    simp [recorded]

end Specifications

end Relays.Delivery
