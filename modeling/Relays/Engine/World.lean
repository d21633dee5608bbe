import Relays.Library.ReadCommitted
import Relays.Core.Idempotency
import Relays.Notifications.Queries

/-! What the participants of the delivery engine share: the Postgres tables, the
Celery queues, the clock, and the record of what was published and sent. -/

namespace Relays

open ReadCommitted

/-- The process that runs a transaction; each runs at most one at a time. -/
inductive Party where
  | request (index : Nat)
  | worker (index : Nat)
  | scheduler (index : Nat)
  deriving DecidableEq, Repr

/-- One call of `provider.send`. -/
structure SendCall where
  execution : Nat
  notificationId : Uuid
  payload : EmailPayload

/-- One `provider.send` call that returned a result. -/
structure SendResult where
  execution : Nat
  notificationId : Uuid
  status : DeliveryStatus
  deriving DecidableEq

structure Config where
  canonicalHash : Json Text → String
  initialRetryDelaySeconds : Nat
  maxRetryDelaySeconds : Nat

structure World where
  clock : Time
  notifications : Table Uuid Party StoredNotification
  notificationIds : List Uuid
  attempts : Heap Party DeliveryAttempt
  idempotency : Table IdempotencyKey Party IdempotencyRecord
  idempotencySequence : Nat
  queues : NotificationChannel → List Uuid
  published : List Uuid
  calls : List SendCall
  results : List SendResult

namespace World

def empty : World where
  clock := 0
  notifications := Table.empty
  notificationIds := []
  attempts := ⟨[], []⟩
  idempotency := Table.empty
  idempotencySequence := 0
  queues := fun _ => []
  published := []
  calls := []
  results := []

/-- The committed row of a notification. -/
def row (world : World) (id : Uuid) : Option StoredNotification :=
    (world.notifications id).committed

/-- The committed rows, in heap order. -/
def rows (world : World) : List Notification :=
  world.notificationIds.filterMap (fun id => (world.row id).map Subtype.val)

def commit (world : World) (tx : Party) : World :=
  { world with
    notifications := world.notifications.commit tx
    attempts := world.attempts.commit tx
    idempotency := world.idempotency.commit tx }

def rollback (world : World) (tx : Party) : World :=
  { world with
    notifications := world.notifications.rollback tx
    attempts := world.attempts.rollback tx
    idempotency := world.idempotency.rollback tx }

/-- `UPDATE notifications SET change WHERE id AND matching RETURNING *`. -/
def updateNotification (world : World) (tx : Party) (id : Uuid) (matching : Notification → Bool)
    (change : Notification → Notification) : Statement (World × Option StoredNotification) :=
  match world.notifications.update id tx (fun stored => matching stored.val)
      (fun stored => store (change stored.val)) with
  | .waits => .waits
  | .violates => .violates
  | .returns (table, updated) => .returns ({ world with notifications := table }, updated)

/-- `INSERT INTO delivery_attempts`: values that the columns can hold, under `chk_attempt_number`
and `chk_unique_attempt`. -/
def insertAttempt (world : World) (tx : Party) (attempt : DeliveryAttempt) : Statement World :=
  if attempt.storable = false then .violates else
  if attempt.attemptNumber < 1 then .violates else
  match world.attempts.insert tx attempt (fun other =>
      decide (other.notificationId = attempt.notificationId ∧
        other.attemptNumber = attempt.attemptNumber)) with
  | .waits => .waits
  | .violates => .violates
  | .returns heap => .returns { world with attempts := heap }

/-- `NotificationQueue.enqueue`: a message on the queue of the channel. -/
def enqueue (world : World) (id : Uuid) (channel : NotificationChannel) : World :=
  { world with
    queues := Function.update world.queues channel (world.queues channel ++ [id])
    published := world.published ++ [id] }

/-- What one party may do to the transactions of the others. -/
structure Frame (tx : Party) (before after : World) : Prop where
  notifications : Table.Frame tx before.notifications after.notifications
  attempts : Heap.Frame tx before.attempts after.attempts
  idempotency : Table.Frame tx before.idempotency after.idempotency

end World

end Relays
