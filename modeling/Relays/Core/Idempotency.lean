import Relays.Notifications.Records

namespace Relays

/-- The columns of the unique constraint of `idempotency_keys`. -/
structure IdempotencyKey where
  idempotencyKey : Uuid
  apiKeyId : Uuid
  method : String
  path : String
  deriving DecidableEq

inductive IdempotencyState where
  | processing
  | completed
  | failed
  deriving DecidableEq, Repr

structure IdempotencyRecord where
  id : Nat
  requestHash : String
  notificationId : Option Uuid
  status : IdempotencyState
  createdAt : Time
  updatedAt : Time
  expiresAt : Time

/-- The row inserted by `insert_idem_keys`, expiring after `interval '24 hours'`. -/
def insertIdemKeys (now : Time) (id : Nat) (requestHash : String) : IdempotencyRecord where
  id := id
  requestHash := requestHash
  notificationId := none
  status := .processing
  createdAt := now
  updatedAt := now
  expiresAt := now + seconds (24 * 60 * 60)

def completeIdempotency (notificationId : Uuid) (record : IdempotencyRecord) : IdempotencyRecord :=
  { record with status := .completed, notificationId := some notificationId }

end Relays
