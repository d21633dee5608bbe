import Relays.Core.Time
import Relays.Notifications.Schemas
import Mathlib.Data.Option.Basic

/-! Rows of `notifications` and `delivery_attempts`. A stored notification
carries its CHECK constraints: the table cannot hold a row that breaks one. -/

namespace Relays

inductive NotificationState where
  | created
  | queued
  | processing
  | sent
  | failed
  deriving DecidableEq, Repr

def NotificationState.terminal : NotificationState → Bool
  | .sent | .failed => true
  | .created | .queued | .processing => false

inductive EmailNotificationProviders where
  | mailrelay
  | fake
  deriving DecidableEq, Repr

inductive DeliveryStatus where
  | success
  | temporaryFailure
  | permanentFailure
  deriving DecidableEq, Repr

/-- `chk_channel` and `chk_provider` hold by the types of their columns. -/
structure Notification where
  id : Uuid
  workspaceId : Uuid
  apiKeyId : Uuid
  channel : NotificationChannel
  provider : EmailNotificationProviders
  recipient : String
  payload : Json Text
  metadata : Json Text
  state : NotificationState := .created
  attemptCount : Nat := 0
  maxAttempts : Nat := 5
  nextRetryAt : Option Time := none
  queuedAt : Option Time := none
  lastAttemptAt : Option Time := none
  lastError : Option Text := none
  sentAt : Option Time := none
  createdAt : Time
  updatedAt : Time

/-- The CHECK constraints of the table, by their names, and what its `jsonb` columns can hold. -/
structure Notification.Checks (row : Notification) : Prop where
  chkAttemptBounds : 0 < row.maxAttempts ∧ row.attemptCount ≤ row.maxAttempts
  chkPayloadIsObject : row.payload.isObject = true
  chkTimestampSanity : (∀ time ∈ row.lastAttemptAt, row.createdAt ≤ time) ∧
    (∀ time ∈ row.sentAt, row.createdAt ≤ time)
  chkUpdateAfterCreated : row.createdAt ≤ row.updatedAt
  recipientNotEmpty : 0 < row.recipient.length
  chkQueuedAt : ∀ time ∈ row.queuedAt, row.createdAt ≤ time
  chkNextRetryAt : ∀ time ∈ row.nextRetryAt, row.createdAt ≤ time
  chkSentAtTimestamp : row.state = .sent ↔ row.sentAt.isSome = true
  chkRetryStates :
    row.state ∈ [NotificationState.created, .queued, .processing] ∨ row.nextRetryAt = none
  columnsStorable : row.payload.storable = true ∧ row.metadata.storable = true

theorem Notification.checks_iff (row : Notification) : row.Checks ↔
    (0 < row.maxAttempts ∧ row.attemptCount ≤ row.maxAttempts) ∧ row.payload.isObject = true ∧
    ((∀ time ∈ row.lastAttemptAt, row.createdAt ≤ time) ∧
      (∀ time ∈ row.sentAt, row.createdAt ≤ time)) ∧
    row.createdAt ≤ row.updatedAt ∧ 0 < row.recipient.length ∧
    (∀ time ∈ row.queuedAt, row.createdAt ≤ time) ∧
    (∀ time ∈ row.nextRetryAt, row.createdAt ≤ time) ∧
    (row.state = .sent ↔ row.sentAt.isSome = true) ∧
    (row.state ∈ [NotificationState.created, .queued, .processing] ∨ row.nextRetryAt = none) ∧
    (row.payload.storable = true ∧ row.metadata.storable = true) := by
  constructor
  · intro checks
    exact ⟨checks.chkAttemptBounds, checks.chkPayloadIsObject, checks.chkTimestampSanity,
      checks.chkUpdateAfterCreated, checks.recipientNotEmpty, checks.chkQueuedAt,
      checks.chkNextRetryAt, checks.chkSentAtTimestamp, checks.chkRetryStates,
      checks.columnsStorable⟩
  · intro ⟨bounds, payload, sanity, updated, recipient, queued, retry, sent, states, storable⟩
    exact ⟨bounds, payload, sanity, updated, recipient, queued, retry, sent, states, storable⟩

instance (row : Notification) : Decidable row.Checks :=
  decidable_of_iff _ row.checks_iff.symm

abbrev StoredNotification := { row : Notification // row.Checks }

/-- Write a row version unless it breaks a CHECK constraint. -/
def store (row : Notification) : Option StoredNotification :=
  if checks : row.Checks then some ⟨row, checks⟩ else none

theorem store_eq_some {row : Notification} {stored : StoredNotification} :
    store row = some stored ↔ stored.val = row := by
  constructor
  · intro success
    unfold store at success
    split at success
    · exact congrArg Subtype.val (Option.some.inj success).symm
    · cases success
  · intro same
    subst same
    simp [store, stored.property]

theorem store_eq_none {row : Notification} : store row = none ↔ ¬ row.Checks := by
  unfold store
  split <;> simp_all

theorem store_of_checks {row : Notification} (checks : row.Checks) :
    store row = some ⟨row, checks⟩ :=
  store_eq_some.mpr rfl

/-- The driver and PostgreSQL take these values of `delivery_attempts`. -/
def columnsStorable (texts : List (Option Text)) (response : Option (Json Text)) : Bool :=
  texts.all (fun text => text.all Text.storable) && response.all Json.storable

structure DeliveryAttempt where
  notificationId : Uuid
  attemptNumber : Nat
  status : DeliveryStatus
  provider : EmailNotificationProviders
  errorMessage : Option Text
  providerErrorCode : Option Text
  providerMessageId : Option Text
  rawProviderResponse : Option (Json Text)
  createdAt : Time

def DeliveryAttempt.storable (attempt : DeliveryAttempt) : Bool :=
  columnsStorable [attempt.errorMessage, attempt.providerErrorCode, attempt.providerMessageId]
    attempt.rawProviderResponse

/-- The texts of a success are numbers, addresses and dates, by both providers. -/
structure ProviderResult where
  status : DeliveryStatus
  provider : EmailNotificationProviders
  providerMessageId : Option Text := none
  providerErrorCode : Option Text := none
  errorMessage : Option Text := none
  rawProviderResponse : Option (Json Text) := none
  successStorable : status = .success →
    columnsStorable [errorMessage, providerErrorCode, providerMessageId] rawProviderResponse = true

/-- The attempt that records the result is accepted. -/
def ProviderResult.storable (result : ProviderResult) : Bool :=
  columnsStorable [result.errorMessage, result.providerErrorCode, result.providerMessageId]
    result.rawProviderResponse

end Relays
