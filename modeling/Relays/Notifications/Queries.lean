import Relays.Notifications.Records
import Mathlib.Data.List.Sort

/-! What each query of the notification tables does to a row, with the exact
condition under which the table accepts the row it writes. -/

namespace Relays

/-- `create_notification`: the remaining columns take their defaults. -/
def createNotification (now : Time) (id workspaceId apiKeyId : Uuid) (channel : NotificationChannel)
    (provider : EmailNotificationProviders) (recipient : String)
    (payload metadata : Json Text) : Notification :=
  { id, workspaceId, apiKeyId, channel, provider, recipient, payload, metadata,
    createdAt := now, updatedAt := now }

/-- The WHERE clause of `mark_queued`. -/
def awaitsQueueing (row : Notification) : Bool := row.state = .created

def markQueued (now : Time) (row : Notification) : Notification :=
  { row with state := .queued, queuedAt := some now, updatedAt := now }

def markSent (now : Time) (row : Notification) : Notification :=
  { row with
    state := .sent
    sentAt := some now
    lastAttemptAt := some now
    updatedAt := now
    nextRetryAt := none }

def markFailed (now : Time) (error : Text) (row : Notification) : Notification :=
  { row with
    state := .failed
    lastError := some error
    lastAttemptAt := some now
    updatedAt := now
    nextRetryAt := none }

def incrementAttemptCount (now : Time) (row : Notification) : Notification :=
  { row with
    attemptCount := row.attemptCount + 1
    lastAttemptAt := some now
    updatedAt := now }

def scheduleRetry (now nextRetryAt : Time) (row : Notification) : Notification :=
  { row with state := .queued, nextRetryAt := some nextRetryAt, updatedAt := now }

/-- The WHERE clause of `claim_retryable_notifications`. -/
def retryable (now : Time) (row : Notification) : Bool :=
  match row.nextRetryAt with
  | some due => row.state = .queued && due ≤ now
  | none => false

/-- `ORDER BY next_retry_at ASC, created_at ASC`. -/
def retryOrder (first second : Notification) : Prop :=
  first.nextRetryAt.getD 0 < second.nextRetryAt.getD 0 ∨
    (first.nextRetryAt.getD 0 = second.nextRetryAt.getD 0 ∧ first.createdAt ≤ second.createdAt)

instance : DecidableRel retryOrder := fun first second =>
  inferInstanceAs (Decidable (first.nextRetryAt.getD 0 < second.nextRetryAt.getD 0 ∨ _))

/-- The SET clause of `claim_retryable_notifications`. -/
def claimRetry (now : Time) (row : Notification) : Notification :=
  { row with state := .processing, nextRetryAt := none, updatedAt := now }

/-- The scan of `claim_retryable_notifications`: the matching rows in retry order. -/
def retryCandidates (now : Time) (rows : List Notification) : List Notification :=
  (rows.filter (retryable now)).insertionSort retryOrder

def recordDeliveryAttempt (now : Time) (notificationId : Uuid) (attemptNumber : Nat)
    (result : ProviderResult) : DeliveryAttempt where
  notificationId := notificationId
  attemptNumber := attemptNumber
  status := result.status
  provider := result.provider
  errorMessage := result.errorMessage
  providerErrorCode := result.providerErrorCode
  providerMessageId := result.providerMessageId
  rawProviderResponse := result.rawProviderResponse
  createdAt := now

@[simp]
theorem recordDeliveryAttempt_storable {now : Time} {id : Uuid} {attemptNumber : Nat}
    {result : ProviderResult} :
    (recordDeliveryAttempt now id attemptNumber result).storable = result.storable := rfl

theorem createNotification_checks_iff {now : Time} {id : Uuid} {channel : NotificationChannel}
    {provider : EmailNotificationProviders} {payload metadata : Json Text} :
    (createNotification now id workspaceId apiKeyId channel provider recipient payload
      metadata).Checks ↔ payload.isObject = true ∧ 0 < recipient.length ∧
        payload.storable = true ∧ metadata.storable = true := by
  simp [Notification.checks_iff, createNotification]

section Updates

variable {row : Notification} {now next : Time} {error : Text}

theorem retryable_iff : retryable now row = true ↔
    row.state = .queued ∧ ∃ due, row.nextRetryAt = some due ∧ due ≤ now := by
  unfold retryable
  split <;> simp_all

theorem Notification.Checks.sentAt_none (checks : row.Checks) (unsent : row.state ≠ .sent) :
    row.sentAt = none := by
  have absent : ¬ row.sentAt.isSome = true :=
    fun present => unsent (checks.chkSentAtTimestamp.mpr present)
  simpa using absent

theorem markQueued_checks_iff (checks : row.Checks) (waiting : awaitsQueueing row = true) :
    (markQueued now row).Checks ↔ row.createdAt ≤ now := by
  have fresh : row.state = .created := by simpa [awaitsQueueing] using waiting
  have unsent := checks.sentAt_none (by simp [fresh])
  constructor
  · intro updated
    exact updated.chkUpdateAfterCreated
  · intro later
    exact { checks with
      chkUpdateAfterCreated := later
      chkQueuedAt := by simpa [markQueued] using later
      chkSentAtTimestamp := by simp [markQueued, unsent]
      chkRetryStates := .inl (by simp [markQueued]) }

theorem incrementAttemptCount_checks_iff (checks : row.Checks) :
    (incrementAttemptCount now row).Checks ↔
      row.attemptCount < row.maxAttempts ∧ row.createdAt ≤ now := by
  constructor
  · intro updated
    exact ⟨updated.chkAttemptBounds.2, updated.chkUpdateAfterCreated⟩
  · intro ⟨room, later⟩
    exact { checks with
      chkAttemptBounds := ⟨checks.chkAttemptBounds.1, room⟩
      chkTimestampSanity :=
        ⟨by simpa [incrementAttemptCount] using later, checks.chkTimestampSanity.2⟩
      chkUpdateAfterCreated := later }

theorem markSent_checks_iff (checks : row.Checks) :
    (markSent now row).Checks ↔ row.createdAt ≤ now := by
  constructor
  · intro updated
    exact updated.chkUpdateAfterCreated
  · intro later
    exact { checks with
      chkTimestampSanity := ⟨by simpa [markSent] using later, by simpa [markSent] using later⟩
      chkUpdateAfterCreated := later
      chkNextRetryAt := by simp [markSent]
      chkSentAtTimestamp := by simp [markSent]
      chkRetryStates := .inr rfl }

/-- Only `chk_sent_at_timestamp` keeps a sent row from being marked failed. -/
theorem markFailed_checks_iff (checks : row.Checks) :
    (markFailed now error row).Checks ↔ row.state ≠ .sent ∧ row.createdAt ≤ now := by
  constructor
  · intro updated
    refine ⟨?_, updated.chkUpdateAfterCreated⟩
    intro sent
    have stamped := checks.chkSentAtTimestamp.mp sent
    simpa [markFailed] using updated.chkSentAtTimestamp.mpr stamped
  · intro ⟨unsent, later⟩
    have absent := checks.sentAt_none unsent
    exact { checks with
      chkTimestampSanity := ⟨by simpa [markFailed] using later, checks.chkTimestampSanity.2⟩
      chkUpdateAfterCreated := later
      chkNextRetryAt := by simp [markFailed]
      chkSentAtTimestamp := by simp [markFailed, absent]
      chkRetryStates := .inr rfl }

theorem scheduleRetry_checks_iff (checks : row.Checks) :
    (scheduleRetry now next row).Checks ↔
      row.state ≠ .sent ∧ row.createdAt ≤ now ∧ row.createdAt ≤ next := by
  constructor
  · intro updated
    refine ⟨?_, updated.chkUpdateAfterCreated, updated.chkNextRetryAt next rfl⟩
    intro sent
    have stamped := checks.chkSentAtTimestamp.mp sent
    simpa [scheduleRetry] using updated.chkSentAtTimestamp.mpr stamped
  · intro ⟨unsent, later, due⟩
    have absent := checks.sentAt_none unsent
    exact { checks with
      chkUpdateAfterCreated := later
      chkNextRetryAt := by simpa [scheduleRetry] using due
      chkSentAtTimestamp := by simp [scheduleRetry, absent]
      chkRetryStates := .inl (by simp [scheduleRetry]) }

/-- A claim is never rejected: the due time of the row bounds its creation. -/
theorem claimRetry_checks (checks : row.Checks) (due : retryable now row = true) :
    (claimRetry now row).Checks := by
  obtain ⟨queued, time, stamp, passed⟩ := retryable_iff.mp due
  have later : row.createdAt ≤ now := Nat.le_trans (checks.chkNextRetryAt time stamp) passed
  have unsent := checks.sentAt_none (by simp [queued])
  exact { checks with
    chkUpdateAfterCreated := later
    chkNextRetryAt := by simp [claimRetry]
    chkSentAtTimestamp := by simp [claimRetry, unsent]
    chkRetryStates := .inr rfl }

end Updates

end Relays
