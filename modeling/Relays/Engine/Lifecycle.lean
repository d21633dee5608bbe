import Relays.Engine.Delivery
import Relays.Engine.Submission
import Relays.Engine.WorldInvariant
import Mathlib.Logic.Relation

/-! The purpose of the engine for one notification: a row that moves through its
states and a ledger of the attempts made for it, each change one transaction. -/

namespace Relays

/-- One notification as the committed tables show it. -/
structure Lifecycle where
  row : Option StoredNotification
  attempts : List DeliveryAttempt

/-- The shapes of a committed row. -/
inductive Shape where
  | created
  | queued
  | retrying
  | processing
  | sent
  | failed
  deriving DecidableEq, Repr

namespace Shape

def Fits (row : Notification) : Shape → Prop
  | .created => row.state = .created ∧ row.attemptCount = 0 ∧ row.nextRetryAt = none
  | .queued => row.state = .queued ∧ row.nextRetryAt = none ∧ row.attemptCount = 0
  | .retrying => row.state = .queued ∧ row.nextRetryAt.isSome = true ∧
      1 ≤ row.attemptCount ∧ row.attemptCount < row.maxAttempts
  | .processing => row.state = .processing ∧ row.nextRetryAt = none ∧
      1 ≤ row.attemptCount ∧ row.attemptCount < row.maxAttempts
  | .sent => row.state = .sent ∧ row.nextRetryAt = none ∧ row.sentAt.isSome = true ∧
      1 ≤ row.attemptCount ∧ row.attemptCount ≤ row.maxAttempts
  | .failed => row.state = .failed ∧ row.nextRetryAt = none ∧ row.sentAt = none ∧
      1 ≤ row.attemptCount ∧ row.attemptCount ≤ row.maxAttempts

variable {row : Notification} {first second shape : Shape}

/-- No row has two shapes. -/
theorem Fits.unique (one : first.Fits row) (two : second.Fits row) : first = second := by
  cases first <;> cases second <;> simp_all [Fits]

theorem Fits.terminal_of_exhausted (fits : shape.Fits row) (positive : 0 < row.maxAttempts)
    (exhausted : row.maxAttempts ≤ row.attemptCount) : row.state.terminal = true := by
  cases shape with
  | created =>
    obtain ⟨_, unattempted, _⟩ := fits
    omega
  | queued =>
    obtain ⟨_, _, unattempted⟩ := fits
    omega
  | retrying =>
    obtain ⟨_, _, _, room⟩ := fits
    omega
  | processing =>
    obtain ⟨_, _, _, room⟩ := fits
    omega
  | sent =>
    obtain ⟨state, _⟩ := fits
    simp [state, NotificationState.terminal]
  | failed =>
    obtain ⟨state, _⟩ := fits
    simp [state, NotificationState.terminal]

end Shape

namespace Lifecycle

def empty : Lifecycle := ⟨none, []⟩

/-- The committed changes of one notification. -/
inductive Step (id : Uuid) : Lifecycle → Lifecycle → Prop where
  | create {stored : StoredNotification} {arguments : Submission.Arguments}
      (written : stored.val = Submission.newNotification arguments now id) :
      Step id ⟨none, history⟩ ⟨some stored, history⟩
  | queue {stored next : StoredNotification} (waiting : awaitsQueueing stored.val = true)
      (written : next.val = markQueued now stored.val) :
      Step id ⟨some stored, history⟩ ⟨some next, history⟩
  | deliver {stored next : StoredNotification} {persist : Delivery.Persist}
      (known : persist.notification.maxAttempts = stored.val.maxAttempts)
      (persisted : Delivery.persistDeliveryResult persist id workerNow delay stored =
        some (next, attempt)) :
      Step id ⟨some stored, history⟩ ⟨some next, history ++ [attempt]⟩
  | claim {stored next : StoredNotification} (due : retryable now stored.val = true)
      (written : next.val = claimRetry now stored.val) :
      Step id ⟨some stored, history⟩ ⟨some next, history⟩

variable {id : Uuid} {before after : Lifecycle} {stored next : StoredNotification}
variable {persist : Delivery.Persist} {workerNow : Time} {delay : Nat} {attempt : DeliveryAttempt}

section Delivered

variable (persisted : Delivery.persistDeliveryResult persist id workerNow delay stored =
    some (next, attempt))

include persisted

/-- A delivery adds one to the count and records the attempt under that number. -/
theorem delivered_counts : stored.val.attemptCount < stored.val.maxAttempts ∧
    next.val.attemptCount = stored.val.attemptCount + 1 ∧
      next.val.maxAttempts = stored.val.maxAttempts ∧
    attempt = recordDeliveryAttempt persist.now id
      (stored.val.attemptCount + 1) persist.result := by
  obtain ⟨change, checks, _, chosen, written, recorded⟩ :=
    Delivery.persistDeliveryResult_eq_some.mp persisted
  have room := ((incrementAttemptCount_checks_iff stored.property).mp checks).1
  rcases Delivery.concludingUpdate_cases chosen with ⟨_, rfl⟩ | ⟨_, error, rfl⟩ | ⟨_, _, _, rfl⟩ <;>
    exact ⟨room, by rw [written]; rfl, by rw [written]; rfl, recorded⟩

/-- The state a result leads to; a sent row accepts nothing but a success. -/
theorem delivered_state :
    (persist.result.status = .success ∧ next.val.state = .sent ∧ next.val.nextRetryAt = none) ∨
    (stored.val.state ≠ .sent ∧ (persist.result.status = .permanentFailure ∨
        persist.result.status = .temporaryFailure ∧
          persist.notification.maxAttempts ≤ stored.val.attemptCount + 1) ∧
      next.val.state = .failed ∧ next.val.nextRetryAt = none) ∨
    (stored.val.state ≠ .sent ∧ persist.result.status = .temporaryFailure ∧
      stored.val.attemptCount + 1 < persist.notification.maxAttempts ∧
      next.val.state = .queued ∧ next.val.nextRetryAt = some (workerNow + seconds delay)) := by
  obtain ⟨change, checks, _, chosen, written, _⟩ :=
    Delivery.persistDeliveryResult_eq_some.mp persisted
  have valid := next.property
  rw [written] at valid ⊢
  rcases Delivery.concludingUpdate_cases chosen with ⟨success, rfl⟩ | ⟨failure, error, rfl⟩
    | ⟨failure, room, _, rfl⟩
  · exact .inl ⟨success, rfl, rfl⟩
  · exact .inr (.inl ⟨((markFailed_checks_iff checks).mp valid).1, failure, rfl, rfl⟩)
  · exact .inr (.inr ⟨((scheduleRetry_checks_iff checks).mp valid).1, failure, room, rfl, rfl⟩)

theorem delivered_sent_iff :
    next.val.state = .sent ↔ stored.val.state = .sent ∨ persist.result.status = .success := by
  rcases delivered_state persisted with
    ⟨success, sent, _⟩ | ⟨unsent, failure, failed, _⟩ | ⟨unsent, failure, _, queued, _⟩
  · simp [success, sent]
  · rcases failure with failure | ⟨failure, _⟩ <;> simp [unsent, failed, failure]
  · simp [unsent, queued, failure]

end Delivered

/-- Every committed row has one of the six shapes. -/
def Shaped (view : Lifecycle) : Prop :=
  ∀ stored, view.row = some stored → ∃ shape : Shape, shape.Fits stored.val

/-- The attempts are numbered as the row counts them. -/
def Ledger (id : Uuid) (view : Lifecycle) : Prop :=
  (view.row = none → view.attempts = []) ∧
    (∀ attempt ∈ view.attempts, attempt.notificationId = id) ∧
    ∀ stored, view.row = some stored →
      view.attempts.map DeliveryAttempt.attemptNumber = List.range' 1 stored.val.attemptCount

def Succeeded (view : Lifecycle) : Prop := ∃ attempt ∈ view.attempts, attempt.status = .success

/-- The row is sent exactly when a success is on record. -/
def Acknowledged (view : Lifecycle) : Prop :=
  (view.row = none → view.attempts = []) ∧
    ∀ stored, view.row = some stored → (stored.val.state = .sent ↔ view.Succeeded)

theorem Step.shaped (step : Step id before after) (shaped : before.Shaped) : after.Shaped := by
  intro final present
  cases step with
  | create written =>
    cases present
    exact ⟨.created, by rw [written]; exact ⟨rfl, rfl, rfl⟩⟩
  | @queue now history stored next waiting written =>
    cases present
    obtain ⟨shape, fits⟩ := shaped stored rfl
    have fresh : stored.val.state = .created := by simpa [awaitsQueueing] using waiting
    cases shape with
    | created =>
      obtain ⟨_, unattempted, unscheduled⟩ := fits
      exact ⟨.queued, by rw [written]; exact ⟨rfl, unscheduled, unattempted⟩⟩
    | _ => simp [Shape.Fits, fresh] at fits
  | @deliver workerNow delay history attempt stored next persist known persisted =>
    cases present
    obtain ⟨room, counted, bounded, _⟩ := delivered_counts persisted
    rcases delivered_state persisted with
      ⟨_, sent, unscheduled⟩ | ⟨_, _, failed, unscheduled⟩ | ⟨_, _, left, queued, scheduled⟩
    · have stamped := final.property.chkSentAtTimestamp.mp sent
      exact ⟨.sent, sent, unscheduled, stamped, by omega, by omega⟩
    · have unstamped := final.property.sentAt_none (by simp [failed])
      exact ⟨.failed, failed, unscheduled, unstamped, by omega, by omega⟩
    · exact ⟨.retrying, queued, by simp [scheduled], by omega, by omega⟩
  | @claim now history stored next due written =>
    cases present
    obtain ⟨shape, fits⟩ := shaped stored rfl
    obtain ⟨queued, time, scheduled, _⟩ := retryable_iff.mp due
    cases shape with
    | retrying =>
      obtain ⟨_, _, attempted, room⟩ := fits
      exact ⟨.processing, by rw [written]; exact ⟨rfl, rfl, attempted, room⟩⟩
    | _ => simp [Shape.Fits, queued, scheduled] at fits

theorem Step.ledger (step : Step id before after)
    (ledger : before.Ledger id) : after.Ledger id := by
  obtain ⟨absent, named, numbered⟩ := ledger
  cases step with
  | @create _ history stored _ written =>
    obtain rfl : history = [] := absent rfl
    refine ⟨by simp, named, ?_⟩
    intro final present
    cases present
    have unattempted : stored.val.attemptCount = 0 := by rw [written]; rfl
    simp only [unattempted, List.map_nil, List.range'_zero]
  | queue waiting written =>
    refine ⟨by simp, named, ?_⟩
    intro final present
    cases present
    rw [numbered _ rfl, written]
    rfl
  | deliver known persisted =>
    obtain ⟨_, counted, _, recorded⟩ := delivered_counts persisted
    refine ⟨by simp, ?_, ?_⟩
    · intro attempt member
      rcases List.mem_append.mp member with earlier | added
      · exact named attempt earlier
      · rw [List.mem_singleton.mp added, recorded]
        rfl
    · intro final present
      cases present
      rw [List.map_append, numbered _ rfl, counted, List.range'_concat, recorded]
      simp [recordDeliveryAttempt, Nat.add_comm]
  | claim due written =>
    refine ⟨by simp, named, ?_⟩
    intro final present
    cases present
    rw [numbered _ rfl, written]
    rfl

theorem Step.acknowledged (step : Step id before after) (acknowledged : before.Acknowledged) :
    after.Acknowledged := by
  obtain ⟨absent, sent⟩ := acknowledged
  cases step with
  | @create _ history stored _ written =>
    obtain rfl : history = [] := absent rfl
    refine ⟨by simp, ?_⟩
    intro final present
    cases present
    have fresh : stored.val.state = .created := by rw [written]; rfl
    simp [fresh, Succeeded]
  | @queue _ history stored next waiting written =>
    refine ⟨by simp, ?_⟩
    intro final present
    cases present
    have fresh : stored.val.state = .created := by simpa [awaitsQueueing] using waiting
    have unsent := sent _ rfl
    rw [fresh] at unsent
    simpa [written, markQueued, Succeeded] using unsent
  | deliver known persisted =>
    obtain ⟨_, _, _, recorded⟩ := delivered_counts persisted
    refine ⟨by simp, ?_⟩
    intro final present
    cases present
    have earlier := sent _ rfl
    rw [delivered_sent_iff persisted, earlier]
    simp [Succeeded, recorded, recordDeliveryAttempt, or_and_right, exists_or]
  | claim due written =>
    refine ⟨by simp, ?_⟩
    intro final present
    cases present
    have queued := (retryable_iff.mp due).1
    have unsent := sent _ rfl
    rw [queued] at unsent
    simpa [written, claimRetry, Succeeded] using unsent

/-- The histories of one notification. -/
abbrev Reaches (id : Uuid) (view : Lifecycle) : Prop := Relation.ReflTransGen (Step id) empty view

/-- What the creation establishes and every later change keeps. -/
theorem Reaches.invariant {holds : Lifecycle → Prop} {view : Lifecycle} (reaches : Reaches id view)
    (initial : holds empty) (kept : ∀ before after, Step id before after → holds before →
      holds after) :
    holds view := by
  induction reaches with
  | refl => exact initial
  | tail _ step ih => exact kept _ _ step ih

variable {view : Lifecycle}

theorem Reaches.shaped (reaches : Reaches id view) : view.Shaped :=
  reaches.invariant (by simp [Shaped, empty]) fun _ _ step => step.shaped

theorem Reaches.ledger (reaches : Reaches id view) : view.Ledger id :=
  reaches.invariant (by simp [Ledger, empty]) fun _ _ step => step.ledger

theorem Reaches.acknowledged (reaches : Reaches id view) : view.Acknowledged :=
  reaches.invariant (by simp [Acknowledged, empty]) fun _ _ step => step.acknowledged

end Lifecycle

end Relays
