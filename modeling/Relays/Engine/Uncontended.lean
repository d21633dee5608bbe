import Relays.Engine.Deliverability

/-! `persist_delivery_result` on a notification that nobody else is writing. No constraint of its
tables stops it, and it leaves a row to which the same applies; what stops it are texts that the
database cannot hold, and a retry after the last date. -/

namespace Relays

open ReadCommitted

namespace Delivery

variable {config : Config} {index : Nat} {world : World} {id : Uuid} {stored : StoredNotification}
variable {persist : Persist} {workerNow : Time} {delay : Nat}

theorem persists_uncontended_iff (alone : Alone index world id stored)
    (eligible : validateDeliveryEligibility stored.val = .ok ())
    (known : persist.notification = stored.val)
    (began : stored.val.createdAt ≤ persist.now) (later : stored.val.createdAt ≤ workerNow)
    (drawn : delay ≤ cappedDelay config (stored.val.attemptCount + 1)) :
    (∃ next version, statements config index world ⟨id, .opened persist⟩
        (persisting workerNow delay) = some (next, ⟨id, .ended .delivered⟩) ∧
      next.attempts.committed = world.attempts.committed ++
        [recordDeliveryAttempt persist.now id (stored.val.attemptCount + 1) persist.result] ∧
      version.val.Checks ∧ Alone index next id version) ↔
      persist.result.storable = true ∧
        persist.Dated (stored.val.attemptCount + 1) workerNow delay := by
  have accepted : (∃ version attempt,
      persistDeliveryResult persist id workerNow delay stored = some (version, attempt)) ↔ _ :=
    persistDeliveryResult_isSome_iff eligible known began
  have due : stored.val.createdAt ≤ workerNow + seconds delay := Nat.le_add_right_of_le later
  constructor
  · intro ⟨next, _, done, _⟩
    have persisted : ∃ version attempt,
        persistDeliveryResult persist id workerNow delay stored = some (version, attempt) := by
      cases result : persistDeliveryResult persist id workerNow delay stored with
      | none =>
        rw [alone.refuses drawn result] at done
        cases done
      | some pair => exact ⟨pair.1, pair.2, rfl⟩
    obtain ⟨storable, dated⟩ := accepted.mp persisted
    refine ⟨storable, fun failure left => (dated failure ?_).2⟩
    rw [known] at left
    exact left
  · intro ⟨storable, dated⟩
    obtain ⟨version, attempt, persisted⟩ := accepted.mpr ⟨storable, fun failure left =>
      ⟨due, dated failure (by rw [known]; exact left)⟩⟩
    obtain ⟨_, _, _, rfl⟩ := Lifecycle.delivered_counts persisted
    obtain ⟨next, done, after, ledger⟩ := alone.persists drawn (by rw [known]) persisted
    exact ⟨next, version, done, ledger, version.property, after⟩

end Delivery

section Sample

/-- A database with this notification alone. -/
def World.holding (stored : StoredNotification) : World :=
  { World.empty with
    notifications := Function.update Table.empty stored.val.id ⟨some stored, none⟩
    notificationIds := [stored.val.id] }

theorem World.holding_alone {stored : StoredNotification}
    (unattempted : stored.val.attemptCount = 0) (index : Nat) :
    Delivery.Alone index (World.holding stored) stored.val.id stored where
  row := by simp [World.holding, World.row]
  unlocked := by simp [World.holding]
  idle := rfl
  uncounted := by simp [World.holding, World.empty]
  ledger := by
    refine ⟨fun _ => rfl, by simp [World.lifecycle, World.holding, World.empty], ?_⟩
    intro other found
    obtain rfl : stored = other := by simpa [World.lifecycle, World.holding, World.row] using found
    simp [World.lifecycle, World.holding, World.empty, unattempted]

def acceptedRow : StoredNotification :=
    ⟨Submission.newNotification Engine.sampleArguments 0 7, by decide +kernel⟩

theorem acceptedRow_alone (index : Nat) :
    Delivery.Alone index (World.holding acceptedRow) 7 acceptedRow :=
  World.holding_alone rfl index

theorem persists_uncontended_accepted : (∃ next version,
    Delivery.statements Engine.sampleConfig 0 (World.holding acceptedRow)
        ⟨7, .opened ⟨acceptedRow.val, Engine.resultOf .temporaryFailure, 5⟩⟩
          (Delivery.persisting 3 30) =
      some (next, ⟨7, .ended .delivered⟩) ∧
    next.attempts.committed =
      [] ++ [recordDeliveryAttempt 5 7 1 (Engine.resultOf .temporaryFailure)] ∧
    version.val.Checks ∧ Delivery.Alone 0 next 7 version) ↔
    (Engine.resultOf .temporaryFailure).storable = true ∧
      Delivery.Persist.Dated ⟨acceptedRow.val, Engine.resultOf .temporaryFailure, 5⟩ 1 3 30 :=
  Delivery.persists_uncontended_iff (acceptedRow_alone 0) (by decide) rfl (by decide) (by decide)
    (by decide)

/-- A failure whose message holds a surrogate, as the answer of the provider may. -/
def surrogateFailure : ProviderResult where
  status := .permanentFailure
  provider := .mailrelay
  errorMessage := some ⟨[⟨0xd800, by decide⟩]⟩
  successStorable success := by cases success

/-- A message without NUL that has no encoding: the transaction is rolled back. -/
theorem surrogate_uncontended :
    Delivery.Alone 0 (World.holding acceptedRow) 7 acceptedRow ∧
    Delivery.validateDeliveryEligibility acceptedRow.val = .ok () ∧
    acceptedRow.val.createdAt ≤ 5 ∧ acceptedRow.val.createdAt ≤ 3 ∧
    (surrogateFailure.errorMessage.all fun text => text.points.all (· ≠ 0)) = true ∧
    Delivery.statements Engine.sampleConfig 0 (World.holding acceptedRow)
      ⟨7, .opened ⟨acceptedRow.val, surrogateFailure, 5⟩⟩ (Delivery.persisting 3 0) = none := by
  refine ⟨acceptedRow_alone 0, by decide, by decide, by decide, by decide, ?_⟩
  apply (acceptedRow_alone 0).refuses (Nat.zero_le _)
  cases persisted : Delivery.persistDeliveryResult ⟨acceptedRow.val, surrogateFailure, 5⟩ 7 3 0
    acceptedRow with
  | none => rfl
  | some pair =>
    have unstorable : surrogateFailure.storable = false := by decide
    have storable := (Delivery.persistDeliveryResult_eq_some.mp persisted).choose_spec.2.1
    rw [unstorable] at storable
    cases storable

end Sample

end Relays
