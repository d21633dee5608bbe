import Relays.Engine.SingleCarrier
import Relays.Engine.TerminalStates
import Relays.Engine.Backoff
import Relays.Engine.ClaimScan

/-! What one delivery at a time makes good. The workers check a row when they load it and the
statements that write it do not check again; without a second execution of the notification nothing
comes between. -/

namespace Relays

open ReadCommitted Transition

/-- The ways of a row whose executions do not overlap. A worker may be ahead of `mark_queued`, and
no delivery leaves a row that waits for its retry. -/
def Shape.leadsTo : Shape → Shape → Bool
  | .created, .queued => true
  | .created, .sent | .created, .failed | .created, .retrying => true
  | .queued, .sent | .queued, .failed | .queued, .retrying => true
  | .retrying, .processing => true
  | .processing, .sent | .processing, .failed | .processing, .retrying => true
  | _, _ => false

/-- A change of a committed row that the lifecycle has. -/
def Shape.Follows (row next : Notification) : Prop :=
  ∃ first last : Shape, first.Fits row ∧ last.Fits next ∧ first.leadsTo last = true

namespace Lifecycle

variable {id : Uuid} {stored next : StoredNotification} {persist : Delivery.Persist}
    {workerNow : Time} {delay : Nat}
variable {attempt : DeliveryAttempt} {shape : Shape}

/-- The delivery of a row that has not ended and waits for no retry. -/
theorem delivered_follows
    (persisted : Delivery.persistDeliveryResult persist id workerNow delay stored =
      some (next, attempt))
    (fits : shape.Fits next.val) (before : ∃ first : Shape, first.Fits stored.val)
    (open' : stored.val.state.terminal = false) (unscheduled : stored.val.nextRetryAt = none) :
    Shape.Follows stored.val next.val := by
  have last : shape = .sent ∨ shape = .failed ∨ shape = .retrying := by
    rcases delivered_state persisted with ⟨_, state, _⟩ | ⟨_, _, state, _⟩
      | ⟨_, _, _, state, scheduled⟩
    · cases shape <;> simp [Shape.Fits, state] at fits ⊢
    · cases shape <;> simp [Shape.Fits, state] at fits ⊢
    · cases shape <;> simp [Shape.Fits, state, scheduled] at fits ⊢
  obtain ⟨first, held⟩ := before
  refine ⟨first, shape, held, fits, ?_⟩
  cases first with
  | created | queued | processing => rcases last with rfl | rfl | rfl <;> rfl
  | retrying => simp [Shape.Fits, unscheduled] at held
  | sent | failed =>
    obtain ⟨state, _⟩ := held
    simp [state, NotificationState.terminal] at open'

theorem queued_follows {now : Time} (waiting : awaitsQueueing stored.val = true)
    (written : next.val = markQueued now stored.val) (fits : shape.Fits stored.val) :
    Shape.Follows stored.val next.val := by
  have fresh : stored.val.state = .created := by simpa [awaitsQueueing] using waiting
  cases shape with
  | created =>
    obtain ⟨_, unattempted, unscheduled⟩ := id fits
    refine ⟨.created, .queued, fits, ?_, rfl⟩
    rw [written]
    exact ⟨rfl, unscheduled, unattempted⟩
  | _ => simp [Shape.Fits, fresh] at fits

theorem claimed_follows {now : Time} (due : retryable now stored.val = true)
    (written : next.val = claimRetry now stored.val) (fits : shape.Fits stored.val) :
    Shape.Follows stored.val next.val := by
  obtain ⟨queued, time, scheduled, _⟩ := retryable_iff.mp due
  cases shape with
  | retrying =>
    obtain ⟨_, _, attempted, room⟩ := id fits
    refine ⟨.retrying, .processing, fits, ?_, rfl⟩
    rw [written]
    exact ⟨rfl, rfl, attempted, room⟩
  | _ => simp [Shape.Fits, queued, scheduled] at fits

end Lifecycle

namespace Engine

/-- What the documents say of terminal states, of the backoff and of the eligibility check, and the
lifecycle that the rows follow. -/
structure Orderly (config : Config) (events : List Event) : Prop where
  absorbing : Absorbing config events
  backoff : HonoursBackoff config events
  eligible : ∀ front before after index execution,
    Takes (system config) events front before (.worker index .send) after →
    before.executions[index]? = some execution →
    ∃ stored, before.world.row execution.notificationId = some stored ∧
      Delivery.validateDeliveryEligibility stored.val = .ok () ∧ stored.val.nextRetryAt = none
  follows : ∀ front before event after id stored next,
    Takes (system config) events front before event after →
    before.world.row id = some stored → after.world.row id = some next →
    next = stored ∨ Shape.Follows stored.val next.val

variable {config : Config} {engine after : Engine} {event : Event} {events : List Event}
    {index : Nat} {id : Uuid}
variable {execution : Delivery.Execution} {stored next : StoredNotification}

/-- An execution in progress is at work on a row that has not ended and waits for no retry. -/
theorem SingleCarrier.attended (carrier : SingleCarrier engine execution.notificationId)
    (found : engine.executions[index]? = some execution) (running : execution.phase.ending = none) :
    ∃ stored, engine.world.row execution.notificationId = some stored ∧
      stored.val.state.terminal = false ∧
      stored.val.nextRetryAt = none := by
  obtain ⟨owes, unscheduled⟩ := carrier.carried found running
  obtain ⟨stored, present, open'⟩ := owed_eq_one owes
  refine ⟨stored, present, open', ?_⟩
  cases scheduled : stored.val.nextRetryAt with
  | none => rfl
  | some due => simp [present, scheduledRetry, scheduled] at unscheduled

theorem Moves.follows (moves : Moves config engine event after) (sound : Sound config engine)
    (carriers : ∀ id, SingleCarrier engine id) (before : (engine.world.lifecycle id).Shaped)
    (shaped : (after.world.lifecycle id).Shaped) (found : engine.world.row id = some stored)
    (present : after.world.row id = some next) : next = stored ∨
      Shape.Follows stored.val next.val := by
  obtain ⟨first, fits⟩ := before stored found
  obtain ⟨last, fitting⟩ := shaped next present
  rcases moves.row_change sound id with same | ⟨_, _, base, rows, published⟩
  · rw [found, present] at same
    exact .inl (Option.some.inj same)
  · right
    rw [found] at base
    rw [present] at rows
    cases published with
    | create => cases base
    | queue requested current names waiting written =>
      cases base
      cases rows
      exact Lifecycle.queued_follows waiting written fits
    | claim requested member due written =>
      cases base
      cases rows
      exact Lifecycle.claimed_follows due written fits
    | deliver requested current names known persisted =>
      cases base
      cases rows
      subst names
      obtain ⟨row, there, open', unscheduled⟩ :=
        (carriers _).attended requested (by rw [current]; rfl)
      obtain rfl := Option.some.inj (there.symm.trans found)
      exact Lifecycle.delivered_follows persisted fitting ⟨first, fits⟩ open' unscheduled

/-- No execution concludes over a failed row. -/
theorem SingleCarrier.sparesFailed (carriers : ∀ id, SingleCarrier engine id) (event : Event) :
    SparesFailed engine event := by
  intro index execution persist attemptNumber stored same found current present failed
  obtain ⟨row, there, open', _⟩ := (carriers _).attended found (by rw [current]; rfl)
  obtain rfl := Option.some.inj (there.symm.trans present)
  simp [failed, NotificationState.terminal] at open'

/-- As long as the broker delivers no message twice, and whatever crashes, raises, is refused or is
rolled back, terminal states are final, no retry is executed before its time or unclaimed, each call
of the provider is made for a row that is eligible at that moment, and the rows follow their
lifecycle. -/
theorem single_delivery_orderly (run : Run (system config) SingleDelivery events engine) :
    Orderly config events where
  absorbing := by
    rw [absorbing_iff run.any]
    intro front event back before split reached
    obtain ⟨start, _, prefixRun, _⟩ := run.taken_at split
    obtain rfl := prefixRun.unique reached
    exact SingleCarrier.sparesFailed (run_singleCarrier prefixRun) event
  backoff := by
    rw [backoff_honoured_iff]
    intro load front index start before id stored delivers
    obtain ⟨loaded, loads⟩ := delivers.loads
    have carrier := run_singleCarrier (loads.permitted run).1 id
    obtain ⟨row, there, _, unscheduled⟩ := carrier.attended delivers.received rfl
    obtain rfl := Option.some.inj (there.symm.trans delivers.row)
    exact unscheduled
  eligible front before after index execution takes found := by
    have reached := (takes.permitted run).1
    have moves : Moves config before (.worker index .send) after := step_moves takes.taken
    have running : execution.phase.ending = none := by
      cases moves with
      | worker entry moves =>
        obtain rfl := Option.some.inj (entry.symm.trans found)
        exact moves.inProgress
    obtain ⟨stored, present, open', unscheduled⟩ :=
      (run_singleCarrier reached _).attended found running
    have room := room_of_open reached present open'
    exact ⟨stored, present, Delivery.validateDeliveryEligibility_ok.mpr ⟨open', room⟩, unscheduled⟩
  follows front before event after id stored next takes found present := by
    obtain ⟨reached, single⟩ := takes.permitted run
    have later := reached.step single takes.taken
    exact (step_moves takes.taken).follows (run_sound reached) (run_singleCarrier reached)
      (run_lifecycle reached id).shaped (run_lifecycle later id).shaped found present

/-- A worker dies with a retry in hand that it has already sent. -/
def crashesRetrying : List Event :=
  retriesOnce ++ [.scheduler 0 (.enqueue 0 false), .consume .email 0] ++ sends 1 .success ++
    [.worker 1 .interrupt]

theorem single_delivery_orderly_crashes : ∃ engine,
    Run (system sampleConfig) SingleDelivery crashesRetrying engine ∧ engine.world.sends 7 = 2 ∧
      Orderly sampleConfig crashesRetrying := by
  obtain ⟨engine, run, observed⟩ :=
    Run.exists_of_execute (system sampleConfig) SingleDelivery crashesRetrying
    (fun engine => decide (engine.world.sends 7 = 2)) (by decide +kernel)
  exact ⟨engine, run, by simpa using observed, single_delivery_orderly run⟩

end Engine

end Relays
