import Relays.Engine.RetryClaim
import Relays.Engine.Uncontended
import Relays.Notifications.FakeProvider

/-! The deliveries of one notification of the fake provider, one after another, with the claims of
its retries between them: the script in its metadata decides how they end. -/

namespace Relays

open ReadCommitted Transition

namespace Delivery

/-- What a statement of the execution leaves as it is. -/
structure Keeps (index : Nat) (before after : World) : Prop where
  clock : after.clock = before.clock
  notificationIds : after.notificationIds = before.notificationIds
  attempts : before.attempts.Frame (.worker index) after.attempts

variable {config : Config} {index : Nat} {world next : World} {execution last : Execution}
    {event : Event} {phase : Phase}

theorem Moves.keeps (moves : Moves config index world execution event next phase) :
    Keeps index world next := by
  cases moves with
  | load | send | answer | providerRaises | openTransaction => exact ⟨rfl, rfl, .refl _ _⟩
  | increment current done | conclude current drawn chosen done =>
    rw [World.updateNotification_frame done]
    exact ⟨rfl, rfl, .refl _ _⟩
  | incrementRejected | incrementMissing | recordRejected | concludeRejected | concludeRaises
  | interrupt =>
    exact ⟨rfl, rfl, .rollback _⟩
  | record current done =>
    obtain ⟨rfl, _⟩ := World.insertAttempt_returns done
    refine ⟨rfl, rfl, ?_⟩
    intro other different
    rw [Heap.own_append, if_neg (Ne.symm different), List.append_nil]
  | commit => exact ⟨rfl, rfl, .commit _⟩

theorem statements_keeps {events : List Event}
    (done : statements config index world execution events = some (next, last)) :
      Keeps index world next := by
  induction events generalizing world execution with
  | nil =>
    obtain ⟨rfl, _⟩ := Prod.mk.inj (Option.some.inj done)
    exact ⟨rfl, rfl, .refl _ _⟩
  | cons event rest ih =>
    rw [statements] at done
    split at done
    · cases done
    · rename_i middle phase taken
      have first := (step_moves taken).keeps
      have others := ih done
      refine ⟨others.clock.trans first.clock, others.notificationIds.trans first.notificationIds,
        ?_⟩
      intro other different
      exact (others.attempts other different).trans (first.attempts other different)

end Delivery

namespace RetryLoop

/-- `deliver_notification` of a notification of the fake provider, run alone; `elapsed` is the time
the provider takes. -/
def deliverNotification (config : Config) (index : Nat) (id : Uuid) (elapsed : Nat)
    (workerNow : Time) (delay : Nat)
    (world : World) : Option World :=
  match Delivery.statements config index world ⟨id, .received⟩ [.load] with
  | none => none
  | some (loaded, execution) =>
    match execution.phase with
    | .loaded notification _ =>
      match notification.provider, (FakeProvider.configure notification).send with
      | .mailrelay, _ => none
      | .fake, .error _ => (Delivery.statements config index loaded execution [.send,
        .providerRaises]).map Prod.fst
      | .fake, .ok result =>
        match Delivery.statements config index loaded execution [.send, .answer result] with
        | none => none
        | some (answered, execution) =>
          (Delivery.statements config index { answered with clock := answered.clock + elapsed }
            execution
            (.openTransaction :: Delivery.persisting workerNow delay)).map Prod.fst
    -- a missing or ineligible notification ends the execution
    | _ => some loaded

inductive Event where
  | tick (elapsed : Nat)
  | deliver (elapsed : Nat) (workerNow : Time) (delay : Nat)
  | claim (limit : Nat)

def Event.delivers : Event → Bool
  | .deliver _ _ _ => true
  | .tick _ | .claim _ => false

/-- The loop over one notification, from any state of the tables. -/
def loop (config : Config) (index : Nat) (id : Uuid) (world : World) : System World Event where
  init := world
  step world event :=
    match event with
    | .tick elapsed => some { world with clock := world.clock + elapsed }
    | .deliver elapsed workerNow delay =>
        deliverNotification config index id elapsed workerNow delay world
    | .claim limit => some (RetryScheduler.claimRetryableNotifications index limit world)

/-- A notification is delivered while it is open and no retry of it is scheduled, by a worker whose
clock is not behind its creation and whose backoff is drawn as `random.randint` draws it and does
not pass the last date. -/
def Allowed (config : Config) (id : Uuid) (world : World) : Event → Prop
  | .deliver _ workerNow delay => ∃ stored, world.row id = some stored ∧
    stored.val.state.terminal = false ∧
      stored.val.nextRetryAt = none ∧ stored.val.createdAt ≤ workerNow ∧
      delay ≤ Delivery.cappedDelay config (stored.val.attemptCount + 1) ∧
      workerNow + seconds delay ≤ datetimeMax
  | .tick _ | .claim _ => True

section Outcome

variable (sequence : List DeliveryStatus) (maxAttempts : Nat)

/-- The first attempt whose scripted result is not a temporary failure. -/
def decided : Option Nat :=
  (List.range maxAttempts).find? fun attempt => FakeProvider.scripted sequence attempt ≠
    .temporaryFailure

def attempts : Nat := (decided sequence maxAttempts).elim maxAttempts (· + 1)

def finalState : NotificationState :=
  match decided sequence maxAttempts with
  | none => .failed
  | some attempt => if FakeProvider.scripted sequence attempt = .success then .sent else .failed

variable {sequence maxAttempts} {count : Nat}
variable (temporary : ∀ attempt < count, FakeProvider.scripted sequence attempt = .temporaryFailure)

include temporary

theorem decided_of_first (room : count < maxAttempts)
    (other : FakeProvider.scripted sequence count ≠ .temporaryFailure) :
    decided sequence maxAttempts = some count := by
  unfold decided
  rw [List.find?_range_eq_some]
  refine ⟨by simpa using other, by simpa using room, ?_⟩
  intro attempt earlier
  simp [temporary attempt earlier]

theorem decided_of_exhausted (exhausted : count = maxAttempts) : decided sequence maxAttempts =
    none := by
  unfold decided
  rw [List.find?_range_eq_none]
  intro attempt earlier
  simp [temporary attempt (exhausted ▸ earlier)]

theorem lt_attempts (room : count < maxAttempts) : count < attempts sequence maxAttempts := by
  unfold attempts
  cases found : decided sequence maxAttempts with
  | none => exact room
  | some attempt =>
    have other := List.find?_some found
    simp only [decide_eq_true_eq] at other
    by_contra beyond
    exact other (temporary attempt (by simp at beyond; omega))

end Outcome

/-- What no step changes in a row, and what makes it deliverable by its script. -/
structure Suited (id : Uuid) (sequence : List DeliveryStatus) (maxAttempts : Nat)
    (row : Notification) : Prop where
  keyed : row.id = id
  bound : row.maxAttempts = maxAttempts
  provider : row.provider = .fake
  payload : ∃ payload, EmailPayload.modelValidate row.payload = some payload
  scripts : FakeProvider.Scripted sequence row.metadata

theorem Suited.of_identity {id : Uuid} {sequence : List DeliveryStatus} {maxAttempts : Nat}
    {row other : Notification}
    (suited : Suited id sequence maxAttempts row) (same : other.identity = row.identity) :
    Suited id sequence maxAttempts other where
  keyed := (Notification.id_eq same).trans suited.keyed
  bound := (Notification.maxAttempts_eq same).trans suited.bound
  provider := (congrArg NotificationIdentity.provider same).trans suited.provider
  payload := by
    rw [Notification.payload_eq same]
    exact suited.payload
  scripts := by
    rw [show other.metadata = row.metadata from congrArg NotificationIdentity.metadata same]
    exact suited.scripts

/-- How far the script has been followed: every attempt so far was a temporary failure, or the
notification is where the script leads. -/
structure Reached (sequence : List DeliveryStatus) (row : Notification) : Prop where
  ongoing : row.state.terminal = false → row.attemptCount < row.maxAttempts ∧
    ∀ attempt < row.attemptCount, FakeProvider.scripted sequence attempt = .temporaryFailure
  scheduled : row.nextRetryAt.isSome = true → row.state = .queued
  done : row.state.terminal = true →
    row.state = finalState sequence row.maxAttempts ∧
      row.attemptCount = attempts sequence row.maxAttempts

/-- The invariant of the loop. -/
structure Follows (index : Nat) (id : Uuid) (sequence : List DeliveryStatus) (maxAttempts : Nat)
    (world : World)
    (stored : StoredNotification) : Prop where
  alone : Delivery.Alone index world id stored
  scheduler : world.attempts.own (.scheduler index) = []
  listed : id ∈ world.notificationIds
  begun : stored.val.createdAt ≤ world.clock
  dated : stored.val.createdAt ≤ datetimeMax
  suited : Suited id sequence maxAttempts stored.val
  recorded : (world.lifecycle id).attempts.map DeliveryAttempt.status =
    (List.range stored.val.attemptCount).map (FakeProvider.scripted sequence)
  reached : Reached sequence stored.val

section Steps

variable {config : Config} {index maxAttempts : Nat} {id : Uuid} {sequence : List DeliveryStatus}
    {world last : World}
variable {stored version : StoredNotification}

/-- One more attempt takes the script one step further. -/
theorem Reached.deliver {persist : Delivery.Persist} {workerNow : Time} {delay : Nat}
    {attempt : DeliveryAttempt}
    (reached : Reached sequence stored.val) (isOpen : stored.val.state.terminal = false)
    (known : persist.notification = stored.val)
    (status : persist.result.status = FakeProvider.scripted sequence stored.val.attemptCount)
    (persisted : Delivery.persistDeliveryResult persist id workerNow delay stored =
      some (version, attempt)) :
    Reached sequence version.val := by
  obtain ⟨room, temporary⟩ := reached.ongoing isOpen
  obtain ⟨_, counts, bound, _⟩ := Lifecycle.delivered_counts persisted
  rcases Lifecycle.delivered_state persisted with
    ⟨success, sent, unscheduled⟩ | ⟨_, failure, failed, unscheduled⟩ | ⟨_, failure, more, queued, _⟩
  · rw [status] at success
    have first := decided_of_first temporary room (by simp [success])
    refine ⟨by simp [sent, NotificationState.terminal], by simp [unscheduled], fun _ => ?_⟩
    simp [sent, counts, bound, finalState, attempts, first, success]
  · refine ⟨by simp [failed, NotificationState.terminal], by simp [unscheduled], fun _ => ?_⟩
    rw [status, known] at failure
    rcases failure with permanent | ⟨temporary', exhausted⟩
    · have first := decided_of_first temporary room (by simp [permanent])
      simp [failed, counts, bound, finalState, attempts, first, permanent]
    · have all : ∀ attempt < stored.val.attemptCount + 1, FakeProvider.scripted sequence attempt =
          .temporaryFailure := by
        intro attempt earlier
        rcases Nat.lt_succ_iff_lt_or_eq.mp earlier with before | rfl
        · exact temporary attempt before
        · exact temporary'
      have whole : stored.val.attemptCount + 1 = stored.val.maxAttempts := by omega
      simp [failed, counts, bound, finalState, attempts, decided_of_exhausted all whole, whole]
  · rw [status] at failure
    rw [known] at more
    refine ⟨fun _ => ⟨by rw [counts, bound]; exact more, ?_⟩, fun _ => queued,
      by simp [queued, NotificationState.terminal]⟩
    intro attempt earlier
    rw [counts] at earlier
    rcases Nat.lt_succ_iff_lt_or_eq.mp earlier with before | rfl
    · exact temporary attempt before
    · exact failure

theorem persisted_identity {persist : Delivery.Persist} {workerNow : Time} {delay : Nat}
    {attempt : DeliveryAttempt}
    (persisted : Delivery.persistDeliveryResult persist id workerNow delay stored =
      some (version, attempt)) :
    version.val.identity = stored.val.identity := by
  obtain ⟨change, _, _, chosen, written, _⟩ := Delivery.persistDeliveryResult_eq_some.mp persisted
  rw [written, Delivery.concludingUpdate_identity chosen]
  rfl

theorem Follows.deliver (follows : Follows index id sequence maxAttempts world stored)
    (isOpen : stored.val.state.terminal = false)
    (elapsed : Nat) {delay : Nat} {workerNow : Time} (later : stored.val.createdAt ≤ workerNow)
    (drawn : delay ≤ Delivery.cappedDelay config (stored.val.attemptCount + 1))
    (past : workerNow + seconds delay ≤ datetimeMax) :
    ∃ next version, deliverNotification config index id elapsed workerNow delay world = some next ∧
      Follows index id sequence maxAttempts next version ∧
        version.val.attemptCount = stored.val.attemptCount + 1 := by
  obtain ⟨room, _⟩ := follows.reached.ongoing isOpen
  have eligible := Delivery.validateDeliveryEligibility_ok.mpr ⟨isOpen, room⟩
  obtain ⟨payload, decoded⟩ := follows.suited.payload
  obtain ⟨result, sent, status, storable⟩ := FakeProvider.send_scripted follows.suited.scripts
  let answered : World :=
    { world with
      clock := world.clock + elapsed
      calls := world.calls ++ [⟨index, id, payload⟩]
      results := world.results ++ [⟨index, id, result.status⟩] }
  have alone : Delivery.Alone index answered id stored :=
    ⟨follows.alone.row, follows.alone.unlocked, follows.alone.idle, follows.alone.uncounted,
      follows.alone.ledger⟩
  have began : stored.val.createdAt ≤ answered.clock := Nat.le_add_right_of_le follows.begun
  obtain ⟨version, attempt, persisted⟩ : ∃ version attempt, Delivery.persistDeliveryResult
      ⟨stored.val, result, answered.clock⟩ id workerNow delay stored = some (version, attempt) :=
    (Delivery.persistDeliveryResult_isSome_iff eligible rfl began).mpr
      ⟨storable, fun _ _ => ⟨Nat.le_add_right_of_le later, past⟩⟩
  obtain ⟨next, done, after, ledger⟩ := alone.persists drawn rfl persisted
  have keeps := Delivery.statements_keeps done
  obtain ⟨_, counts, _, made⟩ := Lifecycle.delivered_counts persisted
  refine ⟨next, version, ?_, ?_, counts⟩
  · have loaded : Delivery.afterLoad (world.row id) = .loaded stored.val payload :=
      Delivery.afterLoad_eq_loaded.mpr ⟨stored, follows.alone.row, rfl, eligible, decoded⟩
    have opened : Delivery.statements config index answered ⟨id, .answered stored.val result⟩
        (.openTransaction :: Delivery.persisting workerNow delay) =
          some (next, ⟨id, .ended .delivered⟩) := by
      rw [← done]
      rfl
    simp only [deliverNotification, Delivery.statements, Delivery.step, loaded,
      follows.suited.provider, sent]
    exact congrArg (Option.map Prod.fst) opened
  · refine ⟨after, ?_, ?_, ?_, ?_, follows.suited.of_identity (persisted_identity persisted), ?_,
      follows.reached.deliver isOpen rfl status persisted⟩
    · rw [keeps.attempts _ (by simp)]
      exact follows.scheduler
    · rw [keeps.notificationIds]
      exact follows.listed
    · rw [Notification.createdAt_eq (persisted_identity persisted), keeps.clock]
      exact began
    · rw [Notification.createdAt_eq (persisted_identity persisted)]
      exact follows.dated
    · have view : (next.lifecycle id).attempts = (world.lifecycle id).attempts ++ [attempt] := by
        simp [World.lifecycle, ledger, made, recordDeliveryAttempt, answered]
      rw [view, List.map_append, follows.recorded, counts, List.range_succ, List.map_append, made]
      simp [recordDeliveryAttempt, status]

theorem Follows.claim (follows : Follows index id sequence maxAttempts world stored) (limit : Nat) :
    ∃ version, Follows index id sequence maxAttempts
      (RetryScheduler.claimRetryableNotifications index limit world) version ∧
      version.val.attemptCount = stored.val.attemptCount ∧
      (retryable world.clock stored.val = true → world.notificationIds.length ≤ limit →
        version.val.state.terminal = false ∧ version.val.nextRetryAt = none) := by
  have frame := RetryScheduler.claim_frame index limit world
  have attempts : (RetryScheduler.claimRetryableNotifications index limit
    world).attempts.committed =
      world.attempts.committed := by
    rw [frame.2.2]
    simp [Heap.commit, follows.scheduler]
  have scheduler : (RetryScheduler.claimRetryableNotifications index limit world).attempts.own
      (.scheduler index) = [] := by
    rw [frame.2.2]
    simp [Heap.own_commit]
  rcases RetryScheduler.claim_row follows.alone follows.scheduler follows.listed
    follows.suited.keyed with
    ⟨alone, missed⟩ | ⟨due, version, written, alone⟩
  · refine ⟨stored, ⟨alone, scheduler, frame.2.1 ▸ follows.listed, frame.1 ▸ follows.begun,
      follows.dated, follows.suited, ?_, follows.reached⟩, rfl,
      fun due room => absurd ⟨due, room⟩ missed⟩
    simpa only [World.lifecycle, attempts] using follows.recorded
  · have same : version.val.identity = stored.val.identity := by rw [written]; rfl
    have counts : version.val.attemptCount = stored.val.attemptCount := by rw [written]; rfl
    refine ⟨version, ⟨alone, scheduler, frame.2.1 ▸ follows.listed, ?_, ?_,
      follows.suited.of_identity same, ?_, ?_⟩, counts,
      fun _ _ => by simp [written, claimRetry, NotificationState.terminal]⟩
    · rw [Notification.createdAt_eq same, frame.1]
      exact follows.begun
    · rw [Notification.createdAt_eq same]
      exact follows.dated
    · rw [counts]
      simpa only [World.lifecycle, attempts] using follows.recorded
    · have isOpen : stored.val.state.terminal = false := by
        simp [(retryable_iff.mp due).1, NotificationState.terminal]
      refine ⟨fun _ => ?_, by simp [written, claimRetry],
        by simp [written, claimRetry, NotificationState.terminal]⟩
      rw [counts, Notification.maxAttempts_eq same]
      exact follows.reached.ongoing isOpen

theorem Follows.tick (follows : Follows index id sequence maxAttempts world stored)
    (elapsed : Nat) :
    Follows index id sequence maxAttempts { world with clock := world.clock + elapsed } stored where
  alone := ⟨follows.alone.row, follows.alone.unlocked, follows.alone.idle, follows.alone.uncounted,
    follows.alone.ledger⟩
  scheduler := follows.scheduler
  listed := follows.listed
  begun := Nat.le_add_right_of_le follows.begun
  dated := follows.dated
  suited := follows.suited
  recorded := follows.recorded
  reached := follows.reached

variable {events : List Event} {event : Event}

theorem run_follows (start : Follows index id sequence maxAttempts world stored)
    (unattempted : stored.val.attemptCount = 0)
    (run : Run (loop config index id world) (Allowed config id) events last) :
    ∃ version, Follows index id sequence maxAttempts last version ∧
      version.val.attemptCount = events.countP Event.delivers := by
  induction run with
  | start => exact ⟨stored, start, unattempted⟩
  | @step events before event after earlier permitted taken ih =>
    obtain ⟨current, follows, counts⟩ := ih
    rw [List.countP_append, ← counts, List.countP_singleton]
    cases event with
    | tick elapsed =>
      cases taken
      exact ⟨current, follows.tick elapsed, rfl⟩
    | deliver elapsed workerNow delay =>
      obtain ⟨row, found, isOpen, _, later, drawn, past⟩ := permitted
      obtain rfl := Option.some.inj (found.symm.trans follows.alone.row)
      obtain ⟨next, version, done, follows', more⟩ :=
        follows.deliver isOpen elapsed later drawn past
      obtain rfl := Option.some.inj (done.symm.trans taken)
      exact ⟨version, follows', more⟩
    | claim limit =>
      cases taken
      obtain ⟨version, follows', same, _⟩ := follows.claim limit
      exact ⟨version, follows', same⟩

/-- An open notification has another delivery before it, after the claim of its retry if one is
scheduled. -/
theorem Follows.advances {current : World}
    (follows : Follows index id sequence maxAttempts current version)
    (isOpen : version.val.state.terminal = false)
    (run : Run (loop config index id world) (Allowed config id) events current) :
    ∃ more next final, Run (loop config index id world) (Allowed config id) (events ++ more) next ∧
      Follows index id sequence maxAttempts next final ∧
        final.val.attemptCount = version.val.attemptCount + 1 := by
  have delivers {events : List Event} {current : World} {version : StoredNotification}
      (follows : Follows index id sequence maxAttempts current version)
        (isOpen : version.val.state.terminal = false)
      (unscheduled : version.val.nextRetryAt = none)
      (run : Run (loop config index id world) (Allowed config id) events current) :
      ∃ next final, Run (loop config index id world) (Allowed config id)
          (events ++ [.deliver 0 version.val.createdAt 0]) next ∧
        Follows index id sequence maxAttempts next final ∧
          final.val.attemptCount = version.val.attemptCount + 1 := by
    obtain ⟨next, final, done, follows', counts⟩ :=
      follows.deliver isOpen 0 (Nat.le_refl _) (Nat.zero_le _) follows.dated
    exact ⟨next, final, run.step ⟨version, follows.alone.row, isOpen, unscheduled, Nat.le_refl _,
      Nat.zero_le _, follows.dated⟩ done, follows', counts⟩
  cases due : version.val.nextRetryAt with
  | none =>
    obtain ⟨next, final, reached, rest⟩ := delivers follows isOpen due run
    exact ⟨_, next, final, reached, rest⟩
  | some time =>
    have queued := follows.reached.scheduled (by simp [due])
    have ticked := follows.tick time
    have waited : Run (loop config index id world) (Allowed config id) (events ++ [.tick time])
        { current with clock := current.clock + time } := run.step trivial rfl
    obtain ⟨claimed, follows', same, taken⟩ := ticked.claim current.notificationIds.length
    obtain ⟨open', unscheduled⟩ :=
      taken (retryable_iff.mpr ⟨queued, time, due, Nat.le_add_left _ _⟩) (Nat.le_refl _)
    have claims : Run (loop config index id world) (Allowed config id)
        (events ++ [.tick time] ++ [.claim current.notificationIds.length]) _ :=
          waited.step trivial rfl
    obtain ⟨next, final, reached, rest⟩ := delivers follows' open' unscheduled claims
    refine ⟨[.tick time] ++ [.claim current.notificationIds.length] ++
      [.deliver 0 claimed.val.createdAt 0], next, final,
      ?_, rest.1, by rw [rest.2, same]⟩
    simpa only [List.append_assoc] using reached

theorem run_ends {current : World} (follows : Follows index id sequence maxAttempts current version)
    (run : Run (loop config index id world) (Allowed config id) events current) :
    ∃ more last final, Run (loop config index id world) (Allowed config id) (events ++ more) last ∧
      Follows index id sequence maxAttempts last final ∧ final.val.state.terminal = true := by
  induction left : maxAttempts - version.val.attemptCount generalizing events current version with
  | zero =>
    refine ⟨[], current, version, by simpa using run, follows, ?_⟩
    by_contra isOpen
    obtain ⟨room, _⟩ := follows.reached.ongoing (by simpa using isOpen)
    have bound := follows.suited.bound
    omega
  | succ left ih =>
    cases ended : version.val.state.terminal with
    | true => exact ⟨[], current, version, by simpa using run, follows, ended⟩
    | false =>
      obtain ⟨more, next, final, reached, follows', counts⟩ := follows.advances ended run
      obtain ⟨rest, last, result, whole, done⟩ := ih follows' reached (by omega)
      exact ⟨more ++ rest, last, result, by simpa only [List.append_assoc] using whole, done⟩

end Steps

/-- A notification of the fake provider that nobody has attempted to deliver yet. -/
structure Unattempted (index : Nat) (id : Uuid) (sequence : List DeliveryStatus) (maxAttempts : Nat)
    (world : World)
    (stored : StoredNotification) : Prop where
  alone : Delivery.Alone index world id stored
  scheduler : world.attempts.own (.scheduler index) = []
  listed : id ∈ world.notificationIds
  begun : stored.val.createdAt ≤ world.clock
  dated : stored.val.createdAt ≤ datetimeMax
  suited : Suited id sequence maxAttempts stored.val
  state : stored.val.state.terminal = false
  attemptCount : stored.val.attemptCount = 0
  nextRetryAt : stored.val.nextRetryAt = none

/-- The loop computes what the script says, step by step and at its end, which it can always
reach. -/
structure Computes (config : Config) (index : Nat) (id : Uuid) (sequence : List DeliveryStatus)
    (maxAttempts : Nat)
    (world : World) : Prop where
  follows : ∀ events last, Run (loop config index id world) (Allowed config id) events last →
    ∃ stored, last.row id = some stored ∧ stored.val.attemptCount = events.countP Event.delivers ∧
      stored.val.attemptCount ≤ attempts sequence maxAttempts ∧
      (last.lifecycle id).attempts.map DeliveryAttempt.status =
        (List.range stored.val.attemptCount).map (FakeProvider.scripted sequence) ∧
      (stored.val.state.terminal = true ↔ stored.val.attemptCount = attempts sequence maxAttempts) ∧
      (stored.val.state.terminal = true → stored.val.state = finalState sequence maxAttempts)
  proceeds : ∀ events last event, Run (loop config index id world) (Allowed config id) events last →
    Allowed config id last event → ∃ next, (loop config index id world).step last event = some next
  claims : ∀ events last stored due limit,
    Run (loop config index id world) (Allowed config id) events last →
    last.row id = some stored → stored.val.nextRetryAt = some due → due ≤ last.clock →
    last.notificationIds.length ≤ limit →
    ∃ next claimed, (loop config index id world).step last (.claim limit) = some next ∧
      next.row id = some claimed ∧ claimed.val.state.terminal = false ∧
        claimed.val.nextRetryAt = none
  ends : ∀ events last, Run (loop config index id world) (Allowed config id) events last →
    ∃ more final stored, Run (loop config index id world) (Allowed config id)
      (events ++ more) final ∧
      final.row id = some stored ∧ stored.val.state.terminal = true

section Result

variable {config : Config} {index maxAttempts : Nat} {id : Uuid} {sequence : List DeliveryStatus}
    {world : World}
variable {stored : StoredNotification}

theorem Unattempted.follows (unattempted : Unattempted index id sequence maxAttempts world stored) :
    Follows index id sequence maxAttempts world stored := by
  obtain ⟨_, _, numbered⟩ := unattempted.alone.ledger
  have nothing := numbered stored unattempted.alone.row
  rw [unattempted.attemptCount, List.range'_zero, List.map_eq_nil_iff] at nothing
  refine ⟨unattempted.alone, unattempted.scheduler, unattempted.listed, unattempted.begun,
    unattempted.dated, unattempted.suited, ?_, ?_⟩
  · rw [nothing, unattempted.attemptCount]
    rfl
  · refine ⟨fun _ => ?_, by simp [unattempted.nextRetryAt], by simp [unattempted.state]⟩
    rw [unattempted.attemptCount]
    exact ⟨stored.property.chkAttemptBounds.1, by simp⟩

theorem retry_loop_computes (unattempted : Unattempted index id sequence maxAttempts world stored) :
    Computes config index id sequence maxAttempts world := by
  have start := unattempted.follows
  constructor
  · intro events last run
    obtain ⟨version, follows, counts⟩ := run_follows start unattempted.attemptCount run
    have bound := follows.suited.bound
    have before (isOpen : version.val.state.terminal = false) :
        version.val.attemptCount < attempts sequence maxAttempts := by
      obtain ⟨room, temporary⟩ := follows.reached.ongoing isOpen
      exact bound ▸ lt_attempts temporary room
    have after (ended : version.val.state.terminal = true) :
        version.val.state = finalState sequence maxAttempts ∧
          version.val.attemptCount = attempts sequence maxAttempts :=
      bound ▸ follows.reached.done ended
    refine ⟨version, follows.alone.row, counts, ?_, follows.recorded, ?_,
      fun ended => (after ended).1⟩
    · cases ended : version.val.state.terminal with
      | true => exact (after ended).2.le
      | false => exact (before ended).le
    · refine ⟨fun ended => (after ended).2, ?_⟩
      intro whole
      by_contra isOpen
      exact absurd whole (before (by simpa using isOpen)).ne
  · intro events last event run permitted
    obtain ⟨version, follows, _⟩ := run_follows start unattempted.attemptCount run
    cases event with
    | tick | claim => exact ⟨_, rfl⟩
    | deliver elapsed workerNow delay =>
      obtain ⟨row, found, isOpen, _, later, drawn, past⟩ := permitted
      obtain rfl := Option.some.inj (found.symm.trans follows.alone.row)
      obtain ⟨next, _, done, _⟩ := follows.deliver isOpen elapsed later drawn past
      exact ⟨next, done⟩
  · intro events last row due limit run found scheduled passed room
    obtain ⟨version, follows, _⟩ := run_follows start unattempted.attemptCount run
    obtain rfl := Option.some.inj (found.symm.trans follows.alone.row)
    obtain ⟨claimed, follows', _, taken⟩ := follows.claim limit
    have queued := follows.reached.scheduled (by simp [scheduled])
    exact ⟨_, claimed, rfl, follows'.alone.row,
      taken (retryable_iff.mpr ⟨queued, due, scheduled, passed⟩) room⟩
  · intro events last run
    obtain ⟨version, follows, _⟩ := run_follows start unattempted.attemptCount run
    obtain ⟨more, final, result, whole, follows', ended⟩ := run_ends follows run
    exact ⟨more, final, result, whole, follows'.alone.row, ended⟩

end Result

section Sample

/-- A notification whose first two deliveries are to fail. -/
def scriptedRow : StoredNotification :=
  ⟨{ acceptedRow.val with
      provider := .fake
      metadata := .obj [("testing",
        .obj [("sequence", .arr [.str "temporary_failure", .str "temporary_failure"])])] },
    by decide⟩

theorem retry_loop_computes_scripted :
    Computes Engine.sampleConfig 0 7 [.temporaryFailure,
      .temporaryFailure] 5 (World.holding scriptedRow) ∧
      attempts [.temporaryFailure, .temporaryFailure] 5 = 3 ∧
      finalState [.temporaryFailure, .temporaryFailure] 5 = .sent := by
  refine ⟨retry_loop_computes ⟨World.holding_alone rfl 0, rfl, List.mem_singleton.mpr rfl,
    Nat.le_refl _, by decide, ?_, rfl, rfl, rfl⟩,
    by decide, by decide⟩
  exact ⟨rfl, rfl, rfl, ⟨Engine.samplePayload, EmailPayload.modelValidate_modelDump _⟩, _, _, rfl,
    rfl, rfl⟩

end Sample

end RetryLoop

end Relays
