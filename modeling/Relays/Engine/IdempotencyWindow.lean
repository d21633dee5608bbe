import Relays.Engine.Idempotence

/-! The expiry of idempotency records: a used key is never new again, whatever its `expires_at`
says. -/

namespace Relays

open ReadCommitted Transition

namespace Submission

/-- Whether the request is treated as a new one, once its key has been inserted or found. -/
def Phase.isNewRequest : Phase → Option Bool
  | .recorded _ _ | .created _ _ | .completed _ | .accepted _ | .enqueued _ | .enqueueRaised _
  | .markQueuedRaised _ => some true
  | .conflicted | .matched _ | .replayed _ | .refused _ => some false
  | .answered isNewRequest _ => some isNewRequest
  | .begun _ | .aborted => none

variable {config : Config} {index : Nat} {world next : World} {request : Request} {event : Event}
    {phase : Phase}
variable {isNewRequest : Bool}

/-- A request stays what it is treated as, or is rolled back. -/
theorem Moves.isNewRequest_kept (moves : Moves config index world request event next phase)
    (treated : request.phase.isNewRequest = some isNewRequest) :
    phase.isNewRequest = some isNewRequest ∨ phase = .aborted := by
  have ends := moves.lookup
  cases moves with
  | insertIdemKeys current | conflict current => simp [current, Phase.isNewRequest] at treated
  | createRejected | abort => exact .inr rfl
  | getIdemKeys current | getNotification current =>
    left
    rw [current] at treated
    rcases ends (by simp) with ⟨_, rfl⟩ | ⟨_, rfl⟩ | ⟨_, rfl⟩ <;> exact treated
  | createNotification current | completeIdempotency current | commitNew current
  | commitReplay current
  | enqueue current | enqueueRaises current | markQueued current | markQueuedRaises current =>
    left
    rw [current] at treated
    exact treated

theorem Moves.not_aborted (moves : Moves config index world request event next phase) :
    request.phase ≠ .aborted := by
  intro aborted
  cases moves with
  | abort running => simp [aborted, Phase.inTransaction] at running
  | insertIdemKeys current | conflict current | getIdemKeys current | getNotification current
  | createNotification current | createRejected current | completeIdempotency current
  | commitNew current | commitReplay current
  | enqueue current | enqueueRaises current | markQueued current | markQueuedRaises current =>
    cases aborted.symm.trans current

theorem Phase.isNewRequest_of_returned {notification : Notification}
    (returned : phase.returned = some (isNewRequest, notification)) :
      phase.isNewRequest = some isNewRequest := by
  cases phase <;> simp_all [Phase.returned, Phase.isNewRequest]

end Submission

namespace Engine

/-- The record that the key has is still live at this time. -/
def Live (engine : Engine) (key : IdempotencyKey) (now : Time) : Prop :=
  ∃ record, (engine.world.idempotency key).committed = some record ∧ now < record.expiresAt

/-- In this state of the run, a request that began at this time inserts its key or finds it used. -/
structure Submitted (config : Config) (events : List Event) (index : Nat) (before : Engine)
    (request : Submission.Request) (now : Time) : Prop where
  inserts : ∃ front after, Takes (system config) events front before
    (.request index .insertIdemKeys) after
  found : before.requests[index]? = some request
  began : request.phase = .begun now

/-- Every submission so far was treated by the expiry of the record that it met. -/
structure HonoursExpiry (config : Config) (events : List Event) (engine : Engine) : Prop where
  /-- It replays or conflicts exactly if the record is live, and is a new request otherwise. -/
  treated : ∀ index before submitted now request isNewRequest,
    Submitted config events index before submitted now →
    engine.requests[index]? = some request → request.phase.isNewRequest = some isNewRequest →
    (isNewRequest = false ↔ Live before submitted.arguments.key now)
  /-- A replay returns the notification of the record. -/
  replayed : ∀ index before submitted now (request : Submission.Request) notification,
    Submitted config events index before submitted now → engine.requests[index]? = some request →
    request.phase.returned = some (false, notification) →
    ∃ record, (before.world.idempotency submitted.arguments.key).committed = some record ∧
      record.notificationId = some notification.id
  /-- A new request creates a notification. -/
  created : ∀ index before submitted now (request : Submission.Request) notification,
    Submitted config events index before submitted now → engine.requests[index]? = some request →
    request.phase.returned = some (true, notification) →
    before.world.row notification.id = none ∧ ∃ stored, engine.world.row notification.id =
      some stored

/-- The window is honoured in every state that the run reaches. -/
def WindowExpires (config : Config) (events : List Event) : Prop :=
  ∀ front back engine, events = front ++ back → Run (system config) Any front engine →
    HonoursExpiry config front engine

/-- No key is submitted again at or after the expiry of its record. -/
def WithinWindow (config : Config) (events : List Event) : Prop :=
  ∀ index before request now record, Submitted config events index before request now →
    (before.world.idempotency request.arguments.key).committed = some record →
      now < record.expiresAt

variable {config : Config} {engine before after : Engine} {events front : List Event} {index : Nat}
variable {submitted request : Submission.Request} {now : Time} {isNewRequest : Bool}

/-- A key is inserted exactly if it has no record, live or not. -/
theorem insert_treats (takes : Takes (system config) events front before
    (.request index .insertIdemKeys) after)
    (found : before.requests[index]? = some submitted) (began : submitted.phase = .begun now) :
    ∃ phase, after.requests[index]? = some { submitted with phase := phase } ∧ phase.isNewRequest =
      some (before.world.idempotency submitted.arguments.key).committed.isNone := by
  have idle := ((run_sound takes.reached).request found).idle
    (by simp [began, Submission.Phase.writing])
  have seen := idle.view_record submitted.arguments.key
  have taken : Moves config before (.request index .insertIdemKeys) after := step_moves takes.taken
  cases taken with
  | request entry moves =>
    obtain rfl := Option.some.inj (entry.symm.trans found)
    cases moves with
    | insertIdemKeys current done =>
      obtain ⟨_, absent, _⟩ := Table.insertOnConflict_returns done
      rw [seen] at absent
      exact ⟨_, Processes.set_self entry, by rw [absent]; rfl⟩
    | conflict current done =>
      obtain ⟨_, ⟨record, present⟩, _⟩ := Table.insertOnConflict_returns_none done
      rw [seen] at present
      exact ⟨_, Processes.set_self entry, by rw [present]; rfl⟩

/-- What a submission is treated as follows from the record that it met. -/
theorem submitted_treated (run : Run (system config) Any events engine)
    (submits : Submitted config events index before submitted now)
    (found : engine.requests[index]? = some request) :
    request.arguments = submitted.arguments ∧ (request.phase.isNewRequest =
      some (before.world.idempotency submitted.arguments.key).committed.isNone ∨
        request.phase = .aborted) := by
  obtain ⟨front, after, takes⟩ := submits.inserts
  obtain ⟨back, split⟩ := takes.split
  obtain ⟨phase, lands, treated⟩ := insert_treats takes submits.found submits.began
  have extended : events = (front ++ [.request index .insertIdemKeys]) ++ back := by simp [split]
  have kept : ∃ request, engine.requests[index]? = some request ∧
    request.arguments = submitted.arguments ∧
      (request.phase.isNewRequest =
        some (before.world.idempotency submitted.arguments.key).committed.isNone ∨
          request.phase = .aborted) := by
    apply run.keeps extended takes.run
    · exact ⟨_, lands, rfl, .inl treated⟩
    · rintro _ middle event final earlier ⟨request, present, same, treated⟩ _ taken
      rcases (step_moves taken).request_next present with stays
        | ⟨statement, phase, _, moves, present⟩
      · exact ⟨request, stays, same, treated⟩
      · refine ⟨_, present, same, ?_⟩
        rcases treated with treated | aborted
        · exact moves.isNewRequest_kept treated
        · exact absurd aborted moves.not_aborted
  obtain ⟨other, present, same, treated⟩ := kept
  obtain rfl := Option.some.inj (present.symm.trans found)
  exact ⟨same, treated⟩

/-- A record that a submission met is the record of its key for good. -/
theorem submitted_extends (run : Run (system config) Any events engine)
    (submits : Submitted config events index before submitted now) :
      before.world.Extends engine.world := by
  obtain ⟨front, after, takes⟩ := submits.inserts
  obtain ⟨back, split⟩ := takes.split
  exact run_extends run split takes.reached

theorem submitted_replays (run : Run (system config) Any events engine)
    {notification : Notification}
    (submits : Submitted config events index before submitted now)
    (found : engine.requests[index]? = some request)
    (returned : request.phase.returned = some (false, notification)) :
    ∃ record, (before.world.idempotency submitted.arguments.key).committed = some record ∧
      record.notificationId = some notification.id := by
  obtain ⟨same, treated⟩ := submitted_treated run submits found
  have existing := Submission.Phase.isNewRequest_of_returned returned
  obtain ⟨final, present, _, named⟩ :=
    (((run_sound run).request found).settled notification
      (Submission.Phase.settled_of_returned returned)).1
  rcases treated with treated | aborted
  · cases met : (before.world.idempotency submitted.arguments.key).committed with
    | none => simp [existing, met] at treated
    | some record =>
      have kept := (submitted_extends run submits).records _ record met
      rw [same] at present
      obtain rfl := Option.some.inj (kept.symm.trans present)
      exact ⟨record, rfl, named⟩
  · simp [aborted, Submission.Phase.isNewRequest] at existing

/-- The notification of a new request was not there before. -/
theorem submitted_creates (run : Run (system config) Any events engine)
    {notification : Notification}
    (submits : Submitted config events index before submitted now)
    (found : engine.requests[index]? = some request)
    (returned : request.phase.returned = some (true, notification)) :
    before.world.row notification.id = none ∧ ∃ stored, engine.world.row notification.id =
      some stored := by
  have original : Original engine index request.arguments.key notification.id :=
    ⟨request, notification, found, rfl, Submission.Phase.original_iff.mpr returned, rfl⟩
  obtain ⟨_, _, _, _, present⟩ := original.recorded (run_sound run)
  refine ⟨?_, present⟩
  obtain ⟨front, after, takes⟩ := submits.inserts
  obtain ⟨back, split⟩ := takes.split
  by_contra there
  obtain ⟨stored, earlier⟩ := Option.ne_none_iff_exists'.mp there
  obtain ⟨other, key, creates⟩ := (run_originals takes.reached).row _ stored earlier
  have kept := run_original_kept run split takes.reached creates
  obtain rfl := (run_originals run).id other index key _ _ kept original
  obtain ⟨same, _, again, _, held, _⟩ := creates
  obtain rfl := Option.some.inj (again.symm.trans submits.found)
  simp [submits.began, Submission.Phase.original, Submission.Phase.returned] at held

/-- The window expires as promised exactly if no key is ever submitted again after it. -/
theorem window_expires_iff (config : Config) (events : List Event) :
    WindowExpires config events ↔ WithinWindow config events := by
  constructor
  · intro expires index before request now record submits met
    obtain ⟨front, after, takes⟩ := submits.inserts
    obtain ⟨back, split⟩ := takes.split
    obtain ⟨phase, lands, treated⟩ := insert_treats takes submits.found submits.began
    have honours := expires (front ++ [.request index .insertIdemKeys]) back after
      (by simp [split]) takes.run
    have here : Submitted config (front ++ [.request index .insertIdemKeys]) index before request
        now :=
      ⟨⟨front, after, .last takes.reached takes.taken⟩, submits.found, submits.began⟩
    rw [met] at treated
    obtain ⟨live, same, later⟩ := (honours.treated _ _ _ _ _ _ here lands treated).mp rfl
    obtain rfl := Option.some.inj (met.symm.trans same)
    exact later
  · intro within front back engine split reached
    have inside {index before submitted now}
      (submits : Submitted config front index before submitted now) :
        Submitted config events index before submitted now := by
      obtain ⟨earlier, after, takes⟩ := submits.inserts
      exact ⟨⟨earlier, after, split ▸ takes.extend back⟩, submits.found, submits.began⟩
    refine ⟨?_, fun _ _ _ _ _ _ submits found returned =>
      submitted_replays reached submits found returned,
      fun _ _ _ _ _ _ submits found returned => submitted_creates reached submits found returned⟩
    intro index before submitted now request isNewRequest submits found known
    obtain ⟨_, treated | aborted⟩ := submitted_treated reached submits found
    · obtain rfl := Option.some.inj (known.symm.trans treated)
      cases met : (before.world.idempotency submitted.arguments.key).committed with
      | none => simp [Live, met]
      | some record =>
        have later := within _ _ _ _ record (inside submits) met
        simp [Live, met, later]
    · simp [aborted, Submission.Phase.isNewRequest] at known

/-- A submission, and the same one when its record has just expired. -/
def resubmits : List Event :=
  submits 0 7 ++ [.tick (seconds (24 * 60 * 60)), .post sampleArguments]

/-- The second request begins at the expiry of the record of its key or later. -/
private def meetsExpired (engine : Engine) : Bool :=
  match (engine.requests[1]? : Option Submission.Request) with
  | some ⟨arguments, .begun now⟩ =>
    (engine.world.idempotency arguments.key).committed.any fun record => record.expiresAt ≤ now
  | _ => false

private def conflicts (engine : Engine) : Bool :=
  match (engine.requests[1]? : Option Submission.Request) with
  | some ⟨_, .conflicted⟩ => true
  | _ => false

theorem expired_record_conflicts : ∃ engine,
    Run (system sampleConfig) Any (resubmits ++ [.request 1 .insertIdemKeys]) engine ∧
      ¬ WindowExpires sampleConfig (resubmits ++ [.request 1 .insertIdemKeys]) := by
  obtain ⟨before, reached, expired⟩ :=
    Run.exists_of_execute (system sampleConfig) Any resubmits meetsExpired (by decide +kernel)
  obtain ⟨engine, run, conflicted⟩ := Run.exists_of_execute (system sampleConfig) Any
    (resubmits ++ [.request 1 .insertIdemKeys]) conflicts (by decide +kernel)
  refine ⟨engine, run, fun expires => ?_⟩
  have honours := expires _ [] engine (List.append_nil _).symm run
  obtain ⟨start, after, takes⟩ := run.takes
    (show resubmits ++ [.request 1 .insertIdemKeys] = resubmits ++ .request 1 .insertIdemKeys :: []
      from rfl)
  obtain rfl := takes.reached.unique reached
  unfold meetsExpired at expired
  unfold conflicts at conflicted
  split at expired
  · rename_i arguments now found
    split at conflicted
    · rename_i other lands
      obtain ⟨record, met, passed⟩ := (Option.any_eq_true _ _).mp expired
      obtain ⟨live, same, later⟩ :=
        (honours.treated 1 start _ now _ false ⟨⟨resubmits, after, takes⟩, found,
          rfl⟩ lands rfl).mp rfl
      obtain rfl := Option.some.inj (met.symm.trans same)
      exact absurd later (Nat.not_lt.mpr (by simpa using passed))
    · cases conflicted
  · cases expired

end Engine

end Relays
