import Relays.Engine.Observations
import Relays.Platform.Schema

/-! What a client can read of its notifications. `GET /notifications` reads the committed row on a
connection of its own, at any time of the run. -/

namespace Relays

open ReadCommitted Transition

namespace Tenancy.GetNotificationResponseBody

/-- How an answer may differ from an earlier one for the same notification. -/
structure Advances (first second : GetNotificationResponseBody) : Prop where
  notificationId : second.notificationId = first.notificationId
  channel : second.channel = first.channel
  recipient : second.recipient = first.recipient
  maxAttempts : second.maxAttempts = first.maxAttempts
  createdAt : second.createdAt = first.createdAt
  attempts : first.attemptCount ≤ second.attemptCount
  paced : second.attemptCount = first.attemptCount → second = first ∨
    first.attemptCount = 0 ∧ first.state = .created ∧ second.state = .queued ∨
    0 < first.attemptCount ∧ first.state = .queued ∧ second.state = .processing
  sent : first.state = .sent → second.state = .sent
  queued : ∀ time ∈ first.queuedAt, second.queuedAt = some time
  created : second.state = .created → second = first

/-- What an answer says agrees with itself and lies in the past. -/
structure Tells (clock : Time) (body : GetNotificationResponseBody) : Prop where
  bounds : body.attemptCount ≤ body.maxAttempts
  exhausted : body.attemptCount = body.maxAttempts → body.state.terminal = true
  fresh : body.state = .created → body.attemptCount = 0 ∧ body.queuedAt = none
  counted : body.lastAttemptAt.isSome = true ↔ 0 < body.attemptCount
  sent : body.state = .sent ↔ body.sentAt.isSome = true
  stamped : body.state = .sent → body.sentAt = body.lastAttemptAt
  failed : body.state = .failed → body.lastError.isSome = true
  times : ∀ time, body.queuedAt = some time ∨ body.lastAttemptAt = some time ∨
    body.sentAt = some time ∨
    body.updatedAt = time → body.createdAt ≤ time ∧ time ≤ clock

end Tenancy.GetNotificationResponseBody

namespace Tenancy

variable {row next : Notification} {stored : StoredNotification} {shape : Shape} {clock : Time}

theorem buildGetResponse_advances (advances : row.Advances next) :
    (buildGetResponse row).Advances (buildGetResponse next) where
  notificationId := congrArg NotificationIdentity.id advances.identity
  channel := congrArg NotificationIdentity.channel advances.identity
  recipient := congrArg NotificationIdentity.recipient advances.identity
  maxAttempts := congrArg NotificationIdentity.maxAttempts advances.identity
  createdAt := congrArg NotificationIdentity.createdAt advances.identity
  attempts := advances.attempts
  paced same := (advances.paced same).imp_left fun same => congrArg buildGetResponse same
  sent := advances.sent
  queued := advances.queued
  created state := congrArg buildGetResponse (advances.created state)

theorem buildGetResponse_tells (fits : shape.Fits stored.val) (stamped : stored.val.Stamped clock) :
    (buildGetResponse stored.val).Tells clock := by
  have checks := stored.property
  refine ⟨checks.chkAttemptBounds.2, ?_, ?_, stamped.counted, checks.chkSentAtTimestamp,
    stamped.sent, stamped.failed, ?_⟩
  · intro spent
    exact fits.terminal_of_exhausted checks.chkAttemptBounds.1 (Nat.le_of_eq spent.symm)
  · intro state
    refine ⟨?_, stamped.fresh state⟩
    cases shape with
    | created =>
      obtain ⟨_, unattempted, _⟩ := fits
      exact unattempted
    | _ =>
      obtain ⟨other, _⟩ := fits
      cases state.symm.trans other
  · rintro time (queued | attempted | sent | updated)
    · exact ⟨checks.chkQueuedAt time queued, stamped.queued time queued⟩
    · exact ⟨checks.chkTimestampSanity.1 time attempted, stamped.attempted time attempted⟩
    · have state : stored.val.state = .sent :=
        checks.chkSentAtTimestamp.mpr (Option.isSome_iff_exists.mpr ⟨time, sent⟩)
      exact ⟨checks.chkTimestampSanity.2 time sent,
        stamped.attempted time ((stamped.sent state).symm.trans sent)⟩
    · subst updated
      exact ⟨checks.chkUpdateAfterCreated, stamped.updated⟩

end Tenancy

namespace Platform

variable {settings : Settings} {platform earlier later : Platform} {events front back : List Event}
variable {authorization : Option String} {id : Uuid} {body : Tenancy.GetNotificationResponseBody}

/-- `GET /notifications/{notification_id}`, answered from what is committed at this moment. -/
def read (settings : Settings) (platform : Platform) (authorization : Option String)
    (id : Uuid) : Tenancy.Response :=
  Tenancy.respond ⟨settings.auth.sha512, platform.apiKeys.clock, fun _ _ => true⟩ platform.database
    ⟨authorization, .getNotify id⟩

theorem run_getNotification (run : Run (system settings) Any events platform) (id : Uuid) :
    Tenancy.getNotification platform.database id = platform.engine.world.row id := by
  have keyed := (Engine.run_sound ((deliveries settings).run run)).world.keyed
  ext stored
  rw [Tenancy.getNotification, Keyed.get_eq_some (run_database run).notifications,
    mem_notifications run]
  constructor
  · rintro ⟨present, rfl⟩
    exact present
  · intro present
    have named := (keyed id stored present).1
    exact ⟨by rw [named]; exact present, named⟩

/-- The route answers with the committed row, to every request with a valid key. -/
theorem read_eq_notification (run : Run (system settings) Any events platform) :
    platform.read settings authorization id = .notification body ↔
      (∃ apiKeyId workspaceId, platform.apiKeyGuard settings authorization =
        .authenticated apiKeyId workspaceId) ∧
      ∃ stored, platform.engine.world.row id = some stored ∧
        body = Tenancy.buildGetResponse stored.val := by
  simp only [read, Tenancy.respond, run_guard run, Tenancy.getNotify, run_getNotification run]
  cases accepted : platform.apiKeyGuard settings authorization with
  | rejected error => simp
  | unhandled => simp
  | authenticated apiKeyId workspaceId =>
    cases present : platform.engine.world.row id with
    | none => simp
    | some stored => simp [eq_comm]

/-- A notification stays where it can be read. -/
theorem run_advances {stored : StoredNotification} (run : Run (system settings) Any events later)
    (split : events = front ++ back) (reached : Run (system settings) Any front earlier)
    (present : earlier.engine.world.row id = some stored) :
    ∃ next, later.engine.world.row id = some next ∧ stored.val.Advances next.val := by
  refine (deliveries settings).keeps
    (fun engine => ∃ next, engine.world.row id = some next ∧
      stored.val.Advances next.val) run split reached
    ⟨stored, present, .refl _⟩ ?_
  rintro _ _ _ _ inner ⟨current, found, sofar⟩ taken
  obtain ⟨next, there, advances⟩ := (Engine.step_moves taken).advances inner found
  exact ⟨next, there, sofar.trans advances⟩

/-- What the client of a request has been answered is on record. -/
theorem answered_row (run : Run (system settings) Any events platform) {index : Nat}
    {request : Submission.Request}
    {isNewRequest : Bool} {notification : Notification}
    (found : platform.engine.requests[index]? = some request)
    (answered : request.phase = .answered isNewRequest notification) :
    ∃ stored, platform.engine.world.row notification.id = some stored ∧
      stored.val.createdAt = notification.createdAt ∧
      (isNewRequest = true → stored.val.channel = request.arguments.request.channel ∧
        stored.val.recipient = Submission.resolveRecipient request.arguments.request) := by
  have inner := (deliveries settings).run run
  obtain ⟨_, stored, present, same⟩ :=
    ((Engine.run_sound inner).request found).settled notification (by rw [answered]; rfl)
  refine ⟨stored, present, (congrArg NotificationIdentity.createdAt same).symm, ?_⟩
  intro new
  subst new
  have created : request.phase.original = some notification := by rw [answered]; rfl
  obtain ⟨now, made⟩ := Engine.run_original_made inner found created
  rw [made] at same
  exact ⟨(congrArg NotificationIdentity.channel same).symm,
    (congrArg NotificationIdentity.recipient same).symm⟩

/-- Whatever else goes on, every later read of a notification that a `POST` has been answered for
finds it, as it was created; later reads never go back behind earlier ones, and every read agrees
with itself. -/
theorem reads_consistent (run : Run (system settings) Any events later)
    (split : events = front ++ back)
    (reached : Run (system settings) Any front earlier) :
    (∀ (index : Nat) (request : Submission.Request) isNewRequest notification,
      earlier.engine.requests[index]? = some request →
        request.phase = .answered isNewRequest notification →
      ∀ authorization apiKeyId workspaceId,
        later.apiKeyGuard settings authorization = .authenticated apiKeyId workspaceId →
        ∃ body, later.read settings authorization notification.id = .notification body ∧
          body.notificationId = (Submission.buildPostResponse isNewRequest
            notification).notificationId ∧
          body.createdAt = (Submission.buildPostResponse isNewRequest notification).createdAt ∧
          (isNewRequest = true → body.channel = request.arguments.request.channel ∧
            body.recipient = Submission.resolveRecipient request.arguments.request)) ∧
    (∀ id authorization again apiKeyId workspaceId first,
      earlier.read settings authorization id = .notification first →
      later.apiKeyGuard settings again = .authenticated apiKeyId workspaceId →
      ∃ second, later.read settings again id = .notification second ∧ first.Advances second) ∧
    ∀ id authorization body, later.read settings authorization id = .notification body →
      body.notificationId = id ∧ body.Tells later.engine.world.clock := by
  have inner := (deliveries settings).run run
  refine ⟨?_, ?_, ?_⟩
  · intro index request isNewRequest notification found answered authorization apiKeyId workspaceId
      accepted
    obtain ⟨stored, present, created, posted⟩ := answered_row reached found answered
    obtain ⟨next, there, advances⟩ := run_advances run split reached present
    have named := ((Engine.run_sound inner).world.keyed _ next there).1
    refine ⟨_, (read_eq_notification run).mpr ⟨⟨apiKeyId, workspaceId, accepted⟩, next, there, rfl⟩,
      named, ?_, ?_⟩
    · exact (congrArg NotificationIdentity.createdAt advances.identity).trans created
    · intro new
      obtain ⟨channel, recipient⟩ := posted new
      exact ⟨(congrArg NotificationIdentity.channel advances.identity).trans channel,
        (congrArg NotificationIdentity.recipient advances.identity).trans recipient⟩
  · intro id authorization again apiKeyId workspaceId first before accepted
    obtain ⟨_, stored, present, rfl⟩ := (read_eq_notification reached).mp before
    obtain ⟨next, there, advances⟩ := run_advances run split reached present
    exact ⟨_, (read_eq_notification run).mpr ⟨⟨apiKeyId, workspaceId, accepted⟩, next, there, rfl⟩,
      Tenancy.buildGetResponse_advances advances⟩
  · intro id authorization body found
    obtain ⟨_, stored, present, rfl⟩ := (read_eq_notification run).mp found
    obtain ⟨shape, fits⟩ := (Engine.run_lifecycle inner id).shaped stored present
    exact ⟨((Engine.run_sound inner).world.keyed id stored present).1,
      Tenancy.buildGetResponse_tells fits (Engine.run_stamped inner present)⟩

private def readState (platform : Platform) : Option NotificationState :=
  match platform.read sampleSettings (some "Bearer rly_0123456789") 7 with
  | .notification body => some body.state
  | _ => none

/-- Notification 7 is read before and after its result is on record. -/
theorem reads_consistent_delivered : ∃ earlier later,
    Run (system sampleSettings) Any serves earlier ∧
    Run (system sampleSettings) Any (serves ++ (Engine.persists 0).map .engine) later ∧
    ∃ first second, earlier.read sampleSettings (some "Bearer rly_0123456789") 7 =
      .notification first ∧
      later.read sampleSettings (some "Bearer rly_0123456789") 7 = .notification second ∧
      first.state = .queued ∧ second.state = .sent ∧ first.Advances second := by
  obtain ⟨earlier, reached, before⟩ := Run.exists_of_execute (system sampleSettings) Any serves
    (fun platform => decide (readState platform = some .queued)) (by decide +kernel)
  obtain ⟨later, run, after⟩ := Run.exists_of_execute (system sampleSettings) Any
    (serves ++ (Engine.persists 0).map .engine)
      (fun platform => decide (readState platform = some .sent))
    (by decide +kernel)
  have stated (platform : Platform) (state : NotificationState) (answer : readState platform =
    some state) :
      ∃ body, platform.read sampleSettings (some "Bearer rly_0123456789") 7 = .notification body ∧
        body.state = state := by
    unfold readState at answer
    split at answer
    · rename_i body found
      exact ⟨body, found, Option.some.inj answer⟩
    · cases answer
  obtain ⟨first, was, queued⟩ := stated earlier .queued (by simpa using before)
  obtain ⟨body, now, sent⟩ := stated later .sent (by simpa using after)
  obtain ⟨⟨apiKeyId, workspaceId, accepted⟩, _⟩ := (read_eq_notification run).mp now
  obtain ⟨_, monotone, _⟩ := reads_consistent run rfl reached
  obtain ⟨second, found, advances⟩ := monotone 7 _ _ apiKeyId workspaceId first was accepted
  obtain rfl := Tenancy.Response.notification.inj (found.symm.trans now)
  exact ⟨earlier, later, reached, run, first, second, was, now, queued, sent, advances⟩

end Platform

end Relays
