import Relays.Core.Errors
import Relays.Engine.World

/-! One `POST /v1/notifications` request: the transaction of `submit_notification`
and the queue processing of `create_notify`, statement by statement. -/

namespace Relays.Submission

open ReadCommitted

def httpMethod : String := "POST"

def notificationsPath : String := "/v1/notifications"

structure Arguments where
  request : NotificationRequestBody
  idempotencyKey : Uuid
  workspaceId : Uuid
  apiKeyId : Uuid

def Arguments.key (arguments : Arguments) : IdempotencyKey where
  idempotencyKey := arguments.idempotencyKey
  apiKeyId := arguments.apiKeyId
  method := httpMethod
  path := notificationsPath

def resolveRecipient (request : NotificationRequestBody) : String :=
  match request.payload with
  | .email payload => payload.toAddress
  | .sms payload => payload.toNumber
  | .webhook payload => payload.url

def requestHash (config : Config) (arguments : Arguments) : String :=
  config.canonicalHash arguments.request.modelDump

def newNotification (arguments : Arguments) (now : Time) (id : Uuid) : Notification :=
  createNotification now id arguments.workspaceId arguments.apiKeyId arguments.request.channel
    .mailrelay (resolveRecipient arguments.request) arguments.request.payload.modelDump
    (.obj arguments.request.metadata)

def idempotencyFailure : APIException where
  statusCode := 500
  code := .internalError
  message := "Unable to process idempotent request due to an internal error. Please Try Again."

def hashMismatch : APIException where
  statusCode := 409
  code := .conflict
  message := "This Idempotency-Key has already been used with a different request payload. " ++
    "Use a new Idempotency-Key for different requests."

def stillProcessing : APIException where
  statusCode := 404
  code := .notFound
  message := "This request is still being processed. " ++
    "Retry the request with the same Idempotency-Key."

def inconsistentState : APIException where
  statusCode := 500
  code := .internalError
  message := "The request could not be completed due to an internal inconsistency. " ++
    "Please Try Again."

def enqueueFailure : APIException where
  statusCode := 500
  code := .internalError
  message := "Failed to enqueue notification for processing. Please retry."

inductive Phase where
  | begun (now : Time)
  | recorded (now : Time) (record : IdempotencyRecord)
  | created (record : IdempotencyRecord) (notification : Notification)
  | completed (notification : Notification)
  | conflicted
  | matched (notificationId : Uuid)
  | replayed (notification : Notification)
  | accepted (notification : Notification)
  | enqueued (notification : Notification)
  | enqueueRaised (notification : Notification)
  | markQueuedRaised (notification : Notification)
  | answered (isNewRequest : Bool) (notification : Notification)
  | refused (error : APIException)
  | aborted

structure Request where
  arguments : Arguments
  phase : Phase

inductive Event where
  | insertIdemKeys
  | createNotification (id : Uuid)
  | completeIdempotency
  | getIdemKeys
  | getNotification
  | commit
  | enqueue (raises : Bool)
  | markQueued (fails : Bool)
  | abort

structure PostNotificationResponse where
  statusCode : Nat
  location : Uuid
  notificationId : Uuid
  state : NotificationState
  createdAt : Time

inductive Response where
  | notification (body : PostNotificationResponse)
  | error (error : APIException)
  | unhandled

/-- `build_post_response`: the state of the body is its default. -/
def buildPostResponse (isNewRequest : Bool)
    (notification : Notification) : PostNotificationResponse where
  statusCode := if isNewRequest then 201 else 200
  location := notification.id
  notificationId := notification.id
  state := .created
  createdAt := notification.createdAt

/-- What the client of a request has been answered, if it has. -/
def Phase.response : Phase → Option Response
  | .answered isNewRequest notification =>
      some (.notification (buildPostResponse isNewRequest notification))
  | .enqueueRaised _ | .markQueuedRaised _ => some (.error enqueueFailure)
  | .refused error => some (.error error)
  | .aborted => some .unhandled
  | _ => none

/-- The transaction of `submit_notification` is open. -/
def Phase.inTransaction : Phase → Bool
  | .begun _ | .recorded _ _ | .created _ _ | .completed _ | .conflicted
  | .matched _ | .replayed _ => true
  | _ => false

/-- The lookups of an existing request, each with its error. -/
def afterLookup (hash : String) : Option IdempotencyRecord → Phase
  | none => .refused idempotencyFailure
  | some record =>
    if record.requestHash ≠ hash then .refused hashMismatch else
    match record.notificationId with
    | none => .refused stillProcessing
    | some notificationId => .matched notificationId

def afterReload : Option StoredNotification → Phase
  | none => .refused inconsistentState
  | some stored => .replayed stored.val

/-- An exception raised inside the transaction rolls it back. -/
def leave (world : World) (tx : Party) (phase : Phase) : World × Phase :=
  match phase with
  | .refused error => (world.rollback tx, .refused error)
  | next => (world, next)

/-- One statement of the request, `none` when it is not the next one or waits for a lock. -/
def step (config : Config) (index : Nat) (world : World) (request : Request) (event : Event) :
    Option (World × Phase) :=
  let tx := Party.request index
  let arguments := request.arguments
  match request.phase, event with
  | .begun now, .insertIdemKeys =>
    let row := Relays.insertIdemKeys now world.idempotencySequence (requestHash config arguments)
    let drawn := { world with idempotencySequence := world.idempotencySequence + 1 }
    match world.idempotency.insertOnConflict arguments.key tx row with
    | .waits | .violates => none
    | .returns (table, some record) => some ({ drawn with idempotency := table },
      .recorded now record)
    | .returns (_, none) => some (drawn, .conflicted)
  | .recorded now record, .createNotification id =>
    -- `gen_random_uuid()` never repeats an identifier
    if id ∈ world.notificationIds then none else
    match store (newNotification arguments now id) with
    | none => some (world.rollback tx, .aborted)
    | some stored =>
      some ({ world with
        notifications := world.notifications.write id tx (some stored)
        notificationIds := world.notificationIds ++ [id] }, .created record stored.val)
  | .created record notification, .completeIdempotency =>
    match world.idempotency.update arguments.key tx (fun row => row.id = record.id)
        (fun row => some (Relays.completeIdempotency notification.id row)) with
    | .waits | .violates => none
    | .returns (table, _) => some ({ world with idempotency := table }, .completed notification)
  | .completed notification, .commit => some (world.commit tx, .accepted notification)
  | .conflicted, .getIdemKeys =>
    some (leave world tx
      (afterLookup (requestHash config arguments) ((world.idempotency arguments.key).view tx)))
  | .matched notificationId, .getNotification =>
    some (leave world tx (afterReload ((world.notifications notificationId).view tx)))
  | .replayed notification, .commit => some (world.commit tx, .answered false notification)
  | .accepted notification, .enqueue raises =>
    if raises then some (world, .enqueueRaised notification)
    else some (world.enqueue notification.id notification.channel, .enqueued notification)
  | .enqueued notification, .markQueued fails =>
    if fails then some (world, .markQueuedRaised notification) else
    -- a statement of its own, committed at once
    match world.updateNotification tx notification.id awaitsQueueing (Relays.markQueued world.clock)
      with
    | .waits => none
    | .violates => some (world, .markQueuedRaised notification)
    | .returns (next, _) => some (next.commit tx, .answered true notification)
  | phase, .abort => if phase.inTransaction then some (world.rollback tx, .aborted) else none
  | _, _ => none

end Relays.Submission
