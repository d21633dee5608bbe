import Relays.ApiKeys.Guard
import Relays.Auth.Records
import Relays.Library.Keyed
import Relays.Notifications.Records
import Mathlib.Data.List.Sort

/-! The routes that read without a session: over a database state, each answers a request as its
guard and its queries do. -/

namespace Relays.Tenancy

/-- The committed rows, in storage order. -/
structure Database where
  users : List (Uuid × User)
  workspaces : List (Uuid × Workspace)
  members : List WorkspaceMember
  apiKeys : List (Uuid × StoredApiKey)
  notifications : List StoredNotification

/-- The keys of the schema. -/
structure Database.Valid (database : Database) : Prop where
  users : (database.users.map fun user => user.1).Nodup
  uqEmail : (database.users.map fun user => user.2.email).Nodup
  workspaces : (database.workspaces.map fun workspace => workspace.1).Nodup
  uqSlug : (database.workspaces.map fun workspace => workspace.2.slug).Nodup
  members : (database.members.map fun member => (member.workspaceId, member.userId)).Nodup
  uqWorkspaceSingleOwner :
    ((database.members.filter (·.role = .owner)).map fun member => member.workspaceId).Nodup
  apiKeys : (database.apiKeys.map fun apiKey => apiKey.1).Nodup
  uqKeyPrefix : (database.apiKeys.map fun apiKey => apiKey.2.val.keyPrefix).Nodup
  uqWorkspaceIdName : (database.apiKeys.map fun apiKey =>
    (apiKey.2.val.workspaceId, apiKey.2.val.name)).Nodup
  notifications : (database.notifications.map fun notification => notification.val.id).Nodup
  fkMemberWorkspace : ∀ member ∈ database.members,
    member.workspaceId ∈ database.workspaces.map fun workspace => workspace.1
  fkMemberUser : ∀ member ∈ database.members, member.userId ∈ database.users.map fun user => user.1
  fkKeyWorkspace : ∀ apiKey ∈ database.apiKeys,
    apiKey.2.val.workspaceId ∈ database.workspaces.map fun workspace => workspace.1
  fkCreatedBy : ∀ apiKey ∈ database.apiKeys, apiKey.2.val.createdBy ∈ database.users.map fun user =>
    user.1
  fkNotificationsWorkspace : ∀ notification ∈ database.notifications,
    notification.val.workspaceId ∈ database.workspaces.map fun workspace => workspace.1
  fkNotificationsApiKey : ∀ notification ∈ database.notifications,
    notification.val.apiKeyId ∈ database.apiKeys.map fun apiKey => apiKey.1

structure GetNotificationResponseBody where
  notificationId : Uuid
  channel : NotificationChannel
  recipient : String
  state : NotificationState
  attemptCount : Nat
  maxAttempts : Nat
  createdAt : Time
  updatedAt : Time
  queuedAt : Option Time
  lastAttemptAt : Option Time
  sentAt : Option Time
  lastError : Option Text
  deriving DecidableEq

def buildGetResponse (row : Notification) : GetNotificationResponseBody where
  notificationId := row.id
  channel := row.channel
  recipient := row.recipient
  state := row.state
  attemptCount := row.attemptCount
  maxAttempts := row.maxAttempts
  createdAt := row.createdAt
  updatedAt := row.updatedAt
  queuedAt := row.queuedAt
  lastAttemptAt := row.lastAttemptAt
  sentAt := row.sentAt
  lastError := row.lastError

structure WorkspaceBody where
  id : Uuid
  name : String
  slug : String
  status : WorkspaceStatus
  createdAt : Time
  deriving DecidableEq, Repr

structure WorkspaceMemberBody where
  id : Uuid
  email : String
  name : String
  role : WorkspaceMemberRole
  deriving DecidableEq, Repr

/-- How a request is answered; what is not an `APIException` is answered 500. -/
inductive Response where
  | notification (body : GetNotificationResponseBody)
  | workspace (body : WorkspaceBody)
  | members (bodies : List WorkspaceMemberBody)
  | error (error : APIException)
  | unhandled
  deriving DecidableEq

inductive Route where
  | getNotify (notificationId : Uuid)
  | getWorkspace (workspaceId : Uuid)
  | getWorkspaceMembers (workspaceId : Uuid)

structure Request where
  authorization : Option String
  route : Route

/-- What the answers depend on besides the rows: the digest, the clock and the collation of
names. -/
structure Environment where
  sha512 : String → String
  now : Time
  nameLe : String → String → Bool

section Queries

variable (database : Database)

def getApiKeyByPrefix (keyPrefix : String) : Option (Uuid × StoredApiKey) :=
  Keyed.get (fun apiKey => apiKey.2.val.keyPrefix) database.apiKeys keyPrefix

def getNotification (id : Uuid) : Option StoredNotification :=
  Keyed.get (fun notification => notification.val.id) database.notifications id

def getWorkspaceById (id : Uuid) : Option (Uuid × Workspace) :=
  Keyed.get (fun workspace => workspace.1) database.workspaces id

def getUserById (id : Uuid) : Option (Uuid × User) :=
    Keyed.get (fun user => user.1) database.users id

/-- The row of the join of a membership with its user. -/
def memberBody (member : WorkspaceMember) : Option WorkspaceMemberBody :=
  (getUserById database member.userId).map fun (id, user) =>
    ⟨id, user.email, user.name, member.role⟩

/-- `ORDER BY CASE WHEN role = 'OWNER' THEN 0 ELSE 1 END, name`; ties stay in storage order. -/
def ownersFirst (nameLe : String → String → Bool) (first second : WorkspaceMemberBody) : Prop :=
  (first.role = .owner ∧ second.role ≠ .owner) ∨
    ((first.role = .owner ↔ second.role = .owner) ∧ nameLe first.name second.name = true)

instance (nameLe : String → String → Bool) : DecidableRel (ownersFirst nameLe) :=
    fun first second =>
  inferInstanceAs (Decidable ((first.role = .owner ∧ second.role ≠ .owner) ∨ _))

def getWorkspaceMembers (nameLe : String → String → Bool)
    (workspaceId : Uuid) : List WorkspaceMemberBody :=
  ((database.members.filter (·.workspaceId = workspaceId)).filterMap
    (memberBody database)).insertionSort
    (ownersFirst nameLe)

end Queries

def notificationNotFound : APIException where
  statusCode := 404
  code := .notFound
  message := "Notification not found. Verify the notification_id and try again."

def workspaceNotFound : APIException where
  statusCode := 404
  code := .notFound
  message := "No workspace was found for the provided workspace_id."

section Routes

variable (environment : Environment) (database : Database)

def guard (authorization : Option String) : Guarded :=
  authenticateApiKey environment.sha512 environment.now (getApiKeyByPrefix database) authorization

/-- `get_notify`; the id of the guard's workspace is not used. -/
def getNotify (notificationId : Uuid) : Response :=
  match getNotification database notificationId with
  | none => .error notificationNotFound
  | some row => .notification (buildGetResponse row.val)

def getWorkspaceRoute (workspaceId : Uuid) : Response :=
  match getWorkspaceById database workspaceId with
  | none => .error workspaceNotFound
  | some (id, workspace) => .workspace ⟨id, workspace.name, workspace.slug, workspace.status,
    workspace.createdAt⟩

def getWorkspaceMembersRoute (workspaceId : Uuid) : Response :=
  match getWorkspaceById database workspaceId with
  | none => .error workspaceNotFound
  | some _ => .members (getWorkspaceMembers database environment.nameLe workspaceId)

/-- Only the notification route has a guard. -/
def respond (request : Request) : Response :=
  match request.route with
  | .getNotify notificationId =>
    match guard environment database request.authorization with
    | .rejected error => .error error
    | .unhandled => .unhandled
    | .authenticated _ _ => getNotify database notificationId
  | .getWorkspace workspaceId => getWorkspaceRoute database workspaceId
  | .getWorkspaceMembers workspaceId => getWorkspaceMembersRoute environment database workspaceId

end Routes

end Relays.Tenancy
