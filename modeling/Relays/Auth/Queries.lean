import Relays.Auth.Records
import Relays.Auth.Tokens

/-! The tables of the account flows and their queries. Every call is one transaction at a
time and is named by its place in the list of calls. -/

namespace Relays.Auth

open ReadCommitted

/-- A code that has been generated and stored, as the log line names it. -/
structure IssuedOtp (Owner : Type) where
  id : Uuid
  owner : Owner
  code : String

structure World where
  clock : Time
  users : Relation Uuid Nat User
  workspaces : Relation Uuid Nat Workspace
  members : Relation (Uuid × Uuid) Nat WorkspaceMember
  sessions : Relation Uuid Nat StoredSession
  registrationOtps : OtpTable String
  loginOtps : OtpTable Uuid
  issuedTokens : List String
  issuedRegistrationOtps : List (IssuedOtp String)
  issuedLoginOtps : List (IssuedOtp Uuid)

namespace World

def empty : World where
  clock := 0
  users := Relation.empty
  workspaces := Relation.empty
  members := Relation.empty
  sessions := Relation.empty
  registrationOtps := Relation.empty
  loginOtps := Relation.empty
  issuedTokens := []
  issuedRegistrationOtps := []
  issuedLoginOtps := []

def commit (world : World) (tx : Nat) : World :=
  { world with
    users := world.users.commit tx
    workspaces := world.workspaces.commit tx
    members := world.members.commit tx
    sessions := world.sessions.commit tx
    registrationOtps := world.registrationOtps.commit tx
    loginOtps := world.loginOtps.commit tx }

def rollback (world : World) (tx : Nat) : World :=
  { world with
    users := world.users.rollback tx
    workspaces := world.workspaces.rollback tx
    members := world.members.rollback tx
    sessions := world.sessions.rollback tx
    registrationOtps := world.registrationOtps.rollback tx
    loginOtps := world.loginOtps.rollback tx }

end World

section Accounts

variable (world : World) (tx : Nat)

def getUserByEmail (email : String) : Option (Uuid × User) :=
  world.users.find tx fun user => user.email = email

def getUserById (id : Uuid) : Option User := (world.users.cells id).view tx

def getWorkspaceBySlug (slug : String) : Option (Uuid × Workspace) :=
  world.workspaces.find tx fun workspace => workspace.slug = slug

/-- The first membership of the user. -/
def getWorkspaceContext (userId : Uuid) : Option ((Uuid × Uuid) × WorkspaceMember) :=
  match getUserById world tx userId with
  | none => none
  | some _ => world.members.find tx fun member => member.userId = userId

def createUser (now : Time) (id : Uuid) (name email : String) : Statement World :=
  match world.users.insert tx id { email, name, createdAt := now, updatedAt := now } User.clash with
  | .waits => .waits
  | .violates => .violates
  | .returns users => .returns { world with users }

def createWorkspace (now : Time) (id : Uuid) (name slug : String) : Statement World :=
  match world.workspaces.insert tx id
      { name, slug, createdAt := now, updatedAt := now } Workspace.clash with
  | .waits => .waits
  | .violates => .violates
  | .returns workspaces => .returns { world with workspaces }

def createWorkspaceMembership (now : Time) (workspaceId userId : Uuid)
    (role : WorkspaceMemberRole) :
    Statement World :=
  match world.members.insert tx (workspaceId, userId) { workspaceId, userId, role, joinedAt := now }
      WorkspaceMember.clash with
  | .waits => .waits
  | .violates => .violates
  | .returns members => .returns { world with members }

end Accounts

/-- The row of `create_session`, unless it breaks a CHECK constraint. -/
def newSession (now : Time) (userId : Uuid) (refreshTokenHash : String)
    (expiresAt : Time) : Option StoredSession :=
  admitted Session.Checks { userId, refreshTokenHash, expiresAt, createdAt := now }

/-- The SET clause of `rotate_session_refresh_token`. -/
def rotated (refreshTokenHash : String) (expiresAt : Time)
    (session : StoredSession) : Option StoredSession :=
  admitted Session.Checks { session.val with refreshTokenHash, expiresAt }

/-- The SET clause of `revoke_session`. -/
def revoked (now : Time) (session : StoredSession) : Option StoredSession :=
  admitted Session.Checks { session.val with revokedAt := some now }

def unrevoked (session : StoredSession) : Bool := session.val.revokedAt.isNone

section Sessions

variable (sessions : Relation Uuid Nat StoredSession) (tx : Nat)

def createSession (id : Uuid)
    (session : StoredSession) : Statement (Relation Uuid Nat StoredSession) :=
  sessions.insert tx id session Session.clash

def getSessionByRefreshTokenHash (refreshTokenHash : String) : Option (Uuid × StoredSession) :=
  sessions.find tx fun session => session.val.refreshTokenHash =
    refreshTokenHash && unrevoked session

def rotateSessionRefreshToken (sessionId : Uuid) (refreshTokenHash : String) (expiresAt : Time) :
    Statement (Relation Uuid Nat StoredSession × Option StoredSession) :=
  sessions.updateUnique tx sessionId unrevoked (rotated refreshTokenHash expiresAt) Session.clash

def revokeSession (now : Time) (sessionId : Uuid) :
    Statement (Relation Uuid Nat StoredSession × Option StoredSession) :=
  sessions.update tx sessionId unrevoked (revoked now)

end Sessions

section Otps

variable {Owner : Type} [DecidableEq Owner] (table : OtpTable Owner) (tx : Nat)

/-- The row of `create_registration_otp` and `create_login_otp`. -/
def newOtp (now : Time) (owner : Owner) (otpHash : String)
    (expiresAt : Time) : Option (StoredOtp Owner) :=
  admitted Otp.Checks { owner, otpHash, expiresAt, createdAt := now }

/-- The WHERE clause of the look-ups and of the consuming UPDATE. -/
def unconsumed (owner : Owner) (otp : StoredOtp Owner) : Bool :=
  otp.val.owner = owner && otp.val.consumedAt.isNone

/-- The WHERE clause of the DELETE. -/
def ownedBy (owner : Owner) (otp : StoredOtp Owner) : Bool := otp.val.owner = owner

/-- The SET clause of `consume_registration_otp` and `consume_login_otp`. -/
def consumed (now : Time) (otp : StoredOtp Owner) : Option (StoredOtp Owner) :=
  admitted Otp.Checks { otp.val with consumedAt := some now }

def createOtp (id : Uuid) (otp : StoredOtp Owner) : Statement (OtpTable Owner) :=
  table.insert tx id otp Otp.clash

/-- `get_registration_otp_by_email` and `get_login_otp_by_user_id`; the consuming UPDATE picks its
row the same way. -/
def getOtp (owner : Owner) : Option (Uuid × StoredOtp Owner) := table.find tx (unconsumed owner)

/-- The row that `delete_registration_otp` and `delete_login_otp` pick. -/
def findOtp (owner : Owner) : Option (Uuid × StoredOtp Owner) := table.find tx (ownedBy owner)

/-- The consuming UPDATE, once it has picked its row. -/
def consumeOtp (now : Time) (owner : Owner)
    (id : Uuid) : Statement (OtpTable Owner × Option (StoredOtp Owner)) :=
  table.update tx id (unconsumed owner) (consumed now)

/-- The DELETE, once it has picked its row. -/
def deleteOtp (owner : Owner) (id : Uuid) : Statement (OtpTable Owner × Bool) :=
  table.delete tx id (ownedBy owner)

end Otps

/-- How a call ends; what is not an `APIException` is answered 500. -/
inductive Outcome where
  | done
  | registrationToken (token : String)
  | tokens (accessToken refreshToken : String)
  | error (error : APIException)
  | unhandled
  deriving DecidableEq, Repr

/-- What the database and `secrets` supply to a statement. -/
structure Draw where
  id : Uuid
  secret : String

end Relays.Auth
