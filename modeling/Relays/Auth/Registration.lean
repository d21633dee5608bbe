import Relays.Auth.OtpVerification
import Relays.Workspaces.Slugs

/-! The registration calls, statement by statement: a code is requested and verified, and the
token it is exchanged for opens the account. An exception rolls the transaction back, and
what is not an `APIException` is answered 500. -/

namespace Relays.Auth

open ReadCommitted

def tooManyRequests : APIException where
  statusCode := 429
  code := .rateLimitExceeded
  message := "Too many OTP requests. Please try again later."

def unableToGenerate : APIException where
  statusCode := 409
  code := .conflict
  message := "Unable to generate a verification code at this time. Please try again."

namespace RequestRegistrationOtp

inductive Phase where
  | begun (now : Time)
  | unregistered (now : Time)
  | replacing (now : Time)
  | deleting (now : Time) (target : Uuid)
  | cleared (now : Time) (deleted : Option Uuid)
  | created (deleted : Option Uuid) (id : Uuid) (otp : StoredOtp String)
  | ended (outcome : Outcome)

def accountExists : APIException where
  statusCode := 409
  code := .conflict
  message := "An account already exists for this email address."

/-- The rate limit comes before the transaction. -/
def start (clock : Time) (permitted : Bool) : Phase :=
  if permitted then .begun clock else .ended (.error tooManyRequests)

def step (config : Config) (tx : Nat) (world : World) (email : String)
    (draw : Draw) : Phase → Option (World × Phase)
  | .begun now =>
    match getUserByEmail world tx email with
    | some _ =>
      some (world.rollback tx, .ended (.error accountExists))
    | none => some (world, .unregistered now)
  | .unregistered now =>
    match getOtp world.registrationOtps tx email with
    | some _ => some (world, .replacing now)
    | none => some (world, .cleared now none)
  | .replacing now =>
    match findOtp world.registrationOtps tx email with
    | some (target, _) => some (world, .deleting now target)
    | none => some (world, .cleared now none)
  | .deleting now target =>
    match deleteOtp world.registrationOtps tx email target with
    | .waits => none
    | .violates =>
      some (world.rollback tx, .ended .unhandled)
    | .returns (registrationOtps, deleted) =>
      some ({ world with registrationOtps }, .cleared now (if deleted then some target else none))
  | .cleared now deleted =>
    match newOtp now email (hashOtp config draw.secret) (otpExpiry + world.clock) with
    | none =>
      some (world.rollback tx, .ended .unhandled)
    | some otp =>
      match createOtp world.registrationOtps tx draw.id otp with
      | .waits => none
      | .violates =>
        some (world.rollback tx, .ended (.error unableToGenerate))
      | .returns registrationOtps =>
        some ({ world with
          registrationOtps
          issuedRegistrationOtps :=
            world.issuedRegistrationOtps ++ [⟨draw.id, email, draw.secret⟩] },
          .created deleted draw.id otp)
  | .created _ _ _ => some (world.commit tx, .ended .done)
  | .ended _ => none

end RequestRegistrationOtp

namespace VerifyRegistrationOtp

inductive Phase where
  | checking (now : Time) (phase : OtpVerification.Phase String)
  | consumed (id : Uuid) (otp : StoredOtp String) (target : Uuid) (result : StoredOtp String)
  | ended (outcome : Outcome)

def start (clock : Time) : Phase := .checking clock .reading

def step (config : Config) (tx : Nat) (world : World) (email otp : String) : Phase →
    Option (World × Phase)
  | .checking now phase =>
    match OtpVerification.step config world.clock now tx email otp world.registrationOtps phase with
    | none => none
    | some (registrationOtps, .continues next) => some ({ world with registrationOtps },
      .checking now next)
    | some (registrationOtps, .raises error) =>
      some (World.rollback { world with registrationOtps } tx, .ended (.error error))
    | some (registrationOtps, .fails) =>
      some (World.rollback { world with registrationOtps } tx, .ended .unhandled)
    | some (registrationOtps, .consumed id row target result) =>
      some ({ world with registrationOtps }, .consumed id row target result)
  | .consumed _ _ _ _ =>
    some (world.commit tx, .ended
      (.registrationToken (createRegistrationToken config world.clock email)))
  | .ended _ => none

end VerifyRegistrationOtp

namespace CreateAccount

inductive Phase where
  | begun (now : Time) (email slug : String)
  | unregistered (now : Time) (email slug : String)
  | available (now : Time) (email slug : String)
  | userCreated (now : Time) (slug : String) (userId : Uuid) (user : User)
  | workspaceCreated (now : Time) (userId : Uuid) (user : User) (workspaceId : Uuid)
      (workspace : Workspace)
  | memberCreated (now : Time) (userId : Uuid) (user : User) (workspaceId : Uuid)
      (workspace : Workspace)
      (member : WorkspaceMember)
  | sessionCreated (userId : Uuid) (user : User) (workspaceId : Uuid) (workspace : Workspace)
      (member : WorkspaceMember) (sessionId : Uuid) (session : StoredSession)
        (accessToken refreshToken : String)
  | ended (outcome : Outcome)

def userExists : APIException where
  statusCode := 409
  code := .conflict
  message := "A user has already been registered with this email."

def workspaceUnavailable : APIException where
  statusCode := 409
  code := .conflict
  message := "Workspace Name is not available."

def alreadyExists : APIException where
  statusCode := 409
  code := .conflict
  message := "A user or workspace with the provided information already exists."

def invalidWorkspaceName (message : String) : APIException where
  statusCode := 400
  code := .invalidRequest
  message := message

/-- The token and the slug are checked before the transaction. -/
def start (config : Config) (clock : Time) (registrationToken workspaceName : String) : Phase :=
  match decodeRegistrationToken config clock registrationToken with
  | .error error => .ended (.error error)
  | .ok email =>
    match validateWorkspaceSlug (slugify workspaceName) with
    | .error message => .ended (.error (invalidWorkspaceName message))
    | .ok _ => .begun clock email (slugify workspaceName)

def step (config : Config) (tx : Nat) (world : World) (name workspaceName : String) (draw : Draw) :
    Phase → Option (World × Phase)
  | .begun now email slug =>
    match getUserByEmail world tx email with
    | some _ =>
      some (world.rollback tx, .ended (.error userExists))
    | none => some (world, .unregistered now email slug)
  | .unregistered now email slug =>
    match getWorkspaceBySlug world tx slug with
    | some _ =>
      some (world.rollback tx, .ended (.error workspaceUnavailable))
    | none => some (world, .available now email slug)
  | .available now email slug =>
    match createUser world tx now draw.id name email with
    | .waits => none
    | .violates =>
      some (world.rollback tx, .ended (.error alreadyExists))
    | .returns next =>
      some (next, .userCreated now slug draw.id { email, name, createdAt := now, updatedAt := now })
  | .userCreated now slug userId user =>
    match createWorkspace world tx now draw.id workspaceName slug with
    | .waits => none
    | .violates =>
      some (world.rollback tx, .ended (.error alreadyExists))
    | .returns next =>
      some (next, .workspaceCreated now userId user draw.id
        { name := workspaceName, slug, createdAt := now, updatedAt := now })
  | .workspaceCreated now userId user workspaceId workspace =>
    match createWorkspaceMembership world tx now workspaceId userId .owner with
    | .waits => none
    | .violates =>
      some (world.rollback tx, .ended (.error alreadyExists))
    | .returns next =>
      some (next, .memberCreated now userId user workspaceId workspace
        { workspaceId, userId, role := .owner, joinedAt := now })
  | .memberCreated now userId user workspaceId workspace member =>
    match newSession now userId (hashRefreshToken config draw.secret)
      (refreshTokenTtl + world.clock) with
    | none =>
      some (world.rollback tx, .ended .unhandled)
    | some session =>
      match createSession world.sessions tx draw.id session with
      | .waits => none
      | .violates =>
        some (world.rollback tx, .ended (.error alreadyExists))
      | .returns sessions =>
        some ({ world with sessions, issuedTokens := world.issuedTokens ++ [draw.secret] },
          .sessionCreated userId user workspaceId workspace member draw.id session
            (createAccessToken config world.clock userId) draw.secret)
  | .sessionCreated _ _ _ _ _ _ _ accessToken refreshToken =>
    some (world.commit tx, .ended (.tokens accessToken refreshToken))
  | .ended _ => none

end CreateAccount

end Relays.Auth
