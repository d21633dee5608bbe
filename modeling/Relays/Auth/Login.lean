import Relays.Auth.Registration

/-! The login calls. `request_login_otp` leaves its transaction before it replaces the code: the
DELETE and the INSERT are each committed at once. -/

namespace Relays.Auth

open ReadCommitted

namespace RequestLoginOtp

inductive Phase where
  | begun
  | identified (userId : Uuid)
  | deleting (userId target : Uuid)
  | deleted (userId target : Uuid)
  | cleared (userId : Uuid)
  | created (id : Uuid) (otp : StoredOtp Uuid)
  | ended (outcome : Outcome)

def start (permitted : Bool) : Phase :=
  if permitted then .begun else .ended (.error tooManyRequests)

def step (config : Config) (tx : Nat) (world : World) (email : String)
    (draw : Draw) : Phase → Option (World × Phase)
  | .begun =>
    match getUserByEmail world tx email with
    | none => some (world, .ended .done)
    | some (userId, _) => some (world, .identified userId)
  | .identified userId =>
    match findOtp world.loginOtps tx userId with
    | none => some (world, .cleared userId)
    | some (target, _) => some (world, .deleting userId target)
  | .deleting userId target =>
    match deleteOtp world.loginOtps tx userId target with
    | .waits => none
    | .violates => some (world.rollback tx, .ended .unhandled)
    | .returns (loginOtps, deleted) =>
      some ({ world with loginOtps }, if deleted then .deleted userId target else .cleared userId)
  | .deleted userId _ => some (world.commit tx, .cleared userId)
  | .cleared userId =>
    match newOtp world.clock userId (hashOtp config draw.secret) (otpExpiry + world.clock) with
    | none => some (world.rollback tx, .ended .unhandled)
    | some otp =>
      match createOtp world.loginOtps tx draw.id otp with
      | .waits => none
      | .violates => some (world.rollback tx, .ended (.error unableToGenerate))
      | .returns loginOtps =>
        some ({ world with
          loginOtps
          issuedLoginOtps := world.issuedLoginOtps ++ [⟨draw.id, userId, draw.secret⟩] },
            .created draw.id otp)
  | .created _ _ => some (world.commit tx, .ended .done)
  | .ended _ => none

end RequestLoginOtp

namespace AuthenticateAccount

inductive Phase where
  | begun (now : Time)
  | checking (now : Time) (userId : Uuid) (phase : OtpVerification.Phase Uuid)
  | consumed (now : Time) (userId id : Uuid) (otp : StoredOtp Uuid) (target : Uuid)
      (result : StoredOtp Uuid)
  | contextual (now : Time) (userId id : Uuid) (otp : StoredOtp Uuid) (target : Uuid)
      (result : StoredOtp Uuid)
  | sessionCreated (id : Uuid) (otp : StoredOtp Uuid) (target : Uuid) (result : StoredOtp Uuid)
      (sessionId : Uuid) (session : StoredSession) (accessToken refreshToken : String)
  | ended (outcome : Outcome)

def invalidCredentials : APIException where
  statusCode := 401
  code := .invalidCredentials
  message := "Invalid Credentials"

def step (config : Config) (tx : Nat) (world : World) (email otp : String) (draw : Draw) :
    Phase → Option (World × Phase)
  | .begun now =>
    match getUserByEmail world tx email with
    | none => some (world.rollback tx, .ended (.error invalidCredentials))
    | some (userId, _) => some (world, .checking now userId .reading)
  | .checking now userId phase =>
    match OtpVerification.step config world.clock now tx userId otp world.loginOtps phase with
    | none => none
    | some (loginOtps, .continues next) => some ({ world with loginOtps },
      .checking now userId next)
    | some (loginOtps, .raises error) =>
      some (World.rollback { world with loginOtps } tx, .ended (.error error))
    | some (loginOtps, .fails) => some (World.rollback { world with loginOtps } tx,
      .ended .unhandled)
    | some (loginOtps, .consumed id row target result) =>
      some ({ world with loginOtps }, .consumed now userId id row target result)
  | .consumed now userId id row target result =>
    match getWorkspaceContext world tx userId with
    | none => some (world.rollback tx, .ended (.error invalidCredentials))
    | some _ => some (world, .contextual now userId id row target result)
  | .contextual now userId id row target result =>
    match newSession now userId (hashRefreshToken config draw.secret)
      (refreshTokenTtl + world.clock) with
    | none => some (world.rollback tx, .ended .unhandled)
    | some session =>
      match createSession world.sessions tx draw.id session with
      | .waits => none
      | .violates => some (world.rollback tx, .ended .unhandled)
      | .returns sessions =>
        some ({ world with sessions, issuedTokens := world.issuedTokens ++ [draw.secret] },
          .sessionCreated id row target result draw.id session
            (createAccessToken config world.clock userId)
            draw.secret)
  | .sessionCreated _ _ _ _ _ _ accessToken refreshToken =>
    some (world.commit tx, .ended (.tokens accessToken refreshToken))
  | .ended _ => none

end AuthenticateAccount

end Relays.Auth
