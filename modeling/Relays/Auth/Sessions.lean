import Relays.Auth.Queries

/-! The calls on a session. Both look it up by the hash of the presented token and then
update it by its id. -/

namespace Relays.Auth

open ReadCommitted

def invalidRefreshToken : APIException where
  statusCode := 401
  code := .invalidRefreshToken
  message := "Invalid refresh token"

namespace RefreshAccessToken

inductive Phase where
  | begun (now : Time)
  | read (now : Time) (sessionId : Uuid) (session : StoredSession)
  | expired (now : Time) (sessionId : Uuid) (session : StoredSession)
  | live (sessionId : Uuid) (session : StoredSession)
  | identified (sessionId : Uuid) (session : StoredSession)
  | rotated (sessionId : Uuid) (session result : StoredSession) (refreshToken : String)
  | ended (outcome : Outcome)

def refreshTokenExpired : APIException where
  statusCode := 401
  code := .refreshTokenExpired
  message := "Refresh token expired"

def step (config : Config) (tx : Nat) (world : World) (refreshToken : String) (draw : Draw) :
    Phase → Option (World × Phase)
  | .begun now =>
    match getSessionByRefreshTokenHash world.sessions tx (hashRefreshToken config refreshToken) with
    | none => some (world.rollback tx, .ended (.error invalidRefreshToken))
    | some (sessionId, session) => some (world, .read now sessionId session)
  | .read now sessionId session =>
    if session.val.expiresAt ≤ world.clock then some (world, .expired now sessionId session)
    else some (world, .live sessionId session)
  | .expired now sessionId _ =>
    match revokeSession world.sessions tx now sessionId with
    | .waits => none
    | .violates => some (world.rollback tx, .ended .unhandled)
    | .returns (sessions, _) =>
      -- the exception rolls the revocation back
      some (World.rollback { world with sessions } tx, .ended (.error refreshTokenExpired))
  | .live sessionId session =>
    match getUserById world tx session.val.userId with
    | none => some (world.rollback tx, .ended (.error invalidRefreshToken))
    | some _ => some (world, .identified sessionId session)
  | .identified sessionId session =>
    match rotateSessionRefreshToken world.sessions tx sessionId
      (hashRefreshToken config draw.secret)
        (refreshTokenTtl + world.clock) with
    | .waits => none
    | .violates => some (world.rollback tx, .ended .unhandled)
    | .returns (_, none) => some (world.rollback tx, .ended (.error invalidRefreshToken))
    | .returns (sessions, some result) =>
      some ({ world with sessions, issuedTokens := world.issuedTokens ++ [draw.secret] },
        .rotated sessionId session result draw.secret)
  | .rotated _ session _ refreshToken =>
    some (world.commit tx, .ended
      (.tokens (createAccessToken config world.clock session.val.userId) refreshToken))
  | .ended _ => none

end RefreshAccessToken

namespace Logout

inductive Phase where
  | begun (now : Time)
  | read (now : Time) (sessionId : Uuid) (session : StoredSession)
  | revoked (sessionId : Uuid) (session result : StoredSession)
  | ended (outcome : Outcome)

def step (config : Config) (tx : Nat) (world : World) (refreshToken : String) : Phase →
    Option (World × Phase)
  | .begun now =>
    match getSessionByRefreshTokenHash world.sessions tx (hashRefreshToken config refreshToken) with
    | none => some (world.rollback tx, .ended (.error invalidRefreshToken))
    | some (sessionId, session) => some (world, .read now sessionId session)
  | .read now sessionId session =>
    match revokeSession world.sessions tx now sessionId with
    | .waits => none
    | .violates => some (world.rollback tx, .ended .unhandled)
    | .returns (_, none) => some (world.rollback tx, .ended (.error invalidRefreshToken))
    | .returns (sessions, some result) => some ({ world with sessions },
      .revoked sessionId session result)
  | .revoked _ _ _ => some (world.commit tx, .ended .done)
  | .ended _ => none

end Logout

end Relays.Auth
