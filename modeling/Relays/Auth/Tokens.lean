import Relays.Core.Errors
import Relays.Core.Json
import Relays.Core.Time

/-! Tokens and hashes. `hashlib` and PyJWT are parameters; what is signed and what is
demanded of a decoded payload is as in the source. -/

namespace Relays.Auth

/-- The exceptions of `jwt.decode` that are told apart. -/
inductive JwtError where
  | expiredSignature
  | missingRequiredClaim
  | invalidIssuedAt
  | invalidIssuer
  | invalidToken
  deriving DecidableEq, Repr

/-- The payload of a token. -/
abbrev Claims := List (String × Json String)

structure Config where
  /-- `sha512(text.encode("utf-8")).hexdigest()` -/
  sha512 : String → String
  jwtEncode : Claims → String
  /-- `jwt.decode` at a time, with the required claims. -/
  jwtDecode : Time → List String → String → Except JwtError Claims

def jwtIssuer : String := "relays"

def jwtAccessTokenTtlSeconds : Nat := 3600

def registrationTokenTtlSeconds : Nat := 900

def refreshTokenTtlDays : Nat := 30

def otpExpiryMinutes : Nat := 5

def refreshTokenTtl : Time := seconds (refreshTokenTtlDays * 24 * 60 * 60)

def otpExpiry : Time := seconds (otpExpiryMinutes * 60)

/-- `int(time.timestamp())`. -/
def timestamp (time : Time) : Int := (time / seconds 1 : Nat)

def hexDigits (width value : Nat) : List Char :=
  (List.range width).reverse.map fun position => Nat.digitChar ((value >>> (4 * position)) % 16)

/-- `str(uuid)`. -/
def uuidText (id : Uuid) : String :=
  let digits := hexDigits 32 id
  let group (start count : Nat) := (digits.drop start).take count
  String.ofList (group 0 8 ++ '-' :: group 8 4 ++ '-' :: group 12 4 ++ '-' :: group 16 4 ++ '-' ::
    group 20 12)

def hashOtp (config : Config) (otp : String) : String := config.sha512 otp

def hashRefreshToken (config : Config) (refreshToken : String) : String :=
    config.sha512 refreshToken

def createAccessToken (config : Config) (now : Time) (userId : Uuid) : String :=
  config.jwtEncode [("iss", .str jwtIssuer), ("sub", .str (uuidText userId)),
    ("type", .str "access"),
    ("ver", .int 1), ("iat", .int (timestamp now)),
    ("exp", .int (timestamp (now + seconds jwtAccessTokenTtlSeconds)))]

def createRegistrationToken (config : Config) (now : Time) (email : String) : String :=
  config.jwtEncode [("iss", .str jwtIssuer), ("email", .str email), ("type", .str "registration"),
    ("iat", .int (timestamp now)),
      ("exp", .int (timestamp (now + seconds registrationTokenTtlSeconds)))]

def registrationTokenError (message : String) : APIException where
  statusCode := 401
  code := .invalidRequest
  message := message

/-- The email of a valid registration token. -/
def decodeRegistrationToken (config : Config) (now : Time)
    (token : String) : Except APIException String :=
  match config.jwtDecode now ["iss", "email", "type", "iat", "exp"] token with
  | .error .expiredSignature => .error (registrationTokenError "Registration token expired")
  | .error .missingRequiredClaim => .error (registrationTokenError "Missing required token claim")
  | .error .invalidIssuedAt => .error (registrationTokenError "Invalid token issued-at timestamp")
  | .error .invalidIssuer => .error (registrationTokenError "Invalid registration token issuer")
  | .error .invalidToken => .error (registrationTokenError "Invalid registration token")
  | .ok payload =>
    match payload.lookup "type", payload.lookup "email" with
    | some (.str "registration"), some (.str email) =>
      if email = "" then .error (registrationTokenError "Invalid registration token email")
        else .ok email
    | some (.str "registration"),
      _ => .error (registrationTokenError "Invalid registration token email")
    | _, _ => .error (registrationTokenError "Invalid registration token type")

end Relays.Auth
