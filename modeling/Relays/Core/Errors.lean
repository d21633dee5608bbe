namespace Relays

/-- Error codes of the API error body, named by their wire text. -/
inductive ErrorCode where
  | invalidRequest
  | notFound
  | unauthorized
  | forbidden
  | conflict
  | internalError
  | badRequest
  | invalidAccessToken
  | accessTokenExpired
  | invalidCredentials
  | invalidOtp
  | refreshTokenExpired
  | invalidRefreshToken
  | rateLimitExceeded
  deriving DecidableEq, Repr

structure APIException where
  statusCode : Nat
  code : ErrorCode
  message : String
  deriving DecidableEq, Repr

end Relays
