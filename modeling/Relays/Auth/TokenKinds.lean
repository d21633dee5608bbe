import Mathlib.Data.Nat.Digits.Lemmas
import Mathlib.Logic.Equiv.List
import Relays.ApiKeys.Guard
import Relays.Auth.UuidText
import Relays.Core.Serialisation

/-! The two kinds of tokens share key, algorithm and issuer. Each decoder takes the tokens of its
own kind, until they expire, and none of the other. -/

namespace Relays.Auth

def jwtAccessTokenType : String := "access"

def jwtVersion : Int := 1

def registrationTokenType : String := "registration"

/-- The payload as `jwt.decode` gives it, but for the parsed subject. -/
structure AccessTokenPayload where
  iss : Json String
  sub : Uuid
  type : Json String
  ver : Json String
  iat : Json String
  exp : Json String

def accessTokenError (message : String) : APIException where
  statusCode := 401
  code := .invalidAccessToken
  message := message

/-- Python's `==` with a number: `True` is 1, and so is `1.0`. -/
def equalsInt (number : Int) : Json String → Bool
  | .int value => value = number
  | .bool value => (if value then 1 else 0) = number
  | .float literal => literal = toString number ++ ".0"
  | _ => false

def equalsText (text : String) : Json String → Bool
  | .str value => value = text
  | _ => false

def decodeAccessToken (config : Config) (now : Time)
    (token : String) : Except APIException AccessTokenPayload :=
  match config.jwtDecode now ["iss", "sub", "type", "ver", "iat", "exp"] token with
  | .error .expiredSignature =>
    .error { statusCode := 401, code := .accessTokenExpired, message := "Access token expired" }
  | .error .missingRequiredClaim => .error (accessTokenError "Missing required token claim")
  | .error .invalidIssuedAt => .error (accessTokenError "Invalid token issued-at timestamp")
  | .error .invalidIssuer => .error (accessTokenError "Invalid access token issuer")
  | .error .invalidToken => .error (accessTokenError "Invalid access token")
  | .ok payload =>
    -- the required claims are there
    let get (claim : String) := (payload.lookup claim).getD .null
    if !equalsText jwtAccessTokenType (get "type") then
      .error (accessTokenError "Invalid access token type")
    else if !equalsInt jwtVersion (get "ver") then
      .error (accessTokenError "Unsupported access token version")
    else
      match get "sub" with
      | .str text =>
        match parseUuid text with
        | some uid => .ok ⟨get "iss", uid, get "type", get "ver", get "iat", get "exp"⟩
        | none => .error (accessTokenError "Invalid token subject")
      | _ => .error (accessTokenError "Invalid token subject")

/-- `authenticate_jwt`, which reads the header as the guard of the API keys does. -/
def authenticateJwt {Context : Type} (config : Config) (now : Time)
    (getWorkspaceContext : Uuid → Option Context)
    (authorization : Option String) : Except APIException Context :=
  match presentedKey authorization with
  | .error error => .error error
  | .ok accessToken =>
    match decodeAccessToken config now (String.ofList (strip isSpace accessToken.toList)) with
    | .error error => .error error
    | .ok payload =>
      match getWorkspaceContext payload.sub with
      | none => .error (unauthorized "User's Workspace Not Found")
      | some context => .ok context

/-- A payload that PyJWT signs, with the times that it checks; `exp` and `iat` count seconds. -/
structure Signed (claims : Claims) (issuedAt expiresAt : Int) : Prop where
  distinct : (claims.map Prod.fst).Nodup
  plain : ∀ claim ∈ claims, (∃ text, claim.2 = .str text) ∨ ∃ value, claim.2 = .int value
  issuer : claims.lookup "iss" = some (.str jwtIssuer)
  subject : ∀ value ∈ claims.lookup "sub", ∃ text, value = .str text
  issuedAt : claims.lookup "iat" = some (.int issuedAt)
  expiresAt : claims.lookup "exp" = some (.int expiresAt)
  unchecked : ∀ claim ∈ ["nbf", "aud", "jti"], claims.lookup claim = none

/-- What `jwt.decode` verifies of a payload that `jwt.encode` has signed with the same key. -/
structure VerifiesSigned (config : Config) : Prop where
  missing : ∀ (now : Time) required claims issuedAt expiresAt, Signed claims issuedAt expiresAt →
    (∃ claim ∈ required, claims.lookup claim = none) →
    config.jwtDecode now required (config.jwtEncode claims) = .error .missingRequiredClaim
  expired : ∀ (now : Time) required claims issuedAt expiresAt, Signed claims issuedAt expiresAt →
    (∀ claim ∈ required, claims.lookup claim ≠ none) → issuedAt * 1000000 ≤ now →
      expiresAt * 1000000 ≤ now →
    config.jwtDecode now required (config.jwtEncode claims) = .error .expiredSignature
  accepted : ∀ (now : Time) required claims issuedAt expiresAt, Signed claims issuedAt expiresAt →
    (∀ claim ∈ required, claims.lookup claim ≠ none) → issuedAt * 1000000 ≤ now →
      now < expiresAt * 1000000 →
    config.jwtDecode now required (config.jwtEncode claims) = .ok claims

/-- An `APIException` with status 401. -/
def Refused {Value : Type} (outcome : Except APIException Value) : Prop :=
  ∃ error, outcome = .error error ∧ error.statusCode = 401

/-- From its issue on, a token gives this value until it expires, and is refused from then on. -/
structure Lives {Value : Type} (decoded : Time → Except APIException Value) (issued : Time)
    (expiresAt : Int) (value : Value) : Prop where
  before : ∀ now, issued ≤ now → now < expiresAt * 1000000 → decoded now = .ok value
  after : ∀ now, issued ≤ now → expiresAt * 1000000 ≤ now → Refused (decoded now)

structure TokenKinds (config : Config) : Prop where
  access : ∀ userId issued, userId < 2 ^ 128 →
    Lives (fun now => (decodeAccessToken config now (createAccessToken config issued userId)).map
      AccessTokenPayload.sub)
      issued (timestamp (issued + seconds jwtAccessTokenTtlSeconds)) userId
  registration : ∀ email issued, email ≠ "" →
    Lives (fun now => decodeRegistrationToken config now
      (createRegistrationToken config issued email))
      issued (timestamp (issued + seconds registrationTokenTtlSeconds)) email
  accessOnly : ∀ email issued now,
    Refused (decodeAccessToken config now (createRegistrationToken config issued email))
  registrationOnly : ∀ userId issued now,
    Refused (decodeRegistrationToken config now (createAccessToken config issued userId))

/-- What `create_access_token` has signed. -/
def accessClaims (now : Time) (userId : Uuid) : Claims :=
  [("iss", .str jwtIssuer), ("sub", .str (uuidText userId)), ("type", .str jwtAccessTokenType),
    ("ver", .int jwtVersion),
    ("iat", .int (timestamp now)),
      ("exp", .int (timestamp (now + seconds jwtAccessTokenTtlSeconds)))]

/-- What `create_registration_token` has signed. -/
def registrationClaims (now : Time) (email : String) : Claims :=
  [("iss", .str jwtIssuer), ("email", .str email), ("type", .str registrationTokenType),
    ("iat", .int (timestamp now)),
    ("exp", .int (timestamp (now + seconds registrationTokenTtlSeconds)))]

section Tokens

variable {config : Config} {issued now : Time} {userId : Uuid} {email token : String}
    {error : JwtError}

theorem createAccessToken_eq : createAccessToken config issued userId =
    config.jwtEncode (accessClaims issued userId) := rfl

theorem createRegistrationToken_eq :
    createRegistrationToken config issued email =
      config.jwtEncode (registrationClaims issued email) := rfl

/-- A timestamp is not after the time it has been read from. -/
theorem timestamp_le (issuedBefore : issued ≤ now) : timestamp issued * 1000000 ≤ now := by
  have floor : issued / seconds 1 * 1000000 ≤ issued := Nat.div_mul_le_self issued (seconds 1)
  have reached : ((issued / seconds 1 * 1000000 : Nat) : Int) ≤ now :=
    Int.ofNat_le.mpr (floor.trans issuedBefore)
  rwa [Int.natCast_mul] at reached

theorem accessClaims_signed : Signed (accessClaims issued userId) (timestamp issued)
    (timestamp (issued + seconds jwtAccessTokenTtlSeconds)) := by
  refine ⟨by simp [accessClaims], by simp [accessClaims], rfl, ?_, rfl, rfl,
    by simp [accessClaims, List.lookup_cons]⟩
  intro value found
  obtain rfl := Option.mem_some.mp found
  exact ⟨_, rfl⟩

theorem registrationClaims_signed : Signed (registrationClaims issued email) (timestamp issued)
    (timestamp (issued + seconds registrationTokenTtlSeconds)) := by
  refine ⟨by simp [registrationClaims], by simp [registrationClaims], rfl, ?_, rfl, rfl,
    by simp [registrationClaims, List.lookup_cons]⟩
  intro value found
  cases found

/-- Every error of `jwt.decode` is answered 401. -/
theorem decodeAccessToken_refused
    (failed : config.jwtDecode now ["iss", "sub", "type", "ver", "iat", "exp"] token =
      .error error) :
    Refused (decodeAccessToken config now token) := by
  rw [decodeAccessToken, failed]
  cases error <;> exact ⟨_, rfl, rfl⟩

theorem decodeRegistrationToken_refused
    (failed : config.jwtDecode now ["iss", "email", "type", "iat", "exp"] token = .error error) :
    Refused (decodeRegistrationToken config now token) := by
  rw [decodeRegistrationToken, failed]
  cases error <;> exact ⟨_, rfl, rfl⟩

/-- The decoder of access tokens asks for a version, which no registration token has. -/
theorem decodeAccessToken_registration (verifies : VerifiesSigned config) :
    Refused (decodeAccessToken config now (createRegistrationToken config issued email)) := by
  have missing : ∃ claim ∈ ["iss", "sub", "type", "ver", "iat", "exp"],
      (registrationClaims issued email).lookup claim = none :=
    ⟨"ver", by simp, rfl⟩
  exact decodeAccessToken_refused (verifies.missing now _ _ _ _ registrationClaims_signed missing)

/-- The decoder of registration tokens asks for an email, which no access token has. -/
theorem decodeRegistrationToken_access (verifies : VerifiesSigned config) :
    Refused (decodeRegistrationToken config now (createAccessToken config issued userId)) := by
  have missing : ∃ claim ∈ ["iss", "email", "type", "iat", "exp"],
      (accessClaims issued userId).lookup claim = none :=
    ⟨"email", by simp, rfl⟩
  exact decodeRegistrationToken_refused (verifies.missing now _ _ _ _ accessClaims_signed missing)

theorem accessClaims_required (issued : Time) (userId : Uuid) :
    ∀ claim ∈ ["iss", "sub", "type", "ver", "iat", "exp"],
      (accessClaims issued userId).lookup claim ≠ none := by
  simp [accessClaims, List.lookup_cons]

theorem registrationClaims_required (issued : Time) (email : String) :
    ∀ claim ∈ ["iss", "email", "type", "iat", "exp"],
      (registrationClaims issued email).lookup claim ≠ none := by
  simp [registrationClaims, List.lookup_cons]

theorem decodeAccessToken_created (verifies : VerifiesSigned config) (small : userId < 2 ^ 128)
    (issuedBefore : issued ≤ now)
    (valid : now < timestamp (issued + seconds jwtAccessTokenTtlSeconds) * 1000000) :
    ∃ payload, decodeAccessToken config now (createAccessToken config issued userId) = .ok payload ∧
      payload.sub = userId := by
  have decoded := verifies.accepted now _ _ _ _ accessClaims_signed
    (accessClaims_required issued userId)
    (timestamp_le issuedBefore) valid
  have subject : parseUuid (uuidText userId) = some userId := parseUuid_uuidText small
  rw [createAccessToken_eq, decodeAccessToken, decoded]
  simp [accessClaims, List.lookup_cons, equalsText, equalsInt, subject]

theorem decodeRegistrationToken_created (verifies : VerifiesSigned config) (nonempty : email ≠ "")
    (issuedBefore : issued ≤ now)
    (valid : now < timestamp (issued + seconds registrationTokenTtlSeconds) * 1000000) :
    decodeRegistrationToken config now (createRegistrationToken config issued email) =
      .ok email := by
  have decoded := verifies.accepted now _ _ _ _ registrationClaims_signed
    (registrationClaims_required issued email) (timestamp_le issuedBefore) valid
  rw [createRegistrationToken_eq, decodeRegistrationToken, decoded]
  simp [registrationClaims, List.lookup_cons, registrationTokenType, nonempty]

section Guard

variable {Context : Type} {getWorkspaceContext : Uuid → Option Context}

/-- The token of the header is the one that is decoded, when it has no blanks around it. -/
theorem authenticateJwt_bearer (nonempty : token ≠ "")
    (bare : strip isSpace token.toList = token.toList) :
    authenticateJwt config now getWorkspaceContext (some ("Bearer " ++ token)) =
      match decodeAccessToken config now token with
      | .error error => .error error
      | .ok payload =>
        match getWorkspaceContext payload.sub with
        | none => .error (unauthorized "User's Workspace Not Found")
        | some context => .ok context := by
  rw [authenticateJwt, presentedKey_bearer token nonempty]
  dsimp only
  rw [bare, String.ofList_toList]

/-- An unfinished registration is no login. -/
theorem authenticateJwt_registration (verifies : VerifiesSigned config)
    (nonempty : createRegistrationToken config issued email ≠ "")
    (bare : strip isSpace (createRegistrationToken config issued email).toList =
      (createRegistrationToken config issued email).toList) :
    Refused (authenticateJwt config now getWorkspaceContext
      (some ("Bearer " ++ createRegistrationToken config issued email))) := by
  have foreign : Refused (decodeAccessToken config now
      (createRegistrationToken config issued email)) :=
    decodeAccessToken_registration verifies
  obtain ⟨error, refused, status⟩ := foreign
  rw [authenticateJwt_bearer nonempty bare, refused]
  exact ⟨error, rfl, status⟩

end Guard

theorem token_kinds (verifies : VerifiesSigned config) : TokenKinds config := by
  refine ⟨?_, ?_, ?_, ?_⟩
  · intro userId issued small
    constructor
    · intro now issuedBefore valid
      obtain ⟨payload, decoded, rfl⟩ := decodeAccessToken_created verifies small issuedBefore valid
      rw [decoded]
      rfl
    · intro now issuedBefore expired
      have failed := verifies.expired now _ _ _ _ accessClaims_signed
        (accessClaims_required issued userId)
        (timestamp_le issuedBefore) expired
      obtain ⟨error, refused, status⟩ := decodeAccessToken_refused failed
      refine ⟨error, ?_, status⟩
      rw [createAccessToken_eq, refused]
      rfl
  · intro email issued nonempty
    constructor
    · intro now issuedBefore valid
      exact decodeRegistrationToken_created verifies nonempty issuedBefore valid
    · intro now issuedBefore expired
      exact decodeRegistrationToken_refused (verifies.expired now _ _ _ _ registrationClaims_signed
        (registrationClaims_required issued email) (timestamp_le issuedBefore) expired)
  · intro email issued now
    exact decodeAccessToken_registration verifies
  · intro userId issued now
    exact decodeRegistrationToken_access verifies

end Tokens

section Sample

/-- A claim as numbers; values other than strings and integers are not told apart. -/
def claimCode : String × Json String → List Nat × (List Nat ⊕ Int)
  | (name, .int value) => (name.toList.map Char.toNat, .inr value)
  | (name, .str text) => (name.toList.map Char.toNat, .inl (text.toList.map Char.toNat))
  | (name, _) => (name.toList.map Char.toNat, .inl [])

def ofClaimCode : List Nat × (List Nat ⊕ Int) → String × Json String
  | (name, .inr value) => (String.ofList (name.map Char.ofNat), .int value)
  | (name, .inl text) => (String.ofList (name.map Char.ofNat),
    .str (String.ofList (text.map Char.ofNat)))

/-- A payload as the digits of one number. -/
def sampleEncode (claims : Claims) : String :=
  String.ofList ((Nat.digits 10 (Encodable.encode (claims.map claimCode))).map Nat.digitChar)

def samplePayload (token : String) : Option Claims :=
  (Encodable.decode (Nat.ofDigits 10 (token.toList.map Json.hexValue))).map (List.map ofClaimCode)

/-- PyJWT without the signature. -/
def sampleJwt : Config where
  sha512 := id
  jwtEncode := sampleEncode
  jwtDecode now required token :=
    match samplePayload token with
    | none => .error .invalidToken
    | some claims =>
      if required.any fun claim => (claims.lookup claim).isNone then .error .missingRequiredClaim
      else
        match claims.lookup "iat", claims.lookup "exp" with
        | some (.int issuedAt), some (.int expiresAt) =>
          if now < issuedAt * 1000000 then .error .invalidToken
          else if expiresAt * 1000000 ≤ now then .error .expiredSignature
          else if (claims.lookup "iss").any (equalsText jwtIssuer) then .ok claims
          else .error .invalidIssuer
        | _, _ => .error .invalidToken

theorem ofNat_toNat (text : String) : String.ofList ((text.toList.map Char.toNat).map Char.ofNat) =
    text := by
  rw [List.map_map]
  have same : Char.ofNat ∘ Char.toNat = id := funext Char.ofNat_toNat
  rw [same, List.map_id, String.ofList_toList]

theorem samplePayload_encode {claims : Claims} {issuedAt expiresAt : Int}
    (signed : Signed claims issuedAt expiresAt) :
    samplePayload (sampleEncode claims) = some claims := by
  have digits (number : Nat) : ((Nat.digits 10 number).map Nat.digitChar).map Json.hexValue =
      Nat.digits 10 number := by
    have back : ∀ digit ∈ Nat.digits 10 number, (Json.hexValue ∘ Nat.digitChar) digit =
        id digit := by
      intro digit known
      have small := Nat.digits_lt_base (by decide) known
      exact Json.hexValue_digitChar (small.trans (by decide))
    rw [List.map_map, List.map_congr_left back, List.map_id]
  have back : ∀ claim ∈ claims, (ofClaimCode ∘ claimCode) claim = id claim := by
    rintro ⟨name, value⟩ known
    rcases signed.plain _ known with ⟨text, rfl⟩ | ⟨number, rfl⟩
    · simp only [Function.comp_apply, claimCode, ofClaimCode, ofNat_toNat, id]
    · simp only [Function.comp_apply, claimCode, ofClaimCode, ofNat_toNat, id]
  rw [samplePayload, sampleEncode, String.toList_ofList, digits, Nat.ofDigits_digits,
    Encodable.encodek, Option.map_some,
    List.map_map, List.map_congr_left back, List.map_id]

theorem sampleJwt_verifies : VerifiesSigned sampleJwt := by
  have present {required : List String} {claims : Claims} (every : ∀ claim ∈ required,
    claims.lookup claim ≠ none) :
      ¬ required.any (fun claim => (claims.lookup claim).isNone) = true := by
    intro some'
    obtain ⟨claim, known, nothing⟩ := List.any_eq_true.mp some'
    exact every claim known (Option.isNone_iff_eq_none.mp nothing)
  refine ⟨?_, ?_, ?_⟩
  · rintro now required claims issuedAt expiresAt signed ⟨claim, known, nothing⟩
    simp only [sampleJwt, samplePayload_encode signed]
    exact if_pos (List.any_eq_true.mpr ⟨claim, known, Option.isNone_iff_eq_none.mpr nothing⟩)
  · intro now required claims issuedAt expiresAt signed every issuedBefore expired
    simp only [sampleJwt, samplePayload_encode signed, if_neg (present every), signed.issuedAt,
      signed.expiresAt,
      if_neg (not_lt.mpr issuedBefore), if_pos expired]
  · intro now required claims issuedAt expiresAt signed every issuedBefore valid
    simp only [sampleJwt, samplePayload_encode signed, if_neg (present every), signed.issuedAt,
      signed.expiresAt,
      if_neg (not_lt.mpr issuedBefore), if_neg (not_le.mpr valid), signed.issuer]
    rfl

theorem token_kinds_sample : TokenKinds sampleJwt := token_kinds sampleJwt_verifies

end Sample

end Relays.Auth
