import Relays.ApiKeys.Records

/-! The guard of the notification routes: an API key is looked up by its prefix and compared by
its hash. -/

namespace Relays

/-- `text.partition(" ")` without the separator. -/
def partition (text : String) : String × String :=
  let scheme := text.toList.takeWhile (· ≠ ' ')
  (String.ofList scheme, String.ofList (text.toList.drop (scheme.length + 1)))

def unauthorized (message : String) : APIException where
  statusCode := 401
  code := .unauthorized
  message := message

/-- The key of the header; an absent header is read as an empty one. -/
def presentedKey (authorization : Option String) : Except APIException String :=
  match authorization with
  | none | some "" => .error (unauthorized "Missing Authorization header")
  | some header =>
    let (scheme, apiKey) := partition header
    if scheme.toList.flatMap lower ≠ "bearer".toList ∨ apiKey = "" then
      .error (unauthorized "Invalid Authorization header")
    else .ok apiKey

/-- What the guard leaves behind: the request state, or the answer in place of the route's. -/
inductive Guarded where
  | authenticated (apiKeyId workspaceId : Uuid)
  | rejected (error : APIException)
  | unhandled
  deriving DecidableEq, Repr

/-- The checks of the row that was found by the prefix of the key. -/
def checkApiKey (sha512 : String → String) (now : Time) (apiKey : String) :
    Option (Uuid × StoredApiKey) → Guarded
  | none => .rejected (unauthorized "Invalid API Key")
  | some (id, record) =>
    if record.val.keyHash ≠ hashApiKey sha512 apiKey then .rejected (unauthorized "Invalid API Key")
    else if record.val.status ≠ .active then .rejected (unauthorized "API Key has been revoked")
    else if record.val.expiresAt.any (· ≤ now) then .rejected (unauthorized "API Key has expired")
    else .authenticated id record.val.workspaceId

def authenticateApiKey (sha512 : String → String) (now : Time)
    (getApiKeyByPrefix : String → Option (Uuid × StoredApiKey))
    (authorization : Option String) : Guarded :=
  match presentedKey authorization with
  | .error error => .rejected error
  | .ok apiKey =>
    match extractPrefix apiKey with
    -- the `ValueError` is not an `APIException`
    | .error _ => .unhandled
    | .ok keyPrefix => checkApiKey sha512 now apiKey (getApiKeyByPrefix keyPrefix)

variable {sha512 : String → String} {now : Time} {apiKey keyPrefix : String} {id workspaceId : Uuid}
variable {getApiKeyByPrefix : String → Option (Uuid × StoredApiKey)} {authorization : Option String}

/-- `Bearer k` presents `k`, blanks and all. -/
theorem presentedKey_bearer (apiKey : String) (nonempty : apiKey ≠ "") :
    presentedKey (some ("Bearer " ++ apiKey)) = .ok apiKey := by
  have parts : partition ("Bearer " ++ apiKey) = ("Bearer", apiKey) := by
    simp [partition]
  have scheme : "Bearer".toList.flatMap lower = "bearer".toList := by decide
  unfold presentedKey
  split
  · rename_i absent
    cases absent
  · rename_i empty
    have length := congrArg String.length (Option.some.inj empty)
    simp at length
  · rename_i found
    obtain rfl := Option.some.inj found
    rw [parts]
    dsimp only
    rw [if_neg]
    rintro (different | nothing)
    · exact different scheme
    · exact nonempty nothing

theorem presentedKey_bearer_eq_ok {presented : String} :
    presentedKey (some ("Bearer " ++ apiKey)) = .ok presented ↔ presented = apiKey ∧
      apiKey ≠ "" := by
  by_cases empty : apiKey = ""
  · subst empty
    have refused : presentedKey (some ("Bearer " ++ "")) =
        .error (unauthorized "Invalid Authorization header") := by
      decide
    rw [refused]
    simp
  · rw [presentedKey_bearer apiKey empty]
    simp [empty, eq_comm]

theorem extractPrefix_eq_ok : extractPrefix apiKey = .ok keyPrefix ↔
    apiKeyPrefixLength ≤ apiKey.length ∧
      keyPrefix = String.ofList (apiKey.toList.take apiKeyPrefixLength) := by
  unfold extractPrefix
  split
  · simp; omega
  · simp [eq_comm]; omega

theorem not_expired {expiresAt : Option Time} :
    ¬ expiresAt.any (· ≤ now) = true ↔ ∀ time ∈ expiresAt, now < time := by
  cases expiresAt <;> simp

theorem checkApiKey_authenticated {found : Option (Uuid × StoredApiKey)} :
    checkApiKey sha512 now apiKey found = .authenticated id workspaceId ↔
      ∃ record, found = some (id, record) ∧ record.val.workspaceId = workspaceId ∧
        record.val.keyHash = hashApiKey sha512 apiKey ∧ record.val.status = .active ∧
        ∀ expiresAt ∈ record.val.expiresAt, now < expiresAt := by
  constructor
  · intro accepted
    unfold checkApiKey at accepted
    split at accepted
    · cases accepted
    · rename_i record
      split at accepted
      · cases accepted
      · rename_i hashed
        split at accepted
        · cases accepted
        · rename_i active
          split at accepted
          · cases accepted
          · rename_i valid
            cases accepted
            exact ⟨record, rfl, rfl, by simpa using hashed, by simpa using active,
              not_expired.mp valid⟩
  · rintro ⟨record, rfl, rfl, hashed, active, valid⟩
    simp [checkApiKey, hashed, active, not_expired.mpr valid]

theorem authenticateApiKey_authenticated :
    authenticateApiKey sha512 now getApiKeyByPrefix authorization = .authenticated id workspaceId ↔
      ∃ apiKey keyPrefix, presentedKey authorization = .ok apiKey ∧
        extractPrefix apiKey = .ok keyPrefix ∧
        checkApiKey sha512 now apiKey (getApiKeyByPrefix keyPrefix) =
          .authenticated id workspaceId := by
  unfold authenticateApiKey
  cases presentedKey authorization with
  | error error => simp
  | ok apiKey =>
    dsimp only
    cases found : extractPrefix apiKey with
    | error message => simp [found]
    | ok keyPrefix => simp [found]

end Relays
