import Relays.ApiKeys.Routes

/-! What the guard of the notification routes raises, its own exceptions and those of what it calls,
and how the exception handlers answer. -/

namespace Relays.ApiKeys

/-- What can leave the guard in place of an answer. -/
inductive Raised where
  | apiException (error : APIException)
  /-- By `extract_prefix`. -/
  | valueError (message : String)
  /-- By the query: the database takes no NUL in a text. -/
  | dataError
  /-- By `compare_digest`, which takes no text beyond ASCII. -/
  | typeError
  deriving DecidableEq

/-- `api_exception_handler`, and `global_exception_handler` for the rest. -/
def Raised.answer : Raised → Nat × ErrorCode
  | .apiException error => (error.statusCode, error.code)
  | .valueError _ | .dataError | .typeError => (500, .internalError)

def isAscii (text : String) : Bool := text.toList.all (·.toNat < 128)

def hasNul (text : String) : Bool := text.toList.any (·.toNat = 0)

def fetchApiKeyByPrefix (apiKeys : ApiKeyTable)
    (keyPrefix : String) : Except Raised (Option (Uuid × StoredApiKey)) :=
  if hasNul keyPrefix then .error .dataError else .ok (getApiKeyByPrefix apiKeys keyPrefix)

def verifyApiKeyHash (storedHash computedHash : String) : Except Raised Bool :=
  if isAscii storedHash && isAscii computedHash then .ok (storedHash = computedHash)
    else .error .typeError

def reject (message : String) : Except Raised (Uuid × Uuid) :=
    .error (.apiException (unauthorized message))

/-- The checks of the row that was found by the prefix of the key. -/
def checkRecord (sha512 : String → String) (now : Time) (apiKey : String) (id : Uuid)
    (record : StoredApiKey) :
    Except Raised (Uuid × Uuid) :=
  match verifyApiKeyHash record.val.keyHash (hashApiKey sha512 apiKey) with
  | .error raised => .error raised
  | .ok false => reject "Invalid API Key"
  | .ok true =>
    if record.val.status ≠ .active then reject "API Key has been revoked"
    else if record.val.expiresAt.any (· ≤ now) then reject "API Key has expired"
    else .ok (id, record.val.workspaceId)

/-- `authenticate_api_key`, with what it attaches to the request: the key and its workspace. -/
def authenticateRequest (sha512 : String → String) (now : Time) (apiKeys : ApiKeyTable)
    (authorization : Option String) :
    Except Raised (Uuid × Uuid) :=
  match presentedKey authorization with
  | .error error => .error (.apiException error)
  | .ok apiKey =>
    match extractPrefix apiKey with
    | .error message => .error (.valueError message)
    | .ok keyPrefix =>
      match fetchApiKeyByPrefix apiKeys keyPrefix with
      | .error raised => .error raised
      | .ok none => reject "Invalid API Key"
      | .ok (some (id, record)) => checkRecord sha512 now apiKey id record

/-- The guard has let the request pass, or raised an `APIException` that is answered 401. -/
def OnlyUnauthorized (outcome : Except Raised (Uuid × Uuid)) : Prop :=
  ∀ raised, outcome = .error raised → (∃ error, raised = .apiException error) ∧
    raised.answer.1 = 401

/-- A key that is long enough, with a prefix and a stored hash that the calls take. -/
structure Acceptable (apiKeys : ApiKeyTable) (apiKey : String) : Prop where
  long : apiKeyPrefixLength ≤ apiKey.length
  queried : hasNul (String.ofList (apiKey.toList.take apiKeyPrefixLength)) = false
  compared : ∀ id record, getApiKeyByPrefix apiKeys
    (String.ofList (apiKey.toList.take apiKeyPrefixLength)) = some (id, record) →
    isAscii record.val.keyHash = true

section Requests

variable {sha512 : String → String} {now : Time} {apiKeys : ApiKeyTable}
    {authorization : Option String}
variable {apiKey keyPrefix message : String} {error : APIException} {ids : Uuid × Uuid}
    {raised : Raised}
variable {id : Uuid} {record : StoredApiKey}

theorem onlyUnauthorized_ok : OnlyUnauthorized (.ok ids) := by
  intro raised failed
  cases failed

theorem onlyUnauthorized_reject : OnlyUnauthorized (reject message) := by
  intro raised failed
  cases failed
  exact ⟨⟨_, rfl⟩, rfl⟩

theorem onlyUnauthorized_error : OnlyUnauthorized (.error raised) ↔
    ∃ error, raised = .apiException error ∧ error.statusCode = 401 := by
  constructor
  · intro only
    obtain ⟨⟨error, rfl⟩, answered⟩ := only raised rfl
    exact ⟨error, rfl, answered⟩
  · rintro ⟨error, rfl, status⟩ raised failed
    cases failed
    exact ⟨⟨error, rfl⟩, status⟩

/-- A header without a bearer token is refused with 401. -/
theorem presentedKey_status (refused : presentedKey authorization = .error error) :
    error.statusCode = 401 := by
  unfold presentedKey at refused
  split at refused
  · cases refused
    rfl
  · cases refused
    rfl
  · dsimp only at refused
    split at refused
    · cases refused
      rfl
    · cases refused

theorem verifyApiKeyHash_ascii (digest : ∀ text, isAscii (sha512 text) = true)
    (ascii : isAscii record.val.keyHash = true) :
    verifyApiKeyHash record.val.keyHash (hashApiKey sha512 apiKey) =
      .ok (record.val.keyHash = hashApiKey sha512 apiKey) := by
  rw [verifyApiKeyHash, hashApiKey, ascii, digest]
  rfl

/-- The checks of a row raise nothing but 401 when its hash can be compared. -/
theorem checkRecord_only (digest : ∀ text, isAscii (sha512 text) = true) :
    OnlyUnauthorized (checkRecord sha512 now apiKey id record) ↔
      isAscii record.val.keyHash = true := by
  constructor
  · intro only
    by_contra foreign
    have refused : verifyApiKeyHash record.val.keyHash (hashApiKey sha512 apiKey) =
        .error .typeError := by
      rw [verifyApiKeyHash, Bool.eq_false_of_not_eq_true foreign]
      rfl
    rw [checkRecord, refused] at only
    obtain ⟨error, unequal, _⟩ := onlyUnauthorized_error.mp only
    cases unequal
  · intro ascii
    rw [checkRecord, verifyApiKeyHash_ascii digest ascii]
    cases decide (record.val.keyHash = hashApiKey sha512 apiKey) with
    | false => exact onlyUnauthorized_reject
    | true =>
      dsimp only
      split
      · exact onlyUnauthorized_reject
      · split
        · exact onlyUnauthorized_reject
        · exact onlyUnauthorized_ok

/-- A key that is presented. -/
theorem authenticateRequest_presented (digest : ∀ text, isAscii (sha512 text) = true)
    (presented : presentedKey authorization = .ok apiKey) :
    OnlyUnauthorized (authenticateRequest sha512 now apiKeys authorization) ↔
      Acceptable apiKeys apiKey := by
  rw [authenticateRequest, presented]
  dsimp only
  by_cases long : apiKeyPrefixLength ≤ apiKey.length
  · rw [extractPrefix_eq_ok.mpr ⟨long, rfl⟩]
    dsimp only
    rw [fetchApiKeyByPrefix]
    cases nul : hasNul (String.ofList (apiKey.toList.take apiKeyPrefixLength)) with
    | true =>
      rw [if_pos rfl, onlyUnauthorized_error]
      constructor
      · rintro ⟨_, unequal, _⟩
        cases unequal
      · intro acceptable
        cases nul.symm.trans acceptable.queried
    | false =>
      rw [if_neg Bool.false_ne_true]
      cases found : getApiKeyByPrefix apiKeys
        (String.ofList (apiKey.toList.take apiKeyPrefixLength)) with
      | none =>
        refine iff_of_true onlyUnauthorized_reject ⟨long, nul, ?_⟩
        intro id record there
        cases found.symm.trans there
      | some entry =>
        obtain ⟨id, record⟩ := entry
        refine (checkRecord_only digest).trans ⟨?_,
          fun acceptable => acceptable.compared id record found⟩
        intro ascii
        refine ⟨long, nul, ?_⟩
        intro _ _ there
        cases found.symm.trans there
        exact ascii
  · have short : extractPrefix apiKey = .error "Invalid API key format." :=
      if_pos (Nat.not_le.mp long)
    rw [short]
    refine iff_of_false ?_ fun acceptable => long acceptable.long
    intro only
    obtain ⟨_, unequal, _⟩ := onlyUnauthorized_error.mp only
    cases unequal

/-- What an outcome leaves behind. -/
def guarded : Except Raised (Uuid × Uuid) → Guarded
  | .ok (id, workspaceId) => .authenticated id workspaceId
  | .error (.apiException error) => .rejected error
  | .error _ => .unhandled

theorem guarded_checkRecord (digest : ∀ text, isAscii (sha512 text) = true)
    (ascii : isAscii record.val.keyHash = true) :
    checkApiKey sha512 now apiKey (some (id, record)) =
      guarded (checkRecord sha512 now apiKey id record) := by
  rw [checkApiKey, checkRecord, verifyApiKeyHash_ascii digest ascii]
  by_cases same : record.val.keyHash = hashApiKey sha512 apiKey
  · rw [if_neg (not_not.mpr same), decide_eq_true same]
    dsimp only
    split
    · rfl
    · split <;> rfl
  · rw [if_pos same, decide_eq_false same]
    rfl

/-- As long as the calls take what they are given, this is the guard of the routes. -/
theorem authenticateApiKey_eq_guarded (digest : ∀ text, isAscii (sha512 text) = true)
    (takes : ∀ apiKey, presentedKey authorization = .ok apiKey →
      apiKeyPrefixLength ≤ apiKey.length → Acceptable apiKeys apiKey) :
    authenticateApiKey sha512 now (getApiKeyByPrefix apiKeys) authorization =
      guarded (authenticateRequest sha512 now apiKeys authorization) := by
  rw [authenticateApiKey, authenticateRequest]
  cases presented : presentedKey authorization with
  | error error => rfl
  | ok apiKey =>
    dsimp only
    cases extracted : extractPrefix apiKey with
    | error message => rfl
    | ok keyPrefix =>
      obtain ⟨long, rfl⟩ := extractPrefix_eq_ok.mp extracted
      have acceptable := takes apiKey presented long
      dsimp only
      rw [fetchApiKeyByPrefix, acceptable.queried, if_neg Bool.false_ne_true]
      cases found : getApiKeyByPrefix apiKeys
        (String.ofList (apiKey.toList.take apiKeyPrefixLength)) with
      | none => rfl
      | some entry =>
        obtain ⟨id, record⟩ := entry
        exact guarded_checkRecord digest (acceptable.compared id record found)

theorem only_unauthorized_iff (digest : ∀ text, isAscii (sha512 text) = true) :
    OnlyUnauthorized (authenticateRequest sha512 now apiKeys authorization) ↔
      ∀ apiKey, presentedKey authorization = .ok apiKey → Acceptable apiKeys apiKey := by
  cases presented : presentedKey authorization with
  | error error =>
    rw [authenticateRequest, presented]
    refine iff_of_true (onlyUnauthorized_error.mpr ⟨error, rfl, presentedKey_status presented⟩) ?_
    intro apiKey other
    cases other
  | ok apiKey =>
    rw [authenticateRequest_presented digest presented]
    constructor
    · intro acceptable other same
      obtain rfl := Except.ok.inj same
      exact acceptable
    · intro every
      exact every apiKey rfl

end Requests

/-- A digest as hexadecimal text. -/
def sampleDigest (_ : String) : String := "cf83e1357eefb8bd"

theorem sampleDigest_ascii (text : String) : isAscii (sampleDigest text) = true := by
  have ascii : isAscii "cf83e1357eefb8bd" = true := by decide
  exact ascii

/-- An unknown key. -/
theorem only_unauthorized_iff_unknown :
    OnlyUnauthorized (authenticateRequest sampleDigest 0 State.init.apiKeys
      (some "Bearer rly_a1b2c3d4e5f6")) := by
  refine (only_unauthorized_iff sampleDigest_ascii).mpr ?_
  intro apiKey presented
  obtain rfl : "rly_a1b2c3d4e5f6" = apiKey :=
    Except.ok.inj ((presentedKey_bearer _ (by decide)).symm.trans presented)
  refine ⟨by decide, by decide, ?_⟩
  intro id record found
  cases found

theorem short_key_unhandled : ¬ ∀ sha512, (∀ text, isAscii (sha512 text) = true) →
    ∀ now apiKeys authorization,
    OnlyUnauthorized (authenticateRequest sha512 now apiKeys authorization) := by
  intro always
  have only := always sampleDigest sampleDigest_ascii 0 State.init.apiKeys (some "Bearer abc")
  have raised : authenticateRequest sampleDigest 0 State.init.apiKeys (some "Bearer abc") =
      .error (.valueError "Invalid API key format.") := by
    decide
  have answered := (only _ raised).2
  cases answered

end Relays.ApiKeys
