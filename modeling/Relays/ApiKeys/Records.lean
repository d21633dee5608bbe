import Relays.Core.Errors
import Relays.Core.Time
import Relays.Library.Relation
import Relays.Workspaces.Slugs

/-! API keys: the text that a client presents, the row that is stored of it and the bodies that
describe it. The digest of `hashlib.sha512` is a parameter. -/

namespace Relays

open ReadCommitted

/-- A name that has passed `validate_key_name`. -/
structure KeyName where
  text : String
  visible : text.toList.all isSpace = false
  bounded : text.length ≤ 100

def validateKeyName (value : String) : Except String KeyName :=
  let stripped := strip isSpace value.toList
  if empty : stripped = [] then .error "API-Key Name cannot be empty"
  else if bounded : (String.ofList stripped).length ≤ 100 then
    .ok ⟨String.ofList stripped, by
      rw [String.toList_ofList, all_strip]
      exact Bool.eq_false_iff.mpr fun every => empty (strip_eq_nil.mpr every), bounded⟩
  else .error "API-Key Name cannot exceed 100 characters"

def validateExpiresAt (now : Time) (value : Option Time) : Except String (Option Time) :=
  match value with
  | none => .ok none
  | some expiresAt =>
    if expiresAt ≤ now then .error "expires_at must be a future timestamp" else .ok (some expiresAt)

def apiKeyPrefix : String := "rly"

def apiKeyPrefixLength : Nat := 12

/-- The key of a secret that `secrets.token_urlsafe` has drawn. -/
def generateApiKey (secretPart : String) : String := apiKeyPrefix ++ "_" ++ secretPart

def extractPrefix (apiKey : String) : Except String String :=
  if apiKey.length < apiKeyPrefixLength then .error "Invalid API key format."
  else .ok (String.ofList (apiKey.toList.take apiKeyPrefixLength))

def hashApiKey (sha512 : String → String) (apiKey : String) : String := sha512 apiKey

inductive APIKeyStatus where
  | active
  | revoked
  deriving DecidableEq, Repr

structure ApiKey where
  workspaceId : Uuid
  createdBy : Uuid
  name : String
  keyPrefix : String
  keyHash : String
  status : APIKeyStatus := .active
  expiresAt : Option Time
  lastUsedAt : Option Time := none
  revokedAt : Option Time := none
  createdAt : Time
  updatedAt : Time

/-- SQL's `trim` drops blanks only. -/
structure ApiKey.Checks (row : ApiKey) : Prop where
  chkNameNotBlank : strip (· = ' ') row.name.toList ≠ []
  chkRevokedState : (row.status = .active ∧ row.revokedAt = none) ∨
    (row.status = .revoked ∧ row.revokedAt.isSome = true)

instance : DecidablePred ApiKey.Checks := fun row =>
  decidable_of_iff (strip (· = ' ') row.name.toList ≠ [] ∧
    ((row.status = .active ∧ row.revokedAt = none) ∨
      (row.status = .revoked ∧ row.revokedAt.isSome = true)))
    ⟨fun ⟨name, state⟩ => ⟨name, state⟩, fun ⟨name, state⟩ => ⟨name, state⟩⟩

abbrev StoredApiKey := { row : ApiKey // row.Checks }

abbrev ApiKeyTable := Relation Uuid Nat StoredApiKey

/-- `uq_workspace_id_name` and `uq_key_prefix`. -/
def ApiKey.clash (first second : StoredApiKey) : Bool :=
  (first.val.workspaceId = second.val.workspaceId && first.val.name = second.val.name) ||
    first.val.keyPrefix = second.val.keyPrefix

theorem ApiKey.clash_symm (first second : StoredApiKey) :
    ApiKey.clash first second = ApiKey.clash second first := by
  simp [ApiKey.clash, eq_comm]

theorem ApiKey.clash_of_keyPrefix {first second : StoredApiKey}
    (same : first.val.keyPrefix = second.val.keyPrefix) : ApiKey.clash first second = true := by
  simp [ApiKey.clash, same]

/-- A validated name passes the CHECK constraint on names. -/
theorem KeyName.not_blank (name : KeyName) : strip (· = ' ') name.text.toList ≠ [] := by
  intro blank
  have every := List.all_eq_true.mp (strip_eq_nil.mp blank)
  have spaces : name.text.toList.all isSpace = true := by
    apply List.all_eq_true.mpr
    intro char member
    obtain rfl : char = ' ' := by simpa using every char member
    decide
  rw [name.visible] at spaces
  cases spaces

structure APIKeyListResponseBody where
  id : Uuid
  name : String
  keyPrefix : String
  status : APIKeyStatus
  expiresAt : Option Time
  lastUsedAt : Option Time
  revokedAt : Option Time
  createdAt : Time
  updatedAt : Time
  deriving DecidableEq, Repr

/-- The body with the key itself, which is present after its creation only. -/
structure APIKeyResponseBody extends APIKeyListResponseBody where
  apiKey : Option String := none
  deriving DecidableEq, Repr

def ApiKey.listBody (id : Uuid) (row : ApiKey) : APIKeyListResponseBody where
  id := id
  name := row.name
  keyPrefix := row.keyPrefix
  status := row.status
  expiresAt := row.expiresAt
  lastUsedAt := row.lastUsedAt
  revokedAt := row.revokedAt
  createdAt := row.createdAt
  updatedAt := row.updatedAt

end Relays
